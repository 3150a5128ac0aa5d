import Switchboard.Proofs.Matching.Calls
import Switchboard.Proofs.Matching.Naive

/-!
# One rule, carried out in two ways

The rules of matching are written over any monad.  `Matching.node_related` goes
through them once, for two monads at a time: if the two ways to carry out a call
agree on every call that the rule can make, they agree on the rule.

What they agree on comes with a flag that is set as long as no loop was refused
(`Outcome`).  A verdict found with the flag set is the one of the naive
evaluation; once a loop was refused, the task is not grounded.  The second half
needs that every loop open around a call has asked for it (`Pending`).
-/

namespace Switchboard

/-- Related computations of two monads give the same value, and a condition
holds of it and of the flag. -/
structure Comparison (m n : Type → Type) [Monad m] [Monad n] where
  Rel : {α : Type} → (Bool → α → Prop) → m α → n α → Prop
  pure : ∀ {α : Type} {P : Bool → α → Prop} {a : α}, P true a → Rel P (pure a) (pure a)
  bind : ∀ {α β : Type} {P : Bool → α → Prop} {Q : Bool → β → Prop} {x : m α} {y : n α}
    {f : α → m β} {f' : α → n β}, Rel P x y →
    (∀ clean a, P clean a → Rel (fun clean' b => Q (clean && clean') b) (f a) (f' a)) →
    Rel Q (x >>= f) (y >>= f')
  mono : ∀ {α : Type} {P Q : Bool → α → Prop} {x : m α} {y : n α}, Rel P x y →
    (∀ clean a, P clean a → Q clean a) → Rel Q x y

/-- What holds of a verdict; the flag says that no loop was refused for it. -/
structure Outcome (g : Grammar) (tokens : List String) (goal : Goal) (position : Nat)
    (clean : Bool) (verdict : Verdict) : Prop where
  sound : ∀ next, verdict = .ok next → Consumes g goal tokens position next
  naive : clean = true → Naive g tokens goal position verdict
  ungrounded : clean = false → ¬Grounded g (goal, tokens.drop position)

/-- Each open loop has asked for the task. -/
def Pending (g : Grammar) (task : Task) (around : List OpenLoop) : Prop :=
  ∀ o ∈ around, Relation.TransGen (Serves g) task (.node o.node, o.rest)

variable {g : Grammar}

theorem Pending.sub {task sub : Task} {around : List OpenLoop} (h : Pending g task around)
    (serves : Serves g sub task) : Pending g sub around :=
  fun o mem => .head serves (h o mem)

theorem ungrounded_of_serves {task sub : Task} (serves : Serves g sub task)
    (h : ¬Grounded g sub) : ¬Grounded g task :=
  fun grounded => h (grounded.inv serves)

namespace Call

def task (c : Call) : Task :=
  (.node c.node, c.rest)

/-- Each loop open around the call has asked for it. -/
def Pending (g : Grammar) (c : Call) : Prop :=
  Switchboard.Pending g c.task (c.scope.openLoops c.active)

theorem outermost_pending (g : Grammar) (tokens : List String) (id : NodeId) :
    (outermost tokens id).Pending g :=
  fun _ mem => (List.not_mem_nil mem).elim

/-- An open loop that is entered again with nothing consumed has asked for itself. -/
theorem Pending.asks_itself {c : Call} (pending : c.Pending g)
    (again : c.scope.reentered c.active c.node c.position = true) :
    Relation.TransGen (Serves g) c.task c.task := by
  refine pending ⟨c.node, c.rest⟩ (Scope.mem_openLoops.2 ?_)
  rcases Scope.reentered_iff.1 again with mem | mem
  · exact Or.inr ⟨_, mem, rfl⟩
  · exact Or.inl mem

theorem Pending.not_grounded_of_reentered {c : Call} (pending : c.Pending g)
    (again : c.scope.reentered c.active c.node c.position = true) : ¬Grounded g c.task :=
  not_grounded_of_transGen_self (pending.asks_itself again)

end Call

/-- Two ways to carry out calls agree on all that the rule for a call may ask. -/
structure Agree {m n : Type → Type} [Monad m] [Monad n] (R : Comparison m n) (g : Grammar)
    (c : Call) (left : Calls m) (right : Calls n) : Prop where
  visit : ∀ {active : Active} {id : NodeId} {position : Nat},
    Callee g ⟨c.scope, active, id, position⟩ c →
    Call.Pending g ⟨c.scope, active, id, position⟩ →
    R.Rel (Outcome g c.scope.tokens (.node id) position)
      (left.visit active id position) (right.visit active id position)
  share : ∀ {inner : Scope} {id : NodeId}, Callee g ⟨inner, [], id, 0⟩ c →
    Call.Pending g ⟨inner, [], id, 0⟩ →
    R.Rel (fun clean whole => ∃ verdict, whole = exactly inner.tokens verdict ∧
      Outcome g inner.tokens (.node id) 0 clean verdict)
      (left.share inner id) (right.share inner id)
  cut : (∃ body, g.node? c.node = some (.loop (some body))) →
    c.scope.reentered c.active c.node c.position = true →
    R.Rel (fun clean _ => clean = false) left.cut right.cut

section

variable {m n : Type → Type} [Monad m] [Monad n] {R : Comparison m n} {c : Call}
  {left : Calls m} {right : Calls n}

theorem Outcome.of_naive {tokens : List String} {goal : Goal} {position : Nat}
    {verdict : Verdict} (h : Naive g tokens goal position verdict) :
    Outcome g tokens goal position true verdict where
  sound next eq := by
    obtain rfl := eq
    exact h.settled
  naive _ := h
  ungrounded refused := by cases refused

/-! ## Sequences -/

theorem serves_tail {tokens : List String} {index position next : Nat} {part : NodeId}
    {ids : List NodeId} (head : Consumes g (.node part) tokens position next) :
    Serves g (.parts (index + 1) ids, tokens.drop next)
      (.parts index (part :: ids), tokens.drop position) := by
  obtain ⟨word, spelled, split⟩ := head.drop_eq
  rw [split]
  exact .tail spelled

theorem Outcome.cons {tokens : List String} {index position next : Nat} {part : NodeId}
    {ids : List NodeId} {clean clean' : Bool} {verdict : Verdict}
    (head : Outcome g tokens (.node part) position clean (.ok next))
    (tail : Outcome g tokens (.parts (index + 1) ids) next clean' verdict) :
    Outcome g tokens (.parts index (part :: ids)) position (clean && clean') verdict where
  sound last eq := (head.sound next rfl).cons (tail.sound last eq)
  naive both := by
    obtain ⟨first, second⟩ := Bool.and_eq_true_iff.1 both
    exact .cons (head.naive first) (tail.naive second)
  ungrounded either := by
    rcases Bool.and_eq_false_iff.1 either with first | second
    · exact ungrounded_of_serves .head (head.ungrounded first)
    · exact ungrounded_of_serves (serves_tail (head.sound next rfl)) (tail.ungrounded second)

theorem Outcome.step {tokens : List String} {index position : Nat} {part : NodeId}
    {ids : List NodeId} {clean : Bool} {reason : Mismatch}
    (head : Outcome g tokens (.node part) position clean (.error reason)) :
    Outcome g tokens (.parts index (part :: ids)) position clean (.error (.step index reason)) where
  sound next eq := by cases eq
  naive all := .step (head.naive all)
  ungrounded refused := ungrounded_of_serves .head (head.ungrounded refused)

theorem parts_related {all : List NodeId} (agree : Agree R g c left right)
    (shape : g.node? c.node = some (.sequence all)) {ids : List NodeId} {index position : Nat}
    (listed : ∀ id ∈ ids, id ∈ all) (behind : c.position ≤ position)
    (inside : position ≤ c.scope.tokens.length)
    (pending : Pending g (.parts index ids, c.scope.tokens.drop position)
      (c.scope.openLoops c.active)) :
    R.Rel (Outcome g c.scope.tokens (.parts index ids) position)
      (Matching.parts left c.active index ids position)
      (Matching.parts right c.active index ids position) := by
  induction ids generalizing index position with
  | nil => exact R.pure (.of_naive .nil)
  | cons part ids ih =>
      have visited := agree.visit (.part shape (listed part List.mem_cons_self) behind inside)
        (pending.sub .head)
      refine R.bind visited fun clean verdict head => ?_
      cases verdict with
      | error reason =>
          apply R.pure
          rw [Bool.and_true]
          exact head.step
      | ok next =>
          have consumed := head.sound next rfl
          refine R.mono (ih (fun id mem => listed id (List.mem_cons_of_mem _ mem))
            (behind.trans consumed.le) (consumed.le_length inside)
            (pending.sub (serves_tail consumed))) fun clean' verdict tail => ?_
          exact head.cons tail

/-! ## Products -/

/-- What holds of the answers of channels to their shares; the flag says that no
loop was refused for any of them. -/
structure Answered (g : Grammar) (task : Task) (entries : List (String × NodeId))
    (taken : List String) (clean : Bool) (answer : String × NodeId → Verdict) : Prop where
  sound : ∀ e ∈ entries, ∀ next, answer e = .ok next →
    Consumes g (.node e.2) (onChannel e.1 taken) 0 next
  naive : clean = true → ∀ e ∈ entries,
    Naive g (onChannel e.1 taken) (.node e.2) 0 (answer e)
  ungrounded : clean = false → ¬Grounded g task

theorem Answered.congr {task : Task} {entries : List (String × NodeId)}
    {taken taken' : List String} {clean : Bool} {answer answer' : String × NodeId → Verdict}
    (h : Answered g task entries taken clean answer)
    (tokens : ∀ e ∈ entries, onChannel e.1 taken' = onChannel e.1 taken)
    (same : ∀ e ∈ entries, answer' e = answer e) :
    Answered g task entries taken' clean answer' where
  sound e mem := by
    rw [tokens e mem, same e mem]
    exact h.sound e mem
  naive all e mem := by
    rw [tokens e mem, same e mem]
    exact h.naive all e mem
  ungrounded := h.ungrounded

theorem Answered.nil {task : Task} {taken : List String}
    {answer : String × NodeId → Verdict} : Answered g task [] taken true answer where
  sound e mem := (List.not_mem_nil mem).elim
  naive _ e mem := (List.not_mem_nil mem).elim
  ungrounded refused := by cases refused

theorem Answered.cons {task : Task} {e : String × NodeId} {entries : List (String × NodeId)}
    {taken : List String} {clean : Bool} {answer : String × NodeId → Verdict}
    (sound : ∀ next, answer e = .ok next → Consumes g (.node e.2) (onChannel e.1 taken) 0 next)
    (naive : clean = true → Naive g (onChannel e.1 taken) (.node e.2) 0 (answer e))
    (tail : Answered g task entries taken clean answer) :
    Answered g task (e :: entries) taken clean answer where
  sound := List.forall_mem_cons.2 ⟨sound, tail.sound⟩
  naive all := List.forall_mem_cons.2 ⟨naive all, tail.naive all⟩
  ungrounded := tail.ungrounded

theorem Answered.tail {task : Task} {e : String × NodeId} {entries : List (String × NodeId)}
    {taken : List String} {clean : Bool} {answer : String × NodeId → Verdict}
    (h : Answered g task (e :: entries) taken clean answer) :
    Answered g task entries taken clean answer where
  sound other mem := h.sound other (List.mem_cons_of_mem _ mem)
  naive all other mem := h.naive all other (List.mem_cons_of_mem _ mem)
  ungrounded := h.ungrounded

/-- Of two flags the stronger one. -/
theorem Answered.and {task : Task} {entries : List (String × NodeId)} {taken : List String}
    {clean clean' : Bool} {answer : String × NodeId → Verdict}
    (h : Answered g task entries taken clean' answer)
    (refused : clean = false → ¬Grounded g task) :
    Answered g task entries taken (clean && clean') answer where
  sound := h.sound
  naive both := h.naive (Bool.and_eq_true_iff.1 both).2
  ungrounded either := (Bool.and_eq_false_iff.1 either).elim refused h.ungrounded

/-- The names of a table differ from entry to entry. -/
theorem ne_of_ascending {e : String × NodeId} {entries : List (String × NodeId)}
    (ascending : Entries.Ascending (e :: entries)) : ∀ other ∈ entries, e.1 ≠ other.1 := by
  intro other mem same
  have less := (List.pairwise_cons.1 ascending).1 other mem
  rw [same] at less
  exact String.lt_irrefl _ less

/-- The answers of all entries, changed at one name. -/
def answerAt (channel : String) (verdict : Verdict) (answer : String × NodeId → Verdict)
    (e : String × NodeId) : Verdict :=
  if e.1 = channel then verdict else answer e

theorem answerAt_same (e : String × NodeId) (verdict : Verdict)
    (answer : String × NodeId → Verdict) : answerAt e.1 verdict answer e = verdict :=
  if_pos rfl

theorem answerAt_of_ne {channel : String} {e : String × NodeId} (ne : channel ≠ e.1)
    (verdict : Verdict) (answer : String × NodeId → Verdict) :
    answerAt channel verdict answer e = answer e :=
  if_neg ne.symm

section Product

variable {channels : Keyed NodeId}

/-- A share is asked for as the rule of a product asks for it. -/
theorem share_related (agree : Agree R g c left right) (pending : c.Pending g)
    (shape : g.node? c.node = some (.product channels)) {e : String × NodeId}
    (listed : e ∈ channels.entries) {taken : List String} (front : taken <+: c.rest)
    (tagged : ∀ token ∈ taken, Tagged channels token) :
    R.Rel (fun clean whole => ∃ verdict, whole = exactly (onChannel e.1 taken) verdict ∧
        Outcome g (onChannel e.1 taken) (.node e.2) 0 clean verdict)
      (left.share ⟨onChannel e.1 taken, c.scope.openLoops c.active⟩ e.2)
      (right.share ⟨onChannel e.1 taken, c.scope.openLoops c.active⟩ e.2) := by
  refine agree.share (.share shape listed front) fun o mem => ?_
  have outer : o ∈ c.scope.openLoops c.active := by
    rcases Scope.mem_openLoops.1 mem with mem | ⟨entry, mem, _⟩
    · exact mem
    · exact (List.not_mem_nil mem).elim
  exact .head (.share shape listed front tagged) (pending o outer)

theorem emptyShares_related (agree : Agree R g c left right) (pending : c.Pending g)
    (shape : g.node? c.node = some (.product channels)) {entries : List (String × NodeId)}
    (listed : ∀ e ∈ entries, e ∈ channels.entries) (ascending : Entries.Ascending entries) :
    R.Rel (fun clean shares => ∃ answer, shares = sharesIn entries [] answer ∧
        Answered g c.task entries [] clean answer)
      (Matching.emptyShares left (c.scope.openLoops c.active) entries)
      (Matching.emptyShares right (c.scope.openLoops c.active) entries) := by
  induction entries with
  | nil => exact R.pure ⟨fun _ => .ok 0, rfl, .nil⟩
  | cons e entries ih =>
      have mem := listed e List.mem_cons_self
      have none_ : ∀ token ∈ ([] : List String), Tagged channels token :=
        fun token mem => (List.not_mem_nil mem).elim
      have asked := share_related agree pending shape mem List.nil_prefix none_
      refine R.bind asked fun clean whole head => ?_
      have others := ih (fun e mem => listed e (List.mem_cons_of_mem _ mem))
        (List.pairwise_cons.1 ascending).2
      refine R.bind others fun clean' shares tail => R.pure ?_
      obtain ⟨verdict, rfl, outcome⟩ := head
      obtain ⟨answer, rfl, answered⟩ := tail
      have same : ∀ other ∈ entries, answerAt e.1 verdict answer other = answer other :=
        fun other mem => answerAt_of_ne (ne_of_ascending ascending other mem) _ _
      refine ⟨answerAt e.1 verdict answer, ?_, ?_⟩
      · rw [sharesIn_cons, sharesIn_congr (fun _ _ => rfl) same, answerAt_same]
        rfl
      · have tail := (answered.congr (fun _ _ => rfl) same).and fun refused =>
          ungrounded_of_serves (.share shape mem List.nil_prefix none_)
            (outcome.ungrounded refused)
        rw [Bool.and_true]
        refine .cons ?_ ?_ tail
        · rw [answerAt_same]
          exact outcome.sound
        · rw [answerAt_same]
          exact fun both => outcome.naive (Bool.and_eq_true_iff.1 both).1

theorem onChannel_concat {channel token value : String} (taken : List String)
    (carried : carried? channel token = some value) :
    onChannel channel (taken ++ [token]) = onChannel channel taken ++ [value] := by
  rw [onChannel_append]
  exact congrArg _ (List.filterMap_cons_some carried)

theorem onChannel_concat_of_ne {channel other token value : String} (taken : List String)
    (carried : carried? channel token = some value) (ne : channel ≠ other) :
    onChannel other (taken ++ [token]) = onChannel other taken := by
  have silent : carried? other token = none := by
    cases found : carried? other token with
    | none => rfl
    | some _ => exact (ne (channel_unique carried found)).elim
  rw [onChannel_append]
  exact (congrArg _ (List.filterMap_cons_none silent)).trans (List.append_nil _)

/-- One more token is taken: only the channel it carries is asked again. -/
theorem grow_related (agree : Agree R g c left right) (pending : c.Pending g)
    (shape : g.node? c.node = some (.product channels)) {entries : List (String × NodeId)}
    (listed : ∀ e ∈ entries, e ∈ channels.entries) (ascending : Entries.Ascending entries)
    {taken : List String} {token channel value : String}
    (carried : carried? channel token = some value) (front : taken ++ [token] <+: c.rest)
    (tagged : ∀ token' ∈ taken ++ [token], Tagged channels token') {before : Bool}
    {answer : String × NodeId → Verdict}
    (answered : Answered g c.task entries taken before answer) :
    R.Rel (fun clean shares => ∃ answer', shares = sharesIn entries (taken ++ [token]) answer' ∧
        Answered g c.task entries (taken ++ [token]) (before && clean) answer')
      (Matching.grow left (c.scope.openLoops c.active) channel value
        (sharesIn entries taken answer))
      (Matching.grow right (c.scope.openLoops c.active) channel value
        (sharesIn entries taken answer)) := by
  induction entries with
  | nil =>
      refine R.pure ⟨answer, rfl, ?_⟩
      rw [Bool.and_true]
      exact answered.congr (fun e mem => (List.not_mem_nil mem).elim) fun _ _ => rfl
  | cons e entries ih =>
      have mem := listed e List.mem_cons_self
      have differ := ne_of_ascending ascending
      rw [sharesIn_cons, Matching.grow, Matching.grow]
      by_cases found : e.1 = channel
      · subst found
        rw [if_pos rfl, if_pos rfl, ← onChannel_concat taken carried]
        refine R.bind (share_related agree pending shape mem front tagged)
          fun clean whole head => R.pure ?_
        obtain ⟨verdict, rfl, outcome⟩ := head
        have other_shares : ∀ other ∈ entries,
            onChannel other.1 (taken ++ [token]) = onChannel other.1 taken :=
          fun other mem => onChannel_concat_of_ne taken carried (differ other mem)
        have same : ∀ other ∈ entries, answerAt e.1 verdict answer other = answer other :=
          fun other mem => answerAt_of_ne (differ other mem) _ _
        refine ⟨answerAt e.1 verdict answer, ?_, ?_⟩
        · rw [sharesIn_cons, answerAt_same, sharesIn_congr other_shares same]
        · have tail := (answered.tail.congr other_shares same).and fun refused =>
            ungrounded_of_serves (.share shape mem front tagged) (outcome.ungrounded refused)
          rw [Bool.and_true, Bool.and_comm]
          refine .cons ?_ ?_ tail
          · rw [answerAt_same]
            exact outcome.sound
          · rw [answerAt_same]
            exact fun both => outcome.naive (Bool.and_eq_true_iff.1 both).1
      · rw [if_neg found, if_neg found]
        have others := ih (fun e mem => listed e (List.mem_cons_of_mem _ mem))
          (List.pairwise_cons.1 ascending).2 answered.tail
        refine R.bind others fun clean shares grown => R.pure ?_
        obtain ⟨answer', rfl, tail⟩ := grown
        have tokens := onChannel_concat_of_ne taken carried (Ne.symm found)
        have same : ∀ other ∈ entries, answerAt e.1 (answer e) answer' other = answer' other :=
          fun other mem => answerAt_of_ne (differ other mem) _ _
        refine ⟨answerAt e.1 (answer e) answer', ?_, ?_⟩
        · rw [sharesIn_cons, answerAt_same, tokens, sharesIn_congr (fun _ _ => rfl) same]
        · rw [Bool.and_true]
          refine .cons ?_ ?_ (tail.congr (fun _ _ => rfl) same)
          · rw [answerAt_same, tokens]
            exact answered.sound e List.mem_cons_self
          · rw [answerAt_same, tokens]
            exact fun both =>
              answered.naive (Bool.and_eq_true_iff.1 both).1 e List.mem_cons_self

/-- What is known once a product has taken some tokens: the answers to the shares
that these make, and, if no loop was refused, that no fewer tokens decide. -/
structure Searched (g : Grammar) (c : Call) (channels : Keyed NodeId) (taken : List String)
    (clean : Bool) (answer : String × NodeId → Verdict) : Prop where
  front : taken <+: c.rest
  tagged : ∀ token ∈ taken, Tagged channels token
  answered : Answered g c.task channels.entries taken clean answer
  undecided : clean = true → ∀ k < taken.length, ∃ earlier,
    (∀ e ∈ channels.entries,
      Naive g (onChannel e.1 (c.rest.take k)) (.node e.2) 0 (earlier e)) ∧
    decision? channels c.rest c.position k earlier = none

theorem Searched.take_eq {taken : List String} {clean : Bool}
    {answer : String × NodeId → Verdict} (h : Searched g c channels taken clean answer) :
    c.rest.take taken.length = taken :=
  (List.prefix_iff_eq_take.1 h.front).symm

/-- The decision of a product, taken on what its channels answered. -/
theorem Searched.outcome (shape : g.node? c.node = some (.product channels))
    {taken : List String} {clean : Bool} {answer : String × NodeId → Verdict}
    (h : Searched g c channels taken clean answer) {verdict : Verdict}
    (decided : decision? channels c.rest c.position taken.length answer = some verdict) :
    Outcome g c.scope.tokens (.node c.node) c.position clean verdict where
  sound next eq := by
    obtain ⟨all, rfl⟩ := decision?_eq_ok (eq ▸ decided)
    rw [h.take_eq] at all
    refine ⟨taken, .product shape h.tagged fun e mem => ?_, h.front, rfl⟩
    exact spells_of_exactly (h.answered.sound e mem) (all e mem)
  naive all := by
    have answers_by_split : ∀ k, ∃ earlier : String × NodeId → Verdict, k ≤ taken.length →
        (∀ e ∈ channels.entries,
          Naive g (onChannel e.1 (c.rest.take k)) (.node e.2) 0 (earlier e)) ∧
        (k < taken.length → decision? channels c.rest c.position k earlier = none) ∧
        (k = taken.length → earlier = answer) := by
      intro k
      rcases Nat.lt_trichotomy k taken.length with less | rfl | more
      · obtain ⟨earlier, naive, undecided⟩ := h.undecided all k less
        exact ⟨earlier, fun _ => ⟨naive, fun _ => undecided, fun eq => by omega⟩⟩
      · refine ⟨answer, fun _ => ⟨?_, fun less => by omega, fun _ => rfl⟩⟩
        rw [h.take_eq]
        exact h.answered.naive all
      · exact ⟨answer, fun bound => by omega⟩
    choose table rows using answers_by_split
    have last : table taken.length = answer := (rows _ (Nat.le_refl _)).2.2 rfl
    rw [← last] at decided
    exact .product shape (fun k bound => (rows k bound).1)
      (fun k less => (rows k less.le).2.1 less) decided
  ungrounded := h.answered.ungrounded

/-- The search ends where the product decides. -/
theorem search_of_decided (calls : Calls m) (around : List OpenLoop) {position : Nat}
    {taken tokens : List String} {answer : String × NodeId → Verdict} {verdict : Verdict}
    (decided : decision? channels (taken ++ tokens) position taken.length answer =
      some verdict) :
    Matching.search calls around channels position taken.length
      (sharesIn channels.entries taken answer) tokens = pure verdict := by
  rw [decision?, List.take_left, List.getElem?_append_right (Nat.le_refl _),
    Nat.sub_self] at decided
  unfold Matching.search
  dsimp only
  by_cases all : (Share.failures (sharesIn channels.entries taken answer)).isEmpty = true
  · rw [if_pos all] at decided ⊢
    rw [Option.some.inj decided]
  · rw [if_neg all] at decided ⊢
    cases tokens with
    | nil => rw [← Option.some.inj decided]
    | cons token tokens =>
        cases tag : tag? channels token with
        | none =>
            simp only [List.getElem?_cons_zero, tag] at decided
            rw [← Option.some.inj decided]
            simp only [tag]
        | some tagged =>
            simp only [List.getElem?_cons_zero, tag] at decided
            cases decided

/-- Where the product does not decide, one more token is taken. -/
theorem search_of_undecided (calls : Calls m) (around : List OpenLoop) {position : Nat}
    {taken tokens : List String} {answer : String × NodeId → Verdict} {token channel value : String}
    (undecided : decision? channels (taken ++ token :: tokens) position taken.length answer = none)
    (tag : tag? channels token = some (channel, value)) :
    Matching.search calls around channels position taken.length
        (sharesIn channels.entries taken answer) (token :: tokens) =
      Matching.grow calls around channel value (sharesIn channels.entries taken answer) >>=
        fun shares => Matching.search calls around channels position (taken.length + 1) shares tokens := by
  have failing := (decision?_eq_none_iff.1 undecided).1
  rw [← failures_sharesIn_isEmpty, List.take_left] at failing
  rw [Matching.search, if_neg failing]
  simp only [tag]

theorem tagged_of_decision?_eq_none {position : Nat} {taken tokens : List String}
    {token : String} {answer : String × NodeId → Verdict}
    (undecided : decision? channels (taken ++ token :: tokens) position taken.length answer =
      none) : Tagged channels token := by
  obtain ⟨token', read, tagged⟩ := (decision?_eq_none_iff.1 undecided).2
  rw [List.getElem?_append_right (Nat.le_refl _), Nat.sub_self] at read
  obtain rfl := Option.some.inj read
  exact tagged

/-- One more token is taken where the tokens so far did not decide. -/
theorem Searched.grow {taken tokens : List String} {token : String} {clean clean' : Bool}
    {answer answer' : String × NodeId → Verdict}
    (h : Searched g c channels taken clean answer) (split : taken ++ token :: tokens = c.rest)
    (undecided : decision? channels c.rest c.position taken.length answer = none)
    (answered : Answered g c.task channels.entries (taken ++ [token]) (clean && clean') answer') :
    Searched g c channels (taken ++ [token]) (clean && clean') answer' where
  front := ⟨tokens, by rw [List.append_assoc]; exact split⟩
  tagged other mem := by
    rcases List.mem_append.1 mem with mem | mem
    · exact h.tagged other mem
    · rw [← split] at undecided
      exact List.mem_singleton.1 mem ▸ tagged_of_decision?_eq_none undecided
  answered := answered
  undecided both k less := by
    have clean := (Bool.and_eq_true_iff.1 both).1
    rw [List.length_append, List.length_singleton] at less
    rcases Nat.lt_or_eq_of_le (Nat.le_of_lt_succ less) with less | rfl
    · exact h.undecided clean k less
    · refine ⟨answer, ?_, undecided⟩
      rw [h.take_eq]
      exact h.answered.naive clean

/-- The walk over the tokens that are left is the one of the search. -/
theorem search_related (agree : Agree R g c left right) (pending : c.Pending g)
    (shape : g.node? c.node = some (.product channels)) {taken tokens : List String}
    (split : taken ++ tokens = c.rest) {before : Bool} {answer : String × NodeId → Verdict}
    (searched : Searched g c channels taken before answer) :
    R.Rel (fun clean verdict =>
        Outcome g c.scope.tokens (.node c.node) c.position (before && clean) verdict)
      (Matching.search left (c.scope.openLoops c.active) channels c.position taken.length
        (sharesIn channels.entries taken answer) tokens)
      (Matching.search right (c.scope.openLoops c.active) channels c.position taken.length
        (sharesIn channels.entries taken answer) tokens) := by
  induction tokens generalizing taken before answer with
  | nil =>
      cases decided : decision? channels c.rest c.position taken.length answer with
      | none =>
          obtain ⟨token, read, _⟩ := (decision?_eq_none_iff.1 decided).2
          rw [← split, List.append_nil, List.getElem?_length] at read
          cases read
      | some verdict =>
          have outcome := searched.outcome shape decided
          rw [← split] at decided
          rw [search_of_decided _ _ decided, search_of_decided _ _ decided]
          exact R.pure (by rwa [Bool.and_true])
  | cons token tokens ih =>
      cases decided : decision? channels c.rest c.position taken.length answer with
      | some verdict =>
          have outcome := searched.outcome shape decided
          rw [← split] at decided
          rw [search_of_decided _ _ decided, search_of_decided _ _ decided]
          exact R.pure (by rwa [Bool.and_true])
      | none =>
          have step := decided
          rw [← split] at step
          have tagged := tagged_of_decision?_eq_none step
          obtain ⟨⟨channel, value⟩, tag⟩ := Option.isSome_iff_exists.1 (tag?_isSome_iff.2 tagged)
          have split' : (taken ++ [token]) ++ tokens = c.rest := by
            rw [List.append_assoc]
            exact split
          have allTagged : ∀ other ∈ taken ++ [token], Tagged channels other := by
            intro other mem
            rcases List.mem_append.1 mem with mem | mem
            · exact searched.tagged other mem
            · exact List.mem_singleton.1 mem ▸ tagged
          have grown := grow_related agree pending shape (fun _ mem => mem) channels.ascending
            (tag?_eq_some_iff.1 tag).1 ⟨tokens, split'⟩ allTagged searched.answered
          rw [search_of_undecided _ _ step tag, search_of_undecided _ _ step tag]
          refine R.bind grown fun clean shares found => ?_
          obtain ⟨answer', rfl, answered⟩ := found
          have later := ih split' (searched.grow split decided answered)
          rw [List.length_append, List.length_singleton] at later
          refine R.mono later fun clean' verdict outcome => ?_
          rwa [Bool.and_assoc] at outcome

theorem product_related (agree : Agree R g c left right) (pending : c.Pending g)
    (shape : g.node? c.node = some (.product channels)) :
    R.Rel (Outcome g c.scope.tokens (.node c.node) c.position)
      (Matching.product left c.scope c.active channels c.position)
      (Matching.product right c.scope c.active channels c.position) := by
  have empty := emptyShares_related agree pending shape (fun _ mem => mem) channels.ascending
  refine R.bind empty fun clean shares found => ?_
  obtain ⟨answer, rfl, answered⟩ := found
  exact search_related agree pending shape (List.nil_append c.rest)
    ⟨List.nil_prefix, fun _ mem => (List.not_mem_nil mem).elim, answered,
      fun _ k less => (Nat.not_lt_zero k less).elim⟩

end Product

/-! ## All shapes -/

theorem Outcome.sequence {tokens : List String} {id position : Nat} {ids : List NodeId}
    {clean : Bool} {verdict : Verdict} (shape : g.node? id = some (.sequence ids))
    (h : Outcome g tokens (.parts 0 ids) position clean verdict) :
    Outcome g tokens (.node id) position clean verdict where
  sound next eq := by
    obtain ⟨word, spelled, front, rfl⟩ := h.sound next eq
    exact ⟨word, .sequence shape spelled, front, rfl⟩
  naive all := .sequence shape (h.naive all)
  ungrounded refused := ungrounded_of_serves (.parts shape) (h.ungrounded refused)

theorem serves_branch {tokens : List String} {id branch position : Nat}
    {branches : Keyed NodeId} (shape : g.node? id = some (.choice branches))
    (read : tokens[position]?.bind branches.find? = some branch) :
    Serves g (.node branch, tokens.drop (position + 1)) (.node id, tokens.drop position) := by
  obtain ⟨tag, readTag, found⟩ := Option.bind_eq_some_iff.1 read
  rw [drop_of_getElem? readTag]
  exact .branch shape found

theorem Outcome.choice {tokens : List String} {id branch position : Nat} {branches : Keyed NodeId}
    {clean : Bool} {verdict : Verdict} (shape : g.node? id = some (.choice branches))
    (read : tokens[position]?.bind branches.find? = some branch)
    (h : Outcome g tokens (.node branch) (position + 1) clean verdict) :
    Outcome g tokens (.node id) position clean verdict where
  sound next eq := by
    obtain ⟨tag, readTag, found⟩ := Option.bind_eq_some_iff.1 read
    obtain ⟨word, spelled, front, rfl⟩ := h.sound next eq
    refine ⟨tag :: word, .choice shape found spelled, ?_, ?_⟩
    · rw [drop_of_getElem? readTag]
      exact List.cons_prefix_cons.2 ⟨rfl, front⟩
    · rw [List.length_cons]
      omega
  naive all := .choice shape read (h.naive all)
  ungrounded refused := ungrounded_of_serves (serves_branch shape read) (h.ungrounded refused)

theorem Outcome.loop {tokens : List String} {id body position : Nat} {clean : Bool}
    {verdict : Verdict} (shape : g.node? id = some (.loop (some body)))
    (h : Outcome g tokens (.node body) position clean verdict) :
    Outcome g tokens (.node id) position clean verdict where
  sound next eq := by
    obtain ⟨word, spelled, front, rfl⟩ := h.sound next eq
    exact ⟨word, .loop shape spelled, front, rfl⟩
  naive all := .loop shape (h.naive all)
  ungrounded refused := ungrounded_of_serves (.body shape) (h.ungrounded refused)

/-- Inside a loop that is entered, the loop itself is one that asked. -/
theorem Call.Pending.body {s : Scope} {active : Active} {id body position : Nat}
    (shape : g.node? id = some (.loop (some body)))
    (pending : Call.Pending g ⟨s, active, id, position⟩) :
    Call.Pending g ⟨s, (id, position) :: active, body, position⟩ := by
  intro o mem
  have serves : Serves g (.node body, s.tokens.drop position) (.node id, s.tokens.drop position) :=
    .body shape
  rcases Scope.mem_openLoops.1 mem with outer | ⟨entry, listed, rfl⟩
  · exact .head serves (pending o (Scope.mem_openLoops.2 (Or.inl outer)))
  · rcases List.mem_cons.1 listed with rfl | listed
    · exact .single serves
    · exact .head serves (pending _ (Scope.mem_openLoops.2 (Or.inr ⟨entry, listed, rfl⟩)))

/-- The rules of matching keep two ways to carry out calls in agreement. -/
theorem node_related (agree : Agree R g c left right) (pending : c.Pending g)
    (inside : c.position ≤ c.scope.tokens.length) :
    R.Rel (Outcome g c.scope.tokens (.node c.node) c.position)
      (Matching.node g left c.scope c.active c.node c.position)
      (Matching.node g right c.scope c.active c.node c.position) := by
  unfold Matching.node
  cases shape : g.node? c.node with
  | none => exact R.pure (.of_naive (.unknownNode shape))
  | some node =>
      cases node with
      | emit expected =>
          dsimp only
          split
          · rename_i read
            exact R.pure (.of_naive (.emit shape read))
          · rename_i read
            exact R.pure (.of_naive (.token shape read))
      | sequence ids =>
          have parts := parts_related agree shape (fun _ mem => mem)
            (Nat.le_refl _) inside (pending.sub (.parts shape))
          exact R.mono parts fun clean verdict outcome => outcome.sequence shape
      | choice branches =>
          dsimp only
          split
          · rename_i branch read
            have visited := agree.visit (.branch shape read) (pending.sub (serves_branch shape read))
            exact R.mono visited fun clean verdict outcome => outcome.choice shape read
          · rename_i read
            exact R.pure (.of_naive (.unlisted shape read))
      | loop body =>
          cases body with
          | none => exact R.pure (.of_naive (.unresolved shape))
          | some body =>
              dsimp only
              split
              · rename_i again
                refine R.bind (agree.cut ⟨body, shape⟩ again) fun clean _ refused => R.pure ?_
                obtain rfl := refused
                exact ⟨fun _ eq => (by cases eq), fun all => (by cases all),
                  fun _ => pending.not_grounded_of_reentered again⟩
              · rename_i fresh
                have visited := agree.visit (.body shape (Bool.eq_false_iff.2 fresh))
                  (pending.body shape)
                exact R.mono visited fun clean verdict outcome => outcome.loop shape
      | product channels => exact product_related agree pending shape

end

end Switchboard
