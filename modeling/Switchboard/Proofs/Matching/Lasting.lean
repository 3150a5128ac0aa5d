import Switchboard.Proofs.Matching.Acceptance
import Switchboard.Proofs.Matching.Outside

/-!
# Rejections that last

A transcript grows at its end.  A mismatch that speaks of a token, or of a node, is
conclusive: whatever tokens follow, the mismatch stays the same, number by number
(`Grammar.rejection_lasts`).  Only a mismatch at the end of the transcript can be cured.

The parts in front of the one that fails have matched, and what matched was a word, so they
match when the transcript grows (`Growing.matched`).  The search of a product meets the
same token without channel.  Its shares are matched with loops open around them that have
more tokens left by then; but they had more left than the share before, too, and of such
loops a match takes no notice (`Matching.plain_alike`).
-/

namespace Switchboard

variable {g : Grammar}

/-! ## Transcripts that grow -/

/-- A mismatch that does not come from the end of a transcript: it speaks of a token that
is there, or of a node. -/
def Mismatch.Conclusive : Mismatch → Prop
  | .token _ found _ => found.isSome = true
  | .choice _ found _ => found.isSome = true
  | .product _ _ blocked => blocked.isSome = true
  | .noProgress _ => True
  | .unresolved _ => True
  | .unknownNode _ => True
  | .step _ _ => False
  | .trailing _ => False

/-- A verdict that more tokens behind the transcript do not change. -/
def Lasting (verdict : Verdict) : Prop :=
  ∀ reason, verdict = .error reason → reason.root.Conclusive

theorem lasting_error {reason : Mismatch} (conclusive : reason.root.Conclusive) :
    Lasting (.error reason) := by
  rintro _ ⟨⟩
  exact conclusive

theorem Consumes.longer {goal : Goal} {tokens : List String} {position next : Nat}
    (h : Consumes g goal tokens position next) (inside : position ≤ tokens.length)
    (more : List String) : Consumes g goal (tokens ++ more) position next := by
  obtain ⟨word, spelled, front, rfl⟩ := h
  refine ⟨word, spelled, ?_, rfl⟩
  rw [List.drop_append_of_le_length inside]
  exact front.trans (List.prefix_append _ _)

/-- A goal is matched at a position of a transcript and of one that goes on behind it, and
the open loops have asked for it both times. -/
structure Growing (g : Grammar) (tokens more : List String) (active : Active) (goal : Goal)
    (position : Nat) : Prop where
  inside : position ≤ tokens.length
  behind : ∀ entry ∈ active, entry.2 ≤ position
  pending : Pending g (goal, tokens.drop position) ((Scope.outermost tokens).openLoops active)
  pending' : Pending g (goal, (tokens ++ more).drop position)
    ((Scope.outermost (tokens ++ more)).openLoops active)

namespace Growing

variable {tokens more : List String} {active : Active} {goal : Goal} {id : NodeId} {position : Nat}

theorem start (g : Grammar) (tokens more : List String) (goal : Goal) :
    Growing g tokens more [] goal 0 where
  inside := Nat.zero_le _
  behind _ mem := (List.not_mem_nil mem).elim
  pending _ mem := (List.not_mem_nil mem).elim
  pending' _ mem := (List.not_mem_nil mem).elim

theorem sub (h : Growing g tokens more active goal position) {sub : Goal} {next : Nat}
    (onward : position ≤ next) (inside : next ≤ tokens.length)
    (serves : Serves g (sub, tokens.drop next) (goal, tokens.drop position))
    (serves' : Serves g (sub, (tokens ++ more).drop next) (goal, (tokens ++ more).drop position)) :
    Growing g tokens more active sub next where
  inside := inside
  behind entry mem := (h.behind entry mem).trans onward
  pending := h.pending.sub serves
  pending' := h.pending'.sub serves'

theorem body (h : Growing g tokens more active (.node id) position) {body : NodeId}
    (shape : g.node? id = some (.loop (some body))) :
    Growing g tokens more ((id, position) :: active) (.node body) position where
  inside := h.inside
  behind entry mem := by
    rcases List.mem_cons.1 mem with rfl | mem
    · exact Nat.le_refl _
    · exact h.behind entry mem
  pending := Call.Pending.body shape h.pending
  pending' := Call.Pending.body shape h.pending'

theorem bounds (h : Growing g tokens more active (.node id) position) :
    Call.InBounds ⟨.outermost tokens, active, id, position⟩ :=
  ⟨h.inside, fun entry mem => (h.behind entry mem).trans h.inside⟩

theorem bounds' (h : Growing g tokens more active (.node id) position) :
    Call.InBounds ⟨.outermost (tokens ++ more), active, id, position⟩ := by
  have longer : tokens.length ≤ (tokens ++ more).length := by
    rw [List.length_append]
    exact Nat.le_add_right _ _
  exact ⟨h.inside.trans longer, fun entry mem => (h.bounds.2 entry mem).trans longer⟩

/-- What is matched was a word, and is matched in the longer transcript too. -/
theorem matched (h : Growing g tokens more active (.node id) position) (guarded : g.LoopGuarded)
    {depth depth' next : Nat}
    (enough : nesting g ⟨.outermost tokens, active, id, position⟩ < depth)
    (enough' : nesting g ⟨.outermost (tokens ++ more), active, id, position⟩ < depth')
    (found : Matching.plain g depth (.outermost tokens) active id position = some (.ok next)) :
    Matching.plain g depth' (.outermost (tokens ++ more)) active id position = some (.ok next) ∧
      Consumes g (.node id) tokens position next := by
  obtain ⟨_, verdict, answer, outcome⟩ := Matching.plain_outcome guarded enough h.bounds h.pending
  obtain rfl : verdict = .ok next := Option.some.inj (answer.symm.trans found)
  have consumed := outcome.sound next rfl
  obtain ⟨_, verdict', answer', outcome'⟩ :=
    Matching.plain_outcome guarded enough' h.bounds' h.pending'
  rw [← outcome'.eq_ok_of_consumes (consumed.longer h.inside more)]
  exact ⟨answer', consumed⟩

end Growing

section Product

variable {tokens more taken : List String} {active : Active} {id : NodeId} {position : Nat}
  {channels : Keyed NodeId}

/-- Where tokens remain, every open loop has more text left than a share of them, before and
after the transcript has grown. -/
theorem Growing.alike (h : Growing g tokens more active (.node id) position)
    (some_ : tokens.drop position ≠ []) (front : taken <+: tokens.drop position)
    (channel : String) :
    AlikeUpTo (Grammar.weight (onChannel channel taken))
      ((Scope.outermost tokens).openLoops active)
      ((Scope.outermost (tokens ++ more)).openLoops active) := by
  have lighter : Grammar.weight (onChannel channel taken) < Grammar.weight (tokens.drop position) :=
    Grammar.weight_share_lt front some_
  have heavy : ∀ entry ∈ active,
      Grammar.weight (onChannel channel taken) < Grammar.weight (tokens.drop entry.2) :=
    fun entry mem => lighter.trans_le (Grammar.weight_drop_le tokens (h.behind entry mem))
  intro o light
  rw [Scope.mem_openLoops, Scope.mem_openLoops]
  constructor
  · rintro (none_ | ⟨entry, mem, rfl⟩)
    · exact (List.not_mem_nil none_).elim
    · exact (Nat.not_lt_of_le light (heavy entry mem)).elim
  · rintro (none_ | ⟨entry, mem, rfl⟩)
    · exact (List.not_mem_nil none_).elim
    · have inside : entry.2 ≤ tokens.length := (h.behind entry mem).trans h.inside
      have split : (Scope.outermost (tokens ++ more)).tokens.drop entry.2 =
          tokens.drop entry.2 ++ more := List.drop_append_of_le_length inside
      rw [split, Grammar.weight_append] at light
      have heavier := heavy entry mem
      omega

namespace Matching

/-- No share reaches beyond a token without channel. -/
theorem front_of_tagged {rest : List String} (inside : reach channels rest < rest.length)
    (front : taken <+: rest ++ more) (tagged : ∀ token ∈ taken, Tagged channels token) :
    taken <+: rest := by
  refine List.prefix_of_prefix_length_le front (List.prefix_append rest more) ?_
  by_contra beyond
  have there : reach channels rest < taken.length := by omega
  obtain ⟨back, same⟩ := front
  have read : rest[reach channels rest]? = some taken[reach channels rest] := by
    calc rest[reach channels rest]?
        = (rest ++ more)[reach channels rest]? := (List.getElem?_append_left inside).symm
      _ = (taken ++ back)[reach channels rest]? := by rw [same]
      _ = taken[reach channels rest]? := List.getElem?_append_left there
      _ = some taken[reach channels rest] := List.getElem?_eq_getElem there
  have carries := tag?_isSome_iff.2 (tagged _ (List.getElem_mem there))
  rw [untagged_of_reach read] at carries
  cases carries

/-- The search of a product that meets a token without channel meets it in the longer
transcript, and its channels say the same of their shares. -/
theorem product_longer (guarded : g.LoopGuarded)
    (shape : g.node? id = some (.product channels))
    (h : Growing g tokens more active (.node id) position) {depth depth' : Nat}
    (enough : nesting g ⟨.outermost tokens, active, id, position⟩ ≤ depth)
    (enough' : nesting g ⟨.outermost (tokens ++ more), active, id, position⟩ ≤ depth')
    {reason : Mismatch}
    (found : product (plainCalls g depth (.outermost tokens)) (.outermost tokens) active channels
      position = some (.error reason))
    (conclusive : reason.root.Conclusive) :
    product (plainCalls g depth' (.outermost (tokens ++ more))) (.outermost (tokens ++ more)) active
      channels position = some (.error reason) := by
  obtain ⟨verdict, answers⟩ :=
    Grammar.exists_verdicts guarded ⟨false⟩ ((Scope.outermost tokens).openLoops active)
  have first := Grammar.productAnswer?_eq_fromScratch guarded ⟨false⟩ .empty shape enough
    fun e _ taken _ _ => answers (onChannel e.1 taken) e.2
  have failed := Option.some.inj (first.symm.trans found)
  have ended_at_token : reach channels (tokens.drop position) < (tokens.drop position).length := by
    obtain ⟨_, rfl⟩ := fromScratch_eq_error_iff.1 failed
    have blocked : ((tokens.drop position)[reach channels (tokens.drop position)]?.map _).isSome =
      true := conclusive
    rw [Option.isSome_map] at blocked
    obtain ⟨token, read⟩ := Option.isSome_iff_exists.1 blocked
    exact (List.getElem?_eq_some_iff.1 read).1
  have some_ : tokens.drop position ≠ [] :=
    List.ne_nil_of_length_pos (Nat.zero_lt_of_lt ended_at_token)
  have split : (tokens ++ more).drop position = tokens.drop position ++ more :=
    List.drop_append_of_le_length h.inside
  have answers' : ∀ e ∈ channels.entries, ∀ taken, taken <+: (tokens ++ more).drop position →
      (∀ token ∈ taken, Tagged channels token) →
      g.matchesIn? ⟨false⟩
          ⟨onChannel e.1 taken, (Scope.outermost (tokens ++ more)).openLoops active⟩ e.2 =
        some (onShares verdict taken e) := by
    intro e _ taken front tagged
    rw [split] at front
    have front : taken <+: tokens.drop position := front_of_tagged ended_at_token front tagged
    rw [← matchesIn?_alike guarded (h.alike some_ front e.1) e.2]
    exact answers (onChannel e.1 taken) e.2
  have second := Grammar.productAnswer?_eq_fromScratch guarded ⟨false⟩ .empty shape enough' answers'
  refine second.trans (congrArg some ?_)
  show fromScratch _ channels position ((tokens ++ more).drop position) = _
  rw [split]
  exact fromScratch_append ended_at_token failed more

end Matching

end Product

/-! ## The rules in a longer transcript -/

theorem getElem?_longer {tokens : List String} {position : Nat}
    (there : tokens[position]?.isSome = true) (more : List String) :
    (tokens ++ more)[position]? = tokens[position]? := by
  obtain ⟨token, read⟩ := Option.isSome_iff_exists.1 there
  obtain ⟨inside, _⟩ := List.getElem?_eq_some_iff.1 read
  exact List.getElem?_append_left inside

namespace Matching

section Longer

variable {tokens more : List String} {active : Active} {id : NodeId} {position : Nat}
  {left right : Calls Option} {verdict : Verdict}

/-- The calls of a rule that have a lasting verdict have the same one in the longer
transcript. -/
def Lasts (g : Grammar) (tokens more : List String) (active : Active) (id : NodeId)
    (position : Nat) (left right : Calls Option) : Prop :=
  ∀ active' id' position' verdict,
    Callee g ⟨.outermost tokens, active', id', position'⟩
      ⟨.outermost tokens, active, id, position⟩ →
    Callee g ⟨.outermost (tokens ++ more), active', id', position'⟩
      ⟨.outermost (tokens ++ more), active, id, position⟩ →
    Growing g tokens more active' (.node id') position' →
    left.visit active' id' position' = some verdict → Lasting verdict →
      right.visit active' id' position' = some verdict ∧
        ∀ next, verdict = .ok next → Consumes g (.node id') tokens position' next

theorem parts_longer (visits : Lasts g tokens more active id position left right)
    {all : List NodeId} (shape : g.node? id = some (.sequence all)) {ids : List NodeId}
    (listed : ∀ part ∈ ids, part ∈ all) {index here : Nat} (onward : position ≤ here)
    (h : Growing g tokens more active (.parts index ids) here)
    (found : parts left active index ids here = some verdict) (lasting : Lasting verdict) :
    parts right active index ids here = some verdict := by
  induction ids generalizing index here with
  | nil => exact found
  | cons part ids ih =>
      have mem := listed part List.mem_cons_self
      have longer : here ≤ (tokens ++ more).length :=
        h.inside.trans (List.length_append ▸ Nat.le_add_right _ _)
      have head : Growing g tokens more active (.node part) here :=
        h.sub (Nat.le_refl _) h.inside .head .head
      have visited := fun verdict => visits active part here verdict
        (.part shape mem onward h.inside) (.part shape mem onward longer) head
      rw [parts] at found ⊢
      obtain ⟨first, answer, later⟩ := Option.bind_eq_some_iff.1 found
      cases first with
      | error reason =>
          obtain rfl := Option.some.inj later
          have conclusive : reason.root.Conclusive := lasting (.step index reason) rfl
          obtain ⟨same, _⟩ := visited _ answer (lasting_error conclusive)
          rw [same]
          rfl
      | ok next =>
          have trivial_ : Lasting (.ok next) := by
            rintro _ ⟨⟩
          obtain ⟨same, consumes⟩ := visited _ answer trivial_
          have consumed := consumes next rfl
          have tail : Growing g tokens more active (.parts (index + 1) ids) next :=
            h.sub consumed.le (consumed.le_length h.inside) (serves_tail consumed)
              (serves_tail (consumed.longer h.inside more))
          rw [same]
          exact ih (fun part mem => listed part (List.mem_cons_of_mem _ mem))
            (onward.trans consumed.le) tail later

section Rules

variable {reason : Mismatch}

theorem emit_longer {expected : String} (shape : g.node? id = some (.emit expected))
    (conclusive : reason.root.Conclusive)
    (found : node g left (.outermost tokens) active id position = some (.error reason)) :
    node g right (.outermost (tokens ++ more)) active id position = some (.error reason) := by
  unfold node at found ⊢
  rw [shape] at found ⊢
  dsimp only at found ⊢
  split at found
  · cases found
  · rename_i read
    obtain rfl := Except.error.inj (Option.some.inj found)
    have same : (Scope.outermost (tokens ++ more)).tokens[position]? =
        (Scope.outermost tokens).tokens[position]? := getElem?_longer conclusive more
    have read' : ¬(Scope.outermost (tokens ++ more)).tokens[position]? = some expected := by
      rw [same]
      exact read
    rw [if_neg read', same]
    rfl

theorem choice_longer (visits : Lasts g tokens more active id position left right)
    (h : Growing g tokens more active (.node id) position) {branches : Keyed NodeId}
    (shape : g.node? id = some (.choice branches)) (conclusive : reason.root.Conclusive)
    (found : node g left (.outermost tokens) active id position = some (.error reason)) :
    node g right (.outermost (tokens ++ more)) active id position = some (.error reason) := by
  have lasting := lasting_error conclusive
  unfold node at found ⊢
  rw [shape] at found ⊢
  cases read : tokens[position]?.bind branches.find? with
  | some branch =>
      have found : left.visit active branch (position + 1) = some (.error reason) := by
        simpa only [Scope.outermost, read] using found
      obtain ⟨tag, readTag, _⟩ := Option.bind_eq_some_iff.1 read
      obtain ⟨inside, _⟩ := List.getElem?_eq_some_iff.1 readTag
      have same : (tokens ++ more)[position]? = tokens[position]? :=
        getElem?_longer (Option.isSome_iff_exists.2 ⟨tag, readTag⟩) more
      have read' : (tokens ++ more)[position]?.bind branches.find? = some branch := by
        rw [same, read]
      have visited := visits active branch (position + 1) (.error reason)
        (.branch shape read) (.branch shape read') (h.sub (Nat.le_succ _) inside
          (serves_branch shape read) (serves_branch shape read')) found lasting
      simpa only [Scope.outermost, read'] using visited.1
  | none =>
      simp only [Scope.outermost, read] at found
      obtain rfl := Except.error.inj (Option.some.inj found)
      have same : (tokens ++ more)[position]? = tokens[position]? :=
        getElem?_longer conclusive more
      simp only [Scope.outermost, same, read]
      rfl

/-- Nothing is open around either transcript, so the same loops are refused. -/
theorem loop_longer (visits : Lasts g tokens more active id position left right)
    (h : Growing g tokens more active (.node id) position) (cuts : left.cut = right.cut)
    {body : NodeId} (shape : g.node? id = some (.loop (some body)))
    (conclusive : reason.root.Conclusive)
    (found : node g left (.outermost tokens) active id position = some (.error reason)) :
    node g right (.outermost (tokens ++ more)) active id position = some (.error reason) := by
  have lasting := lasting_error conclusive
  have same : (Scope.outermost (tokens ++ more)).reentered active id position =
      (Scope.outermost tokens).reentered active id position := rfl
  unfold node at found ⊢
  rw [shape] at found ⊢
  by_cases again : (Scope.outermost tokens).reentered active id position = true
  · simp only [if_pos again] at found
    simp only [same, if_pos again, ← cuts]
    exact found
  · simp only [if_neg again] at found
    simp only [same, if_neg again]
    have fresh := Bool.eq_false_iff.2 again
    exact (visits ((id, position) :: active) body position (.error reason)
      (.body shape fresh) (.body shape fresh) (h.body shape) found lasting).1

end Rules

/-- The rules keep a conclusive mismatch when the transcript grows. -/
theorem node_longer (visits : Lasts g tokens more active id position left right)
    (h : Growing g tokens more active (.node id) position) (cuts : left.cut = right.cut)
    {reason : Mismatch} (conclusive : reason.root.Conclusive)
    (products : ∀ channels, g.node? id = some (.product channels) →
      product left (.outermost tokens) active channels position = some (.error reason) →
      product right (.outermost (tokens ++ more)) active channels position = some (.error reason))
    (found : node g left (.outermost tokens) active id position = some (.error reason)) :
    node g right (.outermost (tokens ++ more)) active id position = some (.error reason) := by
  cases shape : g.node? id with
  | none =>
      unfold node at found ⊢
      rw [shape] at found ⊢
      exact found
  | some shaped =>
      cases shaped with
      | emit expected => exact emit_longer shape conclusive found
      | sequence ids =>
          have parts : Growing g tokens more active (.parts 0 ids) position :=
            h.sub (Nat.le_refl _) h.inside (.parts shape) (.parts shape)
          unfold node at found ⊢
          rw [shape] at found ⊢
          exact parts_longer visits shape (fun _ mem => mem) (Nat.le_refl _) parts found
            (lasting_error conclusive)
      | choice branches => exact choice_longer visits h shape conclusive found
      | loop body =>
          cases body with
          | none =>
              unfold node at found ⊢
              rw [shape] at found ⊢
              exact found
          | some body => exact loop_longer visits h cuts shape conclusive found
      | product channels =>
          unfold node at found ⊢
          rw [shape] at found ⊢
          exact products channels shape found

end Longer

/-- A lasting verdict is the one of every longer transcript. -/
theorem plain_longer (guarded : g.LoopGuarded) {depth depth' : Nat} {tokens more : List String}
    {active : Active} {id : NodeId} {position : Nat} {verdict : Verdict}
    (h : Growing g tokens more active (.node id) position)
    (enough : nesting g ⟨.outermost tokens, active, id, position⟩ < depth)
    (enough' : nesting g ⟨.outermost (tokens ++ more), active, id, position⟩ < depth')
    (found : plain g depth (.outermost tokens) active id position = some verdict)
    (lasting : Lasting verdict) :
    plain g depth' (.outermost (tokens ++ more)) active id position = some verdict ∧
      ∀ next, verdict = .ok next → Consumes g (.node id) tokens position next := by
  induction depth generalizing depth' active id position verdict with
  | zero => cases found
  | succ depth ih =>
      cases verdict with
      | ok next =>
          obtain ⟨same, consumed⟩ := h.matched guarded enough enough' found
          refine ⟨same, ?_⟩
          rintro _ ⟨⟩
          exact consumed
      | error reason =>
          obtain ⟨depth', rfl⟩ : ∃ i, depth' = i + 1 := ⟨depth' - 1, by omega⟩
          have visits : Lasts g tokens more active id position
              (plainCalls g depth (.outermost tokens))
              (plainCalls g depth' (.outermost (tokens ++ more))) := by
            intro active' id' position' verdict callee callee' growing answer lasting'
            have less := callee.nesting_lt guarded
            have less' := callee'.nesting_lt guarded
            exact ih growing (by omega) (by omega) answer lasting'
          refine ⟨?_, fun next matched => by cases matched⟩
          exact node_longer visits h rfl (lasting reason rfl) (fun channels shape failed =>
            product_longer guarded shape h (Nat.le_of_lt_succ enough) (Nat.le_of_lt_succ enough')
              failed (lasting reason rfl)) found

end Matching

namespace Grammar

/-- A rejection that does not come from the end of the transcript is there to stay: every
longer transcript is rejected with the same mismatch.  And what a mismatch says to have
found at its root does stand there, where something else was expected. -/
theorem rejection_lasts (guarded : g.LoopGuarded) (config : MatchConfig) (id : NodeId)
    (tokens : List String) (reason : Mismatch)
    (rejected : g.matchesPrefix? config id tokens = some (.error reason)) :
    (reason.root.Conclusive → ∀ more,
      g.matchesPrefix? config id (tokens ++ more) = some (.error reason)) ∧
    reason.root.Reads tokens := by
  obtain ⟨verdict, rules⟩ := exists_rules guarded
  have answer : verdict tokens id = .error reason :=
    Option.some.inj ((rules config id tokens).symm.trans rejected)
  constructor
  · intro conclusive more
    have found := rules.plain guarded (nesting_outermost_lt g tokens id)
    rw [answer] at found
    have longer := (Matching.plain_longer guarded (Growing.start g tokens more (.node id))
      (nesting_outermost_lt g tokens id) (nesting_outermost_lt g (tokens ++ more) id) found
      (lasting_error conclusive)).1
    rw [rules.plain guarded (nesting_outermost_lt g (tokens ++ more) id)] at longer
    rw [rules config id (tokens ++ more), longer]
  · obtain ⟨verdict', found, fits⟩ := exists_matchesIn? guarded config (.outermost tokens) id
    rw [matchesIn?_outermost, rejected] at found
    exact fits.reads reason (Option.some.inj found).symm

/-- A token that no round begins with is there to stay. -/
theorem rounds_rejection_lasts :
    rounds.matchesPrefix? .default 0 ["again", "x"] =
        some (.error (.choice ["again", "stop"] (some "x") 1)) ∧
      rounds.matchesPrefix? .default 0 ["again", "x", "stop", "bye"] =
        some (.error (.choice ["again", "stop"] (some "x") 1)) := by
  have unlisted : (["again", "x"] : List String)[1]?.bind roundTags.find? = none := by decide
  have names : roundTags.names = ["again", "stop"] := by decide
  have naive : Naive rounds ["again", "x"] (.node 0) 0
      (.error (.choice roundTags.names (some "x") 1)) :=
    .loop rfl (.choice rfl rounds_again (.loop rfl (.unlisted rfl unlisted)))
  obtain ⟨verdict, rules⟩ := exists_rules rounds_loopGuarded
  have deep := nesting_outermost_lt rounds ["again", "x"] 0
  have found := Matching.plain_of_naive rounds_loopGuarded deep (Call.outermost_inBounds _ _)
    (Call.outermost_pending _ _ _) naive
  have rejected : rounds.matchesPrefix? .default 0 ["again", "x"] =
      some (.error (.choice ["again", "stop"] (some "x") 1)) := by
    rw [rules, ← rules.plain rounds_loopGuarded deep, ← names]
    exact found
  obtain ⟨lasts, _⟩ := rejection_lasts rounds_loopGuarded .default 0 ["again", "x"] _ rejected
  exact ⟨rejected, lasts rfl ["stop", "bye"]⟩

end Grammar

end Switchboard
