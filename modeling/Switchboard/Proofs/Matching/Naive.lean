import Mathlib.Tactic.Choose
import Switchboard.Proofs.Matching.Demand

/-!
# Matching without a guard

`Naive g tokens goal position verdict` carries out the rules of matching with
nothing to stop a loop from being entered again and with no memory of verdicts.
A derivation is a finite evaluation; where the bare recursion runs for ever
there is none.

A product asks all its channels again after every token (`decision?`).  The
matcher asks only the channel whose share has grown, which comes to the same,
since the other shares stay what they were.

The verdict is unique (`Naive.unique`) and tells exactly whether a word of the
goal stands in front (`Naive.settled`), and an evaluation is finite only where
the task is grounded (`Naive.grounded`).
-/

namespace Switchboard

/-! ## Products -/

/-- The shares of the channels in the tokens taken, each with a verdict. -/
def sharesIn (entries : List (String × NodeId)) (taken : List String)
    (verdict : String × NodeId → Verdict) : List Share :=
  entries.map fun e =>
    ⟨e.1, e.2, onChannel e.1 taken, exactly (onChannel e.1 taken) (verdict e)⟩

theorem sharesIn_cons (e : String × NodeId) (entries : List (String × NodeId))
    (taken : List String) (verdict : String × NodeId → Verdict) :
    sharesIn (e :: entries) taken verdict =
      ⟨e.1, e.2, onChannel e.1 taken, exactly (onChannel e.1 taken) (verdict e)⟩ ::
        sharesIn entries taken verdict := rfl

/-- What a product says once it has taken a number of the tokens that remain:
nothing yet, if some share is not matched and the next token carries a channel. -/
def decision? (channels : Keyed NodeId) (rest : List String) (position split : Nat)
    (verdict : String × NodeId → Verdict) : Option Verdict :=
  let failing := Share.failures (sharesIn channels.entries (rest.take split) verdict)
  if failing.isEmpty then some (.ok (position + split))
  else
    match rest[split]? with
    | none => some (.error (.product split failing none))
    | some token =>
        match tag? channels token with
        | none => some (.error (.product split failing (some ⟨token, position + split⟩)))
        | some _ => none

theorem exactly_eq_ok_iff {tokens : List String} {verdict : Verdict} :
    exactly tokens verdict = .ok () ↔ ∃ next, verdict = .ok next ∧ tokens.length ≤ next := by
  cases verdict with
  | error reason => simp [exactly]
  | ok next =>
      by_cases short : next < tokens.length
      · simp [exactly, short]
      · simp [exactly, Nat.not_lt.1 short]

/-- Every channel matches all of its share. -/
def Matched (channels : Keyed NodeId) (taken : List String)
    (verdict : String × NodeId → Verdict) : Prop :=
  ∀ e ∈ channels.entries, exactly (onChannel e.1 taken) (verdict e) = .ok ()

theorem failures_sharesIn_isEmpty {channels : Keyed NodeId} {taken : List String}
    {verdict : String × NodeId → Verdict} :
    (Share.failures (sharesIn channels.entries taken verdict)).isEmpty = true ↔
      Matched channels taken verdict := by
  rw [List.isEmpty_iff, Share.failures, List.filterMap_eq_nil_iff, sharesIn, List.forall_mem_map]
  refine forall₂_congr fun e _ => ?_
  dsimp only
  cases exactly (onChannel e.1 taken) (verdict e) with
  | ok u => simp
  | error reason => simp

section Decision

variable {channels : Keyed NodeId} {rest : List String} {position split : Nat}
  {verdict verdict' : String × NodeId → Verdict}

theorem sharesIn_congr {entries : List (String × NodeId)} {taken taken' : List String}
    (tokens : ∀ e ∈ entries, onChannel e.1 taken = onChannel e.1 taken')
    (same : ∀ e ∈ entries, verdict e = verdict' e) :
    sharesIn entries taken verdict = sharesIn entries taken' verdict' :=
  List.map_congr_left fun e he => by rw [tokens e he, same e he]

theorem decision?_congr (same : ∀ e ∈ channels.entries, verdict e = verdict' e) :
    decision? channels rest position split verdict =
      decision? channels rest position split verdict' := by
  rw [decision?, decision?, sharesIn_congr (fun _ _ => rfl) same]

/-- A product goes on where some share is not matched and the next token carries
a channel. -/
theorem decision?_eq_none_iff :
    decision? channels rest position split verdict = none ↔
      ¬Matched channels (rest.take split) verdict ∧
        ∃ token, rest[split]? = some token ∧ Tagged channels token := by
  rw [← failures_sharesIn_isEmpty, decision?]
  split
  · rename_i matched
    simp [matched]
  · rename_i failing
    split
    · rename_i atEnd
      simp [atEnd]
    · rename_i token read
      rw [read]
      split
      · rename_i untagged
        simp [← tag?_isSome_iff, untagged]
      · rename_i tag tagged
        simp [← tag?_isSome_iff, tagged, failing]

theorem decision?_eq_ok {next : Nat}
    (h : decision? channels rest position split verdict = some (.ok next)) :
    Matched channels (rest.take split) verdict ∧ next = position + split := by
  rw [← failures_sharesIn_isEmpty]
  rw [decision?] at h
  split at h
  · rename_i matched
    cases h
    exact ⟨matched, rfl⟩
  · split at h
    · cases h
    · split at h
      · cases h
      · cases h

theorem decision?_eq_error {reason : Mismatch}
    (h : decision? channels rest position split verdict = some (.error reason)) :
    ¬Matched channels (rest.take split) verdict ∧
      ∀ token, rest[split]? = some token → ¬Tagged channels token := by
  rw [← failures_sharesIn_isEmpty]
  rw [decision?] at h
  split at h
  · cases h
  · rename_i failing
    refine ⟨failing, fun token read => ?_⟩
    rw [read] at h
    rw [← tag?_isSome_iff]
    split at h
    · rename_i atEnd
      cases atEnd
    · rename_i other same
      cases same
      split at h
      · rename_i untagged
        simp [untagged]
      · cases h

/-- Where a product fails, it tells which shares are not matched and which token ended the
search. -/
theorem product_of_decision? {reason : Mismatch}
    (h : decision? channels rest position split verdict = some (.error reason)) :
    reason = .product split (Share.failures (sharesIn channels.entries (rest.take split) verdict))
      (rest[split]?.map fun token => ⟨token, position + split⟩) := by
  rw [decision?] at h
  split at h
  · cases h
  · split at h
    · rename_i ended
      rw [ended]
      exact (Except.error.inj (Option.some.inj h)).symm
    · rename_i token read
      rw [read]
      split at h
      · exact (Except.error.inj (Option.some.inj h)).symm
      · cases h

/-- The token that ended the search carries no channel, so tokens that do, taken from the front,
end before it. -/
theorem length_le_of_decision? {reason : Mismatch} {word : List String}
    (h : decision? channels rest position split verdict = some (.error reason))
    (tagged : ∀ token ∈ word, Tagged channels token) (front : word <+: rest) :
    word.length ≤ split := by
  by_contra beyond
  have inside : split < word.length := by omega
  obtain ⟨back, eq⟩ := front
  refine (decision?_eq_error h).2 word[split] ?_ (tagged _ (List.getElem_mem inside))
  rw [← eq, List.getElem?_append_left inside, List.getElem?_eq_getElem inside]

/-- The tokens that a product takes carry channels. -/
theorem tagged_of_undecided {answer : Nat → String × NodeId → Verdict}
    (undecided : ∀ k < split, decision? channels rest position k (answer k) = none) :
    split ≤ rest.length ∧ ∀ token ∈ rest.take split, Tagged channels token := by
  have read : ∀ k < split, ∃ token, rest[k]? = some token ∧ Tagged channels token :=
    fun k hk => (decision?_eq_none_iff.1 (undecided k hk)).2
  constructor
  · by_contra beyond
    obtain ⟨token, read, _⟩ := read rest.length (by omega)
    simp at read
  · intro token mem
    obtain ⟨k, hk, rfl⟩ := List.mem_take_iff_getElem.1 mem
    obtain ⟨token, read, tagged⟩ := read k (by omega)
    rw [List.getElem?_eq_some_iff] at read
    obtain ⟨_, rfl⟩ := read
    exact tagged

end Decision

/-! ## The evaluation -/

inductive Naive (g : Grammar) : List String → Goal → Nat → Verdict → Prop
  | unknownNode {tokens : List String} {id : NodeId} {position : Nat}
      (absent : g.node? id = none) :
      Naive g tokens (.node id) position (.error (.unknownNode id))
  | emit {tokens : List String} {id : NodeId} {expected : String} {position : Nat}
      (shape : g.node? id = some (.emit expected)) (read : tokens[position]? = some expected) :
      Naive g tokens (.node id) position (.ok (position + 1))
  | token {tokens : List String} {id : NodeId} {expected : String} {position : Nat}
      (shape : g.node? id = some (.emit expected)) (read : tokens[position]? ≠ some expected) :
      Naive g tokens (.node id) position (.error (.token expected tokens[position]? position))
  | sequence {tokens : List String} {id : NodeId} {ids : List NodeId} {position : Nat}
      {verdict : Verdict} (shape : g.node? id = some (.sequence ids))
      (parts : Naive g tokens (.parts 0 ids) position verdict) :
      Naive g tokens (.node id) position verdict
  | nil {tokens : List String} {index position : Nat} :
      Naive g tokens (.parts index []) position (.ok position)
  | cons {tokens : List String} {index : Nat} {part : NodeId} {ids : List NodeId}
      {position next : Nat} {verdict : Verdict}
      (head : Naive g tokens (.node part) position (.ok next))
      (tail : Naive g tokens (.parts (index + 1) ids) next verdict) :
      Naive g tokens (.parts index (part :: ids)) position verdict
  | step {tokens : List String} {index : Nat} {part : NodeId} {ids : List NodeId}
      {position : Nat} {reason : Mismatch}
      (head : Naive g tokens (.node part) position (.error reason)) :
      Naive g tokens (.parts index (part :: ids)) position (.error (.step index reason))
  | choice {tokens : List String} {id branch : NodeId} {branches : Keyed NodeId} {position : Nat}
      {verdict : Verdict} (shape : g.node? id = some (.choice branches))
      (read : tokens[position]?.bind branches.find? = some branch)
      (rest : Naive g tokens (.node branch) (position + 1) verdict) :
      Naive g tokens (.node id) position verdict
  | unlisted {tokens : List String} {id : NodeId} {branches : Keyed NodeId} {position : Nat}
      (shape : g.node? id = some (.choice branches))
      (read : tokens[position]?.bind branches.find? = none) :
      Naive g tokens (.node id) position
        (.error (.choice branches.names tokens[position]? position))
  | unresolved {tokens : List String} {id : NodeId} {position : Nat}
      (shape : g.node? id = some (.loop none)) :
      Naive g tokens (.node id) position (.error (.unresolved id))
  | loop {tokens : List String} {id body : NodeId} {position : Nat} {verdict : Verdict}
      (shape : g.node? id = some (.loop (some body)))
      (unrolled : Naive g tokens (.node body) position verdict) :
      Naive g tokens (.node id) position verdict
  | product {tokens : List String} {id : NodeId} {channels : Keyed NodeId}
      {position split : Nat} {verdict : Verdict} {answer : Nat → String × NodeId → Verdict}
      (shape : g.node? id = some (.product channels))
      (asked : ∀ k ≤ split, ∀ e ∈ channels.entries,
        Naive g (onChannel e.1 ((tokens.drop position).take k)) (.node e.2) 0 (answer k e))
      (undecided : ∀ k < split,
        decision? channels (tokens.drop position) position k (answer k) = none)
      (decided :
        decision? channels (tokens.drop position) position split (answer split) = some verdict) :
      Naive g tokens (.node id) position verdict

variable {g : Grammar}

theorem naive_node_iff {tokens : List String} {id : NodeId} {position : Nat} {verdict : Verdict} :
    Naive g tokens (.node id) position verdict ↔
      match g.node? id with
      | none => verdict = .error (.unknownNode id)
      | some (.emit expected) =>
          verdict = if tokens[position]? = some expected then .ok (position + 1)
            else .error (.token expected tokens[position]? position)
      | some (.sequence ids) => Naive g tokens (.parts 0 ids) position verdict
      | some (.choice branches) =>
          match tokens[position]?.bind branches.find? with
          | some branch => Naive g tokens (.node branch) (position + 1) verdict
          | none => verdict = .error (.choice branches.names tokens[position]? position)
      | some (.loop none) => verdict = .error (.unresolved id)
      | some (.loop (some body)) => Naive g tokens (.node body) position verdict
      | some (.product channels) =>
          ∃ (answer : Nat → String × NodeId → Verdict) (split : Nat),
            (∀ k ≤ split, ∀ e ∈ channels.entries,
              Naive g (onChannel e.1 ((tokens.drop position).take k)) (.node e.2) 0
                (answer k e)) ∧
            (∀ k < split,
              decision? channels (tokens.drop position) position k (answer k) = none) ∧
            decision? channels (tokens.drop position) position split (answer split) =
              some verdict := by
  constructor
  · intro h
    cases h with
    | unknownNode absent => simp [absent]
    | emit shape read => simp [shape, read]
    | token shape read => simp [shape, read]
    | sequence shape parts => simpa [shape] using parts
    | choice shape read rest => simpa [shape, read] using rest
    | unlisted shape read => simp [shape, read]
    | unresolved shape => simp [shape]
    | loop shape unrolled => simpa [shape] using unrolled
    | product shape asked undecided decided =>
        simp only [shape]
        exact ⟨_, _, asked, undecided, decided⟩
  · intro h
    split at h
    · rename_i absent
      exact h ▸ .unknownNode absent
    · rename_i expected shape
      split at h
      · rename_i read
        exact h ▸ .emit shape read
      · rename_i read
        exact h ▸ .token shape read
    · rename_i ids shape
      exact .sequence shape h
    · rename_i branches shape
      split at h
      · rename_i branch read
        exact .choice shape read h
      · rename_i read
        exact h ▸ .unlisted shape read
    · rename_i shape
      exact h ▸ .unresolved shape
    · rename_i body shape
      exact .loop shape h
    · rename_i channels shape
      obtain ⟨answer, split, asked, undecided, decided⟩ := h
      exact .product shape asked undecided decided

theorem naive_nil_iff {tokens : List String} {index position : Nat} {verdict : Verdict} :
    Naive g tokens (.parts index []) position verdict ↔ verdict = .ok position :=
  ⟨fun h => by cases h; rfl, fun h => h ▸ .nil⟩

theorem naive_cons_iff {tokens : List String} {index : Nat} {part : NodeId} {ids : List NodeId}
    {position : Nat} {verdict : Verdict} :
    Naive g tokens (.parts index (part :: ids)) position verdict ↔
      (∃ next, Naive g tokens (.node part) position (.ok next) ∧
        Naive g tokens (.parts (index + 1) ids) next verdict) ∨
      ∃ reason, Naive g tokens (.node part) position (.error reason) ∧
        verdict = .error (.step index reason) := by
  constructor
  · intro h
    cases h with
    | cons head tail => exact Or.inl ⟨_, head, tail⟩
    | step head => exact Or.inr ⟨_, head, rfl⟩
  · rintro (⟨next, head, tail⟩ | ⟨reason, head, rfl⟩)
    · exact .cons head tail
    · exact .step head

/-- An evaluation has one verdict. -/
theorem Naive.unique {tokens : List String} {goal : Goal} {position : Nat}
    {verdict other : Verdict} (h : Naive g tokens goal position verdict)
    (h' : Naive g tokens goal position other) : verdict = other := by
  induction h generalizing other with
  | unknownNode absent =>
      rw [naive_node_iff, absent] at h'
      exact h'.symm
  | emit shape read =>
      rw [naive_node_iff] at h'
      simp only [shape, read, if_true] at h'
      exact h'.symm
  | token shape read =>
      rw [naive_node_iff] at h'
      simp only [shape, if_neg read] at h'
      exact h'.symm
  | sequence shape _ ih =>
      rw [naive_node_iff, shape] at h'
      exact ih h'
  | nil => exact (naive_nil_iff.1 h').symm
  | cons _ _ ihHead ihTail =>
      rcases naive_cons_iff.1 h' with ⟨next, head, tail⟩ | ⟨reason, head, _⟩
      · cases ihHead head
        exact ihTail tail
      · cases ihHead head
  | step _ ih =>
      rcases naive_cons_iff.1 h' with ⟨next, head, _⟩ | ⟨reason, head, rfl⟩
      · cases ih head
      · cases ih head
        rfl
  | choice shape read _ ih =>
      rw [naive_node_iff] at h'
      simp only [shape, read] at h'
      exact ih h'
  | unlisted shape read =>
      rw [naive_node_iff] at h'
      simp only [shape, read] at h'
      exact h'.symm
  | unresolved shape =>
      rw [naive_node_iff] at h'
      simp only [shape] at h'
      exact h'.symm
  | loop shape _ ih =>
      rw [naive_node_iff] at h'
      simp only [shape] at h'
      exact ih h'
  | @product tokens id channels position split verdict answer shape _ undecided decided ih =>
      rw [naive_node_iff] at h'
      simp only [shape] at h'
      obtain ⟨answer', split', asked', undecided', decided'⟩ := h'
      have same_so_far : ∀ k ≤ split, k ≤ split' →
          decision? channels (tokens.drop position) position k (answer k) =
            decision? channels (tokens.drop position) position k (answer' k) :=
        fun k hk hk' => decision?_congr fun e he => ih k hk e he (asked' k hk' e he)
      rcases Nat.lt_trichotomy split split' with h | rfl | h
      · rw [same_so_far split (Nat.le_refl _) h.le, undecided' split h] at decided
        cases decided
      · rw [same_so_far split (Nat.le_refl _) (Nat.le_refl _), decided'] at decided
        exact Option.some.inj decided.symm
      · rw [← same_so_far split' h.le (Nat.le_refl _), undecided split' h] at decided'
        cases decided'

/-! ## What a verdict tells -/

/-- A word of the goal stands between two positions. -/
def Consumes (g : Grammar) (goal : Goal) (tokens : List String) (position next : Nat) : Prop :=
  ∃ word, Spells g goal word ∧ word <+: tokens.drop position ∧ next = position + word.length

/-- A verdict tells which word stands in front, or that none does. -/
def Settled (g : Grammar) (goal : Goal) (tokens : List String) (position : Nat) :
    Verdict → Prop
  | .ok next => Consumes g goal tokens position next
  | .error _ => ∀ word, Spells g goal word → ¬word <+: tokens.drop position

section Consumes

variable {goal : Goal} {tokens : List String} {position next : Nat}

theorem Consumes.drop_eq (h : Consumes g goal tokens position next) :
    ∃ word, Spells g goal word ∧ tokens.drop position = word ++ tokens.drop next := by
  obtain ⟨word, spelled, ⟨back, front⟩, rfl⟩ := h
  refine ⟨word, spelled, ?_⟩
  rw [← List.drop_drop, ← front, List.drop_left]

theorem Consumes.le (h : Consumes g goal tokens position next) : position ≤ next := by
  obtain ⟨word, _, _, rfl⟩ := h
  exact Nat.le_add_right _ _

theorem Consumes.le_length (h : Consumes g goal tokens position next)
    (inside : position ≤ tokens.length) : next ≤ tokens.length := by
  obtain ⟨word, _, front, rfl⟩ := h
  have short := front.length_le
  rw [List.length_drop] at short
  omega

theorem Consumes.cons {index : Nat} {part : NodeId} {ids : List NodeId} {last : Nat}
    (head : Consumes g (.node part) tokens position next)
    (tail : Consumes g (.parts (index + 1) ids) tokens next last) :
    Consumes g (.parts index (part :: ids)) tokens position last := by
  obtain ⟨front, spelled, ⟨rest, split⟩, rfl⟩ := head
  obtain ⟨back, spelled', follows, rfl⟩ := tail
  rw [← List.drop_drop, ← split, List.drop_left] at follows
  refine ⟨front ++ back, .cons spelled spelled', ?_, ?_⟩
  · rw [← split]
    exact (List.prefix_append_right_inj front).2 follows
  · rw [List.length_append, Nat.add_assoc]

/-- A goal with a verdict of full length on a share spells the share. -/
theorem spells_of_exactly {share : List String} {verdict : Verdict}
    (sound : ∀ next, verdict = .ok next → Consumes g goal share 0 next)
    (all : exactly share verdict = .ok ()) : Spells g goal share := by
  obtain ⟨next, rfl, long⟩ := exactly_eq_ok_iff.1 all
  obtain ⟨word, spelled, front, rfl⟩ := sound next rfl
  rw [List.drop_zero] at front
  rw [Nat.zero_add] at long
  exact front.eq_of_length_le long ▸ spelled

theorem exactly_iff_spells {share : List String} {verdict : Verdict}
    (settled : Settled g goal share 0 verdict) :
    exactly share verdict = .ok () ↔ Spells g goal share := by
  constructor
  · apply spells_of_exactly
    rintro next rfl
    exact settled
  · intro spelled
    cases verdict with
    | error reason => exact (settled share spelled (List.prefix_refl _)).elim
    | ok next =>
        obtain ⟨word, spelled', front, rfl⟩ := settled
        obtain rfl := spelled'.eq_of_comparable spelled (Or.inl front)
        exact exactly_eq_ok_iff.2 ⟨_, rfl, by omega⟩

end Consumes

/-- The token read first, and what remains behind it. -/
theorem drop_of_getElem? {tokens : List String} {position : Nat} {token : String}
    (read : tokens[position]? = some token) :
    tokens.drop position = token :: tokens.drop (position + 1) := by
  obtain ⟨inside, rfl⟩ := List.getElem?_eq_some_iff.1 read
  exact List.drop_eq_getElem_cons inside

theorem getElem?_of_drop {tokens back : List String} {position : Nat} {token : String}
    (eq : tokens.drop position = token :: back) : tokens[position]? = some token := by
  have read : (tokens.drop position)[0]? = some token := by rw [eq]; rfl
  rwa [List.getElem?_drop, Nat.add_zero] at read

theorem read_of_front {tokens word : List String} {position : Nat} {token : String}
    (front : token :: word <+: tokens.drop position) : tokens[position]? = some token := by
  obtain ⟨back, eq⟩ := front
  exact getElem?_of_drop eq.symm

namespace Settled

variable {tokens : List String} {id : NodeId} {position : Nat} {verdict : Verdict}

theorem of_no_word {goal : Goal} {reason : Mismatch} (nothing : ∀ word, ¬Spells g goal word) :
    Settled g goal tokens position (.error reason) :=
  fun word spelled => (nothing word spelled).elim

/-- Goals with the same words are settled alike. -/
theorem congr {goal other : Goal} (same : ∀ word, Spells g goal word ↔ Spells g other word)
    (h : Settled g other tokens position verdict) : Settled g goal tokens position verdict := by
  cases verdict with
  | ok next =>
      obtain ⟨word, spelled, front, eq⟩ := h
      exact ⟨word, (same word).2 spelled, front, eq⟩
  | error reason => exact fun word spelled => h word ((same word).1 spelled)

theorem emit {expected : String} (shape : g.node? id = some (.emit expected))
    (read : tokens[position]? = some expected) :
    Settled g (.node id) tokens position (.ok (position + 1)) :=
  ⟨[expected], .emit shape, ⟨_, (drop_of_getElem? read).symm⟩, rfl⟩

theorem token {expected : String} {reason : Mismatch} (shape : g.node? id = some (.emit expected))
    (read : tokens[position]? ≠ some expected) :
    Settled g (.node id) tokens position (.error reason) := by
  intro word spelled front
  rw [spells_node_iff, shape] at spelled
  obtain rfl := spelled
  exact read (read_of_front front)

section Parts

variable {index : Nat} {part : NodeId} {ids : List NodeId}

theorem cons {next : Nat} (head : Settled g (.node part) tokens position (.ok next))
    (tail : Settled g (.parts (index + 1) ids) tokens next verdict) :
    Settled g (.parts index (part :: ids)) tokens position verdict := by
  cases verdict with
  | ok last => exact Consumes.cons head tail
  | error reason =>
      intro word spelled front
      obtain ⟨first, rest, rfl, spelledFirst, spelledRest⟩ := spells_cons_iff.1 spelled
      obtain ⟨first', spelledFirst', eq⟩ := Consumes.drop_eq head
      rw [eq] at front
      obtain rfl := spelledFirst.eq_of_comparable spelledFirst'
        (Comparable.of_append (Or.inl front))
      exact tail rest spelledRest ((List.prefix_append_right_inj first).1 front)

theorem step {reason reason' : Mismatch}
    (head : Settled g (.node part) tokens position (.error reason)) :
    Settled g (.parts index (part :: ids)) tokens position (.error reason') := by
  intro word spelled front
  obtain ⟨first, rest, rfl, spelledFirst, _⟩ := spells_cons_iff.1 spelled
  exact head first spelledFirst ((List.prefix_append first rest).trans front)

end Parts

theorem choice {branch : NodeId} {branches : Keyed NodeId}
    (shape : g.node? id = some (.choice branches))
    (read : tokens[position]?.bind branches.find? = some branch)
    (h : Settled g (.node branch) tokens (position + 1) verdict) :
    Settled g (.node id) tokens position verdict := by
  obtain ⟨tag, readTag, found⟩ := Option.bind_eq_some_iff.1 read
  have eq := drop_of_getElem? readTag
  cases verdict with
  | ok next =>
      obtain ⟨word, spelled, front, rfl⟩ := h
      refine ⟨tag :: word, .choice shape found spelled, ?_, ?_⟩
      · rw [eq]
        exact List.cons_prefix_cons.2 ⟨rfl, front⟩
      · rw [List.length_cons]
        omega
  | error reason =>
      intro word spelled front
      rw [spells_node_iff, shape] at spelled
      obtain ⟨tag', branch', rest, found', spelled, rfl⟩ := spelled
      rw [eq] at front
      obtain ⟨rfl, follows⟩ := List.cons_prefix_cons.1 front
      obtain rfl : branch = branch' := Option.some.inj (found.symm.trans found')
      exact h rest spelled follows

theorem unlisted {branches : Keyed NodeId} {reason : Mismatch}
    (shape : g.node? id = some (.choice branches))
    (read : tokens[position]?.bind branches.find? = none) :
    Settled g (.node id) tokens position (.error reason) := by
  intro word spelled front
  rw [spells_node_iff, shape] at spelled
  obtain ⟨tag, branch, rest, found, _, rfl⟩ := spelled
  rw [read_of_front front, Option.bind_some, found] at read
  cases read

/-- A product is settled where its shares are, at every split that was tried. -/
theorem product {channels : Keyed NodeId} {split : Nat} {answer : Nat → String × NodeId → Verdict}
    (shape : g.node? id = some (.product channels))
    (settled : ∀ k ≤ split, ∀ e ∈ channels.entries,
      Settled g (.node e.2) (onChannel e.1 ((tokens.drop position).take k)) 0 (answer k e))
    (undecided : ∀ k < split,
      decision? channels (tokens.drop position) position k (answer k) = none)
    (decided :
      decision? channels (tokens.drop position) position split (answer split) = some verdict) :
    Settled g (.node id) tokens position verdict := by
  have matched : ∀ k ≤ split,
      Matched channels ((tokens.drop position).take k) (answer k) ↔
        ∀ e ∈ channels.entries,
          Spells g (.node e.2) (onChannel e.1 ((tokens.drop position).take k)) :=
    fun k hk => forall₂_congr fun e he => exactly_iff_spells (settled k hk e he)
  cases verdict with
  | ok next =>
      obtain ⟨short, tagged⟩ := tagged_of_undecided undecided
      obtain ⟨all, rfl⟩ := decision?_eq_ok decided
      refine ⟨(tokens.drop position).take split, ?_, List.take_prefix _ _, ?_⟩
      · exact .product shape tagged ((matched split (Nat.le_refl _)).1 all)
      · rw [List.length_take_of_le short]
  | error reason =>
      intro word spelled front
      rw [spells_node_iff, shape] at spelled
      obtain ⟨tagged, shares⟩ := spelled
      have bound := length_le_of_decision? decided tagged front
      have taken : (tokens.drop position).take word.length = word :=
        (List.prefix_iff_eq_take.1 front).symm
      have all : Matched channels ((tokens.drop position).take word.length)
          (answer word.length) := by
        rw [matched _ bound, taken]
        exact shares
      rcases Nat.lt_or_eq_of_le bound with before | at_end
      · exact (decision?_eq_none_iff.1 (undecided _ before)).1 all
      · rw [at_end] at all
        exact (decision?_eq_error decided).1 all

end Settled

/-- The verdict of an evaluation tells whether a word stands in front. -/
theorem Naive.settled {tokens : List String} {goal : Goal} {position : Nat} {verdict : Verdict}
    (h : Naive g tokens goal position verdict) : Settled g goal tokens position verdict := by
  induction h with
  | unknownNode absent =>
      refine .of_no_word fun word spelled => ?_
      rwa [spells_node_iff, absent] at spelled
  | emit shape read => exact .emit shape read
  | token shape read => exact .token shape read
  | sequence shape _ ih => exact ih.congr fun word => by rw [spells_node_iff, shape]
  | nil => exact ⟨[], .nil, List.nil_prefix, rfl⟩
  | cons _ _ ihHead ihTail => exact .cons ihHead ihTail
  | step _ ih => exact .step ih
  | choice shape read _ ih => exact .choice shape read ih
  | unlisted shape read => exact .unlisted shape read
  | unresolved shape =>
      refine .of_no_word fun word spelled => ?_
      rwa [spells_node_iff, shape] at spelled
  | loop shape _ ih => exact ih.congr fun word => by rw [spells_node_iff, shape]
  | product shape _ undecided decided ih => exact .product shape ih undecided decided

/-- An evaluation is finite only where the task is grounded. -/
theorem Naive.grounded {tokens : List String} {goal : Goal} {position : Nat} {verdict : Verdict}
    (h : Naive g tokens goal position verdict) : Grounded g (goal, tokens.drop position) := by
  induction h with
  | unknownNode absent =>
      rw [grounded_node_iff, absent]
      trivial
  | emit shape _ =>
      rw [grounded_node_iff, shape]
      trivial
  | token shape _ =>
      rw [grounded_node_iff, shape]
      trivial
  | sequence shape _ ih =>
      rw [grounded_node_iff, shape]
      exact ih
  | nil => exact grounded_nil
  | cons head _ ihHead ihTail =>
      rw [grounded_cons_iff]
      refine ⟨ihHead, fun word back eq spelled => ?_⟩
      obtain ⟨word', spelled', eq'⟩ := Consumes.drop_eq head.settled
      rw [eq] at eq'
      obtain rfl := spelled.eq_of_comparable spelled'
        (Comparable.of_prefixes ⟨_, rfl⟩ ⟨_, eq'.symm⟩)
      rw [List.append_cancel_left eq']
      exact ihTail
  | step head ih =>
      rw [grounded_cons_iff]
      refine ⟨ih, fun word back eq spelled => ?_⟩
      exact (head.settled word spelled ⟨back, eq.symm⟩).elim
  | choice shape read _ ih =>
      rw [grounded_node_iff, shape]
      intro tag branch' back eq found
      have readTag := getElem?_of_drop eq
      rw [readTag, Option.bind_some, found] at read
      obtain rfl := Option.some.inj read
      rw [drop_of_getElem? readTag] at eq
      rw [← (List.cons.inj eq).2]
      exact ih
  | unlisted shape read =>
      rw [grounded_node_iff, shape]
      intro tag branch back eq found
      rw [getElem?_of_drop eq, Option.bind_some, found] at read
      cases read
  | unresolved shape =>
      rw [grounded_node_iff, shape]
      trivial
  | loop shape _ ih =>
      rw [grounded_node_iff, shape]
      exact ih
  | @product tokens id channels position split verdict answer shape asked undecided decided ih =>
      cases verdict with
      | ok next =>
          obtain ⟨word, spelled, front, _⟩ := (Naive.product shape asked undecided decided).settled
          exact spelled.grounded (Or.inr front)
      | error reason =>
          rw [grounded_node_iff, shape]
          intro e listed taken front tagged
          have share := ih taken.length (length_le_of_decision? decided tagged front) e listed
          rwa [List.drop_zero, ← List.prefix_iff_eq_take.1 front] at share

end Switchboard
