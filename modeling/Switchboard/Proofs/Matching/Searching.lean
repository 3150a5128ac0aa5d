import Switchboard.Proofs.Matching.Contexts

/-!
# The search of a product, written down plainly

`Matching.fromScratch` is the search of a product as one would explain it: for every
number of tokens in turn, these are dealt out afresh and every channel is asked about its
share.  The matcher deals out one token at a time and asks one channel each time; with
memory or without, in every scope and whatever loops are open there and around it, it
comes to the same answer and to the same diagnosis (`Grammar.product_from_scratch`).
-/

namespace Switchboard

namespace Matching

variable {judge : String × NodeId → List String → Except Mismatch Unit} {channels : Keyed NodeId}
  {start : Nat} {rest taken : List String}

/-- The channels that do not match their shares of some tokens, in the order of their
names, each with its own reason. -/
def refusals (judge : String × NodeId → List String → Except Mismatch Unit)
    (channels : Keyed NodeId) (taken : List String) : List (String × Mismatch) :=
  channels.entries.filterMap fun e =>
    match judge e (onChannel e.1 taken) with
    | .ok _ => none
    | .error reason => some (e.1, reason)

/-- The number of tokens before the first one that carries no channel. -/
def reach (channels : Keyed NodeId) (rest : List String) : Nat :=
  (rest.takeWhile fun token => (tag? channels token).isSome).length

/-- The least number of tokens of which every channel matches its share; if there is
none, what the channels have to say of the shares of all tokens that carry a channel. -/
def fromScratch (judge : String × NodeId → List String → Except Mismatch Unit)
    (channels : Keyed NodeId) (start : Nat) (rest : List String) : Verdict :=
  let last := reach channels rest
  match (List.range (last + 1)).find? fun k => (refusals judge channels (rest.take k)).isEmpty with
  | some k => .ok (start + k)
  | none =>
      .error (.product last (refusals judge channels (rest.take last))
        (rest[last]?.map fun token => ⟨token, start + last⟩))

theorem mem_refusals {e : String × Mismatch} :
    e ∈ refusals judge channels taken ↔
      ∃ id, (e.1, id) ∈ channels.entries ∧ judge (e.1, id) (onChannel e.1 taken) = .error e.2 := by
  obtain ⟨name, reason⟩ := e
  unfold refusals
  rw [List.mem_filterMap]
  constructor
  · rintro ⟨entry, listed, failed⟩
    split at failed
    · cases failed
    · rename_i reason' error
      cases failed
      exact ⟨entry.2, listed, error⟩
  · rintro ⟨id, listed, error⟩
    refine ⟨(name, id), listed, ?_⟩
    rw [error]

theorem refusals_ascending :
    (refusals judge channels taken).Pairwise fun a b => a.1 < b.1 := by
  refine List.Pairwise.filterMap _ ?_ channels.ascending
  intro e e' less a failed a' failed'
  split at failed
  · cases failed
  · cases failed
    split at failed'
    · cases failed'
    · cases failed'
      exact less

theorem reach_cons_of_tagged {token : String} (tagged : (tag? channels token).isSome = true) :
    reach channels (token :: rest) = reach channels rest + 1 := by
  simp [reach, tagged]

theorem reach_cons_of_untagged {token : String} (untagged : ¬(tag? channels token).isSome = true) :
    reach channels (token :: rest) = 0 := by
  simp [reach, untagged]

/-- The first token that the search does not reach carries no channel. -/
theorem untagged_of_reach {token : String} (read : rest[reach channels rest]? = some token) :
    tag? channels token = none := by
  induction rest with
  | nil => cases read
  | cons other rest ih =>
      by_cases tagged : (tag? channels other).isSome = true
      · rw [reach_cons_of_tagged tagged, List.getElem?_cons_succ] at read
        exact ih read
      · rw [reach_cons_of_untagged tagged, List.getElem?_cons_zero] at read
        obtain rfl := Option.some.inj read
        simpa using tagged

theorem reach_append (inside : reach channels rest < rest.length) (more : List String) :
    reach channels (rest ++ more) = reach channels rest := by
  induction rest with
  | nil => exact (Nat.not_lt_zero _ inside).elim
  | cons token rest ih =>
      rw [List.cons_append]
      by_cases tagged : (tag? channels token).isSome = true
      · rw [reach_cons_of_tagged tagged, List.length_cons] at inside
        rw [reach_cons_of_tagged tagged, reach_cons_of_tagged tagged,
          ih (Nat.lt_of_succ_lt_succ inside)]
      · rw [reach_cons_of_untagged tagged, reach_cons_of_untagged tagged]

theorem fromScratch_eq_ok_iff {next : Nat} :
    fromScratch judge channels start rest = .ok next ↔ ∃ k ≤ reach channels rest,
      next = start + k ∧ refusals judge channels (rest.take k) = [] ∧
      ∀ j < k, refusals judge channels (rest.take j) ≠ [] := by
  unfold fromScratch
  dsimp only
  split
  · rename_i k found
    rw [List.find?_range_eq_some] at found
    obtain ⟨empty, bound, earlier⟩ := found
    have empty : refusals judge channels (rest.take k) = [] := List.isEmpty_iff.1 empty
    have refused : ∀ j < k, refusals judge channels (rest.take j) ≠ [] := by
      intro j less
      simpa using earlier j less
    constructor
    · intro matched
      have same : start + k = next := Except.ok.inj matched
      exact ⟨k, Nat.le_of_lt_succ (List.mem_range.1 bound), same.symm, empty, refused⟩
    · rintro ⟨k', _, rfl, empty', refused'⟩
      rcases Nat.lt_trichotomy k k' with less | rfl | less
      · exact (refused' k less empty).elim
      · rfl
      · exact (refused k' less empty').elim
  · rename_i none_
    rw [List.find?_range_eq_none] at none_
    constructor
    · intro matched
      cases matched
    · rintro ⟨k, bound, _, empty, _⟩
      have refused := none_ k (Nat.lt_succ_of_le bound)
      rw [empty] at refused
      cases refused

theorem fromScratch_eq_error_iff {reason : Mismatch} :
    fromScratch judge channels start rest = .error reason ↔
      (∀ k ≤ reach channels rest, refusals judge channels (rest.take k) ≠ []) ∧
      reason = .product (reach channels rest)
        (refusals judge channels (rest.take (reach channels rest)))
        (rest[reach channels rest]?.map fun token => ⟨token, start + reach channels rest⟩) := by
  unfold fromScratch
  dsimp only
  split
  · rename_i k found
    rw [List.find?_range_eq_some] at found
    obtain ⟨empty, bound, _⟩ := found
    constructor
    · intro failed
      cases failed
    · rintro ⟨refused, _⟩
      have bound : k ≤ reach channels rest := Nat.le_of_lt_succ (List.mem_range.1 bound)
      exact (refused k bound (List.isEmpty_iff.1 empty)).elim
  · rename_i none_
    rw [List.find?_range_eq_none] at none_
    have refused : ∀ k ≤ reach channels rest, refusals judge channels (rest.take k) ≠ [] := by
      intro k bound
      simpa using none_ k (Nat.lt_succ_of_le bound)
    constructor
    · intro failed
      exact ⟨refused, (Except.error.inj failed).symm⟩
    · rintro ⟨_, rfl⟩
      rfl

/-- A token without channel ends the search, whatever follows it. -/
theorem fromScratch_append {reason : Mismatch} (inside : reach channels rest < rest.length)
    (failed : fromScratch judge channels start rest = .error reason) (more : List String) :
    fromScratch judge channels start (rest ++ more) = .error reason := by
  obtain ⟨refused, same⟩ := fromScratch_eq_error_iff.1 failed
  have taken : ∀ k ≤ reach channels rest, (rest ++ more).take k = rest.take k :=
    fun k bound => List.take_append_of_le_length (bound.trans inside.le)
  rw [fromScratch_eq_error_iff, reach_append inside, taken _ (Nat.le_refl _),
    List.getElem?_append_left inside]
  refine ⟨fun k bound => ?_, same⟩
  rw [taken k bound]
  exact refused k bound

/-- What the search reports: the first split at which no channel refuses, or the last
split that there is, the channels that refuse their shares of it, and the token that
ended the search. -/
structure Reports (judge : String × NodeId → List String → Except Mismatch Unit)
    (channels : Keyed NodeId) (start : Nat) (rest : List String) (verdict : Verdict) : Prop where
  matched : ∀ next, verdict = .ok next ↔ ∃ k ≤ reach channels rest, next = start + k ∧
    refusals judge channels (rest.take k) = [] ∧
    ∀ j < k, refusals judge channels (rest.take j) ≠ []
  failed : ∀ reason, verdict = .error reason → ∃ failing blocked,
    reason = .product (reach channels rest) failing blocked ∧ failing ≠ [] ∧
    failing.Pairwise (fun a b => a.1 < b.1) ∧
    (∀ name why, (name, why) ∈ failing ↔ ∃ id, (name, id) ∈ channels.entries ∧
      judge (name, id) (onChannel name (rest.take (reach channels rest))) = .error why) ∧
    ∀ untagged, blocked = some untagged ↔ rest[reach channels rest]? = some untagged.token ∧
      untagged.position = start + reach channels rest

theorem fromScratch_reports : Reports judge channels start rest
    (fromScratch judge channels start rest) where
  matched _ := fromScratch_eq_ok_iff
  failed := by
    intro reason failed
    obtain ⟨refused, rfl⟩ := fromScratch_eq_error_iff.1 failed
    refine ⟨_, _, rfl, refused _ (Nat.le_refl _), refusals_ascending, ?_, ?_⟩
    · intro name why
      exact mem_refusals
    · rintro ⟨token, position⟩
      rw [Option.map_eq_some_iff]
      constructor
      · rintro ⟨token, read, ⟨⟩⟩
        exact ⟨read, rfl⟩
      · rintro ⟨read, rfl⟩
        exact ⟨token, read, rfl⟩

/-! ## Where the search ends -/

/-- The answers of channels to shares, by the verdicts of their nodes. -/
def exactOn (verdict : List String → NodeId → Verdict) (e : String × NodeId)
    (share : List String) : Except Mismatch Unit :=
  exactly share (verdict share e.2)

section Decision

variable {verdict : List String → NodeId → Verdict} {position last : Nat} {answer : Verdict}

theorem failures_sharesIn :
    Share.failures (sharesIn channels.entries taken (onShares verdict taken)) =
      refusals (exactOn verdict) channels taken := by
  rw [Share.failures, sharesIn, List.filterMap_map]
  rfl

theorem reach_of_tagged (inside : last ≤ rest.length)
    (tagged : ∀ token ∈ rest.take last, Tagged channels token) :
    reach channels rest = last + reach channels (rest.drop last) := by
  have carried : ∀ token ∈ rest.take last, (tag? channels token).isSome = true :=
    fun token mem => tag?_isSome_iff.2 (tagged token mem)
  have split : (rest.take last ++ rest.drop last).takeWhile _ = _ :=
    List.takeWhile_append_of_pos carried
  rw [List.take_append_drop] at split
  rw [reach, split, List.length_append, List.length_take_of_le inside, reach]

/-- Where no channel is carried any more, the search reaches no farther. -/
theorem reach_drop_of_ended
    (ended : ∀ token, rest[last]? = some token → ¬Tagged channels token) :
    reach channels (rest.drop last) = 0 := by
  cases behind : rest.drop last with
  | nil => rfl
  | cons token more =>
      apply reach_cons_of_untagged
      rw [tag?_isSome_iff]
      exact ended token (getElem?_of_drop behind)

/-- The search from scratch ends at the first split that decides. -/
theorem fromScratch_of_decision?
    (undecided : ∀ k < last,
      decision? channels rest position k (onShares verdict (rest.take k)) = none)
    (decided : decision? channels rest position last (onShares verdict (rest.take last)) =
      some answer) :
    fromScratch (exactOn verdict) channels position rest = answer := by
  obtain ⟨inside, tagged⟩ := tagged_of_undecided undecided
  have reached := reach_of_tagged inside tagged
  have matched_iff : ∀ k, Matched channels (rest.take k) (onShares verdict (rest.take k)) ↔
      refusals (exactOn verdict) channels (rest.take k) = [] := by
    intro k
    rw [← failures_sharesIn_isEmpty, failures_sharesIn, List.isEmpty_iff]
  have refused : ∀ k < last, refusals (exactOn verdict) channels (rest.take k) ≠ [] := by
    intro k less
    rw [Ne, ← matched_iff]
    exact (decision?_eq_none_iff.1 (undecided k less)).1
  cases answer with
  | ok next =>
      obtain ⟨matched, rfl⟩ := decision?_eq_ok decided
      have far : last ≤ reach channels rest := reached ▸ Nat.le_add_right _ _
      exact fromScratch_eq_ok_iff.2 ⟨last, far, rfl, (matched_iff last).1 matched, refused⟩
  | error reason =>
      obtain ⟨unmatched, ended⟩ := decision?_eq_error decided
      obtain rfl := product_of_decision? decided
      rw [reach_drop_of_ended ended, Nat.add_zero] at reached
      rw [fromScratch_eq_error_iff, reached, failures_sharesIn]
      refine ⟨fun k bound => ?_, rfl⟩
      rcases Nat.lt_or_eq_of_le bound with less | rfl
      · exact refused k less
      · rw [Ne, ← matched_iff]
        exact unmatched

/-- A product of which the shares have verdicts comes to what these make of the search from
scratch. -/
theorem product_eq_fromScratch {calls : Calls Option} {s : Scope} {active : Active}
    (judged : Judges calls (s.openLoops active) channels (s.tokens.drop position) verdict) :
    product calls s active channels position =
      some (fromScratch (exactOn verdict) channels position (s.tokens.drop position)) := by
  obtain ⟨last, answer, found, _, undecided, decided⟩ := product_decides judged
  rw [found, fromScratch_of_decision? undecided decided]

end Decision

/-! ## The search of the matcher -/

/-- The search of a product with calls nested at most so deep.  A matcher that remembers
starts it with a ledger. -/
def productAnswer? (g : Grammar) (config : MatchConfig) (depth : Nat) (ledger : Ledger) (s : Scope)
    (active : Active) (channels : Keyed NodeId) (position : Nat) : Option Verdict :=
  if config.memoize then
    (product (memoizedCalls g depth s) s active channels position).run' ledger
  else product (plainCalls g depth s) s active channels position

/-- The ledger left out. -/
def unremembered : Lockstep Recall Option where
  Rel x y := ∀ l, (x.run l).map Prod.fst = y
  pure _ _ := rfl
  bind {_ _ x y _ _} hx later l := by
    rw [StateT.run_bind, ← hx l]
    cases x.run l with
    | none => rfl
    | some r => exact later r.1 r.2

def unchanged : Lockstep Option Option where
  Rel x y := x = y
  pure _ := rfl
  bind := by
    rintro _ _ x _ f f' rfl later
    exact congrArg x.bind (funext later)

/-- What is remembered of its scope makes no difference to a product. -/
theorem productAnswer?_eq (g : Grammar) (config : MatchConfig) (depth : Nat) (ledger : Ledger)
    (s : Scope) (active : Active) (channels : Keyed NodeId) (position : Nat) :
    productAnswer? g config depth ledger s active channels position =
      product (shareCalls g config depth) s active channels position := by
  obtain ⟨memoize⟩ := config
  cases memoize with
  | true =>
      have share : ∀ inner id, unremembered.Rel ((memoizedCalls g depth s).share inner id)
          ((shareCalls g ⟨true⟩ depth).share inner id) := by
        intro inner id l
        show _ = (((memoized g depth inner [] id 0).run .empty).map Prod.fst).map _
        rw [memoized_share_run, Option.map_map, Option.map_map]
        rfl
      exact product_lockstep share s active channels position ledger
  | false =>
      have share : ∀ inner id, unchanged.Rel ((plainCalls g depth s).share inner id)
          ((shareCalls g ⟨false⟩ depth).share inner id) := fun _ _ => rfl
      exact product_lockstep share s active channels position

end Matching

namespace Grammar

open Matching

variable {g : Grammar}

/-- All verdicts on shares with the same loops open around them. -/
theorem exists_verdicts (guarded : g.LoopGuarded) (config : MatchConfig) (around : List OpenLoop) :
    ∃ verdict : List String → NodeId → Verdict, ∀ share id,
      g.matchesIn? config ⟨share, around⟩ id = some (verdict share id) := by
  have answered : ∀ share id, ∃ verdict, g.matchesIn? config ⟨share, around⟩ id = some verdict := by
    intro share id
    obtain ⟨verdict, found, _⟩ := exists_matchesIn? guarded config ⟨share, around⟩ id
    exact ⟨verdict, found⟩
  choose verdict found using answered
  exact ⟨verdict, found⟩

/-- The answers of the grammar about the shares are those that the search asks for. -/
theorem productAnswer?_eq_fromScratch (guarded : g.LoopGuarded) (config : MatchConfig)
    (ledger : Ledger) {id : NodeId} {channels : Keyed NodeId}
    (shape : g.node? id = some (.product channels)) {depth : Nat} {s : Scope} {active : Active}
    {position : Nat} (enough : nesting g ⟨s, active, id, position⟩ ≤ depth)
    {verdict : List String → NodeId → Verdict}
    (answers : ∀ e ∈ channels.entries, ∀ taken, taken <+: s.tokens.drop position →
      (∀ token ∈ taken, Tagged channels token) →
      g.matchesIn? config ⟨onChannel e.1 taken, s.openLoops active⟩ e.2 =
        some (onShares verdict taken e)) :
    productAnswer? g config depth ledger s active channels position =
      some (fromScratch (exactOn verdict) channels position (s.tokens.drop position)) := by
  have judged : Judges (shareCalls g config depth) (s.openLoops active) channels
      (s.tokens.drop position) verdict := by
    refine judges_of_answers fun e listed taken front tagged => ?_
    have callee : Callee g ⟨⟨onChannel e.1 taken, s.openLoops active⟩, [], e.2, 0⟩
        ⟨s, active, id, position⟩ := .share shape listed front
    have deep := (callee.nesting_lt guarded).trans_le enough
    rw [answer?_eq_matchesIn? guarded config deep]
    exact answers e listed taken front tagged
  rw [productAnswer?_eq, product_eq_fromScratch judged]

/-- The search of a product comes to what the search from scratch comes to, where every
channel is asked about its share by a match of its own.  It always ends, at every depth
that such a product can be met with. -/
theorem product_from_scratch (guarded : g.LoopGuarded) (config : MatchConfig) {id : NodeId}
    {channels : Keyed NodeId} (shape : g.node? id = some (.product channels)) (s : Scope)
    (active : Active) (position : Nat) :
    ∃ judge : String × NodeId → List String → Except Mismatch Unit,
      (∀ e ∈ channels.entries, ∀ share,
        g.checkIn? config ⟨share, s.openLoops active⟩ e.2 = some (judge e share)) ∧
      (∀ depth ledger, nesting g ⟨s, active, id, position⟩ ≤ depth →
        productAnswer? g config depth ledger s active channels position =
          some (fromScratch judge channels position (s.tokens.drop position))) ∧
      Reports judge channels position (s.tokens.drop position)
        (fromScratch judge channels position (s.tokens.drop position)) := by
  obtain ⟨verdict, answers⟩ := exists_verdicts guarded config (s.openLoops active)
  refine ⟨exactOn verdict, fun e _ share => ?_, fun depth ledger enough => ?_,
    fromScratch_reports⟩
  · rw [checkIn?, answers]
    rfl
  · exact productAnswer?_eq_fromScratch guarded config ledger shape enough
      fun e _ taken _ _ => answers (onChannel e.1 taken) e.2

/-- The rounds side by side with the farewell, inside of rounds that have nothing left: the
loop of the rounds is refused on its empty share. -/
theorem rounds_from_scratch :
    productAnswer? rounds ⟨false⟩ (rounds.matchingDepth ["x"]) .empty ⟨["x"], [⟨0, []⟩]⟩ []
        (Keyed.ofList [("left", 0), ("right", 1)]) 0 =
      some (.error (.product 0 [("left", .noProgress 0), ("right", .token "bye" none 0)]
        (some ⟨"x", 0⟩))) := by
  let channels : Keyed NodeId := Keyed.ofList [("left", 0), ("right", 1)]
  have shape : rounds.node? 5 = some (.product channels) := rfl
  obtain ⟨judge, asked, searched, _⟩ := product_from_scratch rounds_loopGuarded ⟨false⟩ shape
    ⟨["x"], [⟨0, []⟩]⟩ [] 0
  have left : judge ("left", 0) [] = .error (.noProgress 0) :=
    (Option.some.inj (asked ("left", 0) (by decide) [])).symm
  have right : judge ("right", 1) [] = .error (.token "bye" none 0) :=
    (Option.some.inj (asked ("right", 1) (by decide) [])).symm
  have deep : nesting rounds ⟨⟨["x"], [⟨0, []⟩]⟩, [], 5, 0⟩ ≤ rounds.matchingDepth ["x"] :=
    (nesting_lt_matchingDepth rounds ⟨⟨["x"], [⟨0, []⟩]⟩, [], 5, 0⟩).le
  have untagged : tag? channels "x" = none := by decide +kernel
  have far : reach channels ["x"] = 0 := by rw [reach, List.takeWhile_cons, untagged]; rfl
  have refused : refusals judge channels [] =
      [("left", .noProgress 0), ("right", .token "bye" none 0)] := by
    have entries : channels.entries = [("left", 0), ("right", 1)] := by decide
    have nothing : ∀ channel, onChannel channel [] = [] := fun _ => rfl
    simp [refusals, entries, nothing, left, right]
  rw [searched _ .empty deep, List.drop_zero, fromScratch, far]
  simp [refused]

end Grammar

end Switchboard
