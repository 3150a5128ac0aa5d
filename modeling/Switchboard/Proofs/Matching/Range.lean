import Switchboard.Proofs.Matching.Memory

/-!
# Every match ends, and reads in range

`Matching.nodeInRange` is the rule for a node with every read at a position made
explicit: it breaks off where a read is out of range.  At a call in bounds it is
the rule itself (`Call.InBounds.readsInRange`), and a match makes no other calls.

Together with `callee_wellFounded` this says that every match ends and reads
nothing beyond the tokens of its scope (`Grammar.match_ends_inRange`).
-/

namespace Switchboard

/-- The tokens from a position on; beyond the end nothing can be read. -/
def slice? (tokens : List String) (position : Nat) : Option (List String) :=
  if position ≤ tokens.length then some (tokens.drop position) else none

theorem slice?_of_le {tokens : List String} {position : Nat} (inside : position ≤ tokens.length) :
    slice? tokens position = some (tokens.drop position) :=
  if_pos inside

namespace Scope

/-- Whether a loop is open already; the tokens left are read only if it is not
open in the scope itself. -/
def reentered? (s : Scope) (active : Active) (id : NodeId) (position : Nat) : Option Bool :=
  if active.contains (id, position) then some true
  else (slice? s.tokens position).map fun rest =>
    s.enclosing.any fun o => o.node = id && o.rest = rest

/-- The loops open here, the tokens that each has left read anew. -/
def openLoops? (s : Scope) (active : Active) : Option (List OpenLoop) :=
  (active.mapM fun entry => (slice? s.tokens entry.2).map (OpenLoop.mk entry.1)).map
    (s.enclosing ++ ·)

theorem reentered?_of_le {s : Scope} {active : Active} {id : NodeId} {position : Nat}
    (inside : position ≤ s.tokens.length) :
    s.reentered? active id position = some (s.reentered active id position) := by
  rw [reentered?, reentered, slice?_of_le inside]
  cases active.contains (id, position) with
  | true => rfl
  | false => rfl

theorem openLoops?_of_le {s : Scope} {active : Active}
    (inside : ∀ entry ∈ active, entry.2 ≤ s.tokens.length) :
    s.openLoops? active = some (s.openLoops active) := by
  have read : (active.mapM fun entry => (slice? s.tokens entry.2).map (OpenLoop.mk entry.1)) =
      some (active.map fun entry => ⟨entry.1, s.tokens.drop entry.2⟩) := by
    induction active with
    | nil => rfl
    | cons entry active ih =>
        rw [List.mapM_cons, ih fun e mem => inside e (List.mem_cons_of_mem _ mem),
          slice?_of_le (inside entry List.mem_cons_self)]
        rfl
  rw [openLoops?, read]
  rfl

end Scope

namespace Matching

section InRange

variable {m : Type → Type} [Monad m]

/-- The search of a product, each token read by its index; `left` counts the
splits that are still to be tried. -/
def searchInRange (stop : m Verdict) (calls : Calls m) (around : List OpenLoop) (channels : Keyed NodeId)
    (start : Nat) (rest : List String) : (left : Nat) → Nat → List Share → m Verdict
  | left, split, shares =>
      let failing := Share.failures shares
      if failing.isEmpty then pure (.ok (start + split))
      else
        match left with
        | 0 => pure (.error (.product split failing none))
        | left + 1 =>
            match rest[split]? with
            | none => stop
            | some token =>
                match tag? channels token with
                | none => pure (.error (.product split failing (some ⟨token, start + split⟩)))
                | some (channel, value) => do
                    let shares ← grow calls around channel value shares
                    searchInRange stop calls around channels start rest left (split + 1) shares

def productInRange (stop : m Verdict) (calls : Calls m) (s : Scope) (active : Active) (channels : Keyed NodeId)
    (position : Nat) : m Verdict :=
  match slice? s.tokens position, s.openLoops? active with
  | some rest, some around => do
      let shares ← emptyShares calls around channels.entries
      searchInRange stop calls around channels position rest rest.length 0 shares
  | _, _ => stop

/-- The rule for a node, which breaks off with `stop` where it reads out of range. -/
def nodeInRange (g : Grammar) (stop : m Verdict) (calls : Calls m) (s : Scope) (active : Active)
    (id : NodeId) (position : Nat) : m Verdict :=
  match g.node? id with
  | some (.loop (some body)) =>
      match s.reentered? active id position with
      | none => stop
      | some true => do
          calls.cut
          pure (.error (.noProgress position))
      | some false => calls.visit ((id, position) :: active) body position
  | some (.product channels) => productInRange stop calls s active channels position
  | _ => node g calls s active id position

theorem searchInRange_eq (stop : m Verdict) (calls : Calls m) (around : List OpenLoop)
    (channels : Keyed NodeId) (start : Nat) (taken tokens : List String) (shares : List Share) :
    searchInRange stop calls around channels start (taken ++ tokens) tokens.length taken.length shares =
      search calls around channels start taken.length shares tokens := by
  induction tokens generalizing taken shares with
  | nil =>
      rw [searchInRange.eq_def, search]
      rfl
  | cons token tokens ih =>
      have read : (taken ++ token :: tokens)[taken.length]? = some token := by
        rw [List.getElem?_append_right (Nat.le_refl _), Nat.sub_self]
        rfl
      rw [List.length_cons, searchInRange, search]
      simp only [read]
      split
      · rfl
      · cases tag? channels token with
        | none => rfl
        | some tagged =>
            obtain ⟨channel, value⟩ := tagged
            refine congrArg (grow calls around channel value shares >>= ·) (funext fun grown => ?_)
            have later := ih (taken ++ [token]) grown
            rwa [List.append_assoc, List.length_append, List.length_singleton] at later

theorem productInRange_eq (stop : m Verdict) (calls : Calls m) {s : Scope} {active : Active}
    (channels : Keyed NodeId) {position : Nat} (inside : position ≤ s.tokens.length)
    (open_ : ∀ entry ∈ active, entry.2 ≤ s.tokens.length) :
    productInRange stop calls s active channels position = product calls s active channels position := by
  rw [productInRange, slice?_of_le inside, Scope.openLoops?_of_le open_]
  exact congrArg (emptyShares calls (s.openLoops active) channels.entries >>= ·)
    (funext fun shares => searchInRange_eq stop calls _ channels position [] _ shares)

end InRange

end Matching

/-- Whatever the rule for a call reads is in range, however calls are carried out. -/
def Call.ReadsInRange (g : Grammar) (c : Call) : Prop :=
  ∀ {m : Type → Type} [Monad m] (stop : m Verdict) (calls : Calls m),
    Matching.nodeInRange g stop calls c.scope c.active c.node c.position =
      Matching.node g calls c.scope c.active c.node c.position

variable {g : Grammar}

theorem Call.InBounds.readsInRange {c : Call} (bounds : c.InBounds) : c.ReadsInRange g := by
  intro m _ stop calls
  obtain ⟨inside, open_⟩ := bounds
  unfold Matching.nodeInRange
  split
  · rename_i body shape
    rw [Scope.reentered?_of_le inside, Matching.node, shape]
    cases c.scope.reentered c.active c.node c.position with
    | true => rfl
    | false => rfl
  · rename_i channels shape
    rw [Matching.productInRange_eq stop calls channels inside open_, Matching.node, shape]
  · rfl

theorem Call.InBounds.of_below {c root : Call} (bounds : root.InBounds)
    (below : Relation.ReflTransGen (Callee g) c root) : c.InBounds := by
  induction below using Relation.ReflTransGen.head_induction_on with
  | refl => exact bounds
  | head made _ ih => exact made.inBounds ih

/-- Every match of a loop-guarded grammar ends.  Its calls form a well-founded
relation, none of them is out of bounds, and no rule reads out of range. -/
theorem Grammar.match_ends_inRange (guarded : g.LoopGuarded) :
    WellFounded (Callee g) ∧ ∀ id tokens, ∃ verdict,
      (∀ next, verdict = .ok next → next ≤ tokens.length) ∧
      ∀ memoize, g.matchesPrefix? ⟨memoize⟩ id tokens = some verdict ∧
        g.check? ⟨memoize⟩ id tokens = some (exactly tokens verdict) ∧
        ∀ depth, g.matchingDepth tokens ≤ depth → ∃ journal,
          (Matching.observed g memoize depth (.outermost tokens id)).run .empty =
            some (verdict, journal) ∧
          (Call.outermost tokens id).ReadsInRange g ∧
          ∀ caller callee, .asks caller callee ∈ journal.events →
            Callee g callee caller ∧ callee.InBounds ∧ callee.ReadsInRange g := by
  refine ⟨callee_wellFounded guarded, fun id tokens => ?_⟩
  have bounds := Call.outermost_inBounds tokens id
  obtain ⟨verdict, answers⟩ := Matching.observed_answers guarded id tokens
  refine ⟨verdict, fun next matched => ?_, fun memoize => ?_⟩
  · obtain ⟨_, _, _, outcome, _⟩ := answers true (g.matchingDepth tokens) (Nat.le_refl _)
    exact (outcome.sound next matched).le_length (Nat.zero_le _)
  · obtain ⟨_, _, run, _⟩ := answers memoize (g.matchingDepth tokens) (Nat.le_refl _)
    obtain ⟨matched, checked⟩ := answers_of_run run
    refine ⟨matched, checked, fun depth deep => ?_⟩
    obtain ⟨clean, journal, run, _, continues⟩ := answers memoize depth deep
    refine ⟨journal, run, bounds.readsInRange, fun caller callee asked => ?_⟩
    obtain ⟨new, split, proper, _⟩ := continues.events
    rw [split, Journal.empty, List.nil_append] at asked
    cases proper _ asked with
    | asks below made =>
        have inside : callee.InBounds := made.inBounds (bounds.of_below below)
        exact ⟨made, inside, inside.readsInRange⟩

/-- Also where a loop stands behind an empty share. -/
theorem Grammar.rounds_match_ends :
    WellFounded (Callee rounds) ∧ ∃ verdict,
      rounds.check? .default 5 ["right/bye", "left/again"] =
        some (exactly ["right/bye", "left/again"] verdict) ∧
      ∀ next, verdict = .ok next → next ≤ 2 := by
  obtain ⟨wellFounded, ends⟩ := match_ends_inRange rounds_loopGuarded
  obtain ⟨verdict, inside, answers⟩ := ends 5 ["right/bye", "left/again"]
  exact ⟨wellFounded, verdict, (answers true).2.1, inside⟩

end Switchboard
