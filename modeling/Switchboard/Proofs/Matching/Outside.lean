import Switchboard.Proofs.Matching.Searching

/-!
# Loops open far outside

A share is matched with the loops of its product open around it.  A loop that is entered
again with the same tokens left stops a match, and only such a loop does.  A match never has
more text left than at its start, so of the loops around it those with more text left make
no difference (`Matching.plain_alike`).
-/

namespace Switchboard

variable {g : Grammar}

/-- The same loops are open with no more than so much text left. -/
def AlikeUpTo (total : Nat) (around around' : List OpenLoop) : Prop :=
  ∀ o : OpenLoop, Grammar.weight o.rest ≤ total → (o ∈ around ↔ o ∈ around')

namespace AlikeUpTo

variable {tokens : List String} {around around' : List OpenLoop} {active : Active}

theorem reentered (alike : AlikeUpTo (Grammar.weight tokens) around around') (id : NodeId)
    (position : Nat) :
    Scope.reentered ⟨tokens, around⟩ active id position =
      Scope.reentered ⟨tokens, around'⟩ active id position := by
  have light : Grammar.weight (tokens.drop position) ≤ Grammar.weight tokens :=
    Grammar.weight_drop_le tokens (Nat.zero_le position)
  rw [Bool.eq_iff_iff, Scope.reentered_iff, Scope.reentered_iff]
  exact or_congr_right (alike ⟨id, tokens.drop position⟩ light)

theorem openLoops (alike : AlikeUpTo (Grammar.weight tokens) around around') (active : Active)
    {total : Nat} (less : total ≤ Grammar.weight tokens) :
    AlikeUpTo total (Scope.openLoops ⟨tokens, around⟩ active)
      (Scope.openLoops ⟨tokens, around'⟩ active) := by
  intro o light
  rw [Scope.mem_openLoops, Scope.mem_openLoops]
  exact or_congr_left (alike o (light.trans less))

theorem nesting_eq (alike : AlikeUpTo (Grammar.weight tokens) around around') (id : NodeId)
    (position : Nat) :
    nesting g ⟨⟨tokens, around⟩, active, id, position⟩ =
      nesting g ⟨⟨tokens, around'⟩, active, id, position⟩ := by
  have same : unopened g ⟨⟨tokens, around⟩, active, id, position⟩ =
      unopened g ⟨⟨tokens, around'⟩, active, id, position⟩ :=
    Finset.filter_congr fun other _ => by rw [alike.reentered other position]
  rw [nesting, nesting, same]
  rfl

end AlikeUpTo

namespace Matching

section Alike

variable {tokens : List String} {around around' : List OpenLoop} {active : Active}
  {left right : Calls Option}

theorem parts_alike {ids : List NodeId} {index position : Nat}
    (visits : ∀ part ∈ ids, ∀ next, position ≤ next → next ≤ tokens.length → ∃ verdict,
      left.visit active part next = some verdict ∧ right.visit active part next = some verdict ∧
        Fits tokens next verdict)
    (inside : position ≤ tokens.length) :
    parts left active index ids position = parts right active index ids position := by
  induction ids generalizing index position with
  | nil => rfl
  | cons part ids ih =>
      obtain ⟨verdict, first, second, fits⟩ :=
        visits part List.mem_cons_self position (Nat.le_refl _) inside
      rw [parts, parts, first, second]
      cases verdict with
      | error reason => rfl
      | ok next =>
          obtain ⟨behind, inside'⟩ := fits.ahead next rfl
          exact ih (fun part mem last above => visits part (List.mem_cons_of_mem _ mem) last
            (behind.trans above)) inside'

/-- The rules take no notice of loops with more text left than there is. -/
theorem node_alike (alike : AlikeUpTo (Grammar.weight tokens) around around') {id : NodeId}
    {position : Nat} (inside : position ≤ tokens.length) (cuts : left.cut = right.cut)
    (visits : ∀ active' id' position',
      Callee g ⟨⟨tokens, around⟩, active', id', position'⟩ ⟨⟨tokens, around⟩, active, id, position⟩ →
      position' ≤ tokens.length → ∃ verdict,
        left.visit active' id' position' = some verdict ∧
        right.visit active' id' position' = some verdict ∧ Fits tokens position' verdict)
    (products : ∀ channels, g.node? id = some (.product channels) →
      product left ⟨tokens, around⟩ active channels position =
        product right ⟨tokens, around'⟩ active channels position) :
    node g left ⟨tokens, around⟩ active id position =
      node g right ⟨tokens, around'⟩ active id position := by
  unfold node
  cases shape : g.node? id with
  | none => rfl
  | some shaped =>
      cases shaped with
      | emit expected => rfl
      | sequence ids =>
          refine parts_alike (fun part listed next behind inside' => ?_) inside
          exact visits active part next (.part shape listed behind inside') inside'
      | choice branches =>
          dsimp only
          split
          · rename_i branch read
            obtain ⟨tag, readTag, _⟩ := Option.bind_eq_some_iff.1 read
            obtain ⟨inside', _⟩ := List.getElem?_eq_some_iff.1 readTag
            obtain ⟨verdict, first, second, _⟩ :=
              visits active branch (position + 1) (.branch shape read) inside'
            rw [first, second]
          · rfl
      | loop body =>
          cases body with
          | none => rfl
          | some body =>
              dsimp only
              rw [← alike.reentered id position]
              split
              · rw [cuts]
              · rename_i fresh
                obtain ⟨verdict, first, second, _⟩ := visits ((id, position) :: active) body position
                  (.body shape (Bool.eq_false_iff.2 fresh)) inside
                rw [first, second]
      | product channels => exact products channels shape

end Alike

/-- A match takes no notice of loops that are open with more text left than it has.  Its shares
are lighter still, so neither do they. -/
theorem plain_alike (guarded : g.LoopGuarded) {depth : Nat} {tokens : List String}
    {around around' : List OpenLoop}
    (alike : AlikeUpTo (Grammar.weight tokens) around around') {active : Active} {id : NodeId}
    {position : Nat} (inside : position ≤ tokens.length)
    (enough : nesting g ⟨⟨tokens, around⟩, active, id, position⟩ < depth) :
    plain g depth ⟨tokens, around⟩ active id position =
      plain g depth ⟨tokens, around'⟩ active id position := by
  induction depth generalizing tokens around around' active id position with
  | zero => exact (Nat.not_lt_zero _ enough).elim
  | succ depth ih =>
      rw [plain_succ, plain_succ]
      refine node_alike alike inside rfl (fun active' id' position' callee inside' => ?_)
        fun channels shape => ?_
      · have less := callee.nesting_lt guarded
        have deep : nesting g ⟨⟨tokens, around⟩, active', id', position'⟩ < depth := by omega
        obtain ⟨verdict, found, fits⟩ := plain_fits guarded deep inside'
        exact ⟨verdict, found, (ih alike inside' deep).symm.trans found, fits⟩
      · have enough : nesting g ⟨⟨tokens, around⟩, active, id, position⟩ ≤ depth :=
          Nat.le_of_lt_succ enough
        have enough' : nesting g ⟨⟨tokens, around'⟩, active, id, position⟩ ≤ depth :=
          alike.nesting_eq id position ▸ enough
        obtain ⟨verdict, answers⟩ :=
          Grammar.exists_verdicts guarded ⟨false⟩ (Scope.openLoops ⟨tokens, around⟩ active)
        have first := Grammar.productAnswer?_eq_fromScratch guarded ⟨false⟩ .empty shape enough
          fun e _ taken _ _ => answers (onChannel e.1 taken) e.2
        refine first.trans (Eq.symm ?_)
        refine Grammar.productAnswer?_eq_fromScratch guarded ⟨false⟩ .empty shape enough'
          fun e listed taken front _ => ?_
        have callee : Callee g ⟨⟨onChannel e.1 taken, Scope.openLoops ⟨tokens, around⟩ active⟩, [],
            e.2, 0⟩ ⟨⟨tokens, around⟩, active, id, position⟩ := .share shape listed front
        have deep := (callee.nesting_lt guarded).trans_le enough
        have lighter : Grammar.weight (onChannel e.1 taken) ≤ Grammar.weight tokens :=
          (Grammar.weight_share_le front).trans (Grammar.weight_drop_le tokens (Nat.zero_le position))
        have alike' := alike.openLoops active lighter
        have found := answers (onChannel e.1 taken) e.2
        rw [← answer?_eq_matchesIn? guarded ⟨false⟩ deep] at found
        rw [← answer?_eq_matchesIn? guarded ⟨false⟩ (alike'.nesting_eq e.2 0 ▸ deep)]
        exact (ih alike' (Nat.zero_le _) deep).symm.trans found

/-- On the tokens of a scope, loops that are open with more text left make no difference. -/
theorem matchesIn?_alike (guarded : g.LoopGuarded) {tokens : List String}
    {around around' : List OpenLoop} (alike : AlikeUpTo (Grammar.weight tokens) around around')
    (id : NodeId) :
    g.matchesIn? ⟨false⟩ ⟨tokens, around⟩ id = g.matchesIn? ⟨false⟩ ⟨tokens, around'⟩ id := by
  have enough := nesting_lt_matchingDepth g ⟨⟨tokens, around⟩, [], id, 0⟩
  exact plain_alike guarded alike (Nat.zero_le _) enough

end Matching

end Switchboard
