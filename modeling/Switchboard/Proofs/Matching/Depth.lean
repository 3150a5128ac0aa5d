import Switchboard.Proofs.Matching.Traversal

/-!
# Plain matching answers

Under every depth above `nesting`, plain matching gives one and the same verdict.
The depth a matcher is granted for a whole transcript is always above it.
-/

namespace Switchboard

/-- Both computations answer the same. -/
def Comparison.answering : Comparison Option Option where
  Rel P x y := ∃ clean a, x = some a ∧ y = some a ∧ P clean a
  pure h := ⟨true, _, rfl, rfl, h⟩
  bind := by
    rintro _ _ P Q x y f f' ⟨clean, a, rfl, rfl, h⟩ later
    obtain ⟨clean', b, first, second, h'⟩ := later clean a h
    exact ⟨clean && clean', b, first, second, h'⟩
  mono := by
    rintro _ P Q x y ⟨clean, a, first, second, h⟩ weaker
    exact ⟨clean, a, first, second, weaker clean a h⟩

namespace Matching

variable {g : Grammar}

/-- How plain matching carries out the calls of a rule. -/
def plainCalls (g : Grammar) (depth : Nat) (s : Scope) : Calls Option where
  visit := plain g depth s
  share inner id := (plain g depth inner [] id 0).map (exactly inner.tokens)
  cut := pure ()

theorem plain_succ (g : Grammar) (depth : Nat) (s : Scope) (active : Active) (id : NodeId)
    (position : Nat) :
    plain g (depth + 1) s active id position =
      node g (plainCalls g depth s) s active id position := rfl

/-- Two depths that suffice give the same verdict. -/
theorem plain_related (guarded : g.LoopGuarded) {depth depth' : Nat} {c : Call}
    (enough : nesting g c < depth) (enough' : nesting g c < depth') (bounds : c.InBounds)
    (pending : c.Pending g) :
    Comparison.answering.Rel (Outcome g c.scope.tokens (.node c.node) c.position)
      (plain g depth c.scope c.active c.node c.position)
      (plain g depth' c.scope c.active c.node c.position) := by
  induction depth generalizing depth' c with
  | zero => exact (Nat.not_lt_zero _ enough).elim
  | succ depth ih =>
      obtain ⟨depth', rfl⟩ : ∃ i, depth' = i + 1 := ⟨depth' - 1, by omega⟩
      rw [plain_succ, plain_succ]
      refine node_related ⟨?_, ?_, ?_⟩ pending bounds.1
      · intro active id position callee asked
        have less := callee.nesting_lt guarded
        exact ih (by omega) (by omega) (callee.inBounds bounds) asked
      · intro inner id callee asked
        have less := callee.nesting_lt guarded
        have below : nesting g ⟨inner, [], id, 0⟩ < depth' := by omega
        obtain ⟨clean, verdict, first, second, outcome⟩ :=
          ih (by omega) below (callee.inBounds bounds) asked
        refine ⟨clean, exactly inner.tokens verdict, ?_, ?_, verdict, rfl, outcome⟩
        · exact congrArg (Option.map (exactly inner.tokens)) first
        · exact congrArg (Option.map (exactly inner.tokens)) second
      · exact fun _ _ => ⟨false, (), rfl, rfl, rfl⟩

theorem plain_outcome (guarded : g.LoopGuarded) {depth : Nat} {c : Call}
    (enough : nesting g c < depth) (bounds : c.InBounds) (pending : c.Pending g) :
    ∃ clean verdict, plain g depth c.scope c.active c.node c.position = some verdict ∧
      Outcome g c.scope.tokens (.node c.node) c.position clean verdict := by
  obtain ⟨clean, verdict, answers, _, outcome⟩ :=
    plain_related guarded enough enough bounds pending
  exact ⟨clean, verdict, answers, outcome⟩

/-- A call with a naive verdict has that verdict, whatever loops are open. -/
theorem plain_of_naive (guarded : g.LoopGuarded) {depth : Nat} {c : Call}
    (enough : nesting g c < depth) (bounds : c.InBounds) (pending : c.Pending g)
    {verdict : Verdict} (naive : Naive g c.scope.tokens (.node c.node) c.position verdict) :
    plain g depth c.scope c.active c.node c.position = some verdict := by
  obtain ⟨clean, found, answers, outcome⟩ := plain_outcome guarded enough bounds pending
  cases clean with
  | false => exact (outcome.ungrounded rfl naive.grounded).elim
  | true => rw [answers, (outcome.naive rfl).unique naive]

end Matching

end Switchboard
