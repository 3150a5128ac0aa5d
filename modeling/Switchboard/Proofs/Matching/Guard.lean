import Switchboard.Proofs.Matching.Acceptance

/-!
# The loop guard

Loops that are open already are refused.  Wherever the naive evaluation, which
refuses nothing, is finite, this cannot be noticed; and a call that is refused
has asked for itself, so the naive evaluation of it never ends (`Call.Endless`).
In a match of which any part was refused, shares included, nothing is accepted.
-/

namespace Switchboard

variable {g : Grammar}

/-- The naive evaluation of a call is not finite. -/
def Call.Endless (g : Grammar) (c : Call) : Prop :=
  ∀ verdict, ¬Naive g c.scope.tokens (.node c.node) c.position verdict

theorem Call.endless_of_not_grounded {c : Call} (h : ¬Grounded g c.task) : c.Endless g :=
  fun _ naive => h naive.grounded

/-- What a refusal in a journal says about the call that was refused. -/
theorem Event.Proper.asks_itself {root call : Call} (h : Event.Proper g root (.refuses call)) :
    Relation.TransGen (Serves g) call.task call.task := by
  cases h with
  | refuses _ pending again => exact pending.asks_itself again

/-- Where a refusal is in the journal of a match, the match is not clean. -/
theorem Journal.Continues.not_clean {root call : Call} {clean : Bool} {journal : Journal}
    (h : Journal.empty.Continues g root clean journal) (refused : .refuses call ∈ journal.events) :
    clean = false ∧ Event.Proper g root (.refuses call) := by
  obtain ⟨new, split, proper, quiet⟩ := h.events
  rw [split, Journal.empty, List.nil_append] at refused
  refine ⟨Bool.eq_false_iff.2 fun clean => quiet clean call refused, proper _ refused⟩

/-- Where loops are refused, the naive evaluation is not finite, and everywhere
else the guard makes no difference. -/
theorem Grammar.guard_agrees_with_naive (guarded : g.LoopGuarded) (id : NodeId)
    (tokens : List String) :
    (∀ config verdict, Naive g tokens (.node id) 0 verdict →
      g.matchesPrefix? config id tokens = some verdict) ∧
    (∀ config next, g.matchesPrefix? config id tokens = some (.ok next) →
      Naive g tokens (.node id) 0 (.ok next)) ∧
    ∃ verdict, ∀ memoize, g.matchesPrefix? ⟨memoize⟩ id tokens = some verdict ∧
      ∀ depth, g.matchingDepth tokens ≤ depth → ∃ journal,
        (Matching.observed g memoize depth (.outermost tokens id)).run .empty =
          some (verdict, journal) ∧
        ∀ call, .refuses call ∈ journal.events →
          Relation.TransGen (Serves g) call.task call.task ∧ call.Endless g ∧
            (Call.outermost tokens id).Endless g ∧ ∀ next, verdict ≠ .ok next := by
  obtain ⟨verdict, answers⟩ := Matching.observed_answers guarded id tokens
  have answered : ∀ config, g.matchesPrefix? config id tokens = some verdict := by
    rintro ⟨memoize⟩
    obtain ⟨_, _, run, _⟩ := answers memoize (g.matchingDepth tokens) (Nat.le_refl _)
    exact (answers_of_run run).1
  obtain ⟨clean, _, _, outcome, _⟩ := answers true (g.matchingDepth tokens) (Nat.le_refl _)
  refine ⟨fun config other naive => ?_, fun config next matched => ?_, verdict, fun memoize => ?_⟩
  · cases clean with
    | false => exact (outcome.ungrounded rfl naive.grounded).elim
    | true => rw [answered config, (outcome.naive rfl).unique naive]
  · obtain rfl : verdict = .ok next := Option.some.inj ((answered config).symm.trans matched)
    exact outcome.naive_of_ok
  · refine ⟨answered ⟨memoize⟩, fun depth deep => ?_⟩
    obtain ⟨clean', journal, run, outcome', continues⟩ := answers memoize depth deep
    refine ⟨journal, run, fun call refused => ?_⟩
    obtain ⟨rfl, proper⟩ := continues.not_clean refused
    have itself := proper.asks_itself
    have endless : (Call.outermost tokens id).Endless g :=
      Call.endless_of_not_grounded (outcome'.ungrounded rfl)
    refine ⟨itself, Call.endless_of_not_grounded (not_grounded_of_transGen_self itself), endless,
      fun next eq => ?_⟩
    subst eq
    exact endless _ outcome'.naive_of_ok

/-- A farewell is found in front, and the loop that comes back to itself is
refused. -/
theorem Grammar.rounds_guard :
    rounds.matchesPrefix? .default 0 ["stop", "bye", "again"] = some (.ok 2) ∧
      (Call.outermost [] 3).Endless rounds := by
  constructor
  · obtain ⟨agrees, _⟩ := guard_agrees_with_naive rounds_loopGuarded 0 ["stop", "bye", "again"]
    exact agrees _ _ (.loop rfl (.choice rfl rounds_stop (.emit rfl rfl)))
  · obtain ⟨_, _, verdict, runs⟩ := guard_agrees_with_naive rounds_loopGuarded 3 []
    obtain ⟨journal, run, refusals⟩ := (runs false).2 (rounds.matchingDepth []) (Nat.le_refl _)
    let again : Call := ⟨.outermost [], [(3, 0)], 3, 0⟩
    obtain ⟨same, events⟩ : verdict = .error (.step 0 (.noProgress 0)) ∧
        journal.events = [.asks (.outermost [] 3) ⟨.outermost [], [(3, 0)], 4, 0⟩,
          .asks ⟨.outermost [], [(3, 0)], 4, 0⟩ again, .refuses again] := by
      cases run
      exact ⟨rfl, rfl⟩
    refine (refusals again ?_).2.2.1
    rw [events]
    simp

end Switchboard
