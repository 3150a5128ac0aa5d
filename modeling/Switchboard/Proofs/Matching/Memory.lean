import Switchboard.Proofs.Matching.Observed

/-!
# Verdicts from memory

A verdict is remembered under its node and position only, although it was found
with certain loops open.  It is kept only if no loop was refused for it, and then
it is the verdict of the naive evaluation (`Ledger.Sound`), which does not know
of open loops.

`Matching.observed_related` compares the matcher under observation, step by step,
with plain matching.  From it come the verdict of a whole match, the same with
and without memory (`Matching.observed_answers`), and what is found in the
journal of the match (`Journal.Continues`).
-/

namespace Switchboard

variable {g : Grammar}

/-! ## The ledger of a scope -/

/-- All verdicts in a ledger are those of the naive evaluation. -/
def Ledger.Sound (g : Grammar) (tokens : List String) (l : Ledger) : Prop :=
  ∀ id position verdict, l.verdicts[(id, position)]? = some verdict →
    Naive g tokens (.node id) position verdict

namespace Ledger.Sound

variable {tokens : List String} {l : Ledger}

theorem empty : Ledger.empty.Sound g tokens := by
  intro id position verdict found
  simp [Ledger.empty] at found

theorem cut (h : l.Sound g tokens) : l.cut.Sound g tokens :=
  h

theorem record (h : l.Sound g tokens) {id : NodeId} {position : Nat} {verdict : Verdict}
    (naive : Naive g tokens (.node id) position verdict) :
    (l.record id position verdict).Sound g tokens := by
  intro id' position' verdict' found
  rw [Ledger.record, Std.HashMap.getElem?_insert] at found
  split at found
  · rename_i same
    obtain ⟨rfl, rfl⟩ := Prod.mk.inj (beq_iff_eq.1 same)
    exact Option.some.inj found ▸ naive
  · exact h id' position' verdict' found

end Ledger.Sound

/-! ## What a match adds to its journal -/

/-- What can happen in a match that starts from a call. -/
inductive Event.Proper (g : Grammar) (root : Call) : Event → Prop
  | asks {caller callee : Call} (below : Relation.ReflTransGen (Callee g) caller root)
      (made : Callee g callee caller) : Proper g root (.asks caller callee)
  | refuses {call : Call} (below : Relation.ReflTransGen (Callee g) call root)
      (pending : call.Pending g)
      (again : call.scope.reentered call.active call.node call.position = true) :
      Proper g root (.refuses call)

/-- A journal goes on to another one of the same scope; the flag is set if no
loop is refused meanwhile. -/
structure Journal.Continues (g : Grammar) (root : Call) (clean : Bool) (before after : Journal) :
    Prop where
  cuts_le : before.ledger.cuts ≤ after.ledger.cuts
  clean_iff : clean = true ↔ after.ledger.cuts = before.ledger.cuts
  events : ∃ new, after.events = before.events ++ new ∧ (∀ event ∈ new, event.Proper g root) ∧
    (clean = true → ∀ call, .refuses call ∉ new)

namespace Journal.Continues

variable {root : Call} {clean clean' : Bool} {j j' j'' : Journal}

theorem refl (g : Grammar) (root : Call) (j : Journal) : Continues g root true j j where
  cuts_le := Nat.le_refl _
  clean_iff := by simp
  events := ⟨[], by simp⟩

theorem trans (h : Continues g root clean j j') (h' : Continues g root clean' j' j'') :
    Continues g root (clean && clean') j j'' where
  cuts_le := h.cuts_le.trans h'.cuts_le
  clean_iff := by
    have first := h.cuts_le
    have second := h'.cuts_le
    rw [Bool.and_eq_true_iff, h.clean_iff, h'.clean_iff]
    omega
  events := by
    obtain ⟨new, split, proper, quiet⟩ := h.events
    obtain ⟨new', split', proper', quiet'⟩ := h'.events
    refine ⟨new ++ new', ?_, ?_, ?_⟩
    · rw [split', split, List.append_assoc]
    · exact fun event mem => (List.mem_append.1 mem).elim (proper event) (proper' event)
    · intro both call mem
      obtain ⟨first, second⟩ := Bool.and_eq_true_iff.1 both
      exact (List.mem_append.1 mem).elim (quiet first call) (quiet' second call)

theorem asks {caller callee : Call} (below : Relation.ReflTransGen (Callee g) caller root)
    (made : Callee g callee caller) (j : Journal) :
    Continues g root true j (j.note (.asks caller callee)) where
  cuts_le := Nat.le_refl _
  clean_iff := by simp [Journal.note]
  events := ⟨[.asks caller callee], rfl, by simpa using .asks below made, by simp⟩

theorem refuses {call : Call} (below : Relation.ReflTransGen (Callee g) call root)
    (pending : call.Pending g)
    (again : call.scope.reentered call.active call.node call.position = true) (j : Journal) :
    Continues g root false j (Journal.note { j with ledger := j.ledger.cut } (.refuses call)) where
  cuts_le := Nat.le_succ _
  clean_iff := by simp [Journal.note, Ledger.cut]
  events := ⟨[.refuses call], rfl, by simpa using .refuses below pending again, by simp⟩

/-- Whether a loop was refused is known also after a share, from its ledger. -/
theorem leave {inner : Journal} (h : Continues g root clean j.enter inner) :
    Continues g root clean j (j.leave inner) where
  cuts_le := by
    unfold Journal.leave
    split
    · exact Nat.le_succ _
    · exact Nat.le_refl _
  clean_iff := by
    rw [h.clean_iff, Journal.leave]
    split
    · rename_i refused
      simp [Journal.enter, Ledger.cut, Ledger.empty]
      omega
    · rename_i none_
      simp [Journal.enter, Ledger.empty]
      omega
  events := h.events

/-- A verdict is recorded. -/
theorem record (h : Continues g root clean j j') (id : NodeId) (position : Nat)
    (verdict : Verdict) :
    Continues g root clean j { j' with ledger := j'.ledger.record id position verdict } :=
  ⟨h.cuts_le, h.clean_iff, h.events⟩

end Journal.Continues

/-! ## Observed and plain matching -/

/-- From a sound ledger, the matcher under observation answers as plain matching
does, and its ledger stays sound. -/
def Comparison.observing (g : Grammar) (root : Call) (tokens : List String) :
    Comparison Observed Option where
  Rel P x y := ∀ j, j.ledger.Sound g tokens → ∃ clean a j', x.run j = some (a, j') ∧
    y = some a ∧ P clean a ∧ j'.ledger.Sound g tokens ∧ j.Continues g root clean j'
  pure h j sound := ⟨true, _, j, rfl, rfl, h, sound, .refl g root j⟩
  bind := by
    intro _ _ P Q x y f f' first later j sound
    obtain ⟨clean, a, j', run, rfl, post, sound', continues⟩ := first j sound
    obtain ⟨clean', b, j'', run', answer, post', sound'', continues'⟩ :=
      later clean a post j' sound'
    refine ⟨clean && clean', b, j'', ?_, answer, post', sound'', continues.trans continues'⟩
    rw [StateT.run_bind, run]
    exact run'
  mono := by
    intro _ P Q x y related weaker j sound
    obtain ⟨clean, a, j', run, answer, post, sound', continues⟩ := related j sound
    exact ⟨clean, a, j', run, answer, weaker clean a post, sound', continues⟩

namespace Matching

/-- A verdict that was found before is given again. -/
theorem observed_hit {memoize : Bool} {c : Call} {j : Journal} {verdict : Verdict}
    (hit : (if memoize then j.ledger.verdicts[(c.node, c.position)]? else none) = some verdict)
    (g : Grammar) (depth : Nat) :
    j.ledger.verdicts[(c.node, c.position)]? = some verdict ∧
      (observed g memoize (depth + 1) c).run j = some (verdict, j) := by
  refine ⟨?_, ?_⟩
  · split at hit
    · exact hit
    · cases hit
  · rw [observed_succ_run, hit]

/-- Under observation, with memory or without, a call is answered as plain
matching answers it.  A share starts with a ledger of its own.  A verdict that is found is
naive, so that other loops may be open by then, and one is recorded only if no loop was
refused for it. -/
theorem observed_related (guarded : g.LoopGuarded) (memoize : Bool) {root : Call} {depth depth' : Nat}
    {c : Call} (enough : nesting g c < depth) (enough' : nesting g c < depth')
    (below : Relation.ReflTransGen (Callee g) c root) (bounds : c.InBounds)
    (pending : c.Pending g) :
    (Comparison.observing g root c.scope.tokens).Rel
      (Outcome g c.scope.tokens (.node c.node) c.position)
      (observed g memoize depth c) (plain g depth' c.scope c.active c.node c.position) := by
  induction depth generalizing depth' c with
  | zero => exact (Nat.not_lt_zero _ enough).elim
  | succ depth ih =>
      obtain ⟨depth', rfl⟩ : ∃ i, depth' = i + 1 := ⟨depth' - 1, by omega⟩
      have agree : Agree (Comparison.observing g root c.scope.tokens) g c
          (observedCalls (observed g memoize depth) c) (plainCalls g depth' c.scope) := by
        refine ⟨?_, ?_, ?_⟩
        · intro active id position callee asked j sound
          have less := callee.nesting_lt guarded
          have deep : nesting g ⟨c.scope, active, id, position⟩ < depth' := by omega
          have note := Journal.Continues.asks below callee j
          obtain ⟨clean, verdict, j', run, answer, outcome, sound', continues⟩ :=
            ih (by omega) deep (below.head callee) (callee.inBounds bounds) asked (j.note _) sound
          exact ⟨clean, verdict, j', run, answer, outcome, sound', note.trans continues⟩
        · intro inner id callee asked j sound
          have less := callee.nesting_lt guarded
          have deep : nesting g ⟨inner, [], id, 0⟩ < depth' := by omega
          have note := Journal.Continues.asks below callee j
          obtain ⟨clean, verdict, j', run, answer, outcome, _, continues⟩ :=
            ih (by omega) deep (below.head callee) (callee.inBounds bounds) asked
              (j.note (.asks c ⟨inner, [], id, 0⟩)).enter .empty
          refine ⟨clean, exactly inner.tokens verdict, _, ?_, ?_, ⟨verdict, rfl, outcome⟩, ?_,
            note.trans continues.leave⟩
          · rw [observed_share_run, run]
            rfl
          · exact congrArg (Option.map (exactly inner.tokens)) answer
          · unfold Journal.leave
            split
            · exact sound.cut
            · exact sound
        · intro _ again j sound
          exact ⟨false, (), _, rfl, rfl, rfl, sound.cut, .refuses below pending again j⟩
      intro j sound
      cases hit : if memoize then j.ledger.verdicts[(c.node, c.position)]? else none with
      | some verdict =>
          obtain ⟨found, run⟩ := observed_hit hit g depth
          have naive := sound _ _ _ found
          exact ⟨true, verdict, j, run, plain_of_naive guarded enough' bounds pending naive,
            .of_naive naive, sound, .refl g root j⟩
      | none =>
          obtain ⟨clean, verdict, j', run, answer, outcome, sound', continues⟩ :=
            node_related agree pending bounds.1 j sound
          rw [observed_succ_run, hit, run, plain_succ]
          by_cases keep : memoize = true ∧ j'.ledger.cuts = j.ledger.cuts
          · have naive := outcome.naive (continues.clean_iff.2 keep.2)
            refine ⟨clean, verdict, _, ?_, answer, outcome, sound'.record naive,
              continues.record c.node c.position verdict⟩
            simp only [Option.map_some, if_pos keep]
          · refine ⟨clean, verdict, j', ?_, answer, outcome, sound', continues⟩
            simp only [Option.map_some, if_neg keep]

/-- A whole match has one verdict, with memory or without, at every depth that
suffices. -/
theorem observed_answers (guarded : g.LoopGuarded) (id : NodeId) (tokens : List String) :
    ∃ verdict, ∀ memoize depth, g.matchingDepth tokens ≤ depth → ∃ clean journal,
      (observed g memoize depth (.outermost tokens id)).run .empty = some (verdict, journal) ∧
        Outcome g tokens (.node id) 0 clean verdict ∧
        Journal.empty.Continues g (.outermost tokens id) clean journal := by
  have enough := nesting_outermost_lt g tokens id
  have bounds := Call.outermost_inBounds tokens id
  have pending := Call.outermost_pending g tokens id
  obtain ⟨_, verdict, answer, _⟩ := plain_outcome guarded enough bounds pending
  refine ⟨verdict, fun memoize depth deep => ?_⟩
  obtain ⟨clean, verdict', journal, run, answer', outcome, _, continues⟩ :=
    observed_related guarded memoize (enough.trans_le deep) enough .refl bounds pending .empty .empty
  obtain rfl : verdict = verdict' := Option.some.inj (answer.symm.trans answer')
  exact ⟨clean, journal, run, outcome, continues⟩

end Matching

/-! ## Memory makes no difference -/

namespace Grammar

/-- What both questions about a grammar are answered, from a run under
observation. -/
theorem answers_of_run {memoize : Bool} {id : NodeId} {tokens : List String} {verdict : Verdict}
    {journal : Journal}
    (run : (Matching.observed g memoize (g.matchingDepth tokens) (.outermost tokens id)).run
      .empty = some (verdict, journal)) :
    g.matchesPrefix? ⟨memoize⟩ id tokens = some verdict ∧
      g.check? ⟨memoize⟩ id tokens = some (exactly tokens verdict) := by
  have answer : g.matchesPrefix? ⟨memoize⟩ id tokens = some verdict := by
    rw [matchesPrefix?_eq_observed, run]
    rfl
  exact ⟨answer, congrArg (Option.map (exactly tokens)) answer⟩

/-- Both questions have the same answer with memory and without. -/
theorem answers_agree_on_memory (guarded : g.LoopGuarded) (id : NodeId) (tokens : List String) :
    ∃ verdict, g.matchesPrefix? ⟨true⟩ id tokens = some verdict ∧
      g.matchesPrefix? ⟨false⟩ id tokens = some verdict ∧
      g.check? ⟨true⟩ id tokens = some (exactly tokens verdict) ∧
      g.check? ⟨false⟩ id tokens = some (exactly tokens verdict) := by
  obtain ⟨verdict, answers⟩ := Matching.observed_answers guarded id tokens
  obtain ⟨_, _, remembered, _⟩ := answers true (g.matchingDepth tokens) (Nat.le_refl _)
  obtain ⟨_, _, forgotten, _⟩ := answers false (g.matchingDepth tokens) (Nat.le_refl _)
  obtain ⟨matched, check⟩ := answers_of_run remembered
  obtain ⟨matched', check'⟩ := answers_of_run forgotten
  exact ⟨verdict, matched, matched', check, check'⟩

/-- A loop that comes back to itself is refused with memory as it is without. -/
theorem rounds_stuck_remembered :
    rounds.matchesPrefix? ⟨true⟩ 3 [] = some (.error (.step 0 (.noProgress 0))) := by
  obtain ⟨verdict, remembered, forgotten, _⟩ :=
    answers_agree_on_memory rounds_loopGuarded 3 []
  have computed : rounds.matchesPrefix? ⟨false⟩ 3 [] =
      some (.error (.step 0 (.noProgress 0))) := rfl
  rw [remembered, ← forgotten, computed]

end Grammar

end Switchboard
