import Switchboard.Proofs.Matching.Memory

/-!
# What a check accepts

A check of a loop-guarded grammar always has a result, and it accepts exactly the
words of the node.  That nothing is lost by refusing open loops is in
`Outcome.clean_of_spells`: in front of a word, and inside it, every task is
grounded, so no loop is ever refused there.
-/

namespace Switchboard

variable {g : Grammar} {tokens : List String} {goal : Goal} {position : Nat} {clean : Bool}
  {verdict : Verdict}

/-- Where a word stands in front, no loop was refused. -/
theorem Outcome.clean_of_spells (h : Outcome g tokens goal position clean verdict)
    {word : List String} (spelled : Spells g goal word) (front : word <+: tokens.drop position) :
    clean = true := by
  cases clean with
  | true => rfl
  | false => exact (h.ungrounded rfl (spelled.grounded (Or.inr front))).elim

/-- What is matched is matched by the naive evaluation too. -/
theorem Outcome.naive_of_ok {next : Nat} (h : Outcome g tokens goal position clean (.ok next)) :
    Naive g tokens goal position (.ok next) := by
  obtain ⟨word, spelled, front, _⟩ := h.sound next rfl
  exact h.naive (h.clean_of_spells spelled front)

/-- A word in front is what is matched. -/
theorem Outcome.eq_ok_of_consumes {next : Nat}
    (h : Outcome g tokens goal position clean verdict)
    (consumed : Consumes g goal tokens position next) : verdict = .ok next := by
  obtain ⟨word, spelled, front, rfl⟩ := consumed
  have settled := (h.naive (h.clean_of_spells spelled front)).settled
  cases verdict with
  | error reason => exact (settled word spelled front).elim
  | ok other =>
      obtain ⟨word', spelled', front', rfl⟩ := settled
      obtain rfl := spelled.eq_of_comparable spelled' (.of_prefixes front front')
      rfl

theorem Outcome.exactly_iff_spells (h : Outcome g tokens goal 0 clean verdict) :
    exactly tokens verdict = .ok () ↔ Spells g goal tokens := by
  refine ⟨spells_of_exactly h.sound, fun spelled => ?_⟩
  have naive := h.naive (h.clean_of_spells spelled (List.prefix_refl _))
  exact (Switchboard.exactly_iff_spells naive.settled).2 spelled

namespace Grammar

/-- A check accepts a transcript if and only if the node spells it. -/
theorem check?_accepts_iff_spells (guarded : g.LoopGuarded) (config : MatchConfig) (id : NodeId)
    (tokens : List String) :
    ∃ result, g.check? config id tokens = some result ∧
      (result = .ok () ↔ Spells g (.node id) tokens) := by
  obtain ⟨verdict, answers⟩ := Matching.observed_answers guarded id tokens
  obtain ⟨clean, journal, run, outcome, _⟩ :=
    answers config.memoize (g.matchingDepth tokens) (Nat.le_refl _)
  exact ⟨exactly tokens verdict, (answers_of_run run).2, outcome.exactly_iff_spells⟩

theorem rounds_accepts_woven :
    rounds.check? .default 5 ["left/again", "right/bye", "left/stop", "left/bye"] =
      some (.ok ()) := by
  have again : Spells rounds (.node 0) ["again", "stop", "bye"] :=
    .loop rfl (.choice rfl rounds_again (.loop rfl (.choice rfl rounds_stop (.emit rfl))))
  have woven : Spells rounds (.node 5) ["left/again", "right/bye", "left/stop", "left/bye"] := by
    refine .product rfl (fun token mem => tag?_isSome_iff.1 ?_) fun e mem => ?_
    · revert token
      decide +kernel
    · have channel : e = ("left", 0) ∨ e = ("right", 1) := by
        revert e
        decide
      rcases channel with rfl | rfl
      · have left : onChannel "left" ["left/again", "right/bye", "left/stop", "left/bye"] =
            ["again", "stop", "bye"] := by decide
        exact left ▸ again
      · have right : onChannel "right" ["left/again", "right/bye", "left/stop", "left/bye"] =
            ["bye"] := by decide
        exact right ▸ .emit rfl
  obtain ⟨result, answer, accepts⟩ := check?_accepts_iff_spells rounds_loopGuarded .default 5
    ["left/again", "right/bye", "left/stop", "left/bye"]
  rw [answer, accepts.2 woven]

end Grammar

end Switchboard
