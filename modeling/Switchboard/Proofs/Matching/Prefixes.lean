import Switchboard.Proofs.Matching.Acceptance

/-!
# What a match consumes

Of a transcript a match reads no more than it consumes.  The tokens that are
consumed are a word of the node (`matchesPrefix?_eq_ok_iff`), and no word of a
node extends another one, so whatever stands behind them cannot change the
match.  For a product this says that at most one number of tokens in front can
be split among its channels (`matchesPrefix?_eq_ok_iff_splits`): the search for
the shortest one misses none.
-/

namespace Switchboard

namespace Grammar

variable {g : Grammar} {config : MatchConfig} {id : NodeId} {tokens : List String}

theorem check?_eq_ok_iff (guarded : g.LoopGuarded) :
    g.check? config id tokens = some (.ok ()) ↔ Spells g (.node id) tokens := by
  obtain ⟨verdict, answers⟩ := Matching.observed_answers guarded id tokens
  obtain ⟨clean, journal, run, outcome, _⟩ :=
    answers config.memoize (g.matchingDepth tokens) (Nat.le_refl _)
  have checked : g.check? config id tokens = some (exactly tokens verdict) :=
    (answers_of_run run).2
  rw [checked, Option.some.injEq]
  exact outcome.exactly_iff_spells

/-- What is consumed is a word of the node, and every word in front is consumed. -/
theorem matchesPrefix?_eq_ok_iff (guarded : g.LoopGuarded) {next : Nat} :
    g.matchesPrefix? config id tokens = some (.ok next) ↔
      next ≤ tokens.length ∧ Spells g (.node id) (tokens.take next) := by
  obtain ⟨verdict, answers⟩ := Matching.observed_answers guarded id tokens
  obtain ⟨clean, journal, run, outcome, _⟩ :=
    answers config.memoize (g.matchingDepth tokens) (Nat.le_refl _)
  have matched : g.matchesPrefix? config id tokens = some verdict := (answers_of_run run).1
  rw [matched, Option.some.injEq]
  constructor
  · intro found
    obtain ⟨word, spelled, front, rfl⟩ := outcome.sound next found
    rw [List.drop_zero] at front
    rw [Nat.zero_add]
    exact ⟨front.length_le, List.prefix_iff_eq_take.1 front ▸ spelled⟩
  · rintro ⟨inside, spelled⟩
    have consumed : Consumes g (.node id) tokens 0 next := by
      refine ⟨tokens.take next, spelled, List.take_prefix next tokens, ?_⟩
      rw [Nat.zero_add, List.length_take_of_le inside]
    exact outcome.eq_ok_of_consumes consumed

/-- A number of tokens at the front of a transcript is a split of it for the
channels of a product: each of these tokens carries a channel, and each channel
matches all of its share. -/
def Splits (g : Grammar) (config : MatchConfig) (channels : Keyed NodeId) (tokens : List String)
    (split : Nat) : Prop :=
  split ≤ tokens.length ∧ (∀ token ∈ tokens.take split, Tagged channels token) ∧
    ∀ e ∈ channels.entries,
      g.check? config e.2 (onChannel e.1 (tokens.take split)) = some (.ok ())

/-- A product takes every split that there is. -/
theorem matchesPrefix?_eq_ok_iff_splits (guarded : g.LoopGuarded) {channels : Keyed NodeId}
    (shape : g.node? id = some (.product channels)) {split : Nat} :
    g.matchesPrefix? config id tokens = some (.ok split) ↔
      g.Splits config channels tokens split := by
  rw [matchesPrefix?_eq_ok_iff guarded, spells_node_iff, shape, Splits]
  simp only [check?_eq_ok_iff guarded]

theorem Splits.unique (guarded : g.LoopGuarded) {channels : Keyed NodeId}
    (shape : g.node? id = some (.product channels)) {split other : Nat}
    (h : g.Splits config channels tokens split) (h' : g.Splits config channels tokens other) :
    split = other := by
  rw [← matchesPrefix?_eq_ok_iff_splits guarded shape] at h h'
  exact Except.ok.inj (Option.some.inj (h.symm.trans h'))

/-- A match consumes what is there and does not depend on anything behind it; a
prefix that is accepted is what is matched; nothing is accepted together with a
proper prefix of it; and a product has no choice of splits. -/
theorem match_decided_by_consumed (guarded : g.LoopGuarded) (config : MatchConfig) (id : NodeId)
    (tokens : List String) :
    (∀ next, g.matchesPrefix? config id tokens = some (.ok next) →
      next ≤ tokens.length ∧ ∀ other, tokens.take next <+: other →
        g.matchesPrefix? config id other = some (.ok next)) ∧
    (∀ next ≤ tokens.length, g.check? config id (tokens.take next) = some (.ok ()) →
      g.matchesPrefix? config id tokens = some (.ok next)) ∧
    (∀ front, front <+: tokens → g.check? config id front = some (.ok ()) →
      g.check? config id tokens = some (.ok ()) → front = tokens) ∧
    ∀ channels, g.node? id = some (.product channels) → ∀ split,
      (g.matchesPrefix? config id tokens = some (.ok split) ↔
        g.Splits config channels tokens split) ∧
      (g.Splits config channels tokens split →
        ∀ other, g.Splits config channels tokens other → other = split) := by
  refine ⟨fun next matched => ?_, fun next inside accepted => ?_,
    fun front before accepted whole => ?_, fun channels shape split => ⟨?_, fun splits => ?_⟩⟩
  · obtain ⟨inside, spelled⟩ := (matchesPrefix?_eq_ok_iff guarded).1 matched
    refine ⟨inside, fun other same => (matchesPrefix?_eq_ok_iff guarded).2 ?_⟩
    have long := same.length_le
    have taken := List.prefix_iff_eq_take.1 same
    rw [List.length_take_of_le inside] at long taken
    exact ⟨long, taken ▸ spelled⟩
  · rw [matchesPrefix?_eq_ok_iff guarded]
    exact ⟨inside, (check?_eq_ok_iff guarded).1 accepted⟩
  · have spelled := (check?_eq_ok_iff guarded).1 accepted
    exact spelled.eq_of_comparable ((check?_eq_ok_iff guarded).1 whole) (Or.inl before)
  · exact matchesPrefix?_eq_ok_iff_splits guarded shape
  · exact fun other splits' => splits'.unique guarded shape splits

theorem rounds_stopped : Spells rounds (.node 0) ["stop", "bye"] :=
  .loop rfl (.choice rfl rounds_stop (.emit rfl))

/-- What the rounds side by side with the farewell stand for. -/
theorem rounds_woven {word : List String}
    (tagged : ∀ token ∈ word, (tag? (Keyed.ofList [("left", 0), ("right", 1)]) token).isSome = true)
    (left : Spells rounds (.node 0) (onChannel "left" word))
    (right : onChannel "right" word = ["bye"]) : Spells rounds (.node 5) word := by
  refine .product rfl (fun token mem => tag?_isSome_iff.1 (tagged token mem)) fun e mem => ?_
  have channel : e = ("left", 0) ∨ e = ("right", 1) := by
    revert e
    decide
  rcases channel with rfl | rfl
  · exact left
  · exact right ▸ .emit rfl

/-- One more round behind a woven transcript is left alone, and so would anything
else be. -/
theorem rounds_consumes_woven :
    rounds.matchesPrefix? .default 5 ["right/bye", "left/stop", "left/bye", "left/again"] =
        some (.ok 3) ∧
      rounds.matchesPrefix? .default 5 ["right/bye", "left/stop", "left/bye", "?"] =
        some (.ok 3) := by
  have left : onChannel "left" ["right/bye", "left/stop", "left/bye"] = ["stop", "bye"] := by
    decide
  have woven : Spells rounds (.node 5) ["right/bye", "left/stop", "left/bye"] :=
    rounds_woven (by decide +kernel) (left ▸ rounds_stopped) (by decide)
  obtain ⟨local_, whole, _⟩ := match_decided_by_consumed rounds_loopGuarded .default 5
    ["right/bye", "left/stop", "left/bye", "left/again"]
  have matched := whole 3 (by decide) ((check?_eq_ok_iff rounds_loopGuarded).2 woven)
  exact ⟨matched, (local_ 3 matched).2 _ ⟨["?"], rfl⟩⟩

end Grammar

end Switchboard
