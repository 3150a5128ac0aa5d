import Switchboard.Proofs.Matching.Guard
import Switchboard.Proofs.Matching.Prefixes
import Switchboard.Proofs.Matching.Stalling

/-!
# What a missing progress tells

A mismatch denounces a loop if it says, at any depth, that a loop made no progress.
The naive evaluation never says so (`Naive.acquits`), and a match says so only after
a refusal.  So nothing is denounced where every loop has a word, and whatever loop is
refused has none: it is the grammar that is denounced, never the transcript
(`Grammar.refusals_denounce_grammar`).
-/

namespace Switchboard

/-- The mismatch says of a loop that it made no progress, itself or in what it is
made of. -/
inductive Mismatch.Denounces : Mismatch → Prop
  | here (position : Nat) : Denounces (.noProgress position)
  | step (index : Nat) {reason : Mismatch} (inner : reason.Denounces) :
      Denounces (.step index reason)
  | channel (split : Nat) {channels : List (String × Mismatch)} (blocked : Option Untagged)
      {e : String × Mismatch} (listed : e ∈ channels) (inner : e.2.Denounces) :
      Denounces (.product split channels blocked)

/-- A mismatch, if there is one, denounces no loop. -/
def Acquits {α : Type} (result : Except Mismatch α) : Prop :=
  ∀ reason, result = .error reason → ¬reason.Denounces

theorem Acquits.exactly {verdict : Verdict} (h : Acquits verdict) (tokens : List String) :
    Acquits (exactly tokens verdict) := by
  intro reason failed
  cases verdict with
  | error reason' =>
      cases failed
      exact h reason rfl
  | ok next =>
      rw [Switchboard.exactly] at failed
      split at failed
      · cases failed
        intro denounces
        cases denounces
      · cases failed

theorem mem_failures_sharesIn {entries : List (String × NodeId)} {taken : List String}
    {verdict : String × NodeId → Verdict} {e : String × Mismatch}
    (listed : e ∈ Share.failures (sharesIn entries taken verdict)) :
    ∃ entry ∈ entries, exactly (onChannel entry.1 taken) (verdict entry) = .error e.2 := by
  obtain ⟨share, mem, failed⟩ := List.mem_filterMap.1 listed
  obtain ⟨entry, mem', rfl⟩ := List.mem_map.1 mem
  refine ⟨entry, mem', ?_⟩
  dsimp only at failed
  split at failed
  · cases failed
  · rename_i reason error
    cases failed
    exact error

/-- The naive evaluation refuses nothing, and so it has no such complaint. -/
theorem Naive.acquits {g : Grammar} {tokens : List String} {goal : Goal} {position : Nat}
    {verdict : Verdict} (h : Naive g tokens goal position verdict) : Acquits verdict := by
  induction h with
  | unknownNode =>
      rintro reason ⟨⟩ ⟨⟩
  | emit =>
      rintro reason ⟨⟩
  | token =>
      rintro reason ⟨⟩ ⟨⟩
  | sequence _ _ ih => exact ih
  | nil =>
      rintro reason ⟨⟩
  | cons _ _ _ ih => exact ih
  | step _ ih =>
      rintro reason ⟨⟩ denounces
      cases denounces with
      | step index inner => exact ih _ rfl inner
  | choice _ _ _ ih => exact ih
  | unlisted =>
      rintro reason ⟨⟩ ⟨⟩
  | unresolved =>
      rintro reason ⟨⟩ ⟨⟩
  | loop _ _ ih => exact ih
  | @product tokens id channels position split verdict answer shape asked undecided decided ih =>
      rintro reason rfl denounces
      obtain rfl := product_of_decision? decided
      cases denounces with
      | channel split blocked listed inner =>
          obtain ⟨entry, mem, failed⟩ := mem_failures_sharesIn listed
          exact (ih split (Nat.le_refl _) entry mem).exactly _ _ failed inner

namespace Grammar

variable {g : Grammar}

/-- Every loop that can be reached from the node is accepted by a check on some
transcript. -/
def Productive (g : Grammar) (id : NodeId) : Prop :=
  ∀ loop, Relation.ReflTransGen g.Refers id loop → g.IsLoop loop →
    ∃ tokens, g.check? .default loop tokens = some (.ok ())

theorem Productive.liveNode (guarded : g.LoopGuarded) {id : NodeId} (h : g.Productive id) :
    LiveNode g id := by
  intro loop path isLoop
  obtain ⟨word, accepted⟩ := h loop path isLoop
  exact ⟨word, (check?_eq_ok_iff guarded).1 accepted⟩

/-- Where every loop has a word no mismatch denounces a loop, and a loop that is
refused in any match is one that no transcript would do for. -/
theorem refusals_denounce_grammar (guarded : g.LoopGuarded) :
    (∀ id, g.Productive id → ∀ config tokens,
      (∃ verdict, g.matchesPrefix? config id tokens = some verdict ∧ Acquits verdict) ∧
        ∃ result, g.check? config id tokens = some result ∧ Acquits result) ∧
    ∀ id tokens memoize depth, g.matchingDepth tokens ≤ depth →
      ∃ verdict journal,
        (Matching.observed g memoize depth (.outermost tokens id)).run .empty =
          some (verdict, journal) ∧
        g.matchesPrefix? ⟨memoize⟩ id tokens = some verdict ∧
        ∀ call, .refuses call ∈ journal.events →
          ∀ config word, ∃ reason, g.check? config call.node word = some (.error reason) := by
  constructor
  · rintro id productive ⟨memoize⟩ tokens
    obtain ⟨verdict, answers⟩ := Matching.observed_answers guarded id tokens
    obtain ⟨clean, journal, run, outcome, _⟩ := answers memoize _ (Nat.le_refl _)
    have live : Live g (.node id) := productive.liveNode guarded
    have grounded := live.grounded guarded (tokens.drop 0)
    have naive : Naive g tokens (.node id) 0 verdict := by
      cases clean with
      | true => exact outcome.naive rfl
      | false => exact (outcome.ungrounded rfl grounded).elim
    have answered := answers_of_run run
    have acquits : Acquits verdict := naive.acquits
    exact ⟨⟨verdict, answered.1, acquits⟩, _, answered.2, acquits.exactly tokens⟩
  · intro id tokens memoize depth deep
    obtain ⟨verdict, answers⟩ := Matching.observed_answers guarded id tokens
    obtain ⟨_, _, run', _⟩ := answers memoize _ (Nat.le_refl _)
    obtain ⟨clean, journal, run, _, continues⟩ := answers memoize depth deep
    refine ⟨verdict, journal, run, (answers_of_run run').1, ?_⟩
    intro call refused config word
    obtain ⟨_, proper⟩ := continues.not_clean refused
    have wordless := not_spells_of_transGen_self proper.asks_itself word
    obtain ⟨result, answer, accepts⟩ := check?_accepts_iff_spells guarded config call.node word
    cases result with
    | ok u => exact (wordless (accepts.1 rfl)).elim
    | error reason => exact ⟨reason, answer⟩

/-- Of what the rounds side by side with the farewell refer to, only the rounds are a
loop. -/
theorem rounds_productive : rounds.Productive 5 := by
  have closed : ∀ id ∈ [5, 0, 1, 2], ∀ node ∈ rounds.node? id, ∀ other ∈ node.references,
      other ∈ [5, 0, 1, 2] := by decide
  have loops : ∀ id ∈ [5, 0, 1, 2], ∀ node ∈ rounds.node? id, node.isLoop = true → id = 0 := by
    decide
  have reached : ∀ id, Relation.ReflTransGen rounds.Refers 5 id → id ∈ [5, 0, 1, 2] := by
    intro id path
    induction path with
    | refl => exact List.mem_cons_self
    | tail _ refers ih =>
        obtain ⟨node, shape, mem⟩ := refers
        exact closed _ ih node shape _ mem
  rintro loop path ⟨body, shape⟩
  obtain rfl := loops loop (reached loop path) _ shape rfl
  exact ⟨_, (check?_eq_ok_iff rounds_loopGuarded).2 rounds_stopped⟩

/-- Whatever is checked against the rounds and the farewell, no loop is to blame; and
no transcript would do for the loop that comes back to itself. -/
theorem rounds_denounced :
    (∃ result, rounds.check? .default 5 ["left/again", "right/stop"] = some result ∧
      Acquits result) ∧
    ∃ reason, rounds.check? .default 3 ["again"] = some (.error reason) := by
  obtain ⟨acquitted, refused⟩ := refusals_denounce_grammar rounds_loopGuarded
  constructor
  · exact (acquitted 5 rounds_productive .default ["left/again", "right/stop"]).2
  · obtain ⟨verdict, journal, run, _, rejects⟩ :=
      refused 3 [] false (rounds.matchingDepth []) (Nat.le_refl _)
    let again : Call := ⟨.outermost [], [(3, 0)], 3, 0⟩
    have events : journal.events = [.asks (.outermost [] 3) ⟨.outermost [], [(3, 0)], 4, 0⟩,
        .asks ⟨.outermost [], [(3, 0)], 4, 0⟩ again, .refuses again] := by
      cases run
      rfl
    have mem : .refuses again ∈ journal.events := by
      rw [events]
      simp
    exact rejects again mem .default ["again"]

end Grammar

end Switchboard
