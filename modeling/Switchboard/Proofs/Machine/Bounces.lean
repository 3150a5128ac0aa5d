import Switchboard.Machine.Trampoline
import Switchboard.Proofs.Iteration

/-!
# Bounces

`Bounces route m turns s message outcome` says that a trampoline without a limit
ends with an outcome after so many inner turns.  It is a chain of turns of the
inner machine, each of which but the last is fed back; where a trampoline never
ends there is none (`Machine.trampoline_ends_iff`).
-/

namespace Switchboard

namespace Machine

variable {σ : Type} {m : Machine σ} {route : Message → Route}

inductive Bounces (route : Message → Route) (m : Machine σ) :
    Nat → σ → Message → Except Stop (σ × Message) → Prop
  | stop {s : σ} {message : Message} {stop : Stop}
      (ends : (m.advance s message).Ends (.error stop)) :
      Bounces route m 1 s message (.error stop)
  | finish {s next : σ} {message out answer : Message}
      (ends : (m.advance s message).Ends (.ok (next, out))) (leaves : route out = .finish answer) :
      Bounces route m 1 s message (.ok (next, answer))
  | again {turns : Nat} {s next : σ} {message out back : Message}
      {outcome : Except Stop (σ × Message)}
      (ends : (m.advance s message).Ends (.ok (next, out))) (returns : route out = .again back)
      (later : Bounces route m turns next back outcome) :
      Bounces route m (turns + 1) s message outcome

/-! ## One round -/

variable {b : Bounce σ}

theorem bounce_ends_iff {outcome : Except Stop (Bounce σ ⊕ (σ × Message))} :
    (bounce route none m b).Ends outcome ↔
      (∃ stop, (m.advance b.state b.message).Ends (.error stop) ∧ outcome = .error stop) ∨
        ∃ next out, (m.advance b.state b.message).Ends (.ok (next, out)) ∧
          ((∃ back, route out = .again back ∧ outcome = .ok (.inl ⟨b.taken + 1, next, back⟩)) ∨
            ∃ answer, route out = .finish answer ∧ outcome = .ok (.inr (next, answer))) := by
  show Turn.Ends (m.advance b.state b.message >>= _) outcome ↔ _
  rw [Turn.ends_bind, Prod.exists]
  refine or_congr_right
    (exists_congr fun next => exists_congr fun out => and_congr_right fun _ => ?_)
  cases routed : route out with
  | again back => simp [routed, Turn.ends_pure]
  | finish answer => simp [routed, Turn.ends_pure]

theorem bounce_stops_iff {stop : Stop} :
    (bounce route none m b).Ends (.error stop) ↔
      (m.advance b.state b.message).Ends (.error stop) := by
  rw [bounce_ends_iff]
  simp

theorem bounce_again_iff {later : Bounce σ} :
    (bounce route none m b).Ends (.ok (.inl later)) ↔
      ∃ next out back, (m.advance b.state b.message).Ends (.ok (next, out)) ∧
        route out = .again back ∧ later = ⟨b.taken + 1, next, back⟩ := by
  rw [bounce_ends_iff]
  simp

theorem bounce_finish_iff {next : σ} {answer : Message} :
    (bounce route none m b).Ends (.ok (.inr (next, answer))) ↔
      ∃ out, (m.advance b.state b.message).Ends (.ok (next, out)) ∧
        route out = .finish answer := by
  rw [bounce_ends_iff]
  constructor
  · rintro (⟨_, _, same⟩ | ⟨_, out, ends, ⟨_, _, same⟩ | ⟨_, leaves, same⟩⟩)
    · cases same
    · cases same
    · cases same
      exact ⟨out, ends, leaves⟩
  · rintro ⟨out, ends, leaves⟩
    exact Or.inr ⟨next, out, ends, Or.inr ⟨answer, leaves, rfl⟩⟩

/-- Where its limit allows one more turn, a trampoline goes on as if it had none. -/
theorem bounce_of_allowed {limit : Option Nat} (allowed : overLimit limit b.taken = none) :
    bounce route limit m b = bounce route none m b := by
  rw [bounce, bounce, allowed]
  rfl

/-! ## All rounds -/

theorem bounces_of_leads {outcome : Except Stop (σ × Message)}
    (h : Eventual.Leads (Turn.iterate.round (bounce route none m)) b outcome) :
    ∃ turns, Bounces route m turns b.state b.message outcome := by
  induction h with
  | @finish b outcome answers =>
      have round := Turn.returns_round_iff.1 answers
      cases outcome with
      | error stop => exact ⟨1, .stop (bounce_stops_iff.1 round)⟩
      | ok answer =>
          obtain ⟨out, ends, leaves⟩ := bounce_finish_iff.1 round
          exact ⟨1, .finish ends leaves⟩
  | again goes _ ih =>
      obtain ⟨next, out, back, ends, returns, rfl⟩ :=
        bounce_again_iff.1 (Turn.returns_round_iff.1 goes)
      obtain ⟨turns, later⟩ := ih
      exact ⟨turns + 1, .again ends returns later⟩

/-- A chain of bounces is run through under every limit that allows its turns. -/
theorem Bounces.leads {turns : Nat} {s : σ} {message : Message}
    {outcome : Except Stop (σ × Message)} (h : Bounces route m turns s message outcome)
    {limit : Option Nat} {taken : Nat}
    (allowed : ∀ turn < turns, overLimit limit (taken + turn) = none) :
    Eventual.Leads (Turn.iterate.round (bounce route limit m)) ⟨taken, s, message⟩ outcome := by
  induction h generalizing taken with
  | stop ends =>
      refine .finish (Turn.returns_round_iff.2 ?_)
      rw [bounce_of_allowed (allowed 0 Nat.one_pos)]
      exact bounce_stops_iff.2 ends
  | finish ends leaves =>
      refine .finish (Turn.returns_round_iff.2 ?_)
      rw [bounce_of_allowed (allowed 0 Nat.one_pos)]
      exact bounce_finish_iff.2 ⟨_, ends, leaves⟩
  | @again turns s next message out back outcome ends returns _ ih =>
      have later : ∀ turn < turns, overLimit limit (taken + 1 + turn) = none := by
        intro turn below
        rw [Nat.add_assoc, Nat.add_comm 1 turn]
        exact allowed (turn + 1) (Nat.succ_lt_succ below)
      refine .again (Turn.returns_round_iff.2 ?_) (ih later)
      rw [bounce_of_allowed (allowed 0 (Nat.succ_pos turns))]
      exact bounce_again_iff.2 ⟨_, _, _, ends, returns, rfl⟩

/-- A trampoline without a limit ends exactly where its bounces do. -/
theorem trampoline_ends_iff {s : σ} {message : Message} {outcome : Except Stop (σ × Message)} :
    ((trampoline route none m).advance s message).Ends outcome ↔
      ∃ turns, Bounces route m turns s message outcome := by
  refine Turn.ends_iterate_iff.trans ⟨bounces_of_leads, ?_⟩
  rintro ⟨turns, h⟩
  exact h.leads fun _ _ => rfl

end Machine

end Switchboard
