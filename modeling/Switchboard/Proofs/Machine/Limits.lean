import Switchboard.Machine.Basic
import Switchboard.Machine.Sequence
import Switchboard.Proofs.Machine.Bounces

/-!
# Limits of trampolines

A limit is checked before each inner turn, and the turns are counted from none.  So a
trampoline with a limit of `n` ends as one without a limit does if that takes at most
`n` inner turns; and if `n` inner turns have all been fed back, it ends with the fault
of the limit, whatever the next inner turn would be (`limited_ends_iff`).

`FedBack` is the part of a chain of bounces that is not over yet.  A trampoline that
never ends has one of every length, unless an inner turn never ends.
-/

namespace Switchboard

namespace Machine

variable {σ : Type} {m : Machine σ} {route : Message → Route} {s t : σ} {message last : Message}
  {n k : Nat} {outcome : Except Stop (σ × Message)}

/-- So many inner turns, all of them fed back, lead to a state and a message for it. -/
inductive FedBack (route : Message → Route) (m : Machine σ) :
    Nat → σ → Message → σ → Message → Prop
  | refl {s : σ} {message : Message} : FedBack route m 0 s message s message
  | again {turns : Nat} {s next t : σ} {message out back last : Message}
      (ends : (m.advance s message).Ends (.ok (next, out))) (returns : route out = .again back)
      (later : FedBack route m turns next back t last) :
      FedBack route m (turns + 1) s message t last

/-- The outcome of a turn that its limit has stopped. -/
def exceeded (most : Nat) : Except Stop (σ × Message) :=
  .error (.fault (.stepLimitExceeded most))

/-! ## Parts of a chain of bounces -/

theorem FedBack.concat {next : σ} {out back : Message} (h : FedBack route m k s message t last)
    (ends : (m.advance t last).Ends (.ok (next, out))) (returns : route out = .again back) :
    FedBack route m (k + 1) s message next back := by
  induction h with
  | refl => exact .again ends returns .refl
  | again ends' returns' _ ih => exact .again ends' returns' (ih ends)

theorem FedBack.bounces {turns : Nat} (h : FedBack route m k s message t last)
    (rest : Bounces route m turns t last outcome) :
    Bounces route m (turns + k) s message outcome := by
  induction h with
  | refl => exact rest
  | again ends returns _ ih => exact .again ends returns (ih rest)

/-- All turns of a chain but the last one are fed back. -/
theorem Bounces.fedBack {turns : Nat} (h : Bounces route m turns s message outcome)
    (fewer : k < turns) : ∃ t last, FedBack route m k s message t last := by
  induction h generalizing k with
  | stop _ =>
      obtain rfl : k = 0 := by omega
      exact ⟨_, _, .refl⟩
  | finish _ _ =>
      obtain rfl : k = 0 := by omega
      exact ⟨_, _, .refl⟩
  | again ends returns _ ih =>
      cases k with
      | zero => exact ⟨_, _, .refl⟩
      | succ k =>
          obtain ⟨t, last, later⟩ := ih (Nat.lt_of_succ_lt_succ fewer)
          exact ⟨t, last, .again ends returns later⟩

theorem overLimit_eq_none_iff : overLimit (some n) k = none ↔ k < n := by
  simp [overLimit]

/-- With no turn left, the round is the fault of the limit. -/
theorem round_of_spent {b : Bounce σ} (spent : n ≤ b.taken)
    {r : Bounce σ ⊕ Except Stop (σ × Message)} :
    (Turn.iterate.round (bounce route (some n) m) b).Returns r ↔ r = .inr (exceeded n) := by
  have refuses : overLimit (some n) b.taken = some (.stepLimitExceeded n) := if_pos spent
  have round : Turn.iterate.round (bounce route (some n) m) b = pure (.inr (exceeded n)) := by
    rw [Turn.iterate.round, bounce, refuses]
    rfl
  rw [round, Eventual.returns_pure, eq_comm]

theorem FedBack.leads {taken : Nat} (h : FedBack route m k s message t last)
    (spent : taken + k = n) :
    Eventual.Leads (Turn.iterate.round (bounce route (some n) m)) ⟨taken, s, message⟩
      (exceeded n) := by
  induction h generalizing taken with
  | refl => exact .finish ((round_of_spent (Nat.le_of_eq spent.symm)).2 rfl)
  | @again turns _ _ _ _ _ _ _ ends returns _ ih =>
      have left : taken < n := by omega
      have spent' : taken + 1 + turns = n := by omega
      refine .again (Turn.returns_round_iff.2 ?_) (ih spent')
      rw [bounce_of_allowed (overLimit_eq_none_iff.2 left)]
      exact bounce_again_iff.2 ⟨_, _, _, ends, returns, rfl⟩

/-- Rounds under a limit are bounces for which there were turns left, or they have used
up all turns that were left. -/
theorem limited_of_leads {b : Bounce σ}
    (h : Eventual.Leads (Turn.iterate.round (bounce route (some n) m)) b outcome) :
    (∃ turns, b.taken + turns ≤ n ∧ Bounces route m turns b.state b.message outcome) ∨
      (∃ t last, FedBack route m (n - b.taken) b.state b.message t last) ∧
        outcome = exceeded n := by
  induction h with
  | @finish b outcome answers =>
      by_cases left : b.taken < n
      · have round := Turn.returns_round_iff.1 answers
        rw [bounce_of_allowed (overLimit_eq_none_iff.2 left)] at round
        cases outcome with
        | error stop => exact Or.inl ⟨1, left, .stop (bounce_stops_iff.1 round)⟩
        | ok answer =>
            obtain ⟨out, ends, leaves⟩ := bounce_finish_iff.1 round
            exact Or.inl ⟨1, left, .finish ends leaves⟩
      · have spent : n ≤ b.taken := Nat.le_of_not_lt left
        have none_left : n - b.taken = 0 := Nat.sub_eq_zero_of_le spent
        have cut := Sum.inr.inj ((round_of_spent spent).1 answers)
        exact Or.inr ⟨⟨b.state, b.message, none_left ▸ .refl⟩, cut⟩
  | @again b later outcome goes _ ih =>
      by_cases left : b.taken < n
      · have round := Turn.returns_round_iff.1 goes
        rw [bounce_of_allowed (overLimit_eq_none_iff.2 left)] at round
        obtain ⟨next, out, back, ends, returns, rfl⟩ := bounce_again_iff.1 round
        rcases ih with ⟨turns, enough, rest⟩ | ⟨⟨t, last, rest⟩, cut⟩
        · have enough' : b.taken + (turns + 1) ≤ n := by
            rwa [Nat.add_comm turns, ← Nat.add_assoc]
          exact Or.inl ⟨turns + 1, enough', .again ends returns rest⟩
        · have one_more : n - b.taken = n - (b.taken + 1) + 1 := by omega
          exact Or.inr ⟨⟨t, last, one_more ▸ .again ends returns rest⟩, cut⟩
      · cases (round_of_spent (Nat.le_of_not_lt left)).1 goes

/-- A trampoline with a limit makes at most so many inner turns: it has ended with them,
or all of them were fed back. -/
theorem limited_ends_iff :
    ((trampoline route (some n) m).advance s message).Ends outcome ↔
      (∃ turns ≤ n, Bounces route m turns s message outcome) ∨
        (∃ t last, FedBack route m n s message t last) ∧ outcome = exceeded n := by
  refine Turn.ends_iterate_iff.trans ⟨fun h => ?_, ?_⟩
  · simpa using limited_of_leads h
  · rintro (⟨turns, enough, h⟩ | ⟨⟨t, last, h⟩, rfl⟩)
    · exact h.leads fun turn below => overLimit_eq_none_iff.2 (by omega)
    · exact h.leads (Nat.zero_add n)

/-- What comes of an outcome that takes so many inner turns, under a limit or none. -/
def capped {α : Type} (limit : Option Nat) (turns : Nat) (outcome : Except Stop α) :
    Except Stop α :=
  match limit with
  | none => outcome
  | some most => if turns ≤ most then outcome else .error (.fault (.stepLimitExceeded most))

theorem Bounces.ends_capped (h : Bounces route m k s message outcome) (limit : Option Nat) :
    ((trampoline route limit m).advance s message).Ends (capped limit k outcome) := by
  cases limit with
  | none => exact trampoline_ends_iff.2 ⟨k, h⟩
  | some most =>
      by_cases enough : k ≤ most
      · rw [capped, if_pos enough]
        exact limited_ends_iff.2 (Or.inl ⟨k, enough, h⟩)
      · rw [capped, if_neg enough]
        exact limited_ends_iff.2 (Or.inr ⟨h.fedBack (Nat.lt_of_not_le enough), rfl⟩)

end Machine

end Switchboard
