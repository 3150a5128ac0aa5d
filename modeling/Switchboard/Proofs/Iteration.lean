import Switchboard.Machine

/-!
# Repeated steps

A repeated step answers exactly if finitely many rounds lead to the answer
(`Eventual.returns_iterate_iff`).  `Leads` is the chain of these rounds, and
inductions about loops are inductions on it.  For turns the same is said with the
stops as answers.
-/

namespace Switchboard

namespace Eventual

variable {α β σ : Type}

theorem returns_map {c : Eventual α} {f : α → β} {b : β} :
    (f <$> c).Returns b ↔ ∃ a, c.Returns a ∧ f a = b := by
  rw [map_eq_pure_bind, returns_bind]
  simp only [returns_pure]

/-- What follows an answer matters only for the answer that is given. -/
theorem bind_congr_returns {c : Eventual α} {f g : α → Eventual β}
    (h : ∀ a, c.Returns a → f a = g a) : c >>= f = c >>= g := by
  refine ext_after fun n => ?_
  rw [after_bind, after_bind]
  cases given : c.after n with
  | none => rfl
  | some a => exact congrArg (Eventual.after · n) (h a ⟨n, given⟩)

/-- Finitely many rounds of a step lead from a state to an answer. -/
inductive Leads (step : σ → Eventual (σ ⊕ α)) : σ → α → Prop
  | finish {s : σ} {a : α} (answers : (step s).Returns (.inr a)) : Leads step s a
  | again {s next : σ} {a : α} (goes : (step s).Returns (.inl next)) (later : Leads step next a) :
      Leads step s a

variable {step : σ → Eventual (σ ⊕ α)} {s : σ} {a : α}

theorem leads_of_repeated {grant rounds : Nat} (h : repeated step grant rounds s = some a) :
    Leads step s a := by
  induction rounds generalizing s with
  | zero => cases h
  | succ rounds ih =>
      rw [repeated] at h
      cases round : (step s).after grant with
      | none =>
          rw [round] at h
          cases h
      | some r =>
          rw [round] at h
          cases r with
          | inl next => exact .again ⟨grant, round⟩ (ih h)
          | inr b =>
              obtain rfl := Option.some.inj h
              exact .finish ⟨grant, round⟩

/-- A grant that suffices for one round and, one less, for the rounds behind it suffices for
all of them. -/
theorem Leads.returns (h : Leads step s a) : (iterate step s).Returns a := by
  induction h with
  | finish answers =>
      obtain ⟨n, answer⟩ := answers
      refine ⟨n + 1, ?_⟩
      show repeated step (n + 1) (n + 1) _ = some _
      rw [repeated, (step _).stable (Nat.le_succ n) answer]
  | again goes _ ih =>
      obtain ⟨n, round⟩ := goes
      obtain ⟨k, rest⟩ := ih
      refine ⟨max n k + 1, ?_⟩
      show repeated step (max n k + 1) (max n k + 1) _ = some _
      rw [repeated, (step _).stable (by omega) round]
      exact repeated_stable step (by omega) (by omega) rest

theorem returns_iterate_iff : (iterate step s).Returns a ↔ Leads step s a :=
  ⟨fun ⟨_, h⟩ => leads_of_repeated h, Leads.returns⟩

theorem after_map (c : Eventual α) (f : α → β) (n : Nat) :
    (f <$> c).after n = (c.after n).map f := by
  rw [map_eq_pure_bind, after_bind]
  cases c.after n with
  | none => rfl
  | some a => rfl

/-- A map of states that takes the rounds of one step to those of another takes
answers to answers. -/
theorem iterate_map {τ : Type} {step' : τ → Eventual (τ ⊕ β)} {f : σ → τ} {g : α → β}
    (h : ∀ s, step' (f s) = Sum.map f g <$> step s) (s : σ) :
    iterate step' (f s) = g <$> iterate step s := by
  have rounds : ∀ grant k s, repeated step' grant k (f s) = (repeated step grant k s).map g := by
    intro grant k
    induction k with
    | zero => exact fun s => rfl
    | succ k ih =>
        intro s
        rw [repeated, repeated, h, after_map]
        rcases (step s).after grant with _ | next | a
        · rfl
        · exact ih next
        · rfl
  refine ext_after fun n => ?_
  rw [after_map]
  exact rounds n n s

end Eventual

namespace Turn

variable {α β σ : Type}

theorem ends_pure {a : α} {outcome : Except Stop α} :
    Ends (pure a) outcome ↔ outcome = .ok a := by
  rw [Ends, ExceptT.run_pure, Eventual.returns_pure, eq_comm]

theorem ends_fault {f : Fault} {outcome : Except Stop α} :
    Ends (fault f) outcome ↔ outcome = .error (.fault f) := by
  rw [Ends, fault, ExceptT.run_throw, Eventual.returns_pure, eq_comm]

theorem ends_ofExcept {x outcome : Except Stop α} :
    Ends (ofExcept x) outcome ↔ outcome = x := by
  cases x with
  | ok a => exact ends_pure
  | error stop => rw [Ends, ofExcept, ExceptT.run_throw, Eventual.returns_pure, eq_comm]

theorem Ends.unique {t : Turn α} {outcome other : Except Stop α} (h : t.Ends outcome)
    (h' : t.Ends other) : outcome = other :=
  Eventual.Returns.unique h h'

/-- A turn after another one: the first may stop, and otherwise the second ends. -/
theorem ends_bind {t : Turn α} {f : α → Turn β} {outcome : Except Stop β} :
    Ends (t >>= f) outcome ↔
      (∃ stop, t.Ends (.error stop) ∧ outcome = .error stop) ∨
        ∃ a, t.Ends (.ok a) ∧ (f a).Ends outcome := by
  rw [Ends, ExceptT.run_bind, Eventual.returns_bind]
  constructor
  · rintro ⟨first, ends, rest⟩
    cases first with
    | error stop => exact Or.inl ⟨stop, ends, (Eventual.returns_pure.1 rest).symm⟩
    | ok a => exact Or.inr ⟨a, ends, rest⟩
  · rintro (⟨stop, ends, rfl⟩ | ⟨a, ends, rest⟩)
    · exact ⟨.error stop, ends, Eventual.returns_pure.2 rfl⟩
    · exact ⟨.ok a, ends, rest⟩

theorem ends_bind_ok {t : Turn α} {f : α → Turn β} {b : β} :
    Ends (t >>= f) (.ok b) ↔ ∃ a, t.Ends (.ok a) ∧ (f a).Ends (.ok b) := by
  rw [ends_bind]
  constructor
  · rintro (⟨stop, _, same⟩ | found)
    · cases same
    · exact found
  · exact Or.inr

theorem Ends.bind_stop {t : Turn α} {stop : Stop} (h : t.Ends (.error stop)) (f : α → Turn β) :
    Ends (t >>= f) (.error stop) :=
  ends_bind.2 (Or.inl ⟨stop, h, rfl⟩)

theorem ends_map {t : Turn α} {f : α → β} {outcome : Except Stop β} :
    Ends (f <$> t) outcome ↔ ∃ first, t.Ends first ∧ first.map f = outcome := by
  rw [Ends, ExceptT.run_map, Eventual.returns_map]
  rfl

theorem ends_map_ok {t : Turn α} {f : α → β} {b : β} :
    Ends (f <$> t) (.ok b) ↔ ∃ a, t.Ends (.ok a) ∧ f a = b := by
  rw [ends_map]
  constructor
  · rintro ⟨first, ends, same⟩
    cases first with
    | error stop => cases same
    | ok a => exact ⟨a, ends, Except.ok.inj same⟩
  · rintro ⟨a, ends, rfl⟩
    exact ⟨.ok a, ends, rfl⟩

theorem Ends.map_stop {t : Turn α} {stop : Stop} (h : t.Ends (.error stop)) (f : α → β) :
    Ends (f <$> t) (.error stop) :=
  ends_map.2 ⟨.error stop, h, rfl⟩

variable {step : σ → Turn (σ ⊕ α)} {s : σ}

theorem returns_round_iff {r : σ ⊕ Except Stop α} :
    (iterate.round step s).Returns r ↔
      match r with
      | .inl next => (step s).Ends (.ok (.inl next))
      | .inr (.ok a) => (step s).Ends (.ok (.inr a))
      | .inr (.error stop) => (step s).Ends (.error stop) := by
  rw [iterate.round, Eventual.returns_bind]
  constructor
  · rintro ⟨first, ends, rest⟩
    rcases first with stop | next | a
    · obtain rfl := Eventual.returns_pure.1 rest
      exact ends
    · obtain rfl := Eventual.returns_pure.1 rest
      exact ends
    · obtain rfl := Eventual.returns_pure.1 rest
      exact ends
  · intro ends
    rcases r with next | stop | a
    · exact ⟨_, ends, Eventual.returns_pure.2 rfl⟩
    · exact ⟨_, ends, Eventual.returns_pure.2 rfl⟩
    · exact ⟨_, ends, Eventual.returns_pure.2 rfl⟩

theorem ends_iterate_iff {outcome : Except Stop α} :
    (iterate step s).Ends outcome ↔ Eventual.Leads (iterate.round step) s outcome :=
  Eventual.returns_iterate_iff

end Turn

end Switchboard
