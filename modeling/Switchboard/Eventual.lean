/-!
# Computations that answer eventually

An `Eventual α` gives its answer once it is granted enough turns, or never.
An answer once given stays the same under any larger grant, so there is at most
one.  `iterate` repeats a step until it finishes; it is the only source of
computations that never answer.

`Returns c a` says that `c` answers `a` under some grant.
-/

namespace Switchboard

structure Eventual (α : Type) where
  after : Nat → Option α
  stable : ∀ {m n : Nat} {a : α}, m ≤ n → after m = some a → after n = some a

namespace Eventual

variable {α β σ : Type}

def Returns (c : Eventual α) (a : α) : Prop :=
  ∃ n, c.after n = some a

theorem ext_after {c d : Eventual α} (h : ∀ n, c.after n = d.after n) : c = d := by
  cases c
  cases d
  simp only [mk.injEq]
  exact funext h

theorem Returns.unique {c : Eventual α} {a b : α} (ha : c.Returns a) (hb : c.Returns b) :
    a = b := by
  obtain ⟨m, hm⟩ := ha
  obtain ⟨n, hn⟩ := hb
  have hm := c.stable (Nat.le_max_left m n) hm
  have hn := c.stable (Nat.le_max_right m n) hn
  exact Option.some.inj (hm.symm.trans hn)

/-- Answers at once. -/
def now (a : α) : Eventual α :=
  ⟨fun _ => some a, fun _ h => h⟩

def bind (c : Eventual α) (f : α → Eventual β) : Eventual β where
  after n := (c.after n).bind fun a => (f a).after n
  stable {m n b} hmn h := by
    obtain ⟨a, ha, hb⟩ := Option.bind_eq_some_iff.1 h
    exact Option.bind_eq_some_iff.2 ⟨a, c.stable hmn ha, (f a).stable hmn hb⟩

instance : Monad Eventual where
  pure := now
  bind := bind

@[simp] theorem after_pure (a : α) (n : Nat) : (pure a : Eventual α).after n = some a := rfl

@[simp] theorem after_bind (c : Eventual α) (f : α → Eventual β) (n : Nat) :
    (c >>= f).after n = (c.after n).bind fun a => (f a).after n := rfl

instance : LawfulMonad Eventual :=
  LawfulMonad.mk' _
    (fun c => ext_after fun n => by
      change (c.after n).bind _ = _
      cases c.after n <;> rfl)
    (fun _ _ => ext_after fun _ => rfl)
    (fun c f g => ext_after fun n => by
      simp only [after_bind]
      cases c.after n <;> rfl)

theorem returns_pure {a b : α} : (pure a : Eventual α).Returns b ↔ a = b :=
  ⟨fun ⟨_, h⟩ => Option.some.inj h, fun h => ⟨0, congrArg some h⟩⟩

theorem returns_bind {c : Eventual α} {f : α → Eventual β} {b : β} :
    (c >>= f).Returns b ↔ ∃ a, c.Returns a ∧ (f a).Returns b := by
  constructor
  · rintro ⟨n, h⟩
    obtain ⟨a, ha, hb⟩ := Option.bind_eq_some_iff.1 h
    exact ⟨a, ⟨n, ha⟩, ⟨n, hb⟩⟩
  · rintro ⟨a, ⟨m, hm⟩, ⟨n, hn⟩⟩
    refine ⟨max m n, Option.bind_eq_some_iff.2 ⟨a, ?_, ?_⟩⟩
    · exact c.stable (Nat.le_max_left m n) hm
    · exact (f a).stable (Nat.le_max_right m n) hn

/-- At most `rounds` steps from a state, each under the same grant. -/
def repeated (step : σ → Eventual (σ ⊕ α)) (grant : Nat) : Nat → σ → Option α
  | 0, _ => none
  | rounds + 1, s =>
      match (step s).after grant with
      | none => none
      | some (.inl next) => repeated step grant rounds next
      | some (.inr a) => some a

theorem repeated_stable (step : σ → Eventual (σ ⊕ α)) {m n : Nat} (hmn : m ≤ n) {a : α} :
    ∀ {j k : Nat} {s : σ}, j ≤ k → repeated step m j s = some a →
      repeated step n k s = some a := by
  intro j
  induction j with
  | zero =>
      intro k s _ h
      cases h
  | succ j ih =>
      intro k s hjk h
      obtain ⟨k, rfl⟩ : ∃ i, k = i + 1 := ⟨k - 1, by omega⟩
      rw [repeated] at h ⊢
      cases hs : (step s).after m with
      | none =>
          rw [hs] at h
          cases h
      | some r =>
          rw [hs] at h
          rw [(step s).stable hmn hs]
          cases r with
          | inl next => exact ih (Nat.le_of_succ_le_succ hjk) h
          | inr b => exact h

/-- Repeats a step until it gives an answer instead of a next state. -/
def iterate (step : σ → Eventual (σ ⊕ α)) (s : σ) : Eventual α where
  after n := repeated step n n s
  stable hmn h := repeated_stable step hmn hmn h

end Eventual

end Switchboard
