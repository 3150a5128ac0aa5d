import Switchboard.Proofs.Iteration
import Switchboard.Proofs.Machine.Runs

/-!
# Logs

A log keeps each message of a run together with what has come of it.  `Logs` says
of a list of exchanges that a machine has had them from a state on, and is the
relation behind `run` (`run_returns_iff`).

Invariants of a run may speak of the exchanges so far.  One that every turn keeps
holds in front of every exchange of a log (`Logs.before`).
-/

namespace Switchboard

/-- A message and what has come of it. -/
structure Exchange (σ : Type) where
  message : Message
  reply : Reply σ

namespace Machine

variable {σ : Type} {m : Machine σ} {s : σ} {log : List (Exchange σ)}

/-- The exchanges are those of a run from a state. -/
inductive Logs (m : Machine σ) : σ → List (Exchange σ) → Prop
  | nil {s : σ} : Logs m s []
  | cons {s : σ} {e : Exchange σ} {log : List (Exchange σ)}
      (turn : (m.reply s e.message).Returns e.reply) (rest : Logs m e.reply.state log) :
      Logs m s (e :: log)

theorem reply_returns_iff {message : Message} {r : Reply σ} :
    (m.reply s message).Returns r ↔
      ∃ turn, (m.advance s message).Ends turn ∧ Reply.ofTurn s turn = r :=
  Eventual.returns_map

theorem run_returns_iff :
    (m.run s (log.map Exchange.message)).Returns (log.map Exchange.reply) ↔ m.Logs s log := by
  induction log generalizing s with
  | nil =>
      rw [List.map_nil, List.map_nil, run, Eventual.returns_pure]
      exact ⟨fun _ => .nil, fun _ => rfl⟩
  | cons e log ih =>
      rw [List.map_cons, List.map_cons, run, Eventual.returns_bind]
      constructor
      · rintro ⟨r, turn, after⟩
        obtain ⟨later, rest, same⟩ := Eventual.returns_bind.1 after
        obtain ⟨rfl, rfl⟩ := List.cons.inj (Eventual.returns_pure.1 same)
        exact .cons turn (ih.1 rest)
      · intro h
        cases h with
        | cons turn rest =>
            refine ⟨e.reply, turn, Eventual.returns_bind.2 ?_⟩
            exact ⟨_, ih.2 rest, Eventual.returns_pure.2 rfl⟩

/-- A machine whose turns all end has a log for every list of messages. -/
theorem exists_log (ends : ∀ s message, ∃ turn, (m.advance s message).Ends turn) (s : σ)
    (messages : List Message) :
    ∃ log : List (Exchange σ), log.map Exchange.message = messages ∧ m.Logs s log := by
  induction messages generalizing s with
  | nil => exact ⟨[], rfl, .nil⟩
  | cons message rest ih =>
      obtain ⟨turn, ended⟩ := ends s message
      let e : Exchange σ := ⟨message, Reply.ofTurn s turn⟩
      obtain ⟨log, same, logs⟩ := ih e.reply.state
      have first : (m.reply s e.message).Returns e.reply := reply_returns_iff.2 ⟨turn, ended, rfl⟩
      refine ⟨e :: log, ?_, .cons first logs⟩
      rw [List.map_cons, same]

/-- What every turn keeps, of the exchanges so far and the state, holds in front of
every exchange. -/
theorem Logs.before {Inv : List (Exchange σ) → σ → Prop}
    (kept : ∀ past s e, Inv past s → (m.reply s e.message).Returns e.reply →
      Inv (past ++ [e]) e.reply.state)
    (h : m.Logs s log) {past : List (Exchange σ)} (now : Inv past s)
    {front back : List (Exchange σ)} {e : Exchange σ} (split : log = front ++ e :: back) :
    ∃ t, Inv (past ++ front) t ∧ (m.reply t e.message).Returns e.reply ∧
      m.Logs e.reply.state back := by
  induction h generalizing past front with
  | nil => simp at split
  | @cons s e' log turn rest ih =>
      cases front with
      | nil =>
          obtain ⟨rfl, rfl⟩ := List.cons.inj split
          rw [List.append_nil]
          exact ⟨s, now, turn, rest⟩
      | cons first front =>
          obtain ⟨rfl, split'⟩ := List.cons.inj split
          have later := ih (kept past s e' now turn) split'
          rwa [List.append_assoc, List.singleton_append] at later

end Machine

end Switchboard
