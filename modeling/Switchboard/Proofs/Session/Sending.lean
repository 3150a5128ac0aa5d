import Switchboard.Proofs.Machine.Runs
import Switchboard.Proofs.Iteration
import Switchboard.Session

/-!
# Sending

A step of a session has four exits: the session has halted before, its limit
refuses the step, its machine answers, or its machine stops.  `Sends` lists them
with all that they change, and whatever is said about sessions later goes through
it (`Session.send_returns_iff`).

`sendAll` sends one message after the other.  If all of them are answered, the
machine answers the same to the same messages, and a session that records has its
outputs in the history (`answers_of_sendAll`); a session without a limit answers
whatever its machine does (`Running.sendAll_returns`).
-/

namespace Switchboard

/-- The messages that were answered, in order. -/
def History.outputs (h : History) : List Message :=
  h.records.map (·.output)

namespace Session

variable {σ : Type} {m : Machine σ} {state last : σ}

/-- A session that runs a machine without a limit and has not halted. -/
structure Running (s : Session σ) (m : Machine σ) (state : σ) : Prop where
  machine : s.machine = m
  unlimited : s.config.stepLimit = none
  state : s.state = some state

theorem start_running (m : Machine σ) (record : Bool) (clock : Nat → Timestamp) :
    (start m ⟨record, none⟩ clock).Running m m.start :=
  ⟨rfl, rfl, rfl⟩

variable {s t : Session σ} {input : Message}

theorem Running.refusal?_eq_none (h : s.Running m state) : s.refusal? = none := by
  rw [refusal?, h.unlimited]

variable [Observable σ]

theorem Running.stepped (h : s.Running m state) (input : Message) (next : σ) (output : Message) :
    (s.stepped state input next output).Running m next :=
  ⟨h.machine, h.unlimited, rfl⟩

/-- A session that records has each output in its history. -/
theorem outputs_stepped (recording : s.config.recordHistory = true) (next : σ)
    (output : Message) :
    (s.stepped state input next output).history.outputs = s.history.outputs ++ [output] := by
  simp [Session.stepped, recording, History.outputs, History.record]

/-! ## One message -/

/-- The session whose machine has stopped. -/
def stop (s : Session σ) : Session σ :=
  { s with state := none }

inductive Sends (s : Session σ) (input : Message) : Session σ → Except Stop Message → Prop
  | halted (ended : s.state = none) : Sends s input s (.error (.fault .halted))
  | refused {state : σ} {fault : Fault} (live : s.state = some state)
      (refusal : s.refusal? = some fault) : Sends s input s (.error (.fault fault))
  | answered {state next : σ} {output : Message} (live : s.state = some state)
      (free : s.refusal? = none)
      (ends : (s.machine.advance state input).Ends (.ok (next, output))) :
      Sends s input (s.stepped state input next output) (.ok output)
  | stopped {state : σ} {stop : Stop} (live : s.state = some state) (free : s.refusal? = none)
      (ends : (s.machine.advance state input).Ends (.error stop)) :
      Sends s input s.stop (.error stop)

theorem sends_of_returns {outcome : Except Stop Message}
    (h : (s.send input).Returns (t, outcome)) : Sends s input t outcome := by
  rw [send] at h
  cases live : s.state with
  | none =>
      simp only [live, Eventual.returns_pure] at h
      cases h
      exact .halted live
  | some state =>
      cases refusal : s.refusal? with
      | some fault =>
          simp only [live, refusal, Eventual.returns_pure] at h
          cases h
          exact .refused live refusal
      | none =>
          simp only [live, refusal, Eventual.returns_bind] at h
          obtain ⟨turn, ends, after⟩ := h
          rcases turn with stop | ⟨next, output⟩
          · cases Eventual.returns_pure.1 after
            exact .stopped live refusal ends
          · cases Eventual.returns_pure.1 after
            exact .answered live refusal ends

theorem Sends.returns {outcome : Except Stop Message} (h : Sends s input t outcome) :
    (s.send input).Returns (t, outcome) := by
  rw [send]
  cases h with
  | halted ended => simp only [ended, Eventual.returns_pure]
  | refused live refusal => simp only [live, refusal, Eventual.returns_pure]
  | answered live free ends =>
      simp only [live, free, Eventual.returns_bind]
      exact ⟨_, ends, Eventual.returns_pure.2 rfl⟩
  | stopped live free ends =>
      simp only [live, free, Eventual.returns_bind]
      exact ⟨_, ends, Eventual.returns_pure.2 rfl⟩

theorem send_returns_iff {outcome : Except Stop Message} :
    (s.send input).Returns (t, outcome) ↔ Sends s input t outcome :=
  ⟨sends_of_returns, Sends.returns⟩

/-! ## Many messages -/

/-- Sends one message after the other. -/
def sendAll (s : Session σ) : List Message → Eventual (Session σ × List (Except Stop Message))
  | [] => pure (s, [])
  | input :: rest => do
      let (t, outcome) ← s.send input
      let (last, outcomes) ← t.sendAll rest
      pure (last, outcome :: outcomes)

theorem sendAll_nil_returns_iff {outcomes : List (Except Stop Message)} :
    (s.sendAll []).Returns (t, outcomes) ↔ t = s ∧ outcomes = [] := by
  rw [sendAll, Eventual.returns_pure, eq_comm, Prod.mk.injEq]

theorem sendAll_cons_returns_iff {rest : List Message}
    {outcomes : List (Except Stop Message)} :
    (s.sendAll (input :: rest)).Returns (t, outcomes) ↔
      ∃ next outcome later, Sends s input next outcome ∧ (next.sendAll rest).Returns (t, later) ∧
        outcomes = outcome :: later := by
  rw [sendAll, Eventual.returns_bind]
  constructor
  · rintro ⟨⟨next, outcome⟩, sent, after⟩
    obtain ⟨⟨last, later⟩, sentLater, result⟩ := Eventual.returns_bind.1 after
    cases Eventual.returns_pure.1 result
    exact ⟨next, outcome, later, send_returns_iff.1 sent, sentLater, rfl⟩
  · rintro ⟨next, outcome, later, sent, sentLater, rfl⟩
    refine ⟨(next, outcome), send_returns_iff.2 sent, Eventual.returns_bind.2 ?_⟩
    exact ⟨(t, later), sentLater, Eventual.returns_pure.2 rfl⟩

theorem answers_of_sendAll {inputs outs : List Message}
    (h : (s.sendAll inputs).Returns (t, outs.map .ok)) (live : s.state = some state)
    (recording : s.config.recordHistory = true) :
    ∃ last, s.machine.Answers state inputs outs last ∧
      t.history.outputs = s.history.outputs ++ outs := by
  induction inputs generalizing s state outs with
  | nil =>
      obtain ⟨rfl, none_⟩ := sendAll_nil_returns_iff.1 h
      obtain rfl := List.map_eq_nil_iff.1 none_
      exact ⟨state, .nil, (List.append_nil _).symm⟩
  | cons input inputs ih =>
      obtain ⟨next, outcome, later, sent, sentLater, split⟩ := sendAll_cons_returns_iff.1 h
      obtain ⟨out, outs, rfl, rfl, rfl⟩ := List.map_eq_cons_iff.1 split
      cases sent with
      | @answered other next output live' _ ends =>
          obtain rfl : state = other := Option.some.inj (live.symm.trans live')
          obtain ⟨last, answers, outputs⟩ := ih sentLater rfl recording
          refine ⟨last, .cons ends answers, ?_⟩
          rw [outputs, outputs_stepped recording, List.append_assoc, List.singleton_append]

theorem Running.sendAll_returns {inputs outs : List Message} (running : s.Running m state)
    (recording : s.config.recordHistory = true) (h : m.Answers state inputs outs last) :
    ∃ t, (s.sendAll inputs).Returns (t, outs.map .ok) ∧
      t.history.outputs = s.history.outputs ++ outs := by
  induction h generalizing s with
  | nil => exact ⟨s, sendAll_nil_returns_iff.2 ⟨rfl, rfl⟩, (List.append_nil _).symm⟩
  | @cons state next last input out inputs outs ends _ ih =>
      have turn : (s.machine.advance state input).Ends (.ok (next, out)) :=
        running.machine.symm ▸ ends
      have sent : Sends s input (s.stepped state input next out) (.ok out) :=
        .answered running.state running.refusal?_eq_none turn
      obtain ⟨t, sentLater, outputs⟩ := ih (running.stepped input next out) recording
      refine ⟨t, sendAll_cons_returns_iff.2 ⟨_, _, _, sent, sentLater, rfl⟩, ?_⟩
      rw [outputs, outputs_stepped recording, List.append_assoc, List.singleton_append]

end Session

end Switchboard
