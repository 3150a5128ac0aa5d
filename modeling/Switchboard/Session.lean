import Switchboard.Config
import Switchboard.Machine
import Switchboard.Session.History

/-!
# Sessions

A session runs a machine step by step and keeps its state, the number of steps
taken and, if asked to, a history.  A limit on the steps refuses further ones
and leaves the session as it is; a stop of the machine halts it, and a halted
session refuses everything.

`drive` goes on answering as long as the machine asks for a continuation.
-/

namespace Switchboard

structure Session (σ : Type) where
  machine : Machine σ
  config : SessionConfig
  clock : Nat → Timestamp
  state : Option σ
  steps : Nat
  history : History

namespace Session

variable {σ : Type}

/-- A session at the start of its machine.  `clock` tells the time of each step. -/
def start (machine : Machine σ) (config : SessionConfig) (clock : Nat → Timestamp) : Session σ :=
  ⟨machine, config, clock, some machine.start, 0, .empty⟩

/-- The configuration of a session that nothing is said about: it records. -/
def defaultConfig : SessionConfig :=
  { SessionConfig.default with recordHistory := true }

def isHalted (s : Session σ) : Bool :=
  s.state.isNone

/-- The limit that refuses one more step, if there is one. -/
def refusal? (s : Session σ) : Option Fault :=
  match s.config.stepLimit with
  | some most => if most ≤ s.steps then some (.stepLimitExceeded most) else none
  | none => none

/-- The session after a step of its machine from a state. -/
def stepped [Observable σ] (s : Session σ) (state : σ) (input : Message) (next : σ)
    (output : Message) : Session σ :=
  let steps := s.steps + 1
  { s with
    state := some next
    steps
    history :=
      if s.config.recordHistory then
        s.history.record
          { step := steps
            before := Observable.name state
            after := Observable.name next
            input
            output
            timestamp := s.clock steps }
      else s.history }

/-- One step. -/
def send [Observable σ] (s : Session σ) (input : Message) :
    Eventual (Session σ × Except Stop Message) :=
  match s.state with
  | none => pure (s, .error (.fault .halted))
  | some state =>
      match s.refusal? with
      | some fault => pure (s, .error (.fault fault))
      | none => do
          match ← (s.machine.advance state input).run with
          | .ok (next, output) => pure (s.stepped state input next output, .ok output)
          | .error stop => pure ({ s with state := none }, .error stop)

/-- A session being driven: the next message, and what the machine has asked so
far, the latest first. -/
structure Drive (σ : Type) where
  session : Session σ
  next : Message
  asked : List Message

/-- How driving a session ended, and what the machine asked, in order. -/
structure Driven (σ : Type) where
  session : Session σ
  outcome : Except Stop Message
  asked : List Message

/-- One step of driving: a continuation is answered, anything else ends it. -/
def driveStep [Observable σ] (answer : List Message → Message → Message) (d : Drive σ) :
    Eventual (Drive σ ⊕ Driven σ) := do
  let (session, outcome) ← d.session.send d.next
  match outcome with
  | .error stop => pure (.inr ⟨session, .error stop, d.asked.reverse⟩)
  | .ok output =>
      match output.channel.control with
      | .continuing _ => pure (.inl ⟨session, answer d.asked.reverse output, output :: d.asked⟩)
      | _ => pure (.inr ⟨session, .ok output, d.asked.reverse⟩)

/-- Sends a message and answers every continuation.  `answer` gets the earlier
questions and the present one. -/
def drive [Observable σ] (s : Session σ) (first : Message)
    (answer : List Message → Message → Message) : Eventual (Driven σ) :=
  Eventual.iterate (driveStep answer) ⟨s, first, []⟩

end Session

end Switchboard
