import Switchboard.Machine

/-!
# Trampolines

A trampoline feeds answers of its inner machine back to it within one turn.
`looped` feeds back every continuation and opens a break; `pipeline` feeds back
just what continues on `result` and passes everything else on.  A limit bounds
the inner turns of one outer turn: it is checked before each of them.  Without a
limit the turn may never end.
-/

namespace Switchboard

namespace Machine

variable {σ : Type}

/-- What to do with an answer of the inner machine. -/
inductive Route where
  | again (message : Message)
  | finish (answer : Message)

namespace Route

def looped (out : Message) : Route :=
  match out.channel.control with
  | .continuing rest => .again (out.withChannel rest)
  | .breaking rest => .finish (out.withChannel rest)
  | .data => .finish out

/-- The channel that asks for another round of a pipeline. -/
def selfContinuation : Channel :=
  Channel.result.prefixed Channel.continueName

def pipeline (out : Message) : Route :=
  if out.channel = selfContinuation then .again (Message.result out.data) else .finish out

end Route

/-- The limit refuses one more inner turn after so many. -/
def overLimit (limit : Option Nat) (taken : Nat) : Option Fault :=
  match limit with
  | some most => if most ≤ taken then some (.stepLimitExceeded most) else none
  | none => none

/-- A trampoline under way. -/
structure Bounce (σ : Type) where
  taken : Nat
  state : σ
  message : Message

/-- One inner turn of a trampoline. -/
def bounce (route : Message → Route) (limit : Option Nat) (inner : Machine σ) (b : Bounce σ) :
    Turn (Bounce σ ⊕ (σ × Message)) :=
  match overLimit limit b.taken with
  | some fault => Turn.fault fault
  | none => do
      let (next, out) ← inner.advance b.state b.message
      match route out with
      | .again message => pure (.inl ⟨b.taken + 1, next, message⟩)
      | .finish answer => pure (.inr (next, answer))

def trampoline (route : Message → Route) (limit : Option Nat) (inner : Machine σ) : Machine σ where
  start := inner.start
  advance state message := Turn.iterate (bounce route limit inner) ⟨0, state, message⟩

def looped (inner : Machine σ) (limit : Option Nat) : Machine σ :=
  trampoline Route.looped limit inner

def pipeline (inner : Machine σ) (limit : Option Nat) : Machine σ :=
  trampoline Route.pipeline limit inner

end Machine

end Switchboard
