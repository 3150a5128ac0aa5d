import Switchboard.Eventual
import Switchboard.Fault

/-!
# Machines

A machine has a start state and turns a state and a message into a next state
and an answer.  A turn may fault, which leaves the state to its caller, and it
may never end.  Two further stops occur only in states that no run from the
start reaches but that can be restored from outside: an array state may lack
slots, and a state may belong to another machine.

What a state shows of itself is the class `Observable`: a name, and whether it
is final.
-/

namespace Switchboard

inductive Stop where
  | fault (fault : Fault)
  | missingSlot (index : Nat)
  | foreignState
deriving DecidableEq

/-- The outcome of a turn: eventually a value or a stop. -/
abbrev Turn (α : Type) : Type :=
  ExceptT Stop Eventual α

namespace Turn

variable {α σ : Type}

def fault (f : Fault) : Turn α :=
  throw (.fault f)

def ofExcept : Except Stop α → Turn α
  | .ok a => pure a
  | .error stop => throw stop

/-- The turn ends, with a value or a stop. -/
def Ends (t : Turn α) (outcome : Except Stop α) : Prop :=
  t.run.Returns outcome

/-- Repeats a turn until it gives an answer instead of a next state; a stop ends
it too. -/
def iterate (step : σ → Turn (σ ⊕ α)) (s : σ) : Turn α :=
  ExceptT.mk (Eventual.iterate round s)
where
  round (s : σ) : Eventual (σ ⊕ Except Stop α) := do
    match ← (step s).run with
    | .error stop => pure (.inr (.error stop))
    | .ok (.inl next) => pure (.inl next)
    | .ok (.inr a) => pure (.inr (.ok a))

end Turn

/-- A start state, and what a message does in a state: the next state and the
answer. -/
structure Machine (σ : Type) where
  start : σ
  advance : σ → Message → Turn (σ × Message)

/-- What a state shows of itself. -/
class Observable (σ : Type) where
  name : σ → String
  isFinal : σ → Bool := fun _ => false

namespace Machine

variable {σ τ : Type}

/-- The machine over a larger type of states; states outside its own are
foreign to it. -/
def within (m : Machine σ) (embed : σ → τ) (project? : τ → Option σ) : Machine τ where
  start := embed m.start
  advance state message :=
    match project? state with
    | none => throw .foreignState
    | some own => do
        let (next, out) ← m.advance own message
        pure (embed next, out)

end Machine

end Switchboard
