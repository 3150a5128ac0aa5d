import Switchboard.Machine

/-!
# Machines one after the other

`sequence first second` runs its first machine until that breaks.  The break
becomes a continuation for the second machine, which then starts afresh and
takes every further message.
-/

namespace Switchboard

/-- Which of two machines is running, and its state. -/
inductive Phase (σ τ : Type) where
  | first (inner : σ)
  | second (inner : τ)
deriving DecidableEq

namespace Phase

variable {σ τ : Type}

instance [Observable σ] [Observable τ] : Observable (Phase σ τ) where
  name
    | .first _ => "a"
    | .second _ => "b"
  isFinal
    | .first _ => false
    | .second inner => Observable.isFinal inner

/-- The form of a phase whose inner state is already laid out. -/
def toData : Phase Data Data → Data
  | .first inner => .tagged "A" inner
  | .second inner => .tagged "B" inner

def ofData? (d : Data) : Option (Phase Data Data) :=
  match d.content? with
  | some ("A", inner) => some (.first inner)
  | some ("B", inner) => some (.second inner)
  | _ => none

end Phase

namespace Machine

variable {σ τ : Type}

def sequence (first : Machine σ) (second : Machine τ) : Machine (Phase σ τ) where
  start := .first first.start
  advance state message :=
    match state with
    | .first inner => do
        let (inner, out) ← first.advance inner message
        match out.channel.control with
        | .breaking rest => pure (.second second.start, Message.continueOn rest out.data)
        | _ => pure (.first inner, out)
    | .second inner => do
        let (inner, out) ← second.advance inner message
        pure (.second inner, out)

end Machine

end Switchboard
