import Switchboard.Machine

/-!
# Machines with a value put aside

`stash inner` starts its inner machine on the second half of a pair and keeps
the first half.  When the inner machine breaks, its data is paired with the kept
value again, and the next pair starts a fresh inner machine.
-/

namespace Switchboard

/-- No inner machine is running, or one is and a value is kept for it. -/
inductive Stashed (σ : Type) where
  | idle
  | running (stashed : Data) (inner : σ)

namespace Stashed

variable {σ : Type}

instance : Observable (Stashed σ) where
  name
    | .idle => "idle"
    | .running _ _ => "running"

/-- The form of a state whose inner state is already laid out. -/
def toData : Stashed Data → Data
  | .idle => .string "Idle"
  | .running stashed inner =>
      .tagged "Running" (.object [("inner", inner), ("stashed", stashed)])

def ofData? (d : Data) : Option (Stashed Data) :=
  match d.constant?, d.content? with
  | some "Idle", _ => some .idle
  | _, some ("Running", content) =>
      match content.fields? ["stashed", "inner"] with
      | some [some stashed, some inner] => some (.running stashed inner)
      | _ => none
  | _, _ => none

end Stashed

namespace Machine

variable {σ : Type}

/-- A turn of the inner machine while a value is kept. -/
def relay (inner : Machine σ) (stashed : Data) (state : σ) (message : Message) :
    Turn (Stashed σ × Message) := do
  let (next, out) ← inner.advance state message
  match out.channel.control with
  | .breaking _ => pure (.idle, ⟨out.channel, .array [stashed, out.data]⟩)
  | _ => pure (.running stashed next, out)

def stash (inner : Machine σ) : Machine (Stashed σ) where
  start := .idle
  advance state message :=
    match state with
    | .running stashed running => relay inner stashed running message
    | .idle =>
        if message.channel.is Channel.resultName then
          match message.data.pair? with
          | some (stashed, payload) => relay inner stashed inner.start (Message.result payload)
          | none => Turn.fault (.malformedData message.channel "stash expects [stashed, payload]")
        else Turn.fault (.invalidChannel "idle" message.channel)

end Machine

end Switchboard
