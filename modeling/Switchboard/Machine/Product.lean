import Switchboard.Machine

/-!
# Machines side by side

`product left right` passes messages on `left/...` to its left machine and
messages on `right/...` to its right one, without the leading segment, and puts
the segment in front of what they answer.
-/

namespace Switchboard

/-- The states of two machines side by side. -/
structure Halves (σ τ : Type) where
  left : σ
  right : τ
deriving DecidableEq

namespace Halves

variable {σ τ : Type}

instance [Observable σ] [Observable τ] : Observable (Halves σ τ) where
  name _ := "product"
  isFinal s := Observable.isFinal s.left && Observable.isFinal s.right

/-- The form of two states that are already laid out. -/
def toData (s : Halves Data Data) : Data :=
  .object [("left", s.left), ("right", s.right)]

def ofData? (d : Data) : Option (Halves Data Data) :=
  match d.record? ["left", "right"] with
  | some [some left, some right] => some ⟨left, right⟩
  | _ => none

end Halves

namespace Machine

variable {σ τ : Type}

def leftName : String := "left"

def rightName : String := "right"

def product (left : Machine σ) (right : Machine τ) : Machine (Halves σ τ) where
  start := ⟨left.start, right.start⟩
  advance state message :=
    match message.channel.uncons? with
    | some (side, rest) =>
        if side = leftName then do
          let (next, out) ← left.advance state.left ⟨rest, message.data⟩
          pure (⟨next, state.right⟩, out.prefixed leftName)
        else if side = rightName then do
          let (next, out) ← right.advance state.right ⟨rest, message.data⟩
          pure (⟨state.left, next⟩, out.prefixed rightName)
        else Turn.fault (.invalidChannel "product" message.channel)
    | none => Turn.fault (.invalidChannel "product" message.channel)

end Machine

end Switchboard
