import Switchboard.Data
import Switchboard.Document

/-!
# Data from JSON documents

A number without fraction and exponent that fits 64 bits, signed or unsigned, is
a whole number; `-0` is not, since whole numbers have no negative zero.  Every
other number is read as binary64: its digits are gathered into a significand of
64 bits as long as they fit, digits behind them only shift the power of ten or
are dropped, and significand and power are joined by one multiplication or
division.  A number too large for binary64 is refused, and so is a string that
is no text, and a text that nests more than 127 arrays and objects.
-/

namespace Switchboard

namespace Number

/-- One more than the largest significand. -/
def significandBound : Nat :=
  Nat.pow 2 64

/-- Appends digits to a significand as long as it stays in bounds; gives the
significand and the digits left over. -/
def gather (significand : Nat) : List Nat → Nat × List Nat
  | [] => (significand, [])
  | d :: rest =>
      if significand * 10 + d < significandBound then gather (significand * 10 + d) rest
      else (significand, d :: rest)

/-- The largest power of ten that binary64 holds. -/
def greatestPower : Nat :=
  308

def powerOfTen (power : Nat) : Float :=
  Float.ofScientific 1 false power

/-- Division by a power of ten, in parts if the power itself is too large. -/
def scaleDown (value : Float) (power : Nat) : Float :=
  if power ≤ greatestPower then value / powerOfTen power
  else if value == 0 then value
  else scaleDown (value / powerOfTen greatestPower) (power - greatestPower)
termination_by power
decreasing_by simp_all [greatestPower]; omega

/-- `significand * 10 ^ power`, unless it is too large. -/
def scaled? (significand : Nat) (power : Int) : Option Float :=
  let value := (UInt64.ofNat significand).toFloat
  match power with
  | .negSucc n => some (scaleDown value (n + 1))
  | .ofNat n =>
      if n ≤ greatestPower then
        let product := value * powerOfTen n
        if product.isInf then none else some product
      else if value == 0 then some value
      else none

def signBit : UInt64 :=
  0x8000000000000000

def float? (negative : Bool) (significand : Nat) (power : Int) : Option Number := do
  let size ← scaled? significand power
  some (.float (if negative then size.toBits ||| signBit else size.toBits))

/-- The whole number with a sign and a size of at most 64 bits, if there is one. -/
def integer? (negative : Bool) (size : Nat) : Option Number :=
  if negative then
    if 0 < size ∧ size ≤ Nat.pow 2 63 then some (.integer (-size)) else none
  else some (.integer size)

/-- The number that a text denotes. -/
def ofText? (text : NumberText) : Option Number :=
  let (significand, shifted) := gather 0 text.whole
  let plain := text.fraction.isNone && text.exponent.isNone && shifted.isEmpty
  match if plain then integer? text.negative significand else none with
  | some number => some number
  | none =>
      let behind := text.fraction.getD []
      let (significand, dropped) := gather significand behind
      let power : Int := shifted.length - (behind.length - dropped.length : Nat)
      float? text.negative significand (power + text.exponent.getD 0)

end Number

namespace Data

mutual

def ofDocument? : Document → Option Data
  | .null => some .null
  | .bool value => some (.bool value)
  | .number text => (Number.ofText? text).map .number
  | .string text => text.map .string
  | .array items => (itemsOfDocuments? items).map .array
  | .object fields => (fieldsOfDocuments? fields).map objectOf

def itemsOfDocuments? : List Document → Option (List Data)
  | [] => some []
  | item :: rest => do
      let item ← ofDocument? item
      let rest ← itemsOfDocuments? rest
      some (item :: rest)

def fieldsOfDocuments? : List (Option String × Document) → Option (List (String × Data))
  | [] => some []
  | (name, content) :: rest => do
      let name ← name
      let content ← ofDocument? content
      let rest ← fieldsOfDocuments? rest
      some ((name, content) :: rest)

end

/-- The most arrays and objects that may be open at once where data is read. -/
def nestingLimit : Nat :=
  127

def read? (text : String) : Option Data := do
  let found ← Document.read? text
  if found.depth ≤ nestingLimit then ofDocument? found else none

end Data

end Switchboard
