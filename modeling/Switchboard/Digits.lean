/-!
# Decimal digits

Runs of the digits `0` to `9`, and the numbers that they spell.
-/

namespace Switchboard

namespace Digits

def digitOf (c : Char) : Nat :=
  c.toNat - '0'.toNat

/-- The longest run of digits at the front, and what follows it. -/
def run (text : List Char) : List Nat × List Char :=
  ((text.takeWhile Char.isDigit).map digitOf, text.dropWhile Char.isDigit)

/-- The number that digits spell, the most significant one first. -/
def value (digits : List Nat) : Nat :=
  digits.foldl (fun number d => number * 10 + d) 0

end Digits

end Switchboard
