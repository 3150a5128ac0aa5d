import Switchboard.Decimal.Shortest

/-!
# How a decimal is laid out

A decimal is written positionally while the exponent of its leading digit lies
in a fixed range, always with a point and at least one digit behind it.
Outside the range it is written as one digit, the others behind a point if
there are others, and a signed exponent.
-/

namespace Switchboard

namespace Decimal

/-- The exponents of the leading digit that are written positionally. -/
structure Layout where
  least : Int
  greatest : Int

def zeros (count : Int) : String :=
  String.ofList (List.replicate count.toNat '0')

def scientific (leading : Int) (digits : List Char) : String :=
  let sign := if leading < 0 then "e-" else "e+"
  let front := digits.take 1
  let back := if digits.length ≤ 1 then [] else '.' :: digits.drop 1
  String.ofList (front ++ back) ++ sign ++ toString leading.natAbs

/-- The text of a positive decimal. -/
def render (layout : Layout) (d : Decimal) : String :=
  let digits := (toString d.digits).toList
  let leading := d.power + digits.length - 1
  if leading < layout.least ∨ layout.greatest < leading then scientific leading digits
  else if 0 ≤ d.power then String.ofList digits ++ zeros d.power ++ ".0"
  else if 0 ≤ leading then
    let whole := leading.toNat + 1
    String.ofList (digits.take whole) ++ "." ++ String.ofList (digits.drop whole)
  else "0." ++ zeros (-leading - 1) ++ String.ofList digits

end Decimal

end Switchboard
