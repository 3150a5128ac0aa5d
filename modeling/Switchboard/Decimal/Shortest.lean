/-!
# The shortest decimal of a binary64 value

A finite value of binary64 stands for all reals that round to it.
`Decimal.shortest` finds the decimal with the fewest digits among them, the
nearest to the value if there are several, and the one with an even last digit
if two are equally near.  The search runs over the grids of multiples of a
power of ten from the coarsest down: a grid with a point among those reals also
has one next to the value, so only its two neighbours are looked at.  All of it
is exact arithmetic on naturals.
-/

namespace Switchboard

/-- The finite value `mantissa * 2 ^ power`.  `narrow` marks a power of two, whose
gap to the next smaller value is half its gap to the next larger one. -/
structure Dyadic where
  mantissa : Nat
  power : Int
  narrow : Bool
deriving DecidableEq

/-- The size of a finite binary64 value given by its bits. -/
def Dyadic.ofBits (bits : UInt64) : Dyadic :=
  let scale := ((bits >>> 52) &&& 0x7FF).toNat
  let fraction := (bits &&& 0xFFFFFFFFFFFFF).toNat
  if scale = 0 then ⟨fraction, -1074, false⟩
  else ⟨Nat.pow 2 52 + fraction, (scale : Int) - 1075, fraction = 0 && 1 < scale⟩

/-- The number `digits * 10 ^ power`. -/
structure Decimal where
  digits : Nat
  power : Int
deriving DecidableEq

namespace Decimal

/-- A grid of multiples of `10 ^ power` laid over a value.  All lengths are in one
common unit: `step` is the distance of two points of the grid, `value` the
value itself, and `low` and `high` bound the reals that round to it. -/
structure Grid where
  step : Nat
  low : Nat
  value : Nat
  high : Nat
  closed : Bool

def grid (x : Dyadic) (power : Int) : Grid :=
  let quarters := x.power - 2
  let unit := Nat.pow 2 quarters.toNat * Nat.pow 10 (-power).toNat
  { step := Nat.pow 10 power.toNat * Nat.pow 2 (-quarters).toNat
    low := (4 * x.mantissa - if x.narrow then 1 else 2) * unit
    value := 4 * x.mantissa * unit
    high := (4 * x.mantissa + 2) * unit
    closed := x.mantissa % 2 = 0 }

/-- Whether the point `index * step` is among the reals that round to the value. -/
def Grid.holds (g : Grid) (index : Nat) : Bool :=
  let point := index * g.step
  (g.low < point && point < g.high) || (g.closed && (point = g.low || point = g.high))

/-- The point of the grid that is nearest to the value among those that round to
it. -/
def Grid.nearest? (g : Grid) : Option Nat :=
  let below := g.value / g.step
  let above := below + 1
  match g.holds below, g.holds above with
  | true, true =>
      match compare (2 * g.value) ((below + above) * g.step) with
      | .lt => some below
      | .gt => some above
      | .eq => some (if below % 2 = 0 then below else above)
  | true, false => some below
  | false, true => some above
  | false, false => none

/-- The exact value as a decimal. -/
def exact (x : Dyadic) : Decimal :=
  if 0 ≤ x.power then ⟨x.mantissa * Nat.pow 2 x.power.toNat, 0⟩
  else ⟨x.mantissa * Nat.pow 5 (-x.power).toNat, x.power⟩

/-- Exponents of the grids that can hold a value of binary64, the coarsest first. -/
def gridPowers : List Int :=
  (List.range 640).map fun (i : Nat) => 310 - (i : Int)

def shortest (x : Dyadic) : Decimal :=
  (gridPowers.findSome? fun power =>
    (grid x power).nearest?.map fun digits => ⟨digits, power⟩).getD (exact x)

end Decimal

end Switchboard
