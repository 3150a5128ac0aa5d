/-!
# Classes of characters

Classes that go beyond ASCII are tables of ranges of code points.  White space is
given here; the larger classes have modules of their own.
-/

namespace Switchboard

namespace CharClass

def within (ranges : List (Nat × Nat)) (c : Char) : Bool :=
  ranges.any fun (low, high) => low ≤ c.toNat && c.toNat ≤ high

/-- The white space of Unicode. -/
def blankRanges : List (Nat × Nat) :=
  [(0x09, 0x0D), (0x20, 0x20), (0x85, 0x85), (0xA0, 0xA0), (0x1680, 0x1680), (0x2000, 0x200A),
   (0x2028, 0x2029), (0x202F, 0x202F), (0x205F, 0x205F), (0x3000, 0x3000)]

def isBlank : Char → Bool :=
  within blankRanges

end CharClass

end Switchboard
