import Switchboard.Keyed

/-!
# Data

The values that messages carry and machines keep.  The fields of an object are
kept in ascending order of their names, each name once.  A number is either a
whole number between `-2^63` and `2^64 - 1` or a binary64 value given by its
bits: the two kinds never agree, so `1` and `1.0` are different values.

`Data.same` is agreement of values.  It differs from equality only on the two
zeros of binary64, which agree.
-/

namespace Switchboard

inductive Number where
  | integer (value : Int)
  | float (bits : UInt64)
deriving DecidableEq

namespace Number

/-- Whole numbers agree when they are equal, binary64 values when their bits are
or when both are zeros. -/
def same : Number → Number → Bool
  | .integer a, .integer b => a == b
  | .float a, .float b => a == b || (a ||| b) <<< 1 == 0
  | _, _ => false

/-- The number as an index or a count, if it is one. -/
def natural? : Number → Option Nat
  | .integer (.ofNat n) => some n
  | _ => none

theorem same_self (n : Number) : n.same n = true := by
  cases n <;> simp [same]

end Number

inductive Data where
  | null
  | bool (value : Bool)
  | number (value : Number)
  | string (text : String)
  | array (items : List Data)
  | object (fields : List (String × Data))
deriving Inhabited

namespace Data

def natural (n : Nat) : Data :=
  .number (.integer n)

/-- An object from any list of fields; of several fields with one name the last
one stays. -/
def objectOf (fields : List (String × Data)) : Data :=
  .object (Keyed.ofList fields).entries

/-- The value of one constructor of a choice: an object with one field. -/
def tagged (tag : String) (content : Data) : Data :=
  .object [(tag, content)]

/-- An optional value, absent as null. -/
def optional : Option Data → Data
  | none => .null
  | some value => value

mutual

/-- Agreement of values. -/
def same : Data → Data → Bool
  | .null, .null => true
  | .bool a, .bool b => a == b
  | .number a, .number b => a.same b
  | .string a, .string b => a == b
  | .array a, .array b => sameItems a b
  | .object a, .object b => sameFields a b
  | _, _ => false

def sameItems : List Data → List Data → Bool
  | [], [] => true
  | a :: as, b :: bs => same a b && sameItems as bs
  | _, _ => false

def sameFields : List (String × Data) → List (String × Data) → Bool
  | [], [] => true
  | (k, a) :: as, (l, b) :: bs => k == l && same a b && sameFields as bs
  | _, _ => false

end

mutual

theorem same_self : ∀ d : Data, same d d = true
  | .null | .bool _ | .string _ => by simp [same]
  | .number n => by simp [same, n.same_self]
  | .array items => by simp [same, sameItems_self items]
  | .object fields => by simp [same, sameFields_self fields]

theorem sameItems_self : ∀ items : List Data, sameItems items items = true
  | [] => rfl
  | d :: rest => by simp [sameItems, same_self d, sameItems_self rest]

theorem sameFields_self : ∀ fields : List (String × Data), sameFields fields fields = true
  | [] => rfl
  | (k, d) :: rest => by simp [sameFields, same_self d, sameFields_self rest]

end

mutual

/-- The number of nested containers on the deepest path. -/
def depth : Data → Nat
  | .array items => depthItems items + 1
  | .object fields => depthFields fields + 1
  | _ => 0

def depthItems : List Data → Nat
  | [] => 0
  | d :: rest => max (depth d) (depthItems rest)

def depthFields : List (String × Data) → Nat
  | [] => 0
  | (_, d) :: rest => max (depth d) (depthFields rest)

end

theorem depth_tagged (tag : String) (content : Data) :
    (tagged tag content).depth = content.depth + 1 := by
  simp [tagged, depth, depthFields]

def natural? : Data → Option Nat
  | .number n => n.natural?
  | _ => none

theorem natural?_eq_some_iff {d : Data} {n : Nat} : d.natural? = some n ↔ d = .natural n := by
  constructor
  · intro found
    rcases d with _ | _ | (⟨m | m⟩ | bits) | _ | _ | _
    all_goals simp [natural?, Number.natural?] at found
    subst found
    rfl
  · rintro rfl
    rfl

theorem natural_inj {m n : Nat} : natural m = natural n ↔ m = n := by
  rw [← natural?_eq_some_iff]
  show some m = some n ↔ m = n
  rw [Option.some.injEq]

def string? : Data → Option String
  | .string text => some text
  | _ => none

def array? : Data → Option (List Data)
  | .array items => some items
  | _ => none

/-- The two items of an array of two. -/
def pair? : Data → Option (Data × Data)
  | .array [first, second] => some (first, second)
  | _ => none

theorem pair?_eq_some_iff {d first second : Data} :
    d.pair? = some (first, second) ↔ d = .array [first, second] := by
  constructor
  · intro found
    unfold pair? at found
    split at found
    · cases found
      rfl
    · cases found
  · rintro rfl
    rfl

def field? (name : String) : Data → Option Data
  | .object fields => Entries.find? name fields
  | _ => none

end Data

end Switchboard
