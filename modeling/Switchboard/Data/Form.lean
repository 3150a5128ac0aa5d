import Switchboard.Data

/-!
# Forms of structured values

How a domain value is laid out as data: a constructor without content is its
name, a constructor with content is an object with that one field, and a record
is an object of its fields.  Reading is lenient in three ways: a constructor
without content may also carry null, a record of its own may also be the list of
all its fields in order, and fields that are not known are passed over.  The
fields of a constructor are always named.
-/

namespace Switchboard

namespace Data

/-- The name of a constructor and its content, if it has one. -/
def variant? : Data → Option (String × Option Data)
  | .string name => some (name, none)
  | .object [(name, content)] => some (name, some content)
  | _ => none

/-- The name of a constructor that has content, and the content. -/
def content? (d : Data) : Option (String × Data) :=
  match d.variant? with
  | some (name, some content) => some (name, content)
  | _ => none

/-- The name of a constructor that has no content. -/
def constant? (d : Data) : Option String :=
  match d.variant? with
  | some (name, none) | some (name, some .null) => some name
  | _ => none

/-- Named fields in the order of `names`, each `none` if it is absent. -/
def fields? (names : List String) : Data → Option (List (Option Data))
  | .object fields => some (names.map fun name => Entries.find? name fields)
  | _ => none

/-- The fields of a record, named or all in the order of `names`. -/
def record? (names : List String) : Data → Option (List (Option Data))
  | .array items => if items.length = names.length then some (items.map some) else none
  | d => d.fields? names

/-- An optional value: null stands for its absence. -/
def present? : Data → Option Data
  | .null => none
  | d => some d

/-- A list of strings. -/
def strings (texts : List String) : Data :=
  .array (texts.map .string)

def strings? (d : Data) : Option (List String) := do
  (← d.array?).mapM string?

/-- A list of indices. -/
def naturals (ns : List Nat) : Data :=
  .array (ns.map natural)

def naturals? (d : Data) : Option (List Nat) := do
  (← d.array?).mapM natural?

/-- A string that may be missing. -/
def optionalString (text : Option String) : Data :=
  optional (text.map .string)

/-- A string that may be null or absent. -/
def optionalString? : Option Data → Option (Option String)
  | none | some .null => some none
  | some (.string text) => some (some text)
  | some _ => none

end Data

end Switchboard
