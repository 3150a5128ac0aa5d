import Switchboard.Digits

/-!
# JSON documents

The syntax of a JSON text as a tree.  Nothing is interpreted yet: a number keeps
its digits, an object keeps its fields in the order of the text with every
repetition, and a string that spells half of a surrogate pair has no text but
is still a string.  `Document.read?` accepts exactly one value with blanks
around it.

A document may be nested as deep as its text has it, since a value that is passed over
is not built.  Whoever builds a value from it bounds its depth (`Data.nestingLimit`).
-/

namespace Switchboard

/-- A number as it is spelled. -/
structure NumberText where
  negative : Bool
  whole : List Nat
  fraction : Option (List Nat)
  exponent : Option Int
deriving DecidableEq

inductive Document where
  | null
  | bool (value : Bool)
  | number (text : NumberText)
  | string (text : Option String)
  | array (items : List Document)
  | object (fields : List (Option String × Document))
deriving Inhabited

namespace Document

def isBlank (c : Char) : Bool :=
  c = ' ' || c = '\t' || c = '\n' || c = '\r'

def skipBlanks (text : List Char) : List Char :=
  text.dropWhile isBlank

/-! ## Numbers -/

/-- The digits behind a point, if there is a point. -/
def fraction? : List Char → Option (Option (List Nat) × List Char)
  | '.' :: text =>
      match Digits.run text with
      | ([], _) => none
      | (found, rest) => some (some found, rest)
  | text => some (none, text)

def signedExponent? (negative : Bool) (text : List Char) : Option (Option Int × List Char) :=
  match Digits.run text with
  | ([], _) => none
  | (found, rest) =>
      let size : Int := Digits.value found
      some (some (if negative then -size else size), rest)

def exponent? : List Char → Option (Option Int × List Char)
  | 'e' :: '+' :: text | 'E' :: '+' :: text => signedExponent? false text
  | 'e' :: '-' :: text | 'E' :: '-' :: text => signedExponent? true text
  | 'e' :: text | 'E' :: text => signedExponent? false text
  | text => some (none, text)

def magnitude? (negative : Bool) (text : List Char) : Option (NumberText × List Char) :=
  match Digits.run text with
  | ([], _) => none
  | (0 :: _ :: _, _) => none
  | (whole, text) => do
      let (fraction, text) ← fraction? text
      let (exponent, text) ← exponent? text
      some (⟨negative, whole, fraction, exponent⟩, text)

/-- Whole digits without a superfluous leading zero, then perhaps a fraction,
then perhaps an exponent. -/
def number? : List Char → Option (NumberText × List Char)
  | '-' :: text => magnitude? true text
  | text => magnitude? false text

/-! ## Strings -/

/-- An element of a string: a character, or a code unit given by four
hexadecimal digits. -/
inductive Element where
  | char (c : Char)
  | unit (value : Nat)

def hexValue? (c : Char) : Option Nat :=
  if '0' ≤ c ∧ c ≤ '9' then some (c.toNat - '0'.toNat)
  else if 'a' ≤ c ∧ c ≤ 'f' then some (c.toNat - 'a'.toNat + 10)
  else if 'A' ≤ c ∧ c ≤ 'F' then some (c.toNat - 'A'.toNat + 10)
  else none

def unit? (a b c d : Char) : Option Nat := do
  let a ← hexValue? a
  let b ← hexValue? b
  let c ← hexValue? c
  let d ← hexValue? d
  some (((a * 16 + b) * 16 + c) * 16 + d)

/-- The character that a letter behind a backslash stands for. -/
def unescape? : Char → Option Char
  | '"' => some '"'
  | '\\' => some '\\'
  | '/' => some '/'
  | 'b' => some '\x08'
  | 'f' => some '\x0c'
  | 'n' => some '\n'
  | 'r' => some '\r'
  | 't' => some '\t'
  | _ => none

/-- The elements up to the closing quote, and what follows it.  Characters
below the blank are refused unless escaped. -/
def elements? : List Char → List Element → Option (List Element × List Char)
  | [], _ => none
  | '"' :: rest, held => some (held.reverse, rest)
  | '\\' :: 'u' :: a :: b :: c :: d :: rest, held =>
      match unit? a b c d with
      | some value => elements? rest (.unit value :: held)
      | none => none
  | '\\' :: c :: rest, held =>
      match unescape? c with
      | some e => elements? rest (.char e :: held)
      | none => none
  | c :: rest, held =>
      if c.toNat < 0x20 then none else elements? rest (.char c :: held)

def isLead (unit : Nat) : Bool :=
  0xD800 ≤ unit && unit < 0xDC00

def isTrail (unit : Nat) : Bool :=
  0xDC00 ≤ unit && unit < 0xE000

/-- Joins surrogate pairs; half of a pair stands for no character. -/
def joinUnits : List Element → List Char → Option (List Char)
  | [], held => some held.reverse
  | .char c :: rest, held => joinUnits rest (c :: held)
  | .unit lead :: .unit trail :: rest, held =>
      if isLead lead then
        if isTrail trail then
          joinUnits rest
            (Char.ofNat (0x10000 + (lead - 0xD800) * 0x400 + (trail - 0xDC00)) :: held)
        else none
      else if isTrail lead then none
      else joinUnits (.unit trail :: rest) (Char.ofNat lead :: held)
  | .unit value :: rest, held =>
      if isLead value || isTrail value then none
      else joinUnits rest (Char.ofNat value :: held)

/-- The string behind an opening quote. -/
def text? (text : List Char) : Option (Option String × List Char) := do
  let (found, rest) ← elements? text []
  some ((joinUnits found []).map String.ofList, rest)

/-! ## Values -/

mutual

def value? : Nat → List Char → Option (Document × List Char)
  | 0, _ => none
  | fuel + 1, text =>
      match skipBlanks text with
      | 'n' :: 'u' :: 'l' :: 'l' :: rest => some (.null, rest)
      | 't' :: 'r' :: 'u' :: 'e' :: rest => some (.bool true, rest)
      | 'f' :: 'a' :: 'l' :: 's' :: 'e' :: rest => some (.bool false, rest)
      | '"' :: rest => (text? rest).map fun (found, rest) => (.string found, rest)
      | '[' :: rest =>
          match skipBlanks rest with
          | ']' :: rest => some (.array [], rest)
          | rest => items? fuel rest []
      | '{' :: rest =>
          match skipBlanks rest with
          | '}' :: rest => some (.object [], rest)
          | rest => fields? fuel rest []
      | rest => (number? rest).map fun (found, rest) => (.number found, rest)

def items? : Nat → List Char → List Document → Option (Document × List Char)
  | 0, _, _ => none
  | fuel + 1, text, held =>
      match value? fuel text with
      | none => none
      | some (item, rest) =>
          match skipBlanks rest with
          | ',' :: rest => items? fuel rest (item :: held)
          | ']' :: rest => some (.array (item :: held).reverse, rest)
          | _ => none

def fields? : Nat → List Char → List (Option String × Document) → Option (Document × List Char)
  | 0, _, _ => none
  | fuel + 1, text, held =>
      match skipBlanks text with
      | '"' :: rest =>
          match text? rest with
          | none => none
          | some (name, rest) =>
              match skipBlanks rest with
              | ':' :: rest =>
                  match value? fuel rest with
                  | none => none
                  | some (content, rest) =>
                      match skipBlanks rest with
                      | ',' :: rest => fields? fuel rest ((name, content) :: held)
                      | '}' :: rest => some (.object ((name, content) :: held).reverse, rest)
                      | _ => none
              | _ => none
      | _ => none

end

/-- Reads a text that holds one value and nothing else.  Every nested call has
read at least one character more than its caller, so twice the length bounds
the depth. -/
def read? (text : String) : Option Document :=
  let chars := text.toList
  match value? (2 * chars.length + 2) chars with
  | some (found, rest) => if (skipBlanks rest).isEmpty then some found else none
  | none => none

/-! ## Nesting -/

mutual

/-- The number of arrays and objects that are open at once, at most. -/
def depth : Document → Nat
  | .array items => depthItems items + 1
  | .object fields => depthFields fields + 1
  | _ => 0

def depthItems : List Document → Nat
  | [] => 0
  | item :: rest => max (depth item) (depthItems rest)

def depthFields : List (Option String × Document) → Nat
  | [] => 0
  | (_, content) :: rest => max (depth content) (depthFields rest)

end

end Document

end Switchboard
