import Switchboard.Data
import Switchboard.Decimal.Layout

/-!
# The compact text of data

Data is written as JSON without blanks, the fields of an object in their order.
A string escapes the quote, the backslash and the characters below the blank,
and nothing else.
-/

namespace Switchboard

/-- Numbers are positional from `0.00001` up to sixteen digits before the
point. -/
def Number.layout : Decimal.Layout :=
  ⟨-5, 15⟩

def Number.renderFloat (bits : UInt64) : String :=
  let sign := if bits >>> 63 = 0 then "" else "-"
  let size := Dyadic.ofBits bits
  if size.mantissa = 0 then sign ++ "0.0"
  else sign ++ (Decimal.shortest size).render Number.layout

def Number.render : Number → String
  | .integer value => toString value
  | .float bits => Number.renderFloat bits

namespace Data

def hexDigit (n : Nat) : Char :=
  Nat.digitChar n

def escapeChar (c : Char) : List Char :=
  if c = '"' then ['\\', '"']
  else if c = '\\' then ['\\', '\\']
  else if c = '\x08' then ['\\', 'b']
  else if c = '\x0c' then ['\\', 'f']
  else if c = '\n' then ['\\', 'n']
  else if c = '\r' then ['\\', 'r']
  else if c = '\t' then ['\\', 't']
  else if c.toNat < 0x20 then
    ['\\', 'u', '0', '0', hexDigit (c.toNat / 16), hexDigit (c.toNat % 16)]
  else [c]

/-- A string between quotes. -/
def quote (text : String) : String :=
  "\"" ++ String.ofList (text.toList.flatMap escapeChar) ++ "\""

mutual

def render : Data → String
  | .null => "null"
  | .bool true => "true"
  | .bool false => "false"
  | .number n => n.render
  | .string text => quote text
  | .array items => "[" ++ renderItems items ++ "]"
  | .object fields => "\x7b" ++ renderFields fields ++ "\x7d"

def renderItems : List Data → String
  | [] => ""
  | [item] => render item
  | item :: rest => render item ++ "," ++ renderItems rest

def renderFields : List (String × Data) → String
  | [] => ""
  | [(name, content)] => quote name ++ ":" ++ render content
  | (name, content) :: rest => quote name ++ ":" ++ render content ++ "," ++ renderFields rest

end

example : render (.array [.number (.float 0xBFE0000000000000), .string "\"\n\x01"]) =
    "[-0.5,\"\\\"\\n\\u0001\"]" := by decide +kernel

end Data

end Switchboard
