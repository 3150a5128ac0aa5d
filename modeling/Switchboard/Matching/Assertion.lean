import Switchboard.CharClass.Extending
import Switchboard.CharClass.Ignorable
import Switchboard.CharClass.Unprintable
import Switchboard.Matching

/-!
# Asserting and refuting transcripts

The texts with which an assertion about a transcript fails.  They show the
tokens between quotes, with every character escaped that does not show.
-/

namespace Switchboard

namespace Assertion

def escapeChar (c : Char) : List Char :=
  if c = '"' then ['\\', '"']
  else if c = '\\' then ['\\', '\\']
  else if c = '\n' then ['\\', 'n']
  else if c = '\r' then ['\\', 'r']
  else if c = '\t' then ['\\', 't']
  else if c = '\x00' then ['\\', '0']
  else if CharClass.isExtending c || CharClass.isIgnorable c || CharClass.isUnprintable c then
    ['\\', 'u', '\x7b'] ++ Nat.toDigits 16 c.toNat ++ ['\x7d']
  else [c]

def quote (token : String) : String :=
  "\"" ++ String.ofList (token.toList.flatMap escapeChar) ++ "\""

def listing (tokens : List String) : String :=
  "[" ++ ", ".intercalate (tokens.map quote) ++ "]"

def rejected (tokens : List String) (reason : Mismatch) : String :=
  "transcript " ++ listing tokens ++ " rejected: " ++ reason.message

def accepted (tokens : List String) : String :=
  "transcript " ++ listing tokens ++ " unexpectedly accepted"

end Assertion

namespace Grammar

/-- Asserts that a node matches a transcript; the error is the text of the
failure. -/
def assert? (g : Grammar) (id : NodeId) (tokens : List String) : Option (Except String Unit) :=
  (g.check? .default id tokens).map fun
    | .ok () => .ok ()
    | .error reason => .error (Assertion.rejected tokens reason)

/-- Asserts that a node does not match a transcript, and gives the reason. -/
def refute? (g : Grammar) (id : NodeId) (tokens : List String) :
    Option (Except String Mismatch) :=
  (g.check? .default id tokens).map fun
    | .ok () => .error (Assertion.accepted tokens)
    | .error reason => .ok reason

end Grammar

end Switchboard
