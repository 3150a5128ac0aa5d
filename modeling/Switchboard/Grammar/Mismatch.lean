import Switchboard.Data.Form

/-!
# Mismatches

Why a transcript does not match a node.  Positions count the tokens of the
transcript being matched; inside a product they count the tokens of one
channel's share.
-/

namespace Switchboard

/-- A token that carries no channel of the product it stands in. -/
structure Untagged where
  token : String
  position : Nat
deriving DecidableEq

inductive Mismatch where
  | token (expected : String) (found : Option String) (position : Nat)
  | choice (expected : List String) (found : Option String) (position : Nat)
  | step (index : Nat) (reason : Mismatch)
  | noProgress (position : Nat)
  | unresolved (node : Nat)
  | unknownNode (node : Nat)
  | product (split : Nat) (channels : List (String × Mismatch)) (blocked : Option Untagged)
  | trailing (leftover : List String)
deriving Inhabited

namespace Mismatch

/-- The innermost reason under the steps of sequences. -/
def root : Mismatch → Mismatch
  | .step _ reason => reason.root
  | other => other

def describeFound : Option String → String
  | some text => "`" ++ text ++ "`"
  | none => "end of transcript"

def commaList (texts : List String) : String :=
  ", ".intercalate texts

def blockedText : Option Untagged → String
  | none => ""
  | some u =>
      "; token `" ++ u.token ++ "` at " ++ toString u.position ++ " has no known channel tag"

mutual

def message : Mismatch → String
  | .token expected found position =>
      "expected `" ++ expected ++ "`, found " ++ describeFound found ++ " at token " ++
        toString position
  | .choice expected found position =>
      "expected one of [" ++ commaList expected ++ "], found " ++ describeFound found ++
        " at token " ++ toString position
  | .step index reason => "sequence step " ++ toString index ++ ": " ++ message reason
  | .noProgress position =>
      "loop re-entered at token " ++ toString position ++ " without consuming input"
  | .unresolved node => "loop " ++ toString node ++ " has no body"
  | .unknownNode node => "node #" ++ toString node ++ " is not part of this grammar"
  | .product split channels blocked =>
      "no interleaving matched (longest split " ++ toString split ++ " tokens)" ++
        channelMessages channels ++ blockedText blocked
  | .trailing leftover => "unconsumed tokens after match: [" ++ commaList leftover ++ "]"

def channelMessages : List (String × Mismatch) → String
  | [] => ""
  | (channel, reason) :: rest =>
      "; channel `" ++ channel ++ "`: " ++ message reason ++ channelMessages rest

end

end Mismatch

end Switchboard
