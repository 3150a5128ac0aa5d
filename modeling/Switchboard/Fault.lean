import Switchboard.Message

/-!
# Faults

Why a machine or a session refuses a message.
-/

namespace Switchboard

inductive Fault where
  | invalidChannel (state : String) (channel : Channel)
  | malformedData (channel : Channel) (reason : String)
  | exhausted (machine : String)
  | stepLimitExceeded (limit : Nat)
  | halted
deriving DecidableEq

namespace Fault

def message : Fault → String
  | .invalidChannel state channel =>
      "invalid channel '" ++ channel.text ++ "' in state '" ++ state ++ "'"
  | .malformedData channel reason =>
      "malformed data on channel '" ++ channel.text ++ "': " ++ reason
  | .exhausted machine => "machine '" ++ machine ++ "' already finished"
  | .stepLimitExceeded limit => "trampoline step limit (" ++ toString limit ++ ") exceeded"
  | .halted => "session halted after an earlier fault"

end Fault

end Switchboard
