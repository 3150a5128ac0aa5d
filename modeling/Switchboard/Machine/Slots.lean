import Switchboard.Machine
import Switchboard.Data.Printing

/-!
# Slots

A fixed number of slots with a discipline of borrowing.  `take i` empties slot
`i` and hands its value out; until `set [i, v]` fills that same slot, nothing
else is accepted.  An index that does not fit and a request against the
discipline are answered on `err` and leave the state as it is.
-/

namespace Switchboard

/-- Whether a slot is lent out. -/
inductive Discipline where
  | ready
  | incomplete (taken : Nat)
deriving DecidableEq

namespace Discipline

def toData : Discipline → Data
  | .ready => .string "Ready"
  | .incomplete taken => .tagged "Incomplete" (.natural taken)

def ofData? (d : Data) : Option Discipline :=
  match d.constant?, d.content? with
  | some "Ready", _ => some .ready
  | _, some ("Incomplete", taken) => taken.natural?.map .incomplete
  | _, _ => none

end Discipline

structure Slots where
  slots : List Data
  discipline : Discipline

namespace Slots

def name (s : Slots) : String :=
  match s.discipline with
  | .ready => "ready"
  | .incomplete _ => "incomplete"

instance : Observable Slots where
  name := name

def toData (s : Slots) : Data :=
  .object [("discipline", s.discipline.toData), ("slots", .array s.slots)]

def ofData? (d : Data) : Option Slots :=
  match d.record? ["slots", "discipline"] with
  | some [some slots, some discipline] => do
      some ⟨← slots.array?, ← Discipline.ofData? discipline⟩
  | _ => none

/-- The index that a value names among `size` slots, or why it names none. -/
def index (size : Nat) (raw : Data) : Except String Nat :=
  match raw.natural? with
  | none => .error ("invalid index " ++ raw.render ++ ": not a non-negative integer")
  | some i =>
      if i < size then .ok i
      else .error ("invalid index " ++ toString i ++ ": out of range for size " ++ toString size)

def malformed (channel : Channel) : Stop :=
  .fault (.malformedData channel "set expects [index, value]")

/-- What the answer to a request against the discipline asks for. -/
def expectation (taken : Nat) : String :=
  "slot " ++ toString taken ++ " is taken, expected set [" ++ toString taken ++ ", _]"

def set (size : Nat) (s : Slots) (channel : Channel) (data : Data) :
    Except Stop (Slots × Message) :=
  match data.pair? with
  | none => .error (malformed channel)
  | some (raw, value) =>
      match index size raw with
      | .error reason => .ok (s, Message.err reason)
      | .ok i =>
          match s.discipline with
          | .ready => fill i value
          | .incomplete taken =>
              if taken = i then fill i value
              else .ok (s, Message.err
                ("invalid index " ++ toString i ++ ": " ++ expectation taken))
where
  fill (i : Nat) (value : Data) : Except Stop (Slots × Message) :=
    if i < s.slots.length then .ok (⟨s.slots.set i value, .ready⟩, Message.result .null)
    else .error (.missingSlot i)

def take (size : Nat) (s : Slots) (data : Data) : Except Stop (Slots × Message) :=
  match s.discipline with
  | .incomplete taken => .ok (s, Message.err ("invalid index: " ++ expectation taken))
  | .ready =>
      match index size data with
      | .error reason => .ok (s, Message.err reason)
      | .ok i =>
          match s.slots[i]? with
          | some value => .ok (⟨s.slots.set i .null, .incomplete i⟩, Message.result value)
          | none => .error (.missingSlot i)

end Slots

namespace Machine

/-- So many slots, empty at the start. -/
def slots (size : Nat) : Machine Slots where
  start := ⟨List.replicate size .null, .ready⟩
  advance state message :=
    if message.channel.is "set" then
      Turn.ofExcept (state.set size message.channel message.data)
    else if message.channel.is "take" then
      Turn.ofExcept (state.take size message.data)
    else Turn.fault (.invalidChannel state.name message.channel)

end Machine

end Switchboard
