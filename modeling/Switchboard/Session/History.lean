import Switchboard.Message
import Switchboard.Session.Timestamp

/-!
# Histories

The steps of a session in order: what went in, what came out, and the names of
the states before and after.
-/

namespace Switchboard

/-- One step; `step` counts from one. -/
structure StepRecord where
  step : Nat
  before : String
  after : String
  input : Message
  output : Message
  timestamp : Timestamp

namespace StepRecord

def same (a b : StepRecord) : Bool :=
  a.step = b.step && a.before = b.before && a.after = b.after && a.input.same b.input &&
    a.output.same b.output && a.timestamp = b.timestamp

def fieldNames : List String :=
  ["step", "from", "to", "input", "output", "timestamp"]

def toData (r : StepRecord) : Data :=
  .object [("from", .string r.before), ("input", r.input.toData), ("output", r.output.toData),
    ("step", .natural r.step), ("timestamp", r.timestamp.toData), ("to", .string r.after)]

def ofData? (d : Data) : Option StepRecord :=
  match d.record? fieldNames with
  | some [some step, some before, some after, some input, some output, some timestamp] => do
      some
        { step := ← step.natural?
          before := ← before.string?
          after := ← after.string?
          input := ← Message.ofData? input
          output := ← Message.ofData? output
          timestamp := ← Timestamp.ofData? timestamp }
  | _ => none

end StepRecord

structure History where
  records : List StepRecord

namespace History

def empty : History := ⟨[]⟩

def record (h : History) (r : StepRecord) : History :=
  ⟨h.records ++ [r]⟩

/-- The names of the states visited: the one before the first step, then the one
after each. -/
def path (h : History) : List String :=
  (h.records.head?.map (·.before)).toList ++ h.records.map (·.after)

/-- The channels of the outputs in order, as texts. -/
def transcript (h : History) : List String :=
  h.records.map fun r => r.output.channel.text

/-- Nanoseconds between the first and the last step, unless the last one is earlier. -/
def duration? (h : History) : Option Nat := do
  let first ← h.records.head?
  let last ← h.records.getLast?
  match Timestamp.nanosBetween first.timestamp last.timestamp with
  | .ofNat nanos => some nanos
  | .negSucc _ => none

def same (a b : History) : Bool :=
  a.records.length = b.records.length &&
    (a.records.zip b.records).all fun (r, s) => r.same s

def toData (h : History) : Data :=
  .object [("records", .array (h.records.map StepRecord.toData))]

def ofData? (d : Data) : Option History :=
  match d.record? ["records"] with
  | some [some records] => do
      some ⟨← (← records.array?).mapM StepRecord.ofData?⟩
  | _ => none

end History

end Switchboard
