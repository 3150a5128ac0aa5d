import Switchboard.Channel

/-!
# Messages

A channel together with the data sent on it.
-/

namespace Switchboard

structure Message where
  channel : Channel
  data : Data
deriving Inhabited

namespace Message

/-- Data on the channel `result`. -/
def result (data : Data) : Message :=
  ⟨.result, data⟩

/-- A recoverable error with its reason. -/
def err (reason : String) : Message :=
  ⟨.err, .string reason⟩

/-- Data for a continuation on a channel. -/
def continueOn (channel : Channel) (data : Data) : Message :=
  ⟨channel.prefixed Channel.continueName, data⟩

/-- Data that leaves a machine on a channel. -/
def breakOn (channel : Channel) (data : Data) : Message :=
  ⟨channel.prefixed Channel.breakName, data⟩

/-- The answer of a machine that is done. -/
def breakResult (data : Data) : Message :=
  breakOn .result data

def withChannel (m : Message) (channel : Channel) : Message :=
  { m with channel }

def prefixed (segment : String) (m : Message) : Message :=
  m.withChannel (m.channel.prefixed segment)

/-- Messages agree when their channels are equal and their data agrees. -/
def same (a b : Message) : Bool :=
  a.channel = b.channel && a.data.same b.data

def fieldNames : List String :=
  ["channel", "data"]

def toData (m : Message) : Data :=
  .object [("channel", m.channel.toData), ("data", m.data)]

def ofData? (d : Data) : Option Message :=
  match d.record? fieldNames with
  | some [some channel, some data] => (Channel.ofData? channel).map (⟨·, data⟩)
  | _ => none

end Message

end Switchboard
