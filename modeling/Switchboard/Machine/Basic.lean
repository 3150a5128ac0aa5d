import Switchboard.Machine

/-!
# Elementary machines

The machines without parts.  All but `relabel` listen to the channel `result`
and answer on `break/result`; `suspend` asks its question on `continue/c` in
between and takes the answer on `c`.
-/

namespace Switchboard

/-- The state of a machine that keeps nothing. -/
inductive Stateless where
  | ready
deriving DecidableEq

namespace Stateless

instance : Observable Stateless where
  name _ := "Ready"

def toData : Stateless → Data
  | .ready => .string "Ready"

def ofData? (d : Data) : Option Stateless :=
  match d.constant? with
  | some "Ready" => some .ready
  | _ => none

end Stateless

/-- The state of a machine that works once. -/
inductive Once where
  | start
  | done
deriving DecidableEq

namespace Once

def name : Once → String
  | .start => "Start"
  | .done => "End"

instance : Observable Once where
  name := name
  isFinal s := s = .done

def toData (s : Once) : Data :=
  .string s.name

def ofData? (d : Data) : Option Once :=
  match d.constant? with
  | some "Start" => some .start
  | some "End" => some .done
  | _ => none

end Once

/-- The state of a machine that asks and waits for an answer. -/
inductive Suspension where
  | start
  | awaiting
deriving DecidableEq

namespace Suspension

def name : Suspension → String
  | .start => "Start"
  | .awaiting => "Awaiting"

instance : Observable Suspension where
  name := name

def toData (s : Suspension) : Data :=
  .string s.name

def ofData? (d : Data) : Option Suspension :=
  match d.constant? with
  | some "Start" => some .start
  | some "Awaiting" => some .awaiting
  | _ => none

end Suspension

namespace Machine

/-- Answers every `result` with the same value. -/
def constant (value : Data) : Machine Stateless where
  start := .ready
  advance state message :=
    if message.channel.is Channel.resultName then
      pure (state, Message.breakResult value)
    else Turn.fault (.invalidChannel "constant" message.channel)

/-- Answers every `result` with its own data. -/
def finish : Machine Stateless where
  start := .ready
  advance state message :=
    if message.channel.is Channel.resultName then
      pure (state, Message.breakResult message.data)
    else Turn.fault (.invalidChannel "brk" message.channel)

/-- Applies a function to the data of one `result`; then it is exhausted. -/
def once (f : Data → Data) : Machine Once where
  start := .start
  advance state message :=
    match state with
    | .done => Turn.fault (.exhausted "func")
    | .start =>
        if message.channel.is Channel.resultName then
          pure (.done, Message.breakResult (f message.data))
        else Turn.fault (.invalidChannel state.name message.channel)

/-- Turns a `result` into a question on a channel, and the answer on that channel
into the final result. -/
def suspend (channel : Channel) : Machine Suspension where
  start := .start
  advance state message :=
    match state with
    | .start =>
        if message.channel.is Channel.resultName then
          pure (.awaiting, Message.continueOn channel message.data)
        else Turn.fault (.invalidChannel state.name message.channel)
    | .awaiting =>
        if message.channel = channel then
          pure (.start, Message.breakResult message.data)
        else Turn.fault (.invalidChannel state.name message.channel)

/-- Sends every message back with its channel renamed. -/
def relabel (old new : Channel) : Machine Stateless where
  start := .ready
  advance state message :=
    pure (state, message.withChannel (message.channel.rename old new))

end Machine

end Switchboard
