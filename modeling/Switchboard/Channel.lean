import Switchboard.Data.Form

/-!
# Channels

A channel is a path of segments.  Its text joins the segments with `/`, and
parsing splits a text at every `/`, the empty text being the channel without
segments.  The leading segments `continue` and `break` steer how a message is
routed; every other channel just carries data.
-/

namespace Switchboard

/-- The pieces of a text between the slashes. -/
def pieces : List Char → List (List Char)
  | [] => [[]]
  | c :: rest =>
      if c = '/' then [] :: pieces rest
      else
        match pieces rest with
        | [] => [[c]]
        | piece :: others => (c :: piece) :: others

structure Channel where
  segments : List String
deriving DecidableEq, Inhabited

/-- How a channel steers its message. -/
inductive Control where
  | continuing (rest : Channel)
  | breaking (rest : Channel)
  | data
deriving DecidableEq

namespace Channel

def continueName : String := "continue"

def breakName : String := "break"

def resultName : String := "result"

def errName : String := "err"

/-- The channel on which machines are started and answer. -/
def result : Channel := ⟨[resultName]⟩

/-- The channel of recoverable errors. -/
def err : Channel := ⟨[errName]⟩

def parse (text : String) : Channel :=
  if text.isEmpty then ⟨[]⟩ else ⟨(pieces text.toList).map String.ofList⟩

def text (c : Channel) : String :=
  "/".intercalate c.segments

instance : ToString Channel := ⟨text⟩

def isEmpty (c : Channel) : Bool :=
  c.segments.isEmpty

def head? (c : Channel) : Option String :=
  c.segments.head?

/-- All segments but the first; the empty channel is its own tail. -/
def tail (c : Channel) : Channel :=
  ⟨c.segments.tail⟩

def uncons? (c : Channel) : Option (String × Channel) :=
  match c.segments with
  | [] => none
  | segment :: rest => some (segment, ⟨rest⟩)

/-- Puts a segment in front, whatever it contains. -/
def prefixed (segment : String) (c : Channel) : Channel :=
  ⟨segment :: c.segments⟩

/-- The channel is this one segment. -/
def is (c : Channel) (segment : String) : Bool :=
  c.segments = [segment]

theorem is_iff {c : Channel} {segment : String} : c.is segment = true ↔ c = ⟨[segment]⟩ := by
  rw [is, decide_eq_true_eq, ← mk.injEq c.segments]

def startsWith (c start : Channel) : Bool :=
  start.segments.isPrefixOf c.segments

/-- What follows the segments of another channel, compared segment by segment. -/
def after? (start : Channel) (c : Channel) : Option Channel :=
  (start.segments.isPrefixOf? c.segments).map Channel.mk

/-- Replaces the leading segments `old` by `new`; other channels stay. -/
def rename (c old new : Channel) : Channel :=
  match after? old c with
  | some rest => ⟨new.segments ++ rest.segments⟩
  | none => c

def control (c : Channel) : Control :=
  match c.segments with
  | [] => .data
  | segment :: rest =>
      if segment = continueName then .continuing ⟨rest⟩
      else if segment = breakName then .breaking ⟨rest⟩
      else .data

/-- Channels are ordered as lists of segments, segments by code points. -/
def order (a b : Channel) : Ordering :=
  if a.segments < b.segments then .lt
  else if a.segments = b.segments then .eq
  else .gt

def toData (c : Channel) : Data :=
  .string c.text

def ofData? (d : Data) : Option Channel :=
  d.string?.map parse

example : (parse "a//b").segments = ["a", "", "b"] := by decide +kernel

example : (⟨[""]⟩ : Channel).text = (⟨[]⟩ : Channel).text := by decide +kernel

end Channel

end Switchboard
