import Switchboard.CharClass
import Switchboard.Data.Form
import Switchboard.Digits

/-!
# Timestamps

A point in time, to the nanosecond.  A leap second is the second before it with
more than `10^9` nanoseconds.

It is written as `2024-02-29T12:34:56Z`, with three, six or nine digits of a
fraction when there is one and with a sign when the year does not have four
digits.  It is read from that form and some looser ones: blanks between the
parts, a blank or a small letter between date and time, short numbers, and any
offset from universal time.
-/

namespace Switchboard

/-- Whole seconds since the beginning of 1970 in universal time, and nanoseconds
within the second. -/
structure Timestamp where
  seconds : Int
  nanos : Nat
deriving DecidableEq

namespace Timestamp

def secondsPerDay : Int :=
  86400

def nanosPerSecond : Nat :=
  Nat.pow 10 9

def ofMillis (ms : Int) : Timestamp :=
  ⟨ms / 1000, (ms % 1000).toNat * Nat.pow 10 6⟩

/-! ## The calendar -/

structure Date where
  year : Int
  month : Nat
  day : Nat
deriving DecidableEq

def isLeapYear (year : Int) : Bool :=
  year % 4 = 0 && (year % 100 ≠ 0 || year % 400 = 0)

def daysInMonth (year : Int) (month : Nat) : Nat :=
  if month = 2 then (if isLeapYear year then 29 else 28)
  else if month = 4 ∨ month = 6 ∨ month = 9 ∨ month = 11 then 30
  else 31

/-- Days from the beginning of 1970.  Years are counted from March, so that the
day that a leap year adds is the last of its year. -/
def Date.toDays (date : Date) : Int :=
  let year := if date.month ≤ 2 then date.year - 1 else date.year
  let era := year / 400
  let yearOfEra := year - era * 400
  let month : Int := if date.month ≤ 2 then date.month + 9 else date.month - 3
  let dayOfYear := (153 * month + 2) / 5 + date.day - 1
  let dayOfEra := yearOfEra * 365 + yearOfEra / 4 - yearOfEra / 100 + dayOfYear
  era * 146097 + dayOfEra - 719468

def Date.ofDays (days : Int) : Date :=
  let shifted := days + 719468
  let era := shifted / 146097
  let dayOfEra := shifted - era * 146097
  let yearOfEra :=
    (dayOfEra - dayOfEra / 1460 + dayOfEra / 36524 - dayOfEra / 146096) / 365
  let dayOfYear := dayOfEra - (365 * yearOfEra + yearOfEra / 4 - yearOfEra / 100)
  let month := (5 * dayOfYear + 2) / 153
  let day := (dayOfYear - (153 * month + 2) / 5 + 1).toNat
  let civil := if month < 10 then month + 3 else month - 9
  ⟨yearOfEra + era * 400 + (if civil ≤ 2 then 1 else 0), civil.toNat, day⟩

/-- The years that timestamps can fall into. -/
def isYear (year : Int) : Bool :=
  -262143 ≤ year && year ≤ 262142

/-! ## Writing -/

def padded (width : Nat) (n : Nat) : String :=
  let digits := toString n
  String.ofList (List.replicate (width - digits.length) '0') ++ digits

def yearText (year : Int) : String :=
  if 0 ≤ year ∧ year ≤ 9999 then padded 4 year.toNat
  else (if year < 0 then "-" else "+") ++ padded 4 year.natAbs

def fractionText (nanos : Nat) : String :=
  if nanos = 0 then ""
  else if nanos % Nat.pow 10 6 = 0 then "." ++ padded 3 (nanos / Nat.pow 10 6)
  else if nanos % Nat.pow 10 3 = 0 then "." ++ padded 6 (nanos / Nat.pow 10 3)
  else "." ++ padded 9 nanos

def text (t : Timestamp) : String :=
  let date := Date.ofDays (t.seconds / secondsPerDay)
  let clock := (t.seconds % secondsPerDay).toNat
  let second := clock % 60 + t.nanos / nanosPerSecond
  yearText date.year ++ "-" ++ padded 2 date.month ++ "-" ++ padded 2 date.day ++ "T" ++
    padded 2 (clock / 3600) ++ ":" ++ padded 2 (clock / 60 % 60) ++ ":" ++ padded 2 second ++
    fractionText (t.nanos % nanosPerSecond) ++ "Z"

/-! ## Reading -/

def skipBlanks (text : List Char) : List Char :=
  text.dropWhile CharClass.isBlank

/-- A run of digits, at least one. -/
def digits? (text : List Char) : Option (List Nat × List Char) :=
  match Digits.run text with
  | ([], _) => none
  | found => some found

/-- A number of at most `width` digits behind blanks, within bounds. -/
def number? (width low high : Nat) (text : List Char) : Option (Nat × List Char) := do
  let text := skipBlanks text
  let (found, _) ← digits? text
  let found := found.take width
  let value := Digits.value found
  if low ≤ value ∧ value ≤ high then some (value, text.drop found.length) else none

/-- A year may have a sign, and then any number of digits. -/
def year? (text : List Char) : Option (Int × List Char) := do
  let (value, rest) ← signed (skipBlanks text)
  if isYear value then some (value, rest) else none
where
  signed : List Char → Option (Int × List Char)
    | '-' :: text => (digits? text).map fun (found, rest) => (-(Digits.value found : Int), rest)
    | '+' :: text => (digits? text).map fun (found, rest) => ((Digits.value found : Int), rest)
    | text => (number? 4 0 9999 text).map fun (value, rest) => ((value : Int), rest)

/-- A character behind blanks. -/
def mark? (expected : Char) (text : List Char) : Option (List Char) :=
  match skipBlanks text with
  | c :: rest => if c = expected then some rest else none
  | [] => none

/-- The fraction of a second in nanoseconds; digits after the ninth are passed
over. -/
def fraction? : List Char → Option (Nat × List Char)
  | '.' :: text => do
      let (found, rest) ← digits? text
      let kept := found.take 9
      some (Digits.value kept * Nat.pow 10 (9 - kept.length), rest)
  | text => some (0, text)

/-- Two digits, up to a bound for the first one. -/
def twoDigits? (greatest : Char) : List Char → Option (Nat × List Char)
  | a :: b :: rest =>
      if '0' ≤ a ∧ a ≤ greatest ∧ b.isDigit then
        some (Digits.value [Digits.digitOf a, Digits.digitOf b], rest)
      else none
  | _ => none

/-- Hours and minutes of an offset, in minutes; an offset stays below one day. -/
def offsetSize? (text : List Char) : Option (Int × List Char) := do
  let (hours, text) ← twoDigits? '9' text
  let text := text.dropWhile fun c => c = ':' || CharClass.isBlank c
  let (minutes, rest) ← twoDigits? '5' text
  if hours < 24 then some (hours * 60 + minutes, rest) else none

/-- The offset from universal time in minutes. -/
def offset? : List Char → Option (Int × List Char)
  | 'Z' :: rest | 'z' :: rest => some (0, rest)
  | '+' :: rest => offsetSize? rest
  | '-' :: rest | '−' :: rest => (offsetSize? rest).map fun (size, rest) => (-size, rest)
  | u :: t :: c :: rest =>
      if u.toUpper = 'U' ∧ t.toUpper = 'T' ∧ c.toUpper = 'C' then some (0, rest) else none
  | _ => none

def date? (text : List Char) : Option (Date × List Char) := do
  let (year, text) ← year? text
  let text ← mark? '-' text
  let (month, text) ← number? 2 1 12 text
  let text ← mark? '-' text
  let (day, text) ← number? 2 1 31 text
  if day ≤ daysInMonth year month then some (⟨year, month, day⟩, text) else none

/-- The time of day in seconds and nanoseconds. -/
def time? (text : List Char) : Option ((Nat × Nat) × List Char) := do
  let (hour, text) ← number? 2 0 23 text
  let text ← mark? ':' text
  let (minute, text) ← number? 2 0 59 text
  let text ← mark? ':' text
  let (second, text) ← number? 2 0 60 text
  let (nanos, text) ← fraction? text
  let clock := hour * 3600 + minute * 60
  if second = 60 then some ((clock + 59, nanos + nanosPerSecond), text)
  else some ((clock + second, nanos), text)

def separator? : List Char → Option (List Char)
  | 'T' :: rest | 't' :: rest | ' ' :: rest => some rest
  | _ => none

def parse? (text : String) : Option Timestamp := do
  let (date, text) ← date? text.toList
  let text ← separator? text
  let ((clock, nanos), text) ← time? text
  let (offset, text) ← offset? (skipBlanks text)
  let seconds := date.toDays * secondsPerDay + clock - offset * 60
  if (skipBlanks text).isEmpty ∧ isYear (Date.ofDays (seconds / secondsPerDay)).year then
    some ⟨seconds, nanos⟩
  else none

def toData (t : Timestamp) : Data :=
  .string t.text

def ofData? (d : Data) : Option Timestamp :=
  d.string?.bind parse?

/-! ## Differences -/

/-- Nanoseconds from one timestamp to another.  A leap second at the earlier time
of day counts as a second of its own. -/
def nanosBetween (first last : Timestamp) : Int :=
  let clock (t : Timestamp) := t.seconds % secondsPerDay
  let leap : Int :=
    if clock first < clock last then (if nanosPerSecond ≤ first.nanos then 1 else 0)
    else if clock last < clock first then (if nanosPerSecond ≤ last.nanos then -1 else 0)
    else 0
  (last.seconds - first.seconds + leap) * nanosPerSecond + (last.nanos - first.nanos : Int)

end Timestamp

end Switchboard
