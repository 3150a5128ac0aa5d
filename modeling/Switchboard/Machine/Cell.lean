import Switchboard.Digits
import Switchboard.Machine

/-!
# Cells

A cell keeps one value.  `set` writes it, `copy` reads it, and
`element/i/...` does either to the `i`-th item of an array in it, to any depth.
An index that is no number, an item that does not exist and an item of
something else than an array are answered on `err` and leave the cell as it is;
a path that is none of these faults.
-/

namespace Switchboard

structure Cell where
  value : Data

namespace Cell

instance : Observable Cell where
  name _ := "cell"

def toData (s : Cell) : Data :=
  .object [("value", s.value)]

def ofData? (d : Data) : Option Cell :=
  match d.record? ["value"] with
  | some [some value] => some ⟨value⟩
  | _ => none

/-- One more than the largest index. -/
def indexBound : Nat :=
  Nat.pow 2 64

/-- Decimal digits, perhaps behind a plus sign, of a number that fits 64 bits. -/
def index? (text : String) : Option Nat :=
  match Digits.run (unsigned text.toList) with
  | (d :: rest, []) =>
      let value := Digits.value (d :: rest)
      if value < indexBound then some value else none
  | _ => none
where
  unsigned : List Char → List Char
    | '+' :: rest => rest
    | chars => chars

/-- What a path does to a value: the value afterwards and the answer.  `full` is
the whole channel, which the texts of errors show, and `data` is what `set`
writes. -/
def operate (full : Channel) (data : Data) : List String → Data → Except Fault (Data × Message)
  | ["set"], _ => .ok (data, Message.result .null)
  | ["copy"], value => .ok (value, Message.result value)
  | "element" :: index :: segment :: rest, value =>
      match index? index with
      | none => .ok (value, Message.err ("invalid index '" ++ index ++ "'"))
      | some i =>
          match value with
          | .array items =>
              match items[i]? with
              | none =>
                  .ok (value, Message.err ("index " ++ toString i ++
                    " out of range for length " ++ toString items.length))
              | some item => do
                  let (item, reply) ← operate full data (segment :: rest) item
                  .ok (.array (items.set i item), reply)
          | _ =>
              .ok (value, Message.err ("cannot index into non-array value at '" ++
                full.text ++ "'"))
  | _, _ => .error (.invalidChannel "cell" full)

end Cell

namespace Machine

def cell : Machine Cell where
  start := ⟨.null⟩
  advance state message :=
    match Cell.operate message.channel message.data message.channel.segments state.value with
    | .ok (value, reply) => pure (⟨value⟩, reply)
    | .error fault => Turn.fault fault

end Machine

end Switchboard
