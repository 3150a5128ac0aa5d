import Switchboard.Data.Printing
import Switchboard.Grammar
import Switchboard.Grammar.Mismatch

/-!
# Forms of grammars and mismatches

A grammar is written as the list of its nodes and a node as its constructor with
the indices it refers to.  Reading does not check what the builders check.

In a text the fields of a mismatch stand in the order in which they are declared.
-/

namespace Switchboard

namespace Node

/-- A table of indices as an object. -/
def tableToData (table : Keyed NodeId) : Data :=
  .object (table.entries.map fun (name, id) => (name, .natural id))

def tableOfData? : Data → Option (Keyed NodeId)
  | .object fields => do
      let entries ← fields.mapM fun (name, d) => d.natural?.map (name, ·)
      some (Keyed.ofList entries)
  | _ => none

def toData : Node → Data
  | .emit token => .tagged "Emit" (.string token)
  | .sequence parts => .tagged "Sequence" (.naturals parts)
  | .choice branches => .tagged "Choice" (tableToData branches)
  | .loop body => .tagged "Loop" (.optional (body.map .natural))
  | .product channels => .tagged "Product" (tableToData channels)

def bodyOfData? : Data → Option (Option NodeId)
  | .null => some none
  | d => d.natural?.map some

def ofData? (d : Data) : Option Node := do
  let (kind, content) ← d.content?
  match kind with
  | "Emit" => content.string?.map .emit
  | "Sequence" => content.naturals?.map .sequence
  | "Choice" => (tableOfData? content).map .choice
  | "Loop" => (bodyOfData? content).map .loop
  | "Product" => (tableOfData? content).map .product
  | _ => none

end Node

namespace Grammar

def toData (g : Grammar) : Data :=
  .object [("nodes", .array (g.nodes.toList.map Node.toData))]

def ofData? (d : Data) : Option Grammar :=
  match d.record? ["nodes"] with
  | some [some nodes] => do
      let items ← nodes.array?
      some ⟨(← items.mapM Node.ofData?).toArray⟩
  | _ => none

def text (g : Grammar) : String :=
  g.toData.render

end Grammar

namespace Untagged

def toData (u : Untagged) : Data :=
  .object [("at", .natural u.position), ("token", .string u.token)]

def ofData? (d : Data) : Option Untagged :=
  match d.record? ["token", "at"] with
  | some [some text, some position] => do
      some ⟨← text.string?, ← position.natural?⟩
  | _ => none

/-- The form with its fields as they are declared. -/
def declared (u : Untagged) : Data :=
  .object [("token", .string u.token), ("at", .natural u.position)]

/-- A blocking token that may be null or absent. -/
def optionalOfData? : Option Data → Option (Option Untagged)
  | none | some .null => some none
  | some d => (ofData? d).map some

end Untagged

namespace Mismatch

mutual

def toData : Mismatch → Data
  | .token expected found position =>
      .tagged "Token" (.object [("at", .natural position), ("expected", .string expected),
        ("found", .optionalString found)])
  | .choice expected found position =>
      .tagged "Choice" (.object [("at", .natural position), ("expected", .strings expected),
        ("found", .optionalString found)])
  | .step index reason =>
      .tagged "Step" (.object [("index", .natural index), ("reason", toData reason)])
  | .noProgress position => .tagged "NoProgress" (.object [("at", .natural position)])
  | .unresolved node => .tagged "Unresolved" (.object [("node", .natural node)])
  | .unknownNode node => .tagged "UnknownNode" (.object [("node", .natural node)])
  | .product split channels blocked =>
      .tagged "Product" (.object [("blocked", .optional (blocked.map Untagged.toData)),
        ("channels", .array (channelsToData channels)), ("split", .natural split)])
  | .trailing leftover => .tagged "Trailing" (.object [("leftover", .strings leftover)])

def channelsToData : List (String × Mismatch) → List Data
  | [] => []
  | (channel, reason) :: rest =>
      .object [("channel", .string channel), ("reason", toData reason)] :: channelsToData rest

end

/-- Reads a mismatch whose form is nested at most so deep. -/
def readWithin : Nat → Data → Option Mismatch
  | 0, _ => none
  | depth + 1, d => do
      let (kind, content) ← d.content?
      match kind with
      | "Token" =>
          match content.fields? ["expected", "found", "at"] with
          | some [some expected, found, some position] => do
              some (.token (← expected.string?) (← Data.optionalString? found)
                (← position.natural?))
          | _ => none
      | "Choice" =>
          match content.fields? ["expected", "found", "at"] with
          | some [some expected, found, some position] => do
              some (.choice (← expected.strings?) (← Data.optionalString? found)
                (← position.natural?))
          | _ => none
      | "Step" =>
          match content.fields? ["index", "reason"] with
          | some [some index, some reason] => do
              some (.step (← index.natural?) (← readWithin depth reason))
          | _ => none
      | "NoProgress" =>
          match content.fields? ["at"] with
          | some [some position] => position.natural?.map .noProgress
          | _ => none
      | "Unresolved" =>
          match content.fields? ["node"] with
          | some [some node] => node.natural?.map .unresolved
          | _ => none
      | "UnknownNode" =>
          match content.fields? ["node"] with
          | some [some node] => node.natural?.map .unknownNode
          | _ => none
      | "Product" =>
          match content.fields? ["split", "channels", "blocked"] with
          | some [some split, some channels, blocked] => do
              let items ← channels.array?
              some (.product (← split.natural?) (← items.mapM (readChannel depth))
                (← Untagged.optionalOfData? blocked))
          | _ => none
      | "Trailing" =>
          match content.fields? ["leftover"] with
          | some [some leftover] => leftover.strings?.map .trailing
          | _ => none
      | _ => none
where
  readChannel (depth : Nat) (d : Data) : Option (String × Mismatch) :=
    match d.record? ["channel", "reason"] with
    | some [some channel, some reason] => do
        some (← channel.string?, ← readWithin depth reason)
    | _ => none

def ofData? (d : Data) : Option Mismatch :=
  readWithin (d.depth + 1) d

mutual

/-- The form with its fields as they are declared. -/
def declared : Mismatch → Data
  | .token expected found position =>
      .tagged "Token" (.object [("expected", .string expected), ("found", .optionalString found),
        ("at", .natural position)])
  | .choice expected found position =>
      .tagged "Choice" (.object [("expected", .strings expected), ("found", .optionalString found),
        ("at", .natural position)])
  | .step index reason =>
      .tagged "Step" (.object [("index", .natural index), ("reason", declared reason)])
  | .noProgress position => .tagged "NoProgress" (.object [("at", .natural position)])
  | .unresolved node => .tagged "Unresolved" (.object [("node", .natural node)])
  | .unknownNode node => .tagged "UnknownNode" (.object [("node", .natural node)])
  | .product split channels blocked =>
      .tagged "Product" (.object [("split", .natural split),
        ("channels", .array (channelsDeclared channels)),
        ("blocked", .optional (blocked.map Untagged.declared))])
  | .trailing leftover => .tagged "Trailing" (.object [("leftover", .strings leftover)])

def channelsDeclared : List (String × Mismatch) → List Data
  | [] => []
  | (channel, reason) :: rest =>
      .object [("channel", .string channel), ("reason", declared reason)] :: channelsDeclared rest

end

def text (m : Mismatch) : String :=
  m.declared.render

end Mismatch

end Switchboard
