import Switchboard.Machine.Basic
import Switchboard.Machine.Cell
import Switchboard.Machine.Slots
import Switchboard.Machine.Sequence
import Switchboard.Machine.Stash
import Switchboard.Machine.Facets

/-!
# States of all machines

One type of states for every machine built from the parts of this library, so
that a state can be written down, read back and compared without knowing its
machine.  Its form is an object with one field, whose name tells the kind of
state.
-/

namespace Switchboard

inductive State where
  | stateless (s : Stateless)
  | once (s : Once)
  | suspension (s : Suspension)
  | cell (s : Cell)
  | slots (s : Slots)
  | sequence (s : Phase State State)
  | product (s : Halves State State)
  | stash (s : Stashed State)
  | router (s : Router)
  | bound (s : Bound State)

namespace State

def name : State → String
  | .stateless s => Observable.name s
  | .once s => Observable.name s
  | .suspension s => Observable.name s
  | .cell s => Observable.name s
  | .slots s => Observable.name s
  | .sequence (.first _) => "a"
  | .sequence (.second _) => "b"
  | .product _ => "product"
  | .stash .idle => "idle"
  | .stash (.running _ _) => "running"
  | .router s => Observable.name s
  | .bound s => s.router.name

def isFinal : State → Bool
  | .once s => Observable.isFinal s
  | .sequence (.second inner) => inner.isFinal
  | .product ⟨left, right⟩ => left.isFinal && right.isFinal
  | _ => false

instance : Observable State where
  name := name
  isFinal := isFinal

def toData : State → Data
  | .stateless s => .tagged "stateless" s.toData
  | .once s => .tagged "func" s.toData
  | .suspension s => .tagged "yield" s.toData
  | .cell s => .tagged "cell" s.toData
  | .slots s => .tagged "array" s.toData
  | .sequence (.first inner) => .tagged "sequence" (Phase.toData (.first inner.toData))
  | .sequence (.second inner) => .tagged "sequence" (Phase.toData (.second inner.toData))
  | .product ⟨left, right⟩ => .tagged "product" (Halves.toData ⟨left.toData, right.toData⟩)
  | .stash .idle => .tagged "stash" (Stashed.toData .idle)
  | .stash (.running stashed inner) =>
      .tagged "stash" (Stashed.toData (.running stashed inner.toData))
  | .router s => .tagged "name" s.toData
  | .bound ⟨waiting, inner⟩ => .tagged "bind" (Bound.toData ⟨waiting, inner.toData⟩)

/-- Reads a state whose form is nested at most so deep. -/
def readWithin : Nat → Data → Option State
  | 0, _ => none
  | depth + 1, d => do
      let (kind, content) ← d.content?
      match kind with
      | "stateless" => (Stateless.ofData? content).map .stateless
      | "func" => (Once.ofData? content).map .once
      | "yield" => (Suspension.ofData? content).map .suspension
      | "cell" => (Cell.ofData? content).map .cell
      | "array" => (Slots.ofData? content).map .slots
      | "sequence" =>
          match ← Phase.ofData? content with
          | .first inner => (readWithin depth inner).map (.sequence ∘ .first)
          | .second inner => (readWithin depth inner).map (.sequence ∘ .second)
      | "product" => do
          let ⟨left, right⟩ ← Halves.ofData? content
          some (.product ⟨← readWithin depth left, ← readWithin depth right⟩)
      | "stash" =>
          match ← Stashed.ofData? content with
          | .idle => some (.stash .idle)
          | .running stashed inner => (readWithin depth inner).map (.stash ∘ .running stashed)
      | "name" => (Router.ofData? content).map .router
      | "bind" => do
          let ⟨waiting, inner⟩ ← Bound.ofData? content
          some (.bound ⟨waiting, ← readWithin depth inner⟩)
      | _ => none

def ofData? (d : Data) : Option State :=
  readWithin (d.depth + 1) d

/-! ## Agreement

States agree when they are of one kind and their data agrees. -/

def sameRouter : Router → Router → Bool
  | .start, .start => true
  | .awaitingFirst, .awaitingFirst => true
  | .awaitingSecond, .awaitingSecond => true
  | .awaitingInit none, .awaitingInit none => true
  | .awaitingInit (some a), .awaitingInit (some b) => a.same b
  | _, _ => false

def same : State → State → Bool
  | .stateless a, .stateless b => a == b
  | .once a, .once b => a == b
  | .suspension a, .suspension b => a == b
  | .cell a, .cell b => a.value.same b.value
  | .slots a, .slots b => Data.sameItems a.slots b.slots && a.discipline == b.discipline
  | .sequence (.first a), .sequence (.first b) => same a b
  | .sequence (.second a), .sequence (.second b) => same a b
  | .product ⟨a, c⟩, .product ⟨b, d⟩ => same a b && same c d
  | .stash .idle, .stash .idle => true
  | .stash (.running a c), .stash (.running b d) => a.same b && same c d
  | .router a, .router b => sameRouter a b
  | .bound ⟨a, c⟩, .bound ⟨b, d⟩ => sameRouter a b && same c d
  | _, _ => false

end State

end Switchboard
