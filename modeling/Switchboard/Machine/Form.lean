import Switchboard.Machine.Blueprint

/-!
# Forms of the states of a known machine

Where the machine is known, its states need no names for their kinds: the form of a
state is made of the forms of its parts alone, and the blueprint of the machine
tells how it is read.
-/

namespace Switchboard

namespace State

/-- The form without the kinds of states. -/
def form : State → Data
  | .stateless s => s.toData
  | .once s => s.toData
  | .suspension s => s.toData
  | .cell s => s.toData
  | .slots s => s.toData
  | .sequence (.first inner) => Phase.toData (.first inner.form)
  | .sequence (.second inner) => Phase.toData (.second inner.form)
  | .product ⟨left, right⟩ => Halves.toData ⟨left.form, right.form⟩
  | .stash .idle => Stashed.toData .idle
  | .stash (.running stashed inner) => Stashed.toData (.running stashed inner.form)
  | .router s => s.toData
  | .bound ⟨waiting, inner⟩ => Bound.toData ⟨waiting, inner.form⟩

example : form (.product ⟨.sequence (.second (.suspension .awaiting)), .once .start⟩) =
    .object [("left", .tagged "B" (.string "Awaiting")), ("right", .string "Start")] := rfl

end State

namespace Blueprint

/-- Reads a state of the machine. -/
def restore? : Blueprint → Data → Option State
  | .constant _, d | .finish, d | .relabel _ _, d => (Stateless.ofData? d).map .stateless
  | .once _, d => (Once.ofData? d).map .once
  | .suspend _, d => (Suspension.ofData? d).map .suspension
  | .cell, d => (Cell.ofData? d).map .cell
  | .slots _, d => (Slots.ofData? d).map .slots
  | .renamed inner _ _, d | .looped inner _, d | .pipeline inner _, d => inner.restore? d
  | .sequence first second, d => do
      match ← Phase.ofData? d with
      | .first inner => (first.restore? inner).map (.sequence ∘ .first)
      | .second inner => (second.restore? inner).map (.sequence ∘ .second)
  | .product left right, d => do
      let ⟨ofLeft, ofRight⟩ ← Halves.ofData? d
      some (.product ⟨← left.restore? ofLeft, ← right.restore? ofRight⟩)
  | .stash inner, d => do
      match ← Stashed.ofData? d with
      | .idle => some (.stash .idle)
      | .running stashed running => (inner.restore? running).map (.stash ∘ .running stashed)
  | .router, d => (Router.ofData? d).map .router
  | .bound inner, d => do
      let ⟨waiting, own⟩ ← Bound.ofData? d
      some (.bound ⟨waiting, ← inner.restore? own⟩)

end Blueprint

end Switchboard
