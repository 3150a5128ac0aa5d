import Switchboard.Machine.Renamed
import Switchboard.Machine.State
import Switchboard.Machine.Trampoline

/-!
# Blueprints

A `Blueprint` is a term of the algebra of machines; `build` makes the machine,
over the common type of states.
-/

namespace Switchboard

inductive Blueprint where
  | constant (value : Data)
  | once (f : Data → Data)
  | suspend (channel : Channel)
  | finish
  | cell
  | slots (size : Nat)
  | relabel (old new : Channel)
  | renamed (inner : Blueprint) (old new : Channel)
  | sequence (first second : Blueprint)
  | product (left right : Blueprint)
  | looped (inner : Blueprint) (limit : Option Nat)
  | pipeline (inner : Blueprint) (limit : Option Nat)
  | stash (inner : Blueprint)
  | router
  | bound (inner : Blueprint)

namespace State

def stateless? : State → Option Stateless
  | .stateless s => some s
  | _ => none

def once? : State → Option Once
  | .once s => some s
  | _ => none

def suspension? : State → Option Suspension
  | .suspension s => some s
  | _ => none

def cell? : State → Option Cell
  | .cell s => some s
  | _ => none

def slots? : State → Option Slots
  | .slots s => some s
  | _ => none

def sequence? : State → Option (Phase State State)
  | .sequence s => some s
  | _ => none

def product? : State → Option (Halves State State)
  | .product s => some s
  | _ => none

def stash? : State → Option (Stashed State)
  | .stash s => some s
  | _ => none

def router? : State → Option Router
  | .router s => some s
  | _ => none

def bound? : State → Option (Bound State)
  | .bound s => some s
  | _ => none

end State

namespace Blueprint

def build : Blueprint → Machine State
  | .constant value => (Machine.constant value).within .stateless State.stateless?
  | .once f => (Machine.once f).within .once State.once?
  | .suspend channel => (Machine.suspend channel).within .suspension State.suspension?
  | .finish => Machine.finish.within .stateless State.stateless?
  | .cell => Machine.cell.within .cell State.cell?
  | .slots size => (Machine.slots size).within .slots State.slots?
  | .relabel old new => (Machine.relabel old new).within .stateless State.stateless?
  | .renamed inner old new => inner.build.renamed old new
  | .sequence first second =>
      (Machine.sequence first.build second.build).within .sequence State.sequence?
  | .product left right =>
      (Machine.product left.build right.build).within .product State.product?
  | .looped inner limit => inner.build.looped limit
  | .pipeline inner limit => inner.build.pipeline limit
  | .stash inner => inner.build.stash.within .stash State.stash?
  | .router => Machine.router.within .router State.router?
  | .bound inner => inner.build.bound.within .bound State.bound?

end Blueprint

end Switchboard
