import Switchboard.Machine.Blueprint
import Switchboard.Proofs.Machine.Invariants

/-!
# The states of a machine among all states

`b.Owns s` says that a state is one of the machine that a blueprint builds: it is of
the machine's kind, and its parts are states of the machine's parts.  A machine
starts in a state of its own and stays among them (`Blueprint.keeps_owns`), though it
reaches only some of them.
-/

namespace Switchboard

namespace Blueprint

def Owns : Blueprint → State → Prop
  | .constant _ | .finish | .relabel _ _ => Embedded .stateless fun _ => True
  | .once _ => Embedded .once fun _ => True
  | .suspend _ => Embedded .suspension fun _ => True
  | .cell => Embedded .cell fun _ => True
  | .slots _ => Embedded .slots fun _ => True
  | .renamed inner _ _ | .looped inner _ | .pipeline inner _ => inner.Owns
  | .sequence first second => Embedded .sequence (Phase.Holds first.Owns second.Owns)
  | .product left right => Embedded .product (Halves.Holds left.Owns right.Owns)
  | .stash inner => Embedded .stash (Stashed.Holds inner.Owns)
  | .router => Embedded .router fun _ => True
  | .bound inner => Embedded .bound fun s => inner.Owns s.inner

theorem keeps_owns (b : Blueprint) : b.build.Keeps b.Owns := by
  have all : ∀ {σ : Type} (m : Machine σ), m.Keeps fun _ => True :=
    fun m => ⟨True.intro, fun _ _ => True.intro⟩
  induction b with
  | constant value => exact (all (Machine.constant value)).within fun _ => rfl
  | once f => exact (all (Machine.once f)).within fun _ => rfl
  | suspend channel => exact (all (Machine.suspend channel)).within fun _ => rfl
  | finish => exact (all Machine.finish).within fun _ => rfl
  | cell => exact (all Machine.cell).within fun _ => rfl
  | slots size => exact (all (Machine.slots size)).within fun _ => rfl
  | relabel old new => exact (all (Machine.relabel old new)).within fun _ => rfl
  | renamed inner old new ih => exact ih.renamed old new
  | sequence first second ih ih' => exact (ih.sequence ih').within fun _ => rfl
  | product left right ih ih' => exact (ih.product ih').within fun _ => rfl
  | looped inner limit ih => exact ih.trampoline Machine.Route.looped limit
  | pipeline inner limit ih => exact ih.trampoline Machine.Route.pipeline limit
  | stash inner ih => exact ih.stash.within fun _ => rfl
  | router => exact (all Machine.router).within fun _ => rfl
  | bound inner ih => exact ih.bound.within fun _ => rfl

/-- Every state that a machine reaches is one of its own. -/
theorem owns_of_reaches {b : Blueprint} {s : State} (h : b.build.Reaches b.build.start s) :
    b.Owns s :=
  b.keeps_owns.reaches b.keeps_owns.start h

/-- What a bound machine reaches is its router at the start beside what the inner
machine reaches by itself. -/
theorem reached_of_bound {b : Blueprint} {s : State}
    (h : b.bound.build.Reaches b.bound.build.start s) :
    ∃ inner, s = .bound ⟨.start, inner⟩ ∧ b.build.Reaches b.build.start inner := by
  have own : ∀ s, State.bound? (.bound s) = some s := fun _ => rfl
  have keeps := (Machine.bound_keeps b.build).within own
  obtain ⟨⟨router, inner⟩, rfl, rfl, reached⟩ := keeps.reaches keeps.start h
  exact ⟨inner, rfl, reached⟩

end Blueprint

end Switchboard
