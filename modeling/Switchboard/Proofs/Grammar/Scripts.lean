import Mathlib.Logic.Relation
import Switchboard.Grammar.Builder

/-!
# Scripts of builder calls

A `Script` is what a caller does with a grammar: one builder call after the other, each
of which may depend on the ids that the earlier ones have given and on the errors with
which they have failed.  The body of a loop is a script as well, and the loop waits while
its body is built.

`Script.run` carries a script out with the builders.  `Building.Step` takes it apart into
single calls, so that one can speak of the moments in between, when some bodies are only
half built; a whole run leads from moment to moment (`Script.run_reaches`).
-/

namespace Switchboard

/-! ## What builders make of a grammar -/

namespace Builder

variable {α β : Type}

/-- What comes of building on a grammar, and the grammar after it. -/
def on (x : Builder α) (g : Grammar) : Except GrammarError α × Grammar :=
  x.run.run g

theorem on_bind (x : Builder α) (f : α → Builder β) (g : Grammar) :
    on (x >>= f) g =
      match x.on g with
      | (.ok a, after) => (f a).on after
      | (.error error, after) => (.error error, after) := by
  simp only [on, ExceptT.run_bind, StateT.run_bind]
  generalize x.run.run g = outcome
  obtain ⟨answer, after⟩ := outcome
  cases answer with
  | ok a => rfl
  | error error => rfl

theorem on_tryCatch (x : Builder α) (handle : GrammarError → Builder α) (g : Grammar) :
    on (tryCatch x handle) g =
      match x.on g with
      | (.ok a, after) => (.ok a, after)
      | (.error error, after) => (handle error).on after := by
  simp only [on, ExceptT.run_tryCatch, StateT.run_bind]
  generalize x.run.run g = outcome
  obtain ⟨answer, after⟩ := outcome
  cases answer with
  | ok a => rfl
  | error error => rfl

/-- An error that is observed is an answer like any other. -/
theorem on_observing (x : Builder α) (g : Grammar) :
    (observing x).on g = (.ok (x.on g).1, (x.on g).2) := by
  rw [observing, on_tryCatch, on_bind]
  generalize x.on g = outcome
  obtain ⟨answer, after⟩ := outcome
  cases answer with
  | ok a => rfl
  | error error => rfl

theorem on_ofExcept (answer : Except GrammarError α) (g : Grammar) :
    on (MonadExcept.ofExcept answer) g = (answer, g) := by
  cases answer with
  | ok a => rfl
  | error error => rfl

theorem on_push (node : Node) (g : Grammar) : on (push node) g = (.ok g.size, (g.push node).2) :=
  rfl

theorem on_looped (body : NodeId → Builder NodeId) (g : Grammar) :
    (looped body).on g =
      match (body g.size).on (g.push (.loop none)).2 with
      | (.ok inner, after) => (.ok g.size, after.close g.size inner)
      | (.error error, after) => (.error error, after) := by
  rw [looped, on_bind, on_push]
  dsimp only
  rw [on_bind]
  generalize (body g.size).on (g.push (.loop none)).2 = outcome
  obtain ⟨answer, after⟩ := outcome
  cases answer with
  | ok inner => rfl
  | error error => rfl

end Builder

/-! ## Scripts -/

/-- A call of a builder that only appends a node. -/
inductive Request where
  | emit (token : String)
  | sequence (parts : List NodeId)
  | done
  | choice (entries : List (String × NodeId))
  | product (entries : List (String × NodeId))
  | receive (tag : String) (next : NodeId)

namespace Request

def perform : Request → Builder NodeId
  | .emit token => Builder.emit token
  | .sequence parts => Builder.sequence parts
  | .done => Builder.done
  | .choice entries => Builder.choice entries
  | .product entries => Builder.product entries
  | .receive tag next => Builder.receive tag next

/-- The ids that are passed in. -/
def ids : Request → List NodeId
  | .emit _ | .done => []
  | .sequence parts => parts
  | .choice entries | .product entries => entries.map (·.2)
  | .receive _ next => [next]

end Request

inductive Script where
  | finish (answer : Except GrammarError NodeId)
  | call (request : Request) (next : Except GrammarError NodeId → Script)
  | looped (body : NodeId → Script) (next : Except GrammarError NodeId → Script)

/-- Carries a script out; what becomes of an error is up to the script. -/
def Script.run : Script → Builder NodeId
  | .finish answer => MonadExcept.ofExcept answer
  | .call request next => do
      let answer ← observing request.perform
      (next answer).run
  | .looped body next => do
      let answer ← observing (Builder.looped fun loop => (body loop).run)
      (next answer).run

/-! ## Moments -/

/-- A loop whose body is under way, and what is left to do behind the loop. -/
structure Unfinished where
  loop : NodeId
  next : Except GrammarError NodeId → Script

/-- A moment of building: the grammar, the ids that it has given so far, what is left to
do, and the loops around that, the innermost first. -/
structure Building where
  grammar : Grammar
  issued : List NodeId
  script : Script
  around : List Unfinished

namespace Building

def start (script : Script) : Building :=
  ⟨.empty, [], script, []⟩

/-- The ids that a call gives. -/
def given : Except GrammarError NodeId → List NodeId
  | .ok id => [id]
  | .error _ => []

inductive Step : Building → Building → Prop
  | call {g after : Grammar} {issued : List NodeId} {request : Request}
      {next : Except GrammarError NodeId → Script} {around : List Unfinished}
      {answer : Except GrammarError NodeId} (performed : request.perform.on g = (answer, after)) :
      Step ⟨g, issued, .call request next, around⟩
        ⟨after, given answer ++ issued, next answer, around⟩
  | enter {g : Grammar} {issued : List NodeId} {body : NodeId → Script}
      {next : Except GrammarError NodeId → Script} {around : List Unfinished} :
      Step ⟨g, issued, .looped body next, around⟩
        ⟨(g.push (.loop none)).2, g.size :: issued, body g.size, ⟨g.size, next⟩ :: around⟩
  | close {g : Grammar} {issued : List NodeId} {inner : NodeId} {unfinished : Unfinished}
      {around : List Unfinished} :
      Step ⟨g, issued, .finish (.ok inner), unfinished :: around⟩
        ⟨g.close unfinished.loop inner, issued, unfinished.next (.ok unfinished.loop), around⟩
  | fail {g : Grammar} {issued : List NodeId} {error : GrammarError} {unfinished : Unfinished}
      {around : List Unfinished} :
      Step ⟨g, issued, .finish (.error error), unfinished :: around⟩
        ⟨g, issued, unfinished.next (.error error), around⟩

/-- Some steps lead from one moment to another. -/
abbrev Reaches : Building → Building → Prop :=
  Relation.ReflTransGen Step

/-- The loop whose call is about to succeed, and the body that it gets. -/
def closing? : Building → Option (NodeId × NodeId)
  | ⟨_, _, .finish (.ok inner), unfinished :: _⟩ => some (unfinished.loop, inner)
  | _ => none

/-- The ids that are passed to a builder next, or given to it as the body of a loop. -/
def handed : Building → List NodeId
  | ⟨_, _, .call request _, _⟩ => request.ids
  | ⟨_, _, .finish (.ok inner), _ :: _⟩ => [inner]
  | _ => []

end Building

/-- Whenever ids are passed in, the grammar has given them before. -/
def Script.Honest (script : Script) : Prop :=
  ∀ b, (Building.start script).Reaches b → ∀ id ∈ b.handed, id ∈ b.issued

/-- Carried out at any moment, a script leads to the moment when it is finished, with the
loops around it as they were. -/
theorem Script.run_reaches (script : Script) (g : Grammar) (issued : List NodeId)
    (around : List Unfinished) :
    ∃ issued', Building.Reaches ⟨g, issued, script, around⟩
      ⟨(script.run.on g).2, issued', .finish (script.run.on g).1, around⟩ := by
  induction script generalizing g issued around with
  | finish answer =>
      rw [run, Builder.on_ofExcept]
      exact ⟨issued, .refl⟩
  | call request next ih =>
      have performed : request.perform.on g = (_, _) := rfl
      obtain ⟨issued', later⟩ := ih (request.perform.on g).1 (request.perform.on g).2
        (Building.given (request.perform.on g).1 ++ issued) around
      rw [run, Builder.on_bind, Builder.on_observing]
      exact ⟨issued', .head (.call performed) later⟩
  | looped body next ihBody ih =>
      rw [run, Builder.on_bind, Builder.on_observing, Builder.on_looped]
      obtain ⟨issued', built⟩ := ihBody g.size (g.push (.loop none)).2 (g.size :: issued)
        (⟨g.size, next⟩ :: around)
      generalize (body g.size).run.on (g.push (.loop none)).2 = outcome at built ⊢
      obtain ⟨answer, after⟩ := outcome
      have entered := Relation.ReflTransGen.head .enter built
      cases answer with
      | ok inner =>
          obtain ⟨issued'', later⟩ := ih (.ok g.size) (after.close g.size inner) issued' around
          exact ⟨issued'', (entered.tail .close).trans later⟩
      | error error =>
          obtain ⟨issued'', later⟩ := ih (.error error) after issued' around
          exact ⟨issued'', (entered.tail .fail).trans later⟩

end Switchboard
