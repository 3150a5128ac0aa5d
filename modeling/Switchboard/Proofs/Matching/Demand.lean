import Mathlib.Logic.Relation
import Switchboard.Proofs.Matching.Language

/-!
# What matching asks for

A task is a goal with the tokens that remain for it.  `Serves g sub task` says
that matching the task may ask for the other one; the parts of a sequence are
asked for behind words of the earlier parts, and a channel of a product is asked
for every share that a tagged prefix gives it.

A task is grounded if no chain of such requests from it goes on for ever.  That
is the case wherever a word of the goal stands in front (`Spells.grounded`), and
a grounded task never leads back to itself.
-/

namespace Switchboard

abbrev Task : Type :=
  Goal × List String

inductive Serves (g : Grammar) : Task → Task → Prop
  | parts {id : NodeId} {ids : List NodeId} {rest : List String}
      (shape : g.node? id = some (.sequence ids)) : Serves g (.parts 0 ids, rest) (.node id, rest)
  | head {index : Nat} {part : NodeId} {ids : List NodeId} {rest : List String} :
      Serves g (.node part, rest) (.parts index (part :: ids), rest)
  | tail {index : Nat} {part : NodeId} {ids : List NodeId} {word rest : List String}
      (spelled : Spells g (.node part) word) :
      Serves g (.parts (index + 1) ids, rest) (.parts index (part :: ids), word ++ rest)
  | branch {id branch : NodeId} {branches : Keyed NodeId} {tag : String} {rest : List String}
      (shape : g.node? id = some (.choice branches)) (found : branches.find? tag = some branch) :
      Serves g (.node branch, rest) (.node id, tag :: rest)
  | body {id body : NodeId} {rest : List String} (shape : g.node? id = some (.loop (some body))) :
      Serves g (.node body, rest) (.node id, rest)
  | share {id : NodeId} {channels : Keyed NodeId} {e : String × NodeId} {taken rest : List String}
      (shape : g.node? id = some (.product channels)) (listed : e ∈ channels.entries)
      (front : taken <+: rest) (tagged : ∀ token ∈ taken, Tagged channels token) :
      Serves g (.node e.2, onChannel e.1 taken) (.node id, rest)

/-- No chain of requests that starts from the task goes on for ever. -/
abbrev Grounded (g : Grammar) : Task → Prop :=
  Acc (Serves g)

variable {g : Grammar}

theorem not_transGen_self_of_acc {α : Type} {r : α → α → Prop} {a : α} (acc : Acc r a) :
    ¬Relation.TransGen r a a := by
  intro cycle
  have below : Acc (Relation.TransGen r) a := acc.transGen
  clear acc
  induction below with
  | intro a _ ih => exact ih a cycle cycle

/-- A task that leads back to itself is not grounded. -/
theorem not_grounded_of_transGen_self {task : Task}
    (cycle : Relation.TransGen (Serves g) task task) : ¬Grounded g task :=
  fun grounded => not_transGen_self_of_acc grounded cycle

/-! ## Grounded tasks by shape -/

theorem grounded_iff {task : Task} :
    Grounded g task ↔ ∀ sub, Serves g sub task → Grounded g sub :=
  ⟨fun grounded _ serves => grounded.inv serves, Acc.intro task⟩

theorem grounded_node_iff {id : NodeId} {rest : List String} :
    Grounded g (.node id, rest) ↔
      match g.node? id with
      | some (.sequence ids) => Grounded g (.parts 0 ids, rest)
      | some (.choice branches) =>
          ∀ tag branch back, rest = tag :: back → branches.find? tag = some branch →
            Grounded g (.node branch, back)
      | some (.loop (some body)) => Grounded g (.node body, rest)
      | some (.product channels) =>
          ∀ e ∈ channels.entries, ∀ taken, taken <+: rest →
            (∀ token ∈ taken, Tagged channels token) →
            Grounded g (.node e.2, onChannel e.1 taken)
      | _ => True := by
  rw [grounded_iff]
  constructor
  · intro all
    split
    · rename_i ids shape
      exact all _ (.parts shape)
    · rename_i branches shape
      rintro tag branch back rfl found
      exact all _ (.branch shape found)
    · rename_i body shape
      exact all _ (.body shape)
    · rename_i channels shape
      intro e listed taken front tagged
      exact all _ (.share shape listed front tagged)
    · trivial
  · intro all sub serves
    cases serves with
    | parts shape =>
        rw [shape] at all
        exact all
    | branch shape found =>
        rw [shape] at all
        exact all _ _ _ rfl found
    | body shape =>
        rw [shape] at all
        exact all
    | share shape listed front tagged =>
        rw [shape] at all
        exact all _ listed _ front tagged

theorem grounded_nil {index : Nat} {rest : List String} : Grounded g (.parts index [], rest) :=
  grounded_iff.2 fun sub serves => by cases serves

theorem grounded_cons_iff {index : Nat} {part : NodeId} {ids : List NodeId} {rest : List String} :
    Grounded g (.parts index (part :: ids), rest) ↔
      Grounded g (.node part, rest) ∧
        ∀ word back, rest = word ++ back → Spells g (.node part) word →
          Grounded g (.parts (index + 1) ids, back) := by
  rw [grounded_iff]
  constructor
  · intro all
    refine ⟨all _ .head, ?_⟩
    rintro word back rfl spelled
    exact all _ (.tail spelled)
  · rintro ⟨head, tail⟩ sub serves
    cases serves with
    | head => exact head
    | tail spelled => exact tail _ _ rfl spelled

/-- Before, inside and behind a word, all that its goal asks for is grounded. -/
theorem Spells.grounded {goal : Goal} {word : List String} (h : Spells g goal word)
    {rest : List String} (near : Comparable rest word) : Grounded g (goal, rest) := by
  induction h generalizing rest with
  | emit shape =>
      rw [grounded_node_iff, shape]
      trivial
  | sequence shape _ ih =>
      rw [grounded_node_iff, shape]
      exact ih near
  | nil => exact grounded_nil
  | @cons index part ids front back head tail ihHead ihTail =>
      rw [grounded_cons_iff]
      constructor
      · exact ihHead (Comparable.of_append (s := []) (by rwa [List.append_nil]))
      · rintro word rest rfl spelled
        obtain rfl := spelled.eq_of_comparable head near.of_append
        exact ihTail near.cancel
  | @choice id branch branches tag word shape found _ ih =>
      rw [grounded_node_iff, shape]
      rintro tag' branch' back rfl found'
      obtain rfl : tag' = tag := by
        rcases near with near | near
        · exact (List.cons_prefix_cons.1 near).1
        · exact (List.cons_prefix_cons.1 near).1.symm
      obtain rfl : branch = branch' := Option.some.inj (found.symm.trans found')
      exact ih (Comparable.cancel (u := [tag']) near)
  | loop shape _ ih =>
      rw [grounded_node_iff, shape]
      exact ih near
  | product shape _ _ ih =>
      rw [grounded_node_iff, shape]
      intro e listed taken front _
      exact ih e listed ((near.mono_left front).filterMap _)

end Switchboard
