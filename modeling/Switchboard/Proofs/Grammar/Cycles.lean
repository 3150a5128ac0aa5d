import Mathlib.Data.Finset.Card
import Mathlib.Data.Finset.Range
import Mathlib.Logic.Relation
import Switchboard.Grammar

/-!
# Cycles of references

In a loop-guarded grammar every cycle of references passes through a loop.  Its
nodes have a rank, which falls along every reference from a node that is no loop
and is at most the size of the grammar.
-/

namespace Switchboard

namespace Grammar

def Refers (g : Grammar) (id other : NodeId) : Prop :=
  ∃ node, g.node? id = some node ∧ other ∈ node.references

def IsLoop (g : Grammar) (id : NodeId) : Prop :=
  ∃ body, g.node? id = some (.loop body)

/-- A reference from a node that is no loop. -/
def Bare (g : Grammar) (id other : NodeId) : Prop :=
  g.Refers id other ∧ ¬g.IsLoop id

/-- Every cycle of references passes through a loop. -/
def LoopGuarded (g : Grammar) : Prop :=
  ∀ id, ¬Relation.TransGen g.Bare id id

variable {g : Grammar} {id other : NodeId}

theorem lt_size_of_node? {node : Node} (h : g.node? id = some node) : id < g.size := by
  obtain ⟨inside, _⟩ := Array.getElem?_eq_some_iff.1 h
  exact inside

theorem Bare.of_shape {node : Node} (shape : g.node? id = some node) (noLoop : node.isLoop = false)
    (mem : other ∈ node.references) : g.Bare id other := by
  refine ⟨⟨node, shape, mem⟩, ?_⟩
  rintro ⟨body, shape'⟩
  obtain rfl := Option.some.inj (shape.symm.trans shape')
  cases noLoop

/-- A grammar whose references outside loops all point to earlier nodes is loop
guarded. -/
theorem loopGuarded_of_descending
    (descending : ∀ id < g.size, ∀ node ∈ g.node? id, node.isLoop = false →
      ∀ other ∈ node.references, other < id) : g.LoopGuarded := by
  have edge_lt : ∀ {a b}, g.Bare a b → b < a := by
    rintro a b ⟨⟨node, shape, mem⟩, noLoop⟩
    refine descending a (lt_size_of_node? shape) node shape ?_ b mem
    cases node with
    | loop body => exact (noLoop ⟨body, shape⟩).elim
    | _ => rfl
  have falls : ∀ {a b}, Relation.TransGen g.Bare a b → b < a := by
    intro a b path
    induction path with
    | single edge => exact edge_lt edge
    | tail _ edge ih => exact Nat.lt_trans (edge_lt edge) ih
  exact fun id cycle => Nat.lt_irrefl id (falls cycle)

/-- The tags that begin a round anew or end the rounds. -/
def roundTags : Keyed NodeId :=
  Keyed.ofList [("again", 0), ("stop", 1)]

/-- Rounds, a loop that comes back to itself with nothing consumed, and the rounds
side by side with a farewell. -/
def rounds : Grammar :=
  ⟨#[.loop (some 2), .emit "bye", .choice roundTags, .loop (some 4), .sequence [3],
    .product (Keyed.ofList [("left", 0), ("right", 1)])]⟩

theorem rounds_again : roundTags.find? "again" = some 0 := by decide

theorem rounds_stop : roundTags.find? "stop" = some 1 := by decide

theorem rounds_loopGuarded : rounds.LoopGuarded :=
  loopGuarded_of_descending (by decide)

open Classical in
/-- The nodes that a node reaches without leaving a loop on the way. -/
noncomputable def bareReach (g : Grammar) (id : NodeId) : Finset NodeId :=
  (Finset.range g.size).filter (Relation.ReflTransGen g.Bare id)

noncomputable def rank (g : Grammar) (id : NodeId) : Nat :=
  (g.bareReach id).card

theorem mem_bareReach : other ∈ g.bareReach id ↔
    other < g.size ∧ Relation.ReflTransGen g.Bare id other := by
  classical
  rw [bareReach, Finset.mem_filter, Finset.mem_range]

theorem rank_le (g : Grammar) (id : NodeId) : g.rank id ≤ g.size := by
  have inside : g.bareReach id ⊆ Finset.range g.size :=
    fun _ mem => Finset.mem_range.2 (mem_bareReach.1 mem).1
  exact (Finset.card_le_card inside).trans_eq (Finset.card_range g.size)

/-- A node is reached from itself, but not from where a bare edge leads. -/
theorem rank_lt (guarded : g.LoopGuarded) (edge : g.Bare id other) :
    g.rank other < g.rank id := by
  refine Finset.card_lt_card (Finset.ssubset_iff_of_subset ?_ |>.2 ⟨id, ?_, ?_⟩)
  · intro reached mem
    obtain ⟨inside, path⟩ := mem_bareReach.1 mem
    exact mem_bareReach.2 ⟨inside, path.head edge⟩
  · obtain ⟨⟨node, shape, _⟩, _⟩ := edge
    exact mem_bareReach.2 ⟨lt_size_of_node? shape, .refl⟩
  · intro mem
    exact guarded id (Relation.TransGen.head' edge (mem_bareReach.1 mem).2)

end Grammar

end Switchboard
