import Switchboard.Proofs.Grammar.Building
import Switchboard.Proofs.Grammar.Unfolding

/-!
# Grammars that are the same from a node on

Two grammars are the same from a node on when they hold the same nodes, or none,
wherever the references from that node lead (`Grammar.SameFrom`).  An unfolding
of the node cannot tell them apart.

A grammar that was taken with no loop under way stays as it was where it has
nodes: builders only append, and every loop that is still to be closed is newer
(`Building.Extends`).
-/

namespace Switchboard

open Relation (ReflTransGen)

namespace Grammar

variable {g g' : Grammar} {id other : NodeId}

def SameFrom (g g' : Grammar) (id : NodeId) : Prop :=
  ∀ other, ReflTransGen g.Refers id other → g'.node? other = g.node? other

namespace SameFrom

theorem below (h : g.SameFrom g' id) (edge : g.Refers id other) : g.SameFrom g' other :=
  fun far path => h far (path.head edge)

theorem references (h : g.SameFrom g' id) {node : Node} (shape : g.node? id = some node) :
    ∀ other ∈ node.references, g.SameFrom g' other :=
  fun _ mem => h.below ⟨node, shape, mem⟩

/-- The other grammar leads nowhere else. -/
theorem reaches (h : g.SameFrom g' id) (path : ReflTransGen g'.Refers id other) :
    ReflTransGen g.Refers id other := by
  induction path with
  | refl => exact .refl
  | @tail before other _ edge ih =>
      obtain ⟨node, shape, mem⟩ := edge
      exact ih.tail ⟨node, (h before ih).symm.trans shape, mem⟩

theorem symm (h : g.SameFrom g' id) : g'.SameFrom g id :=
  fun other path => (h other (h.reaches path)).symm

end SameFrom

/-- Ids that hold the references of all their nodes hold all that can be reached. -/
theorem mem_of_reached {ids : List NodeId}
    (closed : ∀ id ∈ ids, ∀ node ∈ g.node? id, ∀ other ∈ node.references, other ∈ ids)
    (start : id ∈ ids) (path : ReflTransGen g.Refers id other) : other ∈ ids := by
  induction path with
  | refl => exact start
  | tail _ edge ih =>
      obtain ⟨node, shape, mem⟩ := edge
      exact closed _ ih node shape _ mem

/-! ## Outlines -/

theorem mapM_congr {ids : List NodeId} {visit visit' : NodeId → Unfolding Outline}
    (same : ∀ id ∈ ids, visit id = visit' id) : ids.mapM visit = ids.mapM visit' := by
  induction ids with
  | nil => rfl
  | cons id rest ih =>
      rw [List.mapM_cons, List.mapM_cons, same id List.mem_cons_self,
        ih fun other mem => same other (List.mem_cons_of_mem _ mem)]

/-- An unfolding sees nothing but what can be reached. -/
theorem unfold_frame (same : g.SameFrom g' id) (depth : Nat) :
    g.unfold depth id = g'.unfold depth id := by
  induction depth generalizing id with
  | zero => rfl
  | succ depth ih =>
      funext seen
      show (g.unfold (depth + 1) id).run seen = (g'.unfold (depth + 1) id).run seen
      have here : g'.node? id = g.node? id := same id .refl
      rcases g.visit_cases id seen with absent | ⟨⟨body, shape⟩, met⟩ | ⟨node, shape, fresh⟩
      · rw [unfold_unknown absent, unfold_unknown (here.trans absent)]
      · rw [unfold_again ⟨body, shape⟩ met, unfold_again ⟨body, here.trans shape⟩ met]
      · rw [unfold_node shape fresh, unfold_node (here.trans shape) fresh,
          mapM_congr fun other mem => ih (same.references shape other mem)]

/-- A description is the same in every larger grammar that is the same from the node on. -/
theorem describe?_frame (same : g.SameFrom g' id) (le : g.size ≤ g'.size) {text : String}
    (described : g.describe? id = some text) : g'.describe? id = some text := by
  obtain ⟨o, outlined, rfl⟩ := Option.map_eq_some_iff.1 described
  obtain ⟨⟨_, seen⟩, run, rfl⟩ := Option.map_eq_some_iff.1 outlined
  have deep : g.outlineDepth ≤ g'.outlineDepth :=
    Nat.succ_le_succ (Nat.mul_le_mul (Nat.succ_le_succ le) (Nat.succ_le_succ le))
  obtain ⟨more, enough⟩ := Nat.exists_eq_add_of_le deep
  have run' := unfold_deeper run more
  rw [← enough, unfold_frame same] at run'
  rw [describe?, outline?, outlineWithLoops?, run']
  rfl

end Grammar

/-! ## Later moments -/

namespace Building

variable {b c : Building} {g : Grammar}

/-- The ids given so far are the indices of the nodes, however the ids are used. -/
theorem Step.issued (step : Step b c) (h : ∀ id, id ∈ b.issued ↔ id < b.grammar.size) :
    ∀ id, id ∈ c.issued ↔ id < c.grammar.size := by
  have push : ∀ {node : Node} (id : NodeId),
      id ∈ b.grammar.size :: b.issued ↔ id < (b.grammar.push node).2.size := by
    intro node id
    rw [List.mem_cons, h, Grammar.size_push]
    exact or_comm.trans Nat.lt_succ_iff_lt_or_eq.symm
  cases step with
  | @call before after issued request next around answer performed =>
      rcases request.perform_on before with ⟨node, _, appended⟩ | ⟨error, failed⟩
      · cases performed.symm.trans appended
        exact push
      · cases performed.symm.trans failed
        exact h
  | enter => exact push
  | close =>
      intro id
      rw [Grammar.size_close]
      exact h id
  | fail => exact h

theorem issued_iff {script : Script} (reached : (start script).Reaches b) :
    ∀ id, id ∈ b.issued ↔ id < b.grammar.size := by
  induction reached with
  | refl => exact (start_sound script).issued
  | tail _ step ih => exact step.issued ih

/-- A moment that has the nodes of a grammar as they were, and no loop under way among
them. -/
structure Extends (g : Grammar) (b : Building) : Prop where
  larger : g.size ≤ b.grammar.size
  kept : ∀ id < g.size, b.grammar.node? id = g.node? id
  newer : ∀ unfinished ∈ b.around, g.size ≤ unfinished.loop

theorem extends_self (idle : b.around = []) : Extends b.grammar b where
  larger := Nat.le_refl _
  kept _ _ := rfl
  newer unfinished mem := by
    rw [idle] at mem
    cases mem

theorem Extends.push (h : Extends g b) (node : Node) {issued : List NodeId} {script : Script}
    {around : List Unfinished} (newer : ∀ unfinished ∈ around, g.size ≤ unfinished.loop) :
    Extends g ⟨(b.grammar.push node).2, issued, script, around⟩ where
  larger := by
    rw [Grammar.size_push]
    exact Nat.le_succ_of_le h.larger
  kept id old := by
    have ne : id ≠ b.grammar.size := (old.trans_le h.larger).ne
    exact (Grammar.node?_push id).trans ((if_neg ne).trans (h.kept id old))
  newer := newer

/-- Appending, and closing a loop that is newer, leaves the nodes of the grammar alone. -/
theorem Step.extends (step : Step b c) (h : Extends g b) : Extends g c := by
  cases step with
  | @call before after issued request next around answer performed =>
      rcases request.perform_on before with ⟨node, _, appended⟩ | ⟨error, failed⟩
      · cases performed.symm.trans appended
        exact h.push node h.newer
      · cases performed.symm.trans failed
        exact ⟨h.larger, h.kept, h.newer⟩
  | enter => exact h.push (.loop none) (List.forall_mem_cons.2 ⟨h.larger, h.newer⟩)
  | @close before issued inner unfinished around =>
      obtain ⟨own, newer⟩ := List.forall_mem_cons.1 h.newer
      refine ⟨?_, fun id old => ?_, newer⟩
      · show g.size ≤ (before.close unfinished.loop inner).size
        rw [Grammar.size_close]
        exact h.larger
      · have ne : unfinished.loop ≠ id := (old.trans_le own).ne'
        exact (Array.getElem?_setIfInBounds_ne ne).trans (h.kept id old)
  | fail => exact ⟨h.larger, h.kept, (List.forall_mem_cons.1 h.newer).2⟩

theorem extends_of_reaches (idle : b.around = []) (later : b.Reaches c) :
    Extends b.grammar c := by
  induction later with
  | refl => exact extends_self idle
  | tail _ step ih => exact step.extends ih

theorem Extends.sameFrom (h : Extends g b) {id : NodeId}
    (inside : ∀ other, ReflTransGen g.Refers id other → other < g.size) :
    g.SameFrom b.grammar id :=
  fun other path => h.kept other (inside other path)

end Building

end Switchboard
