import Switchboard.Grammar.Outline
import Switchboard.Proofs.Grammar.Cycles

/-!
# Unfolding

A visit follows one rule for nodes of every kind: a loop that was met before is
only referred to, and otherwise the references are visited in order, the loops
met so far carried from one to the next.  `Unfolds` is that rule as a relation.
In a loop-guarded grammar every visit returns, since below a node that is no
loop the rank falls, and below a loop one loop fewer has still to be met.
-/

namespace Switchboard

namespace Node

/-- The outline of a node from the outlines of its references. -/
def outlined (id : NodeId) : Node → List Outline → Outline
  | .emit token, _ => .emit token
  | .sequence _, parts => .sequence parts
  | .choice table, parts => .choice (table.names.zip parts)
  | .product table, parts => .product (table.names.zip parts)
  | .loop _, parts => .loop id parts.head?

/-- The loops met when the references of a node are visited. -/
def entered (id : NodeId) (node : Node) (seen : List NodeId) : List NodeId :=
  if node.isLoop then id :: seen else seen

theorem mem_entered {id other : NodeId} {node : Node} {seen : List NodeId} :
    other ∈ node.entered id seen ↔ node.isLoop = true ∧ other = id ∨ other ∈ seen := by
  rw [entered]
  by_cases loop : node.isLoop = true
  · simp [loop]
  · simp [loop]

theorem subset_entered (id : NodeId) (node : Node) (seen : List NodeId) :
    seen ⊆ node.entered id seen :=
  fun _ mem => mem_entered.2 (Or.inr mem)

end Node

namespace Grammar

variable {g : Grammar} {id : NodeId} {ids seen seen' : List NodeId} {depth : Nat}
variable {o : Outline} {os : List Outline} {visit visit' : NodeId → Unfolding Outline}

/-! ## One visit -/

theorem isLoop_of_shape {node : Node} (shape : g.node? id = some node)
    (loop : node.isLoop = true) : g.IsLoop id := by
  cases node with
  | loop body => exact ⟨body, shape⟩
  | _ => cases loop

theorem mapM_unfoldEntry (visit : NodeId → Unfolding Outline) (entries : List (String × NodeId)) :
    entries.mapM (unfoldEntry visit) =
      ((entries.map (·.1)).zip ·) <$> (entries.map (·.2)).mapM visit := by
  induction entries with
  | nil => rfl
  | cons entry rest ih =>
      simp only [List.mapM_cons, List.map_cons, ih, unfoldEntry, map_eq_pure_bind, bind_assoc,
        pure_bind, List.zip_cons_cons]

/-- The three ways a visit can go. -/
theorem visit_cases (g : Grammar) (id : NodeId) (seen : List NodeId) :
    g.node? id = none ∨ (g.IsLoop id ∧ id ∈ seen) ∨
      ∃ node, g.node? id = some node ∧ (node.isLoop = true → id ∉ seen) := by
  cases shape : g.node? id with
  | none => exact Or.inl rfl
  | some node =>
      by_cases back : node.isLoop = true ∧ id ∈ seen
      · exact Or.inr (Or.inl ⟨isLoop_of_shape shape back.1, back.2⟩)
      · exact Or.inr (Or.inr ⟨node, rfl, fun loop met => back ⟨loop, met⟩⟩)

theorem unfold_unknown (absent : g.node? id = none) :
    (g.unfold (depth + 1) id).run seen = some (.unknown id, seen) := by
  rw [unfold, absent]
  rfl

theorem unfold_again (loop : g.IsLoop id) (met : id ∈ seen) :
    (g.unfold (depth + 1) id).run seen = some (.again id, seen) := by
  obtain ⟨body, shape⟩ := loop
  rw [unfold, shape]
  simp [met]

/-- Nodes of every kind are visited alike. -/
theorem unfold_node {node : Node} (shape : g.node? id = some node)
    (fresh : node.isLoop = true → id ∉ seen) :
    (g.unfold (depth + 1) id).run seen =
      ((node.references.mapM (g.unfold depth)).run (node.entered id seen)).map
        fun visited => (node.outlined id visited.1, visited.2) := by
  rw [unfold, shape]
  cases node with
  | emit token => rfl
  | sequence parts => simp [Node.isLoop, Node.references, Node.outlined, Node.entered]
  | choice table =>
      simp [Node.isLoop, Node.references, Node.outlined, Node.entered, Keyed.names,
        mapM_unfoldEntry]
  | product table =>
      simp [Node.isLoop, Node.references, Node.outlined, Node.entered, Keyed.names,
        mapM_unfoldEntry]
  | loop body =>
      have unmet : id ∉ seen := fresh rfl
      cases body with
      | none => simp [Node.isLoop, Node.references, Node.outlined, Node.entered, unmet]
      | some body =>
          simp [Node.isLoop, Node.references, Node.outlined, Node.entered, unmet,
            Function.comp_def]

/-! ## One visit after the other -/

theorem mapM_cons_run_iff {rest : List NodeId} :
    ((id :: rest).mapM visit).run seen = some (os, seen') ↔
      ∃ o mid others, (visit id).run seen = some (o, mid) ∧
        (rest.mapM visit).run mid = some (others, seen') ∧ os = o :: others := by
  simp only [List.mapM_cons, StateT.run_bind, StateT.run_pure, Option.bind_eq_bind,
    Option.bind_eq_some_iff, Option.pure_def, Option.some.injEq, Prod.exists, Prod.mk.injEq]
  constructor
  · rintro ⟨o, mid, first, others, _, later, rfl, rfl⟩
    exact ⟨o, mid, others, first, later, rfl⟩
  · rintro ⟨o, mid, others, first, later, rfl⟩
    exact ⟨o, mid, first, others, seen', later, rfl, rfl⟩

/-- Unfolding nodes one after the other, the loops met so far carried along. -/
inductive Unfolds (g : Grammar) :
    List NodeId → List NodeId → List Outline → List NodeId → Prop
  | nil {seen : List NodeId} : Unfolds g seen [] [] seen
  | unknown {id : NodeId} {seen rest seen' : List NodeId} {others : List Outline}
      (absent : g.node? id = none) (later : Unfolds g seen rest others seen') :
      Unfolds g seen (id :: rest) (.unknown id :: others) seen'
  | again {id : NodeId} {seen rest seen' : List NodeId} {others : List Outline}
      (loop : g.IsLoop id) (met : id ∈ seen) (later : Unfolds g seen rest others seen') :
      Unfolds g seen (id :: rest) (.again id :: others) seen'
  | node {id : NodeId} {seen mid rest seen' : List NodeId} {parts others : List Outline}
      {node : Node} (shape : g.node? id = some node) (fresh : node.isLoop = true → id ∉ seen)
      (inside : Unfolds g (node.entered id seen) node.references parts mid)
      (later : Unfolds g mid rest others seen') :
      Unfolds g seen (id :: rest) (node.outlined id parts :: others) seen'

theorem unfolds_of_run (h : (ids.mapM (g.unfold depth)).run seen = some (os, seen')) :
    Unfolds g seen ids os seen' := by
  induction depth generalizing ids seen os seen' with
  | zero =>
      cases ids with
      | nil =>
          cases h
          exact .nil
      | cons id rest =>
          obtain ⟨o, mid, others, first, -⟩ := mapM_cons_run_iff.1 h
          cases first
  | succ depth ih =>
      induction ids generalizing seen os with
      | nil =>
          cases h
          exact .nil
      | cons id rest ihRest =>
          obtain ⟨o, mid, others, first, later, rfl⟩ := mapM_cons_run_iff.1 h
          rcases g.visit_cases id seen with absent | ⟨loop, met⟩ | ⟨node, shape, fresh⟩
          · rw [unfold_unknown absent] at first
            cases first
            exact .unknown absent (ihRest later)
          · rw [unfold_again loop met] at first
            cases first
            exact .again loop met (ihRest later)
          · rw [unfold_node shape fresh] at first
            obtain ⟨⟨parts, mid'⟩, inside, same⟩ := Option.map_eq_some_iff.1 first
            cases same
            exact .node shape fresh (ih inside) (ihRest later)

theorem unfolds_of_unfold (h : (g.unfold depth id).run seen = some (o, seen')) :
    Unfolds g seen [id] [o] seen' :=
  unfolds_of_run (mapM_cons_run_iff.2 ⟨o, seen', [], h, rfl, rfl⟩)

namespace Unfolds

/-- The loops met so far are never forgotten. -/
theorem subset (h : Unfolds g seen ids os seen') : seen ⊆ seen' := by
  induction h with
  | nil => exact List.Subset.refl _
  | unknown _ _ ih => exact ih
  | again _ _ _ ih => exact ih
  | @node id seen _ _ _ _ _ node _ _ _ _ ihInside ihLater =>
      exact List.Subset.trans (List.Subset.trans (node.subset_entered id seen) ihInside) ihLater

/-- No loop is met twice. -/
theorem nodup (h : Unfolds g seen ids os seen') (once : seen.Nodup) : seen'.Nodup := by
  induction h with
  | nil => exact once
  | unknown _ _ ih => exact ih once
  | again _ _ _ ih => exact ih once
  | @node id seen _ _ _ _ _ node _ fresh _ _ ihInside ihLater =>
      refine ihLater (ihInside ?_)
      rw [Node.entered]
      split
      · next loop => exact List.nodup_cons.2 ⟨fresh loop, once⟩
      · exact once

theorem length_eq (h : Unfolds g seen ids os seen') : os.length = ids.length := by
  induction h with
  | nil => rfl
  | unknown _ _ ih => exact congrArg (· + 1) ih
  | again _ _ _ ih => exact congrArg (· + 1) ih
  | node _ _ _ _ _ ihLater => exact congrArg (· + 1) ihLater

end Unfolds

/-! ## Depth -/

theorem mapM_run_mono {visited : List Outline × List NodeId}
    (more : ∀ id ∈ ids, ∀ seen visited, (visit id).run seen = some visited →
      (visit' id).run seen = some visited)
    (h : (ids.mapM visit).run seen = some visited) : (ids.mapM visit').run seen = some visited := by
  induction ids generalizing seen visited with
  | nil => exact h
  | cons id rest ih =>
      obtain ⟨o, mid, others, first, later, same⟩ := mapM_cons_run_iff.1 h
      refine mapM_cons_run_iff.2 ⟨o, mid, others, more id List.mem_cons_self _ _ first, ?_, same⟩
      exact ih (fun id mem => more id (List.mem_cons_of_mem _ mem)) later

/-- A greater depth changes no result. -/
theorem unfold_deeper {visited : Outline × List NodeId}
    (h : (g.unfold depth id).run seen = some visited) (more : Nat) :
    (g.unfold (depth + more) id).run seen = some visited := by
  induction depth generalizing id seen visited with
  | zero => cases h
  | succ depth ih =>
      rw [Nat.add_right_comm]
      rcases g.visit_cases id seen with absent | ⟨loop, met⟩ | ⟨node, shape, fresh⟩
      · rw [unfold_unknown absent] at h ⊢
        exact h
      · rw [unfold_again loop met] at h ⊢
        exact h
      · rw [unfold_node shape fresh] at h ⊢
        obtain ⟨parts, inside, same⟩ := Option.map_eq_some_iff.1 h
        have inside' := mapM_run_mono (fun _ _ _ _ first => ih first) inside
        exact Option.map_eq_some_iff.2 ⟨parts, inside', same⟩

theorem mapM_returns (returns : ∀ id ∈ ids, ∀ mid, seen ⊆ mid →
      ∃ o seen', (visit id).run mid = some (o, seen') ∧ mid ⊆ seen') :
    ∃ os seen', (ids.mapM visit).run seen = some (os, seen') := by
  induction ids generalizing seen with
  | nil => exact ⟨[], seen, rfl⟩
  | cons id rest ih =>
      obtain ⟨o, mid, first, kept⟩ :=
        returns id List.mem_cons_self seen (List.Subset.refl _)
      obtain ⟨others, seen', later⟩ := ih fun other mem mid' sub =>
        returns other (List.mem_cons_of_mem _ mem) mid' (List.Subset.trans kept sub)
      exact ⟨o :: others, seen', mapM_cons_run_iff.2 ⟨o, mid, others, first, later, rfl⟩⟩

/-- The nodes that are not yet among the loops met. -/
def unmet (g : Grammar) (seen : List NodeId) : Finset NodeId :=
  (Finset.range g.size).filter (· ∉ seen)

theorem mem_unmet : id ∈ g.unmet seen ↔ id < g.size ∧ id ∉ seen := by
  rw [unmet, Finset.mem_filter, Finset.mem_range]

theorem unmet_card_le (sub : seen ⊆ seen') : (g.unmet seen').card ≤ (g.unmet seen).card := by
  refine Finset.card_le_card fun id mem => ?_
  obtain ⟨inside, fresh⟩ := mem_unmet.1 mem
  exact mem_unmet.2 ⟨inside, fun met => fresh (sub met)⟩

theorem unmet_card_lt (inside : id < g.size) (fresh : id ∉ seen) :
    (g.unmet (id :: seen)).card < (g.unmet seen).card := by
  refine Finset.card_lt_card (Finset.ssubset_iff_of_subset ?_ |>.2 ⟨id, ?_, ?_⟩)
  · intro other mem
    obtain ⟨inside', fresh'⟩ := mem_unmet.1 mem
    exact mem_unmet.2 ⟨inside', fun met => fresh' (List.mem_cons_of_mem _ met)⟩
  · exact mem_unmet.2 ⟨inside, fresh⟩
  · exact fun mem => (mem_unmet.1 mem).2 List.mem_cons_self

/-- How deep the unfolding of a node can go: for each loop that it can still meet down
to that loop, and then down to a node that refers to none. -/
noncomputable def descent (g : Grammar) (seen : List NodeId) (id : NodeId) : Nat :=
  (g.unmet seen).card * (g.size + 1) + g.rank id + 1

/-- The references of a visited node need less depth. -/
theorem descent_lt (guarded : g.LoopGuarded) {node : Node} (shape : g.node? id = some node)
    (fresh : node.isLoop = true → id ∉ seen) {other : NodeId} (mem : other ∈ node.references)
    (sub : node.entered id seen ⊆ seen') : g.descent seen' other < g.descent seen id := by
  rw [descent, descent]
  have fewer := Nat.mul_le_mul_right (g.size + 1) (unmet_card_le (g := g) sub)
  rw [Node.entered] at fewer
  by_cases loop : node.isLoop = true
  · rw [if_pos loop] at fewer
    have one := Nat.mul_le_mul_right (g.size + 1)
      (unmet_card_lt (lt_size_of_node? shape) (fresh loop))
    rw [Nat.succ_mul] at one
    have bounded := g.rank_le other
    omega
  · rw [if_neg loop] at fewer
    have falls := rank_lt guarded (Bare.of_shape shape (Bool.eq_false_iff.2 loop) mem)
    omega

theorem unfold_returns (guarded : g.LoopGuarded) (enough : g.descent seen id ≤ depth) :
    ∃ o seen', (g.unfold depth id).run seen = some (o, seen') := by
  induction depth generalizing id seen with
  | zero => exact absurd enough (Nat.not_succ_le_zero _)
  | succ depth ih =>
      rcases g.visit_cases id seen with absent | ⟨loop, met⟩ | ⟨node, shape, fresh⟩
      · exact ⟨_, _, unfold_unknown absent⟩
      · exact ⟨_, _, unfold_again loop met⟩
      · have returns : ∀ other ∈ node.references, ∀ mid, node.entered id seen ⊆ mid →
            ∃ o seen', (g.unfold depth other).run mid = some (o, seen') ∧ mid ⊆ seen' := by
          intro other mem mid sub
          have less := descent_lt guarded shape fresh mem sub
          obtain ⟨o, seen', first⟩ := ih (Nat.le_of_lt_succ (less.trans_le enough))
          exact ⟨o, seen', first, (unfolds_of_unfold first).subset⟩
        obtain ⟨parts, seen', inside⟩ := mapM_returns returns
        rw [unfold_node shape fresh, inside]
        exact ⟨_, _, rfl⟩

theorem descent_le_outlineDepth (g : Grammar) (id : NodeId) :
    g.descent [] id ≤ g.outlineDepth := by
  have few : (g.unmet []).card ≤ g.size :=
    (Finset.card_le_card (Finset.filter_subset _ _)).trans_eq (Finset.card_range g.size)
  have product := Nat.mul_le_mul_right (g.size + 1) few
  have bounded := g.rank_le id
  rw [descent, outlineDepth, Nat.succ_mul (g.size)]
  omega

/-- In a loop-guarded grammar every node has a description. -/
theorem exists_describe? (guarded : g.LoopGuarded) (id : NodeId) :
    ∃ text, g.describe? id = some text := by
  obtain ⟨o, seen, run⟩ := unfold_returns guarded (g.descent_le_outlineDepth id)
  refine ⟨o.render, ?_⟩
  rw [describe?, outline?, outlineWithLoops?, run]
  rfl

end Grammar

end Switchboard
