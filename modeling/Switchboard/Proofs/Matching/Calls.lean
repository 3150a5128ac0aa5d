import Mathlib.Data.List.TakeDrop
import Switchboard.Matching.Plain
import Switchboard.Proofs.Grammar.Cycles
import Switchboard.Proofs.Matching.Language

/-!
# The calls of a match

A `Call` is one place where a node is matched, with the loops open around it.
`Callee g c' c` says that the rule for the first call may make the second one.

In a loop-guarded grammar the relation is well founded.  Every call makes
`nesting` smaller: the text that remains never grows; while it stays the same,
every loop is opened at most once, and between two loops the rank falls.  A
share has less text than what it was taken from, unless both are empty; then the
loops open around the product are still refused inside it.
-/

namespace Switchboard

structure Call where
  scope : Scope
  active : Active
  node : NodeId
  position : Nat

namespace Call

/-- The call that matches a whole transcript. -/
def outermost (tokens : List String) (id : NodeId) : Call :=
  ⟨.outermost tokens, [], id, 0⟩

def rest (c : Call) : List String :=
  c.scope.tokens.drop c.position

/-- No position of the call lies beyond the tokens of its scope. -/
def InBounds (c : Call) : Prop :=
  c.position ≤ c.scope.tokens.length ∧ ∀ entry ∈ c.active, entry.2 ≤ c.scope.tokens.length

theorem outermost_inBounds (tokens : List String) (id : NodeId) : (outermost tokens id).InBounds :=
  ⟨Nat.zero_le _, fun _ mem => (List.not_mem_nil mem).elim⟩

end Call

inductive Callee (g : Grammar) : Call → Call → Prop
  | part {s : Scope} {active : Active} {id part : NodeId} {ids : List NodeId} {position next : Nat}
      (shape : g.node? id = some (.sequence ids)) (listed : part ∈ ids) (behind : position ≤ next)
      (inside : next ≤ s.tokens.length) : Callee g ⟨s, active, part, next⟩ ⟨s, active, id, position⟩
  | branch {s : Scope} {active : Active} {id branch : NodeId} {branches : Keyed NodeId}
      {position : Nat} (shape : g.node? id = some (.choice branches))
      (read : s.tokens[position]?.bind branches.find? = some branch) :
      Callee g ⟨s, active, branch, position + 1⟩ ⟨s, active, id, position⟩
  | body {s : Scope} {active : Active} {id body : NodeId} {position : Nat}
      (shape : g.node? id = some (.loop (some body)))
      (fresh : s.reentered active id position = false) :
      Callee g ⟨s, (id, position) :: active, body, position⟩ ⟨s, active, id, position⟩
  | share {s : Scope} {active : Active} {id : NodeId} {channels : Keyed NodeId}
      {e : String × NodeId} {taken : List String} {position : Nat}
      (shape : g.node? id = some (.product channels)) (listed : e ∈ channels.entries)
      (front : taken <+: s.tokens.drop position) :
      Callee g ⟨⟨onChannel e.1 taken, s.openLoops active⟩, [], e.2, 0⟩ ⟨s, active, id, position⟩

variable {g : Grammar}

/-- Calls out of a call in bounds stay in bounds. -/
theorem Callee.inBounds {c' c : Call} (h : Callee g c' c) (bounds : c.InBounds) : c'.InBounds := by
  obtain ⟨inside, open_⟩ := bounds
  cases h with
  | part _ _ _ inside' => exact ⟨inside', open_⟩
  | branch _ read =>
      obtain ⟨tag, read, _⟩ := Option.bind_eq_some_iff.1 read
      obtain ⟨inside, _⟩ := List.getElem?_eq_some_iff.1 read
      exact ⟨inside, open_⟩
  | body _ _ =>
      refine ⟨inside, fun entry mem => ?_⟩
      rcases List.mem_cons.1 mem with rfl | mem
      · exact inside
      · exact open_ entry mem
  | share _ _ _ => exact ⟨Nat.zero_le _, fun _ mem => (List.not_mem_nil mem).elim⟩

/-! ## Text that remains -/

namespace Grammar

@[simp] theorem weight_nil : weight [] = 0 := rfl

@[simp] theorem weight_cons (token : String) (rest : List String) :
    weight (token :: rest) = token.length + 1 + weight rest := rfl

@[simp] theorem weight_append (u v : List String) : weight (u ++ v) = weight u + weight v := by
  induction u with
  | nil => rw [List.nil_append, weight_nil, Nat.zero_add]
  | cons token u ih =>
      rw [List.cons_append, weight_cons, weight_cons, ih]
      omega

theorem weight_pos {tokens : List String} (h : tokens ≠ []) : 0 < weight tokens := by
  cases tokens with
  | nil => exact (h rfl).elim
  | cons token rest =>
      rw [weight_cons]
      omega

theorem weight_onChannel_le (channel : String) (tokens : List String) :
    weight (onChannel channel tokens) + tokens.length ≤ weight tokens := by
  induction tokens with
  | nil => exact Nat.le_refl _
  | cons token rest ih =>
      rw [weight_cons, List.length_cons]
      cases carried : carried? channel token with
      | none =>
          rw [onChannel, List.filterMap_cons_none carried, ← onChannel]
          omega
      | some value =>
          obtain ⟨rfl, _⟩ := carried?_eq_some_iff.1 carried
          rw [onChannel, List.filterMap_cons_some carried, ← onChannel, weight_cons,
            String.length_append, String.length_append]
          have slash : ("/" : String).length = 1 := rfl
          omega

theorem weight_share_le {channel : String} {taken rest : List String} (front : taken <+: rest) :
    weight (onChannel channel taken) ≤ weight rest := by
  obtain ⟨more, rfl⟩ := front
  have bound := weight_onChannel_le channel taken
  rw [weight_append]
  omega

/-- A share has less text than the tokens it was taken from. -/
theorem weight_share_lt {channel : String} {taken rest : List String} (front : taken <+: rest)
    (some_ : rest ≠ []) : weight (onChannel channel taken) < weight rest := by
  obtain ⟨more, rfl⟩ := front
  have bound := weight_onChannel_le channel taken
  rw [weight_append]
  cases taken with
  | nil =>
      have positive := weight_pos some_
      rw [onChannel, List.filterMap_nil, weight_nil, Nat.zero_add]
      exact positive
  | cons token back =>
      rw [List.length_cons] at bound
      omega

theorem weight_drop_le (tokens : List String) {position next : Nat} (behind : position ≤ next) :
    weight (tokens.drop next) ≤ weight (tokens.drop position) := by
  have split := List.take_append_drop (next - position) (tokens.drop position)
  rw [List.drop_drop, Nat.add_sub_cancel' behind] at split
  rw [← split, weight_append]
  exact Nat.le_add_left _ _

theorem weight_drop_lt {tokens : List String} {position next : Nat} (behind : position < next)
    (inside : next ≤ tokens.length) : weight (tokens.drop next) < weight (tokens.drop position) := by
  have split : tokens.drop position =
      (tokens.drop position).take (next - position) ++ tokens.drop next := by
    have eq := List.take_append_drop (next - position) (tokens.drop position)
    rw [List.drop_drop, Nat.add_sub_cancel' behind.le] at eq
    exact eq.symm
  have some_ : (tokens.drop position).take (next - position) ≠ [] := by
    apply List.ne_nil_of_length_pos
    rw [List.length_take, List.length_drop]
    omega
  have positive := weight_pos some_
  rw [split, weight_append]
  omega

end Grammar

/-! ## How deep calls are nested -/

/-- The loops that are not refused at a call. -/
def unopened (g : Grammar) (c : Call) : Finset NodeId :=
  (Finset.range g.size).filter fun id => c.scope.reentered c.active id c.position = false

/-- A bound on the number of calls that are nested below a call. -/
noncomputable def nesting (g : Grammar) (c : Call) : Nat :=
  Grammar.weight c.rest * ((g.size + 1) * (g.size + 1)) +
    (unopened g c).card * (g.size + 1) + g.rank c.node

theorem unopened_card_le (g : Grammar) (c : Call) : (unopened g c).card ≤ g.size :=
  (Finset.card_filter_le _ _).trans_eq (Finset.card_range g.size)

section Nesting

variable {c c' : Call}

/-- Less text outweighs all that the loops and the ranks can add. -/
theorem nesting_lt_of_weight_lt {total : Nat} (less : Grammar.weight c.rest < total) :
    nesting g c < total * ((g.size + 1) * (g.size + 1)) := by
  have low := g.rank_le c.node
  have inner := Nat.mul_le_mul_right (g.size + 1) (unopened_card_le g c)
  have outer := Nat.mul_le_mul_right ((g.size + 1) * (g.size + 1)) (Nat.succ_le_of_lt less)
  have square : (g.size + 1) * (g.size + 1) = g.size * (g.size + 1) + (g.size + 1) :=
    Nat.succ_mul _ _
  rw [Nat.succ_mul] at outer
  unfold nesting
  omega

theorem nesting_lt_of_weight (less : Grammar.weight c'.rest < Grammar.weight c.rest) :
    nesting g c' < nesting g c := by
  have bound := nesting_lt_of_weight_lt (g := g) less
  rw [nesting.eq_def g c]
  omega

theorem nesting_lt_of_unopened (same : Grammar.weight c'.rest = Grammar.weight c.rest)
    (less : (unopened g c').card < (unopened g c).card) : nesting g c' < nesting g c := by
  have low := g.rank_le c'.node
  have step := Nat.mul_le_mul_right (g.size + 1) (Nat.succ_le_of_lt less)
  unfold nesting
  rw [same]
  rw [Nat.succ_mul] at step
  omega

theorem nesting_lt_of_rank (same : Grammar.weight c'.rest = Grammar.weight c.rest)
    (fewer : (unopened g c').card ≤ (unopened g c).card)
    (less : g.rank c'.node < g.rank c.node) : nesting g c' < nesting g c := by
  have step := Nat.mul_le_mul_right (g.size + 1) fewer
  unfold nesting
  rw [same]
  omega

theorem unopened_mono
    (stays : ∀ id, c.scope.reentered c.active id c.position = true →
      c'.scope.reentered c'.active id c'.position = true) :
    unopened g c' ⊆ unopened g c := by
  intro id mem
  obtain ⟨inside, fresh⟩ := Finset.mem_filter.1 mem
  refine Finset.mem_filter.2 ⟨inside, Bool.eq_false_iff.2 fun was => ?_⟩
  rw [stays id was] at fresh
  cases fresh

/-- Every call made is nested less deep than the call that makes it.  Before a part tokens were
consumed, or its rank is lower; a body has one more loop open; a share has less text, unless
both are empty, and then the same loops are refused in it and its rank is lower. -/
theorem Callee.nesting_lt (guarded : g.LoopGuarded) (h : Callee g c' c) :
    nesting g c' < nesting g c := by
  cases h with
  | @part s active id part ids position next shape listed behind inside =>
      rcases Nat.lt_or_eq_of_le behind with behind | rfl
      · exact nesting_lt_of_weight (Grammar.weight_drop_lt behind inside)
      · exact nesting_lt_of_rank rfl (Nat.le_refl _)
          (Grammar.rank_lt guarded (.of_shape shape rfl listed))
  | @branch s active id branch branches position shape read =>
      obtain ⟨tag, read, _⟩ := Option.bind_eq_some_iff.1 read
      obtain ⟨inside, _⟩ := List.getElem?_eq_some_iff.1 read
      exact nesting_lt_of_weight (Grammar.weight_drop_lt (Nat.lt_succ_self position) inside)
  | @body s active id body position shape fresh =>
      refine nesting_lt_of_unopened rfl (Finset.card_lt_card ?_)
      have smaller : unopened g ⟨s, (id, position) :: active, body, position⟩ ⊆
          unopened g ⟨s, active, id, position⟩ := by
        apply unopened_mono
        intro other was
        rw [Scope.reentered_iff] at was ⊢
        exact was.imp_left (List.mem_cons_of_mem _)
      refine (Finset.ssubset_iff_of_subset smaller).2 ⟨id, ?_, ?_⟩
      · exact Finset.mem_filter.2 ⟨Finset.mem_range.2 (Grammar.lt_size_of_node? shape), fresh⟩
      · intro mem
        have now : s.reentered ((id, position) :: active) id position = true :=
          Scope.reentered_iff.2 (Or.inl List.mem_cons_self)
        rw [(Finset.mem_filter.1 mem).2] at now
        cases now
  | @share s active id channels e taken position shape listed front =>
      by_cases some_ : s.tokens.drop position = []
      · have empty : onChannel e.1 taken = [] := by
          rw [some_, List.prefix_nil] at front
          rw [front]
          rfl
        refine nesting_lt_of_rank ?_ (Finset.card_le_card (unopened_mono fun other was => ?_))
          (Grammar.rank_lt guarded (.of_shape shape rfl (List.mem_map_of_mem listed)))
        · simp only [Call.rest, empty, some_, List.drop_nil]
        · rw [Scope.reentered_iff] at was ⊢
          refine Or.inr (Scope.mem_openLoops.2 ?_)
          rw [List.drop_zero, empty, ← some_]
          rcases was with was | was
          · exact Or.inr ⟨_, was, rfl⟩
          · exact Or.inl was
      · exact nesting_lt_of_weight (Grammar.weight_share_lt front some_)

theorem callee_wellFounded (guarded : g.LoopGuarded) : WellFounded (Callee g) :=
  Subrelation.wf (fun h => h.nesting_lt guarded) (measure (nesting g)).wf

/-- The depth that is granted for the text that remains is never reached. -/
theorem nesting_lt_matchingDepth (g : Grammar) (c : Call) : nesting g c < g.matchingDepth c.rest :=
  nesting_lt_of_weight_lt (Nat.lt_succ_self (Grammar.weight c.rest))

theorem nesting_outermost_lt (g : Grammar) (tokens : List String) (id : NodeId) :
    nesting g (.outermost tokens id) < g.matchingDepth tokens :=
  nesting_lt_matchingDepth g (.outermost tokens id)

end Nesting

end Switchboard
