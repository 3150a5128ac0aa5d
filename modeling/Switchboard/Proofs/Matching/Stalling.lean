import Switchboard.Proofs.Matching.Calls
import Switchboard.Proofs.Matching.Demand

/-!
# Requests without progress

A request either leaves less text or stalls: it is made with the text that was
there (`Serves.lighter_or_stalls`).  A task that leads back to itself has stalled
all the way, and no goal with a word stalls for ever (`Spells.acc_stalls`), so such
a task has a goal without words.

A node is live if all loops that it reaches have words.  Between two loops the rank
falls, so a live goal does not stall for ever either, and then every task with it is
grounded, whatever the tokens are (`Live.grounded`).
-/

namespace Switchboard

variable {g : Grammar}

/-- Matching the goal may ask for the other one without any progress. -/
def Stalls (g : Grammar) (sub goal : Goal) : Prop :=
  ∃ rest, Serves g (sub, rest) (goal, rest)

theorem Serves.lighter_or_stalls {sub task : Task} (h : Serves g sub task) :
    Grammar.weight sub.2 < Grammar.weight task.2 ∨ sub.2 = task.2 ∧ Stalls g sub.1 task.1 := by
  have same : ∀ {sub goal : Goal} {rest : List String}, Serves g (sub, rest) (goal, rest) →
      Grammar.weight rest < Grammar.weight rest ∨ rest = rest ∧ Stalls g sub goal := by
    intro sub goal rest serves
    exact Or.inr ⟨rfl, rest, serves⟩
  cases h with
  | parts shape => exact same (.parts shape)
  | head => exact same .head
  | @tail index part ids word rest spelled =>
      by_cases empty : word = []
      · subst empty
        have stays : Serves g (.parts (index + 1) ids, rest) (.parts index (part :: ids), rest) :=
          .tail spelled
        exact same stays
      · left
        have positive := Grammar.weight_pos empty
        show Grammar.weight rest < Grammar.weight (word ++ rest)
        rw [Grammar.weight_append]
        omega
  | @branch id branch branches tag rest shape found =>
      left
      show Grammar.weight rest < Grammar.weight (tag :: rest)
      rw [Grammar.weight_cons]
      omega
  | body shape => exact same (.body shape)
  | @share id channels e taken rest shape listed front tagged =>
      by_cases empty : rest = []
      · subst empty
        obtain rfl := List.prefix_nil.1 front
        have stays : Serves g (.node e.2, []) (.node id, []) := .share shape listed front tagged
        exact same stays
      · exact Or.inl (Grammar.weight_share_lt front empty)

/-- Requests that come back to the text they started from have stalled. -/
theorem stalls_of_transGen {sub task : Task} (h : Relation.TransGen (Serves g) sub task) :
    Grammar.weight sub.2 < Grammar.weight task.2 ∨
      sub.2 = task.2 ∧ Relation.TransGen (Stalls g) sub.1 task.1 := by
  induction h with
  | single serves =>
      rcases serves.lighter_or_stalls with lighter | ⟨same, stalls⟩
      · exact Or.inl lighter
      · exact Or.inr ⟨same, .single stalls⟩
  | tail _ serves ih =>
      rcases serves.lighter_or_stalls with lighter | ⟨same, stalls⟩
      · rcases ih with lighter' | ⟨same', _⟩
        · exact Or.inl (lighter'.trans lighter)
        · left
          rw [same']
          exact lighter
      · rcases ih with lighter' | ⟨same', path⟩
        · left
          rw [← same]
          exact lighter'
        · exact Or.inr ⟨same'.trans same, path.tail stalls⟩

/-! ## What is asked for by shape -/

/-- A choice reads a tag first, so it is never stalled. -/
theorem Stalls.of_node {sub : Goal} {id : NodeId} (h : Stalls g sub (.node id)) :
    match g.node? id with
    | some (.sequence ids) => sub = .parts 0 ids
    | some (.loop (some body)) => sub = .node body
    | some (.product channels) => ∃ e ∈ channels.entries, sub = .node e.2
    | _ => False := by
  obtain ⟨rest, serves⟩ := h
  generalize before : rest = given at serves
  cases serves with
  | parts shape =>
      rw [shape]
  | body shape =>
      rw [shape]
  | share shape listed front tagged =>
      rw [shape]
      exact ⟨_, listed, rfl⟩

theorem Stalls.of_parts {sub : Goal} {index : Nat} {ids : List NodeId}
    (h : Stalls g sub (.parts index ids)) :
    ∃ part later, ids = part :: later ∧ (sub = .node part ∨ sub = .parts (index + 1) later) := by
  obtain ⟨rest, serves⟩ := h
  generalize task : (Goal.parts index ids, rest) = given at serves
  cases serves with
  | head =>
      cases task
      exact ⟨_, _, rfl, Or.inl rfl⟩
  | tail spelled =>
      obtain ⟨rfl, rfl⟩ := Goal.parts.inj (Prod.mk.inj task).1
      exact ⟨_, _, rfl, Or.inr rfl⟩
  | _ => cases task

theorem acc_stalls_node {id : NodeId}
    (all : match g.node? id with
      | some (.sequence ids) => Acc (Stalls g) (.parts 0 ids)
      | some (.loop (some body)) => Acc (Stalls g) (.node body)
      | some (.product channels) => ∀ e ∈ channels.entries, Acc (Stalls g) (.node e.2)
      | _ => True) : Acc (Stalls g) (.node id) := by
  constructor
  intro sub stalls
  have asked := stalls.of_node
  split at asked
  · rename_i ids shape
    rw [shape] at all
    exact asked ▸ all
  · rename_i body shape
    rw [shape] at all
    exact asked ▸ all
  · rename_i channels shape
    rw [shape] at all
    obtain ⟨e, listed, rfl⟩ := asked
    exact all e listed
  · exact asked.elim

theorem acc_stalls_nil {index : Nat} : Acc (Stalls g) (.parts index []) := by
  constructor
  intro sub stalls
  obtain ⟨part, later, none_, _⟩ := stalls.of_parts
  cases none_

theorem acc_stalls_cons {index : Nat} {part : NodeId} {ids : List NodeId}
    (head : Acc (Stalls g) (.node part)) (tail : Acc (Stalls g) (.parts (index + 1) ids)) :
    Acc (Stalls g) (.parts index (part :: ids)) := by
  constructor
  intro sub stalls
  obtain ⟨part', later, same, asked⟩ := stalls.of_parts
  obtain ⟨rfl, rfl⟩ := List.cons.inj same
  rcases asked with rfl | rfl
  · exact head
  · exact tail

theorem acc_stalls_parts {ids : List NodeId} (all : ∀ part ∈ ids, Acc (Stalls g) (.node part))
    (index : Nat) : Acc (Stalls g) (.parts index ids) := by
  induction ids generalizing index with
  | nil => exact acc_stalls_nil
  | cons part ids ih =>
      obtain ⟨head, tail⟩ := List.forall_mem_cons.1 all
      exact acc_stalls_cons head (ih tail (index + 1))

/-! ## Goals with words -/

/-- Where there is a word to be matched, matching does not stall for ever. -/
theorem Spells.acc_stalls {goal : Goal} {word : List String} (h : Spells g goal word) :
    Acc (Stalls g) goal := by
  induction h with
  | emit shape =>
      apply acc_stalls_node
      rw [shape]
      trivial
  | sequence shape _ ih =>
      apply acc_stalls_node
      rw [shape]
      exact ih
  | nil => exact acc_stalls_nil
  | cons _ _ ihHead ihTail => exact acc_stalls_cons ihHead ihTail
  | choice shape _ _ _ =>
      apply acc_stalls_node
      rw [shape]
      trivial
  | loop shape _ ih =>
      apply acc_stalls_node
      rw [shape]
      exact ih
  | product shape _ _ ih =>
      apply acc_stalls_node
      rw [shape]
      exact ih

/-- What a task that leads back to itself is to match has no word. -/
theorem not_spells_of_transGen_self {task : Task}
    (cycle : Relation.TransGen (Serves g) task task) (word : List String) :
    ¬Spells g task.1 word := by
  intro spelled
  rcases stalls_of_transGen cycle with lighter | ⟨_, stalls⟩
  · exact Nat.lt_irrefl _ lighter
  · exact not_transGen_self_of_acc spelled.acc_stalls stalls

/-! ## Live nodes -/

/-- Every loop that can be reached from the node has a word. -/
def LiveNode (g : Grammar) (id : NodeId) : Prop :=
  ∀ loop, Relation.ReflTransGen g.Refers id loop → g.IsLoop loop →
    ∃ word, Spells g (.node loop) word

def Live (g : Grammar) : Goal → Prop
  | .node id => LiveNode g id
  | .parts _ ids => ∀ part ∈ ids, LiveNode g part

theorem LiveNode.refers {id other : NodeId} (h : LiveNode g id) (refers : g.Refers id other) :
    LiveNode g other := by
  intro loop path
  exact h loop (path.head refers)

/-- What is asked for on behalf of a live goal is live. -/
theorem Live.serves {sub task : Task} (h : Live g task.1) (serves : Serves g sub task) :
    Live g sub.1 := by
  cases serves with
  | @parts id ids rest shape =>
      intro part listed
      exact LiveNode.refers h ⟨_, shape, listed⟩
  | head => exact h _ List.mem_cons_self
  | tail spelled =>
      intro part listed
      exact h part (List.mem_cons_of_mem _ listed)
  | branch shape found =>
      have listed := Keyed.find?_eq_some_iff.1 found
      exact LiveNode.refers h ⟨_, shape, List.mem_map_of_mem listed⟩
  | body shape => exact LiveNode.refers h ⟨_, shape, List.mem_cons_self⟩
  | share shape listed front tagged =>
      exact LiveNode.refers h ⟨_, shape, List.mem_map_of_mem listed⟩

/-- From a live node one comes to a loop, which has a word, or the rank falls. -/
theorem LiveNode.acc_stalls (guarded : g.LoopGuarded) {id : NodeId} (h : LiveNode g id) :
    Acc (Stalls g) (.node id) := by
  induction rank : g.rank id using Nat.strong_induction_on generalizing id with
  | _ n ih =>
      subst rank
      by_cases isLoop : g.IsLoop id
      · obtain ⟨word, spelled⟩ := h id .refl isLoop
        exact spelled.acc_stalls
      · have below : ∀ other, g.Refers id other → Acc (Stalls g) (.node other) := by
          intro other refers
          exact ih _ (Grammar.rank_lt guarded ⟨refers, isLoop⟩) (h.refers refers) rfl
        apply acc_stalls_node
        split
        · rename_i ids shape
          apply acc_stalls_parts
          intro part listed
          exact below part ⟨_, shape, listed⟩
        · rename_i body shape
          exact (isLoop ⟨_, shape⟩).elim
        · rename_i channels shape
          intro e listed
          exact below e.2 ⟨_, shape, List.mem_map_of_mem listed⟩
        · trivial

theorem Live.acc_stalls (guarded : g.LoopGuarded) {goal : Goal} (h : Live g goal) :
    Acc (Stalls g) goal := by
  cases goal with
  | node id => exact LiveNode.acc_stalls guarded h
  | parts index ids =>
      apply acc_stalls_parts
      intro part listed
      exact LiveNode.acc_stalls guarded (h part listed)

/-- Matching a live goal is a finite task on every text: what is asked has less text left or,
while the text remains the same, is what the goal stalls on. -/
theorem Live.grounded (guarded : g.LoopGuarded) {goal : Goal} (h : Live g goal)
    (rest : List String) : Grounded g (goal, rest) := by
  induction total : Grammar.weight rest using Nat.strong_induction_on
    generalizing goal rest with
  | _ n lighter =>
      have acc : Acc (Stalls g) goal := h.acc_stalls guarded
      induction acc with
      | intro goal _ ih =>
          constructor
          rintro ⟨sub, left⟩ serves
          have live : Live g sub := h.serves serves
          rcases serves.lighter_or_stalls with less | ⟨same, stalls⟩
          · exact lighter _ (total ▸ less) live left rfl
          · obtain rfl : left = rest := same
            exact ih sub stalls live

end Switchboard
