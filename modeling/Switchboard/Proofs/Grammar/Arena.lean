import Switchboard.Proofs.Grammar.Cycles
import Switchboard.Proofs.Grammar.Scripts
import Switchboard.Proofs.Matching.Missing

/-!
# Arenas that builders make

Builders append: a node refers to nodes that were there before it, and only the body of a
loop may be younger than the loop (`Grammar.WellBuilt`).  So every cycle of references
passes through a loop, and no reference dangles.

A request appends a node of this kind, or it fails and appends nothing
(`Request.perform_on`).
-/

namespace Switchboard

/-! ## Appending and closing -/

namespace Grammar

variable {g : Grammar} {node : Node} {id loop inner : NodeId}

theorem lt_size_iff : id < g.size ↔ ∃ node, g.node? id = some node := by
  constructor
  · intro inside
    exact ⟨_, Array.getElem?_eq_getElem inside⟩
  · rintro ⟨node, shape⟩
    exact lt_size_of_node? shape

theorem size_push : (g.push node).2.size = g.size + 1 :=
  Array.size_push _

theorem node?_push (id : NodeId) :
    (g.push node).2.node? id = if id = g.size then some node else g.node? id :=
  Array.getElem?_push

theorem size_close : (g.close loop inner).size = g.size :=
  Array.size_setIfInBounds

theorem node?_close (inside : loop < g.size) (id : NodeId) :
    (g.close loop inner).node? id =
      if loop = id then some (.loop (some inner)) else g.node? id := by
  rw [node?, close, Array.getElem?_setIfInBounds]
  by_cases same : loop = id
  · rw [if_pos same, if_pos same]
    exact if_pos inside
  · rw [if_neg same, if_neg same]
    rfl

/-- A node of the larger arena is the new one, or was there before. -/
theorem node_of_push {other : Node} (shape : (g.push node).2.node? id = some other) :
    id = g.size ∧ other = node ∨ g.node? id = some other := by
  rw [node?_push] at shape
  by_cases last : id = g.size
  · rw [if_pos last] at shape
    exact Or.inl ⟨last, (Option.some.inj shape).symm⟩
  · rw [if_neg last] at shape
    exact Or.inr shape

/-- Where a loop is closed, a node is that loop, or is what it was before. -/
theorem node_of_close {other : Node} (inside : loop < g.size)
    (shape : (g.close loop inner).node? id = some other) :
    other = .loop (some inner) ∨ g.node? id = some other := by
  rw [node?_close inside] at shape
  by_cases same : loop = id
  · rw [if_pos same] at shape
    exact Or.inl (Option.some.inj shape).symm
  · rw [if_neg same] at shape
    exact Or.inr shape

end Grammar

/-! ## Nodes -/

/-- A table is never empty, and the channels of a product are single segments. -/
def Node.Lawful : Node → Prop
  | .choice branches => branches.entries ≠ []
  | .product channels =>
      channels.entries ≠ [] ∧ ∀ name ∈ channels.names, name ≠ "" ∧ '/' ∉ name.toList
  | _ => True

namespace Grammar

theorem isChannelName_iff {channel : String} :
    isChannelName channel = true ↔ channel ≠ "" ∧ '/' ∉ channel.toList := by
  simp [isChannelName]

/-- What is collected in a table was in it before, or is one of the entries and was not
refused. -/
theorem mem_of_collect {refuse : Keyed NodeId → String → Option GrammarError}
    {entries : List (String × NodeId)} {table table' : Keyed NodeId}
    (h : collect refuse entries table = .ok table') {e : String × NodeId}
    (mem : e ∈ table'.entries) :
    e ∈ table.entries ∨ e ∈ entries ∧ ∃ before, refuse before e.1 = none := by
  induction entries generalizing table with
  | nil =>
      cases h
      exact Or.inl mem
  | cons entry entries ih =>
      obtain ⟨name, id⟩ := entry
      rw [collect] at h
      split at h
      · cases h
      · rename_i accepted
        rcases ih h with old | ⟨later, before⟩
        · rcases Entries.mem_put old with rfl | old
          · exact Or.inr ⟨List.mem_cons_self, table, accepted⟩
          · exact Or.inl old
        · exact Or.inr ⟨List.mem_cons_of_mem _ later, before⟩

/-- A table that is accepted lists something, and nothing but entries that were not
refused. -/
theorem mem_of_tabled {refuse : Keyed NodeId → String → Option GrammarError}
    {entries : List (String × NodeId)} {error : GrammarError} {table : Keyed NodeId}
    (h : (collect refuse entries .empty >>= fun table =>
      if table.isEmpty then .error error else .ok table) = .ok table) :
    table.entries ≠ [] ∧
      ∀ e ∈ table.entries, e ∈ entries ∧ ∃ before, refuse before e.1 = none := by
  cases collected : collect refuse entries .empty with
  | error refused =>
      rw [collected] at h
      cases h
  | ok table' =>
      rw [collected] at h
      change (if table'.isEmpty then Except.error error else .ok table') = .ok table at h
      split at h
      · cases h
      · rename_i listed
        cases h
        refine ⟨fun none_ => listed (List.isEmpty_iff.2 none_), fun e mem => ?_⟩
        rcases mem_of_collect collected mem with old | new
        · cases old
        · exact new

end Grammar

namespace Request

/-- What a request may append. -/
structure Makes (request : Request) (node : Node) : Prop where
  closed : node.isLoop = false
  given : ∀ other ∈ node.references, other ∈ request.ids
  lawful : node.Lawful

/-- The ids of a table of entries are among those of the entries. -/
theorem references_table {entries : List (String × NodeId)} {table : Keyed NodeId}
    (listed : ∀ e ∈ table.entries, e ∈ entries) :
    ∀ other ∈ table.entries.map (·.2), other ∈ entries.map (·.2) := by
  intro other mem
  obtain ⟨e, here, rfl⟩ := List.mem_map.1 mem
  exact List.mem_map.2 ⟨e, listed e here, rfl⟩

theorem makes_choice {entries : List (String × NodeId)} {table : Keyed NodeId}
    (h : Grammar.branches entries = .ok table) : (choice entries).Makes (.choice table) := by
  obtain ⟨some_, listed⟩ := Grammar.mem_of_tabled h
  exact ⟨rfl, references_table fun e mem => (listed e mem).1, some_⟩

theorem makes_product {entries : List (String × NodeId)} {table : Keyed NodeId}
    (h : Grammar.channels entries = .ok table) : (product entries).Makes (.product table) := by
  obtain ⟨some_, listed⟩ := Grammar.mem_of_tabled h
  refine ⟨rfl, references_table fun e mem => (listed e mem).1, some_, ?_⟩
  intro name mem
  obtain ⟨e, here, rfl⟩ := List.mem_map.1 mem
  obtain ⟨_, before, accepted⟩ := listed e here
  rw [Grammar.refuseChannel] at accepted
  split at accepted
  · cases accepted
  · rename_i single
    exact Grammar.isChannelName_iff.1 (by simpa using single)

/-- A request appends one node and gives its index, or it fails and appends nothing. -/
theorem perform_on (request : Request) (g : Grammar) :
    (∃ node, request.Makes node ∧ request.perform.on g = (.ok g.size, (g.push node).2)) ∨
      ∃ error, request.perform.on g = (.error error, g) := by
  cases request with
  | emit token =>
      refine Or.inl ⟨.emit token, ⟨rfl, ?_, True.intro⟩, rfl⟩
      intro other mem
      cases mem
  | sequence parts =>
      exact Or.inl ⟨.sequence parts, ⟨rfl, fun other mem => mem, True.intro⟩, rfl⟩
  | done =>
      refine Or.inl ⟨.sequence [], ⟨rfl, ?_, True.intro⟩, rfl⟩
      intro other mem
      cases mem
  | receive tag next =>
      have listed : (Keyed.empty.put tag next).entries ≠ [] := List.cons_ne_nil _ _
      exact Or.inl ⟨.choice (Keyed.empty.put tag next), ⟨rfl, fun other mem => mem, listed⟩, rfl⟩
  | choice entries =>
      cases tabled : Grammar.branches entries with
      | ok table =>
          refine Or.inl ⟨.choice table, makes_choice tabled, ?_⟩
          rw [perform, Builder.choice, tabled]
          rfl
      | error error =>
          refine Or.inr ⟨error, ?_⟩
          rw [perform, Builder.choice, tabled]
          rfl
  | product entries =>
      cases tabled : Grammar.channels entries with
      | ok table =>
          refine Or.inl ⟨.product table, makes_product tabled, ?_⟩
          rw [perform, Builder.product, tabled]
          rfl
      | error error =>
          refine Or.inr ⟨error, ?_⟩
          rw [perform, Builder.product, tabled]
          rfl

end Request

/-! ## Well-built arenas -/

/-- Only the body of a loop may be younger than what refers to it, and it is there too;
every table is one that builders accept. -/
structure Grammar.WellBuilt (g : Grammar) : Prop where
  earlier : ∀ id node, g.node? id = some node → node.isLoop = false →
    ∀ other ∈ node.references, other < id
  inside : ∀ id body, g.node? id = some (.loop (some body)) → body < g.size
  lawful : ∀ id node, g.node? id = some node → node.Lawful

namespace Grammar.WellBuilt

variable {g : Grammar}

theorem empty : Grammar.empty.WellBuilt where
  earlier id node shape := by cases shape
  inside id body shape := by cases shape
  lawful id node shape := by cases shape

theorem push (h : g.WellBuilt) {node : Node} (known : ∀ other ∈ node.references, other < g.size)
    (lawful : node.Lawful) : (g.push node).2.WellBuilt where
  earlier id other shape closed := by
    rcases node_of_push shape with ⟨rfl, rfl⟩ | before
    · exact known
    · exact h.earlier id other before closed
  inside id body shape := by
    rw [size_push]
    rcases node_of_push shape with ⟨rfl, rfl⟩ | before
    · exact Nat.lt_succ_of_lt (known body (List.mem_singleton.2 rfl))
    · exact Nat.lt_succ_of_lt (h.inside id body before)
  lawful id other shape := by
    rcases node_of_push shape with ⟨rfl, rfl⟩ | before
    · exact lawful
    · exact h.lawful id other before

theorem close (h : g.WellBuilt) {loop inner : NodeId} (there : loop < g.size)
    (known : inner < g.size) : (g.close loop inner).WellBuilt where
  earlier id node shape closed := by
    rcases node_of_close there shape with rfl | before
    · cases closed
    · exact h.earlier id node before closed
  inside id body shape := by
    rw [size_close]
    rcases node_of_close there shape with same | before
    · cases same
      exact known
    · exact h.inside id body before
  lawful id node shape := by
    rcases node_of_close there shape with rfl | before
    · exact True.intro
    · exact h.lawful id node before

theorem loopGuarded (h : g.WellBuilt) : g.LoopGuarded :=
  loopGuarded_of_descending fun id _ node shape => h.earlier id node shape

theorem lt_size_of_refers (h : g.WellBuilt) {id other : NodeId} (refers : g.Refers id other) :
    other < g.size := by
  obtain ⟨node, shape, mem⟩ := refers
  cases closed : node.isLoop with
  | false => exact (h.earlier id node shape closed other mem).trans (lt_size_of_node? shape)
  | true =>
      obtain ⟨body, rfl⟩ : ∃ body, node = .loop body := by
        cases node with
        | loop body => exact ⟨body, rfl⟩
        | _ => cases closed
      obtain rfl : body = some other := Option.mem_toList.1 mem
      exact h.inside id other shape

/-- Nothing is missing of what a node of the arena leads to. -/
theorem not_lacks (h : g.WellBuilt) {id missing : NodeId} (there : id < g.size) :
    ¬g.Lacks id missing := by
  rintro ⟨path, absent⟩
  have inside : missing < g.size := by
    cases path.cases_tail with
    | inl same => exact same ▸ there
    | inr last =>
        obtain ⟨_, _, refers⟩ := last
        exact h.lt_size_of_refers refers
  obtain ⟨node, shape⟩ := lt_size_iff.1 inside
  rw [absent] at shape
  cases shape

end Grammar.WellBuilt

end Switchboard
