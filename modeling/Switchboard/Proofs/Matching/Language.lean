import Mathlib.Data.List.Infix
import Switchboard.Matching.Rules

/-!
# The language of a grammar

`Spells g goal word` says that a word is one a node stands for, or one that the
parts of a sequence stand for one after the other.  It is a least relation: a
loop spells only what some finite unrolling of it spells.

No word of a node extends another one (`Spells.eq_of_comparable`).  This is what
makes a matcher that never goes back complete.
-/

namespace Switchboard

/-! ## Lists of which one extends the other -/

def Comparable {α : Type} (u v : List α) : Prop :=
  u <+: v ∨ v <+: u

namespace Comparable

variable {α β : Type} {u v s t : List α}

theorem symm (h : Comparable u v) : Comparable v u :=
  Or.symm h

theorem of_prefixes (hu : u <+: s) (hv : v <+: s) : Comparable u v :=
  List.prefix_or_prefix_of_prefix hu hv

/-- What stands in front of comparable lists is comparable. -/
theorem of_append (h : Comparable (u ++ s) (v ++ t)) : Comparable u v := by
  rcases h with h | h
  · exact of_prefixes ((List.prefix_append u s).trans h) (List.prefix_append v t)
  · exact of_prefixes (List.prefix_append u s) ((List.prefix_append v t).trans h)

theorem cancel (h : Comparable (u ++ s) (u ++ t)) : Comparable s t :=
  h.imp (List.prefix_append_right_inj u).1 (List.prefix_append_right_inj u).1

theorem mono_left (h : Comparable u v) (hs : s <+: u) : Comparable s v := by
  rcases h with h | h
  · exact Or.inl (hs.trans h)
  · exact of_prefixes hs h

theorem filterMap (f : α → Option β) (h : Comparable u v) :
    Comparable (u.filterMap f) (v.filterMap f) :=
  h.imp (fun p => p.filterMap f) (fun p => p.filterMap f)

end Comparable

/-! ## Values on channels -/

/-- The value that a token carries on a channel: what stands behind its first
slash, if the channel stands before it. -/
def carried? (channel token : String) : Option String :=
  match splitSlash? token.toList with
  | none => none
  | some (front, back) =>
      if String.ofList front = channel then some (String.ofList back) else none

/-- The values that tokens carry on a channel, in order. -/
def onChannel (channel : String) (tokens : List String) : List String :=
  tokens.filterMap (carried? channel)

/-- A token carries a value on one of the channels of a product. -/
def Tagged (channels : Keyed NodeId) (token : String) : Prop :=
  ∃ e ∈ channels.entries, ∃ value, carried? e.1 token = some value

theorem splitSlash?_eq_some_iff {cs front back : List Char} :
    splitSlash? cs = some (front, back) ↔ cs = front ++ '/' :: back ∧ '/' ∉ front := by
  induction cs generalizing front with
  | nil => simp [splitSlash?]
  | cons c rest ih =>
      unfold splitSlash?
      by_cases slash : c = '/'
      · subst slash
        cases front with
        | nil => simp [eq_comm]
        | cons d front =>
            simp only [if_pos, Option.some.injEq, Prod.mk.injEq, List.nil_eq, List.cons_append,
              List.cons.injEq, List.mem_cons, not_or]
            grind
      · rw [if_neg slash]
        cases front with
        | nil => simp [slash]
        | cons d front =>
            simp only [Option.map_eq_some_iff, Prod.exists, Prod.mk.injEq]
            grind

theorem carried?_eq_some_iff {channel token value : String} :
    carried? channel token = some value ↔
      token = channel ++ "/" ++ value ∧ '/' ∉ channel.toList := by
  have text : token = channel ++ "/" ++ value ↔
      token.toList = channel.toList ++ '/' :: value.toList := by
    rw [← String.toList_inj, String.toList_append, String.toList_append, List.append_assoc]
    rfl
  rw [text, ← splitSlash?_eq_some_iff, carried?]
  cases splitSlash? token.toList with
  | none => simp
  | some p =>
      obtain ⟨front, back⟩ := p
      have toList : ∀ {cs : List Char} {s : String}, cs = s.toList ↔ String.ofList cs = s := by
        intro cs s
        rw [← String.toList_inj, String.toList_ofList]
      rw [Option.some.injEq, Prod.mk.injEq, toList, toList]
      by_cases same : String.ofList front = channel
      · simp [same]
      · simp [same]

/-- A token carries a value on at most one channel. -/
theorem channel_unique {a b token v w : String} (ha : carried? a token = some v)
    (hb : carried? b token = some w) : a = b := by
  cases found : splitSlash? token.toList with
  | none => simp [carried?, found] at ha
  | some p =>
      simp only [carried?, found, Option.ite_none_right_eq_some] at ha hb
      exact ha.1.symm.trans hb.1

theorem tag?_eq_some_iff {channels : Keyed NodeId} {token channel value : String} :
    tag? channels token = some (channel, value) ↔
      carried? channel token = some value ∧ channels.contains channel = true := by
  unfold tag? carried?
  cases splitSlash? token.toList with
  | none => simp
  | some p =>
      obtain ⟨front, back⟩ := p
      by_cases known : channels.contains (String.ofList front) = true
      · grind
      · grind

/-- The matcher finds a tag on exactly the tokens that carry a channel. -/
theorem tag?_isSome_iff {channels : Keyed NodeId} {token : String} :
    (tag? channels token).isSome = true ↔ Tagged channels token := by
  rw [Option.isSome_iff_exists]
  constructor
  · rintro ⟨⟨channel, value⟩, found⟩
    obtain ⟨carried, known⟩ := tag?_eq_some_iff.1 found
    obtain ⟨id, mem⟩ := Keyed.contains_iff.1 known
    exact ⟨(channel, id), mem, value, carried⟩
  · rintro ⟨⟨channel, id⟩, mem, value, carried⟩
    exact ⟨(channel, value), tag?_eq_some_iff.2 ⟨carried, Keyed.contains_iff.2 ⟨id, mem⟩⟩⟩

theorem onChannel_append (channel : String) (u v : List String) :
    onChannel channel (u ++ v) = onChannel channel u ++ onChannel channel v :=
  List.filterMap_append

/-- Tokens with nothing on any channel of a product are no tokens at all, if all
of them carry one. -/
theorem eq_nil_of_onChannel_eq_nil {channels : Keyed NodeId} {tokens : List String}
    (tagged : ∀ token ∈ tokens, Tagged channels token)
    (silent : ∀ e ∈ channels.entries, onChannel e.1 tokens = []) : tokens = [] := by
  cases tokens with
  | nil => rfl
  | cons token rest =>
      obtain ⟨e, he, value, carried⟩ := tagged token List.mem_cons_self
      have silent := silent e he
      rw [onChannel, List.filterMap_cons_some carried] at silent
      cases silent

/-! ## Words -/

/-- What is matched: a node, or what is left of a sequence from the part with an
index on. -/
inductive Goal where
  | node (id : NodeId)
  | parts (index : Nat) (ids : List NodeId)

/-- The words of a goal.  Dangling nodes and loops without a body have none. -/
inductive Spells (g : Grammar) : Goal → List String → Prop
  | emit {id : NodeId} {token : String} (shape : g.node? id = some (.emit token)) :
      Spells g (.node id) [token]
  | sequence {id : NodeId} {ids : List NodeId} {word : List String}
      (shape : g.node? id = some (.sequence ids)) (parts : Spells g (.parts 0 ids) word) :
      Spells g (.node id) word
  | nil {index : Nat} : Spells g (.parts index []) []
  | cons {index : Nat} {part : NodeId} {ids : List NodeId} {front back : List String}
      (head : Spells g (.node part) front) (tail : Spells g (.parts (index + 1) ids) back) :
      Spells g (.parts index (part :: ids)) (front ++ back)
  | choice {id branch : NodeId} {branches : Keyed NodeId} {tag : String} {word : List String}
      (shape : g.node? id = some (.choice branches)) (found : branches.find? tag = some branch)
      (rest : Spells g (.node branch) word) : Spells g (.node id) (tag :: word)
  | loop {id body : NodeId} {word : List String} (shape : g.node? id = some (.loop (some body)))
      (unrolled : Spells g (.node body) word) : Spells g (.node id) word
  | product {id : NodeId} {channels : Keyed NodeId} {word : List String}
      (shape : g.node? id = some (.product channels))
      (tagged : ∀ token ∈ word, Tagged channels token)
      (shares : ∀ e ∈ channels.entries, Spells g (.node e.2) (onChannel e.1 word)) :
      Spells g (.node id) word

variable {g : Grammar}

/-- The words of a node, by its shape. -/
theorem spells_node_iff {id : NodeId} {word : List String} :
    Spells g (.node id) word ↔
      match g.node? id with
      | some (.emit token) => word = [token]
      | some (.sequence ids) => Spells g (.parts 0 ids) word
      | some (.choice branches) =>
          ∃ tag branch rest, branches.find? tag = some branch ∧
            Spells g (.node branch) rest ∧ word = tag :: rest
      | some (.loop (some body)) => Spells g (.node body) word
      | some (.product channels) =>
          (∀ token ∈ word, Tagged channels token) ∧
            ∀ e ∈ channels.entries, Spells g (.node e.2) (onChannel e.1 word)
      | _ => False := by
  constructor
  · intro h
    cases h with
    | emit shape => simp [shape]
    | sequence shape parts => simpa [shape] using parts
    | choice shape found rest =>
        simp only [shape]
        exact ⟨_, _, _, found, rest, rfl⟩
    | loop shape unrolled => simpa [shape] using unrolled
    | product shape tagged shares =>
        simp only [shape]
        exact ⟨tagged, shares⟩
  · intro h
    split at h
    · rename_i token shape
      exact h ▸ .emit shape
    · rename_i ids shape
      exact .sequence shape h
    · rename_i branches shape
      obtain ⟨tag, branch, rest, found, spelled, rfl⟩ := h
      exact .choice shape found spelled
    · rename_i body shape
      exact .loop shape h
    · rename_i channels shape
      exact .product shape h.1 h.2
    · exact h.elim

theorem spells_nil_iff {index : Nat} {word : List String} :
    Spells g (.parts index []) word ↔ word = [] :=
  ⟨fun h => by cases h; rfl, fun h => h ▸ .nil⟩

theorem spells_cons_iff {index : Nat} {part : NodeId} {ids : List NodeId} {word : List String} :
    Spells g (.parts index (part :: ids)) word ↔
      ∃ front back, word = front ++ back ∧ Spells g (.node part) front ∧
        Spells g (.parts (index + 1) ids) back := by
  constructor
  · intro h
    cases h with
    | cons head tail => exact ⟨_, _, rfl, head, tail⟩
  · rintro ⟨front, back, rfl, head, tail⟩
    exact .cons head tail

/-- Two words of one goal, one a prefix of the other, are the same word. -/
theorem Spells.eq_of_comparable {goal : Goal} {u v : List String} (hu : Spells g goal u)
    (hv : Spells g goal v) (h : Comparable u v) : u = v := by
  induction hu generalizing v with
  | emit shape =>
      rw [spells_node_iff, shape] at hv
      exact hv.symm
  | sequence shape _ ih =>
      rw [spells_node_iff, shape] at hv
      exact ih hv h
  | nil => exact (spells_nil_iff.1 hv).symm
  | cons _ _ ihHead ihTail =>
      obtain ⟨front, back, rfl, head, tail⟩ := spells_cons_iff.1 hv
      obtain rfl := ihHead head h.of_append
      obtain rfl := ihTail tail h.cancel
      rfl
  | @choice id branch branches tag word shape found _ ih =>
      rw [spells_node_iff, shape] at hv
      obtain ⟨tag', branch', word', found', spelled, rfl⟩ := hv
      obtain rfl : tag = tag' := by
        rcases h with h | h
        · exact (List.cons_prefix_cons.1 h).1
        · exact (List.cons_prefix_cons.1 h).1.symm
      obtain rfl : branch = branch' := Option.some.inj (found.symm.trans found')
      rw [ih spelled (Comparable.cancel (u := [tag]) h)]
  | loop shape _ ih =>
      rw [spells_node_iff, shape] at hv
      exact ih hv h
  | @product id channels word shape tagged _ ih =>
      rw [spells_node_iff, shape] at hv
      obtain ⟨tagged', shares'⟩ := hv
      have same_shares : ∀ e ∈ channels.entries, onChannel e.1 word = onChannel e.1 v :=
        fun e he => ih e he (shares' e he) (h.filterMap _)
      rcases h with ⟨more, rfl⟩ | ⟨more, rfl⟩
      · have nothing : more = [] := by
          refine eq_nil_of_onChannel_eq_nil
            (fun token mem => tagged' token (List.mem_append_right _ mem)) fun e he => ?_
          have same := same_shares e he
          rw [onChannel_append] at same
          exact List.self_eq_append_right.1 same
        rw [nothing, List.append_nil]
      · have nothing : more = [] := by
          refine eq_nil_of_onChannel_eq_nil
            (fun token mem => tagged token (List.mem_append_right _ mem)) fun e he => ?_
          have same := same_shares e he
          rw [onChannel_append] at same
          exact List.append_right_eq_self.1 same
        rw [nothing, List.append_nil]

end Switchboard
