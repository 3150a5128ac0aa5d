/-!
# Tables with ascending names

A `Keyed α` is a finite table from names to values.  The names ascend strictly
in the order of code points, so that a table is determined by its look-ups and
every walk over it visits the names in that order.  `put` is the same insertion
for bare entry lists; data objects, which cannot carry the order as a proof
field, are built with it too.
-/

namespace Switchboard

namespace Entries

variable {α : Type}

/-- Writes a value under a name: in front of the first larger name, or in place
of the value that the name had. -/
def put (name : String) (value : α) : List (String × α) → List (String × α)
  | [] => [(name, value)]
  | (other, held) :: rest =>
      if other < name then (other, held) :: put name value rest
      else if name < other then (name, value) :: (other, held) :: rest
      else (name, value) :: rest

/-- The value under a name. -/
def find? (name : String) : List (String × α) → Option α
  | [] => none
  | (other, held) :: rest => if other = name then some held else find? name rest

/-- The names ascend strictly. -/
abbrev Ascending (entries : List (String × α)) : Prop :=
  entries.Pairwise fun a b => a.1 < b.1

theorem eq_of_not_lt {a b : String} (hab : ¬a < b) (hba : ¬b < a) : a = b :=
  String.le_antisymm (String.not_lt.1 hba) (String.not_lt.1 hab)

/-- Every entry after an insertion is the new one or an old one. -/
theorem mem_put {name : String} {value : α} {entries : List (String × α)} {e : String × α}
    (h : e ∈ put name value entries) : e = (name, value) ∨ e ∈ entries := by
  induction entries with
  | nil =>
      rw [put, List.mem_singleton] at h
      exact Or.inl h
  | cons entry rest ih =>
      obtain ⟨other, held⟩ := entry
      rw [put] at h
      by_cases below : other < name
      · rw [if_pos below] at h
        rcases List.mem_cons.1 h with h | h
        · exact Or.inr (h ▸ List.mem_cons_self)
        · exact (ih h).imp_right (List.mem_cons_of_mem _)
      · rw [if_neg below] at h
        by_cases above : name < other
        · rw [if_pos above] at h
          exact List.mem_cons.1 h
        · rw [if_neg above] at h
          exact (List.mem_cons.1 h).imp_right (List.mem_cons_of_mem _)

theorem ascending_put {name : String} {value : α} {entries : List (String × α)}
    (h : Ascending entries) : Ascending (put name value entries) := by
  induction entries with
  | nil => exact List.pairwise_singleton _ _
  | cons entry rest ih =>
      obtain ⟨other, held⟩ := entry
      obtain ⟨head, tail⟩ := List.pairwise_cons.1 h
      rw [put]
      by_cases below : other < name
      · rw [if_pos below]
        refine List.pairwise_cons.2 ⟨?_, ih tail⟩
        intro e he
        rcases mem_put he with rfl | he
        · exact below
        · exact head e he
      · rw [if_neg below]
        by_cases above : name < other
        · rw [if_pos above]
          refine List.pairwise_cons.2 ⟨?_, h⟩
          intro e he
          rcases List.mem_cons.1 he with rfl | he
          · exact above
          · exact String.lt_trans above (head e he)
        · rw [if_neg above]
          have same : name = other := eq_of_not_lt above below
          exact List.pairwise_cons.2 ⟨same ▸ head, tail⟩

/-- Where the names ascend, a name finds what it is listed with. -/
theorem find?_eq_some_iff {name : String} {value : α} {entries : List (String × α)}
    (h : Ascending entries) : find? name entries = some value ↔ (name, value) ∈ entries := by
  induction entries with
  | nil => simp [find?]
  | cons entry rest ih =>
      obtain ⟨other, held⟩ := entry
      obtain ⟨head, tail⟩ := List.pairwise_cons.1 h
      rw [find?, List.mem_cons, Prod.mk.injEq]
      by_cases found : other = name
      · subst found
        have later : (other, value) ∉ rest := fun mem => String.lt_irrefl other (head _ mem)
        simp [later, eq_comm]
      · have ne : ¬name = other := fun same => found same.symm
        rw [if_neg found, ih tail]
        simp [ne]

theorem find?_put (name sought : String) (value : α) (entries : List (String × α)) :
    find? sought (put name value entries) =
      if name = sought then some value else find? sought entries := by
  induction entries with
  | nil => rfl
  | cons entry rest ih =>
      obtain ⟨other, held⟩ := entry
      rw [put]
      by_cases below : other < name
      · rw [if_pos below]
        show (if other = sought then some held else find? sought (put name value rest)) =
          if name = sought then some value
          else if other = sought then some held else find? sought rest
        rw [ih]
        by_cases found : other = sought
        · have ne : name ≠ sought := by
            intro same
            exact String.lt_irrefl other ((same.trans found.symm) ▸ below)
          rw [if_pos found, if_neg ne, if_pos found]
        · rw [if_neg found, if_neg found]
      · rw [if_neg below]
        by_cases above : name < other
        · rw [if_pos above]
          rfl
        · rw [if_neg above]
          have same : name = other := eq_of_not_lt above below
          subst same
          rw [find?, find?]
          by_cases found : name = sought
          · rw [if_pos found, if_pos found]
          · rw [if_neg found, if_neg found, if_neg found]

end Entries

/-- A table from names to values, its names strictly ascending. -/
structure Keyed (α : Type) where
  entries : List (String × α)
  ascending : Entries.Ascending entries
deriving DecidableEq

namespace Keyed

variable {α : Type}

def empty : Keyed α := ⟨[], List.Pairwise.nil⟩

def put (table : Keyed α) (name : String) (value : α) : Keyed α :=
  ⟨Entries.put name value table.entries, Entries.ascending_put table.ascending⟩

/-- Of several entries with one name the last one stays. -/
def ofList (entries : List (String × α)) : Keyed α :=
  entries.foldl (fun table (name, value) => table.put name value) empty

def find? (table : Keyed α) (name : String) : Option α :=
  Entries.find? name table.entries

def contains (table : Keyed α) (name : String) : Bool :=
  (table.find? name).isSome

def isEmpty (table : Keyed α) : Bool :=
  table.entries.isEmpty

def names (table : Keyed α) : List String :=
  table.entries.map (·.1)

theorem find?_eq_some_iff {table : Keyed α} {name : String} {value : α} :
    table.find? name = some value ↔ (name, value) ∈ table.entries :=
  Entries.find?_eq_some_iff table.ascending

theorem contains_iff {table : Keyed α} {name : String} :
    table.contains name = true ↔ ∃ value, (name, value) ∈ table.entries := by
  rw [contains, Option.isSome_iff_exists]
  exact exists_congr fun _ => find?_eq_some_iff

theorem find?_put (table : Keyed α) (name other : String) (value : α) :
    (table.put name value).find? other =
      if name = other then some value else table.find? other :=
  Entries.find?_put name other value table.entries

end Keyed

end Switchboard
