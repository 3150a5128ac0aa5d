import Switchboard.Proofs.Data.Scalars

/-!
# Data read back from its text

Data is `Exact` if its numbers are whole numbers of 64 bits.  Its compact text is read
back, whatever may stand behind it (`Document.readsBack`), with the fields of all objects
put in order.  So the text tells the data, unless it nests too many arrays and objects
(`Data.read?_render`).
-/

namespace Switchboard

/-- A name larger than all others goes to the end. -/
theorem Entries.put_last {α : Type} {name : String} {value : α} {entries : List (String × α)}
    (below : ∀ e ∈ entries, e.1 < name) : put name value entries = entries ++ [(name, value)] := by
  induction entries with
  | nil => rfl
  | cons entry rest ih =>
      obtain ⟨other, held⟩ := entry
      have less : other < name := below _ List.mem_cons_self
      rw [put, if_pos less, ih fun e mem => below e (List.mem_cons_of_mem _ mem)]
      rfl

namespace Keyed

variable {α : Type}

theorem entries_foldl_put {table : Keyed α} {back : List (String × α)}
    (ascending : Entries.Ascending (table.entries ++ back)) :
    (back.foldl (fun table (name, value) => table.put name value) table).entries =
      table.entries ++ back := by
  induction back generalizing table with
  | nil => exact (List.append_nil table.entries).symm
  | cons e back ih =>
      have last : (table.put e.1 e.2).entries = table.entries ++ [e] := by
        refine Entries.put_last fun a mem => ?_
        exact (List.pairwise_append.1 ascending).2.2 a mem e List.mem_cons_self
      rw [List.append_cons, ← last] at ascending ⊢
      exact ih ascending

/-- Entries with ascending names are those of the table that is made of them. -/
theorem entries_ofList {entries : List (String × α)} (ascending : Entries.Ascending entries) :
    (ofList entries).entries = entries :=
  entries_foldl_put ascending

theorem ofList_entries (table : Keyed α) : ofList table.entries = table := by
  have same := entries_ofList table.ascending
  cases built : ofList table.entries with
  | mk entries _ =>
      rw [built] at same
      subst same
      rfl

end Keyed

namespace Data

mutual

/-- The data with the fields of all objects in order, each name once. -/
def sorted : Data → Data
  | .array items => .array (sortedItems items)
  | .object fields => objectOf (sortedFields fields)
  | d => d

def sortedItems : List Data → List Data
  | [] => []
  | item :: rest => sorted item :: sortedItems rest

def sortedFields : List (String × Data) → List (String × Data)
  | [] => []
  | (name, content) :: rest => (name, sorted content) :: sortedFields rest

end

theorem sortedItems_eq {items : List Data} (own : ∀ item ∈ items, item.sorted = item) :
    sortedItems items = items := by
  induction items with
  | nil => rfl
  | cons item items ih =>
      obtain ⟨first, others⟩ := List.forall_mem_cons.1 own
      rw [sortedItems, first, ih others]

theorem sorted_tagged (tag : String) (content : Data) :
    (tagged tag content).sorted = tagged tag content.sorted := rfl

mutual

/-- All numbers in the data are whole numbers of 64 bits. -/
def Exact : Data → Prop
  | .null | .bool _ | .string _ => True
  | .number n => n.Exact
  | .array items => ExactItems items
  | .object fields => ExactFields fields

def ExactItems : List Data → Prop
  | [] => True
  | item :: rest => Exact item ∧ ExactItems rest

def ExactFields : List (String × Data) → Prop
  | [] => True
  | (_, content) :: rest => Exact content ∧ ExactFields rest

end

theorem exactItems_iff {items : List Data} : ExactItems items ↔ ∀ item ∈ items, item.Exact := by
  induction items with
  | nil => simp [ExactItems]
  | cons item items ih => rw [ExactItems, ih, List.forall_mem_cons]

theorem exact_natural {n : Nat} (small : n < Number.significandBound) : (natural n).Exact := by
  refine ⟨?_, Int.ofNat_lt.2 small⟩
  have low : -(n : Int) ≤ 0 := by omega
  exact Int.le_trans low (Int.natCast_nonneg _)

theorem exact_tagged {tag : String} {content : Data} (exact_ : content.Exact) :
    (tagged tag content).Exact :=
  ⟨exact_, trivial⟩

end Data

namespace Document

open Data

theorem skipBlanks_cons {c : Char} (solid : isBlank c = false) (text : List Char) :
    skipBlanks (c :: text) = c :: text := by
  rw [skipBlanks, List.dropWhile_cons, solid]
  rfl

theorem isBlank_of_number {c : Char} (first : c.isDigit = true ∨ c = '-') : isBlank c = false := by
  rw [Bool.eq_false_iff]
  intro blank
  simp only [isBlank, Bool.or_eq_true, decide_eq_true_eq] at blank
  obtain ((rfl | rfl) | rfl) | rfl := blank
  all_goals exact absurd first (by decide)

/-- What a number starts with starts no other value. -/
theorem value?_number {c : Char} (first : c.isDigit = true ∨ c = '-') (fuel : Nat)
    (text : List Char) :
    value? (fuel + 1) (c :: text) =
      (number? (c :: text)).map fun (found, rest) => (.number found, rest) := by
  rw [value?, skipBlanks_cons (isBlank_of_number first)]
  split
  case h_7 => rfl
  all_goals
    rename_i same
    obtain ⟨rfl, _⟩ := List.cons.inj same
    exact absurd first (by decide)

theorem value?_quote (text : String) (fuel : Nat) (rest : List Char) :
    value? (fuel + 1) ((quote text).toList ++ rest) = some (.string (some text), rest) := by
  obtain ⟨inside, shown, found⟩ := text?_quote text rest
  rw [shown, value?, skipBlanks_cons rfl]
  simp only [found, Option.map_some]

theorem value?_items {c : Char} (solid : isBlank c = false) (more : c ≠ ']') (fuel : Nat)
    (text : List Char) : value? (fuel + 1) ('[' :: c :: text) = items? fuel (c :: text) [] := by
  rw [value?, skipBlanks_cons rfl]
  simp only [skipBlanks_cons solid]
  split
  · rename_i same
    exact (more (List.cons.inj same).1).elim
  · rfl

theorem items?_last {fuel : Nat} {text rest : List Char} {doc : Document}
    (found : value? fuel text = some (doc, ']' :: rest)) (held : List Document) :
    items? (fuel + 1) text held = some (.array (held.reverse ++ [doc]), rest) := by
  rw [items?, found]
  simp only [skipBlanks_cons (show isBlank ']' = false from rfl), List.reverse_cons]

theorem items?_comma {fuel : Nat} {text rest : List Char} {doc : Document}
    (found : value? fuel text = some (doc, ',' :: rest)) (held : List Document) :
    items? (fuel + 1) text held = items? fuel rest (doc :: held) := by
  rw [items?, found]
  simp only [skipBlanks_cons (show isBlank ',' = false from rfl)]

theorem value?_fields (name : String) (fuel : Nat) (text : List Char) :
    value? (fuel + 1) ('\x7b' :: ((quote name).toList ++ text)) =
      fields? fuel ((quote name).toList ++ text) [] := by
  obtain ⟨inside, shown, _⟩ := text?_quote name text
  rw [shown, value?, skipBlanks_cons rfl]
  simp only [skipBlanks_cons (show isBlank '"' = false from rfl)]
  rfl

theorem fields?_last {fuel : Nat} {text rest : List Char} {doc : Document} (name : String)
    (found : value? fuel text = some (doc, '\x7d' :: rest))
    (held : List (Option String × Document)) :
    fields? (fuel + 1) ((quote name).toList ++ ':' :: text) held =
      some (.object (held.reverse ++ [(some name, doc)]), rest) := by
  obtain ⟨inside, shown, read⟩ := text?_quote name (':' :: text)
  rw [shown, fields?, skipBlanks_cons rfl]
  simp only [read, skipBlanks_cons (show isBlank ':' = false from rfl), found,
    skipBlanks_cons (show isBlank '\x7d' = false from rfl), List.reverse_cons]

theorem fields?_comma {fuel : Nat} {text rest : List Char} {doc : Document} (name : String)
    (found : value? fuel text = some (doc, ',' :: rest))
    (held : List (Option String × Document)) :
    fields? (fuel + 1) ((quote name).toList ++ ':' :: text) held =
      fields? fuel rest ((some name, doc) :: held) := by
  obtain ⟨inside, shown, read⟩ := text?_quote name (':' :: text)
  rw [shown, fields?, skipBlanks_cons rfl]
  simp only [read, skipBlanks_cons (show isBlank ':' = false from rfl), found,
    skipBlanks_cons (show isBlank ',' = false from rfl)]

end Document

namespace Data

theorem toList_array (items : List Data) :
    (render (.array items)).toList = '[' :: ((renderItems items).toList ++ [']']) := by
  rw [render, String.toList_append, String.toList_append]
  rfl

theorem toList_items (item next : Data) (items : List Data) :
    (renderItems (item :: next :: items)).toList =
      item.render.toList ++ ',' :: (renderItems (next :: items)).toList := by
  simp [renderItems]

theorem toList_object (fields : List (String × Data)) :
    (render (.object fields)).toList = '\x7b' :: ((renderFields fields).toList ++ ['\x7d']) := by
  rw [render, String.toList_append, String.toList_append]
  rfl

theorem toList_field (name : String) (content : Data) :
    (renderFields [(name, content)]).toList =
      (quote name).toList ++ ':' :: content.render.toList := by
  rw [renderFields, String.toList_append, String.toList_append, List.append_assoc]
  rfl

theorem toList_fields (name : String) (content : Data) (next : String × Data)
    (fields : List (String × Data)) :
    (renderFields ((name, content) :: next :: fields)).toList =
      (quote name).toList ++ ':' :: (content.render.toList ++ ',' ::
        (renderFields (next :: fields)).toList) := by
  simp [renderFields]

/-- Neither a blank nor the end of an array starts a value. -/
theorem render_starts {d : Data} (exact_ : d.Exact) :
    ∃ c text, d.render.toList = c :: text ∧ Document.isBlank c = false ∧ c ≠ ']' := by
  cases d with
  | null => exact ⟨'n', _, rfl, rfl, by decide⟩
  | bool value =>
      cases value with
      | true => exact ⟨'t', _, rfl, rfl, by decide⟩
      | false => exact ⟨'f', _, rfl, rfl, by decide⟩
  | number n =>
      obtain ⟨c, text, shown, first⟩ := Number.render_starts exact_
      refine ⟨c, text, shown, Document.isBlank_of_number first, ?_⟩
      rintro rfl
      exact absurd first (by decide)
  | string text =>
      obtain ⟨inside, shown, _⟩ := Document.text?_quote text []
      rw [List.append_nil] at shown
      exact ⟨'"', inside, shown, rfl, by decide⟩
  | array items => exact ⟨'[', _, toList_array items, rfl, by decide⟩
  | object fields => exact ⟨'\x7b', _, toList_object fields, rfl, by decide⟩

theorem renderItems_starts {item : Data} (exact_ : item.Exact) (items : List Data) :
    ∃ c text, (renderItems (item :: items)).toList = c :: text ∧ Document.isBlank c = false ∧
      c ≠ ']' := by
  obtain ⟨c, text, shown, solid⟩ := render_starts exact_
  cases items with
  | nil => exact ⟨c, text, shown, solid⟩
  | cons next items => exact ⟨c, _, by rw [toList_items, shown, List.cons_append], solid⟩

theorem renderFields_starts (name : String) (content : Data) (fields : List (String × Data)) :
    ∃ text, (renderFields ((name, content) :: fields)).toList = (quote name).toList ++ text := by
  cases fields with
  | nil => exact ⟨_, toList_field name content⟩
  | cons next fields => exact ⟨_, toList_fields name content next fields⟩

end Data

namespace Document

open Data

theorem delimited_cons {c : Char} (ends : c = ',' ∨ c = ']' ∨ c = '\x7d') (text : List Char) :
    Delimited (c :: text) := by
  intro c' first
  obtain rfl := Option.some.inj first
  exact ends

/-- The document stands for the data and is nested as deep. -/
structure Denotes (doc : Document) (d : Data) : Prop where
  data : ofDocument? doc = some d.sorted
  depth : doc.depth = d.depth

structure DenoteItems (docs : List Document) (items : List Data) : Prop where
  data : itemsOfDocuments? docs = some (sortedItems items)
  depth : depthItems docs = Data.depthItems items

structure DenoteFields (docs : List (Option String × Document))
    (fields : List (String × Data)) : Prop where
  data : fieldsOfDocuments? docs = some (sortedFields fields)
  depth : depthFields docs = Data.depthFields fields

theorem DenoteItems.nil : DenoteItems [] [] := ⟨rfl, rfl⟩

theorem DenoteItems.cons {doc : Document} {docs : List Document} {item : Data} {items : List Data}
    (first : Denotes doc item) (others : DenoteItems docs items) :
    DenoteItems (doc :: docs) (item :: items) := by
  refine ⟨?_, ?_⟩
  · rw [itemsOfDocuments?, first.data, others.data]
    rfl
  · rw [depthItems, first.depth, others.depth]
    rfl

theorem DenoteFields.nil : DenoteFields [] [] := ⟨rfl, rfl⟩

theorem DenoteFields.cons {doc : Document} {docs : List (Option String × Document)}
    {content : Data} {fields : List (String × Data)} (name : String) (first : Denotes doc content)
    (others : DenoteFields docs fields) :
    DenoteFields ((some name, doc) :: docs) ((name, content) :: fields) := by
  refine ⟨?_, ?_⟩
  · rw [fieldsOfDocuments?, first.data, others.data]
    rfl
  · rw [depthFields, first.depth, others.depth]
    rfl

theorem Denotes.array {docs : List Document} {items : List Data} (h : DenoteItems docs items) :
    Denotes (.array docs) (.array items) := by
  refine ⟨?_, ?_⟩
  · rw [ofDocument?, h.data]
    rfl
  · rw [Document.depth, h.depth]
    rfl

theorem Denotes.object {docs : List (Option String × Document)} {fields : List (String × Data)}
    (h : DenoteFields docs fields) : Denotes (.object docs) (.object fields) := by
  refine ⟨?_, ?_⟩
  · rw [ofDocument?, h.data]
    rfl
  · rw [Document.depth, h.depth]
    rfl

/-- With so much fuel, all that is written short enough is read back.  A bracket or a comma
is one character and takes at most two calls, one for the value and one for the items or
fields behind it. -/
structure ReadsBack (fuel : Nat) : Prop where
  value : ∀ (d : Data) (rest : List Char), d.Exact → 2 * d.render.toList.length < fuel →
    Delimited rest → ∃ doc, value? fuel (d.render.toList ++ rest) = some (doc, rest) ∧
      Denotes doc d
  items : ∀ (item : Data) (items : List Data) (rest : List Char) (held : List Document),
    ExactItems (item :: items) → 2 * (renderItems (item :: items)).toList.length + 1 < fuel →
    ∃ docs, items? fuel ((renderItems (item :: items)).toList ++ ']' :: rest) held =
        some (.array (held.reverse ++ docs), rest) ∧
      DenoteItems docs (item :: items)
  fields : ∀ (name : String) (content : Data) (fields : List (String × Data)) (rest : List Char)
    (held : List (Option String × Document)), ExactFields ((name, content) :: fields) →
    2 * (renderFields ((name, content) :: fields)).toList.length + 1 < fuel →
    ∃ docs,
      fields? fuel ((renderFields ((name, content) :: fields)).toList ++ '\x7d' :: rest) held =
        some (.object (held.reverse ++ docs), rest) ∧
      DenoteFields docs ((name, content) :: fields)

namespace ReadsBack

variable {fuel : Nat}

theorem value_succ (below : ReadsBack fuel) {d : Data} (rest : List Char) (exact_ : d.Exact)
    (enough : 2 * d.render.toList.length < fuel + 1) (ends : Delimited rest) :
    ∃ doc, value? (fuel + 1) (d.render.toList ++ rest) = some (doc, rest) ∧
      Denotes doc d := by
  cases d with
  | null => exact ⟨.null, rfl, rfl, rfl⟩
  | bool value =>
      cases value with
      | true => exact ⟨.bool true, rfl, rfl, rfl⟩
      | false => exact ⟨.bool false, rfl, rfl, rfl⟩
  | number n =>
      obtain ⟨c, more, shown, first⟩ := Number.render_starts exact_
      obtain ⟨text, read, denotes⟩ := number?_render exact_ ends
      rw [shown, List.cons_append] at read
      refine ⟨.number text, ?_, ?_, rfl⟩
      · rw [render, shown, List.cons_append, value?_number first, read]
        rfl
      · rw [ofDocument?, denotes]
        rfl
  | string text => exact ⟨.string (some text), value?_quote text fuel rest, rfl, rfl⟩
  | array items =>
      cases items with
      | nil => exact ⟨.array [], rfl, .array .nil⟩
      | cons item items =>
          rw [toList_array, List.length_cons, List.length_append, List.length_singleton] at enough
          obtain ⟨docs, read, denotes⟩ := below.items item items rest [] exact_ (by omega)
          obtain ⟨c, text, shown, solid, more⟩ := renderItems_starts exact_.1 items
          refine ⟨.array docs, ?_, .array denotes⟩
          rw [toList_array, List.cons_append, List.append_assoc, List.singleton_append]
          rw [shown, List.cons_append] at read ⊢
          exact (value?_items solid more fuel _).trans read
  | object fields =>
      cases fields with
      | nil => exact ⟨.object [], rfl, .object .nil⟩
      | cons field fields =>
          obtain ⟨name, content⟩ := field
          rw [toList_object, List.length_cons, List.length_append, List.length_singleton] at enough
          obtain ⟨docs, read, denotes⟩ := below.fields name content fields rest [] exact_ (by omega)
          obtain ⟨text, shown⟩ := renderFields_starts name content fields
          refine ⟨.object docs, ?_, .object denotes⟩
          rw [toList_object, List.cons_append, List.append_assoc, List.singleton_append]
          rw [shown, List.append_assoc] at read ⊢
          exact (value?_fields name fuel _).trans read

theorem items_succ (below : ReadsBack fuel) (item : Data) (items : List Data) (rest : List Char)
    (held : List Document) (exact_ : ExactItems (item :: items))
    (enough : 2 * (renderItems (item :: items)).toList.length + 1 < fuel + 1) :
    ∃ docs, items? (fuel + 1) ((renderItems (item :: items)).toList ++ ']' :: rest) held =
        some (.array (held.reverse ++ docs), rest) ∧
      DenoteItems docs (item :: items) := by
  obtain ⟨first, others⟩ := exact_
  cases items with
  | nil =>
      have ends : Delimited (']' :: rest) := delimited_cons (by decide) rest
      obtain ⟨doc, read, denotes⟩ := below.value item (']' :: rest) first
        (by rw [renderItems] at enough; omega) ends
      exact ⟨[doc], items?_last read held, .cons denotes .nil⟩
  | cons next items =>
      rw [toList_items, List.length_append, List.length_cons] at enough
      have ends : Delimited (',' :: ((renderItems (next :: items)).toList ++ ']' :: rest)) :=
        delimited_cons (by decide) _
      obtain ⟨doc, read, denotes⟩ := below.value item _ first (by omega) ends
      obtain ⟨docs, later, denote⟩ := below.items next items rest (doc :: held) others (by omega)
      refine ⟨doc :: docs, ?_, .cons denotes denote⟩
      rw [toList_items, List.append_assoc, List.cons_append, items?_comma read, later,
        List.reverse_cons, List.append_assoc, List.singleton_append]

theorem fields_succ (below : ReadsBack fuel) (name : String) (content : Data)
    (fields : List (String × Data)) (rest : List Char) (held : List (Option String × Document))
    (exact_ : ExactFields ((name, content) :: fields))
    (enough : 2 * (renderFields ((name, content) :: fields)).toList.length + 1 < fuel + 1) :
    ∃ docs,
      fields? (fuel + 1) ((renderFields ((name, content) :: fields)).toList ++ '\x7d' :: rest)
          held = some (.object (held.reverse ++ docs), rest) ∧
      DenoteFields docs ((name, content) :: fields) := by
  obtain ⟨first, others⟩ := exact_
  cases fields with
  | nil =>
      have ends : Delimited ('\x7d' :: rest) := delimited_cons (by decide) rest
      rw [toList_field, List.length_append, List.length_cons] at enough
      obtain ⟨doc, read, denotes⟩ := below.value content ('\x7d' :: rest) first (by omega) ends
      refine ⟨[(some name, doc)], ?_, .cons name denotes .nil⟩
      rw [toList_field, List.append_assoc, List.cons_append]
      exact fields?_last name read held
  | cons next fields =>
      obtain ⟨nextName, nextContent⟩ := next
      rw [toList_fields, List.length_append, List.length_cons, List.length_append,
        List.length_cons] at enough
      have ends : Delimited
          (',' :: ((renderFields ((nextName, nextContent) :: fields)).toList ++ '\x7d' :: rest)) :=
        delimited_cons (by decide) _
      obtain ⟨doc, read, denotes⟩ := below.value content _ first (by omega) ends
      obtain ⟨docs, later, denote⟩ :=
        below.fields nextName nextContent fields rest ((some name, doc) :: held) others (by omega)
      refine ⟨(some name, doc) :: docs, ?_, .cons name denotes denote⟩
      rw [toList_fields, List.append_assoc, List.cons_append, List.append_assoc, List.cons_append,
        fields?_comma name read, later, List.reverse_cons, List.append_assoc,
        List.singleton_append]

end ReadsBack

theorem readsBack (fuel : Nat) : ReadsBack fuel := by
  induction fuel with
  | zero =>
      exact ⟨fun _ _ _ enough => absurd enough (Nat.not_lt_zero _),
        fun _ _ _ _ _ enough => absurd enough (Nat.not_lt_zero _),
        fun _ _ _ _ _ _ enough => absurd enough (Nat.not_lt_zero _)⟩
  | succ fuel below =>
      exact ⟨fun _ => below.value_succ, below.items_succ, below.fields_succ⟩

end Document

/-- The text of exact data tells the data if it can be read at all: it must not nest too many
arrays and objects. -/
theorem Data.read?_render {d : Data} (exact_ : d.Exact) :
    read? d.render = if d.depth ≤ nestingLimit then some d.sorted else none := by
  have room : 2 * d.render.toList.length < 2 * d.render.toList.length + 2 := by omega
  obtain ⟨doc, read, denotes⟩ :=
    (Document.readsBack _).value d [] exact_ room fun _ first => by cases first
  rw [List.append_nil] at read
  have whole : Document.read? d.render = some doc := by
    rw [Document.read?]
    simp only [read]
    rfl
  rw [read?, whole, ← denotes.depth, ← denotes.data]
  rfl

end Switchboard
