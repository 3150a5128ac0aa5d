import Switchboard.Message
import Switchboard.Proofs.Data.Texts

/-!
# Which channels their texts tell

Parsing splits at every slash, and the text joins with slashes, so the text of a parsed
channel is the text that was parsed.  The other way round the text tells all but two kinds
of channels (`Channel.parse_text_iff`): one with a slash in a segment is cut there, and the
one whose only segment is empty has the text of the channel without segments.

A channel is written as its text, and so it is read from its form, alone or in a message,
exactly if its text tells it.
-/

namespace Switchboard

theorem pieces_eq_splitOn (text : List Char) : pieces text = text.splitOn '/' := by
  induction text with
  | nil => rfl
  | cons c rest ih =>
      rw [pieces, List.splitOn_cons_eq_if_modifyHead, ih]
      by_cases slash : c = '/'
      · rw [if_pos slash, if_pos (beq_iff_eq.2 slash)]
      · rw [if_neg slash, if_neg (mt beq_iff_eq.1 slash)]
        cases found : rest.splitOn '/' with
        | nil => exact (List.splitOn_ne_nil '/' rest found).elim
        | cons piece others => rfl

/-- No piece has a slash. -/
theorem slash_not_mem_pieces {text piece : List Char} (mem : piece ∈ pieces text) :
    '/' ∉ piece := by
  induction text generalizing piece with
  | nil =>
      obtain rfl := List.mem_singleton.1 mem
      exact List.not_mem_nil
  | cons c rest ih =>
      rw [pieces] at mem
      split at mem
      · rcases List.mem_cons.1 mem with rfl | mem
        · exact List.not_mem_nil
        · exact ih mem
      · rename_i other
        split at mem
        · obtain rfl := List.mem_singleton.1 mem
          simpa [eq_comm] using other
        · rename_i front others found
          rcases List.mem_cons.1 mem with rfl | mem
          · have front := ih (found ▸ List.mem_cons_self)
            simpa [eq_comm, other] using front
          · exact ih (found ▸ List.mem_cons_of_mem _ mem)

namespace Channel

variable {c c' : Channel}

/-- The text tells the channel: no segment has a slash, and the channel is not a single empty
segment. -/
def Spelled (c : Channel) : Prop :=
  (∀ segment ∈ c.segments, '/' ∉ segment.toList) ∧ c.segments ≠ [""]

instance (c : Channel) : Decidable c.Spelled :=
  inferInstanceAs (Decidable (_ ∧ _))

theorem toList_text (c : Channel) :
    c.text.toList = ['/'].intercalate (c.segments.map String.toList) :=
  String.toList_intercalate

theorem text_parse (s : String) : (parse s).text = s := by
  rw [parse]
  split
  · rename_i empty
    exact (String.isEmpty_iff.1 empty).symm
  · have split : ((pieces s.toList).map String.ofList).map String.toList =
        s.toList.splitOn '/' := by
      rw [List.map_map, ← pieces_eq_splitOn]
      simp [Function.comp_def]
    rw [← String.toList_inj, toList_text, split, List.intercalate_splitOn]

theorem spelled_parse (s : String) : (parse s).Spelled := by
  refine ⟨?_, fun single => ?_⟩
  · intro segment mem
    rw [parse] at mem
    split at mem
    · cases mem
    · obtain ⟨piece, listed, rfl⟩ := List.mem_map.1 mem
      rw [String.toList_ofList]
      exact slash_not_mem_pieces listed
  · have empty : "" = s := by
      have same := text_parse s
      rwa [text, single, String.intercalate_singleton] at same
    subst empty
    cases single

theorem parse_text (spelled : c.Spelled) : parse c.text = c := by
  obtain ⟨segments⟩ := c
  obtain ⟨uncut, not_single⟩ := spelled
  cases segments with
  | nil => rfl
  | cons segment others =>
      have whole : (text ⟨segment :: others⟩).toList.splitOn '/' =
          (segment :: others).map String.toList := by
        rw [toList_text]
        refine List.splitOn_intercalate '/' (fun piece mem => ?_) (by simp)
        obtain ⟨own, listed, rfl⟩ := List.mem_map.1 mem
        exact uncut own listed
      have some_ : ¬(text ⟨segment :: others⟩).isEmpty = true := by
        intro empty
        rw [String.isEmpty_iff.1 empty, List.map_cons] at whole
        obtain ⟨first, rest⟩ := List.cons.inj whole
        rw [String.toList_eq_nil_iff.1 first.symm, List.map_eq_nil_iff.1 rest.symm] at not_single
        exact not_single rfl
      rw [parse, if_neg some_, pieces_eq_splitOn, whole, List.map_map]
      simp [Function.comp_def]

theorem parse_text_iff : parse c.text = c ↔ c.Spelled :=
  ⟨fun same => same ▸ spelled_parse c.text, parse_text⟩

theorem text_inj (spelled : c.Spelled) (spelled' : c'.Spelled) : c.text = c'.text ↔ c = c' := by
  refine ⟨fun same => ?_, congrArg text⟩
  rw [← parse_text spelled, same, parse_text spelled']

theorem ofData?_toData (c : Channel) : ofData? c.toData = some (parse c.text) := rfl

/-- A channel is a string, so that its text in JSON tells its form. -/
theorem read?_toData (c : Channel) : Data.read? c.toData.render = some c.toData := by
  have exact_ : c.toData.Exact := trivial
  rw [Data.read?_render exact_]
  rfl

end Channel

theorem Message.ofData?_toData (m : Message) :
    ofData? m.toData = some ⟨.parse m.channel.text, m.data⟩ := by
  simp [ofData?, toData, fieldNames, Data.record?, Data.fields?, Entries.find?,
    Channel.ofData?_toData]

namespace Channel

/-- Every text is that of the channel it is parsed to, but a channel is parsed from its text
only if no segment has a slash and it is not a single empty segment.  Just such channels
survive being written as JSON, as a value and as a text, and just the messages on them do.
Among them equal texts mean equal channels. -/
theorem texts_tell_channels :
    (∀ s : String, (parse s).text = s) ∧
    (∀ c : Channel, parse c.text = c ↔
      (∀ segment ∈ c.segments, '/' ∉ segment.toList) ∧ c.segments ≠ [""]) ∧
    (∀ c : Channel, (ofData? c.toData = some c ↔ c.Spelled) ∧
      ((Data.read? c.toData.render).bind ofData? = some c ↔ c.Spelled)) ∧
    (∀ m : Message, Message.ofData? m.toData = some m ↔ m.channel.Spelled) ∧
    ∀ c c' : Channel, c.Spelled → c'.Spelled → (c = c' ↔ c.text = c'.text) := by
  have restored : ∀ c : Channel, ofData? c.toData = some c ↔ c.Spelled := fun c => by
    rw [ofData?_toData, Option.some.injEq, parse_text_iff]
  refine ⟨text_parse, fun c => parse_text_iff, fun c => ⟨restored c, ?_⟩, fun m => ?_, ?_⟩
  · rw [read?_toData, Option.bind_some, restored]
  · rw [Message.ofData?_toData, Option.some.injEq, ← parse_text_iff]
    exact ⟨congrArg Message.channel, fun same => by rw [same]⟩
  · exact fun c c' spelled spelled' => (text_inj spelled spelled').symm

/-- An empty segment between others is told by the text; a single one, which is what a
closing slash leaves behind a segment, is not. -/
theorem texts_tell_empty_segments :
    (⟨["left", "", "set"]⟩ : Channel).Spelled ∧ (⟨["left", "set"]⟩ : Channel).Spelled ∧
    (⟨["left", "", "set"]⟩ : Channel).text ≠ (⟨["left", "set"]⟩ : Channel).text ∧
    (parse "left/").tail.text = (⟨[]⟩ : Channel).text ∧
    parse (parse "left/").tail.text ≠ (parse "left/").tail := by
  have spelled : (⟨["left", "", "set"]⟩ : Channel).Spelled := by decide +kernel
  have spelled' : (⟨["left", "set"]⟩ : Channel).Spelled := by decide +kernel
  obtain ⟨_, parsed, _, _, told⟩ := texts_tell_channels
  refine ⟨spelled, spelled', fun same => ?_, by decide +kernel, fun same => ?_⟩
  · exact absurd ((told _ _ spelled spelled').2 same) (by decide)
  · exact ((parsed _).1 same).2 (by decide +kernel)

end Channel

end Switchboard
