import Switchboard.Machine.Cell
import Switchboard.Proofs.Iteration

/-!
# Paths into a cell

A path of index texts leads from the value of a cell to a value inside it, or it goes
astray (`Cell.locate`).  An operation at the end of a path does to that inner value what
it would do to a cell of its own, and the result is put back in place
(`Cell.operate_along`).

With `copy` to look and `set` to write, a path is a lens: what was written is read, what
was read may be written back, the last of two writes counts, and a path that leads
elsewhere sees nothing of them (`Cell.paths_are_lenses`).  Two texts of one number are the
same step.
-/

namespace Switchboard

namespace Cell

/-! ## One step -/

/-- Why a path leads nowhere. -/
inductive Astray where
  | noIndex (text : String)
  | noArray
  | outOfRange (index length : Nat)

def Astray.text (full : Channel) : Astray → String
  | .noIndex text => "invalid index '" ++ text ++ "'"
  | .noArray => "cannot index into non-array value at '" ++ full.text ++ "'"
  | .outOfRange index length =>
      "index " ++ toString index ++ " out of range for length " ++ toString length

/-- An item of an array. -/
structure Item where
  items : List Data
  index : Nat
  item : Data

/-- The item of a value that an index text names. -/
def select (text : String) (value : Data) : Except Astray Item :=
  match index? text with
  | none => .error (.noIndex text)
  | some i =>
      match value with
      | .array items =>
          match items[i]? with
          | none => .error (.outOfRange i items.length)
          | some item => .ok ⟨items, i, item⟩
      | _ => .error .noArray

theorem select_eq_ok_iff {text : String} {value : Data} {found : Item} :
    select text value = .ok found ↔
      index? text = some found.index ∧ value = .array found.items ∧
        found.items[found.index]? = some found.item := by
  obtain ⟨items, i, item⟩ := found
  constructor
  · intro h
    unfold select at h
    split at h
    · cases h
    · rename_i named
      split at h
      · split at h
        · cases h
        · rename_i there
          cases h
          exact ⟨named, rfl, there⟩
      · cases h
  · rintro ⟨named, rfl, there⟩
    simp only [select, named, there]

/-- The item that was selected is replaced: it is there under every text of its index, and
under any other text there is what was there. -/
theorem select_set {text : String} {value : Data} {found : Item}
    (selected : select text value = .ok found) (other : String) (new : Data) :
    select other (.array (found.items.set found.index new)) =
      if index? other = index? text then .ok ⟨found.items.set found.index new, found.index, new⟩
      else (select other value).map fun item =>
        ⟨found.items.set found.index new, item.index, item.item⟩ := by
  obtain ⟨named, rfl, there⟩ := select_eq_ok_iff.1 selected
  obtain ⟨inside, _⟩ := List.getElem?_eq_some_iff.1 there
  by_cases same : index? other = index? text
  · rw [if_pos same, select_eq_ok_iff]
    refine ⟨same.trans named, rfl, ?_⟩
    exact List.getElem?_set_self inside
  · rw [if_neg same]
    unfold select
    cases number : index? other with
    | none => rfl
    | some j =>
        have apart : found.index ≠ j := by
          rintro rfl
          exact same (number.trans named.symm)
        simp only [List.getElem?_set_ne apart, List.length_set]
        cases found.items[j]? with
        | none => rfl
        | some item => rfl

/-- An item that is put back leaves the array as it was. -/
theorem set_select {text : String} {value : Data} {found : Item}
    (selected : select text value = .ok found) :
    .array (found.items.set found.index found.item) = value := by
  obtain ⟨_, rfl, there⟩ := select_eq_ok_iff.1 selected
  obtain ⟨inside, same⟩ := List.getElem?_eq_some_iff.1 there
  rw [← same, List.set_getElem_self]

/-- Two texts of one number name the same item. -/
theorem select_alike {text other : String} {value : Data} {found : Item}
    (selected : select text value = .ok found) (same : index? other = index? text) :
    select other value = .ok found := by
  rw [select_eq_ok_iff] at selected ⊢
  exact ⟨same.trans selected.1, selected.2⟩

/-! ## Whole paths -/

/-- What a path of index texts leads to. -/
def locate : List String → Data → Except Astray Data
  | [], value => .ok value
  | text :: rest, value => do
      let found ← select text value
      locate rest found.item

/-- Puts a value where a path leads; if the path leads nowhere, nothing is changed. -/
def place (new : Data) : List String → Data → Data
  | [], _ => new
  | text :: rest, value =>
      match select text value with
      | .ok found => .array (found.items.set found.index (place new rest found.item))
      | .error _ => value

/-- At some step both paths go on, and to different items. -/
def Apart (path other : List String) : Prop :=
  ∃ (depth : Nat) (text text' : String), path[depth]? = some text ∧ other[depth]? = some text' ∧
    index? text ≠ index? text'

theorem not_apart_nil (path : List String) : ¬Apart path [] := by
  rintro ⟨depth, text, text', _, there, _⟩
  cases there

theorem apart_cons_iff {text text' : String} {rest rest' : List String} :
    Apart (text :: rest) (text' :: rest') ↔ index? text ≠ index? text' ∨ Apart rest rest' := by
  constructor
  · rintro ⟨depth, first, second, there, there', differ⟩
    cases depth with
    | zero =>
        cases there
        cases there'
        exact Or.inl differ
    | succ depth => exact Or.inr ⟨depth, first, second, there, there', differ⟩
  · rintro (differ | ⟨depth, first, second, there, there', differ⟩)
    · exact ⟨0, text, text', rfl, rfl, differ⟩
    · exact ⟨depth + 1, first, second, there, there', differ⟩

section Laws

variable {text : String} {rest path other : List String} {value new old : Data} {found : Item}
  {astray : Astray}

theorem locate_cons_ok (selected : select text value = .ok found) (rest : List String) :
    locate (text :: rest) value = locate rest found.item := by
  rw [locate, selected]
  rfl

theorem locate_cons_error (lost : select text value = .error astray) (rest : List String) :
    locate (text :: rest) value = .error astray := by
  rw [locate, lost]
  rfl

theorem place_cons_ok (selected : select text value = .ok found) (new : Data)
    (rest : List String) : place new (text :: rest) value =
      .array (found.items.set found.index (place new rest found.item)) := by
  rw [place, selected]

theorem place_cons_error (lost : select text value = .error astray) (new : Data)
    (rest : List String) : place new (text :: rest) value = value := by
  rw [place, lost]

/-- Where a path leads nowhere nothing can be put. -/
theorem place_of_astray (lost : locate path value = .error astray) :
    place new path value = value := by
  induction path generalizing value with
  | nil => cases lost
  | cons text rest ih =>
      cases step : select text value with
      | error _ => exact place_cons_error step new rest
      | ok found =>
          rw [locate_cons_ok step] at lost
          rw [place_cons_ok step, ih lost]
          exact set_select step

/-- What a path leads to may be put there again. -/
theorem place_locate (there : locate path value = .ok old) : place old path value = value := by
  induction path generalizing value with
  | nil =>
      cases there
      rfl
  | cons text rest ih =>
      cases step : select text value with
      | error _ => exact place_cons_error step old rest
      | ok found =>
          rw [locate_cons_ok step] at there
          rw [place_cons_ok step, ih there]
          exact set_select step

/-- Paths that tell the same indices lead to the same value. -/
theorem locate_alike (there : locate path value = .ok old)
    (alike : other.map index? = path.map index?) : locate other value = .ok old := by
  induction path generalizing value other with
  | nil =>
      obtain rfl := List.map_eq_nil_iff.1 alike
      exact there
  | cons text rest ih =>
      obtain ⟨text', rest', rfl, same, later⟩ := List.map_eq_cons_iff.1 alike
      cases step : select text value with
      | error _ =>
          rw [locate_cons_error step] at there
          cases there
      | ok found =>
          rw [locate_cons_ok step] at there
          rw [locate_cons_ok (select_alike step same)]
          exact ih there later

/-- Paths that tell the same indices are the same place. -/
theorem place_alike (there : locate path value = .ok old)
    (alike : other.map index? = path.map index?) (new : Data) :
    place new other value = place new path value := by
  induction path generalizing value other with
  | nil =>
      obtain rfl := List.map_eq_nil_iff.1 alike
      rfl
  | cons text rest ih =>
      obtain ⟨text', rest', rfl, same, later⟩ := List.map_eq_cons_iff.1 alike
      cases step : select text value with
      | error _ =>
          rw [locate_cons_error step] at there
          cases there
      | ok found =>
          rw [locate_cons_ok step] at there
          rw [place_cons_ok step, place_cons_ok (select_alike step same), ih there later]

/-- What was put at the end of a path is there. -/
theorem locate_place (there : locate path value = .ok old) (new : Data) :
    locate path (place new path value) = .ok new := by
  induction path generalizing value with
  | nil => rfl
  | cons text rest ih =>
      cases step : select text value with
      | error _ =>
          rw [locate_cons_error step] at there
          cases there
      | ok found =>
          rw [locate_cons_ok step] at there
          have moved := (select_set step text (place new rest found.item)).trans (if_pos rfl)
          rw [place_cons_ok step, locate_cons_ok moved]
          exact ih there

/-- Of two values put at the end of a path the later one stays. -/
theorem place_place (new newer : Data) (path : List String) (value : Data) :
    place newer path (place new path value) = place newer path value := by
  induction path generalizing value with
  | nil => rfl
  | cons text rest ih =>
      cases step : select text value with
      | error _ => rw [place_cons_error step]
      | ok found =>
          have moved := (select_set step text (place new rest found.item)).trans (if_pos rfl)
          rw [place_cons_ok step, place_cons_ok moved, place_cons_ok step, List.set_set, ih]

/-- A path that leads elsewhere leads to what it led to before, or goes astray as it did
before. -/
theorem locate_place_of_apart (there : locate path value = .ok old) (apart : Apart path other) :
    locate other (place new path value) = locate other value := by
  induction path generalizing value other with
  | nil =>
      obtain ⟨depth, text, text', none_, _⟩ := apart
      cases none_
  | cons text rest ih =>
      cases step : select text value with
      | error _ => rw [place_cons_error step]
      | ok found =>
          rw [locate_cons_ok step] at there
          cases other with
          | nil => exact (not_apart_nil _ apart).elim
          | cons text' rest' =>
              have moved := select_set step text' (place new rest found.item)
              rw [place_cons_ok step]
              by_cases same : index? text' = index? text
              · have apart_below :=
                  (apart_cons_iff.1 apart).resolve_left fun differ => differ same.symm
                rw [if_pos same] at moved
                rw [locate_cons_ok moved, locate_cons_ok (select_alike step same)]
                exact ih there apart_below
              · rw [if_neg same] at moved
                cases aside : select text' value with
                | error _ =>
                    rw [aside] at moved
                    rw [locate_cons_error moved, locate_cons_error aside]
                | ok item =>
                    rw [aside] at moved
                    rw [locate_cons_ok moved, locate_cons_ok aside]

end Laws

/-! ## Requests -/

/-- The channel of an operation at the end of a path. -/
def along : List String → String → List String
  | [], op => [op]
  | text :: rest, op => "element" :: text :: along rest op

theorem operate_cons (full : Channel) (data : Data) (text : String) (rest : List String)
    (op : String) (value : Data) :
    operate full data (along (text :: rest) op) value =
      match select text value with
      | .error astray => .ok (value, Message.err (astray.text full))
      | .ok found =>
          (operate full data (along rest op) found.item).map fun (item, reply) =>
            (.array (found.items.set found.index item), reply) := by
  obtain ⟨segment, more, segments⟩ : ∃ segment more, along rest op = segment :: more := by
    cases rest with
    | nil => exact ⟨op, [], rfl⟩
    | cons text rest => exact ⟨"element", text :: along rest op, rfl⟩
  rw [along, segments, operate, select]
  cases index? text with
  | none => rfl
  | some i =>
      cases value with
      | array items =>
          dsimp only
          cases items[i]? with
          | none => rfl
          | some item =>
              dsimp only
              cases operate full data (segment :: more) item with
              | error fault => rfl
              | ok done => rfl
      | _ => rfl

/-- An operation at the end of a path is done to what the path leads to. -/
theorem operate_along (full : Channel) (data : Data) (path : List String) (op : String)
    (value : Data) :
    operate full data (along path op) value =
      match locate path value with
      | .error astray => .ok (value, Message.err (astray.text full))
      | .ok old =>
          (operate full data [op] old).map fun (new, reply) => (place new path value, reply) := by
  induction path generalizing value with
  | nil =>
      show operate full data [op] value = (operate full data [op] value).map id
      cases operate full data [op] value with
      | error fault => rfl
      | ok done => rfl
  | cons text rest ih =>
      rw [operate_cons]
      cases step : select text value with
      | error astray => rw [locate_cons_error step]
      | ok found =>
          rw [locate_cons_ok step]
          dsimp only
          rw [ih]
          cases there : locate rest found.item with
          | error astray =>
              have same := set_select step
              exact congrArg (fun value => Except.ok (value, _)) same
          | ok old =>
              dsimp only
              cases operate full data [op] old with
              | error fault => rfl
              | ok done =>
                  obtain ⟨new, reply⟩ := done
                  show Except.ok (_, reply) = Except.ok (_, reply)
                  rw [place_cons_ok step]

/-- Asks for a copy of what stands at the end of a path; the data is not read. -/
def copying (path : List String) (data : Data) : Message :=
  ⟨⟨along path "copy"⟩, data⟩

/-- Sets what stands at the end of a path. -/
def setting (path : List String) (new : Data) : Message :=
  ⟨⟨along path "set"⟩, new⟩

/-- What is answered on a channel for what was found. -/
def answer (full : Channel) : Except Astray Data → Message
  | .ok found => Message.result found
  | .error astray => Message.err (astray.text full)

theorem advance_of_operate {message : Message} {value value' : Data} {reply : Message}
    (done : operate message.channel message.data message.channel.segments value =
      .ok (value', reply)) : Machine.cell.advance ⟨value⟩ message = pure (⟨value'⟩, reply) := by
  simp only [Machine.cell, done]

/-- A copy is what the path leads to, and changes nothing. -/
theorem advance_copying (path : List String) (value data : Data) :
    Machine.cell.advance ⟨value⟩ (copying path data) =
      pure (⟨value⟩, answer (copying path data).channel (locate path value)) := by
  apply advance_of_operate
  show operate _ data (along path "copy") value = _
  rw [operate_along]
  cases there : locate path value with
  | error astray => rfl
  | ok old =>
      show Except.ok (place old path value, _) = Except.ok (value, _)
      rw [place_locate there]
      rfl

/-- A value is set where the path leads; if it leads nowhere, nothing is changed. -/
theorem advance_setting (path : List String) (value new : Data) :
    Machine.cell.advance ⟨value⟩ (setting path new) =
      pure (⟨place new path value⟩,
        answer (setting path new).channel ((locate path value).map fun _ => .null)) := by
  apply advance_of_operate
  show operate _ new (along path "set") value = _
  rw [operate_along]
  cases there : locate path value with
  | error astray =>
      rw [place_of_astray there]
      rfl
  | ok old => rfl

theorem answer_is_result {full : Channel} {found : Except Astray Data}
    (h : (answer full found).channel = .result) : ∃ value, found = .ok value := by
  cases found with
  | ok value => exact ⟨value, rfl⟩
  | error astray =>
      have distinct : Channel.err ≠ Channel.result := by decide
      exact (distinct h).elim

/-- What was put in place is found under every text of its indices; a later value replaces
it as if it had never been there; paths that lead elsewhere see nothing of it; what was
copied may be put back; and a path can be written exactly if it can be read. -/
theorem paths_are_lenses (value : Data) (path : List String) :
    (∀ new next out,
      (Machine.cell.advance ⟨value⟩ (setting path new)).Ends (.ok (next, out)) →
      out.channel = .result →
        (∀ other, other.map index? = path.map index? →
          (∀ data, (Machine.cell.advance next (copying other data)).Ends
            (.ok (next, Message.result new))) ∧
          ∀ newer, Machine.cell.advance next (setting other newer) =
            Machine.cell.advance ⟨value⟩ (setting other newer)) ∧
        ∀ other, Apart path other → ∀ data, ∃ reply,
          (Machine.cell.advance ⟨value⟩ (copying other data)).Ends (.ok (⟨value⟩, reply)) ∧
          (Machine.cell.advance next (copying other data)).Ends (.ok (next, reply))) ∧
    (∀ data next out,
      (Machine.cell.advance ⟨value⟩ (copying path data)).Ends (.ok (next, out)) →
      out.channel = .result →
        (Machine.cell.advance ⟨value⟩ (setting path out.data)).Ends
          (.ok (⟨value⟩, Message.result .null))) ∧
    ∀ data new, ∃ read next written,
      (Machine.cell.advance ⟨value⟩ (copying path data)).Ends (.ok (⟨value⟩, read)) ∧
      (Machine.cell.advance ⟨value⟩ (setting path new)).Ends (.ok (next, written)) ∧
      (read.channel = .result ∧ written.channel = .result ∨
        read.channel = .err ∧ written.channel = .err ∧ next = ⟨value⟩) := by
  refine ⟨fun new next out set answered => ?_, fun data next out copied answered => ?_,
    fun data new => ?_⟩
  · rw [advance_setting] at set
    cases Turn.ends_pure.1 set
    obtain ⟨old, there⟩ : ∃ old, locate path value = .ok old := by
      obtain ⟨_, found⟩ := answer_is_result answered
      cases there : locate path value with
      | ok old => exact ⟨old, rfl⟩
      | error astray =>
          rw [there] at found
          cases found
    have placed := locate_place there new
    refine ⟨fun other alike => ⟨fun data => ?_, fun newer => ?_⟩,
      fun other apart data => ⟨answer (copying other data).channel (locate other value), ?_, ?_⟩⟩
    · rw [advance_copying, locate_alike placed alike]
      exact Turn.ends_pure.2 rfl
    · rw [advance_setting, advance_setting, locate_alike placed alike, locate_alike there alike,
        place_alike placed alike, place_alike there alike, place_place]
      rfl
    · rw [advance_copying]
      exact Turn.ends_pure.2 rfl
    · rw [advance_copying, locate_place_of_apart there apart]
      exact Turn.ends_pure.2 rfl
  · rw [advance_copying] at copied
    cases Turn.ends_pure.1 copied
    obtain ⟨old, there⟩ := answer_is_result answered
    rw [there, advance_setting, there]
    have same : Cell.mk (place old path value) = ⟨value⟩ := congrArg Cell.mk (place_locate there)
    exact Turn.ends_pure.2 (congrArg (fun cell => Except.ok (cell, _)) same.symm)
  · rw [advance_copying, advance_setting]
    refine ⟨_, _, _, Turn.ends_pure.2 rfl, Turn.ends_pure.2 rfl, ?_⟩
    cases there : locate path value with
    | error astray =>
        rw [place_of_astray there]
        exact Or.inr ⟨rfl, rfl, rfl⟩
    | ok old => exact Or.inl ⟨rfl, rfl⟩

/-- A text set inside an array: it is found by other texts of its indices, the item beside
it is still there, and the number that was there may be written over itself. -/
theorem nested_item_is_lens :
    let start : Cell := ⟨.array [.natural 1, .array [.natural 2, .natural 3]]⟩
    let changed : Cell := ⟨.array [.natural 1, .array [.string "x", .natural 3]]⟩
    (Machine.cell.advance changed (copying ["1", "00"] .null)).Ends
      (.ok (changed, Message.result (.string "x"))) ∧
    (Machine.cell.advance changed (copying ["1", "1"] .null)).Ends
      (.ok (changed, Message.result (.natural 3))) ∧
    (Machine.cell.advance start (setting ["+1", "0"] (.natural 2))).Ends
      (.ok (start, Message.result .null)) := by
  intro start changed
  have number : locate ["+1", "0"] start.value = .ok (.natural 2) := by rfl
  have set : (Machine.cell.advance start (setting ["+1", "0"] (.string "x"))).Ends
      (.ok (changed, Message.result .null)) := by
    rw [advance_setting, number]
    exact Turn.ends_pure.2 rfl
  obtain ⟨put, put_back, _⟩ := paths_are_lenses start.value ["+1", "0"]
  obtain ⟨found, elsewhere⟩ := put _ _ _ set rfl
  refine ⟨(found ["1", "00"] (by decide)).1 .null, ?_, ?_⟩
  · have apart : Apart ["+1", "0"] ["1", "1"] := ⟨1, "0", "1", rfl, rfl, by decide⟩
    obtain ⟨reply, before, after⟩ := elsewhere ["1", "1"] apart .null
    have beside : locate ["1", "1"] start.value = .ok (.natural 3) := by rfl
    rw [advance_copying, beside] at before
    cases Turn.ends_pure.1 before
    exact after
  · have copied : (Machine.cell.advance start (copying ["+1", "0"] .null)).Ends
        (.ok (start, Message.result (.natural 2))) := by
      rw [advance_copying, number]
      exact Turn.ends_pure.2 rfl
    exact put_back _ _ _ copied rfl

end Cell

end Switchboard
