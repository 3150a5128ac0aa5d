import Switchboard.Proofs.Machine.Borrowing
import Switchboard.Proofs.Machine.Owned

/-!
# Storage

A blueprint of storage is a tree of products with cells and slots as its leaves.  Cells
and slots answer with a result, or with an error that changes nothing
(`Machine.Recovers`).  In a tree a message goes to the leaf that the leading segments of
its channel lead to, so that one leaf at most is changed, and none by a message that is
answered with an error.
-/

namespace Switchboard

/-! ## Addresses -/

/-- One of the two halves of a product. -/
inductive Side where
  | left
  | right
deriving DecidableEq

/-- The halves that the leading segments of a channel lead through. -/
def sides : List String → List Side
  | [] => []
  | segment :: rest =>
      if segment = Machine.leftName then .left :: sides rest
      else if segment = Machine.rightName then .right :: sides rest
      else []

def Message.address (message : Message) : List Side :=
  sides message.channel.segments

theorem address_prefixed_left (own : Message) :
    (own.prefixed Machine.leftName).address = .left :: own.address := rfl

theorem address_prefixed_right (own : Message) :
    (own.prefixed Machine.rightName).address = .right :: own.address := by
  show sides (Machine.rightName :: own.channel.segments) = _
  rw [sides, if_neg Machine.left_ne_right.symm, if_pos rfl]
  rfl

def Side.of : Side → Halves State State → State
  | .left, halves => halves.left
  | .right, halves => halves.right

/-- The leaf at an address of a tree of products. -/
def State.leaf? (s : State) : List Side → Option State
  | [] =>
      match s.product? with
      | none => some s
      | some _ => none
  | side :: path =>
      match s.product? with
      | none => none
      | some halves => (side.of halves).leaf? path

/-- What is no product is its own leaf, and has no other one. -/
theorem State.leaf?_of_single {s : State} (single : s.product? = none) (path : List Side) :
    s.leaf? path = if path = [] then some s else none := by
  cases path with
  | nil => rw [leaf?, single, if_pos rfl]
  | cons side path => rw [leaf?, single, if_neg (List.cons_ne_nil side path)]

/-! ## Leaves -/

/-- Every answer is a result, or an error that leaves the state; and what is answered was
not for a half of a product. -/
def Machine.Recovers {σ : Type} (m : Machine σ) : Prop :=
  ∀ s message next out, (m.advance s message).Ends (.ok (next, out)) →
    message.address = [] ∧ (out.channel = .result ∨ out.channel = .err ∧ next = s)

namespace Cell

theorem sides_element (path : List String) : sides ("element" :: path) = [] := by
  have left : "element" ≠ Machine.leftName := by decide
  have right : "element" ≠ Machine.rightName := by decide
  rw [sides, if_neg left, if_neg right]

/-- Whatever is done to a value is answered with a result, or with an error that leaves
the value, however deep in it the error arose. -/
theorem operate_recovers {full : Channel} {data value value' : Data} {segments : List String}
    {reply : Message} (h : operate full data segments value = .ok (value', reply)) :
    sides segments = [] ∧ (reply.channel = .result ∨ reply.channel = .err ∧ value' = value) := by
  fun_induction operate full data segments value generalizing value' reply with
  | case1 value =>
      cases h
      exact ⟨rfl, Or.inl rfl⟩
  | case2 value =>
      cases h
      exact ⟨rfl, Or.inl rfl⟩
  | case3 index segment rest value named =>
      cases h
      exact ⟨sides_element _, Or.inr ⟨rfl, rfl⟩⟩
  | case4 index segment rest i named items absent =>
      cases h
      exact ⟨sides_element _, Or.inr ⟨rfl, rfl⟩⟩
  | case5 index segment rest i named items item found ih =>
      refine ⟨sides_element _, ?_⟩
      cases inner : operate full data (segment :: rest) item with
      | error fault =>
          rw [inner] at h
          cases h
      | ok done =>
          obtain ⟨item', reply'⟩ := done
          rw [inner] at h
          cases h
          refine (ih inner).2.imp_right fun ⟨failed, same⟩ => ⟨failed, ?_⟩
          obtain ⟨inside, read⟩ := List.getElem?_eq_some_iff.1 found
          have written_back : items.set i item = items := by rw [← read, List.set_getElem_self]
          rw [same, written_back]
  | case6 index segment rest value i named other =>
      cases h
      exact ⟨sides_element _, Or.inr ⟨rfl, rfl⟩⟩
  | case7 segments value => cases h

theorem recovers : Machine.cell.Recovers := by
  intro s message next out ends
  simp only [Machine.cell] at ends
  split at ends
  · rename_i value reply done
    cases Turn.ends_pure.1 ends
    obtain ⟨address, answer⟩ := operate_recovers done
    refine ⟨address, answer.imp_right fun ⟨failed, same⟩ => ⟨failed, ?_⟩⟩
    rw [same]
  · cases Turn.ends_fault.1 ends

end Cell

namespace Slots

variable {size : Nat} {s next : Slots} {out : Message}

theorem set_recovers {channel : Channel} {data : Data}
    (h : s.set size channel data = .ok (next, out)) :
    out.channel = .result ∨ out.channel = .err ∧ next = s := by
  have filled : ∀ i value, set.fill s i value = .ok (next, out) → out.channel = .result := by
    intro i value done
    rw [set.fill] at done
    split at done
    · cases done
      rfl
    · cases done
  rw [set] at h
  split at h
  · cases h
  · split at h
    · cases h
      exact Or.inr ⟨rfl, rfl⟩
    · split at h
      · exact Or.inl (filled _ _ h)
      · split at h
        · exact Or.inl (filled _ _ h)
        · cases h
          exact Or.inr ⟨rfl, rfl⟩

theorem take_recovers {data : Data} (h : s.take size data = .ok (next, out)) :
    out.channel = .result ∨ out.channel = .err ∧ next = s := by
  rw [take] at h
  split at h
  · cases h
    exact Or.inr ⟨rfl, rfl⟩
  · split at h
    · cases h
      exact Or.inr ⟨rfl, rfl⟩
    · split at h
      · cases h
        exact Or.inl rfl
      · cases h

theorem recovers (size : Nat) : (Machine.slots size).Recovers := by
  intro s message next out ends
  have answered := (slots_ends_iff.1 ends).symm
  obtain ⟨channel, data⟩ := message
  rw [respond] at answered
  split at answered
  · rename_i set
    obtain rfl := Channel.is_iff.1 set
    exact ⟨rfl, set_recovers answered⟩
  · split at answered
    · rename_i take
      obtain rfl := Channel.is_iff.1 take
      exact ⟨rfl, take_recovers answered⟩
    · cases answered

end Slots

/-! ## Trees -/

namespace Blueprint

/-- Cells and slots, and products of what is made of them. -/
inductive Storage : Blueprint → Prop
  | cell : Storage .cell
  | slots (size : Nat) : Storage (.slots size)
  | product {left right : Blueprint} (first : Storage left) (second : Storage right) :
      Storage (.product left right)

/-- What a turn of storage may do: an error leaves all of the state, and any answer leaves
all but the leaf at the address of the message. -/
structure Confined (s : State) (message : Message) (next : State) (out : Message) : Prop where
  kept : out.channel.segments.getLast? = some Channel.errName → next = s
  addressed : (s.leaf? message.address).isSome = true
  elsewhere : ∀ path, path ≠ message.address → next.leaf? path = s.leaf? path

/-- A leaf that recovers is confined to itself. -/
theorem confined_of_recovers {σ : Type} {m : Machine σ} (recovers : m.Recovers)
    {embed : σ → State} (single : ∀ s, (embed s).product? = none)
    {s next : σ} {message out : Message} (ends : (m.advance s message).Ends (.ok (next, out))) :
    Confined (embed s) message (embed next) out := by
  obtain ⟨address, answer⟩ := recovers s message next out ends
  refine ⟨fun failed => ?_, ?_, fun path ne => ?_⟩
  · rcases answer with done | ⟨_, same⟩
    · rw [done] at failed
      exact absurd failed (by decide)
    · rw [same]
  · rw [address, State.leaf?_of_single (single s), if_pos rfl]
    rfl
  · rw [address] at ne
    rw [State.leaf?_of_single (single next), State.leaf?_of_single (single s), if_neg ne, if_neg ne]

theorem getLast?_of_prefixed {half : String} (ne : half ≠ Channel.errName) {answer : Message}
    (failed : (answer.prefixed half).channel.segments.getLast? = some Channel.errName) :
    answer.channel.segments.getLast? = some Channel.errName := by
  obtain ⟨⟨segments⟩, data⟩ := answer
  cases segments with
  | nil => exact (ne (Option.some.inj failed)).elim
  | cons segment rest => exact failed

theorem Confined.onLeft {s next : State} {own answer : Message} (h : Confined s own next answer)
    (right : State) :
    Confined (.product ⟨s, right⟩) (own.prefixed Machine.leftName) (.product ⟨next, right⟩)
      (answer.prefixed Machine.leftName) where
  kept failed := by
    rw [h.kept (getLast?_of_prefixed (by decide) failed)]
  addressed := h.addressed
  elsewhere path ne := by
    rw [address_prefixed_left] at ne
    cases path with
    | nil => rfl
    | cons side path =>
        cases side with
        | left => exact h.elsewhere path fun same => ne (congrArg (Side.left :: ·) same)
        | right => rfl

theorem Confined.onRight {s next : State} {own answer : Message} (h : Confined s own next answer)
    (left : State) :
    Confined (.product ⟨left, s⟩) (own.prefixed Machine.rightName) (.product ⟨left, next⟩)
      (answer.prefixed Machine.rightName) where
  kept failed := by
    rw [h.kept (getLast?_of_prefixed (by decide) failed)]
  addressed := by
    rw [address_prefixed_right]
    exact h.addressed
  elsewhere path ne := by
    rw [address_prefixed_right] at ne
    cases path with
    | nil => rfl
    | cons side path =>
        cases side with
        | left => rfl
        | right => exact h.elsewhere path fun same => ne (congrArg (Side.right :: ·) same)

theorem Storage.confined {b : Blueprint} (storage : b.Storage) {s next : State}
    {message out : Message} (owned : b.Owns s)
    (ends : (b.build.advance s message).Ends (.ok (next, out))) :
    Confined s message next out := by
  induction storage generalizing s next message out with
  | cell =>
      obtain ⟨own, rfl, _⟩ := owned
      have within : ∀ s, State.cell? (.cell s) = some s := fun _ => rfl
      obtain ⟨later, rfl, turn⟩ := (Machine.within_simulates within).ends_iff.1 ends
      exact confined_of_recovers Cell.recovers (fun _ => rfl) turn
  | slots size =>
      obtain ⟨own, rfl, _⟩ := owned
      have within : ∀ s, State.slots? (.slots s) = some s := fun _ => rfl
      obtain ⟨later, rfl, turn⟩ := (Machine.within_simulates within).ends_iff.1 ends
      exact confined_of_recovers (Slots.recovers size) (fun _ => rfl) turn
  | product _ _ ih ih' =>
      obtain ⟨⟨left, right⟩, rfl, ofLeft, ofRight⟩ := owned
      have within : ∀ s, State.product? (.product s) = some s := fun _ => rfl
      obtain ⟨⟨left', right'⟩, rfl, whole⟩ := (Machine.within_simulates within).ends_iff.1 ends
      rcases Machine.product_answers whole with ⟨own, answer, rfl, rfl, turn, same⟩ |
        ⟨own, answer, rfl, rfl, turn, same⟩
      · obtain rfl : right' = right := same
        exact (ih ofLeft turn).onLeft right'
      · obtain rfl : left' = left := same
        exact (ih' ofRight turn).onRight left'

/-- In a tree of cells and slots, a message that is answered on `err` changes nothing, and
one that is answered at all changes no leaf but the one that its channel leads to. -/
theorem storage_errs_unchanged {b : Blueprint} (storage : b.Storage) {s next : State}
    {message out : Message} (reached : b.build.Reaches b.build.start s)
    (ends : (b.build.advance s message).Ends (.ok (next, out))) :
    (out.channel.segments.getLast? = some Channel.errName → next = s) ∧
      (s.leaf? message.address).isSome = true ∧
      ∀ path, path ≠ message.address → next.leaf? path = s.leaf? path := by
  obtain ⟨kept, addressed, elsewhere⟩ := storage.confined (owns_of_reaches reached) ends
  exact ⟨kept, addressed, elsewhere⟩

/-- A slot that does not exist is not taken, and where one is taken the cells beside it
keep what they were set to. -/
theorem storage_takes_slot :
    let b : Blueprint := .product (.product .cell (.slots 1)) .cell
    let take (i : Nat) : Message := ⟨⟨["left", "right", "take"]⟩, .natural i⟩
    ∃ s next taken out answer, b.build.Reaches b.build.start s ∧
      (b.build.advance s (take 5)).Ends (.ok (next, out)) ∧ next = s ∧
      (b.build.advance s (take 0)).Ends (.ok (taken, answer)) ∧
      taken.leaf? [.left, .left] = some (.cell ⟨.bool true⟩) := by
  intro b take
  have storage : b.Storage := .product (.product .cell (.slots 1)) .cell
  let ready : State := .slots ⟨[.null], .ready⟩
  let lent : State := .slots ⟨[.null], .incomplete 0⟩
  let beside (slots : State) : State :=
    .product ⟨.product ⟨.cell ⟨.bool true⟩, slots⟩, .cell ⟨.null⟩⟩
  obtain ⟨done, set⟩ : ∃ done, (b.build.advance b.build.start
      ⟨⟨["left", "left", "set"]⟩, .bool true⟩).Ends (.ok (beside ready, done)) := ⟨_, 0, rfl⟩
  have reached : b.build.Reaches b.build.start (beside ready) := .head set (.refl _ _)
  obtain ⟨out, failed, refused⟩ : ∃ out : Message,
      out.channel.segments.getLast? = some Channel.errName ∧
        (b.build.advance (beside ready) (take 5)).Ends (.ok (beside ready, out)) :=
    ⟨_, rfl, 0, rfl⟩
  obtain ⟨answer, answered⟩ : ∃ answer,
      (b.build.advance (beside ready) (take 0)).Ends (.ok (beside lent, answer)) := ⟨_, 0, rfl⟩
  refine ⟨_, _, _, out, answer, reached, refused, ?_, answered, ?_⟩
  · exact (storage_errs_unchanged storage reached refused).1 failed
  · exact (storage_errs_unchanged storage reached answered).2.2 [.left, .left] (by decide)

end Blueprint

end Switchboard
