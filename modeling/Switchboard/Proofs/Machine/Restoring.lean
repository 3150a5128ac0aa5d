import Switchboard.Machine.Form
import Switchboard.Proofs.Machine.Owned

/-!
# States written down and read back

Reading what was written gives the state again but for one case: a router that keeps
null for the right half reads as one that keeps nothing, since null is how an absent
value is written.  `restored` is what is read (`Blueprint.restore?_form`,
`State.ofData?_toData`), and `Faithful` says of a state that no router in it is of that
kind.

A run reaches that router by seeding with a pair whose second item is null
(`Router.keeps_iff`), and from there goes on differently (`Router.run_seededLeft_ne`).  A
bound machine never rests there, so that its states are read back whenever those of the
inner machine are.
-/

namespace Switchboard

/-! ## One state -/

theorem Stateless.ofData?_toData (s : Stateless) : ofData? s.toData = some s := by
  cases s
  rfl

theorem Once.ofData?_toData (s : Once) : ofData? s.toData = some s := by
  cases s with
  | start => rfl
  | done => rfl

theorem Suspension.ofData?_toData (s : Suspension) : ofData? s.toData = some s := by
  cases s with
  | start => rfl
  | awaiting => rfl

theorem Cell.ofData?_toData (s : Cell) : ofData? s.toData = some s := rfl

theorem Discipline.ofData?_toData (s : Discipline) : ofData? s.toData = some s := by
  cases s with
  | ready => rfl
  | incomplete taken => rfl

theorem Slots.ofData?_toData (s : Slots) : ofData? s.toData = some s := by
  obtain ⟨slots, discipline⟩ := s
  have read := Discipline.ofData?_toData discipline
  simp [ofData?, toData, Data.record?, Data.fields?, Entries.find?, Data.array?, read]

theorem Data.present?_optional (value : Option Data) :
    present? (optional value) = value.bind present? := by
  cases value with
  | none => rfl
  | some value => rfl

namespace Router

/-- What the form of a router is read as. -/
def restored : Router → Router
  | .awaitingInit pending => .awaitingInit (pending.bind Data.present?)
  | s => s

/-- The router does not keep null for the right half. -/
def Faithful (s : Router) : Prop :=
  s ≠ .awaitingInit (some .null)

theorem ofData?_toData (s : Router) : ofData? s.toData = some s.restored := by
  cases s with
  | start => rfl
  | awaitingFirst => rfl
  | awaitingSecond => rfl
  | awaitingInit pending =>
      rw [restored, ← Data.present?_optional]
      rfl

theorem restored_eq_iff (s : Router) : s.restored = s ↔ s.Faithful := by
  cases s with
  | start => simp [restored, Faithful]
  | awaitingFirst => simp [restored, Faithful]
  | awaitingSecond => simp [restored, Faithful]
  | awaitingInit pending =>
      rcases pending with _ | value
      · simp [restored, Faithful]
      · cases value <;> simp [restored, Faithful, Data.present?]

end Router

theorem Bound.ofData?_toData (s : Bound Data) :
    ofData? s.toData = some ⟨s.router.restored, s.inner⟩ := by
  have read := Router.ofData?_toData s.router
  simp [ofData?, toData, Data.record?, Data.fields?, Entries.find?, read]

/-! ## Nested states -/

namespace State

/-- What the form of a state is read as. -/
def restored : State → State
  | .sequence (.first inner) => .sequence (.first inner.restored)
  | .sequence (.second inner) => .sequence (.second inner.restored)
  | .product ⟨left, right⟩ => .product ⟨left.restored, right.restored⟩
  | .stash (.running stashed inner) => .stash (.running stashed inner.restored)
  | .router s => .router s.restored
  | .bound ⟨waiting, inner⟩ => .bound ⟨waiting.restored, inner.restored⟩
  | s => s

/-- No router of the state keeps null for the right half. -/
def Faithful : State → Prop
  | .sequence (.first inner) => inner.Faithful
  | .sequence (.second inner) => inner.Faithful
  | .product ⟨left, right⟩ => left.Faithful ∧ right.Faithful
  | .stash (.running _ inner) => inner.Faithful
  | .router s => s.Faithful
  | .bound ⟨waiting, inner⟩ => waiting.Faithful ∧ inner.Faithful
  | _ => True

theorem restored_eq_iff : ∀ s : State, s.restored = s ↔ s.Faithful
  | .stateless _ | .once _ | .suspension _ | .cell _ | .slots _ | .stash .idle => by
      simp [restored, Faithful]
  | .sequence (.first inner) => by simp [restored, Faithful, restored_eq_iff inner]
  | .sequence (.second inner) => by simp [restored, Faithful, restored_eq_iff inner]
  | .product ⟨left, right⟩ => by
      simp [restored, Faithful, restored_eq_iff left, restored_eq_iff right]
  | .stash (.running stashed inner) => by simp [restored, Faithful, restored_eq_iff inner]
  | .router s => by simp [restored, Faithful, Router.restored_eq_iff]
  | .bound ⟨waiting, inner⟩ => by
      simp [restored, Faithful, Router.restored_eq_iff, restored_eq_iff inner]

/-- A form is read as it was written, at any depth that it fits in. -/
theorem readWithin_toData : ∀ (s : State) {depth : Nat}, s.toData.depth < depth →
    readWithin depth s.toData = some s.restored
  | _, 0, below => (Nat.not_lt_zero _ below).elim
  | .stateless s, _ + 1, _ => congrArg (Option.map State.stateless) s.ofData?_toData
  | .once s, _ + 1, _ => congrArg (Option.map State.once) s.ofData?_toData
  | .suspension s, _ + 1, _ => congrArg (Option.map State.suspension) s.ofData?_toData
  | .cell s, _ + 1, _ => congrArg (Option.map State.cell) s.ofData?_toData
  | .slots s, _ + 1, _ => congrArg (Option.map State.slots) s.ofData?_toData
  | .sequence (.first inner), depth + 1, below => by
      have inside : inner.toData.depth < depth := by
        simp only [toData, Phase.toData, Data.depth_tagged] at below
        omega
      show (readWithin depth inner.toData).map (fun own => State.sequence (.first own)) = _
      rw [readWithin_toData inner inside]
      rfl
  | .sequence (.second inner), depth + 1, below => by
      have inside : inner.toData.depth < depth := by
        simp only [toData, Phase.toData, Data.depth_tagged] at below
        omega
      show (readWithin depth inner.toData).map (fun own => State.sequence (.second own)) = _
      rw [readWithin_toData inner inside]
      rfl
  | .product ⟨left, right⟩, depth + 1, below => by
      have inside : left.toData.depth < depth ∧ right.toData.depth < depth := by
        simp [toData, Halves.toData, Data.depth_tagged, Data.depth, Data.depthFields] at below
        omega
      show ((readWithin depth left.toData).bind fun l =>
        (readWithin depth right.toData).bind fun r => some (State.product ⟨l, r⟩)) = _
      rw [readWithin_toData left inside.1, readWithin_toData right inside.2]
      rfl
  | .stash .idle, _ + 1, _ => rfl
  | .stash (.running stashed inner), depth + 1, below => by
      have inside : inner.toData.depth < depth := by
        simp [toData, Stashed.toData, Data.depth_tagged, Data.depth, Data.depthFields] at below
        omega
      show (readWithin depth inner.toData).map (fun own => State.stash (.running stashed own)) = _
      rw [readWithin_toData inner inside]
      rfl
  | .router s, _ + 1, _ => congrArg (Option.map State.router) s.ofData?_toData
  | .bound ⟨waiting, inner⟩, depth + 1, below => by
      have inside : inner.toData.depth < depth := by
        simp [toData, Bound.toData, Data.depth_tagged, Data.depth, Data.depthFields] at below
        omega
      show (Bound.ofData? (Bound.toData ⟨waiting, inner.toData⟩)).bind (fun s =>
        (readWithin depth s.inner).bind fun own => some (State.bound ⟨s.router, own⟩)) = _
      rw [Bound.ofData?_toData, Option.bind_some, readWithin_toData inner inside]
      rfl

theorem ofData?_toData (s : State) : ofData? s.toData = some s.restored :=
  readWithin_toData s (Nat.lt_succ_self _)

end State

namespace Blueprint

/-- A machine reads its own states as they were written. -/
theorem restore?_form (b : Blueprint) {s : State} (owned : b.Owns s) :
    b.restore? s.form = some s.restored := by
  induction b generalizing s with
  | constant | finish | relabel =>
      obtain ⟨own, rfl, _⟩ := owned
      exact congrArg (Option.map State.stateless) own.ofData?_toData
  | once f =>
      obtain ⟨own, rfl, _⟩ := owned
      exact congrArg (Option.map State.once) own.ofData?_toData
  | suspend channel =>
      obtain ⟨own, rfl, _⟩ := owned
      exact congrArg (Option.map State.suspension) own.ofData?_toData
  | cell =>
      obtain ⟨own, rfl, _⟩ := owned
      exact congrArg (Option.map State.cell) own.ofData?_toData
  | slots size =>
      obtain ⟨own, rfl, _⟩ := owned
      exact congrArg (Option.map State.slots) own.ofData?_toData
  | renamed _ _ _ ih | looped _ _ ih | pipeline _ _ ih => exact ih owned
  | sequence first second ih ih' =>
      obtain ⟨own, rfl, holds⟩ := owned
      cases own with
      | first inner =>
          exact congrArg (Option.map fun own => State.sequence (.first own)) (ih holds)
      | second inner =>
          exact congrArg (Option.map fun own => State.sequence (.second own)) (ih' holds)
  | product left right ih ih' =>
      obtain ⟨⟨l, r⟩, rfl, ofLeft, ofRight⟩ := owned
      show ((left.restore? l.form).bind fun l =>
        (right.restore? r.form).bind fun r => some (State.product ⟨l, r⟩)) = _
      rw [ih ofLeft, ih' ofRight]
      rfl
  | stash inner ih =>
      obtain ⟨own, rfl, holds⟩ := owned
      cases own with
      | idle => rfl
      | running stashed running =>
          exact congrArg (Option.map fun own => State.stash (.running stashed own)) (ih holds)
  | router =>
      obtain ⟨own, rfl, _⟩ := owned
      exact congrArg (Option.map State.router) own.ofData?_toData
  | bound inner ih =>
      obtain ⟨⟨waiting, own⟩, rfl, holds⟩ := owned
      show (Bound.ofData? (Bound.toData ⟨waiting, own.form⟩)).bind (fun s =>
        (inner.restore? s.inner).bind fun own => some (State.bound ⟨s.router, own⟩)) = _
      rw [Bound.ofData?_toData, Option.bind_some, ih holds]
      rfl

/-- Whatever machine is built, its states are told by their forms, with or without
kinds, unless a router among them keeps null; so a machine goes on from what was read as
it would have from what was written.  Binding a machine adds no such router to what it
reaches. -/
theorem restored_iff_faithful (b : Blueprint) :
    (∀ s, b.build.Reaches b.build.start s → b.Owns s) ∧
    (∀ s, b.Owns s → (b.restore? s.form = some s ↔ s.Faithful) ∧
      (State.ofData? s.toData = some s ↔ s.Faithful)) ∧
    (∀ s, b.Owns s → s.Faithful →
      ∀ back, b.restore? s.form = some back ∨ State.ofData? s.toData = some back →
        ∀ messages, b.build.run back messages = b.build.run s messages) ∧
    ∀ s, b.bound.build.Reaches b.bound.build.start s →
      ∃ inner, s = .bound ⟨.start, inner⟩ ∧ b.build.Reaches b.build.start inner ∧
        (s.Faithful ↔ inner.Faithful) := by
  refine ⟨fun s => owns_of_reaches, ?_, ?_, ?_⟩
  · intro s owned
    rw [b.restore?_form owned, State.ofData?_toData, Option.some.injEq]
    exact ⟨s.restored_eq_iff, s.restored_eq_iff⟩
  · intro s owned faithful back read messages
    rw [b.restore?_form owned, State.ofData?_toData, or_self, Option.some.injEq,
      s.restored_eq_iff.2 faithful] at read
    rw [read]
  · intro s reached
    obtain ⟨inner, rfl, own⟩ := reached_of_bound reached
    have start : Router.Faithful .start := by simp [Router.Faithful]
    exact ⟨inner, rfl, own, and_iff_right start⟩

/-- A router at work inside a stash beside a cell, and the same machine bound. -/
theorem restored_of_stash :
    let b : Blueprint := .product (.stash .router) .cell
    let s : State := .product
      ⟨.stash (.running .null (.router (.awaitingInit (some (.bool true))))), .cell ⟨.null⟩⟩
    b.restore? s.form = some s ∧ State.ofData? s.toData = some s ∧
      b.bound.build.start.Faithful := by
  intro b s
  have owned : b.Owns s :=
    ⟨_, rfl, ⟨_, rfl, ⟨_, rfl, True.intro⟩⟩, ⟨_, rfl, True.intro⟩⟩
  have faithful : s.Faithful := by simp [s, State.Faithful, Router.Faithful]
  obtain ⟨_, told, _, bound⟩ := b.restored_iff_faithful
  obtain ⟨inner, same, _, kept⟩ := bound _ (.refl _ _)
  refine ⟨(told s owned).1.2 faithful, (told s owned).2.2 faithful, ?_⟩
  rw [kept]
  cases same
  exact ⟨True.intro, True.intro⟩

end Blueprint

/-! ## The router alone -/

namespace Router

theorem router_ends_iff {s next : Router} {message out : Message} :
    (Machine.router.advance s message).Ends (.ok (next, out)) ↔
      s.step message = .ok (next, out) := by
  simp only [Machine.router]
  split
  · rename_i later answer step
    rw [step, Turn.ends_pure, Except.ok.injEq, Except.ok.injEq, eq_comm]
  · rename_i fault step
    rw [step, Turn.ends_fault]
    simp

/-- While it waits, a router is not seeded. -/
theorem step_result {s : Router} (busy : s ≠ .start) (data : Data) :
    s.step (.result data) = .error (.invalidChannel s.name .result) := by
  cases s with
  | start => exact (busy rfl).elim
  | awaitingFirst => rfl
  | awaitingSecond => rfl
  | awaitingInit pending =>
      cases pending with
      | none => rfl
      | some second => rfl

/-- A router keeps a value exactly when it was just given it as the second of a pair. -/
theorem keeps_iff {inputs outs : List Message} {s : Router} {second : Data}
    (run : Machine.router.Answers Machine.router.start inputs outs s) :
    s = .awaitingInit (some second) ↔
      ∃ first, inputs.getLast? = some (.result (.array [first, second])) := by
  rcases run.last with ⟨rfl, rfl⟩ | ⟨front, input, before, out, rfl, ends⟩
  · simp [Machine.router]
  · rw [List.getLast?_concat]
    have step := router_ends_iff.1 ends
    constructor
    · rintro rfl
      generalize next : Router.awaitingInit (some second) = after at step
      cases moves_of_step step with
      | ask f own => cases f <;> cases next
      | seed first kept =>
          cases next
          exact ⟨first, rfl⟩
      | proceed => cases next
      | answer => cases next
    · rintro ⟨first, given⟩
      obtain rfl := Option.some.inj given
      by_cases idle : before = .start
      · subst idle
        rw [step_seed] at step
        cases step
        rfl
      · rw [step_result idle] at step
        cases step

/-- The reply of the left half to its `set`, as the router sees it. -/
def seededLeft : Message :=
  inward Machine.leftName (.result .null)

/-- A router that keeps a value hands it on when the left half has been seeded; one that
keeps none does not understand the reply. -/
theorem run_seededLeft_ne (second : Data) :
    Machine.router.run (.awaitingInit none) [seededLeft] ≠
      Machine.router.run (.awaitingInit (some second)) [seededLeft] := by
  intro alike
  have live : (Machine.router.run (.awaitingInit (some second)) [seededLeft]).Returns
      [⟨.awaitingInit none, .ok (inward Machine.rightName (setTo second))⟩] := ⟨0, rfl⟩
  have refused : (Machine.router.run (.awaitingInit none) [seededLeft]).Returns
      [⟨.awaitingInit none,
        .error (.fault (.invalidChannel "awaiting_init" seededLeft.channel))⟩] := ⟨0, rfl⟩
  rw [alike] at refused
  cases live.unique refused

/-- What a router has been sent decides whether its form tells its state: it does not
exactly after a pair whose second item is null, and then the router that is read goes on
differently. -/
theorem restored_iff_no_null {inputs outs : List Message} {s : Router}
    (run : Machine.router.Answers Machine.router.start inputs outs s) :
    ∃ back, ofData? s.toData = some back ∧
      (back = s ↔ ¬∃ first, inputs.getLast? = some (.result (.array [first, .null]))) ∧
      (back = s ↔
        ∀ messages, Machine.router.run back messages = Machine.router.run s messages) := by
  refine ⟨s.restored, ofData?_toData s, ?_, ?_⟩
  · rw [restored_eq_iff, Faithful, ← keeps_iff run]
  · constructor
    · intro same messages
      rw [same]
    · intro alike
      rw [restored_eq_iff]
      rintro rfl
      exact run_seededLeft_ne .null (alike [seededLeft])

theorem restored_pair :
    ofData? (toData (.awaitingInit (some (.string "b")))) =
      some (.awaitingInit (some (.string "b"))) := by
  let pair : Message := .result (.array [.string "a", .string "b"])
  have run : Machine.router.Answers Machine.router.start [pair]
      [inward Machine.leftName (setTo (.string "a"))] (.awaitingInit (some (.string "b"))) :=
    .cons (router_ends_iff.2 rfl) .nil
  obtain ⟨back, read, same, _⟩ := restored_iff_no_null run
  have kept : back = .awaitingInit (some (.string "b")) := same.2 (by simp [pair, Message.result])
  rw [read, kept]

/-- Null for the right half is lost: the router that was written asks for the right half
to be set, and the one that is read refuses the same reply. -/
theorem restored_null :
    Machine.router.Answers Machine.router.start [.result (.array [.string "a", .null])]
        [inward Machine.leftName (setTo (.string "a"))] (.awaitingInit (some .null)) ∧
      ofData? (toData (.awaitingInit (some .null))) = some (.awaitingInit none) ∧
      Machine.router.run (.awaitingInit none) [seededLeft] ≠
        Machine.router.run (.awaitingInit (some .null)) [seededLeft] :=
  ⟨.cons (router_ends_iff.2 rfl) .nil, rfl, run_seededLeft_ne .null⟩

end Router

end Switchboard
