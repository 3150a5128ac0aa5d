import Switchboard.Machine.Slots
import Switchboard.Proofs.Machine.Logs

/-!
# Borrowing

What a machine of slots does over whole runs.  A turn sets a slot, takes a slot, or
rebuffs its message and leaves the state as it is (`Slots.Turns`); that a slot is
empty while it is lent out (`Slots.Lawful`) keeps every turn within the slots.

Two invariants of the log follow.  A slot that is not lent out holds what was last
set in it (`Slots.Accounts`), and while a slot is lent out nothing but filling it
again is accepted (`Slots.waits_of_logs`).
-/

namespace Switchboard

namespace Slots

variable {size : Nat} {s : Slots}

/-- The message `take i`. -/
def taking (i : Nat) : Message :=
  ⟨⟨["take"]⟩, .natural i⟩

/-- The message `set [i, value]`. -/
def setting (i : Nat) (value : Data) : Message :=
  ⟨⟨["set"]⟩, .array [.natural i, value]⟩

theorem setting_ne_taking (i j : Nat) (value : Data) : setting i value ≠ taking j := by
  intro same
  have channels := congrArg Message.channel same
  simp [setting, taking] at channels

theorem setting_inj {i j : Nat} {value other : Data} :
    setting i value = setting j other ↔ i = j ∧ value = other := by
  simp [setting, Data.natural_inj]

theorem taking_inj {i j : Nat} : taking i = taking j ↔ i = j := by
  simp [taking, Data.natural_inj]

/-- There are as many slots as there should be, and one that is lent out is empty. -/
structure Lawful (size : Nat) (s : Slots) : Prop where
  length_eq : s.slots.length = size
  lent : ∀ i, s.discipline = .incomplete i → i < size ∧ s.slots[i]? = some .null

theorem start_lawful (size : Nat) : (Machine.slots size).start.Lawful size where
  length_eq := List.length_replicate
  lent i taken := by cases taken

/-! ## One turn -/

/-- The message was refused, by a fault or by an answer about its index. -/
def Rebuffed (outcome : Except Stop Message) : Prop :=
  (∃ fault, outcome = .error (.fault fault)) ∨
    ∃ detail, outcome = .ok (.err ("invalid index" ++ detail))

theorem Rebuffed.no_result {outcome : Except Stop Message} (h : Rebuffed outcome) (data : Data) :
    outcome ≠ .ok (.result data) := by
  rcases h with ⟨fault, rfl⟩ | ⟨detail, rfl⟩
  · simp
  · simp [Message.err, Message.result, Channel.err, Channel.result, Channel.errName,
      Channel.resultName]

/-- All that a turn can do in a lawful state. -/
inductive Turns (size : Nat) (s : Slots) : Exchange Slots → Prop
  | set {i : Nat} {value : Data} (inside : i < size)
      (free : s.discipline = .ready ∨ s.discipline = .incomplete i) :
      Turns size s ⟨setting i value, ⟨s.slots.set i value, .ready⟩, .ok (.result .null)⟩
  | take {i : Nat} {value : Data} (inside : i < size) (free : s.discipline = .ready)
      (kept : s.slots[i]? = some value) :
      Turns size s
        ⟨taking i, ⟨s.slots.set i .null, .incomplete i⟩, .ok (.result value)⟩
  | rebuff {message : Message} {outcome : Except Stop Message} (why : Rebuffed outcome) :
      Turns size s ⟨message, s, outcome⟩

theorem invalid_index_blank : "invalid index " = "invalid index" ++ " " := by decide

/-- Why a value names no slot. -/
theorem detail_of_index {raw : Data} {reason : String} (h : index size raw = .error reason) :
    ∃ detail, reason = "invalid index" ++ detail := by
  rw [index] at h
  split at h
  · cases h
    refine ⟨" " ++ raw.render ++ ": not a non-negative integer", ?_⟩
    rw [invalid_index_blank]
    simp only [String.append_assoc]
  · rename_i i _
    split at h
    · cases h
    · cases h
      refine ⟨" " ++ toString i ++ ": out of range for size " ++ toString size, ?_⟩
      rw [invalid_index_blank]
      simp only [String.append_assoc]

theorem index_eq_ok {raw : Data} {i : Nat} (h : index size raw = .ok i) :
    raw = .natural i ∧ i < size := by
  rw [index] at h
  split at h
  · cases h
  · rename_i j found
    split at h
    · rename_i inside
      cases h
      exact ⟨Data.natural?_eq_some_iff.1 found, inside⟩
    · cases h

/-- What a message is answered by, in one step. -/
def respond (size : Nat) (s : Slots) (message : Message) : Except Stop (Slots × Message) :=
  if message.channel.is "set" then s.set size message.channel message.data
  else if message.channel.is "take" then s.take size message.data
  else .error (.fault (.invalidChannel s.name message.channel))

theorem slots_ends_iff {message : Message} {turn : Except Stop (Slots × Message)} :
    ((Machine.slots size).advance s message).Ends turn ↔ turn = s.respond size message := by
  rw [← Turn.ends_ofExcept, respond]
  simp only [Machine.slots]
  split
  · rfl
  · split
    · rfl
    · rfl

theorem turns_of_set (lawful : s.Lawful size) (data : Data) :
    s.Turns size ⟨⟨⟨["set"]⟩, data⟩, Reply.ofTurn s (s.set size ⟨["set"]⟩ data)⟩ := by
  have filled : ∀ i value, i < size → s.discipline = .ready ∨ s.discipline = .incomplete i →
      s.Turns size ⟨setting i value, Reply.ofTurn s (set.fill s i value)⟩ := by
    intro i value inside free
    have there : i < s.slots.length := lawful.length_eq.symm ▸ inside
    rw [set.fill, if_pos there]
    exact .set inside free
  rw [set]
  cases pair : data.pair? with
  | none => exact .rebuff (Or.inl ⟨_, rfl⟩)
  | some items =>
      obtain ⟨raw, value⟩ := items
      obtain rfl := Data.pair?_eq_some_iff.1 pair
      dsimp only
      cases named : index size raw with
      | error reason =>
          obtain ⟨detail, rfl⟩ := detail_of_index named
          exact .rebuff (Or.inr ⟨detail, rfl⟩)
      | ok i =>
          obtain ⟨rfl, inside⟩ := index_eq_ok named
          dsimp only
          cases discipline : s.discipline with
          | ready => exact filled i value inside (Or.inl discipline)
          | incomplete taken =>
              dsimp only
              split
              · rename_i same
                exact filled i value inside (Or.inr (same ▸ discipline))
              · have text : "invalid index " ++ toString i ++ ": " ++ expectation taken =
                    "invalid index" ++ (" " ++ toString i ++ ": " ++ expectation taken) := by
                  rw [invalid_index_blank]
                  simp only [String.append_assoc]
                rw [text]
                exact .rebuff (Or.inr ⟨_, rfl⟩)

theorem turns_of_take (lawful : s.Lawful size) (data : Data) :
    s.Turns size ⟨⟨⟨["take"]⟩, data⟩, Reply.ofTurn s (s.take size data)⟩ := by
  rw [take]
  cases discipline : s.discipline with
  | incomplete taken =>
      dsimp only
      have text : "invalid index: " = "invalid index" ++ ": " := by decide
      rw [text, String.append_assoc]
      exact .rebuff (Or.inr ⟨_, rfl⟩)
  | ready =>
      dsimp only
      cases named : index size data with
      | error reason =>
          obtain ⟨detail, rfl⟩ := detail_of_index named
          exact .rebuff (Or.inr ⟨detail, rfl⟩)
      | ok i =>
          obtain ⟨rfl, inside⟩ := index_eq_ok named
          have there : i < s.slots.length := lawful.length_eq.symm ▸ inside
          have kept : s.slots[i]? = some s.slots[i] := List.getElem?_eq_getElem there
          simp only [kept]
          exact .take inside discipline kept

theorem turns_of_respond (lawful : s.Lawful size) (message : Message) :
    s.Turns size ⟨message, Reply.ofTurn s (s.respond size message)⟩ := by
  obtain ⟨channel, data⟩ := message
  rw [respond]
  split
  · rename_i set
    obtain rfl := Channel.is_iff.1 set
    exact turns_of_set lawful data
  · split
    · rename_i take
      obtain rfl := Channel.is_iff.1 take
      exact turns_of_take lawful data
    · exact .rebuff (Or.inl ⟨_, rfl⟩)

theorem turns_of_returns (lawful : s.Lawful size) {message : Message} {r : Reply Slots}
    (h : ((Machine.slots size).reply s message).Returns r) : s.Turns size ⟨message, r⟩ := by
  obtain ⟨turn, ends, rfl⟩ := Machine.reply_returns_iff.1 h
  obtain rfl := slots_ends_iff.1 ends
  exact turns_of_respond lawful message

theorem Turns.lawful {e : Exchange Slots} (h : s.Turns size e) (lawful : s.Lawful size) :
    e.reply.state.Lawful size := by
  cases h with
  | set inside free =>
      refine ⟨?_, fun j taken => by cases taken⟩
      rw [List.length_set]
      exact lawful.length_eq
  | @take i value inside free kept =>
      refine ⟨?_, fun j taken => ?_⟩
      · rw [List.length_set]
        exact lawful.length_eq
      · obtain rfl : i = j := by simpa using taken
        refine ⟨inside, List.getElem?_set_self ?_⟩
        rw [lawful.length_eq]
        exact inside
  | rebuff why => exact lawful

theorem Turns.stop_is_fault {e : Exchange Slots} (h : s.Turns size e) {stop : Stop}
    (stopped : e.reply.outcome = .error stop) : ∃ fault, stop = .fault fault := by
  cases h with
  | set => cases stopped
  | take => cases stopped
  | rebuff why =>
      rcases why with ⟨fault, rfl⟩ | ⟨detail, rfl⟩
      · cases stopped
        exact ⟨fault, rfl⟩
      · cases stopped

/-! ## What was set last -/

/-- The exchange has set a slot to a value. -/
def Stores (i : Nat) (value : Data) (e : Exchange Slots) : Prop :=
  e.message = setting i value ∧ ∃ data, e.reply.outcome = .ok (.result data)

/-- The value that a slot was set to last, or null if it never was. -/
def LastStored (i : Nat) (past : List (Exchange Slots)) (value : Data) : Prop :=
  (∃ earlier e later, past = earlier ++ e :: later ∧ Stores i value e ∧
    ∀ e' ∈ later, ∀ other, ¬Stores i other e') ∨
  (value = .null ∧ ∀ e ∈ past, ∀ other, ¬Stores i other e)

theorem LastStored.stored {i : Nat} {value : Data} {e : Exchange Slots} (h : Stores i value e)
    (past : List (Exchange Slots)) : LastStored i (past ++ [e]) value :=
  Or.inl ⟨past, e, [], rfl, h, fun _ mem => (List.not_mem_nil mem).elim⟩

theorem LastStored.passed {i : Nat} {value : Data} {past : List (Exchange Slots)}
    {e : Exchange Slots} (h : LastStored i past value) (other : ∀ value, ¬Stores i value e) :
    LastStored i (past ++ [e]) value := by
  rcases h with ⟨earlier, e', later, rfl, stores, quiet⟩ | ⟨rfl, quiet⟩
  · refine Or.inl ⟨earlier, e', later ++ [e], by simp, stores, fun e'' mem => ?_⟩
    rcases List.mem_append.1 mem with mem | mem
    · exact quiet e'' mem
    · exact List.mem_singleton.1 mem ▸ other
  · refine Or.inr ⟨rfl, fun e'' mem => ?_⟩
    rcases List.mem_append.1 mem with mem | mem
    · exact quiet e'' mem
    · exact List.mem_singleton.1 mem ▸ other

/-- Every slot that is not lent out holds what was last set in it. -/
def Accounts (past : List (Exchange Slots)) (s : Slots) : Prop :=
  ∀ i value, s.slots[i]? = some value → s.discipline ≠ .incomplete i → LastStored i past value

theorem start_accounts (size : Nat) : Accounts [] (Machine.slots size).start := by
  intro i value kept _
  obtain ⟨_, rfl⟩ : i < size ∧ .null = value := by
    simpa [Machine.slots, List.getElem?_replicate] using kept
  exact Or.inr ⟨rfl, fun e mem => (List.not_mem_nil mem).elim⟩

theorem Turns.accounts {e : Exchange Slots} (h : s.Turns size e)
    {past : List (Exchange Slots)} (now : Accounts past s) :
    Accounts (past ++ [e]) e.reply.state := by
  intro j value kept free'
  cases h with
  | @set i written inside free =>
      by_cases same : i = j
      · subst same
        obtain ⟨_, rfl⟩ : i < s.slots.length ∧ written = value := by
          simpa [List.getElem?_set] using kept
        exact .stored ⟨rfl, _, rfl⟩ past
      · rw [List.getElem?_set_ne same] at kept
        have before : s.discipline ≠ .incomplete j := by
          rcases free with free | free
          · simp [free]
          · simp [free, same]
        refine (now j value kept before).passed fun other stores => ?_
        exact same (setting_inj.1 stores.1).1
  | @take i handed inside free _ =>
      have ne : i ≠ j := by
        rintro rfl
        exact free' rfl
      rw [List.getElem?_set_ne ne] at kept
      have before : s.discipline ≠ .incomplete j := by simp [free]
      refine (now j value kept before).passed fun other stores => ?_
      exact setting_ne_taking j i other stores.1.symm
  | rebuff why =>
      refine (now j value kept free').passed fun other stores => ?_
      obtain ⟨_, data, answered⟩ := stores
      exact why.no_result data answered

/-! ## While a slot is lent out -/

/-- Nothing but rebuffs, until the slot is set. -/
def Waits (i : Nat) (s : Slots) (future : List (Exchange Slots)) : Prop :=
  ∃ waiting rest, future = waiting ++ rest ∧
    (∀ e ∈ waiting, e.reply.state = s ∧ Rebuffed e.reply.outcome) ∧
    (rest = [] ∨ ∃ e later value, rest = e :: later ∧ Stores i value e)

theorem waits_of_logs {log : List (Exchange Slots)} {i : Nat}
    (h : (Machine.slots size).Logs s log) (lawful : s.Lawful size)
    (taken : s.discipline = .incomplete i) : Waits i s log := by
  induction h with
  | nil => exact ⟨[], [], rfl, fun e mem => (List.not_mem_nil mem).elim, Or.inl rfl⟩
  | @cons s e log turn rest ih =>
      have turns : s.Turns size e := turns_of_returns lawful turn
      cases turns with
      | @set j value inside free =>
          obtain rfl : j = i := by simpa [taken, eq_comm] using free
          refine ⟨[], _, rfl, fun e mem => (List.not_mem_nil mem).elim, Or.inr ?_⟩
          exact ⟨_, log, value, rfl, rfl, _, rfl⟩
      | take inside free _ => simp [taken] at free
      | @rebuff message outcome why =>
          obtain ⟨waiting, later, rfl, quiet, ends⟩ := ih lawful taken
          refine ⟨⟨message, s, outcome⟩ :: waiting, later, rfl, ?_, ends⟩
          exact List.forall_mem_cons.2 ⟨⟨rfl, why⟩, quiet⟩

/-! ## Whole runs -/

/-- Every run keeps to the slots; what is taken from a slot is what was set in it
last; and a slot that was taken is the next one to be set, before anything else is
accepted. -/
theorem run_lends_and_returns (size : Nat) (messages : List Message) :
    ∃ log : List (Exchange Slots), log.map Exchange.message = messages ∧
      ((Machine.slots size).run (Machine.slots size).start messages).Returns
        (log.map Exchange.reply) ∧
      (Machine.slots size).start.Lawful size ∧
      ∀ past e future, log = past ++ e :: future →
        e.reply.state.Lawful size ∧
        (∀ stop, e.reply.outcome = .error stop → ∃ fault, stop = .fault fault) ∧
        ∀ value, e.reply.outcome = .ok (.result value) →
          (∃ i < size, e.message = taking i ∨ ∃ written, e.message = setting i written) ∧
          ∀ i, e.message = taking i →
            LastStored i past value ∧ Waits i e.reply.state future := by
  obtain ⟨log, same, logs⟩ := Machine.exists_log
    (fun s message => ⟨_, slots_ends_iff.2 rfl⟩) (Machine.slots size).start messages
  have run := Machine.run_returns_iff.2 logs
  rw [same] at run
  refine ⟨log, same, run, start_lawful size, fun past e future split => ?_⟩
  have kept : ∀ past s e, (Lawful size s ∧ Accounts past s) →
      ((Machine.slots size).reply s e.message).Returns e.reply →
      Lawful size e.reply.state ∧ Accounts (past ++ [e]) e.reply.state := by
    rintro past s e ⟨lawful, accounts⟩ turn
    have turns : s.Turns size e := turns_of_returns lawful turn
    exact ⟨turns.lawful lawful, turns.accounts accounts⟩
  obtain ⟨s, ⟨lawful, accounts⟩, turn, rest⟩ :=
    logs.before kept ⟨start_lawful size, start_accounts size⟩ split
  have turns : s.Turns size e := turns_of_returns lawful turn
  have lawful' := turns.lawful lawful
  refine ⟨lawful', fun stop => turns.stop_is_fault, fun value answered => ?_⟩
  cases turns with
  | @set i written inside _ =>
      exact ⟨⟨i, inside, Or.inr ⟨written, rfl⟩⟩,
        fun j take => (setting_ne_taking i j written take).elim⟩
  | @take i handed inside free there =>
      refine ⟨⟨i, inside, Or.inl rfl⟩, fun j take => ?_⟩
      obtain rfl : i = j := taking_inj.1 take
      obtain rfl : handed = value := by simpa [Message.result] using answered
      exact ⟨accounts i handed there (by simp [free]), waits_of_logs rest lawful' rfl⟩
  | rebuff why => exact (why.no_result value answered).elim

/-- A slot is set and taken, and another one cannot be taken before it is set again. -/
theorem run_lends_one :
    ∃ e₁ e₂ e₃ : Exchange Slots,
      [e₁, e₂, e₃].map Exchange.message = [setting 1 (.bool true), taking 1, taking 0] ∧
      LastStored 1 [e₁] (.bool true) ∧ Waits 1 e₂.reply.state [e₃] := by
  let messages := [setting 1 (.bool true), taking 1, taking 0]
  obtain ⟨log, same, run, _, lends⟩ := run_lends_and_returns 2 messages
  obtain ⟨r₁, r₂, r₃, returns, answered⟩ : ∃ r₁ r₂ r₃,
      ((Machine.slots 2).run (Machine.slots 2).start messages).Returns [r₁, r₂, r₃] ∧
        r₂.outcome = .ok (.result (.bool true)) := ⟨_, _, _, ⟨0, rfl⟩, rfl⟩
  have replies : log.map Exchange.reply = [r₁, r₂, r₃] := run.unique returns
  obtain ⟨e₁, _, rfl, _, later⟩ := List.map_eq_cons_iff.1 replies
  obtain ⟨e₂, _, rfl, rfl, last⟩ := List.map_eq_cons_iff.1 later
  obtain ⟨e₃, rfl, _⟩ := List.map_eq_singleton_iff.1 last
  have take : e₂.message = taking 1 := (List.cons.inj (List.cons.inj same).2).1
  exact ⟨e₁, e₂, e₃, same, ((lends [e₁] e₂ [e₃] rfl).2.2 _ answered).2 1 take⟩

end Slots

end Switchboard
