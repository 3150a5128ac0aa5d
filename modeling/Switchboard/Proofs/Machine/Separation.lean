import Switchboard.Machine.Cell
import Switchboard.Machine.Slots
import Switchboard.Proofs.Machine.Halves
import Switchboard.Proofs.Machine.Logs

/-!
# The halves of a product keep apart

Each exchange of a product is one of a half, with its segment in front, or a fault
that changes nothing (`Exchange.Sided`).  So a log of a product is a log of each half,
woven into each other (`Machine.logs_product_iff`), and the logs of the halves can be
woven in every order (`Apart.exists_weaving`).

Nothing of one half goes into the other: what the left half is and answers is told by
the messages on `left/...` alone.
-/

namespace Switchboard

/-- What is behind the leading segment, whatever that is. -/
def Message.bare (message : Message) : Message :=
  message.withChannel message.channel.tail

namespace Exchange

open Machine (leftName rightName)

variable {σ τ : Type}

/-- An exchange of the left half, as the product has it. -/
def onLeft (e : Exchange σ) (right : τ) : Exchange (Halves σ τ) :=
  ⟨e.message.prefixed leftName, ⟨e.reply.state, right⟩,
    e.reply.outcome.map (Message.prefixed leftName)⟩

def onRight (left : σ) (e : Exchange τ) : Exchange (Halves σ τ) :=
  ⟨e.message.prefixed rightName, ⟨left, e.reply.state⟩,
    e.reply.outcome.map (Message.prefixed rightName)⟩

/-- The refusal of a message that is for neither half. -/
def stray (s : Halves σ τ) (message : Message) : Exchange (Halves σ τ) :=
  ⟨message, s, .error (.fault (.invalidChannel "product" message.channel))⟩

/-- What an exchange of a product is to its left half: nothing, if the message is for
another one. -/
def left? (e : Exchange (Halves σ τ)) : Option (Exchange σ) :=
  (e.message.behind? leftName).map fun own =>
    ⟨own, e.reply.state.left, e.reply.outcome.map Message.bare⟩

def right? (e : Exchange (Halves σ τ)) : Option (Exchange τ) :=
  (e.message.behind? rightName).map fun own =>
    ⟨own, e.reply.state.right, e.reply.outcome.map Message.bare⟩

/-- One half has had the exchange and the other one stayed as it was, or the message
was for neither and was refused. -/
inductive Sided (s : Halves σ τ) : Exchange (Halves σ τ) → Prop
  | left (e : Exchange σ) : Sided s (e.onLeft s.right)
  | right (e : Exchange τ) : Sided s (e.onRight s.left)
  | stray {message : Message} (left : message.behind? leftName = none)
      (right : message.behind? rightName = none) : Sided s (stray s message)

theorem map_bare_prefixed (segment : String) (outcome : Except Stop Message) :
    (outcome.map (Message.prefixed segment)).map Message.bare = outcome := by
  cases outcome with
  | ok out => rfl
  | error stop => rfl

@[simp] theorem left?_onLeft (e : Exchange σ) (right : τ) : (e.onLeft right).left? = some e := by
  rw [left?, onLeft, Message.behind?_prefixed, if_pos rfl, Option.map_some, map_bare_prefixed]

@[simp] theorem right?_onRight (left : σ) (e : Exchange τ) : (e.onRight left).right? = some e := by
  rw [right?, onRight, Message.behind?_prefixed, if_pos rfl, Option.map_some, map_bare_prefixed]

@[simp] theorem right?_onLeft (e : Exchange σ) (right : τ) : (e.onLeft right).right? = none := by
  rw [right?, onLeft, Message.behind?_prefixed, if_neg Machine.left_ne_right, Option.map_none]

@[simp] theorem left?_onRight (left : σ) (e : Exchange τ) : (e.onRight left).left? = none := by
  rw [left?, onRight, Message.behind?_prefixed, if_neg Machine.left_ne_right.symm, Option.map_none]

theorem left?_stray {message : Message} (left : message.behind? leftName = none)
    (s : Halves σ τ) : (stray s message).left? = none := by
  rw [left?, stray, left, Option.map_none]

theorem right?_stray {message : Message} (right : message.behind? rightName = none)
    (s : Halves σ τ) : (stray s message).right? = none := by
  rw [right?, stray, right, Option.map_none]

theorem map_message_left? (log : List (Exchange (Halves σ τ))) :
    (log.filterMap left?).map message = Message.allBehind leftName (log.map message) := by
  rw [Message.allBehind, List.map_filterMap, List.filterMap_map]
  refine congrArg (log.filterMap ·) (funext fun e => ?_)
  simp [left?, Function.comp_def]

theorem map_message_right? (log : List (Exchange (Halves σ τ))) :
    (log.filterMap right?).map message = Message.allBehind rightName (log.map message) := by
  rw [Message.allBehind, List.map_filterMap, List.filterMap_map]
  refine congrArg (log.filterMap ·) (funext fun e => ?_)
  simp [right?, Function.comp_def]

/-- The state after some exchanges from a state on. -/
def stateAfter (s : σ) : List (Exchange σ) → σ
  | [] => s
  | e :: log => stateAfter e.reply.state log

end Exchange

open Exchange
open Message (allBehind)
open Machine (leftName rightName)

variable {σ τ : Type}

/-- From a state on, every exchange is sided. -/
def Apart : Halves σ τ → List (Exchange (Halves σ τ)) → Prop
  | _, [] => True
  | s, e :: log => e.Sided s ∧ Apart e.reply.state log

/-! ## One turn -/

namespace Machine

variable {l : Machine σ} {r : Machine τ} {s : Halves σ τ}

theorem product_reply_left (own : Message) :
    (l.product r).reply s (own.prefixed leftName) =
      (fun answer => (Exchange.onLeft ⟨own, answer⟩ s.right).reply) <$> l.reply s.left own := by
  refine reply_of_advance (product_advance_left own) fun outcome => ?_
  cases outcome with
  | ok turn => rfl
  | error stop => rfl

theorem product_reply_right (own : Message) :
    (l.product r).reply s (own.prefixed rightName) =
      (fun answer => (Exchange.onRight s.left ⟨own, answer⟩).reply) <$> r.reply s.right own := by
  refine reply_of_advance (product_advance_right own) fun outcome => ?_
  cases outcome with
  | ok turn => rfl
  | error stop => rfl

theorem product_reply_stray {message : Message} (left : message.behind? leftName = none)
    (right : message.behind? rightName = none) :
    (l.product r).reply s message = pure (stray s message).reply := by
  rw [reply, product_advance_stray left right]
  rfl

/-- An exchange of a product is one of the half that its message is for. -/
theorem product_returns_iff {e : Exchange (Halves σ τ)} :
    ((l.product r).reply s e.message).Returns e.reply ↔
      e.Sided s ∧ (∀ own ∈ e.left?, (l.reply s.left own.message).Returns own.reply) ∧
        ∀ own ∈ e.right?, (r.reply s.right own.message).Returns own.reply := by
  constructor
  · obtain ⟨message, reply⟩ := e
    intro returns
    cases left : message.behind? leftName with
    | some own =>
        obtain rfl := Message.behind?_eq_some_iff.1 left
        rw [product_reply_left] at returns
        obtain ⟨answer, turn, rfl⟩ := Eventual.returns_map.1 returns
        refine ⟨.left ⟨own, answer⟩, fun e here => ?_, fun e there => ?_⟩
        · obtain rfl := Option.some.inj ((left?_onLeft ⟨own, answer⟩ s.right).symm.trans here)
          exact turn
        · cases (right?_onLeft ⟨own, answer⟩ s.right).symm.trans there
    | none =>
        cases right : message.behind? rightName with
        | some own =>
            obtain rfl := Message.behind?_eq_some_iff.1 right
            rw [product_reply_right] at returns
            obtain ⟨answer, turn, rfl⟩ := Eventual.returns_map.1 returns
            refine ⟨.right ⟨own, answer⟩, fun e there => ?_, fun e here => ?_⟩
            · cases (left?_onRight s.left ⟨own, answer⟩).symm.trans there
            · obtain rfl := Option.some.inj ((right?_onRight s.left ⟨own, answer⟩).symm.trans here)
              exact turn
        | none =>
            rw [product_reply_stray left right] at returns
            obtain rfl := Eventual.returns_pure.1 returns
            refine ⟨.stray left right, fun e there => ?_, fun e there => ?_⟩
            · cases (left?_stray left s).symm.trans there
            · cases (right?_stray right s).symm.trans there
  · rintro ⟨sided, left, right⟩
    cases sided with
    | left own =>
        have turn := left own (left?_onLeft own s.right)
        show ((l.product r).reply s (own.message.prefixed leftName)).Returns _
        rw [product_reply_left]
        exact Eventual.returns_map.2 ⟨own.reply, turn, rfl⟩
    | right own =>
        have turn := right own (right?_onRight s.left own)
        show ((l.product r).reply s (own.message.prefixed rightName)).Returns _
        rw [product_reply_right]
        exact Eventual.returns_map.2 ⟨own.reply, turn, rfl⟩
    | @stray message notLeft notRight =>
        show ((l.product r).reply s message).Returns _
        rw [product_reply_stray notLeft notRight]
        exact Eventual.returns_pure.2 rfl

/-! ## Whole runs -/

/-- Two logs of the same messages from the same state are the same. -/
theorem Logs.unique {m : Machine σ} {s : σ} {log log' : List (Exchange σ)} (h : m.Logs s log)
    (h' : m.Logs s log') (same : log.map Exchange.message = log'.map Exchange.message) :
    log = log' := by
  induction h generalizing log' with
  | nil => exact (List.map_eq_nil_iff.1 same.symm).symm
  | @cons s e log turn _ ih =>
      cases h' with
      | nil => cases same
      | @cons _ e' log' turn' rest' =>
          obtain ⟨message, later⟩ := List.cons.inj same
          obtain ⟨message', reply'⟩ := e'
          obtain rfl : e.message = message' := message
          obtain rfl : e.reply = reply' := turn.unique turn'
          rw [ih rest' later]

theorem logs_cons_iff {m : Machine σ} {s : σ} {e : Exchange σ} {log : List (Exchange σ)} :
    m.Logs s (e :: log) ↔ (m.reply s e.message).Returns e.reply ∧ m.Logs e.reply.state log :=
  ⟨fun h => by cases h with | cons turn rest => exact ⟨turn, rest⟩,
    fun ⟨turn, rest⟩ => .cons turn rest⟩

section Product

variable {e : Exchange (Halves σ τ)} {log : List (Exchange (Halves σ τ))}

theorem logs_left_cons_iff (sided : e.Sided s) :
    l.Logs s.left ((e :: log).filterMap left?) ↔
      (∀ own ∈ e.left?, (l.reply s.left own.message).Returns own.reply) ∧
        l.Logs e.reply.state.left (log.filterMap left?) := by
  cases sided with
  | left own =>
      rw [List.filterMap_cons_some (left?_onLeft own s.right), logs_cons_iff, left?_onLeft]
      simp [onLeft]
  | right own =>
      rw [List.filterMap_cons_none (left?_onRight s.left own), left?_onRight]
      simp [onRight]
  | stray notLeft notRight =>
      rw [List.filterMap_cons_none (left?_stray notLeft s), left?_stray notLeft]
      simp [stray]

theorem logs_right_cons_iff (sided : e.Sided s) :
    r.Logs s.right ((e :: log).filterMap right?) ↔
      (∀ own ∈ e.right?, (r.reply s.right own.message).Returns own.reply) ∧
        r.Logs e.reply.state.right (log.filterMap right?) := by
  cases sided with
  | left own =>
      rw [List.filterMap_cons_none (right?_onLeft own s.right), right?_onLeft]
      simp [onLeft]
  | right own =>
      rw [List.filterMap_cons_some (right?_onRight s.left own), logs_cons_iff, right?_onRight]
      simp [onRight]
  | stray notLeft notRight =>
      rw [List.filterMap_cons_none (right?_stray notRight s), right?_stray notRight]
      simp [stray]

/-- A log of a product is a log of each half, and every exchange is sided. -/
theorem logs_product_iff :
    (l.product r).Logs s log ↔
      l.Logs s.left (log.filterMap left?) ∧ r.Logs s.right (log.filterMap right?) ∧
        Apart s log := by
  induction log generalizing s with
  | nil => exact ⟨fun _ => ⟨.nil, .nil, True.intro⟩, fun _ => .nil⟩
  | cons e log ih =>
      rw [logs_cons_iff, product_returns_iff, ih, Apart]
      constructor
      · rintro ⟨⟨sided, left, right⟩, lefts, rights, apart⟩
        have left := (logs_left_cons_iff sided).2 ⟨left, lefts⟩
        have right := (logs_right_cons_iff sided).2 ⟨right, rights⟩
        exact ⟨left, right, sided, apart⟩
      · rintro ⟨left, right, sided, apart⟩
        obtain ⟨left, lefts⟩ := (logs_left_cons_iff sided).1 left
        obtain ⟨right, rights⟩ := (logs_right_cons_iff sided).1 right
        exact ⟨⟨sided, left, right⟩, lefts, rights, apart⟩

end Product

end Machine

namespace Apart

variable {s : Halves σ τ} {log : List (Exchange (Halves σ τ))}

/-- Each half ends where its own exchanges lead. -/
theorem stateAfter_eq (h : Apart s log) :
    stateAfter s log =
      ⟨stateAfter s.left (log.filterMap left?), stateAfter s.right (log.filterMap right?)⟩ := by
  induction log generalizing s with
  | nil => rfl
  | cons e log ih =>
      obtain ⟨sided, apart⟩ := h
      rw [stateAfter, ih apart]
      cases sided with
      | left own =>
          rw [List.filterMap_cons_some (left?_onLeft own s.right),
            List.filterMap_cons_none (right?_onLeft own s.right)]
          rfl
      | right own =>
          rw [List.filterMap_cons_none (left?_onRight s.left own),
            List.filterMap_cons_some (right?_onRight s.left own)]
          rfl
      | stray notLeft notRight =>
          rw [List.filterMap_cons_none (left?_stray notLeft s),
            List.filterMap_cons_none (right?_stray notRight s)]
          rfl

/-- What the halves have had can be woven in any order that keeps the order of each. -/
theorem exists_weaving (s : Halves σ τ) {messages : List Message} {lefts : List (Exchange σ)}
    {rights : List (Exchange τ)} (left : lefts.map Exchange.message = allBehind leftName messages)
    (right : rights.map Exchange.message = allBehind rightName messages) :
    ∃ log, log.map Exchange.message = messages ∧ log.filterMap left? = lefts ∧
      log.filterMap right? = rights ∧ Apart s log := by
  induction messages generalizing s lefts rights with
  | nil =>
      obtain rfl := List.map_eq_nil_iff.1 left
      obtain rfl := List.map_eq_nil_iff.1 right
      exact ⟨[], rfl, rfl, rfl, True.intro⟩
  | cons message messages ih =>
      cases onLeft : message.behind? leftName with
      | some own =>
          obtain rfl := Message.behind?_eq_some_iff.1 onLeft
          rw [Message.allBehind_cons_same] at left
          rw [Message.allBehind_cons_of_ne Machine.left_ne_right] at right
          obtain ⟨e, lefts, rfl, rfl, later⟩ := List.map_eq_cons_iff.1 left
          obtain ⟨log, rfl, rfl, rfl, apart⟩ := ih ⟨e.reply.state, s.right⟩ later right
          refine ⟨e.onLeft s.right :: log, rfl, ?_, ?_, .left e, apart⟩
          · rw [List.filterMap_cons_some (left?_onLeft e s.right)]
          · rw [List.filterMap_cons_none (right?_onLeft e s.right)]
      | none =>
          cases onRight : message.behind? rightName with
          | some own =>
              obtain rfl := Message.behind?_eq_some_iff.1 onRight
              rw [Message.allBehind_cons_of_ne Machine.left_ne_right.symm] at left
              rw [Message.allBehind_cons_same] at right
              obtain ⟨e, rights, rfl, rfl, later⟩ := List.map_eq_cons_iff.1 right
              obtain ⟨log, rfl, rfl, rfl, apart⟩ := ih ⟨s.left, e.reply.state⟩ left later
              refine ⟨e.onRight s.left :: log, rfl, ?_, ?_, .right e, apart⟩
              · rw [List.filterMap_cons_none (left?_onRight s.left e)]
              · rw [List.filterMap_cons_some (right?_onRight s.left e)]
          | none =>
              rw [allBehind, List.filterMap_cons_none onLeft] at left
              rw [allBehind, List.filterMap_cons_none onRight] at right
              obtain ⟨log, rfl, rfl, rfl, apart⟩ := ih s left right
              refine ⟨stray s message :: log, rfl, ?_, ?_, .stray onLeft onRight, apart⟩
              · rw [List.filterMap_cons_none (left?_stray onLeft s)]
              · rw [List.filterMap_cons_none (right?_stray onRight s)]

end Apart

namespace Machine

/-- The logs of a machine are the runs that end. -/
theorem exists_returns_iff {m : Machine σ} {s : σ} {messages : List Message} :
    (∃ replies, (m.run s messages).Returns replies) ↔
      ∃ log, log.map Exchange.message = messages ∧ m.Logs s log := by
  constructor
  · rintro ⟨replies, returns⟩
    induction messages generalizing s replies with
    | nil => exact ⟨[], rfl, .nil⟩
    | cons message messages ih =>
        obtain ⟨answer, turn, after⟩ := Eventual.returns_bind.1 returns
        obtain ⟨later, rest, _⟩ := Eventual.returns_bind.1 after
        obtain ⟨log, rfl, logs⟩ := ih later rest
        exact ⟨⟨message, answer⟩ :: log, rfl, .cons turn logs⟩
  · rintro ⟨log, rfl, logs⟩
    exact ⟨_, run_returns_iff.2 logs⟩

/-- The run of a product ends where the runs of its halves do, and then it is these two
runs: each half is and answers what it would be and answer alone, and every other message
is a fault that changes nothing.  So what a half is sent tells what it answers, and what
both are sent tells the state. -/
theorem halves_keep_apart (l : Machine σ) (r : Machine τ) :
    let p := l.product r
    (∀ messages, (∃ replies, (p.run p.start messages).Returns replies) ↔
      (∃ replies, (l.run l.start (allBehind leftName messages)).Returns replies) ∧
        ∃ replies, (r.run r.start (allBehind rightName messages)).Returns replies) ∧
    (∀ log, (p.run p.start (log.map Exchange.message)).Returns (log.map Exchange.reply) →
      (l.run l.start (allBehind leftName (log.map Exchange.message))).Returns
          ((log.filterMap left?).map Exchange.reply) ∧
        (r.run r.start (allBehind rightName (log.map Exchange.message))).Returns
          ((log.filterMap right?).map Exchange.reply) ∧
        Apart p.start log ∧
        stateAfter p.start log =
          ⟨stateAfter l.start (log.filterMap left?), stateAfter r.start (log.filterMap right?)⟩) ∧
    ∀ log log', (p.run p.start (log.map Exchange.message)).Returns (log.map Exchange.reply) →
      (p.run p.start (log'.map Exchange.message)).Returns (log'.map Exchange.reply) →
      let sameLeft := allBehind leftName (log.map Exchange.message) =
        allBehind leftName (log'.map Exchange.message)
      let sameRight := allBehind rightName (log.map Exchange.message) =
        allBehind rightName (log'.map Exchange.message)
      (sameLeft → log.filterMap left? = log'.filterMap left?) ∧
        (sameRight → log.filterMap right? = log'.filterMap right?) ∧
        (sameLeft → sameRight → stateAfter p.start log = stateAfter p.start log') := by
  intro p
  have halves : ∀ {log}, (p.run p.start (log.map Exchange.message)).Returns
      (log.map Exchange.reply) → l.Logs l.start (log.filterMap left?) ∧
        r.Logs r.start (log.filterMap right?) ∧ Apart p.start log :=
    fun returns => logs_product_iff.1 (run_returns_iff.1 returns)
  refine ⟨fun messages => ?_, fun log returns => ?_, fun log log' returns returns' => ?_⟩
  · rw [exists_returns_iff, exists_returns_iff, exists_returns_iff]
    constructor
    · rintro ⟨log, rfl, logs⟩
      obtain ⟨left, right, _⟩ := logs_product_iff.1 logs
      exact ⟨⟨_, map_message_left? log, left⟩, ⟨_, map_message_right? log, right⟩⟩
    · rintro ⟨⟨lefts, left, logs⟩, ⟨rights, right, logs'⟩⟩
      obtain ⟨log, same, rfl, rfl, apart⟩ := Apart.exists_weaving p.start left right
      exact ⟨log, same, logs_product_iff.2 ⟨logs, logs', apart⟩⟩
  · obtain ⟨left, right, apart⟩ := halves returns
    rw [← map_message_left?, ← map_message_right?]
    exact ⟨run_returns_iff.2 left, run_returns_iff.2 right, apart, apart.stateAfter_eq⟩
  · obtain ⟨left, right, apart⟩ := halves returns
    obtain ⟨left', right', apart'⟩ := halves returns'
    rw [← map_message_left?, ← map_message_left?, ← map_message_right?, ← map_message_right?]
    refine ⟨left.unique left', right.unique right', fun same same' => ?_⟩
    rw [apart.stateAfter_eq, apart'.stateAfter_eq, left.unique left' same,
      right.unique right' same']

/-- A cell beside a slot: it is set whether the slot is taken before or a request to it is
refused after, and a message to neither changes nothing. -/
theorem cell_beside_slot :
    let p := cell.product (slots 1)
    let set : Exchange Cell := ⟨⟨⟨["set"]⟩, .bool true⟩, ⟨.bool true⟩, .ok (.result .null)⟩
    let lent : Slots := ⟨[.null], .incomplete 0⟩
    let take : Exchange Slots := ⟨⟨⟨["take"]⟩, .natural 0⟩, lent, .ok (.result .null)⟩
    let copy : Exchange Slots :=
      ⟨⟨⟨["copy"]⟩, .null⟩, p.start.right,
        .error (.fault (.invalidChannel "ready" ⟨["copy"]⟩))⟩
    let log := [take.onRight p.start.left, set.onLeft lent,
      stray ⟨set.reply.state, lent⟩ ⟨⟨["middle"]⟩, .null⟩]
    let log' := [set.onLeft p.start.right, copy.onRight set.reply.state]
    (cell.run cell.start [set.message]).Returns [set.reply] ∧
      stateAfter p.start log = ⟨set.reply.state, lent⟩ ∧
      log.filterMap left? = log'.filterMap left? := by
  intro p set lent take copy log log'
  obtain ⟨_, each, both⟩ := halves_keep_apart cell (slots 1)
  have ran : (p.run p.start (log.map Exchange.message)).Returns (log.map Exchange.reply) :=
    ⟨0, rfl⟩
  have ran' : (p.run p.start (log'.map Exchange.message)).Returns (log'.map Exchange.reply) :=
    ⟨0, rfl⟩
  obtain ⟨left, _, _, state⟩ := each log ran
  exact ⟨left, state, (both log log' ran ran').1 rfl⟩

end Machine

end Switchboard
