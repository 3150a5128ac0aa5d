import Switchboard.Machine

/-!
# Runs

A run gives a machine one message after the other.  A message at which the
machine stops leaves the state as it was, and the run goes on.

A map of states that takes the turns of one machine to those of another takes its
runs to the other's runs (`Machine.Simulates.run`).  `Machine.Answers` tells of a
run without stops what was answered.
-/

namespace Switchboard

/-- What has come of a message: the state after it, and the answer or the stop. -/
structure Reply (σ : Type) where
  state : σ
  outcome : Except Stop Message

namespace Reply

variable {σ τ : Type}

def map (f : σ → τ) (r : Reply σ) : Reply τ :=
  ⟨f r.state, r.outcome⟩

/-- What a caller can tell who does not look into the state. -/
def seen [Observable σ] (r : Reply σ) : Except Stop Message × Bool :=
  (r.outcome, Observable.isFinal r.state)

/-- The reply that a turn gives. -/
def ofTurn (s : σ) : Except Stop (σ × Message) → Reply σ
  | .ok (next, out) => ⟨next, .ok out⟩
  | .error stop => ⟨s, .error stop⟩

end Reply

namespace Machine

variable {σ τ : Type}

def reply (m : Machine σ) (s : σ) (message : Message) : Eventual (Reply σ) :=
  Reply.ofTurn s <$> (m.advance s message).run

/-- The replies to a list of messages. -/
def run (m : Machine σ) : σ → List Message → Eventual (List (Reply σ))
  | _, [] => pure []
  | s, message :: rest => do
      let r ← m.reply s message
      let later ← m.run r.state rest
      pure (r :: later)

/-- What a caller can tell of the replies to a list of messages, from the start. -/
def observe [Observable σ] (m : Machine σ) (messages : List Message) :
    Eventual (List (Except Stop Message × Bool)) :=
  List.map Reply.seen <$> m.run m.start messages

/-- The machine answers all of the inputs, with these outputs and this last state. -/
inductive Answers (m : Machine σ) : σ → List Message → List Message → σ → Prop
  | nil {s : σ} : Answers m s [] [] s
  | cons {s next last : σ} {input out : Message} {inputs outs : List Message}
      (ends : (m.advance s input).Ends (.ok (next, out)))
      (rest : Answers m next inputs outs last) :
      Answers m s (input :: inputs) (out :: outs) last

theorem Answers.concat {m : Machine σ} {s t next : σ} {inputs outs : List Message}
    {input out : Message} (h : m.Answers s inputs outs t)
    (ends : (m.advance t input).Ends (.ok (next, out))) :
    m.Answers s (inputs ++ [input]) (outs ++ [out]) next := by
  induction h with
  | nil => exact .cons ends .nil
  | cons first _ ih => exact .cons first (ih ends)

/-- Where a turn is made of another machine's turn, so is the reply. -/
theorem reply_of_advance {n : Machine τ} {m : Machine σ} {t : τ} {s : σ}
    {message message' : Message} {f : σ × Message → τ × Message} {g : Reply σ → Reply τ}
    (turn : n.advance t message' = f <$> m.advance s message)
    (replies : ∀ outcome, Reply.ofTurn t (outcome.map f) = g (Reply.ofTurn s outcome)) :
    n.reply t message' = g <$> m.reply s message := by
  rw [reply, reply, turn, ExceptT.run_map, Functor.map_map, Functor.map_map]
  exact congrArg (· <$> (m.advance s message).run) (funext replies)

/-- A map of states takes the start and every turn of one machine to those of
another one. -/
structure Simulates (n : Machine τ) (m : Machine σ) (f : σ → τ) : Prop where
  start : n.start = f m.start
  advance : ∀ s message,
    n.advance (f s) message = (fun r => (f r.1, r.2)) <$> m.advance s message

namespace Simulates

variable {n : Machine τ} {m : Machine σ} {f : σ → τ}

theorem trans {υ : Type} {k : Machine υ} {g : υ → σ} (h : Simulates n m f) (h' : Simulates m k g) :
    Simulates n k (f ∘ g) where
  start := by
    rw [h.start, h'.start]
    rfl
  advance s message := by
    have outer : n.advance ((f ∘ g) s) message = _ := h.advance (g s) message
    rw [outer, h'.advance, Functor.map_map]
    rfl

theorem reply (h : Simulates n m f) (s : σ) (message : Message) :
    n.reply (f s) message = Reply.map f <$> m.reply s message := by
  refine reply_of_advance (h.advance s message) fun outcome => ?_
  cases outcome with
  | ok r => rfl
  | error stop => rfl

theorem run (h : Simulates n m f) (s : σ) (messages : List Message) :
    n.run (f s) messages = List.map (Reply.map f) <$> m.run s messages := by
  induction messages generalizing s with
  | nil => simp [Machine.run]
  | cons message rest ih =>
      rw [Machine.run, Machine.run, h.reply, bind_map_left, map_bind]
      refine congrArg (m.reply s message >>= ·) (funext fun r => ?_)
      have later := ih r.state
      rw [show (r.map f).state = f r.state from rfl, later, bind_map_left, map_bind]
      simp

/-- Where the map keeps what is final, a caller cannot tell the machines apart. -/
theorem observe [Observable σ] [Observable τ] (h : Simulates n m f)
    (final : ∀ s, Observable.isFinal (f s) = Observable.isFinal s) (messages : List Message) :
    n.observe messages = m.observe messages := by
  have same : Reply.seen ∘ Reply.map f = Reply.seen := by
    funext r
    simp [Reply.seen, Reply.map, final]
  rw [Machine.observe, Machine.observe, h.start, h.run, Functor.map_map]
  simp [same]

end Simulates

end Machine

end Switchboard
