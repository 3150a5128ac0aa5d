import Switchboard.Proofs.Session.Driving

/-!
# Requests

What is asked of a session is to send a message or to be driven, and either comes
down to steps: `Steps` is the chain of them behind a list of requests, together with
all that the machine has said (`steps_of_performAll`).  An invariant of sessions is
kept by requests if a step keeps it.

Recording is not seen from outside.  Without its history a session does the same
(`send_unrecorded`), and so does a session that is driven or gets any number of
requests (`performAll_unrecorded`).
-/

namespace Switchboard

namespace Session

variable {σ : Type} [Observable σ] {s t : Session σ} {d : Drive σ} {r : Driven σ}
  {answer : List Message → Message → Message}

/-! ## Steps -/

/-- Steps lead from one session to another, with these outputs. -/
inductive Steps : Session σ → List Message → Session σ → Prop
  | nil {s : Session σ} : Steps s [] s
  | cons {s t last : Session σ} {input : Message} {outcome : Except Stop Message}
      {outs : List Message} (sent : Sends s input t outcome) (rest : Steps t outs last) :
      Steps s (outcome.toOption.toList ++ outs) last

theorem Sends.steps {input : Message} {outcome : Except Stop Message}
    (h : Sends s input t outcome) : Steps s outcome.toOption.toList t := by
  have steps := Steps.cons h .nil
  rwa [List.append_nil] at steps

theorem Steps.trans {outs later : List Message} (h : Steps s outs t) (h' : Steps t later last) :
    Steps s (outs ++ later) last := by
  induction h with
  | nil => exact h'
  | cons sent _ ih =>
      rw [List.append_assoc]
      exact .cons sent (ih h')

theorem steps_of_leads (h : Eventual.Leads (driveStep answer) d r) :
    ∃ outs, Steps d.session outs r.session ∧
      r.asked ++ r.outcome.toOption.toList = d.asked.reverse ++ outs := by
  induction h with
  | @finish d r answers =>
      rw [driveStep_eq_after] at answers
      obtain ⟨⟨t, outcome⟩, sent, after⟩ := Eventual.returns_map.1 answers
      obtain rfl := Drive.after_eq_inr after
      exact ⟨_, (sends_of_returns sent).steps, rfl⟩
  | @again d d' r goes _ ih =>
      rw [driveStep_eq_after] at goes
      obtain ⟨⟨t, outcome⟩, sent, after⟩ := Eventual.returns_map.1 goes
      obtain ⟨output, rfl, rfl, asked⟩ := Drive.after_eq_inl after
      obtain ⟨outs, steps, told⟩ := ih
      refine ⟨output :: outs, .cons (sends_of_returns sent) steps, ?_⟩
      rw [told, asked, List.reverse_cons, List.append_assoc, List.singleton_append]

/-! ## Requests -/

/-- A call of a session. -/
inductive Request where
  | send (input : Message)
  | drive (first : Message) (answer : List Message → Message → Message)

/-- What comes of a request: what the machine asked meanwhile, and how it ended. -/
structure Response where
  asked : List Message
  outcome : Except Stop Message

/-- All that the machine has said, in order. -/
def Response.outputs (r : Response) : List Message :=
  r.asked ++ r.outcome.toOption.toList

def perform (s : Session σ) : Request → Eventual (Session σ × Response)
  | .send input => (fun sent => (sent.1, ⟨[], sent.2⟩)) <$> s.send input
  | .drive first answer =>
      (fun driven => (driven.session, ⟨driven.asked, driven.outcome⟩)) <$> s.drive first answer

/-- Performs one request after the other. -/
def performAll (s : Session σ) : List Request → Eventual (Session σ × List Response)
  | [] => pure (s, [])
  | request :: rest => do
      let (t, response) ← s.perform request
      let (last, responses) ← t.performAll rest
      pure (last, response :: responses)

theorem steps_of_perform {request : Request} {response : Response}
    (h : (s.perform request).Returns (t, response)) : Steps s response.outputs t := by
  cases request with
  | send input =>
      obtain ⟨⟨t, outcome⟩, sent, same⟩ := Eventual.returns_map.1 h
      cases same
      exact (sends_of_returns sent).steps
  | drive first answer =>
      obtain ⟨r, driven, same⟩ := Eventual.returns_map.1 h
      cases same
      obtain ⟨outs, steps, told⟩ := steps_of_leads (Eventual.returns_iterate_iff.1 driven)
      rw [Response.outputs, told]
      exact steps

theorem steps_of_performAll {requests : List Request} {responses : List Response}
    (h : (s.performAll requests).Returns (t, responses)) :
    Steps s (responses.flatMap Response.outputs) t := by
  induction requests generalizing s responses with
  | nil =>
      cases Eventual.returns_pure.1 h
      exact .nil
  | cons request rest ih =>
      obtain ⟨⟨next, response⟩, performed, after⟩ := Eventual.returns_bind.1 h
      obtain ⟨⟨last, later⟩, performedLater, result⟩ := Eventual.returns_bind.1 after
      cases Eventual.returns_pure.1 result
      rw [List.flatMap_cons]
      exact (steps_of_perform performed).trans (ih performedLater)

/-! ## Recording is not seen -/

/-- The session as if it had never recorded, with another clock. -/
def unrecorded (clock : Nat → Timestamp) (s : Session σ) : Session σ :=
  { s with
    config := { s.config with recordHistory := false }
    clock
    history := .empty }

def Drive.unrecorded (clock : Nat → Timestamp) (d : Drive σ) : Drive σ :=
  { d with session := d.session.unrecorded clock }

def Driven.unrecorded (clock : Nat → Timestamp) (r : Driven σ) : Driven σ :=
  { r with session := r.session.unrecorded clock }

variable (clock : Nat → Timestamp)

theorem send_unrecorded (s : Session σ) (input : Message) :
    (s.unrecorded clock).send input =
      (fun sent => (sent.1.unrecorded clock, sent.2)) <$> s.send input := by
  have live : (s.unrecorded clock).state = s.state := rfl
  have refusal : (s.unrecorded clock).refusal? = s.refusal? := rfl
  rw [send, send, live, refusal]
  cases s.state with
  | none => rfl
  | some state =>
      cases s.refusal? with
      | some fault => rfl
      | none =>
          simp only [map_bind]
          refine congrArg ((s.machine.advance state input).run >>= ·) (funext fun turn => ?_)
          rcases turn with stop | ⟨next, output⟩
          · rfl
          · rfl

theorem driveStep_unrecorded (answer : List Message → Message → Message) (d : Drive σ) :
    driveStep answer (d.unrecorded clock) =
      Sum.map (Drive.unrecorded clock) (Driven.unrecorded clock) <$> driveStep answer d := by
  rw [driveStep_eq_after, driveStep_eq_after, Functor.map_map]
  refine (congrArg _ (send_unrecorded clock d.session d.next)).trans ?_
  rw [Functor.map_map]
  refine congrArg (· <$> d.session.send d.next) (funext fun sent => ?_)
  obtain ⟨t, stop | output⟩ := sent
  · rfl
  · simp only [Drive.after]
    cases output.channel.control with
    | continuing rest => rfl
    | breaking rest => rfl
    | data => rfl

theorem drive_unrecorded (s : Session σ) (first : Message)
    (answer : List Message → Message → Message) :
    (s.unrecorded clock).drive first answer =
      Driven.unrecorded clock <$> s.drive first answer :=
  Eventual.iterate_map (driveStep_unrecorded clock answer) ⟨s, first, []⟩

theorem perform_unrecorded (s : Session σ) (request : Request) :
    (s.unrecorded clock).perform request =
      (fun done => (done.1.unrecorded clock, done.2)) <$> s.perform request := by
  cases request with
  | send input =>
      simp only [perform, send_unrecorded, Functor.map_map]
  | drive first answer =>
      simp only [perform, drive_unrecorded, Functor.map_map]
      rfl

theorem performAll_unrecorded (s : Session σ) (requests : List Request) :
    (s.unrecorded clock).performAll requests =
      (fun done => (done.1.unrecorded clock, done.2)) <$> s.performAll requests := by
  induction requests generalizing s with
  | nil => rfl
  | cons request rest ih =>
      rw [performAll, performAll, perform_unrecorded, bind_map_left, map_bind]
      refine congrArg (s.perform request >>= ·) (funext fun done => ?_)
      show ((done.1.unrecorded clock).performAll rest >>= _) = _
      rw [ih, bind_map_left, map_bind]
      rfl

end Session

end Switchboard
