import Switchboard.Proofs.Session.Sending

/-!
# Driving

Driving a session without a limit is driving its machine: `Machine.Drives` says
what follows a turn when every continuation is answered, with nothing of the
session in it.  A session that is driven returns exactly if its machine is driven
to an end, and then it tells what the machine has asked, how it ended and in
which state (`Driven.Reports`).
-/

namespace Switchboard

variable {σ : Type}

/-! ## Machines -/

/-- After a turn of a machine, with some questions asked before, answering goes on
to be asked `later` and ends with an outcome. -/
inductive Machine.Drives (m : Machine σ) (answer : List Message → Message → Message) :
    List Message → Except Stop (σ × Message) → List Message → Except Stop (σ × Message) → Prop
  | stop {before : List Message} {stop : Stop} :
      Drives m answer before (.error stop) [] (.error stop)
  | finish {before : List Message} {next : σ} {out : Message}
      (unasked : ∀ rest, out.channel.control ≠ .continuing rest) :
      Drives m answer before (.ok (next, out)) [] (.ok (next, out))
  | again {before later : List Message} {next : σ} {out : Message} {rest : Channel}
      {turn outcome : Except Stop (σ × Message)} (asks : out.channel.control = .continuing rest)
      (ends : (m.advance next (answer before out)).Ends turn)
      (drives : Drives m answer (before ++ [out]) turn later outcome) :
      Drives m answer before (.ok (next, out)) (out :: later) outcome

namespace Session

variable {m : Machine σ} {answer : List Message → Message → Message}

/-- What a driven session tells: the questions, the outcome and the last state;
at success it has taken one step more than there were questions. -/
structure Driven.Reports (r : Driven σ) (steps : Nat) (before later : List Message)
    (outcome : Except Stop (σ × Message)) : Prop where
  asked_eq : r.asked = before ++ later
  outcome_eq : r.outcome = outcome.map (·.2)
  state_eq : r.session.state = (outcome.map (·.1)).toOption
  steps_eq : ∀ answer, outcome = .ok answer → r.session.steps = steps + later.length + 1

variable {r : Driven σ}

theorem Driven.Reports.again {steps : Nat} {before later : List Message} {out : Message}
    {outcome : Except Stop (σ × Message)}
    (h : r.Reports (steps + 1) (before ++ [out]) later outcome) :
    r.Reports steps before (out :: later) outcome where
  asked_eq := by rw [h.asked_eq, List.append_assoc, List.singleton_append]
  outcome_eq := h.outcome_eq
  state_eq := h.state_eq
  steps_eq answer ok := by
    rw [h.steps_eq answer ok, List.length_cons]
    omega

/-! ## One step -/

variable {s t : Session σ} {state next : σ} {d : Drive σ}

/-- How driving goes on after a step. -/
def Drive.after (d : Drive σ) (answer : List Message → Message → Message)
    (sent : Session σ × Except Stop Message) : Drive σ ⊕ Driven σ :=
  match sent.2 with
  | .error stop => .inr ⟨sent.1, .error stop, d.asked.reverse⟩
  | .ok output =>
      match output.channel.control with
      | .continuing _ => .inl ⟨sent.1, answer d.asked.reverse output, output :: d.asked⟩
      | _ => .inr ⟨sent.1, .ok output, d.asked.reverse⟩

theorem Drive.after_eq_inr {outcome : Except Stop Message}
    (h : d.after answer (t, outcome) = .inr r) : r = ⟨t, outcome, d.asked.reverse⟩ := by
  rw [after] at h
  split at h
  · rename_i stop failed
    cases failed
    exact (Sum.inr.inj h).symm
  · rename_i output answered
    cases answered
    split at h
    · cases h
    · exact (Sum.inr.inj h).symm

theorem Drive.after_eq_inl {outcome : Except Stop Message} {d' : Drive σ}
    (h : d.after answer (t, outcome) = .inl d') :
    ∃ output, outcome = .ok output ∧ d'.session = t ∧ d'.asked = output :: d.asked := by
  rw [after] at h
  split at h
  · cases h
  · rename_i output answered
    split at h
    · cases h
      exact ⟨output, answered, rfl, rfl⟩
    · cases h

variable [Observable σ]

theorem driveStep_eq_after (answer : List Message → Message → Message) (d : Drive σ) :
    driveStep answer d = d.after answer <$> d.session.send d.next := by
  rw [driveStep, map_eq_pure_bind]
  refine congrArg (d.session.send d.next >>= ·) (funext fun sent => ?_)
  obtain ⟨t, stop | output⟩ := sent
  · rfl
  · simp only [Drive.after]
    cases output.channel.control with
    | continuing rest => rfl
    | breaking rest => rfl
    | data => rfl

/-- How driving goes on after a turn. -/
def Drive.follow (d : Drive σ) (answer : List Message → Message → Message) (state : σ) :
    Except Stop (σ × Message) → Drive σ ⊕ Driven σ
  | .error stop => .inr ⟨d.session.stop, .error stop, d.asked.reverse⟩
  | .ok (next, out) =>
      let session := d.session.stepped state d.next next out
      match out.channel.control with
      | .continuing _ => .inl ⟨session, answer d.asked.reverse out, out :: d.asked⟩
      | _ => .inr ⟨session, .ok out, d.asked.reverse⟩

theorem Drive.follow_continuing {out : Message} {rest : Channel}
    (asks : out.channel.control = .continuing rest) :
    d.follow answer state (.ok (next, out)) =
      .inl ⟨d.session.stepped state d.next next out, answer d.asked.reverse out,
        out :: d.asked⟩ := by
  simp only [follow, asks]

theorem Drive.follow_last {out : Message}
    (unasked : ∀ rest, out.channel.control ≠ .continuing rest) :
    d.follow answer state (.ok (next, out)) =
      .inr ⟨d.session.stepped state d.next next out, .ok out, d.asked.reverse⟩ := by
  rw [follow]
  cases steers : out.channel.control with
  | continuing rest => exact (unasked rest steers).elim
  | breaking rest => rfl
  | data => rfl

theorem driveStep_eq (running : d.session.Running m state) :
    driveStep answer d = d.follow answer state <$> (m.advance state d.next).run := by
  have free := running.refusal?_eq_none
  obtain ⟨rfl, _, live⟩ := running
  rw [driveStep_eq_after, send]
  simp only [live, free, map_bind]
  rw [map_eq_pure_bind]
  refine congrArg ((d.session.machine.advance state d.next).run >>= ·) (funext fun turn => ?_)
  rcases turn with stop | ⟨next, out⟩
  · rfl
  · rfl

theorem driveStep_returns_iff (running : d.session.Running m state) {next : Drive σ ⊕ Driven σ} :
    (driveStep answer d).Returns next ↔
      ∃ turn, (m.advance state d.next).Ends turn ∧ d.follow answer state turn = next := by
  rw [driveStep_eq running]
  exact Eventual.returns_map

/-- A step after which driving goes on comes after a question. -/
theorem Drive.question_of_follow_inl {turn : Except Stop (σ × Message)} {later : Drive σ}
    (h : d.follow answer state turn = .inl later) :
    ∃ next out rest, turn = .ok (next, out) ∧ out.channel.control = .continuing rest ∧
      later = ⟨d.session.stepped state d.next next out, answer d.asked.reverse out,
        out :: d.asked⟩ := by
  rcases turn with stop | ⟨next, out⟩
  · cases h
  · by_cases asks : ∃ rest, out.channel.control = .continuing rest
    · obtain ⟨rest, asks⟩ := asks
      rw [follow_continuing asks] at h
      cases h
      exact ⟨next, out, rest, rfl, asks, rfl⟩
    · rw [follow_last fun rest eq => asks ⟨rest, eq⟩] at h
      cases h

/-- A step that ends driving comes after a turn without a question. -/
theorem Drive.drives_of_follow_inr {turn : Except Stop (σ × Message)}
    (h : d.follow answer state turn = .inr r) :
    m.Drives answer d.asked.reverse turn [] turn ∧
      r.Reports d.session.steps d.asked.reverse [] turn := by
  rcases turn with stop | ⟨next, out⟩
  · cases h
    exact ⟨.stop, (List.append_nil _).symm, rfl, rfl, fun _ eq => by cases eq⟩
  · by_cases asks : ∃ rest, out.channel.control = .continuing rest
    · obtain ⟨rest, asks⟩ := asks
      rw [follow_continuing asks] at h
      cases h
    · have unasked : ∀ rest, out.channel.control ≠ .continuing rest :=
        fun rest eq => asks ⟨rest, eq⟩
      rw [follow_last unasked] at h
      cases h
      exact ⟨.finish unasked, (List.append_nil _).symm, rfl, rfl, fun _ _ => rfl⟩

theorem drives_of_leads (h : Eventual.Leads (driveStep answer) d r)
    (running : d.session.Running m state) :
    ∃ turn later outcome, (m.advance state d.next).Ends turn ∧
      m.Drives answer d.asked.reverse turn later outcome ∧
      r.Reports d.session.steps d.asked.reverse later outcome := by
  induction h generalizing state with
  | finish answers =>
      obtain ⟨turn, ends, follow⟩ := (driveStep_returns_iff running).1 answers
      obtain ⟨drives, reports⟩ := Drive.drives_of_follow_inr follow
      exact ⟨turn, [], turn, ends, drives, reports⟩
  | again goes _ ih =>
      obtain ⟨turn, ends, follow⟩ := (driveStep_returns_iff running).1 goes
      obtain ⟨next, out, rest, rfl, asks, rfl⟩ := Drive.question_of_follow_inl follow
      obtain ⟨turn, later, outcome, ends', drives, reports⟩ := ih (running.stepped _ next out)
      rw [List.reverse_cons] at drives reports
      exact ⟨_, out :: later, outcome, ends, .again asks ends' drives, reports.again⟩

theorem leads_of_drives {before later : List Message} {turn outcome : Except Stop (σ × Message)}
    (h : m.Drives answer before turn later outcome) (running : d.session.Running m state)
    (ends : (m.advance state d.next).Ends turn) (asked : d.asked.reverse = before) :
    ∃ r, Eventual.Leads (driveStep answer) d r ∧
      r.Reports d.session.steps before later outcome := by
  induction h generalizing d state with
  | @stop before stop =>
      subst asked
      have follow : d.follow answer state (.error stop) = .inr _ := rfl
      have returns := (driveStep_returns_iff running).2 ⟨_, ends, follow⟩
      exact ⟨_, .finish returns, (Drive.drives_of_follow_inr (m := m) follow).2⟩
  | @finish before next out unasked =>
      subst asked
      have follow : d.follow answer state (.ok (next, out)) = .inr _ := Drive.follow_last unasked
      have returns := (driveStep_returns_iff running).2 ⟨_, ends, follow⟩
      exact ⟨_, .finish returns, (Drive.drives_of_follow_inr (m := m) follow).2⟩
  | @again before later next out rest turn outcome asks ends' _ ih =>
      subst asked
      have returns : (driveStep answer d).Returns _ :=
        (driveStep_returns_iff running).2 ⟨_, ends, Drive.follow_continuing asks⟩
      let d' : Drive σ :=
        ⟨d.session.stepped state d.next next out, answer d.asked.reverse out, out :: d.asked⟩
      have asked : d'.asked.reverse = d.asked.reverse ++ [out] := List.reverse_cons
      obtain ⟨r, leads, reports⟩ := ih (running.stepped _ next out) ends' asked
      exact ⟨r, .again returns leads, reports.again⟩

/-! ## Whole drives -/

/-- A session that was driven to an end tells how its machine was. -/
theorem Running.drives_of_returns (running : s.Running m state) {first : Message}
    (h : (s.drive first answer).Returns r) :
    ∃ turn asked outcome, (m.advance state first).Ends turn ∧
      m.Drives answer [] turn asked outcome ∧ r.Reports s.steps [] asked outcome :=
  drives_of_leads (Eventual.returns_iterate_iff.1 h) running

/-- If its machine can be driven to an end, so is the session. -/
theorem Running.drive_returns (running : s.Running m state) {first : Message}
    {turn outcome : Except Stop (σ × Message)} {asked : List Message}
    (ends : (m.advance state first).Ends turn) (h : m.Drives answer [] turn asked outcome) :
    ∃ r, (s.drive first answer).Returns r ∧ r.Reports s.steps [] asked outcome := by
  obtain ⟨r, leads, reports⟩ := leads_of_drives h (d := ⟨s, first, []⟩) running ends rfl
  exact ⟨r, Eventual.returns_iterate_iff.2 leads, reports⟩

end Session

end Switchboard
