import Switchboard.Machine.Basic
import Switchboard.Proofs.Session.Requests

/-!
# Replaying histories

A session that records keeps a log from which its run can be repeated.  `Recalls`
says so of a session and the state its last answer has led to; every step keeps it,
whichever of the four ways it ends (`Sends.recalls`), so it holds after any requests
(`Session.history_replays`).
-/

namespace Switchboard

namespace Session

variable {σ : Type}

/-- All that shows after requests, but for the history. -/
def seen (done : Session σ × List Response) : Option σ × Nat × List Response :=
  (done.1.state, done.1.steps, done.2)

variable [Observable σ] {m : Machine σ} {s t : Session σ} {outs later : List Message} {last : σ}

/-- The history of a session tells the outputs so far, and its machine repeats them
when it is given the recorded inputs.  A session that goes on does so from the last
state. -/
structure Recalls (s : Session σ) (m : Machine σ) (outs : List Message) (last : σ) : Prop where
  machine : s.machine = m
  recording : s.config.recordHistory = true
  numbers : s.history.records.map (·.step) = List.range' 1 s.steps
  names : Observable.name m.start :: s.history.records.map (·.after) =
    s.history.records.map (·.before) ++ [Observable.name last]
  told : s.history.outputs = outs
  replays : m.Answers m.start (s.history.records.map (·.input)) outs last
  current : ∀ state, s.state = some state → state = last

theorem start_recalls (machine : Machine σ) (config : SessionConfig)
    (recording : config.recordHistory = true) (clock : Nat → Timestamp) :
    (start machine config clock).Recalls machine [] machine.start where
  machine := rfl
  recording := recording
  numbers := rfl
  names := rfl
  told := rfl
  replays := .nil
  current _ live := (Option.some.inj live).symm

theorem Recalls.stepped (h : s.Recalls m outs last) {input output : Message} {next : σ}
    (ends : (m.advance last input).Ends (.ok (next, output))) :
    (s.stepped last input next output).Recalls m (outs ++ [output]) next where
  machine := h.machine
  recording := h.recording
  numbers := by
    simp only [Session.stepped, h.recording, if_true, History.record, List.map_append, h.numbers,
      List.map_singleton]
    rw [List.range'_concat, Nat.one_mul, Nat.add_comm]
  names := by
    simp only [Session.stepped, h.recording, if_true, History.record, List.map_append,
      List.map_singleton]
    rw [← List.cons_append, h.names]
  told := by
    rw [outputs_stepped h.recording, h.told]
  replays := by
    have replayed := h.replays.concat ends
    simp only [Session.stepped, h.recording, if_true, History.record, List.map_append,
      List.map_singleton]
    exact replayed
  current state live := (Option.some.inj live).symm

theorem Recalls.stop (h : s.Recalls m outs last) : s.stop.Recalls m outs last where
  machine := h.machine
  recording := h.recording
  numbers := h.numbers
  names := h.names
  told := h.told
  replays := h.replays
  current state live := by cases live

/-- A step adds what it answers to what is recalled. -/
theorem Sends.recalls {input : Message} {outcome : Except Stop Message}
    (sent : Sends s input t outcome) (h : s.Recalls m outs last) :
    ∃ last', t.Recalls m (outs ++ outcome.toOption.toList) last' := by
  cases sent with
  | halted ended => exact ⟨last, (List.append_nil outs).symm ▸ h⟩
  | refused live refusal => exact ⟨last, (List.append_nil outs).symm ▸ h⟩
  | @answered state next output live free ends =>
      obtain rfl := h.current state live
      exact ⟨next, h.stepped (h.machine ▸ ends)⟩
  | stopped live free ends => exact ⟨last, (List.append_nil outs).symm ▸ h.stop⟩

theorem Steps.recalls (steps : Steps s later t) (h : s.Recalls m outs last) :
    ∃ last', t.Recalls m (outs ++ later) last' := by
  induction steps generalizing outs last with
  | nil => exact ⟨last, (List.append_nil outs).symm ▸ h⟩
  | cons sent _ ih =>
      obtain ⟨last', recalls⟩ := sent.recalls h
      rw [← List.append_assoc]
      exact ih recalls

/-! ## What a history shows -/

namespace Recalls

theorem length_eq (h : s.Recalls m outs last) : s.history.records.length = s.steps := by
  have lengths := congrArg List.length h.numbers
  rwa [List.length_map, List.length_range'] at lengths

theorem step_eq (h : s.Recalls m outs last) {i : Nat} {r : StepRecord}
    (there : s.history.records[i]? = some r) : r.step = i + 1 := by
  have numbered : (List.range' 1 s.steps)[i]? = some r.step := by
    rw [← h.numbers, List.getElem?_map, there]
    rfl
  obtain ⟨inside, eq⟩ := List.getElem?_eq_some_iff.1 numbered
  rw [List.getElem_range', Nat.one_mul, Nat.add_comm] at eq
  exact eq.symm

theorem before_first (h : s.Recalls m outs last) {r : StepRecord}
    (first : s.history.records.head? = some r) :
    r.before = Observable.name m.start := by
  obtain ⟨rest, eq⟩ := List.head?_eq_some_iff.1 first
  have names := h.names
  rw [eq] at names
  exact (List.cons.inj names).1.symm

theorem before_later (h : s.Recalls m outs last) {i : Nat} {r r' : StepRecord}
    (there : s.history.records[i]? = some r) (there' : s.history.records[i + 1]? = some r') :
    r'.before = r.after := by
  have before : (s.history.records.map (·.before))[i + 1]? = some r'.before := by
    rw [List.getElem?_map, there']
    rfl
  have after : (s.history.records.map (·.after))[i]? = some r.after := by
    rw [List.getElem?_map, there]
    rfl
  have shifted := congrArg (·[i + 1]?) h.names
  simp only [List.getElem?_cons_succ] at shifted
  rw [after, List.getElem?_append_left (List.getElem?_eq_some_iff.1 before).1, before] at shifted
  exact (Option.some.inj shifted).symm

theorem path_length (h : s.Recalls m outs last) :
    s.history.path.length = if s.steps = 0 then 0 else s.steps + 1 := by
  rw [← h.length_eq, History.path]
  cases s.history.records with
  | nil => rfl
  | cons r rest => simp [Nat.add_comm]

end Recalls

/-- A history tells all that was answered and how often, what it tells follows from
the machine and the recorded inputs alone, and nothing but the history depends on
whether there is one. -/
theorem history_replays (machine : Machine σ) (config : SessionConfig)
    (clock clock' : Nat → Timestamp) (requests : List Request) :
    let recorded := (start machine { config with recordHistory := true } clock).performAll requests
    let silent := (start machine { config with recordHistory := false } clock').performAll requests
    (∀ s responses, recorded.Returns (s, responses) →
      s.history.records.length = s.steps ∧
      (∀ i r, s.history.records[i]? = some r → r.step = i + 1) ∧
      (∀ r, s.history.records.head? = some r → r.before = Observable.name machine.start) ∧
      (∀ i r r', s.history.records[i]? = some r → s.history.records[i + 1]? = some r' →
        r'.before = r.after) ∧
      (s.history.path.length = if s.steps = 0 then 0 else s.steps + 1) ∧
      s.history.outputs = responses.flatMap Response.outputs ∧
      s.history.transcript = (responses.flatMap Response.outputs).map (·.channel.text) ∧
      ∃ last, machine.Answers machine.start (s.history.records.map (·.input))
          (s.history.records.map (·.output)) last ∧
        ∀ state, s.state = some state → state = last) ∧
    (∀ s responses, silent.Returns (s, responses) → s.history = .empty) ∧
    seen <$> silent = seen <$> recorded := by
  intro recorded silent
  have alike : silent = (fun done => (done.1.unrecorded clock', done.2)) <$> recorded :=
    performAll_unrecorded clock' (start machine { config with recordHistory := true } clock)
      requests
  refine ⟨?_, ?_, ?_⟩
  · intro s responses done
    have steps := steps_of_performAll done
    obtain ⟨last, recalls⟩ := steps.recalls (start_recalls machine _ rfl clock)
    rw [List.nil_append] at recalls
    have replays := recalls.replays
    rw [← recalls.told] at replays
    refine ⟨recalls.length_eq, ?_, ?_, ?_, recalls.path_length, recalls.told, ?_, last, replays,
      recalls.current⟩
    · intro i r there
      exact recalls.step_eq there
    · intro r first
      exact recalls.before_first first
    · intro i r r' there there'
      exact recalls.before_later there there'
    · rw [← recalls.told, History.outputs, List.map_map]
      rfl
  · intro s responses done
    rw [alike] at done
    obtain ⟨_, _, same⟩ := Eventual.returns_map.1 done
    cases same
    rfl
  · rw [alike, Functor.map_map]
    rfl

/-- A question, its answer and a message that is not understood: the two steps are
recalled if they are recorded, and otherwise nothing is. -/
theorem history_of_suspension :
    let machine := Machine.suspend ⟨["ask"]⟩
    let requests : List Request :=
      [.drive (.result .null) fun _ question => ⟨⟨["ask"]⟩, question.data⟩, .send (.err "odd")]
    ∃ s t responses,
      ((start machine ⟨true, some 3⟩ fun _ => .ofMillis 0).performAll requests).Returns
        (s, responses) ∧
      ((start machine ⟨false, some 3⟩ fun _ => .ofMillis 1).performAll requests).Returns
        (t, responses) ∧
      s.history.records.length = 2 ∧ s.history.path.length = 3 ∧ s.state = none ∧
      s.history.transcript = ["continue/ask", "break/result"] ∧ t.history = .empty := by
  intro machine requests
  obtain ⟨recalls, forgets, alike⟩ := history_replays machine ⟨true, some 3⟩ (fun _ => .ofMillis 0)
    (fun _ => .ofMillis 1) requests
  obtain ⟨s, responses, done, steps, halted, told⟩ : ∃ s responses,
      ((start machine ⟨true, some 3⟩ fun _ => .ofMillis 0).performAll requests).Returns
        (s, responses) ∧ s.steps = 2 ∧ s.state = none ∧
      (responses.flatMap Response.outputs).map (·.channel.text) =
        ["continue/ask", "break/result"] := ⟨_, _, ⟨3, rfl⟩, rfl, rfl, rfl⟩
  have shown := Eventual.returns_map.2 ⟨_, done, Eq.refl (seen (s, responses))⟩
  rw [← alike] at shown
  obtain ⟨⟨t, responses'⟩, done', same⟩ := Eventual.returns_map.1 shown
  obtain rfl : responses' = responses := congrArg (·.2.2) same
  obtain ⟨length_eq, _, _, _, path_length, _, transcript_eq, _⟩ := recalls s _ done
  rw [steps] at length_eq path_length
  rw [told] at transcript_eq
  exact ⟨s, t, _, done, done', length_eq, path_length, halted, transcript_eq,
    forgets t _ done'⟩

end Session

end Switchboard
