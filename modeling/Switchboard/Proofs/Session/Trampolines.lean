import Switchboard.Machine.Basic
import Switchboard.Machine.Sequence
import Switchboard.Proofs.Machine.Bounces
import Switchboard.Proofs.Session.Driving

/-!
# Trampolines and driving

What a trampoline does inside a turn can be done by driving from outside.  A
pipeline under a driver is its inner machine under a driver that answers the
continuations on `result` itself (`relayed`), and a loop is its inner machine
under a driver that echoes (`echo`).  A chain of bounces inside one turn
corresponds to as many steps of the driven session, so the two inductions are on
what follows a turn and, inside, on the bounces of the next one.
-/

namespace Switchboard

/-- The message as it leaves a loop: without a leading `break`. -/
def Message.opened (out : Message) : Message :=
  match out.channel.control with
  | .breaking rest => out.withChannel rest
  | _ => out

namespace Session

open Machine (Route)

/-- A question that a pipeline does not answer itself. -/
def isForeign (question : Message) : Bool :=
  question.channel ≠ Route.selfContinuation

/-- Answers the questions of a pipeline's inner machine: a continuation on `result`
is fed back, and of the others the answer is asked, which does not get to see the
former. -/
def relayed (answer : List Message → Message → Message) (earlier : List Message)
    (question : Message) : Message :=
  if isForeign question then answer (earlier.filter isForeign) question
  else Message.result question.data

/-- Answers a continuation on what it continues on, with its own data. -/
def echo (_ : List Message) (question : Message) : Message :=
  match question.channel.control with
  | .continuing rest => question.withChannel rest
  | _ => question

/-! ## Routes -/

theorem control_of_not_foreign {out : Message} (own : isForeign out = false) :
    out.channel.control = .continuing .result := by
  have self : out.channel = Route.selfContinuation := by simpa [isForeign] using own
  rw [self]
  rfl

theorem pipeline_again_iff {out back : Message} :
    Route.pipeline out = .again back ↔ isForeign out = false ∧ back = Message.result out.data := by
  by_cases self : out.channel = Route.selfContinuation
  · simp [Route.pipeline, isForeign, self, eq_comm]
  · simp [Route.pipeline, isForeign, self]

theorem pipeline_finish_iff {out answer : Message} :
    Route.pipeline out = .finish answer ↔ isForeign out = true ∧ answer = out := by
  by_cases self : out.channel = Route.selfContinuation
  · simp [Route.pipeline, isForeign, self]
  · simp [Route.pipeline, isForeign, self, eq_comm]

theorem looped_again_iff {out back : Message} :
    Route.looped out = .again back ↔
      ∃ rest, out.channel.control = .continuing rest ∧ back = out.withChannel rest := by
  rw [Route.looped]
  cases out.channel.control with
  | continuing rest => simp [eq_comm]
  | breaking rest => simp
  | data => simp

theorem looped_finish_iff {out answer : Message} :
    Route.looped out = .finish answer ↔
      (∀ rest, out.channel.control ≠ .continuing rest) ∧ answer = out.opened := by
  rw [Route.looped, Message.opened]
  cases out.channel.control with
  | continuing rest => simp
  | breaking rest => simp [eq_comm]
  | data => simp [eq_comm]

variable {σ : Type} {m : Machine σ} {answer : List Message → Message → Message}

/-! ## Pipelines -/

/-- A pipeline answers with nothing that it would feed back. -/
theorem foreign_of_bounces {turns : Nat} {s next : σ} {message out : Message}
    (h : Machine.Bounces Route.pipeline m turns s message (.ok (next, out))) :
    isForeign out = true := by
  generalize result : Except.ok (next, out) = outcome at h
  induction h with
  | stop => cases result
  | finish _ leaves =>
      cases result
      obtain ⟨foreign, rfl⟩ := pipeline_finish_iff.1 leaves
      exact foreign
  | again _ _ _ ih => exact ih result

/-- What can be driven to an end after a turn of a pipeline can be driven to the
same end after the first turn of its inner machine. -/
theorem drives_of_bounces {turns : Nat} {s : σ} {message : Message}
    {turn outcome : Except Stop (σ × Message)} {earlier later : List Message}
    (h : Machine.Bounces Route.pipeline m turns s message turn)
    (after : ∀ before : List Message, before.filter isForeign = earlier →
      ∃ asked, m.Drives (relayed answer) before turn asked outcome ∧
        asked.filter isForeign = later) :
    ∀ before : List Message, before.filter isForeign = earlier →
      ∃ first asked, (m.advance s message).Ends first ∧
        m.Drives (relayed answer) before first asked outcome ∧
        asked.filter isForeign = later := by
  induction h with
  | stop ends =>
      intro before same
      obtain ⟨asked, drives, foreign⟩ := after before same
      exact ⟨_, asked, ends, drives, foreign⟩
  | finish ends leaves =>
      intro before same
      obtain ⟨_, rfl⟩ := pipeline_finish_iff.1 leaves
      obtain ⟨asked, drives, foreign⟩ := after before same
      exact ⟨_, asked, ends, drives, foreign⟩
  | @again turns s next message out back turn ends returns _ ih =>
      intro before same
      obtain ⟨own, rfl⟩ := pipeline_again_iff.1 returns
      have unseen : (before ++ [out]).filter isForeign = earlier := by simp [own, same]
      obtain ⟨first, asked, ends', drives, foreign⟩ := ih after (before ++ [out]) unseen
      have answered : relayed answer before out = Message.result out.data := by
        simp [relayed, own]
      refine ⟨_, out :: asked, ends, .again (control_of_not_foreign own) ?_ drives, ?_⟩
      · rw [answered]
        exact ends'
      · simp [own, foreign]

/-- Each answer to a pipeline starts a turn of it, and so a chain of turns of its inner
machine. -/
theorem relayed_drives_of_pipeline {turn outcome : Except Stop (σ × Message)}
    {earlier later : List Message} (h : (m.pipeline none).Drives answer earlier turn later outcome)
    (foreign : ∀ next out, turn = .ok (next, out) → isForeign out = true) :
    ∀ before : List Message, before.filter isForeign = earlier →
      ∃ asked, m.Drives (relayed answer) before turn asked outcome ∧
        asked.filter isForeign = later := by
  induction h with
  | stop => exact fun before _ => ⟨[], .stop, rfl⟩
  | finish unasked => exact fun before _ => ⟨[], .finish unasked, rfl⟩
  | @again earlier later next out rest turn outcome asks ends _ ih =>
      intro before same
      have asked := foreign next out rfl
      obtain ⟨turns, bounces⟩ := Machine.trampoline_ends_iff.1 ends
      have after := ih fun next out eq => foreign_of_bounces (eq ▸ bounces)
      obtain ⟨first, later', ends', drives, same'⟩ :=
        drives_of_bounces bounces after (before ++ [out]) (by simp [asked, same])
      have answered : relayed answer before out = answer earlier out := by
        simp [relayed, asked, same]
      refine ⟨out :: later', .again asks ?_ drives, ?_⟩
      · rw [answered]
        exact ends'
      · simp [asked, same']

/-- A question of the inner machine either joins the bounces of the turn behind it or ends a
turn of the pipeline. -/
theorem pipeline_drives_of_relayed {first outcome : Except Stop (σ × Message)}
    {before asked : List Message} (h : m.Drives (relayed answer) before first asked outcome)
    {s : σ} {message : Message} (ends : (m.advance s message).Ends first) :
    ∃ turns turn, Machine.Bounces Route.pipeline m turns s message turn ∧
      (m.pipeline none).Drives answer (before.filter isForeign) turn (asked.filter isForeign)
        outcome := by
  induction h generalizing s message with
  | stop => exact ⟨1, _, .stop ends, .stop⟩
  | @finish before next out unasked =>
      have foreign : isForeign out = true := by
        cases own : isForeign out with
        | true => rfl
        | false => exact (unasked _ (control_of_not_foreign own)).elim
      exact ⟨1, _, .finish ends (pipeline_finish_iff.2 ⟨foreign, rfl⟩), .finish unasked⟩
  | @again before later next out rest turn outcome asks ends' _ ih =>
      obtain ⟨turns, turn', bounces, drives⟩ := ih ends'
      cases foreign : isForeign out with
      | false =>
          have answered : relayed answer before out = Message.result out.data := by
            simp [relayed, foreign]
          rw [answered] at bounces
          have back := pipeline_again_iff.2 ⟨foreign, rfl⟩
          refine ⟨turns + 1, turn', .again ends back bounces, ?_⟩
          simpa [foreign] using drives
      | true =>
          have answered : relayed answer before out = answer (before.filter isForeign) out := by
            simp [relayed, foreign]
          rw [answered] at bounces
          refine ⟨1, _, .finish ends (pipeline_finish_iff.2 ⟨foreign, rfl⟩), ?_⟩
          rw [List.filter_cons_of_pos foreign]
          refine .again asks (Machine.trampoline_ends_iff.2 ⟨turns, bounces⟩) ?_
          simpa [foreign] using drives

/-! ## Loops -/

theorem bounces_of_echo_drives {first outcome : Except Stop (σ × Message)}
    {before asked : List Message} (h : m.Drives echo before first asked outcome)
    {s : σ} {message : Message} (ends : (m.advance s message).Ends first) :
    Machine.Bounces Route.looped m (asked.length + 1) s message
      (outcome.map fun r => (r.1, r.2.opened)) := by
  induction h generalizing s message with
  | stop => exact .stop ends
  | finish unasked => exact .finish ends (looped_finish_iff.2 ⟨unasked, rfl⟩)
  | again asks ends' _ ih =>
      refine .again ends (looped_again_iff.2 ⟨_, asks, rfl⟩) ?_
      have later := ih ends'
      rwa [echo, asks] at later

theorem echo_drives_of_bounces {turns : Nat} {s : σ} {message : Message}
    {result : Except Stop (σ × Message)}
    (h : Machine.Bounces Route.looped m turns s message result) :
    ∀ before : List Message, ∃ first asked outcome, (m.advance s message).Ends first ∧
      m.Drives echo before first asked outcome := by
  induction h with
  | stop ends => exact fun before => ⟨_, [], _, ends, .stop⟩
  | finish ends leaves =>
      exact fun before => ⟨_, [], _, ends, .finish (looped_finish_iff.1 leaves).1⟩
  | @again turns s next message out back result ends returns _ ih =>
      intro before
      obtain ⟨rest, asks, rfl⟩ := looped_again_iff.1 returns
      obtain ⟨first, asked, outcome, ends', drives⟩ := ih (before ++ [out])
      refine ⟨_, out :: asked, outcome, ends, .again asks ?_ drives⟩
      rw [echo, asks]
      exact ends'

/-! ## Sessions -/

variable [Observable σ] {first : Message} {record record' : Bool} {clock clock' : Nat → Timestamp}

/-- A session over a pipeline that is driven to an end is matched by one over the
inner machine. -/
theorem relayed_returns_of_collapsed {d : Driven σ}
    (h : ((start (m.pipeline none) ⟨record, none⟩ clock).drive first answer).Returns d) :
    ∃ e, ((start m ⟨record', none⟩ clock').drive first (relayed answer)).Returns e ∧
      d.outcome = e.outcome ∧ d.asked = e.asked.filter isForeign ∧
      d.session.state = e.session.state ∧
      ∀ out, d.outcome = .ok out →
        e.session.steps = d.session.steps + e.asked.countP fun q => !isForeign q := by
  obtain ⟨turn, later, outcome, ends, drives, reports⟩ :=
    (start_running (m.pipeline none) record clock).drives_of_returns h
  obtain ⟨turns, bounces⟩ := Machine.trampoline_ends_iff.1 ends
  have after := relayed_drives_of_pipeline drives
    fun next out eq => foreign_of_bounces (eq ▸ bounces)
  obtain ⟨first', asked, ends', drives', same⟩ := drives_of_bounces bounces after [] rfl
  obtain ⟨e, returns, reports'⟩ := (start_running m record' clock').drive_returns ends' drives'
  refine ⟨e, returns, ?_, ?_, ?_, fun out succeeds => ?_⟩
  · rw [reports.outcome_eq, reports'.outcome_eq]
  · rw [reports.asked_eq, reports'.asked_eq, List.nil_append, List.nil_append, same]
  · rw [reports.state_eq, reports'.state_eq]
  · cases outcome with
    | error stop =>
        rw [reports.outcome_eq] at succeeds
        cases succeeds
    | ok result =>
        have parts : asked.length =
            later.length + asked.countP fun q => !isForeign q := by
          rw [← same, ← List.countP_eq_length_filter]
          simpa using List.length_eq_countP_add_countP isForeign
        have fewer : d.session.steps = 0 + later.length + 1 := reports.steps_eq result rfl
        have more : e.session.steps = 0 + asked.length + 1 := reports'.steps_eq result rfl
        have seen : e.asked = asked := reports'.asked_eq
        rw [fewer, more, seen, parts]
        omega

theorem collapsed_returns_of_relayed {e : Driven σ}
    (h : ((start m ⟨record', none⟩ clock').drive first (relayed answer)).Returns e) :
    ∃ d, ((start (m.pipeline none) ⟨record, none⟩ clock).drive first answer).Returns d := by
  obtain ⟨turn, asked, outcome, ends, drives, _⟩ :=
    (start_running m record' clock').drives_of_returns h
  obtain ⟨turns, turn', bounces, drives'⟩ := pipeline_drives_of_relayed drives ends
  have ends' := Machine.trampoline_ends_iff.2 ⟨turns, bounces⟩
  obtain ⟨d, returns, _⟩ :=
    (start_running (m.pipeline none) record clock).drive_returns ends' drives'
  exact ⟨d, returns⟩

/-- A session that is driven with an echo is matched by one turn of a loop. -/
theorem looped_ends_of_echoed {e : Driven σ}
    (h : ((start m ⟨record, none⟩ clock).drive first echo).Returns e) :
    ∃ outcome, ((m.looped none).advance m.start first).Ends outcome ∧
      match outcome with
      | .ok (next, out) =>
          e.session.state = some next ∧ ∃ driven, e.outcome = .ok driven ∧ out = driven.opened
      | .error stop => e.session.state = none ∧ e.outcome = .error stop := by
  obtain ⟨turn, asked, outcome, ends, drives, reports⟩ :=
    (start_running m record clock).drives_of_returns h
  have bounces := bounces_of_echo_drives drives ends
  refine ⟨_, Machine.trampoline_ends_iff.2 ⟨_, bounces⟩, ?_⟩
  rcases outcome with stop | ⟨next, out⟩
  · exact ⟨reports.state_eq, reports.outcome_eq⟩
  · exact ⟨reports.state_eq, out, reports.outcome_eq, rfl⟩

theorem echoed_returns_of_looped {outcome : Except Stop (σ × Message)}
    (h : ((m.looped none).advance m.start first).Ends outcome) :
    ∃ e, ((start m ⟨record, none⟩ clock).drive first echo).Returns e := by
  obtain ⟨turns, bounces⟩ := Machine.trampoline_ends_iff.1 h
  obtain ⟨first', asked, outcome', ends, drives⟩ := echo_drives_of_bounces bounces []
  obtain ⟨e, returns, _⟩ := (start_running m record clock).drive_returns ends drives
  exact ⟨e, returns⟩

/-- Driving a pipeline is driving its inner machine with the continuations on
`result` answered, and a turn of a loop is driving its inner machine with an echo:
one ends exactly if the other does, and then they end alike. -/
theorem trampolines_are_driven (m : Machine σ) (first : Message)
    (answer : List Message → Message → Message) (record record' : Bool)
    (clock clock' : Nat → Timestamp) :
    let collapsed := (start (m.pipeline none) ⟨record, none⟩ clock).drive first answer
    let plain := (start m ⟨record', none⟩ clock').drive first (relayed answer)
    let turn := (m.looped none).advance m.start first
    let echoed := (start m ⟨record', none⟩ clock').drive first echo
    (((∃ d, collapsed.Returns d) ↔ ∃ e, plain.Returns e) ∧
      ∀ d e, collapsed.Returns d → plain.Returns e →
        d.outcome = e.outcome ∧ d.asked = e.asked.filter isForeign ∧
          d.session.state = e.session.state ∧
          ∀ out, d.outcome = .ok out →
            e.session.steps = d.session.steps + e.asked.countP fun q => !isForeign q) ∧
    ((∃ outcome, turn.Ends outcome) ↔ ∃ e, echoed.Returns e) ∧
      ∀ outcome e, turn.Ends outcome → echoed.Returns e →
        match outcome with
        | .ok (next, out) =>
            e.session.state = some next ∧ ∃ driven, e.outcome = .ok driven ∧ out = driven.opened
        | .error stop => e.session.state = none ∧ e.outcome = .error stop := by
  intro collapsed plain turn echoed
  refine ⟨⟨⟨?_, ?_⟩, fun d e drove drove' => ?_⟩, ⟨?_, ?_⟩, fun outcome e ends drove => ?_⟩
  · rintro ⟨d, drove⟩
    obtain ⟨e, drove', _⟩ := relayed_returns_of_collapsed drove
    exact ⟨e, drove'⟩
  · rintro ⟨e, drove⟩
    exact collapsed_returns_of_relayed drove
  · obtain ⟨e', drove'', alike⟩ := relayed_returns_of_collapsed drove
    obtain rfl := drove'.unique drove''
    exact alike
  · rintro ⟨outcome, ends⟩
    exact echoed_returns_of_looped ends
  · rintro ⟨e, drove⟩
    obtain ⟨outcome, ends, _⟩ := looped_ends_of_echoed drove
    exact ⟨outcome, ends⟩
  · obtain ⟨outcome', ends', alike⟩ := looped_ends_of_echoed drove
    obtain rfl := ends.unique ends'
    exact alike

/-- A machine that hands over, asks a question, and hands over again. -/
def errand : Machine (Phase Stateless (Phase Suspension Stateless)) :=
  .sequence .finish (.sequence (.suspend ⟨["ask"]⟩) .finish)

/-- Of the three continuations of the errand one is a question to others. -/
theorem errand_driven :
    (∃ e, ((start errand ⟨true, none⟩ fun _ => .ofMillis 0).drive (.result .null)
        (relayed echo)).Returns e ∧ e.outcome = .ok (.breakResult .null) ∧
      e.asked.filter isForeign = [.continueOn ⟨["ask"]⟩ .null]) ∧
    ∃ e, ((start errand ⟨true, none⟩ fun _ => .ofMillis 0).drive (.result .null) echo).Returns e ∧
      ∃ driven, e.outcome = .ok driven ∧ .result .null = driven.opened := by
  obtain ⟨⟨returns, alike⟩, returns', alike'⟩ := trampolines_are_driven errand (.result .null)
    echo true true (fun _ => .ofMillis 0) (fun _ => .ofMillis 0)
  constructor
  · obtain ⟨d, drove, outcome, asked⟩ :
        ∃ d, ((start (errand.pipeline none) ⟨true, none⟩ fun _ => .ofMillis 0).drive
          (.result .null) echo).Returns d ∧ d.outcome = .ok (.breakResult .null) ∧
          d.asked = [.continueOn ⟨["ask"]⟩ .null] := ⟨_, ⟨10, rfl⟩, rfl, rfl⟩
    obtain ⟨e, drove'⟩ := returns.1 ⟨d, drove⟩
    obtain ⟨same, seen, _⟩ := alike d e drove drove'
    exact ⟨e, drove', same ▸ outcome, seen ▸ asked⟩
  · obtain ⟨next, ends⟩ : ∃ next, ((errand.looped none).advance errand.start
        (.result .null)).Ends (.ok (next, .result .null)) := ⟨_, 10, rfl⟩
    obtain ⟨e, drove⟩ := returns'.1 ⟨_, ends⟩
    exact ⟨e, drove, (alike' _ e ends drove).2⟩

end Session

end Switchboard
