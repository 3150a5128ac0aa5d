import Mathlib.Data.List.Forall2
import Switchboard.Machine.Basic
import Switchboard.Machine.Sequence
import Switchboard.Machine.Stash
import Switchboard.Proofs.Iteration
import Switchboard.Proofs.Machine.Runs

/-!
# What is put aside is not seen

A reply of a stash is one of its inner machine, of which `Stashed.reply` makes the
stash's own: nothing but the data of a break is changed, and that is where the value put
aside comes back (`stash_reply_running`, `stash_reply_pair`).  So from a pair on, a stash
and its inner machine run side by side up to the first break, and behind it the stash is
a fresh one (`stash_run_running`).  Runs with different values put aside differ in the
data of that break alone (`stash_run_alike`).

A stop ends a run, since what follows it is out of step.  A caller who goes on with the
state before the stop finds the inner machine there too, but for a refused first message:
the stash is then idle, and nothing is put aside yet.
-/

namespace Switchboard

/-- The message ends a phase of a machine. -/
def Message.breaks (out : Message) : Bool :=
  match out.channel.control with
  | .breaking _ => true
  | _ => false

namespace Machine

/-- A phase of a machine ends with a break. -/
def endsPhase : Except Stop Message → Bool
  | .ok out => out.breaks
  | .error _ => false

/-- A phase ends with a break or, for a caller who gives up then, with a stop. -/
def endsPhaseOrStops : Except Stop Message → Bool
  | .ok out => out.breaks
  | .error _ => true

/-- The replies up to the one that ends a phase, and the messages behind it. -/
def phase {σ : Type} (ends : Except Stop Message → Bool) (m : Machine σ) :
    σ → List Message → Eventual (List (Reply σ) × List Message)
  | _, [] => pure ([], [])
  | s, message :: rest => do
      let r ← m.reply s message
      if ends r.outcome then pure ([r], rest)
      else
        let (later, left) ← m.phase ends r.state rest
        pure (r :: later, left)

end Machine

namespace Stashed

variable {σ : Type}

/-- What the stash answers for its inner machine: the data of a break is paired with the
value put aside. -/
def restore (stashed : Data) (out : Message) : Message :=
  if out.breaks then ⟨out.channel, .array [stashed, out.data]⟩ else out

/-- The reply of the stash for one of its inner machine: it is idle again after a break. -/
def reply (stashed : Data) (r : Reply σ) : Reply (Stashed σ) where
  state := if Machine.endsPhase r.outcome then .idle else .running stashed r.state
  outcome := r.outcome.map (restore stashed)

/-- The reply of an idle stash to a pair: it stays idle if its inner machine stops. -/
def opening (stashed : Data) (r : Reply σ) : Reply (Stashed σ) :=
  match r.outcome with
  | .ok _ => reply stashed r
  | .error stop => ⟨.idle, .error stop⟩

end Stashed

namespace Machine

variable {σ : Type} {m : Machine σ} {s : σ} {u u' v : Data}

/-! ## Replies -/

theorem relay_eq (m : Machine σ) (u : Data) (s : σ) (message : Message) :
    m.relay u s message =
      (fun turn =>
        (if turn.2.breaks then .idle else .running u turn.1, Stashed.restore u turn.2)) <$>
        m.advance s message := by
  rw [relay, map_eq_pure_bind]
  refine congrArg (m.advance s message >>= ·) (funext fun turn => ?_)
  obtain ⟨next, out⟩ := turn
  cases steers : out.channel.control with
  | continuing rest => simp [Stashed.restore, Message.breaks, steers]
  | breaking rest => simp [Stashed.restore, Message.breaks, steers]
  | data => simp [Stashed.restore, Message.breaks, steers]

theorem stash_reply_running (m : Machine σ) (u : Data) (s : σ) (message : Message) :
    m.stash.reply (.running u s) message = Stashed.reply u <$> m.reply s message := by
  refine reply_of_advance (m.relay_eq u s message) fun outcome => ?_
  cases outcome with
  | ok turn => rfl
  | error stop => rfl

theorem stash_reply_pair (m : Machine σ) (u v : Data) :
    m.stash.reply m.stash.start (.result (.array [u, v])) =
      Stashed.opening u <$> m.reply m.start (.result v) := by
  refine reply_of_advance (m.relay_eq u m.start (.result v)) fun outcome => ?_
  cases outcome with
  | ok turn => rfl
  | error stop => rfl

/-! ## Runs up to a break -/

/-- With the value put aside, a break is still a break, and nothing else becomes one. -/
theorem breaks_restore (u : Data) (out : Message) :
    (Stashed.restore u out).breaks = out.breaks := by
  rw [Stashed.restore]
  split
  · rfl
  · rfl

theorem idle_of_endsPhase {r : Reply σ} (h : endsPhase r.outcome = true) :
    (Stashed.reply u r).state = .idle :=
  if_pos h

theorem running_of_lasts {r : Reply σ} (h : endsPhase r.outcome = false) :
    (Stashed.reply u r).state = .running u r.state :=
  if_neg (Bool.eq_false_iff.1 h)

/-- With a caller who gives up at a stop, the stash and its inner machine take the same
turns up to the first break. -/
theorem stash_phase_running (m : Machine σ) (u : Data) (s : σ) (messages : List Message) :
    m.stash.phase endsPhaseOrStops (.running u s) messages =
      Prod.map (List.map (Stashed.reply u)) id <$> m.phase endsPhaseOrStops s messages := by
  induction messages generalizing s with
  | nil => simp [phase]
  | cons message rest ih =>
      rw [phase, phase, stash_reply_running, bind_map_left, map_bind]
      refine congrArg (m.reply s message >>= ·) (funext fun r => ?_)
      cases replied : r.outcome with
      | error stop => simp [Stashed.reply, replied, Except.map, endsPhaseOrStops]
      | ok out =>
          have same : endsPhaseOrStops (Stashed.reply u r).outcome = out.breaks := by
            rw [Stashed.reply, replied]
            exact breaks_restore u out
          rw [same, endsPhaseOrStops]
          cases breaks : out.breaks with
          | true => simp
          | false =>
              have going : (Stashed.reply u r).state = .running u r.state :=
                running_of_lasts (by rw [replied, endsPhase, breaks])
              simp [going, ih]

/-- A run of a busy stash is its inner machine's up to the first break, and from there
on that of a fresh stash. -/
theorem stash_run_running (m : Machine σ) (u : Data) (s : σ) (messages : List Message) :
    m.stash.run (.running u s) messages = (do
      let (replies, left) ← m.phase endsPhase s messages
      let fresh ← m.stash.run m.stash.start left
      pure (replies.map (Stashed.reply u) ++ fresh)) := by
  induction messages generalizing s with
  | nil => simp [phase, run]
  | cons message rest ih =>
      rw [run, phase, stash_reply_running, bind_map_left, bind_assoc]
      refine congrArg (m.reply s message >>= ·) (funext fun r => ?_)
      cases ended : endsPhase r.outcome with
      | true =>
          have idle : (Stashed.reply u r).state = m.stash.start := idle_of_endsPhase ended
          simp [idle]
      | false => simp [running_of_lasts ended, ih]

/-- Once its first message is answered, the inner machine could as well have been busy
before. -/
theorem stash_run_pair {later : List Message}
    (answered : ∀ stop, ¬ (m.advance m.start (.result v)).Ends (.error stop)) :
    m.stash.run m.stash.start (.result (.array [u, v]) :: later) =
      m.stash.run (.running u m.start) (.result v :: later) := by
  rw [run, run, stash_reply_pair, stash_reply_running, bind_map_left, bind_map_left]
  refine Eventual.bind_congr_returns fun r replied => ?_
  obtain ⟨outcome, ends, rfl⟩ := Eventual.returns_map.1 replied
  cases outcome with
  | ok turn => rfl
  | error stop => exact absurd ends (answered stop)

/-- The outcomes of a run up to the first break, for a caller who gives up at a stop. -/
theorem stash_phase_pair (m : Machine σ) (u v : Data) (later : List Message) :
    Prod.map (List.map Reply.outcome) id <$>
        m.stash.phase endsPhaseOrStops m.stash.start (.result (.array [u, v]) :: later) =
      Prod.map (List.map fun r => r.outcome.map (Stashed.restore u)) id <$>
        m.phase endsPhaseOrStops m.start (.result v :: later) := by
  have outcomes : ∀ c : Eventual (List (Reply σ) × List Message),
      Prod.map (List.map Reply.outcome) id <$>
          Prod.map (List.map (Stashed.reply u)) id <$> c =
        Prod.map (List.map fun r => r.outcome.map (Stashed.restore u)) id <$> c := by
    intro c
    rw [Functor.map_map]
    refine congrArg (· <$> c) (funext fun p => Prod.ext ?_ rfl)
    exact List.map_map
  rw [← outcomes, ← stash_phase_running, phase, phase, stash_reply_pair, stash_reply_running,
    bind_map_left, bind_map_left, map_bind, map_bind]
  refine congrArg (m.reply m.start (.result v) >>= ·) (funext fun r => ?_)
  cases replied : r.outcome with
  | error stop =>
      simp [Stashed.opening, Stashed.reply, replied, Except.map, endsPhaseOrStops]
  | ok out => rw [Stashed.opening, replied]

/-! ## Runs with different values put aside -/

/-- Outcomes that are the same but for the value that is back at a break. -/
inductive Alike (u u' : Data) : Except Stop Message → Except Stop Message → Prop
  | same (outcome : Except Stop Message) : Alike u u' outcome outcome
  | broken {out : Message} (breaks : out.breaks = true) :
      Alike u u' (.ok ⟨out.channel, .array [u, out.data]⟩)
        (.ok ⟨out.channel, .array [u', out.data]⟩)

theorem alike_reply (u u' : Data) (r : Reply σ) :
    Alike u u' (Stashed.reply u r).outcome (Stashed.reply u' r).outcome := by
  obtain ⟨next, stop | out⟩ := r
  · exact .same (.error stop)
  · show Alike u u' (.ok (Stashed.restore u out)) (.ok (Stashed.restore u' out))
    rw [Stashed.restore, Stashed.restore]
    by_cases breaks : out.breaks = true
    · rw [if_pos breaks, if_pos breaks]
      exact .broken breaks
    · rw [if_neg breaks, if_neg breaks]
      exact .same (.ok out)

theorem stash_run_alike {rs : List (Reply (Stashed σ))} {messages : List Message}
    (h : (m.stash.run (.running u s) messages).Returns rs) (u' : Data) :
    ∃ rs', (m.stash.run (.running u' s) messages).Returns rs' ∧
      List.Forall₂ (fun r r' => Alike u u' r.outcome r'.outcome) rs rs' := by
  rw [stash_run_running, Eventual.returns_bind] at h
  obtain ⟨⟨replies, left⟩, same, h⟩ := h
  obtain ⟨fresh, behind, h⟩ := Eventual.returns_bind.1 h
  obtain rfl := Eventual.returns_pure.1 h
  refine ⟨replies.map (Stashed.reply u') ++ fresh, ?_, ?_⟩
  · rw [stash_run_running, Eventual.returns_bind]
    exact ⟨_, same, Eventual.returns_bind.2 ⟨fresh, behind, Eventual.returns_pure.2 rfl⟩⟩
  · have front : List.Forall₂ (fun r r' => Alike u u' r.outcome r'.outcome)
        (replies.map (Stashed.reply u)) (replies.map (Stashed.reply u')) :=
      List.forall₂_map_left_iff.2 (List.forall₂_map_right_iff.2
        (List.forall₂_same.2 fun r _ => alike_reply u u' r))
    exact List.rel_append front (List.forall₂_same.2 fun r _ => .same r.outcome)

theorem alike_opening (u u' : Data) (r : Reply σ) :
    Alike u u' (Stashed.opening u r).outcome (Stashed.opening u' r).outcome := by
  obtain ⟨next, stop | out⟩ := r
  · exact .same (.error stop)
  · exact alike_reply u u' ⟨next, .ok out⟩

/-- A pair leaves the stash busy with its first half, or in a state that does not depend
on it. -/
theorem state_opening (u u' : Data) (r : Reply σ) :
    (∃ next, (Stashed.opening u r).state = .running u next ∧
        (Stashed.opening u' r).state = .running u' next) ∨
      (Stashed.opening u r).state = (Stashed.opening u' r).state := by
  obtain ⟨next, stop | out⟩ := r
  · exact Or.inr rfl
  · cases ended : endsPhase (.ok out) with
    | true => exact Or.inr ((idle_of_endsPhase ended).trans (idle_of_endsPhase ended).symm)
    | false => exact Or.inl ⟨next, running_of_lasts ended, running_of_lasts ended⟩

theorem stash_run_pair_alike {rs : List (Reply (Stashed σ))} {later : List Message}
    (h : (m.stash.run m.stash.start (.result (.array [u, v]) :: later)).Returns rs) (u' : Data) :
    ∃ rs', (m.stash.run m.stash.start (.result (.array [u', v]) :: later)).Returns rs' ∧
      List.Forall₂ (fun r r' => Alike u u' r.outcome r'.outcome) rs rs' := by
  rw [run, stash_reply_pair, bind_map_left, Eventual.returns_bind] at h
  obtain ⟨r, replied, h⟩ := h
  obtain ⟨behind, goes, h⟩ := Eventual.returns_bind.1 h
  obtain rfl := Eventual.returns_pure.1 h
  have rest : ∃ behind', (m.stash.run (Stashed.opening u' r).state later).Returns behind' ∧
      List.Forall₂ (fun r r' => Alike u u' r.outcome r'.outcome) behind behind' := by
    obtain ⟨next, busy, busy'⟩ | same := state_opening u u' r
    · rw [busy] at goes
      rw [busy']
      exact stash_run_alike goes u'
    · rw [same] at goes
      exact ⟨behind, goes, List.forall₂_same.2 fun r _ => .same r.outcome⟩
  obtain ⟨behind', goes', alike⟩ := rest
  refine ⟨Stashed.opening u' r :: behind', ?_, .cons (alike_opening u u' r) alike⟩
  rw [run, stash_reply_pair, bind_map_left, Eventual.returns_bind]
  exact ⟨r, replied, Eventual.returns_bind.2 ⟨behind', goes', Eventual.returns_pure.2 rfl⟩⟩

/-- The inner machine does not see what is put aside, and no run loses it.  From a pair on,
the stash has the outcomes of its inner machine up to the first break, and the value put
aside comes back with the data of that break.  So it is, too, for a caller who goes on
behind stops, once the inner machine has answered its first message; and behind the break
the stash is as at its start.  With another value put aside there are the same outcomes,
but for this value in the data of the break. -/
theorem stash_is_blind (m : Machine σ) (u v : Data) (later : List Message) :
    Prod.map (List.map Reply.outcome) id <$>
        m.stash.phase endsPhaseOrStops m.stash.start (.result (.array [u, v]) :: later) =
      Prod.map (List.map fun r => r.outcome.map (Stashed.restore u)) id <$>
        m.phase endsPhaseOrStops m.start (.result v :: later) ∧
    ((∀ stop, ¬ (m.advance m.start (.result v)).Ends (.error stop)) →
      m.stash.run m.stash.start (.result (.array [u, v]) :: later) = (do
        let (replies, left) ← m.phase endsPhase m.start (.result v :: later)
        let fresh ← m.stash.run m.stash.start left
        pure (replies.map (Stashed.reply u) ++ fresh))) ∧
    ∀ u' rs, (m.stash.run m.stash.start (.result (.array [u, v]) :: later)).Returns rs →
      ∃ rs', (m.stash.run m.stash.start (.result (.array [u', v]) :: later)).Returns rs' ∧
        List.Forall₂ (fun r r' => Alike u u' r.outcome r'.outcome) rs rs' := by
  refine ⟨stash_phase_pair m u v later, fun answered => ?_, fun u' rs returns => ?_⟩
  · rw [stash_run_pair answered, stash_run_running]
  · exact stash_run_pair_alike returns u'

/-- The inner machine asks a question between the pair and the break, and the next pair
finds the stash idle. -/
theorem stashed_value_survives_suspension :
    let asking := (suspend ⟨["ask"]⟩).sequence finish
    let later : List Message :=
      [⟨⟨["ask"]⟩, .string "a"⟩, .result (.string "a"), .result (.array [.null, .string "b"])]
    let run (u : Data) :=
      asking.stash.run asking.stash.start (.result (.array [u, .string "q"]) :: later)
    let outcomes : List (Except Stop Message) :=
      [.ok (.continueOn ⟨["ask"]⟩ (.string "q")), .ok (.continueOn .result (.string "a")),
        .ok (.breakResult (.array [.string "ctx", .string "a"])),
        .ok (.continueOn ⟨["ask"]⟩ (.string "b"))]
    (∀ stop, ¬ (asking.advance asking.start (.result (.string "q"))).Ends (.error stop)) ∧
      ∃ rs rs', (run (.string "ctx")).Returns rs ∧ rs.map Reply.outcome = outcomes ∧
        (run .null).Returns rs' ∧
          List.Forall₂ (fun r r' => Alike (.string "ctx") .null r.outcome r'.outcome) rs rs' := by
  intro asking later run outcomes
  obtain ⟨_, follows, alike⟩ := stash_is_blind asking (.string "ctx") (.string "q") later
  have answered : ∀ stop,
      ¬ (asking.advance asking.start (.result (.string "q"))).Ends (.error stop) := by
    intro stop ends
    cases Turn.Ends.unique ends ⟨0, rfl⟩
  obtain ⟨rs, returns, found⟩ :
      ∃ rs, (run (.string "ctx")).Returns rs ∧ rs.map Reply.outcome = outcomes := by
    rw [show run (.string "ctx") = _ from follows answered]
    exact ⟨_, ⟨0, rfl⟩, rfl⟩
  obtain ⟨rs', returns', same⟩ := alike .null rs returns
  exact ⟨answered, rs, rs', returns, found, returns', same⟩

end Machine

end Switchboard
