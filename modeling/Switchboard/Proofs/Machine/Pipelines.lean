import Switchboard.Proofs.Machine.Stashing
import Switchboard.Proofs.Session.Trampolines

/-!
# Laws of pipelines

A trampoline around another one makes no difference if the inner one feeds back nothing
but what the outer one would, and passes everything else on (`Route.Absorbs`,
`absorbs_sameTurns`).  So a pipeline is absorbed by a pipeline around it, and by a loop.

A pipeline inside a stash does what it does around it (`pipeline_stash_sameTurns`).  A value
is put aside before the first inner turn; what the pipeline feeds back reaches the inner
machine that is running, and is not taken for another pair.
-/

namespace Switchboard

namespace Machine

variable {σ : Type} {m : Machine σ} {s : σ} {message : Message}
  {outcome : Except Stop (σ × Message)}

/-- The machines start alike, and a turn of one of them ends as a turn of the other one
does, if it ends at all. -/
structure SameTurns (n m : Machine σ) : Prop where
  start : n.start = m.start
  ends_iff : ∀ s message outcome,
    (n.advance s message).Ends outcome ↔ (m.advance s message).Ends outcome

/-! ## Trampolines inside trampolines -/

/-- What the inner trampoline feeds back the outer one would feed back too, and the inner
one passes the rest on as it is. -/
structure Route.Absorbs (outer inner : Message → Route) : Prop where
  again : ∀ out back, inner out = .again back → outer out = .again back
  finish : ∀ out answer, inner out = .finish answer → answer = out

/-- How a trampoline goes on after an inner turn. -/
def GoesOn (route : Message → Route) (m : Machine σ) :
    Except Stop (σ × Message) → Except Stop (σ × Message) → Prop
  | .error stop, outcome => outcome = .error stop
  | .ok (next, out), outcome =>
      match route out with
      | .finish answer => outcome = .ok (next, answer)
      | .again back => ((trampoline route none m).advance next back).Ends outcome

theorem trampoline_ends_iff_goesOn {route : Message → Route} :
    ((trampoline route none m).advance s message).Ends outcome ↔
      ∃ first, (m.advance s message).Ends first ∧ GoesOn route m first outcome := by
  constructor
  · intro ends
    obtain ⟨turns, bounces⟩ := trampoline_ends_iff.1 ends
    cases bounces with
    | stop first => exact ⟨_, first, rfl⟩
    | finish first leaves =>
        refine ⟨_, first, ?_⟩
        simp only [GoesOn, leaves]
    | again first returns later =>
        refine ⟨_, first, ?_⟩
        simp only [GoesOn, returns]
        exact trampoline_ends_iff.2 ⟨_, later⟩
  · rintro ⟨stop | ⟨next, out⟩, first, goes⟩
    · obtain rfl := goes
      exact trampoline_ends_iff.2 ⟨1, .stop first⟩
    · cases routed : route out with
      | finish answer =>
          simp only [GoesOn, routed] at goes
          obtain rfl := goes
          exact trampoline_ends_iff.2 ⟨1, .finish first routed⟩
      | again back =>
          simp only [GoesOn, routed] at goes
          obtain ⟨turns, later⟩ := trampoline_ends_iff.1 goes
          exact trampoline_ends_iff.2 ⟨turns + 1, .again first routed later⟩

section Absorbs

variable {outer inner : Message → Route}

/-- The bounces of the inner trampoline are bounces of the outer one, which then goes on
with what is passed on to it. -/
theorem Bounces.absorbed (absorbs : Route.Absorbs outer inner) {turns : Nat}
    {first : Except Stop (σ × Message)} (h : Bounces inner m turns s message first)
    (goes : GoesOn outer m first outcome) :
    ((trampoline outer none m).advance s message).Ends outcome := by
  induction h with
  | stop ends => exact trampoline_ends_iff_goesOn.2 ⟨_, ends, goes⟩
  | @finish s next message out answer ends leaves =>
      obtain rfl := absorbs.finish out answer leaves
      exact trampoline_ends_iff_goesOn.2 ⟨_, ends, goes⟩
  | @again turns s next message out back first ends returns _ ih =>
      refine trampoline_ends_iff_goesOn.2 ⟨_, ends, ?_⟩
      simp only [GoesOn, absorbs.again out back returns]
      exact ih goes

/-- The bounces of the outer trampoline start with those of a turn of the inner one: either the
inner trampoline feeds a message back itself, or its turn is over there. -/
theorem Bounces.split (absorbs : Route.Absorbs outer inner) {turns : Nat}
    (h : Bounces outer m turns s message outcome) :
    ∃ first, ((trampoline inner none m).advance s message).Ends first ∧
      GoesOn outer (trampoline inner none m) first outcome := by
  induction h with
  | stop ends => exact ⟨_, trampoline_ends_iff.2 ⟨1, .stop ends⟩, rfl⟩
  | @finish s next message out answer ends leaves =>
      cases routed : inner out with
      | again back => cases leaves.symm.trans (absorbs.again out back routed)
      | finish passed =>
          obtain rfl := absorbs.finish out passed routed
          refine ⟨_, trampoline_ends_iff.2 ⟨1, .finish ends routed⟩, ?_⟩
          simp only [GoesOn, leaves]
  | @again turns s next message out back outcome ends returns _ ih =>
      obtain ⟨first, ends', goes⟩ := ih
      cases routed : inner out with
      | again back' =>
          obtain rfl : back = back' :=
            Route.again.inj (returns.symm.trans (absorbs.again out back' routed))
          obtain ⟨turns', later⟩ := trampoline_ends_iff.1 ends'
          exact ⟨first, trampoline_ends_iff.2 ⟨turns' + 1, .again ends routed later⟩, goes⟩
      | finish passed =>
          obtain rfl := absorbs.finish out passed routed
          refine ⟨_, trampoline_ends_iff.2 ⟨1, .finish ends routed⟩, ?_⟩
          simp only [GoesOn, returns]
          exact trampoline_ends_iff_goesOn.2 ⟨first, ends', goes⟩

/-- What the outer trampoline makes of turns of the inner one it makes of their inner turns. -/
theorem Bounces.merged (absorbs : Route.Absorbs outer inner) {turns : Nat}
    (h : Bounces outer (trampoline inner none m) turns s message outcome) :
    ((trampoline outer none m).advance s message).Ends outcome := by
  induction h with
  | stop ends =>
      obtain ⟨turns, inside⟩ := trampoline_ends_iff.1 ends
      exact inside.absorbed absorbs rfl
  | finish ends leaves =>
      obtain ⟨turns, inside⟩ := trampoline_ends_iff.1 ends
      refine inside.absorbed absorbs ?_
      simp only [GoesOn, leaves]
  | again ends returns _ ih =>
      obtain ⟨turns, inside⟩ := trampoline_ends_iff.1 ends
      refine inside.absorbed absorbs ?_
      simp only [GoesOn, returns]
      exact ih

theorem absorbs_sameTurns (absorbs : Route.Absorbs outer inner) (m : Machine σ) :
    SameTurns (trampoline outer none (trampoline inner none m)) (trampoline outer none m) where
  start := rfl
  ends_iff s message outcome := by
    constructor
    · intro ends
      obtain ⟨turns, bounces⟩ := trampoline_ends_iff.1 ends
      exact bounces.merged absorbs
    · intro ends
      obtain ⟨turns, bounces⟩ := trampoline_ends_iff.1 ends
      exact trampoline_ends_iff_goesOn.2 (bounces.split absorbs)

end Absorbs

open Session (isForeign pipeline_again_iff pipeline_finish_iff looped_again_iff
  control_of_not_foreign)

theorem pipeline_absorbs : Route.Absorbs Route.pipeline Route.pipeline where
  again _ _ returns := returns
  finish _ _ leaves := (pipeline_finish_iff.1 leaves).2

theorem looped_absorbs : Route.Absorbs Route.looped Route.pipeline where
  again out back returns := by
    obtain ⟨own, rfl⟩ := pipeline_again_iff.1 returns
    exact looped_again_iff.2 ⟨.result, control_of_not_foreign own, rfl⟩
  finish _ _ leaves := (pipeline_finish_iff.1 leaves).2

/-! ## Pipelines and stashes -/

/-- What a stash makes of a turn of its inner machine. -/
def keeping (u : Data) (turn : σ × Message) : Stashed σ × Message :=
  (if turn.2.breaks then .idle else .running u turn.1, Stashed.restore u turn.2)

theorem stash_advance_running (m : Machine σ) (u : Data) (s : σ) (message : Message) :
    m.stash.advance (.running u s) message = keeping u <$> m.advance s message :=
  m.relay_eq u s message

/-- An idle stash begins as if it had been busy with the first half of a pair; anything
else it refuses.  Either way its inner machine has no say in it. -/
theorem stash_advance_idle (message : Message) :
    (∃ u v, ∀ m : Machine σ,
        m.stash.advance .idle message = m.stash.advance (.running u m.start) (.result v)) ∨
      ∃ fault, ∀ m : Machine σ, m.stash.advance .idle message = Turn.fault fault := by
  by_cases asked : message.channel.is Channel.resultName = true
  · cases paired : message.data.pair? with
    | some pair =>
        obtain ⟨u, v⟩ := pair
        refine Or.inl ⟨u, v, fun m => ?_⟩
        simp only [stash, if_pos asked, paired]
    | none =>
        refine Or.inr ⟨.malformedData message.channel "stash expects [stashed, payload]",
          fun m => ?_⟩
        simp only [stash, if_pos asked, paired]
  · refine Or.inr ⟨.invalidChannel "idle" message.channel, fun m => ?_⟩
    simp only [stash, if_neg asked]

theorem isForeign_restore (u : Data) (out : Message) :
    isForeign (Stashed.restore u out) = isForeign out := by
  rw [Stashed.restore]
  split
  · rfl
  · rfl

/-- What a pipeline feeds back is no break, so that a stash leaves it alone. -/
theorem keeping_of_not_foreign {out : Message} (own : isForeign out = false) (u : Data)
    (next : σ) : keeping u (next, out) = (.running u next, out) := by
  have lasts : out.breaks = false := by rw [Message.breaks, control_of_not_foreign own]
  rw [keeping, Stashed.restore, lasts]
  rfl

variable {u : Data}

theorem bounces_keeping {turns : Nat} (h : Bounces Route.pipeline m turns s message outcome) :
    Bounces Route.pipeline m.stash turns (.running u s) message (outcome.map (keeping u)) := by
  induction h with
  | stop ends =>
      refine .stop ?_
      rw [stash_advance_running]
      exact ends.map_stop _
  | @finish s next message out answer ends leaves =>
      obtain ⟨foreign, rfl⟩ := pipeline_finish_iff.1 leaves
      have ends' : (m.stash.advance (.running u s) message).Ends
          (.ok ((keeping u (next, answer)).1, Stashed.restore u answer)) := by
        rw [stash_advance_running]
        exact Turn.ends_map_ok.2 ⟨_, ends, rfl⟩
      exact .finish ends'
        (pipeline_finish_iff.2 ⟨(isForeign_restore u answer).trans foreign, rfl⟩)
  | @again turns s next message out back outcome ends returns _ ih =>
      obtain ⟨own, _⟩ := pipeline_again_iff.1 returns
      refine .again ?_ returns ih
      rw [stash_advance_running]
      exact Turn.ends_map_ok.2 ⟨_, ends, keeping_of_not_foreign own u next⟩

theorem bounces_of_keeping {turns : Nat} {kept : Except Stop (Stashed σ × Message)}
    (h : Bounces Route.pipeline m.stash turns (.running u s) message kept) :
    ∃ outcome, Bounces Route.pipeline m turns s message outcome ∧
      outcome.map (keeping u) = kept := by
  generalize busy : Stashed.running u s = state at h
  induction h generalizing s with
  | stop ends =>
      subst busy
      rw [stash_advance_running] at ends
      obtain ⟨stop | turn, first, same⟩ := Turn.ends_map.1 ends
      · exact ⟨_, .stop first, same⟩
      · cases same
  | @finish _ next message out answer ends leaves =>
      subst busy
      rw [stash_advance_running] at ends
      obtain ⟨⟨next', out'⟩, first, same⟩ := Turn.ends_map_ok.1 ends
      cases same
      obtain ⟨foreign, rfl⟩ := pipeline_finish_iff.1 leaves
      have passes := pipeline_finish_iff.2 ⟨(isForeign_restore u out').symm.trans foreign, rfl⟩
      exact ⟨_, .finish first passes, rfl⟩
  | @again turns _ next message out back kept ends returns _ ih =>
      subst busy
      rw [stash_advance_running] at ends
      obtain ⟨⟨next', out'⟩, first, same⟩ := Turn.ends_map_ok.1 ends
      obtain ⟨rfl, rfl⟩ := Prod.mk.inj same
      obtain ⟨own, rfl⟩ := pipeline_again_iff.1 returns
      have own' : isForeign out' = false := (isForeign_restore u out').symm.trans own
      obtain ⟨running, untouched⟩ := Prod.mk.inj (keeping_of_not_foreign own' u next')
      obtain ⟨outcome, later, same⟩ := ih running.symm
      rw [untouched] at later
      exact ⟨outcome, .again first (pipeline_again_iff.2 ⟨own', rfl⟩) later, same⟩

theorem pipeline_stash_running {kept : Except Stop (Stashed σ × Message)} :
    ((m.stash.pipeline none).advance (.running u s) message).Ends kept ↔
      ((m.pipeline none).stash.advance (.running u s) message).Ends kept := by
  rw [stash_advance_running, Turn.ends_map]
  refine trampoline_ends_iff.trans ⟨?_, ?_⟩
  · rintro ⟨turns, bounces⟩
    obtain ⟨outcome, inside, same⟩ := bounces_of_keeping bounces
    exact ⟨outcome, trampoline_ends_iff.2 ⟨turns, inside⟩, same⟩
  · rintro ⟨outcome, ends, rfl⟩
    obtain ⟨turns, inside⟩ := trampoline_ends_iff.1 ends
    exact ⟨turns, bounces_keeping inside⟩

theorem pipeline_stash_sameTurns (m : Machine σ) :
    SameTurns (m.stash.pipeline none) (m.pipeline none).stash where
  start := rfl
  ends_iff state message kept := by
    cases state with
    | running u s => exact pipeline_stash_running
    | idle =>
        rcases stash_advance_idle (σ := σ) message with ⟨u, v, begins⟩ | ⟨fault, refuses⟩
        · rw [begins, show (m.pipeline none).start = m.start from rfl, ← pipeline_stash_running]
          refine trampoline_ends_iff_goesOn.trans (Iff.trans ?_ trampoline_ends_iff_goesOn.symm)
          rw [begins]
        · rw [refuses, Turn.ends_fault]
          refine trampoline_ends_iff_goesOn.trans ?_
          simp only [refuses, Turn.ends_fault, exists_eq_left, GoesOn]

/-- A pipeline around a pipeline does nothing more, a loop does all that a pipeline inside
it does, and a pipeline may change places with a stash. -/
theorem pipeline_laws (m : Machine σ) :
    SameTurns ((m.pipeline none).pipeline none) (m.pipeline none) ∧
      SameTurns ((m.pipeline none).looped none) (m.looped none) ∧
      SameTurns (m.stash.pipeline none) (m.pipeline none).stash :=
  ⟨absorbs_sameTurns pipeline_absorbs m, absorbs_sameTurns looped_absorbs m,
    pipeline_stash_sameTurns m⟩

end Machine

end Switchboard
