import Switchboard.Proofs.Machine.Storage

/-!
# Seeding

A pair on `result` seeds the halves of a bound product: the left half is set, and then
the right one (`Machine.bound_seed_ends_iff`).  There is no step that takes the first of
the two back.  So an error of the left half leaves everything as it was, but an error of
the right half finds the left half already set, and leaves it so
(`Blueprint.seeding_stops_halfway`).
-/

namespace Switchboard

/-! ## Over a larger type of states -/

def Bound.map {σ τ : Type} (f : σ → τ) (b : Bound σ) : Bound τ :=
  ⟨b.router, f b.inner⟩

namespace Machine

variable {σ τ : Type}

namespace Simulates

variable {n : Machine τ} {m : Machine σ} {f : σ → τ}

/-- Bound to a router, corresponding machines have corresponding exchanges. -/
theorem resolve (h : Simulates n m f) (router : Router) (s : σ) (message : Message) :
    Machine.resolve n router (f s) message =
      (fun turn => (Bound.map f turn.1, turn.2)) <$> Machine.resolve m router s message := by
  induction rank : router.rank using Nat.strongRecOn generalizing router s message with
  | _ bound ih =>
      cases step : router.step message with
      | error fault =>
          rw [resolve_of_refusal step, resolve_of_refusal step]
          rfl
      | ok moved =>
          obtain ⟨next, said⟩ := moved
          cases asks : Router.request? said with
          | none =>
              rw [resolve_of_answer step asks, resolve_of_answer step asks, map_pure]
              rfl
          | some request =>
              have below : next.rank < bound := rank ▸ Router.rank_lt_of_request step asks
              rw [resolve_of_request step asks, resolve_of_request step asks, h.advance,
                bind_map_left, map_bind]
              exact congrArg (m.advance s request >>= ·)
                (funext fun turn => ih next.rank below next turn.1 _ rfl)

theorem bound (h : Simulates n m f) : Simulates n.bound m.bound (Bound.map f) where
  start := congrArg (Bound.mk Router.start) h.start
  advance b message := h.resolve b.router b.inner message

end Simulates

/-! ## A pair for the two halves -/

open Router (setTo)

variable {l : Machine σ} {r : Machine τ} {s : Halves σ τ}

/-- Of the replies to a `set` two are understood, and any other one is a fault. -/
theorem ends_if_understood {α : Type} {channel : Channel} {refused done : Turn α} {fault : Fault}
    {a : α} :
    (if channel.is Channel.errName then refused
      else if channel.is Channel.resultName then done else Turn.fault fault).Ends (.ok a) ↔
      channel = .err ∧ refused.Ends (.ok a) ∨ channel = .result ∧ done.Ends (.ok a) := by
  have distinct : Channel.err ≠ Channel.result := by decide
  by_cases failed : channel = .err
  · rw [if_pos (Channel.is_iff.2 failed)]
    simp [failed, distinct]
  · have passed : ¬channel.is Channel.errName = true := fun h => failed (Channel.is_iff.1 h)
    rw [if_neg passed]
    by_cases answered : channel = .result
    · rw [if_pos (Channel.is_iff.2 answered)]
      simp [answered, distinct.symm]
    · have odd : ¬channel.is Channel.resultName = true :=
        fun h => answered (Channel.is_iff.1 h)
      rw [if_neg odd, Turn.ends_fault]
      simp [failed, answered]

/-- The left half is set.  If it refuses, that is the answer; otherwise the right half is
set too, and both keep what they have come to, whatever the right half has answered. -/
theorem bound_seed_ends_iff {a b : Data} {next : Bound (Halves σ τ)} {out : Message} :
    ((bound (l.product r)).advance ⟨.start, s⟩ (.result (.array [a, b]))).Ends
        (.ok (next, out)) ↔
      ∃ left first, (l.advance s.left (setTo a)).Ends (.ok (left, first)) ∧
        (first.channel = .err ∧ next = ⟨.start, ⟨left, s.right⟩⟩ ∧ out = first ∨
          first.channel = .result ∧
            ∃ right second, (r.advance s.right (setTo b)).Ends (.ok (right, second)) ∧
              (second.channel = .err ∧ next = ⟨.start, ⟨left, right⟩⟩ ∧ out = second ∨
                second.channel = .result ∧ next = ⟨.start, ⟨left, right⟩⟩ ∧
                  out = .result .null)) := by
  rw [bound_advance_seed, Turn.ends_bind_ok, Prod.exists]
  refine exists_congr fun left => exists_congr fun first => and_congr_right fun _ => ?_
  rw [resolve_seededLeft, ends_if_understood, Turn.ends_pure, Turn.ends_bind_ok, Prod.exists]
  simp only [resolve_seededRight, ends_if_understood, Turn.ends_pure, Except.ok.injEq,
    Prod.mk.injEq]

end Machine

/-! ## Storage as facets -/

namespace Blueprint

open Router (setTo)

variable {l r : Blueprint}

/-- The state of a bound product, among all states. -/
def bothHalves (b : Bound (Halves State State)) : State :=
  .bound (b.map .product)

theorem bothHalves_eq_iff {left left' right : State} :
    bothHalves ⟨.start, ⟨left', right⟩⟩ = bothHalves ⟨.start, ⟨left, right⟩⟩ ↔ left' = left := by
  constructor
  · intro same
    cases same
    rfl
  · rintro rfl
    rfl

theorem bound_product_simulates (l r : Blueprint) :
    Machine.Simulates (bound (.product l r)).build (Machine.bound (l.build.product r.build))
      bothHalves := by
  have bound : ∀ s, State.bound? (.bound s) = some s := fun _ => rfl
  have product : ∀ s, State.product? (.product s) = some s := fun _ => rfl
  exact (Machine.within_simulates bound).trans (Machine.within_simulates product).bound

/-- One slot is not set where there would have to be six. -/
theorem slot_refused :
    ∃ refusal : Message, refusal.channel = .err ∧
      ((slots 1).build.advance (.slots ⟨[.null], .ready⟩)
        (setTo (.array [.natural 5, .string "x"]))).Ends
        (.ok (.slots ⟨[.null], .ready⟩, refusal)) :=
  ⟨_, rfl, 0, rfl⟩

/-- Where a pair is answered on `err`, the router and the right half are as they were.
So is the left half if the error was its own; otherwise it keeps what it was set to. -/
theorem seeding_stops_halfway (first : l.Storage) (second : r.Storage) {s next : State}
    {a b : Data} {out : Message}
    (reached : (bound (.product l r)).build.Reaches (bound (.product l r)).build.start s)
    (ends : ((bound (.product l r)).build.advance s (.result (.array [a, b]))).Ends
      (.ok (next, out)))
    (failed : out.channel = .err) :
    ∃ left right left' answer,
      s = bothHalves ⟨.start, ⟨left, right⟩⟩ ∧ next = bothHalves ⟨.start, ⟨left', right⟩⟩ ∧
      (next = s ↔ left' = left) ∧
      (l.build.advance left (setTo a)).Ends (.ok (left', answer)) ∧
      (answer = out ∧ left' = left ∨
        answer.channel = .result ∧ (r.build.advance right (setTo b)).Ends (.ok (right, out))) := by
  have last : out.channel.segments.getLast? = some Channel.errName := by
    rw [failed]
    rfl
  obtain ⟨inner, rfl, within⟩ := reached_of_bound reached
  obtain ⟨⟨left, right⟩, rfl, ofLeft, ofRight⟩ := owns_of_reaches within
  let s : Bound (Halves State State) := ⟨.start, ⟨left, right⟩⟩
  obtain ⟨later, rfl, turn⟩ := ((bound_product_simulates l r).ends_iff (s := s)).1 ends
  obtain ⟨left', answer, set, answered⟩ := Machine.bound_seed_ends_iff.1 turn
  rcases answered with ⟨_, rfl, rfl⟩ | ⟨done, right', reply, set', answered⟩
  · have same : left' = left := (first.confined ofLeft set).kept last
    exact ⟨left, right, left', out, rfl, rfl, bothHalves_eq_iff, set, Or.inl ⟨rfl, same⟩⟩
  · rcases answered with ⟨_, rfl, rfl⟩ | ⟨_, rfl, rfl⟩
    · have same : right' = right := (second.confined ofRight set').kept last
      subst same
      exact ⟨left, right', left', answer, rfl, rfl, bothHalves_eq_iff, set, Or.inr ⟨done, set'⟩⟩
    · exact absurd failed (by decide)

/-- There is no slot 5 to seed, and yet the cell has been seeded. -/
theorem seeding_err_changes_state :
    let b : Blueprint := .bound (.product .cell (.slots 1))
    let pair : Data := .array [.natural 1, .array [.natural 5, .string "x"]]
    ∃ s next out, b.build.Reaches b.build.start s ∧
      (b.build.advance s (.result pair)).Ends (.ok (next, out)) ∧ out.channel = .err ∧
      next ≠ s := by
  intro b pair
  let holding (value : Data) : State :=
    bothHalves ⟨.start, ⟨.cell ⟨value⟩, .slots ⟨[.null], .ready⟩⟩⟩
  obtain ⟨refusal, failed, refused⟩ := slot_refused
  have turn : (b.build.advance (holding .null) (.result pair)).Ends
      (.ok (holding (.natural 1), refusal)) := by
    refine (bound_product_simulates _ _).ends_iff.2 ⟨_, rfl, Machine.bound_seed_ends_iff.2 ?_⟩
    refine ⟨.cell ⟨.natural 1⟩, .result .null, ⟨0, rfl⟩, Or.inr ⟨rfl, ?_⟩⟩
    exact ⟨_, refusal, refused, Or.inl ⟨failed, rfl, rfl⟩⟩
  refine ⟨holding .null, holding (.natural 1), refusal, .refl _ _, turn, failed, ?_⟩
  intro same
  have same := bothHalves_eq_iff.1 same
  cases same

/-- The slots are seeded first here, so that the cell is not reached. -/
theorem seeding_stops_at_slots :
    let b : Blueprint := .bound (.product (.slots 1) .cell)
    let pair : Data := .array [.array [.natural 5, .string "x"], .natural 1]
    ∃ s next out left right left', b.build.Reaches b.build.start s ∧
      (b.build.advance s (.result pair)).Ends (.ok (next, out)) ∧ out.channel = .err ∧
      s = bothHalves ⟨.start, ⟨left, right⟩⟩ ∧ next = bothHalves ⟨.start, ⟨left', right⟩⟩ ∧
      (next = s ↔ left' = left) := by
  intro b pair
  let s : State := bothHalves ⟨.start, ⟨.slots ⟨[.null], .ready⟩, .cell ⟨.null⟩⟩⟩
  obtain ⟨refusal, failed, refused⟩ := slot_refused
  have turn : (b.build.advance s (.result pair)).Ends (.ok (s, refusal)) := by
    refine (bound_product_simulates _ _).ends_iff.2 ⟨_, rfl, Machine.bound_seed_ends_iff.2 ?_⟩
    exact ⟨_, refusal, refused, Or.inl ⟨failed, rfl, rfl⟩⟩
  have reached : b.build.Reaches b.build.start s := .refl _ _
  obtain ⟨left, right, left', _, before, after, kept, _⟩ :=
    seeding_stops_halfway (.slots 1) .cell reached turn failed
  exact ⟨s, s, refusal, left, right, left', reached, turn, failed, before, after, kept⟩

end Blueprint

end Switchboard
