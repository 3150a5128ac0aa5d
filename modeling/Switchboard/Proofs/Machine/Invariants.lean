import Switchboard.Machine.Renamed
import Switchboard.Machine.Sequence
import Switchboard.Machine.Stash
import Switchboard.Proofs.Machine.Bounces
import Switchboard.Proofs.Machine.Faceted

/-!
# Invariants of machines

`m.Keeps P` says that a machine starts in states with a property and stays in them;
every state that is reached then has the property (`Keeps.reaches`).

A property of the parts of a compound machine is kept by the whole.  For trampolines
and bound machines, whose turns take many turns of the inner machine or none, this
is because their turns are runs of it (`trampoline_reaches`, `resolve_reaches`).
-/

namespace Switchboard

namespace Machine

variable {σ τ : Type} {m : Machine σ} {n : Machine τ} {P : σ → Prop} {Q : τ → Prop} {s t u : σ}

/-! ## Reached states -/

theorem Answers.append {inputs inputs' outs outs' : List Message} (h : m.Answers s inputs outs t)
    (h' : m.Answers t inputs' outs' u) : m.Answers s (inputs ++ inputs') (outs ++ outs') u := by
  induction h with
  | nil => exact h'
  | cons ends _ ih => exact .cons ends (ih h')

/-- The last of the inputs has led from some state to the last state. -/
theorem Answers.last {inputs outs : List Message} (h : m.Answers s inputs outs t) :
    inputs = [] ∧ t = s ∨
      ∃ front input before out, inputs = front ++ [input] ∧
        (m.advance before input).Ends (.ok (t, out)) := by
  induction h with
  | nil => exact Or.inl ⟨rfl, rfl⟩
  | @cons s next last input out inputs outs ends _ ih =>
      refine Or.inr ?_
      rcases ih with ⟨rfl, rfl⟩ | ⟨front, later, before, answer, rfl, turn⟩
      · exact ⟨[], input, s, out, rfl, ends⟩
      · exact ⟨input :: front, later, before, answer, rfl, turn⟩

/-- Some messages, all of them answered, lead from one state to the other. -/
def Reaches (m : Machine σ) (s t : σ) : Prop :=
  ∃ inputs outs, m.Answers s inputs outs t

namespace Reaches

theorem refl (m : Machine σ) (s : σ) : m.Reaches s s :=
  ⟨[], [], .nil⟩

theorem trans (h : m.Reaches s t) (h' : m.Reaches t u) : m.Reaches s u := by
  obtain ⟨inputs, outs, first⟩ := h
  obtain ⟨inputs', outs', later⟩ := h'
  exact ⟨inputs ++ inputs', outs ++ outs', first.append later⟩

theorem head {message out : Message} (ends : (m.advance s message).Ends (.ok (t, out)))
    (h : m.Reaches t u) : m.Reaches s u := by
  obtain ⟨inputs, outs, later⟩ := h
  exact ⟨message :: inputs, out :: outs, .cons ends later⟩

end Reaches

/-- The machine starts with the property, and no answer loses it. -/
structure Keeps (m : Machine σ) (P : σ → Prop) : Prop where
  start : P m.start
  advance : ∀ {s next : σ} {message out : Message}, P s →
    (m.advance s message).Ends (.ok (next, out)) → P next

theorem Keeps.reaches (h : m.Keeps P) (now : P s) (reached : m.Reaches s t) : P t := by
  obtain ⟨inputs, outs, answers⟩ := reached
  induction answers with
  | nil => exact now
  | cons ends _ ih => exact ih (h.advance now ends)

/-! ## Turns that are runs of an inner machine -/

/-- A round that does not stop is a turn of the inner machine, whatever is made of its
answer. -/
theorem bounce_reaches {route : Message → Route} {limit : Option Nat} {b : Bounce σ}
    {outcome : Bounce σ ⊕ (σ × Message)} (ends : (bounce route limit m b).Ends (.ok outcome)) :
    ∃ next out, (m.advance b.state b.message).Ends (.ok (next, out)) ∧
      outcome.elim Bounce.state Prod.fst = next := by
  rw [bounce] at ends
  cases spent : overLimit limit b.taken with
  | some fault =>
      rw [spent] at ends
      cases Turn.ends_fault.1 ends
  | none =>
      simp only [spent] at ends
      obtain ⟨⟨next, out⟩, turn, rest⟩ := Turn.ends_bind_ok.1 ends
      refine ⟨next, out, turn, ?_⟩
      dsimp only at rest
      split at rest
      · cases Turn.ends_pure.1 rest
        rfl
      · cases Turn.ends_pure.1 rest
        rfl

theorem reaches_of_leads {route : Message → Route} {limit : Option Nat} {b : Bounce σ}
    {outcome : Except Stop (σ × Message)} {out : Message}
    (h : Eventual.Leads (Turn.iterate.round (bounce route limit m)) b outcome)
    (last : outcome = .ok (t, out)) : m.Reaches b.state t := by
  induction h with
  | finish answers =>
      subst last
      obtain ⟨next, answer, turn, same⟩ := bounce_reaches (Turn.returns_round_iff.1 answers)
      obtain rfl : t = next := same
      exact .head turn (.refl m _)
  | @again b later _ goes _ ih =>
      obtain ⟨next, answer, turn, same⟩ := bounce_reaches (Turn.returns_round_iff.1 goes)
      obtain rfl : later.state = next := same
      exact .head turn (ih last)

/-- A turn of a trampoline is a run of the inner machine, of one turn for each round. -/
theorem trampoline_reaches {route : Message → Route} {limit : Option Nat} {message out : Message}
    (ends : ((trampoline route limit m).advance s message).Ends (.ok (t, out))) :
    m.Reaches s t :=
  reaches_of_leads (Turn.ends_iterate_iff.1 ends) rfl

end Machine

namespace Router

/-- All that a router can do: it passes a request to a facet on, seeds one half and then
the other, or answers and starts afresh. -/
inductive Moves : Router → Message → Router → Message → Prop
  | ask (f : Facet) (own : Message) :
      Moves .start (own.prefixed f.name) f.awaiting (inward f.half own)
  | seed (first second : Data) :
      Moves .start (.result (.array [first, second])) (.awaitingInit (some second))
        (inward Machine.leftName (setTo first))
  | proceed (message : Message) (second : Data) :
      Moves (.awaitingInit (some second)) message (.awaitingInit none)
        (inward Machine.rightName (setTo second))
  | answer {s : Router} {message out : Message} (plain : request? out = none) :
      Moves s message .start out

variable {s next : Router} {message out : Message}

theorem moves_of_begin (h : begin message = .ok (next, out)) : Moves .start message next out := by
  obtain ⟨⟨segments⟩, data⟩ := message
  rw [begin] at h
  split at h
  · rename_i result
    obtain rfl : segments = [Channel.resultName] :=
      congrArg Channel.segments (Channel.is_iff.1 result)
    split at h
    · rename_i first second pair
      obtain rfl := Data.pair?_eq_some_iff.1 pair
      cases h
      exact .seed first second
    · cases h
  · cases segments with
    | nil => cases h
    | cons facet rest =>
        simp only [Channel.uncons?] at h
        split at h
        · cases h
        · split at h
          · rename_i first
            subst first
            cases h
            exact .ask .first ⟨⟨rest⟩, data⟩
          · split at h
            · rename_i second
              subst second
              cases h
              exact .ask .second ⟨⟨rest⟩, data⟩
            · cases h

theorem moves_of_reply {half : String} (f : Facet)
    (h : s.reply half f.name message = .ok (next, out)) : Moves s message next out := by
  have outward : innerName ≠ f.name := by
    cases f with
    | first => decide
    | second => decide
  rw [reply] at h
  split at h
  · split at h
    · cases h
    · cases h
      exact .answer (request?_eq_none_of_head rfl outward)
  · cases h

theorem moves_of_seeded {pending : Option Data} (h : seeded pending message = .ok (next, out)) :
    Moves (.awaitingInit pending) message next out := by
  simp only [seeded] at h
  split at h
  · cases h
  · rename_i rest _
    split at h
    · rename_i failed
      obtain rfl := Channel.is_iff.1 failed
      cases h
      exact .answer (request?_eq_none_of_head rfl (by decide))
    · split at h
      · cases pending with
        | some second =>
            cases h
            exact .proceed message second
        | none =>
            cases h
            exact .answer (request?_eq_none_of_head rfl (by decide))
      · cases h

theorem moves_of_step (h : s.step message = .ok (next, out)) : Moves s message next out := by
  cases s with
  | start => exact moves_of_begin h
  | awaitingFirst => exact moves_of_reply .first h
  | awaitingSecond => exact moves_of_reply .second h
  | awaitingInit pending => exact moves_of_seeded h

/-- A router that answers is done with what it was asked. -/
theorem Moves.start_of_answer (h : Moves s message next out) (answer : request? out = none) :
    next = .start := by
  have asks : ∀ half own, request? (inward half own) ≠ none := by
    intro half own
    rw [request?_inward]
    exact Option.some_ne_none _
  cases h with
  | ask f own => exact (asks f.half own answer).elim
  | seed first second => exact (asks _ _ answer).elim
  | proceed _ second => exact (asks _ _ answer).elim
  | answer _ => rfl

end Router

namespace Machine

variable {σ τ : Type} {m : Machine σ} {n : Machine τ} {P : σ → Prop} {Q : τ → Prop} {s t : σ}

/-- A turn of a bound machine is a run of the inner machine, and leaves the router at
its start: every request lowers the rank of the router, and an answer ends the exchange. -/
theorem resolve_reaches {router : Router} {b : Bound σ} {message out : Message}
    (ends : (resolve m router s message).Ends (.ok (b, out))) :
    b.router = .start ∧ m.Reaches s b.inner := by
  induction rank : router.rank using Nat.strongRecOn generalizing router s message with
  | _ bound ih =>
      cases step : router.step message with
      | error fault =>
          rw [resolve_of_refusal step] at ends
          cases Turn.ends_fault.1 ends
      | ok moved =>
          obtain ⟨next, said⟩ := moved
          cases asks : Router.request? said with
          | none =>
              rw [resolve_of_answer step asks] at ends
              cases Turn.ends_pure.1 ends
              exact ⟨(Router.moves_of_step step).start_of_answer asks, .refl m s⟩
          | some request =>
              rw [resolve_of_request step asks] at ends
              obtain ⟨turn, answered, rest⟩ := Turn.ends_bind_ok.1 ends
              have below : next.rank < bound := rank ▸ Router.rank_lt_of_request step asks
              obtain ⟨start, later⟩ := ih next.rank below rest rfl
              exact ⟨start, .head answered later⟩

end Machine

/-! ## Properties of compound states -/

/-- The running machine's state has its machine's property. -/
def Phase.Holds {σ τ : Type} (P : σ → Prop) (Q : τ → Prop) : Phase σ τ → Prop
  | .first inner => P inner
  | .second inner => Q inner

/-- Both states have their machine's property. -/
def Halves.Holds {σ τ : Type} (P : σ → Prop) (Q : τ → Prop) (s : Halves σ τ) : Prop :=
  P s.left ∧ Q s.right

/-- The inner machine's state has the property, if there is one. -/
def Stashed.Holds {σ : Type} (P : σ → Prop) : Stashed σ → Prop
  | .idle => True
  | .running _ inner => P inner

/-- The state is one of a smaller type, and has the property there. -/
def Embedded {σ τ : Type} (embed : σ → τ) (P : σ → Prop) (s : τ) : Prop :=
  ∃ own, s = embed own ∧ P own

namespace Machine

variable {σ τ : Type} {m : Machine σ} {n : Machine τ} {P : σ → Prop} {Q : τ → Prop} {s t : σ}

/-- A machine over a larger type of states runs as it does over its own. -/
theorem within_simulates {embed : σ → τ} {project? : τ → Option σ}
    (own : ∀ s, project? (embed s) = some s) : Simulates (m.within embed project?) m embed where
  start := rfl
  advance s message := by
    simp only [within, own, map_eq_pure_bind]

/-- What corresponding machines answer in corresponding states is the same. -/
theorem Simulates.ends_iff {f : σ → τ} (h : Simulates n m f) {next : τ} {message out : Message} :
    (n.advance (f s) message).Ends (.ok (next, out)) ↔
      ∃ later, next = f later ∧ (m.advance s message).Ends (.ok (later, out)) := by
  rw [h.advance, Turn.ends_map_ok]
  constructor
  · rintro ⟨⟨later, answer⟩, turn, same⟩
    cases same
    exact ⟨later, rfl, turn⟩
  · rintro ⟨later, rfl, turn⟩
    exact ⟨_, turn, rfl⟩

namespace Keeps

theorem within (h : m.Keeps P) {embed : σ → τ} {project? : τ → Option σ}
    (own : ∀ s, project? (embed s) = some s) :
    (m.within embed project?).Keeps (Embedded embed P) where
  start := ⟨m.start, rfl, h.start⟩
  advance := by
    rintro _ next message out ⟨s, rfl, now⟩ ends
    obtain ⟨later, rfl, turn⟩ := (within_simulates own).ends_iff.1 ends
    exact ⟨later, rfl, h.advance now turn⟩

theorem renamed (h : m.Keeps P) (old new : Channel) : (m.renamed old new).Keeps P where
  start := h.start
  advance := by
    intro s next message out now ends
    obtain ⟨turn, first, rest⟩ := Turn.ends_bind_ok.1 ends
    cases Turn.ends_pure.1 rest
    exact h.advance now first

theorem sequence (h : m.Keeps P) (h' : n.Keeps Q) :
    (m.sequence n).Keeps (Phase.Holds P Q) where
  start := h.start
  advance := by
    intro s next message out now ends
    cases s with
    | first inner =>
        obtain ⟨turn, own, rest⟩ := Turn.ends_bind_ok.1 ends
        have later : P turn.1 := h.advance now own
        dsimp only at rest
        split at rest
        · cases Turn.ends_pure.1 rest
          exact h'.start
        · cases Turn.ends_pure.1 rest
          exact later
    | second inner =>
        obtain ⟨turn, own, rest⟩ := Turn.ends_bind_ok.1 ends
        cases Turn.ends_pure.1 rest
        exact h'.advance now own

theorem product (h : m.Keeps P) (h' : n.Keeps Q) :
    (m.product n).Keeps (Halves.Holds P Q) where
  start := ⟨h.start, h'.start⟩
  advance := by
    rintro s next message out ⟨left, right⟩ ends
    rcases product_answers ends with ⟨own, answer, _, _, turn, kept⟩ |
      ⟨own, answer, _, _, turn, kept⟩
    · exact ⟨h.advance left turn, kept ▸ right⟩
    · exact ⟨kept ▸ left, h'.advance right turn⟩

theorem trampoline (h : m.Keeps P) (route : Message → Route) (limit : Option Nat) :
    (m.trampoline route limit).Keeps P where
  start := h.start
  advance now ends := h.reaches now (trampoline_reaches ends)

theorem relay (h : m.Keeps P) {stashed : Data} {message out : Message} {next : Stashed σ}
    (now : P s) (ends : (m.relay stashed s message).Ends (.ok (next, out))) : next.Holds P := by
  obtain ⟨turn, own, rest⟩ := Turn.ends_bind_ok.1 ends
  have later : P turn.1 := h.advance now own
  dsimp only at rest
  split at rest
  · cases Turn.ends_pure.1 rest
    exact True.intro
  · cases Turn.ends_pure.1 rest
    exact later

theorem stash (h : m.Keeps P) : m.stash.Keeps (Stashed.Holds P) where
  start := True.intro
  advance := by
    intro s next message out now ends
    cases s with
    | running stashed inner => exact h.relay now ends
    | idle =>
        simp only [Machine.stash] at ends
        split at ends
        · split at ends
          · exact h.relay h.start ends
          · cases Turn.ends_fault.1 ends
        · cases Turn.ends_fault.1 ends

theorem bound (h : m.Keeps P) : m.bound.Keeps fun b => P b.inner where
  start := h.start
  advance now ends := h.reaches now (resolve_reaches ends).2

end Keeps

/-- A bound machine rests with its router at the start, and in a state that the inner
machine reaches by itself. -/
theorem bound_keeps (m : Machine σ) :
    m.bound.Keeps fun b => b.router = .start ∧ m.Reaches m.start b.inner where
  start := ⟨rfl, .refl m m.start⟩
  advance := by
    rintro s next message out ⟨_, before⟩ ends
    obtain ⟨rest, later⟩ := resolve_reaches ends
    exact ⟨rest, before.trans later⟩

end Machine

end Switchboard
