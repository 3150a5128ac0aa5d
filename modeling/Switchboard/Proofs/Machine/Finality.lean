import Switchboard.Proofs.Machine.Owned

/-!
# Final states take no message

In a final state every message is a fault.  Which states are final and what a machine
does in them is defined apart for every way of composing machines, and `Closes` relates
the two: each combinator closes if its parts do, so every machine that is built from
them does (`Blueprint.closes_owns`).
-/

namespace Switchboard

namespace Machine

variable {σ τ : Type} {m : Machine σ} {n : Machine τ} {P : σ → Prop} {Q : τ → Prop} {s : σ} {t : τ}

/-- Every message is a fault in the state. -/
def Refuses (m : Machine σ) (s : σ) : Prop :=
  ∀ message, ∃ fault, (m.advance s message).Ends (.error (.fault fault))

namespace Refuses

theorem within (h : m.Refuses s) {embed : σ → τ} {project? : τ → Option σ}
    (own : ∀ s, project? (embed s) = some s) : (m.within embed project?).Refuses (embed s) := by
  intro message
  obtain ⟨fault, ends⟩ := h message
  refine ⟨fault, ?_⟩
  rw [(within_simulates own).advance]
  exact ends.map_stop _

theorem renamed (h : m.Refuses s) (old new : Channel) : (m.renamed old new).Refuses s := by
  intro message
  obtain ⟨fault, ends⟩ := h (message.withChannel (message.channel.rename new old))
  exact ⟨fault, ends.bind_stop _⟩

theorem second (h : n.Refuses t) (m : Machine σ) : (m.sequence n).Refuses (.second t) := by
  intro message
  obtain ⟨fault, ends⟩ := h message
  exact ⟨fault, ends.bind_stop _⟩

/-- A product refuses what is for neither half, and the halves refuse the rest. -/
theorem product (h : m.Refuses s) (h' : n.Refuses t) : (m.product n).Refuses ⟨s, t⟩ := by
  intro message
  cases left : message.behind? leftName with
  | some own =>
      obtain rfl := Message.behind?_eq_some_iff.1 left
      obtain ⟨fault, ends⟩ := h own
      refine ⟨fault, ?_⟩
      rw [product_advance_left]
      exact ends.map_stop _
  | none =>
      cases right : message.behind? rightName with
      | some own =>
          obtain rfl := Message.behind?_eq_some_iff.1 right
          obtain ⟨fault, ends⟩ := h' own
          refine ⟨fault, ?_⟩
          rw [product_advance_right]
          exact ends.map_stop _
      | none =>
          refine ⟨.invalidChannel "product" message.channel, ?_⟩
          rw [product_advance_stray left right, Turn.ends_fault]

/-- The first round is a fault already, of the inner machine or of the limit. -/
theorem trampoline (h : m.Refuses s) (route : Message → Route) (limit : Option Nat) :
    (m.trampoline route limit).Refuses s := by
  intro message
  obtain ⟨fault, round⟩ :
      ∃ fault, (bounce route limit m ⟨0, s, message⟩).Ends (.error (.fault fault)) := by
    rw [bounce]
    cases overLimit limit 0 with
    | some fault => exact ⟨fault, Turn.ends_fault.2 rfl⟩
    | none =>
        obtain ⟨fault, ends⟩ := h message
        exact ⟨fault, ends.bind_stop _⟩
  refine ⟨fault, Turn.ends_iterate_iff.2 (.finish ?_)⟩
  exact Turn.returns_round_iff.2 round

end Refuses

/-- Of the states with a property, the final ones take no message. -/
def Closes [Observable σ] (m : Machine σ) (P : σ → Prop) : Prop :=
  ∀ s, P s → Observable.isFinal s = true → m.Refuses s

namespace Closes

/-- Where no state is final there is nothing to refuse. -/
theorem within_unfinal [Observable τ] {embed : σ → τ} {project? : τ → Option σ}
    (never : ∀ s, Observable.isFinal (embed s) = false) :
    (m.within embed project?).Closes (Embedded embed P) := by
  rintro _ ⟨s, rfl, _⟩ final
  rw [never] at final
  cases final

variable [Observable σ] [Observable τ]

theorem once (f : Data → Data) (P : Once → Prop) : (Machine.once f).Closes P := by
  intro s _ final message
  cases s with
  | start => cases final
  | done => exact ⟨_, Turn.ends_fault.2 rfl⟩

theorem within (h : m.Closes P) {embed : σ → τ} {project? : τ → Option σ}
    (own : ∀ s, project? (embed s) = some s)
    (same : ∀ s, Observable.isFinal (embed s) = Observable.isFinal s) :
    (m.within embed project?).Closes (Embedded embed P) := by
  rintro _ ⟨s, rfl, now⟩ final
  rw [same] at final
  exact (h s now final).within own

theorem renamed (h : m.Closes P) (old new : Channel) : (m.renamed old new).Closes P :=
  fun s now final => (h s now final).renamed old new

theorem sequence (h : n.Closes Q) (m : Machine σ) (P : σ → Prop) :
    (m.sequence n).Closes (Phase.Holds P Q) := by
  intro s now final
  cases s with
  | first inner => cases final
  | second inner => exact (h inner now final).second m

theorem product (h : m.Closes P) (h' : n.Closes Q) :
    (m.product n).Closes (Halves.Holds P Q) := by
  rintro ⟨left, right⟩ ⟨ofLeft, ofRight⟩ final
  obtain ⟨finalLeft, finalRight⟩ := Bool.and_eq_true_iff.1 final
  exact (h left ofLeft finalLeft).product (h' right ofRight finalRight)

theorem trampoline (h : m.Closes P) (route : Message → Route) (limit : Option Nat) :
    (m.trampoline route limit).Closes P :=
  fun s now final => (h s now final).trampoline route limit

end Closes

end Machine

theorem State.isFinal_sequence (s : Phase State State) :
    Observable.isFinal (State.sequence s) = Observable.isFinal s := by
  cases s with
  | first inner => rfl
  | second inner => rfl

namespace Blueprint

open Machine (Closes)

theorem closes_owns (b : Blueprint) : b.build.Closes b.Owns := by
  induction b with
  | constant value => exact Closes.within_unfinal fun _ => rfl
  | once f => exact (Closes.once f _).within (fun _ => rfl) fun _ => rfl
  | suspend channel => exact Closes.within_unfinal fun _ => rfl
  | finish => exact Closes.within_unfinal fun _ => rfl
  | cell => exact Closes.within_unfinal fun _ => rfl
  | slots size => exact Closes.within_unfinal fun _ => rfl
  | relabel old new => exact Closes.within_unfinal fun _ => rfl
  | renamed inner old new ih => exact ih.renamed old new
  | sequence first second _ ih =>
      exact (ih.sequence first.build first.Owns).within (fun _ => rfl) State.isFinal_sequence
  | product left right ih ih' => exact (ih.product ih').within (fun _ => rfl) fun _ => rfl
  | looped inner limit ih => exact ih.trampoline Machine.Route.looped limit
  | pipeline inner limit ih => exact ih.trampoline Machine.Route.pipeline limit
  | stash inner _ => exact Closes.within_unfinal fun _ => rfl
  | router => exact Closes.within_unfinal fun _ => rfl
  | bound inner _ => exact Closes.within_unfinal fun _ => rfl

/-- A machine in a final state of its own answers every message by a fault, however it is
built. -/
theorem refuses_of_isFinal (b : Blueprint) {s : State} (owned : b.Owns s)
    (final : s.isFinal = true) (message : Message) :
    ∃ fault, (b.build.advance s message).Ends (.error (.fault fault)) :=
  b.closes_owns s owned final message

/-- Two functions that have worked, one of them behind another machine, in a loop. -/
theorem refuses_when_exhausted :
    let worked := Blueprint.once id
    let b : Blueprint := .looped (.product worked (.sequence .finish worked)) (some 3)
    let s : State := .product ⟨.once .done, .sequence (.second (.once .done))⟩
    ∃ fault, (b.build.advance s (.result .null)).Ends (.error (.fault fault)) := by
  intro worked b s
  have owned : b.Owns s := ⟨_, rfl, ⟨_, rfl, True.intro⟩, ⟨_, rfl, _, rfl, True.intro⟩⟩
  have final : s.isFinal = true := by decide
  exact b.refuses_of_isFinal owned final (.result .null)

end Blueprint

end Switchboard
