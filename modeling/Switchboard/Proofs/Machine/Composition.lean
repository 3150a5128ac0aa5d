import Switchboard.Machine.Blueprint
import Switchboard.Proofs.Machine.Invariants
import Switchboard.Proofs.Machine.Limits

/-!
# Sequences of functions

A sequence hands the data of its first machine over to its second one, by a continuation
on `result`.  So a tree of sequences over functions applies them from left to right, one
in each turn, and a trampoline collapses these turns into one
(`Blueprint.sequences_compose`).

`Works` is such a chain of turns.  Within a larger sequence the chain of a part goes on,
its break being the hand-over to the next part; so the induction over the tree is one
lemma on two chains, `Works.sequence`.
-/

namespace Switchboard

namespace Machine

open Message (result breakResult continueOn)

variable {σ τ : Type} {m : Machine σ} {n : Machine τ} {s t : σ} {v w x : Data} {k l : Nat}

/-- Given a value on `result`, the machine takes so many turns.  Each but the last one
asks to go on with its data on `result`; the last one breaks with the data at the end. -/
inductive Works (m : Machine σ) : Nat → σ → Data → σ → Data → Prop
  | last {s t : σ} {v w : Data} (ends : (m.advance s (result v)).Ends (.ok (t, breakResult w))) :
      Works m 1 s v t w
  | more {turns : Nat} {s next t : σ} {v x w : Data}
      (ends : (m.advance s (result v)).Ends (.ok (next, continueOn .result x)))
      (later : Works m turns next x t w) : Works m (turns + 1) s v t w

theorem Simulates.works {f : σ → τ} (h : Simulates n m f) (works : m.Works k s v t w) :
    n.Works k (f s) v (f t) w := by
  induction works with
  | last ends => exact .last (h.ends_iff.2 ⟨_, rfl, ends⟩)
  | more ends _ ih => exact .more (h.ends_iff.2 ⟨_, rfl, ends⟩) ih

theorem Works.second (h : m.Works k s v t w) (n : Machine τ) :
    (n.sequence m).Works k (.second s) v (.second t) w := by
  induction h with
  | last ends => exact .last (Turn.ends_bind_ok.2 ⟨_, ends, Turn.ends_pure.2 rfl⟩)
  | more ends _ ih => exact .more (Turn.ends_bind_ok.2 ⟨_, ends, Turn.ends_pure.2 rfl⟩) ih

/-- One chain of turns after the other: the break of the first is handed over. -/
theorem Works.sequence {t' : τ} (h : m.Works k s v t x) (h' : n.Works l n.start x t' w) :
    (m.sequence n).Works (l + k) (.first s) v (.second t') w := by
  induction h with
  | last ends =>
      exact .more (Turn.ends_bind_ok.2 ⟨_, ends, Turn.ends_pure.2 rfl⟩) (h'.second m)
  | more ends _ ih =>
      exact .more (Turn.ends_bind_ok.2 ⟨_, ends, Turn.ends_pure.2 rfl⟩) (ih h')

/-- A trampoline that feeds back what is to go on runs through the chain. -/
theorem Works.bounces {route : Message → Route} {answer : Message} (h : m.Works k s v t w)
    (feeds : ∀ x, route (continueOn .result x) = .again (result x))
    (leaves : route (breakResult w) = .finish answer) :
    Bounces route m k s (result v) (.ok (t, answer)) := by
  induction h with
  | last ends => exact .finish ends leaves
  | more ends _ ih => exact .again ends (feeds _) (ih leaves)

theorem capped_map {α β : Type} (f : α → β) (limit : Option Nat) (outcome : Except Stop α) :
    (capped limit k outcome).map f = capped limit k (outcome.map f) := by
  cases limit with
  | none => rfl
  | some most =>
      rw [capped, capped]
      split
      · rfl
      · rfl

end Machine

namespace Blueprint

open Machine (Bounces Route Works capped)

/-- A tree of sequences whose leaves are the functions, from left to right; a leaf may
also just pass its data on. -/
inductive Composes : Blueprint → List (Data → Data) → Prop
  | once (f : Data → Data) : Composes (.once f) [f]
  | finish : Composes .finish [id]
  | sequence {first second : Blueprint} {fs gs : List (Data → Data)} (front : Composes first fs)
      (back : Composes second gs) : Composes (.sequence first second) (fs ++ gs)

/-- What the functions make of a value, one after the other. -/
def composed (fs : List (Data → Data)) (v : Data) : Data :=
  fs.foldl (fun value f => f value) v

theorem Composes.works {b : Blueprint} {fs : List (Data → Data)} (h : b.Composes fs) (v : Data) :
    ∃ last, b.build.Works fs.length b.build.start v last (composed fs v) := by
  induction h generalizing v with
  | once f => exact ⟨.once .done, .last ⟨0, rfl⟩⟩
  | finish => exact ⟨.stateless .ready, .last ⟨0, rfl⟩⟩
  | @sequence first second fs gs _ _ ih ih' =>
      obtain ⟨between, front⟩ := ih v
      obtain ⟨last, back⟩ := ih' (composed fs v)
      have own : ∀ s, State.sequence? (.sequence s) = some s := fun _ => rfl
      refine ⟨.sequence (.second last), ?_⟩
      rw [List.length_append, Nat.add_comm, composed, List.foldl_append]
      exact (Machine.within_simulates own).works (front.sequence back)

/-- What a machine answers to a message at its start. -/
def answer (b : Blueprint) (message : Message) : Turn Message :=
  Prod.snd <$> b.build.advance b.build.start message

theorem Composes.bounces {b : Blueprint} {fs : List (Data → Data)} (h : b.Composes fs)
    (v : Data) :
    ∃ last,
      Bounces Route.looped b.build fs.length b.build.start (.result v)
        (.ok (last, .result (composed fs v))) ∧
      Bounces Route.pipeline b.build fs.length b.build.start (.result v)
        (.ok (last, .breakResult (composed fs v))) := by
  obtain ⟨last, works⟩ := h.works v
  exact ⟨last, works.bounces (fun _ => rfl) rfl, works.bounces (fun _ => rfl) rfl⟩

theorem Composes.answers {b : Blueprint} {fs : List (Data → Data)} (h : b.Composes fs) (v : Data)
    (limit : Option Nat) :
    ((looped b limit).answer (.result v)).Ends
        (capped limit fs.length (.ok (.result (composed fs v)))) ∧
      ((pipeline b limit).answer (.result v)).Ends
        (capped limit fs.length (.ok (.breakResult (composed fs v)))) := by
  obtain ⟨last, loop, pipe⟩ := h.bounces v
  exact ⟨Turn.ends_map.2 ⟨_, loop.ends_capped limit, Machine.capped_map _ limit _⟩,
    Turn.ends_map.2 ⟨_, pipe.ends_capped limit, Machine.capped_map _ limit _⟩⟩

/-- In a loop and in a pipeline, a tree of sequences over functions answers with what
they make of a value one after the other, after as many inner turns as there are
functions; so a limit lets it pass exactly if it allows these.  How the sequences are
nested makes no difference. -/
theorem sequences_compose {b : Blueprint} {fs : List (Data → Data)} (h : b.Composes fs)
    (v : Data) :
    (∃ last,
      Bounces Route.looped b.build fs.length b.build.start (.result v)
        (.ok (last, .result (composed fs v))) ∧
      Bounces Route.pipeline b.build fs.length b.build.start (.result v)
        (.ok (last, .breakResult (composed fs v)))) ∧
    (∀ limit,
      ((looped b limit).answer (.result v)).Ends
        (capped limit fs.length (.ok (.result (composed fs v)))) ∧
      ((pipeline b limit).answer (.result v)).Ends
        (capped limit fs.length (.ok (.breakResult (composed fs v))))) ∧
    ∀ b' : Blueprint, b'.Composes fs → ∀ limit,
      (∃ outcome, ((looped b limit).answer (.result v)).Ends outcome ∧
        ((looped b' limit).answer (.result v)).Ends outcome) ∧
      ∃ outcome, ((pipeline b limit).answer (.result v)).Ends outcome ∧
        ((pipeline b' limit).answer (.result v)).Ends outcome := by
  refine ⟨h.bounces v, h.answers v, fun b' h' limit => ?_⟩
  obtain ⟨loop, pipe⟩ := h.answers v limit
  obtain ⟨loop', pipe'⟩ := h'.answers v limit
  exact ⟨⟨_, loop, loop'⟩, ⟨_, pipe, pipe'⟩⟩

/-- Three leaves in both nestings, the one in the middle without a function. -/
theorem both_nestings_compose :
    let wrap : Data → Data := fun value => .array [value]
    let twice : Data → Data := fun value => .array [value, value]
    let b : Blueprint := .sequence (.sequence (.once wrap) .finish) (.once twice)
    let b' : Blueprint := .sequence (.once wrap) (.sequence .finish (.once twice))
    let w : Data := .array [.array [.null], .array [.null]]
    ((looped b (some 3)).answer (.result .null)).Ends (.ok (.result w)) ∧
      ((pipeline b none).answer (.result .null)).Ends (.ok (.breakResult w)) ∧
      ((looped b (some 2)).answer (.result .null)).Ends
        (.error (.fault (.stepLimitExceeded 2))) ∧
      ∃ outcome, ((looped b none).answer (.result .null)).Ends outcome ∧
        ((looped b' none).answer (.result .null)).Ends outcome := by
  intro wrap twice b b' w
  have h : b.Composes [wrap, id, twice] :=
    .sequence (.sequence (.once wrap) .finish) (.once twice)
  have h' : b'.Composes [wrap, id, twice] :=
    .sequence (.once wrap) (.sequence .finish (.once twice))
  obtain ⟨_, answers, alike⟩ := sequences_compose h .null
  exact ⟨(answers (some 3)).1, (answers none).2, (answers (some 2)).1, (alike b' h' none).1⟩

end Blueprint

end Switchboard
