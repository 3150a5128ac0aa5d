import Mathlib.Algebra.BigOperators.Group.List.Basic
import Mathlib.Algebra.GroupWithZero.Nat
import Switchboard.Proofs.Matching.Memory

/-!
# Loops open outside a share

A share has fewer characters than the tokens it was taken from, unless it is empty: each of
its tokens has lost a slash.  Every loop open around a scope had at least those tokens left
when the product was met, so whatever the scope reads, as long as it is something, is
shorter than what any of these loops had left (`Call.Nested`, `Callee.nested`).

So a loop open around a scope stops a call in it on nothing only, with nothing left on either
side (`Grammar.enclosing_loops_stop_on_nothing`).
-/

namespace Switchboard

variable {g : Grammar}

/-- The number of characters of all tokens. -/
def textLength (tokens : List String) : Nat :=
  (tokens.map String.length).sum

theorem textLength_append (u v : List String) :
    textLength (u ++ v) = textLength u + textLength v := by
  rw [textLength, List.map_append, List.sum_append]
  rfl

theorem textLength_drop_le (tokens : List String) {position next : Nat} (behind : position ≤ next) :
    textLength (tokens.drop next) ≤ textLength (tokens.drop position) := by
  have split := List.take_append_drop (next - position) (tokens.drop position)
  rw [List.drop_drop, Nat.add_sub_cancel' behind] at split
  rw [← split, textLength_append]
  exact Nat.le_add_left _ _

/-- Each token of a share has lost at least a slash. -/
theorem textLength_onChannel_le (channel : String) (tokens : List String) :
    textLength (onChannel channel tokens) + (onChannel channel tokens).length ≤
      textLength tokens := by
  induction tokens with
  | nil => exact Nat.le_refl _
  | cons token rest ih =>
      have split : textLength (token :: rest) = token.length + textLength rest := by
        simp [textLength]
      cases carried : carried? channel token with
      | none =>
          rw [onChannel, List.filterMap_cons_none carried, ← onChannel, split]
          omega
      | some value =>
          obtain ⟨rfl, _⟩ := carried?_eq_some_iff.1 carried
          have slash : (channel ++ "/" ++ value).length = channel.length + 1 + value.length := by
            rw [String.length_append, String.length_append]
            rfl
          have front : textLength (value :: onChannel channel rest) =
              value.length + textLength (onChannel channel rest) := by simp [textLength]
          rw [onChannel, List.filterMap_cons_some carried, ← onChannel, split, slash, front,
            List.length_cons]
          omega

theorem textLength_share_lt {channel : String} {taken rest : List String} (front : taken <+: rest)
    (some_ : onChannel channel taken ≠ []) :
    textLength (onChannel channel taken) < textLength rest := by
  obtain ⟨more, rfl⟩ := front
  have bound := textLength_onChannel_le channel taken
  have positive := List.length_pos_of_ne_nil some_
  rw [textLength_append]
  omega

/-- The loops open in the scope were entered no later than the call; those open around it had
more characters left than the scope has, unless the scope is empty. -/
structure Call.Nested (c : Call) : Prop where
  entered : ∀ entry ∈ c.active, entry.2 ≤ c.position
  shorter : c.scope.tokens ≠ [] → ∀ o ∈ c.scope.enclosing,
    textLength c.scope.tokens < textLength o.rest

namespace Call

variable {c : Call}

theorem outermost_nested (tokens : List String) (id : NodeId) : (outermost tokens id).Nested where
  entered _ mem := (List.not_mem_nil mem).elim
  shorter _ _ mem := (List.not_mem_nil mem).elim

/-- All that a scope has from a position on is shorter than what a loop around it had left. -/
theorem Nested.rest_shorter (h : c.Nested) {o : OpenLoop} (around : o ∈ c.scope.enclosing)
    {position : Nat} (some_ : c.scope.tokens.drop position ≠ []) :
    textLength (c.scope.tokens.drop position) < textLength o.rest := by
  have tokens : c.scope.tokens ≠ [] := by
    intro none_
    rw [none_, List.drop_nil] at some_
    exact some_ rfl
  have whole := textLength_drop_le c.scope.tokens (Nat.zero_le position)
  exact whole.trans_lt (h.shorter tokens o around)

theorem Nested.nothing_left (h : c.Nested) {o : OpenLoop} (around : o ∈ c.scope.enclosing)
    (same : o.rest = c.rest) : o.rest = [] ∧ c.rest = [] := by
  have none_ : c.rest = [] := by
    by_contra some_
    have less : textLength c.rest < textLength o.rest := h.rest_shorter around some_
    rw [same] at less
    exact Nat.lt_irrefl _ less
  exact ⟨same.trans none_, none_⟩

end Call

theorem Callee.nested {c' c : Call} (h : Callee g c' c) (nested : c.Nested) : c'.Nested := by
  obtain ⟨entered, shorter⟩ := nested
  cases h with
  | part _ _ behind _ => exact ⟨fun entry mem => (entered entry mem).trans behind, shorter⟩
  | branch _ _ => exact ⟨fun entry mem => (entered entry mem).trans (Nat.le_succ _), shorter⟩
  | body _ _ =>
      refine ⟨fun entry mem => ?_, shorter⟩
      rcases List.mem_cons.1 mem with rfl | mem
      · exact Nat.le_refl _
      · exact entered entry mem
  | @share s active id channels e taken position _ _ front =>
      refine ⟨fun _ mem => (List.not_mem_nil mem).elim, fun some_ o around => ?_⟩
      have less : textLength (onChannel e.1 taken) < textLength (s.tokens.drop position) :=
        textLength_share_lt front some_
      rcases Scope.mem_openLoops.1 around with outer | ⟨entry, opened, rfl⟩
      · have tokens : s.tokens ≠ [] := by
          intro none_
          rw [none_, List.drop_nil] at less
          exact Nat.not_lt_zero _ less
        have whole := textLength_drop_le s.tokens (Nat.zero_le position)
        exact (less.trans_le whole).trans (shorter tokens o outer)
      · exact less.trans_le (textLength_drop_le s.tokens (entered entry opened))

theorem Call.Nested.of_below {c root : Call} (nested : root.Nested)
    (below : Relation.ReflTransGen (Callee g) c root) : c.Nested := by
  induction below using Relation.ReflTransGen.head_induction_on with
  | refl => exact nested
  | head made _ ih => exact made.nested ih

/-- In every match, however deep its shares are nested: what a share has left at a position, if
anything, is shorter than what any loop open around it had left.  So a call that has as much
left as such a loop has nothing left, and a loop that is refused is open in its own scope,
or it is refused on nothing. -/
theorem Grammar.enclosing_loops_stop_on_nothing (guarded : g.LoopGuarded) (id : NodeId)
    (tokens : List String) : ∃ verdict, ∀ memoize,
      g.matchesPrefix? ⟨memoize⟩ id tokens = some verdict ∧
      g.check? ⟨memoize⟩ id tokens = some (exactly tokens verdict) ∧
      ∀ depth, g.matchingDepth tokens ≤ depth → ∃ journal,
        (Matching.observed g memoize depth (.outermost tokens id)).run .empty =
          some (verdict, journal) ∧
        (∀ call, call = .outermost tokens id ∨ (∃ caller, .asks caller call ∈ journal.events) →
          ∀ o ∈ call.scope.enclosing,
            (o.node = call.node ∧ o.rest = call.rest → o.rest = [] ∧ call.rest = []) ∧
            ∀ position, call.scope.tokens.drop position ≠ [] →
              textLength (call.scope.tokens.drop position) < textLength o.rest) ∧
        ∀ call, .refuses call ∈ journal.events →
          (call.node, call.position) ∈ call.active ∨
            call.rest = [] ∧ ⟨call.node, []⟩ ∈ call.scope.enclosing := by
  have outermost := Call.outermost_nested tokens id
  obtain ⟨verdict, answers⟩ := Matching.observed_answers guarded id tokens
  refine ⟨verdict, fun memoize => ?_⟩
  obtain ⟨_, _, run, _⟩ := answers memoize (g.matchingDepth tokens) (Nat.le_refl _)
  obtain ⟨matched, checked⟩ := answers_of_run run
  refine ⟨matched, checked, fun depth deep => ?_⟩
  obtain ⟨clean, journal, run, _, continues⟩ := answers memoize depth deep
  obtain ⟨new, split, proper, _⟩ := continues.events
  have events : ∀ event ∈ journal.events, event.Proper g (.outermost tokens id) := by
    rwa [split, Journal.empty, List.nil_append]
  refine ⟨journal, run, fun call made o around => ?_, fun call refused => ?_⟩
  · have nested : call.Nested := by
      rcases made with rfl | ⟨caller, asked⟩
      · exact outermost
      · cases events _ asked with
        | asks below callee => exact callee.nested (outermost.of_below below)
    exact ⟨fun same => nested.nothing_left around same.2,
      fun _ some_ => nested.rest_shorter around some_⟩
  · cases events _ refused with
    | refuses below _ again =>
        refine (Scope.reentered_iff.1 again).imp_right fun around => ?_
        have nothing := (outermost.of_below below).nothing_left around rfl
        exact ⟨nothing.2, nothing.1 ▸ around⟩

/-- A loop that comes back to itself on a channel. -/
def Grammar.sinking : Grammar :=
  ⟨#[.loop (some 1), .product (Keyed.ofList [("left", 0)])]⟩

/-- A loop is refused that is not open in its own scope. -/
def Event.refusesOuter : Event → Bool
  | .refuses call => call.active.isEmpty
  | .asks _ _ => false

/-- The loop goes down with its shares until nothing is left, and is refused there. -/
theorem Grammar.sinking_stops :
    ∃ verdict journal call,
      (Matching.observed sinking false (sinking.matchingDepth ["left/left/x"])
        (.outermost ["left/left/x"] 0)).run .empty = some (verdict, journal) ∧
      .refuses call ∈ journal.events ∧ call.active = [] ∧ call.rest = [] := by
  have guarded : sinking.LoopGuarded := loopGuarded_of_descending (by decide)
  obtain ⟨verdict, answers⟩ := enclosing_loops_stop_on_nothing guarded 0 ["left/left/x"]
  obtain ⟨_, _, runs⟩ := answers false
  obtain ⟨journal, run, _, refused⟩ := runs _ (Nat.le_refl _)
  have refuses : ((Matching.observed sinking false (sinking.matchingDepth ["left/left/x"])
      (.outermost ["left/left/x"] 0)).run .empty).any
        (fun answer => answer.2.events.any Event.refusesOuter) = true := by
    decide +kernel
  rw [run, Option.any_some, List.any_eq_true] at refuses
  obtain ⟨event, mem, outer⟩ := refuses
  cases event with
  | asks caller callee => cases outer
  | refuses call =>
      have unopened : call.active = [] := List.isEmpty_iff.1 outer
      refine ⟨verdict, journal, call, run, mem, unopened, ?_⟩
      rcases refused call mem with opened | nothing
      · rw [unopened] at opened
        cases opened
      · exact nothing.1

end Switchboard
