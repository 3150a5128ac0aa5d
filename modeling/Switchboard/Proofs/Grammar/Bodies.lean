import Switchboard.Proofs.Grammar.Arena

/-!
# Loops without bodies

The call of a loop reserves its slot before the body is built.  If building the body
fails, the call fails as well, and the slot stays as it is: a loop without body, of which
the caller may know the index.

`Building.Trail` keeps account of these loops along a script.  At every moment the loops
without body are those whose calls are under way and those whose calls have failed, and
no loop is both (`Building.Trail.bodiless`).  So once no call is under way, a loop lacks
its body exactly if its call has failed (`Script.bodiless_iff_failed`).  Nothing is asked
of the ids that are passed in.
-/

namespace Switchboard

namespace Building

variable {b c d : Building} {lost : List NodeId}

/-- The loop whose call is about to fail, if there is one. -/
def failing : Building → List NodeId
  | ⟨_, _, .finish (.error _), unfinished :: _⟩ => [unfinished.loop]
  | _ => []

/-- One moment leads to another, and meanwhile the calls of these loops fail, the last one
first. -/
inductive Trail (b : Building) : List NodeId → Building → Prop
  | refl : Trail b [] b
  | tail {lost : List NodeId} {c d : Building} (before : Trail b lost c) (step : Step c d) :
      Trail b (c.failing ++ lost) d

theorem exists_trail (h : b.Reaches c) : ∃ lost, b.Trail lost c := by
  induction h with
  | refl => exact ⟨[], .refl⟩
  | tail _ step ih =>
      obtain ⟨lost, before⟩ := ih
      exact ⟨_, before.tail step⟩

/-- The loops whose calls are under way, the innermost first. -/
def underWay (b : Building) : List NodeId :=
  b.around.map Unfinished.loop

/-- The loops without body are those under way and those that are lost, each of them once. -/
structure Bodiless (lost : List NodeId) (b : Building) : Prop where
  bare_iff : ∀ id, b.grammar.node? id = some (.loop none) ↔ id ∈ b.underWay ++ lost
  nodup : (b.underWay ++ lost).Nodup

theorem start_bodiless (script : Script) : Bodiless [] (start script) where
  bare_iff id := by
    constructor
    · intro shape
      cases shape
    · intro mem
      cases mem
  nodup := List.nodup_nil

section

variable {g : Grammar} {issued : List NodeId} {script : Script} {around : List Unfinished}

theorem Bodiless.lt_size (h : Bodiless lost ⟨g, issued, script, around⟩) {id : NodeId}
    (mem : id ∈ around.map Unfinished.loop ++ lost) : id < g.size :=
  Grammar.lt_size_of_node? ((h.bare_iff id).2 mem)

/-- A node that is no loop is appended. -/
theorem Bodiless.push (h : Bodiless lost ⟨g, issued, script, around⟩) {node : Node}
    (closed : node.isLoop = false) (issued' : List NodeId) (next : Script) :
    Bodiless lost ⟨(g.push node).2, issued', next, around⟩ where
  bare_iff id := by
    have other : node ≠ .loop none := by
      rintro rfl
      cases closed
    have before := h.bare_iff id
    rw [Grammar.node?_push]
    by_cases last : id = g.size
    · rw [if_pos last]
      constructor
      · intro shape
        exact (other (Option.some.inj shape)).elim
      · intro mem
        exact (Nat.lt_irrefl _ (last ▸ h.lt_size mem)).elim
    · rw [if_neg last]
      exact before
  nodup := h.nodup

/-- A slot is reserved for a loop. -/
theorem Bodiless.enter (h : Bodiless lost ⟨g, issued, script, around⟩)
    (next : Except GrammarError NodeId → Script) (issued' : List NodeId) (body : Script) :
    Bodiless lost ⟨(g.push (.loop none)).2, issued', body, ⟨g.size, next⟩ :: around⟩ where
  bare_iff id := by
    have before := h.bare_iff id
    show _ ↔ id ∈ g.size :: (around.map Unfinished.loop ++ lost)
    rw [Grammar.node?_push, List.mem_cons]
    by_cases last : id = g.size
    · simp [last]
    · rw [if_neg last, or_iff_right last]
      exact before
  nodup := by
    refine List.nodup_cons.2 ⟨fun mem => ?_, h.nodup⟩
    exact Nat.lt_irrefl _ (h.lt_size mem)

/-- The innermost loop gets its body. -/
theorem Bodiless.close {unfinished : Unfinished}
    (h : Bodiless lost ⟨g, issued, script, unfinished :: around⟩) (inner : NodeId)
    (next : Script) :
    Bodiless lost ⟨g.close unfinished.loop inner, issued, next, around⟩ where
  bare_iff id := by
    obtain ⟨fresh, _⟩ := List.nodup_cons.1 h.nodup
    have before : g.node? id = some (.loop none) ↔
        id = unfinished.loop ∨ id ∈ around.map Unfinished.loop ++ lost :=
      (h.bare_iff id).trans List.mem_cons
    rw [Grammar.node?_close (h.lt_size List.mem_cons_self)]
    by_cases same : unfinished.loop = id
    · rw [if_pos same]
      constructor
      · intro shape
        cases shape
      · intro mem
        exact (fresh (same ▸ mem)).elim
    · rw [if_neg same, before, or_iff_right (Ne.symm same)]
      rfl
  nodup := (List.nodup_cons.1 h.nodup).2

/-- The innermost loop is lost. -/
theorem Bodiless.lose {unfinished : Unfinished}
    (h : Bodiless lost ⟨g, issued, script, unfinished :: around⟩) (next : Script) :
    Bodiless (unfinished.loop :: lost) ⟨g, issued, next, around⟩ where
  bare_iff id := by
    rw [h.bare_iff id]
    exact List.perm_middle.symm.mem_iff
  nodup := List.perm_middle.nodup_iff.2 h.nodup

end

theorem Step.bodiless (step : Step b c) (h : Bodiless lost b) : Bodiless (b.failing ++ lost) c := by
  cases step with
  | @call g after issued request next around answer performed =>
      rcases request.perform_on g with ⟨node, makes, appended⟩ | ⟨error, failed⟩
      · cases performed.symm.trans appended
        exact h.push makes.closed _ _
      · cases performed.symm.trans failed
        exact ⟨h.bare_iff, h.nodup⟩
  | enter => exact h.enter _ _ _
  | close => exact h.close _ _
  | fail => exact h.lose _

theorem Trail.bodiless {script : Script} (trail : (start script).Trail lost b) :
    Bodiless lost b := by
  induction trail with
  | refl => exact start_bodiless script
  | tail _ step ih => exact step.bodiless ih

end Building

namespace Script

/-- When no call is under way, the loops without body are those whose calls have failed:
none is without body exactly if none has failed. -/
theorem bodiless_iff_failed (script : Script) :
    (∃ issued lost, (Building.start script).Trail lost
      ⟨(script.run.on .empty).2, issued, .finish (script.run.on .empty).1, []⟩) ∧
    (∀ b, (Building.start script).Reaches b → ∃ lost, (Building.start script).Trail lost b) ∧
    ∀ lost b, (Building.start script).Trail lost b →
      (∀ id, b.grammar.node? id = some (.loop none) ↔ id ∈ b.underWay ∨ id ∈ lost) ∧
      (∀ id ∈ b.underWay, id ∉ lost) ∧
      (b.around = [] → ((∀ id, b.grammar.node? id ≠ some (.loop none)) ↔ lost = [])) := by
  refine ⟨?_, fun b reached => Building.exists_trail reached, fun lost b trail => ?_⟩
  · obtain ⟨issued, reached⟩ := script.run_reaches .empty [] []
    obtain ⟨lost, trail⟩ := Building.exists_trail reached
    exact ⟨issued, lost, trail⟩
  · obtain ⟨bare_iff, nodup⟩ := trail.bodiless
    refine ⟨fun id => ?_, fun id open_ failed => ?_, fun idle => ?_⟩
    · rw [bare_iff, List.mem_append]
    · exact (List.nodup_append.1 nodup).2.2 id open_ id failed rfl
    · have none_ : b.underWay = [] := by rw [Building.underWay, idle, List.map_nil]
      rw [none_, List.nil_append] at bare_iff
      rw [List.eq_nil_iff_forall_not_mem]
      exact forall_congr' fun id => not_congr (bare_iff id)

/-- Inside a loop the call of another one fails: that one stays without body, and the
first one gets its own all the same. -/
theorem inner_loop_lost :
    let inner (_ : NodeId) : Script := .call (.choice []) .finish
    let body (_ : NodeId) : Script := .looped inner fun _ => .call (.emit "x") .finish
    let g : Grammar := ⟨#[.loop (some 2), .loop none, .emit "x"]⟩
    let last : Building := ⟨g, [2, 1, 0], .finish (.ok 0), []⟩
    (Building.start (.looped body .finish)).Trail [1] last ∧
      ∀ id, g.node? id = some (.loop none) ↔ id = 1 := by
  intro inner body g last
  have refused : (Request.choice []).perform.on ⟨#[.loop none, .loop none]⟩ =
      (.error .emptyChoice, ⟨#[.loop none, .loop none]⟩) := rfl
  have entered : (Building.start (.looped body .finish)).Trail [] _ := .tail .refl .enter
  have refusing := (entered.tail .enter).tail (.call refused)
  have trail := ((refusing.tail .fail).tail (.call rfl)).tail .close
  obtain ⟨_, _, account⟩ := bodiless_iff_failed (.looped body .finish)
  refine ⟨trail, fun id => ?_⟩
  obtain ⟨bare_iff, _⟩ := account [1] last trail
  rw [bare_iff id, List.mem_singleton]
  exact or_iff_right List.not_mem_nil

/-- A call fails because its loop has a choice of nothing for a body.  It is over, and the
loop is still there without body. -/
theorem failed_loop_stays :
    let script : Script := .looped (fun _ => .call (.choice []) .finish) .finish
    ∃ b, (Building.start script).Reaches b ∧ b.around = [] ∧
      b.grammar.node? 0 = some (.loop none) := by
  intro script
  obtain ⟨issued, reached⟩ := script.run_reaches .empty [] []
  exact ⟨_, reached, rfl, rfl⟩

end Script

end Switchboard
