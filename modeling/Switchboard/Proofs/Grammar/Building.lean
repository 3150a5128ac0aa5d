import Switchboard.Proofs.Grammar.Arena

/-!
# Scripts at work

`Building.Sound` is the invariant of a script at work: the arena is well built, the ids
given so far are those of its nodes, and each loop that is under way has a slot of its
own, still without body.  A step keeps it as long as only ids are passed in that were
given before (`Building.Step.sound`), and it changes no node but the loop that is closed
(`Building.Step.node?_eq`).
-/

namespace Switchboard

namespace Building

variable {b c d : Building}

/-- A moment has at most one next one. -/
theorem Step.unique (h : Step b c) (h' : Step b d) : c = d := by
  cases h with
  | call performed =>
      cases h' with
      | call performed' =>
          cases performed.symm.trans performed'
          rfl
  | enter =>
      cases h'
      rfl
  | close =>
      cases h'
      rfl
  | fail =>
      cases h'
      rfl

theorem eq_or_reaches_of_step (step : Step b c) (h : b.Reaches d) : d = b ∨ c.Reaches d := by
  rcases h.cases_head with rfl | ⟨next, first, later⟩
  · exact Or.inl rfl
  · exact Or.inr (step.unique first ▸ later)

/-- Nothing comes after a script that is finished, with no loop around it. -/
theorem eq_of_reaches_over {g : Grammar} {issued : List NodeId}
    {answer : Except GrammarError NodeId} (h : Reaches ⟨g, issued, .finish answer, []⟩ c) :
    c = ⟨g, issued, .finish answer, []⟩ := by
  rcases h.cases_head with rfl | ⟨next, step, _⟩
  · rfl
  · cases step

/-! ## The invariant -/

structure Sound (b : Building) : Prop where
  wellBuilt : b.grammar.WellBuilt
  issued : ∀ id, id ∈ b.issued ↔ id < b.grammar.size
  bare : ∀ unfinished ∈ b.around, b.grammar.node? unfinished.loop = some (.loop none)
  apart : (b.around.map Unfinished.loop).Nodup

theorem start_sound (script : Script) : (start script).Sound where
  wellBuilt := .empty
  issued id := by
    constructor
    · intro given
      cases given
    · intro inside
      cases inside
  bare unfinished mem := by cases mem
  apart := List.nodup_nil

section

variable {g : Grammar} {issued : List NodeId} {script : Script} {around : List Unfinished}

theorem Sound.resume (h : Sound ⟨g, issued, script, around⟩) (next : Script) :
    Sound ⟨g, issued, next, around⟩ :=
  ⟨h.wellBuilt, h.issued, h.bare, h.apart⟩

/-- The innermost loop is left without a body. -/
theorem Sound.abandon {unfinished : Unfinished}
    (h : Sound ⟨g, issued, script, unfinished :: around⟩) (next : Script) :
    Sound ⟨g, issued, next, around⟩ :=
  ⟨h.wellBuilt, h.issued, (List.forall_mem_cons.1 h.bare).2, (List.nodup_cons.1 h.apart).2⟩

theorem Sound.push (h : Sound ⟨g, issued, script, around⟩) {node : Node}
    (known : ∀ other ∈ node.references, other < g.size) (lawful : node.Lawful) (next : Script) :
    Sound ⟨(g.push node).2, g.size :: issued, next, around⟩ where
  wellBuilt := h.wellBuilt.push known lawful
  issued id := by
    have before := h.issued id
    rw [List.mem_cons, before, Grammar.size_push]
    exact (Nat.lt_succ_iff_lt_or_eq.trans or_comm).symm
  bare unfinished mem := by
    have before := h.bare unfinished mem
    have ne : unfinished.loop ≠ g.size := (Grammar.lt_size_of_node? before).ne
    exact (Grammar.node?_push _).trans ((if_neg ne).trans before)
  apart := h.apart

/-- The loop gets the slot behind all nodes, so that it is none of the loops around. -/
theorem Sound.enter (h : Sound ⟨g, issued, script, around⟩)
    (next : Except GrammarError NodeId → Script) (body : Script) :
    Sound ⟨(g.push (.loop none)).2, g.size :: issued, body, ⟨g.size, next⟩ :: around⟩ := by
  have known : ∀ other ∈ (Node.loop none).references, other < g.size := by
    intro other mem
    cases mem
  obtain ⟨wellBuilt, given, bare, apart⟩ := h.push known True.intro body
  refine ⟨wellBuilt, given, ?_, ?_⟩
  · refine List.forall_mem_cons.2 ⟨?_, bare⟩
    exact (Grammar.node?_push _).trans (if_pos rfl)
  · refine List.nodup_cons.2 ⟨fun mem => ?_, apart⟩
    obtain ⟨unfinished, mem, same⟩ := List.mem_map.1 mem
    have inside := Grammar.lt_size_of_node? (h.bare unfinished mem)
    exact Nat.lt_irrefl _ (same ▸ inside)

theorem Sound.close {unfinished : Unfinished}
    (h : Sound ⟨g, issued, script, unfinished :: around⟩) {inner : NodeId}
    (known : inner < g.size) (next : Script) :
    Sound ⟨g.close unfinished.loop inner, issued, next, around⟩ := by
  obtain ⟨own, bare⟩ := List.forall_mem_cons.1 h.bare
  obtain ⟨fresh, apart⟩ := List.nodup_cons.1 h.apart
  have there : unfinished.loop < g.size := Grammar.lt_size_of_node? own
  refine ⟨h.wellBuilt.close there known, fun id => ?_, fun other mem => ?_, apart⟩
  · have same : (g.close unfinished.loop inner).size = g.size := Grammar.size_close
    exact same ▸ h.issued id
  · have ne : unfinished.loop ≠ other.loop :=
      fun same => fresh (same ▸ List.mem_map.2 ⟨other, mem, rfl⟩)
    exact (Grammar.node?_close there _).trans ((if_neg ne).trans (bare other mem))

end

/-- A step keeps the invariant if what is passed in was given before. -/
theorem Step.sound (step : Step b c) (h : b.Sound) (honest : ∀ id ∈ b.handed, id ∈ b.issued) :
    c.Sound := by
  cases step with
  | @call g after issued request next around answer performed =>
      rcases request.perform_on g with ⟨node, makes, appended⟩ | ⟨error, failed⟩
      · cases performed.symm.trans appended
        have known : ∀ other ∈ node.references, other < g.size :=
          fun other mem => (h.issued other).1 (honest other (makes.given other mem))
        exact h.push known makes.lawful _
      · cases performed.symm.trans failed
        exact h.resume _
  | enter => exact h.enter _ _
  | @close g issued inner unfinished around =>
      have known : inner < g.size := (h.issued inner).1 (honest inner List.mem_cons_self)
      exact h.close known _
  | fail => exact h.abandon _

/-- A step changes no node but the loop whose call succeeds. -/
theorem Step.node?_eq (step : Step b c) (h : b.Sound) {id : NodeId} (given : id ∈ b.issued) :
    c.grammar.node? id =
      match b.closing? with
      | some (loop, inner) =>
          if loop = id then some (.loop (some inner)) else b.grammar.node? id
      | none => b.grammar.node? id := by
  have there : id < b.grammar.size := (h.issued id).1 given
  cases step with
  | @call g after issued request next around answer performed =>
      rcases request.perform_on g with ⟨node, _, appended⟩ | ⟨error, failed⟩
      · cases performed.symm.trans appended
        exact (Grammar.node?_push id).trans (if_neg there.ne)
      · cases performed.symm.trans failed
        rfl
  | enter => exact (Grammar.node?_push id).trans (if_neg there.ne)
  | close =>
      have own := h.bare _ List.mem_cons_self
      exact Grammar.node?_close (Grammar.lt_size_of_node? own) id
  | fail => rfl

theorem bare_of_closing (h : b.Sound) {loop inner : NodeId}
    (closing : b.closing? = some (loop, inner)) : b.grammar.node? loop = some (.loop none) := by
  unfold closing? at closing
  split at closing
  · cases closing
    exact h.bare _ List.mem_cons_self
  · cases closing

theorem Step.closes (step : Step b c) (h : b.Sound) {loop inner : NodeId}
    (closing : b.closing? = some (loop, inner)) :
    c.grammar.node? loop = some (.loop (some inner)) := by
  have own := bare_of_closing h closing
  have law := step.node?_eq h ((h.issued loop).2 (Grammar.lt_size_of_node? own))
  rw [closing] at law
  exact law.trans (if_pos rfl)

theorem Step.keeps (step : Step b c) (h : b.Sound) {id : NodeId} (given : id ∈ b.issued)
    (other : ∀ inner, b.closing? ≠ some (id, inner)) :
    c.grammar.node? id = b.grammar.node? id := by
  have law := step.node?_eq h given
  cases closing : b.closing? with
  | none =>
      rw [closing] at law
      exact law
  | some entry =>
      obtain ⟨loop, inner⟩ := entry
      rw [closing] at law
      have ne : loop ≠ id := by
        rintro rfl
        exact other inner closing
      exact law.trans (if_neg ne)

/-! ## Later moments -/

/-- What an id denotes it denotes later on, except that a loop without body gets one by
the step with which its own call succeeds. -/
inductive Persists (b later : Building) (id : NodeId) : Prop
  | same (kept : later.grammar.node? id = b.grammar.node? id)
  | filled {now next : Building} {inner : NodeId} (before : b.Reaches now)
      (closing : now.closing? = some (id, inner)) (step : now.Step next)
      (after : next.Reaches later) (bare : b.grammar.node? id = some (.loop none))
      (body : later.grammar.node? id = some (.loop (some inner)))

theorem Persists.given {id : NodeId} (h : b.Persists c id) (there : id < b.grammar.size)
    (sound : c.Sound) : id ∈ c.issued := by
  obtain ⟨node, shape⟩ := Grammar.lt_size_iff.1 there
  cases h with
  | same kept => exact (sound.issued id).2 (Grammar.lt_size_of_node? (kept.trans shape))
  | filled _ _ _ _ _ body => exact (sound.issued id).2 (Grammar.lt_size_of_node? body)

theorem Persists.step {id : NodeId} (h : b.Persists c id) (reached : b.Reaches c) (sound : c.Sound)
    (there : id < b.grammar.size) (step : Step c d) : b.Persists d id := by
  by_cases closes : ∃ inner, c.closing? = some (id, inner)
  · obtain ⟨inner, closing⟩ := closes
    have own := bare_of_closing sound closing
    cases h with
    | same kept =>
        exact .filled reached closing step .refl (kept.symm.trans own) (step.closes sound closing)
    | filled _ _ _ _ _ body =>
        have closed_before := own.symm.trans body
        cases closed_before
  · have other : ∀ inner, c.closing? ≠ some (id, inner) :=
      fun inner closing => closes ⟨inner, closing⟩
    have passed := step.keeps sound (h.given there sound) other
    cases h with
    | same kept => exact .same (passed.trans kept)
    | filled before closing filled after bare body =>
        exact .filled before closing filled (after.tail step) bare (passed.trans body)

end Building

namespace Script

variable {script : Script} {b c : Building}

theorem Honest.sound (honest : script.Honest) (reached : (Building.start script).Reaches b) :
    b.Sound := by
  induction reached with
  | refl => exact Building.start_sound script
  | tail before step ih => exact step.sound ih (honest _ before)

theorem Honest.persists (honest : script.Honest) (reached : (Building.start script).Reaches b)
    (later : b.Reaches c) {id : NodeId} (given : id ∈ b.issued) : b.Persists c id := by
  have there := ((honest.sound reached).issued id).1 given
  induction later with
  | refl => exact .same rfl
  | tail before step ih =>
      exact ih.step before (honest.sound (reached.trans before)) there step

/-- At every moment of a script, the arena is well built and guarded by loops, what was
given denotes a node and goes on to denote it, only the loop of a call that succeeds gets
a body, a request that fails appends nothing, and no match of what was given misses a
node.  The last of the moments is what carrying the script out comes to. -/
theorem builders_keep_arena (honest : script.Honest) :
    (∃ issued, (Building.start script).Reaches
      ⟨(script.run.on .empty).2, issued, .finish (script.run.on .empty).1, []⟩) ∧
    ∀ b, (Building.start script).Reaches b →
      b.grammar.WellBuilt ∧ b.grammar.LoopGuarded ∧
      (∀ id, id ∈ b.issued ↔ ∃ node, b.grammar.node? id = some node) ∧
      (∀ later, b.Reaches later → ∀ id ∈ b.issued, b.Persists later id) ∧
      (∀ next, b.Step next → ∀ loop inner, b.closing? = some (loop, inner) →
        next.grammar.node? loop = some (.loop (some inner))) ∧
      (∀ (request : Request) error after, request.perform.on b.grammar = (.error error, after) →
        after = b.grammar) ∧
      ∀ id ∈ b.issued, ∀ config tokens, ∃ verdict,
        b.grammar.matchesPrefix? config id tokens = some verdict ∧
        b.grammar.check? config id tokens = some (exactly tokens verdict) ∧
        MissesNothing verdict ∧ MissesNothing (exactly tokens verdict) := by
  refine ⟨script.run_reaches .empty [] [], fun b reached => ?_⟩
  have sound := honest.sound reached
  have guarded := sound.wellBuilt.loopGuarded
  refine ⟨sound.wellBuilt, guarded, fun id => ?_, fun later path id given => ?_,
    fun next step loop inner closing => ?_, fun request error after failed => ?_,
    fun id given config tokens => ?_⟩
  · exact (sound.issued id).trans Grammar.lt_size_iff
  · exact honest.persists reached path given
  · exact step.closes sound closing
  · rcases request.perform_on b.grammar with ⟨node, _, appended⟩ | ⟨_, unchanged⟩
    · cases failed.symm.trans appended
    · cases failed.symm.trans unchanged
      rfl
  · obtain ⟨verdict, matched, checked, misses⟩ := Grammar.answers_miss guarded config id tokens
    have there := (sound.issued id).1 given
    have nothing : MissesNothing verdict :=
      misses.mono fun missing => sound.wellBuilt.not_lacks there
    exact ⟨verdict, matched, checked, nothing, nothing.exactly tokens⟩

/-- A product of nothing is refused, and then more and more is received. -/
theorem more_and_more_kept :
    let body (loop : NodeId) : Script := .call (.receive "more" loop) .finish
    let script : Script := .call (.product []) fun _ => .looped body .finish
    let g := (script.run.on .empty).2
    g.node? 0 = some (.loop (some 1)) ∧ g.LoopGuarded ∧
      ∃ verdict, g.matchesPrefix? .default 0 ["more"] = some verdict ∧
        MissesNothing verdict := by
  intro body script g
  have shape : g.node? 0 = some (.loop (some 1)) := rfl
  let opened : Building := ⟨.empty, [], .looped body .finish, []⟩
  let entered : Building := ⟨⟨#[.loop none]⟩, [0], body 0, [⟨0, .finish⟩]⟩
  let table : Keyed NodeId := Keyed.empty.put "more" 0
  let received : Building :=
    ⟨⟨#[.loop none, .choice table]⟩, [1, 0], .finish (.ok 1), [⟨0, .finish⟩]⟩
  let closed : Building := ⟨⟨#[.loop (some 1), .choice table]⟩, [1, 0], .finish (.ok 0), []⟩
  have refuse : Building.Step (.start script) opened := .call rfl
  have enter : Building.Step opened entered := .enter
  have receive : Building.Step entered received := .call rfl
  have close : Building.Step received closed := .close
  have honest : script.Honest := by
    intro b reached
    rcases Building.eq_or_reaches_of_step refuse reached with rfl | reached
    · decide
    rcases Building.eq_or_reaches_of_step enter reached with rfl | reached
    · decide
    rcases Building.eq_or_reaches_of_step receive reached with rfl | reached
    · decide
    rcases Building.eq_or_reaches_of_step close reached with rfl | reached
    · decide
    obtain rfl := Building.eq_of_reaches_over reached
    decide
  obtain ⟨⟨issued, reached⟩, moments⟩ := builders_keep_arena honest
  obtain ⟨_, guarded, given, _, _, _, asked⟩ := moments _ reached
  obtain ⟨verdict, matched, _, misses, _⟩ := asked 0 ((given 0).2 ⟨_, shape⟩) .default ["more"]
  exact ⟨shape, guarded, verdict, matched, misses⟩

end Script

end Switchboard
