import Mathlib.Data.List.Forall2
import Switchboard.Machine.Cell
import Switchboard.Machine.Facets
import Switchboard.Proofs.Machine.Halves

/-!
# Facets of a bound product

A turn of a bound machine is an exchange between the router and the inner machine,
and `resolve_of_request`, `resolve_of_answer` and `resolve_of_refusal` are its steps.
Bound to a product, a request to a facet is a turn of one half with its prefixes
translated (`bound_advance_first`, `bound_advance_second`), and a pair on `result`
is a `set` of both halves, one after the other (`bound_advance_seed`).

So a run of requests splits into a run of each half (`Answers.facets`), and two such
runs are joined by any order of their requests (`answers_of_facets`).
-/

namespace Switchboard

theorem Channel.after?_append (start rest : List String) :
    after? ⟨start⟩ ⟨start ++ rest⟩ = some ⟨rest⟩ := by
  have found : start.isPrefixOf? (start ++ rest) = some rest := by
    induction start with
    | nil => rfl
    | cons segment start ih => simp [List.isPrefixOf?, ih]
  rw [after?, found]
  rfl

/-- One of the two facets of a bound machine. -/
inductive Facet where
  | first
  | second
deriving DecidableEq

namespace Facet

def name : Facet → String
  | .first => Router.firstName
  | .second => Router.secondName

/-- The half behind the facet. -/
def half : Facet → String
  | .first => Machine.leftName
  | .second => Machine.rightName

/-- What a router does after a request to the facet. -/
def awaiting : Facet → Router
  | .first => .awaitingFirst
  | .second => .awaitingSecond

/-- The message is on one of the facets. -/
def Carries (message : Message) : Prop :=
  ∃ (f : Facet) (own : Message), message = own.prefixed f.name

/-- Both messages are on one facet. -/
def Shared (message out : Message) : Prop :=
  ∃ (f : Facet) (own answer : Message),
    message = own.prefixed f.name ∧ out = answer.prefixed f.name

theorem first_ne_second : first.name ≠ second.name := by decide

end Facet

/-! ## The router -/

namespace Router

/-- What is on `inner/...` is a request. -/
theorem request?_prefixed (own : Message) : request? (own.prefixed innerName) = some own := by
  have front := Channel.after?_append [innerName] own.channel.segments
  rw [request?]
  exact congrArg (Option.map _) front

/-- A message to one half or from it, as it passes between router and machine. -/
def inward (half : String) (own : Message) : Message :=
  (own.prefixed half).prefixed innerName

theorem request?_inward (half : String) (own : Message) :
    request? (inward half own) = some (own.prefixed half) :=
  request?_prefixed (own.prefixed half)

theorem after?_inward (half : String) (own : Message) :
    (side half).after? (inward half own).channel = some own.channel :=
  Channel.after?_append [innerName, half] own.channel.segments

theorem step_facet (f : Facet) {own : Message} (more : own.channel.isEmpty = false) :
    step .start (own.prefixed f.name) = .ok (f.awaiting, inward f.half own) := by
  have single : (own.prefixed f.name).channel.is Channel.resultName = false := by
    cases f
    all_goals simp [Message.prefixed, Message.withChannel, Channel.prefixed, Channel.is,
      Facet.name, firstName, secondName, Channel.resultName]
  have split : (own.prefixed f.name).channel.uncons? = some (f.name, own.channel) := rfl
  rw [step, begin, single, split]
  simp only [Bool.false_eq_true, if_false, more]
  cases f with
  | first => rfl
  | second => rfl

theorem step_awaiting (f : Facet) (out : Message) :
    step f.awaiting (inward f.half out) =
      if out.channel.isEmpty then .error (.invalidChannel f.awaiting.name (side f.half))
      else .ok (.start, out.prefixed f.name) := by
  have reply : step f.awaiting (inward f.half out) =
      reply f.awaiting f.half f.name (inward f.half out) := by
    cases f with
    | first => rfl
    | second => rfl
  rw [reply, Router.reply, after?_inward]
  obtain ⟨⟨segments⟩, data⟩ := out
  cases segments with
  | nil => rfl
  | cons segment rest => rfl

/-- The message that writes a value. -/
def setTo (value : Data) : Message :=
  ⟨⟨["set"]⟩, value⟩

theorem step_seed (first second : Data) :
    step .start (.result (.array [first, second])) =
      .ok (.awaitingInit (some second), inward Machine.leftName (setTo first)) := rfl

/-- Of the replies of the left half to its `set` two are understood. -/
theorem step_seededLeft (second : Data) (out : Message) :
    step (.awaitingInit (some second)) (inward Machine.leftName out) =
      if out.channel.is Channel.errName then .ok (.start, out)
      else if out.channel.is Channel.resultName then
        .ok (.awaitingInit none, inward Machine.rightName (setTo second))
      else .error (.invalidChannel "awaiting_init" (inward Machine.leftName out).channel) := by
  simp only [step, seeded, Option.isSome_some, if_true, after?_inward]
  rfl

theorem step_seededRight (out : Message) :
    step (.awaitingInit none) (inward Machine.rightName out) =
      if out.channel.is Channel.errName then .ok (.start, out)
      else if out.channel.is Channel.resultName then .ok (.start, .result .null)
      else .error (.invalidChannel "awaiting_init" (inward Machine.rightName out).channel) := by
  simp only [step, seeded, Option.isSome_none, Bool.false_eq_true, if_false, after?_inward]
  rfl

end Router

namespace Machine

open Message (allBehind)
open Router (innerName inward)

variable {σ τ : Type}

/-! ## The exchange with the inner machine -/

section Resolve

variable {inner : Machine σ} {router next : Router} {state : σ} {message out request : Message}
  {fault : Fault}

theorem resolve_of_refusal (h : router.step message = .error fault) :
    resolve inner router state message = Turn.fault fault := by
  rw [resolve]
  split
  · rename_i other step
    rw [h] at step
    cases step
    rfl
  · rename_i step
    rw [h] at step
    cases step

theorem resolve_of_answer (h : router.step message = .ok (next, out))
    (answer : Router.request? out = none) :
    resolve inner router state message = pure (⟨next, state⟩, out) := by
  rw [resolve]
  split
  · rename_i step
    rw [h] at step
    cases step
  · rename_i step
    rw [h] at step
    cases step
    split
    · rfl
    · rename_i asks
      rw [answer] at asks
      cases asks

theorem resolve_of_request (h : router.step message = .ok (next, out))
    (asks : Router.request? out = some request) :
    resolve inner router state message =
      inner.advance state request >>= fun turn =>
        resolve inner next turn.1 (turn.2.prefixed innerName) := by
  rw [resolve]
  split
  · rename_i step
    rw [h] at step
    cases step
  · rename_i step
    rw [h] at step
    cases step
    split
    · rename_i answer
      rw [asks] at answer
      cases answer
    · rename_i other same
      rw [asks] at same
      cases same
      rfl

end Resolve

/-- A request to a facet is passed on, and what comes back is the answer. -/
theorem bound_advance_facet (inner : Machine σ) (state : σ) (f : Facet) {own : Message}
    (more : own.channel.isEmpty = false) :
    (bound inner).advance ⟨.start, state⟩ (own.prefixed f.name) =
      inner.advance state (own.prefixed f.half) >>= fun turn =>
        resolve inner f.awaiting turn.1 (turn.2.prefixed innerName) :=
  resolve_of_request (Router.step_facet f more) (Router.request?_prefixed _)

theorem resolve_awaiting (inner : Machine σ) (state : σ) (f : Facet) (out : Message) :
    resolve inner f.awaiting state (inward f.half out) =
      if out.channel.isEmpty then
        Turn.fault (.invalidChannel f.awaiting.name (Router.side f.half))
      else pure (⟨.start, state⟩, out.prefixed f.name) := by
  have step := Router.step_awaiting f out
  split
  · rename_i none_
    rw [if_pos none_] at step
    exact resolve_of_refusal step
  · rename_i more
    rw [if_neg more] at step
    refine resolve_of_answer step (Router.request?_eq_none_of_head rfl ?_)
    cases f with
    | first => decide
    | second => decide

/-! ## Bound products -/

section Product

variable {l : Machine σ} {r : Machine τ} {s : Halves σ τ}

theorem bound_advance_first {own : Message} (more : own.channel.isEmpty = false) :
    (bound (l.product r)).advance ⟨.start, s⟩ (own.prefixed Facet.first.name) =
      l.advance s.left own >>= fun turn =>
        if turn.2.channel.isEmpty then
          Turn.fault (.invalidChannel "awaiting_first" (Router.side leftName))
        else pure (⟨.start, ⟨turn.1, s.right⟩⟩, turn.2.prefixed Facet.first.name) := by
  have half : (l.product r).advance s (own.prefixed Facet.first.half) = _ :=
    product_advance_left own
  rw [bound_advance_facet _ _ .first more, half, bind_map_left]
  exact congrArg (l.advance s.left own >>= ·)
    (funext fun turn => resolve_awaiting (l.product r) ⟨turn.1, s.right⟩ .first turn.2)

theorem bound_advance_second {own : Message} (more : own.channel.isEmpty = false) :
    (bound (l.product r)).advance ⟨.start, s⟩ (own.prefixed Facet.second.name) =
      r.advance s.right own >>= fun turn =>
        if turn.2.channel.isEmpty then
          Turn.fault (.invalidChannel "awaiting_second" (Router.side rightName))
        else pure (⟨.start, ⟨s.left, turn.1⟩⟩, turn.2.prefixed Facet.second.name) := by
  have half : (l.product r).advance s (own.prefixed Facet.second.half) = _ :=
    product_advance_right own
  rw [bound_advance_facet _ _ .second more, half, bind_map_left]
  exact congrArg (r.advance s.right own >>= ·)
    (funext fun turn => resolve_awaiting (l.product r) ⟨s.left, turn.1⟩ .second turn.2)

/-- What the reply to the `set` of the right half comes to. -/
theorem resolve_seededRight (out : Message) :
    resolve (l.product r) (.awaitingInit none) s (inward rightName out) =
      if out.channel.is Channel.errName then pure (⟨.start, s⟩, out)
      else if out.channel.is Channel.resultName then pure (⟨.start, s⟩, .result .null)
      else Turn.fault (.invalidChannel "awaiting_init" (inward rightName out).channel) := by
  have step := Router.step_seededRight out
  split
  · rename_i failed
    rw [if_pos failed] at step
    obtain ⟨channel, data⟩ := out
    obtain rfl := Channel.is_iff.1 failed
    exact resolve_of_answer step (Router.request?_eq_none_of_head rfl (by decide))
  · rename_i passed
    rw [if_neg passed] at step
    split
    · rename_i done
      rw [if_pos done] at step
      exact resolve_of_answer step (Router.request?_eq_none_of_head rfl (by decide))
    · rename_i odd
      rw [if_neg odd] at step
      exact resolve_of_refusal step

theorem resolve_seededLeft (second : Data) (out : Message) :
    resolve (l.product r) (.awaitingInit (some second)) s (inward leftName out) =
      if out.channel.is Channel.errName then pure (⟨.start, s⟩, out)
      else if out.channel.is Channel.resultName then
        r.advance s.right (Router.setTo second) >>= fun turn =>
          resolve (l.product r) (.awaitingInit none) ⟨s.left, turn.1⟩ (inward rightName turn.2)
      else Turn.fault (.invalidChannel "awaiting_init" (inward leftName out).channel) := by
  have step := Router.step_seededLeft second out
  split
  · rename_i failed
    rw [if_pos failed] at step
    obtain ⟨channel, data⟩ := out
    obtain rfl := Channel.is_iff.1 failed
    exact resolve_of_answer step (Router.request?_eq_none_of_head rfl (by decide))
  · rename_i passed
    rw [if_neg passed] at step
    split
    · rename_i done
      rw [if_pos done] at step
      rw [resolve_of_request step (Router.request?_prefixed _), product_advance_right,
        bind_map_left]
      rfl
    · rename_i odd
      rw [if_neg odd] at step
      exact resolve_of_refusal step

/-- A pair on `result` sets the left half and, if that is done, the right one. -/
theorem bound_advance_seed (first second : Data) :
    (bound (l.product r)).advance ⟨.start, s⟩ (.result (.array [first, second])) =
      l.advance s.left (Router.setTo first) >>= fun turn =>
        resolve (l.product r) (.awaitingInit (some second)) ⟨turn.1, s.right⟩
          (inward leftName turn.2) := by
  have step := Router.step_seed first second
  refine (resolve_of_request step (Router.request?_prefixed _)).trans ?_
  rw [product_advance_left, bind_map_left]
  rfl

end Product

/-! ## Runs of requests -/

/-- The machine answers all of the inputs as in `Answers`, and the empty channel
carries none of the inputs and none of the outputs. -/
inductive Converses (m : Machine σ) : σ → List Message → List Message → σ → Prop
  | nil {s : σ} : Converses m s [] [] s
  | cons {s next last : σ} {input out : Message} {inputs outs : List Message}
      (asked : input.channel.isEmpty = false) (ends : (m.advance s input).Ends (.ok (next, out)))
      (said : out.channel.isEmpty = false) (rest : Converses m next inputs outs last) :
      Converses m s (input :: inputs) (out :: outs) last

variable {l : Machine σ} {r : Machine τ} {s : Halves σ τ}

theorem bound_refuses_blank (inner : Machine σ) (state : σ) (f : Facet) {own : Message}
    (blank : own.channel.isEmpty = true) :
    (bound inner).advance ⟨.start, state⟩ (own.prefixed f.name) =
      Turn.fault (.invalidChannel "start" (own.prefixed f.name).channel) := by
  obtain ⟨⟨segments⟩, data⟩ := own
  obtain rfl : segments = [] := List.isEmpty_iff.1 blank
  refine resolve_of_refusal ?_
  cases f with
  | first => rfl
  | second => rfl

/-- A turn whose answer on the empty channel is a fault. -/
theorem ends_if_said {α : Type} {t : Turn (σ × Message)} {fault : Fault} {f : σ × Message → α}
    {a : α} :
    (t >>= fun turn => if turn.2.channel.isEmpty then Turn.fault fault else pure (f turn)).Ends
        (.ok a) ↔
      ∃ next out, t.Ends (.ok (next, out)) ∧ out.channel.isEmpty = false ∧ a = f (next, out) := by
  rw [Turn.ends_bind_ok]
  constructor
  · rintro ⟨⟨next, out⟩, ends, rest⟩
    dsimp only at rest
    split at rest
    · cases Turn.ends_fault.1 rest
    · rename_i said
      have same := Except.ok.inj (Turn.ends_pure.1 rest)
      exact ⟨next, out, ends, Bool.eq_false_iff.2 said, same⟩
  · rintro ⟨next, out, ends, said, rfl⟩
    refine ⟨(next, out), ends, ?_⟩
    simp only [said, Bool.false_eq_true, if_false, Turn.ends_pure]

theorem bound_ends_first {own out : Message} {next : Bound (Halves σ τ)} :
    ((bound (l.product r)).advance ⟨.start, s⟩ (own.prefixed Facet.first.name)).Ends
        (.ok (next, out)) ↔
      own.channel.isEmpty = false ∧ ∃ state answer,
        (l.advance s.left own).Ends (.ok (state, answer)) ∧ answer.channel.isEmpty = false ∧
          (next, out) = (⟨.start, ⟨state, s.right⟩⟩, answer.prefixed Facet.first.name) := by
  cases more : own.channel.isEmpty with
  | true =>
      rw [bound_refuses_blank _ _ .first more, Turn.ends_fault]
      simp
  | false =>
      rw [bound_advance_first more, ends_if_said]
      simp

theorem bound_ends_second {own out : Message} {next : Bound (Halves σ τ)} :
    ((bound (l.product r)).advance ⟨.start, s⟩ (own.prefixed Facet.second.name)).Ends
        (.ok (next, out)) ↔
      own.channel.isEmpty = false ∧ ∃ state answer,
        (r.advance s.right own).Ends (.ok (state, answer)) ∧ answer.channel.isEmpty = false ∧
          (next, out) = (⟨.start, ⟨s.left, state⟩⟩, answer.prefixed Facet.second.name) := by
  cases more : own.channel.isEmpty with
  | true =>
      rw [bound_refuses_blank _ _ .second more, Turn.ends_fault]
      simp
  | false =>
      rw [bound_advance_second more, ends_if_said]
      simp

/-- Of a run of requests each half sees the part on its facet. -/
theorem Answers.facets {ms outs : List Message} {last : Bound (Halves σ τ)}
    (h : (bound (l.product r)).Answers ⟨.start, s⟩ ms outs last)
    (carried : ∀ m ∈ ms, Facet.Carries m) :
    last.router = .start ∧
      l.Converses s.left (allBehind Facet.first.name ms) (allBehind Facet.first.name outs)
        last.inner.left ∧
      r.Converses s.right (allBehind Facet.second.name ms) (allBehind Facet.second.name outs)
        last.inner.right ∧
      List.Forall₂ Facet.Shared ms outs := by
  generalize now : (⟨.start, s⟩ : Bound (Halves σ τ)) = b at h
  induction h generalizing s with
  | nil =>
      subst now
      exact ⟨rfl, .nil, .nil, .nil⟩
  | @cons b next last message out ms outs ends rest ih =>
      subst now
      obtain ⟨⟨f, own, rfl⟩, later⟩ := List.forall_mem_cons.1 carried
      cases f with
      | first =>
          obtain ⟨asked, state, answer, turn, said, same⟩ := bound_ends_first.1 ends
          obtain ⟨rfl, rfl⟩ := Prod.mk.inj same
          obtain ⟨router, left, right, shared⟩ := ih later rfl
          rw [Message.allBehind_cons_same, Message.allBehind_cons_same,
            Message.allBehind_cons_of_ne Facet.first_ne_second,
            Message.allBehind_cons_of_ne Facet.first_ne_second]
          have together : Facet.Shared _ _ := ⟨.first, own, answer, rfl, rfl⟩
          exact ⟨router, .cons asked turn said left, right, .cons together shared⟩
      | second =>
          obtain ⟨asked, state, answer, turn, said, same⟩ := bound_ends_second.1 ends
          obtain ⟨rfl, rfl⟩ := Prod.mk.inj same
          obtain ⟨router, left, right, shared⟩ := ih later rfl
          rw [Message.allBehind_cons_same, Message.allBehind_cons_same,
            Message.allBehind_cons_of_ne Facet.first_ne_second.symm,
            Message.allBehind_cons_of_ne Facet.first_ne_second.symm]
          have together : Facet.Shared _ _ := ⟨.second, own, answer, rfl, rfl⟩
          exact ⟨router, left, .cons asked turn said right, .cons together shared⟩

/-- A run of each half makes a run for any order of their requests. -/
theorem answers_of_facets {ms outsLeft outsRight : List Message} {t : Halves σ τ}
    (carried : ∀ m ∈ ms, Facet.Carries m)
    (left : l.Converses s.left (allBehind Facet.first.name ms) outsLeft t.left)
    (right : r.Converses s.right (allBehind Facet.second.name ms) outsRight t.right) :
    ∃ outs, (bound (l.product r)).Answers ⟨.start, s⟩ ms outs ⟨.start, t⟩ ∧
      allBehind Facet.first.name outs = outsLeft ∧
      allBehind Facet.second.name outs = outsRight := by
  induction ms generalizing s outsLeft outsRight with
  | nil =>
      obtain ⟨left_, right_⟩ := s
      obtain ⟨left', right'⟩ := t
      cases left
      cases right
      exact ⟨[], .nil, rfl, rfl⟩
  | cons message ms ih =>
      obtain ⟨⟨f, own, rfl⟩, later⟩ := List.forall_mem_cons.1 carried
      cases f with
      | first =>
          rw [Message.allBehind_cons_same] at left
          rw [Message.allBehind_cons_of_ne Facet.first_ne_second] at right
          cases left with
          | @cons _ state _ _ answer _ outsLeft asked turn said left =>
              obtain ⟨outs, answers, rfl, rfl⟩ := ih (s := ⟨state, s.right⟩) later left right
              have ends := (bound_ends_first (r := r)).2 ⟨asked, state, answer, turn, said, rfl⟩
              refine ⟨_, .cons ends answers, ?_, ?_⟩
              · rw [Message.allBehind_cons_same]
              · rw [Message.allBehind_cons_of_ne Facet.first_ne_second]
      | second =>
          rw [Message.allBehind_cons_of_ne Facet.first_ne_second.symm] at left
          rw [Message.allBehind_cons_same] at right
          cases right with
          | @cons _ state _ _ answer _ outsRight asked turn said right =>
              obtain ⟨outs, answers, rfl, rfl⟩ := ih (s := ⟨s.left, state⟩) later left right
              have ends := (bound_ends_second (l := l)).2 ⟨asked, state, answer, turn, said, rfl⟩
              refine ⟨_, .cons ends answers, ?_, ?_⟩
              · rw [Message.allBehind_cons_of_ne Facet.first_ne_second.symm]
              · rw [Message.allBehind_cons_same]

/-- A bound product is its two halves: a request to a facet is a turn of one of them,
a pair on `result` sets both, and requests to different facets commute. -/
theorem facets_are_halves (l : Machine σ) (r : Machine τ) (s : Halves σ τ) :
    (∀ own : Message, own.channel.isEmpty = false →
      (bound (l.product r)).advance ⟨.start, s⟩ (own.prefixed Router.firstName) =
        l.advance s.left own >>= fun turn =>
          if turn.2.channel.isEmpty then
            Turn.fault (.invalidChannel "awaiting_first" (Router.side leftName))
          else pure (⟨.start, ⟨turn.1, s.right⟩⟩, turn.2.prefixed Router.firstName)) ∧
    (∀ own : Message, own.channel.isEmpty = false →
      (bound (l.product r)).advance ⟨.start, s⟩ (own.prefixed Router.secondName) =
        r.advance s.right own >>= fun turn =>
          if turn.2.channel.isEmpty then
            Turn.fault (.invalidChannel "awaiting_second" (Router.side rightName))
          else pure (⟨.start, ⟨s.left, turn.1⟩⟩, turn.2.prefixed Router.secondName)) ∧
    (∀ a b : Data,
      (bound (l.product r)).advance ⟨.start, s⟩ (.result (.array [a, b])) =
        l.advance s.left ⟨⟨["set"]⟩, a⟩ >>= fun first =>
          if first.2.channel = .err then pure (⟨.start, ⟨first.1, s.right⟩⟩, first.2)
          else if first.2.channel = .result then
            r.advance s.right ⟨⟨["set"]⟩, b⟩ >>= fun second =>
              if second.2.channel = .err then
                pure (⟨.start, ⟨first.1, second.1⟩⟩, second.2)
              else if second.2.channel = .result then
                pure (⟨.start, ⟨first.1, second.1⟩⟩, .result .null)
              else Turn.fault (.invalidChannel "awaiting_init"
                (inward rightName second.2).channel)
          else Turn.fault (.invalidChannel "awaiting_init" (inward leftName first.2).channel)) ∧
    ∀ (ms ms' outs : List Message) (last : Bound (Halves σ τ)),
      (∀ m ∈ ms, Facet.Carries m) → ms.Perm ms' →
      (∀ f : Facet, allBehind f.name ms' = allBehind f.name ms) →
      (bound (l.product r)).Answers ⟨.start, s⟩ ms outs last →
      ∃ outs', (bound (l.product r)).Answers ⟨.start, s⟩ ms' outs' last ∧
        (∀ f : Facet, allBehind f.name outs' = allBehind f.name outs) ∧
        List.Forall₂ Facet.Shared ms outs ∧ List.Forall₂ Facet.Shared ms' outs' := by
  refine ⟨fun own more => bound_advance_first more, fun own more => bound_advance_second more,
    fun a b => ?_, fun ms ms' outs last carried perm same answers => ?_⟩
  · rw [bound_advance_seed]
    refine congrArg (l.advance s.left (Router.setTo a) >>= ·) (funext fun first => ?_)
    rw [resolve_seededLeft]
    simp only [resolve_seededRight, Channel.is_iff]
    rfl
  · obtain ⟨router, left, right, shared⟩ := answers.facets carried
    obtain ⟨last, t⟩ := last
    obtain rfl : last = .start := router
    have carried' : ∀ m ∈ ms', Facet.Carries m := fun m mem => carried m (perm.mem_iff.2 mem)
    rw [← same .first] at left
    rw [← same .second] at right
    obtain ⟨outs', answers', first, second⟩ := answers_of_facets carried' left right
    obtain ⟨_, _, _, shared'⟩ := answers'.facets carried'
    refine ⟨outs', answers', fun f => ?_, shared, shared'⟩
    cases f with
    | first => exact first
    | second => exact second

/-- Two cells as facets: each is read and written on its own, in either order. -/
theorem facets_of_cells :
    let shared := bound (cell.product cell)
    let s : Halves Cell Cell := ⟨⟨.null⟩, ⟨.null⟩⟩
    let copy : Message := ⟨⟨["copy"]⟩, .null⟩
    let writing (value : Data) : Message := ⟨⟨["set"]⟩, value⟩
    (shared.advance ⟨.start, s⟩ (copy.prefixed Router.firstName)).Ends
        (.ok (⟨.start, s⟩, (Message.result .null).prefixed Router.firstName)) ∧
      (shared.advance ⟨.start, s⟩ (copy.prefixed Router.secondName)).Ends
        (.ok (⟨.start, s⟩, (Message.result .null).prefixed Router.secondName)) ∧
      ∃ outs, shared.Answers ⟨.start, s⟩
        [(writing (.bool true)).prefixed Router.secondName,
          (writing (.bool false)).prefixed Router.firstName]
        outs ⟨.start, ⟨⟨.bool false⟩, ⟨.bool true⟩⟩⟩ := by
  intro shared s copy writing
  obtain ⟨first, second, _, orders⟩ := facets_are_halves cell cell s
  let onFirst := (writing (.bool false)).prefixed Router.firstName
  let onSecond := (writing (.bool true)).prefixed Router.secondName
  refine ⟨?_, ?_, ?_⟩
  · rw [first copy rfl]
    exact ⟨0, rfl⟩
  · rw [second copy rfl]
    exact ⟨0, rfl⟩
  · have set₁ : (shared.advance ⟨.start, s⟩ onFirst).Ends
        (.ok (⟨.start, ⟨⟨.bool false⟩, ⟨.null⟩⟩⟩,
          (Message.result .null).prefixed Router.firstName)) :=
      bound_ends_first.2 ⟨rfl, _, _, ⟨0, rfl⟩, rfl, rfl⟩
    have set₂ : (shared.advance ⟨.start, ⟨⟨.bool false⟩, ⟨.null⟩⟩⟩ onSecond).Ends
        (.ok (⟨.start, ⟨⟨.bool false⟩, ⟨.bool true⟩⟩⟩,
          (Message.result .null).prefixed Router.secondName)) :=
      bound_ends_second.2 ⟨rfl, _, _, ⟨0, rfl⟩, rfl, rfl⟩
    have carried : ∀ m ∈ [onFirst, onSecond], Facet.Carries m := by
      intro m mem
      rcases List.mem_pair.1 mem with rfl | rfl
      · exact ⟨.first, _, rfl⟩
      · exact ⟨.second, _, rfl⟩
    have same : ∀ f : Facet, allBehind f.name [onSecond, onFirst] =
        allBehind f.name [onFirst, onSecond] := by
      intro f
      cases f with
      | first => rfl
      | second => rfl
    obtain ⟨outs, swapped, _⟩ := orders _ _ _ _ carried (.swap onSecond onFirst []) same
      (.cons set₁ (.cons set₂ .nil))
    exact ⟨outs, swapped⟩

end Machine

end Switchboard
