import Switchboard.Machine.Basic
import Switchboard.Proofs.Machine.Invariants

/-!
# Exchanges between a router and its machine

A turn of a bound machine is an exchange: the router asks, the inner machine replies,
and the reply goes back to the router.  Nothing counts the rounds, and any reply may
come, also to a router that was restored in the midst of an exchange.  `Consults` tells
an exchange call by call, without the rank that `resolve` recurses on; it makes at most
two calls (`Consults.length_le_rank`), so a turn ends if the calls it makes do
(`resolve_ends_of_calls`).

The router ends every exchange at its start, and what it says to its own caller is
`result`, `err` or an answer of a facet (`Router.addressed_of_step`).
-/

namespace Switchboard

/-! ## What a router answers -/

namespace Router

variable {s next : Router} {message out : Message}

/-- What is for the caller of a bound machine: all of it is on `result`, on `err` or
behind the name of a facet. -/
def Addressed (out : Message) : Prop :=
  out.channel = .result ∨ out.channel = .err ∨
    ∃ (f : Facet) (rest : Channel), rest.isEmpty = false ∧ out.channel = rest.prefixed f.name

/-- An exchange begins with a request. -/
theorem asks_of_begin (h : begin message = .ok (next, out)) :
    ∃ half own, out = inward half own := by
  rw [begin] at h
  split at h
  · split at h
    · rename_i first second _
      cases h
      exact ⟨Machine.leftName, setTo first, rfl⟩
    · cases h
  · split at h
    · rename_i facet rest _
      split at h
      · cases h
      · split at h
        · cases h
          exact ⟨Machine.leftName, message.withChannel rest, rfl⟩
        · split at h
          · cases h
            exact ⟨Machine.rightName, message.withChannel rest, rfl⟩
          · cases h
    · cases h

theorem addressed_of_reply {half : String} (f : Facet)
    (h : s.reply half f.name message = .ok (next, out)) : Addressed out := by
  rw [reply] at h
  split at h
  · rename_i rest _
    split at h
    · cases h
    · rename_i more
      cases h
      exact Or.inr (Or.inr ⟨f, rest, Bool.eq_false_iff.2 more, rfl⟩)
  · cases h

theorem addressed_of_seeded {pending : Option Data} (h : seeded pending message = .ok (next, out))
    (answer : request? out = none) : Addressed out := by
  simp only [seeded] at h
  split at h
  · cases h
  · split at h
    · rename_i failed
      cases h
      exact Or.inr (Or.inl (Channel.is_iff.1 failed))
    · split at h
      · cases pending with
        | some second =>
            cases h
            have asks := request?_inward Machine.rightName (setTo second)
            exact absurd (asks.symm.trans answer) (Option.some_ne_none _)
        | none =>
            cases h
            exact Or.inl rfl
      · cases h

/-- What a router does not ask of its machine is for its caller. -/
theorem addressed_of_step (h : s.step message = .ok (next, out)) (answer : request? out = none) :
    Addressed out := by
  cases s with
  | start =>
      obtain ⟨half, own, rfl⟩ := asks_of_begin h
      rw [request?_inward] at answer
      cases answer
  | awaitingFirst => exact addressed_of_reply .first h
  | awaitingSecond => exact addressed_of_reply .second h
  | awaitingInit pending => exact addressed_of_seeded h answer

theorem rank_le_two (s : Router) : s.rank ≤ 2 := by
  cases s with
  | start => exact Nat.le_refl 2
  | awaitingFirst => exact Nat.zero_le 2
  | awaitingSecond => exact Nat.zero_le 2
  | awaitingInit pending =>
      cases pending with
      | none => exact Nat.zero_le 2
      | some second => exact Nat.le_succ 1

end Router

/-! ## Calls of the inner machine -/

namespace Machine

open Router (innerName)

variable {σ : Type} {m : Machine σ}

/-- From a message on, a router has made some calls of the machine bound to it, each
with a request in a state, and the exchange has come to an outcome or its last call is
still under way. -/
inductive Consults (m : Machine σ) : Router → σ → Message → List (σ × Message) →
    Option (Except Stop (Bound σ × Message)) → Prop
  | refuse {router : Router} {s : σ} {message : Message} {fault : Fault}
      (step : router.step message = .error fault) :
      Consults m router s message [] (some (.error (.fault fault)))
  | answer {router next : Router} {s : σ} {message out : Message}
      (step : router.step message = .ok (next, out)) (plain : Router.request? out = none) :
      Consults m router s message [] (some (.ok (⟨next, s⟩, out)))
  | call {router next : Router} {s : σ} {message out request : Message}
      (step : router.step message = .ok (next, out))
      (asks : Router.request? out = some request) :
      Consults m router s message [(s, request)] none
  | stop {router next : Router} {s : σ} {message out request : Message} {stop : Stop}
      (step : router.step message = .ok (next, out))
      (asks : Router.request? out = some request)
      (stops : (m.advance s request).Ends (.error stop)) :
      Consults m router s message [(s, request)] (some (.error stop))
  | reply {router next : Router} {s t : σ} {message out request back : Message}
      {calls : List (σ × Message)} {progress : Option (Except Stop (Bound σ × Message))}
      (step : router.step message = .ok (next, out))
      (asks : Router.request? out = some request)
      (replies : (m.advance s request).Ends (.ok (t, back)))
      (later : Consults m next t (back.prefixed innerName) calls progress) :
      Consults m router s message ((s, request) :: calls) progress

variable {router : Router} {s : σ} {message : Message} {calls : List (σ × Message)}

/-- Each call lowers the rank of the router. -/
theorem Consults.length_le_rank {progress : Option (Except Stop (Bound σ × Message))}
    (h : m.Consults router s message calls progress) : calls.length ≤ router.rank := by
  induction h with
  | refuse _ => exact Nat.zero_le _
  | answer _ _ => exact Nat.zero_le _
  | call step asks => exact Nat.zero_lt_of_lt (Router.rank_lt_of_request step asks)
  | stop step asks _ => exact Nat.zero_lt_of_lt (Router.rank_lt_of_request step asks)
  | reply step asks _ _ ih => exact Nat.lt_of_le_of_lt ih (Router.rank_lt_of_request step asks)

theorem Consults.ends {outcome : Except Stop (Bound σ × Message)}
    (h : m.Consults router s message calls (some outcome)) :
    (resolve m router s message).Ends outcome := by
  generalize ended : some outcome = progress at h
  induction h with
  | refuse step =>
      cases ended
      rw [resolve_of_refusal step]
      exact Turn.ends_fault.2 rfl
  | answer step plain =>
      cases ended
      rw [resolve_of_answer step plain]
      exact Turn.ends_pure.2 rfl
  | call _ _ => cases ended
  | stop step asks stops =>
      cases ended
      rw [resolve_of_request step asks]
      exact stops.bind_stop _
  | reply step asks replies _ ih =>
      rw [resolve_of_request step asks]
      exact Turn.ends_bind.2 (Or.inr ⟨_, replies, ih ended⟩)

theorem exists_consults {outcome : Except Stop (Bound σ × Message)}
    (ends : (resolve m router s message).Ends outcome) :
    ∃ calls, m.Consults router s message calls (some outcome) := by
  induction rank : router.rank using Nat.strongRecOn generalizing router s message with
  | _ bound ih =>
      cases step : router.step message with
      | error fault =>
          rw [resolve_of_refusal step] at ends
          obtain rfl := Turn.ends_fault.1 ends
          exact ⟨[], .refuse step⟩
      | ok moved =>
          obtain ⟨next, out⟩ := moved
          cases asks : Router.request? out with
          | none =>
              rw [resolve_of_answer step asks] at ends
              obtain rfl := Turn.ends_pure.1 ends
              exact ⟨[], .answer step asks⟩
          | some request =>
              rw [resolve_of_request step asks] at ends
              rcases Turn.ends_bind.1 ends with ⟨stop, stops, rfl⟩ | ⟨turn, replies, rest⟩
              · exact ⟨[(s, request)], .stop step asks stops⟩
              · have below : next.rank < bound := rank ▸ Router.rank_lt_of_request step asks
                obtain ⟨calls, later⟩ := ih next.rank below rest rfl
                exact ⟨(s, request) :: calls, .reply step asks replies later⟩

/-- An exchange hangs on nothing but a call that does not return. -/
theorem resolve_ends_of_calls
    (returns : ∀ calls t request, m.Consults router s message (calls ++ [(t, request)]) none →
      ∃ turn, (m.advance t request).Ends turn) :
    ∃ outcome, (resolve m router s message).Ends outcome := by
  induction rank : router.rank using Nat.strongRecOn generalizing router s message with
  | _ bound ih =>
      cases step : router.step message with
      | error fault => exact ⟨_, (Consults.refuse step).ends⟩
      | ok moved =>
          obtain ⟨next, out⟩ := moved
          cases asks : Router.request? out with
          | none => exact ⟨_, (Consults.answer step asks).ends⟩
          | some request =>
              obtain ⟨turn, ends⟩ := returns [] s request (.call step asks)
              rw [resolve_of_request step asks]
              rcases turn with stop | ⟨t, back⟩
              · exact ⟨_, ends.bind_stop _⟩
              · have below : next.rank < bound := rank ▸ Router.rank_lt_of_request step asks
                have later : ∀ calls u request',
                    m.Consults next t (back.prefixed innerName) (calls ++ [(u, request')]) none →
                      ∃ turn, (m.advance u request').Ends turn :=
                  fun calls u request' under =>
                    returns ((s, request) :: calls) u request' (.reply step asks ends under)
                obtain ⟨outcome, rest⟩ := ih next.rank below later rfl
                exact ⟨outcome, Turn.ends_bind.2 (Or.inr ⟨_, ends, rest⟩)⟩

theorem Consults.addressed {b : Bound σ} {out : Message}
    (h : m.Consults router s message calls (some (.ok (b, out)))) : Router.Addressed out := by
  generalize ended : some (Except.ok (b, out)) = progress at h
  induction h with
  | refuse _ => cases ended
  | answer step plain =>
      cases ended
      exact Router.addressed_of_step step plain
  | call _ _ => cases ended
  | stop _ _ _ => cases ended
  | reply _ _ _ _ ih => exact ih ended

/-- Whatever its inner machine replies and whatever its router waits for, a bound machine
makes at most two calls in a turn, and the turn ends if they do.  It ends with the router
at the start, where it is in every state reached from the start, and with an answer on
`result`, on `err` or on a facet. -/
theorem bound_comes_to_rest (m : Machine σ) (b : Bound σ) (message : Message) :
    (∀ calls progress, m.Consults b.router b.inner message calls progress → calls.length ≤ 2) ∧
    (∀ outcome, (m.bound.advance b message).Ends outcome ↔
      ∃ calls, m.Consults b.router b.inner message calls (some outcome)) ∧
    ((∀ calls t request, m.Consults b.router b.inner message (calls ++ [(t, request)]) none →
        ∃ turn, (m.advance t request).Ends turn) →
      ∃ outcome, (m.bound.advance b message).Ends outcome) ∧
    (∀ next out, (m.bound.advance b message).Ends (.ok (next, out)) →
      next.router = .start ∧
        (out.channel = .result ∨ out.channel = .err ∨
          ∃ rest : Channel, rest.isEmpty = false ∧
            (out.channel = rest.prefixed Router.firstName ∨
              out.channel = rest.prefixed Router.secondName))) ∧
    (m.bound.Reaches m.bound.start b → b.router = .start) := by
  refine ⟨fun calls progress h => Nat.le_trans h.length_le_rank b.router.rank_le_two,
    fun outcome => ⟨exists_consults, fun ⟨calls, h⟩ => h.ends⟩, resolve_ends_of_calls,
    fun next out ends => ⟨(resolve_reaches ends).1, ?_⟩, fun reached => ?_⟩
  · obtain ⟨calls, consults⟩ := exists_consults ends
    rcases consults.addressed with done | failed | ⟨f, rest, more, same⟩
    · exact Or.inl done
    · exact Or.inr (Or.inl failed)
    · refine Or.inr (Or.inr ⟨rest, more, ?_⟩)
      cases f with
      | first => exact Or.inl same
      | second => exact Or.inr same
  · exact ((bound_keeps m).reaches (bound_keeps m).start reached).1

/-- A machine that only takes a `set` of its left half for done: both halves are asked to
seed them, and the second reply is not understood. -/
theorem relabelled_comes_to_rest :
    let m := relabel ⟨["left", "set"]⟩ ⟨["left", "result"]⟩
    let b : Bound Stateless := ⟨.start, .ready⟩
    let seeding : Message := .result (.array [.bool true, .null])
    let calls : List (Stateless × Message) :=
      [(.ready, ⟨⟨["left", "set"]⟩, .bool true⟩), (.ready, ⟨⟨["right", "set"]⟩, .null⟩)]
    (m.Consults b.router b.inner seeding calls none ∧ calls.length ≤ 2) ∧
      (∃ outcome, (m.bound.advance b seeding).Ends outcome) ∧
      (∃ next out, (m.bound.advance b ⟨⟨["first", "set"]⟩, .null⟩).Ends (.ok (next, out)) ∧
        next.router = .start) ∧
      m.bound.Reaches m.bound.start b ∧ b.router = .start := by
  intro m b seeding calls
  obtain ⟨few, _, returns, _, reached⟩ := bound_comes_to_rest m b seeding
  obtain ⟨_, _, _, rests, _⟩ := bound_comes_to_rest m b ⟨⟨["first", "set"]⟩, .null⟩
  have replies : ∀ s request, ∃ turn, (m.advance s request).Ends turn :=
    fun s request => ⟨_, Turn.ends_pure.2 rfl⟩
  have two : m.Consults b.router b.inner seeding calls none :=
    .reply rfl rfl (Turn.ends_pure.2 rfl) (.call rfl rfl)
  have answered : (m.bound.advance b ⟨⟨["first", "set"]⟩, .null⟩).Ends
      (.ok (b, ⟨⟨["first", "result"]⟩, .null⟩)) :=
    Consults.ends (.reply rfl rfl (Turn.ends_pure.2 rfl) (.answer rfl rfl))
  have start : m.bound.Reaches m.bound.start b := .refl _ _
  exact ⟨⟨two, few calls none two⟩, returns fun _ t request _ => replies t request,
    ⟨_, _, answered, (rests _ _ answered).1⟩, start, reached start⟩

end Machine

end Switchboard
