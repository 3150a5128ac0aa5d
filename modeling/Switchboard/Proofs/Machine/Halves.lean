import Switchboard.Machine.Product
import Switchboard.Proofs.Iteration
import Switchboard.Proofs.Machine.Runs

/-!
# The halves of a product

A message on `left/...` or `right/...` is a message of one half with a segment in
front, and a turn of the product is a turn of that half (`product_advance_left`,
`product_advance_right`); any other message is refused.  So of what goes into a
product and comes out of it, each half sees its own messages only
(`Machine.Answers.halves`).
-/

namespace Switchboard

namespace Message

/-- What a message is behind its leading segment, if that is the given one. -/
def behind? (segment : String) (message : Message) : Option Message :=
  match message.channel.uncons? with
  | some (first, rest) => if first = segment then some ⟨rest, message.data⟩ else none
  | none => none

theorem behind?_prefixed (segment other : String) (own : Message) :
    (own.prefixed other).behind? segment = if other = segment then some own else none := rfl

theorem behind?_eq_some_iff {segment : String} {message own : Message} :
    message.behind? segment = some own ↔ message = own.prefixed segment := by
  constructor
  · intro found
    obtain ⟨⟨segments⟩, data⟩ := message
    cases segments with
    | nil => cases found
    | cons first rest =>
        rw [behind?] at found
        simp only [Channel.uncons?, Option.ite_none_right_eq_some, Option.some.injEq] at found
        obtain ⟨rfl, rfl⟩ := found
        rfl
  · rintro rfl
    rw [behind?_prefixed, if_pos rfl]

/-- The messages whose leading segment is the given one, without it. -/
def allBehind (segment : String) (messages : List Message) : List Message :=
  messages.filterMap (behind? segment)

theorem allBehind_cons_same (segment : String) (own : Message) (rest : List Message) :
    allBehind segment (own.prefixed segment :: rest) = own :: allBehind segment rest := by
  rw [allBehind, List.filterMap_cons, behind?_prefixed, if_pos rfl]
  rfl

theorem allBehind_cons_of_ne {segment other : String} (ne : other ≠ segment) (own : Message)
    (rest : List Message) :
    allBehind segment (own.prefixed other :: rest) = allBehind segment rest := by
  rw [allBehind, List.filterMap_cons, behind?_prefixed, if_neg ne]
  rfl

end Message

namespace Machine

variable {σ τ : Type} {l : Machine σ} {r : Machine τ} {s last : Halves σ τ}

theorem left_ne_right : leftName ≠ rightName := by decide

theorem product_advance_left (own : Message) :
    (l.product r).advance s (own.prefixed leftName) =
      (fun turn => (⟨turn.1, s.right⟩, turn.2.prefixed leftName)) <$> l.advance s.left own := by
  simp [product, Message.prefixed, Message.withChannel, Channel.prefixed, Channel.uncons?]

theorem product_advance_right (own : Message) :
    (l.product r).advance s (own.prefixed rightName) =
      (fun turn => (⟨s.left, turn.1⟩, turn.2.prefixed rightName)) <$> r.advance s.right own := by
  simp [product, Message.prefixed, Message.withChannel, Channel.prefixed, Channel.uncons?,
    left_ne_right.symm]

theorem product_advance_stray {message : Message} (left : message.behind? leftName = none)
    (right : message.behind? rightName = none) :
    (l.product r).advance s message = Turn.fault (.invalidChannel "product" message.channel) := by
  rw [Message.behind?] at left right
  simp only [product]
  cases split : message.channel.uncons? with
  | none => rfl
  | some p =>
      obtain ⟨first, rest⟩ := p
      simp only [split, ite_eq_right_iff, reduceCtorEq, imp_false] at left right
      simp only [if_neg left, if_neg right]

/-- What a product answers, one of its halves has answered. -/
theorem product_answers {next : Halves σ τ} {input out : Message}
    (h : ((l.product r).advance s input).Ends (.ok (next, out))) :
    (∃ own answer, input = own.prefixed leftName ∧ out = answer.prefixed leftName ∧
      (l.advance s.left own).Ends (.ok (next.left, answer)) ∧ next.right = s.right) ∨
    ∃ own answer, input = own.prefixed rightName ∧ out = answer.prefixed rightName ∧
      (r.advance s.right own).Ends (.ok (next.right, answer)) ∧ next.left = s.left := by
  cases left : input.behind? leftName with
  | some own =>
      obtain rfl := Message.behind?_eq_some_iff.1 left
      rw [product_advance_left, Turn.ends_map_ok] at h
      obtain ⟨⟨state, answer⟩, ends, same⟩ := h
      cases same
      exact Or.inl ⟨own, answer, rfl, rfl, ends, rfl⟩
  | none =>
      cases right : input.behind? rightName with
      | some own =>
          obtain rfl := Message.behind?_eq_some_iff.1 right
          rw [product_advance_right, Turn.ends_map_ok] at h
          obtain ⟨⟨state, answer⟩, ends, same⟩ := h
          cases same
          exact Or.inr ⟨own, answer, rfl, rfl, ends, rfl⟩
      | none =>
          rw [product_advance_stray left right, Turn.ends_fault] at h
          cases h

/-- A product that answers all of its inputs has two halves that answer theirs,
and everything it says is said by one of them. -/
theorem Answers.halves {inputs outs : List Message}
    (h : (l.product r).Answers s inputs outs last) :
    l.Answers s.left (Message.allBehind leftName inputs) (Message.allBehind leftName outs)
        last.left ∧
      r.Answers s.right (Message.allBehind rightName inputs) (Message.allBehind rightName outs)
        last.right ∧
      ∀ out ∈ outs, ∃ own : Message,
        out = own.prefixed leftName ∨ out = own.prefixed rightName := by
  induction h with
  | nil => exact ⟨.nil, .nil, fun out mem => (List.not_mem_nil mem).elim⟩
  | @cons s next last input out inputs outs ends _ ih =>
      obtain ⟨left, right, sided⟩ := ih
      rcases product_answers ends with ⟨own, answer, rfl, rfl, turn, kept⟩ |
        ⟨own, answer, rfl, rfl, turn, kept⟩
      · rw [Message.allBehind_cons_same, Message.allBehind_cons_same,
          Message.allBehind_cons_of_ne left_ne_right, Message.allBehind_cons_of_ne left_ne_right]
        exact ⟨.cons turn left, kept ▸ right, List.forall_mem_cons.2 ⟨⟨answer, Or.inl rfl⟩, sided⟩⟩
      · rw [Message.allBehind_cons_same, Message.allBehind_cons_same,
          Message.allBehind_cons_of_ne left_ne_right.symm,
          Message.allBehind_cons_of_ne left_ne_right.symm]
        exact ⟨kept ▸ left, .cons turn right, List.forall_mem_cons.2 ⟨⟨answer, Or.inr rfl⟩, sided⟩⟩

end Machine

end Switchboard
