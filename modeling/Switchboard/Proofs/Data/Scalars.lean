import Mathlib.Data.List.Forall2
import Switchboard.Data.Printing
import Switchboard.Data.Reading

/-!
# Strings and whole numbers in texts

A string is written character by character, and each is read back as it was written or as
the code unit that it was escaped to (`Document.text?_quote`).  A whole number is written
with its digits alone; they are read up to whatever may follow a value
(`Document.number?_render`), and a number of 64 bits is what they denote.
-/

namespace Switchboard

/-! ## Strings -/

namespace Document

/-- The element stands for the character.  Only characters below the blank are given as code
units. -/
inductive Element.Spells : Element → Char → Prop
  | char (c : Char) : Spells (.char c) c
  | unit {c : Char} (low : c.toNat < 0x20) : Spells (.unit c.toNat) c

/-- A code unit below the blank has two zeros and two digits of its own. -/
theorem unit?_hexDigit : ∀ n < 0x20,
    unit? '0' '0' (Data.hexDigit (n / 16)) (Data.hexDigit (n % 16)) = some n := by
  decide

theorem elements?_escapeChar (c : Char) : ∃ e : Element, e.Spells c ∧ ∀ rest held,
    elements? (Data.escapeChar c ++ rest) held = elements? rest (e :: held) := by
  unfold Data.escapeChar
  by_cases quote : c = '"'
  · subst quote
    exact ⟨_, .char _, fun _ _ => rfl⟩
  by_cases backslash : c = '\\'
  · subst backslash
    exact ⟨_, .char _, fun _ _ => rfl⟩
  rw [if_neg quote, if_neg backslash]
  split_ifs with b f n r t low
  · subst b
    exact ⟨_, .char _, fun _ _ => rfl⟩
  · subst f
    exact ⟨_, .char _, fun _ _ => rfl⟩
  · subst n
    exact ⟨_, .char _, fun _ _ => rfl⟩
  · subst r
    exact ⟨_, .char _, fun _ _ => rfl⟩
  · subst t
    exact ⟨_, .char _, fun _ _ => rfl⟩
  · refine ⟨_, .unit low, fun rest held => ?_⟩
    simp only [List.cons_append, List.nil_append, elements?, unit?_hexDigit c.toNat low]
  · refine ⟨_, .char c, fun rest held => ?_⟩
    simp only [List.singleton_append]
    rw [elements?, if_neg low]
    · exact quote
    · exact fun _ _ _ _ _ same _ => backslash same
    · exact fun _ _ same _ => backslash same

theorem elements?_escaped (text rest : List Char) (held : List Element) :
    ∃ es, List.Forall₂ Element.Spells es text ∧
      elements? (text.flatMap Data.escapeChar ++ '"' :: rest) held =
        some (held.reverse ++ es, rest) := by
  induction text generalizing held with
  | nil => exact ⟨[], .nil, by simp [elements?]⟩
  | cons c text ih =>
      obtain ⟨e, spells, read⟩ := elements?_escapeChar c
      obtain ⟨es, spelled, found⟩ := ih (e :: held)
      refine ⟨e :: es, .cons spells spelled, ?_⟩
      rw [List.flatMap_cons, List.append_assoc, read, found]
      simp

/-- A code unit below the blank is no half of a pair, whatever follows it. -/
theorem joinUnits_low {value : Nat} (low : value < 0x20) (es : List Element) (held : List Char) :
    joinUnits (.unit value :: es) held = joinUnits es (Char.ofNat value :: held) := by
  have lead : isLead value = false := by
    simp [isLead]
    omega
  have trail : isTrail value = false := by
    simp [isTrail]
    omega
  rcases es with _ | ⟨(c | next), es⟩
  · simp [joinUnits, lead, trail]
  · simp [joinUnits, lead, trail]
  · simp [joinUnits, lead, trail]

theorem joinUnits_spelled {es : List Element} {text : List Char}
    (spelled : List.Forall₂ Element.Spells es text) (held : List Char) :
    joinUnits es held = some (held.reverse ++ text) := by
  induction spelled generalizing held with
  | nil => simp [joinUnits]
  | @cons e c es text spells _ ih =>
      have read : joinUnits (e :: es) held = joinUnits es (c :: held) := by
        cases spells with
        | char => simp only [joinUnits]
        | unit low => rw [joinUnits_low low, Char.ofNat_toNat]
      rw [read, ih]
      simp

/-- A quoted string is read back, whatever follows it. -/
theorem text?_quote (text : String) (rest : List Char) :
    ∃ inside, (Data.quote text).toList ++ rest = '"' :: inside ∧
      text? inside = some (some text, rest) := by
  refine ⟨text.toList.flatMap Data.escapeChar ++ '"' :: rest, ?_, ?_⟩
  · simp [Data.quote]
  · obtain ⟨es, spelled, found⟩ := elements?_escaped text.toList rest []
    rw [text?, found]
    simp [joinUnits_spelled spelled]

end Document

/-! ## Whole numbers -/

namespace Digits

theorem run_append {digits rest : List Char} (all : ∀ c ∈ digits, c.isDigit = true)
    (stop : ∀ c ∈ rest.head?, c.isDigit = false) :
    run (digits ++ rest) = (digits.map digitOf, rest) := by
  have ends : rest.takeWhile Char.isDigit = [] ∧ rest.dropWhile Char.isDigit = rest := by
    cases rest with
    | nil => exact ⟨rfl, rfl⟩
    | cons c rest =>
        have ends : c.isDigit = false := stop c rfl
        simp [ends]
  rw [run, List.takeWhile_append_of_pos all, List.dropWhile_append_of_pos all, ends.1, ends.2,
    List.append_nil]

theorem isDigit_of_mem {n : Nat} {c : Char} (mem : c ∈ Nat.toDigits 10 n) : c.isDigit = true :=
  Nat.isDigit_of_mem_toDigits (by decide) (by decide) mem

theorem toDigits_starts (n : Nat) : ∃ c rest, Nat.toDigits 10 n = c :: rest ∧ c.isDigit = true := by
  cases digits : Nat.toDigits 10 n with
  | nil => exact (Nat.toDigits_ne_nil digits).elim
  | cons c rest => exact ⟨c, rest, rfl, isDigit_of_mem (digits ▸ List.mem_cons_self)⟩

/-- The digits of a number spell it. -/
theorem value_toDigits (n : Nat) : value ((Nat.toDigits 10 n).map digitOf) = n := by
  have spelled : Nat.ofDigitChars 10 (Nat.toDigits 10 n) 0 = n := Nat.ofDigitChars_ten_toDigits
  rw [Nat.ofDigitChars_eq_foldl] at spelled
  rw [value, List.foldl_map]
  simpa only [digitOf, Nat.mul_comm] using spelled

theorem le_foldl (digits : List Nat) (number : Nat) :
    number ≤ digits.foldl (fun number d => number * 10 + d) number := by
  induction digits generalizing number with
  | nil => exact Nat.le_refl _
  | cons d digits ih => exact Nat.le_trans (by omega) (ih (number * 10 + d))

/-- A number has no leading zero but for zero itself. -/
theorem head_toDigits {n : Nat} (positive : 0 < n) :
    ∃ d rest, (Nat.toDigits 10 n).map digitOf = d :: rest ∧ d ≠ 0 := by
  induction n using Nat.strongRecOn with
  | ind n ih =>
      by_cases small : n < 10
      · have nonzero : ∀ n < 10, 0 < n → digitOf n.digitChar ≠ 0 := by decide
        refine ⟨digitOf n.digitChar, [], ?_, nonzero n small positive⟩
        rw [Nat.toDigits_of_lt_base small]
        rfl
      · obtain ⟨d, rest, same, nonzero⟩ := ih (n / 10) (by omega) (by omega)
        refine ⟨d, rest ++ [digitOf (n % 10).digitChar], ?_, nonzero⟩
        rw [Nat.toDigits_of_base_le (by decide) (by omega), List.map_append, same]
        rfl

end Digits

namespace Document

/-- What may stand behind a value: nothing, a comma, or the end of an array or an object. -/
def Delimited (text : List Char) : Prop :=
  ∀ c ∈ text.head?, c = ',' ∨ c = ']' ∨ c = '\x7d'

namespace Delimited

variable {text : List Char}

theorem isDigit (ends : Delimited text) : ∀ c ∈ text.head?, c.isDigit = false := by
  intro c first
  obtain rfl | rfl | rfl := ends c first
  · rfl
  · rfl
  · rfl

theorem fraction?_eq (ends : Delimited text) : fraction? text = some (none, text) := by
  cases text with
  | nil => rfl
  | cons c text =>
      obtain rfl | rfl | rfl := ends c rfl
      · rfl
      · rfl
      · rfl

theorem exponent?_eq (ends : Delimited text) : exponent? text = some (none, text) := by
  cases text with
  | nil => rfl
  | cons c text =>
      obtain rfl | rfl | rfl := ends c rfl
      · rfl
      · rfl
      · rfl

end Delimited

theorem magnitude?_toDigits (negative : Bool) (n : Nat) {rest : List Char} (ends : Delimited rest) :
    magnitude? negative (Nat.toDigits 10 n ++ rest) =
      some (⟨negative, (Nat.toDigits 10 n).map Digits.digitOf, none, none⟩, rest) := by
  rw [magnitude?, Digits.run_append (fun _ => Digits.isDigit_of_mem) ends.isDigit]
  rcases Nat.eq_zero_or_pos n with rfl | positive
  · simp [ends.fraction?_eq, ends.exponent?_eq]
  · obtain ⟨d, more, same, nonzero⟩ := Digits.head_toDigits positive
    rw [same]
    simp [nonzero, ends.fraction?_eq, ends.exponent?_eq]

end Document

namespace Number

/-- A whole number of 64 bits, signed or not. -/
def Exact : Number → Prop
  | .integer value => -value ≤ Nat.pow 2 63 ∧ value < significandBound
  | .float _ => False

/-- As long as the number that digits spell is in bounds, all of them are gathered. -/
theorem gather_eq {significand : Nat} {digits : List Nat}
    (small : digits.foldl (fun number d => number * 10 + d) significand < significandBound) :
    gather significand digits =
      (digits.foldl (fun number d => number * 10 + d) significand, []) := by
  induction digits generalizing significand with
  | nil => rfl
  | cons d digits ih =>
      have below : significand * 10 + d < significandBound :=
        Nat.lt_of_le_of_lt (Digits.le_foldl digits _) small
      rw [gather, if_pos below, ih small]
      rfl

theorem ofText?_toDigits {negative : Bool} {n : Nat} {number : Number}
    (small : n < significandBound) (fits : integer? negative n = some number) :
    ofText? ⟨negative, (Nat.toDigits 10 n).map Digits.digitOf, none, none⟩ = some number := by
  have spelled := Digits.value_toDigits n
  rw [Digits.value] at spelled
  have gathered := @gather_eq 0 ((Nat.toDigits 10 n).map Digits.digitOf) (by rwa [spelled])
  rw [spelled] at gathered
  simp [ofText?, gathered, fits]

theorem toList_render_ofNat (n : Nat) :
    (render (.integer (Int.ofNat n))).toList = Nat.toDigits 10 n :=
  Nat.toList_repr

theorem toList_render_negSucc (n : Nat) :
    (render (.integer (Int.negSucc n))).toList = '-' :: Nat.toDigits 10 (n + 1) := by
  show ("-" ++ Nat.repr (n + 1)).toList = _
  rw [String.toList_append, Nat.toList_repr]
  rfl

/-- A whole number starts with a digit or a minus. -/
theorem render_starts {n : Number} (exact_ : n.Exact) :
    ∃ c text, n.render.toList = c :: text ∧ (c.isDigit = true ∨ c = '-') := by
  cases n with
  | float bits => exact exact_.elim
  | integer value =>
      cases value with
      | ofNat n =>
          obtain ⟨c, text, digits, first⟩ := Digits.toDigits_starts n
          exact ⟨c, text, (toList_render_ofNat n).trans digits, Or.inl first⟩
      | negSucc n => exact ⟨'-', _, toList_render_negSucc n, Or.inr rfl⟩

end Number

namespace Document

theorem number?_toDigits (n : Nat) {rest : List Char} (ends : Delimited rest) :
    number? (Nat.toDigits 10 n ++ rest) =
      some (⟨false, (Nat.toDigits 10 n).map Digits.digitOf, none, none⟩, rest) := by
  rw [← magnitude?_toDigits false n ends]
  obtain ⟨c, more, digits, first⟩ := Digits.toDigits_starts n
  have no_minus : c ≠ '-' := by
    rintro rfl
    cases first
  rw [digits, List.cons_append, number?]
  exact fun _ same => no_minus (List.cons.inj same).1

/-- A whole number of 64 bits is read back from its digits, up to whatever ends it. -/
theorem number?_render {n : Number} (exact_ : n.Exact) {rest : List Char}
    (ends : Delimited rest) : ∃ text, number? (n.render.toList ++ rest) = some (text, rest) ∧
      Number.ofText? text = some n := by
  cases n with
  | float bits => exact exact_.elim
  | integer value =>
      obtain ⟨low, high⟩ := exact_
      cases value with
      | ofNat n =>
          have small : n < Number.significandBound := Int.ofNat_lt.1 high
          have fits : Number.integer? false n = some (.integer (Int.ofNat n)) := rfl
          rw [Number.toList_render_ofNat]
          exact ⟨_, number?_toDigits n ends, Number.ofText?_toDigits small fits⟩
      | negSucc n =>
          have small : n + 1 ≤ Nat.pow 2 63 := Int.ofNat_le.1 low
          have below : Nat.pow 2 63 < Number.significandBound := by decide
          have fits : Number.integer? true (n + 1) = some (.integer (Int.negSucc n)) := by
            rw [Number.integer?, if_pos rfl, if_pos ⟨Nat.succ_pos n, small⟩]
            rfl
          rw [Number.toList_render_negSucc]
          exact ⟨_, magnitude?_toDigits true (n + 1) ends, Number.ofText?_toDigits (by omega) fits⟩

end Document

end Switchboard
