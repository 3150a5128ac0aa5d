import Switchboard.Grammar
import Switchboard.Grammar.Mismatch

/-!
# Where a match takes place

A node is matched at a position of a transcript.  Each channel of a product is
matched against its own share of the transcript, in a scope of its own; that
scope still knows which loops are open around it.

A loop that is entered again with nothing consumed in between would be entered
for ever.  `Scope.reentered` recognises it: the loop is open at the same
position of the same scope, or open around it with the same tokens left.
-/

namespace Switchboard

/-- The number of tokens matched, or why nothing matches. -/
abbrev Verdict : Type :=
  Except Mismatch Nat

/-- A loop open in an enclosing scope, with the tokens it still had to match. -/
structure OpenLoop where
  node : NodeId
  rest : List String
deriving DecidableEq

/-- The loops open in one scope, each with the position where it was entered. -/
abbrev Active : Type :=
  List (NodeId × Nat)

structure Scope where
  tokens : List String
  enclosing : List OpenLoop
deriving DecidableEq

namespace Scope

/-- The scope of a whole transcript. -/
def outermost (tokens : List String) : Scope :=
  ⟨tokens, []⟩

/-- Whether a loop is open already with the same tokens left. -/
def reentered (s : Scope) (active : Active) (id : NodeId) (position : Nat) : Bool :=
  active.contains (id, position) ||
    s.enclosing.any fun o => o.node = id && o.rest = s.tokens.drop position

/-- The loops open here, as scopes inside this one see them. -/
def openLoops (s : Scope) (active : Active) : List OpenLoop :=
  s.enclosing ++ active.map fun (id, position) => ⟨id, s.tokens.drop position⟩

theorem reentered_iff {s : Scope} {active : Active} {id : NodeId} {position : Nat} :
    s.reentered active id position = true ↔
      (id, position) ∈ active ∨ ⟨id, s.tokens.drop position⟩ ∈ s.enclosing := by
  rw [reentered, Bool.or_eq_true, List.contains_iff_mem, List.any_eq_true]
  refine or_congr_right ⟨?_, fun mem => ⟨_, mem, by simp⟩⟩
  rintro ⟨⟨node, rest⟩, mem, same⟩
  rw [Bool.and_eq_true, decide_eq_true_eq, decide_eq_true_eq] at same
  obtain ⟨rfl, rfl⟩ := same
  exact mem

theorem mem_openLoops {s : Scope} {active : Active} {o : OpenLoop} :
    o ∈ s.openLoops active ↔
      o ∈ s.enclosing ∨ ∃ entry ∈ active, ⟨entry.1, s.tokens.drop entry.2⟩ = o := by
  rw [openLoops, List.mem_append, List.mem_map]

end Scope

/-- A match of a whole transcript must leave no tokens over. -/
def exactly (tokens : List String) : Verdict → Except Mismatch Unit
  | .error reason => .error reason
  | .ok matched =>
      if matched < tokens.length then .error (.trailing (tokens.drop matched)) else .ok ()

/-- Splits at the first slash, if there is one. -/
def splitSlash? : List Char → Option (List Char × List Char)
  | [] => none
  | c :: rest =>
      if c = '/' then some ([], rest)
      else (splitSlash? rest).map fun (front, back) => (c :: front, back)

/-- The channel of a product that a token carries, and its value there. -/
def tag? (channels : Keyed NodeId) (token : String) : Option (String × String) :=
  match splitSlash? token.toList with
  | none => none
  | some (front, back) =>
      let channel := String.ofList front
      if channels.contains channel then some (channel, String.ofList back) else none

end Switchboard
