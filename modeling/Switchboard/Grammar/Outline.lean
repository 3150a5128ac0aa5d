import Switchboard.Grammar

/-!
# Outlines

The outline of a node unfolds it into a tree.  A loop is unfolded where it is
met first, also when that is inside another loop's body, and only referred to
afterwards.

The unfolding ends whenever every cycle of references passes through a loop:
between two loops that are unfolded a path meets a node at most once.  For other
grammars there is no outline.
-/

namespace Switchboard

inductive Outline where
  | emit (token : String)
  | sequence (parts : List Outline)
  | choice (branches : List (String × Outline))
  | product (channels : List (String × Outline))
  | loop (id : NodeId) (body : Option Outline)
  | again (id : NodeId)
  | unknown (id : NodeId)

namespace Outline

mutual

def render : Outline → String
  | .emit token => "emit(" ++ token ++ ")"
  | .sequence parts => "[" ++ renderParts parts ++ "]"
  | .choice branches => "choice\x7b" ++ renderEntries branches ++ "\x7d"
  | .product channels => "product\x7b" ++ renderEntries channels ++ "\x7d"
  | .loop id none => "loop@" ++ toString id ++ "(?)"
  | .loop id (some body) => "loop@" ++ toString id ++ "(" ++ render body ++ ")"
  | .again id => "@" ++ toString id
  | .unknown id => "unknown#" ++ toString id

def renderParts : List Outline → String
  | [] => ""
  | [part] => render part
  | part :: rest => render part ++ ", " ++ renderParts rest

def renderEntries : List (String × Outline) → String
  | [] => ""
  | [(name, entry)] => name ++ ": " ++ render entry
  | (name, entry) :: rest => name ++ ": " ++ render entry ++ ", " ++ renderEntries rest

end

end Outline

namespace Grammar

/-- An unfolding under way: the loops met so far, and no result when it runs too
deep. -/
abbrev Unfolding : Type → Type :=
  StateT (List NodeId) Option

/-- Unfolds the node of an entry. -/
def unfoldEntry (visit : NodeId → Unfolding Outline) (e : String × NodeId) :
    Unfolding (String × Outline) := do
  return (e.1, ← visit e.2)

/-- Unfolds a node to a limited depth. -/
def unfold (g : Grammar) : Nat → NodeId → Unfolding Outline
  | 0, _ => failure
  | depth + 1, id =>
      match g.node? id with
      | none => pure (.unknown id)
      | some (.emit token) => pure (.emit token)
      | some (.sequence parts) => return .sequence (← parts.mapM (g.unfold depth))
      | some (.choice table) => return .choice (← table.entries.mapM (unfoldEntry (g.unfold depth)))
      | some (.product table) =>
          return .product (← table.entries.mapM (unfoldEntry (g.unfold depth)))
      | some (.loop body) => do
          let seen ← get
          if seen.contains id then pure (.again id)
          else
            set (id :: seen)
            match body with
            | none => pure (.loop id none)
            | some body => return .loop id (some (← g.unfold depth body))

/-- A depth that no unfolding of a grammar exceeds if its cycles pass through
loops. -/
def outlineDepth (g : Grammar) : Nat :=
  (g.size + 1) * (g.size + 1) + 1

/-- The outline of a node and the loops that were met. -/
def outlineWithLoops? (g : Grammar) (id : NodeId) : Option (Outline × List NodeId) :=
  (g.unfold g.outlineDepth id).run []

def outline? (g : Grammar) (id : NodeId) : Option Outline :=
  (g.outlineWithLoops? id).map (·.1)

/-- The text of the outline of a node. -/
def describe? (g : Grammar) (id : NodeId) : Option String :=
  (g.outline? id).map Outline.render

end Grammar

end Switchboard
