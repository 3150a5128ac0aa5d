import Switchboard.Keyed

/-!
# Grammars

A grammar is an arena of protocol shapes that refer to each other by index.
Nothing here keeps a reference from dangling or from closing a cycle; what the
builders guarantee about it is said where they are defined.
-/

namespace Switchboard

/-- The index of a node in its grammar. -/
abbrev NodeId : Type :=
  Nat

/-- One protocol shape: a token, the parts one after the other, a tag that selects
a branch, a body that may refer back to its loop, or protocols on channels
running side by side.  A loop lacks its body only while that is under
construction. -/
inductive Node where
  | emit (token : String)
  | sequence (parts : List NodeId)
  | choice (branches : Keyed NodeId)
  | loop (body : Option NodeId)
  | product (channels : Keyed NodeId)
deriving DecidableEq

namespace Node

/-- The nodes that a node refers to, in order. -/
def references : Node → List NodeId
  | .emit _ => []
  | .sequence parts => parts
  | .choice table | .product table => table.entries.map (·.2)
  | .loop body => body.toList

def isLoop : Node → Bool
  | .loop _ => true
  | _ => false

end Node

structure Grammar where
  nodes : Array Node
deriving DecidableEq

namespace Grammar

def empty : Grammar := ⟨#[]⟩

def size (g : Grammar) : Nat :=
  g.nodes.size

def isEmpty (g : Grammar) : Bool :=
  g.nodes.isEmpty

def node? (g : Grammar) (id : NodeId) : Option Node :=
  g.nodes[id]?

end Grammar

end Switchboard
