import Switchboard.Grammar

/-!
# Building grammars

Every builder appends one node and gives its index.  A choice and a product are
refused, and nothing is appended, when they list a name twice or list none, and
a product also when a channel is not a single non-empty segment.  `looped`
reserves the index of the loop, lets the body be built with it and then fills
the body in; if building the body fails, the loop stays without one.
-/

namespace Switchboard

inductive GrammarError where
  | duplicateTag (tag : String)
  | emptyChoice
  | duplicateChannel (channel : String)
  | invalidChannelName (channel : String)
  | emptyProduct
deriving DecidableEq

def GrammarError.message : GrammarError → String
  | .duplicateTag tag => "choice lists tag '" ++ tag ++ "' more than once"
  | .emptyChoice => "choice needs at least one tag"
  | .duplicateChannel channel => "product lists channel '" ++ channel ++ "' more than once"
  | .invalidChannelName channel =>
      "product channel name '" ++ channel ++ "' must be a single non-empty segment"
  | .emptyProduct => "product needs at least one channel"

namespace Grammar

/-- Appends a node. -/
def push (g : Grammar) (node : Node) : NodeId × Grammar :=
  (g.size, ⟨g.nodes.push node⟩)

/-- Puts a body into the loop at an index. -/
def close (g : Grammar) (loop body : NodeId) : Grammar :=
  ⟨g.nodes.setIfInBounds loop (.loop (some body))⟩

/-- A table of the given entries, unless one of them is refused. -/
def collect (refuse : Keyed NodeId → String → Option GrammarError) :
    List (String × NodeId) → Keyed NodeId → Except GrammarError (Keyed NodeId)
  | [], table => .ok table
  | (name, id) :: rest, table =>
      match refuse table name with
      | some error => .error error
      | none => collect refuse rest (table.put name id)

def refuseTag (table : Keyed NodeId) (tag : String) : Option GrammarError :=
  if table.contains tag then some (.duplicateTag tag) else none

/-- A single segment that is not empty. -/
def isChannelName (channel : String) : Bool :=
  !channel.isEmpty && !channel.toList.contains '/'

def refuseChannel (table : Keyed NodeId) (channel : String) : Option GrammarError :=
  if !isChannelName channel then some (.invalidChannelName channel)
  else if table.contains channel then some (.duplicateChannel channel)
  else none

def branches (entries : List (String × NodeId)) : Except GrammarError (Keyed NodeId) := do
  let table ← collect refuseTag entries .empty
  if table.isEmpty then .error .emptyChoice else .ok table

def channels (entries : List (String × NodeId)) : Except GrammarError (Keyed NodeId) := do
  let table ← collect refuseChannel entries .empty
  if table.isEmpty then .error .emptyProduct else .ok table

end Grammar

/-- Building steps over a grammar; what a failing step appended before it failed
stays. -/
abbrev Builder : Type → Type :=
  ExceptT GrammarError (StateM Grammar)

namespace Builder

variable {m : Type → Type} [Monad m] [MonadStateOf Grammar m]

def push (node : Node) : m NodeId :=
  modifyGet fun g => g.push node

def emit (token : String) : m NodeId :=
  push (.emit token)

def sequence (parts : List NodeId) : m NodeId :=
  push (.sequence parts)

/-- The protocol that is over at once. -/
def done : m NodeId :=
  sequence []

/-- One tag, and what follows it. -/
def receive (tag : String) (next : NodeId) : m NodeId :=
  push (.choice (Keyed.empty.put tag next))

def choice [MonadExceptOf GrammarError m] (entries : List (String × NodeId)) : m NodeId := do
  match Grammar.branches entries with
  | .ok table => push (.choice table)
  | .error error => throw error

def product [MonadExceptOf GrammarError m] (entries : List (String × NodeId)) : m NodeId := do
  match Grammar.channels entries with
  | .ok table => push (.product table)
  | .error error => throw error

/-- A loop whose body may refer to it. -/
def looped (body : NodeId → m NodeId) : m NodeId := do
  let loop ← push (.loop none)
  let inner ← body loop
  modify fun g => g.close loop inner
  pure loop

end Builder

end Switchboard
