import Switchboard.Matching.Scope

/-!
# The rules of matching

What it means to match each kind of node, up to how the nodes it refers to are
matched.  That is left to `Calls`, over any monad, so that one set of rules
serves every way to carry out the recursion.

A product looks for the shortest prefix of the remaining tokens that splits into
shares which its channels match exactly.  A token extends one share, so only the
verdict on that share is asked for anew.
-/

namespace Switchboard

/-- How a rule has the nodes it refers to matched: in its own scope, or in the
scope of a share.  `cut` is called when a loop is refused because it is open
already. -/
structure Calls (m : Type → Type) where
  visit : Active → NodeId → Nat → m Verdict
  share : Scope → NodeId → m (Except Mismatch Unit)
  cut : m Unit

/-- The tokens that one channel of a product has got so far, and the verdict on
them. -/
structure Share where
  channel : String
  node : NodeId
  tokens : List String
  verdict : Except Mismatch Unit

namespace Share

/-- The shares that are not matched, and why not. -/
def failures (shares : List Share) : List (String × Mismatch) :=
  shares.filterMap fun s =>
    match s.verdict with
    | .ok _ => none
    | .error reason => some (s.channel, reason)

end Share

namespace Matching

variable {m : Type → Type} [Monad m]

/-- The parts of a sequence one after the other; a failure tells the part. -/
def parts (calls : Calls m) (active : Active) :
    Nat → List NodeId → Nat → m Verdict
  | _, [], position => pure (.ok position)
  | index, part :: rest, position => do
      match ← calls.visit active part position with
      | .ok next => parts calls active (index + 1) rest next
      | .error reason => pure (.error (.step index reason))

/-- The shares before the first token, all empty. -/
def emptyShares (calls : Calls m) (around : List OpenLoop) :
    List (String × NodeId) → m (List Share)
  | [] => pure []
  | (channel, node) :: rest => do
      let verdict ← calls.share ⟨[], around⟩ node
      let others ← emptyShares calls around rest
      pure (⟨channel, node, [], verdict⟩ :: others)

/-- Adds a token to the share of a channel. -/
def grow (calls : Calls m) (around : List OpenLoop) (channel value : String) :
    List Share → m (List Share)
  | [] => pure []
  | s :: rest =>
      if s.channel = channel then do
        let tokens := s.tokens ++ [value]
        let verdict ← calls.share ⟨tokens, around⟩ s.node
        pure (⟨s.channel, s.node, tokens, verdict⟩ :: rest)
      else do
        let others ← grow calls around channel value rest
        pure (s :: others)

/-- Takes tokens until all shares are matched.  `split` counts the tokens taken;
a token without a channel of the product ends the search. -/
def search (calls : Calls m) (around : List OpenLoop) (channels : Keyed NodeId) (start : Nat) :
    Nat → List Share → List String → m Verdict
  | split, shares, tokens =>
      let failing := Share.failures shares
      if failing.isEmpty then pure (.ok (start + split))
      else
        match tokens with
        | [] => pure (.error (.product split failing none))
        | token :: rest =>
            match tag? channels token with
            | none => pure (.error (.product split failing (some ⟨token, start + split⟩)))
            | some (channel, value) => do
                let shares ← grow calls around channel value shares
                search calls around channels start (split + 1) shares rest

def product (calls : Calls m) (s : Scope) (active : Active) (channels : Keyed NodeId)
    (position : Nat) : m Verdict := do
  let around := s.openLoops active
  let shares ← emptyShares calls around channels.entries
  search calls around channels position 0 shares (s.tokens.drop position)

/-- Matches a node at a position. -/
def node (g : Grammar) (calls : Calls m) (s : Scope) (active : Active) (id : NodeId)
    (position : Nat) : m Verdict :=
  match g.node? id with
  | none => pure (.error (.unknownNode id))
  | some (.emit expected) =>
      pure <|
        if s.tokens[position]? = some expected then .ok (position + 1)
        else .error (.token expected s.tokens[position]? position)
  | some (.sequence ids) => parts calls active 0 ids position
  | some (.choice branches) =>
      match s.tokens[position]?.bind branches.find? with
      | some branch => calls.visit active branch (position + 1)
      | none => pure (.error (.choice branches.names s.tokens[position]? position))
  | some (.loop none) => pure (.error (.unresolved id))
  | some (.loop (some body)) =>
      if s.reentered active id position then do
        calls.cut
        pure (.error (.noProgress position))
      else calls.visit ((id, position) :: active) body position
  | some (.product channels) => product calls s active channels position

end Matching

end Switchboard
