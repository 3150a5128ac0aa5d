import Switchboard.Matching.Memoized

/-!
# Checking transcripts

The questions asked of a grammar: how many tokens of a transcript a node
matches, and whether it matches all of them.  Both have an answer for every
grammar whose cycles of references pass through loops.
-/

namespace Switchboard

/-- Whether a match keeps a ledger of verdicts. -/
structure MatchConfig where
  memoize : Bool
deriving DecidableEq

def MatchConfig.default : MatchConfig := ⟨true⟩

namespace Grammar

/-- The number of tokens at the front of a transcript that a node matches. -/
def matchesPrefix? (g : Grammar) (config : MatchConfig) (id : NodeId) (tokens : List String) :
    Option Verdict :=
  let s := Scope.outermost tokens
  let depth := g.matchingDepth tokens
  if config.memoize then (Matching.memoized g depth s [] id 0).run' .empty
  else Matching.plain g depth s [] id 0

/-- Whether a node matches a whole transcript. -/
def check? (g : Grammar) (config : MatchConfig) (id : NodeId) (tokens : List String) :
    Option (Except Mismatch Unit) :=
  (g.matchesPrefix? config id tokens).map (exactly tokens)

end Grammar

end Switchboard
