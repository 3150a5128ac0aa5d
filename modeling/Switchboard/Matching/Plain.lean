import Switchboard.Matching.Rules

/-!
# Matching by plain recursion

The rules carried out to a limited depth.  There is no verdict when the depth
does not suffice.  A grammar whose cycles of references all pass through loops
is never nested deeper than `Grammar.matchingDepth`: every loop is entered at
most once before a token is consumed, and the text of the tokens that remain,
here or in a share, shrinks with every token.
-/

namespace Switchboard

namespace Matching

/-- Matches a node at a position, with calls nested at most so deep. -/
def plain (g : Grammar) : Nat → Scope → Active → NodeId → Nat → Option Verdict
  | 0, _, _, _, _ => none
  | depth + 1, s, active, id, position =>
      node g
        { visit := plain g depth s
          share := fun inner id => (plain g depth inner [] id 0).map (exactly inner.tokens)
          cut := pure () }
        s active id position

end Matching

namespace Grammar

/-- The length of all tokens, each counted as at least one. -/
def weight (tokens : List String) : Nat :=
  tokens.foldr (fun token rest => token.length + 1 + rest) 0

def matchingDepth (g : Grammar) (tokens : List String) : Nat :=
  (weight tokens + 1) * ((g.size + 1) * (g.size + 1))

end Grammar

end Switchboard
