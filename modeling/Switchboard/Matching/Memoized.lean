import Std.Data.HashMap
import Switchboard.Matching.Plain

/-!
# Matching with a memory

The rules carried out with a ledger of the verdicts found so far in the scope.
A verdict also depends on which loops are open, but the ledger does not record
them: it keeps a verdict only if no loop was refused while it was found, here or
in a share.
-/

namespace Switchboard

/-- The verdicts found in one scope, and how often a loop was refused. -/
structure Ledger where
  verdicts : Std.HashMap (NodeId × Nat) Verdict
  cuts : Nat

namespace Ledger

def empty : Ledger := ⟨∅, 0⟩

def cut (l : Ledger) : Ledger :=
  { l with cuts := l.cuts + 1 }

def record (l : Ledger) (id : NodeId) (position : Nat) (verdict : Verdict) : Ledger :=
  { l with verdicts := l.verdicts.insert (id, position) verdict }

end Ledger

/-- Matching with a ledger; no result when it is nested too deep. -/
abbrev Recall : Type → Type :=
  StateT Ledger Option

namespace Matching

/-- Matches a node at a position, or finds the verdict in the ledger. -/
def memoized (g : Grammar) : Nat → Scope → Active → NodeId → Nat → Recall Verdict
  | 0, _, _, _, _ => failure
  | depth + 1, s, active, id, position => do
      let before ← get
      match before.verdicts[(id, position)]? with
      | some verdict => pure verdict
      | none =>
          let verdict ← node g
            { visit := memoized g depth s
              share := fun inner id => do
                let (verdict, ledger) ← (memoized g depth inner [] id 0).run .empty
                if 0 < ledger.cuts then modify Ledger.cut
                pure (exactly inner.tokens verdict)
              cut := modify Ledger.cut }
            s active id position
          let after ← get
          if after.cuts = before.cuts then set (after.record id position verdict)
          pure verdict

end Matching

end Switchboard
