import Switchboard.Matching
import Switchboard.Proofs.Matching.Depth

/-!
# Matching under observation

`Matching.observed` is the matcher with a journal of the calls that it makes and
of the loops that it refuses.  One flag says whether it remembers verdicts.  With
the journal left out it is `Matching.memoized` or `Matching.plain`
(`observed_memoized`, `observed_plain`), at every depth and on every grammar.
-/

namespace Switchboard

inductive Event where
  | asks (caller callee : Call)
  | refuses (call : Call)

/-- The ledger of one scope, and what has happened in all scopes so far. -/
structure Journal where
  ledger : Ledger
  events : List Event

namespace Journal

def empty : Journal := ⟨.empty, []⟩

def note (j : Journal) (event : Event) : Journal :=
  { j with events := j.events ++ [event] }

/-- Starts on a share, with a ledger of its own. -/
def enter (j : Journal) : Journal :=
  { j with ledger := .empty }

/-- Comes back from a share: only whether a loop was refused in it is kept. -/
def leave (j inner : Journal) : Journal :=
  ⟨if 0 < inner.ledger.cuts then j.ledger.cut else j.ledger, inner.events⟩

end Journal

abbrev Observed : Type → Type :=
  StateT Journal Option

namespace Matching

/-- How a call is carried out under observation, given how calls below it are. -/
def observedCalls (below : Call → Observed Verdict) (caller : Call) : Calls Observed where
  visit active id position := do
    let callee : Call := ⟨caller.scope, active, id, position⟩
    modify fun j => j.note (.asks caller callee)
    below callee
  share inner id := do
    let callee : Call := ⟨inner, [], id, 0⟩
    modify fun j => j.note (.asks caller callee)
    let outer ← get
    set outer.enter
    let verdict ← below callee
    modify outer.leave
    pure (exactly inner.tokens verdict)
  cut := modify fun j => Journal.note { j with ledger := j.ledger.cut } (.refuses caller)

/-- The matcher, with verdicts remembered or not. -/
def observed (g : Grammar) (memoize : Bool) : Nat → Call → Observed Verdict
  | 0, _ => failure
  | depth + 1, c => do
      let before ← get
      match if memoize then before.ledger.verdicts[(c.node, c.position)]? else none with
      | some verdict => pure verdict
      | none =>
          let verdict ← node g (observedCalls (observed g memoize depth) c)
            c.scope c.active c.node c.position
          let after ← get
          if memoize ∧ after.ledger.cuts = before.ledger.cuts then
            set { after with ledger := after.ledger.record c.node c.position verdict }
          pure verdict

end Matching

/-! ## Two monads in step -/

/-- A relation between computations of two monads that rules cannot break. -/
structure Lockstep (m n : Type → Type) [Monad m] [Monad n] where
  Rel : {α : Type} → m α → n α → Prop
  pure : ∀ {α : Type} (a : α), Rel (pure a) (pure a)
  bind : ∀ {α β : Type} {x : m α} {y : n α} {f : α → m β} {f' : α → n β}, Rel x y →
    (∀ a, Rel (f a) (f' a)) → Rel (x >>= f) (y >>= f')

/-- Related ways to carry out calls. -/
structure Lockstep.Calls {m n : Type → Type} [Monad m] [Monad n] (R : Lockstep m n)
    (left : Switchboard.Calls m) (right : Switchboard.Calls n) : Prop where
  visit : ∀ active id position,
    R.Rel (left.visit active id position) (right.visit active id position)
  share : ∀ inner id, R.Rel (left.share inner id) (right.share inner id)
  cut : R.Rel left.cut right.cut

namespace Matching

section Lockstep

variable {m n : Type → Type} [Monad m] [Monad n] {R : Lockstep m n}
  {left : Calls m} {right : Calls n}

theorem parts_lockstep (same : R.Calls left right) (active : Active) (index : Nat)
    (ids : List NodeId) (position : Nat) :
    R.Rel (parts left active index ids position) (parts right active index ids position) := by
  induction ids generalizing index position with
  | nil => exact R.pure _
  | cons part ids ih =>
      refine R.bind (same.visit active part position) fun verdict => ?_
      cases verdict with
      | ok next => exact ih (index + 1) next
      | error reason => exact R.pure _

section Shares

variable (share : ∀ inner id, R.Rel (left.share inner id) (right.share inner id))
include share

theorem emptyShares_lockstep (around : List OpenLoop) (entries : List (String × NodeId)) :
    R.Rel (emptyShares left around entries) (emptyShares right around entries) := by
  induction entries with
  | nil => exact R.pure _
  | cons e entries ih =>
      refine R.bind (share _ _) fun verdict => ?_
      exact R.bind ih fun others => R.pure _

theorem grow_lockstep (around : List OpenLoop) (channel value : String) (shares : List Share) :
    R.Rel (grow left around channel value shares) (grow right around channel value shares) := by
  induction shares with
  | nil => exact R.pure _
  | cons s shares ih =>
      unfold grow
      split
      · exact R.bind (share _ _) fun verdict => R.pure _
      · exact R.bind ih fun others => R.pure _

theorem search_lockstep (around : List OpenLoop) (channels : Keyed NodeId) (start split : Nat)
    (shares : List Share) (tokens : List String) :
    R.Rel (search left around channels start split shares tokens)
      (search right around channels start split shares tokens) := by
  induction tokens generalizing split shares with
  | nil =>
      rw [search, search]
      split
      · exact R.pure _
      · exact R.pure _
  | cons token tokens ih =>
      rw [search, search]
      split
      · exact R.pure _
      · split
        · exact R.pure _
        · exact R.bind (grow_lockstep share around _ _ shares) fun shares => ih _ shares

/-- A product makes no calls but those for its shares. -/
theorem product_lockstep (s : Scope) (active : Active) (channels : Keyed NodeId)
    (position : Nat) :
    R.Rel (product left s active channels position) (product right s active channels position) :=
  R.bind (emptyShares_lockstep share _ _) fun shares => search_lockstep share _ _ _ _ shares _

end Shares

theorem node_lockstep (same : R.Calls left right) (g : Grammar) (s : Scope) (active : Active)
    (id : NodeId) (position : Nat) :
    R.Rel (node g left s active id position) (node g right s active id position) := by
  unfold node
  split
  · exact R.pure _
  · exact R.pure _
  · exact parts_lockstep same active 0 _ position
  · split
    · exact same.visit _ _ _
    · exact R.pure _
  · exact R.pure _
  · split
    · exact R.bind same.cut fun _ => R.pure _
    · exact same.visit _ _ _
  · exact product_lockstep same.share s active _ position

end Lockstep

/-! ## Leaving the journal out -/

/-- How matching with a ledger carries out the calls of a rule. -/
def memoizedCalls (g : Grammar) (depth : Nat) (s : Scope) : Calls Recall where
  visit := memoized g depth s
  share inner id := do
    let (verdict, ledger) ← (memoized g depth inner [] id 0).run .empty
    if 0 < ledger.cuts then modify Ledger.cut
    pure (exactly inner.tokens verdict)
  cut := modify Ledger.cut

theorem observed_succ_run (g : Grammar) (memoize : Bool) (depth : Nat) (c : Call) (j : Journal) :
    (observed g memoize (depth + 1) c).run j =
      match if memoize then j.ledger.verdicts[(c.node, c.position)]? else none with
      | some verdict => some (verdict, j)
      | none =>
          ((node g (observedCalls (observed g memoize depth) c) c.scope c.active c.node
            c.position).run j).map fun (verdict, after) =>
              (verdict,
                if memoize ∧ after.ledger.cuts = j.ledger.cuts then
                  { after with ledger := after.ledger.record c.node c.position verdict }
                else after) := by
  simp only [observed, StateT.run_bind, StateT.run_get, pure_bind]
  cases if memoize then j.ledger.verdicts[(c.node, c.position)]? else none with
  | some verdict => rfl
  | none =>
      simp only [StateT.run_bind, StateT.run_get, pure_bind, Option.bind_eq_bind]
      cases (node g (observedCalls (observed g memoize depth) c) c.scope c.active c.node
        c.position).run j with
      | none => rfl
      | some r =>
          obtain ⟨verdict, after⟩ := r
          by_cases keep : memoize = true ∧ after.ledger.cuts = j.ledger.cuts
          · simp only [Option.map_some, Option.bind_some, if_pos keep]
            rfl
          · simp only [Option.map_some, Option.bind_some, if_neg keep]
            rfl

theorem memoized_succ_run (g : Grammar) (depth : Nat) (s : Scope) (active : Active) (id : NodeId)
    (position : Nat) (l : Ledger) :
    (memoized g (depth + 1) s active id position).run l =
      match l.verdicts[(id, position)]? with
      | some verdict => some (verdict, l)
      | none =>
          ((node g (memoizedCalls g depth s) s active id position).run l).map
            fun (verdict, after) =>
              (verdict,
                if after.cuts = l.cuts then after.record id position verdict else after) := by
  simp only [memoized, StateT.run_bind, StateT.run_get, pure_bind]
  cases l.verdicts[(id, position)]? with
  | some verdict => rfl
  | none =>
      simp only [StateT.run_bind, StateT.run_get, pure_bind, Option.bind_eq_bind]
      rw [← memoizedCalls]
      cases (node g (memoizedCalls g depth s) s active id position).run l with
      | none => rfl
      | some r =>
          obtain ⟨verdict, after⟩ := r
          by_cases keep : after.cuts = l.cuts
          · simp only [Option.map_some, Option.bind_some, if_pos keep]
            rfl
          · simp only [Option.map_some, Option.bind_some, if_neg keep]
            rfl

/-- The journal left out, but for the ledger. -/
def forgetting : Lockstep Observed Recall where
  Rel x y := ∀ j, (x.run j).map (fun r => (r.1, r.2.ledger)) = y.run j.ledger
  pure _ _ := rfl
  bind {_ _ x y _ _} hx later j := by
    rw [StateT.run_bind, StateT.run_bind, ← hx j]
    cases x.run j with
    | none => rfl
    | some r => exact later r.1 r.2

/-- The journal left out altogether. -/
def unobserved : Lockstep Observed Option where
  Rel x y := ∀ j, (x.run j).map Prod.fst = y
  pure _ _ := rfl
  bind {_ _ x y _ _} hx later j := by
    rw [StateT.run_bind, ← hx j]
    cases x.run j with
    | none => rfl
    | some r => exact later r.1 r.2

theorem observed_share_run (below : Call → Observed Verdict) (caller : Call) (inner : Scope)
    (id : NodeId) (j : Journal) :
    ((observedCalls below caller).share inner id).run j =
      ((below ⟨inner, [], id, 0⟩).run (j.note (.asks caller ⟨inner, [], id, 0⟩)).enter).map
        fun r =>
          (exactly inner.tokens r.1, (j.note (.asks caller ⟨inner, [], id, 0⟩)).leave r.2) := by
  show ((below ⟨inner, [], id, 0⟩).run _).bind _ = _
  cases (below ⟨inner, [], id, 0⟩).run (j.note (.asks caller ⟨inner, [], id, 0⟩)).enter with
  | none => rfl
  | some r => rfl

theorem memoized_share_run (g : Grammar) (depth : Nat) (s inner : Scope) (id : NodeId)
    (l : Ledger) :
    ((memoizedCalls g depth s).share inner id).run l =
      ((memoized g depth inner [] id 0).run .empty).map fun r =>
        (exactly inner.tokens r.1, if 0 < r.2.cuts then l.cut else l) := by
  simp only [memoizedCalls, StateT.run_bind, StateT.run_monadLift, Option.bind_eq_bind]
  cases (memoized g depth inner [] id 0).run .empty with
  | none => rfl
  | some r =>
      by_cases refused : 0 < r.2.cuts
      · simp only [Option.map_some, if_pos refused]
        show StateT.run (if 0 < r.2.cuts then _ else _) l = _
        rw [if_pos refused]
        rfl
      · simp only [Option.map_some, if_neg refused]
        show StateT.run (if 0 < r.2.cuts then _ else _) l = _
        rw [if_neg refused]
        rfl

/-- The matcher that remembers, with its journal left out, is matching with a
ledger.  Whether a loop was refused in a share is read off the ledger of the share. -/
theorem observed_memoized (g : Grammar) (depth : Nat) (c : Call) (j : Journal) :
    ((observed g true depth c).run j).map (fun r => (r.1, r.2.ledger)) =
      (memoized g depth c.scope c.active c.node c.position).run j.ledger := by
  induction depth generalizing c j with
  | zero => rfl
  | succ depth ih =>
      have same : forgetting.Calls (observedCalls (observed g true depth) c)
          (memoizedCalls g depth c.scope) := by
        refine ⟨fun active id position j => ?_, fun inner id j => ?_, fun j => rfl⟩
        · exact ih ⟨c.scope, active, id, position⟩ (j.note _)
        · have below := ih ⟨inner, [], id, 0⟩ (j.note (.asks c ⟨inner, [], id, 0⟩)).enter
          rw [observed_share_run, memoized_share_run]
          show _ = ((memoized g depth inner [] id 0).run .empty).map _
          rw [← show _ = (memoized g depth inner [] id 0).run .empty from below,
            Option.map_map, Option.map_map]
          refine congrArg (fun f => Option.map f _) (funext fun r => ?_)
          by_cases refused : 0 < r.2.ledger.cuts
          · simp [Journal.leave, refused, Journal.note]
          · simp [Journal.leave, refused, Journal.note]
      rw [observed_succ_run, memoized_succ_run, ← node_lockstep same]
      simp only [if_true]
      cases j.ledger.verdicts[(c.node, c.position)]? with
      | some verdict => rfl
      | none =>
          dsimp only
          rw [Option.map_map, Option.map_map]
          refine congrArg (fun f => Option.map f _) (funext fun r => ?_)
          by_cases keep : r.2.ledger.cuts = j.ledger.cuts
          · simp [keep]
          · simp [keep]

theorem observed_plain (g : Grammar) (depth : Nat) (c : Call) (j : Journal) :
    ((observed g false depth c).run j).map Prod.fst =
      plain g depth c.scope c.active c.node c.position := by
  induction depth generalizing c j with
  | zero => rfl
  | succ depth ih =>
      have same : unobserved.Calls (observedCalls (observed g false depth) c)
          (plainCalls g depth c.scope) := by
        refine ⟨fun active id position j => ?_, fun inner id j => ?_, fun j => rfl⟩
        · exact ih ⟨c.scope, active, id, position⟩ (j.note _)
        · have below := ih ⟨inner, [], id, 0⟩ (j.note (.asks c ⟨inner, [], id, 0⟩)).enter
          rw [observed_share_run, Option.map_map]
          show _ = (plain g depth inner [] id 0).map _
          rw [← show _ = plain g depth inner [] id 0 from below, Option.map_map]
          rfl
      rw [observed_succ_run, plain_succ, ← node_lockstep same g c.scope c.active c.node c.position j]
      simp only [Bool.false_eq_true, if_false, false_and]
      rw [Option.map_map]
      rfl

end Matching

/-- The answers about a grammar are those that are given under observation. -/
theorem Grammar.matchesPrefix?_eq_observed (g : Grammar) (memoize : Bool) (id : NodeId)
    (tokens : List String) :
    g.matchesPrefix? ⟨memoize⟩ id tokens =
      ((Matching.observed g memoize (g.matchingDepth tokens) (.outermost tokens id)).run
        .empty).map Prod.fst := by
  cases memoize with
  | true =>
      have run := Matching.observed_memoized g (g.matchingDepth tokens) (.outermost tokens id) .empty
      show Option.map Prod.fst
        ((Matching.memoized g (g.matchingDepth tokens) (.outermost tokens) [] id 0).run .empty) = _
      rw [← show _ = (Matching.memoized g (g.matchingDepth tokens) (.outermost tokens) [] id 0).run
        .empty from run, Option.map_map]
      rfl
  | false =>
      exact (Matching.observed_plain g (g.matchingDepth tokens) (.outermost tokens id) .empty).symm

end Switchboard
