import Switchboard.Proofs.Matching.Splitting

/-!
# Matching in any context

A share is matched in a scope with loops open around it.  The loops that are open where a
match gets to have all asked for it, and of such a match much more is known (`Pending`).
Nothing of that is needed for an answer: with any loops open, at every depth above
`nesting`, a match has an answer (`Matching.observed_fits`), and a greater depth gives
the same one (`Matching.observed_deeper`).

So it can be asked how many tokens of any scope a node matches (`Grammar.matchesIn?`).  The
whole transcript is one such scope.
-/

namespace Switchboard

variable {g : Grammar}

namespace Matching

/-- The verdict on the start of a scope, with calls nested at most so deep. -/
def answer? (g : Grammar) (config : MatchConfig) (depth : Nat) (s : Scope) (id : NodeId) :
    Option Verdict :=
  if config.memoize then (memoized g depth s [] id 0).run' .empty else plain g depth s [] id 0

end Matching

namespace Grammar

/-- The number of tokens at the front of a scope that a node matches. -/
def matchesIn? (g : Grammar) (config : MatchConfig) (s : Scope) (id : NodeId) : Option Verdict :=
  Matching.answer? g config (g.matchingDepth s.tokens) s id

/-- Whether a node matches all tokens of a scope. -/
def checkIn? (g : Grammar) (config : MatchConfig) (s : Scope) (id : NodeId) :
    Option (Except Mismatch Unit) :=
  (g.matchesIn? config s id).map (exactly s.tokens)

/-- The whole transcript is a scope with no loop open around it. -/
theorem matchesIn?_outermost (config : MatchConfig) (tokens : List String) (id : NodeId) :
    g.matchesIn? config (.outermost tokens) id = g.matchesPrefix? config id tokens := rfl

end Grammar

namespace Matching

/-! ## Greater depths -/

/-- What the first one answers, the second one answers too. -/
def deeper : Lockstep Observed Observed where
  Rel x y := ∀ j r, x.run j = some r → y.run j = some r
  pure _ _ _ found := found
  bind := by
    intro _ _ x y f f' first later j r found
    rw [StateT.run_bind] at found ⊢
    obtain ⟨a, run, rest⟩ := Option.bind_eq_some_iff.1 found
    rw [first j a run]
    exact later a.1 a.2 r rest

/-- A greater depth changes no answer. -/
theorem observed_deeper (memoize : Bool) {depth depth' : Nat} (le : depth ≤ depth') (c : Call) :
    deeper.Rel (observed g memoize depth c) (observed g memoize depth' c) := by
  induction depth generalizing depth' c with
  | zero =>
      intro j r found
      cases found
  | succ depth ih =>
      obtain ⟨depth', rfl⟩ : ∃ i, depth' = i + 1 := ⟨depth' - 1, by omega⟩
      have below := fun callee => ih (Nat.le_of_succ_le_succ le) callee
      have same : deeper.Calls (observedCalls (observed g memoize depth) c)
          (observedCalls (observed g memoize depth') c) := by
        refine ⟨fun active id position j => ?_, fun inner id j r found => ?_, fun j r found => ?_⟩
        · exact below ⟨c.scope, active, id, position⟩ (j.note _)
        · rw [observed_share_run] at found ⊢
          obtain ⟨inside, run, made⟩ := Option.map_eq_some_iff.1 found
          rw [below _ _ _ run]
          exact congrArg some made
        · exact found
      intro j r found
      rw [observed_succ_run] at found ⊢
      cases hit : if memoize then j.ledger.verdicts[(c.node, c.position)]? else none with
      | some verdict =>
          rw [hit] at found
          exact found
      | none =>
          rw [hit] at found
          obtain ⟨ruled, run, made⟩ := Option.map_eq_some_iff.1 found
          rw [node_lockstep same g _ _ _ _ _ _ run]
          exact congrArg some made

/-- From an empty memory a call at the start of a scope has the answer of the scope. -/
theorem observed_answer (memoize : Bool) (depth : Nat) (s : Scope) (id : NodeId) (j : Journal)
    (fresh : j.ledger = .empty) :
    ((observed g memoize depth ⟨s, [], id, 0⟩).run j).map Prod.fst =
      answer? g ⟨memoize⟩ depth s id := by
  cases memoize with
  | true =>
      have run := observed_memoized g depth ⟨s, [], id, 0⟩ j
      rw [fresh] at run
      show _ = Option.map Prod.fst ((memoized g depth s [] id 0).run .empty)
      rw [← show _ = (memoized g depth s [] id 0).run .empty from run, Option.map_map]
      rfl
  | false => exact observed_plain g depth ⟨s, [], id, 0⟩ j

theorem answer?_deeper {config : MatchConfig} {depth depth' : Nat} (le : depth ≤ depth')
    {s : Scope} {id : NodeId} {verdict : Verdict}
    (found : answer? g config depth s id = some verdict) :
    answer? g config depth' s id = some verdict := by
  obtain ⟨memoize⟩ := config
  rw [← observed_answer memoize depth s id .empty rfl] at found
  obtain ⟨r, run, rfl⟩ := Option.map_eq_some_iff.1 found
  rw [← observed_answer memoize depth' s id .empty rfl,
    observed_deeper memoize le _ _ _ run]
  rfl

/-! ## Products by their shares -/

/-- Under observation nothing but shares is asked for, and the verdicts that are kept stay
what they are. -/
def sharing : Lockstep Observed Option where
  Rel x y := ∀ j, (x.run j).map (fun r => (r.1, r.2.ledger.verdicts)) =
    y.map fun a => (a, j.ledger.verdicts)
  pure _ _ := rfl
  bind {_ _ x y f f'} first later j := by
    have run := first j
    rw [StateT.run_bind]
    cases found : x.run j with
    | none =>
        rw [found] at run
        obtain rfl : y = none := Option.map_eq_none_iff.1 run.symm
        rfl
    | some r =>
        rw [found] at run
        cases y with
        | none => cases run
        | some a =>
            obtain ⟨rfl, kept⟩ := Prod.mk.inj (Option.some.inj run)
            rw [← kept]
            exact later r.1 r.2

/-- The calls for shares, as answers from an empty memory.  A product makes no others. -/
def shareCalls (g : Grammar) (config : MatchConfig) (depth : Nat) : Calls Option where
  visit _ _ _ := none
  share inner id := (answer? g config depth inner id).map (exactly inner.tokens)
  cut := none

theorem share_sharing (memoize : Bool) (depth : Nat) (c : Call) (inner : Scope) (id : NodeId) :
    sharing.Rel ((observedCalls (observed g memoize depth) c).share inner id)
      ((shareCalls g ⟨memoize⟩ depth).share inner id) := by
  intro j
  have fresh : (j.note (.asks c ⟨inner, [], id, 0⟩)).enter.ledger = .empty := rfl
  show _ = ((answer? g ⟨memoize⟩ depth inner id).map (exactly inner.tokens)).map _
  rw [observed_share_run, ← observed_answer memoize depth inner id _ fresh, Option.map_map,
    Option.map_map, Option.map_map]
  refine congrArg (fun f => Option.map f _) (funext fun r => ?_)
  by_cases refused : 0 < r.2.ledger.cuts
  · simp [Journal.leave, refused, Journal.note, Ledger.cut]
  · simp [Journal.leave, refused, Journal.note]

theorem product_sharing (memoize : Bool) (depth : Nat) (c : Call) (channels : Keyed NodeId)
    (position : Nat) (j : Journal) :
    ((product (observedCalls (observed g memoize depth) c) c.scope c.active channels position).run
        j).map (fun r => (r.1, r.2.ledger.verdicts)) =
      (product (shareCalls g ⟨memoize⟩ depth) c.scope c.active channels position).map
        fun a => (a, j.ledger.verdicts) :=
  product_lockstep (share_sharing memoize depth c) c.scope c.active channels position j

end Matching

/-! ## What answers tell -/

/-- What the mismatch says to have found at a position does stand there, and it is not what
was expected. -/
def Mismatch.Reads (tokens : List String) : Mismatch → Prop
  | .token expected found position =>
      position ≤ tokens.length ∧ found = tokens[position]? ∧ found ≠ some expected
  | .choice expected found position =>
      position ≤ tokens.length ∧ found = tokens[position]? ∧ ∀ tag ∈ expected, found ≠ some tag
  | _ => True

/-- What is matched lies ahead, among the tokens of the scope, and what a mismatch says at
its root can be read there. -/
structure Fits (tokens : List String) (position : Nat) (verdict : Verdict) : Prop where
  ahead : ∀ next, verdict = .ok next → position ≤ next ∧ next ≤ tokens.length
  reads : ∀ reason, verdict = .error reason → reason.root.Reads tokens

namespace Fits

variable {tokens : List String} {position next : Nat} {verdict : Verdict} {reason : Mismatch}

theorem ok (behind : position ≤ next) (inside : next ≤ tokens.length) :
    Fits tokens position (.ok next) where
  ahead next' matched := Except.ok.inj matched ▸ ⟨behind, inside⟩
  reads reason failed := by cases failed

theorem error (reads : reason.root.Reads tokens) : Fits tokens position (.error reason) where
  ahead next matched := by cases matched
  reads reason' failed := Except.error.inj failed ▸ reads

theorem trans (behind : position ≤ next) (h : Fits tokens next verdict) :
    Fits tokens position verdict where
  ahead last matched := ⟨behind.trans (h.ahead last matched).1, (h.ahead last matched).2⟩
  reads := h.reads

/-- The tag of a choice that is not taken is not among its names. -/
theorem unlisted {branches : Keyed NodeId} (inside : position ≤ tokens.length)
    (read : tokens[position]?.bind branches.find? = none) :
    Fits tokens position (.error (.choice branches.names tokens[position]? position)) := by
  refine error ⟨inside, rfl, fun tag listed found => ?_⟩
  obtain ⟨e, mem, rfl⟩ := List.mem_map.1 listed
  rw [found, Option.bind_some, Keyed.find?_eq_some_iff.2 mem] at read
  cases read

end Fits

open Matching

/-- What is remembered of a scope fits to where it was asked for. -/
def Ledger.Fitting (tokens : List String) (l : Ledger) : Prop :=
  ∀ (id : NodeId) (position : Nat) (verdict : Verdict),
    l.verdicts[(id, position)]? = some verdict → Fits tokens position verdict

namespace Ledger.Fitting

variable {tokens : List String} {l : Ledger}

theorem empty : Ledger.empty.Fitting tokens := by
  intro id position verdict found
  simp [Ledger.empty] at found

theorem record (h : l.Fitting tokens) {id : NodeId} {position : Nat} {verdict : Verdict}
    (fits : Fits tokens position verdict) : (l.record id position verdict).Fitting tokens := by
  intro id' position' verdict' found
  rw [Ledger.record, Std.HashMap.getElem?_insert] at found
  split at found
  · rename_i same
    obtain ⟨rfl, rfl⟩ := Prod.mk.inj (beq_iff_eq.1 same)
    exact Option.some.inj found ▸ fits
  · exact h id' position' verdict' found

end Ledger.Fitting

namespace Matching

/-- From a fitting memory the computation has an answer, with a property, and the memory
stays fitting. -/
def Answers (tokens : List String) (x : Observed Verdict) (P : Verdict → Prop) : Prop :=
  ∀ j : Journal, j.ledger.Fitting tokens →
    ∃ verdict j', x.run j = some (verdict, j') ∧ P verdict ∧ j'.ledger.Fitting tokens

namespace Answers

variable {tokens : List String} {x : Observed Verdict} {P Q : Verdict → Prop}

theorem pure {verdict : Verdict} (h : P verdict) : Answers tokens (Pure.pure verdict) P :=
  fun j kept => ⟨verdict, j, rfl, h, kept⟩

theorem bind {f : Verdict → Observed Verdict} (first : Answers tokens x P)
    (later : ∀ verdict, P verdict → Answers tokens (f verdict) Q) :
    Answers tokens (x >>= f) Q := by
  intro j kept
  obtain ⟨verdict, j', run, holds, kept'⟩ := first j kept
  obtain ⟨verdict', j'', run', holds', kept''⟩ := later verdict holds j' kept'
  refine ⟨verdict', j'', ?_, holds', kept''⟩
  rw [StateT.run_bind, run]
  exact run'

theorem mono (h : Answers tokens x P) (weaker : ∀ verdict, P verdict → Q verdict) :
    Answers tokens x Q := by
  intro j kept
  obtain ⟨verdict, j', run, holds, kept'⟩ := h j kept
  exact ⟨verdict, j', run, weaker verdict holds, kept'⟩

end Answers

section Rules

variable {memoize : Bool} {depth : Nat} {c : Call}

theorem parts_fits {ids : List NodeId} {index position : Nat}
    (visits : ∀ part ∈ ids, ∀ next, position ≤ next → next ≤ c.scope.tokens.length →
      Answers c.scope.tokens (observed g memoize depth ⟨c.scope, c.active, part, next⟩)
        (Fits c.scope.tokens next))
    (inside : position ≤ c.scope.tokens.length) :
    Answers c.scope.tokens
      (parts (observedCalls (observed g memoize depth) c) c.active index ids position)
      (Fits c.scope.tokens position) := by
  induction ids generalizing index position with
  | nil =>
      exact Answers.pure (.ok (Nat.le_refl _) inside)
  | cons part ids ih =>
      have head : Answers c.scope.tokens
          ((observedCalls (observed g memoize depth) c).visit c.active part position)
          (Fits c.scope.tokens position) :=
        fun j kept => visits part List.mem_cons_self position (Nat.le_refl _) inside (j.note _) kept
      refine head.bind fun verdict fits => ?_
      cases verdict with
      | error reason => exact Answers.pure (.error (fits.reads reason rfl))
      | ok next =>
          obtain ⟨behind, inside'⟩ := fits.ahead next rfl
          refine Answers.mono (ih (fun part mem last above => ?_) inside')
            fun verdict fits => fits.trans behind
          exact visits part (List.mem_cons_of_mem _ mem) last (behind.trans above)

/-- Where the shares have these answers, the search of a product goes by them. -/
theorem judges_of_answers {config : MatchConfig} {around : List OpenLoop}
    {channels : Keyed NodeId} {rest : List String} {verdict : List String → NodeId → Verdict}
    (answered : ∀ e ∈ channels.entries, ∀ taken, taken <+: rest →
      (∀ token ∈ taken, Tagged channels token) →
      answer? g config depth ⟨onChannel e.1 taken, around⟩ e.2 =
        some (onShares verdict taken e)) :
    Judges (shareCalls g config depth) around channels rest verdict := by
  intro taken front tagged e listed
  show (answer? g config depth _ e.2).map _ = _
  rw [answered e listed taken front tagged]
  rfl

theorem product_fits {channels : Keyed NodeId}
    (answered : ∀ e ∈ channels.entries, ∀ taken, taken <+: c.rest → ∃ verdict,
      answer? g ⟨memoize⟩ depth ⟨onChannel e.1 taken, c.scope.openLoops c.active⟩ e.2 =
        some verdict)
    (inside : c.position ≤ c.scope.tokens.length) :
    Answers c.scope.tokens
      (product (observedCalls (observed g memoize depth) c) c.scope c.active channels c.position)
      (Fits c.scope.tokens c.position) := by
  intro j kept
  let answer (share : List String) (id : NodeId) : Option Verdict :=
    answer? g ⟨memoize⟩ depth ⟨share, c.scope.openLoops c.active⟩ id
  have judged : Judges (shareCalls g ⟨memoize⟩ depth) (c.scope.openLoops c.active) channels c.rest
      fun share id => (answer share id).getD (.ok 0) := by
    refine judges_of_answers fun e listed taken front _ => ?_
    obtain ⟨verdict, found⟩ := answered e listed taken front
    show _ = some ((answer (onChannel e.1 taken) e.2).getD (.ok 0))
    rw [show answer (onChannel e.1 taken) e.2 = some verdict from found]
    exact found
  obtain ⟨last, verdict, found, bound, _, decided⟩ := product_decides judged
  have run := product_sharing (g := g) memoize depth c channels c.position j
  rw [found] at run
  obtain ⟨⟨verdict', j'⟩, run', same⟩ := Option.map_eq_some_iff.1 run
  obtain ⟨rfl, verdicts⟩ := Prod.mk.inj same
  refine ⟨verdict', j', run', ?_, ?_⟩
  · cases verdict' with
    | ok next =>
        obtain ⟨_, rfl⟩ := decision?_eq_ok decided
        rw [List.length_drop] at bound
        exact .ok (Nat.le_add_right _ _) (by omega)
    | error reason =>
        obtain rfl := product_of_decision? decided
        exact .error trivial
  · intro id position verdict remembered
    rw [verdicts] at remembered
    exact kept id position verdict remembered

/-- If the calls that the rule for a call makes have answers, it has one. -/
theorem node_fits (inside : c.position ≤ c.scope.tokens.length)
    (answers : ∀ callee, Callee g callee c → callee.position ≤ callee.scope.tokens.length →
      Answers callee.scope.tokens (observed g memoize depth callee)
        (Fits callee.scope.tokens callee.position)) :
    Answers c.scope.tokens
      (node g (observedCalls (observed g memoize depth) c) c.scope c.active c.node c.position)
      (Fits c.scope.tokens c.position) := by
  unfold node
  cases shape : g.node? c.node with
  | none => exact Answers.pure (.error trivial)
  | some shaped =>
      cases shaped with
      | emit expected =>
          dsimp only
          split
          · rename_i read
            obtain ⟨inside', _⟩ := List.getElem?_eq_some_iff.1 read
            exact Answers.pure (.ok (Nat.le_succ _) inside')
          · rename_i read
            exact Answers.pure (.error ⟨inside, rfl, read⟩)
      | sequence ids =>
          refine parts_fits (fun part mem next behind inside' => ?_) inside
          exact answers ⟨c.scope, c.active, part, next⟩ (.part shape mem behind inside') inside'
      | choice branches =>
          dsimp only
          split
          · rename_i branch read
            obtain ⟨tag, readTag, _⟩ := Option.bind_eq_some_iff.1 read
            obtain ⟨inside', _⟩ := List.getElem?_eq_some_iff.1 readTag
            have visited := answers ⟨c.scope, c.active, branch, c.position + 1⟩
              (.branch shape read) inside'
            have fits := visited.mono fun verdict fits => fits.trans (Nat.le_succ c.position)
            exact fun j kept => fits (j.note _) kept
          · rename_i read
            exact Answers.pure (.unlisted inside read)
      | loop body =>
          cases body with
          | none => exact Answers.pure (.error trivial)
          | some body =>
              dsimp only
              split
              · exact fun j kept => ⟨_, _, rfl, .error trivial, kept⟩
              · rename_i fresh
                have visited := answers ⟨c.scope, (c.node, c.position) :: c.active, body, c.position⟩
                  (.body shape (Bool.eq_false_iff.2 fresh)) inside
                exact fun j kept => visited (j.note _) kept
      | product channels =>
          refine product_fits (fun e listed taken front => ?_) inside
          have callee : Callee g ⟨⟨onChannel e.1 taken, c.scope.openLoops c.active⟩, [], e.2, 0⟩ c :=
            .share shape listed front
          obtain ⟨verdict, j, run, _⟩ := answers _ callee (Nat.zero_le _) .empty .empty
          refine ⟨verdict, ?_⟩
          rw [← observed_answer memoize depth _ _ .empty rfl, run]
          rfl

end Rules

/-- Whatever loops are open, a call has an answer at every depth above its nesting. -/
theorem observed_fits (guarded : g.LoopGuarded) (memoize : Bool) {depth : Nat} {c : Call}
    (enough : nesting g c < depth) (inside : c.position ≤ c.scope.tokens.length) :
    Answers c.scope.tokens (observed g memoize depth c) (Fits c.scope.tokens c.position) := by
  induction depth generalizing c with
  | zero => exact (Nat.not_lt_zero _ enough).elim
  | succ depth ih =>
      have ruled : Answers c.scope.tokens
          (node g (observedCalls (observed g memoize depth) c) c.scope c.active c.node c.position)
          (Fits c.scope.tokens c.position) :=
        node_fits inside fun callee made inside' =>
          ih ((made.nesting_lt guarded).trans_le (Nat.le_of_lt_succ enough)) inside'
      intro j kept
      rw [observed_succ_run]
      cases hit : if memoize then j.ledger.verdicts[(c.node, c.position)]? else none with
      | some verdict =>
          obtain ⟨found, _⟩ := observed_hit hit g depth
          exact ⟨verdict, j, rfl, kept _ _ _ found, kept⟩
      | none =>
          obtain ⟨verdict, j', run, fits, kept'⟩ := ruled j kept
          rw [run]
          by_cases keep : memoize = true ∧ j'.ledger.cuts = j.ledger.cuts
          · let recorded := { j' with ledger := j'.ledger.record c.node c.position verdict }
            refine ⟨verdict, recorded, ?_, fits, kept'.record fits⟩
            simp only [Option.map_some, if_pos keep, recorded]
          · refine ⟨verdict, j', ?_, fits, kept'⟩
            simp only [Option.map_some, if_neg keep]

theorem plain_fits (guarded : g.LoopGuarded) {depth : Nat} {c : Call}
    (enough : nesting g c < depth) (inside : c.position ≤ c.scope.tokens.length) :
    ∃ verdict, plain g depth c.scope c.active c.node c.position = some verdict ∧
      Fits c.scope.tokens c.position verdict := by
  obtain ⟨verdict, j, run, fits, _⟩ :=
    observed_fits guarded false enough inside .empty .empty
  refine ⟨verdict, ?_, fits⟩
  rw [← observed_plain g depth c .empty, run]
  rfl

theorem exists_answer? (guarded : g.LoopGuarded) (config : MatchConfig) {depth : Nat} {s : Scope}
    {id : NodeId} (enough : nesting g ⟨s, [], id, 0⟩ < depth) :
    ∃ verdict, answer? g config depth s id = some verdict ∧ Fits s.tokens 0 verdict := by
  obtain ⟨memoize⟩ := config
  obtain ⟨verdict, j, run, fits, _⟩ :=
    observed_fits guarded memoize enough (Nat.zero_le _) .empty .empty
  refine ⟨verdict, ?_, fits⟩
  rw [← observed_answer memoize depth s id .empty rfl, run]
  rfl

end Matching

/-- A grammar has an answer on every scope, whatever loops are open around it. -/
theorem Grammar.exists_matchesIn? (guarded : g.LoopGuarded) (config : MatchConfig) (s : Scope)
    (id : NodeId) : ∃ verdict, g.matchesIn? config s id = some verdict ∧ Fits s.tokens 0 verdict :=
  exists_answer? guarded config (nesting_lt_matchingDepth g ⟨s, [], id, 0⟩)

/-- Every depth that suffices gives the answer that the grammar has. -/
theorem Matching.answer?_eq_matchesIn? (guarded : g.LoopGuarded) (config : MatchConfig)
    {depth : Nat} {s : Scope} {id : NodeId} (enough : nesting g ⟨s, [], id, 0⟩ < depth) :
    answer? g config depth s id = g.matchesIn? config s id := by
  obtain ⟨verdict, found, _⟩ := exists_answer? guarded config enough
  obtain ⟨verdict', found', _⟩ := g.exists_matchesIn? guarded config s id
  rw [found, found']
  rcases Nat.le_total depth (g.matchingDepth s.tokens) with le | le
  · exact (answer?_deeper le found).symm.trans found'
  · exact found.symm.trans (answer?_deeper le found')

end Switchboard
