import Switchboard.Proofs.Matching.Memory

/-!
# Missing nodes

A mismatch may say, at any depth, that a node is missing.  It says so only of a node that
the matched one leads to along references and that the grammar does not have
(`Matching.plain_misses`).  What is made of the answers to its calls can be traced through
the rules without regard to where in a transcript the calls are made.
-/

namespace Switchboard

/-- The mismatch is another one, or one of the reasons that the other one is made of. -/
inductive Mismatch.Within (said : Mismatch) : Mismatch → Prop
  | here : Within said said
  | step (index : Nat) {reason : Mismatch} (inner : Within said reason) :
      Within said (.step index reason)
  | channel (split : Nat) {channels : List (String × Mismatch)} (blocked : Option Untagged)
      {e : String × Mismatch} (listed : e ∈ channels) (inner : Within said e.2) :
      Within said (.product split channels blocked)

/-- Only nodes with a property are said to be missing. -/
def Misses {α : Type} (P : NodeId → Prop) (result : Except Mismatch α) : Prop :=
  ∀ reason missing, result = .error reason →
    (Mismatch.unknownNode missing).Within reason → P missing

/-- No node is said to be missing. -/
abbrev MissesNothing {α : Type} (result : Except Mismatch α) : Prop :=
  Misses (fun _ => False) result

namespace Misses

variable {α : Type} {P Q : NodeId → Prop}

theorem ok (a : α) : Misses P (.ok a : Except Mismatch α) := by
  intro reason missing failed
  cases failed

theorem error {reason : Mismatch}
    (h : ∀ missing, (Mismatch.unknownNode missing).Within reason → P missing) :
    Misses P (.error reason : Except Mismatch α) := by
  intro whole missing failed said
  cases failed
  exact h missing said

theorem mono {result : Except Mismatch α} (h : Misses P result) (weaker : ∀ id, P id → Q id) :
    Misses Q result :=
  fun reason missing failed said => weaker missing (h reason missing failed said)

theorem step {reason : Mismatch} (h : Misses P (.error reason : Verdict)) (index : Nat) :
    Misses P (.error (.step index reason) : Verdict) := by
  refine .error fun missing said => ?_
  cases said with
  | step _ inner => exact h reason missing rfl inner

theorem exactly {verdict : Verdict} (h : Misses P verdict) (tokens : List String) :
    Misses P (exactly tokens verdict) := by
  intro reason missing failed said
  cases verdict with
  | error reason' =>
      cases failed
      exact h reason missing rfl said
  | ok next =>
      rw [Switchboard.exactly] at failed
      split at failed
      · cases failed
        cases said
      · cases failed

end Misses

namespace Matching

/-! ## The rules -/

section Rules

variable {calls : Calls Option} {P : NodeId → Prop}

/-- All answers about a node miss only nodes with the property. -/
structure Clear (calls : Calls Option) (P : NodeId → Prop) (id : NodeId) : Prop where
  visit : ∀ active position verdict, calls.visit active id position = some verdict →
    Misses P verdict
  share : ∀ inner result, calls.share inner id = some result → Misses P result

theorem parts_misses {active : Active} {ids : List NodeId}
    (clear : ∀ part ∈ ids, Clear calls P part) {index position : Nat} {verdict : Verdict}
    (h : parts calls active index ids position = some verdict) : Misses P verdict := by
  induction ids generalizing index position with
  | nil =>
      cases h
      exact .ok position
  | cons part ids ih =>
      obtain ⟨first, visited, rest⟩ := Option.bind_eq_some_iff.1 h
      have own := (clear part List.mem_cons_self).visit _ _ _ visited
      cases first with
      | ok next => exact ih (fun part mem => clear part (List.mem_cons_of_mem _ mem)) rest
      | error reason =>
          cases rest
          exact own.step index

/-- A share of a product whose verdict misses only nodes with the property, and goes on
to do so when it grows. -/
def ClearShare (calls : Calls Option) (P : NodeId → Prop) (share : Share) : Prop :=
  Clear calls P share.node ∧ Misses P share.verdict

theorem emptyShares_misses {around : List OpenLoop} {entries : List (String × NodeId)}
    (clear : ∀ e ∈ entries, Clear calls P e.2) {shares : List Share}
    (h : emptyShares calls around entries = some shares) :
    ∀ share ∈ shares, ClearShare calls P share := by
  induction entries generalizing shares with
  | nil =>
      cases h
      intro share mem
      cases mem
  | cons e entries ih =>
      obtain ⟨verdict, asked, rest⟩ := Option.bind_eq_some_iff.1 h
      obtain ⟨others, later, rest⟩ := Option.bind_eq_some_iff.1 rest
      cases rest
      have own := clear e List.mem_cons_self
      have first : ClearShare calls P ⟨e.1, e.2, [], verdict⟩ := ⟨own, own.share _ _ asked⟩
      exact List.forall_mem_cons.2
        ⟨first, ih (fun e mem => clear e (List.mem_cons_of_mem _ mem)) later⟩

theorem grow_misses {around : List OpenLoop} {channel value : String} {shares grown : List Share}
    (clear : ∀ share ∈ shares, ClearShare calls P share)
    (h : grow calls around channel value shares = some grown) :
    ∀ share ∈ grown, ClearShare calls P share := by
  induction shares generalizing grown with
  | nil =>
      cases h
      exact clear
  | cons s shares ih =>
      obtain ⟨own, others⟩ := List.forall_mem_cons.1 clear
      rw [grow] at h
      split at h
      · obtain ⟨verdict, asked, rest⟩ := Option.bind_eq_some_iff.1 h
        cases rest
        exact List.forall_mem_cons.2 ⟨⟨own.1, own.1.share _ _ asked⟩, others⟩
      · obtain ⟨later, grew, rest⟩ := Option.bind_eq_some_iff.1 h
        cases rest
        exact List.forall_mem_cons.2 ⟨own, ih others grew⟩

/-- A product that fails misses what its shares miss. -/
theorem failures_misses {shares : List Share} (clear : ∀ share ∈ shares, ClearShare calls P share)
    (split : Nat) (blocked : Option Untagged) :
    Misses P (.error (.product split (Share.failures shares) blocked) : Verdict) := by
  refine .error fun missing said => ?_
  cases said with
  | channel _ _ listed inner =>
      obtain ⟨share, mem, found⟩ := List.mem_filterMap.1 listed
      have own := (clear share mem).2
      split at found
      · cases found
      · rename_i reason verdict
        cases found
        exact own reason missing verdict inner

theorem search_misses {around : List OpenLoop} {channels : Keyed NodeId} {start split : Nat}
    {shares : List Share} {tokens : List String} {verdict : Verdict}
    (clear : ∀ share ∈ shares, ClearShare calls P share)
    (h : search calls around channels start split shares tokens = some verdict) :
    Misses P verdict := by
  induction tokens generalizing split shares with
  | nil =>
      rw [search] at h
      split at h
      · cases h
        exact .ok _
      · cases h
        exact failures_misses clear split none
  | cons token tokens ih =>
      rw [search] at h
      split at h
      · cases h
        exact .ok _
      · split at h
        · cases h
          exact failures_misses clear split _
        · obtain ⟨grown, grew, rest⟩ := Option.bind_eq_some_iff.1 h
          exact ih (grow_misses clear grew) rest

/-- A rule misses the node itself, if that is missing, and what the nodes that it refers
to miss. -/
theorem node_misses {g : Grammar} {s : Scope} {active : Active} {id position : Nat}
    {verdict : Verdict} (own : g.node? id = none → P id)
    (clear : ∀ other, g.Refers id other → Clear calls P other)
    (h : node g calls s active id position = some verdict) : Misses P verdict := by
  unfold node at h
  split at h
  · rename_i absent
    cases h
    refine .error fun missing said => ?_
    cases said
    exact own absent
  · cases h
    split
    · exact .ok _
    · intro reason missing failed said
      cases failed
      cases said
  · rename_i ids shape
    exact parts_misses (fun part mem => clear part ⟨_, shape, mem⟩) h
  · rename_i branches shape
    split at h
    · rename_i branch read
      obtain ⟨tag, _, found⟩ := Option.bind_eq_some_iff.1 read
      have listed := Keyed.find?_eq_some_iff.1 found
      exact (clear branch ⟨_, shape, List.mem_map.2 ⟨_, listed, rfl⟩⟩).visit _ _ _ h
    · cases h
      exact .error fun missing said => nomatch said
  · cases h
    exact .error fun missing said => nomatch said
  · rename_i body shape
    split at h
    · obtain ⟨_, _, rest⟩ := Option.bind_eq_some_iff.1 h
      cases rest
      exact .error fun missing said => nomatch said
    · exact (clear body ⟨_, shape, List.mem_singleton.2 rfl⟩).visit _ _ _ h
  · rename_i channels shape
    obtain ⟨shares, began, rest⟩ := Option.bind_eq_some_iff.1 h
    refine search_misses (emptyShares_misses (fun e mem => ?_) began) rest
    exact clear e.2 ⟨_, shape, List.mem_map.2 ⟨e, mem, rfl⟩⟩

end Rules

end Matching

/-! ## Whole matches -/

namespace Grammar

variable {g : Grammar}

/-- A node that references lead to, though the grammar does not have it. -/
def Lacks (g : Grammar) (id missing : NodeId) : Prop :=
  Relation.ReflTransGen g.Refers id missing ∧ g.node? missing = none

end Grammar

variable {g : Grammar}

theorem Matching.plain_misses {depth : Nat} {s : Scope} {active : Active} {id position : Nat}
    {verdict : Verdict} (h : plain g depth s active id position = some verdict) :
    Misses (g.Lacks id) verdict := by
  induction depth generalizing s active id position verdict with
  | zero => cases h
  | succ depth ih =>
      rw [plain_succ] at h
      refine node_misses (fun absent => ⟨.refl, absent⟩) (fun other refers => ?_) h
      have passed : ∀ missing, g.Lacks other missing → g.Lacks id missing :=
        fun missing lacks => ⟨.head refers lacks.1, lacks.2⟩
      constructor
      · intro active position verdict visited
        exact (ih visited).mono passed
      · intro inner result shared
        obtain ⟨verdict, visited, rfl⟩ := Option.map_eq_some_iff.1 shared
        exact ((ih visited).mono passed).exactly inner.tokens

/-- Whatever is asked of a node, only nodes are said to be missing that it leads to and
that are. -/
theorem Grammar.answers_miss (guarded : g.LoopGuarded) (config : MatchConfig) (id : NodeId)
    (tokens : List String) :
    ∃ verdict, g.matchesPrefix? config id tokens = some verdict ∧
      g.check? config id tokens = some (exactly tokens verdict) ∧ Misses (g.Lacks id) verdict := by
  obtain ⟨verdict, answers⟩ := Matching.observed_answers guarded id tokens
  obtain ⟨_, journal, run, _⟩ := answers config.memoize (g.matchingDepth tokens) (Nat.le_refl _)
  obtain ⟨_, _, run', _⟩ := answers false (g.matchingDepth tokens) (Nat.le_refl _)
  obtain ⟨matched, checked⟩ := answers_of_run run
  have forgotten : g.matchesPrefix? ⟨false⟩ id tokens = some verdict := (answers_of_run run').1
  exact ⟨verdict, matched, checked, Matching.plain_misses forgotten⟩

end Switchboard
