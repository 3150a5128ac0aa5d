import Switchboard.Proofs.Matching.Memory

/-!
# Splitting from scratch

The search of a product keeps the verdict of every share that did not grow.  It
comes to the same as splitting the tokens taken afresh each time and asking all
channels: the search ends at the first number of tokens for which the product
decides (`Matching.product_decides`).  This holds for any verdicts of the shares,
those in which a loop was refused included.

So if no shorter part of a transcript is split, the answer to all of it tells the
verdicts of the channels on their shares and nothing about the order in which the
shares were filled (`Grammar.check?_product`).
-/

namespace Switchboard

namespace Matching

variable {calls : Calls Option} {around : List OpenLoop} {channels : Keyed NodeId}
  {rest : List String} {verdict : List String → NodeId → Verdict}

/-- The verdicts of channels on the shares that some tokens make. -/
def onShares (verdict : List String → NodeId → Verdict) (taken : List String)
    (e : String × NodeId) : Verdict :=
  verdict (onChannel e.1 taken) e.2

/-- Every channel has these verdicts on the shares of all parts in front that carry
channels only. -/
def Judges (calls : Calls Option) (around : List OpenLoop) (channels : Keyed NodeId)
    (rest : List String) (verdict : List String → NodeId → Verdict) : Prop :=
  ∀ taken, taken <+: rest → (∀ token ∈ taken, Tagged channels token) →
    ∀ e ∈ channels.entries, calls.share ⟨onChannel e.1 taken, around⟩ e.2 =
      some (exactly (onChannel e.1 taken) (onShares verdict taken e))

theorem emptyShares_eq {entries : List (String × NodeId)}
    (judged : ∀ e ∈ entries, calls.share ⟨[], around⟩ e.2 = some (exactly [] (verdict [] e.2))) :
    emptyShares calls around entries = some (sharesIn entries [] (onShares verdict [])) := by
  induction entries with
  | nil => rfl
  | cons e entries ih =>
      obtain ⟨first, others⟩ := List.forall_mem_cons.1 judged
      rw [emptyShares, first, ih others]
      rfl

/-- One more token is taken: the channels that it does not carry have the shares
and the verdicts that they had. -/
theorem grow_eq {entries : List (String × NodeId)} (ascending : Entries.Ascending entries)
    {taken : List String} {token channel value : String}
    (carried : carried? channel token = some value)
    (judged : ∀ e ∈ entries, calls.share ⟨onChannel e.1 (taken ++ [token]), around⟩ e.2 =
      some (exactly (onChannel e.1 (taken ++ [token])) (onShares verdict (taken ++ [token]) e))) :
    grow calls around channel value (sharesIn entries taken (onShares verdict taken)) =
      some (sharesIn entries (taken ++ [token]) (onShares verdict (taken ++ [token]))) := by
  induction entries with
  | nil => rfl
  | cons e entries ih =>
      obtain ⟨first, others⟩ := List.forall_mem_cons.1 judged
      rw [sharesIn_cons, grow]
      by_cases found : e.1 = channel
      · subst found
        have tokens : ∀ other ∈ entries,
            onChannel other.1 (taken ++ [token]) = onChannel other.1 taken :=
          fun other mem =>
            onChannel_concat_of_ne taken carried (ne_of_ascending ascending other mem)
        have same : ∀ other ∈ entries,
            onShares verdict (taken ++ [token]) other = onShares verdict taken other :=
          fun other mem => by rw [onShares, onShares, tokens other mem]
        rw [if_pos rfl, sharesIn_cons, sharesIn_congr tokens same, onChannel_concat taken carried]
        rw [onChannel_concat taken carried] at first
        simp only [first]
        rfl
      · have tokens := onChannel_concat_of_ne taken carried (Ne.symm found)
        have kept : onShares verdict (taken ++ [token]) e = onShares verdict taken e := by
          rw [onShares, onShares, tokens]
        rw [if_neg found, ih (List.pairwise_cons.1 ascending).2 others, sharesIn_cons, tokens, kept]
        rfl

/-- From the tokens taken on, the search finds the first split that decides. -/
def SearchDecides (calls : Calls Option) (around : List OpenLoop) (channels : Keyed NodeId)
    (rest : List String) (verdict : List String → NodeId → Verdict) (position : Nat)
    (taken tokens : List String) : Prop :=
  ∃ last answer, search calls around channels position taken.length
      (sharesIn channels.entries taken (onShares verdict taken)) tokens = some answer ∧
    taken.length ≤ last ∧ last ≤ rest.length ∧
    (∀ k, taken.length ≤ k → k < last →
      decision? channels rest position k (onShares verdict (rest.take k)) = none) ∧
    decision? channels rest position last (onShares verdict (rest.take last)) = some answer

theorem search_decides_here {position : Nat} {taken tokens : List String} {answer : Verdict}
    (split : taken ++ tokens = rest)
    (decided : decision? channels rest position taken.length (onShares verdict taken) =
      some answer) : SearchDecides calls around channels rest verdict position taken tokens := by
  have now : rest.take taken.length = taken := by rw [← split, List.take_left]
  refine ⟨taken.length, answer, ?_, Nat.le_refl _, ?_, fun k from_ below => by omega, ?_⟩
  · rw [← split] at decided
    exact search_of_decided _ _ decided
  · rw [← split, List.length_append]
    exact Nat.le_add_right _ _
  · rw [now]
    exact decided

/-- The walk over the tokens that are left is the one of the search. -/
theorem search_decides {position : Nat} (judged : Judges calls around channels rest verdict)
    {taken tokens : List String} (split : taken ++ tokens = rest)
    (tagged : ∀ token ∈ taken, Tagged channels token) :
    SearchDecides calls around channels rest verdict position taken tokens := by
  induction tokens generalizing taken with
  | nil =>
      cases decided : decision? channels rest position taken.length (onShares verdict taken) with
      | none =>
          obtain ⟨token, read, _⟩ := (decision?_eq_none_iff.1 decided).2
          rw [← split, List.append_nil, List.getElem?_length] at read
          cases read
      | some answer => exact search_decides_here split decided
  | cons token tokens ih =>
      cases decided : decision? channels rest position taken.length (onShares verdict taken) with
      | some answer => exact search_decides_here split decided
      | none =>
          have step := decided
          rw [← split] at step
          have carries := tagged_of_decision?_eq_none step
          obtain ⟨⟨channel, value⟩, tag⟩ := Option.isSome_iff_exists.1 (tag?_isSome_iff.2 carries)
          have tagged' : ∀ other ∈ taken ++ [token], Tagged channels other := by
            intro other mem
            rcases List.mem_append.1 mem with mem | mem
            · exact tagged other mem
            · exact List.mem_singleton.1 mem ▸ carries
          have split' : taken ++ [token] ++ tokens = rest := by
            rw [List.append_assoc]
            exact split
          have grown := grow_eq channels.ascending (tag?_eq_some_iff.1 tag).1
            (judged _ ⟨tokens, split'⟩ tagged')
          obtain ⟨last, answer, found, beyond, inside, undecided, decides⟩ :=
            ih split' tagged'
          rw [List.length_append, List.length_singleton] at found beyond undecided
          refine ⟨last, answer, ?_, by omega, inside, fun k from_ below => ?_, decides⟩
          · rw [search_of_undecided _ _ step tag, grown]
            exact found
          · rcases Nat.lt_or_eq_of_le from_ with later | rfl
            · exact undecided k later below
            · have now : rest.take taken.length = taken := by rw [← split, List.take_left]
              rw [now]
              exact decided

/-- A product takes the first split that decides, as if every split were made from
scratch. -/
theorem product_decides {s : Scope} {active : Active} {position : Nat}
    (judged : Judges calls (s.openLoops active) channels (s.tokens.drop position) verdict) :
    ∃ last answer, product calls s active channels position = some answer ∧
      last ≤ (s.tokens.drop position).length ∧
      (∀ k < last, decision? channels (s.tokens.drop position) position k
        (onShares verdict ((s.tokens.drop position).take k)) = none) ∧
      decision? channels (s.tokens.drop position) position last
        (onShares verdict ((s.tokens.drop position).take last)) = some answer := by
  have nothing : ∀ token ∈ ([] : List String), Tagged channels token :=
    fun token mem => (List.not_mem_nil mem).elim
  have empty := emptyShares_eq (judged [] List.nil_prefix nothing)
  have searched : SearchDecides calls (s.openLoops active) channels (s.tokens.drop position)
      verdict position [] (s.tokens.drop position) :=
    search_decides judged (List.nil_append _) nothing
  obtain ⟨last, answer, found, _, inside, undecided, decides⟩ := searched
  refine ⟨last, answer, ?_, inside, fun k below => undecided k (Nat.zero_le k) below, decides⟩
  rw [product, empty]
  exact found

end Matching

namespace Grammar

variable {g : Grammar} {config : MatchConfig} {id : NodeId} {channels : Keyed NodeId}
  {tokens : List String} {verdict : List String → NodeId → Verdict}

/-- All transcripts have one verdict for each node, with memory or without. -/
def Rules (g : Grammar) (verdict : List String → NodeId → Verdict) : Prop :=
  ∀ config id tokens, g.matchesPrefix? config id tokens = some (verdict tokens id)

theorem exists_rules (guarded : g.LoopGuarded) : ∃ verdict, g.Rules verdict := by
  have answered : ∀ tokens id, ∃ verdict, ∀ config,
      g.matchesPrefix? config id tokens = some verdict := by
    intro tokens id
    obtain ⟨verdict, answers⟩ := Matching.observed_answers guarded id tokens
    refine ⟨verdict, fun config => ?_⟩
    obtain ⟨_, _, run, _⟩ := answers config.memoize (g.matchingDepth tokens) (Nat.le_refl _)
    exact (answers_of_run run).1
  choose verdict rules using answered
  exact ⟨verdict, fun config id tokens => rules tokens id config⟩

theorem Rules.check? (rules : g.Rules verdict) :
    g.check? config id tokens = some (exactly tokens (verdict tokens id)) := by
  rw [Grammar.check?, rules]
  rfl

/-- Every depth that suffices gives the verdict. -/
theorem Rules.plain (rules : g.Rules verdict) (guarded : g.LoopGuarded) {depth : Nat}
    (enough : nesting g (.outermost tokens id) < depth) :
    Matching.plain g depth (.outermost tokens) [] id 0 = some (verdict tokens id) := by
  obtain ⟨_, _, first, second, _⟩ := Matching.plain_related guarded enough
    (nesting_outermost_lt g tokens id) (Call.outermost_inBounds tokens id)
    (Call.outermost_pending g tokens id)
  exact first.trans (second.symm.trans (rules ⟨false⟩ id tokens))

/-- A product asks its channels for the verdicts that the grammar has on their
shares. -/
theorem Rules.product (rules : g.Rules verdict) (guarded : g.LoopGuarded)
    (shape : g.node? id = some (.product channels)) (tokens : List String) :
    ∃ last, last ≤ tokens.length ∧
      (∀ k < last, decision? channels tokens 0 k
        (Matching.onShares verdict (tokens.take k)) = none) ∧
      decision? channels tokens 0 last (Matching.onShares verdict (tokens.take last)) =
        some (verdict tokens id) := by
  have deep := nesting_outermost_lt g tokens id
  obtain ⟨depth, same⟩ : ∃ depth, g.matchingDepth tokens = depth + 1 :=
    ⟨g.matchingDepth tokens - 1, by omega⟩
  rw [same] at deep
  have judged : Matching.Judges (Matching.plainCalls g depth (.outermost tokens))
      ((Scope.outermost tokens).openLoops []) channels
      ((Scope.outermost tokens).tokens.drop 0) verdict := by
    intro taken front _ e listed
    have callee : Callee g ⟨⟨onChannel e.1 taken, []⟩, [], e.2, 0⟩ ⟨.outermost tokens, [], id, 0⟩ :=
      @Callee.share g _ [] id channels e taken 0 shape listed front
    have less : nesting g (.outermost (onChannel e.1 taken) e.2) <
        nesting g (.outermost tokens id) := callee.nesting_lt guarded
    have answer := rules.plain guarded (less.trans_le (Nat.le_of_lt_succ deep))
    exact congrArg (Option.map _) answer
  obtain ⟨last, answer, found, inside, undecided, decides⟩ := Matching.product_decides judged
  have whole : Matching.plain g (depth + 1) (.outermost tokens) [] id 0 = some answer := by
    rw [Matching.plain_succ, Matching.node, shape]
    exact found
  obtain rfl := Option.some.inj ((rules.plain guarded deep).symm.trans whole)
  exact ⟨last, inside, undecided, decides⟩

end Grammar

end Switchboard
