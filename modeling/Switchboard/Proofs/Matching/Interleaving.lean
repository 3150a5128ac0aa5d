import Mathlib.Algebra.BigOperators.Group.List.Basic
import Mathlib.Algebra.GroupWithZero.Nat
import Switchboard.Proofs.Matching.Prefixes
import Switchboard.Proofs.Matching.Splitting

/-!
# Interleavings

Two transcripts are interleavings of the same shares if they give every channel of
a product the same values.  A product cannot tell them apart once it looks at all
of their tokens: whether they are accepted is a matter of the shares alone, and so
is the report of a transcript that is refused as a whole (`Grammar.check?_product`).
A product stops early only where a shorter part of the transcript is accepted.
-/

namespace Switchboard

/-! ## The number of tokens -/

/-- In a table exactly one entry has a name that occurs. -/
theorem Entries.sum_name_eq_one {entries : List (String × NodeId)}
    (ascending : Entries.Ascending entries) {e : String × NodeId} (listed : e ∈ entries) :
    (entries.map fun other => if other.1 = e.1 then 1 else 0).sum = 1 := by
  induction entries with
  | nil => cases listed
  | cons first entries ih =>
      have differ := ne_of_ascending ascending
      rw [List.map_cons, List.sum_cons]
      rcases List.mem_cons.1 listed with rfl | later
      · have others : (entries.map fun other => if other.1 = e.1 then 1 else 0) =
            entries.map fun _ => 0 :=
          List.map_congr_left fun other mem => if_neg (differ other mem).symm
        rw [if_pos rfl, others]
        simp
      · rw [if_neg (differ e later), ih (List.pairwise_cons.1 ascending).2 later]

/-- Tokens that carry channels are as many as the values on all channels. -/
theorem sum_length_onChannel {channels : Keyed NodeId} {tokens : List String}
    (tagged : ∀ token ∈ tokens, Tagged channels token) :
    (channels.entries.map fun e => (onChannel e.1 tokens).length).sum = tokens.length := by
  induction tokens with
  | nil => simp [onChannel]
  | cons token rest ih =>
      obtain ⟨⟨e, listed, value, carried⟩, later⟩ := List.forall_mem_cons.1 tagged
      have one : ∀ other : String × NodeId, (onChannel other.1 (token :: rest)).length =
          (if other.1 = e.1 then 1 else 0) + (onChannel other.1 rest).length := by
        intro other
        by_cases same : other.1 = e.1
        · rw [if_pos same, same, onChannel, List.filterMap_cons_some carried, ← onChannel,
            List.length_cons, Nat.add_comm]
        · have silent : carried? other.1 token = none := by
            cases found : carried? other.1 token with
            | none => rfl
            | some _ => exact (same (channel_unique found carried)).elim
          rw [if_neg same, onChannel, List.filterMap_cons_none silent, ← onChannel, Nat.zero_add]
      simp only [one]
      rw [List.sum_map_add, Entries.sum_name_eq_one channels.ascending listed, ih later,
        List.length_cons, Nat.add_comm]

namespace Grammar

variable {g : Grammar} {config : MatchConfig} {id : NodeId} {channels : Keyed NodeId}
  {tokens word other : List String} {verdict : List String → NodeId → Verdict}

/-- No part in front of a transcript, the whole left out, is accepted. -/
def Unsplit (g : Grammar) (config : MatchConfig) (id : NodeId) (tokens : List String) : Prop :=
  ∀ front, front <+: tokens → front ≠ tokens → g.check? config id front ≠ some (.ok ())

/-- The channels match all of their shares exactly if the product accepts. -/
theorem Rules.matched_iff (rules : g.Rules verdict) (guarded : g.LoopGuarded)
    (shape : g.node? id = some (.product channels))
    (tagged : ∀ token ∈ tokens, Tagged channels token) :
    Matched channels tokens (Matching.onShares verdict tokens) ↔
      g.check? config id tokens = some (.ok ()) := by
  rw [check?_eq_ok_iff guarded, spells_node_iff, shape]
  dsimp only
  rw [and_iff_right tagged]
  refine forall₂_congr fun e _ => ?_
  have share : g.check? config e.2 (onChannel e.1 tokens) = some (.ok ()) ↔
      Spells g (.node e.2) (onChannel e.1 tokens) := check?_eq_ok_iff guarded
  rw [← share, rules.check?, Option.some.injEq]
  rfl

/-- The answer of a product to tokens all of which it has to take: the channels whose
shares are not matched, with the verdicts on these shares. -/
def answerToAll (channels : Keyed NodeId) (tokens : List String)
    (verdict : List String → NodeId → Verdict) : Except Mismatch Unit :=
  let failing :=
    Share.failures (sharesIn channels.entries tokens (Matching.onShares verdict tokens))
  if failing.isEmpty then .ok () else .error (.product tokens.length failing none)

theorem Rules.check?_product (rules : g.Rules verdict) (guarded : g.LoopGuarded)
    (shape : g.node? id = some (.product channels))
    (tagged : ∀ token ∈ tokens, Tagged channels token) (unsplit : g.Unsplit config id tokens) :
    g.check? config id tokens = some (answerToAll channels tokens verdict) := by
  obtain ⟨last, inside, undecided, decides⟩ := rules.product guarded shape tokens
  have whole : last = tokens.length := by
    rcases Nat.lt_or_eq_of_le inside with below | same
    · exfalso
      have shorter : (tokens.take last).length < tokens.length := by
        rw [List.length_take_of_le inside]
        exact below
      cases answer : verdict tokens id with
      | ok next =>
          rw [answer] at decides
          have matched := (decision?_eq_ok decides).1
          rw [rules.matched_iff guarded shape
            (fun token mem => tagged token (List.mem_of_mem_take mem))] at matched
          have proper : tokens.take last ≠ tokens := fun same =>
            Nat.lt_irrefl _ (same ▸ shorter)
          exact unsplit _ (List.take_prefix _ _) proper matched
      | error reason =>
          rw [answer] at decides
          have all := length_le_of_decision? decides tagged (List.prefix_refl tokens)
          exact Nat.not_lt_of_le all below
    · exact same
  subst whole
  rw [List.take_length] at decides
  rw [rules.check?, answerToAll]
  by_cases matched : Matched channels tokens (Matching.onShares verdict tokens)
  · have none_ := failures_sharesIn_isEmpty.2 matched
    rw [decision?, List.take_length, if_pos none_, Nat.zero_add] at decides
    rw [← Option.some.inj decides, if_pos none_]
    simp [exactly]
  · have some_ := mt failures_sharesIn_isEmpty.1 matched
    rw [decision?, List.take_length, if_neg some_, List.getElem?_length] at decides
    rw [← Option.some.inj decides, if_neg some_]
    rfl

/-- Interleavings of the same shares are answered alike: they are accepted together,
and if no shorter part of either is accepted, they have one and the same answer, the
mismatch included. -/
theorem interleavings_answered_alike (guarded : g.LoopGuarded) (config : MatchConfig)
    (shape : g.node? id = some (.product channels))
    (tagged : ∀ token ∈ word, Tagged channels token)
    (tagged' : ∀ token ∈ other, Tagged channels token)
    (same : ∀ e ∈ channels.entries, onChannel e.1 word = onChannel e.1 other) :
    (g.check? config id word = some (.ok ()) ↔ g.check? config id other = some (.ok ())) ∧
    (g.Unsplit config id word → g.Unsplit config id other →
      ∃ result, g.check? config id word = some result ∧
        g.check? config id other = some result) := by
  obtain ⟨verdict, rules⟩ := exists_rules guarded
  have judged : ∀ e ∈ channels.entries,
      Matching.onShares verdict word e = Matching.onShares verdict other e := by
    intro e listed
    rw [Matching.onShares, Matching.onShares, same e listed]
  constructor
  · rw [← rules.matched_iff guarded shape tagged, ← rules.matched_iff guarded shape tagged']
    refine forall₂_congr fun e listed => ?_
    rw [judged e listed, same e listed]
  · intro unsplit unsplit'
    have long : word.length = other.length := by
      rw [← sum_length_onChannel tagged, ← sum_length_onChannel tagged']
      exact congrArg List.sum (List.map_congr_left fun e listed => by rw [same e listed])
    have alike : answerToAll channels word verdict = answerToAll channels other verdict := by
      rw [answerToAll, answerToAll, sharesIn_congr same judged, long]
    refine ⟨answerToAll channels word verdict, ?_, ?_⟩
    · exact rules.check?_product guarded shape tagged unsplit
    · rw [alike]
      exact rules.check?_product guarded shape tagged' unsplit'

theorem unsplit_pair {first second : String} (none_ : g.check? config id [] ≠ some (.ok ()))
    (one : g.check? config id [first] ≠ some (.ok ())) : g.Unsplit config id [first, second] := by
  rintro front ⟨back, split⟩ proper
  rcases front with _ | ⟨a, _ | ⟨b, more⟩⟩
  · exact none_
  · obtain ⟨rfl, _⟩ := List.cons.inj split
    exact one
  · have whole : a = first ∧ b = second ∧ more = [] ∧ back = [] := by simpa using split
    obtain ⟨rfl, rfl, rfl, _⟩ := whole
    exact (proper rfl).elim

/-- What the rounds side by side with the farewell stand for gives each its share. -/
theorem rounds_shares (spelled : Spells rounds (.node 5) word) :
    Spells rounds (.node 0) (onChannel "left" word) ∧ onChannel "right" word = ["bye"] := by
  have shape : rounds.node? 5 = some (.product (Keyed.ofList [("left", 0), ("right", 1)])) := rfl
  have farewell : rounds.node? 1 = some (.emit "bye") := rfl
  rw [spells_node_iff, shape] at spelled
  obtain ⟨_, shares⟩ := spelled
  have left := shares ("left", 0) (by decide)
  have right := shares ("right", 1) (by decide)
  rw [spells_node_iff, farewell] at right
  exact ⟨left, right⟩

/-- Every word of the rounds begins with one of their tags and does not end with the
tag for one more. -/
theorem rounds_over (spelled : Spells rounds (.node 0) word) : word ≠ [] ∧ word ≠ ["again"] := by
  have nonempty : ∀ {word}, Spells rounds (.node 0) word →
      ∃ tag branch rest, roundTags.find? tag = some branch ∧
        Spells rounds (.node branch) rest ∧ word = tag :: rest := by
    intro word spelled
    have loop : rounds.node? 0 = some (.loop (some 2)) := rfl
    have tags : rounds.node? 2 = some (.choice roundTags) := rfl
    rw [spells_node_iff, loop] at spelled
    dsimp only at spelled
    rw [spells_node_iff, tags] at spelled
    exact spelled
  obtain ⟨tag, branch, rest, found, later, rfl⟩ := nonempty spelled
  refine ⟨List.cons_ne_nil _ _, fun same => ?_⟩
  obtain ⟨rfl, rfl⟩ := List.cons.inj same
  obtain rfl : branch = 0 := Option.some.inj (found.symm.trans rounds_again)
  obtain ⟨_, _, _, _, _, same⟩ := nonempty later
  cases same

/-- Rounds that have only begun beside a farewell: whichever comes first, it is told
in the same words that the rounds are not over. -/
theorem rounds_interleaved :
    ∃ reason, rounds.check? .default 5 ["left/again", "right/bye"] = some (.error reason) ∧
      rounds.check? .default 5 ["right/bye", "left/again"] = some (.error reason) := by
  have shape : rounds.node? 5 = some (.product (Keyed.ofList [("left", 0), ("right", 1)])) := rfl
  have tagged : ∀ tokens : List String,
      (∀ token ∈ tokens, (tag? (Keyed.ofList [("left", 0), ("right", 1)]) token).isSome = true) →
        ∀ token ∈ tokens, Tagged (Keyed.ofList [("left", 0), ("right", 1)]) token :=
    fun tokens found token mem => tag?_isSome_iff.1 (found token mem)
  have unfinished : ∀ tokens : List String, onChannel "left" tokens = [] ∨
      onChannel "left" tokens = ["again"] → rounds.check? .default 5 tokens ≠ some (.ok ()) := by
    intro tokens early accepted
    obtain ⟨left, _⟩ := rounds_shares ((check?_eq_ok_iff rounds_loopGuarded).1 accepted)
    obtain ⟨some_, more⟩ := rounds_over left
    exact early.elim some_ more
  have shares : ∀ e ∈ (Keyed.ofList [("left", 0), ("right", 1)]).entries,
      onChannel e.1 ["left/again", "right/bye"] = onChannel e.1 ["right/bye", "left/again"] := by
    decide +kernel
  obtain ⟨_, alike⟩ := interleavings_answered_alike rounds_loopGuarded .default shape
    (tagged ["left/again", "right/bye"] (by decide +kernel))
    (tagged ["right/bye", "left/again"] (by decide +kernel)) shares
  obtain ⟨result, first, second⟩ := alike
    (unsplit_pair (unfinished _ (by decide)) (unfinished _ (by decide)))
    (unsplit_pair (unfinished _ (by decide)) (unfinished _ (by decide)))
  cases result with
  | ok u => exact (unfinished _ (by decide) first).elim
  | error reason => exact ⟨reason, first, second⟩

end Grammar

end Switchboard
