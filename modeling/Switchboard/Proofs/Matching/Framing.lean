import Switchboard.Proofs.Grammar.Framing
import Switchboard.Proofs.Matching.Contexts

/-!
# Matching sees what can be reached

A rule asks for nothing but the nodes that its node refers to, and a product in search of a
split goes on asking for those of its first shares.  So two grammars that are the same from
a node on give the same answers about it, with verdicts remembered or not
(`Matching.answer?_frame`).  How deep a match may go depends on the size of the
whole grammar, but a greater depth changes no answer.
-/

namespace Switchboard

open Relation (ReflTransGen)

namespace Matching

/-! ## Rules -/

/-- Two ways to carry out calls that agree on some nodes. -/
structure AgreeOn {m : Type → Type} (ids : List NodeId) (calls calls' : Calls m) : Prop where
  visit : ∀ active, ∀ id ∈ ids, ∀ position,
    calls.visit active id position = calls'.visit active id position
  share : ∀ inner, ∀ id ∈ ids, calls.share inner id = calls'.share inner id
  cut : calls.cut = calls'.cut

section Rules

variable {m : Type → Type} [Monad m] [LawfulMonad m] {calls calls' : Calls m} {ids : List NodeId}

omit [LawfulMonad m] in
theorem parts_frame (agree : AgreeOn ids calls calls') (active : Active) (index : Nat)
    {listed : List NodeId} (sub : ∀ id ∈ listed, id ∈ ids) (position : Nat) :
    parts calls active index listed position = parts calls' active index listed position := by
  induction listed generalizing index position with
  | nil => rfl
  | cons part rest ih =>
      rw [parts, parts, agree.visit active part (sub part List.mem_cons_self)]
      refine bind_congr fun verdict => ?_
      cases verdict with
      | ok next => exact ih (index + 1) (fun id mem => sub id (List.mem_cons_of_mem _ mem)) next
      | error reason => rfl

/-- What comes after the empty shares may count on it that they are shares of these
nodes. -/
theorem emptyShares_bind_frame {α : Type} (agree : AgreeOn ids calls calls')
    (around : List OpenLoop) {entries : List (String × NodeId)}
    (sub : ∀ e ∈ entries, e.2 ∈ ids) {f f' : List Share → m α}
    (later : ∀ shares : List Share, (∀ s ∈ shares, s.node ∈ ids) → f shares = f' shares) :
    emptyShares calls around entries >>= f = emptyShares calls' around entries >>= f' := by
  induction entries generalizing f f' with
  | nil =>
      rw [emptyShares, emptyShares, pure_bind, pure_bind]
      refine later [] fun s mem => ?_
      cases mem
  | cons e rest ih =>
      obtain ⟨channel, node⟩ := e
      obtain ⟨here, sub⟩ := List.forall_mem_cons.1 sub
      simp only [emptyShares, bind_assoc, pure_bind]
      rw [agree.share ⟨[], around⟩ node here]
      refine bind_congr fun verdict => ih sub fun shares nodes => ?_
      exact later _ (List.forall_mem_cons.2 ⟨here, nodes⟩)

/-- A share that grows stays a share of its node. -/
theorem grow_bind_frame {α : Type} (agree : AgreeOn ids calls calls') (around : List OpenLoop)
    (channel value : String) {shares : List Share} (nodes : ∀ s ∈ shares, s.node ∈ ids)
    {f f' : List Share → m α}
    (later : ∀ shares : List Share, (∀ s ∈ shares, s.node ∈ ids) → f shares = f' shares) :
    grow calls around channel value shares >>= f =
      grow calls' around channel value shares >>= f' := by
  induction shares generalizing f f' with
  | nil =>
      rw [grow, grow, pure_bind, pure_bind]
      exact later [] nodes
  | cons s rest ih =>
      obtain ⟨here, nodes⟩ := List.forall_mem_cons.1 nodes
      rw [grow, grow]
      by_cases named : s.channel = channel
      · simp only [if_pos named, bind_assoc, pure_bind]
        rw [agree.share _ s.node here]
        exact bind_congr fun verdict => later _ (List.forall_mem_cons.2 ⟨here, nodes⟩)
      · simp only [if_neg named, bind_assoc, pure_bind]
        exact ih nodes fun shares nodes => later _ (List.forall_mem_cons.2 ⟨here, nodes⟩)

theorem search_frame (agree : AgreeOn ids calls calls') (around : List OpenLoop)
    (channels : Keyed NodeId) (start split : Nat) {shares : List Share}
    (nodes : ∀ s ∈ shares, s.node ∈ ids) (tokens : List String) :
    search calls around channels start split shares tokens =
      search calls' around channels start split shares tokens := by
  induction tokens generalizing split shares with
  | nil => rw [search, search]
  | cons token rest ih =>
      rw [search, search]
      by_cases matched : (Share.failures shares).isEmpty
      · rw [if_pos matched, if_pos matched]
      · rw [if_neg matched, if_neg matched]
        cases tag? channels token with
        | none => rfl
        | some tagged =>
            exact grow_bind_frame agree around _ _ nodes fun shares nodes => ih (split + 1) nodes

theorem product_frame {channels : Keyed NodeId}
    (agree : AgreeOn (channels.entries.map (·.2)) calls calls') (s : Scope) (active : Active)
    (position : Nat) :
    product calls s active channels position = product calls' s active channels position :=
  emptyShares_bind_frame agree (s.openLoops active) (fun _ mem => List.mem_map_of_mem mem)
    fun _ nodes => search_frame agree (s.openLoops active) channels position 0 nodes _

/-- A rule reads its own node and asks for the nodes that this one refers to. -/
theorem node_frame {g g' : Grammar} {id : NodeId} (same : g'.node? id = g.node? id)
    (agree : ∀ node, g.node? id = some node → AgreeOn node.references calls calls') (s : Scope)
    (active : Active) (position : Nat) :
    node g calls s active id position = node g' calls' s active id position := by
  unfold node
  rw [same]
  cases shape : g.node? id with
  | none => rfl
  | some shaped =>
      have agree := agree shaped shape
      cases shaped with
      | emit expected => rfl
      | sequence parts => exact parts_frame agree active 0 (fun _ mem => mem) position
      | choice branches =>
          dsimp only
          split
          · next branch read =>
            obtain ⟨tag, _, found⟩ := Option.bind_eq_some_iff.1 read
            have listed := Keyed.find?_eq_some_iff.1 found
            exact agree.visit active branch (List.mem_map.2 ⟨_, listed, rfl⟩) (position + 1)
          · rfl
      | loop body =>
          cases body with
          | none => rfl
          | some body =>
              dsimp only
              rw [agree.cut, agree.visit _ body (List.mem_singleton.2 rfl)]
      | product channels => exact product_frame agree s active position

end Rules

/-! ## Answers -/

section Answers

variable {g g' : Grammar} {id : NodeId}

theorem plain_frame (same : g.SameFrom g' id) (depth : Nat) (s : Scope) (active : Active)
    (position : Nat) :
    plain g depth s active id position = plain g' depth s active id position := by
  induction depth generalizing s active id position with
  | zero => rfl
  | succ depth ih =>
      rw [plain_succ, plain_succ]
      refine node_frame (same id .refl) (fun node shape => ?_) s active position
      have below := same.references shape
      refine ⟨fun active other mem position => ih (below other mem) s active position, ?_, rfl⟩
      intro inner other mem
      show (plain g depth inner [] other 0).map _ = (plain g' depth inner [] other 0).map _
      rw [ih (below other mem)]

theorem memoized_frame (same : g.SameFrom g' id) (depth : Nat) (s : Scope) (active : Active)
    (position : Nat) :
    memoized g depth s active id position = memoized g' depth s active id position := by
  induction depth generalizing s active id position with
  | zero => rfl
  | succ depth ih =>
      have ruled : node g (memoizedCalls g depth s) s active id position =
          node g' (memoizedCalls g' depth s) s active id position := by
        refine node_frame (same id .refl) (fun node shape => ?_) s active position
        have below := same.references shape
        refine ⟨fun active other mem position => ih (below other mem) s active position, ?_, rfl⟩
        intro inner other mem
        simp only [memoizedCalls]
        rw [ih (below other mem)]
      funext l
      show (memoized g (depth + 1) s active id position).run l =
        (memoized g' (depth + 1) s active id position).run l
      rw [memoized_succ_run, memoized_succ_run, ruled]

theorem answer?_frame (same : g.SameFrom g' id) (config : MatchConfig) (depth : Nat) (s : Scope) :
    answer? g config depth s id = answer? g' config depth s id := by
  rw [answer?, answer?, plain_frame same, memoized_frame same]

end Answers

end Matching

namespace Grammar

variable {g g' : Grammar} {id : NodeId}

theorem matchingDepth_mono (le : g.size ≤ g'.size) (tokens : List String) :
    g.matchingDepth tokens ≤ g'.matchingDepth tokens :=
  Nat.mul_le_mul_left _ (Nat.mul_le_mul (Nat.succ_le_succ le) (Nat.succ_le_succ le))

/-- An answer about a node is the same in every larger grammar that is the same from the
node on. -/
theorem matchesPrefix?_frame (same : g.SameFrom g' id) (le : g.size ≤ g'.size)
    {config : MatchConfig} {tokens : List String} {verdict : Verdict}
    (matched : g.matchesPrefix? config id tokens = some verdict) :
    g'.matchesPrefix? config id tokens = some verdict := by
  rw [← matchesIn?_outermost] at matched ⊢
  have kept := Matching.answer?_deeper (matchingDepth_mono le tokens) matched
  rw [Matching.answer?_frame same] at kept
  exact kept

/-- What the first grammar says of a node, the second one says too. -/
structure KeptAt (g g' : Grammar) (id : NodeId) : Prop where
  matched : ∀ config tokens verdict, g.matchesPrefix? config id tokens = some verdict →
    g'.matchesPrefix? config id tokens = some verdict
  checked : ∀ config tokens outcome, g.check? config id tokens = some outcome →
    g'.check? config id tokens = some outcome
  described : ∀ text, g.describe? id = some text → g'.describe? id = some text

theorem keptAt_of_le (same : g.SameFrom g' id) (le : g.size ≤ g'.size) : g.KeptAt g' id where
  matched _ _ _ matched := matchesPrefix?_frame same le matched
  checked config tokens outcome checked := by
    obtain ⟨verdict, matched, rfl⟩ := Option.map_eq_some_iff.1 checked
    exact congrArg (Option.map (exactly tokens)) (matchesPrefix?_frame same le matched)
  described _ described := describe?_frame same le described

/-- What two grammars say of a node is the same, and they do say something. -/
structure AlikeAt (g g' : Grammar) (id : NodeId) : Prop where
  matched : ∀ config tokens, ∃ verdict,
    g.matchesPrefix? config id tokens = some verdict ∧
      g'.matchesPrefix? config id tokens = some verdict
  checked : ∀ config tokens, ∃ outcome,
    g.check? config id tokens = some outcome ∧ g'.check? config id tokens = some outcome
  described : ∃ text, g.describe? id = some text ∧ g'.describe? id = some text

theorem AlikeAt.symm (h : g.AlikeAt g' id) : g'.AlikeAt g id where
  matched config tokens := (h.matched config tokens).imp fun _ both => both.symm
  checked config tokens := (h.checked config tokens).imp fun _ both => both.symm
  described := h.described.imp fun _ both => both.symm

/-- A loop-guarded grammar does say something of every node. -/
theorem KeptAt.alike (h : g.KeptAt g' id) (guarded : g.LoopGuarded) : g.AlikeAt g' id where
  matched config tokens := by
    obtain ⟨verdict, found, _⟩ := g.exists_matchesIn? guarded config (.outermost tokens) id
    exact ⟨verdict, found, h.matched config tokens verdict found⟩
  checked config tokens := by
    obtain ⟨verdict, found, _⟩ := g.exists_matchesIn? guarded config (.outermost tokens) id
    have checked : g.check? config id tokens = some (exactly tokens verdict) :=
      congrArg (Option.map (exactly tokens)) found
    exact ⟨_, checked, h.checked config tokens _ checked⟩
  described := by
    obtain ⟨text, found⟩ := exists_describe? guarded id
    exact ⟨text, found, h.described text found⟩

/-- What a loop-guarded grammar says of a node depends on nothing but the nodes that can be
reached from it.  So whatever is built later, it goes on to say this, if no loop was under
way and the ids that can be reached, those below the size, had all been given. -/
theorem only_reached_nodes_count :
    (∀ g g' : Grammar, g.LoopGuarded → g'.LoopGuarded → ∀ id, g.SameFrom g' id →
      g.AlikeAt g' id) ∧
    (∀ b later : Building, b.around = [] → b.Reaches later → ∀ id,
      (∀ other, ReflTransGen b.grammar.Refers id other → other < b.grammar.size) →
      b.grammar.KeptAt later.grammar id ∧
        (b.grammar.LoopGuarded → b.grammar.AlikeAt later.grammar id)) ∧
    ∀ script b, (Building.start script).Reaches b →
      ∀ id, id ∈ b.issued ↔ id < b.grammar.size := by
  refine ⟨?_, ?_, fun script b reached => Building.issued_iff reached⟩
  · intro g g' guarded guarded' id same
    rcases Nat.le_total g.size g'.size with le | le
    · exact (keptAt_of_le same le).alike guarded
    · exact ((keptAt_of_le same.symm le).alike guarded').symm
  · intro b later idle reached id inside
    have extended := Building.extends_of_reaches idle reached
    have kept := keptAt_of_le (extended.sameFrom inside) extended.larger
    exact ⟨kept, kept.alike⟩

/-- The rounds do not depend on what is not among them, nor on a further loop that is built
behind them. -/
theorem rounds_alike_elsewhere :
    let other : Grammar := ⟨#[.loop (some 2), .emit "bye", .choice roundTags, .emit "hello"]⟩
    let script : Script := .looped (fun loop => .call (.receive "more" loop) .finish) .finish
    (∀ id, ReflTransGen rounds.Refers 0 id → id ∈ [0, 1, 2]) ∧
      rounds.AlikeAt other 0 ∧
      (script.run.on rounds).2.node? 6 = some (.loop (some 7)) ∧
      rounds.AlikeAt (script.run.on rounds).2 0 := by
  intro other script
  obtain ⟨alike, later, _⟩ := only_reached_nodes_count
  have within : ∀ id, ReflTransGen rounds.Refers 0 id → id ∈ [0, 1, 2] :=
    fun id path => mem_of_reached (by decide) (by decide) path
  have guarded : other.LoopGuarded := loopGuarded_of_descending (by decide)
  have held : ∀ id ∈ [0, 1, 2], other.node? id = rounds.node? id := by decide
  have inside : ∀ id ∈ [0, 1, 2], id < rounds.size := by decide
  obtain ⟨issued, reached⟩ := script.run_reaches rounds [] []
  refine ⟨within, ?_, rfl, ?_⟩
  · exact alike rounds other rounds_loopGuarded guarded 0 fun id path => held id (within id path)
  · exact (later _ _ rfl reached 0 fun id path => inside id (within id path)).2 rounds_loopGuarded

end Grammar

end Switchboard
