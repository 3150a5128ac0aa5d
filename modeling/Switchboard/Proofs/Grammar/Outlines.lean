import Switchboard.Proofs.Grammar.Unfolding

/-!
# Outlines of loop-guarded grammars

The loops met by an unfolding are those that can be reached.  One that is met is
closed at the end: every loop that can be reached from it without passing
another one has been met as well.  In the text each loop met stands in full where
it is met first and is referred to at every later visit.
-/

namespace Switchboard

open Relation (ReflTransGen)

/-! ## The text in pieces -/

/-- A piece of the text of an outline: the beginning of a loop in full, a reference back
to a loop, or what stands around these. -/
inductive Piece where
  | full (id : NodeId)
  | back (id : NodeId)
  | plain (text : String)

namespace Piece

def text : Piece → String
  | .full id => "loop@" ++ toString id ++ "("
  | .back id => "@" ++ toString id
  | .plain text => text

/-- The loop that a piece shows. -/
def loop? : Piece → Option NodeId
  | .full id | .back id => some id
  | .plain _ => none

@[simp]
theorem loop?_full (id : NodeId) : (full id).loop? = some id := rfl

@[simp]
theorem loop?_back (id : NodeId) : (back id).loop? = some id := rfl

@[simp]
theorem loop?_plain (text : String) : (plain text).loop? = none := rfl

end Piece

namespace Outline

mutual

def pieces : Outline → List Piece
  | .emit token => [.plain ("emit(" ++ token ++ ")")]
  | .sequence parts => .plain "[" :: piecesOfParts parts ++ [.plain "]"]
  | .choice branches => .plain "choice\x7b" :: piecesOfEntries branches ++ [.plain "\x7d"]
  | .product channels => .plain "product\x7b" :: piecesOfEntries channels ++ [.plain "\x7d"]
  | .loop id none => [.full id, .plain "?)"]
  | .loop id (some body) => .full id :: pieces body ++ [.plain ")"]
  | .again id => [.back id]
  | .unknown id => [.plain ("unknown#" ++ toString id)]

def piecesOfParts : List Outline → List Piece
  | [] => []
  | [part] => pieces part
  | part :: rest => pieces part ++ .plain ", " :: piecesOfParts rest

def piecesOfEntries : List (String × Outline) → List Piece
  | [] => []
  | [(name, entry)] => .plain (name ++ ": ") :: pieces entry
  | (name, entry) :: rest =>
      .plain (name ++ ": ") :: pieces entry ++ .plain ", " :: piecesOfEntries rest

end

mutual

theorem join_pieces : ∀ o : Outline, String.join (o.pieces.map Piece.text) = o.render
  | .emit token => by simp [pieces, render, Piece.text]
  | .sequence parts => by
      simp [pieces, render, Piece.text, join_piecesOfParts parts, String.append_assoc]
  | .choice branches => by
      simp [pieces, render, Piece.text, join_piecesOfEntries branches, String.append_assoc]
  | .product channels => by
      simp [pieces, render, Piece.text, join_piecesOfEntries channels, String.append_assoc]
  | .loop id none => by simp [pieces, render, Piece.text, String.append_assoc]
  | .loop id (some body) => by
      simp [pieces, render, Piece.text, join_pieces body, String.append_assoc]
  | .again id => by simp [pieces, render, Piece.text]
  | .unknown id => by simp [pieces, render, Piece.text]

theorem join_piecesOfParts : ∀ parts : List Outline,
    String.join ((piecesOfParts parts).map Piece.text) = renderParts parts
  | [] => rfl
  | [part] => join_pieces part
  | part :: second :: rest => by
      have others := join_piecesOfParts (second :: rest)
      simp [piecesOfParts, renderParts, Piece.text, join_pieces part, others, String.append_assoc]

theorem join_piecesOfEntries : ∀ entries : List (String × Outline),
    String.join ((piecesOfEntries entries).map Piece.text) = renderEntries entries
  | [] => rfl
  | [(name, entry)] => by simp [piecesOfEntries, renderEntries, Piece.text, join_pieces entry]
  | (name, entry) :: second :: rest => by
      have others := join_piecesOfEntries (second :: rest)
      simp [piecesOfEntries, renderEntries, Piece.text, join_pieces entry, others,
        String.append_assoc]

end

/-! ## Visits to a loop -/

/-- How an outline shows its visits to a loop, in the order of the text. -/
def mentions (l : NodeId) (o : Outline) : List Piece :=
  o.pieces.filter (·.loop? = some l)

theorem mentions_parts (l : NodeId) (parts : List Outline) :
    (piecesOfParts parts).filter (·.loop? = some l) = parts.flatMap (mentions l) := by
  induction parts with
  | nil => rfl
  | cons part rest ih =>
      rw [List.flatMap_cons, ← ih]
      cases rest with
      | nil => simp [piecesOfParts, mentions]
      | cons second rest => simp [piecesOfParts, mentions]

theorem mentions_entries (l : NodeId) (entries : List (String × Outline)) :
    (piecesOfEntries entries).filter (·.loop? = some l) =
      (entries.map (·.2)).flatMap (mentions l) := by
  induction entries with
  | nil => rfl
  | cons entry rest ih =>
      rw [List.map_cons, List.flatMap_cons, ← ih]
      cases rest with
      | nil => simp [piecesOfEntries, mentions]
      | cons second rest => simp [piecesOfEntries, mentions]

theorem mentions_table (l : NodeId) {table : Keyed NodeId} {parts : List Outline}
    (same : parts.length = (table.entries.map (·.2)).length) :
    (piecesOfEntries (table.names.zip parts)).filter (·.loop? = some l) =
      parts.flatMap (mentions l) := by
  have named : parts.length ≤ table.names.length := by
    simpa [Keyed.names] using same.le
  rw [mentions_entries]
  exact congrArg (List.flatMap (mentions l)) (List.map_snd_zip named)

/-- The outline of a node shows what those of its references show, and if the node is the
loop then this in full in front. -/
theorem mentions_outlined (l id : NodeId) {node : Node} {parts : List Outline}
    (same : parts.length = node.references.length) :
    (node.outlined id parts).mentions l =
      (if node.isLoop = true ∧ id = l then [.full l] else []) ++ parts.flatMap (mentions l) := by
  cases node with
  | emit token =>
      obtain rfl := List.length_eq_zero_iff.1 same
      rfl
  | sequence _ => simp [Node.outlined, Node.isLoop, mentions, pieces, mentions_parts]
  | choice table => simp [Node.outlined, Node.isLoop, mentions, pieces, mentions_table l same]
  | product table => simp [Node.outlined, Node.isLoop, mentions, pieces, mentions_table l same]
  | loop body =>
      cases body with
      | none =>
          obtain rfl := List.length_eq_zero_iff.1 same
          by_cases found : id = l
          · simp [Node.outlined, Node.isLoop, mentions, pieces, found]
          · simp [Node.outlined, Node.isLoop, mentions, pieces, found]
      | some body =>
          obtain ⟨part, rfl⟩ := List.length_eq_one_iff.1 same
          by_cases found : id = l
          · simp [Node.outlined, Node.isLoop, mentions, pieces, found]
          · simp [Node.outlined, Node.isLoop, mentions, pieces, found]

end Outline

/-- How the visits between two moments show a loop: one that was met before is only
referred to, one that is met stands in full first, and any other is not shown. -/
inductive Told (l : NodeId) (seen seen' : List NodeId) : List Piece → Prop
  | before (met : l ∈ seen) (n : Nat) : Told l seen seen' (List.replicate n (.back l))
  | first (fresh : l ∉ seen) (met : l ∈ seen') (n : Nat) :
      Told l seen seen' (.full l :: List.replicate n (.back l))
  | never (fresh : l ∉ seen') : Told l seen seen' []

namespace Told

variable {l id : NodeId} {seen mid seen' : List NodeId} {shown shown' : List Piece}

theorem nothing (l : NodeId) (seen : List NodeId) : Told l seen seen [] := by
  by_cases met : l ∈ seen
  · exact .before met 0
  · exact .never met

theorem append (h : Told l seen mid shown) (h' : Told l mid seen' shown') (sub : seen ⊆ mid)
    (sub' : mid ⊆ seen') : Told l seen seen' (shown ++ shown') := by
  cases h with
  | before met n =>
      cases h' with
      | before _ n' =>
          rw [List.replicate_append_replicate]
          exact .before met (n + n')
      | first fresh => exact absurd (sub met) fresh
      | never fresh => exact absurd (sub' (sub met)) fresh
  | first fresh met n =>
      cases h' with
      | before _ n' =>
          rw [List.cons_append, List.replicate_append_replicate]
          exact .first fresh (sub' met) (n + n')
      | first fresh' => exact absurd met fresh'
      | never fresh' => exact absurd (sub' met) fresh'
  | never fresh =>
      rw [List.nil_append]
      cases h' with
      | before met => exact absurd met fresh
      | first _ met n => exact .first (fun was => fresh (sub was)) met n
      | never fresh' => exact .never fresh'

/-- A loop that is entered stands in full in front of all that its references show. -/
theorem enter {node : Node} (h : Told l (node.entered id seen) mid shown)
    (fresh : node.isLoop = true → id ∉ seen) (sub : node.entered id seen ⊆ mid) :
    Told l seen mid ((if node.isLoop = true ∧ id = l then [.full l] else []) ++ shown) := by
  rw [Node.entered] at h sub
  by_cases loop : node.isLoop = true
  · rw [if_pos loop] at h sub
    by_cases found : id = l
    · subst found
      rw [if_pos ⟨loop, rfl⟩]
      cases h with
      | before _ n => exact .first (fresh loop) (sub List.mem_cons_self) n
      | first fresh' => exact absurd List.mem_cons_self fresh'
      | never fresh' => exact absurd (sub List.mem_cons_self) fresh'
    · rw [if_neg (fun both => found both.2), List.nil_append]
      have other : l ≠ id := fun same => found same.symm
      cases h with
      | before met n => exact .before (List.mem_of_ne_of_mem other met) n
      | first fresh' met n =>
          exact .first (fun was => fresh' (List.mem_cons_of_mem _ was)) met n
      | never fresh' => exact .never fresh'
  · rw [if_neg loop] at h
    rw [if_neg (fun both => loop both.1), List.nil_append]
    exact h

theorem of_mem (h : Told l [] seen' shown) (met : l ∈ seen') :
    ∃ n, shown = .full l :: List.replicate n (.back l) := by
  cases h with
  | before was => cases was
  | first _ _ n => exact ⟨n, rfl⟩
  | never fresh => exact absurd met fresh

theorem of_not_mem (h : Told l [] seen' shown) (fresh : l ∉ seen') : shown = [] := by
  cases h with
  | before was => cases was
  | first _ met => exact absurd met fresh
  | never => rfl

end Told

namespace Grammar

variable {g : Grammar} {id l : NodeId} {ids seen seen' : List NodeId} {os : List Outline}

/-- An outline shows a node: each visited node is unfolded as the grammar has it, but for
the loops that are only referred to. -/
inductive Shows (g : Grammar) : NodeId → Outline → Prop
  | unknown {id : NodeId} (absent : g.node? id = none) : Shows g id (.unknown id)
  | again {id : NodeId} (loop : g.IsLoop id) : Shows g id (.again id)
  | node {id : NodeId} {node : Node} {parts : List Outline} (shape : g.node? id = some node)
      (inside : List.Forall₂ (Shows g) node.references parts) : Shows g id (node.outlined id parts)

/-- Every loop that a node reaches without passing another one is among the loops met. -/
def Covers (g : Grammar) (seen : List NodeId) (id : NodeId) : Prop :=
  ∀ l, g.IsLoop l → ReflTransGen g.Bare id l → l ∈ seen

theorem Covers.mono (h : g.Covers seen id) (sub : seen ⊆ seen') : g.Covers seen' id :=
  fun l loop path => sub (h l loop path)

/-- A node is covered if its references are, and a loop if it has been met as well. -/
theorem covers_of_references {node : Node} (shape : g.node? id = some node)
    (met : node.isLoop = true → id ∈ seen) (h : ∀ other ∈ node.references, g.Covers seen other) :
    g.Covers seen id := by
  rintro l ⟨body, shape'⟩ path
  rcases path.cases_head with rfl | ⟨other, ⟨⟨node', shape'', mem⟩, _⟩, path⟩
  · cases shape.symm.trans shape'
    exact met rfl
  · cases shape.symm.trans shape''
    exact h other mem l ⟨body, shape'⟩ path

namespace Unfolds

theorem shows (h : Unfolds g seen ids os seen') : List.Forall₂ (Shows g) ids os := by
  induction h with
  | nil => exact .nil
  | unknown absent _ ih => exact .cons (.unknown absent) ih
  | again loop _ _ ih => exact .cons (.again loop) ih
  | node shape _ _ _ ihInside ihLater => exact .cons (.node shape ihInside) ihLater

theorem told (h : Unfolds g seen ids os seen') (l : NodeId) :
    Told l seen seen' (os.flatMap (Outline.mentions l)) := by
  induction h with
  | @nil seen => exact .nothing l seen
  | unknown _ _ ih => exact ih
  | @again id seen _ _ _ _ met later ih =>
      rw [List.flatMap_cons]
      refine Told.append ?_ ih (List.Subset.refl _) later.subset
      by_cases found : id = l
      · have shown : (Outline.again id).mentions l = List.replicate 1 (.back l) := by
          simp [Outline.mentions, Outline.pieces, found]
        rw [shown]
        exact .before (found ▸ met) 1
      · have shown : (Outline.again id).mentions l = [] := by
          simp [Outline.mentions, Outline.pieces, found]
        rw [shown]
        exact .nothing l seen
  | @node id seen _ _ _ _ _ node _ fresh inside later ihInside ihLater =>
      rw [List.flatMap_cons, Outline.mentions_outlined l id inside.length_eq]
      have kept := List.Subset.trans (node.subset_entered id seen) inside.subset
      exact (ihInside.enter fresh inside.subset).append ihLater kept later.subset

/-- The loops met are loops below the visited nodes. -/
theorem sound (h : Unfolds g seen ids os seen') (mem : l ∈ seen') :
    l ∈ seen ∨ g.IsLoop l ∧ ∃ id ∈ ids, ReflTransGen g.Refers id l := by
  have listed_later : ∀ {id : NodeId} {rest : List NodeId},
      (g.IsLoop l ∧ ∃ id ∈ rest, ReflTransGen g.Refers id l) →
        g.IsLoop l ∧ ∃ other ∈ id :: rest, ReflTransGen g.Refers other l := by
    rintro _ _ ⟨loop, other, listed, path⟩
    exact ⟨loop, other, List.mem_cons_of_mem _ listed, path⟩
  induction h with
  | nil => exact Or.inl mem
  | unknown _ _ ih => exact (ih mem).imp_right listed_later
  | again _ _ _ ih => exact (ih mem).imp_right listed_later
  | @node id seen _ _ _ _ _ node shape _ _ _ ihInside ihLater =>
      rcases ihLater mem with early | later
      · rcases ihInside early with entered | ⟨loop, other, listed, path⟩
        · rcases Node.mem_entered.1 entered with ⟨loop, rfl⟩ | was
          · exact Or.inr ⟨isLoop_of_shape shape loop, l, List.mem_cons_self, .refl⟩
          · exact Or.inl was
        · have edge : g.Refers id other := ⟨node, shape, listed⟩
          exact Or.inr ⟨loop, id, List.mem_cons_self, path.head edge⟩
      · exact Or.inr (listed_later later)

/-- The visited nodes are covered, and so are the references of the loops met on the way. -/
theorem covers (h : Unfolds g seen ids os seen') :
    (∀ id ∈ ids, g.Covers seen' id) ∧
      ∀ v ∈ seen', v ∉ seen → ∀ other, g.Refers v other → g.Covers seen' other := by
  induction h with
  | nil =>
      refine ⟨fun id listed => ?_, fun v mem fresh => absurd mem fresh⟩
      cases listed
  | @unknown id _ _ _ _ absent _ ih =>
      refine ⟨List.forall_mem_cons.2 ⟨?_, ih.1⟩, ih.2⟩
      rintro l ⟨body, shape⟩ path
      rcases path.cases_head with rfl | ⟨other, ⟨⟨node, shape', _⟩, _⟩, _⟩
      · cases absent.symm.trans shape
      · cases absent.symm.trans shape'
  | @again id _ _ _ _ loop met later ih =>
      refine ⟨List.forall_mem_cons.2 ⟨?_, ih.1⟩, ih.2⟩
      intro l _ path
      rcases path.cases_head with rfl | ⟨other, ⟨_, noLoop⟩, _⟩
      · exact later.subset met
      · exact absurd loop noLoop
  | @node id seen mid _ seen' _ _ node shape fresh inside later ihInside ihLater =>
      have met : node.isLoop = true → id ∈ seen' := fun loop =>
        later.subset (inside.subset (Node.mem_entered.2 (Or.inl ⟨loop, rfl⟩)))
      have references_covered : ∀ other ∈ node.references, g.Covers seen' other :=
        fun other listed => (ihInside.1 other listed).mono later.subset
      have covered := covers_of_references shape met references_covered
      refine ⟨List.forall_mem_cons.2 ⟨covered, ihLater.1⟩, ?_⟩
      intro v mem fresh other edge
      by_cases early : v ∈ mid
      · by_cases entered : v ∈ node.entered id seen
        · rcases Node.mem_entered.1 entered with ⟨_, rfl⟩ | was
          · obtain ⟨node', shape', listed⟩ := edge
            cases shape.symm.trans shape'
            exact references_covered other listed
          · exact absurd was fresh
        · exact (ihInside.2 v early entered other edge).mono later.subset
      · exact ihLater.2 v mem early other edge

end Unfolds

/-- What can be reached from a covered node is covered, if the loops met have covered
references. -/
theorem covers_of_reached (closed : ∀ v ∈ seen, ∀ other, g.Refers v other → g.Covers seen other)
    (h : g.Covers seen id) {other : NodeId} (path : ReflTransGen g.Refers id other) :
    g.Covers seen other := by
  induction path with
  | refl => exact h
  | @tail before other _ edge ih =>
      by_cases loop : g.IsLoop before
      · exact closed before (ih before loop .refl) other edge
      · exact fun l target path => ih l target (path.head ⟨edge, loop⟩)

/-- In a loop-guarded grammar every node has an outline.  It shows the node, and the loops
met with it are those that can be reached: each of them stands in full where the text
comes to it first, and every later visit refers to it. -/
theorem outline_unfolds_loops_once (guarded : g.LoopGuarded) (id : NodeId) :
    ∃ o seen, (∀ depth ≥ g.outlineDepth, (g.unfold depth id).run [] = some (o, seen)) ∧
      g.outlineWithLoops? id = some (o, seen) ∧
      g.describe? id = some (String.join (o.pieces.map Piece.text)) ∧
      g.Shows id o ∧ seen.Nodup ∧
      (∀ l, l ∈ seen ↔ g.IsLoop l ∧ ReflTransGen g.Refers id l) ∧
      (∀ l ∈ seen, ∃ n, o.mentions l = .full l :: List.replicate n (.back l)) ∧
      ∀ l, l ∉ seen → o.mentions l = [] := by
  obtain ⟨o, seen, run⟩ := unfold_returns guarded (g.descent_le_outlineDepth id)
  have unfolds := unfolds_of_unfold run
  have covered : g.Covers seen id := unfolds.covers.1 id List.mem_cons_self
  have closed : ∀ v ∈ seen, ∀ other, g.Refers v other → g.Covers seen other :=
    fun v mem => unfolds.covers.2 v mem List.not_mem_nil
  have told : ∀ l, Told l [] seen (o.mentions l) := by
    intro l
    have shown := unfolds.told l
    rwa [List.flatMap_cons, List.flatMap_nil, List.append_nil] at shown
  refine ⟨o, seen, ?_, run, ?_, ?_, unfolds.nodup List.nodup_nil, ?_, ?_, ?_⟩
  · intro depth enough
    obtain ⟨more, rfl⟩ := Nat.exists_eq_add_of_le enough
    exact unfold_deeper run more
  · rw [describe?, outline?, outlineWithLoops?, run, Outline.join_pieces]
    rfl
  · exact (List.forall₂_cons.1 unfolds.shows).1
  · intro l
    constructor
    · intro mem
      rcases unfolds.sound mem with was | ⟨loop, start, listed, path⟩
      · cases was
      · cases List.mem_singleton.1 listed
        exact ⟨loop, path⟩
    · rintro ⟨loop, path⟩
      exact covers_of_reached closed covered path l loop .refl
  · exact fun l mem => (told l).of_mem mem
  · exact fun l fresh => (told l).of_not_mem fresh

/-- Below the rounds side by side with a farewell there is one loop, which is shown twice. -/
theorem rounds_outlined :
    rounds.LoopGuarded ∧
      rounds.describe? 5 = some
        "product\x7bleft: loop@0(choice\x7bagain: @0, stop: emit(bye)\x7d), right: emit(bye)\x7d" ∧
      (∀ l, l ∈ [0] ↔ rounds.IsLoop l ∧ ReflTransGen rounds.Refers 5 l) ∧
      ∃ o, rounds.outlineWithLoops? 5 = some (o, [0]) ∧
        ∃ n, o.mentions 0 = .full 0 :: List.replicate n (.back 0) := by
  obtain ⟨o, seen, -, run, -, -, -, met, shown, -⟩ :=
    outline_unfolds_loops_once rounds_loopGuarded 5
  have one : (rounds.outlineWithLoops? 5).map (·.2) = some [0] := rfl
  rw [run] at one
  cases one
  exact ⟨rounds_loopGuarded, rfl, met, o, run, shown 0 List.mem_cons_self⟩

end Grammar

end Switchboard
