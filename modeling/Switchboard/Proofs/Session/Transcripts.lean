import Switchboard.Machine.Basic
import Switchboard.Proofs.Machine.Halves
import Switchboard.Proofs.Matching.Prefixes
import Switchboard.Proofs.Session.Sending

/-!
# Transcripts of products

The transcript of a session over a product of machines, checked against a product
of protocols, is the transcripts of the halves checked one by one
(`Session.product_transcript_checks`).  A channel is a list of segments to the
machines and a text to the protocols.  Both views agree on what stands behind the
leading segment as long as anything does: the channel with just the one segment
has no slash in its text (`Channel.text_prefixed`).
-/

namespace Switchboard

theorem Channel.text_prefixed {c : Channel} (more : c.isEmpty = false) (segment : String) :
    (c.prefixed segment).text = segment ++ "/" ++ c.text := by
  obtain ⟨segments⟩ := c
  cases segments with
  | nil => cases more
  | cons first rest => simp [text, prefixed]

/-! ## Tokens of prefixed messages -/

section Tokens

variable {segment side : String} {own : Message}

theorem carried?_text_prefixed (single : '/' ∉ segment.toList)
    (more : own.channel.isEmpty = false) :
    carried? segment (own.prefixed segment).channel.text = some own.channel.text :=
  carried?_eq_some_iff.2 ⟨Channel.text_prefixed more segment, single⟩

/-- Tokens carry on a channel what messages are behind a segment. -/
theorem carried?_text (single : '/' ∉ segment.toList) (more : own.channel.isEmpty = false) :
    carried? side (own.prefixed segment).channel.text =
      ((own.prefixed segment).behind? side).map fun m => m.channel.text := by
  have carried := carried?_text_prefixed single more
  rw [Message.behind?_prefixed]
  by_cases same : segment = side
  · subst same
    rw [carried, if_pos rfl]
    rfl
  · rw [if_neg same]
    cases other : carried? side (own.prefixed segment).channel.text with
    | none => rfl
    | some value => exact (same (channel_unique carried other)).elim

end Tokens

/-- The texts of the channels of messages. -/
def Message.texts (messages : List Message) : List String :=
  messages.map fun m => m.channel.text

open Message (texts)

theorem onChannel_texts {side : String} {messages : List Message}
    (prefixed : ∀ m ∈ messages, ∃ segment own, m = Message.prefixed segment own ∧
      '/' ∉ segment.toList ∧ own.channel.isEmpty = false) :
    onChannel side (texts messages) = texts (Message.allBehind side messages) := by
  rw [texts, texts, onChannel, Message.allBehind, List.filterMap_map, List.map_filterMap]
  refine List.filterMap_congr fun m mem => ?_
  obtain ⟨segment, own, rfl, single, more⟩ := prefixed m mem
  exact carried?_text single more

/-! ## Products of protocols -/

/-- The table of a product of two protocols. -/
def Grammar.halves (left right : NodeId) : Keyed NodeId :=
  .ofList [(Machine.leftName, left), (Machine.rightName, right)]

/-- What is said on `left/...` and `right/...` is a word of a product if each half
is a word of its own. -/
theorem spells_texts_iff {g : Grammar} {id left right : NodeId} {outs : List Message}
    (shape : g.node? id = some (.product (Grammar.halves left right)))
    (sided : ∀ out ∈ outs, ∃ own : Message, own.channel.isEmpty = false ∧
      (out = own.prefixed Machine.leftName ∨ out = own.prefixed Machine.rightName)) :
    Spells g (.node id) (texts outs) ↔
      Spells g (.node left) (texts (Message.allBehind Machine.leftName outs)) ∧
        Spells g (.node right) (texts (Message.allBehind Machine.rightName outs)) := by
  have single : '/' ∉ Machine.leftName.toList ∧ '/' ∉ Machine.rightName.toList := by decide
  have prefixed : ∀ m ∈ outs, ∃ segment own, m = Message.prefixed segment own ∧
      '/' ∉ segment.toList ∧ own.channel.isEmpty = false := by
    intro m mem
    obtain ⟨own, more, rfl | rfl⟩ := sided m mem
    · exact ⟨_, own, rfl, single.1, more⟩
    · exact ⟨_, own, rfl, single.2, more⟩
  have tagged : ∀ token ∈ texts outs, Tagged (Grammar.halves left right) token := by
    intro token mem
    obtain ⟨m, listed, rfl⟩ := List.mem_map.1 mem
    obtain ⟨own, more, rfl | rfl⟩ := sided m listed
    · exact ⟨(Machine.leftName, left), List.mem_cons_self, _,
        carried?_text_prefixed single.1 more⟩
    · exact ⟨(Machine.rightName, right), List.mem_cons_of_mem _ List.mem_cons_self, _,
        carried?_text_prefixed single.2 more⟩
  rw [spells_node_iff, shape]
  show (_ ∧ ∀ e ∈ [(Machine.leftName, left), (Machine.rightName, right)], _) ↔ _
  rw [and_iff_right tagged, List.forall_mem_cons, List.forall_mem_singleton,
    onChannel_texts prefixed, onChannel_texts prefixed]

/-! ## Sessions -/

theorem History.transcript_eq (h : History) : h.transcript = Message.texts h.outputs := by
  simp [transcript, outputs, Message.texts]

namespace Session

variable {σ τ : Type} [Observable σ] [Observable τ]

/-- A recording session over a product that answers all of its inputs: each half
alone answers its own inputs with its own outputs, and if all of these have a
channel, the product of two protocols accepts the transcript of the session if
and only if each protocol accepts the transcript of its half. -/
theorem product_transcript_checks {g : Grammar} (guarded : g.LoopGuarded) {id left right : NodeId}
    (shape : g.node? id = some (.product (Grammar.halves left right))) (matching : MatchConfig)
    (l : Machine σ) (r : Machine τ) {config : SessionConfig}
    (recording : config.recordHistory = true) {clock : Nat → Timestamp}
    {inputs outs : List Message} {session : Session (Halves σ τ)}
    (sent : ((start (l.product r) config clock).sendAll inputs).Returns
      (session, outs.map .ok)) :
    ∃ ofLeft ofRight,
      ((start l ⟨true, none⟩ clock).sendAll (Message.allBehind Machine.leftName inputs)).Returns
        (ofLeft, (Message.allBehind Machine.leftName outs).map .ok) ∧
      ((start r ⟨true, none⟩ clock).sendAll (Message.allBehind Machine.rightName inputs)).Returns
        (ofRight, (Message.allBehind Machine.rightName outs).map .ok) ∧
      ((∀ out ∈ ofLeft.history.outputs ++ ofRight.history.outputs,
          out.channel.isEmpty = false) →
        (g.check? matching id session.history.transcript = some (.ok ()) ↔
          g.check? matching left ofLeft.history.transcript = some (.ok ()) ∧
            g.check? matching right ofRight.history.transcript = some (.ok ()))) := by
  obtain ⟨last, answers, outputs⟩ := answers_of_sendAll sent rfl recording
  obtain ⟨answersLeft, answersRight, sided⟩ := Machine.Answers.halves answers
  obtain ⟨ofLeft, sentLeft, outputsLeft⟩ :=
    (start_running l true clock).sendAll_returns rfl answersLeft
  obtain ⟨ofRight, sentRight, outputsRight⟩ :=
    (start_running r true clock).sendAll_returns rfl answersRight
  refine ⟨ofLeft, ofRight, sentLeft, sentRight, fun spoken => ?_⟩
  change session.history.outputs = [] ++ outs at outputs
  change ofLeft.history.outputs = [] ++ _ at outputsLeft
  change ofRight.history.outputs = [] ++ _ at outputsRight
  rw [List.nil_append] at outputs outputsLeft outputsRight
  rw [outputsLeft, outputsRight] at spoken
  have spoken_behind : ∀ out ∈ outs, ∃ own : Message, own.channel.isEmpty = false ∧
      (out = own.prefixed Machine.leftName ∨ out = own.prefixed Machine.rightName) := by
    intro out mem
    obtain ⟨own, side⟩ := sided out mem
    refine ⟨own, spoken own (List.mem_append.2 ?_), side⟩
    exact side.imp (fun eq => List.mem_filterMap.2 ⟨out, mem, Message.behind?_eq_some_iff.2 eq⟩)
      fun eq => List.mem_filterMap.2 ⟨out, mem, Message.behind?_eq_some_iff.2 eq⟩
  rw [History.transcript_eq, History.transcript_eq, History.transcript_eq, outputs, outputsLeft,
    outputsRight, Grammar.check?_eq_ok_iff guarded, Grammar.check?_eq_ok_iff guarded,
    Grammar.check?_eq_ok_iff guarded]
  exact spells_texts_iff shape spoken_behind

/-- Rounds and a farewell, said to two machines that repeat what they hear. -/
def wovenRounds : List Message :=
  [["left", "again"], ["right", "bye"], ["left", "stop"], ["left", "bye"]].map fun segments =>
    ⟨⟨segments⟩, .null⟩

theorem wovenRounds_checks :
    ∃ session : Session (Halves Stateless Stateless),
      ((start (.product (.relabel ⟨[]⟩ ⟨[]⟩) (.relabel ⟨[]⟩ ⟨[]⟩)) defaultConfig
        fun _ => .ofMillis 0).sendAll wovenRounds).Returns (session, wovenRounds.map .ok) ∧
      Grammar.rounds.check? .default 5 session.history.transcript = some (.ok ()) := by
  let echo : Machine Stateless := .relabel ⟨[]⟩ ⟨[]⟩
  let alone : Session Stateless := start echo ⟨true, none⟩ fun _ => .ofMillis 0
  obtain ⟨session, sent⟩ : ∃ session, ((start (echo.product echo) defaultConfig
      fun _ => .ofMillis 0).sendAll wovenRounds).Returns (session, wovenRounds.map .ok) :=
    ⟨_, 0, rfl⟩
  have shape : Grammar.rounds.node? 5 = some (.product (Grammar.halves 0 1)) := rfl
  obtain ⟨ofLeft, ofRight, sentLeft, sentRight, checks⟩ :=
    product_transcript_checks Grammar.rounds_loopGuarded shape .default echo echo rfl sent
  obtain ⟨left, heardLeft, spokenLeft, saidLeft⟩ : ∃ left, (alone.sendAll
      (Message.allBehind Machine.leftName wovenRounds)).Returns (left, _) ∧
      left.history.outputs.map Message.channel = [⟨["again"]⟩, ⟨["stop"]⟩, ⟨["bye"]⟩] ∧
      left.history.transcript = ["again", "stop", "bye"] := ⟨_, ⟨0, rfl⟩, rfl, rfl⟩
  obtain ⟨right, heardRight, spokenRight, saidRight⟩ : ∃ right, (alone.sendAll
      (Message.allBehind Machine.rightName wovenRounds)).Returns (right, _) ∧
      right.history.outputs.map Message.channel = [⟨["bye"]⟩] ∧
      right.history.transcript = ["bye"] := ⟨_, ⟨0, rfl⟩, rfl, rfl⟩
  obtain rfl := (Prod.mk.inj (sentLeft.unique heardLeft)).1
  obtain rfl := (Prod.mk.inj (sentRight.unique heardRight)).1
  have channels : ∀ c ∈ (ofLeft.history.outputs ++ ofRight.history.outputs).map Message.channel,
      c.isEmpty = false := by
    rw [List.map_append, spokenLeft, spokenRight]
    decide
  refine ⟨session, sent, (checks (List.forall_mem_map.1 channels)).2 ⟨?_, ?_⟩⟩
  · rw [saidLeft, Grammar.check?_eq_ok_iff Grammar.rounds_loopGuarded]
    exact .loop rfl (.choice rfl Grammar.rounds_again (.loop rfl (.choice rfl Grammar.rounds_stop
      (.emit rfl))))
  · rw [saidRight, Grammar.check?_eq_ok_iff Grammar.rounds_loopGuarded]
    exact .emit rfl

end Session

end Switchboard
