import Mathlib.Data.List.Basic
import Switchboard.Machine.Basic
import Switchboard.Machine.Renamed
import Switchboard.Proofs.Machine.Logs

/-!
# Renaming there and back

A channel that starts with `old` is renamed and comes back.  One that does not is left
alone by the first renaming, and the opposite one changes it exactly if it starts with
`new` (`Channel.rename_rename_iff`).

A machine renamed twice sees its inputs and answers through both renamings.  As long as
they all come back, its replies are those of the machine itself.
-/

namespace Switchboard

namespace Channel

variable {c start old new : Channel}

theorem after?_eq_some_iff {rest : Channel} :
    after? start c = some rest ↔ c = ⟨start.segments ++ rest.segments⟩ := by
  obtain ⟨segments⟩ := c
  obtain ⟨behind⟩ := rest
  rw [after?, Option.map_eq_some_iff, mk.injEq]
  simp [List.isPrefixOf?_eq_some_iff_append_eq, eq_comm]

theorem startsWith_iff : c.startsWith start = true ↔ ∃ rest, after? start c = some rest := by
  rw [startsWith, List.isPrefixOf_iff_prefix]
  constructor
  · rintro ⟨rest, same⟩
    exact ⟨⟨rest⟩, after?_eq_some_iff.2 (congrArg mk same.symm)⟩
  · rintro ⟨rest, found⟩
    exact ⟨rest.segments, congrArg segments (after?_eq_some_iff.1 found).symm⟩

theorem rename_append (old new : Channel) (rest : List String) :
    rename ⟨old.segments ++ rest⟩ old new = ⟨new.segments ++ rest⟩ := by
  have found : after? old ⟨old.segments ++ rest⟩ = some ⟨rest⟩ := after?_eq_some_iff.2 rfl
  rw [rename, found]

theorem rename_of_not_startsWith (apart : c.startsWith old = false) : c.rename old new = c := by
  have none_ : after? old c = none := by
    rw [Option.eq_none_iff_forall_ne_some]
    intro rest found
    rw [startsWith_iff.2 ⟨rest, found⟩] at apart
    cases apart
  rw [rename, none_]

theorem startsWith_rename (h : c.startsWith old = true) :
    (c.rename old new).startsWith new = true := by
  obtain ⟨rest, found⟩ := startsWith_iff.1 h
  rw [after?_eq_some_iff.1 found, rename_append]
  exact startsWith_iff.2 ⟨rest, after?_eq_some_iff.2 rfl⟩

/-- The opposite renaming brings a channel back unless it meets a channel that only looks
like a renamed one. -/
theorem rename_rename_iff :
    (c.rename old new).rename new old = c ↔ c.startsWith old = true ∨ c.startsWith new = false := by
  cases ours : c.startsWith old with
  | true =>
      obtain ⟨rest, found⟩ := startsWith_iff.1 ours
      rw [after?_eq_some_iff.1 found, rename_append, rename_append]
      simp
  | false =>
      rw [rename_of_not_startsWith ours]
      cases looks : c.startsWith new with
      | false => simp [rename_of_not_startsWith looks]
      | true =>
          have back_under_old : (c.rename new old).startsWith old = true := startsWith_rename looks
          refine iff_of_false (fun same => ?_) (by simp)
          rw [same, ours] at back_under_old
          cases back_under_old

end Channel

namespace Machine

variable {σ : Type} {m : Machine σ} {old new : Channel} {s : σ}

theorem renamed_renamed_advance (m : Machine σ) (old new : Channel) (s : σ) (message : Message) :
    ((m.renamed old new).renamed new old).advance s message =
      (fun turn =>
        (turn.1, turn.2.withChannel ((turn.2.channel.rename old new).rename new old))) <$>
        m.advance s (message.withChannel ((message.channel.rename old new).rename new old)) := by
  simp only [renamed, Message.withChannel, map_eq_pure_bind, bind_assoc, pure_bind]

/-- If the input and every answer to it come back, the reply is that of the machine. -/
theorem renamed_renamed_reply {message : Message}
    (input : (message.channel.rename old new).rename new old = message.channel)
    (answers : ∀ next out, (m.advance s message).Ends (.ok (next, out)) →
      (out.channel.rename old new).rename new old = out.channel) :
    ((m.renamed old new).renamed new old).reply s message = m.reply s message := by
  rw [reply, reply, renamed_renamed_advance, input, ExceptT.run_map, Functor.map_map,
    map_eq_pure_bind, map_eq_pure_bind]
  refine Eventual.bind_congr_returns fun outcome ends => ?_
  cases outcome with
  | error stop => rfl
  | ok turn =>
      obtain ⟨next, out⟩ := turn
      have back := answers next out ends
      simp only [Except.map, Message.withChannel, back]

/-- The replies to the messages are those of the machine if all channels that it sees and
sends meanwhile come back. -/
theorem renamed_renamed_run {messages : List Message}
    (inputs : ∀ message ∈ messages,
      (message.channel.rename old new).rename new old = message.channel)
    (answers : ∀ log, m.Logs s log → log.map Exchange.message <+: messages →
      ∀ e ∈ log, ∀ out, e.reply.outcome = .ok out →
        (out.channel.rename old new).rename new old = out.channel) :
    ((m.renamed old new).renamed new old).run s messages = m.run s messages := by
  induction messages generalizing s with
  | nil => rfl
  | cons message rest ih =>
      have first : ((m.renamed old new).renamed new old).reply s message = m.reply s message := by
        refine renamed_renamed_reply (inputs message List.mem_cons_self) fun next out ends => ?_
        have turn : (m.reply s message).Returns ⟨next, .ok out⟩ :=
          reply_returns_iff.2 ⟨_, ends, rfl⟩
        exact answers [⟨message, ⟨next, .ok out⟩⟩] (.cons turn .nil) ⟨rest, rfl⟩ _
          List.mem_cons_self out rfl
      rw [run, run, first]
      refine Eventual.bind_congr_returns fun r turn => ?_
      have later : ((m.renamed old new).renamed new old).run r.state rest = m.run r.state rest := by
        refine ih (fun message mem => inputs message (List.mem_cons_of_mem _ mem)) ?_
        intro log logs front e mem
        exact answers (⟨message, r⟩ :: log) (.cons turn logs)
          (List.cons_prefix_cons.2 ⟨rfl, front⟩) e (List.mem_cons_of_mem _ mem)
      rw [later]

/-- A renaming is undone by the opposite one exactly where no channel is taken for a
renamed one that is not.  So a machine that is renamed and renamed back replies as
itself, with its own states and stops, to all messages whose channels, and those of its
answers, are not taken so. -/
theorem renaming_is_undone (old new : Channel) :
    (∀ c : Channel, (c.rename old new).rename new old = c ↔
      c.startsWith old = true ∨ c.startsWith new = false) ∧
    ∀ {σ : Type} (m : Machine σ) (s : σ) (messages : List Message),
      (∀ message ∈ messages,
        message.channel.startsWith old = true ∨ message.channel.startsWith new = false) →
      (∀ log, m.Logs s log → log.map Exchange.message <+: messages →
        ∀ e ∈ log, ∀ out, e.reply.outcome = .ok out →
          out.channel.startsWith old = true ∨ out.channel.startsWith new = false) →
      ((m.renamed old new).renamed new old).start = m.start ∧
        ((m.renamed old new).renamed new old).run s messages = m.run s messages := by
  refine ⟨fun c => Channel.rename_rename_iff, fun m s messages inputs answers => ⟨rfl, ?_⟩⟩
  refine renamed_renamed_run ?_ ?_
  · exact fun message mem => Channel.rename_rename_iff.2 (inputs message mem)
  · intro log logs front e mem out answered
    exact Channel.rename_rename_iff.2 (answers log logs front e mem out answered)

theorem Logs.exists_turn {log : List (Exchange σ)} (h : m.Logs s log) {e : Exchange σ}
    (mem : e ∈ log) : ∃ t, (m.reply t e.message).Returns e.reply := by
  induction h with
  | nil => cases mem
  | cons turn _ ih =>
      rcases List.mem_cons.1 mem with rfl | mem
      · exact ⟨_, turn⟩
      · exact ih mem

/-- A question on `continue/c` and its answer, with the question seen as `continue/ask` and
back; a message on `continue/ask` itself would come back as one on `continue/c`. -/
theorem suspension_renamed_back :
    let old : Channel := ⟨["continue", "c"]⟩
    let new : Channel := ⟨["continue", "ask"]⟩
    let asking := suspend ⟨["c"]⟩
    let messages : List Message := [.result (.string "q"), ⟨⟨["c"]⟩, .string "a"⟩]
    ((asking.renamed old new).renamed new old).run .start messages = asking.run .start messages ∧
      (new.rename old new).rename new old ≠ new := by
  intro old new asking messages
  obtain ⟨back, law⟩ := renaming_is_undone old new
  refine ⟨(law asking .start messages ?_ ?_).2, fun same => ?_⟩
  · intro message mem
    rcases List.mem_cons.1 mem with rfl | mem
    · exact Or.inr rfl
    · obtain rfl := List.mem_singleton.1 mem
      exact Or.inr rfl
  · intro log logs _ e mem out answered
    obtain ⟨t, turn⟩ := logs.exists_turn mem
    obtain ⟨outcome, ends, same⟩ := reply_returns_iff.1 turn
    cases outcome with
    | error stop =>
        rw [← same] at answered
        cases answered
    | ok next =>
        obtain rfl : next.2 = out := by
          rw [← same] at answered
          exact Except.ok.inj answered
        cases t with
        | start =>
            simp only [asking, suspend] at ends
            split at ends
            · cases Turn.ends_pure.1 ends
              exact Or.inl rfl
            · cases Turn.ends_fault.1 ends
        | awaiting =>
            simp only [asking, suspend] at ends
            split at ends
            · cases Turn.ends_pure.1 ends
              exact Or.inr rfl
            · cases Turn.ends_fault.1 ends
  · exact absurd ((back new).1 same) (by decide)

end Machine

end Switchboard
