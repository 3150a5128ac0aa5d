import Switchboard.Machine.Sequence
import Switchboard.Proofs.Machine.Runs

/-!
# Sequences are associative

Three machines one after the other are nested in two ways.  The states of the
two nestings correspond (`Phase.reassociate`), and so do their turns.  What has
to be looked at is the hand-over: the break of the inner sequence's first
machine has become a continuation when the outer sequence sees it, so that the
outer one stays in its first phase, whatever the rest of the channel is.
-/

namespace Switchboard

namespace Phase

variable {σ τ υ : Type}

/-- The same machine at work, in the other nesting. -/
def reassociate : Phase (Phase σ τ) υ → Phase σ (Phase τ υ)
  | .first (.first inner) => .first inner
  | .first (.second inner) => .second (.first inner)
  | .second inner => .second (.second inner)

theorem isFinal_reassociate [Observable σ] [Observable τ] [Observable υ]
    (s : Phase (Phase σ τ) υ) :
    Observable.isFinal s.reassociate = Observable.isFinal s := by
  rcases s with (inner | inner) | inner
  · rfl
  · rfl
  · rfl

end Phase

/-- A continuation is recognised as one, whatever it continues on. -/
theorem Message.control_continueOn (rest : Channel) (data : Data) :
    (Message.continueOn rest data).channel.control = .continuing rest := by
  simp [Message.continueOn, Channel.prefixed, Channel.control]

namespace Machine

variable {σ τ υ : Type}

/-- Where the first machine breaks, one nesting hands over outside and the other inside, hidden
from the outer sequence. -/
theorem advance_reassociate (a : Machine σ) (b : Machine τ) (c : Machine υ)
    (s : Phase (Phase σ τ) υ) (message : Message) :
    (sequence a (sequence b c)).advance s.reassociate message =
      (fun r => (r.1.reassociate, r.2)) <$> (sequence (sequence a b) c).advance s message := by
  rcases s with (inner | inner) | inner
  · simp only [Phase.reassociate, sequence, map_bind, bind_assoc]
    refine congrArg (a.advance inner message >>= ·) (funext fun r => ?_)
    obtain ⟨next, out⟩ := r
    cases steers : out.channel.control with
    | breaking rest => simp [Message.control_continueOn]
    | continuing rest => simp [steers]
    | data => simp [steers]
  · simp only [Phase.reassociate, sequence, map_bind, bind_assoc, pure_bind]
    refine congrArg (b.advance inner message >>= ·) (funext fun r => ?_)
    obtain ⟨next, out⟩ := r
    cases steers : out.channel.control with
    | breaking rest => simp
    | continuing rest => simp
    | data => simp
  · simp [Phase.reassociate, sequence]

/-- Every turn of one nesting is a turn of the other. -/
theorem sequence_simulates (a : Machine σ) (b : Machine τ) (c : Machine υ) :
    Simulates (sequence a (sequence b c)) (sequence (sequence a b) c) Phase.reassociate where
  start := rfl
  advance := advance_reassociate a b c

/-- Both nestings of three machines answer every list of messages alike, stop
alike, and are final at the same times. -/
theorem observe_sequence_assoc [Observable σ] [Observable τ] [Observable υ] (a : Machine σ)
    (b : Machine τ) (c : Machine υ) (messages : List Message) :
    (sequence (sequence a b) c).observe messages = (sequence a (sequence b c)).observe messages :=
  ((sequence_simulates a b c).observe Phase.isFinal_reassociate messages).symm

end Machine

end Switchboard
