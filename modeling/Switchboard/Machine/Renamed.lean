import Switchboard.Machine

/-!
# Machines behind other channel names

`renamed inner old new` shows the channels `old/...` of its inner machine as
`new/...`, in both directions.
-/

namespace Switchboard

namespace Machine

variable {σ : Type}

def renamed (inner : Machine σ) (old new : Channel) : Machine σ where
  start := inner.start
  advance state message := do
    let (next, out) ← inner.advance state
      (message.withChannel (message.channel.rename new old))
    pure (next, out.withChannel (out.channel.rename old new))

end Machine

end Switchboard
