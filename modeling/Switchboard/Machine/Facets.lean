import Switchboard.Machine.Product

/-!
# Facets

A router shows the two halves of a product as the facets `first` and `second`:
`first/op` becomes the request `inner/left/op`, the reply on `inner/left/...`
comes back as `first/...`, and a pair on `result` seeds both halves by `set`.
`bound` ties a router to the machine that answers its requests.

Every request leaves the router in a state of lower rank, so a turn of the bound
machine makes at most two requests.
-/

namespace Switchboard

/-- What a router waits for.  While seeding, `pending` is the value for the right
half until the left half has been seeded. -/
inductive Router where
  | start
  | awaitingFirst
  | awaitingSecond
  | awaitingInit (pending : Option Data)

namespace Router

def name : Router → String
  | .start => "start"
  | .awaitingFirst => "awaiting_first"
  | .awaitingSecond => "awaiting_second"
  | .awaitingInit _ => "awaiting_init"

instance : Observable Router where
  name := name

def toData : Router → Data
  | .start => .string "Start"
  | .awaitingFirst => .string "AwaitingFirst"
  | .awaitingSecond => .string "AwaitingSecond"
  | .awaitingInit pending => .tagged "AwaitingInit" (.object [("pending", .optional pending)])

/-- Null and an absent field both read as nothing pending. -/
def ofData? (d : Data) : Option Router :=
  match d.constant?, d.content? with
  | some "Start", _ => some .start
  | some "AwaitingFirst", _ => some .awaitingFirst
  | some "AwaitingSecond", _ => some .awaitingSecond
  | _, some ("AwaitingInit", content) =>
      match content.fields? ["pending"] with
      | some [pending] => some (.awaitingInit (pending.bind Data.present?))
      | _ => none
  | _, _ => none

def firstName : String := "first"

def secondName : String := "second"

def innerName : String := "inner"

/-- The channel of requests to one half and of its replies. -/
def side (half : String) : Channel :=
  ⟨[innerName, half]⟩

/-- The request that seeds one half. -/
def seed (half : String) (value : Data) : Message :=
  ⟨⟨[innerName, half, "set"]⟩, value⟩

def refuse (s : Router) (message : Message) : Except Fault (Router × Message) :=
  .error (.invalidChannel s.name message.channel)

/-- Passes a reply of one half on as an answer of its facet. -/
def reply (s : Router) (half facet : String) (message : Message) :
    Except Fault (Router × Message) :=
  match (side half).after? message.channel with
  | some rest =>
      if rest.isEmpty then s.refuse message
      else .ok (.start, message.withChannel (rest.prefixed facet))
  | none => s.refuse message

/-- A new exchange: a pair to seed both halves, or a request to one facet. -/
def begin (message : Message) : Except Fault (Router × Message) :=
  if message.channel.is Channel.resultName then
    match message.data.pair? with
    | some (first, second) => .ok (.awaitingInit (some second), seed Machine.leftName first)
    | none => .error (.malformedData message.channel "init expects [first, second]")
  else
    match message.channel.uncons? with
    | some (facet, rest) =>
        if rest.isEmpty then refuse .start message
        else if facet = firstName then
          .ok (.awaitingFirst,
            message.withChannel ((rest.prefixed Machine.leftName).prefixed innerName))
        else if facet = secondName then
          .ok (.awaitingSecond,
            message.withChannel ((rest.prefixed Machine.rightName).prefixed innerName))
        else refuse .start message
    | none => refuse .start message

/-- The reply of a half that was seeded.  An error ends the seeding. -/
def seeded (pending : Option Data) (message : Message) : Except Fault (Router × Message) :=
  let half := if pending.isSome then Machine.leftName else Machine.rightName
  match (side half).after? message.channel with
  | none => refuse (.awaitingInit pending) message
  | some rest =>
      if rest.is Channel.errName then .ok (.start, message.withChannel rest)
      else if rest.is Channel.resultName then
        match pending with
        | some second => .ok (.awaitingInit none, seed Machine.rightName second)
        | none => .ok (.start, Message.result .null)
      else refuse (.awaitingInit pending) message

def step : Router → Message → Except Fault (Router × Message)
  | .start, message => begin message
  | .awaitingFirst, message => reply .awaitingFirst Machine.leftName firstName message
  | .awaitingSecond, message => reply .awaitingSecond Machine.rightName secondName message
  | .awaitingInit pending, message => seeded pending message

/-- How many requests a router can still make before it answers. -/
def rank : Router → Nat
  | .start => 2
  | .awaitingInit (some _) => 1
  | _ => 0

/-- The request to the bound machine in a message of the router, if it is one. -/
def request? (out : Message) : Option Message :=
  (Channel.after? ⟨[innerName]⟩ out.channel).map out.withChannel

theorem request?_eq_none_of_head {out : Message} {segment : String} {rest : List String}
    (h : out.channel.segments = segment :: rest) (ne : innerName ≠ segment) :
    request? out = none := by
  have other : (innerName == segment) = false := beq_false_of_ne ne
  have none_ : List.isPrefixOf? [innerName] (segment :: rest) = none := by
    show (if innerName == segment then List.isPrefixOf? [] rest else none) = none
    rw [other]
    rfl
  rw [request?, Channel.after?, h, none_]
  rfl

/-- A request leaves the router in a state of lower rank. -/
theorem rank_lt_of_request {s next : Router} {message out req : Message}
    (h : s.step message = .ok (next, out)) (hr : request? out = some req) :
    next.rank < s.rank := by
  cases s with
  | start =>
      simp only [step, begin] at h
      split at h
      · split at h <;> cases h
        exact Nat.lt_succ_self 1
      · split at h
        · split at h
          · cases h
          · split at h
            · cases h
              exact Nat.zero_lt_succ 1
            · split at h <;> cases h
              exact Nat.zero_lt_succ 1
        · cases h
  | awaitingFirst =>
      simp only [step, reply] at h
      split at h
      · split at h
        · cases h
        · cases h
          rw [request?_eq_none_of_head rfl (by decide)] at hr
          cases hr
      · cases h
  | awaitingSecond =>
      simp only [step, reply] at h
      split at h
      · split at h
        · cases h
        · cases h
          rw [request?_eq_none_of_head rfl (by decide)] at hr
          cases hr
      · cases h
  | awaitingInit pending =>
      simp only [step, seeded] at h
      split at h
      · cases h
      · next rest _ =>
          split at h
          · next isErr =>
              cases h
              have isErr : rest.segments = [Channel.errName] := by
                simpa [Channel.is] using isErr
              rw [request?_eq_none_of_head isErr (by decide)] at hr
              cases hr
          · split at h
            · cases pending with
              | some second =>
                  cases h
                  exact Nat.zero_lt_succ 0
              | none =>
                  cases h
                  rw [request?_eq_none_of_head rfl (by decide)] at hr
                  cases hr
            · cases h

end Router

/-- A router together with the state of the machine that answers it. -/
structure Bound (σ : Type) where
  router : Router
  inner : σ

namespace Bound

variable {σ : Type}

instance : Observable (Bound σ) where
  name s := s.router.name

/-- The form of a state whose inner state is already laid out. -/
def toData (s : Bound Data) : Data :=
  .object [("inner", s.inner), ("router", s.router.toData)]

def ofData? (d : Data) : Option (Bound Data) :=
  match d.record? ["router", "inner"] with
  | some [some router, some inner] => do some ⟨← Router.ofData? router, inner⟩
  | _ => none

end Bound

namespace Machine

variable {σ : Type}

/-- The router alone. -/
def router : Machine Router where
  start := .start
  advance state message :=
    match state.step message with
    | .ok (next, out) => pure (next, out)
    | .error fault => Turn.fault fault

/-- Lets the inner machine answer the requests of the router until the router
answers. -/
def resolve (inner : Machine σ) (router : Router) (state : σ) (message : Message) :
    Turn (Bound σ × Message) :=
  match _step : router.step message with
  | .error fault => Turn.fault fault
  | .ok (next, out) =>
      match _request : Router.request? out with
      | none => pure (⟨next, state⟩, out)
      | some request => do
          let (state, answer) ← inner.advance state request
          resolve inner next state (answer.prefixed Router.innerName)
termination_by router.rank
decreasing_by exact Router.rank_lt_of_request _step _request

def bound (inner : Machine σ) : Machine (Bound σ) where
  start := ⟨.start, inner.start⟩
  advance state message := resolve inner state.router state.inner message

end Machine

end Switchboard
