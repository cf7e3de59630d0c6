import DevicePairing.Channel.Call

/-!
# Observers at work

A call is dealt with before any observer hears of it. Then its events are told one by one, each to the
observers that are registered when its turn comes, in the order in which they joined; a verification code
is shown to the listener that was set when the code came up. Whoever is told may use the channel at once:
send, close, register others, or hand it the next message.

A `Session` is a channel together with the log of all that happened, and `Behaviour` says what those who
are told do. A behaviour sees the whole session, so it stands for any deterministic observer, however it
makes up its mind. Observers that keep calling each other would never come to an end, so `perform` takes
a bound on how deep requests may nest.

The owner may let go of the channel at any time, even while it is being told of something. A channel that
is let go of in the middle of a call still ends that call, with all that comes in meanwhile, and only then
is out of reach.
-/

namespace DevicePairing

/-- Something asked of a session: of the channel, or of its stream or store from outside the channel. -/
inductive Session.Request (σ τ α : Type) where
  /-- An observer joins. -/
  | register (id : CallbackId)
  /-- An observer leaves. -/
  | unregister (id : CallbackId)
  /-- The listener for verification codes is set or cleared. -/
  | listen (listener : Option ListenerId)
  /-- A call. -/
  | call (call : Call)
  /-- The text that a log shows of the channel. -/
  | describe
  /-- The owner lets go of the channel. Its stream goes on, but once no call is being dealt with nothing
  reaches the channel any more. -/
  | release
  /-- Something done to the stream, of whatever name; what it tells its listener reaches the channel. -/
  | onStream (name : String) (change : τ → α × List StreamAct × τ)
  /-- Something done to the store, of whatever name. -/
  | onStore (name : String) (change : σ → Tape → α × σ × Tape)

/-- How a request is answered. -/
inductive Session.Answer (α : Type) where
  /-- A call was dealt with. -/
  | called (answer : Except ChannelError Unit)
  /-- Whether something changed. -/
  | changed (flag : Bool)
  /-- A text. -/
  | text (text : String)
  /-- What the stream or the store answered. -/
  | other (answer : α)
  /-- Nothing was done, because requests were nested too deeply. -/
  | unanswered

/-- One thing that happened in a session. -/
inductive Session.Entry (σ τ α : Type) where
  /-- The channel did something. -/
  | act (act : Act)
  /-- The stream did something on its own account. -/
  | stream (act : StreamAct)
  /-- An observer was told of an event. -/
  | told (id : CallbackId) (event : Event)
  /-- A listener was shown a code. -/
  | shown (listener : ListenerId) (code : String)
  /-- A request of somebody who had been told was answered. -/
  | reacted (request : Session.Request σ τ α) (answer : Session.Answer α)

/-- A channel and what happened to it. -/
structure Session (ε σ τ α : Type) where
  /-- The channel. -/
  channel : Channel ε σ τ
  /-- Whether the owner has let go of the channel. -/
  released : Bool
  /-- Whether a call is being dealt with, its events not all told. -/
  busy : Bool
  /-- What happened so far. -/
  log : List (Session.Entry σ τ α)

/-- What those who are told do. -/
structure Session.Behaviour (ε σ τ α : Type) where
  /-- What an observer asks for when it is told of an event. -/
  onEvent : Session ε σ τ α → CallbackId → Event → List (Session.Request σ τ α)
  /-- What a listener asks for when it is shown a code. -/
  onCode : Session ε σ τ α → ListenerId → String → List (Session.Request σ τ α)

namespace Session

variable {ε σ τ α : Type}

/-- A session with a channel just made, for which the given acts were done. -/
def ofChannel (made : List Act × Channel ε σ τ) : Session ε σ τ α :=
  { channel := made.2, released := false, busy := false, log := made.1.map .act }

/-- Whether calls reach the channel: its owner has not let go of it, or a call is being dealt with. -/
def inReach (s : Session ε σ τ α) : Bool := !s.released || s.busy

/-- Adds to the log. -/
def note (es : List (Entry σ τ α)) (s : Session ε σ τ α) : Session ε σ τ α :=
  { s with log := s.log ++ es }

/-- A way to deal with requests. -/
abbrev Handler (ε σ τ α : Type) :=
  Request σ τ α → Session ε σ τ α → Answer α × Session ε σ τ α

variable (handle : Handler ε σ τ α) (B : Behaviour ε σ τ α)

/-- Deals with the requests of somebody who was told, one after another. -/
def react : List (Request σ τ α) → Session ε σ τ α → Session ε σ τ α
  | [], s => s
  | r :: rs, s =>
    let (answer, s) := handle r s
    react rs (s.note [.reacted r answer])

/-- Tells observers of an event, one after another. -/
def tell (e : Event) : List CallbackId → Session ε σ τ α → Session ε σ τ α
  | [], s => s
  | id :: ids, s =>
    let s := s.note [.told id e]
    tell e ids (react handle (B.onEvent s id e) s)

/-- Tells of events, one after another. -/
def announce : List Event → Session ε σ τ α → Session ε σ τ α
  | [], s => s
  | .showCode listener code :: es, s =>
    let s := s.note [.shown listener code]
    announce es (react handle (B.onCode s listener code) s)
  | e :: es, s => announce es (tell handle B e s.channel.callbacks.members s)

/-- Passes on what the stream did: frames are logged, and what it tells its listener becomes a call. -/
def pass : List StreamAct → Session ε σ τ α → Session ε σ τ α
  | [], s => s
  | .handed frame answer :: acts, s => pass acts (s.note [.stream (.handed frame answer)])
  | .delivered m op :: acts, s => pass acts (handle (.call (.arrived m op)) s).2
  | .reported e :: acts, s => pass acts (handle (.call (.streamFailed e)) s).2

/-- Deals with a request, given a way to deal with those that it gives rise to. -/
def step (S : Setting ε σ τ) (r : Request σ τ α) (s : Session ε σ τ α) :
    Answer α × Session ε σ τ α :=
  match r with
  | .register id =>
    let (changed, channel) := s.channel.register id
    (.changed changed, { s with channel })
  | .unregister id =>
    let (changed, channel) := s.channel.unregister id
    (.changed changed, { s with channel })
  | .listen listener => (.called (.ok ()), { s with channel := s.channel.listen listener })
  | .call i =>
    if s.inReach then
      let (outcome, channel) := s.channel.call S i
      let told := announce handle B outcome.events
        ({ s with channel, busy := true }.note (outcome.acts.map .act))
      (.called outcome.answer, { told with busy := s.busy })
    else (.called (.ok ()), s)
  | .describe => (.text s.channel.redacted, s)
  | .release => (.called (.ok ()), { s with released := true })
  | .onStream _ change =>
    let (answer, acts, stream) := change s.channel.stream
    (.other answer, pass handle acts { s with channel := { s.channel with stream } })
  | .onStore _ change =>
    let (answer, store, tape) := change s.channel.store s.channel.tape
    (.other answer, { s with channel := { s.channel with store, tape } })

/-- Deals with a request and with all that it gives rise to, down to the given depth. -/
def perform (S : Setting ε σ τ) : (depth : Nat) → Handler ε σ τ α
  | 0, _, s => (.unanswered, s)
  | depth + 1, r, s => step (perform S depth) B S r s

end Session

end DevicePairing
