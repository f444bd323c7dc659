import Chromeless.CaptureEnvelope
import Chromeless.LibRuns
import Mathlib.Algebra.Order.Ring.Unbundled.Rat

/-! The signaling channel of the worker: `capture/signaling/cb_signaling_reconnect.cc` around
`capture/signaling/cb_signaling_ws_client.cc`. A step is one call from outside. -/
namespace Chromeless.Capture

inductive DialUrl
  | empty
  | invalid
  | valid
deriving DecidableEq

inductive Callback
  | onConnected
  | onEnvelope (env : Envelope)
  | onClosed (code : ℕ) (reason : String)
  | onError (reason : String)
deriving DecidableEq

inductive SignalingWsClient.State
  | idle
  | connecting
  | opened
  | closing
  | closed
deriving DecidableEq

/-- `SignalingWsClient`, without the bytes in its pipes. -/
structure SignalingWsClient where
  state : SignalingWsClient.State
deriving DecidableEq

inductive NetEvent
  | connectionEstablished
  | message (decoded : Option Envelope)
  | channelError (reason : String)
  | failure (message : String) (netError responseCode : ℤ)
  | closingHandshake
  | dropChannel (wasClean : Bool) (code : ℕ) (reason : String)
deriving DecidableEq

namespace SignalingWsClient

def new : SignalingWsClient := ⟨.idle⟩

def isConnected (c : SignalingWsClient) : Bool := c.state = .opened

def isClosing (c : SignalingWsClient) : Bool := c.state = .closing

def failWithError (c : SignalingWsClient) (reason : String) :
    SignalingWsClient × Option Callback :=
  if c.state = .closed then (c, none) else (⟨.closed⟩, some (.onError reason))

def connect (url : DialUrl) (c : SignalingWsClient) : SignalingWsClient × Option Callback :=
  if c.state ≠ .idle then (c, none)
  else match url with
    | .empty => c.failWithError "config produced empty URL"
    | .invalid => c.failWithError "config produced invalid URL"
    | .valid => (⟨.connecting⟩, none)

def send (c : SignalingWsClient) (env : Envelope) (written : Bool) :
    (SignalingWsClient × Option Callback) × Bool :=
  if c.state ≠ .opened then ((c, none), false)
  else if !env.encodes then
    (c.failWithError "R1 Encode() rejected envelope (variant/tag mismatch)", false)
  else if written then ((c, none), true)
  else (c.failWithError "writable pipe error during WriteData", false)

def disconnect (c : SignalingWsClient) : SignalingWsClient :=
  match c.state with
  | .closing | .closed | .idle => c
  | _ => ⟨.closing⟩

def onConnectionEstablished (c : SignalingWsClient) : SignalingWsClient × Option Callback :=
  if c.state ≠ .connecting then (c, none) else (⟨.opened⟩, some .onConnected)

def onMessage (c : SignalingWsClient) (decoded : Option Envelope) :
    SignalingWsClient × Option Callback :=
  if c.state ≠ .opened then (c, none)
  else match decoded with
    | none => c.failWithError "R1 Decode() rejected inbound frame"
    | some env => (c, some (.onEnvelope env))

def onChannelError (c : SignalingWsClient) (reason : String) :
    SignalingWsClient × Option Callback :=
  if c.state ≠ .opened then (c, none) else c.failWithError reason

-- not only for the dial: nothing here asks whether the handshake was over
def onFailure (c : SignalingWsClient) (message : String) (netError responseCode : ℤ) :
    SignalingWsClient × Option Callback :=
  c.failWithError ("handshake failed: " ++ message ++ " net_error=" ++ toString netError ++
    " response=" ++ toString responseCode)

def onClosingHandshake (c : SignalingWsClient) : SignalingWsClient × Option Callback :=
  (if c.state = .opened then ⟨.closing⟩ else c, none)

def onDropChannel (c : SignalingWsClient) (wasClean : Bool) (code : ℕ) (reason : String) :
    SignalingWsClient × Option Callback :=
  if c.state = .idle ∨ c.state = .closed then (⟨.closed⟩, none)
  else if wasClean ∨ c.state = .closing then (⟨.closed⟩, some (.onClosed code reason))
  else (⟨.closed⟩, some (.onError ("channel dropped unexpectedly: code=" ++ toString code ++ " reason=" ++ reason)))

def receive (c : SignalingWsClient) : NetEvent → SignalingWsClient × Option Callback
  | .connectionEstablished => c.onConnectionEstablished
  | .message decoded => c.onMessage decoded
  | .channelError reason => c.onChannelError reason
  | .failure message netError responseCode => c.onFailure message netError responseCode
  | .closingHandshake => c.onClosingHandshake
  | .dropChannel wasClean code reason => c.onDropChannel wasClean code reason

/-- What a call into the client comes back with. -/
inductive Reply (c : SignalingWsClient) : SignalingWsClient × Option Callback → Prop
  | keep : Reply c (c, none)
  | gone (hc : c.state = .idle) : Reply c (⟨.closed⟩, none)
  | closing (hc : c.state = .opened) : Reply c (⟨.closing⟩, none)
  | connected : Reply c (⟨.opened⟩, some .onConnected)
  | envelope (hc : c.state = .opened) (env : Envelope) : Reply c (c, some (.onEnvelope env))
  | closed (code : ℕ) (reason : String) : Reply c (⟨.closed⟩, some (.onClosed code reason))
  | error (reason : String) : Reply c (⟨.closed⟩, some (.onError reason))

section
variable (c : SignalingWsClient)

theorem failWithError_reply (reason : String) :
    c.Reply (c.failWithError reason) := by
  unfold failWithError
  split
  · exact .keep
  · exact .error reason

theorem receive_reply (e : NetEvent) : c.Reply (c.receive e) := by
  cases e with
  | connectionEstablished =>
    simp only [receive, onConnectionEstablished]
    split
    · exact .keep
    · exact .connected
  | message decoded =>
    simp only [receive, onMessage]
    split
    · exact .keep
    rename_i hopen
    cases decoded with
    | none => exact failWithError_reply c _
    | some env => exact .envelope (not_not.mp hopen) env
  | channelError reason =>
    simp only [receive, onChannelError]
    split
    · exact .keep
    · exact failWithError_reply c reason
  | failure => exact failWithError_reply c _
  | closingHandshake =>
    simp only [receive, onClosingHandshake]
    split
    next hopen => exact .closing hopen
    · exact .keep
  | dropChannel wasClean code reason =>
    simp only [receive, onDropChannel]
    split
    next hover =>
      rcases hover with hidle | hcl
      · exact .gone hidle
      obtain ⟨state⟩ := c
      obtain rfl : state = .closed := hcl
      exact .keep
    · split
      · exact .closed code reason
      · exact .error _

theorem send_reply (env : Envelope) (written : Bool) :
    c.Reply (c.send env written).1 := by
  unfold send
  split
  · exact .keep
  split
  · exact failWithError_reply c _
  split
  · exact .keep
  · exact failWithError_reply c _

end

theorem Reply.opened {c : SignalingWsClient} {r : SignalingWsClient × Option Callback}
    (hr : c.Reply r) (h : r.2 = some .onConnected) : r.1 = ⟨.opened⟩ := by
  cases hr with
  | connected => rfl
  | _ => simp at h

end SignalingWsClient

structure ReconnectConfig where
  initialBackoff : ℚ := 1
  multiplier : ℚ := 2
  maxBackoff : ℚ := 32
  maxAttempts : ℕ := 10
  idleTimeout : ℚ := 90

structure ReconnectSetup where
  url : DialUrl := .valid
  config : ReconnectConfig := {}

inductive SignalingReconnect.State
  | idle
  | connecting
  | opened
  | backingOff
  | reconnecting
  | gaveUp
  | closed
deriving DecidableEq

/-- What the wrapper did that shows outside. Nothing reads it. -/
inductive SignalingReconnect.Event
  | dialed
  | scheduled (delay : ℚ)
  | onConnected
  | onEnvelope (env : Envelope)
  | onClosed (code : ℕ) (reason : String)
  | onGaveUp (attemptsMade : ℕ)
deriving DecidableEq

/-- `CbSignalingReconnect`. A timer is the delay it was started with while it runs. -/
structure SignalingReconnect where
  state : SignalingReconnect.State
  disconnectRequested : Bool
  attemptsMade : ℕ
  currentBackoff : ℚ
  backoffTimer : Option ℚ
  idleTimer : Option ℚ
  inner : Option SignalingWsClient
  log : List SignalingReconnect.Event

namespace SignalingReconnect

inductive Act
  | connect
  | disconnect
  | send (env : Envelope) (written : Bool)
  | net (event : NetEvent)
  | backoffFires
  | idleFires
deriving DecidableEq

def new (u : ReconnectSetup) : SignalingReconnect :=
  ⟨.idle, false, 0, u.config.initialBackoff, none, none, none, []⟩

def note (s : SignalingReconnect) (e : Event) : SignalingReconnect :=
  { s with log := s.log ++ [e] }

def armIdleTimer (u : ReconnectSetup) (s : SignalingReconnect) : SignalingReconnect :=
  if u.config.idleTimeout = 0 then s else { s with idleTimer := some u.config.idleTimeout }

def nextBackoff (u : ReconnectSetup) (s : SignalingReconnect) : ℚ :=
  if s.currentBackoff > u.config.maxBackoff then u.config.maxBackoff else s.currentBackoff

def handleChannelDead (u : ReconnectSetup) (s : SignalingReconnect) : SignalingReconnect :=
  let s := { s with inner := none }
  if u.config.maxAttempts = 0 ∨ u.config.maxAttempts ≤ s.attemptsMade then
    { s with state := .gaveUp }.note (.onGaveUp s.attemptsMade)
  else
    let delay := s.nextBackoff u
    { s with
      state := .backingOff
      currentBackoff := min (s.currentBackoff * u.config.multiplier) u.config.maxBackoff
      backoffTimer := some delay }.note (.scheduled delay)

def onConnected (u : ReconnectSetup) (s : SignalingReconnect) : SignalingReconnect :=
  ({ s with
    state := .opened, attemptsMade := 0
    currentBackoff := u.config.initialBackoff }.armIdleTimer u).note .onConnected

def onEnvelope (u : ReconnectSetup) (s : SignalingReconnect) (env : Envelope) :
    SignalingReconnect :=
  (s.armIdleTimer u).note (.onEnvelope env)

def onClosed (u : ReconnectSetup) (s : SignalingReconnect) (code : ℕ) (reason : String) :
    SignalingReconnect :=
  let s := { s with idleTimer := none }
  if s.state = .closed ∨ s.disconnectRequested then
    { s with state := .closed }.note (.onClosed code reason)
  else s.handleChannelDead u

def onError (u : ReconnectSetup) (s : SignalingReconnect) : SignalingReconnect :=
  { s with idleTimer := none }.handleChannelDead u

/-- A call of the inner client comes back, along with the observer call it ended in. -/
def observe (u : ReconnectSetup) (s : SignalingReconnect) :
    SignalingWsClient × Option Callback → SignalingReconnect
  | (c, none) => { s with inner := some c }
  | (c, some .onConnected) => { s with inner := some c }.onConnected u
  | (c, some (.onEnvelope env)) => { s with inner := some c }.onEnvelope u env
  | (c, some (.onClosed code reason)) => { s with inner := some c }.onClosed u code reason
  | (c, some (.onError _)) => { s with inner := some c }.onError u

def startInnerDial (u : ReconnectSetup) (s : SignalingReconnect) : SignalingReconnect :=
  (s.note .dialed).observe u (SignalingWsClient.new.connect u.url)

def connect (u : ReconnectSetup) (s : SignalingReconnect) : SignalingReconnect :=
  if s.state ≠ .idle then s
  else { s with
    state := .connecting, attemptsMade := 0
    currentBackoff := u.config.initialBackoff }.startInnerDial u

def send (u : ReconnectSetup) (s : SignalingReconnect) (env : Envelope) (written : Bool) :
    SignalingReconnect × Bool :=
  if s.state ≠ .opened then (s, false)
  else match s.inner with
    | none => (s, false)
    | some c => (s.observe u (c.send env written).1, (c.send env written).2)

def disconnect (s : SignalingReconnect) : SignalingReconnect :=
  if s.state = .closed ∨ s.state = .gaveUp then s
  else
    let s := { s with disconnectRequested := true, backoffTimer := none, idleTimer := none }
    match s.inner.filter fun c => c.isConnected || c.isClosing with
    | some c => { s with inner := some c.disconnect }
    -- a client that is still dialing is kept, and goes on dialing
    | none => { s with state := .closed }.note (.onClosed 1000 "wrapper-disconnect-noop")

def onBackoffFired (u : ReconnectSetup) (s : SignalingReconnect) : SignalingReconnect :=
  if s.state ≠ .backingOff then s
  else { s with
    attemptsMade := s.attemptsMade + 1, state := .reconnecting }.startInnerDial u

def onIdleFired (u : ReconnectSetup) (s : SignalingReconnect) : SignalingReconnect :=
  if s.state ≠ .opened then s else s.handleChannelDead u

def step (u : ReconnectSetup) (s : SignalingReconnect) : Act → SignalingReconnect
  | .connect => s.connect u
  | .disconnect => s.disconnect
  | .send env written => (s.send u env written).1
  | .net event =>
    match s.inner with
    | none => s
    | some c => s.observe u (c.receive event)
  | .backoffFires =>
    match s.backoffTimer with
    | none => s
    | some _ => { s with backoffTimer := none }.onBackoffFired u
  | .idleFires =>
    match s.idleTimer with
    | none => s
    | some _ => { s with idleTimer := none }.onIdleFired u

end SignalingReconnect

def runReconnect (u : ReconnectSetup) (acts : List SignalingReconnect.Act) : SignalingReconnect :=
  Runs.run (SignalingReconnect.step u) (SignalingReconnect.new u) acts

end Chromeless.Capture
