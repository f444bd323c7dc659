import Chromeless.CaptureEnvelope
import Chromeless.LibRuns

/-! The offerer driver (`capture/signaling/cb_offerer_driver.cc`). A step is one task on the UI
sequence; calls into the PeerConnection stay outstanding until their observer's hop lands. -/
namespace Chromeless.Capture
open Json

inductive OffererState
  | idle
  | creatingPc
  | creatingOffer
  | settingLocal
  | awaitingAnswer
  | settingRemote
  | iceInFlight
  | closed
  | failed
deriving DecidableEq

namespace OffererState

def toNat : OffererState → ℕ
  | idle => 0
  | creatingPc => 1
  | creatingOffer => 2
  | settingLocal => 3
  | awaitingAnswer => 4
  | settingRemote => 5
  | iceInFlight => 6
  | closed => 7
  | failed => 8

instance : LE OffererState := ⟨fun s t => s.toNat ≤ t.toNat⟩

instance (s t : OffererState) : Decidable (s ≤ t) :=
  inferInstanceAs (Decidable (s.toNat ≤ t.toNat))

theorem le_iff (s t : OffererState) : s ≤ t ↔ s.toNat ≤ t.toNat := Iff.rfl

def terminal (s : OffererState) : Bool := s = closed || s = failed

end OffererState

inductive IceConnectionState
  | new
  | checking
  | connected
  | completed
  | failed
  | disconnected
  | closed
deriving DecidableEq

inductive SdpType
  | offer
  | prAnswer
  | answer
  | rollback
deriving DecidableEq

/-- Which texts parse. A session description is known by the text it prints. -/
structure Webrtc where
  sdpTypeFromString : String → Option SdpType
  createSessionDescription : SdpType → Bytes → Option Bytes
  createIceCandidate : (mid : Bytes) → (mLineIndex : ℤ) → (candidate : Bytes) → Bool

def Webrtc.permissive : Webrtc :=
  ⟨fun s => if s = "offer" then some .offer else none, fun _ sdp => some sdp, fun _ _ _ => true⟩

def Webrtc.takes (w : Webrtc) (p : IceCandidatePayload) : Bool :=
  p.isEndOfCandidates ||
    w.createIceCandidate (p.sdpMid.getD []) (p.sdpMLineIndex.getD 0) p.candidate

inductive PcResult
  | error (message : String)
  | null
  | made
deriving DecidableEq

inductive Trigger
  | embedder
  | libwebrtc
  | remote
  | coalescedPending
deriving DecidableEq

inductive CloseSource
  | embedder
  | gpuPermanentDeath
  | ws
  | remote
  | rearm
deriving DecidableEq

inductive Notification
  | iceConnectionStateChanged (state : IceConnectionState)
  | renegotiationStarted (trigger : Trigger)
  | renegotiationCompleted
  | newViewerNeedsOffer
  | closed (reason : String)
  | failed (reason : String)
deriving DecidableEq

inductive Op
  | createOffer
  | setLocalDescription
  | setRemoteDescription
deriving DecidableEq

/-- Such a call with its argument. An answer is known by the envelope it came in. -/
inductive Call
  | createOffer
  | setLocalDescription (sdp : Bytes)
  | setRemoteDescription (stamp : ℕ) (sdp : Bytes)
deriving DecidableEq

def Call.op : Call → Op
  | .createOffer => .createOffer
  | .setLocalDescription _ => .setLocalDescription
  | .setRemoteDescription _ _ => .setRemoteDescription

/-- What has happened so far, for stating properties of runs. Nothing reads it. -/
inductive Event
  | started
  | rearmed
  | triggered (trigger : Trigger) (state : OffererState)
  | envelope (stamp : ℕ) (env : Envelope)
  | handed (env : Envelope)
  | issued (arm : ℕ) (call : Call)
  | remoteSet
  | addIceCandidate (stamp : ℕ) (payload : IceCandidatePayload)
  | closePc
  | notify (n : Notification)
deriving DecidableEq

/-- `CbOffererDriver`. `arm` counts how often its WeakPtrs were invalidated; `ops` are the posted
calls whose hop has not landed, each with the arm whose WeakPtr its observer holds. Buffered
envelopes are stamped with their number (`seen`), which no step looks at. -/
structure Driver where
  state : OffererState
  pc : Bool
  pendingRemoteIce : List (ℕ × IceCandidatePayload)
  pendingEarlyAnswerSdp : Option (ℕ × Bytes)
  initialRenegotiationConsumed : Bool
  pendingRenegotiation : Bool
  teardownEmitted : Bool
  wasInIceFlightOnce : Bool
  currentOfferAnswered : Bool
  wsConnected : Bool
  pendingLocalOffer : Option Bytes
  arm : ℕ
  ops : List (ℕ × Op)
  seen : ℕ
  log : List Event

/-- A task on the UI sequence. `accepted` is what `Send` returns for an offer; a completion names
the arm that its call was posted in. -/
inductive Act
  | start (pc : PcResult)
  | rearm (announceBye : Bool)
  | requestRenegotiation
  | close (reason : String)
  | closeUnhealthy (reason : String)
  | onConnected (accepted : Bool)
  | onEnvelope (env : Envelope)
  | onClosed (code : ℕ) (reason : String)
  | onError (reason : String)
  | iceCandidate (candidate : Option IceCandidatePayload)
  | iceGatheringChange (complete : Bool)
  | iceConnectionChange (state : IceConnectionState)
  | renegotiationNeeded
  | createOfferSuccess (arm : ℕ) (sdpType : String) (sdp : Bytes) (accepted : Bool)
  | createOfferFailure (arm : ℕ) (reason : String)
  | setLocalDescriptionComplete (arm : ℕ) (ok : Bool) (reason : String)
  | setRemoteDescriptionComplete (arm : ℕ) (ok : Bool) (reason : String)
deriving DecidableEq

namespace Driver

def new : Driver :=
  ⟨.idle, false, [], none, false, false, false, false, false, false, none, 0, [], 0, []⟩

def note (d : Driver) (e : Event) : Driver := { d with log := d.log ++ [e] }

def notify (d : Driver) (n : Notification) : Driver := d.note (.notify n)

def issue (d : Driver) (call : Call) : Driver :=
  { d with ops := d.ops ++ [(d.arm, call.op)] }.note (.issued d.arm call)

def closePcOnSignalingThread (d : Driver) : Driver := if d.pc then d.note .closePc else d

def failWithReason (d : Driver) (reason : String) : Driver :=
  { d with state := .failed, pendingRemoteIce := [] }.closePcOnSignalingThread.notify
    (.failed reason)

def sendBye (d : Driver) (source : CloseSource) : Driver :=
  if source ≠ .ws ∧ source ≠ .remote ∧ .creatingOffer ≤ d.state ∧ d.state ≤ .iceInFlight then
    d.note (.handed ⟨.bye, .browser, .monostate⟩)
  else d

def closeInternal (d : Driver) (reason : String) (source : CloseSource) : Driver :=
  if d.teardownEmitted then d
  else if d.state = .failed then { d with teardownEmitted := true }
  else
    { d.sendBye source with
      state := .closed, teardownEmitted := true,
      pendingRemoteIce := [] }.closePcOnSignalingThread.notify (.closed reason)

/-- `Rearm`, behind its guard. `wasInIceFlightOnce` and `wsConnected` stay. -/
def returnToIdle (d : Driver) : Driver :=
  { d with
    state := .idle, pc := false, arm := d.arm + 1
    teardownEmitted := false, initialRenegotiationConsumed := false
    pendingRenegotiation := false, pendingRemoteIce := [], pendingLocalOffer := none
    pendingEarlyAnswerSdp := none, currentOfferAnswered := false }.note .rearmed

def rearm (d : Driver) (announceBye : Bool) : Driver :=
  if d.state = .idle ∨ d.state = .failed then d
  else if d.state = .closed then d.returnToIdle
  -- a `bye` would reach the very viewer that a silent re-arm is for
  else (d.closeInternal "rearm" (if announceBye then .rearm else .remote)).returnToIdle

def start (d : Driver) (pc : PcResult) : Driver :=
  if d.state ≠ .idle then d
  else
    let d := { d with state := .creatingPc }.note .started
    match pc with
    | .error message => d.failWithReason ("CreatePeerConnectionOrError failed: " ++ message)
    | .null => d.failWithReason "CreatePeerConnectionOrError returned ok() but a null PC"
    | .made => { d with pc := true }

def restartDance (d : Driver) (trigger : Trigger) : Driver :=
  ({ d with state := .creatingOffer, currentOfferAnswered := false }.notify
    (.renegotiationStarted trigger)).issue .createOffer

def beginRenegotiation (d : Driver) (trigger : Trigger) : Driver :=
  match d.state with
  | .closed | .failed | .idle | .creatingPc => d
  | .iceInFlight => d.restartDance trigger
  -- mid-dance triggers coalesce
  | _ => { d with pendingRenegotiation := true }

def requestRenegotiation (d : Driver) : Driver :=
  if d.state.terminal then d else d.beginRenegotiation .embedder

def emitOfferAndSetLocal (d : Driver) (sdp : Bytes) (accepted : Bool) : Driver :=
  let d := d.note (.handed ⟨.offer, .browser, .sdp ⟨ascii "offer", sdp⟩⟩)
  if accepted then { d with state := .settingLocal }.issue (.setLocalDescription sdp)
  else d.failWithReason "ws Send(offer) failed"

def onConnected (d : Driver) (accepted : Bool) : Driver :=
  let d := { d with wsConnected := true }
  match d.pendingLocalOffer with
  | none => d
  | some sdp =>
    let d := { d with pendingLocalOffer := none }
    if d.state = .creatingOffer then d.emitOfferAndSetLocal sdp accepted else d

def addRemoteIcePayload (w : Webrtc) (d : Driver) (p : ℕ × IceCandidatePayload) : Driver :=
  if w.takes p.2 then d.note (.addIceCandidate p.1 p.2) else d

def flushRemoteIce (w : Webrtc) (d : Driver) : List (ℕ × IceCandidatePayload) → Driver
  | [] => d
  | p :: ps =>
    let d := d.addRemoteIcePayload w p
    if d.state.terminal then d else d.flushRemoteIce w ps

def flushPendingRemoteIce (w : Webrtc) (d : Driver) : Driver :=
  { d with pendingRemoteIce := [] }.flushRemoteIce w d.pendingRemoteIce

def queueRemoteIceCandidate (d : Driver) (stamp : ℕ) (env : Envelope) : Driver :=
  match env.candidate with
  | none => d.failWithReason "`ice` envelope missing candidate payload"
  | some payload => { d with pendingRemoteIce := d.pendingRemoteIce ++ [(stamp, payload)] }

def applyAnswer (w : Webrtc) (d : Driver) (stamp : ℕ) (answer : Option Bytes) : Driver :=
  match answer with
  | none => d.failWithReason "`answer` envelope missing SDP payload"
  | some sdp =>
    match w.createSessionDescription .answer sdp with
    | none => d.failWithReason "CreateSessionDescription failed for remote answer (SDP parse error)"
    | some remote => { d with state := .settingRemote }.issue (.setRemoteDescription stamp remote)

def bufferEarlyAnswer (d : Driver) (stamp : ℕ) (answer : Option Bytes) : Driver :=
  match answer with
  | none => d.failWithReason "`answer` envelope missing SDP payload"
  | some sdp => { d with pendingEarlyAnswerSdp := some (stamp, sdp) }

def handleAnswerEnvelope (w : Webrtc) (d : Driver) (stamp : ℕ) (env : Envelope) : Driver :=
  match d.state with
  -- taken for a second delivery of the answer that is being applied
  | .settingRemote | .iceInFlight => d
  | .creatingOffer | .settingLocal => d.bufferEarlyAnswer stamp env.answerSdp
  | .awaitingAnswer => d.applyAnswer w stamp env.answerSdp
  | _ => d.failWithReason "`answer` envelope in unexpected state"

/-- Local to `HandleIceEnvelope`. The first dance of the process queues later than others. -/
def canQueueMidDance (d : Driver) : Prop :=
  .awaitingAnswer ≤ d.state ∧ d.state ≤ .settingRemote ∨
    d.wasInIceFlightOnce ∧ .creatingOffer ≤ d.state ∧ d.state ≤ .settingRemote

instance (d : Driver) : Decidable d.canQueueMidDance := inferInstanceAs (Decidable (_ ∨ _))

def handleIceEnvelope (w : Webrtc) (d : Driver) (stamp : ℕ) (env : Envelope) : Driver :=
  if d.state ≠ .iceInFlight then
    if d.canQueueMidDance then d.queueRemoteIceCandidate stamp env else d
  else match env.candidate with
    | none => d.failWithReason "`ice` envelope missing candidate payload"
    | some payload => d.addRemoteIcePayload w (stamp, payload)

/-- A `bye` with no session to end belongs to the viewer before. -/
def handleByeEnvelope (d : Driver) : Driver :=
  if d.state = .idle ∨ d.state = .creatingPc then d else d.closeInternal "remote bye" .remote

def handleRequestRenegotiateEnvelope (d : Driver) : Driver :=
  match d.state with
  -- nobody has answered, so whoever asks never got the offer
  | .awaitingAnswer => d.notify .newViewerNeedsOffer
  | .iceInFlight =>
    if d.currentOfferAnswered then d.beginRenegotiation .remote
    else d.notify .newViewerNeedsOffer
  | .closed | .failed | .idle => d
  | _ => { d with pendingRenegotiation := true }

def dispatch (w : Webrtc) (d : Driver) (stamp : ℕ) (env : Envelope) : Driver :=
  match env.type with
  | .offer => d.failWithReason "unexpected inbound `offer` envelope (v1 contract: browser is sole offerer)"
  | .answer => d.handleAnswerEnvelope w stamp env
  | .ice => d.handleIceEnvelope w stamp env
  | .bye => d.handleByeEnvelope
  | .requestRenegotiate => (d.note (.triggered .remote d.state)).handleRequestRenegotiateEnvelope
  -- advisory, receive-only or outbound-only
  | .probeResult | .peerAbsent | .sessionUnhealthy => d

def record (d : Driver) (env : Envelope) : Driver :=
  { d with seen := d.seen + 1 }.note (.envelope d.seen env)

def onEnvelope (w : Webrtc) (d : Driver) (env : Envelope) : Driver :=
  if d.state.terminal then d.record env else (d.record env).dispatch w d.seen env

def hopHandleIceCandidate (d : Driver) (candidate : Option IceCandidatePayload) : Driver :=
  if (!d.wasInIceFlightOnce && !(decide (.settingLocal ≤ d.state))) || d.state.terminal then d
  else match candidate with
    | none => d
    | some payload => d.note (.handed ⟨.ice, .browser, .ice payload⟩)

def hopHandleIceGatheringChange (d : Driver) (complete : Bool) : Driver :=
  if complete then d.note (.handed (makeIceEndOfCandidates .browser)) else d

def hopHandleRenegotiationNeeded (d : Driver) : Driver :=
  if d.initialRenegotiationConsumed then
    (d.note (.triggered .libwebrtc d.state)).beginRenegotiation .libwebrtc
  else
    let d := { d with initialRenegotiationConsumed := true }
    if d.state ≠ .creatingPc then d.failWithReason "OnRenegotiationNeeded in unexpected state"
    else { d with state := .creatingOffer, currentOfferAnswered := false }.issue .createOffer

def hopHandleCreateOfferSuccess (w : Webrtc) (d : Driver) (sdpType : String) (sdp : Bytes) (accepted : Bool) : Driver :=
  if d.state ≠ .creatingOffer then d.failWithReason "CreateOffer success in unexpected state"
  else match w.sdpTypeFromString sdpType with
    | none => d.failWithReason ("CreateSessionDescription: unparseable sdp_type '" ++ sdpType ++ "' for local offer")
    | some type => match w.createSessionDescription type sdp with
      | none =>
        d.failWithReason ("CreateSessionDescription failed for local offer (SDP parse " ++ "error or unsupported type)")
      | some offer =>
        -- a channel that was never up is waited for; one that went down is not noticed
        if d.wsConnected then d.emitOfferAndSetLocal offer accepted
        else { d with pendingLocalOffer := some offer }

def hopHandleSetLocalDescriptionComplete (w : Webrtc) (d : Driver) (ok : Bool) (reason : String) : Driver :=
  if !ok then d.failWithReason ("SetLocalDescription failed: " ++ reason)
  else if d.state ≠ .settingLocal then
    d.failWithReason "SetLocalDescription complete in unexpected state"
  else
    let d := { d with state := .awaitingAnswer }
    match d.pendingEarlyAnswerSdp with
    | none => d
    | some (stamp, sdp) =>
      { d with pendingEarlyAnswerSdp := none }.handleAnswerEnvelope w stamp
        ⟨.answer, .client, .sdp ⟨ascii "answer", sdp⟩⟩

/-- Queued candidates go to the PeerConnection, and a dance that is not the first of the process
counts as a renegotiation. -/
def enterIceFlight (w : Webrtc) (d : Driver) : Driver :=
  let wasRenegotiation := d.wasInIceFlightOnce
  let d := { d with
    state := .iceInFlight, wasInIceFlightOnce := true, currentOfferAnswered := true }
  let d := (d.note .remoteSet).flushPendingRemoteIce w
  if wasRenegotiation then d.notify .renegotiationCompleted else d

def hopHandleSetRemoteDescriptionComplete (w : Webrtc) (d : Driver) (ok : Bool) (reason : String) : Driver :=
  if !ok then d.failWithReason ("SetRemoteDescription failed: " ++ reason)
  else if d.state ≠ .settingRemote then
    d.failWithReason "SetRemoteDescription complete in unexpected state"
  else
    let d := d.enterIceFlight w
    if d.pendingRenegotiation then
      { d with pendingRenegotiation := false }.beginRenegotiation .coalescedPending
    else d

/-- A completion lands if its call is outstanding, and reaches the driver only through a WeakPtr of
the current arm. -/
def land (d : Driver) (arm : ℕ) (op : Op) (handler : Driver → Driver) : Driver :=
  if (arm, op) ∈ d.ops then
    let d := { d with ops := d.ops.erase (arm, op) }
    if arm = d.arm then handler d else d
  else d

def step (w : Webrtc) (d : Driver) : Act → Driver
  | .start pc => d.start pc
  | .rearm announceBye => d.rearm announceBye
  | .requestRenegotiation => (d.note (.triggered .embedder d.state)).requestRenegotiation
  | .close reason => d.closeInternal reason .embedder
  | .closeUnhealthy reason =>
    (d.note (.handed ⟨.sessionUnhealthy, .browser, .monostate⟩)).closeInternal reason .gpuPermanentDeath
  | .onConnected accepted => d.onConnected accepted
  | .onEnvelope env => d.onEnvelope w env
  | .onClosed code reason => d.closeInternal ("ws closed code=" ++ toString code ++ " reason=" ++ reason) .ws
  | .onError reason => d.failWithReason ("ws error: " ++ reason)
  | .iceCandidate candidate => d.hopHandleIceCandidate candidate
  | .iceGatheringChange complete => d.hopHandleIceGatheringChange complete
  | .iceConnectionChange state => d.notify (.iceConnectionStateChanged state)
  | .renegotiationNeeded => d.hopHandleRenegotiationNeeded
  | .createOfferSuccess arm sdpType sdp accepted =>
    d.land arm .createOffer fun d => d.hopHandleCreateOfferSuccess w sdpType sdp accepted
  | .createOfferFailure arm reason =>
    d.land arm .createOffer fun d => d.failWithReason ("CreateOffer failed: " ++ reason)
  | .setLocalDescriptionComplete arm ok reason =>
    d.land arm .setLocalDescription fun d => d.hopHandleSetLocalDescriptionComplete w ok reason
  | .setRemoteDescriptionComplete arm ok reason =>
    d.land arm .setRemoteDescription fun d => d.hopHandleSetRemoteDescriptionComplete w ok reason

end Driver

def runDriver (w : Webrtc) (acts : List Act) : Driver := Runs.run (Driver.step w) Driver.new acts

end Chromeless.Capture
