import Chromeless.CaptureAudio

/-! The session of the worker (`capture/build-integration/cloud_browser_browser_main_parts.cc`): the
driver, the audio lifecycle and the embedder, which re-arms the session in place. -/
namespace Chromeless.Capture

def Event.notification : Event → Option Notification
  | .notify n => some n
  | _ => none

def Driver.news (before after : Driver) : List Notification :=
  (after.log.drop before.log.length).filterMap Event.notification

def Driver.canRearm (d : Driver) : Bool := d.state ≠ .idle && d.state ≠ .failed

end Chromeless.Capture

namespace Chromeless.MainParts
open Capture Json

inductive ObserverCallback
  | iceCandidate (candidate : Option IceCandidatePayload)
  | iceGatheringChange (complete : Bool)
  | iceConnectionChange (state : IceConnectionState)
  | renegotiationNeeded
deriving DecidableEq

def ObserverCallback.act : ObserverCallback → Act
  | iceCandidate candidate => .iceCandidate candidate
  | iceGatheringChange complete => .iceGatheringChange complete
  | iceConnectionChange state => .iceConnectionChange state
  | renegotiationNeeded => .renegotiationNeeded

inductive Completion
  | createOfferSuccess (sdpType : String) (sdp : Bytes) (accepted : Bool)
  | createOfferFailure (reason : String)
  | setLocalDescription (ok : Bool) (reason : String)
  | setRemoteDescription (ok : Bool) (reason : String)
deriving DecidableEq

def Completion.act (arm : ℕ) : Completion → Act
  | createOfferSuccess sdpType sdp accepted => .createOfferSuccess arm sdpType sdp accepted
  | createOfferFailure reason => .createOfferFailure arm reason
  | setLocalDescription ok reason => .setLocalDescriptionComplete arm ok reason
  | setRemoteDescription ok reason => .setRemoteDescriptionComplete arm ok reason

/-- A task on the UI sequence. A callback names the arm whose PeerConnection it comes from and the
arm whose WeakPtr it holds. `own` marks an `OnClosed` that a re-arm caused itself; nothing looks at
it. -/
inductive Task
  | onConnected (accepted : Bool)
  | onEnvelope (env : Envelope)
  | onGaveUp
  | observer (pc weak : ℕ) (callback : ObserverCallback)
  | completion (arm : ℕ) (completion : Completion)
  | permanentDeath
  | shutdown
  | iceFailedGrace (serial : ℕ)
  | rearmOrShutdown (announceBye own : Bool)
  | clearRearming
  | quit
deriving DecidableEq

/-- `base::OneShotTimer`. A shot is good for the start it belongs to only. -/
structure Timer where
  running : Bool
  serial : ℕ
deriving DecidableEq

def Timer.start (t : Timer) : Timer := ⟨true, t.serial + 1⟩

def Timer.stop (t : Timer) : Timer := { t with running := false }

/-- What tells the embedder that a session is over. A redial is marked with whether a re-arm is in
progress. -/
inductive EndEvent
  | closed
  | newViewerNeedsOffer
  | iceFailed
  | redial (held : Bool)
deriving DecidableEq

/-- What has happened to the sessions so far, by their number. Nothing reads it. -/
inductive Mark
  | raised (gen : ℕ) (event : EndEvent)
  | attempt (gen : ℕ) (own : Bool)
  | exit (gen : ℕ) (own : Bool)
deriving DecidableEq

structure Response where
  pc : PcResult
  audio : AudioFactory
deriving DecidableEq

structure Worker where
  driver : Driver
  audio : AudioLifecycle
  nativeSessionStarted : Bool
  tearingDown : Bool
  rearming : Bool
  permanentDeathSignaled : Bool
  signalingConnectedOnce : Bool
  lastIceState : IceConnectionState
  iceFailedTeardownTimer : Timer
  /-- the quit closure is parked -/
  quitMainMessageLoop : Bool
  /-- it was posted with a delay -/
  quitDelayed : Bool
  /-- the main message loop has not been quit -/
  looping : Bool
  queue : List Task
  marks : List Mark

namespace Worker

def post (w : Worker) (t : Task) : Worker := { w with queue := w.queue ++ [t] }

def mark (w : Worker) (m : Mark) : Worker := { w with marks := w.marks ++ [m] }

def onIceConnectionStateChanged (w : Worker) (state : IceConnectionState) : Worker :=
  let w := { w with lastIceState := state }
  match state with
  | .failed =>
    if !w.tearingDown && !w.iceFailedTeardownTimer.running then
      { w with iceFailedTeardownTimer := w.iceFailedTeardownTimer.start }
    else w
  | .connected | .completed => { w with iceFailedTeardownTimer := w.iceFailedTeardownTimer.stop }
  -- transient often enough: an armed timer is left alone
  | .new | .checking | .disconnected | .closed => w

def onNewViewerNeedsOffer (w : Worker) (gen : ℕ) : Worker :=
  (w.mark (.raised gen .newViewerNeedsOffer)).post (.rearmOrShutdown false false)

/-- The re-arm is posted: inline, it would drop the PeerConnection under `CloseInternal`. -/
def onClosed (w : Worker) (gen : ℕ) (own : Bool) : Worker :=
  let w := w.mark (.raised gen .closed)
  if w.tearingDown then w else w.post (.rearmOrShutdown true own)

def onFailed (escalate : Worker → Worker) (w : Worker) : Worker :=
  if w.tearingDown then w else escalate w

def hear (escalate : Worker → Worker) (gen : ℕ) (own : Bool) (w : Worker) (n : Notification) :
    Worker :=
  let w := { w with audio := w.audio.observe n }
  match n with
  | .iceConnectionStateChanged state => w.onIceConnectionStateChanged state
  | .newViewerNeedsOffer => w.onNewViewerNeedsOffer gen
  | .closed _ => w.onClosed gen own
  | .failed _ => w.onFailed escalate
  | .renegotiationStarted _ | .renegotiationCompleted => w

/-- A call of the driver with all that its observers do during it. -/
def callWith (l : Webrtc) (escalate : Worker → Worker) (gen : ℕ) (own : Bool) (w : Worker) (a : Act) : Worker :=
  (w.driver.news (w.driver.step l a)).foldl (hear escalate gen own)
    { w with driver := w.driver.step l a }

def onGpuPermanentDeath (l : Webrtc) (w : Worker) : Worker :=
  if w.permanentDeathSignaled then w
  else
    let w := { w with
      permanentDeathSignaled := true, audio := w.audio.prepareForTeardown, tearingDown := true }
    -- `OnFailed` stops at its guard from here on, so there is nothing to escalate to
    let w := w.callWith l id w.driver.arm false (.closeUnhealthy "gpu-permanent-death")
    if w.quitMainMessageLoop then { w with quitMainMessageLoop := false, quitDelayed := true }
    else w

def call (l : Webrtc) (gen : ℕ) (own : Bool) (w : Worker) (a : Act) : Worker :=
  w.callWith l (onGpuPermanentDeath l) gen own a

def shutdown (w : Worker) : Worker :=
  if w.quitMainMessageLoop then { w with quitMainMessageLoop := false, looping := false } else w

def postMainMessageLoopRun (l : Webrtc) (w : Worker) : Worker :=
  let w := { w with tearingDown := true, audio := w.audio.prepareForTeardown }
  w.call l w.driver.arm false (.close "session ended")

def rebuildSessionMedia (w : Worker) (f : AudioFactory) : Worker :=
  if w.driver.pc then
    { w with audio := w.audio.adoptBindings (addSendOnlyAudioTransceiver f w.driver.arm) }
  else w

/-- `RearmSession` up to the driver: the lifecycle goes through `kStopped` to `kIdle`. -/
def endSession (w : Worker) : Worker :=
  { w with
    audio := w.audio.prepareForTeardown.rearm.1
    iceFailedTeardownTimer := w.iceFailedTeardownTimer.stop
    lastIceState := .new }

/-- `rearming_` is cleared by a task that is queued behind the one that the driver's `OnClosed`
posts. -/
def rearmDriver (l : Webrtc) (w : Worker) (announceBye : Bool) : Worker :=
  ({ w with rearming := true }.call l w.driver.arm true (.rearm announceBye)).post .clearRearming

/-- `RearmSession` as far as `RebuildSessionMedia`, or the error it returns before. -/
def renew (l : Webrtc) (w : Worker) (announceBye : Bool) (pc : PcResult) :
    Worker × Option String :=
  if !w.nativeSessionStarted then (w, some "no session to re-arm")
  else if w.tearingDown then (w, some "process is shutting down")
  else
    let rearmed := w.driver.canRearm
    let w := w.endSession.rearmDriver l announceBye
    if !rearmed then (w, some "offerer driver refused to re-arm")
    else
      let w := w.call l w.driver.arm false (.start pc)
      if !w.driver.pc then (w, some "re-arm produced no PeerConnection") else (w, none)

def rearmSession (l : Webrtc) (w : Worker) (announceBye : Bool) (r : Response) :
    Worker × Option String :=
  match w.renew l announceBye r.pc with
  | (w, some error) => (w, some error)
  | (w, none) => (w.rebuildSessionMedia r.audio, none)

def rearmOrShutdown (l : Webrtc) (w : Worker) (announceBye own : Bool) (r : Response) : Worker :=
  if w.tearingDown then w
  -- our own close caused this `OnClosed`
  else if w.rearming then w
  else match (w.mark (.attempt w.driver.arm own)).rearmSession l announceBye r with
    | (v, none) => v
    | (v, some _) => (v.mark (.exit w.driver.arm own)).shutdown

/-- Media rides the PeerConnection, so a viewer that is attached loses nothing by a redial. -/
def mediaLive (w : Worker) : Bool :=
  w.driver.state = .iceInFlight && (w.lastIceState = .connected || w.lastIceState = .completed)

def onConnected (l : Webrtc) (w : Worker) (accepted : Bool) : Worker :=
  let w := w.call l w.driver.arm false (.onConnected accepted)
  if !w.signalingConnectedOnce then { w with signalingConnectedOnce := true }
  else if w.mediaLive then w
  else
    let w := w.mark (.raised w.driver.arm (.redial w.rearming))
    if w.driver.state = .failed || w.tearingDown || w.rearming then w
    else w.post (.rearmOrShutdown false false)

def onIceFailedGraceElapsed (l : Webrtc) (w : Worker) (r : Response) : Worker :=
  let w := w.mark (.raised w.driver.arm .iceFailed)
  if w.tearingDown then w else w.rearmOrShutdown l true false r

def runTask (l : Webrtc) (w : Worker) (r : Response) : Task → Worker
  | .onConnected accepted => w.onConnected l accepted
  | .onEnvelope env => w.call l w.driver.arm false (.onEnvelope env)
  | .onGaveUp => if w.tearingDown then w else w.shutdown
  | .observer pc weak callback => if weak = w.driver.arm then w.call l pc false callback.act else w
  | .completion arm completion => w.call l w.driver.arm false (completion.act arm)
  | .permanentDeath => w.onGpuPermanentDeath l
  | .shutdown => w.shutdown
  | .iceFailedGrace serial =>
    if w.iceFailedTeardownTimer = ⟨true, serial⟩ then
      { w with iceFailedTeardownTimer := w.iceFailedTeardownTimer.stop }.onIceFailedGraceElapsed l r
    else w
  | .rearmOrShutdown announceBye own => w.rearmOrShutdown l announceBye own r
  | .clearRearming => { w with rearming := false }
  | .quit => { w with looping := false }

def admits (w : Worker) : Task → Bool
  | .onConnected _ | .onEnvelope _ | .onGaveUp | .permanentDeath | .shutdown => true
  | .observer pc weak _ => pc ≤ w.driver.arm && weak = w.driver.arm
  | .completion arm _ => arm ≤ w.driver.arm
  | .iceFailedGrace _ | .rearmOrShutdown _ _ | .clearRearming | .quit => false

/-- `StartNativeSession` on fresh objects, and the loop that is entered with it. -/
def started (l : Webrtc) (f : AudioFactory) : Worker :=
  let w : Worker :=
    { driver := Driver.new, audio := .new, nativeSessionStarted := false, tearingDown := false
      rearming := false, permanentDeathSignaled := false, signalingConnectedOnce := false
      lastIceState := .new, iceFailedTeardownTimer := ⟨false, 0⟩, quitMainMessageLoop := true
      quitDelayed := false, looping := true, queue := [], marks := [] }
  { (w.call l 0 false (.start .made)).rebuildSessionMedia f with nativeSessionStarted := true }

end Worker

/-- What happens next to the worker: a task is posted, a delay is over, or the first task of
the queue is run. -/
inductive Turn
  | post (t : Task)
  | graceElapses
  | quitElapses
  | run (r : Response)
deriving DecidableEq

namespace Worker

def runNext (l : Webrtc) (w : Worker) (r : Response) : Worker :=
  match w.queue with
  | [] => w
  | t :: queue =>
    let w := { w with queue := queue }.runTask l r t
    if w.looping then w else w.postMainMessageLoopRun l

def step (l : Webrtc) (w : Worker) : Turn → Worker
  | .post t => if w.admits t then w.post t else w
  | .graceElapses =>
    if w.iceFailedTeardownTimer.running then
      w.post (.iceFailedGrace w.iceFailedTeardownTimer.serial)
    else w
  | .quitElapses => if w.quitDelayed then { w with quitDelayed := false }.post .quit else w
  | .run r => if w.looping then w.runNext l r else w

end Worker

def runWorker (l : Webrtc) (f : AudioFactory) (turns : List Turn) : Worker :=
  Runs.run (Worker.step l) (Worker.started l f) turns

end Chromeless.MainParts
