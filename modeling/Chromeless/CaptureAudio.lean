import Chromeless.CaptureDriver

/-! The audio lifecycle (`capture/audio/cb_audio_lifecycle.cc`), the driver's observer. One object
serves all sessions of the process. -/
namespace Chromeless.Capture

inductive AudioLifecycleState
  | idle
  | armed
  | active
  | stopped
deriving DecidableEq

def AudioLifecycleState.bound : AudioLifecycleState → Bool
  | armed | active => true
  | idle | stopped => false

/-- A reference is null, or known by the arm of the driver whose PeerConnection it was made for. -/
structure SendOnlyAudioTransceiver where
  source : Option ℕ
  track : Option ℕ
  transceiver : Option ℕ
deriving DecidableEq

structure AudioFactory where
  createAudioSource : Bool
  createAudioTrack : Bool
  addTransceiver : Bool
deriving DecidableEq

def AudioFactory.succeeds (f : AudioFactory) : Bool :=
  f.createAudioSource && f.createAudioTrack && f.addTransceiver

/-- No partial result is handed out: what was made before a failure is dropped. -/
def addSendOnlyAudioTransceiver (f : AudioFactory) (pc : ℕ) : SendOnlyAudioTransceiver :=
  if !f.createAudioSource then ⟨none, none, none⟩
  else if !f.createAudioTrack then ⟨none, none, none⟩
  else if !f.addTransceiver then ⟨none, none, none⟩
  else ⟨some pc, some pc, some pc⟩

/-- `CbAudioLifecycle`, with the session whose bindings it owns. -/
structure AudioLifecycle where
  state : AudioLifecycleState
  bindings : Option ℕ
  held : bindings.isSome = state.bound

namespace AudioLifecycle

def new : AudioLifecycle := ⟨.idle, none, rfl⟩

def released : AudioLifecycle := ⟨.stopped, none, rfl⟩

def stopInternal (l : AudioLifecycle) : AudioLifecycle :=
  if l.state = .stopped then l else released

def adoptBindings (l : AudioLifecycle) (b : SendOnlyAudioTransceiver) : AudioLifecycle :=
  match l.state with
  | .idle =>
    match b.source, b.track, b.transceiver with
    | some _, some _, some pc => ⟨.armed, some pc, rfl⟩
    | _, _, _ => l
  -- a warning each: stopped, or armed already
  | .stopped | .armed | .active => l

def prepareForTeardown (l : AudioLifecycle) : AudioLifecycle :=
  match l.state with
  | .stopped => l
  | .idle => released
  | .armed | .active => l.stopInternal

/-- The session state of a stopped lifecycle is reset; any other is refused. -/
def rearm (l : AudioLifecycle) : AudioLifecycle × Bool :=
  if l.state ≠ .stopped then (l, false) else (new, true)

def onIceConnectionStateChanged (l : AudioLifecycle) (state : IceConnectionState) :
    AudioLifecycle :=
  if h : state = .connected ∧ l.state = .armed then
    ⟨.active, l.bindings, by rw [l.held, h.2]; rfl⟩
  else l

def stopBestEffort (l : AudioLifecycle) : AudioLifecycle :=
  if l.state ≠ .stopped ∧ l.state ≠ .idle then l.stopInternal
  -- no bindings yet, but the lifecycle counts as stopped from here on
  else if l.state = .idle then released
  else l

def onClosed (l : AudioLifecycle) : AudioLifecycle := l.stopBestEffort

def onFailed (l : AudioLifecycle) : AudioLifecycle := l.stopBestEffort

def observe (l : AudioLifecycle) : Notification → AudioLifecycle
  | .iceConnectionStateChanged state => l.onIceConnectionStateChanged state
  | .closed _ => l.onClosed
  | .failed _ => l.onFailed
  | .renegotiationStarted _ | .renegotiationCompleted | .newViewerNeedsOffer => l

@[simp] theorem prepareForTeardown_state (l : AudioLifecycle) :
    l.prepareForTeardown.state = .stopped := by
  cases h : l.state <;> simp [prepareForTeardown, stopInternal, released, h]

@[simp] theorem onClosed_state (l : AudioLifecycle) : l.onClosed.state = .stopped := by
  cases h : l.state <;> simp [onClosed, stopBestEffort, stopInternal, released, h]

theorem rearm_of_stopped {l : AudioLifecycle} (h : l.state = .stopped) : l.rearm = (new, true) := by
  simp [rearm, h]

theorem adoptBindings_bindings {l : AudioLifecycle} {f : AudioFactory} (pc : ℕ)
    (hl : l.state = .idle) (hf : f.succeeds = true) :
    (l.adoptBindings (addSendOnlyAudioTransceiver f pc)).bindings = some pc := by
  simp only [AudioFactory.succeeds, Bool.and_eq_true] at hf
  simp [adoptBindings, addSendOnlyAudioTransceiver, hl, hf]

end AudioLifecycle

end Chromeless.Capture
