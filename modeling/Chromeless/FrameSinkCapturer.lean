import Chromeless.LibRuns

/-! The consumer of captured frames (`framesink-capturer/capturer.cc`). -/
namespace Chromeless.FrameSink
open Runs

/-- A buffer goes by the number of its frame: `held` while there is a reference to it, `posted` while its `Done`
waits for the capturer's sequence, then `done`. A request for a refresh is kept by whether capture was started. -/
structure Capturer where
  resolution : ℕ × ℕ := (1280, 720)
  started : Bool := false
  idleRefreshPeriod : ℕ := 0
  idleRefreshTimer : Bool := false
  constraints : Option (ℕ × ℕ) := none
  refreshes : List Bool := []
  framesReceived : ℕ := 0
  framesDelivered : ℕ := 0
  framesFailedToWrap : ℕ := 0
  held : List ℕ := []
  posted : List ℕ := []
  done : List ℕ := []

inductive Event
  | configure (resolution : ℕ × ℕ)
  | start
  | stop
  | onStopped
  | setCaptureResolution (width height : ℕ)
  | setIdleRefreshPeriod (period : Int)
  | onFrameCaptured (wraps : Bool)
  | idleTimer
  /-- The last reference goes, on the capturer's sequence or on another. -/
  | release (buffer : ℕ) (onSequence : Bool)
  | runDone (buffer : ℕ)

namespace Capturer

def armIdleRefreshDeadline (s : Capturer) : Capturer :=
  if s.idleRefreshPeriod = 0 ∨ s.started = false then s else { s with idleRefreshTimer := true }

def setIdleRefreshPeriod (s : Capturer) (period : Int) : Capturer :=
  if period ≤ 0 then { s with idleRefreshPeriod := 0, idleRefreshTimer := false }
  else { s with idleRefreshPeriod := period.toNat }.armIdleRefreshDeadline

def requestRefreshFrame (s : Capturer) : Capturer := { s with refreshes := s.refreshes ++ [s.started] }

def setCaptureResolution (s : Capturer) (width height : ℕ) : Capturer :=
  let aligned := (width - width % 2, height - height % 2)
  if aligned.1 = 0 ∨ aligned.2 = 0 ∨ aligned = s.resolution then s
  else if s.started then { s with resolution := aligned, constraints := some aligned }.requestRefreshFrame
  else { s with resolution := aligned }

def onFrameCaptured (s : Capturer) (wraps : Bool) : Capturer :=
  let s' := { s with framesReceived := s.framesReceived + 1 }.armIdleRefreshDeadline
  if wraps then { s' with framesDelivered := s.framesDelivered + 1, held := s.framesReceived :: s.held }
  else { s' with framesFailedToWrap := s.framesFailedToWrap + 1, done := s.framesReceived :: s.done }

def onIdleRefreshDeadline (s : Capturer) : Capturer :=
  if s.started = false ∨ s.idleRefreshPeriod = 0 then s else s.requestRefreshFrame.armIdleRefreshDeadline

/-- A start while capture is started sends the constraints once more. -/
def step (s : Capturer) : Event → Capturer
  | .configure resolution => { s with resolution }
  | .start => { s with constraints := some s.resolution, started := true }.armIdleRefreshDeadline
  | .stop | .onStopped => { s with started := false, idleRefreshTimer := false }
  | .setCaptureResolution width height => s.setCaptureResolution width height
  | .setIdleRefreshPeriod period => s.setIdleRefreshPeriod period
  | .onFrameCaptured wraps => s.onFrameCaptured wraps
  | .idleTimer => if s.idleRefreshTimer then { s with idleRefreshTimer := false }.onIdleRefreshDeadline else s
  | .release buffer onSequence =>
    if buffer ∉ s.held then s
    else if onSequence then { s with held := s.held.erase buffer, done := buffer :: s.done }
    else { s with held := s.held.erase buffer, posted := buffer :: s.posted }
  | .runDone buffer =>
    if buffer ∉ s.posted then s else { s with posted := s.posted.erase buffer, done := buffer :: s.done }

structure Sound (s : Capturer) : Prop where
  timer : s.idleRefreshTimer = true ↔ s.started = true ∧ 0 < s.idleRefreshPeriod
  constraints : s.started = true → s.constraints = some s.resolution
  refreshes : ∀ started ∈ s.refreshes, started = true
  buffers : ∀ b, s.held.count b + s.posted.count b + s.done.count b = if b < s.framesReceived then 1 else 0
  frames : s.framesReceived = s.framesDelivered + s.framesFailedToWrap

def ConfiguresStopped (s : Capturer) : Event → Prop
  | .configure _ => s.started = false
  | _ => True

theorem Sound.step (s : Capturer) (e : Event) (hok : s.ConfiguresStopped e) (h : s.Sound) : (s.step e).Sound := by
  obtain ⟨htim, hcons, hrefr, hbuff, hfrs⟩ := h
  cases e with
  | configure => exact ⟨htim, fun hs => absurd (hs.symm.trans hok) (by decide), hrefr, hbuff, hfrs⟩
  | stop | onStopped => exact ⟨by simp [Capturer.step], nofun, hrefr, hbuff, hfrs⟩
  | _ =>
    simp only [Capturer.step, setCaptureResolution, setIdleRefreshPeriod, onFrameCaptured, onIdleRefreshDeadline,
      requestRefreshFrame, armIdleRefreshDeadline]
    constructor <;> grind

theorem run_sound (es : List Event) (h : Meets step ConfiguresStopped {} es) : (run step {} es).Sound :=
  invariant_run_meets step _ Sound Sound.step ⟨by simp, nofun, nofun, fun _ => rfl, rfl⟩ h

theorem run_sound_released :
    (run step {} [.configure (640, 360), .start, .onFrameCaptured true, .release 0 false, .runDone 0]).Sound :=
  run_sound _ ⟨rfl, trivial, trivial, trivial, trivial, trivial⟩

theorem configured_while_started :
    let s := run step {} [.start, .configure (640, 360)]
    s.started = true ∧ s.constraints = some (1280, 720) ∧ s.resolution = (640, 360) := by
  decide

end Capturer

end Chromeless.FrameSink
