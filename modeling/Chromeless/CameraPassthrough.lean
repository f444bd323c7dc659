import Chromeless.LibRuns

/-! Sharing the camera and the microphone (`passthrough.ts`): which tracks are live and which senders are
on the peer connection. -/
namespace Chromeless.Camera
open Runs

inductive Kind
  | video | audio
deriving DecidableEq

/-- Tracks are numbered in the order they are acquired. -/
structure Track where
  id : ℕ
  kind : Kind
deriving DecidableEq

/-- `stream` has the tracks of the stream, `senders` the tracks that were added for sending. -/
structure CameraPassthrough where
  enabled : Bool := false
  videoTrackActive : Bool := false
  audioTrackActive : Bool := false
  stream : Option (List Track) := none
  senders : List Track := []
  trackEndDetachers : List Track := []
  -- calls of `enable` that wait for `getUserMedia`
  prompts : ℕ := 0
  live : List Track := []
  onPeer : List Track := []
  acquired : ℕ := 0

structure PassthroughOptions where
  disableVideo : Bool := false
  disableAudio : Bool := false
  mediaDevices : Bool := true

inductive Act
  | enable
  | granted (kinds : List Kind)
  | refused
  | disable
  | ended (t : Track)

namespace CameraPassthrough
variable (opts : PassthroughOptions) (s : CameraPassthrough)

/-- Up to the await. -/
def enable : CameraPassthrough :=
  if s.enabled && s.stream.isSome then s
  else if opts.disableVideo && opts.disableAudio then s
  else if !opts.mediaDevices then s
  else { s with prompts := s.prompts + 1 }

def tracks (kinds : List Kind) : List Track :=
  kinds.mapIdx fun i kind => ⟨s.acquired + i, kind⟩

/-- The rest of `enable` when `getUserMedia` resolves with a stream of these tracks. -/
def granted (kinds : List Kind) : CameraPassthrough :=
  if s.prompts = 0 then s
  else { s with
    prompts := s.prompts - 1
    acquired := s.acquired + kinds.length
    live := s.live ++ s.tracks kinds
    onPeer := s.onPeer ++ s.tracks kinds
    senders := s.senders ++ s.tracks kinds
    trackEndDetachers := s.trackEndDetachers ++ s.tracks kinds
    enabled := true
    videoTrackActive := !opts.disableVideo
    audioTrackActive := !opts.disableAudio
    stream := some (s.tracks kinds) }

def disable : CameraPassthrough :=
  if !s.enabled then s
  else { s with
    trackEndDetachers := []
    live := s.live.filter (· ∉ s.stream.getD [])
    onPeer := s.onPeer.filter (· ∉ s.senders)
    senders := []
    enabled := false
    videoTrackActive := false
    audioTrackActive := false
    stream := none }

def handleTrackEnd (t : Track) : CameraPassthrough :=
  match s.enabled, s.stream with
  | true, some ts =>
    let stillLive := ts.filter fun u => u ≠ t ∧ u ∈ s.live
    if stillLive.length = 0 then s.disable
    else { s with
      videoTrackActive := stillLive.any (·.kind = .video)
      audioTrackActive := stillLive.any (·.kind = .audio) }
  | _, _ => s

/-- A track ends on its own. -/
def ended (t : Track) : CameraPassthrough :=
  if t ∈ s.live then
    let s := { s with live := s.live.erase t }
    if t ∈ s.trackEndDetachers then s.handleTrackEnd t else s
  else s

def step : Act → CameraPassthrough
  | .enable => s.enable opts
  | .granted kinds => s.granted opts kinds
  | .refused => { s with prompts := s.prompts - 1 }
  | .disable => s.disable
  | .ended t => s.ended t

/-- No call is made while the user is asked. -/
def Unprompted : Act → Prop
  | .enable | .disable => s.prompts = 0
  | _ => True

instance (a : Act) : Decidable (s.Unprompted a) := by
  cases a <;> unfold Unprompted <;> infer_instance

def Calls : Act → Bool
  | .enable | .disable => true
  | _ => false

/-- Enabled with one stream, or nothing is held; while the user is asked nothing is. -/
structure Inv : Prop where
  live : ∀ t ∈ s.live, t ∈ s.stream.getD []
  onPeer : s.onPeer = s.senders
  enabled : s.enabled = s.stream.isSome
  off : s.stream = none → s.senders = []
  prompts : 0 < s.prompts → s.prompts = 1 ∧ s.stream = none

variable {opts s}

theorem Inv.live_nil (h : s.Inv) (hs : s.stream = none) : s.live = [] := by
  apply List.eq_nil_iff_forall_not_mem.mpr
  intro t ht
  simpa [hs] using h.live t ht

theorem disable_inv (h : s.Inv) : s.disable.Inv ∧ s.disable.stream = none := by
  obtain ⟨h1, h2, h3, _, h5⟩ := h
  unfold disable
  split
  · simp_all [Inv.mk]
  refine ⟨⟨?_, by simp [h2], rfl, fun _ => rfl, fun hp => ⟨(h5 hp).1, rfl⟩⟩, rfl⟩
  intro t ht
  have hlive := List.mem_filter.mp ht
  exact absurd (h1 t hlive.1) (of_decide_eq_true hlive.2)

theorem step_inv (a : Act) (hok : s.Unprompted a) (h : s.Inv) : (s.step opts a).Inv := by
  have hinv := h
  obtain ⟨h1, h2, h3, h4, h5⟩ := h
  cases a with
  | enable =>
    have hnone : s.prompts = 0 := hok
    simp only [step, enable]
    split_ifs with hon
    · exact hinv
    · exact hinv
    · exact hinv
    · exact ⟨h1, h2, h3, h4, fun _ => ⟨by simp [hnone], by simp_all⟩⟩
  | granted kinds =>
    simp only [step, granted]
    split
    · exact hinv
    · obtain ⟨hone, hs⟩ := h5 (by omega)
      exact ⟨by simp [hinv.live_nil hs], by simp [h2], rfl, nofun, by simp [hone]⟩
  | refused => exact ⟨h1, h2, h3, h4, fun hp => absurd hp (by have := h5; simp only [step]; omega)⟩
  | disable => exact (disable_inv hinv).1
  | ended t =>
    have hers : { s with live := s.live.erase t }.Inv := ⟨fun u hu => h1 u (List.mem_of_mem_erase hu), h2, h3, h4, h5⟩
    simp only [step, ended]
    split_ifs
    · unfold handleTrackEnd
      split
      · dsimp only
        split
        · exact (disable_inv hers).1
        · exact { hers with }
      · exact hers
    · exact hers
    · exact hinv

/-- Nothing is held and nothing is asked for. -/
def Dark (s : CameraPassthrough) : Prop := s.prompts = 0 ∧ s.live = [] ∧ s.onPeer = []

theorem step_dark (a : Act) (ha : Calls a = false) (h : s.Dark) : (s.step opts a).Dark := by
  obtain ⟨h1, h2, h3⟩ := h
  cases a with
  | enable | disable => cases ha
  | granted kinds => simp [step, granted, Dark, h1, h2, h3]
  | refused => simp [step, Dark, h1, h2, h3]
  | ended t => simp [step, ended, Dark, h1, h2, h3]

theorem run_inv {as : List Act} (h : Meets (step opts) Unprompted {} as) :
    (run (step opts) {} as).Inv :=
  invariant_run_meets _ _ Inv (fun _ a hok hi => step_inv a hok hi)
    ⟨nofun, rfl, rfl, fun _ => rfl, nofun⟩ h

end CameraPassthrough

end Chromeless.Camera
