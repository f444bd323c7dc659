import Chromeless.LibRuns
import Mathlib.Data.List.Chain

/-! The VP9 encoder (`vp9_encoder.cc`), while the frames keep their size: the timestamps that it gives them, and
the configurations that libvpx gets. -/
namespace Chromeless.Vp9
open Runs List

/-- The calls of `vpx_codec_encode` are kept by the timestamps they are given. -/
structure Vp9Encoder where
  framerate : ℕ := 30
  framesIn : ℕ := 0
  pts : List ℕ := []

/-- Ticks of a frame, at 90 kHz. -/
def duration (framerate : ℕ) : ℕ := if framerate > 0 then 90000 / framerate else 3000

/-- A frame that `vpx_codec_encode` takes or refuses, or a framerate, cut to whole frames. -/
inductive Event
  | encode (ok : Bool)
  | setRates (framerate : ℕ)
deriving DecidableEq

def step (s : Vp9Encoder) : Event → Vp9Encoder
  | .encode ok =>
    { s with
      pts := s.pts ++ [s.framesIn * duration s.framerate]
      framesIn := if ok then s.framesIn + 1 else s.framesIn }
  | .setRates framerate => { s with framerate := max 1 framerate }

/-- How long the frames are, by the framerates they meet. -/
def durations : ℕ → List Event → List ℕ
  | _, [] => []
  | framerate, .encode _ :: es => duration framerate :: durations framerate es
  | _, .setRates framerate :: es => durations (max 1 framerate) es

theorem run_pts (s : Vp9Encoder) (es : List Event) (hok : .encode false ∉ es) :
    (run step s es).pts = s.pts ++ (durations s.framerate es).mapIdx fun k d => (s.framesIn + k) * d := by
  induction es generalizing s with
  | nil => simp [durations]
  | cons e es ih =>
    rw [mem_cons, not_or] at hok
    rw [run_cons, ih _ hok.2]
    cases e with
    | encode ok =>
      obtain rfl : ok = true := by simpa using hok.1
      simp [step, durations, mapIdx_cons, Nat.add_assoc, Nat.add_comm 1]
    | setRates => simp [step, durations]

inductive KfMode
  | disabled
  | auto
deriving DecidableEq

inductive EndUsage
  | vbr
  | cbr
  | cq
  | q
deriving DecidableEq

/-- The fields of `vpx_codec_enc_cfg_t` that are set somewhere; `g_pass` by whether it is the only one. -/
@[ext]
structure EncCfg where
  gW : ℕ
  gH : ℕ
  gTimebase : ℕ × ℕ
  gLagInFrames : ℕ
  onePass : Bool
  rcEndUsage : EndUsage
  rcTargetBitrate : ℤ
  rcQuantizer : ℕ × ℕ
  rcShootPct : ℕ × ℕ
  rcBufSz : ℕ × ℕ × ℕ
  rcDropframeThresh : ℕ
  rcResizeAllowed : ℕ
  kfMode : KfMode
  kfDist : ℕ × ℕ
  gThreads : ℕ
  gErrorResilient : ℕ
deriving DecidableEq

structure Vp9EncoderConfig where
  targetBitrateBps : ℤ := 4000000
  keyframeInterval : ℤ := -1
  numThreads : ℤ := 0

/-- One less than none wraps around. -/
def Vp9EncoderConfig.threads (c : Vp9EncoderConfig) (hardwareConcurrency : ℕ) : ℕ :=
  if c.numThreads > 0 then c.numThreads.toNat else max 1 ((hardwareConcurrency + 4294967295) % 4294967296)

variable (d : EncCfg) (hardwareConcurrency width height : ℕ)

/-- What both functions set in the library's defaults. -/
def common (bps : ℤ) : EncCfg :=
  { d with
    gW := width, gH := height, gTimebase := (1, 90000), gLagInFrames := 0, onePass := true, rcEndUsage := .cbr
    rcTargetBitrate := max 1 (bps.tdiv 1000), kfMode := .disabled }

def initEncode (c : Vp9EncoderConfig) : EncCfg :=
  let cfg := { common d width height c.targetBitrateBps with
    rcQuantizer := (2, 56), rcShootPct := (50, 50), rcBufSz := (500, 600, 1000), rcDropframeThresh := 0
    rcResizeAllowed := 0, gErrorResilient := 1, gThreads := c.threads hardwareConcurrency }
  if c.keyframeInterval > 0 then
    { cfg with kfMode := .auto, kfDist := (c.keyframeInterval.toNat, c.keyframeInterval.toNat) }
  else cfg

/-- The settings of the codec after `SetRates` with bitrates. -/
def setRates (c : Vp9EncoderConfig) (rates : List ℤ) : EncCfg :=
  run (fun _ bps => common d width height bps) (initEncode d hardwareConcurrency width height c) rates

end Chromeless.Vp9
