import Chromeless.LibNumber
import Chromeless.LibRuns

/-! The guest's viewport (`cb_viewport_controller.cc`): one size for the display, the host window, the view
of the captured tab and the capturer. -/
namespace Chromeless.Viewport
open Runs

structure Size where
  width : ℤ
  height : ℤ
deriving DecidableEq

/-- `size_dip` is in DIP. A scale factor is read from JSON, which has finite numbers only. -/
structure Spec where
  sizeDip : Size
  deviceScaleFactor : ℚ
deriving DecidableEq

def kMinViewportDimension : ℤ := 200

def kMaxViewportDimension : ℤ := 2560

def kMaxDeviceScaleFactor : ℚ := 1

def kViewportKeepCurrentScale : ℚ := 0

def evenAlignDown (v : ℤ) : ℤ := v - v % 2

def clampTo {α : Type*} [LT α] [DecidableLT α] (v lo hi : α) : α :=
  if v < lo then lo else if hi < v then hi else v

def clampDimension (v : ℤ) : ℤ := evenAlignDown (clampTo v kMinViewportDimension kMaxViewportDimension)

def clampSize (s : Size) : Size := ⟨clampDimension s.width, clampDimension s.height⟩

def clamp (spec : Spec) : Spec :=
  ⟨clampSize spec.sizeDip, clampTo spec.deviceScaleFactor 1 kMaxDeviceScaleFactor⟩

def Spec.sizePx (t : Spec) : Size :=
  ⟨Number.trunc (t.sizeDip.width * t.deviceScaleFactor), Number.trunc (t.sizeDip.height * t.deviceScaleFactor)⟩

/-- `display` is the size of the display in pixels and its scale. Tabs and track sources have numbers; a
tab may have no view. -/
structure Controller where
  current : Spec
  display : Size × ℚ
  host : Size
  views : ℕ → Option Size
  captures : ℕ → Size
  webContents : Option ℕ := none
  trackSource : Option ℕ := none

namespace Controller

def resolve (s : Controller) (spec : Spec) : Spec :=
  if spec.deviceScaleFactor = kViewportKeepCurrentScale then
    { spec with deviceScaleFactor := s.current.deviceScaleFactor }
  else spec

def setViewSize (s : Controller) (size : Size) : Controller :=
  { s with views := fun i => if s.webContents = some i then (s.views i).map fun _ => size else s.views i }

def setCaptureResolution (s : Controller) (resolution : Size) : Controller :=
  let aligned : Size := ⟨evenAlignDown resolution.width, evenAlignDown resolution.height⟩
  if aligned.width = 0 ∨ aligned.height = 0 then s
  else { s with captures := fun i => if s.trackSource = some i then aligned else s.captures i }

def apply (s : Controller) (spec : Spec) : Controller × Spec :=
  let target := clamp (s.resolve spec)
  if target = s.current then (s, target)
  else
    let s := { s with display := (target.sizePx, target.deviceScaleFactor), host := target.sizePx }
    let s := (s.setViewSize target.sizeDip).setCaptureResolution target.sizePx
    ({ s with current := target }, target)

end Controller

/-- `viewOf` is the browser's: the view of a tab appears, goes or is replaced. -/
inductive Call
  | setTargetWebContents (wc : Option ℕ)
  | setTrackSource (source : Option ℕ)
  | apply (spec : Spec)
  | viewOf (wc : ℕ) (view : Option Size)

def step (s : Controller) : Call → Controller
  | .setTargetWebContents wc => { s with webContents := wc }
  | .setTrackSource source => { s with trackSource := source }
  | .apply spec => (s.apply spec).1
  | .viewOf wc view => { s with views := fun i => if i = wc then view else s.views i }

def booted : Spec := ⟨⟨1280, 720⟩, 1⟩

/-- The display and the host window start with one size; nothing is known of tabs and track sources. -/
def boot (views : ℕ → Option Size) (captures : ℕ → Size) : Controller where
  current := booted
  display := (booted.sizePx, booted.deviceScaleFactor)
  host := booted.sizePx
  views := views
  captures := captures

def TargetsAt (s : Controller) (t : Spec) : Prop :=
  (∀ wc, s.webContents = some wc → ∀ size, s.views wc = some size → size = t.sizeDip) ∧
    ∀ source, s.trackSource = some source → s.captures source = t.sizePx

def BaseAt (s : Controller) (t : Spec) : Prop :=
  s.display = (t.sizePx, t.deviceScaleFactor) ∧ s.host = t.sizePx

theorem clampDimension_spec (v : ℤ) :
    200 ≤ clampDimension v ∧ clampDimension v ≤ 2560 ∧ clampDimension v % 2 = 0 := by
  simp only [clampDimension, clampTo, evenAlignDown, kMinViewportDimension, kMaxViewportDimension]
  split_ifs <;> omega

theorem clampTo_scale (v : ℚ) : clampTo v 1 kMaxDeviceScaleFactor = 1 := by
  rw [clampTo, kMaxDeviceScaleFactor]
  split_ifs with hlt hgt
  · rfl
  · rfl
  · exact le_antisymm (not_lt.mp hgt) (not_lt.mp hlt)

theorem sizePx_clamp (spec : Spec) : (clamp spec).sizePx = (clamp spec).sizeDip := by
  simp [Spec.sizePx, clamp, clampTo_scale, Number.trunc, clampSize]

variable (s : Controller)

theorem setCaptureResolution_clamp (spec : Spec) :
    s.setCaptureResolution (clamp spec).sizePx =
      { s with captures := fun i => if s.trackSource = some i then (clamp spec).sizePx else s.captures i } := by
  have halign : ∀ v, evenAlignDown (clampDimension v) = clampDimension v ∧ clampDimension v ≠ 0 := by
    intro v
    obtain ⟨hlow, -, heven⟩ := clampDimension_spec v
    rw [evenAlignDown, heven]
    omega
  rw [sizePx_clamp]
  simp [Controller.setCaptureResolution, clamp, clampSize, halign]

theorem baseAt_step (c : Call) (h : BaseAt s s.current) : BaseAt (step s c) (step s c).current := by
  cases c with
  | setTargetWebContents | setTrackSource | viewOf => exact h
  | apply =>
    simp only [step, Controller.apply, setCaptureResolution_clamp]
    split
    · exact h
    · exact ⟨rfl, rfl⟩

theorem targetsAt_apply (spec : Spec) (hnew : clamp (s.resolve spec) ≠ s.current) :
    TargetsAt (s.apply spec).1 (clamp (s.resolve spec)) := by
  simp only [Controller.apply, if_neg hnew, setCaptureResolution_clamp]
  constructor
  · intro wc hwc size hsize
    simp only [Controller.setViewSize] at hwc hsize
    rw [if_pos hwc] at hsize
    obtain ⟨-, -, rfl⟩ := Option.map_eq_some_iff.mp hsize
    rfl
  · intro source hsour
    exact if_pos hsour

/-- Every `Apply` returns the clamped request and sets the display and the host window to it; the targets
have it, too, unless it is the geometry in force already and a target came with another one. -/
theorem apply_agrees_iff (views : ℕ → Option Size) (captures : ℕ → Size) (calls : List Call) (spec : Spec)
    (s : Controller) (hs : s = run step (boot views captures) calls) :
    (s.apply spec).2 = clamp (s.resolve spec) ∧
      (BaseAt (s.apply spec).1 (s.apply spec).2 ∧ TargetsAt (s.apply spec).1 (s.apply spec).2 ↔
        (clamp (s.resolve spec) = s.current → TargetsAt s s.current)) := by
  have hbase : BaseAt s s.current :=
    hs ▸ invariant_run step (fun s => BaseAt s s.current) baseAt_step ⟨rfl, rfl⟩ calls
  have hreturn : (s.apply spec).2 = clamp (s.resolve spec) := by
    rw [Controller.apply]
    split <;> rfl
  refine ⟨hreturn, ?_⟩
  rw [hreturn]
  by_cases hsame : clamp (s.resolve spec) = s.current
  · have hstate : (s.apply spec).1 = s := by simp [Controller.apply, hsame]
    rw [hstate, hsame]
    exact ⟨fun h _ => h.2, fun h => ⟨hbase, h rfl⟩⟩
  have hnext : BaseAt (s.apply spec).1 (s.apply spec).1.current := baseAt_step s (.apply spec) hbase
  have hcurrent : (s.apply spec).1.current = clamp (s.resolve spec) := by simp [Controller.apply, hsame]
  rw [hcurrent] at hnext
  exact ⟨fun _ h => absurd h hsame, fun _ => ⟨hnext, targetsAt_apply s spec hsame⟩⟩

def oneTab : Controller := boot (fun _ => some ⟨1280, 720⟩) fun _ => ⟨1280, 720⟩

def wide : Spec := ⟨⟨1921, 1080⟩, 0⟩

theorem apply_agrees_wide :
    TargetsAt ((run step oneTab [.setTargetWebContents (some 1), .setTrackSource (some 0)]).apply wide).1
      ⟨⟨1920, 1080⟩, 1⟩ :=
  ((apply_agrees_iff _ _ [.setTargetWebContents (some 1), .setTrackSource (some 0)] wide _ rfl).2.mpr
    fun h => absurd h (by decide +kernel)).2

theorem second_tab_keeps_size : ∃ s,
    s = run step oneTab [.setTargetWebContents (some 1), .apply wide, .setTargetWebContents (some 2), .apply wide] ∧
      s.webContents = some 2 ∧ s.views 2 = some ⟨1280, 720⟩ ∧ (s.apply wide).2.sizeDip = ⟨1920, 1080⟩ :=
  ⟨_, rfl, by decide +kernel⟩

end Chromeless.Viewport
