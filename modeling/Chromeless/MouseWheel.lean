import Mathlib.Algebra.BigOperators.Group.List.Basic
import Mathlib.Algebra.Group.Prod
import Mathlib.Tactic.Abel

/-! The wheel events that the mouse dispatcher forwards (`cb_input_dispatch_mouse.cc`), with exact distances. -/
namespace Chromeless.Wheel
open List

/-- What an envelope carries; one with a field missing is dropped. -/
structure WheelData where
  dx : ℤ
  dy : ℤ
  mode : ℤ
  deltaMode : Option String := none
  phase : Option String := none

inductive Phase
  | began
  | changed
  | ended
deriving DecidableEq

structure WheelEvent where
  delta : ℤ × ℤ
  wheelTicks : ℤ × ℤ
  phase : Phase

def wheelScalingFor (mode : ℤ) (deltaMode : Option String) : ℤ :=
  if deltaMode = some "pixel" then 1
  else if deltaMode = some "line" then 16
  else if deltaMode = some "page" then 800
  else if mode = 1 then 16
  else if mode = 2 then 800
  else 1

namespace WheelData

def distance (e : WheelData) : ℤ × ℤ := (e.dx, e.dy)

def scale (e : WheelData) : ℤ := wheelScalingFor e.mode e.deltaMode

/-- Down is positive here, and negative in Blink. -/
def scaled (e : WheelData) : ℤ × ℤ := -(e.scale • e.distance)

/-- The distance of a start follows its zero event. -/
def dispatchMouseWheel (e : WheelData) : List WheelEvent :=
  let synthZeroDelta := e.phase = some "start" ∨ e.phase = some "end"
  let delta := if synthZeroDelta then 0 else e.scaled
  let event : WheelEvent :=
    { delta
      wheelTicks := if e.scale = 1 then delta else -e.distance
      phase := if e.phase = some "start" then .began else if e.phase = some "end" then .ended else .changed }
  if e.phase = some "start" ∧ e.distance ≠ 0 then
    [event, { delta := e.scaled, wheelTicks := if e.scale = 1 then e.scaled else -e.distance, phase := .changed }]
  else [event]

/-- The ticks of a start that is not in pixels are in both of its events. -/
def doubled (e : WheelData) : ℤ × ℤ := if e.phase = some "start" ∧ e.scale ≠ 1 then e.distance else 0

theorem dispatchMouseWheel_sums (e : WheelData) (hend : e.phase = some "end" → e.distance = 0) :
    (e.dispatchMouseWheel.map WheelEvent.delta).sum = e.scaled ∧
      (e.dispatchMouseWheel.map WheelEvent.wheelTicks).sum = -e.distance - e.doubled := by
  by_cases hzero : e.distance = 0
  · simp [dispatchMouseWheel, scaled, doubled, hzero]
  have hne : e.phase ≠ some "end" := mt hend hzero
  by_cases hstart : e.phase = some "start" <;> by_cases hone : e.scale = 1 <;>
    simp [dispatchMouseWheel, scaled, doubled, hzero, hne, hstart, hone, sub_eq_add_neg]

end WheelData

open WheelData

/-- No distance is lost, and the ticks are right exactly if those of starts that count twice cancel out. -/
theorem wheel_conserved_iff (es : List WheelData) (hend : ∀ e ∈ es, e.phase = some "end" → e.distance = 0) :
    let forwarded := es.flatMap dispatchMouseWheel
    (forwarded.map WheelEvent.delta).sum = -(es.map fun e => e.scale • e.distance).sum ∧
      ((forwarded.map WheelEvent.wheelTicks).sum = -(es.map distance).sum ↔ (es.map doubled).sum = 0) := by
  suffices hsum : ((es.flatMap dispatchMouseWheel).map WheelEvent.delta).sum =
        -(es.map fun e => e.scale • e.distance).sum ∧
      ((es.flatMap dispatchMouseWheel).map WheelEvent.wheelTicks).sum = -(es.map distance).sum - (es.map doubled).sum by
    exact ⟨hsum.1, by rw [hsum.2, sub_eq_self]⟩
  induction es with
  | nil => simp
  | cons e es ih =>
    obtain ⟨hdelta, hticks⟩ := dispatchMouseWheel_sums e (hend e mem_cons_self)
    obtain ⟨ihdelta, ihticks⟩ := ih fun e' he' => hend e' (mem_cons_of_mem e he')
    simp only [flatMap_cons, map_append, sum_append, map_cons, sum_cons, hdelta, hticks, ihdelta, ihticks, scaled]
    exact ⟨by abel, by abel⟩

theorem wheel_conserved_pixels :
    let es : List WheelData := [⟨0, 3, 0, none, some "start"⟩, ⟨0, 2, 1, none, none⟩, ⟨0, 0, 0, none, some "end"⟩]
    ((es.flatMap dispatchMouseWheel).map WheelEvent.wheelTicks).sum = -(es.map distance).sum :=
  (wheel_conserved_iff _ (by decide)).2.mpr (by decide)

/-- Three lines at the start of a gesture. -/
theorem wheel_ticks_twice :
    ((dispatchMouseWheel ⟨0, 3, 1, none, some "start"⟩).map WheelEvent.wheelTicks).sum = (0, -6) := by
  decide

end Chromeless.Wheel
