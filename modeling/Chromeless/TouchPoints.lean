import Chromeless.LibJsonDatum
import Chromeless.LibRuns
import Mathlib.Data.List.Nodup

/-! Fingers on their way to the page (`cb_input_dispatch_touch.cc`). -/
namespace Chromeless.Touch
open Json Runs List

inductive PointState
  | pressed
  | moved
  | released
  | cancelled
  | stationary
deriving DecidableEq

abbrev TouchEvent := List (ℤ × PointState)

def kBlinkTouchPointsCap : ℕ := 16

def parseTouchPointData (data : Dict) : Option ℤ :=
  match Dict.findInt data (ascii "identifier"), Dict.findInt data (ascii "x"), Dict.findInt data (ascii "y") with
  | some id, some _, some _ => some id
  | _, _, _ => none

def parseTouchEndIdentifier (data : Dict) : Option ℤ := Dict.findInt data (ascii "identifier")

structure Dispatch where
  activePoints : List ℤ := []
  forwarded : List TouchEvent := []

namespace Dispatch

def assembleTouchEvent (s : Dispatch) (changed : ℤ) (state : PointState) (released : Option ℤ) : Option TouchEvent :=
  if s.activePoints.length + released.toList.length > kBlinkTouchPointsCap then none
  else some (s.activePoints.map (fun id => (id, if id = changed then state else .stationary)) ++
    released.toList.map fun id => (id, state))

/-- `widget` says whether there is a WebContents with a widget. -/
def forward (s : Dispatch) (widget : Bool) (changed : ℤ) (state : PointState) (released : Option ℤ) : Dispatch :=
  if widget then { s with forwarded := s.forwarded ++ (s.assembleTouchEvent changed state released).toList } else s

def dispatchTouchStart (s : Dispatch) (data : Dict) (widget : Bool) : Dispatch :=
  match parseTouchPointData data with
  | none => s
  | some id =>
    if id ∉ s.activePoints ∧ s.activePoints.length ≥ kBlinkTouchPointsCap then s
    else { s with activePoints := if id ∈ s.activePoints then s.activePoints else s.activePoints ++ [id] }.forward
      widget id .pressed none

def dispatchTouchMove (s : Dispatch) (data : Dict) (widget : Bool) : Dispatch :=
  match parseTouchPointData data with
  | none => s
  | some id => if id ∉ s.activePoints then s else s.forward widget id .moved none

def dispatchTouchEnd (s : Dispatch) (data : Dict) (widget cancel : Bool) : Dispatch :=
  match parseTouchEndIdentifier data with
  | none => s
  | some id =>
    if id ∉ s.activePoints then s
    else { s with activePoints := s.activePoints.erase id }.forward widget id
      (if cancel then .cancelled else .released) (some id)

end Dispatch

inductive Envelope
  | touchStart (data : Dict) (widget : Bool)
  | touchMove (data : Dict) (widget : Bool)
  | touchEnd (data : Dict) (widget : Bool)
  | touchCancel (data : Dict) (widget : Bool)

def step (s : Dispatch) : Envelope → Dispatch
  | .touchStart data widget => s.dispatchTouchStart data widget
  | .touchMove data widget => s.dispatchTouchMove data widget
  | .touchEnd data widget => s.dispatchTouchEnd data widget false
  | .touchCancel data widget => s.dispatchTouchEnd data widget true

/-- What the page hears of a finger, up to the events in which it only rests. -/
def history (forwarded : List TouchEvent) (finger : ℤ) : List PointState :=
  forwarded.flatten.filterMap fun p => if p.1 = finger ∧ p.2 ≠ .stationary then some p.2 else none

/-- Reads states of a finger that is down or not; `none` if they do not follow
`(Pressed Moved* (Released | Cancelled))*`. -/
def scan : Bool → List PointState → Option Bool
  | down, [] => some down
  | false, .pressed :: l => scan true l
  | true, .moved :: l => scan true l
  | true, .released :: l => scan false l
  | true, .cancelled :: l => scan false l
  | _, _ :: _ => none

theorem scan_append (down : Bool) (l m : List PointState) : scan down (l ++ m) = (scan down l).bind (scan · m) := by
  fun_induction scan down l <;> simp_all [scan]

/-- A finger goes down and up only while there is a widget, and goes down only when it is up. -/
def Orderly (s : Dispatch) : Envelope → Bool
  | .touchStart data widget => (parseTouchPointData data).all fun id =>
      id ∉ s.activePoints && (widget || kBlinkTouchPointsCap ≤ s.activePoints.length)
  | .touchMove _ _ => true
  | .touchEnd data widget | .touchCancel data widget => (parseTouchEndIdentifier data).all fun id =>
      id ∉ s.activePoints || widget

structure Inv (s : Dispatch) : Prop where
  nodup : s.activePoints.Nodup
  cap : s.activePoints.length ≤ kBlinkTouchPointsCap
  scan : ∀ finger, scan false (history s.forwarded finger) = some (decide (finger ∈ s.activePoints))

/-! ### The state of one finger in an event -/

theorem history_append (forwarded : List TouchEvent) (event : TouchEvent) (finger : ℤ) :
    history (forwarded ++ [event]) finger = history forwarded finger ++ history [event] finger := by
  simp [history]

theorem history_concat (a b : TouchEvent) (finger : ℤ) :
    history [a ++ b] finger = history [a] finger ++ history [b] finger := by
  simp [history]

variable {state : PointState}

theorem history_active {l : List ℤ} (hl : l.Nodup) (changed : ℤ) (hst : state ≠ .stationary) (finger : ℤ) :
    history [l.map fun id => (id, if id = changed then state else .stationary)] finger =
      if finger = changed ∧ changed ∈ l then [state] else [] := by
  induction l with
  | nil => simp [history]
  | cons id l ih =>
    obtain ⟨hid, hl⟩ := nodup_cons.mp hl
    have ih := ih hl
    simp only [history, flatten_cons, flatten_nil, append_nil, map_cons, filterMap_cons] at ih ⊢
    grind

variable {s : Dispatch}

theorem history_forward (hnd : s.activePoints.Nodup) {changed : ℤ} {released : Option ℤ}
    (hchd : changed ∈ s.activePoints ∧ released = none ∨ changed ∉ s.activePoints ∧ released = some changed)
    (hcap : s.activePoints.length + released.toList.length ≤ kBlinkTouchPointsCap)
    (hst : state ≠ .stationary) (finger : ℤ) :
    history (s.forward true changed state released).forwarded finger =
      history s.forwarded finger ++ if finger = changed then [state] else [] := by
  rw [Dispatch.forward, if_pos rfl, Dispatch.assembleTouchEvent, if_neg (Nat.not_lt.mpr hcap)]
  refine (history_append ..).trans (congrArg _ ?_)
  rw [history_concat, history_active hnd changed hst]
  rcases hchd with ⟨hmem, rfl⟩ | ⟨hmem, rfl⟩
  · simp [hmem, history]
  · by_cases hfing : finger = changed <;>
      simp [hmem, history, hst, hfing, @eq_comm _ changed]

theorem inv_forward (h : Inv s) (s' : Dispatch) (hforw : s'.forwarded = s.forwarded)
    (hnd : s'.activePoints.Nodup) {changed : ℤ} {released : Option ℤ}
    (hchd : changed ∈ s'.activePoints ∧ released = none ∨ changed ∉ s'.activePoints ∧ released = some changed)
    (hcap : s'.activePoints.length + released.toList.length ≤ kBlinkTouchPointsCap) (hst : state ≠ .stationary)
    (hoths : ∀ finger, finger ≠ changed → (finger ∈ s'.activePoints ↔ finger ∈ s.activePoints))
    (hown : Touch.scan (decide (changed ∈ s.activePoints)) [state] = some (decide (changed ∈ s'.activePoints))) :
    Inv (s'.forward true changed state released) := by
  refine ⟨hnd, (Nat.le_add_right _ _).trans hcap, fun finger => ?_⟩
  rw [history_forward hnd hchd hcap hst, scan_append, hforw, h.scan]
  change Touch.scan (decide (finger ∈ s.activePoints)) _ = some (decide (finger ∈ s'.activePoints))
  split
  next hfing => rw [hfing, hown]
  next hfing => simp [Touch.scan, hoths finger hfing]

theorem inv_end (h : Inv s) {data : Dict} {widget : Bool}
    (hok : ((parseTouchEndIdentifier data).all fun id => id ∉ s.activePoints || widget) = true) (cancel : Bool) :
    Inv (s.dispatchTouchEnd data widget cancel) := by
  rw [Dispatch.dispatchTouchEnd]
  split
  next => exact h
  next id hid =>
    split
    next => exact h
    next hmem =>
      have hmem := not_not.mp hmem
      obtain rfl : widget = true := by simpa [hid, hmem] using hok
      have hpos := length_pos_of_mem hmem
      have hcap := h.cap
      refine inv_forward h { s with activePoints := s.activePoints.erase id } rfl (h.nodup.erase id) (.inr ⟨h.nodup.not_mem_erase, rfl⟩) ?_ ?_ ?_ ?_
      · simp only [length_erase_of_mem hmem, Option.toList_some, length_singleton]
        omega
      · cases cancel <;> decide
      · exact fun finger hne => mem_erase_of_ne hne
      · have hnot : id ∉ s.activePoints.erase id := h.nodup.not_mem_erase
        cases cancel <;> simp [hmem, hnot, Touch.scan]

theorem inv_step (s : Dispatch) (e : Envelope) (hok : Orderly s e = true) (h : Inv s) : Inv (step s e) := by
  cases e with
  | touchStart data widget =>
    rw [step, Dispatch.dispatchTouchStart]
    split
    next => exact h
    next id hid =>
      obtain ⟨hnew, hwidg⟩ : id ∉ s.activePoints ∧ (widget = true ∨ kBlinkTouchPointsCap ≤ s.activePoints.length) := by
        simpa [Orderly, hid] using hok
      split
      next => exact h
      next hroom =>
        have hroom : s.activePoints.length < kBlinkTouchPointsCap := by
          by_contra hfull
          exact hroom ⟨hnew, Nat.not_lt.mp hfull⟩
        obtain rfl := hwidg.resolve_right (Nat.not_le.mpr hroom)
        refine inv_forward h { s with activePoints := s.activePoints ++ [id] } rfl ?_ (.inl ⟨by simp, rfl⟩)
          (by simpa using Nat.succ_le_of_lt hroom) (by decide) ?_ (by simp [hnew, Touch.scan])
        · refine nodup_append.mpr ⟨h.nodup, nodup_singleton id, ?_⟩
          simpa using fun x hx => ne_of_mem_of_not_mem hx hnew
        · intro finger hne
          simp [hne]
  | touchMove data widget =>
    rw [step, Dispatch.dispatchTouchMove]
    split
    next => exact h
    next id hid =>
      split
      next => exact h
      next hmem =>
        have hmem := not_not.mp hmem
        cases widget with
        | false => exact h
        | true =>
          exact inv_forward h s rfl h.nodup (.inl ⟨hmem, rfl⟩) h.cap (by decide) (fun _ _ => Iff.rfl)
            (by simp [hmem, Touch.scan])
  | touchEnd => exact inv_end h hok false
  | touchCancel => exact inv_end h hok true

/-- In every orderly run the page hears of every finger that it goes down, moves and goes up or is
cancelled, in turns. -/
theorem fingers_in_turn (es : List Envelope) (h : Meets step (fun s e => Orderly s e = true) {} es) (finger : ℤ) :
    (scan false (history (run step {} es).forwarded finger)).isSome = true := by
  have hstart : Inv {} := ⟨nodup_nil, Nat.zero_le _, fun _ => rfl⟩
  have hinv := invariant_run_meets step _ Inv inv_step hstart h
  rw [hinv.scan finger]
  rfl

def point (id : ℤ) : Dict :=
  [(ascii "identifier", .integer id), (ascii "x", .integer 1), (ascii "y", .integer 1)]

theorem fingers_in_turn_tap :
    (scan false (history (run step {} [.touchStart (point 7) true, .touchEnd (point 7) true]).forwarded 7)).isSome =
      true :=
  fingers_in_turn _ (by decide +kernel) 7

/-- A finger that goes down while there is no widget, and moves when there is one; a finger that goes down
twice; and one that goes up while there is none. -/
theorem fingers_out_of_turn :
    history (run step {} [.touchStart (point 7) false, .touchMove (point 7) true]).forwarded 7 = [.moved] ∧
    history (run step {} [.touchStart (point 7) true, .touchStart (point 7) true]).forwarded 7 = [.pressed, .pressed] ∧
    history (run step {} [.touchStart (point 7) true, .touchEnd (point 7) false, .touchStart (point 7) true]).forwarded 7 =
      [.pressed, .pressed] ∧
    scan false [.moved] = none ∧ scan false [.pressed, .pressed] = none := by
  decide +kernel

end Chromeless.Touch
