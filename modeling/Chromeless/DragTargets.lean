import Chromeless.InputModifiers

/-! What the widgets hear of drags (`cb_input_dispatch_drag.cc`). -/
namespace Chromeless.Drag
open Runs Input

variable {ω : Type*} [DecidableEq ω]

inductive Call
  | dragEnter
  | dragOver
  | dragLeave
  | drop
deriving DecidableEq

/-- The widget is the one that is resolved for the envelope; without a position it is as if there were none. -/
inductive Envelope (ω : Type*)
  | dragStart (widget : Option ω)
  | dragOver (widget : Option ω)
  | drop (widget : Option ω)
  | dragEnd (widget : Option ω) (success : Bool)

/-- `target` is the widget that was entered last. -/
structure State (ω : Type*) where
  phase : DragPhase := .idle
  calls : List (ω × Call) := []
  target : Option ω := none

def step (s : State ω) : Envelope ω → State ω
  | .dragStart (some w) =>
    ⟨.active, s.calls ++ (if s.phase = .idle then [] else [(w, .dragLeave)]) ++ [(w, .dragEnter)], some w⟩
  | .dragOver (some w) => if s.phase = .active then { s with calls := s.calls ++ [(w, .dragOver)] } else s
  | .drop (some w) => { s with phase := .awaitingEnd, calls := s.calls ++ [(w, .drop)] }
  | .dragEnd (some w) success =>
    if s.phase = .active ∨ s.phase = .awaitingEnd ∧ success = false then
      { s with phase := .idle, calls := s.calls ++ [(w, .dragLeave)] }
    else { s with phase := .idle }
  | .dragEnd none _ => { s with phase := .idle }
  | _ => s

def heard (calls : List (ω × Call)) (w : ω) : List Call :=
  calls.filterMap fun p => if p.1 = w then some p.2 else none

/-- Reads calls to a widget that is in a drag or not; `none` if they do not follow
`(Enter Over* (Leave | Drop))*`. -/
def scan : Bool → List Call → Option Bool
  | inside, [] => some inside
  | false, .dragEnter :: l => scan true l
  | true, .dragOver :: l => scan true l
  | true, .dragLeave :: l | true, .drop :: l => scan false l
  | _, _ :: _ => none

/-- A drag starts when none is open, stays on its widget and ends there, and a drop is followed by a success. -/
def Steady (s : State ω) : Envelope ω → Prop
  | .dragStart widget => widget ≠ none → s.phase = .idle
  | .dragOver widget => s.phase = .active → widget ≠ none → s.target = widget
  | .drop widget => widget ≠ none → s.phase = .active ∧ s.target = widget
  | .dragEnd widget success =>
    (s.phase = .active → s.target = widget) ∧ (s.phase = .awaitingEnd → success = false → widget = none)

structure Inv (s : State ω) : Prop where
  entered : s.phase = .active → s.target ≠ none
  scan : ∀ w, scan false (heard s.calls w) = if s.phase = .active ∧ s.target = some w then some true else some false

theorem scan_append (inside : Bool) (l m : List Call) : scan inside (l ++ m) = (scan inside l).bind (scan · m) := by
  fun_induction scan inside l <;> simp_all [scan]

theorem scan_concat (calls : List (ω × Call)) (w v : ω) (c : Call) :
    scan false (heard (calls ++ [(w, c)]) v) =
      if w = v then (scan false (heard calls v)).bind (scan · [c]) else scan false (heard calls v) := by
  by_cases h : w = v <;> simp [heard, h, scan_append]

theorem inv_step (s : State ω) (e : Envelope ω) (hok : Steady s e) (h : Inv s) : Inv (step s e) := by
  obtain ⟨hent, hscan⟩ := h
  fun_cases step s e <;> constructor <;> grind [Steady, scan_concat, Drag.scan]

theorem drags_in_turn (es : List (Envelope ω)) (h : Meets step Steady {} es) (w : ω) :
    (scan false (heard (run step {} es).calls w)).isSome = true := by
  have hinv : Inv (run step {} es) := invariant_run_meets step Steady Inv inv_step ⟨nofun, fun _ => rfl⟩ h
  rw [hinv.scan w]
  split <;> rfl

theorem drags_in_turn_dropped :
    (scan false (heard (run step {} [.dragStart (some 1), .drop (some 1), .dragEnd none true]).calls 1)).isSome =
      true := by
  refine drags_in_turn _ ?_ 1
  simp [Meets, Steady, step]

/-- A drop on a widget that came after the start; a drop that failed; an end without a widget. -/
theorem drags_out_of_turn :
    [[.dragStart none, .drop (some 1), .dragEnd none true],
      [.dragStart (some 1), .drop (some 1), .dragEnd (some 1) false],
      [.dragStart (some 1), .dragEnd none false, .dragStart (some 1), .dragEnd (some 1) false]].map
        (fun es => heard (run step {} es).calls 1) =
      [[.drop], [.dragEnter, .drop, .dragLeave], [.dragEnter, .dragEnter, .dragLeave]] ∧
    scan false [.drop] = none ∧ scan false [.dragEnter, .drop, .dragLeave] = none ∧
    scan false [.dragEnter, .dragEnter, .dragLeave] = none := by
  decide

end Chromeless.Drag
