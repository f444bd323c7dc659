import Chromeless.LibRuns
import Mathlib.Algebra.Order.Group.Unbundled.Int

/-! The client's side of the input channel (`InputChannel` in `input.ts`): events are queued, moves
replace the move before them, and a flush sends what is there. The channel is open and `send` returns. -/
namespace Chromeless.ClientInput
open Runs List

abbrev Pos := ℤ × ℤ

/-- The numbers are as they are sent: rounded, and the radii at least one. -/
structure Touch (δ : Type*) where
  identifier : ℤ
  pos : Pos
  rest : δ

inductive WheelPhase
  | start | changed | stop
deriving DecidableEq

structure Wheel where
  dx : ℤ
  dy : ℤ
  mode : Fin 3
  pos : Pos
  phase : WheelPhase
  momentum : Bool
deriving DecidableEq

/-- What the senders that only queue their event are called with; `other` is a key, a composition or a
clipboard event. -/
inductive Plain (δ : Type*)
  | mouseButton (button : Fin 5) (down : Bool) (pos : Pos)
  | dragStart (pos : Pos) (items : δ)
  | drop (pos : Pos) (items : δ)
  | dragEnd (success : Bool)
  | touchStart (t : Touch δ)
  | other (data : δ)

inductive Envelope (δ : Type*)
  | plain (e : Plain δ)
  | mouseMove (pos : Pos)
  | mouseWheel (w : Wheel)
  | dragOver (pos : Pos)
  | touchMove (t : Touch δ)
  | touchEnd (identifier : ℤ)
  | touchCancel (identifier : ℤ)

inductive Act (δ : Type*)
  | plain (e : Plain δ)
  | mouseMove (pos : Pos)
  | mouseWheel (now dx dy : ℤ) (mode : Fin 3) (pos : Pos)
  | wheelEnd
  | dragOver (pos : Pos)
  | touchMove (t : Touch δ)
  | touchEnd (identifier : ℤ)
  | touchCancel (identifier : ℤ)
  | flush

structure WheelState where
  momentumGapMs : ℤ
  active : Bool := false
  lastEventNow : ℤ := 0
  prevAbsDelta : ℤ := 0
  lastPos : Pos × Fin 3 := ((0, 0), 0)

/-- `pendingTouchMoves` is kept in the order in which a flush sends it. -/
structure InputChannel (δ : Type*) where
  wheel : WheelState
  seq : ℕ := 0
  pendingMove : Option Pos := none
  pendingDragOver : Option Pos := none
  pendingTouchMoves : List (Touch δ) := []
  pendingOther : List (Envelope δ) := []
  -- what was sent, with its number
  sent : List (Envelope δ × ℕ) := []

namespace WheelState
variable (s : WheelState)

/-- A wheel event and what is queued for it: without a gesture, nothing for one that does not move. -/
def next (now dx dy : ℤ) (mode : Fin 3) (pos : Pos) : WheelState × List Wheel :=
  let absDelta := |dx| + |dy|
  let gap := now - s.lastEventNow
  let s' := { s with
    active := true, lastEventNow := now, prevAbsDelta := absDelta, lastPos := (pos, mode) }
  if s.active then
    (s', [⟨dx, dy, mode, pos, .changed, 0 < gap ∧ gap < s.momentumGapMs ∧ 0 < absDelta ∧ absDelta < s.prevAbsDelta⟩])
  else if absDelta = 0 then (s, [])
  else (s', [⟨dx, dy, mode, pos, .start, false⟩])

def finish : WheelState × List Wheel :=
  if s.active then
    ({ s with active := false, prevAbsDelta := 0 }, [⟨0, 0, s.lastPos.2, s.lastPos.1, .stop, false⟩])
  else (s, [])

end WheelState

section
variable {δ : Type*}

def Plain.isDrag : Plain δ → Bool
  | .dragStart _ _ | .drop _ _ | .dragEnd _ => true
  | _ => false

namespace Envelope

def isDrag : Envelope δ → Bool
  | .plain e => e.isDrag
  | .dragOver _ => true
  | _ => false

def isPointer : Envelope δ → Bool
  | .mouseMove _ | .mouseWheel _ | .plain (.mouseButton _ _ _) => true
  | _ => false

/-- A later event may replace it. -/
def coalesces : Envelope δ → Bool
  | .mouseMove _ | .dragOver _ | .touchMove _ => true
  | _ => false

end Envelope

end

namespace InputChannel
variable {δ : Type*} (s : InputChannel δ)

def enqueue (e : Envelope δ) : InputChannel δ := { s with pendingOther := s.pendingOther ++ [e] }

def sendMouseMove (pos : Pos) : InputChannel δ := { s with pendingMove := some pos }

def sendMouseWheel (now dx dy : ℤ) (mode : Fin 3) (pos : Pos) : InputChannel δ :=
  { s with
    wheel := (s.wheel.next now dx dy mode pos).1
    pendingOther := s.pendingOther ++ (s.wheel.next now dx dy mode pos).2.map .mouseWheel }

def emitWheelEnd : InputChannel δ :=
  { s with wheel := s.wheel.finish.1, pendingOther := s.pendingOther ++ s.wheel.finish.2.map .mouseWheel }

def sendDragOver (pos : Pos) : InputChannel δ := { s with pendingDragOver := some pos }

def sendTouchMove (t : Touch δ) : InputChannel δ :=
  { s with pendingTouchMoves :=
      s.pendingTouchMoves.filter (·.identifier < t.identifier) ++
        t :: s.pendingTouchMoves.filter (t.identifier < ·.identifier) }

def queuedMove (identifier : ℤ) : List (Envelope δ) :=
  (s.pendingTouchMoves.filter (·.identifier = identifier)).map .touchMove

def dropMove (identifier : ℤ) : InputChannel δ :=
  { s with pendingTouchMoves := s.pendingTouchMoves.filter (·.identifier ≠ identifier) }

def sendTouchEnd (identifier : ℤ) : InputChannel δ :=
  { s.dropMove identifier with
    pendingOther := s.pendingOther ++ s.queuedMove identifier }.enqueue (.touchEnd identifier)

def sendTouchCancel (identifier : ℤ) : InputChannel δ :=
  (s.dropMove identifier).enqueue (.touchCancel identifier)

def dispatch (e : Envelope δ) : InputChannel δ :=
  { s with seq := s.seq + 1, sent := s.sent ++ [(e, s.seq)] }

/-- The coalesced events, as a flush sends them after the queue. -/
def slots : List (Envelope δ) :=
  s.pendingMove.toList.map .mouseMove ++ s.pendingDragOver.toList.map .dragOver ++ s.pendingTouchMoves.map .touchMove

def doFlush : InputChannel δ :=
  (s.pendingOther ++ s.slots).foldl dispatch
    { s with pendingOther := [], pendingMove := none, pendingDragOver := none, pendingTouchMoves := [] }

def step : Act δ → InputChannel δ
  | .plain e => s.enqueue (.plain e)
  | .mouseMove pos => s.sendMouseMove pos
  | .mouseWheel now dx dy mode pos => s.sendMouseWheel now dx dy mode pos
  | .wheelEnd => s.emitWheelEnd
  | .dragOver pos => s.sendDragOver pos
  | .touchMove t => s.sendTouchMove t
  | .touchEnd identifier => s.sendTouchEnd identifier
  | .touchCancel identifier => s.sendTouchCancel identifier
  | .flush => s.doFlush

def wire : List (Envelope δ) := s.sent.map (·.1)

/-- The events that a call stands for and that no later one replaces. -/
def asked : Act δ → List (Envelope δ)
  | .plain e => [.plain e]
  | .mouseWheel now dx dy mode pos => (s.wheel.next now dx dy mode pos).2.map .mouseWheel
  | .wheelEnd => s.wheel.finish.2.map .mouseWheel
  | .touchEnd identifier => [.touchEnd identifier]
  | .touchCancel identifier => [.touchCancel identifier]
  | _ => []

/-- What comes to the wire or to the queue. -/
def emitted : Act δ → List (Envelope δ)
  | .touchEnd identifier => s.queuedMove identifier ++ [.touchEnd identifier]
  | .flush => s.slots
  | a => s.asked a

def base : List (Envelope δ) := s.wire ++ s.pendingOther

/-- What `f` gives at the steps of a run, one after the other. -/
def trace (f : InputChannel δ → Act δ → List (Envelope δ)) :
    InputChannel δ → List (Act δ) → List (Envelope δ)
  | _, [] => []
  | s, a :: as => f s a ++ trace f (s.step a) as

def init (momentumGapMs : ℤ) : InputChannel δ := { wheel := { momentumGapMs } }

theorem foldl_dispatch (es : List (Envelope δ)) : es.foldl dispatch s =
    { s with seq := s.seq + es.length, sent := s.sent ++ es.zipIdx s.seq } := by
  induction es generalizing s with
  | nil => simp
  | cons e es ih => simp [ih, dispatch, Nat.add_assoc, Nat.add_comm 1]

theorem doFlush_eq : s.doFlush =
    { s with
      pendingOther := [], pendingMove := none, pendingDragOver := none, pendingTouchMoves := []
      seq := s.seq + (s.pendingOther ++ s.slots).length
      sent := s.sent ++ (s.pendingOther ++ s.slots).zipIdx s.seq } := by
  rw [doFlush, foldl_dispatch]

@[simp] theorem doFlush_wire : s.doFlush.wire = s.base ++ s.slots := by
  simp [doFlush_eq, wire, base, zipIdx_map_fst]

theorem base_step (a : Act δ) : (s.step a).base = s.base ++ s.emitted a := by
  cases a with
  | flush => simp [step, emitted, base, doFlush_eq, wire, zipIdx_map_fst]
  | _ =>
    simp [step, emitted, asked, base, wire, enqueue, sendMouseMove, sendMouseWheel, emitWheelEnd,
      sendDragOver, sendTouchMove, sendTouchEnd, sendTouchCancel, dropMove]

theorem base_run (as : List (Act δ)) : (run step s as).base = s.base ++ trace emitted s as := by
  induction as generalizing s with
  | nil => simp [trace]
  | cons a as ih => simp [trace, ih, base_step]

theorem wire_flushed (as : List (Act δ)) : (run step s (as ++ [.flush])).wire =
    s.base ++ trace emitted s as ++ (run step s as).slots := by
  simp [run_append, step, base_run]

/-- The latest position that a call captured, of those that `f` picks. -/
def latest (f : Act δ → Option Pos) (m : Option Pos) (a : Act δ) : Option Pos := (f a).or m

def moveOf : Act δ → Option Pos
  | .mouseMove pos => some pos
  | _ => none

def overOf : Act δ → Option Pos
  | .dragOver pos => some pos
  | _ => none

section
variable {s} {q : Envelope δ → Bool} (hq : ∀ t, q (.touchMove t) = false)
include hq

theorem touchMoves_filter (l : List (Touch δ)) : (l.map .touchMove).filter q = [] := by
  simp [filter_map, Function.comp_def, hq]

theorem slots_filter : s.slots.filter q =
    (s.pendingMove.toList.map .mouseMove).filter q ++ (s.pendingDragOver.toList.map .dragOver).filter q := by
  simp [slots, touchMoves_filter hq]

/-- Between flushes the queue gets what is asked for. -/
theorem step_filter {a : Act δ} (ha : a ≠ .flush) :
    (s.emitted a).filter q = (s.asked a).filter q ∧
      (s.step a).pendingMove = latest moveOf s.pendingMove a ∧
      (s.step a).pendingDragOver = latest overOf s.pendingDragOver a := by
  cases a with
  | flush => exact absurd rfl ha
  | touchEnd => exact ⟨by simp [emitted, asked, queuedMove, touchMoves_filter hq], rfl, rfl⟩
  | _ => exact ⟨rfl, rfl, rfl⟩

theorem run_filter {as : List (Act δ)} (ha : .flush ∉ as) :
    (trace emitted s as).filter q = (trace asked s as).filter q ∧
      (run step s as).pendingMove = as.foldl (latest moveOf) s.pendingMove := by
  induction as generalizing s with
  | nil => exact ⟨rfl, rfl⟩
  | cons a as ih =>
    obtain ⟨hne, has⟩ := not_or.mp (mem_cons.not.mp ha)
    obtain ⟨hout, hmove, _⟩ := step_filter hq (s := s) (Ne.symm hne)
    obtain ⟨houts, hmvs⟩ := ih (s := s.step a) has
    exact ⟨by simp [trace, hout, houts], by rw [run_cons, hmvs, hmove, foldl_cons]⟩

end

theorem pointer_windows (gap : ℤ) (before window : List (Act δ)) (hw : .flush ∉ window) :
    (run step (init gap) (before ++ .flush :: window ++ [.flush])).wire.filter Envelope.isPointer =
      (run step (init gap) (before ++ [.flush])).wire.filter Envelope.isPointer ++
        (trace asked (run step (init gap) (before ++ [.flush])) window).filter Envelope.isPointer ++
        (window.foldl (latest moveOf) none).toList.map .mouseMove := by
  have hlist : before ++ .flush :: window ++ [.flush] = (before ++ [.flush]) ++ (window ++ [.flush]) := by simp
  rw [hlist, run_append, wire_flushed]
  set s := run step (init gap) (before ++ [.flush]) with hs
  have hflushed : s.pendingOther = [] ∧ s.pendingMove = none := by simp [hs, run_append, step, doFlush_eq]
  obtain ⟨hout, hmove⟩ := run_filter (s := s) (q := Envelope.isPointer) (fun _ => rfl) hw
  have hmoves (m : Option Pos) : (m.toList.map Envelope.mouseMove).filter (Envelope.isPointer : Envelope δ → _) =
      m.toList.map .mouseMove := by
    cases m <;> rfl
  have hovers (m : Option Pos) : (m.toList.map Envelope.dragOver).filter (Envelope.isPointer : Envelope δ → _) =
      [] := by
    cases m <;> rfl
  rw [filter_append, filter_append, slots_filter (fun _ => rfl), hmoves, hovers, hout, hmove,
    hflushed.2, base, hflushed.1]
  simp

theorem pointer_windows_mixed :
    ((run step (init 100) ([] ++ .flush :: [.mouseMove (1, 1), .plain (.mouseButton 0 true (5, 5)),
      .mouseMove (6, 6)] ++ [.flush]) : InputChannel Unit).wire.filter Envelope.isPointer) =
      [.plain (.mouseButton 0 true (5, 5)), .mouseMove (6, 6)] :=
  pointer_windows 100 [] [.mouseMove (1, 1), .plain (.mouseButton 0 true (5, 5)), .mouseMove (6, 6)] (by simp)

/-- The move was captured before the button and is sent after it, and the last position on the wire is
not the latest one. -/
theorem move_after_button :
    (run step (init 100) [.mouseMove (1, 1), .plain (.mouseButton 0 true (5, 5)), .flush] :
      InputChannel Unit).wire = [.plain (.mouseButton 0 true (5, 5)), .mouseMove (1, 1)] :=
  rfl

/-- The drag events of the calls, where a run of `sendDragOver` gives its last one. A flush ends a run;
the second part is the last call of the run that is not over. -/
def collapse (c : List (Envelope δ) × Option Pos) : Act δ → List (Envelope δ) × Option Pos
  | .dragOver pos => (c.1, some pos)
  | .plain e => if e.isDrag then (c.1 ++ c.2.toList.map .dragOver ++ [.plain e], none) else c
  | .flush => (c.1 ++ c.2.toList.map .dragOver, none)
  | _ => c

def collapsed (as : List (Act δ)) : List (Envelope δ) :=
  let c := as.foldl collapse ([], none)
  c.1 ++ c.2.toList.map .dragOver

/-- A drag event is queued when no earlier `drag_over` waits for the flush. -/
def NoneOver : Act δ → Prop
  | .plain e => e.isDrag = true → s.pendingDragOver = none
  | _ => True

def drags : List (Envelope δ) × Option Pos := (s.base.filter Envelope.isDrag, s.pendingDragOver)

theorem slots_drags : s.slots.filter Envelope.isDrag = s.pendingDragOver.toList.map .dragOver := by
  rw [slots_filter (fun _ => rfl)]
  cases s.pendingMove <;> cases s.pendingDragOver <;> rfl

theorem collapse_step (a : Act δ) (hok : s.NoneOver a) : collapse s.drags a = (s.step a).drags := by
  unfold drags
  rw [base_step, filter_append]
  by_cases ha : a = .flush
  · subst ha
    rw [emitted, slots_drags]
    simp [collapse, step, doFlush_eq]
  obtain ⟨hout, _, hover⟩ := step_filter (q := Envelope.isDrag) (fun _ => rfl) (s := s) ha
  rw [hout, hover]
  cases a with
  | flush => exact absurd rfl ha
  | plain e =>
    cases he : e.isDrag with
    | false => simp [collapse, asked, latest, overOf, Envelope.isDrag, he]
    | true => simp [collapse, asked, latest, overOf, Envelope.isDrag, he, hok he]
  | _ => simp [collapse, asked, latest, overOf, Envelope.isDrag, filter_map, Function.comp_def]

theorem drags_collapsed (gap : ℤ) (as : List (Act δ)) (h : Meets step NoneOver (init gap) as) :
    (run step (init gap) (as ++ [.flush])).wire.filter Envelope.isDrag = collapsed as := by
  have hrun : ∀ s : InputChannel δ, Meets step NoneOver s as → as.foldl collapse s.drags = (run step s as).drags := by
    clear h
    induction as with
    | nil => exact fun _ _ => rfl
    | cons a as ih =>
      intro s hm
      rw [foldl_cons, collapse_step s a hm.1, ih _ hm.2, run_cons]
  have hc := hrun _ h
  rw [run_append, run_cons, run_nil, step, doFlush_wire, filter_append, slots_drags, collapsed,
    show (([], none) : List (Envelope δ) × Option Pos) = (init gap).drags from rfl, hc]
  rfl

instance (a : Act δ) : Decidable (s.NoneOver a) := by
  cases a <;> unfold NoneOver <;> infer_instance

theorem drags_collapsed_dropped :
    (run step (init 100) ([.dragOver (1, 1), .dragOver (2, 2), .flush, .plain (.drop (3, 3) ())] ++ [.flush])
      ).wire.filter Envelope.isDrag = [.dragOver (2, 2), .plain (.drop (3, 3) ())] :=
  drags_collapsed 100 [.dragOver (1, 1), .dragOver (2, 2), .flush, .plain (.drop (3, 3) ())] (by decide)

/-- In one frame, the drop comes before the position. -/
theorem over_after_drop :
    (run step (init 100) [.dragOver (2, 2), .plain (.drop (3, 3) ()), .flush]).wire =
      [.plain (.drop (3, 3) ()), .dragOver (2, 2)] :=
  rfl

/-- Whether a gesture is open, as long as the wheel events are in turn. -/
def gesture (isOpen : Option Bool) : Envelope δ → Option Bool
  | .mouseWheel w =>
    match isOpen, w.phase with
    | some false, .start => some true
    | some true, .changed => some true
    | some true, .stop => some false
    | _, _ => none
  | _ => isOpen

theorem gesture_step (a : Act δ) (h : s.base.foldl gesture (some false) = some s.wheel.active) :
    (s.step a).base.foldl gesture (some false) = some (s.step a).wheel.active := by
  rw [base_step, foldl_append, h]
  cases a with
  | mouseWheel now dx dy mode pos =>
    simp only [step, sendMouseWheel, emitted, asked, WheelState.next]
    split_ifs with hact hzero <;> simp_all [gesture]
  | wheelEnd =>
    simp only [step, emitWheelEnd, emitted, asked, WheelState.finish]
    split_ifs with hact <;> simp_all [gesture]
  | flush =>
    cases hm : s.pendingMove <;> cases hd : s.pendingDragOver <;>
      simp [emitted, slots, step, doFlush_eq, foldl_map, gesture, hm, hd]
  | touchEnd => simp [emitted, queuedMove, step, sendTouchEnd, dropMove, enqueue, foldl_map, gesture]
  | _ => rfl

/-- What one finger has done: the last position of each touch that it ended, and of the touch that is
open. -/
structure Lives (δ : Type*) where
  ended : List (Option (Touch δ)) := []
  down : Option (Option (Touch δ)) := none

/-- The finger's next event, `none` if it is out of turn. -/
def track (f : ℤ) (l : Option (Lives δ)) : Envelope δ → Option (Lives δ)
  | .plain (.touchStart t) =>
    if t.identifier = f then l.bind fun l => if l.down.isNone then some { l with down := some none } else none
    else l
  | .touchMove t =>
    if t.identifier = f then l.bind fun l => l.down.map fun _ => { l with down := some (some t) } else l
  | .touchEnd i => if i = f then l.bind fun l => l.down.map fun m => ⟨l.ended ++ [m], none⟩ else l
  | .touchCancel i => if i = f then l.bind fun l => l.down.map fun _ => { l with down := none } else l
  | _ => l

def touchOf : Act δ → Option (Envelope δ)
  | .plain e => some (.plain e)
  | .touchMove t => some (.touchMove t)
  | .touchEnd i => some (.touchEnd i)
  | .touchCancel i => some (.touchCancel i)
  | _ => none

section
variable {f : ℤ} {l : Option (Lives δ)} {t u : Touch δ}

@[simp] theorem track_none (e : Envelope δ) : track f none e = none := by
  cases e with
  | plain e => cases e <;> simp [track]
  | _ => simp [track]

/-- The moves of other fingers do not matter. -/
theorem foldl_touchMoves (ts : List (Touch δ)) : (ts.map .touchMove).foldl (track f) l =
    ((ts.filter (·.identifier = f)).map .touchMove).foldl (track f) l := by
  rw [foldl_map, foldl_map, foldl_filter]
  congr 1
  funext x y
  by_cases hy : y.identifier = f <;> simp [track, hy]

theorem track_move_move (hu : u.identifier = f) (ht : t.identifier = f) :
    track f (track f l (.touchMove u)) (.touchMove t) = track f l (.touchMove t) := by
  obtain _ | ⟨_, _ | _⟩ := l <;> simp [track, hu, ht]

theorem track_move_cancel (hu : u.identifier = f) :
    track f (track f l (.touchMove u)) (.touchCancel f) = track f l (.touchCancel f) := by
  obtain _ | ⟨_, _ | _⟩ := l <;> simp [track, hu]

theorem track_move_start (hu : u.identifier = f) (ht : t.identifier = f) :
    track f (track f l (.touchMove u)) (.plain (.touchStart t)) = none := by
  obtain _ | ⟨_, _ | _⟩ := l <;> simp [track, hu, ht]

end

variable (f : ℤ)

def tracked : Option (Lives δ) := s.base.foldl (track f) (some {})

/-- What the calls say of the finger is what the wire and the queue say, with the move that waits. -/
def Agrees (c : Option (Lives δ)) : Prop :=
  c = none ∨ s.queuedMove f = [] ∧ s.tracked f = c ∨
    ∃ u : Touch δ, u.identifier = f ∧ s.queuedMove f = [.touchMove u] ∧ track f (s.tracked f) (.touchMove u) = c

variable {s f} {c : Option (Lives δ)}

theorem Agrees.flushed (h : s.Agrees f c) (hc : c ≠ none) :
    (s.queuedMove f).foldl (track f) (s.tracked f) = c := by
  obtain h | ⟨hq, h⟩ | ⟨u, _, hq, h⟩ := h
  · exact absurd h hc
  · rwa [hq]
  · rwa [hq]

theorem slots_tracked : s.slots.foldl (track f) (s.tracked f) = (s.queuedMove f).foldl (track f) (s.tracked f) := by
  rw [queuedMove, ← foldl_touchMoves, slots]
  cases s.pendingMove <;> cases s.pendingDragOver <;> simp [track]

theorem tracked_step (a : Act δ) :
    (s.step a).tracked f = (s.emitted a).foldl (track f) (s.tracked f) := by
  rw [tracked, base_step, foldl_append, tracked]

theorem filter_finger (p : ℤ → Bool) (ts : List (Touch δ)) :
    (ts.filter fun t => p t.identifier).filter (·.identifier = f) =
      if p f then ts.filter (·.identifier = f) else [] := by
  rw [filter_filter]
  split_ifs with hp
  · refine filter_congr fun t _ => ?_
    by_cases ht : t.identifier = f <;> simp [ht, hp]
  · refine filter_eq_nil_iff.mpr fun t _ => ?_
    by_cases ht : t.identifier = f <;> simp [ht, hp]

theorem sendTouchMove_queuedMove (t : Touch δ) : (s.sendTouchMove t).queuedMove f =
    if t.identifier = f then [.touchMove t] else s.queuedMove f := by
  have hlow := filter_finger (f := f) (· < t.identifier) s.pendingTouchMoves
  have hhigh := filter_finger (f := f) (t.identifier < ·) s.pendingTouchMoves
  simp only [queuedMove, sendTouchMove, filter_append, filter_cons, hlow, hhigh]
  obtain hlt | rfl | hgt := lt_trichotomy t.identifier f
  · simp [hlt, hlt.ne, hlt.not_gt]
  · simp
  · simp [hgt, hgt.ne', hgt.not_gt]

theorem dropMove_queuedMove (i : ℤ) : (s.dropMove i).queuedMove f =
    if f = i then [] else s.queuedMove f := by
  have hdrop := filter_finger (f := f) (· ≠ i) s.pendingTouchMoves
  simp only [queuedMove, dropMove, hdrop]
  split_ifs <;> simp_all

theorem Agrees.same (h : s.Agrees f c) {s' : InputChannel δ} (hq : s'.queuedMove f = s.queuedMove f)
    (hb : s'.tracked f = s.tracked f) : s'.Agrees f c := by
  unfold Agrees
  rwa [hq, hb]

theorem Agrees.step (h : s.Agrees f c) (a : Act δ) :
    (s.step a).Agrees f ((touchOf a).elim c (track f c)) := by
  by_cases hc : c = none
  · subst hc
    exact .inl (by cases touchOf a <;> simp)
  cases a with
  | plain e =>
    by_cases he : ∀ l, track f l (.plain e) = l
    · rw [touchOf, Option.elim, he]
      exact h.same rfl (by rw [tracked_step]; exact he _)
    obtain ⟨t, rfl, ht⟩ : ∃ t, e = .touchStart t ∧ t.identifier = f := by
      cases e <;> simp_all [track]
    obtain h | ⟨hq, h⟩ | ⟨u, hu, hq, h⟩ := h
    · exact absurd h hc
    · exact .inr (.inl ⟨hq, by rw [tracked_step, ← h]; rfl⟩)
    · -- a finger that has moved is down
      exact .inl (by rw [touchOf, Option.elim, ← h, track_move_start hu ht])
  | mouseMove | dragOver => exact h.same rfl rfl
  | mouseWheel | wheelEnd => exact h.same rfl (by simp [tracked_step, emitted, asked, foldl_map, track])
  | touchMove t =>
    have hq := sendTouchMove_queuedMove (s := s) (f := f) t
    by_cases ht : t.identifier = f
    · rw [if_pos ht] at hq
      refine .inr (.inr ⟨t, ht, hq, ?_⟩)
      obtain h | ⟨_, h⟩ | ⟨u, hu, _, h⟩ := h
      · exact absurd h hc
      · rw [← h]
        rfl
      · rw [← h, touchOf, Option.elim, track_move_move hu ht]
        rfl
    · rw [if_neg ht] at hq
      rw [touchOf, Option.elim, show track f c (.touchMove t) = c by simp [track, ht]]
      exact h.same hq rfl
  | touchEnd i =>
    have hq : (s.step (.touchEnd i)).queuedMove f = _ := dropMove_queuedMove i
    have hb : (s.step (.touchEnd i)).tracked f =
        track f ((s.queuedMove i).foldl (track f) (s.tracked f)) (.touchEnd i) := by
      rw [tracked_step, emitted, foldl_append]
      rfl
    by_cases hi : f = i
    · subst hi
      exact .inr (.inl ⟨by simpa using hq, by rw [hb, h.flushed hc]; rfl⟩)
    rw [touchOf, Option.elim, show track f c (.touchEnd i) = c by simp [track, Ne.symm hi]]
    refine h.same (by simpa [hi] using hq) ?_
    rw [hb, queuedMove, foldl_touchMoves, filter_finger (· = i)]
    simp [hi, Ne.symm hi, track]
  | touchCancel i =>
    have hq : (s.step (.touchCancel i)).queuedMove f = _ := dropMove_queuedMove i
    by_cases hi : f = i
    · subst hi
      refine .inr (.inl ⟨by simpa using hq, ?_⟩)
      rw [tracked_step]
      obtain h | ⟨_, h⟩ | ⟨u, hu, _, h⟩ := h
      · exact absurd h hc
      · rw [← h]
        rfl
      · rw [← h, touchOf, Option.elim, track_move_cancel hu]
        rfl
    · rw [touchOf, Option.elim, show track f c (.touchCancel i) = c by simp [track, Ne.symm hi]]
      refine h.same (by simpa [hi] using hq) ?_
      rw [tracked_step]
      simp [emitted, asked, track, Ne.symm hi]
  | flush =>
    refine .inr (.inl ⟨by simp [InputChannel.step, doFlush_eq, queuedMove], ?_⟩)
    rw [tracked_step, emitted, slots_tracked, h.flushed hc]
    rfl

theorem Agrees.run (h : s.Agrees f c) (as : List (Act δ)) :
    (run InputChannel.step s as).Agrees f ((as.filterMap touchOf).foldl (track f) c) := by
  induction as generalizing s c with
  | nil => exact h
  | cons a as ih =>
    have hstep := ih (h.step a)
    cases ht : touchOf a <;> simpa [filterMap_cons, ht] using hstep

theorem numbered_step (a : Act δ) (h : s.sent.map (·.2) = range s.seq) :
    (s.step a).sent.map (·.2) = range (s.step a).seq := by
  cases a with
  | flush =>
    have hrng (n : ℕ) := range'_append_1 (s := 0) (m := s.seq) (n := n)
    simpa [InputChannel.step, doFlush_eq, h, range_eq_range'] using hrng _
  | _ => exact h

theorem emitted_asked (a : Act δ) : (s.emitted a).filter (!·.coalesces) = s.asked a := by
  by_cases ha : a = .flush
  · subst ha
    rw [emitted, slots_filter (fun _ => rfl)]
    cases s.pendingMove <;> cases s.pendingDragOver <;> rfl
  rw [(step_filter (fun _ => rfl) ha).1]
  cases a with
  | mouseWheel | wheelEnd => simp [asked, filter_map, Function.comp_def, Envelope.coalesces]
  | _ => rfl

theorem trace_asked (s : InputChannel δ) (as : List (Act δ)) :
    (trace emitted s as).filter (!·.coalesces) = trace asked s as := by
  induction as generalizing s with
  | nil => rfl
  | cons a as ih => rw [trace, trace, filter_append, emitted_asked, ih]

end InputChannel

end Chromeless.ClientInput
