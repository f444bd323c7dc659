import Chromeless.LibJsonDatum
import Chromeless.LibRuns
import Mathlib.Data.Finset.Basic
import Mathlib.Data.Finset.Lattice.Lemmas
import Mathlib.Data.Finset.SDiff

/-! Modifier keys in pointer events (`cb_input_dispatch_composite.cc` and the dispatchers of keys, of the
mouse and of drags): keys are noted in a state that they share, the mouse reads another. -/
namespace Chromeless.Input
open Json Runs Finset List
open Dict (findInt findString)

inductive Flag
  | shiftKey
  | controlKey
  | altKey
  | metaKey
  | leftButton
  | middleButton
  | rightButton
  | backButton
  | forwardButton
deriving DecidableEq

def keyModifiers : Finset Flag := {.shiftKey, .controlKey, .altKey, .metaKey}

inductive Kind
  | mouseMove
  | mouseDown
  | mouseUp
  | mouseWheel
  | dragEnter
  | dragOver
  | drop
deriving DecidableEq

inductive DragPhase
  | idle
  | active
  | awaitingEnd
deriving DecidableEq

/-- `sharedModifiers` is the composite's state, `heldModifiers` the mouse dispatcher's own. -/
structure Dispatchers where
  sharedModifiers : Finset Flag := ∅
  heldButtons : Finset Flag := ∅
  heldModifiers : Finset Flag := ∅
  phase : DragPhase := .idle
  forwarded : List (Kind × Finset Flag) := []

namespace Dispatchers

def forward (s : Dispatchers) (kind : Kind) (modifiers : Finset Flag) : Dispatchers :=
  { s with forwarded := s.forwarded ++ [(kind, modifiers)] }

/-! The mouse -/

def protocolButtonToBlinkHeldBit (button : ℤ) : Finset Flag :=
  if button = 0 then {.leftButton} else if button = 1 then {.middleButton} else if button = 2 then {.rightButton}
  else if button = 3 then {.backButton} else if button = 4 then {.forwardButton} else ∅

def pointerModifiers (s : Dispatchers) : Finset Flag := s.heldButtons ∪ s.heldModifiers

def dispatchMouseMove (s : Dispatchers) (data : Dict) : Dispatchers :=
  match findInt data (ascii "x"), findInt data (ascii "y") with
  | some _, some _ => s.forward .mouseMove s.pointerModifiers
  | _, _ => s

def dispatchMouseButton (s : Dispatchers) (data : Dict) : Dispatchers :=
  match findInt data (ascii "button"), findString data (ascii "action"), findInt data (ascii "x"),
    findInt data (ascii "y") with
  | some button, some action, some _, some _ =>
    if action = ascii "down" then
      let s := { s with heldButtons := s.heldButtons ∪ protocolButtonToBlinkHeldBit button }
      s.forward .mouseDown s.pointerModifiers
    else if action = ascii "up" then
      let s := { s with heldButtons := s.heldButtons \ protocolButtonToBlinkHeldBit button }
      s.forward .mouseUp s.pointerModifiers
    else s
  | _, _, _, _ => s

def dispatchMouseWheel (s : Dispatchers) (data : Dict) : Dispatchers :=
  match findInt data (ascii "dx"), findInt data (ascii "dy"), findInt data (ascii "mode"),
    findInt data (ascii "x"), findInt data (ascii "y") with
  | some dx, some dy, some _, some _, some _ =>
    let event := s.pointerModifiers
    let s := s.forward .mouseWheel event
    if findString data (ascii "phase") = some (ascii "start") ∧ (dx ≠ 0 ∨ dy ≠ 0) then
      s.forward .mouseWheel event
    else s
  | _, _, _, _, _ => s

/-! Keys -/

def keyToBlinkModifier (key code : Bytes) : Finset Flag :=
  if key = ascii "Shift" then {.shiftKey}
  else if key = ascii "Control" then {.controlKey}
  else if key = ascii "Alt" then {.altKey}
  else if key ∈ [ascii "Meta", ascii "OS", ascii "Super"] then {.metaKey}
  else if code ∈ [ascii "ShiftLeft", ascii "ShiftRight"] then {.shiftKey}
  else if code ∈ [ascii "ControlLeft", ascii "ControlRight"] then {.controlKey}
  else if code ∈ [ascii "AltLeft", ascii "AltRight"] then {.altKey}
  else if code ∈ [ascii "MetaLeft", ascii "MetaRight", ascii "OSLeft", ascii "OSRight"] then {.metaKey}
  else ∅

def dispatchKey (s : Dispatchers) (data : Dict) (isDown : Bool) : Dispatchers :=
  match findString data (ascii "key"), findString data (ascii "code") with
  | none, none => s
  | key, code =>
    let bit := keyToBlinkModifier (key.getD []) (code.getD [])
    { s with sharedModifiers := if isDown then s.sharedModifiers ∪ bit else s.sharedModifiers \ bit }

/-! Drags. Leaving a target carries no modifiers. -/

def currentModifiersBlink (s : Dispatchers) : Finset Flag := s.heldModifiers ∩ keyModifiers

def dispatchDragStart (s : Dispatchers) (data : Dict) : Dispatchers :=
  match findInt data (ascii "x"), findInt data (ascii "y") with
  | some _, some _ => { s with phase := .active }.forward .dragEnter s.currentModifiersBlink
  | _, _ => s

def dispatchDragOver (s : Dispatchers) (data : Dict) : Dispatchers :=
  if s.phase ≠ .active then s
  else match findInt data (ascii "x"), findInt data (ascii "y") with
    | some _, some _ => s.forward .dragOver s.currentModifiersBlink
    | _, _ => s

def dispatchDrop (s : Dispatchers) (data : Dict) : Dispatchers :=
  match findInt data (ascii "x"), findInt data (ascii "y") with
  | some _, some _ => { s with phase := .awaitingEnd }.forward .drop s.currentModifiersBlink
  | _, _ => s

end Dispatchers

/-- The types of envelopes that some of the three dispatchers handle, and all others. -/
inductive EnvelopeType
  | keyDown
  | keyUp
  | mouseMove
  | mouseButton
  | mouseWheel
  | dragStart
  | dragOver
  | drop
  | dragEnd
  | other

open Dispatchers in
/-- There is a widget throughout. -/
def step (s : Dispatchers) (e : EnvelopeType × Dict) : Dispatchers :=
  match e.1 with
  | .keyDown => s.dispatchKey e.2 true
  | .keyUp => s.dispatchKey e.2 false
  | .mouseMove => s.dispatchMouseMove e.2
  | .mouseButton => s.dispatchMouseButton e.2
  | .mouseWheel => s.dispatchMouseWheel e.2
  | .dragStart => s.dispatchDragStart e.2
  | .dragOver => s.dispatchDragOver e.2
  | .drop => s.dispatchDrop e.2
  | .dragEnd => { s with phase := .idle }
  | .other => s

/-! ### What pointer events carry -/

structure Inv (s : Dispatchers) : Prop where
  held : s.heldModifiers = ∅
  buttons : s.heldButtons ∩ keyModifiers = ∅

def Bare (s s' : Dispatchers) : Prop :=
  Inv s' ∧ ∃ new, s'.forwarded = s.forwarded ++ new ∧ ∀ x ∈ new, x.2 ∩ keyModifiers = ∅

variable {s : Dispatchers}

theorem Inv.bare (h : Inv s) : Bare s s := ⟨h, [], (append_nil _).symm, nofun⟩

theorem Bare.forward {s s' : Dispatchers} (h : Bare s s') (kind : Kind) {modifiers : Finset Flag}
    (hkeys : modifiers ∩ keyModifiers = ∅) : Bare s (s'.forward kind modifiers) := by
  obtain ⟨hinv, new, hnew, hbare⟩ := h
  refine ⟨⟨hinv.held, hinv.buttons⟩, new ++ [(kind, modifiers)], ?_, ?_⟩
  · rw [Dispatchers.forward, hnew, append_assoc]
  · exact forall_mem_append.mpr ⟨hbare, by simpa using hkeys⟩

theorem heldBit_inter (button : ℤ) : Dispatchers.protocolButtonToBlinkHeldBit button ∩ keyModifiers = ∅ := by
  rw [Dispatchers.protocolButtonToBlinkHeldBit]
  split_ifs <;> decide

theorem Inv.pointer (h : Inv s) : s.pointerModifiers ∩ keyModifiers = ∅ := by
  rw [Dispatchers.pointerModifiers, h.held, union_empty, h.buttons]

theorem Inv.drag (h : Inv s) : s.currentModifiersBlink ∩ keyModifiers = ∅ := by
  rw [Dispatchers.currentModifiersBlink, h.held, empty_inter, empty_inter]

theorem bare_button (h : Inv s) (data : Dict) : Bare s (s.dispatchMouseButton data) := by
  rw [Dispatchers.dispatchMouseButton]
  split
  next button _ _ _ _ _ _ _ =>
    have hdown : Inv { s with heldButtons := s.heldButtons ∪ Dispatchers.protocolButtonToBlinkHeldBit button } :=
      ⟨h.held, by rw [union_inter_distrib_right, h.buttons, heldBit_inter, union_empty]⟩
    have hup : Inv { s with heldButtons := s.heldButtons \ Dispatchers.protocolButtonToBlinkHeldBit button } :=
      ⟨h.held, subset_empty.mp (h.buttons ▸ inter_subset_inter_right sdiff_subset)⟩
    split_ifs
    · exact Bare.forward (s := s) ⟨hdown, [], (append_nil _).symm, nofun⟩ .mouseDown hdown.pointer
    · exact Bare.forward (s := s) ⟨hup, [], (append_nil _).symm, nofun⟩ .mouseUp hup.pointer
    · exact h.bare
  next => exact h.bare

theorem bare_step (h : Inv s) (e : EnvelopeType × Dict) : Bare s (step s e) := by
  have hph : ∀ phase, Bare s { s with phase := phase } := fun phase =>
    ⟨⟨h.held, h.buttons⟩, [], (append_nil _).symm, nofun⟩
  have hkeys : ∀ isDown, Bare s (s.dispatchKey e.2 isDown) := by
    intro isDown
    rw [Dispatchers.dispatchKey]
    split
    · exact h.bare
    · exact ⟨⟨h.held, h.buttons⟩, [], (append_nil _).symm, nofun⟩
  rw [step]
  split
  · exact hkeys true
  · exact hkeys false
  · rw [Dispatchers.dispatchMouseMove]
    split
    · exact h.bare.forward .mouseMove h.pointer
    · exact h.bare
  · exact bare_button h e.2
  · rw [Dispatchers.dispatchMouseWheel]
    split
    · split
      · exact (h.bare.forward .mouseWheel h.pointer).forward .mouseWheel h.pointer
      · exact h.bare.forward .mouseWheel h.pointer
    · exact h.bare
  · rw [Dispatchers.dispatchDragStart]
    split
    · exact (hph _).forward .dragEnter h.drag
    · exact h.bare
  · rw [Dispatchers.dispatchDragOver]
    split
    · exact h.bare
    split
    · exact h.bare.forward .dragOver h.drag
    · exact h.bare
  · rw [Dispatchers.dispatchDrop]
    split
    · exact (hph _).forward .drop h.drag
    · exact h.bare
  · exact hph _
  · exact h.bare

/-- A pointer event carries the keys that are noted exactly if none is. -/
theorem pointer_modifiers_iff (es : List (EnvelopeType × Dict)) (e : EnvelopeType × Dict) (x : Kind × Finset Flag)
    (hx : x ∈ (run step {} (es ++ [e])).forwarded.drop (run step {} es).forwarded.length) :
    x.2 ∩ keyModifiers = (run step {} es).sharedModifiers ∩ keyModifiers ↔
      (run step {} es).sharedModifiers ∩ keyModifiers = ∅ := by
  have hinv : Inv (run step {} es) := invariant_run step Inv (fun s e h => (bare_step h e).1) ⟨rfl, rfl⟩ es
  obtain ⟨-, new, hnew, hbare⟩ := bare_step hinv e
  rw [run_append, run_cons, run_nil, hnew, drop_left] at hx
  rw [hbare x hx]
  exact eq_comm

def shiftKeyOf (type : EnvelopeType) : EnvelopeType × Dict := (type, [(ascii "key", .string (ascii "Shift"))])

def click : EnvelopeType × Dict :=
  (.mouseButton, [(ascii "action", .string (ascii "down")), (ascii "button", .integer 0), (ascii "x", .integer 1),
    (ascii "y", .integer 1)])

theorem pointer_modifiers_released :
    ({.leftButton} : Finset Flag) ∩ keyModifiers =
      (run step {} [shiftKeyOf .keyDown, shiftKeyOf .keyUp]).sharedModifiers ∩ keyModifiers :=
  (pointer_modifiers_iff [shiftKeyOf .keyDown, shiftKeyOf .keyUp] click (.mouseDown, {.leftButton})
    (by decide +kernel)).mpr (by decide +kernel)

theorem shift_click_bare :
    (run step {} [shiftKeyOf .keyDown, click]).forwarded = [(.mouseDown, {.leftButton})] ∧
      (run step {} [shiftKeyOf .keyDown]).sharedModifiers = {.shiftKey} := by
  decide +kernel

/-! ### Keys that are down -/

open Dispatchers (keyToBlinkModifier)

/-- `widget` says whether the active contents have one; without it the envelope is dropped. -/
structure KeyEnvelope where
  isDown : Bool
  data : Dict
  widget : Bool

def KeyEnvelope.key (e : KeyEnvelope) : Bytes := (findString e.data (ascii "key")).getD []

/-- The physical key. -/
def KeyEnvelope.code (e : KeyEnvelope) : Bytes := (findString e.data (ascii "code")).getD []

/-- The codes that were last reported down are kept beside the dispatchers. -/
def keyStep (s : Dispatchers × Finset Bytes) (e : KeyEnvelope) : Dispatchers × Finset Bytes :=
  (if e.widget then s.1.dispatchKey e.data e.isDown else s.1,
    if e.isDown then insert e.code s.2 else s.2.erase e.code)

/-- A modifier's key is named as its code is, finds a widget, and goes up while no other key of the modifier is
down. -/
def Alone (s : Dispatchers × Finset Bytes) (e : KeyEnvelope) : Prop :=
  keyToBlinkModifier e.key e.code = keyToBlinkModifier [] e.code ∧
    (keyToBlinkModifier [] e.code ≠ ∅ → e.widget = true) ∧
    (e.isDown = false → ∀ c ∈ s.2, c ≠ e.code → Disjoint (keyToBlinkModifier [] c) (keyToBlinkModifier [] e.code))

instance (s : Dispatchers × Finset Bytes) (e : KeyEnvelope) : Decidable (Alone s e) := by
  unfold Alone
  infer_instance

/-- A modifier is noted exactly if a key of it is down. -/
def Follows (s : Dispatchers × Finset Bytes) : Prop :=
  ∀ flag, flag ∈ s.1.sharedModifiers ↔ ∃ c ∈ s.2, flag ∈ keyToBlinkModifier [] c

theorem dispatchKey_shared (s : Dispatchers) (e : KeyEnvelope) :
    (s.dispatchKey e.data e.isDown).sharedModifiers =
      if e.isDown then s.sharedModifiers ∪ keyToBlinkModifier e.key e.code
      else s.sharedModifiers \ keyToBlinkModifier e.key e.code := by
  rw [Dispatchers.dispatchKey]
  split
  next hkey hcode =>
    have hnone : keyToBlinkModifier [] [] = ∅ := by decide
    simp [KeyEnvelope.key, KeyEnvelope.code, hkey, hcode, hnone]
  · rfl

theorem follows_step (s : Dispatchers × Finset Bytes) (e : KeyEnvelope) (ha : Alone s e) (h : Follows s) :
    Follows (keyStep s e) := by
  obtain ⟨hname, hwidget, halone⟩ := ha
  -- A dropped envelope is of no modifier's key, so it would change nothing.
  have hshared : (keyStep s e).1.sharedModifiers =
      if e.isDown then s.1.sharedModifiers ∪ keyToBlinkModifier [] e.code
      else s.1.sharedModifiers \ keyToBlinkModifier [] e.code := by
    rw [keyStep]
    split
    · rw [dispatchKey_shared, hname]
    next hw => simp [not_not.mp (mt hwidget hw)]
  intro flag
  rw [hshared]
  cases hdown : e.isDown with
  | true => simp [keyStep, hdown, h flag, or_comm]
  | false =>
    have hother : ∀ c ∈ s.2, c ≠ e.code → flag ∈ keyToBlinkModifier [] c → flag ∉ keyToBlinkModifier [] e.code :=
      fun c hc hne hflag => disjoint_left.mp (halone hdown c hc hne) hflag
    simp only [keyStep, hdown, Bool.false_eq_true, ↓reduceIte, mem_sdiff, h flag, mem_erase]
    grind

/-- The modifiers follow the keys while their keys take turns. -/
theorem modifiers_follow (es : List KeyEnvelope) (h : Meets keyStep Alone ({}, ∅) es) :
    Follows (run keyStep ({}, ∅) es) :=
  invariant_run_meets keyStep Alone Follows follows_step (by simp [Follows]) h

def keyOf (code : String) (isDown : Bool) (widget : Bool := true) : KeyEnvelope :=
  ⟨isDown, [(ascii "code", .string (ascii code))], widget⟩

theorem modifiers_follow_turns :
    Follows (run keyStep ({}, ∅) [keyOf "ShiftLeft" true, keyOf "KeyA" true, keyOf "KeyA" false false,
      keyOf "ShiftLeft" false, keyOf "ShiftRight" true]) :=
  modifiers_follow _ (by decide +kernel)

/-- One Shift of two is released; a Shift is released while there is no widget. -/
theorem modifiers_stray :
    ¬ Follows (run keyStep ({}, ∅) [keyOf "ShiftLeft" true, keyOf "ShiftRight" true, keyOf "ShiftRight" false]) ∧
      ¬ Follows (run keyStep ({}, ∅) [keyOf "ShiftLeft" true, keyOf "ShiftLeft" false false]) :=
  ⟨fun h => absurd ((h .shiftKey).mpr (by decide +kernel)) (by decide +kernel),
    fun h => absurd ((h .shiftKey).mp (by decide +kernel)) (by decide +kernel)⟩

end Chromeless.Input
