import Chromeless.LibJs
import Chromeless.LibRuns

/-! Copies on their way to the viewer's clipboard (`client/src/clipboard.ts`), which can be written only
while the page has the focus. -/
namespace Chromeless.ClientClipboard
open Js Runs

def MAX_BYTES : ℕ := 1048576

def utf8ByteLength (s : JsString) : ℕ := ((chars s).map Char.utf8Size).sum

def isValidEnvelope (env : JsValue) : Option (JsString × JsString) :=
  if env.getNumber "v" = some (.finite 1) ∧ env.getString "type" = some (units "clipboard_offer") ∧
      (env.getNumber "t").isSome ∧ (env.getNumber "seq").isSome then
    match env.get "data" with
    | none => none
    | some d =>
      match d.getString "direction", d.getString "text" with
      | some direction, some text =>
        if (direction = units "client->cloud" ∨ direction = units "cloud->client") ∧
            d.getString "source" = some (units "user_action") ∧ utf8ByteLength text ≤ MAX_BYTES then
          some (direction, text)
        else none
      | _, _ => none
  else none

def offered (env : Option JsValue) : Option JsString :=
  match env.bind isValidEnvelope with
  | some (direction, text) => if direction = units "cloud->client" then some text else none
  | none => none

/-- `listening` says whether the window still has the listener for its focus. -/
structure Channel where
  focused : Bool
  pendingWrite : Option JsString := none
  focusListenerInstalled : Bool := false
  listening : Bool := false
  writes : List JsString := []
  -- the latest text received since the focus was lost
  due : Option JsString := none

namespace Channel

def writeText (s : Channel) (text : JsString) : Channel := { s with writes := s.writes ++ [text] }

def queueWrite (s : Channel) (text : JsString) : Channel :=
  if s.focused then s.writeText text
  else { s with
    pendingWrite := some text
    focusListenerInstalled := true
    listening := s.listening || !s.focusListenerInstalled
    due := some text }

def flushPending (s : Channel) : Channel :=
  match s.pendingWrite with
  | none => s
  | some text => { s with pendingWrite := none }.writeText text

def onMessage (s : Channel) (env : Option JsValue) : Channel :=
  match offered env with
  | none => s
  | some text => s.queueWrite text

/-- The window gains the focus; the listener is called once only. -/
def onFocus (s : Channel) : Channel :=
  let s := { s with focused := true, due := none }
  if s.listening then { s with listening := false }.flushPending else s

end Channel

inductive Event
  | message (env : Option JsValue)
  | blur
  | focus

def step (s : Channel) : Event → Channel
  | .message env => s.onMessage env
  | .blur => { s with focused := false }
  | .focus => if s.focused then s else s.onFocus

def Event.text : Event → Option JsString
  | message env => offered env
  | blur | focus => none

/-- A copy that has to wait arrives before the only listener is used up. -/
def Heard (s : Channel) (e : Event) : Prop :=
  e.text.isSome = true → s.focused = true ∨ s.focusListenerInstalled = false ∨ s.listening = true
deriving Decidable

structure Waits (s : Channel) : Prop where
  pending : s.pendingWrite = s.due
  listens : s.due ≠ none → s.listening = true
  idle : s.focused = true → s.due = none

theorem waits_step {s : Channel} (h : Waits s) (e : Event) (hheard : Heard s e) : Waits (step s e) := by
  have ⟨hpend, hlist, hidle⟩ := h
  cases e with
  | blur => exact ⟨hpend, hlist, nofun⟩
  | focus =>
    cases hf : s.focused <;> cases hl : s.listening <;> cases hd : s.due <;>
      constructor <;> simp_all [step, Channel.onFocus, Channel.flushPending, Channel.writeText]
  | message env =>
    rw [step, Channel.onMessage]
    cases ht : offered env with
    | none => exact h
    | some =>
      dsimp only
      rw [Channel.queueWrite]
      split
      next => exact ⟨hpend, hlist, hidle⟩
      next hf =>
        have hheard := hheard (by rw [Event.text, ht]; rfl)
        constructor <;> simp_all [or_comm]

/-- What an event has to write: a copy that arrives while there is focus, and the latest one that waits
when the focus is gained. -/
def owed (s : Channel) : Event → List JsString
  | .message env => if s.focused then (offered env).toList else []
  | .blur => []
  | .focus => if s.focused then [] else s.due.toList

theorem writes_step {s : Channel} (h : Waits s) (e : Event) : (step s e).writes = s.writes ++ owed s e := by
  obtain ⟨hpend, hlist, -⟩ := h
  cases e with
  | blur => exact (List.append_nil _).symm
  | focus =>
    cases hf : s.focused <;> cases hl : s.listening <;> cases hd : s.due <;>
      simp_all [step, owed, Channel.onFocus, Channel.flushPending, Channel.writeText]
  | message env =>
    cases hf : s.focused <;> cases ht : offered env <;>
      simp [step, owed, Channel.onMessage, Channel.queueWrite, Channel.writeText, hf, ht]

def copyOf (text : String) : Event :=
  .message (some (.object [(units "v", .number (.finite 1)), (units "type", .string (units "clipboard_offer")),
    (units "t", .number (.finite 1)), (units "seq", .number (.finite 0)),
    (units "data", .object [(units "direction", .string (units "cloud->client")),
      (units "source", .string (units "user_action")), (units "text", .string (units text))])]))

end Chromeless.ClientClipboard
