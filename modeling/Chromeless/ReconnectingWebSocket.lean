import Chromeless.LibRuns

/-! The signaling socket that redials (`reconnect.ts`), as far as it decides when a WebSocket is created
and when a retry timer is armed. -/
namespace Chromeless.Reconnect
open Runs

inductive ReconnectState
  | idle | connecting | connected | reconnecting | closed | failed
deriving DecidableEq

/-- Sockets and timer handles are numbered in the order they are made. -/
structure ReconnectingWebSocket where
  socket : Option ℕ := none
  state : ReconnectState := .idle
  attempt : ℕ := 0
  retryHandle : Option ℕ := none
  permanentlyClosed : Bool := false
  -- sockets whose close event is to come, by whether `close` was called on them
  live : List ℕ := []
  closing : List ℕ := []
  -- the timers that are pending, `retryHandle` or not
  timers : List ℕ := []
  created : ℕ := 0
  armed : ℕ := 0

/-- `dials` says whether the WebSocket constructor returns. -/
inductive Act
  | connect (dials : Bool)
  | close
  | opened (i : ℕ)
  | closed (i : ℕ)
  | retry (handle : ℕ) (dials : Bool)

namespace ReconnectingWebSocket
variable (maxAttempts : Option ℕ) (dials : Bool) (s : ReconnectingWebSocket)

def scheduleRetry : ReconnectingWebSocket :=
  let s := { s with attempt := s.attempt + 1 }
  if maxAttempts.any (· ≤ s.attempt) then { s with state := .failed }
  else { s with
    state := .reconnecting
    retryHandle := some s.armed
    timers := s.armed :: s.timers
    armed := s.armed + 1 }

def openSocket : ReconnectingWebSocket :=
  if dials then { s with
    socket := some s.created
    live := s.created :: s.live
    created := s.created + 1 }
  else s.scheduleRetry maxAttempts

def connect : ReconnectingWebSocket :=
  if s.permanentlyClosed then s
  else if s.state = .connecting ∨ s.state = .connected then s
  else { s with state := if s.attempt > 0 then .reconnecting else .connecting }.openSocket
    maxAttempts dials

def close : ReconnectingWebSocket :=
  { s with
    permanentlyClosed := true
    timers := s.timers.filter (some · ≠ s.retryHandle)
    retryHandle := none
    live := s.live.filter (some · ≠ s.socket)
    closing := s.socket.toList ++ s.closing
    socket := none
    state := .closed }

/-- A socket opens only before `close` is called on it and before its close event. -/
def onOpen (i : ℕ) : ReconnectingWebSocket :=
  if i ∈ s.live then { s with attempt := 0, state := .connected } else s

def onClose (i : ℕ) : ReconnectingWebSocket :=
  if i ∈ s.live ++ s.closing then
    let s := { s with live := s.live.erase i, closing := s.closing.erase i, socket := none }
    if s.permanentlyClosed then s else s.scheduleRetry maxAttempts
  else s

def onRetry (handle : ℕ) : ReconnectingWebSocket :=
  if handle ∈ s.timers then
    let s := { s with timers := s.timers.erase handle, retryHandle := none }
    if s.permanentlyClosed then s else s.openSocket maxAttempts dials
  else s

def step : Act → ReconnectingWebSocket
  | .connect dials => s.connect maxAttempts dials
  | .close => s.close
  | .opened i => s.onOpen i
  | .closed i => s.onClose maxAttempts i
  | .retry handle dials => s.onRetry maxAttempts dials handle

/-- `connect` is not called while a redial is due or under way. -/
def Unforced : Act → Prop
  | .connect _ => s.state ≠ .reconnecting
  | _ => True

instance (a : Act) : Decidable (s.Unforced a) := by
  cases a <;> unfold Unforced <;> infer_instance

/-- What was closed for good: nothing is left of it. -/
structure Ended : Prop where
  live : s.live = []
  timers : s.timers = []
  state : s.state = .closed

/-- There is a socket or a timer, not both, and the fields know it. -/
structure Inv : Prop where
  live : s.live = s.socket.toList
  timers : s.timers = s.retryHandle.toList
  alone : s.socket = none ∨ s.retryHandle = none
  idle : s.state ∈ [.idle, .failed, .closed] → s.socket = none ∧ s.retryHandle = none
  closing : s.closing = [] ∨ s.permanentlyClosed = true
  closed : s.permanentlyClosed = true → s.state = .closed

variable {maxAttempts dials s}

theorem scheduleRetry_inv (h : s.Inv) (hs : s.socket = none) (ht : s.retryHandle = none)
    (hc : s.permanentlyClosed = false) : (s.scheduleRetry maxAttempts).Inv := by
  obtain ⟨h1, h2, _, _, h5, _⟩ := h
  unfold scheduleRetry
  dsimp only
  split <;> constructor <;> simp_all

theorem openSocket_inv (h : s.Inv) (hs : s.socket = none) (ht : s.retryHandle = none)
    (hc : s.permanentlyClosed = false) (hst : s.state ∉ [.idle, .failed, .closed]) :
    (s.openSocket maxAttempts dials).Inv := by
  unfold openSocket
  split
  · obtain ⟨h1, h2, _, _, h5, _⟩ := h
    constructor <;> simp_all
  · exact scheduleRetry_inv h hs ht hc

theorem step_inv (a : Act) (hok : s.Unforced a) (h : s.Inv) : (s.step maxAttempts a).Inv := by
  have hall := h
  obtain ⟨h1, h2, h3, h4, h5, h6⟩ := h
  cases a with
  | connect dials =>
    simp only [step, connect]
    split
    · exact hall
    split
    · exact hall
    -- neither dialing nor about to: it rests
    rename_i hopen hst
    have hrest : s.state ∈ [.idle, .failed, .closed] := by
      have hre : s.state ≠ .reconnecting := hok
      cases hs : s.state <;> simp_all
    obtain ⟨hs, ht⟩ := h4 hrest
    refine openSocket_inv ⟨h1, h2, h3, fun _ => ⟨hs, ht⟩, h5, by simp_all⟩ hs ht (by simpa using hopen) ?_
    split <;> simp
  | close =>
    simp only [step, close]
    cases hs : s.socket <;> cases ht : s.retryHandle <;> constructor <;> simp_all
  | opened i =>
    simp only [step, onOpen]
    split
    · constructor <;> cases hs : s.socket <;> simp_all
    · exact hall
  | closed i =>
    simp only [step, onClose]
    split
    next hi =>
      cases hc : s.permanentlyClosed with
      | true =>
        constructor <;> simp_all
      | false =>
        cases hs : s.socket with
        | none => simp_all
        | some j => exact scheduleRetry_inv (by constructor <;> simp_all) rfl (by simp_all) rfl
    · exact hall
  | retry handle dials =>
    simp only [step, onRetry]
    split
    next hi =>
      cases ht : s.retryHandle with
      | none => simp_all
      | some j =>
        have hc : s.permanentlyClosed = false := by
          by_contra hc
          simp_all
        simp only [hc, Bool.false_eq_true, ↓reduceIte]
        exact openSocket_inv (by constructor <;> simp_all) (by simp_all) rfl rfl (by
          simp_all)
    · exact hall

theorem step_closed (a : Act) (hc : s.permanentlyClosed = true) :
    (s.step maxAttempts a).permanentlyClosed = true ∧ (s.step maxAttempts a).created = s.created := by
  cases a with
  | connect dials => simp [step, connect, hc]
  | close => exact ⟨rfl, rfl⟩
  | opened i => simp only [step, onOpen]; split <;> simp [hc]
  | closed i => simp only [step, onClose, hc]; split <;> simp [hc]
  | retry handle dials => simp only [step, onRetry, hc]; split <;> simp [hc]

theorem run_inv {as : List Act} (h : Meets (step maxAttempts) Unforced {} as) :
    (run (step maxAttempts) {} as).Inv :=
  invariant_run_meets _ _ Inv (fun _ a hok hi => step_inv a hok hi)
    ⟨rfl, rfl, .inl rfl, fun _ => ⟨rfl, rfl⟩, .inl rfl, nofun⟩ h

end ReconnectingWebSocket

end Chromeless.Reconnect
