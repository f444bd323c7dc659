import Chromeless.LibRuns

/-! The refresh loop of the signaling token (`TokenRefresher` in `auth.ts`): when its timer is armed and
when its listeners are called. -/
namespace Chromeless.Refresher
open Runs

variable {τ : Type*}

/-- Timer handles are numbered in the order they are made. -/
structure TokenRefresher (τ : Type*) where
  token : Option τ := none
  timer : Option ℕ := none
  stopped : Bool := false
  -- the timers that are pending, `timer` or not
  pending : List ℕ := []
  armed : ℕ := 0
  -- fetches that have not settled
  starting : ℕ := 0
  refreshing : ℕ := 0
  -- what the listeners were called with, the latest first
  heard : List τ := []

/-- A fetch settles with a token or, when it failed, with none. -/
inductive Act (τ : Type*)
  | start
  | started (tok : Option τ)
  | adopt (tok : τ)
  | scheduleNext
  | stop
  | fire (handle : ℕ)
  | refreshed (tok : Option τ)

namespace TokenRefresher
variable (s : TokenRefresher τ)

def setTimeout : TokenRefresher τ :=
  { s with timer := some s.armed, pending := s.armed :: s.pending, armed := s.armed + 1 }

def clearTimeout : TokenRefresher τ :=
  { s with pending := s.pending.filter (some · ≠ s.timer) }

def schedule : TokenRefresher τ :=
  if s.stopped then s else s.clearTimeout.setTimeout

def start : TokenRefresher τ := { s with stopped := false, starting := s.starting + 1 }

def started (tok : Option τ) : TokenRefresher τ :=
  if s.starting = 0 then s
  else
    let s := { s with starting := s.starting - 1, token := tok }
    if tok.isSome then s.schedule else s

def adopt (tok : τ) : TokenRefresher τ := { s with stopped := false, token := some tok }

def scheduleNext : TokenRefresher τ := if s.token.isSome then s.schedule else s

def stop : TokenRefresher τ := { s.clearTimeout with stopped := true, timer := none }

def refresh (handle : ℕ) : TokenRefresher τ :=
  if handle ∈ s.pending then
    let s := { s with pending := s.pending.erase handle }
    if s.stopped then s else { s with timer := none, refreshing := s.refreshing + 1 }
  else s

def refreshed (tok : Option τ) : TokenRefresher τ :=
  if s.refreshing = 0 then s
  else
    let s := { s with refreshing := s.refreshing - 1 }
    match tok with
    | none => s.setTimeout
    | some tok => { s with token := some tok, heard := tok :: s.heard }.schedule

def step : Act τ → TokenRefresher τ
  | .start => s.start
  | .started tok => s.started tok
  | .adopt tok => s.adopt tok
  | .scheduleNext => s.scheduleNext
  | .stop => s.stop
  | .fire handle => s.refresh handle
  | .refreshed tok => s.refreshed tok

/-- The fetch of a refresh settles before the loop is stopped and, if it failed, before another timer is
armed. -/
def InTime : Act τ → Prop
  | .refreshed tok => 0 < s.refreshing → s.stopped = false ∧ (tok.isNone → s.timer = none)
  | _ => True

instance (a : Act τ) : Decidable (s.InTime a) := by
  cases a <;> unfold InTime <;> infer_instance

def Restarts : Act τ → Bool
  | .start | .adopt _ => true
  | _ => false

structure Inv : Prop where
  pending : s.pending = s.timer.toList
  stopped : s.stopped = true → s.timer = none

variable {s}

theorem schedule_inv (h : s.Inv) : s.schedule.Inv := by
  obtain ⟨hp, hs⟩ := h
  unfold schedule
  split
  · exact ⟨hp, hs⟩
  · refine ⟨?_, by simp_all [setTimeout, clearTimeout]⟩
    cases ht : s.timer <;> simp_all [setTimeout, clearTimeout]

theorem step_inv (a : Act τ) (hok : s.InTime a) (h : s.Inv) : (s.step a).Inv := by
  obtain ⟨hp, hs⟩ := h
  cases a with
  | start | adopt => exact ⟨hp, nofun⟩
  | started tok =>
    simp only [step, started]
    split
    · exact ⟨hp, hs⟩
    split
    · exact schedule_inv ⟨hp, hs⟩
    · exact ⟨hp, hs⟩
  | scheduleNext =>
    simp only [step, scheduleNext]
    split
    · exact schedule_inv ⟨hp, hs⟩
    · exact ⟨hp, hs⟩
  | stop =>
    refine ⟨?_, fun _ => rfl⟩
    cases ht : s.timer <;> simp_all [step, stop, clearTimeout]
  | fire handle =>
    simp only [step, refresh]
    split
    · cases ht : s.timer with
      | none => simp_all
      | some i =>
        have hrun : s.stopped = false := by
          by_contra hc
          simp_all
        simp only [hrun, Bool.false_eq_true, ↓reduceIte]
        exact ⟨by simp_all, nofun⟩
    · exact ⟨hp, hs⟩
  | refreshed tok =>
    simp only [step, refreshed]
    split
    · exact ⟨hp, hs⟩
    rename_i hpos
    obtain ⟨hrun, hnone⟩ := hok (Nat.pos_of_ne_zero hpos)
    cases tok with
    | none => exact ⟨by simp_all [setTimeout], by simp [setTimeout, hrun]⟩
    | some tok => exact schedule_inv ⟨hp, hs⟩

theorem step_stopped (a : Act τ) (hok : s.InTime a) (ha : Restarts a = false) (hs : s.stopped = true) :
    (s.step a).stopped = true ∧ (s.step a).heard = s.heard ∧ (s.step a).armed = s.armed := by
  cases a with
  | start | adopt => cases ha
  | started tok => simp only [step, started, schedule, hs]; split <;> simp [hs]
  | scheduleNext => simp [step, scheduleNext, schedule, hs]
  | stop => simp [step, stop, clearTimeout]
  | fire handle => simp only [step, refresh, hs]; split <;> simp [hs]
  | refreshed tok =>
    by_cases h0 : s.refreshing = 0
    · simp [step, refreshed, h0, hs]
    · exact absurd (hok (Nat.pos_of_ne_zero h0)).1 (by simp [hs])

theorem run_inv {as : List (Act τ)} (h : Meets step InTime {} as) : (run step {} as).Inv :=
  invariant_run_meets step _ Inv (fun _ a hok hi => step_inv a hok hi) ⟨rfl, nofun⟩ h

theorem stopped_silent (as : List (Act τ)) (h : Meets step InTime {} as) :
    (run step {} as).pending.length ≤ 1 ∧
      ∀ bs cs, as = bs ++ .stop :: cs → (∀ a ∈ cs, Restarts a = false) →
        (run step {} as).pending = [] ∧ (run step {} as).heard = (run step {} bs).heard ∧
          (run step {} as).armed = (run step {} bs).armed := by
  have hinv := run_inv h
  refine ⟨by simp [hinv.pending, Option.length_toList_le], ?_⟩
  rintro bs cs rfl hcs
  obtain ⟨hstop, hrest⟩ := invariant_run_after step InTime
    (fun t => t.stopped = true ∧ t.heard = (run step {} bs).heard ∧ t.armed = (run step {} bs).armed)
    (fun t a hok ha ht => by
      obtain ⟨h1, h2, h3⟩ := step_stopped a hok (hcs a ha) ht.1
      exact ⟨h1, h2.trans ht.2.1, h3.trans ht.2.2⟩) ⟨rfl, rfl, rfl⟩ h
  exact ⟨by simp [hinv.pending, hinv.stopped hstop], hrest⟩

theorem stopped_silent_starting :
    (run step {} [.adopt 7, .scheduleNext, .fire 0, .refreshed (some 8), .start, .stop,
      .started (some 9)]).pending = [] :=
  ((stopped_silent (τ := ℕ) [.adopt 7, .scheduleNext, .fire 0, .refreshed (some 8), .start, .stop,
      .started (some 9)] (by decide)).2 [.adopt 7, .scheduleNext, .fire 0, .refreshed (some 8), .start]
    [.started (some 9)] rfl (by decide)).1

/-- Stopped while the fetch of a refresh is under way: when it fails a timer is armed, when it succeeds
the listeners are called. And a refresh that fails after `scheduleNext` makes a second timer. -/
theorem stopped_refresh :
    (run step {} [.adopt 7, .scheduleNext, .fire 0, .stop, .refreshed none]).pending = [1] ∧
      (run step {} [.adopt 7, .scheduleNext, .fire 0, .stop, .refreshed (some 8)]).heard = [8] ∧
      (run step {} [.adopt 7, .scheduleNext, .fire 0, .scheduleNext, .refreshed none]).pending = [2, 1] := by
  decide

end TokenRefresher

end Chromeless.Refresher
