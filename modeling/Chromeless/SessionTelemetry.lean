import Chromeless.LibRuns
import Mathlib.Data.List.Chain
import Mathlib.Data.Nat.Notation

/-! The session events of the page (`cb_stats_relay.cc`): created and closed, and failures of ICE that are told
after a delay. -/
namespace Chromeless.Telemetry
open Runs List

inductive Sent
  | sessionCreated (session : ℕ)
  | sessionClosed (session : ℕ)
  | iceConnected (session : ℕ)
  | iceFailed (session : ℕ) (iceState reason : String)
deriving DecidableEq

/-- Sessions are numbered as they are minted. A debounce is the number of its task and the state that it was
triggered in; `live` are the tasks that were posted, whose closures are neither run nor cancelled. -/
structure Emitter where
  sessionId : ℕ := 0
  sessionCreated : Bool := false
  iceFailedDebounce : Option (ℕ × String) := none
  posted : ℕ := 0
  live : List (ℕ × String) := []
  sent : List Sent := []

/-- `probed` is what the probe says when it is asked, or `unknown` without one. -/
inductive Act
  | emitSessionCreated
  | emitSessionClosed
  | emitIceConnected
  | emitIceFailed (triggerState probed : String) (debounceNow runner : Bool)
  | mintNewSession
  | debounceFires (task : ℕ) (probed : String)

namespace Emitter

/-- A closure that is cancelled or destroyed makes its task void. -/
def resetDebounce (s : Emitter) : Emitter :=
  { s with iceFailedDebounce := none, live := s.live.filter fun t => some t ≠ s.iceFailedDebounce }

def emit (s : Emitter) (e : Sent) : Emitter := { s with sent := s.sent ++ [e] }

def fireIceFailed (s : Emitter) (triggerState probed : String) : Emitter :=
  if probed = "connected" ∨ probed = "completed" then s.resetDebounce
  else s.resetDebounce.emit (.iceFailed s.sessionId probed triggerState)

def step (s : Emitter) : Act → Emitter
  | .emitSessionCreated =>
    if s.sessionCreated then s else { s with sessionCreated := true }.emit (.sessionCreated s.sessionId)
  | .emitSessionClosed =>
    if s.sessionCreated then { s with sessionCreated := false }.emit (.sessionClosed s.sessionId) else s
  | .emitIceConnected => s.resetDebounce.emit (.iceConnected s.sessionId)
  | .emitIceFailed triggerState probed debounceNow runner =>
    if debounceNow then s.fireIceFailed triggerState probed
    else if s.iceFailedDebounce ≠ none then s
    else if runner then
      { s with
        iceFailedDebounce := some (s.posted, triggerState), posted := s.posted + 1
        live := (s.posted, triggerState) :: s.live }
    else s.fireIceFailed triggerState probed
  | .mintNewSession => { s.resetDebounce with sessionId := s.sessionId + 1, sessionCreated := false }
  | .debounceFires task probed =>
    match s.live.find? fun t => t.1 = task with
    | some t => { s with live := s.live.erase t }.fireIceFailed t.2 probed
    | none => s

end Emitter

open Emitter

/-- Follows the created and closed events of a session; `none` if they do not alternate. -/
def track (session : ℕ) : Option Bool → Sent → Option Bool
  | opened, .sessionCreated n => if n ≠ session then opened else if opened = some false then some true else none
  | opened, .sessionClosed n => if n ≠ session then opened else if opened = some true then some false else none
  | opened, _ => opened

structure Inv (s : Emitter) : Prop where
  live : s.live.Sublist s.iceFailedDebounce.toList
  tracked : ∀ n, run (track n) (some false) s.sent ≠ none
  current : run (track s.sessionId) (some false) s.sent = some s.sessionCreated
  later : ∀ n, s.sessionId < n → run (track n) (some false) s.sent = some false

variable {s : Emitter}

theorem Inv.pending (h : Inv s) {t : ℕ × String} (ht : t ∈ s.live) : s.iceFailedDebounce = some t :=
  Option.mem_toList.mp (h.live.subset ht)

theorem Inv.resetDebounce (h : Inv s) : s.resetDebounce.live = [] :=
  filter_eq_nil_iff.mpr fun t ht => by simp [h.pending ht]

theorem track_concat (session : ℕ) (sent : List Sent) (e : Sent) :
    run (track session) (some false) (sent ++ [e]) = track session (run (track session) (some false) sent) e :=
  run_append ..

theorem Inv.fireIceFailed (h : Inv s) (triggerState probed : String) :
    Inv (s.fireIceFailed triggerState probed) := by
  have hreset := h.resetDebounce
  obtain ⟨-, htracked, hcurrent, hlater⟩ := h
  fun_cases Emitter.fireIceFailed <;> constructor <;> grind [Emitter.resetDebounce, emit, track_concat, track]

theorem inv_step (s : Emitter) (a : Act) (h : Inv s) : Inv (step s a) := by
  have hreset := h.resetDebounce
  obtain ⟨hlive, htracked, hcurrent, hlater⟩ := id h
  fun_cases step s a
  case case6 | case9 => exact h.fireIceFailed ..
  case case8 _ hnone =>
    rw [not_not.mp hnone, Option.toList_none, sublist_nil] at hlive
    exact ⟨by simp [hlive], htracked, hcurrent, hlater⟩
  case case11 t _ =>
    have herase : Inv { s with live := s.live.erase t } := ⟨erase_sublist.trans hlive, htracked, hcurrent, hlater⟩
    exact herase.fireIceFailed ..
  all_goals constructor <;> grind [Emitter.resetDebounce, emit, track_concat, track]

theorem step_pending {a : Act} {n : ℕ} {trigger : String} (h : (step s a).iceFailedDebounce = some (n, trigger)) :
    (step s a).sessionId = s.sessionId ∧
      (s.iceFailedDebounce = some (n, trigger) ∧ a ≠ .emitIceConnected ∧ a ≠ .mintNewSession ∨
        ∃ probed, a = .emitIceFailed trigger probed false true ∧ s.posted = n ∧ s.iceFailedDebounce = none) := by
  fun_cases step s a <;> grind [Emitter.resetDebounce, emit, Emitter.fireIceFailed, step]

/-- What is pending was triggered in this session, and ICE has not connected since. -/
theorem pending_since {as : List Act} {n : ℕ} {trigger : String}
    (h : (run step {} as).iceFailedDebounce = some (n, trigger)) :
    ∃ bs probed cs, as = bs ++ .emitIceFailed trigger probed false true :: cs ∧
      (∀ a ∈ cs, a ≠ .emitIceConnected ∧ a ≠ .mintNewSession) ∧ (run step {} bs).posted = n ∧
      (run step {} bs).iceFailedDebounce = none ∧ (run step {} as).sessionId = (run step {} bs).sessionId := by
  induction as using reverseRecOn with
  | nil => cases h
  | append_singleton as a ih =>
    rw [run_append, run_cons, run_nil] at h ⊢
    obtain ⟨hid, ⟨hold, hquiet⟩ | ⟨probed, rfl, hposted, hnone⟩⟩ := step_pending h
    · obtain ⟨bs, probed, cs, rfl, hcs, hposted, hnone, hsince⟩ := ih hold
      exact ⟨bs, probed, cs ++ [a], by simp, forall_mem_append.mpr ⟨hcs, by simpa using hquiet⟩, hposted, hnone,
        hid.trans hsince⟩
    · exact ⟨as, probed, [], rfl, nofun, hposted, hnone, hid⟩

/-- The sessions' events alternate, one debounce is pending, and one that is told was triggered in the session that
it names, was posted as the task that fires, and has not been overtaken. -/
theorem telemetry_sound (as : List Act) :
    let s := run step {} as
    (∀ session, run (track session) (some false) s.sent ≠ none) ∧ s.live.length ≤ 1 ∧
      ∀ task probed, (step s (.debounceFires task probed)).sent ≠ s.sent →
        probed ≠ "connected" ∧ probed ≠ "completed" ∧
        ∃ bs trigger asked cs, as = bs ++ .emitIceFailed trigger asked false true :: cs ∧
          (∀ a ∈ cs, a ≠ .emitIceConnected ∧ a ≠ .mintNewSession) ∧ (run step {} bs).posted = task ∧
          (run step {} bs).iceFailedDebounce = none ∧
          (step s (.debounceFires task probed)).sent =
            s.sent ++ [.iceFailed (run step {} bs).sessionId probed trigger] := by
  intro s
  have h : Inv s := invariant_run step Inv inv_step ⟨.slnil, by simp, rfl, fun _ _ => rfl⟩ as
  refine ⟨h.tracked, h.live.length_le.trans (by cases s.iceFailedDebounce <;> simp), fun task probed hsent => ?_⟩
  rw [step] at hsent ⊢
  split at hsent
  next t ht =>
    obtain rfl : t.1 = task := by simpa using find?_some ht
    rw [Emitter.fireIceFailed] at hsent ⊢
    split at hsent
    · exact absurd rfl hsent
    next hstate =>
      obtain ⟨hconn, hcomp⟩ := not_or.mp hstate
      obtain ⟨bs, asked, cs, has, hcs, hposted, hnone, hid⟩ := pending_since (h.pending (mem_of_find?_eq_some ht))
      exact ⟨hconn, hcomp, bs, t.2, asked, cs, has, hcs, hposted, hnone, by rw [← hid, if_neg hstate]; rfl⟩
  · exact absurd rfl hsent

end Chromeless.Telemetry
