import Chromeless.LibRuns
import Mathlib.Logic.Function.Basic
import Mathlib.Data.Int.Notation

/-! The calls of the clipboard bridge to the browser (`clipboard-bridge/main.go`): replies are told apart by the ids
of the calls. -/
namespace Chromeless.Cdp
open Runs Function

variable {ρ : Type*}

/-- How far `Send` has come. It returns a reply, or an error of its own. -/
inductive Call (ρ : Type*)
  | idle
  | numbered
  | registered
  | written
  | returned (reply : Option ρ)
deriving DecidableEq

/-- A call's channel is known by the id of the call and has room for one reply. `reading` is what the read loop is
about to put in a channel, and `frames` are the replies that it has read. -/
structure Client (ρ : Type*) where
  nextID : ℤ := 0
  pending : List ℤ := []
  chan : ℤ → Option ρ := fun _ => none
  call : ℤ → Call ρ := fun _ => .idle
  reading : Option (ℤ × ρ) := none
  disconnect : Bool := false
  frames : List (ℤ × ρ) := []

inductive Act (ρ : Type*)
  | addID
  | register (id : ℤ)
  | marshalFails (id : ℤ)
  | write (id : ℤ) (ok : Bool)
  | receive (id : ℤ)
  | cancelled (id : ℤ)
  | disconnected (id : ℤ)
  | frame (id : ℤ) (reply : ρ)
  | deliver
  | lost

def Client.setCall (s : Client ρ) (id : ℤ) (c : Call ρ) : Client ρ := { s with call := update s.call id c }

def step [DecidableEq ρ] (s : Client ρ) : Act ρ → Client ρ
  | .addID => { s with nextID := s.nextID + 1 }.setCall (s.nextID + 1) .numbered
  | .register id => if s.call id = .numbered then { s with pending := id :: s.pending }.setCall id .registered else s
  | .marshalFails id => if s.call id = .registered then s.setCall id (.returned none) else s
  | .write id ok =>
    if s.call id = .registered then s.setCall id (if ok then .written else .returned none) else s
  | .receive id =>
    if s.call id = .written ∧ s.chan id ≠ none then
      { s with chan := update s.chan id none }.setCall id (.returned (s.chan id))
    else s
  | .cancelled id => if s.call id = .written then s.setCall id (.returned none) else s
  | .disconnected id => if s.call id = .written ∧ s.disconnect then s.setCall id (.returned none) else s
  | .frame id reply =>
    if s.reading ≠ none ∨ s.disconnect then s
    else
      { s with
        frames := (id, reply) :: s.frames, pending := if id = 0 then s.pending else s.pending.filter (· ≠ id)
        reading := if id ≠ 0 ∧ id ∈ s.pending then some (id, reply) else none }
  | .deliver =>
    match s.reading with
    | some (id, reply) =>
      -- the read loop waits for as long as the channel is full
      if s.chan id = none then { s with chan := update s.chan id (some reply), reading := none } else s
    | none => s
  | .lost => if s.reading = none then { s with disconnect := true } else s

structure Inv (s : Client ρ) : Prop where
  unused : ∀ id, s.nextID < id → s.call id = .idle
  early : ∀ id, s.call id = .idle ∨ s.call id = .numbered →
    s.chan id = none ∧ ∀ r, s.reading ≠ some (id, r)
  pending : ∀ id ∈ s.pending, s.chan id = none ∧
    (s.call id ≠ .returned none → s.call id = .registered ∨ s.call id = .written)
  reading : ∀ id r, s.reading = some (id, r) → (id, r) ∈ s.frames ∧ s.chan id = none ∧ id ∉ s.pending
  chan : ∀ id r, s.chan id = some r → (id, r) ∈ s.frames
  returned : ∀ id r, s.call id = .returned (some r) → (id, r) ∈ s.frames

theorem inv_step [DecidableEq ρ] (s : Client ρ) (a : Act ρ) (h : Inv s) : Inv (step s a) := by
  obtain ⟨hunused, hearly, hpending, hreading, hchan, hreturned⟩ := id h
  fun_cases step s a <;> first | exact h | constructor <;> simp only [Client.setCall, update_apply] <;> grind

/-- A result is the call's own reply, a reply finds room, and the map has a call that returned only if it did so
without its reply. -/
theorem send_sound [DecidableEq ρ] (as : List (Act ρ)) :
    let s := run step ({} : Client ρ) as
    (∀ id r, s.call id = .returned (some r) → (id, r) ∈ s.frames) ∧
    (∀ id r, s.reading = some (id, r) → (step s .deliver).reading = none) ∧
    ∀ id ∈ s.pending, s.call id ≠ .returned none → s.call id = .registered ∨ s.call id = .written := by
  intro s
  have h : Inv s := invariant_run step Inv inv_step ⟨by simp, by simp, by simp, by simp, by simp, by simp⟩ as
  refine ⟨h.returned, fun id r hr => ?_, fun id hid => (h.pending id hid).2⟩
  simp [step, hr, (h.reading id r hr).2.1]

/-- A call that is cancelled stays in the map. -/
theorem cancelled_pending :
    let s := run step ({} : Client ℕ) [.addID, .register 1, .write 1 true, .cancelled 1]
    s.call 1 = .returned none ∧ s.pending = [1] := by
  decide

end Chromeless.Cdp
