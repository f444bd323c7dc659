import Mathlib.Logic.Function.Basic
import Mathlib.Tactic.Basic

/-! A store of versioned objects with optimistic concurrency control. -/
namespace Chromeless.Versions
open Function

structure Stored (α : Type*) where
  version : Nat
  value : α
deriving DecidableEq

/-- Versions are handed out from one counter, so none is used twice. -/
structure Store (κ α : Type*) where
  objects : κ → Option (Stored α)
  next : Nat
  fresh : ∀ k o, objects k = some o → o.version < next

namespace Store

variable {κ α : Type*} (s : Store κ α) (k : κ)

def empty : Store κ α := ⟨fun _ => none, 0, fun _ _ h => nomatch h⟩

def value : Option α := (s.objects k).map (·.value)

def version : Option Nat := (s.objects k).map (·.version)

section
variable [DecidableEq κ]

def set [DecidableEq α] (v : α) : Store κ α :=
  if s.value k = some v then s
  else
    { objects := update s.objects k (some ⟨s.next, v⟩)
      next := s.next + 1
      fresh := by
        intro k' o ho
        by_cases hk : k' = k
        · subst hk
          rw [update_self] at ho
          cases ho
          exact Nat.lt_succ_self _
        · rw [update_of_ne hk] at ho
          exact Nat.lt_succ_of_lt (s.fresh k' o ho) }

def erase : Store κ α where
  objects := update s.objects k none
  next := s.next
  fresh := by
    intro k' o ho
    by_cases hk : k' = k
    · subst hk
      rw [update_self] at ho
      cases ho
    · rw [update_of_ne hk] at ho
      exact s.fresh k' o ho

@[simp] theorem value_set [DecidableEq α] (v : α) :
    (s.set k v).value = update s.value k (some v) := by
  funext k'
  by_cases hsame : s.value k = some v
  · rw [set, if_pos hsame]
    by_cases hk : k' = k
    · rw [hk, update_self, hsame]
    · rw [update_of_ne hk]
  · rw [set, if_neg hsame]
    by_cases hk : k' = k <;> simp [value, hk]

@[simp] theorem value_erase : (s.erase k).value = update s.value k none := by
  funext k'
  by_cases hk : k' = k <;> simp [value, erase, hk]

end

variable {s k}

variable {o c : Stored α} {v : α} {k' : κ}

theorem value_of_objects (h : s.objects k = some o) : s.value k = some o.value := by
  rw [value, h, Option.map_some]

theorem objects_of_value (h : s.value k = some v) : ∃ o, s.objects k = some o ∧ o.value = v := by
  cases ho : s.objects k with
  | none => simp [value, ho] at h
  | some o => exact ⟨o, rfl, by simpa [value, ho] using h⟩

/-- What was once read: if the stored object still has the copy's version, it still has the
copy's value. -/
def IsCopy (s : Store κ α) (k : κ) (c : Stored α) : Prop :=
  c.version < s.next ∧ ∀ o, s.objects k = some o → o.version = c.version → o.value = c.value

theorem isCopy_of_objects (h : s.objects k = some o) : s.IsCopy k o := by
  refine ⟨s.fresh k o h, ?_⟩
  intro o' ho' _
  rw [h] at ho'
  cases ho'
  rfl

section
variable (hc : s.IsCopy k c)
include hc

theorem IsCopy.value_eq (hv : s.version k = some c.version) :
    s.value k = some c.value := by
  cases ho : s.objects k with
  | none => simp [version, ho] at hv
  | some o =>
    have hver : o.version = c.version := by simpa [version, ho] using hv
    rw [value_of_objects ho, hc.2 o ho hver]

theorem IsCopy.set [DecidableEq κ] [DecidableEq α] (k' : κ) (v : α) :
    (s.set k' v).IsCopy k c := by
  rw [Store.set]
  split
  · exact hc
  refine ⟨Nat.lt_succ_of_lt hc.1, ?_⟩
  intro o ho hver
  simp only [update_apply] at ho
  split at ho
  · -- the new version is above every version handed out before
    cases ho
    exact absurd hver (Nat.ne_of_gt hc.1)
  · exact hc.2 o ho hver

theorem IsCopy.erase [DecidableEq κ] (k' : κ) : (s.erase k').IsCopy k c := by
  refine ⟨hc.1, ?_⟩
  intro o ho hver
  simp only [Store.erase, update_apply] at ho
  split at ho
  · cases ho
  · exact hc.2 o ho hver

theorem IsCopy.version_of_set [DecidableEq κ] [DecidableEq α]
    (h : (s.set k' v).version k = some c.version) : s.version k = some c.version := by
  rw [Store.set] at h
  split at h
  · exact h
  simp only [version, update_apply] at h
  split at h
  · exact absurd (Option.some.inj h) (Nat.ne_of_gt hc.1)
  · exact h

end

theorem version_of_erase [DecidableEq κ] {v : Nat} (h : (s.erase k').version k = some v) :
    s.version k = some v := by
  by_cases hk : k = k'
  · simp [version, erase, hk] at h
  · simpa only [version, erase, update_of_ne hk] using h

theorem next_le_set [DecidableEq κ] [DecidableEq α] (s : Store κ α) (k : κ) (v : α) :
    s.next ≤ (s.set k v).next := by
  rw [Store.set]
  split
  · exact Nat.le_refl _
  · exact Nat.le_succ _

theorem next_lt_set [DecidableEq κ] [DecidableEq α] (h : s.value k ≠ some v) :
    s.next < (s.set k v).next := by
  rw [Store.set, if_neg h]
  exact Nat.lt_succ_self _

end Store

end Chromeless.Versions
