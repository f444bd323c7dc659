import Mathlib.Data.List.Perm.Subperm

/-! A bounded channel with one receiver and senders that never block. It keeps all it ever accepted.
-/
namespace Chromeless
open List

structure Chan (α : Type*) where
  log : List α
  taken : ℕ
  taken_le : taken ≤ log.length

namespace Chan
variable {α : Type*} (cap : ℕ)

def empty : Chan α := ⟨[], 0, Nat.le_refl 0⟩

def queued (ch : Chan α) : ℕ := ch.log.length - ch.taken

def push (ch : Chan α) (a : α) : Chan α :=
  if ch.queued < cap then
    ⟨ch.log ++ [a], ch.taken, by have := ch.taken_le; simp only [length_append]; omega⟩
  else ch

def pop (ch : Chan α) : Chan α :=
  if h : ch.taken < ch.log.length then ⟨ch.log, ch.taken+1, h⟩ else ch

def pushAll (ch : Chan α) (as : List α) : Chan α := as.foldl (push cap) ch

variable (ch : Chan α)

@[simp] theorem pushAll_nil : ch.pushAll cap [] = ch := rfl

@[simp] theorem pushAll_cons (a : α) (as : List α) :
    ch.pushAll cap (a :: as) = (ch.push cap a).pushAll cap as := rfl

theorem pushAll_append (as bs : List α) :
    ch.pushAll cap (as ++ bs) = (ch.pushAll cap as).pushAll cap bs := by
  simp [pushAll, foldl_append]

section
variable (ch : Chan α)

@[simp] theorem empty_log : (empty : Chan α).log = [] := rfl

@[simp] theorem pop_log : ch.pop.log = ch.log := by
  unfold pop
  split <;> rfl

theorem push_log (a : α) :
    (ch.push cap a).log = if ch.queued < cap then ch.log ++ [a] else ch.log := by
  unfold push
  split <;> rfl

theorem push_log_cases (a : α) :
    (ch.push cap a).log = ch.log ++ [a] ∨ (ch.push cap a).log = ch.log := by
  rw [push_log]
  split
  · exact Or.inl rfl
  · exact Or.inr rfl

theorem pushAll_log (as : List α) :
    (ch.pushAll cap as).log = ch.log ++ as.take (cap - ch.queued) := by
  induction as generalizing ch with
  | nil => simp
  | cons a as ih =>
    rw [pushAll_cons, ih]
    by_cases h : ch.queued < cap
    · have hlog : (ch.push cap a).log = ch.log ++ [a] := by rw [push_log, if_pos h]
      have hqueue : (ch.push cap a).queued = ch.queued+1 := by
        have hle := ch.taken_le
        have htkn : (ch.push cap a).taken = ch.taken := by
          unfold push
          split <;> rfl
        simp only [queued, hlog, htkn, length_append, length_singleton]
        omega
      have hroom : cap - ch.queued = (cap - (ch.queued+1)) + 1 := by omega
      rw [hlog, hqueue, hroom, take_succ_cons, append_assoc, singleton_append]
    · have hfull : ch.push cap a = ch := by
        unfold push
        rw [if_neg h]
      have hroom : cap - ch.queued = 0 := by omega
      rw [hfull, hroom, take_zero, take_zero]

end

@[simp] theorem empty_queued : (empty : Chan α).queued = 0 := rfl

theorem mem_pushAll_empty_iff {as : List α} (hnd : as.Nodup) :
    (∀ a ∈ as, a ∈ (empty.pushAll cap as).log) ↔ as.length ≤ cap := by
  have hlog : (empty.pushAll cap as).log = as.take cap := by simp [pushAll_log]
  rw [hlog]
  constructor
  · intro h
    have hle := (subperm_of_subset hnd h).length_le
    rw [length_take] at hle
    omega
  · intro h a ha
    rwa [take_of_length_le h]

end Chan

end Chromeless
