import Mathlib.Data.List.Basic

/-! Lists of outstanding things, of which any may be the next to be changed or taken. -/
namespace Chromeless.Bag
open List

variable {α : Type*} {l : List α} {i : ℕ} {x : α}

theorem eq_take_append (h : l[i]? = some x) : l = l.take i ++ x :: l.drop (i+1) := by
  obtain ⟨hi, rfl⟩ := List.getElem?_eq_some_iff.mp h
  rw [← drop_eq_getElem_cons hi, take_append_drop]

theorem set_eq (h : l[i]? = some x) (y : α) : l.set i y = l.take i ++ y :: l.drop (i+1) := by
  obtain ⟨hi, rfl⟩ := List.getElem?_eq_some_iff.mp h
  exact set_eq_take_append_cons_drop.trans (if_pos hi)

theorem eraseIdx_eq (l : List α) (i : ℕ) : l.eraseIdx i = l.take i ++ l.drop (i+1) :=
  eraseIdx_eq_take_drop_succ ..

theorem mem_eraseIdx_of_ne (h : l[i]? = some x) {y : α} (hy : y ∈ l) (hne : y ≠ x) :
    y ∈ l.eraseIdx i := by
  rw [eq_take_append h] at hy
  rw [eraseIdx_eq]
  simpa [hne] using hy

theorem mem_set_of_ne (h : l[i]? = some x) {y : α} (hy : y ∈ l) (hne : y ≠ x) (z : α) :
    y ∈ l.set i z := by
  have hrest := mem_eraseIdx_of_ne h hy hne
  rw [eraseIdx_eq, mem_append] at hrest
  rw [set_eq h z, mem_append]
  exact hrest.imp_right (mem_cons_of_mem z)

/-! ### The things of one kind -/

variable {P : α → Bool}

theorem filter_set_of_false (h : l[i]? = some x) (hx : P x = false) {y : α} (hy : P y = false) :
    (l.set i y).filter P = l.filter P := by
  conv_rhs => rw [eq_take_append h]
  simp [set_eq h, hx, hy]

theorem filter_eraseIdx_of_false (h : l[i]? = some x) (hx : P x = false) :
    (l.eraseIdx i).filter P = l.filter P := by
  conv_rhs => rw [eq_take_append h]
  simp [eraseIdx_eq, hx]

theorem filter_first (h : l[i]? = some x) (hx : P x = true) (hfst : ∀ y ∈ l.take i, P y = false) :
    l.filter P = x :: (l.eraseIdx i).filter P ∧
      ∀ y, P y = true → (l.set i y).filter P = y :: (l.eraseIdx i).filter P := by
  have hnone : (l.take i).filter P = [] := by
    rw [filter_eq_nil_iff]
    intro y hy
    rw [hfst y hy]
    exact Bool.false_ne_true
  constructor
  · conv_lhs => rw [eq_take_append h]
    simp [eraseIdx_eq, hnone, hx]
  · intro y hy
    simp [set_eq h, eraseIdx_eq, hnone, hy]

theorem exists_first {rest : List α} (h : l.filter P = x :: rest) :
    ∃ i, l[i]? = some x ∧ P x = true ∧ ∀ y ∈ l.take i, P y = false := by
  obtain ⟨l₁, l₂, rfl, hnone, hx, -⟩ := filter_eq_cons_iff.mp h
  refine ⟨l₁.length, by simp, hx, ?_⟩
  intro y hy
  rw [take_left] at hy
  exact Bool.eq_false_iff.mpr (hnone y hy)

theorem filter_eraseIdx_replicate {n : ℕ} {y : α} (hall : l.filter P = replicate n y)
    (h : l[i]? = some x) (hx : P x = true) :
    x = y ∧ ∃ m, n = m+1 ∧ (l.eraseIdx i).filter P = replicate m y := by
  have hsp : (l.take i).filter P ++ x :: (l.drop (i+1)).filter P = replicate n y := by
    rw [← hall]
    conv_rhs => rw [eq_take_append h]
    simp [hx]
  obtain ⟨hlen, hmem⟩ := eq_replicate_iff.mp hsp
  refine ⟨hmem x (by simp), n-1, ?_, ?_⟩
  · simp at hlen
    omega
  rw [eraseIdx_eq, filter_append, eq_replicate_iff]
  constructor
  · simp only [length_append, length_cons] at hlen ⊢
    omega
  intro z hz
  apply hmem
  rw [mem_append, mem_cons]
  rw [mem_append] at hz
  tauto

end Chromeless.Bag
