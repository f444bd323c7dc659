import Mathlib.Data.List.Basic
import Mathlib.Data.List.TakeWhile

/-! Histories: lists of events that grow at their end. What came before what, and what has
come since the last event of a kind. -/
namespace Chromeless.History
open List

variable {α : Type*}

def Precedes (x y : α) (l : List α) : Prop := [x, y].Sublist l

instance [DecidableEq α] (x y : α) (l : List α) : Decidable (Precedes x y l) :=
  inferInstanceAs (Decidable ([x, y].Sublist l))

theorem precedes_concat (x y z : α) (l : List α) :
    Precedes x y (l ++ [z]) ↔ Precedes x y l ∨ (x ∈ l ∧ y = z) := by
  constructor
  · intro h
    obtain ⟨l₁, l₂, heq, h₁, h₂⟩ := sublist_append_iff.mp h
    -- the new event is `y`, or neither of the two
    cases l₂ with
    | nil =>
      rw [append_nil] at heq
      rw [← heq] at h₁
      exact Or.inl h₁
    | cons a l₂ =>
      have ha : a = z := mem_singleton.mp (h₂.subset mem_cons_self)
      have hlen := h₂.length_le
      have hl₂ : l₂ = [] := by
        cases l₂ with
        | nil => rfl
        | cons => simp at hlen
      rw [hl₂] at heq
      have hsp : l₁ = [x] ∧ y = a := by
        have hrev := congrArg reverse heq
        simp only [reverse_append, reverse_cons, reverse_nil, nil_append, cons_append, List.cons.injEq] at hrev
        refine ⟨?_, hrev.1⟩
        have hl := congrArg reverse hrev.2
        simpa using hl.symm
      rw [hsp.1] at h₁
      exact Or.inr ⟨singleton_sublist.mp h₁, hsp.2.trans ha⟩
  · intro h
    rcases h with h | ⟨hx, rfl⟩
    · exact h.trans (sublist_append_left _ _)
    · exact (singleton_sublist.mpr hx).append (Sublist.refl [y])

variable {x y a : α} {l l' es : List α} {reset mark : α → Bool}

theorem precedes_append (hx : x ∈ l) (hy : y ∈ l') : Precedes x y (l ++ l') :=
  (singleton_sublist.mpr hx).append (singleton_sublist.mpr hy)

theorem Precedes.left_mem (h : Precedes x y l) : x ∈ l :=
  h.subset mem_cons_self

theorem Precedes.right_mem (h : Precedes x y l) : y ∈ l :=
  h.subset (mem_cons_of_mem _ mem_cons_self)

theorem concat_eq_split {before after : List α} (h : l ++ [x] = before ++ y :: after) :
    (∃ after', l = before ++ y :: after') ∨ (before = l ∧ y = x) := by
  rcases eq_nil_or_concat after with rfl | ⟨after', z, rfl⟩
  · right
    have hrev := congrArg reverse h
    simp only [reverse_append, reverse_cons, reverse_nil, nil_append,
      singleton_append, List.cons.injEq, reverse_inj] at hrev
    exact ⟨hrev.2.symm, hrev.1.symm⟩
  left
  have hrev := congrArg reverse h
  simp only [concat_eq_append, reverse_append, reverse_cons, reverse_nil,
    nil_append, cons_append, List.cons.injEq] at hrev
  refine ⟨after', ?_⟩
  have hl := congrArg reverse hrev.2
  simpa using hl

/-- The events since the last one that `reset` marks, or all of them. -/
def sinceLast (reset : α → Bool) (l : List α) : List α :=
  (l.reverse.takeWhile fun a => !reset a).reverse

theorem sinceLast_concat (reset : α → Bool) (l : List α) (a : α) :
    sinceLast reset (l ++ [a]) = if reset a then [] else sinceLast reset l ++ [a] := by
  unfold sinceLast
  by_cases h : reset a = true <;> simp [h]

theorem sinceLast_reset (l : List α) (ha : reset a = true) : sinceLast reset (l ++ [a]) = [] := by
  rw [sinceLast_concat, if_pos ha]

theorem mem_of_mem_sinceLast (h : a ∈ sinceLast reset l) : a ∈ l := by
  rw [sinceLast, mem_reverse] at h
  exact mem_reverse.mp ((takeWhile_sublist _).subset h)

theorem sinceLast_append (l : List α) (hes : ∀ e ∈ es, reset e = false) :
    sinceLast reset (l ++ es) = sinceLast reset l ++ es := by
  induction es generalizing l with
  | nil => simp
  | cons e es ih =>
    have he : reset e = false := hes e mem_cons_self
    rw [append_cons, ih (l ++ [e]) fun x hx => hes x (mem_cons_of_mem e hx),
      sinceLast_concat, if_neg (by simp [he]), append_assoc, singleton_append]

theorem sinceLast_isSuffix (reset : α → Bool) (l : List α) : sinceLast reset l <:+ l := by
  have h := takeWhile_prefix (fun a => !reset a) (l := l.reverse)
  rwa [sinceLast, ← reverse_prefix, reverse_reverse]

theorem not_reset_of_mem_sinceLast (h : a ∈ sinceLast reset l) : reset a = false := by
  rw [sinceLast, mem_reverse] at h
  simpa using mem_takeWhile_imp h

theorem isSuffix_sinceLast {s : List α} (hs : s <:+ l) (hrst : ∀ a ∈ s, reset a = false) :
    s <:+ sinceLast reset l := by
  obtain ⟨t, rfl⟩ := hs
  rw [sinceLast_append t hrst]
  exact suffix_append _ _

def AtMostOnce (reset mark : α → Bool) (l : List α) : Prop :=
  ∀ s, s <:+: l → (∀ a ∈ s, reset a = false) → s.countP mark ≤ 1

theorem AtMostOnce.of_isInfix (h : AtMostOnce reset mark l) (hl : l' <:+: l) :
    AtMostOnce reset mark l' :=
  fun s hs => h s (hs.trans hl)

theorem atMostOnce_nil (reset mark : α → Bool) : AtMostOnce reset mark ([] : List α) := by
  intro s hs _
  rw [infix_nil.mp hs]
  exact Nat.zero_le 1

theorem atMostOnce_concat (reset mark : α → Bool) (l : List α) (a : α) :
    AtMostOnce reset mark (l ++ [a]) ↔ AtMostOnce reset mark l ∧ (sinceLast reset (l ++ [a])).countP mark ≤ 1 := by
  constructor
  · intro h
    refine ⟨h.of_isInfix (infix_append_of_infix_left (infix_refl l)), ?_⟩
    exact h _ (sinceLast_isSuffix reset _).isInfix fun x hx => not_reset_of_mem_sinceLast hx
  rintro ⟨h, hcnt⟩ s hs hrst
  rcases infix_concat_iff.mp hs with hsuff | hinfix
  · have hsub : s <:+ sinceLast reset (l ++ [a]) := isSuffix_sinceLast hsuff hrst
    exact Nat.le_trans hsub.sublist.countP_le hcnt
  · exact h s hinfix hrst

theorem AtMostOnce.append (h : AtMostOnce reset mark l) (hrst : ∀ e ∈ es, reset e = false)
    (hcnt : (sinceLast reset l ++ es).countP mark ≤ 1) : AtMostOnce reset mark (l ++ es) := by
  induction es generalizing l with
  | nil => simpa using h
  | cons e es ih =>
    have he : reset e = false := hrst e mem_cons_self
    have hsin : sinceLast reset (l ++ [e]) = sinceLast reset l ++ [e] := by
      rw [sinceLast_concat, if_neg (by simp [he])]
    rw [append_cons]
    apply ih
    · rw [atMostOnce_concat, hsin]
      refine ⟨h, Nat.le_trans ?_ hcnt⟩
      simp only [countP_append, countP_cons, countP_nil]
      omega
    · exact fun x hx => hrst x (mem_cons_of_mem e hx)
    · rwa [hsin, append_assoc, singleton_append]

section
variable {σ : Type*} (next : σ → α → Option σ)

/-- The state of a monitor after a history, or `none` once an event came out of turn. -/
def track (s : σ) (l : List α) : Option σ := l.foldlM next s

@[simp] theorem track_nil (s : σ) : track next s [] = some s := rfl

theorem track_append (s : σ) (l l' : List α) :
    track next s (l ++ l') = (track next s l).bind fun t => track next t l' :=
  foldlM_append

theorem track_concat (s : σ) (l : List α) (a : α) :
    track next s (l ++ [a]) = (track next s l).bind fun t => next t a := by
  rw [track_append]
  congr 1
  funext t
  exact bind_pure (next t a)

theorem track_idle {s : σ} {l : List α} (h : ∀ a ∈ l, next s a = some s) :
    track next s l = some s := by
  induction l with
  | nil => rfl
  | cons a l ih =>
    have ha : track next s (a :: l) = (next s a).bind fun t => track next t l := rfl
    rw [ha, h a mem_cons_self]
    exact ih fun b hb => h b (mem_cons_of_mem a hb)

end

end Chromeless.History
