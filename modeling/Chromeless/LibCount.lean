import Mathlib.Algebra.Order.BigOperators.Group.List
import Mathlib.Algebra.Ring.Int.Defs
import Mathlib.Data.Finset.Card
import Mathlib.Data.List.AList

/-! Gauges: a number that is kept equal to how many elements have a property. -/
namespace Chromeless.Count
open Function List

variable {α : Type*} {P Q : α → Prop} {n : ℤ}

/-- Finitely many elements have the property, and `n` of them do. -/
def Counts (P : α → Prop) (n : ℤ) : Prop := ∃ s : Finset α, (∀ a, a ∈ s ↔ P a) ∧ n = s.card

theorem counts_none (h : ∀ a, ¬ P a) : Counts P 0 :=
  ⟨∅, fun a => by simp [h a], by simp⟩

theorem Counts.nonneg (h : Counts P n) : 0 ≤ n := by
  obtain ⟨s, -, rfl⟩ := h
  exact Int.natCast_nonneg _

theorem Counts.congr (h : Counts P n) (hiff : ∀ a, Q a ↔ P a) : Counts Q n := by
  obtain ⟨s, hs, hn⟩ := h
  exact ⟨s, fun a => (hs a).trans (hiff a).symm, hn⟩

theorem countP_set_add {p : α → Bool} {l : List α} {i : ℕ} {x y : α} (hget : l[i]? = some x) :
    (l.set i y).countP p + (p x).toNat = l.countP p + (p y).toNat := by
  induction l generalizing i with
  | nil => simp at hget
  | cons z l ih =>
    cases i with
    | zero =>
      obtain rfl : z = x := by simpa using hget
      cases hz : p z <;> cases hy : p y <;> simp [hz, hy]
    | succ i =>
      have hrest := ih (i := i) (by simpa using hget)
      simp only [set_cons_succ, countP_cons]
      omega

variable [DecidableEq α] {a : α}

theorem Counts.insert (h : Counts P n) (ha : ¬ P a) (hiff : ∀ b, Q b ↔ b = a ∨ P b) :
    Counts Q (n+1) := by
  obtain ⟨s, hs, rfl⟩ := h
  have hnew : a ∉ s := fun hmem => ha ((hs a).mp hmem)
  refine ⟨Insert.insert a s, ?_, ?_⟩
  · intro b
    rw [Finset.mem_insert, hs, hiff]
  · rw [Finset.card_insert_of_notMem hnew]
    omega

theorem Counts.erase (h : Counts P n) (ha : P a) (hiff : ∀ b, Q b ↔ b ≠ a ∧ P b) :
    Counts Q (n-1) := by
  obtain ⟨s, hs, rfl⟩ := h
  have hold : a ∈ s := (hs a).mpr ha
  refine ⟨s.erase a, ?_, ?_⟩
  · intro b
    rw [Finset.mem_erase, hs, hiff]
  · have hcard := Finset.card_erase_add_one hold
    omega

/-! A family of gauges, one for each key, of which a change moves one. -/

variable {κ : Type*} [DecidableEq κ] {F G : κ → α → Prop} {g : κ → ℤ} {x₀ : κ}

theorem counts_insert_at (h : ∀ x, Counts (F x) (g x)) (ha : ¬ F x₀ a)
    (hiff : ∀ x b, G x b ↔ b = a ∧ x = x₀ ∨ F x b) (x : κ) :
    Counts (G x) (update g x₀ (g x₀ + 1) x) := by
  rw [update_apply]
  split_ifs with hx
  · subst hx
    exact (h x).insert ha fun b => by simp [hiff]
  · exact (h x).congr fun b => by simp [hiff, hx]

theorem counts_erase_at (h : ∀ x, Counts (F x) (g x)) (ha : F x₀ a)
    (hiff : ∀ x b, G x b ↔ F x b ∧ ¬ (b = a ∧ x = x₀)) (x : κ) :
    Counts (G x) (update g x₀ (g x₀ - 1) x) := by
  rw [update_apply]
  split_ifs with hx
  · subst hx
    exact (h x).erase ha fun b => by simp [hiff, and_comm]
  · exact (h x).congr fun b => by simp [hiff, hx]

/-! ### Sums over a table -/

section
variable {β : Type*} {f : β → ℤ} {m : AList fun _ : α => β} {b : β}

def tally (f : β → ℤ) (m : AList fun _ : α => β) : ℤ := (m.entries.map fun e => f e.2).sum

theorem tally_of_lookup (h : m.lookup a = some b) : tally f m = f b + tally f (m.erase a) := by
  have hmem : a ∈ m.keys := AList.lookup_isSome.mp (by rw [h]; rfl)
  obtain ⟨b', l₁, l₂, -, hents, hers⟩ := exists_of_kerase hmem
  have hb : b' = b := by
    have hlook : m.lookup a = some b' := by
      rw [← Option.mem_def, AList.mem_lookup_iff, hents]
      simp
    rw [hlook] at h
    exact Option.some.inj h
  have hsum : (m.erase a).entries = l₁ ++ l₂ := hers
  simp only [tally, hents, hsum, hb, map_append, map_cons, sum_append, sum_cons]
  omega

theorem tally_insert (m : AList fun _ : α => β) : tally f (m.insert a b) = f b + tally f (m.erase a) := by
  rfl

theorem tally_insert_same {b' : β} (h : m.lookup a = some b) (hf : f b' = f b) :
    tally f (m.insert a b') = tally f m := by
  rw [tally_insert, tally_of_lookup h, hf]

theorem tally_nonneg (h : ∀ a b, m.lookup a = some b → 0 ≤ f b) : 0 ≤ tally f m := by
  apply sum_nonneg
  intro n hn
  obtain ⟨e, he, rfl⟩ := mem_map.mp hn
  exact h e.1 e.2 (AList.mem_lookup_iff.mpr he)

end

end Chromeless.Count
