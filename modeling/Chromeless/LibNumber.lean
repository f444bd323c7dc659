import Mathlib.Data.Rat.Floor

/-! Numbers as JavaScript has them, up to the sign of zero. How sums are rounded is a parameter. -/
namespace Chromeless.Number

/-- Rounds to the nearest value that can be represented, if the exponent had no bound. What is
beyond `largest` then is infinite. -/
structure Rounding where
  representable : Set ℚ
  round : ℚ → ℚ
  largest : ℚ
  largest_nonneg : 0 ≤ largest
  zero_mem : 0 ∈ representable
  round_mem : ∀ x, round x ∈ representable
  nearest : ∀ x, ∀ y ∈ representable, |x - round x| ≤ |x - y|

/-- Every sum is exact. Doubles are this on whole numbers of up to 53 bits. -/
def Rounding.exact (largest : ℕ) : Rounding where
  representable := Set.univ
  round x := x
  largest := largest
  largest_nonneg := Nat.cast_nonneg largest
  zero_mem := trivial
  round_mem _ := trivial
  nearest x y _ := by simp

namespace Rounding
variable (R : Rounding) {x y : ℚ}

theorem round_of_mem (hx : x ∈ R.representable) : R.round x = x := by
  have hnear := R.nearest x x hx
  rw [sub_self, abs_zero] at hnear
  exact (sub_eq_zero.mp (abs_eq_zero.mp (le_antisymm hnear (abs_nonneg _)))).symm

theorem round_zero : R.round 0 = 0 := R.round_of_mem R.zero_mem

theorem round_mono (hxy : x ≤ y) : R.round x ≤ R.round y := by
  by_contra hlt
  rw [not_le] at hlt
  have hx := R.nearest x (R.round y) (R.round_mem y)
  have hy := R.nearest y (R.round x) (R.round_mem x)
  have hx' : R.round x + R.round y ≤ 2*x := by
    by_contra hno
    have hfar : x - R.round x < 0 := by linarith
    rw [abs_of_neg hfar] at hx
    obtain hcase | hcase := abs_cases (x - R.round y) <;> linarith [hcase.1]
  have hy' : 2*y ≤ R.round x + R.round y := by
    by_contra hno
    have hfar : 0 < y - R.round y := by linarith
    rw [abs_of_pos hfar] at hy
    obtain hcase | hcase := abs_cases (y - R.round x) <;> linarith [hcase.1]
  obtain rfl : x = y := by linarith
  exact lt_irrefl _ hlt

end Rounding

end Chromeless.Number

namespace Chromeless

inductive Number
  | nan
  | infinite (negative : Bool)
  | finite (value : ℚ)
deriving DecidableEq

namespace Number

def ofNat (n : ℕ) : Number := .finite n

def lt : Number → Number → Bool
  | finite x, finite y => x < y
  | infinite true, finite _ | infinite true, infinite false | finite _, infinite false => true
  | _, _ => false

def min : Number → Number → Number
  | nan, _ | _, nan => nan
  | x, y => if x.lt y then x else y

def add (R : Rounding) : Number → Number → Number
  | finite x, finite y =>
    let sum := R.round (x+y)
    if R.largest < |sum| then infinite (sum < 0) else finite sum
  | infinite a, infinite b => if a = b then infinite a else nan
  | infinite a, finite _ | finite _, infinite a => infinite a
  | _, _ => nan

def trunc (x : ℚ) : ℤ := if 0 ≤ x then ⌊x⌋ else ⌈x⌉

/-- What a position stands for in an array of the given length. Negative ones count from its
end. -/
def relativeIndex (length : ℕ) : Number → ℕ
  | nan | infinite true => 0
  | infinite false => length
  | finite x => if trunc x < 0 then (length + trunc x).toNat else Nat.min (trunc x).toNat length

def subarray {α : Type*} (xs : List α) (start stop : Number) : List α :=
  (xs.take (relativeIndex xs.length stop)).drop (relativeIndex xs.length start)

def Nonpos : Number → Prop
  | nan => False
  | infinite negative => negative = true
  | finite x => x ≤ 0

section
variable {R : Rounding}

theorem add_of_nonneg {x y : ℚ} (hmem : x ∈ R.representable) (hx : 0 ≤ x) (hy : 0 ≤ y) :
    (finite x).add R (finite y) = infinite false ∨
      ∃ z ∈ R.representable, x ≤ z ∧ (finite x).add R (finite y) = finite z := by
  have hle : x ≤ R.round (x+y) :=
    calc x = R.round x := (R.round_of_mem hmem).symm
      _ ≤ R.round (x+y) := R.round_mono (le_add_of_nonneg_right hy)
  rw [add]
  split
  · have hnot : ¬ R.round (x+y) < 0 := not_lt.mpr (le_trans hx hle)
    exact .inl (by rw [decide_eq_false hnot])
  · exact .inr ⟨R.round (x+y), R.round_mem _, hle, rfl⟩

theorem Nonpos.add {a b : Number} (ha : a.Nonpos) (hb : b.Nonpos) : (a.add R b).Nonpos := by
  cases a with
  | nan => exact absurd ha not_false
  | infinite negative =>
    obtain rfl : negative = true := ha
    cases b with
    | nan => exact absurd hb not_false
    | infinite negative =>
      obtain rfl : negative = true := hb
      rfl
    | finite => rfl
  | finite x =>
    cases b with
    | nan => exact absurd hb not_false
    | infinite negative =>
      obtain rfl : negative = true := hb
      rfl
    | finite y =>
      have hsum : R.round (x+y) ≤ 0 := R.round_zero ▸ R.round_mono (add_nonpos ha hb)
      rw [Number.add]
      split
      next hlarge =>
        have hne : R.round (x+y) ≠ 0 := by
          intro hzero
          rw [hzero, abs_zero] at hlarge
          exact absurd R.largest_nonneg (not_le.mpr hlarge)
        exact decide_eq_true (lt_of_le_of_ne hsum hne)
      · exact hsum

theorem Nonpos.lt_ofNat {a : Number} (ha : a.Nonpos) {n : ℕ} (hn : 0 < n) : a.lt (ofNat n) = true := by
  cases a with
  | nan => exact absurd ha not_false
  | infinite negative =>
    obtain rfl : negative = true := ha
    rfl
  | finite => exact decide_eq_true (lt_of_le_of_lt ha (Nat.cast_pos.mpr hn))

end

theorem trunc_of_nonneg {x : ℚ} (hx : 0 ≤ x) : trunc x = ⌊x⌋ := if_pos hx

theorem subarray_of_nonneg {α : Type*} (xs : List α) {x y : ℚ} (hx : 0 ≤ x) (hy : 0 ≤ y) :
    subarray xs (finite x) (finite y) = (xs.take ⌊y⌋.toNat).drop ⌊x⌋.toNat := by
  have hindex : ∀ z : ℚ, 0 ≤ z → relativeIndex xs.length (finite z) = Nat.min ⌊z⌋.toNat xs.length := by
    intro z hz
    have hfloor : ¬ trunc z < 0 := by
      rw [trunc_of_nonneg hz, not_lt]
      exact Int.floor_nonneg.mpr hz
    rw [relativeIndex, if_neg hfloor, trunc_of_nonneg hz]
  rw [subarray, hindex x hx, hindex y hy]
  have htake : xs.take (Nat.min ⌊y⌋.toNat xs.length) = xs.take ⌊y⌋.toNat := List.take_eq_take_min.symm
  rw [htake]
  obtain hlt | hle := Nat.lt_or_ge xs.length ⌊x⌋.toNat
  · -- both start beyond the end
    rw [List.drop_eq_nil_of_le, List.drop_eq_nil_of_le]
    · rw [List.length_take]
      omega
    · rw [List.length_take]
      exact le_trans (Nat.min_le_right _ _) (Nat.min_eq_right hlt.le).ge
  · exact congrArg (fun i => (xs.take ⌊y⌋.toNat).drop i) (Nat.min_eq_left hle)

end Number

end Chromeless
