import Mathlib.Data.List.Basic
import Mathlib.Data.List.Induction
import Mathlib.Tactic.Ring

/-! Reading from a stream that comes in pieces, and numbers of a fixed width in it. -/
namespace Chromeless.Reader
open List

variable {β : Type*}

inductive ReadError
  | eof | unexpectedEOF
deriving DecidableEq

/-- `io.ReadFull` with `got` read already. The pieces are what the reads return, which may be empty;
what is left of a piece is for the next reads. -/
def readFrom (got : List β) : ℕ → List (List β) → Except ReadError (List β) × List (List β)
  | 0, ps => (.ok got, ps)
  | _+1, [] => (.error (if got.isEmpty then .eof else .unexpectedEOF), [])
  | need+1, p :: ps =>
    if need+1 < p.length then (.ok (got ++ p.take (need+1)), p.drop (need+1) :: ps)
    else readFrom (got ++ p) (need + 1 - p.length) ps

def readFull (need : ℕ) (ps : List (List β)) : Except ReadError (List β) × List (List β) :=
  readFrom [] need ps

variable {need : ℕ} {ps : List (List β)}

theorem readFrom_ok (got : List β) (h : need ≤ ps.flatten.length) :
    ∃ ps', ps'.flatten = ps.flatten.drop need ∧ readFrom got need ps = (.ok (got ++ ps.flatten.take need), ps') := by
  induction ps generalizing got need with
  | nil =>
    obtain rfl : need = 0 := by simpa using h
    exact ⟨[], by simp, by simp [readFrom]⟩
  | cons p ps ih =>
    cases need with
    | zero => exact ⟨p :: ps, by simp, by simp [readFrom]⟩
    | succ need =>
      rw [flatten_cons, length_append] at h
      by_cases hlt : need+1 < p.length
      · refine ⟨p.drop (need+1) :: ps, ?_, ?_⟩
        · rw [flatten_cons, flatten_cons, drop_append_of_le_length (by omega)]
        · rw [readFrom, if_pos hlt, flatten_cons, take_append_of_le_length (by omega)]
      -- the piece is used up
      have hneed : need+1-p.length ≤ ps.flatten.length := by omega
      obtain ⟨ps', hleft, hread⟩ := ih (got ++ p) hneed
      refine ⟨ps', ?_, ?_⟩
      · have hgone : p.drop (need+1) = [] := drop_eq_nil_of_le (by omega)
        rw [hleft, flatten_cons, drop_append, hgone, nil_append]
      · rw [readFrom, if_neg hlt, hread, flatten_cons, take_append,
          take_of_length_le (by omega : p.length ≤ need+1), append_assoc]

theorem readFrom_error (got : List β) (h : ps.flatten.length < need) : (readFrom got need ps).1 =
      .error (if (got ++ ps.flatten).isEmpty then .eof else .unexpectedEOF) := by
  induction ps generalizing got need with
  | nil =>
    cases need with
    | zero => simp at h
    | succ => simp [readFrom]
  | cons p ps ih =>
    cases need with
    | zero => simp at h
    | succ =>
      rw [flatten_cons, length_append] at h
      rw [readFrom, if_neg (by omega), ih (got ++ p) (by omega), flatten_cons, append_assoc]

theorem readFull_ok (h : need ≤ ps.flatten.length) :
    ∃ ps', ps'.flatten = ps.flatten.drop need ∧ readFull need ps = (.ok (ps.flatten.take need), ps') :=
  readFrom_ok [] h

theorem readFull_error (h : ps.flatten.length < need) :
    ∃ ps', readFull need ps = (.error (if ps.flatten.isEmpty then .eof else .unexpectedEOF), ps') :=
  ⟨_, Prod.ext (readFrom_error [] h) rfl⟩

/-! ### Big-endian numbers -/

def beDecode (bs : List UInt8) : ℕ := bs.foldl (fun n b => n*256 + b.toNat) 0

def beEncode : ℕ → ℕ → List UInt8
  | 0, _ => []
  | k+1, n => beEncode k (n/256) ++ [UInt8.ofNat n]

@[simp] theorem beEncode_length (k n : ℕ) : (beEncode k n).length = k := by
  induction k generalizing n with
  | zero => rfl
  | succ k ih => rw [beEncode, length_append, ih, length_singleton]

variable (bs : List UInt8)

theorem beDecode_snoc (b : UInt8) :
    beDecode (bs ++ [b]) = beDecode bs * 256 + b.toNat := by
  simp [beDecode]

theorem beDecode_beEncode {k n : ℕ} (h : n < 256^k) : beDecode (beEncode k n) = n := by
  induction k generalizing n with
  | zero =>
    obtain rfl : n = 0 := by simpa using h
    rfl
  | succ k ih =>
    have hdiv : n/256 < 256^k := by
      rw [pow_succ] at h
      exact Nat.div_lt_of_lt_mul (by rwa [mul_comm] at h)
    rw [beEncode, beDecode_snoc, ih hdiv, UInt8.toNat_ofNat']
    omega

theorem beDecode_lt : beDecode bs < 256^bs.length := by
  induction bs using reverseRecOn with
  | nil => simp [beDecode]
  | append_singleton bs b ih =>
    have hb : b.toNat < 256 := b.toNat_lt
    rw [beDecode_snoc, length_append, length_singleton, pow_succ]
    calc beDecode bs * 256 + b.toNat < beDecode bs * 256 + 256 := by omega
      _ = (beDecode bs + 1) * 256 := by ring
      _ ≤ 256^bs.length * 256 := Nat.mul_le_mul_right _ ih

theorem beEncode_beDecode : beEncode bs.length (beDecode bs) = bs := by
  induction bs using reverseRecOn with
  | nil => rfl
  | append_singleton bs b ih =>
    have hb : b.toNat < 256 := b.toNat_lt
    have hdiv : (beDecode bs * 256 + b.toNat) / 256 = beDecode bs := by omega
    have hbyte : UInt8.ofNat (beDecode bs * 256 + b.toNat) = b := by
      apply UInt8.toNat_inj.mp
      rw [UInt8.toNat_ofNat']
      omega
    rw [length_append, length_singleton, beEncode, beDecode_snoc, hdiv, ih, hbyte]

end Chromeless.Reader
