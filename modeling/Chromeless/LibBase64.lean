import Mathlib.Data.Nat.Notation
import Mathlib.Tactic.Basic

/-! Base64 over an alphabet of 64 characters: three bytes are four characters, and the last ones
are padded. -/
namespace Chromeless.Base64

def pad : UInt8 := 0x3d

/-- The characters for six bits, and the six bits of a character. -/
structure Alphabet where
  char : ℕ → UInt8
  index : UInt8 → Option ℕ
  index_char : ∀ i < 64, index (char i) = some i
  index_pad : index pad = none

theorem Alphabet.char_ne_pad (A : Alphabet) {i : ℕ} (h : i < 64) : A.char i ≠ pad := by
  intro heq
  have hindex := A.index_char i h
  rw [heq, A.index_pad] at hindex
  cases hindex

def standardChar (i : ℕ) : UInt8 :=
  if i < 26 then (0x41 + i).toUInt8
  else if i < 52 then (0x61 + (i-26)).toUInt8
  else if i < 62 then (0x30 + (i-52)).toUInt8
  else if i = 62 then 0x2b else 0x2f

def standardIndex (b : UInt8) : Option ℕ :=
  if 0x41 ≤ b ∧ b ≤ 0x5a then some (b.toNat - 0x41)
  else if 0x61 ≤ b ∧ b ≤ 0x7a then some (b.toNat - 0x61 + 26)
  else if 0x30 ≤ b ∧ b ≤ 0x39 then some (b.toNat - 0x30 + 52)
  else if b = 0x2b then some 62
  else if b = 0x2f then some 63 else none

def standard : Alphabet where
  char := standardChar
  index := standardIndex
  index_char := by decide
  index_pad := by decide

section
variable (A : Alphabet)

def encode : List UInt8 → List UInt8
  | [] => []
  | [a] => [A.char (a.toNat/4), A.char (a.toNat%4*16), pad, pad]
  | [a, b] => [A.char (a.toNat/4), A.char (a.toNat%4*16 + b.toNat/16), A.char (b.toNat%16*4), pad]
  | a :: b :: c :: rest =>
    [A.char (a.toNat/4), A.char (a.toNat%4*16 + b.toNat/16),
      A.char (b.toNat%16*4 + c.toNat/64), A.char (c.toNat%64)] ++ encode rest

/-- Padding stands at the very end. The bits that it leaves over are not checked. -/
def decode : List UInt8 → Option (List UInt8)
  | [] => some []
  | a :: b :: c :: d :: rest =>
    match A.index a, A.index b with
    | some w, some x =>
      let first := (w*4 + x/16).toUInt8
      if c = pad then if d = pad ∧ rest = [] then some [first] else none
      else match A.index c with
        | none => none
        | some y =>
          let second := (x%16*16 + y/4).toUInt8
          if d = pad then if rest = [] then some [first, second] else none
          else match A.index d with
            | none => none
            | some z => (decode rest).map ([first, second, (y%4*64 + z).toUInt8] ++ ·)
    | _, _ => none
  | _ => none

theorem toUInt8_of_eq {n : ℕ} {b : UInt8} (h : n = b.toNat) : n.toUInt8 = b := by
  subst h
  exact UInt8.ofNat_toNat

theorem decode_of_encode : ∀ bytes, decode A (encode A bytes) = some bytes
  | [] => rfl
  | [a] => by
    have ha := a.toNat_lt
    have hw := A.index_char (a.toNat/4) (by omega)
    have hx := A.index_char (a.toNat%4*16) (by omega)
    have hfst : (a.toNat/4*4 + a.toNat%4*16/16).toUInt8 = a := toUInt8_of_eq (by omega)
    simp only [encode, decode, hw, hx, hfst, and_self, ↓reduceIte]
  | [a, b] => by
    have ha := a.toNat_lt
    have hb := b.toNat_lt
    have hw := A.index_char (a.toNat/4) (by omega)
    have hx := A.index_char (a.toNat%4*16 + b.toNat/16) (by omega)
    have hy := A.index_char (b.toNat%16*4) (by omega)
    have hyne := A.char_ne_pad (show b.toNat%16*4 < 64 by omega)
    have hfst : (a.toNat/4*4 + (a.toNat%4*16 + b.toNat/16)/16).toUInt8 = a := toUInt8_of_eq (by omega)
    have hsec : ((a.toNat%4*16 + b.toNat/16)%16*16 + b.toNat%16*4/4).toUInt8 = b := toUInt8_of_eq (by omega)
    simp only [encode, decode, hw, hx, hy, hyne, hfst, hsec, ↓reduceIte]
  | a :: b :: c :: rest => by
    have ih := decode_of_encode rest
    have ha := a.toNat_lt
    have hb := b.toNat_lt
    have hc := c.toNat_lt
    have hw := A.index_char (a.toNat/4) (by omega)
    have hx := A.index_char (a.toNat%4*16 + b.toNat/16) (by omega)
    have hy := A.index_char (b.toNat%16*4 + c.toNat/64) (by omega)
    have hz := A.index_char (c.toNat%64) (by omega)
    have hyne := A.char_ne_pad (show b.toNat%16*4 + c.toNat/64 < 64 by omega)
    have hzne := A.char_ne_pad (show c.toNat%64 < 64 by omega)
    have hfst : (a.toNat/4*4 + (a.toNat%4*16 + b.toNat/16)/16).toUInt8 = a := toUInt8_of_eq (by omega)
    have hsec :
        ((a.toNat%4*16 + b.toNat/16)%16*16 + (b.toNat%16*4 + c.toNat/64)/4).toUInt8 = b :=
      toUInt8_of_eq (by omega)
    have hthird : ((b.toNat%16*4 + c.toNat/64)%4*64 + c.toNat%64).toUInt8 = c := toUInt8_of_eq (by omega)
    simp only [encode, List.cons_append, List.nil_append, decode, hw, hx, hy, hz, hyne, hzne,
      hfst, hsec, hthird, ih, Option.map_some, ↓reduceIte]

end

end Chromeless.Base64
