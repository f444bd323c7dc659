import Chromeless.LibJsonSyntax
import Mathlib.Data.List.TakeWhile

/-! Go's string operations over arbitrary bytes, as far as UTF-8 matters to them. -/
namespace Chromeless.ByteString
open Json List

def spaceRunes : List Bytes :=
  [[0x09], [0x0a], [0x0b], [0x0c], [0x0d], [0x20], [0xc2, 0x85], [0xc2, 0xa0],
    [0xe1, 0x9a, 0x80], [0xe2, 0x80, 0x80], [0xe2, 0x80, 0x81], [0xe2, 0x80, 0x82],
    [0xe2, 0x80, 0x83], [0xe2, 0x80, 0x84], [0xe2, 0x80, 0x85], [0xe2, 0x80, 0x86],
    [0xe2, 0x80, 0x87], [0xe2, 0x80, 0x88], [0xe2, 0x80, 0x89], [0xe2, 0x80, 0x8a],
    [0xe2, 0x80, 0xa8], [0xe2, 0x80, 0xa9], [0xe2, 0x80, 0xaf], [0xe2, 0x81, 0x9f],
    [0xe3, 0x80, 0x80]]

def stripRunes (runes : List Bytes) : ℕ → Bytes → Bytes
  | 0, s => s
  | fuel+1, s =>
    match runes.find? (·.isPrefixOf s) with
    | none => s
    | some r => stripRunes runes fuel (s.drop r.length)

/-- `strings.TrimSpace`. A rune's encoding cannot end in the middle of another one, so
the trailing runes are the leading ones of the reversed bytes. -/
def trimSpace (s : Bytes) : Bytes :=
  let front := stripRunes spaceRunes s.length s
  (stripRunes (spaceRunes.map reverse) front.length front.reverse).reverse

def cutByte (sep : UInt8) (s : Bytes) : Option (Bytes × Bytes) :=
  match s.dropWhile (· != sep) with
  | [] => none
  | _ :: rest => some (s.takeWhile (· != sep), rest)

def splitN (sep : UInt8) : ℕ → Bytes → List Bytes
  | 0, _ => []
  | 1, s => [s]
  | n+2, s =>
    match cutByte sep s with
    | none => [s]
    | some (part, rest) => part :: splitN sep (n+1) rest

theorem splitOn_of_cutByte_none (sep : UInt8) (s : Bytes) (h : cutByte sep s = none) :
    s.splitOn sep = [s] := by
  have hdrop : s.dropWhile (· != sep) = [] := by
    unfold cutByte at h
    split at h
    · assumption
    · cases h
  apply splitOn_eq_singleton
  intro hmem
  simpa using dropWhile_eq_nil_iff.mp hdrop sep hmem

theorem splitOn_of_cutByte_some (sep : UInt8) (s part rest : Bytes)
    (h : cutByte sep s = some (part, rest)) : s.splitOn sep = part :: rest.splitOn sep := by
  unfold cutByte at h
  split at h
  · cases h
  rename_i b tail hdrop
  obtain ⟨rfl, rfl⟩ := Prod.ext_iff.mp (Option.some.inj h)
  have hb : b = sep := by
    have hhead := head?_dropWhile_not (· != sep) s
    simpa [hdrop] using hhead
  have hpart : sep ∉ s.takeWhile (· != sep) := by
    intro hmem
    simpa using mem_takeWhile_imp hmem
  have hsp := takeWhile_append_dropWhile (p := (· != sep)) (l := s)
  rw [hdrop, hb] at hsp
  conv_lhs => rw [← hsp]
  rw [splitOn_append_cons_self, splitOn_eq_singleton hpart]
  rfl

theorem splitN_eq_splitOn (sep : UInt8) (n : ℕ) (s : Bytes)
    (h : (s.splitOn sep).length ≤ n) : splitN sep n s = s.splitOn sep := by
  induction n generalizing s with
  | zero => exact absurd (length_eq_zero_iff.mp (Nat.le_zero.mp h)) (splitOn_ne_nil _ _)
  | succ n ih =>
    cases hcut : cutByte sep s with
    | none =>
      rw [splitOn_of_cutByte_none sep s hcut]
      cases n <;> simp [splitN, hcut]
    | some r =>
      obtain ⟨part, rest⟩ := r
      have hsp := splitOn_of_cutByte_some sep s part rest hcut
      rw [hsp, length_cons, Nat.succ_le_succ_iff] at h
      cases n with
      | zero => exact absurd (length_eq_zero_iff.mp (Nat.le_zero.mp h)) (splitOn_ne_nil _ _)
      | succ => simp [splitN, hcut, hsp, ih rest h]

end Chromeless.ByteString
