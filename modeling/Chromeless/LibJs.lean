import Chromeless.LibNumber

/-! Strings as JavaScript has them, and the values that `JSON.parse` returns. -/
namespace Chromeless.Js
open UInt16 List

/-- UTF-16 code units, surrogates in pairs or not. -/
abbrev JsString := List UInt16

def asciiUnits (l : List Char) : JsString := l.map fun c => ofNat c.toNat

def units (s : String) : JsString := asciiUnits s.toList

def isHighSurrogate (u : UInt16) : Bool := 0xd800 ≤ u && u < 0xdc00

def isLowSurrogate (u : UInt16) : Bool := 0xdc00 ≤ u && u < 0xe000

def pairChar (high low : UInt16) : Char :=
  .ofNat (0x10000 + (high.toNat - 0xd800)*0x400 + (low.toNat - 0xdc00))

def replacement : Char := .ofNat 0xfffd

/-- The characters of a string. A surrogate without its other half is replaced. -/
def chars : JsString → List Char
  | [] => []
  | [u] => [if isHighSurrogate u || isLowSurrogate u then replacement else .ofNat u.toNat]
  | u :: v :: rest =>
    if isHighSurrogate u && isLowSurrogate v then pairChar u v :: chars rest
    else (if isHighSurrogate u || isLowSurrogate u then replacement else .ofNat u.toNat) :: chars (v :: rest)

def Ascii (u : UInt16) : Prop := u < 0x80

theorem Ascii.not_surrogate {u : UInt16} (h : Ascii u) :
    isHighSurrogate u = false ∧ isLowSurrogate u = false := by
  have hlt : u.toNat < 0x80 := h
  constructor
  · rw [isHighSurrogate, Bool.and_eq_false_iff]
    left
    exact decide_eq_false (by rw [le_iff_toNat_le]; exact Nat.not_le_of_lt (hlt.trans (by decide)))
  rw [isLowSurrogate, Bool.and_eq_false_iff]
  left
  exact decide_eq_false (by rw [le_iff_toNat_le]; exact Nat.not_le_of_lt (hlt.trans (by decide)))

theorem chars_cons_of_ascii {u : UInt16} (h : Ascii u) (rest : JsString) :
    chars (u :: rest) = .ofNat u.toNat :: chars rest := by
  obtain ⟨hhigh, hlow⟩ := h.not_surrogate
  cases rest with
  | nil | cons => simp [chars, hhigh, hlow]

theorem ascii_ofNat {c : Char} (h : c.toNat < 0x80) :
    Ascii (ofNat c.toNat) ∧ Char.ofNat (ofNat c.toNat).toNat = c := by
  have hunit : (ofNat c.toNat).toNat = c.toNat := Nat.mod_eq_of_lt (h.trans (by decide))
  constructor
  · rwa [Ascii, lt_iff_toNat_lt, hunit]
  · rw [hunit, Char.ofNat_toNat]

theorem chars_asciiUnits_append {l : List Char} (h : ∀ c ∈ l, c.toNat < 0x80) (rest : JsString) :
    chars (asciiUnits l ++ rest) = l ++ chars rest := by
  induction l with
  | nil => rfl
  | cons c l ih =>
    obtain ⟨hc, hl⟩ := forall_mem_cons.mp h
    obtain ⟨hascii, hback⟩ := ascii_ofNat hc
    have hcons : asciiUnits (c :: l) ++ rest = ofNat c.toNat :: (asciiUnits l ++ rest) := rfl
    rw [hcons, chars_cons_of_ascii hascii, hback, ih hl, cons_append]

theorem chars_asciiUnits {l : List Char} (h : ∀ c ∈ l, c.toNat < 0x80) : chars (asciiUnits l) = l := by
  have hall := chars_asciiUnits_append h []
  rw [append_nil] at hall
  exact hall.trans (append_nil l)

theorem chars_append_cons_of_ascii (s : JsString) {u : UInt16} (h : Ascii u) (rest : JsString) :
    chars (s ++ u :: rest) = chars s ++ chars (u :: rest) := by
  induction s using chars.induct with
  | case1 => rfl
  | case2 =>
    obtain ⟨-, hlow⟩ := h.not_surrogate
    simp [chars, hlow]
  | case3 v w s hpair ih => simp [chars, hpair, ih]
  | case4 v w s hpair ih =>
    rw [cons_append] at ih
    simp only [cons_append, chars, hpair, ih]
    rfl

/-- A value. Members of an object are kept by name. -/
inductive JsValue
  | null
  | boolean (b : Bool)
  | number (n : Number)
  | string (s : JsString)
  | array (items : List JsValue)
  | object (members : List (JsString × JsValue))

namespace JsValue

def get (name : String) : JsValue → Option JsValue
  | object members => (members.find? fun m => m.1 == units name).map Prod.snd
  | _ => none

def isObject : JsValue → Bool
  | array _ | object _ => true
  | _ => false

def getString (name : String) (v : JsValue) : Option JsString :=
  match v.get name with
  | some (string s) => some s
  | _ => none

def getNumber (name : String) (v : JsValue) : Option Number :=
  match v.get name with
  | some (number n) => some n
  | _ => none

def getBoolean (name : String) (v : JsValue) : Option Bool :=
  match v.get name with
  | some (boolean b) => some b
  | _ => none

end JsValue

end Chromeless.Js
