import Chromeless.LibJsonPrint
import Mathlib.Data.List.Induction

/-! Reading an object's members: the loose way Go's decoder fills a struct, and the
exact way of a parser that compares keys byte for byte. -/
namespace Chromeless.Json
open Value List
open Value (ok)

/-- Go's `foldName`: upper case for ASCII, and the two other runes that fold to ASCII, U+017F to `S`
and U+212A to `K`. -/
def foldName : Bytes → Bytes
  | [] => []
  | [a] => [upper a]
  | [a, b] => if a = 0xc5 ∧ b = 0xbf then [0x53] else upper a :: foldName [b]
  | a :: b :: c :: rest =>
    if a = 0xc5 ∧ b = 0xbf then 0x53 :: foldName (c :: rest)
    else if a = 0xe2 ∧ b = 0x84 ∧ c = 0xaa then 0x4b :: foldName rest
    else upper a :: foldName (b :: c :: rest)
where
  upper (b : UInt8) : UInt8 := if 0x61 ≤ b ∧ b ≤ 0x7a then b - 0x20 else b

def namesField (name : Bytes) (m : Bytes × Value) : Bool :=
  foldName (unquote m.1) == foldName name

/-- A string replaces what is there, `null` leaves it, and any other value is a type error. -/
def decodeString (name : Bytes) (acc : Bytes) (m : Bytes × Value) : Option Bytes :=
  if namesField name m then
    match m.2 with
    | .str body => some (unquote body)
    | .null => some acc
    | _ => none
  else some acc

def stringField (name : Bytes) (ms : List (Bytes × Value)) : Option Bytes :=
  ms.foldlM (decodeString name) []

/-- A raw field keeps the last member that names it, `null` included. -/
def rawField (name : Bytes) (ms : List (Bytes × Value)) : Option Value :=
  ms.foldl (fun acc m => if namesField name m then some m.2 else acc) none

/-- Which of several members with one key a parser keeps. -/
inductive Pick
  | first
  | last
deriving DecidableEq

def exactMember (pick : Pick) (key : Bytes) (ms : List (Bytes × Value)) : Option Value :=
  match pick with
  | .first => (ms.find? fun m => unquote m.1 == key).map Prod.snd
  | .last => (ms.reverse.find? fun m => unquote m.1 == key).map Prod.snd

def exactString (pick : Pick) (key : Bytes) (ms : List (Bytes × Value)) : Option Bytes :=
  match exactMember pick key ms with
  | some (.str body) => some (unquote body)
  | _ => none

def parseObject (depth : ℕ) (text : Bytes) : Option (List (Bytes × Value)) :=
  match parse depth text with
  | some (.obj ms) => some ms
  | _ => none

def readString (depth : ℕ) (pick : Pick) (key : Bytes) (text : Bytes) : Option Bytes :=
  (parseObject depth text).bind (exactString pick key)

def Value.text : Value → Option Bytes
  | .str body => some (unquote body)
  | _ => none

def Value.isNull : Value → Bool
  | .null => true
  | _ => false

def spelled (key : Bytes) (ms : List (Bytes × Value)) : List (Bytes × Value) :=
  ms.filter fun m => unquote m.1 == key

/-- The members that the loose decoder takes for the field, but for those it skips. -/
def taken (name : Bytes) (ms : List (Bytes × Value)) : List (Bytes × Value) :=
  ms.filter fun m => namesField name m && !m.2.isNull

def firstText (ms : List (Bytes × Value)) : Option Bytes := ms.head?.bind fun m => m.2.text

def lastText (ms : List (Bytes × Value)) : Option Bytes := ms.getLast?.bind fun m => m.2.text

theorem exactString_text (pick : Pick) (key : Bytes) (ms : List (Bytes × Value)) :
    exactString pick key ms = (exactMember pick key ms).bind Value.text := by
  unfold exactString
  split
  next body h =>
    rw [h]
    rfl
  rename_i h
  cases hv : exactMember pick key ms with
  | none => rfl
  | some v =>
    cases v with
    | str body => exact absurd hv (h body)
    | _ => rfl

theorem exactString_first (key : Bytes) (ms : List (Bytes × Value)) :
    exactString .first key ms = firstText (spelled key ms) := by
  rw [exactString_text, exactMember, firstText, spelled, head?_filter]
  cases ms.find? fun m => unquote m.1 == key <;> rfl

theorem exactString_last (key : Bytes) (ms : List (Bytes × Value)) :
    exactString .last key ms = lastText (spelled key ms) := by
  have hlast : (spelled key ms).getLast? = ms.reverse.find? fun m => unquote m.1 == key := by
    rw [spelled, ← head?_reverse, ← filter_reverse, head?_filter]
  rw [exactString_text, exactMember, lastText, hlast]
  cases ms.reverse.find? fun m => unquote m.1 == key <;> rfl

theorem stringField_eq (name : Bytes) (ms : List (Bytes × Value)) (s : Bytes)
    (h : stringField name ms = some s) : s = (lastText (taken name ms)).getD [] := by
  -- by the last member, which is decoded on top of all others
  induction ms using reverseRecOn generalizing s with
  | nil =>
    cases h
    rfl
  | append_singleton ms m ih =>
    rw [stringField, foldlM_append] at h
    obtain ⟨acc, hacc, hm⟩ := Option.bind_eq_some_iff.mp h
    have hold := ih acc hacc
    simp only [foldlM_cons, foldlM_nil, decodeString, Option.pure_def, Option.bind_eq_bind] at hm
    have hsp : taken name (ms ++ [m]) = taken name ms ++ taken name [m] := filter_append ..
    rw [hsp]
    by_cases hname : namesField name m = true
    · rw [if_pos hname] at hm
      cases hv : m.2 with
      | str =>
        simp only [hv, Option.bind_some, Option.some.injEq] at hm
        simp [taken, hname, hv, isNull, lastText, Value.text, hm]
      | null =>
        simp only [hv, Option.bind_some, Option.some.injEq] at hm
        have hnone : taken name [m] = [] := by simp [taken, hv, isNull]
        rwa [hnone, append_nil, ← hm]
      | _ => simp [hv] at hm
    · rw [if_neg hname] at hm
      simp only [Option.bind_some, Option.some.injEq] at hm
      have hnone : taken name [m] = [] := by simp [taken, hname]
      rwa [hnone, append_nil, ← hm]

def escapeByte (b : UInt8) : Bytes :=
  if b = 0x3c then ascii "\\u003c" else if b = 0x3e then ascii "\\u003e"
  else if b = 0x26 then ascii "\\u0026" else [b]

/-- String bodies as Go's encoder compacts raw messages: `<`, `>`, `&`, U+2028 and
U+2029 are replaced by their escapes. -/
def escapeBody : Bytes → Bytes
  | [] => []
  | [a] => escapeByte a
  | [a, b] => escapeByte a ++ escapeByte b
  | a :: b :: c :: rest =>
    if a = 0xe2 ∧ b = 0x80 ∧ c = 0xa8 then ascii "\\u2028" ++ escapeBody rest
    else if a = 0xe2 ∧ b = 0x80 ∧ c = 0xa9 then ascii "\\u2029" ++ escapeBody rest
    else escapeByte a ++ escapeBody (b :: c :: rest)

mutual

def Value.escape : Value → Value
  | .null => .null
  | .bool b => .bool b
  | .num literal => .num literal
  | .str body => .str (escapeBody body)
  | .arr items => .arr (escapeItems items)
  | .obj members => .obj (escapeMembers members)

def escapeItems : List Value → List Value
  | [] => []
  | v :: vs => v.escape :: escapeItems vs

def escapeMembers : List (Bytes × Value) → List (Bytes × Value)
  | [] => []
  | (key, v) :: ms => (escapeBody key, v.escape) :: escapeMembers ms

end

theorem strStep_escaped (st st' : StrState) (b : UInt8) (hb : b ∈ [0x3c, 0x3e, 0x26, 0xe2])
    (h : strStep st b = some st') : st = .body ∧ st' = .body := by
  simp only [mem_cons, not_mem_nil, or_false] at hb
  cases st with
  | body => obtain rfl | rfl | rfl | rfl := hb <;> simp_all [strStep]
  | esc => obtain rfl | rfl | rfl | rfl := hb <;> simp [strStep, ascii] at h
  | hex n => cases n <;> obtain rfl | rfl | rfl | rfl := hb <;> simp [strStep, isHex, isDigit] at h

theorem bodyOk_cons (st : StrState) (b : UInt8) (bs : Bytes) :
    bodyOk st (b :: bs) = true ↔ ∃ st', strStep st b = some st' ∧ bodyOk st' bs = true := by
  cases hs : strStep st b <;> simp [bodyOk, hs]

theorem bodyOk_escapeByte (st st' : StrState) (b : UInt8) (bs : Bytes)
    (h : strStep st b = some st') (hbs : bodyOk st' bs = true) :
    bodyOk st (escapeByte b ++ bs) = true := by
  have hesc : ∀ e ∈ [ascii "\\u003c", ascii "\\u003e", ascii "\\u0026"], bodyOk .body (e ++ bs) = bodyOk .body bs := by
    intro e he
    simp only [mem_cons, not_mem_nil, or_false] at he
    obtain rfl | rfl | rfl := he <;>
      simp [ascii, bodyOk, strStep, isHex, isDigit]
  unfold escapeByte
  split_ifs
  case neg => exact (bodyOk_cons st b bs).mpr ⟨st', h, hbs⟩
  all_goals
    obtain ⟨rfl, rfl⟩ := strStep_escaped st st' b (by simp [*]) h
    rw [hesc _ (by simp), hbs]

theorem bodyOk_escapeBody (st : StrState) (body : Bytes) (h : bodyOk st body = true) :
    bodyOk st (escapeBody body) = true := by
  fun_induction escapeBody body generalizing st with
  | case1 => exact h
  | case2 a =>
    obtain ⟨st₁, ha, h⟩ := (bodyOk_cons _ _ _).mp h
    simpa using bodyOk_escapeByte st st₁ a [] ha h
  | case3 a b =>
    obtain ⟨st₁, ha, h⟩ := (bodyOk_cons _ _ _).mp h
    obtain ⟨st₂, hb, h⟩ := (bodyOk_cons _ _ _).mp h
    exact bodyOk_escapeByte st st₁ a _ ha (by simpa using bodyOk_escapeByte st₁ st₂ b [] hb h)
  | case4 _ _ _ rest hc ih | case5 _ _ _ rest _ hc ih =>
    obtain ⟨rfl, rfl, rfl⟩ := hc
    obtain ⟨st₁, ha, h⟩ := (bodyOk_cons _ _ _).mp h
    obtain ⟨rfl, rfl⟩ := strStep_escaped _ _ _ (by simp) ha
    have hrest : bodyOk .body rest = true := by simpa [bodyOk, strStep] using h
    simpa [ascii, bodyOk, strStep, isHex, isDigit] using ih .body hrest
  | case6 a b c rest hn hn' ih =>
    obtain ⟨st₁, ha, h⟩ := (bodyOk_cons _ _ _).mp h
    exact bodyOk_escapeByte st st₁ a _ ha (ih st₁ h)

mutual

theorem Value.ok_escape : ∀ (depth : ℕ) (v : Value),
    v.ok depth = true → v.escape.ok depth = true
  | _, .null, _ => by simp [escape, ok]
  | _, .bool _, _ => by simp [escape, ok]
  | _, .num _, h => by simpa [escape, ok] using h
  | _, .str body, h => by simp [escape, ok, bodyOk_escapeBody _ _ h]
  | 0, .arr _, h => by simp [ok] at h
  | depth+1, .arr items, h => by simpa [escape, ok] using itemsOk_escape depth items h
  | 0, .obj _, h => by simp [ok] at h
  | depth+1, .obj members, h => by simpa [escape, ok] using membersOk_escape depth members h

theorem itemsOk_escape : ∀ (depth : ℕ) (vs : List Value),
    itemsOk depth vs = true → itemsOk depth (escapeItems vs) = true
  | _, [], _ => by simp [escapeItems, itemsOk]
  | depth, v :: vs, h => by
    simp only [itemsOk, Bool.and_eq_true] at h
    simp [escapeItems, itemsOk, v.ok_escape depth h.1, itemsOk_escape depth vs h.2]

theorem membersOk_escape : ∀ (depth : ℕ) (ms : List (Bytes × Value)),
    membersOk depth ms = true → membersOk depth (escapeMembers ms) = true
  | _, [], _ => by simp [escapeMembers, membersOk]
  | depth, (key, v) :: ms, h => by
    simp only [membersOk, Bool.and_eq_true] at h
    simp [escapeMembers, membersOk, bodyOk_escapeBody _ _ h.1.1, v.ok_escape depth h.1.2, membersOk_escape depth ms h.2]

end

theorem membersOk_mem (depth : ℕ) (ms : List (Bytes × Value)) (h : membersOk depth ms = true)
    (m : Bytes × Value) (hm : m ∈ ms) : m.2.ok depth = true := by
  induction ms with
  | nil => simp at hm
  | cons n ms ih =>
    simp only [membersOk, Bool.and_eq_true] at h
    rcases mem_cons.mp hm with rfl | hm
    · exact h.1.2
    · exact ih h.2 hm

theorem rawField_mem (name : Bytes) (ms : List (Bytes × Value)) (v : Value)
    (h : rawField name ms = some v) : ∃ m ∈ ms, m.2 = v := by
  have hfold : ∀ (ms : List (Bytes × Value)) (acc : Option Value),
      ms.foldl (fun acc m => if namesField name m then some m.2 else acc) acc = some v →
      acc = some v ∨ ∃ m ∈ ms, m.2 = v := by
    intro ms
    induction ms with
    | nil => intro acc h; exact .inl h
    | cons m ms ih =>
      intro acc h
      rcases ih _ h with hacc | ⟨n, hn, hv⟩
      · dsimp only at hacc
        split at hacc
        · exact .inr ⟨m, by simp, by simpa using hacc⟩
        · exact .inl hacc
      · exact .inr ⟨n, by simp [hn], hv⟩
  rcases hfold ms none h with h | h
  · simp at h
  · exact h

end Chromeless.Json
