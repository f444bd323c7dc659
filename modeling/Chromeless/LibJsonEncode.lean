import Chromeless.LibJsonDecode
import Mathlib.Data.Nat.Digits.Lemmas

/-! What Go's `encoding/json` writes for strings, integers and structs, and that its
decoder reads the same back. -/
namespace Chromeless.Json
open List Prod

def hexChar (d : ℕ) : UInt8 := if d < 10 then (0x30 + d).toUInt8 else (0x57 + d).toUInt8

def quoteByte (b : UInt8) : Bytes :=
  if b = 0x5c ∨ b = 0x22 then [0x5c, b]
  else if b = 0x08 then ascii "\\b"
  else if b = 0x0c then ascii "\\f"
  else if b = 0x0a then ascii "\\n"
  else if b = 0x0d then ascii "\\r"
  else if b = 0x09 then ascii "\\t"
  else if b < 0x20 ∨ b ∈ ascii "<>&" then
    ascii "\\u00" ++ [hexChar (b.toNat/16), hexChar (b.toNat%16)]
  else [b]

def quoteRune : Bytes → Bytes
  | [b] => quoteByte b
  | r =>
    -- the two line separators are no line breaks in JSON but they are in JavaScript
    if r = [0xe2, 0x80, 0xa8] then ascii "\\u2028"
    else if r = [0xe2, 0x80, 0xa9] then ascii "\\u2029" else r

def quoteAux : ℕ → Bytes → Bytes
  | 0, _ => []
  | _, [] => []
  | fuel+1, b :: rest =>
    match runeLength (b :: rest) with
    | 0 => ascii "\\ufffd" ++ quoteAux fuel rest
    | n+1 => quoteRune (b :: rest.take n) ++ quoteAux fuel (rest.drop n)

def quote (s : Bytes) : Bytes := quoteAux s.length s

def validAux : ℕ → Bytes → Bool
  | _, [] => true
  | 0, _ :: _ => false
  | fuel+1, b :: rest =>
    match runeLength (b :: rest) with
    | 0 => false
    | n+1 => validAux fuel (rest.drop n)

def validString (s : Bytes) : Bool := validAux s.length s

/-- The bytes of one rune: whatever follows them, they are read as that rune. -/
def IsRune (r : Bytes) : Prop := r ≠ [] ∧ ∀ rest, runeLength (r ++ rest) = r.length

theorem isRune_take (s : Bytes) (n : ℕ) (h : runeLength s = n+1) :
    (s.take (n+1)).length = n+1 ∧ IsRune (s.take (n+1)) := by
  -- by the number of bytes there are to look at
  rcases s with _ | ⟨a, _ | ⟨b, _ | ⟨c, _ | ⟨d, rest⟩⟩⟩⟩ <;> simp only [runeLength] at h
  · cases h
  all_goals
    split_ifs at h <;> (try cases h) <;>
      exact ⟨rfl, by simp, fun tail => by
        simp only [runeLength, take, cons_append, length, *, Bool.false_eq_true, ↓reduceIte]⟩

variable {r : Bytes}

theorem IsRune.ascii_or (h : IsRune r) :
    (∃ b, r = [b] ∧ b < 0x80) ∨ 1 < r.length ∧ ∀ b ∈ r, 0x80 ≤ b := by
  have hlen := h.2 []
  rw [append_nil] at hlen
  rcases r with _ | ⟨a, _ | ⟨b, _ | ⟨c, _ | ⟨d, rest⟩⟩⟩⟩ <;> simp only [runeLength] at hlen
  · exact absurd rfl h.1
  all_goals
    split_ifs at hlen <;> simp_all

theorem runes_of_valid (fuel : ℕ) (s : Bytes) (h : validAux fuel s = true) :
    ∃ rs : List Bytes, (∀ r ∈ rs, IsRune r) ∧ s = rs.flatten := by
  induction fuel generalizing s with
  | zero =>
    cases s with
    | nil => exact ⟨[], by simp, rfl⟩
    | cons => simp [validAux] at h
  | succ fuel ih =>
    cases s with
    | nil => exact ⟨[], by simp, rfl⟩
    | cons b rest =>
      simp only [validAux] at h
      split at h
      · cases h
      rename_i n hn
      obtain ⟨rs, hrs, hrest⟩ := ih _ h
      have hrune := (isRune_take _ n hn).2
      refine ⟨(b :: rest).take (n+1) :: rs, ?_, ?_⟩
      · exact forall_mem_cons.mpr ⟨hrune, hrs⟩
      · rw [flatten_cons, ← hrest, take_succ_cons, cons_append, take_append_drop]

theorem IsRune.length_pos (h : IsRune r) : 0 < r.length := length_pos_of_ne_nil h.1

theorem quoteAux_rune (fuel : ℕ) (h : IsRune r) (rest : Bytes) :
    quoteAux (fuel+1) (r ++ rest) = quoteRune r ++ quoteAux fuel rest := by
  obtain ⟨b, tail, rfl⟩ := exists_cons_of_ne_nil h.1
  have hlen := h.2 rest
  rw [cons_append] at hlen ⊢
  simp only [quoteAux, hlen, length_cons, take_left, drop_left]

theorem quoteAux_runes (rs : List Bytes) (hrs : ∀ r ∈ rs, IsRune r) (fuel : ℕ)
    (hfuel : rs.flatten.length ≤ fuel) : quoteAux fuel rs.flatten = rs.flatMap quoteRune := by
  induction rs generalizing fuel with
  | nil => cases fuel <;> rfl
  | cons r rs ih =>
    obtain ⟨hr, hrs⟩ := forall_mem_cons.mp hrs
    rw [flatten_cons, length_append] at hfuel
    have hpos := hr.length_pos
    obtain ⟨fuel, rfl⟩ := Nat.exists_eq_add_of_le' (show 1 ≤ fuel by omega)
    rw [flatten_cons, quoteAux_rune fuel hr, ih hrs fuel (by omega), flatMap_cons]

theorem hexDigit_hexChar (d : ℕ) (h : d < 16) : hexDigit (hexChar d) = d := by
  revert d
  decide

theorem isHex_hexChar (d : ℕ) (h : d < 16) : isHex (hexChar d) = true := by
  revert d
  decide

/-- One character of a string body: a rune that needs no escape, an escape of two characters, or one
of six that is no surrogate. -/
inductive Spells : Bytes → Bytes → Prop
  | plain {r : Bytes} (hrune : IsRune r) (hplain : ∀ b ∈ r, 0x20 ≤ b ∧ b ≠ 0x22 ∧ b ≠ 0x5c) :
      Spells r r
  | simple {e : UInt8} (he : e ∈ ascii "bfnrt\\/\"") : Spells [0x5c, e] [simpleEscape e]
  | unicode {a b c d : UInt8} (hhex : [a, b, c, d].all isHex = true)
      (hlow : hexUnit [a, b, c, d] < 0xd800) :
      Spells [0x5c, 0x75, a, b, c, d] (encodeRune (hexUnit [a, b, c, d]))

theorem Spells.ne_nil {p r : Bytes} (h : Spells p r) : p ≠ [] := by
  cases h with
  | plain hrune => exact hrune.1
  | simple => simp
  | unicode => simp

theorem not_unicode_of_simple {e : UInt8} (he : e ∈ ascii "bfnrt\\/\"") : e ≠ 0x75 := by
  rintro rfl
  exact absurd he (by decide)

theorem Spells.unquoteAux {p r : Bytes} (h : Spells p r) (fuel : ℕ) (rest : Bytes) :
    Json.unquoteAux (fuel+1) (p ++ rest) = r ++ Json.unquoteAux fuel rest := by
  cases h with
  | plain hrune hpl =>
    obtain ⟨b, tail, rfl⟩ := exists_cons_of_ne_nil hrune.1
    have hne : b ≠ 0x5c := (hpl b mem_cons_self).2.2
    have hlen := hrune.2 rest
    rw [cons_append] at hlen
    simp only [cons_append, Json.unquoteAux, hne, if_false, hlen, length_cons, take_left, drop_left]
  | simple he => simp [Json.unquoteAux, not_unicode_of_simple he]
  | @unicode a b c d =>
    have hpair : ¬ 0xd800 ≤ hexUnit [a, b, c, d] := by omega
    simp [Json.unquoteAux, hpair]

variable {b : UInt8}

theorem bodyOk_plain (h : 0x20 ≤ b ∧ b ≠ 0x22 ∧ b ≠ 0x5c) (rest : Bytes) :
    bodyOk .body (b :: rest) = bodyOk .body rest := by
  have hlow : ¬ b < 0x20 := UInt8.not_lt.mpr h.1
  simp [bodyOk, strStep, h.2.1, h.2.2, hlow]

theorem Spells.bodyOk {p r : Bytes} (h : Spells p r) (rest : Bytes) :
    Json.bodyOk .body (p ++ rest) = Json.bodyOk .body rest := by
  cases h with
  | plain hrune hpl =>
    clear hrune
    induction p with
    | nil => rfl
    | cons b p ih =>
      obtain ⟨hb, hp⟩ := forall_mem_cons.mp hpl
      rw [cons_append, bodyOk_plain hb, ih hp]
  | simple he => simp [Json.bodyOk, strStep, not_unicode_of_simple he, he]
  | unicode hhex =>
    simp only [all_cons, all_nil, Bool.and_true, Bool.and_eq_true] at hhex
    obtain ⟨ha, hb, hc, hd⟩ := hhex
    simp [Json.bodyOk, strStep, ha, hb, hc, hd]

theorem spells_byte (hb : b < 0x80) (h : 0x20 ≤ b ∧ b ≠ 0x22 ∧ b ≠ 0x5c) :
    Spells [b] [b] := by
  refine .plain ⟨by simp, fun rest => by simp [runeLength, hb]⟩ fun c hc => ?_
  rwa [mem_singleton.mp hc]

theorem spells_high (hrune : IsRune r) (h : ∀ b ∈ r, 0x80 ≤ b) : Spells r r := by
  refine .plain hrune fun b hb => ⟨UInt8.le_trans (by decide) (h b hb), ?_, ?_⟩
  · rintro rfl
    exact absurd (h _ hb) (by decide)
  · rintro rfl
    exact absurd (h _ hb) (by decide)

theorem hexUnit_byte (b : UInt8) :
    hexUnit [0x30, 0x30, hexChar (b.toNat/16), hexChar (b.toNat%16)] = b.toNat := by
  have hb := b.toNat_lt
  have hzero : hexDigit 0x30 = 0 := by decide
  simp only [hexUnit, foldl_cons, foldl_nil, hzero,
    hexDigit_hexChar (b.toNat/16) (by omega), hexDigit_hexChar (b.toNat%16) (by omega)]
  omega

theorem spells_hex (hb : b < 0x80) :
    Spells (ascii "\\u00" ++ [hexChar (b.toNat/16), hexChar (b.toNat%16)]) [b] := by
  have hlt : b.toNat < 0x80 := hb
  have hunit := hexUnit_byte b
  have hrune : encodeRune b.toNat = [b] := by simp [encodeRune, hlt]
  have hspel := Spells.unicode (a := 0x30) (b := 0x30) (c := hexChar (b.toNat/16))
    (d := hexChar (b.toNat%16)) (by
      simp only [all_cons, all_nil, isHex_hexChar (b.toNat/16) (by omega), isHex_hexChar (b.toNat%16) (by omega)]
      decide) (by omega)
  rwa [hunit, hrune] at hspel

theorem spells_quoteByte (hb : b < 0x80) : Spells (quoteByte b) [b] := by
  unfold quoteByte
  split_ifs with hself hbs hff hlf hcr htab hhex
  · rcases hself with rfl | rfl <;> exact .simple (by decide)
  · rw [hbs]
    exact .simple (by decide)
  · rw [hff]
    exact .simple (by decide)
  · rw [hlf]
    exact .simple (by decide)
  · rw [hcr]
    exact .simple (by decide)
  · rw [htab]
    exact .simple (by decide)
  · exact spells_hex hb
  · push Not at hself hhex
    exact spells_byte hb ⟨UInt8.not_lt.mp hhex.1, hself.2, hself.1⟩

theorem spells_quoteRune (h : IsRune r) : Spells (quoteRune r) r := by
  rcases h.ascii_or with ⟨b, rfl, hb⟩ | ⟨hlong, hhigh⟩
  · exact spells_quoteByte hb
  unfold quoteRune
  split
  · simp at hlong
  split_ifs with hls hps
  · rw [hls]
    exact .unicode (by decide) (by decide)
  · rw [hps]
    exact .unicode (by decide) (by decide)
  · exact spells_high h hhigh

theorem unquoteAux_runes (rs : List Bytes) (hrs : ∀ r ∈ rs, IsRune r) (fuel : ℕ)
    (hfuel : (rs.flatMap quoteRune).length ≤ fuel) :
    unquoteAux fuel (rs.flatMap quoteRune) = rs.flatten := by
  induction rs generalizing fuel with
  | nil => cases fuel <;> rfl
  | cons r rs ih =>
    -- one unit of fuel for each rune, and each rune is written with at least one byte
    obtain ⟨hr, hrs⟩ := forall_mem_cons.mp hrs
    rw [flatMap_cons, length_append] at hfuel
    have hpos := length_pos_of_ne_nil (spells_quoteRune hr).ne_nil
    obtain ⟨fuel, rfl⟩ := Nat.exists_eq_add_of_le' (show 1 ≤ fuel by omega)
    rw [flatMap_cons, (spells_quoteRune hr).unquoteAux, ih hrs fuel (by omega), flatten_cons]

theorem unquote_quote (s : Bytes) (hs : validString s = true) : unquote (quote s) = s := by
  obtain ⟨rs, hrs, rfl⟩ := runes_of_valid _ s hs
  rw [quote, quoteAux_runes rs hrs _ le_rfl]
  exact unquoteAux_runes rs hrs _ le_rfl

theorem bodyOk_quoteAux (fuel : ℕ) (s : Bytes) : bodyOk .body (quoteAux fuel s) = true := by
  induction fuel generalizing s with
  | zero => rfl
  | succ fuel ih =>
    cases s with
    | nil => rfl
    | cons b rest =>
      simp only [quoteAux]
      split
      · exact ih rest
      rename_i n hn
      have hrune := (isRune_take _ n hn).2
      rw [take_succ_cons] at hrune
      rw [(spells_quoteRune hrune).bodyOk, ih]

theorem bodyOk_quote (s : Bytes) : bodyOk .body (quote s) = true := bodyOk_quoteAux _ s

def formatNat (n : ℕ) : Bytes :=
  if n = 0 then [0x30] else (Nat.digits 10 n).reverse.map fun d => (0x30 + d).toUInt8

def formatInt (i : ℤ) : Bytes := if i < 0 then 0x2d :: formatNat i.natAbs else formatNat i.natAbs

def digitsValue (digits : Bytes) : ℕ := digits.foldl (fun n b => 10*n + (b.toNat - 0x30)) 0

theorem digit_char (d : ℕ) (h : d < 10) :
    isDigit (0x30 + d).toUInt8 = true ∧ (0x30 + d).toUInt8.toNat - 0x30 = d := by
  revert d
  decide

variable (n : ℕ)

theorem digitsValue_formatNat : digitsValue (formatNat n) = n := by
  unfold formatNat digitsValue
  split_ifs with h
  · simp [h]
  -- the fold from the left over the text is the fold from the right over the digits
  · have hval : ∀ ds : List ℕ, (∀ d ∈ ds, d < 10) →
        ds.foldr (fun d n => 10*n + ((0x30 + d).toUInt8.toNat - 0x30)) 0 = Nat.ofDigits 10 ds := by
      intro ds hds
      induction ds with
      | nil => rfl
      | cons d ds ih =>
        obtain ⟨hd, hds⟩ := forall_mem_cons.mp hds
        rw [foldr_cons, ih hds, (digit_char d hd).2, Nat.ofDigits_cons]
        omega
    rw [foldl_map, foldl_reverse, hval _ fun d hd => Nat.digits_lt_base (by decide) hd, Nat.ofDigits_digits]

theorem formatNat_digits : (formatNat n).all isDigit = true := by
  unfold formatNat
  split_ifs with h
  · decide
  · simp only [all_map, all_reverse, all_eq_true, Function.comp_apply]
    exact fun d hd => (digit_char d (Nat.digits_lt_base (by decide) hd)).1

theorem numOk_digits (ds : Bytes) (h : ds.all isDigit = true) : numOk .int ds = true := by
  induction ds with
  | nil => rfl
  | cons d ds ih =>
    simp only [all_cons, Bool.and_eq_true] at h
    simp [numOk, numStep, h.1, ih h.2]

theorem formatNat_head :
    formatNat n = [0x30] ∨ ∃ d ds, formatNat n = d :: ds ∧ d ≠ 0x30 := by
  unfold formatNat
  split_ifs with h
  · exact .inl rfl
  right
  have hne : Nat.digits 10 n ≠ [] := Nat.digits_ne_nil_iff_ne_zero.mpr h
  have hlast := Nat.getLast_digit_ne_zero 10 h
  have hlt := Nat.digits_lt_base (by decide) (getLast_mem hne)
  have hsp := dropLast_append_getLast hne
  generalize (Nat.digits 10 n).getLast hne = d at hlast hlt hsp
  refine ⟨(0x30 + d).toUInt8, (Nat.digits 10 n).dropLast.reverse.map fun d => (0x30 + d).toUInt8, ?_, ?_⟩
  · rw [← hsp, reverse_append, dropLast_concat]
    rfl
  intro hzero
  have hd := (digit_char d hlt).2
  rw [hzero] at hd
  exact hlast hd.symm

theorem numStart_formatNat :
    ∃ d ds st, formatNat n = d :: ds ∧ isDigit d = true ∧ numStart d = some st ∧
      numStep .neg d = some st ∧ numOk st ds = true := by
  have hdig := formatNat_digits n
  rcases formatNat_head n with h | ⟨d, ds, h, hd⟩
  · exact ⟨0x30, [], .zero, h, by decide, by decide, by decide, rfl⟩
  rw [h, all_cons, Bool.and_eq_true] at hdig
  have hminus : d ≠ 0x2d := by
    rintro rfl
    exact absurd hdig.1 (by decide)
  refine ⟨d, ds, .int, h, hdig.1, ?_, ?_, numOk_digits ds hdig.2⟩
  · simp [numStart, hminus, hd, hdig.1]
  · simp [numStep, hd, hdig.1]

theorem literalOk_formatInt (i : ℤ) : literalOk (formatInt i) = true := by
  obtain ⟨d, ds, st, h, -, hst, hneg, hok⟩ := numStart_formatNat i.natAbs
  unfold formatInt
  split_ifs with hi
  · have hminus : numStart 0x2d = some .neg := by decide
    simp [literalOk, numOk, hminus, h, hneg, hok]
  · simp [literalOk, h, hst, hok]

/-- The members of an encoded struct. A field without a value is left out. -/
def members (fields : List (Bytes × Option Value)) : List (Bytes × Value) :=
  fields.filterMap fun f => f.2.map (mk f.1)

open Option

theorem mem_members (fields : List (Bytes × Option Value)) (m : Bytes × Value) :
    m ∈ members fields ↔ (m.1, some m.2) ∈ fields := by
  simp only [members, mem_filterMap, map_eq_some_iff]
  constructor
  · rintro ⟨f, hf, v, hv, rfl⟩
    rwa [← hv]
  · intro h
    exact ⟨_, h, _, rfl, rfl⟩

theorem membersOk_of (depth : ℕ) (ms : List (Bytes × Value))
    (h : ∀ m ∈ ms, bodyOk .body m.1 = true ∧ m.2.ok depth = true) : membersOk depth ms = true := by
  induction ms with
  | nil => rfl
  | cons m ms ih =>
    obtain ⟨hm, hms⟩ := forall_mem_cons.mp h
    simp [membersOk, hm.1, hm.2, ih hms]

theorem itemsOk_of (depth : ℕ) (vs : List Value) (h : ∀ v ∈ vs, v.ok depth = true) :
    itemsOk depth vs = true := by
  induction vs with
  | nil => rfl
  | cons v vs ih =>
    obtain ⟨hv, hvs⟩ := forall_mem_cons.mp h
    simp [itemsOk, hv, ih hvs]

/-- Field names that stand for themselves and that the loose decoder tells apart. -/
def Distinct (names : List Bytes) : Prop :=
  (∀ n ∈ names, bodyOk .body n = true ∧ unquote n = n) ∧ (names.map foldName).Nodup

instance (names : List Bytes) : Decidable (Distinct names) := inferInstanceAs (Decidable (_ ∧ _))

section

variable {pre post fields : List (Bytes × Option Value)} {name : Bytes} {v : Option Value}

theorem Distinct.others (h : Distinct ((pre ++ (name, v) :: post).map fst))
    (m : Bytes × Value) (hm : m ∈ members pre ∨ m ∈ members post) : namesField name m = false := by
  obtain ⟨hself, hnd⟩ := h
  rw [mem_members, mem_members] at hm
  have hname : unquote m.1 = m.1 := by
    refine (hself m.1 (mem_map.mpr ⟨(m.1, some m.2), ?_, rfl⟩)).2
    rcases hm with hm | hm <;> simp [hm]
  have hne : foldName m.1 ≠ foldName name := by
    simp only [map_append, map_cons, nodup_append, nodup_cons] at hnd
    obtain ⟨-, ⟨hpost, -⟩, hpre⟩ := hnd
    intro heq
    rcases hm with hm | hm
    · refine hpre _ ?_ _ mem_cons_self heq
      exact mem_map.mpr ⟨m.1, mem_map.mpr ⟨_, hm, rfl⟩, rfl⟩
    · rw [← heq] at hpost
      exact hpost (mem_map.mpr ⟨m.1, mem_map.mpr ⟨_, hm, rfl⟩, rfl⟩)
  simp [namesField, hname, hne]

theorem foldlM_unnamed {α : Type} {step : α → Bytes × Value → Option α}
    (hskip : ∀ acc m, namesField name m = false → step acc m = some acc)
    (ms : List (Bytes × Value)) (h : ∀ m ∈ ms, namesField name m = false) (acc : α) :
    ms.foldlM step acc = some acc := by
  induction ms with
  | nil => rfl
  | cons m ms ih =>
    obtain ⟨hm, hms⟩ := forall_mem_cons.mp h
    rw [foldlM_cons, hskip acc m hm]
    exact ih hms

theorem foldlM_members {α : Type} {step : α → Bytes × Value → Option α}
    (hskip : ∀ acc m, namesField name m = false → step acc m = some acc)
    (hd : Distinct (fields.map fst)) (hf : (name, v) ∈ fields) (acc : α) :
    (members fields).foldlM step acc = v.elim (some acc) fun w => step acc (name, w) := by
  obtain ⟨pre, post, rfl⟩ := append_of_mem hf
  have hpre := foldlM_unnamed hskip (members pre) fun m hm => hd.others m (.inl hm)
  have hpost := foldlM_unnamed hskip (members post) fun m hm => hd.others m (.inr hm)
  have hsp : members (pre ++ (name, v) :: post) = members pre ++ ((v.map (mk name)).toList ++ members post) := by
    cases v <;> simp [members]
  rw [hsp, foldlM_append, hpre]
  cases v with
  | none => exact hpost acc
  | some w =>
    simp only [map_some, toList_some, cons_append, nil_append, foldlM_cons, elim_some, bind_eq_bind, bind_some]
    cases step acc (name, w) with
    | none => rfl
    | some acc' => exact hpost acc'

theorem namesField_self (hd : Distinct (fields.map fst)) (hf : (name, v) ∈ fields)
    (w : Value) : namesField name (name, w) = true := by
  have hname := (hd.1 name (mem_map.mpr ⟨_, hf, rfl⟩)).2
  simp [namesField, hname]

theorem decodeString_skip (name acc : Bytes) (m : Bytes × Value)
    (hm : namesField name m = false) : decodeString name acc m = some acc := by
  simp [decodeString, hm]

section
variable (hd : Distinct (fields.map fst))
include hd

theorem stringField_members {s : Bytes} (hs : validString s = true) (hf : (name, some (.str (quote s))) ∈ fields) :
    stringField name (members fields) = some s := by
  rw [stringField, foldlM_members (decodeString_skip name) hd hf]
  simp [decodeString, namesField_self hd hf, unquote_quote s hs]

theorem stringField_omitted (hf : (name, none) ∈ fields) :
    stringField name (members fields) = some [] := by
  rw [stringField, foldlM_members (decodeString_skip name) hd hf]
  rfl

theorem rawField_members (hf : (name, v) ∈ fields) :
    rawField name (members fields) = v := by
  let step (acc : Option Value) (m : Bytes × Value) := if namesField name m then some m.2 else acc
  have hskip : ∀ acc m, namesField name m = false → (pure (step acc m) : Option _) = some acc := by
    intro acc m hm
    simp [step, hm]
  -- the raw reading never fails, so it is a decoder like the others
  have hread := foldlM_members hskip hd hf none
  rw [foldlM_pure] at hread
  have hraw : some (rawField name (members fields)) = v.elim (some none) fun w => some (step none (name, w)) := hread
  cases v with
  | none => exact Option.some.inj hraw
  | some => simpa [step, namesField_self hd hf] using hraw

end

end

end Chromeless.Json
