import Chromeless.LibJsonDatum
import Chromeless.LibJsonEncode
import Mathlib.Data.List.TakeWhile

/-! The strings that `JSON.stringify` writes, and the value that a reader takes from a syntax tree.
-/
namespace Chromeless.Json
open List Value Prod
open Value (escape ok obj str)

/-- A byte of a string as `JSON.stringify` writes it, if the string is well-formed. -/
def stringifyByte (b : UInt8) : Bytes :=
  if b = 0x5c ∨ b = 0x22 then [0x5c, b]
  else if b = 0x08 then ascii "\\b"
  else if b = 0x0c then ascii "\\f"
  else if b = 0x0a then ascii "\\n"
  else if b = 0x0d then ascii "\\r"
  else if b = 0x09 then ascii "\\t"
  else if b < 0x20 then ascii "\\u00" ++ [hexChar (b.toNat/16), hexChar (b.toNat%16)]
  else [b]

def stringifyText (s : Bytes) : Bytes := s.flatMap stringifyByte

/-- The bytes a string body stands for, by a reader that refuses surrogates and whatever is not
UTF-8. -/
def readBody : ℕ → Bytes → Option Bytes
  | _, [] => some []
  | 0, _ :: _ => none
  | fuel+1, b :: rest =>
    if b = 0x5c then
      match rest with
      | [] => none
      | e :: rest =>
        if e = 0x75 then
          let u := hexUnit (rest.take 4)
          if 0xd800 ≤ u ∧ u < 0xe000 then none
          else (readBody fuel (rest.drop 4)).map (encodeRune u ++ ·)
        else (readBody fuel rest).map (simpleEscape e :: ·)
    else match runeLength (b :: rest) with
      | 0 => none
      | n+1 => (readBody fuel (rest.drop n)).map (b :: rest.take n ++ ·)

def readText (body : Bytes) : Option Bytes := readBody body.length body

section
-- what the reader makes of a number
variable (number : Bytes → Option Datum)

mutual

/-- The value that a syntax tree stands for. Of several members with one name the last counts. -/
def Value.datum : Value → Option Datum
  | .null => some .null
  | .bool b => some (.boolean b)
  | .num literal => number literal
  | .str body => (readText body).map .string
  | .arr items => (datumItems items).map .list
  | .obj members => (datumMembers members).map .dict

def datumItems : List Value → Option (List Datum)
  | [] => some []
  | v :: vs => v.datum.bind fun x => (datumItems vs).map (x :: ·)

def datumMembers : List (Bytes × Value) → Option Dict
  | [] => some []
  | (name, v) :: ms =>
    (readText name).bind fun key => v.datum.bind fun x => (datumMembers ms).map fun d =>
      if (d.find key).isSome then d else d.set key x

end

end

def literalValue (literal : Bytes) : ℚ :=
  let negative := literal.head? = some 0x2d
  let unsigned := literal.dropWhile (· == 0x2d)
  let mantissa := unsigned.takeWhile fun b => b != 0x65 && b != 0x45
  let exponent := unsigned.drop (mantissa.length + 1)
  let whole := mantissa.takeWhile (· != 0x2e)
  let fraction := mantissa.drop (whole.length + 1)
  let power : ℤ :=
    if exponent.head? = some 0x2d then - (digitsValue exponent.tail : ℤ)
    else digitsValue (exponent.dropWhile (· == 0x2b))
  (if negative then -1 else 1) * digitsValue (whole ++ fraction) *
    (10 : ℚ) ^ (power - fraction.length)

def maxDouble : ℚ := (2^53 - 1) * 2^971

variable {r s : Bytes} {spell : Bytes → Bytes} {b : UInt8}

theorem Spells.readBody {p : Bytes} (h : Spells p r) (fuel : ℕ) (rest : Bytes) :
    Json.readBody (fuel+1) (p ++ rest) = (Json.readBody fuel rest).map (r ++ ·) := by
  cases h with
  | plain hrune hpl =>
    obtain ⟨b, tail, rfl⟩ := exists_cons_of_ne_nil hrune.1
    have hne : b ≠ 0x5c := (hpl b mem_cons_self).2.2
    have hlen := hrune.2 rest
    rw [cons_append] at hlen
    simp only [cons_append, Json.readBody, hne, if_false, hlen, length_cons, take_left, drop_left]
  | simple he => simp [Json.readBody, not_unicode_of_simple he]
  | @unicode a b c d =>
    have hpair : ¬ 0xd800 ≤ hexUnit [a, b, c, d] := by omega
    simp [Json.readBody, hpair]

variable (rs : List Bytes)

theorem readBody_spelled (h : ∀ r ∈ rs, Spells (spell r) r) (fuel : ℕ) (hfuel : (rs.flatMap spell).length ≤ fuel) :
    readBody fuel (rs.flatMap spell) = some rs.flatten := by
  induction rs generalizing fuel with
  | nil => cases fuel <;> rfl
  | cons r rs ih =>
    obtain ⟨hr, hrs⟩ := forall_mem_cons.mp h
    rw [flatMap_cons, length_append] at hfuel
    have hpos := length_pos_of_ne_nil hr.ne_nil
    obtain ⟨fuel, rfl⟩ := Nat.exists_eq_add_of_le' (show 1 ≤ fuel by omega)
    rw [flatMap_cons, hr.readBody, ih hrs fuel (by omega), Option.map_some, flatten_cons]

theorem bodyOk_spelled (h : ∀ r ∈ rs, Spells (spell r) r) :
    bodyOk .body (rs.flatMap spell) = true := by
  induction rs with
  | nil => rfl
  | cons r rs ih =>
    obtain ⟨hr, hrs⟩ := forall_mem_cons.mp h
    rw [flatMap_cons, hr.bodyOk, ih hrs]

theorem stringifyByte_eq_quoteByte (h : b ∉ ascii "<>&") : stringifyByte b = quoteByte b := by
  simp [stringifyByte, quoteByte, h]

theorem mem_markup : b ∈ ascii "<>&" ↔ b = 0x3c ∨ b = 0x3e ∨ b = 0x26 := by
  have hbytes : ascii "<>&" = [0x3c, 0x3e, 0x26] := by decide
  simp [hbytes]

theorem stringifyByte_of_mem (h : b ∈ ascii "<>&") :
    (0x20 ≤ b ∧ b < 0x80 ∧ b ≠ 0x22 ∧ b ≠ 0x5c) ∧ stringifyByte b = [b] ∧ escapeByte b = quoteByte b := by
  rcases mem_markup.mp h with rfl | rfl | rfl <;> decide

theorem spells_stringifyByte (hb : b < 0x80) : Spells (stringifyByte b) [b] := by
  by_cases h : b ∈ ascii "<>&"
  · obtain ⟨⟨hlow, -, hpl⟩, hself, -⟩ := stringifyByte_of_mem h
    rw [hself]
    exact spells_byte hb ⟨hlow, hpl⟩
  · rw [stringifyByte_eq_quoteByte h]
    exact spells_quoteByte hb

theorem stringifyByte_high (h : 0x80 ≤ b) : stringifyByte b = [b] := by
  have hne : ∀ c : UInt8, c < 0x80 → b ≠ c := by
    rintro c hc rfl
    exact absurd (UInt8.lt_of_lt_of_le hc h) (UInt8.lt_irrefl _)
  have hlow : ¬ b < 0x20 := UInt8.not_lt.mpr (UInt8.le_trans (by decide) h)
  simp [stringifyByte, hne 0x5c (by decide), hne 0x22 (by decide), hne 0x08 (by decide),
    hne 0x0c (by decide), hne 0x0a (by decide), hne 0x0d (by decide), hne 0x09 (by decide), hlow]

theorem stringifyText_high (h : ∀ b ∈ r, 0x80 ≤ b) : stringifyText r = r := by
  induction r with
  | nil => rfl
  | cons b r ih =>
    obtain ⟨hb, hr⟩ := forall_mem_cons.mp h
    rw [stringifyText, flatMap_cons, stringifyByte_high hb]
    exact congrArg (b :: ·) (ih hr)

theorem spells_stringifyText (h : IsRune r) : Spells (stringifyText r) r := by
  rcases h.ascii_or with ⟨b, rfl, hb⟩ | ⟨-, hhigh⟩
  · simpa [stringifyText] using spells_stringifyByte hb
  · rw [stringifyText_high hhigh]
    exact spells_high h hhigh

theorem stringifyText_flatten :
    stringifyText rs.flatten = rs.flatMap stringifyText := by
  induction rs with
  | nil => rfl
  | cons r rs ih =>
    rw [flatten_cons, flatMap_cons, ← ih, stringifyText, flatMap_append]
    rfl

theorem readText_stringifyText (hs : validString s = true) :
    readText (stringifyText s) = some s := by
  obtain ⟨rs, hrs, rfl⟩ := runes_of_valid _ s hs
  rw [readText, stringifyText_flatten]
  exact readBody_spelled rs (fun r hr => spells_stringifyText (hrs r hr)) _ le_rfl

theorem bodyOk_stringifyText (hs : validString s = true) :
    bodyOk .body (stringifyText s) = true := by
  obtain ⟨rs, hrs, rfl⟩ := runes_of_valid _ s hs
  rw [stringifyText_flatten]
  exact bodyOk_spelled rs fun r hr => spells_stringifyText (hrs r hr)

theorem escapeBody_cons {a : UInt8} (h : a ≠ 0xe2) (rest : Bytes) :
    escapeBody (a :: rest) = escapeByte a ++ escapeBody rest := by
  match rest with
  | [] => simp [escapeBody]
  | [b] => rfl
  | b :: c :: rest => simp [escapeBody, h]

theorem escapeBody_append {bs : Bytes} (h : ∀ b ∈ bs, b ≠ 0xe2 ∧ b ∉ ascii "<>&") (rest : Bytes) :
    escapeBody (bs ++ rest) = bs ++ escapeBody rest := by
  induction bs with
  | nil => rfl
  | cons b bs ih =>
    obtain ⟨⟨hb, hpl⟩, hbs⟩ := forall_mem_cons.mp h
    have hbyte : escapeByte b = [b] := by
      rw [mem_markup, not_or, not_or] at hpl
      simp [escapeByte, hpl.1, hpl.2.1, hpl.2.2]
    rw [cons_append, escapeBody_cons hb, hbyte, ih hbs]
    rfl

theorem stringifyByte_plain (hb : b < 0x80) (h : b ∉ ascii "<>&") :
    ∀ c ∈ stringifyByte b, c ≠ 0xe2 ∧ c ∉ ascii "<>&" := by
  -- as a computation on booleans: it does not depend on how the quantifiers are decided
  have hall : (range 0x80).all (fun n => (ascii "<>&").contains n.toUInt8 ||
      (stringifyByte n.toUInt8).all fun c => c != 0xe2 && !(ascii "<>&").contains c) = true := by
    decide +kernel
  have hself : b.toNat.toUInt8 = b := UInt8.ofNat_toNat
  have hb' := all_eq_true.mp hall b.toNat (mem_range.mpr hb)
  simpa [h] using hb'

theorem IsRune.tail_lt {tail : Bytes} (h : IsRune (b :: tail)) :
    (b = 0xe2 → tail.length = 2) ∧ ∀ c ∈ tail, c < 0xc0 := by
  have hlen := h.2 []
  rw [append_nil] at hlen
  have hlast : ∀ c : UInt8, c ≤ 0xbf → c < 0xc0 := by
    intro c hc
    exact UInt8.lt_iff_toNat_lt.mpr (Nat.lt_succ_of_le hc)
  rcases tail with _ | ⟨c, _ | ⟨d, _ | ⟨e, rest⟩⟩⟩ <;> simp only [runeLength] at hlen
  all_goals
    split_ifs at hlen <;> simp_all
  all_goals
    rintro rfl
    simp_all

theorem escapeBody_rune (h : IsRune r) (rest : Bytes) :
    escapeBody (stringifyText r ++ rest) = quoteRune r ++ escapeBody rest := by
  rcases h.ascii_or with ⟨b, rfl, hb⟩ | ⟨hlong, hhigh⟩
  · have hone : stringifyText [b] = stringifyByte b := by simp [stringifyText]
    rw [hone]
    by_cases hesc : b ∈ ascii "<>&"
    · obtain ⟨⟨-, hascii, -⟩, hself, hqt⟩ := stringifyByte_of_mem hesc
      have hne : b ≠ 0xe2 := by
        rintro rfl
        exact absurd hascii (by decide)
      rw [hself, cons_append, escapeBody_cons hne, hqt]
      rfl
    · rw [escapeBody_append (stringifyByte_plain hb hesc), stringifyByte_eq_quoteByte hesc]
      rfl
  rw [stringifyText_high hhigh]
  obtain ⟨b, tail, rfl⟩ := exists_cons_of_ne_nil h.1
  obtain ⟨hthree, hlow⟩ := h.tail_lt
  have hpl : ∀ c ∈ b :: tail, c ∉ ascii "<>&" := by
    intro c hc hmem
    exact absurd (hhigh c hc) (UInt8.not_le.mpr (stringifyByte_of_mem hmem).1.2.1)
  have htail : ∀ c ∈ tail, c ≠ 0xe2 ∧ c ∉ ascii "<>&" := by
    intro c hc
    refine ⟨?_, hpl c (mem_cons_of_mem b hc)⟩
    rintro rfl
    exact absurd (hlow _ hc) (by decide)
  by_cases hb : b = 0xe2
  · subst hb
    obtain ⟨c, d, rfl⟩ := length_eq_two.mp (hthree rfl)
    rw [cons_append, cons_append, cons_append, nil_append, escapeBody]
    simp only [quoteRune, List.cons.injEq, true_and, and_true]
    split_ifs
    · rfl
    · rfl
    · have hrest := escapeBody_append htail rest
      rw [cons_append, cons_append, nil_append] at hrest
      rw [hrest]
      rfl
  · rw [escapeBody_append (forall_mem_cons.mpr ⟨⟨hb, hpl b mem_cons_self⟩, htail⟩)]
    obtain ⟨c, tail, rfl⟩ := exists_cons_of_length_pos (show 0 < tail.length by
      simpa using hlong)
    simp [quoteRune, hb]

theorem escapeBody_stringifyText (hs : validString s = true) :
    escapeBody (stringifyText s) = quote s := by
  obtain ⟨rs, hrs, rfl⟩ := runes_of_valid _ s hs
  rw [quote, quoteAux_runes rs hrs _ le_rfl, stringifyText_flatten]
  clear hs
  induction rs with
  | nil => rfl
  | cons r rs ih =>
    obtain ⟨hr, hrs⟩ := forall_mem_cons.mp hrs
    rw [flatMap_cons, escapeBody_rune hr, ih hrs, flatMap_cons]

theorem readText_quote (hs : validString s = true) : readText (quote s) = some s := by
  obtain ⟨rs, hrs, rfl⟩ := runes_of_valid _ s hs
  rw [readText, quote, quoteAux_runes rs hrs _ le_rfl]
  exact readBody_spelled rs (fun r hr => spells_quoteRune (hrs r hr)) _ le_rfl

theorem literalValue_formatNat (n : ℕ) : literalValue (formatNat n) = n := by
  have hdig : ∀ b ∈ formatNat n, isDigit b = true := all_eq_true.mp (formatNat_digits n)
  have hne : ∀ b ∈ formatNat n, b ≠ 0x2d ∧ b ≠ 0x65 ∧ b ≠ 0x45 ∧ b ≠ 0x2e := by
    intro b hb
    have hdigit := hdig b hb
    refine ⟨?_, ?_, ?_, ?_⟩ <;> (rintro rfl; exact absurd hdigit (by decide))
  have hsign : (formatNat n).dropWhile (· == 0x2d) = formatNat n := by
    rw [dropWhile_eq_self_iff]
    intro hpos
    simpa using (hne _ (getElem_mem hpos)).1
  have hmant : (formatNat n).takeWhile (fun b => b != 0x65 && b != 0x45) = formatNat n :=
    takeWhile_eq_self_iff.mpr fun b hb => by simp [hne b hb]
  have hwh : (formatNat n).takeWhile (· != 0x2e) = formatNat n :=
    takeWhile_eq_self_iff.mpr fun b hb => by simp [hne b hb]
  have hhead : (formatNat n).head? ≠ some 0x2d := by
    intro h
    exact (hne _ (mem_of_head? h)).1 rfl
  have hrest : (formatNat n).drop ((formatNat n).length + 1) = [] := drop_eq_nil_of_le (Nat.le_succ _)
  have hnil : digitsValue [] = 0 := rfl
  simp only [literalValue, hsign, hmant, hwh, hhead, hrest]
  simp [digitsValue_formatNat, hnil]

section
variable {number : Bytes → Option Datum}

/-- A value without others inside that can be read, and that compacting does not change. -/
structure Value.Plain (number : Bytes → Option Datum) (v : Value) : Prop where
  ok : ∀ depth, v.ok depth = true
  reads : (v.datum number).isSome = true
  compacts : v.escape.datum number = v.datum number

theorem plain_null : Plain number .null :=
  ⟨fun _ => by rw [ok], by rw [datum]; rfl, by rw [escape]⟩

theorem plain_num {literal : Bytes} (hok : literalOk literal = true)
    (h : (number literal).isSome = true) : Plain number (.num literal) :=
  ⟨fun _ => by rwa [ok], by rwa [datum], by rw [escape]⟩

variable {s : Bytes} {fields : List (Bytes × Option Value)}

theorem datum_str (number : Bytes → Option Datum) {body : Bytes} (h : readText body = some s) :
    (str body).datum number = some (.string s) := by
  rw [datum, h, Option.map_some]

theorem plain_stringifyText (hs : validString s = true) :
    Plain number (.str (stringifyText s)) := by
  have hread : (str (stringifyText s)).datum number = some (.string s) := datum_str number (readText_stringifyText hs)
  refine ⟨fun _ => by rw [ok, bodyOk_stringifyText hs], by rw [hread]; rfl, ?_⟩
  rw [escape, escapeBody_stringifyText hs, hread, datum_str number (readText_quote hs)]

theorem datumMembers_find (hnms : ∀ f ∈ fields, readText f.1 = some f.1) (hnd : (fields.map fst).Nodup)
    (hread : ∀ f ∈ fields, ∀ v ∈ f.2, (v.datum number).isSome = true) :
    ∃ d, datumMembers number (members fields) = some d ∧
      (∀ f ∈ fields, d.find f.1 = f.2.bind (datum number)) ∧
      ∀ name ∉ fields.map fst, d.find name = none := by
  induction fields with
  | nil => exact ⟨[], by rw [members, filterMap_nil, datumMembers], by simp, fun _ _ => rfl⟩
  | cons f fields ih =>
    obtain ⟨name, v⟩ := f
    obtain ⟨hname, hnms⟩ := forall_mem_cons.mp hnms
    obtain ⟨hv, hread⟩ := forall_mem_cons.mp hread
    rw [map_cons, nodup_cons] at hnd
    obtain ⟨d, hd, hfind, hoth⟩ := ih hnms hnd.2 hread
    have hnone : d.find name = none := hoth name hnd.1
    cases v with
    | none =>
      refine ⟨d, hd, forall_mem_cons.mpr ⟨hnone, hfind⟩, fun key hkey => ?_⟩
      exact hoth key fun h => hkey (mem_cons_of_mem _ h)
    | some v =>
      obtain ⟨x, hx⟩ := Option.isSome_iff_exists.mp (hv v rfl)
      refine ⟨d.set name x, ?_, forall_mem_cons.mpr ⟨?_, ?_⟩, ?_⟩
      · have hcons : members ((name, some v) :: fields) = (name, v) :: members fields := rfl
        rw [hcons, datumMembers, hname, Option.bind_some, hx, Option.bind_some, hd, Option.map_some, hnone]
        rfl
      · rw [Dict.find_set, if_pos rfl, Option.bind_some, hx]
      · intro f hf
        have hne : f.1 ≠ name := by
          intro heq
          have hmem : f.1 ∈ fields.map fst := mem_map_of_mem hf
          rw [heq] at hmem
          exact hnd.1 hmem
        rw [Dict.find_set, if_neg hne, hfind f hf]
      · intro key hkey
        rw [map_cons, mem_cons, not_or] at hkey
        rw [Dict.find_set, if_neg hkey.1, hoth key hkey.2]

def Named (names : List Bytes) : Prop :=
  (∀ n ∈ names, readText n = some n ∧ escapeBody n = n ∧ bodyOk .body n = true) ∧ names.Nodup

instance (names : List Bytes) : Decidable (Named names) := inferInstanceAs (Decidable (_ ∧ _))

theorem Named.of_mem (h : Named (fields.map fst)) {f : Bytes × Option Value} (hf : f ∈ fields) :
    readText f.1 = some f.1 ∧ escapeBody f.1 = f.1 ∧ bodyOk .body f.1 = true :=
  h.1 f.1 (mem_map_of_mem hf)

theorem escapeMembers_members (h : ∀ f ∈ fields, escapeBody f.1 = f.1) :
    escapeMembers (members fields) = members (fields.map fun f => (f.1, f.2.map escape)) := by
  induction fields with
  | nil => rw [members, filterMap_nil, escapeMembers]; rfl
  | cons f fields ih =>
    obtain ⟨hf, hfiel⟩ := forall_mem_cons.mp h
    obtain ⟨name, v⟩ := f
    cases v with
    | none => exact ih hfiel
    | some v =>
      have hcons : members ((name, some v) :: fields) = (name, v) :: members fields := rfl
      rw [hcons, escapeMembers, ih hfiel, hf]
      rfl

theorem members_ok (hnam : Named (fields.map fst)) {depth : ℕ} (h : ∀ f ∈ fields, ∀ v ∈ f.2, v.ok depth = true) :
    (obj (members fields)).ok (depth + 1) = true := by
  refine membersOk_of depth _ fun m hm => ?_
  rw [mem_members] at hm
  exact ⟨(hnam.of_mem hm).2.2, h _ hm _ rfl⟩

theorem datum_members (hnam : Named (fields.map fst)) (hpl : ∀ f ∈ fields, ∀ v ∈ f.2, v.Plain number) :
    ∀ v ∈ [obj (members fields), (obj (members fields)).escape],
      ∃ d : Dict, v.datum number = some (.dict d) ∧ ∀ f ∈ fields, d.find f.1 = f.2.bind (datum number) := by
  intro v hv
  rw [mem_pair] at hv
  rcases hv with rfl | rfl
  · obtain ⟨d, hd, hfind, -⟩ := datumMembers_find (fun f hf => (hnam.of_mem hf).1) hnam.2
      fun f hf v hv => (hpl f hf v hv).reads
    exact ⟨d, by rw [datum, hd, Option.map_some], hfind⟩
  have hesc : ∀ f ∈ fields.map (fun f => (f.1, f.2.map escape)), ∃ g ∈ fields, f = (g.1, g.2.map escape) := by
    intro f hf
    obtain ⟨g, hg, rfl⟩ := mem_map.mp hf
    exact ⟨g, hg, rfl⟩
  obtain ⟨d, hd, hfind, -⟩ := @datumMembers_find number
    (fields.map fun f => (f.1, f.2.map escape))
    (fun f hf => by
      obtain ⟨g, hg, rfl⟩ := hesc f hf
      exact (hnam.of_mem hg).1)
    (by simpa [Function.comp_def] using hnam.2)
    (fun f hf w hw => by
      obtain ⟨g, hg, rfl⟩ := hesc f hf
      obtain ⟨v, hv, rfl⟩ := Option.mem_map.mp hw
      rw [(hpl g hg v hv).compacts]
      exact (hpl g hg v hv).reads)
  refine ⟨d, by rw [escape, escapeMembers_members fun f hf => (hnam.of_mem hf).2.1,
    datum, hd, Option.map_some], fun f hf => ?_⟩
  rw [hfind _ (mem_map_of_mem hf)]
  cases hv : f.2 with
  | none => rfl
  | some v => exact (hpl f hf v hv).compacts

end

end Chromeless.Json
