import Chromeless.LibJsonRead

/-! A paste on its way from the viewer (`sendPaste` in `client/src/clipboard.ts`) to the guest's clipboard
(`cb_clipboard_relay.cc`). -/
namespace Chromeless.Clipboard
open Json List

/-- What a JavaScript string is made of: characters, given by their UTF-8 bytes, and surrogates without
their other half, given by their distance from the first one. -/
inductive Piece
  | rune (r : {r : Bytes // IsRune r})
  | lone (n : Fin 0x800)

namespace Piece

/-- What `TextEncoder` makes of it, which replaces a lone surrogate by U+FFFD. -/
def utf8 : Piece → Bytes
  | rune r => r
  | lone _ => [0xef, 0xbf, 0xbd]

def surrogateEscape (n : ℕ) : Bytes :=
  [0x5c, 0x75, hexChar 0xd, hexChar (8 + n/0x100), hexChar (n/0x10%0x10), hexChar (n%0x10)]

def json : Piece → Bytes
  | rune r => stringifyText r
  | lone n => surrogateEscape n

def isRune : Piece → Bool
  | rune _ => true
  | lone _ => false

end Piece

def utf8 (text : List Piece) : Bytes := text.flatMap Piece.utf8

def MAX_BYTES : ℕ := 1048576

def envelope (t seq : ℕ) (text : List Piece) : Value :=
  .obj [(ascii "v", .num (ascii "1")), (ascii "type", .str (ascii "clipboard_offer")),
    (ascii "t", .num (formatNat t)), (ascii "seq", .num (formatNat seq)),
    (ascii "data", .obj [(ascii "direction", .str (ascii "client->cloud")),
      (ascii "source", .str (ascii "user_action")), (ascii "text", .str (text.flatMap Piece.json))])]

def sendPaste (isOpen : Bool) (t seq : ℕ) (text : List Piece) : Option Bytes :=
  if (utf8 text).length > MAX_BYTES ∨ isOpen = false then none else some (envelope t seq text).print

def kMaxClipboardTextBytes : ℕ := 1048576

def kProtocolVersion : ℤ := 1

def handleInboundJson (read : Bytes → Option Datum) (raw : Bytes) : Option Bytes :=
  match read raw with
  | some (.dict envelope) =>
    match Dict.find envelope (ascii "data") with
    | some (.dict data) =>
      if Dict.findInt envelope (ascii "v") ≠ some kProtocolVersion ∨
          Dict.findString envelope (ascii "type") ≠ some (ascii "clipboard_offer") then none
      else if Dict.findString data (ascii "direction") ≠ some (ascii "client->cloud") then none
      else if Dict.findString data (ascii "source") ≠ some (ascii "user_action") then none
      else match Dict.findString data (ascii "text") with
        | none => none
        | some text => if text.length > kMaxClipboardTextBytes then none else some text
    | _ => none
  | _ => none

def onMessage (read : Bytes → Option Datum) (binary : Bool) (frame : Bytes) : Option Bytes :=
  if binary then none
  else if frame.length > kMaxClipboardTextBytes + 512 then none
  else handleInboundJson read frame

/-- The guest's JSON reader: `number` is what it takes a literal for. -/
def readJson (number : Bytes → Option Datum) (text : Bytes) : Option Datum :=
  (parse 200 text).bind (Value.datum number)

/-- It takes every whole number that a JavaScript counter or clock gets to. -/
structure ReadsNumbers (number : Bytes → Option Datum) : Prop where
  one : number (ascii "1") = some (.integer 1)
  naturals : ∀ n < 2^53, ∃ d, number (formatNat n) = some d

/-! ### The text in the frame -/

theorem surrogateEscape_hex (n : Fin 0x800) :
    hexUnit ((Piece.surrogateEscape n).drop 2) = 0xd800 + n ∧ ((Piece.surrogateEscape n).drop 2).all isHex = true := by
  have hlt : 8 + n.1/0x100 < 16 := by omega
  simp [Piece.surrogateEscape, hexUnit, hexDigit_hexChar, isHex_hexChar, hlt, Nat.mod_lt]
  omega

theorem readBody_pieces (text : List Piece) (fuel : ℕ) (hfuel : (text.flatMap Piece.json).length ≤ fuel) :
    readBody fuel (text.flatMap Piece.json) = if text.all Piece.isRune then some (utf8 text) else none := by
  induction text generalizing fuel with
  | nil => cases fuel <;> rfl
  | cons p text ih =>
    rw [flatMap_cons, length_append] at hfuel
    rw [flatMap_cons]
    cases p with
    | rune r =>
      have hspel := spells_stringifyText r.2
      have hpos : 0 < (Piece.rune r).json.length := length_pos_of_ne_nil hspel.ne_nil
      obtain ⟨fuel, rfl⟩ := Nat.exists_eq_add_of_le' (show 1 ≤ fuel by omega)
      refine (hspel.readBody fuel _).trans ?_
      rw [ih fuel (by omega)]
      cases hall : text.all Piece.isRune <;> simp [hall, Piece.isRune, utf8, Piece.utf8]
    | lone n =>
      have hlen : (Piece.lone n).json.length = 6 := rfl
      obtain ⟨fuel, rfl⟩ := Nat.exists_eq_add_of_le' (show 1 ≤ fuel by omega)
      have hunit := (surrogateEscape_hex n).1
      rw [Piece.json, Piece.surrogateEscape, cons_append, cons_append, readBody, if_pos rfl]
      rw [if_pos rfl]
      have htake : (([hexChar 0xd, hexChar (8 + n.1/0x100), hexChar (n.1/0x10%0x10), hexChar (n.1%0x10)] ++
          text.flatMap Piece.json).take 4) = (Piece.surrogateEscape n).drop 2 := rfl
      rw [htake, hunit, if_pos (by omega)]
      rfl

theorem bodyOk_pieces (text : List Piece) : bodyOk .body (text.flatMap Piece.json) = true := by
  induction text with
  | nil => rfl
  | cons p text ih =>
    cases p with
    | rune r => exact ((spells_stringifyText r.2).bodyOk _).trans ih
    | lone n =>
      have hhex := (surrogateEscape_hex n).2
      simp only [Piece.surrogateEscape, drop_succ_cons, drop_zero, all_cons, all_nil,
        Bool.and_true, Bool.and_eq_true] at hhex
      simp [Piece.json, Piece.surrogateEscape, bodyOk, strStep, hhex, ih]

theorem literalOk_formatNat (n : ℕ) : literalOk (formatNat n) = true := by
  obtain ⟨d, ds, st, heq, -, hst, -, hok⟩ := numStart_formatNat n
  rw [heq, literalOk]
  simp [hst, hok]

theorem parse_envelope (t seq : ℕ) (text : List Piece) :
    parse 200 (envelope t seq text).print = some (envelope t seq text) := by
  apply parse_print
  have hbody := bodyOk_pieces text
  simp only [envelope, Value.ok, membersOk, hbody, literalOk_formatNat, Bool.and_true]
  decide +kernel

theorem length_frame (t seq : ℕ) (text : List Piece) : (envelope t seq text).print.length =
    (text.flatMap Piece.json).length + (formatNat t).length + (formatNat seq).length + 114 := by
  simp only [envelope, Value.print, printMembers, length_append, length_cons, length_nil]
  simp [ascii]
  omega

section
variable {number : Bytes → Option Datum} (hnumber : ReadsNumbers number) {t seq : ℕ}
include hnumber

theorem handleInboundJson_frame (ht : t < 2^53) (hseq : seq < 2^53) (text : List Piece) :
    handleInboundJson (readJson number) (envelope t seq text).print =
      if text.all Piece.isRune ∧ (utf8 text).length ≤ kMaxClipboardTextBytes then some (utf8 text) else none := by
  obtain ⟨dt, hdt⟩ := hnumber.naturals t ht
  obtain ⟨dseq, hdseq⟩ := hnumber.naturals seq hseq
  have hread := readBody_pieces text _ le_rfl
  have hprs : readJson number (envelope t seq text).print = (envelope t seq text).datum number := by
    rw [readJson, parse_envelope, Option.bind_some]
  rw [handleInboundJson, hprs]
  by_cases hrunes : text.all Piece.isRune = true
  · rw [if_pos hrunes] at hread
    have hdatum : (envelope t seq text).datum number = some (.dict [(ascii "data", .dict
        [(ascii "direction", .string (ascii "client->cloud")), (ascii "source", .string (ascii "user_action")),
          (ascii "text", .string (utf8 text))]), (ascii "seq", dseq), (ascii "t", dt),
        (ascii "type", .string (ascii "clipboard_offer")), (ascii "v", .integer 1)]) := by
      simp only [envelope, Value.datum, datumMembers, readText, hread, hdt, hdseq, hnumber.one]
      rfl
    rw [hdatum]
    by_cases hsize : (utf8 text).length ≤ kMaxClipboardTextBytes
    · rw [if_pos ⟨hrunes, hsize⟩]
      exact if_neg hsize.not_gt
    · rw [if_neg fun h => hsize h.2]
      exact if_pos (not_le.mp hsize)
  · rw [if_neg hrunes] at hread
    have hdatum : (envelope t seq text).datum number = none := by
      simp only [envelope, Value.datum, datumMembers, readText, hread, hdt, hdseq, hnumber.one]
      rfl
    rw [hdatum, if_neg (fun h => hrunes h.1)]

/-- A paste that the viewer counts as sent reaches the guest's clipboard, as it is, exactly when its
escaped form still fits the limit on frames and it has no lone surrogate. -/
theorem paste_applied_iff (ht : t < 2^53) (hseq : seq < 2^53) {text : List Piece} {frame : Bytes}
    (hsent : sendPaste true t seq text = some frame) :
    onMessage (readJson number) false frame = some (utf8 text) ↔
      (text.flatMap Piece.json).length + (formatNat t).length + (formatNat seq).length + 114 ≤
          kMaxClipboardTextBytes + 512 ∧
        text.all Piece.isRune = true := by
  obtain ⟨hsize, rfl⟩ : (utf8 text).length ≤ kMaxClipboardTextBytes ∧ (envelope t seq text).print = frame := by
    simpa [sendPaste, MAX_BYTES, kMaxClipboardTextBytes] using hsent
  rw [onMessage, if_neg Bool.false_ne_true, length_frame, handleInboundJson_frame hnumber ht hseq]
  by_cases hframe : (text.flatMap Piece.json).length + (formatNat t).length + (formatNat seq).length + 114 >
      kMaxClipboardTextBytes + 512
  · rw [if_pos hframe]
    exact ⟨nofun, fun h => absurd h.1 (not_le.mpr hframe)⟩
  rw [if_neg hframe]
  by_cases hrunes : text.all Piece.isRune = true
  · rw [if_pos ⟨hrunes, hsize⟩]
    exact ⟨fun _ => ⟨not_lt.mp hframe, hrunes⟩, fun _ => rfl⟩
  · rw [if_neg fun h => hrunes h.1]
    exact ⟨nofun, fun h => absurd h.2 hrunes⟩

end

def wholeNumbers (literal : Bytes) : Option Datum := some (.integer (literalValue literal).num)

theorem readsNumbers_wholeNumbers : ReadsNumbers wholeNumbers :=
  ⟨by decide +kernel, fun _ _ => ⟨_, rfl⟩⟩

def letter : Piece := .rune ⟨ascii "a", by decide, fun _ => rfl⟩

theorem paste_applied_letter :
    onMessage (readJson wholeNumbers) false (envelope 5 0 [letter]).print = some (utf8 [letter]) :=
  (paste_applied_iff readsNumbers_wholeNumbers (show 5 < 2^53 by decide) (show 0 < 2^53 by decide) rfl).mpr
    (by decide +kernel)

def quotes (n : ℕ) : List Piece := replicate n (.rune ⟨[0x22], by decide, fun _ => rfl⟩)

theorem length_quotes (n : ℕ) : (utf8 (quotes n)).length = n ∧ ((quotes n).flatMap Piece.json).length = n * 2 := by
  have hqt : (stringifyText [0x22]).length = 2 := by decide
  simp [quotes, utf8, Piece.utf8, Piece.json, hqt]

/-- A text of quotes only, as long as the limit allows, doubles in the frame; one lone surrogate makes
the frame unreadable. Both are reported as sent and then dropped. -/
theorem paste_dropped :
    (∀ number, ∃ frame, sendPaste true 5 0 (quotes MAX_BYTES) = some frame ∧
      onMessage (readJson number) false frame = none) ∧
    ∃ frame, sendPaste true 5 0 [.lone 0] = some frame ∧ onMessage (readJson wholeNumbers) false frame = none := by
  obtain ⟨hutf8, hjson⟩ := length_quotes MAX_BYTES
  refine ⟨fun number => ⟨(envelope 5 0 (quotes MAX_BYTES)).print, if_neg ?_, ?_⟩, _, rfl, ?_⟩
  · rw [hutf8]
    decide
  · rw [onMessage, if_neg Bool.false_ne_true, length_frame, hjson, if_pos]
    rw [MAX_BYTES, kMaxClipboardTextBytes]
    omega
  · rw [onMessage, if_neg Bool.false_ne_true, if_neg (by decide +kernel),
      handleInboundJson_frame readsNumbers_wholeNumbers (by decide) (by decide)]
    rfl

end Chromeless.Clipboard
