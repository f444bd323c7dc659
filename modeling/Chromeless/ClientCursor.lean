import Chromeless.LibCss
import Chromeless.LibJs

/-! The viewer's end of the cursor channel (`client/src/cursor.ts`): the text that it sets as the
cursor of the video, and what that text says by the rules of CSS. -/
namespace Chromeless.ClientCursor
open Js Css List

def knownShapes : List String :=
  ["default", "pointer", "text", "wait", "crosshair", "move",
    "not-allowed", "grab", "grabbing",
    "ew-resize", "ns-resize", "nesw-resize", "nwse-resize",
    "col-resize", "row-resize",
    "n-resize", "e-resize", "s-resize", "w-resize",
    "ne-resize", "nw-resize", "se-resize", "sw-resize",
    "zoom-in", "zoom-out", "help", "progress", "vertical-text",
    "context-menu", "alias", "copy", "cell", "all-scroll", "no-drop",
    "custom", "none"]

def maxCustomCursorPx : ℕ := 128

def isValidImage : Option JsValue → Bool
  | none => true
  | some (.string s) => s.length ≤ 64*1024
  | some _ => false

def isValidData (d : JsValue) : Bool :=
  d.isObject && (d.getNumber "x").isSome && (d.getNumber "y").isSome &&
    (d.getBoolean "visible").isSome && (d.getString "shape").isSome &&
    isValidImage (d.get "custom_image_b64")

def isValidEnvelope (env : JsValue) : Bool :=
  env.isObject && env.getNumber "v" == some (.finite 1) && env.getString "type" == some (units "cursor") &&
    (env.getNumber "t").isSome && (env.getNumber "seq").isSome && (env.get "data").any isValidData

def clampHotspot : Option JsValue → ℕ
  | some (.number (.finite v)) => if v < 0 then 0 else min ⌊v + 1/2⌋.toNat (maxCustomCursorPx-1)
  | _ => 0

def hotspot (axis : String) (d : JsValue) : ℕ := clampHotspot ((d.get "hotspot").bind (·.get axis))

def decimal (n : ℕ) : JsString := asciiUnits (Nat.toDigits 10 n)

def customImage (d : JsValue) : Option JsString :=
  match d.getString "custom_image_b64" with
  | none => none
  | some image => if image = [] ∨ d.getString "image_format" ≠ some (units "png") then none else some image

def imageText (image : JsString) (hx hy : ℕ) : JsString :=
  units "url(\"data:image/png;base64," ++ image ++ units "\") " ++ decimal hx ++ units " " ++ decimal hy ++
    units ", default"

def cssCursorFor (shape : JsString) (d : JsValue) : JsString :=
  if shape ≠ units "custom" then shape
  else match customImage d with
    | none => units "default"
    | some image => imageText image (hotspot "x" d) (hotspot "y" d)

def knownShape (shape : JsString) : JsString :=
  if shape ∈ knownShapes.map units then shape else units "default"

def update (env : JsValue) : Option JsString :=
  if isValidEnvelope env then
    match env.get "data" with
    | none => none
    | some d =>
      if d.getBoolean "visible" = some false then some (units "none")
      else some (cssCursorFor (knownShape ((d.getString "shape").getD [])) d)
  else none

/-! ### What the text says -/

def significant (l : List Char) : List Token := (tokens l).filter fun t => t ≠ .whitespace

def read (text : JsString) : List Token := significant (preprocess (chars text))

def dataUrl : List Char := "data:image/png;base64,".toList

def IsRest (l : List Token) : Prop :=
  ∃ hx hy : ℚ, l = [.rightParen, .number ⟨hx, true⟩, .number ⟨hy, true⟩, .comma, .ident "default".toList] ∧
    0 ≤ hx ∧ hx ≤ 127 ∧ 0 ≤ hy ∧ hy ≤ 127

/-- A known shape, or one image whose url is a data url of a PNG, with a hotspot. -/
def Safe (text : JsString) : Prop :=
  (∃ shape ∈ knownShapes, read text = [.ident shape.toList]) ∨
    ∃ target rest, read text = .function "url".toList :: .string target :: rest ∧ dataUrl <+: target ∧ IsRest rest

def imageTail (hx hy : ℕ) : List Char :=
  ')' :: ' ' :: (Nat.toDigits 10 hx ++ ' ' :: (Nat.toDigits 10 hy ++ ',' :: " default".toList))

/-- The image stays in its string, or it ends that itself, and all that comes then still reads as it
should. -/
def Contained (image : JsString) (hx hy : ℕ) : Prop :=
  match scan (stringPlain '"') .plain (preprocess (chars image)) with
  | (_, .eof st, _) => st ≠ .backslash
  | (_, .stopped, _) => False
  | (_, .closed, rest) => IsRest (significant (rest ++ '"' :: imageTail hx hy))

theorem preprocess_append_of_plain {s : List Char} (h : ∀ c ∈ s, c ≠ '\r' ∧ c ≠ '\x0c' ∧ c ≠ '\x00')
    (l : List Char) : preprocess (s ++ l) = s ++ preprocess l := by
  induction s with
  | nil => rfl
  | cons c s ih =>
    obtain ⟨⟨hcr, hff, hnul⟩, hs⟩ := forall_mem_cons.mp h
    rw [cons_append, preprocess.eq_3, ih hs]
    · simp [hcr, hff, hnul]
    · intro rest hc
      exact absurd hc hcr

theorem preprocess_append_cons (s : List Char) {c : Char} (h : c ≠ '\n') (l : List Char) :
    preprocess (s ++ c :: l) = preprocess s ++ preprocess (c :: l) := by
  induction s using preprocess.induct with
  | case1 => rfl
  | case2 rest ih => rw [cons_append, cons_append, preprocess, ih, preprocess, cons_append]
  | case3 d rest hd ih =>
    rw [cons_append, preprocess.eq_3, ih, preprocess.eq_3 d rest hd, cons_append]
    -- the carriage return before the text that follows is not completed by it
    intro r hcr hrest
    cases rest with
    | nil => exact h (List.cons.inj hrest).1
    | cons e rest => exact hd rest hcr (by rw [(List.cons.inj hrest).1])

theorem scan_string_plain {l : List Char} (h : ∀ c ∈ l, c ≠ '"' ∧ c ≠ '\n' ∧ c ≠ '\\') :
    scan (stringPlain '"') .plain l = (l, .eof .plain, []) := by
  induction l with
  | nil => rfl
  | cons c l ih =>
    obtain ⟨⟨hqt, hnewl, hback⟩, hl⟩ := forall_mem_cons.mp h
    have hfeed : feed (stringPlain '"') .plain c l.head? = ([c], .go .plain) := by
      simp [feed, stringPlain, isNewline, hqt, hnewl, hback]
    rw [scan, hfeed]
    dsimp only
    rw [ih hl]
    rfl

theorem significant_imageTail (hx hy : ℕ) :
    significant (imageTail hx hy) =
      [.rightParen, .number ⟨hx, true⟩, .number ⟨hy, true⟩, .comma, .ident "default".toList] := by
  have hend : tokens (',' :: " default".toList) = [.comma, .whitespace, .ident "default".toList] := by decide +kernel
  have hall : tokens (imageTail hx hy) = [.rightParen, .whitespace, .number ⟨hx, true⟩, .whitespace,
      .number ⟨hy, true⟩, .comma, .whitespace, .ident "default".toList] := by
    change _ :: tokens (' ' :: (Nat.toDigits 10 hx ++ _)) = _
    rw [tokens_space_toDigits hx (.inl rfl), tokens_space_toDigits hy (.inr rfl), hend]
    rfl
  rw [significant, hall]
  rfl

def Plain (c : Char) : Prop :=
  c.toNat < 0x80 ∧ (c ≠ '\r' ∧ c ≠ '\x0c' ∧ c ≠ '\x00') ∧ c ≠ '"' ∧ c ≠ '\n' ∧ c ≠ '\\'

instance (c : Char) : Decidable (Plain c) := inferInstanceAs (Decidable (_ ∧ _))

theorem plain_of_digit {c : Char} (h : isDigit c = true) : Plain c := by
  have hlt : c.toNat < 0x80 := by
    rw [isDigit, Char.isDigit, Bool.and_eq_true, decide_eq_true_eq, decide_eq_true_eq] at h
    have hle : c.val.toNat ≤ 57 := h.2
    exact lt_of_le_of_lt hle (by decide)
  exact ⟨hlt, ⟨ne_of_digit h rfl, ne_of_digit h rfl, ne_of_digit h rfl⟩,
    ne_of_digit h rfl, ne_of_digit h rfl, ne_of_digit h rfl⟩

theorem forall_of_all {P : Char → Prop} [DecidablePred P] {l : List Char} (h : l.all (P ·) = true) :
    ∀ c ∈ l, P c := fun c hc => of_decide_eq_true (all_eq_true.mp h c hc)

theorem imageTail_plain (hx hy : ℕ) : ∀ c ∈ imageTail hx hy, Plain c := by
  have hfixed : ∀ c ∈ ')' :: ',' :: " default".toList, Plain c := forall_of_all (by decide +kernel)
  have hdig (n : ℕ) (c : Char) (h : c ∈ Nat.toDigits 10 n) : Plain c := plain_of_digit (digit_of_mem_toDigits h)
  intro c hc
  simp only [imageTail, mem_cons, mem_append] at hc
  obtain rfl | rfl | hc | rfl | hc | rfl | hc := hc
  · exact hfixed _ (by decide)
  · exact hfixed _ (by decide)
  · exact hdig hx c hc
  · exact hfixed _ (by decide)
  · exact hdig hy c hc
  · exact hfixed _ (by decide)
  · exact hfixed c (mem_cons_of_mem _ (mem_cons_of_mem _ hc))

theorem imageText_eq (image : JsString) (hx hy : ℕ) :
    imageText image hx hy =
      asciiUnits ("url(\"".toList ++ dataUrl) ++ (image ++ UInt16.ofNat '"'.toNat :: asciiUnits (imageTail hx hy)) := by
  have hsp : units "url(\"data:image/png;base64," = asciiUnits ("url(\"".toList ++ dataUrl) := rfl
  have htail : asciiUnits (imageTail hx hy) =
      units ") " ++ (decimal hx ++ (units " " ++ (decimal hy ++ units ", default"))) := by
    simp only [imageTail, asciiUnits, map_cons, map_append]
    rfl
  have hqt : units "\") " = UInt16.ofNat '"'.toNat :: units ") " := rfl
  rw [imageText, htail, hsp, hqt]
  simp

theorem read_imageText (image : JsString) (hx hy : ℕ) :
    read (imageText image hx hy) =
      significant ("url(\"".toList ++ dataUrl ++ (preprocess (chars image) ++ '"' :: imageTail hx hy)) := by
  have hhead : ∀ c ∈ "url(\"".toList ++ dataUrl,
      c.toNat < 0x80 ∧ c ≠ '\r' ∧ c ≠ '\x0c' ∧ c ≠ '\x00' := forall_of_all (by decide +kernel)
  have htail := imageTail_plain hx hy
  have hqt : Ascii (UInt16.ofNat '"'.toNat) := (ascii_ofNat (by decide)).1
  have htaiCha : chars (asciiUnits (imageTail hx hy)) = imageTail hx hy := chars_asciiUnits fun c hc => (htail c hc).1
  have htaiPla : preprocess ('"' :: imageTail hx hy) = '"' :: imageTail hx hy := by
    have hall : ∀ c ∈ '"' :: imageTail hx hy, c ≠ '\r' ∧ c ≠ '\x0c' ∧ c ≠ '\x00' :=
      forall_mem_cons.mpr ⟨by decide, fun c hc => (htail c hc).2.1⟩
    have happ := preprocess_append_of_plain hall []
    rw [append_nil] at happ
    exact happ.trans (append_nil _)
  rw [read, imageText_eq, chars_asciiUnits_append fun c hc => (hhead c hc).1,
    chars_append_cons_of_ascii image hqt, chars_cons_of_ascii hqt, htaiCha,
    preprocess_append_of_plain fun c hc => (hhead c hc).2]
  change significant (_ ++ preprocess (chars image ++ '"' :: imageTail hx hy)) = _
  rw [preprocess_append_cons _ (by decide), htaiPla]

theorem significant_url_string (l : List Char) :
    significant ("url(\"".toList ++ l) =
      .function "url".toList :: (consumeString '"' l).1 :: significant (consumeString '"' l).2 := by
  have hurl : consumeToken 'u' ('r' :: 'l' :: '(' :: '"' :: l) = (.function "url".toList, '"' :: l) := by
    cases l <;> rfl
  have hstr : consumeToken '"' l = consumeString '"' l := rfl
  have htoken : (consumeString '"' l).1 ≠ .whitespace := by
    unfold consumeString
    split <;> simp
  have htok : tokens ("url(\"".toList ++ l) =
      .function "url".toList :: (consumeString '"' l).1 :: tokens (consumeString '"' l).2 := by
    change tokens ('u' :: 'r' :: 'l' :: '(' :: '"' :: l) = _
    rw [tokens_cons 'u' _ (by simp), hurl, tokens_cons '"' _ (by simp), hstr]
  rw [significant, htok, filter_cons_of_pos (by simp), filter_cons_of_pos (by simp [htoken])]
  rfl

theorem safe_iff_of_read {text : JsString} {t : Token} {rest : List Token}
    (h : read text = .function "url".toList :: t :: rest) :
    Safe text ↔ (∃ target, t = .string target ∧ dataUrl <+: target) ∧ IsRest rest := by
  rw [Safe, h]
  constructor
  · rintro (⟨shape, -, hshape⟩ | ⟨target, rest', heq, htgt, hrest⟩)
    · cases hshape
    · cases heq
      exact ⟨⟨target, rfl, htgt⟩, hrest⟩
  · rintro ⟨⟨target, rfl, htgt⟩, hrest⟩
    exact .inr ⟨target, rest, rfl, htgt, hrest⟩

theorem scan_image (img : List Char) (hx hy : ℕ) :
    scan (stringPlain '"') .plain (dataUrl ++ (img ++ '"' :: imageTail hx hy)) =
      match scan (stringPlain '"') .plain img with
      | (value, .eof .backslash, _) => (dataUrl ++ (value ++ '"' :: imageTail hx hy), .eof .plain, [])
      | (value, .eof st, _) => (dataUrl ++ (value ++ st.flush []), .closed, imageTail hx hy)
      | (value, .closed, rest) => (dataUrl ++ value, .closed, rest ++ '"' :: imageTail hx hy)
      | (value, .stopped, rest) => (dataUrl ++ value, .stopped, rest ++ '"' :: imageTail hx hy) := by
  have hdata : scan (stringPlain '"') .plain dataUrl = (dataUrl, .eof .plain, []) :=
    scan_string_plain (forall_of_all (by decide +kernel))
  have htail : scan (stringPlain '"') .plain (imageTail hx hy) = (imageTail hx hy, .eof .plain, []) :=
    scan_string_plain fun c hc => (imageTail_plain hx hy c hc).2.2
  have hnext : ∀ c next next', stringPlain '"' c next = stringPlain '"' c next' := fun _ _ _ => rfl
  rw [scan_append hnext, hdata]
  dsimp only
  rw [scan_append hnext]
  obtain ⟨value, ending, rest⟩ := scan (stringPlain '"') .plain img
  cases ending with
  | closed => rfl
  | stopped => rfl
  | eof st =>
    cases st with
    | plain | hex => rfl
    | backslash =>
      -- the quote of the template is taken as a part of the image
      have hqt : scan (stringPlain '"') .backslash ('"' :: imageTail hx hy) =
          ('"' :: imageTail hx hy, .eof .plain, []) := by
        change (['"'] ++ (scan (stringPlain '"') .plain (imageTail hx hy)).1,
          (scan (stringPlain '"') .plain (imageTail hx hy)).2) = _
        rw [htail]
        rfl
      dsimp only
      rw [hqt]

theorem isRest_imageTail {hx hy : ℕ} (hhx : hx ≤ 127) (hhy : hy ≤ 127) :
    IsRest (significant (imageTail hx hy)) :=
  ⟨hx, hy, significant_imageTail hx hy, Nat.cast_nonneg _, by exact_mod_cast hhx, Nat.cast_nonneg _,
    by exact_mod_cast hhy⟩

theorem not_isRest_nil : ¬ IsRest [] := by
  rintro ⟨hx, hy, h, -⟩
  cases h

theorem safe_imageText {hx hy : ℕ} (image : JsString) (hhx : hx ≤ 127) (hhy : hy ≤ 127) :
    Safe (imageText image hx hy) ↔ Contained image hx hy := by
  have hread := read_imageText image hx hy
  rw [List.append_assoc, significant_url_string] at hread
  rw [safe_iff_of_read hread]
  unfold consumeString
  rw [scan_image, Contained]
  obtain ⟨value, ending, rest⟩ := scan (stringPlain '"') .plain (preprocess (chars image))
  cases ending with
  | stopped => simp
  | closed => exact and_iff_right ⟨_, rfl, prefix_append _ _⟩
  | eof st =>
    cases st with
    | backslash => exact iff_of_false (fun h => not_isRest_nil h.2) (fun h => h rfl)
    | plain => exact iff_of_true ⟨⟨_, rfl, prefix_append _ _⟩, isRest_imageTail hhx hhy⟩ (by simp)
    | hex => exact iff_of_true ⟨⟨_, rfl, prefix_append _ _⟩, isRest_imageTail hhx hhy⟩ (by simp)

theorem hotspot_le (axis : String) (d : JsValue) : hotspot axis d ≤ 127 := by
  rw [hotspot]
  unfold clampHotspot
  split
  · split
    · exact Nat.zero_le _
    · exact Nat.min_le_right _ _
  · exact Nat.zero_le _

theorem safe_of_known {shape : String} (h : shape ∈ knownShapes) : Safe (units shape) := by
  have hread : ∀ k ∈ knownShapes, read (units k) = [.ident k.toList] := by decide +kernel
  exact .inl ⟨shape, h, hread shape h⟩

theorem knownShape_mem (shape : JsString) : ∃ k ∈ knownShapes, knownShape shape = units k := by
  rw [knownShape]
  split
  next h =>
    obtain ⟨k, hk, heq⟩ := mem_map.mp h
    exact ⟨k, hk, heq.symm⟩
  · exact ⟨"default", by decide, rfl⟩

theorem knownShape_eq_custom {shape : JsString} :
    knownShape shape = units "custom" ↔ shape = units "custom" := by
  constructor
  · intro h
    rw [knownShape] at h
    split at h
    · exact h
    · exact absurd h (by decide)
  · rintro rfl
    decide +kernel

theorem safe_cssCursorFor (shape : JsString) (d : JsValue) :
    Safe (cssCursorFor (knownShape shape) d) ↔
      (shape = units "custom" → ∀ image, customImage d = some image →
        Contained image (hotspot "x" d) (hotspot "y" d)) := by
  rw [cssCursorFor]
  by_cases hcust : shape = units "custom"
  · rw [if_neg (not_not_intro (knownShape_eq_custom.mpr hcust))]
    cases himage : customImage d with
    | none =>
      have hdef : Safe (units "default") := safe_of_known (by decide)
      refine iff_of_true hdef fun _ image h => ?_
      cases h
    | some image =>
      rw [safe_imageText image (hotspot_le _ _) (hotspot_le _ _)]
      constructor
      · intro h _ image' heq
        cases heq
        exact h
      · exact fun h => h hcust image rfl
  · rw [if_pos (mt knownShape_eq_custom.mp hcust)]
    obtain ⟨k, hk, heq⟩ := knownShape_mem shape
    rw [heq]
    exact iff_of_true (safe_of_known hk) fun h => absurd h hcust

def shownImage (env : JsValue) : Option (JsString × ℕ × ℕ) :=
  match env.get "data" with
  | none => none
  | some d =>
    if d.getBoolean "visible" = some false ∨ d.getString "shape" ≠ some (units "custom") then none
    else (customImage d).map fun image => (image, hotspot "x" d, hotspot "y" d)

/-- `update` assigns a known shape, or one data url, unless an image does not stay in the string
that it is put into. -/
theorem update_safe_iff (env : JsValue) :
    (∀ text, update env = some text → Safe text) ↔
      (isValidEnvelope env = true → ∀ image hx hy, shownImage env = some (image, hx, hy) → Contained image hx hy) := by
  rw [update, shownImage]
  by_cases hval : isValidEnvelope env = true
  · rw [if_pos hval]
    simp only [hval, forall_true_left]
    cases env.get "data" with
    | none => simp
    | some d =>
      by_cases hvis : d.getBoolean "visible" = some false
      · have hnone : Safe (units "none") := safe_of_known (by decide)
        simp [hvis, hnone]
      simp only [hvis, if_false, Option.some.injEq, forall_eq', false_or]
      rw [safe_cssCursorFor]
      cases hshape : d.getString "shape" with
      | none => simp [units, asciiUnits]
      | some shape =>
        by_cases hcust : shape = units "custom" <;> simp [hcust]
  · simp [hval]

def customEnvelope (image : String) : JsValue :=
  .object [(units "v", .number (.finite 1)), (units "type", .string (units "cursor")),
    (units "t", .number (.finite 0)), (units "seq", .number (.finite 1)),
    (units "data", .object [(units "x", .number (.finite 5)), (units "y", .number (.finite 5)),
      (units "visible", .boolean true), (units "shape", .string (units "custom")),
      (units "custom_image_b64", .string (units image)), (units "image_format", .string (units "png")),
      (units "hotspot", .object [(units "x", .number (.finite 4)), (units "y", .number (.finite 200))])])]

theorem update_safe_png :
    update (customEnvelope "iVBORw0KGgo=") =
        some (units "url(\"data:image/png;base64,iVBORw0KGgo=\") 4 127, default") ∧
      Safe (units "url(\"data:image/png;base64,iVBORw0KGgo=\") 4 127, default") := by
  have hupd : update (customEnvelope "iVBORw0KGgo=") =
      some (units "url(\"data:image/png;base64,iVBORw0KGgo=\") 4 127, default") := by decide +kernel
  refine ⟨hupd, (update_safe_iff _).mpr (fun _ image hx hy h => ?_) _ hupd⟩
  have himage : shownImage (customEnvelope "iVBORw0KGgo=") = some (units "iVBORw0KGgo=", 4, 127) := by decide +kernel
  cases h
  have hscan : scan (stringPlain '"') .plain (preprocess (chars (units "iVBORw0KGgo="))) =
      ("iVBORw0KGgo=".toList, .eof .plain, []) := by decide +kernel
  rw [Contained, hscan]
  simp

theorem image_names_other_url :
    (∃ text, update (customEnvelope "\"), url(\"https://evil.example/x.png") = some text ∧
      read text = [.function "url".toList, .string dataUrl, .rightParen, .comma, .function "url".toList,
        .string "https://evil.example/x.png".toList, .rightParen, .number ⟨4, true⟩, .number ⟨127, true⟩,
        .comma, .ident "default".toList] ∧
      ¬ Safe text) := by
  refine ⟨units "url(\"data:image/png;base64,\"), url(\"https://evil.example/x.png\") 4 127, default",
    by decide +kernel, by decide +kernel, ?_⟩
  have hread : read (units
      "url(\"data:image/png;base64,\"), url(\"https://evil.example/x.png\") 4 127, default") =
      .function "url".toList :: .string dataUrl :: [.rightParen, .comma, .function "url".toList,
        .string "https://evil.example/x.png".toList, .rightParen, .number ⟨4, true⟩, .number ⟨127, true⟩,
        .comma, .ident "default".toList] := by decide +kernel
  rw [safe_iff_of_read hread]
  rintro ⟨-, hx, hy, heq, -⟩
  cases heq

end Chromeless.ClientCursor
