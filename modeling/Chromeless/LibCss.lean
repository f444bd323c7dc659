import Mathlib.Algebra.Field.Rat
import Mathlib.Data.List.Basic

/-! CSS Syntax: the tokens of a style sheet's text. -/
namespace Chromeless.Css
open List

/-! ### Characters -/

def isDigit (c : Char) : Bool := c.isDigit

def isHexDigit (c : Char) : Bool := isDigit c || ('a' ≤ c && c ≤ 'f') || ('A' ≤ c && c ≤ 'F')

def hexValue (c : Char) : ℕ :=
  if isDigit c then c.toNat - 48 else if 'a' ≤ c then c.toNat - 87 else c.toNat - 55

def isNewline (c : Char) : Bool := c == '\n'

def isWhitespace (c : Char) : Bool := c == '\n' || c == '\t' || c == ' '

def isIdentStart (c : Char) : Bool :=
  ('a' ≤ c && c ≤ 'z') || ('A' ≤ c && c ≤ 'Z') || c == '_' || 0x80 ≤ c.toNat

def isIdentChar (c : Char) : Bool := isIdentStart c || isDigit c || c == '-'

def isNonPrintable (c : Char) : Bool :=
  c.toNat ≤ 0x08 || c.toNat == 0x0b || (0x0e ≤ c.toNat && c.toNat ≤ 0x1f) || c.toNat == 0x7f

def replacement : Char := .ofNat 0xfffd

/-- What a text is turned into before it is cut into tokens. -/
def preprocess : List Char → List Char
  | [] => []
  | '\r' :: '\n' :: rest => '\n' :: preprocess rest
  | c :: rest => (if c = '\r' ∨ c = '\x0c' then '\n' else if c = '\x00' then replacement else c) :: preprocess rest

/-! ### Escapes

Strings, names and unquoted urls are scanned character by character, and escapes are the same in all
of them. -/

/-- Where a scan is: not in an escape, behind the backslash, or behind some hex digits. -/
inductive Scan
  | plain
  | backslash
  | hex (digits value : ℕ)
deriving DecidableEq

inductive Next
  | go (scan : Scan)
  /-- the character is the last one -/
  | close
  /-- the character is not part of it any more -/
  | stop
deriving DecidableEq

def escaped (value : ℕ) : Char :=
  if value = 0 ∨ (0xd800 ≤ value ∧ value < 0xe000) ∨ 0x10ffff < value then replacement else .ofNat value

section
-- what is done with a character outside of escapes, and the one behind it
variable (plain : Char → Option Char → List Char × Next)

def feed : Scan → Char → Option Char → List Char × Next
  | .plain, c, next => plain c next
  | .backslash, c, _ =>
    if isNewline c then ([], .go .plain)
    else if isHexDigit c then ([], .go (.hex 1 (hexValue c)))
    else ([c], .go .plain)
  | .hex digits value, c, next =>
    if isHexDigit c ∧ digits < 6 then ([], .go (.hex (digits+1) (16*value + hexValue c)))
    else if isWhitespace c then ([escaped value], .go .plain)
    else
      let (out, n) := plain c next
      (escaped value :: out, n)

inductive Ending
  | eof (scan : Scan)
  | closed
  | stopped
deriving DecidableEq

def scan : Scan → List Char → List Char × Ending × List Char
  | st, [] => ([], .eof st, [])
  | st, c :: rest =>
    match feed plain st c rest.head? with
    | (out, .go st) =>
      let (more, ending, rest) := scan st rest
      (out ++ more, ending, rest)
    | (out, .close) => (out, .closed, rest)
    | (out, .stop) => (out, .stopped, c :: rest)

end

def Scan.flush (st : Scan) (atBackslash : List Char) : List Char :=
  match st with
  | .plain => []
  | .backslash => atBackslash
  | .hex _ value => [escaped value]

def startsEscape (c : Char) (next : Option Char) : Bool := c == '\\' && !next.any isNewline

/-! ### Tokens -/

structure Numeral where
  value : ℚ
  integer : Bool
deriving DecidableEq

inductive Token
  | ident (name : List Char)
  | function (name : List Char)
  | atKeyword (name : List Char)
  | hash (name : List Char)
  | string (value : List Char)
  | badString
  | url (value : List Char)
  | badUrl
  | delim (c : Char)
  | number (n : Numeral)
  | percentage (n : Numeral)
  | dimension (n : Numeral) (unit : List Char)
  | whitespace
  | cdo
  | cdc
  | colon
  | semicolon
  | comma
  | leftBracket
  | rightBracket
  | leftParen
  | rightParen
  | leftBrace
  | rightBrace
deriving DecidableEq

def stringPlain (quote c : Char) (_ : Option Char) : List Char × Next :=
  if c = quote then ([], .close)
  else if isNewline c then ([], .stop)
  else if c = '\\' then ([], .go .backslash)
  else ([c], .go .plain)

def consumeString (quote : Char) (l : List Char) : Token × List Char :=
  match scan (stringPlain quote) .plain l with
  | (_, .stopped, rest) => (.badString, rest)
  | (value, .closed, rest) => (.string value, rest)
  | (value, .eof st, rest) => (.string (value ++ st.flush []), rest)

def namePlain (c : Char) (next : Option Char) : List Char × Next :=
  if isIdentChar c then ([c], .go .plain)
  else if startsEscape c next then ([], .go .backslash)
  else ([], .stop)

def consumeName (l : List Char) : List Char × List Char :=
  match scan namePlain .plain l with
  | (name, .eof st, rest) => (name ++ st.flush [replacement], rest)
  | (name, _, rest) => (name, rest)

def urlPlain (c : Char) (next : Option Char) : List Char × Next :=
  if c = ')' then ([], .close)
  else if isWhitespace c ∨ c = '"' ∨ c = '\'' ∨ c = '(' ∨ isNonPrintable c then ([], .stop)
  else if c = '\\' then if startsEscape c next then ([], .go .backslash) else ([], .stop)
  else ([c], .go .plain)

def badUrlPlain (c : Char) (next : Option Char) : List Char × Next :=
  if c = ')' then ([], .close)
  else if startsEscape c next then ([], .go .backslash)
  else ([], .go .plain)

def skipWhitespace (l : List Char) : List Char := l.dropWhile isWhitespace

def consumeBadUrl (l : List Char) : Token × List Char := (.badUrl, (scan badUrlPlain .plain l).2.2)

def consumeUrl (l : List Char) : Token × List Char :=
  match scan urlPlain .plain (skipWhitespace l) with
  | (value, .eof st, rest) => (.url (value ++ st.flush [replacement]), rest)
  | (value, .closed, rest) => (.url value, rest)
  | (value, .stopped, rest) =>
    match rest.head?.any isWhitespace, skipWhitespace rest with
    | true, [] => (.url value, [])
    | true, ')' :: rest => (.url value, rest)
    | _, _ => consumeBadUrl rest

def startsName : List Char → Bool
  | '-' :: c :: rest => isIdentStart c || c == '-' || startsEscape c rest.head?
  | c :: rest => isIdentStart c || startsEscape c rest.head?
  | [] => false

def startsUnsigned : List Char → Bool
  | '.' :: c :: _ => isDigit c
  | c :: _ => isDigit c
  | [] => false

def startsNumber : List Char → Bool
  | c :: rest => if c = '+' ∨ c = '-' then startsUnsigned rest else startsUnsigned (c :: rest)
  | [] => false

def digitsValue (l : List Char) : ℕ := Nat.ofDigitChars 10 l 0

def splitSign : List Char → ℤ × List Char
  | '-' :: rest => (-1, rest)
  | '+' :: rest => (1, rest)
  | l => (1, l)

def splitFraction : List Char → List Char × List Char
  | '.' :: c :: rest =>
    if isDigit c then ((c :: rest).takeWhile isDigit, (c :: rest).dropWhile isDigit)
    else ([], '.' :: c :: rest)
  | l => ([], l)

def splitExponent : List Char → Option ℤ × List Char
  | e :: rest =>
    let (sign, digits) := splitSign rest
    if (e = 'e' ∨ e = 'E') ∧ digits.head?.any isDigit then
      (some (sign * digitsValue (digits.takeWhile isDigit)), digits.dropWhile isDigit)
    else (none, e :: rest)
  | [] => (none, [])

def consumeNumber (l : List Char) : Numeral × List Char :=
  let (sign, l) := splitSign l
  let whole := l.takeWhile isDigit
  let (fraction, l) := splitFraction (l.dropWhile isDigit)
  let (exponent, l) := splitExponent l
  (⟨sign * digitsValue (whole ++ fraction) * (10 : ℚ)^((exponent.getD 0) - (fraction.length : ℤ)),
    fraction.isEmpty && exponent.isNone⟩, l)

def consumeNumeric (l : List Char) : Token × List Char :=
  let (n, rest) := consumeNumber l
  if startsName rest then
    let (unit, rest) := consumeName rest
    (.dimension n unit, rest)
  else match rest with
    | '%' :: rest => (.percentage n, rest)
    | _ => (.number n, rest)

def toLower (c : Char) : Char := if 'A' ≤ c ∧ c ≤ 'Z' then .ofNat (c.toNat + 32) else c

def quoteFollows : List Char → Bool
  | c :: rest => c == '"' || c == '\'' || (isWhitespace c && rest.head?.any fun d => d == '"' || d == '\'')
  | [] => false

def skipToLastWhitespace : List Char → List Char
  | c :: d :: rest => if isWhitespace c ∧ isWhitespace d then skipToLastWhitespace (d :: rest) else c :: d :: rest
  | l => l

def consumeIdentLike (l : List Char) : Token × List Char :=
  match consumeName l with
  | (name, '(' :: rest) =>
    if name.map toLower = ['u', 'r', 'l'] then
      let rest := skipToLastWhitespace rest
      if quoteFollows rest then (.function name, rest) else consumeUrl rest
    else (.function name, rest)
  | (name, rest) => (.ident name, rest)

def consumeToken (c : Char) (rest : List Char) : Token × List Char :=
  if isWhitespace c then (.whitespace, skipWhitespace rest)
  else if isDigit c then consumeNumeric (c :: rest)
  else if isIdentStart c then consumeIdentLike (c :: rest)
  else match c with
    | '"' | '\'' => consumeString c rest
    | '#' =>
      if rest.head?.any isIdentChar ∨ rest.head?.any (startsEscape · rest.tail.head?) then
        let (name, rest) := consumeName rest
        (.hash name, rest)
      else (.delim c, rest)
    | '(' => (.leftParen, rest)
    | ')' => (.rightParen, rest)
    | '+' | '.' => if startsNumber (c :: rest) then consumeNumeric (c :: rest) else (.delim c, rest)
    | ',' => (.comma, rest)
    | '-' =>
      if startsNumber (c :: rest) then consumeNumeric (c :: rest)
      else match rest with
        | '-' :: '>' :: rest => (.cdc, rest)
        | _ => if startsName (c :: rest) then consumeIdentLike (c :: rest) else (.delim c, rest)
    | ':' => (.colon, rest)
    | ';' => (.semicolon, rest)
    | '<' =>
      match rest with
      | '!' :: '-' :: '-' :: rest => (.cdo, rest)
      | _ => (.delim c, rest)
    | '@' =>
      if startsName rest then
        let (name, rest) := consumeName rest
        (.atKeyword name, rest)
      else (.delim c, rest)
    | '[' => (.leftBracket, rest)
    | '\\' => if startsEscape c rest.head? then consumeIdentLike (c :: rest) else (.delim c, rest)
    | ']' => (.rightBracket, rest)
    | '{' => (.leftBrace, rest)
    | '}' => (.rightBrace, rest)
    | _ => (.delim c, rest)

def afterComment : List Char → List Char
  | '*' :: '/' :: rest => rest
  | _ :: rest => afterComment rest
  | [] => []

def tokensIn : ℕ → List Char → List Token
  | 0, _ | _+1, [] => []
  | fuel+1, c :: rest =>
    if c = '/' ∧ rest.head? = some '*' then tokensIn fuel (afterComment rest.tail)
    else (consumeToken c rest).1 :: tokensIn fuel (consumeToken c rest).2

def tokens (l : List Char) : List Token := tokensIn l.length l

/-! ### Tokens are taken from the front -/

section
variable (plain : Char → Option Char → List Char × Next)

theorem scan_length (st : Scan) (l : List Char) : (scan plain st l).2.2.length ≤ l.length := by
  induction l generalizing st with
  | nil => exact le_refl _
  | cons c l ih =>
    rw [scan]
    split
    · exact (ih _).trans (Nat.le_succ _)
    · exact Nat.le_succ _
    · exact le_refl _

variable {plain}

theorem scan_length_lt {st st' : Scan} {c : Char} {l out : List Char}
    (h : feed plain st c l.head? = (out, .go st')) : (scan plain st (c :: l)).2.2.length ≤ l.length := by
  rw [scan, h]
  exact scan_length plain st' l

/-- A scan that does not look ahead goes on where it was when one text follows another. -/
theorem scan_append (hpl : ∀ c next next', plain c next = plain c next') (st : Scan) (l l' : List Char) :
    scan plain st (l ++ l') =
      match scan plain st l with
      | (out, .eof st', _) => (out ++ (scan plain st' l').1, (scan plain st' l').2)
      | (out, .closed, rest) => (out, .closed, rest ++ l')
      | (out, .stopped, rest) => (out, .stopped, rest ++ l') := by
  have hfeed (st : Scan) (c : Char) (next next' : Option Char) :
      feed plain st c next = feed plain st c next' := by
    cases st with
    | plain => exact hpl c next next'
    | backslash => rfl
    | hex => rw [feed, feed, hpl c next next']
  induction l generalizing st with
  | nil => rfl
  | cons c l ih =>
    rw [cons_append, scan, scan, hfeed st c _ l.head?]
    obtain ⟨out, next⟩ := feed plain st c l.head?
    cases next with
    | close => rfl
    | stop => rfl
    | go st' =>
      dsimp only
      rw [ih st']
      obtain ⟨more, ending, rest⟩ := scan plain st' l
      cases ending with
      | eof => simp
      | closed => rfl
      | stopped => rfl

end

theorem consumeString_snd (quote : Char) (l : List Char) :
    (consumeString quote l).2 = (scan (stringPlain quote) .plain l).2.2 := by
  unfold consumeString
  obtain ⟨value, ending, rest⟩ := scan (stringPlain quote) .plain l
  cases ending <;> rfl

theorem consumeName_snd (l : List Char) : (consumeName l).2 = (scan namePlain .plain l).2.2 := by
  unfold consumeName
  obtain ⟨name, ending, rest⟩ := scan namePlain .plain l
  cases ending <;> rfl

theorem consumeName_length (l : List Char) : (consumeName l).2.length ≤ l.length := by
  rw [consumeName_snd]
  exact scan_length _ _ _

variable {c : Char} {l : List Char}

theorem consumeName_length_of_start (h : isIdentChar c = true ∨ startsEscape c l.head? = true) :
    (consumeName (c :: l)).2.length ≤ l.length := by
  rw [consumeName_snd]
  by_cases hchar : isIdentChar c = true
  · have hfeed : feed namePlain .plain c l.head? = ([c], .go .plain) := if_pos hchar
    exact scan_length_lt hfeed
  have hfeed : feed namePlain .plain c l.head? = ([], .go .backslash) :=
    (if_neg hchar).trans (if_pos (h.resolve_left hchar))
  exact scan_length_lt hfeed

theorem skipWhitespace_length (l : List Char) : (skipWhitespace l).length ≤ l.length :=
  (dropWhile_sublist _).length_le

theorem consumeUrl_length (l : List Char) : (consumeUrl l).2.length ≤ l.length := by
  have hskip := skipWhitespace_length l
  have hscan := scan_length urlPlain .plain (skipWhitespace l)
  unfold consumeUrl
  generalize scan urlPlain .plain (skipWhitespace l) = result at hscan ⊢
  obtain ⟨value, ending, rest⟩ := result
  change rest.length ≤ _ at hscan
  cases ending with
  | eof | closed => exact hscan.trans hskip
  | stopped =>
    have hrest := skipWhitespace_length rest
    have hbad := scan_length badUrlPlain .plain rest
    dsimp only
    split
    · exact Nat.zero_le _
    next heq =>
      rw [heq, length_cons] at hrest
      dsimp only
      omega
    · exact hbad.trans (hscan.trans hskip)

theorem splitSign_length (l : List Char) : (splitSign l).2.length ≤ l.length := by
  unfold splitSign
  split <;> simp

theorem splitSign_of_ne (h : ¬ (c = '+' ∨ c = '-')) (l : List Char) :
    splitSign (c :: l) = (1, c :: l) := by
  unfold splitSign
  split
  next heq => exact absurd (.inr (List.cons.inj heq).1) h
  next heq => exact absurd (.inl (List.cons.inj heq).1) h
  · rfl

theorem not_sign_of_digit (h : isDigit c = true) : ¬ (c = '+' ∨ c = '-') := by
  rintro (rfl | rfl) <;> exact absurd h (by decide)

theorem dropWhile_length (p : Char → Bool) (l : List Char) : (l.dropWhile p).length ≤ l.length :=
  (dropWhile_sublist p).length_le

section
variable (l : List Char)

theorem splitFraction_length : (splitFraction l).2.length ≤ l.length := by
  unfold splitFraction
  split
  next c rest =>
    split
    · have hdrop := dropWhile_length isDigit (c :: rest)
      exact hdrop.trans (Nat.le_succ _)
    · exact le_refl _
  · exact le_refl _

theorem splitExponent_length : (splitExponent l).2.length ≤ l.length := by
  unfold splitExponent
  split
  next e rest =>
    have hsign := splitSign_length rest
    have hdrop := dropWhile_length isDigit (splitSign rest).2
    dsimp only
    split
    · exact (hdrop.trans hsign).trans (Nat.le_succ _)
    · exact le_refl _
  · exact le_refl _

theorem consumeNumber_length :
    (consumeNumber l).2.length ≤ (splitFraction ((splitSign l).2.dropWhile isDigit)).2.length := by
  exact splitExponent_length _

theorem consumeNumeric_length_le :
    (consumeNumeric l).2.length ≤ (consumeNumber l).2.length := by
  unfold consumeNumeric
  obtain ⟨n, rest⟩ := consumeNumber l
  dsimp only
  split
  · exact consumeName_length rest
  split
  · exact Nat.le_succ _
  · exact le_refl _

end

theorem consumeNumeric_length (h : startsNumber (c :: l) = true) :
    (consumeNumeric (c :: l)).2.length ≤ l.length := by
  refine (consumeNumeric_length_le _).trans ((consumeNumber_length _).trans ?_)
  by_cases hsign : c = '+' ∨ c = '-'
  · have hsp : (splitSign (c :: l)).2 = l := by
      obtain rfl | rfl := hsign <;> rfl
    rw [hsp]
    exact (splitFraction_length _).trans (dropWhile_length _ _)
  rw [splitSign_of_ne hsign]
  rw [startsNumber, if_neg hsign] at h
  unfold startsUnsigned at h
  split at h
  · -- a point, and a digit behind it
    rename_i d rest heq
    obtain ⟨rfl, rfl⟩ := List.cons.inj heq
    have hfrac : splitFraction ('.' :: d :: rest) = ((d :: rest).takeWhile isDigit, (d :: rest).dropWhile isDigit) := by
      rw [splitFraction, if_pos h]
    have hpt : ('.' :: d :: rest).dropWhile isDigit = '.' :: d :: rest := rfl
    rw [hpt, hfrac]
    exact dropWhile_length isDigit (d :: rest)
  next heq =>
    obtain ⟨rfl, rfl⟩ := List.cons.inj heq
    refine (splitFraction_length _).trans ?_
    rw [dropWhile_cons_of_pos h]
    exact dropWhile_length isDigit l
  · cases h

theorem skipToLastWhitespace_length (l : List Char) : (skipToLastWhitespace l).length ≤ l.length := by
  induction l using skipToLastWhitespace.induct with
  | case1 c d rest h ih =>
    rw [skipToLastWhitespace, if_pos h]
    exact ih.trans (Nat.le_succ _)
  | case2 c d rest h => rw [skipToLastWhitespace, if_neg h]
  | case3 l h => rw [skipToLastWhitespace.eq_2 l h]

theorem consumeIdentLike_length (l : List Char) :
    (consumeIdentLike l).2.length ≤ (consumeName l).2.length := by
  unfold consumeIdentLike
  split
  next name rest heq =>
    have hskip := skipToLastWhitespace_length rest
    rw [heq]
    dsimp only
    split
    · split
      · exact hskip.trans (Nat.le_succ _)
      · exact ((consumeUrl_length _).trans hskip).trans (Nat.le_succ _)
    · exact Nat.le_succ _
  next name rest hno heq => rw [heq]

theorem startsNumber_of_digit (h : isDigit c = true) : startsNumber (c :: l) = true := by
  rw [startsNumber, if_neg (not_sign_of_digit h)]
  unfold startsUnsigned
  split
  next heq =>
    obtain ⟨rfl, rfl⟩ := List.cons.inj heq
    exact absurd h (by decide)
  next heq =>
    obtain ⟨rfl, rfl⟩ := List.cons.inj heq
    exact h
  next heq => cases heq

theorem identChar_of_start (h : isIdentStart c = true) : isIdentChar c = true := by
  rw [isIdentChar, h]
  rfl

theorem consumeToken_length (c : Char) (l : List Char) : (consumeToken c l).2.length ≤ l.length := by
  have hident (h : isIdentChar c = true ∨ startsEscape c l.head? = true) :
      (consumeIdentLike (c :: l)).2.length ≤ l.length :=
    (consumeIdentLike_length _).trans (consumeName_length_of_start h)
  unfold consumeToken
  split
  · exact skipWhitespace_length l
  split
  next hdigit => exact consumeNumeric_length (startsNumber_of_digit hdigit)
  split
  next hst => exact hident (.inl (identChar_of_start hst))
  split
  case h_1 | h_2 =>
    rw [consumeString_snd]
    exact scan_length _ _ _
  case h_3 =>
    split
    · exact consumeName_length l
    · exact le_refl _
  case h_6 | h_7 =>
    split
    next hnum => exact consumeNumeric_length hnum
    · exact le_refl _
  case h_9 =>
    split
    next hnum => exact consumeNumeric_length hnum
    split
    · exact (Nat.le_succ _).trans (Nat.le_succ _)
    split
    · exact hident (.inl rfl)
    · exact le_refl _
  case h_12 =>
    split
    · exact ((Nat.le_succ _).trans (Nat.le_succ _)).trans (Nat.le_succ _)
    · exact le_refl _
  case h_13 =>
    split
    · exact consumeName_length l
    · exact le_refl _
  case h_15 =>
    split
    next hesc => exact hident (.inr hesc)
    · exact le_refl _
  all_goals exact le_refl _

theorem afterComment_length (l : List Char) : (afterComment l).length ≤ l.length := by
  induction l using afterComment.induct with
  | case1 => exact (Nat.le_succ _).trans (Nat.le_succ _)
  | case2 c rest h ih =>
    rw [afterComment.eq_2 c rest h]
    exact ih.trans (Nat.le_succ _)
  | case3 => exact le_refl _

theorem tokensIn_eq_tokens {fuel : ℕ} (h : l.length ≤ fuel) : tokensIn fuel l = tokens l := by
  have hsame (n m : ℕ) (l : List Char) (hn : l.length ≤ n) (hm : l.length ≤ m) :
      tokensIn n l = tokensIn m l := by
    induction n generalizing m l with
    | zero =>
      obtain rfl := length_eq_zero_iff.mp (Nat.le_zero.mp hn)
      cases m <;> rfl
    | succ n ih =>
      cases m with
      | zero =>
        obtain rfl := length_eq_zero_iff.mp (Nat.le_zero.mp hm)
        rfl
      | succ m =>
        cases l with
        | nil => rfl
        | cons c rest =>
          rw [length_cons, Nat.succ_le_succ_iff] at hn hm
          have htoken := consumeToken_length c rest
          have hcomm := (afterComment_length rest.tail).trans (tail_sublist rest).length_le
          rw [tokensIn, tokensIn, ih m _ (htoken.trans hn) (htoken.trans hm), ih m _ (hcomm.trans hn) (hcomm.trans hm)]
  exact hsame fuel l.length l h le_rfl

theorem tokens_cons (c : Char) (rest : List Char) (h : ¬ (c = '/' ∧ rest.head? = some '*')) :
    tokens (c :: rest) = (consumeToken c rest).1 :: tokens (consumeToken c rest).2 := by
  rw [tokens, length_cons, tokensIn, if_neg h, tokensIn_eq_tokens (consumeToken_length c rest)]

/-! ### Tokens of fixed texts -/

theorem consumeToken_whitespace (h : isWhitespace c = true) (l : List Char) :
    consumeToken c l = (.whitespace, skipWhitespace l) := if_pos h

theorem ne_of_digit {d : Char} (h : isDigit c = true) (hd : isDigit d = false) : c ≠ d := by
  rintro rfl
  rw [h] at hd
  cases hd

theorem isWhitespace_of_digit (h : isDigit c = true) : isWhitespace c = false := by
  have hnewl : c ≠ '\n' := ne_of_digit h rfl
  have htab : c ≠ '\t' := ne_of_digit h rfl
  have hspace : c ≠ ' ' := ne_of_digit h rfl
  simp [isWhitespace, hnewl, htab, hspace]

theorem consumeToken_digit (h : isDigit c = true) (l : List Char) :
    consumeToken c l = consumeNumeric (c :: l) :=
  (if_neg (Bool.eq_false_iff.mp (isWhitespace_of_digit h))).trans (if_pos h)

theorem digit_of_mem_toDigits {n : ℕ} (h : c ∈ Nat.toDigits 10 n) : isDigit c = true :=
  Nat.isDigit_of_mem_toDigits (by decide) (by decide) h

theorem consumeNumeric_toDigits (n : ℕ) (hc : c = ' ' ∨ c = ',') (rest : List Char) :
    consumeNumeric (Nat.toDigits 10 n ++ c :: rest) = (.number ⟨n, true⟩, c :: rest) := by
  have hall : ∀ d ∈ Nat.toDigits 10 n, isDigit d = true := fun d hd => digit_of_mem_toDigits hd
  have hstop : isDigit c = false := by obtain rfl | rfl := hc <;> rfl
  have hsign : splitSign (Nat.toDigits 10 n ++ c :: rest) = (1, Nat.toDigits 10 n ++ c :: rest) := by
    obtain ⟨d, ds, hdig⟩ := exists_cons_of_ne_nil (Nat.toDigits_ne_nil (n := n) (b := 10))
    rw [hdig, forall_mem_cons] at hall
    rw [hdig, cons_append, splitSign_of_ne (not_sign_of_digit hall.1)]
  have htake : (Nat.toDigits 10 n ++ c :: rest).takeWhile isDigit = Nat.toDigits 10 n := by
    rw [takeWhile_append_of_pos hall, takeWhile_cons_of_neg (by simp [hstop]), append_nil]
  have hdrop : (Nat.toDigits 10 n ++ c :: rest).dropWhile isDigit = c :: rest := by
    rw [dropWhile_append_of_pos hall, dropWhile_cons_of_neg (by simp [hstop])]
  have hfrac : splitFraction (c :: rest) = ([], c :: rest) := by
    obtain rfl | rfl := hc <;> rfl
  have hexp : splitExponent (c :: rest) = (none, c :: rest) := by
    obtain rfl | rfl := hc <;> rfl
  have hnum : consumeNumber (Nat.toDigits 10 n ++ c :: rest) = (⟨n, true⟩, c :: rest) := by
    rw [consumeNumber, hsign]
    dsimp only
    rw [htake, hdrop, hfrac]
    rw [hexp, append_nil, digitsValue, Nat.ofDigitChars_ten_toDigits]
    simp
  have hname : startsName (c :: rest) = false := by
    obtain rfl | rfl := hc <;> rfl
  rw [consumeNumeric, hnum]
  dsimp only
  obtain rfl | rfl := hc <;> rfl

theorem tokens_space_toDigits (n : ℕ) (hc : c = ' ' ∨ c = ',') (rest : List Char) :
    tokens (' ' :: (Nat.toDigits 10 n ++ c :: rest)) = .whitespace :: .number ⟨n, true⟩ :: tokens (c :: rest) := by
  have hnum := consumeNumeric_toDigits n hc rest
  obtain ⟨d, ds, hdig⟩ := exists_cons_of_ne_nil (Nat.toDigits_ne_nil (n := n) (b := 10))
  have hd : isDigit d = true := digit_of_mem_toDigits (n := n) (hdig ▸ mem_cons_self ..)
  rw [hdig, cons_append] at hnum ⊢
  have hskip : skipWhitespace (d :: (ds ++ c :: rest)) = d :: (ds ++ c :: rest) :=
    dropWhile_cons_of_neg (Bool.eq_false_iff.mp (isWhitespace_of_digit hd))
  have hspace : consumeToken ' ' (d :: (ds ++ c :: rest)) = (.whitespace, d :: (ds ++ c :: rest)) := by
    rw [consumeToken_whitespace rfl, hskip]
  have htoken : consumeToken d (ds ++ c :: rest) = (.number ⟨n, true⟩, c :: rest) := by
    rw [consumeToken_digit hd, hnum]
  have hslash : ¬ (d = '/' ∧ (ds ++ c :: rest).head? = some '*') := fun h => ne_of_digit hd rfl h.1
  rw [tokens_cons ' ' _ (by simp), hspace, tokens_cons d _ hslash, htoken]

end Chromeless.Css
