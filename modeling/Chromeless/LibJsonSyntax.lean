import Mathlib.Data.List.Basic

/-! The JSON grammar of RFC 8259 over bytes. Values keep the literal bytes of their numbers and
strings. -/
namespace Chromeless.Json

abbrev Bytes := List UInt8

def ascii (s : String) : Bytes := s.toList.map fun c => c.toNat.toUInt8

inductive Value
  | null
  | bool (b : Bool)
  | num (literal : Bytes)
  | str (body : Bytes)
  | arr (items : List Value)
  | obj (members : List (Bytes × Value))

def isSpace (b : UInt8) : Bool := b == 0x20 || b == 0x09 || b == 0x0d || b == 0x0a

def skipSpace (bs : Bytes) : Bytes := bs.dropWhile isSpace

def isDigit (b : UInt8) : Bool := 0x30 ≤ b && b ≤ 0x39

def isHex (b : UInt8) : Bool :=
  isDigit b || (0x61 ≤ b && b ≤ 0x66) || (0x41 ≤ b && b ≤ 0x46)

/-- Where the scanner stands inside a string: between characters, behind a backslash, or in a `\u`
escape. -/
inductive StrState
  | body
  | esc
  | hex (owed : ℕ)
deriving DecidableEq

def strStep : StrState → UInt8 → Option StrState
  | .body, b => if b = 0x5c then some .esc else if b < 0x20 || b = 0x22 then none else some .body
  | .esc, b =>
    if b = 0x75 then some (.hex 3)
    else if b ∈ ascii "bfnrt\\/\"" then some .body else none
  | .hex 0, b => if isHex b then some .body else none
  | .hex (n+1), b => if isHex b then some (.hex n) else none

def scanString : StrState → Bytes → Option (Bytes × Bytes)
  | _, [] => none
  | st, b :: bs =>
    if st = .body ∧ b = 0x22 then some ([], bs)
    else match strStep st b with
      | none => none
      | some st' => (scanString st' bs).map fun r => (b :: r.1, r.2)

inductive NumState
  | neg | zero | int | dot | frac | exp | expSign | expDigits
deriving DecidableEq

def numStart (b : UInt8) : Option NumState :=
  if b = 0x2d then some .neg
  else if b = 0x30 then some .zero
  else if isDigit b then some .int else none

def numStep : NumState → UInt8 → Option NumState
  | .neg, b => if b = 0x30 then some .zero else if isDigit b then some .int else none
  | .zero, b => if b = 0x2e then some .dot else if b = 0x65 ∨ b = 0x45 then some .exp else none
  | .int, b =>
    if isDigit b then some .int
    else if b = 0x2e then some .dot else if b = 0x65 ∨ b = 0x45 then some .exp else none
  | .dot, b => if isDigit b then some .frac else none
  | .frac, b => if isDigit b then some .frac else if b = 0x65 ∨ b = 0x45 then some .exp else none
  | .exp, b => if b = 0x2b ∨ b = 0x2d then some .expSign else if isDigit b then some .expDigits else none
  | .expSign, b => if isDigit b then some .expDigits else none
  | .expDigits, b => if isDigit b then some .expDigits else none

def NumState.complete : NumState → Bool
  | .zero | .int | .frac | .expDigits => true
  | .neg | .dot | .exp | .expSign => false

def scanNumber : NumState → Bytes → Option (Bytes × Bytes)
  | st, [] => if st.complete then some ([], []) else none
  | st, b :: bs =>
    match numStep st b with
    | some st' => (scanNumber st' bs).map fun r => (b :: r.1, r.2)
    | none => if st.complete then some ([], b :: bs) else none

def scanName (rest : Bytes) (v : Value) (bs : Bytes) : Option (Value × Bytes) :=
  if rest.isPrefixOf bs then some (v, bs.drop rest.length) else none

/- `fuel` bounds the recursion and is never short when it exceeds the input's
length; `depth` is the number of brackets that may still be opened. -/
mutual

def parseValue : ℕ → ℕ → Bytes → Option (Value × Bytes)
  | 0, _, _ => none
  | fuel+1, depth, bs =>
    match skipSpace bs with
    | [] => none
    | b :: rest =>
      if b = 0x7b then
        match depth with
        | 0 => none
        | depth+1 =>
          match skipSpace rest with
          | [] => none
          | c :: rest' =>
            if c = 0x7d then some (.obj [], rest')
            else (parseMembers fuel depth (c :: rest')).map fun r => (.obj r.1, r.2)
      else if b = 0x5b then
        match depth with
        | 0 => none
        | depth+1 =>
          match skipSpace rest with
          | [] => none
          | c :: rest' =>
            if c = 0x5d then some (.arr [], rest')
            else (parseItems fuel depth (c :: rest')).map fun r => (.arr r.1, r.2)
      else if b = 0x22 then (scanString .body rest).map fun r => (.str r.1, r.2)
      else if b = 0x6e then scanName (ascii "ull") .null rest
      else if b = 0x74 then scanName (ascii "rue") (.bool true) rest
      else if b = 0x66 then scanName (ascii "alse") (.bool false) rest
      else match numStart b with
        | none => none
        | some st => (scanNumber st rest).map fun r => (.num (b :: r.1), r.2)

def parseMembers : ℕ → ℕ → Bytes → Option (List (Bytes × Value) × Bytes)
  | 0, _, _ => none
  | fuel+1, depth, bs =>
    match skipSpace bs with
    | [] => none
    | q :: rest =>
      if q ≠ 0x22 then none
      else match scanString .body rest with
        | none => none
        | some (key, rest) =>
          match skipSpace rest with
          | [] => none
          | colon :: rest =>
            if colon ≠ 0x3a then none
            else match parseValue fuel depth rest with
              | none => none
              | some (v, rest) =>
                match skipSpace rest with
                | [] => none
                | c :: rest =>
                  if c = 0x2c then
                    (parseMembers fuel depth rest).map fun r => ((key, v) :: r.1, r.2)
                  else if c = 0x7d then some ([(key, v)], rest) else none

def parseItems : ℕ → ℕ → Bytes → Option (List Value × Bytes)
  | 0, _, _ => none
  | fuel+1, depth, bs =>
    match parseValue fuel depth bs with
    | none => none
    | some (v, rest) =>
      match skipSpace rest with
      | [] => none
      | c :: rest =>
        if c = 0x2c then (parseItems fuel depth rest).map fun r => (v :: r.1, r.2)
        else if c = 0x5d then some ([v], rest) else none

end

def parse (depth : ℕ) (bs : Bytes) : Option Value :=
  match parseValue (bs.length+1) depth bs with
  | none => none
  | some (v, rest) => if (skipSpace rest).isEmpty then some v else none

/-- Bytes of the UTF-8 sequence at the head of `bs`, or 0 when it is not valid. -/
def runeLength : Bytes → ℕ
  | [] => 0
  | a :: bs =>
    let tail (b : UInt8) : Bool := 0x80 ≤ b && b ≤ 0xbf
    if a < 0x80 then 1
    else match bs with
      | [] => 0
      | b :: cs =>
        if 0xc2 ≤ a && a ≤ 0xdf then (if tail b then 2 else 0)
        else match cs with
          | [] => 0
          | c :: ds =>
            if 0xe0 ≤ a && a ≤ 0xef then
              if tail b && tail c && (a != 0xe0 || 0xa0 ≤ b) && (a != 0xed || b ≤ 0x9f)
              then 3 else 0
            else match ds with
              | [] => 0
              | d :: _ =>
                if 0xf0 ≤ a && a ≤ 0xf4 && tail b && tail c && tail d
                  && (a != 0xf0 || 0x90 ≤ b) && (a != 0xf4 || b ≤ 0x8f)
                then 4 else 0

def encodeRune (r : ℕ) : Bytes :=
  if r < 0x80 then [r.toUInt8]
  else if r < 0x800 then [(0xc0 + r/0x40).toUInt8, (0x80 + r%0x40).toUInt8]
  else if 0xd800 ≤ r ∧ r ≤ 0xdfff then [0xef, 0xbf, 0xbd]
  else if r < 0x10000 then
    [(0xe0 + r/0x1000).toUInt8, (0x80 + r/0x40%0x40).toUInt8, (0x80 + r%0x40).toUInt8]
  else [(0xf0 + r/0x40000).toUInt8, (0x80 + r/0x1000%0x40).toUInt8,
    (0x80 + r/0x40%0x40).toUInt8, (0x80 + r%0x40).toUInt8]

def hexDigit (b : UInt8) : ℕ :=
  if isDigit b then b.toNat - 0x30
  else if 0x61 ≤ b then b.toNat - 0x61 + 10 else b.toNat - 0x41 + 10

def hexUnit : Bytes → ℕ := List.foldl (fun n b => 16*n + hexDigit b) 0

def simpleEscape (b : UInt8) : UInt8 :=
  if b = 0x62 then 0x08 else if b = 0x66 then 0x0c else if b = 0x6e then 0x0a
  else if b = 0x72 then 0x0d else if b = 0x74 then 0x09 else b

/-- The bytes a string body stands for. A surrogate pair is joined, and a lone
surrogate or an invalid UTF-8 byte becomes U+FFFD. -/
def unquoteAux : ℕ → Bytes → Bytes
  | 0, _ => []
  | _, [] => []
  | fuel+1, b :: rest =>
    if b = 0x5c then
      match rest with
      | [] => []
      | e :: rest =>
        if e = 0x75 then
          let u := hexUnit (rest.take 4)
          let rest := rest.drop 4
          let v := hexUnit ((rest.drop 2).take 4)
          if 0xd800 ≤ u ∧ u < 0xdc00 ∧ rest.take 2 = [0x5c, 0x75] ∧ 0xdc00 ≤ v ∧ v < 0xe000 then
            encodeRune (0x10000 + (u-0xd800)*0x400 + (v-0xdc00)) ++ unquoteAux fuel (rest.drop 6)
          else encodeRune u ++ unquoteAux fuel rest
        else simpleEscape e :: unquoteAux fuel rest
    else match runeLength (b :: rest) with
      | 0 => [0xef, 0xbf, 0xbd] ++ unquoteAux fuel rest
      | n+1 => b :: (rest.take n ++ unquoteAux fuel (rest.drop n))

def unquote (body : Bytes) : Bytes := unquoteAux body.length body

end Chromeless.Json
