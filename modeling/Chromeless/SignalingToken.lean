import Chromeless.LibByteString
import Chromeless.LibJsonDecode
import Mathlib.Algebra.Order.Ring.Int

/-! Session tokens: the wire format of `signaling/token` and the broker's own checks in
`signaling/auth.go`. Ed25519 is a parameter. -/
namespace Chromeless.Signaling
open Json ByteString

/-- Nanoseconds, for wall-clock readings and durations alike. -/
abbrev Time := ℤ

def unixSeconds (now : Time) : ℤ := now / 1000000000

structure Claims where
  sub : Bytes
  sid : Bytes
  role : Bytes
  exp : ℤ
  iat : ℤ
  nbf : ℤ
  jti : Bytes
  aud : List Bytes

def parseInt64 (literal : Bytes) : Option ℤ :=
  let digits := if literal.head? = some 0x2d then literal.tail else literal
  if digits = [] ∨ ¬ digits.all isDigit then none
  else
    let n : ℕ := digits.foldl (fun n b => 10*n + (b.toNat - 0x30)) 0
    let i : ℤ := if literal.head? = some 0x2d then -n else n
    if -9223372036854775808 ≤ i ∧ i < 9223372036854775808 then some i else none

def decodeInt (name : Bytes) (acc : ℤ) (m : Bytes × Value) : Option ℤ :=
  if namesField name m then
    match m.2 with
    | .num literal => parseInt64 literal
    | .null => some acc
    | _ => none
  else some acc

def intField (name : Bytes) (ms : List (Bytes × Value)) : Option ℤ :=
  ms.foldlM (decodeInt name) 0

/-- An element of the `aud` array; Go leaves a `null` element at the empty string. -/
def audItem : Value → Option Bytes
  | .str body => some (unquote body)
  | .null => some []
  | _ => none

/-- `aud` is absent, `null`, an array of strings, or a bare string. -/
def decodeAud : Option Value → Option (List Bytes)
  | none => some []
  | some .null => some []
  | some (.arr items) => items.mapM audItem
  | some (.str body) => some [unquote body]
  | some _ => none

/-- `Claims.UnmarshalJSON`. A `null` payload decodes like an empty object. -/
def unmarshalClaims (payload : Bytes) : Option Claims := do
  let ms ← match parse 10000 payload with
    | some (.obj ms) => some ms
    | some .null => some []
    | _ => none
  let sub ← stringField (ascii "sub") ms
  let sid ← stringField (ascii "sid") ms
  let role ← stringField (ascii "role") ms
  let exp ← intField (ascii "exp") ms
  let iat ← intField (ascii "iat") ms
  let nbf ← intField (ascii "nbf") ms
  let jti ← stringField (ascii "jti") ms
  let aud ← decodeAud (rawField (ascii "aud") ms)
  return ⟨sub, sid, role, exp, iat, nbf, jti, aud⟩

def sextet (b : UInt8) : Option ℕ :=
  if 0x41 ≤ b ∧ b ≤ 0x5a then some (b.toNat - 0x41)
  else if 0x61 ≤ b ∧ b ≤ 0x7a then some (b.toNat - 0x61 + 26)
  else if 0x30 ≤ b ∧ b ≤ 0x39 then some (b.toNat - 0x30 + 52)
  else if b = 0x2d then some 62
  else if b = 0x5f then some 63 else none

/-- Padding stands at the very end, and the bits that it leaves over are not checked. -/
def decodeQuanta : Bytes → Option Bytes
  | [] => some []
  | a :: b :: c :: d :: rest =>
    match sextet a, sextet b with
    | some w, some x =>
      let first := (w*4 + x/16).toUInt8
      if c = 0x3d then if d = 0x3d ∧ rest = [] then some [first] else none
      else match sextet c with
        | none => none
        | some y =>
          let second := (x%16*16 + y/4).toUInt8
          if d = 0x3d then if rest = [] then some [first, second] else none
          else match sextet d with
            | none => none
            | some z => (decodeQuanta rest).map ([first, second, (y%4*64 + z).toUInt8] ++ ·)
    | _, _ => none
  | _ => none

/-- Padded to a multiple of four, then decoded; line breaks are skipped. -/
def base64URLDecode (s : Bytes) : Option Bytes :=
  let padded := if s.length % 4 = 0 then s else s ++ List.replicate (4 - s.length % 4) 0x3d
  decodeQuanta (padded.filter fun b => b != 0x0a && b != 0x0d)

structure AuthConfig where
  pubKey : Bytes
  verify : (pub msg sig : Bytes) → Bool

inductive AuthError
  | missingToken
  | malformedToken
  | malformedSignature
  | signatureMismatch
  | malformedPayload
  | malformedClaims
  | tenantMissing
  | expired
  | notYetValid
  | sidMismatch
  | roleMismatch (token caller : Bytes)
  | regionMismatch (aud : List Bytes) (region : Bytes)

def regionUnspecified : Bytes := ascii "_unspecified"

def regionPermitted (aud : List Bytes) (serverRegion : Bytes) : Bool :=
  aud.isEmpty || serverRegion == [] || serverRegion == regionUnspecified ||
    aud.any fun a => trimSpace a == serverRegion

def checkClaims (region : Bytes) (now : Time) (c : Claims) (sid role : Bytes) :
    Except AuthError Claims :=
  if c.sub = [] then .error .tenantMissing
  else if c.exp ≠ 0 ∧ unixSeconds now ≥ c.exp then .error .expired
  else if c.nbf ≠ 0 ∧ unixSeconds now < c.nbf then .error .notYetValid
  else if c.sid ≠ sid then .error .sidMismatch
  else if c.role ≠ role then .error (.roleMismatch c.role role)
  else if ¬ regionPermitted c.aud region then .error (.regionMismatch c.aud region)
  else .ok c

def verifyToken (auth : AuthConfig) (region : Bytes) (now : Time) (token sid role : Bytes) :
    Except AuthError Claims :=
  if token = [] then .error .missingToken
  else match token.splitOn 0x2e with
    | [header, payload, signature] =>
      match base64URLDecode signature with
      | none => .error .malformedSignature
      | some sig =>
        if sig.length ≠ 64 then .error .malformedSignature
        else if ¬ auth.verify auth.pubKey (header ++ 0x2e :: payload) sig then
          .error .signatureMismatch
        else match base64URLDecode payload with
          | none => .error .malformedPayload
          | some bytes => match unmarshalClaims bytes with
            | none => .error .malformedClaims
            | some c => checkClaims region now c sid role
    | _ => .error .malformedToken

structure Claims.Admits (c : Claims) (region : Bytes) (now : Time) (sid role : Bytes) : Prop where
  tenant : c.sub ≠ []
  unexpired : c.exp ≠ 0 → unixSeconds now < c.exp
  begun : c.nbf ≠ 0 → c.nbf ≤ unixSeconds now
  sid : c.sid = sid
  role : c.role = role
  region : regionPermitted c.aud region = true

theorem checkClaims_ok (region : Bytes) (now : Time) (c c' : Claims) (sid role : Bytes) :
    checkClaims region now c sid role = .ok c' ↔ c' = c ∧ c.Admits region now sid role := by
  constructor
  · intro h
    unfold checkClaims at h
    split_ifs at h with h1 h2 h3 h4 h5 h6
    obtain rfl : c = c' := by simpa using h
    refine ⟨rfl, h1, ?_, ?_, not_not.mp h4, not_not.mp h5, h6⟩
    · intro hexp
      by_contra hlt
      exact h2 ⟨hexp, not_lt.mp hlt⟩
    intro hnbf
    by_contra hle
    exact h3 ⟨hnbf, not_le.mp hle⟩
  · rintro ⟨rfl, h⟩
    have hexp : ¬ (c'.exp ≠ 0 ∧ unixSeconds now ≥ c'.exp) := fun ⟨h0, hge⟩ =>
      absurd (h.unexpired h0) (not_lt.mpr hge)
    have hnbf : ¬ (c'.nbf ≠ 0 ∧ unixSeconds now < c'.nbf) := fun ⟨h0, hlt⟩ =>
      absurd (h.begun h0) (not_le.mpr hlt)
    simp [checkClaims, h.tenant, hexp, hnbf, h.sid, h.role, h.region]

/-- `checkRevoked` with the process's denylist: lookups that fail let the token pass. -/
def checkRevoked (denylist : Bytes → Bytes → Except Bytes Bool) (c : Claims) : Bool :=
  match denylist c.sub c.jti with
  | .ok hit => hit
  | .error _ => false

end Chromeless.Signaling
