import Chromeless.LibBase64
import Chromeless.LibJsonEncode
import Chromeless.SignalingToken
import Mathlib.Data.List.DropRight

/-! Minting session tokens (`signaling/token`), and that a minted token parses back. -/
namespace Chromeless.Signaling
open Json List Value Base64

def sextetChar (i : ℕ) : UInt8 :=
  if i < 26 then (0x41 + i).toUInt8
  else if i < 52 then (0x61 + (i-26)).toUInt8
  else if i < 62 then (0x30 + (i-52)).toUInt8
  else if i = 62 then 0x2d else 0x5f

def encodeQuanta : Bytes → Bytes
  | [] => []
  | [a] => [sextetChar (a.toNat/4), sextetChar (a.toNat%4*16), 0x3d, 0x3d]
  | [a, b] => [sextetChar (a.toNat/4), sextetChar (a.toNat%4*16 + b.toNat/16), sextetChar (b.toNat%16*4), 0x3d]
  | a :: b :: c :: rest =>
    [sextetChar (a.toNat/4), sextetChar (a.toNat%4*16 + b.toNat/16),
      sextetChar (b.toNat%16*4 + c.toNat/64), sextetChar (c.toNat%64)] ++ encodeQuanta rest

def base64URLEncode (b : Bytes) : Bytes := (encodeQuanta b).rdropWhile (· == 0x3d)

theorem sextet_sextetChar (i : ℕ) (h : i < 64) : sextet (sextetChar i) = some i := by
  revert i
  decide

theorem alphabet_ne {b : UInt8} (h : (sextet b).isSome = true) :
    b ≠ 0x3d ∧ b ≠ 0x0a ∧ b ≠ 0x0d ∧ b ≠ 0x2e := by
  refine ⟨?_, ?_, ?_, ?_⟩ <;>
  · rintro rfl
    exact absurd h (by decide)

theorem alphabet_sextetChar (i : ℕ) (h : i < 64) : (sextet (sextetChar i)).isSome = true := by
  rw [sextet_sextetChar i h]
  rfl

def urlAlphabet : Alphabet where
  char := sextetChar
  index := sextet
  index_char := sextet_sextetChar
  index_pad := by decide

variable (b : Bytes)

theorem encodeQuanta_eq : encodeQuanta b = encode urlAlphabet b := by
  fun_induction encodeQuanta b with
  | case1 => rfl
  | case2 a => rfl
  | case3 a b => rfl
  | case4 a b c rest ih =>
    rw [ih]
    rfl

theorem decodeQuanta_eq : ∀ s, decodeQuanta s = decode urlAlphabet s
  | [] => rfl
  | [_] | [_, _] | [_, _, _] => rfl
  | a :: b :: c :: d :: rest => by
    rw [decodeQuanta, decode, decodeQuanta_eq rest]
    rfl

theorem decodeQuanta_encodeQuanta : decodeQuanta (encodeQuanta b) = some b := by
  rw [encodeQuanta_eq, decodeQuanta_eq]
  exact decode_of_encode urlAlphabet b

theorem encodeQuanta_shape : ∀ b, ∃ body k, encodeQuanta b = body ++ replicate k 0x3d ∧
    (∀ x ∈ body, (sextet x).isSome = true) ∧ k ≤ 2 ∧ (body.length + k) % 4 = 0
  | [] => ⟨[], 0, rfl, by simp, by omega, rfl⟩
  | [a] => by
    have ha := a.toNat_lt
    refine ⟨[sextetChar (a.toNat/4), sextetChar (a.toNat%4*16)], 2, rfl, ?_, by omega, by simp⟩
    simp only [forall_mem_cons, not_mem_nil]
    exact ⟨alphabet_sextetChar _ (by omega), alphabet_sextetChar _ (by omega), by simp⟩
  | [a, b] => by
    have ha := a.toNat_lt
    have hb := b.toNat_lt
    refine ⟨[sextetChar (a.toNat/4), sextetChar (a.toNat%4*16 + b.toNat/16),
      sextetChar (b.toNat%16*4)], 1, rfl, ?_, by omega, by simp⟩
    simp only [forall_mem_cons, not_mem_nil]
    exact ⟨alphabet_sextetChar _ (by omega), alphabet_sextetChar _ (by omega),
      alphabet_sextetChar _ (by omega), by simp⟩
  | a :: b :: c :: rest => by
    obtain ⟨body, k, heq, hbody, hk, hlen⟩ := encodeQuanta_shape rest
    have ha := a.toNat_lt
    have hb := b.toNat_lt
    have hc := c.toNat_lt
    refine ⟨[sextetChar (a.toNat/4), sextetChar (a.toNat%4*16 + b.toNat/16),
      sextetChar (b.toNat%16*4 + c.toNat/64), sextetChar (c.toNat%64)] ++ body, k, ?_, ?_, hk, ?_⟩
    · rw [encodeQuanta, heq, append_assoc]
    · simp only [forall_mem_append, forall_mem_cons, not_mem_nil]
      exact ⟨⟨alphabet_sextetChar _ (by omega), alphabet_sextetChar _ (by omega),
        alphabet_sextetChar _ (by omega), alphabet_sextetChar _ (by omega), by simp⟩, hbody⟩
    · simp only [length_append, length_cons, length_nil]
      omega

theorem base64URLEncode_shape : ∃ k, k ≤ 2 ∧
    encodeQuanta b = base64URLEncode b ++ replicate k 0x3d ∧
    (∀ x ∈ base64URLEncode b, (sextet x).isSome = true) ∧
    ((base64URLEncode b).length + k) % 4 = 0 := by
  obtain ⟨body, k, heq, hbody, hk, hlen⟩ := encodeQuanta_shape b
  -- the padding is not in the alphabet, so the trimming stops where the body ends
  have htrim : base64URLEncode b = body := by
    have hpad : ∀ j, (body ++ replicate j 0x3d).rdropWhile (· == 0x3d) = body := by
      intro j
      induction j with
      | zero =>
        rw [replicate_zero, append_nil, rdropWhile_eq_self_iff]
        intro hne
        have hlast := (alphabet_ne (hbody _ (getLast_mem hne))).1
        simp [hlast]
      | succ j ih =>
        rw [replicate_succ', ← append_assoc, rdropWhile_concat_pos]
        · exact ih
        · rfl
    rw [base64URLEncode, heq, hpad]
  rw [htrim]
  exact ⟨k, hk, heq, hbody, hlen⟩

theorem base64URLDecode_encode : base64URLDecode (base64URLEncode b) = some b := by
  obtain ⟨k, hk, heq, hbody, hlen⟩ := base64URLEncode_shape b
  -- the decoder pads with exactly what was trimmed
  have hpadd : (if (base64URLEncode b).length % 4 = 0 then base64URLEncode b
      else base64URLEncode b ++ replicate (4 - (base64URLEncode b).length % 4) 0x3d) =
      encodeQuanta b := by
    rw [heq]
    split_ifs with hzero
    · obtain rfl : k = 0 := by omega
      simp
    · congr 2
      omega
  have hfilt : (encodeQuanta b).filter (fun x => x != 0x0a && x != 0x0d) = encodeQuanta b := by
    rw [heq, filter_eq_self]
    intro x hx
    rcases mem_append.mp hx with hx | hx
    · obtain ⟨-, hlf, hcr, -⟩ := alphabet_ne (hbody x hx)
      simp [hlf, hcr]
    · rw [eq_of_mem_replicate hx]
      decide
  simp only [base64URLDecode, hpadd, hfilt]
  exact decodeQuanta_encodeQuanta b

/-- `json.Marshal` of the claims: the fields in order, the last three only where not empty. -/
def Claims.fields (c : Claims) : List (Bytes × Option Value) :=
  [(ascii "sub", some (.str (quote c.sub))),
    (ascii "sid", some (.str (quote c.sid))),
    (ascii "role", some (.str (quote c.role))),
    (ascii "exp", some (.num (formatInt c.exp))),
    (ascii "iat", some (.num (formatInt c.iat))),
    (ascii "nbf", if c.nbf = 0 then none else some (.num (formatInt c.nbf))),
    (ascii "jti", if c.jti = [] then none else some (.str (quote c.jti))),
    (ascii "aud", if c.aud = [] then none else some (.arr (c.aud.map fun a => .str (quote a))))]

def marshalClaims (c : Claims) : Bytes := (obj (members c.fields)).print

structure Ed25519 where
  sign : (priv msg : Bytes) → Bytes
  verify : (pub msg sig : Bytes) → Bool

/-- `pub` is the public half of `priv`, and signatures under `priv` verify. -/
structure Ed25519.Pair (ed : Ed25519) (pub priv : Bytes) : Prop where
  size : ∀ msg, (ed.sign priv msg).length = 64
  verifies : ∀ msg, ed.verify pub msg (ed.sign priv msg) = true

namespace Token

def header : Bytes := ascii "\x7b\"alg\":\"EdDSA\",\"typ\":\"JWT\"\x7d"

def sign (ed : Ed25519) (priv : Bytes) (c : Claims) : Bytes :=
  let signingInput := base64URLEncode header ++ 0x2e :: base64URLEncode (marshalClaims c)
  signingInput ++ 0x2e :: base64URLEncode (ed.sign priv signingInput)

/-- What every verifier starts with. They differ in how they split the token and in what they
decode its payload into. -/
def authenticate {γ : Type} (split : Bytes → List Bytes) (unmarshal : Bytes → Option γ)
    (auth : AuthConfig) (tok : Bytes) : Except AuthError γ :=
  if tok = [] then .error .missingToken
  else match split tok with
    | [header, payload, signature] =>
      match base64URLDecode signature with
      | none => .error .malformedSignature
      | some sig =>
        if sig.length ≠ 64 then .error .malformedSignature
        else if ¬ auth.verify auth.pubKey (header ++ 0x2e :: payload) sig then
          .error .signatureMismatch
        else match base64URLDecode payload with
          | none => .error .malformedPayload
          | some bytes => match unmarshal bytes with
            | none => .error .malformedClaims
            | some c => .ok c
    | _ => .error .malformedToken

def parse (auth : AuthConfig) (tok : Bytes) : Except AuthError Claims :=
  authenticate (splitOn 0x2e) unmarshalClaims auth tok

end Token

/-- Claims that Go's encoder keeps: valid strings, and integers that are `int64`. -/
structure Claims.Valid (c : Claims) : Prop where
  strings : ∀ s ∈ [c.sub, c.sid, c.role, c.jti] ++ c.aud, validString s = true
  ints : ∀ i ∈ [c.exp, c.iat, c.nbf], -9223372036854775808 ≤ i ∧ i < 9223372036854775808

theorem parseInt64_digits (negative : Bool) (ds : Bytes) (hne : ds ≠ []) (hds : ds.all isDigit = true) (i : ℤ)
    (hi : -9223372036854775808 ≤ i ∧ i < 9223372036854775808)
    (hval : i = if negative then -(digitsValue ds : ℤ) else digitsValue ds) :
    parseInt64 (if negative then 0x2d :: ds else ds) = some i := by
  rw [digitsValue] at hval
  cases negative with
  | true =>
    simp only [↓reduceIte] at hval
    simp [parseInt64, head?_cons, tail_cons, hne, hds, ← hval, hi]
  | false =>
    have hminus : ds.head? ≠ some 0x2d := by
      intro h
      have hmem := all_eq_true.mp hds _ (mem_of_head? h)
      exact absurd hmem (by decide)
    simp only [Bool.false_eq_true, ↓reduceIte] at hval ⊢
    simp [parseInt64, hminus, hne, hds, ← hval, hi]

theorem parseInt64_formatInt (i : ℤ) (hi : -9223372036854775808 ≤ i ∧ i < 9223372036854775808) :
    parseInt64 (formatInt i) = some i := by
  obtain ⟨d, ds, -, heq, -⟩ := numStart_formatNat i.natAbs
  have hne : formatNat i.natAbs ≠ [] := by simp [heq]
  have hread := parseInt64_digits (decide (i < 0)) _ hne (formatNat_digits _) i hi ?_
  · simpa only [formatInt, decide_eq_true_eq] using hread
  · simp only [digitsValue_formatNat, decide_eq_true_eq]
    split_ifs <;> omega

theorem decodeInt_skip (name : Bytes) (acc : ℤ) (m : Bytes × Value)
    (hm : namesField name m = false) : decodeInt name acc m = some acc := by
  simp [decodeInt, hm]

section

variable {fields : List (Bytes × Option Value)} {name : Bytes}

theorem intField_members (hd : Distinct (fields.map Prod.fst)) {i : ℤ}
    (hi : -9223372036854775808 ≤ i ∧ i < 9223372036854775808) (hf : (name, some (.num (formatInt i))) ∈ fields) :
    intField name (members fields) = some i := by
  rw [intField, foldlM_members (decodeInt_skip name) hd hf]
  simp [decodeInt, namesField_self hd hf, parseInt64_formatInt i hi]

theorem intField_omitted (hd : Distinct (fields.map Prod.fst)) (hf : (name, none) ∈ fields) :
    intField name (members fields) = some 0 := by
  rw [intField, foldlM_members (decodeInt_skip name) hd hf]
  rfl

end

namespace Claims

section
variable (c : Claims)

theorem fields_distinct : Distinct (c.fields.map Prod.fst) := by
  show Distinct ((["sub", "sid", "role", "exp", "iat", "nbf", "jti", "aud"]).map ascii)
  decide +kernel

theorem fields_ok (depth : ℕ) :
    ∀ f ∈ c.fields, ∀ v, f.2 = some v → v.ok (depth+1) = true := by
  have hstr (s : Bytes) : (str (quote s)).ok (depth+1) = true := by rw [ok, bodyOk_quote]
  have hnum (i : ℤ) : (num (formatInt i)).ok (depth+1) = true := by rw [ok, literalOk_formatInt]
  have haud : (arr (c.aud.map fun a => .str (quote a))).ok (depth+1) = true := by
    apply itemsOk_of
    intro v hv
    obtain ⟨a, -, rfl⟩ := mem_map.mp hv
    rw [ok, bodyOk_quote]
  simp only [fields, forall_mem_cons, Option.some.injEq, forall_eq', not_mem_nil]
  refine ⟨hstr _, hstr _, hstr _, hnum _, hnum _, ?_, ?_, ?_, by simp⟩
  · intro v hv
    split_ifs at hv
    exact Option.some.inj hv ▸ hnum _
  · intro v hv
    split_ifs at hv
    exact Option.some.inj hv ▸ hstr _
  · intro v hv
    split_ifs at hv
    exact Option.some.inj hv ▸ haud

theorem parse_marshal :
    Json.parse 10000 (marshalClaims c) = some (.obj (members c.fields)) := by
  apply parse_print
  apply membersOk_of
  intro m hm
  rw [mem_members] at hm
  have hname := c.fields_distinct.1 m.1 (mem_map.mpr ⟨_, hm, rfl⟩)
  exact ⟨hname.1, c.fields_ok 9998 _ hm _ rfl⟩

theorem decodeAud_field (hc : ∀ a ∈ c.aud, validString a = true) :
    decodeAud (if c.aud = [] then none
      else some (.arr (c.aud.map fun a => .str (quote a)))) = some c.aud := by
  split_ifs with h
  · rw [h]
    rfl
  have hitems : ∀ as : List Bytes, (∀ a ∈ as, validString a = true) →
      (as.map fun a => str (quote a)).mapM audItem = some as := by
    intro as has
    induction as with
    | nil => rfl
    | cons a as ih =>
      obtain ⟨ha, has⟩ := forall_mem_cons.mp has
      simp [audItem, unquote_quote a ha, ih has]
  exact hitems c.aud hc

theorem unmarshal_marshal (hc : c.Valid) :
    unmarshalClaims (marshalClaims c) = some c := by
  have hd := c.fields_distinct
  obtain ⟨hsub, hsid, hrole, hjti, haud⟩ : validString c.sub = true ∧ validString c.sid = true ∧
      validString c.role = true ∧ validString c.jti = true ∧
      ∀ a ∈ c.aud, validString a = true := by
    simpa [forall_mem_cons] using hc.strings
  have rsub := stringField_members hd hsub (show (ascii "sub", _) ∈ c.fields by simp [fields])
  have rsid := stringField_members hd hsid (show (ascii "sid", _) ∈ c.fields by simp [fields])
  have rrole := stringField_members hd hrole (show (ascii "role", _) ∈ c.fields by simp [fields])
  have rexp := intField_members hd (hc.ints c.exp (by simp)) (show (ascii "exp", _) ∈ c.fields by simp [fields])
  have riat := intField_members hd (hc.ints c.iat (by simp)) (show (ascii "iat", _) ∈ c.fields by simp [fields])
  -- a zero `nbf`, an empty `jti` and an empty `aud` are left out, and read back as absent
  have rnbf : intField (ascii "nbf") (members c.fields) = some c.nbf := by
    by_cases h : c.nbf = 0
    · rw [intField_omitted hd (by simp [fields, h]), h]
    · exact intField_members hd (hc.ints c.nbf (by simp)) (by simp [fields, h])
  have rjti : stringField (ascii "jti") (members c.fields) = some c.jti := by
    by_cases h : c.jti = []
    · rw [stringField_omitted hd (by simp [fields, h]), h]
    · exact stringField_members hd hjti (by simp [fields, h])
  have raud : decodeAud (rawField (ascii "aud") (members c.fields)) = some c.aud := by
    have hfield : (ascii "aud", if c.aud = [] then none
        else some (.arr (c.aud.map fun a => .str (quote a)))) ∈ c.fields := by simp [fields]
    rw [rawField_members hd hfield]
    exact c.decodeAud_field haud
  simp [unmarshalClaims, parse_marshal, rsub, rsid, rrole, rexp, riat, rnbf, rjti, raud]

end

end Claims

namespace Token

theorem splitOn_sign (ed : Ed25519) (priv : Bytes) (c : Claims) :
    (sign ed priv c).splitOn 0x2e = [base64URLEncode header, base64URLEncode (marshalClaims c),
      base64URLEncode (ed.sign priv (base64URLEncode header ++ 0x2e :: base64URLEncode (marshalClaims c)))] := by
  have hdot (b : Bytes) : (0x2e : UInt8) ∉ base64URLEncode b := by
    intro hmem
    obtain ⟨k, -, -, hbody, -⟩ := base64URLEncode_shape b
    exact (alphabet_ne (hbody _ hmem)).2.2.2 rfl
  simp only [sign, append_assoc, cons_append, splitOn_append_cons_self, splitOn_eq_singleton (hdot _), nil_append]

theorem parse_sign (ed : Ed25519) (pub priv : Bytes) (hkey : ed.Pair pub priv) (c : Claims)
    (hc : c.Valid) : parse ⟨pub, ed.verify⟩ (sign ed priv c) = .ok c := by
  have hne : sign ed priv c ≠ [] := by simp [sign]
  simp only [parse, authenticate, if_neg hne, splitOn_sign, base64URLDecode_encode, hkey.size,
    hkey.verifies, c.unmarshal_marshal hc, ne_eq, not_true_eq_false, ↓reduceIte]

end Token

end Chromeless.Signaling
