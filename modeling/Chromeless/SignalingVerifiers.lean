import Chromeless.SignalingDenylist
import Chromeless.SignalingSign

/-! The verifiers of a session token besides the broker's: `infra/turn-issuer` and the probe
endpoint (`signaling/probe.go`). -/
namespace Chromeless.Signaling
open Json ByteString Token Option

/-- The turn issuer's own `Claims`, which knows neither `jti` nor `aud`. -/
structure TurnClaims where
  sub : Bytes
  sid : Bytes
  role : Bytes
  exp : ℤ
  iat : ℤ
  nbf : ℤ

namespace TurnIssuer

def unmarshalClaims (payload : Bytes) : Option TurnClaims := do
  let ms ← match parse 10000 payload with
    | some (.obj ms) => some ms
    | some .null => some []
    | _ => none
  let sub ← stringField (ascii "sub") ms
  let sid ← stringField (ascii "sid") ms
  let role ← stringField (ascii "role") ms
  let exp ← intField (ascii "exp") ms
  let iat ← intField (ascii "iat") ms
  let nbf ← intField (ascii "nbf") ms
  return ⟨sub, sid, role, exp, iat, nbf⟩

def verifyToken (auth : AuthConfig) (now : Time) (token : Bytes) : Except AuthError TurnClaims :=
  match Token.authenticate (List.splitOn 0x2e) unmarshalClaims auth token with
  | .error e => .error e
  | .ok c =>
    if c.sub = [] then .error .tenantMissing
    else if c.exp ≠ 0 ∧ unixSeconds now ≥ c.exp then .error .expired
    else if c.nbf ≠ 0 ∧ unixSeconds now < c.nbf then .error .notYetValid
    else .ok c

end TurnIssuer

inductive ProbeError
  | auth (e : AuthError)
  | revoked

/-- `verifyProbeToken`, with the process's denylist if it has one. A lookup that fails is taken
for a miss. -/
def verifyProbeToken (auth : AuthConfig) (denylist : Option (Bytes → Bytes → Except Bytes Bool))
    (now : Time) (token : Bytes) : Except ProbeError Unit :=
  match Token.authenticate (splitN 0x2e 3) unmarshalClaims auth token with
  | .error e => .error (.auth e)
  | .ok c =>
    if c.exp ≠ 0 ∧ unixSeconds now ≥ c.exp then .error (.auth .expired)
    else if c.nbf ≠ 0 ∧ unixSeconds now < c.nbf then .error (.auth .notYetValid)
    else match denylist with
      | none => .ok ()
      | some contains =>
        match contains c.sub c.jti with
        | .ok true => .error .revoked
        | .ok false | .error _ => .ok ()

theorem verifyToken_eq (auth : AuthConfig) (region : Bytes) (now : Time) (token sid role : Bytes) :
    verifyToken auth region now token sid role =
      (Token.parse auth token).bind fun c => checkClaims region now c sid role := by
  unfold verifyToken Token.parse Token.authenticate
  split_ifs with hne
  · rfl
  split
  next header payload signature hparts =>
    -- step by step the two make the same checks, down to the claims
    simp only [hparts]
    cases base64URLDecode signature with
    | none => rfl
    | some =>
      dsimp only
      split_ifs with hlen hver
      · rfl
      · cases base64URLDecode payload with
        | none => rfl
        | some bytes =>
          dsimp only
          cases unmarshalClaims bytes <;> rfl
      · rfl
  next hoth =>
    split
    next hparts => exact (hoth _ _ _ hparts).elim
    · rfl

theorem verifyToken_ok (auth : AuthConfig) (region : Bytes) (now : Time) (token sid role : Bytes)
    (c : Claims) : verifyToken auth region now token sid role = .ok c ↔
      Token.parse auth token = .ok c ∧ c.Admits region now sid role := by
  rw [verifyToken_eq]
  cases hprs : Token.parse auth token with
  | error => simp [Except.bind]
  | ok =>
    simp only [Except.bind, checkClaims_ok, Except.ok.injEq]
    constructor
    · rintro ⟨rfl, h⟩
      exact ⟨rfl, h⟩
    · rintro ⟨rfl, h⟩
      exact ⟨rfl, h⟩

namespace Token

variable {γ δ : Type} {split split' : Bytes → List Bytes} {unmarshal : Bytes → Option γ}
  {unmarshal' : Bytes → Option δ}

theorem authenticate_map (f : γ → δ) (auth : AuthConfig) (tok : Bytes) (c : γ)
    (hsp : (split tok).length = 3 → split' tok = split tok)
    (hdec : ∀ bytes c, unmarshal bytes = some c → unmarshal' bytes = some (f c))
    (h : authenticate split unmarshal auth tok = .ok c) :
    authenticate split' unmarshal' auth tok = .ok (f c) := by
  unfold authenticate at h ⊢
  split_ifs at h with hne
  split at h
  next hparts =>
    rw [hsp (by rw [hparts]; rfl), hparts]
    split at h
    · cases h
    rename_i hsig
    simp only [hsig]
    split_ifs at h ⊢ with hlen hver
    split at h
    · cases h
    rename_i bytes hpayl
    split at h
    · cases h
    next c' hclaim => rw [hdec bytes c' hclaim, Except.ok.inj h]
  · cases h

end Token

def Claims.forTurn (c : Claims) : TurnClaims := ⟨c.sub, c.sid, c.role, c.exp, c.iat, c.nbf⟩

theorem unmarshalClaims_forTurn (payload : Bytes) (c : Claims) (h : unmarshalClaims payload = some c) :
    TurnIssuer.unmarshalClaims payload = some c.forTurn := by
  unfold unmarshalClaims at h
  unfold TurnIssuer.unmarshalClaims
  split at h <;> rename_i hprs <;> simp only [bind_eq_bind, bind_some,
    bind_none, bind_eq_some_iff, pure_def, Option.some.injEq,
    reduceCtorEq] at h
  -- an object, or `null` in its place
  all_goals
    obtain ⟨sub, hsub, sid, hsid, role, hrole, exp, hexp, iat, hiat, nbf, hnbf, h⟩ := h
    obtain ⟨jti, -, aud, -, rfl⟩ := h
    simp [hprs, hsub, hsid, hrole, hexp, hiat, hnbf, pure_def, Claims.forTurn]

section

variable {auth : AuthConfig} {region : Bytes} {now : Time} {token sid role : Bytes} {c : Claims}

theorem Claims.Admits.not_expired (h : c.Admits region now sid role) :
    ¬ (c.exp ≠ 0 ∧ unixSeconds now ≥ c.exp) := by
  rintro ⟨hexp, hge⟩
  have hlt := h.unexpired hexp
  omega

theorem Claims.Admits.not_early (h : c.Admits region now sid role) :
    ¬ (c.nbf ≠ 0 ∧ unixSeconds now < c.nbf) := by
  rintro ⟨hnbf, hlt⟩
  have hle := h.begun hnbf
  omega

section
variable (h : verifyToken auth region now token sid role = .ok c)
include h

theorem turnIssuer_accepts :
    TurnIssuer.verifyToken auth now token = .ok c.forTurn := by
  obtain ⟨hprs, hadm⟩ := (verifyToken_ok ..).mp h
  have hauth := Token.authenticate_map Claims.forTurn auth token c (fun _ => rfl) unmarshalClaims_forTurn hprs
  have hten : c.forTurn.sub ≠ [] := hadm.tenant
  have hexp : ¬ (c.forTurn.exp ≠ 0 ∧ unixSeconds now ≥ c.forTurn.exp) := hadm.not_expired
  have hnbf : ¬ (c.forTurn.nbf ≠ 0 ∧ unixSeconds now < c.forTurn.nbf) := hadm.not_early
  simp only [TurnIssuer.verifyToken, hauth, if_neg hten, if_neg hexp, if_neg hnbf]

theorem probe_accepts (denylist : Option StaticDenylist) (hclr : ∀ d ∈ denylist, d.contains c.sub c.jti = false) :
    verifyProbeToken auth (denylist.map fun d t j => .ok (d.contains t j)) now token = .ok () := by
  obtain ⟨hprs, hadm⟩ := (verifyToken_ok ..).mp h
  -- the probe splits with a bound, which a token of three parts does not reach
  have hauth := Token.authenticate_map id auth token c
    (fun hthree => splitN_eq_splitOn 0x2e 3 token hthree.le) (fun _ _ hc => hc) hprs
  simp only [verifyProbeToken, hauth, id_eq, if_neg hadm.not_expired, if_neg hadm.not_early]
  cases denylist with
  | none => rfl
  | some d => simp [hclr d rfl]

end

end

/-- Base64 and signing are undone by decoding and parsing, and a token that the broker takes for
some session is good at the turn issuer and, unless it is revoked, at the probe endpoint. -/
theorem session_tokens (ed : Ed25519) :
    (∀ b, base64URLDecode (base64URLEncode b) = some b) ∧
    (∀ pub priv c, ed.Pair pub priv → c.Valid → Token.parse ⟨pub, ed.verify⟩ (sign ed priv c) = .ok c) ∧
    ∀ pub region now token sid role c,
      verifyToken ⟨pub, ed.verify⟩ region now token sid role = .ok c →
      TurnIssuer.verifyToken ⟨pub, ed.verify⟩ now token = .ok c.forTurn ∧
      ∀ denylist : Option StaticDenylist, (∀ d ∈ denylist, d.contains c.sub c.jti = false) →
        verifyProbeToken ⟨pub, ed.verify⟩ (denylist.map fun d t j => .ok (d.contains t j)) now token = .ok () := by
  refine ⟨base64URLDecode_encode, ?_, ?_⟩
  · intro pub priv c hkey hc
    exact parse_sign ed pub priv hkey c hc
  · intro pub region now token sid role c h
    exact ⟨turnIssuer_accepts h, probe_accepts h⟩

/-- A stand-in for Ed25519 whose signatures are zeros and that takes every signature. -/
def blankEd25519 : Ed25519 := ⟨fun _ _ => List.replicate 64 0, fun _ _ _ => true⟩

def browserClaims : Claims :=
  ⟨ascii "acme", ascii "s<1>", ascii "browser", 1700000000, 1600000000, 0, ascii "t-1", [ascii "eu-west-1"]⟩

theorem session_tokens_browser :
    Token.parse ⟨[], blankEd25519.verify⟩ (sign blankEd25519 [] browserClaims) = .ok browserClaims ∧
    TurnIssuer.verifyToken ⟨[], blankEd25519.verify⟩ 1650000000000000000
      (sign blankEd25519 [] browserClaims) = .ok browserClaims.forTurn ∧
    verifyProbeToken ⟨[], blankEd25519.verify⟩
      (some fun t j => .ok (newStaticDenylist.contains t j)) 1650000000000000000
      (sign blankEd25519 [] browserClaims) = .ok () := by
  obtain ⟨-, hround, hagree⟩ := session_tokens blankEd25519
  have hvalid : browserClaims.Valid := ⟨by decide +kernel, by decide +kernel⟩
  have hparse := hround [] [] browserClaims ⟨fun _ => rfl, fun _ => rfl⟩ hvalid
  have hadmits : browserClaims.Admits (ascii "eu-west-1") 1650000000000000000 (ascii "s<1>") (ascii "browser") := by
    refine ⟨by decide, ?_, ?_, rfl, rfl, by decide +kernel⟩
    · decide
    · intro h
      exact absurd rfl h
  have hbroker := (verifyToken_ok ..).mpr ⟨hparse, hadmits⟩
  obtain ⟨hturn, hprobe⟩ := hagree _ _ _ _ _ _ _ hbroker
  refine ⟨hparse, hturn, hprobe (some newStaticDenylist) ?_⟩
  decide

end Chromeless.Signaling
