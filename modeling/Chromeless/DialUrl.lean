import Chromeless.LibJsonSyntax
import Mathlib.Data.List.Basic

/-! The URL that the page dials (`cb_signaling_ws_client.cc`) and what the broker's handler reads in it
(`signaling/server.go`), with Go's parsing of URLs. -/
namespace Chromeless.Dial
open Json List

def kHex (d : ℕ) : UInt8 := (if d < 10 then 0x30 + d else 0x37 + d).toUInt8

def isAlnum (b : UInt8) : Bool := isDigit b || 0x41 ≤ b && b ≤ 0x5a || 0x61 ≤ b && b ≤ 0x7a

def percentEncode (safe : Bytes) (bs : Bytes) : Bytes :=
  bs.flatMap fun b => if isAlnum b || safe.contains b then [b] else [0x25, kHex (b.toNat/16), kHex (b.toNat%16)]

def percentEncodePathSegment : Bytes → Bytes := percentEncode (ascii ":-_.~")

def percentEncodeQueryValue : Bytes → Bytes := percentEncode (ascii "-_.~")

def query (token : Bytes) : Bytes :=
  ascii "role=browser" ++ if token = [] then [] else ascii "&token=" ++ percentEncodeQueryValue token

/-- What follows the host in the URL, and is requested. -/
def requestTarget (sessionId token : Bytes) : Bytes :=
  ascii "/api/webrtc/signaling/" ++ percentEncodePathSegment sessionId ++ 0x3f :: query token

def buildUrl (useTls : Bool) (host sessionId token : Bytes) : Bytes :=
  if host = [] ∨ sessionId = [] then []
  else (if useTls then ascii "wss://" else ascii "ws://") ++ host ++ requestTarget sessionId token

/-- A plus is a blank in a query only. -/
def unescape (query : Bool) : Bytes → Option Bytes
  | [] => some []
  | 0x25 :: a :: b :: bs =>
    if isHex a && isHex b then (unescape query bs).map ((16*hexDigit a + hexDigit b).toUInt8 :: ·) else none
  | b :: bs =>
    if b = 0x25 then none else (unescape query bs).map ((if query && b == 0x2b then 0x20 else b) :: ·)

def cut (sep : UInt8) (bs : Bytes) : Bytes × Bytes := (bs.takeWhile (· ≠ sep), (bs.dropWhile (· ≠ sep)).drop 1)

/-- A pair with a semicolon or a bad escape is left out. -/
def queryPair (pair : Bytes) : Option (Bytes × Bytes) :=
  if pair = [] ∨ 0x3b ∈ pair then none
  else match unescape true (cut 0x3d pair).1, unescape true (cut 0x3d pair).2 with
    | some key, some value => some (key, value)
    | _, _ => none

/-- `Query().Get(key)` -/
def queryGet (key query : Bytes) : Bytes := (((query.splitOn 0x26).filterMap queryPair).lookup key).getD []

/-- The session id and the token, unless the request is rejected. -/
def wsHandler (target : Bytes) : Option (Bytes × Bytes) :=
  match unescape false (cut 0x3f target).1 with
  | none => none
  | some path =>
    let sessionId :=
      match [ascii "/api/webrtc/signaling/", ascii "/ws/"].find? (·.isPrefixOf path) with
      | some p => path.drop p.length
      | none => path
    if sessionId = [] ∨ 0x2f ∈ sessionId then none
    else some (sessionId, queryGet (ascii "token") (cut 0x3f target).2)

theorem kHex_spec : ∀ d < 16, isHex (kHex d) = true ∧ hexDigit (kHex d) = d ∧ isAlnum (kHex d) = true := by decide

theorem not_mem_percentEncode {text safe : Bytes} {b : UInt8}
    (h : b ∉ text ∧ isAlnum b = false ∧ b ∉ safe ∧ b ≠ 0x25) (bs : Bytes) : b ∉ text ++ percentEncode safe bs := by
  have hdigit := fun d hd => (kHex_spec d hd).2.2
  rw [mem_append, percentEncode, mem_flatMap]
  rintro (hb | ⟨a, -, hb⟩)
  · exact h.1 hb
  · have hlt := a.toNat_lt
    split at hb <;> grind

theorem unescape_percentEncode (q : Bool) (safe bs : Bytes) (hsafe : 0x25 ∉ safe ∧ 0x2b ∉ safe) :
    unescape q (percentEncode safe bs) = some bs := by
  induction bs with
  | nil => rfl
  | cons b bs ih =>
    rw [percentEncode, flatMap_cons]
    change unescape q (_ ++ percentEncode safe bs) = _
    split
    next hs =>
      have hne : b ≠ 0x25 ∧ b ≠ 0x2b := by constructor <;> rintro rfl <;> simp_all [isAlnum, isDigit]
      simp [unescape, hne, ih]
    · have hlt := b.toNat_lt
      obtain ⟨hx, hd, -⟩ := kHex_spec (b.toNat/16) (by omega)
      obtain ⟨hx', hd', -⟩ := kHex_spec (b.toNat%16) (by omega)
      simp [unescape, ih, hx, hx', hd, hd', Nat.div_add_mod]

theorem unescape_append (q : Bool) (as bs : Bytes) (h : 0x25 ∉ as ∧ 0x2b ∉ as) :
    unescape q (as ++ bs) = (unescape q bs).map (as ++ ·) := by
  induction as with
  | nil => simp
  | cons a as ih =>
    obtain ⟨⟨ha, hp⟩, has, hps⟩ : (a ≠ 0x25 ∧ a ≠ 0x2b) ∧ 0x25 ∉ as ∧ 0x2b ∉ as := by grind
    simp [unescape, ha, hp, ih ⟨has, hps⟩, Function.comp_def]

theorem cut_append {sep : UInt8} {as : Bytes} (h : sep ∉ as) (bs : Bytes) : cut sep (as ++ sep :: bs) = (as, bs) := by
  induction as with
  | nil => simp [cut]
  | cons a as ih =>
    have ha : a ≠ sep := fun ha => h (ha ▸ mem_cons_self)
    simpa [cut, ha] using ih fun hs => h (mem_cons_of_mem a hs)

theorem queryGet_token (token : Bytes) : queryGet (ascii "token") (query token) = token := by
  rw [query]
  split
  next h => rw [h]; decide +kernel
  · generalize henc : percentEncodeQueryValue token = value
    have hclean {b : UInt8} (hb : b ∉ ascii "token=" ∧ isAlnum b = false ∧ b ∉ ascii "-_.~" ∧ b ≠ 0x25) :
        b ∉ ascii "token=" ++ value := henc ▸ not_mem_percentEncode hb token
    have hsplit : (ascii "role=browser" ++ (ascii "&token=" ++ value)).splitOn 0x26 =
        [ascii "role=browser", ascii "token=" ++ value] :=
      (splitOnP_append_cons_of_forall_mem (by decide +kernel) 0x26 rfl _).trans
        (congrArg _ (splitOn_eq_singleton (hclean (by decide))))
    have hrole : queryPair (ascii "role=browser") = some (ascii "role", ascii "browser") := by decide
    have hcut : cut 0x3d (ascii "token=" ++ value) = (ascii "token", value) :=
      @cut_append 0x3d (ascii "token") (by decide) value
    have hvalue : unescape true value = some token := henc ▸ unescape_percentEncode true _ token (by decide)
    have hpair : queryPair (ascii "token=" ++ value) = some (ascii "token", token) := by
      rw [queryPair, if_neg (not_or.mpr ⟨append_ne_nil_of_left_ne_nil (by decide) _, hclean (by decide)⟩), hcut]
      simp only [show unescape true (ascii "token") = some (ascii "token") by decide, hvalue]
    have hother : (ascii "token" == ascii "role") = false := by decide
    rw [queryGet, hsplit]
    simp [hrole, hpair, lookup_cons, hother]

theorem wsHandler_requestTarget {sid : Bytes} (hid : sid ≠ [] ∧ 0x2f ∉ sid) (token : Bytes) :
    wsHandler (requestTarget sid token) = some (sid, token) := by
  have hcut : cut 0x3f (requestTarget sid token) =
      (ascii "/api/webrtc/signaling/" ++ percentEncodePathSegment sid, query token) :=
    cut_append (not_mem_percentEncode (by decide) sid) _
  have hpath : unescape false (ascii "/api/webrtc/signaling/" ++ percentEncodePathSegment sid) =
      some (ascii "/api/webrtc/signaling/" ++ sid) := by
    rw [unescape_append _ _ _ (by decide), percentEncodePathSegment, unescape_percentEncode _ _ _ (by decide)]
    rfl
  simp [wsHandler, hcut, hpath, hid, queryGet_token]

/-- The broker reads what was dialled, so other sessions and tokens have other URLs. -/
theorem dial_recovers (sid token : Bytes) (hid : sid ≠ [] ∧ 0x2f ∉ sid) :
    wsHandler (requestTarget sid token) = some (sid, token) ∧
      ∀ useTls host sid' token', host ≠ [] → sid' ≠ [] ∧ 0x2f ∉ sid' →
        buildUrl useTls host sid token = buildUrl useTls host sid' token' → (sid, token) = (sid', token') := by
  have hread := wsHandler_requestTarget hid token
  refine ⟨hread, fun useTls host sid' token' hhost hid' heq => ?_⟩
  rw [buildUrl, buildUrl, if_neg (not_or.mpr ⟨hhost, hid.1⟩), if_neg (not_or.mpr ⟨hhost, hid'.1⟩),
    append_cancel_left_eq] at heq
  rwa [heq, wsHandler_requestTarget hid', Option.some.injEq, eq_comm] at hread

theorem dial_recovers_odd : wsHandler (requestTarget (ascii "a?") (ascii "+;&")) = some (ascii "a?", ascii "+;&") :=
  (dial_recovers _ _ (by decide)).1

end Chromeless.Dial
