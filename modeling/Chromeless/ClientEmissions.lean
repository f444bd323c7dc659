import Chromeless.LibJsonRead

/-! What `client/src/session.ts` puts on its signaling socket: objects that go through
`JSON.stringify`. -/
namespace Chromeless.Client
open Json Value List

/-- A string without lone surrogates, in UTF-8. -/
structure Text where
  bytes : Bytes
  valid : validString bytes = true

structure Finite where
  literal : Bytes
  wellFormed : literalOk literal = true
  bounded : |literalValue literal| ≤ maxDouble

/-- `ProbeResult`. What is not finite is printed as `null`. -/
structure ProbeResult where
  rttMs : Option Finite
  downlinkKbps : Option Finite
  uplinkKbps : Option Finite
  samples : Option Finite

/-- Only the candidate is sure to be there; the other attributes can be missing or `null`. -/
structure RTCIceCandidateInit where
  candidate : Text
  sdpMid : Option (Option Text)
  sdpMLineIndex : Option (Option (Fin 65536))
  usernameFragment : Option (Option Text)

inductive Emission
  /-- the first frame of every connection -/
  | hello
  | probeResult (p : ProbeResult)
  | answer (sdp : Text)
  /-- `onicecandidate`, whose event has no candidate at the end -/
  | ice (candidate : Option RTCIceCandidateInit)
  | requestRenegotiate
  /-- `requestIceRecovery` -/
  | iceRecovery
  | bye

def Text.value (t : Text) : Value := .str (stringifyText t.bytes)

def Finite.value (n : Finite) : Value := .num n.literal

def orNull {α : Type} (value : α → Value) : Option α → Value
  | none => .null
  | some x => value x

def ProbeResult.fields (p : ProbeResult) : List (Bytes × Option Value) :=
  [(ascii "rtt_ms", some (orNull Finite.value p.rttMs)),
    (ascii "downlink_kbps", some (orNull Finite.value p.downlinkKbps)),
    (ascii "uplink_kbps", some (orNull Finite.value p.uplinkKbps)),
    (ascii "samples", some (orNull Finite.value p.samples))]

def RTCIceCandidateInit.fields (c : RTCIceCandidateInit) : List (Bytes × Option Value) :=
  [(ascii "candidate", some c.candidate.value),
    (ascii "sdpMid", c.sdpMid.map (orNull Text.value)),
    (ascii "sdpMLineIndex", c.sdpMLineIndex.map (orNull fun n => .num (formatNat n.val))),
    (ascii "usernameFragment", c.usernameFragment.map (orNull Text.value))]

def answerFields (sdp : Text) : List (Bytes × Option Value) :=
  [(ascii "type", some (.str (ascii "answer"))), (ascii "sdp", some sdp.value)]

def frameFields (type sender : Bytes) (data : Option Value) : List (Bytes × Option Value) :=
  [(ascii "type", some (.str type)), (ascii "from", some (.str sender)), (ascii "data", data)]

namespace Emission

def type : Emission → Bytes
  | hello | ice _ => ascii "ice"
  | probeResult _ => ascii "probe_result"
  | answer _ => ascii "answer"
  | requestRenegotiate | iceRecovery => ascii "request_renegotiate"
  | bye => ascii "bye"

def data : Emission → Option Value
  | hello | ice none | iceRecovery => some .null
  | probeResult p => some (.obj (members p.fields))
  | answer sdp => some (.obj (members (answerFields sdp)))
  | ice (some c) => some (.obj (members c.fields))
  | requestRenegotiate | bye => none

def text (e : Emission) : Bytes :=
  (obj (members (frameFields e.type (ascii "client") e.data))).print

end Emission

section
variable {number : Bytes → Option Datum}

theorem plain_orNull {α : Type} {value : α → Value} (h : ∀ x, (value x).Plain number)
    (x : Option α) : (orNull value x).Plain number := by
  cases x with
  | none => exact plain_null
  | some x => exact h x

theorem plain_map_orNull {α : Type} {value : α → Value} (h : ∀ x, (value x).Plain number)
    (x : Option (Option α)) : ∀ v ∈ x.map (orNull value), v.Plain number := by
  intro v hv
  obtain ⟨y, -, rfl⟩ := Option.mem_map.mp hv
  exact plain_orNull h y

theorem plain_text (t : Text) : t.value.Plain number := plain_stringifyText t.valid

-- the reader takes every number that fits a double
variable (hnumber : ∀ literal, literalOk literal = true → |literalValue literal| ≤ maxDouble →
  (number literal).isSome = true)

include hnumber

theorem plain_finite (n : Finite) : n.value.Plain number :=
  plain_num n.wellFormed (hnumber n.literal n.wellFormed n.bounded)

theorem plain_index (n : Fin 65536) : (num (formatNat n.val)).Plain number := by
  have hok : literalOk (formatNat n.val) = true := by
    have hlit := literalOk_formatInt n.val
    rwa [formatInt, if_neg (by omega), Int.natAbs_natCast] at hlit
  refine plain_num hok (hnumber _ hok ?_)
  rw [literalValue_formatNat, Nat.abs_cast]
  have hpow : (1 : ℚ) ≤ 2^971 := one_le_pow₀ (by norm_num)
  calc ((n.val : ℕ) : ℚ) ≤ 65536 := by exact_mod_cast n.isLt.le
    _ ≤ 2^53 - 1 := by norm_num
    _ ≤ (2^53 - 1) * 2^971 := le_mul_of_one_le_right (by norm_num) hpow

theorem plain_probe (p : ProbeResult) : ∀ f ∈ p.fields, ∀ v ∈ f.2, v.Plain number := by
  intro f hf v hv
  have hall : ∀ x, (orNull Finite.value x).Plain number := plain_orNull (plain_finite hnumber)
  simp only [ProbeResult.fields, mem_cons, not_mem_nil, or_false] at hf
  rcases hf with rfl | rfl | rfl | rfl <;> obtain rfl := Option.some.inj hv <;> exact hall _

theorem plain_candidate (c : RTCIceCandidateInit) : ∀ f ∈ c.fields, ∀ v ∈ f.2, v.Plain number := by
  intro f hf v hv
  simp only [RTCIceCandidateInit.fields, mem_cons, not_mem_nil, or_false] at hf
  rcases hf with rfl | rfl | rfl | rfl
  · obtain rfl := Option.some.inj hv
    exact plain_text c.candidate
  · exact plain_map_orNull plain_text _ v hv
  · exact plain_map_orNull (plain_index hnumber) _ v hv
  · exact plain_map_orNull plain_text _ v hv

omit hnumber

theorem plain_answer (sdp : Text) : ∀ f ∈ answerFields sdp, ∀ v ∈ f.2, v.Plain number := by
  intro f hf v hv
  simp only [answerFields, mem_cons, not_mem_nil, or_false] at hf
  rcases hf with rfl | rfl <;> obtain rfl := Option.some.inj hv
  · have htype : ascii "answer" = stringifyText (ascii "answer") := by decide +kernel
    rw [htype]
    exact plain_stringifyText (by decide)
  · exact plain_text sdp

end

theorem named_answer (sdp : Text) : Named ((answerFields sdp).map Prod.fst) := by
  change Named [ascii "type", ascii "sdp"]
  decide +kernel

theorem named_probe (p : ProbeResult) : Named (p.fields.map Prod.fst) := by
  change Named [ascii "rtt_ms", ascii "downlink_kbps", ascii "uplink_kbps", ascii "samples"]
  decide +kernel

theorem named_candidate (c : RTCIceCandidateInit) : Named (c.fields.map Prod.fst) := by
  change Named [ascii "candidate", ascii "sdpMid", ascii "sdpMLineIndex", ascii "usernameFragment"]
  decide +kernel

theorem data_datum {number : Bytes → Option Datum} {fields : List (Bytes × Option Value)}
    (hnam : Named (fields.map Prod.fst)) (hpl : ∀ f ∈ fields, ∀ v ∈ f.2, v.Plain number)
    {data : Option Value} (hdata : data = some (.obj (members fields)) ∨
      data = (some (obj (members fields))).map escape) :
    ∃ d : Dict, data.bind (datum number) = some (.dict d) ∧ ∀ f ∈ fields, d.find f.1 = f.2.bind (datum number) := by
  rcases hdata with rfl | rfl <;> exact datum_members hnam hpl _ (by simp)

theorem Emission.data_ok (e : Emission) (depth : ℕ) : ∀ v ∈ e.data, v.ok (depth + 1) = true := by
  -- well-formedness does not depend on the reader: any one will do
  let anyNumber : Bytes → Option Datum := fun _ => some .null
  have hany : ∀ literal, literalOk literal = true → |literalValue literal| ≤ maxDouble →
      (anyNumber literal).isSome = true := fun _ _ _ => rfl
  intro v hv
  cases e with
  | hello | iceRecovery =>
    obtain rfl := Option.some.inj hv
    rw [ok]
  | probeResult p =>
    obtain rfl := Option.some.inj hv
    exact members_ok (named_probe p) fun f hf v hv => (plain_probe hany p f hf v hv).ok depth
  | answer sdp =>
    obtain rfl := Option.some.inj hv
    exact members_ok (named_answer sdp) fun f hf v hv =>
      (@plain_answer anyNumber sdp f hf v hv).ok depth
  | ice c =>
    cases c with
    | none =>
      obtain rfl := Option.some.inj hv
      rw [ok]
    | some c =>
      obtain rfl := Option.some.inj hv
      exact members_ok (named_candidate c) fun f hf v hv =>
        (plain_candidate hany c f hf v hv).ok depth
  | requestRenegotiate | bye => cases hv

end Chromeless.Client
