import Chromeless.CaptureCodec
import Chromeless.CaptureReceive
import Chromeless.ClientEmissions
import Chromeless.SignalingBroker
import Chromeless.SignalingWire

/-! What the client puts on its socket and the broker makes of it: the guest's codec takes all of
it. -/
namespace Chromeless.Capture
open Json Client Signaling EnvType Datum
open Chromeless.Signaling (Role Frame Turn EnvType forwardedFrame marshal marshalMembers
  maxNestingDepth)
open Chromeless.Signaling.Broker (synthesised)
open Option (bind_some some map_some)
open Value (datum escape obj ok null)

def readerDepth : ℕ := 200

/-- `base::JSONReader::Read` with `JSON_PARSE_RFC`. `number` is the value that it takes a literal
for. -/
structure ReadsJson (number read : Bytes → Option Datum) : Prop where
  numbers : ∀ literal, literalOk literal = true → |literalValue literal| ≤ maxDouble → (number literal).isSome = true
  texts : ∀ text v d, parse readerDepth text = some v → v.datum number = some d → read text = some d

/-- A frame of the client as the broker passes it on, or one that the broker writes itself. -/
inductive FromBroker : Bytes → Prop
  | forwarded (e : Emission) (turn : Turn) (role : Role) {f : Frame}
      (h : forwardedFrame turn role e.text = some f) : FromBroker f.raw
  | bye (role : Role) : FromBroker (synthesised (ascii "bye") role)
  | peerAbsent (role : Role) : FromBroker (synthesised (ascii "peer_absent") role)

def peerRole : Role → PeerRole
  | .client => .client
  | .browser => .browser

theorem named_frame (type sender : Bytes) (data : Option Value) :
    Named ((frameFields type sender data).map Prod.fst) := by
  change Named [ascii "type", ascii "from", ascii "data"]
  decide +kernel

def Word (s : Bytes) : Prop := bodyOk .body s = true ∧ readText s = some s

instance (s : Bytes) : Decidable (Word s) := inferInstanceAs (Decidable (_ ∧ _))

theorem role_word (role : Role) :
    roleFromString role.name = some (peerRole role) ∧ Word role.name := by
  cases role <;> exact ⟨by decide, by decide +kernel⟩

theorem frame_ok {type sender : Bytes} (htype : Word type) (hsdr : Word sender)
    {data : Option Value} {depth : ℕ} (hdata : ∀ v ∈ data, v.ok depth = true) :
    (obj (members (frameFields type sender data))).ok (depth + 1) = true := by
  refine members_ok (named_frame type sender data) fun f hf v hv => ?_
  simp only [frameFields, List.mem_cons, List.not_mem_nil, or_false] at hf
  rcases hf with rfl | rfl | rfl
  · obtain rfl := some.inj hv
    rw [ok, htype.1]
  · obtain rfl := some.inj hv
    rw [ok, hsdr.1]
  · exact hdata v hv

theorem marshalMembers_eq (type : Bytes) (role : Role) (data : Option Value) :
    marshalMembers type role data = members (frameFields type role.name (data.map escape)) := by
  cases data <;> rfl

section
variable {number read : Bytes → Option Datum}

variable {data : Option Value} {e : Emission}

theorem decode_frame (hread : ReadsJson number read) {type : EnvelopeType} (htype : Word (tagToString type))
    (role : Role) (hok : ∀ v ∈ data, v.ok 199 = true) (hdatum : ∀ v ∈ data, (v.datum number).isSome = true)
    (hdata : (decodeData type (data.bind (datum number))).isSome = true) :
    (decode read (obj (members (frameFields (tagToString type) role.name data))).print).isSome = true := by
  obtain ⟨hrole, hrolWor⟩ := role_word role
  have hprs : parse readerDepth
      (obj (members (frameFields (tagToString type) role.name data))).print =
      some (.obj (members (frameFields (tagToString type) role.name data))) :=
    parse_print readerDepth _ (frame_ok htype hrolWor hok)
  have hnam := named_frame (tagToString type) role.name data
  obtain ⟨d, hd, hfind, -⟩ := @datumMembers_find number _ (fun f hf => (hnam.of_mem hf).1)
    hnam.2 (by
      intro f hf v hv
      simp only [frameFields, List.mem_cons, List.not_mem_nil, or_false] at hf
      rcases hf with rfl | rfl | rfl
      · obtain rfl := some.inj hv
        rw [datum_str number htype.2]
        rfl
      · obtain rfl := some.inj hv
        rw [datum_str number hrolWor.2]
        rfl
      · exact hdatum v hv)
  have hdict := hread.texts _ _ (.dict d) hprs (by rw [datum, hd, map_some])
  -- the three members, as the codec looks them up
  have htypFie : d.find (ascii "type") = some (.string (tagToString type)) :=
    (hfind (ascii "type", some (.str (tagToString type))) (by simp [frameFields])).trans (datum_str number htype.2)
  have hfroFie : d.find (ascii "from") = some (.string role.name) :=
    (hfind (ascii "from", some (.str role.name)) (by simp [frameFields])).trans (datum_str number hrolWor.2)
  have hdatFie : d.find (ascii "data") = data.bind (datum number) :=
    hfind (ascii "data", data) (by simp [frameFields])
  simp [decode, hdict, decodeDict, Dict.findString, htypFie, hfroFie, getIfString,
    tagFromString_tagToString, hrole, hdatFie, hdata]

def Taken (number : Bytes → Option Datum) (e : Emission) (data : Option Value) : Prop :=
  ∃ type, e.type = tagToString type ∧ Word (tagToString type) ∧
    (∀ v ∈ data, (v.datum number).isSome = true) ∧
    (decodeData type (data.bind (datum number))).isSome = true

theorem taken_null (type : EnvelopeType) (htype : e.type = tagToString type)
    (hword : Word (tagToString type)) (hdata : (decodeData type (some .null)).isSome = true) :
    Taken number e (some .null) := by
  have hnull : null.datum number = some .null := by rw [datum]
  refine ⟨type, htype, hword, fun v hv => ?_, ?_⟩
  · obtain rfl := some.inj hv
    rw [hnull]
    rfl
  · rwa [bind_some, hnull]

theorem taken_dict (type : EnvelopeType) {d : Dict} (htype : e.type = tagToString type)
    (hword : Word (tagToString type)) (hd : data.bind (datum number) = some (.dict d))
    (hdata : (decodeData type (some (.dict d))).isSome = true) : Taken number e data := by
  refine ⟨type, htype, hword, fun v hv => ?_, by rwa [hd]⟩
  obtain rfl : data = some v := hv
  rw [bind_some] at hd
  rw [hd]
  rfl

theorem taken_emission (hread : ReadsJson number read) (e : Emission)
    (hdata : data = e.data ∨ data = e.data.map escape) : Taken number e data := by
  cases e with
  | hello =>
    obtain rfl : data = some .null := by simpa [Emission.data, escape] using hdata
    exact taken_null .ice rfl (by decide +kernel) rfl
  | iceRecovery =>
    obtain rfl : data = some .null := by simpa [Emission.data, escape] using hdata
    exact taken_null .requestRenegotiate rfl (by decide +kernel) rfl
  | requestRenegotiate =>
    obtain rfl : data = none := by simpa [Emission.data] using hdata
    exact ⟨.requestRenegotiate, rfl, by decide +kernel, by simp, rfl⟩
  | bye =>
    obtain rfl : data = none := by simpa [Emission.data] using hdata
    exact ⟨.bye, rfl, by decide +kernel, by simp, rfl⟩
  | probeResult p =>
    -- whatever the members are, the guest keeps the dictionary as it is
    obtain ⟨d, hd, -⟩ := data_datum (named_probe p) (plain_probe hread.numbers p) hdata
    exact taken_dict .probeResult rfl (by decide +kernel) hd rfl
  | answer sdp =>
    obtain ⟨d, hd, hfind⟩ := data_datum (named_answer sdp) (@plain_answer number sdp) hdata
    have htype : d.findString (ascii "type") = some (tagToString .answer) := by
      have hfield := hfind (ascii "type", some (.str (ascii "answer"))) (by simp [answerFields])
      rw [bind_some, datum_str number (show readText (ascii "answer") = some (ascii "answer")
        by decide +kernel)] at hfield
      simp [Dict.findString, hfield, getIfString, tagToString]
    have hsdp : d.findString (ascii "sdp") = some sdp.bytes := by
      have hfield := hfind (ascii "sdp", some sdp.value) (by simp [answerFields])
      rw [bind_some, Text.value, datum_str number (readText_stringifyText sdp.valid)] at hfield
      simp [Dict.findString, hfield, getIfString]
    refine taken_dict .answer rfl (by decide +kernel) hd ?_
    simp [decodeData, decodeSdp, htype, hsdp]
  | ice c =>
    cases c with
    | none =>
      obtain rfl : data = some .null := by simpa [Emission.data, escape] using hdata
      exact taken_null .ice rfl (by decide +kernel) rfl
    | some c =>
      obtain ⟨d, hd, hfind⟩ := data_datum (named_candidate c) (plain_candidate hread.numbers c) hdata
      have hcand : d.findString (ascii "candidate") = some c.candidate.bytes := by
        have hfield := hfind (ascii "candidate", some c.candidate.value) (by simp [RTCIceCandidateInit.fields])
        rw [bind_some, Text.value, datum_str number (readText_stringifyText c.candidate.valid)] at hfield
        simp [Dict.findString, hfield, getIfString]
      refine taken_dict .ice rfl (by decide +kernel) hd ?_
      simp [decodeData, hcand]

theorem type_word (typ : EnvType) :
    validString typ.name = true ∧ quote typ.name = typ.name ∧ Word typ.name := by
  cases typ <;> exact ⟨by decide, by decide +kernel, by decide +kernel⟩

theorem envType_type (e : Emission) : ∃ typ : EnvType, typ.name = e.type := by
  cases e with
  | hello | ice c => exact ⟨.ice, rfl⟩
  | probeResult => exact ⟨.probeResult, rfl⟩
  | answer => exact ⟨.answer, rfl⟩
  | requestRenegotiate | iceRecovery => exact ⟨.requestRenegotiate, rfl⟩
  | bye => exact ⟨.bye, rfl⟩

theorem unmarshal_text (e : Emission) :
    unmarshal e.text = some ⟨e.type, ascii "client", e.data⟩ := by
  obtain ⟨hval, hqt, hword⟩ : validString e.type = true ∧ quote e.type = e.type ∧ Word e.type := by
    obtain ⟨typ, htyp⟩ := envType_type e
    rw [← htyp]
    exact type_word typ
  have hprs : parse maxNestingDepth e.text = some (.obj (members (frameFields e.type (ascii "client") e.data))) :=
    parse_print maxNestingDepth _ (frame_ok hword (by decide +kernel) (e.data_ok 9998))
  have hdist : Distinct ((frameFields e.type (ascii "client") e.data).map Prod.fst) := by
    change Distinct [ascii "type", ascii "from", ascii "data"]
    decide +kernel
  have htype : stringField (ascii "type") (members (frameFields e.type (ascii "client") e.data)) = some e.type :=
    stringField_members hdist hval (by simp [frameFields, hqt])
  have hfrom : stringField (ascii "from")
      (members (frameFields e.type (ascii "client") e.data)) = some (ascii "client") :=
    stringField_members hdist (by decide) (by
      have hcli : quote (ascii "client") = ascii "client" := by decide +kernel
      simp [frameFields, hcli])
  have hdata : rawField (ascii "data") (members (frameFields e.type (ascii "client") e.data)) = e.data :=
    rawField_members hdist (by simp [frameFields])
  simp [unmarshal, hprs, htype, hfrom, hdata]

theorem forwardedFrame_text {turn : Turn} {role : Role} {f : Frame} (h : forwardedFrame turn role e.text = some f) :
    ∃ sender : Role, ∃ data, (data = e.data ∨ data = e.data.map escape) ∧
      f.raw = (obj (members (frameFields e.type sender.name data))).print := by
  obtain ⟨typ, htyp⟩ := envType_type e
  have hofName : ofName e.type = some typ := (ofName_eq_some _ _).mpr htyp.symm
  have hcli : Role.ofName (ascii "client") = some .client := by decide
  cases turn with
  | first =>
    simp only [forwardedFrame, firstFrame, unmarshal_text, hcli, hofName, map_some] at h
    split at h
    · obtain rfl := some.inj h
      exact ⟨.client, e.data, .inl rfl, rfl⟩
    · cases h
  | later =>
    simp only [forwardedFrame, readFrame, unmarshal_text, hofName, map_some, some.injEq] at h
    subst h
    split
    · exact ⟨.client, e.data, .inl rfl, rfl⟩
    · exact ⟨role, e.data.map escape, .inr rfl, by
        rw [marshal, marshalMembers_eq, htyp]⟩

theorem fromBroker_decodes (hread : ReadsJson number read) {raw : Bytes} (h : FromBroker raw) :
    (decode read raw).isSome = true := by
  cases h with
  | forwarded e turn role h =>
    obtain ⟨sender, data, hdata, hraw⟩ := forwardedFrame_text h
    obtain ⟨type, htype, hword, hdatum, htkn⟩ := taken_emission hread e hdata
    rw [hraw, htype]
    refine decode_frame hread hword sender (fun v hv => ?_) hdatum htkn
    rcases hdata with rfl | rfl
    · exact e.data_ok 198 v hv
    · obtain ⟨w, hw, rfl⟩ := Option.mem_map.mp hv
      exact w.ok_escape 199 (e.data_ok 198 w hw)
  | bye role =>
    have hraw : synthesised (ascii "bye") role =
        (obj (members (frameFields (tagToString .bye) role.name none))).print := by
      rw [synthesised, marshal, marshalMembers_eq]
      rfl
    rw [hraw]
    exact decode_frame hread (by decide +kernel) role (by simp) (by simp) rfl
  | peerAbsent role =>
    have hraw : synthesised (ascii "peer_absent") role =
        (obj (members (frameFields (tagToString .peerAbsent) role.name none))).print := by
      rw [synthesised, marshal, marshalMembers_eq]
      rfl
    rw [hraw]
    exact decode_frame hread (by decide +kernel) role (by simp) (by simp) rfl

end

theorem forwardedFrame_isSome (role : Role) (e : Emission) :
    (forwardedFrame .later role e.text).isSome = true := by
  obtain ⟨typ, htyp⟩ := envType_type e
  have hofName : ofName e.type = some typ := (ofName_eq_some _ _).mpr htyp.symm
  simp [forwardedFrame, readFrame, unmarshal_text, hofName]

/-- The guest takes every frame of a client or of the broker, and keeps its channel open on any
sequence of them, however they are cut up. -/
theorem guest_accepts {number read : Bytes → Option Datum} (hread : ReadsJson number read) :
    (∀ e role, ∃ f, forwardedFrame .later role (Emission.text e) = some f ∧ (decode read f.raw).isSome = true) ∧
    (∀ raw, FromBroker raw → (decode read raw).isSome = true) ∧
    ∀ messages acts, Inbound.Delivers messages acts →
      (∀ parts ∈ messages, FromBroker parts.flatten) →
      (receive (decode read) acts).client.state = .opened := by
  refine ⟨fun e role => ?_, fun raw h => fromBroker_decodes hread h, ?_⟩
  · obtain ⟨f, hf⟩ := Option.isSome_iff_exists.mp (forwardedFrame_isSome role e)
    exact ⟨f, hf, fromBroker_decodes hread (.forwarded e .later role hf)⟩
  intro messages acts hdelivers hall
  exact Inbound.receive_opened (decode read) hdelivers fun parts hparts =>
    fromBroker_decodes hread (hall parts hparts)

def readSmall (literal : Bytes) : Option Datum :=
  match literal with
  | [b] => some (.integer (b.toNat - 0x30))
  | _ => some (.double 0)

def markupCandidate : Emission :=
  .ice (some ⟨⟨ascii "candidate:1", by decide⟩, some (some ⟨ascii "0", by decide⟩), some (some 0),
    some (some ⟨ascii "a<b", by decide⟩)⟩)

theorem guest_accepts_markup :
    ∃ f g, forwardedFrame .later .client markupCandidate.text = some f ∧
      forwardedFrame .later .browser markupCandidate.text = some g ∧
      (decode (fun text => (parse readerDepth text).bind (datum readSmall)) f.raw).isSome ∧
      (decode (fun text => (parse readerDepth text).bind (datum readSmall)) g.raw).isSome := by
  have hread : ReadsJson readSmall fun text =>
      (parse readerDepth text).bind (datum readSmall) := by
    refine ⟨fun literal _ _ => ?_, fun text v d hv hd => by rw [hv, bind_some, hd]⟩
    unfold readSmall
    split <;> rfl
  obtain ⟨f, hf, hclient⟩ := (guest_accepts hread).1 markupCandidate .client
  obtain ⟨g, hg, hbrowser⟩ := (guest_accepts hread).1 markupCandidate .browser
  exact ⟨f, g, hf, hg, hclient, hbrowser⟩

end Chromeless.Capture
