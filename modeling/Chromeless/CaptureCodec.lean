import Chromeless.CaptureEnvelope

/-! `capture/signaling/cb_wire_envelope.cc`: envelopes to dictionaries and back. `base::JSONWriter`
and `base::JSONReader` are parameters. -/
namespace Chromeless.Capture
open Json Envelope Option
open Dict (set findString)

def tagFromString (tag : Bytes) : Option EnvelopeType :=
  if tag = ascii "offer" then some .offer
  else if tag = ascii "answer" then some .answer
  else if tag = ascii "ice" then some .ice
  else if tag = ascii "bye" then some .bye
  else if tag = ascii "request_renegotiate" then some .requestRenegotiate
  else if tag = ascii "probe_result" then some .probeResult
  else if tag = ascii "session_unhealthy" then some .sessionUnhealthy
  else if tag = ascii "peer_absent" then some .peerAbsent
  else none

def portalTagFromString (tag : Bytes) : Option EnvelopeType :=
  if tag = ascii "sdp_offer" then some .offer
  else if tag = ascii "sdp_answer" then some .answer
  else if tag = ascii "ice_candidate" then some .ice
  else none

def tagToString : EnvelopeType → Bytes
  | .offer => ascii "offer"
  | .answer => ascii "answer"
  | .ice => ascii "ice"
  | .bye => ascii "bye"
  | .requestRenegotiate => ascii "request_renegotiate"
  | .probeResult => ascii "probe_result"
  | .sessionUnhealthy => ascii "session_unhealthy"
  | .peerAbsent => ascii "peer_absent"

def roleFromString (role : Bytes) : Option PeerRole :=
  if role = ascii "browser" then some .browser
  else if role = ascii "client" then some .client
  else none

def roleToString : PeerRole → Bytes
  | .browser => ascii "browser"
  | .client => ascii "client"

/-- The `data` of an envelope on the wire: not to be had, left out, or a value. -/
inductive EncodedData
  | violation
  | omitField
  | value (v : Datum)

def EncodedData.field : EncodedData → Option (Option Datum)
  | .violation => none
  | .omitField => some none
  | .value v => some (some v)

def setSome (key : Bytes) (x : Option Datum) (d : Dict) : Dict :=
  match x with
  | none => d
  | some x => d.set key x

def IceCandidatePayload.toDict (p : IceCandidatePayload) : Dict :=
  set (ascii "candidate") (.string p.candidate) []
    |> setSome (ascii "sdpMid") (p.sdpMid.map .string)
    |> setSome (ascii "sdpMLineIndex") (p.sdpMLineIndex.map .integer)
    |> setSome (ascii "usernameFragment") (p.usernameFragment.map .string)

def encodeData : EnvelopeType → EnvelopeData → EncodedData
  | .offer, .sdp p | .answer, .sdp p =>
    .value (.dict (set (ascii "sdp") (.string p.sdp) (set (ascii "type") (.string p.sdpType) [])))
  | .ice, .ice p => .value (if p.isEndOfCandidates then .null else .dict p.toDict)
  | .bye, .monostate | .sessionUnhealthy, .monostate | .peerAbsent, .monostate => .omitField
  | .requestRenegotiate, .monostate => .value .null
  | .probeResult, .probeResult raw => .value (.dict raw)
  | _, _ => .violation

def Envelope.toDict (env : Envelope) : Option Dict :=
  let envelope := set (ascii "from") (.string (roleToString env.sender))
    (set (ascii "type") (.string (tagToString env.type)) [])
  match encodeData env.type env.data with
  | .violation => none
  | .omitField => some envelope
  | .value v => some (envelope.set (ascii "data") v)

def encode (write : Dict → Option Bytes) (env : Envelope) : Option Bytes :=
  env.toDict.bind write

/-- A candidate with its fields in `d`. An empty one says that there are no more. -/
def readCandidate (d : Dict) (candidate : Bytes) : IceCandidatePayload where
  isEndOfCandidates := candidate.isEmpty
  candidate := candidate
  sdpMid := d.findString (ascii "sdpMid")
  sdpMLineIndex := d.findInt (ascii "sdpMLineIndex")
  usernameFragment := d.findString (ascii "usernameFragment")

def IceCandidatePayload.endOfCandidates : IceCandidatePayload := ⟨true, [], none, none, none⟩

def decodeSdp (type : EnvelopeType) : Option Datum → Option EnvelopeData
  | some (.dict d) =>
    match findString d (ascii "type"), findString d (ascii "sdp") with
    | some sdpType, some sdp => if sdpType ≠ tagToString type then none else some (.sdp ⟨sdpType, sdp⟩)
    | _, _ => none
  | _ => none

/-- `data` is `none` when the envelope has no such field. -/
def decodeData (type : EnvelopeType) (data : Option Datum) : Option EnvelopeData :=
  match type with
  | .offer | .answer => decodeSdp type data
  | .ice =>
    match data with
    | some .null => some (.ice .endOfCandidates)
    | some (.dict d) =>
      match findString d (ascii "candidate") with
      | none => none
      | some candidate => some (.ice (readCandidate d candidate))
    | _ => none
  | .bye | .sessionUnhealthy | .peerAbsent =>
    match data with
    | some _ => none
    | none => some .monostate
  | .requestRenegotiate =>
    match data with
    | none | some .null => some .monostate
    | some _ => none
  | .probeResult =>
    match data with
    | some (.dict d) => some (.probeResult d)
    | _ => none

/-- The flat dialect. Its envelopes come from the client and name no sender. -/
def decodePortal (type : EnvelopeType) (dict : Dict) : Option Envelope :=
  match type with
  | .offer | .answer => (dict.findString (ascii "sdp")).map fun sdp => ⟨type, .client, .sdp ⟨tagToString type, sdp⟩⟩
  | .ice =>
    match dict.findString (ascii "candidate") with
    | none => some ⟨type, .client, .ice .endOfCandidates⟩
    | some candidate => some ⟨type, .client, .ice (readCandidate dict candidate)⟩
  | _ => none

def decodeDict (dict : Dict) : Option Envelope :=
  match dict.findString (ascii "type") with
  | none => none
  | some typeStr =>
    match tagFromString typeStr with
    | some type =>
      match (dict.findString (ascii "from")).bind roleFromString with
      | none => none
      | some sender => (decodeData type (dict.find (ascii "data"))).map fun data => ⟨type, sender, data⟩
    | none =>
      match portalTagFromString typeStr with
      | none => none
      | some type => decodePortal type dict

def decode (read : Bytes → Option Datum) (json : Bytes) : Option Envelope :=
  match read json with
  | some (.dict dict) => decodeDict dict
  | _ => none

section

theorem tagFromString_tagToString (type : EnvelopeType) :
    tagFromString (tagToString type) = some type := by
  cases type <;> decide

theorem roleFromString_roleToString (role : PeerRole) :
    roleFromString (roleToString role) = some role := by
  cases role <;> decide

end

theorem isSome_toDict (env : Envelope) : env.toDict.isSome = env.encodes := by
  obtain ⟨type, sender, data⟩ := env
  cases type <;> cases data <;> rfl

variable {env : Envelope} {d dict : Dict} {type : EnvelopeType} {field : Option Datum}
  {sender : PeerRole} {data : EnvelopeData}

theorem toDict_find (h : env.toDict = some d) :
    d.findString (ascii "type") = some (tagToString env.type) ∧
      d.findString (ascii "from") = some (roleToString env.sender) ∧
      (encodeData env.type env.data).field = some (d.find (ascii "data")) := by
  rw [toDict] at h
  cases hdata : encodeData env.type env.data with
  | violation => simp [hdata] at h
  | omitField | value =>
    simp only [hdata, Option.some.injEq] at h
    subst h
    exact ⟨rfl, rfl, rfl⟩

theorem readCandidate_toDict (p : IceCandidatePayload) :
    findString p.toDict (ascii "candidate") = some p.candidate ∧
      readCandidate p.toDict p.candidate =
        { p with isEndOfCandidates := p.candidate.isEmpty } := by
  obtain ⟨eoc, candidate, mid, index, fragment⟩ := p
  cases mid <;> cases index <;> cases fragment <;> exact ⟨rfl, rfl⟩

/-- The driver builds an envelope: the alternative goes with the tag, and a description repeats
it. -/
def Envelope.Built (env : Envelope) : Prop :=
  env.encodes = true ∧ ∀ p, env.data = .sdp p → p.sdpType = tagToString env.type

def EnvelopeData.returned : EnvelopeData → EnvelopeData
  | .ice p =>
    if p.isEndOfCandidates then .ice .endOfCandidates
    else .ice { p with isEndOfCandidates := p.candidate.isEmpty }
  | data => data

/-- One representation for all markers of the end of the candidates. -/
def EnvelopeData.collapsed : EnvelopeData → EnvelopeData
  | .ice p => if p.isEndOfCandidates ∨ p.candidate = [] then .ice .endOfCandidates else .ice p
  | data => data

def Envelope.collapsed (env : Envelope) : Envelope := { env with data := env.data.collapsed }

theorem decodeSdp_set {p : SdpPayload} (h : p.sdpType = tagToString type) :
    decodeSdp type (some (.dict (set (ascii "sdp") (.string p.sdp)
      (set (ascii "type") (.string p.sdpType) [])))) = some (.sdp p) := by
  have htype : findString (set (ascii "sdp") (.string p.sdp)
      (set (ascii "type") (.string p.sdpType) [])) (ascii "type") = some p.sdpType := rfl
  have hsdp : findString (set (ascii "sdp") (.string p.sdp)
      (set (ascii "type") (.string p.sdpType) [])) (ascii "sdp") = some p.sdp := rfl
  simp only [decodeSdp, htype, hsdp]
  rw [if_neg (not_not.mpr h)]

theorem decodeData_ice (p : IceCandidatePayload) :
    decodeData .ice (some (if p.isEndOfCandidates then .null else .dict p.toDict)) =
      some (EnvelopeData.ice p).returned := by
  rw [EnvelopeData.returned]
  split
  · rfl
  · obtain ⟨hcand, hread⟩ := readCandidate_toDict p
    simp [decodeData, hcand, hread]

theorem decodeData_encodeData (hblt : env.Built) (h : (encodeData env.type env.data).field = some field) :
    decodeData env.type field = some env.data.returned := by
  obtain ⟨type, sender, data⟩ := env
  obtain ⟨-, hsdp⟩ := hblt
  cases data with
  | monostate =>
    cases type <;> cases h
    all_goals rfl
  | sdp p =>
    have htype := hsdp p rfl
    cases type <;> cases h
    all_goals exact decodeSdp_set htype
  | ice p =>
    cases type <;> cases h
    exact decodeData_ice p
  | probeResult =>
    cases type <;> cases h
    rfl

theorem decodeDict_toDict (hblt : env.Built) (h : env.toDict = some d) :
    decodeDict d = some { env with data := env.data.returned } := by
  obtain ⟨htype, hfrom, hdata⟩ := toDict_find h
  simp [decodeDict, htype, tagFromString_tagToString, hfrom, roleFromString_roleToString,
    decodeData_encodeData hblt hdata]

theorem collapsed_returned (data : EnvelopeData) : data.returned.collapsed = data.collapsed := by
  cases data with
  | ice p =>
    obtain ⟨eoc, candidate, mid, index, fragment⟩ := p
    cases eoc with
    | true => rfl
    | false => cases candidate <;> rfl
  | _ => rfl

def Envelope.Read (env : Envelope) : Prop :=
  env.Built ∧ ∀ p, env.data = .ice p → p.isEndOfCandidates = p.candidate.isEmpty

theorem Envelope.Read.returned (h : env.Read) : env.data.returned = env.data.collapsed := by
  obtain ⟨type, sender, data⟩ := env
  cases data with
  | ice p =>
    have heoc := h.2 p rfl
    obtain ⟨eoc, candidate, mid, index, fragment⟩ := p
    obtain rfl : eoc = candidate.isEmpty := heoc
    cases candidate <;> rfl
  | _ => rfl

theorem read_ice (htype : type = .ice) {p : IceCandidatePayload}
    (h : p.isEndOfCandidates = p.candidate.isEmpty) : Read ⟨type, sender, .ice p⟩ := by
  subst htype
  refine ⟨⟨rfl, fun q hq => by simp at hq⟩, fun q hq => ?_⟩
  obtain rfl : p = q := by simpa using hq
  exact h

theorem read_sdp (htype : type = .offer ∨ type = .answer) (sdp : Bytes) :
    Read ⟨type, sender, .sdp ⟨tagToString type, sdp⟩⟩ := by
  refine ⟨⟨by rcases htype with rfl | rfl <;> rfl, fun q hq => ?_⟩, fun q hq => by simp at hq⟩
  simp only [EnvelopeData.sdp.injEq] at hq
  rw [← hq]

theorem decodeSdp_some (h : decodeSdp type field = some data) :
    ∃ sdp, data = .sdp ⟨tagToString type, sdp⟩ := by
  unfold decodeSdp at h
  split at h
  · split at h
    next sdpType sdp _ _ =>
      split at h
      · cases h
      rename_i htag
      rw [not_not] at htag
      subst htag
      exact ⟨sdp, (Option.some.inj h).symm⟩
    · cases h
  · cases h

theorem decodeData_ice_some (h : decodeData .ice field = some data) :
    ∃ p : IceCandidatePayload, data = .ice p ∧ p.isEndOfCandidates = p.candidate.isEmpty := by
  simp only [decodeData] at h
  split at h
  · exact ⟨.endOfCandidates, (Option.some.inj h).symm, rfl⟩
  · split at h
    · cases h
    · exact ⟨_, (Option.some.inj h).symm, rfl⟩
  · cases h

theorem decodeData_read (h : decodeData type field = some data) (sender : PeerRole) :
    Read ⟨type, sender, data⟩ := by
  cases type with
  | offer =>
    obtain ⟨sdp, rfl⟩ := decodeSdp_some h
    exact read_sdp (.inl rfl) sdp
  | answer =>
    obtain ⟨sdp, rfl⟩ := decodeSdp_some h
    exact read_sdp (.inr rfl) sdp
  | ice =>
    obtain ⟨p, rfl, heoc⟩ := decodeData_ice_some h
    exact read_ice rfl heoc
  | probeResult =>
    simp only [decodeData] at h
    split at h
    · cases h
      exact ⟨⟨rfl, by simp⟩, by simp⟩
    · cases h
  | bye | sessionUnhealthy | peerAbsent | requestRenegotiate =>
    simp only [decodeData] at h
    split at h <;> cases h
    all_goals exact ⟨⟨rfl, by simp⟩, by simp⟩

theorem decodePortal_read (h : decodePortal type dict = some env) : env.Read := by
  unfold decodePortal at h
  split at h
  · obtain ⟨sdp, -, rfl⟩ := map_eq_some_iff.mp h
    exact read_sdp (.inl rfl) sdp
  · obtain ⟨sdp, -, rfl⟩ := map_eq_some_iff.mp h
    exact read_sdp (.inr rfl) sdp
  · split at h <;> cases h <;> exact read_ice rfl rfl
  · cases h

theorem decodeDict_read (h : decodeDict dict = some env) : env.Read := by
  revert h
  fun_cases decodeDict dict <;> intro h
  case case3 =>
    obtain ⟨data, hdata, rfl⟩ := map_eq_some_iff.mp h
    exact decodeData_read hdata _
  case case5 => exact decodePortal_read h
  all_goals cases h

section
variable (read : Bytes → Option Datum) (write : Dict → Option Bytes)

def RoundTrips (env : Envelope) : Prop :=
  ∀ d, env.toDict = some d → ∃ json, write d = some json ∧ read json = some (.dict d)

variable {read write}

theorem decode_encode_returned {env : Envelope} (hblt : env.Built) (hjson : RoundTrips read write env) :
    ∃ json, encode write env = some json ∧ decode read json = some { env with data := env.data.returned } := by
  obtain ⟨d, hd⟩ : ∃ d, env.toDict = some d := by rw [← isSome_iff_exists, isSome_toDict, hblt.1]
  obtain ⟨json, hwrt, hread⟩ := hjson d hd
  refine ⟨json, by rw [encode, hd]; exact hwrt, ?_⟩
  rw [decode, hread]
  exact decodeDict_toDict hblt hd

variable (read write)

/-- An envelope as the driver builds it comes back, but for the spelling of a marker for the end of
the candidates. -/
theorem decode_encode :
    (∀ env : Envelope, env.Built → RoundTrips read write env →
      ∃ json env', encode write env = some json ∧ decode read json = some env' ∧ env'.collapsed = env.collapsed) ∧
    (∀ json env, decode read json = some env → RoundTrips read write env →
      ∃ json', encode write env = some json' ∧ decode read json' = some env.collapsed) := by
  constructor
  · intro env hbuilt hjson
    obtain ⟨json, hencode, hdecode⟩ := decode_encode_returned hbuilt hjson
    refine ⟨json, _, hencode, hdecode, ?_⟩
    rw [collapsed, collapsed_returned]
    rfl
  · intro json env hdecode hjson
    have hread : env.Read := by
      unfold decode at hdecode
      split at hdecode
      · exact decodeDict_read hdecode
      · cases hdecode
    obtain ⟨json', hencode, hdecode'⟩ := decode_encode_returned hread.1 hjson
    exact ⟨json', hencode, by rw [hdecode', hread.returned]; rfl⟩

end

def sectionMarker : Envelope := ⟨.ice, .client, .ice ⟨true, [], some (ascii "0"), none, none⟩⟩

def sectionMarkerJson : Bytes :=
  ascii ("\x7b\"type\":\"ice\",\"from\":\"client\"," ++ "\"data\":\x7b\"candidate\":\"\",\"sdpMid\":\"0\"\x7d\x7d")

def markerJson : Bytes := ascii "\x7b\"data\":null,\"from\":\"client\",\"type\":\"ice\"\x7d"

def sectionMarkerDict : Dict :=
  [(ascii "data", .dict [(ascii "candidate", .string []), (ascii "sdpMid", .string (ascii "0"))]),
    (ascii "from", .string (ascii "client")), (ascii "type", .string (ascii "ice"))]

def markerDict : Dict :=
  [(ascii "data", .null), (ascii "from", .string (ascii "client")), (ascii "type", .string (ascii "ice"))]

def readMarkers (json : Bytes) : Option Datum :=
  if json = sectionMarkerJson then some (.dict sectionMarkerDict)
  else if json = markerJson then some (.dict markerDict)
  else none

def writeMarkers (d : Dict) : Option Bytes := if d = markerDict then some markerJson else none

theorem roundTrips_sectionMarker : RoundTrips readMarkers writeMarkers sectionMarker := by
  intro d hd
  obtain rfl : d = markerDict := by
    have hdict : sectionMarker.toDict = some markerDict := by decide
    simpa [hdict] using hd.symm
  exact ⟨markerJson, by decide, by decide⟩

theorem decode_encode_marker :
    sectionMarker.Built ∧ decode readMarkers sectionMarkerJson = some sectionMarker ∧
      (∃ json env', encode writeMarkers sectionMarker = some json ∧
        decode readMarkers json = some env' ∧ env'.collapsed = sectionMarker.collapsed) ∧
      ∃ json, encode writeMarkers sectionMarker = some json ∧
        decode readMarkers json = some (makeIceEndOfCandidates .client) := by
  have hbuilt : sectionMarker.Built := ⟨rfl, by simp [sectionMarker]⟩
  have hdecode : decode readMarkers sectionMarkerJson = some sectionMarker := by decide
  obtain ⟨hfirst, hsecond⟩ := decode_encode readMarkers writeMarkers
  exact ⟨hbuilt, hdecode, hfirst _ hbuilt roundTrips_sectionMarker, hsecond _ _ hdecode roundTrips_sectionMarker⟩

theorem marker_loses_section :
    decode readMarkers sectionMarkerJson = some sectionMarker ∧
      encode writeMarkers sectionMarker = some markerJson ∧
      decode readMarkers markerJson ≠ some sectionMarker := by
  refine ⟨by decide, by decide, by decide⟩

end Chromeless.Capture
