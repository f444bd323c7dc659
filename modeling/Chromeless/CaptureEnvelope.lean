import Chromeless.LibJsonDatum

/-! The guest's side of the wire: `capture/signaling/cb_wire_envelope.h`, decoded. -/
namespace Chromeless.Capture
open Json

inductive EnvelopeType
  | offer
  | answer
  | ice
  | bye
  | requestRenegotiate
  | probeResult
  | sessionUnhealthy
  | peerAbsent
deriving DecidableEq

inductive PeerRole
  | browser
  | client
deriving DecidableEq

structure SdpPayload where
  sdpType : Bytes
  sdp : Bytes
deriving DecidableEq

/-- A remote candidate, or the marker that no more of them will come. -/
structure IceCandidatePayload where
  isEndOfCandidates : Bool
  candidate : Bytes
  sdpMid : Option Bytes
  sdpMLineIndex : Option ℤ
  usernameFragment : Option Bytes
deriving DecidableEq

/-- The alternative need not match the tag: the codec builds it from the wire, and the driver checks
again. -/
inductive EnvelopeData
  | monostate
  | sdp (payload : SdpPayload)
  | ice (payload : IceCandidatePayload)
  | probeResult (raw : Dict)
deriving DecidableEq

structure Envelope where
  type : EnvelopeType
  sender : PeerRole
  data : EnvelopeData
deriving DecidableEq

def makeIceEndOfCandidates (sender : PeerRole) : Envelope :=
  ⟨.ice, sender, .ice ⟨true, [], none, none, none⟩⟩

def Envelope.encodes (env : Envelope) : Bool :=
  match env.type, env.data with
  | .offer, .sdp _ | .answer, .sdp _ => true
  | .ice, .ice _ => true
  | .bye, .monostate | .sessionUnhealthy, .monostate | .peerAbsent, .monostate => true
  | .requestRenegotiate, .monostate => true
  | .probeResult, .probeResult _ => true
  | _, _ => false

def Envelope.answerSdp (env : Envelope) : Option Bytes :=
  match env.data with
  | .sdp payload => if payload.sdp = [] then none else some payload.sdp
  | _ => none

def Envelope.candidate (env : Envelope) : Option IceCandidatePayload :=
  match env.data with
  | .ice payload => some payload
  | _ => none

end Chromeless.Capture
