import Chromeless.LibJsonDecode

/-! The wire envelope of `signaling/server.go` and what the broker makes of a peer's bytes. -/
namespace Chromeless.Signaling
open Json

/-- `peerRole`, restricted to the two values that `valid` lets past the first frame. -/
inductive Role
  | client
  | browser
deriving DecidableEq

def Role.name : Role → Bytes
  | .client => ascii "client"
  | .browser => ascii "browser"

def Role.other : Role → Role
  | .client => .browser
  | .browser => .client

def Role.ofName (name : Bytes) : Option Role := [Role.client, .browser].find? (·.name == name)

inductive EnvType
  | offer
  | answer
  | ice
  | bye
  | requestRenegotiate
  | probeResult
deriving DecidableEq

def EnvType.name : EnvType → Bytes
  | .offer => ascii "offer"
  | .answer => ascii "answer"
  | .ice => ascii "ice"
  | .bye => ascii "bye"
  | .requestRenegotiate => ascii "request_renegotiate"
  | .probeResult => ascii "probe_result"

def validTypes : List EnvType :=
  [.offer, .answer, .ice, .bye, .requestRenegotiate, .probeResult]

def EnvType.ofName (name : Bytes) : Option EnvType := validTypes.find? (·.name == name)

/-- `Data` is a raw message; its syntax tree stands for its bytes, since all that is ever done with
them is to compact them again. -/
structure Envelope where
  type : Bytes
  sender : Bytes
  data : Option Value

def maxNestingDepth : ℕ := 10000

/-- A top-level `null` is accepted and leaves the envelope empty. -/
def unmarshal (raw : Bytes) : Option Envelope :=
  match parse maxNestingDepth raw with
  | some (.obj ms) =>
    match stringField (ascii "type") ms, stringField (ascii "from") ms with
    | some type, some sender => some ⟨type, sender, rawField (ascii "data") ms⟩
    | _, _ => none
  | some .null => some ⟨[], [], none⟩
  | _ => none

def marshalMembers (type : Bytes) (sender : Role) (data : Option Value) : List (Bytes × Value) :=
  (ascii "type", .str type) :: (ascii "from", .str sender.name) ::
    (data.map fun v => (ascii "data", v.escape)).toList

def marshal (type : Bytes) (sender : Role) (data : Option Value) : Bytes :=
  (Value.obj (marshalMembers type sender data)).print

/-- A frame the broker acts on: the type it read and the bytes it passes on. -/
structure Frame where
  typ : EnvType
  raw : Bytes
deriving DecidableEq

/-- The role of a connection and, when the type is known, the frame that is forwarded before the
pumps start. -/
def firstFrame (raw : Bytes) : Option (Role × Option Frame) :=
  match unmarshal raw with
  | none => none
  | some env => (Role.ofName env.sender).map fun role => (role, (EnvType.ofName env.type).map (⟨·, raw⟩))

/-- Dropped when it is no envelope or has an unknown type, and marshalled anew when its `from` is
not the registered role. -/
def readFrame (role : Role) (raw : Bytes) : Option Frame :=
  match unmarshal raw with
  | none => none
  | some env =>
    (EnvType.ofName env.type).map fun typ =>
      ⟨typ, if env.sender = role.name then raw else marshal typ.name role env.data⟩

/-- Past the colon to the first byte of the value. `none` means the colon is missing and the search
goes on. -/
def iceDataAfterKey (bs : Bytes) : Option Bool :=
  let blank (b : UInt8) : Bool := b == 0x20 || b == 0x09
  match bs.dropWhile blank with
  | [] => none
  | c :: rest =>
    if c ≠ 0x3a then none
    else match rest.dropWhile blank with
      | [] => some false
      | v => some (!(ascii "null").isPrefixOf v)

/-- The key is looked for while more than its own length of the frame is left. -/
def hasICEData : Bytes → Bool
  | [] => false
  | b :: bs =>
    if (b :: bs).length ≤ (ascii "\"data\"").length then false
    else if (ascii "\"data\"").isPrefixOf (b :: bs) then
      match iceDataAfterKey ((b :: bs).drop (ascii "\"data\"").length) with
      | some found => found
      | none => hasICEData bs
    else hasICEData bs

def replayableTypes : List EnvType := [.offer, .answer, .requestRenegotiate]

def isReplayable (typ : EnvType) : Bool := replayableTypes.contains typ

theorem Role.other_ne (role : Role) : role.other ≠ role := by cases role <;> decide

theorem Role.ofName_eq_some (name : Bytes) (role : Role) :
    Role.ofName name = some role ↔ name = role.name := by
  constructor
  · intro h
    have := List.find?_some h
    simpa using (beq_iff_eq.mp this).symm
  · rintro rfl
    cases role <;> decide

theorem EnvType.ofName_eq_some (name : Bytes) (typ : EnvType) :
    EnvType.ofName name = some typ ↔ name = typ.name := by
  constructor
  · intro h
    have := List.find?_some h
    simpa using (beq_iff_eq.mp this).symm
  · rintro rfl
    cases typ <;> decide

theorem unmarshal_typed (raw : Bytes) (env : Envelope) (typ : EnvType)
    (h : unmarshal raw = some env) (ht : env.type = typ.name) :
    ∃ ms, parse maxNestingDepth raw = some (.obj ms) ∧
      stringField (ascii "type") ms = some env.type ∧
      stringField (ascii "from") ms = some env.sender ∧
      rawField (ascii "data") ms = env.data := by
  unfold unmarshal at h
  split at h
  next ms hp =>
    split at h
    next type sender htype hsdr =>
      obtain rfl : _ = env := Option.some.inj h
      exact ⟨ms, hp, htype, hsdr, rfl⟩
    · simp at h
  · obtain rfl : _ = env := Option.some.inj h
    cases typ <;> simp [EnvType.name, ascii] at ht
  · simp at h

end Chromeless.Signaling
