import Chromeless.CaptureReconnect
import Chromeless.LibFraming
import Mathlib.Algebra.GroupWithZero.Nat
import Mathlib.Tactic.Cases

/-! The receive path of `capture/signaling/cb_signaling_ws_client.cc`. Frames are announced and
their bytes come through one data pipe. No watcher is ever set on the pipe, so `OnReadable` is no
step here. -/
namespace Chromeless.Capture
open Json Framing Runs List
open List (length_append append_assoc length_drop flatten map_cons length_nil append_nil sum_cons
  flatten_append mem_append map_append length_take flatten_nil flatten_cons nil_append flatMap_cons
  mem_cons)

inductive MessageType
  | continuation
  | text
  | binary
deriving DecidableEq

structure InboundFrame where
  fin : Bool
  type : MessageType
  dataLength : ℕ
deriving DecidableEq

def InboundFrame.piece (frame : InboundFrame) : Piece := ⟨frame.fin, frame.dataLength⟩

/-- `readable_`: reset, the consumer end of a pipe with bytes in it, or of one that fails. -/
inductive Readable
  | reset
  | pipe (bytes : Bytes)
  | faulty
deriving DecidableEq

def Readable.bytes : Readable → Bytes
  | .pipe bytes => bytes
  | _ => []

/-- `decoded` are the payloads that were given to `Decode` and `calls` the calls of the observer so
far; nothing reads them. -/
structure Inbound where
  client : SignalingWsClient
  readable : Readable
  pendingFrames : List InboundFrame
  inboundMessage : Bytes
  receivingMessage : Bool
  decoded : List Bytes
  calls : List Callback
deriving DecidableEq

namespace Inbound

def established : Inbound := ⟨⟨.opened⟩, .pipe [], [], [], false, [], [.onConnected]⟩

def failWithError (r : Inbound) (reason : String) : Inbound :=
  if r.client.state = .closed then r
  else
    { r with
      client := ⟨.closed⟩, readable := .reset, pendingFrames := [], inboundMessage := []
      receivingMessage := false, calls := r.calls ++ [.onError reason] }

section
variable (decode : Bytes → Option Envelope)

def finishFrame (r : Inbound) (fin : Bool) : Inbound :=
  if !fin then r
  else
    let payload := r.inboundMessage
    let r := { r with inboundMessage := [], decoded := r.decoded ++ [payload] }
    match decode payload with
    | none => r.failWithError "R1 Decode() rejected inbound frame"
    | some env => { r with calls := r.calls ++ [.onEnvelope env] }

/-- How much of the pipe `BeginReadData` shows: some of it, at least one byte. The sizes of the
successive regions are an input. -/
def regionSize (regions : List ℕ) (bytes : Bytes) : ℕ :=
  match regions with
  | [] => bytes.length
  | n :: _ => min (n + 1) bytes.length

/-- The loop of `ConsumePendingFrames`. Each turn takes a frame off the queue or at least a byte out
of the pipe. -/
def consumeLoop : ℕ → List ℕ → Inbound → Inbound
  | 0, _, r => r
  | turns + 1, regions, r =>
    if r.client.state ≠ .opened then r
    else match r.pendingFrames with
      | [] => r
      | frame :: frames =>
        if frame.dataLength = 0 then
          consumeLoop turns regions ({ r with pendingFrames := frames }.finishFrame decode frame.fin)
        else match r.readable with
          | .reset => r
          | .faulty => r.failWithError "readable pipe error during BeginReadData"
          | .pipe bytes =>
            let size := regionSize regions bytes
            -- nothing to read: `MOJO_RESULT_SHOULD_WAIT`, or the producer is gone
            if size = 0 then r
            else if frame.dataLength ≤ size then
              consumeLoop turns regions.tail
                ({ r with
                  inboundMessage := r.inboundMessage ++ bytes.take frame.dataLength
                  readable := .pipe (bytes.drop frame.dataLength)
                  pendingFrames := frames }.finishFrame decode frame.fin)
            else
              consumeLoop turns regions.tail
                { r with
                  inboundMessage := r.inboundMessage ++ bytes.take size
                  readable := .pipe (bytes.drop size)
                  pendingFrames := { frame with dataLength := frame.dataLength - size } :: frames }

def consumePendingFrames (r : Inbound) (regions : List ℕ) : Inbound :=
  if r.client.state ≠ .opened ∨ r.readable = .reset then r
  else consumeLoop decode (r.pendingFrames.length + r.readable.bytes.length) regions r

def onDataFrame (r : Inbound) (frame : InboundFrame) (regions : List ℕ) : Inbound :=
  if r.client.state ≠ .opened then r
  else if frame.type ≠ .text ∧ frame.type ≠ .continuation then
    r.failWithError "unexpected non-text frame on signaling channel"
  else if decide (frame.type = .text) = r.receivingMessage then
    r.failWithError (if frame.type = .text then "TEXT frame while a message is still open"
      else "CONTINUATION frame with no message open")
  else
    { r with
      receivingMessage := !frame.fin
      pendingFrames := r.pendingFrames ++ [frame] }.consumePendingFrames decode regions

/-- What the network service does: it writes into the pipe, announces a frame, or the pipe
fails. -/
inductive Act
  | bytes (data : Bytes)
  | dataFrame (frame : InboundFrame) (regions : List ℕ)
  | pipeFault
deriving DecidableEq

def step (r : Inbound) : Act → Inbound
  | .bytes data =>
    match r.readable with
    | .pipe bytes => { r with readable := .pipe (bytes ++ data) }
    | _ => r
  | .dataFrame frame regions => r.onDataFrame decode frame regions
  | .pipeFault =>
    match r.readable with
    | .pipe _ => { r with readable := .faulty }
    | _ => r

end

end Inbound

def receive (decode : Bytes → Option Envelope) (acts : List Inbound.Act) : Inbound :=
  run (Inbound.step decode) Inbound.established acts

def announced : MessageType → List Bytes → List InboundFrame
  | _, [] => []
  | type, [part] => [⟨true, type, part.length⟩]
  | type, part :: parts => ⟨false, type, part.length⟩ :: announced .continuation parts

namespace Inbound

def Act.header : Act → Option InboundFrame
  | .dataFrame frame _ => some frame
  | _ => none

def Act.data : Act → Bytes
  | .bytes data => data
  | _ => []

/-- The network service announces the frames of `messages` and writes their bytes, both in order but
the one regardless of the other. -/
structure Delivers (messages : List (List Bytes)) (acts : List Act) : Prop where
  fragments : ∀ parts ∈ messages, parts ≠ []
  headers : acts.filterMap Act.header = messages.flatMap (announced .text)
  data : acts.flatMap Act.data = messages.flatMap flatten
  sound : .pipeFault ∉ acts

def due (decode : Bytes → Option Envelope) (messages : List (List Bytes)) : List Bytes :=
  upTo (fun payload => (decode payload).isSome) (messages.map flatten)

def early : List Act → Bytes
  | [] => []
  | a :: acts => if (a :: acts).any (·.header.isSome) then a.data ++ early acts else []

section
variable {decode : Bytes → Option Envelope}

open InboundFrame

/-- A drain of an open channel hands on messages that `Decode` takes, and ends with the channel open
or with a message that is rejected. The queue, the pipe and the message under reassembly stand for
the same messages before and after. -/
inductive Drained (decode : Bytes → Option Envelope) (r : Inbound) (bytes : Bytes) :
    Inbound → Prop where
  | opened {r' : Inbound} {bytes' : Bytes} (new : List Bytes)
      (hopen : r'.client.state = .opened) (hpipe : r'.readable = .pipe bytes')
      (hreceiving : r'.receivingMessage = r.receivingMessage)
      (hdecoded : r'.decoded = r.decoded ++ new)
      (hgood : ∀ payload ∈ new, (decode payload).isSome = true)
      (hjoined : ∀ ps data,
        joined (r.pendingFrames.map piece ++ ps) r.inboundMessage (bytes ++ data) =
          new ++ joined (r'.pendingFrames.map piece ++ ps) r'.inboundMessage (bytes' ++ data))
      (hsize : new.flatten.length + r'.inboundMessage.length + bytes'.length = r.inboundMessage.length + bytes.length)
      (hframes : (r.pendingFrames.map InboundFrame.dataLength).sum + bytes'.length =
        (r'.pendingFrames.map InboundFrame.dataLength).sum + bytes.length) :
      Drained decode r bytes r'
  | rejected {r' : Inbound} (new : List Bytes) (bad : Bytes)
      (hclosed : r'.client.state = .closed) (hpipe : r'.readable = .reset)
      (hdecoded : r'.decoded = r.decoded ++ (new ++ [bad]))
      (hgood : ∀ payload ∈ new, (decode payload).isSome = true)
      (hbad : (decode bad).isSome = false)
      (hjoined : ∀ ps data, ∃ rest,
        joined (r.pendingFrames.map piece ++ ps) r.inboundMessage (bytes ++ data) = new ++ bad :: rest)
      (hsize : (new ++ [bad]).flatten.length ≤ r.inboundMessage.length + bytes.length) :
      Drained decode r bytes r'

variable {r : Inbound} {frame : InboundFrame} {frames : List InboundFrame}
  {messages : List (List Bytes)} {payloads : List Bytes} {data : Bytes} {acts : List Act}

theorem Drained.refl {bytes : Bytes} (hopen : r.client.state = .opened)
    (hpipe : r.readable = .pipe bytes) : Drained decode r bytes r :=
  .opened [] hopen hpipe rfl (by simp) (by simp) (fun _ _ => rfl) (by simp) rfl

theorem Drained.trans {r₁ r₂ : Inbound} {bytes bytes₁ : Bytes} (h : Drained decode r bytes r₁)
    (hpipe₁ : r₁.readable = .pipe bytes₁) (h' : Drained decode r₁ bytes₁ r₂) :
    Drained decode r bytes r₂ := by
  cases h with
  | rejected _ _ _ hrst => simp [hpipe₁] at hrst
  | @opened b new hopen hpipe hrcv hdec hgood hjoin =>
    obtain rfl : b = bytes₁ := by simpa [hpipe₁] using hpipe.symm
    cases h' with
    | opened new' hopen' hpipe' hrcv' hdec' hgood' hjoin' =>
      refine .opened (new ++ new') hopen' hpipe' (hrcv'.trans hrcv) ?_ ?_ ?_ ?_ (by omega)
      · rw [hdec', hdec, append_assoc]
      · exact forall_mem_append.mpr ⟨hgood, hgood'⟩
      · intro ps data
        rw [hjoin, hjoin', append_assoc]
      · rw [flatten_append, length_append]
        omega
    | rejected new' bad hcl' hpipe' hdec' hgood' hbad' hjoin' =>
      refine .rejected (new ++ new') bad hcl' hpipe' ?_ ?_ hbad' ?_ ?_
      · rw [hdec', hdec, append_assoc, append_assoc]
      · exact forall_mem_append.mpr ⟨hgood, hgood'⟩
      · intro ps data
        obtain ⟨rest, hrest⟩ := hjoin' ps data
        exact ⟨rest, by rw [hjoin, hrest, append_assoc]⟩
      · rw [append_assoc, flatten_append, length_append]
        omega

theorem drained_frame {bytes : Bytes} (hopen : r.client.state = .opened)
    (hfrs : r.pendingFrames = frame :: frames) (hlen : frame.dataLength ≤ bytes.length) :
    Drained decode r bytes
      ({ r with
        inboundMessage := r.inboundMessage ++ bytes.take frame.dataLength
        readable := .pipe (bytes.drop frame.dataLength)
        pendingFrames := frames }.finishFrame decode frame.fin) := by
  have htake : ∀ data : Bytes, (bytes ++ data).take frame.dataLength =
      bytes.take frame.dataLength := fun data => take_append_of_le_length hlen
  have hdrop : ∀ data : Bytes, (bytes ++ data).drop frame.dataLength =
      bytes.drop frame.dataLength ++ data := fun data => drop_append_of_le_length hlen
  have hfraSum : ((frame :: frames).map InboundFrame.dataLength).sum +
      (bytes.drop frame.dataLength).length =
      (frames.map InboundFrame.dataLength).sum + bytes.length := by
    rw [map_cons, sum_cons, length_drop]
    omega
  cases hfin : frame.fin with
  | false =>
    refine .opened [] hopen rfl rfl (by simp [finishFrame]) (by simp) ?_ ?_ ?_
    · simp [hfrs, joined, piece, hfin, htake, hdrop, finishFrame]
    · simp only [finishFrame, Bool.not_false, ↓reduceIte, flatten_nil, length_nil,
        length_append, length_take, length_drop]
      omega
    · simp only [finishFrame, Bool.not_false, ↓reduceIte, hfrs, hfraSum]
  | true =>
    have hjoin : ∀ ps data, joined (r.pendingFrames.map piece ++ ps)
        r.inboundMessage (bytes ++ data) =
        (r.inboundMessage ++ bytes.take frame.dataLength) ::
          joined (frames.map piece ++ ps) [] (bytes.drop frame.dataLength ++ data) := by
      simp [hfrs, joined, piece, hfin, htake, hdrop]
    cases henv : decode (r.inboundMessage ++ bytes.take frame.dataLength) with
    | none =>
      simp only [finishFrame, Bool.not_true, Bool.false_eq_true, ↓reduceIte, henv, failWithError, hopen, reduceCtorEq]
      refine .rejected [] (r.inboundMessage ++ bytes.take frame.dataLength) rfl rfl
        (by simp) (by simp) (by simp [henv]) ?_ ?_
      · exact fun ps data => ⟨_, hjoin ps data⟩
      simp only [nil_append, flatten_cons, flatten_nil, append_nil,
        length_append, length_take]
      omega
    | some =>
      simp only [finishFrame, Bool.not_true, Bool.false_eq_true, ↓reduceIte, henv]
      refine .opened [r.inboundMessage ++ bytes.take frame.dataLength] hopen rfl rfl rfl (by simp [henv]) hjoin ?_ ?_
      · simp only [flatten_cons, flatten_nil, append_nil, length_append,
          length_take, length_drop, length_nil]
        omega
      · simp only [hfrs, hfraSum]

theorem drained_part {bytes : Bytes} {size : ℕ} (hopen : r.client.state = .opened)
    (hfrs : r.pendingFrames = frame :: frames) (hsize : size ≤ bytes.length) (hpart : size ≤ frame.dataLength) :
    Drained decode r bytes
      { r with
        inboundMessage := r.inboundMessage ++ bytes.take size
        readable := .pipe (bytes.drop size)
        pendingFrames := { frame with dataLength := frame.dataLength - size } :: frames } := by
  refine .opened [] hopen rfl rfl (by simp) (by simp) ?_ ?_ ?_
  · intro ps data
    have hjoin := joined_part frame.piece (frames.map piece ++ ps) r.inboundMessage (bytes ++ data) (n := size) hpart
    rw [take_append_of_le_length hsize, drop_append_of_le_length hsize] at hjoin
    simpa [hfrs, piece] using hjoin
  · simp only [flatten_nil, length_nil, length_append, length_take,
      length_drop]
    omega
  · simp only [hfrs, map_cons, sum_cons, length_drop]
    omega

theorem finishFrame_opened {fin : Bool} (h : (r.finishFrame decode fin).client.state = .opened) :
    (r.finishFrame decode fin).pendingFrames = r.pendingFrames ∧ (r.finishFrame decode fin).readable = r.readable := by
  cases fin with
  | false => exact ⟨rfl, rfl⟩
  | true =>
    cases henv : decode r.inboundMessage with
    | some => simp [finishFrame, henv]
    | none =>
      simp only [finishFrame, Bool.not_true, Bool.false_eq_true, ↓reduceIte, henv, failWithError] at h ⊢
      split at h
      next hcl => simp [hcl] at h
      · simp at h

theorem consumeLoop_closed (h : r.client.state ≠ .opened) (turns : ℕ) (regions : List ℕ) :
    consumeLoop decode turns regions r = r := by
  cases turns with
  | zero => rfl
  | succ => rw [consumeLoop, if_pos h]

def Rests (r : Inbound) : Prop :=
  r.client.state = .opened → r.pendingFrames = [] ∨
    ∃ frame frames, r.pendingFrames = frame :: frames ∧ 0 < frame.dataLength ∧ r.readable = .pipe []

theorem regionSize_le (regions : List ℕ) (bytes : Bytes) :
    regionSize regions bytes ≤ bytes.length := by
  cases regions with
  | nil => exact Nat.le_refl _
  | cons => exact Nat.min_le_right _ _

theorem regionSize_eq_zero {regions : List ℕ} {bytes : Bytes} (h : regionSize regions bytes = 0) : bytes = [] := by
  cases regions with
  | nil => exact length_eq_zero_iff.mp h
  | cons =>
    rw [regionSize] at h
    exact length_eq_zero_iff.mp (by omega)

theorem consumeLoop_drained (turns : ℕ) (regions : List ℕ) (r : Inbound) {bytes : Bytes}
    (hopen : r.client.state = .opened) (hpipe : r.readable = .pipe bytes)
    (hturns : r.pendingFrames.length + bytes.length ≤ turns) :
    Drained decode r bytes (consumeLoop decode turns regions r) ∧ (consumeLoop decode turns regions r).Rests := by
  induction turns generalizing regions r bytes with
  | zero =>
    have hnil : r.pendingFrames = [] := length_eq_zero_iff.mp (by omega)
    exact ⟨.refl hopen hpipe, fun _ => .inl hnil⟩
  | succ turns ih =>
    -- a turn that reads leaves the loop, or hands over to the rest of it
    have hnext : ∀ r₁ regions, Drained decode r bytes r₁ →
        (r₁.client.state = .opened → r₁.pendingFrames.length + r₁.readable.bytes.length ≤ turns) →
        Drained decode r bytes (consumeLoop decode turns regions r₁) ∧ (consumeLoop decode turns regions r₁).Rests := by
      intro r₁ regions hr hless
      by_cases hopen₁ : r₁.client.state = .opened
      · cases hr with
        | rejected _ _ hcl => simp [hcl] at hopen₁
        | opened new _ hpipe₁ hrcv hdec hgood hjoin hsize hsum =>
          have hle := hless hopen₁
          rw [hpipe₁] at hle
          obtain ⟨hdrd, hrests⟩ := ih regions r₁ hopen₁ hpipe₁ hle
          refine ⟨Drained.trans ?_ hpipe₁ hdrd, hrests⟩
          exact .opened new hopen₁ hpipe₁ hrcv hdec hgood hjoin hsize hsum
      · rw [consumeLoop_closed hopen₁]
        exact ⟨hr, fun h => absurd h hopen₁⟩
    rw [consumeLoop, if_neg (not_not.mpr hopen)]
    cases hfrs : r.pendingFrames with
    | nil => exact ⟨.refl hopen hpipe, fun _ => .inl hfrs⟩
    | cons frame frames =>
      rw [hfrs, length_cons] at hturns
      dsimp only
      split
      · -- an empty frame
        rename_i hzero
        have hsame : ({ r with pendingFrames := frames } : Inbound) =
            { r with
              inboundMessage := r.inboundMessage ++ bytes.take frame.dataLength
              readable := .pipe (bytes.drop frame.dataLength)
              pendingFrames := frames } := by
          simp [hzero, ← hpipe]
        rw [hsame]
        refine hnext _ _ (drained_frame hopen hfrs (by omega)) fun h => ?_
        obtain ⟨hpend, hread⟩ := finishFrame_opened h
        rw [hpend, hread]
        simp only [Readable.bytes, length_drop]
        omega
      next hpos =>
        simp only [hpipe]
        split
        · -- the pipe is empty
          rename_i hsize
          obtain rfl := regionSize_eq_zero hsize
          exact ⟨.refl hopen hpipe, fun _ => .inr ⟨frame, frames, hfrs, by omega, hpipe⟩⟩
        next hsize =>
          have hle := regionSize_le regions bytes
          split
          · -- the whole frame
            refine hnext _ _ (drained_frame hopen hfrs (by omega)) fun h => ?_
            obtain ⟨hpend, hread⟩ := finishFrame_opened h
            rw [hpend, hread]
            simp only [Readable.bytes, length_drop]
            omega
          -- a part of it
          refine hnext _ _ (drained_part hopen hfrs hle (by omega)) fun _ => ?_
          simp only [Readable.bytes, length_drop, length_cons]
          omega

def InSequence : Bool → List InboundFrame → Prop
  | _, [] => True
  | receiving, frame :: frames =>
    frame.type = (if receiving then .continuation else .text) ∧ InSequence (!frame.fin) frames

theorem inSequence_announced (receiving : Bool) {parts : List Bytes} (hne : parts ≠ [])
    (hrest : InSequence false frames) :
    InSequence receiving (announced (if receiving then .continuation else .text) parts ++ frames) := by
  induction parts generalizing receiving with
  | nil => exact absurd rfl hne
  | cons part parts ih =>
    cases parts with
    | nil => exact ⟨rfl, hrest⟩
    | cons => exact ⟨rfl, ih true (by simp)⟩

theorem inSequence_messages (hne : ∀ parts ∈ messages, parts ≠ []) :
    InSequence false (messages.flatMap (announced .text)) := by
  induction messages with
  | nil => trivial
  | cons parts messages ih =>
    exact inSequence_announced false (hne parts mem_cons_self) (ih fun parts h => hne parts (mem_cons_of_mem _ h))

theorem piece_announced (type : MessageType) (parts : List Bytes) :
    (announced type parts).map piece = pieces parts := by
  induction parts generalizing type with
  | nil => rfl
  | cons part parts ih =>
    cases parts with
    | nil => rfl
    | cons =>
      simp only [announced, pieces, map_cons, ih]
      rfl

def held (r : Inbound) : ℕ :=
  r.decoded.flatten.length + r.inboundMessage.length + r.readable.bytes.length

/-- Where the client stands when `frames` are still to be announced and `data` to be written. -/
inductive Receives (decode : Bytes → Option Envelope) (payloads : List Bytes)
    (frames : List InboundFrame) (data : Bytes) (r : Inbound) : Prop where
  | opened {bytes : Bytes} (hopen : r.client.state = .opened) (hpipe : r.readable = .pipe bytes)
      (hgood : ∀ payload ∈ r.decoded, (decode payload).isSome = true)
      (hjoined : r.decoded ++ joined ((r.pendingFrames ++ frames).map piece)
        r.inboundMessage (bytes ++ data) = payloads)
      (hseq : InSequence r.receivingMessage frames)
      (hheld : payloads.flatten.length = r.held + data.length)
      (hsum : ((r.pendingFrames ++ frames).map InboundFrame.dataLength).sum =
        bytes.length + data.length) : Receives decode payloads frames data r
  | rejected (hclosed : r.client.state = .closed) (hpipe : r.readable = .reset)
      (hdecoded : r.decoded = upTo (fun payload => (decode payload).isSome) payloads)
      (hbad : ∃ payload ∈ payloads, (decode payload).isSome = false) :
      Receives decode payloads frames data r

theorem Receives.drained {bytes : Bytes} {r' : Inbound} (h : Receives decode payloads frames data r)
    (hopen : r.client.state = .opened) (hpipe : r.readable = .pipe bytes) (hr : Drained decode r bytes r') :
    Receives decode payloads frames data r' ∧ (r'.client.state = .opened → r'.held = r.held) ∧
      (r'.client.state = .closed → r'.decoded.flatten.length ≤ r.held) := by
  cases h with
  | rejected hcl => simp [hopen] at hcl
  | @opened b _ hpipe' hgood hjoin hseq hheld hsum =>
    obtain rfl : b = bytes := by simpa [hpipe] using hpipe'.symm
    rw [map_append] at hjoin
    cases hr with
    | @opened b' new hopen' hp hrcv hdec hgood' hjoin' =>
      have hkept : r'.held = r.held := by
        simp only [held, hdec, hp, hpipe, Readable.bytes, flatten_append, length_append]
        omega
      refine ⟨.opened hopen' hp ?_ ?_ ?_ ?_ ?_, fun _ => hkept, fun h => by simp [hopen'] at h⟩
      · rw [hdec]
        exact forall_mem_append.mpr ⟨hgood, hgood'⟩
      · rw [← hjoin, hjoin', hdec, append_assoc, map_append]
      · rwa [hrcv]
      · rwa [hkept]
      · simp only [map_append, sum_append] at hsum ⊢
        omega
    | rejected new bad hcl hp hdec hgood' hbad hjoin' hsize =>
      obtain ⟨rest, hrest⟩ := hjoin' (frames.map piece) data
      rw [hrest, ← append_assoc] at hjoin
      refine ⟨.rejected hcl hp ?_ ⟨bad, by simp [← hjoin], hbad⟩, fun h => by simp [hcl] at h, fun _ => ?_⟩
      · have hall := forall_mem_append.mpr ⟨hgood, hgood'⟩
        rw [hdec, ← hjoin, upTo_bad hall hbad, append_assoc]
      simp only [hdec, held, hpipe, Readable.bytes, flatten_append,
        length_append] at hsize ⊢
      omega

theorem consumePendingFrames_eq {bytes : Bytes} (regions : List ℕ)
    (hopen : r.client.state = .opened) (hpipe : r.readable = .pipe bytes) :
    r.consumePendingFrames decode regions = consumeLoop decode (r.pendingFrames.length + bytes.length) regions r := by
  have hbytes : r.readable.bytes = bytes := by
    rw [hpipe]
    rfl
  rw [consumePendingFrames, if_neg (by simp [hopen, hpipe]), hbytes]

theorem Receives.onDataFrame (regions : List ℕ)
    (h : Receives decode payloads (frame :: frames) data r) (hopen : r.client.state = .opened) :
    Receives decode payloads frames data (r.onDataFrame decode frame regions) ∧
      (r.onDataFrame decode frame regions).Rests ∧
      ((r.onDataFrame decode frame regions).client.state = .opened →
        (r.onDataFrame decode frame regions).held = r.held) ∧
      ((r.onDataFrame decode frame regions).client.state = .closed →
        (r.onDataFrame decode frame regions).decoded.flatten.length ≤ r.held) := by
  cases h with
  | rejected hcl => simp [hopen] at hcl
  | @opened bytes _ hpipe hgood hjoin hseq hheld hsum =>
    obtain ⟨htype, hrest⟩ := hseq
    have hkind : ¬ (frame.type ≠ .text ∧ frame.type ≠ .continuation) := by
      rw [htype]
      split <;> simp
    have hturn : ¬ decide (frame.type = .text) = r.receivingMessage := by
      rw [htype]
      cases r.receivingMessage <;> simp
    let queued : Inbound := { r with receivingMessage := !frame.fin, pendingFrames := r.pendingFrames ++ [frame] }
    have hloop : r.onDataFrame decode frame regions =
        consumeLoop decode (queued.pendingFrames.length + bytes.length) regions queued := by
      rw [Inbound.onDataFrame, if_neg (not_not.mpr hopen), if_neg hkind, if_neg hturn]
      exact consumePendingFrames_eq regions hopen hpipe
    have hqueue : Receives decode payloads frames data queued := by
      refine .opened hopen hpipe hgood ?_ hrest hheld ?_
      · rw [← hjoin, append_assoc]
        rfl
      · rw [← hsum, append_assoc]
        rfl
    obtain ⟨hdrd, hrests⟩ := consumeLoop_drained _ regions queued hopen hpipe (Nat.le_refl _)
    rw [hloop]
    obtain ⟨hstn, hheld', hless⟩ := hqueue.drained hopen hpipe hdrd
    exact ⟨hstn, hrests, hheld', hless⟩

theorem Receives.bytes (new : Bytes) (h : Receives decode payloads frames (new ++ data) r)
    (hopen : r.client.state = .opened) :
    Receives decode payloads frames data (r.step decode (.bytes new)) ∧
      (r.step decode (.bytes new)).client.state = .opened ∧
      (r.step decode (.bytes new)).held = r.held + new.length := by
  cases h with
  | rejected hcl => simp [hopen] at hcl
  | @opened bytes _ hpipe hgood hjoin hseq hheld hsum =>
    have hstep : r.step decode (.bytes new) = { r with readable := .pipe (bytes ++ new) } := by simp [step, hpipe]
    have hheld' : ({ r with readable := .pipe (bytes ++ new) } : Inbound).held =
        r.held + new.length := by
      simp only [held, hpipe, Readable.bytes, length_append]
      omega
    rw [hstep]
    refine ⟨.opened hopen rfl hgood ?_ hseq ?_ ?_, hopen, hheld'⟩
    · rw [← hjoin, append_assoc]
    · rw [hheld', hheld, length_append]
      omega
    · rw [hsum, length_append, length_append]
      omega

theorem run_closed (hcl : r.client.state = .closed) (hpipe : r.readable = .reset)
    (acts : List Act) : run (step decode) r acts = r := by
  induction acts with
  | nil => rfl
  | cons a acts ih =>
    have hstep : step decode r a = r := by
      cases a with
      | bytes | pipeFault => simp [step, hpipe]
      | dataFrame => simp [step, onDataFrame, hcl]
    rw [run_cons, hstep, ih]

theorem Receives.at_rest (h : Receives decode payloads [] data r) (hopen : r.client.state = .opened)
    (hrests : r.Rests) :
    r.decoded = upTo (fun payload => (decode payload).isSome) payloads ↔
      (upTo (fun payload => (decode payload).isSome) payloads).flatten.length ≤ r.held := by
  cases h with
  | rejected hcl => simp [hopen] at hcl
  | @opened bytes _ hpipe hgood hjoin hseq hheld hsum =>
    rw [append_nil] at hjoin hsum
    rcases hrests hopen with hnil | ⟨frame, frames, hfrs, hpos, hemp⟩
    · rw [hnil, map_nil, joined, append_nil] at hjoin
      rw [← hjoin, upTo_eq_self hgood]
      simp only [true_iff, held]
      omega
    obtain rfl : bytes = [] := by simpa [hpipe] using hemp
    rw [hfrs, map_cons, sum_cons, length_nil] at hsum
    cases hrest : joined (r.pendingFrames.map piece) r.inboundMessage ([] ++ data) with
    | nil =>
      -- then the missing bytes would belong to no message
      rw [hrest, append_nil] at hjoin
      rw [← hjoin] at hheld
      simp only [held] at hheld
      omega
    | cons payload rest =>
      rw [hrest] at hjoin
      rw [hfrs, map_cons, nil_append] at hrest
      have hle := le_length_of_joined hrest
      simp only [piece] at hle
      obtain ⟨more, hmore⟩ := upTo_cons (fun payload => (decode payload).isSome) payload rest
      rw [← hjoin, upTo_append hgood, hmore]
      constructor
      · intro heq
        have hlen := congrArg length heq
        simp at hlen
      intro hfits
      simp only [flatten_append, flatten_cons, length_append, held, hpipe, Readable.bytes, length_nil] at hfits
      omega

theorem early_nil (h : acts.any (·.header.isSome) = false) : early acts = [] := by
  cases acts with
  | nil => rfl
  | cons => rw [early, if_neg (by simp [h])]

theorem headers_nil (h : acts.any (·.header.isSome) = false) : acts.filterMap Act.header = [] := by
  rw [filterMap_eq_nil_iff]
  intro a ha
  simpa using any_eq_false.mp h a ha

theorem Receives.done (h : Receives decode payloads frames data r)
    (hcl : r.client.state ≠ .opened) (acts : List Act) :
    (Runs.run (step decode) r acts).decoded =
        upTo (fun payload => (decode payload).isSome) payloads ∧ r.decoded =
        upTo (fun payload => (decode payload).isSome) payloads := by
  cases h with
  | opened hopen => exact absurd hopen hcl
  | rejected hcl hpipe hdec =>
    rw [run_closed hcl hpipe]
    exact ⟨hdec, hdec⟩

theorem decoded_le_held (r : Inbound) : r.decoded.flatten.length ≤ r.held := by
  simp only [held]
  omega

theorem Receives.run (acts : List Act) (hsnd : .pipeFault ∉ acts)
    (h : Receives decode payloads (acts.filterMap Act.header) (acts.flatMap Act.data) r) :
    (acts.any (·.header.isSome) = false → (Runs.run (step decode) r acts).decoded = r.decoded) ∧
      (acts.any (·.header.isSome) = true →
        ((Runs.run (step decode) r acts).decoded =
            upTo (fun payload => (decode payload).isSome) payloads ↔
          (upTo (fun payload => (decode payload).isSome) payloads).flatten.length ≤
            r.held + (early acts).length)) := by
  induction acts generalizing r with
  | nil => simp
  | cons a acts ih =>
    rw [mem_cons, not_or] at hsnd
    by_cases hopen : r.client.state = .opened
    · cases a with
      | bytes new =>
        obtain ⟨hstn, -, hheld⟩ := Receives.bytes new h hopen
        obtain ⟨hnone, hsome⟩ := ih hsnd.2 hstn
        have hkept : (r.step decode (.bytes new)).decoded = r.decoded := by
          simp only [step]
          split <;> rfl
        constructor
        · intro hany
          rw [run_cons, hnone hany, hkept]
        · intro hany
          rw [run_cons, hsome hany, hheld, early, if_pos hany, length_append, Act.data, Nat.add_assoc]
      | dataFrame frame regions =>
        obtain ⟨hstn, hrests, hheld, hfits⟩ := Receives.onDataFrame regions h hopen
        obtain ⟨hnone, hsome⟩ := ih hsnd.2 hstn
        refine ⟨by simp [Act.header], fun _ => ?_⟩
        have hear : early (.dataFrame frame regions :: acts) = early acts := by rfl
        rw [run_cons, hear]
        by_cases hopen' : (r.onDataFrame decode frame regions).client.state = .opened
        · rw [← hheld hopen']
          cases hany : acts.any (·.header.isSome) with
          | true => exact hsome hany
          | false =>
            have hlast := hnone hany
            rw [headers_nil hany] at hstn
            rw [early_nil hany, length_nil, Nat.add_zero]
            exact (iff_of_eq (by rw [← hlast]; rfl)).trans (hstn.at_rest hopen' hrests)
        obtain ⟨hend, hdec⟩ := hstn.done hopen' acts
        have hcl : (r.onDataFrame decode frame regions).client.state = .closed := by
          cases hstn with
          | opened h => exact absurd h hopen'
          | rejected h => exact h
        have hle := hfits hcl
        rw [hdec] at hle
        exact iff_of_true hend (by omega)
      | pipeFault => exact absurd rfl hsnd.1
    · obtain ⟨hend, hdec⟩ := h.done hopen (a :: acts)
      refine ⟨fun _ => hend.trans hdec.symm, fun _ => iff_of_true hend ?_⟩
      have hle := decoded_le_held r
      rw [hdec] at hle
      omega

theorem Receives.stands (acts : List Act) (hsnd : .pipeFault ∉ acts)
    (h : Receives decode payloads (acts.filterMap Act.header) (acts.flatMap Act.data) r) :
    Receives decode payloads [] [] (Runs.run (step decode) r acts) := by
  induction acts generalizing r with
  | nil => exact h
  | cons a acts ih =>
    rw [mem_cons, not_or] at hsnd
    by_cases hopen : r.client.state = .opened
    · cases a with
      | bytes new => exact ih hsnd.2 (Receives.bytes new h hopen).1
      | dataFrame frame regions => exact ih hsnd.2 (Receives.onDataFrame regions h hopen).1
      | pipeFault => exact absurd rfl hsnd.1
    cases h with
    | opened h => exact absurd h hopen
    | rejected hcl hpipe hdec hbad =>
      rw [run_closed hcl hpipe]
      exact .rejected hcl hpipe hdec hbad

theorem dataLength_announced (type : MessageType) (parts : List Bytes) :
    ((announced type parts).map InboundFrame.dataLength).sum = parts.flatten.length := by
  induction parts generalizing type with
  | nil => rfl
  | cons part parts ih =>
    cases parts with
    | nil => simp [announced]
    | cons =>
      have hrest := ih .continuation
      simp only [announced, map_cons, sum_cons, flatten_cons, length_append] at hrest ⊢
      rw [hrest]

theorem Delivers.receives (h : Delivers messages acts) :
    Receives decode (messages.map flatten) (acts.filterMap Act.header) (acts.flatMap Act.data) established := by
  have hpiec : (messages.flatMap (announced .text)).map piece = messages.flatMap pieces := by
    rw [map_flatMap]
    exact congrArg (messages.flatMap ·) (funext fun parts => piece_announced .text parts)
  have hlen : (messages.map flatten).flatten.length = (messages.flatMap flatten).length := by rw [flatMap_def]
  have hsum : ((messages.flatMap (announced .text)).map InboundFrame.dataLength).sum =
      (messages.flatMap flatten).length := by
    clear h hpiec hlen
    induction messages with
    | nil => rfl
    | cons parts messages ih =>
      rw [flatMap_cons, map_append, sum_append, ih, dataLength_announced, flatMap_cons, length_append]
  rw [h.headers, h.data]
  refine .opened rfl rfl (by simp [established]) ?_ (inSequence_messages h.fragments) ?_ ?_
  · simp only [established, nil_append, hpiec]
    exact joined_messages messages h.fragments
  · simp [established, held, Readable.bytes, hlen]
  · simpa [established] using hsum

theorem Delivers.headers_nil (h : Delivers messages acts)
    (hany : acts.any (·.header.isSome) = false) : messages = [] := by
  have hnone := (Inbound.headers_nil hany).symm.trans h.headers
  cases messages with
  | nil => rfl
  | cons parts =>
    have hne := h.fragments parts mem_cons_self
    match parts with
    | [] => exact absurd rfl hne
    | [_] => simp [announced] at hnone
    | _ :: _ :: _ => simp [announced] at hnone

end

variable (decode : Bytes → Option Envelope)

variable {messages : List (List Bytes)} {acts : List Act}

theorem receive_opened (h : Delivers messages acts)
    (hall : ∀ parts ∈ messages, (decode parts.flatten).isSome = true) :
    (receive decode acts).client.state = .opened := by
  have hstn : Receives decode (messages.map flatten) [] [] (receive decode acts) := h.receives.stands acts h.sound
  cases hstn with
  | opened hopen => exact hopen
  | rejected _ _ _ hbad =>
    obtain ⟨payload, hmem, hnone⟩ := hbad
    obtain ⟨parts, hparts, rfl⟩ := mem_map.mp hmem
    rw [hall parts hparts] at hnone
    cases hnone

/-- The decoder gets the messages, each once and in order, up to the first that it rejects,
exactly when their bytes are in the pipe by the time the last frame is announced. -/
theorem decoded_eq_due_iff {messages : List (List Bytes)} {acts : List Act} (h : Delivers messages acts) :
    (receive decode acts).decoded = due decode messages ↔
      (due decode messages).flatten.length ≤ (early acts).length := by
  obtain ⟨hnone, hsome⟩ := (h.receives : Receives decode _ _ _ _).run acts h.sound
  cases hany : acts.any (·.header.isSome) with
  | true =>
    have hheld : established.held = 0 := rfl
    rw [hheld, Nat.zero_add] at hsome
    exact hsome hany
  | false =>
    obtain rfl := h.headers_nil hany
    exact iff_of_true (hnone hany) (Nat.zero_le _)

theorem decoded_eq_due_iff_split :
    Delivers [[[1, 2, 3], [4]]] [.bytes [1], .dataFrame ⟨false, .text, 3⟩ [], .bytes [2, 3],
        .bytes [4], .dataFrame ⟨true, .continuation, 1⟩ [0]] ∧
      (receive (fun _ => none) [.bytes [1], .dataFrame ⟨false, .text, 3⟩ [], .bytes [2, 3],
        .bytes [4], .dataFrame ⟨true, .continuation, 1⟩ [0]]).decoded = [[1, 2, 3, 4]] := by
  have h : Delivers [[[1, 2, 3], [4]]] [.bytes [1], .dataFrame ⟨false, .text, 3⟩ [],
      .bytes [2, 3], .bytes [4], .dataFrame ⟨true, .continuation, 1⟩ [0]] :=
    ⟨by decide, by decide, by decide, by decide⟩
  exact ⟨h, (decoded_eq_due_iff (fun _ => none) h).mpr (by decide)⟩

theorem late_bytes_never_decoded :
    let bye := ascii "\x7b\"type\":\"bye\",\"from\":\"client\"\x7d"
    let decode := fun payload : Bytes =>
      if payload = bye then some (⟨.bye, .client, .monostate⟩ : Envelope) else none
    let acts := [.dataFrame ⟨true, .text, bye.length⟩ [], .bytes bye]
    Delivers [[bye]] acts ∧ due decode [[bye]] = [bye] ∧ (receive decode acts).decoded = [] := by
  refine ⟨⟨by decide, by decide, by decide, by decide⟩, by decide, by decide⟩

end Inbound

end Chromeless.Capture
