import Chromeless.LibNumber
import Chromeless.UploadEnvelopes

/-! The viewer's half of file upload (`client/src/file-upload.ts`). Everything else comes in between
the awaits of `driveUpload`. -/
namespace Chromeless.UploadClient
open Json Uploads Number

def MAX_CHUNK_SIZE : ℕ := 1024*1024

inductive ReadyState
  | connecting | open | closing | closed
deriving DecidableEq

structure Options where
  chunkSize : Number
  bufferedHighWater : Number
  maxTotalSize : Number
deriving DecidableEq

def Options.accepted (opts : Options) : Bool := !(ofNat MAX_CHUNK_SIZE).lt opts.chunkSize

structure File where
  name : Bytes
  type : Bytes
  contents : Bytes
deriving DecidableEq

/-- Where `driveUpload` is suspended. `off`, `seq` and `sent` are its variables. -/
inductive Point
  /-- `file.arrayBuffer()` -/
  | reading
  | hashing
  | sentStart
  /-- `waitIfBuffered()` -/
  | waiting (off : Number) (seq sent : ℕ)
  | sentChunk (off : Number) (seq sent : ℕ)
  /-- in `onProgress`, which may itself call the channel -/
  | reporting (off : Number) (seq sent : ℕ)
  | sentEnd
  /-- the promise that it awaits is rejected -/
  | failing (code : Bytes)
  | returned
deriving DecidableEq

/-- A call of `driveUpload`. `onProgress` is whether there is such a callback. -/
structure Drive where
  uploadId : Bytes
  name : Bytes
  mimeType : Bytes
  contents : Bytes
  targetSelector : Option Bytes
  onProgress : Bool
  point : Point := .reading
deriving DecidableEq

structure Pending where
  onServerProgress : Bool
  cancelled : Bool := false
deriving DecidableEq

inductive ServerEnvelope
  | progress (uploadId : Bytes) (bytesReceived bytesTotal : ℤ)
  | complete (uploadId serverPath attachedVia : Bytes)
  | error (uploadId code : Bytes)
deriving DecidableEq

def ServerEnvelope.uploadId : ServerEnvelope → Bytes
  | progress id _ _ | complete id _ _ | error id _ => id

/-- What the channel does that others can see: what it sends, the callbacks it makes and the
promises it settles. -/
inductive Output
  | sends (env : Envelope)
  | progress (uploadId : Bytes) (bytesSent bytesTotal : ℕ)
  | serverProgress (env : ServerEnvelope)
  | resolves (uploadId serverPath attachedVia : Bytes)
  | rejects (uploadId code : Bytes)
deriving DecidableEq

/-- `bufferedLowWaiters` has the drives whose promises it resolves. -/
structure Channel where
  readyState : ReadyState
  bufferedAmount : ℕ
  pending : AList fun _ : Bytes => Pending := ∅
  bufferedLowWaiters : List ℕ := []
  drives : List Drive := []
  log : List Output := []

inductive Event
  | uploadFile (uploadId : Bytes) (file : File) (targetSelector : Option Bytes) (onProgress onServerProgress : Bool)
  /-- `throws` is whether `send` does -/
  | cancel (uploadId : Bytes) (throws : Bool)
  /-- the `i`-th drive goes on. `failed` has the code of what it is rejected with, or its callback
throws; `throws` is whether `send` does. -/
  | resume (i : ℕ) (failed : Option Bytes) (throws : Bool)
  | message (env : ServerEnvelope)
  | bufferedAmountLow
  /-- the peer connection changes the attributes of the channel -/
  | channel (readyState : ReadyState) (bufferedAmount : ℕ)

namespace Channel

def say (s : Channel) (o : Output) : Channel := { s with log := s.log ++ [o] }

def goTo (s : Channel) (i : ℕ) (d : Drive) (point : Point) : Channel :=
  { s with drives := s.drives.set i { d with point := point } }

def fail (s : Channel) (i : ℕ) (d : Drive) (code : Bytes) : Channel :=
  match s.pending.lookup d.uploadId with
  | none => s.goTo i d .returned
  | some _ =>
    ({ s with pending := s.pending.erase d.uploadId }.say (.rejects d.uploadId code)).goTo i d
      .returned

def sendThen (s : Channel) (i : ℕ) (d : Drive) (env : Envelope) (throws : Bool) (point : Point) :
    Channel :=
  if s.readyState ≠ .open ∨ throws then s.goTo i d (.failing (ascii "internal_error"))
  else (s.say (.sends env)).goTo i d point

def goesOn (s : Channel) (uploadId : Bytes) : Bool :=
  (s.pending.lookup uploadId).any fun p => !p.cancelled

def cancel (s : Channel) (uploadId : Bytes) (throws : Bool) : Channel :=
  match s.pending.lookup uploadId with
  | none => s
  | some _ =>
    let s := if s.readyState = .open ∧ throws = false then s.say (.sends (.cancel uploadId)) else s
    { s with pending := s.pending.erase uploadId }.say (.rejects uploadId (ascii "cancelled"))

def onMessage (s : Channel) (env : ServerEnvelope) : Channel :=
  match s.pending.lookup env.uploadId with
  | none => s
  | some p =>
    match env with
    | .progress _ _ _ => if p.onServerProgress then s.say (.serverProgress env) else s
    | .complete id path via => { s with pending := s.pending.erase id }.say (.resolves id path via)
    | .error id code => { s with pending := s.pending.erase id }.say (.rejects id code)

end Channel

section
variable (R : Rounding) (opts : Options) (hash : Bytes → Bytes)

def Drive.start (d : Drive) : Envelope :=
  .start d.uploadId d.name d.mimeType d.contents.length (hash d.contents) d.targetSelector

def Drive.slice (d : Drive) (off : Number) : Bytes :=
  subarray d.contents off (min (off.add R opts.chunkSize) (ofNat d.contents.length))

def Drive.chunk (d : Drive) (off : Number) (seq : ℕ) : Envelope :=
  .chunk d.uploadId seq (Base64.encode Base64.standard (d.slice R opts off))

namespace Channel

def uploadFile (s : Channel) (id : Bytes) (file : File) (targetSelector : Option Bytes)
    (onProgress onServerProgress : Bool) : Channel :=
  let name := if file.name = [] then ascii "upload.bin" else file.name
  let mimeType := if file.type = [] then ascii "application/octet-stream" else file.type
  if opts.maxTotalSize.lt (ofNat file.contents.length) then
    s.say (.rejects id (ascii "size_limit_exceeded"))
  else
    { s with
      pending := s.pending.insert id ⟨onServerProgress, false⟩
      drives := s.drives ++ [⟨id, name, mimeType, file.contents, targetSelector, onProgress, .reading⟩] }

def loopHead (s : Channel) (i : ℕ) (d : Drive) (off : Number) (seq sent : ℕ) (throws : Bool) :
    Channel :=
  if off.lt (ofNat d.contents.length) then
    if s.goesOn d.uploadId then
      let s := s.goTo i d (.waiting off seq sent)
      if (ofNat s.bufferedAmount).lt opts.bufferedHighWater then s
      else { s with bufferedLowWaiters := s.bufferedLowWaiters ++ [i] }
    else s.goTo i d .returned
  else s.sendThen i d (.finish d.uploadId) throws .sentEnd

def resume (s : Channel) (i : ℕ) (d : Drive) (failed : Option Bytes) (throws : Bool) : Channel :=
  match d.point with
  | .reading =>
    match failed with
    | some code => s.fail i d code
    | none => s.goTo i d .hashing
  | .hashing =>
    match failed with
    | some code => s.fail i d code
    | none =>
      if s.goesOn d.uploadId then s.sendThen i d (d.start hash) throws .sentStart
      else s.goTo i d .returned
  | .sentStart => s.loopHead opts i d (.finite 0) 0 0 throws
  | .waiting off seq sent =>
    if i ∈ s.bufferedLowWaiters then s
    else s.sendThen i d (d.chunk R opts off seq) throws (.sentChunk off seq sent)
  | .sentChunk off seq sent =>
    let sent := sent + (d.slice R opts off).length
    if d.onProgress then
      (s.say (.progress d.uploadId sent d.contents.length)).goTo i d (.reporting off (seq+1) sent)
    else s.loopHead opts i d (off.add R opts.chunkSize) (seq+1) sent throws
  | .reporting off seq sent =>
    match failed with
    | some code => s.fail i d code
    | none => s.loopHead opts i d (off.add R opts.chunkSize) seq sent throws
  | .sentEnd => s.goTo i d .returned
  | .failing code => s.fail i d code
  | .returned => s

end Channel

def step (s : Channel) : Event → Channel
  | .uploadFile id file targetSelector onProgress onServerProgress =>
    s.uploadFile opts id file targetSelector onProgress onServerProgress
  | .cancel id throws => s.cancel id throws
  | .resume i failed throws => s.drives[i]?.elim s fun d => s.resume R opts hash i d failed throws
  | .message env => s.onMessage env
  | .bufferedAmountLow => { s with bufferedLowWaiters := [] }
  | .channel readyState bufferedAmount => { s with readyState := readyState, bufferedAmount := bufferedAmount }

abbrev run (s : Channel) (es : List Event) : Channel := Runs.run (step R opts hash) s es

end

end Chromeless.UploadClient
