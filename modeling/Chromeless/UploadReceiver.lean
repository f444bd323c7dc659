import Chromeless.LibBase64
import Chromeless.LibFiles
import Chromeless.LibJsonDatum
import Chromeless.LibJsonEncode
import Chromeless.LibRuns
import Mathlib.Data.List.AList

/-! The guest half of file upload (`cb_file_upload_receiver.cc`). The pool takes its tasks in any
order and several at a time, and the results come back in any order. -/
namespace Chromeless.Uploads
open Json Files

def kProtocolVersion : ℤ := 1

def kMaxUploadBytes : ℤ := 100*1024*1024

def kMaxSessionUploadBytes : ℤ := 512*1024*1024

/-! ### Names and texts -/

def safeByte (c : UInt8) : Bool :=
  (0x61 ≤ c && c ≤ 0x7a) || (0x41 ≤ c && c ≤ 0x5a) || (0x30 ≤ c && c ≤ 0x39) ||
    c = 0x2e || c = 0x5f || c = 0x2d

def safeComponent (raw : Bytes) : Bytes :=
  let out := raw.map fun c => if safeByte c then c else 0x5f
  let out := if out = [] ∨ out = ascii "." ∨ out = ascii ".." then ascii "upload" else out
  out.take 128

def safeId (raw : Bytes) : Bytes := (safeComponent raw).take 64

def uploadPath (uploadId name : Bytes) : Bytes := uploadId ++ ascii "__" ++ name

def toLowerASCII (s : Bytes) : Bytes := s.map fun c => if 0x41 ≤ c ∧ c ≤ 0x5a then c + 0x20 else c

def hexEncode (s : Bytes) : Bytes := s.flatMap fun c => [hexChar (c.toNat/16), hexChar (c.toNat%16)]

theorem hexEncode_ne_nil (digest : Vector UInt8 32) : hexEncode digest.toList ≠ [] := by
  intro hnil
  have hlen : (hexEncode digest.toList).length = 64 := by simp [hexEncode, List.length_flatMap]
  rw [hnil] at hlen
  cases hlen

def truncate (x : ℚ) : ℤ := if 0 ≤ x then x.floor else x.ceil

/-! ### Messages -/

inductive Request
  | start (uploadId name sha256 : Bytes) (declared : ℤ)
  | chunk (uploadId data : Bytes) (seq : ℤ)
  | finish (uploadId : Bytes)
  | cancel (uploadId : Bytes)
deriving DecidableEq

def Request.uploadId : Request → Bytes
  | start id _ _ _ | chunk id _ _ | finish id | cancel id => id

/-- `HandleEnvelope` up to where a handler has the fields that it needs. -/
def readRequest (d : Dict) : Option Request := do
  let v ← d.findInt (ascii "v")
  let type ← d.findString (ascii "type")
  if v ≠ kProtocolVersion then none
  else if type = ascii "file_upload_start" then
    let id ← d.findString (ascii "upload_id")
    let name ← d.findString (ascii "name")
    let sha ← d.findString (ascii "sha256")
    let size ← d.findDouble (ascii "size")
    some (.start (safeId id) name sha (truncate size))
  else if type = ascii "file_upload_chunk" then
    let id ← d.findString (ascii "upload_id")
    let b64 ← d.findString (ascii "data")
    let seq ← d.findInt (ascii "seq")
    some (.chunk (safeId id) b64 seq)
  else if type = ascii "file_upload_end" then
    let id ← d.findString (ascii "upload_id")
    some (.finish (safeId id))
  else if type = ascii "file_upload_cancel" then
    let id ← d.findString (ascii "upload_id")
    some (.cancel (safeId id))
  else none

inductive ChooserMode
  | open | openMultiple | uploadFolder | save
deriving DecidableEq

/-- What the receiver does that others can see: the envelopes that it sends, and the listeners
that it is handed and resolves. -/
inductive Output
  | progress (uploadId : Bytes) (bytesReceived bytesTotal : ℤ)
  | complete (uploadId serverPath attachedVia : Bytes)
  | error (uploadId code error : Bytes)
  | parked (listener : ℕ)
  | fileSelected (listener : ℕ) (path displayName : Bytes) (mode : ChooserMode)
  | fileSelectionCanceled (listener : ℕ)
deriving DecidableEq

/-! ### State -/

/-- `owner` says which of the started uploads it is, and is kept for stating properties. -/
structure Upload where
  name : Bytes
  displayName : Bytes
  sha256 : Bytes
  declaredSize : ℤ
  received : ℤ := 0
  nextSeq : ℤ := 0
  path : Bytes
  writesInFlight : ℤ := 0
  endPending : Bool := false
  owner : ℕ
deriving DecidableEq

def Upload.landed (up : Upload) : Upload :=
  { up with
    writesInFlight := if 0 < up.writesInFlight then up.writesInFlight-1 else up.writesInFlight }

/-- A task of the pool, by what it has left to do. -/
inductive Work
  /-- `AppendChunk` -/
  | append (bytes : Bytes) (first : Bool)
  /-- it has opened the file, at its end for all but the first chunk -/
  | writing (file : Handle) (rest : Bytes) (atEnd : Bool)
  /-- `HashFile` -/
  | hash
  | reading (file : Handle) (contents : Bytes)
  /-- `base::GetDeleteFileCallback` -/
  | delete
  /-- `base::DeletePathRecursively` of the directory of the uploads -/
  | wipe
deriving DecidableEq

def Work.writes : Work → Bool
  | append _ _ | writing _ _ _ => true
  | _ => false

def Work.hashes : Work → Bool
  | hash | reading _ _ => true
  | _ => false

/-- A task that was posted, with the arguments that its reply is bound to. `owner` is the upload
that it was posted for; a wipe has none. -/
structure Task where
  owner : Option ℕ
  uploadId : Bytes
  path : Bytes
  work : Work
deriving DecidableEq

inductive Result
  | written (ok : Bool)
  | hashed (actualSha256 : Bytes) (totalBytes : ℤ)
deriving DecidableEq

structure Reply where
  uploadId : Bytes
  path : Bytes
  result : Result
deriving DecidableEq

structure Completed where
  owner : ℕ
  path : Bytes
  bytes : ℤ
deriving DecidableEq

/-- `log` is all that others have seen. `started`, `abandoned` (rejected or cancelled after that)
and `completed` (in this session) are kept for stating properties. -/
structure Receiver where
  uploads : AList fun _ : Bytes => Upload := ∅
  sessionBytes : ℤ := 0
  pendingListener : Option ℕ := none
  pendingMode : ChooserMode := .open
  chooserDeadline : Bool := false
  alive : Bool := true
  pool : List Task := []
  replies : List Reply := []
  fs : Store Bytes UInt8
  log : List Output := []
  started : List Bytes := []
  completed : List Completed := []
  abandoned : List (ℕ × Bytes) := []

namespace Receiver

def say (s : Receiver) (o : Output) : Receiver := { s with log := s.log ++ [o] }

def put (s : Receiver) (uploadId : Bytes) (up : Upload) : Receiver :=
  { s with uploads := s.uploads.insert uploadId up }

def post (s : Receiver) (t : Task) : Receiver := { s with pool := s.pool ++ [t] }

/-! ### The chooser -/

def cancelChooser (s : Receiver) : Receiver :=
  let s := { s with chooserDeadline := false }
  match s.pendingListener with
  | none => s
  | some listener => { s with pendingListener := none }.say (.fileSelectionCanceled listener)

def beginChooser (s : Receiver) (listener : ℕ) (mode : ChooserMode) : Receiver :=
  { s.cancelChooser with
    pendingListener := some listener, pendingMode := mode, chooserDeadline := true }.say
    (.parked listener)

def resolveChooserWith (s : Receiver) (path displayName : Bytes) : Receiver × Bool :=
  match s.pendingListener with
  | none => (s, false)
  | some listener =>
    ({ s with chooserDeadline := false, pendingListener := none }.say
      (.fileSelected listener path displayName s.pendingMode), true)

/-- What is still being written is counted for the log only. -/
def resetForNewSession (s : Receiver) : Receiver :=
  { s.cancelChooser with uploads := ∅, sessionBytes := 0, completed := [] }.post
    ⟨none, [], [], .wipe⟩

/-! ### Handlers -/

def abandonUpload (s : Receiver) (uploadId : Bytes) (up : Upload) (code message : Bytes) : Receiver :=
  ({ s with
      uploads := s.uploads.erase uploadId
      abandoned := s.abandoned ++ [(up.owner, up.path)] }.post
    ⟨some up.owner, uploadId, up.path, .delete⟩).say (.error uploadId code message)

def newUpload (s : Receiver) (uploadId name sha : Bytes) (declared : ℤ) : Upload :=
  { name := safeComponent name, displayName := name, sha256 := toLowerASCII sha
    declaredSize := declared, path := uploadPath uploadId (safeComponent name)
    owner := s.started.length }

def handleStart (s : Receiver) (uploadId name sha : Bytes) (declared : ℤ) : Receiver :=
  if declared ≤ 0 ∨ kMaxUploadBytes < declared then
    s.say (.error uploadId (ascii "too_large")
      (ascii "file is " ++ formatInt declared ++ ascii " bytes; the limit is " ++ formatInt kMaxUploadBytes))
  else if kMaxSessionUploadBytes < s.sessionBytes + declared then
    s.say (.error uploadId (ascii "session_quota")
      (ascii "this session has already uploaded " ++ formatInt s.sessionBytes ++
        ascii " bytes; the limit is " ++ formatInt kMaxSessionUploadBytes))
  else
    let up := s.newUpload uploadId name sha declared
    { s.put uploadId up with started := s.started ++ [up.path] }

def handleChunk (s : Receiver) (uploadId b64 : Bytes) (seq : ℤ) : Receiver :=
  match s.uploads.lookup uploadId with
  | none => s
  | some up =>
    if seq ≠ up.nextSeq then
      s.abandonUpload uploadId up (ascii "out_of_order")
        (ascii "expected seq " ++ formatInt up.nextSeq ++ ascii ", got " ++ formatInt seq)
    else match Base64.decode Base64.standard b64 with
      | none => s.abandonUpload uploadId up (ascii "bad_base64") (ascii "chunk did not decode")
      | some bytes =>
        if up.declaredSize < up.received + bytes.length then
          s.abandonUpload uploadId up (ascii "too_large") (ascii "more bytes arrived than the declared size")
        else
          (s.put uploadId
            { up with
              nextSeq := up.nextSeq+1, received := up.received + bytes.length
              writesInFlight := up.writesInFlight+1 }).post
            ⟨some up.owner, uploadId, up.path, .append bytes (up.nextSeq+1 = 1)⟩

def finaliseUpload (s : Receiver) (uploadId : Bytes) : Receiver :=
  match s.uploads.lookup uploadId with
  | none => s
  | some up => s.post ⟨some up.owner, uploadId, up.path, .hash⟩

def onChunkWritten (s : Receiver) (uploadId : Bytes) (ok : Bool) : Receiver :=
  match s.uploads.lookup uploadId with
  | none => s
  | some up =>
    let up := up.landed
    let s := s.put uploadId up
    if ¬ ok then
      s.abandonUpload uploadId up (ascii "write_failed") (ascii "could not write to " ++ up.path)
    else
      let s := s.say (.progress uploadId up.received up.declaredSize)
      if up.endPending ∧ up.writesInFlight = 0 then s.finaliseUpload uploadId else s

def handleEnd (s : Receiver) (uploadId : Bytes) : Receiver :=
  match s.uploads.lookup uploadId with
  | none => s
  | some up =>
    if 0 < up.writesInFlight then s.put uploadId { up with endPending := true }
    else s.finaliseUpload uploadId

def commit (s : Receiver) (uploadId path : Bytes) (up : Upload) (totalBytes : ℤ) : Receiver :=
  let (s, attached) :=
    { s with
      uploads := s.uploads.erase uploadId
      sessionBytes := s.sessionBytes + totalBytes
      completed := s.completed ++ [Completed.mk up.owner path totalBytes] }.resolveChooserWith
      path up.displayName
  s.say (.complete uploadId path (if attached then ascii "fileChooser" else ascii "none"))

def onFinalised (s : Receiver) (uploadId path actualSha256 : Bytes) (totalBytes : ℤ) : Receiver :=
  match s.uploads.lookup uploadId with
  | none => s
  | some up =>
    -- `HashFile` returns no hash when it could not read the file
    if actualSha256 = [] then
      s.abandonUpload uploadId up (ascii "hash_failed")
        (ascii "the file could not be hashed " ++ [0xe2, 0x80, 0x94] ++
          ascii " see the guest log for whether the read itself failed")
    else if totalBytes ≠ up.declaredSize then
      s.abandonUpload uploadId up (ascii "truncated")
        (ascii "expected " ++ formatInt up.declaredSize ++ ascii " bytes, have " ++ formatInt totalBytes)
    else if up.sha256 ≠ [] ∧ actualSha256 ≠ up.sha256 then
      s.abandonUpload uploadId up (ascii "hash_mismatch")
        (ascii "expected " ++ up.sha256 ++ ascii ", got " ++ actualSha256)
    else s.commit uploadId path up totalBytes

def handleCancel (s : Receiver) (uploadId : Bytes) : Receiver :=
  let s := s.cancelChooser
  match s.uploads.lookup uploadId with
  | some up => s.abandonUpload uploadId up (ascii "cancelled") (ascii "the viewer cancelled the upload")
  | none => s.say (.error uploadId (ascii "cancelled") (ascii "the viewer cancelled the upload"))

def handle (s : Receiver) : Request → Receiver
  | .start id name sha declared => s.handleStart id name sha declared
  | .chunk id b64 seq => s.handleChunk id b64 seq
  | .finish id => s.handleEnd id
  | .cancel id => s.handleCancel id

def onReply (s : Receiver) (r : Reply) : Receiver :=
  match r.result with
  | .written ok => s.onChunkWritten r.uploadId ok
  | .hashed sha total => s.onFinalised r.uploadId r.path sha total

end Receiver

/-! ### The pool -/

/-- A task has more to do, or it has ended. The deletes and wipes have no reply. -/
inductive Progress
  | goesOn (work : Work)
  | ends (result : Option Result)

section
variable (sha256 : Bytes → Vector UInt8 32)

/-- A task opens its file, writes or reads up to `n+1` bytes more, or ends. `ok` is whether the file
system does its part. -/
def Task.advance (fs : Store Bytes UInt8) (t : Task) (n : ℕ) (ok : Bool) :
    Store Bytes UInt8 × Progress :=
  match t.work with
  | .append bytes first =>
    if ¬ ok then (fs, .ends (some (.written false)))
    else if first then
      let (fs, file) := fs.create t.path
      (fs, .goesOn (.writing file bytes false))
    else match fs.entries t.path with
      -- `base::AppendToFile` does not create the file
      | none => (fs, .ends (some (.written false)))
      | some i => (fs, .goesOn (.writing ⟨i, 0⟩ bytes true))
  | .writing file rest atEnd =>
    if ¬ ok then (fs, .ends (some (.written false)))
    else if rest = [] then (fs, .ends (some (.written true)))
    else
      let file := if atEnd then ⟨file.file, (fs.data file.file).length⟩ else file
      let (fs, file) := Store.write 0 fs file (rest.take (n+1))
      (fs, .goesOn (.writing file (rest.drop (n+1)) atEnd))
  | .hash =>
    if ¬ ok then (fs, .ends (some (.hashed [] 0)))
    else match fs.entries t.path with
      | none => (fs, .ends (some (.hashed [] 0)))
      | some i => (fs, .goesOn (.reading ⟨i, 0⟩ []))
  | .reading file contents =>
    if ¬ ok then (fs, .ends (some (.hashed [] 0)))
    else
      let left := (fs.data file.file).drop file.offset
      if left = [] then
        (fs, .ends (some (.hashed (hexEncode (sha256 contents).toList) contents.length)))
      else
        let part := left.take (n+1)
        (fs, .goesOn (.reading ⟨file.file, file.offset + part.length⟩ (contents ++ part)))
  | .delete => (if ok then fs.remove t.path else fs, .ends none)
  | .wipe => (if ok then fs.clear else fs, .ends none)

def Receiver.runTask (s : Receiver) (i n : ℕ) (ok : Bool) : Receiver :=
  match s.pool[i]? with
  | none => s
  | some t =>
    match t.advance sha256 s.fs n ok with
    | (fs, .goesOn work) => { s with fs := fs, pool := s.pool.set i { t with work := work } }
    | (fs, .ends result) =>
      { s with
        fs := fs, pool := s.pool.eraseIdx i
        replies := s.replies ++ (result.map (Reply.mk t.uploadId t.path)).toList }

/-! ### Runs -/

inductive Event
  /-- an object arrives on the channel -/
  | message (d : Dict)
  /-- the `i`-th outstanding task goes on -/
  | task (i n : ℕ) (ok : Bool)
  /-- the `i`-th outstanding reply is run -/
  | reply (i : ℕ)
  | beginChooser (listener : ℕ) (mode : ChooserMode)
  | cancelChooser
  /-- `chooser_deadline_` fires -/
  | deadline
  | resetForNewSession
  | destroy

/-- The replies are bound to a weak pointer: they do nothing once the receiver is gone. -/
def Receiver.runReply (s : Receiver) (i : ℕ) : Receiver :=
  match s.replies[i]? with
  | none => s
  | some r =>
    let s := { s with replies := s.replies.eraseIdx i }
    if s.alive then s.onReply r else s

def step (s : Receiver) : Event → Receiver
  | .task i n ok => s.runTask sha256 i n ok
  | .reply i => s.runReply i
  | .message d => if s.alive then (readRequest d).elim s s.handle else s
  | .beginChooser listener mode => if s.alive then s.beginChooser listener mode else s
  | .cancelChooser => if s.alive then s.cancelChooser else s
  | .deadline => if s.alive ∧ s.chooserDeadline then s.cancelChooser else s
  | .resetForNewSession => if s.alive then s.resetForNewSession else s
  | .destroy => if s.alive then { s.cancelChooser with alive := false } else s

abbrev run (s : Receiver) (es : List Event) : Receiver := Runs.run (step sha256) s es

variable (s : Receiver)

theorem run_nil : run sha256 s [] = s := rfl

theorem run_cons (e : Event) (es : List Event) :
    run sha256 s (e :: es) = run sha256 (step sha256 s e) es := rfl

theorem run_append (es es' : List Event) :
    run sha256 s (es ++ es') = run sha256 (run sha256 s es) es' := Runs.run_append ..

end

end Chromeless.Uploads
