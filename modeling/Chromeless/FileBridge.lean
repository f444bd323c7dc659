import Chromeless.LibFiles
import Chromeless.LibPath
import Chromeless.LibRuns
import Mathlib.Data.Int.Notation

/-! The file-upload bridge: one envelope of the `files` channel after the other. -/
namespace Chromeless.FileBridge
open Files

abbrev Bytes := List UInt8

def protocolVersion : ℤ := 1

def defaultProgressEveryKB : ℤ := 256

/-! ### Envelopes -/

structure UploadStartData where
  uploadID : String
  name : String
  mimeType : String
  size : ℤ
  sha256 : String
  targetSelector : String := ""

structure UploadChunkData where
  uploadID : String
  seq : ℤ
  data : String

/-- Also the `uploadCancelData`. -/
structure UploadEndData where
  uploadID : String

/-- A message by the type it names: `ignored` is a type that is not handled, or data that does not
fit. -/
inductive Body
  | start (d : UploadStartData)
  | chunk (d : UploadChunkData)
  | finish (d : UploadEndData)
  | cancel (d : UploadEndData)
  | ignored

structure Envelope where
  v : ℤ := protocolVersion
  body : Body

inductive Emitted
  | progress (uploadID : String) (bytesReceived bytesTotal : ℤ)
  | complete (uploadID serverPath attachedVia : String)
  | error (uploadID code error : String)
deriving DecidableEq

inductive Event
  | mkdirAll (dir : String)
  | openFile (path : String)
  | write (path : String)
  | remove (path : String)
  | setFileInputFiles (nodeId : ℤ) (path : String)
  | emit (e : Emitted)
deriving DecidableEq

/-! ### State -/

structure BridgeConfig where
  uploadDir : String
  sessionID : String
  maxTotalSize : ℤ
  maxChunkSize : ℤ
  mimeAllowlist : String → Bool
  dryRun : Bool

/-- `hash` is what has been written to the hash. `started` and `chunks` are kept for stating
properties. -/
structure UploadState where
  id : String
  name : String
  sanitizedName : String
  mimeType : String
  size : ℤ
  expectedSHA256 : String
  targetSelector : String
  hash : Bytes
  bytesReceived : ℤ
  nextSeq : ℤ
  tmpPath : String
  tmpFile : Handle
  lastProgressKB : ℤ
  started : UploadStartData
  chunks : List (ℤ × Bytes)

structure Bridge where
  uploads : String → Option UploadState
  fs : Store String UInt8

/-- Functions of Go's library that are not in the repository. -/
structure Library where
  toLower : String → String
  quote : String → String
  decodeString : String → Except String Bytes
  sha256Hex : Bytes → String
  detectContentType : Bytes → String

/-- How the operating system and the browser answer while one envelope is handled. -/
structure Replies where
  mkdirAll : Option String := none
  openFile : Option String := none
  write : Option String := none
  close : Option String := none
  remove : Option String := none
  sniff : Option String := none
  getDocument : Except String ℤ := .ok 1
  querySelector : Except String ℤ := .ok 1
  setFileInputFiles : Except String Unit := .ok ()

def Replies.FilesOk (r : Replies) : Prop :=
  r.mkdirAll = none ∧ r.openFile = none ∧ r.write = none ∧ r.close = none ∧ r.remove = none ∧ r.sniff = none

/-! ### Names and paths -/

def filepathJoin (elem : List String) : String := String.ofList (Path.join (elem.map String.toList))

def plainChar (r : Char) : Bool :=
  (r ≥ 'A' && r ≤ 'Z') || (r ≥ 'a' && r ≤ 'z') || (r ≥ '0' && r ≤ '9') ||
    r = '.' || r = '_' || r = '-'

def sanitizeName (name : String) : String :=
  let last := (Path.base name.toList).filter (· ≠ '\x00')
  let out := last.map fun r => if plainChar r then r else '_'
  if out = [] ∨ out = Path.dot ∨ out = Path.dotdot then "upload.bin" else String.ofList out

def topLevel (mime : String) : String :=
  let top := mime.toList.takeWhile (· ≠ '/')
  if top.length < mime.toList.length then String.ofList top else ""

def stripParams (mime : String) : String :=
  let front := mime.toList.takeWhile (· ≠ ';')
  if front.length < mime.toList.length then
    String.ofList ((front.dropWhile Char.isWhitespace).reverse.dropWhile Char.isWhitespace).reverse
  else mime

section
variable (go : Library) (cfg : BridgeConfig)

def sessionDir : String := filepathJoin [cfg.uploadDir, cfg.sessionID]

def error (id code msg : String) : Event := .emit (.error id code msg)

def Bridge.delete (b : Bridge) (id : String) : Bridge :=
  { b with uploads := Function.update b.uploads id none }

def Bridge.put (b : Bridge) (id : String) (st : UploadState) : Bridge :=
  { b with uploads := Function.update b.uploads id (some st) }

def Bridge.unlink (b : Bridge) (r : Replies) (path : String) : Bridge :=
  match r.remove with
  | some _ => b
  | none => { b with fs := b.fs.remove path }

@[simp] theorem Bridge.unlink_uploads (b : Bridge) (r : Replies) (path : String) :
    (b.unlink r path).uploads = b.uploads := by
  unfold Bridge.unlink
  cases r.remove <;> rfl

@[simp] theorem Bridge.delete_uploads (b : Bridge) (id : String) :
    (b.delete id).uploads = Function.update b.uploads id none := rfl

@[simp] theorem Bridge.put_uploads (b : Bridge) (id : String) (st : UploadState) :
    (b.put id st).uploads = Function.update b.uploads id (some st) := rfl

def handleStart (b : Bridge) (d : UploadStartData) (r : Replies) : Bridge × List Event :=
  if d.uploadID = "" then (b, [])
  else if d.size ≤ 0 ∨ cfg.maxTotalSize < d.size then
    (b, [error d.uploadID "size_limit_exceeded"
      ("size " ++ toString d.size ++ " > cap " ++ toString cfg.maxTotalSize)])
  else if ¬ cfg.mimeAllowlist (go.toLower d.mimeType) then
    (b, [error d.uploadID "mime_not_allowlisted"
      ("mime_type " ++ go.quote d.mimeType ++ " not in allowlist")])
  else
    let sanitized := sanitizeName d.name
    let dir := sessionDir cfg
    match r.mkdirAll with
    | some err => (b, [.mkdirAll dir, error d.uploadID "internal_error" ("mkdir: " ++ err)])
    | none =>
      let tmpPath := filepathJoin [dir, d.uploadID ++ "__" ++ sanitized]
      match r.openFile with
      | some err => (b, [.mkdirAll dir, .openFile tmpPath, error d.uploadID "internal_error" ("open tmp: " ++ err)])
      | none =>
        let (fs, f) := b.fs.create tmpPath
        let b := { b with fs := fs }
        let st : UploadState :=
          { id := d.uploadID, name := d.name, sanitizedName := sanitized
            mimeType := go.toLower d.mimeType, size := d.size
            expectedSHA256 := go.toLower d.sha256
            targetSelector := d.targetSelector
            hash := [], bytesReceived := 0, nextSeq := 0
            tmpPath := tmpPath, tmpFile := f, lastProgressKB := 0
            started := d, chunks := [] }
        -- the file has been opened, and emptied, before the id is looked up
        match b.uploads d.uploadID with
        | some _ =>
          (b.unlink r tmpPath, [.mkdirAll dir, .openFile tmpPath, .remove tmpPath,
            error d.uploadID "internal_error" "duplicate upload_id"])
        | none => (b.put d.uploadID st, [.mkdirAll dir, .openFile tmpPath])

def failUpload (b : Bridge) (st : UploadState) (r : Replies) (code msg : String) :
    Bridge × List Event :=
  ((b.delete st.id).unlink r st.tmpPath, [.remove st.tmpPath, error st.id code msg])

def accept (st : UploadState) (seq : ℤ) (f : Handle) (bytes : Bytes) :
    UploadState × List Event :=
  let bytesReceived := st.bytesReceived + bytes.length
  let st :=
    { st with
      tmpFile := f, hash := st.hash ++ bytes, bytesReceived := bytesReceived
      nextSeq := st.nextSeq+1, chunks := st.chunks ++ [(seq, bytes)] }
  let kbReceived := bytesReceived / 1024
  if defaultProgressEveryKB ≤ kbReceived - st.lastProgressKB ∨ bytesReceived = st.size then
    ({ st with lastProgressKB := kbReceived }, [.emit (.progress st.id bytesReceived st.size)])
  else (st, [])

def handleChunk (b : Bridge) (d : UploadChunkData) (r : Replies) : Bridge × List Event :=
  match b.uploads d.uploadID with
  | none => (b, [error d.uploadID "internal_error" "no active upload for id"])
  | some st =>
    if d.seq ≠ st.nextSeq then
      failUpload b st r "out_of_order_chunk"
        ("expected seq " ++ toString st.nextSeq ++ ", got " ++ toString d.seq)
    else match go.decodeString d.data with
      | .error err => failUpload b st r "internal_error" ("bad base64: " ++ err)
      | .ok bytes =>
        if cfg.maxChunkSize < bytes.length then
          failUpload b st r "chunk_too_large"
            ("chunk " ++ toString bytes.length ++ " bytes > cap " ++ toString cfg.maxChunkSize)
        else if st.size < st.bytesReceived + bytes.length then
          failUpload b st r "size_limit_exceeded" "total received exceeds asserted size"
        else match r.write with
          | some err =>
            let (b, events) := failUpload b st r "internal_error" ("write: " ++ err)
            (b, .write st.tmpPath :: events)
          | none =>
            let (fs, f) := Store.write 0 b.fs st.tmpFile bytes
            let (st', events) := accept st d.seq f bytes
            ({ b with fs := fs }.put d.uploadID st', .write st.tmpPath :: events)

def sniffPasses (b : Bridge) (st : UploadState) (r : Replies) : Bool :=
  match r.sniff, b.fs.read st.tmpPath with
  | none, some content =>
    let sniffed := stripParams (go.toLower (go.detectContentType (content.take 4096)))
    if sniffed = st.mimeType then true
    else
      let stTop := topLevel st.mimeType
      stTop ≠ "" && stTop = topLevel sniffed && cfg.mimeAllowlist sniffed
  | _, _ => false

def attachViaSelector (st : UploadState) (r : Replies) : Except String Unit × List Event :=
  match r.getDocument with
  | .error err => (.error ("DOM.getDocument: " ++ err), [])
  | .ok _ =>
    match r.querySelector with
    | .error err => (.error ("DOM.querySelector(" ++ go.quote st.targetSelector ++ "): " ++ err), [])
    | .ok nodeID =>
      if nodeID = 0 then
        (.error ("selector " ++ go.quote st.targetSelector ++ " matched no node"), [])
      else
        let sent := [.setFileInputFiles nodeID st.tmpPath]
        match r.setFileInputFiles with
        | .error err => (.error ("DOM.setFileInputFiles: " ++ err), sent)
        | .ok () => (.ok (), sent)

def deliver (st : UploadState) (r : Replies) : List Event :=
  if ¬ cfg.dryRun ∧ st.targetSelector ≠ "" then
    match attachViaSelector go st r with
    | (.error err, sent) => sent ++ [error st.id "attach_failed" err]
    | (.ok (), sent) => sent ++ [.emit (.complete st.id st.tmpPath "domSetFileInputFiles")]
  else [.emit (.complete st.id st.tmpPath "none")]

def handleEnd (b : Bridge) (d : UploadEndData) (r : Replies) : Bridge × List Event :=
  match b.uploads d.uploadID with
  | none => (b, [error d.uploadID "internal_error" "no active upload for id"])
  | some st =>
    let b := b.delete d.uploadID
    let rejected (code msg : String) : Bridge × List Event :=
      (b.unlink r st.tmpPath, [.remove st.tmpPath, error d.uploadID code msg])
    let got := go.sha256Hex st.hash
    match r.close with
    | some err => rejected "internal_error" ("close: " ++ err)
    | none =>
      if st.bytesReceived ≠ st.size then
        rejected "truncated" ("received " ++ toString st.bytesReceived ++ " of " ++ toString st.size ++ " bytes")
      else if got ≠ st.expectedSHA256 then
        rejected "sha256_mismatch" ("expected " ++ st.expectedSHA256 ++ ", got " ++ got)
      else if ¬ sniffPasses go cfg b st r then
        rejected "mime_not_allowlisted"
          "sniffed content does not match an allowlisted MIME family"
      else (b, deliver go cfg st r)

def handleCancel (b : Bridge) (d : UploadEndData) (r : Replies) : Bridge × List Event :=
  match b.uploads d.uploadID with
  | none => (b, [])
  | some st =>
    ((b.delete d.uploadID).unlink r st.tmpPath,
      [.remove st.tmpPath, error d.uploadID "cancelled" "client requested cancel"])

def dispatch (b : Bridge) (env : Envelope) (r : Replies) : Bridge × List Event :=
  if env.v ≠ protocolVersion then (b, [])
  else match env.body with
    | .start d => handleStart go cfg b d r
    | .chunk d => handleChunk go cfg b d r
    | .finish d => handleEnd go cfg b d r
    | .cancel d => handleCancel b d r
    | .ignored => (b, [])

def newBridge (fs : Store String UInt8) : Bridge := ⟨fun _ => none, fs⟩

def step (b : Bridge) (a : Envelope × Replies) : Bridge := (dispatch go cfg b a.1 a.2).1

def run : Bridge → List (Envelope × Replies) → Bridge := Runs.run (step go cfg)

end

end Chromeless.FileBridge
