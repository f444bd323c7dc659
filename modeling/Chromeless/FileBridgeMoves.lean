import Chromeless.FileBridge

/-! What the handling of one envelope can do to the uploads, to the files and to the paths
that others get to see. -/
namespace Chromeless.FileBridge
open Event Files List

def Event.path : Event → Option String
  | .openFile p | .write p | .remove p | .setFileInputFiles _ p | .emit (.complete _ p _) => some p
  | .mkdirAll _ | .emit _ => none

def Event.completes : Event → Bool
  | .emit (.complete _ _ _) => true
  | _ => false

def Event.fails : Event → Bool
  | .emit (.error _ _ _) => true
  | _ => false

section
variable (go : Library) (cfg : BridgeConfig)

def Admitted (d : UploadStartData) : Prop :=
  d.uploadID ≠ "" ∧ 0 < d.size ∧ d.size ≤ cfg.maxTotalSize ∧ cfg.mimeAllowlist (go.toLower d.mimeType) = true

def Envelope.Starts (env : Envelope) (d : UploadStartData) : Prop :=
  env.v = protocolVersion ∧ env.body = .start d

def tmpPath (d : UploadStartData) : String :=
  filepathJoin [sessionDir cfg, d.uploadID ++ "__" ++ sanitizeName d.name]

def fresh (d : UploadStartData) (f : Handle) : UploadState :=
  { id := d.uploadID, name := d.name, sanitizedName := sanitizeName d.name
    mimeType := go.toLower d.mimeType, size := d.size
    expectedSHA256 := go.toLower d.sha256
    targetSelector := d.targetSelector
    hash := [], bytesReceived := 0, nextSeq := 0
    tmpPath := tmpPath cfg d, tmpFile := f, lastProgressKB := 0
    started := d, chunks := [] }

inductive Move (b : Bridge) (env : Envelope) (r : Replies) : Bridge → List Event → Prop
  /-- Nothing is done, or a directory is made, or an error is reported. -/
  | quiet {events : List Event} (hpath : ∀ e ∈ events, e.path = none) : Move b env r b events
  /-- The file of a new upload cannot be opened. -/
  | blocked (d : UploadStartData) {events : List Event} (hbody : env.Starts d)
      (hd : Admitted go cfg d) (hpath : ∀ e ∈ events, ∀ p ∈ e.path, p = tmpPath cfg d)
      (hsilent : ∀ e ∈ events, e.completes = false) : Move b env r b events
  | started (d : UploadStartData) {events : List Event} (hbody : env.Starts d)
      (hd : Admitted go cfg d) (hfree : b.uploads d.uploadID = none)
      (hpath : ∀ e ∈ events, ∀ p ∈ e.path, p = tmpPath cfg d)
      (hsilent : ∀ e ∈ events, e.completes = false) (hok : ∀ e ∈ events, e.fails = false) :
      Move b env r
        (Bridge.put { b with fs := (b.fs.create (tmpPath cfg d)).1 } d.uploadID
          (fresh go cfg d (b.fs.create (tmpPath cfg d)).2)) events
  /-- The file has been opened when it turns out that the id is taken. -/
  | duplicate (d : UploadStartData) {events : List Event} (hbody : env.Starts d)
      (hd : Admitted go cfg d) (hpath : ∀ e ∈ events, ∀ p ∈ e.path, p = tmpPath cfg d)
      (hsilent : ∀ e ∈ events, e.completes = false) :
      Move b env r (Bridge.unlink { b with fs := (b.fs.create (tmpPath cfg d)).1 } r (tmpPath cfg d)) events
  /-- An upload is cancelled or fails. -/
  | dropped (id key : String) (st : UploadState) {events : List Event}
      (hbody : ∀ d, env.body ≠ .start d) (hget : b.uploads id = some st)
      (hkey : key = id ∨ key = st.id) (hpath : ∀ e ∈ events, ∀ p ∈ e.path, p = st.tmpPath)
      (hsilent : ∀ e ∈ events, e.completes = false) :
      Move b env r ((b.delete key).unlink r st.tmpPath) events
  | written (id : String) (st : UploadState) (bytes : Bytes) {events : List Event}
      (hbody : ∀ d, env.body ≠ .start d) (hget : b.uploads id = some st)
      (hfits : st.bytesReceived + bytes.length ≤ st.size)
      (hpath : ∀ e ∈ events, ∀ p ∈ e.path, p = st.tmpPath)
      (hsilent : ∀ e ∈ events, e.completes = false) :
      Move b env r
        (Bridge.put { b with fs := (Store.write 0 b.fs st.tmpFile bytes).1 } id
          (accept st st.nextSeq (Store.write 0 b.fs st.tmpFile bytes).2 bytes).1) events
  | finished (id : String) (st : UploadState) {events : List Event}
      (hbody : ∀ d, env.body ≠ .start d) (hget : b.uploads id = some st)
      (hsize : st.bytesReceived = st.size) (hhash : go.sha256Hex st.hash = st.expectedSHA256)
      (hpath : ∀ e ∈ events, ∀ p ∈ e.path, p = st.tmpPath)
      (hid : ∀ i p via, .emit (.complete i p via) ∈ events → i = st.id) :
      Move b env r (b.delete id) events

variable {go cfg} {b : Bridge} {env : Envelope} {r : Replies}

theorem handleStart_move {d : UploadStartData} (hbody : env.Starts d) :
    Move go cfg b env r (handleStart go cfg b d r).1 (handleStart go cfg b d r).2 := by
  unfold handleStart
  by_cases hid : d.uploadID = ""
  · rw [if_pos hid]
    exact .quiet (by simp)
  rw [if_neg hid]
  by_cases hsize : d.size ≤ 0 ∨ cfg.maxTotalSize < d.size
  · rw [if_pos hsize]
    exact .quiet (by simp [error, path])
  rw [if_neg hsize]
  by_cases hmime : cfg.mimeAllowlist (go.toLower d.mimeType) = true
  · rw [if_neg (by simpa using hmime)]
    rw [not_or, Int.not_le, Int.not_lt] at hsize
    have hd : Admitted go cfg d := ⟨hid, hsize.1, hsize.2, hmime⟩
    cases hmkdir : r.mkdirAll with
    | some => exact .quiet (by simp [error, path])
    | none =>
      cases hopen : r.openFile with
      | some => exact .blocked d hbody hd (by simp [error, path, tmpPath]) (by simp [error, completes])
      | none =>
        cases hups : b.uploads d.uploadID with
        | some =>
          simp only [hups]
          exact .duplicate d hbody hd (by simp [error, path, tmpPath]) (by simp [error, completes])
        | none =>
          simp only [hups]
          exact .started d hbody hd hups (by simp [path, tmpPath]) (by simp [completes]) (by simp [fails])
  · rw [if_pos hmime]
    exact .quiet (by simp [error, path])

theorem failUpload_move (hbody : ∀ d, env.body ≠ .start d) {id : String} {st : UploadState}
    (hget : b.uploads id = some st) (code msg : String) :
    Move go cfg b env r (failUpload b st r code msg).1 (failUpload b st r code msg).2 :=
  .dropped id st.id st hbody hget (.inr rfl) (by simp [failUpload, error, path])
    (by simp [failUpload, error, completes])

theorem accept_eq (st : UploadState) (seq : ℤ) (f : Handle) (bytes : Bytes) :
    ∃ kb, (accept st seq f bytes).1 =
      { st with
        tmpFile := f, hash := st.hash ++ bytes, bytesReceived := st.bytesReceived + bytes.length
        nextSeq := st.nextSeq+1, chunks := st.chunks ++ [(seq, bytes)], lastProgressKB := kb } := by
  unfold accept
  dsimp only
  split <;> exact ⟨_, rfl⟩

theorem accept_events (st : UploadState) (seq : ℤ) (f : Handle) (bytes : Bytes) :
    ∀ e ∈ (accept st seq f bytes).2, e.path = none ∧ e.completes = false := by
  unfold accept
  dsimp only
  split
  · simp [path, completes]
  · simp

theorem handleChunk_move {d : UploadChunkData} (hbody : env.body = .chunk d) :
    Move go cfg b env r (handleChunk go cfg b d r).1 (handleChunk go cfg b d r).2 := by
  have hnot : ∀ d', env.body ≠ .start d' := by simp [hbody]
  fun_cases handleChunk go cfg b d r
  · exact .quiet (by simp [error, path])
  · exact failUpload_move hnot ‹_› _ _
  · exact failUpload_move hnot ‹_› _ _
  · exact failUpload_move hnot ‹_› _ _
  · exact failUpload_move hnot ‹_› _ _
  next st hget _ _ _ _ _ _ _ _ _ heq =>
    cases heq
    exact .dropped d.uploadID st.id st hnot hget (.inr rfl) (by simp [error, path]) (by simp [error, completes])
  next st hget hseq bytes _ _ hfits _ fs f hwrt st' events hacc =>
    have heven := accept_events st d.seq f bytes
    rw [hacc] at heven
    cases hwrt
    obtain rfl := congrArg Prod.fst hacc
    rw [not_not.mp hseq]
    refine .written d.uploadID st bytes hnot hget (Int.not_lt.mp hfits) ?_ ?_
    · intro e he p hp
      obtain rfl | he := mem_cons.mp he
      · simpa [path] using hp.symm
      · simp [(heven e he).1] at hp
    · exact forall_mem_cons.mpr ⟨rfl, fun e he => (heven e he).2⟩

theorem mem_deliver {st : UploadState} {e : Event} (he : e ∈ deliver go cfg st r) :
    (∃ n, e = .setFileInputFiles n st.tmpPath) ∨ (∃ msg, e = error st.id "attach_failed" msg) ∨
      ∃ via, e = .emit (.complete st.id st.tmpPath via) := by
  have hsent : ∀ e ∈ (attachViaSelector go st r).2, ∃ n, e = .setFileInputFiles n st.tmpPath := by
    unfold attachViaSelector
    cases r.getDocument with
    | error => simp
    | ok =>
      cases r.querySelector with
      | error => simp
      | ok nodeID =>
        by_cases hnode : nodeID = 0
        · simp [hnode]
        · cases r.setFileInputFiles <;> simp [hnode]
  unfold deliver at he
  split at he
  · cases hatt : attachViaSelector go st r with
    | mk result =>
      rw [hatt] at he hsent
      cases result with
      | error err =>
        obtain he | he := mem_append.mp he
        · exact .inl (hsent e he)
        · exact .inr (.inl ⟨err, mem_singleton.mp he⟩)
      | ok _ =>
        obtain he | he := mem_append.mp he
        · exact .inl (hsent e he)
        · exact .inr (.inr ⟨_, mem_singleton.mp he⟩)
  · exact .inr (.inr ⟨_, mem_singleton.mp he⟩)

theorem handleEnd_move {d : UploadEndData} (hbody : env.body = .finish d) :
    Move go cfg b env r (handleEnd go cfg b d r).1 (handleEnd go cfg b d r).2 := by
  have hnot : ∀ d', env.body ≠ .start d' := by simp [hbody]
  have hrej {st : UploadState} (hget : b.uploads d.uploadID = some st) (code msg : String) :
      Move go cfg b env r ((b.delete d.uploadID).unlink r st.tmpPath)
        [.remove st.tmpPath, error d.uploadID code msg] :=
    .dropped d.uploadID d.uploadID st hnot hget (.inl rfl) (by simp [error, path]) (by simp [error, completes])
  fun_cases handleEnd go cfg b d r
  · exact .quiet (by simp [error, path])
  · exact hrej ‹_› _ _
  · exact hrej ‹_› _ _
  · exact hrej ‹_› _ _
  · exact hrej ‹_› _ _
  next st hget _ _ _ hsize hhash _ =>
    refine .finished d.uploadID st hnot hget (not_not.mp hsize) (not_not.mp hhash) ?_ ?_
    · intro e he p hp
      obtain ⟨n, rfl⟩ | ⟨msg, rfl⟩ | ⟨via, rfl⟩ := mem_deliver he <;>
        simp_all [error, path]
    intro i p via he
    obtain ⟨n, h⟩ | ⟨msg, h⟩ | ⟨via', h⟩ := mem_deliver he
    · cases h
    · cases h
    · cases h
      rfl

theorem dispatch_move (go : Library) (cfg : BridgeConfig) (b : Bridge) (env : Envelope) (r : Replies) :
    Move go cfg b env r (dispatch go cfg b env r).1 (dispatch go cfg b env r).2 := by
  unfold dispatch
  by_cases hv : env.v = protocolVersion
  · rw [if_neg (not_not.mpr hv)]
    cases hbody : env.body with
    | start => exact handleStart_move ⟨hv, hbody⟩
    | chunk => exact handleChunk_move hbody
    | finish => exact handleEnd_move hbody
    | cancel d =>
      dsimp only [handleCancel]
      cases hget : b.uploads d.uploadID with
      | none => exact .quiet (by simp)
      | some st =>
        exact .dropped d.uploadID d.uploadID st (by simp [hbody]) hget (.inl rfl) (by simp [error, path])
          (by simp [error, completes])
    | ignored => exact .quiet (by simp)
  · rw [if_pos hv]
    exact .quiet (by simp)

end

end Chromeless.FileBridge
