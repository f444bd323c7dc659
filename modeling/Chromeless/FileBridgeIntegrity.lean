import Chromeless.FileBridgePaths

/-! What is in the files of the uploads. A start request opens its file, and empties it,
before it looks whether its id is taken. -/
namespace Chromeless.FileBridge
open Files UploadState List Store Runs

def UploadState.content (st : UploadState) : Bytes := (st.chunks.map (·.2)).flatten

section
variable (go : Library) (cfg : BridgeConfig)

/-- A completed upload's file holds its chunks in the order of their numbers, with the size and the
hash declared; and a start request that is answered with an error leaves the uploads in progress and
their files as they were. -/
structure Intact (b : Bridge) (as : List (Envelope × Replies)) : Prop where
  complete : ∀ bs env r cs, as = bs ++ (env, r) :: cs → ∀ id path via,
    .emit (.complete id path via) ∈ (dispatch go cfg (run go cfg b bs) env r).2 →
      ∃ st, (run go cfg b bs).uploads id = some st ∧ st.started.uploadID = id ∧
        path = st.tmpPath ∧
        (dispatch go cfg (run go cfg b bs) env r).1.fs.read path = some st.content ∧
        st.chunks.map (·.1) = (range st.chunks.length).map Int.ofNat ∧
        st.content.length = st.started.size ∧
        go.sha256Hex st.content = go.toLower st.started.sha256
  frame : ∀ bs env r cs, as = bs ++ (env, r) :: cs → ∀ d, env.Starts d →
    (∃ e ∈ (dispatch go cfg (run go cfg b bs) env r).2, e.fails = true) →
      ∀ id st, (run go cfg b bs).uploads id = some st →
        (dispatch go cfg (run go cfg b bs) env r).1.uploads id = some st ∧
        (dispatch go cfg (run go cfg b bs) env r).1.fs.entries st.tmpPath = (run go cfg b bs).fs.entries st.tmpPath ∧
        (dispatch go cfg (run go cfg b bs) env r).1.fs.read st.tmpPath = (run go cfg b bs).fs.read st.tmpPath

/-- A start request is safe, and does not name the file of the upload that has its id. -/
def SeparateStart (b : Bridge) (a : Envelope × Replies) : Prop :=
  SafeStart go cfg b a ∧ ∀ d, a.1.Starts d → Admitted go cfg d →
    ∀ st, b.uploads d.uploadID = some st → sanitizeName d.name ≠ st.sanitizedName

structure StoredAs (fs : Store String UInt8) (st : UploadState) : Prop where
  on : fs.On st.tmpPath st.tmpFile
  read : fs.read st.tmpPath = some st.content
  offset : st.tmpFile.offset = st.content.length
  received : st.bytesReceived = st.content.length
  hash : st.hash = st.content
  seqs : st.chunks.map (·.1) = (range st.chunks.length).map Int.ofNat
  nextSeq : st.nextSeq = st.chunks.length
  id : st.started.uploadID = st.id
  size : st.size = st.started.size
  sha256 : st.expectedSHA256 = go.toLower st.started.sha256

structure Stored (b : Bridge) : Prop where
  named : Named cfg b
  upload : ∀ id st, b.uploads id = some st → StoredAs go b.fs st

variable {go cfg} {b b' : Bridge} {env : Envelope} {r : Replies} {events : List Event}
  {fs fs' : Store String UInt8} {st : UploadState} {d : UploadStartData}

theorem newBridge_stored (fs : Store String UInt8) : Stored go cfg (newBridge fs) :=
  ⟨newBridge_named fs, fun id st h => by cases h⟩

section
variable (h : StoredAs go fs st)
include h

theorem StoredAs.of_same (hents : fs'.entries st.tmpPath = fs.entries st.tmpPath)
    (hread : fs'.read st.tmpPath = fs.read st.tmpPath) : StoredAs go fs' st :=
  { h with on := hents.trans h.on, read := hread.trans h.read }

theorem StoredAs.create {p : String} (hne : st.tmpPath ≠ p) :
    StoredAs go (fs.create p).1 st :=
  h.of_same (create_entries_of_ne hne) (read_create_of_ne hne)

theorem StoredAs.remove {p : String} (hne : st.tmpPath ≠ p) :
    StoredAs go (fs.remove p) st :=
  h.of_same (remove_entries_of_ne hne) (read_remove_of_ne hne)

theorem StoredAs.write {st' : UploadState} (h' : StoredAs go fs st')
    (hne : st'.tmpPath ≠ st.tmpPath) (bytes : Bytes) :
    StoredAs go (write 0 fs st.tmpFile bytes).1 st' :=
  h'.of_same rfl (read_write_of_ne h.on hne)

end

theorem fresh_stored (fs : Store String UInt8) (d : UploadStartData) :
    StoredAs go (fs.create (tmpPath cfg d)).1 (fresh go cfg d (fs.create (tmpPath cfg d)).2) where
  on := create_on fs _
  read := read_create fs _
  offset := create_offset fs _
  received := rfl
  hash := rfl
  seqs := rfl
  nextSeq := rfl
  id := rfl
  size := rfl
  sha256 := rfl

theorem StoredAs.accept (h : StoredAs go fs st) (bytes : Bytes) :
    StoredAs go (Store.write 0 fs st.tmpFile bytes).1
      (accept st st.nextSeq (Store.write 0 fs st.tmpFile bytes).2 bytes).1 := by
  obtain ⟨kb, heq⟩ := accept_eq st st.nextSeq (Store.write 0 fs st.tmpFile bytes).2 bytes
  rw [heq]
  have hcont : ((st.chunks ++ [(st.nextSeq, bytes)]).map (·.2)).flatten = st.content ++ bytes := by simp [content]
  have hlen : (st.content ++ bytes).length = st.content.length + bytes.length := length_append
  constructor
  case on => exact h.on
  case read =>
    rw [content, hcont]
    exact read_write h.on h.read h.offset
  case offset =>
    rw [content, hcont]
    exact (congrArg (· + bytes.length) h.offset).trans hlen.symm
  case received =>
    rw [content, hcont]
    change st.bytesReceived + bytes.length = ((st.content ++ bytes).length : ℤ)
    rw [h.received, hlen]
    rfl
  case hash =>
    rw [content, hcont]
    exact congrArg (· ++ bytes) h.hash
  case seqs =>
    rw [map_append, h.seqs, length_append, length_singleton, range_succ, map_append, h.nextSeq]
    rfl
  case nextSeq =>
    rw [h.nextSeq, length_append]
    rfl
  case id => exact h.id
  case size => exact h.size
  case sha256 => exact h.sha256

theorem Named.path_ne_tmpPath (h : Named cfg b) (hsep : SeparateStart go cfg b (env, r)) (hsts : env.Starts d)
    (hd : Admitted go cfg d) {id : String} (hget : b.uploads id = some st) : st.tmpPath ≠ tmpPath cfg d := by
  have hst := h.upload id st hget
  obtain ⟨hslash, hap⟩ := hsep.1 d hsts hd
  rw [hst.path]
  apply filepathJoin_ne hst.noSlash hslash hst.sanitized (sanitizeName_noSlash _)
  by_cases hid : id = d.uploadID
  · -- its own id: the names differ
    subst hid
    have hname := hsep.2 d hsts hd st hget
    intro heq
    have hlist := congrArg String.toList heq
    rw [fileName_toList, fileName_toList, append_cancel_left_eq] at hlist
    simp only [cons.injEq, true_and] at hlist
    exact hname (String.toList_inj.mp hlist).symm
  · exact (hap id hid (by simp [hget])).fileName_ne hid _ _

theorem unlink_fs (hr : r.FilesOk) (b : Bridge) (p : String) :
    (b.unlink r p).fs = b.fs.remove p := by
  unfold Bridge.unlink
  rw [hr.2.2.2.2.1]

theorem delete_some {key id : String} (hget : (b.delete key).uploads id = some st) :
    id ≠ key ∧ b.uploads id = some st := by
  by_cases hid : id = key
  · simp [hid] at hget
  · rw [Bridge.delete_uploads, Function.update_of_ne hid] at hget
    exact ⟨hid, hget⟩

theorem Stored.move (h : Stored go cfg b) (hr : r.FilesOk)
    (hsep : SeparateStart go cfg b (env, r)) (hmove : Move go cfg b env r b' events) :
    Stored go cfg b' := by
  refine ⟨h.named.move hsep.1 hmove, ?_⟩
  cases hmove with
  | quiet => exact h.upload
  | blocked => exact h.upload
  | started d hsts hd =>
    intro id st hget
    by_cases hid : id = d.uploadID
    · subst hid
      obtain rfl : _ = st := by simpa using hget
      exact fresh_stored b.fs d
    · have hold : b.uploads id = some st := by simpa [hid] using hget
      exact (h.upload id st hold).create (h.named.path_ne_tmpPath hsep hsts hd hold)
  | duplicate d hsts hd =>
    intro id st hget
    rw [unlink_fs hr]
    have hold : b.uploads id = some st := by simpa using hget
    have hne := h.named.path_ne_tmpPath hsep hsts hd hold
    exact ((h.upload id st hold).create hne).remove hne
  | dropped id key st hbody hget hkey =>
    have hid : key = id := hkey.elim (fun h => h) (·.trans (h.named.upload id st hget).id_eq)
    subst hid
    intro id' st' hget'
    rw [unlink_fs hr]
    rw [Bridge.unlink_uploads] at hget'
    obtain ⟨hne, hold⟩ := delete_some hget'
    exact (h.upload id' st' hold).remove (h.named.path_ne hne hold hget)
  | written id st bytes hbody hget =>
    intro id' st' hget'
    by_cases hid : id' = id
    · subst hid
      obtain rfl : _ = st' := by simpa using hget'
      exact (h.upload id' st hget).accept bytes
    · have hold : b.uploads id' = some st' := by simpa [hid] using hget'
      exact (h.upload id st hget).write (h.upload id' st' hold) (h.named.path_ne hid hold hget) bytes
  | finished =>
    intro id' st' hget'
    exact h.upload id' st' (delete_some hget').2

theorem Stored.run {as : List (Envelope × Replies)} (h : Stored go cfg b)
    (has : Meets (step go cfg) (fun b a => a.2.FilesOk ∧ SeparateStart go cfg b a) b as) :
    Stored go cfg (run go cfg b as) :=
  invariant_run_meets _ _ _ (fun _ a hok hsto => hsto.move hok.1 hok.2 (dispatch_move go cfg _ a.1 a.2)) h has

theorem Move.complete (hmove : Move go cfg b env r b' events) (h : Stored go cfg b)
    {id path via : String} (he : .emit (.complete id path via) ∈ events) :
    ∃ st, b.uploads id = some st ∧ st.started.uploadID = id ∧ path = st.tmpPath ∧
      b'.fs.read path = some st.content ∧
      st.chunks.map (·.1) = (range st.chunks.length).map Int.ofNat ∧
      st.content.length = st.started.size ∧
      go.sha256Hex st.content = go.toLower st.started.sha256 := by
  have hnot : ∀ {P : Prop}, (∀ e ∈ events, e.completes = false) → P :=
    fun hsil => absurd (hsil _ he) (by simp [Event.completes])
  cases hmove with
  | quiet hpath => exact absurd (hpath _ he) (by simp [Event.path])
  | blocked _ _ _ _ hsil | started _ _ _ _ _ hsil | duplicate _ _ _ _ hsil
  | dropped _ _ _ _ _ _ _ hsil | written _ _ _ _ _ _ _ hsil => exact hnot hsil
  | finished key st hbody hget hsize hhash hpath hid =>
    have hst := h.upload key st hget
    have hkey := (h.named.upload key st hget).id_eq
    have hpath' : path = st.tmpPath := hpath _ he path rfl
    obtain rfl : id = key := (hid id path via he).trans hkey
    refine ⟨st, hget, hst.id.trans hkey, hpath', ?_, hst.seqs, ?_, ?_⟩
    · rw [hpath']
      exact hst.read
    · rw [← hst.received, hsize, hst.size]
    · rw [← hst.hash, hhash, hst.sha256]

theorem Move.frame (hmove : Move go cfg b env r b' events) (h : Stored go cfg b) (hr : r.FilesOk)
    (hsep : SeparateStart go cfg b (env, r)) (hsts : env.Starts d)
    (hfails : ∃ e ∈ events, e.fails = true) {id : String} (hget : b.uploads id = some st) :
    b'.uploads id = some st ∧ b'.fs.entries st.tmpPath = b.fs.entries st.tmpPath ∧
      b'.fs.read st.tmpPath = b.fs.read st.tmpPath := by
  cases hmove with
  | quiet | blocked => exact ⟨hget, rfl, rfl⟩
  | started d' hsts' hd hfree hpath hsil hok =>
    obtain ⟨e, he, hfail⟩ := hfails
    rw [hok e he] at hfail
    cases hfail
  | duplicate d' hsts' hd =>
    have hne := h.named.path_ne_tmpPath hsep hsts' hd hget
    rw [unlink_fs hr]
    refine ⟨by simpa using hget, ?_, ?_⟩
    · rw [remove_entries_of_ne hne, create_entries_of_ne hne]
    · rw [read_remove_of_ne hne, read_create_of_ne hne]
  | dropped _ _ _ hbody | written _ _ _ hbody | finished _ _ hbody => exact absurd hsts.2 (hbody d)

end

/-- If no file operation fails and start requests name no file of an upload in progress, completed
uploads are intact and failed start requests harm no other. -/
theorem uploads_intact (go : Library) (cfg : BridgeConfig) (fs : Store String UInt8) (as : List (Envelope × Replies))
    (has : Meets (step go cfg) (fun b a => a.2.FilesOk ∧ SeparateStart go cfg b a) (newBridge fs) as) :
    Intact go cfg (newBridge fs) as := by
  constructor
  · rintro bs env r cs rfl id path via he
    rw [meets_append] at has
    exact (dispatch_move go cfg _ env r).complete ((newBridge_stored fs).run has.1) he
  rintro bs env r cs rfl d hstarts hfails id st hget
  rw [meets_append] at has
  obtain ⟨hr, hsep⟩ := has.2.1
  exact (dispatch_move go cfg _ env r).frame ((newBridge_stored fs).run has.1) hr hsep hstarts hfails hget

/-! ### A file opened twice -/

def chunkText (id : String) (seq : ℤ) (text : String) : Envelope × Replies :=
  (⟨protocolVersion, .chunk ⟨id, seq, text⟩⟩, {})

def finishUpload (id : String) : Envelope × Replies := (⟨protocolVersion, .finish ⟨id⟩⟩, {})

theorem uploads_intact_single :
    let as := [startText "u1" "a.txt" "hi", chunkText "u1" 0 "hi", finishUpload "u1"]
    Meets (step plainLibrary textOnly)
        (fun b a => a.2.FilesOk ∧ SeparateStart plainLibrary textOnly b a) (newBridge .empty) as ∧
      Intact plainLibrary textOnly (newBridge .empty) as := by
  have has : Meets (step plainLibrary textOnly)
      (fun b a => a.2.FilesOk ∧ SeparateStart plainLibrary textOnly b a) (newBridge .empty)
      [startText "u1" "a.txt" "hi", chunkText "u1" 0 "hi", finishUpload "u1"] := by
    have hfiles : Replies.FilesOk {} := ⟨rfl, rfl, rfl, rfl, rfl, rfl⟩
    refine ⟨⟨hfiles, ?_, ?_⟩, ⟨hfiles, ?_, ?_⟩, ⟨hfiles, ?_, ?_⟩, trivial⟩
    · rintro d ⟨-, hd⟩ -
      cases hd
      exact ⟨by decide, fun id _ hid => absurd rfl hid⟩
    · rintro d - - st hst
      cases hst
    all_goals
      rintro d ⟨-, hd⟩
      cases hd
  exact ⟨has, uploads_intact plainLibrary textOnly .empty _ has⟩

theorem second_open_not_intact :
    ¬ Intact plainLibrary textOnly (newBridge .empty)
        [startText "a" "f" "hi", chunkText "a" 0 "hi", startText "a" "f" "hi"] ∧
      ¬ Intact plainLibrary textOnly (newBridge .empty)
        [startText "a" "b__c" "x", startText "a__b" "c" "y", chunkText "a" 0 "x",
          chunkText "a__b" 0 "y", finishUpload "a"] := by
  constructor
  · intro h
    have hpath : ((run plainLibrary textOnly (newBridge .empty)
        [startText "a" "f" "hi", chunkText "a" 0 "hi"]).uploads "a").map (·.tmpPath) =
          some "/var/lib/chromeless-uploads/default/a__f" := by
      decide +kernel
    obtain ⟨st, hst, htmp⟩ := Option.map_eq_some_iff.mp hpath
    obtain ⟨-, -, hread⟩ := h.frame [startText "a" "f" "hi", chunkText "a" 0 "hi"] _ _ [] rfl _
      ⟨rfl, rfl⟩ ⟨error "a" "internal_error" "duplicate upload_id", by decide +kernel, rfl⟩
      "a" st hst
    rw [htmp] at hread
    revert hread
    decide +kernel
  · intro h
    obtain ⟨st, hst, -, -, hread, -⟩ := h.complete
      [startText "a" "b__c" "x", startText "a__b" "c" "y", chunkText "a" 0 "x",
        chunkText "a__b" 0 "y"] _ _ [] rfl "a" "/var/lib/chromeless-uploads/default/a__b__c" "none"
      (by decide +kernel)
    have hcontent := congrArg (Option.map content) hst
    rw [Option.map_some, ← hread] at hcontent
    revert hcontent
    decide +kernel

end Chromeless.FileBridge
