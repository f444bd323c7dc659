import Chromeless.UploadReceiver

/-! What one event can do to the receiver, as a chain of small moves. -/
namespace Chromeless.Uploads
open Json Receiver Upload Relation Request Base64

def about (s : Receiver) : Event → Option Bytes
  | .message d => (readRequest d).map uploadId
  | .reply i => s.replies[i]?.map Reply.uploadId
  | _ => none

def admits (s : Receiver) (declared : ℤ) : Prop :=
  0 < declared ∧ declared ≤ kMaxUploadBytes ∧ s.sessionBytes + declared ≤ kMaxSessionUploadBytes

instance (s : Receiver) (declared : ℤ) : Decidable (admits s declared) :=
  inferInstanceAs (Decidable (_ ∧ _ ∧ _))

def startedBy (s : Receiver) : Event → Option (Bytes × Upload)
  | .message d =>
    match readRequest d with
    | some (.start id name sha declared) =>
      if s.alive ∧ admits s declared then some (id, s.newUpload id name sha declared) else none
    | _ => none
  | _ => none

variable {s : Receiver} {e : Event} {id : Bytes} {up : Upload}

theorem startedBy_eq (h : startedBy s e = some (id, up)) :
    ∃ d name sha declared, e = .message d ∧ readRequest d = some (.start id name sha declared) ∧
      s.alive = true ∧ admits s declared ∧ up = s.newUpload id name sha declared := by
  revert h
  fun_cases startedBy s e <;> rintro ⟨⟩
  next d name sha declared hok hread =>
    exact ⟨d, name, sha, declared, rfl, hread, hok.1, hok.2, rfl⟩

theorem step_of_startedBy {sha256 : Bytes → Vector UInt8 32} (h : startedBy s e = some (id, up)) :
    step sha256 s e = { s.put id up with started := s.started ++ [up.path] } := by
  obtain ⟨d, name, sha, declared, rfl, hread, halv, hadm, rfl⟩ := startedBy_eq h
  unfold admits at hadm
  simp only [step, halv, ↓reduceIte, hread, Option.elim_some, handle, handleStart]
  rw [if_neg (by omega), if_neg (by omega)]

def Upload.takes (up : Upload) (b64 : Bytes) (seq : ℤ) : Bool :=
  seq = up.nextSeq && (decode standard b64).any fun bytes =>
    up.received + bytes.length ≤ up.declaredSize

def Upload.passes (up : Upload) : Result → Bool
  | .written ok => ok
  | .hashed sha total => sha ≠ [] ∧ total = up.declaredSize ∧ (up.sha256 = [] ∨ sha = up.sha256)

def rejected (s : Receiver) : Event → Option Upload
  | .message d =>
    match readRequest d with
    | some (.chunk id b64 seq) => (s.uploads.lookup id).filter fun up => !up.takes b64 seq
    | some (.cancel id) => s.uploads.lookup id
    | _ => none
  | .reply i => s.replies[i]?.bind fun r => (s.uploads.lookup r.uploadId).filter fun up => !up.passes r.result
  | _ => none

def Output.uploadId : Output → Option Bytes
  | .progress id _ _ | .complete id _ _ | .error id _ _ => some id
  | _ => none

def Output.reports : Output → Bool
  | .progress _ _ _ | .error _ _ _ => true
  | _ => false

section
variable (sha256 : Bytes → Vector UInt8 32)

/-- The moves of one event, from the state `s` that it is taken in. -/
inductive Move (s : Receiver) (e : Event) : Receiver → Receiver → Prop
  | reports (x : Receiver) (o : Output) (ho : o.reports = true) (hid : o.uploadId = about s e) :
      Move s e x (x.say o)
  | unparks (x : Receiver) : Move s e x x.cancelChooser
  | parks (x : Receiver) (listener : ℕ) (mode : ChooserMode) (hfree : x.pendingListener = none)
      (halive : x.alive = true) :
      Move s e x
        ({ x with
            pendingListener := some listener, pendingMode := mode, chooserDeadline := true }.say
          (.parked listener))
  | starts (id : Bytes) (up : Upload) (hid : about s e = some id)
      (hup : startedBy s e = some (id, up)) :
      Move s e s { s.put id up with started := s.started ++ [up.path] }
  | abandons (x : Receiver) (id : Bytes) (up up' : Upload) (code message : Bytes)
      (hid : about s e = some id) (hrejected : rejected s e = some up')
      (hpath : up.path = up'.path) (hpool : x.pool = s.pool) (hget : x.uploads.lookup id = some up) :
      Move s e x (x.abandonUpload id up code message)
  | accepts (x : Receiver) (id : Bytes) (up : Upload) (bytes : Bytes) (hid : about s e = some id)
      (hget : x.uploads.lookup id = some up) (hfits : up.received + bytes.length ≤ up.declaredSize) :
      Move s e x
        ((x.put id
          { up with
            nextSeq := up.nextSeq+1, received := up.received + bytes.length
            writesInFlight := up.writesInFlight+1 }).post
          ⟨some up.owner, id, up.path, .append bytes (up.nextSeq+1 = 1)⟩)
  /-- Only what is in flight is counted anew, or the end is put off. -/
  | updates (x : Receiver) (id : Bytes) (up : Upload) (inFlight : ℤ) (endPending : Bool)
      (hid : about s e = some id) (hget : x.uploads.lookup id = some up) :
      Move s e x (x.put id { up with writesInFlight := inFlight, endPending := endPending })
  | finalises (x : Receiver) (id : Bytes) (up : Upload) (hid : about s e = some id)
      (hget : x.uploads.lookup id = some up) :
      Move s e x (x.post ⟨some up.owner, id, up.path, .hash⟩)
  | commits (x : Receiver) (id path sha : Bytes) (up : Upload)
      (hreply : ∃ i, e = .reply i ∧ s.replies[i]? = some ⟨id, path, .hashed sha up.declaredSize⟩)
      (hget : x.uploads.lookup id = some up) (huploads : x.uploads = s.uploads) :
      Move s e x (x.commit id path up up.declaredSize)
  | takes (i : ℕ) (r : Reply) (he : e = .reply i) (hr : s.replies[i]? = some r) :
      Move s e s { s with replies := s.replies.eraseIdx i }
  | runs (i n : ℕ) (ok : Bool) (he : e = .task i n ok) : Move s e s (s.runTask sha256 i n ok)
  | forgets (x : Receiver) (he : e = .resetForNewSession) :
      Move s e x ({ x with uploads := ∅, sessionBytes := 0, completed := [] }.post ⟨none, [], [], .wipe⟩)
  | dies (x : Receiver) (he : e = .destroy) (hfree : x.pendingListener = none) :
      Move s e x { x with alive := false }

variable {sha256} {s : Receiver}

theorem Receiver.cancelChooser_free (x : Receiver) : x.cancelChooser.pendingListener = none := by
  unfold Receiver.cancelChooser
  dsimp only
  split
  · assumption
  · rfl

theorem Receiver.cancelChooser_keeps (x : Receiver) :
    x.cancelChooser.uploads = x.uploads ∧ x.cancelChooser.pool = x.pool ∧ x.cancelChooser.alive = x.alive := by
  unfold Receiver.cancelChooser
  dsimp only
  split <;> exact ⟨rfl, rfl, rfl⟩

variable {x : Receiver} {id sha : Bytes} {d : Dict} {i : ℕ} {r : Reply}

theorem Receiver.finaliseUpload_eq {up : Upload} (hget : x.uploads.lookup id = some up) :
    x.finaliseUpload id = x.post ⟨some up.owner, id, up.path, .hash⟩ := by
  rw [finaliseUpload, hget]

theorem handleStart_moves {name : Bytes} {declared : ℤ} (halv : s.alive = true)
    (hread : readRequest d = some (.start id name sha declared)) :
    ReflTransGen (Move sha256 s (.message d)) s (s.handleStart id name sha declared) := by
  have hid : about s (.message d) = some id := by simp [about, hread, uploadId]
  unfold handleStart
  split
  · exact .single (.reports s _ rfl hid.symm)
  split
  · exact .single (.reports s _ rfl hid.symm)
  rename_i hsize hquota
  have hadm : admits s declared := by
    unfold admits
    omega
  exact .single (.starts id _ hid (by simp [startedBy, hread, halv, hadm]))

theorem handleChunk_moves {b64 : Bytes} {seq : ℤ} (hread : readRequest d = some (.chunk id b64 seq)) :
    ReflTransGen (Move sha256 s (.message d)) s (s.handleChunk id b64 seq) := by
  have hid : about s (.message d) = some id := by simp [about, hread, uploadId]
  unfold handleChunk
  cases hget : s.uploads.lookup id with
  | none => exact .refl
  | some up =>
    have hrej : up.takes b64 seq = false → rejected s (.message d) = some up := by
      intro htks
      simp [rejected, hread, hget, htks]
    dsimp only
    split
    next hseq =>
      have htks : up.takes b64 seq = false := by simp [Upload.takes, hseq]
      exact .single (.abandons s id up up _ _ hid (hrej htks) rfl rfl hget)
    cases hdec : decode standard b64 with
    | none =>
      have htks : up.takes b64 seq = false := by simp [Upload.takes, hdec]
      exact .single (.abandons s id up up _ _ hid (hrej htks) rfl rfl hget)
    | some bytes =>
      dsimp only
      split
      next hsize =>
        have htks : up.takes b64 seq = false := by simp [Upload.takes, hdec, hsize]
        exact .single (.abandons s id up up _ _ hid (hrej htks) rfl rfl hget)
      next hsize => exact .single (.accepts s id up bytes hid hget (Int.not_lt.mp hsize))

theorem handleEnd_moves (hread : readRequest d = some (.finish id)) :
    ReflTransGen (Move sha256 s (.message d)) s (s.handleEnd id) := by
  have hid : about s (.message d) = some id := by simp [about, hread, uploadId]
  unfold handleEnd
  cases hget : s.uploads.lookup id with
  | none => exact .refl
  | some up =>
    dsimp only
    split
    · exact .single (.updates s id up up.writesInFlight true hid hget)
    · rw [finaliseUpload_eq hget]
      exact .single (.finalises s id up hid hget)

theorem handleCancel_moves (hread : readRequest d = some (.cancel id)) :
    ReflTransGen (Move sha256 s (.message d)) s (s.handleCancel id) := by
  have hid : about s (.message d) = some id := by simp [about, hread, uploadId]
  obtain ⟨hups, hpool, -⟩ := s.cancelChooser_keeps
  refine .head (.unparks s) ?_
  unfold handleCancel
  dsimp only
  rw [hups]
  cases hget : s.uploads.lookup id with
  | none => exact .single (.reports _ _ rfl hid.symm)
  | some up =>
    have hrej : rejected s (.message d) = some up := by simp [rejected, hread, hget]
    exact .single (.abandons _ id up up _ _ hid hrej rfl hpool (by rw [hups, hget]))

theorem onChunkWritten_moves {ok : Bool} (hr : s.replies[i]? = some r)
    (hrsl : r.result = .written ok) (hups : x.uploads = s.uploads) (hpool : x.pool = s.pool) :
    ReflTransGen (Move sha256 s (.reply i)) x (x.onChunkWritten r.uploadId ok) := by
  have hid : about s (.reply i) = some r.uploadId := by simp [about, hr]
  unfold onChunkWritten
  cases hget : x.uploads.lookup r.uploadId with
  | none => exact .refl
  | some up =>
    have hcnt : Move sha256 s (.reply i) x (x.put r.uploadId up.landed) :=
      .updates x r.uploadId up _ up.endPending hid hget
    refine .head hcnt ?_
    dsimp only
    split
    next hok =>
      have hrej : rejected s (.reply i) = some up := by simp [rejected, hr, ← hups, hget, hrsl, passes, hok]
      exact .single (.abandons _ r.uploadId _ up _ _ hid hrej rfl hpool (AList.lookup_insert _))
    · refine .head (.reports _ (.progress r.uploadId up.received up.declaredSize) rfl hid.symm) ?_
      split
      · rw [finaliseUpload_eq (AList.lookup_insert _)]
        exact .single (.finalises _ r.uploadId _ hid (AList.lookup_insert _))
      · exact .refl

theorem onFinalised_moves {total : ℤ} (hr : s.replies[i]? = some r) (hrsl : r.result = .hashed sha total)
    (hups : x.uploads = s.uploads) (hpool : x.pool = s.pool) :
    ReflTransGen (Move sha256 s (.reply i)) x (x.onFinalised r.uploadId r.path sha total) := by
  have hid : about s (.reply i) = some r.uploadId := by simp [about, hr]
  unfold onFinalised
  cases hget : x.uploads.lookup r.uploadId with
  | none => exact .refl
  | some up =>
    have hrej : up.passes (.hashed sha total) = false → rejected s (.reply i) = some up := by
      intro hpass
      simp [rejected, hr, ← hups, hget, hrsl, hpass]
    dsimp only
    split
    next hsha =>
      have hpass : up.passes (.hashed sha total) = false := by simp [passes, hsha]
      exact .single (.abandons x r.uploadId up up _ _ hid (hrej hpass) rfl hpool hget)
    split
    next htot =>
      have hpass : up.passes (.hashed sha total) = false := by simp [passes, htot]
      exact .single (.abandons x r.uploadId up up _ _ hid (hrej hpass) rfl hpool hget)
    split
    next hhash =>
      have hpass : up.passes (.hashed sha total) = false := by simp [passes, hhash.1, hhash.2]
      exact .single (.abandons x r.uploadId up up _ _ hid (hrej hpass) rfl hpool hget)
    next htot hhash =>
      rw [not_not] at htot
      subst htot
      refine .single (.commits x r.uploadId r.path sha up ⟨i, rfl, ?_⟩ hget hups)
      rw [hr, ← hrsl]

variable (sha256) in
theorem step_moves (s : Receiver) (e : Event) :
    ReflTransGen (Move sha256 s e) s (step sha256 s e) := by
  cases e with
  | task i n ok => exact .single (.runs i n ok rfl)
  | message d =>
    rw [step]
    split
    next halv =>
      cases hread : readRequest d with
      | none => exact .refl
      | some request =>
        cases request with
        | start => exact handleStart_moves halv hread
        | chunk => exact handleChunk_moves hread
        | finish => exact handleEnd_moves hread
        | cancel => exact handleCancel_moves hread
    · exact .refl
  | reply i =>
    rw [step, runReply]
    cases hr : s.replies[i]? with
    | none => exact .refl
    | some r =>
      refine .head (.takes i r rfl hr) ?_
      dsimp only
      split
      · unfold onReply
        cases hrsl : r.result with
        | written => exact onChunkWritten_moves hr hrsl rfl rfl
        | hashed => exact onFinalised_moves hr hrsl rfl rfl
      · exact .refl
  | beginChooser listener mode =>
    rw [step]
    split
    next halv =>
      have hkeep := s.cancelChooser_keeps.2.2
      exact .head (.unparks s) (.single (.parks _ listener mode s.cancelChooser_free (by rw [hkeep, halv])))
    · exact .refl
  | cancelChooser | deadline =>
    rw [step]
    split
    · exact .single (.unparks s)
    · exact .refl
  | resetForNewSession =>
    rw [step]
    split
    · exact .head (.unparks s) (.single (.forgets _ rfl))
    · exact .refl
  | destroy =>
    rw [step]
    split
    · exact .head (.unparks s) (.single (.dies _ rfl s.cancelChooser_free))
    · exact .refl

variable (sha256) in
theorem Receiver.runTask_keeps (s : Receiver) (i n : ℕ) (ok : Bool) :
    ∃ fs pool replies, s.runTask sha256 i n ok = { s with fs := fs, pool := pool, replies := replies } := by
  unfold runTask
  split
  · exact ⟨s.fs, s.pool, s.replies, rfl⟩
  split
  · exact ⟨_, _, s.replies, rfl⟩
  · exact ⟨_, _, _, rfl⟩

theorem invariant_run_of_moves (ok : Receiver → Event → Prop) (I : Receiver → Prop)
    (hmove : ∀ s e x y, ok s e → Move sha256 s e x y → I x → I y) {s : Receiver} (hs : I s)
    {es : List Event} (hm : Runs.Meets (step sha256) ok s es) : I (run sha256 s es) :=
  Runs.invariant_run_moves (step sha256) (fun s e => Move sha256 s e) (step_moves sha256) ok I hmove hs hm

end

end Chromeless.Uploads
