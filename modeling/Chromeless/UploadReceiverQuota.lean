import Chromeless.LibCount
import Chromeless.UploadEnvelopes
import Chromeless.UploadReceiverMoves

/-! The bytes that one session uploads. The quota is tested when an upload starts, and charged
when it is complete. -/
namespace Chromeless.Uploads
open List hiding Vector
open Json Count Receiver Envelope AList Base64

def reportedBytes (s : Receiver) : ℤ := (s.completed.map Completed.bytes).sum

def declaredBytes (uploads : AList fun _ : Bytes => Upload) : ℤ := tally Upload.declaredSize uploads

/-- A start fits into the quota beside all that is in progress under other ids. -/
def FitsBeside (s : Receiver) (e : Event) : Prop :=
  ∀ started ∈ startedBy s e,
    s.sessionBytes + declaredBytes (s.uploads.erase started.1) + started.2.declaredSize ≤
      kMaxSessionUploadBytes

instance (s : Receiver) (e : Event) : Decidable (FitsBeside s e) := by
  unfold FitsBeside
  infer_instance

structure Charged (s : Receiver) : Prop where
  session : s.sessionBytes = reportedBytes s
  positive : ∀ id up, s.uploads.lookup id = some up → 0 ≤ up.declaredSize
  fits : s.sessionBytes + declaredBytes s.uploads ≤ kMaxSessionUploadBytes

section
variable {sha256 : Bytes → Vector UInt8 32} {s x y : Receiver} {e : Event}

theorem Charged.frame (h : Charged x) (hups : y.uploads = x.uploads)
    (hsess : y.sessionBytes = x.sessionBytes) (hcomp : y.completed = x.completed) :
    Charged y := by
  constructor
  · rw [hsess, h.session, reportedBytes, reportedBytes, hcomp]
  · rw [hups]
    exact h.positive
  · rw [hups, hsess]
    exact h.fits

variable {id : Bytes} {up : Upload}

theorem Charged.put (h : Charged x) {up' : Upload} (hget : x.uploads.lookup id = some up)
    (hsize : up'.declaredSize = up.declaredSize) : Charged (x.put id up') := by
  constructor
  · exact h.session
  · intro id' up'' hget'
    by_cases hid : id' = id
    · subst hid
      obtain rfl : up' = up'' := Option.some.inj ((lookup_insert _).symm.trans hget')
      rw [hsize]
      exact h.positive id' up hget
    · exact h.positive id' up'' ((lookup_insert_ne hid).symm.trans hget')
  · have hsum : declaredBytes (x.uploads.insert id up') = declaredBytes x.uploads := tally_insert_same hget hsize
    change x.sessionBytes + declaredBytes (x.uploads.insert id up') ≤ _
    rw [hsum]
    exact h.fits

theorem Charged.post (h : Charged x) (t : Task) : Charged (x.post t) := h.frame rfl rfl rfl

theorem positive_erase (h : ∀ id up, x.uploads.lookup id = some up → 0 ≤ up.declaredSize)
    (id : Bytes) : ∀ id' up, (x.uploads.erase id).lookup id' = some up → 0 ≤ up.declaredSize := by
  intro id' up hget
  by_cases hid : id' = id
  · rw [hid, lookup_erase] at hget
    cases hget
  · exact h id' up ((lookup_erase_ne hid).symm.trans hget)

theorem declaredBytes_erase (hget : x.uploads.lookup id = some up) :
    declaredBytes x.uploads = up.declaredSize + declaredBytes (x.uploads.erase id) :=
  tally_of_lookup hget

theorem Charged.abandon (h : Charged x) (hget : x.uploads.lookup id = some up)
    (code message : Bytes) : Charged (x.abandonUpload id up code message) := by
  refine ⟨h.session, positive_erase h.positive id, ?_⟩
  have hsum := declaredBytes_erase hget
  have hsize := h.positive id up hget
  have hfits := h.fits
  change x.sessionBytes + declaredBytes (x.uploads.erase id) ≤ _
  omega

theorem Charged.commit (h : Charged x) (hget : x.uploads.lookup id = some up) (path : Bytes) :
    Charged (x.commit id path up up.declaredSize) := by
  have hkeeps : (x.commit id path up up.declaredSize).uploads = x.uploads.erase id ∧
      (x.commit id path up up.declaredSize).sessionBytes = x.sessionBytes + up.declaredSize ∧
      (x.commit id path up up.declaredSize).completed = x.completed ++ [⟨up.owner, path, up.declaredSize⟩] := by
    unfold Receiver.commit Receiver.resolveChooserWith
    dsimp only
    split <;> exact ⟨rfl, rfl, rfl⟩
  obtain ⟨hups, hsess, hcomp⟩ := hkeeps
  have hsum := declaredBytes_erase hget
  have hfits := h.fits
  constructor
  · rw [hsess, h.session]
    simp [reportedBytes, hcomp]
  · rw [hups]
    exact positive_erase h.positive id
  · rw [hups, hsess]
    omega

theorem Charged.start (h : Charged s) (hup : startedBy s e = some (id, up)) (hok : FitsBeside s e) :
    Charged { s.put id up with started := s.started ++ [up.path] } := by
  have hpos : 0 ≤ up.declaredSize := by
    obtain ⟨d, name, sha, declared, -, -, -, hadm, rfl⟩ := startedBy_eq hup
    exact hadm.1.le
  constructor
  · exact h.session
  · intro id' up' hget
    by_cases hid : id' = id
    · subst hid
      obtain rfl : up = up' := Option.some.inj ((lookup_insert _).symm.trans hget)
      exact hpos
    · exact h.positive id' up' ((lookup_insert_ne hid).symm.trans hget)
  · have hsum : declaredBytes (s.uploads.insert id up) =
        up.declaredSize + declaredBytes (s.uploads.erase id) := tally_insert _
    have hfits := hok (id, up) hup
    change s.sessionBytes + declaredBytes (s.uploads.insert id up) ≤ _
    dsimp only at hfits
    omega

theorem nothing_declared : (0 : ℤ) + declaredBytes ∅ ≤ kMaxSessionUploadBytes := by decide

theorem Move.charged (h : Move sha256 s e x y) (hok : FitsBeside s e) (hx : Charged x) : Charged y := by
  cases h with
  | reports | parks | finalises | takes | dies => exact hx.frame rfl rfl rfl
  | unparks =>
    unfold cancelChooser
    dsimp only
    split <;> exact hx.frame rfl rfl rfl
  | starts id up hid hup => exact hx.start hup hok
  | abandons _ id up up' code message _ _ _ _ hget => exact hx.abandon hget code message
  | accepts _ id up bytes _ hget =>
    refine Charged.post (Charged.put hx hget ?_) _
    rfl
  | updates _ id up inFlight endPending _ hget => exact hx.put hget rfl
  | commits _ id path sha up _ hget => exact hx.commit hget path
  | runs i n ok =>
    obtain ⟨fs, pool, replies, heq⟩ := s.runTask_keeps sha256 i n ok
    rw [heq]
    exact hx.frame rfl rfl rfl
  | forgets =>
    refine ⟨rfl, ?_, ?_⟩
    · nofun
    · exact nothing_declared

theorem new_charged (fs : Files.Store Bytes UInt8) : Charged { fs := fs } := by
  refine ⟨rfl, ?_, ?_⟩
  · nofun
  · exact nothing_declared

variable (sha256) in
/-- When every start fits beside what is in progress, the bytes reported complete stay within the
session's quota. -/
theorem reportedBytes_le (fs : Files.Store Bytes UInt8) {es : List Event}
    (hes : Runs.Meets (step sha256) FitsBeside { fs := fs } es) :
    reportedBytes (run sha256 { fs := fs } es) ≤ kMaxSessionUploadBytes := by
  have hrun : Charged (run sha256 { fs := fs } es) :=
    invariant_run_of_moves FitsBeside Charged (fun _ _ _ _ hok hmove => hmove.charged hok) (new_charged fs) hes
  have hsum : 0 ≤ declaredBytes (run sha256 { fs := fs } es).uploads := tally_nonneg hrun.positive
  calc reportedBytes (run sha256 { fs := fs } es)
      = (run sha256 { fs := fs } es).sessionBytes := hrun.session.symm
    _ ≤ (run sha256 { fs := fs } es).sessionBytes +
        declaredBytes (run sha256 { fs := fs } es).uploads := by omega
    _ ≤ kMaxSessionUploadBytes := hrun.fits

end

section
variable (sha256 : Bytes → Vector UInt8 32) {s : Receiver} {t : Task} {c : Bytes}

def alone (c : Bytes) : List Event := [.task 0 0 true, .task 0 c.length true, .task 0 0 true]

theorem run_alone_append (hpool : s.pool = [t]) (hwork : t.work = .append c true) (hc : c ≠ []) :
    ∃ fs, fs.read t.path = some c ∧
      run sha256 s (alone c) =
        { s with
          fs := fs, pool := [], replies := s.replies ++ [⟨t.uploadId, t.path, .written true⟩] } := by
  have hon := s.fs.create_on t.path
  have hread := s.fs.read_create t.path
  have hoffset := s.fs.create_offset t.path
  refine ⟨(Files.Store.write 0 (s.fs.create t.path).1 (s.fs.create t.path).2 c).1,
    Files.Store.read_write hon hread hoffset, ?_⟩
  have htake : c.take (c.length+1) = c := take_of_length_le (by omega)
  simp [alone, step, runTask, hpool, Task.advance, hwork, hc, htake]

theorem run_alone_hash (hpool : s.pool = [t]) (hwork : t.work = .hash)
    (hread : s.fs.read t.path = some c) (hc : c ≠ []) :
    run sha256 s (alone c) =
      { s with
        pool := []
        replies := s.replies ++ [⟨t.uploadId, t.path, .hashed (hexEncode (sha256 c).toList) c.length⟩] } := by
  obtain ⟨i, hent, hdata⟩ := Option.map_eq_some_iff.mp hread
  have htake : c.take (c.length+1) = c := take_of_length_le (by omega)
  simp [alone, step, runTask, hpool, Task.advance, hwork, hent, hdata, hc, htake]

def delivery (id c : Bytes) : List Event :=
  [.message (chunk id 0 (encode standard c)).object] ++ alone c ++
    [.reply 0, .message (finish id).object] ++ alone c ++ [.reply 0]

structure Quiet (s : Receiver) : Prop where
  pool : s.pool = []
  replies : s.replies = []
  alive : s.alive = true
  free : s.pendingListener = none

structure Beside (id : Bytes) (s s' : Receiver) (bytes : ℤ) : Prop where
  lookup : ∀ id', id' ≠ id → s'.uploads.lookup id' = s.uploads.lookup id'
  reported : reportedBytes s' = reportedBytes s + bytes

variable {up : Upload} {id : Bytes}

theorem run_chunk (hs : Quiet s) (hc : c ≠ []) (hget : s.uploads.lookup (safeId id) = some up)
    (hseq : up.nextSeq = 0) (hrec : up.received = 0) (hsize : up.declaredSize = c.length)
    (hwrit : up.writesInFlight = 0) (hend : up.endPending = false) :
    ∃ s', run sha256 s ([.message (chunk id 0 (encode standard c)).object] ++
        alone c ++ [.reply 0]) = s' ∧ Quiet s' ∧ Beside (safeId id) s s' 0 ∧
      s'.fs.read up.path = some c ∧
      s'.uploads.lookup (safeId id) = some { up with nextSeq := 1, received := c.length } := by
  have hread := readRequest_chunk id (show 0 < 2^31 by decide) (encode standard c)
  have hdecode := decode_of_encode standard c
  have hchk : step sha256 s
      (.message (chunk id 0 (encode standard c)).object) =
      (s.put (safeId id)
        { up with nextSeq := 1, received := c.length, writesInFlight := 1 }).post
        ⟨some up.owner, safeId id, up.path, .append c true⟩ := by
    simp [step, hs.alive, hread, handle, handleChunk, hget, hseq, hdecode, hrec, hsize, hwrit]
  have hpool : ((s.put (safeId id)
      { up with nextSeq := 1, received := c.length, writesInFlight := 1 }).post
        ⟨some up.owner, safeId id, up.path, .append c true⟩).pool =
      [⟨some up.owner, safeId id, up.path, .append c true⟩] := by
    simp [post, put, hs.pool]
  obtain ⟨fs, hfile, hwrt⟩ := run_alone_append sha256 hpool rfl hc
  refine ⟨_, rfl, ?_⟩
  simp only [run_append, run_cons, run_nil, hchk, hwrt]
  simp only [step, runReply, post, put, hs.replies, hs.alive,
    onReply, onChunkWritten, Upload.landed, hend, say, nil_append,
    getElem?_cons_zero, ↓reduceIte, lookup_insert, eraseIdx_cons_zero,
    insert_insert, not_true_eq_false, Bool.false_eq_true, false_and, Int.one_pos, sub_self]
  refine ⟨⟨rfl, rfl, rfl, hs.free⟩, ⟨?_, ?_⟩, hfile, ?_⟩
  · exact fun id' hid => lookup_insert_ne hid
  · exact (Int.add_zero _).symm
  · rw [hwrit]

theorem run_finish (hs : Quiet s) (hc : c ≠ []) (hget : s.uploads.lookup (safeId id) = some up)
    (hsize : up.declaredSize = c.length) (hsha : up.sha256 = []) (hwrit : up.writesInFlight = 0)
    (hfile : s.fs.read up.path = some c) :
    ∃ s', run sha256 s ([.message (finish id).object] ++ alone c ++ [.reply 0]) = s' ∧
      Quiet s' ∧ Beside (safeId id) s s' c.length := by
  have hend : step sha256 s (.message (finish id).object) = s.post ⟨some up.owner, safeId id, up.path, .hash⟩ := by
    simp [step, hs.alive, readRequest_finish, handle, handleEnd, hget, hwrit, finaliseUpload]
  have hpool : (s.post ⟨some up.owner, safeId id, up.path, .hash⟩).pool =
      [⟨some up.owner, safeId id, up.path, .hash⟩] := by
    simp [post, hs.pool]
  have hhash := run_alone_hash sha256 hpool rfl hfile hc
  have hne : hexEncode (sha256 c).toList ≠ [] := hexEncode_ne_nil _
  refine ⟨_, rfl, ?_⟩
  simp only [run_append, run_cons, run_nil, hend, hhash]
  simp only [step, runReply, post, hs.replies, hs.alive, onReply,
    onFinalised, hget, hne, hsize, hsha, nil_append, getElem?_cons_zero,
    ↓reduceIte, eraseIdx_cons_zero, ne_eq, not_true_eq_false, false_and, commit,
    resolveChooserWith, hs.free, say]
  refine ⟨⟨rfl, rfl, rfl, rfl⟩, ⟨?_, ?_⟩⟩
  · exact fun id' hid => lookup_erase_ne hid
  · simp [reportedBytes]

structure Fresh (c : Bytes) (up : Upload) : Prop where
  seq : up.nextSeq = 0
  received : up.received = 0
  size : up.declaredSize = c.length
  writes : up.writesInFlight = 0
  pending : up.endPending = false
  sha : up.sha256 = []

theorem run_delivery (hs : Quiet s) (hc : c ≠ []) (hget : s.uploads.lookup (safeId id) = some up) (hup : Fresh c up) :
    Quiet (run sha256 s (delivery id c)) ∧ Beside (safeId id) s (run sha256 s (delivery id c)) c.length := by
  obtain ⟨s₁, hrun₁, hqt₁, hbes₁, hfile, hget₁⟩ := run_chunk sha256 hs hc hget hup.seq
    hup.received hup.size hup.writes hup.pending
  obtain ⟨s₂, hrun₂, hqt₂, hbes₂⟩ := run_finish sha256 hqt₁ hc hget₁ hup.size hup.sha hup.writes hfile
  have hrun : run sha256 s (delivery id c) = s₂ := by
    rw [← hrun₂, ← hrun₁, ← run_append]
    rfl
  rw [hrun]
  refine ⟨hqt₂, ⟨?_, ?_⟩⟩
  · intro id' hid
    rw [hbes₂.lookup id' hid, hbes₁.lookup id' hid]
  · rw [hbes₂.reported, hbes₁.reported]
    omega

/-- Uploads of the same bytes that are all started before the first of them is sent. -/
def flood (ids : List Bytes) (c : Bytes) : List Event :=
  (ids.map fun id => .message (start id [] [] c.length [] none).object) ++ ids.flatMap fun id => delivery id c

structure AllFresh (c : Bytes) (ids : List Bytes) (s s' : Receiver) : Prop where
  quiet : Quiet s'
  session : s'.sessionBytes = s.sessionBytes
  reported : reportedBytes s' = reportedBytes s
  fresh : ∀ id ∈ ids, ∃ up, s'.uploads.lookup (safeId id) = some up ∧ Fresh c up

theorem run_starts (hc : c ≠ []) (hsize : (c.length : ℤ) ≤ kMaxUploadBytes) (ids : List Bytes)
    (hs : Quiet s) (hquota : s.sessionBytes + c.length ≤ kMaxSessionUploadBytes) :
    AllFresh c ids s (run sha256 s (ids.map fun id => .message (start id [] [] c.length [] none).object)) := by
  have hlen : 0 < c.length := length_pos_iff.mpr hc
  have hmax : kMaxUploadBytes = 104857600 := rfl
  induction ids using reverseRecOn with
  | nil => exact ⟨hs, rfl, rfl, by simp⟩
  | append_singleton ids id ih =>
    rw [map_append, run_append]
    generalize run sha256 s _ = s₁ at ih ⊢
    have hread := readRequest_start id [] [] (show c.length < 2^31 by omega) [] none
    have hst : run sha256 s₁
        (map (fun id => .message (start id [] [] c.length [] none).object) [id]) =
        { s₁.put (safeId id) (s₁.newUpload (safeId id) [] [] c.length) with
          started := s₁.started ++ [uploadPath (safeId id) (safeComponent [])] } := by
      have hsess := ih.session
      simp only [map_cons, map_nil, run_cons, run_nil, step, ih.quiet.alive, ↓reduceIte,
        hread, Option.elim_some, handle, handleStart]
      rw [if_neg (by omega), if_neg (by omega)]
      rfl
    rw [hst]
    refine ⟨⟨ih.quiet.pool, ih.quiet.replies, ih.quiet.alive, ih.quiet.free⟩, ih.session, ih.reported, ?_⟩
    intro id' hid'
    by_cases heq : safeId id' = safeId id
    · rw [heq]
      exact ⟨_, lookup_insert _, ⟨rfl, rfl, rfl, rfl, rfl, rfl⟩⟩
    have hmem : id' ∈ ids := by
      rw [mem_append, mem_singleton] at hid'
      exact hid'.resolve_right fun h => heq (congrArg safeId h)
    obtain ⟨up, hget, hup⟩ := ih.fresh id' hmem
    exact ⟨up, (lookup_insert_ne heq).trans hget, hup⟩

theorem run_deliveries (hc : c ≠ []) (ids : List Bytes) (hids : (ids.map safeId).Nodup)
    (hs : Quiet s) (hfr : ∀ id ∈ ids, ∃ up, s.uploads.lookup (safeId id) = some up ∧ Fresh c up) :
    reportedBytes (run sha256 s (ids.flatMap fun id => delivery id c)) = reportedBytes s + ids.length*c.length := by
  induction ids generalizing s with
  | nil => simp
  | cons id ids ih =>
    rw [map_cons, nodup_cons] at hids
    obtain ⟨up, hget, hup⟩ := hfr id (mem_cons_self ..)
    obtain ⟨hqt, hbes⟩ := run_delivery sha256 hs hc hget hup
    -- the uploads that are still to come are as they were
    have hrest : ∀ id' ∈ ids, ∃ up, (run sha256 s (delivery id c)).uploads.lookup (safeId id') =
        some up ∧ Fresh c up := by
      intro id' hid'
      have hne : safeId id' ≠ safeId id := fun heq => hids.1 (heq ▸ mem_map_of_mem hid')
      obtain ⟨up', hget', hup'⟩ := hfr id' (mem_cons_of_mem _ hid')
      exact ⟨up', (hbes.lookup _ hne).trans hget', hup'⟩
    have hcnt : ((id :: ids).length : ℤ)*c.length = c.length + ids.length*c.length := by
      rw [length_cons]
      push_cast
      ring
    rw [flatMap_cons, run_append, ih hids.2 hqt hrest, hbes.reported, hcnt]
    omega

theorem reportedBytes_flood (hc : c ≠ []) (hsize : (c.length : ℤ) ≤ kMaxUploadBytes) (ids : List Bytes)
    (hids : (ids.map safeId).Nodup) (hs : Quiet s) (hquota : s.sessionBytes + c.length ≤ kMaxSessionUploadBytes) :
    reportedBytes (run sha256 s (flood ids c)) = reportedBytes s + ids.length*c.length := by
  have hsts := run_starts sha256 hc hsize ids hs hquota
  rw [flood, run_append, run_deliveries sha256 hc ids hids hsts.quiet hsts.fresh, hsts.reported]

end

theorem reportedBytes_le_one_upload :
    (Runs.Meets (step fun _ => Vector.replicate 32 0) FitsBeside { fs := .empty }
        (flood [ascii "a"] [7]) ∧
      reportedBytes (run (fun _ => Vector.replicate 32 0) { fs := .empty } (flood [ascii "a"] [7])) = 1) ∧
    reportedBytes (run (fun _ => Vector.replicate 32 0) { fs := .empty } (flood [ascii "a"] [7])) ≤
      kMaxSessionUploadBytes :=
  ⟨by decide +kernel, reportedBytes_le _ _ (by decide +kernel)⟩

theorem flood_exceeds_quota :
    kMaxSessionUploadBytes < reportedBytes
      (run (fun _ => Vector.replicate 32 0) { fs := .empty }
        (flood [ascii "a", ascii "b", ascii "c", ascii "d", ascii "e", ascii "f"] (replicate 104857600 0))) := by
  have hlength : (replicate 104857600 (0 : UInt8)).length = 104857600 := length_replicate
  rw [reportedBytes_flood]
  · rw [hlength]
    decide
  · exact ne_nil_of_length_pos (by rw [hlength]; decide)
  · rw [hlength]
    decide
  · decide +kernel
  · exact ⟨rfl, rfl, rfl, rfl⟩
  · rw [hlength]
    decide

end Chromeless.Uploads
