import Chromeless.UploadReceiverOrder

/-! What the receiver reports. -/
namespace Chromeless.Uploads
open List hiding Vector
open Json Receiver Output AList

/-! ### Ids -/

theorem safeByte_safe (c : UInt8) : safeByte (if safeByte c then c else 0x5f) = true := by
  split
  · assumption
  · decide

theorem safeComponent_eq {out : Bytes} (hsafe : ∀ c ∈ out, safeByte c = true)
    (hspc : out ≠ [] ∧ out ≠ ascii "." ∧ out ≠ ascii "..") (hlen : out.length ≤ 128) :
    safeComponent out = out := by
  have hmap : (out.map fun c => if safeByte c then c else 0x5f) = out := by
    rw [map_congr_left (g := id), map_id]
    intro c hc
    rw [if_pos (hsafe c hc)]
    rfl
  unfold safeComponent
  dsimp only
  rw [hmap, if_neg (by simp [hspc]), take_of_length_le hlen]

theorem safeId_spec (raw : Bytes) :
    (∀ c ∈ safeId raw, safeByte c = true) ∧ (safeId raw ≠ [] ∧ safeId raw ≠ ascii "." ∧ safeId raw ≠ ascii "..") := by
  have hbef : ∃ out : Bytes, safeId raw = out.take 64 ∧ (∀ c ∈ out, safeByte c = true) ∧
      (out ≠ [] ∧ out ≠ ascii "." ∧ out ≠ ascii "..") := by
    unfold safeId safeComponent
    rw [take_take]
    split
    · exact ⟨ascii "upload", rfl, by decide +kernel, by decide⟩
    rename_i hspc
    refine ⟨_, rfl, ?_, by simpa [not_or] using hspc⟩
    intro c hc
    obtain ⟨b, -, rfl⟩ := mem_map.mp hc
    exact safeByte_safe b
  obtain ⟨out, heq, hsafe, hspc⟩ := hbef
  rw [heq]
  refine ⟨fun c hc => hsafe c (mem_of_mem_take hc), ?_⟩
  obtain hshr | hlong := Nat.lt_or_ge out.length 64
  · rwa [take_of_length_le hshr.le]
  have hlen : (out.take 64).length = 64 := by
    rw [length_take]
    omega
  refine ⟨?_, ?_, ?_⟩ <;> intro hshr <;> rw [hshr] at hlen <;> cases hlen

theorem safeId_safeId (raw : Bytes) : safeId (safeId raw) = safeId raw := by
  obtain ⟨hsafe, hspc⟩ := safeId_spec raw
  have hlen : (safeId raw).length ≤ 64 := length_take_le ..
  rw [safeId, safeComponent_eq hsafe hspc (by omega), take_of_length_le hlen]

theorem readRequest_safe {d : Dict} {r : Request} (h : readRequest d = some r) :
    safeId r.uploadId = r.uploadId := by
  obtain ⟨id, -, hid⟩ := readRequest_uploadId h
  rw [hid, safeId_safeId]

structure SafeIds (s : Receiver) : Prop where
  uploads : ∀ id ∈ s.uploads, safeId id = id
  pool : ∀ t ∈ s.pool, t.work = .wipe ∨ safeId t.uploadId = t.uploadId
  replies : ∀ r ∈ s.replies, safeId r.uploadId = r.uploadId
  log : ∀ o ∈ s.log, ∀ id, o.uploadId = some id → safeId id = id

theorem SafeIds.empty {fs : Files.Store Bytes UInt8} : SafeIds { fs := fs } where
  uploads id hid := absurd hid (notMem_empty id)
  pool _ ht := absurd ht not_mem_nil
  replies _ hr := absurd hr not_mem_nil
  log _ ho := absurd ho not_mem_nil

section
variable {sha256 : Bytes → Vector UInt8 32} {s x y : Receiver} {e : Event} {id : Bytes}

theorem SafeIds.about (hs : SafeIds s) (h : about s e = some id) : safeId id = id := by
  cases e with
  | message =>
    obtain ⟨r, hread, rfl⟩ := Option.map_eq_some_iff.mp h
    exact readRequest_safe hread
  | reply =>
    obtain ⟨r, hr, rfl⟩ := Option.map_eq_some_iff.mp h
    exact hs.replies r (mem_of_getElem? hr)
  | _ => cases h

theorem SafeIds.congr (h : SafeIds x) (hups : ∀ id ∈ y.uploads, id ∈ x.uploads)
    (hpool : y.pool = x.pool) (hreps : y.replies = x.replies) (outs : List Output)
    (hlog : y.log = x.log ++ outs) (houts : ∀ o ∈ outs, ∀ id, o.uploadId = some id → safeId id = id) :
    SafeIds y := by
  refine ⟨fun id hid => h.uploads id (hups id hid), hpool ▸ h.pool, hreps ▸ h.replies, ?_⟩
  rw [hlog]
  exact forall_mem_append.mpr ⟨h.log, houts⟩

theorem SafeIds.post (h : SafeIds x) {t : Task} (ht : t.work = .wipe ∨ safeId t.uploadId = t.uploadId) :
    SafeIds (x.post t) := by
  refine ⟨h.uploads, ?_, h.replies, h.log⟩
  exact forall_mem_append.mpr ⟨h.pool, forall_mem_singleton.mpr ht⟩

theorem SafeIds.put (h : SafeIds x) (hid : safeId id = id) (up : Upload) : SafeIds (x.put id up) := by
  refine ⟨fun id' hid' => ?_, h.pool, h.replies, h.log⟩
  obtain rfl | hold := (mem_insert _).mp hid'
  · exact hid
  · exact h.uploads id' hold

theorem SafeIds.runTask (h : SafeIds s) (i n : ℕ) (ok : Bool) : SafeIds (s.runTask sha256 i n ok) := by
  have hpool : ∀ t ∈ (s.runTask sha256 i n ok).pool, t.work = .wipe ∨ safeId t.uploadId = t.uploadId := by
    intro t ht
    obtain ⟨t', ht', -, hid, -, -, -, hwipe⟩ := mem_pool_runTask ht
    rw [hwipe, hid]
    exact h.pool t' ht'
  have hreps : ∀ r ∈ (s.runTask sha256 i n ok).replies, safeId r.uploadId = r.uploadId := by
    intro r hr
    obtain hr | ⟨t, ht, hwipe, hid, -⟩ := mem_replies_runTask hr
    · exact h.replies r hr
    · rw [hid]
      exact (h.pool t ht).resolve_left hwipe
  obtain ⟨fs, pool, replies, heq⟩ := s.runTask_keeps sha256 i n ok
  rw [heq] at hpool hreps ⊢
  exact ⟨h.uploads, hpool, hreps, h.log⟩

theorem Move.safeIds (hmove : Move sha256 s e x y) (hs : SafeIds s) (hx : SafeIds x) : SafeIds y := by
  cases hmove with
  | reports _ o ho hid =>
    refine hx.congr (fun _ h => h) rfl rfl [o] rfl fun o' ho' id h => ?_
    obtain rfl := mem_singleton.mp ho'
    exact hs.about (hid.symm.trans h)
  | unparks =>
    unfold cancelChooser
    dsimp only
    split
    · exact ⟨hx.uploads, hx.pool, hx.replies, hx.log⟩
    · exact hx.congr (fun _ h => h) rfl rfl [.fileSelectionCanceled _] rfl (by simp [uploadId])
  | parks _ listener => exact hx.congr (fun _ h => h) rfl rfl [.parked listener] rfl (by simp [uploadId])
  | starts id up hid =>
    have hput := hx.put (hs.about hid) up
    exact ⟨hput.uploads, hput.pool, hput.replies, hput.log⟩
  | abandons _ id up up' code message hid =>
    have hsafe := hs.about hid
    have hpst := hx.post (t := ⟨some up.owner, id, up.path, .delete⟩) (.inr hsafe)
    refine hpst.congr (fun _ h => (mem_erase.mp h).2) rfl rfl [.error id code message] rfl ?_
    simpa [uploadId] using hsafe
  | accepts _ id up bytes hid => exact (hx.put (hs.about hid) _).post (.inr (hs.about hid))
  | updates _ id up inFlight endPending hid => exact hx.put (hs.about hid) _
  | finalises _ id up hid => exact hx.post (.inr (hs.about hid))
  | commits _ id path sha up hrep =>
    obtain ⟨i, rfl, hr⟩ := hrep
    have hsafe : safeId id = id := hs.replies _ (mem_of_getElem? hr)
    unfold commit resolveChooserWith
    dsimp only
    split
    · refine hx.congr (fun _ h => (mem_erase.mp h).2) rfl rfl [.complete id path (ascii "none")]
        rfl ?_
      simpa [uploadId] using hsafe
    rename_i l _
    refine hx.congr (fun _ h => (mem_erase.mp h).2) rfl rfl
      [.fileSelected l path up.displayName x.pendingMode, .complete id path (ascii "fileChooser")]
      (append_assoc _ _ _) ?_
    simpa [uploadId] using hsafe
  | takes i r => exact ⟨hx.uploads, hx.pool, fun r hr => hx.replies r (mem_of_mem_eraseIdx hr), hx.log⟩
  | runs i n ok => exact hx.runTask i n ok
  | forgets =>
    have hpst := hx.post (t := ⟨none, [], [], .wipe⟩) (.inl rfl)
    exact hpst.congr (fun id hid => absurd hid (notMem_empty id)) rfl rfl [] (append_nil _).symm nofun
  | dies => exact ⟨hx.uploads, hx.pool, hx.replies, hx.log⟩

variable (sha256) in
theorem step_safeIds (e : Event) (hs : SafeIds s) : SafeIds (step sha256 s e) := by
  have hmvs := step_moves sha256 s e
  generalize step sha256 s e = s' at hmvs
  induction hmvs with
  | refl => exact hs
  | tail _ hmove ih => exact hmove.safeIds hs ih

end

/-! ### Errors -/

def Output.fails (u : Bytes) : Output → Bool
  | .error id _ _ => id = u
  | _ => false

def failuresOf (u : Bytes) (s : Receiver) : List Output := s.log.filter (fails u)

section
variable {sha256 : Bytes → Vector UInt8 32} {u p : Bytes} {s x y : Receiver} {e : Event}

theorem failuresOf_append (outs : List Output) (hlog : y.log = x.log ++ outs)
    (houts : ∀ o ∈ outs, o.fails u = false) : failuresOf u y = failuresOf u x := by
  have hnone : outs.filter (fails u) = [] := by
    rw [filter_eq_nil_iff]
    intro o ho
    rw [houts o ho]
    exact Bool.false_ne_true
  rw [failuresOf, hlog, filter_append, hnone, append_nil]
  rfl

theorem Move.failures (hmove : Move sha256 s e x y) (hid : about s e ≠ some u) :
    failuresOf u y = failuresOf u x := by
  cases hmove with
  | reports _ o ho hab =>
    refine failuresOf_append [o] rfl fun o' ho' => ?_
    obtain rfl := mem_singleton.mp ho'
    cases o' with
    | error =>
      refine decide_eq_false fun heq => hid ?_
      rw [← hab, ← heq]
      rfl
    | _ => rfl
  | unparks =>
    unfold cancelChooser
    dsimp only
    split
    · rfl
    · exact failuresOf_append [.fileSelectionCanceled _] rfl (by simp [fails])
  | parks _ listener => exact failuresOf_append [.parked listener] rfl (by simp [fails])
  | starts | accepts | updates | finalises | takes | forgets | dies => rfl
  | abandons _ id up up' code message hab =>
    refine failuresOf_append [.error id code message] rfl fun o ho => ?_
    obtain rfl := mem_singleton.mp ho
    exact decide_eq_false fun heq => hid (heq ▸ hab)
  | commits _ id path sha up =>
    unfold commit resolveChooserWith
    dsimp only
    split
    · exact failuresOf_append [.complete id path (ascii "none")] rfl (by simp [fails])
    rename_i l _
    exact failuresOf_append
      [.fileSelected l path up.displayName x.pendingMode, .complete id path (ascii "fileChooser")]
      (append_assoc _ _ _) (by simp [fails])
  | runs i n ok =>
    obtain ⟨fs, pool, replies, heq⟩ := s.runTask_keeps sha256 i n ok
    rw [heq]
    rfl

variable (sha256) in
theorem step_failures (hid : about s e ≠ some u) : failuresOf u (step sha256 s e) = failuresOf u s := by
  have hmvs := step_moves sha256 s e
  generalize step sha256 s e = s' at hmvs
  induction hmvs with
  | refl => rfl
  | tail _ hmove ih => exact (hmove.failures hid).trans ih

theorem Move.log (hmove : Move sha256 s e x y) : x.log <+: y.log := by
  cases hmove with
  | reports | parks | abandons => exact prefix_append ..
  | unparks =>
    unfold cancelChooser
    dsimp only
    split
    · exact prefix_refl _
    · exact prefix_append ..
  | starts | accepts | updates | finalises | takes | forgets | dies => exact prefix_refl _
  | commits =>
    unfold commit resolveChooserWith
    dsimp only
    split
    · exact prefix_append ..
    · exact (prefix_append ..).trans (prefix_append ..)
  | runs i n ok =>
    obtain ⟨fs, pool, replies, heq⟩ := s.runTask_keeps sha256 i n ok
    rw [heq]

theorem run_log (s : Receiver) (es : List Event) : s.log <+: (run sha256 s es).log :=
  invariant_run_of_moves (fun _ _ => True) (fun x => s.log <+: x.log)
    (fun _ _ _ _ _ hmove hx => hx.trans hmove.log) (prefix_refl _) (Runs.meets_true ..)

/-! ### Uploads that are not known -/

/-- The receiver has nothing of the upload. -/
structure Unknown (u p : Bytes) (s : Receiver) : Prop where
  apart : Apart u p s
  entry : s.uploads.lookup u = none
  tasks : tasksOn p s = []
  replies : repliesTo u s = []

theorem Unknown.empty {fs : Files.Store Bytes UInt8} : Unknown u p { fs := fs } where
  apart := ⟨rfl, fun _ ht => absurd ht not_mem_nil, fun _ ht => absurd ht not_mem_nil,
    fun id up hup => by rw [lookup_empty] at hup; cases hup⟩
  entry := lookup_empty u
  tasks := rfl
  replies := rfl

theorem Unknown.of_same (h : Unknown u p s) (hsame : Same u p s x) (hx : Apart u p x) : Unknown u p x :=
  ⟨hx, hsame.entry.trans h.entry, hsame.tasks.trans h.tasks, hsame.replies.trans h.replies⟩

theorem Unknown.foreign (h : Unknown u p s) (he : requestOf u e = none) : Foreign u p s e := by
  by_contra hfor
  obtain hab | ⟨i, n, ok, t, rfl, hget, hpath⟩ := about_of_not_foreign hfor
  · cases e with
    | message =>
      obtain ⟨r, hread, hid⟩ := Option.map_eq_some_iff.mp hab
      simp [requestOf, hread, hid] at he
    | reply =>
      obtain ⟨r, hr, hid⟩ := Option.map_eq_some_iff.mp hab
      have hmem : r ∈ repliesTo u s := mem_filter.mpr ⟨mem_of_getElem? hr, decide_eq_true hid⟩
      rw [h.replies] at hmem
      cases hmem
    | _ => cases hab
  · have hmem : t ∈ tasksOn p s := mem_filter.mpr ⟨mem_of_getElem? hget, decide_eq_true hpath⟩
    rw [h.tasks] at hmem
    cases hmem

variable (sha256) in
theorem Unknown.step (h : Unknown u p s) (hok : Undisturbed u p s e) (he : requestOf u e = none) :
    Unknown u p (step sha256 s e) ∧ completionsOf u (Uploads.step sha256 s e) = completionsOf u s ∧
      failuresOf u (Uploads.step sha256 s e) = failuresOf u s := by
  have hsame := step_same sha256 (h.foreign he) hok h.apart
  have hap := step_apart sha256 hok (fun up hup => absurd hup (Sent.not_startedBy he up)) h.apart
  exact ⟨h.of_same hsame hap, hsame.completions, step_failures sha256 (h.foreign he).1⟩

theorem Unknown.run (h : Unknown u p s) {es : List Event}
    (hes : Runs.Meets (Uploads.step sha256) (Undisturbed u p) s es) (hnone : requestsOf u es = []) :
    Unknown u p (Uploads.run sha256 s es) ∧
      completionsOf u (Uploads.run sha256 s es) = completionsOf u s ∧
      failuresOf u (Uploads.run sha256 s es) = failuresOf u s := by
  induction es generalizing s with
  | nil => exact ⟨h, rfl, rfl⟩
  | cons e es ih =>
    have hreqs := filterMap_eq_nil_iff.mp hnone
    have he : requestOf u e = none := hreqs e (mem_cons_self ..)
    obtain ⟨hnext, hcomps, hfls⟩ := h.step sha256 hes.1 he
    have hrest : requestsOf u es = [] := filterMap_eq_nil_iff.mpr fun e' he' => hreqs e' (mem_cons_of_mem e he')
    obtain ⟨hend, hcomps', hfls'⟩ := ih hnext hes.2 hrest
    exact ⟨hend, hcomps'.trans hcomps, hfls'.trans hfls⟩

theorem Unknown.step_request (h : Unknown u p s) {r : Request} (hr : requestOf u e = some r)
    (hst : ∀ up, startedBy s e ≠ some (u, up)) :
    Unknown u p (Uploads.step sha256 s e) ∧ completionsOf u (Uploads.step sha256 s e) = completionsOf u s := by
  obtain ⟨d, rfl, hread, hid⟩ := requestOf_eq_some hr
  have halive := h.apart.alive
  have hstep : Uploads.step sha256 s (.message d) = s.handle r := by simp [Uploads.step, halive, hread]
  have hsaid : ∀ code message, Unknown u p (s.say (.error u code message)) ∧
      completionsOf u (s.say (.error u code message)) = completionsOf u s := by
    intro code message
    refine ⟨⟨⟨halive, h.apart.held, h.apart.pool, h.apart.uploads⟩, h.entry, h.tasks, h.replies⟩, ?_⟩
    exact completionsOf_append [.error u code message] rfl (by simp [completes])
  rw [hstep]
  cases r with
  | start id name sha declared =>
    obtain rfl : id = u := hid
    have hadm : ¬ admits s declared := by
      intro hadm
      exact hst (s.newUpload id name sha declared) (by simp [startedBy, hread, halive, hadm])
    unfold admits at hadm
    rw [handle, handleStart]
    split
    · exact hsaid _ _
    · rw [if_pos (by omega)]
      exact hsaid _ _
  | chunk id =>
    obtain rfl : id = u := hid
    rw [handle, handleChunk, h.entry]
    exact ⟨h, rfl⟩
  | finish id =>
    obtain rfl : id = u := hid
    rw [handle, handleEnd, h.entry]
    exact ⟨h, rfl⟩
  | cancel id =>
    obtain rfl : id = u := hid
    obtain ⟨hap, hsame⟩ := h.apart.cancelChooser
    have haft : Unknown id p s.cancelChooser := h.of_same hsame hap
    rw [handle, handleCancel, haft.entry]
    refine ⟨⟨⟨hap.alive, hap.held, hap.pool, hap.uploads⟩, haft.entry, haft.tasks, haft.replies⟩, ?_⟩
    rw [← hsame.completions]
    exact completionsOf_append [.error id _ _] rfl (by simp [completes])

theorem Unknown.run_completions (h : Unknown u p s) {es : List Event} (hes : Runs.Meets (Uploads.step sha256)
      (fun s e => Undisturbed u p s e ∧ ∀ up, startedBy s e ≠ some (u, up)) s es) :
    completionsOf u (Uploads.run sha256 s es) = completionsOf u s := by
  induction es generalizing s with
  | nil => rfl
  | cons e es ih =>
    obtain ⟨⟨hok, hst⟩, hrest⟩ := hes
    cases hreq : requestOf u e with
    | none =>
      obtain ⟨hnext, hcomps, -⟩ := h.step sha256 hok hreq
      exact (ih hnext hrest).trans hcomps
    | some =>
      obtain ⟨hnext, hcomps⟩ := h.step_request hreq hst
      exact (ih hnext hrest).trans hcomps

end

/-! ### Uploads on their way -/

namespace Sent

section
variable {sha256 : Bytes → Vector UInt8 32} {a : Sent} {before : List Output} {s : Receiver}
  {todo : List Request} {e : Event} {left : ℕ} {r : Request}

theorem runReply_failures {i : ℕ} {r : Reply} (u : Bytes) (halv : s.alive = true)
    (hr : s.replies[i]? = some r) (hrsl : r.result = .written true) :
    failuresOf u (s.runReply i) = failuresOf u s := by
  simp only [runReply, hr, halv, ↓reduceIte, onReply, hrsl]
  unfold onChunkWritten finaliseUpload
  cases hget : s.uploads.lookup r.uploadId with
  | none => rfl
  | some up =>
    dsimp only
    rw [if_neg (by simp)]
    have hsaid : ∀ x : Receiver, x.log = s.log ++ [.progress r.uploadId up.landed.received up.landed.declaredSize] →
        failuresOf u x = failuresOf u s := fun x hx => failuresOf_append _ hx (by simp [fails])
    split
    · split <;> exact hsaid _ rfl
    · exact hsaid _ rfl

theorem Stage.step_failures (h : Stage sha256 a before s (r :: todo) left)
    (hs : Apart a.uploadId a.path s) (hreq : requestOf a.uploadId e = none) :
    failuresOf a.uploadId (Uploads.step sha256 s e) = failuresOf a.uploadId s := by
  by_cases hab : about s e = some a.uploadId
  · cases e with
    | message =>
      obtain ⟨r, hread, hid⟩ := Option.map_eq_some_iff.mp hab
      simp [requestOf, hread, hid] at hreq
    | reply =>
      obtain ⟨reply, hrep, hid⟩ := Option.map_eq_some_iff.mp hab
      have hmem : reply ∈ repliesTo a.uploadId s := mem_filter.mpr ⟨mem_of_getElem? hrep, decide_eq_true hid⟩
      generalize htodo : r :: todo = todo' at h
      cases h with
      | writing written rem up n todo' hlook hup hwr hreps =>
        rw [hreps] at hmem
        obtain rfl := eq_of_mem_replicate hmem
        exact runReply_failures a.uploadId hs.alive hrep rfl
      | hashing | hashed | completed | rejected => cases htodo
    | _ => cases hab
  · exact Uploads.step_failures sha256 hab

theorem Stage.completions_of_cons (h : Stage sha256 a before s (r :: todo) left) :
    completionsOf a.uploadId s = before := by
  generalize htodo : r :: todo = todo' at h
  cases h with
  | writing hs rem up n todo' hlook hup hwr hreps hfl hchs htodo hlog => exact hlog
  | hashing | hashed | completed | rejected => cases htodo

theorem Stage.request_failures {r' : Request} (h : Stage sha256 a before s (r :: r' :: todo) left)
    (halv : s.alive = true) (hreq : requestOf a.uploadId e = some r) :
    failuresOf a.uploadId (Uploads.step sha256 s e) = failuresOf a.uploadId s := by
  obtain ⟨d, rfl, hread, -⟩ := requestOf_eq_some hreq
  have hstep : Uploads.step sha256 s (.message d) = s.handle r := by simp [Uploads.step, halv, hread]
  rw [hstep]
  generalize htodo' : r :: r' :: todo = todo' at h
  cases h with
  | hashing | hashed | completed | rejected => cases htodo'
  | writing hs rem up n todo' hlook hup hwr hreps hfl hchs htodo =>
    subst htodo'
    obtain ⟨hsnds, -⟩ | ⟨-, hnil, -⟩ := htodo
    · generalize hlen : hs.length = i at hsnds
      cases hsnds with
      | chunk b64 c hdec =>
        subst hlen
        have hfits : up.received + c.length ≤ up.declaredSize := hup.fits hchs
        simp only [handle, handleChunk, hlook, hup.seq, hdec, ne_eq, not_true_eq_false, ↓reduceIte]
        rw [if_neg (Int.not_lt.mpr hfits)]
        rfl
    · cases hnil

theorem Stage.run_failures {es : List Event} {later : List Request}
    (h : Stage sha256 a before s (requestsOf a.uploadId es ++ r :: later) left)
    (hs : Apart a.uploadId a.path s) (hes : Runs.Meets (Uploads.step sha256) a.Orderly s es) :
    failuresOf a.uploadId (Uploads.run sha256 s es) = failuresOf a.uploadId s := by
  induction es generalizing s left with
  | nil => rfl
  | cons e es ih =>
    have hnext : Apart a.uploadId a.path (Uploads.step sha256 s e) ∧ ∃ left',
        Stage sha256 a before (Uploads.step sha256 s e) (requestsOf a.uploadId es ++ r :: later) left' := by
      have hcons : Stage sha256 a before s
          (requestsOf a.uploadId [e] ++ (requestsOf a.uploadId es ++ r :: later)) left := by
        rwa [← append_assoc, ← requestsOf_append]
      exact Stage.run hcons hs ⟨hes.1, trivial⟩
    obtain ⟨hap, left', hstg⟩ := hnext
    refine (ih hstg hap hes.2).trans ?_
    obtain ⟨r', rest, hall⟩ := exists_cons_of_ne_nil
      (append_ne_nil_of_right_ne_nil (requestsOf a.uploadId es) (cons_ne_nil r later))
    rw [requestsOf] at h hall
    cases hreq : requestOf a.uploadId e with
    | none =>
      rw [filterMap_cons_none hreq, hall] at h
      exact h.step_failures hs hreq
    | some =>
      rw [filterMap_cons_some hreq, cons_append, hall] at h
      exact h.request_failures hs.alive hreq

end

end Sent

end Chromeless.Uploads
