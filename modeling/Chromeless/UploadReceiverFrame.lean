import Chromeless.UploadReceiverTasks

/-! One upload among others: what is not about it leaves it alone. -/
namespace Chromeless.Uploads
open List hiding Vector
open Json Receiver Output AList

def requestOf (u : Bytes) : Event → Option Request
  | .message d => (readRequest d).filter fun r => r.uploadId = u
  | _ => none

def requestsOf (u : Bytes) (es : List Event) : List Request := es.filterMap (requestOf u)

theorem requestOf_eq_some {u : Bytes} {e : Event} {r : Request} (h : requestOf u e = some r) :
    ∃ d, e = .message d ∧ readRequest d = some r ∧ r.uploadId = u := by
  cases e with
  | message d =>
    obtain ⟨hread, hid⟩ := Option.filter_eq_some_iff.mp h
    exact ⟨d, rfl, hread, of_decide_eq_true hid⟩
  | _ => cases h

theorem requestsOf_append (u : Bytes) (es es' : List Event) :
    requestsOf u (es ++ es') = requestsOf u es ++ requestsOf u es' := filterMap_append ..

/-- The file system does its part in the upload's tasks, the session goes on, and no upload with
another id gets its path. -/
def Undisturbed (u p : Bytes) (s : Receiver) (e : Event) : Prop :=
  (∀ started ∈ startedBy s e, started.1 ≠ u → started.2.path ≠ p) ∧
    match e with
    | .task i _ ok => ∀ t ∈ s.pool[i]?, t.path = p → ok = true
    | .resetForNewSession | .destroy => False
    | _ => True

instance (u p : Bytes) (s : Receiver) (e : Event) : Decidable (Undisturbed u p s e) := by
  unfold Undisturbed
  cases e <;> infer_instance

def InOrder (p : Bytes) (s : Receiver) : Event → Prop
  | .task i _ _ => ∀ t ∈ s.pool[i]?, t.path = p → ∀ t' ∈ s.pool.take i, t'.path ≠ p
  | _ => True

instance (p : Bytes) (s : Receiver) (e : Event) : Decidable (InOrder p s e) := by
  cases e <;> unfold InOrder <;> infer_instance

def Foreign (u p : Bytes) (s : Receiver) (e : Event) : Prop :=
  about s e ≠ some u ∧ ∀ i n ok, e = .task i n ok → ∀ t ∈ s.pool[i]?, t.path ≠ p

/-- The tasks for the id are the tasks on the path, and an upload has the one just when it has the
other. -/
structure Apart (u p : Bytes) (s : Receiver) : Prop where
  alive : s.alive = true
  held : Held s
  pool : ∀ t ∈ s.pool, (t.uploadId = u ↔ t.path = p) ∧ t.work ≠ .wipe
  uploads : ∀ id up, s.uploads.lookup id = some up → (id = u ↔ up.path = p)

def tasksOn (p : Bytes) (s : Receiver) : List Task := s.pool.filter fun t => t.path = p

def repliesTo (u : Bytes) (s : Receiver) : List Reply := s.replies.filter fun r => r.uploadId = u

def Output.completes (u : Bytes) : Output → Bool
  | .complete id _ _ => id = u
  | _ => false

def completionsOf (u : Bytes) (s : Receiver) : List Output := s.log.filter (completes u)

structure Same (u p : Bytes) (x y : Receiver) : Prop where
  entry : y.uploads.lookup u = x.uploads.lookup u
  tasks : tasksOn p y = tasksOn p x
  replies : repliesTo u y = repliesTo u x
  entries : y.fs.entries p = x.fs.entries p
  file : y.fs.read p = x.fs.read p
  completions : completionsOf u y = completionsOf u x

section
variable {sha256 : Bytes → Vector UInt8 32} {u p : Bytes} {s x y z : Receiver} {e : Event}

theorem about_of_not_foreign (h : ¬ Foreign u p s e) :
    about s e = some u ∨ ∃ i n ok t, e = .task i n ok ∧ s.pool[i]? = some t ∧ t.path = p := by
  by_contra hnot
  rw [not_or] at hnot
  refine h ⟨hnot.1, ?_⟩
  intro i n ok he t ht hpath
  exact hnot.2 ⟨i, n, ok, t, he, ht, hpath⟩

theorem Same.refl (u p : Bytes) (x : Receiver) : Same u p x x := ⟨rfl, rfl, rfl, rfl, rfl, rfl⟩

theorem Same.trans (h : Same u p x y) (h' : Same u p y z) : Same u p x z :=
  ⟨h'.entry.trans h.entry, h'.tasks.trans h.tasks, h'.replies.trans h.replies,
    h'.entries.trans h.entries, h'.file.trans h.file, h'.completions.trans h.completions⟩

theorem completionsOf_append (outs : List Output) (hlog : y.log = x.log ++ outs)
    (houts : ∀ o ∈ outs, o.completes u = false) : completionsOf u y = completionsOf u x := by
  have hnone : outs.filter (completes u) = [] := by
    rw [filter_eq_nil_iff]
    intro o ho
    rw [houts o ho]
    exact Bool.false_ne_true
  rw [completionsOf, hlog, filter_append, hnone, append_nil]
  rfl

variable {t : Task} {id : Bytes} {up : Upload}

theorem tasksOn_post (ht : t.path ≠ p) : tasksOn p (x.post t) = tasksOn p x := by
  simp [tasksOn, post, ht]

theorem Apart.post (h : Apart u p x) (hiff : t.uploadId = u ↔ t.path = p)
    (hhdl : t.work.handle = none) (hwipe : t.work ≠ .wipe) : Apart u p (x.post t) := by
  refine ⟨h.alive, h.held.post hhdl, ?_, h.uploads⟩
  exact forall_mem_append.mpr ⟨h.pool, forall_mem_singleton.mpr ⟨hiff, hwipe⟩⟩

theorem Apart.put (h : Apart u p x) (hiff : id = u ↔ up.path = p) : Apart u p (x.put id up) := by
  refine ⟨h.alive, h.held, h.pool, ?_⟩
  intro id' up' hget
  by_cases heq : id' = id
  · subst heq
    obtain rfl : up = up' := Option.some.inj ((lookup_insert _).symm.trans hget)
    exact hiff
  · exact h.uploads id' up' ((lookup_insert_ne heq).symm.trans hget)

theorem Same.put (hid : id ≠ u) (up : Upload) : Same u p x (x.put id up) :=
  ⟨lookup_insert_ne hid.symm, rfl, rfl, rfl, rfl, rfl⟩

theorem Apart.erase (h : Apart u p x) (hy : y.uploads = x.uploads.erase id)
    (halv : y.alive = x.alive) (hpool : y.pool = x.pool) (hfs : y.fs = x.fs) : Apart u p y := by
  refine ⟨halv.trans h.alive, ?_, ?_, ?_⟩
  · unfold Held
    rw [hpool, hfs]
    exact h.held
  · rw [hpool]
    exact h.pool
  · intro id' up' hget
    rw [hy] at hget
    by_cases heq : id' = id
    · rw [heq, lookup_erase] at hget
      cases hget
    · exact h.uploads id' up' ((lookup_erase_ne heq).symm.trans hget)

theorem Advances.ne_wipe {fs fs' : Files.Store Bytes UInt8} {work : Work}
    (h : Advances fs t fs' (.goesOn work)) : work ≠ .wipe := by
  intro hwipe
  subst hwipe
  cases h with
  | opens i _ _ hopen => cases hopen

variable (sha256) in
theorem Apart.runTask (h : Apart u p s) (i n : ℕ) (ok : Bool) : Apart u p (s.runTask sha256 i n ok) := by
  have hheld := h.held.runTask sha256 i n ok
  obtain heq | ⟨t, fs', progress, hget, hadv, -, hcs⟩ := s.runTask_cases sha256 i n ok
  · rwa [heq]
  have hmem : t ∈ s.pool := mem_of_getElem? hget
  obtain ⟨work, rfl, heq⟩ | ⟨result, -, heq⟩ := hcs
  · rw [heq] at hheld ⊢
    refine ⟨h.alive, hheld, ?_, h.uploads⟩
    intro t' ht'
    obtain ht' | rfl := mem_or_eq_of_mem_set ht'
    · exact h.pool t' ht'
    · exact ⟨(h.pool t hmem).1, hadv.ne_wipe⟩
  · rw [heq] at hheld ⊢
    exact ⟨h.alive, hheld, fun t' ht' => h.pool t' (mem_of_mem_eraseIdx ht'), h.uploads⟩

theorem Apart.same_runTask (h : Apart u p s) {i n : ℕ} {ok : Bool}
    (hfor : ∀ t ∈ s.pool[i]?, t.path ≠ p) : Same u p s (s.runTask sha256 i n ok) := by
  obtain heq | ⟨t, fs', progress, hget, hadv, -, hcs⟩ := s.runTask_cases sha256 i n ok
  · rw [heq]
    exact .refl u p s
  have hmem : t ∈ s.pool := mem_of_getElem? hget
  have hpath : t.path ≠ p := hfor t hget
  have hid : t.uploadId ≠ u := fun hid => hpath ((h.pool t hmem).1.mp hid)
  obtain ⟨hents, hread⟩ := hadv.frame (h.pool t hmem).2 (h.held t hmem) hpath.symm
  obtain ⟨work, -, heq⟩ | ⟨result, -, heq⟩ := hcs
  · rw [heq]
    refine ⟨rfl, ?_, rfl, hents, hread, rfl⟩
    exact Bag.filter_set_of_false hget (by simpa using hpath) (by simpa using hpath)
  rw [heq]
  refine ⟨rfl, ?_, ?_, hents, hread, rfl⟩
  · exact Bag.filter_eraseIdx_of_false hget (by simpa using hpath)
  · cases result <;> simp [repliesTo, hid]

theorem Apart.cancelChooser (h : Apart u p x) :
    Apart u p x.cancelChooser ∧ Same u p x x.cancelChooser := by
  unfold Receiver.cancelChooser
  dsimp only
  split
  · exact ⟨⟨h.alive, h.held, h.pool, h.uploads⟩, ⟨rfl, rfl, rfl, rfl, rfl, rfl⟩⟩
  rename_i l _
  refine ⟨⟨h.alive, h.held, h.pool, h.uploads⟩, ⟨rfl, rfl, rfl, rfl, rfl, ?_⟩⟩
  exact completionsOf_append [.fileSelectionCanceled l] rfl (by simp [completes])

theorem Apart.abandon (h : Apart u p x) (hiff : id = u ↔ up.path = p) (code message : Bytes) :
    Apart u p (x.abandonUpload id up code message) := by
  have hers : Apart u p
      { x with uploads := x.uploads.erase id, abandoned := x.abandoned ++ [(up.owner, up.path)] } :=
    h.erase rfl rfl rfl rfl
  have hpst := hers.post (t := ⟨some up.owner, id, up.path, .delete⟩) hiff rfl (by simp)
  exact ⟨hpst.alive, hpst.held, hpst.pool, hpst.uploads⟩

theorem completionsOf_abandon (id : Bytes) (up : Upload) (code message : Bytes) :
    completionsOf u (x.abandonUpload id up code message) = completionsOf u x :=
  completionsOf_append [.error id code message] rfl (by simp [completes])

theorem Apart.commit (h : Apart u p x) (id path : Bytes) (up : Upload) (total : ℤ) :
    Apart u p (x.commit id path up total) := by
  unfold Receiver.commit Receiver.resolveChooserWith
  dsimp only
  split <;> exact h.erase rfl rfl rfl rfl

theorem commit_reports (x : Receiver) (u path : Bytes) (up : Upload) (total : ℤ) :
    ∃ via, completionsOf u (x.commit u path up total) = completionsOf u x ++ [.complete u path via] := by
  unfold commit resolveChooserWith
  dsimp only
  split
  · exact ⟨ascii "none", by simp [completionsOf, say, completes]⟩
  · exact ⟨ascii "fileChooser", by simp [completionsOf, say, completes]⟩

theorem commit_keeps (x : Receiver) (id path : Bytes) (up : Upload) (total : ℤ) :
    (x.commit id path up total).uploads = x.uploads.erase id ∧
      (x.commit id path up total).pool = x.pool ∧
      (x.commit id path up total).replies = x.replies ∧ (x.commit id path up total).fs = x.fs := by
  unfold commit resolveChooserWith
  dsimp only
  split <;> exact ⟨rfl, rfl, rfl, rfl⟩

theorem Same.commit (hid : id ≠ u) (path : Bytes) (up : Upload) (total : ℤ) :
    Same u p x (x.commit id path up total) := by
  have hcmp : ∀ via, (complete id path via).completes u = false := by simp [completes, hid]
  unfold Receiver.commit Receiver.resolveChooserWith
  dsimp only
  split
  · refine ⟨lookup_erase_ne hid.symm, rfl, rfl, rfl, rfl, ?_⟩
    exact completionsOf_append [.complete id path (ascii "none")] rfl (by simp [hcmp])
  rename_i l _
  refine ⟨lookup_erase_ne hid.symm, rfl, rfl, rfl, rfl, ?_⟩
  refine completionsOf_append
    [.fileSelected l path up.displayName x.pendingMode, .complete id path (ascii "fileChooser")]
    (append_assoc _ _ _) ?_
  simp [completes, hid]

theorem Move.apart (h : Move sha256 s e x y) (hcalm : Undisturbed u p s e)
    (hown : ∀ up, startedBy s e = some (u, up) → up.path = p) (hx : Apart u p x) : Apart u p y := by
  cases h with
  | reports | parks | takes => exact ⟨hx.alive, hx.held, hx.pool, hx.uploads⟩
  | unparks => exact hx.cancelChooser.1
  | starts id up hid hup =>
    have hiff : id = u ↔ up.path = p := by
      by_cases heq : id = u
      · exact iff_of_true heq (hown up (heq ▸ hup))
      · exact iff_of_false heq (hcalm.1 (id, up) hup heq)
    have hput := hx.put hiff
    exact ⟨hput.alive, hput.held, hput.pool, hput.uploads⟩
  | abandons _ id up up' code message _ _ _ _ hget => exact hx.abandon (hx.uploads id up hget) code message
  | accepts _ id up bytes _ hget =>
    refine Apart.post (hx.put ?_) (hx.uploads id up hget) rfl (by simp)
    exact hx.uploads id up hget
  | updates _ id up inFlight endPending _ hget => exact hx.put (hx.uploads id up hget)
  | finalises _ id up _ hget => exact hx.post (hx.uploads id up hget) rfl (by simp)
  | commits _ id path sha up => exact hx.commit id path up _
  | runs i n ok => exact hx.runTask sha256 i n ok
  | forgets _ he | dies _ he =>
    subst he
    exact absurd hcalm.2 not_false

theorem Move.same (h : Move sha256 s e x y) (hfor : Foreign u p s e)
    (hcalm : Undisturbed u p s e) (hx : Apart u p x) : Same u p x y := by
  have hid : ∀ id, about s e = some id → id ≠ u := fun id hid heq => hfor.1 (heq ▸ hid)
  have hpath : ∀ id up, about s e = some id → x.uploads.lookup id = some up → up.path ≠ p :=
    fun id up hid' hget hpath => hid id hid' ((hx.uploads id up hget).mpr hpath)
  cases h with
  | reports _ o =>
    refine ⟨rfl, rfl, rfl, rfl, rfl, completionsOf_append [o] rfl ?_⟩
    cases o <;> simp_all [Output.reports, completes]
  | unparks => exact hx.cancelChooser.2
  | parks _ listener =>
    refine ⟨rfl, rfl, rfl, rfl, rfl, completionsOf_append [.parked listener] rfl ?_⟩
    simp [completes]
  | starts id up hid' =>
    have hsame : Same u p s (s.put id up) := .put (hid id hid') up
    exact ⟨hsame.entry, hsame.tasks, hsame.replies, hsame.entries, hsame.file, hsame.completions⟩
  | abandons _ id up up' code message hid' _ _ _ hget =>
    exact ⟨lookup_erase_ne (hid id hid').symm, tasksOn_post (hpath id up hid' hget), rfl, rfl, rfl,
      completionsOf_abandon id up code message⟩
  | accepts _ id up bytes hid' hget =>
    exact (Same.put (hid id hid') _).trans
      ⟨rfl, tasksOn_post (hpath id up hid' hget), rfl, rfl, rfl, rfl⟩
  | updates _ id up inFlight endPending hid' => exact .put (hid id hid') _
  | finalises _ id up hid' hget => exact ⟨rfl, tasksOn_post (hpath id up hid' hget), rfl, rfl, rfl, rfl⟩
  | commits _ id path sha up hrep =>
    obtain ⟨i, rfl, hr⟩ := hrep
    exact .commit (hid id (by simp [about, hr])) path up _
  | takes i r he hr =>
    subst he
    have hne : r.uploadId ≠ u := hid r.uploadId (by simp [about, hr])
    refine ⟨rfl, rfl, ?_, rfl, rfl, rfl⟩
    exact Bag.filter_eraseIdx_of_false hr (by simpa using hne)
  | runs i n ok he => exact hx.same_runTask (hfor.2 i n ok he)
  | forgets _ he | dies _ he =>
    subst he
    exact absurd hcalm.2 not_false

variable (sha256) in
theorem step_apart (hcalm : Undisturbed u p s e)
    (hown : ∀ up, startedBy s e = some (u, up) → up.path = p) (hs : Apart u p s) :
    Apart u p (step sha256 s e) := by
  have hmvs := step_moves sha256 s e
  generalize step sha256 s e = s' at hmvs
  induction hmvs with
  | refl => exact hs
  | tail _ hmove ih => exact hmove.apart hcalm hown ih

variable (sha256) in
theorem step_same (hfor : Foreign u p s e) (hcalm : Undisturbed u p s e)
    (hs : Apart u p s) : Same u p s (step sha256 s e) := by
  have hown : ∀ up, startedBy s e = some (u, up) → up.path = p := by
    intro up hup
    obtain ⟨d, name, sha, declared, rfl, hread, -⟩ := startedBy_eq hup
    exact absurd (by simp [about, hread, Request.uploadId]) hfor.1
  have hmvs := step_moves sha256 s e
  generalize step sha256 s e = s' at hmvs
  have hboth : Apart u p s' ∧ Same u p s s' := by
    induction hmvs with
    | refl => exact ⟨hs, .refl u p s⟩
    | tail _ hmove ih => exact ⟨hmove.apart hcalm hown ih.1, ih.2.trans (hmove.same hfor hcalm ih.1)⟩
  exact hboth.2

end

end Chromeless.Uploads
