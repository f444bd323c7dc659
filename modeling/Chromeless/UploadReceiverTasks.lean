import Chromeless.LibBag
import Chromeless.UploadReceiverMoves

/-! What the tasks of the pool do to the files. -/
namespace Chromeless.Uploads
open List hiding Vector
open Json Files Receiver

def Work.handle : Work → Option Handle
  | .writing file _ _ | .reading file _ => some file
  | _ => none

def Work.creates : Work → Bool
  | append _ first => first
  | _ => false

def Result.hashes : Result → Bool
  | hashed _ _ => true
  | _ => false

/-- The file that a task has open was opened under the path that it was posted with. -/
def Task.Holds (fs : Store Bytes UInt8) (t : Task) : Prop :=
  ∀ file ∈ t.work.handle, fs.Opened t.path file

open Store

/-- What a task can do to the files while it goes on for a bit. -/
inductive Advances (fs : Store Bytes UInt8) (t : Task) :
    Store Bytes UInt8 → Progress → Prop
  | ends (result : Option Result) : Advances fs t fs (.ends result)
  | creates (bytes : Bytes) (hwork : t.work = .append bytes true) :
      Advances fs t (fs.create t.path).1 (.goesOn (.writing (fs.create t.path).2 bytes false))
  | opens (work : Work) (i : ℕ) (hentry : fs.entries t.path = some i)
      (hwork : work.handle = some ⟨i, 0⟩) : Advances fs t fs (.goesOn work)
  | writes (file : Handle) (rest part left : Bytes) (atEnd : Bool) (offset : ℕ)
      (hwork : t.work = .writing file rest atEnd) :
      Advances fs t (write 0 fs ⟨file.file, offset⟩ part).1
        (.goesOn (.writing (write 0 fs ⟨file.file, offset⟩ part).2 left atEnd))
  | reads (file : Handle) (contents contents' : Bytes) (offset : ℕ)
      (hwork : t.work = .reading file contents) :
      Advances fs t fs (.goesOn (.reading ⟨file.file, offset⟩ contents'))
  | deletes (hwork : t.work = .delete) : Advances fs t (fs.remove t.path) (.ends none)
  | wipes (hwork : t.work = .wipe) : Advances fs t fs.clear (.ends none)

section
variable {sha256 : Bytes → Vector UInt8 32} {fs fs' : Store Bytes UInt8} {t : Task}
  {progress : Progress} {p : Bytes} {file : Handle}

variable (sha256) in
theorem Task.advances (fs : Store Bytes UInt8) (t : Task) (n : ℕ) (ok : Bool) :
    Advances fs t (t.advance sha256 fs n ok).1 (t.advance sha256 fs n ok).2 := by
  fun_cases Task.advance sha256 fs t n ok <;> try exact .ends _
  next heq hwork =>
    have h : Advances fs t _ _ := .creates _ hwork
    rwa [heq] at h
  next i hent => exact .opens _ i hent rfl
  next file rest atEnd hwork _ _ _ _ _ heq =>
    cases atEnd <;> cases heq
    · exact .writes file rest _ _ false file.offset hwork
    · exact .writes file rest _ _ true _ hwork
  next i hent => exact .opens _ i hent rfl
  · exact .reads _ _ _ _ ‹_›
  · dsimp only
    split
    · exact .deletes ‹_›
    · exact .ends none
  · dsimp only
    split
    · exact .wipes ‹_›
    · exact .ends none

theorem Task.advance_goesOn {fs fs' : Store Bytes UInt8} {n : ℕ} {ok : Bool} {work : Work}
    (h : t.advance sha256 fs n ok = (fs', .goesOn work)) :
    work.hashes = t.work.hashes ∧ work.creates = false ∧ work ≠ .wipe ∧ t.work ≠ .wipe := by
  revert h
  fun_cases t.advance sha256 fs n ok <;> rintro ⟨⟩ <;> simp_all [Work.hashes, Work.creates]

theorem Task.advance_ends {fs fs' : Store Bytes UInt8} {n : ℕ} {ok : Bool} {result : Result}
    (h : t.advance sha256 fs n ok = (fs', .ends (some result))) :
    result.hashes = t.work.hashes ∧ t.work ≠ .wipe := by
  revert h
  fun_cases t.advance sha256 fs n ok <;> rintro ⟨⟩ <;> simp_all [Work.hashes, Result.hashes]

section
variable (h : Advances fs t fs' progress)
include h

theorem Advances.frame (hwipe : t.work ≠ .wipe)
    (hheld : t.Holds fs) (hp : p ≠ t.path) : fs'.entries p = fs.entries p ∧ fs'.read p = fs.read p := by
  cases h with
  | ends | opens | reads => exact ⟨rfl, rfl⟩
  | creates => exact ⟨create_entries_of_ne hp, read_create_of_ne hp⟩
  | writes file rest part left atEnd offset hwork =>
    have hopn : fs.Opened t.path file := hheld file (by rw [hwork]; rfl)
    have hne : fs.entries p ≠ some file.file := hopn.entries_ne hp
    exact ⟨rfl, read_write_of_entries_ne hne⟩
  | deletes => exact ⟨remove_entries_of_ne hp, read_remove_of_ne hp⟩
  | wipes hwork => exact absurd hwork hwipe

theorem Advances.opened (hopn : fs.Opened p file) :
    fs'.Opened p file := by
  cases h with
  | ends | opens | reads => exact hopn
  | creates => exact hopn.create t.path
  | writes => exact hopn.write _
  | deletes => exact hopn.remove t.path
  | wipes => exact hopn.clear

theorem Advances.holds (hheld : t.Holds fs) {work : Work}
    (hwork : progress = .goesOn work) : Task.Holds fs' { t with work := work } := by
  intro file hfile
  cases h with
  | ends | deletes | wipes => cases hwork
  | creates =>
    cases hwork
    obtain rfl : (fs.create t.path).2 = file := Option.some.inj hfile
    exact (fs.create_on t.path).opened
  | opens work' i hent hopen =>
    cases hwork
    obtain rfl : Handle.mk i 0 = file := Option.some.inj (hopen.symm.trans hfile)
    exact On.opened hent
  | writes file' rest part left atEnd offset hbef =>
    cases hwork
    obtain rfl : (write 0 fs ⟨file'.file, offset⟩ part).2 = file := Option.some.inj hfile
    have hopn := hheld file' (by rw [hbef]; rfl)
    exact ⟨hopn.used, hopn.only⟩
  | reads file' contents contents' offset hbef =>
    cases hwork
    obtain rfl : Handle.mk file'.file offset = file := Option.some.inj hfile
    have hopn := hheld file' (by rw [hbef]; rfl)
    exact ⟨hopn.used, hopn.only⟩

end

/-! ### The pool -/

def Held (s : Receiver) : Prop := ∀ t ∈ s.pool, t.Holds s.fs

variable {s x y : Receiver} {e : Event} {i n : ℕ} {ok : Bool}

theorem Receiver.runTask_cases (sha256 : Bytes → Vector UInt8 32) (s : Receiver) (i n : ℕ) (ok : Bool) :
    s.runTask sha256 i n ok = s ∨
      ∃ t fs' progress, s.pool[i]? = some t ∧ Advances s.fs t fs' progress ∧
        (t.advance sha256 s.fs n ok) = (fs', progress) ∧
        ((∃ work, progress = .goesOn work ∧
            s.runTask sha256 i n ok = { s with fs := fs', pool := s.pool.set i { t with work := work } }) ∨
          ∃ result, progress = .ends result ∧
            s.runTask sha256 i n ok =
              { s with
                fs := fs', pool := s.pool.eraseIdx i
                replies := s.replies ++ (result.map (Reply.mk t.uploadId t.path)).toList }) := by
  unfold runTask
  cases hget : s.pool[i]? with
  | none => exact .inl rfl
  | some t =>
    have hadvan := t.advances sha256 s.fs n ok
    cases hadv : t.advance sha256 s.fs n ok with
    | mk fs' progress =>
      rw [hadv] at hadvan
      refine .inr ⟨t, fs', progress, rfl, hadvan, hadv, ?_⟩
      dsimp only
      rw [hadv]
      cases progress with
      | goesOn work => exact .inl ⟨work, rfl, rfl⟩
      | ends result => exact .inr ⟨result, rfl, rfl⟩

variable (sha256) in
theorem Receiver.runTask_fs (s : Receiver) {i : ℕ} (hget : s.pool[i]? = some t) (n : ℕ) (ok : Bool) :
    ∃ progress, Advances s.fs t (s.runTask sha256 i n ok).fs progress := by
  have hadv := t.advances sha256 s.fs n ok
  unfold runTask
  rw [hget]
  dsimp only
  split <;> rename_i heq <;> rw [heq] at hadv <;> exact ⟨_, hadv⟩

theorem Receiver.mem_pool_runTask {i n : ℕ} {ok : Bool} (ht : t ∈ (s.runTask sha256 i n ok).pool) :
    ∃ t' ∈ s.pool, t.owner = t'.owner ∧ t.uploadId = t'.uploadId ∧ t.path = t'.path ∧
      t.work.hashes = t'.work.hashes ∧ (t.work.creates = true → t'.work.creates = true) ∧
      (t.work = .wipe ↔ t'.work = .wipe) := by
  obtain heq | ⟨t', fs', progress, hget, -, hadv, hcs⟩ := s.runTask_cases sha256 i n ok
  · rw [heq] at ht
    exact ⟨t, ht, rfl, rfl, rfl, rfl, fun h => h, Iff.rfl⟩
  obtain ⟨work, rfl, heq⟩ | ⟨result, -, heq⟩ := hcs
  · rw [heq] at ht
    obtain ht | rfl := mem_or_eq_of_mem_set ht
    · exact ⟨t, ht, rfl, rfl, rfl, rfl, fun h => h, Iff.rfl⟩
    obtain ⟨hhs, hcre, hwipe, hwipe'⟩ := Task.advance_goesOn hadv
    refine ⟨t', mem_of_getElem? hget, rfl, rfl, rfl, hhs, ?_, iff_of_false hwipe hwipe'⟩
    intro h
    rw [hcre] at h
    cases h
  · rw [heq] at ht
    exact ⟨t, mem_of_mem_eraseIdx ht, rfl, rfl, rfl, rfl, fun h => h, Iff.rfl⟩

theorem Receiver.mem_replies_runTask {i n : ℕ} {ok : Bool} {r : Reply} (hr : r ∈ (s.runTask sha256 i n ok).replies) :
    r ∈ s.replies ∨
      ∃ t ∈ s.pool, t.work ≠ .wipe ∧ r.uploadId = t.uploadId ∧ r.path = t.path ∧ r.result.hashes = t.work.hashes := by
  obtain heq | ⟨t, fs', progress, hget, -, hadv, hcs⟩ := s.runTask_cases sha256 i n ok
  · rw [heq] at hr
    exact .inl hr
  obtain ⟨work, -, heq⟩ | ⟨result, rfl, heq⟩ := hcs
  · rw [heq] at hr
    exact .inl hr
  rw [heq] at hr
  obtain hr | hr := mem_append.mp hr
  · exact .inl hr
  cases result with
  | none => cases hr
  | some =>
    obtain rfl := mem_singleton.mp hr
    obtain ⟨hhs, hwipe⟩ := Task.advance_ends hadv
    exact .inr ⟨t, mem_of_getElem? hget, hwipe, rfl, rfl, hhs⟩

variable (sha256) in
theorem Held.runTask (h : Held s) (i n : ℕ) (ok : Bool) : Held (s.runTask sha256 i n ok) := by
  obtain heq | ⟨t, fs', progress, hget, hadv, -, hcs⟩ := s.runTask_cases sha256 i n ok
  · rwa [heq]
  have hmem : t ∈ s.pool := mem_of_getElem? hget
  have hoths : ∀ t' ∈ s.pool, t'.Holds fs' := fun t' ht' file hfile =>
    hadv.opened (h t' ht' file hfile)
  obtain ⟨work, hwork, heq⟩ | ⟨result, -, heq⟩ := hcs
  · rw [heq]
    intro t' ht'
    obtain ht' | rfl := mem_or_eq_of_mem_set ht'
    · exact hoths t' ht'
    · exact hadv.holds (h t hmem) hwork
  rw [heq]
  intro t' ht'
  exact hoths t' (mem_of_mem_eraseIdx ht')

theorem Held.post (h : Held x) {t : Task} (ht : t.work.handle = none) : Held (x.post t) := by
  intro t' ht'
  obtain ht' | rfl := mem_append.mp ht' |>.imp_right mem_singleton.mp
  · exact h t' ht'
  intro file hfile
  rw [ht] at hfile
  cases hfile

theorem Move.held (h : Move sha256 s e x y) (hx : Held x) : Held y := by
  cases h with
  | reports | parks | starts | updates | takes | dies => exact hx
  | unparks =>
    unfold cancelChooser
    dsimp only
    split <;> exact hx
  | abandons _ => exact Held.post (x := { x with uploads := _, abandoned := _ }) hx rfl
  | accepts _ id => exact Held.post (x := x.put id _) hx rfl
  | finalises => exact hx.post rfl
  | commits =>
    unfold commit resolveChooserWith
    dsimp only
    split <;> exact hx
  | runs i n ok => exact hx.runTask sha256 i n ok
  | forgets => exact Held.post (x := { x with uploads := ∅, sessionBytes := 0, completed := [] }) hx rfl

theorem run_held (fs : Store Bytes UInt8) (es : List Event) : Held (run sha256 { fs := fs } es) :=
  invariant_run_of_moves (fun _ _ => True) Held (fun _ _ _ _ _ hmove => hmove.held)
    (fun _ ht => by cases ht) (Runs.meets_true ..)

end

end Chromeless.Uploads
