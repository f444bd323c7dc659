import Chromeless.UploadReceiverFrame
import Chromeless.UploadEnvelopes

/-! Completed files are left alone, and those that were given up are gone in the end. -/
namespace Chromeless.Uploads
open List hiding Vector
open Json Receiver Files AList
open Vector (replicate)

def Owned (pool : List Task) (owner : ℕ) (p : Bytes) : Prop :=
  ∀ t ∈ pool, t.work ≠ .wipe ∧ (t.path = p → t.work.hashes = false → t.owner = some owner)

def Hashed (s : Receiver) (id p : Bytes) : Prop :=
  (∀ t ∈ s.pool, t.uploadId = id → t.work.hashes = true → t.path = p) ∧
    ∀ r ∈ s.replies, r.uploadId = id → r.result.hashes = true → r.path = p

/-- No task that may change the file is outstanding, no other upload is at it, and it is not one of
the session's files. -/
def Free (s : Receiver) (id p : Bytes) : Prop :=
  (∀ t ∈ s.pool, t.work ≠ .wipe ∧ (t.path = p → t.work.hashes = true)) ∧ Hashed s id p ∧
    (∀ u ∈ s.uploads.entries, u.2.path = p → u.1 = id) ∧ ∀ d ∈ s.completed, d.path ≠ p

instance (s : Receiver) (id p : Bytes) : Decidable (Free s id p) :=
  inferInstanceAs (Decidable (_ ∧ (_ ∧ _) ∧ _ ∧ _))

def Deletes (s : Receiver) : Event → Prop
  | .task i _ ok => ∀ t ∈ s.pool[i]?, t.work = .delete → ok = true
  | _ => True

instance (s : Receiver) : ∀ e, Decidable (Deletes s e)
  | .task _ _ _ => inferInstanceAs (Decidable (∀ _ ∈ _, _))
  | .message _ | .reply _ | .beginChooser _ _ | .cancelChooser | .deadline | .resetForNewSession
  | .destroy => inferInstanceAs (Decidable True)

/-- Uploads are started on free paths, and given up only after their first write has begun. -/
def Separate (s : Receiver) (e : Event) : Prop :=
  (∀ u ∈ startedBy s e, Free s u.1 u.2.path) ∧
    (∀ up ∈ rejected s e, ∀ t ∈ s.pool, t.path = up.path → t.work.creates = false) ∧ Deletes s e

instance (s : Receiver) (e : Event) : Decidable (Separate s e) :=
  inferInstanceAs (Decidable (_ ∧ _ ∧ _))

section
variable {sha256 : Bytes → Vector UInt8 32} {s x y : Receiver} {e : Event} {id : Bytes} {up : Upload} {t : Task}

/-! ### Tasks -/

variable {fs fs' : Store Bytes UInt8} {progress : Progress} {up' : Upload} {id' : Bytes}
  {ts : List Task} {i n : ℕ} {ok : Bool}

variable {p : Bytes}

theorem Advances.read_none (h : Advances fs t fs' progress) (hheld : t.Holds fs)
    (hcre : t.path = p → t.work.creates = false) (hread : fs.read p = none) :
    fs'.read p = none := by
  by_cases hwipe : t.work = .wipe
  · cases h with
    | ends | opens | reads | wipes => first | exact hread | rfl
    | creates _ hwork | writes _ _ _ _ _ _ hwork | deletes hwork =>
      rw [hwipe] at hwork
      cases hwork
  by_cases hp : p = t.path
  · cases h with
    | ends | opens | reads => exact hread
    | creates bytes hwork =>
      have hno := hcre hp.symm
      rw [hwork] at hno
      cases hno
    | writes =>
      -- no name is given to the file that is written
      have hent : fs.entries p = none := Option.map_eq_none_iff.mp hread
      simp [Store.read, Store.write, hent]
    | deletes =>
      rw [hp]
      simp [Store.read, Store.remove]
    | wipes hwork => exact absurd hwork hwipe
  · rw [(h.frame hwipe hheld hp).2, hread]

theorem Advances.fs_of_hashes (h : Advances fs t fs' progress) (hhs : t.work.hashes = true) :
    fs' = fs := by
  cases h with
  | ends | opens | reads => rfl
  | creates _ hwork | writes _ _ _ _ _ _ hwork | deletes hwork | wipes hwork =>
    rw [hwork] at hhs
    cases hhs

theorem Owned.runTask {owner : ℕ} (h : Owned s.pool owner p) (i n : ℕ) (ok : Bool) :
    Owned (s.runTask sha256 i n ok).pool owner p := by
  intro t ht
  obtain ⟨t', ht', hown, -, hpath, hhs, -, hwipe⟩ := mem_pool_runTask ht
  refine ⟨fun hwork => (h t' ht').1 (hwipe.mp hwork), fun hp hno => ?_⟩
  rw [hown]
  exact (h t' ht').2 (hpath ▸ hp) (hhs ▸ hno)

theorem Owned.post {owner : ℕ} (h : Owned x.pool owner p) (hwipe : t.work ≠ .wipe)
    (ht : t.path = p → t.owner = some owner) : Owned (x.post t).pool owner p :=
  forall_mem_append.mpr ⟨h, forall_mem_singleton.mpr ⟨hwipe, fun hp _ => ht hp⟩⟩

theorem Hashed.runTask (h : Hashed s id p) (i n : ℕ) (ok : Bool) :
    Hashed (s.runTask sha256 i n ok) id p := by
  constructor
  · intro t ht hid hhs
    obtain ⟨t', ht', -, huplId, hpath, hsame, -⟩ := mem_pool_runTask ht
    rw [hpath]
    exact h.1 t' ht' (huplId ▸ hid) (hsame ▸ hhs)
  · intro r hr hid hhs
    obtain hr | ⟨t, ht, -, huplId, hpath, hsame⟩ := mem_replies_runTask hr
    · exact h.2 r hr hid hhs
    · rw [hpath]
      exact h.1 t ht (huplId ▸ hid) (hsame ▸ hhs)

theorem Hashed.post (h : Hashed x id p) (ht : t.uploadId = id → t.path = p) :
    Hashed (x.post t) id p := by
  refine ⟨fun t' ht' => ?_, h.2⟩
  obtain ht' | rfl := mem_append.mp ht' |>.imp_right mem_singleton.mp
  · exact h.1 t' ht'
  · exact fun hid _ => ht hid

/-! ### Entries -/

def Places (x y : Receiver) : Prop :=
  ∀ id up, y.uploads.lookup id = some up →
    ∃ up', x.uploads.lookup id = some up' ∧ up.owner = up'.owner ∧ up.path = up'.path

theorem Places.of_eq (h : y.uploads = x.uploads) : Places x y :=
  fun _ up hget => ⟨up, h ▸ hget, rfl, rfl⟩

theorem Places.empty (h : y.uploads = ∅) : Places x y := by
  intro id up hget
  rw [h, lookup_empty] at hget
  cases hget

theorem lookup_put (h : (x.put id up).uploads.lookup id' = some up') :
    (id' = id ∧ up' = up) ∨ (id' ≠ id ∧ x.uploads.lookup id' = some up') := by
  by_cases hid : id' = id
  · rw [hid] at h
    exact .inl ⟨hid, (Option.some.inj ((lookup_insert _).symm.trans h)).symm⟩
  · exact .inr ⟨hid, (lookup_insert_ne hid).symm.trans h⟩

theorem lookup_erased (h : (x.uploads.erase id).lookup id' = some up') :
    id' ≠ id ∧ x.uploads.lookup id' = some up' := by
  by_cases hid : id' = id
  · rw [hid, lookup_erase] at h
    cases h
  · exact ⟨hid, (lookup_erase_ne hid).symm.trans h⟩

theorem Places.put (hget : x.uploads.lookup id = some up) (hown : up'.owner = up.owner)
    (hpath : up'.path = up.path) : Places x (x.put id up') := by
  intro id' up'' hget'
  obtain ⟨rfl, rfl⟩ | ⟨-, hold⟩ := lookup_put hget'
  · exact ⟨up, hget, hown, hpath⟩
  · exact ⟨up'', hold, rfl, rfl⟩

theorem Places.erase (hups : y.uploads = x.uploads.erase id) : Places x y := by
  intro id' up' hget
  rw [hups] at hget
  exact ⟨up', (lookup_erased hget).2, rfl, rfl⟩

/-! ### Completed files -/

structure Isolated (s : Receiver) : Prop where
  held : Held s
  apart : ∀ id up id' up', s.uploads.lookup id = some up → s.uploads.lookup id' = some up' →
    up.path = up'.path → id = id'
  owned : ∀ id up, s.uploads.lookup id = some up → Owned s.pool up.owner up.path
  hashed : ∀ id up, s.uploads.lookup id = some up → Hashed s id up.path
  completed : ∀ d ∈ s.completed, Owned s.pool d.owner d.path ∧ ∀ id up, s.uploads.lookup id = some up → up.path ≠ d.path

theorem Isolated.of_empty (hheld : Held s) (hups : s.uploads = ∅) (hcomp : s.completed = []) :
    Isolated s := by
  have hnone : ∀ id up, s.uploads.lookup id ≠ some up := by
    intro id up hget
    rw [hups, lookup_empty] at hget
    cases hget
  refine ⟨hheld, ?_, ?_, ?_, ?_⟩
  · exact fun id up _ _ hget => absurd hget (hnone id up)
  · exact fun id up hget => absurd hget (hnone id up)
  · exact fun id up hget => absurd hget (hnone id up)
  · intro d hd
    rw [hcomp] at hd
    cases hd

theorem Isolated.congr (h : Isolated x) (hups : Places x y) (hpool : y.pool = x.pool)
    (hreps : y.replies ⊆ x.replies) (hcomp : y.completed = x.completed) (hfs : y.fs = x.fs) : Isolated y := by
  refine ⟨?_, ?_, ?_, ?_, ?_⟩
  · intro t ht
    rw [hfs]
    exact h.held t (hpool ▸ ht)
  · intro id up id' up' hget hget' hpath
    obtain ⟨up₀, hget₀, -, hpath₀⟩ := hups id up hget
    obtain ⟨up₁, hget₁, -, hpath₁⟩ := hups id' up' hget'
    exact h.apart id up₀ id' up₁ hget₀ hget₁ (by rw [← hpath₀, ← hpath₁, hpath])
  · intro id up hget
    obtain ⟨up₀, hget₀, hown₀, hpath₀⟩ := hups id up hget
    rw [hpool, hown₀, hpath₀]
    exact h.owned id up₀ hget₀
  · intro id up hget
    obtain ⟨up₀, hget₀, -, hpath₀⟩ := hups id up hget
    rw [hpath₀]
    refine ⟨fun t ht => (h.hashed id up₀ hget₀).1 t (hpool ▸ ht), fun r hr => ?_⟩
    exact (h.hashed id up₀ hget₀).2 r (hreps hr)
  · intro d hd
    rw [hcomp] at hd
    obtain ⟨hown, hne⟩ := h.completed d hd
    refine ⟨hpool ▸ hown, fun id up hget => ?_⟩
    obtain ⟨up₀, hget₀, -, hpath₀⟩ := hups id up hget
    rw [hpath₀]
    exact hne id up₀ hget₀

theorem Isolated.post (h : Isolated x) (hget : x.uploads.lookup id = some up) {w : Work}
    (hhdl : w.handle = none) (hwipe : w ≠ .wipe) :
    Isolated (x.post ⟨some up.owner, id, up.path, w⟩) := by
  refine ⟨h.held.post hhdl, h.apart, ?_, ?_, ?_⟩
  · intro id' up' hget'
    refine (h.owned id' up' hget').post hwipe fun hpath => ?_
    obtain rfl := h.apart id up id' up' hget hget' hpath
    obtain rfl : up = up' := Option.some.inj (hget.symm.trans hget')
    rfl
  · intro id' up' hget'
    refine (h.hashed id' up' hget').post fun hid => ?_
    obtain rfl : id = id' := hid
    obtain rfl : up = up' := Option.some.inj (hget.symm.trans hget')
    rfl
  · intro d hd
    obtain ⟨hown, hne⟩ := h.completed d hd
    exact ⟨hown.post hwipe fun hpath => absurd hpath (hne id up hget), hne⟩

theorem Isolated.start (h : Isolated s) (hfree : Free s id up.path) {started : List Bytes} :
    Isolated { s.put id up with started := started } := by
  obtain ⟨hpool, hhash, hents, hcomp⟩ := hfree
  have hoths : ∀ id' up', s.uploads.lookup id' = some up' → up'.path = up.path → id' = id :=
    fun id' up' hget => hents ⟨id', up'⟩ (mem_lookup_iff.mp hget)
  refine ⟨h.held, ?_, ?_, ?_, ?_⟩
  · intro id₁ up₁ id₂ up₂ hget₁ hget₂ hpath
    obtain ⟨rfl, rfl⟩ | ⟨hid₁, hold₁⟩ := lookup_put hget₁
    · obtain ⟨rfl, rfl⟩ | ⟨hid₂, hold₂⟩ := lookup_put hget₂
      · rfl
      · exact absurd (hoths id₂ up₂ hold₂ hpath.symm) hid₂
    obtain ⟨rfl, rfl⟩ | ⟨-, hold₂⟩ := lookup_put hget₂
    · exact absurd (hoths id₁ up₁ hold₁ hpath) hid₁
    · exact h.apart id₁ up₁ id₂ up₂ hold₁ hold₂ hpath
  · intro id' up' hget
    obtain ⟨rfl, rfl⟩ | ⟨-, hget⟩ := lookup_put hget
    · intro t ht
      refine ⟨(hpool t ht).1, fun hpath hno => ?_⟩
      rw [(hpool t ht).2 hpath] at hno
      cases hno
    · exact h.owned id' up' hget
  · intro id' up' hget
    obtain ⟨rfl, rfl⟩ | ⟨-, hget⟩ := lookup_put hget
    · exact hhash
    · exact h.hashed id' up' hget
  · intro d hd
    obtain ⟨hown, hne⟩ := h.completed d hd
    refine ⟨hown, fun id' up' hget => ?_⟩
    obtain ⟨rfl, rfl⟩ | ⟨-, hget⟩ := lookup_put hget
    · exact (hcomp d hd).symm
    · exact hne id' up' hget

theorem Isolated.commit (h : Isolated x) (hget : x.uploads.lookup id = some up) (total : ℤ) :
    Isolated (x.commit id up.path up total) := by
  have hers : Isolated { x with uploads := x.uploads.erase id } :=
    h.congr (.erase rfl) rfl (List.Subset.refl _) rfl rfl
  have hgone : ∀ id' up', (x.uploads.erase id).lookup id' = some up' → up'.path ≠ up.path := by
    intro id' up' hget' hpath
    obtain ⟨hid, hold⟩ := lookup_erased hget'
    exact hid (h.apart id' up' id up hold hget hpath)
  have hcomp : ∀ d ∈ x.completed ++ [Completed.mk up.owner up.path total],
      Owned x.pool d.owner d.path ∧ ∀ id' up', (x.uploads.erase id).lookup id' = some up' → up'.path ≠ d.path :=
    forall_mem_append.mpr ⟨hers.completed, forall_mem_singleton.mpr ⟨h.owned id up hget, hgone⟩⟩
  unfold Receiver.commit Receiver.resolveChooserWith
  dsimp only
  split <;> exact ⟨h.held, hers.apart, hers.owned, hers.hashed, hcomp⟩

theorem Isolated.runTask (h : Isolated s) (i n : ℕ) (ok : Bool) :
    Isolated (s.runTask sha256 i n ok) := by
  have hheld := h.held.runTask sha256 i n ok
  have hown : ∀ {owner p}, Owned s.pool owner p → Owned (s.runTask sha256 i n ok).pool owner p :=
    fun h => h.runTask i n ok
  have hhash : ∀ {id p}, Hashed s id p → Hashed (s.runTask sha256 i n ok) id p := fun h => h.runTask i n ok
  obtain ⟨fs, pool, replies, heq⟩ := s.runTask_keeps sha256 i n ok
  rw [heq] at hheld hown hhash ⊢
  exact ⟨hheld, h.apart, fun id up hget => hown (h.owned id up hget),
    fun id up hget => hhash (h.hashed id up hget),
    fun d hd => ⟨hown (h.completed d hd).1, (h.completed d hd).2⟩⟩

theorem Isolated.cancelChooser (h : Isolated x) : Isolated x.cancelChooser := by
  unfold Receiver.cancelChooser
  dsimp only
  split <;> exact ⟨h.held, h.apart, h.owned, h.hashed, h.completed⟩

theorem Move.isolated (hmove : Move sha256 s e x y) (hsep : Separate s e) (hs : Isolated s)
    (hx : Isolated x) : Isolated y := by
  cases hmove with
  | reports | parks | dies => exact ⟨hx.held, hx.apart, hx.owned, hx.hashed, hx.completed⟩
  | unparks => exact hx.cancelChooser
  | starts id up _ hup => exact hx.start (hsep.1 (id, up) hup)
  | abandons _ id up up' code message _ _ _ _ hget =>
    have hpst := hx.post hget (w := .delete) rfl nofun
    exact hpst.congr (.erase rfl) rfl (List.Subset.refl _) rfl rfl
  | accepts _ id up bytes _ hget =>
    have hput : Isolated (x.put id { up with
        nextSeq := up.nextSeq+1, received := up.received + bytes.length
        writesInFlight := up.writesInFlight+1 }) :=
      hx.congr (.put hget rfl rfl) rfl (List.Subset.refl _) rfl rfl
    exact hput.post (lookup_insert _) rfl nofun
  | updates _ id up inFlight endPending _ hget => exact hx.congr (.put hget rfl rfl) rfl (List.Subset.refl _) rfl rfl
  | finalises _ id up _ hget => exact hx.post hget rfl nofun
  | commits _ id path sha up hrep hget hups =>
    -- the path comes with the reply, and it is the one of the entry
    obtain ⟨i, -, hr⟩ := hrep
    have hpath := (hs.hashed id up (hups ▸ hget)).2 _ (mem_of_getElem? hr) rfl rfl
    obtain rfl : path = up.path := hpath
    exact hx.commit hget _
  | takes =>
    refine hx.congr (.of_eq rfl) rfl ?_ rfl rfl
    exact eraseIdx_subset
  | runs i n ok => exact hx.runTask i n ok
  | forgets =>
    have hheld : Held { x with uploads := ∅, sessionBytes := 0, completed := [] } := hx.held
    exact .of_empty (hheld.post rfl) rfl rfl

/-! ### Files that were given up -/

def Reused (s : Receiver) (owner : ℕ) (p : Bytes) : Prop := ∃ later > owner, s.started[later]? = some p

structure Leaves (s : Receiver) (owner : ℕ) (p : Bytes) : Prop where
  creates : ∀ t ∈ s.pool, t.path = p → t.work.creates = false
  uploads : ∀ id up, s.uploads.lookup id = some up → up.path ≠ p
  gone : s.fs.read p = none ∨ ∃ t ∈ s.pool, t.owner = some owner ∧ t.path = p ∧ t.work = .delete

structure GivenUp (s : Receiver) : Prop where
  started : ∀ id up, s.uploads.lookup id = some up → s.started[up.owner]? = some up.path
  abandoned : ∀ a ∈ s.abandoned, s.started[a.1]? = some a.2 ∧ (Reused s a.1 a.2 ∨ Leaves s a.1 a.2)

variable {owner : ℕ} {p : Bytes}

theorem Leaves.congr (h : Leaves x owner p) (hups : Places x y) (hpool : y.pool = x.pool ++ ts)
    (hts : ∀ t ∈ ts, t.work.creates = true → ∃ id up, x.uploads.lookup id = some up ∧ t.path = up.path)
    (hfs : y.fs = x.fs) : Leaves y owner p := by
  refine ⟨?_, ?_, ?_⟩
  · intro t ht hpath
    rw [hpool] at ht
    obtain ht | ht := mem_append.mp ht
    · exact h.creates t ht hpath
    refine Bool.eq_false_iff.mpr fun hcre => ?_
    obtain ⟨id, up, hget, hup⟩ := hts t ht hcre
    exact h.uploads id up hget (hup.symm.trans hpath)
  · intro id up hget
    obtain ⟨up', hget', -, hpath⟩ := hups id up hget
    rw [hpath]
    exact h.uploads id up' hget'
  · rw [hfs, hpool]
    exact h.gone.imp_right fun ⟨t, ht, hdel⟩ => ⟨t, mem_append_left ts ht, hdel⟩

theorem GivenUp.congr (h : GivenUp x) (hups : Places x y) (hpool : y.pool = x.pool ++ ts)
    (hts : ∀ t ∈ ts, t.work.creates = true → ∃ id up, x.uploads.lookup id = some up ∧ t.path = up.path)
    (hfs : y.fs = x.fs) (hstd : y.started = x.started) (haban : y.abandoned = x.abandoned) :
    GivenUp y := by
  refine ⟨fun id up hget => ?_, fun a ha => ?_⟩
  · obtain ⟨up', hget', hown, hpath⟩ := hups id up hget
    rw [hstd, hown, hpath]
    exact h.started id up' hget'
  rw [haban] at ha
  obtain ⟨hfst, hcs⟩ := h.abandoned a ha
  rw [Reused, hstd]
  exact ⟨hfst, hcs.imp_right fun hlvs => hlvs.congr hups hpool hts hfs⟩

theorem GivenUp.start (h : GivenUp s) (hown : up.owner = s.started.length) :
    GivenUp { s.put id up with started := s.started ++ [up.path] } := by
  have hnew : (s.started ++ [up.path])[up.owner]? = some up.path := by rw [hown, getElem?_concat_length]
  have hold : ∀ {i : ℕ} {q}, s.started[i]? = some q → (s.started ++ [up.path])[i]? = some q := by
    intro i q hget
    have hlt := (List.getElem?_eq_some_iff.mp hget).1
    rw [getElem?_append_left hlt, hget]
  refine ⟨fun id' up' hget => ?_, fun a ha => ?_⟩
  · obtain ⟨-, rfl⟩ | ⟨-, hget'⟩ := lookup_put hget
    · exact hnew
    · exact hold (h.started id' up' hget')
  obtain ⟨hfst, hcs⟩ := h.abandoned a ha
  have hlt := (List.getElem?_eq_some_iff.mp hfst).1
  refine ⟨hold hfst, ?_⟩
  obtain ⟨later, hlat, hget⟩ | hlvs := hcs
  · exact .inl ⟨later, hlat, hold hget⟩
  by_cases hpath : up.path = a.2
  · -- the new upload is the later one
    exact .inl ⟨up.owner, by omega, hpath ▸ hnew⟩
  refine .inr ⟨hlvs.creates, fun id' up' hget => ?_, hlvs.gone⟩
  obtain ⟨-, rfl⟩ | ⟨-, hget'⟩ := lookup_put hget
  · exact hpath
  · exact hlvs.uploads id' up' hget'

theorem GivenUp.abandon (h : GivenUp x) (hx : Isolated x) (hget : x.uploads.lookup id = some up)
    (hbegun : ∀ t ∈ x.pool, t.path = up.path → t.work.creates = false) (code message : Bytes) :
    GivenUp (x.abandonUpload id up code message) := by
  have hplac : Places x (x.abandonUpload id up code message) := .erase rfl
  have hlvs : Leaves (x.abandonUpload id up code message) up.owner up.path := by
    refine ⟨?_, ?_, .inr ⟨⟨some up.owner, id, up.path, .delete⟩, ?_, rfl, rfl, rfl⟩⟩
    · exact forall_mem_append.mpr ⟨hbegun, forall_mem_singleton.mpr fun _ => rfl⟩
    · intro id' up' hget' hpath
      obtain ⟨hid, hold⟩ := lookup_erased hget'
      exact hid (hx.apart id' up' id up hold hget hpath)
    · exact mem_append_right _ (mem_singleton.mpr rfl)
  refine ⟨fun id' up' hget' => ?_, fun a ha => ?_⟩
  · obtain ⟨-, hold⟩ := lookup_erased hget'
    exact h.started id' up' hold
  obtain ha | rfl := mem_append.mp ha |>.imp_right mem_singleton.mp
  · obtain ⟨hfst, hcs⟩ := h.abandoned a ha
    refine ⟨hfst, hcs.imp_right fun hlvs => hlvs.congr hplac rfl ?_ rfl⟩
    intro t ht hcre
    obtain rfl := mem_singleton.mp ht
    cases hcre
  · exact ⟨h.started id up hget, .inr hlvs⟩

theorem Receiver.read_runTask_delete (hget : s.pool[i]? = some t) (hwork : t.work = .delete) (n : ℕ) :
    (s.runTask sha256 i n true).fs.read t.path = none := by
  simp [runTask, hget, Task.advance, hwork, Store.read, Store.remove]

theorem Leaves.runTask (h : Leaves s owner p) (hheld : Held s) (hdelet : Deletes s (.task i n ok)) :
    Leaves (s.runTask sha256 i n ok) owner p := by
  have hcre : ∀ t ∈ (s.runTask sha256 i n ok).pool, t.path = p → t.work.creates = false := by
    intro t ht hp
    obtain ⟨t', ht', -, -, hpath, -, hcre, -⟩ := mem_pool_runTask ht
    have hno := h.creates t' ht' (hpath ▸ hp)
    exact Bool.eq_false_iff.mpr fun hyes => Bool.eq_false_iff.mp hno (hcre hyes)
  have hgone : (s.runTask sha256 i n ok).fs.read p = none ∨
      ∃ t ∈ (s.runTask sha256 i n ok).pool, t.owner = some owner ∧ t.path = p ∧ t.work = .delete := by
    obtain heq | ⟨t, fs', progress, hget, -, -, hcs⟩ := s.runTask_cases sha256 i n ok
    · rw [heq]
      exact h.gone
    have hmem : t ∈ s.pool := mem_of_getElem? hget
    obtain hread | ⟨d, hd, hdel⟩ := h.gone
    · obtain ⟨_, hadv⟩ := s.runTask_fs sha256 hget n ok
      exact .inl (hadv.read_none (hheld t hmem) (h.creates t hmem) hread)
    by_cases hdt : d = t
    · -- it is the delete itself that is run
      subst hdt
      obtain rfl := hdelet d hget hdel.2.2
      rw [← hdel.2.1]
      exact .inl (read_runTask_delete hget hdel.2.2 n)
    refine .inr ⟨d, ?_, hdel⟩
    obtain ⟨work, -, heq⟩ | ⟨result, -, heq⟩ := hcs
    · rw [heq]
      exact Bag.mem_set_of_ne hget hd hdt _
    · rw [heq]
      exact Bag.mem_eraseIdx_of_ne hget hd hdt
  obtain ⟨fs, pool, replies, heq⟩ := s.runTask_keeps sha256 i n ok
  rw [heq] at hcre hgone ⊢
  exact ⟨hcre, h.uploads, hgone⟩

theorem GivenUp.runTask (h : GivenUp s) (hheld : Held s) (hdel : Deletes s (.task i n ok)) :
    GivenUp (s.runTask sha256 i n ok) := by
  have hlvs : ∀ {owner p}, Leaves s owner p → Leaves (s.runTask sha256 i n ok) owner p :=
    fun h => h.runTask hheld hdel
  obtain ⟨fs, pool, replies, heq⟩ := s.runTask_keeps sha256 i n ok
  rw [heq] at hlvs ⊢
  exact ⟨h.started, fun a ha => ⟨(h.abandoned a ha).1, (h.abandoned a ha).2.imp_right hlvs⟩⟩

theorem GivenUp.keep (h : GivenUp x) (hups : Places x y) (hpool : y.pool = x.pool)
    (hfs : y.fs = x.fs) (hstd : y.started = x.started) (haban : y.abandoned = x.abandoned) :
    GivenUp y :=
  h.congr hups (hpool.trans (append_nil _).symm) nofun hfs hstd haban

theorem Move.givenUp (hmove : Move sha256 s e x y) (hsep : Separate s e) (hx : Isolated x)
    (h : GivenUp x) : GivenUp y := by
  cases hmove with
  | reports | parks | dies | takes => exact h.keep (.of_eq rfl) rfl rfl rfl rfl
  | unparks =>
    unfold cancelChooser
    dsimp only
    split <;> exact h.keep (.of_eq rfl) rfl rfl rfl rfl
  | starts id up _ hup =>
    obtain ⟨d, name, sha, declared, -, -, -, -, rfl⟩ := startedBy_eq hup
    exact h.start rfl
  | abandons _ id up up' code message _ hrej hpath hpool hget =>
    refine h.abandon hx hget ?_ code message
    rw [hpool, hpath]
    exact hsep.2.1 up' hrej
  | accepts _ id up bytes _ hget =>
    refine h.congr (.put hget rfl rfl) rfl ?_ rfl rfl rfl
    intro t ht _
    obtain rfl := mem_singleton.mp ht
    exact ⟨id, up, hget, rfl⟩
  | updates _ id up inFlight endPending _ hget => exact h.keep (.put hget rfl rfl) rfl rfl rfl rfl
  | finalises _ id up _ hget =>
    refine h.congr (.of_eq rfl) rfl ?_ rfl rfl rfl
    intro t ht _
    obtain rfl := mem_singleton.mp ht
    exact ⟨id, up, hget, rfl⟩
  | commits =>
    unfold commit resolveChooserWith
    dsimp only
    split <;> exact h.keep (.erase rfl) rfl rfl rfl rfl
  | runs i n ok he =>
    subst he
    exact h.runTask hx.held hsep.2.2
  | forgets =>
    refine h.congr (.empty rfl) rfl ?_ rfl rfl rfl
    intro t ht hcre
    obtain rfl := mem_singleton.mp ht
    cases hcre

/-! ### Runs -/

theorem Isolated.leftAlone (h : Isolated s) {d : Completed} (hd : d ∈ s.completed)
    (hget : s.pool[i]? = some t) (hown : t.owner ≠ some d.owner) (n : ℕ) (ok : Bool) :
    (s.runTask sha256 i n ok).fs.read d.path = s.fs.read d.path := by
  have hmem : t ∈ s.pool := mem_of_getElem? hget
  obtain ⟨hwipe, howned⟩ := (h.completed d hd).1 t hmem
  obtain ⟨progress, hadv⟩ := s.runTask_fs sha256 hget n ok
  by_cases hpath : t.path = d.path
  · have hhs : t.work.hashes = true := by
      refine Bool.not_eq_false _ |>.mp fun hno => ?_
      exact hown (howned hpath hno)
    rw [hadv.fs_of_hashes hhs]
  · exact (hadv.frame hwipe (h.held t hmem) (Ne.symm hpath)).2

variable (sha256) in
theorem step_isolated (hsep : Separate s e) (hs : Isolated s ∧ GivenUp s) :
    Isolated (step sha256 s e) ∧ GivenUp (step sha256 s e) := by
  have hmvs := step_moves sha256 s e
  generalize step sha256 s e = s' at hmvs
  induction hmvs with
  | refl => exact hs
  | tail _ hmove ih => exact ⟨hmove.isolated hsep hs.1 ih.1, hmove.givenUp hsep ih.1 ih.2⟩

variable (sha256) in
theorem run_isolated (fs : Store Bytes UInt8) {es : List Event}
    (hes : Runs.Meets (step sha256) Separate { fs := fs } es) :
    Isolated (run sha256 { fs := fs } es) ∧ GivenUp (run sha256 { fs := fs } es) := by
  have hnew : Isolated { fs := fs } ∧ GivenUp { fs := fs } := ⟨.of_empty nofun rfl rfl, ⟨nofun, nofun⟩⟩
  exact Runs.invariant_run_meets (step sha256) Separate (fun s => Isolated s ∧ GivenUp s)
    (fun s e hsep hs => step_isolated sha256 hsep hs) hnew hes

/-- In every run of separate uploads, a completed file is left as it is, and an upload that was
rejected or cancelled has no file, unless one was started later at its path, or a delete is
outstanding that removes it. -/
theorem completed_kept_rejected_gone (fs : Store Bytes UInt8) (es : List Event)
    (hes : Runs.Meets (step sha256) Separate { fs := fs } es) :
    (∀ d ∈ (run sha256 { fs := fs } es).completed,
      ∀ i t, (run sha256 { fs := fs } es).pool[i]? = some t → t.owner ≠ some d.owner → ∀ n ok,
        ((run sha256 { fs := fs } es).runTask sha256 i n ok).fs.read d.path =
          (run sha256 { fs := fs } es).fs.read d.path) ∧
    ∀ a ∈ (run sha256 { fs := fs } es).abandoned,
      Reused (run sha256 { fs := fs } es) a.1 a.2 ∨ (run sha256 { fs := fs } es).fs.read a.2 = none ∨
        ∃ i t, (run sha256 { fs := fs } es).pool[i]? = some t ∧ t.owner = some a.1 ∧
          t.work = .delete ∧
          ∀ n, ((run sha256 { fs := fs } es).runTask sha256 i n true).fs.read a.2 = none := by
  obtain ⟨hisolated, hgivenUp⟩ := run_isolated sha256 fs hes
  refine ⟨fun d hd i t hget howner n ok => hisolated.leftAlone hd hget howner n ok, fun a ha => ?_⟩
  obtain hreused | hleaves := (hgivenUp.abandoned a ha).2
  · exact .inl hreused
  obtain hread | ⟨t, ht, howner, hpath, hwork⟩ := hleaves.gone
  · exact .inr (.inl hread)
  obtain ⟨i, hget⟩ := mem_iff_getElem?.mp ht
  refine .inr (.inr ⟨i, t, hget, howner, hwork, fun n => ?_⟩)
  rw [← hpath]
  exact read_runTask_delete hget hwork n

end

open Envelope

def oneByte (id : Bytes) : List Event :=
  [.message (start id (ascii "f") [] 1 [] none).object,
    .message (chunk id 0 (Base64.encode Base64.standard [1])).object]

/-- The `i`-th task of the pool opens its file, goes through one byte and ends, and its reply is
run. -/
def runWhole (i : ℕ) : List Event := [.task i 0 true, .task i 0 true, .task i 0 true, .reply 0]

def finishOf (id : Bytes) : Event := .message (finish id).object

def cancelOf (id : Bytes) : Event := .message (cancel id).object

/-- The upload `a` is completed, and `b` is cancelled while it is being written. -/
def apartRun : List Event :=
  oneByte (ascii "a") ++ runWhole 0 ++ [finishOf (ascii "a")] ++ runWhole 0 ++
    oneByte (ascii "b") ++ [.task 0 0 true, cancelOf (ascii "b")]

theorem completed_kept_two_uploads :
    (Runs.Meets (step fun _ => replicate 32 0) Separate { fs := .empty } apartRun ∧
      (run (fun _ => replicate 32 0) { fs := .empty } apartRun).completed = [⟨0, ascii "a__f", 1⟩] ∧
      (run (fun _ => replicate 32 0) { fs := .empty } apartRun).pool.map Task.owner = [some 1, some 1]) ∧
    ∀ i n ok, i < 2 →
      ((run (fun _ => replicate 32 0) { fs := .empty } apartRun).runTask
        (fun _ => replicate 32 0) i n ok).fs.read (ascii "a__f") =
        (run (fun _ => replicate 32 0) { fs := .empty } apartRun).fs.read (ascii "a__f") := by
  have hes : Runs.Meets (step fun _ => replicate 32 0) Separate { fs := .empty } apartRun := by decide +kernel
  have hcompleted : (run (fun _ => replicate 32 0) { fs := .empty } apartRun).completed =
      [⟨0, ascii "a__f", 1⟩] := by decide +kernel
  have howners : (run (fun _ => replicate 32 0) { fs := .empty } apartRun).pool.map Task.owner =
      [some 1, some 1] := by decide +kernel
  refine ⟨⟨hes, hcompleted, howners⟩, fun i n ok hi => ?_⟩
  have hkept := (completed_kept_rejected_gone .empty apartRun hes).1 ⟨0, ascii "a__f", 1⟩
    (by rw [hcompleted]; exact mem_singleton.mpr rfl) i
  generalize run (fun _ => replicate 32 0) { fs := .empty } apartRun = s at hkept howners ⊢
  have hget : (s.pool.map Task.owner)[i]? = some (some 1) := by
    rw [howners]
    interval_cases i <;> rfl
  rw [getElem?_map, Option.map_eq_some_iff] at hget
  obtain ⟨t, ht, howner⟩ := hget
  exact hkept t ht (by rw [howner]; decide) n ok

/-- The upload `a` is cancelled after its write, sent again and completed. -/
def retryRun : List Event :=
  oneByte (ascii "a") ++ runWhole 0 ++ [cancelOf (ascii "a")] ++
    oneByte (ascii "a") ++ runWhole 1 ++ [finishOf (ascii "a")] ++ runWhole 1

/-- The upload `a` is cancelled before its write, and the delete is run first. -/
def earlyCancelRun : List Event :=
  oneByte (ascii "a") ++ [cancelOf (ascii "a"), .task 1 0 true] ++ runWhole 0

theorem late_delete_and_late_write :
    ((run (fun _ => replicate 32 0) { fs := .empty } retryRun).completed =
        [⟨1, ascii "a__f", 1⟩] ∧
      (run (fun _ => replicate 32 0) { fs := .empty } retryRun).pool = [⟨some 0, ascii "a", ascii "a__f", .delete⟩] ∧
      (run (fun _ => replicate 32 0) { fs := .empty } retryRun).fs.read (ascii "a__f") = some [1] ∧
      ((run (fun _ => replicate 32 0) { fs := .empty } retryRun).runTask
        (fun _ => replicate 32 0) 0 0 true).fs.read (ascii "a__f") = none) ∧
    (run (fun _ => replicate 32 0) { fs := .empty } earlyCancelRun).abandoned =
        [(0, ascii "a__f")] ∧
      (run (fun _ => replicate 32 0) { fs := .empty } earlyCancelRun).started = [ascii "a__f"] ∧
      (run (fun _ => replicate 32 0) { fs := .empty } earlyCancelRun).pool = [] ∧
      (run (fun _ => replicate 32 0) { fs := .empty } earlyCancelRun).fs.read (ascii "a__f") = some [1] := by
  decide +kernel

end Chromeless.Uploads
