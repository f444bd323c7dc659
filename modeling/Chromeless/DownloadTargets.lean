import Chromeless.LibRuns
import Mathlib.Data.List.Nodup

/-! Downloads (`cb_download_manager_delegate.cc`): where they go, and what is told of them. -/
namespace Chromeless.Downloads
open Runs List

variable {π : Type*} [DecidableEq π]

/-- `numbered path n` has ` (n)` before its extension. -/
structure Naming (π : Type*) where
  numbered : π → ℕ → π
  crdownload : π → π

def kMaxUniqueFiles : ℕ := 100

def Naming.candidates (N : Naming π) (path : π) : List π :=
  path :: (range kMaxUniqueFiles).map fun n => N.numbered path (n + 1)

def getUniquePath (N : Naming π) (files : List π) (path : π) : Option π :=
  (N.candidates path).find? fun c => c ∉ files

/-- Each download without a forced path is one target: `generated` on its way to the callback, then `given` until
the download is finished. -/
structure State (π : Type*) where
  files : List π
  generated : List π := []
  given : List π := []

/-- Files come and go by other hands as well, a download with a forced path among them. -/
inductive Event (π : Type*)
  | generateFilename (path : π)
  | onDownloadPathGenerated (target : π)
  | opened (target : π)
  | finished (target : π)
  | appears (path : π)
  | goes (path : π)

def step (N : Naming π) (s : State π) : Event π → State π
  | .generateFilename path => { s with generated := (getUniquePath N s.files path).getD path :: s.generated }
  | .onDownloadPathGenerated target =>
    if target ∉ s.generated then s
    else { s with generated := s.generated.erase target, given := target :: s.given }
  | .opened target => if target ∉ s.given then s else { s with files := N.crdownload target :: s.files }
  | .finished target =>
    if target ∉ s.given then s
    else ⟨target :: s.files.filter (· ≠ N.crdownload target), s.generated, s.given.erase target⟩
  | .appears path => { s with files := path :: s.files }
  | .goes path => { s with files := s.files.filter (· ≠ path) }

/-- A name is looked for while a candidate is free and none is the target of an unfinished download, and no file
comes between the choice of a target and its callback. -/
def clear (N : Naming π) (s : State π) : Event π → Bool
  | .generateFilename path =>
    (N.candidates path).any (· ∉ s.files) && (N.candidates path).all (· ∉ s.generated ++ s.given)
  | .opened target => N.crdownload target ∉ s.generated
  | .appears path => path ∉ s.generated
  | _ => true

structure Inv (s : State π) : Prop where
  nodup : (s.generated ++ s.given).Nodup
  absent : ∀ t ∈ s.generated, t ∉ s.files

theorem inv_step (N : Naming π) (s : State π) (e : Event π) (hclr : clear N s e = true) (h : Inv s) :
    Inv (step N s e) := by
  obtain ⟨hnd, habsent⟩ := h
  cases e with
  | generateFilename path =>
    obtain ⟨hfree, hoths⟩ := Bool.and_eq_true_iff.mp hclr
    obtain ⟨t, ht⟩ : ∃ t, getUniquePath N s.files path = some t := by
      simpa [getUniquePath, ← Option.isSome_iff_exists] using hfree
    have hnew := all_eq_true.mp hoths t (mem_of_find?_eq_some ht)
    have habs := find?_some ht
    simp only [step, ht, Option.getD_some]
    exact ⟨nodup_cons.mpr ⟨of_decide_eq_true hnew, hnd⟩, forall_mem_cons.mpr ⟨of_decide_eq_true habs, habsent⟩⟩
  | onDownloadPathGenerated t =>
    rw [step]
    split
    · exact ⟨hnd, habsent⟩
    next ht =>
      have hperm := perm_middle.trans ((perm_cons_erase (not_not.mp ht)).symm.append_right s.given)
      exact ⟨hperm.nodup_iff.mpr hnd, fun t' ht' => habsent t' (mem_of_mem_erase ht')⟩
  | finished t =>
    rw [step]
    split
    · exact ⟨hnd, habsent⟩
    next ht =>
      refine ⟨hnd.sublist (erase_sublist.append_left _), fun t' ht' => ?_⟩
      have hne : t' ≠ t := (nodup_append.mp hnd).2.2 t' ht' t (not_not.mp ht)
      simp [hne, habsent t' ht']
  | _ => constructor <;> grind [step, clear]

/-- As long as the names are clear, no two unfinished downloads are given one target and none is given the path
of a file. -/
theorem targets_apart (N : Naming π) (files : List π) (es : List (Event π))
    (h : Meets (step N) (fun s e => clear N s e = true) { files } es) :
    (run (step N) { files } es).given.Nodup ∧ ∀ bs t cs, es = bs ++ .onDownloadPathGenerated t :: cs →
      t ∈ (run (step N) { files } bs).generated → t ∉ (run (step N) { files } bs).files := by
  have hinv {es} (h : Meets (step N) (fun s e => clear N s e = true) { files } es) :
      Inv (run (step N) { files } es) :=
    invariant_run_meets (step N) _ Inv (inv_step N) ⟨nodup_nil, nofun⟩ h
  refine ⟨(nodup_append.mp (hinv h).nodup).2.1, ?_⟩
  rintro bs t cs rfl
  exact (hinv ((meets_append ..).mp h).1).absent t

/-- A path is a stem and its number. -/
def stemNaming : Naming (String × ℕ) := ⟨fun path n => (path.1, n), fun path => (path.1 ++ ".crdownload", path.2)⟩

theorem targets_apart_two :
    (run (step stemNaming) { files := [("a", 0)] } [.generateFilename ("a", 0), .generateFilename ("b", 0),
      .onDownloadPathGenerated ("a", 1), .onDownloadPathGenerated ("b", 0)]).given.Nodup :=
  (targets_apart stemNaming _ _ (by decide +kernel)).1

/-- Two downloads of one name, and a name whose candidates are all taken. -/
theorem targets_shared :
    (run (step stemNaming) { files := [] } [.generateFilename ("a", 0), .onDownloadPathGenerated ("a", 0),
      .opened ("a", 0), .generateFilename ("a", 0), .onDownloadPathGenerated ("a", 0)]).given = [("a", 0), ("a", 0)] ∧
    (run (step stemNaming) { files := stemNaming.candidates ("a", 0) } [.generateFilename ("a", 0)]).generated =
      [("a", 0)] := by
  decide +kernel

/-! ### Events -/

inductive Phase
  | started
  | progress
  | complete
deriving DecidableEq

/-- An item tells its updates to its observers only. -/
inductive Notification
  | onDownloadCreated (item : ℕ)
  | onDownloadUpdated (item : ℕ) (done : Bool)
  | onDownloadDestroyed (item : ℕ)

structure Observer where
  observedItems : List ℕ := []
  events : List (ℕ × Phase) := []

def notify (s : Observer) : Notification → Observer
  | .onDownloadCreated i => ⟨s.observedItems.insert i, s.events ++ [(i, .started)]⟩
  | .onDownloadUpdated i done =>
    if i ∈ s.observedItems then { s with events := s.events ++ [(i, if done then .complete else .progress)] } else s
  | .onDownloadDestroyed i => { s with observedItems := s.observedItems.erase i }

def phases (events : List (ℕ × Phase)) (i : ℕ) : List Phase :=
  events.filterMap fun e => if e.1 = i then some e.2 else none

/-- A download is created once, and is not updated any more when it is complete. -/
def Once (s : Observer) : Notification → Prop
  | .onDownloadCreated i => phases s.events i = []
  | .onDownloadUpdated i _ => .complete ∉ phases s.events i
  | .onDownloadDestroyed _ => True

def Shaped (l : List Phase) : Prop := ∃ n, ∃ tail ∈ [[], [.complete]], l = .started :: replicate n .progress ++ tail

theorem phases_concat (events : List (ℕ × Phase)) (i j : ℕ) (p : Phase) :
    phases (events ++ [(i, p)]) j = if i = j then phases events j ++ [p] else phases events j := by
  by_cases h : i = j <;> simp [phases, h]

theorem Shaped.update {l : List Phase} (h : Shaped l) (hopen : .complete ∉ l) (done : Bool) :
    Shaped (l ++ [if done then .complete else .progress]) := by
  obtain ⟨n, tail, htail, rfl⟩ := h
  obtain rfl : tail = [] := by
    rcases mem_pair.mp htail with rfl | rfl
    · rfl
    · simp at hopen
  cases done
  · exact ⟨n + 1, [], by simp, by simp [replicate_succ']⟩
  · exact ⟨n, [.complete], by simp, by simp⟩

def Tracked (s : Observer) : Prop :=
  ∀ i, phases s.events i = [] ∧ i ∉ s.observedItems ∨ Shaped (phases s.events i)

theorem tracked_notify (s : Observer) (a : Notification) (hok : Once s a) (h : Tracked s) : Tracked (notify s a) := by
  intro j
  have hj := h j
  cases a with
  | onDownloadCreated i =>
    simp only [notify, phases_concat]
    by_cases hij : i = j
    · subst hij
      exact .inr ⟨0, [], by simp, by rw [if_pos rfl, hok]; rfl⟩
    · simpa [hij, Ne.symm hij] using hj
  | onDownloadUpdated i done =>
    rw [notify]
    split
    next hi =>
      simp only [phases_concat]
      by_cases hij : i = j
      · subst hij
        rw [if_pos rfl]
        exact .inr ((hj.resolve_left fun hnone => hnone.2 hi).update hok done)
      · simpa only [hij, ↓reduceIte] using hj
    · exact hj
  | onDownloadDestroyed i => exact hj.imp_left fun hnone => ⟨hnone.1, fun hi => hnone.2 (mem_of_mem_erase hi)⟩

/-- The events of a download are one start, its progress, and at most one completion. -/
theorem events_shaped (as : List Notification) (h : Meets notify Once {} as) (i : ℕ) :
    phases (run notify {} as).events i = [] ∨ Shaped (phases (run notify {} as).events i) :=
  (invariant_run_meets notify Once Tracked tracked_notify (fun _ => .inl ⟨rfl, not_mem_nil⟩) h i).imp_left And.left

theorem events_shaped_one :
    let as := [.onDownloadCreated 1, .onDownloadUpdated 1 false, .onDownloadCreated 2, .onDownloadUpdated 1 true,
      .onDownloadDestroyed 1]
    phases (run notify {} as).events 1 = [] ∨ Shaped (phases (run notify {} as).events 1) :=
  events_shaped _ (by simp [Meets, Once, notify, phases]) 1

/-- A download that is created again, and one that is updated after it was done. -/
theorem events_repeated :
    phases (run notify {} [.onDownloadCreated 1, .onDownloadCreated 1]).events 1 = [.started, .started] ∧
      phases (run notify {} [.onDownloadCreated 1, .onDownloadUpdated 1 true, .onDownloadUpdated 1 true]).events 1 =
        [.started, .complete, .complete] := by
  decide

end Chromeless.Downloads
