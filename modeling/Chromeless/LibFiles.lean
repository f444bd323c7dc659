import Mathlib.Data.List.Basic

/-! Files with names, and handles on them. No file has two names. -/
namespace Chromeless.Files
open Function

variable {κ β : Type*}

/-- `entries` gives the file of a name, `data` what a file holds. Files from `next` on have
never been used. -/
structure Store (κ β : Type*) where
  entries : κ → Option ℕ
  data : ℕ → List β
  next : ℕ
  entries_lt : ∀ p i, entries p = some i → i < next
  entries_inj : ∀ p q i, entries p = some i → entries q = some i → p = q

structure Handle where
  file : ℕ
  offset : ℕ
deriving DecidableEq

namespace Store

def empty : Store κ β where
  entries _ := none
  data _ := []
  next := 0
  entries_lt _ _ h := by cases h
  entries_inj _ _ _ h := by cases h

def read (fs : Store κ β) (p : κ) : Option (List β) := (fs.entries p).map fs.data

def On (fs : Store κ β) (p : κ) (h : Handle) : Prop := fs.entries p = some h.file

variable [DecidableEq κ]

def create (fs : Store κ β) (p : κ) : Store κ β × Handle :=
  match fs.entries p with
  | some i => ({ fs with data := update fs.data i [] }, ⟨i, 0⟩)
  | none =>
    ({ entries := update fs.entries p (some fs.next)
       data := update fs.data fs.next []
       next := fs.next+1
       entries_lt := by
        intro q i hq
        by_cases hqp : q = p
        · subst hqp
          rw [update_self] at hq
          cases hq
          exact Nat.lt_succ_self _
        · rw [update_of_ne hqp] at hq
          exact Nat.lt_succ_of_lt (fs.entries_lt q i hq)
       entries_inj := by
        have hnew : ∀ q i, q ≠ p → update fs.entries p (some fs.next) q = some i → i < fs.next := by
          intro q i hqp hq
          rw [update_of_ne hqp] at hq
          exact fs.entries_lt q i hq
        intro q r i hq hr
        by_cases hqp : q = p
        · by_cases hrp : r = p
          · rw [hqp, hrp]
          rw [hqp, update_self, Option.some.injEq] at hq
          have := hnew r i hrp hr
          omega
        by_cases hrp : r = p
        · rw [hrp, update_self, Option.some.injEq] at hr
          have := hnew q i hqp hq
          omega
        rw [update_of_ne hqp] at hq
        rw [update_of_ne hrp] at hr
        exact fs.entries_inj q r i hq hr }, ⟨fs.next, 0⟩)

def remove (fs : Store κ β) (p : κ) : Store κ β where
  entries := update fs.entries p none
  data := fs.data
  next := fs.next
  entries_lt q i hq := by
    by_cases hqp : q = p
    · simp [hqp] at hq
    · rw [update_of_ne hqp] at hq
      exact fs.entries_lt q i hq
  entries_inj q r i hq hr := by
    by_cases hqp : q = p
    · simp [hqp] at hq
    by_cases hrp : r = p
    · simp [hrp] at hr
    rw [update_of_ne hqp] at hq
    rw [update_of_ne hrp] at hr
    exact fs.entries_inj q r i hq hr

def clear (fs : Store κ β) : Store κ β where
  entries _ := none
  data := fs.data
  next := fs.next
  entries_lt _ _ h := by cases h
  entries_inj _ _ _ h := by cases h

end Store

/-- The contents after a write at an offset. A gap is filled with `zero`. -/
def overwrite (zero : β) (old : List β) (offset : ℕ) (bs : List β) : List β :=
  old.take offset ++ List.replicate (offset - old.length) zero ++ bs ++ old.drop (offset + bs.length)

theorem overwrite_end (zero : β) (old bs : List β) :
    overwrite zero old old.length bs = old ++ bs := by
  simp [overwrite]

namespace Store

def write (zero : β) (fs : Store κ β) (h : Handle) (bs : List β) : Store κ β × Handle :=
  ({ fs with
     data := update fs.data h.file (overwrite zero (fs.data h.file) h.offset bs) },
    ⟨h.file, h.offset + bs.length⟩)

variable {fs : Store κ β} {p q : κ} {h : Handle} {zero : β} {bs content : List β}

theorem On.file_ne (hp : fs.On p h) (hqp : q ≠ p) {i : ℕ} (hq : fs.entries q = some i) :
    i ≠ h.file := by
  rintro rfl
  exact hqp (fs.entries_inj q p _ hq hp)

theorem On.data (hp : fs.On p h) (hread : fs.read p = some content) : fs.data h.file = content := by
  rw [read, show fs.entries p = some h.file from hp] at hread
  exact Option.some.inj hread

section
variable [DecidableEq κ]

theorem create_on (fs : Store κ β) (p : κ) : (fs.create p).1.On p (fs.create p).2 := by
  unfold create On
  cases hp : fs.entries p with
  | some => exact hp
  | none => exact update_self ..

theorem create_offset (fs : Store κ β) (p : κ) : (fs.create p).2.offset = 0 := by
  unfold create
  cases fs.entries p <;> rfl

theorem read_create (fs : Store κ β) (p : κ) : (fs.create p).1.read p = some [] := by
  unfold create read
  cases hp : fs.entries p with
  | some => simp [hp]
  | none => simp

theorem create_entries_of_ne (hqp : q ≠ p) : (fs.create p).1.entries q = fs.entries q := by
  unfold create
  cases fs.entries p with
  | some => rfl
  | none => exact update_of_ne hqp ..

theorem read_create_of_ne (hqp : q ≠ p) : (fs.create p).1.read q = fs.read q := by
  unfold create read
  cases hp : fs.entries p with
  | some i =>
    cases hq : fs.entries q with
    | none => simp
    | some j =>
      have hji : j ≠ i := On.file_ne (h := ⟨i, 0⟩) hp hqp hq
      simp [update_of_ne hji]
  | none =>
    simp only [update_of_ne hqp]
    cases hq : fs.entries q with
    | none => rfl
    | some j =>
      have hlt := fs.entries_lt q j hq
      simp [update_of_ne (show j ≠ fs.next by omega)]

theorem remove_entries_of_ne (hqp : q ≠ p) : (fs.remove p).entries q = fs.entries q :=
  update_of_ne hqp ..

theorem read_remove_of_ne (hqp : q ≠ p) : (fs.remove p).read q = fs.read q := by
  rw [read, remove_entries_of_ne hqp]
  rfl

end

theorem read_write (hp : fs.On p h) (hread : fs.read p = some content)
    (hoff : h.offset = content.length) : (write zero fs h bs).1.read p = some (content ++ bs) := by
  have hent : fs.entries p = some h.file := hp
  simp [read, write, hent, hp.data hread, hoff, overwrite_end]

theorem read_write_of_entries_ne (hq : fs.entries q ≠ some h.file) :
    (write zero fs h bs).1.read q = fs.read q := by
  unfold read write
  cases hent : fs.entries q with
  | none => rfl
  | some j =>
    have hj : j ≠ h.file := fun hj => hq (hj ▸ hent)
    simp [update_of_ne hj]

theorem read_write_of_ne (hp : fs.On p h) (hqp : q ≠ p) :
    (write zero fs h bs).1.read q = fs.read q :=
  read_write_of_entries_ne fun hq => hp.file_ne hqp hq rfl

/-- The name may be gone by now or lead to another file, but no other name leads to this one. -/
structure Opened (fs : Store κ β) (p : κ) (h : Handle) : Prop where
  used : h.file < fs.next
  only : ∀ q, fs.entries q = some h.file → q = p

theorem On.opened (hp : fs.On p h) : fs.Opened p h :=
  ⟨fs.entries_lt p h.file hp, fun q hq => fs.entries_inj q p _ hq hp⟩

section
variable (hp : fs.Opened p h)
include hp

theorem Opened.entries_ne (hqp : q ≠ p) : fs.entries q ≠ some h.file :=
  fun hq => hqp (hp.only q hq)

theorem Opened.write (h' : Handle) : (write zero fs h' bs).1.Opened p h :=
  ⟨hp.used, hp.only⟩

theorem Opened.clear : fs.clear.Opened p h := ⟨hp.used, nofun⟩

theorem Opened.remove [DecidableEq κ] (q : κ) : (fs.remove q).Opened p h := by
  refine ⟨hp.used, fun r hr => ?_⟩
  simp only [Store.remove, update_apply] at hr
  split at hr
  · cases hr
  · exact hp.only r hr

theorem Opened.create [DecidableEq κ] (q : κ) : (fs.create q).1.Opened p h := by
  unfold Store.create
  cases hq : fs.entries q with
  | some => exact ⟨hp.used, hp.only⟩
  | none =>
    have hused := hp.used
    refine ⟨Nat.lt_succ_of_lt hused, fun r hr => ?_⟩
    simp only [update_apply] at hr
    split at hr
    · -- the file is a new one
      have := Option.some.inj hr
      omega
    · exact hp.only r hr

end

end Store

end Chromeless.Files
