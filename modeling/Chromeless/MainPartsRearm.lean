import Chromeless.LibFence
import Chromeless.LibHistory
import Chromeless.MainPartsCalls

/-! One re-arm for each session. The flag of `RearmOrShutdown` is a fence in the queue. -/
namespace Chromeless.MainParts
open Capture Fence History List

def Mark.attempts (gen : ℕ) : Mark → Bool
  | .attempt g _ => g = gen
  | _ => false

def Task.rearms : Task → Bool
  | .rearmOrShutdown _ _ => true
  | _ => false

namespace Worker

def attempts (w : Worker) (gen : ℕ) : ℕ := w.marks.countP (Mark.attempts gen)

def Ended (w : Worker) (gen : ℕ) : Prop := ∃ e, e.counts = true ∧ .raised gen e ∈ w.marks

structure Sound (w : Worker) : Prop where
  once : ∀ gen, w.attempts gen ≤ 1
  caused : ∀ gen own, .attempt gen own ∈ w.marks → own = false ∧
    ∃ e, e.counts = true ∧ Precedes (.raised gen e) (.attempt gen own) w.marks
  exits : ∀ gen own, .exit gen own ∈ w.marks → own = false ∧ Precedes (.attempt gen false) (.exit gen own) w.marks
  known : ∀ gen, (∃ e, .raised gen e ∈ w.marks) ∨ 0 < w.attempts gen → gen ≤ w.driver.arm
  past : ∀ gen < w.driver.arm, w.attempts gen = 1

structure Open (w : Worker) (ahead behind : List Task) : Prop where
  fenced : Fenced .clearRearming w.rearming w.queue ahead behind
  spent : ∀ t ∈ ahead, t.Spent w.iceFailedTeardownTimer
  dated : ∀ t ∈ w.queue, t.Dated w.iceFailedTeardownTimer
  untried : w.attempts w.driver.arm = 0
  cause : ∀ bye own, .rearmOrShutdown bye own ∈ behind → own = false ∧ w.Ended w.driver.arm
  owed : w.Ended w.driver.arm → ∃ bye own, .rearmOrShutdown bye own ∈ behind
  live : Live w
  started : w.nativeSessionStarted = true
  looping : w.looping = true
  parked : w.quitMainMessageLoop = true

def Inv (w : Worker) : Prop :=
  Sound w ∧ (w.tearingDown = false → ∃ ahead behind, Open w ahead behind)

section
variable {l : Webrtc} {w v : Worker} {ts : List Task} {ms : List Mark} {ahead behind : List Task}

theorem attempts_raises (hmks : v.marks = w.marks ++ ms) {arm : ℕ}
    (hms : ∀ m ∈ ms, ∃ e, m = .raised arm e) (gen : ℕ) : v.attempts gen = w.attempts gen := by
  have hnone : ms.countP (Mark.attempts gen) = 0 := by
    apply countP_eq_zero.mpr
    intro m hm
    obtain ⟨e, rfl⟩ := hms m hm
    simp [Mark.attempts]
  rw [attempts, hmks, countP_append, hnone]
  rfl

theorem Sound.append (h : Sound w) (hmks : v.marks = w.marks ++ ms) (harm : v.driver.arm = w.driver.arm)
    (hrais : ∀ gen e, .raised gen e ∈ ms → gen = w.driver.arm) (hatt : ∀ gen own, .attempt gen own ∈ ms →
      gen = w.driver.arm ∧ own = false ∧ v.attempts gen ≤ 1 ∧ w.Ended gen)
    (hexit : ∀ gen own, .exit gen own ∈ ms → own = false ∧ .attempt gen false ∈ w.marks) :
    Sound v := by
  have hattem : ∀ gen, v.attempts gen = w.attempts gen + ms.countP (Mark.attempts gen) := by
    intro gen
    rw [attempts, hmks, countP_append]
    rfl
  -- a session without an attempt among the new marks has as many as before
  have hnew : ∀ gen, v.attempts gen = w.attempts gen ∨ ∃ own, .attempt gen own ∈ ms := by
    intro gen
    by_cases hnone : ms.countP (Mark.attempts gen) = 0
    · exact .inl (by rw [hattem, hnone, Nat.add_zero])
    obtain ⟨m, hm, hgen⟩ := countP_pos_iff.mp (Nat.pos_of_ne_zero hnone)
    cases m with
    | attempt g own =>
      obtain rfl : g = gen := by simpa [Mark.attempts] using hgen
      exact .inr ⟨own, hm⟩
    | _ => cases hgen
  have hold : ∀ m m', Precedes m m' w.marks → Precedes m m' v.marks := by
    intro m m' hp
    rw [hmks]
    exact hp.trans (sublist_append_left _ _)
  have hcross : ∀ m m', m ∈ w.marks → m' ∈ ms → Precedes m m' v.marks := by
    intro m m' hm hm'
    rw [hmks]
    exact precedes_append hm hm'
  have hsp : ∀ m, m ∈ v.marks → m ∈ w.marks ∨ m ∈ ms := by
    intro m hm
    rw [hmks] at hm
    exact mem_append.mp hm
  refine ⟨?_, ?_, ?_, ?_, ?_⟩
  · intro gen
    obtain hsame | ⟨own, hmem⟩ := hnew gen
    · rw [hsame]
      exact h.once gen
    · exact (hatt gen own hmem).2.2.1
  · intro gen own hmem
    obtain hmem | hmem := hsp _ hmem
    · obtain ⟨hown, e, he, hp⟩ := h.caused gen own hmem
      exact ⟨hown, e, he, hold _ _ hp⟩
    · obtain ⟨-, hown, -, e, he, hrais⟩ := hatt gen own hmem
      exact ⟨hown, e, he, hcross _ _ hrais hmem⟩
  · intro gen own hmem
    obtain hmem | hmem := hsp _ hmem
    · obtain ⟨hown, hp⟩ := h.exits gen own hmem
      exact ⟨hown, hold _ _ hp⟩
    · obtain ⟨hown, htried⟩ := hexit gen own hmem
      exact ⟨hown, hcross _ _ htried hmem⟩
  · intro gen hgen
    rw [harm]
    obtain ⟨e, hmem⟩ | hpos := hgen
    · obtain hmem | hmem := hsp _ hmem
      · exact h.known gen (.inl ⟨e, hmem⟩)
      · exact Nat.le_of_eq (hrais gen e hmem)
    obtain hsame | ⟨own, hmem⟩ := hnew gen
    · rw [hsame] at hpos
      exact h.known gen (.inr hpos)
    · exact Nat.le_of_eq (hatt gen own hmem).1
  · intro gen hgen
    rw [harm] at hgen
    obtain hsame | ⟨own, hmem⟩ := hnew gen
    · rw [hsame]
      exact h.past gen hgen
    · exact absurd (hatt gen own hmem).1 (Nat.ne_of_lt hgen)

theorem Sound.raises (h : Sound w) (hmks : v.marks = w.marks ++ ms)
    (hms : ∀ m ∈ ms, ∃ e, m = .raised w.driver.arm e) (harm : v.driver.arm = w.driver.arm) :
    Sound v := by
  refine h.append hmks harm ?_ ?_ ?_
  · intro gen e hmem
    obtain ⟨e', heq⟩ := hms _ hmem
    cases heq
    rfl
  · intro gen own hmem
    obtain ⟨e, heq⟩ := hms _ hmem
    cases heq
  · intro gen own hmem
    obtain ⟨e, heq⟩ := hms _ hmem
    cases heq

theorem Sound.same (h : Sound w) (hmks : v.marks = w.marks) (harm : v.driver.arm = w.driver.arm) :
    Sound v := by
  have hnone : v.marks = w.marks ++ [] := by rw [hmks, append_nil]
  exact h.raises hnone (by simp) harm

section
variable (hg : Goes w v ts ms)
include hg

theorem Goes.sound (h : Sound w) : Sound v :=
  h.raises hg.marks hg.raised hg.arm

theorem Goes.ended {gen : ℕ} (h : w.Ended gen) : v.Ended gen := by
  obtain ⟨e, he, hmem⟩ := h
  exact ⟨e, he, by rw [hg.marks]; exact mem_append_left _ hmem⟩

theorem Goes.clear_not_mem : Task.clearRearming ∉ ts := by
  intro hmem
  obtain ⟨bye, heq⟩ := hg.tasks _ hmem
  cases heq

theorem Goes.open (h : Open w ahead behind) (hup : v.tearingDown = false)
    (hlive : Live v) : Open v ahead (behind ++ ts) := by
  refine ⟨?_, ?_, ?_, ?_, ?_, ?_, hlive, hg.started.trans h.started, hg.looping.trans h.looping,
    (hg.parked hup).trans h.parked⟩
  · rw [hg.rearming, hg.queue]
    exact h.fenced.append hg.clear_not_mem
  · exact fun t ht => (h.spent t ht).mono hg.timer
  · intro t ht
    rw [hg.queue] at ht
    obtain ht | ht := mem_append.mp ht
    · exact (h.dated t ht).mono hg.timer
    · obtain ⟨bye, rfl⟩ := hg.tasks t ht
      trivial
  · rw [hg.arm, attempts_raises hg.marks hg.raised, h.untried]
  · intro bye own hmem
    rw [hg.arm]
    obtain hmem | hmem := mem_append.mp hmem
    · obtain ⟨hown, hend⟩ := h.cause bye own hmem
      exact ⟨hown, hg.ended hend⟩
    obtain ⟨bye', heq⟩ := hg.tasks _ hmem
    obtain ⟨e, he, hrais⟩ := hg.caused (ne_nil_of_mem hmem)
    cases heq
    exact ⟨rfl, e, he, by rw [hg.marks]; exact mem_append_right _ hrais⟩
  · rintro ⟨e, he, hmem⟩
    rw [hg.arm, hg.marks] at hmem
    obtain hmem | hmem := mem_append.mp hmem
    · obtain ⟨bye, own, hbeh⟩ := h.owed ⟨e, he, hmem⟩
      exact ⟨bye, own, mem_append_left _ hbeh⟩
    obtain ⟨t, ht⟩ := exists_mem_of_ne_nil _ (hg.posted hup ⟨e, he, hmem⟩)
    obtain ⟨bye, rfl⟩ := hg.tasks t ht
    exact ⟨bye, false, mem_append_right _ ht⟩

theorem Goes.inv (h : Inv w) (hlive : v.tearingDown = false → Live w → Live v) : Inv v := by
  refine ⟨hg.sound h.1, ?_⟩
  intro hup
  obtain ⟨ahead, behind, hopen⟩ := h.2 (hg.up hup)
  exact ⟨_, _, hg.open hopen hup (hlive hup hopen.live)⟩

end

/-! ### The re-arm -/

theorem attempts_mark_attempt (w : Worker) (gen g : ℕ) (own : Bool) :
    (w.mark (.attempt g own)).attempts gen = w.attempts gen + if g = gen then 1 else 0 := by
  simp [attempts, mark, countP_append, countP_cons, Mark.attempts]

theorem Sound.attempt (h : Sound w) (hend : w.Ended w.driver.arm) (huntr : w.attempts w.driver.arm = 0) :
    Sound (w.mark (.attempt w.driver.arm false)) := by
  have hmks : (w.mark (.attempt w.driver.arm false)).marks = w.marks ++ [.attempt w.driver.arm false] := rfl
  refine h.append hmks rfl (by simp) ?_ (by simp)
  intro gen own hmem
  obtain ⟨rfl, rfl⟩ : gen = w.driver.arm ∧ own = false := by simpa using hmem
  refine ⟨rfl, rfl, ?_, hend⟩
  rw [attempts_mark_attempt, huntr, if_pos rfl]

theorem Sound.exit (h : Sound w) {gen : ℕ} (hmem : .attempt gen false ∈ w.marks) :
    Sound (w.mark (.exit gen false)) := by
  have hmks : (w.mark (.exit gen false)).marks = w.marks ++ [.exit gen false] := rfl
  refine h.append hmks rfl (by simp) (by simp) ?_
  intro gen' own hexit
  obtain ⟨rfl, rfl⟩ : gen' = gen ∧ own = false := by simpa using hexit
  exact ⟨rfl, hmem⟩

theorem Sound.next (h : Sound w) (htried : w.attempts w.driver.arm = 1)
    (hmks : v.marks = w.marks) (harm : v.driver.arm = w.driver.arm + 1) : Sound v := by
  have hatt : ∀ gen, v.attempts gen = w.attempts gen := by
    intro gen
    rw [attempts, hmks, attempts]
  refine ⟨?_, ?_, ?_, ?_, ?_⟩
  · simpa only [hatt] using h.once
  · simpa only [hmks] using h.caused
  · simpa only [hmks] using h.exits
  · intro gen hgen
    rw [hatt, hmks] at hgen
    have := h.known gen hgen
    omega
  · intro gen hgen
    rw [hatt]
    obtain hlt | heq : gen < w.driver.arm ∨ gen = w.driver.arm := by omega
    · exact h.past gen hlt
    · rw [heq, htried]

structure Rearmed (bye : Bool) (w v : Worker) (ts : List Task) (ms : List Mark) : Prop where
  driver : v.driver = w.driver.rearm bye
  rearming : v.rearming = true
  down : v.tearingDown = w.tearingDown
  signaled : v.permanentDeathSignaled = w.permanentDeathSignaled
  timer : v.iceFailedTeardownTimer = w.iceFailedTeardownTimer.stop
  started : v.nativeSessionStarted = w.nativeSessionStarted
  looping : v.looping = w.looping
  parked : v.quitMainMessageLoop = w.quitMainMessageLoop
  queue : v.queue = w.queue ++ ts ++ [.clearRearming]
  marks : v.marks = w.marks ++ ms
  tasks : ∀ t ∈ ts, t = .rearmOrShutdown true true
  raised : ∀ m ∈ ms, ∃ e, m = .raised w.driver.arm e

theorem rearmed (l : Webrtc) (w : Worker) (bye : Bool) :
    ∃ ts ms, Rearmed bye w (w.endSession.rearmDriver l bye) ts ms := by
  obtain ⟨-, heq⟩ | ⟨-, heq⟩ := rearmDriver_eq l w.endSession bye
  · rw [heq]
    exact ⟨[], [], rfl, rfl, rfl, rfl, rfl, rfl, rfl, rfl, by rw [append_nil]; rfl,
      (append_nil _).symm, by simp, by simp⟩
  rw [heq]
  refine ⟨if w.tearingDown then [] else [.rearmOrShutdown true true],
    [.raised w.driver.arm .closed], rfl, rfl, rfl, rfl, rfl, rfl, rfl, rfl, rfl, rfl, ?_, by simp⟩
  intro t ht
  split at ht
  · cases ht
  · exact mem_singleton.mp ht

structure Idle (w : Worker) : Prop where
  up : w.tearingDown = false
  idle : w.rearming = false
  free : Task.clearRearming ∉ w.queue
  dated : ∀ t ∈ w.queue, t.Dated w.iceFailedTeardownTimer
  live : Live w
  started : w.nativeSessionStarted = true
  looping : w.looping = true
  parked : w.quitMainMessageLoop = true

theorem Idle.mark (h : Idle w) (m : Mark) : Idle (w.mark m) :=
  ⟨h.up, h.idle, h.free, h.dated, h.live, h.started, h.looping, h.parked⟩

theorem Rearmed.open {bye : Bool} (hr : Rearmed bye w v ts ms) (h : Sound w) (hi : Idle w)
    (hcan : w.driver.canRearm = true) : Open v (w.queue ++ ts) [] := by
  obtain ⟨harm, hst, -⟩ := Driver.rearm_fresh hcan bye
  rw [← hr.driver] at harm hst
  have hclr : Task.clearRearming ∉ ts := by
    intro hmem
    cases hr.tasks _ hmem
  have hstale : ∀ t ∈ w.queue ++ ts, t.Dated v.iceFailedTeardownTimer := by
    intro t ht
    rw [hr.timer]
    obtain ht | ht := mem_append.mp ht
    · exact (hi.dated t ht).mono (Timer.until_stop _)
    · rw [hr.tasks t ht]
      trivial
  -- what is known so far is of the sessions before
  have hold : Sound { w with marks := v.marks } := h.raises hr.marks hr.raised rfl
  refine ⟨?_, ?_, ?_, ?_, by simp, ?_, ⟨by rw [hst]; simp, by rw [hr.signaled]; exact hi.live.2⟩,
    hr.started.trans hi.started, hr.looping.trans hi.looping, hr.parked.trans hi.parked⟩
  · rw [hr.rearming, hr.queue]
    exact (fenced_down hi.free).raise hclr
  · intro t ht
    refine (hstale t ht).spent ?_
    rw [hr.timer]
    rfl
  · intro t ht
    rw [hr.queue] at ht
    obtain ht | ht := mem_append.mp ht
    · exact hstale t ht
    · rw [mem_singleton.mp ht]
      trivial
  · by_contra hne
    have hknown : v.driver.arm ≤ w.driver.arm := hold.known _ (.inr (Nat.pos_of_ne_zero hne))
    omega
  · rintro ⟨e, -, hmem⟩
    have hknown : v.driver.arm ≤ w.driver.arm := hold.known _ (.inl ⟨e, hmem⟩)
    omega

def Resolved (w v : Worker) : Prop :=
  Sound v ∧ (v.looping = true → Inv v ∧ (v.tearingDown = true ∨ w.driver.arm < v.driver.arm))

theorem shutdown_resolved {gen : ℕ} (h : Sound v) (hmem : .attempt gen false ∈ v.marks)
    (hprk : v.tearingDown = false → v.quitMainMessageLoop = true) :
    Resolved w (v.mark (.exit gen false)).shutdown := by
  have hsnd := h.exit hmem
  unfold shutdown
  split
  · exact ⟨hsnd.same rfl rfl, fun hloop => by cases hloop⟩
  rename_i hquit
  have hdown : v.tearingDown = true := by
    by_contra hup
    exact hquit (hprk (by simpa using hup))
  refine ⟨hsnd, fun _ => ⟨⟨hsnd, fun hup => ?_⟩, .inl hdown⟩⟩
  change v.tearingDown = false at hup
  simp [hdown] at hup

theorem Idle.rearmSession (hi : Idle w) (h : Sound w) (htried : w.attempts w.driver.arm = 1)
    (hmem : .attempt w.driver.arm false ∈ w.marks) (l : Webrtc) (bye : Bool) (r : Response) :
    Resolved w (match w.rearmSession l bye r with
      | (v, none) => v
      | (v, some _) => (v.mark (.exit w.driver.arm false)).shutdown) := by
  obtain ⟨ts, ms, hr⟩ := rearmed l w bye
  rw [Worker.rearmSession, renew, if_neg (by simp [hi.started]), if_neg (by simp [hi.up])]
  generalize w.endSession.rearmDriver l bye = z at hr
  have hmem' : .attempt w.driver.arm false ∈ z.marks := by
    rw [hr.marks]
    exact mem_append_left _ hmem
  cases hcan : w.driver.canRearm with
  | false =>
    have harm : z.driver.arm = w.driver.arm := by rw [hr.driver, Driver.rearm_eq_self hcan]
    have hsnd : Sound z := h.raises hr.marks hr.raised harm
    exact shutdown_resolved hsnd hmem' fun _ => hr.parked.trans hi.parked
  | true =>
    have harm : z.driver.arm = w.driver.arm + 1 := by rw [hr.driver, (Driver.rearm_fresh hcan bye).1]
    -- the end events of the old session come before the new one begins
    have hold : Sound { w with marks := z.marks } := h.raises hr.marks hr.raised rfl
    have htried' : Worker.attempts { w with marks := z.marks } w.driver.arm = 1 :=
      (attempts_raises hr.marks hr.raised _).trans htried
    have hsnd : Sound z := hold.next htried' rfl harm
    have hinv : Inv z := ⟨hsnd, fun _ => ⟨_, _, hr.open h hi hcan⟩⟩
    obtain ⟨ts', ms', hg⟩ := call_goes l z (a := .start r.pc) (by simp)
    have hinv' := hg.inv hinv fun hup' hlive => call_live l _ _ _ hlive hup'
    have harm' := hg.arm.trans harm
    have hmem'' : .attempt w.driver.arm false ∈ (z.call l z.driver.arm false (.start r.pc)).marks := by
      rw [hg.marks]
      exact mem_append_left _ hmem'
    simp only [Bool.not_true, Bool.false_eq_true, if_false]
    generalize z.call l z.driver.arm false (.start r.pc) = u at *
    cases hpc : u.driver.pc with
    | false =>
      refine shutdown_resolved hinv'.1 hmem'' ?_
      intro hup'
      obtain ⟨ahead, behind, hopen⟩ := hinv'.2 hup'
      exact hopen.parked
    | true =>
      simp only [Bool.not_true, Bool.false_eq_true, if_false]
      have hmedia : Goes u (u.rebuildSessionMedia r.audio) [] [] := by
        rw [rebuildSessionMedia, if_pos hpc]
        exact .still rfl rfl rfl rfl (fun _ => rfl) id (.refl _) rfl rfl
      have hinv'' : Inv (u.rebuildSessionMedia r.audio) := by
        refine hmedia.inv hinv' fun _ hlive => ?_
        rwa [rebuildSessionMedia, if_pos hpc]
      refine ⟨hinv''.1, fun _ => ⟨hinv'', .inr ?_⟩⟩
      rw [hmedia.arm, harm']
      exact Nat.lt_succ_self _

theorem Idle.rearmOrShutdown (hi : Idle w) (h : Sound w) (hend : w.Ended w.driver.arm)
    (huntr : w.attempts w.driver.arm = 0) (l : Webrtc) (bye : Bool) (r : Response) :
    Resolved w (w.rearmOrShutdown l bye false r) := by
  have htried : (w.mark (.attempt w.driver.arm false)).attempts w.driver.arm = 1 := by
    rw [attempts_mark_attempt, huntr, if_pos rfl]
  rw [Worker.rearmOrShutdown, if_neg (by simp [hi.up]), if_neg (by simp [hi.idle])]
  exact (hi.mark _).rearmSession (h.attempt hend huntr) htried (mem_append_right _ (mem_singleton_self _)) l bye r

end

end Worker

end Chromeless.MainParts
