import Chromeless.MainPartsAudio
import Chromeless.MainPartsRearm

/-! Every session that is over is re-armed once, whatever order the tasks come in. -/
namespace Chromeless.Capture

theorem Driver.le_arm_step (l : Webrtc) (d : Driver) (a : Act) : d.arm ≤ (d.step l a).arm := by
  by_cases ha : ∃ bye, a = .rearm bye
  · obtain ⟨bye, rfl⟩ := ha
    show d.arm ≤ (d.rearm bye).arm
    cases hcan : d.canRearm with
    | false => rw [Driver.rearm_eq_self hcan]
    | true =>
      rw [(Driver.rearm_fresh hcan bye).1]
      exact Nat.le_succ _
  · exact Nat.le_of_eq ((Driver.step_watched l d a).arm fun bye h => ha ⟨bye, h⟩).symm

end Chromeless.Capture

namespace Chromeless.MainParts
open Capture Fence History

/-- A callback that is delivered comes from the PeerConnection of the session that is on. -/
def Task.Fresh (arm : ℕ) : Task → Prop
  | .observer pc weak _ => weak = arm → pc = arm
  | _ => True

instance Task.decidableFresh (arm : ℕ) : DecidablePred (Task.Fresh arm)
  | .observer pc weak _ => inferInstanceAs (Decidable (weak = arm → pc = arm))
  | .onConnected _ | .onEnvelope _ | .onGaveUp | .completion _ _ | .permanentDeath | .shutdown
  | .iceFailedGrace _ | .rearmOrShutdown _ _ | .clearRearming | .quit => inferInstanceAs (Decidable True)

def Turn.runs : Turn → Bool
  | .run _ => true
  | .post _ | .graceElapses | .quitElapses => false

namespace Worker

/-- What is run next is not a callback of an old session. -/
def Fresh (w : Worker) (turn : Turn) : Prop :=
  turn.runs = true → ∀ t ∈ w.queue.head?, t.Fresh w.driver.arm

instance decidableFresh (w : Worker) (turn : Turn) : Decidable (w.Fresh turn) :=
  inferInstanceAs (Decidable (turn.runs = true → ∀ t ∈ w.queue.head?, t.Fresh w.driver.arm))

section
variable {l : Webrtc} {w v u : Worker} {t : Task} {queue : List Task}

/-! ### The tasks that leave the session on -/

def Answers (w v : Worker) : Prop :=
  ∃ ts ms, Goes w v ts ms ∧ (v.tearingDown = false → Live w → Live v)

theorem Answers.refl (w : Worker) : Answers w w := ⟨_, _, .refl w, fun _ h => h⟩

theorem Answers.trans (h : Answers w v) (h' : Answers v u) : Answers w u := by
  obtain ⟨ts, ms, hg, hlive⟩ := h
  obtain ⟨ts', ms', hg', hlive'⟩ := h'
  exact ⟨_, _, hg.trans hg', fun hu hw => hlive' hu (hlive (hg'.up hu) hw)⟩

theorem call_answers (l : Webrtc) (w : Worker) {a : Act} (ha : ∀ bye, a ≠ .rearm bye) :
    Answers w (w.call l w.driver.arm false a) := by
  obtain ⟨ts, ms, hg⟩ := call_goes l w ha
  exact ⟨ts, ms, hg, fun hup hlive => call_live l _ _ _ hlive hup⟩

theorem onGpuPermanentDeath_answers (l : Webrtc) (w : Worker) :
    Answers w (w.onGpuPermanentDeath l) := by
  obtain ⟨ts, ms, hg⟩ := onGpuPermanentDeath_goes l w
  refine ⟨ts, ms, hg, fun hup hlive => ?_⟩
  rw [onGpuPermanentDeath_down l hlive.2] at hup
  cases hup

theorem onConnected_answers (l : Webrtc) (accepted : Bool)
    (hw : w.tearingDown = false → Live w) : Answers w (w.onConnected l accepted) := by
  have hcall := call_answers l w (a := .onConnected accepted) (by simp)
  unfold onConnected
  generalize w.call l w.driver.arm false (.onConnected accepted) = v at hcall
  dsimp only
  split
  · refine hcall.trans ⟨[], [], ?_, fun _ h => h⟩
    exact .still rfl rfl rfl rfl (fun _ => rfl) id (.refl _) rfl rfl
  split
  · exact hcall
  refine hcall.trans ?_
  split
  next hgd =>
    refine ⟨_, _, .note v _ ?_, fun _ h => h⟩
    -- of the three guards a failed driver is the one that leaves nobody up
    cases hdown : v.tearingDown with
    | true => exact .inr rfl
    | false =>
      obtain ⟨ts, ms, hg, hlive⟩ := hcall
      have hstate := (hlive hdown (hw (hg.up hdown))).1
      have hrea : v.rearming = true := by simpa [mark, hdown, hstate] using hgd
      simp [EndEvent.counts, hrea]
  next hgd =>
    have hrea : v.rearming = false := by
      by_contra h
      exact hgd (by simp [mark, (by simpa using h : v.rearming = true)])
    exact ⟨_, _, .raise v (by simp [EndEvent.counts, hrea]) false, fun _ h => h⟩

/-! ### One task -/

structure Served (w v : Worker) : Prop where
  sound : Sound v
  down : w.tearingDown = true → v.tearingDown = true
  inv : v.looping = true → Inv v
  next : v.looping = true → v.tearingDown = true ∨ w.driver.arm < v.driver.arm ∨
    ∃ ts, Task.clearRearming ∉ ts ∧ v.queue = w.queue ++ ts

theorem Answers.served (h : Answers w v) (hw : Inv w) : Served w v := by
  obtain ⟨ts, ms, hg, hlive⟩ := h
  exact ⟨hg.sound hw.1, hg.down, fun _ => hg.inv hw hlive, fun _ => .inr (.inr ⟨ts, hg.clear_not_mem, hg.queue⟩)⟩

theorem Resolved.served (h : Resolved w v) (hup : w.tearingDown = false) : Served w v :=
  ⟨h.1, fun hdown => by simp [hup] at hdown, fun hloop => (h.2 hloop).1, fun hloop => (h.2 hloop).2.imp_right .inl⟩

theorem served_quit (h : Sound w) (b : Bool) :
    Served w { w with quitMainMessageLoop := b, looping := false } :=
  ⟨h.same rfl rfl, id, nofun, nofun⟩

open Answers

theorem shutdown_served (h : Inv w) : Served w w.shutdown := by
  unfold shutdown
  split
  · exact served_quit h.1 false
  · exact (refl w).served h

variable {ahead behind : List Task} {bye own : Bool} {serial k gen : ℕ}

theorem Open.serve {ahead' behind' : List Task} (h : Open w ahead behind) {rearming : Bool}
    (hf : Fenced .clearRearming rearming queue ahead' behind') (hahead : ahead' ⊆ ahead)
    (hqu : queue ⊆ w.queue) (hbeh : behind' ⊆ behind)
    (hrea : ∀ bye own, .rearmOrShutdown bye own ∈ behind → .rearmOrShutdown bye own ∈ behind') :
    Open { w with queue := queue, rearming := rearming } ahead' behind' := by
  refine ⟨hf, fun t ht => h.spent t (hahead ht), fun t ht => h.dated t (hqu ht), h.untried,
    fun bye own hmem => h.cause bye own (hbeh hmem), ?_, h.live, h.started, h.looping, h.parked⟩
  intro hend
  obtain ⟨bye, own, hmem⟩ := h.owed hend
  exact ⟨bye, own, hrea bye own hmem⟩

open List

theorem Inv.pop (h : Inv w) (hq : w.queue = t :: queue) (ht : t ≠ .clearRearming)
    (hrea : t.rearms = true → w.tearingDown = false → w.rearming = true) :
    Inv { w with queue := queue } := by
  refine ⟨h.1.same rfl rfl, ?_⟩
  intro hup
  obtain ⟨ahead, behind, hopen⟩ := h.2 hup
  have hfen := hopen.fenced
  have hsub : queue ⊆ w.queue := hq ▸ subset_cons_self _ _
  rw [hq] at hfen
  obtain ⟨hr, -, -, rest, rfl, hf⟩ | ⟨-, hclr, -, -⟩ | ⟨hr, -, hall, hfree⟩ := hfen.pop
  · rw [← hr] at hf
    exact ⟨_, _, hopen.serve hf (subset_cons_self _ _) hsub (Subset.refl _) fun _ _ h => h⟩
  · exact absurd hclr ht
  · have hf : Fenced .clearRearming w.rearming queue [] queue := hr ▸ fenced_down hfree
    refine ⟨_, _, hopen.serve hf (nil_subset _) hsub (hall ▸ subset_cons_self _ _) ?_⟩
    intro bye own hmem
    rw [hall] at hmem
    obtain heq | hmem := mem_cons.mp hmem
    · have := hrea (by rw [← heq]; rfl) hup
      rw [hr] at this
      cases this
    · exact hmem

theorem Inv.clear (h : Inv w) (hq : w.queue = .clearRearming :: queue) :
    Inv { w with queue := queue, rearming := false } := by
  refine ⟨h.1.same rfl rfl, ?_⟩
  intro hup
  obtain ⟨ahead, behind, hopen⟩ := h.2 hup
  have hfen := hopen.fenced
  have hsub : queue ⊆ w.queue := hq ▸ subset_cons_self _ _
  rw [hq] at hfen
  obtain ⟨-, -, hne, -⟩ | ⟨-, -, rfl, hfree⟩ | ⟨-, hne, -, -⟩ := hfen.pop
  · exact absurd rfl hne
  · exact ⟨_, _, hopen.serve (fenced_down hfree) (nil_subset _) hsub (Subset.refl _) fun _ _ h => h⟩
  · exact absurd rfl hne

theorem Open.idle (h : Open w ahead behind) (hup : w.tearingDown = false) (hr : w.rearming = false)
    (hq : w.queue = t :: queue) : Idle { w with queue := queue } := by
  have hfen := h.fenced
  rw [hq, hr] at hfen
  have hfree := hfen.free.2
  rw [hfen.eq_of_down, mem_cons, not_or] at hfree
  refine ⟨hup, hr, hfree.2, fun t ht => h.dated t ?_, h.live, h.started, h.looping, h.parked⟩
  rw [hq]
  exact mem_cons_of_mem _ ht

theorem Open.rearm (h : Open w ahead behind) (hsnd : Sound w) (hup : w.tearingDown = false)
    (hr : w.rearming = false) (hq : w.queue = .rearmOrShutdown bye own :: queue) (l : Webrtc) (r : Response) :
    Resolved { w with queue := queue }
      ({ w with queue := queue }.rearmOrShutdown l bye own r) := by
  have hfen := h.fenced
  rw [hq, hr] at hfen
  obtain ⟨rfl, hend⟩ := h.cause bye own (by rw [hfen.eq_of_down]; exact mem_cons_self)
  exact (h.idle hup hr hq).rearmOrShutdown (hsnd.same rfl rfl) hend h.untried l bye r

theorem attempts_raise (w : Worker) (e : EndEvent) (gen : ℕ) :
    (w.mark (.raised w.driver.arm e)).attempts gen = w.attempts gen := by
  simp [attempts, mark, countP_append, Mark.attempts]

theorem Sound.raise (h : Sound w) (e : EndEvent) : Sound (w.mark (.raised w.driver.arm e)) := by
  have hmks : (w.mark (.raised w.driver.arm e)).marks = w.marks ++ [.raised w.driver.arm e] := rfl
  exact h.raises hmks (by simp) rfl

theorem Open.grace (h : Open w ahead behind) (hsnd : Sound w) (hup : w.tearingDown = false)
    (hq : w.queue = .iceFailedGrace serial :: queue)
    (hshot : w.iceFailedTeardownTimer = ⟨true, serial⟩) (l : Webrtc) (r : Response) :
    Resolved { w with queue := queue } ({ w with
      queue := queue, iceFailedTeardownTimer := w.iceFailedTeardownTimer.stop
      }.onIceFailedGraceElapsed l r) := by
  have hfen := h.fenced
  rw [hq] at hfen
  obtain ⟨-, hmem, -, -⟩ | ⟨-, heq, -, -⟩ | ⟨hr, -, -, -⟩ := hfen.pop
  · have hspent := h.spent _ hmem
    rw [hshot] at hspent
    exact absurd (hspent.2 rfl) (Nat.lt_irrefl _)
  · cases heq
  · have hidle := h.idle hup hr hq
    have hstp : Idle { w with
        queue := queue, iceFailedTeardownTimer := w.iceFailedTeardownTimer.stop } :=
      ⟨hup, hr, hidle.free, fun t ht => (hidle.dated t ht).mono (Timer.until_stop _), hidle.live,
        hidle.started, hidle.looping, hidle.parked⟩
    have hsnd' : Sound { w with
        queue := queue, iceFailedTeardownTimer := w.iceFailedTeardownTimer.stop } :=
      hsnd.same rfl rfl
    rw [onIceFailedGraceElapsed]
    rw [if_neg (by simp [mark, hup])]
    exact (hstp.mark _).rearmOrShutdown (hsnd'.raise _)
      ⟨.iceFailed, rfl, mem_append_right _ (mem_singleton_self _)⟩
      ((attempts_raise _ _ _).trans h.untried) l true r

theorem grace_served (h : Inv w) (hq : w.queue = .iceFailedGrace serial :: queue)
    (hshot : w.iceFailedTeardownTimer = ⟨true, serial⟩) (l : Webrtc) (r : Response) :
    Served { w with queue := queue } ({ w with
      queue := queue, iceFailedTeardownTimer := w.iceFailedTeardownTimer.stop
      }.onIceFailedGraceElapsed l r) := by
  obtain hdown | hup := Bool.eq_false_or_eq_true w.tearingDown
  · have hstop : Answers { w with queue := queue } { w with
        queue := queue, iceFailedTeardownTimer := w.iceFailedTeardownTimer.stop } :=
      ⟨[], [], .still rfl rfl rfl rfl (fun _ => rfl) id (Timer.until_stop _) rfl rfl, fun _ h => h⟩
    rw [onIceFailedGraceElapsed]
    rw [if_pos (by simp [mark, hdown])]
    have hnote := Goes.note { w with
      queue := queue, iceFailedTeardownTimer := w.iceFailedTeardownTimer.stop } .iceFailed
      (.inr hdown)
    exact (hstop.trans ⟨_, _, hnote, fun _ h => h⟩).served (h.pop hq (by simp) (by simp [Task.rearms]))
  · obtain ⟨ahead, behind, hopen⟩ := h.2 hup
    exact (hopen.grace h.1 hup hq hshot l r).served hup

theorem rearmOrShutdown_served (h : Inv w) (hq : w.queue = .rearmOrShutdown bye own :: queue)
    (l : Webrtc) (r : Response) :
    Served { w with queue := queue } ({ w with queue := queue }.rearmOrShutdown l bye own r) := by
  obtain hdown | hup := Bool.eq_false_or_eq_true w.tearingDown
  · rw [Worker.rearmOrShutdown, if_pos hdown]
    exact (refl _).served (h.pop hq (by simp) (by simp [hdown]))
  obtain hr | hr := Bool.eq_false_or_eq_true w.rearming
  · rw [Worker.rearmOrShutdown, if_neg (by simp [hup]), if_pos hr]
    exact (refl _).served (h.pop hq (by simp) fun _ _ => hr)
  · obtain ⟨ahead, behind, hopen⟩ := h.2 hup
    exact (hopen.rearm h.1 hup hr hq l r).served hup

theorem runTask_served (h : Inv w) (hq : w.queue = t :: queue) (ht : t.Fresh w.driver.arm)
    (l : Webrtc) (r : Response) :
    Served { w with queue := queue } ({ w with queue := queue }.runTask l r t) := by
  cases t with
  | onConnected accepted =>
    have hinv := h.pop hq (by simp) (by simp [Task.rearms])
    refine (onConnected_answers l accepted fun hup => ?_).served hinv
    obtain ⟨ahead, behind, hopen⟩ := hinv.2 hup
    exact hopen.live
  | onEnvelope =>
    have hinv := h.pop hq (by simp) (by simp [Task.rearms])
    exact (call_answers l _ (by simp)).served hinv
  | onGaveUp =>
    have hinv := h.pop hq (by simp) (by simp [Task.rearms])
    simp only [runTask]
    split
    · exact (refl _).served hinv
    · exact shutdown_served hinv
  | observer pc weak callback =>
    have hinv := h.pop hq (by simp) (by simp [Task.rearms])
    simp only [runTask]
    split
    next hweak =>
      rw [ht hweak]
      have hact : ∀ bye, callback.act ≠ .rearm bye := by
        cases callback <;> simp [ObserverCallback.act]
      exact (call_answers l _ hact).served hinv
    · exact (refl _).served hinv
  | completion arm completion =>
    have hinv := h.pop hq (by simp) (by simp [Task.rearms])
    have hact : ∀ bye, completion.act arm ≠ .rearm bye := by
      cases completion <;> simp [Completion.act]
    exact (call_answers l _ hact).served hinv
  | permanentDeath =>
    have hinv := h.pop hq (by simp) (by simp [Task.rearms])
    exact (onGpuPermanentDeath_answers l _).served hinv
  | shutdown => exact shutdown_served (h.pop hq (by simp) (by simp [Task.rearms]))
  | iceFailedGrace serial =>
    have hinv := h.pop hq (by simp) (by simp [Task.rearms])
    simp only [runTask]
    split
    next hshot => exact grace_served h hq hshot l r
    · exact (refl _).served hinv
  | rearmOrShutdown => exact rearmOrShutdown_served h hq l r
  | clearRearming =>
    have hinv := h.clear hq
    exact ⟨hinv.1, id, fun _ => hinv, fun _ => .inr (.inr ⟨[], by simp, (append_nil _).symm⟩)⟩
  | quit =>
    have hinv := h.pop hq (by simp) (by simp [Task.rearms])
    exact served_quit hinv.1 w.quitMainMessageLoop

/-! ### One turn -/

theorem postMainMessageLoopRun_inv (h : Sound w) (l : Webrtc) :
    Inv (w.postMainMessageLoopRun l) ∧ (w.postMainMessageLoopRun l).tearingDown = true := by
  obtain ⟨ts, ms, hg⟩ := call_goes l
    { w with tearingDown := true, audio := w.audio.prepareForTeardown }
    (a := .close "session ended") (by simp)
  have hdown : (w.postMainMessageLoopRun l).tearingDown = true := hg.down rfl
  refine ⟨⟨hg.sound (h.same rfl rfl), fun hup => ?_⟩, hdown⟩
  rw [hdown] at hup
  cases hup

theorem Inv.looping (h : Inv w) (hup : w.tearingDown = false) : w.looping = true := by
  obtain ⟨ahead, behind, hopen⟩ := h.2 hup
  exact hopen.looping

structure Turned (w v : Worker) (queue : List Task) : Prop where
  inv : Inv v
  down : w.tearingDown = true → v.tearingDown = true
  next : v.tearingDown = true ∨ w.driver.arm < v.driver.arm ∨ ∃ ts, Task.clearRearming ∉ ts ∧ v.queue = queue ++ ts

theorem Turned.refl (h : Inv w) : Turned w w w.queue :=
  ⟨h, id, .inr (.inr ⟨[], by simp, (append_nil _).symm⟩)⟩

theorem turned_post (h : Inv w) (ht : t ≠ .clearRearming) (hrea : t.rearms = false)
    (hdated : t.Dated w.iceFailedTeardownTimer) : Turned w (w.post t) w.queue := by
  have hclr : Task.clearRearming ∉ [t] := by simpa using ht.symm
  refine ⟨⟨h.1.same rfl rfl, fun hup => ?_⟩, id, .inr (.inr ⟨[t], hclr, rfl⟩)⟩
  obtain ⟨ahead, behind, hopen⟩ := h.2 hup
  refine ⟨ahead, behind ++ [t], hopen.fenced.append hclr, hopen.spent, ?_, hopen.untried, ?_, ?_,
    hopen.live, hopen.started, hopen.looping, hopen.parked⟩
  · intro t' ht'
    obtain ht' | ht' := mem_append.mp ht'
    · exact hopen.dated t' ht'
    · rwa [mem_singleton.mp ht']
  · intro bye own hmem
    obtain hmem | hmem := mem_append.mp hmem
    · exact hopen.cause bye own hmem
    · rw [← mem_singleton.mp hmem] at hrea
      cases hrea
  · intro hend
    obtain ⟨bye, own, hmem⟩ := hopen.owed hend
    exact ⟨bye, own, mem_append_left _ hmem⟩

theorem runNext_turned (h : Inv w) (hq : w.queue = t :: queue) (ht : t.Fresh w.driver.arm)
    (l : Webrtc) (r : Response) : Turned w (w.runNext l r) queue := by
  have hserv := runTask_served h hq ht l r
  unfold runNext
  rw [hq]
  dsimp only
  split
  next hloop => exact ⟨hserv.inv hloop, hserv.down, hserv.next hloop⟩
  · obtain ⟨hinv, hdown⟩ := postMainMessageLoopRun_inv hserv.sound l
    exact ⟨hinv, fun _ => hdown, .inl hdown⟩

theorem step_turned (h : Inv w) (turn : Turn) (hfr : w.Fresh turn) (l : Webrtc) :
    Turned w (w.step l turn) (if turn.runs then w.queue.tail else w.queue) := by
  cases turn with
  | post t =>
    simp only [step, Turn.runs]
    split
    next hadm =>
      cases t <;> simp only [admits, Bool.false_eq_true] at hadm <;>
        exact turned_post h (by simp) rfl trivial
    · exact .refl h
  | graceElapses =>
    simp only [step]
    split
    · exact turned_post h (by simp) rfl (Nat.le_refl _)
    · exact .refl h
  | quitElapses =>
    simp only [step]
    split
    · have hquit : Goes w { w with quitDelayed := false } [] [] :=
        .still rfl rfl rfl rfl (fun _ => rfl) id (.refl _) rfl rfl
      have hinv := hquit.inv h fun _ hlive => hlive
      have hpst := turned_post hinv (t := .quit) (by simp) rfl trivial
      exact ⟨hpst.inv, hpst.down, hpst.next⟩
    · exact .refl h
  | run r =>
    simp only [step, Turn.runs, if_true]
    split
    · cases hq : w.queue with
      | nil =>
        have hsame : w.runNext l r = w := by rw [runNext, hq]
        have hrefl := Turned.refl h
        rw [hq] at hrefl
        rwa [hsame]
      | cons t =>
        refine runNext_turned h hq (hfr rfl t ?_) l r
        rw [hq]
        rfl
    next hloop =>
      have hdown : w.tearingDown = true := by
        by_contra hup
        exact hloop (h.looping (by simpa using hup))
      exact ⟨h, id, .inl hdown⟩

/-! ### Whole runs -/

theorem inv_started (l : Webrtc) (f : AudioFactory) : Inv (started l f) := by
  have hmks : (started l f).marks = [] := rfl
  have hqu : (started l f).queue = [] := rfl
  have hatt : ∀ gen, (started l f).attempts gen = 0 := fun _ => rfl
  have hsnd : Sound (started l f) := by
    refine ⟨?_, ?_, ?_, ?_, ?_⟩
    · simp [hatt]
    · simp [hmks]
    · simp [hmks]
    · simp [hatt, hmks]
    · intro gen hgen
      exact absurd hgen (Nat.not_lt_zero gen)
  have hlive : Live (started l f) := ⟨nofun, rfl⟩
  refine ⟨hsnd, fun _ => ⟨[], [], fenced_down not_mem_nil, by simp, ?_, hatt _, by simp, ?_, hlive, rfl, rfl, rfl⟩⟩
  · simp [hqu]
  · rintro ⟨e, -, hmem⟩
    cases hmem

theorem runNext_rearm (h : Inv w) (hq : w.queue = .rearmOrShutdown bye own :: queue)
    (hclr : Task.clearRearming ∉ queue) (l : Webrtc) (r : Response) :
    (w.runNext l r).tearingDown = true ∨ w.driver.arm < (w.runNext l r).driver.arm := by
  obtain hdown | hup := Bool.eq_false_or_eq_true w.tearingDown
  · exact .inl ((runNext_turned h hq trivial l r).down hdown)
  obtain ⟨ahead, behind, hopen⟩ := h.2 hup
  have hfen := hopen.fenced
  rw [hq] at hfen
  have hr : w.rearming = false := hfen.down_of_not_mem (by simpa using hclr)
  have hres := hopen.rearm h.1 hup hr hq l r
  unfold runNext
  rw [hq]
  dsimp only [runTask]
  split
  next hloop => exact (hres.2 hloop).2
  · exact .inl (postMainMessageLoopRun_inv hres.1 l).2

theorem step_due (h : Inv w) (turn : Turn) (hfr : w.Fresh turn)
    (hdue : Due (fun t => t.rearms = true) .clearRearming k w.queue) (l : Webrtc) :
    (w.step l turn).tearingDown = true ∨ w.driver.arm < (w.step l turn).driver.arm ∨
      Due (fun t => t.rearms = true) .clearRearming (if turn.runs then k - 1 else k) (w.step l turn).queue := by
  have htrn := step_turned h turn hfr l
  cases hruns : turn.runs with
  | false =>
    rw [hruns] at htrn
    obtain hdown | harm | ⟨ts, hts, hqu⟩ := htrn.next
    · exact .inl hdown
    · exact .inr (.inl harm)
    · rw [hqu]
      exact .inr (.inr (hdue.append hts))
  | true =>
    rw [hruns] at htrn
    obtain ⟨t, rest, hq, ht, hfree⟩ | ⟨t, rest, hq, hdue'⟩ := hdue.pop
    · obtain hdown | hup := Bool.eq_false_or_eq_true w.tearingDown
      · exact .inl (htrn.down hdown)
      cases turn with
      | run r =>
        cases t with
        | rearmOrShutdown =>
          have hstep : w.step l (.run r) = w.runNext l r := if_pos (h.looping hup)
          rw [hstep]
          exact (runNext_rearm h hq hfree l r).imp_right .inl
        | _ => cases ht
      | _ => cases hruns
    · rw [hq] at htrn
      obtain hdown | harm | ⟨ts, hts, hqu⟩ := htrn.next
      · exact .inl hdown
      · exact .inr (.inl harm)
      · rw [hqu]
        exact .inr (.inr (hdue'.append hts))

theorem step_le_arm (l : Webrtc) (turn : Turn) (h : gen ≤ w.driver.arm) :
    gen ≤ (w.step l turn).driver.arm :=
  step_driver (fun d => gen ≤ d.arm) (fun d a hd => hd.trans (Driver.le_arm_step l d a)) w turn h

theorem run_due {more : List Turn} (h : Inv w) (hfr : Runs.Meets (step l) Fresh w more) (hgen : gen ≤ w.driver.arm)
    (hdue : w.tearingDown = true ∨ gen < w.driver.arm ∨ Due (fun t => t.rearms = true) .clearRearming k w.queue)
    (hk : k ≤ more.countP Turn.runs) :
    (Runs.run (step l) w more).attempts gen = 1 ∨ (Runs.run (step l) w more).tearingDown = true := by
  induction more generalizing w k with
  | nil =>
    obtain hdown | harm | hdue := hdue
    · exact .inr hdown
    · exact .inl (h.1.past gen harm)
    · have := hdue.pos
      simp at hk
      omega
  | cons turn more ih =>
    have htrn := step_turned h turn hfr.1 l
    have hk' : (if turn.runs then k - 1 else k) ≤ more.countP Turn.runs := by
      rw [countP_cons] at hk
      split
      · rw [if_pos ‹_›] at hk
        omega
      · rwa [if_neg ‹_›] at hk
    refine ih htrn.inv hfr.2 (step_le_arm l turn hgen) ?_ hk'
    obtain hdown | harm | hdue := hdue
    · exact .inl (htrn.down hdown)
    · exact .inr (.inl (step_le_arm l turn harm))
    · obtain hdown | harm | hdue := step_due h turn hfr.1 hdue l
      · exact .inl hdown
      · exact .inr (.inl (Nat.lt_of_le_of_lt hgen harm))
      · exact .inr (.inr hdue)

end

end Worker

/-- The events that `counts` picks end their session by exactly one attempt at a re-arm or by a
shutdown, once the tasks that wait have been run; no other session is re-armed, and the `OnClosed`
that a re-arm causes itself leads to nothing. -/
structure EndsOnce (l : Webrtc) (counts : EndEvent → Bool) (w : Worker) : Prop where
  once : ∀ gen, w.attempts gen ≤ 1
  caused : ∀ gen own, .attempt gen own ∈ w.marks → own = false ∧
    ∃ e, counts e = true ∧ Precedes (.raised gen e) (.attempt gen own) w.marks
  exits : ∀ gen own, .exit gen own ∈ w.marks → own = false ∧ Precedes (.attempt gen false) (.exit gen own) w.marks
  ended : ∀ gen e, counts e = true → .raised gen e ∈ w.marks → ∀ more : List Turn,
    Runs.Meets (Worker.step l) Worker.Fresh w more → w.queue.length ≤ more.countP Turn.runs →
      (Runs.run (Worker.step l) w more).attempts gen = 1 ∨ (Runs.run (Worker.step l) w more).tearingDown = true

theorem ends_once (l : Webrtc) (f : AudioFactory) (turns : List Turn)
    (hfresh : Runs.Meets (Worker.step l) Worker.Fresh (Worker.started l f) turns) :
    EndsOnce l EndEvent.counts (runWorker l f turns) := by
  have hinv : Worker.Inv (runWorker l f turns) :=
    Runs.invariant_run_meets (Worker.step l) Worker.Fresh Worker.Inv
      (fun w turn ht h => (Worker.step_turned h turn ht l).inv) (Worker.inv_started l f) hfresh
  generalize runWorker l f turns = w at hinv
  refine ⟨hinv.1.once, hinv.1.caused, hinv.1.exits, ?_⟩
  intro gen e he hmem more hmore hlength
  have hgen : gen ≤ w.driver.arm := hinv.1.known gen (.inl ⟨e, hmem⟩)
  refine Worker.run_due hinv hmore hgen ?_ hlength
  obtain hdown | hup := Bool.eq_false_or_eq_true w.tearingDown
  · exact .inl hdown
  obtain hlt | rfl := Nat.lt_or_eq_of_le hgen
  · exact .inr (.inl hlt)
  -- the session that is on: its re-arm waits behind the fence
  obtain ⟨ahead, behind, hopen⟩ := hinv.2 hup
  obtain ⟨bye, own, hbehind⟩ := hopen.owed ⟨e, he, hmem⟩
  exact .inr (.inr (hopen.fenced.due hbehind rfl))

theorem ends_once_three_events :
    let turns := offered ++ [.post (.onEnvelope ⟨.requestRenegotiate, .client, .monostate⟩),
      .post (.onEnvelope ⟨.requestRenegotiate, .client, .monostate⟩),
      .post (.onEnvelope ⟨.bye, .client, .monostate⟩)] ++ List.replicate 8 (.run ready)
    let w := runWorker .permissive ready.audio turns
    EndsOnce .permissive EndEvent.counts w ∧ w.attempts 0 = 1 ∧ w.driver.arm = 1 ∧
      w.queue = [] ∧ w.tearingDown = false := by
  exact ⟨ends_once .permissive ready.audio _ (by decide +kernel), by decide +kernel⟩

theorem held_redial_not_rearmed :
    let turns := serve (.onConnected true) ++ serve (.onConnected true) ++
      [.post (.onConnected true)] ++ List.replicate 4 (.run ready)
    let w := runWorker .permissive ready.audio turns
    Runs.Meets (Worker.step .permissive) Worker.Fresh (Worker.started .permissive ready.audio)
      turns ∧ ¬ EndsOnce .permissive (fun _ => true) w := by
  refine ⟨by decide +kernel, fun h => ?_⟩
  have hended := h.ended 1 (.redial true) rfl (by decide +kernel) [] trivial (by decide +kernel)
  revert hended
  decide +kernel

end Chromeless.MainParts
