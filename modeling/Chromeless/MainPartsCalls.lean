import Chromeless.MainPartsMoves

/-! What a call of the driver does to the session that is on. -/
namespace Chromeless.MainParts
open Capture List

/-- A redial that is heard while a re-arm is in progress finds a session that has made no offer yet.
-/
def EndEvent.counts : EndEvent → Bool
  | .redial held => !held
  | .closed | .newViewerNeedsOffer | .iceFailed => true

def Timer.Until (t t' : Timer) : Prop :=
  t.serial < t'.serial ∨ t'.serial = t.serial ∧ (t'.running = true → t.running = true)

namespace Timer

theorem Until.refl (t : Timer) : t.Until t := .inr ⟨rfl, id⟩

theorem Until.trans {t t' t'' : Timer} (h : t.Until t') (h' : t'.Until t'') : t.Until t'' := by
  obtain h | ⟨hser, hrun⟩ := h
  · obtain h' | ⟨hser', -⟩ := h'
    · exact .inl (Nat.lt_trans h h')
    · exact .inl (by omega)
  obtain h' | ⟨hser', hrun'⟩ := h'
  · exact .inl (by omega)
  · exact .inr ⟨hser'.trans hser, fun hr => hrun (hrun' hr)⟩

theorem until_start (t : Timer) : t.Until t.start := .inl (Nat.lt_succ_self _)

theorem until_stop (t : Timer) : t.Until t.stop := .inr ⟨rfl, fun h => by cases h⟩

end Timer

namespace Task

def Dated (timer : Timer) : Task → Prop
  | iceFailedGrace serial => serial ≤ timer.serial
  | _ => True

def Spent (timer : Timer) : Task → Prop
  | iceFailedGrace serial => serial ≤ timer.serial ∧ (timer.running = true → serial < timer.serial)
  | _ => True

variable {timer timer' : Timer} {t : Task}

theorem Dated.mono (h : timer.Until timer') (ht : t.Dated timer) : t.Dated timer' := by
  cases t with
  | iceFailedGrace serial =>
    change serial ≤ timer.serial at ht
    show serial ≤ timer'.serial
    obtain h | ⟨h, -⟩ := h <;> omega
  | _ => trivial

theorem Spent.mono (h : timer.Until timer') (ht : t.Spent timer) : t.Spent timer' := by
  cases t with
  | iceFailedGrace =>
    obtain ⟨hle, hlt⟩ := ht
    obtain h | ⟨h, hrun⟩ := h
    · exact ⟨by omega, fun _ => by omega⟩
    refine ⟨by omega, fun hr => ?_⟩
    have := hlt (hrun hr)
    omega
  | _ => trivial

theorem Dated.spent (ht : t.Dated timer) (hstop : timer.running = false) : t.Spent timer := by
  cases t with
  | iceFailedGrace => exact ⟨ht, fun h => absurd h (by simp [hstop])⟩
  | _ => trivial

end Task

namespace Worker

def Live (w : Worker) : Prop := w.driver.state ≠ .failed ∧ w.permanentDeathSignaled = false

structure Goes (w v : Worker) (ts : List Task) (ms : List Mark) : Prop where
  arm : v.driver.arm = w.driver.arm
  rearming : v.rearming = w.rearming
  started : v.nativeSessionStarted = w.nativeSessionStarted
  looping : v.looping = w.looping
  parked : v.tearingDown = false → v.quitMainMessageLoop = w.quitMainMessageLoop
  down : w.tearingDown = true → v.tearingDown = true
  timer : w.iceFailedTeardownTimer.Until v.iceFailedTeardownTimer
  queue : v.queue = w.queue ++ ts
  marks : v.marks = w.marks ++ ms
  tasks : ∀ t ∈ ts, ∃ bye, t = .rearmOrShutdown bye false
  raised : ∀ m ∈ ms, ∃ e, m = .raised w.driver.arm e
  posted : v.tearingDown = false → (∃ e, e.counts = true ∧ .raised w.driver.arm e ∈ ms) → ts ≠ []
  caused : ts ≠ [] → ∃ e, e.counts = true ∧ .raised w.driver.arm e ∈ ms

section
variable {l : Webrtc} {w v u : Worker} {ts ts' : List Task} {ms ms' : List Mark}

theorem Goes.still (harm : v.driver.arm = w.driver.arm) (hrea : v.rearming = w.rearming)
    (hstd : v.nativeSessionStarted = w.nativeSessionStarted) (hloop : v.looping = w.looping)
    (hprk : v.tearingDown = false → v.quitMainMessageLoop = w.quitMainMessageLoop)
    (hdown : w.tearingDown = true → v.tearingDown = true)
    (htim : w.iceFailedTeardownTimer.Until v.iceFailedTeardownTimer)
    (hqu : v.queue = w.queue) (hmks : v.marks = w.marks) : Goes w v [] [] :=
  ⟨harm, hrea, hstd, hloop, hprk, hdown, htim,
    by rw [hqu, append_nil], by rw [hmks, append_nil], by simp, by simp,
    by simp, by simp⟩

theorem Goes.refl (w : Worker) : Goes w w [] [] :=
  .still rfl rfl rfl rfl (fun _ => rfl) id (.refl _) rfl rfl

theorem Goes.up (h : Goes w v ts ms) (hv : v.tearingDown = false) : w.tearingDown = false := by
  by_contra hw
  have hdown := h.down (by simpa using hw)
  simp [hv] at hdown

theorem Goes.trans (h : Goes w v ts ms) (h' : Goes v u ts' ms') :
    Goes w u (ts ++ ts') (ms ++ ms') := by
  refine ⟨h'.arm.trans h.arm, h'.rearming.trans h.rearming, h'.started.trans h.started,
    h'.looping.trans h.looping, ?_, fun hw => h'.down (h.down hw), h.timer.trans h'.timer, ?_, ?_,
    ?_, ?_, ?_, ?_⟩
  · intro hu
    exact (h'.parked hu).trans (h.parked (h'.up hu))
  · rw [h'.queue, h.queue, append_assoc]
  · rw [h'.marks, h.marks, append_assoc]
  · exact forall_mem_append.mpr ⟨h.tasks, h'.tasks⟩
  · exact forall_mem_append.mpr ⟨h.raised, h.arm ▸ h'.raised⟩
  · rintro hu ⟨e, he, hmem⟩ hnil
    obtain ⟨hts, hts'⟩ := append_eq_nil_iff.mp hnil
    obtain hmem | hmem := mem_append.mp hmem
    · exact h.posted (h'.up hu) ⟨e, he, hmem⟩ hts
    · rw [← h.arm] at hmem
      exact h'.posted hu ⟨e, he, hmem⟩ hts'
  · intro hne
    by_cases hts : ts = []
    · obtain ⟨e, he, hmem⟩ := h'.caused fun hts' => hne (by rw [hts, hts']; rfl)
      rw [h.arm] at hmem
      exact ⟨e, he, mem_append_right _ hmem⟩
    · obtain ⟨e, he, hmem⟩ := h.caused hts
      exact ⟨e, he, mem_append_left _ hmem⟩

theorem Goes.raise (w : Worker) {e : EndEvent} (he : e.counts = true) (bye : Bool) :
    Goes w ((w.mark (.raised w.driver.arm e)).post (.rearmOrShutdown bye false))
      [.rearmOrShutdown bye false] [.raised w.driver.arm e] :=
  ⟨rfl, rfl, rfl, rfl, fun _ => rfl, id, .refl _, rfl, rfl, by simp, by simp, by simp,
    fun _ => ⟨e, he, mem_singleton_self _⟩⟩

theorem Goes.note (w : Worker) (e : EndEvent) (h : e.counts = false ∨ w.tearingDown = true) :
    Goes w (w.mark (.raised w.driver.arm e)) [] [.raised w.driver.arm e] := by
  refine ⟨rfl, rfl, rfl, rfl, fun _ => rfl, id, .refl _, (append_nil _).symm, rfl, by simp, by simp, ?_, by simp⟩
  rintro hopen ⟨e', he', hmem⟩
  obtain ⟨-, rfl⟩ : w.driver.arm = w.driver.arm ∧ e' = e := by simpa using hmem
  obtain h | h := h
  · simp [h] at he'
  · change w.tearingDown = false at hopen
    simp [h] at hopen

theorem hear_goes {escalate : Worker → Worker} (hesc : ∀ w : Worker, ∃ ts ms, Goes w (escalate w) ts ms)
    (w : Worker) (n : Notification) : ∃ ts ms, Goes w (hear escalate w.driver.arm false w n) ts ms := by
  -- the lifecycle's own part
  have haud : Goes w { w with audio := w.audio.observe n } [] [] :=
    .still rfl rfl rfl rfl (fun _ => rfl) id (.refl _) rfl rfl
  cases n with
  | iceConnectionStateChanged state =>
    refine ⟨[], [], haud.trans ?_⟩
    cases state with
    | failed =>
      simp only [hear, onIceConnectionStateChanged]
      split
      · exact .still rfl rfl rfl rfl (fun _ => rfl) id (Timer.until_start _) rfl rfl
      · exact .still rfl rfl rfl rfl (fun _ => rfl) id (.refl _) rfl rfl
    | connected | completed => exact .still rfl rfl rfl rfl (fun _ => rfl) id (Timer.until_stop _) rfl rfl
    | _ => exact .still rfl rfl rfl rfl (fun _ => rfl) id (.refl _) rfl rfl
  | newViewerNeedsOffer => exact ⟨_, _, haud.trans (.raise _ rfl false)⟩
  | closed reason =>
    simp only [hear, onClosed]
    split
    next hdown => exact ⟨_, _, haud.trans (.note _ .closed (.inr hdown))⟩
    · exact ⟨_, _, haud.trans (.raise _ rfl true)⟩
  | failed reason =>
    simp only [hear, onFailed]
    split
    · exact ⟨_, _, haud⟩
    · obtain ⟨ts, ms, h⟩ := hesc { w with audio := w.audio.observe (.failed reason) }
      exact ⟨_, _, haud.trans h⟩
  | renegotiationStarted | renegotiationCompleted => exact ⟨_, _, haud⟩

theorem foldl_hear_goes {escalate : Worker → Worker} (hesc : ∀ w : Worker, ∃ ts ms, Goes w (escalate w) ts ms)
    (ns : List Notification) (w : Worker) {gen : ℕ} (hgen : gen = w.driver.arm) :
    ∃ ts ms, Goes w (ns.foldl (hear escalate gen false) w) ts ms := by
  induction ns generalizing w with
  | nil => exact ⟨_, _, .refl w⟩
  | cons n ns ih =>
    obtain ⟨ts, ms, h⟩ := hear_goes hesc w n
    rw [← hgen] at h
    obtain ⟨ts', ms', h'⟩ := ih (hear escalate gen false w n) (by rw [h.arm, hgen])
    exact ⟨_, _, h.trans h'⟩

theorem callWith_goes (escalate : Worker → Worker) (hesc : ∀ w : Worker, ∃ ts ms, Goes w (escalate w) ts ms)
    (w : Worker) {a : Act} (ha : ∀ bye, a ≠ .rearm bye) :
    ∃ ts ms, Goes w (w.callWith l escalate w.driver.arm false a) ts ms := by
  have harm := (Driver.step_watched l w.driver a).arm ha
  have hstep : Goes w { w with driver := w.driver.step l a } [] [] :=
    .still harm rfl rfl rfl (fun _ => rfl) id (.refl _) rfl rfl
  obtain ⟨ts, ms, h⟩ := foldl_hear_goes hesc (w.driver.news (w.driver.step l a))
    { w with driver := w.driver.step l a } harm.symm
  exact ⟨_, _, hstep.trans h⟩

theorem onGpuPermanentDeath_goes (l : Webrtc) (w : Worker) :
    ∃ ts ms, Goes w (w.onGpuPermanentDeath l) ts ms := by
  unfold onGpuPermanentDeath
  split
  · exact ⟨_, _, .refl w⟩
  have hdown : Goes w { w with
      permanentDeathSignaled := true, audio := w.audio.prepareForTeardown
      tearingDown := true } [] [] :=
    .still rfl rfl rfl rfl (fun h => by cases h) (fun _ => rfl) (.refl _) rfl rfl
  obtain ⟨ts, ms, h⟩ := callWith_goes (l := l) id (fun w => ⟨_, _, .refl w⟩)
    { w with
      permanentDeathSignaled := true, audio := w.audio.prepareForTeardown, tearingDown := true }
    (a := .closeUnhealthy "gpu-permanent-death") (by simp)
  have hall := hdown.trans h
  dsimp only
  split
  · refine ⟨_, _, hall.trans (.still rfl rfl rfl rfl ?_ id (.refl _) rfl rfl)⟩
    intro hopen
    exact absurd (h.down rfl) (by simpa using hopen)
  · exact ⟨_, _, hall⟩

theorem call_goes (l : Webrtc) (w : Worker) {a : Act} (ha : ∀ bye, a ≠ .rearm bye) :
    ∃ ts ms, Goes w (w.call l w.driver.arm false a) ts ms :=
  callWith_goes _ (onGpuPermanentDeath_goes l) w ha

/-! ### A driver that fails takes the worker down -/

theorem onGpuPermanentDeath_down (l : Webrtc) {w : Worker}
    (hw : w.permanentDeathSignaled = false) : (w.onGpuPermanentDeath l).tearingDown = true := by
  obtain ⟨ts, ms, h⟩ := callWith_goes (l := l) id (fun w => ⟨_, _, .refl w⟩)
    { w with
      permanentDeathSignaled := true, audio := w.audio.prepareForTeardown, tearingDown := true }
    (a := .closeUnhealthy "gpu-permanent-death") (by simp)
  have hdown := h.down rfl
  rw [onGpuPermanentDeath, if_neg (by simp [hw])]
  dsimp only
  split <;> exact hdown

def Kept (w v : Worker) : Prop := v.tearingDown = false → w.tearingDown = false ∧
  v.driver = w.driver ∧ v.permanentDeathSignaled = w.permanentDeathSignaled

theorem Kept.trans (h : Kept w v) (h' : Kept v u) : Kept w u := by
  intro hu
  obtain ⟨hv, hdr', hsig'⟩ := h' hu
  obtain ⟨hw, hdr, hsig⟩ := h hv
  exact ⟨hw, hdr'.trans hdr, hsig'.trans hsig⟩

section
variable (l : Webrtc) (gen : ℕ) (own : Bool)

theorem hear_kept (w : Worker) (n : Notification) :
    Kept w (hear (onGpuPermanentDeath l) gen own w n) := by
  have hsame : ∀ v : Worker, v.tearingDown = w.tearingDown → v.driver = w.driver →
      v.permanentDeathSignaled = w.permanentDeathSignaled → Kept w v :=
    fun v hdown hdr hsig hv => ⟨hdown ▸ hv, hdr, hsig⟩
  cases n with
  | iceConnectionStateChanged state =>
    cases state with
    | failed =>
      simp only [hear, onIceConnectionStateChanged]
      split <;> exact hsame _ rfl rfl rfl
    | _ => exact hsame _ rfl rfl rfl
  | newViewerNeedsOffer | renegotiationStarted | renegotiationCompleted => exact hsame _ rfl rfl rfl
  | closed =>
    simp only [hear, onClosed]
    split <;> exact hsame _ rfl rfl rfl
  | failed =>
    simp only [hear, onFailed]
    split
    · exact hsame _ rfl rfl rfl
    by_cases hsig : w.permanentDeathSignaled = true
    · rw [onGpuPermanentDeath, if_pos hsig]
      exact hsame _ rfl rfl rfl
    intro hup
    rw [onGpuPermanentDeath_down l (by simpa using hsig)] at hup
    cases hup

theorem foldl_hear_kept (ns : List Notification) (w : Worker) :
    Kept w (ns.foldl (hear (onGpuPermanentDeath l) gen own) w) := by
  induction ns generalizing w with
  | nil => exact fun h => ⟨h, rfl, rfl⟩
  | cons n ns ih => exact (hear_kept l gen own w n).trans (ih _)

theorem hear_failed (reason : String) {w : Worker} (hw : w.permanentDeathSignaled = false) :
    (hear (onGpuPermanentDeath l) gen own w (.failed reason)).tearingDown = true := by
  simp only [hear, onFailed]
  split
  · assumption
  · exact onGpuPermanentDeath_down l hw

theorem foldl_hear_failed {ns : List Notification} {reason : String} (hmem : .failed reason ∈ ns) {w : Worker}
    (hw : w.permanentDeathSignaled = false) :
    (ns.foldl (hear (onGpuPermanentDeath l) gen own) w).tearingDown = true := by
  induction ns generalizing w with
  | nil => cases hmem
  | cons n ns ih =>
    by_contra hup
    obtain ⟨hfst, -, -⟩ := foldl_hear_kept l gen own ns _ (by simpa using hup)
    obtain hn | hmem := mem_cons.mp hmem
    · rw [← hn, hear_failed l gen own reason hw] at hfst
      cases hfst
    · obtain ⟨-, -, hsig⟩ := hear_kept l gen own w n hfst
      exact hup (ih hmem (hsig.trans hw))

theorem call_live {w : Worker} (a : Act) (hw : Live w)
    (h : (w.call l gen own a).tearingDown = false) : Live (w.call l gen own a) := by
  obtain ⟨-, hdr, hsig⟩ := foldl_hear_kept l gen own _ _ h
  refine ⟨?_, hsig.trans hw.2⟩
  rw [call, callWith, hdr]
  intro hfld
  obtain ⟨reason, hmem⟩ := Driver.exists_failed_news l hw.1 hfld
  have hdown := foldl_hear_failed l gen own hmem (w := { w with driver := w.driver.step l a }) hw.2
  rw [call, callWith, hdown] at h
  cases h

end

end

end Worker

end Chromeless.MainParts
