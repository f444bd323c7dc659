import Chromeless.LibBag
import Chromeless.LibRuns
import Mathlib.Data.List.Count

/-! The loop that drives the guest's compositor (`cb_begin_frame_driver.cc`): one BeginFrame after the
other, each issued when the one before was acknowledged. -/
namespace Chromeless.BeginFrameDriver
open Runs

def kWatchdogFiresBeforeReissue : ℕ := 15

/-- A running driver. The timers are armed or not; `unacked` has the epochs of the frames that were issued
in this period and not acknowledged, the oldest first. -/
structure Driver where
  nextSequenceNumber : ℕ
  issueEpoch : ℕ
  firstAckReceived : Bool
  watchdogFiresWithoutAck : ℕ
  awaitingReconfigureAck : Bool := false
  reconfigureNudges : ℕ
  nextFrameTimer : Bool := false
  stallWatchdogTimer : Bool := false
  reconfigureNudgeTimer : Bool := false
  unacked : List ℕ := []
  -- fires of the watchdog since the last ack of a frame that was not abandoned
  quietFires : ℕ

namespace Driver

def issueOneBeginFrame (s : Driver) : Driver :=
  { s with
    nextSequenceNumber := s.nextSequenceNumber + 1
    unacked := s.unacked ++ [s.issueEpoch]
    stallWatchdogTimer := true }

def notifyDisplayReconfigured (s : Driver) : Driver :=
  if s.awaitingReconfigureAck then s
  else { s with
    awaitingReconfigureAck := true
    reconfigureNudges := 0
    stallWatchdogTimer := false
    watchdogFiresWithoutAck := 0
    reconfigureNudgeTimer := true }

def onBeginFrameAck (s : Driver) (epoch : ℕ) (early : Bool) : Driver :=
  if epoch ≠ s.issueEpoch then s
  else
    let s := { s with
      firstAckReceived := true
      awaitingReconfigureAck := false
      reconfigureNudgeTimer := s.reconfigureNudgeTimer && !s.awaitingReconfigureAck
      watchdogFiresWithoutAck := 0
      quietFires := 0
      stallWatchdogTimer := false }
    if early then { s with nextFrameTimer := true } else s.issueOneBeginFrame

def onReconfigureNudge (s : Driver) : Driver :=
  if !s.awaitingReconfigureAck then { s with reconfigureNudgeTimer := false }
  else { s with reconfigureNudges := s.reconfigureNudges + 1 }

def onStallWatchdog (s : Driver) : Driver :=
  let s := { s with watchdogFiresWithoutAck := s.watchdogFiresWithoutAck + 1, quietFires := s.quietFires + 1 }
  if s.awaitingReconfigureAck ∨ !s.firstAckReceived ∨ s.watchdogFiresWithoutAck < kWatchdogFiresBeforeReissue then
    { s with stallWatchdogTimer := true }
  else
    { s with issueEpoch := s.issueEpoch + 1, nextFrameTimer := false, watchdogFiresWithoutAck := 0 }.issueOneBeginFrame

end Driver

/-- `ack i` acknowledges the `i`-th frame of those that were not. -/
inductive Event
  | ack (i : ℕ) (early : Bool)
  | watchdog
  | nextFrame
  | nudge
  | reconfigure

def outstanding (s : Driver) : Event → List ℕ
  | .ack i _ => s.unacked.eraseIdx i
  | _ => s.unacked

def step (s : Driver) (e : Event) : Driver :=
  match e with
  | .ack i early =>
    match s.unacked[i]? with
    | none => s
    | some epoch => { s with unacked := outstanding s e }.onBeginFrameAck epoch early
  | .watchdog => if s.stallWatchdogTimer then { s with stallWatchdogTimer := false }.onStallWatchdog else s
  | .nextFrame => if s.nextFrameTimer then { s with nextFrameTimer := false }.issueOneBeginFrame else s
  | .nudge => if s.reconfigureNudgeTimer then s.onReconfigureNudge else s
  | .reconfigure => s.notifyDisplayReconfigured

/-- `Start`. The counters and the latch go on from where an earlier period left them. -/
def start (sequenceNumber epoch fires nudges : ℕ) (firstAck : Bool) : Driver :=
  { nextSequenceNumber := sequenceNumber, issueEpoch := epoch, firstAckReceived := firstAck,
    watchdogFiresWithoutAck := fires, reconfigureNudges := nudges, quietFires := fires : Driver }.issueOneBeginFrame

structure Inv (s : Driver) : Prop where
  past : ∀ epoch ∈ s.unacked, epoch ≤ s.issueEpoch
  idle : s.nextFrameTimer = true → s.unacked.count s.issueEpoch = 0 ∧ s.stallWatchdogTimer = false
  busy : s.nextFrameTimer = false → s.unacked.count s.issueEpoch = 1 ∧
    (s.stallWatchdogTimer = true ∨ s.awaitingReconfigureAck = true)
  nudges : s.reconfigureNudgeTimer = s.awaitingReconfigureAck
  fires : s.watchdogFiresWithoutAck ≤ s.quietFires

variable {s : Driver}

theorem Inv.one (h : Inv s) : s.unacked.count s.issueEpoch ≤ 1 := by
  cases htim : s.nextFrameTimer with
  | true => exact (h.idle htim).1 ▸ Nat.zero_le 1
  | false => exact Nat.le_of_eq (h.busy htim).1

theorem inv_issue (hpast : ∀ epoch ∈ s.unacked, epoch ≤ s.issueEpoch)
    (hnone : s.unacked.count s.issueEpoch = 0) (htim : s.nextFrameTimer = false)
    (hnudge : s.reconfigureNudgeTimer = s.awaitingReconfigureAck) (hfires : s.watchdogFiresWithoutAck ≤ s.quietFires) :
    Inv s.issueOneBeginFrame := by
  refine ⟨fun x hx => ?_, fun hon => absurd (htim.symm.trans hon) (by decide), fun _ => ⟨?_, .inl rfl⟩, hnudge, hfires⟩
  · rcases List.mem_append.mp hx with hx | hx
    · exact hpast x hx
    · exact Nat.le_of_eq (List.mem_singleton.mp hx)
  · simp [Driver.issueOneBeginFrame, hnone]

theorem count_eraseIdx {l : List ℕ} {i x : ℕ} (h : l[i]? = some x) (a : ℕ) :
    (l.eraseIdx i).count a + (if x = a then 1 else 0) = l.count a := by
  conv_rhs => rw [Bag.eq_take_append h]
  simp only [Bag.eraseIdx_eq, List.count_append, List.count_cons, beq_iff_eq]
  omega

theorem mem_of_mem_eraseIdx {l : List ℕ} {i x : ℕ} (h : x ∈ l.eraseIdx i) : x ∈ l :=
  (List.eraseIdx_sublist l i).subset h

theorem inv_ack (h : Inv s) {i epoch : ℕ} (hi : s.unacked[i]? = some epoch) (early : Bool) :
    Inv ({ s with unacked := s.unacked.eraseIdx i }.onBeginFrameAck epoch early) := by
  have hcnt := count_eraseIdx hi s.issueEpoch
  have hpast : ∀ x ∈ s.unacked.eraseIdx i, x ≤ s.issueEpoch := fun x hx => h.past x (mem_of_mem_eraseIdx hx)
  rw [Driver.onBeginFrameAck]
  split
  next hstale =>
    rw [if_neg hstale, Nat.add_zero] at hcnt
    exact ⟨hpast, by simpa only [hcnt] using h.idle, by simpa only [hcnt] using h.busy, h.nudges, h.fires⟩
  next hcurr =>
    rw [if_pos (not_not.mp hcurr)] at hcnt
    have htim : s.nextFrameTimer = false := by
      by_contra hon
      have := (h.idle (by simpa using hon)).1
      omega
    have hnone : (s.unacked.eraseIdx i).count s.issueEpoch = 0 := by
      have := (h.busy htim).1
      omega
    have hnudge : (s.reconfigureNudgeTimer && !s.awaitingReconfigureAck) = false := by
      rw [h.nudges, Bool.and_not_self]
    cases early with
    | true => exact ⟨hpast, fun _ => ⟨hnone, rfl⟩, nofun, hnudge, Nat.le_refl _⟩
    | false => exact inv_issue hpast hnone htim hnudge (Nat.le_refl _)

theorem inv_watchdog (h : Inv s) (hamd : s.stallWatchdogTimer = true) :
    Inv { s with stallWatchdogTimer := false }.onStallWatchdog := by
  have htim : s.nextFrameTimer = false := by
    by_contra hon
    exact absurd (hamd.symm.trans (h.idle (by simpa using hon)).2) (by decide)
  rw [Driver.onStallWatchdog]
  split
  next => exact ⟨h.past, fun hon => absurd (htim.symm.trans hon) (by decide), fun _ => ⟨(h.busy htim).1, .inl rfl⟩,
      h.nudges, Nat.succ_le_succ h.fires⟩
  next =>
    refine inv_issue (fun x hx => Nat.le_succ_of_le (h.past x hx)) (List.count_eq_zero.mpr fun hmem => ?_) rfl
      h.nudges (Nat.zero_le _)
    exact absurd (h.past _ hmem) (Nat.not_succ_le_self _)

theorem inv_step (s : Driver) (e : Event) (h : Inv s) : Inv (step s e) := by
  cases e with
  | ack i early =>
    simp only [step, outstanding]
    split
    next => exact h
    next epoch hi => exact inv_ack h hi early
  | watchdog =>
    rw [step]
    split
    next hamd => exact inv_watchdog h hamd
    next => exact h
  | nextFrame =>
    rw [step]
    split
    next hon => exact inv_issue h.past (h.idle hon).1 rfl h.nudges h.fires
    next => exact h
  | nudge =>
    rw [step]
    split
    next hon =>
      have hawait : s.awaitingReconfigureAck = true := h.nudges ▸ hon
      rw [Driver.onReconfigureNudge, if_neg (by simp [hawait])]
      exact ⟨h.past, h.idle, h.busy, h.nudges, h.fires⟩
    next => exact h
  | reconfigure =>
    rw [step, Driver.notifyDisplayReconfigured]
    split
    next => exact h
    next => exact ⟨h.past, fun hon => ⟨(h.idle hon).1, rfl⟩, fun hoff => ⟨(h.busy hoff).1, .inr rfl⟩, rfl, Nat.zero_le _⟩

theorem inv_run (sequenceNumber epoch fires nudges : ℕ) (firstAck : Bool) (es : List Event) :
    Inv (run step (start sequenceNumber epoch fires nudges firstAck) es) :=
  invariant_run step Inv inv_step (inv_issue (by simp) rfl rfl rfl (Nat.le_refl _)) es

theorem issue_overlaps (h : Inv s) {e : Event}
    (hiss : (step s e).nextSequenceNumber ≠ s.nextSequenceNumber) (hmem : s.issueEpoch ∈ outstanding s e) :
    e = .watchdog ∧ s.firstAckReceived = true ∧ s.awaitingReconfigureAck = false ∧
      kWatchdogFiresBeforeReissue ≤ s.quietFires + 1 := by
  have hpos := List.count_pos_iff.mpr hmem
  cases e with
  | ack i =>
    cases hi : s.unacked[i]? with
    | none => exact absurd (by rw [step, hi]) hiss
    | some x =>
      have hcnt := count_eraseIdx hi s.issueEpoch
      have hone := h.one
      by_cases hx : x = s.issueEpoch
      · rw [if_pos hx] at hcnt
        rw [outstanding] at hpos
        omega
      · exact absurd (by simp [step, hi, Driver.onBeginFrameAck, hx]) hiss
  | watchdog =>
    simp only [step] at hiss
    split at hiss
    next =>
      simp only [Driver.onStallWatchdog] at hiss
      split at hiss
      next => exact absurd rfl hiss
      next hgo =>
        have hfires := h.fires
        simp only [not_or, Bool.not_eq_true, Bool.not_eq_false', Nat.not_lt] at hgo
        exact ⟨rfl, hgo.2.1, hgo.1, Nat.le_trans hgo.2.2 (Nat.succ_le_succ hfires)⟩
    next => exact absurd rfl hiss
  | nextFrame =>
    simp only [step] at hiss
    split at hiss
    next hon => exact absurd (h.idle hon).1 (Nat.ne_of_gt hpos)
    next => exact absurd rfl hiss
  | nudge => exact absurd (by simp only [step, Driver.onReconfigureNudge]; split_ifs <;> rfl) hiss
  | reconfigure => exact absurd (by simp only [step, Driver.notifyDisplayReconfigured]; split_ifs <;> rfl) hiss

/-- In every run of a period: one frame at most of the current epoch has no ack; a frame is issued while one
has none only by the watchdog, after the first ack, while no reconfiguration waits for its ack, and
after as many fires as it takes; the ack of an abandoned frame changes nothing; and some timer is
armed. -/
theorem driver_chained (sequenceNumber epoch fires nudges : ℕ) (firstAck : Bool) (es : List Event) (s : Driver)
    (hs : s = run step (start sequenceNumber epoch fires nudges firstAck) es) :
    s.unacked.count s.issueEpoch ≤ 1 ∧
    (∀ e, (step s e).nextSequenceNumber ≠ s.nextSequenceNumber → s.issueEpoch ∈ outstanding s e →
      e = .watchdog ∧ s.firstAckReceived = true ∧ s.awaitingReconfigureAck = false ∧
        kWatchdogFiresBeforeReissue ≤ s.quietFires + 1) ∧
    (∀ i early x, s.unacked[i]? = some x → x ≠ s.issueEpoch →
      step s (.ack i early) = { s with unacked := s.unacked.eraseIdx i }) ∧
    (s.nextFrameTimer = true ∨ s.stallWatchdogTimer = true ∨ s.reconfigureNudgeTimer = true) := by
  have h : Inv s := hs ▸ inv_run sequenceNumber epoch fires nudges firstAck es
  refine ⟨h.one, fun e hissued hmem => issue_overlaps h hissued hmem, fun i early x hi hstale => ?_, ?_⟩
  · simp [step, hi, Driver.onBeginFrameAck, hstale, outstanding]
  cases htimer : s.nextFrameTimer with
  | true => exact .inl rfl
  | false => exact .inr ((h.busy htimer).2.imp_right h.nudges.trans)

theorem driver_chained_start : (start 1 0 0 0 false).unacked.count 0 ≤ 1 :=
  (driver_chained 1 0 0 0 false [] _ rfl).1

/-- A frame that the watchdog gave up is never acknowledged. After its successor was, and while a
reconfiguration waits, the next frame is issued all the same. -/
def givenUp : List Event :=
  [.ack 0 true, .nextFrame] ++ List.replicate 15 .watchdog ++ [.ack 1 true, .reconfigure]

theorem issued_beside_abandoned : ∃ s, s = run step (start 1 0 0 0 false) givenUp ∧
    s.unacked = [0] ∧ s.issueEpoch = 1 ∧ s.awaitingReconfigureAck = true ∧ s.quietFires = 0 ∧
      (step s .nextFrame).nextSequenceNumber = s.nextSequenceNumber + 1 :=
  ⟨_, rfl, by decide +kernel⟩

/-! ### Permanent death -/

namespace Diagnostics

def kZeroProductionTicksBeforeDeath : ℕ := 6

/-- Whether the callback was set and the capturer there, the frames that it had received since the tick
before, and whether the callback was run. -/
structure Tick where
  armed : Bool
  present : Bool
  frames : ℕ
  died : Bool

structure State where
  running : Bool := false
  diagCapturer : Bool := false
  onPermanentDeath : Bool := false
  lastReportedFramesReceived : ℕ := 0
  consecutiveZeroProductionTicks : ℕ := 0
  permanentDeathSignaled : Bool := false
  framesReceived : ℕ := 0
  -- the frames since the last tick, and the ticks, the last one first
  unseen : ℕ := 0
  ticks : List Tick := []

def State.emitDiagnostic (s : State) : State :=
  let zero := s.framesReceived ≤ s.lastReportedFramesReceived
  let armed := s.diagCapturer ∧ s.onPermanentDeath
  let streak := if armed ∧ zero then s.consecutiveZeroProductionTicks + 1 else 0
  let dies : Bool := armed ∧ kZeroProductionTicksBeforeDeath ≤ streak ∧ !s.permanentDeathSignaled
  { s with
    lastReportedFramesReceived := if s.diagCapturer then s.framesReceived else s.lastReportedFramesReceived
    consecutiveZeroProductionTicks := streak
    permanentDeathSignaled := s.permanentDeathSignaled || dies
    unseen := 0
    ticks := ⟨s.onPermanentDeath, s.diagCapturer, s.unseen, dies⟩ :: s.ticks }

inductive Event
  | start
  | stop
  | setDiagnosticSources (capturer : Bool)
  | setPermanentDeathCallback (set : Bool)
  | frame
  | tick

def step (s : State) : Event → State
  | .start => if s.running then s else { s with running := true, lastReportedFramesReceived := 0 }
  | .stop => { s with running := false }
  | .setDiagnosticSources capturer => { s with diagCapturer := capturer }
  | .setPermanentDeathCallback set => { s with onPermanentDeath := set }
  | .frame => { s with framesReceived := s.framesReceived + 1, unseen := s.unseen + 1 }
  | .tick => if s.running then s.emitDiagnostic else s

/-- The last `n` ticks all had the callback and the capturer, and saw no frame. -/
def Silence (n : ℕ) (ticks : List Tick) : Prop :=
  n ≤ ticks.length ∧ ∀ t ∈ ticks.take n, t.armed = true ∧ t.present = true ∧ t.frames = 0

structure Inv (s : State) : Prop where
  counted : s.lastReportedFramesReceived + s.unseen ≤ s.framesReceived
  streak : Silence s.consecutiveZeroProductionTicks s.ticks
  once : s.ticks.countP Tick.died = s.permanentDeathSignaled.toNat
  deaths : ∀ t before, t :: before <:+ s.ticks → t.died = true → Silence kZeroProductionTicksBeforeDeath (t :: before)

theorem Silence.mono {m n : ℕ} {ticks : List Tick} (h : Silence n ticks) (hle : m ≤ n) : Silence m ticks :=
  ⟨Nat.le_trans hle h.1, fun t ht => h.2 t (List.take_subset_take_left _ hle ht)⟩

theorem Inv.tick {s : State} (h : Inv s) : Inv s.emitDiagnostic := by
  have hcnt := h.counted
  have hsil : Silence s.emitDiagnostic.consecutiveZeroProductionTicks s.emitDiagnostic.ticks := by
    simp only [State.emitDiagnostic]
    split
    · rename_i hzero
      obtain ⟨⟨hpres, hamd⟩, hzero⟩ := hzero
      refine ⟨Nat.succ_le_succ h.streak.1, ?_⟩
      rw [List.take_succ_cons, List.forall_mem_cons]
      exact ⟨⟨hamd, hpres, by dsimp only; omega⟩, h.streak.2⟩
    · exact ⟨Nat.zero_le _, by simp⟩
  refine ⟨?_, hsil, ?_, ?_⟩
  · simp only [State.emitDiagnostic]
    split <;> omega
  · show List.countP Tick.died (_ :: s.ticks) = _
    have hif (b : Bool) : (if b = true then 1 else 0) = b.toNat := by cases b <;> rfl
    rw [List.countP_cons, h.once, hif]
    simp only [State.emitDiagnostic]
    cases s.permanentDeathSignaled <;> simp
  · intro t before hsuff hdied
    obtain heq | hsuff := List.suffix_cons_iff.mp hsuff
    · rw [heq]
      refine hsil.mono ?_
      obtain ⟨rfl, rfl⟩ := List.cons.inj heq
      simp at hdied
      exact hdied.2.1
    · exact h.deaths t before hsuff hdied

/-- The callback runs at most once, and only at the end of a silence. -/
theorem death_after_silence (es : List Event) :
    (run step {} es).ticks.countP Tick.died ≤ 1 ∧
      ∀ t before, t :: before <:+ (run step {} es).ticks → t.died = true →
        Silence kZeroProductionTicksBeforeDeath (t :: before) := by
  have h : Inv (run step {} es) := by
    refine invariant_run step Inv (fun s e h => ?_) ⟨Nat.le_refl _, ⟨Nat.le_refl _, by simp⟩, rfl, ?_⟩ es
    · cases e with
      | start =>
        rw [step]
        split
        · exact h
        · have hcounted := h.counted
          exact ⟨by dsimp only; omega, h.streak, h.once, h.deaths⟩
      | frame => exact ⟨Nat.succ_le_succ h.counted, h.streak, h.once, h.deaths⟩
      | tick =>
        rw [step]
        split
        · exact h.tick
        · exact h
      | _ => exact ⟨h.counted, h.streak, h.once, h.deaths⟩
    · intro t before hsuffix
      cases List.suffix_nil.mp hsuffix
  exact ⟨h.once ▸ Bool.toNat_le _, h.deaths⟩

end Diagnostics

end Chromeless.BeginFrameDriver
