import Chromeless.CaptureHistory
import Mathlib.Data.List.Induction

/-! How an arm of the driver ends. `CloseInternal` is latched; `FailWithReason` is not. -/
namespace Chromeless.Capture
open History Event List
open Event (rearms aside)

def Event.ends : Event → Bool
  | .notify (.closed _) => true
  | .notify (.failed _) => true
  | _ => false

theorem Event.aside_calm (e : Event) (he : e.aside = true) :
    e.rearms = false ∧ e.ends = false := by
  cases e with
  | notify n => cases n <;> simp [aside, rearms, ends] at he ⊢
  | _ => simp [aside, rearms, ends] at he ⊢

namespace Driver

def endings (d : Driver) : ℕ := (sinceLast rearms d.log).countP ends

/-- No task that would fail the driver is run on one that is closed or failed. -/
def Quiet (d : Driver) (a : Act) : Prop := d.state.terminal = true → ¬ a.faults d

instance (d : Driver) (a : Act) : Decidable (d.Quiet a) :=
  inferInstanceAs (Decidable (_ → ¬ _))

structure Latched (d : Driver) : Prop where
  once : AtMostOnce rearms ends d.log
  endings_eq : d.endings = if d.state.terminal then 1 else 0
  torn : d.state = .closed → d.teardownEmitted = true

structure Calm (x y : Driver) : Prop where
  log : ∃ es, y.log = x.log ++ es ∧ ∀ e ∈ es, e.rearms = false ∧ e.ends = false
  live : x.state.terminal = false → y.state.terminal = false
  ended : x.state.terminal = true → y.state = x.state
  torn : x.teardownEmitted = true → y.teardownEmitted = true

variable {x y : Driver} {w : Webrtc} {a : Act}

theorem Calm.of_same (es : List Event) (hlog : y.log = x.log ++ es)
    (hes : ∀ e ∈ es, e.rearms = false ∧ e.ends = false) (hst : y.state = x.state)
    (htorn : y.teardownEmitted = x.teardownEmitted) : Calm x y :=
  ⟨⟨es, hlog, hes⟩, fun h => by rw [hst, h], fun _ => hst, fun h => by rw [htorn, h]⟩

theorem Calm.of_live (es : List Event) (hlog : y.log = x.log ++ es)
    (hes : ∀ e ∈ es, e.rearms = false ∧ e.ends = false) {s : OffererState} (hx : x.state = s)
    (hs : s.terminal = false) (hy : y.state.terminal = false)
    (htorn : y.teardownEmitted = x.teardownEmitted) : Calm x y := by
  subst hx
  exact ⟨⟨es, hlog, hes⟩, fun _ => hy, fun h => absurd h (by simp [hs]), fun h => by rw [htorn, h]⟩

theorem Move.calm_or_ends {d : Driver} (hok : d.Quiet a) (hm : Move w d a x y) :
    Calm x y ∨ (x.state.terminal = false ∨ x.teardownEmitted = false ∧ x.state ≠ .failed) ∧
      (∃ e, y.log = x.log ++ [e] ∧ e.ends = true) ∧ y.state.terminal = true ∧
        (y.state = .closed → y.teardownEmitted = true) ∨
      (∃ bye, a = .rearm bye) ∧ y = x.returnToIdle := by
  cases hm with
  | fail x reason hx => exact .inr (.inl ⟨.inl hx, ⟨_, rfl, rfl⟩, rfl, by simp [notify, note]⟩)
  -- a second failure is what a quiet task does not do
  | refail x reason hx hd ha => exact absurd ha (hok hd)
  | close x reason ht hx => exact .inr (.inl ⟨.inr ⟨ht, hx⟩, ⟨_, rfl, rfl⟩, rfl, fun _ => rfl⟩)
  | returnToIdle x bye ha => exact .inr (.inr ⟨⟨bye, ha⟩, rfl⟩)
  | aside x e he =>
    refine .inl (.of_same [e] rfl ?_ rfl rfl)
    intro e' he'
    rw [mem_singleton.mp he']
    exact e.aside_calm he
  | latch => exact .inl ⟨⟨[], (append_nil _).symm, by simp⟩, id, fun _ => rfl, fun _ => rfl⟩
  | consume | land | bufferOffer | connect | dropOffer =>
    exact .inl (.of_same [] (append_nil _).symm (by simp) rfl rfl)
  | trigger | coalesce | refuseOffer | record | bufferAnswer | queueIce =>
    exact .inl (.of_same [_] rfl (by simp [rearms, ends]) rfl rfl)
  | addIce =>
    refine .inl (.of_same [_, _] (append_assoc _ [_] [_]) ?_ rfl rfl)
    simp [rearms, ends]
  -- the steps of the dance, from one live state to the next
  | localSet x hx => exact .inl (.of_live [] (append_nil _).symm (by simp) hx rfl rfl rfl)
  | forgetEarly x hx => exact .inl (.of_live [] (append_nil _).symm (by simp) hx rfl rfl rfl)
  | start x pc hx => exact .inl (.of_live [.started] rfl (by simp [rearms, ends]) hx rfl rfl rfl)
  | initialOffer _ hx | applyEarly _ _ _ _ hx => exact .inl (.of_live [_] rfl (by simp [rearms, ends]) hx rfl rfl rfl)
  | restart _ _ hx | emitOffer _ _ hx | drainOffer _ _ hx | applyAnswer _ _ _ _ _ hx =>
    refine .inl (.of_live [_, _] (append_assoc _ [_] [_]) ?_ hx rfl rfl rfl)
    simp [rearms, ends]
  | remoteSet arm reason ha harm hx =>
    obtain ⟨es, hlog, hes⟩ := enterIceFlight_events w _
      (fun e => e.rearms = false ∧ e.ends = false) ⟨rfl, rfl⟩ (fun _ _ => ⟨rfl, rfl⟩) ⟨rfl, rfl⟩
    refine .inl (.of_live _ hlog hes hx rfl ?_ ?_)
    · simp [enterIceFlight_eq, OffererState.terminal]
    · simp [enterIceFlight_eq]

theorem latched_new : Latched new := ⟨atMostOnce_nil _ _, rfl, by simp [new]⟩

section
variable (h : Latched x)
include h

theorem Latched.endings_le : x.endings ≤ 1 := by
  rw [h.endings_eq]
  split <;> omega

theorem Latched.calm (hc : Calm x y) : Latched y := by
  obtain ⟨es, hlog, hes⟩ := hc.log
  have hsin : sinceLast rearms y.log = sinceLast rearms x.log ++ es := by
    rw [hlog, sinceLast_append _ fun e he => (hes e he).1]
  have hnone : es.countP ends = 0 := countP_eq_zero.mpr fun e he => by simp [(hes e he).2]
  have hcnt : y.endings = x.endings := by rw [endings, endings, hsin, countP_append, hnone, Nat.add_zero]
  have hterm : y.state.terminal = x.state.terminal := by
    cases hx : x.state.terminal with
    | false => exact hc.live hx
    | true => rw [hc.ended hx, hx]
  refine ⟨?_, ?_, ?_⟩
  · rw [hlog]
    refine h.once.append (fun e he => (hes e he).1) ?_
    rw [countP_append, hnone]
    exact h.endings_le
  · rw [hcnt, h.endings_eq, hterm]
  · intro hy
    have hx : x.state.terminal = true := by rw [← hterm, hy]; rfl
    have hcl : x.state = .closed := by rw [← hc.ended hx, hy]
    exact hc.torn (h.torn hcl)

theorem Latched.finish {e : Event} (hlog : y.log = x.log ++ [e]) (he : e.ends = true) (hx : x.state.terminal = false)
    (hy : y.state.terminal = true) (htorn : y.state = .closed → y.teardownEmitted = true) : Latched y := by
  have hrst : e.rearms = false := by
    cases e <;> simp [ends, rearms] at he ⊢
  have hsin : sinceLast rearms y.log = sinceLast rearms x.log ++ [e] := by
    rw [hlog, sinceLast_append _ (by simpa using hrst)]
  have hzero : x.endings = 0 := by rw [h.endings_eq, hx]; rfl
  have hcnt : y.endings = 1 := by
    rw [endings, hsin, countP_append, countP_singleton, if_pos he]
    rw [endings] at hzero
    omega
  refine ⟨?_, ?_, htorn⟩
  · rw [hlog, atMostOnce_concat, ← hlog]
    exact ⟨h.once, hcnt.le⟩
  · rw [hcnt, hy]
    rfl

theorem Latched.rearm : Latched x.returnToIdle := by
  have hsin : sinceLast rearms x.returnToIdle.log = [] := by exact sinceLast_reset x.log rfl
  refine ⟨?_, ?_, by simp [returnToIdle, note]⟩
  · show AtMostOnce _ _ (x.log ++ [.rearmed])
    rw [atMostOnce_concat, sinceLast_reset x.log rfl]
    exact ⟨h.once, Nat.zero_le 1⟩
  · rw [endings, hsin]
    rfl

theorem Latched.live_of_open (hx : x.state.terminal = false ∨ x.teardownEmitted = false ∧ x.state ≠ .failed) :
    x.state.terminal = false := by
  rcases hx with hx | ⟨ht, hf⟩
  · exact hx
  · have hopen : x.state ≠ .closed := fun hc => by simp [h.torn hc] at ht
    simp [OffererState.terminal, hopen, hf]

end

variable {d : Driver}

theorem Latched.move (hok : d.Quiet a) (hm : Move w d a x y) (h : Latched x) :
    Latched y := by
  rcases hm.calm_or_ends hok with hc | ⟨hx, ⟨e, hlog, he⟩, hy, htorn⟩ | ⟨_, rfl⟩
  · exact h.calm hc
  · exact h.finish hlog he (h.live_of_open hx) hy htorn
  · exact h.rearm

theorem latched_run {acts : List Act} (hm : Runs.Meets (step w) Quiet new acts) :
    Latched (runDriver w acts) :=
  runDriver_invariant w Quiet Latched latched_new (fun _ _ _ _ => Latched.move) hm

theorem Latched.state_kept (h : Latched d) (hok : d.Quiet a)
    (hd : d.state.terminal = true) (ha : ∀ bye, a ≠ .rearm bye) : (d.step w a).state = d.state := by
  have hkept : Latched (d.step w a) ∧ (d.step w a).state = d.state := by
    refine step_invariant (fun y => Latched y ∧ y.state = d.state) ?_ ⟨h, rfl⟩
    rintro x y hxy ⟨hx, hst⟩
    refine ⟨hx.move hok hxy, ?_⟩
    rcases hxy.calm_or_ends hok with hc | ⟨hopen, _⟩ | ⟨⟨bye, hbye⟩, _⟩
    · rw [hc.ended (by rw [hst, hd]), hst]
    · have hlive := hx.live_of_open hopen
      rw [hst, hd] at hlive
      exact absurd hlive (by simp)
    · exact absurd hbye (ha bye)
  exact hkept.2

theorem faults_log (w : Webrtc) (hd : d.state.terminal = true) (ha : a.faults d) :
    ∃ reason, (d.step w a).log = d.log ++ ((if d.pc then [.closePc] else []) ++ [.notify (.failed reason)]) := by
  have hfail : ∀ (x : Driver) (reason : String), x.log = d.log → x.pc = d.pc →
      ∃ reason', (x.failWithReason reason).log =
        d.log ++ ((if d.pc then [.closePc] else []) ++ [.notify (.failed reason')]) := by
    intro x reason hlog hpc
    cases hp : d.pc <;>
      simp [failWithReason, closePcOnSignalingThread, notify, note, hlog, hpc, hp]
  have hst : ∀ s : OffererState, s.terminal = false → d.state ≠ s := by
    intro s hs heq
    rw [heq, hs] at hd
    exact absurd hd (by simp)
  cases a with
  | onError => exact hfail d _ rfl rfl
  | renegotiationNeeded =>
    have hcons : d.initialRenegotiationConsumed = false := ha
    rw [step, hopHandleRenegotiationNeeded, if_neg (by simp [hcons])]
    rw [if_pos (hst .creatingPc rfl)]
    exact hfail _ _ rfl rfl
  | createOfferSuccess =>
    rw [step, land, if_pos ha.2, if_pos ha.1, hopHandleCreateOfferSuccess, if_pos (hst .creatingOffer rfl)]
    exact hfail _ _ rfl rfl
  | createOfferFailure =>
    rw [step, land, if_pos ha.2, if_pos ha.1]
    exact hfail _ _ rfl rfl
  | setLocalDescriptionComplete arm ok =>
    rw [step, land, if_pos ha.2, if_pos ha.1, hopHandleSetLocalDescriptionComplete]
    cases ok with
    | false => exact hfail _ _ rfl rfl
    | true =>
      rw [if_neg (by simp), if_pos (hst .settingLocal rfl)]
      exact hfail _ _ rfl rfl
  | setRemoteDescriptionComplete arm ok =>
    rw [step, land, if_pos ha.2, if_pos ha.1, hopHandleSetRemoteDescriptionComplete]
    cases ok with
    | false => exact hfail _ _ rfl rfl
    | true =>
      rw [if_neg (by simp), if_pos (hst .settingRemote rfl)]
      exact hfail _ _ rfl rfl
  | _ => exact absurd ha (by simp [Act.faults])

theorem Latched.not_once_of_faults (h : Latched d) (hd : d.state.terminal = true)
    (ha : a.faults d) : ¬ AtMostOnce rearms ends (d.step w a).log := by
  intro honce
  obtain ⟨reason, hlog⟩ := faults_log w hd ha
  have hrst : ∀ e ∈ (if d.pc then [closePc] else []) ++ [.notify (.failed reason)], e.rearms = false := by
    cases d.pc <;> simp [rearms]
  have hcnt := honce _ (sinceLast_isSuffix rearms _).isInfix fun e he => not_reset_of_mem_sinceLast he
  have hends : [Event.notify (.failed reason)].countP ends = 1 := rfl
  have hone : d.endings = 1 := by rw [h.endings_eq, hd]; rfl
  rw [hlog, sinceLast_append _ hrst, countP_append, countP_append, hends] at hcnt
  rw [endings] at hone
  omega

end Driver

def TerminalKept (w : Webrtc) (acts : List Act) : Prop :=
  ∀ before a after, acts = before ++ a :: after → (runDriver w before).state.terminal = true →
    (∀ bye, a ≠ .rearm bye) → (runDriver w (before ++ [a])).state = (runDriver w before).state

/-- Per arm, the observer hears of the end at most once and a terminal state is kept,
exactly if nothing that fails the driver reaches one that is closed or failed. -/
theorem one_ending_per_arm_iff (w : Webrtc) (acts : List Act) :
    AtMostOnce rearms ends (runDriver w acts).log ∧ TerminalKept w acts ↔
      Runs.Meets (Driver.step w) Driver.Quiet .new acts := by
  constructor
  · rintro ⟨honce, hkept⟩
    clear hkept
    induction acts using reverseRecOn with
    | nil => trivial
    | append_singleton acts a ih =>
      have hgrows := runDriver_log_concat w acts a
      have hmeets := ih (honce.of_isInfix hgrows.isInfix)
      rw [Runs.meets_append]
      refine ⟨hmeets, ?_, trivial⟩
      intro hterminal hfaults
      rw [runDriver_concat] at honce
      exact (Driver.latched_run hmeets).not_once_of_faults hterminal hfaults honce
  · intro hm
    refine ⟨(Driver.latched_run hm).once, ?_⟩
    rintro before a after rfl hterminal ha
    obtain ⟨hbefore, hok, _⟩ := (Runs.meets_append _ _ _ _ _).mp hm
    rw [runDriver_concat]
    exact (Driver.latched_run hbefore).state_kept hok hterminal ha

def closedMidOffer : List Act :=
  [.start .made, .renegotiationNeeded, .close "done", .createOfferSuccess 0 "offer" [] true]

theorem failed_after_closed :
    ¬ AtMostOnce rearms ends (runDriver .permissive closedMidOffer).log ∧
      ¬ TerminalKept .permissive closedMidOffer := by
  constructor
  · intro h
    have hcount := h _ (infix_refl _) (by decide +kernel)
    exact absurd hcount (by decide +kernel)
  intro h
  have hstate := h (closedMidOffer.take 3) (.createOfferSuccess 0 "offer" [] true) []
    (by decide +kernel) (by decide +kernel) (fun bye => by simp)
  exact absurd hstate (by decide +kernel)

end Chromeless.Capture
