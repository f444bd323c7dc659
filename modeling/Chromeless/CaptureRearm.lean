import Chromeless.CaptureIce

/-! What a re-armed driver makes of envelopes that were meant for the session before. -/
namespace Chromeless.Capture
open Json History Event OffererState List Runs

def Event.uses (n : ℕ) : Event → Bool
  | .issued _ (.setRemoteDescription m _) => m = n
  | .addIceCandidate m _ => m = n
  | _ => false

def Envelope.fromViewer (env : Envelope) : Bool :=
  env.type = .answer || env.type = .ice || env.type = .bye || env.type = .requestRenegotiate

namespace Driver

/-- Re-armed and started again, and the offer of the new session has not been handed over. -/
def awaitsFirstOffer (d : Driver) : Prop :=
  0 < d.arm ∧ (d.state = .creatingPc ∨ d.state = .creatingOffer) ∧ offersMade d.log = 0

instance (d : Driver) : Decidable d.awaitsFirstOffer := inferInstanceAs (Decidable (_ ∧ _ ∧ _))

/-- Before the first offer of a re-armed session no answer arrives, and once that offer is
being created no `bye` and, if ICE was ever in flight, no candidate does. -/
def Undisturbed (d : Driver) : Act → Prop
  | .onEnvelope env => d.awaitsFirstOffer → env.type ≠ .answer ∧
    (d.state = .creatingOffer → env.type ≠ .bye ∧ (env.type = .ice → d.wasInIceFlightOnce = false))
  | _ => True

instance (d : Driver) (a : Act) : Decidable (d.Undisturbed a) :=
  match a with
  | .onEnvelope _ => inferInstanceAs (Decidable (_ → _ ∧ (_ → _ ∧ (_ → _))))
  | .start _ | .rearm _ | .requestRenegotiation | .close _ | .closeUnhealthy _ | .onConnected _
  | .onClosed _ _ | .onError _ | .iceCandidate _ | .iceGatheringChange _ | .iceConnectionChange _
  | .renegotiationNeeded | .createOfferSuccess _ _ _ _ | .createOfferFailure _ _
  | .setLocalDescriptionComplete _ _ _ | .setRemoteDescriptionComplete _ _ _ => inferInstanceAs (Decidable True)

end Driver

/-- What a viewer sends before the first offer of a re-armed session neither ends the session nor is
ever applied. -/
def Isolated (w : Webrtc) (acts : List Act) : Prop :=
  ∀ before env after, acts = before ++ .onEnvelope env :: after →
    (runDriver w before).awaitsFirstOffer → env.fromViewer = true →
      (runDriver w (before ++ [.onEnvelope env])).state.terminal = false ∧
        ∀ e ∈ (runDriver w acts).log, e.uses (runDriver w before).seen = false

namespace Driver
variable {w : Webrtc} {d x y : Driver} {a : Act}

structure NotHeld (n : ℕ) (d : Driver) : Prop where
  log : ∀ e ∈ d.log, e.uses n = false
  queue : ∀ p ∈ d.pendingRemoteIce, p.1 ≠ n
  early : ∀ sdp, d.pendingEarlyAnswerSdp ≠ some (n, sdp)

theorem NotHeld.frame {n : ℕ} (h : NotHeld n x) (es : List Event) (hlog : y.log = x.log ++ es)
    (hes : ∀ e ∈ es, e.uses n = false) (hice : y.pendingRemoteIce = [] ∨ y.pendingRemoteIce = x.pendingRemoteIce)
    (hear : y.pendingEarlyAnswerSdp = none ∨ y.pendingEarlyAnswerSdp = x.pendingEarlyAnswerSdp) : NotHeld n y := by
  refine ⟨?_, ?_, ?_⟩
  · rw [hlog]
    exact forall_mem_append.mpr ⟨h.log, hes⟩
  · rcases hice with hnil | heq
    · simp [hnil]
    · rw [heq]
      exact h.queue
  · rcases hear with hnone | heq
    · simp [hnone]
    · rw [heq]
      exact h.early

theorem NotHeld.move {n : ℕ} (hm : Move w d a x y) (hn : n ≠ d.seen ∨ y.seen = x.seen)
    (h : NotHeld n x) : NotHeld n y := by
  have hseen : y.seen = d.seen + 1 → x.seen = d.seen → n ≠ d.seen := by
    intro hy hx
    rcases hn with hn | hn
    · exact hn
    · omega
  cases hm with
  | aside x e he =>
    refine h.frame [e] rfl ?_ (.inr rfl) (.inr rfl)
    cases e <;> simp [Event.aside, uses] at he ⊢
  | fail | refail | close => exact h.frame [_] rfl (by simp [uses]) (.inl rfl) (.inr rfl)
  | returnToIdle => exact h.frame [_] rfl (by simp [uses]) (.inl rfl) (.inl rfl)
  | latch | consume | land | bufferOffer | connect | dropOffer | localSet =>
    exact h.frame [] (append_nil _).symm (by simp) (.inr rfl) (.inr rfl)
  | forgetEarly => exact h.frame [] (append_nil _).symm (by simp) (.inr rfl) (.inl rfl)
  | trigger | coalesce | refuseOffer | start | initialOffer | record =>
    exact h.frame [_] rfl (by simp [uses]) (.inr rfl) (.inr rfl)
  | restart | emitOffer | drainOffer =>
    exact h.frame [_, _] (append_assoc _ [_] [_]) (by simp [uses]) (.inr rfl) (.inr rfl)
  -- what a task brings carries the number `d.seen`, and that is not `n`
  | bufferAnswer env sdp =>
    have hr : NotHeld n (d.record env) := h.frame [_] rfl (by simp [uses]) (.inr rfl) (.inr rfl)
    refine ⟨hr.log, hr.queue, ?_⟩
    intro sdp' heq
    have hpair : d.seen = n ∧ sdp = sdp' := by simpa using heq
    exact hseen rfl rfl hpair.1.symm
  | applyAnswer | addIce =>
    refine h.frame [_, _] (append_assoc _ [_] [_]) ?_ (.inr rfl) (.inr rfl)
    have hne : d.seen ≠ n := fun heq => hseen rfl rfl heq.symm
    simp [uses, hne]
  | applyEarly x m sdp remote hx hop hp =>
    -- only what was held back can be applied later
    refine h.frame [_] rfl ?_ (.inr rfl) (.inl rfl)
    have hne : m ≠ n := fun heq => h.early sdp (heq ▸ hp)
    simp [uses, hne]
  | queueIce env =>
    have hr : NotHeld n (d.record env) := h.frame [_] rfl (by simp [uses]) (.inr rfl) (.inr rfl)
    refine ⟨hr.log, ?_, hr.early⟩
    intro q hq
    rcases mem_append.mp hq with hq | hq
    · exact h.queue q hq
    · rw [mem_singleton.mp hq]
      exact fun heq => hseen rfl rfl heq.symm
  | remoteSet =>
    have hlog := remoteSet_log w d
    rw [append_assoc] at hlog
    refine h.frame ([.remoteSet] ++ flush w d) hlog ?_ (.inl (by simp [enterIceFlight_eq]))
      (.inr (by simp [enterIceFlight_eq]))
    have hflush := flush_events w d (fun e => e.uses n = false) (fun p hp => by simp [uses, h.queue p hp]) rfl
    intro e he
    rcases mem_append.mp he with he | he
    · rw [mem_singleton.mp he]
      rfl
    · exact hflush e he

theorem Move.seen (hm : Move w d a x y) :
    y.seen = x.seen ∨ x.seen = d.seen ∧ y.seen = d.seen + 1 := by
  cases hm with
  | record | bufferAnswer | applyAnswer | queueIce | addIce => exact .inr ⟨rfl, rfl⟩
  | remoteSet => exact .inl (by simp [enterIceFlight_eq])
  | _ => exact .inl rfl

theorem notHeld_run (w : Webrtc) (acts : List Act) :
    ∀ n, (runDriver w acts).seen ≤ n → NotHeld n (runDriver w acts) := by
  refine runDriver_invariant w (fun _ _ => True) (fun d => ∀ n, d.seen ≤ n → NotHeld n d) ?_ ?_ (meets_true _ _ _)
  · exact fun n _ => ⟨by simp [new], by simp [new], by simp [new]⟩
  intro d a x y _ hm h n hn
  rcases hm.seen with hsame | ⟨hx, hy⟩
  · exact (h n (hsame ▸ hn)).move hm (.inr hsame)
  · exact (h n (by omega)).move hm (.inl (by omega))

theorem NotHeld.run {n : ℕ} (h : NotHeld n d) (hn : n < d.seen) (acts : List Act) :
    NotHeld n (run (step w) d acts) := by
  have hstep : ∀ d a, n < d.seen ∧ NotHeld n d → n < (step w d a).seen ∧ NotHeld n (step w d a) := by
    rintro d a ⟨hlt, hd⟩
    refine step_invariant (fun y => n < y.seen ∧ NotHeld n y) ?_ ⟨hlt, hd⟩
    rintro x y hm ⟨hx, hnot⟩
    refine ⟨?_, hnot.move hm (.inl (by omega))⟩
    rcases hm.seen with hsame | ⟨_, hy⟩ <;> omega
  exact (invariant_run (step w) (fun d => n < d.seen ∧ NotHeld n d) hstep ⟨hn, h⟩ acts).2

theorem stale_envelope_ignored {env : Envelope} (hd : d.awaitsFirstOffer)
    (hok : d.Undisturbed (.onEnvelope env)) (henv : env.fromViewer = true) :
    (d.step w (.onEnvelope env)).state = d.state ∧
      (d.step w (.onEnvelope env)).seen = d.seen + 1 ∧
      (d.step w (.onEnvelope env)).pendingRemoteIce = d.pendingRemoteIce ∧
      (d.step w (.onEnvelope env)).pendingEarlyAnswerSdp = d.pendingEarlyAnswerSdp ∧
      ∃ es, (d.step w (.onEnvelope env)).log = d.log ++ es ∧ ∀ n, ∀ e ∈ es, e.uses n = false := by
  obtain ⟨hans, hcrt⟩ := hok hd
  have hstate := hd.2.1
  rw [step, onEnvelope, if_neg (by rcases hstate with hs | hs <;> simp [hs, terminal]), dispatch]
  cases htype : env.type with
  | ice =>
    have hdrop : ¬ (d.record env).canQueueMidDance := by
      rcases hstate with hs | hs
      · simp [canQueueMidDance, record, note, hs, le_iff, OffererState.toNat]
      · have honce := (hcrt hs).2 htype
        simp [canQueueMidDance, record, note, hs, honce, le_iff, OffererState.toNat]
    have hne : (d.record env).state ≠ .iceInFlight := by
      rcases hstate with hs | hs <;> simp [record, note, hs]
    simp only [handleIceEnvelope, if_pos hne, if_neg hdrop]
    exact ⟨rfl, rfl, rfl, rfl, [_], rfl, by simp [uses]⟩
  | bye =>
    -- before `CreateOffer` a `bye` is taken for an echo of the last session
    have hpc : d.state = .creatingPc := by
      rcases hstate with hs | hs
      · exact hs
      · exact absurd htype (hcrt hs).1
    have hidle : (d.record env).state = .idle ∨ (d.record env).state = .creatingPc := .inr hpc
    simp only [handleByeEnvelope, if_pos hidle]
    exact ⟨rfl, rfl, rfl, rfl, [_], rfl, by simp [uses]⟩
  | requestRenegotiate =>
    have heq : ((d.record env).note
          (.triggered .remote (d.record env).state)).handleRequestRenegotiateEnvelope =
        { (d.record env).note (.triggered .remote (d.record env).state) with
          pendingRenegotiation := true } := by
      rcases hstate with hs | hs <;>
        simp [handleRequestRenegotiateEnvelope, record, note, hs]
    simp only [heq]
    exact ⟨rfl, rfl, rfl, rfl, [_, _], append_assoc _ [_] [_], by simp [uses]⟩
  | answer => exact absurd htype hans
  | _ => simp [Envelope.fromViewer, htype] at henv

end Driver

/-- A re-armed session is not touched by what was sent to the one before, if no answer comes before
its first offer, and no `bye` or candidate while that offer is being created. -/
theorem rearmed_session_isolated (w : Webrtc) (acts : List Act)
    (hm : Meets (Driver.step w) Driver.Undisturbed .new acts) : Isolated w acts := by
  rintro before env after rfl hd henv
  obtain ⟨_, hok, _⟩ := (meets_append _ _ _ _ _).mp hm
  obtain ⟨hstate, hseen, hice, hearly, es, hlog, hes⟩ := Driver.stale_envelope_ignored (w := w) hd hok henv
  have hnot : Driver.NotHeld (runDriver w before).seen ((runDriver w before).step w (.onEnvelope env)) :=
    (Driver.notHeld_run w before _ le_rfl).frame es hlog (hes _) (.inr hice) (.inr hearly)
  refine ⟨?_, ?_⟩
  · rw [runDriver_concat, hstate]
    rcases hd.2.1 with hs | hs <;> rw [hs] <;> rfl
  have hrest := hnot.run (w := w) (by omega) after
  rw [runDriver, run_append]
  exact hrest.log

def byeFromViewer : Act := .onEnvelope ⟨.bye, .client, .monostate⟩

def rearmedOnce : List Act := firstDance [2] ++ [byeFromViewer, .rearm false, .start .made]

/-- A second `bye`, a candidate and a request of the viewer who left come while the new
PeerConnection is being made. -/
def doubledBye : List Act :=
  rearmedOnce ++ byeFromViewer :: candidateWith [11] ::
    .onEnvelope ⟨.requestRenegotiate, .client, .monostate⟩ :: .renegotiationNeeded ::
      danceIn 1 [3] [4]

theorem rearmed_session_isolated_doubledBye :
    Isolated .permissive doubledBye ∧ (runDriver .permissive rearmedOnce).awaitsFirstOffer :=
  ⟨rearmed_session_isolated _ _ (by decide +kernel), by decide +kernel⟩

def lateIn (stale : Act) : List Act := rearmedOnce ++ [.renegotiationNeeded, stale]

theorem stale_envelopes_reach_new_session :
    ¬ Isolated .permissive (lateIn byeFromViewer) ∧
      ¬ Isolated .permissive (rearmedOnce ++ [answerWith [2]]) ∧
      ¬ Isolated .permissive (lateIn (candidateWith [11]) ++ danceIn 1 [3] [4]) := by
  refine ⟨?_, ?_, ?_⟩
  · intro h
    have hstep := (h (rearmedOnce ++ [.renegotiationNeeded]) _ [] rfl (by decide +kernel) rfl).1
    exact absurd hstep (by decide +kernel)
  · intro h
    have hstep := (h rearmedOnce _ [] rfl (by decide +kernel) rfl).1
    exact absurd hstep (by decide +kernel)
  · intro h
    have hlog := (h (rearmedOnce ++ [.renegotiationNeeded]) _ (danceIn 1 [3] [4]) rfl (by decide +kernel) rfl).2
    exact absurd hlog (by decide +kernel)

end Chromeless.Capture
