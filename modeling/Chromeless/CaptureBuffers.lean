import Chromeless.CaptureHistory

/-! What the driver holds back and when. -/
namespace Chromeless.Capture
open Json History Event OffererState List

def OffererState.inDance : OffererState → Bool
  | .creatingOffer | .settingLocal | .awaitingAnswer | .settingRemote => true
  | _ => false

def OffererState.beforeLocal : OffererState → Bool
  | .creatingOffer | .settingLocal => true
  | _ => false

def OffererState.answered : OffererState → Bool
  | .settingRemote | .iceInFlight => true
  | _ => false

def Event.begins : Event → Bool
  | .issued _ .createOffer => true
  | .rearmed => true
  | _ => false

def dance (log : List Event) : List Event := sinceLast begins log

def Event.inert : Event → Bool
  | .issued _ (.setLocalDescription _) => true
  | .issued _ _ => false
  | .rearmed | .envelope _ _ | .addIceCandidate _ _ => false
  | _ => true

variable {e : Event}

theorem Event.inert_begins (he : e.inert = true) : e.begins = false := by
  rcases e with _ | _ | _ | _ | _ | ⟨_, _ | _ | _⟩ | _ | _ | _ | _ <;>
    simp [inert, begins] at he ⊢

theorem Event.inert_applies (he : e.inert = true) : e.appliesAnswer = false := by
  rcases e with _ | _ | _ | _ | _ | ⟨_, _ | _ | _⟩ | _ | _ | _ | _ <;>
    simp [inert, appliesAnswer] at he ⊢

theorem Event.inert_of_aside (he : e.aside = true) : e.inert = true := by
  cases e <;> simp [inert, Event.aside] at he ⊢

theorem dance_append (log : List Event) {es : List Event} (hes : ∀ e ∈ es, e.inert = true) :
    dance (log ++ es) = dance log ++ es :=
  sinceLast_append log fun e he => inert_begins (hes e he)

theorem dance_concat (log : List Event) (he : e.begins = false) :
    dance (log ++ [e]) = dance log ++ [e] :=
  sinceLast_append log (by simpa using he)

namespace Driver

structure Tidy (d : Driver) : Prop where
  stamps : ∀ n env, envelope n env ∈ d.log → n < d.seen
  queue : d.pendingRemoteIce ≠ [] → d.state.inDance = true
  fresh : ∀ p ∈ d.pendingRemoteIce, p.1 < d.seen
  early : d.pendingEarlyAnswerSdp ≠ none → d.state.terminal = false → d.state.beforeLocal = true
  applied : (∃ e ∈ dance d.log, e.appliesAnswer = true) → d.state.terminal = false → d.state.answered = true
  flight : d.state = .iceInFlight → Event.remoteSet ∈ dance d.log

theorem tidy_new : Tidy new := by
  refine ⟨by simp [new], by simp [new], by simp [new], by simp [new], ?_, by simp [new]⟩
  rintro ⟨e, he, _⟩
  simp [dance, sinceLast, new] at he

variable {w : Webrtc} {d x y : Driver} {a : Act}

section
variable (h : Tidy x)
include h

theorem Tidy.log_append {es : List Event} (hes : ∀ e ∈ es, e.inert = true) :
    (∀ n env, envelope n env ∈ x.log ++ es → n < x.seen) ∧
      ((∃ e ∈ dance (x.log ++ es), e.appliesAnswer = true) → ∃ e ∈ dance x.log, e.appliesAnswer = true) := by
  refine ⟨?_, ?_⟩
  · intro n env hmem
    rcases mem_append.mp hmem with hmem | hmem
    · exact h.stamps n env hmem
    · exact absurd (hes _ hmem) (by simp [inert])
  · rw [dance_append _ hes]
    rintro ⟨e, he, happ⟩
    rcases mem_append.mp he with he | he
    · exact ⟨e, he, happ⟩
    · rw [inert_applies (hes e he)] at happ
      exact absurd happ (by simp)

variable (es : List Event)

theorem Tidy.same (hlog : y.log = x.log ++ es) (hes : ∀ e ∈ es, e.inert = true) (hst : y.state = x.state)
    (hice : y.pendingRemoteIce = x.pendingRemoteIce) (hear : y.pendingEarlyAnswerSdp = x.pendingEarlyAnswerSdp)
    (hseen : y.seen = x.seen) :
    Tidy y := by
  obtain ⟨hstam, hapd⟩ := h.log_append hes
  refine ⟨?_, ?_, ?_, ?_, ?_, ?_⟩
  · rwa [hlog, hseen]
  · rw [hice, hst]
    exact h.queue
  · rw [hice, hseen]
    exact h.fresh
  · rw [hear, hst]
    exact h.early
  · rw [hlog, hst]
    exact fun he => h.applied (hapd he)
  · rw [hlog, hst, dance_append _ hes]
    exact fun hs => mem_append_left _ (h.flight hs)

theorem Tidy.advance (hlog : y.log = x.log ++ es) (hes : ∀ e ∈ es, e.inert = true) (s t : OffererState)
    (hx : x.state = s) (hy : y.state = t) (hlive : s.terminal = false ∧ s.answered = false ∧ t.answered = false)
    (hdan : s.inDance = true → t.inDance = true) (hice : y.pendingRemoteIce = x.pendingRemoteIce)
    (hear : y.pendingEarlyAnswerSdp = none ∨
      y.pendingEarlyAnswerSdp = x.pendingEarlyAnswerSdp ∧ s.beforeLocal = t.beforeLocal)
    (hseen : y.seen = x.seen) : Tidy y := by
  obtain ⟨hstam, hapd⟩ := h.log_append hes
  refine ⟨?_, ?_, ?_, ?_, ?_, ?_⟩
  · rwa [hlog, hseen]
  · intro hne
    rw [hice] at hne
    rw [hy]
    exact hdan (hx ▸ h.queue hne)
  · rw [hice, hseen]
    exact h.fresh
  · intro hne _
    rcases hear with hnone | ⟨heq, hloc⟩
    · exact absurd hnone hne
    rw [heq] at hne
    rw [hy, ← hloc, ← hx]
    exact h.early hne (by rw [hx]; exact hlive.1)
  · intro he _
    rw [hlog] at he
    have hans := h.applied (hapd he) (by rw [hx]; exact hlive.1)
    rw [hx, hlive.2.1] at hans
    exact absurd hans (by simp)
  · intro hs
    rw [hy] at hs
    rw [hs] at hlive
    exact absurd hlive.2.2 (by decide)

theorem Tidy.ended (hlog : y.log = x.log ++ es) (hes : ∀ e ∈ es, e.inert = true) (s : OffererState)
    (hy : y.state = s) (hs : s.terminal = true) (hice : y.pendingRemoteIce = []) (hseen : y.seen = x.seen) :
    Tidy y := by
  obtain ⟨hstam, _⟩ := h.log_append hes
  have hflight : s ≠ .iceInFlight := by
    rintro rfl
    exact absurd hs (by decide)
  refine ⟨?_, by simp [hice], by simp [hice], ?_, ?_, ?_⟩
  · rwa [hlog, hseen]
  · rw [hy, hs]
    simp
  · rw [hy, hs]
    simp
  · intro hfl
    exact absurd (hy.symm.trans hfl) hflight

theorem Tidy.begin (hes : ∀ e ∈ es, e.inert = true) (e : Event) (he : e.begins = true)
    (hlog : y.log = x.log ++ es ++ [e]) (s : OffererState) (hy : y.state = s) (hs : s ≠ .iceInFlight)
    (hice : y.pendingRemoteIce = []) (hear : y.pendingEarlyAnswerSdp = none) (hseen : y.seen = x.seen) : Tidy y := by
  obtain ⟨hstam, _⟩ := h.log_append hes
  have hdan : dance y.log = [] := by
    rw [hlog]
    exact sinceLast_reset _ he
  refine ⟨?_, by simp [hice], by simp [hice], by simp [hear], ?_, ?_⟩
  · intro n env hmem
    rw [hlog] at hmem
    rcases mem_append.mp hmem with hmem | hmem
    · rw [hseen]
      exact hstam n env hmem
    · rw [← mem_singleton.mp hmem] at he
      exact absurd he (by simp [begins])
  · rintro ⟨e', he', _⟩
    rw [hdan] at he'
    exact absurd he' (by simp)
  · intro hfl
    exact absurd (hy.symm.trans hfl) hs

end

theorem Tidy.record (h : Tidy d) (env : Envelope) : Tidy (d.record env) := by
  have hdan : dance (d.record env).log = dance d.log ++ [.envelope d.seen env] := dance_concat _ rfl
  refine ⟨?_, h.queue, ?_, h.early, ?_, ?_⟩
  · intro n env' hmem
    show n < d.seen + 1
    rcases mem_append.mp hmem with hmem | hmem
    · have hlt := h.stamps n env' hmem
      omega
    · have hn : n = d.seen ∧ env' = env := by simpa using hmem
      omega
  · intro p hp
    have hlt := h.fresh p hp
    show p.1 < d.seen + 1
    omega
  · rintro ⟨e, he, happ⟩
    rw [hdan] at he
    rcases mem_append.mp he with he | he
    · exact h.applied ⟨e, he, happ⟩
    · rw [mem_singleton.mp he] at happ
      exact absurd happ (by simp [appliesAnswer])
  · intro hfl
    rw [hdan]
    exact mem_append_left _ (h.flight hfl)

theorem Tidy.apply (h : Tidy x) {arm n : ℕ} {sdp : Bytes}
    (hlog : y.log = x.log ++ [.issued arm (.setRemoteDescription n sdp)])
    (hy : y.state = .settingRemote) (hice : y.pendingRemoteIce = x.pendingRemoteIce)
    (hear : y.pendingEarlyAnswerSdp = none) (hseen : y.seen = x.seen) : Tidy y := by
  refine ⟨?_, ?_, ?_, by simp [hear], ?_, by simp [hy]⟩
  · intro m env hmem
    rw [hlog] at hmem
    rw [hseen]
    exact h.stamps m env (by simpa using hmem)
  · intro _
    rw [hy]
    rfl
  · rw [hice, hseen]
    exact h.fresh
  · intro _ _
    rw [hy]
    rfl

theorem Tidy.no_early (h : Tidy x) (s : OffererState) (hx : x.state = s)
    (hs : s.terminal = false ∧ s.beforeLocal = false) : x.pendingEarlyAnswerSdp = none := by
  by_contra hne
  have hloc := h.early hne (by rw [hx]; exact hs.1)
  rw [hx, hs.2] at hloc
  exact absurd hloc (by simp)

theorem Tidy.no_queue (h : Tidy x) (s : OffererState) (hx : x.state = s)
    (hs : s.inDance = false) : x.pendingRemoteIce = [] := by
  by_contra hne
  have hdan := h.queue hne
  rw [hx, hs] at hdan
  exact absurd hdan (by simp)

theorem inDance_of_canQueueMidDance (h : d.canQueueMidDance) : d.state.inDance = true := by
  cases hs : d.state <;> simp [canQueueMidDance, hs, le_iff, OffererState.toNat, inDance] at h ⊢

theorem Tidy.move (hm : Move w d a x y) (h : Tidy x) : Tidy y := by
  cases hm with
  | aside x e he => exact h.same [e] rfl (by simp [inert_of_aside he]) rfl rfl rfl rfl
  | fail | refail => exact h.ended [_] rfl (by simp [inert]) .failed rfl rfl rfl rfl
  | close => exact h.ended [_] rfl (by simp [inert]) .closed rfl rfl rfl rfl
  | latch | consume | land | bufferOffer | connect | dropOffer =>
    exact h.same [] (append_nil _).symm (by simp) rfl rfl rfl rfl
  | trigger | coalesce | refuseOffer => exact h.same [_] rfl (by simp [inert]) rfl rfl rfl rfl
  | start x pc hx =>
    exact h.advance [_] rfl (by simp [inert]) .idle .creatingPc hx rfl (by decide) (by decide) rfl (.inr ⟨rfl, rfl⟩) rfl
  | returnToIdle =>
    exact h.begin [] (by simp) .rearmed rfl (by simp [returnToIdle, note]) .idle rfl (by decide)
      rfl rfl rfl
  | initialOffer x hx =>
    exact h.begin [] (by simp) (.issued x.arm .createOffer) rfl (by simp [issue, note])
      .creatingOffer rfl (by decide) (h.no_queue .creatingPc hx rfl)
      (h.no_early .creatingPc hx (by decide)) rfl
  | restart x t hx =>
    exact h.begin [.notify (.renegotiationStarted t)] (by simp [inert])
      (.issued x.arm .createOffer) rfl rfl .creatingOffer rfl (by decide)
      (h.no_queue .iceInFlight hx rfl) (h.no_early .iceInFlight hx (by decide)) rfl
  | emitOffer _ _ hx | drainOffer _ _ hx =>
    exact h.advance [_, _] (append_assoc _ [_] [_]) (by simp [inert]) .creatingOffer
      .settingLocal hx rfl (by decide) (by decide) rfl (.inr ⟨rfl, rfl⟩) rfl
  | localSet x hx hop hp =>
    exact h.advance [] (append_nil _).symm (by simp) .settingLocal .awaitingAnswer hx rfl (by decide)
      (by decide) rfl (.inl hp) rfl
  | forgetEarly x hx =>
    exact h.advance [] (append_nil _).symm (by simp) .settingLocal .awaitingAnswer hx rfl (by decide)
      (by decide) rfl (.inl rfl) rfl
  | record env => exact h.record env
  | bufferAnswer env sdp ha ht hx =>
    -- an answer is only buffered before the local description is set
    have hr := h.record env
    refine ⟨hr.stamps, hr.queue, hr.fresh, ?_, hr.applied, hr.flight⟩
    intro _ _
    show d.state.beforeLocal = true
    rcases hx with hx | hx <;> rw [hx] <;> rfl
  | applyAnswer env sdp remote ha ht hx =>
    exact (h.record env).apply rfl rfl rfl (h.no_early .awaitingAnswer hx (by decide)) rfl
  | applyEarly => exact h.apply rfl rfl rfl rfl rfl
  | queueIce env p ha ht hx =>
    have hr := h.record env
    refine ⟨hr.stamps, fun _ => inDance_of_canQueueMidDance hx, ?_, hr.early, hr.applied, hr.flight⟩
    intro q hq
    show q.1 < d.seen + 1
    rcases mem_append.mp hq with hq | hq
    · have hlt := h.fresh q hq
      omega
    · rw [mem_singleton.mp hq]
      exact Nat.lt_succ_self _
  | addIce env p =>
    have hr := h.record env
    have hdan : dance ((d.record env).log ++ [.addIceCandidate d.seen p]) =
        dance (d.record env).log ++ [.addIceCandidate d.seen p] := dance_concat _ rfl
    refine ⟨?_, hr.queue, hr.fresh, hr.early, ?_, ?_⟩
    · intro n env' hmem
      refine hr.stamps n env' ?_
      have hmem : envelope n env' ∈ (d.record env).log ++ [.addIceCandidate d.seen p] := hmem
      simpa using hmem
    · rintro ⟨e, he, happ⟩
      have he : e ∈ dance ((d.record env).log ++ [.addIceCandidate d.seen p]) := he
      rw [hdan, mem_append] at he
      rcases he with he | he
      · exact hr.applied ⟨e, he, happ⟩
      · rw [mem_singleton.mp he] at happ
        exact absurd happ (by simp [appliesAnswer])
    · intro hfl
      show Event.remoteSet ∈ dance ((d.record env).log ++ [.addIceCandidate d.seen p])
      rw [hdan]
      exact mem_append_left _ (hr.flight hfl)
  | remoteSet arm reason ha harm hx =>
    -- the flush brings additions and a notification, no envelope and no new dance
    obtain ⟨es, hlog, hes⟩ := enterIceFlight_events w d
      (fun e => e.begins = false ∧ ∀ n env, e ≠ .envelope n env) ⟨rfl, by simp⟩
      (fun _ _ => ⟨rfl, by simp⟩) ⟨rfl, by simp⟩
    refine ⟨?_, by simp [enterIceFlight_eq], by simp [enterIceFlight_eq], ?_, ?_, ?_⟩
    · intro n env hmem
      rw [hlog] at hmem
      rcases mem_append.mp hmem with hmem | hmem
      · simpa [enterIceFlight_eq] using h.stamps n env hmem
      · exact absurd rfl ((hes _ hmem).2 n env)
    · have hnone := h.no_early .settingRemote hx (by decide)
      simp [enterIceFlight_eq, hnone]
    · simp [enterIceFlight_eq, answered]
    · rw [hlog, dance, sinceLast_append _ fun e he => (hes e he).1]
      simp

/-- Candidates wait only during an exchange, an answer only until its offer is set. -/
theorem buffers_only_midway (w : Webrtc) (acts : List Act) :
    let d := runDriver w acts
    (d.pendingRemoteIce ≠ [] → d.state.inDance = true) ∧
      (d.pendingEarlyAnswerSdp ≠ none → d.state.terminal = false → d.state.beforeLocal = true) ∧
      (d.state = .iceInFlight → Event.remoteSet ∈ dance d.log) := by
  have h := runDriver_invariant w (fun _ _ => True) Tidy tidy_new (fun _ _ _ _ _ => Tidy.move)
    (Runs.meets_true _ _ acts)
  exact ⟨h.queue, h.early, h.flight⟩

end Driver
end Chromeless.Capture
