import Chromeless.CaptureDriver

/-! What a task of the driver can do, said once: every invariant is checked against the moves. -/
namespace Chromeless.Capture
open Chromeless.Json Relation List OffererState
open ReflTransGen (single)

def Event.aside : Event → Bool
  | .handed env => env.type ≠ .offer
  | .closePc => true
  | .notify (.iceConnectionStateChanged _) => true
  | .notify .newViewerNeedsOffer => true
  | _ => false

/-- An error of the channel, the completion of a call that was under way, and the first
`OnRenegotiationNeeded` of an arm. -/
def Act.faults (d : Driver) : Act → Prop
  | .onError _ => True
  | .renegotiationNeeded => d.initialRenegotiationConsumed = false
  | .createOfferSuccess arm _ _ _ => arm = d.arm ∧ (arm, Op.createOffer) ∈ d.ops
  | .createOfferFailure arm _ => arm = d.arm ∧ (arm, Op.createOffer) ∈ d.ops
  | .setLocalDescriptionComplete arm _ _ => arm = d.arm ∧ (arm, Op.setLocalDescription) ∈ d.ops
  | .setRemoteDescriptionComplete arm _ _ => arm = d.arm ∧ (arm, Op.setRemoteDescription) ∈ d.ops
  | _ => False

def Act.connects : Act → Bool
  | .onConnected _ => true
  | _ => false

instance (d : Driver) (a : Act) : Decidable (a.faults d) :=
  match a with
  | .onError _ => inferInstanceAs (Decidable True)
  | .renegotiationNeeded => inferInstanceAs (Decidable (_ = _))
  | .createOfferSuccess _ _ _ _ | .createOfferFailure _ _ | .setLocalDescriptionComplete _ _ _
  | .setRemoteDescriptionComplete _ _ _ => inferInstanceAs (Decidable (_ ∧ _))
  | .start _ | .rearm _ | .requestRenegotiation | .close _ | .closeUnhealthy _ | .onConnected _
  | .onEnvelope _ | .onClosed _ _ | .iceCandidate _ | .iceGatheringChange _
  | .iceConnectionChange _ => inferInstanceAs (Decidable False)

namespace Driver

def coalesces (d : Driver) (trigger : Trigger) : Prop :=
  match d.state with
  | .creatingOffer | .settingLocal | .settingRemote => True
  | .awaitingAnswer => trigger ≠ .remote
  | .creatingPc => trigger = .remote
  | _ => False

end Driver

def Webrtc.added (w : Webrtc) (ps : List (ℕ × IceCandidatePayload)) : List Event :=
  (ps.filter fun p => w.takes p.2).map fun p => .addIceCandidate p.1 p.2

namespace Driver

/-- A move of the task `a` that was begun in `d₀`. -/
inductive Move (w : Webrtc) (d₀ : Driver) (a : Act) : Driver → Driver → Prop
  | aside (x : Driver) (e : Event) (he : e.aside = true) : Move w d₀ a x (x.note e)
  | fail (x : Driver) (reason : String) (hx : x.state.terminal = false) :
    Move w d₀ a x ({ x with state := .failed, pendingRemoteIce := [] }.notify (.failed reason))
  | refail (x : Driver) (reason : String) (hx : x.state.terminal = true)
    (hd : d₀.state.terminal = true) (ha : a.faults d₀) :
    Move w d₀ a x ({ x with state := .failed, pendingRemoteIce := [] }.notify (.failed reason))
  | close (x : Driver) (reason : String) (ht : x.teardownEmitted = false) (hx : x.state ≠ .failed) :
    Move w d₀ a x ({ x with
      state := .closed, teardownEmitted := true, pendingRemoteIce := [] }.notify (.closed reason))
  | latch (x : Driver) (hx : x.state = .failed) :
    Move w d₀ a x { x with teardownEmitted := true }
  | start (x : Driver) (pc : Bool) (hx : x.state = .idle) :
    Move w d₀ a x ({ x with state := .creatingPc, pc := pc }.note .started)
  | returnToIdle (x : Driver) (bye : Bool) (ha : a = .rearm bye) (hi : x.state ≠ .idle)
    (hf : x.state ≠ .failed) : Move w d₀ a x x.returnToIdle
  | consume (x : Driver) (hx : x.state ≠ .creatingPc) :
    Move w d₀ a x { x with initialRenegotiationConsumed := true }
  | initialOffer (x : Driver) (hx : x.state = .creatingPc) :
    Move w d₀ a x ({ x with
      initialRenegotiationConsumed := true, state := .creatingOffer,
      currentOfferAnswered := false }.issue .createOffer)
  | trigger (x : Driver) (t : Trigger) (ht : t ≠ .coalescedPending) (hx : ¬ x.coalesces t) :
    Move w d₀ a x (x.note (.triggered t x.state))
  | coalesce (x : Driver) (t : Trigger) (ht : t ≠ .coalescedPending) (hx : x.coalesces t) :
    Move w d₀ a x { x.note (.triggered t x.state) with pendingRenegotiation := true }
  | restart (x : Driver) (t : Trigger) (hx : x.state = .iceInFlight) :
    Move w d₀ a x (x.restartDance t)
  -- a completion that fails, or whose arm is over
  | land (x : Driver) (arm : ℕ) (op : Op) (hop : (arm, op) ∈ x.ops) :
    Move w d₀ a x { x with ops := x.ops.erase (arm, op) }
  | bufferOffer (x : Driver) (sdp : Bytes) (hx : x.state = .creatingOffer)
    (hop : (x.arm, .createOffer) ∈ x.ops) (hws : x.wsConnected = false) :
    Move w d₀ a x { x with
      ops := x.ops.erase (x.arm, .createOffer), pendingLocalOffer := some sdp }
  | refuseOffer (x : Driver) (sdp : Bytes) (hx : x.state = .creatingOffer) :
    Move w d₀ a x (x.note (.handed ⟨.offer, .browser, .sdp ⟨ascii "offer", sdp⟩⟩))
  | emitOffer (x : Driver) (sdp : Bytes) (hx : x.state = .creatingOffer)
    (hop : (x.arm, .createOffer) ∈ x.ops) (hws : x.wsConnected = true) :
    Move w d₀ a x ({ x with
      ops := x.ops.erase (x.arm, .createOffer) }.emitOfferAndSetLocal sdp true)
  | drainOffer (x : Driver) (sdp : Bytes) (hx : x.state = .creatingOffer)
    (hp : x.pendingLocalOffer = some sdp) (ha : a.connects = true) :
    Move w d₀ a x ({ x with
      wsConnected := true, pendingLocalOffer := none }.emitOfferAndSetLocal sdp true)
  | connect (x : Driver) (hp : x.pendingLocalOffer = none) (ha : a.connects = true) :
    Move w d₀ a x { x with wsConnected := true }
  | dropOffer (x : Driver) (ha : a.connects = true) :
    Move w d₀ a x { x with wsConnected := true, pendingLocalOffer := none }
  | localSet (x : Driver) (hx : x.state = .settingLocal)
    (hop : (x.arm, .setLocalDescription) ∈ x.ops) (hp : x.pendingEarlyAnswerSdp = none) :
    Move w d₀ a x { x with
      ops := x.ops.erase (x.arm, .setLocalDescription), state := .awaitingAnswer }
  -- a buffered answer is replayed at once, so `kAwaitingAnswer` is passed through
  | forgetEarly (x : Driver) (hx : x.state = .settingLocal)
    (hop : (x.arm, .setLocalDescription) ∈ x.ops) :
    Move w d₀ a x { x with
      ops := x.ops.erase (x.arm, .setLocalDescription), state := .awaitingAnswer,
      pendingEarlyAnswerSdp := none }
  | applyEarly (x : Driver) (n : ℕ) (sdp remote : Bytes) (hx : x.state = .settingLocal)
    (hop : (x.arm, .setLocalDescription) ∈ x.ops)
    (hp : x.pendingEarlyAnswerSdp = some (n, sdp))
    (hr : w.createSessionDescription .answer sdp = some remote) :
    Move w d₀ a x ({ x with
      ops := x.ops.erase (x.arm, .setLocalDescription), state := .settingRemote,
      pendingEarlyAnswerSdp := none }.issue (.setRemoteDescription n remote))
  -- an envelope that leaves no trace, because it is refused or because its handler goes on
  | record (env : Envelope) (ha : a = .onEnvelope env)
    (hskip : env.type = .ice → d₀.state.terminal = false → ∀ p, env.candidate = some p →
      ¬ d₀.canQueueMidDance ∧ (d₀.state = .iceInFlight → w.takes p = false)) :
    Move w d₀ a d₀ (d₀.record env)
  | bufferAnswer (env : Envelope) (sdp : Bytes) (ha : a = .onEnvelope env)
    (ht : env.type = .answer) (hx : d₀.state = .creatingOffer ∨ d₀.state = .settingLocal)
    (hs : env.answerSdp = some sdp) :
    Move w d₀ a d₀ { d₀.record env with pendingEarlyAnswerSdp := some (d₀.seen, sdp) }
  | applyAnswer (env : Envelope) (sdp remote : Bytes) (ha : a = .onEnvelope env)
    (ht : env.type = .answer) (hx : d₀.state = .awaitingAnswer) (hs : env.answerSdp = some sdp)
    (hr : w.createSessionDescription .answer sdp = some remote) :
    Move w d₀ a d₀ ({ d₀.record env with
      state := .settingRemote }.issue (.setRemoteDescription d₀.seen remote))
  | queueIce (env : Envelope) (p : IceCandidatePayload) (ha : a = .onEnvelope env)
    (ht : env.type = .ice) (hx : d₀.canQueueMidDance) (hp : env.candidate = some p) :
    Move w d₀ a d₀ { d₀.record env with pendingRemoteIce := d₀.pendingRemoteIce ++ [(d₀.seen, p)] }
  | addIce (env : Envelope) (p : IceCandidatePayload) (ha : a = .onEnvelope env)
    (ht : env.type = .ice) (hx : d₀.state = .iceInFlight) (hp : env.candidate = some p)
    (hw : w.takes p = true) :
    Move w d₀ a d₀ ((d₀.record env).note (.addIceCandidate d₀.seen p))
  | remoteSet (arm : ℕ) (reason : String) (ha : a = .setRemoteDescriptionComplete arm true reason)
    (harm : arm = d₀.arm) (hx : d₀.state = .settingRemote)
    (hop : (d₀.arm, .setRemoteDescription) ∈ d₀.ops) :
    Move w d₀ a d₀ { { d₀ with
      ops := d₀.ops.erase (d₀.arm, .setRemoteDescription) }.enterIceFlight w with
      pendingRenegotiation := false }

variable (w : Webrtc)

theorem flushRemoteIce_eq (x : Driver) (ps : List (ℕ × IceCandidatePayload)) (hx : x.state.terminal = false) :
    x.flushRemoteIce w ps = { x with log := x.log ++ w.added ps } := by
  induction ps generalizing x with
  | nil => simp [flushRemoteIce, Webrtc.added]
  | cons p ps ih =>
    have hadd : x.addRemoteIcePayload w p = { x with log := x.log ++ w.added [p] } := by
      by_cases hp : w.takes p.2 = true <;> simp [addRemoteIcePayload, Webrtc.added, note, hp]
    have hcons : w.added (p :: ps) = w.added [p] ++ w.added ps := by
      by_cases hp : w.takes p.2 = true <;> simp [Webrtc.added, hp]
    rw [flushRemoteIce, hadd, if_neg (by simp [hx]), ih { x with log := x.log ++ w.added [p] } hx, hcons, append_assoc]

theorem enterIceFlight_eq (x : Driver) :
    x.enterIceFlight w = { x with
      state := .iceInFlight, wasInIceFlightOnce := true, currentOfferAnswered := true
      pendingRemoteIce := []
      log := x.log ++ .remoteSet :: w.added x.pendingRemoteIce ++
        if x.wasInIceFlightOnce then [.notify .renegotiationCompleted] else [] } := by
  unfold enterIceFlight flushPendingRemoteIce
  dsimp only
  rw [flushRemoteIce_eq _ _ _ rfl]
  cases x.wasInIceFlightOnce <;> simp [note, notify]

def flush (w : Webrtc) (d : Driver) : List Event :=
  w.added d.pendingRemoteIce ++
    if d.wasInIceFlightOnce then [.notify .renegotiationCompleted] else []

theorem remoteSet_log (d : Driver) :
    (enterIceFlight w { d with ops := d.ops.erase (d.arm, .setRemoteDescription) }).log =
      d.log ++ [.remoteSet] ++ flush w d := by
  simp [enterIceFlight_eq, flush]

theorem flush_events (d : Driver) (P : Event → Prop) (hadd : ∀ p ∈ d.pendingRemoteIce, P (.addIceCandidate p.1 p.2))
    (hdone : P (.notify .renegotiationCompleted)) : ∀ e ∈ flush w d, P e := by
  intro e he
  rcases mem_append.mp he with he | he
  · obtain ⟨p, hp, rfl⟩ := mem_map.mp he
    exact hadd p (mem_filter.mp hp).1
  split at he
  · rwa [mem_singleton.mp he]
  · simp at he

theorem enterIceFlight_events (d : Driver) (P : Event → Prop) (hset : P .remoteSet)
    (hadd : ∀ n p, P (.addIceCandidate n p)) (hdone : P (.notify .renegotiationCompleted)) :
    ∃ es, (enterIceFlight w { d with
        ops := d.ops.erase (d.arm, .setRemoteDescription) }).log = d.log ++ .remoteSet :: es ∧
      ∀ e ∈ Event.remoteSet :: es, P e := by
  refine ⟨flush w d, by rw [remoteSet_log, append_assoc]; rfl, ?_⟩
  exact forall_mem_cons.mpr ⟨hset, flush_events w d P (fun p _ => hadd p.1 p.2) hdone⟩

section
variable {w : Webrtc} {d₀ : Driver} {a : Act}

section
variable (x : Driver) (reason : String)

theorem failWithReason_moves (h : x.state.terminal = true → d₀.state.terminal = true ∧ a.faults d₀) :
    ReflTransGen (Move w d₀ a) x (x.failWithReason reason) := by
  have hfail : ∀ y : Driver, y.state = x.state → Move w d₀ a y
      ({ y with state := .failed, pendingRemoteIce := [] }.notify (.failed reason)) := by
    intro y hy
    cases ht : x.state.terminal with
    | false => exact .fail y reason (by rw [hy, ht])
    | true => exact .refail y reason (by rw [hy, ht]) (h ht).1 (h ht).2
  cases hpc : x.pc with
  | false =>
    have heq : x.failWithReason reason =
        { x with state := .failed, pendingRemoteIce := [] }.notify (.failed reason) := by
      simp [failWithReason, closePcOnSignalingThread, hpc]
    rw [heq]
    exact .single (hfail x rfl)
  | true =>
    have heq : x.failWithReason reason = { x.note .closePc with
        state := .failed, pendingRemoteIce := [] }.notify (.failed reason) := by
      simp [failWithReason, closePcOnSignalingThread, hpc, note]
    rw [heq]
    exact .tail (.single (.aside x .closePc rfl)) (hfail _ rfl)

theorem failWithReason_moves_live (hx : x.state.terminal = false) :
    ReflTransGen (Move w d₀ a) x (x.failWithReason reason) :=
  failWithReason_moves x reason fun h => absurd h (by simp [hx])

variable (source : CloseSource)

theorem sendBye_moves :
    ReflTransGen (Move w d₀ a) x (x.sendBye source) := by
  unfold sendBye
  split
  · exact .single (.aside x _ rfl)
  · exact .refl

theorem closePcOnSignalingThread_moves :
    ReflTransGen (Move w d₀ a) x x.closePcOnSignalingThread := by
  unfold closePcOnSignalingThread
  split
  · exact .single (.aside x _ rfl)
  · exact .refl

@[simp] theorem sendBye_state :
    (x.sendBye source).state = x.state := by
  unfold sendBye
  split <;> rfl

@[simp] theorem sendBye_teardownEmitted :
    (x.sendBye source).teardownEmitted = x.teardownEmitted := by
  unfold sendBye
  split <;> rfl

@[simp] theorem closePcOnSignalingThread_state :
    x.closePcOnSignalingThread.state = x.state := by
  unfold closePcOnSignalingThread
  split <;> rfl

@[simp] theorem closePcOnSignalingThread_teardownEmitted :
    x.closePcOnSignalingThread.teardownEmitted = x.teardownEmitted := by
  unfold closePcOnSignalingThread
  split <;> rfl

theorem closeInternal_moves (source : CloseSource) :
    ReflTransGen (Move w d₀ a) x (x.closeInternal reason source) := by
  unfold closeInternal
  split
  · exact .refl
  split
  next hfld => exact .single (.latch x hfld)
  rename_i htear hfld
  -- the `bye`, the posted `Close` and the notification come in this order
  have hbye : ReflTransGen (Move w d₀ a) x (x.sendBye source) := sendBye_moves x source
  have hclose : ReflTransGen (Move w d₀ a) (x.sendBye source)
      (x.sendBye source).closePcOnSignalingThread := closePcOnSignalingThread_moves _
  have heq : { x.sendBye source with
      state := .closed, teardownEmitted := true,
      pendingRemoteIce := [] }.closePcOnSignalingThread.notify (.closed reason) =
      { (x.sendBye source).closePcOnSignalingThread with
        state := .closed, teardownEmitted := true, pendingRemoteIce := [] }.notify (.closed reason) := by
    unfold closePcOnSignalingThread
    cases (x.sendBye source).pc <;> rfl
  rw [heq]
  refine (hbye.trans hclose).tail (.close _ reason ?_ ?_)
  · simpa using htear
  · simpa using hfld

theorem rearm_moves (bye : Bool) (ha : a = .rearm bye) :
    ReflTransGen (Move w d₀ a) x (x.rearm bye) := by
  unfold rearm
  split
  · exact .refl
  rename_i hlive
  simp only [not_or] at hlive
  split
  · exact .single (.returnToIdle x bye ha hlive.1 hlive.2)
  have hclose : ReflTransGen (Move w d₀ a) x
      (x.closeInternal "rearm" (if bye then .rearm else .remote)) := closeInternal_moves _ _ _
  have hst : (x.closeInternal "rearm" (if bye then .rearm else .remote)).state ≠ .idle ∧
      (x.closeInternal "rearm" (if bye then .rearm else .remote)).state ≠ .failed := by
    unfold closeInternal
    split
    · exact hlive
    · rw [if_neg hlive.2]
      simp [notify, note]
  exact hclose.tail (.returnToIdle _ bye ha hst.1 hst.2)

theorem start_moves (pc : PcResult) :
    ReflTransGen (Move w d₀ a) x (x.start pc) := by
  unfold start
  split
  · exact .refl
  rename_i hidle
  have hidle : x.state = .idle := not_not.mp hidle
  have hst : Move w d₀ a x ({ x with state := .creatingPc }.note .started) := .start x x.pc hidle
  cases pc with
  | error | null => exact (single hst).trans (failWithReason_moves_live _ _ rfl)
  | made => exact .single (.start x true hidle)

section
variable (t : Trigger)

theorem beginRenegotiation_steady (hx : x.state = .iceInFlight) :
    x.beginRenegotiation t = x.restartDance t := by
  simp [beginRenegotiation, hx]

theorem beginRenegotiation_coalesced (hr : t ≠ .remote)
    (hx : x.coalesces t) : x.beginRenegotiation t = { x with pendingRenegotiation := true } := by
  cases hs : x.state <;> simp [beginRenegotiation, coalesces, hs, hr] at hx ⊢

theorem beginRenegotiation_dropped (hr : t ≠ .remote)
    (hx : ¬ x.coalesces t) (hs : x.state ≠ .iceInFlight) : x.beginRenegotiation t = x := by
  cases hs' : x.state <;> simp [beginRenegotiation, coalesces, hs', hr] at hx hs ⊢

theorem beginRenegotiation_moves (ht : t ≠ .coalescedPending) (hr : t ≠ .remote) :
    ReflTransGen (Move w d₀ a) x ((x.note (.triggered t x.state)).beginRenegotiation t) := by
  by_cases hc : x.coalesces t
  · rw [beginRenegotiation_coalesced (x.note _) t hr hc]
    exact .single (.coalesce x t ht hc)
  have htrg : Move w d₀ a x (x.note (.triggered t x.state)) := .trigger x t ht hc
  by_cases hs : x.state = .iceInFlight
  · rw [beginRenegotiation_steady (x.note _) t hs]
    exact (single htrg).tail (.restart _ t hs)
  · rw [beginRenegotiation_dropped (x.note _) t hr hc hs]
    exact .single htrg

end

theorem onConnected_moves (accepted : Bool) (ha : a.connects = true) :
    ReflTransGen (Move w d₀ a) x (x.onConnected accepted) := by
  cases hp : x.pendingLocalOffer with
  | none =>
    have heq : x.onConnected accepted = { x with wsConnected := true } := by simp [onConnected, hp]
    rw [heq]
    exact .single (.connect x hp ha)
  | some sdp =>
    have hdrop : Move w d₀ a x { x with wsConnected := true, pendingLocalOffer := none } := .dropOffer x ha
    by_cases hs : x.state = .creatingOffer
    · have heq : x.onConnected accepted = { x with
          wsConnected := true, pendingLocalOffer := none }.emitOfferAndSetLocal sdp accepted := by
        simp [onConnected, hp, hs]
      rw [heq]
      cases accepted with
      | true => exact .single (.drainOffer x sdp hs hp ha)
      | false =>
        -- the refused offer was handed over all the same
        refine ((single hdrop).tail (.refuseOffer _ sdp hs)).trans (failWithReason_moves_live _ _ ?_)
        simp [note, hs, terminal]
    · have heq : x.onConnected accepted =
          { x with wsConnected := true, pendingLocalOffer := none } := by
        simp [onConnected, hp, hs]
      rw [heq]
      exact .single hdrop

theorem handleRequestRenegotiateEnvelope_moves :
    ReflTransGen (Move w d₀ a) x (x.note (.triggered .remote x.state)).handleRequestRenegotiateEnvelope := by
  by_cases hc : x.coalesces .remote
  · have heq : (x.note (.triggered .remote x.state)).handleRequestRenegotiateEnvelope =
        { x.note (.triggered .remote x.state) with pendingRenegotiation := true } := by
      cases hs : x.state <;>
        simp [handleRequestRenegotiateEnvelope, coalesces, note, hs] at hc ⊢
    rw [heq]
    exact .single (.coalesce x .remote (by decide) hc)
  have htrg : ReflTransGen (Move w d₀ a) x (x.note (.triggered .remote x.state)) :=
    .single (.trigger x .remote (by decide) hc)
  have hask : ReflTransGen (Move w d₀ a) x ((x.note (.triggered .remote x.state)).notify .newViewerNeedsOffer) :=
    htrg.tail (.aside _ _ rfl)
  by_cases hs : x.state = .iceInFlight
  · cases ha : x.currentOfferAnswered with
    | true =>
      have heq : (x.note (.triggered .remote x.state)).handleRequestRenegotiateEnvelope =
          (x.note (.triggered .remote x.state)).restartDance .remote := by
        simp [handleRequestRenegotiateEnvelope, beginRenegotiation, note, hs, ha]
      rw [heq]
      exact htrg.tail (.restart _ .remote hs)
    | false =>
      have heq : (x.note (.triggered .remote x.state)).handleRequestRenegotiateEnvelope =
          (x.note (.triggered .remote x.state)).notify .newViewerNeedsOffer := by
        simp [handleRequestRenegotiateEnvelope, note, hs, ha]
      rwa [heq]
  by_cases hw : x.state = .awaitingAnswer
  · have heq : (x.note (.triggered .remote x.state)).handleRequestRenegotiateEnvelope =
        (x.note (.triggered .remote x.state)).notify .newViewerNeedsOffer := by
      simp [handleRequestRenegotiateEnvelope, note, hw]
    rwa [heq]
  have heq : (x.note (.triggered .remote x.state)).handleRequestRenegotiateEnvelope =
      x.note (.triggered .remote x.state) := by
    cases hs' : x.state <;>
      simp [handleRequestRenegotiateEnvelope, coalesces, note, hs'] at hc hs hw ⊢
  rwa [heq]

end

variable (env : Envelope)

theorem handleAnswerEnvelope_moves (ha : a = .onEnvelope env)
    (ht : env.type = .answer) (hlive : d₀.state.terminal = false) :
    ReflTransGen (Move w d₀ a) d₀ ((d₀.record env).handleAnswerEnvelope w d₀.seen env) := by
  have hrec : ReflTransGen (Move w d₀ a) d₀ (d₀.record env) := .single (.record env ha (by simp [ht]))
  have hfail : ∀ reason, ReflTransGen (Move w d₀ a) d₀ ((d₀.record env).failWithReason reason) :=
    fun reason => hrec.trans (failWithReason_moves_live _ _ hlive)
  have hear : d₀.state = .creatingOffer ∨ d₀.state = .settingLocal →
      ReflTransGen (Move w d₀ a) d₀ ((d₀.record env).bufferEarlyAnswer d₀.seen env.answerSdp) := by
    intro hs
    cases hsdp : env.answerSdp with
    | none => exact hfail _
    | some sdp => exact .single (.bufferAnswer env sdp ha ht hs hsdp)
  have happly : d₀.state = .awaitingAnswer →
      ReflTransGen (Move w d₀ a) d₀ ((d₀.record env).applyAnswer w d₀.seen env.answerSdp) := by
    intro hs
    unfold applyAnswer
    cases hsdp : env.answerSdp with
    | none => exact hfail _
    | some sdp =>
      cases hr : w.createSessionDescription .answer sdp with
      | none =>
        simp only [hr]
        exact hfail _
      | some remote =>
        simp only [hr]
        exact .single (.applyAnswer env sdp remote ha ht hs hsdp hr)
  unfold handleAnswerEnvelope
  split
  · exact hrec
  · exact hrec
  next hs => exact hear (.inl hs)
  next hs => exact hear (.inr hs)
  next hs => exact happly hs
  · exact hfail _

theorem handleIceEnvelope_moves (ha : a = .onEnvelope env)
    (ht : env.type = .ice) (hlive : d₀.state.terminal = false) :
    ReflTransGen (Move w d₀ a) d₀ ((d₀.record env).handleIceEnvelope w d₀.seen env) := by
  unfold handleIceEnvelope
  have hfail (hp : env.candidate = none) (reason) :
      ReflTransGen (Move w d₀ a) d₀ ((d₀.record env).failWithReason reason) := by
    have hrec : ReflTransGen (Move w d₀ a) d₀ (d₀.record env) := .single (.record env ha (by simp [hp]))
    exact hrec.trans (failWithReason_moves_live _ _ hlive)
  by_cases hs : d₀.state = .iceInFlight
  · have hnq : ¬ d₀.canQueueMidDance := by simp [canQueueMidDance, hs, le_iff, OffererState.toNat]
    rw [if_neg (not_not.mpr (show (d₀.record env).state = .iceInFlight from hs))]
    cases hp : env.candidate with
    | none => exact hfail hp _
    | some p =>
      show ReflTransGen (Move w d₀ a) d₀ ((d₀.record env).addRemoteIcePayload w (d₀.seen, p))
      unfold addRemoteIcePayload
      by_cases hw : w.takes p = true
      · rw [if_pos hw]
        exact .single (.addIce env p ha ht hs hp hw)
      rw [if_neg hw]
      refine .single (.record env ha ?_)
      intro _ _ q hq
      obtain rfl : p = q := by simpa [hp] using hq
      exact ⟨hnq, fun _ => by simpa using hw⟩
  · rw [if_pos (show (d₀.record env).state ≠ .iceInFlight from hs)]
    by_cases hq : d₀.canQueueMidDance
    · rw [if_pos (show (d₀.record env).canQueueMidDance from hq)]
      unfold queueRemoteIceCandidate
      cases hp : env.candidate with
      | none => exact hfail hp _
      | some p => exact .single (.queueIce env p ha ht hq hp)
    · rw [if_neg (show ¬ (d₀.record env).canQueueMidDance from hq)]
      exact .single (.record env ha fun _ _ _ _ => ⟨hq, fun h => absurd h hs⟩)

theorem onEnvelope_moves (ha : a = .onEnvelope env) :
    ReflTransGen (Move w d₀ a) d₀ (d₀.onEnvelope w env) := by
  unfold onEnvelope
  split
  next hterm => exact .single (.record env ha (by simp [hterm]))
  rename_i hlive
  have hlive : d₀.state.terminal = false := by simpa using hlive
  have hrec : env.type ≠ .ice → ReflTransGen (Move w d₀ a) d₀ (d₀.record env) :=
    fun h => .single (.record env ha fun ht => absurd ht h)
  unfold dispatch
  cases ht : env.type with
  | offer => exact (hrec (by simp [ht])).trans (failWithReason_moves_live _ _ hlive)
  | answer => exact handleAnswerEnvelope_moves env ha ht hlive
  | ice => exact handleIceEnvelope_moves env ha ht hlive
  | bye =>
    refine (hrec (by simp [ht])).trans ?_
    show ReflTransGen (Move w d₀ a) (d₀.record env) (d₀.record env).handleByeEnvelope
    unfold handleByeEnvelope
    split
    · exact .refl
    · exact closeInternal_moves _ _ _
  | requestRenegotiate => exact (hrec (by simp [ht])).trans (handleRequestRenegotiateEnvelope_moves _)
  | probeResult | peerAbsent | sessionUnhealthy => exact hrec (by simp [ht])

theorem land_fail_moves (arm : ℕ) (op : Op) (reason : String) (hop : (arm, op) ∈ d₀.ops) (hf : a.faults d₀) :
    ReflTransGen (Move w d₀ a) d₀ ({ d₀ with ops := d₀.ops.erase (arm, op) }.failWithReason reason) := by
  have hland : Move w d₀ a d₀ { d₀ with ops := d₀.ops.erase (arm, op) } := .land d₀ arm op hop
  exact (single hland).trans (failWithReason_moves _ _ fun h => ⟨h, hf⟩)

theorem land_moves (arm : ℕ) (op : Op) (handl : Driver → Driver) (h : arm = d₀.arm → (arm, op) ∈ d₀.ops →
      ReflTransGen (Move w d₀ a) d₀ (handl { d₀ with ops := d₀.ops.erase (arm, op) })) :
    ReflTransGen (Move w d₀ a) d₀ (d₀.land arm op handl) := by
  unfold land
  split
  next hop =>
    dsimp only
    split
    next harm => exact h harm hop
    · exact .single (.land d₀ arm op hop)
  · exact .refl

theorem hopHandleCreateOfferSuccess_moves (sdpType : String) (sdp : Bytes) (accepted : Bool)
    (hop : (d₀.arm, Op.createOffer) ∈ d₀.ops) (hf : a.faults d₀) :
    ReflTransGen (Move w d₀ a) d₀ ({ d₀ with
      ops := d₀.ops.erase (d₀.arm, .createOffer) }.hopHandleCreateOfferSuccess w sdpType sdp accepted) := by
  have hfail := fun reason => land_fail_moves (w := w) d₀.arm .createOffer reason hop hf
  unfold hopHandleCreateOfferSuccess
  split
  · exact hfail _
  rename_i hs
  have hs : d₀.state = .creatingOffer := not_not.mp hs
  split
  · exact hfail _
  split
  · exact hfail _
  rename_i offer _
  split
  next hws =>
    cases accepted with
    | true => exact .single (.emitOffer d₀ offer hs hop hws)
    | false =>
      have hland : Move w d₀ a d₀ { d₀ with ops := d₀.ops.erase (d₀.arm, .createOffer) } := .land d₀ _ _ hop
      refine ((single hland).tail (.refuseOffer _ offer hs)).trans (failWithReason_moves_live _ _ ?_)
      simp [note, hs, terminal]
  next hws => exact .single (.bufferOffer d₀ offer hs hop (by simpa using hws))

theorem hopHandleSetLocalDescriptionComplete_moves (ok : Bool) (reason : String)
    (hop : (d₀.arm, Op.setLocalDescription) ∈ d₀.ops) (hf : a.faults d₀) :
    ReflTransGen (Move w d₀ a) d₀ ({ d₀ with
      ops := d₀.ops.erase (d₀.arm, .setLocalDescription) }.hopHandleSetLocalDescriptionComplete w ok reason) := by
  have hfail := fun reason => land_fail_moves (w := w) d₀.arm .setLocalDescription reason hop hf
  unfold hopHandleSetLocalDescriptionComplete
  split
  · exact hfail _
  split
  · exact hfail _
  rename_i hs
  have hs : d₀.state = .settingLocal := not_not.mp hs
  dsimp only
  split
  next hp => exact .single (.localSet d₀ hs hop hp)
  rename_i n sdp hp
  -- the buffered answer goes through the handler again, now in `kAwaitingAnswer`
  have hsdp : (Envelope.mk .answer .client (.sdp ⟨ascii "answer", sdp⟩)).answerSdp =
      if sdp = [] then none else some sdp := rfl
  unfold handleAnswerEnvelope
  dsimp only
  rw [hsdp]
  unfold applyAnswer
  have hfld : ∀ reason, ReflTransGen (Move w d₀ a) d₀ ({ d₀ with
      ops := d₀.ops.erase (d₀.arm, .setLocalDescription), state := .awaitingAnswer,
      pendingEarlyAnswerSdp := none }.failWithReason reason) := fun reason =>
    (single (.forgetEarly d₀ hs hop)).trans (failWithReason_moves_live _ _ rfl)
  split
  · exact hfld _
  rename_i sdp' hsdp'
  obtain rfl : sdp = sdp' := by
    split at hsdp' <;> simp_all
  split
  · exact hfld _
  next remote hr => exact .single (.applyEarly d₀ n sdp remote hs hop hp hr)

theorem hopHandleSetRemoteDescriptionComplete_eq (w : Webrtc) (x : Driver) (reason : String)
    (hx : x.state = .settingRemote) :
    x.hopHandleSetRemoteDescriptionComplete w true reason =
      if x.pendingRenegotiation then
        { x.enterIceFlight w with pendingRenegotiation := false }.restartDance .coalescedPending
      else x.enterIceFlight w := by
  have hpend : (x.enterIceFlight w).pendingRenegotiation = x.pendingRenegotiation := by rw [enterIceFlight_eq]
  rw [hopHandleSetRemoteDescriptionComplete, if_neg (by simp), if_neg (not_not.mpr hx)]
  dsimp only
  rw [hpend, beginRenegotiation_steady
    { enterIceFlight w x with pendingRenegotiation := false } _ (by simp [enterIceFlight_eq])]

theorem hopHandleSetRemoteDescriptionComplete_moves (ok : Bool) (reason : String)
    (hop : (d₀.arm, Op.setRemoteDescription) ∈ d₀.ops) (hf : a.faults d₀)
    (ha : a = .setRemoteDescriptionComplete d₀.arm ok reason) :
    ReflTransGen (Move w d₀ a) d₀ ({ d₀ with
      ops := d₀.ops.erase (d₀.arm, .setRemoteDescription) }.hopHandleSetRemoteDescriptionComplete w ok reason) := by
  have hfail := fun reason => land_fail_moves (w := w) d₀.arm .setRemoteDescription reason hop hf
  cases ok with
  | false => exact hfail _
  | true =>
    by_cases hs : d₀.state = .settingRemote
    · have hset : Move w d₀ a d₀ { { d₀ with
          ops := d₀.ops.erase (d₀.arm, .setRemoteDescription) }.enterIceFlight w with
          pendingRenegotiation := false } := .remoteSet d₀.arm reason ha rfl hs hop
      rw [hopHandleSetRemoteDescriptionComplete_eq w { d₀ with
        ops := d₀.ops.erase (d₀.arm, .setRemoteDescription) } reason hs]
      split
      · exact (single hset).tail (.restart _ _ (by simp [enterIceFlight_eq]))
      rename_i hp
      have hp : (enterIceFlight w { d₀ with
          ops := d₀.ops.erase (d₀.arm, .setRemoteDescription) }).pendingRenegotiation = false := by
        simpa [enterIceFlight_eq] using hp
      have heq : ∀ x : Driver, x.pendingRenegotiation = false →
          { x with pendingRenegotiation := false } = x := by
        intro x hx
        rw [← hx]
      rw [heq _ hp] at hset
      exact .single hset
    · rw [hopHandleSetRemoteDescriptionComplete, if_neg (by simp), if_pos hs]
      exact hfail _

end

theorem step_moves (w : Webrtc) (d : Driver) (a : Act) :
    ReflTransGen (Move w d a) d (d.step w a) := by
  cases a with
  | start pc => exact start_moves d pc
  | rearm bye => exact rearm_moves d bye rfl
  | requestRenegotiation =>
    show ReflTransGen _ d (if d.state.terminal then d.note (.triggered .embedder d.state)
      else (d.note (.triggered .embedder d.state)).beginRenegotiation .embedder)
    split
    next hterm =>
      refine .single (.trigger d .embedder (by decide) ?_)
      cases hs : d.state <;> simp [coalesces, hs, terminal] at hterm ⊢
    · exact beginRenegotiation_moves d .embedder (by decide) (by decide)
  | close reason => exact closeInternal_moves d reason .embedder
  | closeUnhealthy reason =>
    have hnote : Move w d (.closeUnhealthy reason) d
        (d.note (.handed ⟨.sessionUnhealthy, .browser, .monostate⟩)) := .aside d _ rfl
    exact (single hnote).trans (closeInternal_moves _ _ _)
  | onConnected accepted => exact onConnected_moves d accepted rfl
  | onEnvelope env => exact onEnvelope_moves env rfl
  | onClosed => exact closeInternal_moves d _ .ws
  | onError => exact failWithReason_moves d _ fun h => ⟨h, trivial⟩
  | iceCandidate candidate =>
    show ReflTransGen _ d (d.hopHandleIceCandidate candidate)
    unfold hopHandleIceCandidate
    split
    · exact .refl
    cases candidate with
    | none => exact .refl
    | some => exact .single (.aside d _ rfl)
  | iceGatheringChange complete =>
    cases complete with
    | false => exact .refl
    | true => exact .single (.aside d _ rfl)
  | iceConnectionChange => exact .single (.aside d _ rfl)
  | renegotiationNeeded =>
    show ReflTransGen _ d d.hopHandleRenegotiationNeeded
    unfold hopHandleRenegotiationNeeded
    split
    · exact beginRenegotiation_moves d .libwebrtc (by decide) (by decide)
    rename_i hc
    dsimp only
    split
    next hs =>
      refine (single (.consume d hs)).trans (failWithReason_moves _ _ ?_)
      exact fun h => ⟨h, by simpa [Act.faults] using hc⟩
    next hs => exact .single (.initialOffer d (not_not.mp hs))
  | createOfferSuccess arm sdpType sdp accepted =>
    rw [step]
    apply land_moves
    rintro rfl hop
    exact hopHandleCreateOfferSuccess_moves sdpType sdp accepted hop ⟨rfl, hop⟩
  | createOfferFailure =>
    rw [step]
    apply land_moves
    rintro rfl hop
    exact land_fail_moves _ _ _ hop ⟨rfl, hop⟩
  | setLocalDescriptionComplete arm ok reason =>
    rw [step]
    apply land_moves
    rintro rfl hop
    exact hopHandleSetLocalDescriptionComplete_moves ok reason hop ⟨rfl, hop⟩
  | setRemoteDescriptionComplete arm ok reason =>
    rw [step]
    apply land_moves
    rintro rfl hop
    exact hopHandleSetRemoteDescriptionComplete_moves ok reason hop ⟨rfl, hop⟩ rfl

theorem step_invariant {w : Webrtc} {d : Driver} {a : Act} (I : Driver → Prop)
    (hmove : ∀ x y, Move w d a x y → I x → I y) (h : I d) : I (d.step w a) := by
  have hkeep : ∀ y, ReflTransGen (Move w d a) d y → I y := by
    intro y hy
    induction hy with
    | refl => exact h
    | tail _ hxy ih => exact hmove _ _ hxy ih
  exact hkeep _ (step_moves w d a)

theorem runDriver_invariant (w : Webrtc) (ok : Driver → Act → Prop) (I : Driver → Prop)
    (hnew : I .new) (hmove : ∀ d a x y, ok d a → Move w d a x y → I x → I y) {acts : List Act}
    (hm : Runs.Meets (step w) ok .new acts) : I (runDriver w acts) :=
  Runs.invariant_run_moves (step w) (Move w) (step_moves w) ok I hmove hnew hm

theorem Move.log_grows {w : Webrtc} {d x y : Driver} {a : Act} (hm : Move w d a x y) :
    x.log <+: y.log := by
  cases hm with
  | remoteSet =>
    simp only [enterIceFlight_eq, append_assoc]
    exact prefix_append _ _
  | restart | emitOffer | drainOffer | applyAnswer | addIce => exact (prefix_append _ [_]).trans (prefix_append _ [_])
  | _ => first | exact prefix_append _ _ | exact prefix_rfl

end Driver

theorem runDriver_concat (w : Webrtc) (acts : List Act) (a : Act) :
    runDriver w (acts ++ [a]) = (runDriver w acts).step w a := by
  rw [runDriver, Runs.run_append]
  rfl

theorem runDriver_log_concat (w : Webrtc) (acts : List Act) (a : Act) :
    (runDriver w acts).log <+: (runDriver w (acts ++ [a])).log := by
  rw [runDriver_concat]
  exact Driver.step_invariant (fun y => (runDriver w acts).log <+: y.log)
    (fun _ _ hxy hx => hx.trans hxy.log_grows) prefix_rfl

end Chromeless.Capture
