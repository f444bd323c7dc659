import Chromeless.CaptureAnswers
import Mathlib.Data.List.Induction

/-! How `OnRenegotiationStarted` and `OnRenegotiationCompleted` pair up. -/
namespace Chromeless.Capture
open Json History Event List

/-- Where an arm stands: in its initial dance, between renegotiations, or within one. -/
inductive Phase
  | initial
  | steady
  | renegotiating
deriving DecidableEq

/-- Within an arm the two calls alternate, and the first is `OnRenegotiationStarted`, which does not
come before the initial dance has set its remote description. -/
def pairing : Phase → Event → Option Phase
  | _, .rearmed => some .initial
  | .initial, .remoteSet => some .steady
  | .steady, .notify (.renegotiationStarted _) => some .renegotiating
  | .renegotiating, .notify .renegotiationCompleted => some .steady
  | _, .notify (.renegotiationStarted _) => none
  | _, .notify .renegotiationCompleted => none
  | phase, _ => some phase

def OffererState.allows : OffererState → Phase → Prop
  | .idle, phase | .creatingPc, phase => phase = .initial
  | .iceInFlight, phase => phase = .steady
  | .closed, _ | .failed, _ => True
  | _, phase => phase = .initial ∨ phase = .renegotiating

def Paired (log : List Event) : Prop := (track pairing .initial log).isSome = true

instance (log : List Event) : Decidable (Paired log) := inferInstanceAs (Decidable (_ = _))

def initialDance (log : List Event) : Bool :=
  (sinceLast rearms log).all fun e => e ≠ .remoteSet

namespace Driver

/-- The initial dance of an arm completes only if ICE was never in flight. -/
def FirstFlight (d : Driver) : Act → Prop
  | .setRemoteDescriptionComplete arm true _ =>
    arm = d.arm → (arm, Op.setRemoteDescription) ∈ d.ops → d.state = .settingRemote →
      initialDance d.log = true → d.wasInIceFlightOnce = false
  | _ => True

instance (d : Driver) (a : Act) : Decidable (d.FirstFlight a) :=
  match a with
  | .setRemoteDescriptionComplete _ true _ => inferInstanceAs (Decidable (_ → _ → _ → _ → _))
  | .setRemoteDescriptionComplete _ false _ => inferInstanceAs (Decidable True)
  | .start _ | .rearm _ | .requestRenegotiation | .close _ | .closeUnhealthy _ | .onConnected _
  | .onEnvelope _ | .onClosed _ _ | .onError _ | .iceCandidate _ | .iceGatheringChange _
  | .iceConnectionChange _ | .renegotiationNeeded | .createOfferSuccess _ _ _ _
  | .createOfferFailure _ _ | .setLocalDescriptionComplete _ _ _ => inferInstanceAs (Decidable True)

def Phased (d : Driver) : Prop :=
  ∃ phase, track pairing .initial d.log = some phase ∧ d.state.allows phase ∧
    (phase = .initial ↔ initialDance d.log = true) ∧ (phase ≠ .initial → d.wasInIceFlightOnce = true)

end Driver

def Event.paces : Event → Bool
  | .rearmed | .remoteSet => true
  | .notify (.renegotiationStarted _) | .notify .renegotiationCompleted => true
  | _ => false

theorem pairing_idle {e : Event} (he : e.paces = false) (phase : Phase) :
    pairing phase e = some phase := by
  rcases e with _ | _ | _ | _ | _ | _ | _ | _ | _ | ⟨_ | _ | _ | _ | _ | _⟩ <;> cases phase <;>
    first | rfl | simp [paces] at he

theorem track_pairing_append (log : List Event) {es : List Event} (hes : ∀ e ∈ es, e.paces = false) :
    track pairing .initial (log ++ es) = track pairing .initial log := by
  rw [track_append]
  cases track pairing .initial log with
  | none => rfl
  | some phase => exact track_idle pairing fun e he => pairing_idle (hes e he) phase

theorem initialDance_append (log : List Event) {es : List Event} (hes : ∀ e ∈ es, e.rearms = false ∧ e ≠ .remoteSet) :
    initialDance (log ++ es) = initialDance log := by
  have hall : (es.all fun e => decide (e ≠ .remoteSet)) = true :=
    all_eq_true.mpr fun e he => by simpa using (hes e he).2
  rw [initialDance, sinceLast_append _ fun e he => (hes e he).1, all_append, hall, Bool.and_true, initialDance]

theorem Event.paces_rearms {e : Event} (he : e.paces = false) :
    e.rearms = false ∧ e ≠ .remoteSet := by
  cases e <;> simp [paces, rearms] at he ⊢

theorem Paired.of_append {log es : List Event} (h : Paired (log ++ es)) : Paired log := by
  rw [Paired, track_append] at h
  rw [Paired]
  cases htrk : track pairing .initial log with
  | none => simp [htrk] at h
  | some => rfl

namespace Driver
variable {w : Webrtc} {d x y : Driver} {a : Act}

theorem Phased.frame (h : Phased x) (es : List Event) (hlog : y.log = x.log ++ es)
    (hes : ∀ e ∈ es, e.paces = false) (hflag : y.wasInIceFlightOnce = x.wasInIceFlightOnce)
    (hst : ∀ phase, x.state.allows phase → y.state.allows phase) : Phased y := by
  obtain ⟨phase, htrk, hok, hini, honce⟩ := h
  refine ⟨phase, ?_, hst phase hok, ?_, ?_⟩
  · rw [hlog, track_pairing_append _ hes, htrk]
  · rwa [hlog, initialDance_append _ fun e he => paces_rearms (hes e he)]
  · rwa [hflag]

theorem track_remoteSet (h : Phased d) (hx : d.state = .settingRemote) :
    track pairing .initial (d.log ++ [.remoteSet] ++ flush w d) =
      if initialDance d.log = true ∧ d.wasInIceFlightOnce = true then none else some .steady := by
  obtain ⟨phase, htrk, hok, hini, honce⟩ := h
  have hadds : ∀ e ∈ w.added d.pendingRemoteIce, e.paces = false := by
    intro e he
    obtain ⟨p, _, rfl⟩ := mem_map.mp he
    rfl
  rw [flush, ← append_assoc, track_append, track_pairing_append _ hadds, track_concat, htrk]
  have hph : phase = .initial ∨ phase = .renegotiating := by rwa [hx] at hok
  rcases hph with rfl | rfl
  -- the initial dance: silence is right, a report is not
  · have hfst := hini.mp rfl
    cases hflag : d.wasInIceFlightOnce <;> simp [hfst, pairing, track]
  have hflag := honce (by decide)
  have hlat : initialDance d.log = false := by simpa using hini
  simp [hflag, hlat, pairing, track]

theorem Phased.move (hok : d.FirstFlight a) (hm : Move w d a x y) (h : Phased x) : Phased y := by
  cases hm with
  | aside x e he =>
    have hidle : e.paces = false := by
      rcases e with _ | _ | _ | _ | _ | _ | _ | _ | _ | ⟨_ | _ | _ | _ | _ | _⟩ <;>
        simp [Event.aside, paces] at he ⊢
    exact h.frame [e] rfl (by simpa using hidle) rfl fun _ => id
  | fail | refail | close => exact h.frame [_] rfl (by simp [paces]) rfl fun _ _ => trivial
  | latch | consume | land | bufferOffer | connect | dropOffer =>
    exact h.frame [] (append_nil _).symm (by simp) rfl fun _ => id
  | trigger | coalesce | refuseOffer | record | bufferAnswer | queueIce =>
    exact h.frame [_] rfl (by simp [paces]) rfl fun _ => id
  | addIce => exact h.frame [_, _] (append_assoc _ [_] [_]) (by simp [paces]) rfl fun _ => id
  | start _ _ hx | applyEarly _ _ _ _ hx _ hp =>
    exact h.frame [_] rfl (by simp [paces]) rfl fun phase hp => by rw [hx] at hp; exact hp
  | initialOffer x hx => exact h.frame [_] rfl (by simp [paces]) rfl fun phase hp => by rw [hx] at hp; exact .inl hp
  | emitOffer _ _ hx | drainOffer _ _ hx hp | applyAnswer _ _ _ _ _ hx =>
    exact h.frame [_, _] (append_assoc _ [_] [_]) (by simp [paces]) rfl fun phase hp => by rw [hx] at hp; exact hp
  | localSet _ hx _ hp | forgetEarly _ hx =>
    exact h.frame [] (append_nil _).symm (by simp) rfl fun phase hp => by rw [hx] at hp; exact hp
  | returnToIdle x =>
    obtain ⟨phase, htrk, _⟩ := h
    refine ⟨.initial, ?_, rfl, ?_, by simp⟩
    · show track pairing .initial (x.log ++ [.rearmed]) = _
      rw [track_concat, htrk]
      cases phase <;> rfl
    show _ ↔ initialDance (x.log ++ [.rearmed]) = true
    rw [initialDance, sinceLast_reset _ rfl]
    simp
  | restart x t hx =>
    obtain ⟨phase, htrk, hph, hini, honce⟩ := h
    obtain rfl : phase = .steady := by rw [hx] at hph; exact hph
    refine ⟨.renegotiating, ?_, .inr rfl, ?_, fun _ => honce (by decide)⟩
    · show track pairing .initial (x.log ++ [.notify (.renegotiationStarted t)] ++ [_]) = _
      rw [track_concat, track_concat, htrk]
      rfl
    show _ ↔ initialDance (x.log ++ [.notify (.renegotiationStarted t)] ++ [_]) = true
    rw [initialDance_append _ (by simp [rearms]), initialDance_append _ (by simp [rearms])]
    simpa using hini
  | remoteSet arm reason ha harm hx hop =>
    -- the one place where the monitor can refuse: a first dance that is reported completed
    have hfst : ¬ (initialDance d.log = true ∧ d.wasInIceFlightOnce = true) := by
      rintro ⟨hini, hflag⟩
      rw [ha] at hok
      have hnever := hok harm (by rw [harm]; exact hop) hx hini
      rw [hflag] at hnever
      exact absurd hnever (by simp)
    refine ⟨.steady, ?_, ?_, ?_, ?_⟩
    · rw [remoteSet_log, track_remoteSet h hx, if_neg hfst]
    · simp [OffererState.allows, enterIceFlight_eq]
    · have hflush := flush_events w d (fun e => e.rearms = false ∧ e ≠ .remoteSet)
        (by simp [rearms]) (by simp [rearms])
      rw [remoteSet_log, initialDance_append _ hflush, initialDance, sinceLast_append _ (by simp [rearms])]
      simp
    · simp [enterIceFlight_eq]

theorem phased_run {acts : List Act} (hm : Runs.Meets (step w) FirstFlight new acts) :
    Phased (runDriver w acts) := by
  refine runDriver_invariant w FirstFlight Phased ?_ (fun _ _ _ _ => Phased.move) hm
  exact ⟨.initial, rfl, rfl, by simp [initialDance, sinceLast, new], by simp⟩

theorem remoteSet_log_prefixed (hop : (d.arm, .setRemoteDescription) ∈ d.ops)
    (hx : d.state = .settingRemote) (reason : String) :
    ∃ es, (d.step w (.setRemoteDescriptionComplete d.arm true reason)).log =
      d.log ++ [.remoteSet] ++ flush w d ++ es := by
  rw [step, land, if_pos hop, if_pos rfl, hopHandleSetRemoteDescriptionComplete_eq w { d with
    ops := d.ops.erase (d.arm, .setRemoteDescription) } reason hx, ← remoteSet_log]
  split
  · exact ⟨_, append_assoc _ [_] [_]⟩
  · exact ⟨[], (append_nil _).symm⟩

theorem Phased.not_paired (h : Phased d) (ha : ¬ d.FirstFlight a) : ¬ Paired (d.step w a).log := by
  intro hpair
  cases a with
  | setRemoteDescriptionComplete arm ok reason =>
    cases ok with
    | false => exact ha trivial
    | true =>
      apply ha
      rintro rfl hop hx hini
      obtain ⟨es, hlog⟩ := remoteSet_log_prefixed (w := w) hop hx reason
      rw [hlog] at hpair
      have hbefore := hpair.of_append
      by_contra hflag
      rw [Paired, track_remoteSet h hx, if_pos ⟨hini, by simpa using hflag⟩] at hbefore
      exact absurd hbefore (by simp)
  | _ => exact ha trivial

end Driver

/-- The two calls are paired in every arm exactly if every initial dance that completes does so
before ICE was ever in flight. -/
theorem renegotiation_calls_paired_iff (w : Webrtc) (acts : List Act) :
    Paired (runDriver w acts).log ↔ Runs.Meets (Driver.step w) Driver.FirstFlight .new acts := by
  constructor
  · intro hpaired
    induction acts using reverseRecOn with
    | nil => trivial
    | append_singleton acts a ih =>
      obtain ⟨es, hgrows⟩ := runDriver_log_concat w acts a
      have hmeets := ih (by rw [← hgrows] at hpaired; exact hpaired.of_append)
      rw [Runs.meets_append]
      refine ⟨hmeets, ?_, trivial⟩
      by_contra hbad
      rw [runDriver_concat] at hpaired
      exact (Driver.phased_run hmeets).not_paired hbad hpaired
  · intro hm
    obtain ⟨phase, htrack, _⟩ := Driver.phased_run hm
    rw [Paired, htrack]
    rfl

def secondSession : List Act :=
  firstDance [2] ++ [.rearm true, .start .made, .renegotiationNeeded] ++ danceIn 1 [3] [4]

theorem initial_dance_reported_completed :
    ¬ Paired (runDriver .permissive secondSession).log ∧
      .notify .renegotiationCompleted ∈
        sinceLast rearms (runDriver .permissive secondSession).log := by
  decide +kernel

end Chromeless.Capture
