import Chromeless.CaptureReconnect

/-! What `Disconnect` leaves of the reconnecting channel. -/
namespace Chromeless.Capture
open Runs SignalingWsClient

namespace SignalingWsClient

theorem receive_closed (e : NetEvent) : (⟨.closed⟩ : SignalingWsClient).receive e = (⟨.closed⟩, none) := by
  cases e with
  | dropChannel => rfl
  | _ => rfl

end SignalingWsClient

namespace SignalingReconnect

def Act.fails : Act → Bool
  | .net (.failure _ _ _) => true
  | _ => false

/-- `Disconnect` finds no dial under way and comes before the wrapper has given up, and the channel
does not fail while it is being closed. -/
def Orderly (s : SignalingReconnect) (a : Act) : Prop :=
  (a = .disconnect → s.disconnectRequested = true ∨ s.state ≠ .gaveUp ∧ s.inner ≠ some ⟨.connecting⟩) ∧
  (a.fails = true → s.disconnectRequested = false ∨ s.inner ≠ some ⟨.closing⟩)

instance (s : SignalingReconnect) (a : Act) : Decidable (s.Orderly a) :=
  inferInstanceAs (Decidable ((_ → _ ∨ _ ∧ _) ∧ (_ → _ ∨ _)))

def Act.drops : Act → Bool
  | .net (.dropChannel _ _ _) => true
  | _ => false

def Event.isClosed : Event → Bool
  | .onClosed _ _ => true
  | _ => false

/-- Nothing comes of the tasks but one `OnClosed`, at the latest when the channel is gone. -/
structure Terminates (u : ReconnectSetup) (s : SignalingReconnect) (acts : List Act) : Prop where
  silent : ∃ news, (run (step u) s.disconnect acts).log = s.log ++ news ∧
    (∀ e ∈ news, e.isClosed = true) ∧
    news.length = if (run (step u) s.disconnect acts).state = .closed then 1 else 0
  final : ∀ first, first <+: acts → (run (step u) s.disconnect first).state = .closed →
    (run (step u) s.disconnect acts).state = .closed
  pending : (run (step u) s.disconnect acts).state ≠ .closed → (run (step u) s.disconnect acts).inner = some ⟨.closing⟩
  reported : (∃ a ∈ acts, a.drops = true) → (run (step u) s.disconnect acts).state = .closed

structure Wired (s : SignalingReconnect) : Prop where
  unasked : s.disconnectRequested = false
  undone : s.state ≠ .closed
  inner : ∀ c, s.inner = some c → c.state = .connecting ∨ (c.state = .opened ∨ c.state = .closing) ∧ s.state = .opened

theorem new_wired (u : ReconnectSetup) : (new u).Wired :=
  ⟨rfl, by simp [new], by simp [new]⟩

theorem handleChannelDead_wired (u : ReconnectSetup) (s : SignalingReconnect)
    (hs : s.disconnectRequested = false) : (s.handleChannelDead u).Wired := by
  simp only [handleChannelDead]
  split <;> exact ⟨hs, by simp [note], by simp [note]⟩

variable {s t : SignalingReconnect} {acts : List Act} {a : Act}

section
variable (u : ReconnectSetup)

theorem armIdleTimer_wired (hs : s.Wired) : (s.armIdleTimer u).Wired := by
  unfold armIdleTimer
  split
  · exact hs
  · exact ⟨hs.unasked, hs.undone, hs.inner⟩

theorem observe_wired {c : SignalingWsClient} (hs : s.Wired)
    (hc : s.inner = some c) {r : SignalingWsClient × Option Callback} (hr : c.Reply r) :
    (s.observe u r).Wired := by
  have hlive := hs.inner c hc
  have hself : { s with inner := some c }.Wired :=
    ⟨hs.unasked, hs.undone, fun c' h => by obtain rfl := Option.some.inj h; exact hlive⟩
  cases hr with
  | keep => exact hself
  | gone hidle => rcases hlive with h | ⟨h | h, _⟩ <;> simp [h] at hidle
  | closing hopen =>
    have hst : s.state = .opened := by
      rcases hlive with h | h
      · simp [h] at hopen
      · exact h.2
    refine ⟨hs.unasked, hs.undone, ?_⟩
    intro c' h
    obtain rfl := Option.some.inj h
    exact .inr ⟨.inr rfl, hst⟩
  | connected =>
    have hopen : ({ s with
        inner := some ⟨.opened⟩, state := .opened, attemptsMade := 0
        currentBackoff := u.config.initialBackoff } : SignalingReconnect).Wired := by
      refine ⟨hs.unasked, by simp, ?_⟩
      intro c' h
      obtain rfl := Option.some.inj h
      exact .inr ⟨.inl rfl, rfl⟩
    have hamd := armIdleTimer_wired u hopen
    exact ⟨hamd.unasked, hamd.undone, hamd.inner⟩
  | envelope =>
    have hamd := armIdleTimer_wired u hself
    exact ⟨hamd.unasked, hamd.undone, hamd.inner⟩
  | closed =>
    -- nobody asked for this close, so it is taken for a drop
    have hdrop : ¬ (s.state = .closed ∨ s.disconnectRequested = true) := by simp [hs.undone, hs.unasked]
    simp only [observe, onClosed, if_neg hdrop]
    exact handleChannelDead_wired u _ hs.unasked
  | error => exact handleChannelDead_wired u _ hs.unasked

theorem startInnerDial_wired (hs : s.disconnectRequested = false)
    (hst : s.state ≠ .closed) : (s.startInnerDial u).Wired := by
  unfold startInnerDial
  cases u.url with
  | empty | invalid => exact handleChannelDead_wired u _ hs
  | valid =>
    refine ⟨hs, hst, ?_⟩
    intro c h
    obtain rfl := Option.some.inj h
    exact .inl rfl

theorem step_wired (s : SignalingReconnect) (a : Act) (ha : a ≠ .disconnect) (hs : s.Wired) : (step u s a).Wired := by
  cases a with
  | connect =>
    simp only [step, connect]
    split
    · exact hs
    · exact startInnerDial_wired u hs.unasked (by simp)
  | disconnect => exact absurd rfl ha
  | send env written =>
    simp only [step, send]
    split
    · exact hs
    split
    · exact hs
    next c hc => exact observe_wired u hs hc (c.send_reply env written)
  | net e =>
    simp only [step]
    split
    · exact hs
    next c hc => exact observe_wired u hs hc (c.receive_reply e)
  | backoffFires =>
    simp only [step, onBackoffFired]
    split
    · exact hs
    split
    · exact ⟨hs.unasked, hs.undone, hs.inner⟩
    · exact startInnerDial_wired u hs.unasked (by simp)
  | idleFires =>
    simp only [step, onIdleFired]
    split
    · exact hs
    split
    · exact ⟨hs.unasked, hs.undone, hs.inner⟩
    · exact handleChannelDead_wired u _ hs.unasked

theorem run_wired (hacts : .disconnect ∉ acts) :
    (runReconnect u acts).Wired := by
  have hkeep : ∀ s : SignalingReconnect, s.Wired → (run (step u) s acts).Wired := by
    induction acts with
    | nil => exact fun s hs => hs
    | cons a acts ih =>
      rw [List.mem_cons, not_or] at hacts
      exact fun s hs => ih hacts.2 _ (step_wired u s a (Ne.symm hacts.1) hs)
  exact hkeep _ (new_wired u)

end

structure Closing (s : SignalingReconnect) : Prop where
  state : s.state = .opened
  asked : s.disconnectRequested = true
  backoff : s.backoffTimer = none
  idle : s.idleTimer = none
  inner : s.inner = some ⟨.closing⟩

structure Done (s : SignalingReconnect) : Prop where
  state : s.state = .closed
  backoff : s.backoffTimer = none
  idle : s.idleTimer = none
  inner : s.inner = none ∨ s.inner = some ⟨.closed⟩

section
variable (u : ReconnectSetup)

theorem Done.step_eq (hs : s.Done) (a : Act) : step u s a = s := by
  cases a with
  | connect => simp [step, connect, hs.state]
  | disconnect => simp [step, disconnect, hs.state]
  | send => simp [step, send, hs.state]
  | net =>
    rcases hs.inner with h | h
    · simp [step, h]
    · simp only [step, h, SignalingWsClient.receive_closed, observe]
      rw [← h]
  | backoffFires => simp [step, hs.backoff]
  | idleFires => simp [step, hs.idle]

theorem Done.run_eq (hs : s.Done) (acts : List Act) :
    run (step u) s acts = s := by
  induction acts with
  | nil => rfl
  | cons a acts ih => rw [run_cons, hs.step_eq u a, ih]

theorem Closing.drop (hs : s.Closing) (clean : Bool) (code : ℕ) (reason : String) :
    (step u s (.net (.dropChannel clean code reason))).Done ∧
      (step u s (.net (.dropChannel clean code reason))).log = s.log ++ [.onClosed code reason] := by
  have hrec : (⟨.closing⟩ : SignalingWsClient).receive (.dropChannel clean code reason) =
      (⟨.closed⟩, some (.onClosed code reason)) := by
    simp [receive, onDropChannel]
  simp only [step, hs.inner, hrec, observe, onClosed, hs.asked, or_true, if_true]
  exact ⟨⟨rfl, hs.backoff, rfl, .inr rfl⟩, rfl⟩

theorem Closing.step_eq (hs : s.Closing) (ha : s.Orderly a) (hdrop : a.drops = false) : step u s a = s := by
  have hkeep : { s with inner := some ⟨.closing⟩ } = s := by rw [← hs.inner]
  cases a with
  | connect => simp [step, connect, hs.state]
  | disconnect =>
    obtain ⟨state, asked, attempts, delay, backoff, idle, inner, log⟩ := s
    obtain ⟨rfl, rfl, rfl, rfl, rfl⟩ := hs
    rfl
  | send =>
    simp only [step, send, hs.state, hs.inner]
    exact hkeep
  | net e =>
    simp only [step, hs.inner]
    cases e with
    | dropChannel => simp [Act.drops] at hdrop
    | failure =>
      rcases ha.2 rfl with h | h
      · simp [hs.asked] at h
      · exact absurd hs.inner h
    | _ => exact hkeep
  | backoffFires => simp [step, hs.backoff]
  | idleFires => simp [step, hs.idle]

end

def Ended (s t : SignalingReconnect) : Prop :=
  t.Closing ∧ t.log = s.log ∨ t.Done ∧ ∃ code reason, t.log = s.log ++ [.onClosed code reason]

theorem disconnect_ended (hs : s.Wired) (hok : s.Orderly .disconnect) : Ended s s.disconnect := by
  obtain ⟨hgave, hdial⟩ : s.state ≠ .gaveUp ∧ s.inner ≠ some ⟨.connecting⟩ :=
    (hok.1 rfl).resolve_left (by simp [hs.unasked])
  have hlive : ¬ (s.state = .closed ∨ s.state = .gaveUp) := by simp [hs.undone, hgave]
  simp only [disconnect, if_neg hlive]
  cases hinner : s.inner with
  | none => exact .inr ⟨⟨rfl, rfl, rfl, .inl rfl⟩, 1000, "wrapper-disconnect-noop", rfl⟩
  | some c =>
    obtain ⟨state⟩ := c
    rcases hs.inner _ hinner with h | ⟨h | h, hopen⟩
    · obtain rfl : state = .connecting := h
      exact absurd hinner hdial
    · obtain rfl : state = .opened := h
      exact .inl ⟨⟨hopen, rfl, rfl, rfl, rfl⟩, rfl⟩
    · obtain rfl : state = .closing := h
      exact .inl ⟨⟨hopen, rfl, rfl, rfl, rfl⟩, rfl⟩

theorem Act.drops_eq (ha : a.drops = true) :
    ∃ clean code reason, a = .net (.dropChannel clean code reason) := by
  unfold Act.drops at ha
  split at ha
  · exact ⟨_, _, _, rfl⟩
  · simp at ha

section
variable (u : ReconnectSetup)

theorem Ended.drop (ht : Ended s t) (ha : a.drops = true) :
    Ended s (step u t a) ∧ (step u t a).Done := by
  obtain ⟨clean, code, reason, rfl⟩ := Act.drops_eq ha
  rcases ht with ⟨hclg, hlog⟩ | ⟨hdone, hlog⟩
  · obtain ⟨hdone, hnews⟩ := hclg.drop u clean code reason
    exact ⟨.inr ⟨hdone, code, reason, by rw [hnews, hlog]⟩, hdone⟩
  · rw [hdone.step_eq u]
    exact ⟨.inr ⟨hdone, hlog⟩, hdone⟩

theorem Ended.step (hok : t.Orderly a) (ht : Ended s t) :
    Ended s (step u t a) := by
  by_cases hdrop : a.drops = true
  · exact (ht.drop u hdrop).1
  have hstay : SignalingReconnect.step u t a = t := by
    rcases ht with ⟨hclg, _⟩ | ⟨hdone, _⟩
    · exact hclg.step_eq u hok (by simpa using hdrop)
    · exact hdone.step_eq u a
  rwa [hstay]

theorem Ended.run (ht : Ended s t) (hok : Meets (SignalingReconnect.step u) Orderly t acts) :
    Ended s (run (SignalingReconnect.step u) t acts) :=
  invariant_run_meets _ Orderly (Ended s) (fun _ _ hok h => h.step u hok) ht hok

end

theorem Ended.done (ht : Ended s t) (hst : t.state = .closed) : t.Done := by
  rcases ht with ⟨hclg, _⟩ | ⟨hdone, _⟩
  · simp [hclg.state] at hst
  · exact hdone

/-- If `Disconnect` comes neither during a dial nor after giving up, and the channel does not fail
while it closes, it ends in one `OnClosed` and nothing else. -/
theorem disconnect_terminates (u : ReconnectSetup) (before after : List Act) (hfirst : .disconnect ∉ before)
    (hok : Meets (step u) Orderly (new u) (before ++ .disconnect :: after)) :
    Terminates u (runReconnect u before) after := by
  rw [meets_append] at hok
  obtain ⟨hnow, hafter⟩ := hok.2
  have hended : Ended (runReconnect u before) (runReconnect u before).disconnect :=
    disconnect_ended (run_wired u hfirst) hnow
  refine ⟨?_, ?_, ?_, ?_⟩
  · rcases hended.run u hafter with ⟨hclosing, hlog⟩ | ⟨hdone, code, reason, hlog⟩
    · exact ⟨[], by rw [hlog, List.append_nil], by simp, by simp [hclosing.state]⟩
    · exact ⟨_, hlog, by simp [Event.isClosed], by simp [hdone.state]⟩
  · rintro first ⟨rest, rfl⟩ hclosed
    rw [meets_append] at hafter
    rwa [run_append, ((hended.run u hafter.1).done hclosed).run_eq u rest]
  · intro hopen
    rcases hended.run u hafter with ⟨hclosing, _⟩ | ⟨hdone, _⟩
    · exact hclosing.inner
    · exact absurd hdone.state hopen
  · rintro ⟨a, ha, hdrop⟩
    obtain ⟨first, rest, rfl⟩ := List.append_of_mem ha
    rw [meets_append] at hafter
    have hdone := ((hended.run u hafter.1).drop u hdrop).2
    rw [run_append, run_cons, hdone.run_eq u rest]
    exact hdone.state

theorem disconnect_terminates_when_open :
    Terminates {} (runReconnect {} [.connect, .net .connectionEstablished])
      [.net (.message (some ⟨.bye, .client, .monostate⟩)), .connect, .disconnect, .backoffFires,
        .net (.dropChannel true 1000 ""), .idleFires] :=
  disconnect_terminates _ _ _ (by decide) (by decide +kernel)

/-- A dial under way still opens the channel after the consumer was told that it is closed, and a
channel that fails while it closes is dialed again. -/
theorem disconnect_leaves_dial :
    ¬ Terminates {} (runReconnect {} [.connect]) [.net .connectionEstablished] ∧
    (runReconnect {} [.connect, .disconnect, .net .connectionEstablished]).log =
      [.dialed, .onClosed 1000 "wrapper-disconnect-noop", .onConnected] ∧
    (runReconnect {} [.connect, .net .connectionEstablished, .disconnect,
        .net (.failure "net::ERR_CONNECTION_RESET" (-101) (-1)), .backoffFires]).log =
      [.dialed, .onConnected, .scheduled 1, .dialed] := by
  refine ⟨?_, by decide +kernel, by decide +kernel⟩
  intro h
  have hclosed := h.final [] ⟨_, rfl⟩ (by decide +kernel)
  exact absurd hclosed (by decide +kernel)

end SignalingReconnect

end Chromeless.Capture
