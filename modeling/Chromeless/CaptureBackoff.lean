import Chromeless.CaptureReconnect
import Chromeless.LibHistory
import Mathlib.Algebra.Order.Ring.Rat
import Mathlib.Data.List.Induction

/-! The redials between two connections, as long as the consumer does not disconnect. -/
namespace Chromeless.Capture
open Runs History SignalingWsClient List Callback

def Callback.isDeath : Callback → Bool
  | .onClosed _ _ | .onError _ => true
  | _ => false

namespace SignalingReconnect

def delay (u : ReconnectSetup) (k : ℕ) : ℚ :=
  min (u.config.initialBackoff * u.config.multiplier ^ (k - 1)) u.config.maxBackoff

/-- A part of the log between two connections, without an `OnConnected` in it. -/
def Stretch (log stretch : List Event) : Prop :=
  ∃ before e after, log = before ++ e :: (stretch ++ after) ∧ (e = .onConnected ∨ before = []) ∧ .onConnected ∉ stretch

def Current (log stretch : List Event) : Prop :=
  ∃ before e, log = before ++ e :: stretch ∧ (e = .onConnected ∨ before = []) ∧ .onConnected ∉ stretch

def dies (u : ReconnectSetup) (s : SignalingReconnect) : Act → Bool
  | .connect => s.state = .idle ∧ (SignalingWsClient.new.connect u.url).2.any isDeath
  | .disconnect => false
  | .send env written => s.state = .opened ∧ s.inner.any fun c => (c.send env written).1.2.any isDeath
  | .net event => s.inner.any fun c => (c.receive event).2.any isDeath
  | .backoffFires => s.backoffTimer.isSome ∧ s.state = .backingOff ∧ (SignalingWsClient.new.connect u.url).2.any isDeath
  | .idleFires => s.idleTimer.isSome ∧ s.state = .opened

/-- What is said of the wrapper in all runs in which the consumer does not disconnect. -/
structure Supervised (u : ReconnectSetup) (acts : List Act) : Prop where
  bounded : ∀ stretch, Stretch (runReconnect u acts).log stretch → stretch.count .dialed ≤ u.config.maxAttempts
  /-- A cap below zero is no wait at all, neither for the timer nor in the formula. -/
  delayed : ∀ stretch first rest, Stretch (runReconnect u acts).log stretch →
    stretch = first ++ .dialed :: rest →
    ∃ earlier d, first = earlier ++ [.scheduled d] ∧
      (0 ≤ u.config.maxBackoff → d = delay u (first.count .dialed + 1)) ∧
      (u.config.maxBackoff < 0 → d < 0 ∧ delay u (first.count .dialed + 1) < 0)
  single : ∀ first a rest, acts = first ++ a :: rest →
    (runReconnect u first).log.count .dialed < (runReconnect u (first ++ [a])).log.count .dialed →
    (runReconnect u first).inner = none
  /-- When the channel dies and the redials are used up, the wrapper gives up. -/
  givesUp : ∀ first a rest stretch, acts = first ++ a :: rest → dies u (runReconnect u first) a →
    Current (runReconnect u (first ++ [a])).log stretch →
    stretch.count .dialed = u.config.maxAttempts →
    ∃ earlier, stretch = earlier ++ [.onGaveUp u.config.maxAttempts]
  /-- It says so once, and then there is neither a client nor a timer nor anything that a task
changes. -/
  final : ∀ n, .onGaveUp n ∈ (runReconnect u acts).log →
    n = u.config.maxAttempts ∧ (∃ earlier, (runReconnect u acts).log = earlier ++ [.onGaveUp n] ∧
      ∀ m, .onGaveUp m ∉ earlier) ∧
    (runReconnect u acts).inner = none ∧ (runReconnect u acts).backoffTimer = none ∧
    (runReconnect u acts).idleTimer = none ∧
    ∀ later, .disconnect ∉ later → runReconnect u (acts ++ later) = runReconnect u acts

def grown (u : ReconnectSetup) : ℕ → ℚ
  | 0 => u.config.initialBackoff
  | k + 1 => min (grown u k * u.config.multiplier) u.config.maxBackoff

theorem min_mul_cut (x : ℚ) {m cap : ℚ} (hm : 1 ≤ m) (hcap : 0 ≤ cap) :
    min (min x cap * m) cap = min (x * m) cap := by
  have hgrows : cap ≤ cap * m := le_mul_of_one_le_right hcap hm
  have hm₀ : 0 ≤ m := le_trans zero_le_one hm
  rw [min_mul_of_nonneg _ _ hm₀, min_assoc, min_eq_right hgrows]

theorem min_grown (u : ReconnectSetup) (hm : 1 ≤ u.config.multiplier) (hcap : 0 ≤ u.config.maxBackoff) (k : ℕ) :
    min (grown u k) u.config.maxBackoff = delay u (k + 1) := by
  induction k with
  | zero => simp [grown, delay]
  | succ k ih =>
    have hcut := min_mul_cut (grown u k) hm hcap
    have hpow := min_mul_cut (u.config.initialBackoff * u.config.multiplier ^ k) hm hcap
    have ih' : min (grown u k) u.config.maxBackoff =
        min (u.config.initialBackoff * u.config.multiplier ^ k) u.config.maxBackoff := ih
    calc min (grown u (k + 1)) u.config.maxBackoff
        = min (grown u k * u.config.multiplier) u.config.maxBackoff := by rw [grown, min_assoc, min_self]
      _ = min (u.config.initialBackoff * u.config.multiplier ^ k * u.config.multiplier)
            u.config.maxBackoff := by rw [← hcut, ih', hpow]
      _ = delay u (k + 1 + 1) := by rw [mul_assoc, ← pow_succ]; rfl

def State.active : State → Bool
  | .connecting | .opened | .reconnecting => true
  | _ => false

/-- The logs that go with a state and a number of redials. -/
inductive Logged (u : ReconnectSetup) : State → ℕ → List Event → Prop
  | idle : Logged u .idle 0 []
  | connecting : Logged u .connecting 0 [.dialed]
  | connected {st : State} {k : ℕ} {log : List Event} (h : Logged u st k log)
      (hst : st.active = true) : Logged u .opened 0 (log ++ [.onConnected])
  | envelope {log : List Event} (h : Logged u .opened 0 log) (env : Envelope) :
      Logged u .opened 0 (log ++ [.onEnvelope env])
  | scheduled {st : State} {k : ℕ} {log : List Event} (h : Logged u st k log)
      (hst : st.active = true) (hk : k < u.config.maxAttempts) :
      Logged u .backingOff k (log ++ [.scheduled (min (grown u k) u.config.maxBackoff)])
  | redialed {k : ℕ} {log : List Event} (h : Logged u .backingOff k log) :
      Logged u .reconnecting (k + 1) (log ++ [.dialed])
  | gaveUp {st : State} {k : ℕ} {log : List Event} (h : Logged u st k log)
      (hst : st.active = true) (hk : u.config.maxAttempts ≤ k) :
      Logged u .gaveUp k (log ++ [.onGaveUp k])

section
variable {u : ReconnectSetup} {st : State} {k : ℕ} {log stretch : List Event}

theorem Logged.backingOff_inv (h : Logged u .backingOff k log) : k < u.config.maxAttempts ∧
    ∃ st l, st.active = true ∧ Logged u st k l ∧ log = l ++ [.scheduled (min (grown u k) u.config.maxBackoff)] := by
  cases h with
  | scheduled h hst hk => exact ⟨hk, _, _, hst, h, rfl⟩

theorem Logged.le (h : Logged u st k log) : k ≤ u.config.maxAttempts := by
  induction h with
  | idle | connecting | connected | envelope => exact Nat.zero_le _
  | scheduled _ _ hk => exact hk.le
  | redialed h => exact h.backingOff_inv.1
  | gaveUp _ _ _ ih => exact ih

theorem Logged.ne_nil (h : Logged u st k log) (hst : st.active = true) : log ≠ [] := by
  cases h with
  | idle => simp [State.active] at hst
  | _ => simp

variable {x : Event} {first rest : List Event}

theorem current_concat (hlog : log ≠ []) (h : Current (log ++ [x]) stretch) :
    (x = .onConnected ∧ stretch = []) ∨ ∃ t, stretch = t ++ [x] ∧ x ≠ .onConnected ∧ Current log t := by
  obtain ⟨before, e, hsp, he, hfree⟩ := h
  rcases eq_nil_or_concat stretch with rfl | ⟨t, y, rfl⟩
  · obtain ⟨hbef, hxe⟩ := append_inj' hsp rfl
    obtain rfl : x = e := by simpa using hxe
    refine .inl ⟨he.resolve_right ?_, rfl⟩
    rwa [← hbef]
  rw [concat_eq_append] at hsp hfree ⊢
  have hcut : log ++ [x] = (before ++ e :: t) ++ [y] := by simpa using hsp
  obtain ⟨rfl, hxy⟩ := append_inj' hcut rfl
  obtain rfl : x = y := by simpa using hxy
  simp only [mem_append, mem_singleton, not_or] at hfree
  exact .inr ⟨t, rfl, fun hx => hfree.2 hx.symm, before, e, rfl, he, hfree.1⟩

theorem stretch_concat (h : Stretch (log ++ [x]) stretch) :
    Stretch log stretch ∨ Current (log ++ [x]) stretch := by
  obtain ⟨before, e, after, hsp, he, hfree⟩ := h
  rcases eq_nil_or_concat after with rfl | ⟨after, y, rfl⟩
  · rw [append_nil] at hsp
    exact .inr ⟨before, e, hsp, he, hfree⟩
  · have hcut : log ++ [x] = (before ++ e :: (stretch ++ after)) ++ [y] := by simpa using hsp
    exact .inl ⟨before, e, after, (append_inj' hcut rfl).1, he, hfree⟩

theorem Logged.count_current (h : Logged u st k log) (hc : Current log stretch) :
    stretch.count .dialed = k := by
  induction h generalizing stretch with
  | idle =>
    obtain ⟨before, e, hsp, -⟩ := hc
    simp at hsp
  | connecting =>
    -- the dial of `Connect` is no redial
    obtain ⟨before, e, hsp, -⟩ := hc
    have hlen := congrArg length hsp
    simp only [length_append, length_cons, length_nil] at hlen
    obtain rfl : stretch = [] := length_eq_zero_iff.mp (by omega)
    rfl
  | connected h hst =>
    rcases current_concat (h.ne_nil hst) hc with ⟨-, rfl⟩ | ⟨-, -, hne, -⟩
    · rfl
    · exact absurd rfl hne
  | envelope h env ih =>
    rcases current_concat (h.ne_nil rfl) hc with ⟨hx, -⟩ | ⟨t, rfl, -, ht⟩
    · cases hx
    · rw [count_append, ih ht]
      rfl
  | scheduled h hst _ ih | gaveUp h hst _ ih =>
    rcases current_concat (h.ne_nil hst) hc with ⟨hx, -⟩ | ⟨t, rfl, -, ht⟩
    · cases hx
    · rw [count_append, ih ht]
      rfl
  | redialed h ih =>
    obtain ⟨-, _, _, -, -, hlog⟩ := h.backingOff_inv
    rcases current_concat (by simp [hlog]) hc with ⟨hx, -⟩ | ⟨t, rfl, -, ht⟩
    · cases hx
    · rw [count_append, ih ht]
      rfl

theorem Logged.stretch_current (h : Logged u st k log) (hs : Stretch log stretch) :
    ∃ st' k' l, Logged u st' k' l ∧ Current l stretch := by
  have hgrown : ∀ {l x st k}, Logged u st k (l ++ [x]) → Stretch (l ++ [x]) stretch →
      (Stretch l stretch → ∃ st' k' l, Logged u st' k' l ∧ Current l stretch) →
      ∃ st' k' l, Logged u st' k' l ∧ Current l stretch := by
    intro l x st k hl hs ih
    rcases stretch_concat hs with hold | hc
    · exact ih hold
    · exact ⟨st, k, _, hl, hc⟩
  have hnil : Stretch [] stretch → ∃ st' k' l, Logged u st' k' l ∧ Current l stretch := by
    rintro ⟨before, e, after, hsp, -⟩
    simp at hsp
  induction h with
  | idle => exact hnil hs
  | connecting => exact hgrown (l := []) .connecting hs hnil
  | connected h hst ih => exact hgrown (.connected h hst) hs ih
  | envelope h env ih => exact hgrown (.envelope h env) hs ih
  | scheduled h hst hk ih => exact hgrown (.scheduled h hst hk) hs ih
  | redialed h ih => exact hgrown (.redialed h) hs ih
  | gaveUp h hst hk ih => exact hgrown (.gaveUp h hst hk) hs ih

theorem redial_before (hx : x ≠ .dialed) (hlog : log ≠ []) (hc : Current (log ++ [x]) (first ++ .dialed :: rest)) :
    ∃ rest', Current log (first ++ .dialed :: rest') := by
  rcases current_concat hlog hc with ⟨-, hnil⟩ | ⟨t, ht, -, hct⟩
  · simp at hnil
  rcases concat_eq_split ht.symm with ⟨rest', rfl⟩ | ⟨-, hx'⟩
  · exact ⟨rest', hct⟩
  · exact absurd hx'.symm hx

theorem Logged.redial_current (h : Logged u st k log) (hc : Current log (first ++ .dialed :: rest)) :
    ∃ earlier, first = earlier ++ [.scheduled (min (grown u (first.count .dialed)) u.config.maxBackoff)] := by
  induction h generalizing rest with
  | idle =>
    obtain ⟨before, e, hlog, -⟩ := hc
    simp at hlog
  | connecting =>
    have hzero := Logged.count_current (Logged.connecting (u := u)) hc
    rw [count_append, count_cons_self] at hzero
    omega
  | connected h hst ih | scheduled h hst _ ih | gaveUp h hst _ ih =>
    obtain ⟨rest', hct⟩ := redial_before (by simp) (h.ne_nil hst) hc
    exact ih hct
  | envelope h env ih =>
    obtain ⟨rest', hct⟩ := redial_before (by simp) (h.ne_nil rfl) hc
    exact ih hct
  | @redialed k l h ih =>
    obtain ⟨-, _, l', hst, hl', rfl⟩ := h.backingOff_inv
    rcases current_concat (by simp) hc with ⟨hx, -⟩ | ⟨t, ht, -, hct⟩
    · cases hx
    rcases concat_eq_split ht.symm with ⟨rest', rfl⟩ | ⟨rfl, -⟩
    · exact ih hct
    -- the redial just made: before it the timer was started
    have hcnt := h.count_current hct
    rcases current_concat (hl'.ne_nil hst) hct with ⟨hx, -⟩ | ⟨earlier, rfl, -, -⟩
    · cases hx
    · exact ⟨earlier, by rw [hcnt]⟩

theorem State.active_ne_gaveUp {st : State} (h : st.active = true) : st ≠ .gaveUp := by
  rintro rfl
  cases h

theorem Logged.gaveUp_not_mem (h : Logged u st k log) (hst : st ≠ .gaveUp) (n : ℕ) :
    .onGaveUp n ∉ log := by
  induction h with
  | idle => simp
  | connecting => simp
  | connected _ hact ih | scheduled _ hact _ ih => simpa using ih (State.active_ne_gaveUp hact)
  | envelope h env ih => simpa using ih hst
  | redialed h ih => simpa using ih (by simp)
  | gaveUp => exact absurd rfl hst

theorem Logged.gaveUp_mem (h : Logged u st k log) {n : ℕ} (hn : .onGaveUp n ∈ log) :
    st = .gaveUp ∧ n = u.config.maxAttempts ∧ ∃ earlier, log = earlier ++ [.onGaveUp n] ∧
      ∀ m, .onGaveUp m ∉ earlier := by
  have hst : st = .gaveUp := by
    by_contra hst
    exact h.gaveUp_not_mem hst n hn
  subst hst
  have hle := h.le
  cases h with
  | @gaveUp st k l h hact hk =>
    have hfree := h.gaveUp_not_mem (State.active_ne_gaveUp hact)
    have hnk : n = k := by simpa [hfree n] using hn
    exact ⟨rfl, hnk.trans (Nat.le_antisymm hle hk), l, by rw [hnk], hfree⟩

end

inductive Tracked (u : ReconnectSetup) : SignalingReconnect → Prop
  | idle : Tracked u ⟨.idle, false, 0, grown u 0, none, none, none, []⟩
  | dialing {st : State} {k : ℕ} {log : List Event} (h : Logged u st k log)
      (hst : st = .connecting ∨ st = .reconnecting) :
      Tracked u ⟨st, false, k, grown u k, none, none, some ⟨.connecting⟩, log⟩
  | opened {idle : Option ℚ} {c : SignalingWsClient} {log : List Event}
      (h : Logged u .opened 0 log) (hc : c.state = .opened ∨ c.state = .closing) :
      Tracked u ⟨.opened, false, 0, grown u 0, none, idle, some c, log⟩
  | backingOff {k : ℕ} {log : List Event} (h : Logged u .backingOff k log) :
      Tracked u ⟨.backingOff, false, k, grown u (k + 1), some (min (grown u k) u.config.maxBackoff), none, none, log⟩
  | gaveUp {k : ℕ} {current : ℚ} {log : List Event} (h : Logged u .gaveUp k log) :
      Tracked u ⟨.gaveUp, false, k, current, none, none, none, log⟩

section
variable {u : ReconnectSetup} {st : State} {k : ℕ} {log : List Event}

def dead (u : ReconnectSetup) (st : State) (k : ℕ) (inner : Option SignalingWsClient)
    (log : List Event) : SignalingReconnect :=
  ⟨st, false, k, grown u k, none, none, inner, log⟩

theorem nextBackoff_eq (u : ReconnectSetup) (s : SignalingReconnect) :
    s.nextBackoff u = min s.currentBackoff u.config.maxBackoff := by
  unfold nextBackoff
  split
  next h => exact (min_eq_right h.le).symm
  next h => exact (min_eq_left (not_lt.mp h)).symm

theorem handleChannelDead_dead (inner : Option SignalingWsClient) :
    (dead u st k inner log).handleChannelDead u =
      if u.config.maxAttempts ≤ k then
        ⟨.gaveUp, false, k, grown u k, none, none, none, log ++ [.onGaveUp k]⟩
      else ⟨.backingOff, false, k, grown u (k + 1), some (min (grown u k) u.config.maxBackoff),
        none, none, log ++ [.scheduled (min (grown u k) u.config.maxBackoff)]⟩ := by
  have hzero : (u.config.maxAttempts = 0 ∨ u.config.maxAttempts ≤ k) ↔ u.config.maxAttempts ≤ k := by omega
  simp only [handleChannelDead, dead, nextBackoff_eq, hzero]
  split <;> rfl

theorem tracked_handleChannelDead (h : Logged u st k log) (hst : st.active = true)
    (inner : Option SignalingWsClient) :
    Tracked u ((dead u st k inner log).handleChannelDead u) := by
  rw [handleChannelDead_dead]
  split
  next hk => exact .gaveUp (.gaveUp h hst hk)
  next hk => exact .backingOff (.scheduled h hst (Nat.lt_of_not_le hk))

/-- A task of a wrapper that is not disconnected: the channel dies in it, or it does not. -/
inductive Turn (u : ReconnectSetup) (s : SignalingReconnect) (a : Act) :
    SignalingReconnect → Prop where
  | quiet {s' : SignalingReconnect} (hdies : dies u s a = false) (htracked : Tracked u s')
      (hdials : s.inner = none ∨ s'.log.count .dialed = s.log.count .dialed) : Turn u s a s'
  | death {st : State} {k : ℕ} {log : List Event} (inner : Option SignalingWsClient)
      (h : Logged u st k log) (hst : st.active = true)
      (hdials : s.inner = none ∨ log.count .dialed = s.log.count .dialed) :
      Turn u s a ((dead u st k inner log).handleChannelDead u)

variable {s : SignalingReconnect} {a : Act} {c : SignalingWsClient}

theorem Turn.tracked {s' : SignalingReconnect} (h : Turn u s a s') : Tracked u s' := by
  cases h with
  | quiet _ htrkd => exact htrkd
  | death inner hlog hst => exact tracked_handleChannelDead hlog hst inner

theorem armIdleTimer_eq (u : ReconnectSetup) (s : SignalingReconnect) :
    ∃ idle, s.armIdleTimer u = { s with idleTimer := idle } := by
  unfold armIdleTimer
  split
  · exact ⟨s.idleTimer, rfl⟩
  · exact ⟨some u.config.idleTimeout, rfl⟩

theorem onConnected_eq (u : ReconnectSetup) (st : State) (k : ℕ)
    (inner : Option SignalingWsClient) (log : List Event) :
    ∃ idle, (dead u st k inner log).onConnected u =
      ⟨.opened, false, 0, grown u 0, none, idle, inner, log ++ [.onConnected]⟩ := by
  obtain ⟨idle, hidle⟩ := armIdleTimer_eq u
    { dead u st k inner log with
      state := .opened, attemptsMade := 0, currentBackoff := u.config.initialBackoff }
  exact ⟨idle, by rw [onConnected, hidle]; rfl⟩

theorem observe_opened {idle : Option ℚ} {r : SignalingWsClient × Option Callback} (h : Logged u .opened 0 log)
    (hc : c.state = .opened ∨ c.state = .closing) (hr : c.Reply r) (hcnd : r.2 ≠ some .onConnected) (a : Act)
    (hs : s = ⟨.opened, false, 0, grown u 0, none, idle, some c, log⟩) (hdies : dies u s a = r.2.any isDeath)
    : Turn u s a (s.observe u r) := by
  subst hs
  cases hr with
  | keep => exact .quiet hdies (.opened h hc) (.inr rfl)
  | gone hidle => simp [hidle] at hc
  | closing => exact .quiet hdies (.opened h (.inr rfl)) (.inr rfl)
  | connected => exact absurd rfl hcnd
  | envelope hopen env =>
    simp only [observe, onEnvelope]
    obtain ⟨idle', hidle⟩ := armIdleTimer_eq u
      ⟨.opened, false, 0, grown u 0, none, idle, some c, log⟩
    rw [hidle]
    exact .quiet hdies (.opened (.envelope h env) hc) (.inr (by simp [note]))
  | closed | error => exact .death (some ⟨.closed⟩) h rfl (.inr rfl)

theorem receive_dialing (h : Logged u st k log) (hst : st = .connecting ∨ st = .reconnecting)
    (e : NetEvent) (hs : s = ⟨st, false, k, grown u k, none, none, some ⟨.connecting⟩, log⟩) :
    Turn u s (.net e) (step u s (.net e)) := by
  have hact : st.active = true := by
    rcases hst with rfl | rfl <;> rfl
  have hopen : st ≠ .closed := by
    rcases hst with rfl | rfl <;> simp
  subst hs
  cases e with
  | connectionEstablished =>
    change Turn u _ _ ((dead u st k (some ⟨.opened⟩) log).onConnected u)
    obtain ⟨idle, hidle⟩ := onConnected_eq u st k (some ⟨.opened⟩) log
    rw [hidle]
    exact .quiet rfl (.opened (.connected h hact) (.inl rfl)) (.inr (by simp))
  | message | channelError | closingHandshake => exact .quiet rfl (.dialing h hst) (.inr rfl)
  | failure => exact .death (some ⟨.closed⟩) h hact (.inr rfl)
  | dropChannel wasClean code reason =>
    cases wasClean with
    | false => exact .death (some ⟨.closed⟩) h hact (.inr rfl)
    | true =>
      have hdead : step u ⟨st, false, k, grown u k, none, none, some ⟨.connecting⟩, log⟩
          (.net (.dropChannel true code reason)) =
          (dead u st k (some ⟨.closed⟩) log).handleChannelDead u := by
        change onClosed u (dead u st k (some ⟨.closed⟩) log) code reason = _
        simp [onClosed, dead, hopen]
      rw [hdead]
      exact .death (some ⟨.closed⟩) h hact (.inr rfl)

theorem startInnerDial_turn (hinner : s.inner = none) (h : Logged u st k (log ++ [.dialed]))
    (hst : st = .connecting ∨ st = .reconnecting)
    (hdies : dies u s a = (SignalingWsClient.new.connect u.url).2.any isDeath) :
    Turn u s a ((dead u st k none log).startInnerDial u) := by
  have hact : st.active = true := by
    rcases hst with rfl | rfl <;> rfl
  cases hurl : u.url with
  | valid =>
    have hdial : (dead u st k none log).startInnerDial u =
        ⟨st, false, k, grown u k, none, none, some ⟨.connecting⟩, log ++ [.dialed]⟩ := by
      rw [startInnerDial, hurl]
      rfl
    rw [hdial]
    exact .quiet (by rw [hdies, hurl]; rfl) (.dialing h hst) (.inl hinner)
  | empty | invalid =>
    have hdial : (dead u st k none log).startInnerDial u =
        (dead u st k (some ⟨.closed⟩) (log ++ [.dialed])).handleChannelDead u := by
      rw [startInnerDial, hurl]
      rfl
    rw [hdial]
    exact .death _ h hact (.inl hinner)

theorem failWithError_ne (c : SignalingWsClient) (reason : String) :
    (c.failWithError reason).2 ≠ some .onConnected := by
  unfold failWithError
  split <;> simp

theorem receive_ne (hc : c.state ≠ .connecting) (e : NetEvent) :
    (c.receive e).2 ≠ some .onConnected := by
  cases e with
  | connectionEstablished => simp [receive, onConnectionEstablished, hc]
  | message decoded =>
    simp only [receive, onMessage]
    split
    · simp
    cases decoded with
    | none => exact failWithError_ne c _
    | some => simp
  | channelError reason =>
    simp only [receive, onChannelError]
    split
    · simp
    · exact failWithError_ne c reason
  | failure => exact failWithError_ne c _
  | closingHandshake => simp [receive, onClosingHandshake]
  | dropChannel =>
    simp only [receive, onDropChannel]
    split
    · simp
    · split <;> simp

theorem send_ne (c : SignalingWsClient) (env : Envelope) (written : Bool) :
    (c.send env written).1.2 ≠ some .onConnected := by
  unfold SignalingWsClient.send
  split
  · simp
  split
  · exact failWithError_ne c _
  split
  · simp
  · exact failWithError_ne c _

theorem Tracked.turn (hs : Tracked u s) (a : Act) (ha : a ≠ .disconnect) :
    Turn u s a (step u s a) := by
  cases hs with
  | idle =>
    cases a with
    | connect => exact startInnerDial_turn rfl (Logged.connecting (u := u)) (.inl rfl) (by simp [dies])
    | disconnect => exact absurd rfl ha
    | _ => exact .quiet rfl .idle (.inl rfl)
  | dialing h hst =>
    cases a with
    | connect | send =>
      rcases hst with rfl | rfl
      · exact .quiet rfl (.dialing h (.inl rfl)) (.inr rfl)
      · exact .quiet rfl (.dialing h (.inr rfl)) (.inr rfl)
    | disconnect => exact absurd rfl ha
    | net e => exact receive_dialing h hst e rfl
    | backoffFires | idleFires => exact .quiet rfl (.dialing h hst) (.inr rfl)
  | @opened idle c log h hc =>
    cases a with
    | connect | backoffFires => exact .quiet rfl (.opened h hc) (.inr rfl)
    | disconnect => exact absurd rfl ha
    | send env written =>
      exact observe_opened h hc (c.send_reply env written) (send_ne c env written) _ rfl (by simp [dies])
    | net e =>
      have hnot : c.state ≠ .connecting := by
        rcases hc with hc | hc <;> simp [hc]
      exact observe_opened h hc (c.receive_reply e) (receive_ne hnot e) _ rfl (by simp [dies])
    | idleFires =>
      cases idle with
      | none => exact .quiet rfl (.opened h hc) (.inr rfl)
      | some => exact .death (some c) h rfl (.inr rfl)
  | backingOff h =>
    cases a with
    | backoffFires => exact startInnerDial_turn rfl (.redialed h) (.inr rfl) (by simp [dies])
    | disconnect => exact absurd rfl ha
    | _ => exact .quiet rfl (.backingOff h) (.inl rfl)
  | gaveUp h =>
    cases a with
    | disconnect => exact absurd rfl ha
    | _ => exact .quiet rfl (.gaveUp h) (.inl rfl)

end

theorem runReconnect_concat (u : ReconnectSetup) (acts : List Act) (a : Act) :
    runReconnect u (acts ++ [a]) = step u (runReconnect u acts) a := by
  rw [runReconnect, run_append]
  rfl

theorem tracked_run (u : ReconnectSetup) (acts : List Act) (hno : .disconnect ∉ acts) :
    Tracked u (runReconnect u acts) := by
  induction acts using reverseRecOn with
  | nil => exact .idle
  | append_singleton acts a ih =>
    rw [mem_append, mem_singleton, not_or] at hno
    rw [runReconnect_concat]
    exact ((ih hno.1).turn a (Ne.symm hno.2)).tracked

variable {u : ReconnectSetup} {s s' : SignalingReconnect} {a : Act}

theorem Tracked.logged (h : Tracked u s) : Logged u s.state s.attemptsMade s.log := by
  cases h with
  | idle => exact .idle
  | dialing h | opened h | backingOff h | gaveUp h => exact h

theorem Turn.gives_up (h : Turn u s a s') (hdies : dies u s a = true) {stretch : List Event}
    (hc : Current s'.log stretch) (hcnt : stretch.count .dialed = u.config.maxAttempts) :
    ∃ earlier, stretch = earlier ++ [.onGaveUp u.config.maxAttempts] := by
  have hlgd := h.tracked.logged
  cases h with
  | quiet hqt =>
    rw [hdies] at hqt
    cases hqt
  | @death st k log inner hlog hst _ =>
    rw [handleChannelDead_dead] at hc hlgd
    split at hc
    next hk =>
      rw [if_pos hk] at hlgd
      have hkeq : k = u.config.maxAttempts := Nat.le_antisymm hlgd.le hk
      rcases current_concat (hlog.ne_nil hst) hc with ⟨hx, -⟩ | ⟨earlier, rfl, -, -⟩
      · cases hx
      · exact ⟨earlier, by rw [hkeq]⟩
    next hk =>
      rw [if_neg hk] at hlgd
      have hused := hlgd.count_current hc
      exact absurd (hcnt.symm.trans hused).le hk

theorem Turn.builds (h : Turn u s a s') (hmore : s.log.count .dialed < s'.log.count .dialed) :
    s.inner = none := by
  cases h with
  | quiet _ _ hdials =>
    rcases hdials with hnone | heq
    · exact hnone
    · omega
  | @death st k log inner _ _ hdials =>
    rcases hdials with hnone | heq
    · exact hnone
    have hlog : ((dead u st k inner log).handleChannelDead u).log.count .dialed = log.count .dialed := by
      rw [handleChannelDead_dead]
      split <;> simp
    omega

theorem run_gaveUp (u : ReconnectSetup) (k : ℕ) (current : ℚ) (log : List Event)
    (acts : List Act) (hno : .disconnect ∉ acts) :
    run (step u) ⟨.gaveUp, false, k, current, none, none, none, log⟩ acts =
      ⟨.gaveUp, false, k, current, none, none, none, log⟩ := by
  induction acts with
  | nil => rfl
  | cons a acts ih =>
    rw [mem_cons, not_or] at hno
    have hstep : step u ⟨.gaveUp, false, k, current, none, none, none, log⟩ a =
        ⟨.gaveUp, false, k, current, none, none, none, log⟩ := by
      cases a with
      | disconnect => exact absurd rfl hno.1
      | _ => rfl
    rw [run_cons, hstep]
    exact ih hno.2

/-- The supervision of the channel, in every run without a `Disconnect`. -/
theorem reconnect_supervised (u : ReconnectSetup) (hm : 1 ≤ u.config.multiplier)
    (acts : List Act) (hno : .disconnect ∉ acts) : Supervised u acts := by
  have hlogged := (tracked_run u acts hno).logged
  have hturn : ∀ first a rest, acts = first ++ a :: rest →
      Turn u (runReconnect u first) a (runReconnect u (first ++ [a])) := by
    intro first a rest hsplit
    rw [hsplit, mem_append, mem_cons, not_or, not_or] at hno
    rw [runReconnect_concat]
    exact (tracked_run u first hno.1).turn a (Ne.symm hno.2.1)
  constructor
  · intro stretch hs
    obtain ⟨st, k, l, hl, hc⟩ := hlogged.stretch_current hs
    rw [hl.count_current hc]
    exact hl.le
  · intro stretch first rest hs hsplit
    obtain ⟨st, k, l, hl, hc⟩ := hlogged.stretch_current hs
    rw [hsplit] at hc
    obtain ⟨earlier, hearlier⟩ := hl.redial_current hc
    refine ⟨earlier, _, hearlier, fun hcap => min_grown u hm hcap _, fun hcap => ?_⟩
    exact ⟨(min_le_right _ _).trans_lt hcap, (min_le_right _ _).trans_lt hcap⟩
  · intro first a rest hsplit hmore
    exact (hturn first a rest hsplit).builds hmore
  · intro first a rest stretch hsplit hdies hc hcount
    exact (hturn first a rest hsplit).gives_up hdies hc hcount
  · intro n hn
    obtain ⟨hst, hmax, hend⟩ := hlogged.gaveUp_mem hn
    have htracked := tracked_run u acts hno
    have hlater : ∀ later, runReconnect u (acts ++ later) =
        run (step u) (runReconnect u acts) later := fun later => run_append _ _ acts later
    generalize runReconnect u acts = s at hst hend htracked hlater
    cases htracked with
    | gaveUp =>
      refine ⟨hmax, hend, rfl, rfl, rfl, fun later hfree => ?_⟩
      rw [hlater]
      exact run_gaveUp u _ _ _ later hfree
    | dialing _ hdial =>
      rcases hdial with rfl | rfl <;> cases hst
    | _ => cases hst

def outage : List Act :=
  [.connect, .net .connectionEstablished, .net (.dropChannel false 1006 ""), .backoffFires,
    .net (.failure "refused" (-102) 0), .backoffFires, .net (.dropChannel true 1001 "going away")]

theorem reconnect_supervised_outage :
    Supervised { config := { maxAttempts := 2 } } outage ∧
      (runReconnect { config := { maxAttempts := 2 } } outage).log =
        [.dialed, .onConnected, .scheduled 1, .dialed, .scheduled 2, .dialed, .onGaveUp 2] :=
  ⟨reconnect_supervised _ (by decide +kernel) _ (by decide +kernel), by decide +kernel⟩

end SignalingReconnect

end Chromeless.Capture
