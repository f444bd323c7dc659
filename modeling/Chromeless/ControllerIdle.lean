import Chromeless.ControllerChanges

/-! Idle drain against heartbeats. -/
namespace Chromeless.Controller
open Function Versions Cluster BrowserSession Store Option

variable {t t' : ℕ}

theorem stamp_mono (h : t ≤ t') : stamp t ≤ stamp t' :=
  Nat.mul_le_mul_right _ (Nat.div_le_div_right h)

def BrowserSession.IdleAt (sess : BrowserSession) (clock : ℕ) : Prop :=
  ∃ last, sess.status.lastActivityAt = some last ∧ last + sess.idleTimeout ≤ clock

theorem BrowserSession.IdleAt.mono {sess : BrowserSession} (h : sess.IdleAt t) (hle : t ≤ t') :
    sess.IdleAt t' := by
  obtain ⟨last, hlast, hidle⟩ := h
  exact ⟨last, hlast, hidle.trans hle⟩

def StatusUpdate.now : StatusUpdate → Option ℕ
  | .ready _ _ now => some now
  | .activity now => some now
  | _ => none

def Pc.now : Pc → Option ℕ
  | .statusGet _ m _ => m.now
  | .statusUpdate _ m _ _ => m.now
  | _ => none

def Pc.foundIdle : Pc → Option BrowserSession
  | .statusGet sess .draining _ => some sess
  | .statusUpdate sess .draining _ _ => some sess
  | _ => none

namespace Cluster

/-- A session moved to Draining is Ready and idle for its timeout, and so are all the heartbeats
acknowledged for it. -/
def DrainsIdle (s s' : Cluster) : Prop :=
  ∀ n x x', s.sessions.value n = some x → s'.sessions.value n = some x' →
    x.status.phase ≠ .draining → x'.status.phase = .draining →
    x.status.phase = .ready ∧ x.IdleAt s.clock ∧
      ∀ ack ∈ s.acks, ack.name = n → ack.uid = x.uid → ack.at_ + x.idleTimeout ≤ s.clock

/-- A session read again to be drained has the activity time and timeout it was found idle with, and
a reconcile writes no activity time before the stored one. -/
def decisionStands (s : Cluster) : Act → Bool
  | .work n _ _ =>
    match s.workers n with
    | .statusGet sess .draining _ =>
      (s.sessions.value n).all fun x =>
        x.status.lastActivityAt = sess.status.lastActivityAt &&
          x.spec.idleTimeoutSeconds = sess.spec.idleTimeoutSeconds
    | .statusUpdate _ m latest _ =>
      s.sessions.version n ≠ some latest.version ||
        m.now.all fun now => latest.value.status.lastActivityAt.all fun last => last ≤ stamp now
    | _ => true
  | _ => true

structure Timely (s : Cluster) : Prop where
  activity : ∀ n x last, s.sessions.value n = some x → x.status.lastActivityAt = some last → last ≤ stamp s.clock
  uids : ∀ n x, s.sessions.value n = some x → x.uid < s.sessions.next
  acks : ∀ ack ∈ s.acks, ack.at_ ≤ stamp s.clock ∧ ack.uid < s.sessions.next
  now : ∀ n now, (s.workers n).now = some now → now ≤ s.clock
  foundIdle : ∀ n sess, (s.workers n).foundIdle = some sess → sess.IdleAt s.clock
  latestIdle : ∀ n sess latest tries, s.workers n = .statusUpdate sess .draining latest tries →
    latest.value.IdleAt s.clock
  beatRead : ∀ i name latest last, s.requests i = .heartbeatNow name latest →
    latest.value.status.lastActivityAt = some last → last ≤ stamp s.clock
  beat : ∀ i name latest now, s.requests i = .heartbeatUpdate name latest now →
    now ≤ s.clock ∧
      (∀ last, latest.value.status.lastActivityAt = some last → last ≤ stamp now) ∧
      (s.sessions.version name = some latest.version → ∀ ack ∈ s.acks, ack.name = name →
        ack.uid = latest.value.uid → ack.at_ ≤ stamp now)
  recorded : ∀ ack ∈ s.acks, ∀ x last, s.sessions.value ack.name = some x → x.uid = ack.uid →
    x.status.lastActivityAt = some last → ack.at_ ≤ last
  unrecorded : ∀ ack ∈ s.acks, ∀ x now, s.sessions.value ack.name = some x → x.uid = ack.uid →
    x.status.lastActivityAt = none → (s.workers ack.name).now = some now → ack.at_ ≤ stamp now

theorem Timely.init : Timely init := by
  refine ⟨?_, ?_, ?_, ?_, ?_, ?_, ?_, ?_, ?_, ?_⟩
  · intro n x last h
    cases h
  · intro n x h
    cases h
  · nofun
  · nofun
  · intro n sess h
    cases h
  · intro n sess latest tries h
    cases h
  · intro i name latest last h
    cases h
  · intro i name latest now h
    cases h
  · nofun
  · intro ack h
    cases h

section
variable {s : Cluster} {n : String}

theorem next_le_apply (s : Cluster) (e : Effect) :
    s.sessions.next ≤ (s.apply e).sessions.next := by
  cases e with
  | putSession name sess => exact s.sessions.next_le_set name sess
  | _ => exact le_refl _

variable {e : Effect}

theorem next_lt_apply {x : BrowserSession} (hnone : s.sessions.value n = none)
    (h : (s.apply e).sessions.value n = some x) : s.sessions.next < (s.apply e).sessions.next := by
  cases e with
  | putSession name =>
    by_cases hn : n = name
    · subst hn
      exact next_lt_set (by simp [hnone])
    · simp only [apply, value_set, update_of_ne hn, hnone] at h
      cases h
  | removeSession name =>
    by_cases hn : n = name
    · simp [apply, hn] at h
    · simp only [apply, value_erase, update_of_ne hn, hnone] at h
      cases h
  | _ =>
    simp only [apply, hnone] at h
    cases h

theorem version_of_apply {c : Stored BrowserSession} (hc : s.sessions.IsCopy n c)
    (h : (s.apply e).sessions.version n = some c.version) :
    s.sessions.version n = some c.version := by
  cases e with
  | putSession => exact hc.version_of_set h
  | removeSession => exact version_of_erase h
  | _ => exact h

end

end Cluster

section
variable {cfg : Config} {s s' : Cluster} {a : Act} {n : String}

theorem Move.next_le (hmove : Move cfg s a s') : s.sessions.next ≤ s'.sessions.next := by
  obtain ⟨e, he⟩ := hmove.apply_sessions
  rw [he]
  exact s.next_le_apply e

variable {x' sess : BrowserSession} {last i : ℕ} {ack : Ack} {e : Effect} {pc pc' : Pc}
  {latest : Stored BrowserSession} {name : String}

theorem Move.activity (hmove : Move cfg s a s') (hs : Copies s) (ht : s.Timely)
    (hget' : s'.sessions.value n = some x') (hlast : x'.status.lastActivityAt = some last) :
    last ≤ stamp s'.clock := by
  have hold {x : BrowserSession} (hget : s.sessions.value n = some x)
      (hx : x.status.lastActivityAt = some last) : last ≤ stamp s'.clock :=
    (ht.activity n x last hget hx).trans (stamp_mono hmove.clock_le)
  cases hmove.sessionChange hs hget' with
  | same hget => exact hold hget hlast
  | @status pick ok sess m latest tries hact hpc hver hget heq =>
    subst heq
    have hnow (now : ℕ) (hm : m.now = some now) : stamp now ≤ stamp s'.clock :=
      stamp_mono ((ht.now n now (by rw [hpc]; exact hm)).trans hmove.clock_le)
    cases m with
    | ready _ _ now | activity now =>
      cases hlast
      exact hnow now rfl
    | _ => exact hold hget hlast
  | @finalizer _ _ hget heq | rewritten _ hget heq | @marked _ _ _ hget heq =>
    subst heq
    exact hold hget hlast
  | minted _ _ heq | reset _ _ heq =>
    subst heq
    cases hlast
  | @heartbeat i now latest hpc hget hver heq =>
    subst heq
    cases hlast
    exact stamp_mono ((ht.beat i n latest now hpc).1.trans hmove.clock_le)

theorem Move.uids (hmove : Move cfg s a s') (hs : Copies s) (ht : s.Timely)
    (hget' : s'.sessions.value n = some x') : x'.uid < s'.sessions.next := by
  obtain ⟨x, hget, huid⟩ | ⟨hget, huid⟩ := (hmove.sessionChange hs hget').uid
  · exact huid ▸ (ht.uids n x hget).trans_le hmove.next_le
  obtain ⟨e, he⟩ := hmove.apply_sessions
  rw [he] at hget'
  rw [huid, he]
  exact Cluster.next_lt_apply hget hget'

theorem Move.acksBounded (hmove : Move cfg s a s') (hs : Copies s) (ht : s.Timely)
    (h : ack ∈ s'.acks) : ack.at_ ≤ stamp s'.clock ∧ ack.uid < s'.sessions.next := by
  obtain hold | ⟨i, name, latest, now, hpc, hver, -, rfl⟩ := hmove.acks_cases h
  · obtain ⟨htime, huid⟩ := ht.acks ack hold
    exact ⟨htime.trans (stamp_mono hmove.clock_le), huid.trans_le hmove.next_le⟩
  have hcopy := hs.requests i name latest (by rw [hpc]; rfl)
  exact ⟨stamp_mono ((ht.beat i name latest now hpc).1.trans hmove.clock_le),
    (ht.uids name _ (hcopy.value_eq hver)).trans_le hmove.next_le⟩

theorem WorkCall.now (hcall : WorkCall cfg s n pc e pc') {now : ℕ} (h : pc'.now = some now) :
    pc.now = some now ∨ now = s.clock := by
  cases hcall with
  | stay | statusRead | statusConflict => exact .inl h
  | neverActive | toReady => exact .inr (Option.some.inj h).symm
  | _ => cases h

theorem Move.now (hmove : Move cfg s a s') (hs : Copies s) (ht : s.Timely) {now : ℕ}
    (h : (s'.workers n).now = some now) : now ≤ s'.clock := by
  obtain ⟨e, pc', hcall, rfl, -⟩ | hfrm := hmove.own_or_frame hs n
  · simp only [setWorker_workers, update_self] at h
    refine le_trans ?_ hmove.clock_le
    obtain h | rfl := hcall.now h
    · exact ht.now n now h
    · exact le_refl _
  · rw [hfrm.worker] at h
    exact (ht.now n now h).trans hmove.clock_le

theorem WorkCall.foundIdle (hcall : WorkCall cfg s n pc e pc') (h : pc'.foundIdle = some sess) :
    pc.foundIdle = some sess ∨ sess.IdleAt s.clock := by
  cases hcall with
  | stay => exact .inl h
  | idleFor hfin hph hlast hidle =>
    cases h
    exact .inr ⟨_, hlast, hidle⟩
  | @statusRead _ m | @statusConflict _ m =>
    cases m <;> exact .inl h
  | _ => cases h

theorem Move.foundIdle (hmove : Move cfg s a s') (hs : Copies s) (ht : s.Timely)
    (h : (s'.workers n).foundIdle = some sess) : sess.IdleAt s'.clock := by
  refine IdleAt.mono ?_ hmove.clock_le
  obtain ⟨e, pc', hcall, rfl, -⟩ | hfrm := hmove.own_or_frame hs n
  · simp only [setWorker_workers, update_self] at h
    obtain h | h := hcall.foundIdle h
    · exact ht.foundIdle n sess h
    · exact h
  · rw [hfrm.worker] at h
    exact ht.foundIdle n sess h

theorem Move.latestIdle (hmove : Move cfg s a s') (hs : Copies s) (ht : s.Timely)
    (hcond : s.decisionStands a = true) {tries : ℕ} (h : s'.workers n = .statusUpdate sess .draining latest tries) :
    latest.value.IdleAt s'.clock := by
  refine IdleAt.mono ?_ hmove.clock_le
  obtain ⟨e, pc', hcall, rfl, hact⟩ | hfrm := hmove.own_or_frame hs n
  · simp only [setWorker_workers, update_self] at h
    subst h
    have hfound := ht.foundIdle n
    have hlst := ht.latestIdle n
    generalize hpc : s.workers n = pc at hcall hfound hlst
    cases hcall with
    | stay => exact hlst _ _ _ rfl
    | statusRead hget =>
      obtain hidle | ⟨pick, ok, rfl⟩ := hact
      · cases hidle
      simp only [Cluster.decisionStands, hpc, value_of_objects hget, all_some,
        Bool.and_eq_true, decide_eq_true_eq] at hcond
      obtain ⟨last, hlast, hidle⟩ := hfound sess rfl
      refine ⟨last, hcond.1.trans hlast, ?_⟩
      simpa only [idleTimeout, hcond.2] using hidle
  · rw [hfrm.worker] at h
    exact ht.latestIdle n sess latest tries h

theorem Request.start_ne {r : Request} {pc : RequestPc} (hpc : pc.sessionCopy ≠ none) :
    r.start ≠ pc := by
  rintro rfl
  exact hpc r.start_copy

section
variable (hmove : Move cfg s a s')
include hmove

theorem Move.beatRead (ht : s.Timely) (h : s'.requests i = .heartbeatNow name latest)
    (hlast : latest.value.status.lastActivityAt = some last) : last ≤ stamp s'.clock := by
  refine le_trans ?_ (stamp_mono hmove.clock_le)
  have hbeat := ht.beatRead i
  obtain hsame | ⟨-, e, hcall⟩ | ⟨r, hr⟩ := hmove.request_cases i
  · exact hbeat name latest last (hsame ▸ h) hlast
  · rw [h] at hcall
    generalize s.requests i = pc at hcall hbeat
    cases hcall with
    | stay => exact hbeat name latest last rfl hlast
    | beatRead hget => exact ht.activity name _ last (value_of_objects hget) hlast
  · exact absurd (hr.symm.trans h) (Request.start_ne (by simp [RequestPc.sessionCopy]))

theorem Move.beatAfter (hs : Copies s) (ht : s.Timely) {now : ℕ}
    (hpc : s.requests i = .heartbeatUpdate name latest now) (hver : s'.sessions.version name = some latest.version)
    (hack : ack ∈ s'.acks) (hname : ack.name = name) (huid : ack.uid = latest.value.uid) : ack.at_ ≤ stamp now := by
  have hcopy := hs.requests i name latest (by rw [hpc]; rfl)
  obtain ⟨-, hlast, hacks⟩ := ht.beat i name latest now hpc
  obtain ⟨e, he⟩ := hmove.apply_sessions
  obtain hold | ⟨j, name', latest', now', -, -, hset, rfl⟩ := hmove.acks_cases hack
  · rw [he] at hver
    exact hacks (Cluster.version_of_apply hcopy hver) ack hold hname huid
  -- the version did not change, so the heartbeat just written is the recorded one
  cases hname
  rw [hset] at hver
  have hval := (hcopy.set name' (latest'.value.touched now')).value_eq hver
  rw [value_set, update_self] at hval
  exact hlast _ (by rw [← Option.some.inj hval]; rfl)

theorem Move.beat (hs : Copies s) (ht : s.Timely) {now : ℕ} (h : s'.requests i = .heartbeatUpdate name latest now) :
    now ≤ s'.clock ∧
      (∀ last, latest.value.status.lastActivityAt = some last → last ≤ stamp now) ∧
      (s'.sessions.version name = some latest.version → ∀ ack ∈ s'.acks, ack.name = name →
        ack.uid = latest.value.uid → ack.at_ ≤ stamp now) := by
  have hread := ht.beatRead i
  have hacks : ∀ ack ∈ s'.acks, ack.at_ ≤ stamp s'.clock := fun ack hack => (hmove.acksBounded hs ht hack).1
  by_cases hpc : s.requests i = .heartbeatUpdate name latest now
  · obtain ⟨hnow, hlast, -⟩ := ht.beat i name latest now hpc
    exact ⟨hnow.trans hmove.clock_le, hlast, fun hver ack => hmove.beatAfter hs ht hpc hver⟩
  obtain hsame | ⟨hclock, e, hcall⟩ | ⟨r, hr⟩ := hmove.request_cases i
  · exact absurd (hsame ▸ h) hpc
  · rw [h] at hcall
    generalize s.requests i = pc at hcall hread hpc
    cases hcall with
    | stay => exact absurd rfl hpc
    | beatNow =>
      refine ⟨hmove.clock_le, fun last => hread _ _ _ rfl, ?_⟩
      intro _ ack hack _ _
      exact hclock ▸ hacks ack hack
  · exact absurd (hr.symm.trans h) (Request.start_ne (by simp [RequestPc.sessionCopy]))

theorem Move.ackRecorded (hs : Copies s) (ht : s.Timely) (hcond : s.decisionStands a = true) (hack : ack ∈ s'.acks)
    (hget' : s'.sessions.value ack.name = some x') (huid : x'.uid = ack.uid)
    (hlast : x'.status.lastActivityAt = some last) : ack.at_ ≤ last := by
  obtain hack | ⟨i, name, latest, now, -, -, hset, rfl⟩ := hmove.acks_cases hack
  · have hold {x : BrowserSession} (hget : s.sessions.value ack.name = some x)
        (hx : x.uid = ack.uid) (hxlast : x.status.lastActivityAt = some last) : ack.at_ ≤ last :=
      ht.recorded ack hack x last hget hx hxlast
    cases hmove.sessionChange hs hget' with
    | same hget => exact hold hget huid hlast
    | @status pick ok sess m latest tries hact hpc hver hget heq =>
      subst heq hact
      -- the time written is not before the stored one, and covers it if none is stored
      have hnow (now : ℕ) (hm : m.now = some now) : ack.at_ ≤ stamp now := by
        cases hl : latest.value.status.lastActivityAt with
        | none => exact ht.unrecorded ack hack latest.value now hget huid hl (by rw [hpc]; exact hm)
        | some l =>
          simp only [Cluster.decisionStands, hpc, hver, ne_eq, not_true_eq_false, decide_false,
            Bool.false_or, hm, hl, all_some, decide_eq_true_eq] at hcond
          exact (ht.recorded ack hack latest.value l hget huid hl).trans hcond
      cases m with
      | ready _ _ now | activity now =>
        cases hlast
        exact hnow now rfl
      | _ => exact hold hget huid hlast
    | @finalizer _ _ hget heq | rewritten _ hget heq | @marked _ _ _ hget heq =>
      subst heq
      exact hold hget huid hlast
    | minted _ _ heq | reset _ _ heq =>
      subst heq
      cases hlast
    | @heartbeat i now latest hpc hget hver heq =>
      subst heq
      cases hlast
      exact (ht.beat i ack.name latest now hpc).2.2 hver ack hack rfl huid.symm
  · rw [hset, value_set, update_self] at hget'
    cases hget'
    cases hlast
    exact le_refl _

end

theorem Pc.engaged_of_now {now : ℕ} (h : pc.now = some now) :
    pc.engaged = true ∧ ∀ x, pc.Expects x → x.status.phase ≠ .ended := by
  cases pc with
  | statusGet | statusUpdate => exact ⟨rfl, fun x hx => hx.2.ne_ended⟩
  | _ => cases h

theorem Move.ackUnrecorded (hmove : Move cfg s a s') (hs : Sound s) (ht : s.Timely) (hack : ack ∈ s'.acks) {now : ℕ}
    (hget' : s'.sessions.value ack.name = some x') (huid : x'.uid = ack.uid) (hlast : x'.status.lastActivityAt = none)
    (hnow : (s'.workers ack.name).now = some now) : ack.at_ ≤ stamp now := by
  obtain hmem | ⟨i, name, latest, beat, -, -, hset, rfl⟩ := hmove.acks_cases hack
  · obtain ⟨e, pc', hcall, rfl, -⟩ | hfrm := hmove.own_or_frame hs.copies ack.name
    · simp only [setWorker_workers, update_self] at hnow
      rw [setWorker_sessions, hcall.sessions_engaged (Pc.engaged_of_now hnow).1] at hget'
      obtain hpc | rfl := hcall.now hnow
      · exact ht.unrecorded ack hmem x' now hget' huid hlast hpc
      · exact (ht.acks ack hmem).1
    rw [hfrm.worker] at hnow
    obtain ⟨heng, hph⟩ := Pc.engaged_of_now hnow
    obtain ⟨y, hy, -, hexp⟩ := hs.guarded _ heng
    have hold {x : BrowserSession} (hget : s.sessions.value ack.name = some x)
        (hx : x.uid = ack.uid) (hxlast : x.status.lastActivityAt = none) : ack.at_ ≤ stamp now :=
      ht.unrecorded ack hmem x now hget hx hxlast hnow
    cases hmove.sessionChange hs.copies hget' with
    | same hget => exact hold hget huid hlast
    | @status pick ok sess m latest tries hact hpc hver hget heq =>
      subst heq
      cases m with
      | ready | activity => cases hlast
      | _ => exact hold hget huid hlast
    | @finalizer _ _ hget heq | rewritten _ hget heq | @marked _ _ _ hget heq =>
      subst heq
      exact hold hget huid hlast
    | minted hname hget =>
      rw [hget] at hy
      cases hy
    | reset hget hend =>
      rw [hget] at hy
      cases hy
      exact absurd hend (hph _ hexp)
    | heartbeat hpc hget hver heq =>
      subst heq
      cases hlast
  · rw [hset, value_set, update_self] at hget'
    cases hget'
    cases hlast

theorem Cluster.Timely.move (ht : s.Timely) (hs : Sound s) (hcond : s.decisionStands a = true)
    (hmove : Move cfg s a s') : s'.Timely where
  activity _ _ _ := hmove.activity hs.copies ht
  uids _ _ := hmove.uids hs.copies ht
  acks _ := hmove.acksBounded hs.copies ht
  now _ _ := hmove.now hs.copies ht
  foundIdle _ _ := hmove.foundIdle hs.copies ht
  latestIdle _ _ _ _ := hmove.latestIdle hs.copies ht hcond
  beatRead _ _ _ _ := hmove.beatRead ht
  beat _ _ _ _ := hmove.beat hs.copies ht
  recorded _ hack _ _ := hmove.ackRecorded hs.copies ht hcond hack
  unrecorded _ hack _ _ := hmove.ackUnrecorded hs ht hack

theorem Cluster.Timely.drainsIdle (ht : s.Timely) (hs : Sound s) (hmove : Move cfg s a s') :
    s.DrainsIdle s' := by
  intro n x x' hget hget' hph hph'
  cases hmove.sessionChange hs.copies hget' with
  | @status pick ok sess m latest tries hact hpc hver hget₀ heq =>
    subst heq
    rw [hget] at hget₀
    cases hget₀
    cases m with
    | draining =>
      obtain ⟨y, hy, -, hexp⟩ := hs.guarded n (by rw [hpc]; rfl)
      rw [hget] at hy
      cases hy
      rw [hpc] at hexp
      obtain ⟨last, hlast, hidle⟩ := ht.latestIdle n sess latest tries hpc
      refine ⟨hexp.2, ⟨last, hlast, hidle⟩, ?_⟩
      rintro ack hack rfl huid
      have hle := ht.recorded ack hack latest.value last hget huid.symm hlast
      omega
    | activity => exact absurd hph' hph
    | _ => cases hph'
  | same hget₀ =>
    rw [hget] at hget₀
    cases hget₀
    exact absurd hph' hph
  | finalizer hget₀ heq | rewritten _ hget₀ heq | heartbeat _ hget₀ _ heq | marked hget₀ heq =>
    subst heq
    rw [hget] at hget₀
    cases hget₀
    exact absurd hph' hph
  | minted _ _ heq | reset _ _ heq =>
    subst heq
    cases hph'

end

/-- As long as the decisions stand that the reconciles act on, a session is moved to Draining only
from Ready and when it has been idle for its timeout, counted from every acknowledged heartbeat. -/
theorem drain_after_idle_timeout (cfg : Config) (as : List Act)
    (hcond : Runs.Meets (step cfg) (fun s a => s.decisionStands a = true) .init as) (a : Act) :
    (run cfg .init as).DrainsIdle (step cfg (run cfg .init as) a) := by
  have ht : (run cfg .init as).Timely := by
    refine (Runs.invariant_run_meets (step cfg) _ (fun s => Sound s ∧ s.Timely) ?_
      ⟨Sound.init, Cluster.Timely.init⟩ hcond).2
    intro s a hcond hi
    have hmove := step_move cfg s a
    exact ⟨hi.1.move hmove, hi.2.move hi.1 hcond hmove⟩
  exact ht.drainsIdle (Sound.run cfg as) (step_move cfg _ a)

theorem drain_after_idle_timeout_beaten :
    let as := oneReady ++ .tick (300 * second) :: (requestCalls 2 (.heartbeat "tf-a") 3
      ++ .tick (900 * second) :: calls "tf-a" "p" 3)
    let s := run {} .init as
    let s' := step {} s (.work "tf-a" "p" true)
    Runs.Meets (step {}) (fun s a => s.decisionStands a = true) .init as ∧
      s.acks = [⟨"tf-a", 0, 300 * second⟩] ∧
      (s.sessions.value "tf-a").map (·.status.phase) = some .ready ∧
      (s'.sessions.value "tf-a").map (·.status.phase) = some .draining ∧ s.DrainsIdle s' := by
  refine ⟨by decide +kernel, by decide +kernel, by decide +kernel, by decide +kernel, ?_⟩
  exact drain_after_idle_timeout {} _ (by decide +kernel) _

/-- The session is found idle; a heartbeat is acknowledged; then the session is read again to be
drained. -/
def beatenTooLate : List Act :=
  oneReady ++ .tick (720 * second) :: (calls "tf-a" "p" 2 ++ requestCalls 2 (.heartbeat "tf-a") 3 ++ calls "tf-a" "p" 1)

theorem drained_after_heartbeat :
    (run {} .init beatenTooLate).acks = [⟨"tf-a", 0, 720 * second⟩] ∧
      (run {} .init beatenTooLate).clock = 720 * second ∧
      ¬ (run {} .init beatenTooLate).DrainsIdle (step {} (run {} .init beatenTooLate) (.work "tf-a" "p" true)) := by
  refine ⟨by decide +kernel, by decide +kernel, ?_⟩
  intro h
  obtain ⟨x, hx, hp⟩ := (any_eq_true (fun x => x.status.phase = .ready &&
    x.status.lastActivityAt = some (720 * second))
    ((run {} .init beatenTooLate).sessions.value "tf-a")).mp (by decide +kernel)
  obtain ⟨x', hx', hp'⟩ := (any_eq_true (fun x => x.status.phase = .draining)
    ((step {} (run {} .init beatenTooLate) (.work "tf-a" "p" true)).sessions.value "tf-a")).mp
    (by decide +kernel)
  simp only [Bool.and_eq_true, decide_eq_true_eq] at hp hp'
  have hready : x.status.phase ≠ .draining := by
    rw [hp.1]
    decide
  obtain ⟨-, ⟨last, hlast, hidle⟩, -⟩ := h "tf-a" x x' hx hx' hready hp'
  have hclock : (run {} .init beatenTooLate).clock = 720 * second := by decide +kernel
  rw [hp.2] at hlast
  cases hlast
  -- a timeout is never zero
  have htimeout : 0 < x.idleTimeout := by
    unfold idleTimeout second
    split <;> omega
  omega

end Chromeless.Controller
