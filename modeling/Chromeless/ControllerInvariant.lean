import Chromeless.ControllerMoves

/-! What holds of the cluster in every run: copies are coherent with the store, a reconcile past its
finalizer check can rely on its session, and at most one live Pod is labelled with a session. -/
namespace Chromeless.Controller
open Function Versions Cluster Store Option Pod Request
open StatusUpdate (warming)

namespace Cluster

def Owned (s : Cluster) (n podName : String) : Prop :=
  ∃ pod, s.pods.value podName = some pod ∧ pod.boundTo n = true

section
variable {s : Cluster} {n name podName : String} {pod : Pod}

theorem apply_deletePod_sessions (s : Cluster) (name : String) :
    (s.apply (s.deletePod name)).sessions = s.sessions := by
  obtain ⟨pod, -, h⟩ | ⟨-, h⟩ := s.deletePod_cases name <;> rw [h] <;> rfl

theorem apply_deletePod_podNames (s : Cluster) (name : String) :
    (s.apply (s.deletePod name)).podNames = s.podNames := by
  obtain ⟨pod, -, h⟩ | ⟨-, h⟩ := s.deletePod_cases name <;> rw [h] <;> rfl

theorem apply_deletePod_value (s : Cluster) (name : String) :
    (s.apply (s.deletePod name)).pods.value = update s.pods.value name
      ((s.pods.value name).map fun pod => { pod with terminating := true }) := by
  obtain ⟨pod, hpod, h⟩ | ⟨hpod, h⟩ := s.deletePod_cases name
  · simp [h, apply, value_set, hpod]
  · simp only [h, apply, hpod, map_none]
    rw [← hpod, update_eq_self]

theorem Owned.of_set (h : ∃ x, (s.pods.set name pod).value podName = some x ∧ x.boundTo n = true) :
    (podName = name ∧ pod.boundTo n = true) ∨ s.Owned n podName := by
  obtain ⟨x, hx, hbd⟩ := h
  rw [value_set, update_apply] at hx
  split_ifs at hx with hname
  · cases hx
    exact .inl ⟨hname, hbd⟩
  · exact .inr ⟨x, hx, hbd⟩

theorem Owned.of_erase (h : (s.apply (.removePod name)).Owned n podName) : s.Owned n podName := by
  obtain ⟨x, hx, hbd⟩ := h
  simp only [apply, value_erase, update_apply] at hx
  split_ifs at hx
  exact ⟨x, hx, hbd⟩

theorem Owned.of_deletePod (h : (s.apply (s.deletePod name)).Owned n podName) :
    podName ≠ name ∧ s.Owned n podName := by
  obtain ⟨x, hx, hbd⟩ := h
  rw [apply_deletePod_value, update_apply] at hx
  split_ifs at hx with hname
  · obtain ⟨pod, -, rfl⟩ := map_eq_some_iff.mp hx
    simp [boundTo] at hbd
  · exact ⟨hname, x, hx, hbd⟩

end

end Cluster

variable {n : String} {sess x x' : BrowserSession} {pod : Pod} {pc : Pc} {cfg : Config} {s s' : Cluster} {a : Act}

theorem assignPod_eq {pod' : Pod} (h : assignPod n sess pod = some pod') :
    ∃ ref, pod' = { applyPodAssignment n sess pod with controller := ref } := by
  unfold assignPod ownedBy at h
  split at h
  · cases h
    exact ⟨_, rfl⟩
  split at h
  · cases h
    exact ⟨_, rfl⟩
  · cases h

theorem Pod.boundTo_iff : pod.boundTo n = true ↔ pod.owner = some n ∧ pod.terminating = false := by
  simp [boundTo]

/-! ### Copies -/

def Pc.podCopy : Pc → Option (String × Stored Pod)
  | .assignUpdate _ podName latest _ => some (podName, latest)
  | .scrubOrDelete _ podName pod => some (podName, pod)
  | .scrubExec _ podName pod => some (podName, pod)
  | .scrubUpdate _ podName pod => some (podName, pod)
  | _ => none

def Pc.sessionCopy : Pc → Option (Stored BrowserSession)
  | .statusUpdate _ _ latest _ => some latest
  | .finalizerUpdate _ latest _ => some latest
  | _ => none

def RequestPc.sessionCopy : RequestPc → Option (String × Stored BrowserSession)
  | .mintUpdate req latest => some (req.name, latest)
  | .mintReset req latest => some (req.name, latest)
  | .heartbeatNow name latest => some (name, latest)
  | .heartbeatUpdate name latest _ => some (name, latest)
  | _ => none

structure Copies (s : Cluster) : Prop where
  names : ∀ name pod, s.pods.value name = some pod → name ∈ s.podNames
  pods : ∀ n name c, (s.workers n).podCopy = some (name, c) → s.pods.IsCopy name c
  sessions : ∀ n c, (s.workers n).sessionCopy = some c → s.sessions.IsCopy n c
  requests : ∀ i name c, (s.requests i).sessionCopy = some (name, c) → s.sessions.IsCopy name c
  resets : ∀ i req c, s.requests i = .mintReset req c → c.value.status.phase = .ended

section
variable {cfg : Config} {s : Cluster} {n p name : String} {i : ℕ} {e : Effect}

theorem isCopy_apply_pods {c : Stored Pod} (h : s.pods.IsCopy name c) (e : Effect) :
    (s.apply e).pods.IsCopy name c := by
  cases e <;> first | exact h | exact h.set _ _ | exact h.erase _

theorem isCopy_apply_sessions {c : Stored BrowserSession} (h : s.sessions.IsCopy name c)
    (e : Effect) : (s.apply e).sessions.IsCopy name c := by
  cases e <;> first | exact h | exact h.set _ _ | exact h.erase _

variable {podName : String} {pc pc' : Pc} {a : Act}

theorem isCopy_created (pod : Pod) (h : s.pods.value podName = none) :
    (s.apply (.createPod podName pod)).pods.IsCopy podName ⟨s.pods.next, pod⟩ := by
  have hnew : ¬ s.pods.value podName = some pod := by simp [h]
  refine Store.isCopy_of_objects ?_
  simp only [Cluster.apply, Store.set, if_neg hnew, update_self]

theorem Copies.value_fresh (h : Copies s) (hfr : podName ∉ s.podNames) :
    s.pods.value podName = none := by
  cases hv : s.pods.value podName with
  | none => rfl
  | some => exact absurd (h.names _ _ hv) hfr

/-- A pod that is written was there before. -/
def Replaces (s : Cluster) (e : Effect) : Prop :=
  ∀ name pod, e = .putPod name pod → ∃ old, s.pods.value name = some old

theorem Copies.names_apply (h : Copies s) (hput : Replaces s e) :
    ∀ name pod, (s.apply e).pods.value name = some pod → name ∈ (s.apply e).podNames := by
  intro name pod hv
  cases e with
  | createPod k =>
    simp only [Cluster.apply, value_set, update_apply] at hv ⊢
    split_ifs at hv with hk
    · exact List.mem_append_right _ (List.mem_singleton.mpr hk)
    · exact List.mem_append_left _ (h.names _ _ hv)
  | putPod k new =>
    simp only [Cluster.apply, value_set, update_apply] at hv ⊢
    split_ifs at hv with hk
    · obtain ⟨old, hold⟩ := hput k new rfl
      exact hk ▸ h.names _ _ hold
    · exact h.names _ _ hv
  | removePod k =>
    simp only [Cluster.apply, value_erase, update_apply] at hv ⊢
    split_ifs at hv
    exact h.names _ _ hv
  | _ => exact h.names _ _ hv

theorem value_of_version {κ α : Type} {t : Store κ α} {k : κ} {v : ℕ}
    (h : t.version k = some v) : ∃ x, t.value k = some x := by
  obtain ⟨o, ho, -⟩ := map_eq_some_iff.mp h
  exact ⟨o.value, value_of_objects ho⟩

theorem deletePod_put : Replaces s (s.deletePod podName) := by
  intro name pod h
  obtain ⟨old, hold, heq⟩ | ⟨-, heq⟩ := s.deletePod_cases podName
  · rw [heq] at h
    cases h
    exact ⟨old, hold⟩
  · rw [heq] at h
    cases h

section
variable (hcall : WorkCall cfg s n pc e pc')
include hcall

theorem WorkCall.put_exists : Replaces s e := by
  intro name pod he
  cases hcall with
  | assigned _ hver | returned hver =>
    cases he
    exact value_of_version hver
  | recreated | finalDeleted | finalLeft => exact deletePod_put _ _ he
  | _ => cases he

theorem WorkCall.podCopy (hs : Copies s) (hold : ∀ name c, pc.podCopy = some (name, c) → s.pods.IsCopy name c) :
    ∀ name c, pc'.podCopy = some (name, c) → (s.apply e).pods.IsCopy name c := by
  intro name c hc
  cases hcall with
  | stay | scrubPolicy | scrubVerified => exact hold _ _ hc
  | picked hget | assignAgain hget | drainBound hget =>
    cases hc
    exact isCopy_of_objects hget
  | created hfr =>
    cases hc
    exact isCopy_created _ (hs.value_fresh hfr)
  | _ => cases hc

theorem WorkCall.sessionCopy (hold : ∀ c, pc.sessionCopy = some c → s.sessions.IsCopy n c) :
    ∀ c, pc'.sessionCopy = some c → (s.apply e).sessions.IsCopy n c := by
  intro c hc
  cases hcall with
  | stay => exact hold _ hc
  | statusRead hget | finalizerRead hget =>
    cases hc
    exact isCopy_of_objects hget
  | _ => cases hc

end

theorem ServeCall.sessionCopy {pc pc' : RequestPc} (hcall : ServeCall cfg s pc e pc')
    (hold : ∀ name c, pc.sessionCopy = some (name, c) → s.sessions.IsCopy name c) :
    ∀ name c, pc'.sessionCopy = some (name, c) → (s.apply e).sessions.IsCopy name c := by
  intro name c hc
  cases hcall with
  | stay => exact hold _ _ hc
  | present hget | rewrittenEnded _ _ _ hget | beatRead hget =>
    cases hc
    exact isCopy_of_objects hget
  | beatNow => exact hold _ _ hc
  | _ => cases hc

theorem ServeCall.reset_ended {pc pc' : RequestPc} (hcall : ServeCall cfg s pc e pc')
    (hold : ∀ req c, pc = .mintReset req c → c.value.status.phase = .ended) :
    ∀ req c, pc' = .mintReset req c → c.value.status.phase = .ended := by
  intro req c hc
  cases hcall with
  | stay => exact hold _ _ hc
  | @rewrittenEnded req' latest o hver hvalid hph hget =>
    cases hc
    have hval := value_of_objects hget
    rw [value_set, update_self] at hval
    rwa [← Option.some.inj hval]
  | _ => cases hc

theorem Copies.setWorker (h : Copies s) (hpods : ∀ name c, pc.podCopy = some (name, c) → s.pods.IsCopy name c)
    (hsess : ∀ c, pc.sessionCopy = some c → s.sessions.IsCopy n c) : Copies (s.setWorker n pc) := by
  refine ⟨h.names, ?_, ?_, h.requests, h.resets⟩
  · exact (forall_update_iff s.workers fun _ pc => ∀ name c, pc.podCopy = some (name, c) → s.pods.IsCopy name c).mpr
      ⟨hpods, fun m _ => h.pods m⟩
  · exact (forall_update_iff s.workers fun m pc => ∀ c, pc.sessionCopy = some c → s.sessions.IsCopy m c).mpr
      ⟨hsess, fun m _ => h.sessions m⟩

theorem Copies.apply (h : Copies s) (hput : Replaces s e) : Copies (s.apply e) := by
  refine ⟨h.names_apply hput, ?_, ?_, ?_, ?_⟩
  · intro n name c hc
    exact isCopy_apply_pods (h.pods n name c (by simpa using hc)) e
  · intro n c hc
    exact isCopy_apply_sessions (h.sessions n c (by simpa using hc)) e
  · intro i name c hc
    exact isCopy_apply_sessions (h.requests i name c (by simpa using hc)) e
  · intro i req c hc
    exact h.resets i req c (by simpa using hc)

theorem Copies.setRequest (h : Copies s) {pc : RequestPc} {acks : List Ack}
    (hsess : ∀ name c, pc.sessionCopy = some (name, c) → s.sessions.IsCopy name c)
    (hres : ∀ req c, pc = .mintReset req c → c.value.status.phase = .ended) :
    Copies { s.setRequest i pc with acks := acks } := by
  refine ⟨h.names, h.pods, h.sessions, ?_, ?_⟩
  · exact (forall_update_iff s.requests fun _ pc => ∀ name c, pc.sessionCopy = some (name, c) →
      s.sessions.IsCopy name c).mpr ⟨hsess, fun j _ => h.requests j⟩
  · exact (forall_update_iff s.requests fun _ pc => ∀ req c, pc = .mintReset req c → c.value.status.phase = .ended).mpr
      ⟨hres, fun j _ => h.resets j⟩

theorem PoolCall.put_exists {pc pc' : PoolPc} (hcall : PoolCall s p pc e pc') : Replaces s e := by
  intro name pod he
  cases hcall with
  | aged => exact deletePod_put _ _ he
  | _ => cases he

theorem ServeCall.put_exists {pc pc' : RequestPc} (hcall : ServeCall cfg s pc e pc') : Replaces s e := by
  intro name pod he
  cases hcall <;> cases he

theorem Outside.put_exists (hout : Outside s a e) : Replaces s e := by
  intro name pod he
  cases hout with
  | reported ready ip hget =>
    cases he
    exact ⟨_, hget⟩
  | evicted => exact deletePod_put _ _ he
  | _ => cases he

theorem Request.start_copy (r : Request) : r.start.sessionCopy = none := by
  cases r with
  | mint =>
    simp only [start]
    split <;> rfl
  | _ => rfl

theorem Copies.init : Copies init := by
  refine ⟨?_, ?_, ?_, ?_, ?_⟩
  · intro name pod h
    simp [Cluster.init, value, empty] at h
  · intro n name c h
    cases h
  · intro n c h
    cases h
  · intro i name c h
    cases h
  · intro i req c h
    cases h

theorem Copies.move {s' : Cluster} (h : Copies s) (hmove : Move cfg s a s') : Copies s' := by
  cases hmove with
  | work hcall =>
    exact (h.apply hcall.put_exists).setWorker (hcall.podCopy h (h.pods _)) (hcall.sessionCopy (h.sessions _))
  | abort => exact h.setWorker (fun _ _ hc => nomatch hc) (fun _ hc => nomatch hc)
  | pool hcall =>
    have h' := h.apply hcall.put_exists
    exact ⟨h'.names, h'.pods, h'.sessions, h'.requests, h'.resets⟩
  | poolAbort | tick => exact ⟨h.names, h.pods, h.sessions, h.requests, h.resets⟩
  | serve hcall =>
    refine (h.apply hcall.put_exists).setRequest ?_ ?_
    · exact hcall.sessionCopy (h.requests _)
    · exact hcall.reset_ended (h.resets _)
  | request =>
    refine h.setRequest ?_ ?_
    · intro name c hc
      rw [start_copy] at hc
      cases hc
    intro req c hc
    have := congrArg RequestPc.sessionCopy hc
    rw [start_copy] at this
    cases this
  | requestAbort => exact h.setRequest (fun _ _ hc => nomatch hc) (fun _ _ hc => nomatch hc)
  | outside hout => exact h.apply hout.put_exists

end

/-! ### What a reconcile knows of its session -/

def StatusUpdate.From : StatusUpdate → SessionPhase → Prop
  | .pending, phase => phase = .unset ∨ phase = .unknown
  | .warming, phase => phase = .pending ∨ phase = .warming
  | .ready _ _ _, phase => phase = .pending ∨ phase = .warming
  | .activity _, phase => phase = .ready
  | .draining, phase => phase = .ready
  | .ended _, phase => phase = .draining

def Pc.engaged : Pc → Bool
  | .idle => false
  | .dispatch sess => sess.finalizer
  | .finalizerGet add _ => !add
  | .finalizerUpdate add _ _ => !add
  | .finalize sess => sess.finalizer
  | .finalizeDelete sess _ => sess.finalizer
  | _ => true

def Serves (sess : BrowserSession) (phases : SessionPhase → Prop) (x : BrowserSession) : Prop :=
  x.uid = sess.uid ∧ phases x.status.phase

def Pc.Expects : Pc → BrowserSession → Prop
  | .dispatch sess, x =>
    x.uid = sess.uid ∧ (sess.status.phase ≠ .ended → x.status.phase = sess.status.phase)
      ∧ (sess.deleting = true → x.deleting = true)
  | .tryAssign sess, x => Serves sess warming.From x
  | .findBoundPod sess _ _, x => Serves sess warming.From x
  | .pickWarmPod sess _ _, x => Serves sess warming.From x
  | .createPod sess _ _, x => Serves sess warming.From x
  | .assignUpdate sess _ _ _, x => Serves sess warming.From x
  | .assignGet sess _ _, x => Serves sess warming.From x
  | .advanceFromBoundPod sess _ _, x => Serves sess warming.From x
  | .statusGet sess m _, x => Serves sess m.From x
  | .statusUpdate sess m _ _, x => Serves sess m.From x
  | .completeDrain sess, x => Serves sess (· = .draining) x
  | .scrubOrDelete sess _ _, x => Serves sess (· = .draining) x
  | .scrubExec sess _ _, x => Serves sess (· = .draining) x
  | .scrubUpdate sess _ _, x => Serves sess (· = .draining) x
  | .deleteBoundPod sess _, x => Serves sess (· = .draining) x
  | .finalize _, x => x.deleting = true
  | .finalizeDelete _ _, x => x.deleting = true
  | .finalizerGet _ _, x => x.deleting = true
  | .finalizerUpdate _ _ _, x => x.deleting = true
  | .idle, _ => True

structure Kept (x x' : BrowserSession) : Prop where
  uid : x'.uid = x.uid
  finalizer : x'.finalizer = x.finalizer
  phase : x'.status.phase = x.status.phase ∨ x.status.phase = .ended
  deleting : x.deleting = true → x'.deleting = true

theorem Kept.refl (x : BrowserSession) : Kept x x := ⟨rfl, rfl, .inl rfl, id⟩

theorem StatusUpdate.From.ne_ended {m : StatusUpdate} {phase : SessionPhase} (h : m.From phase) :
    phase ≠ .ended := by
  rintro rfl
  cases m <;> simp [StatusUpdate.From] at h

theorem Serves.kept {phases : SessionPhase → Prop} (h : Serves sess phases x)
    (hend : ¬ phases .ended) (hk : Kept x x') : Serves sess phases x' := by
  refine ⟨hk.uid.trans h.1, ?_⟩
  obtain hphase | hphase := hk.phase
  · rw [hphase]
    exact h.2
  · exact absurd (hphase ▸ h.2) hend

theorem Pc.Expects.kept (h : pc.Expects x) (hk : Kept x x') : pc.Expects x' := by
  have hfrom (m : StatusUpdate) : ¬ m.From .ended := fun hm => hm.ne_ended rfl
  have hdrn (sess : BrowserSession) (h : Serves sess (· = .draining) x) :
      Serves sess (· = .draining) x' := h.kept (by decide) hk
  cases pc with
  | idle => trivial
  | dispatch =>
    obtain ⟨huid, hph, hdel⟩ := h
    refine ⟨hk.uid.trans huid, ?_, fun hd => hk.deleting (hdel hd)⟩
    intro hne
    obtain hsame | hend := hk.phase
    · exact hsame.trans (hph hne)
    · exact absurd ((hph hne).symm.trans hend) hne
  | finalize | finalizeDelete | finalizerGet | finalizerUpdate => exact hk.deleting h
  | statusGet _ m | statusUpdate _ m => exact Serves.kept h (hfrom m) hk
  | completeDrain sess | scrubOrDelete sess | scrubExec sess | scrubUpdate sess
  | deleteBoundPod sess => exact hdrn sess h
  | _ => exact Serves.kept h (hfrom .warming) hk

def Pc.Allows : Pc → String → Prop
  | .pickWarmPod _ _ _, _ => False
  | .createPod _ _ _, _ => False
  | .assignUpdate _ podName _ _, name => name = podName
  | .assignGet _ podName _, name => name = podName
  | .advanceFromBoundPod _ podName _, name => name = podName
  | .finalizeDelete _ podName, name => name = podName
  | .finalizerGet add _, _ => add = true
  | .finalizerUpdate add _ _, _ => add = true
  | _, _ => True

structure Sound (s : Cluster) : Prop where
  copies : Copies s
  guarded : ∀ n, (s.workers n).engaged = true →
    ∃ x, s.sessions.value n = some x ∧ x.finalizer = true ∧ (s.workers n).Expects x
  allowed : ∀ n name, s.Owned n name → (s.workers n).Allows name
  unique : ∀ n name name', s.Owned n name → s.Owned n name' → name = name'
  kept : ∀ n name, s.Owned n name → ∃ x, s.sessions.value n = some x ∧ x.finalizer = true

structure Frame (s s' : Cluster) (n : String) : Prop where
  worker : s'.workers n = s.workers n
  session : ∀ x, s.sessions.value n = some x → x.finalizer = true → ∃ x', s'.sessions.value n = some x' ∧ Kept x x'
  owned : ∀ name, s'.Owned n name → s.Owned n name

section
variable {cfg : Config} {s s' : Cluster} {n m p : String} {e : Effect}

theorem createPodFromTemplate_boundTo {sess : BrowserSession} {poolName : String}
    {pool : BrowserSessionPool} {now : ℕ} (hne : n ≠ m) :
    ¬ (createPodFromTemplate cfg m sess poolName pool now).boundTo n = true := by
  rw [boundTo_iff]
  rintro ⟨hown, -⟩
  exact hne (Option.some.inj hown).symm

variable {pc pc' : Pc} {name : String} {a : Act} {x : BrowserSession}

theorem WorkCall.owned_ne (hcall : WorkCall cfg s m pc e pc') (hne : n ≠ m)
    (h : (s.apply e).Owned n name) : s.Owned n name := by
  cases hcall with
  | created =>
    obtain ⟨-, hb⟩ | h := Cluster.Owned.of_set h
    · exact absurd hb (createPodFromTemplate_boundTo hne)
    · exact h
  | assigned hpod =>
    obtain ⟨-, hb⟩ | h := Cluster.Owned.of_set h
    · obtain ⟨ref, rfl⟩ := assignPod_eq hpod
      rw [boundTo_iff] at hb
      exact absurd (Option.some.inj hb.1).symm hne
    · exact h
  | returned =>
    obtain ⟨-, hb⟩ | h := Cluster.Owned.of_set h
    · simp [boundTo, scrubbedPod] at hb
    · exact h
  | recreated | finalDeleted | finalLeft => exact h.of_deletePod.2
  | _ => exact h

theorem WorkCall.sessions_ne (hcall : WorkCall cfg s m pc e pc') (hne : n ≠ m) :
    (s.apply e).sessions.value n = s.sessions.value n := by
  cases hcall with
  | recreated | finalDeleted | finalLeft => rw [Cluster.apply_deletePod_sessions]
  | statusWritten | finalizerWritten => simp [Cluster.apply, value_set, update_of_ne hne]
  | finalizerGone => simp [Cluster.apply, value_erase, update_of_ne hne]
  | _ => rfl

theorem PoolCall.owned {pc pc' : PoolPc} (hcall : PoolCall s p pc e pc')
    (h : (s.apply e).Owned n name) : s.Owned n name := by
  cases hcall with
  | aged => exact h.of_deletePod.2
  | replenished =>
    obtain ⟨-, hb⟩ | h := Cluster.Owned.of_set h
    · simp [boundTo, createWarmPod] at hb
    · exact h
  | _ => exact h

theorem PoolCall.sessions {pc pc' : PoolPc} (hcall : PoolCall s p pc e pc') :
    (s.apply e).sessions = s.sessions := by
  cases hcall with
  | aged => exact Cluster.apply_deletePod_sessions s _
  | _ => rfl

theorem Outside.owned (hout : Outside s a e) (h : (s.apply e).Owned n name) : s.Owned n name := by
  cases hout with
  | reported ready ip hget =>
    obtain ⟨rfl, hb⟩ | h := Cluster.Owned.of_set h
    · exact ⟨_, hget, hb⟩
    · exact h
  | evicted => exact h.of_deletePod.2
  | gone => exact h.of_erase
  | _ => exact h

theorem Outside.sessions (hout : Outside s a e) : (s.apply e).sessions = s.sessions := by
  cases hout with
  | evicted => exact Cluster.apply_deletePod_sessions s _
  | _ => rfl

theorem ServeCall.pods {pc pc' : RequestPc} (hcall : ServeCall cfg s pc e pc') :
    (s.apply e).pods = s.pods := by
  cases hcall <;> rfl

open Kept

theorem kept_of_set {c : Stored BrowserSession} {v : BrowserSession} (hcopy : s.sessions.IsCopy name c)
    (hver : s.sessions.version name = some c.version) (hv : Kept c.value v) (hx : s.sessions.value n = some x) :
    ∃ x', (s.sessions.set name v).value n = some x' ∧ Kept x x' := by
  rw [value_set, update_apply]
  split_ifs with hn
  · subst hn
    have heq := hcopy.value_eq hver
    rw [hx] at heq
    cases heq
    exact ⟨v, rfl, hv⟩
  · exact ⟨x, hx, refl x⟩

theorem ServeCall.kept {i : ℕ} {pc' : RequestPc} (hs : Copies s)
    (hcall : ServeCall cfg s (s.requests i) e pc') (hx : s.sessions.value n = some x)
    (hfin : x.finalizer = true) : ∃ x', (s.apply e).sessions.value n = some x' ∧ Kept x x' := by
  have hcopy := hs.requests i
  have hrst := hs.resets i
  generalize s.requests i = pc at hcall hcopy hrst
  cases hcall with
  | @created req hget =>
    have hn : n ≠ req.name := by
      rintro rfl
      rw [hx] at hget
      cases hget
    refine ⟨x, ?_, refl x⟩
    simp [Cluster.apply, value_set, update_of_ne hn, hx]
  | rewritten hver | rewrittenEnded hver | beatWritten hver =>
    exact kept_of_set (hcopy _ _ rfl) hver ⟨rfl, rfl, .inl rfl, id⟩ hx
  | reset hver => exact kept_of_set (hcopy _ _ rfl) hver ⟨rfl, rfl, .inr (hrst _ _ rfl), id⟩ hx
  | @deleteMarked name sess hget =>
    simp only [Cluster.apply, value_set, update_apply]
    split_ifs with hn
    · subst hn
      rw [hx] at hget
      cases hget
      exact ⟨_, rfl, rfl, rfl, .inl rfl, fun _ => rfl⟩
    · exact ⟨x, hx, refl x⟩
  | @deleteGone name sess hget hmark =>
    have hn : n ≠ name := by
      rintro rfl
      rw [hx] at hget
      cases hget
      rw [hfin] at hmark
      cases hmark
    refine ⟨x, ?_, refl x⟩
    simp [Cluster.apply, value_erase, update_of_ne hn, hx]
  | _ => exact ⟨x, hx, refl x⟩

theorem Move.own_or_frame (hs : Copies s) (hmove : Move cfg s a s') (n : String) :
    (∃ e pc, WorkCall cfg s n (s.workers n) e pc ∧ s' = (s.apply e).setWorker n pc ∧
      (pc = .idle ∨ ∃ pick ok, a = .work n pick ok)) ∨ Frame s s' n := by
  cases hmove with
  | @work m pick ok e pc hcall =>
    by_cases hn : n = m
    · subst hn
      exact .inl ⟨e, pc, hcall, rfl, .inr ⟨pick, ok, rfl⟩⟩
    refine .inr ⟨?_, ?_, fun name h => hcall.owned_ne hn h⟩
    · simp [update_of_ne hn]
    intro x hx _
    refine ⟨x, ?_, refl x⟩
    rw [setWorker_sessions, hcall.sessions_ne hn, hx]
  | @abort m =>
    by_cases hn : n = m
    · subst hn
      exact .inl ⟨.nothing, .idle, .quit, rfl, .inl rfl⟩
    · exact .inr ⟨by simp [update_of_ne hn], fun x hx _ => ⟨x, hx, refl x⟩, fun name h => h⟩
  | pool hcall =>
    refine .inr ⟨by simp, ?_, fun name h => hcall.owned h⟩
    intro x hx _
    refine ⟨x, ?_, refl x⟩
    rw [setPoolWorker_sessions, hcall.sessions, hx]
  | poolAbort | request | requestAbort | tick => exact .inr ⟨rfl, fun x hx _ => ⟨x, hx, refl x⟩, fun name h => h⟩
  | serve hcall =>
    refine .inr ⟨by simp, fun x hx hfin => hcall.kept hs hx hfin, ?_⟩
    rintro name ⟨pod, hpod, hb⟩
    simp only [setRequest_pods, hcall.pods] at hpod
    exact ⟨pod, hpod, hb⟩
  | outside hout =>
    refine .inr ⟨by simp, ?_, fun name h => hout.owned h⟩
    intro x hx _
    exact ⟨x, by rw [hout.sessions, hx], refl x⟩

end

/-! ### The reconcile's own calls -/

section
variable {cfg : Config} {s : Cluster} {n : String} {e : Effect} {pc' : Pc}

variable {pc : Pc} {name : String}

section
variable (hcall : WorkCall cfg s n pc e pc')
include hcall

theorem WorkCall.sessions_engaged (heng : pc'.engaged = true) :
    (s.apply e).sessions = s.sessions := by
  cases hcall with
  | recreated | finalDeleted => exact Cluster.apply_deletePod_sessions s _
  | finalLeft | statusWritten | finalizerWritten | finalizerGone => cases heng
  | _ => rfl

theorem WorkCall.guarded
    (hs : pc.engaged = true → ∃ x, s.sessions.value n = some x ∧ x.finalizer = true ∧ pc.Expects x)
    (heng : pc'.engaged = true) :
    ∃ x, (s.apply e).sessions.value n = some x ∧ x.finalizer = true ∧ pc'.Expects x := by
  rw [hcall.sessions_engaged heng]
  -- from the call that read the session on, the facts are handed along
  have hnext (hpc : pc.engaged = true) (himp : ∀ x, pc.Expects x → pc'.Expects x) :
      ∃ x, s.sessions.value n = some x ∧ x.finalizer = true ∧ pc'.Expects x := by
    obtain ⟨x, hx, hfin, hexp⟩ := hs hpc
    exact ⟨x, hx, hfin, himp x hexp⟩
  cases hcall with
  | quit => cases heng
  | stay => exact hs heng
  | get hget => exact ⟨_, hget, heng, rfl, fun _ => rfl, id⟩
  | finalizing hdel => exact hnext heng fun x hx => hx.2.2 hdel
  | finalizerMissing => cases heng
  | toPending hfin hph | toAssign hfin hph =>
    refine hnext hfin fun x hx => ⟨hx.1, ?_⟩
    rwa [hx.2.1 (by rcases hph with h | h <;> simp [h])]
  | neverActive hfin hph | idleFor hfin hph | toDrain hfin hph =>
    refine hnext hfin fun x hx => ⟨hx.1, ?_⟩
    rwa [hx.2.1 (by simp [hph])]
  | finalizerRead | finalizerConflict | finalBound => exact hnext heng fun x hx => hx
  | finalNone hfin | finalDeleted hfin => exact hnext hfin fun x hx => hx
  | _ => first | exact hnext rfl fun x hx => hx | cases heng

theorem WorkCall.owned_self (h : (s.apply e).Owned n name) :
    s.Owned n name ∨ (pc'.engaged = true ∧ (∀ k, pc.Allows k → k = name) ∧ ∀ k, pc'.Allows k → k = name) := by
  cases hcall with
  | created =>
    obtain ⟨rfl, -⟩ | h := Cluster.Owned.of_set h
    · exact .inr ⟨rfl, fun k hk => hk.elim, fun k hk => hk⟩
    · exact .inl h
  | assigned =>
    obtain ⟨rfl, -⟩ | h := Cluster.Owned.of_set h
    · exact .inr ⟨rfl, fun k hk => hk, fun k hk => hk⟩
    · exact .inl h
  | returned =>
    obtain ⟨-, hb⟩ | h := Cluster.Owned.of_set h
    · simp [boundTo, scrubbedPod] at hb
    · exact .inl h
  | recreated | finalDeleted | finalLeft => exact .inl h.of_deletePod.2
  | _ => exact .inl h

end

theorem Cluster.NoPod.not_owned (h : s.NoPod (boundTo n)) (hs : Copies s) :
    ¬ s.Owned n name := by
  rintro ⟨pod, hpod, hb⟩
  have := h name (hs.names _ _ hpod) pod hpod
  rw [hb] at this
  cases this

theorem WorkCall.allowed (hcall : WorkCall cfg s n pc e pc') (hs : Copies s)
    (hold : ∀ name, s.Owned n name → pc.Allows name)
    (hone : ∀ name name', s.Owned n name → s.Owned n name' → name = name')
    (h : (s.apply e).Owned n name) : pc'.Allows name := by
  cases hcall with
  | stay | coldStart | assignConflict | assignAgain | finalizerRead | finalizerConflict => exact hold _ h
  | bound hget hb | finalBound hget hb => exact hone _ _ h ⟨_, value_of_objects hget, hb⟩
  | unbound hnone => exact hnone.not_owned hs h
  | picked => exact (hold _ h).elim
  | created =>
    obtain ⟨rfl, -⟩ | h := Cluster.Owned.of_set h
    · rfl
    · exact (hold _ h).elim
  | assigned =>
    obtain ⟨rfl, -⟩ | h := Cluster.Owned.of_set h
    · rfl
    · exact hold _ h
  | finalizerMissing => rfl
  | finalNone hfin hnone => exact (hnone.not_owned hs h).elim
  | finalDeleted =>
    obtain ⟨hne, h⟩ := h.of_deletePod
    exact absurd (hold _ h) hne
  | _ => trivial

theorem WorkCall.kept (hcall : WorkCall cfg s n pc e pc')
    (hcopy : ∀ c, pc.sessionCopy = some c → s.sessions.IsCopy n c) (hold : ∀ name, s.Owned n name → pc.Allows name)
    {x : BrowserSession} (h : s.Owned n name) (hx : s.sessions.value n = some x) (hfin : x.finalizer = true) :
    ∃ x', (s.apply e).sessions.value n = some x' ∧ x'.uid = x.uid ∧ x'.finalizer = true := by
  cases hcall with
  | recreated | finalDeleted | finalLeft => exact ⟨x, by rw [Cluster.apply_deletePod_sessions, hx], rfl, hfin⟩
  | statusWritten hver =>
    have heq := (hcopy _ rfl).value_eq hver
    rw [hx] at heq
    cases heq
    simp only [Cluster.apply, value_set, update_self]
    exact ⟨_, rfl, rfl, hfin⟩
  | finalizerWritten hver =>
    have heq := (hcopy _ rfl).value_eq hver
    rw [hx] at heq
    cases heq
    have hadd := hold _ h
    simp only [Cluster.apply, value_set, update_self]
    exact ⟨_, rfl, rfl, hadd⟩
  | finalizerGone => cases hold _ h
  | _ => exact ⟨x, hx, rfl, hfin⟩

end

theorem Sound.init : Sound init := by
  have hnone (n name : String) : ¬ Cluster.init.Owned n name := by
    rintro ⟨pod, hpod, -⟩
    cases hpod
  refine ⟨Copies.init, ?_, fun n name h => (hnone n name h).elim,
    fun n name name' h => (hnone n name h).elim, fun n name h => (hnone n name h).elim⟩
  intro n h
  cases h

theorem Sound.move (hs : Sound s) (hmove : Move cfg s a s') : Sound s' := by
  refine ⟨hs.copies.move hmove, ?_, ?_, ?_, ?_⟩
  · intro n heng
    obtain ⟨e, pc, hcall, rfl, -⟩ | hfrm := hmove.own_or_frame hs.copies n
    · simp only [setWorker_workers, update_self] at heng ⊢
      exact hcall.guarded (hs.guarded n) heng
    rw [hfrm.worker] at heng ⊢
    obtain ⟨x, hx, hfin, hexp⟩ := hs.guarded n heng
    obtain ⟨x', hx', hkept⟩ := hfrm.session x hx hfin
    exact ⟨x', hx', hkept.finalizer.trans hfin, hexp.kept hkept⟩
  · intro n name h
    obtain ⟨e, pc, hcall, rfl, -⟩ | hfrm := hmove.own_or_frame hs.copies n
    · simp only [setWorker_workers, update_self]
      exact hcall.allowed hs.copies (hs.allowed n) (hs.unique n) h
    · rw [hfrm.worker]
      exact hs.allowed n name (hfrm.owned name h)
  · intro n name name' h h'
    obtain ⟨e, pc, hcall, rfl, -⟩ | hfrm := hmove.own_or_frame hs.copies n
    · obtain ho | ⟨-, hone, -⟩ := hcall.owned_self h
      · obtain ho' | ⟨-, hone', -⟩ := hcall.owned_self h'
        · exact hs.unique n name name' ho ho'
        · exact hone' name (hs.allowed n name ho)
      obtain ho' | ⟨-, -, hone'⟩ := hcall.owned_self h'
      · exact (hone name' (hs.allowed n name' ho')).symm
      · exact hone' name (hcall.allowed hs.copies (hs.allowed n) (hs.unique n) h)
    · exact hs.unique n name name' (hfrm.owned name h) (hfrm.owned name' h')
  · intro n name h
    obtain ⟨e, pc, hcall, rfl, -⟩ | hfrm := hmove.own_or_frame hs.copies n
    · obtain ho | ⟨heng, -, -⟩ := hcall.owned_self h
      · obtain ⟨x, hx, hfin⟩ := hs.kept n name ho
        obtain ⟨x', hx', -, hfin'⟩ := hcall.kept (hs.copies.sessions n) (hs.allowed n) ho hx hfin
        exact ⟨x', hx', hfin'⟩
      · obtain ⟨x, hx, hfin, -⟩ := hcall.guarded (hs.guarded n) heng
        exact ⟨x, hx, hfin⟩
    · obtain ⟨x, hx, hfin⟩ := hs.kept n name (hfrm.owned name h)
      obtain ⟨x', hx', hkept⟩ := hfrm.session x hx hfin
      exact ⟨x', hx', hkept.finalizer.trans hfin⟩

theorem Sound.owned_session (hs : Sound s) (hmove : Move cfg s a s') {name : String}
    (h : s.Owned n name) (hx : s.sessions.value n = some x) :
    ∃ x', s'.sessions.value n = some x' ∧ x'.uid = x.uid := by
  obtain ⟨y, hy, hfin⟩ := hs.kept n name h
  rw [hx] at hy
  cases hy
  obtain ⟨e, pc, hcall, rfl, -⟩ | hfrm := hmove.own_or_frame hs.copies n
  · obtain ⟨x', hx', huid, -⟩ := hcall.kept (hs.copies.sessions n) (hs.allowed n) h hx hfin
    exact ⟨x', hx', huid⟩
  · obtain ⟨x', hx', hkept⟩ := hfrm.session x hx hfin
    exact ⟨x', hx', hkept.uid⟩

theorem WorkCall.sessions_of_noCopy {e : Effect} {pc' : Pc} (hcall : WorkCall cfg s n pc e pc')
    (hcopy : pc.sessionCopy = none) : (s.apply e).sessions = s.sessions := by
  cases hcall with
  | recreated | finalDeleted | finalLeft => exact Cluster.apply_deletePod_sessions s _
  | statusWritten | finalizerWritten | finalizerGone => cases hcopy
  | _ => rfl

theorem Sound.served_session (hs : Sound s) (hmove : Move cfg s a s') {uid : ℕ} (heng : (s.workers n).engaged = true)
    (hcopy : (s.workers n).sessionCopy = none) (huid : ∀ x, (s.workers n).Expects x → x.uid = uid) :
    ∃ x', s'.sessions.value n = some x' ∧ x'.uid = uid := by
  obtain ⟨x, hx, hfin, hexp⟩ := hs.guarded n heng
  obtain ⟨e, pc, hcall, rfl, -⟩ | hfrm := hmove.own_or_frame hs.copies n
  · refine ⟨x, ?_, huid x hexp⟩
    rw [setWorker_sessions, hcall.sessions_of_noCopy hcopy, hx]
  · obtain ⟨x', hx', hkept⟩ := hfrm.session x hx hfin
    exact ⟨x', hx', hkept.uid.trans (huid x hexp)⟩

theorem Sound.run (cfg : Config) (as : List Act) : Sound (run cfg .init as) :=
  Runs.invariant_run (step cfg) Sound (fun s a hs => hs.move (step_move cfg s a)) Sound.init as

/-- A session has one Pod at most, and stays until it has none. -/
theorem one_pod_per_session (cfg : Config) (as : List Act) (n : String) :
    let s := run cfg .init as
    (∀ name name', s.Owned n name → s.Owned n name' → name = name') ∧
      ∀ name, s.Owned n name → ∃ x, s.sessions.value n = some x ∧ x.finalizer = true := by
  have hs := Sound.run cfg as
  exact ⟨hs.unique n, hs.kept n⟩

end Chromeless.Controller
