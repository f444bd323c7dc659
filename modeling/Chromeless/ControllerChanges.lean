import Chromeless.ControllerInvariant

/-! The steps of the cluster read backwards: how a stored Pod or session came to be what it is. -/
namespace Chromeless.Controller
open Function Versions Cluster Store

/-- How Pod `k` became `pod'` in step `a`. -/
inductive PodChange (cfg : Config) (s : Cluster) (a : Act) (k : String) (pod' : Pod) : Prop
  /-- its labels, reference and containers are what they were -/
  | kept {pod : Pod} {terminating ready : Bool} {ip : String} (hget : s.pods.value k = some pod)
      (hterm : pod.terminating = true → terminating = true)
      (heq : pod' = { pod with terminating := terminating, ready := ready, ip := ip })
  | cold {n pick : String} {ok : Bool} {sess : BrowserSession} {poolName : String}
      {pool : BrowserSessionPool} (hact : a = .work n pick ok)
      (hfresh : k ∉ s.podNames) (hpc : s.workers n = .createPod sess poolName pool)
      (heq : pod' = createPodFromTemplate cfg n sess poolName pool s.clock)
  | warm {p pick : String} {pool : Stored BrowserSessionPool}
      {now warm assigned draining created : ℕ} (hfresh : k ∉ s.podNames)
      (heq : pod' = createWarmPod p pool.value s.clock) (hact : a = .poolWork p pick)
      (hpc : s.poolWorkers p = .replenish pool now warm assigned draining created)
      (hmax : ¬ (0 < pool.value.maxSessions ∧ pool.value.maxSessions ≤ warm + assigned + created))
  | assigned {n pick : String} {ok : Bool} {sess : BrowserSession} {latest : Stored Pod}
      {tries : ℕ} (hact : a = .work n pick ok)
      (hpc : s.workers n = .assignUpdate sess k latest tries)
      (hver : s.pods.version k = some latest.version)
      (hget : s.pods.value k = some latest.value)
      (hpod : assignPod n sess latest.value = some pod')
  | returned {n pick : String} {ok : Bool} {sess : BrowserSession} {o : Stored Pod}
      (hact : a = .work n pick ok) (hpc : s.workers n = .scrubUpdate sess k o)
      (hver : s.pods.version k = some o.version) (hget : s.pods.value k = some o.value)
      (heq : pod' = scrubbedPod o.value)

/-- How session `n` became `x'` in step `a`. -/
inductive SessionChange (cfg : Config) (s : Cluster) (a : Act) (n : String) (x' : BrowserSession) : Prop
  | same (hget : s.sessions.value n = some x')
  | status {pick : String} {ok : Bool} {sess : BrowserSession} {m : StatusUpdate}
      {latest : Stored BrowserSession} {tries : ℕ} (hact : a = .work n pick ok)
      (hpc : s.workers n = .statusUpdate sess m latest tries)
      (hver : s.sessions.version n = some latest.version)
      (hget : s.sessions.value n = some latest.value) (heq : x' = m.apply cfg n latest.value)
  | finalizer {x : BrowserSession} {add : Bool} (hget : s.sessions.value n = some x)
      (heq : x' = { x with finalizer := add })
  | minted {i : ℕ} {deadline : Bool} {req : MintRequest} (hname : n = req.name)
      (hget : s.sessions.value n = none) (heq : x' = req.session cfg s.sessions.next)
      (hact : a = .serve i deadline) (hpc : s.requests i = .mintCreate req)
      (hvalid : (req.spec cfg).valid = true)
  | rewritten {i : ℕ} {deadline : Bool} {req : MintRequest} {latest : Stored BrowserSession}
      (hname : n = req.name) (hget : s.sessions.value n = some latest.value)
      (heq : x' = req.rewrite cfg latest.value) (hact : a = .serve i deadline)
      (hpc : s.requests i = .mintUpdate req latest)
      (hver : s.sessions.version n = some latest.version) (hvalid : (req.spec cfg).valid = true)
  | reset {x : BrowserSession} (hget : s.sessions.value n = some x)
      (hphase : x.status.phase = .ended) (heq : x' = resetSessionForReuse x)
  | heartbeat {i now : ℕ} {latest : Stored BrowserSession}
      (hpc : s.requests i = .heartbeatUpdate n latest now)
      (hget : s.sessions.value n = some latest.value)
      (hver : s.sessions.version n = some latest.version) (heq : x' = latest.value.touched now)
  | marked {i : ℕ} {deadline : Bool} {x : BrowserSession} (hget : s.sessions.value n = some x)
      (heq : x' = { x with deleting := true }) (hact : a = .serve i deadline)
      (hpc : s.requests i = .delete n)

section
variable {cfg : Config} {s s' : Cluster} {a : Act} {k name : String} {pod pod' : Pod}

theorem PodChange.same (hget : s.pods.value k = some pod') : PodChange cfg s a k pod' :=
  .kept hget id rfl

theorem PodChange.of_set (hnew : name = k → PodChange cfg s a k pod)
    (h : (s.pods.set name pod).value k = some pod') : PodChange cfg s a k pod' := by
  rw [value_set, Function.update_apply] at h
  split_ifs at h with hk
  · cases h
    exact hnew hk.symm
  · exact .same h

theorem PodChange.of_deletePod (h : (s.apply (s.deletePod name)).pods.value k = some pod') :
    PodChange cfg s a k pod' := by
  rw [apply_deletePod_value, Function.update_apply] at h
  split_ifs at h with hk
  · obtain ⟨pod, hget, rfl⟩ := Option.map_eq_some_iff.mp h
    exact .kept (hk ▸ hget) (fun _ => rfl) rfl
  · exact .same h

theorem WorkCall.podChange {n pick : String} {ok : Bool} {e : Effect} {pc' : Pc}
    (hcall : WorkCall cfg s n (s.workers n) e pc') (hs : Copies s)
    (h : (s.apply e).pods.value k = some pod') : PodChange cfg s (.work n pick ok) k pod' := by
  have hcopy := hs.pods n
  generalize hpc : s.workers n = pc at hcall hcopy
  cases hcall with
  | created hfr =>
    refine .of_set ?_ h
    rintro rfl
    exact .cold rfl hfr hpc rfl
  | assigned hpod hver =>
    refine .of_set ?_ h
    rintro rfl
    exact .assigned rfl hpc hver ((hcopy _ _ rfl).value_eq hver) hpod
  | returned hver =>
    refine .of_set ?_ h
    rintro rfl
    exact .returned rfl hpc hver ((hcopy _ _ rfl).value_eq hver) rfl
  | recreated | finalDeleted | finalLeft => exact .of_deletePod h
  | _ => exact .same h

theorem PoolCall.podChange {p pick : String} {e : Effect} {pc' : PoolPc}
    (hcall : PoolCall s p (s.poolWorkers p) e pc') (h : (s.apply e).pods.value k = some pod') :
    PodChange cfg s (.poolWork p pick) k pod' := by
  generalize hpc : s.poolWorkers p = pc at hcall
  cases hcall with
  | aged => exact .of_deletePod h
  | replenished hshr hmax hfr =>
    refine .of_set ?_ h
    rintro rfl
    exact .warm hfr rfl rfl hpc hmax
  | _ => exact .same h

theorem Outside.podChange {e : Effect} {b : Act} (hout : Outside s b e)
    (h : (s.apply e).pods.value k = some pod') : PodChange cfg s a k pod' := by
  cases hout with
  | reported ready ip hget =>
    refine .of_set ?_ h
    rintro rfl
    exact .kept hget id rfl
  | evicted => exact .of_deletePod h
  | @gone name =>
    simp only [apply, value_erase] at h
    by_cases hk : k = name
    · simp [hk] at h
    · rw [update_of_ne hk] at h
      exact .same h
  | _ => exact .same h

theorem Move.podChange (hmove : Move cfg s a s') (hs : Copies s)
    (h : s'.pods.value k = some pod') : PodChange cfg s a k pod' := by
  cases hmove with
  | work hcall => exact hcall.podChange hs h
  | pool hcall | outside hcall => exact hcall.podChange h
  | serve hcall =>
    simp only [setRequest_pods, hcall.pods] at h
    exact .same h
  | _ => exact .same h

end

section
variable {cfg : Config} {s s' : Cluster} {a : Act} {n name : String} {x' v : BrowserSession}

theorem SessionChange.of_set (hnew : name = n → SessionChange cfg s a n v)
    (h : (s.sessions.set name v).value n = some x') : SessionChange cfg s a n x' := by
  rw [value_set, Function.update_apply] at h
  split_ifs at h with hn
  · cases h
    exact hnew hn.symm
  · exact .same h

theorem SessionChange.of_erase (h : (s.sessions.erase name).value n = some x') :
    SessionChange cfg s a n x' := by
  rw [value_erase] at h
  by_cases hn : n = name
  · simp [hn] at h
  · rw [update_of_ne hn] at h
    exact .same h

theorem WorkCall.sessionChange {m pick : String} {ok : Bool} {e : Effect} {pc' : Pc}
    (hcall : WorkCall cfg s m (s.workers m) e pc') (hs : Copies s) (h : (s.apply e).sessions.value n = some x') :
    SessionChange cfg s (.work m pick ok) n x' := by
  have hcopy := hs.sessions m
  generalize hpc : s.workers m = pc at hcall hcopy
  cases hcall with
  | recreated | finalDeleted | finalLeft =>
    rw [apply_deletePod_sessions] at h
    exact .same h
  | statusWritten hver =>
    refine .of_set ?_ h
    rintro rfl
    exact .status rfl hpc hver ((hcopy _ rfl).value_eq hver) rfl
  | finalizerWritten hver =>
    refine .of_set ?_ h
    rintro rfl
    exact .finalizer ((hcopy _ rfl).value_eq hver) rfl
  | finalizerGone => exact .of_erase h
  | _ => exact .same h

theorem ServeCall.sessionChange {i : ℕ} {deadline : Bool} {e : Effect} {pc' : RequestPc}
    (hcall : ServeCall cfg s (s.requests i) e pc') (hs : Copies s) (h : (s.apply e).sessions.value n = some x') :
    SessionChange cfg s (.serve i deadline) n x' := by
  have hcopy := hs.requests i
  have hrst := hs.resets i
  generalize hpc : s.requests i = pc at hcall hcopy hrst
  cases hcall with
  | created hget hval =>
    refine .of_set ?_ h
    rintro rfl
    exact .minted rfl hget rfl rfl hpc hval
  | rewritten hver hval | rewrittenEnded hver hval =>
    refine .of_set ?_ h
    rintro rfl
    exact .rewritten rfl ((hcopy _ _ rfl).value_eq hver) rfl rfl hpc hver hval
  | reset hver =>
    refine .of_set ?_ h
    rintro rfl
    exact .reset ((hcopy _ _ rfl).value_eq hver) (hrst _ _ rfl) rfl
  | beatWritten hver =>
    refine .of_set ?_ h
    rintro rfl
    exact .heartbeat hpc ((hcopy _ _ rfl).value_eq hver) hver rfl
  | deleteMarked hget =>
    refine .of_set ?_ h
    rintro rfl
    exact .marked hget rfl rfl hpc
  | deleteGone => exact .of_erase h
  | _ => exact .same h

theorem Move.sessionChange (hmove : Move cfg s a s') (hs : Copies s)
    (h : s'.sessions.value n = some x') : SessionChange cfg s a n x' := by
  cases hmove with
  | work hcall | serve hcall => exact hcall.sessionChange hs h
  | pool hcall =>
    rw [setPoolWorker_sessions, hcall.sessions] at h
    exact .same h
  | outside hout =>
    rw [hout.sessions] at h
    exact .same h
  | _ => exact .same h

theorem SessionChange.uid (h : SessionChange cfg s a n x') :
    (∃ x, s.sessions.value n = some x ∧ x'.uid = x.uid) ∨ (s.sessions.value n = none ∧ x'.uid = s.sessions.next) := by
  cases h with
  | same hget => exact .inl ⟨_, hget, rfl⟩
  | status _ _ _ hget heq | finalizer hget heq | rewritten _ hget heq | reset hget _ heq
  | heartbeat _ hget _ heq | marked hget heq => exact .inl ⟨_, hget, heq ▸ rfl⟩
  | minted hname hget heq => exact .inr ⟨hget, heq ▸ rfl⟩

end

section
variable {cfg : Config} {s s' : Cluster} {a : Act}
variable (hmove : Move cfg s a s')
include hmove

theorem Move.apply_sessions :
    ∃ e, s'.sessions = (s.apply e).sessions := by
  cases hmove <;> first | exact ⟨_, rfl⟩ | exact ⟨.nothing, rfl⟩

theorem Move.clock_le : s.clock ≤ s'.clock := by
  cases hmove with
  | tick => exact Nat.le_add_right _ _
  | abort | poolAbort | request | requestAbort => exact le_refl _
  | _ => simp

theorem Move.request_cases (i : ℕ) :
    s'.requests i = s.requests i ∨
      (s'.clock = s.clock ∧ ∃ e, ServeCall cfg s (s.requests i) e (s'.requests i)) ∨
      ∃ r : Request, s'.requests i = r.start := by
  cases hmove with
  | @serve j deadline e pc hcall =>
    by_cases hi : i = j
    · subst hi
      exact .inr (.inl ⟨by simp, e, by simpa using hcall⟩)
    · exact .inl (by simp [update_of_ne hi])
  | @request j r =>
    by_cases hi : i = j
    · subst hi
      exact .inr (.inr ⟨r, by simp⟩)
    · exact .inl (by simp [update_of_ne hi])
  | @requestAbort j =>
    by_cases hi : i = j
    · subst hi
      exact .inr (.inl ⟨rfl, .nothing, by simpa using ServeCall.quit⟩)
    · exact .inl (by simp [update_of_ne hi])
  | _ => exact .inl (by simp)

theorem Move.acks_cases {ack : Ack} (h : ack ∈ s'.acks) :
    ack ∈ s.acks ∨ ∃ i name latest now, s.requests i = .heartbeatUpdate name latest now ∧
      s.sessions.version name = some latest.version ∧
      s'.sessions = s.sessions.set name (latest.value.touched now) ∧
      ack = ⟨name, latest.value.uid, stamp now⟩ := by
  cases hmove with
  | @serve i deadline e pc hcall hacked =>
    obtain hold | hnew := List.mem_append.mp h
    · exact .inl hold
    obtain hnone | ⟨name, latest, now, hpc, hver, rfl, hone⟩ := hacked
    · rw [hnone] at hnew
      cases hnew
    · rw [hone, List.mem_singleton] at hnew
      exact .inr ⟨i, name, latest, now, hpc, hver, rfl, hnew⟩
  | _ => exact .inl (by simpa using h)

end

theorem Move.podNames_subset {cfg : Config} {s s' : Cluster} {a : Act} (hmove : Move cfg s a s')
    {k : String} (h : k ∈ s.podNames) : k ∈ s'.podNames := by
  have happly (e : Effect) : k ∈ (s.apply e).podNames := by
    cases e <;> first | exact h | exact List.mem_append_left _ h
  cases hmove <;> first | exact h | exact happly _

theorem Cluster.mem_podsOf {s : Cluster} {p name : String} {pod : Pod} :
    (name, pod) ∈ s.podsOf p ↔ name ∈ s.podNames ∧ s.pods.value name = some pod ∧ pod.pool = p := by
  simp only [podsOf, List.mem_filterMap, Option.map_eq_some_iff, Option.filter_eq_some_iff,
    Prod.mk.injEq, decide_eq_true_eq]
  constructor
  · rintro ⟨k, hk, pod', ⟨hget, hpool⟩, rfl, rfl⟩
    exact ⟨hk, hget, hpool⟩
  · rintro ⟨hmem, hget, hpool⟩
    exact ⟨name, hmem, pod, ⟨hget, hpool⟩, rfl, rfl⟩

end Chromeless.Controller
