import Chromeless.ControllerCluster

/-! What one step of the cluster can do, said once. -/
namespace Chromeless.Controller
open Versions

namespace Cluster

section
variable (s : Cluster) (e : Effect)

@[simp] theorem apply_nothing : s.apply .nothing = s := rfl
@[simp] theorem apply_clock : (s.apply e).clock = s.clock := by cases e <;> rfl
@[simp] theorem apply_workers : (s.apply e).workers = s.workers := by cases e <;> rfl
@[simp] theorem apply_poolWorkers : (s.apply e).poolWorkers = s.poolWorkers := by cases e <;> rfl
@[simp] theorem apply_requests : (s.apply e).requests = s.requests := by cases e <;> rfl
@[simp] theorem apply_acks : (s.apply e).acks = s.acks := by cases e <;> rfl

end

def NoPod (s : Cluster) (p : Pod → Bool) : Prop :=
  ∀ name ∈ s.podNames, ∀ pod, s.pods.value name = some pod → p pod = false

theorem first_spec {s : Cluster} {p : Pod → Bool} {pick : String} {r : Option (Stored Pod)}
    (h : s.first p pick = some r) :
    match r with
    | some o => s.pods.objects pick = some o ∧ p o.value = true
    | none => s.NoPod p := by
  unfold first at h
  split at h
  next o ho =>
    cases h
    rwa [Option.filter_eq_some_iff] at ho
  · split at h
    · cases h
    rename_i hany
    cases h
    intro name hname pod hpod
    rw [Bool.not_eq_true, List.any_eq_false] at hany
    simpa [hpod] using hany name hname

theorem deletePod_cases (s : Cluster) (name : String) :
    (∃ pod, s.pods.value name = some pod ∧ s.deletePod name = .putPod name { pod with terminating := true }) ∨
    (s.pods.value name = none ∧ s.deletePod name = .nothing) := by
  unfold deletePod
  cases h : s.pods.value name with
  | some pod => exact .inl ⟨pod, rfl, rfl⟩
  | none => exact .inr ⟨rfl, rfl⟩

end Cluster

/-- One call of the session reconcile of `n`, from one program point to the next, with the
write it makes. -/
inductive WorkCall (cfg : Config) (s : Cluster) (n : String) : Pc → Effect → Pc → Prop
  /-- an error, or nothing left to do -/
  | quit {pc} : WorkCall cfg s n pc .nothing .idle
  | stay {pc} : WorkCall cfg s n pc .nothing pc
  | get {sess} (hget : s.sessions.value n = some sess) :
      WorkCall cfg s n .idle .nothing (.dispatch sess)
  | finalizing {sess} (hdel : sess.deleting = true) :
      WorkCall cfg s n (.dispatch sess) .nothing (.finalize sess)
  | finalizerMissing {sess} (hfin : sess.finalizer = false) :
      WorkCall cfg s n (.dispatch sess) .nothing (.finalizerGet true retries)
  | toPending {sess} (hfin : sess.finalizer = true)
      (hphase : sess.status.phase = .unset ∨ sess.status.phase = .unknown) :
      WorkCall cfg s n (.dispatch sess) .nothing (.statusGet sess .pending retries)
  | toAssign {sess} (hfin : sess.finalizer = true)
      (hphase : sess.status.phase = .pending ∨ sess.status.phase = .warming) :
      WorkCall cfg s n (.dispatch sess) .nothing (.tryAssign sess)
  | neverActive {sess} (hfin : sess.finalizer = true) (hphase : sess.status.phase = .ready)
      (hlast : sess.status.lastActivityAt = none) :
      WorkCall cfg s n (.dispatch sess) .nothing (.statusGet sess (.activity s.clock) retries)
  | idleFor {sess last} (hfin : sess.finalizer = true) (hphase : sess.status.phase = .ready)
      (hlast : sess.status.lastActivityAt = some last)
      (hidle : last + sess.idleTimeout ≤ s.clock) :
      WorkCall cfg s n (.dispatch sess) .nothing (.statusGet sess .draining retries)
  | toDrain {sess} (hfin : sess.finalizer = true) (hphase : sess.status.phase = .draining) :
      WorkCall cfg s n (.dispatch sess) .nothing (.completeDrain sess)
  | gotPool {sess poolName pool} (hget : s.pools.value poolName = some pool) :
      WorkCall cfg s n (.tryAssign sess) .nothing (.findBoundPod sess poolName pool)
  | bound {sess poolName pool podName o} (hget : s.pods.objects podName = some o)
      (hbound : o.value.boundTo n = true) :
      WorkCall cfg s n (.findBoundPod sess poolName pool) .nothing (.advanceFromBoundPod sess podName o.value)
  | unbound {sess poolName pool} (hnone : s.NoPod (Pod.boundTo n)) :
      WorkCall cfg s n (.findBoundPod sess poolName pool) .nothing (.pickWarmPod sess poolName pool)
  | picked {sess poolName pool podName o} (hget : s.pods.objects podName = some o)
      (hwarm : warmFor sess poolName o.value = true) :
      WorkCall cfg s n (.pickWarmPod sess poolName pool) .nothing (.assignUpdate sess podName o retries)
  | coldStart {sess poolName pool} (hnone : s.NoPod (warmFor sess poolName)) :
      WorkCall cfg s n (.pickWarmPod sess poolName pool) .nothing (.createPod sess poolName pool)
  | created {sess poolName pool podName} (hfresh : podName ∉ s.podNames) :
      WorkCall cfg s n (.createPod sess poolName pool)
        (.createPod podName (createPodFromTemplate cfg n sess poolName pool s.clock))
        (.assignUpdate sess podName
          ⟨s.pods.next, createPodFromTemplate cfg n sess poolName pool s.clock⟩ retries)
  | assigned {sess podName latest tries pod} (hpod : assignPod n sess latest.value = some pod)
      (hver : s.pods.version podName = some latest.version) :
      WorkCall cfg s n (.assignUpdate sess podName latest tries) (.putPod podName pod)
        (.advanceFromBoundPod sess podName pod)
  | assignConflict {sess podName latest tries} :
      WorkCall cfg s n (.assignUpdate sess podName latest (tries + 1)) .nothing (.assignGet sess podName tries)
  | assignAgain {sess podName tries o} (hget : s.pods.objects podName = some o) :
      WorkCall cfg s n (.assignGet sess podName tries) .nothing (.assignUpdate sess podName o tries)
  | toWarming {sess podName pod} :
      WorkCall cfg s n (.advanceFromBoundPod sess podName pod) .nothing (.statusGet sess .warming retries)
  | toReady {sess podName} {pod : Pod} (hready : pod.ready = true) :
      WorkCall cfg s n (.advanceFromBoundPod sess podName pod) .nothing
        (.statusGet sess (.ready podName pod.ip s.clock) retries)
  | statusRead {sess m tries o} (hget : s.sessions.objects n = some o) :
      WorkCall cfg s n (.statusGet sess m tries) .nothing (.statusUpdate sess m o tries)
  | statusWritten {sess m latest tries} (hver : s.sessions.version n = some latest.version) :
      WorkCall cfg s n (.statusUpdate sess m latest tries) (.putSession n (m.apply cfg n latest.value)) .idle
  | statusConflict {sess m latest tries} :
      WorkCall cfg s n (.statusUpdate sess m latest (tries + 1)) .nothing (.statusGet sess m tries)
  | finalizerRead {add tries o} (hget : s.sessions.objects n = some o) :
      WorkCall cfg s n (.finalizerGet add tries) .nothing (.finalizerUpdate add o tries)
  | finalizerWritten {add latest tries} (hver : s.sessions.version n = some latest.version)
      (hkeep : add = false → latest.value.deleting = false) :
      WorkCall cfg s n (.finalizerUpdate add latest tries) (.putSession n { latest.value with finalizer := add }) .idle
  | finalizerGone {latest tries} (hver : s.sessions.version n = some latest.version)
      (hdel : latest.value.deleting = true) :
      WorkCall cfg s n (.finalizerUpdate false latest tries) (.removeSession n) .idle
  | finalizerConflict {add latest tries} :
      WorkCall cfg s n (.finalizerUpdate add latest (tries + 1)) .nothing (.finalizerGet add tries)
  | drainBound {sess podName o} (hget : s.pods.objects podName = some o)
      (hbound : o.value.boundTo n = true) :
      WorkCall cfg s n (.completeDrain sess) .nothing (.scrubOrDelete sess podName o)
  | drainNone {sess} (hnone : s.NoPod (Pod.boundTo n)) :
      WorkCall cfg s n (.completeDrain sess) .nothing (.statusGet sess (.ended s.clock) retries)
  | scrubPolicy {sess podName o} :
      WorkCall cfg s n (.scrubOrDelete sess podName o) .nothing (.scrubExec sess podName o)
  | recreatePolicy {sess podName o} :
      WorkCall cfg s n (.scrubOrDelete sess podName o) .nothing (.deleteBoundPod sess podName)
  | scrubVerified {sess podName o} :
      WorkCall cfg s n (.scrubExec sess podName o) .nothing (.scrubUpdate sess podName o)
  | scrubFailed {sess podName o} :
      WorkCall cfg s n (.scrubExec sess podName o) .nothing (.deleteBoundPod sess podName)
  | returned {sess podName o} (hver : s.pods.version podName = some o.version) :
      WorkCall cfg s n (.scrubUpdate sess podName o) (.putPod podName (scrubbedPod o.value))
        (.statusGet sess (.ended s.clock) retries)
  | returnFailed {sess podName o} :
      WorkCall cfg s n (.scrubUpdate sess podName o) .nothing (.deleteBoundPod sess podName)
  | recreated {sess podName} :
      WorkCall cfg s n (.deleteBoundPod sess podName) (s.deletePod podName) (.statusGet sess (.ended s.clock) retries)
  | finalBound {sess podName o} (hget : s.pods.objects podName = some o)
      (hbound : o.value.boundTo n = true) :
      WorkCall cfg s n (.finalize sess) .nothing (.finalizeDelete sess podName)
  | finalNone {sess} (hfin : sess.finalizer = true) (hnone : s.NoPod (Pod.boundTo n)) :
      WorkCall cfg s n (.finalize sess) .nothing (.finalizerGet false retries)
  | finalDeleted {sess podName} (hfin : sess.finalizer = true) :
      WorkCall cfg s n (.finalizeDelete sess podName) (s.deletePod podName) (.finalizerGet false retries)
  | finalLeft {sess podName} (hfin : sess.finalizer = false) :
      WorkCall cfg s n (.finalizeDelete sess podName) (s.deletePod podName) .idle

/-- The same for the reconcile of pool `p`. -/
inductive PoolCall (s : Cluster) (p : String) : PoolPc → Effect → PoolPc → Prop
  | quit {pc} : PoolCall s p pc .nothing .idle
  | stay {pc} : PoolCall s p pc .nothing pc
  | get {pool} (hget : s.pools.objects p = some pool) :
      PoolCall s p .idle .nothing (.listPods pool)
  | listed {pool} :
      PoolCall s p (.listPods pool) .nothing (.classify pool s.clock (s.podsOf p) 0 0 0)
  | looked {pool now warm assigned draining} :
      PoolCall s p (.classify pool now [] warm assigned draining) .nothing
        (.replenish pool now warm assigned draining 0)
  | aged {pool now name pod items warm assigned draining}
      (hold : overAged pool.value now pod = true) :
      PoolCall s p (.classify pool now ((name, pod) :: items) warm assigned draining)
        (s.deletePod name) (.classify pool now items warm assigned (draining + 1))
  | terminating {pool now name pod items warm assigned draining}
      (hterm : pod.terminating = true) :
      PoolCall s p (.classify pool now ((name, pod) :: items) warm assigned draining) .nothing
        (.classify pool now items warm assigned draining)
  | countWarm {pool now name pod items warm assigned draining} (hlive : pod.terminating = false)
      (hstate : pod.state = .warm) (hyoung : overAged pool.value now pod = false) :
      PoolCall s p (.classify pool now ((name, pod) :: items) warm assigned draining) .nothing
        (.classify pool now items (warm + 1) assigned draining)
  | countAssigned {pool now name pod items warm assigned draining}
      (hlive : pod.terminating = false) (hstate : pod.state = .assigned) :
      PoolCall s p (.classify pool now ((name, pod) :: items) warm assigned draining) .nothing
        (.classify pool now items warm (assigned + 1) draining)
  | countDraining {pool now name pod items warm assigned draining}
      (hlive : pod.terminating = false) (hstate : pod.state = .draining) :
      PoolCall s p (.classify pool now ((name, pod) :: items) warm assigned draining) .nothing
        (.classify pool now items warm assigned (draining + 1))
  | replenished {pool now warm assigned draining created name}
      (hshort : warm + created < pool.value.warmReplicas)
      (hmax : ¬ (0 < pool.value.maxSessions ∧ pool.value.maxSessions ≤ warm + assigned + created))
      (hfresh : name ∉ s.podNames) :
      PoolCall s p (.replenish pool now warm assigned draining created)
        (.createPod name (createWarmPod p pool.value s.clock))
        (.replenish pool now warm assigned draining (created + 1))
  | reported {pool now warm assigned draining created status}
      (hver : s.pools.version p = some pool.version) :
      PoolCall s p (.replenish pool now warm assigned draining created)
        (.putPool p { pool.value with status := status }) .idle

/-- The same for a handler of the gateway. -/
inductive ServeCall (cfg : Config) (s : Cluster) : RequestPc → Effect → RequestPc → Prop
  | quit {pc} : ServeCall cfg s pc .nothing .idle
  | stay {pc} : ServeCall cfg s pc .nothing pc
  | absent {req} (hget : s.sessions.value req.name = none) :
      ServeCall cfg s (.mintGet req) .nothing (.mintCreate req)
  | present {req o} (hget : s.sessions.objects req.name = some o)
      (hdel : o.value.deleting = false) :
      ServeCall cfg s (.mintGet req) .nothing (.mintUpdate req o)
  | leaving {req o} (hget : s.sessions.objects req.name = some o)
      (hdel : o.value.deleting = true) :
      ServeCall cfg s (.mintGet req) .nothing (.waitForReady req)
  | created {req} (hget : s.sessions.value req.name = none) (hvalid : (req.spec cfg).valid = true) :
      ServeCall cfg s (.mintCreate req) (.putSession req.name (req.session cfg s.sessions.next)) (.waitForReady req)
  | rewritten {req latest} (hver : s.sessions.version req.name = some latest.version)
      (hvalid : (req.spec cfg).valid = true) :
      ServeCall cfg s (.mintUpdate req latest) (.putSession req.name (req.rewrite cfg latest.value)) (.waitForReady req)
  | rewrittenEnded {req latest o} (hver : s.sessions.version req.name = some latest.version)
      (hvalid : (req.spec cfg).valid = true) (hphase : latest.value.status.phase = .ended)
      (hget : (s.sessions.set req.name (req.rewrite cfg latest.value)).objects req.name = some o) :
      ServeCall cfg s (.mintUpdate req latest) (.putSession req.name (req.rewrite cfg latest.value)) (.mintReset req o)
  | reset {req latest} (hver : s.sessions.version req.name = some latest.version) :
      ServeCall cfg s (.mintReset req latest)
        (.putSession req.name (resetSessionForReuse latest.value)) (.waitForReady req)
  | beatRead {name o} (hget : s.sessions.objects name = some o) :
      ServeCall cfg s (.heartbeatGet name) .nothing (.heartbeatNow name o)
  | beatNow {name latest} :
      ServeCall cfg s (.heartbeatNow name latest) .nothing (.heartbeatUpdate name latest s.clock)
  | beatWritten {name latest now} (hver : s.sessions.version name = some latest.version) :
      ServeCall cfg s (.heartbeatUpdate name latest now) (.putSession name (latest.value.touched now)) .idle
  | toDelete {name} : ServeCall cfg s (.deleteGet name) .nothing (.delete name)
  | deleteMarked {name sess} (hget : s.sessions.value name = some sess)
      (hfin : sess.finalizer = true) :
      ServeCall cfg s (.delete name) (.putSession name { sess with deleting := true }) .idle
  | deleteGone {name sess} (hget : s.sessions.value name = some sess)
      (hfin : sess.finalizer = false) :
      ServeCall cfg s (.delete name) (.removeSession name) .idle

/-- What happens to the objects without the controller. -/
inductive Outside (s : Cluster) : Act → Effect → Prop
  | nothing {a} : Outside s a .nothing
  | reported {name pod} (ready : Bool) (ip : String) (hget : s.pods.value name = some pod) :
      Outside s (.podStatus name ready ip) (.putPod name { pod with ready := ready, ip := ip })
  | evicted {name} : Outside s (.evict name) (s.deletePod name)
  | gone {name pod} (hget : s.pods.value name = some pod) (hterm : pod.terminating = true) :
      Outside s (.podGone name) (.removePod name)
  | editPool {p pool} : Outside s (.editPool p pool) (.putPool p pool)
  | deletePool {p} : Outside s (.deletePool p) (.removePool p)

variable (cfg : Config) (s : Cluster)

theorem dispatch_call (n : String) (sess : BrowserSession) :
    WorkCall cfg s n (.dispatch sess) .nothing (dispatch s sess) := by
  unfold dispatch
  split
  next hdel => exact .finalizing hdel
  split
  next hfin => exact .finalizerMissing (by simpa using hfin)
  rename_i hfin
  have hfin : sess.finalizer = true := by simpa using hfin
  split
  next hph => exact .toPending hfin (.inl hph)
  next hph => exact .toPending hfin (.inr hph)
  next hph => exact .toAssign hfin (.inl hph)
  next hph => exact .toAssign hfin (.inr hph)
  next hph =>
    split
    next hlast => exact .neverActive hfin hph hlast
    rename_i last hlast
    split
    · exact .quit
    next hidle => exact .idleFor hfin hph hlast (Nat.le_of_not_lt hidle)
  next hph => exact .toDrain hfin hph
  · exact .quit

theorem retry_call {cfg : Config} {s : Cluster} {n : String} (pc again : ℕ → Pc)
    (h : ∀ tries, WorkCall cfg s n (pc (tries + 1)) .nothing (again tries)) (tries : ℕ) :
    WorkCall cfg s n (pc tries) .nothing (retry tries again) := by
  cases tries with
  | zero => exact .quit
  | succ tries => exact h tries

theorem work_call (n pick : String) (ok : Bool) (pc : Pc) :
    WorkCall cfg s n pc (work cfg s n pick ok pc).1 (work cfg s n pick ok pc).2 := by
  fun_cases work cfg s n pick ok pc <;> try first | exact .quit | exact .stay
  · exact .get ‹_›
  · exact dispatch_call cfg s n _
  · exact .gotPool ‹_›
  next h => exact .bound (Cluster.first_spec h).1 (Cluster.first_spec h).2
  next h => exact .unbound (Cluster.first_spec h)
  next h => exact .picked (Cluster.first_spec h).1 (Cluster.first_spec h).2
  next h => exact .coldStart (Cluster.first_spec h)
  · exact .created ‹_›
  · exact .assigned ‹_› ‹_›
  next tries _ _ _ _ _ => exact retry_call (.assignUpdate _ _ _) _ (fun _ => .assignConflict) tries
  · exact .assignAgain ‹_›
  · exact .toWarming
  next hready =>
    refine .toReady ?_
    simp only [Bool.or_eq_true, Bool.not_eq_true', not_or, Bool.not_eq_false] at hready
    exact hready.1
  · exact .statusRead ‹_›
  · exact .statusWritten ‹_›
  next tries _ _ _ => exact retry_call (.statusUpdate _ _ _) _ (fun _ => .statusConflict) tries
  · exact .finalizerRead ‹_›
  next hgone hver =>
    simp only [Bool.and_eq_true, Bool.not_eq_true'] at hgone
    obtain ⟨rfl, hdel⟩ := hgone
    exact .finalizerGone hver hdel
  next hkeep hver => exact .finalizerWritten hver (by simpa using hkeep)
  next tries _ _ _ => exact retry_call (.finalizerUpdate _ _) _ (fun _ => .finalizerConflict) tries
  next h => exact .drainBound (Cluster.first_spec h).1 (Cluster.first_spec h).2
  next h => exact .drainNone (Cluster.first_spec h)
  · exact .recreatePolicy
  · exact .recreatePolicy
  · exact .scrubPolicy
  · exact .scrubVerified
  · exact .scrubFailed
  · exact .returned ‹_›
  · exact .returnFailed
  · exact .recreated
  next h => exact .finalBound (Cluster.first_spec h).1 (Cluster.first_spec h).2
  next h =>
    unfold finalized
    split
    next hfin => exact .finalNone hfin (Cluster.first_spec h)
    · exact .quit
  · unfold finalized
    split
    next hfin => exact .finalDeleted hfin
    next hfin => exact .finalLeft (by simpa using hfin)

theorem poolWork_call (p pick : String) (pc : PoolPc) :
    PoolCall s p pc (poolWork s p pick pc).1 (poolWork s p pick pc).2 := by
  fun_cases poolWork s p pick pc <;> try first | exact .quit | exact .stay
  · exact .get ‹_›
  · exact .listed
  · exact .looked
  · exact .aged ‹_›
  · exact .terminating ‹_›
  next hyoung hlive hst => exact .countWarm (by simpa using hlive) hst (by simpa using hyoung)
  next hlive hst => exact .countAssigned (by simpa using hlive) hst
  next hlive hst => exact .countDraining (by simpa using hlive) hst
  next hshr hfr => exact .replenished hshr.1 hshr.2 hfr
  · exact .reported ‹_›

theorem serve_call (deadline : Bool) (pc : RequestPc) :
    ServeCall cfg s pc (serve cfg s deadline pc).1 (serve cfg s deadline pc).2 := by
  fun_cases serve cfg s deadline pc <;> try exact .quit
  next hget => exact .absent (by simp [Store.value, hget])
  next o hget =>
    dsimp only
    split
    next hdel => exact .leaving hget hdel
    next hdel => exact .present hget (by simpa using hdel)
  next h => exact .created h.1 h.2
  next req latest h sess =>
    dsimp only
    split
    next hterm =>
      have hph : latest.value.status.phase = .ended := of_decide_eq_true hterm
      obtain ⟨o, hget, -⟩ := Store.objects_of_value
        (s := s.sessions.set req.name (req.rewrite cfg latest.value)) (k := req.name)
        (v := req.rewrite cfg latest.value) (by simp)
      simp only [sess, hget]
      exact .rewrittenEnded h.1 h.2 hph hget
    · exact .rewritten h.1 h.2
  · exact .reset ‹_›
  · dsimp only
    split <;> first | exact .quit | exact .stay
  · dsimp only
    split <;> first | exact .quit | exact .stay
  · exact .beatRead ‹_›
  · exact .beatNow
  · exact .beatWritten ‹_›
  · exact .toDelete
  · unfold Cluster.deleteSession
    split
    next sess hget =>
      split
      next hfin => exact .deleteMarked hget hfin
      next hfin => exact .deleteGone hget (by simpa using hfin)
    · exact .quit

theorem acked_serve (deadline : Bool) (pc : RequestPc) :
    acked s pc = [] ∨ ∃ name latest now, pc = .heartbeatUpdate name latest now ∧
      s.sessions.version name = some latest.version ∧
      (serve cfg s deadline pc).1 = .putSession name (latest.value.touched now) ∧
      acked s pc = [⟨name, latest.value.uid, stamp now⟩] := by
  cases pc with
  | heartbeatUpdate name latest now =>
    by_cases hver : s.sessions.version name = some latest.version
    · exact .inr ⟨name, latest, now, rfl, hver, by simp [serve, hver], by simp [acked, hver]⟩
    · exact .inl (by simp [acked, hver])
  | _ => exact .inl rfl

/-- A call of a worker, a pool worker or a handler, a new request, time, or an outside change. -/
inductive Move (cfg : Config) (s : Cluster) : Act → Cluster → Prop
  | work {n pick ok e pc} (h : WorkCall cfg s n (s.workers n) e pc) :
      Move cfg s (.work n pick ok) ((s.apply e).setWorker n pc)
  | abort {n} : Move cfg s (.abort n) (s.setWorker n .idle)
  | pool {p pick e pc} (h : PoolCall s p (s.poolWorkers p) e pc) :
      Move cfg s (.poolWork p pick) ((s.apply e).setPoolWorker p pc)
  | poolAbort {p} : Move cfg s (.poolAbort p) (s.setPoolWorker p .idle)
  | serve {i deadline e pc} (h : ServeCall cfg s (s.requests i) e pc)
      (hacked : acked s (s.requests i) = [] ∨ ∃ name latest now,
        s.requests i = .heartbeatUpdate name latest now ∧
        s.sessions.version name = some latest.version ∧
        e = .putSession name (latest.value.touched now) ∧
        acked s (s.requests i) = [⟨name, latest.value.uid, stamp now⟩]) :
      Move cfg s (.serve i deadline)
        { (s.apply e).setRequest i pc with acks := s.acks ++ acked s (s.requests i) }
  | request {i} {r : Request} : Move cfg s (.request i r) (s.setRequest i r.start)
  | requestAbort {i} : Move cfg s (.requestAbort i) (s.setRequest i .idle)
  | tick {d} : Move cfg s (.tick d) { s with clock := s.clock + d }
  | outside {a e} (h : Outside s a e) : Move cfg s a (s.apply e)

theorem step_move (a : Act) : Move cfg s a (step cfg s a) := by
  have hsame : Move cfg s a s := .outside .nothing
  cases a with
  | work n pick ok => exact .work (work_call cfg s n pick ok (s.workers n))
  | abort => exact .abort
  | poolWork p pick => exact .pool (poolWork_call s p pick (s.poolWorkers p))
  | poolAbort => exact .poolAbort
  | request =>
    simp only [step]
    split
    · exact .request
    · exact hsame
  | serve i deadline =>
    exact .serve (serve_call cfg s deadline (s.requests i)) (acked_serve cfg s deadline (s.requests i))
  | requestAbort => exact .requestAbort
  | tick => exact .tick
  | podStatus name ready ip =>
    simp only [step]
    split
    next pod hget => exact .outside (.reported ready ip hget)
    · exact hsame
  | evict => exact .outside .evicted
  | podGone name =>
    simp only [step]
    split
    next pod hget =>
      split
      next hterm => exact .outside (.gone hget hterm)
      · exact hsame
    · exact hsame
  | editPool => exact .outside .editPool
  | deletePool => exact .outside .deletePool

end Chromeless.Controller
