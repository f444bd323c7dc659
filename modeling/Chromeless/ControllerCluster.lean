import Chromeless.ControllerObjects
import Chromeless.LibRuns
import Chromeless.LibVersions

/-! The controller and its cluster as one machine: one API call per step, so that every interleaving
is a schedule. One worker serves a key at a time. -/
namespace Chromeless.Controller
open Versions

/-- Where the reconcile of a session is: each constructor is the next API call, with the variables
that are live there. `tries` counts the attempts that `RetryOnConflict` has left. -/
inductive Pc
  | idle
  | dispatch (sess : BrowserSession)
  | tryAssign (sess : BrowserSession)
  | findBoundPod (sess : BrowserSession) (poolName : String) (pool : BrowserSessionPool)
  | pickWarmPod (sess : BrowserSession) (poolName : String) (pool : BrowserSessionPool)
  | createPod (sess : BrowserSession) (poolName : String) (pool : BrowserSessionPool)
  | assignUpdate (sess : BrowserSession) (podName : String) (latest : Stored Pod) (tries : ℕ)
  | assignGet (sess : BrowserSession) (podName : String) (tries : ℕ)
  | advanceFromBoundPod (sess : BrowserSession) (podName : String) (pod : Pod)
  | statusGet (sess : BrowserSession) (m : StatusUpdate) (tries : ℕ)
  | statusUpdate (sess : BrowserSession) (m : StatusUpdate) (latest : Stored BrowserSession) (tries : ℕ)
  | finalizerGet (add : Bool) (tries : ℕ)
  | finalizerUpdate (add : Bool) (latest : Stored BrowserSession) (tries : ℕ)
  | completeDrain (sess : BrowserSession)
  | scrubOrDelete (sess : BrowserSession) (podName : String) (pod : Stored Pod)
  | scrubExec (sess : BrowserSession) (podName : String) (pod : Stored Pod)
  | scrubUpdate (sess : BrowserSession) (podName : String) (pod : Stored Pod)
  | deleteBoundPod (sess : BrowserSession) (podName : String)
  | finalize (sess : BrowserSession)
  | finalizeDelete (sess : BrowserSession) (podName : String)

/-- Where the reconcile of a pool is. `items` are the Pods of the list that the loop has
still to look at. -/
inductive PoolPc
  | idle
  | listPods (pool : Stored BrowserSessionPool)
  | classify (pool : Stored BrowserSessionPool) (now : ℕ) (items : List (String × Pod)) (warm assigned draining : ℕ)
  | replenish (pool : Stored BrowserSessionPool) (now warm assigned draining created : ℕ)

inductive Request
  | mint (req : MintRequest)
  | heartbeat (name : String)
  | delete (name : String)

inductive RequestPc
  | idle
  | mintGet (req : MintRequest)
  | mintCreate (req : MintRequest)
  | mintUpdate (req : MintRequest) (latest : Stored BrowserSession)
  | mintReset (req : MintRequest) (latest : Stored BrowserSession)
  | waitForReady (req : MintRequest)
  | heartbeatGet (name : String)
  | heartbeatNow (name : String) (latest : Stored BrowserSession)
  | heartbeatUpdate (name : String) (latest : Stored BrowserSession) (now : ℕ)
  | deleteGet (name : String)
  | delete (name : String)
deriving DecidableEq

/-- A heartbeat answered with success: the session object it was written to and the
activity time it recorded. -/
structure Ack where
  name : String
  uid : ℕ
  at_ : ℕ
deriving DecidableEq

/-- `podNames` are the names of all Pods ever created, which are not used again. `acks` is a ghost.
-/
structure Cluster where
  pools : Store String BrowserSessionPool
  sessions : Store String BrowserSession
  pods : Store String Pod
  podNames : List String
  clock : ℕ
  workers : String → Pc
  poolWorkers : String → PoolPc
  requests : ℕ → RequestPc
  acks : List Ack

inductive Effect
  | nothing
  | createPod (name : String) (pod : Pod)
  | putPod (name : String) (pod : Pod)
  | removePod (name : String)
  | putSession (name : String) (sess : BrowserSession)
  | removeSession (name : String)
  | putPool (name : String) (pool : BrowserSessionPool)
  | removePool (name : String)

namespace Cluster

def init : Cluster where
  pools := .empty
  sessions := .empty
  pods := .empty
  podNames := []
  clock := 0
  workers := fun _ => .idle
  poolWorkers := fun _ => .idle
  requests := fun _ => .idle
  acks := []

variable (cfg : Config) (s : Cluster)

def apply : Effect → Cluster
  | .nothing => s
  | .createPod name pod => { s with pods := s.pods.set name pod, podNames := s.podNames ++ [name] }
  | .putPod name pod => { s with pods := s.pods.set name pod }
  | .removePod name => { s with pods := s.pods.erase name }
  | .putSession name sess => { s with sessions := s.sessions.set name sess }
  | .removeSession name => { s with sessions := s.sessions.erase name }
  | .putPool name pool => { s with pools := s.pools.set name pool }
  | .removePool name => { s with pools := s.pools.erase name }

@[simps -fullyApplied]
def setWorker (n : String) (pc : Pc) : Cluster :=
  { s with workers := Function.update s.workers n pc }

@[simps -fullyApplied]
def setPoolWorker (p : String) (pc : PoolPc) : Cluster :=
  { s with poolWorkers := Function.update s.poolWorkers p pc }

@[simps -fullyApplied]
def setRequest (i : ℕ) (pc : RequestPc) : Cluster :=
  { s with requests := Function.update s.requests i pc }

def deletePod (name : String) : Effect :=
  match s.pods.value name with
  | some pod => .putPod name { pod with terminating := true }
  | none => .nothing

def deleteSession (name : String) : Effect :=
  match s.sessions.value name with
  | some sess =>
    if sess.finalizer then .putSession name { sess with deleting := true }
    else .removeSession name
  | none => .nothing

/-- A List of which the caller takes the first match: `pick` says which Pod comes first, and is
ignored if it does not match while another Pod does. -/
def first (p : Pod → Bool) (pick : String) : Option (Option (Stored Pod)) :=
  match (s.pods.objects pick).filter (fun o => p o.value) with
  | some o => some (some o)
  | none => if s.podNames.any (fun name => (s.pods.value name).any p) then none else some none

end Cluster

def Pod.boundTo (name : String) (pod : Pod) : Bool := pod.owner = some name && !pod.terminating

def retries : ℕ := 4

section
variable (cfg : Config) (s : Cluster) (n : String)

def dispatch (sess : BrowserSession) : Pc :=
  if sess.deleting then .finalize sess
  else if !sess.finalizer then .finalizerGet true retries
  else
    match sess.status.phase with
    | .unset | .unknown => .statusGet sess .pending retries
    | .pending | .warming => .tryAssign sess
    | .ready =>
      match sess.status.lastActivityAt with
      | none => .statusGet sess (.activity s.clock) retries
      | some last => if s.clock < last + sess.idleTimeout then .idle else .statusGet sess .draining retries
    | .draining => .completeDrain sess
    | .ended => .idle

/-- A conflict ends the attempt, and the reconcile when no attempt is left. -/
def retry (tries : ℕ) (again : ℕ → Pc) : Pc :=
  match tries with
  | 0 => .idle
  | tries + 1 => again tries

def finalized (sess : BrowserSession) : Pc :=
  if sess.finalizer then .finalizerGet false retries else .idle

/-- One API call of the reconcile of session `n`. `pick` is the Pod a List puts first or
the name a Create generates, `ok` whether the scrub was verified. -/
def work (pick : String) (ok : Bool) : Pc → Effect × Pc
  | .idle =>
    match s.sessions.value n with
    | some sess => (.nothing, .dispatch sess)
    | none => (.nothing, .idle)
  | .dispatch sess => (.nothing, dispatch s sess)
  | .tryAssign sess =>
    let poolName := if sess.spec.poolName = "" then cfg.defaultPool else sess.spec.poolName
    match s.pools.value poolName with
    | some pool => (.nothing, .findBoundPod sess poolName pool)
    | none => (.nothing, .idle)
  | .findBoundPod sess poolName pool =>
    match s.first (Pod.boundTo n) pick with
    | some (some o) => (.nothing, .advanceFromBoundPod sess pick o.value)
    | some none => (.nothing, .pickWarmPod sess poolName pool)
    | none => (.nothing, .findBoundPod sess poolName pool)
  | .pickWarmPod sess poolName pool =>
    match s.first (warmFor sess poolName) pick with
    | some (some o) => (.nothing, .assignUpdate sess pick o retries)
    | some none => (.nothing, .createPod sess poolName pool)
    | none => (.nothing, .pickWarmPod sess poolName pool)
  | .createPod sess poolName pool =>
    if pick ∈ s.podNames then (.nothing, .createPod sess poolName pool)
    else
      let pod := createPodFromTemplate cfg n sess poolName pool s.clock
      (.createPod pick pod, .assignUpdate sess pick ⟨s.pods.next, pod⟩ retries)
  | .assignUpdate sess podName latest tries =>
    match assignPod n sess latest.value with
    | none => (.nothing, .idle)
    | some pod =>
      match s.pods.version podName with
      | none => (.nothing, .idle)
      | some v =>
        if v = latest.version then (.putPod podName pod, .advanceFromBoundPod sess podName pod)
        else (.nothing, retry tries (.assignGet sess podName))
  | .assignGet sess podName tries =>
    -- the Pod is not checked again: `latest` may have been assigned in the meantime
    match s.pods.objects podName with
    | some o => (.nothing, .assignUpdate sess podName o tries)
    | none => (.nothing, .idle)
  | .advanceFromBoundPod sess podName pod =>
    if !pod.ready || pod.ip = "" then (.nothing, .statusGet sess .warming retries)
    else (.nothing, .statusGet sess (.ready podName pod.ip s.clock) retries)
  | .statusGet sess m tries =>
    match s.sessions.objects n with
    | some o => (.nothing, .statusUpdate sess m o tries)
    | none => (.nothing, .idle)
  | .statusUpdate sess m latest tries =>
    match s.sessions.version n with
    | none => (.nothing, .idle)
    | some v =>
      if v = latest.version then (.putSession n (m.apply cfg n latest.value), .idle)
      else (.nothing, retry tries (.statusGet sess m))
  | .finalizerGet add tries =>
    match s.sessions.objects n with
    | some o => (.nothing, .finalizerUpdate add o tries)
    | none => (.nothing, .idle)
  | .finalizerUpdate add latest tries =>
    match s.sessions.version n with
    | none => (.nothing, .idle)
    | some v =>
      if v = latest.version then
        -- taking the last finalizer off an object marked for deletion removes it
        if !add && latest.value.deleting then (.removeSession n, .idle)
        else (.putSession n { latest.value with finalizer := add }, .idle)
      else (.nothing, retry tries (.finalizerGet add))
  | .completeDrain sess =>
    match s.first (Pod.boundTo n) pick with
    | some (some o) => (.nothing, .scrubOrDelete sess pick o)
    | some none => (.nothing, .statusGet sess (.ended s.clock) retries)
    | none => (.nothing, .completeDrain sess)
  | .scrubOrDelete sess podName pod =>
    match s.pools.value pod.value.pool with
    | none => (.nothing, .deleteBoundPod sess podName)
    | some pool =>
      if pod.value.pool = "" || pool.recyclePolicy ≠ .scrubAndReturn || !cfg.scrubExec then
        (.nothing, .deleteBoundPod sess podName)
      else (.nothing, .scrubExec sess podName pod)
  | .scrubExec sess podName pod =>
    if ok then (.nothing, .scrubUpdate sess podName pod)
    else (.nothing, .deleteBoundPod sess podName)
  | .scrubUpdate sess podName pod =>
    if s.pods.version podName = some pod.version then
      (.putPod podName (scrubbedPod pod.value), .statusGet sess (.ended s.clock) retries)
    else (.nothing, .deleteBoundPod sess podName)
  | .deleteBoundPod sess podName => (s.deletePod podName, .statusGet sess (.ended s.clock) retries)
  | .finalize sess =>
    match s.first (Pod.boundTo n) pick with
    | some (some _) => (.nothing, .finalizeDelete sess pick)
    | some none => (.nothing, finalized sess)
    | none => (.nothing, .finalize sess)
  | .finalizeDelete sess podName => (s.deletePod podName, finalized sess)

end

section
variable (s : Cluster) (p : String)

def Cluster.podsOf : List (String × Pod) :=
  s.podNames.filterMap fun name =>
    ((s.pods.value name).filter (·.pool = p)).map fun pod => (name, pod)

def overAged (pool : BrowserSessionPool) (now : ℕ) (pod : Pod) : Bool :=
  !pod.terminating && pod.state = .warm && decide (pod.created + pool.maxAge < now)

def poolWork (pick : String) : PoolPc → Effect × PoolPc
  | .idle =>
    match s.pools.objects p with
    | some pool => (.nothing, .listPods pool)
    | none => (.nothing, .idle)
  | .listPods pool => (.nothing, .classify pool s.clock (s.podsOf p) 0 0 0)
  | .classify pool now [] warm assigned draining => (.nothing, .replenish pool now warm assigned draining 0)
  | .classify pool now ((name, pod) :: items) warm assigned draining =>
    if overAged pool.value now pod then
      -- `drainWarmPod`: the label is changed on the copy only, then the Pod is deleted
      (s.deletePod name, .classify pool now items warm assigned (draining + 1))
    else if pod.terminating then (.nothing, .classify pool now items warm assigned draining)
    else
      match pod.state with
      | .warm => (.nothing, .classify pool now items (warm + 1) assigned draining)
      | .assigned => (.nothing, .classify pool now items warm (assigned + 1) draining)
      | .draining => (.nothing, .classify pool now items warm assigned (draining + 1))
  | .replenish pool now warm assigned draining created =>
    if warm + created < pool.value.warmReplicas
        ∧ ¬ (0 < pool.value.maxSessions ∧ pool.value.maxSessions ≤ warm + assigned + created) then
      if pick ∈ s.podNames then (.nothing, .replenish pool now warm assigned draining created)
      else
        (.createPod pick (createWarmPod p pool.value s.clock), .replenish pool now warm assigned draining (created + 1))
    else if s.pools.version p = some pool.version then
      (.putPool p { pool.value with
        status :=
          { warm := warm + created
            active := assigned
            draining := draining
            totalEverProvisioned := pool.value.status.totalEverProvisioned + created
            lastReplenishedAt := some (stamp now) } }, .idle)
    else (.nothing, .idle)

end

section
variable (cfg : Config) (s : Cluster)

def Request.start : Request → RequestPc
  | .mint req => if req.elementID = "" then .idle else .mintGet req
  | .heartbeat name => .heartbeatGet name
  | .delete name => .deleteGet name

/-- One API call of a gateway handler. `deadline` says that the wait for readiness has
run out. -/
def serve (deadline : Bool) : RequestPc → Effect × RequestPc
  | .idle => (.nothing, .idle)
  | .mintGet req =>
    match s.sessions.objects req.name with
    | none => (.nothing, .mintCreate req)
    | some o => (.nothing, if o.value.deleting then .waitForReady req else .mintUpdate req o)
  | .mintCreate req =>
    if s.sessions.value req.name = none ∧ (req.spec cfg).valid then
      (.putSession req.name (req.session cfg s.sessions.next), .waitForReady req)
    else (.nothing, .idle)
  | .mintUpdate req latest =>
    if s.sessions.version req.name = some latest.version ∧ (req.spec cfg).valid then
      let sess := req.rewrite cfg latest.value
      (.putSession req.name sess,
        if isTerminalSession sess then
          match (s.sessions.set req.name sess).objects req.name with
          | some o => .mintReset req o
          | none => .idle
        else .waitForReady req)
    else (.nothing, .idle)
  | .mintReset req latest =>
    if s.sessions.version req.name = some latest.version then
      (.putSession req.name (resetSessionForReuse latest.value), .waitForReady req)
    else (.nothing, .idle)
  | .waitForReady req =>
    match s.sessions.value req.name with
    | some sess => (.nothing, if sess.status.phase = .ready || deadline then .idle else .waitForReady req)
    | none => (.nothing, if deadline then .idle else .waitForReady req)
  | .heartbeatGet name =>
    match s.sessions.objects name with
    | some o => (.nothing, .heartbeatNow name o)
    | none => (.nothing, .idle)
  | .heartbeatNow name latest => (.nothing, .heartbeatUpdate name latest s.clock)
  | .heartbeatUpdate name latest now =>
    if s.sessions.version name = some latest.version then
      (.putSession name (latest.value.touched now), .idle)
    else (.nothing, .idle)
  | .deleteGet name =>
    match s.sessions.value name with
    | some _ => (.nothing, .delete name)
    | none => (.nothing, .idle)
  | .delete name => (s.deleteSession name, .idle)

def acked : RequestPc → List Ack
  | .heartbeatUpdate name latest now =>
    if s.sessions.version name = some latest.version then [⟨name, latest.value.uid, stamp now⟩]
    else []
  | _ => []

end

/-- A call of one of the three components, a call that fails, a new request, or something outside.
-/
inductive Act
  | work (n pick : String) (ok : Bool)
  | abort (n : String)
  | poolWork (p pick : String)
  | poolAbort (p : String)
  | request (i : ℕ) (r : Request)
  | serve (i : ℕ) (deadline : Bool)
  | requestAbort (i : ℕ)
  | tick (d : ℕ)
  | podStatus (name : String) (ready : Bool) (ip : String)
  | evict (name : String)
  | podGone (name : String)
  | editPool (p : String) (pool : BrowserSessionPool)
  | deletePool (p : String)

def step (cfg : Config) (s : Cluster) : Act → Cluster
  | .work n pick ok =>
    let (e, pc) := work cfg s n pick ok (s.workers n)
    (s.apply e).setWorker n pc
  | .abort n => s.setWorker n .idle
  | .poolWork p pick =>
    let (e, pc) := poolWork s p pick (s.poolWorkers p)
    (s.apply e).setPoolWorker p pc
  | .poolAbort p => s.setPoolWorker p .idle
  | .request i r =>
    match s.requests i with
    | .idle => s.setRequest i r.start
    | _ => s
  | .serve i deadline =>
    let (e, pc) := serve cfg s deadline (s.requests i)
    { (s.apply e).setRequest i pc with acks := s.acks ++ acked s (s.requests i) }
  | .requestAbort i => s.setRequest i .idle
  | .tick d => { s with clock := s.clock + d }
  | .podStatus name ready ip =>
    match s.pods.value name with
    | some pod => s.apply (.putPod name { pod with ready := ready, ip := ip })
    | none => s
  | .evict name => s.apply (s.deletePod name)
  | .podGone name =>
    match s.pods.value name with
    | some pod => if pod.terminating then s.apply (.removePod name) else s
    | none => s
  | .editPool p pool => s.apply (.putPool p pool)
  | .deletePool p => s.apply (.removePool p)

def run (cfg : Config) : Cluster → List Act → Cluster := Runs.run (step cfg)

/-! Schedules are put together from these. -/

def calls (n pick : String) (k : ℕ) : List Act := List.replicate k (.work n pick true)

def poolCalls (p pick : String) (k : ℕ) : List Act := List.replicate k (.poolWork p pick)

def requestCalls (i : ℕ) (r : Request) (k : ℕ) : List Act :=
  .request i r :: List.replicate k (.serve i false)

def smallPool (warmReplicas : ℕ) : BrowserSessionPool :=
  { warmReplicas := warmReplicas, containers := [⟨"chromeless", []⟩] }

/-- A session is minted, gets its finalizer and its phase in eight calls, and takes the warm Pod in
nine more. -/
def oneReady : List Act :=
  .editPool "default-pool" (smallPool 1) ::
    (poolCalls "default-pool" "p" 4 ++ [.podStatus "p" true "10.0.0.1"]
      ++ requestCalls 1 (.mint { tenantID := "t", elementID := "a" }) 2
      ++ calls "tf-a" "p" 8 ++ calls "tf-a" "p" 9)

end Chromeless.Controller
