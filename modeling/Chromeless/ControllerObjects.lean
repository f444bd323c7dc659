import Mathlib.Data.List.DropRight

/-! The objects of the browser-session controller, with the functions that only compute on them.
Times are nanoseconds; what is absent is the empty string, as for a missing map entry in Go. -/
namespace Chromeless.Controller

def second : ℕ := 1000000000

def stamp (now : ℕ) : ℕ := now / second * second

/-! ### Mint requests -/

structure MintRequest where
  tenantID : String
  elementID : String
  poolName : String := ""
  region : String := ""
  idleTimeoutSeconds : ℤ := 0
  signalingSessionID : String := ""
  signalingURL : String := ""
  signalingToken : String := ""
  iceServers : String := ""
  iceTransportPolicy : String := ""
deriving DecidableEq

/-! ### BrowserSession -/

inductive SessionPhase
  | unset | pending | warming | ready | draining | ended
  /-- any other text -/
  | unknown
deriving DecidableEq

structure BrowserSessionSpec where
  tenantID : String
  poolName : String
  region : String
  idleTimeoutSeconds : ℤ
deriving DecidableEq

structure SessionConnection where
  signalingURL : String
  podName : String
  podIP : String
deriving DecidableEq

structure BrowserSessionStatus where
  phase : SessionPhase := .unset
  connection : Option SessionConnection := none
  lastActivityAt : Option ℕ := none
  startedAt : Option ℕ := none
  endedAt : Option ℕ := none
  endReason : String := ""
deriving DecidableEq

structure Annotations where
  brokerSessionID : String
  browserSignalingURL : String
  browserSignalingToken : String
  browserIceServers : String
  browserIceTransportPolicy : String
deriving DecidableEq

/-- `finalizer` says whether `SessionFinalizer` is present and `deleting` whether the
deletion timestamp is set. `minter` is a ghost: the request that last wrote the spec. -/
structure BrowserSession where
  uid : ℕ
  deleting : Bool := false
  finalizer : Bool := false
  annotations : Annotations
  spec : BrowserSessionSpec
  status : BrowserSessionStatus := {}
  minter : MintRequest
deriving DecidableEq

def BrowserSession.idleTimeout (sess : BrowserSession) : ℕ :=
  if sess.spec.idleTimeoutSeconds ≤ 0 then 600 * second
  else sess.spec.idleTimeoutSeconds.toNat * second

/-- The schema of the custom resource: the pattern and length of the tenant id and the
least idle timeout. -/
def BrowserSessionSpec.valid (spec : BrowserSessionSpec) : Bool :=
  decide (spec.tenantID.length ≤ 64)
    && spec.tenantID.toList.all (fun c => c.isAlphanum || c == '_' || c == '-')
    && decide (30 ≤ spec.idleTimeoutSeconds)

/-! ### Pods and pools -/

inductive PodState
  | warm | assigned | draining
deriving DecidableEq

/-- `origin` is a ghost: the uid of the session the value was injected from, if any. -/
structure EnvVar where
  name : String
  value : String
  origin : Option ℕ
deriving DecidableEq

structure Container where
  name : String
  env : List EnvVar
deriving DecidableEq

inductive OwnerKind
  | browserSession | browserSessionPool
deriving DecidableEq

structure OwnerRef where
  kind : OwnerKind
  name : String
deriving DecidableEq

/-- Its `chromeless.session/` and region labels, the session-id annotation, its controller
reference, its containers and what the kubelet reports. -/
structure Pod where
  state : PodState
  owner : Option String
  pool : String
  tenant : Option String
  region : String
  sessionID : Option ℕ
  controller : Option OwnerRef
  containers : List Container
  terminating : Bool := false
  ready : Bool := false
  ip : String := ""
  created : ℕ
deriving DecidableEq

def Pod.Carries (pod : Pod) (uid : ℕ) : Prop :=
  ∃ c ∈ pod.containers, ∃ v ∈ c.env, v.origin = some uid

instance (pod : Pod) (uid : ℕ) : Decidable (pod.Carries uid) :=
  inferInstanceAs (Decidable (∃ c ∈ pod.containers, ∃ v ∈ c.env, v.origin = some uid))

inductive PoolRecyclePolicy
  | unset | recreatePod | scrubAndReturn
deriving DecidableEq

structure TemplateContainer where
  name : String
  env : List (String × String)
deriving DecidableEq

structure BrowserSessionPoolStatus where
  warm : ℕ := 0
  active : ℕ := 0
  draining : ℕ := 0
  totalEverProvisioned : ℕ := 0
  lastReplenishedAt : Option ℕ := none
deriving DecidableEq

structure BrowserSessionPool where
  warmReplicas : ℕ
  maxSessions : ℕ := 0
  maxAgeSeconds : ℤ := 3600
  recyclePolicy : PoolRecyclePolicy := .recreatePod
  region : String := ""
  containers : List TemplateContainer
  status : BrowserSessionPoolStatus := {}
deriving DecidableEq

def BrowserSessionPool.maxAge (pool : BrowserSessionPool) : ℕ :=
  if pool.maxAgeSeconds ≤ 0 then 3600 * second else pool.maxAgeSeconds.toNat * second

/-- `scrubExec` says whether a Pod-exec client could be built; `nativeSignalingEndpoint` is the host
and TLS flag of a signaling URL. -/
structure Config where
  namespace_ : String := "chromeless"
  defaultPool : String := "default-pool"
  scrubExec : Bool := true
  nativeSignalingEndpoint : String → Option (String × String) := fun _ => none

section
variable (cfg : Config) (name : String) (sess : BrowserSession)

def anonymousTenant : String := "_anonymous"

def signalingURLForSession : String :=
  if sess.annotations.browserSignalingURL ≠ "" then sess.annotations.browserSignalingURL
  else "ws://signaling." ++ cfg.namespace_ ++ ".svc.cluster.local:8080/ws/" ++ name

def brokerSessionIDForSession : String :=
  if sess.annotations.brokerSessionID ≠ "" then sess.annotations.brokerSessionID else name

/-! ### The environment of a cold-started Pod -/

def upsertEnv (uid : ℕ) : List EnvVar → String × String → List EnvVar
  | [], (key, value) => [⟨key, value, some uid⟩]
  | v :: env, (key, value) =>
    if v.name = key then ⟨key, value, some uid⟩ :: env else v :: upsertEnv uid env (key, value)

def assignedSessionEnv : List (String × String) :=
  let broker := brokerSessionIDForSession name sess
  let url := sess.annotations.browserSignalingURL
  let token := sess.annotations.browserSignalingToken
  let iceServers := sess.annotations.browserIceServers
  let policy := sess.annotations.browserIceTransportPolicy
  [("SESSION_ID", broker), ("WEBRTC_SIGNALING_SESSION_ID", broker)]
    ++ (if url ≠ "" then
          ("SIGNALING_URL", url) ::
            (match cfg.nativeSignalingEndpoint url with
              | some (host, tls) => [("WEBRTC_SIGNALING_HOST", host), ("WEBRTC_SIGNALING_TLS", tls)]
              | none => [])
        else [])
    ++ (if token ≠ "" then [("SIGNALING_TOKEN", token), ("WEBRTC_SIGNALING_TOKEN", token)]
        else [])
    ++ (if iceServers ≠ "" then [("WEBRTC_ICE_SERVERS", iceServers)] else [])
    ++ (if policy ≠ "" then [("WEBRTC_ICE_TRANSPORT_POLICY", policy)] else [])

/-- Only the first container named `chromeless` is changed. -/
def applyAssignedSessionEnv : List Container → List Container
  | [] => []
  | c :: cs =>
    if c.name = "chromeless" then
      { c with env := (assignedSessionEnv cfg name sess).foldl (upsertEnv sess.uid) c.env } :: cs
    else c :: applyAssignedSessionEnv cs

def BrowserSessionPool.templateContainers (pool : BrowserSessionPool) : List Container :=
  pool.containers.map fun c => ⟨c.name, c.env.map fun v => ⟨v.1, v.2, none⟩⟩

def createPodFromTemplate (poolName : String) (pool : BrowserSessionPool) (now : ℕ) : Pod where
  state := .assigned
  owner := some name
  pool := poolName
  tenant := none
  region := pool.region
  sessionID := none
  controller := some ⟨.browserSession, name⟩
  containers := applyAssignedSessionEnv cfg name sess pool.templateContainers
  created := stamp now

def createWarmPod (poolName : String) (pool : BrowserSessionPool) (now : ℕ) : Pod where
  state := .warm
  owner := none
  pool := poolName
  tenant := none
  region := pool.region
  sessionID := none
  controller := some ⟨.browserSessionPool, poolName⟩
  containers := pool.templateContainers
  created := stamp now

/-! ### Labelling a Pod -/

def applyPodAssignment (pod : Pod) : Pod :=
  { pod with
    state := .assigned
    owner := some name
    tenant := some (if sess.spec.tenantID = "" then anonymousTenant else sess.spec.tenantID)
    sessionID := some sess.uid }

/-- A Pod of the pool keeps its reference, any other Pod gets the session's, unless another
session's is there already. -/
def ownedBy (pod : Pod) : Option Pod :=
  match pod.controller with
  | none => some { pod with controller := some ⟨.browserSession, name⟩ }
  | some ref => if ref.kind = .browserSessionPool ∨ ref.name = name then some pod else none

def assignPod (pod : Pod) : Option Pod := ownedBy name (applyPodAssignment name sess pod)

def scrubbedPod (pod : Pod) : Pod :=
  { pod with
    state := .warm
    owner := none
    tenant := none
    sessionID := none
    controller := pod.controller.filter fun ref => ref.kind ≠ .browserSession }

def warmFor (poolName : String) (pod : Pod) : Bool :=
  pod.state = .warm && pod.pool = poolName && !pod.terminating
    && (sess.spec.region = "" || pod.region = sess.spec.region)
    && pod.ready
    && sess.annotations.browserSignalingURL = "" && sess.annotations.browserSignalingToken = ""

/-! ### Status updates -/

inductive StatusUpdate
  | pending
  | warming
  | ready (podName podIP : String) (now : ℕ)
  | activity (now : ℕ)
  | draining
  | ended (now : ℕ)
deriving DecidableEq

def StatusUpdate.status (latest : BrowserSession) : StatusUpdate → BrowserSessionStatus
  | .pending => { latest.status with phase := .pending }
  | .warming => { latest.status with phase := .warming }
  | .ready podName podIP now =>
    { latest.status with
      phase := .ready
      startedAt := latest.status.startedAt.or (some (stamp now))
      lastActivityAt := some (stamp now)
      connection := some ⟨signalingURLForSession cfg name latest, podName, podIP⟩ }
  | .activity now => { latest.status with lastActivityAt := some (stamp now) }
  | .draining => { latest.status with phase := .draining }
  | .ended now =>
    { latest.status with
      phase := .ended
      endedAt := some (stamp now)
      endReason := if latest.status.endReason = "" then "IdleTimeout" else latest.status.endReason
      connection := none }

def StatusUpdate.apply (m : StatusUpdate) (latest : BrowserSession) : BrowserSession :=
  { latest with status := m.status cfg name latest }

end

def BrowserSession.touched (sess : BrowserSession) (now : ℕ) : BrowserSession :=
  { sess with status := { sess.status with lastActivityAt := some (stamp now) } }

/-! ### Minting -/

def isSpace (c : Char) : Bool :=
  c.toNat ∈ [0x9, 0xa, 0xb, 0xc, 0xd, 0x20, 0x85, 0xa0, 0x1680, 0x2028, 0x2029, 0x202f, 0x205f,
    0x3000] || (0x2000 ≤ c.toNat && c.toNat ≤ 0x200a)

/-- `unicode.ToLower`, as far as a letter of `a` to `z` can come out of it. Any other character
stays outside the names. -/
def toLower (c : Char) : Char :=
  if c.toNat = 0x130 then 'i' else if c.toNat = 0x212a then 'k' else c.toLower

def validNameChar (c : Char) : Bool := c.isLower || c.isDigit || c == '-'

/-- Every run of other characters becomes one dash. `inRun` says that the character before belonged
to such a run. -/
def replaceInvalid (inRun : Bool) : List Char → List Char
  | [] => []
  | c :: cs =>
    if validNameChar c then c :: replaceInvalid false cs
    else if inRun then replaceInvalid true cs
    else '-' :: replaceInvalid true cs

def trimDashes (cs : List Char) : List Char :=
  (cs.dropWhile (· == '-')).rdropWhile (· == '-')

def sessionNameBase (elementID : List Char) : List Char :=
  let base := ((elementID.dropWhile isSpace).rdropWhile isSpace).map toLower
  let base := trimDashes (replaceInvalid false base)
  let base := if base = [] then "session".toList else base
  if base.length > 50 then trimDashes (base.take 50) else base

def sessionNameForElement (elementID : String) : String :=
  "tf-" ++ String.ofList (sessionNameBase elementID.toList)

def tenantForSpec (tenant : String) : String := if tenant = "" then anonymousTenant else tenant

section
variable (cfg : Config) (req : MintRequest)

def MintRequest.name : String := sessionNameForElement req.elementID

def MintRequest.spec : BrowserSessionSpec where
  tenantID := tenantForSpec req.tenantID
  poolName :=
    let pool := if req.poolName = "" then cfg.defaultPool else req.poolName
    if pool = "" then "default-pool" else pool
  region := req.region
  idleTimeoutSeconds := if req.idleTimeoutSeconds ≤ 0 then 600 else req.idleTimeoutSeconds

def MintRequest.annotations : Annotations where
  brokerSessionID := if req.signalingSessionID = "" then req.name else req.signalingSessionID
  browserSignalingURL := req.signalingURL
  browserSignalingToken := req.signalingToken
  browserIceServers := if req.iceServers = "null" then "" else req.iceServers
  browserIceTransportPolicy := req.iceTransportPolicy

/-- Annotations a request leaves empty keep what the session has. -/
def Annotations.merge (old desired : Annotations) : Annotations :=
  let pick (o d : String) := if d = "" then o else d
  { brokerSessionID := pick old.brokerSessionID desired.brokerSessionID
    browserSignalingURL := pick old.browserSignalingURL desired.browserSignalingURL
    browserSignalingToken := pick old.browserSignalingToken desired.browserSignalingToken
    browserIceServers := pick old.browserIceServers desired.browserIceServers
    browserIceTransportPolicy := pick old.browserIceTransportPolicy desired.browserIceTransportPolicy }

def MintRequest.session (uid : ℕ) : BrowserSession where
  uid := uid
  annotations := req.annotations
  spec := req.spec cfg
  minter := req

def MintRequest.rewrite (sess : BrowserSession) : BrowserSession :=
  { sess with
    annotations := sess.annotations.merge req.annotations
    spec := req.spec cfg
    minter := req }

def isTerminalSession (sess : BrowserSession) : Bool := sess.status.phase = .ended

def resetSessionForReuse (sess : BrowserSession) : BrowserSession :=
  { sess with status := { phase := .pending } }

end

end Chromeless.Controller
