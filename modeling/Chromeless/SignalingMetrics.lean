import Chromeless.SignalingBroker
import Mathlib.Data.Finset.Card

/-! The tenant labels and gauges of `signaling/metrics.go`, over the broker. `labelTenant` looks
under the read lock and decides under the write lock. -/
namespace Chromeless.Signaling
open Function Json

def tenantLabelCap : ℕ := 100

def tenantOverflow : Bytes := ascii "_other"

/-- A call of a record function. Those for sessions are given the tenant of the key alone. -/
inductive Record
  | sessionCreated (key : SessionKey)
  | sessionDropped (key : SessionKey)
  | peerRegistered (role : Role) (tenant : Bytes)
  | peerUnregistered (role : Role) (tenant : Bytes)
deriving DecidableEq

def Record.tenant : Record → Bytes
  | .sessionCreated key => key.tenant
  | .sessionDropped key => key.tenant
  | .peerRegistered _ tenant => tenant
  | .peerUnregistered _ tenant => tenant

def Record.underHub : Record → Bool
  | .sessionCreated _ | .sessionDropped _ => true
  | .peerRegistered _ _ | .peerUnregistered _ _ => false

/-- Whether a session was in the hub before the change that is being recorded. -/
def Record.before (r : Record) (k : SessionKey) (now : Bool) : Bool :=
  match r with
  | .sessionCreated key => k ≠ key && now
  | .sessionDropped key => k = key || now
  | .peerRegistered _ _ | .peerUnregistered _ _ => now

/-- Where `labelTenant` stands: at one of its two critical sections, or returned. -/
inductive Labelling
  | rlock
  | lock
  | labelled (label : Bytes)
deriving DecidableEq

/-- The state behind the metrics. `labels` are the results of `labelTenant` so far, each with
its argument; nothing reads them. -/
structure Metrics where
  seenTenants : Finset Bytes
  sessionsTotal : Bytes → ℕ
  activeSessions : Bytes → ℤ
  activeConnections : Role × Bytes → ℤ
  labels : List (Bytes × Bytes)

namespace Metrics

def new : Metrics := ⟨∅, fun _ => 0, fun _ => 0, fun _ => 0, []⟩

def produce (M : Metrics) (t label : Bytes) : Metrics × Labelling :=
  ({ M with labels := M.labels ++ [(t, label)] }, .labelled label)

def enter (M : Metrics) (t : Bytes) : Metrics × Labelling :=
  if t = anonymousTenant then M.produce t t else (M, .rlock)

def label (M : Metrics) (t : Bytes) : Labelling → Metrics × Labelling
  | .rlock => if t ∈ M.seenTenants then M.produce t t else (M, .lock)
  | .lock =>
    -- another connection may have come first in between
    if t ∈ M.seenTenants then M.produce t t
    else if tenantLabelCap ≤ M.seenTenants.card then M.produce t tenantOverflow
    else { M with seenTenants := insert t M.seenTenants }.produce t t
  | .labelled l => (M, .labelled l)

def count (M : Metrics) (label : Bytes) : Record → Metrics
  | .sessionCreated _ => { M with
      sessionsTotal := update M.sessionsTotal label (M.sessionsTotal label + 1)
      activeSessions := update M.activeSessions label (M.activeSessions label + 1) }
  | .sessionDropped _ => { M with
      activeSessions := update M.activeSessions label (M.activeSessions label - 1) }
  | .peerRegistered role _ => { M with
      activeConnections := update M.activeConnections (role, label) (M.activeConnections (role, label) + 1) }
  | .peerUnregistered role _ => { M with
      activeConnections := update M.activeConnections (role, label) (M.activeConnections (role, label) - 1) }

end Metrics

structure Call where
  record : Record
  next : Labelling
deriving DecidableEq

/-- The broker with its metrics. `hub` is the connection that holds the hub's mutex while it
records a session. -/
structure Metered where
  broker : Broker
  metrics : Metrics
  calls : ConnId → Option Call
  hub : Option ConnId

namespace Metered

def new : Metered := ⟨Broker.new, Metrics.new, fun _ => none, none⟩

def call (m : Metered) (c : ConnId) (r : Record) : Metered :=
  { m with
    metrics := (m.metrics.enter r.tenant).1
    calls := update m.calls c (some ⟨r, (m.metrics.enter r.tenant).2⟩)
    hub := if r.underHub then some c else m.hub }

def go (cfg : Config) (now : Time) (m : Metered) (c : ConnId) : Metered :=
  let p := m.broker.conns c
  let moved := { m with broker := m.broker.step cfg (.go c now) }
  match p.pc with
  | .getOrCreate _ =>
    if m.hub.isSome then m
    else if m.broker.sessions p.key = none then moved.call c (.sessionCreated p.key)
    else moved
  | .rejected | .dropIfEmpty =>
    if m.hub.isSome then m
    else if moved.broker.sessions p.key ≠ m.broker.sessions p.key then
      moved.call c (.sessionDropped p.key)
    else moved
  | .recordRegistered _ => m.call c (.peerRegistered p.role p.key.tenant)
  | .recordUnregistered => m.call c (.peerUnregistered p.role p.key.tenant)
  | _ => moved

def record (cfg : Config) (now : Time) (m : Metered) (c : ConnId) (f : Call) : Metered :=
  match f.next with
  | .labelled label =>
    let m := { m with
      metrics := m.metrics.count label f.record, calls := update m.calls c none }
    if f.record.underHub then { m with hub := none }
    else { m with broker := m.broker.step cfg (.go c now) }
  | next => { m with
      metrics := (m.metrics.label f.record.tenant next).1
      calls := update m.calls c (some ⟨f.record, (m.metrics.label f.record.tenant next).2⟩) }

def step (cfg : Config) (m : Metered) : Act → Metered
  | .go c now =>
    match m.calls c with
    | some f => m.record cfg now c f
    | none => m.go cfg now c
  | a => { m with broker := m.broker.step cfg a }

/-- The entries of `hub.sessions` as they are for everybody but the holder of the hub's mutex. -/
def entry (m : Metered) (k : SessionKey) : Bool :=
  match m.hub.bind m.calls with
  | some f => f.record.before k (m.broker.sessions k).isSome
  | none => (m.broker.sessions k).isSome

end Metered

def Pc.counted : Pc → Bool
  | .idle | .getOrCreate _ | .register _ | .rejected | .recordRegistered _ => false
  | .dropIfEmpty | .done => false
  | _ => true

def runMetered (cfg : Config) (acts : List Act) : Metered :=
  Runs.run (Metered.step cfg) Metered.new acts

end Chromeless.Signaling
