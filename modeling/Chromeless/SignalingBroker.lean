import Chromeless.LibRuns
import Chromeless.SignalingSession

/-! The signaling broker as a transition system: every connection is a goroutine of `wsHandler`, and
each step takes one lock, one channel operation or one frame. -/
namespace Chromeless.Signaling
open Function Json

def anonymousTenant : Bytes := ascii "_anonymous"

structure SessionKey where
  tenant : Bytes
  id : Bytes
deriving DecidableEq

/-- A session object: its key, and how many objects were made under that key before it. -/
structure SessRef where
  key : SessionKey
  gen : ℕ
deriving DecidableEq

structure Config where
  iceReplayMaxAge : Time
  auth : Option AuthConfig
  region : Bytes
  denylist : Bytes → Bytes → Except Bytes Bool

structure Dial where
  path : Bytes
  token : Bytes
  first : Bytes
deriving DecidableEq

def sessionID (path : Bytes) : Option Bytes :=
  let native := ascii "/api/webrtc/signaling/"
  let legacy := ascii "/ws/"
  let id :=
    if native.isPrefixOf path then path.drop native.length
    else if legacy.isPrefixOf path then path.drop legacy.length else path
  if id = [] ∨ 0x2f ∈ id then none else some id

/-- `wsHandler` up to the peer it allocates: the role and first frame, the token, and the key of the
session. -/
def accept (cfg : Config) (now : Time) (d : Dial) : Option (Role × SessionKey × Option Frame) :=
  match sessionID d.path, firstFrame d.first with
  | some id, some (role, f) =>
    -- the token is bound to a role, so it is looked at only after the first frame
    match cfg.auth with
    | none => some (role, ⟨anonymousTenant, id⟩, f)
    | some auth =>
      match verifyToken auth cfg.region now d.token id role.name with
      | .error _ => none
      -- a denylist that fails to answer lets the connection in
      | .ok c => if checkRevoked cfg.denylist c then none else some (role, ⟨c.sub, id⟩, f)
  | _, _ => none

inductive Site
  | first
  | later
  | cleanup
deriving DecidableEq

/-- Where a connection's goroutine stands. The names are the calls it makes next. -/
inductive Pc
  | idle
  | getOrCreate (first : Option Frame)
  | register (first : Option Frame)
  | rejected
  | recordRegistered (first : Option Frame)
  | peerPresent (first : Option Frame)
  | advise (first : Option Frame)
  | forward (site : Site) (f : Frame)
  | send (site : Site) (raw : Bytes) (tag : Tag) (target : ConnId)
  | reading
  | markNegotiated (f : Frame)
  | clearSaidBye (f : Frame)
  | clearByeReceived (f : Frame)
  | receivedBye (f : Frame)
  | discardBye (echo : Bool)
  | markSaidBye
  | unregister
  | didNegotiate
  | didReceiveBye (negotiated : Bool)
  | discardReplay (negotiated ended : Bool)
  | checkShutdown (negotiated ended : Bool)
  | didSayBye
  | recordUnregistered
  | dropIfEmpty
  | done
deriving DecidableEq

/-- What has happened so far, for stating properties of runs. Nothing reads it. -/
inductive Event
  | created (ref : SessRef)
  | dropped (ref : SessRef)
  | joined (c : ConnId)
  | left (c : ConnId)
  | sent (c : ConnId) (typ : EnvType)
  | recorded (c : ConnId)
  | forwarded (c : ConnId) (typ : EnvType) (target : Option ConnId)
  | delivered (c : ConnId) (typ : EnvType) (target : ConnId)
  | ended (c : ConnId)
deriving DecidableEq

/-- A connection with its `peer`. `replayed` is what `register` returned. -/
structure Conn where
  pc : Pc
  role : Role
  key : SessionKey
  gen : ℕ
  send : Chan Msg
  replayed : ℕ
  negotiated : Bool
  saidBye : Bool
  byeReceived : Bool

def Conn.ref (p : Conn) : SessRef := ⟨p.key, p.gen⟩

def Conn.new (role : Role) (key : SessionKey) (first : Option Frame) : Conn :=
  ⟨.getOrCreate first, role, key, 0, Chan.empty, 0, false, false, false⟩

def Conn.unused : Conn := { Conn.new .client ⟨[], []⟩ none with pc := .idle }

/-- The hub, every session object ever made, and every connection. -/
structure Broker where
  sessions : SessionKey → Option ℕ
  created : SessionKey → ℕ
  heap : SessRef → Session
  conns : ConnId → Conn
  shuttingDown : Bool
  log : List Event

def Broker.new : Broker :=
  ⟨fun _ => none, fun _ => 0, fun _ => Session.new, fun _ => Conn.unused, false, []⟩

/-- One move of the environment or of a connection, with the clock it reads. -/
inductive Act
  | dial (c : ConnId) (now : Time) (d : Dial)
  | frame (c : ConnId) (raw : Bytes)
  | close (c : ConnId)
  | recv (c : ConnId)
  | go (c : ConnId) (now : Time)
  | shutdown
deriving DecidableEq

namespace Broker

@[simps -fullyApplied]
def setConn (b : Broker) (c : ConnId) (p : Conn) : Broker :=
  { b with conns := update b.conns c p }

def goto (b : Broker) (c : ConnId) (pc : Pc) : Broker := b.setConn c { b.conns c with pc := pc }

@[simps -fullyApplied]
def setSess (b : Broker) (ref : SessRef) (s : Session) : Broker :=
  { b with heap := update b.heap ref s }

@[simps -fullyApplied]
def note (b : Broker) (e : Event) : Broker := { b with log := b.log ++ [e] }

def sess (b : Broker) (c : ConnId) : Session := b.heap (b.conns c).ref

def getOrCreate (b : Broker) (c : ConnId) (first : Option Frame) : Broker :=
  let p := b.conns c
  match b.sessions p.key with
  | some g => b.setConn c { p with gen := g, pc := .register first }
  | none =>
    -- the hub's lock is released after this, and nothing holds the object until `register`
    let g := b.created p.key
    let b := { b with
      sessions := update b.sessions p.key (some g)
      created := update b.created p.key (g+1)
      heap := update b.heap ⟨p.key, g⟩ Session.new }
    (b.setConn c { p with gen := g, pc := .register first }).note (.created ⟨p.key, g⟩)

def dropIfEmpty (b : Broker) (key : SessionKey) : Broker :=
  match b.sessions key with
  | none => b
  | some g =>
    if (b.heap ⟨key, g⟩).peers .client = none ∧ (b.heap ⟨key, g⟩).peers .browser = none then
      { b with sessions := update b.sessions key none }.note (.dropped ⟨key, g⟩)
    else b

def register (cfg : Config) (now : Time) (b : Broker) (c : ConnId) (first : Option Frame) :
    Broker :=
  let p := b.conns c
  match (b.sess c).register cfg.iceReplayMaxAge now c p.role p.send with
  | none => b.goto c .rejected
  | some (s, ch, n) =>
    ((b.setSess p.ref s).setConn c
      { p with send := ch, replayed := n, pc := .recordRegistered first }).note (.joined c)

def afterForward : Site → EnvType → Pc
  | .first, _ => .reading
  | .later, typ => if typ = .bye then .discardBye false else .reading
  | .cleanup, _ => .recordUnregistered

/-- A peer that a `bye` is on its way to is marked before the `bye` is sent. -/
def markTarget (b : Broker) (typ : EnvType) (t : ConnId) : Broker :=
  if typ = .bye then b.setConn t { b.conns t with byeReceived := true } else b

def forward (now : Time) (b : Broker) (c : ConnId) (site : Site) (f : Frame) : Broker :=
  let p := b.conns c
  let r := (b.sess c).forward now p.role.other f c
  let tag : Tag := ⟨c, f.typ, (b.sess c).seq⟩
  let b := (b.setSess p.ref r.1).note (.forwarded c f.typ r.2)
  match r.2 with
  | none => b.goto c (afterForward site f.typ)
  -- the target is fixed here; the channel send is a step of its own, outside the lock
  | some t => (b.markTarget f.typ t).goto c (.send site f.raw tag t)

def send (b : Broker) (c : ConnId) (site : Site) (raw : Bytes) (tag : Tag) (t : ConnId) :
    Broker :=
  let ch := (b.conns t).send
  let b := b.setConn t { b.conns t with send := ch.push sendBuffer ⟨raw, some tag⟩ }
  let b := if ch.queued < sendBuffer then b.note (.delivered c tag.typ t) else b
  b.goto c (afterForward site tag.typ)

def forwardFirst : Option Frame → Pc
  | none => .reading
  | some f => .forward .first f

/-- The frame of a peer that has none to send, in the broker's own words. -/
def synthesised (typ : Bytes) (role : Role) : Bytes := marshal typ role none

/-- The steps that only move the connection itself and its peer's flags on. `none` where the step
does more. -/
def localStep (b : Broker) (p : Conn) : Option Conn :=
  match p.pc with
  | .recordRegistered first => some { p with pc := .peerPresent first }
  | .peerPresent first =>
    if (b.heap p.ref).peers p.role.other = none then some { p with pc := .advise first }
    else some { p with pc := forwardFirst first }
  -- what an offer or answer does to the flags takes the lock three times
  | .markNegotiated f => some { p with negotiated := true, pc := .clearSaidBye f }
  | .clearSaidBye f => some { p with saidBye := false, pc := .clearByeReceived f }
  | .receivedBye f =>
    -- an echo is neither forwarded nor allowed to void the counterpart's buffer
    if p.byeReceived then some { p with pc := .discardBye true }
    else some { p with pc := .forward .later f }
  -- a `bye` ends the session and not the socket
  | .markSaidBye => some { p with saidBye := true, pc := .reading }
  -- the cleanup works with what it has read of the flags, not with the flags
  | .didNegotiate => some { p with pc := .didReceiveBye p.negotiated }
  | .didReceiveBye negotiated => some { p with pc := .discardReplay negotiated p.byeReceived }
  | .checkShutdown negotiated ended =>
    -- when the broker goes down every socket closes, and no peer has left
    if b.shuttingDown then some { p with pc := .recordUnregistered }
    else if negotiated && !ended then some { p with pc := .didSayBye }
    else some { p with pc := .recordUnregistered }
  | .didSayBye =>
    if p.saidBye then some { p with pc := .recordUnregistered }
    else some { p with pc := .forward .cleanup ⟨.bye, synthesised (ascii "bye") p.role⟩ }
  | .recordUnregistered => some { p with pc := .dropIfEmpty }
  | _ => none

/-- The steps on the hub, on a session's slots and buffers, and on send channels. -/
def sharedStep (cfg : Config) (now : Time) (b : Broker) (c : ConnId) : Broker :=
  let p := b.conns c
  match p.pc with
  | .getOrCreate first => b.getOrCreate c first
  | .register first => b.register cfg now c first
  -- a handler whose role is taken reaps the session like one that leaves it
  | .rejected => (b.dropIfEmpty p.key).goto c .done
  | .advise first =>
    b.setConn c { p with
      send := p.send.push sendBuffer ⟨synthesised (ascii "peer_absent") p.role, none⟩
      pc := forwardFirst first }
  | .forward site f => b.forward now c site f
  | .send site raw tag t => b.send c site raw tag t
  | .clearByeReceived f => (b.setConn c { p with byeReceived := false, pc := .forward .later f }).note (.recorded c)
  -- an echo voids the sender's buffer, any other `bye` both
  | .discardBye echo =>
    ((b.setSess p.ref ((b.sess c).discardReplay
      (if echo then [p.role] else [.client, .browser]))).goto c .markSaidBye).note (.ended c)
  | .unregister => ((b.setSess p.ref ((b.sess c).unregister c p.role)).goto c .didNegotiate).note (.left c)
  -- the buffer is picked by role, whoever holds the slot by now
  | .discardReplay negotiated ended =>
    (b.setSess p.ref ((b.sess c).discardReplay
      (p.role :: if negotiated && !ended then [p.role.other] else []))).goto c (.checkShutdown negotiated ended)
  | .dropIfEmpty => (b.dropIfEmpty p.key).goto c .done
  | _ => b

def advance (cfg : Config) (now : Time) (b : Broker) (c : ConnId) : Broker :=
  match localStep b (b.conns c) with
  | some p => b.setConn c p
  | none => b.sharedStep cfg now c

def handle (f : Frame) : Pc :=
  match f.typ with
  | .offer | .answer => .markNegotiated f
  | .bye => .receivedBye f
  -- nothing else touches a flag
  | .ice | .requestRenegotiate | .probeResult => .forward .later f

/-- The write pump runs once the first frame has been dealt with. -/
def pumping : Pc → Bool
  | .idle | .getOrCreate _ | .register _ | .rejected | .recordRegistered _ | .peerPresent _
  | .advise _ | .forward .first _ | .send .first _ _ _ => false
  | _ => true

def step (cfg : Config) (b : Broker) : Act → Broker
  | .dial c now d =>
    match (b.conns c).pc, accept cfg now d with
    | .idle, some (role, key, first) => b.setConn c (Conn.new role key first)
    | .idle, none => b.goto c .done
    | _, _ => b
  -- frames and the end of the socket are seen between two rounds of `readPump` only
  | .frame c raw =>
    match (b.conns c).pc, readFrame (b.conns c).role raw with
    | .reading, some f => (b.goto c (handle f)).note (.sent c f.typ)
    | _, _ => b
  | .close c => if (b.conns c).pc = .reading then b.goto c .unregister else b
  | .recv c =>
    if pumping (b.conns c).pc then
      b.setConn c { b.conns c with send := (b.conns c).send.pop }
    else b
  | .go c now => b.advance cfg now c
  | .shutdown => { b with shuttingDown := true }

end Broker

def runBroker (cfg : Config) (acts : List Act) : Broker := Runs.run (Broker.step cfg) Broker.new acts

section

def openConfig : Config := ⟨300000000000, none, regionUnspecified, fun _ _ => .ok false⟩

def hello (role : Role) : Bytes := marshal (ascii "ice") role none

def gos (c : ConnId) (n : ℕ) : List Act := List.replicate n (.go c 0)

def dials (c : ConnId) (role : Role) : Act := .dial c 0 ⟨ascii "/ws/demo", [], hello role⟩

/-- A connection dials `/ws/demo` with a hello frame and gets as far as reading. -/
def joins (c : ConnId) (role : Role) : List Act := dials c role :: gos c 8

/-- A connection sends a frame without data, which the broker works off. -/
def speaks (c : ConnId) (typ : EnvType) (role : Role) : List Act :=
  .frame c (marshal typ.name role none) :: gos c 8

def demo : SessionKey := ⟨anonymousTenant, ascii "demo"⟩

end

end Chromeless.Signaling
