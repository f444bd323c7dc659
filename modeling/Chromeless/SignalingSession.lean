import Chromeless.LibChannel
import Chromeless.SignalingEnvelope
import Chromeless.SignalingToken

/-! One session object of `signaling/server.go`: its two peer slots, its replay buffers,
and the operations that run under its mutex. -/
namespace Chromeless.Signaling
open Function Json List

/-- A connection, and with it the `peer` its handler allocates. -/
abbrev ConnId := ℕ

/-- An envelope's sender, type and place among all envelopes forwarded through the session object.
The broker does not record any of this. -/
structure Tag where
  src : ConnId
  typ : EnvType
  seq : ℕ
deriving DecidableEq

/-- What goes through a send channel. The broker's own advice carries no tag. -/
structure Msg where
  raw : Bytes
  tag : Option Tag
deriving DecidableEq

/-- `bufferedSDP` and `bufferedICE`, which have the same fields. -/
structure Buffered where
  raw : Bytes
  ts : Time
  tag : Tag
deriving DecidableEq

def Buffered.msg (e : Buffered) : Msg := ⟨e.raw, some e.tag⟩

/-- Its id and tenant are the key it is found under; `seq` counts the envelopes forwarded so far and
only feeds the tags. -/
structure Session where
  peers : Role → Option ConnId
  recent : Role → EnvType → Option Buffered
  recentICE : Role → List Buffered
  seq : ℕ

def sendBuffer : ℕ := 32

def iceReplayMaxPerSender : ℕ := 32

namespace Session

def new : Session := ⟨fun _ => none, fun _ _ => none, fun _ => [], 0⟩

def stale (maxAge now : Time) (e : Buffered) : Bool := maxAge < now - e.ts

/-- A stale entry is deleted, a fresh one goes to the channel, which drops it when full. The last
component counts what got through. -/
def replaySDP (maxAge now : Time) (acc : (EnvType → Option Buffered) × Chan Msg × ℕ)
    (typ : EnvType) : (EnvType → Option Buffered) × Chan Msg × ℕ :=
  let (buf, ch, replayed) := acc
  match buf typ with
  | none => acc
  | some e =>
    -- unlike a stale candidate, a stale SDP entry is deleted
    if stale maxAge now e then (update buf typ none, ch, replayed)
    else (buf, ch.push sendBuffer e.msg, if ch.queued < sendBuffer then replayed+1 else replayed)

/-- One entry of the ICE queue; stale ones are skipped and stay where they are. -/
def replayICE (maxAge now : Time) (acc : Chan Msg × ℕ) (e : Buffered) : Chan Msg × ℕ :=
  let (ch, replayed) := acc
  if stale maxAge now e then acc
  else (ch.push sendBuffer e.msg, if ch.queued < sendBuffer then replayed+1 else replayed)

/-- Refused when the role is taken; otherwise the counterpart's buffers are replayed into the peer's
channel, SDP first. -/
def register (maxAge now : Time) (s : Session) (p : ConnId) (role : Role) (send : Chan Msg) :
    Option (Session × Chan Msg × ℕ) :=
  match s.peers role with
  | some _ => none
  | none =>
    let (buf, ch, n) := replayableTypes.foldl (replaySDP maxAge now) (s.recent role.other, send, 0)
    -- candidates come after the descriptions they belong to
    let (ch, n) := (s.recentICE role.other).foldl (replayICE maxAge now) (ch, n)
    some ({ s with
      peers := update s.peers role (some p)
      recent := update s.recent role.other buf }, ch, n)

def unregister (s : Session) (p : ConnId) (role : Role) : Session :=
  if s.peers role = some p then { s with peers := update s.peers role none } else s

def discardReplay (s : Session) (roles : List Role) : Session :=
  { s with
    recent := fun r => if r ∈ roles then fun _ => none else s.recent r
    recentICE := fun r => if r ∈ roles then [] else s.recentICE r }

def pushICE (queue : List Buffered) (e : Buffered) : List Buffered :=
  (if iceReplayMaxPerSender ≤ queue.length then queue.tail else queue) ++ [e]

def forward (now : Time) (s : Session) (role : Role) (f : Frame) (src : ConnId) :
    Session × Option ConnId :=
  let e : Buffered := ⟨f.raw, now, ⟨src, f.typ, s.seq⟩⟩
  ({ s with
    recent :=
      if isReplayable f.typ then
        update s.recent role.other (update (s.recent role.other) f.typ (some e))
      else s.recent
    -- a hello frame or an end-of-candidates marker is forwarded and not kept
    recentICE :=
      if f.typ = .ice ∧ hasICEData f.raw = true then
        update s.recentICE role.other (pushICE (s.recentICE role.other) e)
      else s.recentICE
    seq := s.seq+1 }, s.peers role)

def freshSDP (maxAge now : Time) (buf : EnvType → Option Buffered) : List Buffered :=
  replayableTypes.filterMap fun typ => (buf typ).filter fun e => !stale maxAge now e

def due (maxAge now : Time) (s : Session) (role : Role) : List Buffered :=
  freshSDP maxAge now (s.recent role.other) ++ (s.recentICE role.other).filter fun e => !stale maxAge now e

def expire (maxAge now : Time) (buf : EnvType → Option Buffered) (typ : EnvType) :
    Option Buffered :=
  if typ ∈ replayableTypes then (buf typ).filter fun e => !stale maxAge now e else buf typ

def Holds (s : Session) (role : Role) (e : Buffered) : Prop :=
  (∃ typ ∈ replayableTypes, s.recent role typ = some e) ∨ e ∈ s.recentICE role

theorem push_count (ch : Chan Msg) (m : Msg) (n : ℕ) :
    (if ch.queued < sendBuffer then n+1 else n) + ch.log.length = n + (ch.push sendBuffer m).log.length := by
  rw [Chan.push_log]
  split
  · simp only [length_append, length_singleton]
    omega
  · rfl

section
variable (maxAge now : Time)

open Buffered

theorem foldl_replaySDP (typs : List EnvType) (hnd : typs.Nodup)
    (buf : EnvType → Option Buffered) (ch : Chan Msg) (n : ℕ) :
    let r := typs.foldl (replaySDP maxAge now) (buf, ch, n)
    let fresh := fun typ => (buf typ).filter fun e => !stale maxAge now e
    (∀ typ, r.1 typ = if typ ∈ typs then fresh typ else buf typ) ∧
      r.2.1 = ch.pushAll sendBuffer ((typs.filterMap fresh).map msg) ∧
      r.2.2 + ch.log.length = n + r.2.1.log.length := by
  induction typs generalizing buf ch n with
  | nil => simp
  | cons typ typs ih =>
    obtain ⟨hnot, hnd⟩ := nodup_cons.mp hnd
    cases hb : buf typ with
    | none =>
      have hstep : replaySDP maxAge now (buf, ch, n) typ = (buf, ch, n) := by simp [replaySDP, hb]
      obtain ⟨h1, h2, h3⟩ := ih hnd buf ch n
      simp only [foldl_cons, hstep]
      refine ⟨?_, ?_, h3⟩
      · intro t
        rw [h1]
        by_cases ht : t = typ
        · simp [ht, hnot, hb]
        · simp [ht]
      · rw [h2]
        simp [hb]
    | some e =>
      cases hs : stale maxAge now e with
      | true =>
        -- the deleted entry is not looked at again, since the types are distinct
        have hstep : replaySDP maxAge now (buf, ch, n) typ = (update buf typ none, ch, n) := by simp [replaySDP, hb, hs]
        obtain ⟨h1, h2, h3⟩ := ih hnd (update buf typ none) ch n
        simp only [foldl_cons, hstep]
        refine ⟨?_, ?_, h3⟩
        · intro t
          rw [h1]
          by_cases ht : t = typ
          · simp [ht, hnot, hb, hs, Option.filter]
          · simp [ht]
        · have hrest : typs.filterMap (fun t =>
              (update buf typ none t).filter fun e => !stale maxAge now e) =
              typs.filterMap fun t => (buf t).filter fun e => !stale maxAge now e := by
            apply filterMap_congr
            intro t ht
            have hne : t ≠ typ := fun h => hnot (h ▸ ht)
            simp [hne]
          rw [h2, hrest]
          simp [hb, hs, Option.filter]
      | false =>
        have hstep : replaySDP maxAge now (buf, ch, n) typ = (buf, ch.push sendBuffer e.msg,
            if ch.queued < sendBuffer then n+1 else n) := by simp [replaySDP, hb, hs]
        obtain ⟨h1, h2, h3⟩ := ih hnd buf (ch.push sendBuffer e.msg) (if ch.queued < sendBuffer then n+1 else n)
        have hcnt := push_count ch e.msg n
        simp only [foldl_cons, hstep]
        refine ⟨?_, ?_, by omega⟩
        · intro t
          rw [h1]
          by_cases ht : t = typ
          · simp [ht, hnot, hb, hs, Option.filter]
          · simp [ht]
        · rw [h2]
          simp [hb, hs, Option.filter]

theorem foldl_replayICE (queue : List Buffered) (ch : Chan Msg) (n : ℕ) :
    let r := queue.foldl (replayICE maxAge now) (ch, n)
    r.1 = ch.pushAll sendBuffer
        ((queue.filter fun e => !stale maxAge now e).map msg) ∧
      r.2 + ch.log.length = n + r.1.log.length := by
  induction queue generalizing ch n with
  | nil => simp
  | cons e queue ih =>
    cases hs : stale maxAge now e with
    | true =>
      have hstep : replayICE maxAge now (ch, n) e = (ch, n) := by simp [replayICE, hs]
      simpa [hstep, hs] using ih ch n
    | false =>
      have hstep : replayICE maxAge now (ch, n) e = (ch.push sendBuffer e.msg,
          if ch.queued < sendBuffer then n+1 else n) := by simp [replayICE, hs]
      obtain ⟨h1, h2⟩ := ih (ch.push sendBuffer e.msg) (if ch.queued < sendBuffer then n+1 else n)
      have hcnt := push_count ch e.msg n
      simp only [foldl_cons, hstep]
      refine ⟨?_, by omega⟩
      rw [h1]
      simp [hs]

theorem register_free (s : Session) (p : ConnId) (role : Role) (send : Chan Msg) (hfree : s.peers role = none) :
    let ch := send.pushAll sendBuffer ((s.due maxAge now role).map msg)
    register maxAge now s p role send = some ({ s with
      peers := update s.peers role (some p)
      recent := update s.recent role.other (expire maxAge now (s.recent role.other)) },
      ch, ch.log.length - send.log.length) := by
  obtain ⟨h1, h2, h3⟩ := foldl_replaySDP maxAge now replayableTypes (by decide) (s.recent role.other) send 0
  obtain ⟨h4, h5⟩ := foldl_replayICE maxAge now (s.recentICE role.other)
    (replayableTypes.foldl (replaySDP maxAge now) (s.recent role.other, send, 0)).2.1
    (replayableTypes.foldl (replaySDP maxAge now) (s.recent role.other, send, 0)).2.2
  have hbuf : (replayableTypes.foldl (replaySDP maxAge now) (s.recent role.other, send, 0)).1 =
      expire maxAge now (s.recent role.other) := by
    funext typ
    rw [h1]
    rfl
  have hch : ((s.recentICE role.other).foldl (replayICE maxAge now)
      ((replayableTypes.foldl (replaySDP maxAge now) (s.recent role.other, send, 0)).2.1,
        (replayableTypes.foldl (replaySDP maxAge now) (s.recent role.other, send, 0)).2.2)).1 =
      send.pushAll sendBuffer ((s.due maxAge now role).map msg) := by
    rw [h4, h2, due, freshSDP, map_append, Chan.pushAll_append]
  have hcnt : ((s.recentICE role.other).foldl (replayICE maxAge now)
      ((replayableTypes.foldl (replaySDP maxAge now) (s.recent role.other, send, 0)).2.1,
        (replayableTypes.foldl (replaySDP maxAge now) (s.recent role.other, send, 0)).2.2)).2 =
      (send.pushAll sendBuffer ((s.due maxAge now role).map msg)).log.length -
        send.log.length := by
    rw [hch] at h5
    omega
  simp [register, hfree, hbuf, hch, hcnt]

theorem register_taken (s : Session) (p q : ConnId) (role : Role)
    (send : Chan Msg) (h : s.peers role = some q) : register maxAge now s p role send = none := by
  simp [register, h]

end

end Session

end Chromeless.Signaling
