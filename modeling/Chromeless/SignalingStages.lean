import Chromeless.SignalingMoves

/-! How far a connection has come, and the moves that leave it there. Most steps of a
handler stay within one stage of its life. -/
namespace Chromeless.Signaling
open Json

inductive Stage
  | fresh
  | joining
  | joined
  | leaving
  | done
deriving DecidableEq

def Site.stage : Site → Stage
  | .first | .later => .joined
  | .cleanup => .leaving

def Pc.stage : Pc → Stage
  | .idle | .getOrCreate _ => .fresh
  | .register _ => .joining
  | .recordRegistered _ | .peerPresent _ | .advise _ | .reading | .markNegotiated _
  | .clearSaidBye _ | .clearByeReceived _ | .receivedBye _ | .discardBye _ | .markSaidBye
  | .unregister => .joined
  | .forward site _ => site.stage
  | .send site _ _ _ => site.stage
  | .rejected | .didNegotiate | .didReceiveBye _ | .discardReplay _ _ | .checkShutdown _ _
  | .didSayBye | .recordUnregistered | .dropIfEmpty => .leaving
  | .done => .done

def Stage.early (s : Stage) : Prop := s = .fresh ∨ s = .joining

theorem Site.stage_not_early (site : Site) : ¬ site.stage.early := by
  cases site <;> simp [Site.stage, Stage.early]

namespace Broker

theorem forwardFirst_stage (first : Option Frame) : (forwardFirst first).stage = .joined := by
  cases first <;> rfl

theorem handle_stage (f : Frame) : (handle f).stage = .joined := by
  unfold handle
  split <;> rfl

theorem afterForward_stage (site : Site) (typ : EnvType) :
    (afterForward site typ).stage = site.stage := by
  fun_cases afterForward <;> rfl

structure Alike (p q : Conn) : Prop where
  role : q.role = p.role
  key : q.key = p.key
  gen : q.gen = p.gen
  stage : q.pc.stage = p.pc.stage
  send : p.pc.stage.early → q.send = p.send
  target : ∀ site raw tag t, q.pc = .send site raw tag t → p.pc = .send site raw tag t

theorem Alike.refl (p : Conn) : Alike p p :=
  ⟨rfl, rfl, rfl, rfl, fun _ => rfl, fun _ _ _ _ h => h⟩

theorem Alike.trans {p q r : Conn} (h : Alike p q) (h' : Alike q r) : Alike p r := by
  refine ⟨h'.role.trans h.role, h'.key.trans h.key, h'.gen.trans h.gen, h'.stage.trans h.stage, ?_, ?_⟩
  · intro he
    rw [h'.send (h.stage ▸ he), h.send he]
  · intro site raw tag t ht
    exact h.target _ _ _ _ (h'.target _ _ _ _ ht)

theorem Alike.ref {p q : Conn} (h : Alike p q) : q.ref = p.ref := by
  rw [Conn.ref, Conn.ref, h.key, h.gen]

theorem Alike.goto {p : Conn} {pc : Pc} (hstg : pc.stage = p.pc.stage)
    (hsend : ∀ site raw tag t, pc ≠ .send site raw tag t) : Alike p { p with pc := pc } :=
  ⟨rfl, rfl, rfl, hstg, fun _ => rfl, fun _ _ _ _ h => absurd h (hsend _ _ _ _)⟩

theorem Alike.update {f g : ConnId → Conn} (h : ∀ d, Alike (f d) (g d)) {c : ConnId} {p : Conn}
    (hp : Alike (g c) p) (d : ConnId) : Alike (f d) (Function.update g c p d) :=
  (Function.forall_update_iff g fun d => Alike (f d)).mpr ⟨(h c).trans hp, fun d _ => h d⟩ d

theorem afterForward_ne_send (site : Site) (typ : EnvType) :
    ∀ s raw tag t, afterForward site typ ≠ .send s raw tag t := by
  fun_cases afterForward <;> simp

theorem forwardFirst_ne_send (first : Option Frame) :
    ∀ s raw tag t, forwardFirst first ≠ .send s raw tag t := by
  cases first <;> simp [forwardFirst]

theorem handle_ne_send (f : Frame) : ∀ s raw tag t, handle f ≠ .send s raw tag t := by
  unfold handle
  split <;> simp

theorem LocalMove.alike {b : Broker} {p q : Conn} (h : LocalMove b p q) : Alike p q := by
  cases h with
  | peerPresent hpc =>
    apply Alike.goto
    · rw [hpc, forwardFirst_stage]
      rfl
    · exact forwardFirst_ne_send _
  | _ hpc =>
    refine ⟨rfl, rfl, rfl, ?_, fun _ => rfl, ?_⟩
    · rw [hpc]
      rfl
    · intro site raw tag t h
      cases h

theorem Alike.byeReceived (p : Conn) (v : Bool) : Alike p { p with byeReceived := v } :=
  ⟨rfl, rfl, rfl, rfl, fun _ => rfl, fun _ _ _ _ h => h⟩

end Broker

end Chromeless.Signaling
