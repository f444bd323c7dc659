import Chromeless.SignalingStages

/-! The shape of every reachable broker. -/
namespace Chromeless.Signaling
open Function Json
open Pc (stage)
open Stage (early)

namespace Broker

structure Wf (b : Broker) : Prop where
  slot : ∀ ref role c, (b.heap ref).peers role = some c →
    (b.conns c).ref = ref ∧ (b.conns c).role = role ∧ (b.conns c).pc.stage = .joined
  joined : ∀ c, (b.conns c).pc.stage = .joined → (b.sess c).peers (b.conns c).role = some c
  target : ∀ c site raw tag t, (b.conns c).pc = .send site raw tag t →
    (b.conns t).ref = (b.conns c).ref ∧ (b.conns t).role = (b.conns c).role.other ∧ ¬ (b.conns t).pc.stage.early
  unsent : ∀ c, (b.conns c).pc.stage.early → (b.conns c).send = Chan.empty
  made : ∀ c, (b.conns c).pc.stage ≠ .fresh → (b.conns c).pc.stage ≠ .done → (b.conns c).gen < b.created (b.conns c).key
  current : ∀ k g, b.sessions k = some g → g < b.created k
  unmade : ∀ ref : SessRef, b.created ref.key ≤ ref.gen → b.heap ref = Session.new

theorem wf_new : Wf Broker.new where
  slot := nofun
  joined := nofun
  target := nofun
  unsent := fun _ _ => rfl
  made := fun _ h => absurd rfl h
  current := nofun
  unmade := fun _ _ => rfl

variable {b b' : Broker} {c t : ConnId} {p : Conn} {s : Session} {cfg : Config} {a : Act}

section
variable (h : Wf b)
include h

theorem Wf.of_alike (hsess : b'.sessions = b.sessions)
    (hcreat : b'.created = b.created) (hpeers : ∀ ref, (b'.heap ref).peers = (b.heap ref).peers)
    (hheap : ∀ ref : SessRef, b.created ref.key ≤ ref.gen → b'.heap ref = b.heap ref)
    (hcs : ∀ c, Alike (b.conns c) (b'.conns c)) : Wf b' where
  slot := by
    intro ref role c hc
    rw [hpeers] at hc
    rw [(hcs c).ref, (hcs c).role, (hcs c).stage]
    exact h.slot ref role c hc
  joined := by
    intro c hc
    rw [(hcs c).stage] at hc
    rw [sess, (hcs c).ref, (hcs c).role, hpeers]
    exact h.joined c hc
  target := by
    intro c site raw tag t hc
    have hold := h.target c site raw tag t ((hcs c).target _ _ _ _ hc)
    rwa [(hcs c).ref, (hcs c).role, (hcs t).ref, (hcs t).role, (hcs t).stage]
  unsent := by
    intro c hc
    rw [(hcs c).stage] at hc
    rw [(hcs c).send hc]
    exact h.unsent c hc
  made := by
    intro c h1 h2
    rw [(hcs c).stage] at h1 h2
    rw [hcreat, (hcs c).key, (hcs c).gen]
    exact h.made c h1 h2
  current := by
    intro k g hk
    rw [hsess] at hk
    rw [hcreat]
    exact h.current k g hk
  unmade := by
    intro ref hr
    rw [hcreat] at hr
    rw [hheap ref hr]
    exact h.unmade ref hr

/-- What has to be shown when one connection changes, and the slots with it. -/
theorem Wf.of_conn {heap : SessRef → Session} (hslot : ∀ ref role d, (heap ref).peers role = some d →
      d = c ∧ p.ref = ref ∧ p.role = role ∧ p.pc.stage = .joined ∨ d ≠ c ∧ (b.heap ref).peers role = some d)
    (hkeep : ∀ ref role d, d ≠ c → (b.heap ref).peers role = some d → (heap ref).peers role = some d)
    (hjoin : p.pc.stage = .joined → (heap p.ref).peers p.role = some c)
    (hsend : ∀ site raw tag t, p.pc = .send site raw tag t → t ≠ c ∧ (b.conns t).ref = p.ref ∧
      (b.conns t).role = p.role.other ∧ ¬ (b.conns t).pc.stage.early)
    (hlate : ¬ (b.conns c).pc.stage.early →
      p.ref = (b.conns c).ref ∧ p.role = (b.conns c).role ∧ ¬ p.pc.stage.early)
    (hemp : p.pc.stage.early → p.send = Chan.empty)
    (hmade : p.pc.stage ≠ .fresh → p.pc.stage ≠ .done → p.gen < b.created p.key)
    (hnew : ∀ ref : SessRef, b.created ref.key ≤ ref.gen → heap ref = Session.new) :
    Wf ({ b with heap := heap }.setConn c p) where
  slot := by
    intro ref role d hd
    rw [setConn_conns]
    obtain ⟨rfl, hd⟩ | ⟨hdc, hd⟩ := hslot ref role d hd
    · rwa [update_self]
    · rw [update_of_ne hdc]
      exact h.slot ref role d hd
  joined := (forall_update_iff b.conns fun d p => p.pc.stage = .joined → (heap p.ref).peers p.role = some d).mpr
    ⟨hjoin, fun d hdc hd => hkeep _ _ _ hdc (h.joined d hd)⟩
  target := by
    intro d site raw tag t hd
    rw [setConn_conns] at hd ⊢
    by_cases hdc : d = c
    · subst hdc
      rw [update_self] at hd ⊢
      obtain ⟨htc, ht⟩ := hsend site raw tag t hd
      rwa [update_of_ne htc]
    rw [update_of_ne hdc] at hd ⊢
    have ht := h.target d site raw tag t hd
    by_cases htc : t = c
    · subst htc
      obtain ⟨hr, hrole, hear⟩ := hlate ht.2.2
      rw [update_self, hr, hrole]
      exact ⟨ht.1, ht.2.1, hear⟩
    · rwa [update_of_ne htc]
  unsent := (forall_update_iff b.conns fun _ p => p.pc.stage.early → p.send = Chan.empty).mpr ⟨hemp, fun d _ => h.unsent d⟩
  made := (forall_update_iff b.conns fun _ p => p.pc.stage ≠ .fresh → p.pc.stage ≠ .done → p.gen < b.created p.key).mpr
    ⟨hmade, fun d _ => h.made d⟩
  current := h.current
  unmade := hnew

theorem Wf.of_unregistered (hold : (b.conns c).pc.stage ≠ .joined) (hnew : p.pc.stage ≠ .joined)
    (hsend : ∀ site raw tag t, p.pc ≠ .send site raw tag t) (hlate : ¬ (b.conns c).pc.stage.early →
      p.ref = (b.conns c).ref ∧ p.role = (b.conns c).role ∧ ¬ p.pc.stage.early)
    (hemp : p.pc.stage.early → p.send = Chan.empty)
    (hmade : p.pc.stage ≠ .fresh → p.pc.stage ≠ .done → p.gen < b.created p.key) :
    Wf (b.setConn c p) := by
  refine h.of_conn ?_ (fun _ _ _ _ => id) (absurd · hnew) (fun _ _ _ _ hpc => absurd hpc (hsend _ _ _ _)) hlate
    hemp hmade h.unmade
  intro ref role d hd
  refine .inr ⟨?_, hd⟩
  rintro rfl
  exact hold (h.slot ref role d hd).2.2

theorem Wf.create (k : SessionKey) :
    Wf { b with
      sessions := update b.sessions k (some (b.created k))
      created := update b.created k (b.created k + 1)
      heap := update b.heap ⟨k, b.created k⟩ Session.new } := by
  have hheap : update b.heap ⟨k, b.created k⟩ Session.new = b.heap := by
    rw [← h.unmade ⟨k, b.created k⟩ (Nat.le_refl _), update_eq_self]
  have hgrow : ∀ k', b.created k' ≤ update b.created k (b.created k + 1) k' := by
    intro k'
    by_cases hk : k' = k
    · subst hk
      rw [update_self]
      omega
    · rw [update_of_ne hk]
  rw [hheap]
  refine ⟨h.slot, h.joined, h.target, h.unsent, ?_, ?_, ?_⟩
  · intro c h1 h2
    exact Nat.lt_of_lt_of_le (h.made c h1 h2) (hgrow _)
  · intro k' g hg
    by_cases hk : k' = k
    · subst hk
      simp only [update_self, Option.some.injEq] at hg ⊢
      omega
    · simp only [update_of_ne hk] at hg ⊢
      exact h.current k' g hg
  · intro ref hr
    exact h.unmade ref (Nat.le_trans (hgrow _) hr)

theorem Wf.reap (k : SessionKey) :
    Wf { b with sessions := update b.sessions k none } :=
  ⟨h.slot, h.joined, h.target, h.unsent, h.made,
    (forall_update_iff b.sessions fun k o => ∀ g, o = some g → g < b.created k).mpr ⟨nofun, fun k _ => h.current k⟩,
    h.unmade⟩

theorem Wf.note (e : Event) : Wf (b.note e) :=
  ⟨h.slot, h.joined, h.target, h.unsent, h.made, h.current, h.unmade⟩

theorem Wf.of_slot (hmine : ∀ d, (b.sess c).peers (b.conns c).role = some d → d = c)
    (hs : s.peers = update (b.sess c).peers (b.conns c).role (if p.pc.stage = .joined then some c else none))
    (hrole : p.role = (b.conns c).role) (hkey : p.key = (b.conns c).key) (hgen : p.gen = (b.conns c).gen)
    (hlt : (b.conns c).gen < b.created (b.conns c).key) (hlate : ¬ p.pc.stage.early)
    (hsend : ∀ site raw tag t, p.pc ≠ .send site raw tag t) :
    Wf ((b.setSess (b.conns c).ref s).setConn c p) := by
  have href : p.ref = (b.conns c).ref := by rw [Conn.ref, hkey, hgen, Conn.ref]
  refine h.of_conn ?_ ?_ ?_ (fun _ _ _ _ hpc => absurd hpc (hsend _ _ _ _)) (fun _ => ⟨href, hrole, hlate⟩)
    (absurd · hlate) (fun _ _ => by rwa [hkey, hgen]) ?_
  · -- a slot of the new heap is the one at hand or held by somebody else as before
    intro ref role d hd
    by_cases hr : ref = (b.conns c).ref
    · rw [hr, update_self, hs] at hd
      by_cases hro : role = (b.conns c).role
      · rw [hro, update_self] at hd
        split at hd
        next hj => exact .inl ⟨(Option.some.inj hd).symm, href.trans hr.symm, hrole.trans hro.symm, hj⟩
        · cases hd
      rw [update_of_ne hro, sess, ← hr] at hd
      refine .inr ⟨?_, hd⟩
      rintro rfl
      exact hro (h.slot ref role d hd).2.1.symm
    · rw [update_of_ne hr] at hd
      refine .inr ⟨?_, hd⟩
      rintro rfl
      exact hr (h.slot ref role d hd).1.symm
  · intro ref role d hdc hd
    by_cases hr : ref = (b.conns c).ref
    · have hro : role ≠ (b.conns c).role := by
        intro hro
        rw [hr, hro] at hd
        exact hdc (hmine d hd)
      rwa [hr, update_self, hs, update_of_ne hro, sess, ← hr]
    · rwa [update_of_ne hr]
  · intro hj
    rw [href, update_self, hs, hrole, update_self, if_pos hj]
  · intro ref hr
    have hne : ref ≠ (b.conns c).ref := by
      rintro rfl
      exact absurd hlt (Nat.not_lt.mpr hr)
    rw [update_of_ne hne]
    exact h.unmade ref hr

theorem Wf.goto_send {site : Site} {raw : Bytes} {tag : Tag} (hstg : (b.conns c).pc.stage = site.stage)
    (ht : (b.sess c).peers (b.conns c).role.other = some t) :
    Wf (b.goto c (.send site raw tag t)) := by
  obtain ⟨href, hrole, hjoin⟩ := h.slot _ _ _ ht
  have htc : t ≠ c := by
    intro he
    rw [he] at hrole
    exact Role.other_ne _ hrole.symm
  refine h.of_conn ?_ (fun _ _ _ _ => id) (fun hj => h.joined c (hstg.trans hj)) ?_
    (fun _ => ⟨rfl, rfl, site.stage_not_early⟩) (absurd · site.stage_not_early)
    (by rw [show Pc.stage (.send site raw tag t) = _ from hstg.symm]; exact h.made c) h.unmade
  · intro ref role d hd
    by_cases hdc : d = c
    · subst hdc
      obtain ⟨h1, h2, h3⟩ := h.slot ref role d hd
      exact .inl ⟨rfl, h1, h2, hstg.symm.trans h3⟩
    · exact .inr ⟨hdc, hd⟩
  · rintro _ _ _ _ ⟨⟩
    refine ⟨htc, href, hrole, ?_⟩
    rw [hjoin]
    simp [early]

theorem Wf.setSess (hfr : (b.conns c).pc.stage ≠ .fresh)
    (hdone : (b.conns c).pc.stage ≠ .done) (hs : s.peers = (b.sess c).peers) :
    Wf (b.setSess (b.conns c).ref s) := by
  refine h.of_alike rfl rfl ?_ ?_ ?_
  · intro ref
    by_cases hr : ref = (b.conns c).ref
    · rw [hr, setSess_heap, update_self, hs, sess]
    · rw [setSess_heap, update_of_ne hr]
  · intro ref hr
    have hlt := h.made c hfr hdone
    have hne : ref ≠ (b.conns c).ref := by
      intro he
      rw [he] at hr
      exact absurd hlt (Nat.not_lt.mpr hr)
    rw [setSess_heap, update_of_ne hne]
  · intro d
    exact Alike.refl _

theorem Wf.setConn (hp : Alike (b.conns c) p) : Wf (b.setConn c p) :=
  h.of_alike rfl rfl (fun _ => rfl) (fun _ _ => rfl) (Alike.update (fun _ => Alike.refl _) hp)

theorem Wf.goto {pc : Pc} (hstg : pc.stage = (b.conns c).pc.stage)
    (hsend : ∀ site raw tag t, pc ≠ .send site raw tag t) : Wf (b.goto c pc) :=
  h.setConn (Alike.goto hstg hsend)

theorem Wf.push {m : Msg} (hlate : ¬ (b.conns t).pc.stage.early) :
    Wf (b.setConn t { b.conns t with send := (b.conns t).send.push sendBuffer m }) :=
  h.setConn ⟨rfl, rfl, rfl, rfl, fun he => absurd he hlate, fun _ _ _ _ h => h⟩

end

theorem wf_move (hm : Move cfg b a b') (h : Wf b) : Wf b' := by
  cases hm with
  | dial hpc =>
    -- neither the old connection nor the new one holds a slot
    apply h.of_unregistered
    · simp [hpc, stage]
    · simp [Conn.new, stage]
    · simp [Conn.new]
    · simp [hpc, stage, early]
    · intro _
      rfl
    · simp [Conn.new, stage]
  | refuse hpc =>
    apply h.of_unregistered <;> simp [hpc, stage, early]
  | frame hpc =>
    apply Wf.note
    apply h.goto
    · rw [hpc, handle_stage]
      rfl
    · exact handle_ne_send _
  | close hpc =>
    apply h.goto
    · rw [hpc]
      rfl
    · simp
  | @recv c =>
    apply h.setConn
    refine ⟨rfl, rfl, rfl, rfl, ?_, fun _ _ _ _ h => h⟩
    intro he
    -- nothing has been sent to a connection that has not joined
    rw [h.unsent c he]
    rfl
  | shutdown => exact ⟨h.slot, h.joined, h.target, h.unsent, h.made, h.current, h.unmade⟩
  | localStep hl => exact h.setConn hl.alike
  | @found c now first g hpc hg =>
    have hempty := h.unsent c (by simp [hpc, stage, early])
    have hlt := h.current _ _ hg
    apply h.of_unregistered <;> simp [hpc, stage, early, hempty, hlt]
  | @create c now first hpc =>
    have hempty := h.unsent c (by simp [hpc, stage, early])
    apply Wf.note
    apply (h.create (b.conns c).key).of_unregistered <;>
      simp [hpc, stage, early, hempty]
  | @reject c now first q hpc =>
    have hlt := h.made c (by simp [hpc, stage]) (by simp [hpc, stage])
    apply h.of_unregistered <;> simp [hpc, stage, early, hlt]
  | @join c now first ch hpc hfree =>
    -- the slot is free, so nobody else can be found in it afterwards
    apply Wf.note
    refine h.of_slot ?_ (by simp [stage]) rfl rfl rfl (h.made c (by simp [hpc, stage]) (by simp [hpc, stage]))
      (by simp [stage, early]) (by simp)
    intro d hd
    rw [hfree] at hd
    cases hd
  | keep hpc =>
    apply h.of_unregistered <;> rcases hpc with hpc | hpc <;>
      simp [hpc, stage, early, Conn.ref]
  | @reap c now g hpc =>
    apply ((h.reap (b.conns c).key).note _).of_unregistered <;> rcases hpc with hpc | hpc <;>
      simp [hpc, stage, early, Conn.ref]
  | @advise c now first hpc =>
    apply h.setConn
    refine ⟨rfl, rfl, rfl, ?_, ?_, ?_⟩
    · rw [hpc, forwardFirst_stage]
      rfl
    · simp [hpc, stage, early]
    · intro site raw tag t ht
      exact absurd ht (forwardFirst_ne_send _ _ _ _ _)
  | @forwardMissed c now site f hpc =>
    have hsite : (b.conns c).pc.stage = site.stage := by rw [hpc]; rfl
    apply Wf.goto
    · apply Wf.note
      refine h.setSess ?_ ?_ rfl <;> cases site <;> simp [hsite, Site.stage]
    · simp only [note_conns, setSess_conns]
      rw [hsite, afterForward_stage]
    · exact afterForward_ne_send _ _
  | @forward c now site f t hpc ht =>
    have hsite : (b.conns c).pc.stage = site.stage := by rw [hpc]; rfl
    -- first the buffers, then the mark on the target, then the message under way
    have hs : Wf (b.setSess (b.conns c).ref ((b.sess c).forward now (b.conns c).role.other f c).1) := by
      refine h.setSess ?_ ?_ rfl <;> cases site <;> simp [hsite, Site.stage]
    rw [markTarget_eq]
    have hmark := (hs.note (.forwarded c f.typ (some t))).setConn (Alike.byeReceived (b.conns t)
      ((b.conns t).byeReceived || decide (f.typ = .bye)))
    have hc := Alike.update (fun d => Alike.refl (b.conns d)) (Alike.byeReceived (b.conns t)
      ((b.conns t).byeReceived || decide (f.typ = .bye))) c
    apply hmark.goto_send
    · exact hc.stage.trans hsite
    simp only [sess, setConn_conns, setConn_heap, note_heap, note_conns, setSess_heap,
      setSess_conns]
    rwa [hc.ref, hc.role, update_self]
  | @send c now site raw tag t hpc =>
    -- the target may have left in the meantime, but it did join
    obtain ⟨href, hrole, hlate⟩ := h.target c site raw tag t hpc
    have htc : c ≠ t := by
      intro he
      rw [← he] at hrole
      exact Role.other_ne _ hrole.symm
    apply Wf.goto
    · exact (h.push hlate).note _
    · simp only [note_conns, setConn_conns, update_of_ne htc, hpc]
      exact afterForward_stage _ _
    · exact afterForward_ne_send _ _
  | sendFull hpc =>
    apply h.goto
    · rw [hpc]
      exact afterForward_stage _ _
    · exact afterForward_ne_send _ _
  | record hpc =>
    apply Wf.note
    apply h.setConn
    refine ⟨rfl, rfl, rfl, ?_, fun _ => rfl, ?_⟩
    · rw [hpc]
      rfl
    · rintro _ _ _ _ ⟨⟩
  | discardBye hpc =>
    apply Wf.note
    apply Wf.goto
    · exact h.setSess (by simp [hpc, stage]) (by simp [hpc, stage]) rfl
    · simp only [setSess_conns, hpc]
      rfl
    · simp
  | @unregister c now hpc =>
    -- whoever unregisters holds its slot still
    have hmine := h.joined c (by rw [hpc]; rfl)
    apply Wf.note
    refine h.of_slot ?_ ?_ rfl rfl rfl (h.made c (by simp [hpc, stage]) (by simp [hpc, stage]))
      (by simp [stage, early]) (by simp)
    · intro d hd
      rw [hmine] at hd
      exact (Option.some.inj hd).symm
    · rw [Session.unregister, if_pos hmine]
      simp [stage]
  | discardReplay hpc =>
    apply Wf.goto
    · exact h.setSess (by simp [hpc, stage]) (by simp [hpc, stage]) rfl
    · simp only [setSess_conns, hpc]
      rfl
    · simp

theorem wf_run (cfg : Config) (acts : List Act) : Wf (runBroker cfg acts) :=
  invariant_runBroker cfg Wf wf_new (fun _ _ _ hm h => wf_move hm h) acts

/-- A role of a session has one connection at most. -/
theorem slot_iff_joined (cfg : Config) (acts : List Act) (ref : SessRef) (role : Role) (c : ConnId) :
    let b := runBroker cfg acts
    (b.heap ref).peers role = some c ↔
      (b.conns c).ref = ref ∧ (b.conns c).role = role ∧ (b.conns c).pc.stage = .joined := by
  have hwf := wf_run cfg acts
  refine ⟨hwf.slot ref role c, ?_⟩
  rintro ⟨rfl, rfl, hj⟩
  exact hwf.joined c hj

theorem Move.identity (hm : Move cfg b a b') (d : ConnId) (h : (b.conns d).pc.stage ≠ .fresh) :
    (b'.conns d).role = (b.conns d).role ∧ (b'.conns d).ref = (b.conns d).ref := by
  cases hm with
  | localStep hl =>
    have hd := Alike.update (fun d => Alike.refl (b.conns d)) hl.alike d
    exact ⟨hd.role, hd.ref⟩
  | _ =>
    simp only [goto_eq, markTarget_eq, setConn_conns, setSess_conns, note_conns, update_apply]
    grind -ring -linarith [stage, Conn.ref]

theorem Move.not_early (hm : Move cfg b a b') {d : ConnId} (h : ¬ (b.conns d).pc.stage.early) :
    ¬ (b'.conns d).pc.stage.early := by
  cases hm with
  | localStep hl =>
    have hd := Alike.update (fun d => Alike.refl (b.conns d)) hl.alike d
    rwa [setConn_conns, hd.stage]
  | _ =>
    simp only [goto_eq, markTarget_eq, setConn_conns, setSess_conns, note_conns, update_apply, apply_ite Conn.pc]
    grind -ring -linarith [stage, early, handle_stage, forwardFirst_stage, afterForward_stage, Site.stage_not_early]

end Broker

end Chromeless.Signaling
