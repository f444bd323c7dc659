import Chromeless.SignalingInvariant

/-! The moves of the broker seen from one session object, one send channel, one message under way.
-/
namespace Chromeless.Signaling
open Function Json

namespace Broker

/-- What a step makes of the session object `ref`. -/
inductive SessMove (cfg : Config) (b : Broker) (ref : SessRef) : Act → Session → Prop
  | same {a : Act} : SessMove cfg b ref a (b.heap ref)
  | join {c : ConnId} {now : Time} {first : Option Frame} (hc : (b.conns c).ref = ref)
      (hpc : (b.conns c).pc = .register first)
      (hfree : (b.heap ref).peers (b.conns c).role = none) :
      SessMove cfg b ref (.go c now) { b.heap ref with
        peers := update (b.heap ref).peers (b.conns c).role (some c)
        recent := update (b.heap ref).recent (b.conns c).role.other
          (Session.expire cfg.iceReplayMaxAge now ((b.heap ref).recent (b.conns c).role.other)) }
  | forward {c : ConnId} {now : Time} {site : Site} {f : Frame} (hc : (b.conns c).ref = ref)
      (hpc : (b.conns c).pc = .forward site f) :
      SessMove cfg b ref (.go c now) ((b.heap ref).forward now (b.conns c).role.other f c).1
  | discardBye {c : ConnId} {now : Time} {echo : Bool} (hc : (b.conns c).ref = ref)
      (hpc : (b.conns c).pc = .discardBye echo) :
      SessMove cfg b ref (.go c now) ((b.heap ref).discardReplay
        (if echo then [(b.conns c).role] else [.client, .browser]))
  | unregister {c : ConnId} {now : Time} (hc : (b.conns c).ref = ref)
      (hpc : (b.conns c).pc = .unregister) :
      SessMove cfg b ref (.go c now) ((b.heap ref).unregister c (b.conns c).role)
  | discardReplay {c : ConnId} {now : Time} {negotiated ended : Bool}
      (hc : (b.conns c).ref = ref) (hpc : (b.conns c).pc = .discardReplay negotiated ended) :
      SessMove cfg b ref (.go c now) ((b.heap ref).discardReplay ((b.conns c).role ::
        if negotiated && !ended then [(b.conns c).role.other] else []))

variable {cfg : Config} {b b' : Broker} {a : Act}

theorem SessMove.of_update {ref ref' : SessRef} {s : Session} (h : ref' = ref → SessMove cfg b ref a s) :
    SessMove cfg b ref a (update b.heap ref' s ref) := by
  rw [update_apply]
  split_ifs with hr
  · exact h hr.symm
  · exact .same

open SessMove

theorem Move.sess (hm : Move cfg b a b') (hwf : Wf b) (ref : SessRef) :
    SessMove cfg b ref a (b'.heap ref) := by
  cases hm with
  | @create c =>
    -- the cell of a new object was never used
    have hnew := hwf.unmade ⟨(b.conns c).key, b.created (b.conns c).key⟩ (Nat.le_refl _)
    rw [← hnew, update_eq_self]
    exact .same
  | join hpc hfree =>
    apply of_update
    intro hr
    subst hr
    exact .join rfl hpc hfree
  | forwardMissed hpc =>
    apply of_update
    intro hr
    subst hr
    exact .forward rfl hpc
  | forward hpc =>
    simp only [goto_eq, markTarget_eq, setConn_heap, note_heap, setSess_heap]
    apply of_update
    intro hr
    subst hr
    exact .forward rfl hpc
  | discardBye hpc =>
    apply of_update
    intro hr
    subst hr
    exact .discardBye rfl hpc
  | unregister hpc =>
    apply of_update
    intro hr
    subst hr
    exact .unregister rfl hpc
  | discardReplay hpc =>
    apply of_update
    intro hr
    subst hr
    exact .discardReplay rfl hpc
  | _ => exact .same

theorem LocalMove.keeps {p q : Conn} (h : LocalMove b p q) :
    q.send = p.send ∧ q.replayed = p.replayed := by
  cases h <;> exact ⟨rfl, rfl⟩

/-- What a step makes of the send channel of `d` and of its replay count. -/
inductive ChanMove (cfg : Config) (b : Broker) (d : ConnId) : Act → List Msg → ℕ → Prop
  | same {a : Act} : ChanMove cfg b d a (b.conns d).send.log (b.conns d).replayed
  | dial {a : Act} (hstage : (b.conns d).pc.stage = .fresh) : ChanMove cfg b d a [] 0
  | join {now : Time} {first : Option Frame} (hpc : (b.conns d).pc = .register first) :
      ChanMove cfg b d (.go d now)
        ((((b.sess d).due cfg.iceReplayMaxAge now (b.conns d).role).map Buffered.msg).take sendBuffer)
        (((b.sess d).due cfg.iceReplayMaxAge now (b.conns d).role).take sendBuffer).length
  | advise {a : Act} {raw : Bytes} (hstage : (b.conns d).pc.stage = .joined) :
      ChanMove cfg b d a ((b.conns d).send.log ++ [⟨raw, none⟩]) (b.conns d).replayed
  | live {c : ConnId} {now : Time} {site : Site} {raw : Bytes} {tag : Tag}
      (hpc : (b.conns c).pc = .send site raw tag d) :
      ChanMove cfg b d (.go c now) ((b.conns d).send.log ++ [⟨raw, some tag⟩]) (b.conns d).replayed

theorem ChanMove.of_update {c d : ConnId} {p : Conn} (h : d = c → ChanMove cfg b d a p.send.log p.replayed) :
    ChanMove cfg b d a (update b.conns c p d).send.log (update b.conns c p d).replayed := by
  rw [update_apply]
  split_ifs with hd
  · exact h hd
  · exact .same

theorem Move.chan (hm : Move cfg b a b') (hwf : Wf b) (d : ConnId) :
    ChanMove cfg b d a (b'.conns d).send.log (b'.conns d).replayed := by
  cases hm with
  | dial hpc => exact .of_update fun hdc => .dial (by rw [hdc, hpc]; rfl)
  | recv =>
    apply ChanMove.of_update
    rintro rfl
    rw [Chan.pop_log]
    exact .same
  | localStep hl =>
    apply ChanMove.of_update
    rintro rfl
    rw [hl.keeps.1, hl.keeps.2]
    exact .same
  | @join c now first ch hpc hfree hch =>
    apply ChanMove.of_update
    rintro rfl
    have hempty := hwf.unsent d (by simp [hpc, Pc.stage, Stage.early])
    have hlog : ch.log = (((b.sess d).due cfg.iceReplayMaxAge now (b.conns d).role).map
        Buffered.msg).take sendBuffer := by
      rw [hch, Chan.pushAll_log, hempty]
      simp
    have hcnt : ch.log.length - (b.conns d).send.log.length =
        (((b.sess d).due cfg.iceReplayMaxAge now (b.conns d).role).take sendBuffer).length := by
      rw [hlog, hempty, List.length_take, List.length_map, List.length_take]
      rfl
    rw [hcnt, hlog]
    exact .join hpc
  | advise hpc =>
    apply ChanMove.of_update
    rintro rfl
    rcases Chan.push_log_cases sendBuffer (b.conns d).send
      ⟨synthesised (ascii "peer_absent") (b.conns d).role, none⟩ with h | h
    · rw [h]
      exact .advise (by rw [hpc]; rfl)
    · rw [h]
      exact .same
  | @send c now site raw tag t hpc hroom =>
    have htgt : ((b.conns t).send.push sendBuffer ⟨raw, some tag⟩).log =
        (b.conns t).send.log ++ [⟨raw, some tag⟩] := by rw [Chan.push_log, if_pos hroom]
    simp only [goto_eq, note_conns, setConn_conns, update_apply, apply_ite Conn.send, apply_ite Conn.replayed]
    by_cases hdt : d = t
    · -- a message never comes from the connection it is meant for
      have hdc : d ≠ c := by
        intro he
        have hrole := (hwf.target c site raw tag t hpc).2.1
        rw [← hdt, he] at hrole
        exact Role.other_ne _ hrole.symm
      subst hdt
      simp only [if_neg hdc, if_true, htgt]
      exact .live hpc
    · by_cases hdc : d = c
      · subst hdc
        simp only [if_true, if_neg hdt]
        exact .same
      · simp only [if_neg hdc, if_neg hdt]
        exact .same
  | _ =>
    simp only [goto_eq, markTarget_eq, setConn_conns, setSess_conns, note_conns, update_apply]
    grind -ring -linarith [ChanMove.same]

theorem Move.pending (hm : Move cfg b a b') {c : ConnId} {site : Site} {raw : Bytes} {tag : Tag}
    {t : ConnId} (h : (b'.conns c).pc = .send site raw tag t) :
    ((b.conns c).pc = .send site raw tag t ∧ ∀ now, a ≠ .go c now) ∨
      ∃ now f, a = .go c now ∧ (b.conns c).pc = .forward site f ∧ raw = f.raw ∧
        tag = ⟨c, f.typ, (b.sess c).seq⟩ ∧ (b.sess c).peers (b.conns c).role.other = some t ∧
        b'.heap (b.conns c).ref = ((b.sess c).forward now (b.conns c).role.other f c).1 := by
  cases hm with
  | @localStep c' now p hl =>
    by_cases hc : c = c'
    · -- a local step never ends in a channel send
      subst hc
      rw [setConn_conns, update_self] at h
      have hold := hl.alike.target _ _ _ _ h
      cases hl with
      | _ hpc =>
        rw [hpc] at hold
        cases hold
    rw [setConn_conns, update_of_ne hc] at h
    refine .inl ⟨h, ?_⟩
    intro now' he
    cases he
    exact hc rfl
  | @forward c' now site' f t' hpc ht =>
    simp only [goto_eq, markTarget_eq, setConn_conns, setSess_conns, note_conns, update_apply, apply_ite Conn.pc] at h
    by_cases hc : c = c'
    · subst hc
      simp only [if_true, Pc.send.injEq] at h
      obtain ⟨hsite, hraw, htag, ht'⟩ := h
      rw [hsite] at hpc
      rw [ht'] at ht
      refine .inr ⟨now, f, rfl, hpc, hraw.symm, htag.symm, ht, ?_⟩
      simp [goto_eq, markTarget_eq, setConn_heap, note_heap, setSess_heap, update_self]
    refine .inl ⟨?_, ?_⟩
    · by_cases hct : c = t'
      · subst hct
        simpa only [if_neg hc, if_true] using h
      · simpa only [if_neg hc, if_neg hct] using h
    · intro now' he
      cases he
      exact hc rfl
  | _ =>
    simp only [goto_eq, setConn_conns, setSess_conns, note_conns, update_apply] at h
    grind -ring -linarith [handle_ne_send, forwardFirst_ne_send, afterForward_ne_send, Conn.new]

end Broker

end Chromeless.Signaling
