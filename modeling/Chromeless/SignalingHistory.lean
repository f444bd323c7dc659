import Chromeless.LibHistory
import Chromeless.SignalingEffects

/-! What the history of a run says about its state, whatever the schedule. -/
namespace Chromeless.Signaling
open Function Json List
open History

def Frame.Kept (f : Frame) : Prop :=
  isReplayable f.typ = true ∨ (f.typ = .ice ∧ hasICEData f.raw = true)

instance (f : Frame) : Decidable f.Kept := inferInstanceAs (Decidable (_ ∨ _))

namespace Session

theorem holds_new (role : Role) (e : Buffered) : ¬ Session.new.Holds role e := by
  rintro (⟨typ, -, h⟩ | h) <;> cases h

theorem holds_discardReplay (s : Session) (roles : List Role) (role : Role) (e : Buffered) :
    (s.discardReplay roles).Holds role e ↔ role ∉ roles ∧ s.Holds role e := by
  unfold Holds discardReplay
  by_cases hr : role ∈ roles <;> simp [hr]

theorem holds_unregister (s : Session) (c : ConnId) (r role : Role) (e : Buffered) :
    (s.unregister c r).Holds role e ↔ s.Holds role e := by
  unfold unregister
  split <;> rfl

variable {s : Session} {now : Time} {r role : Role} {e : Buffered}

theorem holds_of_join {maxAge : Time} {peers : Role → Option ConnId} (h : ({ s with
      peers := peers
      recent := update s.recent r (expire maxAge now (s.recent r)) } : Session).Holds role e) : s.Holds role e := by
  rcases h with ⟨typ, htyp, h⟩ | h
  · refine .inl ⟨typ, htyp, ?_⟩
    simp only [update_apply, ite_apply, expire, if_pos htyp] at h
    split_ifs at h with hr
    · exact hr ▸ (Option.filter_eq_some_iff.mp h).1
    · exact h
  · exact .inr h

theorem holds_forward {f : Frame} {src : ConnId} (h : (s.forward now r f src).1.Holds role e) :
    s.Holds role e ∨ (role = r.other ∧ e = ⟨f.raw, now, ⟨src, f.typ, s.seq⟩⟩ ∧ f.Kept) := by
  simp only [Holds, forward] at h
  rcases h with ⟨typ, htyp, h⟩ | h
  · split at h
    next hkept =>
      simp only [update_apply, ite_apply] at h
      split_ifs at h with hr ht
      · exact .inr ⟨hr, (Option.some.inj h).symm, .inl hkept⟩
      · exact .inl (.inl ⟨typ, htyp, hr ▸ h⟩)
      · exact .inl (.inl ⟨typ, htyp, h⟩)
    · exact .inl (.inl ⟨typ, htyp, h⟩)
  split at h
  next hkept =>
    by_cases hr : role = r.other
    · subst hr
      rw [update_self] at h
      -- the queue may lose its oldest entry to make room
      rcases mem_append.mp h with h | h
      · have hmem : e ∈ s.recentICE r.other := by
          split at h
          · exact mem_of_mem_tail h
          · exact h
        exact .inl (.inr hmem)
      · exact .inr ⟨rfl, mem_singleton.mp h, .inr hkept⟩
    · rw [update_of_ne hr] at h
      exact .inl (.inr h)
  · exact .inl (.inr h)

end Session

namespace Broker

theorem SessMove.holds {cfg : Config} {b : Broker} {ref : SessRef} {a : Act} {s : Session}
    (hs : SessMove cfg b ref a s) {role : Role} {e : Buffered} (h : s.Holds role e) :
    (b.heap ref).Holds role e ∨ ∃ now site f, a = .go e.tag.src now ∧
      (b.conns e.tag.src).ref = ref ∧ (b.conns e.tag.src).pc = .forward site f ∧ f.Kept := by
  cases hs with
  | same => exact .inl h
  | join => exact .inl (Session.holds_of_join h)
  | @forward c now site f hc hpc =>
    rcases Session.holds_forward h with h | ⟨-, he, hkept⟩
    · exact .inl h
    · rw [he]
      exact .inr ⟨now, site, f, rfl, hc, hpc, hkept⟩
  | discardBye | discardReplay => exact .inl ((Session.holds_discardReplay _ _ _ _).mp h).2
  | unregister => exact .inl ((Session.holds_unregister _ _ _ _ _).mp h)

end Broker

def Pc.recording : Pc → Bool
  | .markNegotiated _ | .clearSaidBye _ | .clearByeReceived _ => true
  | _ => false

def Event.actors : Event → List ConnId
  | .created _ | .dropped _ => []
  | .joined c | .left c | .recorded c | .ended c => [c]
  | .sent c _ => [c]
  | .forwarded c _ target => c :: target.toList
  | .delivered c _ target => [c, target]

namespace Broker

structure Past (b : Broker) : Prop where
  actors : ∀ e ∈ b.log, ∀ c ∈ e.actors, ¬ (b.conns c).pc.stage.early
  held : ∀ ref role e, (b.heap ref).Holds role e → ¬ (b.conns e.tag.src).pc.stage.early
  left : ∀ c, .left c ∈ b.log → (b.conns c).pc.stage = .leaving ∨ (b.conns c).pc.stage = .done

/-- The events that a step can add to the history, each with the place it is added at. -/
inductive NewEvent (b : Broker) (a : Act) (b' : Broker) : Event → Prop
  | created {ref : SessRef} : NewEvent b a b' (.created ref)
  | dropped {ref : SessRef} : NewEvent b a b' (.dropped ref)
  | joined {c : ConnId} {now : Time} {first : Option Frame} (ha : a = .go c now)
      (hpc : (b.conns c).pc = .register first)
      (hpc' : (b'.conns c).pc = .recordRegistered first) : NewEvent b a b' (.joined c)
  | left {c : ConnId} {now : Time} (ha : a = .go c now) (hpc : (b.conns c).pc = .unregister)
      (hpc' : (b'.conns c).pc = .didNegotiate) : NewEvent b a b' (.left c)
  | sent {c : ConnId} {raw : Bytes} {f : Frame} {typ : EnvType} (ha : a = .frame c raw)
      (hpc : (b.conns c).pc = .reading) (hpc' : (b'.conns c).pc = handle f)
      (htyp : f.typ = typ) : NewEvent b a b' (.sent c typ)
  | recorded {c : ConnId} {now : Time} {f : Frame} (ha : a = .go c now)
      (hpc : (b.conns c).pc = .clearByeReceived f) : NewEvent b a b' (.recorded c)
  | forwarded {c : ConnId} {now : Time} {site : Site} {f : Frame} {typ : EnvType}
      {target : Option ConnId} (ha : a = .go c now) (hpc : (b.conns c).pc = .forward site f)
      (htyp : f.typ = typ) (htarget : (b.sess c).peers (b.conns c).role.other = target) :
      NewEvent b a b' (.forwarded c typ target)
  | delivered {c : ConnId} {now : Time} {site : Site} {raw : Bytes} {tag : Tag} {typ : EnvType}
      {t : ConnId} (ha : a = .go c now) (hpc : (b.conns c).pc = .send site raw tag t)
      (htyp : tag.typ = typ) (hroom : (b.conns t).send.queued < sendBuffer)
      (hpc' : (b'.conns c).pc = afterForward site typ) : NewEvent b a b' (.delivered c typ t)
  | ended {c : ConnId} {now : Time} {echo : Bool} (ha : a = .go c now)
      (hpc : (b.conns c).pc = .discardBye echo) : NewEvent b a b' (.ended c)

variable {cfg : Config} {b b' : Broker} {a : Act} {e : Event} {p : Conn}

theorem Move.log (hm : Move cfg b a b') :
    b'.log = b.log ∨ ∃ e, b'.log = b.log ++ [e] ∧ NewEvent b a b' e := by
  cases hm with
  | frame hpc => exact .inr ⟨_, rfl, .sent rfl hpc (by simp) rfl⟩
  | create => exact .inr ⟨_, rfl, .created⟩
  | reap => exact .inr ⟨_, rfl, .dropped⟩
  | join hpc => exact .inr ⟨_, rfl, .joined rfl hpc (by simp)⟩
  | forwardMissed hpc ht => exact .inr ⟨_, rfl, .forwarded rfl hpc rfl ht⟩
  | forward hpc ht =>
    rw [markTarget_eq]
    exact .inr ⟨_, rfl, .forwarded rfl hpc rfl ht⟩
  | send hpc hroom => exact .inr ⟨_, rfl, .delivered rfl hpc rfl hroom (by simp)⟩
  | record hpc => exact .inr ⟨_, rfl, .recorded rfl hpc⟩
  | discardBye hpc => exact .inr ⟨_, rfl, .ended rfl hpc⟩
  | unregister hpc => exact .inr ⟨_, rfl, .left rfl hpc (by simp)⟩
  | _ => exact .inl rfl

theorem Move.mem_log (hm : Move cfg b a b') (he : e ∈ b'.log) : e ∈ b.log ∨ NewEvent b a b' e := by
  rcases hm.log with hlog | ⟨x, hlog, hnew⟩
  · rw [hlog] at he
    exact .inl he
  rw [hlog, mem_append, mem_singleton] at he
  rcases he with he | rfl
  · exact .inl he
  · exact .inr hnew

theorem past_new : Past Broker.new where
  actors := nofun
  held := fun _ _ e h => absurd h (Session.holds_new _ e)
  left := by
    intro c hc
    cases hc

theorem NewEvent.actors (h : NewEvent b a b' e) (hm : Move cfg b a b') (hwf : Wf b) :
    ∀ c ∈ e.actors, ¬ (b'.conns c).pc.stage.early := by
  intro c hc
  cases h with
  | created => cases hc
  | dropped => cases hc
  | joined ha hpc hpc' =>
    rw [Event.actors, mem_singleton] at hc
    rw [hc, hpc']
    simp [Pc.stage, Stage.early]
  | left ha hpc | sent ha hpc | recorded ha hpc | ended ha hpc =>
    rw [Event.actors, mem_singleton] at hc
    apply hm.not_early
    rw [hc, hpc]
    simp [Pc.stage, Stage.early]
  | @forwarded d now site f typ target ha hpc htyp htgt =>
    rw [Event.actors, mem_cons, Option.mem_toList] at hc
    apply hm.not_early
    rcases hc with hc | hc
    · rw [hc, hpc]
      exact site.stage_not_early
    -- the target stood in a slot
    rw [hc] at htgt
    rw [(hwf.slot _ _ _ htgt).2.2]
    simp [Stage.early]
  | @delivered d now site raw tag typ t ha hpc =>
    simp only [Event.actors, mem_cons, not_mem_nil, or_false] at hc
    apply hm.not_early
    rcases hc with hc | hc
    · rw [hc, hpc]
      exact site.stage_not_early
    · rw [hc]
      exact (hwf.target d site raw tag t hpc).2.2

theorem Move.leaving (hm : Move cfg b a b') {d : ConnId}
    (h : (b.conns d).pc.stage = .leaving ∨ (b.conns d).pc.stage = .done) :
    (b'.conns d).pc.stage = .leaving ∨ (b'.conns d).pc.stage = .done := by
  cases hm with
  | localStep hl =>
    have hd := Alike.update (fun d => Alike.refl (b.conns d)) hl.alike d
    rwa [setConn_conns, hd.stage]
  | _ =>
    simp only [goto_eq, markTarget_eq, setConn_conns, setSess_conns, note_conns, update_apply, apply_ite Conn.pc]
    grind -ring -linarith [Pc.stage, afterForward_stage]

theorem Past.move (h : Past b) (hm : Move cfg b a b') (hwf : Wf b) : Past b' where
  actors := by
    intro e he c hc
    rcases hm.mem_log he with hold | hnew
    · exact hm.not_early (h.actors e hold c hc)
    · exact hnew.actors hm hwf c hc
  held := by
    intro ref role e he
    apply hm.not_early
    rcases (hm.sess hwf ref).holds he with he | ⟨now, site, f, -, -, hpc, -⟩
    · exact h.held ref role e he
    · rw [hpc]
      exact site.stage_not_early
  left := by
    intro c hc
    rcases hm.mem_log hc with hold | hnew
    · exact hm.leaving (h.left c hold)
    cases hnew with
    | left ha hpc hpc' =>
      rw [hpc']
      exact .inl rfl

theorem forwardFirst_recording (first : Option Frame) :
    (forwardFirst first).recording = false := by
  cases first <;> rfl

theorem afterForward_recording (site : Site) (typ : EnvType) :
    (afterForward site typ).recording = false := by
  fun_cases afterForward <;> rfl

def Captured (p : Conn) : Prop :=
  match p.pc with
  | .didReceiveBye negotiated => negotiated = p.negotiated
  | .discardReplay negotiated ended | .checkShutdown negotiated ended =>
    negotiated = p.negotiated ∧ ended = p.byeReceived
  | .didSayBye => p.negotiated = true ∧ p.byeReceived = false
  | .forward .cleanup f => f.typ = .bye ∧ p.negotiated = true ∧ p.byeReceived = false ∧ p.saidBye = false
  | .send .cleanup _ tag _ => tag.typ = .bye ∧ p.negotiated = true ∧ p.byeReceived = false ∧ p.saidBye = false
  | _ => True

theorem captured_of_stage (h : p.pc.stage ≠ .leaving) : Captured p := by
  unfold Captured
  split <;> rename_i hpc <;> simp [hpc, Pc.stage, Site.stage] at h ⊢

theorem LocalMove.captured {q : Conn} (hl : LocalMove b p q) (h : Captured p) : Captured q := by
  unfold Captured at h
  cases hl with
  | peerPresent =>
    apply captured_of_stage
    rw [forwardFirst_stage]
    simp
  | didNegotiate => exact rfl
  | didReceiveBye hpc =>
    rw [hpc] at h
    exact ⟨h, rfl⟩
  | announce hpc hdown hgate =>
    rw [hpc] at h
    exact ⟨h.1.symm.trans hgate.1, h.2.symm.trans hgate.2⟩
  | synthesise hpc hsaid =>
    rw [hpc] at h
    exact ⟨rfl, h.1, h.2, hsaid⟩
  | _ => trivial

theorem captured_afterForward (p : Conn) (site : Site) (typ : EnvType) :
    Captured { p with pc := afterForward site typ } := by
  fun_cases afterForward <;> trivial

theorem captured_update {f : ConnId → Conn} (h : ∀ d, Captured (f d)) {c : ConnId} (hp : Captured p)
    (d : ConnId) : Captured (update f c p d) :=
  (forall_update_iff f fun _ => Captured).mpr ⟨hp, fun d _ => h d⟩ d

theorem captured_move (hm : Move cfg b a b') (hwf : Wf b) (h : ∀ c, Captured (b.conns c)) :
    ∀ d, Captured (b'.conns d) := by
  cases hm with
  | localStep hl => exact captured_update h (hl.captured (h _))
  | shutdown => exact h
  | @recv c => exact captured_update h (h c)
  | frame =>
    apply captured_update h
    apply captured_of_stage
    rw [handle_stage]
    simp
  | advise =>
    apply captured_update h
    apply captured_of_stage
    rw [forwardFirst_stage]
    simp
  | forwardMissed | sendFull => exact captured_update h (captured_afterForward _ _ _)
  | @forward c now site f t hpc ht =>
    rw [markTarget_eq]
    have htarget := (hwf.slot _ _ _ ht).2.2
    have hmark : ∀ d, Captured (update b.conns t { b.conns t with
        byeReceived := (b.conns t).byeReceived || decide (f.typ = .bye) } d) := by
      apply captured_update h
      apply captured_of_stage
      rw [htarget]
      simp
    apply captured_update hmark
    -- a synthesised frame sets out with the flags it was synthesised under
    cases site with
    | first => trivial
    | later => trivial
    | cleanup =>
      have hct : c ≠ t := by
        intro he
        rw [← he, hpc] at htarget
        cases htarget
      have hc := h c
      unfold Captured at hc
      rw [hpc] at hc
      simpa only [Captured, note_conns, setSess_conns, setConn_conns, update_of_ne hct] using hc
  | @send c now site raw tag t =>
    have ht : Captured { b.conns t with
        send := (b.conns t).send.push sendBuffer ⟨raw, some tag⟩ } := h t
    apply captured_update (captured_update h ht)
    exact captured_afterForward _ _ _
  | @discardReplay c now negotiated ended hpc =>
    apply captured_update h
    have hc := h c
    unfold Captured at hc ⊢
    rwa [hpc] at hc
  | _ => exact captured_update h trivial

structure Sound (b : Broker) : Prop where
  wf : Wf b
  past : Past b
  captured : ∀ c, Captured (b.conns c)

theorem sound_new : Sound Broker.new := ⟨wf_new, past_new, fun _ => trivial⟩

theorem Sound.move (h : Sound b) (hm : Move cfg b a b') : Sound b' :=
  ⟨wf_move hm h.wf, h.past.move hm h.wf, captured_move hm h.wf h.captured⟩

theorem sound_run (cfg : Config) (acts : List Act) : Sound (runBroker cfg acts) :=
  invariant_runBroker cfg Sound sound_new (fun _ _ _ hm h => h.move hm) acts

theorem invariant_sound (cfg : Config) (ok : Broker → Act → Prop) (I : Broker → Prop)
    (hmove : ∀ b a b', Move cfg b a b' → Sound b → ok b a → I b → I b') (hsnd : Sound b) (h : I b)
    {acts : List Act} (hok : Runs.Meets (step cfg) ok b acts) : I (Runs.run (step cfg) b acts) := by
  have hinv : ∀ b', b' = Runs.run (step cfg) b acts → Sound b' ∧ I b' := by
    rintro b' rfl
    apply Runs.invariant_run_meets (step cfg) ok (fun b => Sound b ∧ I b) _ ⟨hsnd, h⟩ hok
    intro b a hcond hb
    rcases step_move cfg b a with heq | hm
    · rwa [heq]
    · exact ⟨hb.1.move hm, hmove b a _ hm hb.1 hcond hb.2⟩
  exact (hinv _ rfl).2

end Broker

end Chromeless.Signaling
