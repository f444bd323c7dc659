import Chromeless.SignalingBroker

/-! What one step of the broker can do, said once. -/
namespace Chromeless.Signaling
open Function Json Session

theorem accept_some {cfg : Config} {now : Time} {d : Dial} {role : Role} {key : SessionKey} {first : Option Frame}
    (h : accept cfg now d = some (role, key, first)) :
    sessionID d.path = some key.id ∧ firstFrame d.first = some (role, first) := by
  revert h
  fun_cases accept cfg now d <;> rintro ⟨⟩ <;> exact ⟨‹_›, ‹_›⟩

namespace Broker

section
variable (b : Broker) (c : ConnId) (pc : Pc)

@[simp] theorem goto_eq : b.goto c pc = b.setConn c { b.conns c with pc := pc } := rfl

@[simp] theorem markTarget_eq (typ : EnvType) : b.markTarget typ c = b.setConn c { b.conns c with
    byeReceived := (b.conns c).byeReceived || decide (typ = .bye) } := by
  unfold markTarget
  split
  next h => simp [h]
  next h => simp [h, setConn]

end

/-- The effects of a local step on the connection that takes it. -/
inductive LocalMove (b : Broker) (p : Conn) : Conn → Prop
  | recordRegistered {first : Option Frame} (hpc : p.pc = .recordRegistered first) :
      LocalMove b p { p with pc := .peerPresent first }
  | peerAbsent {first : Option Frame} (hpc : p.pc = .peerPresent first)
      (h : (b.heap p.ref).peers p.role.other = none) :
      LocalMove b p { p with pc := .advise first }
  | peerPresent {first : Option Frame} (hpc : p.pc = .peerPresent first)
      (h : (b.heap p.ref).peers p.role.other ≠ none) :
      LocalMove b p { p with pc := forwardFirst first }
  | markNegotiated {f : Frame} (hpc : p.pc = .markNegotiated f) :
      LocalMove b p { p with negotiated := true, pc := .clearSaidBye f }
  | clearSaidBye {f : Frame} (hpc : p.pc = .clearSaidBye f) :
      LocalMove b p { p with saidBye := false, pc := .clearByeReceived f }
  | echo {f : Frame} (hpc : p.pc = .receivedBye f) (h : p.byeReceived = true) :
      LocalMove b p { p with pc := .discardBye true }
  | noEcho {f : Frame} (hpc : p.pc = .receivedBye f) (h : p.byeReceived = false) :
      LocalMove b p { p with pc := .forward .later f }
  | markSaidBye (hpc : p.pc = .markSaidBye) :
      LocalMove b p { p with saidBye := true, pc := .reading }
  | didNegotiate (hpc : p.pc = .didNegotiate) :
      LocalMove b p { p with pc := .didReceiveBye p.negotiated }
  | didReceiveBye {negotiated : Bool} (hpc : p.pc = .didReceiveBye negotiated) :
      LocalMove b p { p with pc := .discardReplay negotiated p.byeReceived }
  | announce {negotiated ended : Bool} (hpc : p.pc = .checkShutdown negotiated ended)
      (hdown : b.shuttingDown = false) (h : negotiated = true ∧ ended = false) :
      LocalMove b p { p with pc := .didSayBye }
  | quiet {negotiated ended : Bool} (hpc : p.pc = .checkShutdown negotiated ended)
      (h : b.shuttingDown = true ∨ ¬ (negotiated = true ∧ ended = false)) :
      LocalMove b p { p with pc := .recordUnregistered }
  | alreadySaid (hpc : p.pc = .didSayBye) (h : p.saidBye = true) :
      LocalMove b p { p with pc := .recordUnregistered }
  | synthesise (hpc : p.pc = .didSayBye) (h : p.saidBye = false) :
      LocalMove b p
        { p with pc := .forward .cleanup ⟨.bye, synthesised (ascii "bye") p.role⟩ }
  | recordUnregistered (hpc : p.pc = .recordUnregistered) :
      LocalMove b p { p with pc := .dropIfEmpty }

theorem localStep_move {b : Broker} {p q : Conn} (h : localStep b p = some q) :
    LocalMove b p q := by
  revert h
  fun_cases localStep b p <;> rintro ⟨⟩
  · exact .recordRegistered ‹_›
  · exact .peerAbsent ‹_› ‹_›
  · exact .peerPresent ‹_› ‹_›
  · exact .markNegotiated ‹_›
  · exact .clearSaidBye ‹_›
  · exact .echo ‹_› ‹_›
  · exact .noEcho ‹_› (by simp_all)
  · exact .markSaidBye ‹_›
  · exact .didNegotiate ‹_›
  · exact .didReceiveBye ‹_›
  · exact .quiet ‹_› (.inl ‹_›)
  · exact .announce ‹_› (by simp_all) (by simp_all)
  · exact .quiet ‹_› (.inr (by simp_all))
  · exact .alreadySaid ‹_› ‹_›
  · exact .synthesise ‹_› (by simp_all)
  · exact .recordUnregistered ‹_›

/-- The effects of a step. -/
inductive Move (cfg : Config) (b : Broker) : Act → Broker → Prop
  | dial {c : ConnId} {now : Time} {d : Dial} {role : Role} {key : SessionKey}
      {first : Option Frame} (hpc : (b.conns c).pc = .idle)
      (h : accept cfg now d = some (role, key, first)) :
      Move cfg b (.dial c now d) (b.setConn c (Conn.new role key first))
  | refuse {c : ConnId} {now : Time} {d : Dial} (hpc : (b.conns c).pc = .idle)
      (h : accept cfg now d = none) :
      Move cfg b (.dial c now d) (b.goto c .done)
  | frame {c : ConnId} {raw : Bytes} {f : Frame} (hpc : (b.conns c).pc = .reading)
      (h : readFrame (b.conns c).role raw = some f) :
      Move cfg b (.frame c raw) ((b.goto c (handle f)).note (.sent c f.typ))
  | close {c : ConnId} (hpc : (b.conns c).pc = .reading) :
      Move cfg b (.close c) (b.goto c .unregister)
  | recv {c : ConnId} (hpc : pumping (b.conns c).pc = true) :
      Move cfg b (.recv c) (b.setConn c { b.conns c with send := (b.conns c).send.pop })
  | shutdown : Move cfg b .shutdown { b with shuttingDown := true }
  | localStep {c : ConnId} {now : Time} {p : Conn} (h : LocalMove b (b.conns c) p) :
      Move cfg b (.go c now) (b.setConn c p)
  | found {c : ConnId} {now : Time} {first : Option Frame} {g : ℕ}
      (hpc : (b.conns c).pc = .getOrCreate first) (hg : b.sessions (b.conns c).key = some g) :
      Move cfg b (.go c now) (b.setConn c { b.conns c with gen := g, pc := .register first })
  | create {c : ConnId} {now : Time} {first : Option Frame}
      (hpc : (b.conns c).pc = .getOrCreate first) (hg : b.sessions (b.conns c).key = none) :
      Move cfg b (.go c now)
        (({ b with
          sessions := update b.sessions (b.conns c).key (some (b.created (b.conns c).key))
          created := update b.created (b.conns c).key (b.created (b.conns c).key + 1)
          heap := update b.heap ⟨(b.conns c).key, b.created (b.conns c).key⟩
            Session.new }.setConn c { b.conns c with
              gen := b.created (b.conns c).key, pc := .register first }).note
          (.created ⟨(b.conns c).key, b.created (b.conns c).key⟩))
  | reject {c : ConnId} {now : Time} {first : Option Frame} {q : ConnId}
      (hpc : (b.conns c).pc = .register first)
      (hq : (b.sess c).peers (b.conns c).role = some q) :
      Move cfg b (.go c now) (b.goto c .rejected)
  | join {c : ConnId} {now : Time} {first : Option Frame} {ch : Chan Msg}
      (hpc : (b.conns c).pc = .register first)
      (hfree : (b.sess c).peers (b.conns c).role = none)
      (hch : ch = (b.conns c).send.pushAll sendBuffer
        (((b.sess c).due cfg.iceReplayMaxAge now (b.conns c).role).map Buffered.msg)) :
      Move cfg b (.go c now)
        (((b.setSess (b.conns c).ref { b.sess c with
          peers := update (b.sess c).peers (b.conns c).role (some c)
          recent := update (b.sess c).recent (b.conns c).role.other
            (expire cfg.iceReplayMaxAge now ((b.sess c).recent (b.conns c).role.other)) }).setConn c { b.conns c with
            send := ch
            replayed := ch.log.length - (b.conns c).send.log.length
            pc := .recordRegistered first }).note (.joined c))
  | keep {c : ConnId} {now : Time}
      (hpc : (b.conns c).pc = .rejected ∨ (b.conns c).pc = .dropIfEmpty)
      (hkeep : b.dropIfEmpty (b.conns c).key = b) :
      Move cfg b (.go c now) (b.goto c .done)
  | reap {c : ConnId} {now : Time} {g : ℕ}
      (hpc : (b.conns c).pc = .rejected ∨ (b.conns c).pc = .dropIfEmpty)
      (hg : b.sessions (b.conns c).key = some g)
      (hempty : ∀ role, (b.heap ⟨(b.conns c).key, g⟩).peers role = none) :
      Move cfg b (.go c now)
        (({ b with sessions := update b.sessions (b.conns c).key none }.note
          (.dropped ⟨(b.conns c).key, g⟩)).goto c .done)
  | advise {c : ConnId} {now : Time} {first : Option Frame}
      (hpc : (b.conns c).pc = .advise first) :
      Move cfg b (.go c now) (b.setConn c { b.conns c with
        send := (b.conns c).send.push sendBuffer
          ⟨synthesised (ascii "peer_absent") (b.conns c).role, none⟩
        pc := forwardFirst first })
  | forwardMissed {c : ConnId} {now : Time} {site : Site} {f : Frame}
      (hpc : (b.conns c).pc = .forward site f)
      (ht : (b.sess c).peers (b.conns c).role.other = none) :
      Move cfg b (.go c now)
        (((b.setSess (b.conns c).ref
          ((b.sess c).forward now (b.conns c).role.other f c).1).note
            (.forwarded c f.typ none)).goto c (afterForward site f.typ))
  | forward {c : ConnId} {now : Time} {site : Site} {f : Frame} {t : ConnId}
      (hpc : (b.conns c).pc = .forward site f)
      (ht : (b.sess c).peers (b.conns c).role.other = some t) :
      Move cfg b (.go c now)
        ((((b.setSess (b.conns c).ref
          ((b.sess c).forward now (b.conns c).role.other f c).1).note
            (.forwarded c f.typ (some t))).markTarget f.typ t).goto c (.send site f.raw ⟨c, f.typ, (b.sess c).seq⟩ t))
  | send {c : ConnId} {now : Time} {site : Site} {raw : Bytes} {tag : Tag} {t : ConnId}
      (hpc : (b.conns c).pc = .send site raw tag t)
      (hroom : (b.conns t).send.queued < sendBuffer) :
      Move cfg b (.go c now)
        (((b.setConn t { b.conns t with
          send := (b.conns t).send.push sendBuffer ⟨raw, some tag⟩ }).note
            (.delivered c tag.typ t)).goto c (afterForward site tag.typ))
  | sendFull {c : ConnId} {now : Time} {site : Site} {raw : Bytes} {tag : Tag} {t : ConnId}
      (hpc : (b.conns c).pc = .send site raw tag t)
      (hfull : ¬ (b.conns t).send.queued < sendBuffer) :
      Move cfg b (.go c now) (b.goto c (afterForward site tag.typ))
  | record {c : ConnId} {now : Time} {f : Frame}
      (hpc : (b.conns c).pc = .clearByeReceived f) :
      Move cfg b (.go c now)
        ((b.setConn c { b.conns c with
          byeReceived := false, pc := .forward .later f }).note (.recorded c))
  | discardBye {c : ConnId} {now : Time} {echo : Bool}
      (hpc : (b.conns c).pc = .discardBye echo) :
      Move cfg b (.go c now)
        (((b.setSess (b.conns c).ref ((b.sess c).discardReplay
          (if echo then [(b.conns c).role] else [.client, .browser]))).goto c .markSaidBye).note (.ended c))
  | unregister {c : ConnId} {now : Time} (hpc : (b.conns c).pc = .unregister) :
      Move cfg b (.go c now)
        (((b.setSess (b.conns c).ref ((b.sess c).unregister c (b.conns c).role)).goto c .didNegotiate).note (.left c))
  | discardReplay {c : ConnId} {now : Time} {negotiated ended : Bool}
      (hpc : (b.conns c).pc = .discardReplay negotiated ended) :
      Move cfg b (.go c now)
        ((b.setSess (b.conns c).ref ((b.sess c).discardReplay ((b.conns c).role ::
          if negotiated && !ended then [(b.conns c).role.other] else []))).goto c (.checkShutdown negotiated ended))

theorem dropIfEmpty_cases (b : Broker) (key : SessionKey) :
    b.dropIfEmpty key = b ∨ ∃ g, b.sessions key = some g ∧
      (∀ role, (b.heap ⟨key, g⟩).peers role = none) ∧
      b.dropIfEmpty key =
        { b with sessions := update b.sessions key none }.note (.dropped ⟨key, g⟩) := by
  unfold dropIfEmpty
  split
  · exact .inl rfl
  rename_i g hg
  split
  next hemp =>
    refine .inr ⟨g, hg, ?_, rfl⟩
    intro role
    cases role
    · exact hemp.1
    · exact hemp.2
  · exact .inl rfl

variable (cfg : Config)

theorem sharedStep_move (now : Time) (b : Broker) (c : ConnId) :
    b.sharedStep cfg now c = b ∨ Move cfg b (.go c now) (b.sharedStep cfg now c) := by
  unfold sharedStep
  dsimp only
  split
  next first hpc =>
    unfold getOrCreate
    dsimp only
    split
    next g hg => exact .inr (.found hpc hg)
    next hg => exact .inr (.create hpc hg)
  next first hpc =>
    unfold register
    dsimp only
    cases hq : (b.sess c).peers (b.conns c).role with
    | some q =>
      rw [register_taken _ _ _ _ q _ _ hq]
      exact .inr (.reject hpc hq)
    | none =>
      rw [register_free _ _ _ _ _ _ hq]
      exact .inr (.join hpc hq rfl)
  next hpc =>
    rcases dropIfEmpty_cases b (b.conns c).key with hk | ⟨g, hg, hemp, heq⟩
    · rw [hk]
      exact .inr (.keep (.inl hpc) hk)
    · rw [heq]
      exact .inr (.reap (.inl hpc) hg hemp)
  next first hpc => exact .inr (.advise hpc)
  next site f hpc =>
    unfold forward
    dsimp only
    split
    next ht =>
      have ht' : (b.sess c).peers (b.conns c).role.other = none := ht
      rw [ht]
      exact .inr (.forwardMissed hpc ht')
    next t ht =>
      have ht' : (b.sess c).peers (b.conns c).role.other = some t := ht
      rw [ht]
      exact .inr (.forward hpc ht')
  next site raw tag t hpc =>
    unfold send
    dsimp only
    split
    next hroom => exact .inr (.send hpc hroom)
    rename_i hfull
    have hpush : (b.conns t).send.push sendBuffer ⟨raw, some tag⟩ = (b.conns t).send := by
      unfold Chan.push
      rw [if_neg hfull]
    have hsame : b.setConn t { b.conns t with
        send := (b.conns t).send.push sendBuffer ⟨raw, some tag⟩ } = b := by
      rw [hpush]
      simp [setConn]
    rw [hsame]
    exact .inr (.sendFull hpc hfull)
  next f hpc => exact .inr (.record hpc)
  next echo hpc => exact .inr (.discardBye hpc)
  next hpc => exact .inr (.unregister hpc)
  next negotiated ended hpc => exact .inr (.discardReplay hpc)
  next hpc =>
    rcases dropIfEmpty_cases b (b.conns c).key with hk | ⟨g, hg, hemp, heq⟩
    · rw [hk]
      exact .inr (.keep (.inr hpc) hk)
    · rw [heq]
      exact .inr (.reap (.inr hpc) hg hemp)
  · exact .inl rfl

theorem step_move (b : Broker) (a : Act) :
    step cfg b a = b ∨ Move cfg b a (step cfg b a) := by
  cases a with
  | dial c now d =>
    unfold step
    dsimp only
    split
    next role key first hpc h => exact .inr (.dial hpc h)
    next hpc h => exact .inr (.refuse hpc h)
    · exact .inl rfl
  | frame c raw =>
    unfold step
    dsimp only
    split
    next f hpc h => exact .inr (.frame hpc h)
    · exact .inl rfl
  | close c =>
    unfold step
    dsimp only
    split
    next hpc => exact .inr (.close hpc)
    · exact .inl rfl
  | recv c =>
    unfold step
    dsimp only
    split
    next hpc => exact .inr (.recv hpc)
    · exact .inl rfl
  | go c now =>
    unfold step advance
    dsimp only
    split
    next p h => exact .inr (.localStep (localStep_move h))
    · exact sharedStep_move cfg now b c
  | shutdown => exact .inr .shutdown

theorem invariant_runBroker (I : Broker → Prop) (hinit : I Broker.new)
    (hmove : ∀ b a b', Move cfg b a b' → I b → I b') (acts : List Act) :
    I (runBroker cfg acts) := by
  apply Runs.invariant_run (Broker.step cfg) I _ hinit
  intro b a hb
  rcases step_move cfg b a with h | h
  · rwa [h]
  · exact hmove b a _ h hb

section
variable (cfg : Config) {b : Broker} {c : ConnId} (now : Time) {site : Site} {f : Frame}

theorem step_forward (hpc : (b.conns c).pc = .forward site f) :
    step cfg b (.go c now) = b.forward now c site f := by
  simp [step, advance, localStep, sharedStep, hpc]

theorem forward_missed (site : Site) (f : Frame) (ht : (b.sess c).peers (b.conns c).role.other = none) :
    b.forward now c site f = ((b.setSess (b.conns c).ref
      ((b.sess c).forward now (b.conns c).role.other f c).1).note
        (.forwarded c f.typ none)).goto c (afterForward site f.typ) := by
  have hnone : ((b.sess c).forward now (b.conns c).role.other f c).2 = none := ht
  simp [forward, hnone]

theorem forward_found (site : Site) (f : Frame) {t : ConnId} (ht : (b.sess c).peers (b.conns c).role.other = some t) :
    b.forward now c site f = (((b.setSess (b.conns c).ref
      ((b.sess c).forward now (b.conns c).role.other f c).1).note
        (.forwarded c f.typ (some t))).markTarget f.typ t).goto c (.send site f.raw ⟨c, f.typ, (b.sess c).seq⟩ t) := by
  have hsome : ((b.sess c).forward now (b.conns c).role.other f c).2 = some t := ht
  simp [forward, hsome]

theorem step_send {raw : Bytes} {tag : Tag} {t : ConnId} (hpc : (b.conns c).pc = .send site raw tag t) :
    step cfg b (.go c now) = b.send c site raw tag t := by
  simp [step, advance, localStep, sharedStep, hpc]

theorem send_conns (site : Site) (raw : Bytes) (tag : Tag) (t : ConnId) :
    (b.send c site raw tag t).conns =
      (let conns := update b.conns t { b.conns t with
        send := (b.conns t).send.push sendBuffer ⟨raw, some tag⟩ }
      update conns c { conns c with pc := afterForward site tag.typ }) := by
  unfold send
  dsimp only
  split <;> rfl

theorem send_heap (site : Site) (raw : Bytes) (tag : Tag) (t : ConnId) :
    (b.send c site raw tag t).heap = b.heap := by
  unfold send
  dsimp only
  split <;> rfl

theorem step_discardBye {echo : Bool} (hpc : (b.conns c).pc = .discardBye echo) :
    step cfg b (.go c now) = ((b.setSess (b.conns c).ref ((b.sess c).discardReplay
      (if echo then [(b.conns c).role] else [.client, .browser]))).goto c .markSaidBye).note (.ended c) := by
  simp [step, advance, localStep, sharedStep, hpc]

theorem step_local {p : Conn} (h : localStep b (b.conns c) = some p) :
    step cfg b (.go c now) = b.setConn c p := by
  simp [step, advance, h]

theorem step_record (hpc : (b.conns c).pc = .clearByeReceived f) :
    step cfg b (.go c now) = (b.setConn c { b.conns c with
      byeReceived := false, pc := .forward .later f }).note (.recorded c) := by
  simp [step, advance, localStep, sharedStep, hpc]

theorem step_reading (hpc : (b.conns c).pc = .reading) : step cfg b (.go c now) = b := by
  simp [step, advance, localStep, sharedStep, hpc]

theorem run_reading (hpc : (b.conns c).pc = .reading) (n : ℕ) :
    Runs.run (step cfg) b (List.replicate n (.go c now)) = b := by
  induction n with
  | zero => rfl
  | succ n ih => rw [List.replicate_succ, Runs.run_cons, step_reading cfg now hpc, ih]

end

end Broker

end Chromeless.Signaling
