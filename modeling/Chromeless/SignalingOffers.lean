import Chromeless.SignalingHistory
import Chromeless.SignalingReplay

/-! How long the browser's offer waits for a client. -/
namespace Chromeless.Signaling
open Function Json Session Runs List Role
open History

def Event.byeTo (c : ConnId) : Event → Bool
  | .forwarded _ typ (some t) => decide (typ = .bye ∧ t = c)
  | _ => false

namespace Broker

def sinceRecorded (b : Broker) (c : ConnId) : List Event :=
  sinceLast (fun e => decide (e = .recorded c)) b.log

/-- The peer has sent an offer or an answer, and no `bye` has been forwarded to it since. -/
def InSession (b : Broker) (c : ConnId) : Prop :=
  .recorded c ∈ b.log ∧ ∀ e ∈ b.sinceRecorded c, e.byeTo c = false

instance (b : Broker) (c : ConnId) : Decidable (b.InSession c) :=
  inferInstanceAs (Decidable (_ ∧ _))

structure Flagged (b : Broker) : Prop where
  negotiated : ∀ c, (b.conns c).negotiated = true → (b.conns c).pc.recording = true ∨ .recorded c ∈ b.log
  unended : ∀ c, (b.conns c).byeReceived = false → ∀ e ∈ b.sinceRecorded c, e.byeTo c = false

theorem flagged_new : Flagged Broker.new where
  negotiated := nofun
  unended := by
    intro c _ e he
    cases he

variable {cfg : Config} {b' : Broker} {c : ConnId} {ref : SessRef} {e : Buffered} {b : Broker}

theorem Move.unended {a : Act} (hm : Move cfg b a b')
    (h : (b'.conns c).byeReceived = false) (hfr : (b.conns c).pc.stage ≠ .fresh) :
    (b.conns c).byeReceived = false ∨ b'.sinceRecorded c = [] := by
  cases hm with
  | @record d =>
    by_cases hd : c = d
    · subst hd
      right
      unfold sinceRecorded
      rw [note_log, sinceLast_concat, if_pos (by simp)]
    · simp only [note_conns, setConn_conns, update_of_ne hd] at h
      exact .inl h
  | @localStep d now p hl =>
    left
    by_cases hd : c = d
    · subst hd
      rw [setConn_conns, update_self] at h
      cases hl <;> exact h
    · rwa [setConn_conns, update_of_ne hd] at h
  | _ =>
    simp only [goto_eq, markTarget_eq, setConn_conns, setSess_conns, note_conns,
      update_apply, apply_ite Conn.byeReceived] at h
    grind -ring -linarith [Pc.stage]

theorem Move.byeTo {a : Act} (hm : Move cfg b a b') {e : Event}
    (hmem : e ∈ b'.sinceRecorded c) (hbye : e.byeTo c = true) :
    e ∈ b.sinceRecorded c ∨ (b'.conns c).byeReceived = true := by
  -- the only events that count are those of a forward
  have hlog : ∀ x, b'.log = b.log ++ [x] → x.byeTo c = false → e ∈ b.sinceRecorded c := by
    intro x hx hno
    unfold sinceRecorded at hmem ⊢
    rw [hx, sinceLast_concat] at hmem
    split at hmem
    · cases hmem
    rw [mem_append, mem_singleton] at hmem
    rcases hmem with hmem | rfl
    · exact hmem
    · rw [hno] at hbye
      cases hbye
  cases hm with
  | @forward d now site f t =>
    by_cases hct : f.typ = .bye ∧ t = c
    · right
      obtain ⟨hf, rfl⟩ := hct
      simp only [goto_eq, markTarget_eq, setConn_conns, setSess_conns, note_conns,
        update_apply, apply_ite Conn.byeReceived, hf]
      by_cases htd : t = d <;> simp [htd]
    left
    apply hlog (.forwarded d f.typ (some t))
    · rw [markTarget_eq]
      rfl
    · simpa [Event.byeTo] using hct
  | frame | create | reap | join | forwardMissed | send | record | discardBye | unregister =>
    left
    exact hlog _ rfl rfl
  | _ => exact .inl hmem

theorem Flagged.negotiated_move {a : Act} (h : Flagged b) (hm : Move cfg b a b')
    (c : ConnId) (hneg : (b'.conns c).negotiated = true) :
    (b'.conns c).pc.recording = true ∨ .recorded c ∈ b'.log := by
  have hold := h.negotiated c
  cases hm with
  | @localStep d now p hl =>
    by_cases hd : c = d
    · subst hd
      simp only [setConn_conns, setConn_log, update_self] at hneg ⊢
      cases hl with
      | markNegotiated | clearSaidBye => exact .inl rfl
      | _ hpc =>
        rw [hpc] at hold
        rcases hold hneg with hr | hr
        · cases hr
        · exact .inr hr
    · simp only [setConn_conns, setConn_log, update_of_ne hd] at hneg ⊢
      exact hold hneg
  | _ =>
    simp only [goto_eq, markTarget_eq, setConn_conns, setSess_conns, note_conns, setConn_log,
      setSess_log, note_log, update_apply, apply_ite Conn.pc,
      apply_ite Conn.negotiated, mem_append, mem_singleton] at hneg ⊢
    grind -ring -linarith [Pc.recording, Conn.new]

theorem Flagged.move {a : Act} (h : Flagged b) (hm : Move cfg b a b') (hpast : Past b) :
    Flagged b' where
  negotiated := h.negotiated_move hm
  unended := by
    intro c hflag e he
    by_contra hbye
    have hbye : e.byeTo c = true := by simpa using hbye
    rcases hm.byeTo he hbye with hold | hmark
    · have hfr : (b.conns c).pc.stage ≠ .fresh := by
        intro hf
        have hlog := mem_of_mem_sinceLast hold
        apply hpast.actors e hlog c _ (.inl hf)
        unfold Event.byeTo at hbye
        split at hbye
        · simp only [decide_eq_true_eq] at hbye
          simp [Event.actors, hbye.2]
        · cases hbye
      rcases hm.unended hflag hfr with hflag' | hemp
      · rw [h.unended c hflag' e hold] at hbye
        cases hbye
      · rw [hemp] at he
        cases he
    · rw [hflag] at hmark
      cases hmark

/-- A newer offer, the join of a client that finds it too old, a `bye` that is not the client's
echo, the browser leaving, and the leaving of a client that is in session. -/
def Ends (cfg : Config) (ref : SessRef) (e : Buffered) (b : Broker) : Act → Prop
  | .go c now =>
    (b.conns c).ref = ref ∧
      match (b.conns c).role, (b.conns c).pc with
      | .browser, .forward _ f => f.typ = .offer
      | .client, .register _ => stale cfg.iceReplayMaxAge now e = true
      | .browser, .discardBye _ => True
      | .client, .discardBye echo => echo = false
      | .browser, .discardReplay _ _ => True
      | .client, .discardReplay _ _ => b.InSession c
      | _, _ => False
  | _ => False

instance (cfg : Config) (ref : SessRef) (e : Buffered) (b : Broker) (a : Act) :
    Decidable (Ends cfg ref e b a) := by
  unfold Ends
  casesm Act
  case go c now =>
    refine @instDecidableAnd _ _ inferInstance ?_
    generalize (b.conns c).role = role, (b.conns c).pc = pc
    casesm Role <;> casesm Pc <;> dsimp only <;> infer_instance
  all_goals exact instDecidableFalse

theorem Flagged.inSession (h : Flagged b) (hcap : Captured (b.conns c))
    {negotiated ended : Bool} (hpc : (b.conns c).pc = .discardReplay negotiated ended)
    (hgate : (negotiated && !ended) = true) : b.InSession c := by
  rw [Captured, hpc] at hcap
  simp only [hcap.1, hcap.2, Bool.and_eq_true, Bool.not_eq_true'] at hgate
  refine ⟨?_, h.unended c hgate.2⟩
  rcases h.negotiated c hgate.1 with hr | hr
  · rw [hpc] at hr
    cases hr
  · exact hr

theorem Move.offer_kept {a : Act} (hm : Move cfg b a b') (hwf : Wf b) (hcap : ∀ c, Captured (b.conns c))
    (hflag : Flagged b) (hends : ¬ Ends cfg ref e b a) (h : (b.heap ref).recent .browser .offer = some e) :
    (b'.heap ref).recent .browser .offer = some e := by
  have hs := hm.sess hwf ref
  generalize b'.heap ref = s' at hs
  cases hs with
  | same => exact h
  | @join c now first hc hpc =>
    cases hrole : (b.conns c).role with
    | browser => exact h
    | client =>
      -- the join throws out what is stale, and the offer is not
      simp only [Ends, hc, hrole, hpc, true_and, Bool.not_eq_true] at hends
      simp [expire, other, replayableTypes, h, hends, Option.filter]
  | @forward c now site f hc hpc =>
    cases hrole : (b.conns c).role with
    | browser =>
      -- each type has its own place in the buffer
      simp only [Ends, hc, hrole, hpc, true_and] at hends
      simp only [Session.forward, other]
      split
      · rwa [update_self, update_of_ne (Ne.symm hends)]
      · exact h
    | client =>
      simp only [Session.forward, other]
      split <;> exact h
  | @discardBye c now echo hc hpc =>
    cases hrole : (b.conns c).role with
    | browser => simp [Ends, hc, hrole, hpc] at hends
    | client =>
      -- what is left is an echo, which voids the client's buffer alone
      simp only [Ends, hc, hrole, hpc, true_and, Bool.not_eq_false] at hends
      simp [Session.discardReplay, hends, h]
  | unregister =>
    unfold Session.unregister
    split <;> exact h
  | @discardReplay c now negotiated ended hc hpc =>
    cases hrole : (b.conns c).role with
    | browser => simp [Ends, hc, hrole, hpc] at hends
    | client =>
      -- past the gate of the discard, the client is in session after all
      simp only [Ends, hc, hrole, hpc, true_and] at hends
      by_cases hgate : (negotiated && !ended) = true
      · exact absurd (hflag.inSession (hcap c) hpc hgate) hends
      · simp [Session.discardReplay, hgate, h]

theorem register_sends_offer {d : ConnId} {first : Option Frame} (now : Time)
    (hwf : Wf b) (hpc : (b.conns d).pc = .register first) (hrole : (b.conns d).role = .client)
    (hfree : (b.sess d).peers .client = none) (h : (b.sess d).recent .browser .offer = some e)
    (hfr : stale cfg.iceReplayMaxAge now e = false) :
    ((step cfg b (.go d now)).conns d).send.log.head? = some e.msg := by
  have hempty := hwf.unsent d (by simp [hpc, Pc.stage, Stage.early])
  rw [← hrole] at hfree
  rw [step_register now hpc hfree, Chan.pushAll_log, hempty, hrole]
  simp [due, freshSDP, replayableTypes, other, h, hfr, Option.filter, Chan.queued, sendBuffer]

def offerEntry (b : Broker) (c : ConnId) (now : Time) (f : Frame) : Buffered :=
  ⟨f.raw, now, ⟨c, f.typ, (b.sess c).seq⟩⟩

theorem forward_buffers_offer {now : Time} {site : Site} {f : Frame} (hpc : (b.conns c).pc = .forward site f)
    (hrole : (b.conns c).role = .browser) (htyp : f.typ = .offer) :
    ((step cfg b (.go c now)).heap (b.conns c).ref).recent .browser .offer = some (b.offerEntry c now f) := by
  rw [step_forward cfg now hpc]
  have hent : (((b.sess c).forward now (b.conns c).role.other f c).1).recent .browser .offer =
      some (b.offerEntry c now f) := by
    simp [Session.forward, hrole, htyp, isReplayable, replayableTypes, other, offerEntry]
  cases ht : (b.sess c).peers (b.conns c).role.other with
  | none =>
    rw [forward_missed now site f ht]
    simpa using hent
  | some =>
    rw [forward_found now site f ht, markTarget_eq]
    simpa using hent

theorem flagged_run (cfg : Config) (acts : List Act) : Flagged (runBroker cfg acts) := by
  have hinv : Sound (runBroker cfg acts) ∧ Flagged (runBroker cfg acts) := by
    apply invariant_runBroker cfg (fun b => Sound b ∧ Flagged b) ⟨sound_new, flagged_new⟩
    rintro b a b' hm ⟨hsnd, hflag⟩
    exact ⟨hsnd.move hm, hflag.move hm hsnd.past⟩
  exact hinv.2

theorem offer_kept_run {after : List Act} (hsnd : Sound b) (hflag : Flagged b)
    (h : (b.heap ref).recent .browser .offer = some e)
    (hok : Meets (step cfg) (fun b a => ¬ Ends cfg ref e b a) b after) :
    ((run (step cfg) b after).heap ref).recent .browser .offer = some e := by
  have hinv : ∀ b', b' = run (step cfg) b after → Flagged b' ∧ (b'.heap ref).recent .browser .offer = some e := by
    rintro b' rfl
    apply invariant_sound cfg (fun b a => ¬ Ends cfg ref e b a)
      (fun b => Flagged b ∧ (b.heap ref).recent .browser .offer = some e) _ hsnd ⟨hflag, h⟩ hok
    rintro b a b' hm hsnd hends ⟨hflag, h⟩
    exact ⟨hflag.move hm hsnd.past, hm.offer_kept hsnd.wf hsnd.captured hflag hends h⟩
  exact (hinv _ rfl).2

/-- The browser's offer stays buffered until a step ends it, and a client that registers
while it is buffered, and not too old, is sent it first. -/
theorem offer_kept_until_ended (cfg : Config) (before after : List Act) (c : ConnId) (now : Time)
    (site : Site) (f : Frame) (hpc : ((runBroker cfg before).conns c).pc = .forward site f)
    (hrole : ((runBroker cfg before).conns c).role = .browser) (htyp : f.typ = .offer)
    (hok : Meets (step cfg) (fun b a => ¬ Ends cfg ((runBroker cfg before).conns c).ref
      ((runBroker cfg before).offerEntry c now f) b a) (runBroker cfg (before ++ [.go c now])) after) :
    let ref := ((runBroker cfg before).conns c).ref
    let e := (runBroker cfg before).offerEntry c now f
    let b := runBroker cfg (before ++ .go c now :: after)
    (b.heap ref).recent .browser .offer = some e ∧
      ∀ d now' first, (b.conns d).pc = .register first → (b.conns d).ref = ref →
        (b.conns d).role = .client → (b.sess d).peers .client = none →
        stale cfg.iceReplayMaxAge now' e = false →
        ((step cfg b (.go d now')).conns d).send.log.head? = some e.msg := by
  intro ref e b
  have hstart : runBroker cfg (before ++ [.go c now]) = step cfg (runBroker cfg before) (.go c now) := by
    rw [runBroker, run_append]
    rfl
  have hend : b = run (step cfg) (runBroker cfg (before ++ [.go c now])) after := by
    rw [runBroker, ← run_append, append_assoc]
    rfl
  have hkept : (b.heap ref).recent .browser .offer = some e := by
    rw [hend]
    apply offer_kept_run (sound_run cfg _) (flagged_run cfg _) _ hok
    rw [hstart]
    exact forward_buffers_offer hpc hrole htyp
  refine ⟨hkept, ?_⟩
  intro d now' first hd href hclient hfree hfresh
  apply register_sends_offer now' (wf_run cfg _) hd hclient hfree _ hfresh
  rwa [sess, href]

def offerFrame : Frame := ⟨.offer, marshal EnvType.offer.name .browser none⟩

/-- The client has answered; the browser ends that session and is about to offer again. -/
def rearms : List Act :=
  joins 0 .browser ++ joins 1 .client ++ speaks 1 .answer .client ++ speaks 0 .bye .browser ++
    .frame 0 offerFrame.raw :: gos 0 3

/-- The old client closes its socket, and the next one finds the session. -/
def nextClient : List Act := gos 0 1 ++ .close 1 :: gos 1 8 ++ [dials 2 .client, .go 2 0]

theorem offer_kept_until_ended_rearm :
    let b := runBroker openConfig (rearms ++ .go 0 0 :: nextClient)
    .left 1 ∈ b.log ∧
      ((step openConfig b (.go 2 0)).conns 2).send.log.head? = some ⟨offerFrame.raw, some ⟨0, .offer, 4⟩⟩ := by
  have hpc : ((runBroker openConfig rearms).conns 0).pc = .forward .later offerFrame := by decide +kernel
  have hok : Meets (step openConfig) (fun b a => ¬ Ends openConfig
      ((runBroker openConfig rearms).conns 0).ref
      ((runBroker openConfig rearms).offerEntry 0 0 offerFrame) b a)
        (runBroker openConfig (rearms ++ [.go 0 0])) nextClient := by decide +kernel
  have hseq : (runBroker openConfig rearms).offerEntry 0 0 offerFrame =
      ⟨offerFrame.raw, 0, ⟨0, .offer, 4⟩⟩ := by decide +kernel
  obtain ⟨-, hnext⟩ := offer_kept_until_ended openConfig rearms nextClient 0 0 .later offerFrame
    hpc (by decide +kernel) rfl hok
  have hsent := hnext 2 0 (some ⟨.ice, hello .client⟩) (by decide +kernel) (by decide +kernel)
    (by decide +kernel) (by decide +kernel) (by decide +kernel)
  rw [hseq] at hsent
  exact ⟨by decide +kernel, hsent⟩

/-- The client has answered the first offer; the browser offers again. -/
def renegotiates : List Act :=
  joins 0 .browser ++ speaks 0 .offer .browser ++ joins 1 .client ++
    speaks 1 .answer .client ++ speaks 0 .offer .browser

/-- The client closes its socket, and its handler goes as far as the discard. -/
def departs : List Act := .close 1 :: gos 1 4

theorem renegotiated_offer_voided :
    let b := runBroker openConfig renegotiates
    let b' := runBroker openConfig (renegotiates ++ departs)
    (b.heap ⟨demo, 0⟩).recent .browser .offer = some ⟨offerFrame.raw, 0, ⟨0, .offer, 4⟩⟩ ∧
      (b'.heap ⟨demo, 0⟩).recent .browser .offer = none ∧
      .sent 1 .answer ∉ sinceLast (fun e => decide (e = .sent 0 .offer)) b'.log ∧
      ∀ e ∈ b'.log, e.byeTo 0 = false ∧ e.byeTo 1 = false ∧ e ≠ .ended 0 ∧ e ≠ .ended 1 ∧ e ≠ .left 0 := by
  decide +kernel

end Broker

end Chromeless.Signaling
