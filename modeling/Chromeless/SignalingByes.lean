import Chromeless.SignalingHistory

/-! How often a peer's `bye` reaches its counterpart. -/
namespace Chromeless.Signaling
open Function Json Conn
open History

def sdpFrom (p : ConnId) : Event → Bool
  | .sent c typ => decide (c = p ∧ (typ = .offer ∨ typ = .answer))
  | _ => false

def Pc.spent : Pc → Bool
  | .discardBye _ | .markSaidBye | .recordUnregistered | .dropIfEmpty | .done => true
  | _ => false

namespace Broker

def spell (b : Broker) (p : ConnId) : List Event := sinceLast (sdpFrom p) b.log

/-- A `bye` goes into a channel only when it is no first frame, its sender is not marked as having
said or been sent one, and its receiver's mark stands and is not about to be wiped. -/
def ByeInTurn (b : Broker) : Act → Prop
  | .go p _ =>
    match (b.conns p).pc with
    | .send site _ tag t => tag.typ = .bye → (b.conns t).send.queued < sendBuffer →
      site ≠ .first ∧
        (site = .later → (b.conns p).saidBye = false ∧ (b.conns p).byeReceived = false) ∧
        (b.conns t).byeReceived = true ∧ (b.conns t).pc.recording = false
    | _ => True
  | _ => True

instance (b : Broker) (a : Act) : Decidable (ByeInTurn b a) := by
  unfold ByeInTurn
  split
  · split <;> infer_instance
  · infer_instance

variable {cfg : Config} {b b' : Broker} {a : Act} {p t : ConnId}

theorem Move.mem_spell (hm : Move cfg b a b') {e : Event} (he : e ∈ b'.spell p) :
    e ∈ b.spell p ∨ NewEvent b a b' e := by
  unfold spell at he ⊢
  rcases hm.log with hlog | ⟨x, hlog, hnew⟩
  · rw [hlog] at he
    exact .inl he
  rw [hlog, sinceLast_concat] at he
  split at he
  · cases he
  rw [List.mem_append, List.mem_singleton] at he
  rcases he with he | rfl
  · exact .inl he
  · exact .inr hnew

theorem Move.recording (hm : Move cfg b a b') (h : (b'.conns p).pc.recording = true) :
    (b.conns p).pc.recording = true ∨ b'.spell p = [] := by
  cases hm with
  | @frame c raw f hpc hf =>
    by_cases hp : p = c
    · subst hp
      right
      have htyp : f.typ = .offer ∨ f.typ = .answer := by
        simp only [goto_eq, note_conns, setConn_conns, update_self] at h
        unfold handle at h
        split at h <;> rename_i htyp
        · exact .inl htyp
        · exact .inr htyp
        all_goals cases h
      unfold spell
      rw [note_log, sinceLast_concat, if_pos (by simp [sdpFrom, htyp])]
    · simp only [goto_eq, note_conns, setConn_conns, update_of_ne hp] at h
      exact .inl h
  | @localStep c now q hl =>
    left
    by_cases hp : p = c
    · subst hp
      rw [setConn_conns, update_self] at h
      cases hl with
      | peerPresent =>
        rw [forwardFirst_recording] at h
        cases h
      | markNegotiated hpc | clearSaidBye hpc =>
        rw [hpc]
        rfl
      | _ => cases h
    · rwa [setConn_conns, update_of_ne hp] at h
  | _ =>
    simp only [goto_eq, markTarget_eq, setConn_conns, setSess_conns, note_conns, update_apply, apply_ite pc] at h
    grind -ring -linarith [Pc.recording, Conn.new, forwardFirst_recording, afterForward_recording]

theorem Move.marks (hm : Move cfg b a b') (hfr : (b.conns p).pc.stage ≠ .fresh)
    (hrec : (b.conns p).pc.recording = false) :
    ((b.conns p).saidBye = true ∨ (b.conns p).pc.spent = true →
      (b'.conns p).saidBye = true ∨ (b'.conns p).pc.spent = true) ∧
    ((b.conns p).byeReceived = true → (b'.conns p).byeReceived = true) := by
  cases hm with
  | @localStep c now q hl =>
    by_cases hp : p = c
    · subst hp
      rw [setConn_conns, update_self]
      cases hl with
      | peerPresent hpc _ =>
        rw [hpc]
        refine ⟨?_, id⟩
        rintro (h | h)
        · exact .inl h
        · cases h
      | _ hpc =>
        rw [hpc] at hrec ⊢
        simp [Pc.recording, Pc.spent] at hrec ⊢
    · rw [setConn_conns, update_of_ne hp]
      exact ⟨id, id⟩
  | _ =>
    simp only [goto_eq, markTarget_eq, setConn_conns, setSess_conns, note_conns,
      update_apply, apply_ite pc, apply_ite saidBye,
      apply_ite byeReceived]
    grind -ring -linarith [Pc.recording, Pc.spent, Pc.stage]

structure Marked (b : Broker) : Prop where
  said : ∀ p t, .delivered p .bye t ∈ b.spell p → (b.conns p).saidBye = true ∨ (b.conns p).pc.spent = true
  heard : ∀ p c, .delivered c .bye p ∈ b.spell p → (b.conns p).byeReceived = true
  recording : ∀ p, (b.conns p).pc.recording = true →
    ∀ c, .delivered p .bye c ∉ b.spell p ∧ .delivered c .bye p ∉ b.spell p

theorem marked_new : Marked Broker.new where
  said := nofun
  heard := nofun
  recording := by
    intro p h
    cases h

theorem Past.delivered_not_fresh (h : Past b) {c : ConnId} {typ : EnvType} (hmem : .delivered c typ t ∈ b.spell p) :
    (b.conns c).pc.stage ≠ .fresh ∧ (b.conns t).pc.stage ≠ .fresh := by
  have hlog := mem_of_mem_sinceLast hmem
  constructor
  · intro hf
    exact h.actors _ hlog c (by simp [Event.actors]) (.inl hf)
  · intro hf
    exact h.actors _ hlog t (by simp [Event.actors]) (.inl hf)

theorem ByeInTurn.of_delivered (hok : ByeInTurn b a) (hnew : NewEvent b a b' (.delivered p .bye t)) :
    ∃ site raw tag, (b.conns p).pc = .send site raw tag t ∧
      (b'.conns p).pc = afterForward site .bye ∧ site ≠ .first ∧
      (site = .later → (b.conns p).saidBye = false ∧ (b.conns p).byeReceived = false) ∧
      (b.conns t).byeReceived = true ∧ (b.conns t).pc.recording = false := by
  cases hnew with
  | @delivered _ now site raw tag _ _ ha hpc htyp hroom hpc' =>
    rw [ha] at hok
    simp only [ByeInTurn, hpc] at hok
    exact ⟨site, raw, tag, hpc, hpc', hok htyp hroom⟩

theorem Marked.move (h : Marked b) (hm : Move cfg b a b') (hwf : Wf b) (hpast : Past b)
    (hok : ByeInTurn b a) : Marked b' where
  said := by
    intro p t hmem
    rcases hm.mem_spell hmem with hold | hnew
    · have hrec : (b.conns p).pc.recording = false := by
        by_contra hr
        exact (h.recording p (by simpa using hr) t).1 hold
      exact (hm.marks (hpast.delivered_not_fresh hold).1 hrec).1 (h.said p t hold)
    -- the handler goes on to note its `bye` down, unless it was a first frame
    obtain ⟨site, raw, tag, -, hpc', hsite, -⟩ := hok.of_delivered hnew
    right
    rw [hpc']
    cases site with
    | first => exact absurd rfl hsite
    | later => rfl
    | cleanup => rfl
  heard := by
    intro p c hmem
    rcases hm.mem_spell hmem with hold | hnew
    · have hrec : (b.conns p).pc.recording = false := by
        by_contra hr
        exact (h.recording p (by simpa using hr) c).2 hold
      exact (hm.marks (hpast.delivered_not_fresh hold).2 hrec).2 (h.heard p c hold)
    obtain ⟨site, raw, tag, hpc, -, -, -, hmark, hrec⟩ := hok.of_delivered hnew
    have hfr : (b.conns p).pc.stage ≠ .fresh := by
      intro hf
      exact (hwf.target c site raw tag p hpc).2.2 (.inl hf)
    exact (hm.marks hfr hrec).2 hmark
  recording := by
    -- the spell starts empty with the offer or answer, and the condition keeps it so
    intro p hrec c
    rcases hm.recording hrec with hrec' | hemp
    · obtain ⟨hfrom, hto⟩ := h.recording p hrec' c
      constructor
      · intro hmem
        rcases hm.mem_spell hmem with hold | hnew
        · exact hfrom hold
        obtain ⟨site, raw, tag, hpc, -⟩ := hok.of_delivered hnew
        rw [hpc] at hrec'
        cases hrec'
      · intro hmem
        rcases hm.mem_spell hmem with hold | hnew
        · exact hto hold
        obtain ⟨site, raw, tag, -, -, -, -, -, hrec⟩ := hok.of_delivered hnew
        rw [hrec] at hrec'
        cases hrec'
    · rw [hemp]
      simp

/-- Each delivered `bye` of the history comes in a spell in which its sender has neither
delivered nor been delivered one. -/
def OneBye (log : List Event) : Prop :=
  ∀ before after p t, log = before ++ .delivered p .bye t :: after →
    ∀ c, .delivered p .bye c ∉ sinceLast (sdpFrom p) before ∧ .delivered c .bye p ∉ sinceLast (sdpFrom p) before

theorem OneBye.concat {log : List Event} (h : OneBye log) (e : Event) (he : ∀ p t, e = .delivered p .bye t → ∀ c,
      .delivered p .bye c ∉ sinceLast (sdpFrom p) log ∧
        .delivered c .bye p ∉ sinceLast (sdpFrom p) log) : OneBye (log ++ [e]) := by
  intro before after p t hsp
  rcases concat_eq_split hsp with ⟨after', hold⟩ | ⟨rfl, hlast⟩
  · exact h before after' p t hold
  · exact he p t hlast.symm

theorem OneBye.move (h : OneBye b.log) (hm : Move cfg b a b') (hmkd : Marked b)
    (hcap : ∀ c, Captured (b.conns c)) (hok : ByeInTurn b a) : OneBye b'.log := by
  rcases hm.log with hlog | ⟨e, hlog, hnew⟩
  · rwa [hlog]
  rw [hlog]
  apply h.concat
  rintro p t rfl c
  obtain ⟨site, raw, tag, hpc, -, hsite, hlat, -⟩ := hok.of_delivered hnew
  -- neither mark stands, and the handler is not past its channel send
  have hflags : (b.conns p).saidBye = false ∧ (b.conns p).byeReceived = false := by
    cases site with
    | first => exact absurd rfl hsite
    | later => exact hlat rfl
    | cleanup =>
      have hp := hcap p
      rw [Captured, hpc] at hp
      exact ⟨hp.2.2.2, hp.2.2.1⟩
  constructor
  · intro hmem
    rcases hmkd.said p c hmem with hs | hs
    · rw [hflags.1] at hs
      cases hs
    · rw [hpc] at hs
      cases hs
  · intro hmem
    have hs := hmkd.heard p c hmem
    rw [hflags.2] at hs
    cases hs

/-- As long as every `bye` is sent in its turn, a peer that has delivered one, or been
delivered one, delivers none until it has sent an offer or an answer. -/
theorem bye_once_per_negotiation (cfg : Config) (acts : List Act)
    (hok : Runs.Meets (step cfg) ByeInTurn Broker.new acts) :
    OneBye (runBroker cfg acts).log := by
  have hinv : Marked (runBroker cfg acts) ∧ OneBye (runBroker cfg acts).log := by
    apply invariant_sound cfg ByeInTurn (fun b => Marked b ∧ OneBye b.log) _ sound_new _ hok
    · rintro b a b' hm hsound hcond ⟨hmarked, hone⟩
      exact ⟨hmarked.move hm hsound.wf hsound.past hcond, hone.move hm hmarked hsound.captured hcond⟩
    refine ⟨marked_new, ?_⟩
    intro before after p t h
    cases before <;> cases h
  exact hinv.2

/-- The client answers and says `bye`, twice over. -/
def hangsUpTwice : List Act :=
  joins 0 .browser ++ joins 1 .client ++ speaks 1 .answer .client ++ speaks 1 .bye .client ++
    speaks 1 .answer .client ++ speaks 1 .bye .client

theorem bye_once_per_negotiation_twice :
    let log := (runBroker openConfig hangsUpTwice).log
    .delivered 1 .bye 0 ∈ log.take 20 ∧ .delivered 1 .bye 0 ∉ sinceLast (sdpFrom 1) (log.take 20) := by
  have hok : Runs.Meets (step openConfig) ByeInTurn Broker.new hangsUpTwice := by decide +kernel
  have hsplit : (runBroker openConfig hangsUpTwice).log =
      (runBroker openConfig hangsUpTwice).log.take 20 ++ .delivered 1 .bye 0 ::
        (runBroker openConfig hangsUpTwice).log.drop 21 := by decide +kernel
  have hfirst : .delivered 1 .bye 0 ∈ (runBroker openConfig hangsUpTwice).log.take 20 := by decide +kernel
  exact ⟨hfirst, (bye_once_per_negotiation openConfig hangsUpTwice hok _ _ 1 0 hsplit 0).1⟩

/-- Both peers say `bye`, and each handler looks for the other's before either is sent. -/
def byesCross : List Act :=
  joins 0 .browser ++ joins 1 .client ++ [.frame 0 (marshal EnvType.bye.name .browser none),
    .frame 1 (marshal EnvType.bye.name .client none)] ++ gos 0 1 ++ gos 1 1 ++ gos 0 4 ++ gos 1 4

def byesRepeat : List Act :=
  joins 0 .browser ++ joins 1 .client ++ speaks 1 .bye .client ++ speaks 1 .bye .client

/-- The browser is delivered a `bye` of a client that was delivered the browser's own, and a second
`bye` of a client that has sent nothing else since the first. -/
theorem byes_cross_and_repeat :
    ¬ OneBye (runBroker openConfig byesCross).log ∧ ¬ OneBye (runBroker openConfig byesRepeat).log := by
  constructor
  · intro h
    have hsplit : (runBroker openConfig byesCross).log =
        (runBroker openConfig byesCross).log.take 12 ++ .delivered 1 .bye 0 ::
          (runBroker openConfig byesCross).log.drop 13 := by decide +kernel
    have hheard : .delivered 0 .bye 1 ∈
        sinceLast (sdpFrom 1) ((runBroker openConfig byesCross).log.take 12) := by
      decide +kernel
    exact (h _ _ 1 0 hsplit 0).2 hheard
  · intro h
    have hsplit : (runBroker openConfig byesRepeat).log =
        (runBroker openConfig byesRepeat).log.take 12 ++ .delivered 1 .bye 0 ::
          (runBroker openConfig byesRepeat).log.drop 13 := by decide +kernel
    have hsaid : .delivered 1 .bye 0 ∈
        sinceLast (sdpFrom 1) ((runBroker openConfig byesRepeat).log.take 12) := by
      decide +kernel
    exact (h _ _ 1 0 hsplit 0).1 hsaid

end Broker

end Chromeless.Signaling
