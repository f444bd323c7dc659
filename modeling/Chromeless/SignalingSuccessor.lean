import Chromeless.SignalingHistory

/-! A peer's cleanup against the peer that takes its place. -/
namespace Chromeless.Signaling
open Function Json Conn Pc Broker
open History

def Pc.voiding : Pc → Bool
  | .didNegotiate | .didReceiveBye _ | .discardReplay _ _ => true
  | _ => false

def Pc.announcing : Pc → Bool
  | .didNegotiate | .didReceiveBye _ | .discardReplay _ _ | .checkShutdown _ _ | .didSayBye
  | .forward .cleanup _ | .send .cleanup _ _ _ => true
  | _ => false

def Conn.owesBye (p : Conn) : Bool := p.negotiated && !p.byeReceived && !p.saidBye

namespace Broker

/-- `q` registered for the role and session object of `p`, after `p` had unregistered. -/
structure Successor (b : Broker) (p q : ConnId) : Prop where
  order : Precedes (.left p) (.joined q) b.log
  role : (b.conns q).role = (b.conns p).role
  ref : (b.conns q).ref = (b.conns p).ref

def departed (b : Broker) : List ConnId :=
  b.log.filterMap fun e => match e with
    | .left c => some c
    | _ => none

theorem mem_departed {b : Broker} {c : ConnId} : c ∈ b.departed ↔ .left c ∈ b.log := by
  unfold departed
  rw [List.mem_filterMap]
  constructor
  · rintro ⟨e, he, hc⟩
    split at hc
    · rwa [Option.some.inj hc] at he
    · cases hc
  · intro h
    exact ⟨_, h, rfl⟩

/-- A frame is forwarded only when no peer that has left the same slot is still to discard
the buffer that keeps it, or to send a `bye` to a counterpart that is being offered to. -/
def Undisturbed (b : Broker) : Act → Prop
  | .go q _ =>
    match (b.conns q).pc with
    | .forward _ f => ∀ p ∈ b.departed,
      (b.conns p).role = (b.conns q).role → (b.conns p).ref = (b.conns q).ref →
        (f.Kept → (b.conns p).pc.voiding = false) ∧
        ((f.typ = .offer ∨ f.typ = .answer) →
          (b.sess q).peers (b.conns q).role.other ≠ none →
          ¬ ((b.conns p).pc.announcing = true ∧ (b.conns p).owesBye = true))
    | _ => True
  | _ => True

instance (b : Broker) (a : Act) : Decidable (Undisturbed b a) := by
  unfold Undisturbed
  casesm Act
  case go q now =>
    dsimp only
    generalize (b.conns q).pc = pc
    casesm Pc
    case forward site f =>
      -- spelt out: which instance is found for an implication depends on what is imported
      refine @List.decidableBAll _ _ (fun p => ?_) _
      exact @instDecidableForall _ _ inferInstance (@instDecidableForall _ _ inferInstance
        (@instDecidableAnd _ _ (@instDecidableForall _ _ inferInstance inferInstance)
          (@instDecidableForall _ _ inferInstance (@instDecidableForall _ _ inferInstance inferInstance))))
    all_goals exact instDecidableTrue
  all_goals exact instDecidableTrue

theorem afterForward_voiding (site : Site) (typ : EnvType) :
    (afterForward site typ).voiding = false := by
  fun_cases afterForward <;> rfl

theorem afterForward_announcing (site : Site) (typ : EnvType) :
    (afterForward site typ).announcing = false := by
  fun_cases afterForward <;> rfl

variable {cfg : Config} {b b' : Broker}

theorem Move.departed {a : Act} (hm : Move cfg b a b') (hwf : Wf b)
    {p : ConnId} (h : (b.conns p).pc.stage = .leaving ∨ (b.conns p).pc.stage = .done) :
    ((b'.conns p).pc.voiding = true → (b.conns p).pc.voiding = true) ∧
      ((b'.conns p).pc.announcing = true → (b.conns p).pc.announcing = true) ∧
      (b'.conns p).owesBye = (b.conns p).owesBye := by
  cases hm with
  | @localStep c now q hl =>
    by_cases hp : p = c
    · subst hp
      cases hl with
      | _ hpc =>
        rw [hpc] at h ⊢
        simp [stage, voiding, announcing, owesBye] at h ⊢
    · rw [setConn_conns, update_of_ne hp]
      exact ⟨id, id, rfl⟩
  | @forward c now site f t hpc ht =>
    -- the peer that is marked is still in its slot
    have hpt : p ≠ t := by
      intro he
      rw [he, (hwf.slot _ _ _ ht).2.2] at h
      rcases h with h | h <;> cases h
    simp only [goto_eq, markTarget_eq, setConn_conns, note_conns, setSess_conns]
    by_cases hp : p = c
    · subst hp
      rw [update_self, update_of_ne hpt]
      rw [hpc] at h ⊢
      cases site <;> simp [stage, Site.stage, voiding, announcing, owesBye] at h ⊢
    · rw [update_of_ne hp, update_of_ne hpt]
      exact ⟨id, id, rfl⟩
  | _ =>
    simp only [goto_eq, setConn_conns, setSess_conns, note_conns, update_apply, apply_ite Conn.pc, apply_ite owesBye]
    grind -ring -linarith [stage, Site.stage, voiding, announcing, owesBye, afterForward_voiding,
      afterForward_announcing]

theorem Successor.of_move {a : Act} {p q : ConnId} (h : Successor b' p q) (hm : Move cfg b a b') (hpast : Past b) :
    .left p ∈ b.log ∧ (Successor b p q ∨ ∃ now first, a = .go q now ∧ (b.conns q).pc = .register first) := by
  have hleft : .left p ∈ b.log → (b.conns p).pc.stage ≠ .fresh := by
    intro hp
    rcases hpast.left p hp with hs | hs <;> simp [hs]
  have hback : Precedes (.left p) (.joined q) b.log → Successor b p q := by
    intro ho
    have hq : (b.conns q).pc.stage ≠ .fresh := by
      intro hf
      exact hpast.actors _ ho.right_mem q (by simp [Event.actors]) (.inl hf)
    obtain ⟨hprole, hpref⟩ := hm.identity p (hleft ho.left_mem)
    obtain ⟨hqrole, hqref⟩ := hm.identity q hq
    exact ⟨ho, by rw [← hprole, ← hqrole, h.role], by rw [← hpref, ← hqref, h.ref]⟩
  have hord := h.order
  rcases hm.log with hlog | ⟨e, hlog, hnew⟩
  · rw [hlog] at hord
    exact ⟨hord.left_mem, .inl (hback hord)⟩
  rw [hlog, precedes_concat] at hord
  rcases hord with ho | ⟨hp, rfl⟩
  · exact ⟨ho.left_mem, .inl (hback ho)⟩
  · cases hnew with
    | @joined _ now first ha hpc => exact ⟨hp, .inr ⟨now, first, ha, hpc⟩⟩

structure Unspoken (b : Broker) : Prop where
  held : ∀ p q ref role e, Successor b p q → (b.conns p).pc.voiding = true → (b.heap ref).Holds role e → e.tag.src ≠ q
  told : ∀ p q typ t, Successor b p q → (b.conns p).pc.announcing = true →
    (b.conns p).owesBye = true → typ = .offer ∨ typ = .answer →
    .forwarded q typ (some t) ∉ b.log

theorem unspoken_new : Unspoken new where
  held := fun _ _ _ _ e _ _ he => absurd he (Session.holds_new _ e)
  told := by
    intro p q typ t _ _ _ _ h
    cases h

theorem Unspoken.move {a : Act} (h : Unspoken b)
    (hm : Move cfg b a b') (hwf : Wf b) (hpast : Past b) (hok : Undisturbed b a) :
    Unspoken b' where
  held := by
    intro p q ref role e hsucc hvoid he hsrc
    obtain ⟨hp, hcase⟩ := hsucc.of_move hm hpast
    have hvoid' := (hm.departed hwf (hpast.left p hp)).1 hvoid
    rcases hcase with hs | ⟨now, first, ha, hpc⟩
    · rcases (hm.sess hwf ref).holds he with he | ⟨now, site, f, ha, hr, hpc, hkept⟩
      · exact h.held p q ref role e hs hvoid' he hsrc
      -- the entry is new: the schedule has the predecessor finish first
      rw [hsrc] at ha hpc
      rw [ha] at hok
      simp only [Undisturbed, hpc] at hok
      have hdone := (hok p (mem_departed.mpr hp) hs.role.symm hs.ref.symm).1 hkept
      rw [hdone] at hvoid'
      cases hvoid'
    · -- a peer that is only registering has sent nothing yet
      rcases (hm.sess hwf ref).holds he with he | ⟨now', site, f, -, -, hpc', -⟩
      · have hear := hpast.held ref role e he
        rw [hsrc, hpc] at hear
        exact hear (.inr rfl)
      · rw [hsrc, hpc] at hpc'
        cases hpc'
  told := by
    intro p q typ t hsucc hann howes htyp hmem
    obtain ⟨hp, hcase⟩ := hsucc.of_move hm hpast
    obtain ⟨-, hann', howes'⟩ := hm.departed hwf (hpast.left p hp)
    rcases hm.mem_log hmem with hold | hnew
    · rcases hcase with hs | ⟨now, first, ha, hpc⟩
      · exact h.told p q typ t hs (hann' hann) (howes' ▸ howes) htyp hold
      · have hear := hpast.actors _ hold q (by simp [Event.actors])
        rw [hpc] at hear
        exact hear (.inr rfl)
    cases hnew with
    | @forwarded _ now site f _ _ ha hpc htf ht =>
      rcases hcase with hs | ⟨now', first, -, hpc'⟩
      · rw [ha] at hok
        simp only [Undisturbed, hpc] at hok
        apply (hok p (mem_departed.mpr hp) hs.role.symm hs.ref.symm).2
        · rwa [htf]
        · rw [ht]
          simp
        · exact ⟨hann' hann, howes' ▸ howes⟩
      · rw [hpc] at hpc'
        cases hpc'

theorem unspoken_run {acts : List Act}
    (hok : Runs.Meets (step cfg) Undisturbed new acts) : Unspoken (runBroker cfg acts) := by
  apply invariant_sound cfg Undisturbed Unspoken _ sound_new unspoken_new hok
  intro b a b' hm hsnd hcond h
  exact h.move hm hsnd.wf hsnd.past hcond

theorem holds_forward_bye (s : Session) (now : Time) (r role : Role) (f : Frame) (src : ConnId)
    (e : Buffered) (hf : f.typ = .bye) :
    (s.forward now r f src).1.Holds role e ↔ s.Holds role e := by
  simp [Session.Holds, Session.forward, hf, isReplayable, replayableTypes]

/-- As long as no frame of a successor is forwarded before its predecessor has done with the buffer
or the counterpart, no step of a peer that has left removes what a successor has buffered, and no
`bye` of it reaches a counterpart that a successor has offered or answered to. -/
theorem successor_undisturbed (cfg : Config) (acts : List Act) (hok : Runs.Meets (step cfg) Undisturbed new acts)
    (p q : ConnId) (now : Time) (hsucc : Successor (runBroker cfg acts) p q) :
    let b := runBroker cfg acts
    let b' := step cfg b (.go p now)
    (∀ ref role e, (b.heap ref).Holds role e → e.tag.src = q → (b'.heap ref).Holds role e) ∧
      ∀ t, b'.log = b.log ++ [.delivered p .bye t] →
        ∀ typ, typ = .offer ∨ typ = .answer → .forwarded q typ (some t) ∉ b.log := by
  intro b b'
  have hsound : Sound b := sound_run cfg acts
  have hcap := hsound.captured p
  have hun : Unspoken b := unspoken_run hok
  have hjoined : (b.conns p).pc.stage ≠ .joining ∧ (b.conns p).pc.stage ≠ .joined := by
    rcases hsound.past.left p hsucc.order.left_mem with h | h <;> simp [h]
  rcases step_move cfg b (.go p now) with hsame | hm
  · have hb' : b' = b := hsame
    rw [hb']
    refine ⟨fun _ _ _ he _ => he, ?_⟩
    intro t hlog
    simp at hlog
  constructor
  · intro ref role e he hsrc
    have hs := hm.sess hsound.wf ref
    generalize b'.heap ref = s' at hs
    -- what a peer that has left can still do to its session object
    cases hs with
    | same => exact he
    | join _ hpc =>
      rw [hpc] at hjoined
      exact absurd rfl hjoined.1
    | @forward _ _ site f _ hpc =>
      cases site with
      | cleanup =>
        rw [Captured, hpc] at hcap
        exact (holds_forward_bye _ _ _ _ _ _ _ hcap.1).mpr he
      | first | later =>
        rw [hpc] at hjoined
        exact absurd rfl hjoined.2
    | discardBye _ hpc | unregister _ hpc =>
      rw [hpc] at hjoined
      exact absurd rfl hjoined.2
    | discardReplay _ hpc =>
      -- nothing of a successor is there yet to be discarded
      have hvoid : (b.conns p).pc.voiding = true := by
        rw [hpc]
        rfl
      exact absurd hsrc (hun.held p q ref role e hsucc hvoid he)
  · intro t hlog typ htyp
    have hnew : NewEvent b (.go p now) b' (.delivered p .bye t) := by
      rcases hm.log with hlog' | ⟨e, hlog', hnew⟩
      · rw [hlog'] at hlog
        simp at hlog
      · rw [hlog', List.append_cancel_left_eq, List.singleton_inj] at hlog
        rwa [hlog] at hnew
    cases hnew with
    | @delivered _ now' site raw tag _ _ ha hpc =>
      -- only the synthesised frame is sent after the slot is given up
      cases site with
      | cleanup =>
        rw [Captured, hpc] at hcap
        apply hun.told p q typ t hsucc _ _ htyp
        · rw [hpc]
          rfl
        · simp [owesBye, hcap.2]
      | first | later =>
        rw [hpc] at hjoined
        exact absurd rfl hjoined.2

instance (b : Broker) (p q : ConnId) : Decidable (Successor b p q) :=
  decidable_of_iff (Precedes (.left p) (.joined q) b.log ∧
    (b.conns q).role = (b.conns p).role ∧ (b.conns q).ref = (b.conns p).ref)
    ⟨fun h => ⟨h.1, h.2.1, h.2.2⟩, fun h => ⟨h.order, h.role, h.ref⟩⟩

/-- Client 1 answers the browser and closes its socket. -/
def vanishes : List Act :=
  joins 0 .browser ++ joins 1 .client ++ speaks 1 .answer .client ++ [.close 1]

def clientCandidate : Bytes := marshal (ascii "ice") .client (some (.str (ascii "candidate")))

/-- Client 1 has discarded; client 2 takes its place and sends a candidate. -/
def takesOver : List Act :=
  vanishes ++ gos 1 4 ++ joins 2 .client ++ .frame 2 clientCandidate :: gos 2 2

theorem successor_undisturbed_candidate :
    let b := runBroker openConfig takesOver
    Successor b 1 2 ∧ (b.conns 1).pc = .checkShutdown true false ∧
      ((step openConfig b (.go 1 0)).heap ⟨demo, 0⟩).Holds .client
        ⟨clientCandidate, 0, ⟨2, .ice, 4⟩⟩ := by
  have hok : Runs.Meets (step openConfig) Undisturbed new takesOver := by decide +kernel
  have hsucc : Successor (runBroker openConfig takesOver) 1 2 := by decide +kernel
  have hpc : ((runBroker openConfig takesOver).conns 1).pc = .checkShutdown true false := by decide +kernel
  have hheld : ((runBroker openConfig takesOver).heap ⟨demo, 0⟩).Holds .client
      ⟨clientCandidate, 0, ⟨2, .ice, 4⟩⟩ := by
    right
    decide +kernel
  exact ⟨hsucc, hpc, (successor_undisturbed _ _ hok 1 2 0 hsucc).1 _ _ _ hheld rfl⟩

/-- Client 1 has unregistered and done nothing else; client 2 takes its place and answers. -/
def answersEarly : List Act :=
  vanishes ++ gos 1 1 ++ joins 2 .client ++ speaks 2 .answer .client

theorem predecessor_voids_answer :
    let b := runBroker openConfig answersEarly
    let b' := Runs.run (step openConfig) b (gos 1 7)
    Successor b 1 2 ∧
      ((b.heap ⟨demo, 0⟩).recent .client .answer).map (fun e => e.tag.src) = some 2 ∧
      (b'.heap ⟨demo, 0⟩).recent .client .answer = none ∧
      .forwarded 2 .answer (some 0) ∈ b.log ∧ .delivered 1 .bye 0 ∉ b.log ∧
      .delivered 1 .bye 0 ∈ b'.log := by
  decide +kernel

end Broker

end Chromeless.Signaling
