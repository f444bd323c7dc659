import Chromeless.SignalingInvariant

/-! The first frame of a connection against a later one. -/
namespace Chromeless.Signaling
open Function Json Runs List

theorem readFrame_of_firstFrame {raw : Bytes} {role : Role} {f : Frame}
    (h : firstFrame raw = some (role, some f)) : readFrame role f.raw = some f := by
  unfold firstFrame at h
  split at h
  · cases h
  rename_i env henv
  simp only [Option.map_eq_some_iff, Prod.mk.injEq] at h
  obtain ⟨r, hr, rfl, typ, ht, rfl⟩ := h
  have hsdr := (Role.ofName_eq_some _ _).mp hr
  simp [readFrame, henv, ht, hsdr]

def Pc.opening : Pc → Option (Option Frame)
  | .getOrCreate first | .register first | .recordRegistered first | .peerPresent first
  | .advise first => some first
  | .forward .first f => some (some f)
  | _ => none

namespace Broker

def Opening (b : Broker) : Prop :=
  ∀ c first, (b.conns c).pc.opening = some first →
    (b.conns c).negotiated = false ∧ (b.conns c).saidBye = false ∧
      ∀ f, first = some f → readFrame (b.conns c).role f.raw = some f

variable {cfg : Config} {f : Frame} {b : Broker} {c : ConnId}

theorem accept_first {now : Time} {d : Dial} {role : Role} {key : SessionKey}
    (h : accept cfg now d = some (role, key, some f)) : readFrame role f.raw = some f :=
  readFrame_of_firstFrame (accept_some h).2

theorem opening_forwardFirst (first : Option Frame) {first' : Option Frame}
    (h : (forwardFirst first).opening = some first') : first' = first := by
  cases first with
  | none => cases h
  | some => exact (Option.some.inj h).symm

theorem handle_opening (f : Frame) : (handle f).opening = none := by
  unfold handle
  split <;> rfl

theorem afterForward_opening (site : Site) (typ : EnvType) :
    (afterForward site typ).opening = none := by
  fun_cases afterForward <;> rfl

theorem Move.opening {b' : Broker} {a : Act} (hm : Move cfg b a b') (h : Opening b) :
    Opening b' := by
  have hset : ∀ c p, (∀ first, p.pc.opening = some first → p.negotiated = false ∧ p.saidBye = false ∧
      ∀ f, first = some f → readFrame p.role f.raw = some f) → Opening (b.setConn c p) := by
    intro c p hp d
    rw [setConn_conns, update_apply]
    split
    exacts [hp, h d]
  cases hm with
  | @dial c now d role key first hpc hacc =>
    refine hset c _ fun first' hopen => ⟨rfl, rfl, ?_⟩
    intro f hf
    simp only [Conn.new, Pc.opening, Option.some.injEq] at hopen
    rw [hopen, hf] at hacc
    exact accept_first hacc
  | @localStep c now p hl =>
    apply hset
    intro first hopen
    cases hl with
    | peerPresent hpc _ =>
      have hfst := opening_forwardFirst _ hopen
      exact h c first (by rw [hpc, hfst]; rfl)
    | recordRegistered hpc | peerAbsent hpc => exact h c first (by rw [hpc]; exact hopen)
    | _ => cases hopen
  | @advise c now first hpc =>
    apply hset
    intro first' hopen
    have hfst := opening_forwardFirst _ hopen
    exact h c first' (by rw [hpc, hfst]; rfl)
  | _ =>
    intro d first hopen
    simp only [goto_eq, markTarget_eq, setConn_conns, setSess_conns, note_conns,
      update_apply, apply_ite Conn.pc, apply_ite Conn.negotiated,
      apply_ite Conn.saidBye, apply_ite Conn.role] at hopen ⊢
    grind -ring -linarith [Pc.opening, Opening, handle_opening, afterForward_opening]

theorem opening_run (cfg : Config) (acts : List Act) : Opening (runBroker cfg acts) := by
  apply invariant_runBroker cfg Opening
  · nofun
  · intro b a b' hm h
    exact hm.opening h

/-- A connection works the frame at hand off, undisturbed. Five steps are enough, and
further ones do nothing. -/
def finish (cfg : Config) (now : Time) (c : ConnId) (b : Broker) : Broker :=
  run (step cfg) b (replicate 5 (.go c now))

def asFirst (cfg : Config) (now : Time) (c : ConnId) (b : Broker) : Broker := finish cfg now c b

/-- The same frame, read from the same connection after a first frame that only named its
role. -/
def asLater (cfg : Config) (now : Time) (c : ConnId) (f : Frame) (b : Broker) : Broker :=
  finish cfg now c (step cfg (b.goto c .reading) (.frame c f.raw))

/-- The same messages in every channel, the same replay buffers, the same flags. -/
structure SameEffect (b b' : Broker) : Prop where
  channels : ∀ d, (b.conns d).send.log = (b'.conns d).send.log
  buffers : ∀ ref, (b.heap ref).recent = (b'.heap ref).recent ∧ (b.heap ref).recentICE = (b'.heap ref).recentICE
  negotiated : ∀ d, (b.conns d).negotiated = (b'.conns d).negotiated
  saidBye : ∀ d, (b.conns d).saidBye = (b'.conns d).saidBye
  byeReceived : ∀ d, (b.conns d).byeReceived = (b'.conns d).byeReceived

def forwardedConns (b : Broker) (c : ConnId) (f : Frame) : ConnId → Conn :=
  let conns := match (b.sess c).peers (b.conns c).role.other with
    | none => b.conns
    | some t => update b.conns t { b.conns t with
        byeReceived := (b.conns t).byeReceived || decide (f.typ = .bye)
        send := (b.conns t).send.push sendBuffer ⟨f.raw, some ⟨c, f.typ, (b.sess c).seq⟩⟩ }
  update conns c { b.conns c with pc := .reading }

theorem run_forward (cfg : Config) {site : Site} (now : Time) (hpc : (b.conns c).pc = .forward site f)
    (haft : afterForward site f.typ = .reading) (hself : (b.sess c).peers (b.conns c).role.other ≠ some c) (n : ℕ) :
    let b' := run (step cfg) b (replicate (n+2) (.go c now))
    b'.conns = forwardedConns b c f ∧ b'.heap = update b.heap (b.conns c).ref
      ((b.sess c).forward now (b.conns c).role.other f c).1 := by
  intro b'
  have hb' : b' = run (step cfg) (step cfg b (.go c now)) (replicate (n+1) (.go c now)) := rfl
  rw [hb', step_forward cfg now hpc]
  cases ht : (b.sess c).peers (b.conns c).role.other with
  | none =>
    rw [forward_missed now site f ht, haft, run_reading cfg now (by simp) (n+1)]
    simp [forwardedConns, ht]
  | some t =>
    have htc : t ≠ c := by
      intro he
      rw [he] at ht
      exact hself ht
    rw [forward_found now site f ht, replicate_succ, run_cons]
    set b₁ := (((b.setSess (b.conns c).ref
      ((b.sess c).forward now (b.conns c).role.other f c).1).note
        (.forwarded c f.typ (some t))).markTarget f.typ t).goto c
          (.send site f.raw ⟨c, f.typ, (b.sess c).seq⟩ t) with hb₁
    have hsend : (b₁.conns c).pc = .send site f.raw ⟨c, f.typ, (b.sess c).seq⟩ t := by simp [hb₁]
    have hcs : (b₁.send c site f.raw ⟨c, f.typ, (b.sess c).seq⟩ t).conns = forwardedConns b c f := by
      funext d
      rw [send_conns]
      simp only [hb₁, forwardedConns, ht, haft, markTarget_eq, goto_eq, setConn_conns, note_conns, setSess_conns]
      by_cases hdc : d = c
      · subst hdc
        simp [update_of_ne htc.symm]
      by_cases hdt : d = t
      · subst hdt
        simp [update_of_ne hdc]
      · simp [update_of_ne hdc, update_of_ne hdt]
    rw [step_send cfg now hsend, run_reading cfg now _ n]
    · refine ⟨hcs, ?_⟩
      rw [send_heap, hb₁, markTarget_eq]
      rfl
    · rw [hcs, forwardedConns]
      simp

theorem step_frame (hread : readFrame (b.conns c).role f.raw = some f) :
    step cfg (b.goto c .reading) (.frame c f.raw) = (b.goto c (handle f)).note (.sent c f.typ) := by
  have hrole : ((b.goto c .reading).conns c).role = (b.conns c).role := by simp
  have hpc : ((b.goto c .reading).conns c).pc = .reading := by simp
  have hgoto : (b.goto c .reading).goto c (handle f) = b.goto c (handle f) := by simp [setConn]
  simp only [step, hpc, hrole, hread, hgoto]

theorem sameEffect_of_plain (now : Time) (hpc : (b.conns c).pc = .forward .first f)
    (hread : readFrame (b.conns c).role f.raw = some f) (hself : (b.sess c).peers (b.conns c).role.other ≠ some c)
    (hpl : handle f = .forward .later f) (hbye : f.typ ≠ .bye) :
    SameEffect (asFirst cfg now c b) (asLater cfg now c f b) := by
  set b₁ := (b.goto c (.forward .later f)).note (.sent c f.typ) with hb₁
  have hconn : b₁.conns = update b.conns c
      { b.conns c with pc := .forward .later f } := rfl
  have hconnc : b₁.conns c = { b.conns c with pc := .forward .later f } := by simp [hconn]
  have hsess : b₁.sess c = b.sess c := by
    rw [sess, hconnc]
    rfl
  have hlat : asLater cfg now c f b = finish cfg now c b₁ := by rw [asLater, step_frame hread, hpl]
  -- both ways end in the same call of `forward`
  obtain ⟨hc, hh⟩ := run_forward cfg now hpc rfl hself 3
  obtain ⟨hc₁, hh₁⟩ := run_forward cfg (b := b₁) now (by rw [hconnc])
    (by simp [afterForward, hbye]) (by rw [hsess, hconnc]; exact hself) 3
  have hcs : forwardedConns b₁ c f = forwardedConns b c f := by
    unfold forwardedConns
    rw [hsess, hconnc]
    cases ht : (b.sess c).peers (b.conns c).role.other with
    | none => simp [hconn, update_idem]
    | some t =>
      have htc : t ≠ c := by
        intro he
        rw [he] at ht
        exact hself ht
      simp only [hconn, update_of_ne htc]
      rw [update_comm htc, update_idem]
      exact update_comm htc.symm _ _ _
  have hheap : (finish cfg now c b₁).heap = (finish cfg now c b).heap := by
    rw [finish, finish, hh, hh₁, hsess, hconnc]
    rfl
  have hall : (finish cfg now c b₁).conns = (finish cfg now c b).conns := by rw [finish, finish, hc, hc₁, hcs]
  rw [hlat, asFirst]
  refine ⟨?_, ?_, ?_, ?_, ?_⟩
  · intro d
    rw [hall]
  · intro ref
    rw [hheap]
    exact ⟨rfl, rfl⟩
  all_goals
    intro d
    rw [hall]

theorem asFirst_flags (cfg : Config) (now : Time) (hpc : (b.conns c).pc = .forward .first f)
    (hself : (b.sess c).peers (b.conns c).role.other ≠ some c) :
    ((asFirst cfg now c b).conns c).negotiated = (b.conns c).negotiated ∧
      ((asFirst cfg now c b).conns c).saidBye = (b.conns c).saidBye := by
  obtain ⟨hc, -⟩ := run_forward cfg now hpc rfl hself 3
  rw [asFirst, finish, hc, forwardedConns]
  simp

theorem asLater_negotiated (cfg : Config) (now : Time) (hread : readFrame (b.conns c).role f.raw = some f)
    (hself : (b.sess c).peers (b.conns c).role.other ≠ some c) (hsdp : handle f = .markNegotiated f)
    (hbye : f.typ ≠ .bye) : ((asLater cfg now c f b).conns c).negotiated = true := by
  set b₁ := (b.goto c (.markNegotiated f)).note (.sent c f.typ) with hb₁
  set b₂ := b₁.setConn c { b₁.conns c with negotiated := true, pc := .clearSaidBye f } with hb₂
  set b₃ := b₂.setConn c { b₂.conns c with saidBye := false, pc := .clearByeReceived f } with hb₃
  set b₄ := (b₃.setConn c { b₃.conns c with
    byeReceived := false, pc := .forward .later f }).note (.recorded c) with hb₄
  have h₁ : step cfg b₁ (.go c now) = b₂ := by
    apply step_local
    simp [hb₁, localStep]
  have h₂ : step cfg b₂ (.go c now) = b₃ := by
    apply step_local
    simp [hb₂, localStep]
  have h₃ : step cfg b₃ (.go c now) = b₄ := step_record cfg now (by simp [hb₃])
  have hrun : asLater cfg now c f b = run (step cfg) b₄ (replicate 2 (.go c now)) := by
    rw [asLater, step_frame hread, hsdp, finish, ← h₃, ← h₂, ← h₁]
    rfl
  have hconn : b₄.conns c = { b.conns c with
      negotiated := true, saidBye := false, byeReceived := false, pc := .forward .later f } := by
    simp [hb₄, hb₃, hb₂, hb₁]
  have hsess : b₄.sess c = b.sess c := by
    rw [sess, hconn]
    rfl
  obtain ⟨hc, -⟩ := run_forward cfg (b := b₄) now (by rw [hconn]) (by simp [afterForward, hbye])
    (by rw [hsess, hconn]; exact hself) 0
  rw [hrun, hc, forwardedConns]
  simp [hconn]

section
variable {cfg : Config} {b : Broker} {c : ConnId} (now : Time)

theorem said_of_markSaidBye (hpc : (b.conns c).pc = .markSaidBye) (n : ℕ) :
    ((run (step cfg) b (replicate (n+1) (.go c now))).conns c).saidBye = true := by
  have hstep : step cfg b (.go c now) = b.setConn c { b.conns c with saidBye := true, pc := .reading } := by
    apply step_local
    simp [localStep, hpc]
  rw [replicate_succ, run_cons, hstep, run_reading cfg now (by simp) n]
  simp

theorem said_of_discardBye {echo : Bool} (hpc : (b.conns c).pc = .discardBye echo) (n : ℕ) :
    ((run (step cfg) b (replicate (n+2) (.go c now))).conns c).saidBye = true := by
  rw [replicate_succ, run_cons, step_discardBye cfg now hpc]
  apply said_of_markSaidBye
  simp

theorem said_of_send {raw : Bytes} {tag : Tag} {t : ConnId}
    (hpc : (b.conns c).pc = .send .later raw tag t) (hbye : tag.typ = .bye) (n : ℕ) :
    ((run (step cfg) b (replicate (n+3) (.go c now))).conns c).saidBye = true := by
  rw [replicate_succ, run_cons, step_send cfg now hpc]
  have hnext : ((b.send c .later raw tag t).conns c).pc = .discardBye false := by
    rw [send_conns]
    simp [afterForward, hbye]
  exact said_of_discardBye now hnext n

variable {f : Frame}

theorem said_of_forward (hpc : (b.conns c).pc = .forward .later f) (hbye : f.typ = .bye) (n : ℕ) :
    ((run (step cfg) b (replicate (n+4) (.go c now))).conns c).saidBye = true := by
  rw [replicate_succ, run_cons, step_forward cfg now hpc]
  cases ht : (b.sess c).peers (b.conns c).role.other with
  | none =>
    have hnext : ((b.forward now c .later f).conns c).pc = .discardBye false := by
      rw [forward_missed now .later f ht]
      simp [afterForward, hbye]
    -- one step less than with a counterpart, so one is left over
    exact said_of_discardBye now hnext (n+1)
  | some t =>
    have hnext : ((b.forward now c .later f).conns c).pc = .send .later f.raw ⟨c, f.typ, (b.sess c).seq⟩ t := by
      rw [forward_found now .later f ht]
      simp
    exact said_of_send now hnext hbye n

theorem said_of_receivedBye (hpc : (b.conns c).pc = .receivedBye f) (hbye : f.typ = .bye) (n : ℕ) :
    ((run (step cfg) b (replicate (n+5) (.go c now))).conns c).saidBye = true := by
  cases hecho : (b.conns c).byeReceived with
  | true =>
    have hstep : step cfg b (.go c now) = b.setConn c { b.conns c with pc := .discardBye true } := by
      apply step_local
      simp [localStep, hpc, hecho]
    have hnext : ((step cfg b (.go c now)).conns c).pc = .discardBye true := by simp [hstep]
    exact said_of_discardBye now hnext (n+2)
  | false =>
    have hstep : step cfg b (.go c now) = b.setConn c { b.conns c with pc := .forward .later f } := by
      apply step_local
      simp [localStep, hpc, hecho]
    have hnext : ((step cfg b (.go c now)).conns c).pc = .forward .later f := by simp [hstep]
    exact said_of_forward now hnext hbye n

end

/-- In every reachable state, the first frame of a connection has the effect of a later frame
exactly when it is no offer, no answer and no `bye`. -/
theorem first_like_later_iff (cfg : Config) (acts : List Act) (c : ConnId) (f : Frame) (now : Time)
    (hpc : ((runBroker cfg acts).conns c).pc = .forward .first f) :
    let b := runBroker cfg acts
    SameEffect (asFirst cfg now c b) (asLater cfg now c f b) ↔ f.typ ≠ .offer ∧ f.typ ≠ .answer ∧ f.typ ≠ .bye := by
  intro b
  obtain ⟨hneg, hsaid, hvalid⟩ := opening_run cfg acts c (some f) (by rw [hpc]; rfl)
  have hread : readFrame (b.conns c).role f.raw = some f := hvalid f rfl
  have hself : (b.sess c).peers (b.conns c).role.other ≠ some c := by
    intro hslot
    have hrole := ((wf_run cfg acts).slot _ _ _ hslot).2.1
    exact Role.other_ne _ hrole.symm
  obtain ⟨hneg₁, hsaid₁⟩ := asFirst_flags cfg now hpc hself
  constructor
  · intro h
    have hsdp : ∀ typ, f.typ = typ → typ ≠ .bye → handle f ≠ .markNegotiated f := by
      intro typ htyp hbye hsdp
      have hlater := asLater_negotiated cfg now hread hself hsdp (by rw [htyp]; exact hbye)
      have hsame := h.negotiated c
      rw [hlater, hneg₁, hneg] at hsame
      cases hsame
    refine ⟨?_, ?_, ?_⟩
    · intro htyp
      exact hsdp .offer htyp (by decide) (by simp [handle, htyp])
    · intro htyp
      exact hsdp .answer htyp (by decide) (by simp [handle, htyp])
    · intro htyp
      have hlater : ((asLater cfg now c f b).conns c).saidBye = true := by
        rw [asLater, step_frame hread, finish]
        apply said_of_receivedBye now _ htyp 0
        simp [handle, htyp]
      have hsame := h.saidBye c
      rw [hlater, hsaid₁, hsaid] at hsame
      cases hsame
  · rintro ⟨hoffer, hanswer, hbye⟩
    apply sameEffect_of_plain now hpc hread hself _ hbye
    cases htyp : f.typ <;> simp_all [handle]

/-- A client dials with this frame and has registered; the frame comes next. -/
def opensWith (first : Bytes) : List Act :=
  .dial 0 0 ⟨ascii "/ws/demo", [], first⟩ :: gos 0 5

theorem first_like_later_hello :
    let b := runBroker openConfig (opensWith (hello .client))
    SameEffect (asFirst openConfig 0 0 b) (asLater openConfig 0 0 ⟨.ice, hello .client⟩ b) :=
  (first_like_later_iff openConfig (opensWith (hello .client)) 0 ⟨.ice, hello .client⟩ 0
    (by decide +kernel)).mpr (by decide)

theorem first_offer_unlike_later :
    let offer : Frame := ⟨.offer, marshal (ascii "offer") .client none⟩
    let b := runBroker openConfig (opensWith offer.raw)
    (b.conns 0).pc = .forward .first offer ∧
      ((asFirst openConfig 0 0 b).conns 0).negotiated = false ∧
      ((asLater openConfig 0 0 offer b).conns 0).negotiated = true ∧
      ¬ SameEffect (asFirst openConfig 0 0 b) (asLater openConfig 0 0 offer b) := by
  intro offer b
  have hfirst : ((asFirst openConfig 0 0 b).conns 0).negotiated = false := by decide +kernel
  have hlater : ((asLater openConfig 0 0 offer b).conns 0).negotiated = true := by decide +kernel
  refine ⟨by decide +kernel, hfirst, hlater, ?_⟩
  intro h
  have hsame := h.negotiated 0
  rw [hfirst, hlater] at hsame
  cases hsame

end Broker

end Chromeless.Signaling
