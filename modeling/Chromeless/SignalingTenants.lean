import Chromeless.SignalingInvariant

/-! Tenants do not interfere. -/
namespace Chromeless.Signaling
open Function Json Broker

theorem accept_id {cfg : Config} {now : Time} {d : Dial} {role : Role} {key : SessionKey}
    {first : Option Frame} (h : accept cfg now d = some (role, key, first)) : key.id ≠ [] := by
  have hp := (accept_some h).1
  simp only [sessionID, Option.ite_none_left_eq_some, Option.some.injEq] at hp
  obtain ⟨hok, hcut⟩ := hp
  exact fun he => hok (.inl (hcut.trans he))

/-- Session ids are never empty, so the key of a connection that was not accepted is nobody's. -/
def Conn.Of (tenant : Bytes) (p : Conn) : Prop := p.key.tenant = tenant ∧ p.key.id ≠ []

instance (tenant : Bytes) (p : Conn) : Decidable (p.Of tenant) :=
  inferInstanceAs (Decidable (_ ∧ _))

namespace Broker

structure SameView (tenant : Bytes) (b t : Broker) : Prop where
  sessions : ∀ k : SessionKey, k.tenant = tenant → t.sessions k = b.sessions k
  created : ∀ k : SessionKey, k.tenant = tenant → t.created k = b.created k
  heap : ∀ ref : SessRef, ref.key.tenant = tenant → t.heap ref = b.heap ref
  conns : ∀ c, (b.conns c).Of tenant ∨ (t.conns c).Of tenant → t.conns c = b.conns c
  shuttingDown : t.shuttingDown = b.shuttingDown

section
variable {α β : Type} [DecidableEq α] {P : α → Prop} {f g : α → β}

theorem agree_update (h : ∀ x, P x → g x = f x) (a : α) (v : β) :
    ∀ x, P x → update g a v x = update f a v x := by
  intro x hx
  rw [update_apply, update_apply, h x hx]

theorem agree_update_outside {a : α} (ha : ¬ P a) (v : β) :
    ∀ x, P x → update f a v x = f x := by
  intro x hx
  refine update_of_ne ?_ ..
  rintro rfl
  exact ha hx

end

section
variable {tenant : Bytes} {b t u : Broker}

theorem SameView.refl (tenant : Bytes) (b : Broker) : SameView tenant b b :=
  ⟨fun _ _ => rfl, fun _ _ => rfl, fun _ _ => rfl, fun _ _ => rfl, rfl⟩

section
variable (h : SameView tenant b t)
include h

theorem SameView.symm : SameView tenant t b :=
  ⟨fun k hk => (h.sessions k hk).symm, fun k hk => (h.created k hk).symm,
    fun ref hr => (h.heap ref hr).symm, fun c hc => (h.conns c hc.symm).symm,
    h.shuttingDown.symm⟩

theorem SameView.trans (h' : SameView tenant t u) :
    SameView tenant b u := by
  refine ⟨?_, ?_, ?_, ?_, h'.shuttingDown.trans h.shuttingDown⟩
  · intro k hk
    rw [h'.sessions k hk, h.sessions k hk]
  · intro k hk
    rw [h'.created k hk, h.created k hk]
  · intro ref hr
    rw [h'.heap ref hr, h.heap ref hr]
  · intro c hc
    -- whichever of the outer two owns `c`, the middle one does too
    rcases hc with hc | hc
    · have hbt := h.conns c (.inl hc)
      have htu := h'.conns c (.inl (by rw [hbt]; exact hc))
      rw [htu, hbt]
    have htu := h'.conns c (.inr hc)
    have hbt := h.conns c (.inr (by rw [← htu]; exact hc))
    rw [htu, hbt]

theorem SameView.setConn (c : ConnId) (p : Conn) :
    SameView tenant (b.setConn c p) (t.setConn c p) := by
  refine ⟨h.sessions, h.created, h.heap, ?_, h.shuttingDown⟩
  intro d hd
  rw [setConn_conns, setConn_conns, update_apply, update_apply] at hd ⊢
  split_ifs at hd ⊢
  exacts [rfl, h.conns d hd]

theorem SameView.setSess (ref : SessRef) (s : Session) :
    SameView tenant (b.setSess ref s) (t.setSess ref s) := by
  refine ⟨h.sessions, h.created, ?_, h.conns, h.shuttingDown⟩
  exact agree_update h.heap ref s

theorem SameView.note (e e' : Event) :
    SameView tenant (b.note e) (t.note e') :=
  ⟨h.sessions, h.created, h.heap, h.conns, h.shuttingDown⟩

theorem SameView.setSessions (k : SessionKey) (g : Option ℕ) :
    SameView tenant { b with sessions := update b.sessions k g }
      { t with sessions := update t.sessions k g } := by
  refine ⟨?_, h.created, h.heap, h.conns, h.shuttingDown⟩
  exact agree_update h.sessions k g

theorem SameView.setCreated (k : SessionKey) (n : ℕ) :
    SameView tenant { b with created := update b.created k n }
      { t with created := update t.created k n } := by
  refine ⟨h.sessions, ?_, h.heap, h.conns, h.shuttingDown⟩
  exact agree_update h.created k n

end

end

section
variable {tenant : Bytes} {b t : Broker} {c : ConnId}

theorem SameView.sess (h : SameView tenant b t) (hc : (b.conns c).Of tenant) :
    t.sess c = b.sess c := by
  rw [Broker.sess, Broker.sess, h.conns c (.inl hc)]
  exact h.heap _ hc.1

theorem of_same_ref {p q : Conn} (hp : p.Of tenant) (href : q.ref = p.ref) : q.Of tenant := by
  have hkey : q.key = p.key := congrArg SessRef.key href
  rwa [Conn.Of, hkey]

section
variable (h : SameView tenant b t)
include h

section
variable (hc : (b.conns c).Of tenant)
include hc

theorem SameView.localStep :
    localStep t (b.conns c) = localStep b (b.conns c) := by
  have hheap : t.heap (b.conns c).ref = b.heap (b.conns c).ref := h.heap _ hc.1
  unfold Broker.localStep
  rw [hheap, h.shuttingDown]

theorem SameView.goto (pc : Pc) :
    SameView tenant (b.goto c pc) (t.goto c pc) := by
  rw [Broker.goto, Broker.goto, h.conns c (.inl hc)]
  exact h.setConn c _

theorem SameView.getOrCreate
    (first : Option Frame) : SameView tenant (b.getOrCreate c first) (t.getOrCreate c first) := by
  unfold Broker.getOrCreate
  rw [h.conns c (.inl hc)]
  dsimp only
  rw [h.sessions _ hc.1, h.created _ hc.1]
  split
  · exact h.setConn c _
  apply SameView.note
  apply SameView.setConn
  exact ((h.setSessions _ _).setCreated _ _).setSess _ _

end

theorem SameView.dropIfEmpty {k : SessionKey} (hk : k.tenant = tenant) :
    SameView tenant (b.dropIfEmpty k) (t.dropIfEmpty k) := by
  unfold Broker.dropIfEmpty
  rw [h.sessions k hk]
  split
  · exact h
  rename_i g hg
  rw [h.heap ⟨k, g⟩ hk]
  split
  · exact (h.setSessions k none).note _ _
  · exact h

end

theorem dropIfEmpty_conns (b : Broker) (k : SessionKey) : (b.dropIfEmpty k).conns = b.conns := by
  rcases dropIfEmpty_cases b k with h | ⟨g, -, -, h⟩ <;> rw [h]
  rfl

section
variable (h : SameView tenant b t)
include h

theorem SameView.register (hc : (b.conns c).Of tenant) (cfg : Config) (now : Time) (first : Option Frame) :
    SameView tenant (b.register cfg now c first) (t.register cfg now c first) := by
  unfold Broker.register
  rw [h.sess hc, h.conns c (.inl hc)]
  dsimp only
  split
  · exact h.goto hc _
  · apply SameView.note
    exact (h.setSess _ _).setConn _ _

theorem SameView.forward (hwf : Wf b) (hc : (b.conns c).Of tenant) (now : Time) (site : Site) (f : Frame) :
    SameView tenant (b.forward now c site f) (t.forward now c site f) := by
  have hsess := h.sess hc
  have hconn := h.conns c (.inl hc)
  cases ht : (b.sess c).peers (b.conns c).role.other with
  | none =>
    rw [forward_missed now site f ht, forward_missed now site f (by rw [hsess, hconn]; exact ht), hsess, hconn]
    exact ((h.setSess _ _).note _ _).goto hc _
  | some d =>
    have hd : (b.conns d).Of tenant := of_same_ref hc (hwf.slot _ _ _ ht).1
    rw [forward_found now site f ht, forward_found now site f (by rw [hsess, hconn]; exact ht),
      hsess, hconn, markTarget_eq, markTarget_eq]
    have hview := (h.setSess (b.conns c).ref
      ((b.sess c).forward now (b.conns c).role.other f c).1).note
      (.forwarded c f.typ (some d)) (.forwarded c f.typ (some d))
    simp only [note_conns, setSess_conns]
    rw [h.conns d (.inl hd)]
    apply SameView.goto
    · exact hview.setConn _ _
    rw [setConn_conns, update_apply]
    split
    exacts [hd, hc]

theorem SameView.send (hc : (b.conns c).Of tenant) (site : Site)
    (raw : Bytes) (tag : Tag) {d : ConnId} (hd : (b.conns d).Of tenant) :
    SameView tenant (b.send c site raw tag d) (t.send c site raw tag d) := by
  unfold Broker.send
  rw [h.conns d (.inl hd)]
  dsimp only
  have hpush := h.setConn d { b.conns d with
    send := (b.conns d).send.push sendBuffer ⟨raw, some tag⟩ }
  have hown : ((b.setConn d { b.conns d with
      send := (b.conns d).send.push sendBuffer ⟨raw, some tag⟩ }).conns c).Of tenant := by
    rw [setConn_conns, update_apply]
    split
    exacts [hd, hc]
  split
  · exact (hpush.note _ _).goto hown _
  · exact hpush.goto hown _

theorem SameView.sharedStep (hwf : Wf b) (hc : (b.conns c).Of tenant) (cfg : Config) (now : Time) :
    SameView tenant (b.sharedStep cfg now c) (t.sharedStep cfg now c) := by
  unfold Broker.sharedStep
  rw [h.conns c (.inl hc), h.sess hc]
  dsimp only
  have hdrop : SameView tenant ((b.dropIfEmpty (b.conns c).key).goto c .done)
      ((t.dropIfEmpty (b.conns c).key).goto c .done) := by
    apply (h.dropIfEmpty hc.1).goto
    rwa [dropIfEmpty_conns]
  split
  · exact h.getOrCreate hc _
  · exact h.register hc cfg now _
  · exact hdrop
  · exact h.setConn c _
  · exact h.forward hwf hc now _ _
  next site raw tag d hpc => exact h.send hc _ _ _ (of_same_ref hc (hwf.target _ _ _ _ _ hpc).1)
  · exact (h.setConn c _).note _ _
  · exact ((h.setSess _ _).goto hc _).note _ _
  · exact ((h.setSess _ _).goto hc _).note _ _
  · exact (h.setSess _ _).goto hc _
  · exact hdrop
  · exact h

end

end

/-- A connection accepted for the tenant, or a step of such a connection. A shutdown concerns
everybody. -/
def ownStep (tenant : Bytes) (cfg : Config) (b : Broker) : Act → Bool
  | .dial c now d =>
    match (b.conns c).pc, accept cfg now d with
    | .idle, some (_, key, _) => key.tenant = tenant
    | _, _ => false
  | .frame c _ | .close c | .recv c | .go c _ => (b.conns c).Of tenant
  | .shutdown => true

variable {tenant : Bytes} {cfg : Config} {b t b' : Broker} {a : Act}

theorem SameView.step (h : SameView tenant b t) (hwf : Wf b) (hown : ownStep tenant cfg b a = true)
    (hidle : ∀ c now d, a = .dial c now d → (t.conns c).pc = .idle) :
    SameView tenant (step cfg b a) (step cfg t a) := by
  cases a with
  | dial c now d =>
    have htc := hidle c now d rfl
    simp only [ownStep] at hown
    split at hown
    next role key first hpc hacc =>
      simp only [Broker.step, hpc, htc, hacc]
      exact h.setConn c _
    · cases hown
  | frame c =>
    have hc : (b.conns c).Of tenant := of_decide_eq_true hown
    simp only [Broker.step, h.conns c (.inl hc)]
    split
    · exact (h.goto hc _).note _ _
    · exact h
  | close c =>
    have hc : (b.conns c).Of tenant := of_decide_eq_true hown
    simp only [Broker.step, h.conns c (.inl hc)]
    split
    · exact h.goto hc _
    · exact h
  | recv c =>
    have hc : (b.conns c).Of tenant := of_decide_eq_true hown
    simp only [Broker.step, h.conns c (.inl hc)]
    split
    · exact h.setConn c _
    · exact h
  | go c now =>
    have hc : (b.conns c).Of tenant := of_decide_eq_true hown
    simp only [Broker.step, advance]
    rw [h.conns c (.inl hc), h.localStep hc]
    split
    · exact h.setConn c _
    · exact h.sharedStep hwf hc cfg now
  | shutdown => exact ⟨h.sessions, h.created, h.heap, h.conns, rfl⟩

def Keyed (b : Broker) : Prop :=
  ∀ c, ((b.conns c).pc = .idle → (b.conns c).key.id = []) ∧
    ((b.conns c).key.id = [] → (b.conns c).pc = .idle ∨ (b.conns c).pc = .done)

theorem Move.keyed (hm : Move cfg b a b') (h : Keyed b) : Keyed b' := by
  cases hm with
  | @dial c now d role key first hpc hacc =>
    intro d'
    have hid := accept_id hacc
    rw [setConn_conns, update_apply]
    split
    · simp [Conn.new, hid]
    · exact h d'
  | @localStep c now p hl =>
    intro d
    rw [setConn_conns, update_apply]
    split
    · have hold : (b.conns c).pc ≠ .idle ∧ (b.conns c).pc ≠ .done := by
        cases hl with
        | _ hpc => simp [hpc]
      have hnew : p.pc ≠ .idle := by
        cases hl with
        | @peerPresent first => cases first <;> simp [forwardFirst]
        | _ => simp
      rw [hl.alike.key]
      refine ⟨fun he => absurd he hnew, ?_⟩
      intro hid
      rcases (h c).2 hid with he | he
      · exact absurd he hold.1
      · exact absurd he hold.2
    · exact h d
  | _ =>
    intro d
    have hhdl : ∀ f, handle f ≠ .idle := by
      intro f
      unfold handle
      split <;> simp
    have haft : ∀ site typ, afterForward site typ ≠ .idle := by
      intro site typ he
      have hstage := afterForward_stage site typ
      rw [he] at hstage
      exact site.stage_not_early (.inl hstage.symm)
    have hfst : ∀ first, forwardFirst first ≠ .idle := by
      intro first
      cases first <;> simp [forwardFirst]
    have hd := h d
    simp only [goto_eq, markTarget_eq, setConn_conns, setSess_conns, note_conns,
      update_apply, apply_ite Conn.pc, apply_ite Conn.key]
    grind -ring -linarith

section
variable {tenant : Bytes} {b : Broker}

theorem sameView_setConn {c : ConnId} {p : Conn} (hold : ¬ (b.conns c).Of tenant)
    (hnew : ¬ p.Of tenant) : SameView tenant b (b.setConn c p) := by
  refine ⟨fun _ _ => rfl, fun _ _ => rfl, fun _ _ => rfl, ?_, rfl⟩
  intro d hd
  rw [setConn_conns, update_apply] at hd ⊢
  split_ifs at hd ⊢ with hdc
  · subst hdc
    rcases hd with hd | hd
    · exact absurd hd hold
    · exact absurd hd hnew
  · rfl

theorem sameView_setSess {ref : SessRef} (s : Session) (hr : ref.key.tenant ≠ tenant) :
    SameView tenant b (b.setSess ref s) := by
  refine ⟨fun _ _ => rfl, fun _ _ => rfl, ?_, fun _ _ => rfl, rfl⟩
  exact agree_update_outside (P := fun ref : SessRef => ref.key.tenant = tenant) hr s

theorem sameView_note (e : Event) : SameView tenant b (b.note e) :=
  ⟨fun _ _ => rfl, fun _ _ => rfl, fun _ _ => rfl, fun _ _ => rfl, rfl⟩

variable {k : SessionKey}

theorem sameView_setSessions (g : Option ℕ) (hk : k.tenant ≠ tenant) :
    SameView tenant b { b with sessions := update b.sessions k g } := by
  refine ⟨?_, fun _ _ => rfl, fun _ _ => rfl, fun _ _ => rfl, rfl⟩
  exact agree_update_outside (P := fun k : SessionKey => k.tenant = tenant) hk g

theorem sameView_setCreated (n : ℕ) (hk : k.tenant ≠ tenant) :
    SameView tenant b { b with created := update b.created k n } := by
  refine ⟨fun _ _ => rfl, ?_, fun _ _ => rfl, fun _ _ => rfl, rfl⟩
  exact agree_update_outside (P := fun k : SessionKey => k.tenant = tenant) hk n

end

theorem Move.sameView (hm : Move cfg b a b') (hwf : Wf b) (hkeyed : Keyed b)
    (hoth : ownStep tenant cfg b a = false) : SameView tenant b b' := by
  have hfor (c : ConnId) (h : decide ((b.conns c).Of tenant) = false) : ¬ (b.conns c).Of tenant :=
    of_decide_eq_false h
  have hgo : ∀ c pc, (b.conns c).pc = pc → pc ≠ .idle → pc ≠ .done →
      ¬ (b.conns c).Of tenant → (b.conns c).key.tenant ≠ tenant := by
    intro c pc hpc hidle hdone hnot hten
    apply hnot
    refine ⟨hten, ?_⟩
    intro hid
    rcases (hkeyed c).2 hid with he | he
    · exact hidle (hpc.symm.trans he)
    · exact hdone (hpc.symm.trans he)
  cases hm with
  | @dial c now d role key first hpc hacc =>
    simp only [ownStep, hpc, hacc, decide_eq_false_iff_not] at hoth
    apply sameView_setConn
    · intro hof
      exact hof.2 ((hkeyed c).1 hpc)
    · intro hof
      exact hoth hof.1
  | @refuse c now d hpc =>
    have hnot : ¬ (b.conns c).Of tenant := fun hof => hof.2 ((hkeyed c).1 hpc)
    exact sameView_setConn hnot hnot
  | @frame c | @record c =>
    have hnot := hfor c hoth
    refine SameView.trans ?_ (sameView_note _)
    exact sameView_setConn hnot hnot
  | @close c | @recv c | @found c | @reject c | @keep c | @advise c | @sendFull c =>
    have hnot := hfor c hoth
    exact sameView_setConn hnot hnot
  | shutdown => cases hoth
  | @localStep c now p hl =>
    have hnot := hfor c hoth
    apply sameView_setConn hnot
    intro hof
    exact hnot (of_same_ref hof hl.alike.ref.symm)
  | @create c now first hpc =>
    have hnot := hfor c hoth
    have hten := hgo c _ hpc (by simp) (by simp) hnot
    have hkey : (SessRef.mk (b.conns c).key (b.created (b.conns c).key)).key.tenant ≠ tenant := hten
    have hhub := (sameView_setSessions (b := b) (some (b.created (b.conns c).key)) hten).trans
      (sameView_setCreated (b.created (b.conns c).key + 1) hten)
    have hmade := hhub.trans (sameView_setSess Session.new hkey)
    refine SameView.trans ?_ (sameView_note _)
    exact hmade.trans (sameView_setConn hnot hnot)
  | @join c _ _ _ hpc | @discardBye c _ _ hpc | @unregister c _ hpc =>
    have hnot := hfor c hoth
    have hten := hgo c _ hpc (by simp) (by simp) hnot
    refine SameView.trans ?_ (sameView_note _)
    exact (sameView_setSess _ hten).trans (sameView_setConn hnot hnot)
  | @reap c now g hpc =>
    have hnot := hfor c hoth
    have hten : (b.conns c).key.tenant ≠ tenant := by
      rcases hpc with hpc | hpc <;> exact hgo c _ hpc (by simp) (by simp) hnot
    refine SameView.trans ?_ (sameView_setConn hnot hnot)
    exact (sameView_setSessions _ hten).trans (sameView_note _)
  | @forwardMissed c now site f hpc =>
    have hnot := hfor c hoth
    have hten := hgo c _ hpc (by simp) (by simp) hnot
    refine SameView.trans ?_ (sameView_setConn hnot hnot)
    exact (sameView_setSess _ hten).trans (sameView_note _)
  | @forward c now site f t hpc ht =>
    have hnot := hfor c hoth
    have hten := hgo c _ hpc (by simp) (by simp) hnot
    have hnot' : ¬ (b.conns t).Of tenant := fun hof => hnot (of_same_ref hof (hwf.slot _ _ _ ht).1.symm)
    rw [markTarget_eq]
    have hown : ¬ ((update b.conns t { b.conns t with
        byeReceived := (b.conns t).byeReceived || decide (f.typ = .bye) }) c).Of tenant := by
      have halike := Alike.update (fun d => Alike.refl (b.conns d)) (Alike.byeReceived (b.conns t)
        ((b.conns t).byeReceived || decide (f.typ = .bye))) c
      intro hof
      exact hnot (of_same_ref hof halike.ref.symm)
    refine SameView.trans ?_ (sameView_setConn hown hown)
    refine SameView.trans ?_ (sameView_setConn hnot' hnot')
    exact (sameView_setSess _ hten).trans (sameView_note _)
  | @send c now site raw tag t hpc =>
    have hnot := hfor c hoth
    obtain ⟨href, hrole, -⟩ := hwf.target _ _ _ _ _ hpc
    have hnot' : ¬ (b.conns t).Of tenant := fun hof => hnot (of_same_ref hof href.symm)
    have hct : c ≠ t := by
      intro he
      rw [← he] at hrole
      exact Role.other_ne _ hrole.symm
    have hown : ¬ ((((b.setConn t { b.conns t with
        send := (b.conns t).send.push sendBuffer ⟨raw, some tag⟩ }).note
          (.delivered c tag.typ t)).conns c)).Of tenant := by
      simp only [note_conns, setConn_conns, update_of_ne hct]
      exact hnot
    refine SameView.trans ?_ (sameView_setConn hown hown)
    refine SameView.trans ?_ (sameView_note _)
    exact sameView_setConn hnot' hnot'
  | @discardReplay c now negotiated ended hpc =>
    have hnot := hfor c hoth
    have hten := hgo c _ hpc (by simp) (by simp) hnot
    exact (sameView_setSess _ hten).trans (sameView_setConn hnot hnot)

theorem Move.unused (hm : Move cfg b a b') {d : ConnId} (ha : ∀ now dl, a ≠ .dial d now dl) :
    (b'.conns d).key = (b.conns d).key ∧ ((b.conns d).pc = .idle → (b'.conns d).pc = .idle) := by
  cases hm with
  | @localStep c now p hl =>
    rw [setConn_conns, update_apply]
    split
    next hd =>
      subst hd
      refine ⟨hl.alike.key, ?_⟩
      intro hidle
      cases hl with
      | _ hpc =>
        rw [hpc] at hidle
        cases hidle
    · exact ⟨rfl, id⟩
  | _ =>
    simp only [goto_eq, markTarget_eq, setConn_conns, setSess_conns, note_conns,
      update_apply, apply_ite Conn.pc, apply_ite Conn.key]
    grind -ring -linarith

structure Purged (tenant : Bytes) (b t : Broker) : Prop where
  view : SameView tenant b t
  wf : Wf b
  keyed : Keyed b
  rest : ∀ c, ¬ (t.conns c).Of tenant → (t.conns c).pc = .idle

theorem step_wf_keyed (cfg : Config) (hwf : Wf b) (hkeyed : Keyed b) (a : Act) :
    Wf (step cfg b a) ∧ Keyed (step cfg b a) := by
  rcases step_move cfg b a with h | h
  · rw [h]
    exact ⟨hwf, hkeyed⟩
  · exact ⟨wf_move h hwf, h.keyed hkeyed⟩

theorem Purged.other (h : Purged tenant b t) (hoth : ownStep tenant cfg b a = false) :
    Purged tenant (step cfg b a) t := by
  obtain ⟨hwf, hkeyed⟩ := step_wf_keyed cfg h.wf h.keyed a
  refine ⟨?_, hwf, hkeyed, h.rest⟩
  rcases step_move cfg b a with heq | hm
  · rw [heq]
    exact h.view
  · exact (hm.sameView h.wf h.keyed hoth).symm.trans h.view

theorem Purged.own (h : Purged tenant b t) (hown : ownStep tenant cfg b a = true) :
    Purged tenant (step cfg b a) (step cfg t a) := by
  obtain ⟨hwf, hkeyed⟩ := step_wf_keyed cfg h.wf h.keyed a
  -- a connection id that is free here has not been used there either
  have hidle : ∀ c now d, a = .dial c now d → (t.conns c).pc = .idle := by
    intro c now d ha
    subst ha
    apply h.rest
    intro hof
    have hconn := h.view.conns c (.inr hof)
    simp only [ownStep] at hown
    split at hown
    next hpc _ =>
      rw [hconn] at hof
      exact hof.2 ((h.keyed c).1 hpc)
    · cases hown
  have hview := h.view.step h.wf hown hidle
  refine ⟨hview, hwf, hkeyed, ?_⟩
  intro d hd
  by_cases hdial : ∃ now dl, a = .dial d now dl
  · obtain ⟨now, dl, ha⟩ := hdial
    subst ha
    have htd := hidle d now dl rfl
    exfalso
    apply hd
    simp only [ownStep] at hown
    split at hown
    next role key first hpc hacc =>
      simp only [Broker.step, htd, hacc, setConn_conns, update_self]
      exact ⟨of_decide_eq_true hown, accept_id hacc⟩
    · cases hown
  have ha : ∀ now dl, a ≠ .dial d now dl := fun now dl he => hdial ⟨now, dl, he⟩
  rcases step_move cfg t a with heq | hm
  · rw [heq] at hd ⊢
    exact h.rest d hd
  obtain ⟨hkey, hkeep⟩ := hm.unused ha
  apply hkeep
  apply h.rest
  rwa [Conn.Of, ← hkey]

/-- Two runs with the same steps of a tenant leave its connections with the same messages and its
session objects with the same replay buffers, whatever others do. -/
theorem tenant_unaffected (cfg : Config) (tenant : Bytes) (acts acts' : List Act)
    (h : Runs.visible (step cfg) (ownStep tenant cfg) new acts =
      Runs.visible (step cfg) (ownStep tenant cfg) new acts') :
    let b := runBroker cfg acts
    let b' := runBroker cfg acts'
    (∀ c, (b.conns c).Of tenant ∨ (b'.conns c).Of tenant → (b'.conns c).send.log = (b.conns c).send.log) ∧
    (∀ ref : SessRef, ref.key.tenant = tenant →
      (b'.heap ref).recent = (b.heap ref).recent ∧ (b'.heap ref).recentICE = (b.heap ref).recentICE) := by
  intro b b'
  have hstart : Purged tenant new new := by
    refine ⟨SameView.refl _ _, wf_new, ?_, fun _ _ => rfl⟩
    intro c
    exact ⟨fun _ => rfl, fun _ => .inl rfl⟩
  -- both runs look to the tenant like the run of its own steps alone
  have hpurge := fun acts => Runs.unwinding (step cfg) (ownStep tenant cfg) (Purged tenant)
    (fun s t a hr hv => hr.other hv) (fun s t a hr hv => hr.own hv) hstart acts
  have hb := (hpurge acts).view
  have hb' := (hpurge acts').view
  rw [← h] at hb'
  have hview : SameView tenant b b' := hb.trans hb'.symm
  refine ⟨?_, ?_⟩
  · intro c hc
    rw [hview.conns c hc]
  intro ref hr
  rw [hview.heap ref hr]
  exact ⟨rfl, rfl⟩

section

def demoKey : Bytes :=
  [0xd7, 0x5a, 0x98, 0x01, 0x82, 0xb1, 0x0a, 0xb7, 0xd5, 0x4b, 0xfe, 0xd3, 0xc9, 0x64, 0x07, 0x3a,
    0x0e, 0xe1, 0x72, 0xf3, 0xda, 0xa6, 0x23, 0x25, 0xaf, 0x02, 0x1a, 0x68, 0xf7, 0x07, 0x51, 0x1a]

/-- A session token for clients of `demo`: what is signed, and the signature. -/
structure Signed where
  input : Bytes
  signature : Bytes

def tokenOfA : Signed where
  input := ascii ("eyJhbGciOiJFZERTQSJ9." ++ "eyJzdWIiOiJhIiwic2lkIjoiZGVtbyIsInJvbGUiOiJjbGllbnQifQ")
  signature := ascii ("_hmUFvTY53xRvlmdV5dCNk2caaqsHVn6TqmlyflWc77KjZCEHbTckV65V6t8MyZD" ++ "ivpnRwcszPeFF8AVV0ZsCA")

def tokenOfB : Signed where
  input := ascii ("eyJhbGciOiJFZERTQSJ9." ++ "eyJzdWIiOiJiIiwic2lkIjoiZGVtbyIsInJvbGUiOiJjbGllbnQifQ")
  signature := ascii ("zFEscwR_yD9SOdKn330vX9aSyy7LIS0ANMm5fqEWvFcrU5KPKu1tC5UrdmsLrIiF" ++ "nR3k1fwQGY0N4CIWNMreBA")

def Signed.holds (s : Signed) (msg sig : Bytes) : Bool :=
  msg == s.input && base64URLDecode s.signature == some sig

/-- A broker with auth on, whose key has signed a token for each of two tenants. -/
def signedConfig : Config := { openConfig with
  auth := some ⟨demoKey, fun pub msg sig =>
    pub == demoKey && (tokenOfA.holds msg sig || tokenOfB.holds msg sig)⟩ }

def joinsWith (c : ConnId) (s : Signed) : List Act :=
  .dial c 0 ⟨ascii "/ws/demo", s.input ++ 0x2e :: s.signature, hello .client⟩ :: gos c 7

theorem tenant_unaffected_same_id :
    let b := runBroker signedConfig (joinsWith 0 tokenOfA)
    let b' := runBroker signedConfig (joinsWith 1 tokenOfB ++ joinsWith 0 tokenOfA)
    (b.conns 0).Of (ascii "a") ∧ (b'.conns 1).Of (ascii "b") ∧ (b'.conns 0).send.log = (b.conns 0).send.log := by
  have hown : ((runBroker signedConfig (joinsWith 0 tokenOfA)).conns 0).Of (ascii "a") := by decide +kernel
  refine ⟨hown, by decide +kernel, ?_⟩
  exact (tenant_unaffected signedConfig (ascii "a") (joinsWith 0 tokenOfA)
    (joinsWith 1 tokenOfB ++ joinsWith 0 tokenOfA) (by decide +kernel)).1 0 (.inl hown)

end

end Broker

end Chromeless.Signaling
