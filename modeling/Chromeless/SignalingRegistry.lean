import Chromeless.SignalingInvariant

/-! The hub's map against the session objects that peers are registered in. -/
namespace Chromeless.Signaling
open Function Json Runs

namespace Broker

def Unheld (b : Broker) (ref : SessRef) : Prop :=
  ∀ d, (b.conns d).pc.stage = .joining → (b.conns d).ref ≠ ref

/-- A handler comes to the step that drops an empty session only while nobody is about to register
in it. -/
def ReapsUnheld (b : Broker) : Act → Prop
  | .go c _ => (b.conns c).pc = .rejected ∨ (b.conns c).pc = .dropIfEmpty →
    ∀ g, b.sessions (b.conns c).key = some g →
      (∀ role, (b.heap ⟨(b.conns c).key, g⟩).peers role = none) →
      Unheld b ⟨(b.conns c).key, g⟩
  | _ => True

def InHub (b : Broker) : Prop :=
  ∀ c, (b.conns c).pc.stage = .joining ∨ (b.conns c).pc.stage = .joined →
    b.sessions (b.conns c).key = some (b.conns c).gen

theorem Move.inHub {cfg : Config} {b b' : Broker} {a : Act} (hm : Move cfg b a b') (hwf : Wf b)
    (hreap : ReapsUnheld b a) (h : InHub b) : InHub b' := by
  cases hm with
  | localStep hl =>
    intro d hd
    have ha := Alike.update (fun d => Alike.refl (b.conns d)) hl.alike d
    rw [setConn_conns, ha.stage] at hd
    rw [setConn_conns, setConn_sessions, ha.key, ha.gen]
    exact h d hd
  | @found c now first g hpc hg =>
    intro d
    rw [setConn_conns, setConn_sessions, update_apply]
    split
    exacts [fun _ => hg, h d]
  | @create c now first hpc hg =>
    intro d hd
    by_cases hdc : d = c
    · subst hdc
      simp [note_conns, note_sessions, setConn_conns, setConn_sessions, update_self]
    simp only [note_conns, note_sessions, setConn_conns, setConn_sessions, update_of_ne hdc] at hd ⊢
    -- nobody held an object under a key the hub did not know
    have hne : (b.conns d).key ≠ (b.conns c).key := by
      intro he
      have hd' := h d hd
      rw [he, hg] at hd'
      cases hd'
    rw [update_of_ne hne]
    exact h d hd
  | @reap c now g hpc hg hemp =>
    intro d hd
    have hunh := hreap hpc g hg hemp
    by_cases hdc : d = c
    · subst hdc
      simp [Pc.stage] at hd
    simp only [goto_eq, note_conns, setConn_conns, update_of_ne hdc] at hd
    simp only [goto_eq, note_conns, note_sessions, setConn_conns, setConn_sessions, update_of_ne hdc]
    have hsess := h d hd
    have hne : (b.conns d).key ≠ (b.conns c).key := by
      intro he
      have hgen : (b.conns d).gen = g := by
        rw [he, hg] at hsess
        exact (Option.some.inj hsess).symm
      have href : (b.conns d).ref = ⟨(b.conns c).key, g⟩ := by rw [Conn.ref, he, hgen]
      rcases hd with hd | hd
      · exact hunh d hd href
      -- a registered peer keeps the object from being empty
      have hslot := hwf.joined d hd
      rw [Broker.sess, href, hemp] at hslot
      cases hslot
    rwa [update_of_ne hne]
  | _ =>
    intro d hd
    simp only [goto_eq, markTarget_eq, setConn_conns, setSess_conns, note_conns,
      setConn_sessions, setSess_sessions, note_sessions, update_apply] at hd ⊢
    grind -ring -linarith [Pc.stage, InHub, handle_stage, forwardFirst_stage, afterForward_stage, Conn.new]

theorem inHub_run {cfg : Config} {acts : List Act} (hok : Meets (step cfg) ReapsUnheld Broker.new acts) :
    InHub (runBroker cfg acts) := by
  have hinv : Wf (runBroker cfg acts) ∧ InHub (runBroker cfg acts) := by
    apply invariant_run_meets (step cfg) ReapsUnheld (fun b => Wf b ∧ InHub b) _ _ hok
    · intro b a hreap hb
      rcases step_move cfg b a with heq | hm
      · rwa [heq]
      · exact ⟨wf_move hm hb.1, hm.inHub hb.1 hreap hb.2⟩
    · refine ⟨wf_new, ?_⟩
      intro c hc
      rcases hc with hc | hc <;> cases hc
  exact hinv.2

/-- As long as no session is reaped under a handler that is about to register in it, every
registered peer is in the object the hub maps its key to. So a key has at most one peer of each
role, and a peer's frames reach the other. -/
theorem registered_where_hub_points (cfg : Config) (acts : List Act)
    (hok : Meets (step cfg) ReapsUnheld Broker.new acts) :
    let b := runBroker cfg acts
    (∀ ref role c, (b.heap ref).peers role = some c →
      (b.conns c).key = ref.key ∧ b.sessions (b.conns c).key = some ref.gen) ∧
    (∀ ref ref' role c d, (b.heap ref).peers role = some c → (b.heap ref').peers role = some d →
      ref.key = ref'.key → c = d) ∧
    (∀ ref ref' role c d, (b.heap ref).peers role = some c →
      (b.heap ref').peers role.other = some d → ref.key = ref'.key →
      ∀ now f, ((b.sess c).forward now (b.conns c).role.other f c).2 = some d) := by
  intro b
  have hwf : Wf b := wf_run cfg acts
  have hhub : InHub b := inHub_run hok
  have hpoints : ∀ ref role c, (b.heap ref).peers role = some c →
      (b.conns c).key = ref.key ∧ b.sessions (b.conns c).key = some ref.gen := by
    intro ref role c hc
    obtain ⟨href, -, hstage⟩ := hwf.slot ref role c hc
    have hsess := hhub c (Or.inr hstage)
    rw [← href]
    exact ⟨rfl, hsess⟩
  -- two objects with registered peers under one key are the same object
  have hsame : ∀ ref ref' role role' c d, (b.heap ref).peers role = some c →
      (b.heap ref').peers role' = some d → ref.key = ref'.key → ref = ref' := by
    intro ref ref' role role' c d hc hd hkey
    obtain ⟨hk, hg⟩ := hpoints ref role c hc
    obtain ⟨hk', hg'⟩ := hpoints ref' role' d hd
    rw [hk, hkey] at hg
    rw [hk', hg] at hg'
    have hgen := Option.some.inj hg'
    cases ref
    simp only at hkey hgen
    rw [hkey, hgen]
  refine ⟨hpoints, ?_, ?_⟩
  · intro ref ref' role c d hc hd hkey
    rw [← hsame ref ref' role role c d hc hd hkey, hc] at hd
    exact Option.some.inj hd
  intro ref ref' role c d hc hd hkey now f
  have hobj := hsame ref ref' role role.other c d hc hd hkey
  obtain ⟨href, hrole, -⟩ := hwf.slot ref role c hc
  rwa [sess, href, hrole, hobj]

def NoReap (b : Broker) : Act → Prop
  | .go c _ => (b.conns c).pc ≠ .rejected ∧ (b.conns c).pc ≠ .dropIfEmpty
  | _ => True

instance : ∀ b a, Decidable (NoReap b a)
  | b, .go c _ => inferInstanceAs (Decidable ((b.conns c).pc ≠ .rejected ∧ (b.conns c).pc ≠ .dropIfEmpty))
  | _, .dial _ _ _ | _, .frame _ _ | _, .close _ | _, .recv _ | _, .shutdown => inferInstanceAs (Decidable True)

theorem NoReap.reapsUnheld {b : Broker} {a : Act} (h : NoReap b a) : ReapsUnheld b a := by
  cases a with
  | go =>
    rintro (hpc | hpc)
    · exact absurd hpc h.1
    · exact absurd hpc h.2
  | _ => trivial

theorem registered_where_hub_points_pair :
    let b := runBroker openConfig (joins 0 .browser ++ joins 1 .client)
    (b.heap ⟨demo, 0⟩).peers .client = some 1 ∧ b.sessions (b.conns 1).key = some 0 := by
  have hok : Meets (step openConfig) ReapsUnheld Broker.new (joins 0 .browser ++ joins 1 .client) := by
    apply Meets.mono _ (fun _ _ => NoReap.reapsUnheld)
    decide +kernel
  have hslot : ((runBroker openConfig (joins 0 .browser ++ joins 1 .client)).heap
      ⟨demo, 0⟩).peers .client = some 1 := by decide +kernel
  exact ⟨hslot, ((registered_where_hub_points _ _ hok).1 _ _ _ hslot).2⟩

/-- Client 0 is about to drop the session; client 1 looks it up; the session is dropped; client 1
registers in it; browser 2 is given a new one. -/
def orphaning : List Act :=
  joins 0 .client ++ .close 0 :: gos 0 6 ++ dials 1 .client :: gos 1 1 ++ gos 0 1 ++ gos 1 7 ++ joins 2 .browser

theorem orphaned_client_unreachable :
    let b := runBroker openConfig orphaning
    (b.heap ⟨demo, 0⟩).peers .client = some 1 ∧ (b.heap ⟨demo, 1⟩).peers .browser = some 2 ∧
      (b.conns 1).key = (b.conns 2).key ∧ b.sessions (b.conns 1).key = some 1 ∧
      ((b.sess 2).forward 0 .client ⟨.offer, marshal EnvType.offer.name .browser none⟩ 2).2 =
        none := by
  decide +kernel

end Broker

end Chromeless.Signaling
