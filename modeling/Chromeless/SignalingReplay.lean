import Chromeless.SignalingDelivery

/-! What a joining peer is replayed. -/
namespace Chromeless.Signaling
open Function Json Runs List Buffered

namespace Session

theorem mem_due_iff (s : Session) (maxAge now : Time) (role : Role) (e : Buffered) :
    e ∈ s.due maxAge now role ↔ s.Holds role.other e ∧ stale maxAge now e = false := by
  have hsdp : e ∈ freshSDP maxAge now (s.recent role.other) ↔
      (∃ typ ∈ replayableTypes, s.recent role.other typ = some e) ∧ stale maxAge now e = false := by
    constructor
    · intro h
      obtain ⟨typ, htyp, hbuf, hfr⟩ := mem_freshSDP h
      exact ⟨⟨typ, htyp, hbuf⟩, hfr⟩
    rintro ⟨⟨typ, htyp, hbuf⟩, hfr⟩
    rw [freshSDP, mem_filterMap]
    refine ⟨typ, htyp, ?_⟩
    rw [Option.filter_eq_some_iff]
    exact ⟨hbuf, by simp [hfr]⟩
  rw [due, mem_append, hsdp, mem_filter, Holds, or_and_right]
  simp

theorem Numbered.due_msg_nodup {s : Session} (h : s.Numbered) (maxAge now : Time) (role : Role) :
    ((s.due maxAge now role).map msg).Nodup := by
  rw [Nodup, pairwise_map]
  apply (h.due_pairwise maxAge now role).imp
  intro e e' hbef he
  have htag : e.tag = e'.tag := by
    simp only [msg, Msg.mk.injEq, Option.some.injEq] at he
    exact he.2
  rw [htag] at hbef
  rcases hbef with hlt | ⟨-, -, hlt⟩ <;> omega

end Session

namespace Broker

variable {b : Broker} {c : ConnId} {first : Option Frame}

theorem step_register {cfg : Config} (now : Time) (hpc : (b.conns c).pc = .register first)
    (hfree : (b.sess c).peers (b.conns c).role = none) :
    ((step cfg b (.go c now)).conns c).send = (b.conns c).send.pushAll sendBuffer
      (((b.sess c).due cfg.iceReplayMaxAge now (b.conns c).role).map msg) := by
  have hloc : localStep b (b.conns c) = none := by
    unfold localStep
    rw [hpc]
  simp [step, advance, hloc, sharedStep, hpc, register, Session.register_free _ _ _ _ _ _ hfree,
    note_conns, setConn_conns, update_self]

theorem register_replays_all (cfg : Config) (now : Time) (hwf : Wf b) (hn : (b.sess c).Numbered)
    (hpc : (b.conns c).pc = .register first) (hfree : (b.sess c).peers (b.conns c).role = none) :
    (∀ e, (b.sess c).Holds (b.conns c).role.other e →
        Session.stale cfg.iceReplayMaxAge now e = false →
        e.msg ∈ ((step cfg b (.go c now)).conns c).send.log) ↔
      ((b.sess c).due cfg.iceReplayMaxAge now (b.conns c).role).length ≤ sendBuffer := by
  have hemp : (b.conns c).send = Chan.empty := by
    apply hwf.unsent
    rw [hpc]
    exact Or.inr rfl
  have hall := Chan.mem_pushAll_empty_iff sendBuffer (hn.due_msg_nodup cfg.iceReplayMaxAge now (b.conns c).role)
  rw [length_map] at hall
  rw [step_register now hpc hfree, hemp, ← hall]
  constructor
  · intro h m hm
    obtain ⟨e, he, rfl⟩ := mem_map.mp hm
    obtain ⟨hheld, hfr⟩ := (Session.mem_due_iff _ _ _ _ e).mp he
    exact h e hheld hfr
  · intro h e hheld hfr
    apply h
    apply mem_map_of_mem
    exact (Session.mem_due_iff _ _ _ _ e).mpr ⟨hheld, hfr⟩

/-- In every reachable state, a peer that registers is replayed all of the counterpart's fresh
envelopes exactly when there are no more of them than its channel has room for. -/
theorem register_replays_all_iff (cfg : Config) (acts : List Act) (c : ConnId) (now : Time) (first : Option Frame)
    (hpc : ((runBroker cfg acts).conns c).pc = .register first)
    (hfree : ((runBroker cfg acts).sess c).peers ((runBroker cfg acts).conns c).role = none) :
    let b := runBroker cfg acts
    (∀ e, (b.sess c).Holds (b.conns c).role.other e →
        Session.stale cfg.iceReplayMaxAge now e = false →
        e.msg ∈ ((step cfg b (.go c now)).conns c).send.log) ↔
      ((b.sess c).due cfg.iceReplayMaxAge now (b.conns c).role).length ≤ sendBuffer :=
  register_replays_all cfg now (wf_run cfg acts) ((delivered_run cfg acts).numbered _) hpc hfree

section

def candidate : Frame := ⟨.ice, marshal (ascii "ice") .browser (some (.str (ascii "candidate")))⟩

def offers : List Act := joins 0 .browser ++ speaks 0 .offer .browser

def gathers (n : ℕ) : List Act := (replicate n [Act.frame 0 candidate.raw, .go 0 0]).flatten

def arrives : List Act := [dials 1 .client, .go 1 0]

variable {b : Broker} {n : ℕ}

theorem run_candidate (cfg : Config) (hpc : (b.conns 0).pc = .reading)
    (hread : readFrame (b.conns 0).role candidate.raw = some candidate)
    (halone : (b.sess 0).peers (b.conns 0).role.other = none) :
    let b' := run (step cfg) b [.frame 0 candidate.raw, .go 0 0]
    b'.conns = b.conns ∧ b'.sessions = b.sessions ∧
      b'.heap = update b.heap (b.conns 0).ref ((b.sess 0).forward 0 (b.conns 0).role.other candidate 0).1 := by
  intro b'
  set b₁ := (b.goto 0 (.forward .later candidate)).note (.sent 0 .ice) with hb₁
  have hconn : b₁.conns 0 = { b.conns 0 with pc := .forward .later candidate } := by simp [hb₁]
  have hsess : b₁.sess 0 = b.sess 0 := by
    rw [sess, hconn]
    rfl
  have hfrm : step cfg b (.frame 0 candidate.raw) = b₁ := by
    simp only [step, hpc, hread]
    rfl
  have hgo : b' = b₁.forward 0 0 .later candidate := by
    have hrun : b' = step cfg (step cfg b (.frame 0 candidate.raw)) (.go 0 0) := rfl
    rw [hrun, hfrm]
    exact step_forward cfg 0 (by rw [hconn])
  rw [forward_missed 0 .later candidate (by rw [hsess, hconn]; exact halone), hconn, hsess] at hgo
  rw [hgo]
  refine ⟨?_, rfl, rfl⟩
  have hback : { b.conns 0 with pc := .reading } = b.conns 0 := by rw [← hpc]
  simp only [goto_eq, setConn_conns, note_conns, setSess_conns, hb₁]
  rw [update_idem]
  exact (congrArg (update b.conns 0) hback).trans (update_eq_self _ _)

theorem due_candidate (s : Session) (h : (s.recentICE .browser).length < iceReplayMaxPerSender) :
    let s' := (s.forward 0 .client candidate 0).1
    (s'.recentICE .browser).length = (s.recentICE .browser).length + 1 ∧
      (s'.due openConfig.iceReplayMaxAge 0 .client).length =
        (s.due openConfig.iceReplayMaxAge 0 .client).length + 1 := by
  have hdata : hasICEData candidate.raw = true := by decide +kernel
  have hroom : ¬ iceReplayMaxPerSender ≤ (s.recentICE .browser).length := Nat.not_le.mpr h
  have hsdp : isReplayable .ice = false := rfl
  have hice : candidate.typ = .ice := rfl
  have hfr : Session.stale openConfig.iceReplayMaxAge 0
      ⟨candidate.raw, 0, ⟨0, .ice, s.seq⟩⟩ = false := rfl
  simp [Session.forward, Session.due, Session.pushICE, Role.other, hdata, hroom, hsdp, hice, hfr]
  omega

theorem run_gathers (hpc : (b.conns 0).pc = .reading) (hrole : (b.conns 0).role = .browser)
    (halone : (b.sess 0).peers .client = none) (hqu : (b.sess 0).recentICE .browser = []) (n : ℕ)
    (hn : n ≤ iceReplayMaxPerSender) :
    let b' := run (step openConfig) b (gathers n)
    b'.conns = b.conns ∧ b'.sessions = b.sessions ∧ (b'.sess 0).peers = (b.sess 0).peers ∧
      ((b'.sess 0).recentICE .browser).length = n ∧
      ((b'.sess 0).due openConfig.iceReplayMaxAge 0 .client).length =
        ((b.sess 0).due openConfig.iceReplayMaxAge 0 .client).length + n := by
  induction n with
  | zero => exact ⟨rfl, rfl, rfl, by rw [gathers]; simp [hqu], rfl⟩
  | succ n ih =>
    obtain ⟨hcs, hsessi, hpeers, hlen, hdue⟩ := ih (by omega)
    set b₁ := run (step openConfig) b (gathers n) with hb₁
    have hsp : run (step openConfig) b (gathers (n+1)) =
        run (step openConfig) b₁ [.frame 0 candidate.raw, .go 0 0] := by
      rw [hb₁, ← run_append, gathers, gathers, replicate_succ', flatten_append]
      rfl
    have hread : readFrame (b₁.conns 0).role candidate.raw = some candidate := by
      rw [hcs, hrole]
      decide +kernel
    obtain ⟨hc, hs, hh⟩ := run_candidate openConfig (by rw [hcs, hpc]) hread (by rw [hcs, hrole, hpeers]; exact halone)
    rw [hsp]
    have hsess : (run (step openConfig) b₁ [.frame 0 candidate.raw, .go 0 0]).sess 0 =
        ((b₁.sess 0).forward 0 .client candidate 0).1 := by
      rw [sess, hc, hh, update_self, hcs, hrole]
      rfl
    obtain ⟨hlen', hdue'⟩ := due_candidate (b₁.sess 0) (by omega)
    refine ⟨hc.trans hcs, hs.trans hsessi, ?_, ?_, ?_⟩
    · rw [hsess, ← hpeers]
      rfl
    · rw [hsess, hlen', hlen]
    · rw [hsess, hdue', hdue]
      omega

theorem run_arrives (hidle : (b.conns 1).pc = .idle) (hknown : b.sessions demo = some 0) :
    let b' := run (step openConfig) b arrives
    (b'.conns 1).pc = .register (some ⟨.ice, hello .client⟩) ∧ (b'.conns 1).role = .client ∧
      (b'.conns 1).ref = ⟨demo, 0⟩ ∧ b'.heap = b.heap := by
  have hacc : accept openConfig 0 ⟨ascii "/ws/demo", [], hello .client⟩ =
      some (.client, demo, some ⟨.ice, hello .client⟩) := by decide +kernel
  set p := Conn.new .client demo (some ⟨.ice, hello .client⟩) with hp
  have hdial : step openConfig b (dials 1 .client) = b.setConn 1 p := by
    simp only [dials, step, hidle, hacc]
    rfl
  have hfound : step openConfig (b.setConn 1 p) (.go 1 0) = (b.setConn 1 p).setConn 1
      { p with gen := 0, pc := .register (some ⟨.ice, hello .client⟩) } := by
    simp [step, advance, localStep, sharedStep, getOrCreate, hp, Conn.new, hknown]
  have hrun : run (step openConfig) b arrives = step openConfig (step openConfig b (dials 1 .client)) (.go 1 0) := rfl
  rw [hrun, hdial, hfound]
  simp [hp, Conn.new, Conn.ref]

theorem run_crowded (hn : n ≤ iceReplayMaxPerSender) :
    let b := runBroker openConfig (offers ++ gathers n ++ arrives)
    (b.conns 1).pc = .register (some ⟨.ice, hello .client⟩) ∧ (b.conns 1).role = .client ∧
      (b.sess 1).peers .client = none ∧
      ((b.sess 1).due openConfig.iceReplayMaxAge 0 .client).length = n+1 := by
  intro b
  set b₀ := runBroker openConfig offers with hb₀
  have href : (b₀.conns 0).ref = ⟨demo, 0⟩ := by decide +kernel
  have halone : (b₀.sess 0).peers .client = none := by decide +kernel
  have hdue₀ : ((b₀.sess 0).due openConfig.iceReplayMaxAge 0 .client).length = 1 := by decide +kernel
  obtain ⟨hcs, hsessi, hpeers, -, hdue⟩ := run_gathers (b := b₀) (by decide +kernel)
    (by decide +kernel) halone (by decide +kernel) n hn
  set b₁ := run (step openConfig) b₀ (gathers n) with hb₁
  obtain ⟨hpc, hrole, href', hheap⟩ := run_arrives (b := b₁)
    (by rw [hcs]; decide +kernel) (by rw [hsessi]; decide +kernel)
  have hb : b = run (step openConfig) b₁ arrives := by
    rw [hb₁, hb₀, runBroker, ← run_append, ← run_append]
    rfl
  have hsess : b.sess 1 = b₁.sess 0 := by rw [sess, sess, hb, hheap, href', hcs, href]
  rw [hb] at hsess ⊢
  refine ⟨hpc, hrole, ?_, ?_⟩
  · rw [hsess, hpeers]
    exact halone
  · rw [hsess, hdue, hdue₀]
    omega

theorem register_replays_all_two :
    let b := runBroker openConfig (offers ++ gathers 2 ++ arrives)
    ∀ e, (b.sess 1).Holds (b.conns 1).role.other e →
      Session.stale openConfig.iceReplayMaxAge 0 e = false →
      e.msg ∈ ((step openConfig b (.go 1 0)).conns 1).send.log := by
  obtain ⟨hpc, hrole, hfree, hdue⟩ := run_crowded (n := 2) (by decide)
  apply (register_replays_all_iff openConfig _ 1 0 _ hpc (by rw [hrole]; exact hfree)).mpr
  rw [hrole, hdue]
  decide

theorem crowded_drops (hn : n ≤ iceReplayMaxPerSender) (hfull : sendBuffer < n+1) :
    let b := runBroker openConfig (offers ++ gathers n ++ arrives)
    (b.conns 1).pc.stage = .joining ∧ (b.sess 1).peers (b.conns 1).role = none ∧
      ∃ e, (b.sess 1).Holds (b.conns 1).role.other e ∧
        Session.stale openConfig.iceReplayMaxAge 0 e = false ∧
        e.msg ∉ ((step openConfig b (.go 1 0)).conns 1).send.log := by
  intro b
  obtain ⟨hpc, hrole, hfree, hdue⟩ := run_crowded hn
  have hfree' : (b.sess 1).peers (b.conns 1).role = none := by rwa [hrole]
  have hall := register_replays_all openConfig 0 (wf_run openConfig _)
    ((delivered_run openConfig _).numbered _) hpc hfree'
  refine ⟨by rw [hpc]; rfl, hfree', ?_⟩
  by_contra hnone
  have hfits := hall.mp (by
    intro e hheld hfr
    by_contra hlost
    exact hnone ⟨e, hheld, hfr, hlost⟩)
  rw [hrole, hdue] at hfits
  omega

theorem register_drops_of_thirty_three :
    let b := runBroker openConfig (offers ++ gathers 32 ++ arrives)
    (b.conns 1).pc.stage = .joining ∧ (b.sess 1).peers (b.conns 1).role = none ∧
      ∃ e, (b.sess 1).Holds (b.conns 1).role.other e ∧
        Session.stale openConfig.iceReplayMaxAge 0 e = false ∧
        e.msg ∉ ((step openConfig b (.go 1 0)).conns 1).send.log :=
  crowded_drops (by decide) (by decide)

end

end Broker

end Chromeless.Signaling
