import Chromeless.LibRuns

/-! The client's session (`ChromelessSession` in `session.ts`) between its awaits: what it dials and
builds, the watchdog that waits for an offer, and the pipelines that answer one. -/
namespace Chromeless.ClientSession
open Runs List

inductive Frame
  | offer | bye | other
deriving DecidableEq

/-- What a message handler holds on to over its awaits. -/
structure Handler where
  pc : ℕ
  rws : ℕ
deriving DecidableEq

/-- Sockets, peer connections and refreshers are numbered in the order they are made. -/
structure ChromelessSession where
  rws : Option ℕ := none
  pc : Option ℕ := none
  refresher : Option ℕ := none
  hasOpenedOnce : Bool := false
  offerSeen : Bool := false
  -- the timer that is pending, with whether it is the second one
  offerWaitTimer : Option Bool := none
  -- calls of `connect` that wait for the token or for the ICE configuration
  tokens : ℕ := 0
  ices : ℕ := 0
  -- messages that are being read, and offers with the awaits that are left until the answer
  reading : List (Handler × Frame) := []
  answering : List (Handler × ℕ) := []
  made : ℕ := 0
  -- what was made and not closed or stopped, and the sockets that are open
  sockets : List ℕ := []
  opened : List ℕ := []
  pcs : List ℕ := []
  refreshers : List ℕ := []
  answers : List Handler := []
  -- of the current peer connection: it got an offer, it was reported as failed without one
  offered : Bool := false
  reported : Bool := false

inductive Act
  | connect
  | tokenFetched (issued : Bool)
  | iceFetched (ok : Bool)
  | disconnect
  | opens (r : ℕ)
  | drops (r : ℕ)
  | message (r : ℕ) (frame : Frame)
  | read (i : ℕ)
  | settled (i : ℕ) (ok noCodec : Bool)
  | offerTimer
deriving DecidableEq

namespace ChromelessSession
variable (s : ChromelessSession)

def connect : ChromelessSession := if s.rws.isSome then s else { s with tokens := s.tokens + 1 }

def tokenFetched (issued : Bool) : ChromelessSession :=
  if s.tokens = 0 then s
  else
    let s := { s with tokens := s.tokens - 1, ices := s.ices + 1 }
    if issued then { s with
      refresher := some s.made
      refreshers := s.made :: s.refreshers
      made := s.made + 1 }
    else s

def buildPeerConnection : ChromelessSession :=
  { s with
    pc := some s.made
    pcs := s.made :: s.pcs
    made := s.made + 1
    offered := false
    reported := false }

def iceFetched (ok : Bool) : ChromelessSession :=
  if s.ices = 0 then s
  else
    let s := { s with ices := s.ices - 1 }
    if ok then
      { s with
        rws := some s.made
        sockets := s.made :: s.sockets
        made := s.made + 1
        hasOpenedOnce := false }.buildPeerConnection
    else s

def teardown : ChromelessSession :=
  if s.rws.isNone && s.pc.isNone then s
  else { s with
    offerWaitTimer := none
    refreshers := s.refreshers.filter (some · ≠ s.refresher)
    refresher := none
    pcs := s.pcs.filter (some · ≠ s.pc)
    sockets := s.sockets.filter (some · ≠ s.rws)
    opened := s.opened.filter (some · ≠ s.rws)
    rws := none
    pc := none }

def armOfferWatchdog : ChromelessSession := { s with offerSeen := false, offerWaitTimer := some false }

def rebuildPeerConnection : ChromelessSession :=
  if s.pc.isNone then s
  else { s with pcs := s.pcs.filter (some · ≠ s.pc) }.buildPeerConnection

def onOpen (r : ℕ) : ChromelessSession :=
  if r ∈ s.sockets ∧ r ∉ s.opened then
    let s := { s with opened := r :: s.opened }
    if s.rws.isNone then s
    else if s.hasOpenedOnce then s.rebuildPeerConnection
    else { s with hasOpenedOnce := true }.armOfferWatchdog
  else s

/-- The handler takes the current connections, not the ones the message came on. -/
def onMessage (r : ℕ) (frame : Frame) : ChromelessSession :=
  match s.pc, s.rws with
  | some pc, some rws => if r ∈ s.opened then { s with reading := s.reading ++ [(⟨pc, rws⟩, frame)] } else s
  | _, _ => s

def onOffer (h : Handler) : ChromelessSession :=
  { s with
    offerSeen := true
    offerWaitTimer := none
    answering := s.answering ++ [(h, 3)]
    offered := s.offered || s.pc = some h.pc }

def handleMessage (i : ℕ) : ChromelessSession :=
  match s.reading[i]? with
  | none => s
  | some (h, frame) =>
    let s := { s with reading := s.reading.eraseIdx i }
    match frame with
    | .offer => s.onOffer h
    | .bye => s.teardown
    | .other => s

def answered (i : ℕ) (ok noCodec : Bool) : ChromelessSession :=
  match s.answering[i]? with
  | none => s
  | some (h, left) =>
    if !ok then { s with answering := s.answering.eraseIdx i }.teardown
    else if 1 < left then { s with answering := s.answering.set i (h, left - 1) }
    else
      let s := { s with
        answering := s.answering.eraseIdx i
        answers := if h.rws ∈ s.opened then s.answers ++ [h] else s.answers }
      if noCodec then s.teardown else s

def onOfferTimer : ChromelessSession :=
  match s.offerWaitTimer with
  | none => s
  | some second =>
    if s.offerSeen then { s with offerWaitTimer := none }
    else if second then { s with offerWaitTimer := none, reported := true }
    else { s with offerWaitTimer := some true }

def step : Act → ChromelessSession
  | .connect => s.connect
  | .tokenFetched issued => s.tokenFetched issued
  | .iceFetched ok => s.iceFetched ok
  | .disconnect => s.teardown
  | .opens r => s.onOpen r
  | .drops r => { s with opened := s.opened.erase r }
  | .message r frame => s.onMessage r frame
  | .read i => s.handleMessage i
  | .settled i ok noCodec => s.answered i ok noCodec
  | .offerTimer => s.onOfferTimer

/-- No call is made during the awaits of `connect`, and no refresher is left behind when the ICE
configuration cannot be fetched. -/
def Alone : Act → Prop
  | .connect | .disconnect => s.tokens = 0 ∧ s.ices = 0
  | .iceFetched false => s.refresher = none
  | _ => True

instance (a : Act) : Decidable (s.Alone a) := by
  unfold Alone
  split <;> infer_instance

/-- There is at most what the fields know. -/
structure Owned : Prop where
  sockets : s.sockets = s.rws.toList
  pcs : s.pcs = s.pc.toList
  refreshers : s.refreshers = s.refresher.toList
  both : s.rws.isSome = s.pc.isSome
  pending : s.tokens + s.ices ≤ 1
  connecting : 0 < s.tokens + s.ices → s.rws = none
  refresher : s.rws = none → s.ices = 0 → s.refresher = none
  opened : ∀ r ∈ s.opened, r ∈ s.sockets

variable {s}

/-- The steps on messages change what is being handled, or tear down. -/
theorem handled {P : ChromelessSession → Prop}
    (hall : ∀ reading answering answers, P { s with reading, answering, answers })
    (htear : ∀ {t}, P t → P t.teardown) :
    (∀ r frame, P (s.step (.message r frame))) ∧
      (∀ i ok noCodec, P (s.step (.settled i ok noCodec))) ∧
      ∀ i, (∀ m ∈ s.reading[i]?, m.2 = .offer →
        P ({ s with reading := s.reading.eraseIdx i }.onOffer m.1)) → P (s.step (.read i)) := by
  refine ⟨fun r frame => ?_, fun i ok noCodec => ?_, fun i hoffer => ?_⟩
  · simp only [step, onMessage]
    split
    · split <;> exact hall _ _ _
    · exact hall _ _ _
  · simp only [step, answered]
    split
    · exact hall _ _ _
    · split_ifs <;> first | exact hall _ _ _ | exact htear (hall _ _ _)
  · simp only [step, handleMessage]
    split
    · exact hall _ _ _
    rename_i m frame hm
    split
    · exact hoffer _ hm rfl
    · exact htear (hall _ _ _)
    · exact hall _ _ _

theorem filter_ne_self (o : Option ℕ) : o.toList.filter (some · ≠ o) = [] := by
  cases o <;> simp

theorem teardown_owned (h : s.Owned) : s.teardown.Owned := by
  obtain ⟨h1, h2, h3, h4, h5, h6, h7, h8⟩ := h
  unfold teardown
  split
  · exact ⟨h1, h2, h3, h4, h5, h6, h7, h8⟩
  refine ⟨(congrArg _ h1).trans (filter_ne_self _), (congrArg _ h2).trans (filter_ne_self _),
    (congrArg _ h3).trans (filter_ne_self _), rfl, h5, fun _ => rfl, fun _ _ => rfl, ?_⟩
  simp only [mem_filter]
  exact fun r hr => ⟨h8 r hr.1, hr.2⟩

theorem onOpen_owned (h : s.Owned) (r : ℕ) : (s.onOpen r).Owned := by
  obtain ⟨h1, h2, h3, h4, h5, h6, h7, h8⟩ := h
  unfold onOpen
  split
  next hr =>
    have hopn : ∀ r' ∈ r :: s.opened, r' ∈ s.sockets := by simpa [hr.1] using h8
    dsimp only
    split
    · exact ⟨h1, h2, h3, h4, h5, h6, h7, hopn⟩
    split
    · unfold rebuildPeerConnection
      split
      · exact ⟨h1, h2, h3, h4, h5, h6, h7, hopn⟩
      · exact ⟨h1, congrArg _ ((congrArg _ h2).trans (filter_ne_self _)), h3,
          by simp_all [buildPeerConnection], h5, h6, h7, hopn⟩
    · exact ⟨h1, h2, h3, h4, h5, h6, h7, hopn⟩
  · exact ⟨h1, h2, h3, h4, h5, h6, h7, h8⟩

theorem step_owned (a : Act) (hok : s.Alone a) (h : s.Owned) : (s.step a).Owned := by
  have hown := h
  have hhan := handled (P := Owned) (fun _ _ _ => { h with }) teardown_owned
  obtain ⟨h1, h2, h3, h4, h5, h6, h7, h8⟩ := h
  cases a with
  | connect =>
    have hnone : s.tokens = 0 ∧ s.ices = 0 := hok
    simp only [step, connect]
    split
    · exact hown
    · exact ⟨h1, h2, h3, h4, by simp [hnone], by simp_all, h7, h8⟩
  | tokenFetched issued =>
    simp only [step, tokenFetched]
    split
    · exact hown
    have hrws := h6 (by omega)
    have hrefr := h7 hrws (by omega)
    split
    · exact ⟨h1, h2, by simp [h3, hrefr], h4, by simp only; omega, fun _ => hrws, by simp, h8⟩
    · exact ⟨h1, h2, h3, h4, by simp only; omega, fun _ => hrws, by simp, h8⟩
  | iceFetched ok =>
    simp only [step, iceFetched]
    split
    · exact hown
    have hrws := h6 (by omega)
    have hpc : s.pc = none := by simpa [hrws] using h4
    have hpend : s.tokens + (s.ices - 1) = 0 := by omega
    cases ok with
    | false => exact ⟨h1, h2, h3, h4, by simp [hpend], fun _ => hrws, fun _ _ => hok, h8⟩
    | true =>
      exact ⟨by simp [buildPeerConnection, h1, hrws], by simp [buildPeerConnection, h2, hpc], h3, rfl,
        by simp [buildPeerConnection, hpend], by simp [buildPeerConnection, hpend], nofun,
        fun r hr => mem_cons_of_mem _ (h8 r hr)⟩
  | disconnect => exact teardown_owned hown
  | opens r => exact onOpen_owned hown r
  | drops r => exact { hown with opened := fun r hr => h8 r (mem_of_mem_erase hr) }
  | message r frame => exact hhan.1 r frame
  | read i => exact hhan.2.2 i fun _ _ _ => { hown with }
  | settled i ok noCodec => exact hhan.2.1 i ok noCodec
  | offerTimer =>
    simp only [step, onOfferTimer]
    split
    · exact hown
    · split_ifs <;> exact { hown with }

theorem run_owned {as : List Act} (h : Meets step Alone {} as) : (run step {} as).Owned :=
  invariant_run_meets step _ Owned (fun _ a hok hi => step_owned a hok hi)
    ⟨rfl, rfl, rfl, rfl, by decide, fun _ => rfl, fun _ _ => rfl, nofun⟩ h

/-- Nothing is live and no call is under way. -/
structure Gone (s : ChromelessSession) : Prop where
  rws : s.rws = none
  pc : s.pc = none
  sockets : s.sockets = []
  pcs : s.pcs = []
  refreshers : s.refreshers = []
  tokens : s.tokens = 0
  ices : s.ices = 0

theorem Gone.teardown (h : s.Gone) : s.teardown.Gone := by
  simpa [ChromelessSession.teardown, h.rws, h.pc] using h

theorem teardown_gone (h : s.Owned) (hcall : s.tokens = 0 ∧ s.ices = 0) : s.teardown.Gone := by
  have hnone : s.teardown.rws = none ∧ s.teardown.tokens = 0 ∧ s.teardown.ices = 0 := by
    unfold ChromelessSession.teardown
    split <;> simp_all
  obtain ⟨h1, h2, h3, h4, _, _, h7, _⟩ := teardown_owned h
  have hpc : s.teardown.pc = none := by simpa [hnone.1] using h4
  exact ⟨hnone.1, hpc, by simp [h1, hnone.1], by simp [h2, hpc], by simp [h3, h7 hnone.1 hnone.2.2],
    hnone.2.1, hnone.2.2⟩

theorem step_gone (a : Act) (ha : a ≠ .connect) (h : s.Gone) : (s.step a).Gone := by
  have hhan := handled (P := Gone) (fun _ _ _ => { h with }) Gone.teardown
  cases a with
  | connect => exact absurd rfl ha
  | tokenFetched issued => simpa [step, tokenFetched, h.tokens] using h
  | iceFetched ok => simpa [step, iceFetched, h.ices] using h
  | disconnect => exact h.teardown
  | opens r => simpa [step, onOpen, h.sockets] using h
  | drops r => exact { h with }
  | message r frame => exact hhan.1 r frame
  | read i => exact hhan.2.2 i fun _ _ _ => { h with }
  | settled i ok noCodec => exact hhan.2.1 i ok noCodec
  | offerTimer =>
    simp only [step, onOfferTimer]
    split
    · exact h
    · split_ifs <;> exact { h with }

theorem session_lifecycle (as : List Act) (h : Meets step Alone {} as) :
    (run step {} as).sockets.length ≤ 1 ∧ (run step {} as).refreshers.length ≤ 1 ∧
      ∀ bs cs, as = bs ++ .disconnect :: cs → .connect ∉ cs → (run step {} as).sockets = [] ∧
        (run step {} as).pcs = [] ∧ (run step {} as).refreshers = [] := by
  have howned := run_owned h
  refine ⟨by simp [howned.sockets, Option.length_toList_le], by simp [howned.refreshers, Option.length_toList_le], ?_⟩
  rintro bs cs rfl hcs
  obtain ⟨hbs, hcall, _⟩ := (meets_append _ _ _ bs _).mp h
  have hdown : ((run step {} bs).step .disconnect).Gone := teardown_gone (run_owned hbs) hcall
  have hgone := invariant_run_after step Alone Gone
    (fun _ a _ ha hg => step_gone a (fun he => hcs (he ▸ ha)) hg) hdown h
  exact ⟨hgone.sockets, hgone.pcs, hgone.refreshers⟩

def reopened : List Act :=
  [.connect, .tokenFetched true, .iceFetched true, .opens 1, .drops 1, .opens 1]

theorem session_lifecycle_reopened : (run step {} (reopened ++ [.disconnect])).sockets = [] :=
  ((session_lifecycle (reopened ++ [.disconnect]) (by decide)).2.2 reopened [] rfl (by decide)).1

/-- Two overlapping calls leave two sockets and two refreshers; a `disconnect` during the awaits does not
stop the dial; and when the ICE configuration cannot be fetched, `disconnect` leaves the refresher. -/
theorem session_leaks :
    (run step {} [.connect, .connect, .tokenFetched true, .tokenFetched true, .iceFetched true,
      .iceFetched true]).sockets = [4, 2] ∧
    (run step {} [.connect, .tokenFetched true, .disconnect, .iceFetched true]).sockets = [1] ∧
    (run step {} [.connect, .tokenFetched true, .iceFetched false, .disconnect]).refreshers = [0] := by
  decide

section

/-- A reopened socket finds the watchdog armed, and an offer is handled while its peer connection is the
current one. -/
def Watched (s : ChromelessSession) (a : Act) : Prop :=
  s.Alone a ∧
    match a with
    | .opens r => r ∈ s.sockets → r ∉ s.opened → s.hasOpenedOnce = true → s.offerWaitTimer.isSome
    | .read i => ∀ m ∈ s.reading[i]?, m.2 = .offer → s.pc = some m.1.pc
    | _ => True

instance (s : ChromelessSession) (a : Act) : Decidable (s.Watched a) := by
  unfold Watched
  cases a <;> infer_instance

structure Watching (s : ChromelessSession) : Prop where
  waits : s.rws.isSome → s.hasOpenedOnce = true → s.offered = false → s.offerWaitTimer.isSome ∨ s.reported = true
  opened : ∀ r ∈ s.opened, s.rws = some r → s.hasOpenedOnce = true
  seen : s.offerWaitTimer.isSome → s.offerSeen = false

theorem teardown_watching (h : s.Watching) : s.teardown.Watching := by
  unfold teardown
  split
  · exact h
  · exact ⟨nofun, nofun, nofun⟩

theorem step_watching (a : Act) (hok : s.Watched a) (ho : s.Owned) (h : s.Watching) :
    (s.step a).Watching := by
  have hwat := h
  have hhan := handled (P := Watching) (fun _ _ _ => { h with }) teardown_watching
  obtain ⟨h1, h2, h3⟩ := h
  cases a with
  | connect =>
    simp only [step, connect]
    split
    · exact hwat
    · exact { hwat with }
  | tokenFetched issued =>
    simp only [step, tokenFetched]
    split_ifs
    · exact hwat
    · exact { hwat with }
    · exact { hwat with }
  | iceFetched ok =>
    simp only [step, iceFetched]
    split_ifs
    · exact hwat
    · -- the new socket is not open yet
      refine ⟨nofun, fun r hr => ?_, h3⟩
      have hmem := ho.opened r hr
      simp [ho.sockets, ho.connecting (by omega)] at hmem
    · exact { hwat with }
  | disconnect => exact teardown_watching hwat
  | opens r =>
    simp only [step, onOpen]
    split_ifs with hr hrws honce
    · exact ⟨h1, by simp_all, h3⟩
    · have hamd := hok.2 hr.1 hr.2 honce
      unfold rebuildPeerConnection
      split
      · exact ⟨h1, fun _ _ _ => honce, h3⟩
      · exact ⟨fun _ _ _ => .inl hamd, fun _ _ _ => honce, h3⟩
    · exact ⟨fun _ _ _ => .inl rfl, fun _ _ _ => rfl, fun _ => rfl⟩
    · exact hwat
  | drops r => exact { hwat with opened := fun r hr => h2 r (mem_of_mem_erase hr) }
  | message r frame => exact hhan.1 r frame
  | read i =>
    refine hhan.2.2 i fun m hm hoffer => ?_
    exact ⟨by simp [onOffer, hok.2 m hm hoffer], h2, nofun⟩
  | settled i ok noCodec => exact hhan.2.1 i ok noCodec
  | offerTimer =>
    simp only [step, onOfferTimer]
    split
    · exact hwat
    rename_i second ht
    have hseen : s.offerSeen = false := h3 (by simp [ht])
    simp only [hseen, Bool.false_eq_true, ↓reduceIte]
    split
    · exact ⟨fun _ _ _ => .inr rfl, h2, nofun⟩
    · exact ⟨fun _ _ _ => .inl rfl, h2, fun _ => rfl⟩

theorem offer_watched (as : List Act) (h : Meets step Watched {} as) (r : ℕ) (hr : (run step {} as).rws = some r)
    (hopen : r ∈ (run step {} as).opened) (hoffer : (run step {} as).offered = false) :
    (run step {} as).offerWaitTimer.isSome ∨ (run step {} as).reported = true := by
  have hinv := invariant_run_meets step Watched (fun s => s.Owned ∧ s.Watching)
    (fun _ a hok hi => ⟨step_owned a hok.1 hi.1, step_watching a hok hi.1 hi.2⟩)
    ⟨run_owned (show Meets step Alone {} [] from trivial), nofun, nofun, nofun⟩ h
  exact hinv.2.waits (by simp [hr]) (hinv.2.opened r hopen hr) hoffer

theorem offer_watched_reopened : (run step {} (reopened ++ [.offerTimer])).offerWaitTimer.isSome ∨
    (run step {} (reopened ++ [.offerTimer])).reported = true := by
  apply offer_watched (r := 1) <;> decide +kernel

/-- An offer is being answered. -/
def offers : List Act :=
  [.connect, .tokenFetched false, .iceFetched true, .opens 0, .message 0 .offer, .read 0]

/-- Reopened after an offer: the new peer connection waits for one without a timer. -/
theorem reopened_unwatched :
    let s := run step {} (offers ++ [.drops 0, .opens 0])
    s.rws = some 0 ∧ s.opened = [0] ∧ s.pc = some 2 ∧ s.offered = false ∧ s.offerWaitTimer = none ∧
      s.reported = false := by
  decide

end

section

/-- A new peer connection is made when no message is being handled. -/
def Settled (s : ChromelessSession) : Act → Prop
  | .opens r => r ∈ s.sockets → r ∉ s.opened → s.hasOpenedOnce = true → s.reading.length = 0 ∧ s.answering.length = 0
  | .iceFetched true => s.reading.length = 0 ∧ s.answering.length = 0
  | _ => True

instance (s : ChromelessSession) (a : Act) : Decidable (s.Settled a) := by
  unfold Settled
  split <;> infer_instance

def handlers (s : ChromelessSession) : List Handler := s.reading.map (·.1) ++ s.answering.map (·.1)

/-- What is handled belongs to the current connections, unless there are none. -/
def Isolated (s : ChromelessSession) : Prop :=
  ∀ h ∈ s.handlers, s.pc = some h.pc ∧ s.rws = some h.rws ∨ s.pc = none ∧ s.rws = none

theorem Isolated.mono (h : s.Isolated) {t : ChromelessSession} (hpc : t.pc = s.pc) (hrws : t.rws = s.rws)
    (hr : ∀ x ∈ t.reading.map (·.1), x ∈ s.reading.map (·.1))
    (ha : ∀ x ∈ t.answering.map (·.1), x ∈ s.handlers) : t.Isolated := by
  unfold Isolated
  rw [hpc, hrws]
  intro x hx
  obtain hx | hx := mem_append.mp hx
  · exact h x (mem_append_left _ (hr x hx))
  · exact h x (ha x hx)

theorem Isolated.teardown (h : s.Isolated) : s.teardown.Isolated := by
  unfold ChromelessSession.teardown
  split
  · exact h
  · exact fun _ _ => .inr ⟨rfl, rfl⟩

theorem step_isolated (a : Act) (hok : s.Settled a) (h : s.Isolated) : (s.step a).Isolated := by
  have hemp (t : ChromelessSession) (hr : t.reading.length = 0) (ha : t.answering.length = 0) :
      t.Isolated := by
    simp only [length_eq_zero_iff] at hr ha
    simp [Isolated, handlers, hr, ha]
  cases a with
  | connect =>
    simp only [step, connect]
    split <;> exact h
  | tokenFetched issued =>
    simp only [step, tokenFetched]
    split_ifs <;> exact h
  | iceFetched ok =>
    simp only [step, iceFetched]
    split_ifs with _ hice
    · exact h
    · subst hice
      exact hemp _ hok.1 hok.2
    · exact h
  | disconnect => exact h.teardown
  | opens r =>
    simp only [step, onOpen]
    split_ifs with hr _ honce
    · exact h
    · obtain ⟨h1, h2⟩ := hok hr.1 hr.2 honce
      unfold rebuildPeerConnection
      split <;> exact hemp _ h1 h2
    · exact h
    · exact h
  | drops r => exact h
  | message r frame =>
    simp only [step, onMessage]
    split
    next pc rws hpc hrws =>
      split
      · intro x hx
        simp only [handlers, map_append, map_cons, map_nil, mem_append, mem_singleton] at hx
        obtain (hx | rfl) | hx := hx
        · exact h x (by simp [handlers, hx])
        · exact .inl ⟨hpc, hrws⟩
        · exact h x (by simp [handlers, hx])
      · exact h
    · exact h
  | read i =>
    simp only [step, handleMessage]
    split
    · exact h
    rename_i x frame hx
    have hmem : x ∈ s.handlers := mem_append_left _ (mem_map_of_mem (mem_of_getElem? hx))
    have hsub : ∀ y ∈ (s.reading.eraseIdx i).map (·.1), y ∈ s.reading.map (·.1) := fun y hy =>
      map_subset _ (eraseIdx_subset ..) hy
    have hold : ∀ y ∈ s.answering.map (·.1), y ∈ s.handlers := fun y hy =>
      mem_append_right _ hy
    split
    · refine h.mono rfl rfl hsub fun y hy => ?_
      simp only [onOffer, map_append, map_cons, map_nil, mem_append, mem_singleton] at hy
      obtain hy | rfl := hy
      · exact hold y hy
      · exact hmem
    · exact Isolated.teardown (h.mono rfl rfl hsub hold)
    · exact h.mono rfl rfl hsub hold
  | settled i ok noCodec =>
    simp only [step, answered]
    split
    · exact h
    rename_i x left hx
    have hrest (answers : List Handler) :
        { s with answering := s.answering.eraseIdx i, answers }.Isolated :=
      h.mono rfl rfl (fun _ => id) fun y hy =>
        mem_append_right _ (map_subset _ (eraseIdx_subset ..) hy)
    have hset : { s with answering := s.answering.set i (x, left - 1) }.Isolated := by
      refine h.mono rfl rfl (fun _ => id) fun y hy => mem_append_right _ ?_
      rw [map_set] at hy
      obtain hy | rfl := mem_or_eq_of_mem_set hy
      · exact hy
      · exact mem_map_of_mem (mem_of_getElem? hx)
    split_ifs <;> first | exact hset | exact hrest _ | exact (hrest _).teardown
  | offerTimer =>
    simp only [step, onOfferTimer]
    split
    · exact h
    · split_ifs <;> exact h

theorem pipelines_isolated (as : List Act) (h : Meets step Settled {} as) (i : ℕ) (ok noCodec : Bool) (x : Handler)
    (left : ℕ) (hx : (run step {} as).answering[i]? = some (x, left)) (hpc : (run step {} as).pc ≠ some x.pc) :
    ((run step {} as).step (.settled i ok noCodec)).rws = (run step {} as).rws ∧
      ((run step {} as).step (.settled i ok noCodec)).pc = (run step {} as).pc ∧
      ((run step {} as).rws.isSome →
        ((run step {} as).step (.settled i ok noCodec)).answers = (run step {} as).answers) := by
  have hinv : (run step {} as).Isolated :=
    invariant_run_meets step Settled Isolated (fun _ a hok hi => step_isolated a hok hi) nofun h
  generalize run step {} as = s at *
  have hmem : x ∈ s.handlers := mem_append_right _ (mem_map_of_mem (mem_of_getElem? hx))
  obtain ⟨hc, _⟩ | ⟨hnone, hrws⟩ := hinv x hmem
  · exact absurd hc hpc
  · simp only [step, answered, hx]
    refine ⟨?_, ?_, by simp [hrws]⟩ <;> split_ifs <;> simp [teardown, hnone, hrws]

theorem pipelines_isolated_disconnected :
    ((run step {} (offers ++ [.disconnect])).step (.settled 0 false false)).rws = none :=
  (pipelines_isolated (offers ++ [.disconnect]) (by decide) 0 false false ⟨1, 0⟩ 3 rfl (by decide)).1

/-- Reopened before the answer is ready: its failure takes the new peer connection down, and if it does
not fail it is sent on the socket of the new one. -/
theorem stale_pipeline :
    let s := run step {} (offers ++ [.drops 0, .opens 0])
    s.pc = some 2 ∧ s.rws = some 0 ∧ (s.step (.settled 0 false false)).rws = none ∧
      (run step s [.settled 0 true false, .settled 0 true false, .settled 0 true false]).answers = [⟨1, 0⟩] := by
  decide

end

end ChromelessSession

end Chromeless.ClientSession
