import Chromeless.LibBag
import Chromeless.LibNumber
import Chromeless.LibRuns
import Mathlib.Data.List.DropRight

/-! The guest's end of the cursor channel: `cb_cursor_emit_policy.cc`, `cb_cursor_envelope.cc` and
`cb_cursor_dc_emitter.cc`. Sends end later, in any order. -/
namespace Chromeless.Cursor
open List Number

/-- `ui::mojom::CursorType`. `other` is an enumerator that the switch of the envelope has no case
for. -/
inductive CursorType
  | pointer | hand | iBeam | verticalText | cross | wait | progress | help | contextMenu
  | cell | alias | copy | noDrop | notAllowed | grab | grabbing | move | zoomIn | zoomOut
  | eastResize | northResize | northEastResize | northWestResize
  | southResize | southEastResize | southWestResize | westResize
  | eastWestResize | northSouthResize | northEastSouthWestResize | northWestSouthEastResize
  | columnResize | rowResize | middlePanning
  | eastPanning | northPanning | northEastPanning | northWestPanning
  | southPanning | southEastPanning | southWestPanning | westPanning
  | none | null | custom | dndNone | dndMove | dndCopy | dndLink
  | other (value : ℕ)
deriving DecidableEq

structure JoinedCursorState where
  type : CursorType
  visible : Bool
  x : ℚ
  y : ℚ
  buttonsBlink : UInt32
  hasPointerHistory : Bool
deriving DecidableEq

/-! ### The envelope -/

def cssKeywordForType : CursorType → String
  | .pointer => "default"
  | .hand => "pointer"
  | .iBeam => "text"
  | .verticalText => "vertical-text"
  | .cross => "crosshair"
  | .wait => "wait"
  | .progress => "progress"
  | .help => "help"
  | .contextMenu => "context-menu"
  | .cell => "cell"
  | .alias => "alias"
  | .copy => "copy"
  | .noDrop => "no-drop"
  | .notAllowed => "not-allowed"
  | .grab => "grab"
  | .grabbing => "grabbing"
  | .move => "move"
  | .zoomIn => "zoom-in"
  | .zoomOut => "zoom-out"
  | .eastResize => "e-resize"
  | .northResize => "n-resize"
  | .northEastResize => "ne-resize"
  | .northWestResize => "nw-resize"
  | .southResize => "s-resize"
  | .southEastResize => "se-resize"
  | .southWestResize => "sw-resize"
  | .westResize => "w-resize"
  | .eastWestResize => "ew-resize"
  | .northSouthResize => "ns-resize"
  | .northEastSouthWestResize => "nesw-resize"
  | .northWestSouthEastResize => "nwse-resize"
  | .columnResize => "col-resize"
  | .rowResize => "row-resize"
  | .middlePanning | .eastPanning | .northPanning | .northEastPanning | .northWestPanning
  | .southPanning | .southEastPanning | .southWestPanning | .westPanning => "all-scroll"
  | .none => "none"
  | .null => "default"
  | .custom => "custom"
  | .dndNone => "no-drop"
  | .dndMove => "move"
  | .dndCopy => "copy"
  | .dndLink => "alias"
  | .other _ => "default"

structure V1EnvelopeView where
  v : ℕ := 1
  typeTag : String := "cursor"
  seq : ℤ
  x : ℤ
  y : ℤ
  visible : Bool
  shape : String
deriving DecidableEq

def shapeFor (type : CursorType) (visible : Bool) : String :=
  if visible then cssKeywordForType type else "none"

def encodeWithSeq (joined : JoinedCursorState) (seq : ℤ) : V1EnvelopeView where
  seq := seq
  x := trunc joined.x
  y := trunc joined.y
  visible := joined.visible
  shape := shapeFor joined.type joined.visible

/-! ### The policy -/

structure PolicyConfig where
  minEmitGap : ℤ := 0
  positionQuantumPx : ℤ := 1
  replayBufferCapacity : ℕ := 1

def lround (v : ℚ) : ℤ := if 0 ≤ v then ⌊v + 1/2⌋ else -⌊-v + 1/2⌋

def PolicyConfig.roundPosition (cfg : PolicyConfig) (x y : ℚ) : ℤ × ℤ :=
  let q := if 0 < cfg.positionQuantumPx then cfg.positionQuantumPx else 1
  if q = 1 then (lround x, lround y)
  else
    let roundToQ := fun v : ℚ => lround (v/q)*q
    (roundToQ x, roundToQ y)

structure PolicySnapshot where
  type : CursorType
  visible : Bool
  xRounded : ℤ
  yRounded : ℤ
  buttonsBlink : UInt32
  emittedAt : ℤ
  seq : ℤ
  hasPointerHistory : Bool
deriving DecidableEq

inductive SuppressReason
  | dedupe | debounce
deriving DecidableEq

inductive EmitDecision
  | emit
  | suppress (reason : SuppressReason)
deriving DecidableEq

structure EmitPolicy where
  nextSeq : ℤ := 0
  last : Option PolicySnapshot := none
  pending : Option JoinedCursorState := none
  replay : List PolicySnapshot := []
deriving DecidableEq

def snapshotOf (cfg : PolicyConfig) (joined : JoinedCursorState) (now seq : ℤ) : PolicySnapshot where
  type := joined.type
  visible := joined.visible
  xRounded := (cfg.roundPosition joined.x joined.y).1
  yRounded := (cfg.roundPosition joined.x joined.y).2
  buttonsBlink := joined.buttonsBlink
  emittedAt := now
  seq := seq
  hasPointerHistory := joined.hasPointerHistory

def PolicySnapshot.joined (snap : PolicySnapshot) : JoinedCursorState where
  type := snap.type
  visible := snap.visible
  x := snap.xRounded
  y := snap.yRounded
  buttonsBlink := snap.buttonsBlink
  hasPointerHistory := snap.hasPointerHistory

section
variable (cfg : PolicyConfig) (p : EmitPolicy)

def EmitPolicy.isDuplicate (joined : JoinedCursorState) : Bool :=
  match p.last with
  | none => false
  | some l =>
    let rounded := cfg.roundPosition joined.x joined.y
    l.type = joined.type && l.visible = joined.visible && l.buttonsBlink = joined.buttonsBlink &&
      l.xRounded = rounded.1 && l.yRounded = rounded.2

def EmitPolicy.tooSoon (now : ℤ) : Bool :=
  0 < cfg.minEmitGap && p.last.any fun l => now - l.emittedAt < cfg.minEmitGap

def EmitPolicy.decide (joined : JoinedCursorState) (now : ℤ) : EmitDecision × EmitPolicy :=
  if p.isDuplicate cfg joined then (.suppress .dedupe, p)
  else if p.tooSoon cfg now then (.suppress .debounce, { p with pending := some joined })
  else (.emit, { p with pending := none })

def EmitPolicy.allocSeq : ℤ × EmitPolicy := (p.nextSeq, { p with nextSeq := p.nextSeq+1 })

def EmitPolicy.onEmitted (joined : JoinedCursorState) (now : ℤ) : EmitPolicy :=
  let snap := snapshotOf cfg joined now (p.nextSeq-1)
  { p with
    last := some snap
    replay :=
      if 0 < cfg.replayBufferCapacity then (p.replay ++ [snap]).rtake cfg.replayBufferCapacity
      else p.replay }

end

/-! ### The emitter -/

/-- `opening` says for the how manieth time the channel was open then, and is kept for stating
properties. -/
structure Send where
  joined : JoinedCursorState
  seq : ℤ
  recordEmitted : Bool
  opening : ℕ
deriving DecidableEq

def Send.envelope (p : Send) : V1EnvelopeView := encodeWithSeq p.joined p.seq

structure EmitterStats where
  emits : ℕ := 0
  suppressDedupe : ℕ := 0
  suppressDebounce : ℕ := 0
  suppressDcClosed : ℕ := 0
  sendErrors : ℕ := 0
  dcReplays : ℕ := 0
deriving DecidableEq

inductive DataState
  | connecting | open | closing | closed
deriving DecidableEq

/-- `inFlight` are the sends that have not ended. `sent`, `latest` and `openings` are kept for
stating properties. -/
structure Emitter where
  policy : EmitPolicy := {}
  cursorDcOpen : Bool := false
  cursorDcEverOpened : Bool := false
  pendingWhileClosed : Option JoinedCursorState := none
  stats : EmitterStats := {}
  inFlight : List Send := []
  sent : List Send := []
  latest : Option JoinedCursorState := none
  openings : ℕ := 0
deriving DecidableEq

inductive Event
  | join (joined : JoinedCursorState) (now : ℤ)
  /-- the completion of the `i`-th send in flight is run -/
  | complete (i : ℕ) (ok : Bool) (now : ℤ)
  | channel (state : DataState) (now : ℤ)

section
variable (cfg : PolicyConfig) (s : Emitter)

def Emitter.encodeAndSendAsync (joined : JoinedCursorState) (seq : ℤ) (recordEmitted : Bool) : Emitter :=
  let p : Send := ⟨joined, seq, recordEmitted, s.openings⟩
  { s with inFlight := s.inFlight ++ [p], sent := s.sent ++ [p] }

open Emitter

def Emitter.onJoined (joined : JoinedCursorState) (now : ℤ) : Emitter :=
  let (decision, policy) := s.policy.decide cfg joined now
  match decision with
  | .suppress .dedupe =>
    { s with policy := policy, stats := { s.stats with suppressDedupe := s.stats.suppressDedupe+1 } }
  | .suppress .debounce =>
    { s with
      policy := policy, stats := { s.stats with suppressDebounce := s.stats.suppressDebounce+1 } }
  | .emit =>
    if s.cursorDcOpen then
      let (seq, policy) := policy.allocSeq
      encodeAndSendAsync { s with policy := policy } joined seq true
    else
      { s with
        policy := policy, pendingWhileClosed := some joined
        stats := { s.stats with suppressDcClosed := s.stats.suppressDcClosed+1 } }

def Emitter.onSendComplete (p : Send) (ok : Bool) (now : ℤ) : Emitter :=
  if ok then
    { s with
      stats := { s.stats with emits := s.stats.emits+1 }
      policy := if p.recordEmitted then s.policy.onEmitted cfg p.joined now else s.policy }
  else { s with stats := { s.stats with sendErrors := s.stats.sendErrors+1 } }

def Emitter.replayAll (snaps : List PolicySnapshot) : Emitter :=
  snaps.foldl (fun s snap => s.encodeAndSendAsync snap.joined snap.seq false) s

def Emitter.replayOnOpen : Emitter :=
  if s.policy.replay = [] then s
  else
    replayAll { s with stats := { s.stats with dcReplays := s.stats.dcReplays+1 } }
      s.policy.replay

def Emitter.drain (now : ℤ) : Emitter :=
  match s.pendingWhileClosed with
  | none => s
  | some joined => onJoined cfg { s with pendingWhileClosed := none } joined now

def Emitter.markOpen : Emitter :=
  { s with
    cursorDcOpen := true, cursorDcEverOpened := true
    openings := if s.cursorDcOpen then s.openings else s.openings+1 }

def Emitter.onChannelStateChanged (state : DataState) (now : ℤ) : Emitter :=
  match state with
  | .open =>
    let reopen := s.cursorDcEverOpened && !s.cursorDcOpen
    let s := s.markOpen.drain cfg now
    if reopen then s.replayOnOpen else s
  | .closing | .closed => { s with cursorDcOpen := false }
  | .connecting => s

def step : Event → Emitter
  | .join joined now => onJoined cfg { s with latest := some joined } joined now
  | .complete i ok now =>
    match s.inFlight[i]? with
    | none => s
    | some p => onSendComplete cfg { s with inFlight := s.inFlight.eraseIdx i } p ok now
  | .channel state now => s.onChannelStateChanged cfg state now

abbrev run (es : List Event) : Emitter := Runs.run (step cfg) s es

end

/-! ### What is told apart -/

def key (cfg : PolicyConfig) (joined : JoinedCursorState) : CursorType × Bool × UInt32 × ℤ × ℤ :=
  (joined.type, joined.visible, joined.buttonsBlink, cfg.roundPosition joined.x joined.y)

def PolicySnapshot.key (snap : PolicySnapshot) : CursorType × Bool × UInt32 × ℤ × ℤ :=
  (snap.type, snap.visible, snap.buttonsBlink, snap.xRounded, snap.yRounded)

/-- The envelope shows the cursor of a state, up to differences in its position that are rounded
away. -/
def Describes (cfg : PolicyConfig) (env : V1EnvelopeView) (joined : JoinedCursorState) : Prop :=
  env.visible = joined.visible ∧ env.shape = shapeFor joined.type joined.visible ∧
    ∃ x y, cfg.roundPosition x y = cfg.roundPosition joined.x joined.y ∧ env.x = trunc x ∧ env.y = trunc y

section
variable {cfg : PolicyConfig} {p : EmitPolicy} {j j' : JoinedCursorState}

theorem isDuplicate_iff : p.isDuplicate cfg j = true ↔ p.last.map PolicySnapshot.key = some (key cfg j) := by
  unfold EmitPolicy.isDuplicate
  cases p.last with
  | none => simp
  | some => simp [PolicySnapshot.key, key, Prod.ext_iff, and_assoc]

theorem lround_intCast (n : ℤ) : lround n = n := by
  have hfloor : ∀ m : ℤ, ⌊(m : ℚ) + 1/2⌋ = m := by
    intro m
    rw [Int.floor_eq_iff]
    constructor <;> linarith
  unfold lround
  split
  · exact hfloor n
  have hneg := hfloor (-n)
  push_cast at hneg
  rw [hneg, neg_neg]

theorem roundPosition_roundPosition (cfg : PolicyConfig) (x y : ℚ) :
    cfg.roundPosition (cfg.roundPosition x y).1 (cfg.roundPosition x y).2 = cfg.roundPosition x y := by
  unfold PolicyConfig.roundPosition
  have hq : (0 : ℤ) < if 0 < cfg.positionQuantumPx then cfg.positionQuantumPx else 1 := by
    split
    · assumption
    · exact one_pos
  generalize (if 0 < cfg.positionQuantumPx then cfg.positionQuantumPx else 1) = q at hq
  dsimp only
  split
  · rw [lround_intCast, lround_intCast]
  have hne : (q : ℚ) ≠ 0 := by exact_mod_cast hq.ne'
  have hmul : ∀ n : ℤ, lround (((n*q : ℤ) : ℚ)/q) = n := by
    intro n
    rw [Int.cast_mul, mul_div_assoc, div_self hne, mul_one, lround_intCast]
  rw [hmul, hmul]

theorem key_joined_snapshotOf (cfg : PolicyConfig) (j : JoinedCursorState) (now seq : ℤ) :
    key cfg (snapshotOf cfg j now seq).joined = key cfg j := by
  simp [key, PolicySnapshot.joined, snapshotOf, roundPosition_roundPosition]

theorem describes_of_key (h : key cfg j = key cfg j') (seq : ℤ) :
    Describes cfg (encodeWithSeq j seq) j' := by
  simp only [key, Prod.mk.injEq] at h
  obtain ⟨htype, hvis, -, hpos⟩ := h
  refine ⟨hvis, ?_, j.x, j.y, hpos, rfl, rfl⟩
  rw [← htype, ← hvis]
  rfl

end

/-! ### What the emitter can do -/

section
variable {cfg : PolicyConfig} {s : Emitter} {j : JoinedCursorState} {now : ℤ}

/-- What `OnJoined` can make of a state that it is given. -/
inductive Joins (cfg : PolicyConfig) (s : Emitter) (j : JoinedCursorState) (now : ℤ) : Emitter → Prop
  | duplicate (stats : EmitterStats) (hlast : s.policy.last.map PolicySnapshot.key = some (key cfg j)) :
    Joins cfg s j now { s with stats := stats }
  | held (stats : EmitterStats) (hdecide : (s.policy.decide cfg j now).1 ≠ .emit) :
    Joins cfg s j now { s with policy := { s.policy with pending := some j }, stats := stats }
  | parked (stats : EmitterStats) (hclosed : s.cursorDcOpen = false)
    (hdecide : (s.policy.decide cfg j now).1 = .emit) :
    Joins cfg s j now
      { s with
        policy := { s.policy with pending := none }, pendingWhileClosed := some j, stats := stats }
  | handed (hopen : s.cursorDcOpen = true) (hdecide : (s.policy.decide cfg j now).1 = .emit) :
    Joins cfg s j now
      (Emitter.encodeAndSendAsync
        { s with policy := { s.policy with pending := none, nextSeq := s.policy.nextSeq+1 } }
        j s.policy.nextSeq true)

theorem onJoined_joins (cfg : PolicyConfig) (s : Emitter) (j : JoinedCursorState) (now : ℤ) :
    Joins cfg s j now (s.onJoined cfg j now) := by
  by_cases hdup : s.policy.isDuplicate cfg j = true
  · have hdcd : s.policy.decide cfg j now = (.suppress .dedupe, s.policy) := if_pos hdup
    rw [Emitter.onJoined, hdcd]
    exact .duplicate _ (isDuplicate_iff.mp hdup)
  by_cases hsoon : s.policy.tooSoon cfg now = true
  · have hdcd : s.policy.decide cfg j now =
        (.suppress .debounce, { s.policy with pending := some j }) :=
      (if_neg hdup).trans (if_pos hsoon)
    have hno : (s.policy.decide cfg j now).1 ≠ .emit := by
      rw [hdcd]
      intro hemit
      cases hemit
    rw [Emitter.onJoined, hdcd]
    exact .held _ hno
  have hdcd : s.policy.decide cfg j now = (.emit, { s.policy with pending := none }) :=
    (if_neg hdup).trans (if_neg hsoon)
  have hemit : (s.policy.decide cfg j now).1 = .emit := by rw [hdcd]
  rw [Emitter.onJoined, hdcd]
  dsimp only
  split
  next hopen => exact .handed hopen hemit
  next hcl => exact .parked _ (Bool.eq_false_iff.mpr hcl) hemit

theorem decide_of_duplicate (hlast : s.policy.last.map PolicySnapshot.key = some (key cfg j)) :
    (s.policy.decide cfg j now).1 ≠ .emit := by
  rw [EmitPolicy.decide, if_pos (isDuplicate_iff.mpr hlast)]
  intro hemit
  cases hemit

def PolicySnapshot.again (snap : PolicySnapshot) (opening : ℕ) : Send :=
  ⟨snap.joined, snap.seq, false, opening⟩

theorem replayAll_eq (s : Emitter) (snaps : List PolicySnapshot) :
    s.replayAll snaps =
      { s with
        inFlight := s.inFlight ++ snaps.map (·.again s.openings)
        sent := s.sent ++ snaps.map (·.again s.openings) } := by
  induction snaps generalizing s with
  | nil => simp [Emitter.replayAll]
  | cons snap snaps ih =>
    have hnext : s.replayAll (snap :: snaps) = (s.encodeAndSendAsync snap.joined snap.seq false).replayAll snaps := rfl
    rw [hnext, ih]
    simp [Emitter.encodeAndSendAsync, PolicySnapshot.again]

theorem replayOnOpen_eq (s : Emitter) :
    ∃ stats, s.replayOnOpen =
      { s with
        stats := stats
        inFlight := s.inFlight ++ s.policy.replay.map (·.again s.openings)
        sent := s.sent ++ s.policy.replay.map (·.again s.openings) } := by
  unfold Emitter.replayOnOpen
  split
  next hnone => exact ⟨s.stats, by simp [hnone]⟩
  · exact ⟨_, replayAll_eq _ _⟩

section
variable (cfg : PolicyConfig)

theorem onJoined_frame (s : Emitter) (j : JoinedCursorState) (now : ℤ) :
    (s.onJoined cfg j now).cursorDcOpen = s.cursorDcOpen ∧
      (s.onJoined cfg j now).cursorDcEverOpened = s.cursorDcEverOpened ∧
      (s.onJoined cfg j now).policy.replay = s.policy.replay ∧
      (s.onJoined cfg j now).openings = s.openings ∧ (s.onJoined cfg j now).latest = s.latest := by
  have hjns := onJoined_joins cfg s j now
  generalize s.onJoined cfg j now = x at hjns
  cases hjns <;> exact ⟨rfl, rfl, rfl, rfl, rfl⟩

theorem drain_frame (s : Emitter) (now : ℤ) :
    (s.drain cfg now).cursorDcOpen = s.cursorDcOpen ∧
      (s.drain cfg now).cursorDcEverOpened = s.cursorDcEverOpened ∧
      (s.drain cfg now).policy.replay = s.policy.replay ∧
      (s.drain cfg now).openings = s.openings ∧ (s.drain cfg now).latest = s.latest := by
  unfold Emitter.drain
  split
  · exact ⟨rfl, rfl, rfl, rfl, rfl⟩
  · exact onJoined_frame cfg _ _ now

theorem opened_frame (s : Emitter) (now : ℤ) :
    (step cfg s (.channel .open now)).cursorDcOpen = true ∧
      (step cfg s (.channel .open now)).cursorDcEverOpened = true ∧
      (step cfg s (.channel .open now)).latest = s.latest := by
  obtain ⟨hopen, hever, -, -, hlst⟩ := drain_frame cfg s.markOpen now
  simp only [step, Emitter.onChannelStateChanged]
  split
  · obtain ⟨stats, hrpl⟩ := replayOnOpen_eq (s.markOpen.drain cfg now)
    rw [hrpl]
    exact ⟨hopen, hever, hlst⟩
  · exact ⟨hopen, hever, hlst⟩

theorem onEmitted_replay (p : EmitPolicy) (j : JoinedCursorState) (now : ℤ) :
    (p.onEmitted cfg j now).replay.Sublist (p.replay ++ [snapshotOf cfg j now (p.nextSeq-1)]) := by
  unfold EmitPolicy.onEmitted
  split
  · exact drop_sublist _ _
  · exact sublist_append_left _ _

theorem onEmitted_replay_getLast (p : EmitPolicy) (j : JoinedCursorState) (now : ℤ) :
    (cfg.replayBufferCapacity = 0 ∧ (p.onEmitted cfg j now).replay = p.replay) ∨
      (p.onEmitted cfg j now).replay.getLast? = some (snapshotOf cfg j now (p.nextSeq-1)) := by
  cases hcap : cfg.replayBufferCapacity with
  | zero =>
    left
    refine ⟨rfl, ?_⟩
    rw [EmitPolicy.onEmitted, hcap]
    rfl
  | succ n =>
    right
    rw [EmitPolicy.onEmitted, hcap]
    rw [if_pos n.succ_pos, rtake_concat_succ, getLast?_concat]

end

def Emitter.recording (s : Emitter) : List Send := s.inFlight.filter fun p => p.recordEmitted

theorem recording_eraseIdx {P : Send → Prop} {i : ℕ} {p : Send}
    (hfly : s.recording = [] ∨ ∃ q, s.recording = [q] ∧ P q) (hget : s.inFlight[i]? = some p)
    (hrec : p.recordEmitted = true) :
    P p ∧ (s.inFlight.eraseIdx i).filter (fun q => q.recordEmitted) = [] := by
  obtain hnone | ⟨q, hq, hP⟩ := hfly
  · have hmem : p ∈ s.recording := mem_filter.mpr ⟨mem_of_getElem? hget, hrec⟩
    rw [hnone] at hmem
    cases hmem
  obtain ⟨rfl, m, hm, hrest⟩ := Bag.filter_eraseIdx_replicate (n := 1) hq hget hrec
  obtain rfl : m = 0 := by omega
  exact ⟨hP, hrest⟩

theorem recording_eraseIdx_of_false {i : ℕ} {p : Send} (hget : s.inFlight[i]? = some p)
    (hrec : p.recordEmitted = false) :
    (s.inFlight.eraseIdx i).filter (fun q => q.recordEmitted) = s.recording :=
  Bag.filter_eraseIdx_of_false hget hrec

theorem recording_replay (s : Emitter) (snaps : List PolicySnapshot) (n : ℕ) :
    (s.inFlight ++ snaps.map (·.again n)).filter (fun p => p.recordEmitted) = s.recording := by
  have hnone : (snaps.map (·.again n)).filter (fun p => p.recordEmitted) = [] := by
    rw [filter_eq_nil_iff]
    intro p hp
    obtain ⟨snap, -, rfl⟩ := mem_map.mp hp
    exact Bool.false_ne_true
  rw [filter_append, hnone, append_nil]
  rfl

theorem recording_handed (hnone : s.recording = []) (j : JoinedCursorState) (seq : ℤ) :
    (s.inFlight ++ [(⟨j, seq, true, s.openings⟩ : Send)]).filter (fun p => p.recordEmitted) =
      [⟨j, seq, true, s.openings⟩] := by
  rw [filter_append]
  change s.recording ++ _ = _
  rw [hnone]
  rfl

end

end Chromeless.Cursor
