import Chromeless.CursorEmitter

/-! Whether the viewer is shown the cursor that the guest has: what is handed to the cursor channel
last, and the state that was joined last. -/
namespace Chromeless.Cursor
open Emitter List Runs

def Shows (cfg : PolicyConfig) (s : Emitter) (j : JoinedCursorState) : Prop :=
  ∃ p, s.sent.getLast? = some p ∧ Describes cfg p.envelope j

/-! ### Runs in which states are joined one at a time -/

def Calm (s : Emitter) : Event → Prop
  | .join _ _ => s.cursorDcOpen = true ∧ s.recording = []
  | .complete _ ok _ => ok = true
  | .channel state _ => state = .open → s.cursorDcOpen = true ∨ s.recording = []

section
variable {cfg : PolicyConfig} {s : Emitter} {e : Event} {j : JoinedCursorState} {now : ℤ}

def Emitter.lastKey (cfg : PolicyConfig) (s : Emitter) : Option (CursorType × Bool × UInt32 × ℤ × ℤ) :=
  s.sent.getLast?.map fun p => key cfg p.joined

structure Fresh (cfg : PolicyConfig) (s : Emitter) : Prop where
  parked : s.pendingWhileClosed = none
  recorded : s.recording = [] → s.policy.last.map PolicySnapshot.key = s.lastKey cfg
  flying : s.recording = [] ∨ ∃ p, s.recording = [p] ∧ s.sent.getLast? = some p
  room : cfg.replayBufferCapacity = 0 → s.policy.replay = []
  ring : s.policy.replay = [] ∨
    ∃ snap, s.policy.replay.getLast? = some snap ∧ s.policy.last.map PolicySnapshot.key = some snap.key ∧
      key cfg snap.joined = snap.key
  shown : s.policy.pending = none → s.latest.map (key cfg) = s.lastKey cfg

theorem fresh_empty (cfg : PolicyConfig) : Fresh cfg {} :=
  ⟨rfl, fun _ => rfl, .inl rfl, fun _ => rfl, .inl rfl, fun _ => rfl⟩

theorem lastKey_concat (s : Emitter) (sends : List Send) (p : Send) (h : s.sent = sends ++ [p]) :
    s.lastKey cfg = some (key cfg p.joined) := by
  rw [lastKey, h, getLast?_concat]
  rfl

section
variable (h : Fresh cfg s)
include h

theorem Fresh.join (hopen : s.cursorDcOpen = true) (hnone : s.recording = []) :
    Fresh cfg (step cfg s (.join j now)) := by
  have hjns := onJoined_joins cfg { s with latest := some j } j now
  change Joins _ _ _ _ (step cfg s (.join j now)) at hjns
  generalize step cfg s (.join j now) = x at hjns
  cases hjns with
  | duplicate stats hlast =>
    refine ⟨h.parked, h.recorded, h.flying, h.room, h.ring, fun _ => ?_⟩
    exact hlast.symm.trans (h.recorded hnone)
  | held => exact ⟨h.parked, h.recorded, h.flying, h.room, h.ring, nofun⟩
  | parked stats hcl => exact absurd (hopen.symm.trans hcl) (by decide)
  | handed =>
    have hrec := recording_handed hnone j s.policy.nextSeq
    refine ⟨h.parked, ?_, .inr ⟨_, hrec, getLast?_concat ..⟩, h.room, h.ring, fun _ => ?_⟩
    · intro hemp
      cases hrec.symm.trans hemp
    · exact (lastKey_concat _ s.sent ⟨j, s.policy.nextSeq, true, s.openings⟩ rfl).symm

theorem Fresh.complete (i : ℕ) : Fresh cfg (step cfg s (.complete i true now)) := by
  rw [step]
  split
  · exact h
  rename_i p hget
  rw [onSendComplete, if_pos rfl]
  cases hrec : p.recordEmitted with
  | false =>
    have hsame := recording_eraseIdx_of_false hget hrec
    refine ⟨h.parked, ?_, ?_, h.room, h.ring, h.shown⟩
    · exact fun hnone => h.recorded (hsame.symm.trans hnone)
    obtain hnone | ⟨q, hq, hlast⟩ := h.flying
    · exact .inl (hsame.trans hnone)
    · exact .inr ⟨q, hsame.trans hq, hlast⟩
  | true =>
    -- it is the one that is in flight
    obtain ⟨hlast, hrest⟩ := recording_eraseIdx h.flying hget hrec
    have hkey : s.lastKey cfg = some (key cfg p.joined) := by rw [lastKey, hlast]; rfl
    obtain ⟨hroom, hrpl⟩ | hrpl := onEmitted_replay_getLast cfg s.policy p.joined now
    · have hempty := hrpl.trans (h.room hroom)
      exact ⟨h.parked, fun _ => hkey.symm, .inl hrest, fun _ => hempty, .inl hempty, h.shown⟩
    refine ⟨h.parked, fun _ => hkey.symm, .inl hrest, fun hroom => ?_,
      .inr ⟨_, hrpl, rfl, key_joined_snapshotOf ..⟩, h.shown⟩
    rw [EmitPolicy.onEmitted, hroom]
    exact h.room hroom

theorem Fresh.channel {state : DataState} (hcalm : state = .open → s.cursorDcOpen = true ∨ s.recording = []) :
    Fresh cfg (step cfg s (.channel state now)) := by
  cases state with
  | connecting => exact h
  | closing | closed => exact ⟨h.parked, h.recorded, h.flying, h.room, h.ring, h.shown⟩
  | «open» =>
    have hmark : Fresh cfg s.markOpen := ⟨h.parked, h.recorded, h.flying, h.room, h.ring, h.shown⟩
    have hdrn : s.markOpen.drain cfg now = s.markOpen := by rw [drain, hmark.parked]
    simp only [step, onChannelStateChanged, hdrn]
    split
    next hreop =>
      have hnone : s.recording = [] := by
        refine (hcalm rfl).resolve_left fun hopen => ?_
        rw [hopen] at hreop
        simp at hreop
      obtain ⟨stats, hrpl⟩ := replayOnOpen_eq s.markOpen
      rw [hrpl]
      have hrec := (recording_replay s s.policy.replay s.markOpen.openings).trans hnone
      have hlast : (s.sent ++ s.policy.replay.map (·.again s.markOpen.openings)).getLast?.map
          (fun p => key cfg p.joined) = s.lastKey cfg := by
        obtain hemp | ⟨snap, hsnap, hrecor, hkey⟩ := h.ring
        · rw [hemp, map_nil, append_nil]
          rfl
        · rw [getLast?_append, getLast?_map, hsnap, ← h.recorded hnone, hrecor]
          exact congrArg some hkey
      refine ⟨h.parked, fun _ => ?_, .inl hrec, h.room, h.ring, fun hpend => ?_⟩
      · exact (h.recorded hnone).trans hlast.symm
      · exact (h.shown hpend).trans hlast.symm
    · exact hmark

theorem Fresh.step (hcalm : Calm s e) : Fresh cfg (step cfg s e) := by
  cases e with
  | join => exact h.join hcalm.1 hcalm.2
  | complete i ok =>
    obtain rfl : ok = true := hcalm
    exact h.complete i
  | channel => exact h.channel hcalm

theorem Fresh.shows (hpend : s.policy.pending = none) (hj : s.latest = some j) :
    Shows cfg s j := by
  have hshown := h.shown hpend
  rw [hj, lastKey] at hshown
  obtain ⟨p, hp, hkey⟩ := Option.map_eq_some_iff.mp hshown.symm
  exact ⟨p, hp, describes_of_key hkey p.seq⟩

end

end

/-! ### A channel that stays open -/

def Steady (_ : Emitter) : Event → Prop
  | .join _ _ => True
  | .complete _ ok _ => ok = true
  | .channel state _ => state = .open ∨ state = .connecting

def OneAtATime (s : Emitter) : Event → Prop
  | .join _ _ => s.recording = []
  | _ => True

instance (s : Emitter) : ∀ e, Decidable (Steady s e)
  | .join _ _ => inferInstanceAs (Decidable True)
  | .complete _ _ _ => inferInstanceAs (Decidable (_ = _))
  | .channel _ _ => inferInstanceAs (Decidable (_ ∨ _))

instance (s : Emitter) : ∀ e, Decidable (OneAtATime s e)
  | .join _ _ => inferInstanceAs (Decidable (_ = _))
  | .complete _ _ _ => inferInstanceAs (Decidable True)
  | .channel _ _ => inferInstanceAs (Decidable True)

section
variable {cfg : PolicyConfig} {s : Emitter} {e : Event}

theorem open_step (hopen : s.cursorDcOpen = true) (hstead : Steady s e) :
    (step cfg s e).cursorDcOpen = true := by
  cases e with
  | join j now => exact (onJoined_frame cfg _ j now).1.trans hopen
  | complete =>
    rw [step]
    split
    · exact hopen
    · rw [onSendComplete]
      split <;> exact hopen
  | channel state now =>
    obtain rfl | rfl := hstead
    · exact (opened_frame cfg s now).1
    · exact hopen

theorem calm_of_steady (hopen : s.cursorDcOpen = true) {es : List Event}
    (hstead : Meets (step cfg) Steady s es) (hone : Meets (step cfg) OneAtATime s es) :
    Meets (step cfg) Calm s es := by
  induction es generalizing s with
  | nil => trivial
  | cons e es ih =>
    refine ⟨?_, ih (open_step hopen hstead.1) hstead.2 hone.2⟩
    cases e with
    | join => exact ⟨hopen, hone.1⟩
    | complete => exact hstead.1
    | channel => exact fun _ => .inl hopen

/-- On an open channel with states joined one at a time, the envelope handed over last shows the
state joined last, unless that is held back. -/
theorem last_envelope_shows_latest (cfg : PolicyConfig) (opened : ℤ) (es : List Event)
    (hsteady : Meets (step cfg) Steady (run cfg {} [.channel .open opened]) es)
    (hone : Meets (step cfg) OneAtATime (run cfg {} [.channel .open opened]) es)
    (hpending : (run cfg {} (.channel .open opened :: es)).policy.pending = none)
    {j : JoinedCursorState} (hj : (run cfg {} (.channel .open opened :: es)).latest = some j) :
    Shows cfg (run cfg {} (.channel .open opened :: es)) j := by
  have hcalm : Meets (step cfg) Calm {} (.channel .open opened :: es) :=
    ⟨fun _ => .inr rfl, calm_of_steady rfl hsteady hone⟩
  have hfresh : Fresh cfg (run cfg {} (.channel .open opened :: es)) :=
    invariant_run_meets _ Calm (Fresh cfg) (fun _ _ hok h => h.step hok) (fresh_empty cfg) hcalm
  exact hfresh.shows hpending hj

end

def arrow : JoinedCursorState := ⟨.pointer, true, 0, 0, 0, true⟩

def pointingHand : JoinedCursorState := ⟨.hand, true, 0, 0, 0, true⟩

theorem last_envelope_shows_hand :
    (Meets (step {}) OneAtATime (run {} {} [.channel .open 0])
      [.join arrow 1, .complete 0 true 2, .join pointingHand 3]) ∧
    Shows {} (run {} {} [.channel .open 0, .join arrow 1, .complete 0 true 2, .join pointingHand 3])
      pointingHand := by
  have hone : Meets (step {}) OneAtATime (run {} {} [.channel .open 0])
      [.join arrow 1, .complete 0 true 2, .join pointingHand 3] := by decide +kernel
  exact ⟨hone, last_envelope_shows_latest {} 0 _ (by decide +kernel) hone (by decide +kernel) (by decide +kernel)⟩

theorem arrow_suppressed_while_hand_in_flight :
    Meets (step {}) Steady (run {} {} [.channel .open 0])
      [.join arrow 1, .complete 0 true 2, .join pointingHand 3, .join arrow 4, .complete 0 true 5] ∧
    (run {} {} [.channel .open 0, .join arrow 1, .complete 0 true 2, .join pointingHand 3, .join arrow 4,
      .complete 0 true 5]).policy.pending = none ∧
    (run {} {} [.channel .open 0, .join arrow 1, .complete 0 true 2, .join pointingHand 3, .join arrow 4,
      .complete 0 true 5]).inFlight = [] ∧
    (run {} {} [.channel .open 0, .join arrow 1, .complete 0 true 2, .join pointingHand 3, .join arrow 4,
      .complete 0 true 5]).latest = some arrow ∧
    (run {} {} [.channel .open 0, .join arrow 1, .complete 0 true 2, .join pointingHand 3, .join arrow 4,
      .complete 0 true 5]).sent.map (fun p => p.envelope.shape) = ["default", "pointer"] ∧
    shapeFor arrow.type arrow.visible = "default" := by
  decide +kernel

/-! ### A channel that is opened again -/

section
variable {cfg : PolicyConfig} {s : Emitter} {e : Event} {now : ℤ}

def Virgin (s : Emitter) : Prop :=
  s.cursorDcEverOpened = true ∨ (s.cursorDcOpen = false ∧ s.inFlight = [] ∧ s.policy.replay = [])

theorem Virgin.step (h : Virgin s) : Virgin (step cfg s e) := by
  cases e with
  | join j now =>
    have hjns := onJoined_joins cfg { s with latest := some j } j now
    change Joins _ _ _ _ (Cursor.step cfg s (.join j now)) at hjns
    generalize Cursor.step cfg s (.join j now) = x at hjns
    cases hjns with
    | duplicate | held | parked => exact h
    | handed hopen =>
      refine .inl (h.resolve_right fun hnever => ?_)
      exact absurd (hopen.symm.trans hnever.1) (by decide)
  | complete i ok now =>
    rw [Cursor.step]
    split
    · exact h
    rename_i p hget
    refine .inl ?_
    have hever : s.cursorDcEverOpened = true := by
      refine h.resolve_right fun hnever => ?_
      rw [hnever.2.1] at hget
      cases hget
    rw [onSendComplete]
    split <;> exact hever
  | channel state now =>
    cases state with
    | «open» => exact .inl (opened_frame cfg s now).2.1
    | connecting => exact h
    | closing | closed => exact h.imp_right fun hnever => ⟨rfl, hnever.2⟩

def Emitter.drained (cfg : PolicyConfig) (s : Emitter) (now : ℤ) : List Send :=
  match s.pendingWhileClosed with
  | none => []
  | some j => if (s.policy.decide cfg j now).1 = .emit then [⟨j, s.policy.nextSeq, true, s.openings⟩] else []

theorem drain_sent (cfg : PolicyConfig) (now : ℤ) (hopen : s.cursorDcOpen = true) :
    (s.drain cfg now).sent = s.sent ++ s.drained cfg now := by
  unfold drain drained
  cases s.pendingWhileClosed with
  | none => exact (append_nil _).symm
  | some j =>
    have hjns := onJoined_joins cfg { s with pendingWhileClosed := none } j now
    dsimp only
    generalize onJoined cfg { s with pendingWhileClosed := none } j now = x at hjns
    cases hjns with
    | duplicate stats hlast =>
      have hdcd : (s.policy.decide cfg j now).1 ≠ .emit := decide_of_duplicate hlast
      rw [if_neg hdcd, append_nil]
    | held stats hdcd => rw [if_neg hdcd, append_nil]
    | parked stats hcl => exact absurd (hopen.symm.trans hcl) (by decide)
    | handed _ hdcd =>
      rw [if_pos hdcd]
      rfl

theorem open_sent (hvirg : Virgin s) (hcl : s.cursorDcOpen = false) :
    (step cfg s (.channel .open now)).sent =
      s.sent ++ s.markOpen.drained cfg now ++ s.policy.replay.map (·.again s.markOpen.openings) := by
  have hopen : s.markOpen.cursorDcOpen = true := rfl
  have hdrn := drain_sent cfg now hopen
  obtain ⟨-, -, hrpl, hopeni, -⟩ := drain_frame cfg s.markOpen now
  simp only [step, onChannelStateChanged]
  split
  · obtain ⟨stats, hall⟩ := replayOnOpen_eq (s.markOpen.drain cfg now)
    rw [hall]
    rw [hdrn, hrpl, hopeni]
    rfl
  next hfst =>
    have hnone : s.policy.replay = [] := by
      refine (hvirg.resolve_left fun hever => hfst ?_).2.2
      rw [hever, hcl]
      rfl
    rw [hdrn, hnone, map_nil, append_nil]
    rfl

theorem completions_sent (cfg : PolicyConfig) (s : Emitter) {fs : List Event}
    (hfs : ∀ e ∈ fs, ∃ i ok t, e = .complete i ok t) :
    (run cfg s fs).sent = s.sent ∧ (run cfg s fs).latest = s.latest := by
  refine invariant_run_meets _ (fun _ e => ∃ i ok t, e = Event.complete i ok t)
    (fun x : Emitter => x.sent = s.sent ∧ x.latest = s.latest) ?_ ⟨rfl, rfl⟩ ?_
  · rintro x _ ⟨i, ok, t, rfl⟩ hx
    rw [step]
    split
    · exact hx
    · rw [onSendComplete]
      split <;> exact hx
  · rw [meets_iff]
    rintro bs e cs rfl
    exact hfs e (mem_append_right _ (mem_cons_self ..))

end

section
variable (cfg : PolicyConfig)

/-- The viewer is left with the newest snapshot, if there is one, and otherwise the parked state, if
it is let through. -/
def LeavesWith (s : Emitter) (now : ℤ) (j : JoinedCursorState) : Prop :=
  match s.policy.replay.getLast?, s.pendingWhileClosed with
  | some snap, _ => Describes cfg (encodeWithSeq snap.joined snap.seq) j
  | none, some parked =>
    if (s.policy.decide cfg parked now).1 = .emit then
      Describes cfg (encodeWithSeq parked s.policy.nextSeq) j
    else Shows cfg s j
  | none, none => Shows cfg s j

theorem open_shows_iff {s : Emitter} (hvirg : Virgin s) (hcl : s.cursorDcOpen = false) (now : ℤ)
    (j : JoinedCursorState) :
    Shows cfg (step cfg s (.channel .open now)) j ↔ LeavesWith cfg s now j := by
  have hlast (p : Send) (l : List Send) (hp : l.getLast? = some p) :
      (∃ q, l.getLast? = some q ∧ Describes cfg q.envelope j) ↔ Describes cfg p.envelope j := by
    rw [hp]
    simp
  rw [Shows, open_sent hvirg hcl]
  unfold LeavesWith
  cases hrpl : s.policy.replay.getLast? with
  | some snap =>
    refine hlast (snap.again s.markOpen.openings) _ ?_
    rw [getLast?_append, getLast?_map, hrpl]
    rfl
  | none =>
    rw [getLast?_eq_none_iff.mp hrpl, map_nil, append_nil, drained]
    change (∃ p, (s.sent ++ match s.pendingWhileClosed with
      | none => []
      | some j => if (s.policy.decide cfg j now).1 = .emit then [_] else []).getLast? = some p ∧ _) ↔ _
    cases s.pendingWhileClosed with
    | none => rw [append_nil, Shows]
    | some parked =>
      dsimp only
      split
      · exact hlast ⟨parked, s.policy.nextSeq, true, s.markOpen.openings⟩ _ (getLast?_concat ..)
      · rw [append_nil, Shows]

/-- After any history, a channel that opens ends with the state that was joined last just when what
it leaves the viewer with is that state. -/
theorem reopen_shows_latest_iff (es : List Event) (now : ℤ) (fs : List Event)
    (hclosed : (run cfg {} es).cursorDcOpen = false) (hfs : ∀ e ∈ fs, ∃ i ok t, e = .complete i ok t)
    {j : JoinedCursorState} (hj : (run cfg {} es).latest = some j) :
    (run cfg {} (es ++ .channel .open now :: fs)).latest = some j ∧
    (Shows cfg (run cfg {} (es ++ .channel .open now :: fs)) j ↔ LeavesWith cfg (run cfg {} es) now j) := by
  have hvirgin : Virgin (run cfg {} es) := invariant_run _ Virgin (fun _ _ h => h.step) (.inr ⟨rfl, rfl, rfl⟩) es
  have hrun : run cfg {} (es ++ .channel .open now :: fs) =
      run cfg (step cfg (run cfg {} es) (.channel .open now)) fs := by
    rw [run, run_append, run_cons]
  obtain ⟨hsent, hlatest⟩ := completions_sent cfg (step cfg (run cfg {} es) (.channel .open now)) hfs
  rw [hrun]
  refine ⟨hlatest.trans ((opened_frame cfg _ now).2.2.trans hj), ?_⟩
  rw [Shows, hsent]
  exact open_shows_iff cfg hvirgin hclosed now j

theorem reopen_shows_arrow :
    Shows {} (run {} {} [.channel .open 0, .join arrow 1, .complete 0 true 2, .channel .closed 3,
      .channel .open 4, .complete 0 true 5]) arrow := by
  have hiff := reopen_shows_latest_iff {}
    [.channel .open 0, .join arrow 1, .complete 0 true 2, .channel .closed 3] 4 [.complete 0 true 5]
    (by decide +kernel) (fun e he => ⟨0, true, 5, mem_singleton.mp he⟩)
    (show (run {} {} [.channel .open 0, .join arrow 1, .complete 0 true 2, .channel .closed 3]).latest =
      some arrow by decide +kernel)
  refine hiff.2.mpr ?_
  exact describes_of_key (by decide +kernel) _

theorem arrow_replayed_after_hand :
    (run {} {} [.channel .open 0, .join arrow 1, .complete 0 true 2, .channel .closed 3,
      .join pointingHand 4]).cursorDcOpen = false ∧
    (run {} {} [.channel .open 0, .join arrow 1, .complete 0 true 2, .channel .closed 3,
      .join pointingHand 4, .channel .open 5, .complete 0 true 6, .complete 0 true 7]).inFlight = [] ∧
    (run {} {} [.channel .open 0, .join arrow 1, .complete 0 true 2, .channel .closed 3,
      .join pointingHand 4, .channel .open 5, .complete 0 true 6, .complete 0 true 7]).latest =
      some pointingHand ∧
    (run {} {} [.channel .open 0, .join arrow 1, .complete 0 true 2, .channel .closed 3,
      .join pointingHand 4, .channel .open 5, .complete 0 true 6, .complete 0 true 7]).sent.map
        (fun p => p.envelope.shape) = ["default", "pointer", "default"] ∧
    shapeFor pointingHand.type pointingHand.visible = "pointer" := by
  decide +kernel

end

end Chromeless.Cursor
