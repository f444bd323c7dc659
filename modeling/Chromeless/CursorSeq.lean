import Chromeless.CursorFreshness

/-! The sequence numbers on the cursor channel: which number a stored snapshot has, and the order of
the numbers while the channel is open. -/
namespace Chromeless.Cursor
open List Emitter

/-- A state is joined when the send of the one before has ended. A channel opens without a parked
state, or with nothing in flight and nothing stored. -/
def Unmixed (s : Emitter) : Event → Prop
  | .join _ _ => s.cursorDcOpen = true → s.recording = []
  | .complete _ _ _ => True
  | .channel state _ => state = .open → s.pendingWhileClosed = none ∨ (s.recording = [] ∧ s.policy.replay = [])

instance (s : Emitter) : ∀ e, Decidable (Unmixed s e)
  | .join _ _ => inferInstanceAs (Decidable (_ → _))
  | .complete _ _ _ => inferInstanceAs (Decidable True)
  | .channel _ _ => inferInstanceAs (Decidable (_ → _ ∨ _))

def Recorded (cfg : PolicyConfig) (sent : List Send) (snap : PolicySnapshot) : Prop :=
  ∃ p ∈ sent, p.recordEmitted = true ∧ snap = snapshotOf cfg p.joined snap.emittedAt p.seq

def Ascends (p q : Send) : Prop := p.opening = q.opening → p.seq < q.seq

section
variable {cfg : PolicyConfig} {s : Emitter} {e : Event} {j : JoinedCursorState} {now : ℤ}

theorem Recorded.mono {sent sent' : List Send} {snap : PolicySnapshot} (h : Recorded cfg sent snap)
    (hsub : ∀ p ∈ sent, p ∈ sent') : Recorded cfg sent' snap := by
  obtain ⟨p, hp, hrec, hsnap⟩ := h
  exact ⟨p, hsub p hp, hrec, hsnap⟩

structure Seqs (cfg : PolicyConfig) (s : Emitter) : Prop where
  bounded : ∀ p ∈ s.sent, p.seq < s.policy.nextSeq
  openings : ∀ p ∈ s.sent, p.opening ≤ s.openings
  flying : s.recording = [] ∨ ∃ p, s.recording = [p] ∧ p ∈ s.sent ∧ p.seq = s.policy.nextSeq-1 ∧
    ∀ snap ∈ s.policy.replay, snap.seq < p.seq
  recorded : ∀ snap ∈ s.policy.replay, Recorded cfg s.sent snap
  ring : s.policy.replay.Pairwise fun a b => a.seq < b.seq
  ordered : s.sent.Pairwise Ascends

theorem seqs_empty (cfg : PolicyConfig) : Seqs cfg {} where
  bounded _ hp := absurd hp not_mem_nil
  openings _ hp := absurd hp not_mem_nil
  flying := .inl rfl
  recorded _ hsnap := absurd hsnap not_mem_nil
  ring := .nil
  ordered := .nil

section
variable (h : Seqs cfg s)
include h

theorem Seqs.replay_lt {snap : PolicySnapshot} (hsnap : snap ∈ s.policy.replay) :
    snap.seq < s.policy.nextSeq := by
  obtain ⟨p, hp, -, heq⟩ := h.recorded snap hsnap
  rw [heq]
  exact h.bounded p hp

theorem Seqs.onJoined (hnone : s.cursorDcOpen = true → s.recording = []) :
    Seqs cfg (s.onJoined cfg j now) := by
  have hjns := onJoined_joins cfg s j now
  generalize s.onJoined cfg j now = x at hjns
  cases hjns with
  | duplicate | held => exact ⟨h.bounded, h.openings, h.flying, h.recorded, h.ring, h.ordered⟩
  | parked => exact ⟨h.bounded, h.openings, h.flying, h.recorded, h.ring, h.ordered⟩
  | handed hopen =>
    have hrec := recording_handed (hnone hopen) j s.policy.nextSeq
    have hmem (p : Send) (hp : p ∈ s.sent ++ [⟨j, s.policy.nextSeq, true, s.openings⟩]) :
        p ∈ s.sent ∨ p = ⟨j, s.policy.nextSeq, true, s.openings⟩ := by
      simpa using hp
    refine ⟨?_, ?_, .inr ⟨_, hrec, mem_concat_self, ?_, ?_⟩, ?_, h.ring, ?_⟩
    · intro p hp
      obtain hp | rfl := hmem p hp
      · exact (h.bounded p hp).trans (lt_add_one _)
      · exact lt_add_one _
    · intro p hp
      obtain hp | rfl := hmem p hp
      · exact h.openings p hp
      · exact le_refl _
    · exact (add_sub_cancel_right _ _).symm
    · exact fun snap hsnap => h.replay_lt hsnap
    · exact fun snap hsnap => (h.recorded snap hsnap).mono fun p hp => mem_append_left _ hp
    · refine pairwise_append.mpr ⟨h.ordered, pairwise_singleton .., ?_⟩
      intro p hp q hq _
      obtain rfl := mem_singleton.mp hq
      exact h.bounded p hp

theorem Seqs.complete (i : ℕ) (ok : Bool) :
    Seqs cfg (step cfg s (.complete i ok now)) := by
  rw [step]
  split
  · exact h
  rename_i p hget
  cases hrec : p.recordEmitted with
  | false =>
    have hsame := recording_eraseIdx_of_false hget hrec
    have hend : Seqs cfg { s with inFlight := s.inFlight.eraseIdx i } := by
      refine ⟨h.bounded, h.openings, ?_, h.recorded, h.ring, h.ordered⟩
      obtain hnone | ⟨q, hq, hrest⟩ := h.flying
      · exact .inl (hsame.trans hnone)
      · exact .inr ⟨q, hsame.trans hq, hrest⟩
    rw [onSendComplete, hrec]
    cases ok <;>
      exact ⟨hend.bounded, hend.openings, hend.flying, hend.recorded, hend.ring, hend.ordered⟩
  | true =>
    obtain ⟨⟨hmem, hseq, hnewer⟩, hrest⟩ := recording_eraseIdx h.flying hget hrec
    rw [onSendComplete, hrec]
    cases ok with
    | false => exact ⟨h.bounded, h.openings, .inl hrest, h.recorded, h.ring, h.ordered⟩
    | true =>
      have hsub := onEmitted_replay cfg s.policy p.joined now
      rw [← hseq] at hsub
      -- nothing was sent since, so the newest number is its own
      have hall : ∀ snap ∈ s.policy.replay ++ [snapshotOf cfg p.joined now p.seq], Recorded cfg s.sent snap := by
        intro snap hsnap
        obtain hsnap | hsnap := mem_append.mp hsnap
        · exact h.recorded snap hsnap
        · obtain rfl := mem_singleton.mp hsnap
          exact ⟨p, hmem, hrec, rfl⟩
      have hring : (s.policy.replay ++ [snapshotOf cfg p.joined now p.seq]).Pairwise fun a b => a.seq < b.seq := by
        refine pairwise_append.mpr ⟨h.ring, pairwise_singleton .., ?_⟩
        intro a ha b hb
        obtain rfl := mem_singleton.mp hb
        exact hnewer a ha
      refine ⟨h.bounded, h.openings, .inl hrest, fun snap hsnap => ?_, ?_, h.ordered⟩
      · exact hall snap (hsub.subset hsnap)
      · exact hring.sublist hsub

theorem Seqs.replayOnOpen (hnew : ∀ p ∈ s.sent, p.opening < s.openings) :
    Seqs cfg s.replayOnOpen := by
  obtain ⟨stats, hall⟩ := replayOnOpen_eq s
  have hsame := recording_replay s s.policy.replay s.openings
  rw [hall]
  have hmem (p : Send) (hp : p ∈ s.sent ++ s.policy.replay.map (·.again s.openings)) :
      p ∈ s.sent ∨ ∃ snap ∈ s.policy.replay, snap.again s.openings = p := by
    simpa using hp
  refine ⟨?_, ?_, ?_, ?_, h.ring, ?_⟩
  · intro p hp
    obtain hp | ⟨snap, hsnap, rfl⟩ := hmem p hp
    · exact h.bounded p hp
    · exact h.replay_lt hsnap
  · intro p hp
    obtain hp | ⟨snap, hsnap, rfl⟩ := hmem p hp
    · exact h.openings p hp
    · exact le_refl _
  · obtain hnone | ⟨q, hq, hsent, hrest⟩ := h.flying
    · exact .inl (hsame.trans hnone)
    · exact .inr ⟨q, hsame.trans hq, mem_append_left _ hsent, hrest⟩
  · exact fun snap hsnap => (h.recorded snap hsnap).mono fun p hp => mem_append_left _ hp
  · refine pairwise_append.mpr ⟨h.ordered, ?_, ?_⟩
    · rw [pairwise_map]
      refine h.ring.imp ?_
      intro a b hlt _
      exact hlt
    · intro p hp q hq hsame
      obtain ⟨snap, -, rfl⟩ := mem_map.mp hq
      exact absurd hsame (hnew p hp).ne

theorem Seqs.channel {state : DataState}
    (hunm : state = .open → s.pendingWhileClosed = none ∨ (s.recording = [] ∧ s.policy.replay = [])) :
    Seqs cfg (step cfg s (.channel state now)) := by
  cases state with
  | connecting => exact h
  | closing | closed => exact ⟨h.bounded, h.openings, h.flying, h.recorded, h.ring, h.ordered⟩
  | «open» =>
    have hle : s.openings ≤ s.markOpen.openings := by
      simp only [markOpen]
      split
      · exact le_refl _
      · exact Nat.le_succ _
    have hmark : Seqs cfg s.markOpen :=
      ⟨h.bounded, fun p hp => (h.openings p hp).trans hle, h.flying, h.recorded, h.ring, h.ordered⟩
    simp only [step, onChannelStateChanged]
    obtain hnone | ⟨hnone, hemp⟩ := hunm rfl
    · have hdrn : s.markOpen.drain cfg now = s.markOpen := by
        have hprk : s.markOpen.pendingWhileClosed = none := hnone
        rw [drain, hprk]
      rw [hdrn]
      split
      next hreop =>
        refine hmark.replayOnOpen fun p hp => ?_
        have hcl : s.cursorDcOpen = false := by
          rw [Bool.and_eq_true, Bool.not_eq_true'] at hreop
          exact hreop.2
        have hnew : s.markOpen.openings = s.openings+1 := by
          rw [markOpen, hcl]
          rfl
        rw [hnew]
        exact Nat.lt_succ_of_le (h.openings p hp)
      · exact hmark
    have hdrn : Seqs cfg (s.markOpen.drain cfg now) := by
      unfold drain
      split
      · exact hmark
      have hfree : Seqs cfg { s.markOpen with pendingWhileClosed := none } :=
        ⟨hmark.bounded, hmark.openings, hmark.flying, hmark.recorded, hmark.ring, hmark.ordered⟩
      exact hfree.onJoined fun _ => hnone
    split
    · obtain ⟨stats, hall⟩ := replayOnOpen_eq (s.markOpen.drain cfg now)
      have hrpl : (s.markOpen.drain cfg now).policy.replay = [] := (drain_frame cfg s.markOpen now).2.2.1.trans hemp
      rw [hall, hrpl, map_nil, append_nil, append_nil]
      exact ⟨hdrn.bounded, hdrn.openings, hdrn.flying, hdrn.recorded, hdrn.ring, hdrn.ordered⟩
    · exact hdrn

theorem Seqs.step (hunm : Unmixed s e) : Seqs cfg (step cfg s e) := by
  cases e with
  | join j =>
    have hlst : Seqs cfg { s with latest := some j } :=
      ⟨h.bounded, h.openings, h.flying, h.recorded, h.ring, h.ordered⟩
    exact hlst.onJoined hunm
  | complete i ok => exact h.complete i ok
  | channel => exact h.channel hunm

end

/-- If states are not joined while a send is in flight, and no parked state goes before stored ones,
every snapshot has the number of its send, and numbers ascend while the channel is open. -/
theorem snapshots_recorded_and_seqs_ascend (cfg : PolicyConfig) (es : List Event)
    (hes : Runs.Meets (step cfg) Unmixed {} es) :
    (∀ snap ∈ (run cfg {} es).policy.replay, Recorded cfg (run cfg {} es).sent snap) ∧
      (run cfg {} es).sent.Pairwise Ascends := by
  have hseqs : Seqs cfg (run cfg {} es) :=
    Runs.invariant_run_meets _ Unmixed (Seqs cfg) (fun _ _ hok h => h.step hok) (seqs_empty cfg) hes
  exact ⟨hseqs.recorded, hseqs.ordered⟩

end

theorem seqs_ascend_two_sends :
    Runs.Meets (step {}) Unmixed {} [.channel .open 0, .join arrow 1, .complete 0 true 2,
      .join pointingHand 3, .complete 0 true 4, .channel .closed 5, .channel .open 6] ∧
    (run {} {} [.channel .open 0, .join arrow 1, .complete 0 true 2,
      .join pointingHand 3, .complete 0 true 4, .channel .closed 5, .channel .open 6]).sent.Pairwise
      Ascends := by
  have hes : Runs.Meets (step {}) Unmixed {} [.channel .open 0, .join arrow 1, .complete 0 true 2,
      .join pointingHand 3, .complete 0 true 4, .channel .closed 5, .channel .open 6] := by
    decide +kernel
  exact ⟨hes, (snapshots_recorded_and_seqs_ascend {} _ hes).2⟩

/-- The first of two sends in flight is recorded with the number of the second. On a reopened
channel the parked state has the newer number and is sent first. -/
theorem wrong_seq_and_descending_seqs :
    ((run {} {} [.channel .open 0, .join arrow 1, .join pointingHand 2, .complete 0 true 3]).sent.map
        (fun p => (p.joined.type, p.seq)) = [(.pointer, 0), (.hand, 1)] ∧
      (run {} {} [.channel .open 0, .join arrow 1, .join pointingHand 2,
        .complete 0 true 3]).policy.replay.map (fun snap => (snap.type, snap.seq)) = [(.pointer, 1)]) ∧
    (run {} {} [.channel .open 0, .join arrow 1, .complete 0 true 2, .channel .closed 3,
      .join pointingHand 4, .channel .open 5]).sent.map (fun p => (p.opening, p.seq)) =
      [(1, 0), (2, 1), (2, 0)] := by
  decide +kernel

end Chromeless.Cursor
