import Chromeless.CaptureAnswers
import Chromeless.CaptureBuffers

/-! What becomes of the remote candidates that follow an answer. -/
namespace Chromeless.Capture
open Json History List Event Driver OffererState Sublist Option

def Event.candidate (w : Webrtc) : Event → Option (ℕ × IceCandidatePayload)
  | .envelope n env => if env.type = .ice then (env.candidate.filter w.takes).map fun p => (n, p) else none
  | _ => none

def Event.addition : Event → Option (ℕ × IceCandidatePayload)
  | .addIceCandidate n p => some (n, p)
  | _ => none

def delivered (w : Webrtc) (log : List Event) : List (ℕ × IceCandidatePayload) :=
  log.filterMap (candidate w)

def additions (log : List Event) : List (ℕ × IceCandidatePayload) := log.filterMap addition

def AddedAfterSet (log : List Event) : Prop :=
  ∀ before n p after, log = before ++ .addIceCandidate n p :: after → .remoteSet ∈ dance before

namespace Driver

def queued (w : Webrtc) (d : Driver) : List (ℕ × IceCandidatePayload) :=
  d.pendingRemoteIce.filter fun p => w.takes p.2

/-- The answer in envelope `n` is in the buffer, or was passed to `SetRemoteDescription` in this
dance. -/
def took (d : Driver) (n : ℕ) : Prop :=
  (∃ sdp, d.pendingEarlyAnswerSdp = some (n, sdp)) ∨ ∃ arm sdp, issued arm (.setRemoteDescription n sdp) ∈ dance d.log

/-- Each candidate is added at most once, in the order of delivery and after the remote description
is set; and every one that parses and came after the answer to the current offer was added or is in
the queue, which is empty in `kIceInFlight`. -/
structure IceInOrder (w : Webrtc) (d : Driver) : Prop where
  once_in_order : (additions d.log ++ d.queued w).Pairwise fun p q => p.1 < q.1
  after_set : AddedAfterSet d.log
  none_lost : d.state.terminal = false → ∀ n, d.took n →
    ((delivered w d.log).filter fun p => n < p.1) <:+ additions (dance d.log) ++ d.queued w
  drained : d.state = .iceInFlight → d.queued w = []

/-- No candidate that parses arrives while an early answer is buffered, unless ICE was in
flight before. -/
def RetainsIce (w : Webrtc) (d : Driver) : Act → Prop
  | .onEnvelope env => (candidate w (.envelope d.seen env)).isSome = true →
    d.pendingEarlyAnswerSdp.isSome = true → d.state.terminal = true ∨ d.wasInIceFlightOnce = true
  | _ => True

instance (w : Webrtc) (d : Driver) (a : Act) : Decidable (d.RetainsIce w a) :=
  match a with
  | .onEnvelope _ => inferInstanceAs (Decidable (_ → _ → _ ∨ _))
  | .start _ | .rearm _ | .requestRenegotiation | .close _ | .closeUnhealthy _ | .onConnected _
  | .onClosed _ _ | .onError _ | .iceCandidate _ | .iceGatheringChange _ | .iceConnectionChange _
  | .renegotiationNeeded | .createOfferSuccess _ _ _ _ | .createOfferFailure _ _
  | .setLocalDescriptionComplete _ _ _ | .setRemoteDescriptionComplete _ _ _ => inferInstanceAs (Decidable True)

end Driver

theorem addedAfterSet_concat (log : List Event) (e : Event) :
    AddedAfterSet (log ++ [e]) ↔ AddedAfterSet log ∧ ∀ n p, e = .addIceCandidate n p → .remoteSet ∈ dance log := by
  constructor
  · intro h
    refine ⟨?_, ?_⟩
    · rintro before n p after rfl
      exact h before n p (after ++ [e]) (by simp)
    · rintro n p rfl
      exact h log n p [] rfl
  · rintro ⟨hlog, he⟩ before n p after heq
    rcases concat_eq_split heq with ⟨after', rfl⟩ | ⟨rfl, hadd⟩
    · exact hlog before n p after' rfl
    · exact he n p hadd.symm

variable {log es : List Event} {e : Event} {w : Webrtc} {n : ℕ} {env : Envelope} {p : IceCandidatePayload}

theorem AddedAfterSet.append_none (h : AddedAfterSet log) (hes : ∀ e ∈ es, e.addition = none) :
    AddedAfterSet (log ++ es) := by
  induction es generalizing log with
  | nil => simpa using h
  | cons e es ih =>
    rw [append_cons]
    refine ih ?_ fun e' he' => hes e' (mem_cons_of_mem e he')
    rw [addedAfterSet_concat]
    refine ⟨h, ?_⟩
    rintro n p rfl
    exact absurd (hes _ mem_cons_self) (by simp [addition])

theorem AddedAfterSet.append_set (h : AddedAfterSet log) (hset : .remoteSet ∈ dance log)
    (hes : ∀ e ∈ es, e.begins = false) : AddedAfterSet (log ++ es) := by
  induction es generalizing log with
  | nil => simpa using h
  | cons e es ih =>
    have he := hes e mem_cons_self
    rw [append_cons]
    refine ih ?_ ?_ fun e' he' => hes e' (mem_cons_of_mem e he')
    · rw [addedAfterSet_concat]
      exact ⟨h, fun _ _ _ => hset⟩
    · rw [dance_concat _ he]
      exact mem_append_left _ hset

theorem additions_append (log es : List Event) :
    additions (log ++ es) = additions log ++ additions es := filterMap_append

theorem delivered_append (w : Webrtc) (log es : List Event) :
    delivered w (log ++ es) = delivered w log ++ delivered w es := filterMap_append

theorem Event.inert_addition (he : e.inert = true) : e.addition = none := by
  cases e <;> simp [inert, addition] at he ⊢

theorem Event.inert_candidate (w : Webrtc) (he : e.inert = true) : e.candidate w = none := by
  cases e <;> simp [inert, candidate] at he ⊢

theorem additions_none (hes : ∀ e ∈ es, e.addition = none) :
    additions es = [] := filterMap_eq_nil_iff.mpr hes

theorem delivered_none (hes : ∀ e ∈ es, e.candidate w = none) :
    delivered w es = [] := filterMap_eq_nil_iff.mpr hes

theorem delivered_concat_none (log : List Event) (he : e.candidate w = none) :
    delivered w (log ++ [e]) = delivered w log := by
  have hnone : delivered w [e] = [] := delivered_none (by simpa using he)
  rw [delivered_append, hnone, append_nil]

theorem additions_dance_concat (log : List Event) (hb : e.begins = false) (ha : e.addition = none) :
    additions (dance (log ++ [e])) = additions (dance log) := by
  have hnone : additions [e] = [] := additions_none (by simpa using ha)
  rw [dance_concat _ hb, additions_append, hnone, append_nil]

theorem additions_added (w : Webrtc) (ps : List (ℕ × IceCandidatePayload)) :
    additions (w.added ps) = ps.filter fun p => w.takes p.2 := by
  have hself : (addition ∘ fun p : ℕ × IceCandidatePayload => .addIceCandidate p.1 p.2) =
      some := rfl
  rw [additions, Webrtc.added, filterMap_map, hself, filterMap_some]

theorem candidate_stamp {p : ℕ × IceCandidatePayload} (h : e.candidate w = some p) :
    ∃ env, e = .envelope p.1 env := by
  cases e with
  | envelope n env =>
    have hp : n = p.1 := by
      simp only [candidate] at h
      split at h
      · obtain ⟨q, _, rfl⟩ := map_eq_some_iff.mp h
        rfl
      · simp at h
    exact ⟨env, by rw [hp]⟩
  | _ => simp [candidate] at h

theorem candidate_some {q : ℕ × IceCandidatePayload} (h : candidate w (.envelope n env) = some q) :
    env.type = .ice ∧ ∃ p, env.candidate = some p ∧ w.takes p = true := by
  simp only [candidate] at h
  split at h
  next htype =>
    obtain ⟨p, hp, _⟩ := map_eq_some_iff.mp h
    obtain ⟨hp, htks⟩ := filter_eq_some_iff.mp hp
    exact ⟨htype, p, hp, htks⟩
  · simp at h

theorem delivered_ice (ht : env.type = .ice) (hp : env.candidate = some p) :
    delivered w [.envelope n env] = [(n, p)].filter fun q => w.takes q.2 := by
  by_cases hw : w.takes p = true <;>
    simp [delivered, candidate, ht, hp, filter, hw]

theorem filter_after {m : ℕ} (h : n < m) :
    ([(m, p)].filter (fun q => w.takes q.2)).filter (fun q => n < q.1) = [(m, p)].filter fun q => w.takes q.2 := by
  by_cases hw : w.takes p = true <;> simp [hw, h]

theorem suffix_append_both {α : Type*} {s t r : List α} (h : s <:+ t) : s ++ r <:+ t ++ r := by
  obtain ⟨u, rfl⟩ := h
  exact ⟨u, (append_assoc u s r).symm⟩

namespace Driver
variable {w : Webrtc} {d x y : Driver} {a : Act}

theorem Tidy.delivered_lt (h : Tidy x) {p : ℕ × IceCandidatePayload} (hp : p ∈ delivered w x.log) : p.1 < x.seen := by
  obtain ⟨e, he, hep⟩ := mem_filterMap.mp hp
  obtain ⟨env, rfl⟩ := candidate_stamp hep
  exact h.stamps p.1 env he

theorem flush_begins (w : Webrtc) (d : Driver) : ∀ e ∈ flush w d, e.begins = false :=
  flush_events w d (fun e => e.begins = false) (fun _ _ => rfl) rfl

theorem additions_flush (w : Webrtc) (d : Driver) : additions (flush w d) = d.queued w := by
  rw [flush, additions_append, additions_added, queued]
  split <;> simp [additions, addition]

theorem remoteSet_additions (w : Webrtc) (d : Driver) :
    additions (enterIceFlight w { d with ops := d.ops.erase (d.arm, .setRemoteDescription) }).log =
      additions d.log ++ d.queued w := by
  rw [remoteSet_log, additions_append, additions_append, additions_flush]
  simp [additions, addition]

structure Ordered (d : Driver) : Prop where
  sorted : (additions d.log ++ d.pendingRemoteIce).Pairwise fun p q => p.1 < q.1
  past : ∀ p ∈ additions d.log, p.1 < d.seen
  after_set : AddedAfterSet d.log

theorem Ordered.frame (h : Ordered x) (es : List Event) (hlog : y.log = x.log ++ es)
    (hes : ∀ e ∈ es, e.addition = none)
    (hice : y.pendingRemoteIce.Sublist x.pendingRemoteIce) (hseen : x.seen ≤ y.seen) :
    Ordered y := by
  have hsame : additions y.log = additions x.log := by rw [hlog, additions_append, additions_none hes, append_nil]
  refine ⟨?_, ?_, ?_⟩
  · rw [hsame]
    exact h.sorted.sublist ((refl _).append hice)
  · rw [hsame]
    exact fun p hp => Nat.lt_of_lt_of_le (h.past p hp) hseen
  · rw [hlog]
    exact h.after_set.append_none hes

theorem Ordered.move (hm : Move w d a x y) (ht : Tidy x) (h : Ordered x) : Ordered y := by
  cases hm with
  | aside x e he =>
    refine h.frame [e] rfl ?_ (refl _) le_rfl
    simp [inert_addition (inert_of_aside he)]
  | fail | refail | close | returnToIdle => exact h.frame [_] rfl (by simp [addition]) (nil_sublist _) le_rfl
  | latch | consume | land | bufferOffer | connect | dropOffer | localSet | forgetEarly =>
    exact h.frame [] (append_nil _).symm (by simp) (refl _) le_rfl
  | trigger | coalesce | refuseOffer | start | initialOffer | applyEarly =>
    exact h.frame [_] rfl (by simp [addition]) (refl _) le_rfl
  | restart | emitOffer | drainOffer =>
    exact h.frame [_, _] (append_assoc _ [_] [_]) (by simp [addition]) (refl _) le_rfl
  | record | bufferAnswer => exact h.frame [_] rfl (by simp [addition]) (refl _) (Nat.le_succ _)
  | applyAnswer => exact h.frame [_, _] (append_assoc _ [_] [_]) (by simp [addition]) (refl _) (Nat.le_succ _)
  | queueIce env p =>
    have hr : Ordered (d.record env) := h.frame [_] rfl (by simp [addition]) (refl _) (Nat.le_succ _)
    refine ⟨?_, hr.past, hr.after_set⟩
    rw [← append_assoc, pairwise_append]
    refine ⟨hr.sorted, by simp, ?_⟩
    -- everything added or queued so far carries an earlier envelope's number
    intro q hq r hr'
    have hsame : additions (d.record env).log = additions d.log := by
      show additions (d.log ++ [_]) = additions d.log
      rw [additions_append]
      exact append_nil _
    rw [hsame] at hq
    rw [mem_singleton.mp hr']
    rcases mem_append.mp hq with hq | hq
    · exact h.past q hq
    · exact ht.fresh q hq
  | addIce env p ha hice hx =>
    have hemp : d.pendingRemoteIce = [] := ht.no_queue .iceInFlight hx rfl
    have hadd : additions ((d.record env).note (.addIceCandidate d.seen p)).log = additions d.log ++ [(d.seen, p)] := by
      show additions (d.log ++ [_] ++ [_]) = _
      rw [additions_append, additions_append]
      simp [additions, addition]
    have hsor := h.sorted
    rw [hemp, append_nil] at hsor
    refine ⟨?_, ?_, ?_⟩
    · show (additions ((d.record env).note _).log ++ d.pendingRemoteIce).Pairwise _
      rw [hadd, hemp, append_nil, pairwise_append]
      refine ⟨hsor, by simp, ?_⟩
      intro q hq r hr
      rw [mem_singleton.mp hr]
      exact h.past q hq
    · intro q hq
      show q.1 < d.seen + 1
      rw [hadd] at hq
      rcases mem_append.mp hq with hq | hq
      · have hlt := h.past q hq
        omega
      · rw [mem_singleton.mp hq]
        exact Nat.lt_succ_self _
    · show AddedAfterSet (d.log ++ [_] ++ [_])
      rw [addedAfterSet_concat]
      refine ⟨h.after_set.append_none (by simp [addition]), fun _ _ _ => ?_⟩
      rw [dance_concat _ rfl]
      exact mem_append_left _ (ht.flight hx)
  | remoteSet =>
    have hlog := remoteSet_log w d
    have hadd := remoteSet_additions w d
    refine ⟨?_, ?_, ?_⟩
    · rw [hadd]
      simp only [enterIceFlight_eq, append_nil]
      exact h.sorted.sublist ((refl _).append filter_sublist)
    · rw [hadd]
      simp only [enterIceFlight_eq]
      exact forall_mem_append.mpr ⟨h.past, fun p hp => ht.fresh p (mem_filter.mp hp).1⟩
    · rw [hlog]
      refine (h.after_set.append_none (by simp [addition])).append_set ?_ ?_
      · rw [dance_concat _ rfl]
        simp
      · exact flush_begins w d

structure Complete (w : Webrtc) (d : Driver) : Prop where
  past : ∀ n, d.took n → n < d.seen
  none_lost : d.state.terminal = false → ∀ n, d.took n →
    ((delivered w d.log).filter fun p => n < p.1) <:+ additions (dance d.log) ++ d.queued w

variable {n arm m : ℕ} {e : Event} {env : Envelope}

theorem took_of_append (es : List Event) (hlog : y.log = x.log ++ es)
    (hes : ∀ e ∈ es, e.begins = false ∧ e.appliesAnswer = false)
    (hear : y.pendingEarlyAnswerSdp = none ∨ y.pendingEarlyAnswerSdp = x.pendingEarlyAnswerSdp)
    (h : y.took n) : x.took n := by
  rcases h with ⟨sdp, hp⟩ | ⟨arm, sdp, hmem⟩
  · rcases hear with hnone | heq
    · simp [hnone] at hp
    · exact .inl ⟨sdp, heq ▸ hp⟩
  refine .inr ⟨arm, sdp, ?_⟩
  rw [hlog, dance, sinceLast_append _ fun e he => (hes e he).1] at hmem
  rcases mem_append.mp hmem with hmem | hmem
  · exact hmem
  · exact absurd (hes _ hmem).2 (by simp [appliesAnswer])

theorem Complete.frame (h : Complete w x) (es : List Event) (hlog : y.log = x.log ++ es)
    (hes : ∀ e ∈ es, e.inert = true)
    (hear : y.pendingEarlyAnswerSdp = none ∨ y.pendingEarlyAnswerSdp = x.pendingEarlyAnswerSdp)
    (hlive : y.state.terminal = false → x.state.terminal = false)
    (hice : y.state.terminal = false → y.pendingRemoteIce = x.pendingRemoteIce)
    (hseen : y.seen = x.seen) : Complete w y := by
  have htook : ∀ n, y.took n → x.took n := fun n => took_of_append es hlog
    (fun e he => ⟨inert_begins (hes e he), inert_applies (hes e he)⟩) hear
  refine ⟨fun n hn => hseen ▸ h.past n (htook n hn), ?_⟩
  intro hy n hn
  have hdel : delivered w y.log = delivered w x.log := by
    rw [hlog, delivered_append, delivered_none fun e he => inert_candidate w (hes e he), append_nil]
  have hadded : additions (dance y.log) = additions (dance x.log) := by
    rw [hlog, dance_append _ hes, additions_append, additions_none fun e he => inert_addition (hes e he), append_nil]
  rw [hdel, hadded, queued, hice hy]
  exact h.none_lost (hlive hy) n (htook n hn)

theorem Complete.begin (he : e.begins = true) (es : List Event) (hlog : y.log = es ++ [e])
    (hear : y.pendingEarlyAnswerSdp = none) : Complete w y := by
  have hnone : ∀ n, ¬ y.took n := by
    rintro n (⟨sdp, hp⟩ | ⟨arm, sdp, hmem⟩)
    · simp [hear] at hp
    · rw [hlog, dance, sinceLast_reset _ he] at hmem
      exact absurd hmem (by simp)
  exact ⟨fun n hn => absurd hn (hnone n), fun _ n hn => absurd hn (hnone n)⟩

theorem record_log (d : Driver) (env : Envelope) :
    (d.record env).log = d.log ++ [.envelope d.seen env] := rfl

theorem took_of_note (hb : e.begins = false) (ha : e.appliesAnswer = false) (h : (x.note e).took n) :
    x.took n := by
  have hlog : (x.note e).log = x.log ++ [e] := rfl
  exact took_of_append [e] hlog (by simp [hb, ha]) (.inr rfl) h

theorem took_of_record (h : (d.record env).took n) : d.took n :=
  took_of_append [_] (record_log d env) (by simp [begins, appliesAnswer]) (.inr rfl) h

theorem additions_record (d : Driver) (env : Envelope) :
    additions (dance (d.record env).log) = additions (dance d.log) :=
  additions_dance_concat _ rfl rfl

theorem Complete.record (h : Complete w d) (env : Envelope) (henv : d.state.terminal = false → (∃ n, d.took n) →
      candidate w (.envelope d.seen env) = none) : Complete w (d.record env) := by
  have htook : ∀ n, (d.record env).took n → d.took n := fun n => took_of_record
  refine ⟨fun n hn => Nat.lt_succ_of_lt (h.past n (htook n hn)), ?_⟩
  intro hlive n hn
  have hdel : delivered w (d.record env).log = delivered w d.log := by
    exact delivered_concat_none _ (henv hlive ⟨n, htook n hn⟩)
  rw [hdel, additions_record]
  exact h.none_lost hlive n (htook n hn)

theorem Tidy.delivered_none_after (h : Tidy x) (hn : x.seen ≤ n + 1) :
    ((delivered w x.log).filter fun p => n < p.1) = [] := by
  rw [filter_eq_nil_iff]
  intro p hp
  have hlt := h.delivered_lt hp
  simp only [decide_eq_true_eq]
  omega

theorem Tidy.not_applied (h : Tidy x) (s : OffererState) (hx : x.state = s)
    (hs : s.terminal = false ∧ s.answered = false) {sdp : Bytes} :
    issued arm (.setRemoteDescription n sdp) ∉ dance x.log := by
  intro hmem
  have hans := h.applied ⟨_, hmem, rfl⟩ (by rw [hx]; exact hs.1)
  rw [hx, hs.2] at hans
  exact absurd hans (by simp)

theorem skipped_unparsed (ht : Tidy d) (hok : d.RetainsIce w (.onEnvelope env))
    (hskip : env.type = .ice → d.state.terminal = false → ∀ p, env.candidate = some p →
      ¬ d.canQueueMidDance ∧ (d.state = .iceInFlight → w.takes p = false))
    (hlive : d.state.terminal = false) (htook : ∃ n, d.took n) :
    candidate w (.envelope d.seen env) = none := by
  by_contra hne
  obtain ⟨q, hq⟩ := ne_none_iff_exists'.mp hne
  obtain ⟨htype, p, hp, htks⟩ := candidate_some hq
  obtain ⟨hno, hdrop⟩ := hskip htype hlive p hp
  obtain ⟨n, ⟨sdp, hear⟩ | ⟨arm, sdp, hapd⟩⟩ := htook
  · -- an early answer: candidates are queued from `kCreatingOffer` on
    have honce : d.wasInIceFlightOnce = true := by
      rcases hok (by rw [hq]; rfl) (by rw [hear]; rfl) with hover | honce
      · rw [hlive] at hover
        exact absurd hover (by simp)
      · exact honce
    have hloc := ht.early (by simp [hear]) hlive
    apply hno
    refine .inr ⟨honce, ?_⟩
    cases hs : d.state <;>
      simp [hs, beforeLocal, le_iff, OffererState.toNat] at hloc ⊢
  -- an answer that was applied: candidates are queued, or added at once
  have hans := ht.applied ⟨_, hapd, rfl⟩ hlive
  cases hs : d.state with
  | settingRemote =>
    apply hno
    simp [canQueueMidDance, hs, le_iff, OffererState.toNat]
  | iceInFlight =>
    rw [hdrop hs] at htks
    exact absurd htks (by simp)
  | _ => simp [hs, answered] at hans

theorem took_issue (h : y.took n) (ht : Tidy x) {s : OffererState} (hx : x.state = s)
    (hs : s.terminal = false ∧ s.answered = false) {remote : Bytes}
    (hlog : y.log = x.log ++ [.issued arm (.setRemoteDescription m remote)])
    (hnone : y.pendingEarlyAnswerSdp = none) : n = m := by
  rcases h with ⟨sdp, hp⟩ | ⟨arm', sdp, hmem⟩
  · rw [hnone] at hp
    exact absurd hp (by simp)
  rw [hlog, dance_concat _ rfl, mem_append] at hmem
  rcases hmem with hmem | hmem
  · exact absurd hmem (ht.not_applied s hx hs)
  · have heq : arm' = arm ∧ n = m ∧ sdp = remote := by simpa using hmem
    exact heq.2.1

theorem Complete.latest (htook : ∀ n, y.took n → n = m) (hseen : m < y.seen)
    (hnone : ((delivered w y.log).filter fun p => m < p.1) = []) : Complete w y := by
  refine ⟨fun n hn => ?_, fun _ n hn => ?_⟩
  · rwa [htook n hn]
  · rw [htook n hn, hnone]
    exact nil_suffix

theorem Complete.move (hok : d.RetainsIce w a) (hm : Move w d a x y) (ht : Tidy x)
    (h : Complete w x) : Complete w y := by
  cases hm with
  | aside x e he => exact h.frame [e] rfl (by simp [inert_of_aside he]) (.inr rfl) id (fun _ => rfl) rfl
  | fail | refail | close =>
    have hover : ∀ P : Prop, true = false → P := fun P h => absurd h (by simp)
    exact h.frame [_] rfl (by simp [inert]) (.inr rfl) (hover _) (hover _) rfl
  | latch | consume | land | bufferOffer | connect | dropOffer =>
    exact h.frame [] (append_nil _).symm (by simp) (.inr rfl) id (fun _ => rfl) rfl
  | trigger | coalesce | refuseOffer => exact h.frame [_] rfl (by simp [inert]) (.inr rfl) id (fun _ => rfl) rfl
  | start x pc hx => exact h.frame [_] rfl (by simp [inert]) (.inr rfl) (fun _ => by rw [hx]; rfl) (fun _ => rfl) rfl
  | emitOffer _ _ hx | drainOffer _ _ hx =>
    exact h.frame [_, _] (append_assoc _ [_] [_]) (by simp [inert]) (.inr rfl)
      (fun _ => by rw [hx]; rfl) (fun _ => rfl) rfl
  | localSet x hx =>
    exact h.frame [] (append_nil _).symm (by simp) (.inr rfl) (fun _ => by rw [hx]; rfl) (fun _ => rfl) rfl
  | forgetEarly x hx =>
    exact h.frame [] (append_nil _).symm (by simp) (.inl rfl) (fun _ => by rw [hx]; rfl) (fun _ => rfl) rfl
  | returnToIdle => exact .begin rfl _ rfl rfl
  | initialOffer x hx => exact .begin rfl _ rfl (ht.no_early .creatingPc hx (by decide))
  | restart x t hx => exact .begin rfl _ rfl (ht.no_early .iceInFlight hx (by decide))
  | record env ha hskip =>
    rw [ha] at hok
    exact h.record env (skipped_unparsed ht hok hskip)
  | bufferAnswer env sdp ha htype hx =>
    -- before its local description is set the dance has no answer but this one
    have htook : ∀ n, ({ d.record env with pendingEarlyAnswerSdp := some (d.seen, sdp) } :
        Driver).took n → n = d.seen := by
      rintro n (⟨sdp', hp⟩ | ⟨arm, sdp', hmem⟩)
      · have hp : d.seen = n ∧ sdp = sdp' := by simpa using hp
        exact hp.1.symm
      · rcases hx with hx | hx <;>
          exact absurd hmem ((ht.record env).not_applied _ hx (by decide))
    exact .latest htook (Nat.lt_succ_self _) ((ht.record env).delivered_none_after le_rfl)
  | applyAnswer env sdp remote ha htype hx =>
    have hear := ht.no_early .awaitingAnswer hx (by decide)
    have htook : ∀ n, ({ d.record env with state := .settingRemote }.issue
        (.setRemoteDescription d.seen remote)).took n → n = d.seen := by
      intro n hn
      exact took_issue hn (ht.record env) hx (by decide) rfl hear
    refine .latest htook (Nat.lt_succ_self _) ?_
    show ((delivered w ((d.record env).log ++ [_])).filter fun p => d.seen < p.1) = []
    rw [delivered_concat_none _ rfl]
    exact (ht.record env).delivered_none_after le_rfl
  | applyEarly x n sdp remote hx hop hp =>
    have hlive : x.state.terminal = false := by rw [hx]; rfl
    -- the buffered answer counted already, so what came behind it is accounted for
    have htook : ∀ m, ({ x with
        ops := x.ops.erase (x.arm, .setLocalDescription), state := .settingRemote,
        pendingEarlyAnswerSdp := none }.issue (.setRemoteDescription n remote)).took m → x.took m := by
      intro m hm
      rw [took_issue hm ht hx (by decide) rfl rfl]
      exact .inl ⟨sdp, hp⟩
    refine ⟨fun m hm => h.past m (htook m hm), fun _ m hm => ?_⟩
    show ((delivered w (x.log ++ [_])).filter fun p => m < p.1) <:+
      additions (dance (x.log ++ [_])) ++ x.queued w
    rw [delivered_concat_none _ rfl, additions_dance_concat _ rfl rfl]
    exact h.none_lost hlive m (htook m hm)
  | queueIce env p ha htype hx hp =>
    -- delivered and queued alike: both sides grow by the candidate, if it parses
    have hdel : delivered w (d.record env).log = delivered w d.log ++ [(d.seen, p)].filter fun q => w.takes q.2 := by
      rw [record_log, delivered_append, delivered_ice htype hp]
    have hqueue : ({ d.record env with
        pendingRemoteIce := d.pendingRemoteIce ++ [(d.seen, p)] } : Driver).queued w =
          d.queued w ++ [(d.seen, p)].filter fun q => w.takes q.2 := filter_append ..
    refine ⟨fun n hn => Nat.lt_succ_of_lt (h.past n (took_of_record hn)), fun hlive n hn => ?_⟩
    have hn : d.took n := took_of_record hn
    rw [hqueue, hdel, additions_record, filter_append, filter_after (h.past n hn), ← append_assoc]
    exact suffix_append_both (h.none_lost hlive n hn)
  | addIce env p ha htype hx hp hw =>
    have hlive : d.state.terminal = false := by rw [hx]; rfl
    -- nothing is queued any more, so the new addition is the last one
    have hemp : d.queued w = [] := by
      rw [queued, ht.no_queue .iceInFlight hx rfl]
      rfl
    have htook : ∀ n, ((d.record env).note (.addIceCandidate d.seen p)).took n → d.took n :=
      fun n hn => took_of_record (took_of_note rfl rfl hn)
    refine ⟨fun n hn => Nat.lt_succ_of_lt (h.past n (htook n hn)), fun _ n hn => ?_⟩
    have hlost := h.none_lost hlive n (htook n hn)
    rw [hemp, append_nil] at hlost
    show ((delivered w ((d.record env).log ++ [_])).filter fun p => n < p.1) <:+
      additions (dance ((d.record env).log ++ [_])) ++ d.queued w
    have hadd : additions [.addIceCandidate d.seen p] = [(d.seen, p)].filter fun q => w.takes q.2 := by
      simp [additions, addition, hw]
    rw [hemp, append_nil, delivered_concat_none _ rfl, dance_concat _ rfl, additions_append,
      hadd, additions_record, record_log, delivered_append, delivered_ice htype hp,
      filter_append, filter_after (h.past n (htook n hn))]
    exact suffix_append_both hlost
  | remoteSet arm reason ha harm hx =>
    -- the flush turns the queue into additions, in its order
    have hlive : d.state.terminal = false := by rw [hx]; rfl
    have hlog := remoteSet_log w d
    have htook : ∀ n, ({ enterIceFlight w { d with
        ops := d.ops.erase (d.arm, .setRemoteDescription) } with
        pendingRenegotiation := false } : Driver).took n → d.took n := by
      intro n hn
      refine took_of_append ([.remoteSet] ++ flush w d) ?_ ?_ ?_ hn
      · rw [← append_assoc, ← hlog]
      · intro e he
        rcases mem_append.mp he with he | he
        · rw [mem_singleton.mp he]
          exact ⟨rfl, rfl⟩
        have happ := flush_events w d (fun e => e.appliesAnswer = false) (fun _ _ => rfl) rfl e he
        exact ⟨flush_begins w d e he, happ⟩
      · exact .inr (by simp [enterIceFlight_eq])
    have hdel : delivered w (d.log ++ [.remoteSet] ++ flush w d) = delivered w d.log := by
      have hnone : delivered w (flush w d) = [] := delivered_none
        (flush_events w d (fun e => e.candidate w = none) (fun _ _ => rfl) rfl)
      rw [delivered_append, hnone, append_nil, delivered_concat_none _ rfl]
    have hadded : additions (dance (d.log ++ [.remoteSet] ++ flush w d)) = additions (dance d.log) ++ d.queued w := by
      rw [dance, sinceLast_append _ (flush_begins w d), ← dance, additions_append,
        additions_dance_concat _ rfl rfl, additions_flush]
    refine ⟨fun n hn => ?_, fun _ n hn => ?_⟩
    · simpa [enterIceFlight_eq] using h.past n (htook n hn)
    have hemp : ({ enterIceFlight w { d with
        ops := d.ops.erase (d.arm, .setRemoteDescription) } with
        pendingRenegotiation := false } : Driver).queued w = [] := by
      simp [queued, enterIceFlight_eq]
    rw [hemp]
    rw [hlog, hdel, hadded, append_nil]
    exact h.none_lost hlive n (htook n hn)

end Driver

/-- Every candidate that parses and follows the answer to the current offer is added once, in order
and after the remote description is set, if none arrives behind an early answer of the first dance.
-/
theorem candidates_after_answer_added (w : Webrtc) (acts : List Act)
    (hm : Runs.Meets (step w) (Driver.RetainsIce w) .new acts) :
    Driver.IceInOrder w (runDriver w acts) := by
  have htook : ∀ n, ¬ Driver.took .new n := by
    rintro n (⟨sdp, hp⟩ | ⟨arm, sdp, hmem⟩)
    · simp [new] at hp
    · simp [new, dance, sinceLast] at hmem
  have hnew : Driver.Tidy .new ∧ Driver.Ordered .new ∧ Driver.Complete w .new := by
    refine ⟨tidy_new, ⟨?_, ?_, ?_⟩, ⟨?_, ?_⟩⟩
    · simp [new, additions]
    · simp [new, additions]
    · intro before n p after heq
      simp [new] at heq
    · exact fun n hn => absurd hn (htook n)
    · exact fun _ n hn => absurd hn (htook n)
  obtain ⟨htidy, hordered, hcomplete⟩ := runDriver_invariant w (Driver.RetainsIce w)
    (fun d => d.Tidy ∧ d.Ordered ∧ d.Complete w) hnew
    (fun d a x y hok hmove h => ⟨h.1.move hmove, h.2.1.move hmove h.1, h.2.2.move hok hmove h.1⟩) hm
  refine ⟨?_, hordered.after_set, hcomplete.none_lost, ?_⟩
  · exact hordered.sorted.sublist ((refl _).append filter_sublist)
  intro hs
  rw [Driver.queued, htidy.no_queue .iceInFlight hs rfl]
  rfl

def candidateWith (text : Bytes) : Act :=
  .onEnvelope ⟨.ice, .client, .ice ⟨false, text, none, none, none⟩⟩

def trickled : List Act :=
  [.onConnected true, .start .made, .renegotiationNeeded, .createOfferSuccess 0 "offer" [1] true,
    .setLocalDescriptionComplete 0 true "", candidateWith [10], answerWith [2], candidateWith [11],
    .setRemoteDescriptionComplete 0 true "", candidateWith [12]]

theorem candidates_after_answer_added_trickled :
    Driver.IceInOrder .permissive (runDriver .permissive trickled) ∧
      (additions (runDriver .permissive trickled).log).map Prod.fst = [0, 2, 3] :=
  ⟨candidates_after_answer_added _ _ (by decide +kernel), by decide +kernel⟩

def overtaken : List Act :=
  [.onConnected true, .start .made, .renegotiationNeeded, .createOfferSuccess 0 "offer" [1] true,
    answerWith [2], candidateWith [11], .setLocalDescriptionComplete 0 true "",
    .setRemoteDescriptionComplete 0 true ""]

theorem candidate_behind_early_answer_lost :
    ¬ Driver.IceInOrder .permissive (runDriver .permissive overtaken) := by
  intro h
  have hlive : (runDriver .permissive overtaken).state.terminal = false := by decide +kernel
  have htook : (runDriver .permissive overtaken).took 0 := .inr ⟨0, [2], by decide +kernel⟩
  have hlost := h.none_lost hlive 0 htook
  have hdelivered : ((delivered .permissive (runDriver .permissive overtaken).log).filter
      fun p => 0 < p.1) ≠ [] := by decide +kernel
  have hnone : additions (dance (runDriver .permissive overtaken).log) ++
      (runDriver .permissive overtaken).queued .permissive = [] := by decide +kernel
  exact hdelivered (suffix_nil.mp hlost)

end Chromeless.Capture
