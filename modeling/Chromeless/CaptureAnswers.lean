import Chromeless.CaptureHistory

/-! Which offer an answer is applied to. -/
namespace Chromeless.Capture
open Json History Event Driver List
open Event (offers appliesAnswer rearms)

def Current (log : List Event) (n : ℕ) (text : Bytes) : Prop :=
  (offersMade log, n, text) ∈ answers log ∧ ∀ k m, (k, m, text) ∈ answers log → k = 0 ∨ k = offersMade log

def AppliesCurrent (w : Webrtc) (log : List Event) : Prop :=
  ∀ before after arm n sdp, log = before ++ .issued arm (.setRemoteDescription n sdp) :: after →
    0 < offersMade before ∧ ∃ text, w.createSessionDescription .answer text = some sdp ∧ Current before n text

def Act.answerSdp : Act → Option Bytes
  | .onEnvelope env => if env.type = .answer then env.answerSdp else none
  | _ => none

namespace Driver

/-- No answer arrives in `kCreatingOffer`, and none repeats one to an earlier offer of the arm. -/
def Prompt (d : Driver) (a : Act) : Prop :=
  match a.answerSdp with
  | none => True
  | some text => d.state ≠ .creatingOffer ∧
    (d.state = .settingLocal ∨ d.state = .awaitingAnswer →
      ∀ p ∈ answers d.log, p.2.2 = text → p.1 = 0 ∨ p.1 = offersMade d.log)

instance (d : Driver) (a : Act) : Decidable (d.Prompt a) :=
  match h : a.answerSdp with
  | none => .isTrue (by simp [Prompt, h])
  | some text => decidable_of_iff (d.state ≠ .creatingOffer ∧
      (d.state = .settingLocal ∨ d.state = .awaitingAnswer →
        ∀ p ∈ answers d.log, p.2.2 = text → p.1 = 0 ∨ p.1 = offersMade d.log))
      (by simp [Prompt, h])

end Driver

theorem appliesCurrent_concat (w : Webrtc) (log : List Event) (e : Event) :
    AppliesCurrent w (log ++ [e]) ↔ AppliesCurrent w log ∧
      ∀ arm n sdp, e = .issued arm (.setRemoteDescription n sdp) → 0 < offersMade log ∧
        ∃ text, w.createSessionDescription .answer text = some sdp ∧ Current log n text := by
  constructor
  · intro h
    refine ⟨?_, ?_⟩
    · rintro before after arm n sdp rfl
      exact h before (after ++ [e]) arm n sdp (by simp)
    · rintro arm n sdp rfl
      exact h log [] arm n sdp rfl
  · rintro ⟨hlog, he⟩ before after arm n sdp heq
    rcases concat_eq_split heq with ⟨after', rfl⟩ | ⟨rfl, hiss⟩
    · exact hlog before after' arm n sdp rfl
    · exact he arm n sdp hiss.symm

def Event.neutral (e : Event) : Bool := !e.rearms && !e.offers && !e.appliesAnswer

theorem Event.neutral_iff (e : Event) :
    e.neutral = true ↔ e.rearms = false ∧ e.offers = false ∧ e.appliesAnswer = false := by
  simp [neutral, and_assoc]

theorem Current.concat {log : List Event} {n : ℕ} {text : Bytes} (h : Current log n text)
    {e : Event} (he : e.neutral = true) : Current (log ++ [e]) n text := by
  obtain ⟨hrea, hoff, _⟩ := (neutral_iff e).mp he
  have hmade : offersMade (log ++ [e]) = offersMade log := by
    rw [offersMade_concat _ hrea, hoff]
    rfl
  refine ⟨?_, ?_⟩
  · rw [hmade, answers_concat _ hrea]
    exact mem_append_left _ h.1
  intro k m hk
  rw [answers_concat _ hrea, mem_append] at hk
  rw [hmade]
  rcases hk with hk | hk
  · exact h.2 k m hk
  have hk : ∃ p, e.answer = some p ∧ (offersMade log, p) = (k, m, text) := by simpa using hk
  obtain ⟨p, _, hp⟩ := hk
  exact .inr (congrArg Prod.fst hp).symm

namespace Driver

structure Prompted (w : Webrtc) (d : Driver) : Prop where
  applied : AppliesCurrent w d.log
  out : d.state = .settingLocal ∨ d.state = .awaitingAnswer → 0 < offersMade d.log
  early : ∀ n text, d.pendingEarlyAnswerSdp = some (n, text) → d.state.terminal = false →
    d.state = .settingLocal ∧ Current d.log n text

theorem applied_append {w : Webrtc} {log : List Event} (h : AppliesCurrent w log)
    {es : List Event} (hes : ∀ e ∈ es, e.neutral = true) :
    AppliesCurrent w (log ++ es) ∧ offersMade (log ++ es) = offersMade log ∧
      ∀ n text, Current log n text → Current (log ++ es) n text := by
  induction es generalizing log with
  | nil => simpa using h
  | cons e es ih =>
    have he := hes e mem_cons_self
    obtain ⟨hrea, hoff, happli⟩ := (neutral_iff e).mp he
    have hone : AppliesCurrent w (log ++ [e]) := by
      rw [appliesCurrent_concat]
      refine ⟨h, ?_⟩
      rintro arm n sdp rfl
      simp [appliesAnswer] at happli
    obtain ⟨happ, hmade, hcur⟩ := ih hone fun e' he' => hes e' (mem_cons_of_mem e he')
    rw [append_cons]
    refine ⟨happ, ?_, fun n text hn => hcur n text (hn.concat he)⟩
    rw [hmade, offersMade_concat _ hrea, hoff]
    rfl

variable {w : Webrtc} {d x y : Driver}

section
variable (h : Prompted w x)
include h

theorem Prompted.same (es : List Event) (hlog : y.log = x.log ++ es) (hes : ∀ e ∈ es, e.neutral = true)
    (hst : y.state = x.state) (hear : y.pendingEarlyAnswerSdp = x.pendingEarlyAnswerSdp) : Prompted w y := by
  obtain ⟨happ, hmade, hcur⟩ := applied_append h.applied hes
  refine ⟨?_, ?_, ?_⟩
  · rwa [hlog]
  · rw [hlog, hmade, hst]
    exact h.out
  · intro n text hp hlive
    rw [hear] at hp
    rw [hst] at hlive ⊢
    obtain ⟨hs, hc⟩ := h.early n text hp hlive
    rw [hlog]
    exact ⟨hs, hcur n text hc⟩

theorem Prompted.into (es : List Event) (hlog : y.log = x.log ++ es) (hes : ∀ e ∈ es, e.neutral = true)
    (s : OffererState) (hy : y.state = s) (hs : s ≠ .settingLocal ∧ s ≠ .awaitingAnswer)
    (hnone : y.pendingEarlyAnswerSdp = none ∨ y.state.terminal = true) : Prompted w y := by
  obtain ⟨happ, hmade, hcur⟩ := applied_append h.applied hes
  refine ⟨?_, ?_, ?_⟩
  · rwa [hlog]
  · rw [hy]
    rintro (hloc | hawait)
    · exact absurd hloc hs.1
    · exact absurd hawait hs.2
  · intro n text hp hlive
    rcases hnone with hnone | hover
    · simp [hnone] at hp
    · simp [hover] at hlive

theorem Prompted.no_early {s : OffererState} (hx : x.state = s)
    (hs : s.terminal = false) (hne : s ≠ .settingLocal) : x.pendingEarlyAnswerSdp = none := by
  cases hp : x.pendingEarlyAnswerSdp with
  | none => rfl
  | some p =>
    obtain ⟨hloc, _⟩ := h.early p.1 p.2 hp (by rw [hx, hs])
    exact absurd (hx.symm.trans hloc) hne

theorem Prompted.offer (env : Envelope) (henv : env.type = .offer) (e : Event) (he : e.neutral = true)
    (hx : x.state = .creatingOffer) (hlog : y.log = x.log ++ [.handed env] ++ [e])
    (hear : y.pendingEarlyAnswerSdp = x.pendingEarlyAnswerSdp) : Prompted w y := by
  have hout : AppliesCurrent w (x.log ++ [.handed env]) := by
    rw [appliesCurrent_concat]
    exact ⟨h.applied, by simp⟩
  have hmade : offersMade (x.log ++ [.handed env]) = offersMade x.log + 1 := by
    rw [offersMade_concat _ rfl, if_pos (by simp [offers, henv])]
  have hes : ∀ e' ∈ [e], e'.neutral = true := by simpa using he
  obtain ⟨happ, hmade', _⟩ := applied_append hout hes
  refine ⟨?_, ?_, ?_⟩
  · rwa [hlog]
  · rw [hlog, hmade', hmade]
    omega
  · intro n text hp
    rw [hear, h.no_early hx rfl (by decide)] at hp
    exact absurd hp (by simp)

theorem Prompted.apply {arm n : ℕ} {text sdp : Bytes} (hout : 0 < offersMade x.log) (hcur : Current x.log n text)
    (hr : w.createSessionDescription .answer text = some sdp)
    (hlog : y.log = x.log ++ [.issued arm (.setRemoteDescription n sdp)]) (hst : y.state = .settingRemote)
    (hnone : y.pendingEarlyAnswerSdp = none) :
    Prompted w y := by
  refine ⟨?_, by simp [hst], by simp [hnone]⟩
  rw [hlog, appliesCurrent_concat]
  refine ⟨h.applied, ?_⟩
  intro arm' n' sdp' heq
  obtain ⟨rfl, rfl, rfl⟩ : arm = arm' ∧ n = n' ∧ sdp = sdp' := by simpa using heq
  exact ⟨hout, text, hr, hcur⟩

end

theorem Prompt.current {a : Act} {env : Envelope} {text : Bytes} (h : d.Prompt a)
    (ha : a = .onEnvelope env) (ht : env.type = .answer) (hs : env.answerSdp = some text)
    (hd : d.state = .settingLocal ∨ d.state = .awaitingAnswer) :
    Current (d.record env).log d.seen text := by
  have hsdp : a.answerSdp = some text := by simp [ha, Act.answerSdp, ht, hs]
  have hans : (envelope d.seen env).answer = some (d.seen, text) := by simp [Event.answer, ht, hs]
  have hmade : offersMade (d.log ++ [.envelope d.seen env]) = offersMade d.log := by
    rw [offersMade_concat _ rfl]
    rfl
  have hanss : answers (d.log ++ [.envelope d.seen env]) = answers d.log ++ [(offersMade d.log, d.seen, text)] := by
    rw [answers_concat _ rfl, hans]
    rfl
  simp only [Prompt, hsdp] at h
  show Current (d.log ++ [.envelope d.seen env]) d.seen text
  refine ⟨?_, ?_⟩
  · rw [hmade, hanss]
    simp
  intro k m hk
  rw [hmade]
  rw [hanss, mem_append] at hk
  rcases hk with hk | hk
  · exact h.2 hd _ hk rfl
  · have hk : k = offersMade d.log ∧ m = d.seen := by simpa using hk
    exact .inr hk.1

theorem Prompted.record (h : Prompted w d) (env : Envelope) :
    Prompted w (d.record env) :=
  h.same [_] rfl (by simp [neutral, rearms, offers, appliesAnswer]) rfl rfl

theorem Prompted.move {a : Act} (hok : d.Prompt a) (hm : Move w d a x y) (h : Prompted w x) : Prompted w y := by
  cases hm with
  | aside x e he =>
    refine h.same [e] rfl ?_ rfl rfl
    simp [neutral, aside_rearms he, aside_offers he, aside_applies he]
  | fail | refail =>
    refine h.into [_] rfl ?_ .failed rfl (by decide) (.inr rfl)
    simp [neutral, rearms, offers, appliesAnswer]
  | close =>
    refine h.into [_] rfl ?_ .closed rfl (by decide) (.inr rfl)
    simp [neutral, rearms, offers, appliesAnswer]
  | latch | consume | land | bufferOffer | connect | dropOffer =>
    exact h.same [] (append_nil _).symm (by simp) rfl rfl
  | trigger | coalesce | record | queueIce =>
    refine h.same [_] rfl ?_ rfl rfl
    simp [neutral, rearms, offers, appliesAnswer]
  | start x pc hx =>
    refine h.into [_] rfl ?_ .creatingPc rfl (by decide) (.inl (h.no_early hx rfl (by decide)))
    simp [neutral, rearms, offers, appliesAnswer]
  | initialOffer x hx =>
    refine h.into [_] rfl ?_ .creatingOffer rfl (by decide) (.inl (h.no_early hx rfl (by decide)))
    simp [neutral, rearms, offers, appliesAnswer]
  | restart x t hx =>
    refine h.into [_, _] (append_assoc _ [_] [_]) ?_ .creatingOffer rfl (by decide)
      (.inl (h.no_early hx rfl (by decide)))
    simp [neutral, rearms, offers, appliesAnswer]
  | addIce =>
    refine h.same [_, _] (append_assoc _ [_] [_]) ?_ rfl rfl
    simp [neutral, rearms, offers, appliesAnswer]
  | returnToIdle x =>
    refine ⟨?_, by simp [returnToIdle, note], by simp [returnToIdle, note]⟩
    show AppliesCurrent w (x.log ++ [.rearmed])
    rw [appliesCurrent_concat]
    exact ⟨h.applied, by simp⟩
  | refuseOffer x sdp hx =>
    refine ⟨?_, by simp [note, hx], ?_⟩
    · show AppliesCurrent w (x.log ++ [_])
      rw [appliesCurrent_concat]
      exact ⟨h.applied, by simp⟩
    intro n text hp
    have hp : x.pendingEarlyAnswerSdp = some (n, text) := hp
    rw [h.no_early hx rfl (by decide)] at hp
    exact absurd hp (by simp)
  | emitOffer _ _ hx | drainOffer _ _ hx => exact h.offer _ rfl _ rfl hx rfl rfl
  | localSet x hx hop hp => exact ⟨h.applied, fun _ => h.out (.inl hx), by simp [hp]⟩
  | forgetEarly x hx => exact ⟨h.applied, fun _ => h.out (.inl hx), by simp⟩
  | bufferAnswer env sdp ha ht hx hs =>
    -- it is here that an answer must not come in `kCreatingOffer`: there is no offer to match
    have hloc : d.state = .settingLocal := by
      rcases hx with hx | hx
      · have hsdp : a.answerSdp = some sdp := by simp [ha, Act.answerSdp, ht, hs]
        simp only [Prompt, hsdp] at hok
        exact absurd hx hok.1
      · exact hx
    have hcur := hok.current ha ht hs (.inl hloc)
    refine ⟨(h.record env).applied, (h.record env).out, ?_⟩
    intro n text hp _
    obtain ⟨rfl, rfl⟩ : d.seen = n ∧ sdp = text := by simpa using hp
    exact ⟨hloc, hcur⟩
  | applyAnswer env sdp remote ha ht hx hs hr =>
    exact (h.record env).apply ((h.record env).out (.inr hx)) (hok.current ha ht hs (.inr hx)) hr
      rfl rfl (h.no_early hx rfl (by decide))
  | applyEarly x n sdp remote hx hop hp hr =>
    -- no offer has gone out since the answer was buffered, so it is still current
    obtain ⟨_, hcur⟩ := h.early n sdp hp (by rw [hx]; rfl)
    exact h.apply (h.out (.inl hx)) hcur hr rfl rfl rfl
  | remoteSet arm reason ha harm hx =>
    obtain ⟨es, hlog, hes⟩ := enterIceFlight_events w d (fun e => e.neutral = true) rfl (fun _ _ => rfl) rfl
    refine h.into _ hlog hes .iceInFlight ?_ (by decide) (.inl ?_)
    · simp [enterIceFlight_eq]
    · simpa [enterIceFlight_eq] using h.no_early hx rfl (by decide)

end Driver

/-- As long as no answer comes before the offer it is meant for, an answer is only ever applied to
the offer that was current when it was delivered. -/
theorem answer_applied_to_its_offer (w : Webrtc) (acts : List Act)
    (hm : Runs.Meets (step w) Driver.Prompt .new acts) :
    AppliesCurrent w (runDriver w acts).log := by
  have hnew : Driver.Prompted w .new := by
    refine ⟨?_, by simp [new], by simp [new]⟩
    intro before after arm n sdp heq
    simp [new] at heq
  exact (runDriver_invariant w Driver.Prompt (Driver.Prompted w) hnew (fun _ _ _ _ => Driver.Prompted.move) hm).applied

def answerWith (text : Bytes) : Act :=
  .onEnvelope ⟨.answer, .client, .sdp ⟨ascii "answer", text⟩⟩

def danceIn (arm : ℕ) (offer answer : Bytes) : List Act :=
  [.createOfferSuccess arm "offer" offer true, .setLocalDescriptionComplete arm true "",
    answerWith answer, .setRemoteDescriptionComplete arm true ""]

def firstDance (answer : Bytes) : List Act :=
  [.onConnected true, .start .made, .renegotiationNeeded] ++ danceIn 0 [1] answer

theorem answer_applied_to_its_offer_twice :
    AppliesCurrent .permissive
        (runDriver .permissive (firstDance [2] ++ .requestRenegotiation :: danceIn 0 [3] [4])).log ∧
      ((runDriver .permissive (firstDance [2] ++ .requestRenegotiation ::
        danceIn 0 [3] [4])).log.countP appliesAnswer = 2) :=
  ⟨answer_applied_to_its_offer _ _ (by decide +kernel), by decide +kernel⟩

/-- The channel delivers the first answer again while the second offer is being created. -/
def redelivered : List Act :=
  firstDance [2] ++ [.requestRenegotiation, answerWith [2],
    .createOfferSuccess 0 "offer" [3] true, .setLocalDescriptionComplete 0 true ""]

theorem redelivered_answer_applied :
    ¬ AppliesCurrent .permissive (runDriver .permissive redelivered).log := by
  intro h
  obtain ⟨_, text, _, hmem, _⟩ := h ((runDriver .permissive redelivered).log.dropLast) [] 0 1 [2] (by decide +kernel)
  have hanswers : answers (runDriver .permissive redelivered).log.dropLast =
      [(1, 0, [2]), (1, 1, [2])] := by decide +kernel
  have hmade : offersMade (runDriver .permissive redelivered).log.dropLast = 2 := by decide +kernel
  rw [hanswers, hmade] at hmem
  simp at hmem

end Chromeless.Capture
