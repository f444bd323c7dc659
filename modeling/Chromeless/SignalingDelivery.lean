import Chromeless.SignalingEffects

/-! What ends up in a send channel, and in which order. -/
namespace Chromeless.Signaling
open Function Json List Pairwise Runs

namespace Session

structure Numbered (s : Session) : Prop where
  sdp : ∀ role typ e, s.recent role typ = some e → e.tag.typ = typ ∧ e.tag.seq < s.seq
  ice : ∀ role, ∀ e ∈ s.recentICE role, e.tag.typ = .ice ∧ e.tag.seq < s.seq
  order : ∀ role, (s.recentICE role).Pairwise fun e e' => e.tag.seq < e'.tag.seq

theorem numbered_new : Numbered Session.new where
  sdp := nofun
  ice := nofun
  order := fun _ => nil

variable {s : Session} {maxAge now : Time} {e : Buffered}

theorem Numbered.discardReplay (h : s.Numbered) (roles : List Role) :
    (s.discardReplay roles).Numbered := by
  refine ⟨?_, ?_, ?_⟩
  · intro role typ e he
    simp only [Session.discardReplay] at he
    split at he
    · cases he
    · exact h.sdp role typ e he
  · intro role e he
    simp only [Session.discardReplay] at he
    split at he
    · cases he
    · exact h.ice role e he
  · intro role
    simp only [Session.discardReplay]
    split
    · exact nil
    · exact h.order role

theorem Numbered.unregister (h : s.Numbered) (c : ConnId) (role : Role) :
    (s.unregister c role).Numbered := by
  unfold Session.unregister
  split
  · exact ⟨h.sdp, h.ice, h.order⟩
  · exact h

open Option

theorem Numbered.join (h : s.Numbered) (maxAge now : Time) (role : Role) (peers : Role → Option ConnId) :
    Numbered { s with
      peers := peers
      recent := update s.recent role.other (expire maxAge now (s.recent role.other)) } := by
  refine ⟨?_, h.ice, h.order⟩
  intro role' typ e he
  by_cases hr : role' = role.other
  · subst hr
    simp only [update_self, expire] at he
    split at he
    · exact h.sdp _ _ _ (filter_eq_some_iff.mp he).1
    · exact h.sdp _ _ _ he
  · simp only [update_of_ne hr] at he
    exact h.sdp role' typ e he

theorem pushICE_sublist (queue : List Buffered) (e : Buffered) :
    (pushICE queue e).Sublist (queue ++ [e]) := by
  unfold pushICE
  split
  · exact (tail_sublist queue).append_right [e]
  · exact Sublist.refl _

def Bounded (s : Session) : Prop := ∀ role, (s.recentICE role).length ≤ iceReplayMaxPerSender

theorem pushICE_length {queue : List Buffered} (h : queue.length ≤ iceReplayMaxPerSender) (e : Buffered) :
    (pushICE queue e).length ≤ iceReplayMaxPerSender := by
  have hmax : 0 < iceReplayMaxPerSender := by decide
  rw [pushICE, length_append, length_singleton]
  split
  · rw [length_tail]
    omega
  · omega

theorem Numbered.forward (h : s.Numbered) (now : Time) (role : Role) (f : Frame) (src : ConnId) :
    (s.forward now role f src).1.Numbered := by
  -- the new entry takes the number that all older ones are below
  have hlast : ∀ role',
      (s.recentICE role' ++ [Buffered.mk f.raw now ⟨src, f.typ, s.seq⟩]).Pairwise
        fun e e' => e.tag.seq < e'.tag.seq := by
    intro role'
    rw [pairwise_append]
    refine ⟨h.order role', pairwise_singleton _ _, ?_⟩
    intro e he e' he'
    rw [mem_singleton] at he'
    rw [he']
    exact (h.ice role' e he).2
  refine ⟨?_, ?_, ?_⟩
  · intro role' typ e he
    have hold : ∀ e, s.recent role' typ = some e → e.tag.typ = typ ∧ e.tag.seq < s.seq + 1 := by
      intro e he
      have := h.sdp role' typ e he
      exact ⟨this.1, by omega⟩
    simp only [Session.forward] at he ⊢
    split at he
    · simp only [update_apply, ite_apply] at he
      split_ifs at he with hr ht
      · cases he
        exact ⟨ht.symm, Nat.lt_succ_self _⟩
      · exact hold e (hr ▸ he)
      · exact hold e he
    · exact hold e he
  · intro role' e he
    have hold : ∀ e ∈ s.recentICE role', e.tag.typ = .ice ∧ e.tag.seq < s.seq + 1 := by
      intro e he
      have := h.ice role' e he
      exact ⟨this.1, by omega⟩
    simp only [Session.forward] at he ⊢
    split at he
    next hice =>
      rw [update_apply] at he
      split_ifs at he with hr
      · subst hr
        have hmem := (pushICE_sublist _ _).subset he
        rw [mem_append, mem_singleton] at hmem
        rcases hmem with hmem | hmem
        · exact hold e hmem
        · rw [hmem]
          exact ⟨hice.1, Nat.lt_succ_self _⟩
      · exact hold e he
    · exact hold e he
  · intro role'
    simp only [Session.forward]
    split
    · rw [update_apply]
      split_ifs
      · exact (hlast role.other).sublist (pushICE_sublist _ _)
      · exact h.order role'
    · exact h.order role'

def replayRank : EnvType → ℕ
  | .offer => 0
  | .answer => 1
  | .requestRenegotiate => 2
  | _ => 3

/-- The order of a replay: SDP by type, then ICE candidates as they were sent. -/
def ReplayBefore (a a' : Tag) : Prop :=
  replayRank a.typ < replayRank a'.typ ∨ (a.typ = .ice ∧ a'.typ = .ice ∧ a.seq < a'.seq)

theorem mem_freshSDP {buf : EnvType → Option Buffered} (h : e ∈ freshSDP maxAge now buf) :
    ∃ typ ∈ replayableTypes, buf typ = some e ∧ stale maxAge now e = false := by
  rw [freshSDP, mem_filterMap] at h
  obtain ⟨typ, htyp, he⟩ := h
  obtain ⟨hbuf, hfr⟩ := filter_eq_some_iff.mp he
  exact ⟨typ, htyp, hbuf, by simpa using hfr⟩

theorem Numbered.freshSDP_pairwise (h : s.Numbered) (maxAge now : Time) (role : Role) :
    (freshSDP maxAge now (s.recent role)).Pairwise fun e e' => ReplayBefore e.tag e'.tag := by
  have htyps : replayableTypes.Pairwise fun t t' => replayRank t < replayRank t' := by decide
  unfold freshSDP
  rw [pairwise_filterMap]
  apply htyps.imp
  intro t t' hlt e he e' he'
  have ht := h.sdp role t e (filter_eq_some_iff.mp he).1
  have ht' := h.sdp role t' e' (filter_eq_some_iff.mp he').1
  left
  rwa [ht.1, ht'.1]

theorem Numbered.due_pairwise (h : s.Numbered) (maxAge now : Time) (role : Role) :
    (s.due maxAge now role).Pairwise fun e e' => ReplayBefore e.tag e'.tag := by
  unfold due
  rw [pairwise_append]
  refine ⟨h.freshSDP_pairwise maxAge now role.other, ?_, ?_⟩
  · apply ((h.order role.other).filter _).imp_of_mem
    intro e e' he he' hlt
    have hice := (h.ice role.other e (mem_filter.mp he).1).1
    have hice' := (h.ice role.other e' (mem_filter.mp he').1).1
    exact .inr ⟨hice, hice', hlt⟩
  · intro e he e' he'
    obtain ⟨typ, htyp, hbuf, -⟩ := mem_freshSDP he
    have htag := (h.sdp role.other typ e hbuf).1
    have hice := (h.ice role.other e' (mem_filter.mp he').1).1
    have hrank : ∀ typ ∈ replayableTypes, replayRank typ < replayRank .ice := by decide
    left
    rw [htag, hice]
    exact hrank typ htyp

theorem Numbered.due_seq (h : s.Numbered) {role : Role} (he : e ∈ s.due maxAge now role) :
    e.tag.seq < s.seq := by
  rw [due, mem_append] at he
  rcases he with he | he
  · obtain ⟨typ, -, hbuf, -⟩ := mem_freshSDP he
    exact (h.sdp _ _ _ hbuf).2
  · exact (h.ice _ _ (mem_filter.mp he).1).2

end Session

def replayTags (log : List Msg) (replayed : ℕ) : List Tag := (log.take replayed).filterMap Msg.tag

def liveTags (log : List Msg) (replayed : ℕ) : List Tag := (log.drop replayed).filterMap Msg.tag

variable {log : List Msg} {n : ℕ}

theorem replayTags_append (h : n ≤ log.length) (m : Msg) :
    replayTags (log ++ [m]) n = replayTags log n := by
  rw [replayTags, replayTags, take_append_of_le_length h]

theorem liveTags_append (h : n ≤ log.length) (m : Msg) :
    liveTags (log ++ [m]) n = liveTags log n ++ m.tag.toList := by
  rw [liveTags, liveTags, drop_append_of_le_length h, filterMap_append]
  cases hm : m.tag <;> simp [hm]

theorem filterMap_tag_split (log : List Msg) (n : ℕ) :
    log.filterMap Msg.tag = replayTags log n ++ liveTags log n := by
  rw [replayTags, liveTags, ← filterMap_append, take_append_drop]

namespace Broker

variable {cfg : Config} {b b' : Broker} {a : Act} {s : Session} {p q : Conn} {n : ℕ} {d : ConnId}

theorem SessMove.numbered {ref : SessRef} (h : SessMove cfg b ref a s) (hn : (b.heap ref).Numbered) :
    s.Numbered ∧ (b.heap ref).seq ≤ s.seq := by
  cases h with
  | same => exact ⟨hn, Nat.le_refl _⟩
  | join => exact ⟨hn.join _ _ _ _, Nat.le_refl _⟩
  | forward => exact ⟨hn.forward _ _ _ _, Nat.le_succ _⟩
  | discardBye | discardReplay => exact ⟨hn.discardReplay _, Nat.le_refl _⟩
  | unregister =>
    refine ⟨hn.unregister _ _, ?_⟩
    unfold Session.unregister
    split <;> exact Nat.le_refl _

structure Sorted (p : Conn) (seq : ℕ) : Prop where
  counted : p.replayed ≤ p.send.log.length
  seen : ∀ a ∈ p.send.log.filterMap Msg.tag, a.seq < seq
  replay : (replayTags p.send.log p.replayed).Pairwise Session.ReplayBefore
  apart : ∀ a ∈ replayTags p.send.log p.replayed, ∀ a' ∈ liveTags p.send.log p.replayed, a.seq < a'.seq
  live : (liveTags p.send.log p.replayed).Pairwise fun a a' => a.src = a'.src → a.seq < a'.seq

structure Next (b : Broker) (c : ConnId) (tag : Tag) (t : ConnId) : Prop where
  src : tag.src = c
  below : tag.seq < (b.sess c).seq
  replay : ∀ a ∈ replayTags (b.conns t).send.log (b.conns t).replayed, a.seq < tag.seq
  live : ∀ a ∈ liveTags (b.conns t).send.log (b.conns t).replayed, a.src = c → a.seq < tag.seq

structure Delivered (b : Broker) : Prop where
  numbered : ∀ ref, (b.heap ref).Numbered
  sorted : ∀ d, Sorted (b.conns d) (b.sess d).seq
  next : ∀ c site raw tag t, (b.conns c).pc = .send site raw tag t → Next b c tag t

theorem sorted_of_log_nil (hlog : p.send.log = []) (hn : p.replayed = 0) (seq : ℕ) :
    Sorted p seq := by
  constructor <;> simp [hlog, hn, replayTags, liveTags]

theorem delivered_new : Delivered Broker.new where
  numbered := fun _ => Session.numbered_new
  sorted := fun _ => sorted_of_log_nil rfl rfl _
  next := by
    intro c site raw tag t h
    cases h

theorem Sorted.mono {m : ℕ} (h : Sorted p n) (hlog : q.send.log = p.send.log)
    (hrep : q.replayed = p.replayed) (hnm : n ≤ m) : Sorted q m := by
  refine ⟨?_, ?_, ?_, ?_, ?_⟩
  · rw [hlog, hrep]
    exact h.counted
  · intro a ha
    rw [hlog] at ha
    exact Nat.lt_of_lt_of_le (h.seen a ha) hnm
  · rw [hlog, hrep]
    exact h.replay
  · rw [hlog, hrep]
    exact h.apart
  · rw [hlog, hrep]
    exact h.live

theorem Sorted.append (h : Sorted p n) {m : Msg} (hlog : q.send.log = p.send.log ++ [m])
    (hrep : q.replayed = p.replayed) (hseq : ∀ a, m.tag = some a → a.seq < n)
    (hrpl : ∀ a, m.tag = some a → ∀ a' ∈ replayTags p.send.log p.replayed, a'.seq < a.seq)
    (hlive : ∀ a, m.tag = some a → ∀ a' ∈ liveTags p.send.log p.replayed,
      a'.src = a.src → a'.seq < a.seq) : Sorted q n := by
  have hlt : liveTags q.send.log q.replayed = liveTags p.send.log p.replayed ++ m.tag.toList := by
    rw [hlog, hrep, liveTags_append h.counted]
  have hrt : replayTags q.send.log q.replayed = replayTags p.send.log p.replayed := by
    rw [hlog, hrep, replayTags_append h.counted]
  refine ⟨?_, ?_, ?_, ?_, ?_⟩
  · have := h.counted
    rw [hlog, hrep, length_append]
    omega
  · intro a ha
    rw [filterMap_tag_split _ q.replayed, hlt, hrt, ← append_assoc,
      ← filterMap_tag_split, mem_append, Option.mem_toList] at ha
    rcases ha with ha | ha
    · exact h.seen a ha
    · exact hseq a ha
  · rw [hrt]
    exact h.replay
  · intro a ha a' ha'
    rw [hrt] at ha
    rw [hlt, mem_append, Option.mem_toList] at ha'
    rcases ha' with ha' | ha'
    · exact h.apart a ha a' ha'
    · exact hrpl a' ha' a ha
  · rw [hlt, pairwise_append]
    refine ⟨h.live, ?_, ?_⟩
    · cases m.tag with
      | none => exact nil
      | some => exact pairwise_singleton _ _
    · intro a ha a' ha' hsrc
      exact hlive a' (Option.mem_toList.mp ha') a ha hsrc

theorem sorted_join (hn : s.Numbered) {maxAge now : Time} {role : Role}
    (hlog : q.send.log = ((s.due maxAge now role).map Buffered.msg).take sendBuffer)
    (hrep : q.replayed = ((s.due maxAge now role).take sendBuffer).length) : Sorted q s.seq := by
  have hlen : q.replayed = q.send.log.length := by rw [hrep, hlog, length_take, length_take, length_map]
  have htags : q.send.log.filterMap Msg.tag = ((s.due maxAge now role).take sendBuffer).map Buffered.tag := by
    rw [hlog, ← map_take, filterMap_map, ← filterMap_eq_map]
    rfl
  have hrt : replayTags q.send.log q.replayed = q.send.log.filterMap Msg.tag := by rw [replayTags, hlen, take_length]
  have hlt : liveTags q.send.log q.replayed = [] := by
    rw [liveTags, hlen, drop_length]
    rfl
  refine ⟨Nat.le_of_eq hlen, ?_, ?_, ?_, ?_⟩
  · intro a ha
    rw [htags, mem_map] at ha
    obtain ⟨e, he, rfl⟩ := ha
    exact hn.due_seq (mem_of_mem_take he)
  · rw [hrt, htags, pairwise_map]
    exact (hn.due_pairwise maxAge now role).sublist (take_sublist _ _)
  · intro a _ a' ha'
    rw [hlt] at ha'
    cases ha'
  · rw [hlt]
    exact nil

section
variable (hm : Move cfg b a b')
include hm

theorem Move.sess_le (hwf : Wf b) (hn : ∀ ref, (b.heap ref).Numbered)
    (hd : (b.conns d).pc.stage ≠ .fresh) : (b.sess d).seq ≤ (b'.sess d).seq := by
  have href := (hm.identity d hd).2
  rw [Broker.sess, Broker.sess, href]
  exact ((hm.sess hwf _).numbered (hn _)).2

theorem Move.sorted (hwf : Wf b) (h : Delivered b) (d : ConnId) :
    Sorted (b'.conns d) (b'.sess d).seq := by
  have hle := fun hd => hm.sess_le hwf h.numbered (d := d) hd
  generalize hlog : (b'.conns d).send.log = log
  generalize hrep : (b'.conns d).replayed = n
  have hch : ChanMove cfg b d a log n := by
    rw [← hlog, ← hrep]
    exact hm.chan hwf d
  cases hch with
  | same =>
    by_cases hd : (b.conns d).pc.stage = .fresh
    · -- nothing has been sent yet, whatever session the connection is given
      have hemp : (b.conns d).send.log = [] := by
        rw [hwf.unsent d (.inl hd)]
        rfl
      have hcnt := (h.sorted d).counted
      rw [hemp] at hlog hcnt
      apply sorted_of_log_nil hlog
      rw [hrep]
      exact Nat.le_zero.mp hcnt
    · exact (h.sorted d).mono hlog hrep (hle hd)
  | dial => exact sorted_of_log_nil hlog hrep _
  | join hpc =>
    have hjoin := sorted_join (h.numbered (b.conns d).ref) hlog hrep
    exact hjoin.mono rfl rfl (hle (by simp [hpc, Pc.stage]))
  | advise hd =>
    have hsor := (h.sorted d).mono rfl rfl (hle (by simp [hd]))
    apply hsor.append hlog hrep <;> simp
  | @live c now site raw tag hpc =>
    obtain ⟨href, hrole, hlate⟩ := hwf.target c site raw tag d hpc
    have hnext := h.next c site raw tag d hpc
    have hd : (b.conns d).pc.stage ≠ .fresh := fun he => hlate (.inl he)
    have hsor := (h.sorted d).mono rfl rfl (hle hd)
    apply hsor.append hlog hrep
    · intro a ha
      have hbelow := hnext.below
      have hle' := hle hd
      have hsame : (b.sess c).seq = (b.sess d).seq := by rw [Broker.sess, Broker.sess, href]
      simp only [Option.some.injEq] at ha
      rw [← ha]
      omega
    · intro a ha a' ha'
      simp only [Option.some.injEq] at ha
      rw [← ha]
      exact hnext.replay a' ha'
    · intro a ha a' ha' hsrc
      simp only [Option.some.injEq] at ha
      rw [← ha] at hsrc ⊢
      exact hnext.live a' ha' (hsrc.trans hnext.src)

theorem Move.next (hwf : Wf b) (h : Delivered b) {c : ConnId} {site : Site}
    {raw : Bytes} {tag : Tag} {t : ConnId} (hpc : (b'.conns c).pc = .send site raw tag t) :
    Next b' c tag t := by
  generalize hlog : (b'.conns t).send.log = log
  generalize hrep : (b'.conns t).replayed = n
  have hch : ChanMove cfg b t a log n := by
    rw [← hlog, ← hrep]
    exact hm.chan hwf t
  rcases hm.pending hpc with ⟨hold, hoth⟩ | ⟨now, f, rfl, hfwd, -, htag, hslot, hsess⟩
  · have hnext := h.next c site raw tag t hold
    have hcnt := (h.sorted t).counted
    obtain ⟨-, -, hlate⟩ := hwf.target c site raw tag t hold
    have hbelow : tag.seq < (b'.sess c).seq := by
      apply Nat.lt_of_lt_of_le hnext.below
      apply hm.sess_le hwf h.numbered
      rw [hold]
      cases site <;> simp [Pc.stage, Site.stage]
    cases hch with
    | same =>
      refine ⟨hnext.src, hbelow, ?_, ?_⟩
      · rw [hlog, hrep]
        exact hnext.replay
      · rw [hlog, hrep]
        exact hnext.live
    | dial ht => exact absurd (.inl ht) hlate
    | join ht => exact absurd (.inr (by rw [ht]; rfl)) hlate
    | advise =>
      refine ⟨hnext.src, hbelow, ?_, ?_⟩
      · rw [hlog, hrep, replayTags_append hcnt]
        exact hnext.replay
      · rw [hlog, hrep, liveTags_append hcnt]
        simpa using hnext.live
    | @live c' now' site' raw' tag' hpc' =>
      -- the message that arrives is somebody else's
      have hne : tag'.src ≠ c := by
        rw [(h.next c' site' raw' tag' t hpc').src]
        intro he
        exact hoth now' (by rw [he])
      refine ⟨hnext.src, hbelow, ?_, ?_⟩
      · rw [hlog, hrep, replayTags_append hcnt]
        exact hnext.replay
      rw [hlog, hrep, liveTags_append hcnt]
      intro a ha hsrc
      simp only [Option.toList_some, mem_append, mem_singleton] at ha
      rcases ha with ha | ha
      · exact hnext.live a ha hsrc
      · rw [ha] at hsrc
        exact absurd hsrc hne
  · obtain ⟨href, hrole, hjoin⟩ := hwf.slot _ _ _ hslot
    have hct : t ≠ c := by
      intro he
      rw [he] at hrole
      exact Role.other_ne _ hrole.symm
    -- the number is new: all that is in the channel has a lower one
    have hseen : ∀ a ∈ log.filterMap Msg.tag, a.seq < tag.seq := by
      have hold : ∀ a ∈ (b.conns t).send.log.filterMap Msg.tag, a.seq < tag.seq := by
        intro a ha
        have hlt := (h.sorted t).seen a ha
        rw [Broker.sess, href] at hlt
        rwa [htag]
      cases hch with
      | same => exact hold
      | dial => simp
      | join => exact absurd rfl hct
      | advise => simpa using hold
      | live hpc' =>
        rw [hfwd] at hpc'
        cases hpc'
    have hsp := filterMap_tag_split log n
    refine ⟨by rw [htag], ?_, ?_, ?_⟩
    · have hc : (b.conns c).pc.stage ≠ .fresh := by
        rw [hfwd]
        cases site <;> simp [Pc.stage, Site.stage]
      rw [Broker.sess, (hm.identity c hc).2, hsess, htag]
      exact Nat.lt_succ_self _
    · intro a ha
      rw [hlog, hrep] at ha
      apply hseen
      rw [hsp]
      exact mem_append_left _ ha
    · intro a ha _
      rw [hlog, hrep] at ha
      apply hseen
      rw [hsp]
      exact mem_append_right _ ha

theorem Move.delivered (hwf : Wf b) (h : Delivered b) : Delivered b' where
  numbered := fun ref => ((hm.sess hwf ref).numbered (h.numbered ref)).1
  sorted := hm.sorted hwf h
  next := fun _ _ _ _ _ hpc => hm.next hwf h hpc

end

theorem delivered_run (cfg : Config) (acts : List Act) : Delivered (runBroker cfg acts) := by
  have hinv := invariant_runBroker cfg (fun b => Wf b ∧ Delivered b) ⟨wf_new, delivered_new⟩
    (fun b a b' hm h => ⟨wf_move hm h.1, hm.delivered h.1 h.2⟩) acts
  exact hinv.2

theorem SessMove.bounded {ref : SessRef} (h : SessMove cfg b ref a s) (hb : (b.heap ref).Bounded) : s.Bounded := by
  intro role
  cases h with
  | forward =>
    simp only [Session.forward, ite_apply, update_apply]
    split_ifs
    · exact Session.pushICE_length (hb _) _
    all_goals exact hb role
  | discardBye | discardReplay =>
    simp only [Session.discardReplay]
    split_ifs <;> first | exact hb role | exact Nat.zero_le _
  | unregister =>
    unfold Session.unregister
    split <;> exact hb role
  | _ => exact hb role

theorem Sorted.nodup (h : Sorted p n) : (p.send.log.filterMap Msg.tag).Nodup := by
  rw [filterMap_tag_split _ p.replayed, nodup_append]
  refine ⟨?_, ?_, ?_⟩
  · apply h.replay.imp
    intro a a' hbef he
    rw [he] at hbef
    rcases hbef with hlt | ⟨-, -, hlt⟩ <;> omega
  · apply h.live.imp
    intro a a' hlive he
    have hlt := hlive (by rw [he])
    rw [he] at hlt
    omega
  · intro a ha a' ha' he
    have hlt := h.apart a ha a' ha'
    rw [he] at hlt
    omega

theorem Move.replays (hm : Move cfg b a b') (hwf : Wf b) (h : (b.conns d).pc.stage = .joining)
    (h' : (b'.conns d).pc.stage = .joined) :
    (b'.conns d).replayed = (b'.conns d).send.log.length := by
  cases hm with
  | @join c =>
    by_cases hdc : d = c
    · subst hdc
      have hempty := hwf.unsent d (.inr h)
      simp only [note_conns, setConn_conns, update_self, hempty]
      rfl
    · simp only [note_conns, setConn_conns, setSess_conns, update_of_ne hdc, h] at h'
      cases h'
  | localStep hl =>
    have hd := Alike.update (fun d => Alike.refl (b.conns d)) hl.alike d
    rw [setConn_conns, hd.stage, h] at h'
    cases h'
  | _ =>
    simp only [goto_eq, markTarget_eq, setConn_conns, setSess_conns, note_conns, update_apply, apply_ite Conn.pc] at h'
    grind -ring -linarith [Pc.stage, Stage.early, Site.stage_not_early, Conn.new]

theorem channel_grows (cfg : Config) (hwf : Wf b) (hd : ¬ (b.conns d).pc.stage.early) (acts : List Act) :
    ∃ live, ((run (step cfg) b acts).conns d).send.log = (b.conns d).send.log ++ live ∧
      ((run (step cfg) b acts).conns d).replayed = (b.conns d).replayed := by
  have hinv := invariant_run (step cfg) (fun b' => Wf b' ∧ ¬ (b'.conns d).pc.stage.early ∧
    ∃ live, (b'.conns d).send.log = (b.conns d).send.log ++ live ∧
      (b'.conns d).replayed = (b.conns d).replayed) (s := b) ?_ ⟨hwf, hd, [], by simp, rfl⟩ acts
  · exact hinv.2.2
  intro b₁ a ⟨hwf₁, hd₁, live, hlog, hrep⟩
  rcases step_move cfg b₁ a with heq | hm
  · rw [heq]
    exact ⟨hwf₁, hd₁, live, hlog, hrep⟩
  refine ⟨wf_move hm hwf₁, hm.not_early hd₁, ?_⟩
  have hch := hm.chan hwf₁ d
  generalize ((step cfg b₁ a).conns d).send.log = log at hch ⊢
  generalize ((step cfg b₁ a).conns d).replayed = n at hch ⊢
  cases hch with
  | same => exact ⟨live, hlog, hrep⟩
  | dial hf => exact absurd (.inl hf) hd₁
  | join hpc => exact absurd (.inr (by rw [hpc]; rfl)) hd₁
  | @advise a raw =>
    refine ⟨live ++ [⟨raw, none⟩], ?_, hrep⟩
    rw [hlog, append_assoc]
  | @live c now site raw tag =>
    refine ⟨live ++ [⟨raw, some tag⟩], ?_, hrep⟩
    rw [hlog, append_assoc]

/-- For every registration, at every later moment: the replay stands before everything live, no
envelope is there twice, the replay is in order, and so are each sender's live envelopes. -/
theorem registration_channel_in_order (cfg : Config) (pre post : List Act) (a : Act) (d : ConnId)
    (hjoining : ((runBroker cfg pre).conns d).pc.stage = .joining)
    (hjoined : ((runBroker cfg (pre ++ [a])).conns d).pc.stage = .joined) :
    let replay := ((runBroker cfg (pre ++ [a])).conns d).send.log
    ∃ live, ((runBroker cfg (pre ++ a :: post)).conns d).send.log = replay ++ live ∧
      ((replay ++ live).filterMap Msg.tag).Nodup ∧
      (∀ x ∈ replay.filterMap Msg.tag, ∀ y ∈ live.filterMap Msg.tag, x.seq < y.seq) ∧
      (live.filterMap Msg.tag).Pairwise (fun x y => x.src = y.src → x.seq < y.seq) ∧
      (replay.filterMap Msg.tag).Pairwise Session.ReplayBefore := by
  intro replay
  have hwf := wf_run cfg (pre ++ [a])
  have hlate : ¬ ((runBroker cfg (pre ++ [a])).conns d).pc.stage.early := by
    rw [hjoined]
    simp [Stage.early]
  have hstep : runBroker cfg (pre ++ [a]) = step cfg (runBroker cfg pre) a := by
    rw [runBroker, run_append]
    rfl
  have hcount : ((runBroker cfg (pre ++ [a])).conns d).replayed = replay.length := by
    rcases step_move cfg (runBroker cfg pre) a with heq | hm
    · rw [hstep, heq, hjoining] at hjoined
      cases hjoined
    · rw [← hstep] at hm
      exact hm.replays (wf_run cfg pre) hjoining hjoined
  have hrun : runBroker cfg (pre ++ a :: post) = run (step cfg) (runBroker cfg (pre ++ [a])) post := by
    rw [runBroker, runBroker, ← run_append, append_assoc]
    rfl
  obtain ⟨live, hlog, hrep⟩ := channel_grows cfg hwf hlate post
  rw [← hrun] at hlog hrep
  have hsorted := (delivered_run cfg (pre ++ a :: post)).sorted d
  have hnodup := hsorted.nodup
  have hreplay := hsorted.replay
  have hapart := hsorted.apart
  have hlive := hsorted.live
  have hrt : replayTags (replay ++ live) replay.length = replay.filterMap Msg.tag := by rw [replayTags, take_left]
  have hlt : liveTags (replay ++ live) replay.length = live.filterMap Msg.tag := by rw [liveTags, drop_left]
  rw [hrep, hcount, hlog] at hreplay hapart hlive
  rw [hrt] at hreplay hapart
  rw [hlt] at hapart hlive
  rw [hlog] at hnodup
  exact ⟨live, hlog, hnodup, hapart, hlive, hreplay⟩

theorem registration_channel_in_order_reoffer :
    let before := joins 0 .browser ++ speaks 0 .offer .browser ++ dials 1 .client :: gos 1 1
    let after := gos 1 7 ++ speaks 0 .offer .browser
    ((runBroker openConfig (before ++ .go 1 0 :: after)).conns 1).send.log.length = 2 ∧
      (((runBroker openConfig (before ++ .go 1 0 :: after)).conns 1).send.log.filterMap Msg.tag).Nodup := by
  intro before after
  obtain ⟨live, hlog, hnodup, -⟩ := registration_channel_in_order openConfig before after
    (.go 1 0) 1 (by decide +kernel) (by decide +kernel)
  refine ⟨by decide +kernel, ?_⟩
  rwa [hlog]

end Broker

end Chromeless.Signaling
