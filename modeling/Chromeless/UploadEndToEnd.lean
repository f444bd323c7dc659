import Chromeless.UploadSystem

/-! When an upload arrives. -/
namespace Chromeless.UploadSystem
open List hiding Vector
open Json UploadClient Channel Number Drive
open Vector (replicate)
open Uploads (completionsOf Unknown failuresOf kMaxUploadBytes Envelope SafeIds requestOf Receiver
  requestsOf Sends Sent Apart tasksOn repliesTo startedBy hexEncode toLowerASCII step_safeIds admits)
open Runs (Meets run_append meets_append)

/-! ### What the receiver reads -/

section
variable {j : Job} {seq : ℕ}

theorem requestIn_chunk (j : Job) (hseq : seq < 2^31) (data : Bytes) :
    requestIn j (.chunk j.uploadId seq data) = some (.chunk j.safeId data seq) := by
  rw [requestIn, requestOf, Uploads.readRequest_chunk j.uploadId hseq]
  exact if_pos (decide_eq_true rfl)

theorem requestIn_chunk_of_le (j : Job) (hseq : 2^31 ≤ seq) (data : Bytes) :
    requestIn j (.chunk j.uploadId seq data) = none := by
  rw [requestIn, requestOf, Uploads.readRequest_chunk_of_le j.uploadId hseq]
  rfl

theorem requestIn_finish (j : Job) : requestIn j (.finish j.uploadId) = some (.finish j.safeId) := by
  exact if_pos (decide_eq_true rfl)

theorem requestIn_start (j : Job) (hsize : j.contents.length < 2^31) (hash : Bytes → Bytes) :
    requestIn j (j.drive.start hash) = some (.start j.safeId j.name (hash j.contents) j.contents.length) := by
  have hread : Uploads.readRequest (j.drive.start hash).object =
      some (.start j.safeId j.name (hash j.contents) j.contents.length) :=
    Uploads.readRequest_start _ _ _ hsize _ _
  rw [requestIn, requestOf, hread]
  exact if_pos (decide_eq_true rfl)

theorem requests_late (hseq : 2^31 ≤ seq) (slices : List Bytes) :
    (chunksFrom j.uploadId seq slices).filterMap (requestIn j) = [.finish j.safeId] := by
  induction slices generalizing seq with
  | nil => rw [chunksFrom, filterMap_cons_some (requestIn_finish j), filterMap_nil]
  | cons c cs ih =>
    rw [chunksFrom, filterMap_cons_none (requestIn_chunk_of_le j hseq _)]
    exact ih (Nat.le_succ_of_le hseq)

theorem sends_chunksFrom (hseq : seq ≤ 2^31) (slices : List Bytes) :
    Sends j.safeId seq (slices.take (2^31 - seq)) ((chunksFrom j.uploadId seq slices).filterMap (requestIn j)) := by
  induction slices generalizing seq with
  | nil =>
    rw [chunksFrom, filterMap_cons_some (requestIn_finish j), filterMap_nil, take_nil]
    exact .finish seq
  | cons c cs ih =>
    obtain hlt | rfl := Nat.lt_or_eq_of_le hseq
    · have htake : (c :: cs).take (2^31 - seq) = c :: cs.take (2^31 - (seq+1)) := by
        rw [show 2^31 - seq = (2^31 - (seq+1)) + 1 by omega, take_succ_cons]
      rw [htake, chunksFrom, filterMap_cons_some (requestIn_chunk j hlt _)]
      exact .chunk _ c (Base64.decode_of_encode _ c) (ih hlt)
    · rw [Nat.sub_self, take_zero, requests_late le_rfl]
      exact .finish _

end

/-! ### The receiver -/

section
variable {sha256 : Bytes → Vector UInt8 32} {j : Job} {s₀ : Receiver}
  {es : List Uploads.Event} {rest later : List Uploads.Request}

theorem hexChar_lower {n : ℕ} (hn : n < 16) :
    ¬ (0x41 ≤ hexChar n ∧ hexChar n ≤ 0x5a) := by
  interval_cases n <;> decide

theorem toLowerASCII_hexEncode (s : Bytes) :
    toLowerASCII (hexEncode s) = hexEncode s := by
  rw [toLowerASCII, map_congr_left (g := id), map_id]
  intro c hc
  obtain ⟨b, -, hb⟩ := mem_flatMap.mp hc
  have hbyte := b.toNat_lt
  obtain rfl | hb := mem_cons.mp hb
  · exact if_neg (hexChar_lower (by omega))
  · obtain rfl := mem_singleton.mp hb
    exact if_neg (hexChar_lower (Nat.mod_lt _ (by decide)))

def Job.sent (j : Job) (sha256 : Bytes → Vector UInt8 32) (chunks : List Bytes) (hne : chunks ≠ [])
    (hfits : chunks.flatten.length ≤ j.contents.length) : Sent where
  uploadId := j.safeId
  path := j.path
  declared := j.contents.length
  sha := sha256Hex sha256 j.contents
  chunks := chunks
  chunks_ne_nil := hne
  fits := Int.ofNat_le.mpr hfits

theorem clear_of_unknown (h : Unknown j.safeId j.path s₀) {a : Sent}
    (hid : a.uploadId = j.safeId) (hpath : a.path = j.path) : a.Clear s₀ := by
  have hpool : ∀ t ∈ s₀.pool, t.path ≠ j.path := by
    intro t ht htpath
    have hmem : t ∈ tasksOn j.path s₀ := mem_filter.mpr ⟨ht, decide_eq_true htpath⟩
    rw [h.tasks] at hmem
    cases hmem
  refine ⟨h.apart.alive, ?_, ?_, ?_⟩
  · intro t ht
    rw [hid, hpath]
    obtain ⟨hiff, hwipe⟩ := h.apart.pool t ht
    exact ⟨fun htid => hpool t ht (hiff.mp htid), hpool t ht, hwipe⟩
  · intro r hr hrid
    have hmem : r ∈ repliesTo j.safeId s₀ := mem_filter.mpr ⟨hr, decide_eq_true (hrid.trans hid)⟩
    rw [h.replies] at hmem
    cases hmem
  · intro u hu hne
    rw [hpath]
    rw [hid] at hne
    exact fun hupath => hne ((h.apart.uploads u.1 u.2 (AList.mem_lookup_iff.mpr hu)).mpr hupath)

theorem stage_of_requests {chunks : List Bytes} (hne : chunks ≠ [])
    (hfits : chunks.flatten.length ≤ j.contents.length) (hunk : Unknown j.safeId j.path s₀)
    (hmts : Meets (Uploads.step sha256) (Fair j) s₀ es) (hreqs : requestsOf j.safeId es =
      .start j.safeId j.name (sha256Hex sha256 j.contents) j.contents.length :: rest)
    (hsize : 0 < j.contents.length ∧ (j.contents.length : ℤ) ≤ kMaxUploadBytes)
    (hsnds : Sends j.safeId 0 chunks (rest ++ later)) :
    Apart j.safeId j.path (Uploads.run sha256 s₀ es) ∧
      (∃ left, Sent.Stage sha256 (j.sent sha256 chunks hne hfits)
        (completionsOf j.safeId s₀) (Uploads.run sha256 s₀ es) later left) ∧
      (later ≠ [] → failuresOf j.safeId (Uploads.run sha256 s₀ es) = failuresOf j.safeId s₀) := by
  obtain ⟨es₁, e, es₂, rfl, hnone, hst, hrest⟩ := filterMap_eq_cons_iff.mp hreqs
  obtain ⟨hmts₁, hfair, hmts₂⟩ := (meets_append ..).mp hmts
  -- nothing of the upload is known when it is started
  obtain ⟨hbef, hcomps, hfls⟩ := hunk.run (hmts₁.mono _ fun _ _ h => h.1) (filterMap_eq_nil_iff.mpr hnone)
  rw [Uploads.run_append, Uploads.run_cons]
  change Fair j (Uploads.run sha256 s₀ es₁) e at hfair
  change Meets _ _ (Uploads.step sha256 (Uploads.run sha256 s₀ es₁) e) _ at hmts₂
  generalize Uploads.run sha256 s₀ es₁ = x at *
  have hquota : x.sessionBytes + j.contents.length ≤ Uploads.kMaxSessionUploadBytes := hfair.2.2 _ _ _ hst
  obtain ⟨d, rfl, hread, -⟩ := Uploads.requestOf_eq_some hst
  have hadm : admits x j.contents.length := ⟨by omega, hsize.2, hquota⟩
  have hstd : startedBy x (.message d) = some (j.safeId,
      x.newUpload j.safeId j.name (sha256Hex sha256 j.contents) j.contents.length) := by
    simp only [startedBy, hread]
    exact if_pos ⟨hbef.apart.alive, hadm⟩
  have htkn : (j.sent sha256 chunks hne hfits).Taken []
      (x.newUpload j.safeId j.name (sha256Hex sha256 j.contents) j.contents.length) :=
    ⟨rfl, rfl, toLowerASCII_hexEncode _, rfl, rfl⟩
  have hstag : Apart j.safeId j.path (Uploads.step sha256 x (.message d)) ∧
      ∃ left, Sent.Stage sha256 (j.sent sha256 chunks hne hfits)
        (completionsOf j.safeId x) (Uploads.step sha256 x (.message d)) (rest ++ later) left :=
    Sent.Stage.start (clear_of_unknown hbef rfl rfl) hbef.apart.held hstd htkn hsnds
  obtain ⟨hap, left, hstg⟩ := hstag
  have hord : Meets (Uploads.step sha256) (j.sent sha256 chunks hne hfits).Orderly
      (Uploads.step sha256 x (.message d)) es₂ := hmts₂.mono _ fun _ _ h => ⟨h.1, h.2.1⟩
  rw [← hrest, hcomps] at hstg
  obtain ⟨hap', hstg'⟩ := Sent.Stage.run hstg hap hord
  refine ⟨hap', hstg', fun hlat => ?_⟩
  obtain ⟨r, later, rfl⟩ := exists_cons_of_ne_nil hlat
  have hlog : (Uploads.step sha256 x (.message d)).log = x.log := by
    rw [Uploads.step_of_startedBy hstd]
    rfl
  calc failuresOf j.safeId (Uploads.run sha256 (Uploads.step sha256 x (.message d)) es₂)
      = failuresOf j.safeId (Uploads.step sha256 x (.message d)) := Sent.Stage.run_failures hstg hap hord
    _ = failuresOf j.safeId x := by rw [failuresOf, hlog, failuresOf]
    _ = failuresOf j.safeId s₀ := hfls

end

/-! ### Uploads that go well -/

structure Plan (R : Rounding) (opts : Options) (j : Job) (slices : List Bytes) : Prop where
  loop : Loop R opts.chunkSize j.contents (.finite 0) slices
  count : slices.length ≤ 2^31
  whole : slices.flatten = j.contents
  nonempty : 0 < j.contents.length
  bounded : (j.contents.length : ℤ) ≤ kMaxUploadBytes

def Job.total (j : Job) (sha256 : Bytes → Vector UInt8 32) (slices : List Bytes) :
    List Envelope :=
  j.drive.start (sha256Hex sha256) :: chunksFrom j.uploadId 0 slices

structure OnTrack (R : Rounding) (opts : Options) (sha256 : Bytes → Vector UInt8 32) (j : Job) (slices : List Bytes)
    (s₀ : Receiver) (s : System) (point : Point) (es : List Uploads.Event) (delivered : List Envelope) : Prop where
  along : Along R opts sha256 j s₀ s point es delivered
  goes : s.client.goesOn j.uploadId = true ∨ envelopesOf s.client.log = j.total sha256 slices
  answered : s₀.log.length ≤ s.answered

theorem chunksFrom_getLast (id : Bytes) (seq : ℕ) (slices : List Bytes) :
    (chunksFrom id seq slices).getLast? = some (.finish id) := by
  induction slices generalizing seq with
  | nil => rfl
  | cons c cs ih => rw [chunksFrom, getLast?_cons, ih]; rfl

theorem chunksFrom_ne_nil (id : Bytes) (seq : ℕ) (slices : List Bytes) : chunksFrom id seq slices ≠ [] := by
  intro hnil
  have hlast := chunksFrom_getLast id seq slices
  rw [hnil] at hlast
  cases hlast

theorem remains_nil {R : Rounding} {opts : Options} {hash : Bytes → Bytes} {d : Drive}
    (h : d.Remains R opts hash []) : d.point = .sentEnd ∨ d.point = .returned := by
  have hheads : ∀ off seq, ¬ d.Heads R opts off seq [] := fun off seq ⟨slices, _, hnil⟩ =>
    chunksFrom_ne_nil _ _ _ hnil.symm
  unfold Remains at h
  split at h
  · obtain ⟨later, -, hnil⟩ := h
    cases hnil
  · obtain ⟨later, -, hnil⟩ := h
    cases hnil
  · exact absurd h (hheads _ _)
  · obtain ⟨later, -, hnil⟩ := h
    cases hnil
  · exact absurd h (hheads _ _)
  · exact absurd h (hheads _ _)
  · exact .inl ‹_›
  · exact .inr ‹_›
  · exact absurd h not_false

section
variable {R : Rounding} {opts : Options} {sha256 : Bytes → Vector UInt8 32} {j : Job} {slices : List Bytes}
  {s₀ : Receiver} {s : System} {point : Point} {es : List Uploads.Event} {delivered : List Envelope}

section
variable (h : Plan R opts j slices)
include h

theorem Plan.remains :
    j.drive.Remains R opts (sha256Hex sha256) (j.total sha256 slices) :=
  ⟨_, ⟨slices, h.loop, rfl⟩, rfl⟩

theorem Plan.ne_nil : slices ≠ [] := by
  intro hnil
  have hwh := h.whole
  have hne := h.nonempty
  rw [hnil] at hwh
  rw [← hwh] at hne
  cases hne

theorem Plan.fits : slices.flatten.length ≤ j.contents.length := by
  rw [h.whole]

theorem Plan.good : (j.sent sha256 slices h.ne_nil h.fits).Good sha256 := by
  have hcont : (j.sent sha256 slices h.ne_nil h.fits).content = j.contents := h.whole
  exact ⟨by rw [hcont]; rfl, .inr (by rw [hcont]; rfl)⟩

end

section
variable (h : OnTrack R opts sha256 j slices s₀ s point es delivered) (hplan : Plan R opts j slices)
include h hplan

theorem OnTrack.future :
    ∃ future, Remains R opts (sha256Hex sha256) { j.drive with point := point } future ∧
      j.total sha256 slices = delivered ++ s.wire ++ future := by
  obtain ⟨future, hfut, htot⟩ := (h.along.remains _).mp hplan.remains
  exact ⟨future, hfut, h.along.wire ▸ htot⟩

theorem OnTrack.point_goes :
    point = .sentEnd ∨ point = .returned ∨ s.client.goesOn j.uploadId = true := by
  obtain hgoes | hall := h.goes
  · exact .inr (.inr hgoes)
  obtain ⟨future, hfut, htot⟩ := (h.along.remains _).mp hplan.remains
  rw [hall] at htot
  obtain rfl : future = [] := by simpa using htot
  exact (remains_nil hfut).imp_right .inl

theorem OnTrack.stage (hunk : Unknown j.safeId j.path s₀) (hdel : delivered ≠ []) {future : List Envelope}
    (htot : j.total sha256 slices = delivered ++ s.wire ++ future) :
    Apart j.safeId j.path s.receiver ∧
      (∃ left, Sent.Stage sha256 (j.sent sha256 slices hplan.ne_nil hplan.fits)
        (completionsOf j.safeId s₀) s.receiver ((s.wire ++ future).filterMap (requestIn j)) left) ∧
      ((s.wire ++ future).filterMap (requestIn j) ≠ [] → failuresOf j.safeId s.receiver = failuresOf j.safeId s₀) := by
  obtain ⟨env, rest, rfl⟩ := exists_cons_of_ne_nil hdel
  rw [append_assoc, cons_append, Job.total] at htot
  obtain ⟨rfl, hrest⟩ := List.cons.inj htot
  have hsize : j.contents.length < 2^31 := by
    have hbdd := hplan.bounded
    unfold kMaxUploadBytes at hbdd
    omega
  have hreqs := h.along.requests
  rw [filterMap_cons_some (requestIn_start j hsize _)] at hreqs
  have hsnds : Sends j.safeId 0 slices
      (rest.filterMap (requestIn j) ++ (s.wire ++ future).filterMap (requestIn j)) := by
    have hall := sends_chunksFrom (j := j) (Nat.zero_le _) slices
    rwa [Nat.sub_zero, take_of_length_le hplan.count, hrest, filterMap_append] at hall
  rw [h.along.receiver]
  exact stage_of_requests _ _ hunk h.along.meets hreqs ⟨hplan.nonempty, hplan.bounded⟩ hsnds

theorem OnTrack.unreported (hunk : Unknown j.safeId j.path s₀)
    (hmore : envelopesOf s.client.log ≠ j.total sha256 slices) :
    completionsOf j.safeId s.receiver = completionsOf j.safeId s₀ ∧
      failuresOf j.safeId s.receiver = failuresOf j.safeId s₀ := by
  obtain ⟨future, -, htot⟩ := h.future hplan
  by_cases hdel : delivered = []
  · have hreqs := h.along.requests
    rw [hdel] at hreqs
    obtain ⟨-, hcomps, hfls⟩ := hunk.run (h.along.meets.mono _ fun _ _ h => h.1) hreqs
    rw [h.along.receiver]
    exact ⟨hcomps, hfls⟩
  obtain ⟨-, ⟨left, hstg⟩, hfls⟩ := h.stage hplan hunk hdel htot
  -- the end of the upload is among what has not been sent
  have hfut : future ≠ [] := by
    rintro rfl
    rw [append_nil, ← h.along.wire] at htot
    exact hmore htot.symm
  have hlast : future.getLast? = some (.finish j.uploadId) := by
    have htot' := congrArg getLast? htot
    rw [Job.total, getLast?_cons, chunksFrom_getLast, getLast?_append_of_ne_nil _ hfut] at htot'
    exact htot'.symm
  have hfin : Uploads.Request.finish j.safeId ∈ (s.wire ++ future).filterMap (requestIn j) :=
    mem_filterMap.mpr ⟨.finish j.uploadId, mem_append_right _ (mem_of_getLast? hlast), requestIn_finish j⟩
  have hne := ne_nil_of_mem hfin
  obtain ⟨r, rest, hcons⟩ := exists_cons_of_ne_nil hne
  rw [hcons] at hstg
  exact ⟨hstg.completions_of_cons, hfls hne⟩

end

theorem onMessage_goesOn {c : Channel} (env : ServerEnvelope) {id : Bytes}
    (hcmp : ∀ path via, env ≠ .complete id path via) (herror : ∀ code, env ≠ .error id code) :
    (c.onMessage env).goesOn id = c.goesOn id := by
  unfold onMessage
  split
  · rfl
  cases env with
  | progress =>
    dsimp only
    split <;> rfl
  | complete id' path via =>
    have hne : id ≠ id' := fun heq => hcmp path via (by rw [heq])
    simp only [goesOn, say]
    rw [AList.lookup_erase_ne hne]
  | error id' code =>
    have hne : id ≠ id' := fun heq => herror code (by rw [heq])
    simp only [goesOn, say]
    rw [AList.lookup_erase_ne hne]

theorem not_mem_of_filter_eq {α : Type*} {P : α → Bool} {l l' : List α} {i : ℕ} {x : α} (hgrows : l <+: l')
    (hsame : l'.filter P = l.filter P) (hi : l.length ≤ i) (hget : l'[i]? = some x) : P x = false := by
  obtain ⟨new, rfl⟩ := hgrows
  have hnone : new.filter P = [] := by simpa using hsame
  rw [getElem?_append_right hi] at hget
  have hx := filter_eq_nil_iff.mp hnone x (mem_of_getElem? hget)
  exact Bool.eq_false_iff.mpr hx

section
variable (h : OnTrack R opts sha256 j slices s₀ s point es delivered) (hplan : Plan R opts j slices)
include h hplan

theorem OnTrack.answer (hunk : Unknown j.safeId j.path s₀) (hsafe : SafeIds s₀) :
    OnTrack R opts sha256 j slices s₀ (step R opts sha256 s .answer) point es delivered := by
  have halg := h.along.answer
  have hgoes : (step R opts sha256 s .answer).client.goesOn j.uploadId = true ∨
      envelopesOf (step R opts sha256 s .answer).client.log = j.total sha256 slices := by
    by_cases hall : envelopesOf s.client.log = j.total sha256 slices
    · right
      rw [← hall, halg.wire, h.along.wire]
      simp only [step]
      split <;> rfl
    left
    have hgoes := h.goes.resolve_right hall
    obtain ⟨hcomps, hfls⟩ := h.unreported hplan hunk hall
    have hgrows : s₀.log <+: s.receiver.log := h.along.receiver ▸ Uploads.run_log s₀ es
    have hids : SafeIds s.receiver := by
      rw [h.along.receiver]
      exact Runs.invariant_run _ SafeIds (fun _ e hs => step_safeIds sha256 e hs) hsafe es
    simp only [step]
    split
    · exact hgoes
    rename_i o hget
    have hcmp := not_mem_of_filter_eq hgrows hcomps h.answered hget
    have hfails := not_mem_of_filter_eq hgrows hfls h.answered hget
    -- an answer under the viewer's id is one under the receiver's
    have hid : o.uploadId = some j.uploadId → j.uploadId = j.safeId := fun hid =>
      (hids.log o (mem_of_getElem? hget) _ hid).symm
    cases o with
    | progress id received total =>
      refine (onMessage_goesOn (.progress id received total) ?_ ?_).trans hgoes
      · rintro _ _ ⟨⟩
      · rintro _ ⟨⟩
    | complete id path via =>
      refine (onMessage_goesOn (.complete id path via) ?_ ?_).trans hgoes
      · intro path' via' heq
        cases heq
        exact of_decide_eq_false hcmp (hid rfl)
      · rintro _ ⟨⟩
    | error id code =>
      refine (onMessage_goesOn (.error id code) ?_ ?_).trans hgoes
      · rintro _ _ ⟨⟩
      intro code' heq
      cases heq
      exact of_decide_eq_false hfails (hid rfl)
    | _ => exact hgoes
  refine ⟨halg, hgoes, ?_⟩
  have hansd := h.answered
  simp only [step]
  split
  · exact hansd
  · exact Nat.le_succ_of_le hansd

theorem OnTrack.of_along {s' : System} {point' : Point} {es' : List Uploads.Event}
    {delivered' : List Envelope} (halg : Along R opts sha256 j s₀ s' point' es' delivered')
    (hsent : envelopesOf s.client.log <+: envelopesOf s'.client.log)
    (hpend : s'.client.pending = s.client.pending) (hansd : s'.answered = s.answered) :
    OnTrack R opts sha256 j slices s₀ s' point' es' delivered' := by
  refine ⟨halg, ?_, hansd ▸ h.answered⟩
  obtain hgoes | hall := h.goes
  · left
    rwa [goesOn, hpend]
  right
  obtain ⟨future, -, htot⟩ := (halg.remains _).mp hplan.remains
  rw [hall] at hsent
  refine (hsent.eq_of_length_le ?_).symm
  rw [htot, length_append]
  exact Nat.le_add_right ..

theorem OnTrack.keeps {a : Action} (hunk : Unknown j.safeId j.path s₀)
    (hsafe : SafeIds s₀) (hok : Reliable j sha256 s a) :
    ∃ point' es' delivered', OnTrack R opts sha256 j slices s₀ (step R opts sha256 s a) point' es' delivered' := by
  by_cases hans : a = .answer
  · subst hans
    exact ⟨point, es, delivered, h.answer hplan hunk hsafe⟩
  obtain ⟨point', es', delivered', halg, hsent, hpend⟩ := h.along.keeps hok (h.point_goes hplan)
  refine ⟨point', es', delivered', h.of_along hplan halg hsent (hpend hans) ?_⟩
  cases a with
  | client | receiver => rfl
  | deliver =>
    simp only [step]
    split <;> rfl
  | answer => exact absurd rfl hans

end

/-! ### How they come to an end -/

/-- The drive has returned, nothing is on its way, and no task or reply of the upload is
outstanding. -/
def Settled (j : Job) (s : System) : Prop :=
  (∀ d ∈ s.client.drives, d.point = .returned) ∧ s.wire = [] ∧
    tasksOn j.path s.receiver = [] ∧ repliesTo j.safeId s.receiver = []

instance (j : Job) (s : System) : Decidable (Settled j s) :=
  inferInstanceAs (Decidable (_ ∧ _ ∧ _ ∧ _))

def Delivered (j : Job) (s₀ : Receiver) (s : System) : Prop :=
  s.receiver.fs.read j.path = some j.contents ∧
    ∃ via, completionsOf j.safeId s.receiver = completionsOf j.safeId s₀ ++ [.complete j.safeId j.path via]

variable (R opts sha256) in
/-- From every state of a reliable run the upload can come to its end without an answer, and there
it has been delivered. -/
def Works (j : Job) (bufferedAmount : ℕ) (s₀ : Receiver) : Prop :=
  ∀ as, Meets (step R opts sha256) (Reliable j sha256) (j.start R opts sha256 bufferedAmount s₀) as →
    (Settled j (run R opts sha256 (j.start R opts sha256 bufferedAmount s₀) as) →
      Delivered j s₀ (run R opts sha256 (j.start R opts sha256 bufferedAmount s₀) as)) ∧
    ∃ bs, Meets (step R opts sha256) (Reliable j sha256)
        (run R opts sha256 (j.start R opts sha256 bufferedAmount s₀) as) bs ∧
      .answer ∉ bs ∧
      Settled j (run R opts sha256 (j.start R opts sha256 bufferedAmount s₀) (as ++ bs))

section
variable (h : OnTrack R opts sha256 j slices s₀ s point es delivered)
include h

theorem OnTrack.advance (hplan : Plan R opts j slices) (hret : point ≠ .returned) {future : List Envelope}
    (hfut : Remains R opts (sha256Hex sha256) { j.drive with point := point } future) :
    ∃ point' later,
      OnTrack R opts sha256 j slices s₀
        (run R opts sha256 s [.client .bufferedAmountLow, .client (.resume 0 none false)]) point' es
        delivered ∧
      Remains R opts (sha256Hex sha256) { j.drive with point := point' } later ∧
      rank { j.drive with point := point' } later <
        rank { j.drive with point := point } future := by
  have hwire : (step R opts sha256 s (.client .bufferedAmountLow)).wire = s.wire := by
    simp [step, UploadClient.step, envelopesOf]
  have hlow : OnTrack R opts sha256 j slices s₀ (step R opts sha256 s (.client .bufferedAmountLow)) point
      es delivered :=
    ⟨h.along.congr rfl h.along.readyState rfl hwire rfl rfl, h.goes, h.answered⟩
  obtain ⟨point', halg, hpend, hsent, hrank⟩ := hlow.along.resume (hlow.point_goes hplan)
  obtain ⟨later, hlat, hlt⟩ := hrank rfl hret future hfut
  exact ⟨point', later, hlow.of_along hplan halg hsent hpend rfl, hlat, hlt⟩

theorem OnTrack.returns (hplan : Plan R opts j slices) :
    ∃ bs, Meets (step R opts sha256) (Reliable j sha256) s bs ∧ .answer ∉ bs ∧
      OnTrack R opts sha256 j slices s₀ (run R opts sha256 s bs) .returned es delivered := by
  obtain ⟨future, hfut, -⟩ := h.future hplan
  generalize hn : rank { j.drive with point := point } future = n
  induction n using Nat.strong_induction_on generalizing s point future with
  | _ n ih =>
    by_cases hret : point = .returned
    · subst hret
      exact ⟨[], trivial, nofun, h⟩
    obtain ⟨point', later, hnext, hlat, hlt⟩ := h.advance hplan hret hfut
    obtain ⟨bs, hmts, hans, hend⟩ := ih _ (hn ▸ hlt) hnext later hlat rfl
    refine ⟨[.client .bufferedAmountLow, .client (.resume 0 none false)] ++ bs, ?_, ?_, ?_⟩
    · exact (meets_append ..).mpr ⟨⟨trivial, ⟨rfl, rfl⟩, trivial⟩, hmts⟩
    · simpa using hans
    · exact hend

end

theorem isStart_chunksFrom (id : Bytes) (seq : ℕ) (slices : List Bytes) :
    ∀ env ∈ chunksFrom id seq slices, isStart env = false := by
  induction slices generalizing seq with
  | nil => exact forall_mem_singleton.mpr rfl
  | cons c cs ih => exact forall_mem_cons.mpr ⟨rfl, ih (seq+1)⟩

theorem isStart_first {slices : List Bytes} {rest : List Envelope} {env : Envelope}
    (htot : j.total sha256 slices = delivered ++ env :: rest) (hst : isStart env = true) :
    delivered = [] := by
  cases delivered with
  | nil => rfl
  | cons =>
    obtain ⟨-, hrest⟩ := List.cons.inj htot
    have hmem : env ∈ chunksFrom j.uploadId 0 slices := by
      rw [hrest]
      exact mem_append_right _ (mem_cons_self ..)
    rw [isStart_chunksFrom _ _ _ env hmem] at hst
    cases hst

theorem OnTrack.delivers (h : OnTrack R opts sha256 j slices s₀ s .returned es delivered)
    (hplan : Plan R opts j slices) :
    ∃ bs es' delivered', Meets (step R opts sha256) (Reliable j sha256) s bs ∧ .answer ∉ bs ∧
      OnTrack R opts sha256 j slices s₀ (run R opts sha256 s bs) .returned es' delivered' ∧
      (run R opts sha256 s bs).wire = [] := by
  generalize hwire : s.wire = wire
  induction wire generalizing s es delivered with
  | nil => exact ⟨[], es, delivered, trivial, nofun, h, hwire⟩
  | cons env rest ih =>
    have hok : Reliable j sha256 s .deliver := by
      intro env' henv' hst
      rw [hwire] at henv'
      obtain rfl : env = env' := Option.some.inj henv'
      obtain ⟨future, -, htot⟩ := h.future hplan
      rw [hwire, append_assoc, cons_append] at htot
      have hfst := isStart_first htot hst
      exact h.along.fits (by rw [h.along.arrived, hfst]; rfl)
    have hstep : (step R opts sha256 s .deliver).client = s.client ∧
        (step R opts sha256 s .deliver).answered = s.answered ∧
        (step R opts sha256 s .deliver).wire = rest := by
      simp only [step]
      rw [hwire]
      exact ⟨rfl, rfl, rfl⟩
    have hnext : OnTrack R opts sha256 j slices s₀ (step R opts sha256 s .deliver) .returned
        (es ++ [.message env.object]) (delivered ++ [env]) := by
      refine h.of_along hplan (h.along.deliver hwire hok) ?_ ?_ hstep.2.1 <;> rw [hstep.1]
    obtain ⟨bs, es', delivered', hmts, hans, hend, hemp⟩ := ih hnext hstep.2.2
    exact ⟨.deliver :: bs, es', delivered', ⟨hok, hmts⟩, by simpa using hans, hend, hemp⟩

theorem run_receiver (s : System) (es : List Uploads.Event) :
    run R opts sha256 s (es.map .receiver) = { s with receiver := Uploads.run sha256 s.receiver es } := by
  induction es generalizing s with
  | nil => rfl
  | cons e es ih => exact ih _

theorem meets_receiver {a : Sent} (hid : a.uploadId = j.safeId) (hpath : a.path = j.path) (harr : s.arrived ≠ 0)
    {es : List Uploads.Event} (hes : Meets (Uploads.step sha256) a.Orderly s.receiver es)
    (hnone : requestsOf j.safeId es = []) :
    Meets (step R opts sha256) (Reliable j sha256) s (es.map .receiver) := by
  have hreqs := filterMap_eq_nil_iff.mp hnone
  clear hnone
  induction es generalizing s with
  | nil => trivial
  | cons e es ih =>
    obtain ⟨⟨hcalm, hord⟩, hrest⟩ := hes
    rw [hid, hpath] at hcalm
    rw [hpath] at hord
    refine ⟨⟨hcalm, hord, hreqs e (mem_cons_self ..), fun hzero => absurd hzero harr⟩, ?_⟩
    exact ih harr hrest fun e' he' => hreqs e' (mem_cons_of_mem e he')

theorem OnTrack.settles (h : OnTrack R opts sha256 j slices s₀ s .returned es delivered)
    (hplan : Plan R opts j slices) (hunk : Unknown j.safeId j.path s₀) (hwire : s.wire = []) :
    (Settled j s → Delivered j s₀ s) ∧
    ∃ bs, Meets (step R opts sha256) (Reliable j sha256) s bs ∧ .answer ∉ bs ∧ Settled j (run R opts sha256 s bs) := by
  obtain ⟨future, hfut, htot⟩ := h.future hplan
  obtain rfl : future = [] := hfut
  have hdel : delivered ≠ [] := by
    rintro rfl
    rw [hwire] at htot
    cases htot
  obtain ⟨hap, ⟨left, hstg⟩, -⟩ := h.stage hplan hunk hdel htot
  rw [hwire, append_nil, filterMap_nil] at hstg
  constructor
  · intro hset
    obtain ⟨hread, hcomps⟩ := (hstg.settled hset.2.2).1 hplan.good
    have hcont : (j.sent sha256 slices hplan.ne_nil hplan.fits).content = j.contents := hplan.whole
    rw [hcont] at hread
    exact ⟨hread, hcomps⟩
  · obtain ⟨es', hes', hnone, hset⟩ := hstg.finishes hap
    refine ⟨es'.map .receiver, ?_, by simp, ?_⟩
    · have harr : s.arrived ≠ 0 := by
        rw [h.along.arrived]
        exact fun hzero => hdel (length_eq_zero_iff.mp hzero)
      exact meets_receiver rfl rfl harr hes' hnone
    · rw [run_receiver]
      refine ⟨?_, hwire, hset⟩
      rw [h.along.drives]
      exact forall_mem_singleton.mpr rfl

theorem start_goesOn (hsize : opts.maxTotalSize.lt (ofNat j.contents.length) = false) (bufferedAmount : ℕ) :
    (j.start R opts sha256 bufferedAmount s₀).client.goesOn j.uploadId = true := by
  rw [start_client R sha256 s₀ hsize, goesOn, AList.lookup_insert]
  rfl

theorem works_of_plan (hplan : Plan R opts j slices) (hunk : Unknown j.safeId j.path s₀) (hsafe : SafeIds s₀)
    (hfits : j.Fits s₀) (hsize : opts.maxTotalSize.lt (ofNat j.contents.length) = false) (bufferedAmount : ℕ) :
    Works R opts sha256 j bufferedAmount s₀ := by
  intro as hmts
  have hst : OnTrack R opts sha256 j slices s₀ (j.start R opts sha256 bufferedAmount s₀) .reading [] [] :=
    ⟨start_along hsize hfits bufferedAmount, .inl (start_goesOn hsize bufferedAmount), le_refl _⟩
  have htrk : ∃ point es delivered, OnTrack R opts sha256 j slices s₀
      (run R opts sha256 (j.start R opts sha256 bufferedAmount s₀) as) point es delivered :=
    Runs.invariant_run_meets _ (Reliable j sha256)
      (fun s => ∃ point es delivered, OnTrack R opts sha256 j slices s₀ s point es delivered)
      (fun _ _ hok ⟨_, _, _, h⟩ => h.keeps hplan hunk hsafe hok) ⟨_, _, _, hst⟩ hmts
  obtain ⟨point, es, delivered, h⟩ := htrk
  constructor
  · intro hset
    have hret : point = .returned := by
      refine hset.1 { j.drive with point := point } ?_
      rw [h.along.drives]
      exact mem_singleton.mpr rfl
    subst hret
    exact (h.settles hplan hunk hset.2.1).1 hset
  · obtain ⟨bs₁, hmts₁, hans₁, h₁⟩ := h.returns hplan
    obtain ⟨bs₂, es₂, delivered₂, hmts₂, hans₂, h₂, hwire⟩ := h₁.delivers hplan
    obtain ⟨-, bs₃, hmts₃, hans₃, hset⟩ := h₂.settles hplan hunk hwire
    refine ⟨bs₁ ++ (bs₂ ++ bs₃), ?_, ?_, ?_⟩
    · exact (meets_append ..).mpr ⟨hmts₁, (meets_append ..).mpr ⟨hmts₂, hmts₃⟩⟩
    · simp [hans₁, hans₂, hans₃]
    · rwa [run, run_append, run_append, run_append]

/-! ### Uploads that do not -/

theorem along_of_no_answer (h : Along R opts sha256 j s₀ s point es delivered)
    (hgoes : s.client.goesOn j.uploadId = true) {bs : List Action}
    (hbs : Meets (step R opts sha256) (Reliable j sha256) s bs) (hans : .answer ∉ bs) :
    ∃ point' es' delivered', Along R opts sha256 j s₀ (run R opts sha256 s bs) point' es' delivered' := by
  induction bs generalizing s point es delivered with
  | nil => exact ⟨point, es, delivered, h⟩
  | cons a bs ih =>
    obtain ⟨hfst, hrest⟩ := not_or.mp (mem_cons.not.mp hans)
    obtain ⟨point', es', delivered', hnext, -, hpend⟩ := h.keeps hbs.1 (.inr (.inr hgoes))
    refine ih hnext ?_ hbs.2 hrest
    rwa [goesOn, hpend (Ne.symm hfst)]

theorem completions_of_empty (hunk : Unknown j.safeId j.path s₀) (hmts : Meets (Uploads.step sha256) (Fair j) s₀ es)
    (hreqs : requestsOf j.safeId es = (j.total sha256 slices).filterMap (requestIn j))
    (hemp : j.contents.length = 0) :
    completionsOf j.safeId (Uploads.run sha256 s₀ es) = completionsOf j.safeId s₀ := by
  refine hunk.run_completions ((Runs.meets_iff ..).mpr ?_)
  rintro bs e cs rfl
  refine ⟨((Runs.meets_iff ..).mp hmts bs e cs rfl).1, fun up hup => ?_⟩
  obtain ⟨d, name, sha, declared, rfl, hread, -, hadm, -⟩ := Uploads.startedBy_eq hup
  have hreq : requestOf j.safeId (.message d) = some (.start j.safeId name sha declared) := by
    rw [requestOf, hread]
    exact if_pos (decide_eq_true rfl)
  have hmem : Uploads.Request.start j.safeId name sha declared ∈
      (j.total sha256 slices).filterMap (requestIn j) := by
    rw [← hreqs]
    exact mem_filterMap.mpr ⟨_, mem_append_right _ (mem_cons_self ..), hreq⟩
  obtain ⟨env, henv, hin⟩ := mem_filterMap.mp hmem
  obtain rfl | henv := mem_cons.mp henv
  · rw [requestIn_start j (by omega)] at hin
    cases hin
    exact absurd hadm.1 (by omega)
  have hst := isStart_of_requestIn hin
  rw [isStart_chunksFrom _ _ _ env henv] at hst
  cases hst

theorem completions_of_short (hunk : Unknown j.safeId j.path s₀) (hmts : Meets (Uploads.step sha256) (Fair j) s₀ es)
    (hreqs : requestsOf j.safeId es = (j.total sha256 slices).filterMap (requestIn j))
    (hsize : 0 < j.contents.length ∧ (j.contents.length : ℤ) ≤ kMaxUploadBytes) (hne : slices.take (2^31) ≠ [])
    (hshr : (slices.take (2^31)).flatten.length < j.contents.length)
    (hset : tasksOn j.path (Uploads.run sha256 s₀ es) = [] ∧ repliesTo j.safeId (Uploads.run sha256 s₀ es) = []) :
    completionsOf j.safeId (Uploads.run sha256 s₀ es) = completionsOf j.safeId s₀ := by
  have hbd : j.contents.length < 2^31 := by
    have hmax := hsize.2
    unfold kMaxUploadBytes at hmax
    omega
  rw [Job.total, filterMap_cons_some (requestIn_start j hbd _)] at hreqs
  have hsnds : Sends j.safeId 0 (slices.take (2^31))
      ((chunksFrom j.uploadId 0 slices).filterMap (requestIn j) ++ []) := by
    rw [append_nil]
    exact sends_chunksFrom (Nat.zero_le _) slices
  obtain ⟨-, ⟨left, hstg⟩, -⟩ := stage_of_requests hne hshr.le hunk hmts hreqs hsize hsnds
  refine (hstg.settled hset).2 fun hgood => ?_
  have hlen : ((slices.take (2^31)).flatten.length : ℤ) = j.contents.length := hgood.1
  omega

theorem reaches_of_works {bufferedAmount : ℕ} (hworks : Works R opts sha256 j bufferedAmount s₀)
    (hacc : opts.accepted = true) (hunk : Unknown j.safeId j.path s₀)
    (hfits : j.Fits s₀) (hsize : opts.maxTotalSize.lt (ofNat j.contents.length) = false)
    (hbdd : (j.contents.length : ℤ) ≤ kMaxUploadBytes) :
    0 < j.contents.length ∧ ∃ q, opts.chunkSize = .finite q ∧ 0 < q ∧
      Reaches R (.finite q) j.contents.length (2^31) := by
  obtain ⟨-, bs, hbs, hans, hset⟩ := hworks [] trivial
  obtain ⟨-, via, hdel⟩ := (hworks bs hbs).1 hset
  obtain ⟨point, es, delivered, h⟩ := along_of_no_answer (start_along hsize hfits bufferedAmount)
    (start_goesOn hsize bufferedAmount) hbs hans
  rw [nil_append] at hset
  obtain ⟨hret, hwire, hidle⟩ := hset
  have hpt : point = .returned := by
    refine hret { j.drive with point := point } ?_
    rw [h.drives]
    exact mem_singleton.mpr rfl
  subst hpt
  obtain ⟨later, ⟨slices, hloop, rfl⟩, hall⟩ := (h.remains _).mpr ⟨[], rfl, rfl⟩
  have hreqs := h.requests
  have hsent := h.wire
  rw [append_nil] at hall
  rw [hwire, append_nil, hall] at hsent
  rw [← hsent] at hreqs
  rw [h.receiver] at hdel hidle
  -- an upload that was delivered has one completion more
  have hmore : completionsOf j.safeId (Uploads.run sha256 s₀ es) ≠
      completionsOf j.safeId s₀ := by
    rw [hdel]
    simp
  have hposit : 0 < j.contents.length := by
    by_contra hzero
    exact hmore (completions_of_empty hunk h.meets hreqs (by omega))
  refine ⟨hposit, ?_⟩
  have hlong : slices.take (2^31) ≠ [] → ¬ (slices.take (2^31)).flatten.length < j.contents.length :=
    fun hne hshr =>
      hmore (completions_of_short hunk h.meets hreqs ⟨hposit, hbdd⟩ hne hshr hidle)
  have hzero : (Number.finite 0).Nonpos := le_refl (0 : ℚ)
  have hnp : ¬ opts.chunkSize.Nonpos := fun hnp =>
    not_loop_of_nonpos hnp hposit hzero hloop
  cases hchk : opts.chunkSize with
  | nan =>
    rw [hchk] at hloop
    obtain rfl := hloop.eq_of_nan hposit
    exact absurd hposit (hlong (by simp))
  | infinite negative =>
    cases negative with
    | true =>
      rw [hchk] at hnp
      exact absurd rfl hnp
    | false =>
      rw [Options.accepted, hchk] at hacc
      cases hacc
  | finite q =>
    rw [hchk] at hnp hloop
    have hq : 0 < q := not_le.mp hnp
    refine ⟨q, rfl, hq, (exists_loop_iff _).mpr ⟨slices, hloop, ?_⟩⟩
    by_contra hcnt
    rw [not_le] at hcnt
    have hwh : slices.flatten = j.contents := by
      rw [hloop.flatten hq R.zero_mem le_rfl]
      rfl
    have hrest := hloop.drop_flatten_ne_nil hq R.zero_mem le_rfl hcnt
    have hlen : (slices.take (2^31)).flatten.length + (slices.drop (2^31)).flatten.length = j.contents.length := by
      rw [← hwh, ← length_append, ← flatten_append, take_append_drop]
    have hpos := length_pos_iff.mpr hrest
    refine hlong ?_ (by omega)
    intro hnil
    have htake := congrArg length hnil
    rw [length_take, length_nil] at htake
    omega

variable (R opts sha256) in
/-- An upload works just when the file is not empty and the chunk size is a positive number by
which the loop gets to the end within as many chunks as there are numbers for. -/
theorem upload_works_iff (j : Job) (bufferedAmount : ℕ) (fs : Files.Store Bytes UInt8) (es₀ : List Uploads.Event)
    (haccepted : opts.accepted = true) {m : ℚ} (hmax : opts.maxTotalSize = .finite m) (hm : m ≤ kMaxUploadBytes)
    (hsize : (j.contents.length : ℚ) ≤ m) (hunknown : Unknown j.safeId j.path (Uploads.run sha256 { fs := fs } es₀))
    (hfits : j.Fits (Uploads.run sha256 { fs := fs } es₀)) :
    Works R opts sha256 j bufferedAmount (Uploads.run sha256 { fs := fs } es₀) ↔
      0 < j.contents.length ∧ ∃ q, opts.chunkSize = .finite q ∧ 0 < q ∧
        Reaches R (.finite q) j.contents.length (2^31) := by
  have hlt : opts.maxTotalSize.lt (ofNat j.contents.length) = false := by
    rw [hmax]
    exact decide_eq_false (not_lt.mpr hsize)
  have hbounded : (j.contents.length : ℤ) ≤ kMaxUploadBytes := by
    have hle : (j.contents.length : ℚ) ≤ kMaxUploadBytes := le_trans hsize hm
    exact_mod_cast hle
  constructor
  · exact fun hworks => reaches_of_works hworks haccepted hunknown hfits hlt hbounded
  rintro ⟨hpositive, q, hchunk, hq, hreaches⟩
  obtain ⟨slices, hloop, hcount⟩ := (exists_loop_iff _).mp hreaches
  have hwhole : slices.flatten = j.contents := by
    rw [hloop.flatten hq R.zero_mem le_rfl]
    rfl
  have hsafe : SafeIds (Uploads.run sha256 { fs := fs } es₀) :=
    Runs.invariant_run _ SafeIds (fun _ e hs => step_safeIds sha256 e hs) SafeIds.empty es₀
  exact works_of_plan ⟨hchunk ▸ hloop, hcount, hwhole, hpositive, hbounded⟩ hunknown hsafe hfits hlt bufferedAmount

end

def oneFile (contents : Bytes) : Job := ⟨ascii "a", ⟨ascii "f", [], contents⟩, none, false, false⟩

def tenBytes (chunkSize : Number) : Options := ⟨chunkSize, .infinite false, .finite 10⟩

theorem upload_works_two_bytes :
    Works (.exact 1000) (tenBytes (.finite 1)) (fun _ => replicate 32 0) (oneFile [1, 2]) 0
      (Uploads.run (fun _ => replicate 32 0) { fs := .empty } []) :=
  (upload_works_iff (.exact 1000) (tenBytes (.finite 1)) (fun _ => replicate 32 0) (oneFile [1, 2])
    0 .empty [] (by decide +kernel) rfl (by decide +kernel) (by decide +kernel) .empty
    (by decide +kernel)).mpr ⟨by decide, 1, rfl, by decide +kernel, 2, by decide, by decide +kernel⟩

/-- The drive runs to its end and sends `n` envelopes, which are delivered. -/
def sentRun (n : ℕ) : List Action :=
  List.replicate (n+4) (.client (.resume 0 none false)) ++ List.replicate n .deliver

def rejectRun : List Action :=
  ([.task 0 0 true, .task 0 0 true, .reply 0, .task 0 0 true, .task 0 0 true, .reply 0,
    .task 0 0 true] : List Uploads.Event).map .receiver

theorem empty_file_and_nan_chunk_size :
    (Meets (step (.exact 1000) (tenBytes (.finite 1)) fun _ => replicate 32 0)
        (Reliable (oneFile []) fun _ => replicate 32 0)
        ((oneFile []).start (.exact 1000) (tenBytes (.finite 1)) (fun _ => replicate 32 0) 0
          { fs := .empty }) (sentRun 2) ∧
      Settled (oneFile []) (run (.exact 1000) (tenBytes (.finite 1)) (fun _ => replicate 32 0)
        ((oneFile []).start (.exact 1000) (tenBytes (.finite 1)) (fun _ => replicate 32 0) 0
          { fs := .empty }) (sentRun 2)) ∧
      (run (.exact 1000) (tenBytes (.finite 1)) (fun _ => replicate 32 0)
        ((oneFile []).start (.exact 1000) (tenBytes (.finite 1)) (fun _ => replicate 32 0) 0
          { fs := .empty }) (sentRun 2)).receiver.log =
        [.error (ascii "a") (ascii "too_large") (ascii "file is 0 bytes; the limit is 104857600")]) ∧
    (tenBytes .nan).accepted = true ∧
      Meets (step (.exact 1000) (tenBytes .nan) fun _ => replicate 32 0)
        (Reliable (oneFile [1, 2]) fun _ => replicate 32 0)
        ((oneFile [1, 2]).start (.exact 1000) (tenBytes .nan) (fun _ => replicate 32 0) 0
          { fs := .empty }) (sentRun 3 ++ rejectRun) ∧
      Settled (oneFile [1, 2]) (run (.exact 1000) (tenBytes .nan) (fun _ => replicate 32 0)
        ((oneFile [1, 2]).start (.exact 1000) (tenBytes .nan) (fun _ => replicate 32 0) 0
          { fs := .empty }) (sentRun 3 ++ rejectRun)) ∧
      (run (.exact 1000) (tenBytes .nan) (fun _ => replicate 32 0)
        ((oneFile [1, 2]).start (.exact 1000) (tenBytes .nan) (fun _ => replicate 32 0) 0
          { fs := .empty }) (sentRun 3 ++ rejectRun)).receiver.log =
        [.progress (ascii "a") 0 2, .error (ascii "a") (ascii "truncated") (ascii "expected 2 bytes, have 0")] := by
  decide +kernel

end Chromeless.UploadSystem
