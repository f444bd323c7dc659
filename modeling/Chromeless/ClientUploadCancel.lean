import Chromeless.ClientUpload

/-! What the viewer's channel sends for an upload that was cancelled. -/
namespace Chromeless.UploadClient
open Json Uploads List Drive Channel AList Number Runs

section
variable (R : Rounding) (opts : Options) (hash : Bytes → Bytes)

/-- The drive looks whether the upload goes on before it sends again, if it does. -/
def Drive.checks (d : Drive) : Bool :=
  match d.point with
  | .sentStart => (finite 0).lt (ofNat d.contents.length)
  | .waiting _ _ _ => false
  | .sentChunk off _ _ | .reporting off _ _ => (off.add R opts.chunkSize).lt (ofNat d.contents.length)
  | _ => true

/-- An upload is cancelled where its drive looks before it sends, and no id is used twice. -/
def Checked (s : Channel) : Event → Prop
  | .cancel id _ => id ∈ s.pending → ∀ d ∈ s.drives, d.uploadId = id → d.checks R opts = true
  | .uploadFile id _ _ _ _ => ∀ d ∈ s.drives, d.uploadId ≠ id
  | _ => True

instance (s : Channel) : ∀ e, Decidable (Checked R opts s e)
  | .cancel _ _ => inferInstanceAs (Decidable (_ → ∀ _ ∈ _, _ → _))
  | .uploadFile _ _ _ _ _ => inferInstanceAs (Decidable (∀ _ ∈ _, _))
  | .resume _ _ _ | .message _ | .bufferedAmountLow | .channel _ _ => inferInstanceAs (Decidable True)

structure Acts (s : Channel) (i : ℕ) (d : Drive) (point : Point) (outs : List Output) (s' : Channel) :
    Prop where
  drives : s'.drives = s.drives.set i { d with point := point }
  log : s'.log = s.log ++ outs
  pending : s'.pending = s.pending ∨ s'.pending = s.pending.erase d.uploadId
  about : ∀ env, .sends env ∈ outs → env.uploadId = d.uploadId

variable {R opts hash} {s : Channel} {i : ℕ} {d : Drive}

section
variable (s : Channel)

theorem goTo_acts (i : ℕ) (d : Drive) (point : Point) :
    Acts s i d point [] (s.goTo i d point) :=
  ⟨rfl, (append_nil _).symm, .inl rfl, nofun⟩

theorem fail_acts (i : ℕ) (d : Drive) (code : Bytes) :
    ∃ outs, Acts s i d .returned outs (s.fail i d code) ∧ ∀ env, .sends env ∉ outs := by
  unfold fail
  split
  · exact ⟨[], goTo_acts s i d .returned, nofun⟩
  · exact ⟨[.rejects d.uploadId code], ⟨rfl, rfl, .inr rfl, by simp⟩, by simp⟩

theorem sendThen_acts (i : ℕ) (d : Drive) (throws : Bool) {env : Envelope}
    (henv : env.uploadId = d.uploadId) (point : Point) :
    ∃ point' outs, Acts s i d point' outs (s.sendThen i d env throws point) := by
  unfold sendThen
  split
  · exact ⟨_, [], goTo_acts s i d _⟩
  refine ⟨point, [.sends env], rfl, rfl, .inl rfl, ?_⟩
  intro env' hmem
  obtain rfl : env' = env := by simpa using hmem
  exact henv

theorem loopHead_acts (opts : Options) (i : ℕ) (d : Drive) (off : Number) (seq sent : ℕ) (throws : Bool) :
    ∃ point outs, Acts s i d point outs (s.loopHead opts i d off seq sent throws) ∧
      (off.lt (ofNat d.contents.length) = true → s.goesOn d.uploadId = false → point = .returned ∧ outs = []) := by
  unfold loopHead
  split
  · split
    next hgoes =>
      have hacts : Acts s i d (.waiting off seq sent) [] (s.goTo i d (.waiting off seq sent)) := goTo_acts s i d _
      refine ⟨.waiting off seq sent, [], ?_, fun _ hno => ?_⟩
      · dsimp only
        split
        · exact hacts
        · exact ⟨hacts.drives, hacts.log, hacts.pending, hacts.about⟩
      · rw [hgoes] at hno
        cases hno
    · exact ⟨.returned, [], goTo_acts s i d _, fun _ _ => ⟨rfl, rfl⟩⟩
  next hover =>
    have hfin : (Envelope.finish d.uploadId).uploadId = d.uploadId := rfl
    obtain ⟨point, outs, hacts⟩ := sendThen_acts s i d throws hfin .sentEnd
    exact ⟨point, outs, hacts, fun hlt => absurd hlt hover⟩

end

/-- A step to `s'`, which sends nothing if the upload is over and a check comes next. -/
def Resumed (R : Rounding) (opts : Options) (s : Channel) (i : ℕ) (d : Drive) (s' : Channel) : Prop :=
  ∃ point outs, Acts s i d point outs s' ∧ (s.goesOn d.uploadId = false → d.checks R opts = true →
    (∀ env, .sends env ∉ outs) ∧ Drive.checks R opts { d with point := point } = true)

theorem resume_acts (R : Rounding) (opts : Options) (hash : Bytes → Bytes)
    (hget : s.drives[i]? = some d) (failed : Option Bytes) (throws : Bool) :
    Resumed R opts s i d (s.resume R opts hash i d failed throws) := by
  have hstay : Acts s i d d.point [] s := by
    refine ⟨?_, (append_nil _).symm, .inl rfl, nofun⟩
    obtain ⟨hi, rfl⟩ := List.getElem?_eq_some_iff.mp hget
    exact (set_getElem_self hi).symm
  have hfail (code) : Resumed R opts s i d (s.fail i d code) := by
    obtain ⟨outs, hacts, hsnds⟩ := fail_acts s i d code
    exact ⟨.returned, outs, hacts, fun _ _ => ⟨hsnds, rfl⟩⟩
  -- where the head of the loop comes next, the check is that the loop is not over
  have hhead (off seq sent)
      (hchk : d.checks R opts = true → off.lt (ofNat d.contents.length) = true) :
      Resumed R opts s i d (s.loopHead opts i d off seq sent throws) := by
    obtain ⟨point, outs, hacts, hqt⟩ := loopHead_acts s opts i d off seq sent throws
    refine ⟨point, outs, hacts, fun hno hyes => ?_⟩
    obtain ⟨rfl, rfl⟩ := hqt (hchk hyes) hno
    exact ⟨nofun, rfl⟩
  unfold Channel.resume
  cases hpt : d.point with
  | reading =>
    cases failed with
    | some code => exact hfail code
    | none => exact ⟨.hashing, [], goTo_acts s i d _, fun _ _ => ⟨nofun, rfl⟩⟩
  | hashing =>
    cases failed with
    | some code => exact hfail code
    | none =>
      dsimp only
      split
      next hgoes =>
        have hst : (d.start hash).uploadId = d.uploadId := rfl
        obtain ⟨point, outs, hacts⟩ := sendThen_acts s i d throws hst .sentStart
        refine ⟨point, outs, hacts, fun hno => ?_⟩
        rw [hgoes] at hno
        cases hno
      · exact ⟨.returned, [], goTo_acts s i d _, fun _ _ => ⟨nofun, rfl⟩⟩
  | sentStart => exact hhead _ 0 0 fun hchk => by simpa [Drive.checks, hpt] using hchk
  | waiting off seq sent =>
    have hunch : d.checks R opts = false := by simp [Drive.checks, hpt]
    dsimp only
    split
    · refine ⟨d.point, [], hstay, fun _ hchk => ?_⟩
      rw [hunch] at hchk
      cases hchk
    have hchunk : (d.chunk R opts off seq).uploadId = d.uploadId := rfl
    obtain ⟨point, outs, hacts⟩ := sendThen_acts s i d throws hchunk (.sentChunk off seq sent)
    refine ⟨point, outs, hacts, fun _ hchk => ?_⟩
    rw [hunch] at hchk
    cases hchk
  | sentChunk off seq sent =>
    have hchk : d.checks R opts = (off.add R opts.chunkSize).lt (ofNat d.contents.length) := by
      simp [Drive.checks, hpt]
    dsimp only
    split
    · refine ⟨.reporting off (seq+1) (sent + (d.slice R opts off).length),
        [.progress d.uploadId (sent + (d.slice R opts off).length) d.contents.length],
        ⟨rfl, rfl, .inl rfl, by simp⟩, fun _ hyes => ⟨by simp, ?_⟩⟩
      rwa [hchk] at hyes
    · exact hhead _ _ _ fun hyes => hchk ▸ hyes
  | reporting =>
    cases failed with
    | some code => exact hfail code
    | none => exact hhead _ _ _ fun hyes => by simpa [Drive.checks, hpt] using hyes
  | sentEnd => exact ⟨.returned, [], goTo_acts s i d _, fun _ _ => ⟨nofun, rfl⟩⟩
  | failing code => exact hfail code
  | returned => refine ⟨d.point, [], hstay, fun _ hchk => ⟨nofun, hchk⟩⟩

/-! ### Runs -/

def Driven (s : Channel) : Prop := ∀ id ∈ s.pending, id ∈ s.drives.map uploadId

structure Quiet (R : Rounding) (opts : Options) (id : Bytes) (s : Channel) : Prop where
  used : id ∈ s.drives.map uploadId
  ended : id ∉ s.pending
  checks : ∀ d ∈ s.drives, d.uploadId = id → d.checks R opts = true

theorem Quiet.keeps {id : Bytes} {s' : Channel} (h : Quiet R opts id s) (hdrv : s'.drives = s.drives)
    (hpend : ∀ id ∈ s'.pending, id ∈ s.pending) : Quiet R opts id s' :=
  ⟨hdrv ▸ h.used, fun hid => h.ended (hpend id hid), hdrv ▸ h.checks⟩

theorem goesOn_eq_false {id : Bytes} (h : id ∉ s.pending) : s.goesOn id = false := by
  rw [goesOn, lookup_eq_none.mpr h]
  rfl

section
variable {point : Point} {outs : List Output} {s' : Channel} {id : Bytes}
variable (h : Acts s i d point outs s')
include h

theorem Acts.uploadIds (hget : s.drives[i]? = some d) :
    s'.drives.map uploadId = s.drives.map uploadId := by
  obtain ⟨hi, rfl⟩ := List.getElem?_eq_some_iff.mp hget
  rw [h.drives, map_set]
  refine ext_getElem (by simp) fun j _ _ => ?_
  by_cases hij : i = j
  · subst hij
    simp
  · simp [hij]

theorem Acts.mem_pending (hid : id ∈ s'.pending) : id ∈ s.pending := by
  obtain heq | heq := h.pending
  · exact heq ▸ hid
  · rw [heq] at hid
    exact (mem_erase.mp hid).2

theorem Acts.driven (hget : s.drives[i]? = some d) (hs : Driven s) :
    Driven s' := by
  intro id hid
  rw [h.uploadIds hget]
  exact hs id (h.mem_pending hid)

theorem Acts.quiet (hget : s.drives[i]? = some d) (hs : Quiet R opts id s)
    (hpt : d.uploadId = id → Drive.checks R opts { d with point := point } = true) :
    Quiet R opts id s' := by
  refine ⟨(h.uploadIds hget).symm ▸ hs.used, fun hid => hs.ended (h.mem_pending hid), ?_⟩
  intro d' hd' hid
  rw [h.drives] at hd'
  obtain hd' | rfl := mem_or_eq_of_mem_set hd'
  · exact hs.checks d' hd' hid
  · exact hpt hid

end

theorem settle_driven {s' : Channel} (hdrv : s'.drives = s.drives)
    (hpend : ∀ id ∈ s'.pending, id ∈ s.pending) (hs : Driven s) : Driven s' :=
  fun id hid => hdrv ▸ hs id (hpend id hid)

theorem cancel_keeps (s : Channel) (id : Bytes) (throws : Bool) :
    (s.cancel id throws).drives = s.drives ∧ id ∉ (s.cancel id throws).pending ∧
      (∀ id' ∈ (s.cancel id throws).pending, id' ∈ s.pending) ∧
      ∃ outs, (s.cancel id throws).log = s.log ++ outs ∧
        ∀ env, .sends env ∈ outs → env.uploadId = id ∧ id ∈ s.pending := by
  unfold Channel.cancel
  cases hlook : s.pending.lookup id with
  | none => exact ⟨rfl, lookup_eq_none.mp hlook, fun _ h => h, [], (append_nil _).symm, nofun⟩
  | some =>
    have hmem : id ∈ s.pending := lookup_isSome.mp (by rw [hlook]; rfl)
    dsimp only
    split
    · refine ⟨rfl, fun h => (mem_erase.mp h).1 rfl, fun _ h => (mem_erase.mp h).2,
        [.sends (.cancel id), .rejects id (ascii "cancelled")], append_assoc _ _ _, ?_⟩
      intro env henv
      obtain rfl : env = .cancel id := by simpa using henv
      exact ⟨rfl, hmem⟩
    · exact ⟨rfl, fun h => (mem_erase.mp h).1 rfl, fun _ h => (mem_erase.mp h).2,
        [.rejects id (ascii "cancelled")], rfl, by simp⟩

theorem onMessage_keeps (s : Channel) (env : ServerEnvelope) :
    (s.onMessage env).drives = s.drives ∧
      (∀ id ∈ (s.onMessage env).pending, id ∈ s.pending) ∧
      ∃ outs, (s.onMessage env).log = s.log ++ outs ∧ ∀ env, .sends env ∉ outs := by
  unfold onMessage
  split
  · exact ⟨rfl, fun _ h => h, [], (append_nil _).symm, nofun⟩
  cases env with
  | progress =>
    dsimp only
    split
    · exact ⟨rfl, fun _ h => h, [_], rfl, by simp⟩
    · exact ⟨rfl, fun _ h => h, [], (append_nil _).symm, nofun⟩
  | complete | error => exact ⟨rfl, fun _ h => (mem_erase.mp h).2, [_], rfl, by simp⟩

theorem step_driven (e : Event) (hs : Driven s) : Driven (step R opts hash s e) := by
  cases e with
  | uploadFile =>
    rw [step, Channel.uploadFile]
    split
    · exact hs
    intro id' hid'
    rw [map_append]
    obtain rfl | hold := (mem_insert _).mp hid'
    · exact mem_append_right _ (mem_singleton.mpr rfl)
    · exact mem_append_left _ (hs id' hold)
  | cancel id throws =>
    obtain ⟨hdrv, -, hpend, -⟩ := cancel_keeps s id throws
    exact settle_driven hdrv hpend hs
  | resume i failed throws =>
    rw [step]
    cases hget : s.drives[i]? with
    | none => exact hs
    | some =>
      obtain ⟨point, outs, hacts, -⟩ := resume_acts R opts hash hget failed throws
      exact hacts.driven hget hs
  | message env =>
    obtain ⟨hdrv, hpend, -⟩ := onMessage_keeps s env
    exact settle_driven hdrv hpend hs
  | bufferedAmountLow | channel => exact hs

variable (hash) in
theorem step_quiet {id : Bytes} {e : Event} (hchec : Checked R opts s e) (hs : Quiet R opts id s) :
    Quiet R opts id (step R opts hash s e) ∧
      ∃ outs, (step R opts hash s e).log = s.log ++ outs ∧ ∀ env, .sends env ∈ outs → env.uploadId ≠ id := by
  cases e with
  | uploadFile id' =>
    rw [step, Channel.uploadFile]
    split
    · exact ⟨⟨hs.used, hs.ended, hs.checks⟩, [_], rfl, by simp⟩
    have hne : id ≠ id' := by
      rintro rfl
      obtain ⟨d, hd, hid⟩ := mem_map.mp hs.used
      exact hchec d hd hid
    refine ⟨⟨?_, ?_, ?_⟩, [], (append_nil _).symm, nofun⟩
    · rw [map_append]
      exact mem_append_left _ hs.used
    · intro hid
      exact hs.ended (((mem_insert _).mp hid).resolve_left hne)
    · intro d hd hid
      obtain hd | rfl := mem_append.mp hd |>.imp_right mem_singleton.mp
      · exact hs.checks d hd hid
      · exact absurd hid.symm hne
  | cancel id' throws =>
    obtain ⟨hdrv, -, hpend, outs, hlog, hsnds⟩ := cancel_keeps s id' throws
    refine ⟨hs.keeps hdrv hpend, outs, hlog, ?_⟩
    -- only an upload that is pending is cancelled
    intro env henv hid
    obtain ⟨hid', hmem⟩ := hsnds env henv
    exact hs.ended (hid ▸ hid' ▸ hmem)
  | resume i failed throws =>
    rw [step]
    cases hget : s.drives[i]? with
    | none => exact ⟨hs, [], (append_nil _).symm, nofun⟩
    | some d =>
      obtain ⟨point, outs, hacts, hqt⟩ := resume_acts R opts hash hget failed throws
      have hown : d.uploadId = id → (∀ env, .sends env ∉ outs) ∧
          Drive.checks R opts { d with point := point } = true := by
        rintro rfl
        exact hqt (goesOn_eq_false hs.ended) (hs.checks d (mem_of_getElem? hget) rfl)
      refine ⟨hacts.quiet hget hs fun hid => (hown hid).2, outs, hacts.log, ?_⟩
      intro env henv hid
      exact (hown ((hacts.about env henv).symm.trans hid)).1 env henv
  | message env =>
    obtain ⟨hdrv, hpend, outs, hlog, hsnds⟩ := onMessage_keeps s env
    exact ⟨hs.keeps hdrv hpend, outs, hlog, fun env henv => absurd henv (hsnds env)⟩
  | bufferedAmountLow | channel => exact ⟨hs.keeps rfl fun _ h => h, [], (append_nil _).symm, nofun⟩

theorem run_quiet {id : Bytes} (es : List Event) (hs : Quiet R opts id s)
    (hes : Meets (step R opts hash) (Checked R opts) s es) :
    ∃ outs, (run R opts hash s es).log = s.log ++ outs ∧ ∀ env, .sends env ∈ outs → env.uploadId ≠ id := by
  induction es generalizing s with
  | nil => exact ⟨[], (append_nil _).symm, nofun⟩
  | cons e es ih =>
    obtain ⟨hnext, outs, hlog, hsnds⟩ := step_quiet hash hes.1 hs
    obtain ⟨outs', hlog', hsnds'⟩ := ih hnext hes.2
    refine ⟨outs ++ outs', by rw [← append_assoc, ← hlog]; exact hlog', ?_⟩
    intro env henv
    exact (mem_append.mp henv).elim (hsnds env) (hsnds' env)

variable (R opts hash) in
/-- If uploads are cancelled only where their drives look before they send, nothing is sent for an
upload after it was cancelled. -/
theorem nothing_sent_after_cancel (readyState : ReadyState) (bufferedAmount : ℕ) (id : Bytes)
    (throws : Bool) (es es' : List Event)
    (hes : Meets (step R opts hash) (Checked R opts) ⟨readyState, bufferedAmount, ∅, [], [], []⟩
      (es ++ .cancel id throws :: es'))
    (hpending : id ∈ (run R opts hash ⟨readyState, bufferedAmount, ∅, [], [], []⟩ es).pending) :
    ∀ env, .sends env ∈
        (run R opts hash ⟨readyState, bufferedAmount, ∅, [], [], []⟩ (es ++ .cancel id throws :: es')).log.drop
          (run R opts hash ⟨readyState, bufferedAmount, ∅, [], [], []⟩ (es ++ [.cancel id throws])).log.length →
      env.uploadId ≠ id := by
  rw [meets_append] at hes
  have hrun : ∀ es', run R opts hash ⟨readyState, bufferedAmount, ∅, [], [], []⟩
      (es ++ .cancel id throws :: es') =
      run R opts hash ((run R opts hash ⟨readyState, bufferedAmount, ∅, [], [], []⟩ es).cancel id throws)
        es' := fun es' => run_append ..
  rw [hrun es', hrun []]
  have hdriven : Driven (run R opts hash ⟨readyState, bufferedAmount, ∅, [], [], []⟩ es) :=
    invariant_run _ Driven (fun s e => step_driven e) (fun id hid => absurd hid (notMem_empty id)) es
  obtain ⟨-, hcancel, hlater⟩ := hes
  change Checked R opts (run R opts hash ⟨readyState, bufferedAmount, ∅, [], [], []⟩ es) _ at hcancel
  change Meets _ _ ((run R opts hash ⟨readyState, bufferedAmount, ∅, [], [], []⟩ es).cancel id throws) _ at hlater
  generalize run R opts hash ⟨readyState, bufferedAmount, ∅, [], [], []⟩ es = s at *
  obtain ⟨hdrives, hended, -⟩ := cancel_keeps s id throws
  have hquiet : Quiet R opts id (s.cancel id throws) := by
    refine ⟨hdrives ▸ hdriven id hpending, hended, ?_⟩
    rw [hdrives]
    exact hcancel hpending
  obtain ⟨outs, hlog, hsends⟩ := run_quiet es' hquiet hlater
  intro env henv
  refine hsends env ?_
  have hdrop : (run R opts hash (s.cancel id throws) es').log.drop (s.cancel id throws).log.length =
      outs := by rw [hlog, drop_left]
  exact hdrop ▸ henv

end

def oneByteChunks : Options := ⟨.finite 1, .infinite false, .finite 10⟩

def startedRun (contents : Bytes) : List Event :=
  [.uploadFile (ascii "a") ⟨ascii "f", [], contents⟩ none false false, .resume 0 none false,
    .resume 0 none false, .resume 0 none false]

theorem nothing_sent_after_cancel_two_bytes :
    (Meets (step (.exact 1000) oneByteChunks fun _ => []) (Checked (.exact 1000) oneByteChunks)
      ⟨.open, 0, ∅, [], [], []⟩
      (startedRun [1, 2] ++ [.resume 0 none false] ++ [.cancel (ascii "a") false, .resume 0 none false]) ∧
    ascii "a" ∈ (run (.exact 1000) oneByteChunks (fun _ => []) ⟨.open, 0, ∅, [], [], []⟩
      (startedRun [1, 2] ++ [.resume 0 none false])).pending) ∧
    ∀ env, .sends env ∈
        (run (.exact 1000) oneByteChunks (fun _ => []) ⟨.open, 0, ∅, [], [], []⟩
          (startedRun [1, 2] ++ [.resume 0 none false] ++ [.cancel (ascii "a") false, .resume 0 none false])).log.drop
          (run (.exact 1000) oneByteChunks (fun _ => []) ⟨.open, 0, ∅, [], [], []⟩
            (startedRun [1, 2] ++ [.resume 0 none false] ++ [.cancel (ascii "a") false])).log.length →
      env.uploadId ≠ ascii "a" := by
  have hes : Meets (step (.exact 1000) oneByteChunks fun _ => [])
      (Checked (.exact 1000) oneByteChunks) ⟨.open, 0, ∅, [], [], []⟩
      (startedRun [1, 2] ++ [.resume 0 none false] ++ [.cancel (ascii "a") false, .resume 0 none false]) := by
    decide +kernel
  have hpending : ascii "a" ∈ (run (.exact 1000) oneByteChunks (fun _ => []) ⟨.open, 0, ∅, [], [], []⟩
      (startedRun [1, 2] ++ [.resume 0 none false])).pending := by
    decide +kernel
  exact ⟨⟨hes, hpending⟩, nothing_sent_after_cancel (.exact 1000) oneByteChunks (fun _ => []) .open 0
    (ascii "a") false _ _ hes hpending⟩

theorem sent_after_cancel :
    (ascii "a" ∈ (run (.exact 1000) oneByteChunks (fun _ => []) ⟨.open, 0, ∅, [], [], []⟩
        (startedRun [1])).pending ∧
      (run (.exact 1000) oneByteChunks (fun _ => []) ⟨.open, 0, ∅, [], [], []⟩
          (startedRun [1] ++ [.cancel (ascii "a") false, .resume 0 none false])).log.drop
        (run (.exact 1000) oneByteChunks (fun _ => []) ⟨.open, 0, ∅, [], [], []⟩
          (startedRun [1] ++ [.cancel (ascii "a") false])).log.length =
        [.sends (.chunk (ascii "a") 0 (ascii "AQ=="))]) ∧
    ascii "a" ∈ (run (.exact 1000) oneByteChunks (fun _ => []) ⟨.open, 0, ∅, [], [], []⟩
        (startedRun [1] ++ [.resume 0 none false])).pending ∧
      (run (.exact 1000) oneByteChunks (fun _ => []) ⟨.open, 0, ∅, [], [], []⟩
          (startedRun [1] ++ [.resume 0 none false, .cancel (ascii "a") false, .resume 0 none false])).log.drop
        (run (.exact 1000) oneByteChunks (fun _ => []) ⟨.open, 0, ∅, [], [], []⟩
          (startedRun [1] ++ [.resume 0 none false, .cancel (ascii "a") false])).log.length =
        [.sends (.finish (ascii "a"))] := by
  decide +kernel

end Chromeless.UploadClient
