import Chromeless.ClientUpload

/-! The loop of `driveUpload` over the chunks of a file: when it ends, and what it sends. -/
namespace Chromeless.UploadClient
open Json Uploads List Number Channel
open Number (ofNat min finite subarray Rounding)

def Reaches (R : Rounding) (chunkSize : Number) (length n : ℕ) : Prop :=
  ∃ k ≤ n, ((fun off : Number => off.add R chunkSize)^[k] (.finite 0)).lt (ofNat length) = false

section
variable (R : Rounding) (chunkSize : Number)

/-- The slices that are sent from an offset on, when the loop comes to an end. -/
inductive Loop (contents : Bytes) : Number → List Bytes → Prop
  | finished {off : Number} (h : off.lt (ofNat contents.length) = false) : Loop contents off []
  | next {off : Number} {rest : List Bytes} (h : off.lt (ofNat contents.length) = true)
      (hrest : Loop contents (off.add R chunkSize) rest) :
      Loop contents off (subarray contents off (min (off.add R chunkSize) (ofNat contents.length)) :: rest)

variable {R chunkSize} {contents : Bytes} {off : Number} {slices : List Bytes}

theorem loop_over (h : off.lt (ofNat contents.length) = false) :
    Loop R chunkSize contents off slices ↔ slices = [] := by
  constructor
  · intro hloop
    cases hloop with
    | finished => rfl
    | next hlt =>
      rw [h] at hlt
      cases hlt
  · rintro rfl
    exact .finished h

theorem loop_next (h : off.lt (ofNat contents.length) = true) :
    Loop R chunkSize contents off slices ↔
      ∃ rest, slices = subarray contents off
        (min (off.add R chunkSize) (ofNat contents.length)) :: rest ∧ Loop R chunkSize contents (off.add R chunkSize) rest := by
  constructor
  · intro hloop
    cases hloop with
    | finished hover =>
      rw [h] at hover
      cases hover
    | next _ hrest => exact ⟨_, rfl, hrest⟩
  · rintro ⟨rest, rfl, hrest⟩
    exact .next h hrest

theorem exists_loop_iff (n : ℕ) :
    (∃ k ≤ n, ((fun off : Number => off.add R chunkSize)^[k] off).lt
        (ofNat contents.length) = false) ↔
      ∃ slices, Loop R chunkSize contents off slices ∧ slices.length ≤ n := by
  constructor
  · rintro ⟨k, hk, hend⟩
    induction k generalizing off n with
    | zero => exact ⟨[], .finished hend, Nat.zero_le n⟩
    | succ k ih =>
      obtain ⟨m, rfl⟩ := Nat.exists_eq_add_of_le' hk
      cases hlt : off.lt (ofNat contents.length) with
      | false => exact ⟨[], .finished hlt, Nat.zero_le _⟩
      | true =>
        obtain ⟨slices, hloop, hlen⟩ := ih (m+k) (Nat.le_add_left k m) hend
        exact ⟨_, .next hlt hloop, Nat.succ_le_succ hlen⟩
  · rintro ⟨slices, hloop, hlen⟩
    refine ⟨slices.length, hlen, ?_⟩
    clear hlen
    induction hloop with
    | finished h => exact h
    | next _ _ ih => exact ih

/-! ### What the slices are -/

theorem Loop.flatten {q x : ℚ} (hq : 0 < q)
    (hmem : x ∈ R.representable) (hx : 0 ≤ x) (hloop : Loop R (.finite q) contents (.finite x) slices) :
    slices.flatten = contents.drop ⌊x⌋.toNat := by
  generalize hoff : finite x = off at hloop
  induction hloop generalizing x with
  | finished h =>
    subst hoff
    have hle : (contents.length : ℚ) ≤ x := not_lt.mp (of_decide_eq_false h)
    have hfloor : (contents.length : ℤ) ≤ ⌊x⌋ := Int.le_floor.mpr (by exact_mod_cast hle)
    rw [drop_eq_nil_of_le (by omega)]
    rfl
  | @next off rest h hrest ih =>
    subst hoff
    have hlt : x < (contents.length : ℚ) := of_decide_eq_true h
    have hlen : ∀ z : ℚ, (contents.length : ℚ) ≤ z → contents.length ≤ ⌊z⌋.toNat := by
      intro z hz
      have hfloor : (contents.length : ℤ) ≤ ⌊z⌋ := Int.le_floor.mpr (by exact_mod_cast hz)
      omega
    have hwh : subarray contents (.finite x) (ofNat contents.length) = contents.drop ⌊x⌋.toNat := by
      rw [ofNat, subarray_of_nonneg contents hx (Nat.cast_nonneg _), take_of_length_le (hlen _ le_rfl)]
    rw [flatten_cons]
    obtain hinf | ⟨z, hz, hxz, hsum⟩ := add_of_nonneg hmem hx hq.le
    · -- the next offset is infinite, and this slice goes to the end
      rw [hinf] at hrest ⊢
      obtain rfl := (loop_over rfl).mp hrest
      rwa [flatten_nil, append_nil]
    rw [hsum] at hrest ih ⊢
    have hrest' := ih hz (le_trans hx hxz) rfl
    by_cases hend : z < (contents.length : ℚ)
    · have hmin : min (.finite z) (ofNat contents.length) = .finite z := if_pos (decide_eq_true hend)
      have hfloors : ⌊x⌋.toNat ≤ ⌊z⌋.toNat := Int.toNat_le_toNat (Int.floor_le_floor hxz)
      rw [hrest', hmin, subarray_of_nonneg contents hx (le_trans hx hxz)]
      conv_rhs => rw [← take_append_drop ⌊z⌋.toNat contents]
      have hbd : ⌊x⌋.toNat ≤ (contents.take ⌊z⌋.toNat).length := by
        have hfloor : ⌊x⌋ < (contents.length : ℤ) := Int.floor_lt.mpr (by exact_mod_cast hlt)
        rw [length_take]
        omega
      rw [drop_append_of_le_length hbd]
    · have hover : (finite z).lt (ofNat contents.length) = false := decide_eq_false hend
      have hmin : min (.finite z) (ofNat contents.length) =
          ofNat contents.length := if_neg (by rw [hover]; exact Bool.false_ne_true)
      obtain rfl := (loop_over hover).mp hrest
      rwa [hmin, flatten_nil, append_nil]

theorem Loop.drop_flatten_ne_nil {q x : ℚ} (hq : 0 < q)
    (hmem : x ∈ R.representable) (hx : 0 ≤ x) (hloop : Loop R (.finite q) contents (.finite x) slices) {n : ℕ}
    (hn : n < slices.length) : (slices.drop n).flatten ≠ [] := by
  induction n generalizing x slices with
  | zero =>
    rw [drop_zero, hloop.flatten hq hmem hx]
    cases hloop with
    | finished => cases hn
    | next h =>
      have hlt : x < (contents.length : ℚ) := of_decide_eq_true h
      have hfloor : ⌊x⌋ < (contents.length : ℤ) := Int.floor_lt.mpr (by exact_mod_cast hlt)
      have hnonn : 0 ≤ ⌊x⌋ := Int.floor_nonneg.mpr hx
      rw [Ne, drop_eq_nil_iff]
      omega
  | succ n ih =>
    cases hloop with
    | finished => cases hn
    | @next _ rest h hrest =>
      have hn' : n < rest.length := Nat.lt_of_succ_lt_succ hn
      obtain hinf | ⟨z, hz, hxz, hsum⟩ := add_of_nonneg hmem hx hq.le
      · rw [hinf] at hrest
        obtain rfl := (loop_over rfl).mp hrest
        cases hn'
      · rw [hsum] at hrest
        exact ih hz (le_trans hx hxz) hrest hn'

theorem Loop.eq_of_nan (hlen : 0 < contents.length)
    (hloop : Loop R .nan contents (.finite 0) slices) : slices = [[]] := by
  have hlt : (finite 0).lt (ofNat contents.length) = true := Nonpos.lt_ofNat (a := .finite 0) le_rfl hlen
  obtain ⟨rest, rfl, hrest⟩ := (loop_next hlt).mp hloop
  rw [(loop_over rfl).mp hrest]
  rfl

theorem not_loop_of_nonpos (hsize : chunkSize.Nonpos) (hlen : 0 < contents.length)
    (hoff : off.Nonpos) : ¬ Loop R chunkSize contents off slices := by
  intro hloop
  induction hloop with
  | finished h =>
    rw [hoff.lt_ofNat hlen] at h
    cases h
  | next _ _ ih => exact ih (hoff.add hsize)

end

/-! ### What the drive has yet to send -/

section
variable (R : Rounding) (opts : Options) (hash : Bytes → Bytes)

def chunksFrom (id : Bytes) : ℕ → List Bytes → List Envelope
  | _, [] => [.finish id]
  | seq, c :: cs => .chunk id seq (Base64.encode Base64.standard c) :: chunksFrom id (seq+1) cs

def Drive.Heads (d : Drive) (off : Number) (seq : ℕ) (future : List Envelope) : Prop :=
  ∃ slices, Loop R opts.chunkSize d.contents off slices ∧ future = chunksFrom d.uploadId seq slices

def Drive.Remains (d : Drive) (future : List Envelope) : Prop :=
  match d.point with
  | .reading | .hashing => ∃ later, d.Heads R opts (.finite 0) 0 later ∧ future = d.start hash :: later
  | .sentStart => d.Heads R opts (.finite 0) 0 future
  | .waiting off seq _ => ∃ later, d.Heads R opts (off.add R opts.chunkSize) (seq+1) later ∧
      future = d.chunk R opts off seq :: later
  | .sentChunk off seq _ => d.Heads R opts (off.add R opts.chunkSize) (seq+1) future
  | .reporting off seq _ => d.Heads R opts (off.add R opts.chunkSize) seq future
  | .sentEnd | .returned => future = []
  | .failing _ => False

def Drive.rank (d : Drive) (future : List Envelope) : ℕ :=
  4*future.length +
    match d.point with
    | .reading | .sentChunk _ _ _ => 2
    | .hashing | .sentStart | .reporting _ _ _ | .sentEnd => 1
    | .waiting _ _ _ | .failing _ | .returned => 0

def envelopesOf (outs : List Output) : List Envelope :=
  outs.filterMap fun
    | .sends env => some env
    | _ => none

structure Went (d : Drive) (s s' : Channel) (point : Point) (outs : List Output) : Prop where
  drives : s'.drives = [{ d with point := point }]
  log : s'.log = s.log ++ outs
  pending : s'.pending = s.pending
  readyState : s'.readyState = .open
  fine : ∀ code, point ≠ .failing code
  about : ∀ env ∈ envelopesOf outs, env.uploadId = d.uploadId
  remains : ∀ future, d.Remains R opts hash future ↔
    ∃ later, Drive.Remains R opts hash { d with point := point } later ∧
      future = envelopesOf outs ++ later
  rank : s.bufferedLowWaiters = [] → d.point ≠ .returned → ∀ later,
    Drive.rank { d with point := point } later < d.rank (envelopesOf outs ++ later)

variable {R opts hash} {d : Drive} {off : Number} {s : Channel}

theorem Drive.heads_next {seq : ℕ} {future : List Envelope} (h : off.lt (ofNat d.contents.length) = true) :
    d.Heads R opts off seq future ↔
      ∃ later, d.Heads R opts (off.add R opts.chunkSize) (seq+1) later ∧ future = d.chunk R opts off seq :: later := by
  constructor
  · rintro ⟨slices, hloop, rfl⟩
    obtain ⟨rest, rfl, hrest⟩ := (loop_next h).mp hloop
    exact ⟨_, ⟨rest, hrest, rfl⟩, rfl⟩
  · rintro ⟨later, ⟨rest, hrest, rfl⟩, rfl⟩
    exact ⟨_, .next h hrest, rfl⟩

theorem Drive.heads_over {seq : ℕ} {future : List Envelope} (h : off.lt (ofNat d.contents.length) = false) :
    d.Heads R opts off seq future ↔ future = [.finish d.uploadId] := by
  constructor
  · rintro ⟨slices, hloop, rfl⟩
    rw [(loop_over h).mp hloop]
    rfl
  · rintro rfl
    exact ⟨[], .finished h, rfl⟩

theorem sendThen_open (hopen : s.readyState = .open) (i : ℕ) (d : Drive) (env : Envelope)
    (point : Point) : s.sendThen i d env false point = (s.say (.sends env)).goTo i d point :=
  if_neg (by simp [hopen])

theorem goTo_drives (hdrv : s.drives = [d]) (point : Point) :
    (s.goTo 0 d point).drives = [{ d with point := point }] := by
  rw [goTo, hdrv]
  rfl

theorem loopHead_went (hdrv : s.drives = [d]) (hopen : s.readyState = .open) (hgoes : s.goesOn d.uploadId = true)
    {seq sent : ℕ} (hheads : ∀ future, d.Remains R opts hash future ↔ d.Heads R opts off seq future)
    (hrank : ∀ future, 4*future.length < d.rank future) :
    ∃ point outs, Went R opts hash d s (s.loopHead opts 0 d off seq sent false) point outs := by
  unfold loopHead
  split
  next hlt =>
    refine ⟨.waiting off seq sent, [], ?_⟩
    have hrem : ∀ future, d.Remains R opts hash future ↔
        ∃ later, Drive.Remains R opts hash { d with point := .waiting off seq sent } later ∧
          future = envelopesOf [] ++ later := by
      intro future
      rw [hheads, Drive.heads_next hlt]
      exact ⟨fun h => ⟨future, h, rfl⟩, fun ⟨_, h, heq⟩ => heq ▸ h⟩
    dsimp only
    split <;> exact ⟨goTo_drives hdrv _, (append_nil _).symm, rfl, hopen, nofun, nofun, hrem,
      fun _ _ later => hrank later⟩
  next hover =>
    have hover : off.lt (ofNat d.contents.length) = false := Bool.eq_false_iff.mpr hover
    rw [sendThen_open hopen]
    refine ⟨.sentEnd, [.sends (.finish d.uploadId)], goTo_drives hdrv _, rfl, rfl, hopen, nofun, ?_, ?_, ?_⟩
    · exact forall_mem_singleton.mpr rfl
    · intro future
      rw [hheads, Drive.heads_over hover]
      exact ⟨fun h => ⟨[], rfl, h⟩, fun ⟨_, hnil, heq⟩ => by rw [heq, hnil]; rfl⟩
    · intro _ _ later
      have hlt := hrank (.finish d.uploadId :: later)
      have hlen : (Envelope.finish d.uploadId :: later).length = later.length+1 := rfl
      exact lt_of_le_of_lt (show 4*later.length + 1 ≤ _ by omega) hlt

variable (R opts hash) in
theorem resume_went (hdrv : s.drives = [d]) (hopen : s.readyState = .open) (hfine : ∀ code, d.point ≠ .failing code)
    (hgoes : d.point = .sentEnd ∨ d.point = .returned ∨ s.goesOn d.uploadId = true) :
    ∃ point outs, Went R opts hash d s (s.resume R opts hash 0 d none false) point outs := by
  -- the drive moves on without sending
  have hmvs : ∀ point, (∀ code, point ≠ .failing code) →
      (∀ future, d.Remains R opts hash future ↔ Drive.Remains R opts hash { d with point := point } future) →
      (∀ future, Drive.rank { d with point := point } future < d.rank future) →
      Went R opts hash d s (s.goTo 0 d point) point [] := by
    intro point hpt hrem hrank
    refine ⟨goTo_drives hdrv _, (append_nil _).symm, rfl, hopen, hpt, nofun, ?_, fun _ _ => hrank⟩
    intro future
    rw [hrem]
    exact exists_eq_right'.symm
  unfold resume
  cases hpt : d.point with
  | reading =>
    refine ⟨.hashing, [], hmvs .hashing nofun (fun future => ?_) fun future => ?_⟩
    · simp only [Drive.Remains, hpt]
      rfl
    · simp [Drive.rank, hpt]
  | hashing =>
    have hgoes : s.goesOn d.uploadId = true := by simpa [hpt] using hgoes
    rw [if_pos hgoes, sendThen_open hopen]
    refine ⟨.sentStart, [.sends (d.start hash)], goTo_drives hdrv _, rfl, rfl, hopen, nofun, ?_, ?_, ?_⟩
    · exact forall_mem_singleton.mpr rfl
    · intro future
      simp only [Drive.Remains, hpt]
      rfl
    · simp [Drive.rank, hpt, envelopesOf]
  | sentStart | reporting =>
    have hgoes : s.goesOn d.uploadId = true := by simpa [hpt] using hgoes
    refine loopHead_went hdrv hopen hgoes (fun future => ?_) fun future => ?_
    · simp [Drive.Remains, hpt]
    · simp [Drive.rank, hpt]
  | waiting off seq sent =>
    dsimp only
    split
    next hprk =>
      refine ⟨d.point, [], hdrv, (append_nil _).symm, rfl, hopen, hfine, nofun, ?_, ?_⟩
      · exact fun _ => exists_eq_right'.symm
      intro hnone
      rw [hnone] at hprk
      cases hprk
    · rw [sendThen_open hopen]
      refine ⟨.sentChunk off seq sent, [.sends (d.chunk R opts off seq)], goTo_drives hdrv _, rfl,
        rfl, hopen, nofun, ?_, ?_, ?_⟩
      · exact forall_mem_singleton.mpr rfl
      · intro future
        simp only [Drive.Remains, hpt]
        rfl
      · simp [Drive.rank, hpt, envelopesOf]
        omega
  | sentChunk off seq sent =>
    have hgoes : s.goesOn d.uploadId = true := by simpa [hpt] using hgoes
    dsimp only
    split
    · refine ⟨.reporting off (seq+1) (sent + (d.slice R opts off).length),
        [.progress d.uploadId (sent + (d.slice R opts off).length) d.contents.length],
        goTo_drives hdrv _, rfl, rfl, hopen, nofun, nofun, ?_, ?_⟩
      · intro future
        simp only [Drive.Remains, hpt]
        exact exists_eq_right'.symm
      · simp [Drive.rank, hpt, envelopesOf]
    · refine loopHead_went hdrv hopen hgoes (fun future => ?_) fun future => ?_
      · simp [Drive.Remains, hpt]
      · simp [Drive.rank, hpt]
  | sentEnd =>
    refine ⟨.returned, [], hmvs .returned nofun (fun future => ?_) fun future => ?_⟩
    · simp [Drive.Remains, hpt]
    · simp [Drive.rank, hpt]
  | failing code => exact absurd hpt (hfine code)
  | returned =>
    refine ⟨d.point, [], hdrv, (append_nil _).symm, rfl, hopen, hfine, nofun, ?_, ?_⟩
    · exact fun _ => exists_eq_right'.symm
    · exact fun _ hret => absurd hpt hret

end

end Chromeless.UploadClient
