import Chromeless.PassthroughWire

/-! Whole connections of the v4l2-writer: what was encoded arrives, and what the handlers
make of a stream that breaks off. -/
namespace Chromeless.Passthrough
open Reader List

section
variable {write : List Bytes → Bytes → Option String} {r r' : Stream} {work work' : Bytes}
  {n : ℕ} {written : List Bytes}

theorem copyFrames_ok {f : Frame} (hread : readFrame r work = (.ok f, work', r'))
    (hwrt : write written f.body = none) :
    copyFrames write r work n written = copyFrames write r' work' (n+1) (written ++ [f.body]) := by
  rw [copyFrames]
  split
  next h =>
    rw [hread] at h
    cases h
  rename_i h
  rw [hread] at h
  cases h
  simp [hwrt]

theorem copyFrames_error {e : Error} (hread : readFrame r work = (.error e, work', r')) :
    copyFrames write r work n written =
      ⟨written, .returned n (if e.isEOF then none
        else some (.wrap ("read frame " ++ toString n ++ ": ") e))⟩ := by
  rw [copyFrames]
  split
  next h =>
    rw [hread] at h
    cases h
    split <;> rfl
  next h =>
    rw [hread] at h
    cases h

theorem copyFrames_write_error {f : Frame} {msg : String}
    (hread : readFrame r work = (.ok f, work', r')) (hwrt : write written f.body = some msg) :
    ∃ e, (copyFrames write r work n written).outcome = .returned n (some e) := by
  rw [copyFrames]
  split
  next h =>
    rw [hread] at h
    cases h
  rename_i h
  rw [hread] at h
  cases h
  simp only [hwrt]
  exact ⟨_, rfl⟩

def Takes (write : List Bytes → Bytes → Option String) (written : List Bytes) :
    List Bytes → Prop
  | [] => True
  | b :: bs => write written b = none ∧ Takes write (written ++ [b]) bs

theorem copyFrames_append (work : Bytes) (n : ℕ) {frames : List Frame} {rest : Bytes} (hfits : ∀ f ∈ frames, Fits f)
    (htks : Takes write written (frames.map (·.body))) (hr : r.flatten = frames.flatMap encodeFrame ++ rest) :
    ∃ r' work', r'.flatten = rest ∧ copyFrames write r work n written =
      copyFrames write r' work' (n + frames.length) (written ++ frames.map (·.body)) := by
  induction frames generalizing r work n written with
  | nil => exact ⟨r, work, hr, by simp⟩
  | cons f frames ih =>
    rw [flatMap_cons, append_assoc] at hr
    obtain ⟨work₁, r₁, hr₁, hread⟩ := readFrame_frame work (hfits f mem_cons_self) hr
    obtain ⟨r₂, work₂, hr₂, hrest⟩ := ih work₁ (n+1) (fun g hg => hfits g (mem_cons_of_mem _ hg)) htks.2 hr₁
    refine ⟨r₂, work₂, hr₂, ?_⟩
    rw [copyFrames_ok hread htks.1, hrest, length_cons, map_cons, append_assoc,
      singleton_append, Nat.add_assoc, Nat.add_comm 1]

theorem flatten_of_copyFrames {m : ℕ} (h : (copyFrames write r work n written).outcome = .returned m none) :
    ∃ frames : List Frame, (∀ f ∈ frames, Fits f) ∧ m = n + frames.length ∧
      (r.flatten = frames.flatMap encodeFrame ∨ ∃ f, Fits f ∧ f.body ≠ [] ∧
        r.flatten = frames.flatMap encodeFrame ++ frameHeader f) := by
  -- by induction on the bytes that are left
  induction hlen : r.flatten.length using Nat.strong_induction_on generalizing r work n written with
  | h k ih =>
    cases hread : readFrame r work with
    | mk result rest =>
      obtain ⟨work₁, r₁⟩ := rest
      cases result with
      | error e =>
        rw [copyFrames_error hread] at h
        by_cases heof : e.isEOF = true
        · simp only [heof, if_true, Outcome.returned.injEq, and_true] at h
          exact ⟨[], by simp, by simp [h], by
            simpa using flatten_of_readFrame_eof hread heof⟩
        · simp [heof] at h
      | ok f =>
        obtain ⟨hfits, hr⟩ := eq_encodeFrame_of_readFrame hread
        cases hwrt : write written f.body with
        | some =>
          obtain ⟨e, he⟩ := copyFrames_write_error (n := n) hread hwrt
          rw [he] at h
          cases h
        | none =>
          rw [copyFrames_ok hread hwrt] at h
          have hlt := readFrame_length_lt hread
          obtain ⟨frames, hall, hm, hend⟩ := ih r₁.flatten.length (by omega) h rfl
          refine ⟨f :: frames, ?_, ?_, ?_⟩
          · exact forall_mem_cons.mpr ⟨hfits, hall⟩
          · rw [hm, length_cons]
            omega
          · rw [hr, flatMap_cons]
            obtain hend | ⟨g, hg, hbody, hend⟩ := hend
            · exact .inl (by rw [hend])
            · exact .inr ⟨g, hg, hbody, by rw [hend, append_assoc]⟩

end

/-! ### Init headers -/

section
variable {φ : Type} {magic : Bytes} {initText openText : String} {parse : Bytes → φ}
  {capacity : φ → ℤ} {sink : Sink φ} {r : Stream} {hdr rest : Bytes}

structure IsHeader (magic hdr : Bytes) : Prop where
  length : hdr.length = initHeaderSize
  magic : slice hdr 0 4 = magic

theorem readInit_header (hhdr : IsHeader magic hdr) (hr : r.flatten = hdr ++ rest) :
    ∃ r', r'.flatten = rest ∧ readInit magic r = (.ok hdr, r') := by
  have hlen : initHeaderSize ≤ r.flatten.length := by
    rw [hr, length_append, hhdr.length]
    omega
  obtain ⟨r', hr', hread⟩ := readFull_ok hlen
  rw [hr, drop_left' hhdr.length] at hr'
  rw [hr, take_left' hhdr.length] at hread
  exact ⟨r', hr', by simp [readInit, hread, hhdr.magic]⟩

theorem isHeader_of_readInit {r' : Stream} (h : readInit magic r = (.ok hdr, r')) :
    IsHeader magic hdr ∧ r.flatten = hdr ++ r'.flatten := by
  by_cases hlen : initHeaderSize ≤ r.flatten.length
  · obtain ⟨r₁, hr₁, hread⟩ := readFull_ok hlen
    by_cases hmagic : slice (r.flatten.take initHeaderSize) 0 4 = magic
    · simp only [readInit, hread, hmagic, ne_eq, not_true_eq_false, if_false, Prod.mk.injEq,
        Except.ok.injEq] at h
      obtain ⟨rfl, rfl⟩ := h
      refine ⟨⟨by rw [length_take]; omega, hmagic⟩, ?_⟩
      rw [hr₁, take_append_drop]
    · simp [readInit, hread, hmagic] at h
  · obtain ⟨r₁, hread⟩ := readFull_error (Nat.not_le.mp hlen)
    simp [readInit, hread] at h

variable (initText openText capacity) in
theorem handle_header (hhdr : IsHeader magic hdr) (hr : r.flatten = hdr ++ rest)
    (hacc : sink.accept (parse hdr) = none) :
    (¬ InRange (capacity (parse hdr)) ∧ handle magic initText openText parse capacity sink r = ⟨[], .panicked⟩) ∨
    (InRange (capacity (parse hdr)) ∧ ∃ r' work, r'.flatten = rest ∧
      handle magic initText openText parse capacity sink r = copyFrames sink.write r' work 0 []) := by
  obtain ⟨r', hr', hread⟩ := readInit_header hhdr hr
  by_cases hrng : InRange (capacity (parse hdr))
  · refine .inr ⟨hrng, r', replicate (capacity (parse hdr)).toNat 0, hr', ?_⟩
    simp only [handle, hread, hacc, makeSlice, if_pos hrng]
  · refine .inl ⟨hrng, ?_⟩
    simp only [handle, hread, hacc, makeSlice, if_neg hrng]

variable (initText openText parse capacity) in
theorem handle_encoded {frames : List Frame} (hhdr : IsHeader magic hdr) (hfits : ∀ f ∈ frames, Fits f)
    (hr : r.flatten = hdr ++ frames.flatMap encodeFrame) (hacc : sink.accept (parse hdr) = none)
    (htks : Takes sink.write [] (frames.map (·.body))) :
    handle magic initText openText parse capacity sink r =
      ⟨frames.map (·.body), .returned frames.length none⟩ ↔ InRange (capacity (parse hdr)) := by
  obtain ⟨hrng, hpan⟩ | ⟨hrng, r₁, work, hr₁, hloop⟩ := handle_header initText openText capacity hhdr hr hacc
  · rw [hpan]
    refine ⟨?_, fun h => absurd h hrng⟩
    intro h
    have houtc := congrArg Copied.outcome h
    cases houtc
  refine ⟨fun _ => hrng, fun _ => ?_⟩
  rw [← append_nil (frames.flatMap encodeFrame)] at hr₁
  obtain ⟨r₂, work₂, hr₂, hcop⟩ := copyFrames_append work 0 hfits htks hr₁
  obtain ⟨r₃, hend⟩ := readFrame_nil work₂ hr₂
  rw [hloop, hcop, copyFrames_error hend]
  simp [Error.isEOF]

end

theorem slice_take_drop {x y : Bytes} {i j : ℕ} (hx : x.length = i) (hy : y.length = j) :
    slice (x ++ y) i (i+j) = y := by
  have := slice_middle (z := []) hx (congrArg (i + ·) hy)
  rwa [append_nil] at this

theorem encodeVideoInit_isHeader (v : VideoInit) : IsHeader magicVideo (encodeVideoInit v) :=
  ⟨by simp [encodeVideoInit, magicVideo, initHeaderSize], rfl⟩

theorem encodeAudioInit_isHeader (a : AudioInit) : IsHeader magicAudio (encodeAudioInit a) :=
  ⟨by simp [encodeAudioInit, magicAudio, initHeaderSize], rfl⟩

theorem videoInit_encode {v : VideoInit} (hw : v.width < 2^32) (hh : v.height < 2^32)
    (hf : v.fps < 2^32) : videoInit (encodeVideoInit v) = v := by
  have h4 : slice (encodeVideoInit v) 4 8 = beEncode 4 v.width := by
    rw [encodeVideoInit, append_assoc]
    exact slice_middle (by simp [magicVideo]) (by simp)
  have h8 : slice (encodeVideoInit v) 8 12 = beEncode 4 v.height := slice_middle (by simp [magicVideo]) (by simp)
  have h12 : slice (encodeVideoInit v) 12 16 = beEncode 4 v.fps :=
    slice_take_drop (by simp [magicVideo]) (beEncode_length 4 _)
  rw [videoInit, h4, h8, h12, beDecode_beEncode hw, beDecode_beEncode hh, beDecode_beEncode hf]

theorem audioInit_encode {a : AudioInit} (hs : a.sampleRate < 2^32) (hc : a.channels < 2^32) :
    audioInit (encodeAudioInit a) = a := by
  have h4 : slice (encodeAudioInit a) 4 8 = beEncode 4 a.sampleRate := by
    rw [encodeAudioInit, append_assoc]
    exact slice_middle (by simp [magicAudio]) (by simp)
  have h8 : slice (encodeAudioInit a) 8 12 = beEncode 4 a.channels := slice_middle (by simp [magicAudio]) (by simp)
  rw [audioInit, h4, h8, beDecode_beEncode hs, beDecode_beEncode hc]

def openSink (φ : Type) : Sink φ := ⟨fun _ => none, fun _ _ => none⟩

section
variable (magic s : Bytes)

def IsStream (n : ℕ) : Prop := ∃ hdr, IsHeader magic hdr ∧ ∃ frames : List Frame,
  (∀ f ∈ frames, Fits f) ∧ frames.length = n ∧ s = hdr ++ frames.flatMap encodeFrame

/-- The stream is a header, frames and the beginning `part` of another frame `f`. -/
def EndsWith (part : Bytes) (f : Frame) : Prop := ∃ hdr, IsHeader magic hdr ∧
  ∃ frames : List Frame, (∀ f ∈ frames, Fits f) ∧ part ≠ [] ∧
    (∃ missing, missing ≠ [] ∧ part ++ missing = encodeFrame f) ∧
    s = hdr ++ frames.flatMap encodeFrame ++ part

def EndsInside : Prop := ∃ part f, f.body.length < 2^32 ∧ EndsWith magic s part f

def EndsBehindHeader : Prop := ∃ f, Fits f ∧ EndsWith magic s (frameHeader f) f

/-- A handler that returns without an error has had a whole stream, and one whose stream ends inside
a frame returns an error. -/
def Sound (outcome : Outcome) : Prop :=
  (∀ n, outcome = .returned n none → IsStream magic s n) ∧ (EndsInside magic s → ∃ n e, outcome = .returned n (some e))

end

def Sink.Total {φ : Type} (sink : Sink φ) : Prop :=
  (∀ v, sink.accept v = none) ∧ ∀ written b, sink.write written b = none

theorem takes_of_total {φ : Type} {sink : Sink φ} (htot : sink.Total) (written bs : List Bytes) :
    Takes sink.write written bs := by
  induction bs generalizing written with
  | nil => trivial
  | cons b bs ih => exact ⟨htot.2 written b, ih _⟩

theorem EndsBehindHeader.inside {magic s : Bytes} (h : EndsBehindHeader magic s) :
    EndsInside magic s := by
  obtain ⟨f, hf, hends⟩ := h
  exact ⟨_, f, hf.length_lt, hends⟩

section
variable {φ : Type} {magic : Bytes} {initText openText : String} {parse : Bytes → φ}
  {capacity : φ → ℤ} {sink : Sink φ} {r : Stream}

variable (initText openText parse capacity) in
theorem handle_front {hdr rest : Bytes} {frames : List Frame} (htot : sink.Total) (hhdr : IsHeader magic hdr)
    (hfits : ∀ f ∈ frames, Fits f) (hr : r.flatten = hdr ++ frames.flatMap encodeFrame ++ rest) :
    (¬ InRange (capacity (parse (r.flatten.take initHeaderSize))) ∧
      (handle magic initText openText parse capacity sink r).outcome = .panicked) ∨
    (InRange (capacity (parse (r.flatten.take initHeaderSize))) ∧
      ∃ r' work, r'.flatten = rest ∧ handle magic initText openText parse capacity sink r =
        copyFrames sink.write r' work frames.length (frames.map (·.body))) := by
  rw [append_assoc] at hr
  have htake : r.flatten.take initHeaderSize = hdr := by rw [hr, take_left' hhdr.length]
  rw [htake]
  obtain ⟨hrng, hpan⟩ | ⟨hrng, r₁, work, hr₁, hloop⟩ := handle_header initText openText capacity hhdr hr (htot.1 _)
  · exact .inl ⟨hrng, by rw [hpan]⟩
  obtain ⟨r₂, work₂, hr₂, hcop⟩ := copyFrames_append work 0 hfits (takes_of_total htot [] _) hr₁
  rw [Nat.zero_add, nil_append] at hcop
  exact .inr ⟨hrng, r₂, work₂, hr₂, hloop.trans hcop⟩

variable (initText openText parse capacity) in
theorem handle_behind_header (htot : sink.Total) (hends : EndsBehindHeader magic r.flatten) :
    (handle magic initText openText parse capacity sink r).outcome = .panicked ∨
      ∃ n, (handle magic initText openText parse capacity sink r).outcome = .returned n none := by
  obtain ⟨f, hf, hdr, hhdr, frames, hfits, -, ⟨missing, hmis, hpart⟩, hr⟩ := hends
  have hbody : f.body ≠ [] := by
    rw [encodeFrame_eq, append_cancel_left_eq] at hpart
    rwa [← hpart]
  obtain ⟨-, hpan⟩ | ⟨-, r', work, hr', hloop⟩ := handle_front initText openText parse capacity htot hhdr hfits hr
  · exact .inl hpan
  obtain ⟨work₁, r₁, hread⟩ := readFrame_header work hf hbody hr'
  rw [hloop, copyFrames_error hread]
  exact .inr ⟨_, rfl⟩

variable (initText openText parse capacity) in
theorem handle_inside (htot : sink.Total) (hends : EndsInside magic r.flatten)
    (hnot : ¬ EndsBehindHeader magic r.flatten) :
    (¬ InRange (capacity (parse (r.flatten.take initHeaderSize))) ∧
      (handle magic initText openText parse capacity sink r).outcome = .panicked) ∨
    ∃ n e, (handle magic initText openText parse capacity sink r).outcome = .returned n (some e) := by
  obtain ⟨part, f, hf, hends⟩ := hends
  obtain ⟨hdr, hhdr, frames, hfits, hne, ⟨missing, hmis, hpart⟩, hr⟩ := id hends
  obtain hpan | ⟨-, r', work, hr', hloop⟩ := handle_front initText openText parse capacity htot hhdr hfits hr
  · exact .inl hpan
  obtain ⟨e, work₁, r₁, hread, heof⟩ := readFrame_partial work hf
    (by rw [hr']; exact hne) hmis (by rw [hr']; exact hpart)
  rw [hr'] at heof
  by_cases he : e.isEOF = true
  · obtain ⟨hfit, rfl⟩ := heof he
    exact absurd ⟨f, hfit, hends⟩ hnot
  · rw [hloop, copyFrames_error hread]
    exact .inr ⟨_, _, by rw [if_neg he]⟩

theorem isStream_of_handle {n : ℕ}
    (h : (handle magic initText openText parse capacity sink r).outcome = .returned n none) :
    IsStream magic r.flatten n ∨ EndsBehindHeader magic r.flatten := by
  cases hread : readInit magic r with
  | mk result =>
    cases result with
    | error => simp [handle, hread] at h
    | ok hdr =>
      obtain ⟨hhdr, hr⟩ := isHeader_of_readInit hread
      cases hacc : sink.accept (parse hdr) with
      | some => simp [handle, hread, hacc] at h
      | none =>
        obtain ⟨-, hpan⟩ | ⟨-, r₂, work, hr₂, hloop⟩ := handle_header initText openText capacity hhdr hr hacc
        · rw [hpan] at h
          cases h
        rw [hloop] at h
        obtain ⟨frames, hfits, hn, hend | ⟨f, hf, hbody, hend⟩⟩ := flatten_of_copyFrames h
        · left
          exact ⟨hdr, hhdr, frames, hfits, by omega, by rw [hr, ← hr₂, hend]⟩
        right
        refine ⟨f, hf, hdr, hhdr, frames, hfits, ?_, ⟨f.body, hbody, rfl⟩, ?_⟩
        · exact ne_nil_of_length_pos (by rw [frameHeader_length]; decide)
        · rw [hr, ← hr₂, hend, append_assoc]

variable (magic initText openText parse capacity) in
theorem handle_sound_iff (htot : sink.Total) :
    Sound magic r.flatten (handle magic initText openText parse capacity sink r).outcome ↔
      ¬ EndsBehindHeader magic r.flatten ∧ (EndsInside magic r.flatten →
        InRange (capacity (parse (r.flatten.take initHeaderSize)))) := by
  constructor
  · intro hsnd
    have hnot : ¬ EndsBehindHeader magic r.flatten := by
      intro hends
      obtain ⟨n, e, herr⟩ := hsnd.2 hends.inside
      obtain hpan | ⟨m, hok⟩ := handle_behind_header initText openText parse capacity htot hends
      · rw [herr] at hpan
        cases hpan
      · rw [herr] at hok
        cases hok
    refine ⟨hnot, ?_⟩
    intro hins
    obtain ⟨n, e, herr⟩ := hsnd.2 hins
    by_contra hrng
    obtain ⟨part, f, hf, hdr, hhdr, frames, hfits, -, -, hr⟩ := hins
    obtain ⟨-, hpan⟩ | ⟨hin, -⟩ := handle_front initText openText parse capacity htot hhdr hfits hr
    · rw [herr] at hpan
      cases hpan
    · exact hrng hin
  · rintro ⟨hnot, hrng⟩
    refine ⟨fun n hn => (isStream_of_handle hn).resolve_right hnot, ?_⟩
    intro hins
    obtain ⟨hout, -⟩ | herr := handle_inside initText openText parse capacity htot hins hnot
    · exact absurd (hrng hins) hout
    · exact herr

end

end Chromeless.Passthrough
