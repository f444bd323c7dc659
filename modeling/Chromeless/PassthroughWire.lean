import Chromeless.LibReader

/-! The v4l2-writer: the frame stream of the passthrough, its readers, and the handlers of a
connection. -/
namespace Chromeless.Passthrough
open Reader List UInt32

abbrev Bytes := List UInt8

/-! ### Wire format -/

def magicVideo : Bytes := [0x43, 0x42, 0x56, 0x31]

def magicAudio : Bytes := [0x43, 0x42, 0x41, 0x31]

def initHeaderSize : ℕ := 16

def frameHeaderSize : ℕ := 8

def maxFrameSize : ℕ := 32*1024*1024

structure VideoInit where
  width : ℕ
  height : ℕ
  fps : ℕ
deriving DecidableEq

structure AudioInit where
  sampleRate : ℕ
  channels : ℕ
deriving DecidableEq

structure Frame where
  ptsMillis : UInt32
  body : Bytes
deriving DecidableEq

inductive Error
  | eof
  | unexpectedEOF
  | badMagic (got want : Bytes)
  | frameTooBig (size : ℕ)
  | sink (msg : String)
  /-- `fmt.Errorf` with `%w`: a text in front of another error. -/
  | wrap (text : String) (err : Error)
deriving DecidableEq

def Error.isEOF : Error → Bool
  | .eof => true
  | .wrap _ err => err.isEOF
  | _ => false

def readError : ReadError → Error
  | .eof => .eof
  | .unexpectedEOF => .unexpectedEOF

def slice (buf : Bytes) (i j : ℕ) : Bytes := (buf.take j).drop i

abbrev Stream := List Bytes

def readInit (magic : Bytes) (r : Stream) : Except Error Bytes × Stream :=
  match readFull initHeaderSize r with
  | (.error e, r) => (.error (readError e), r)
  | (.ok buf, r) => if slice buf 0 4 ≠ magic then (.error (.badMagic (slice buf 0 4) magic), r) else (.ok buf, r)

def videoInit (buf : Bytes) : VideoInit :=
  ⟨beDecode (slice buf 4 8), beDecode (slice buf 8 12), beDecode (slice buf 12 16)⟩

def audioInit (buf : Bytes) : AudioInit := ⟨beDecode (slice buf 4 8), beDecode (slice buf 8 12)⟩

/-- `dst` is the array behind the working buffer; the body that is returned is its front. What a
read that fails leaves in it is not looked at again. -/
def readFrame (r : Stream) (dst : Bytes) : Except Error Frame × Bytes × Stream :=
  match readFull frameHeaderSize r with
  | (.error e, r) => (.error (readError e), dst, r)
  | (.ok hdr, r) =>
    let size := beDecode (slice hdr 0 4)
    let pts := beDecode (slice hdr 4 8)
    if maxFrameSize < size then (.error (.frameTooBig size), dst, r)
    else
      let dst := if dst.length < size then replicate size 0 else dst
      match readFull size r with
      | (.error e, r) => (.error (readError e), dst, r)
      | (.ok bytes, r) =>
        let dst := bytes ++ dst.drop size
        (.ok ⟨ofNat pts, dst.take size⟩, dst, r)

def encodeVideoInit (v : VideoInit) : Bytes :=
  magicVideo ++ beEncode 4 v.width ++ beEncode 4 v.height ++ beEncode 4 v.fps

def encodeAudioInit (a : AudioInit) : Bytes :=
  magicAudio ++ beEncode 4 a.sampleRate ++ beEncode 4 a.channels ++ [0, 0, 0, 0]

def encodeFrame (f : Frame) : Bytes :=
  beEncode 4 f.body.length ++ beEncode 4 f.ptsMillis.toNat ++ f.body

/-! ### Reading frames back -/

variable {x y : Bytes} {i j : ℕ} {f : Frame}

theorem slice_append (h : j ≤ x.length) : slice (x ++ y) i j = slice x i j := by
  rw [slice, slice, take_append_of_le_length h]

theorem slice_middle {z : Bytes} (hx : x.length = i) (hy : i + y.length = j) :
    slice (x ++ y ++ z) i j = y := by
  rw [slice, take_append_of_le_length (by rw [length_append]; omega),
    take_of_length_le (by rw [length_append]; omega), ← hx, drop_left]

def frameHeader (f : Frame) : Bytes := beEncode 4 f.body.length ++ beEncode 4 f.ptsMillis.toNat

@[simp] theorem frameHeader_length (f : Frame) : (frameHeader f).length = frameHeaderSize := by
  simp [frameHeader, frameHeaderSize]

theorem encodeFrame_eq (f : Frame) : encodeFrame f = frameHeader f ++ f.body := rfl

theorem eq_frameHeader {hdr : Bytes} (hlen : hdr.length = frameHeaderSize) {body : Bytes}
    (hbody : body.length = beDecode (slice hdr 0 4)) :
    hdr = frameHeader ⟨ofNat (beDecode (slice hdr 4 8)), body⟩ := by
  have h0 : (slice hdr 0 4).length = 4 := by simp [slice, hlen, frameHeaderSize]
  have h4 : (slice hdr 4 8).length = 4 := by simp [slice, hlen, frameHeaderSize]
  have hpts : beDecode (slice hdr 4 8) < 2^32 := by
    have := beDecode_lt (slice hdr 4 8)
    rwa [h4] at this
  have hsize := beEncode_beDecode (slice hdr 0 4)
  have hrest := beEncode_beDecode (slice hdr 4 8)
  rw [h0] at hsize
  rw [h4] at hrest
  have hall : hdr.take 8 = hdr := take_of_length_le (Nat.le_of_eq hlen)
  rw [frameHeader, hbody, toNat_ofNat_of_lt' hpts, hsize, hrest, slice, slice, drop_zero, hall, take_append_drop]

def Fits (f : Frame) : Prop := f.body.length ≤ maxFrameSize

theorem Fits.length_lt (hf : Fits f) : f.body.length < 256^4 :=
  Nat.lt_of_le_of_lt hf (by decide)

theorem slice_frameHeader (hf : f.body.length < 256^4) :
    beDecode (slice (frameHeader f) 0 4) = f.body.length ∧
      beDecode (slice (frameHeader f) 4 8) = f.ptsMillis.toNat := by
  have hsize : slice (frameHeader f) 0 4 = beEncode 4 f.body.length := by
    rw [frameHeader, slice_append (by simp), slice, drop_zero, take_of_length_le (by simp)]
  have hpts : slice (frameHeader f) 4 8 = beEncode 4 f.ptsMillis.toNat := by
    have := slice_middle (x := beEncode 4 f.body.length) (y := beEncode 4 f.ptsMillis.toNat)
      (z := []) (i := 4) (j := 8) (by simp) (by simp)
    rwa [append_nil] at this
  refine ⟨?_, ?_⟩
  · exact beDecode_beEncode hf
  · rw [hpts]
    exact beDecode_beEncode f.ptsMillis.toNat_lt

section
variable {r : Stream} {dst rest : Bytes}

variable {f : Frame} {dst' : Bytes} {r' : Stream}

variable (dst) in
theorem readFrame_frame (hf : Fits f) (hr : r.flatten = encodeFrame f ++ rest) :
    ∃ dst' r', r'.flatten = rest ∧ readFrame r dst = (.ok f, dst', r') := by
  have hlen : r.flatten.length = 8 + f.body.length + rest.length := by
    rw [hr, encodeFrame_eq, length_append, length_append, frameHeader_length, frameHeaderSize]
  have hhdr : frameHeaderSize ≤ r.flatten.length := by rw [hlen, frameHeaderSize]; omega
  obtain ⟨r₁, hr₁, hread₁⟩ := readFull_ok hhdr
  rw [hr, encodeFrame_eq, append_assoc, drop_left' (frameHeader_length f)] at hr₁
  rw [hr, encodeFrame_eq, append_assoc, take_left' (frameHeader_length f)] at hread₁
  have hbody : f.body.length ≤ r₁.flatten.length := by rw [hr₁, length_append]; omega
  obtain ⟨r₂, hr₂, hread₂⟩ := readFull_ok hbody
  rw [hr₁, drop_left] at hr₂
  rw [hr₁, take_left] at hread₂
  obtain ⟨hsize, hpts⟩ := slice_frameHeader hf.length_lt
  refine ⟨f.body ++ (if dst.length < f.body.length then replicate f.body.length 0
    else dst).drop f.body.length, r₂, hr₂, ?_⟩
  simp only [readFrame, hread₁, hsize, hpts, Nat.not_lt.mpr hf, if_false, hread₂, take_left, UInt32.ofNat_toNat]

theorem eq_encodeFrame_of_readFrame (h : readFrame r dst = (.ok f, dst', r')) :
    Fits f ∧ r.flatten = encodeFrame f ++ r'.flatten := by
  by_cases hhdr : frameHeaderSize ≤ r.flatten.length
  · obtain ⟨r₁, hr₁, hread₁⟩ := readFull_ok hhdr
    have hhdrl := length_take_of_le hhdr
    generalize hdreq : r.flatten.take frameHeaderSize = hdr at *
    by_cases hbig : maxFrameSize < beDecode (slice hdr 0 4)
    · simp [readFrame, hread₁, hbig] at h
    by_cases hbody : beDecode (slice hdr 0 4) ≤ r₁.flatten.length
    · obtain ⟨r₂, hr₂, hread₂⟩ := readFull_ok hbody
      have hbodyl := length_take_of_le hbody
      simp only [readFrame, hread₁, hbig, if_false, hread₂, take_left' hbodyl, Prod.mk.injEq, Except.ok.injEq] at h
      obtain ⟨rfl, -, rfl⟩ := h
      refine ⟨?_, ?_⟩
      · rw [Fits, hbodyl]
        exact Nat.not_lt.mp hbig
      · rw [encodeFrame_eq, ← eq_frameHeader hhdrl hbodyl, append_assoc, hr₂,
          take_append_drop, hr₁, ← hdreq, take_append_drop]
    · obtain ⟨r₂, hread₂⟩ := readFull_error (Nat.not_le.mp hbody)
      simp [readFrame, hread₁, hbig, hread₂] at h
  · obtain ⟨r₁, hread₁⟩ := readFull_error (Nat.not_le.mp hhdr)
    simp [readFrame, hread₁] at h

theorem readFrame_length_lt (h : readFrame r dst = (.ok f, dst', r')) :
    r'.flatten.length < r.flatten.length := by
  rw [(eq_encodeFrame_of_readFrame h).2, encodeFrame_eq, length_append, length_append,
    frameHeader_length, frameHeaderSize]
  omega

variable (dst) in
theorem readFrame_nil (hr : r.flatten = []) : ∃ r', readFrame r dst = (.error .eof, dst, r') := by
  have hshr : r.flatten.length < frameHeaderSize := by rw [hr]; decide
  obtain ⟨r', hread⟩ := readFull_error hshr
  exact ⟨r', by simp [readFrame, hread, hr, readError]⟩

variable (dst) in
theorem readFrame_header (hf : Fits f) (hbody : f.body ≠ []) (hr : r.flatten = frameHeader f) :
    ∃ dst' r', readFrame r dst = (.error .eof, dst', r') := by
  have hhdr : frameHeaderSize ≤ r.flatten.length := by rw [hr, frameHeader_length]
  obtain ⟨r₁, hr₁, hread₁⟩ := readFull_ok hhdr
  rw [hr, drop_eq_nil_of_le (by simp)] at hr₁
  rw [hr, take_of_length_le (by simp)] at hread₁
  have hshr : r₁.flatten.length < f.body.length := by
    rw [hr₁]
    exact length_pos_iff.mpr hbody
  obtain ⟨r₂, hread₂⟩ := readFull_error hshr
  obtain ⟨hsize, -⟩ := slice_frameHeader hf.length_lt
  refine ⟨if dst.length < f.body.length then replicate f.body.length 0 else dst, r₂, ?_⟩
  simp only [readFrame, hread₁, hsize, Nat.not_lt.mpr hf, if_false, hread₂, hr₁, isEmpty_nil, if_true, readError]

theorem flatten_of_readFrame_eof {e : Error} (h : readFrame r dst = (.error e, dst', r')) (heof : e.isEOF = true) :
    r.flatten = [] ∨ ∃ f, Fits f ∧ f.body ≠ [] ∧ r.flatten = frameHeader f := by
  by_cases hhdr : frameHeaderSize ≤ r.flatten.length
  · obtain ⟨r₁, hr₁, hread₁⟩ := readFull_ok hhdr
    have hhdrl := length_take_of_le hhdr
    generalize hdreq : r.flatten.take frameHeaderSize = hdr at *
    by_cases hbig : maxFrameSize < beDecode (slice hdr 0 4)
    · simp only [readFrame, hread₁, hbig, if_true, Prod.mk.injEq, Except.error.injEq] at h
      rw [← h.1] at heof
      cases heof
    by_cases hbody : beDecode (slice hdr 0 4) ≤ r₁.flatten.length
    · obtain ⟨r₂, hr₂, hread₂⟩ := readFull_ok hbody
      simp [readFrame, hread₁, hbig, hread₂] at h
    obtain ⟨r₂, hread₂⟩ := readFull_error (Nat.not_le.mp hbody)
    have hnone : r₁.flatten = [] := by
      by_contra hsome
      have hfalse : r₁.flatten.isEmpty = false := by simpa using hsome
      simp only [readFrame, hread₁, hbig, if_false, hread₂, hfalse, Prod.mk.injEq, Except.error.injEq] at h
      rw [← h.1] at heof
      cases heof
    refine .inr ⟨⟨ofNat (beDecode (slice hdr 4 8)), replicate (beDecode (slice hdr 0 4)) 0⟩, ?_, ?_, ?_⟩
    · rw [Fits, length_replicate]
      exact Nat.not_lt.mp hbig
    · rw [hnone] at hbody
      simpa using hbody
    · rw [hnone] at hr₁
      rw [← eq_frameHeader hhdrl (length_replicate ..), ← hdreq, take_of_length_le (drop_eq_nil_iff.mp hr₁.symm)]
  · left
    obtain ⟨r', hread⟩ := readFull_error (Nat.not_le.mp hhdr)
    by_contra hsome
    have hfalse : r.flatten.isEmpty = false := by simpa using hsome
    simp only [readFrame, hread, hfalse, Prod.mk.injEq, Except.error.injEq] at h
    rw [← h.1] at heof
    cases heof

variable (dst) in
theorem readFrame_partial {missing : Bytes} (hf : f.body.length < 256^4) (hne : r.flatten ≠ [])
    (hmis : missing ≠ []) (hr : r.flatten ++ missing = encodeFrame f) :
    ∃ e dst' r', readFrame r dst = (.error e, dst', r') ∧ (e.isEOF = true → Fits f ∧ r.flatten = frameHeader f) := by
  -- two frames whose headers stand at the front of one stream
  have hsame : ∀ {g : Frame} {rest : Bytes}, Fits g → frameHeader g ++ rest = encodeFrame f →
      frameHeader g = frameHeader f ∧ g.body.length = f.body.length := by
    intro g rest hg heq
    have hhead : frameHeader g = frameHeader f := (append_inj (heq.trans (encodeFrame_eq f)) (by simp)).1
    refine ⟨hhead, ?_⟩
    rw [← (slice_frameHeader hg.length_lt).1, hhead, (slice_frameHeader hf).1]
  cases hread : readFrame r dst with
  | mk result rest =>
    obtain ⟨dst', r'⟩ := rest
    cases result with
    | ok =>
      obtain ⟨hg, heq⟩ := eq_encodeFrame_of_readFrame hread
      rw [heq, encodeFrame_eq, append_assoc, append_assoc] at hr
      obtain ⟨-, hlen⟩ := hsame hg hr
      have htot := congrArg length hr
      simp only [encodeFrame_eq, length_append, frameHeader_length] at htot
      exact absurd (length_eq_zero_iff.mp (by omega)) hmis
    | error e =>
      refine ⟨e, dst', r', rfl, ?_⟩
      intro heof
      obtain hnil | ⟨g, hg, -, heq⟩ := flatten_of_readFrame_eof hread heof
      · exact absurd hnil hne
      rw [heq] at hr
      obtain ⟨hhead, hlen⟩ := hsame hg hr
      refine ⟨?_, heq.trans hhead⟩
      rwa [Fits, ← hlen]

end

/-! ### Handlers -/

/-- `accept` and `write` are the errors of opening it with a format, and of a write after those made
before. -/
structure Sink (φ : Type) where
  accept : φ → Option String
  write : List Bytes → Bytes → Option String

inductive Outcome
  | returned (frames : ℕ) (err : Option Error)
  | panicked
deriving DecidableEq

structure Copied where
  written : List Bytes
  outcome : Outcome
deriving DecidableEq

def copyFrames (write : List Bytes → Bytes → Option String) (r : Stream) (work : Bytes)
    (frameCount : ℕ) (written : List Bytes) : Copied :=
  match _h : readFrame r work with
  | (.error err, _, _) =>
    if err.isEOF then ⟨written, .returned frameCount none⟩
    else ⟨written, .returned frameCount (some (.wrap ("read frame " ++ toString frameCount ++ ": ") err))⟩
  | (.ok frame, next, r') =>
    match write written frame.body with
    | some msg => ⟨written, .returned frameCount
        (some (.wrap ("write frame " ++ toString frameCount ++ ": ") (.sink msg)))⟩
    | none => copyFrames write r' next (frameCount+1) (written ++ [frame.body])
termination_by r.flatten.length
decreasing_by exact readFrame_length_lt _h

def maxAlloc : ℤ := 2^48

def InRange (cap : ℤ) : Prop := 0 ≤ cap ∧ cap ≤ maxAlloc

instance (cap : ℤ) : Decidable (InRange cap) := inferInstanceAs (Decidable (_ ∧ _))

/-- `make([]byte, 0, cap)`, the array behind it; it panics if the capacity is out of range. -/
def makeSlice (cap : ℤ) : Option Bytes :=
  if InRange cap then some (replicate cap.toNat 0) else none

/-- One connection: the init header, the sink, and a working buffer for the loop. -/
def handle {φ : Type} (magic : Bytes) (initText openText : String) (parse : Bytes → φ)
    (capacity : φ → ℤ) (sink : Sink φ) (r : Stream) : Copied :=
  match readInit magic r with
  | (.error err, _) => ⟨[], .returned 0 (some (.wrap initText err))⟩
  | (.ok buf, r) =>
    match sink.accept (parse buf) with
    | some msg => ⟨[], .returned 0 (some (.wrap openText (.sink msg)))⟩
    | none =>
      match makeSlice (capacity (parse buf)) with
      | none => ⟨[], .panicked⟩
      | some work => copyFrames sink.write r work 0 []

def int64 (x : ℤ) : ℤ := Int.bmod x (2^64)

def frameCapacity (v : VideoInit) : ℤ := Int.tdiv (int64 (int64 (v.width*v.height) * 3)) 2

def handleVideo (device : String) (sink : Sink VideoInit) (r : Stream) : Copied :=
  handle magicVideo "video init: " ("open v4l2 " ++ device ++ ": ") videoInit frameCapacity sink r

def handleAudio (quote : String → String) (pulseSink : String) (sink : Sink AudioInit) (r : Stream) : Copied :=
  handle magicAudio "audio init: " ("open pulse " ++ quote pulseSink ++ ": ") audioInit (fun _ => 4096) sink r

end Chromeless.Passthrough
