import Chromeless.UploadReceiver

/-! The objects that `client/src/file-upload.ts` sends on the files channel, and what the receiver
reads in them. -/
namespace Chromeless.Uploads
open Json Option

def doubleBits (n : ℕ) : UInt64 :=
  ((1023 + n.log2)*2^52 + (n*2^(52 - n.log2) - 2^52)).toUInt64

/-- What the reader makes of a whole number: an `int` where it fits. -/
def numberDatum (n : ℕ) : Datum := if n < 2^31 then .integer n else .double (doubleBits n)

/-- `FileUploadStartData`, `FileUploadChunkData`, `FileUploadEndData` and the object that `cancel`
sends. -/
inductive Envelope
  | start (uploadId name mimeType : Bytes) (size : ℕ) (sha256 : Bytes) (targetSelector : Option Bytes)
  | chunk (uploadId : Bytes) (seq : ℕ) (data : Bytes)
  | finish (uploadId : Bytes)
  | cancel (uploadId : Bytes)
deriving DecidableEq

namespace Envelope

def uploadId : Envelope → Bytes
  | start id _ _ _ _ _ | chunk id _ _ | finish id | cancel id => id

def type : Envelope → Bytes
  | start .. => ascii "file_upload_start"
  | chunk .. => ascii "file_upload_chunk"
  | finish _ => ascii "file_upload_end"
  | cancel _ => ascii "file_upload_cancel"

def fields : Envelope → Dict
  | start _ name mime size sha target =>
    [(ascii "name", .string name), (ascii "mime_type", .string mime),
      (ascii "size", numberDatum size), (ascii "sha256", .string sha)] ++
    (target.map fun selector => (ascii "target_selector", Datum.string selector)).toList
  | chunk _ seq data => [(ascii "seq", numberDatum seq), (ascii "data", .string data)]
  | finish _ | cancel _ => []

def object (env : Envelope) : Dict :=
  [(ascii "v", .integer kProtocolVersion), (ascii "type", .string env.type),
    (ascii "upload_id", .string env.uploadId)] ++ env.fields

end Envelope

theorem readRequest_start (id name mime : Bytes) {size : ℕ} (hsize : size < 2^31) (sha : Bytes)
    (target : Option Bytes) :
    readRequest (Envelope.start id name mime size sha target).object = some (.start (safeId id) name sha size) := by
  have hnum : numberDatum size = .integer size := if_pos hsize
  have htrunc : truncate ((size : ℤ) : ℚ) = size := by
    have hnonn : (0 : ℚ) ≤ ((size : ℤ) : ℚ) := by exact_mod_cast Int.natCast_nonneg size
    rw [truncate, if_pos hnonn, Rat.floor_intCast]
  have hread : readRequest (Envelope.start id name mime size sha target).object =
      (numberDatum size).getIfDouble.bind fun x => some (.start (safeId id) name sha (truncate x)) :=
    rfl
  rw [hread, hnum]
  exact congrArg (fun n => some (Request.start (safeId id) name sha n)) htrunc

theorem readRequest_chunk (id : Bytes) {seq : ℕ} (hseq : seq < 2^31) (data : Bytes) :
    readRequest (Envelope.chunk id seq data).object = some (.chunk (safeId id) data seq) := by
  have hread : readRequest (Envelope.chunk id seq data).object =
      (numberDatum seq).getIfInt.bind fun n => some (.chunk (safeId id) data n) := rfl
  have hnum : numberDatum seq = .integer seq := if_pos hseq
  rw [hread, hnum]
  rfl

theorem readRequest_chunk_of_le (id : Bytes) {seq : ℕ} (hseq : 2^31 ≤ seq) (data : Bytes) :
    readRequest (Envelope.chunk id seq data).object = none := by
  have hread : readRequest (Envelope.chunk id seq data).object =
      (numberDatum seq).getIfInt.bind fun n => some (.chunk (safeId id) data n) := rfl
  have hnum : numberDatum seq = .double (doubleBits seq) := if_neg (Nat.not_lt.mpr hseq)
  rw [hread, hnum]
  rfl

theorem readRequest_uploadId {d : Dict} {r : Request} (h : readRequest d = some r) :
    ∃ id, d.findString (ascii "upload_id") = some id ∧ r.uploadId = safeId id := by
  unfold readRequest at h
  simp only [bind_eq_bind, bind_eq_some_iff] at h
  obtain ⟨v, -, type, -, h⟩ := h
  split at h
  · cases h
  split at h
  · simp only [bind_eq_some_iff, Option.some.injEq] at h
    obtain ⟨id, hid, name, -, sha, -, size, -, rfl⟩ := h
    exact ⟨id, hid, rfl⟩
  split at h
  · simp only [bind_eq_some_iff, Option.some.injEq] at h
    obtain ⟨id, hid, b64, -, seq, -, rfl⟩ := h
    exact ⟨id, hid, rfl⟩
  split_ifs at h
  all_goals
    simp only [bind_eq_some_iff, Option.some.injEq] at h
    obtain ⟨id, hid, rfl⟩ := h
    exact ⟨id, hid, rfl⟩

theorem readRequest_object {env : Envelope} {r : Request} (h : readRequest env.object = some r) :
    r.uploadId = safeId env.uploadId := by
  obtain ⟨id, hid, hr⟩ := readRequest_uploadId h
  have hobj : env.object.findString (ascii "upload_id") = some env.uploadId := rfl
  rw [hr, Option.some.inj (hobj.symm.trans hid)]

theorem readRequest_finish (id : Bytes) :
    readRequest (Envelope.finish id).object = some (.finish (safeId id)) := rfl

end Chromeless.Uploads
