import Chromeless.LibRuns
import Mathlib.Data.Nat.Notation

/-! Which frame an encoded image is told to be (`h264_encoder.cc`, `vp9_encoder.cc`, `svtav1_encoder.cc`), while the
frames keep their size. -/
namespace Chromeless.Encoded
open Runs

variable {φ : Type*}

inductive Codec
  | h264
  | vp9
  | av1
deriving DecidableEq

/-- A frame is what its image takes from it: RTP timestamp, capture time, rotation. `held` are the frames whose
packets the codec has not made available, `available` those whose packets are not fetched, and `delivered` are the
images' own frames beside those that they name. -/
structure Encoder (φ : Type*) where
  held : List φ := []
  available : List φ := []
  delivered : List (φ × φ) := []

/-- The packets that the codec makes available in a call, `packets` if it holds so many frames. -/
def Encoder.released (s : Encoder φ) (frame : φ) (packets : ℕ) : List φ := (s.held ++ [frame]).take packets

/-- VP9 fetches all packets, the others one; an image names the frame of the call. -/
def encode (c : Codec) (s : Encoder φ) : φ × ℕ → Encoder φ
  | (frame, packets) =>
    let available := s.available ++ s.released frame packets
    let fetched := if c = .vp9 then available.length else 1
    { held := (s.held ++ [frame]).drop packets
      available := available.drop fetched
      delivered := s.delivered ++ (available.take fetched).map fun own => (own, frame) }

def Encoder.Good (s : Encoder φ) : Prop := s.available = [] ∧ ∀ image ∈ s.delivered, image.1 = image.2

/-- A call makes packets of its own frame available only, and no more than are fetched. -/
def Prompt (c : Codec) (s : Encoder φ) : φ × ℕ → Prop
  | (frame, packets) =>
    (∀ own ∈ s.released frame packets, own = frame) ∧ (c = .vp9 ∨ (s.released frame packets).length ≤ 1)

theorem good_encode_iff (c : Codec) (s : Encoder φ) (e : φ × ℕ) (h : s.Good) : (encode c s e).Good ↔ Prompt c s e := by
  obtain ⟨frame, packets⟩ := e
  obtain ⟨hnone, hown⟩ := h
  simp only [encode, Prompt, Encoder.Good, hnone, List.nil_append, List.forall_mem_append, List.forall_mem_map]
  generalize s.released frame packets = l
  by_cases hc : c = .vp9
  · simpa [hc] using fun _ => hown
  match l with
  | [] => simpa [hc] using hown
  | [own] => simpa [hc] using fun _ => hown
  | _ :: _ :: _ => simp [hc]

/-- Images name their frames and no packet stays behind exactly if every call is prompt. -/
theorem images_own_iff (c : Codec) (es : List (φ × ℕ)) :
    (∀ as bs, es = as ++ bs → (run (encode c) {} as).Good) ↔ Meets (encode c) (Prompt c) {} es := by
  constructor
  · intro h
    rw [meets_iff]
    rintro bs e cs rfl
    rw [← good_encode_iff c _ e (h bs _ rfl)]
    simpa [run_append] using h (bs ++ [e]) cs (by simp)
  · rintro h as bs rfl
    exact invariant_run_meets (encode c) (Prompt c) Encoder.Good (fun s e hok hs => (good_encode_iff c s e hs).mpr hok)
      ⟨rfl, nofun⟩ ((meets_append ..).mp h).1

/-- A codec that holds its first frame back for a call; two packets at once. -/
theorem images_misattributed :
    (∀ c, (run (encode c) {} [(1, 0), (2, 1), (3, 1)]).delivered = [(1, 2), (2, 3)]) ∧
      (run (encode .av1) {} [(1, 0), (2, 2)]).available = [2] := by
  refine ⟨fun c => ?_, rfl⟩
  cases c <;> rfl

end Chromeless.Encoded
