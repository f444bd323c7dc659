import Mathlib.Data.List.Sort
import Mathlib.Data.Int.Order.Basic

/-! The pairs of keystrokes and frames from which input latency is taken (`harness/input-latency/reconcile.py`). -/
namespace Chromeless.InputLatency
open List

/-- `id` is the one that the code of the keystroke shows. -/
structure Keystroke where
  camEpochMs : ℤ
  id : ℕ

structure ResponseFrame where
  camEpochMs : ℤ
  keystrokeId : ℕ

structure Pair where
  keystroke : Keystroke
  response : ResponseFrame
  latencyMs : ℤ

/-- Frames before the keystroke are skipped for good, and a frame is used once. -/
def pairs (window : ℤ) : List Keystroke → List ResponseFrame → List Pair
  | k :: ks, f :: frames =>
    if f.camEpochMs < k.camEpochMs then pairs window (k :: ks) frames
    else if window < f.camEpochMs - k.camEpochMs then pairs window ks (f :: frames)
    else ⟨k, f, f.camEpochMs - k.camEpochMs⟩ :: pairs window ks frames
  | _, _ => []
termination_by ks frames => ks.length + frames.length

def sortBy {α : Type*} (key : α → ℤ) : List α → List α := insertionSort (key · ≤ key ·)

def reconcile (window : ℤ) (keystrokes : List Keystroke) (frames : List ResponseFrame) : List Pair :=
  pairs window (sortBy Keystroke.camEpochMs keystrokes) (sortBy ResponseFrame.camEpochMs frames)

/-- Every keystroke has a code of its own that is shown after it. A frame at or after it with another code comes
after one with its code. -/
structure Fresh (ks : List Keystroke) (frames : List ResponseFrame) : Prop where
  ids : (ks.map Keystroke.id).Nodup
  shown : ∀ k ∈ ks, ∀ f ∈ frames, f.keystrokeId = k.id → k.camEpochMs ≤ f.camEpochMs
  fresh : ∀ k ∈ ks, ∀ f ∈ frames, k.camEpochMs ≤ f.camEpochMs → f.keystrokeId ≠ k.id →
    ∃ g ∈ frames, g.keystrokeId = k.id ∧ g.camEpochMs < f.camEpochMs

/-- A keystroke is joined to the earliest frame that shows its code, if that is within the window. -/
structure Joined (window : ℤ) (ks : List Keystroke) (frames : List ResponseFrame) (ps : List Pair) : Prop where
  own : ∀ p ∈ ps, p.keystroke ∈ ks ∧ p.response ∈ frames ∧ p.response.keystrokeId = p.keystroke.id ∧
    (∀ g ∈ frames, g.keystrokeId = p.keystroke.id → p.response.camEpochMs ≤ g.camEpochMs) ∧
    p.latencyMs = p.response.camEpochMs - p.keystroke.camEpochMs
  all : ∀ k ∈ ks, ∀ f ∈ frames, f.keystrokeId = k.id → f.camEpochMs - k.camEpochMs ≤ window →
    ∃ p ∈ ps, p.keystroke = k

variable {window : ℤ} {ks : List Keystroke} {frames : List ResponseFrame} {k : Keystroke} {f : ResponseFrame}
  {ps : List Pair}

theorem Fresh.of_cons (h : Fresh (k :: ks) frames) : Fresh ks frames :=
  ⟨h.ids.of_cons, fun _ hk => h.shown _ (mem_cons_of_mem k hk), fun _ hk => h.fresh _ (mem_cons_of_mem k hk)⟩

theorem Fresh.tail (h : Fresh ks (f :: frames)) (hf : ∀ k ∈ ks, f.keystrokeId ≠ k.id) : Fresh ks frames := by
  obtain ⟨hids, hshown, hfresh⟩ := h
  refine ⟨hids, by grind, fun k hk g hg hle hne => ?_⟩
  obtain ⟨f', hf', hid, hlt⟩ := hfresh k hk g (mem_cons_of_mem f hg) hle hne
  grind

theorem Joined.cons (h : Joined window ks frames ps) (hf : ∀ k ∈ ks, f.keystrokeId ≠ k.id) :
    Joined window ks (f :: frames) ps := by
  obtain ⟨hown, hall⟩ := h
  constructor <;> grind

theorem pairs_joined (hks : ks.Pairwise (·.camEpochMs ≤ ·.camEpochMs))
    (hframes : frames.Pairwise (·.camEpochMs ≤ ·.camEpochMs)) (h : Fresh ks frames) :
    Joined window ks frames (pairs window ks frames) := by
  fun_induction pairs window ks frames with
  | case1 k ks f frames hskip ih =>
    have hfirst := (pairwise_cons.mp hks).1
    have hf : ∀ k' ∈ k :: ks, f.keystrokeId ≠ k'.id := by
      intro k' hk' hid
      grind [h.shown k' hk' f mem_cons_self hid]
    exact (ih hks hframes.of_cons (h.tail hf)).cons hf
  | case2 k ks f frames hle hlate ih =>
    obtain ⟨hown, hall⟩ := ih hks.of_cons hframes h.of_cons
    have hfirst := (pairwise_cons.mp hframes).1
    constructor <;> grind
  | case3 k ks f frames hle hin ih =>
    have hfirst := (pairwise_cons.mp hframes).1
    have hid : f.keystrokeId = k.id := by
      by_contra hne
      grind [h.fresh k mem_cons_self f mem_cons_self (not_lt.mp hle) hne]
    have hf : ∀ k' ∈ ks, f.keystrokeId ≠ k'.id := by
      have := h.ids
      grind
    obtain ⟨hown, hall⟩ := (ih hks.of_cons hframes.of_cons (h.of_cons.tail hf)).cons hf
    constructor <;> simp only [mem_cons] <;> grind
  | case4 ks frames hnil => cases ks <;> cases frames <;> constructor <;> grind

/-- Whatever the codes show, no keystroke and no frame is used twice. -/
theorem pairs_in_order : (pairs window ks frames).map Pair.keystroke <+ ks ∧
    (pairs window ks frames).map Pair.response <+ frames ∧
      ∀ p ∈ pairs window ks frames, 0 ≤ p.latencyMs ∧ p.latencyMs ≤ window := by
  fun_induction pairs window ks frames with
  | case1 _ _ f _ _ ih => exact ⟨ih.1, ih.2.1.cons f, ih.2.2⟩
  | case2 k _ _ _ _ _ ih => exact ⟨ih.1.cons k, ih.2⟩
  | case3 k _ f _ _ _ ih =>
    refine ⟨ih.1.cons_cons k, ih.2.1.cons_cons f, forall_mem_cons.mpr ⟨?_, ih.2.2⟩⟩
    dsimp only
    omega
  | case4 => simp

theorem sortBy_sorted {α : Type*} (key : α → ℤ) (as : List α) : (sortBy key as).Pairwise (key · ≤ key ·) :=
  have : Std.Total (fun a b => key a ≤ key b) := ⟨by grind⟩
  have : IsTrans α (fun a b => key a ≤ key b) := ⟨by grind⟩
  pairwise_insertionSort _ as

theorem mem_sortBy {α : Type*} {key : α → ℤ} {as : List α} {a : α} : a ∈ sortBy key as ↔ a ∈ as :=
  mem_insertionSort _

end Chromeless.InputLatency
