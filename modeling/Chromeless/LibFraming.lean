import Mathlib.Data.List.Basic
import Mathlib.Data.List.TakeWhile

/-! Messages that are cut into pieces: the sizes of the pieces travel on one stream, their
contents one behind the other on a second. -/
namespace Chromeless.Framing
open List

variable {β : Type*}

/-- A piece as it is announced. `fin` marks the last piece of a message. -/
structure Piece where
  fin : Bool
  size : ℕ
deriving DecidableEq

/-- The messages that the announced pieces make of `data`, when `acc` has been read already. -/
def joined : List Piece → List β → List β → List (List β)
  | [], _, _ => []
  | p :: ps, acc, data =>
    if p.fin then (acc ++ data.take p.size) :: joined ps [] (data.drop p.size)
    else joined ps (acc ++ data.take p.size) (data.drop p.size)

theorem joined_part (p : Piece) (ps : List Piece) (acc data : List β) {n : ℕ} (hsize : n ≤ p.size) :
    joined (p :: ps) acc data = joined ({ p with size := p.size - n } :: ps) (acc ++ data.take n) (data.drop n) := by
  have htake : data.take p.size = data.take n ++ (data.drop n).take (p.size - n) := by
    conv_lhs => rw [← Nat.add_sub_of_le hsize, take_add]
  have hdrop : data.drop p.size = (data.drop n).drop (p.size - n) := by rw [drop_drop, Nat.add_sub_of_le hsize]
  simp [joined, htake, hdrop]

theorem le_length_of_joined {p : Piece} {ps : List Piece} {acc data msg : List β}
    {msgs : List (List β)} (h : joined (p :: ps) acc data = msg :: msgs) :
    acc.length + min p.size data.length ≤ msg.length := by
  induction ps generalizing p acc data with
  | nil =>
    rw [joined] at h
    split at h
    · obtain ⟨rfl, -⟩ := cons_eq_cons.mp h
      simp
    · simp [joined] at h
  | cons q ps ih =>
    rw [joined] at h
    split at h
    · obtain ⟨rfl, -⟩ := cons_eq_cons.mp h
      simp
    have hle := ih h
    simp only [length_append, length_take] at hle
    omega

/-- The announcement of a message that is sent in the given parts. -/
def pieces : List (List β) → List Piece
  | [] => []
  | [part] => [⟨true, part.length⟩]
  | part :: parts => ⟨false, part.length⟩ :: pieces parts

theorem joined_pieces {parts : List (List β)} (hne : parts ≠ []) (ps : List Piece) (acc data : List β) :
    joined (pieces parts ++ ps) acc (parts.flatten ++ data) = (acc ++ parts.flatten) :: joined ps [] data := by
  induction parts generalizing acc with
  | nil => exact absurd rfl hne
  | cons part parts ih =>
    cases parts with
    | nil => simp [pieces, joined]
    | cons =>
      have hrest := ih (by simp) (acc ++ part)
      simp only [pieces, cons_append, joined, Bool.false_eq_true, ↓reduceIte,
        flatten_cons, append_assoc, take_left, drop_left]
      simpa [append_assoc] using hrest

theorem joined_messages (msgs : List (List (List β))) (hne : ∀ parts ∈ msgs, parts ≠ []) :
    joined (msgs.flatMap pieces) [] (msgs.flatMap flatten) = msgs.map flatten := by
  induction msgs with
  | nil => rfl
  | cons parts msgs ih =>
    rw [flatMap_cons, flatMap_cons, joined_pieces (hne parts mem_cons_self),
      ih fun parts h => hne parts (mem_cons_of_mem _ h)]
    rfl

def upTo (ok : β → Bool) : List β → List β
  | [] => []
  | b :: bs => if ok b then b :: upTo ok bs else [b]

variable {ok : β → Bool} {good : List β}

section
variable (hgood : ∀ b ∈ good, ok b = true)
include hgood

theorem upTo_append (rest : List β) :
    upTo ok (good ++ rest) = good ++ upTo ok rest := by
  induction good with
  | nil => rfl
  | cons b good ih =>
    have hb := hgood b mem_cons_self
    rw [cons_append, upTo, if_pos hb, ih fun x h => hgood x (mem_cons_of_mem b h), cons_append]

theorem upTo_bad {bad : β} (hbad : ok bad = false) (rest : List β) :
    upTo ok (good ++ bad :: rest) = good ++ [bad] := by
  rw [upTo_append hgood, upTo, if_neg (by simp [hbad])]

theorem upTo_eq_self : upTo ok good = good := by
  simpa [upTo] using upTo_append hgood []

end

theorem upTo_cons (ok : β → Bool) (b : β) (bs : List β) :
    ∃ more, upTo ok (b :: bs) = b :: more := by
  rw [upTo]
  split
  · exact ⟨_, rfl⟩
  · exact ⟨[], rfl⟩

end Chromeless.Framing
