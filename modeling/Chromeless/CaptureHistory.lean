import Chromeless.CaptureMoves
import Chromeless.LibHistory

/-! What the history of a driver says about its current arm. -/
namespace Chromeless.Capture
open Json History Event

def Event.rearms : Event → Bool
  | .rearmed => true
  | _ => false

def Event.offers : Event → Bool
  | .handed env => env.type = .offer
  | _ => false

def Event.answer : Event → Option (ℕ × Bytes)
  | .envelope n env => if env.type = .answer then env.answerSdp.map fun sdp => (n, sdp) else none
  | _ => none

def Event.appliesAnswer : Event → Bool
  | .issued _ (.setRemoteDescription _ _) => true
  | _ => false

def offersMade (log : List Event) : ℕ := (sinceLast rearms log).countP offers

/-- For each answer in a stretch that begins after `k` offers: the offers made by then, the number
of its envelope and its SDP. -/
def answersIn : ℕ → List Event → List (ℕ × ℕ × Bytes)
  | _, [] => []
  | k, e :: es => (e.answer.map fun p => (k, p)).toList ++ answersIn (if e.offers then k + 1 else k) es

def answers (log : List Event) : List (ℕ × ℕ × Bytes) :=
  answersIn 0 (sinceLast rearms log)

theorem answersIn_append (k : ℕ) (es fs : List Event) :
    answersIn k (es ++ fs) = answersIn k es ++ answersIn (k + es.countP offers) fs := by
  induction es generalizing k with
  | nil => simp [answersIn]
  | cons e es ih =>
    have hcnt : (if e.offers then k + 1 else k) + es.countP offers = k + (e :: es).countP offers := by
      rw [List.countP_cons]
      split <;> omega
    simp [answersIn, ih, hcnt]

variable {e : Event}

theorem offersMade_concat (log : List Event) (he : e.rearms = false) :
    offersMade (log ++ [e]) = offersMade log + if e.offers then 1 else 0 := by
  rw [offersMade, sinceLast_append _ (by simpa using he), List.countP_append, List.countP_singleton]
  rfl

theorem answers_concat (log : List Event) (he : e.rearms = false) :
    answers (log ++ [e]) = answers log ++ (e.answer.map fun p => (offersMade log, p)).toList := by
  rw [answers, sinceLast_append _ (by simpa using he), answersIn_append, Nat.zero_add]
  simp [answersIn, answers, offersMade]

theorem Event.aside_rearms (he : e.aside = true) : e.rearms = false := by
  cases e <;> simp [aside, rearms] at he ⊢

theorem Event.aside_offers (he : e.aside = true) : e.offers = false := by
  cases e <;> simp_all [aside, offers]

theorem Event.aside_applies (he : e.aside = true) : e.appliesAnswer = false := by
  cases e <;> simp [aside, appliesAnswer] at he ⊢

end Chromeless.Capture
