import Chromeless.LibRuns

/-! Activities taking turns on one state: none acts while another is busy. -/
namespace Chromeless.Turns

variable {σ α κ : Type*}

/-- A state with the activity that is under way in it. -/
structure Taken (σ κ : Type*) where
  running : Option κ
  state : σ

variable (step : σ → α → σ) (key : α → Option κ) (busy : σ → κ → Bool)

def turn (t : Taken σ κ) (a : α) : Taken σ κ where
  running :=
    match key a with
    | some k => if busy (step t.state a) k then some k else none
    | none => t.running
  state := step t.state a

def inTurn [DecidableEq κ] (t : Taken σ κ) (a : α) : Bool :=
  match key a, t.running with
  | some k, some k' => decide (k = k')
  | _, _ => true

/-- Nothing is busy but what is under way. -/
def Quiet (t : Taken σ κ) : Prop := ∀ k, t.running ≠ some k → busy t.state k = false

theorem run_state (t : Taken σ κ) (as : List α) :
    (Runs.run (turn step key busy) t as).state = Runs.run step t.state as := by
  induction as generalizing t with
  | nil => rfl
  | cons a as ih => exact ih _

variable [DecidableEq κ] {step key busy} {t : Taken σ κ} {a : α}

theorem Quiet.others (ht : Quiet busy t) (ha : inTurn key t a = true) {k k' : κ}
    (hk : key a = some k) (hne : k' ≠ k) : busy t.state k' = false := by
  apply ht
  intro hrun
  simp only [inTurn, hk, hrun, decide_eq_true_eq] at ha
  exact hne ha.symm

theorem Quiet.turn (hloc : ∀ s a k, key a ≠ some k → busy (step s a) k = busy s k)
    (ht : Quiet busy t) (ha : inTurn key t a = true) : Quiet busy (turn step key busy t a) := by
  intro k' hrun
  cases hk : key a with
  | none =>
    simp only [Turns.turn, hk] at hrun ⊢
    rw [hloc _ _ _ (by simp [hk])]
    exact ht k' hrun
  | some k =>
    by_cases hne : k' = k
    · subst hne
      simp only [Turns.turn, hk] at hrun ⊢
      by_contra hbusy
      rw [Bool.not_eq_false] at hbusy
      exact hrun (by simp [hbusy])
    · have hsame := hloc t.state a k' (by simpa [hk] using fun h => hne h.symm)
      exact hsame.trans (ht.others ha hk hne)

end Chromeless.Turns
