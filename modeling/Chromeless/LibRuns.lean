import Mathlib.Data.List.Basic
import Mathlib.Logic.Relation

/-! Runs of a state machine under an arbitrary schedule. An action that is not enabled leaves the
state alone. -/
namespace Chromeless.Runs

variable {σ α : Type*} (step : σ → α → σ)

def run (s : σ) (as : List α) : σ := as.foldl step s

@[simp] theorem run_nil (s : σ) : run step s [] = s := rfl

@[simp] theorem run_cons (s : σ) (a : α) (as : List α) :
    run step s (a :: as) = run step (step s a) as := rfl

theorem run_append (s : σ) (as bs : List α) :
    run step s (as ++ bs) = run step (run step s as) bs := by
  simp [run]

/-- Every action of the schedule meets `ok` in the state it is taken from. -/
def Meets (ok : σ → α → Prop) : σ → List α → Prop
  | _, [] => True
  | s, a :: as => ok s a ∧ Meets ok (step s a) as

instance decidableMeets (ok : σ → α → Prop) [∀ s a, Decidable (ok s a)] :
    ∀ s as, Decidable (Meets step ok s as)
  | _, [] => inferInstanceAs (Decidable True)
  | s, a :: as =>
    have := decidableMeets ok (step s a) as
    inferInstanceAs (Decidable (ok s a ∧ Meets step ok (step s a) as))

variable (ok : σ → α → Prop)

theorem meets_append (s : σ) (as bs : List α) :
    Meets step ok s (as ++ bs) ↔ Meets step ok s as ∧ Meets step ok (run step s as) bs := by
  induction as generalizing s with
  | nil => simp [Meets]
  | cons a as ih => simp only [List.cons_append, Meets, run_cons, ih, and_assoc]

theorem meets_iff (s : σ) (as : List α) :
    Meets step ok s as ↔ ∀ bs a cs, as = bs ++ a :: cs → ok (run step s bs) a := by
  constructor
  · rintro h bs a cs rfl
    rw [meets_append] at h
    exact h.2.1
  intro h
  induction as generalizing s with
  | nil => trivial
  | cons a as ih =>
    refine ⟨h [] a as rfl, ih _ ?_⟩
    rintro bs b cs rfl
    exact h (a :: bs) b cs rfl

theorem meets_true (s : σ) (as : List α) : Meets step (fun _ _ => True) s as := by
  induction as generalizing s with
  | nil => trivial
  | cons a as ih => exact ⟨trivial, ih _⟩

variable {s : σ} {as : List α}

theorem Meets.mono {ok ok' : σ → α → Prop} (himp : ∀ s a, ok s a → ok' s a) (h : Meets step ok s as) :
    Meets step ok' s as := by
  induction as generalizing s with
  | nil => exact h
  | cons a as ih => exact ⟨himp s a h.1, ih h.2⟩

variable (I : σ → Prop)

theorem invariant_run (hstep : ∀ s a, I s → I (step s a)) (hs : I s) (as : List α) :
    I (run step s as) := by
  induction as generalizing s with
  | nil => exact hs
  | cons a as ih => exact ih (hstep s a hs)

theorem invariant_run_meets (hstep : ∀ s a, ok s a → I s → I (step s a)) (hs : I s) (hm : Meets step ok s as) :
    I (run step s as) := by
  induction as generalizing s with
  | nil => exact hs
  | cons a as ih => exact ih (hstep s a hm.1 hs) hm.2

/-- What an action establishes and the actions after it keep. -/
theorem invariant_run_after {a : α} {bs cs : List α} (hstep : ∀ s b, ok s b → b ∈ cs → I s → I (step s b))
    (ha : I (step (run step s bs) a)) (hm : Meets step ok s (bs ++ a :: cs)) : I (run step s (bs ++ a :: cs)) := by
  rw [run_append, run_cons]
  replace hm := ((meets_append step ok s bs (a :: cs)).mp hm).2.2
  revert ha hm
  generalize step (run step s bs) a = t
  intro ha hm
  induction cs generalizing t with
  | nil => exact ha
  | cons b cs ih =>
    exact ih (fun s c hok hc => hstep s c hok (List.mem_cons_of_mem b hc)) _ (hstep t b hm.1 List.mem_cons_self ha) hm.2

theorem invariant_run_moves (move : σ → α → σ → σ → Prop)
    (hchain : ∀ s a, Relation.ReflTransGen (move s a) s (step s a)) (ok : σ → α → Prop)
    (I : σ → Prop) (hmove : ∀ s a x y, ok s a → move s a x y → I x → I y) (hs : I s)
    (hm : Meets step ok s as) : I (run step s as) := by
  refine invariant_run_meets step ok I ?_ hs hm
  intro s a hok hi
  have hkeep : ∀ y, Relation.ReflTransGen (move s a) s y → I y := by
    intro y hy
    induction hy with
    | refl => exact hi
    | tail _ hxy ih => exact hmove s a _ _ hok hxy ih
  exact hkeep _ (hchain s a)

theorem run_cause (I P : σ → Prop) (cause : σ → α → Prop) (hinv : ∀ s a, I s → I (step s a))
    (hstep : ∀ s a, I s → P (step s a) → P s ∨ cause s a) (hs : I s) (h : P (run step s as)) :
    P s ∨ ∃ bs a cs, as = bs ++ a :: cs ∧ cause (run step s bs) a := by
  induction as generalizing s with
  | nil => exact .inl h
  | cons a as ih =>
    obtain hnext | ⟨bs, b, cs, rfl, hcause⟩ := ih (hinv s a hs) h
    · -- it held after the first step
      obtain hnow | hcause := hstep s a hs hnext
      · exact .inl hnow
      · exact .inr ⟨[], a, as, rfl, hcause⟩
    · exact .inr ⟨a :: bs, b, cs, rfl, hcause⟩

section
variable (vis : σ → α → Bool)

def visible : σ → List α → List α
  | _, [] => []
  | s, a :: as => if vis s a then a :: visible (step s a) as else visible (step s a) as

/-- Unwinding: if invisible steps on the left and visible steps on both sides keep two states
related, a run is related to the run of its visible part. -/
theorem unwinding (R : σ → σ → Prop) (hinv : ∀ s t a, R s t → vis s a = false → R (step s a) t)
    (hvis : ∀ s t a, R s t → vis s a = true → R (step s a) (step t a)) {s t : σ} (h : R s t) (as : List α) :
    R (run step s as) (run step t (visible step vis s as)) := by
  induction as generalizing s t with
  | nil => exact h
  | cons a as ih =>
    cases hv : vis s a with
    | false =>
      simp only [run_cons, visible, hv, Bool.false_eq_true, ↓reduceIte]
      exact ih (hinv s t a h hv)
    | true =>
      simp only [run_cons, visible, hv, ↓reduceIte]
      exact ih (hvis s t a h hv)

end

end Chromeless.Runs
