import Mathlib.Data.List.Basic

/-! A first-in first-out queue with a fence in it. -/
namespace Chromeless.Fence
open List

variable {α : Type*}

/-- The fence `b` is up with `ahead` and `behind` it, or it is down and all are behind. -/
structure Fenced (b : α) (up : Bool) (queue ahead behind : List α) : Prop where
  queue_eq : queue = ahead ++ (if up then b :: behind else behind)
  ahead_eq : up = false → ahead = []
  free : b ∉ ahead ∧ b ∉ behind

variable {b t : α} {up : Bool} {queue ahead behind ts : List α}

theorem fenced_down (h : b ∉ queue) : Fenced b false queue [] queue :=
  ⟨rfl, fun _ => rfl, not_mem_nil, h⟩

theorem Fenced.eq_of_down (h : Fenced b false queue ahead behind) : behind = queue := by
  rw [h.queue_eq, h.ahead_eq rfl]
  rfl

theorem Fenced.down_of_not_mem (h : Fenced b up queue ahead behind) (hb : b ∉ queue) :
    up = false := by
  cases up with
  | false => rfl
  | true =>
    rw [h.queue_eq] at hb
    exact absurd (mem_append_right _ mem_cons_self) hb

theorem Fenced.append (h : Fenced b up queue ahead behind) (hts : b ∉ ts) :
    Fenced b up (queue ++ ts) ahead (behind ++ ts) := by
  refine ⟨?_, h.ahead_eq, h.free.1, ?_⟩
  · rw [h.queue_eq, append_assoc]
    cases up <;> rfl
  · rw [mem_append]
    exact not_or_intro h.free.2 hts

theorem Fenced.raise (h : Fenced b false queue ahead behind) (hts : b ∉ ts) :
    Fenced b true (queue ++ ts ++ [b]) (queue ++ ts) [] := by
  have hqu : b ∉ queue := by
    rw [← h.eq_of_down]
    exact h.free.2
  refine ⟨rfl, nofun, ?_, not_mem_nil⟩
  rw [mem_append]
  exact not_or_intro hqu hts

/-- What is served next: something ahead of the fence, the fence, or something with no fence
before it. -/
theorem Fenced.pop (h : Fenced b up (t :: queue) ahead behind) :
    (up = true ∧ t ∈ ahead ∧ t ≠ b ∧ ∃ rest, ahead = t :: rest ∧ Fenced b true queue rest behind) ∨
    (up = true ∧ t = b ∧ behind = queue ∧ b ∉ queue) ∨
    (up = false ∧ t ≠ b ∧ behind = t :: queue ∧ b ∉ queue) := by
  cases up with
  | false =>
    have hall := h.eq_of_down
    have hfree := h.free.2
    rw [hall, mem_cons, not_or] at hfree
    exact .inr (.inr ⟨rfl, fun ht => hfree.1 ht.symm, hall, hfree.2⟩)
  | true =>
    have heq := h.queue_eq
    cases ahead with
    | nil =>
      obtain ⟨rfl, rfl⟩ := cons_eq_cons.mp heq
      exact .inr (.inl ⟨rfl, rfl, rfl, h.free.2⟩)
    | cons a rest =>
      obtain ⟨rfl, hqu⟩ := cons_eq_cons.mp heq
      obtain ⟨hahead, hbeh⟩ := h.free
      rw [mem_cons, not_or] at hahead
      refine .inl ⟨rfl, mem_cons_self, fun ht => hahead.1 ht.symm, rest, rfl, ?_⟩
      exact ⟨hqu, nofun, hahead.2, hbeh⟩

/-! ### How long something waits -/

/-- Something that `p` picks is among the next `k`, with no fence behind it. -/
def Due (p : α → Prop) (b : α) (k : ℕ) (queue : List α) : Prop :=
  ∃ before t after, queue = before ++ t :: after ∧ p t ∧ b ∉ after ∧ before.length < k

variable {p : α → Prop} {k : ℕ}

theorem Fenced.due (h : Fenced b up queue ahead behind) (hmem : t ∈ behind) (ht : p t) :
    Due p b queue.length queue := by
  obtain ⟨before, after, hbeh⟩ := append_of_mem hmem
  have hfree : b ∉ after := by
    intro hb
    apply h.free.2
    rw [hbeh]
    exact mem_append_right _ (mem_cons_of_mem _ hb)
  have hqu : queue = (ahead ++ (if up then b :: before else before)) ++ t :: after := by
    rw [h.queue_eq, hbeh]
    cases up <;> simp
  refine ⟨_, t, after, hqu, ht, hfree, ?_⟩
  conv_rhs => rw [hqu, length_append, length_cons]
  omega

theorem Due.pos (h : Due p b k queue) : 0 < k := by
  obtain ⟨before, t, after, -, -, -, hlt⟩ := h
  exact Nat.zero_lt_of_lt hlt

theorem Due.append (h : Due p b k queue) (hts : b ∉ ts) : Due p b k (queue ++ ts) := by
  obtain ⟨before, t, after, hqu, ht, hfree, hlt⟩ := h
  refine ⟨before, t, after ++ ts, ?_, ht, ?_, hlt⟩
  · rw [hqu, append_assoc, cons_append]
  · rw [mem_append]
    exact not_or_intro hfree hts

theorem Due.pop (h : Due p b k queue) : (∃ t rest, queue = t :: rest ∧ p t ∧ b ∉ rest) ∨
    ∃ t rest, queue = t :: rest ∧ Due p b (k - 1) rest := by
  obtain ⟨before, t, after, hqu, ht, hfree, hlt⟩ := h
  cases before with
  | nil => exact .inl ⟨t, after, hqu, ht, hfree⟩
  | cons x before =>
    have hlt' : before.length < k - 1 := by
      rw [length_cons] at hlt
      omega
    exact .inr ⟨x, before ++ t :: after, hqu, before, t, after, rfl, ht, hfree, hlt'⟩

end Chromeless.Fence
