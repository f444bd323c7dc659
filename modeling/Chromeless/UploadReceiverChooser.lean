import Chromeless.UploadReceiverMoves

/-! The listeners that pages hand over for their file choosers, and the answers they get. -/
namespace Chromeless.Uploads
open Json Output

def Output.resolves (listener : ℕ) : Output → Bool
  | .fileSelected l _ _ _ | .fileSelectionCanceled l => l = listener
  | _ => false

def Output.listener : Output → Option ℕ
  | .parked l | .fileSelected l _ _ _ | .fileSelectionCanceled l => some l
  | _ => none

def Output.parks (listener : ℕ) : Output → Bool
  | .parked l => l = listener
  | _ => false

def handed (log : List Output) (listener : ℕ) : ℕ := log.countP (Output.parks listener)

def resolutions (log : List Output) (listener : ℕ) : ℕ := log.countP (resolves listener)

/-- Every listener that was handed over has been resolved once for each time, but the one that is
parked; and that one is there only while the receiver is and the deadline runs for it. -/
structure ResolvedOnce (s : Receiver) : Prop where
  resolved : ∀ l, s.pendingListener ≠ some l → resolutions s.log l = handed s.log l
  parked : ∀ l, s.pendingListener = some l → resolutions s.log l + 1 = handed s.log l
  deadline : s.chooserDeadline = s.pendingListener.isSome
  alive : s.pendingListener.isSome = true → s.alive = true

section
variable {sha256 : Bytes → Vector UInt8 32} {s x y : Receiver} {e : Event}

section
variable (h : ResolvedOnce x)
include h

open List

theorem ResolvedOnce.frame (outs : List Output) (houts : ∀ o ∈ outs, o.listener = none)
    (hlis : y.pendingListener = x.pendingListener) (hdl : y.chooserDeadline = x.chooserDeadline)
    (halv : y.alive = x.alive) (hlog : y.log = x.log ++ outs) : ResolvedOnce y := by
  have hparks : ∀ l, outs.countP (Output.parks l) = 0 := by
    intro l
    rw [countP_eq_zero]
    intro o ho
    have hnone := houts o ho
    cases o <;> simp_all [Output.listener, Output.parks]
  have hresol : ∀ l, outs.countP (resolves l) = 0 := by
    intro l
    rw [countP_eq_zero]
    intro o ho
    have hnone := houts o ho
    cases o <;> simp_all [Output.listener, resolves]
  have hhand : ∀ l, handed y.log l = handed x.log l := by
    intro l
    rw [handed, hlog, countP_append, hparks l]
    rfl
  have hres : ∀ l, resolutions y.log l = resolutions x.log l := by
    intro l
    rw [resolutions, hlog, countP_append, hresol l]
    rfl
  constructor
  · intro l hl
    rw [hhand, hres]
    exact h.resolved l (hlis ▸ hl)
  · intro l hl
    rw [hhand, hres]
    exact h.parked l (hlis ▸ hl)
  · rw [hdl, hlis]
    exact h.deadline
  · rw [hlis, halv]
    exact h.alive

theorem ResolvedOnce.answer {listener : ℕ} {o : Output} (hx : x.pendingListener = some listener)
    (ho : ∀ l, o.resolves l = decide (listener = l)) (ho' : ∀ l, o.parks l = false) (hlis : y.pendingListener = none)
    (hdl : y.chooserDeadline = false) (hlog : y.log = x.log ++ [o]) : ResolvedOnce y := by
  have hhand : ∀ l, handed y.log l = handed x.log l := by
    intro l
    simp [handed, hlog, ho' l]
  have hres : ∀ l, resolutions y.log l = resolutions x.log l + if listener = l then 1 else 0 := by
    intro l
    simp [resolutions, hlog, countP_cons, ho l]
  constructor
  · intro l _
    rw [hhand, hres]
    by_cases hl : listener = l
    · rw [if_pos hl]
      exact h.parked l (by rw [hx, hl])
    · rw [if_neg hl]
      exact h.resolved l (by rw [hx]; exact fun hsome => hl (Option.some.inj hsome))
  · intro l hl
    rw [hlis] at hl
    cases hl
  · rw [hdl, hlis]
    rfl
  · rw [hlis]
    exact nofun

theorem ResolvedOnce.cancelChooser : ResolvedOnce x.cancelChooser := by
  cases hlis : x.pendingListener with
  | none =>
    have hdl : x.chooserDeadline = false := by rw [h.deadline, hlis]; rfl
    refine h.frame [] (by simp) ?_ ?_ ?_ ?_ <;> simp [Receiver.cancelChooser, hlis, hdl]
  | some l =>
    refine h.answer (o := .fileSelectionCanceled l) hlis (fun _ => rfl) (fun _ => rfl) ?_ ?_ ?_ <;>
      simp [Receiver.cancelChooser, hlis, Receiver.say]

theorem ResolvedOnce.park {listener : ℕ} (hfree : x.pendingListener = none)
    (halv : x.alive = true) (mode : ChooserMode) :
    ResolvedOnce
      ({ x with
          pendingListener := some listener, pendingMode := mode, chooserDeadline := true }.say
        (.parked listener)) := by
  have hx : ∀ l, resolutions x.log l = handed x.log l := fun l => h.resolved l (by simp [hfree])
  have hhand : ∀ l, handed (x.log ++ [Output.parked listener]) l = handed x.log l + if listener = l then 1 else 0 := by
    simp [handed, countP_cons, Output.parks]
  have hres : ∀ l, resolutions (x.log ++ [Output.parked listener]) l = resolutions x.log l := by
    simp [resolutions, resolves]
  constructor
  · intro l hl
    have hne : listener ≠ l := fun heq => hl (congrArg some heq)
    change resolutions (x.log ++ _) l = handed (x.log ++ _) l
    rw [hhand, hres, if_neg hne, hx l, Nat.add_zero]
  · intro l hl
    have heq : listener = l := Option.some.inj hl
    change resolutions (x.log ++ _) l + 1 = handed (x.log ++ _) l
    rw [hhand, hres, if_pos heq, hx l]
  · rfl
  · exact fun _ => halv

theorem ResolvedOnce.commit (id path : Bytes) (up : Upload) (total : ℤ) :
    ResolvedOnce (x.commit id path up total) := by
  cases hlis : x.pendingListener with
  | none =>
    refine h.frame [.complete id path (ascii "none")] (by simp [Output.listener]) ?_ ?_ ?_ ?_ <;>
      simp [Receiver.commit, Receiver.resolveChooserWith, hlis, Receiver.say]
  | some l =>
    have hansd := h.answer
      (y := { x with
        pendingListener := none, chooserDeadline := false
        log := x.log ++ [.fileSelected l path up.displayName x.pendingMode] })
      hlis (fun _ => rfl) (fun _ => rfl) rfl rfl rfl
    refine hansd.frame [.complete id path (ascii "fileChooser")] (by simp [Output.listener])
      ?_ ?_ ?_ ?_ <;>
      simp [Receiver.commit, Receiver.resolveChooserWith, hlis, Receiver.say]

end

theorem Move.resolvedOnce (h : Move sha256 s e x y) (hx : ResolvedOnce x) : ResolvedOnce y := by
  cases h with
  | reports _ o =>
    refine hx.frame [o] ?_ rfl rfl rfl rfl
    cases o <;> simp_all [Output.listener, Output.reports]
  | unparks => exact hx.cancelChooser
  | parks _ listener mode hfree halv => exact hx.park hfree halv mode
  | starts | accepts _ | updates _ | finalises _ | takes | forgets =>
    exact hx.frame [] (by simp) rfl rfl rfl (List.append_nil _).symm
  | abandons _ id up up' code message =>
    exact hx.frame [.error id code message] (by simp [Output.listener]) rfl rfl rfl rfl
  | commits _ id path sha up => exact hx.commit id path up up.declaredSize
  | runs i n ok =>
    obtain ⟨fs, pool, replies, heq⟩ := s.runTask_keeps sha256 i n ok
    rw [heq]
    exact hx.frame [] (by simp) rfl rfl rfl (List.append_nil _).symm
  | dies _ he hfree =>
    constructor
    · exact hx.resolved
    · exact hx.parked
    · exact hx.deadline
    · intro hsome
      rw [hfree] at hsome
      cases hsome

theorem new_resolvedOnce (fs : Files.Store Bytes UInt8) : ResolvedOnce { fs := fs } :=
  ⟨fun _ _ => rfl, nofun, rfl, nofun⟩

variable (sha256) in
/-- Each listener is resolved once for each time it was handed over. One that is still parked is
resolved by the next cancel, deadline, reset or destruction, and the deadline runs for it. -/
theorem listeners_resolved_once (fs : Files.Store Bytes UInt8) (es : List Event) :
    ResolvedOnce (run sha256 { fs := fs } es) ∧
      ∀ e ∈ [Event.cancelChooser, .deadline, .resetForNewSession, .destroy],
        (step sha256 (run sha256 { fs := fs } es) e).pendingListener = none := by
  have hrun : ResolvedOnce (run sha256 { fs := fs } es) :=
    invariant_run_of_moves (fun _ _ => True) ResolvedOnce (fun _ _ _ _ _ hmove => hmove.resolvedOnce)
      (new_resolvedOnce fs) (Runs.meets_true ..)
  generalize run sha256 { fs := fs } es = s at hrun ⊢
  refine ⟨hrun, ?_⟩
  -- without a listener there is nothing to do; with one the receiver is there and the timer runs
  have hgone : s.alive = false → s.pendingListener = none := by
    intro halive
    by_contra hsome
    have := hrun.alive (Option.isSome_iff_ne_none.mpr hsome)
    rw [halive] at this
    cases this
  have hfree := s.cancelChooser_free
  intro e he
  simp only [List.mem_cons, List.not_mem_nil, or_false] at he
  rcases he with rfl | rfl | rfl | rfl
  all_goals rw [step]; split
  · exact hfree
  · exact hgone (by simp_all)
  · exact hfree
  next hidle =>
    cases halive : s.alive with
    | false => exact hgone halive
    | true =>
      have hdeadline := hrun.deadline
      simp_all
  · exact hfree
  · exact hgone (by simp_all)
  · exact hfree
  · exact hgone (by simp_all)

end

end Chromeless.Uploads
