import Chromeless.ControllerChanges

/-! Aging of warm Pods against their assignment: the pool reconciler deletes by name from an old
list. -/
namespace Chromeless.Controller
open Function Versions Cluster PoolPc

def PoolPc.due : PoolPc → List String
  | .classify pool now items _ _ _ => (items.filter fun item => overAged pool.value now item.2).map (·.1)
  | _ => []

theorem PoolPc.mem_due {pool : Stored BrowserSessionPool} {now warm assigned draining : ℕ}
    {items : List (String × Pod)} {name : String} :
    name ∈ (classify pool now items warm assigned draining).due ↔
      ∃ pod, (name, pod) ∈ items ∧ overAged pool.value now pod = true := by
  simp only [due, List.mem_map, List.mem_filter]
  constructor
  · rintro ⟨⟨k, pod⟩, ⟨hmem, hold⟩, rfl⟩
    exact ⟨pod, hmem, hold⟩
  · rintro ⟨pod, hmem, hold⟩
    exact ⟨(name, pod), ⟨hmem, hold⟩, rfl⟩

theorem overAged_warm {pool : BrowserSessionPool} {now : ℕ} {pod : Pod}
    (h : overAged pool now pod = true) : pod.state = .warm := by
  simp only [overAged, Bool.and_eq_true, decide_eq_true_eq] at h
  exact h.1.2

namespace Cluster

def SparesAssigned (s s' : Cluster) : Prop :=
  ∀ name pod, s.pods.value name = some pod → pod.state = .assigned → s'.pods.value name = some pod

/-- No Pod is assigned while a reconcile of its pool is about to delete it. -/
def assignsUnlisted (s : Cluster) : Act → Bool
  | .work n _ _ =>
    match s.workers n with
    | .assignUpdate _ podName latest _ =>
      s.pods.version podName ≠ some latest.version ||
        podName ∉ (s.poolWorkers latest.value.pool).due
    | _ => true
  | _ => true

def DueUnassigned (s : Cluster) : Prop :=
  ∀ p name, name ∈ (s.poolWorkers p).due → name ∈ s.podNames ∧
    ∀ pod, s.pods.value name = some pod → pod.pool = p ∧ pod.state ≠ .assigned

end Cluster

section
variable {cfg : Config} {s s' : Cluster} {a : Act} {p name : String}

theorem PoolCall.due {e : Effect} {pc pc' : PoolPc} (hcall : PoolCall s p pc e pc') (h : name ∈ pc'.due) :
    name ∈ pc.due ∨ (e = .nothing ∧ ∃ pod, (name, pod) ∈ s.podsOf p ∧ pod.state = .warm) := by
  have htail {pool : Stored BrowserSessionPool} {now w a d w' a' d' : ℕ} {item : String × Pod}
      {items : List (String × Pod)} (h : name ∈ (classify pool now items w a d).due) :
      name ∈ (classify pool now (item :: items) w' a' d').due := by
    obtain ⟨pod, hmem, hold⟩ := mem_due.mp h
    exact mem_due.mpr ⟨pod, List.mem_cons_of_mem _ hmem, hold⟩
  cases hcall with
  | stay => exact .inl h
  | listed =>
    obtain ⟨pod, hmem, hold⟩ := mem_due.mp h
    exact .inr ⟨rfl, pod, hmem, overAged_warm hold⟩
  | aged | terminating | countWarm | countAssigned | countDraining => exact .inl (htail h)
  | _ => cases h

theorem Move.unassigned (hmove : Move cfg s a s') (hs : Copies s) (hcond : s.assignsUnlisted a = true)
    (hdue : name ∈ (s.poolWorkers p).due) (hmem : name ∈ s.podNames)
    (hold : ∀ pod, s.pods.value name = some pod → pod.pool = p ∧ pod.state ≠ .assigned) {pod' : Pod}
    (hget' : s'.pods.value name = some pod') :
    pod'.pool = p ∧ pod'.state ≠ .assigned := by
  cases hmove.podChange hs hget' with
  | @kept pod terminating ready ip hget hterm heq =>
    subst heq
    exact hold pod hget
  | cold _ hfr | warm hfr => exact absurd hmem hfr
  | @assigned n pick ok sess latest tries hact hpc hver hget =>
    -- the Pod is of pool `p`, whose reconcile is about to delete it
    subst hact
    simp only [Cluster.assignsUnlisted, hpc, hver, ne_eq, not_true_eq_false, decide_false,
      Bool.false_or, decide_eq_true_eq, (hold _ hget).1] at hcond
    exact absurd hdue hcond
  | returned hact hpc hver hget heq =>
    subst heq
    exact ⟨(hold _ hget).1, by simp [scrubbedPod]⟩

theorem Cluster.DueUnassigned.move (hd : s.DueUnassigned) (hs : Copies s)
    (hcond : s.assignsUnlisted a = true) (hmove : Move cfg s a s') : s'.DueUnassigned := by
  intro p name h
  have hold (hdue : name ∈ (s.poolWorkers p).due) : name ∈ s'.podNames ∧
      ∀ pod, s'.pods.value name = some pod → pod.pool = p ∧ pod.state ≠ .assigned := by
    obtain ⟨hmem, hall⟩ := hd p name hdue
    exact ⟨hmove.podNames_subset hmem, fun pod' hget' => hmove.unassigned hs hcond hdue hmem hall hget'⟩
  cases hmove with
  | @pool q pick e pc hcall =>
    simp only [setPoolWorker_poolWorkers, update_apply, apply_poolWorkers] at h
    split_ifs at h with hp
    · subst hp
      obtain hdue | ⟨rfl, pod, hlist, hwarm⟩ := hcall.due h
      · exact hold hdue
      obtain ⟨hmem, hget, hpool⟩ := mem_podsOf.mp hlist
      refine ⟨hmem, ?_⟩
      intro pod' hget'
      rw [show s.pods.value name = some pod' from hget'] at hget
      cases hget
      exact ⟨hpool, by simp [hwarm]⟩
    · exact hold h
  | @poolAbort q =>
    simp only [setPoolWorker_poolWorkers, update_apply] at h
    split_ifs at h
    · simp [PoolPc.due] at h
    · exact hold h
  | _ => exact hold (by simpa using h)

theorem Cluster.DueUnassigned.sparesAssigned (hd : s.DueUnassigned) (hs : Copies s) {e : Effect}
    {pc : PoolPc} (hcall : PoolCall s p (s.poolWorkers p) e pc) :
    s.SparesAssigned ((s.apply e).setPoolWorker p pc) := by
  intro name pod hget hasg
  have hdue := hd p name
  generalize s.poolWorkers p = pc₀ at hcall hdue
  cases hcall with
  | @aged pool now k pod₀ items warm assigned draining hold =>
    have hne : name ≠ k := by
      rintro rfl
      have hmem := hdue (mem_due.mpr ⟨pod₀, List.mem_cons_self, hold⟩)
      exact (hmem.2 pod hget).2 hasg
    rw [setPoolWorker_pods, apply_deletePod_value, update_of_ne hne, hget]
  | @replenished pool now warm assigned draining created k hshr hmax hfr =>
    have hne : name ≠ k := by
      rintro rfl
      exact hfr (hs.names _ _ hget)
    simp [setPoolWorker_pods, apply, Store.value_set, update_of_ne hne, hget]
  | _ => exact hget

end

/-- The pool reconciler deletes no Pod that is assigned to a session, as long as none is assigned
that it is about to delete. -/
theorem aging_spares_assigned (cfg : Config) (as : List Act)
    (hcond : Runs.Meets (step cfg) (fun s a => s.assignsUnlisted a = true) .init as) (p pick : String) :
    (run cfg .init as).SparesAssigned (step cfg (run cfg .init as) (.poolWork p pick)) := by
  have hs := (Sound.run cfg as).copies
  have hinit : init.DueUnassigned := nofun
  have hd : (run cfg .init as).DueUnassigned := by
    refine (Runs.invariant_run_meets (step cfg) _ (fun s => Copies s ∧ s.DueUnassigned) ?_
      ⟨Copies.init, hinit⟩ hcond).2
    intro s a hcond hi
    have hmove := step_move cfg s a
    exact ⟨hi.1.move hmove, hi.2.move hi.1 hcond hmove⟩
  exact hd.sparesAssigned hs (poolWork_call _ p pick _)

theorem aging_spares_assigned_beside :
    let as := .editPool "default-pool" (smallPool 2) ::
      (poolCalls "default-pool" "p" 4 ++ poolCalls "default-pool" "q" 2
        ++ [.podStatus "p" true "10.0.0.1"]
        ++ requestCalls 1 (.mint { tenantID := "t", elementID := "a" }) 2
        ++ calls "tf-a" "p" 8 ++ calls "tf-a" "p" 9 ++ [.tick (4000 * second)]
        ++ poolCalls "default-pool" "" 3)
    let s := run {} .init as
    let s' := step {} s (.poolWork "default-pool" "")
    Runs.Meets (step {}) (fun s a => s.assignsUnlisted a = true) .init as ∧
      (s.pods.value "p").map (·.state) = some .assigned ∧
      (s'.pods.value "q").map (·.terminating) = some true ∧ s.SparesAssigned s' := by
  refine ⟨by decide +kernel, by decide +kernel, by decide +kernel, ?_⟩
  exact aging_spares_assigned {} _ (by decide +kernel) _ _

/-- A session takes a listed Pod that is too old, and becomes Ready before the pool comes to it. -/
def agedInUse : List Act :=
  .editPool "default-pool" (smallPool 1) ::
    (poolCalls "default-pool" "p" 5 ++ [.podStatus "p" true "10.0.0.1"]
      ++ requestCalls 1 (.mint { tenantID := "t", elementID := "a" }) 2
      ++ calls "tf-a" "p" 8 ++ [.tick (4000 * second)] ++ poolCalls "default-pool" "" 2
      ++ calls "tf-a" "p" 9)

theorem aging_deletes_assigned :
    ((run {} .init agedInUse).sessions.value "tf-a").any (fun x => x.status.phase = .ready &&
      x.status.connection.map (·.podName) = some "p") = true ∧
    ¬ (run {} .init agedInUse).SparesAssigned (step {} (run {} .init agedInUse) (.poolWork "default-pool" "")) := by
  refine ⟨by decide +kernel, ?_⟩
  intro h
  obtain ⟨pod, hpod, hp⟩ := (Option.any_eq_true (fun pod => pod.state = .assigned &&
    !pod.terminating) ((run {} .init agedInUse).pods.value "p")).mp (by decide +kernel)
  obtain ⟨pod', hpod', hp'⟩ := (Option.any_eq_true (fun pod => pod.terminating)
    ((step {} (run {} .init agedInUse) (.poolWork "default-pool" "")).pods.value "p")).mp
    (by decide +kernel)
  simp only [Bool.and_eq_true, decide_eq_true_eq, Bool.not_eq_true'] at hp
  have hsame := h "p" pod hpod hp.1
  rw [hpod'] at hsame
  cases hsame
  rw [hp.2] at hp'
  cases hp'

end Chromeless.Controller
