import Chromeless.ControllerChanges

/-! Who a Pod belongs to when several reconciles pick the same one. -/
namespace Chromeless.Controller
open Versions Cluster Option Pod

namespace Cluster

/-- A session in phase Ready or Warming has the Pod bound to it or recorded in its status. -/
def Holds (s : Cluster) (n podName : String) : Prop :=
  ∃ x, s.sessions.value n = some x ∧ (x.status.phase = .ready ∨ x.status.phase = .warming) ∧
    (s.Owned n podName ∨ x.status.connection.map (·.podName) = some podName)

def Exclusive (s : Cluster) : Prop :=
  ∀ n m podName, s.Holds n podName → s.Holds m podName → n = m

def Over (s : Cluster) (n : String) : Prop :=
  ∀ x, s.sessions.value n = some x → x.status.phase = .ended

/-- No live Pod assigned to a session that is not over is labelled with another one. -/
def KeepsAssignments (s s' : Cluster) : Prop :=
  ∀ podName n m pod pod', s.pods.value podName = some pod → pod.terminating = false →
    pod.state = .assigned → pod.owner = some n → s'.pods.value podName = some pod' →
    pod'.owner = some m → m ≠ n → s.Over n

/-- When an assignment that met a conflict reads its Pod again, the Pod is not labelled with
another session. -/
def rereadUnowned (s : Cluster) : Act → Bool
  | .work n _ _ =>
    match s.workers n with
    | .assignGet _ podName _ => (s.pods.value podName).all fun pod => pod.owner = none || pod.owner = some n
    | _ => true
  | _ => true

def Recorded (s : Cluster) (n podName : String) : Prop :=
  ∃ x, s.sessions.value n = some x ∧ x.status.phase ≠ .draining ∧ x.status.connection.map (·.podName) = some podName

end Cluster

def Pc.Bears : Pc → String → Prop
  | .advanceFromBoundPod _ podName _, k => k = podName
  | .statusGet _ (.ready podName _ _) _, k => k = podName
  | .statusUpdate _ (.ready podName _ _) _ _, k => k = podName
  | _, _ => False

def Pc.drainCopy : Pc → Option (Stored Pod)
  | .scrubOrDelete _ _ pod => some pod
  | .scrubExec _ _ pod => some pod
  | .scrubUpdate _ _ pod => some pod
  | _ => none

namespace Cluster

def Claims (s : Cluster) (n k : String) : Prop := s.Recorded n k ∨ (s.workers n).Bears k

structure Agrees (s : Cluster) : Prop where
  warm : ∀ k pod, s.pods.value k = some pod → pod.state = .warm → pod.owner = none
  latest : ∀ n sess k c tries, s.workers n = .assignUpdate sess k c tries →
    c.value.owner = none ∨ c.value.owner = some n
  drained : ∀ n c, (s.workers n).drainCopy = some c → c.value.owner = some n
  claimed : ∀ n k, s.Claims n k → k ∈ s.podNames ∧ ∀ pod, s.pods.value k = some pod → pod.owner = some n
  unique : ∀ n m k, s.Claims n k → s.Claims m k → n = m

end Cluster

section
variable {cfg : Config} {s s' : Cluster} {a : Act} {n k : String}

variable {sess : BrowserSession} {tries : ℕ} {pod' : Pod} {c : Stored Pod}

theorem recorded_status {m : StatusUpdate} {x : BrowserSession} (hfrom : m.From x.status.phase)
    (hget : s.sessions.value n = some x) (hph : (m.apply cfg n x).status.phase ≠ .draining)
    (hconn : (m.apply cfg n x).status.connection.map (·.podName) = some k) {latest : Stored BrowserSession} :
    s.Recorded n k ∨ (Pc.statusUpdate sess m latest tries).Bears k := by
  have hkeep (hne : x.status.phase ≠ .draining)
      (hc : x.status.connection.map (·.podName) = some k) : s.Recorded n k := ⟨x, hget, hne, hc⟩
  cases m with
  | pending | warming => exact .inl (hkeep (by rcases hfrom with h | h <;> simp [h]) hconn)
  | ready => exact .inr (Option.some.inj hconn).symm
  | activity =>
    refine .inl (hkeep ?_ hconn)
    rw [show x.status.phase = .ready from hfrom]
    decide
  | draining => exact absurd rfl hph
  | ended => cases hconn

theorem Move.recorded (hmove : Move cfg s a s') (hs : Sound s) (h : s'.Recorded n k) :
    s.Claims n k := by
  obtain ⟨x', hget', hph, hconn⟩ := h
  cases hmove.sessionChange hs.copies hget' with
  | same hget => exact .inl ⟨x', hget, hph, hconn⟩
  | @status pick ok sess m latest tries hact hpc hver hget heq =>
    subst heq
    obtain ⟨x, hx, -, hexp⟩ := hs.guarded n (by rw [hpc]; rfl)
    rw [hget] at hx
    cases hx
    rw [hpc] at hexp
    obtain h | h := recorded_status hexp.2 hget hph hconn
    · exact .inl h
    · exact .inr (hpc ▸ h)
  | finalizer hget heq | rewritten _ hget heq | heartbeat _ hget _ heq | marked hget heq =>
    subst heq
    exact .inl ⟨_, hget, hph, hconn⟩
  | minted _ _ heq | reset _ _ heq =>
    subst heq
    cases hconn

def BindsNow (s s' : Cluster) (n k : String) : Prop :=
  ∃ pod pod', s.pods.value k = some pod ∧ (pod.owner = none ∨ pod.owner = some n) ∧
    s'.pods.value k = some pod' ∧ pod'.owner = some n

theorem Move.bears (hmove : Move cfg s a s') (hs : Sound s) (ha : s.Agrees)
    (h : (s'.workers n).Bears k) : (s.workers n).Bears k ∨ BindsNow s s' n k := by
  obtain ⟨e, pc', hcall, rfl, -⟩ | hfrm := hmove.own_or_frame hs.copies n
  · simp only [setWorker_workers, Function.update_self] at h
    have hlst := ha.latest n
    have hcopy := hs.copies.pods n
    generalize s.workers n = pc at hcall hlst hcopy
    cases hcall with
    | stay => exact .inl h
    | @bound sess poolName pool podName o hget hb =>
      cases h
      have hval := Store.value_of_objects hget
      exact .inr ⟨_, _, hval, .inr (boundTo_iff.mp hb).1, hval, (boundTo_iff.mp hb).1⟩
    | @assigned sess podName latest tries pod hpod hver =>
      cases h
      refine .inr ⟨_, pod, (hcopy _ _ rfl).value_eq hver, hlst _ _ _ _ rfl, ?_, ?_⟩
      · simp [apply]
      · obtain ⟨ref, rfl⟩ := assignPod_eq hpod
        rfl
    | toReady => exact .inl h
    | @statusRead _ m | @statusConflict _ m =>
      cases m <;> exact .inl h
    | _ => cases h
  · rw [hfrm.worker] at h
    exact .inl h

theorem Move.claims (hmove : Move cfg s a s') (hs : Sound s) (ha : s.Agrees)
    (h : s'.Claims n k) : s.Claims n k ∨ BindsNow s s' n k := by
  obtain h | h := h
  · exact .inl (hmove.recorded hs h)
  obtain h | h := hmove.bears hs ha h
  · exact .inl (.inr h)
  · exact .inr h

theorem Move.claimed_owner (hmove : Move cfg s a s') (hs : Sound s) (ha : s.Agrees)
    (h : s.Claims n k) (hpod' : s'.pods.value k = some pod') : pod'.owner = some n := by
  obtain ⟨hmem, hown⟩ := ha.claimed n k h
  cases hmove.podChange hs.copies hpod' with
  | @kept pod terminating ready ip hget hterm heq =>
    subst heq
    exact hown pod hget
  | cold _ hfr | warm hfr => exact absurd hmem hfr
  | @assigned m pick ok sess latest tries hact hpc hver hget hpod =>
    have hn : latest.value.owner = some n := hown _ hget
    obtain hnone | hm := ha.latest m sess k latest tries hpc
    · rw [hn] at hnone
      cases hnone
    rw [hn] at hm
    obtain ⟨ref, rfl⟩ := assignPod_eq hpod
    exact hm.symm
  | @returned m pick ok sess o hact hpc hver hget =>
    -- the session whose drain returns the Pod is Draining, so it claims nothing
    have hm : o.value.owner = some m := ha.drained m o (by rw [hpc]; rfl)
    rw [hown _ hget] at hm
    cases hm
    obtain ⟨x, hx, -, hexp⟩ := hs.guarded n (by rw [hpc]; rfl)
    rw [hpc] at hexp
    obtain ⟨y, hy, hph, -⟩ | hbears := h
    · rw [hx] at hy
      cases hy
      exact absurd hexp.2 hph
    · rw [hpc] at hbears
      exact hbears.elim

theorem Cluster.Agrees.init : init.Agrees := by
  have hnone (n k : String) : ¬ Cluster.init.Claims n k := by
    rintro (⟨x, hx, -⟩ | h)
    · cases hx
    · exact h
  refine ⟨?_, ?_, ?_, fun n k h => (hnone n k h).elim, fun n m k h => (hnone n k h).elim⟩
  · intro k pod h
    cases h
  · intro n sess k c tries h
    cases h
  · intro n c h
    cases h

theorem Move.warm (hmove : Move cfg s a s') (hs : Sound s) (ha : s.Agrees)
    (hget' : s'.pods.value k = some pod') (hwarm : pod'.state = .warm) : pod'.owner = none := by
  cases hmove.podChange hs.copies hget' with
  | @kept pod terminating ready ip hget hterm heq =>
    subst heq
    exact ha.warm k pod hget hwarm
  | cold hact hfr hpc heq =>
    subst heq
    cases hwarm
  | warm _ heq | returned _ _ _ _ heq =>
    subst heq
    rfl
  | assigned hact hpc hver hget hpod =>
    obtain ⟨ref, rfl⟩ := assignPod_eq hpod
    cases hwarm

theorem warmFor_state {poolName : String} {pod : Pod} (h : warmFor sess poolName pod = true) :
    pod.state = .warm := by
  simp only [warmFor, Bool.and_eq_true, decide_eq_true_eq] at h
  exact h.1.1.1.1.1.1

theorem Move.latest (hmove : Move cfg s a s') (hs : Sound s) (ha : s.Agrees)
    (hcond : s.rereadUnowned a = true) (h : s'.workers n = .assignUpdate sess k c tries) :
    c.value.owner = none ∨ c.value.owner = some n := by
  obtain ⟨e, pc', hcall, rfl, hact⟩ | hfrm := hmove.own_or_frame hs.copies n
  · simp only [setWorker_workers, Function.update_self] at h
    subst h
    have hlst := ha.latest n
    generalize hpc : s.workers n = pc at hcall hlst
    cases hcall with
    | stay => exact hlst _ _ _ _ rfl
    | picked hget hwarm => exact .inl (ha.warm _ _ (Store.value_of_objects hget) (warmFor_state hwarm))
    | created => exact .inr rfl
    | assignAgain hget =>
      obtain hidle | ⟨pick, ok, rfl⟩ := hact
      · cases hidle
      · simpa [Cluster.rereadUnowned, hpc, Store.value_of_objects hget] using hcond
  · rw [hfrm.worker] at h
    exact ha.latest _ _ _ _ _ h

theorem Move.drained (hmove : Move cfg s a s') (hs : Sound s) (ha : s.Agrees)
    (h : (s'.workers n).drainCopy = some c) : c.value.owner = some n := by
  obtain ⟨e, pc', hcall, rfl, -⟩ | hfrm := hmove.own_or_frame hs.copies n
  · simp only [setWorker_workers, Function.update_self] at h
    have hdrd := ha.drained n
    generalize s.workers n = pc at hcall hdrd
    cases hcall with
    | stay | scrubPolicy | scrubVerified => exact hdrd _ h
    | drainBound hget hb =>
      cases h
      exact (boundTo_iff.mp hb).1
    | _ => cases h
  · rw [hfrm.worker] at h
    exact ha.drained _ _ h

theorem Cluster.Agrees.move (ha : s.Agrees) (hs : Sound s) (hcond : s.rereadUnowned a = true)
    (hmove : Move cfg s a s') : s'.Agrees := by
  have hs' := hs.move hmove
  refine ⟨fun k pod => hmove.warm hs ha, fun n sess k c tries => hmove.latest hs ha hcond,
    fun n c => hmove.drained hs ha, ?_, ?_⟩
  · intro n k h
    obtain hold | ⟨pod, pod', hget, -, hget', hown'⟩ := hmove.claims hs ha h
    · exact ⟨hmove.podNames_subset (ha.claimed n k hold).1, fun pod' hpod' => hmove.claimed_owner hs ha hold hpod'⟩
    refine ⟨hs'.copies.names _ _ hget', ?_⟩
    intro p hp
    rw [hget'] at hp
    cases hp
    exact hown'
  · intro n m k hn hm
    -- a Pod bound in this step was nobody else's
    have hbinds {n m : String} (hb : BindsNow s s' n k) (hc : s.Claims m k) : n = m := by
      obtain ⟨pod, -, hget, hown, -, -⟩ := hb
      have hm := (ha.claimed m k hc).2 pod hget
      rw [hm] at hown
      obtain h | h := hown
      · cases h
      · exact (Option.some.inj h).symm
    obtain hn | hn := hmove.claims hs ha hn
    · obtain hm | hm := hmove.claims hs ha hm
      · exact ha.unique n m k hn hm
      · exact (hbinds hm hn).symm
    obtain hm | hm := hmove.claims hs ha hm
    · exact hbinds hn hm
    obtain ⟨-, p, -, -, hp, hn⟩ := hn
    obtain ⟨-, q, -, -, hq, hm⟩ := hm
    rw [hp] at hq
    cases hq
    rw [hn] at hm
    exact Option.some.inj hm

end

variable {s : Cluster}

theorem Cluster.Agrees.exclusive (ha : s.Agrees) : s.Exclusive := by
  -- whatever makes a session hold the Pod, the Pod's label or its claim decides
  have hclm {n k : String} {x : BrowserSession} (hx : s.sessions.value n = some x)
      (hph : x.status.phase = .ready ∨ x.status.phase = .warming)
      (hconn : x.status.connection.map (·.podName) = some k) : s.Claims n k :=
    .inl ⟨x, hx, by rcases hph with h | h <;> simp [h], hconn⟩
  have hown {n m k : String} (ho : s.Owned n k) (hc : s.Claims m k) : n = m := by
    obtain ⟨pod, hget, hb⟩ := ho
    have hm := (ha.claimed m k hc).2 pod hget
    rw [(boundTo_iff.mp hb).1] at hm
    exact Option.some.inj hm
  rintro n m k ⟨x, hx, hpx, hn⟩ ⟨y, hy, hpy, hm⟩
  obtain hn | hn := hn
  · obtain hm | hm := hm
    · obtain ⟨p, hp, hbn⟩ := hn
      obtain ⟨q, hq, hbm⟩ := hm
      rw [hp] at hq
      cases hq
      have hm := (boundTo_iff.mp hbm).1
      rw [(boundTo_iff.mp hbn).1] at hm
      exact Option.some.inj hm
    · exact hown hn (hclm hy hpy hm)
  · obtain hm | hm := hm
    · exact (hown hm (hclm hx hpx hn)).symm
    · exact ha.unique n m k (hclm hx hpx hn) (hclm hy hpy hm)

theorem Cluster.Agrees.keepsAssignments {cfg : Config} {s' : Cluster} {a : Act} (ha : s.Agrees)
    (hs : Sound s) (hmove : Move cfg s a s') : s.KeepsAssignments s' := by
  intro k n m pod pod' hget _ _ hn hget' hm hne
  exfalso
  cases hmove.podChange hs.copies hget' with
  | kept hget₀ hterm heq =>
    subst heq
    rw [hget] at hget₀
    cases hget₀
    rw [hn] at hm
    exact hne (Option.some.inj hm).symm
  | cold _ hfr | warm hfr => exact hfr (hs.copies.names _ _ hget)
  | @assigned n' pick ok sess latest tries hact hpc hver hget₀ hpod =>
    rw [hget] at hget₀
    cases hget₀
    obtain hnone | hn' := ha.latest n' sess k latest tries hpc
    · rw [hn] at hnone
      cases hnone
    obtain ⟨ref, rfl⟩ := assignPod_eq hpod
    rw [hn] at hn'
    cases hn'
    exact hne (Option.some.inj hm).symm
  | returned hact hpc hver hget₀ heq =>
    subst heq
    cases hm

/-- As long as no assignment that met a conflict finds its Pod labelled with another
session, no two sessions hold one Pod, and no step takes a Pod over. -/
theorem pods_assigned_once (cfg : Config) (as : List Act)
    (hcond : Runs.Meets (step cfg) (fun s a => s.rereadUnowned a = true) .init as) :
    (run cfg .init as).Exclusive ∧ ∀ a, (run cfg .init as).KeepsAssignments (step cfg (run cfg .init as) a) := by
  have hs := Sound.run cfg as
  have ha : (run cfg .init as).Agrees := by
    refine (Runs.invariant_run_meets (step cfg) _ (fun s => Sound s ∧ s.Agrees) ?_
      ⟨Sound.init, Cluster.Agrees.init⟩ hcond).2
    intro s a hcond hi
    have hmove := step_move cfg s a
    exact ⟨hi.1.move hmove, hi.2.move hi.1 hcond hmove⟩
  exact ⟨ha.exclusive, fun a => ha.keepsAssignments hs (step_move cfg _ a)⟩

/-- Two sessions are minted and brought to Pending: eight calls each put the finalizer and
the phase in place. -/
def twoPending : List Act :=
  requestCalls 1 (.mint { tenantID := "t", elementID := "a" }) 2
    ++ requestCalls 2 (.mint { tenantID := "u", elementID := "b" }) 2
    ++ calls "tf-a" "" 8 ++ calls "tf-b" "" 8

theorem pods_assigned_once_two_pods :
    let as := .editPool "default-pool" (smallPool 2) ::
      (poolCalls "default-pool" "p" 4 ++ poolCalls "default-pool" "q" 1
        ++ [.podStatus "p" true "10.0.0.1", .podStatus "q" true "10.0.0.2"] ++ twoPending
        ++ calls "tf-a" "p" 5 ++ calls "tf-b" "q" 5 ++ calls "tf-a" "p" 4 ++ calls "tf-b" "q" 4)
    Runs.Meets (step {}) (fun s a => s.rereadUnowned a = true) .init as ∧
      ((run {} .init as).sessions.value "tf-a").map (·.status.phase) = some .ready ∧
      ((run {} .init as).sessions.value "tf-b").map (·.status.phase) = some .ready ∧
      (run {} .init as).Exclusive := by
  refine ⟨by decide +kernel, by decide +kernel, by decide +kernel, ?_⟩
  exact (pods_assigned_once {} _ (by decide +kernel)).1

/-- Both sessions pick the one warm Pod; `tf-a` becomes Ready, `tf-b` meets the conflict and has
read the Pod again. -/
def overtaking : List Act :=
  .editPool "default-pool" (smallPool 1) ::
    (poolCalls "default-pool" "p" 4 ++ [.podStatus "p" true "10.0.0.1"] ++ twoPending
      ++ calls "tf-a" "p" 5 ++ calls "tf-b" "p" 5 ++ calls "tf-a" "p" 4 ++ calls "tf-b" "p" 2)

theorem retry_takes_pod_over :
    ¬ (run {} .init overtaking).KeepsAssignments
        (step {} (run {} .init overtaking) (.work "tf-b" "p" true)) ∧
      ¬ (run {} .init (overtaking ++ calls "tf-b" "p" 4)).Exclusive := by
  constructor
  · intro h
    obtain ⟨pod, hpod, hassigned⟩ := (any_eq_true (fun pod => !pod.terminating &&
      pod.state = .assigned && pod.owner = some "tf-a") ((run {} .init overtaking).pods.value "p")).mp
      (by decide +kernel)
    obtain ⟨pod', hpod', howner'⟩ := (any_eq_true (fun pod => pod.owner = some "tf-b")
      ((step {} (run {} .init overtaking) (.work "tf-b" "p" true)).pods.value "p")).mp
      (by decide +kernel)
    obtain ⟨x, hx, hready⟩ := (any_eq_true (fun x => x.status.phase = .ready)
      ((run {} .init overtaking).sessions.value "tf-a")).mp (by decide +kernel)
    simp only [Bool.and_eq_true, Bool.not_eq_true', decide_eq_true_eq] at hassigned howner' hready
    obtain ⟨⟨hlive, hstate⟩, howner⟩ := hassigned
    have hended := h "p" "tf-a" "tf-b" pod pod' hpod hlive hstate howner hpod' howner' (by decide) x hx
    rw [hready] at hended
    cases hended
  · intro h
    have hholds (n : String) (hn : ((run {} .init (overtaking ++ calls "tf-b" "p" 4)).sessions.value
        n).any (fun x => x.status.phase = .ready &&
          x.status.connection.map (·.podName) = some "p") = true) :
        (run {} .init (overtaking ++ calls "tf-b" "p" 4)).Holds n "p" := by
      obtain ⟨x, hx, hp⟩ := (any_eq_true _ _).mp hn
      simp only [Bool.and_eq_true, decide_eq_true_eq] at hp
      exact ⟨x, hx, .inl hp.1, .inr hp.2⟩
    have hsame := h "tf-a" "tf-b" "p" (hholds _ (by decide +kernel)) (hholds _ (by decide +kernel))
    exact absurd hsame (by decide)

end Chromeless.Controller
