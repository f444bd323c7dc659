import Chromeless.ControllerChanges

/-! Whose values a Pod's environment holds. -/
namespace Chromeless.Controller
open Versions Cluster List

/-! ### The environment of a new Pod -/

variable {uid now : ℕ} {env : List EnvVar} {v : EnvVar} {cfg : Config} {n : String}
  {sess : BrowserSession} {c : Container} {pool : BrowserSessionPool}

theorem mem_upsertEnv {kv : String × String} (h : v ∈ upsertEnv uid env kv) :
    v.origin = some uid ∨ v ∈ env := by
  induction env with
  | nil =>
    rw [upsertEnv, mem_singleton] at h
    exact .inl (h ▸ rfl)
  | cons w env ih =>
    rw [upsertEnv] at h
    split at h
    · obtain rfl | h := mem_cons.mp h
      · exact .inl rfl
      · exact .inr (mem_cons_of_mem _ h)
    obtain rfl | h := mem_cons.mp h
    · exact .inr mem_cons_self
    obtain h | h := ih h
    · exact .inl h
    · exact .inr (mem_cons_of_mem _ h)

theorem mem_foldl_upsertEnv {kvs : List (String × String)} (h : v ∈ kvs.foldl (upsertEnv uid) env) :
    v.origin = some uid ∨ v ∈ env := by
  induction kvs generalizing env with
  | nil => exact .inr h
  | cons kv kvs ih =>
    obtain h | h := ih h
    · exact .inl h
    · exact mem_upsertEnv h

theorem mem_applyAssignedSessionEnv {cs : List Container}
    (hc : c ∈ applyAssignedSessionEnv cfg n sess cs) (hv : v ∈ c.env) :
    v.origin = some sess.uid ∨ ∃ c₀ ∈ cs, v ∈ c₀.env := by
  induction cs with
  | nil => cases hc
  | cons d cs ih =>
    rw [applyAssignedSessionEnv] at hc
    split at hc
    · obtain rfl | hc := mem_cons.mp hc
      · obtain h | h := mem_foldl_upsertEnv hv
        · exact .inl h
        · exact .inr ⟨d, mem_cons_self, h⟩
      · exact .inr ⟨c, mem_cons_of_mem _ hc, hv⟩
    obtain rfl | hc := mem_cons.mp hc
    · exact .inr ⟨c, mem_cons_self, hv⟩
    obtain h | ⟨c₀, hmem, h⟩ := ih hc
    · exact .inl h
    · exact .inr ⟨c₀, mem_cons_of_mem _ hmem, h⟩

theorem templateContainers_origin (hc : c ∈ pool.templateContainers) (hv : v ∈ c.env) :
    v.origin = none := by
  obtain ⟨t, -, rfl⟩ := mem_map.mp hc
  obtain ⟨kv, -, rfl⟩ := mem_map.mp hv
  rfl

theorem createWarmPod_carries {p : String} : ¬ (createWarmPod p pool now).Carries uid := by
  rintro ⟨c, hc, v, hv, hori⟩
  rw [templateContainers_origin hc hv] at hori
  cases hori

theorem createPodFromTemplate_carries {poolName : String}
    (h : (createPodFromTemplate cfg n sess poolName pool now).Carries uid) : uid = sess.uid := by
  obtain ⟨c, hc, v, hv, hori⟩ := h
  obtain h | ⟨c₀, hc₀, hv₀⟩ := mem_applyAssignedSessionEnv hc hv
  · rw [h] at hori
    exact (Option.some.inj hori).symm
  · rw [templateContainers_origin hc₀ hv₀] at hori
    cases hori

theorem Pod.Carries.congr {pod pod' : Pod} (heq : pod'.containers = pod.containers)
    (h : pod'.Carries uid) : pod.Carries uid := by
  obtain ⟨c, hc, hv⟩ := h
  exact ⟨c, heq ▸ hc, hv⟩

/-! ### Whose Pod it is -/

namespace Cluster

def BoundTo (s : Cluster) (n podName : String) : Prop :=
  s.Owned n podName ∨ ∃ x, s.sessions.value n = some x ∧ x.status.connection.map (·.podName) = some podName

/-- No Pod bound to a session carries a value injected from another one. -/
def EnvIsolated (s : Cluster) : Prop :=
  ∀ n podName pod x uid, s.BoundTo n podName → s.pods.value podName = some pod →
    s.sessions.value n = some x → pod.Carries uid → uid = x.uid

/-- A scrubbed Pod that goes back to the pool carries no value of any session. -/
def returnsUninjected (s : Cluster) : Act → Bool
  | .work n _ _ =>
    match s.workers n with
    | .scrubUpdate _ podName pod =>
      s.pods.version podName ≠ some pod.version ||
        pod.value.containers.all fun c => c.env.all fun v => v.origin = none
    | _ => true
  | _ => true

end Cluster

def Pc.binding : Pc → Option (BrowserSession × String)
  | .assignUpdate sess podName _ _ => some (sess, podName)
  | .assignGet sess podName _ => some (sess, podName)
  | .advanceFromBoundPod sess podName _ => some (sess, podName)
  | .statusGet sess (.ready podName _ _) _ => some (sess, podName)
  | .statusUpdate sess (.ready podName _ _) _ _ => some (sess, podName)
  | _ => none

def Cluster.OnlyFrom (s : Cluster) (k : String) (uid : ℕ) : Prop :=
  k ∈ s.podNames ∧ ∀ pod u, s.pods.value k = some pod → pod.Carries u → u = uid

structure Cluster.Clean (s : Cluster) : Prop where
  injected : ∀ k pod u, s.pods.value k = some pod → pod.Carries u →
    pod.state = .assigned ∧ ∀ n, pod.boundTo n = true → ∃ x, s.sessions.value n = some x ∧ x.uid = u
  binding : ∀ n sess k, (s.workers n).binding = some (sess, k) → s.OnlyFrom k sess.uid
  recorded : ∀ n x k, s.sessions.value n = some x → x.status.connection.map (·.podName) = some k → s.OnlyFrom k x.uid

theorem Cluster.Clean.init : init.Clean := by
  refine ⟨?_, ?_, ?_⟩
  · intro k pod u h
    cases h
  · intro n sess k h
    cases h
  · intro n x k h
    cases h

section
variable {cfg : Config} {s s' : Cluster} {a : Act} {n k : String}

variable {pod' : Pod} {uid : ℕ} {sess : BrowserSession}

theorem Move.containers (hmove : Move cfg s a s') (hs : Copies s) (hmem : k ∈ s.podNames)
    (hget' : s'.pods.value k = some pod') :
    ∃ pod, s.pods.value k = some pod ∧ pod'.containers = pod.containers := by
  cases hmove.podChange hs hget' with
  | @kept pod terminating ready ip hget hterm heq => exact ⟨pod, hget, heq ▸ rfl⟩
  | cold _ hfr | warm hfr => exact absurd hmem hfr
  | assigned hact hpc hver hget hpod =>
    obtain ⟨ref, rfl⟩ := assignPod_eq hpod
    exact ⟨_, hget, rfl⟩
  | returned hact hpc hver hget heq => exact ⟨_, hget, heq ▸ rfl⟩

theorem Move.onlyFrom (hmove : Move cfg s a s') (hs : Copies s) (h : s.OnlyFrom k uid) :
    s'.OnlyFrom k uid := by
  refine ⟨hmove.podNames_subset h.1, ?_⟩
  intro pod' u hget' hcar
  obtain ⟨pod, hget, heq⟩ := hmove.containers hs h.1 hget'
  exact h.2 pod u hget (hcar.congr heq)

theorem WorkCall.binding {e : Effect} {pc pc' : Pc} (hcall : WorkCall cfg s n pc e pc') (hs : Copies s)
    (hc : s.Clean) (hgd : pc.engaged = true → ∃ x, s.sessions.value n = some x ∧ x.finalizer = true ∧ pc.Expects x)
    (hold : ∀ sess k, pc.binding = some (sess, k) → s.OnlyFrom k sess.uid) (h : pc'.binding = some (sess, k)) :
    s.OnlyFrom k sess.uid ∨ (k ∉ s.podNames ∧ ∃ poolName pool, e = .createPod k
      (createPodFromTemplate cfg n sess poolName pool s.clock)) := by
  cases hcall with
  | stay | assigned | assignConflict | assignAgain | toReady => exact .inl (hold _ _ h)
  | @bound sess poolName pool podName o hget hb =>
    cases h
    have hval := Store.value_of_objects hget
    refine .inl ⟨hs.names _ _ hval, ?_⟩
    intro pod u hpod hcar
    rw [hval] at hpod
    cases hpod
    obtain ⟨x, hx, rfl⟩ := (hc.injected _ _ u hval hcar).2 n hb
    obtain ⟨y, hy, -, hexp⟩ := hgd rfl
    rw [hx] at hy
    cases hy
    exact hexp.1
  | picked hget hwarm =>
    cases h
    have hval := Store.value_of_objects hget
    refine .inl ⟨hs.names _ _ hval, ?_⟩
    intro pod u hpod hcar
    rw [hval] at hpod
    cases hpod
    -- a Pod with values in it is not warm
    have hstate := (hc.injected _ _ u hval hcar).1
    simp [warmFor, hstate] at hwarm
  | created hfr =>
    cases h
    exact .inr ⟨hfr, _, _, rfl⟩
  | @statusRead _ m | @statusConflict _ m =>
    cases m <;> exact .inl (hold _ _ h)
  | _ => cases h

section
variable (hmove : Move cfg s a s')
include hmove

theorem Move.binding (hs : Sound s) (hc : s.Clean)
    (h : (s'.workers n).binding = some (sess, k)) : s'.OnlyFrom k sess.uid := by
  obtain ⟨e, pc', hcall, rfl, -⟩ | hfrm := hmove.own_or_frame hs.copies n
  · simp only [setWorker_workers, Function.update_self] at h
    obtain hold | ⟨hfr, poolName, pool, rfl⟩ := hcall.binding hs.copies hc (hs.guarded n) (hc.binding n) h
    · exact hmove.onlyFrom hs.copies hold
    refine ⟨mem_append_right _ (mem_singleton.mpr rfl), ?_⟩
    intro pod u hget hcar
    simp only [setWorker_pods, Cluster.apply, Store.value_set, Function.update_self, Option.some.injEq] at hget
    subst hget
    exact createPodFromTemplate_carries hcar
  · rw [hfrm.worker] at h
    exact hmove.onlyFrom hs.copies (hc.binding n sess k h)

theorem Move.recordedFrom (hs : Sound s) (hc : s.Clean) {x' : BrowserSession} (hget' : s'.sessions.value n = some x')
    (hconn : x'.status.connection.map (·.podName) = some k) : s'.OnlyFrom k x'.uid := by
  apply hmove.onlyFrom hs.copies
  cases hmove.sessionChange hs.copies hget' with
  | same hget => exact hc.recorded n x' k hget hconn
  | @status pick ok sess m latest tries hact hpc hver hget heq =>
    subst heq
    have hold := hc.recorded n latest.value k hget
    cases m with
    | ready podName =>
      -- the Pod being recorded is the one being bound, for the session as it was read
      obtain ⟨x, hx, -, hexp⟩ := hs.guarded n (by rw [hpc]; rfl)
      rw [hget] at hx
      cases hx
      rw [hpc] at hexp
      cases hconn
      have hbind := hc.binding n sess podName (by rw [hpc]; rfl)
      exact hexp.1 ▸ hbind
    | ended => cases hconn
    | _ => exact hold hconn
  | @finalizer x _ hget heq | @marked _ _ x hget heq =>
    subst heq
    exact hc.recorded n x k hget hconn
  | minted _ _ heq | reset _ _ heq =>
    subst heq
    cases hconn
  | @rewritten _ _ _ latest _ hget heq | @heartbeat _ _ latest _ hget _ heq =>
    subst heq
    exact hc.recorded n latest.value k hget hconn

theorem Move.boundSession (hs : Sound s) (hown : s.Owned n k) (h : ∃ x, s.sessions.value n = some x ∧ x.uid = uid) :
    ∃ x, s'.sessions.value n = some x ∧ x.uid = uid := by
  obtain ⟨x, hx, rfl⟩ := h
  exact hs.owned_session hmove hown hx

theorem Move.injected (hs : Sound s) (hc : s.Clean) (hcond : s.returnsUninjected a = true) {u : ℕ}
    (hget' : s'.pods.value k = some pod') (hcar : pod'.Carries u) :
    pod'.state = .assigned ∧ ∀ n, pod'.boundTo n = true → ∃ x, s'.sessions.value n = some x ∧ x.uid = u := by
  cases hmove.podChange hs.copies hget' with
  | @kept pod terminating ready ip hget hterm heq =>
    subst heq
    obtain ⟨hst, hbd⟩ := hc.injected k pod u hget (hcar.congr rfl)
    refine ⟨hst, ?_⟩
    intro n hb
    obtain ⟨hown, hlive⟩ := Pod.boundTo_iff.mp hb
    have hb₀ : pod.boundTo n = true := by
      refine Pod.boundTo_iff.mpr ⟨hown, ?_⟩
      cases hpod : pod.terminating with
      | false => rfl
      | true => exact absurd hlive (by simp [hterm hpod])
    exact hmove.boundSession hs ⟨pod, hget, hb₀⟩ (hbd n hb₀)
  | @cold m pick ok sess poolName pool hact hfr hpc heq =>
    subst heq
    refine ⟨rfl, ?_⟩
    intro n hb
    cases (Pod.boundTo_iff.mp hb).1
    obtain rfl := createPodFromTemplate_carries hcar
    exact hs.served_session hmove (by rw [hpc]; rfl) (by rw [hpc]; rfl) (fun x hx => by rw [hpc] at hx; exact hx.1)
  | warm hfr heq =>
    subst heq
    exact absurd hcar createWarmPod_carries
  | @assigned m pick ok sess latest tries hact hpc hver hget hpod =>
    obtain ⟨ref, rfl⟩ := assignPod_eq hpod
    refine ⟨rfl, ?_⟩
    intro n hb
    cases (Pod.boundTo_iff.mp hb).1
    obtain rfl := (hc.binding m sess k (by rw [hpc]; rfl)).2 _ u hget (hcar.congr rfl)
    exact hs.served_session hmove (by rw [hpc]; rfl) (by rw [hpc]; rfl) (fun x hx => by rw [hpc] at hx; exact hx.1)
  | @returned m pick ok sess o hact hpc hver hget heq =>
    subst heq hact
    obtain ⟨c, hmem, v, hv, hori⟩ := hcar
    simp only [Cluster.returnsUninjected, hpc, hver, ne_eq, not_true_eq_false, decide_false,
      Bool.false_or, all_eq_true, decide_eq_true_eq] at hcond
    rw [hcond c hmem v hv] at hori
    cases hori

end

theorem Cluster.Clean.move (hc : s.Clean) (hs : Sound s) (hcond : s.returnsUninjected a = true)
    (hmove : Move cfg s a s') : s'.Clean :=
  ⟨fun _ _ _ => hmove.injected hs hc hcond, fun _ _ _ => hmove.binding hs hc, fun _ _ _ => hmove.recordedFrom hs hc⟩

end

theorem Cluster.Clean.envIsolated {s : Cluster} (hc : s.Clean) : s.EnvIsolated := by
  intro n k pod x uid hbd hget hx hcar
  obtain ⟨pod₀, hget₀, hb⟩ | ⟨y, hy, hconn⟩ := hbd
  · rw [hget] at hget₀
    cases hget₀
    obtain ⟨y, hy, rfl⟩ := (hc.injected k pod uid hget hcar).2 n hb
    rw [hx] at hy
    cases hy
    rfl
  rw [hx] at hy
  cases hy
  exact (hc.recorded n x k hx hconn).2 pod uid hget hcar

/-- As long as no scrub gives back a Pod with a session's values in it, the Pod a session is
bound to holds no other session's values. -/
theorem recycled_pods_isolated (cfg : Config) (as : List Act)
    (hcond : Runs.Meets (step cfg) (fun s a => s.returnsUninjected a = true) .init as) :
    (run cfg .init as).EnvIsolated := by
  refine Clean.envIsolated (Runs.invariant_run_meets (step cfg) _
    (fun s => Sound s ∧ s.Clean) ?_ ⟨Sound.init, Clean.init⟩ hcond).2
  intro s a hcond hi
  have hmove := step_move cfg s a
  exact ⟨hi.1.move hmove, hi.2.move hi.1 hcond hmove⟩

def scrubbingPool (warmReplicas : ℕ) : BrowserSessionPool :=
  { warmReplicas := warmReplicas
    recyclePolicy := .scrubAndReturn
    containers := [⟨"chromeless", [("DISPLAY", ":0")]⟩] }

def drainCalls (n podName : String) : List Act :=
  .tick (700 * second) :: (calls n podName 4 ++ calls n podName 8)

theorem recycled_pods_isolated_warm :
    let as := .editPool "default-pool" (scrubbingPool 1) ::
      (poolCalls "default-pool" "p" 4 ++ [.podStatus "p" true "10.0.0.1"]
        ++ requestCalls 1 (.mint { tenantID := "t", elementID := "a" }) 2
        ++ calls "tf-a" "p" 8 ++ calls "tf-a" "p" 9 ++ drainCalls "tf-a" "p"
        ++ requestCalls 2 (.mint { tenantID := "u", elementID := "b" }) 2
        ++ calls "tf-b" "p" 8 ++ calls "tf-b" "p" 9
        ++ requestCalls 3 (.mint { tenantID := "v", elementID := "c", signalingToken := "jwt" }) 2
        ++ calls "tf-c" "q" 8 ++ calls "tf-c" "q" 10)
    Runs.Meets (step {}) (fun s a => s.returnsUninjected a = true) .init as ∧
      ((run {} .init as).pods.value "p").map (·.owner) = some (some "tf-b") ∧
      ((run {} .init as).sessions.value "tf-c").any (fun x =>
        ((run {} .init as).pods.value "q").any (fun pod => pod.Carries x.uid)) = true ∧
      (run {} .init as).EnvIsolated := by
  refine ⟨by decide +kernel, by decide +kernel, by decide +kernel, ?_⟩
  exact recycled_pods_isolated {} _ (by decide +kernel)

/-- Session `tf-a` is cold-started with a token, its Pod is scrubbed, and `tf-b` takes it. -/
def coldPodReused : List Act :=
  .editPool "default-pool" (scrubbingPool 0) ::
    (requestCalls 1 (.mint { tenantID := "t", elementID := "a", signalingToken := "jwt" }) 2
      ++ calls "tf-a" "p" 8 ++ calls "tf-a" "p" 10 ++ [.podStatus "p" true "10.0.0.1"]
      ++ calls "tf-a" "p" 7 ++ drainCalls "tf-a" "p"
      ++ requestCalls 2 (.mint { tenantID := "u", elementID := "b" }) 2
      ++ calls "tf-b" "p" 8 ++ calls "tf-b" "p" 9)

theorem scrub_keeps_injected_env : ¬ (run {} .init coldPodReused).EnvIsolated := by
  intro h
  obtain ⟨pod, hpod, hp⟩ := (Option.any_eq_true (fun pod => pod.boundTo "tf-b" && pod.Carries 0)
    ((run {} .init coldPodReused).pods.value "p")).mp (by decide +kernel)
  obtain ⟨x, hx, hnew⟩ := (Option.any_eq_true (fun x => x.uid ≠ 0)
    ((run {} .init coldPodReused).sessions.value "tf-b")).mp (by decide +kernel)
  simp only [Bool.and_eq_true, decide_eq_true_eq, ne_eq] at hp hnew
  have huid := h "tf-b" "p" pod x 0 (.inl ⟨pod, hpod, hp.1⟩) hpod hx hp.2
  exact hnew huid.symm

end Chromeless.Controller
