import Mathlib.Data.List.Perm.Subperm
import Chromeless.ControllerChanges
import Chromeless.LibTurns

/-! How many Pods a pool runs. -/
namespace Chromeless.Controller
open Function Versions Cluster List Turns Pod Act Store Runs

def Pod.countsFor (p : String) (pod : Pod) : Bool :=
  !pod.terminating && pod.pool = p && (pod.state = .warm || pod.state = .assigned)

theorem Pod.countsFor_iff {p : String} {pod : Pod} :
    pod.countsFor p = true ↔ pod.terminating = false ∧ pod.pool = p ∧ (pod.state = .warm ∨ pod.state = .assigned) := by
  simp [countsFor, and_assoc]

namespace Cluster

def inUse (s : Cluster) (p name : String) : Bool := (s.pods.value name).any (countsFor p)

def capacity (s : Cluster) (p : String) : ℕ := s.podNames.countP (s.inUse p)

variable {s s' : Cluster} {p : String}

theorem inUse_iff {name : String} :
    s.inUse p name = true ↔ ∃ pod, s.pods.value name = some pod ∧ pod.countsFor p = true :=
  Option.any_eq_true _ _

theorem capacity_le_length (hnd : s.podNames.Nodup) {names : List String}
    (h : ∀ name ∈ s.podNames, s.inUse p name = true → name ∈ names) :
    s.capacity p ≤ names.length := by
  rw [capacity, countP_eq_length_filter]
  apply Subperm.length_le
  apply subperm_of_subset (hnd.filter _)
  intro name hname
  obtain ⟨hmem, huse⟩ := mem_filter.mp hname
  exact h name hmem huse

theorem capacity_mono (hnms : s'.podNames = s.podNames)
    (h : ∀ name ∈ s.podNames, s'.inUse p name = true → s.inUse p name = true) :
    s'.capacity p ≤ s.capacity p := by
  rw [capacity, capacity, hnms]
  exact countP_mono_left h

theorem capacity_concat {k : String} (hnms : s'.podNames = s.podNames ++ [k])
    (h : ∀ name ∈ s.podNames, s'.inUse p name = true → s.inUse p name = true) :
    s'.capacity p ≤ s.capacity p + (if s'.inUse p k then 1 else 0) := by
  rw [capacity, capacity, hnms, countP_append, countP_singleton]
  exact Nat.add_le_add_right (countP_mono_left h) _

/-- A Pod of the pool is cold-started only while the pool runs fewer than `M`. -/
def coldStartsBelow (s : Cluster) (p : String) (M : ℕ) : Act → Bool
  | .work n _ _ =>
    match s.workers n with
    | .createPod _ q _ => q ≠ p || s.capacity p < M
    | _ => true
  | _ => true

end Cluster

def Act.keepsMax (p : String) (M : ℕ) : Act → Bool
  | .editPool q pool => q ≠ p || pool.maxSessions = M
  | _ => true

/-! ### Reconciles one at a time -/

inductive Key
  | session (n : String)
  | pool (p : String)
deriving DecidableEq

def Act.key : Act → Option Key
  | .work n _ _ => some (.session n)
  | .abort n => some (.session n)
  | .poolWork p _ => some (.pool p)
  | .poolAbort p => some (.pool p)
  | _ => none

def Pc.isIdle : Pc → Bool
  | .idle => true
  | _ => false

def PoolPc.isIdle : PoolPc → Bool
  | .idle => true
  | _ => false

def Cluster.busy (s : Cluster) : Key → Bool
  | .session n => !(s.workers n).isIdle
  | .pool p => !(s.poolWorkers p).isIdle

def turn (cfg : Config) : Taken Cluster Key → Act → Taken Cluster Key :=
  Turns.turn (step cfg) key busy

theorem busy_step (cfg : Config) (s : Cluster) (a : Act) (k : Key) (h : a.key ≠ some k) :
    (step cfg s a).busy k = s.busy k := by
  have hmove := step_move cfg s a
  generalize step cfg s a = s' at hmove
  cases k with
  | session m =>
    have hwork : s'.workers m = s.workers m := by
      cases hmove with
      | @work n | @abort n =>
        have hm : m ≠ n := fun hm => h (by rw [hm]; rfl)
        simp [update_of_ne hm]
      | _ => simp
    simp [busy, hwork]
  | pool q =>
    have hwork : s'.poolWorkers q = s.poolWorkers q := by
      cases hmove with
      | @pool p | @poolAbort p =>
        have hq : q ≠ p := fun hq => h (by rw [hq]; rfl)
        simp [update_of_ne hq]
      | _ => simp
    simp [busy, hwork]

/-! ### What a step does to the count -/

def Cluster.Settled (s : Cluster) : Prop :=
  ∀ name pod, s.pods.value name = some pod → pod.state ≠ .draining

section
variable {cfg : Config} {s s' : Cluster} {a : Act} {p k : String} {pod' : Pod}

variable {pod : Pod}

theorem assignPod_label {n : String} {sess : BrowserSession} (h : assignPod n sess pod = some pod') :
    pod'.state = .assigned ∧ pod'.pool = pod.pool ∧ pod'.terminating = pod.terminating := by
  obtain ⟨c, rfl⟩ := assignPod_eq h
  exact ⟨rfl, rfl, rfl⟩

theorem PodChange.state_ne_draining (hch : PodChange cfg s a k pod') (hs : s.Settled) :
    pod'.state ≠ .draining := by
  cases hch with
  | @kept pod terminating ready ip hget hterm heq =>
    subst heq
    exact hs k pod hget
  | cold hact hfr hpc heq => simp [heq, createPodFromTemplate]
  | warm hfr heq => simp [heq, createWarmPod]
  | assigned hact hpc hver hget hpod => simp [(assignPod_label hpod).1]
  | returned hact hpc hver hget heq => simp [heq, scrubbedPod]

theorem Cluster.Settled.inUse (hs : s.Settled) (hget : s.pods.value k = some pod)
    (hlive : pod.terminating = false) (hpool : pod.pool = p) : s.inUse p k = true := by
  refine Cluster.inUse_iff.mpr ⟨pod, hget, countsFor_iff.mpr ⟨hlive, hpool, ?_⟩⟩
  have hstate := hs k pod hget
  cases hpod : pod.state with
  | warm => exact .inl rfl
  | assigned => exact .inr rfl
  | draining => exact absurd hpod hstate

theorem PodChange.inUse (hch : PodChange cfg s a k pod') (hs : s.Settled) (hcnt : pod'.countsFor p = true) :
    s.inUse p k = true ∨
      (k ∉ s.podNames ∧
        ((∃ n pick ok sess pool, a = .work n pick ok ∧ s.workers n = .createPod sess p pool) ∨
          ∃ pick pool now warm assigned draining created, a = .poolWork p pick ∧
            s.poolWorkers p = .replenish pool now warm assigned draining created ∧
            ¬ (0 < pool.value.maxSessions ∧ pool.value.maxSessions ≤ warm + assigned + created))) := by
  obtain ⟨hlive, hpool, -⟩ := countsFor_iff.mp hcnt
  cases hch with
  | @kept pod terminating ready ip hget hterm heq =>
    subst heq
    have hlive : pod.terminating = false := by
      by_contra h
      rw [Bool.not_eq_false] at h
      exact absurd (hterm h) (by simpa using hlive)
    exact .inl (hs.inUse hget hlive hpool)
  | @cold n pick ok sess poolName pool hact hfr hpc heq =>
    obtain rfl : poolName = p := by simpa [heq, createPodFromTemplate] using hpool
    exact .inr ⟨hfr, .inl ⟨n, pick, ok, sess, pool, hact, hpc⟩⟩
  | @warm q pick pool now warm assigned draining created hfr heq hact hpc hmax =>
    obtain rfl : q = p := by simpa [heq, createWarmPod] using hpool
    exact .inr ⟨hfr, .inr ⟨pick, pool, now, warm, assigned, draining, created, hact, hpc, hmax⟩⟩
  | assigned hact hpc hver hget hpod =>
    obtain ⟨-, hpool', hterm'⟩ := assignPod_label hpod
    exact .inl (hs.inUse hget (hterm' ▸ hlive) (hpool' ▸ hpool))
  | returned hact hpc hver hget heq =>
    subst heq
    exact .inl (hs.inUse hget hlive hpool)

theorem Move.podNames (hmove : Move cfg s a s') :
    s'.podNames = s.podNames ∨ ∃ k ∉ s.podNames, s'.podNames = s.podNames ++ [k] := by
  have hdel (name : String) : (s.apply (s.deletePod name)).podNames = s.podNames := apply_deletePod_podNames s name
  cases hmove with
  | @work n pick ok e pc hcall =>
    generalize s.workers n = pc₀ at hcall
    cases hcall with
    | created hfr => exact .inr ⟨_, hfr, rfl⟩
    | recreated | finalDeleted | finalLeft => exact .inl (hdel _)
    | _ => exact .inl rfl
  | @pool q pick e pc hcall =>
    generalize s.poolWorkers q = pc₀ at hcall
    cases hcall with
    | replenished hshr hmax hfr => exact .inr ⟨_, hfr, rfl⟩
    | aged => exact .inl (hdel _)
    | _ => exact .inl rfl
  | @serve i deadline e pc hcall =>
    generalize s.requests i = pc₀ at hcall
    cases hcall <;> exact .inl rfl
  | outside hout =>
    cases hout with
    | evicted => exact .inl (hdel _)
    | _ => exact .inl rfl
  | _ => exact .inl rfl

theorem Move.nodup (hmove : Move cfg s a s') (h : s.podNames.Nodup) : s'.podNames.Nodup := by
  obtain hsame | ⟨k, hk, hnew⟩ := hmove.podNames
  · rwa [hsame]
  rw [hnew]
  rw [nodup_append]
  refine ⟨h, by simp, ?_⟩
  intro name hname k' hk' heq
  rw [heq, mem_singleton.mp hk'] at hname
  exact hk hname

end

/-! ### The pool's own count -/

def PoolPc.Accounts (s : Cluster) (p : String) (M : ℕ) : PoolPc → Prop
  | .idle => True
  | .listPods pool => pool.value.maxSessions = M
  | .classify pool _ items warm assigned _ =>
    pool.value.maxSessions = M ∧ ∃ counted : List String, counted.length = warm + assigned ∧
      ∀ name, s.inUse p name = true → name ∈ counted ∨ ∃ pod, (name, pod) ∈ items ∧ pod.countsFor p = true
  | .replenish pool _ warm assigned _ created =>
    pool.value.maxSessions = M ∧
      ∃ counted : List String, counted.length = warm + assigned + created ∧
        ∀ name, s.inUse p name = true → name ∈ counted

section
variable {cfg : Config} {s s' : Cluster} {a : Act} {p : String} {M : ℕ} {pc pc' : PoolPc}

theorem PoolPc.Accounts.mono (h : ∀ name, s'.inUse p name = true → s.inUse p name = true)
    (hacc : pc.Accounts s p M) : pc.Accounts s' p M := by
  cases pc with
  | idle => trivial
  | listPods => exact hacc
  | classify | replenish =>
    obtain ⟨hM, counted, hlen, hcov⟩ := hacc
    exact ⟨hM, counted, hlen, fun name huse => hcov name (h name huse)⟩

variable {k name : String}

theorem Cluster.inUse_deletePod (h : (s.apply (s.deletePod k)).inUse p name = true) :
    name ≠ k ∧ s.inUse p name = true := by
  obtain ⟨pod, hget, hcnt⟩ := Cluster.inUse_iff.mp h
  rw [apply_deletePod_value, update_apply] at hget
  split_ifs at hget with hk
  · -- a Pod marked for deletion is not in use
    obtain ⟨pod₀, -, rfl⟩ := Option.map_eq_some_iff.mp hget
    simp [countsFor] at hcnt
  · exact ⟨hk, Cluster.inUse_iff.mpr ⟨pod, hget, hcnt⟩⟩

theorem Cluster.inUse_createPod {pod : Pod} (h : (s.apply (.createPod k pod)).inUse p name = true) :
    name = k ∨ s.inUse p name = true := by
  by_cases hk : name = k
  · exact .inl hk
  · simp only [inUse, apply, value_set, update_of_ne hk] at h
    exact .inr h

theorem PoolCall.accounts {e : Effect} (hcall : PoolCall s p pc e pc') (hs : Copies s)
    (hsto : ∀ pool, s.pools.value p = some pool → pool.maxSessions = M)
    (hacc : pc.Accounts s p M) : pc'.Accounts (s.apply e) p M := by
  have hskip {name k : String} {pod : Pod} {items : List (String × Pod)}
      (hnot : name ≠ k ∨ pod.countsFor p = false)
      (h : ∃ pod', (name, pod') ∈ (k, pod) :: items ∧ pod'.countsFor p = true) :
      ∃ pod', (name, pod') ∈ items ∧ pod'.countsFor p = true := by
    obtain ⟨pod', hmem, hcnt⟩ := h
    obtain heq | hmem := mem_cons.mp hmem
    · cases heq
      obtain hne | hout := hnot
      · exact absurd rfl hne
      · rw [hout] at hcnt
        cases hcnt
    · exact ⟨pod', hmem, hcnt⟩
  -- the next Pod of the list is counted
  have hcounted {k : String} {pod : Pod} {items : List (String × Pod)} {counted : List String}
      (hcov : ∀ name, s.inUse p name = true →
        name ∈ counted ∨ ∃ pod', (name, pod') ∈ (k, pod) :: items ∧ pod'.countsFor p = true)
      (name : String) (huse : s.inUse p name = true) :
      name ∈ k :: counted ∨ ∃ pod', (name, pod') ∈ items ∧ pod'.countsFor p = true := by
    obtain hmem | hlat := hcov name huse
    · exact .inl (mem_cons_of_mem _ hmem)
    by_cases hk : name = k
    · exact .inl (hk ▸ mem_cons_self)
    · exact .inr (hskip (.inl hk) hlat)
  cases hcall with
  | quit => trivial
  | stay => exact hacc
  | get hget => exact hsto _ (value_of_objects hget)
  | listed =>
    refine ⟨hacc, [], rfl, ?_⟩
    intro name huse
    obtain ⟨pod, hget, hcnt⟩ := Cluster.inUse_iff.mp huse
    have hpool := (countsFor_iff.mp hcnt).2.1
    exact .inr ⟨pod, mem_podsOf.mpr ⟨hs.names _ _ hget, hget, hpool⟩, hcnt⟩
  | looked =>
    obtain ⟨hM, counted, hlen, hcov⟩ := hacc
    refine ⟨hM, counted, hlen, ?_⟩
    intro name huse
    obtain hmem | ⟨pod, hmem, -⟩ := hcov name huse
    · exact hmem
    · cases hmem
  | aged =>
    obtain ⟨hM, counted, hlen, hcov⟩ := hacc
    refine ⟨hM, counted, hlen, ?_⟩
    intro name huse
    obtain ⟨hne, huse⟩ := inUse_deletePod huse
    exact (hcov name huse).imp id (hskip (.inl hne))
  | terminating hterm | countDraining _ hterm =>
    obtain ⟨hM, counted, hlen, hcov⟩ := hacc
    refine ⟨hM, counted, hlen, ?_⟩
    intro name huse
    exact (hcov name huse).imp id (hskip (.inr (by simp [countsFor, hterm])))
  | countWarm | countAssigned =>
    obtain ⟨hM, counted, hlen, hcov⟩ := hacc
    exact ⟨hM, _ :: counted, by simp only [length_cons]; omega, hcounted hcov⟩
  | @replenished pool now warm assigned draining created k =>
    obtain ⟨hM, counted, hlen, hcov⟩ := hacc
    refine ⟨hM, k :: counted, by simp only [length_cons]; omega, ?_⟩
    intro name huse
    obtain rfl | huse := inUse_createPod huse
    · exact mem_cons_self
    · exact mem_cons_of_mem _ (hcov name huse)
  | reported => trivial

theorem Move.maxSessions (hmove : Move cfg s a s') (hkeep : a.keepsMax p M = true)
    (hsto : ∀ pool, s.pools.value p = some pool → pool.maxSessions = M) (hacc : (s.poolWorkers p).Accounts s p M)
    (pool : BrowserSessionPool) (h : s'.pools.value p = some pool) : pool.maxSessions = M := by
  have hdel (name : String) : (s.apply (s.deletePod name)).pools = s.pools := by
    obtain ⟨pod, -, he⟩ | ⟨-, he⟩ := s.deletePod_cases name <;> rw [he] <;> rfl
  cases hmove with
  | @work n pick ok e pc hcall =>
    apply hsto
    generalize s.workers n = pc₀ at hcall
    cases hcall with
    | recreated | finalDeleted | finalLeft => exact hdel _ ▸ h
    | _ => exact h
  | @pool q pick e pc hcall =>
    have hacc : p = q → (s.poolWorkers q).Accounts s p M := fun hq => hq ▸ hacc
    generalize s.poolWorkers q = pc₀ at hcall hacc
    cases hcall with
    | aged => exact hsto pool (hdel _ ▸ h)
    | reported =>
      simp only [setPoolWorker_pools, Cluster.apply, value_set, update_apply] at h
      split_ifs at h with hq
      · cases h
        exact (hacc hq).1
      · exact hsto pool h
    | _ => exact hsto pool h
  | @serve i deadline e pc hcall =>
    apply hsto
    generalize s.requests i = pc₀ at hcall
    cases hcall <;> exact h
  | outside hout =>
    cases hout with
    | evicted => exact hsto pool (hdel _ ▸ h)
    | @editPool q =>
      simp only [Cluster.apply, value_set, update_apply] at h
      split_ifs at h with hq
      · cases h
        simpa [keepsMax, hq] using hkeep
      · exact hsto pool h
    | @deletePool q =>
      simp only [Cluster.apply, value_erase, update_apply] at h
      split_ifs at h
      exact hsto pool h
    | _ => exact hsto pool h
  | _ => exact hsto pool h

end

/-! ### Runs -/

structure Budget (p : String) (M : ℕ) (t : Taken Cluster Key) : Prop where
  copies : Copies t.state
  nodup : t.state.podNames.Nodup
  settled : t.state.Settled
  quiet : Quiet busy t
  stored : ∀ pool, t.state.pools.value p = some pool → pool.maxSessions = M
  accounts : (t.state.poolWorkers p).Accounts t.state p M
  within : t.state.capacity p ≤ M

/-- Reconciles run one at a time, the pool keeps its `maxSessions`, and cold starts stay
below it. -/
def Cluster.coldStartsFit (p : String) (M : ℕ) (t : Taken Cluster Key) (a : Act) : Bool :=
  inTurn key t a && a.keepsMax p M && t.state.coldStartsBelow p M a

section
variable {cfg : Config} {p : String} {M : ℕ} {t : Taken Cluster Key} {a : Act}

theorem Budget.accounts_step (hb : Budget p M t) (hturn : inTurn key t a = true) :
    ((step cfg t.state a).poolWorkers p).Accounts (step cfg t.state a) p M := by
  have hidle (k : Key) (hk : a.key = some k) (hne : Key.pool p ≠ k) :
      t.state.poolWorkers p = .idle := by
    have hbusy := hb.quiet.others hturn hk hne
    cases hpc : t.state.poolWorkers p with
    | idle => rfl
    | _ => simp [busy, hpc, PoolPc.isIdle] at hbusy
  have hmove := step_move cfg t.state a
  have hcop := hb.copies
  have hacc := hb.accounts
  have hset := hb.settled
  have hsto := hb.stored
  generalize t.state = s at hidle hmove hcop hacc hset hsto ⊢
  generalize step cfg s a = s' at hmove ⊢
  cases hmove with
  | work =>
    rw [setWorker_poolWorkers, apply_poolWorkers, hidle _ rfl (by simp)]
    trivial
  | abort => trivial
  | @pool q pick e pc hcall =>
    rw [setPoolWorker_poolWorkers, update_apply]
    split_ifs with hq
    · subst hq
      exact hcall.accounts hcop hsto hacc
    rw [apply_poolWorkers, hidle _ rfl (by simpa using hq)]
    trivial
  | @poolAbort q =>
    rw [setPoolWorker_poolWorkers, update_apply]
    split_ifs with hq
    · trivial
    rw [hidle _ rfl (by simpa using hq)]
    trivial
  | serve hcall =>
    simp only [setRequest_poolWorkers, apply_poolWorkers]
    refine hacc.mono ?_
    intro name huse
    simpa only [Cluster.inUse, setRequest_pods, hcall.pods] using huse
  | outside hout =>
    rw [apply_poolWorkers]
    refine hacc.mono ?_
    intro name huse
    obtain ⟨pod, hget, hcnt⟩ := Cluster.inUse_iff.mp huse
    -- nothing outside the controller creates a Pod
    have hch : PodChange cfg s (.tick 0) name pod := hout.podChange hget
    obtain hold | ⟨-, ⟨n, pick, ok, sess, pool, hact, -⟩ | ⟨pick, pool, now, w, x, d, c, hact, -⟩⟩ :=
      hch.inUse hset hcnt
    · exact hold
    · cases hact
    · cases hact
  | _ => exact hacc

theorem Budget.within_step (hM : 0 < M) (hb : Budget p M t)
    (hcold : t.state.coldStartsBelow p M a = true) : (step cfg t.state a).capacity p ≤ M := by
  have hmove := step_move cfg t.state a
  have hin (name : String) (huse : (step cfg t.state a).inUse p name = true) :
      t.state.inUse p name = true ∨ (name ∉ t.state.podNames ∧ t.state.capacity p < M) := by
    obtain ⟨pod, hget, hcnt⟩ := Cluster.inUse_iff.mp huse
    obtain hold | ⟨hfr, hnew⟩ := (hmove.podChange hb.copies hget).inUse hb.settled hcnt
    · exact .inl hold
    refine .inr ⟨hfr, ?_⟩
    obtain ⟨n, pick, ok, sess, pool, rfl, hpc⟩ |
      ⟨pick, pool, now, warm, assigned, draining, created, rfl, hpc, hmax⟩ := hnew
    · simpa [Cluster.coldStartsBelow, hpc] using hcold
    have hacc := hb.accounts
    rw [hpc] at hacc
    obtain ⟨hpool, counted, hlen, hcov⟩ := hacc
    calc
      t.state.capacity p ≤ counted.length := Cluster.capacity_le_length hb.nodup fun name _ huse => hcov name huse
      _ = warm + assigned + created := hlen
      _ < M := by omega
  have hmono : ∀ name ∈ t.state.podNames, (step cfg t.state a).inUse p name = true → t.state.inUse p name = true := by
    intro name hname huse
    obtain hold | ⟨hfr, -⟩ := hin name huse
    · exact hold
    · exact absurd hname hfr
  obtain hnms | ⟨k, hk, hnms⟩ := hmove.podNames
  · exact (Cluster.capacity_mono hnms hmono).trans hb.within
  have hle := Cluster.capacity_concat hnms hmono
  have hwth := hb.within
  by_cases huse : (step cfg t.state a).inUse p k = true
  · rw [if_pos huse] at hle
    obtain hold | ⟨-, hlt⟩ := hin k huse
    · -- a name that was never given has no Pod
      obtain ⟨pod, hget, -⟩ := Cluster.inUse_iff.mp hold
      exact absurd (hb.copies.names k pod hget) hk
    · omega
  · rw [if_neg huse] at hle
    omega

theorem Budget.turn (hM : 0 < M) (hb : Budget p M t) (hfit : coldStartsFit p M t a = true) :
    Budget p M (turn cfg t a) := by
  simp only [coldStartsFit, Bool.and_eq_true] at hfit
  obtain ⟨⟨hturn, hkeep⟩, hcold⟩ := hfit
  have hmove := step_move cfg t.state a
  refine
    { copies := hb.copies.move hmove
      nodup := hmove.nodup hb.nodup
      settled := ?_
      quiet := hb.quiet.turn (busy_step cfg) hturn
      stored := hmove.maxSessions hkeep hb.stored hb.accounts
      accounts := hb.accounts_step hturn
      within := hb.within_step hM hcold }
  intro name pod hget
  exact (hmove.podChange hb.copies hget).state_ne_draining hb.settled

end

theorem names_settled (cfg : Config) (as : List Act) :
    (run cfg .init as).podNames.Nodup ∧ (run cfg .init as).Settled := by
  refine (invariant_run (step cfg) (fun s => Copies s ∧ s.podNames.Nodup ∧ s.Settled) ?_ ?_ as).2
  · rintro s a ⟨hcop, hnd, hset⟩
    have hmove := step_move cfg s a
    refine ⟨hcop.move hmove, hmove.nodup hnd, ?_⟩
    intro name pod hget
    exact (hmove.podChange hcop hget).state_ne_draining hset
  · exact ⟨Copies.init, nodup_nil, fun name pod hget => nomatch hget⟩

/-- With reconciles one at a time and no cold start at the limit, a pool stays within its
`maxSessions`. -/
theorem pool_stays_within_maxSessions (cfg : Config) (p : String) (M : ℕ) (hM : 0 < M)
    (before as : List Act) (hidle : ∀ k, (run cfg .init before).busy k = false)
    (hpool : ∀ pool, (run cfg .init before).pools.value p = some pool → pool.maxSessions = M)
    (hwithin : (run cfg .init before).capacity p ≤ M)
    (hfit : Meets (turn cfg) (fun t a => coldStartsFit p M t a = true)
      ⟨none, run cfg .init before⟩ as) :
    (run cfg .init (before ++ as)).capacity p ≤ M := by
  obtain ⟨hnodup, hsettled⟩ := names_settled cfg before
  have hidle' : (run cfg .init before).poolWorkers p = .idle := by
    have hbusy := hidle (.pool p)
    cases hpc : (run cfg .init before).poolWorkers p with
    | idle => rfl
    | _ => simp [busy, hpc, PoolPc.isIdle] at hbusy
  have hstart : Budget p M ⟨none, run cfg .init before⟩ :=
    { copies := (Sound.run cfg before).copies
      nodup := hnodup
      settled := hsettled
      quiet := fun k _ => hidle k
      stored := hpool
      accounts := by rw [hidle']; trivial
      within := hwithin }
  have hend := invariant_run_meets (turn cfg) _ (Budget p M) (fun t a hok hb => hb.turn hM hok) hstart hfit
  have hstate := run_state (step cfg) key busy ⟨none, run cfg .init before⟩ as
  have hcap := hend.within
  rw [show turn cfg = Turns.turn (step cfg) key busy from rfl, hstate] at hcap
  rwa [run, run_append]

def twoAtMost : BrowserSessionPool := { smallPool 1 with maxSessions := 2 }

theorem pool_stays_within_maxSessions_full :
    let before := [.editPool "default-pool" twoAtMost]
    let as := poolCalls "default-pool" "p" 5 ++ [.podStatus "p" true "10.0.0.1"]
      ++ requestCalls 1 (.mint { tenantID := "t", elementID := "a" }) 2
      ++ calls "tf-a" "p" 8 ++ calls "tf-a" "p" 9 ++ poolCalls "default-pool" "q" 6
      ++ poolCalls "default-pool" "r" 6
    Meets (turn {}) (fun t a => coldStartsFit "default-pool" 2 t a = true)
      ⟨none, run {} .init before⟩ as ∧
      (run {} .init (before ++ as)).podNames = ["p", "q"] ∧
      (run {} .init (before ++ as)).capacity "default-pool" ≤ 2 := by
  refine ⟨by decide +kernel, by decide +kernel, ?_⟩
  refine pool_stays_within_maxSessions {} "default-pool" 2 (by decide) _ _ ?_ ?_ (by decide +kernel) (by decide +kernel)
  · intro k
    cases k <;> rfl
  intro pool hpool
  cases hpool
  rfl

def coldStarted (i : ℕ) (elementID name pick : String) : List Act :=
  requestCalls i (.mint { tenantID := "t", elementID := elementID }) 2 ++ calls name pick 8 ++ calls name pick 10

theorem cold_start_exceeds_maxSessions :
    let before := [.editPool "default-pool" { smallPool 0 with maxSessions := 1 }]
    let as := coldStarted 1 "a" "tf-a" "p" ++ coldStarted 2 "b" "tf-b" "q"
    (∀ k, (run {} .init before).busy k = false) ∧
      (run {} .init before).capacity "default-pool" ≤ 1 ∧
      Meets (turn {}) (fun t a => (inTurn key t a &&
        a.keepsMax "default-pool" 1) = true) ⟨none, run {} .init before⟩ as ∧
      ¬ (run {} .init (before ++ as)).capacity "default-pool" ≤ 1 := by
  refine ⟨?_, by decide +kernel, by decide +kernel, by decide +kernel⟩
  intro k
  cases k <;> rfl

end Chromeless.Controller
