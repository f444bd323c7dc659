import Chromeless.ControllerMinting

/-! What a mint leaves of the session it finds. -/
namespace Chromeless.Controller
open Versions Annotations MintRequest

def statusCode (sess : BrowserSession) : ℕ := if sess.status.phase = .ready then 200 else 202

def Annotations.fields : List (Annotations → String) :=
  [(·.brokerSessionID), (·.browserSignalingURL), (·.browserSignalingToken),
    (·.browserIceServers), (·.browserIceTransportPolicy)]

def written (cfg : Config) (s : Cluster) : Act → Option MintRequest
  | .serve i _ =>
    match s.requests i with
    | .mintCreate req => if s.sessions.value req.name = none ∧ (req.spec cfg).valid then some req else none
    | .mintUpdate req latest =>
      if s.sessions.version req.name = some latest.version ∧ (req.spec cfg).valid then some req
      else none
    | _ => none
  | _ => none

namespace Cluster

def Connects (cfg : Config) (s : Cluster) (a : Act) (n : String) (c : Option SessionConnection) : Prop :=
  ∃ pick ok sess podName podIP now latest tries, a = .work n pick ok ∧
    s.workers n = .statusUpdate sess (.ready podName podIP now) latest tries ∧
    s.sessions.version n = some latest.version ∧
    c = some ⟨signalingURLForSession cfg n latest.value, podName, podIP⟩

def Marks (s : Cluster) (a : Act) (n : String) : Prop :=
  ∃ i deadline, a = .serve i deadline ∧ s.requests i = .delete n

def ReadyWith (n : String) (c : Option SessionConnection) (s : Cluster) : Prop :=
  ∃ x, s.sessions.value n = some x ∧ x.status.phase = .ready ∧ x.status.connection = c

def Deleting (n : String) (s : Cluster) : Prop :=
  ∃ x, s.sessions.value n = some x ∧ x.deleting = true

end Cluster

section
variable {cfg : Config} {s : Cluster} {a : Act} {n : String} {x' : BrowserSession}

theorem SessionChange.ready (hch : SessionChange cfg s a n x') (hrdy : x'.status.phase = .ready) :
    s.ReadyWith n x'.status.connection ∨ s.Connects cfg a n x'.status.connection := by
  cases hch with
  | same hget => exact .inl ⟨x', hget, hrdy, rfl⟩
  | @status pick ok sess m latest tries hact hpc hver hget heq =>
    subst heq
    cases m with
    | ready podName podIP now => exact .inr ⟨pick, ok, sess, podName, podIP, now, latest, tries, hact, hpc, hver, rfl⟩
    | activity => exact .inl ⟨_, hget, hrdy, rfl⟩
    | _ => cases hrdy
  | finalizer hget heq | rewritten _ hget heq | heartbeat _ hget _ heq | marked hget heq =>
    subst heq
    exact .inl ⟨_, hget, hrdy, rfl⟩
  | minted _ _ heq | reset _ _ heq =>
    subst heq
    cases hrdy

theorem SessionChange.deleting (hch : SessionChange cfg s a n x')
    (hdel : x'.deleting = true) : s.Deleting n ∨ s.Marks a n := by
  cases hch with
  | same hget => exact .inl ⟨x', hget, hdel⟩
  | minted hname hget heq =>
    subst heq
    cases hdel
  | marked hget heq hact hpc => exact .inr ⟨_, _, hact, hpc⟩
  | status _ _ _ hget heq | finalizer hget heq | rewritten _ hget heq | reset hget _ heq
  | heartbeat _ hget _ heq =>
    subst heq
    exact .inl ⟨_, hget, hdel⟩

structure Spares (s : Cluster) : Prop where
  copies : Copies s
  updates : ∀ i req latest, s.requests i = .mintUpdate req latest → latest.value.deleting = false

theorem ServeCall.update_spares {pc pc' : RequestPc} {e : Effect} (hcall : ServeCall cfg s pc e pc')
    {req : MintRequest} {latest : Stored BrowserSession} (h : pc' = .mintUpdate req latest)
    (hstay : pc = .mintUpdate req latest → latest.value.deleting = false) :
    latest.value.deleting = false := by
  cases hcall with
  | stay => exact hstay h
  | present hget hdel =>
    cases h
    exact hdel
  | _ => cases h

theorem Spares.step (hs : Spares s) (a : Act) : Spares (step cfg s a) := by
  have hmove := step_move cfg s a
  refine ⟨hs.copies.move hmove, ?_⟩
  intro i req latest hpc
  obtain hsame | ⟨-, e, hcall⟩ | ⟨r, hst⟩ := hmove.request_cases i
  · exact hs.updates i req latest (hsame ▸ hpc)
  · exact hcall.update_spares hpc (hs.updates i req latest)
  · rw [hst] at hpc
    cases r with
    | mint =>
      simp only [Request.start] at hpc
      split at hpc <;> cases hpc
    | _ => cases hpc

theorem Spares.run (cfg : Config) (as : List Act) : Spares (run cfg .init as) :=
  Runs.invariant_run (Controller.step cfg) Spares (fun _ a hs => hs.step a)
    ⟨Copies.init, fun _ _ _ h => nomatch h⟩ as

theorem Spares.written (hs : Spares s) {r : MintRequest} (hw : written cfg s a = some r) :
    (s.sessions.value r.name = none ∧
      (Controller.step cfg s a).sessions.value r.name = some (r.session cfg s.sessions.next)) ∨
    ∃ x, s.sessions.value r.name = some x ∧ x.deleting = false ∧
      (Controller.step cfg s a).sessions.value r.name = some (r.rewrite cfg x) := by
  cases a with
  | serve i deadline =>
    simp only [Controller.written] at hw
    split at hw
    next req hpc =>
      split at hw
      next hgd =>
        cases hw
        exact .inl ⟨hgd.1, by simp [Controller.step, serve, hpc, hgd, Cluster.apply]⟩
      · cases hw
    next req latest hpc =>
      split at hw
      next hgd =>
        cases hw
        have hget := (hs.copies.requests i _ _ (by rw [hpc]; rfl)).value_eq hgd.1
        refine .inr ⟨latest.value, hget, hs.updates i _ latest hpc, ?_⟩
        simp [Controller.step, serve, hpc, hgd, Cluster.apply]
      · cases hw
    · cases hw
  | _ => cases hw

theorem Spares.connected (hs : Spares s) {as : List Act} {x : BrowserSession}
    (hget : (Controller.run cfg s as).sessions.value n = some x) (hrdy : x.status.phase = .ready) :
    s.ReadyWith n x.status.connection ∨ ∃ bs b cs, as = bs ++ b :: cs ∧
      (Controller.run cfg s bs).Connects cfg b n x.status.connection := by
  apply Runs.run_cause (Controller.step cfg) Spares (Cluster.ReadyWith n x.status.connection)
    (fun t b => t.Connects cfg b n x.status.connection) (fun _ b ht => ht.step b) ?_ hs
  · exact ⟨x, hget, hrdy, rfl⟩
  rintro t b ht ⟨x', hget', hrdy', hconn⟩
  rw [← hconn]
  exact ((step_move cfg t b).sessionChange ht.copies hget').ready hrdy'

theorem Spares.marked (hs : Spares s) {as : List Act} {x : BrowserSession}
    (hget : (Controller.run cfg s as).sessions.value n = some x) (hdel : x.deleting = true) :
    s.Deleting n ∨ ∃ bs b cs, as = bs ++ b :: cs ∧ (Controller.run cfg s bs).Marks b n := by
  apply Runs.run_cause (Controller.step cfg) Spares (Cluster.Deleting n)
    (fun t b => t.Marks b n) (fun _ b ht => ht.step b) ?_ hs
  · exact ⟨x, hget, hdel⟩
  · rintro t b ht ⟨x', hget', hdel'⟩
    exact ((step_move cfg t b).sessionChange ht.copies hget').deleting hdel'

end

theorem brokerSessionID_ne (r : MintRequest) : r.annotations.brokerSessionID ≠ "" := by
  simp only [annotations]
  split
  · intro h
    have hlist := congrArg String.toList h
    simp [name, sessionNameForElement] at hlist
  · assumption

theorem Annotations.merge_field {f : Annotations → String} (hf : f ∈ fields)
    (old new : Annotations) : f (old.merge new) = if f new = "" then f old else f new := by
  simp only [fields, List.mem_cons, List.not_mem_nil, or_false] at hf
  obtain rfl | rfl | rfl | rfl | rfl := hf <;> rfl

/-- Whatever session a mint finds, not being deleted, it leaves with the request's spec and
annotations. When it is later answered with 200, the session is Ready, and it was connected after
the write if it was not Ready before. -/
theorem mint_on_any_session (cfg : Config) (before after : List Act) (a : Act) (r : MintRequest)
    (hw : written cfg (run cfg .init before) a = some r) :
    let s := run cfg .init before
    let s' := step cfg s a
    (∃ x', s'.sessions.value r.name = some x' ∧ x'.spec = r.spec cfg ∧
      x'.annotations.brokerSessionID = r.annotations.brokerSessionID ∧
      ∀ f ∈ fields, f x'.annotations =
        if f r.annotations = "" then (s.sessions.value r.name).elim "" (fun x => f x.annotations)
        else f r.annotations) ∧
    ∀ i x, (run cfg s' after).requests i = .waitForReady r →
      (run cfg s' after).sessions.value r.name = some x → statusCode x = 200 →
      x.status.phase = .ready ∧
      (x.deleting = true → ∃ bs b cs, after = bs ++ b :: cs ∧ (run cfg s' bs).Marks b r.name) ∧
      ((∀ y, s.sessions.value r.name = some y → y.status.phase ≠ .ready) →
        ∃ bs b cs, after = bs ++ b :: cs ∧ (run cfg s' bs).Connects cfg b r.name x.status.connection) := by
  intro s s'
  have hs : Spares s := Spares.run cfg before
  have hs' : Spares s' := hs.step a
  have hstored := hs.written hw
  constructor
  · obtain ⟨hnone, hget⟩ | ⟨x, hx, -, hget⟩ := hstored
    · refine ⟨_, hget, rfl, rfl, ?_⟩
      intro f _
      rw [hnone]
      split
      · assumption
      · rfl
    refine ⟨_, hget, rfl, ?_, ?_⟩
    · exact if_neg (brokerSessionID_ne r)
    intro f hf
    rw [hx]
    exact merge_field hf _ _
  · intro i x _ hget hcode
    have hready : x.status.phase = .ready := by
      by_contra h
      simp [statusCode, h] at hcode
    refine ⟨hready, ?_, ?_⟩
    · intro hdel
      obtain ⟨y, hy, hdel'⟩ | hmarked := hs'.marked hget hdel
      · -- the session was not being deleted when it was written
        obtain ⟨-, hnew⟩ | ⟨x₀, -, hlive, hnew⟩ := hstored
        · rw [show s'.sessions.value r.name = _ from hnew] at hy
          cases hy
          cases hdel'
        rw [show s'.sessions.value r.name = _ from hnew] at hy
        cases hy
        exact absurd hdel' (by simpa [rewrite] using hlive)
      · exact hmarked
    · intro hprior
      obtain ⟨y, hy, hphase, -⟩ | hconnected := hs'.connected hget hready
      · obtain ⟨-, hnew⟩ | ⟨x₀, hx₀, -, hnew⟩ := hstored
        · rw [show s'.sessions.value r.name = _ from hnew] at hy
          cases hy
          cases hphase
        rw [show s'.sessions.value r.name = _ from hnew] at hy
        cases hy
        exact absurd hphase (hprior x₀ hx₀)
      · exact hconnected

/-- A session minted with a relay-only policy is Pending when a mint without a policy has read it.
-/
def policyLeftOut : List Act :=
  .editPool "default-pool" (smallPool 1) ::
    (poolCalls "default-pool" "p" 4 ++ [.podStatus "p" true "10.0.0.1"]
      ++ requestCalls 1 (.mint
        { tenantID := "t", elementID := "a", iceTransportPolicy := "relay" }) 2
      ++ calls "tf-a" "" 8 ++ requestCalls 2 (.mint { tenantID := "t", elementID := "a" }) 1)

theorem mint_on_any_session_pending :
    let r : MintRequest := { tenantID := "t", elementID := "a" }
    let after := calls "tf-a" "p" 9
    let s := run {} .init policyLeftOut
    let s' := step {} s (.serve 2 false)
    written {} s (.serve 2 false) = some r ∧
      (s.sessions.value r.name).all (fun y => y.status.phase ≠ .ready) = true ∧
      (run {} s' after).requests 2 = .waitForReady r ∧
      ((run {} s' after).sessions.value r.name).any (fun x => statusCode x = 200) = true ∧
      ∃ x, (run {} s' after).sessions.value r.name = some x ∧
        ∃ bs b cs, after = bs ++ b :: cs ∧ (run {} s' bs).Connects {} b r.name x.status.connection := by
  refine ⟨by decide +kernel, by decide +kernel, by decide +kernel, by decide +kernel, ?_⟩
  obtain ⟨x, hget, hx⟩ := (Option.any_eq_true (fun x => decide (statusCode x = 200))
    ((run {} (step {} (run {} .init policyLeftOut) (.serve 2 false)) (calls "tf-a" "p" 9)).sessions.value
      (name { tenantID := "t", elementID := "a" }))).mp (by decide +kernel)
  have hprior : ((run {} .init policyLeftOut).sessions.value
      (name { tenantID := "t", elementID := "a" })).all
      (fun y => decide (y.status.phase ≠ .ready)) = true := by decide +kernel
  have hmint := mint_on_any_session {} policyLeftOut (calls "tf-a" "p" 9) (.serve 2 false)
    { tenantID := "t", elementID := "a" } (by decide +kernel)
  have hanswer := hmint.2 2 x (by decide +kernel) hget (of_decide_eq_true hx)
  refine ⟨x, hget, hanswer.2.2 ?_⟩
  intro y hy
  rw [hy] at hprior
  exact of_decide_eq_true hprior

/-- A mint of a Ready session, for an element whose token it does not repeat. -/
def tokenLeftOut : List Act :=
  .editPool "default-pool" (smallPool 0) ::
    (requestCalls 1 (.mint { tenantID := "t", elementID := "a", signalingToken := "jwt" }) 2
      ++ calls "tf-a" "p" 8 ++ calls "tf-a" "p" 10 ++ [.podStatus "p" true "10.0.0.1"]
      ++ calls "tf-a" "p" 7 ++ requestCalls 2 (.mint { tenantID := "t", elementID := "a" }) 1)

theorem mint_keeps_old_token :
    let r : MintRequest := { tenantID := "t", elementID := "a" }
    let s := run {} .init tokenLeftOut
    let s' := step {} s (.serve 2 false)
    let connection (s : Cluster) := (s.sessions.value r.name).bind (·.status.connection)
    written {} s (.serve 2 false) = some r ∧
      (s'.sessions.value r.name).map (·.annotations.browserSignalingToken) = some "jwt" ∧
      (r.session {} 0).annotations.browserSignalingToken = "" ∧
      s'.requests 2 = .waitForReady r ∧ (s'.sessions.value r.name).map statusCode = some 200 ∧
      (connection s).isSome = true ∧ connection s' = connection s := by
  refine ⟨?_, ?_, ?_, ?_, ?_, ?_, ?_⟩ <;> decide +kernel

end Chromeless.Controller
