import Chromeless.ControllerObjects
import Chromeless.LibRuns

/-! The validating webhook for BrowserSession, and the history of one session under it. -/
namespace Chromeless.Controller.Admission
open Runs

inductive Operation
  | create | update
deriving DecidableEq

structure UserInfo where
  username : String := ""
  extra : List (String × List String) := []

/-- `object` and `oldObject` are what `json.Unmarshal` makes of the two raw objects, of which the
second may be missing. -/
structure Request where
  uid : String
  operation : Operation
  object : Except String BrowserSessionSpec
  oldObject : Option (Except String BrowserSessionSpec)
  userInfo : UserInfo

structure Status where
  status : String
  message : String
  reason : String
  code : ℕ

structure Response where
  uid : String
  allowed : Bool := true
  result : Option Status := none

def deny (resp : Response) (msg : String) : Response :=
  { resp with
    allowed := false
    result := some ⟨"Failure", msg, "Forbidden", 403⟩ }

def tenantFrom (u : UserInfo) : String :=
  match u.extra.lookup "tenant" with
  | some (val :: _) => val
  | _ =>
    let name := u.username.toList
    if 7 < name.length ∧ name.take 7 = "tenant:".toList then String.ofList (name.drop 7) else ""

section
variable (quote : String → String)

def validateBrowserSession (req : Request) : Response :=
  let resp : Response := { uid := req.uid }
  match req.object with
  | .error e => deny resp ("decode: " ++ e)
  | .ok sess =>
    let requesterTenant := tenantFrom req.userInfo
    if requesterTenant = "" then
      -- returns before the check on updates below
      if sess.tenantID ≠ "" ∧ sess.tenantID ≠ anonymousTenant then
        deny resp "spec.tenantID must be empty when caller is unauthenticated"
      else resp
    else if sess.tenantID = "" then
      deny resp "spec.tenantID is required when caller is authenticated"
    else if sess.tenantID ≠ requesterTenant then
      deny resp ("tenant claim " ++ quote requesterTenant ++ " does not match spec.tenantID "
        ++ quote sess.tenantID)
    else if req.operation = .update then
      match req.oldObject with
      | some (.ok old) =>
        if old.tenantID ≠ "" ∧ old.tenantID ≠ sess.tenantID then
          deny resp "spec.tenantID is immutable"
        else resp
      | _ => resp
    else resp

/-! ### One session -/

structure Call where
  uid : String
  operation : Operation
  object : Except String BrowserSessionSpec
  userInfo : UserInfo

/-- A session that exists cannot be created, and one that does not cannot be updated. -/
def Call.request (stored : Option BrowserSessionSpec) (c : Call) : Option Request :=
  match c.operation, stored with
  | .create, none => some ⟨c.uid, .create, c.object, none, c.userInfo⟩
  | .update, some old => some ⟨c.uid, .update, c.object, some (.ok old), c.userInfo⟩
  | _, _ => none

def admitted (stored : Option BrowserSessionSpec) (c : Call) : Option BrowserSessionSpec :=
  (c.request stored).bind fun req =>
    if (validateBrowserSession quote req).allowed then req.object.toOption else none

def step (stored : Option BrowserSessionSpec) (c : Call) : Option BrowserSessionSpec :=
  (admitted quote stored c).or stored

def run : Option BrowserSessionSpec → List Call → Option BrowserSessionSpec :=
  Runs.run (step quote)

def Owned (t : String) (stored : Option BrowserSessionSpec) : Prop :=
  t ≠ "" ∧ t ≠ anonymousTenant ∧ ∃ spec, stored = some spec ∧ spec.tenantID = t

/-- From when the session belongs to a tenant on, it does, and only requesters with that
tenant's claim get a call admitted. -/
def KeepsTenant (stored : Option BrowserSessionSpec) (calls : List Call) : Prop :=
  ∀ bs cs t, calls = bs ++ cs → Owned t (run quote stored bs) →
    Owned t (run quote stored calls) ∧
      ∀ ds c es, cs = ds ++ c :: es →
        (admitted quote (run quote stored (bs ++ ds)) c).isSome = true → tenantFrom c.userInfo = t

end

/-- No requester without a claim updates a session that belongs to a tenant with an empty or
anonymous tenant id. -/
def claimed (stored : Option BrowserSessionSpec) (c : Call) : Bool :=
  match c.operation, stored, c.object with
  | .update, some old, .ok new =>
    old.tenantID = "" || old.tenantID = anonymousTenant || tenantFrom c.userInfo ≠ "" ||
      (new.tenantID ≠ "" && new.tenantID ≠ anonymousTenant)
  | _, _, _ => true

section
variable {quote : String → String} {stored : Option BrowserSessionSpec} {c : Call} {t : String}

theorem update_allowed_iff (uid : String) (old new : BrowserSessionSpec) (u : UserInfo) :
    (validateBrowserSession quote ⟨uid, .update, .ok new, some (.ok old), u⟩).allowed = true ↔
      (tenantFrom u = "" ∧ (new.tenantID = "" ∨ new.tenantID = anonymousTenant)) ∨
        (tenantFrom u ≠ "" ∧ new.tenantID = tenantFrom u ∧ (old.tenantID = "" ∨ old.tenantID = new.tenantID)) := by
  by_cases hclm : tenantFrom u = ""
  · by_cases hnew : new.tenantID ≠ "" ∧ new.tenantID ≠ anonymousTenant
    · simp [validateBrowserSession, deny, hclm, hnew]
    have hor : new.tenantID = "" ∨ new.tenantID = anonymousTenant := by
      by_contra h
      rw [not_or] at h
      exact hnew h
    simp [validateBrowserSession, hclm, hnew, hor]
  by_cases hnew : new.tenantID = tenantFrom u
  · by_cases hold : old.tenantID ≠ "" ∧ old.tenantID ≠ new.tenantID
    · rw [hnew] at hold
      simp [validateBrowserSession, deny, hclm, hnew, hold]
    have hor : old.tenantID = "" ∨ old.tenantID = new.tenantID := by
      by_contra h
      rw [not_or] at h
      exact hold h
    rw [hnew] at hold hor
    simp [validateBrowserSession, hclm, hnew, hold, hor]
  · by_cases hemp : new.tenantID = ""
    · simp [validateBrowserSession, deny, hclm, hemp, Ne.symm hclm]
    · simp [validateBrowserSession, deny, hclm, hnew, hemp]

theorem admitted_eq_some {old new : BrowserSessionSpec} :
    admitted quote (some old) c = some new ↔ c.operation = .update ∧ c.object = .ok new ∧
      ((tenantFrom c.userInfo = "" ∧ (new.tenantID = "" ∨ new.tenantID = anonymousTenant)) ∨
        (tenantFrom c.userInfo ≠ "" ∧ new.tenantID = tenantFrom c.userInfo ∧
          (old.tenantID = "" ∨ old.tenantID = new.tenantID))) := by
  obtain ⟨uid, operation, object, userInfo⟩ := c
  cases operation with
  | create => simp [admitted, Call.request]
  | update =>
    cases object with
    | error => simp [admitted, Call.request, Except.toOption]
    | ok sess =>
      simp only [admitted, Call.request, Option.bind_some, Option.ite_none_right_eq_some,
        Except.toOption, Option.some.injEq, Except.ok.injEq, true_and]
      constructor
      · rintro ⟨hall, rfl⟩
        exact ⟨rfl, (update_allowed_iff uid old sess userInfo).mp hall⟩
      · rintro ⟨rfl, h⟩
        exact ⟨(update_allowed_iff uid old sess userInfo).mpr h, rfl⟩

theorem Owned.step (hown : Owned t stored) (hclmd : claimed stored c = true) :
    Owned t (step quote stored c) ∧ ((admitted quote stored c).isSome = true → tenantFrom c.userInfo = t) := by
  obtain ⟨hne, hanon, old, rfl, rfl⟩ := hown
  cases hadm : admitted quote (some old) c with
  | none =>
    have hsame : Admission.step quote (some old) c = some old := by simp [Admission.step, hadm]
    exact ⟨⟨hne, hanon, old, hsame, rfl⟩, fun h => by cases h⟩
  | some new =>
    have hstep : Admission.step quote (some old) c = some new := by simp [Admission.step, hadm]
    obtain ⟨hop, hobj, ⟨hclm, hnew⟩ | ⟨-, hnew, hold⟩⟩ := admitted_eq_some.mp hadm
    · simp [claimed, hop, hobj, hne, hanon, hclm] at hclmd
      obtain h | h := hnew
      · exact absurd h hclmd.1
      · exact absurd h hclmd.2
    · have hsame : old.tenantID = new.tenantID := hold.resolve_left hne
      exact ⟨⟨hne, hanon, new, hstep, hsame.symm⟩, fun _ => hnew.symm.trans hsame.symm⟩

theorem Owned.run {cs : List Call} (hown : Owned t stored)
    (hcs : Meets (Admission.step quote) (fun s c => claimed s c = true) stored cs) :
    Owned t (run quote stored cs) ∧ ∀ ds c es, cs = ds ++ c :: es →
      (admitted quote (Admission.run quote stored ds) c).isSome = true → tenantFrom c.userInfo = t := by
  induction cs generalizing stored with
  | nil => exact ⟨hown, fun ds c es h => by simp at h⟩
  | cons c cs ih =>
    obtain ⟨hnext, hadm⟩ := hown.step hcs.1
    obtain ⟨hend, hlat⟩ := ih hnext hcs.2
    refine ⟨hend, ?_⟩
    intro ds c' es heq h
    cases ds with
    | nil =>
      cases heq
      exact hadm h
    | cons d ds =>
      cases heq
      exact hlat ds c' es rfl h

theorem admitted_of_not_claimed (h : claimed stored c = false) :
    ∃ t, Owned t stored ∧ tenantFrom c.userInfo ≠ t ∧ (admitted quote stored c).isSome = true := by
  obtain ⟨uid, operation, object, userInfo⟩ := c
  cases operation with
  | create => simp [claimed] at h
  | update =>
    cases stored with
    | none => simp [claimed] at h
    | some old =>
      cases object with
      | error => simp [claimed] at h
      | ok =>
        simp only [claimed, Bool.or_eq_false_iff, decide_eq_false_iff_not, not_not, Bool.and_eq_false_iff] at h
        obtain ⟨⟨⟨hne, hanon⟩, hclm⟩, hnew⟩ := h
        refine ⟨old.tenantID, ⟨hne, hanon, old, rfl, rfl⟩, ?_, ?_⟩
        · rw [hclm]
          exact Ne.symm hne
        · rw [admitted_eq_some.mpr ⟨rfl, rfl, .inl ⟨hclm, hnew⟩⟩]
          rfl

end

/-- Over any calls on one session it keeps its tenant and takes updates of that tenant only, exactly
if no call of a requester without a claim takes the tenant away. -/
theorem session_keeps_tenant_iff (quote : String → String) (calls : List Call) :
    KeepsTenant quote none calls ↔ Meets (step quote) (fun s c => claimed s c = true) none calls := by
  constructor
  · intro hkeeps
    rw [meets_iff]
    intro bs c cs heq
    by_contra hclaimed
    obtain ⟨t, howned, hne, hadm⟩ := admitted_of_not_claimed (Bool.not_eq_true _ ▸ hclaimed)
    apply hne
    apply (hkeeps bs (c :: cs) t heq howned).2 [] c cs rfl
    rwa [List.append_nil]
  · rintro hmeets bs cs t rfl howned
    rw [meets_append] at hmeets
    obtain ⟨hend, hlater⟩ := Owned.run howned hmeets.2
    refine ⟨?_, ?_⟩
    · rwa [run, run_append]
    intro ds c es heq hadm
    rw [run, run_append] at hadm
    exact hlater ds c es heq hadm

/-- Its creation by tenant `acme`, and an update without credentials in which the tenant id is left
out. -/
def acmeSpec : BrowserSessionSpec := ⟨"acme", "default-pool", "", 600⟩

def acmeCreates : Call := ⟨"1", .create, .ok acmeSpec, { username := "tenant:acme" }⟩

def anyoneUpdates : Call := ⟨"2", .update, .ok { acmeSpec with tenantID := "" }, {}⟩

theorem unauthenticated_update_drops_tenant :
    (run id none [acmeCreates, anyoneUpdates]).map (·.tenantID) = some "" ∧
      ¬ KeepsTenant id none [acmeCreates, anyoneUpdates] := by
  have hdropped : (run id none [acmeCreates, anyoneUpdates]).map (·.tenantID) = some "" := by decide +kernel
  refine ⟨hdropped, ?_⟩
  intro h
  have howned : Owned "acme" (run id none [acmeCreates]) := ⟨by decide, by decide, acmeSpec, by decide +kernel, rfl⟩
  obtain ⟨-, -, spec, hspec, htenant⟩ := (h [acmeCreates] [anyoneUpdates] "acme" rfl howned).1
  rw [hspec, Option.map_some, htenant] at hdropped
  exact absurd (Option.some.inj hdropped) (by decide)

end Chromeless.Controller.Admission
