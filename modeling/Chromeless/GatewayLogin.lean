import Chromeless.LibCount
import Chromeless.LibRuns

/-! The login form of the gateway. Each POST is a goroutine of its own, and their steps come in any
order. -/
namespace Chromeless.Gateway
open Function List Runs

def maxFailedAttempts : ℕ := 5

/-- 15 minutes, in seconds. -/
def lockoutWindow : ℕ := 15*60

structure FailureRecord where
  count : ℕ := 0
  till : ℕ := 0
deriving DecidableEq

structure SessionStore where
  sessions : String → Option ℕ := fun _ => none
  failures : String → Option FailureRecord := fun _ => none

structure Config where
  user : String
  pass : String
  sessionTTL : ℕ

namespace SessionStore
variable (s : SessionStore) (now : ℕ) (key : String)

def lockedOut : Bool × SessionStore :=
  match s.failures key with
  | none => (false, s)
  | some record =>
    if record.till < now then
      (false, { s with failures := update s.failures key none })
    else (maxFailedAttempts ≤ record.count, s)

/-- Counts a bad password against `key`. The clock is read twice, at `now` and `later`. -/
def recordFailure (later : ℕ) : SessionStore :=
  let record : FailureRecord :=
    match s.failures key with
    | none => {}
    | some record => if record.till < now then {} else record
  { s with
    failures := update s.failures key (some ⟨record.count+1, later+lockoutWindow⟩) }

def clearFailures : SessionStore :=
  { s with failures := update s.failures key none }

def create (ttl : ℕ) (id : String) : SessionStore :=
  let sessions := update s.sessions id (some (now+ttl))
  { s with sessions := fun k => (sessions k).filter fun exp => ¬ exp < now }

end SessionStore

def constantTimeCompare (x y : String) : ℕ := if x = y then 1 else 0

def checkCredentials (cfg : Config) (user pass : String) : Bool :=
  let userOK := constantTimeCompare user cfg.user = 1
  let passOK := constantTimeCompare pass cfg.pass = 1
  userOK && passOK

/-- What a login request is answered: the form with a message, an error or the redirect with
the session's cookie. -/
inductive Response
  | login (status : ℕ) (errMsg : String)
  | error (status : ℕ) (msg : String)
  | redirect (status : ℕ) (path id : String)
deriving DecidableEq

/-- Where a request is in `doLogin`: the call it makes next. -/
inductive Pc
  | lockedOut
  | parseForm
  | checkCredentials (user pass : String)
  | recordFailure
  | create
  | clearFailures (id : String)
  | done (response : Response)
deriving DecidableEq

/-- A POST /login. `form` is what `ParseForm` and `PostFormValue` make of its body. -/
structure Request where
  remoteAddr : String
  form : Except String (String × String)
  pc : Pc := .lockedOut

structure State where
  now : ℕ
  store : SessionStore := {}
  requests : List Request := []

/-- `advance` is the next step of a request. `pause` passes between two readings of the clock, and
`rand.Read` gives `entropy` or fails. -/
inductive Act
  | arrive (remoteAddr : String) (form : Except String (String × String))
  | advance (i : ℕ) (pause : ℕ) (entropy : Option String)
  | tick (d : ℕ)

section
variable (cfg : Config) (splitHostPort : String → Except String (String × String))

def clientKey (remoteAddr : String) : String :=
  match splitHostPort remoteAddr with
  | .error _ => remoteAddr
  | .ok (host, _) => host

def Request.key (r : Request) : String := clientKey splitHostPort r.remoteAddr

def doLogin (now : ℕ) (store : SessionStore) (r : Request) (pause : ℕ) (entropy : Option String) :
    Pc × SessionStore × ℕ :=
  let key := r.key splitHostPort
  match r.pc with
  | .lockedOut =>
    let (locked, store') := store.lockedOut now key
    if locked then (.done (.login 429 "Too many failed attempts. Try again later."), store', 0)
    else (.parseForm, store', 0)
  | .parseForm =>
    match r.form with
    | .error _ => (.done (.login 400 "Malformed form submission."), store, 0)
    | .ok (user, pass) => (.checkCredentials user pass, store, 0)
  | .checkCredentials user pass =>
    if ¬ checkCredentials cfg user pass then (.recordFailure, store, 0) else (.create, store, 0)
  | .recordFailure =>
    (.done (.login 401 "Incorrect username or password."), store.recordFailure now key (now+pause), pause)
  | .create =>
    match entropy with
    | none => (.done (.error 500 "internal error"), store, 0)
    | some id => (.clearFailures id, store.create now cfg.sessionTTL id, 0)
  | .clearFailures id => (.done (.redirect 303 "/" id), store.clearFailures key, 0)
  | .done response => (.done response, store, 0)

def step (s : State) : Act → State
  | .arrive remoteAddr form => { s with requests := s.requests ++ [⟨remoteAddr, form, .lockedOut⟩] }
  | .advance i pause entropy =>
    match s.requests[i]? with
    | none => s
    | some r =>
      let (pc, store, d) := doLogin cfg splitHostPort s.now s.store r pause entropy
      ⟨s.now+d, store, s.requests.set i { r with pc := pc }⟩
  | .tick d => { s with now := s.now+d }

def run : State → List Act → State := Runs.run (step cfg splitHostPort)

/-! ### What is counted -/

def SessionStore.live (store : SessionStore) (now : ℕ) (key : String) : Option FailureRecord :=
  (store.failures key).filter fun record => ¬ record.till < now

def State.record (s : State) (key : String) : Option FailureRecord := s.store.live s.now key

def State.count (s : State) (key : String) : ℕ := ((s.record key).map (·.count)).getD 0

def wrongNext : Pc → Bool
  | .checkCredentials user pass => !checkCredentials cfg user pass
  | _ => false

def comparesWrong (s : State) (key : String) : Act → Bool
  | .advance i _ _ => s.requests[i]?.any fun r => r.key splitHostPort = key && wrongNext cfg r.pc
  | _ => false

def wrongComparisons (key : String) : State → List Act → ℕ
  | _, [] => 0
  | s, a :: as => (comparesWrong cfg splitHostPort s key a).toNat +
      wrongComparisons key (step cfg splitHostPort s a) as

/-- Between two consecutive instants at which the failure record of a key is absent or expired,
there are at most `maxFailedAttempts` wrong comparisons. -/
def Throttled (s : State) (as : List Act) : Prop :=
  ∀ bs cs ds key, as = bs ++ cs ++ ds → (run cfg splitHostPort s bs).record key = none →
    (∀ es fs, cs = es ++ fs → es ≠ [] → fs ≠ [] → ((run cfg splitHostPort s (bs ++ es)).record key).isSome = true) →
    wrongComparisons cfg splitHostPort key (run cfg splitHostPort s bs) cs ≤ maxFailedAttempts

/-- The lockout test has let the request through and it has not been judged yet, or the
failure has not been counted yet. -/
def Pc.undecided : Pc → Bool
  | .parseForm | .checkCredentials _ _ | .recordFailure => true
  | _ => false

def State.undecided (s : State) (key : String) : ℕ :=
  s.requests.countP fun r => r.key splitHostPort = key && r.pc.undecided

/-- The lockout test lets no request through while the failures counted and the requests let through
are more than the budget. -/
def paced (s : State) : Act → Bool
  | .advance i _ _ =>
    s.requests[i]?.all fun r => r.pc ≠ .lockedOut ||
      (s.store.lockedOut s.now (r.key splitHostPort)).1 ||
      s.count (r.key splitHostPort) + s.undecided splitHostPort (r.key splitHostPort) ≤
        maxFailedAttempts
  | _ => true

end

section
variable {store : SessionStore} {now d : ℕ} {key other : String}

open SessionStore

theorem live_of_some {record : FailureRecord} (h : store.failures key = some record) :
    store.live now key = if record.till < now then none else some record := by
  rw [live, h, Option.filter_some]
  by_cases hexp : record.till < now <;> simp [hexp]

theorem live_later : store.live (now+d) key = store.live now key ∨ store.live (now+d) key = none := by
  cases hrec : store.failures key with
  | none => exact .inr (by rw [live, hrec, Option.filter_none])
  | some record =>
    rw [live_of_some hrec, live_of_some hrec]
    by_cases hexp : record.till < now+d
    · exact .inr (if_pos hexp)
    · rw [if_neg hexp, if_neg (by omega)]
      exact .inl rfl

theorem live_lockedOut : (store.lockedOut now key).2.live now other = store.live now other := by
  unfold SessionStore.lockedOut
  cases hrec : store.failures key with
  | none => rfl
  | some record =>
    by_cases hexp : record.till < now
    · simp only [hexp, if_true]
      by_cases hkey : other = key
      · subst hkey
        rw [live_of_some hrec, if_pos hexp]
        simp [live]
      · simp [live, update_of_ne hkey]
    · simp [hexp]

theorem live_recordFailure_self :
    (store.recordFailure now key (now+d)).live (now+d) key =
      some ⟨((store.live now key).map (·.count)).getD 0 + 1, now+d+lockoutWindow⟩ := by
  cases hrec : store.failures key with
  | none => simp [live, SessionStore.recordFailure, hrec]
  | some record =>
    rw [live_of_some hrec]
    by_cases hexp : record.till < now <;> simp [live, SessionStore.recordFailure, hrec, hexp]

theorem live_recordFailure_of_ne (hne : other ≠ key) :
    (store.recordFailure now key (now+d)).live (now+d) other = store.live (now+d) other := by
  simp [live, SessionStore.recordFailure, update_of_ne hne]

theorem live_clearFailures :
    (store.clearFailures key).live now other = store.live now other ∨
      (store.clearFailures key).live now other = none := by
  by_cases hkey : other = key
  · subst hkey
    exact .inr (by simp [live, SessionStore.clearFailures])
  · exact .inl (by simp [live, SessionStore.clearFailures, update_of_ne hkey])

end

section
variable {cfg : Config} {splitHostPort : String → Except String (String × String)}

variable (cfg splitHostPort) in
/-- What a step of a request can do to the failure records, and to what it may still do to
them. -/
inductive Outcome (now : ℕ) (store : SessionStore) (r : Request) (pause : ℕ) :
    Pc × SessionStore × ℕ → Prop
  | settles {pc : Pc} {store' : SessionStore}
      (hlive : ∀ key, store'.live now key = store.live now key ∨ store'.live now key = none)
      (hundecided : pc.undecided = true → r.pc.undecided = true)
      (hbefore : r.pc ≠ .recordFailure) (hafter : pc ≠ .recordFailure)
      (hwrong : wrongNext cfg r.pc = false) : Outcome now store r pause (pc, store', 0)
  | passes {store' : SessionStore} (hpc : r.pc = .lockedOut)
      (hopen : (store.lockedOut now (r.key splitHostPort)).1 = false)
      (hlive : ∀ key, store'.live now key = store.live now key) :
      Outcome now store r pause (.parseForm, store', 0)
  | fails {user pass : String} (hpc : r.pc = .checkCredentials user pass)
      (hwrong : checkCredentials cfg user pass = false) :
      Outcome now store r pause (.recordFailure, store, 0)
  | counts {response : Response} (hpc : r.pc = .recordFailure) :
      Outcome now store r pause (.done response, store.recordFailure now (r.key splitHostPort) (now+pause), pause)

open Pc

theorem doLogin_outcome (cfg : Config) (splitHostPort : String → Except String (String × String)) (now : ℕ)
    (store : SessionStore) (r : Request) (pause : ℕ) (entropy : Option String) :
    Outcome cfg splitHostPort now store r pause (doLogin cfg splitHostPort now store r pause entropy) := by
  have hsame : ∀ key, store.live now key = store.live now key ∨ store.live now key = none := fun _ => .inl rfl
  unfold doLogin
  cases hpc : r.pc with
  | lockedOut =>
    cases hlock : (store.lockedOut now (r.key splitHostPort)).1 with
    | true =>
      simp only [hlock, if_true]
      exact .settles (fun _ => .inl live_lockedOut) (by simp [undecided]) (by simp [hpc])
        (by simp) (by simp [hpc, wrongNext])
    | false =>
      simp only [hlock, Bool.false_eq_true, if_false]
      exact .passes hpc hlock fun _ => live_lockedOut
  | parseForm =>
    cases hform : r.form with
    | error => exact .settles hsame (by simp [undecided]) (by simp [hpc]) (by simp) (by simp [hpc, wrongNext])
    | ok => exact .settles hsame (by simp [hpc, undecided]) (by simp [hpc]) (by simp) (by simp [hpc, wrongNext])
  | checkCredentials user pass =>
    cases hcheck : checkCredentials cfg user pass with
    | true =>
      simp only [hcheck, not_true_eq_false, if_false]
      exact .settles hsame (by simp [undecided]) (by simp [hpc]) (by simp) (by simp [hpc, wrongNext, hcheck])
    | false =>
      simp only [hcheck, Bool.false_eq_true, not_false_eq_true, if_true]
      exact .fails hpc hcheck
  | recordFailure => exact .counts hpc
  | create =>
    cases entropy with
    | none => exact .settles hsame (by simp [undecided]) (by simp [hpc]) (by simp) (by simp [hpc, wrongNext])
    | some =>
      exact .settles (fun _ => .inl rfl) (by simp [undecided]) (by simp [hpc]) (by simp) (by simp [hpc, wrongNext])
  | clearFailures =>
    exact .settles (fun _ => live_clearFailures) (by simp [undecided]) (by simp [hpc]) (by simp)
      (by simp [hpc, wrongNext])
  | done => exact .settles hsame (by simp [undecided]) (by simp [hpc]) (by simp) (by simp [hpc, wrongNext])

end


section
variable {cfg : Config} {splitHostPort : String → Except String (String × String)}

variable (splitHostPort) in
def State.failing (s : State) (key : String) : ℕ :=
  s.requests.countP fun r => r.key splitHostPort = key && r.pc = .recordFailure

variable (cfg splitHostPort) in
/-- What an action can do to the account of a key. -/
inductive Change (key : String) (s : State) (a : Act) (s' : State) : Prop
  /-- Nothing, or its record is cleared or expires, or a request is done with. -/
  | settles (hrecord : s'.record key = s.record key ∨ s'.record key = none)
      (hundecided : s'.undecided splitHostPort key ≤ s.undecided splitHostPort key)
      (hfailing : s'.failing splitHostPort key = s.failing splitHostPort key)
      (hwrong : comparesWrong cfg splitHostPort s key a = false)
  /-- The lockout test lets a request through. -/
  | passes (i pause : ℕ) (entropy : Option String) (r : Request)
      (hact : a = .advance i pause entropy) (hget : s.requests[i]? = some r)
      (hkey : r.key splitHostPort = key) (hpc : r.pc = .lockedOut)
      (hopen : (s.store.lockedOut s.now key).1 = false)
      (hrecord : s'.record key = s.record key)
      (hundecided : s'.undecided splitHostPort key = s.undecided splitHostPort key + 1)
      (hfailing : s'.failing splitHostPort key = s.failing splitHostPort key)
      (hwrong : comparesWrong cfg splitHostPort s key a = false)
  /-- A comparison fails. -/
  | fails (hrecord : s'.record key = s.record key)
      (hundecided : s'.undecided splitHostPort key = s.undecided splitHostPort key)
      (hfailing : s'.failing splitHostPort key = s.failing splitHostPort key + 1)
      (hwrong : comparesWrong cfg splitHostPort s key a = true)
  /-- A failure is counted. -/
  | counts (till : ℕ) (hrecord : s'.record key = some ⟨s.count key + 1, till⟩)
      (hundecided : s'.undecided splitHostPort key + 1 = s.undecided splitHostPort key)
      (hfailing : s'.failing splitHostPort key + 1 = s.failing splitHostPort key)
      (hwrong : comparesWrong cfg splitHostPort s key a = false)

variable {i pause : ℕ} {r : Request} {entropy : Option String} {s' : State}

section
variable (splitHostPort) (key : String) {s : State}

theorem undecided_set (hget : s.requests[i]? = some r) (pc : Pc) (store : SessionStore) (now : ℕ) :
    State.undecided splitHostPort ⟨now, store, s.requests.set i { r with pc := pc }⟩ key +
        (r.key splitHostPort = key && r.pc.undecided).toNat =
      s.undecided splitHostPort key + (r.key splitHostPort = key && pc.undecided).toNat :=
  Count.countP_set_add hget

theorem failing_set (hget : s.requests[i]? = some r) (pc : Pc) (store : SessionStore) (now : ℕ) :
    State.failing splitHostPort ⟨now, store, s.requests.set i { r with pc := pc }⟩ key +
        (r.key splitHostPort = key && r.pc = .recordFailure).toNat =
      s.failing splitHostPort key +
        (r.key splitHostPort = key && pc = .recordFailure).toNat :=
  Count.countP_set_add hget

end

theorem advance_change (key : String) {s : State} (hget : s.requests[i]? = some r) {pc : Pc} {store : SessionStore}
    {d : ℕ} (hout : Outcome cfg splitHostPort s.now s.store r pause (pc, store, d)) :
    Change cfg splitHostPort key s (.advance i pause entropy)
      ⟨s.now+d, store, s.requests.set i { r with pc := pc }⟩ := by
  have hundecided := undecided_set splitHostPort key hget pc store (s.now+d)
  have hfailing := failing_set splitHostPort key hget pc store (s.now+d)
  have hwrg : comparesWrong cfg splitHostPort s key (.advance i pause entropy) =
      (r.key splitHostPort = key && wrongNext cfg r.pc) := by simp [comparesWrong, hget]
  by_cases hkey : r.key splitHostPort = key
  · subst hkey
    simp only [decide_true, Bool.true_and] at hundecided hfailing hwrg
    cases hout with
    | settles hlive hle hbef haft hright =>
      simp only [hbef, haft, decide_false] at hfailing
      refine .settles (hlive _) ?_ hfailing (hwrg.trans hright)
      have hle' := Bool.toNat_le_toNat hle
      omega
    | passes hpc hopen hlive =>
      simp only [hpc, Pc.undecided, reduceCtorEq, decide_false] at hundecided hfailing
      refine .passes i pause entropy r rfl hget rfl hpc hopen (hlive _) hundecided hfailing ?_
      rw [hwrg, hpc]
      rfl
    | fails hpc hcheck =>
      simp only [hpc, Pc.undecided, reduceCtorEq, decide_false, decide_true] at hundecided hfailing
      refine .fails rfl (Nat.add_right_cancel hundecided) hfailing ?_
      simp [hwrg, hpc, wrongNext, hcheck]
    | counts hpc =>
      simp only [hpc, Pc.undecided, reduceCtorEq, decide_false, decide_true] at hundecided hfailing
      refine .counts _ live_recordFailure_self hundecided hfailing ?_
      rw [hwrg, hpc]
      rfl
  · simp only [hkey, decide_false, Bool.false_and] at hundecided hfailing hwrg
    refine .settles ?_ (Nat.le_of_eq hundecided) hfailing hwrg
    cases hout with
    | settles hlive => exact hlive key
    | passes hpc hopen hlive => exact .inl (hlive key)
    | fails => exact .inl rfl
    | counts =>
      rw [State.record, live_recordFailure_of_ne (Ne.symm hkey)]
      exact live_later

variable (cfg splitHostPort) in
theorem step_change (key : String) (s : State) (a : Act) :
    Change cfg splitHostPort key s a (step cfg splitHostPort s a) := by
  cases a with
  | tick => exact .settles live_later (Nat.le_refl _) rfl rfl
  | arrive =>
    refine .settles (.inl rfl) ?_ ?_ rfl
    · simp [step, State.undecided, Pc.undecided]
    · simp [step, State.failing]
  | advance i pause entropy =>
    cases hget : s.requests[i]? with
    | none =>
      have hstep : step cfg splitHostPort s (.advance i pause entropy) = s := by simp [step, hget]
      rw [hstep]
      exact .settles (.inl rfl) (Nat.le_refl _) rfl (by simp [comparesWrong, hget])
    | some r =>
      have hout := doLogin_outcome cfg splitHostPort s.now s.store r pause entropy
      simp only [step, hget]
      exact advance_change key hget hout

/-! ### The budget -/

variable {s : State} {key : String} {a : Act}

section
variable (splitHostPort) (s)

def State.spent (key : String) : ℕ :=
  s.count key + s.failing splitHostPort key

def Within : Prop :=
  ∀ key, s.count key + s.undecided splitHostPort key ≤ maxFailedAttempts + 1

theorem failing_le_undecided (key : String) :
    s.failing splitHostPort key ≤ s.undecided splitHostPort key := by
  apply countP_mono_left
  intro r _ hr
  rw [Bool.and_eq_true, decide_eq_true_eq, decide_eq_true_eq] at hr
  simp [hr.1, hr.2, Pc.undecided]

end

theorem Within.spent_le (h : Within splitHostPort s) (key : String) :
    s.spent splitHostPort key ≤ maxFailedAttempts + 1 := by
  have hle := failing_le_undecided splitHostPort s key
  have hkey := h key
  unfold State.spent
  omega

theorem count_of_record (h : s'.record key = s.record key) : s'.count key = s.count key := by
  rw [State.count, State.count, h]

theorem count_le_of_record (h : s'.record key = s.record key ∨ s'.record key = none) :
    s'.count key ≤ s.count key := by
  obtain h | h := h
  · exact Nat.le_of_eq (count_of_record h)
  · rw [State.count, h]
    exact Nat.zero_le _

theorem Within.step (h : Within splitHostPort s) (hpcd : paced splitHostPort s a = true) :
    Within splitHostPort (step cfg splitHostPort s a) := by
  intro key
  have hkey := h key
  cases step_change cfg splitHostPort key s a with
  | settles hrec =>
    have hcnt := count_le_of_record hrec
    omega
  | passes i pause entropy r hact hget hr hpc hopen hrec =>
    -- the one step that adds to the sum is the one the condition is about
    subst hact
    have hcnt := count_of_record hrec
    simp [paced, hget, hpc, hr, hopen] at hpcd
    omega
  | fails hrec =>
    have hcnt := count_of_record hrec
    omega
  | counts till hrec =>
    have hcnt : (Gateway.step cfg splitHostPort s a).count key = s.count key + 1 := by
      rw [State.count, hrec]
      rfl
    omega

theorem spent_step (hlive : (s.record key).isSome = true) :
    (((step cfg splitHostPort s a).record key).isSome = true ∧
      (step cfg splitHostPort s a).spent splitHostPort key =
        s.spent splitHostPort key + (comparesWrong cfg splitHostPort s key a).toNat) ∨
    ((step cfg splitHostPort s a).record key = none ∧ comparesWrong cfg splitHostPort s key a = false) := by
  unfold State.spent
  cases step_change cfg splitHostPort key s a with
  | settles hrecord hund hfail hwrg =>
    obtain hrecord | hrecord := hrecord
    · refine .inl ⟨by rw [hrecord]; exact hlive, ?_⟩
      rw [count_of_record hrecord, hfail, hwrg]
      rfl
    · exact .inr ⟨hrecord, hwrg⟩
  | passes _ _ _ _ _ _ _ _ _ hrecord _ hfail hwrg | fails hrecord _ hfail hwrg =>
    refine .inl ⟨by rw [hrecord]; exact hlive, ?_⟩
    rw [count_of_record hrecord, hfail, hwrg]
    rfl
  | counts till hrecord hund hfail hwrg =>
    refine .inl ⟨by rw [hrecord]; rfl, ?_⟩
    have hcnt : (step cfg splitHostPort s a).count key = s.count key + 1 := by
      rw [State.count, hrecord]
      rfl
    rw [hcnt, hwrg, Bool.toNat_false]
    omega

theorem spent_opening (hnone : s.record key = none)
    (hlive : ((step cfg splitHostPort s a).record key).isSome = true) :
    1 ≤ (step cfg splitHostPort s a).spent splitHostPort key ∧ comparesWrong cfg splitHostPort s key a = false := by
  have hstays (h : (step cfg splitHostPort s a).record key = none) : False := by simp [h] at hlive
  cases step_change cfg splitHostPort key s a with
  | settles hrec => exact (hstays (hrec.elim (·.trans hnone) id)).elim
  | passes _ _ _ _ _ _ _ _ _ hrec | fails hrec => exact (hstays (hrec.trans hnone)).elim
  | counts till hrec hund hfail hwrg =>
    refine ⟨?_, hwrg⟩
    have hcnt : (step cfg splitHostPort s a).count key = s.count key + 1 := by
      rw [State.count, hrec]
      rfl
    unfold State.spent
    omega

theorem wrongComparisons_live {as : List Act} (hwth : Within splitHostPort s)
    (hmts : Meets (Gateway.step cfg splitHostPort) (fun s a => paced splitHostPort s a = true) s as)
    (hrec : (s.record key).isSome = true) (hlive : ∀ es fs, as = es ++ fs → es ≠ [] → fs ≠ [] →
      ((run cfg splitHostPort s es).record key).isSome = true) :
    wrongComparisons cfg splitHostPort key s as + s.spent splitHostPort key ≤
      maxFailedAttempts + 1 := by
  induction as generalizing s with
  | nil =>
    have hle := hwth.spent_le key
    simp only [wrongComparisons]
    omega
  | cons a as ih =>
    simp only [wrongComparisons]
    obtain ⟨hnext, hspent⟩ | ⟨hnext, hwrg⟩ := spent_step (a := a) hrec
    · have hrest := ih (hwth.step hmts.1) hmts.2 hnext ?_
      · omega
      · intro es fs heq hes hfs
        exact hlive (a :: es) fs (by rw [heq, cons_append]) (cons_ne_nil _ _) hfs
    -- the record is gone, so this is the last step of the stretch
    have hlast : as = [] := by
      by_contra hne
      have := hlive [a] as rfl (cons_ne_nil _ _) hne
      simp [run, hnext] at this
    subst hlast
    have hle := hwth.spent_le key
    simp only [hwrg, wrongComparisons, Bool.toNat_false]
    omega

end

def init (now : ℕ) : State := ⟨now, {}, []⟩

theorem init_within (splitHostPort : String → Except String (String × String)) (now : ℕ) :
    Within splitHostPort (init now) := fun _ => Nat.zero_le _

def operator : Config := ⟨"operator", "s3cret", 3600⟩

def splitIpv4 (addr : String) : Except String (String × String) :=
  let host := addr.toList.takeWhile (· ≠ ':')
  .ok (String.ofList host, String.ofList (addr.toList.drop (host.length+1)))

/-- `n` requests with a wrong password from one address: all arrive, all pass the lockout
test, and all are parsed. -/
def guesses (n : ℕ) : List Act :=
  (range n).map (fun _ => .arrive "10.0.0.9:4000" (.ok ("operator", "guess"))) ++
    (range n).map (fun i => .advance i 0 none) ++
    (range n).map (fun i => .advance i 0 none)

def judged (n : ℕ) : List Act :=
  .advance 0 0 none :: .advance 0 0 none ::
    (range n).map (fun i => .advance (i+1) 0 none)

end Chromeless.Gateway
