import Chromeless.ControllerChanges

/-! Which session a mint request gets. -/
namespace Chromeless.Controller
open Function Versions List Runs Store Request

/-! ### Names of sessions -/

/-- The words of an id are its maximal runs of letters, digits and dashes, in lower case. -/
def words (elementID : List Char) : List (List Char) :=
  ((elementID.map toLower).splitOnP fun c => !validNameChar c).filter fun w => !w.isEmpty

/-- What is left of an id: its words put together with dashes, at most fifty characters. -/
def label (elementID : List Char) : List Char :=
  let base := trimDashes (['-'].intercalate (words elementID))
  let base := if base = [] then "session".toList else base
  if 50 < base.length then trimDashes (base.take 50) else base

section
variable {l l' : List Char}

def Dashes (l : List Char) : Prop := ∀ c ∈ l, (c == '-') = true

theorem rdropWhile_append_dashes (h : Dashes l') :
    (l ++ l').rdropWhile (· == '-') = l.rdropWhile (· == '-') := by
  have hrev : ∀ c ∈ l'.reverse, (c == '-') = true := fun c hc => h c (mem_reverse.mp hc)
  rw [rdropWhile, rdropWhile, reverse_append, dropWhile_append_of_pos hrev]

theorem trimDashes_append {pre post : List Char} (hpre : Dashes pre) (hpost : Dashes post) :
    trimDashes (pre ++ l ++ post) = trimDashes l := by
  rw [trimDashes, trimDashes, append_assoc, dropWhile_append_of_pos hpre, dropWhile_append]
  split
  next hemp => rw [isEmpty_iff.mp hemp, dropWhile_eq_nil_iff.mpr hpost]
  · exact rdropWhile_append_dashes hpost

variable {c : Char}

theorem words_append_cons (hc : validNameChar (toLower c) = false) :
    words (l ++ c :: l') = words l ++ words l' := by
  rw [words, map_append, map_cons, splitOnP_append_cons _ _ (by simp [hc]), filter_append]
  rfl

theorem words_of_valid (h : ∀ c ∈ l, validNameChar (toLower c) = true) (hl : l ≠ []) :
    words l = [l.map toLower] := by
  have hall : ∀ c ∈ l.map toLower, (!validNameChar c) = false := by
    intro c hc
    obtain ⟨d, hd, rfl⟩ := mem_map.mp hc
    rw [h d hd]
    rfl
  rw [words, splitOnP_eq_singleton hall]
  simp [hl]

theorem replaceInvalid_words (l : List Char) :
    (∃ post, Dashes post ∧ replaceInvalid true (l.map toLower) = ['-'].intercalate (words l) ++ post) ∧
    ∀ w : List Char, (∀ c ∈ w, validNameChar (toLower c) = true) → w ≠ [] →
      ∃ post, Dashes post ∧ w.map toLower ++ replaceInvalid false (l.map toLower) =
        ['-'].intercalate (words (w ++ l)) ++ post := by
  induction l with
  | nil =>
    refine ⟨⟨[], by simp [Dashes], rfl⟩, ?_⟩
    intro w hw hne
    exact ⟨[], by simp [Dashes], by simp [words_of_valid hw hne, replaceInvalid]⟩
  | cons c cs ih =>
    obtain ⟨⟨post, hpost, hrun⟩, hword⟩ := ih
    by_cases hc : validNameChar (toLower c) = true
    · constructor
      · obtain ⟨post, hpost, heq⟩ := hword [c] (by simpa using hc) (by simp)
        exact ⟨post, hpost, by simpa [replaceInvalid, hc] using heq⟩
      intro w hw hne
      have hw' : ∀ d ∈ w ++ [c], validNameChar (toLower d) = true := by
        intro d hd
        obtain hd | hd := mem_append.mp hd
        · exact hw d hd
        · rwa [mem_singleton.mp hd]
      obtain ⟨post, hpost, heq⟩ := hword (w ++ [c]) hw' (by simp)
      exact ⟨post, hpost, by simpa [replaceInvalid, hc] using heq⟩
    rw [Bool.not_eq_true] at hc
    constructor
    · have hskip : words (c :: cs) = words cs := words_append_cons (l := []) hc
      exact ⟨post, hpost, by simpa [replaceInvalid, hc, hskip] using hrun⟩
    intro w hw hne
    rw [words_append_cons hc, words_of_valid hw hne]
    -- the dash stands between two words, or at the end
    cases hrest : words cs with
    | nil =>
      refine ⟨'-' :: post, ?_, ?_⟩
      · simpa [Dashes] using hpost
      · simp [replaceInvalid, hc, hrun, hrest]
    | cons =>
      refine ⟨post, hpost, ?_⟩
      simp [replaceInvalid, hc, hrun, hrest, intercalate_cons_cons]

theorem replaceInvalid_false (l : List Char) :
    ∃ pre, Dashes pre ∧ replaceInvalid false l = pre ++ replaceInvalid true l := by
  cases l with
  | nil => exact ⟨[], by simp [Dashes], rfl⟩
  | cons c =>
    by_cases hc : validNameChar c = true
    · exact ⟨[], by simp [Dashes], by simp [replaceInvalid, hc]⟩
    · exact ⟨['-'], by simp [Dashes], by simp [replaceInvalid, hc]⟩

theorem trimDashes_replaceInvalid (l : List Char) :
    trimDashes (replaceInvalid false (l.map toLower)) = trimDashes (['-'].intercalate (words l)) := by
  obtain ⟨pre, hpre, hfalse⟩ := replaceInvalid_false (l.map toLower)
  obtain ⟨⟨post, hpost, htrue⟩, -⟩ := replaceInvalid_words l
  rw [hfalse, htrue, ← append_assoc, trimDashes_append hpre hpost]

theorem validNameChar_of_isSpace (h : isSpace c = true) : validNameChar (toLower c) = false := by
  have hall : ∀ k ∈ [0x9, 0xa, 0xb, 0xc, 0xd, 0x20, 0x85, 0xa0, 0x1680, 0x2028, 0x2029, 0x202f,
      0x205f, 0x3000] ++ range' 0x2000 11,
      validNameChar (toLower (Char.ofNat k)) = false := by decide
  have hmem := hall c.toNat (by
    simp only [isSpace, Bool.or_eq_true, Bool.and_eq_true, decide_eq_true_eq] at h
    rw [mem_append, mem_range'_1]
    exact h.imp id fun h => by omega)
  rwa [Char.ofNat_toNat] at hmem

theorem words_append_spaces (h : ∀ c ∈ l', isSpace c = true) : words (l ++ l') = words l := by
  induction l' generalizing l with
  | nil => rw [append_nil]
  | cons c cs ih =>
    have hc := validNameChar_of_isSpace (h c mem_cons_self)
    have hcs := ih (l := []) fun d hd => h d (mem_cons_of_mem _ hd)
    rw [words_append_cons hc, ← nil_append cs, hcs]
    simp [words]

theorem words_spaces_append (h : ∀ c ∈ l, isSpace c = true) : words (l ++ l') = words l' := by
  induction l with
  | nil => rfl
  | cons c cs ih =>
    have hc := validNameChar_of_isSpace (h c mem_cons_self)
    have hcs := ih fun d hd => h d (mem_cons_of_mem _ hd)
    rw [cons_append, ← hcs]
    exact words_append_cons (l := []) hc

theorem words_trimSpace (l : List Char) :
    words ((l.dropWhile isSpace).rdropWhile isSpace) = words l := by
  have hpre : ∀ c ∈ l.takeWhile isSpace, isSpace c = true := fun c hc =>
    mem_takeWhile_imp hc
  have hpost : ∀ c ∈ (l.dropWhile isSpace).rtakeWhile isSpace, isSpace c = true := fun c hc =>
    mem_rtakeWhile_imp hc
  calc
    words ((l.dropWhile isSpace).rdropWhile isSpace)
      = words ((l.dropWhile isSpace).rdropWhile isSpace
          ++ (l.dropWhile isSpace).rtakeWhile isSpace) := (words_append_spaces hpost).symm
    _ = words (l.dropWhile isSpace) := by rw [rdropWhile_append_rtakeWhile]
    _ = words (l.takeWhile isSpace ++ l.dropWhile isSpace) := (words_spaces_append hpre).symm
    _ = words l := by rw [takeWhile_append_dropWhile]

theorem sessionNameBase_eq_label (elementID : List Char) :
    sessionNameBase elementID = label elementID := by
  simp only [sessionNameBase, label, trimDashes_replaceInvalid, words_trimSpace, gt_iff_lt]

end

variable {r₁ r₂ : MintRequest} {h : Holding}

theorem MintRequest.name_eq_iff :
    r₁.name = r₂.name ↔ label r₁.elementID.toList = label r₂.elementID.toList := by
  simp only [MintRequest.name, sessionNameForElement, sessionNameBase_eq_label]
  rw [← String.toList_inj, String.toList_append, String.toList_append, append_right_inj,
    String.toList_ofList, String.toList_ofList]

/-! ### Requests and the sessions they get -/

structure SessionResponse where
  signalingURL : String
  sessionID : String
  podName : String
  podIP : String
  phase : SessionPhase
deriving DecidableEq

def responseFromSession (name : String) (sess : BrowserSession) : SessionResponse where
  signalingURL :=
    if sess.annotations.browserSignalingURL ≠ "" then sess.annotations.browserSignalingURL
    else (sess.status.connection.map (·.signalingURL)).getD ""
  sessionID := name
  podName := (sess.status.connection.map (·.podName)).getD ""
  podIP := (sess.status.connection.map (·.podIP)).getD ""
  phase := sess.status.phase

def responseFromMintRequest (req : MintRequest) (sess : BrowserSession) : SessionResponse :=
  let resp := responseFromSession req.name sess
  if req.signalingURL ≠ "" then { resp with signalingURL := req.signalingURL } else resp

def answer (s : Cluster) (deadline : Bool) (req : MintRequest) : Option SessionResponse :=
  ((s.sessions.value req.name).filter fun sess => sess.status.phase = .ready || deadline).map
    (responseFromMintRequest req)

/-- A request gets a session by starting its life, with a Create or a reset, or by joining it, with
an Update of its spec or an answer that describes it. -/
inductive Resolution
  | opens (req : MintRequest)
  | joins (req : MintRequest)
deriving DecidableEq

def resolution (cfg : Config) (s : Cluster) : Act → Option Resolution
  | .serve i deadline =>
    match s.requests i with
    | .mintCreate req => if s.sessions.value req.name = none ∧ (req.spec cfg).valid then some (.opens req) else none
    | .mintUpdate req latest =>
      if s.sessions.version req.name = some latest.version ∧ (req.spec cfg).valid then
        some (.joins req)
      else none
    | .mintReset req latest => if s.sessions.version req.name = some latest.version then some (.opens req) else none
    | .waitForReady req => if (answer s deadline req).isSome then some (.joins req) else none
    | _ => none
  | _ => none

/-- The cluster with, for each name, the requests that got the session of that name in its
present life. -/
structure Holding where
  cluster : Cluster
  holders : String → List MintRequest

def Holding.init : Holding := ⟨.init, fun _ => []⟩

def hold (cfg : Config) (h : Holding) (a : Act) : Holding where
  cluster := step cfg h.cluster a
  holders :=
    match resolution cfg h.cluster a with
    | some (.opens req) => update h.holders req.name [req]
    | some (.joins req) => update h.holders req.name (req :: h.holders req.name)
    | none => h.holders

theorem run_hold_cluster (cfg : Config) (h : Holding) (as : List Act) :
    (Runs.run (hold cfg) h as).cluster = run cfg h.cluster as := by
  induction as generalizing h with
  | nil => rfl
  | cons a as ih => exact ih _

def BrowserSession.live (sess : BrowserSession) : Bool := !isTerminalSession sess && !sess.deleting

/-- In its next call `r₂` overwrites, or is answered with, a live session whose spec is
that of `r₁`. -/
def Cluster.Takes (cfg : Config) (s : Cluster) (r₁ r₂ : MintRequest) : Prop :=
  ∃ a x, resolution cfg s a = some (.joins r₂) ∧ s.sessions.value r₂.name = some x ∧ x.live = true ∧ x.minter = r₁

/-- Two requests never get one session while it is live, and neither takes the other's. -/
def Isolated (cfg : Config) (r₁ r₂ : MintRequest) : Prop :=
  ∀ as, let h := Runs.run (hold cfg) .init as
    (∀ n x, h.cluster.sessions.value n = some x → x.live = true → ¬ (r₁ ∈ h.holders n ∧ r₂ ∈ h.holders n)) ∧
    ¬ h.cluster.Takes cfg r₁ r₂ ∧ ¬ h.cluster.Takes cfg r₂ r₁

/-! ### What holders have in common -/

def RequestPc.mint : RequestPc → Option MintRequest
  | .mintGet req => some req
  | .mintCreate req => some req
  | .mintUpdate req _ => some req
  | .mintReset req _ => some req
  | .waitForReady req => some req
  | _ => none

def Resolution.req : Resolution → MintRequest
  | .opens req => req
  | .joins req => req

structure Held (h : Holding) : Prop where
  copies : Copies h.cluster
  names : ∀ n r, r ∈ h.holders n → r.name = n ∧ r.elementID ≠ ""
  requests : ∀ i req, (h.cluster.requests i).mint = some req → req.elementID ≠ ""
  minters : ∀ n x, h.cluster.sessions.value n = some x → x.minter ∈ h.holders n
  resets : ∀ i req latest, h.cluster.requests i = .mintReset req latest → latest.value.minter = req

section
variable {cfg : Config} {s s' : Cluster} {a : Act} {n : String} {x' : BrowserSession}

variable {req : MintRequest} {pc pc' : RequestPc} {e : Effect} {r : Resolution} {h : Holding}

theorem Request.start_mint {r : Request} (h : r.start.mint = some req) : req.elementID ≠ "" := by
  cases r with
  | mint req' =>
    simp only [start] at h
    split at h
    · cases h
    rename_i hne
    cases h
    exact hne
  | _ => cases h

theorem ServeCall.mint (hcall : ServeCall cfg s pc e pc') (h : pc'.mint = some req) :
    pc.mint = some req := by
  cases hcall <;> first | exact h | cases h

theorem ServeCall.reset_minter (hcall : ServeCall cfg s pc e pc') {latest : Stored BrowserSession}
    (h : pc' = .mintReset req latest) (hstay : pc = .mintReset req latest → latest.value.minter = req) :
    latest.value.minter = req := by
  cases hcall with
  | stay => exact hstay h
  | @rewrittenEnded req' old o hver hvalid hph hget =>
    cases h
    have hval := value_of_objects hget
    rw [value_set, update_self] at hval
    rw [← Option.some.inj hval]
    rfl
  | _ => cases h

theorem resolution_mint (h : resolution cfg s a = some r) :
    ∃ i, (s.requests i).mint = some r.req := by
  revert h
  fun_cases resolution cfg s a <;> rintro ⟨⟩
  all_goals exact ⟨_, by rw [‹s.requests _ = _›]; rfl⟩

theorem Held.opens (hh : Held h) (hres : resolution cfg h.cluster a = some (.opens req))
    {x : BrowserSession} (hget : h.cluster.sessions.value req.name = some x) : x.minter = req := by
  cases a with
  | serve i deadline =>
    have hcopy := hh.copies.requests i
    have hrst := hh.resets i
    simp only [resolution] at hres
    split at hres
    · split at hres
      next hpc hgd =>
        cases hres
        rw [hgd.1] at hget
        cases hget
      · cases hres
    · split at hres <;> cases hres
    next latest hpc =>
      split at hres
      next hver =>
        cases hres
        rw [(hcopy _ _ (by rw [hpc]; rfl)).value_eq hver] at hget
        rw [← Option.some.inj hget]
        exact hrst _ _ hpc
      · cases hres
    · split at hres <;> cases hres
    · cases hres
  | _ => cases hres

theorem SessionChange.minter (hch : SessionChange cfg s a n x') :
    (∃ x, s.sessions.value n = some x ∧ x'.minter = x.minter) ∨
      ∃ r, resolution cfg s a = some r ∧ r.req = x'.minter ∧ n = r.req.name := by
  cases hch with
  | same hget => exact .inl ⟨_, hget, rfl⟩
  | status _ _ _ hget heq | finalizer hget heq | reset hget _ heq | heartbeat _ hget _ heq
  | marked hget heq => exact .inl ⟨_, hget, heq ▸ rfl⟩
  | @minted i deadline req hname hget heq hact hpc hval =>
    subst hname hact
    exact .inr ⟨.opens req, by simp [resolution, hpc, hget, hval], heq ▸ rfl, rfl⟩
  | @rewritten i deadline req latest hname hget heq hact hpc hver hval =>
    subst hname hact
    exact .inr ⟨.joins req, by simp [resolution, hpc, hver, hval], heq ▸ rfl, rfl⟩

theorem hold_holders_of_ne (hne : ∀ r, resolution cfg h.cluster a = some r → n ≠ r.req.name) :
    (hold cfg h a).holders n = h.holders n := by
  cases hres : resolution cfg h.cluster a with
  | none => simp [hold, hres]
  | some r =>
    have hn := hne r hres
    cases r with
    | opens | joins =>
      simp only [hold, hres]
      exact update_of_ne hn _ _

theorem mem_holders_hold {r : MintRequest} (hr : r ∈ (hold cfg h a).holders n) :
    r ∈ h.holders n ∨ ∃ res, resolution cfg h.cluster a = some res ∧ r = res.req ∧ n = r.name := by
  by_cases hne : ∀ res, resolution cfg h.cluster a = some res → n ≠ res.req.name
  · rw [hold_holders_of_ne hne] at hr
    exact .inl hr
  simp only [not_forall, not_not] at hne
  obtain ⟨res, hres, rfl⟩ := hne
  cases res with
  | opens =>
    simp only [hold, hres, Resolution.req, update_self, mem_singleton] at hr
    exact .inr ⟨_, hres, hr, hr ▸ rfl⟩
  | joins =>
    simp only [hold, hres, Resolution.req, update_self, mem_cons] at hr
    obtain hr | hr := hr
    · exact .inr ⟨_, hres, hr, hr ▸ rfl⟩
    · exact .inl hr

theorem resolution_holds (hres : resolution cfg h.cluster a = some r) :
    r.req ∈ (hold cfg h a).holders r.req.name := by
  cases r <;> simp [hold, hres, Resolution.req]

theorem holders_hold {r : MintRequest} (hr : r ∈ h.holders n)
    (hopens : ∀ req, resolution cfg h.cluster a = some (.opens req) → n = req.name → r = req) :
    r ∈ (hold cfg h a).holders n := by
  by_cases hne : ∀ res, resolution cfg h.cluster a = some res → n ≠ res.req.name
  · rwa [hold_holders_of_ne hne]
  simp only [not_forall, not_not] at hne
  obtain ⟨res, hres, rfl⟩ := hne
  cases res with
  | opens req =>
    rw [hopens req hres rfl]
    exact resolution_holds hres
  | joins =>
    simp only [hold, hres, Resolution.req, update_self] at hr ⊢
    exact mem_cons_of_mem _ hr

theorem Held.init : Held .init where
  copies := Copies.init
  names := fun _ _ h => nomatch h
  requests := fun _ _ h => nomatch h
  minters := fun _ _ h => nomatch h
  resets := fun _ _ _ h => nomatch h

theorem Held.hold (hh : Held h) : Held (hold cfg h a) := by
  have hmove := step_move cfg h.cluster a
  refine ⟨hh.copies.move hmove, ?_, ?_, ?_, ?_⟩
  · intro n r hr
    obtain hold | ⟨res, hres, rfl, rfl⟩ := mem_holders_hold hr
    · exact hh.names n r hold
    · obtain ⟨i, hi⟩ := resolution_mint hres
      exact ⟨rfl, hh.requests i _ hi⟩
  · intro i req hreq
    obtain hsame | ⟨-, e, hcall⟩ | ⟨r, hst⟩ := hmove.request_cases i
    · exact hh.requests i req (hsame ▸ hreq)
    · exact hh.requests i req (hcall.mint hreq)
    · exact start_mint (hst ▸ hreq)
  · intro n x' hget'
    obtain ⟨x, hget, hmint⟩ | ⟨r, hres, hreq, rfl⟩ := (hmove.sessionChange hh.copies hget').minter
    · rw [hmint]
      refine holders_hold (hh.minters n x hget) ?_
      rintro req hres rfl
      exact hh.opens hres hget
    · rw [← hreq]
      exact resolution_holds hres
  · intro i req latest hpc
    obtain hsame | ⟨-, e, hcall⟩ | ⟨r, hst⟩ := hmove.request_cases i
    · exact hh.resets i req latest (hsame ▸ hpc)
    · exact hcall.reset_minter hpc (hh.resets i req latest)
    · rw [show (Controller.hold cfg h a).cluster.requests i = _ from hst] at hpc
      cases r with
      | mint =>
        simp only [start] at hpc
        split at hpc <;> cases hpc
      | _ => cases hpc

theorem Held.run (cfg : Config) (as : List Act) : Held (Runs.run (Controller.hold cfg) .init as) :=
  invariant_run (Controller.hold cfg) Held (fun _ _ hh => hh.hold) Held.init as

end

/-! ### A session for any two requests of its name -/

structure Stage (n : String) (sess : Option BrowserSession) (reqs : ℕ → RequestPc) (s : Cluster) : Prop where
  session : s.sessions.value n = sess
  worker : s.workers n = .idle
  noPods : s.pods = .empty
  requests : s.requests = reqs

theorem Cluster.first_of_empty {s : Cluster} (h : s.pods = .empty) (p : Pod → Bool)
    (pick : String) : s.first p pick = some none := by
  simp [first, h, empty, value]

section
variable (cfg : Config) {s : Cluster} {n : String} {x : BrowserSession} {reqs : ℕ → RequestPc}
  {i : ℕ} {r : MintRequest}

theorem Stage.mint (hs : Stage r.name none reqs s) (hi : reqs i = .idle) (hid : r.elementID ≠ "")
    (hval : (r.spec cfg).valid = true) :
    ∃ uid, Stage r.name (some (r.session cfg uid)) (update reqs i (.waitForReady r))
      (run cfg s (requestCalls i (.mint r) 2)) := by
  have hobj : s.sessions.objects r.name = none := by
    have hnone := hs.session
    rwa [value, Option.map_eq_none_iff] at hnone
  obtain ⟨hsess, hwkr, hpods, rfl⟩ := hs
  refine ⟨s.sessions.next, ?_, ?_, ?_, ?_⟩ <;>
    simp [run, Runs.run, requestCalls, step, start, serve, hi, hid, hobj, hval, hsess, hwkr, hpods, Cluster.apply]

theorem Stage.finalizer (hs : Stage n (some x) reqs s) (hlive : x.deleting = false) (hfin : x.finalizer = false) :
    Stage n (some { x with finalizer := true }) reqs (run cfg s (calls n "" 4)) := by
  obtain ⟨o, hobj, rfl⟩ := objects_of_value hs.session
  obtain ⟨hsess, hwkr, hpods, rfl⟩ := hs
  refine ⟨?_, ?_, ?_, ?_⟩ <;>
    simp [run, Runs.run, calls, step, work, dispatch, hobj, hsess, hwkr, hpods, hlive, hfin, Cluster.apply, version]

theorem Stage.delete (hs : Stage n (some x) reqs s) (hi : reqs i = .idle) (hfin : x.finalizer = true) :
    Stage n (some { x with deleting := true }) reqs (run cfg s (requestCalls i (.delete n) 2)) := by
  obtain ⟨hsess, hwkr, hpods, rfl⟩ := hs
  have hself : update s.requests i .idle = s.requests := by rw [← hi, update_eq_self]
  refine ⟨?_, ?_, ?_, ?_⟩ <;>
    simp [run, Runs.run, requestCalls, step, start, serve, Cluster.deleteSession, hi,
      hsess, hwkr, hpods, hfin, hself, Cluster.apply]

theorem Stage.wait (hs : Stage r.name (some x) reqs s) (hi : reqs i = .idle)
    (hid : r.elementID ≠ "") (hdel : x.deleting = true) :
    Stage r.name (some x) (update reqs i (.waitForReady r)) (run cfg s (requestCalls i (.mint r) 1)) := by
  obtain ⟨o, hobj, rfl⟩ := objects_of_value hs.session
  obtain ⟨hsess, hwkr, hpods, rfl⟩ := hs
  refine ⟨?_, ?_, ?_, ?_⟩ <;>
    simp [run, Runs.run, requestCalls, step, start, serve, hi, hid, hobj, hdel, hsess, hwkr, hpods, Cluster.apply]

theorem Stage.remove (hs : Stage n (some x) reqs s) (hdel : x.deleting = true)
    (hfin : x.finalizer = true) : Stage n none reqs (run cfg s (calls n "" 5)) := by
  obtain ⟨o, hobj, rfl⟩ := objects_of_value hs.session
  obtain ⟨hsess, hwkr, hpods, rfl⟩ := hs
  refine ⟨?_, ?_, ?_, ?_⟩ <;>
    simp [run, Runs.run, calls, step, work, dispatch, finalized, hobj, hsess, hwkr, hpods,
      hdel, hfin, Cluster.first_of_empty, Cluster.apply, version]

end

def anonymousMint (elementID : String) : MintRequest := { tenantID := "", elementID := elementID }

variable (cfg : Config)

theorem anonymousMint_valid (elementID : String) :
    ((anonymousMint elementID).spec cfg).valid = true := by
  have hten : ((anonymousMint elementID).spec cfg).tenantID = "_anonymous" := rfl
  have hidle : ((anonymousMint elementID).spec cfg).idleTimeoutSeconds = 600 := rfl
  rw [BrowserSessionSpec.valid, hten, hidle]
  decide

def waitTogether (r₁ r₂ : MintRequest) : List Act :=
  let r₀ := anonymousMint r₁.elementID
  requestCalls 0 (.mint r₀) 2 ++ calls r₀.name "" 4 ++ requestCalls 3 (.delete r₀.name) 2
    ++ requestCalls 1 (.mint r₁) 1 ++ requestCalls 2 (.mint r₂) 1 ++ calls r₀.name "" 5
    ++ requestCalls 4 (.mint r₀) 2

theorem waitTogether_stage (hname : r₁.name = r₂.name) (h₁ : r₁.elementID ≠ "") (h₂ : r₂.elementID ≠ "") :
    ∃ uid reqs, reqs 1 = .waitForReady r₁ ∧ reqs 2 = .waitForReady r₂ ∧
      Stage r₁.name (some ((anonymousMint r₁.elementID).session cfg uid)) reqs
        (run cfg .init (waitTogether r₁ r₂)) := by
  have hvalid := anonymousMint_valid cfg r₁.elementID
  have hinit : Stage r₁.name none (fun _ => .idle) .init := ⟨rfl, rfl, rfl, rfl⟩
  obtain ⟨uid₀, hmint⟩ := Stage.mint cfg (r := anonymousMint r₁.elementID) (i := 0) hinit rfl h₁ hvalid
  have hmkd := (hmint.finalizer cfg rfl rfl).delete cfg (i := 3) rfl rfl
  have hwai₁ := hmkd.wait cfg (r := r₁) (i := 1) rfl h₁ rfl
  rw [hname] at hwai₁
  have hwai₂ := hwai₁.wait cfg (r := r₂) (i := 2) rfl h₂ rfl
  rw [← hname] at hwai₂
  obtain ⟨uid, hagain⟩ := Stage.mint cfg (r := anonymousMint r₁.elementID) (i := 4)
    (hwai₂.remove cfg rfl rfl) rfl h₁ hvalid
  simp only [run, ← run_append] at hagain
  refine ⟨uid, _, ?_, ?_, hagain⟩ <;> simp

theorem Stage.answered {x : BrowserSession} {reqs : ℕ → RequestPc} (hs : Stage r₁.name (some x) reqs h.cluster)
    (hname : r₁.name = r₂.name) (h₁ : reqs 1 = .waitForReady r₁) (h₂ : reqs 2 = .waitForReady r₂) :
    let h' := hold cfg (hold cfg h (.serve 1 true)) (.serve 2 true)
    h'.cluster.sessions.value r₁.name = some x ∧ r₁ ∈ h'.holders r₁.name ∧ r₂ ∈ h'.holders r₁.name := by
  have hres₁ : resolution cfg h.cluster (.serve 1 true) = some (.joins r₁) := by
    simp [resolution, answer, hs.requests, h₁, hs.session]
  have hsess (i : ℕ) (r : MintRequest) (g : Holding)
      (hpc : g.cluster.requests i = .waitForReady r) :
      (hold cfg g (.serve i true)).cluster.sessions = g.cluster.sessions := by
    simp only [hold, step, hpc, serve]
    cases g.cluster.sessions.value r.name <;> rfl
  have hpc₁ : h.cluster.requests 1 = .waitForReady r₁ := by rw [hs.requests, h₁]
  have hpc₂ : (hold cfg h (.serve 1 true)).cluster.requests 2 = .waitForReady r₂ := by
    simp [hold, step, hs.requests, h₂]
  have hsessi : (hold cfg h (.serve 1 true)).cluster.sessions.value r₂.name = some x := by
    rw [hsess 1 r₁ h hpc₁, ← hname, hs.session]
  have hres₂ : resolution cfg (hold cfg h (.serve 1 true)).cluster (.serve 2 true) = some (.joins r₂) := by
    simp [resolution, answer, hpc₂, hsessi]
  have hjoin₁ : r₁ ∈ (hold cfg h (.serve 1 true)).holders r₁.name := resolution_holds (r := .joins r₁) hres₁
  have hjoin₂ : r₂ ∈ (hold cfg (hold cfg h (.serve 1 true)) (.serve 2 true)).holders r₂.name :=
    resolution_holds (r := .joins r₂) hres₂
  refine ⟨?_, ?_, ?_⟩
  · rw [hsess 2 r₂ _ hpc₂, hname, hsessi]
  · apply holders_hold hjoin₁
    intro req hreq
    rw [hres₂] at hreq
    cases hreq
  · rwa [hname]

theorem not_isolated_of_name_eq (hname : r₁.name = r₂.name) (h₁ : r₁.elementID ≠ "")
    (h₂ : r₂.elementID ≠ "") : ¬ Isolated cfg r₁ r₂ := by
  intro hiso
  obtain ⟨uid, reqs, hreq₁, hreq₂, hstg⟩ := waitTogether_stage cfg hname h₁ h₂
  have hclus := run_hold_cluster cfg .init (waitTogether r₁ r₂)
  rw [show Holding.init.cluster = .init from rfl] at hclus
  rw [← hclus] at hstg
  obtain ⟨hsess, hboth⟩ := hstg.answered cfg hname hreq₁ hreq₂
  have hrun := (hiso (waitTogether r₁ r₂ ++ [.serve 1 true, .serve 2 true])).1
  rw [run_append, run_cons, run_cons, run_nil] at hrun
  have hlive : ((anonymousMint r₁.elementID).session cfg uid).live = true := rfl
  exact hrun _ _ hsess hlive hboth

theorem Held.takes {cfg : Config} (hh : Held h) (htks : h.cluster.Takes cfg r₁ r₂) :
    r₁.name = r₂.name ∧ r₁.elementID ≠ "" ∧ r₂.elementID ≠ "" := by
  obtain ⟨a, x, hres, hget, -, rfl⟩ := htks
  obtain ⟨hname, hid⟩ := hh.names _ _ (hh.minters _ x hget)
  obtain ⟨i, hi⟩ := resolution_mint hres
  exact ⟨hname, hid, hh.requests i _ hi⟩

/-- Two mint requests are kept apart in every history exactly if their element ids have different
labels, or one of them has no element id. -/
theorem mints_isolated_iff (cfg : Config) (r₁ r₂ : MintRequest) :
    Isolated cfg r₁ r₂ ↔
      label r₁.elementID.toList ≠ label r₂.elementID.toList ∨ r₁.elementID = "" ∨ r₂.elementID = "" := by
  constructor
  · intro hiso
    by_contra hcond
    simp only [not_or, ne_eq, not_not] at hcond
    obtain ⟨hlabel, h₁, h₂⟩ := hcond
    exact not_isolated_of_name_eq cfg (MintRequest.name_eq_iff.mpr hlabel) h₁ h₂ hiso
  · intro hcond as
    have hh := Held.run cfg as
    have hapart (hname : r₁.name = r₂.name) (h₁ : r₁.elementID ≠ "") (h₂ : r₂.elementID ≠ "") :
        False := by
      obtain hne | hempty | hempty := hcond
      · exact hne (MintRequest.name_eq_iff.mp hname)
      · exact h₁ hempty
      · exact h₂ hempty
    refine ⟨?_, ?_, ?_⟩
    · rintro n x - - ⟨hn₁, hn₂⟩
      obtain ⟨hname₁, h₁⟩ := hh.names n r₁ hn₁
      obtain ⟨hname₂, h₂⟩ := hh.names n r₂ hn₂
      exact hapart (hname₁.trans hname₂.symm) h₁ h₂
    · intro htakes
      obtain ⟨hname, h₁, h₂⟩ := hh.takes htakes
      exact hapart hname h₁ h₂
    · intro htakes
      obtain ⟨hname, h₂, h₁⟩ := hh.takes htakes
      exact hapart hname.symm h₁ h₂

/-- The session of one tenant is Ready when a mint of another tenant has read it. -/
def mintedTwice : List Act :=
  oneReady ++ requestCalls 2 (.mint { tenantID := "u", elementID := "a" }) 1

theorem mint_takes_session :
    let r₁ : MintRequest := { tenantID := "t", elementID := "a" }
    let r₂ : MintRequest := { tenantID := "u", elementID := "a" }
    let tenant (s : Cluster) := (s.sessions.value "tf-a").map (·.spec.tenantID)
    tenant (run {} .init mintedTwice) = some "t" ∧
      tenant (run {} .init (mintedTwice ++ [.serve 2 false])) = some "u" ∧
      (answer (run {} .init (mintedTwice ++ [.serve 2 false])) false r₂).map (·.podName) = some "p" ∧
      ¬ Isolated {} r₁ r₂ ∧ label "A!".toList = label "a".toList := by
  refine ⟨by decide +kernel, by decide +kernel, by decide +kernel, ?_, by decide +kernel⟩
  intro hiso
  obtain ⟨x, hget, hx⟩ := (Option.any_eq_true (fun x : BrowserSession => x.live &&
    decide (x.minter = { tenantID := "t", elementID := "a" }))
    ((run {} .init mintedTwice).sessions.value "tf-a")).mp (by decide +kernel)
  rw [Bool.and_eq_true, decide_eq_true_eq] at hx
  have hres : resolution {} (run {} .init mintedTwice) (.serve 2 false)
      = some (.joins { tenantID := "u", elementID := "a" }) := by decide +kernel
  have htakes := (hiso mintedTwice).2.1
  have hname : MintRequest.name { tenantID := "u", elementID := "a" } = "tf-a" := by decide +kernel
  exact htakes ⟨_, x, hres, by rw [hname]; exact hget, hx⟩

end Chromeless.Controller
