import Chromeless.LibRuns
import Mathlib.Data.List.Perm.Basic

/-! Keeping the capturer on the captured tab (`cb_active_webcontents_resolver.cc`,
`cloud_browser_browser_main_parts.cc`) when navigations and crashes replace its view. -/
namespace Chromeless.Recovery

def recaptureRvhSwapAttempts : ℕ := 5

def recaptureRetryDelayMs : ℕ := 50

def maxRendererReloadsPerWindow : ℕ := 2

/-- In milliseconds. -/
def rendererCrashWindow : ℕ := 5*60*1000

/-- How far the walk from the captured WebContents to its FrameSinkId gets. -/
inductive View
  /-- the renderer has crashed; no view comes up without a navigation -/
  | gone
  | noRenderWidgetHostView
  | noRenderWidgetHost
  | noFrameSinkId
  | live (fsid : ℕ)
deriving DecidableEq

def View.frameSinkId : View → Except String ℕ
  | gone | noRenderWidgetHostView => .error "RenderWidgetHostView"
  | noRenderWidgetHost => .error "RenderWidgetHost"
  | noFrameSinkId => .error "FrameSinkId"
  | live fsid => .ok fsid

def View.awaited : View → Bool
  | noRenderWidgetHostView | noRenderWidgetHost | noFrameSinkId => true
  | gone | live _ => false

theorem View.eq_live_of_ok {view : View} {fsid : ℕ} (h : view.frameSinkId = .ok fsid) :
    view = .live fsid := by
  cases view with
  | live =>
    cases h
    rfl
  | _ => cases h

theorem View.gone_or_awaited {view : View} {stage : String} (h : view.frameSinkId = .error stage) :
    view = .gone ∨ view.awaited = true := by
  cases view with
  | gone => exact .inl rfl
  | live => cases h
  | _ => exact .inr rfl

/-- Whether the captured WebContents still exists, and the FrameSinkId that the capturer was told to
target. -/
structure Resolver where
  active : Bool
  activeFsid : Option ℕ
deriving DecidableEq

namespace Resolver

def setActiveCapture (r : Resolver) (fsid : ℕ) : Resolver :=
  if r.active && r.activeFsid = some fsid then r else ⟨true, some fsid⟩

def renderViewHostChanged (r : Resolver) : Resolver × Bool :=
  ({ r with activeFsid := none }, r.active && r.activeFsid.isSome)

def primaryMainFrameRenderProcessGone (r : Resolver) : Resolver × Bool :=
  ({ r with activeFsid := none }, r.active)

def webContentsDestroyed (_ : Resolver) : Resolver := ⟨false, none⟩

theorem setActiveCapture_eq (r : Resolver) (fsid : ℕ) :
    r.setActiveCapture fsid = ⟨true, some fsid⟩ := by
  unfold setActiveCapture
  split
  next h =>
    obtain ⟨hact, hfsid⟩ : r.active = true ∧ r.activeFsid = some fsid := by simpa using h
    rw [← hact, ← hfsid]
  · rfl

end Resolver

/-- `swap` numbers the `RenderViewHostChanged` that a re-arm was posted for; nothing looks at it. -/
inductive Task
  | rearmCaptureAfterRvhSwap (attemptsLeft swap : ℕ)
  | onCapturedRendererGone
deriving DecidableEq

def Task.rearms : Task → Bool
  | rearmCaptureAfterRvhSwap _ _ => true
  | onCapturedRendererGone => false

/-- It is not the last attempt of a re-arm that an earlier swap has begun. -/
def Task.lasts (swaps : ℕ) : Task → Bool
  | rearmCaptureAfterRvhSwap attemptsLeft swap => 0 < attemptsLeft || swap = swaps
  | onCapturedRendererGone => true

structure Posted where
  due : ℕ
  task : Task
deriving DecidableEq

/-- The captured WebContents, and what the embedder has to do with it. -/
structure Parts where
  resolver : Resolver
  view : View
  /-- `cb_track_source_` exists -/
  trackSource : Bool
  /-- what the capturer is bound to -/
  target : Option ℕ
  rendererCrashWindowStart : ℕ
  rendererCrashesInWindow : ℕ
  rendererCrashesTotal : ℕ
  permanentDeathSignaled : Bool
  /-- the reloads that were issued -/
  reloads : ℕ
  now : ℕ
  tasks : List Posted
  /-- how often the view was replaced -/
  swaps : ℕ
  /-- the swaps whose re-arm has given up -/
  usedUp : List ℕ
deriving DecidableEq

namespace Parts

def post (p : Parts) (delay : ℕ) (t : Task) : Parts :=
  { p with tasks := p.tasks ++ [⟨p.now + delay, t⟩] }

def capture (p : Parts) (fsid : ℕ) : Parts :=
  { p with target := some fsid, resolver := p.resolver.setActiveCapture fsid }

def rearmCaptureAfterRvhSwap (p : Parts) (attemptsLeft swap : ℕ) : Parts :=
  if !p.trackSource then p
  else if !p.resolver.active then p
  else match p.view.frameSinkId with
    | .ok fsid => p.capture fsid
    | .error _ =>
      -- `retry_or_give_up`
      if 0 < attemptsLeft then
        p.post recaptureRetryDelayMs (.rearmCaptureAfterRvhSwap (attemptsLeft - 1) swap)
      else { p with usedUp := swap :: p.usedUp }

def onCapturedRendererGone (p : Parts) : Parts :=
  if !p.resolver.active then p
  else
    let p :=
      if rendererCrashWindow < p.now - p.rendererCrashWindowStart then
        { p with rendererCrashWindowStart := p.now, rendererCrashesInWindow := 0 }
      else p
    let p := { p with
      rendererCrashesInWindow := p.rendererCrashesInWindow + 1
      rendererCrashesTotal := p.rendererCrashesTotal + 1 }
    if maxRendererReloadsPerWindow < p.rendererCrashesInWindow then
      { p with permanentDeathSignaled := true }
    else { p with reloads := p.reloads + 1 }

def runTask (p : Parts) : Task → Parts
  | .rearmCaptureAfterRvhSwap attemptsLeft swap => p.rearmCaptureAfterRvhSwap attemptsLeft swap
  | .onCapturedRendererGone => p.onCapturedRendererGone

end Parts

/-- The replacement of a view is announced; its links come up later. Of the tasks that are due any
may be run, since some were delayed. -/
inductive Event
  | renderViewHostChanged (view : View)
  | comesUp (view : View)
  | primaryMainFrameRenderProcessGone
  | webContentsDestroyed
  | startFrameSinkCapture
  | gpuPermanentDeath
  | elapse (ms : ℕ)
  | run (i : ℕ)
deriving DecidableEq

namespace Parts

def renderViewHostChanged (p : Parts) (view : View) : Parts :=
  let (resolver, had) := p.resolver.renderViewHostChanged
  let p := { p with view := view, swaps := p.swaps + 1, resolver := resolver }
  if had then p.post 0 (.rearmCaptureAfterRvhSwap recaptureRvhSwapAttempts p.swaps) else p

def primaryMainFrameRenderProcessGone (p : Parts) : Parts :=
  let (resolver, had) := p.resolver.primaryMainFrameRenderProcessGone
  let p := { p with view := .gone, resolver := resolver }
  if had then p.post 0 .onCapturedRendererGone else p

def comesUp (p : Parts) (view : View) : Parts :=
  if p.view.awaited && view ≠ .gone then { p with view := view } else p

def startFrameSinkCapture (p : Parts) : Parts :=
  if !p.trackSource || !p.resolver.active then p
  else match p.view.frameSinkId with
    | .ok fsid => p.capture fsid
    | .error _ => p

def runPosted (p : Parts) (i : ℕ) : Parts :=
  match p.tasks[i]? with
  | none => p
  | some t => if t.due ≤ p.now then { p with tasks := p.tasks.eraseIdx i }.runTask t.task else p

def step (p : Parts) : Event → Parts
  | .renderViewHostChanged view => p.renderViewHostChanged view
  | .comesUp view => p.comesUp view
  | .primaryMainFrameRenderProcessGone => if p.view = .gone then p else p.primaryMainFrameRenderProcessGone
  | .webContentsDestroyed => { p with resolver := p.resolver.webContentsDestroyed }
  | .startFrameSinkCapture => p.startFrameSinkCapture
  | .gpuPermanentDeath => { p with permanentDeathSignaled := true }
  | .elapse ms => { p with now := p.now + ms }
  | .run i => p.runPosted i

def capturing (fsid now : ℕ) : Parts where
  resolver := ⟨true, some fsid⟩
  view := .live fsid
  trackSource := true
  target := some fsid
  rendererCrashWindowStart := 0
  rendererCrashesInWindow := 0
  rendererCrashesTotal := 0
  permanentDeathSignaled := false
  reloads := 0
  now := now
  tasks := []
  swaps := 0
  usedUp := []

def rearming (p : Parts) : Bool := p.tasks.any fun t => t.task.rearms

/-- Where the capturer is not bound to the live view, a re-arm is waiting or the one of the latest
`RenderViewHostChanged` has used up its attempts; and a re-arm that is run binds it to the live
view. -/
structure Recovers (p : Parts) : Prop where
  waits : p.resolver.active = true → p.permanentDeathSignaled = false →
    ∀ fsid, p.view = .live fsid → p.target ≠ some fsid → p.rearming = true ∨ p.swaps ∈ p.usedUp
  binds : p.resolver.active = true → ∀ fsid, p.view = .live fsid → ∀ i t,
    p.tasks[i]? = some t → t.task.rearms = true → t.due ≤ p.now → (p.step (.run i)).target = some fsid

/-- A swap finds the capture in order or a re-arm on its way; and while the view is coming up, no
re-arm runs out of attempts but that of the latest swap. -/
def Covered (p : Parts) : Event → Prop
  | .renderViewHostChanged _ => p.resolver.activeFsid.isSome = true ∨ p.rearming = true
  | .run i => p.view.awaited = true → ∀ t ∈ p.tasks[i]?, t.task.lasts p.swaps = true
  | _ => True

instance decidableCovered (p : Parts) : DecidablePred p.Covered
  | .renderViewHostChanged _ => inferInstanceAs (Decidable (_ ∨ _))
  | .run i => inferInstanceAs (Decidable (p.view.awaited = true → ∀ t ∈ p.tasks[i]?, t.task.lasts p.swaps = true))
  | .comesUp _ | .primaryMainFrameRenderProcessGone | .webContentsDestroyed
  | .startFrameSinkCapture | .gpuPermanentDeath | .elapse _ => inferInstanceAs (Decidable True)

structure Inv (p : Parts) : Prop where
  trackSource : p.trackSource = true
  held : p.resolver.active = true → ∀ fsid, p.resolver.activeFsid = some fsid →
    p.view = .live fsid ∧ p.target = some fsid
  owed : p.resolver.active = true → p.resolver.activeFsid = none → p.view ≠ .gone →
    p.rearming = true ∨ p.swaps ∈ p.usedUp

section
variable {p q : Parts}

theorem rearming_post (p : Parts) (delay : ℕ) (t : Task) :
    (p.post delay t).rearming = (p.rearming || t.rearms) := by
  simp [rearming, post, List.any_append]

theorem rearming_eraseIdx {i : ℕ} {t : Posted} (ht : p.tasks[i]? = some t) :
    p.rearming = (t.task.rearms || { p with tasks := p.tasks.eraseIdx i }.rearming) := by
  obtain ⟨hi, rfl⟩ := List.getElem?_eq_some_iff.mp ht
  have hperm := List.getElem_cons_eraseIdx_perm hi
  rw [rearming, ← hperm.any_eq, List.any_cons]
  rfl

theorem Inv.keep (h : Inv p) (hrsv : q.resolver = p.resolver) (hview : q.view = p.view)
    (htrk : q.trackSource = p.trackSource) (htgt : q.target = p.target)
    (howed : p.rearming = true ∨ p.swaps ∈ p.usedUp → q.rearming = true ∨ q.swaps ∈ q.usedUp) :
    Inv q := by
  refine ⟨htrk.trans h.trackSource, ?_, ?_⟩
  · rw [hrsv, hview, htgt]
    exact h.held
  · rw [hrsv, hview]
    exact fun hact hnone hgone => howed (h.owed hact hnone hgone)

theorem inv_of_inactive (htrk : p.trackSource = true) (h : p.resolver.active = false) : Inv p :=
  ⟨htrk, fun hact => by simp [h] at hact, fun hact => by simp [h] at hact⟩

theorem inv_of_none (htrk : p.trackSource = true) (hnone : p.resolver.active = true → p.resolver.activeFsid = none)
    (howed : p.resolver.active = true → p.view ≠ .gone → p.rearming = true ∨ p.swaps ∈ p.usedUp) :
    Inv p := by
  refine ⟨htrk, fun hact fsid hfsid => ?_, fun hact _ hgone => howed hact hgone⟩
  rw [hnone hact] at hfsid
  cases hfsid

theorem inv_capture {fsid : ℕ} (htrk : p.trackSource = true) (hview : p.view = .live fsid) :
    Inv (p.capture fsid) := by
  have hrsv : (p.capture fsid).resolver = ⟨true, some fsid⟩ := p.resolver.setActiveCapture_eq fsid
  refine ⟨htrk, fun _ fsid' hfsid => ?_, fun _ hnone => ?_⟩
  · rw [hrsv] at hfsid
    cases hfsid
    exact ⟨hview, rfl⟩
  · rw [hrsv] at hnone
    cases hnone

section
variable (h : Inv p)
include h

theorem inv_renderViewHostChanged (view : View) (hcov : p.resolver.activeFsid.isSome = true ∨ p.rearming = true) :
    Inv (p.renderViewHostChanged view) := by
  unfold renderViewHostChanged
  dsimp only [Resolver.renderViewHostChanged]
  split
  · refine inv_of_none h.trackSource (fun _ => rfl) fun _ _ => .inl ?_
    rw [rearming_post]
    exact Bool.or_true _
  rename_i hhad
  refine inv_of_none h.trackSource (fun _ => rfl) fun hact _ => .inl ?_
  change p.resolver.active = true at hact
  obtain hsome | hrea := hcov
  · simp [hact, hsome] at hhad
  · exact hrea

theorem inv_primaryMainFrameRenderProcessGone :
    Inv p.primaryMainFrameRenderProcessGone := by
  unfold primaryMainFrameRenderProcessGone
  dsimp only [Resolver.primaryMainFrameRenderProcessGone]
  split <;>
    exact inv_of_none h.trackSource (fun _ => rfl) fun _ hgone => absurd rfl hgone

theorem Inv.none_of_not_live (hact : p.resolver.active = true)
    (hlive : ∀ fsid, p.view ≠ .live fsid) : p.resolver.activeFsid = none := by
  cases hfsid : p.resolver.activeFsid with
  | none => rfl
  | some fsid => exact absurd (h.held hact fsid hfsid).1 (hlive fsid)

open View

theorem inv_comesUp (view : View) : Inv (p.comesUp view) := by
  unfold comesUp
  split
  next hup =>
    obtain ⟨hawt, -⟩ : p.view.awaited = true ∧ view ≠ .gone := by simpa using hup
    have hnone : p.resolver.active = true → p.resolver.activeFsid = none := by
      intro hact
      refine h.none_of_not_live hact fun fsid hlive => ?_
      simp [hlive, awaited] at hawt
    refine inv_of_none h.trackSource hnone fun hact _ => ?_
    refine h.owed hact (hnone hact) fun hgone => ?_
    simp [hgone, awaited] at hawt
  · exact h

theorem inv_startFrameSinkCapture : Inv p.startFrameSinkCapture := by
  unfold startFrameSinkCapture
  split
  · exact h
  split
  next hok => exact inv_capture h.trackSource (eq_live_of_ok hok)
  · exact h

theorem inv_onCapturedRendererGone : Inv p.onCapturedRendererGone := by
  unfold onCapturedRendererGone
  split
  · exact h
  · dsimp only
    split <;> split <;> exact h.keep rfl rfl rfl rfl id

theorem inv_rearmCaptureAfterRvhSwap {attemptsLeft swap : ℕ} (tasks : List Posted)
    (hlasts : p.view.awaited = true → 0 < attemptsLeft ∨ swap = p.swaps) :
    Inv ({ p with tasks := tasks }.rearmCaptureAfterRvhSwap attemptsLeft swap) := by
  unfold rearmCaptureAfterRvhSwap
  rw [if_neg (by simp [h.trackSource])]
  split
  next hinac => exact inv_of_inactive h.trackSource (by simpa using hinac)
  split
  next hok => exact inv_capture h.trackSource (eq_live_of_ok hok)
  rename_i stage herror
  have hview := gone_or_awaited herror
  have hnone : p.resolver.active = true → p.resolver.activeFsid = none := by
    intro hact
    refine h.none_of_not_live hact fun fsid hlive => ?_
    simp [hlive, awaited] at hview
  split
  · refine inv_of_none h.trackSource hnone fun _ _ => .inl ?_
    rw [rearming_post]
    exact Bool.or_true _
  rename_i hlast
  refine inv_of_none h.trackSource hnone fun _ hgone => .inr ?_
  have hswap : swap = p.swaps := (hlasts (hview.resolve_left hgone)).resolve_left hlast
  rw [hswap]
  exact List.mem_cons_self

theorem inv_runPosted (i : ℕ) (hcov : p.view.awaited = true → ∀ t ∈ p.tasks[i]?, t.task.lasts p.swaps = true) :
    Inv (p.runPosted i) := by
  unfold runPosted
  split
  · exact h
  rename_i t ht
  split
  · obtain ⟨due, task⟩ := t
    cases task with
    | rearmCaptureAfterRvhSwap =>
      refine inv_rearmCaptureAfterRvhSwap h _ fun hawt => ?_
      simpa [Task.lasts] using hcov hawt _ ht
    | onCapturedRendererGone =>
      refine inv_onCapturedRendererGone (h.keep rfl rfl rfl rfl ?_)
      rw [rearming_eraseIdx ht]
      exact id
  · exact h

theorem inv_step (e : Event) (hcov : p.Covered e) : Inv (p.step e) := by
  cases e with
  | renderViewHostChanged view => exact inv_renderViewHostChanged h view hcov
  | comesUp view => exact inv_comesUp h view
  | primaryMainFrameRenderProcessGone =>
    simp only [step]
    split
    · exact h
    · exact inv_primaryMainFrameRenderProcessGone h
  | webContentsDestroyed => exact inv_of_inactive h.trackSource rfl
  | startFrameSinkCapture => exact inv_startFrameSinkCapture h
  | gpuPermanentDeath | elapse => exact h.keep rfl rfl rfl rfl id
  | run i => exact inv_runPosted h i hcov

end

theorem inv_capturing (fsid now : ℕ) : Inv (capturing fsid now) := by
  refine ⟨rfl, fun _ fsid' hfsid => ?_, fun _ hnone => ?_⟩
  · cases hfsid
    exact ⟨rfl, rfl⟩
  · cases hnone

theorem Inv.recovers (h : Inv p) : Recovers p := by
  refine ⟨?_, ?_⟩
  · intro hact _ fsid hview htgt
    cases hfsid : p.resolver.activeFsid with
    | none => exact h.owed hact hfsid (by simp [hview])
    | some fsid' =>
      -- a capturer with a FrameSinkId that is held is bound to the live view
      obtain ⟨hlive, hbd⟩ := h.held hact fsid' hfsid
      rw [hview] at hlive
      cases hlive
      exact absurd hbd htgt
  · intro hact fsid hview i t ht hrea hdue
    obtain ⟨due, task⟩ := t
    cases task with
    | onCapturedRendererGone => cases hrea
    | rearmCaptureAfterRvhSwap =>
      have hok : p.view.frameSinkId = .ok fsid := by rw [hview]; rfl
      simp [step, runPosted, ht, hdue, runTask, rearmCaptureAfterRvhSwap, h.trackSource, hact, hok, capture]

end

end Parts

/-- In every run whose events are all covered, the capturer is not left behind. -/
theorem covered_run_recovers (fsid now : ℕ) (events : List Event)
    (hcovered : Runs.Meets Parts.step Parts.Covered (Parts.capturing fsid now) events) :
    (Runs.run Parts.step (Parts.capturing fsid now) events).Recovers := by
  have hinv : Parts.Inv (Runs.run Parts.step (Parts.capturing fsid now) events) :=
    Runs.invariant_run_meets Parts.step Parts.Covered Parts.Inv
      (fun p e hp h => Parts.inv_step h e hp) (Parts.inv_capturing fsid now) hcovered
  exact hinv.recovers

theorem covered_run_recovers_crash :
    let events := [.renderViewHostChanged .noRenderWidgetHostView, .run 0,
      .primaryMainFrameRenderProcessGone, .run 1, .renderViewHostChanged (.live 8)]
    let p := Runs.run Parts.step (Parts.capturing 7 0) events
    p.Recovers ∧ p.reloads = 1 ∧ p.target = some 7 ∧ p.rearming = true ∧
      (Runs.run Parts.step p [.elapse 50, .run 0]).target = some 8 := by
  exact ⟨covered_run_recovers 7 0 _ (by decide), by decide⟩

theorem reload_after_crash_not_rearmed :
    let events := [.primaryMainFrameRenderProcessGone, .run 0, .renderViewHostChanged (.live 8)]
    let p := Runs.run Parts.step (Parts.capturing 7 0) events
    p.reloads = 1 ∧ p.permanentDeathSignaled = false ∧ p.tasks = [] ∧ p.target = some 7 ∧ ¬ p.Recovers := by
  refine ⟨by decide, by decide, by decide, by decide, fun h => ?_⟩
  have hwaits := h.waits (by decide) (by decide) 8 (by decide) (by decide)
  revert hwaits
  decide

end Chromeless.Recovery
