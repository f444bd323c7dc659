import Chromeless.CaptureMoves
import Chromeless.MainParts

/-! The driver as the worker around it sees it: what its observers are told, and what it keeps
whatever the worker does. -/
namespace Chromeless.Capture.Driver
open Relation List

structure Watched (a : Act) (x y : Driver) : Prop where
  log : ∃ es, y.log = x.log ++ es ∧ (y.state = .failed → x.state = .failed ∨ ∃ reason, .notify (.failed reason) ∈ es)
  arm : (∀ bye, a ≠ .rearm bye) → y.arm = x.arm
  torn : (x.teardownEmitted = true → x.state.terminal = true) → y.teardownEmitted = true → y.state.terminal = true

section
variable {w : Webrtc} {d x y z : Driver} {a : Act}

theorem Watched.refl (a : Act) (x : Driver) : Watched a x x :=
  ⟨⟨[], (append_nil _).symm, .inl⟩, fun _ => rfl, id⟩

theorem Watched.trans (hxy : Watched a x y) (hyz : Watched a y z) : Watched a x z := by
  obtain ⟨es, hes, hfail⟩ := hxy.log
  obtain ⟨fs, hfs, hfail'⟩ := hyz.log
  refine ⟨⟨es ++ fs, by rw [hfs, hes, append_assoc], ?_⟩, ?_, ?_⟩
  · intro hz
    obtain hy | ⟨reason, hmem⟩ := hfail' hz
    · obtain hx | ⟨reason, hmem⟩ := hfail hy
      · exact .inl hx
      · exact .inr ⟨reason, mem_append_left _ hmem⟩
    · exact .inr ⟨reason, mem_append_right _ hmem⟩
  · intro ha
    rw [hyz.arm ha, hxy.arm ha]
  · intro htorn
    exact hyz.torn (hxy.torn htorn)

theorem Watched.of_same (es : List Event) (hlog : y.log = x.log ++ es) (hst : y.state = x.state)
    (hem : y.teardownEmitted = x.teardownEmitted) (harm : y.arm = x.arm) : Watched a x y := by
  refine ⟨⟨es, hlog, fun h => .inl (by rw [← hst, h])⟩, fun _ => harm, ?_⟩
  intro htorn h
  rw [hst]
  exact htorn (by rw [← hem, h])

theorem Watched.of_live (es : List Event) (hlog : y.log = x.log ++ es) {s : OffererState}
    (hx : x.state = s) (hs : s.terminal = false) (hy : y.state ≠ .failed)
    (hem : y.teardownEmitted = x.teardownEmitted) (harm : y.arm = x.arm) : Watched a x y := by
  refine ⟨⟨es, hlog, fun h => absurd h hy⟩, fun _ => harm, ?_⟩
  intro htorn h
  have hterm := htorn (by rw [← hem, h])
  rw [hx, hs] at hterm
  cases hterm

theorem Move.watched (hm : Move w d a x y) : Watched a x y := by
  cases hm with
  | fail x reason => exact ⟨⟨[_], rfl, fun _ => .inr ⟨reason, by simp⟩⟩, fun _ => rfl, fun _ _ => rfl⟩
  | refail x reason => exact ⟨⟨[_], rfl, fun _ => .inr ⟨reason, by simp⟩⟩, fun _ => rfl, fun _ _ => rfl⟩
  | close => exact ⟨⟨[_], rfl, fun h => by cases h⟩, fun _ => rfl, fun _ _ => rfl⟩
  | latch x hx =>
    refine ⟨⟨[], (append_nil _).symm, .inl⟩, fun _ => rfl, fun _ _ => ?_⟩
    rw [hx]
    rfl
  | returnToIdle x bye ha =>
    refine ⟨⟨[.rearmed], rfl, fun h => by cases h⟩, fun hne => absurd ha (hne bye), fun _ h => ?_⟩
    cases h
  | aside x e => exact .of_same [e] rfl rfl rfl rfl
  | consume | land | bufferOffer | connect | dropOffer => exact .of_same [] (append_nil _).symm rfl rfl rfl
  | trigger | coalesce | refuseOffer | record | bufferAnswer | queueIce => exact .of_same [_] rfl rfl rfl rfl
  | addIce => exact .of_same [_, _] (append_assoc _ [_] [_]) rfl rfl rfl
  | localSet _ hx | forgetEarly _ hx => exact .of_live [] (append_nil _).symm hx rfl (by simp) rfl rfl
  | start x pc hx => exact .of_live [_] rfl hx rfl (by simp [note]) rfl rfl
  | initialOffer x hx => exact .of_live [_] rfl hx rfl (by simp [issue, note]) rfl rfl
  | applyEarly x n sdp remote hx => exact .of_live [_] rfl hx rfl (by simp [issue, note]) rfl rfl
  | restart x t hx =>
    exact .of_live [_, _] (append_assoc _ [_] [_]) hx rfl (by simp [restartDance, issue, notify, note]) rfl rfl
  | emitOffer _ _ hx | drainOffer _ _ hx =>
    exact .of_live [_, _] (append_assoc _ [_] [_]) hx rfl (by simp [emitOfferAndSetLocal, issue, note]) rfl rfl
  | applyAnswer env sdp remote ha ht hx =>
    exact .of_live [_, _] (append_assoc _ [_] [_]) hx rfl (by simp [issue, note]) rfl rfl
  | remoteSet arm reason ha harm hx =>
    refine .of_live _ ((remoteSet_log w d).trans (append_assoc _ _ _)) hx rfl ?_ ?_ ?_
    all_goals simp [enterIceFlight_eq]

theorem step_watched (w : Webrtc) (d : Driver) (a : Act) : Watched a d (d.step w a) := by
  have hchain : ∀ y, ReflTransGen (Move w d a) d y → Watched a d y := by
    intro y hy
    induction hy with
    | refl => exact .refl a d
    | tail _ hxy ih => exact ih.trans hxy.watched
  exact hchain _ (step_moves w d a)

end

variable {d : Driver}

theorem news_eq {d' : Driver} {es : List Event} (h : d'.log = d.log ++ es) :
    d.news d' = es.filterMap Event.notification := by
  rw [news, h, drop_left]

theorem exists_failed_news (w : Webrtc) {a : Act} (hd : d.state ≠ .failed)
    (h : (d.step w a).state = .failed) : ∃ reason, .failed reason ∈ d.news (d.step w a) := by
  obtain ⟨es, hlog, hfail⟩ := (step_watched w d a).log
  obtain hd' | ⟨reason, hmem⟩ := hfail h
  · exact absurd hd' hd
  refine ⟨reason, ?_⟩
  rw [news_eq hlog]
  exact mem_filterMap.mpr ⟨_, hmem, rfl⟩

theorem closeInternal_news (reason : String) (source : CloseSource)
    (hem : d.teardownEmitted = false) (hd : d.state ≠ .failed) :
    ∃ es, (d.closeInternal reason source).log = d.log ++ es ∧ es.filterMap Event.notification = [.closed reason] := by
  obtain ⟨bye, hbye, hnone⟩ : ∃ es, (d.sendBye source).log = d.log ++ es ∧ es.filterMap Event.notification = [] := by
    unfold sendBye
    split
    · exact ⟨[_], rfl, rfl⟩
    · exact ⟨[], by simp, rfl⟩
  have hpc : (d.sendBye source).pc = d.pc := by
    unfold sendBye
    split <;> rfl
  refine ⟨bye ++ (if d.pc then [.closePc] else []) ++ [.notify (.closed reason)], ?_, ?_⟩
  · cases h : d.pc <;>
      simp [closeInternal, hem, hd, closePcOnSignalingThread, hpc, h, notify, note, hbye]
  · rw [filterMap_append, filterMap_append, hnone]
    cases d.pc <;> rfl

theorem returnToIdle_news (d : Driver) : d.news d.returnToIdle = [] := by
  have hlog : d.returnToIdle.log = d.log ++ [.rearmed] := rfl
  rw [news_eq hlog]
  rfl

theorem rearm_eq_self (h : d.canRearm = false) (bye : Bool) : d.rearm bye = d := by
  have hst : d.state = .idle ∨ d.state = .failed := by
    cases hs : d.state <;> simp [canRearm, hs] at h ⊢
  simp only [rearm, if_pos hst]

theorem rearm_of_closed (h : d.state = .closed) (bye : Bool) : d.rearm bye = d.returnToIdle := by
  simp [rearm, h]

theorem rearm_of_live (h : d.canRearm = true) (hcl : d.state ≠ .closed) (bye : Bool) :
    d.rearm bye = (d.closeInternal "rearm" (if bye then .rearm else .remote)).returnToIdle := by
  simp only [canRearm, Bool.and_eq_true, decide_eq_true_eq] at h
  simp [rearm, h, hcl]

theorem closeInternal_arm (d : Driver) (reason : String) (source : CloseSource) :
    (d.closeInternal reason source).arm = d.arm := by
  have hbye : (d.sendBye source).arm = d.arm := by
    unfold sendBye
    split <;> rfl
  unfold closeInternal
  split
  · rfl
  split
  · rfl
  · simp only [notify, note, closePcOnSignalingThread]
    split <;> exact hbye

theorem rearm_fresh (h : d.canRearm = true) (bye : Bool) :
    (d.rearm bye).arm = d.arm + 1 ∧ (d.rearm bye).state = .idle ∧ (d.rearm bye).pc = false := by
  by_cases hcl : d.state = .closed
  · rw [rearm_of_closed hcl]
    exact ⟨rfl, rfl, rfl⟩
  rw [rearm_of_live h hcl]
  refine ⟨?_, rfl, rfl⟩
  show (d.closeInternal "rearm" _).arm + 1 = d.arm + 1
  rw [closeInternal_arm]

theorem rearm_news_live (h : d.canRearm = true) (hcl : d.state ≠ .closed)
    (hem : d.teardownEmitted = false) (bye : Bool) :
    d.news (d.rearm bye) = [.closed "rearm"] := by
  have hfld : d.state ≠ .failed := by
    simp only [canRearm, Bool.and_eq_true, decide_eq_true_eq] at h
    exact h.2
  obtain ⟨es, hlog, hes⟩ := closeInternal_news "rearm" (if bye then .rearm else .remote) hem hfld
  have hrearm : (d.rearm bye).log = d.log ++ (es ++ [.rearmed]) := by
    rw [rearm_of_live h hcl, ← append_assoc, ← hlog]
    rfl
  rw [news_eq hrearm, filterMap_append, hes]
  rfl

theorem rearm_news_closed (h : d.state = .closed) (bye : Bool) : d.news (d.rearm bye) = [] := by
  rw [rearm_of_closed h, returnToIdle_news]

theorem rearm_news (d : Driver) (bye : Bool) :
    d.news (d.rearm bye) = [] ∨ d.news (d.rearm bye) = [.closed "rearm"] := by
  cases h : d.canRearm with
  | false =>
    rw [rearm_eq_self h]
    exact .inl (news_eq (append_nil _).symm)
  | true =>
    by_cases hcl : d.state = .closed
    · exact .inl (rearm_news_closed hcl bye)
    cases hem : d.teardownEmitted with
    | false => exact .inr (rearm_news_live h hcl hem bye)
    | true =>
      -- torn down without being over: nothing is left to close
      have hsame : d.rearm bye = d.returnToIdle := by rw [rearm_of_live h hcl, closeInternal, if_pos hem]
      rw [hsame]
      exact .inl (returnToIdle_news d)

end Chromeless.Capture.Driver

namespace Chromeless.MainParts
open Capture

namespace Worker

/-! ### The driver within the worker -/

section
variable {l : Webrtc} (I : Driver → Prop) (hstep : ∀ d a, I d → I (d.step l a))

variable {escalate : Worker → Worker}

section
variable (hescalate : ∀ w : Worker, I w.driver → I (escalate w).driver)
include hescalate

theorem hear_driver (gen : ℕ) (own : Bool) (w : Worker) (n : Notification) (hw : I w.driver) :
    I (hear escalate gen own w n).driver := by
  cases n with
  | iceConnectionStateChanged state =>
    cases state with
    | failed =>
      simp only [hear, onIceConnectionStateChanged]
      split <;> exact hw
    | _ => exact hw
  | newViewerNeedsOffer | renegotiationStarted | renegotiationCompleted => exact hw
  | closed =>
    simp only [hear, onClosed]
    split <;> exact hw
  | failed =>
    simp only [hear, onFailed]
    split
    · exact hw
    · exact hescalate _ hw

theorem foldl_hear_driver (gen : ℕ) (own : Bool) (ns : List Notification) (w : Worker) (hw : I w.driver) :
    I (ns.foldl (hear escalate gen own) w).driver := by
  induction ns generalizing w with
  | nil => exact hw
  | cons n ns ih => exact ih _ (hear_driver I hescalate gen own w n hw)

end

theorem onGpuPermanentDeath_driver (hclose : ∀ d : Driver, I d → I (d.step l (.closeUnhealthy "gpu-permanent-death")))
    (w : Worker) (hw : I w.driver) : I (w.onGpuPermanentDeath l).driver := by
  unfold onGpuPermanentDeath
  split
  · exact hw
  · dsimp only
    split <;> exact foldl_hear_driver I (fun _ h => h) _ _ _ _ (hclose _ hw)

include hstep

theorem call_driver (gen : ℕ) (own : Bool) (w : Worker) (a : Act) (hw : I w.driver) :
    I (w.call l gen own a).driver :=
  foldl_hear_driver I (onGpuPermanentDeath_driver I fun d => hstep d _) gen own _ _ (hstep _ _ hw)

variable (w : Worker)

theorem postMainMessageLoopRun_driver (hw : I w.driver) :
    I (w.postMainMessageLoopRun l).driver :=
  call_driver I hstep _ _ _ _ hw

theorem rearmOrShutdown_driver (announceBye own : Bool) (r : Response)
    (hw : I w.driver) : I (w.rearmOrShutdown l announceBye own r).driver := by
  have hshut : ∀ v : Worker, v.shutdown.driver = v.driver := by
    intro v
    unfold shutdown
    split <;> rfl
  have hmedia : ∀ v : Worker, (v.rebuildSessionMedia r.audio).driver = v.driver := by
    intro v
    unfold rebuildSessionMedia
    split <;> rfl
  have hrenew : ∀ v : Worker, I v.driver → I (v.renew l announceBye r.pc).1.driver := by
    intro v hv
    have hrear : I (v.endSession.rearmDriver l announceBye).driver := call_driver I hstep _ _ _ _ hv
    unfold renew
    split
    · exact hv
    split
    · exact hv
    dsimp only
    split
    · exact hrear
    · split <;> exact call_driver I hstep _ _ _ _ hrear
  have hsess : ∀ v : Worker, I v.driver → I (v.rearmSession l announceBye r).1.driver := by
    intro v hv
    have h := hrenew v hv
    unfold rearmSession
    split
    next heq => rwa [heq] at h
    rename_i heq
    rw [heq] at h
    rwa [hmedia]
  unfold rearmOrShutdown
  split
  · exact hw
  split
  · exact hw
  have h := hsess (w.mark (.attempt w.driver.arm own)) hw
  split
  next heq => rwa [heq] at h
  rename_i heq
  rw [heq] at h
  rwa [hshut]

theorem runTask_driver (r : Response) (t : Task) (hw : I w.driver) :
    I (w.runTask l r t).driver := by
  have hshut : w.shutdown.driver = w.driver := by
    unfold shutdown
    split <;> rfl
  cases t with
  | onConnected accepted =>
    have hcall := call_driver I hstep w.driver.arm false w (.onConnected accepted) hw
    simp only [runTask, onConnected]
    split
    · exact hcall
    split
    · exact hcall
    · split <;> exact hcall
  | onEnvelope | completion => exact call_driver I hstep _ _ _ _ hw
  | onGaveUp =>
    simp only [runTask]
    split
    · exact hw
    · rwa [hshut]
  | observer =>
    simp only [runTask]
    split
    · exact call_driver I hstep _ _ _ _ hw
    · exact hw
  | permanentDeath => exact onGpuPermanentDeath_driver I (fun d => hstep d _) w hw
  | shutdown => exact hshut ▸ hw
  | iceFailedGrace =>
    simp only [runTask, onIceFailedGraceElapsed]
    split
    · split
      · exact hw
      · exact rearmOrShutdown_driver I hstep _ _ _ _ hw
    · exact hw
  | rearmOrShutdown => exact rearmOrShutdown_driver I hstep _ _ _ _ hw
  | clearRearming | quit => exact hw

theorem step_driver (t : Turn) (hw : I w.driver) : I (w.step l t).driver := by
  cases t with
  | post | graceElapses | quitElapses =>
    simp only [step]
    split <;> exact hw
  | run r =>
    simp only [step]
    split
    · unfold runNext
      split
      · exact hw
      rename_i t queue hqu
      have htask := runTask_driver I hstep { w with queue := queue } r t hw
      dsimp only
      split
      · exact htask
      · exact postMainMessageLoopRun_driver I hstep _ htask
    · exact hw

end

theorem rearmDriver_eq (l : Webrtc) (w : Worker) (bye : Bool) :
    (w.driver.news (w.driver.rearm bye) = [] ∧ w.rearmDriver l bye = { w with
      rearming := true, driver := w.driver.rearm bye, queue := w.queue ++ [.clearRearming] }) ∨
    (w.driver.news (w.driver.rearm bye) = [.closed "rearm"] ∧ w.rearmDriver l bye = { w with
      rearming := true, driver := w.driver.rearm bye, audio := w.audio.onClosed
      queue := w.queue ++ (if w.tearingDown then [] else [.rearmOrShutdown true true]) ++ [.clearRearming]
      marks := w.marks ++ [.raised w.driver.arm .closed] }) := by
  have hcall : w.rearmDriver l bye = ((w.driver.news (w.driver.rearm bye)).foldl
      (hear (onGpuPermanentDeath l) w.driver.arm true)
      { w with rearming := true, driver := w.driver.rearm bye }).post .clearRearming := rfl
  rw [hcall]
  obtain hnews | hnews := w.driver.rearm_news bye
  · exact .inl ⟨hnews, by rw [hnews]; rfl⟩
  rw [hnews]
  cases hdown : w.tearingDown <;>
    simp [hear, AudioLifecycle.observe, onClosed, mark, post]

theorem torn_run (l : Webrtc) (f : AudioFactory) (turns : List Turn) :
    (runWorker l f turns).driver.teardownEmitted = true → (runWorker l f turns).driver.state.terminal = true := by
  let Torn (d : Driver) : Prop := d.teardownEmitted = true → d.state.terminal = true
  have hstep : ∀ d a, Torn d → Torn (d.step l a) := fun d a => (Driver.step_watched l d a).torn
  have hst : Torn (started l f).driver := nofun
  exact Runs.invariant_run (step l) (fun w => Torn w.driver) (fun w t => step_driver Torn hstep w t) hst turns

end Worker

end Chromeless.MainParts
