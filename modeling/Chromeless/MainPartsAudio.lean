import Chromeless.MainPartsMoves

/-! Whether a re-armed session carries audio. -/
namespace Chromeless.Capture.Driver

theorem start_made_news (w : Webrtc) {d : Driver} (h : d.state = .idle) :
    d.news (d.step w (.start .made)) = [] := by
  have hlog : (d.step w (.start .made)).log = d.log ++ [.started] := by simp [step, start, h, note]
  rw [news_eq hlog]
  rfl

theorem start_pc (w : Webrtc) {d : Driver} (h : d.state = .idle) (hpc : d.pc = false)
    {pc : PcResult} (hmade : pc ≠ .made) : (d.step w (.start pc)).pc = false := by
  cases pc with
  | made => exact absurd rfl hmade
  | error => simp [step, start, h, failWithReason, closePcOnSignalingThread, note, notify, hpc]
  | null => simp [step, start, h, failWithReason, closePcOnSignalingThread, note, notify, hpc]

theorem closeInternal_pc (d : Driver) (reason : String) (source : CloseSource) :
    (d.closeInternal reason source).pc = d.pc := by
  have hbye : (d.sendBye source).pc = d.pc := by
    unfold sendBye
    split <;> rfl
  unfold closeInternal
  split
  · rfl
  split
  · rfl
  · simp only [notify, note, closePcOnSignalingThread]
    split <;> exact hbye

end Chromeless.Capture.Driver

namespace Chromeless.MainParts
open Capture

namespace Worker
variable {l : Webrtc} {w v : Worker} {bye : Bool} {pc : PcResult}

theorem call_start_pc (gen : ℕ) (own : Bool) (hst : w.driver.state = .idle)
    (hpc : w.driver.pc = false) (hmade : pc ≠ .made) :
    (w.call l gen own (.start pc)).driver.pc = false := by
  have hclose : ∀ d : Driver, d.pc = false → (d.step l (.closeUnhealthy "gpu-permanent-death")).pc = false := by
    intro d hd
    show ((d.note _).closeInternal _ _).pc = false
    rwa [Driver.closeInternal_pc]
  exact foldl_hear_driver (fun d => d.pc = false) (onGpuPermanentDeath_driver _ hclose) gen own _ _
    (Driver.start_pc l hst hpc hmade)

theorem call_start_made (gen : ℕ) (own : Bool) (hst : w.driver.state = .idle) :
    w.call l gen own (.start .made) = { w with driver := w.driver.step l (.start .made) } := by
  rw [call, callWith, Driver.start_made_news l hst]
  rfl

theorem endSession_audio (w : Worker) : w.endSession.audio = .new := by
  have hstp := AudioLifecycle.rearm_of_stopped w.audio.prepareForTeardown_state
  show w.audio.prepareForTeardown.rearm.1 = .new
  rw [hstp]

theorem renew_spec (h : w.renew l bye pc = (v, none)) :
    w.driver.canRearm = true ∧ v.driver.pc = true ∧ v.driver.arm = w.driver.arm + 1 ∧
      (w.driver.news (w.driver.rearm bye) = [] ∧ v.audio = .new ∨
        w.driver.news (w.driver.rearm bye) = [.closed "rearm"] ∧ v.audio = AudioLifecycle.new.onClosed) := by
  unfold renew at h
  split at h
  · simp at h
  split at h
  · simp at h
  dsimp only at h
  split at h
  · simp at h
  rename_i hrear
  have hcan : w.driver.canRearm = true := by simpa using hrear
  obtain ⟨harm, hidle, hnopc⟩ := Driver.rearm_fresh hcan bye
  have hspec := rearmDriver_eq l w.endSession bye
  rw [endSession_audio] at hspec
  generalize w.endSession.rearmDriver l bye = x at h hspec
  have hdr : x.driver = w.driver.rearm bye := by
    obtain ⟨-, rfl⟩ | ⟨-, rfl⟩ := hspec <;> rfl
  have hmade : pc = .made := by
    by_contra hne
    have hgone := call_start_pc (l := l) x.driver.arm false (by rw [hdr, hidle]) (by rw [hdr, hnopc]) hne
    simp [hgone] at h
  subst hmade
  rw [call_start_made _ _ (by rw [hdr, hidle])] at h
  split at h
  · simp at h
  rename_i hpc
  simp only [Prod.mk.injEq, and_true] at h
  subst h
  refine ⟨hcan, by simpa using hpc, ?_, ?_⟩
  · rw [(Driver.step_watched l x.driver _).arm (by simp), hdr, harm]
  obtain ⟨hnews, rfl⟩ | ⟨hnews, rfl⟩ := hspec
  · exact .inl ⟨hnews, rfl⟩
  · exact .inr ⟨hnews, rfl⟩

end Worker

/-- At every re-arm that gets to `RebuildSessionMedia` the lifecycle is in `kIdle`, and the new
session's bindings are taken over, exactly if the driver was in `kClosed` when the re-arm began. -/
theorem rearmed_audio_iff (l : Webrtc) (f : AudioFactory) (turns : List Turn) (bye : Bool)
    (r : Response) (v : Worker) (h : (runWorker l f turns).renew l bye r.pc = (v, none)) :
    (v.audio.state = .idle ↔ (runWorker l f turns).driver.state = .closed) ∧
      (r.audio.succeeds = true →
        ((v.rebuildSessionMedia r.audio).audio.bindings = some v.driver.arm ↔
          (runWorker l f turns).driver.state = .closed)) := by
  have htorn := Worker.torn_run l f turns
  obtain ⟨hcan, hpc, -, haudio⟩ := Worker.renew_spec h
  generalize runWorker l f turns = w at *
  have hmedia : (v.rebuildSessionMedia r.audio).audio =
      v.audio.adoptBindings (addSendOnlyAudioTransceiver r.audio v.driver.arm) := by
    rw [Worker.rebuildSessionMedia, if_pos hpc]
  rw [hmedia]
  by_cases hclosed : w.driver.state = .closed
  · -- nothing is left to close, so nothing is heard
    have hidle : v.audio = .new := by
      obtain ⟨-, hnew⟩ | ⟨hnews, -⟩ := haudio
      · exact hnew
      · rw [Driver.rearm_news_closed hclosed] at hnews
        cases hnews
    rw [hidle]
    exact ⟨iff_of_true rfl hclosed, fun hf => iff_of_true (AudioLifecycle.adoptBindings_bindings _ rfl hf) hclosed⟩
  have hemitted : w.driver.teardownEmitted = false := by
    by_contra hne
    have hterminal := htorn (by simpa using hne)
    cases hs : w.driver.state <;>
      simp [hs, OffererState.terminal, Driver.canRearm] at hterminal hcan hclosed
  have hstopped : v.audio = AudioLifecycle.new.onClosed := by
    obtain ⟨hnews, -⟩ | ⟨-, hstopped⟩ := haudio
    · rw [Driver.rearm_news_live hcan hclosed hemitted] at hnews
      cases hnews
    · exact hstopped
  rw [hstopped]
  refine ⟨iff_of_false (by simp) hclosed, fun _ => iff_of_false ?_ hclosed⟩
  show (none : Option ℕ) ≠ some _
  simp

def ready : Response := ⟨.made, ⟨true, true, true⟩⟩

def serve (t : Task) : List Turn := [.post t, .run ready]

def offered : List Turn :=
  serve (.onConnected true) ++ serve (.observer 0 0 .renegotiationNeeded) ++
    serve (.completion 0 (.createOfferSuccess "offer" [1] true)) ++
    serve (.completion 0 (.setLocalDescription true ""))

theorem rearmed_audio_bye :
    let turns := offered ++ serve (.onEnvelope ⟨.bye, .client, .monostate⟩)
    let v := ((runWorker .permissive ready.audio turns).renew .permissive true .made).1
    v.audio.state = .idle ∧ (v.rebuildSessionMedia ready.audio).audio.bindings = some v.driver.arm := by
  have h := rearmed_audio_iff .permissive ready.audio
    (offered ++ serve (.onEnvelope ⟨.bye, .client, .monostate⟩)) true ready _
    (Prod.ext rfl (by decide +kernel))
  exact ⟨h.1.mpr (by decide +kernel), (h.2 rfl).mpr (by decide +kernel)⟩

theorem new_viewer_without_audio :
    let turns := offered ++ serve (.onEnvelope ⟨.requestRenegotiate, .client, .monostate⟩)
    let w := runWorker .permissive ready.audio turns
    let next := runWorker .permissive ready.audio (turns ++ [.run ready])
    w.queue = [.rearmOrShutdown false false] ∧ (w.renew .permissive false .made).2 = none ∧
      (w.renew .permissive false .made).1.audio.state = .stopped ∧
      next.driver.pc = true ∧ next.driver.arm = 1 ∧ next.audio.bindings = none := by
  decide +kernel

end Chromeless.MainParts
