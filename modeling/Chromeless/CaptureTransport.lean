import Chromeless.CaptureReconnect
import Chromeless.CaptureRenegotiation

/-! The offerer driver over the reconnecting channel, wired as in
`build-integration/cloud_browser_browser_main_parts.cc`. -/
namespace Chromeless.Capture
open Json Runs List Act

def offerEnvelope (sdp : Bytes) : Envelope := ⟨.offer, .browser, .sdp ⟨ascii "offer", sdp⟩⟩

def Act.answered (accepted : Bool) : Act → Act
  | .onConnected _ => .onConnected accepted
  | .createOfferSuccess arm sdpType sdp _ => .createOfferSuccess arm sdpType sdp accepted
  | a => a

def Act.fromChannel : Act → Bool
  | .onConnected _ | .onEnvelope _ | .onClosed _ _ | .onError _ => true
  | _ => false

def Act.completesOffer (arm : ℕ) : Act → Bool
  | .createOfferSuccess k _ _ _ => k = arm
  | _ => false

namespace SignalingReconnect

def since (s t : SignalingReconnect) : List Event := t.log.drop s.log.length

/-- The calls that the embedder hands on. It only logs `OnClosed`, and `OnGaveUp` ends the
process. -/
def Event.forward : Event → Option Capture.Act
  | .onConnected => some (.onConnected true)
  | .onEnvelope env => some (.onEnvelope env)
  | _ => none

def isOpen (s : SignalingReconnect) : Bool := s.state = .opened && s.inner = some ⟨.opened⟩

def accepts (s : SignalingReconnect) (written : Bool) : Bool := s.isOpen && written

end SignalingReconnect

structure Worker where
  driver : Driver
  channel : SignalingReconnect

namespace Worker

/-- A task on the UI sequence; `written` is the outcome of the writes it makes. -/
inductive Task
  | driver (a : Act) (written : Bool)
  | channel (a : SignalingReconnect.Act) (written : Bool)
deriving DecidableEq

def Task.written : Task → Bool
  | .driver _ written => written
  | .channel _ written => written

def Task.ofChannel : Task → Bool
  | .driver _ _ => false
  | .channel _ _ => true

def Task.completesOffer (arm : ℕ) : Task → Bool
  | .driver a _ => a.completesOffer arm
  | .channel _ _ => false

def new (u : ReconnectSetup) : Worker := ⟨.new, .new u⟩

def sent (d d' : Driver) : List Envelope :=
  (d'.log.drop d.log.length).filterMap fun
    | .handed env => some env
    | _ => none

/-- What the driver sends goes through the channel, and a write that fails there is the end of that
channel. -/
def drive (u : ReconnectSetup) (w : Webrtc) (written : Bool) (x : Worker) (a : Act) : Worker :=
  let d := x.driver.step w (a.answered (x.channel.accepts written))
  ⟨d, (sent x.driver d).foldl (fun s env => (s.send u env written).1) x.channel⟩

def reached (u : ReconnectSetup) (x : Worker) : Task → SignalingReconnect
  | .driver _ _ => x.channel
  | .channel a _ => x.channel.step u a

def acts (u : ReconnectSetup) (x : Worker) : Task → List Act
  | .driver a _ => if a.fromChannel then [] else [a]
  | .channel a _ => (x.channel.since (x.channel.step u a)).filterMap SignalingReconnect.Event.forward

def step (u : ReconnectSetup) (w : Webrtc) (x : Worker) (t : Task) : Worker :=
  (x.acts u t).foldl (drive u w t.written) ⟨x.driver, x.reached u t⟩

def undropped (u : ReconnectSetup) (w : Webrtc) (x : Worker) (t : Task) : Driver :=
  (x.acts u t).foldl (fun d a => d.step w (a.answered true)) x.driver

def connects (u : ReconnectSetup) (x : Worker) (t : Task) : Bool := (x.acts u t).any Act.connects

/-- The task is the completion of a `CreateOffer` that the driver waits for, with this offer. -/
def Completes (w : Webrtc) (x : Worker) (t : Task) (offer : Bytes) : Prop :=
  ∃ sdpType sdp accepted written type,
    t = .driver (.createOfferSuccess x.driver.arm sdpType sdp accepted) written ∧
    (x.driver.arm, .createOffer) ∈ x.driver.ops ∧ x.driver.state = .creatingOffer ∧
    w.sdpTypeFromString sdpType = some type ∧ w.createSessionDescription type sdp = some offer

/-- An offer is only completed before the channel has ever been up or while it takes envelopes, and
the write of one that was held back succeeds. -/
def Taken (x : Worker) (t : Task) : Prop :=
  (t.completesOffer x.driver.arm = true → x.driver.state = .creatingOffer →
    x.driver.wsConnected = false ∨ x.channel.accepts t.written = true) ∧
  (t.ofChannel = true → x.driver.pendingLocalOffer ≠ none → t.written = true)

instance (x : Worker) (t : Task) : Decidable (x.Taken t) :=
  inferInstanceAs (Decidable ((_ → _ → _ ∨ _) ∧ (_ → _ → _)))

end Worker

def runWorker (u : ReconnectSetup) (w : Webrtc) (tasks : List Worker.Task) : Worker :=
  run (Worker.step u w) (.new u) tasks

/-- An offer that is completed while the channel is down is held back and goes out on the next
`OnConnected` that still finds its dance waiting, and the driver fails in no task that it would
survive if every `Send` succeeded. -/
structure Recovers (u : ReconnectSetup) (w : Webrtc) (tasks : List Worker.Task) : Prop where
  held : ∀ before t after offer, tasks = before ++ t :: after →
    (runWorker u w before).Completes w t offer → (runWorker u w before).channel.isOpen = false →
    (runWorker u w (before ++ [t])).driver.pendingLocalOffer = some offer ∧
      (runWorker u w (before ++ [t])).driver.state = .creatingOffer
  sent : ∀ before t middle t' after offer, tasks = before ++ t :: (middle ++ t' :: after) →
    (runWorker u w before).Completes w t offer → (runWorker u w before).channel.isOpen = false →
    Meets (Worker.step u w) (fun x t => x.connects u t = false) (runWorker u w (before ++ [t])) middle →
    (runWorker u w (before ++ t :: middle)).connects u t' = true →
    (runWorker u w (before ++ t :: middle)).driver.state = .creatingOffer →
    (runWorker u w (before ++ t :: middle)).driver.arm = (runWorker u w before).driver.arm →
    (runWorker u w (before ++ t :: (middle ++ [t']))).driver.log =
      (runWorker u w (before ++ t :: middle)).driver.log ++
        [.handed (offerEnvelope offer), .issued (runWorker u w before).driver.arm (.setLocalDescription offer)]
  unfailed : ∀ before t after, tasks = before ++ t :: after →
    (runWorker u w before).driver.state ≠ .failed →
    (runWorker u w (before ++ [t])).driver.state = .failed →
    ((runWorker u w before).undropped u w t).state = .failed

namespace SignalingReconnect

def Announces (s t : SignalingReconnect) : Prop :=
  ∃ news, t.log = s.log ++ news ∧ (.onConnected ∈ news → news = [.onConnected] ∧ t.isOpen = true)

variable {s t : SignalingReconnect}

theorem Announces.other (news : List Event) (hlog : t.log = s.log ++ news)
    (hnone : .onConnected ∉ news) : Announces s t :=
  ⟨news, hlog, fun hmem => absurd hmem hnone⟩

theorem Announces.silent (hlog : t.log = s.log) : Announces s t :=
  .other [] (by simp [hlog]) (by simp)

section
variable (u : ReconnectSetup)

section
variable (s : SignalingReconnect)

theorem armIdleTimer_log :
    (s.armIdleTimer u).log = s.log := by
  unfold armIdleTimer
  split <;> rfl

theorem armIdleTimer_isOpen :
    (s.armIdleTimer u).isOpen = s.isOpen := by
  unfold armIdleTimer
  split <;> rfl

theorem handleChannelDead_log :
    ∃ e, e ≠ .onConnected ∧ (s.handleChannelDead u).log = s.log ++ [e] := by
  simp only [handleChannelDead]
  split <;> exact ⟨_, by simp, rfl⟩

end

theorem handleChannelDead_announces (s s' : SignalingReconnect)
    (news : List Event) (hlog : s'.log = s.log ++ news) (hnone : .onConnected ∉ news) :
    Announces s (s'.handleChannelDead u) := by
  obtain ⟨e, he, hdead⟩ := handleChannelDead_log u s'
  refine .other (news ++ [e]) (by rw [hdead, hlog, append_assoc]) ?_
  simp [hnone, Ne.symm he]

section
variable (s : SignalingReconnect)

theorem observe_announces {c : SignalingWsClient} {r : SignalingWsClient × Option Callback} (hrep : c.Reply r) :
    Announces s (s.observe u r) := by
  have hr := hrep.opened
  obtain ⟨c, _ | callback⟩ := r
  · exact .silent rfl
  cases callback with
  | onConnected =>
    obtain rfl : c = ⟨.opened⟩ := hr rfl
    refine ⟨[.onConnected], ?_, fun _ => ⟨rfl, ?_⟩⟩
    · simp [observe, onConnected, note, armIdleTimer_log]
    · exact armIdleTimer_isOpen u _
  | onEnvelope env => exact .other [.onEnvelope env] (by simp [observe, onEnvelope, note, armIdleTimer_log]) (by simp)
  | onClosed code reason =>
    simp only [observe, onClosed]
    split
    · exact .other [.onClosed code reason] rfl (by simp)
    · exact handleChannelDead_announces u s _ [] (by simp) (by simp)
  | onError => exact handleChannelDead_announces u s _ [] (by simp) (by simp)

theorem startInnerDial_announces :
    Announces s (s.startInnerDial u) := by
  unfold startInnerDial
  cases u.url with
  | empty | invalid => exact handleChannelDead_announces u s _ [.dialed] rfl (by simp)
  | valid => exact .other [.dialed] rfl (by simp)

theorem step_announces (a : Act) :
    Announces s (step u s a) := by
  cases a with
  | connect =>
    simp only [step, connect]
    split
    · exact .silent rfl
    · exact startInnerDial_announces u _
  | disconnect =>
    simp only [step, disconnect]
    split
    · exact .silent rfl
    split
    · exact .silent rfl
    · exact .other [.onClosed 1000 "wrapper-disconnect-noop"] rfl (by simp)
  | send env written =>
    simp only [step, send]
    split
    · exact .silent rfl
    split
    · exact .silent rfl
    next c _ => exact observe_announces u s (c.send_reply env written)
  | net e =>
    simp only [step]
    split
    · exact .silent rfl
    next c _ => exact observe_announces u s (c.receive_reply e)
  | backoffFires =>
    simp only [step, onBackoffFired]
    split
    · exact .silent rfl
    split
    · exact .silent rfl
    · exact startInnerDial_announces u _
  | idleFires =>
    simp only [step, onIdleFired]
    split
    · exact .silent rfl
    split
    · exact .silent rfl
    · exact handleChannelDead_announces u s _ [] (by simp) (by simp)

end

end

end SignalingReconnect

namespace Driver
variable {w : Webrtc} {d x y : Driver} {a : Act}

theorem step_answered (w : Webrtc) (d : Driver) (a : Act) (accepted : Bool)
    (hoffer : a.completesOffer d.arm = true → d.state = .creatingOffer → d.wsConnected = false ∨ accepted = true)
    (hheld : a.connects = true → d.pendingLocalOffer ≠ none → accepted = true) :
    d.step w (a.answered accepted) = d.step w (a.answered true) := by
  cases accepted with
  | true => rfl
  | false =>
    cases a with
    | onConnected =>
      have hnone : d.pendingLocalOffer = none := by
        by_contra hsome
        simpa using hheld rfl hsome
      simp [answered, step, onConnected, hnone]
    | createOfferSuccess arm =>
      simp only [answered, step, land]
      by_cases harm : arm = d.arm
      · by_cases hs : d.state = .creatingOffer
        · have hws : d.wsConnected = false := by simpa using hoffer (by simp [completesOffer, harm]) hs
          simp [hopHandleCreateOfferSuccess, hws]
        · simp [hopHandleCreateOfferSuccess, hs]
      · simp [harm]
    | _ => rfl

def Holding (arm : ℕ) (offer : Bytes) (d : Driver) : Prop :=
  arm ≤ d.arm ∧ (d.arm = arm → d.pendingLocalOffer = some offer)

variable {arm : ℕ} {offer : Bytes}

theorem Holding.move (hm : Move w d a x y) (ha : a.connects = false) (hpcd : Paced x)
    (h : Holding arm offer x) : Holding arm offer y := by
  cases hm with
  | returnToIdle x =>
    have hle := h.1
    refine ⟨?_, ?_⟩
    · show arm ≤ x.arm + 1
      omega
    intro harm
    have harm : x.arm + 1 = arm := harm
    omega
  | bufferOffer x sdp hx hop =>
    refine ⟨h.1, fun harm => ?_⟩
    -- with an offer held back, no `CreateOffer` of the arm is outstanding
    have hawt := hpcd.current (by rw [hx]; rfl) _ hop
    simp [awaited, hx, h.2 harm] at hawt
  | drainOffer _ _ _ _ hcon | connect _ _ hcon | dropOffer _ hcon => simp [ha] at hcon
  | remoteSet => simpa [Holding, enterIceFlight_eq] using h
  | _ => exact h

theorem Paced.step (h : Paced d) (a : Act) : Paced (d.step w a) :=
  step_invariant Paced (fun _ _ hm hx => hx.move hm) h

theorem Holding.step (ha : a.connects = false) (h : Paced d ∧ Holding arm offer d) :
    Paced (d.step w a) ∧ Holding arm offer (d.step w a) :=
  step_invariant (fun y => Paced y ∧ Holding arm offer y) (fun _ _ hm hx => ⟨hx.1.move hm, hx.2.move hm ha hx.1⟩) h

theorem step_completes {sdpType : String} {sdp : Bytes} {type : SdpType} (accepted : Bool)
    (hop : (d.arm, .createOffer) ∈ d.ops) (hs : d.state = .creatingOffer) (hws : d.wsConnected = false)
    (htype : w.sdpTypeFromString sdpType = some type) (hsdp : w.createSessionDescription type sdp = some offer) :
    d.step w (.createOfferSuccess d.arm sdpType sdp accepted) = { d with
      ops := d.ops.erase (d.arm, .createOffer), pendingLocalOffer := some offer } := by
  simp [step, land, hop, hopHandleCreateOfferSuccess, hs, htype, hsdp, hws]

theorem step_connects (hs : d.state = .creatingOffer) (hp : d.pendingLocalOffer = some offer) :
    (d.step w (.onConnected true)).log = d.log ++
      [.handed (offerEnvelope offer), .issued d.arm (.setLocalDescription offer)] := by
  simp [step, onConnected, hs, hp, emitOfferAndSetLocal, issue, note, offerEnvelope]

end Driver

namespace Worker
variable {u : ReconnectSetup} {w : Webrtc} {x : Worker} {t : Task}

theorem answered_connects (a : Act) (accepted : Bool) :
    (a.answered accepted).connects = a.connects := by
  cases a <;> rfl

theorem step_driver (I : Driver → Prop)
    (hact : ∀ a ∈ x.acts u t, ∀ accepted d, I d → I (d.step w (a.answered accepted)))
    (h : I x.driver) : I (x.step u w t).driver := by
  have hfold : ∀ (as : List Act) (y : Worker), (∀ a ∈ as, a ∈ x.acts u t) → I y.driver →
      I (as.foldl (drive u w t.written) y).driver := by
    intro as
    induction as with
    | nil => exact fun _ _ hy => hy
    | cons a as ih =>
      intro y has hy
      refine ih _ (fun b hb => has b (mem_cons_of_mem _ hb)) ?_
      exact hact a (has a mem_cons_self) _ _ hy
  exact hfold _ _ (fun _ ha => ha) h

theorem step_paced (h : Driver.Paced x.driver) (t : Task) : Driver.Paced (x.step u w t).driver :=
  step_driver _ (fun _ _ _ _ hd => hd.step _) h

theorem run_paced (u : ReconnectSetup) (w : Webrtc) (tasks : List Task) :
    Driver.Paced (runWorker u w tasks).driver := by
  refine invariant_run (step u w) (fun x => Driver.Paced x.driver) ?_ ?_ tasks
  · exact fun x t h => step_paced h t
  · exact Driver.paced_new

variable {offer : Bytes}

theorem run_holding {arm : ℕ} {tasks : List Task} (h : Driver.Paced x.driver ∧ Driver.Holding arm offer x.driver)
    (hnone : Meets (step u w) (fun x t => x.connects u t = false) x tasks) :
    Driver.Holding arm offer (run (step u w) x tasks).driver := by
  refine (invariant_run_meets (step u w) _
    (fun x => Driver.Paced x.driver ∧ Driver.Holding arm offer x.driver) ?_ h hnone).2
  intro x t hqt hx
  refine step_driver (fun d => Driver.Paced d ∧ Driver.Holding arm offer d) ?_ hx
  intro a ha accepted d hd
  refine Driver.Holding.step ?_ hd
  rw [answered_connects]
  simpa using any_eq_false.mp hqt a ha

theorem acts_of_connects (h : x.connects u t = true) :
    t.ofChannel = true ∧ x.acts u t = [.onConnected true] ∧ (x.reached u t).isOpen = true := by
  cases t with
  | driver a =>
    cases a <;> simp [connects, acts, fromChannel, Act.connects] at h
  | channel a =>
    obtain ⟨news, hlog, hnews⟩ := SignalingReconnect.step_announces u x.channel a
    have hsin : x.channel.since (x.channel.step u a) = news := by simp [SignalingReconnect.since, hlog]
    have hmem : .onConnected ∈ news := by
      obtain ⟨b, hb, hcon⟩ := any_eq_true.mp h
      rw [acts, hsin, mem_filterMap] at hb
      obtain ⟨e, he, hfwd⟩ := hb
      cases e with
      | onConnected => exact he
      | onEnvelope =>
        obtain rfl := Option.some.inj hfwd
        simp [Act.connects] at hcon
      | _ => simp [SignalingReconnect.Event.forward] at hfwd
    obtain ⟨rfl, hopen⟩ := hnews hmem
    refine ⟨rfl, ?_, hopen⟩
    rw [acts, hsin]
    rfl

theorem step_undropped (h : x.Taken t) : (x.step u w t).driver = x.undropped u w t := by
  by_cases hcon : x.connects u t = true
  · obtain ⟨hchan, hacts, hopen⟩ := acts_of_connects hcon
    rw [step, undropped, hacts]
    refine Driver.step_answered w x.driver (.onConnected true) _ (by simp [completesOffer]) ?_
    intro _ hheld
    simp [SignalingReconnect.accepts, hopen, h.2 hchan hheld]
  rw [Bool.not_eq_true] at hcon
  cases t with
  | driver a written =>
    simp only [step, undropped, acts]
    split
    · rfl
    rename_i hloc
    refine Driver.step_answered w x.driver a _ h.1 ?_
    intro hc
    cases a <;> simp [Act.connects, fromChannel] at hc hloc
  | channel a written =>
    -- only envelopes are left, and `Send` has no say in those
    have hsame : ∀ b ∈ x.acts u (.channel a written), ∀ accepted, b.answered accepted = b.answered true := by
      intro b hb accepted
      obtain ⟨e, -, hfwd⟩ := mem_filterMap.mp hb
      cases e with
      | onConnected =>
        obtain rfl := Option.some.inj hfwd
        simpa [Act.connects] using any_eq_false.mp hcon _ hb
      | onEnvelope =>
        obtain rfl := Option.some.inj hfwd
        rfl
      | _ => simp [SignalingReconnect.Event.forward] at hfwd
    have hfold : ∀ (as : List Act) (y : Worker),
        (∀ b ∈ as, ∀ accepted, b.answered accepted = b.answered true) →
        (as.foldl (drive u w written) y).driver = as.foldl (fun d a => d.step w (a.answered true)) y.driver := by
      intro as
      induction as with
      | nil => exact fun _ _ => rfl
      | cons b as ih =>
        intro y has
        rw [foldl_cons, foldl_cons, ih _ fun c hc => has c (mem_cons_of_mem _ hc)]
        rw [drive, has b mem_cons_self]
    exact hfold _ _ hsame

theorem Completes.creating (hc : x.Completes w t offer) : x.driver.state = .creatingOffer := by
  obtain ⟨-, -, -, -, -, -, -, hs, -⟩ := hc
  exact hs

theorem step_held (hok : x.Taken t) (hc : x.Completes w t offer) (hdown : x.channel.isOpen = false) :
    (x.step u w t).driver = { x.driver with
      ops := x.driver.ops.erase (x.driver.arm, .createOffer), pendingLocalOffer := some offer } := by
  obtain ⟨sdpType, sdp, accepted, written, type, rfl, hop, hs, htype, hsdp⟩ := hc
  have hws : x.driver.wsConnected = false := by
    refine (hok.1 ?_ hs).resolve_right ?_
    · simp [Task.completesOffer, completesOffer]
    · simp [SignalingReconnect.accepts, hdown]
  exact Driver.step_completes _ hop hs hws htype hsdp

end Worker

theorem runWorker_concat (u : ReconnectSetup) (w : Webrtc) (tasks : List Worker.Task)
    (t : Worker.Task) : runWorker u w (tasks ++ [t]) = (runWorker u w tasks).step u w t := by
  rw [runWorker, run_append]
  rfl

/-- If every offer is completed before the channel has ever been up or while it takes envelopes,
drops of the channel do not reach the driver's dance. -/
theorem offers_survive_drops (u : ReconnectSetup) (w : Webrtc) (tasks : List Worker.Task)
    (hok : Meets (Worker.step u w) Worker.Taken (.new u) tasks) : Recovers u w tasks := by
  have htaken : ∀ before t after, tasks = before ++ t :: after → (runWorker u w before).Taken t := by
    rintro before t after rfl
    rw [meets_append] at hok
    exact hok.2.1
  refine ⟨?_, ?_, ?_⟩
  · intro before t after offer htasks hc hdown
    have hstep := Worker.step_held (u := u) (htaken _ _ _ htasks) hc hdown
    rw [runWorker_concat, hstep]
    exact ⟨rfl, hc.creating⟩
  · intro before t middle t' after offer htasks hc hdown hquiet hconnects hcreating harm
    have hstep := Worker.step_held (u := u) (htaken _ _ _ htasks) hc hdown
    have hrun : runWorker u w (before ++ t :: middle) =
        run (Worker.step u w) (runWorker u w (before ++ [t])) middle := by
      rw [runWorker, runWorker, ← run_append, append_assoc]
      rfl
    have hholding : Driver.Holding (runWorker u w before).driver.arm offer
        (runWorker u w (before ++ t :: middle)).driver := by
      rw [hrun]
      refine Worker.run_holding ⟨Worker.run_paced u w _, ?_⟩ hquiet
      rw [runWorker_concat, hstep]
      exact ⟨le_refl _, fun _ => rfl⟩
    have hheld := hholding.2 harm
    have hsplit : tasks = (before ++ t :: middle) ++ t' :: after := by simp [htasks]
    have hundropped := Worker.step_undropped (u := u) (w := w) (htaken _ _ _ hsplit)
    obtain ⟨-, hacts, -⟩ := Worker.acts_of_connects hconnects
    have hlog := Driver.step_connects (w := w) hcreating hheld
    have happend : before ++ t :: (middle ++ [t']) = (before ++ t :: middle) ++ [t'] := by simp
    rwa [happend, runWorker_concat, hundropped, Worker.undropped, hacts, ← harm]
  · intro before t after htasks _ hfailed
    rwa [runWorker_concat, Worker.step_undropped (htaken _ _ _ htasks)] at hfailed

/-- The offer is ready before the channel is up for the first time; later the channel drops and is
redialed. -/
def earlyOffer : List Worker.Task :=
  [.driver (.start .made) true, .driver .renegotiationNeeded true, .channel .connect true,
    .driver (.createOfferSuccess 0 "offer" [118] true) true,
    .channel (.net .connectionEstablished) true,
    .driver (.setLocalDescriptionComplete 0 true "") true,
    .channel (.net (.dropChannel false 1006 "")) true, .channel .backoffFires true,
    .channel (.net .connectionEstablished) true, .driver (.rearm false) true,
    .driver (.start .made) true, .driver .renegotiationNeeded true,
    .driver (.createOfferSuccess 1 "offer" [119] true) true]

theorem offers_survive_drops_earlyOffer : Recovers {} .permissive earlyOffer :=
  offers_survive_drops _ _ _ (by decide +kernel)

def droppedOffer : List Worker.Task :=
  [.driver (.start .made) true, .channel .connect true,
    .channel (.net .connectionEstablished) true, .driver .renegotiationNeeded true,
    .channel (.net (.dropChannel false 1006 "")) true,
    .driver (.createOfferSuccess 0 "offer" [118] true) true, .channel .backoffFires true,
    .channel (.net .connectionEstablished) true]

theorem drop_fails_driver :
    ¬ Recovers {} .permissive droppedOffer ∧
    (runWorker {} .permissive droppedOffer).channel.log = [.dialed, .onConnected, .scheduled 1, .dialed, .onConnected] ∧
    (runWorker {} .permissive droppedOffer).driver.state = .failed ∧
    .notify (.failed "ws Send(offer) failed") ∈
      (runWorker {} .permissive droppedOffer).driver.log := by
  refine ⟨?_, by decide +kernel, by decide +kernel, by decide +kernel⟩
  intro h
  have hfailed := h.unfailed (droppedOffer.take 5)
    (.driver (.createOfferSuccess 0 "offer" [118] true) true) (droppedOffer.drop 6) rfl
    (by decide +kernel) (by decide +kernel)
  exact absurd hfailed (by decide +kernel)

end Chromeless.Capture
