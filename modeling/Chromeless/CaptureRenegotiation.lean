import Chromeless.CaptureAnswers
import Chromeless.CaptureBuffers

/-! One dance at a time, and one more for the triggers that arrive during it. -/
namespace Chromeless.Capture
open Json History Event List OffererState

def Op.next : Op → Op
  | .createOffer => .setLocalDescription
  | .setLocalDescription => .setRemoteDescription
  | .setRemoteDescription => .createOffer

/-- A monitor of the calls on one PeerConnection: its state is the call that is due. -/
def inTurn (due op : Op) : Option Op := if op = due then some op.next else none

def Event.issuedIn (arm : ℕ) : Event → Option Op
  | .issued k call => if k = arm then some call.op else none
  | _ => none

def issuedIn (arm : ℕ) (log : List Event) : List Op := log.filterMap (Event.issuedIn arm)

/-- A trigger that is not answered on the spot. A remote one in `kAwaitingAnswer` is. -/
def Event.coalesces : Event → Bool
  | .triggered t s => t ≠ .remote || s ≠ .awaitingAnswer
  | _ => false

def Event.createsOffer : Event → Bool
  | .issued _ .createOffer => true
  | _ => false

namespace Driver

/-- One dance at a time, and one more if it was asked for during the last. -/
structure Coalescing (w : Webrtc) (d : Driver) : Prop where
  one_outstanding : ∀ arm, (d.ops.filter fun o => o.1 = arm).length ≤ 1
  in_turn : ∀ arm, (track inTurn .createOffer (issuedIn arm d.log)).isSome = true
  one_further : ∀ reason, d.state = .settingRemote → (d.arm, .setRemoteDescription) ∈ d.ops →
    0 < (dance d.log).countP Event.coalesces →
      ∃ es, (d.step w (.setRemoteDescriptionComplete d.arm true reason)).log = d.log ++ es ∧ es.countP createsOffer = 1
  at_rest : d.state = .iceInFlight → d.pendingRenegotiation = false

end Driver

structure Spaced (arm : ℕ) (ops : List (ℕ × Op)) : Prop where
  each : ∀ k, ops.countP (fun o => o.1 = k) ≤ 1
  past : ∀ o ∈ ops, o.1 ≤ arm

namespace Spaced
variable {arm : ℕ} {ops ops' : List (ℕ × Op)}

section
variable (h : Spaced arm ops)
include h

theorem sublist (hs : ops'.Sublist ops) : Spaced arm ops' :=
  ⟨fun k => le_trans hs.countP_le (h.each k), fun o ho => h.past o (hs.subset ho)⟩

theorem append (hnone : ∀ op, (arm, op) ∉ ops) (op : Op) :
    Spaced arm (ops ++ [(arm, op)]) := by
  refine ⟨?_, ?_⟩
  · intro k
    rw [countP_append, countP_singleton]
    by_cases hk : arm = k
    · have hzero : ops.countP (fun o => o.1 = k) = 0 := by
        rw [countP_eq_zero]
        intro o ho hok
        have ho' : o = (arm, o.2) := Prod.ext (by simpa [hk] using hok) rfl
        exact hnone o.2 (ho' ▸ ho)
      split <;> omega
    have hone := h.each k
    simp only [hk, decide_false, Bool.false_eq_true, if_false]
    omega
  · intro o ho
    rcases mem_append.mp ho with ho | ho
    · exact h.past o ho
    · rw [mem_singleton.mp ho]

theorem erase_none {op : Op} (hop : (arm, op) ∈ ops) (op' : Op) :
    (arm, op') ∉ ops.erase (arm, op) := by
  intro hmem
  have hone := h.each arm
  have hperm : ops.countP (fun o => o.1 = arm) = ((arm, op) :: ops.erase (arm, op)).countP (fun o => o.1 = arm) :=
    (perm_cons_erase hop).countP_eq _
  have hpos : 0 < (ops.erase (arm, op)).countP (fun o => o.1 = arm) := countP_pos_iff.mpr ⟨_, hmem, by simp⟩
  rw [hperm, countP_cons_of_pos (by simp)] at hone
  omega

theorem next : Spaced (arm + 1) ops :=
  ⟨h.each, fun o ho => Nat.le_succ_of_le (h.past o ho)⟩

theorem next_none (op : Op) : (arm + 1, op) ∉ ops := by
  intro hmem
  have hle := h.past _ hmem
  omega

end

end Spaced

namespace Driver
variable {w : Webrtc} {d x y : Driver} {a : Act}

def awaited (d : Driver) : Option Op :=
  match d.state with
  | .creatingOffer => if d.pendingLocalOffer.isSome then none else some .createOffer
  | .settingLocal => some .setLocalDescription
  | .settingRemote => some .setRemoteDescription
  | _ => none

structure Paced (d : Driver) : Prop where
  spaced : Spaced d.arm d.ops
  current : d.state.terminal = false → ∀ op, (d.arm, op) ∈ d.ops → d.awaited = some op
  buffer : d.pendingLocalOffer ≠ none → d.state.terminal = false → d.state = .creatingOffer

theorem paced_new : Paced new := by
  refine ⟨⟨?_, ?_⟩, ?_, ?_⟩ <;> simp [new]

theorem Paced.none_outstanding (h : Paced x) (hlive : x.state.terminal = false)
    (hx : x.awaited = none) (op : Op) : (x.arm, op) ∉ x.ops := by
  intro hmem
  have hsome := h.current hlive op hmem
  rw [hx] at hsome
  exact absurd hsome (by simp)

theorem Paced.no_buffer (h : Paced x) (s : OffererState) (hx : x.state = s)
    (hs : s.terminal = false ∧ s ≠ .creatingOffer) : x.pendingLocalOffer = none := by
  by_contra hne
  have hcrt := h.buffer hne (by rw [hx]; exact hs.1)
  exact hs.2 (hx.symm.trans hcrt)

theorem Paced.same (h : Paced x) (hops : y.ops = x.ops) (harm : y.arm = x.arm)
    (hst : y.state = x.state) (hbuf : y.pendingLocalOffer = x.pendingLocalOffer) :
    Paced y := by
  have hawt : y.awaited = x.awaited := by rw [awaited, awaited, hst, hbuf]
  refine ⟨?_, ?_, ?_⟩
  · rw [hops, harm]
    exact h.spaced
  · rw [hops, harm, hst, hawt]
    exact h.current
  · rw [hbuf, hst]
    exact h.buffer

theorem Paced.ended (h : Paced x) (hops : y.ops = x.ops) (harm : y.arm = x.arm)
    (hy : y.state.terminal = true) : Paced y := by
  refine ⟨?_, by simp [hy], by simp [hy]⟩
  rw [hops, harm]
  exact h.spaced

theorem Paced.issue {ops : List (ℕ × Op)} (h : Spaced x.arm ops) (hnone : ∀ op, (x.arm, op) ∉ ops) (call : Call)
    (hops : y.ops = ops ++ [(x.arm, call.op)]) (harm : y.arm = x.arm) (hawt : y.awaited = some call.op)
    (hbuf : y.pendingLocalOffer = none) : Paced y := by
  refine ⟨?_, ?_, by simp [hbuf]⟩
  · rw [hops, harm]
    exact h.append hnone call.op
  intro _ op hmem
  rw [hops, harm] at hmem
  rcases mem_append.mp hmem with hmem | hmem
  · exact absurd hmem (hnone op)
  · have heq : op = call.op := by simpa using hmem
    rw [hawt, heq]

theorem Paced.rest {ops : List (ℕ × Op)} (h : Spaced x.arm ops) (hnone : ∀ op, (x.arm, op) ∉ ops) (hops : y.ops = ops)
    (harm : y.arm = x.arm) (hbuf : y.pendingLocalOffer ≠ none → y.state = .creatingOffer) : Paced y := by
  refine ⟨?_, ?_, fun hne _ => hbuf hne⟩
  · rwa [hops, harm]
  intro _ op hmem
  rw [hops, harm] at hmem
  exact absurd hmem (hnone op)

theorem Paced.move (hm : Move w d a x y) (h : Paced x) : Paced y := by
  -- a call is issued from a state that waits for none, or on the completion of the last one
  cases hm with
  | aside | latch | consume | trigger | coalesce | refuseOffer | connect | record | bufferAnswer
  | queueIce | addIce => exact h.same rfl rfl rfl rfl
  | fail | refail | close => exact h.ended rfl rfl rfl
  | start x pc hx =>
    have hlive : x.state.terminal = false := by rw [hx]; rfl
    have hnone := h.none_outstanding hlive (by simp [awaited, hx])
    have hbuf := h.no_buffer .idle hx (by decide)
    exact .rest h.spaced hnone rfl rfl fun hne => absurd hbuf hne
  | returnToIdle =>
    exact ⟨h.spaced.next, fun _ op hmem => absurd hmem (h.spaced.next_none op), fun hne => absurd rfl hne⟩
  | initialOffer x hx =>
    have hlive : x.state.terminal = false := by rw [hx]; rfl
    have hnone := h.none_outstanding hlive (by simp [awaited, hx])
    have hbuf := h.no_buffer .creatingPc hx (by decide)
    exact .issue h.spaced hnone .createOffer rfl rfl (by simp [awaited, Driver.issue, note, hbuf, Call.op]) hbuf
  | restart x t hx =>
    have hlive : x.state.terminal = false := by rw [hx]; rfl
    have hnone := h.none_outstanding hlive (by simp [awaited, hx])
    have hbuf := h.no_buffer .iceInFlight hx (by decide)
    exact .issue h.spaced hnone .createOffer rfl rfl
      (by simp [awaited, restartDance, Driver.issue, notify, note, hbuf, Call.op]) hbuf
  | land =>
    refine ⟨h.spaced.sublist erase_sublist, ?_, h.buffer⟩
    exact fun hlive op' hmem => h.current hlive op' (mem_of_mem_erase hmem)
  | bufferOffer x sdp hx hop =>
    exact .rest (h.spaced.sublist erase_sublist) (h.spaced.erase_none hop) rfl rfl fun _ => hx
  | emitOffer x sdp hx hop =>
    -- with an offer buffered, `CreateOffer` would not be outstanding
    have hbuf : x.pendingLocalOffer = none := by
      have hawt := h.current (by rw [hx]; rfl) _ hop
      cases hp : x.pendingLocalOffer with
      | none => rfl
      | some => simp [awaited, hx, hp] at hawt
    exact .issue (h.spaced.sublist erase_sublist) (h.spaced.erase_none hop) (.setLocalDescription sdp) rfl rfl rfl hbuf
  | drainOffer x sdp hx hp =>
    have hlive : x.state.terminal = false := by rw [hx]; rfl
    have hnone := h.none_outstanding hlive (by simp [awaited, hx, hp])
    exact .issue h.spaced hnone (.setLocalDescription sdp) rfl rfl rfl rfl
  | dropOffer x =>
    refine ⟨h.spaced, ?_, fun hne => absurd rfl hne⟩
    intro hlive op hmem
    have hawt := h.current hlive op hmem
    cases hs : x.state <;> simp_all [awaited]
  | localSet _ hx hop | forgetEarly _ hx hop =>
    have hbuf := h.no_buffer .settingLocal hx (by decide)
    exact .rest (h.spaced.sublist erase_sublist) (h.spaced.erase_none hop) rfl rfl fun hne => absurd hbuf hne
  | applyAnswer env sdp remote ha ht hx =>
    have hlive : d.state.terminal = false := by rw [hx]; rfl
    have hnone := h.none_outstanding hlive (by simp [awaited, hx])
    exact .issue h.spaced hnone (.setRemoteDescription d.seen remote) rfl rfl rfl
      (h.no_buffer .awaitingAnswer hx (by decide))
  | applyEarly x n sdp remote hx hop =>
    exact .issue (h.spaced.sublist erase_sublist) (h.spaced.erase_none hop)
      (.setRemoteDescription n remote) rfl rfl rfl (h.no_buffer .settingLocal hx (by decide))
  | remoteSet arm reason ha harm hx hop =>
    have hbuf := h.no_buffer .settingRemote hx (by decide)
    refine .rest (h.spaced.sublist erase_sublist) (h.spaced.erase_none hop) ?_ ?_ ?_
    · simp [enterIceFlight_eq]
    · simp [enterIceFlight_eq]
    · simp [enterIceFlight_eq, hbuf]

end Driver

theorem issuedIn_append (arm : ℕ) (log es : List Event) :
    issuedIn arm (log ++ es) = issuedIn arm log ++ issuedIn arm es := filterMap_append

def Event.issues : Event → Bool
  | .issued _ _ => true
  | _ => false

theorem issuedIn_none {es : List Event} (hes : ∀ e ∈ es, e.issues = false) (arm : ℕ) :
    issuedIn arm es = [] := by
  refine filterMap_eq_nil_iff.mpr ?_
  intro e he
  have hne := hes e he
  cases e <;> simp [issues, Event.issuedIn] at hne ⊢

theorem Event.aside_issues {e : Event} (he : e.aside = true) : e.issues = false := by
  cases e <;> simp [Event.aside, issues] at he ⊢

def OffererState.due : OffererState → Op
  | .creatingOffer => .setLocalDescription
  | .settingLocal | .awaitingAnswer => .setRemoteDescription
  | _ => .createOffer

namespace Driver
variable {w : Webrtc} {d x y : Driver} {a : Act}

structure InTurn (d : Driver) : Prop where
  turns : ∀ arm, (track inTurn .createOffer (issuedIn arm d.log)).isSome = true
  turn : d.state.terminal = false → track inTurn .createOffer (issuedIn d.arm d.log) = some d.state.due
  future : ∀ arm, d.arm < arm → issuedIn arm d.log = []

theorem InTurn.frame (h : InTurn x) (es : List Event) (hlog : y.log = x.log ++ es) (hes : ∀ e ∈ es, e.issues = false)
    (harm : y.arm = x.arm) (hdue : y.state.terminal = false → x.state.terminal = false ∧ y.state.due = x.state.due) :
    InTurn y := by
  have hiss : ∀ arm, issuedIn arm y.log = issuedIn arm x.log := by
    intro arm
    rw [hlog, issuedIn_append, issuedIn_none hes, append_nil]
  refine ⟨?_, ?_, ?_⟩
  · intro arm
    rw [hiss]
    exact h.turns arm
  · intro hy
    obtain ⟨hx, hsame⟩ := hdue hy
    rw [hiss, harm, hsame]
    exact h.turn hx
  · intro arm hlt
    rw [hiss]
    exact h.future arm (harm ▸ hlt)

theorem InTurn.issue (h : InTurn x) (es : List Event) (call : Call)
    (hlog : y.log = x.log ++ es ++ [.issued x.arm call]) (hes : ∀ e ∈ es, e.issues = false) (harm : y.arm = x.arm)
    (hx : x.state.terminal = false) (hdue : x.state.due = call.op) (hy : y.state.due = call.op.next) : InTurn y := by
  have hown : issuedIn x.arm y.log = issuedIn x.arm x.log ++ [call.op] := by
    rw [hlog, issuedIn_append, issuedIn_append, issuedIn_none hes, append_nil]
    simp [issuedIn, Event.issuedIn]
  have hoth : ∀ arm, arm ≠ x.arm → issuedIn arm y.log = issuedIn arm x.log := by
    intro arm hne
    rw [hlog, issuedIn_append, issuedIn_append, issuedIn_none hes, append_nil]
    simp [issuedIn, Event.issuedIn, Ne.symm hne]
  have hturn : track inTurn .createOffer (issuedIn x.arm y.log) = some y.state.due := by
    rw [hown, track_concat, h.turn hx, hy]
    simp [inTurn, hdue]
  refine ⟨?_, ?_, ?_⟩
  · intro arm
    by_cases hne : arm = x.arm
    · rw [hne, hturn]
      rfl
    · rw [hoth arm hne]
      exact h.turns arm
  · intro _
    rwa [harm]
  · intro arm hlt
    rw [harm] at hlt
    rw [hoth arm (by omega)]
    exact h.future arm hlt

theorem InTurn.move (hm : Move w d a x y) (h : InTurn x) : InTurn y := by
  have hover : ∀ P : Prop, true = false → P := fun P h => absurd h (by simp)
  cases hm with
  | aside x e he => exact h.frame [e] rfl (by simp [aside_issues he]) rfl fun hy => ⟨hy, rfl⟩
  | fail | refail | close => exact h.frame [_] rfl (by simp [issues]) rfl (hover _)
  | latch | consume | land | bufferOffer | connect | dropOffer =>
    exact h.frame [] (append_nil _).symm (by simp) rfl fun hy => ⟨hy, rfl⟩
  | trigger | coalesce | refuseOffer | record | bufferAnswer | queueIce =>
    exact h.frame [_] rfl (by simp [issues]) rfl fun hy => ⟨hy, rfl⟩
  | addIce => exact h.frame [_, _] (append_assoc _ [_] [_]) (by simp [issues]) rfl fun hy => ⟨hy, rfl⟩
  | start x pc hx => exact h.frame [_] rfl (by simp [issues]) rfl fun _ => by rw [hx]; exact ⟨rfl, rfl⟩
  | localSet _ hx | forgetEarly _ hx =>
    exact h.frame [] (append_nil _).symm (by simp) rfl fun _ => by rw [hx]; exact ⟨rfl, rfl⟩
  | remoteSet arm reason ha harm hx =>
    obtain ⟨es, hlog, hes⟩ := enterIceFlight_events w d
      (fun e => e.issues = false) rfl
      (fun _ _ => rfl) rfl
    refine h.frame _ hlog hes (by simp [enterIceFlight_eq]) fun _ => ?_
    rw [hx]
    simp [enterIceFlight_eq, OffererState.due, terminal]
  | returnToIdle x =>
    have hiss : ∀ arm, issuedIn arm x.returnToIdle.log = issuedIn arm x.log := by
      intro arm
      show issuedIn arm (x.log ++ [.rearmed]) = _
      rw [issuedIn_append]
      exact append_nil _
    refine ⟨fun arm => by rw [hiss]; exact h.turns arm, ?_, ?_⟩
    -- the next arm has issued nothing yet, so its turn is `CreateOffer`
    · intro _
      have hnone := h.future (x.arm + 1) (Nat.lt_succ_self _)
      show track inTurn .createOffer (issuedIn (x.arm + 1) x.returnToIdle.log) = _
      rw [hiss, hnone]
      rfl
    · intro arm hlt
      have hlt : x.arm + 1 < arm := hlt
      rw [hiss]
      exact h.future arm (by omega)
  | initialOffer x hx =>
    refine h.issue [] .createOffer ?_ (by simp) rfl ?_ ?_ rfl
    · simp [Driver.issue, note]
    · rw [hx]; rfl
    · rw [hx]; rfl
  | restart x t hx =>
    refine h.issue [.notify (.renegotiationStarted t)] .createOffer rfl (by simp [issues])
      rfl ?_ ?_ rfl
    · rw [hx]; rfl
    · rw [hx]; rfl
  | emitOffer _ sdp hx | drainOffer _ sdp hx =>
    refine h.issue [_] (.setLocalDescription sdp) rfl (by simp [issues]) rfl ?_ ?_ rfl
    · rw [hx]; rfl
    · rw [hx]; rfl
  | applyAnswer env sdp remote ha ht hx =>
    refine h.issue [.envelope d.seen env] (.setRemoteDescription d.seen remote) rfl (by simp [issues]) rfl ?_ ?_ rfl
    · rw [hx]; rfl
    · rw [hx]; rfl
  | applyEarly x n sdp remote hx =>
    refine h.issue [] (.setRemoteDescription n remote) ?_ (by simp) rfl ?_ ?_ rfl
    · simp [Driver.issue, note]
    · rw [hx]; rfl
    · rw [hx]; rfl

structure Owed (d : Driver) : Prop where
  at_rest : d.state = .iceInFlight → d.pendingRenegotiation = false
  owed : d.state.inDance = true → 0 < (dance d.log).countP Event.coalesces → d.pendingRenegotiation = true

theorem Owed.frame (h : Owed x) (es : List Event) (hlog : y.log = x.log ++ es)
    (hes : ∀ e ∈ es, e.begins = false ∧ e.coalesces = false) (hpend : y.pendingRenegotiation = x.pendingRenegotiation)
    (hrest : y.state = .iceInFlight → x.state = .iceInFlight) (hdan : y.state.inDance = true → x.state.inDance = true)
    : Owed y := by
  refine ⟨?_, ?_⟩
  · rw [hpend]
    exact fun hy => h.at_rest (hrest hy)
  intro hy hcnt
  rw [hpend]
  refine h.owed (hdan hy) ?_
  have hnone : es.countP Event.coalesces = 0 := countP_eq_zero.mpr fun e he => by simp [(hes e he).2]
  rwa [hlog, dance, sinceLast_append _ fun e he => (hes e he).1, countP_append, hnone] at hcnt

theorem Owed.begin {e : Event} (he : e.begins = true) (es : List Event) (hlog : y.log = es ++ [e])
    (hy : y.state ≠ .iceInFlight) : Owed y := by
  refine ⟨fun hfl => absurd hfl hy, ?_⟩
  intro _ hcnt
  rw [hlog, dance, sinceLast_reset _ he] at hcnt
  exact absurd hcnt (by simp)

theorem Owed.move (hm : Move w d a x y) (h : Owed x) : Owed y := by
  cases hm with
  | aside x e he =>
    have hcalm : e.begins = false ∧ e.coalesces = false := by
      cases e <;> simp [Event.aside, begins, Event.coalesces] at he ⊢
    exact h.frame [e] rfl (by simp [hcalm]) rfl id id
  | fail | refail | close =>
    exact h.frame [_] rfl (by simp [begins, Event.coalesces]) rfl (by simp [notify, note])
      (by simp [notify, note, inDance])
  | latch | consume | land | bufferOffer | connect | dropOffer =>
    exact h.frame [] (append_nil _).symm (by simp) rfl id id
  | refuseOffer | record | bufferAnswer | queueIce =>
    exact h.frame [_] rfl (by simp [begins, Event.coalesces]) rfl id id
  | addIce =>
    exact h.frame [_, _] (append_assoc _ [_] [_]) (by simp [begins, Event.coalesces])
      rfl id id
  | start => exact h.frame [_] rfl (by simp [begins, Event.coalesces]) rfl (by simp [note]) (by simp [note, inDance])
  | localSet _ hx | forgetEarly _ hx =>
    exact h.frame [] (append_nil _).symm (by simp) rfl (by simp) fun _ => by rw [hx]; rfl
  | applyEarly x n sdp remote hx =>
    exact h.frame [_] rfl (by simp [begins, Event.coalesces]) rfl (by simp [issue, note]) fun _ => by rw [hx]; rfl
  | emitOffer _ _ hx | drainOffer _ _ hx =>
    exact h.frame [_, _] (append_assoc _ [_] [_]) (by simp [begins, Event.coalesces])
      rfl (by simp [emitOfferAndSetLocal, issue, note]) fun _ => by rw [hx]; rfl
  | applyAnswer env sdp remote ha ht hx =>
    exact h.frame [_, _] (append_assoc _ [_] [_]) (by simp [begins, Event.coalesces])
      rfl (by simp [issue, note]) fun _ => by rw [hx]; rfl
  | returnToIdle => exact .begin rfl _ rfl (by simp [returnToIdle, note])
  | initialOffer => exact .begin rfl _ rfl (by simp [issue, note])
  | restart => exact .begin rfl _ rfl (by simp [restartDance, issue, notify, note])
  | trigger x t =>
    -- what does not coalesce in a dance is a remote trigger in `kAwaitingAnswer`
    refine ⟨h.at_rest, ?_⟩
    intro hy hcnt
    have hdan : x.state.inDance = true := hy
    have hnot : (triggered t x.state).coalesces = false := by
      cases hs : x.state <;> simp_all [coalesces, Event.coalesces, inDance]
    refine h.owed hdan ?_
    have hcnt : 0 < (dance (x.log ++ [.triggered t x.state])).countP Event.coalesces := hcnt
    rwa [dance_concat _ rfl, countP_append, countP_singleton, if_neg (by simp [hnot])] at hcnt
  | coalesce x t ht hx =>
    refine ⟨?_, fun _ _ => rfl⟩
    intro hfl
    have hfl : x.state = .iceInFlight := hfl
    simp [coalesces, hfl] at hx
  | remoteSet => exact ⟨fun _ => rfl, by simp [enterIceFlight_eq, inDance]⟩

theorem return_restarts (hs : d.state = .settingRemote) (hop : (d.arm, .setRemoteDescription) ∈ d.ops)
    (hp : d.pendingRenegotiation = true) (reason : String) :
    ∃ es, (d.step w (.setRemoteDescriptionComplete d.arm true reason)).log = d.log ++ es ∧
      es.countP createsOffer = 1 := by
  obtain ⟨es, hlog, hes⟩ := enterIceFlight_events w d
    (fun e => e.createsOffer = false)
    rfl (fun _ _ => rfl) rfl
  have hrest : d.step w (.setRemoteDescriptionComplete d.arm true reason) =
      restartDance { enterIceFlight w { d with
        ops := d.ops.erase (d.arm, .setRemoteDescription) } with
        pendingRenegotiation := false } .coalescedPending := by
    rw [step, land, if_pos hop, if_pos rfl, hopHandleSetRemoteDescriptionComplete_eq w { d with
      ops := d.ops.erase (d.arm, .setRemoteDescription) } reason hs, if_pos hp]
  refine ⟨(.remoteSet :: es) ++ [.notify (.renegotiationStarted .coalescedPending), .issued d.arm .createOffer], ?_, ?_⟩
  · rw [hrest]
    simp only [restartDance, issue, notify, note, hlog]
    simp [enterIceFlight_eq]
  have hnone : (Event.remoteSet :: es).countP createsOffer = 0 := countP_eq_zero.mpr fun e he => by simp [hes e he]
  rw [countP_append, hnone]
  rfl

end Driver

/-- One call at a time and in turn on each PeerConnection; triggers during a dance are coalesced
into exactly one further `CreateOffer`; at rest nothing is owed. -/
theorem renegotiations_coalesce (w : Webrtc) (acts : List Act) :
    (runDriver w acts).Coalescing w := by
  have hnew : Driver.Paced .new ∧ Driver.InTurn .new ∧ Driver.Owed .new := by
    refine ⟨Driver.paced_new, ⟨?_, ?_, ?_⟩, ⟨?_, ?_⟩⟩
    all_goals simp [Driver.new, issuedIn, inDance, OffererState.due]
  obtain ⟨hpaced, hturn, howed⟩ := Driver.runDriver_invariant w (fun _ _ => True)
    (fun d => d.Paced ∧ d.InTurn ∧ d.Owed) hnew
    (fun d a x y _ hm h => ⟨h.1.move hm, h.2.1.move hm, h.2.2.move hm⟩) (Runs.meets_true _ _ _)
  refine ⟨?_, hturn.turns, ?_, howed.at_rest⟩
  · intro arm
    rw [← countP_eq_length_filter]
    exact hpaced.spaced.each arm
  · intro reason hs hop hcount
    exact Driver.return_restarts hs hop (howed.owed (by rw [hs]; rfl) hcount) reason

def askedWhileAwaiting : List Act :=
  firstDance [2] ++ [.requestRenegotiation, .createOfferSuccess 0 "offer" [3] true,
    .setLocalDescriptionComplete 0 true "", .onEnvelope ⟨.requestRenegotiate, .client, .monostate⟩,
    answerWith [4]]

theorem remote_trigger_not_coalesced :
    .triggered .remote .awaitingAnswer ∈ dance (runDriver .permissive askedWhileAwaiting).log ∧
      (runDriver .permissive askedWhileAwaiting).state = .settingRemote ∧
      (runDriver .permissive (askedWhileAwaiting ++ [.setRemoteDescriptionComplete 0 true ""])).state = .iceInFlight ∧
      (runDriver .permissive
          (askedWhileAwaiting ++ [.setRemoteDescriptionComplete 0 true ""])).log.countP
        createsOffer = (runDriver .permissive askedWhileAwaiting).log.countP createsOffer := by
  decide +kernel

end Chromeless.Capture
