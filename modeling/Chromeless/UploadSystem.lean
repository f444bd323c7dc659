import Chromeless.ClientUploadLoop
import Chromeless.UploadReceiverReports

/-! An upload from `uploadFile` to the file, over a data channel that neither loses nor reorders
anything. -/
namespace Chromeless.UploadSystem
open Number
open List (append_assoc prefix_refl)
open Json UploadClient
open Uploads (Envelope Receiver requestOf InOrder run_append requestsOf Undisturbed)

/-- Of all that the receiver has done, the viewer has got the first `answered`. `arrived` is kept
for stating properties. -/
structure System where
  client : Channel
  wire : List Envelope := []
  receiver : Receiver
  answered : ℕ
  arrived : ℕ := 0

inductive Action
  | client (e : UploadClient.Event)
  /-- the receiver gets the next envelope -/
  | deliver
  /-- the viewer gets the next answer -/
  | answer
  | receiver (e : Uploads.Event)

def answerOf : Uploads.Output → Option ServerEnvelope
  | .progress id received total => some (.progress id received total)
  | .complete id path via => some (.complete id path via)
  | .error id code _ => some (.error id code)
  | _ => none

def sha256Hex (sha256 : Bytes → Vector UInt8 32) (contents : Bytes) : Bytes :=
  Uploads.hexEncode (sha256 contents).toList

section
variable (R : Rounding) (opts : Options) (sha256 : Bytes → Vector UInt8 32)

def step (s : System) : Action → System
  | .client e =>
    let client := UploadClient.step R opts (sha256Hex sha256) s.client e
    { s with
      client := client
      wire := s.wire ++ envelopesOf (client.log.drop s.client.log.length) }
  | .deliver =>
    match s.wire with
    | [] => s
    | env :: rest =>
      { s with
        wire := rest, receiver := Uploads.step sha256 s.receiver (.message env.object)
        arrived := s.arrived+1 }
  | .answer =>
    match s.receiver.log[s.answered]? with
    | none => s
    | some o =>
      { s with
        client := (answerOf o).elim s.client s.client.onMessage, answered := s.answered+1 }
  | .receiver e => { s with receiver := Uploads.step sha256 s.receiver e }

abbrev run (s : System) (as : List Action) : System := Runs.run (step R opts sha256) s as

end

structure Job where
  uploadId : Bytes
  file : File
  targetSelector : Option Bytes
  onProgress : Bool
  onServerProgress : Bool

namespace Job

def name (j : Job) : Bytes := if j.file.name = [] then ascii "upload.bin" else j.file.name

def contents (j : Job) : Bytes := j.file.contents

def safeId (j : Job) : Bytes := Uploads.safeId j.uploadId

def path (j : Job) : Bytes := Uploads.uploadPath j.safeId (Uploads.safeComponent j.name)

def drive (j : Job) : Drive :=
  ⟨j.uploadId, j.name,
    if j.file.type = [] then ascii "application/octet-stream" else j.file.type,
    j.contents, j.targetSelector, j.onProgress, .reading⟩

def Fits (j : Job) (s : Receiver) : Prop :=
  s.sessionBytes + j.contents.length ≤ Uploads.kMaxSessionUploadBytes

instance (j : Job) (s : Receiver) : Decidable (j.Fits s) :=
  inferInstanceAs (Decidable (_ ≤ _))

def start (j : Job) (R : Rounding) (opts : Options) (sha256 : Bytes → Vector UInt8 32)
    (bufferedAmount : ℕ) (s : Receiver) : System where
  client := UploadClient.step R opts (sha256Hex sha256) ⟨.open, bufferedAmount, ∅, [], [], []⟩
    (.uploadFile j.uploadId j.file j.targetSelector j.onProgress j.onServerProgress)
  receiver := s
  answered := s.log.length

end Job

def isStart : Envelope → Bool
  | .start .. => true
  | _ => false

/-- The channel and the file stay as they are, nothing throws, and the receiver takes the tasks on
the file in the order in which they were posted and has quota left. -/
def Reliable (j : Job) (sha256 : Bytes → Vector UInt8 32) (s : System) : Action → Prop
  | .client e =>
    match e with
    | .resume _ failed throws => failed = none ∧ throws = false
    | .channel readyState _ => readyState = .open
    | .bufferedAmountLow => True
    | .uploadFile .. | .cancel .. | .message _ => False
  | .deliver => ∀ env ∈ s.wire.head?, isStart env = true → j.Fits s.receiver
  | .answer => True
  | .receiver e =>
    Undisturbed j.safeId j.path s.receiver e ∧ InOrder j.path s.receiver e ∧
      requestOf j.safeId e = none ∧
      (s.arrived = 0 → j.Fits (Uploads.step sha256 s.receiver e))

instance (j : Job) (sha256 : Bytes → Vector UInt8 32) (s : System) : ∀ a, Decidable (Reliable j sha256 s a)
  | .client (.resume _ _ _) => inferInstanceAs (Decidable (_ ∧ _))
  | .client (.channel _ _) => inferInstanceAs (Decidable (_ = _))
  | .client .bufferedAmountLow => inferInstanceAs (Decidable True)
  | .client (.uploadFile ..) => inferInstanceAs (Decidable False)
  | .client (.cancel ..) => inferInstanceAs (Decidable False)
  | .client (.message _) => inferInstanceAs (Decidable False)
  | .deliver => inferInstanceAs (Decidable (∀ _ ∈ _, _))
  | .answer => inferInstanceAs (Decidable True)
  | .receiver _ => inferInstanceAs (Decidable (_ ∧ _ ∧ _ ∧ _))

def Fair (j : Job) (s : Receiver) (e : Uploads.Event) : Prop :=
  Undisturbed j.safeId j.path s e ∧ InOrder j.path s e ∧
    ∀ name sha size, requestOf j.safeId e = some (.start j.safeId name sha size) → j.Fits s

def requestIn (j : Job) (env : Envelope) : Option Uploads.Request :=
  requestOf j.safeId (.message env.object)

section
variable {R : Rounding} {opts : Options} {sha256 : Bytes → Vector UInt8 32}

theorem envelopesOf_append (outs outs' : List Output) :
    envelopesOf (outs ++ outs') = envelopesOf outs ++ envelopesOf outs' := List.filterMap_append ..

theorem isStart_of_requestIn {j : Job} {env : Envelope} {id name sha : Bytes} {size : ℤ}
    (h : requestIn j env = some (.start id name sha size)) : isStart env = true := by
  obtain ⟨d, hd, hread, -⟩ := Uploads.requestOf_eq_some h
  obtain rfl : env.object = d := by injection hd
  cases env with
  | start => rfl
  | chunk id seq =>
    obtain hlt | hge := Nat.lt_or_ge seq (2^31)
    · rw [Uploads.readRequest_chunk id hlt] at hread
      cases hread
    · rw [Uploads.readRequest_chunk_of_le id hge] at hread
      cases hread
  | finish => cases hread
  | cancel => cases hread

open Drive

variable (R opts sha256) in
structure Along (j : Job) (s₀ : Receiver) (s : System) (point : Point)
    (es : List Uploads.Event) (delivered : List Envelope) : Prop where
  drives : s.client.drives = [{ j.drive with point := point }]
  readyState : s.client.readyState = .open
  fine : ∀ code, point ≠ .failing code
  about : ∀ env ∈ envelopesOf s.client.log, env.uploadId = j.uploadId
  remains : ∀ total, j.drive.Remains R opts (sha256Hex sha256) total ↔
    ∃ future, Remains R opts (sha256Hex sha256) { j.drive with point := point } future ∧
      total = envelopesOf s.client.log ++ future
  wire : envelopesOf s.client.log = delivered ++ s.wire
  arrived : s.arrived = delivered.length
  receiver : s.receiver = Uploads.run sha256 s₀ es
  meets : Runs.Meets (Uploads.step sha256) (Fair j) s₀ es
  requests : requestsOf j.safeId es = delivered.filterMap (requestIn j)
  fits : s.arrived = 0 → j.Fits s.receiver

variable {j : Job} {s₀ : Receiver} {s : System} {point : Point} {es : List Uploads.Event} {delivered : List Envelope}

variable (R sha256 s₀) in
theorem start_client (hsize : opts.maxTotalSize.lt (ofNat j.contents.length) = false) (bufferedAmount : ℕ) :
    (j.start R opts sha256 bufferedAmount s₀).client =
      ⟨.open, bufferedAmount, (∅ : AList _).insert j.uploadId ⟨j.onServerProgress, false⟩, [], [j.drive], []⟩ := by
  have hno : ¬ opts.maxTotalSize.lt (ofNat j.file.contents.length) = true := by rwa [Bool.not_eq_true]
  simp only [Job.start, UploadClient.step, Channel.uploadFile]
  rw [if_neg hno]
  rfl

theorem start_along (hsize : opts.maxTotalSize.lt (ofNat j.contents.length) = false)
    (hfits : j.Fits s₀) (bufferedAmount : ℕ) :
    Along R opts sha256 j s₀ (j.start R opts sha256 bufferedAmount s₀) .reading [] [] := by
  have hcli := start_client R sha256 s₀ hsize bufferedAmount
  refine ⟨?_, ?_, nofun, ?_, ?_, ?_, rfl, rfl, trivial, rfl, fun _ => hfits⟩
  · rw [hcli]
    rfl
  · rw [hcli]
  · rw [hcli]
    exact nofun
  · rw [hcli]
    exact fun _ => exists_eq_right'.symm
  · rw [hcli]
    rfl

section
variable (h : Along R opts sha256 j s₀ s point es delivered)
include h

theorem Along.congr {s' : System} (hdrv : s'.client.drives = s.client.drives) (hopen : s'.client.readyState = .open)
    (hsent : envelopesOf s'.client.log = envelopesOf s.client.log) (hwire : s'.wire = s.wire)
    (hrcv : s'.receiver = s.receiver) (harr : s'.arrived = s.arrived) :
    Along R opts sha256 j s₀ s' point es delivered := by
  refine ⟨hdrv.trans h.drives, hopen, h.fine, hsent ▸ h.about, hsent ▸ h.remains, ?_,
    harr.trans h.arrived, hrcv.trans h.receiver, h.meets, h.requests, ?_⟩
  · rw [hsent, hwire]
    exact h.wire
  · rw [harr, hrcv]
    exact h.fits

theorem Along.resume (hgoes : point = .sentEnd ∨ point = .returned ∨ s.client.goesOn j.uploadId = true) :
    ∃ point', Along R opts sha256 j s₀ (step R opts sha256 s (.client (.resume 0 none false))) point' es
        delivered ∧
      (step R opts sha256 s (.client (.resume 0 none false))).client.pending = s.client.pending ∧
      envelopesOf s.client.log <+:
        envelopesOf (step R opts sha256 s (.client (.resume 0 none false))).client.log ∧
      (s.client.bufferedLowWaiters = [] → point ≠ .returned → ∀ future,
        Remains R opts (sha256Hex sha256) { j.drive with point := point } future →
        ∃ later, Remains R opts (sha256Hex sha256) { j.drive with point := point' } later ∧
          rank { j.drive with point := point' } later <
            rank { j.drive with point := point } future) := by
  obtain ⟨point', outs, hwent⟩ := resume_went R opts (sha256Hex sha256) h.drives h.readyState h.fine hgoes
  have hstep : UploadClient.step R opts (sha256Hex sha256) s.client (.resume 0 none false) =
      s.client.resume R opts (sha256Hex sha256) 0 { j.drive with point := point } none false := by
    rw [UploadClient.step, h.drives]
    rfl
  have hcli : (step R opts sha256 s (.client (.resume 0 none false))).client =
      s.client.resume R opts (sha256Hex sha256) 0 { j.drive with point := point } none false := hstep
  have hwire : (step R opts sha256 s (.client (.resume 0 none false))).wire = s.wire ++ envelopesOf outs := by
    simp only [step]
    rw [hstep, hwent.log, List.drop_left]
  refine ⟨point', ⟨?_, ?_, hwent.fine, ?_, ?_, ?_, h.arrived, h.receiver, h.meets, h.requests, h.fits⟩, ?_, ?_, ?_⟩
  · rw [hcli]
    exact hwent.drives
  · rw [hcli]
    exact hwent.readyState
  · rw [hcli, hwent.log, envelopesOf_append]
    intro env henv
    exact (List.mem_append.mp henv).elim (h.about env) (hwent.about env)
  · intro total
    rw [h.remains, hcli, hwent.log, envelopesOf_append]
    constructor
    · rintro ⟨future, hfut, rfl⟩
      obtain ⟨later, hlat, rfl⟩ := (hwent.remains future).mp hfut
      exact ⟨later, hlat, (append_assoc ..).symm⟩
    · rintro ⟨later, hlat, rfl⟩
      exact ⟨_, (hwent.remains _).mpr ⟨later, hlat, rfl⟩, append_assoc ..⟩
  · rw [hcli, hwent.log, envelopesOf_append, hwire, h.wire, append_assoc]
  · rw [hcli]
    exact hwent.pending
  · rw [hcli, hwent.log, envelopesOf_append]
    exact List.prefix_append ..
  · intro hnone hret future hfut
    obtain ⟨later, hlat, rfl⟩ := (hwent.remains future).mp hfut
    exact ⟨later, hlat, hwent.rank hnone hret later⟩

theorem Along.resume_none {i : ℕ} (hi : i ≠ 0) (failed : Option Bytes) (throws : Bool) :
    step R opts sha256 s (.client (.resume i failed throws)) = s := by
  have hnone : s.client.drives[i]? = none := by
    rw [h.drives]
    exact List.getElem?_eq_none (Nat.one_le_iff_ne_zero.mpr hi)
  have hstep : UploadClient.step R opts (sha256Hex sha256) s.client (.resume i failed throws) = s.client := by
    rw [UploadClient.step, hnone]
    rfl
  simp only [step]
  rw [hstep, List.drop_length]
  simp [envelopesOf]

theorem Along.deliver {env : Envelope} {rest : List Envelope} (hwire : s.wire = env :: rest)
    (hok : Reliable j sha256 s .deliver) :
    Along R opts sha256 j s₀ (step R opts sha256 s .deliver) point (es ++ [.message env.object])
      (delivered ++ [env]) := by
  have hstep : step R opts sha256 s .deliver =
      { s with
        wire := rest, receiver := Uploads.step sha256 s.receiver (.message env.object)
        arrived := s.arrived+1 } := by
    simp only [step]
    rw [hwire]
  have hid : env.uploadId = j.uploadId := by
    refine h.about env ?_
    rw [h.wire, hwire]
    exact List.mem_append_right _ (List.mem_cons_self ..)
  have hfair : Fair j (Uploads.run sha256 s₀ es) (.message env.object) := by
    rw [← h.receiver]
    refine ⟨⟨?_, trivial⟩, trivial, ?_⟩
    · rintro ⟨id, up⟩ hup hne
      obtain ⟨d, name, sha, declared, hd, hread, -⟩ := Uploads.startedBy_eq hup
      obtain rfl : env.object = d := by injection hd
      exact absurd ((Uploads.readRequest_object hread).trans (congrArg Uploads.safeId hid)) hne
    · intro name sha size hst
      exact hok env (by rw [hwire]; rfl) (isStart_of_requestIn hst)
  rw [hstep]
  refine ⟨h.drives, h.readyState, h.fine, h.about, h.remains, ?_, ?_, ?_, ?_, ?_, nofun⟩
  · rw [h.wire, hwire, append_assoc]
    rfl
  · rw [List.length_append, h.arrived]
    rfl
  · rw [run_append, ← h.receiver]
    rfl
  · exact (Runs.meets_append ..).mpr ⟨h.meets, hfair, trivial⟩
  · rw [Uploads.requestsOf_append, h.requests, List.filterMap_append]
    rfl

theorem Along.receiverStep {e : Uploads.Event} (hok : Reliable j sha256 s (.receiver e)) :
    Along R opts sha256 j s₀ (step R opts sha256 s (.receiver e)) point (es ++ [e]) delivered := by
  obtain ⟨hcalm, hord, hnone, hfits⟩ := hok
  have hfair : Fair j (Uploads.run sha256 s₀ es) e := by
    rw [← h.receiver]
    refine ⟨hcalm, hord, fun name sha size hst => ?_⟩
    rw [hnone] at hst
    cases hst
  refine ⟨h.drives, h.readyState, h.fine, h.about, h.remains, h.wire, h.arrived, ?_, ?_, ?_, hfits⟩
  · rw [run_append, ← h.receiver]
    rfl
  · exact (Runs.meets_append ..).mpr ⟨h.meets, hfair, trivial⟩
  · have hno : requestsOf j.safeId [e] = [] := List.filterMap_eq_nil_iff.mpr
      (List.forall_mem_singleton.mpr hnone)
    rw [Uploads.requestsOf_append, hno, List.append_nil]
    exact h.requests

end

theorem onMessage_sends (c : Channel) (env : ServerEnvelope) :
    (c.onMessage env).drives = c.drives ∧ (c.onMessage env).readyState = c.readyState ∧
      envelopesOf (c.onMessage env).log = envelopesOf c.log := by
  unfold Channel.onMessage
  split
  · exact ⟨rfl, rfl, rfl⟩
  cases env with
  | progress =>
    dsimp only
    split
    · exact ⟨rfl, rfl, by simp [Channel.say, envelopesOf]⟩
    · exact ⟨rfl, rfl, rfl⟩
  | complete | error => exact ⟨rfl, rfl, by simp [Channel.say, envelopesOf]⟩

section
variable (h : Along R opts sha256 j s₀ s point es delivered)
include h

theorem Along.answer :
    Along R opts sha256 j s₀ (step R opts sha256 s .answer) point es delivered := by
  rw [step]
  split
  · exact h
  rename_i o _
  cases hans : answerOf o with
  | none => exact h.congr rfl h.readyState rfl rfl rfl rfl
  | some env =>
    obtain ⟨hdrv, hopen, hsent⟩ := onMessage_sends s.client env
    exact h.congr hdrv (hopen.trans h.readyState) hsent rfl rfl rfl

theorem Along.keeps {a : Action} (hok : Reliable j sha256 s a)
    (hgoes : point = .sentEnd ∨ point = .returned ∨ s.client.goesOn j.uploadId = true) :
    ∃ point' es' delivered', Along R opts sha256 j s₀ (step R opts sha256 s a) point' es' delivered' ∧
      envelopesOf s.client.log <+: envelopesOf (step R opts sha256 s a).client.log ∧
      (a ≠ .answer → (step R opts sha256 s a).client.pending = s.client.pending) := by
  cases a with
  | client e =>
    cases e with
    | resume i =>
      obtain ⟨rfl, rfl⟩ := hok
      by_cases hi : i = 0
      · subst hi
        obtain ⟨point', halg, hpend, hsent, -⟩ := h.resume hgoes
        exact ⟨point', es, delivered, halg, hsent, fun _ => hpend⟩
      · rw [h.resume_none hi]
        exact ⟨point, es, delivered, h, prefix_refl _, fun _ => rfl⟩
    | bufferedAmountLow =>
      refine ⟨point, es, delivered, h.congr rfl h.readyState rfl ?_ rfl rfl, prefix_refl _, fun _ => rfl⟩
      simp [step, UploadClient.step, envelopesOf]
    | channel =>
      refine ⟨point, es, delivered, h.congr rfl hok rfl ?_ rfl rfl, prefix_refl _, fun _ => rfl⟩
      simp [step, UploadClient.step, envelopesOf]
    | uploadFile | cancel | message => exact absurd hok not_false
  | deliver =>
    cases hwire : s.wire with
    | nil =>
      have hstep : step R opts sha256 s .deliver = s := by
        simp only [step]
        rw [hwire]
      rw [hstep]
      exact ⟨point, es, delivered, h, prefix_refl _, fun _ => rfl⟩
    | cons =>
      have hcli : (step R opts sha256 s .deliver).client = s.client := by
        simp only [step]
        rw [hwire]
      refine ⟨point, _, _, h.deliver hwire hok, ?_, fun _ => by rw [hcli]⟩
      rw [hcli]
  | answer =>
    refine ⟨point, es, delivered, h.answer, ?_, fun hne => absurd rfl hne⟩
    rw [step]
    split
    · exact prefix_refl _
    rename_i o _
    cases hans : answerOf o with
    | none => exact prefix_refl _
    | some env =>
      dsimp only [Option.elim]
      rw [(onMessage_sends s.client env).2.2]
  | receiver => exact ⟨point, _, _, h.receiverStep hok, prefix_refl _, fun _ => rfl⟩

end

end

end Chromeless.UploadSystem
