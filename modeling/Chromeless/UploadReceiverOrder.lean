import Chromeless.UploadEnvelopes
import Chromeless.UploadReceiverFrame

/-! One upload from its start to its end, while the pool takes the tasks on its file in the order
in which they were posted. -/
namespace Chromeless.Uploads
open List hiding Vector
open Json Receiver Base64 Files AList
open Vector (replicate)

/-- What is sent after the start: the chunks in the order of their numbers, from `i` on, and the
end. -/
inductive Sends (u : Bytes) : ℕ → List Bytes → List Request → Prop
  | finish (i : ℕ) : Sends u i [] [.finish u]
  | chunk {i : ℕ} {cs : List Bytes} {rs : List Request} (b64 c : Bytes)
      (hdecode : decode standard b64 = some c) (hrest : Sends u (i+1) cs rs) :
      Sends u i (c :: cs) (.chunk u b64 i :: rs)

/-- An upload that was accepted, and the chunks that are sent for it. -/
structure Sent where
  uploadId : Bytes
  path : Bytes
  declared : ℤ
  sha : Bytes
  chunks : List Bytes
  chunks_ne_nil : chunks ≠ []
  fits : chunks.flatten.length ≤ declared

namespace Sent

def content (a : Sent) : Bytes := a.chunks.flatten

def task (a : Sent) (owner : ℕ) (work : Work) : Task := ⟨some owner, a.uploadId, a.path, work⟩

def Good (sha256 : Bytes → Vector UInt8 32) (a : Sent) : Prop :=
  a.content.length = a.declared ∧ (a.sha = [] ∨ hexEncode (sha256 a.content).toList = a.sha)

def firstTasks (a : Sent) (owner : ℕ) : List Bytes → List Task
  | [] => []
  | c :: cs => a.task owner (.append c true) :: cs.map fun c => a.task owner (.append c false)

/-- The entry when the chunks `hs` have been taken. -/
structure Taken (a : Sent) (hs : List Bytes) (up : Upload) : Prop where
  path : up.path = a.path
  size : up.declaredSize = a.declared
  sha : up.sha256 = a.sha
  received : up.received = hs.flatten.length
  seq : up.nextSeq = hs.length

/-- The file and the tasks while the chunks `hs` are written. -/
inductive Writing (a : Sent) (owner : ℕ) (fs : Store Bytes UInt8) (hs : List Bytes) :
    List Task → Prop
  | untouched : Writing a owner fs hs (a.firstTasks owner hs)
  | idle (written : Bytes) (queue : List Bytes) (hne : hs ≠ [])
      (hread : fs.read a.path = some written) (hall : written ++ queue.flatten = hs.flatten) :
      Writing a owner fs hs (queue.map fun c => a.task owner (.append c false))
  | busy (written rest : Bytes) (queue : List Bytes) (file : Handle) (atEnd : Bool)
      (hne : hs ≠ []) (hon : fs.On a.path file) (hread : fs.read a.path = some written)
      (hoffset : atEnd = false → file.offset = written.length)
      (hall : written ++ rest ++ queue.flatten = hs.flatten) :
      Writing a owner fs hs
        (a.task owner (.writing file rest atEnd) ::
          queue.map fun c => a.task owner (.append c false))

/-- How far a task has got with reading the content. -/
inductive Hashing (a : Sent) (fs : Store Bytes UInt8) : Work → Prop
  | posted : Hashing a fs .hash
  | reading (file : Handle) (hon : fs.On a.path file) :
      Hashing a fs (.reading file (a.content.take file.offset))

def cost (a : Sent) : Work → ℕ
  | .append bytes _ => bytes.length+3
  | .writing _ rest _ => rest.length+2
  | .hash => a.content.length+4
  | .reading _ contents => a.content.length - contents.length + 3
  | .delete | .wipe => 1

/-- `todo` is what is still to arrive, `before` are the times that the id was reported complete
before, and after `left` more runs of tasks and replies the upload is at its end. -/
inductive Stage (sha256 : Bytes → Vector UInt8 32) (a : Sent) (before : List Output) (s : Receiver) :
    List Request → ℕ → Prop
  | writing (hs rem : List Bytes) (up : Upload) (n : ℕ) (todo : List Request)
      (hget : s.uploads.lookup a.uploadId = some up) (hup : a.Taken hs up)
      (hwriting : a.Writing up.owner s.fs hs (tasksOn a.path s))
      (hreplies : repliesTo a.uploadId s = List.replicate n ⟨a.uploadId, a.path, .written true⟩)
      (hflight : up.writesInFlight = (tasksOn a.path s).length + n) (hchunks : hs ++ rem = a.chunks)
      (htodo : Sends a.uploadId hs.length rem todo ∧ up.endPending = false ∨
        rem = [] ∧ todo = [] ∧ up.endPending = true ∧ 0 < up.writesInFlight)
      (hlog : completionsOf a.uploadId s = before) :
      Stage sha256 a before s todo (((tasksOn a.path s).map fun t => a.cost t.work).sum + n + (a.content.length+4))
  | hashing (up : Upload) (work : Work) (hget : s.uploads.lookup a.uploadId = some up)
      (hup : a.Taken a.chunks up) (hread : s.fs.read a.path = some a.content)
      (htasks : tasksOn a.path s = [a.task up.owner work]) (hwork : a.Hashing s.fs work)
      (hreplies : repliesTo a.uploadId s = []) (hlog : completionsOf a.uploadId s = before) :
      Stage sha256 a before s [] (a.cost work)
  | hashed (up : Upload) (hget : s.uploads.lookup a.uploadId = some up)
      (hup : a.Taken a.chunks up) (hread : s.fs.read a.path = some a.content)
      (htasks : tasksOn a.path s = [])
      (hreplies : repliesTo a.uploadId s =
        [⟨a.uploadId, a.path, .hashed (hexEncode (sha256 a.content).toList) a.content.length⟩])
      (hlog : completionsOf a.uploadId s = before) : Stage sha256 a before s [] 2
  | completed (via : Bytes) (hgood : a.Good sha256) (hget : s.uploads.lookup a.uploadId = none)
      (hread : s.fs.read a.path = some a.content) (htasks : tasksOn a.path s = [])
      (hreplies : repliesTo a.uploadId s = [])
      (hlog : completionsOf a.uploadId s = before ++ [.complete a.uploadId a.path via]) :
      Stage sha256 a before s [] 0
  | rejected (hbad : ¬ a.Good sha256) (hget : s.uploads.lookup a.uploadId = none)
      (htasks : ∀ t ∈ tasksOn a.path s, t.work = .delete) (hreplies : repliesTo a.uploadId s = [])
      (hlog : completionsOf a.uploadId s = before) :
      Stage sha256 a before s [] (tasksOn a.path s).length

section
variable {sha256 : Bytes → Vector UInt8 32} {a : Sent} {before : List Output} {s s' : Receiver} {todo : List Request}
  {e : Event} {owner : ℕ} {fs fs' : Store Bytes UInt8} {hs : List Bytes} {tasks : List Task} {left : ℕ}

/-! ### What is about other uploads -/

theorem Writing.congr (h : a.Writing owner fs hs tasks) (hents : fs'.entries a.path = fs.entries a.path)
    (hread : fs'.read a.path = fs.read a.path) : a.Writing owner fs' hs tasks := by
  cases h with
  | untouched => exact .untouched
  | idle written queue hne hfile hall => exact .idle written queue hne (hread.trans hfile) hall
  | busy written rest queue file atEnd hne hon hfile hoff hall =>
    exact .busy written rest queue file atEnd hne (hents.trans hon) (hread.trans hfile) hoff hall

theorem Stage.frame (h : Stage sha256 a before s todo left) (hsame : Same a.uploadId a.path s s') :
    Stage sha256 a before s' todo left := by
  obtain ⟨hent, htsk', hreps', hents, hfile, hlog'⟩ := hsame
  cases h with
  | writing hs rem up n todo hget hup hwr hreps hfl hchs htodo hlog =>
    rw [← htsk'] at hwr hfl ⊢
    exact .writing hs rem up n todo (hent.trans hget) hup (hwr.congr hents hfile)
      (hreps'.trans hreps) hfl hchs htodo (hlog'.trans hlog)
  | hashing up work hget hup hread htsk hwork hreps hlog =>
    refine .hashing up work (hent.trans hget) hup (hfile.trans hread) (htsk'.trans htsk) ?_
      (hreps'.trans hreps) (hlog'.trans hlog)
    cases hwork with
    | posted => exact .posted
    | reading file hon => exact .reading file (hents.trans hon)
  | hashed up hget hup hread htsk hreps hlog =>
    exact .hashed up (hent.trans hget) hup (hfile.trans hread) (htsk'.trans htsk)
      (hreps'.trans hreps) (hlog'.trans hlog)
  | completed via hgood hget hread htsk hreps hlog =>
    exact .completed via hgood (hent.trans hget) (hfile.trans hread) (htsk'.trans htsk)
      (hreps'.trans hreps) (hlog'.trans hlog)
  | rejected hbad hget htsk hreps hlog =>
    rw [← htsk'] at htsk ⊢
    exact .rejected hbad (hent.trans hget) htsk (hreps'.trans hreps) (hlog'.trans hlog)

/-! ### Its tasks -/

variable {t : Task} {rest : List Task}

open Option

variable (sha256) in
theorem Writing.advance (h : a.Writing owner fs hs (t :: rest)) (n : ℕ) :
    (∃ fs' work, t.advance sha256 fs n true = (fs', .goesOn work) ∧
        a.Writing owner fs' hs ({ t with work := work } :: rest) ∧ a.cost work < a.cost t.work) ∨
      t.advance sha256 fs n true = (fs, .ends (some (.written true))) ∧
        a.Writing owner fs hs rest ∧ t.uploadId = a.uploadId ∧ 2 ≤ a.cost t.work := by
  generalize htsk : t :: rest = tasks at h
  cases h with
  | untouched =>
    cases hs with
    | nil => cases htsk
    | cons c cs =>
      obtain ⟨rfl, rfl⟩ := List.cons.inj htsk
      refine .inl ⟨_, _, rfl, ?_, Nat.lt_succ_self _⟩
      exact .busy [] c cs _ false (cons_ne_nil c cs) (fs.create_on a.path) (fs.read_create a.path)
        (fun _ => fs.create_offset a.path) rfl
  | idle written queue hne hread hall =>
    cases queue with
    | nil => cases htsk
    | cons c queue =>
      obtain ⟨rfl, rfl⟩ := List.cons.inj htsk
      obtain ⟨i, hent, -⟩ := map_eq_some_iff.mp hread
      refine .inl ⟨fs, .writing ⟨i, 0⟩ c true, ?_, ?_, Nat.lt_succ_self _⟩
      · simp [Task.advance, Sent.task, hent]
      · refine .busy written c queue ⟨i, 0⟩ true hne hent hread nofun ?_
        rwa [append_assoc]
  | busy written bytes queue file atEnd hne hon hread hoff hall =>
    obtain ⟨rfl, rfl⟩ := List.cons.inj htsk
    by_cases hbytes : bytes = []
    · subst hbytes
      refine .inr ⟨rfl, .idle written queue hne hread ?_, rfl, le_refl _⟩
      rw [← hall, append_nil]
    have hadv : (a.task owner (.writing file bytes atEnd)).advance sha256 fs n true =
        ((Store.write 0 fs ⟨file.file, written.length⟩ (bytes.take (n+1))).1,
          .goesOn (.writing
            (Store.write 0 fs ⟨file.file, written.length⟩ (bytes.take (n+1))).2
            (bytes.drop (n+1)) atEnd)) := by
      have hdata := hon.data hread
      cases atEnd with
      | true => simp [Task.advance, Sent.task, hbytes, hdata]
      | false => simp [Task.advance, Sent.task, hbytes, ← hoff rfl]
    refine .inl ⟨_, _, hadv, ?_, ?_⟩
    · refine .busy (written ++ bytes.take (n+1)) (bytes.drop (n+1)) queue _ atEnd hne hon
        (Store.read_write hon hread rfl) ?_ ?_
      · intro _
        rw [length_append]
        rfl
      · rw [← hall, append_assoc written, take_append_drop]
    · have hlen := length_pos_iff.mpr hbytes
      simp only [Sent.task, cost, length_drop]
      omega

variable (sha256) in
theorem Hashing.advance {work : Work} (h : a.Hashing fs work) (hread : fs.read a.path = some a.content) (n : ℕ) :
    (∃ work', (a.task owner work).advance sha256 fs n true = (fs, .goesOn work') ∧
        a.Hashing fs work' ∧ a.cost work' < a.cost work) ∨
      (a.task owner work).advance sha256 fs n true =
        (fs, .ends (some (.hashed (hexEncode (sha256 a.content).toList) a.content.length))) ∧
        2 < a.cost work := by
  cases h with
  | posted =>
    obtain ⟨i, hent, -⟩ := map_eq_some_iff.mp hread
    refine .inl ⟨.reading ⟨i, 0⟩ (a.content.take 0), ?_, .reading ⟨i, 0⟩ hent, ?_⟩
    · simp [Task.advance, Sent.task, hent]
    · simp [cost]
  | reading file hon =>
    have hdata := hon.data hread
    by_cases hleft : a.content.drop file.offset = []
    · have hall : a.content.take file.offset = a.content := take_of_length_le (drop_eq_nil_iff.mp hleft)
      right
      constructor
      · simp [Task.advance, Sent.task, hdata, hleft, hall]
      · simp only [cost]
        omega
    -- what is read goes on from what has been read
    have htake : a.content.take file.offset ++ (a.content.drop file.offset).take (n+1) =
        a.content.take (file.offset + ((a.content.drop file.offset).take (n+1)).length) := by
      rw [← take_add, take_eq_take_iff, length_take, length_drop]
      omega
    left
    refine ⟨.reading ⟨file.file, file.offset + ((a.content.drop file.offset).take (n+1)).length⟩
      (a.content.take (file.offset + ((a.content.drop file.offset).take (n+1)).length)), ?_,
      .reading _ hon, ?_⟩
    · simp [Task.advance, Sent.task, hdata, hleft, htake]
    have hlen := length_pos_iff.mpr hleft
    rw [length_drop] at hlen
    simp only [cost, length_take, length_drop]
    omega

variable {i : ℕ} {up : Upload} {c : Bytes} {rem : List Bytes} {r : Request}

theorem tasksOn_first (hget : s.pool[i]? = some t) (hpath : t.path = a.path)
    (hord : ∀ t' ∈ s.pool.take i, t'.path ≠ a.path) :
    ∃ rest, tasksOn a.path s = t :: rest ∧
      (∀ fs' work, tasksOn a.path { s with fs := fs', pool := s.pool.set i { t with work := work } } =
        { t with work := work } :: rest) ∧
      ∀ fs' replies', tasksOn a.path
        { s with fs := fs', pool := s.pool.eraseIdx i, replies := replies' } = rest := by
  have hkind : ∀ t' : Task, decide (t'.path = a.path) = true ↔ t'.path = a.path := fun _ => decide_eq_true_iff
  obtain ⟨hfst, hset⟩ := Bag.filter_first hget ((hkind t).mpr hpath) (fun t' ht' => decide_eq_false (hord t' ht'))
  exact ⟨_, hfst, fun _ work => hset { t with work := work } ((hkind _).mpr hpath), fun _ _ => rfl⟩

theorem Stage.runTask (h : Stage sha256 a before s todo left) (hget : s.pool[i]? = some t)
    (hpath : t.path = a.path) (hord : ∀ t' ∈ s.pool.take i, t'.path ≠ a.path) (n : ℕ) :
    ∃ left' < left, Stage sha256 a before (s.runTask sha256 i n true) todo left' := by
  obtain ⟨rest, htsk, hset, hers⟩ := tasksOn_first hget hpath hord
  have hgoesOn : ∀ fs' work, t.advance sha256 s.fs n true = (fs', .goesOn work) →
      s.runTask sha256 i n true =
        { s with fs := fs', pool := s.pool.set i { t with work := work } } := by
    intro fs' work hadv
    simp [Receiver.runTask, hget, hadv]
  have hends : ∀ fs' result, t.advance sha256 s.fs n true = (fs', .ends result) →
      s.runTask sha256 i n true =
        { s with
          fs := fs', pool := s.pool.eraseIdx i
          replies := s.replies ++ (result.map (Reply.mk t.uploadId t.path)).toList } := by
    intro fs' result hadv
    simp [Receiver.runTask, hget, hadv]
  cases h with
  | writing hs rem up m todo hlook hup hwr hreps hfl hchs htodo hlog =>
    rw [htsk] at hwr hfl ⊢
    obtain ⟨fs', work, hadv, hwr', hcost⟩ | ⟨hadv, hwr', hid, hcost⟩ := hwr.advance sha256 n
    · rw [hgoesOn fs' work hadv]
      refine ⟨_, ?_, .writing hs rem up m todo hlook hup ?_ hreps ?_ hchs htodo hlog⟩
      · simp only [hset, map_cons, sum_cons]
        omega
      · rwa [hset]
      · rwa [hset]
    rw [hends _ _ hadv]
    refine ⟨_, ?_, .writing hs rem up (m+1) todo hlook hup ?_ ?_ ?_ hchs htodo hlog⟩
    · simp only [hers, map_cons, sum_cons]
      omega
    · rwa [hers]
    · rw [replicate_succ', ← hreps]
      simp [repliesTo, hid, hpath]
    · rw [hers, hfl, length_cons]
      omega
  | hashing up work hlook hup hread hall hwork hreps hlog =>
    obtain ⟨rfl, rfl⟩ := List.cons.inj (htsk.symm.trans hall)
    obtain ⟨work', hadv, hwork', hcost⟩ | ⟨hadv, hcost⟩ := hwork.advance sha256 hread n
    · rw [hgoesOn _ work' hadv]
      exact ⟨_, hcost, .hashing up work' hlook hup hread (hset _ work') hwork' hreps hlog⟩
    rw [hends _ _ hadv]
    refine ⟨2, hcost, .hashed up hlook hup hread (hers _ _) ?_ hlog⟩
    have hreps' : s.replies.filter (fun r => decide (r.uploadId = a.uploadId)) = [] := hreps
    simp [repliesTo, hreps', Sent.task]
  | hashed _ _ _ _ hall | completed _ _ _ _ hall =>
    rw [htsk] at hall
    cases hall
  | rejected hbad hlook hall hreps hlog =>
    rw [htsk] at hall ⊢
    have hadv : t.advance sha256 s.fs n true = (s.fs.remove t.path, .ends none) := by
      simp [Task.advance, hall t (mem_cons_self ..)]
    rw [hends _ _ hadv]
    refine ⟨_, ?_, .rejected hbad hlook ?_ ?_ hlog⟩
    · rw [hers, length_cons]
      omega
    · rw [hers]
      exact fun t' ht' => hall t' (mem_cons_of_mem _ ht')
    · simpa [repliesTo] using hreps

/-! ### Its replies -/

theorem Writing.done (h : a.Writing owner fs a.chunks []) : fs.read a.path = some a.content := by
  generalize htsk : [] = tasks at h
  cases h with
  | untouched =>
    have hne := a.chunks_ne_nil
    cases hchs : a.chunks with
    | nil => exact absurd hchs hne
    | cons =>
      rw [hchs] at htsk
      cases htsk
  | idle written queue hne hread hall =>
    obtain rfl : queue = [] := map_eq_nil_iff.mp htsk.symm
    rw [flatten_nil, append_nil] at hall
    rw [hread, hall]
    rfl
  | busy => cases htsk

theorem Stage.finalise (hget : s.uploads.lookup a.uploadId = some up) (hup : a.Taken a.chunks up)
    (hwr : a.Writing up.owner s.fs a.chunks []) (htsk : tasksOn a.path s = [])
    (hreps : repliesTo a.uploadId s = []) (hlog : completionsOf a.uploadId s = before) :
    Stage sha256 a before (s.finaliseUpload a.uploadId) [] (a.content.length+4) := by
  rw [finaliseUpload_eq hget]
  refine .hashing up .hash hget hup (Writing.done hwr) ?_ .posted hreps hlog
  have hpool : s.pool.filter (fun t => decide (t.path = a.path)) = [] := htsk
  simp [tasksOn, post, hpool, hup.path, Sent.task]

theorem Stage.runReply (h : Stage sha256 a before s todo left) (halv : s.alive = true) {r : Reply}
    (hr : s.replies[i]? = some r) (hid : r.uploadId = a.uploadId) :
    ∃ left' < left, Stage sha256 a before (s.runReply i) todo left' := by
  have hkind : decide (r.uploadId = a.uploadId) = true := decide_eq_true hid
  have hmem : r ∈ repliesTo a.uploadId s := mem_filter.mpr ⟨mem_of_getElem? hr, hkind⟩
  have hrun : s.runReply i = { s with replies := s.replies.eraseIdx i }.onReply r := by
    simp [Receiver.runReply, hr, halv]
  cases h with
  | writing hs rem up n todo hlook hup hwr hreps hfl hchs htodo hlog =>
    obtain ⟨rfl, m, rfl, hrest⟩ := Bag.filter_eraseIdx_replicate hreps hr hkind
    have hland : up.landed.writesInFlight = (tasksOn a.path s).length + m := by
      unfold Upload.landed
      dsimp only
      omega
    -- the entry is counted down and the progress reported
    have hsaid : ∃ x : Receiver, x.uploads.lookup a.uploadId = some up.landed ∧
        tasksOn a.path x = tasksOn a.path s ∧ x.fs = s.fs ∧
        repliesTo a.uploadId x = List.replicate m ⟨a.uploadId, a.path, .written true⟩ ∧
        completionsOf a.uploadId x = before ∧
        s.runReply i =
          if up.endPending = true ∧ up.landed.writesInFlight = 0 then x.finaliseUpload a.uploadId
          else x := by
      refine ⟨({ s with replies := s.replies.eraseIdx i }.put a.uploadId up.landed).say
        (.progress a.uploadId up.received up.declaredSize), lookup_insert _, rfl, rfl, ?_, ?_, ?_⟩
      · exact hrest
      · rw [← hlog]
        exact completionsOf_append [.progress a.uploadId up.received up.declaredSize] rfl (by simp [Output.completes])
      · rw [hrun]
        simp only [onReply, onChunkWritten, hlook, not_true_eq_false, ↓reduceIte]
        rfl
    obtain ⟨x, hxlook, hxtas, hxfs, hxrep, hxlog, hx⟩ := hsaid
    have hup' : a.Taken hs up.landed := ⟨hup.path, hup.size, hup.sha, hup.received, hup.seq⟩
    rw [hx]
    split
    next hlast =>
      obtain ⟨-, hpend⟩ | ⟨rfl, rfl, -, -⟩ := htodo
      · rw [hpend] at hlast
        exact absurd hlast.1 Bool.false_ne_true
      rw [append_nil] at hchs
      subst hchs
      have hnone : (tasksOn a.path s).length = 0 ∧ m = 0 := by omega
      have hempty := length_eq_zero_iff.mp hnone.1
      rw [hempty, ← hxfs] at hwr
      rw [hnone.2] at hxrep
      exact ⟨_, by omega, .finalise hxlook hup' hwr (hxtas.trans hempty) hxrep hxlog⟩
    next hmore =>
      rw [← hxtas, ← hxfs] at hwr
      refine ⟨_, ?_, .writing hs rem up.landed m todo hxlook hup' hwr hxrep ?_ hchs ?_ hxlog⟩
      · rw [hxtas]
        omega
      · rw [hxtas, hland]
      · refine htodo.imp_right ?_
        rintro ⟨hrem, hnil, hpend, -⟩
        refine ⟨hrem, hnil, hpend, ?_⟩
        have hne : up.landed.writesInFlight ≠ 0 := fun hzero => hmore ⟨hpend, hzero⟩
        omega
  | hashed up hlook hup hread hall hreps hlog =>
    obtain ⟨rfl, m, hm, hrest⟩ := Bag.filter_eraseIdx_replicate (n := 1) hreps hr hkind
    obtain rfl : m = 0 := by omega
    have hsha : hexEncode (sha256 a.content).toList ≠ [] := hexEncode_ne_nil _
    have hrej : ∀ code message, ¬ a.Good sha256 → ∃ left' < 2, Stage sha256 a before
        ({ s with replies := s.replies.eraseIdx i }.abandonUpload a.uploadId up code message) []
        left' := by
      intro code message hbad
      have htsk : tasksOn a.path
          ({ s with replies := s.replies.eraseIdx i }.abandonUpload a.uploadId up code message) =
          [a.task up.owner .delete] := by
        have hpool : s.pool.filter (fun t => decide (t.path = a.path)) = [] := hall
        simp [tasksOn, abandonUpload, post, say, hpool, hup.path, Sent.task]
      have hdel : ∀ t ∈ tasksOn a.path
          ({ s with replies := s.replies.eraseIdx i }.abandonUpload a.uploadId up code message),
          t.work = .delete := by
        rw [htsk]
        simp [Sent.task]
      refine ⟨_, ?_, .rejected hbad (lookup_erase _ _) hdel hrest ?_⟩
      · rw [htsk]
        exact Nat.lt_succ_self 1
      · rw [← hlog]
        exact completionsOf_abandon _ _ _ _
    rw [hrun]
    simp only [onReply, onFinalised, hlook, hsha, ↓reduceIte, hup.size, hup.sha]
    split
    next hsize => exact hrej _ _ fun hgood => hsize hgood.1
    split
    next hsize hhash =>
      refine hrej _ _ fun hgood => ?_
      exact hgood.2.elim hhash.1 hhash.2
    rename_i hsize hhash
    have hgood : a.Good sha256 := by
      refine ⟨not_not.mp hsize, ?_⟩
      by_contra hne
      rw [not_or] at hne
      exact hhash hne
    obtain ⟨via, hrep⟩ := commit_reports { s with replies := s.replies.eraseIdx i } a.uploadId
      a.path up a.content.length
    obtain ⟨hups, hpool, hreps', hfs⟩ := commit_keeps
      { s with replies := s.replies.eraseIdx i } a.uploadId a.path up a.content.length
    refine ⟨0, by omega, .completed via hgood ?_ ?_ ?_ ?_ ?_⟩
    · rw [hups]
      exact lookup_erase ..
    · rwa [hfs]
    · rwa [tasksOn, hpool]
    · rwa [repliesTo, hreps']
    · rw [hrep, ← hlog]
      rfl
  | hashing _ _ _ _ _ _ _ hreps | completed _ _ _ _ _ hreps | rejected _ _ _ hreps =>
    rw [hreps] at hmem
    cases hmem

/-! ### What arrives for it -/

theorem Writing.push (h : a.Writing owner fs hs tasks) (c : Bytes) :
    a.Writing owner fs (hs ++ [c]) (tasks ++ [a.task owner (.append c (decide ((hs.length : ℤ) + 1 = 1)))]) := by
  have hlat : hs ≠ [] → decide ((hs.length : ℤ) + 1 = 1) = false := by
    intro hne
    have hlen := length_pos_iff.mpr hne
    exact decide_eq_false (by omega)
  have hflat : (hs ++ [c]).flatten = hs.flatten ++ c := by simp
  cases h with
  | untouched =>
    cases hs with
    | nil => exact .untouched
    | cons c' cs =>
      rw [hlat (cons_ne_nil c' cs)]
      have htsk : a.firstTasks owner (c' :: cs) ++ [a.task owner (.append c false)] =
          a.firstTasks owner (c' :: cs ++ [c]) := by simp [firstTasks]
      rw [htsk]
      exact .untouched
  | idle written queue hne hread hall =>
    rw [hlat hne, ← map_singleton (f := fun c => a.task owner (.append c false)), ← map_append]
    refine .idle written (queue ++ [c]) (by simp) hread ?_
    rw [hflat, ← hall]
    simp
  | busy written rest queue file atEnd hne hon hread hoff hall =>
    rw [hlat hne, cons_append, ← map_singleton (f := fun c => a.task owner (.append c false)), ← map_append]
    refine .busy written rest (queue ++ [c]) file atEnd (by simp) hon hread hoff ?_
    rw [hflat, ← hall]
    simp

theorem Taken.fits (hup : a.Taken hs up) (hchs : hs ++ c :: rem = a.chunks) :
    up.received + c.length ≤ up.declaredSize := by
  have hlen := a.fits
  rw [← hchs] at hlen
  simp only [flatten_append, flatten_cons, length_append] at hlen
  rw [hup.received, hup.size]
  omega

theorem Stage.chunk {n : ℕ} {b64 : Bytes} (hget : s.uploads.lookup a.uploadId = some up) (hup : a.Taken hs up)
    (hwr : a.Writing up.owner s.fs hs (tasksOn a.path s))
    (hreps : repliesTo a.uploadId s = List.replicate n ⟨a.uploadId, a.path, .written true⟩)
    (hfl : up.writesInFlight = (tasksOn a.path s).length + n) (hchs : hs ++ c :: rem = a.chunks)
    (hdec : decode standard b64 = some c) (hsnds : Sends a.uploadId (hs.length+1) rem todo)
    (hpend : up.endPending = false) (hlog : completionsOf a.uploadId s = before) :
    ∃ left, Stage sha256 a before (s.handle (.chunk a.uploadId b64 hs.length)) todo left := by
  have hfits : up.received + c.length ≤ up.declaredSize := hup.fits hchs
  have hhdl : s.handle (.chunk a.uploadId b64 hs.length) =
      (s.put a.uploadId
        { up with
          nextSeq := up.nextSeq+1, received := up.received + c.length
          writesInFlight := up.writesInFlight+1 }).post
        (a.task up.owner (.append c (decide ((hs.length : ℤ) + 1 = 1)))) := by
    simp only [handle, handleChunk, hget, hup.seq, hdec, ne_eq, not_true_eq_false, ↓reduceIte]
    rw [if_neg (Int.not_lt.mpr hfits)]
    simp [Sent.task, hup.path]
  have htsk : tasksOn a.path (s.handle (.chunk a.uploadId b64 hs.length)) =
      tasksOn a.path s ++ [a.task up.owner (.append c (decide ((hs.length : ℤ) + 1 = 1)))] := by
    rw [hhdl]
    simp [tasksOn, post, put, Sent.task]
  refine ⟨_, .writing (hs ++ [c]) rem
    { up with
      nextSeq := up.nextSeq+1, received := up.received + c.length
      writesInFlight := up.writesInFlight+1 } n todo ?_ ?_ ?_ ?_ ?_ ?_ ?_ ?_⟩
  · rw [hhdl]
    exact lookup_insert _
  · refine ⟨hup.path, hup.size, hup.sha, ?_, ?_⟩
    · simp [hup.received]
    · simp [hup.seq]
  · rw [htsk, hhdl]
    exact hwr.push c
  · rwa [hhdl]
  · rw [htsk]
    simp only [hfl, length_append, length_singleton]
    omega
  · rw [← hchs, append_assoc]
    rfl
  · rw [length_append, length_singleton]
    exact .inl ⟨hsnds, hpend⟩
  · rwa [hhdl]

theorem Stage.request (h : Stage sha256 a before s (r :: todo) left) :
    ∃ left', Stage sha256 a before (s.handle r) todo left' := by
  generalize htodo' : r :: todo = todo' at h
  cases h with
  | hashing | hashed | completed | rejected => cases htodo'
  | writing hs rem up n todo' hlook hup hwr hreps hfl hchs htodo hlog =>
    subst htodo'
    obtain ⟨hsnds, hpend⟩ | ⟨-, hnil, -⟩ := htodo
    · generalize hlen : hs.length = i at hsnds
      cases hsnds with
      | chunk b64 c hdec hrest =>
        subst hlen
        exact Stage.chunk hlook hup hwr hreps hfl hchs hdec hrest hpend hlog
      | finish =>
        rw [append_nil] at hchs
        subst hchs
        simp only [handle, handleEnd, hlook]
        split
        · -- the end waits for the writes
          rename_i hpos
          exact ⟨_, .writing a.chunks [] { up with endPending := true } n []
            (lookup_insert _) ⟨hup.path, hup.size, hup.sha, hup.received, hup.seq⟩ hwr
            hreps hfl (append_nil _) (.inr ⟨rfl, rfl, rfl, hpos⟩) hlog⟩
        have hnone : (tasksOn a.path s).length = 0 ∧ n = 0 := by omega
        have hempty := length_eq_zero_iff.mp hnone.1
        rw [hempty] at hwr
        rw [hnone.2] at hreps
        exact ⟨_, .finalise hlook hup hwr hempty hreps hlog⟩
    · cases hnil

/-! ### Runs -/

/-- What the runs are about that leave the upload to itself and its tasks in their order. -/
def Orderly (a : Sent) (s : Receiver) (e : Event) : Prop :=
  Undisturbed a.uploadId a.path s e ∧ InOrder a.path s e

instance (a : Sent) (s : Receiver) (e : Event) : Decidable (a.Orderly s e) :=
  inferInstanceAs (Decidable (_ ∧ _))

theorem Sends.not_start {u : Bytes} {cs : List Bytes} {rs : List Request}
    (h : Sends u i cs (r :: rs)) : ∀ id name sha declared, r ≠ .start id name sha declared := by
  cases h <;> nofun

theorem Stage.not_start (h : Stage sha256 a before s (r :: todo) left) :
    ∀ id name sha declared, r ≠ .start id name sha declared := by
  generalize htodo' : r :: todo = todo' at h
  cases h with
  | hashing | hashed | completed | rejected => cases htodo'
  | writing hs rem up n todo' hlook hup hwr hreps hfl hchs htodo =>
    subst htodo'
    obtain ⟨hsnds, -⟩ | ⟨-, hnil, -⟩ := htodo
    · exact Sends.not_start hsnds
    · cases hnil

theorem Stage.step (h : Stage sha256 a before s todo left) (hs : Apart a.uploadId a.path s)
    (hok : a.Orderly s e) (hreq : requestOf a.uploadId e = none) :
    ∃ left' ≤ left, Stage sha256 a before (step sha256 s e) todo left' := by
  by_cases hfor : Foreign a.uploadId a.path s e
  · exact ⟨left, le_refl _, h.frame (step_same sha256 hfor hok.1 hs)⟩
  obtain hab | ⟨i, n, ok, t, rfl, hget, hpath⟩ := about_of_not_foreign hfor
  · cases e with
    | reply =>
      obtain ⟨r, hr, hid⟩ := map_eq_some_iff.mp hab
      obtain ⟨left', hlt, hstg⟩ := h.runReply hs.alive hr hid
      exact ⟨left', hlt.le, hstg⟩
    | message =>
      obtain ⟨r, hread, hid⟩ := map_eq_some_iff.mp hab
      simp [requestOf, hread, hid] at hreq
    | _ => cases hab
  · obtain rfl : ok = true := hok.1.2 t hget hpath
    obtain ⟨left', hlt, hstg⟩ := h.runTask hget hpath (hok.2 t hget hpath) n
    exact ⟨left', hlt.le, hstg⟩

theorem Stage.step_request (h : Stage sha256 a before s (r :: todo) left) (halv : s.alive = true)
    (hreq : requestOf a.uploadId e = some r) :
    ∃ left', Stage sha256 a before (Uploads.step sha256 s e) todo left' := by
  obtain ⟨d, rfl, hread, -⟩ := requestOf_eq_some hreq
  have hstep : Uploads.step sha256 s (.message d) = s.handle r := by simp [Uploads.step, halv, hread]
  rw [hstep]
  exact h.request

theorem not_startedBy {u : Bytes} (he : requestOf u e = none) (up : Upload) :
    startedBy s e ≠ some (u, up) := by
  intro hup
  obtain ⟨d, name, sha, declared, rfl, hread, -⟩ := startedBy_eq hup
  simp [requestOf, hread, Request.uploadId] at he

theorem Stage.run {es : List Event} {later : List Request}
    (h : Stage sha256 a before s (requestsOf a.uploadId es ++ later) left)
    (hs : Apart a.uploadId a.path s) (hes : Runs.Meets (Uploads.step sha256) a.Orderly s es) :
    Apart a.uploadId a.path (Uploads.run sha256 s es) ∧
      ∃ left', Stage sha256 a before (Uploads.run sha256 s es) later left' := by
  induction es generalizing s left with
  | nil => exact ⟨hs, left, h⟩
  | cons e es ih =>
    cases hreq : requestOf a.uploadId e with
    | none =>
      rw [requestsOf, filterMap_cons_none hreq] at h
      obtain ⟨left', -, h'⟩ := h.step hs hes.1 hreq
      exact ih h' (step_apart sha256 hes.1.1 (fun _ hup => absurd hup (not_startedBy hreq _)) hs) hes.2
    | some =>
      rw [requestsOf, filterMap_cons_some hreq] at h
      have hown : ∀ up, startedBy s e = some (a.uploadId, up) → up.path = a.path := by
        intro up hup
        obtain ⟨d, name, sha, declared, rfl, hread, -⟩ := startedBy_eq hup
        obtain ⟨d', heq, hread', -⟩ := requestOf_eq_some hreq
        cases heq
        rw [hread, Option.some.injEq] at hread'
        exact absurd hread'.symm (h.not_start _ _ _ _)
      obtain ⟨left', h'⟩ := h.step_request hs.alive hreq
      exact ih h' (step_apart sha256 hes.1.1 hown hs) hes.2

/-! ### Its end -/

def Settled (a : Sent) (s : Receiver) : Prop := tasksOn a.path s = [] ∧ repliesTo a.uploadId s = []

instance (a : Sent) (s : Receiver) : Decidable (a.Settled s) := inferInstanceAs (Decidable (_ ∧ _))

def Delivered (a : Sent) (before : List Output) (s : Receiver) : Prop :=
  s.fs.read a.path = some a.content ∧ ∃ via, completionsOf a.uploadId s = before ++ [.complete a.uploadId a.path via]

section
variable (h : Stage sha256 a before s [] left)
include h

theorem Stage.settled (hs : a.Settled s) :
    (a.Good sha256 → a.Delivered before s) ∧ (¬ a.Good sha256 → completionsOf a.uploadId s = before) := by
  obtain ⟨hnone, hemp⟩ := hs
  generalize hnil : [] = todo at h
  cases h with
  | writing hs rem up n todo hlook hup hwr hreps hfl hchs htodo =>
    subst hnil
    obtain ⟨hsnds, -⟩ | ⟨-, -, -, hpos⟩ := htodo
    · cases hsnds
    -- a write that is counted is outstanding
    rw [hemp] at hreps
    obtain rfl : 0 = n := by simpa using congrArg length hreps
    rw [hfl, hnone] at hpos
    exact absurd hpos (by decide)
  | hashing up work hlook hup hread hall =>
    rw [hnone] at hall
    cases hall
  | hashed up hlook hup hread hall hreps =>
    rw [hemp] at hreps
    cases hreps
  | completed via hgood hlook hread hall hreps hlog =>
    exact ⟨fun _ => ⟨hread, via, hlog⟩, fun hbad => absurd hgood hbad⟩
  | rejected hbad hlook hall hreps hlog => exact ⟨fun hgood => absurd hgood hbad, fun _ => hlog⟩

theorem Stage.exists_step (hs : Apart a.uploadId a.path s) (hopen : ¬ a.Settled s) :
    ∃ e, a.Orderly s e ∧ requestOf a.uploadId e = none ∧
      ∃ left' < left, Stage sha256 a before (Uploads.step sha256 s e) [] left' := by
  cases htsk : tasksOn a.path s with
  | cons t =>
    obtain ⟨i, hget, hkind, hfst⟩ := Bag.exists_first htsk
    have hpath : t.path = a.path := of_decide_eq_true hkind
    have hord : ∀ t' ∈ s.pool.take i, t'.path ≠ a.path := fun t' ht' => of_decide_eq_false (hfst t' ht')
    refine ⟨.task i 0 true, ⟨⟨nofun, fun _ _ _ => rfl⟩, ?_⟩, rfl, h.runTask hget hpath hord 0⟩
    intro t' _ _
    exact hord
  | nil =>
    have hreps : repliesTo a.uploadId s ≠ [] := fun hemp => hopen ⟨htsk, hemp⟩
    obtain ⟨r, hr⟩ := exists_mem_of_ne_nil _ hreps
    obtain ⟨hmem, hkind⟩ := mem_filter.mp hr
    obtain ⟨i, hget⟩ := mem_iff_getElem?.mp hmem
    exact ⟨.reply i, ⟨⟨nofun, trivial⟩, trivial⟩, rfl, h.runReply hs.alive hget (of_decide_eq_true hkind)⟩

theorem Stage.finishes (hs : Apart a.uploadId a.path s) :
    ∃ es, Runs.Meets (Uploads.step sha256) a.Orderly s es ∧ requestsOf a.uploadId es = [] ∧
      a.Settled (Uploads.run sha256 s es) := by
  induction left using Nat.strong_induction_on generalizing s with
  | _ left ih =>
    by_cases hset : a.Settled s
    · exact ⟨[], trivial, rfl, hset⟩
    obtain ⟨e, hok, hreq, left', hlt, h'⟩ := h.exists_step hs hset
    obtain ⟨es, hes, hreqs, hend⟩ := ih left' hlt h'
      (step_apart sha256 hok.1 (fun _ hup => absurd hup (not_startedBy hreq _)) hs)
    refine ⟨e :: es, ⟨hok, hes⟩, ?_, hend⟩
    rwa [requestsOf, filterMap_cons_none hreq]

end

/-! ### Its start -/

/-- Nothing of the id or the path is around: no task, no reply, no wipe, and no other upload with
the path. -/
structure Clear (a : Sent) (s : Receiver) : Prop where
  alive : s.alive = true
  pool : ∀ t ∈ s.pool, t.uploadId ≠ a.uploadId ∧ t.path ≠ a.path ∧ t.work ≠ .wipe
  replies : ∀ r ∈ s.replies, r.uploadId ≠ a.uploadId
  uploads : ∀ e ∈ s.uploads.entries, e.1 ≠ a.uploadId → e.2.path ≠ a.path

theorem Stage.start (hclr : a.Clear s) (hheld : Held s) (hst : startedBy s e = some (a.uploadId, up))
    (hup : a.Taken [] up) (hsnds : Sends a.uploadId 0 a.chunks todo) :
    Apart a.uploadId a.path (Uploads.step sha256 s e) ∧
      ∃ left, Stage sha256 a (completionsOf a.uploadId s) (Uploads.step sha256 s e) todo left := by
  have hstep : Uploads.step sha256 s e =
      { s.put a.uploadId up with started := s.started ++ [up.path] } := step_of_startedBy hst
  obtain ⟨d, name, sha, declared, rfl, hread, halv, hadm, rfl⟩ := startedBy_eq hst
  rw [hstep]
  have htsk : tasksOn a.path s = [] := by
    rw [tasksOn, filter_eq_nil_iff]
    intro t ht
    simpa using (hclr.pool t ht).2.1
  have hreps : repliesTo a.uploadId s = [] := by
    rw [repliesTo, filter_eq_nil_iff]
    intro r hr
    simpa using hclr.replies r hr
  constructor
  · refine ⟨halv, hheld, ?_, ?_⟩
    · intro t ht
      obtain ⟨hid, hpath, hwipe⟩ := hclr.pool t ht
      exact ⟨iff_of_false hid hpath, hwipe⟩
    intro id up hget
    by_cases hid : id = a.uploadId
    · subst hid
      obtain rfl := Option.some.inj ((lookup_insert _).symm.trans hget)
      exact iff_of_true rfl hup.path
    · have hget' : s.uploads.lookup id = some up := (lookup_insert_ne hid).symm.trans hget
      exact iff_of_false hid (hclr.uploads ⟨id, up⟩ (mem_lookup_iff.mp hget') hid)
  · refine ⟨_, .writing [] a.chunks _ 0 todo (lookup_insert _) hup ?_ hreps ?_ rfl
      (.inl ⟨hsnds, rfl⟩) rfl⟩
    · exact (show tasksOn a.path s = a.firstTasks _ [] from htsk) ▸ .untouched
    · exact (show (0 : ℤ) = (tasksOn a.path s).length + (0 : ℕ) by rw [htsk]; rfl)

/-! ### The hash -/

/-- No write is outstanding while the hash is. -/
def HashedAlone (a : Sent) (s : Receiver) : Prop :=
  (∃ t ∈ tasksOn a.path s, t.work.hashes = true) → ∀ t ∈ tasksOn a.path s, t.work.writes = false

theorem Writing.writes (h : a.Writing owner fs hs tasks) : ∀ t ∈ tasks, t.work.hashes = false := by
  have happ : ∀ queue : List Bytes,
      ∀ t ∈ queue.map (fun c => a.task owner (.append c false)), t.work.hashes = false := by
    intro queue t ht
    obtain ⟨c, -, rfl⟩ := mem_map.mp ht
    rfl
  cases h with
  | untouched =>
    cases hs with
    | nil => simp [firstTasks]
    | cons c cs => exact forall_mem_cons.mpr ⟨rfl, happ cs⟩
  | idle written queue => exact happ queue
  | busy written rest queue => exact forall_mem_cons.mpr ⟨rfl, happ queue⟩

theorem Stage.hashedAlone (h : Stage sha256 a before s todo left) : a.HashedAlone s := by
  rintro ⟨t, ht, hhash⟩
  cases h with
  | writing hs rem up n todo hlook hup hwr =>
    rw [Writing.writes hwr t ht] at hhash
    cases hhash
  | hashing up work hlook hup hread htsk hwork =>
    rw [htsk]
    intro t' ht'
    obtain rfl := mem_singleton.mp ht'
    cases hwork <;> rfl
  | hashed up hlook hup hread htsk | completed via hgood hlook hread htsk =>
    rw [htsk] at ht
    cases ht
  | rejected hbad hlook htsk =>
    intro t' ht'
    rw [htsk t' ht']
    rfl

end

end Sent

/-- An upload `a` of the bytes 1 and 2, in two chunks. -/
def twoChunks : Sent where
  uploadId := ascii "a"
  path := ascii "a__f"
  declared := 2
  sha := []
  chunks := [[1], [2]]
  chunks_ne_nil := by decide
  fits := by decide

def twoChunksStart : Event := .message (Envelope.start (ascii "a") (ascii "f") [] 2 [] none).object

def twoChunksData : List Event :=
  [.message (Envelope.chunk (ascii "a") 0 (encode standard [1])).object,
    .message (Envelope.chunk (ascii "a") 1 (encode standard [2])).object]

def twoChunksEnd : Event := .message (Envelope.finish (ascii "a")).object

def orderlyRun : List Event :=
  twoChunksData ++ [.task 0 0 true, .task 0 0 true, .task 0 0 true, twoChunksEnd,
    .task 0 0 true, .task 0 0 true, .task 0 0 true, .reply 0, .reply 0,
    .task 0 0 true, .task 0 1 true, .task 0 0 true, .reply 0]

def swappedRun : List Event :=
  twoChunksData ++ [twoChunksEnd, .task 1 0 true, .task 0 0 true, .task 0 0 true, .task 0 0 true,
    .reply 0, .reply 0, .task 0 0 true]

end Chromeless.Uploads
