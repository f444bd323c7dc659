import Chromeless.FileBridgeMoves

/-! Where the bridge writes: the id that the peer chose is part of the file name. -/
namespace Chromeless.FileBridge
open List Path Runs Files

/-! ### File names -/

def NoSlash (s : String) : Prop := '/' ∉ s.toList

instance (s : String) : Decidable (NoSlash s) := inferInstanceAs (Decidable (_ ∉ _))

theorem sanitizeName_noSlash (name : String) : NoSlash (sanitizeName name) := by
  unfold sanitizeName NoSlash
  dsimp only
  split
  · decide
  rw [String.toList_ofList]
  intro hmem
  obtain ⟨r, -, hr⟩ := mem_map.mp hmem
  by_cases hpl : plainChar r = true
  · rw [if_pos hpl] at hr
    subst hr
    revert hpl
    decide
  rw [if_neg hpl] at hr
  revert hr
  decide

def fileName (id sanitized : String) : String := id ++ "__" ++ sanitized

theorem fileName_toList (id sanitized : String) :
    (fileName id sanitized).toList = id.toList ++ '_' :: '_' :: sanitized.toList := by
  simp [fileName]

theorem fileName_isName {id sanitized : String} (hid : NoSlash id) (hname : NoSlash sanitized) :
    IsName (fileName id sanitized).toList := by
  have hmem : '_' ∈ (fileName id sanitized).toList := by simp [fileName_toList]
  constructor
  · exact ne_nil_of_mem hmem
  · intro h
    rw [h] at hmem
    revert hmem
    decide
  · intro h
    rw [h] at hmem
    revert hmem
    decide
  · rw [fileName_toList]
    simp only [mem_append, mem_cons, not_or]
    exact ⟨hid, by decide, by decide, hname⟩

theorem filepathJoin_fileName (dir : String) {id sanitized : String} (hid : NoSlash id) (hname : NoSlash sanitized) :
    (filepathJoin [dir, fileName id sanitized]).toList = Path.child dir.toList (fileName id sanitized).toList := by
  rw [filepathJoin, String.toList_ofList, map_cons, map_cons, map_nil, join_name _ (fileName_isName hid hname)]

/-- Neither id is the other one followed by an underscore and more. -/
def Apart (id id' : String) : Prop :=
  ¬ (id.toList ++ ['_']) <+: id'.toList ∧ ¬ (id'.toList ++ ['_']) <+: id.toList

theorem Apart.symm {id id' : String} (h : Apart id id') : Apart id' id := ⟨h.2, h.1⟩

theorem Apart.fileName_ne {id id' : String} (hne : id ≠ id') (hap : Apart id id')
    (sanitized sanitized' : String) : fileName id sanitized ≠ fileName id' sanitized' := by
  -- one id is the front of the other, and what follows begins with an underscore
  have hfrt : ∀ {x y u v : List Char}, x ≠ y → x ++ '_' :: u = y ++ v → (∃ w, y = x ++ w) → (x ++ ['_']) <+: y := by
    rintro x y u v hxy heq ⟨w, rfl⟩
    rw [append_assoc, append_cancel_left_eq] at heq
    cases w with
    | nil => simp at hxy
    | cons c w =>
      obtain ⟨rfl, -⟩ := List.cons.inj heq
      exact ⟨w, by simp⟩
  intro h
  have hlist := congrArg String.toList h
  rw [fileName_toList, fileName_toList] at hlist
  have hne' : id.toList ≠ id'.toList := fun h => hne (String.toList_inj.mp h)
  obtain ⟨w, hw, -⟩ | ⟨w, hw, -⟩ := append_eq_append_iff.mp hlist
  · exact hap.1 (hfrt hne' hlist ⟨w, hw⟩)
  · exact hap.2 (hfrt hne'.symm hlist.symm ⟨w, hw⟩)

/-! ### Runs -/

section
variable (go : Library) (cfg : BridgeConfig)

/-- Every path the bridge touches is a direct child of the session's directory, and uploads that are
in progress together have different paths. -/
structure Confined (b : Bridge) (as : List (Envelope × Replies)) : Prop where
  child : ∀ bs env r cs, as = bs ++ (env, r) :: cs →
    ∀ e ∈ (dispatch go cfg (run go cfg b bs) env r).2, ∀ p ∈ e.path, IsChild (sessionDir cfg).toList p.toList
  distinct : ∀ bs cs, as = bs ++ cs → ∀ id id' st st', id ≠ id' →
    (run go cfg b bs).uploads id = some st → (run go cfg b bs).uploads id' = some st' → st.tmpPath ≠ st'.tmpPath

/-- The id of an upload that is started has no slash, and is apart from the ids of the
other uploads in progress. -/
def SafeStart (b : Bridge) (a : Envelope × Replies) : Prop :=
  ∀ d, a.1.Starts d → Admitted go cfg d → NoSlash d.uploadID ∧
    ∀ id, id ≠ d.uploadID → b.uploads id ≠ none → Apart id d.uploadID

structure NamedAs (id : String) (st : UploadState) : Prop where
  id_eq : st.id = id
  noSlash : NoSlash id
  sanitized : NoSlash st.sanitizedName
  path : st.tmpPath = filepathJoin [sessionDir cfg, fileName id st.sanitizedName]

structure Named (b : Bridge) : Prop where
  upload : ∀ id st, b.uploads id = some st → NamedAs cfg id st
  apart : ∀ id id', id ≠ id' → b.uploads id ≠ none → b.uploads id' ≠ none → Apart id id'

variable {go cfg} {b b' : Bridge} {env : Envelope} {r : Replies} {events : List Event}

theorem newBridge_named (fs : Store String UInt8) : Named cfg (newBridge fs) := by
  constructor <;> simp [newBridge]

theorem NamedAs.child {id : String} {st : UploadState} (h : NamedAs cfg id st) :
    IsChild (sessionDir cfg).toList st.tmpPath.toList := by
  rw [h.path, filepathJoin_fileName _ h.noSlash h.sanitized]
  exact ⟨_, fileName_isName h.noSlash h.sanitized, rfl⟩

theorem filepathJoin_ne {id id' sanitized sanitized' : String} (hid : NoSlash id)
    (hid' : NoSlash id') (hname : NoSlash sanitized) (hname' : NoSlash sanitized')
    (hne : fileName id sanitized ≠ fileName id' sanitized') :
    filepathJoin [sessionDir cfg, fileName id sanitized] ≠
      filepathJoin [sessionDir cfg, fileName id' sanitized'] := by
  intro h
  have hlist := congrArg String.toList h
  rw [filepathJoin_fileName _ hid hname, filepathJoin_fileName _ hid' hname'] at hlist
  exact hne (String.toList_inj.mp (child_injective _ hlist))

section
variable (h : Named cfg b)
include h

theorem Named.path_ne {id id' : String} {st st' : UploadState} (hne : id ≠ id')
    (hget : b.uploads id = some st) (hget' : b.uploads id' = some st') :
    st.tmpPath ≠ st'.tmpPath := by
  have hst := h.upload id st hget
  have hst' := h.upload id' st' hget'
  have hap := h.apart id id' hne (by simp [hget]) (by simp [hget'])
  rw [hst.path, hst'.path]
  exact filepathJoin_ne hst.noSlash hst'.noSlash hst.sanitized hst'.sanitized (hap.fileName_ne hne _ _)

theorem Named.delete (key : String) : Named cfg (b.delete key) := by
  have hsub : ∀ id st, (b.delete key).uploads id = some st → b.uploads id = some st := by
    intro id st hget
    by_cases hid : id = key
    · simp [hid] at hget
    · rwa [Bridge.delete_uploads, Function.update_of_ne hid] at hget
  have hact : ∀ id, (b.delete key).uploads id ≠ none → b.uploads id ≠ none := by
    intro id hid
    obtain ⟨st, hst⟩ := Option.ne_none_iff_exists'.mp hid
    simp [hsub id st hst]
  exact ⟨fun id st hget => h.upload id st (hsub id st hget),
    fun id id' hne hid hid' => h.apart id id' hne (hact id hid) (hact id' hid')⟩

theorem Named.put {key : String} {st : UploadState} (hst : NamedAs cfg key st)
    (hap : ∀ id, id ≠ key → b.uploads id ≠ none → Apart id key) : Named cfg (b.put key st) := by
  constructor
  · intro id st' hget
    by_cases hid : id = key
    · subst hid
      obtain rfl : st = st' := by simpa using hget
      exact hst
    · exact h.upload id st' (by simpa [hid] using hget)
  · intro id id' hne hget hget'
    by_cases hid : id = key
    · have hid' : id' ≠ key := fun h => hne (hid.trans h.symm)
      rw [hid]
      exact (hap id' hid' (by simpa [hid'] using hget')).symm
    by_cases hid' : id' = key
    · rw [hid']
      exact hap id hid (by simpa [hid] using hget)
    · exact h.apart id id' hne (by simpa [hid] using hget) (by simpa [hid'] using hget')

theorem Named.of_uploads (heq : b'.uploads = b.uploads) : Named cfg b' := by
  constructor
  · rw [heq]
    exact h.upload
  · rw [heq]
    exact h.apart

end

theorem NamedAs.accept {id : String} {st : UploadState} (h : NamedAs cfg id st) (seq : ℤ)
    (f : Handle) (bytes : Bytes) : NamedAs cfg id (accept st seq f bytes).1 := by
  obtain ⟨kb, heq⟩ := accept_eq st seq f bytes
  rw [heq]
  exact ⟨h.id_eq, h.noSlash, h.sanitized, h.path⟩

theorem Named.move (h : Named cfg b) (hsafe : SafeStart go cfg b (env, r))
    (hmove : Move go cfg b env r b' events) : Named cfg b' := by
  cases hmove with
  | quiet => exact h
  | blocked => exact h
  | started d hbody hd =>
    obtain ⟨hslash, hap⟩ := hsafe d hbody hd
    have hfs : Named cfg { b with fs := (b.fs.create (tmpPath cfg d)).1 } := h.of_uploads rfl
    exact hfs.put ⟨rfl, hslash, sanitizeName_noSlash _, rfl⟩ hap
  | duplicate => exact h.of_uploads (by simp)
  | dropped id key => exact (h.delete key).of_uploads (by simp)
  | written id st bytes hbody hget =>
    have hfs : Named cfg { b with fs := (Store.write 0 b.fs st.tmpFile bytes).1 } := h.of_uploads rfl
    exact hfs.put ((h.upload id st hget).accept ..) fun id' hne hid' =>
      h.apart id' id hne hid' (by simp [hget])
  | finished id => exact h.delete id

theorem tmpPath_child {d : UploadStartData} (hslash : NoSlash d.uploadID) :
    IsChild (sessionDir cfg).toList (tmpPath cfg d).toList := by
  have hname := sanitizeName_noSlash d.name
  refine ⟨_, fileName_isName hslash hname, ?_⟩
  exact filepathJoin_fileName _ hslash hname

theorem Move.child (hmove : Move go cfg b env r b' events) (h : Named cfg b) (hsafe : SafeStart go cfg b (env, r)) :
    ∀ e ∈ events, ∀ p ∈ e.path, IsChild (sessionDir cfg).toList p.toList := by
  intro e he p hp
  cases hmove with
  | quiet hpath => simp [hpath e he] at hp
  | blocked _ hbody hd hpath | started _ hbody hd _ hpath | duplicate _ hbody hd hpath =>
    rw [hpath e he p hp]
    exact tmpPath_child (hsafe _ hbody hd).1
  | dropped id _ st _ hget _ hpath | written id st _ _ hget _ hpath
  | finished id st _ hget _ _ hpath =>
    rw [hpath e he p hp]
    exact (h.upload id st hget).child

theorem Named.run {as : List (Envelope × Replies)} (h : Named cfg b)
    (hsafe : Meets (step go cfg) (SafeStart go cfg) b as) : Named cfg (run go cfg b as) :=
  invariant_run_meets _ _ _ (fun _ a hok hnam => hnam.move hok (dispatch_move go cfg _ a.1 a.2)) h hsafe

end

/-- If the ids of uploads have no slash and are apart from one another, the bridge stays in the
directory of its session and keeps the files of its uploads apart. -/
theorem uploads_confined (go : Library) (cfg : BridgeConfig) (fs : Store String UInt8)
    (as : List (Envelope × Replies)) (hsafe : Meets (step go cfg) (SafeStart go cfg) (newBridge fs) as) :
    Confined go cfg (newBridge fs) as := by
  constructor
  · rintro bs env r cs rfl
    rw [meets_append] at hsafe
    have hnamed := (newBridge_named fs).run hsafe.1
    exact (dispatch_move go cfg _ env r).child hnamed hsafe.2.1
  · rintro bs cs rfl id id' st st' hne hget hget'
    rw [meets_append] at hsafe
    exact ((newBridge_named fs).run hsafe.1).path_ne hne hget hget'

/-! ### Ids that lead elsewhere -/

def textOnly : BridgeConfig :=
  ⟨"/var/lib/chromeless-uploads", "default", 100*1024*1024, 1024*1024, (· = "text/plain"), true⟩

/-- Stands for Go's library where only text in ASCII is looked at; the hash of a text is the
text. -/
def plainLibrary : Library where
  toLower := id
  quote := id
  decodeString s := .ok (s.toList.map fun c => c.toNat.toUInt8)
  sha256Hex bs := String.ofList (bs.map fun b => Char.ofNat b.toNat)
  detectContentType _ := "text/plain; charset=utf-8"

def startText (id name text : String) : Envelope × Replies :=
  (⟨protocolVersion, .start ⟨id, name, "text/plain", text.length, text, ""⟩⟩, {})

theorem uploads_confined_pair :
    let as := [startText "u1" "a.txt" "x", startText "u2" "a.txt" "y"]
    Meets (step plainLibrary textOnly) (SafeStart plainLibrary textOnly)
        (newBridge .empty) as ∧
      Confined plainLibrary textOnly (newBridge .empty) as := by
  have hsafe : Meets (step plainLibrary textOnly) (SafeStart plainLibrary textOnly)
      (newBridge .empty) [startText "u1" "a.txt" "x", startText "u2" "a.txt" "y"] := by
    refine ⟨?_, ?_, trivial⟩
    · rintro d ⟨-, hd⟩ -
      cases hd
      exact ⟨by decide, fun id _ hid => absurd rfl hid⟩
    rintro d ⟨-, hd⟩ -
    cases hd
    refine ⟨by decide, ?_⟩
    intro id _ hid
    obtain rfl : id = "u1" := by
      by_contra hne
      exact hid (Function.update_of_ne hne ..)
    exact ⟨by decide, by decide⟩
  exact ⟨hsafe, uploads_confined plainLibrary textOnly .empty _ hsafe⟩

theorem upload_ids_not_confined :
    ¬ Confined plainLibrary textOnly (newBridge .empty)
        [startText "../../../../etc/cron.d/job" "x" "t"] ∧
      ¬ Confined plainLibrary textOnly (newBridge .empty) [startText "a" "b__c" "x", startText "a__b" "c" "y"] := by
  constructor
  · intro h
    have hchild := h.child [] _ _ [] rfl (.openFile "/etc/cron.d/job__x") (by decide +kernel) _ rfl
    obtain ⟨name, -, heq⟩ := hchild
    have helements : elements (sessionDir textOnly).toList =
        ["var".toList, "lib".toList, "chromeless-uploads".toList, "default".toList] := by
      decide +kernel
    have hrooted : rooted (sessionDir textOnly).toList = true := by decide +kernel
    have hfront := congrArg (take 2) heq
    change _ = ['/', 'v'] at hfront
    revert hfront
    decide +kernel
  · intro h
    have hstates : ∀ id ∈ ["a", "a__b"],
        ((run plainLibrary textOnly (newBridge .empty)
          [startText "a" "b__c" "x", startText "a__b" "c" "y"]).uploads id).map (·.tmpPath) =
            some "/var/lib/chromeless-uploads/default/a__b__c" := by
      decide +kernel
    obtain ⟨st, hst, hpath⟩ := Option.map_eq_some_iff.mp (hstates "a" (by simp))
    obtain ⟨st', hst', hpath'⟩ := Option.map_eq_some_iff.mp (hstates "a__b" (by simp))
    exact h.distinct _ [] (append_nil _).symm "a" "a__b" st st' (by decide) hst hst'
      (hpath.trans hpath'.symm)

end Chromeless.FileBridge
