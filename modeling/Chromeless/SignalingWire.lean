import Chromeless.SignalingEnvelope

/-! What the counterpart reads in the bytes the broker passes on, if it matches keys exactly, and what the broker's
own scan finds in them. -/
namespace Chromeless.Signaling
open Json Value EnvType Option

inductive Turn
  | first
  | later
deriving DecidableEq

def forwardedFrame : Turn → Role → Bytes → Option Frame
  | .first, role, raw =>
    match firstFrame raw with
    | some (r, some f) => if r = role then some f else none
    | _ => none
  | .later, role, raw => readFrame role raw

/-- The first and the last member spelled exactly `key` carry the text of the last one that Go's
decoder takes for it. -/
def SpelledExactly (key : Bytes) (ms : List (Bytes × Value)) : Prop :=
  (lastText (taken key ms)).isSome = true ∧
    firstText (spelled key ms) = lastText (taken key ms) ∧
    lastText (spelled key ms) = lastText (taken key ms)

/-- Frames that are marshalled anew because their `from` is not the sender's role, and those whose
own spelling of `type` and `from` is unambiguous. -/
def WireExact (turn : Turn) (role : Role) (raw : Bytes) : Prop :=
  ∃ ms ∈ parseObject maxNestingDepth raw,
    (turn = .later ∧ lastText (taken (ascii "from") ms) ≠ some role.name) ∨
      (SpelledExactly (ascii "type") ms ∧ SpelledExactly (ascii "from") ms)

instance (key : Bytes) (ms : List (Bytes × Value)) : Decidable (SpelledExactly key ms) :=
  inferInstanceAs (Decidable (_ ∧ _ ∧ _))

instance (turn : Turn) (role : Role) (raw : Bytes) : Decidable (WireExact turn role raw) :=
  inferInstanceAs (Decidable (∃ ms ∈ parseObject maxNestingDepth raw, _))

/-- A receiver that compares keys exactly reads the sender's role and the type that the broker acted
on. -/
def ReadsBack (role : Role) (f : Frame) : Prop :=
  ∀ pick, readString maxNestingDepth pick (ascii "from") f.raw = some role.name ∧
    readString maxNestingDepth pick (ascii "type") f.raw = some f.typ.name

theorem unquote_names : unquote (ascii "type") = ascii "type" ∧
    unquote (ascii "from") = ascii "from" ∧ unquote (ascii "data") = ascii "data" ∧
    (∀ role : Role, unquote role.name = role.name) ∧
    (∀ typ : EnvType, unquote typ.name = typ.name) := by
  refine ⟨by decide +kernel, by decide +kernel, by decide +kernel, ?_, ?_⟩
  · intro role
    cases role <;> decide +kernel
  · intro typ
    cases typ <;> decide +kernel

theorem bodyOk_names : bodyOk .body (ascii "type") = true ∧ bodyOk .body (ascii "from") = true ∧
    bodyOk .body (ascii "data") = true ∧ (∀ role : Role, bodyOk .body role.name = true) ∧
    (∀ typ : EnvType, bodyOk .body typ.name = true) := by
  refine ⟨by decide, by decide, by decide, ?_, ?_⟩
  · intro role
    cases role <;> decide
  · intro typ
    cases typ <;> decide

theorem parse_marshal (typ : EnvType) (role : Role) (data : Option Value) (hd : ∀ v ∈ data, v.ok 9999 = true) :
    parse maxNestingDepth (marshal typ.name role data) = some (.obj (marshalMembers typ.name role data)) := by
  obtain ⟨htype, hfrom, hdata, hrole, htyp⟩ := bodyOk_names
  apply parse_print
  change membersOk 9999 (marshalMembers typ.name role data) = true
  cases data with
  | none => simp [marshalMembers, membersOk, ok, htype, hfrom, hrole, htyp]
  | some v =>
    have hv := v.ok_escape 9999 (hd v rfl)
    simp [marshalMembers, membersOk, ok, htype, hfrom, hdata, hrole, htyp, hv]

theorem readsBack_marshal (typ : EnvType) (role : Role) (data : Option Value) (hd : ∀ v ∈ data, v.ok 9999 = true) :
    ReadsBack role ⟨typ, marshal typ.name role data⟩ := by
  obtain ⟨htype, hfrom, hdata, hrole, htyp⟩ := unquote_names
  have hne : (ascii "type" == ascii "from") = false ∧ (ascii "from" == ascii "type") = false ∧
      (ascii "data" == ascii "from") = false ∧ (ascii "data" == ascii "type") = false := by decide
  intro pick
  simp only [readString, parseObject, parse_marshal typ role data hd, bind_some]
  cases pick <;> cases data <;>
    simp [exactString, exactMember, marshalMembers, htype, hfrom, hdata, hrole, htyp, hne]

theorem lastText_taken {key s : Bytes} {ms : List (Bytes × Value)} (hs : s ≠ [])
    (h : stringField key ms = some s) : lastText (taken key ms) = some s := by
  have heq := stringField_eq key ms s h
  cases ht : lastText (taken key ms) with
  | none =>
    rw [ht] at heq
    exact absurd heq hs
  | some =>
    rw [ht] at heq
    rw [heq]
    rfl

theorem spelledExactly_iff {key s : Bytes} {ms : List (Bytes × Value)} (h : lastText (taken key ms) = some s) :
    SpelledExactly key ms ↔ ∀ pick, exactString pick key ms = some s := by
  rw [SpelledExactly, h]
  constructor
  · rintro ⟨-, hfst, hlast⟩ pick
    cases pick with
    | first => rw [exactString_first, hfst]
    | last => rw [exactString_last, hlast]
  · intro hread
    refine ⟨rfl, ?_, ?_⟩
    · rw [← exactString_first]
      exact hread .first
    · rw [← exactString_last]
      exact hread .last

theorem names_ne_nil : (∀ role : Role, role.name ≠ []) ∧ ∀ typ : EnvType, typ.name ≠ [] := by
  constructor
  · intro role
    cases role <;> decide
  · intro typ
    cases typ <;> decide

theorem readsBack_verbatim (role : Role) (typ : EnvType) (raw : Bytes) (ms : List (Bytes × Value))
    (hp : parse maxNestingDepth raw = some (.obj ms)) (htype : stringField (ascii "type") ms = some typ.name)
    (hfrom : stringField (ascii "from") ms = some role.name) :
    ReadsBack role ⟨typ, raw⟩ ↔ SpelledExactly (ascii "type") ms ∧ SpelledExactly (ascii "from") ms := by
  rw [spelledExactly_iff (lastText_taken (names_ne_nil.2 typ) htype),
    spelledExactly_iff (lastText_taken (names_ne_nil.1 role) hfrom)]
  simp only [ReadsBack, readString, parseObject, hp, bind_some]
  constructor
  · intro h
    exact ⟨fun pick => (h pick).2, fun pick => (h pick).1⟩
  · intro h pick
    exact ⟨h.2 pick, h.1 pick⟩

theorem forwardedFrame_spec (turn : Turn) (role : Role) (raw : Bytes) (f : Frame)
    (h : forwardedFrame turn role raw = some f) :
    ∃ ms sender, parse maxNestingDepth raw = some (.obj ms) ∧
      stringField (ascii "type") ms = some f.typ.name ∧
      stringField (ascii "from") ms = some sender ∧
      ((sender = role.name ∧ f.raw = raw) ∨
        (turn = .later ∧ sender ≠ role.name ∧ f.raw = marshal f.typ.name role (rawField (ascii "data") ms))) := by
  cases turn with
  | first =>
    simp only [forwardedFrame, firstFrame] at h
    cases hu : unmarshal raw with
    | none => simp [hu] at h
    | some env =>
      cases hr : Role.ofName env.sender with
      | none => simp [hu, hr] at h
      | some r =>
        cases ht : ofName env.type with
        | none => simp [hu, hr, ht] at h
        | some typ =>
          simp only [hu, hr, ht, map_some] at h
          split at h
          next hrole =>
            obtain rfl : _ = f := Option.some.inj h
            have htyp := (ofName_eq_some _ _).mp ht
            have hsdr := (Role.ofName_eq_some _ _).mp hr
            obtain ⟨ms, hp, htype, hfrom, -⟩ := unmarshal_typed raw env typ hu htyp
            exact ⟨ms, env.sender, hp, by rw [htype, htyp], hfrom, .inl ⟨by rw [hsdr, hrole], rfl⟩⟩
          · simp at h
  | later =>
    simp only [forwardedFrame, readFrame] at h
    cases hu : unmarshal raw with
    | none => simp [hu] at h
    | some env =>
      simp only [hu, map_eq_some_iff] at h
      obtain ⟨typ, ht, rfl⟩ := h
      have htyp := (ofName_eq_some _ _).mp ht
      obtain ⟨ms, hp, htype, hfrom, hdata⟩ := unmarshal_typed raw env typ hu htyp
      refine ⟨ms, env.sender, hp, by rw [htype, htyp], hfrom, ?_⟩
      by_cases hs : env.sender = role.name
      · exact .inl ⟨hs, by simp [hs]⟩
      · exact .inr ⟨rfl, hs, by simp [hs, hdata]⟩

/-- The broker's view of a forwarded frame survives an exact reading precisely for the frames in
`WireExact`. -/
theorem forwarded_reads_back_iff (turn : Turn) (role : Role) (raw : Bytes) (f : Frame)
    (h : forwardedFrame turn role raw = some f) : ReadsBack role f ↔ WireExact turn role raw := by
  obtain ⟨ms, sender, hp, htype, hfrom, hcase⟩ := forwardedFrame_spec turn role raw f h
  have hms : parseObject maxNestingDepth raw = some ms := by simp [parseObject, hp]
  simp only [WireExact, hms, mem_some_iff, exists_eq_left']
  rcases hcase with ⟨rfl, hraw⟩ | ⟨hturn, hne, hraw⟩
  · -- the sender's own bytes: only their spelling decides
    have hv := readsBack_verbatim role f.typ raw ms hp htype hfrom
    have htaken := lastText_taken (names_ne_nil.1 role) hfrom
    rw [← hraw] at hv
    simp [hv, htaken]
  -- marshalled anew: always read back
  have hok : membersOk 9999 ms = true := parse_ok maxNestingDepth raw _ hp
  have hread := readsBack_marshal f.typ role (rawField (ascii "data") ms) (by
    intro v hv
    obtain ⟨m, hm, rfl⟩ := rawField_mem _ _ _ hv
    exact membersOk_mem _ _ hok m hm)
  rw [← hraw] at hread
  have hother : lastText (taken (ascii "from") ms) ≠ some role.name := by
    intro ht
    apply hne
    rw [stringField_eq _ _ _ hfrom, ht]
    rfl
  exact ⟨fun _ => .inl ⟨hturn, hother⟩, fun _ => hread⟩

/-- A client's `offer` in the usual spelling. -/
def plainOffer : Bytes := ascii "\x7b\"type\":\"offer\",\"from\":\"client\"\x7d"

theorem forwarded_reads_back_plain : ReadsBack .client ⟨.offer, plainOffer⟩ := by
  have h : forwardedFrame .later .client plainOffer = some ⟨.offer, plainOffer⟩ := by decide +kernel
  exact (forwarded_reads_back_iff .later .client plainOffer _ h).mpr (by decide +kernel)

/-- A client's `bye` that names the browser first and its own role under another
spelling of the key. -/
def disguisedBye : Bytes :=
  ascii "\x7b\"type\":\"bye\",\"from\":\"browser\",\"From\":\"client\"\x7d"

theorem disguised_bye_reads_browser :
    forwardedFrame .later .client disguisedBye = some ⟨.bye, disguisedBye⟩ ∧
      readString maxNestingDepth .first (ascii "from") disguisedBye = some Role.browser.name ∧
      ¬ ReadsBack .client ⟨.bye, disguisedBye⟩ := by
  have hread : readString maxNestingDepth .first (ascii "from") disguisedBye =
      some Role.browser.name := by decide +kernel
  refine ⟨by decide +kernel, hread, ?_⟩
  intro h
  have hclient := (h .first).1
  rw [hread] at hclient
  exact absurd hclient (by decide)

/-! ### Candidates -/

theorem isPrefixOf_print (v : Value) (hv : v.ok 9999 = true) (rest : Bytes) :
    (ascii "null").isPrefixOf (v.print ++ rest) = v.isNull := by
  cases v with
  | null => simp [print, isNull, ascii]
  | bool b => cases b <;> rw [print] <;> rfl
  | str | arr | obj => rw [print]; rfl
  | num literal =>
    cases literal with
    | nil => simp [ok, literalOk] at hv
    | cons b literal =>
      have hb : b ≠ 0x6e := by
        rintro rfl
        simp [ok, literalOk, numStart, isDigit] at hv
      rw [print]
      simp [ascii, isNull, List.isPrefixOf, hb.symm]

theorem hasICEData_marshal (role : Role) (v : Value) (hv : v.ok 9999 = true) :
    hasICEData (marshal ice.name role (some v)) = !v.isNull := by
  have hok := v.ok_escape 9999 hv
  have hnull : v.escape.isNull = v.isNull := by cases v <;> rw [escape] <;> rfl
  have hform : marshal ice.name role (some v) =
      ascii "\x7b\"type\":\"ice\",\"from\":\"" ++ role.name ++ ascii "\"," ++
        (ascii "\"data\"" ++ 0x3a :: (v.escape.print ++ [0x7d])) := by
    simp [marshal, marshalMembers, print, printMembers, name, ascii]
  obtain ⟨b, bs, hb, hspace, -⟩ := print_head 9999 v.escape hok
  have hafter : iceDataAfterKey (0x3a :: (v.escape.print ++ [0x7d])) = some (!v.isNull) := by
    rw [← hnull, ← isPrefixOf_print v.escape hok [0x7d], hb]
    simp_all [iceDataAfterKey, isSpace]
  have hkey (rest : Bytes) : hasICEData (ascii "\"data\"" ++ 0x3a :: rest) =
      (iceDataAfterKey (0x3a :: rest)).getD (hasICEData (ascii "data\"" ++ 0x3a :: rest)) := by
    cases h : iceDataAfterKey (0x3a :: rest) <;> simp [hasICEData, ascii, h]
  rw [hform]
  cases role <;> exact (hkey _).trans (by rw [hafter]; rfl)

/-- A line break before `null`. -/
def lateNull : Bytes := ascii "\x7b\"type\":\"ice\",\"from\":\"client\",\"data\":\nnull\x7d"

/-- The key of an inner object. -/
def innerKey : Bytes :=
  ascii "\x7b\"x\":\x7b\"data\":null\x7d,\"type\":\"ice\",\"from\":\"client\",\"data\":\"c\"\x7d"

end Chromeless.Signaling
