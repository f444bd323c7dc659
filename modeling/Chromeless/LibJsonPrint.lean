import Chromeless.LibJsonSyntax

/-! Compact printing and its round trip. -/
namespace Chromeless.Json
open Value Option List

def bodyOk : StrState → Bytes → Bool
  | st, [] => st = .body
  | st, b :: bs => match strStep st b with
    | none => false
    | some st' => bodyOk st' bs

def numOk : NumState → Bytes → Bool
  | st, [] => st.complete
  | st, b :: bs => match numStep st b with
    | none => false
    | some st' => numOk st' bs

def literalOk : Bytes → Bool
  | [] => false
  | b :: bs => match numStart b with
    | none => false
    | some st => numOk st bs

mutual

/-- Well formed, with brackets nested at most `depth` deep. -/
def Value.ok : ℕ → Value → Bool
  | _, .null => true
  | _, .bool _ => true
  | _, .num literal => literalOk literal
  | _, .str body => bodyOk .body body
  | 0, .arr _ => false
  | depth+1, .arr items => itemsOk depth items
  | 0, .obj _ => false
  | depth+1, .obj members => membersOk depth members

def itemsOk : ℕ → List Value → Bool
  | _, [] => true
  | depth, v :: vs => v.ok depth && itemsOk depth vs

def membersOk : ℕ → List (Bytes × Value) → Bool
  | _, [] => true
  | depth, (key, v) :: ms => bodyOk .body key && v.ok depth && membersOk depth ms

end

mutual

def Value.print : Value → Bytes
  | .null => ascii "null"
  | .bool true => ascii "true"
  | .bool false => ascii "false"
  | .num literal => literal
  | .str body => 0x22 :: (body ++ [0x22])
  | .arr items => 0x5b :: printItems items
  | .obj members => 0x7b :: printMembers members

def printItems : List Value → Bytes
  | [] => [0x5d]
  | v :: [] => v.print ++ [0x5d]
  | v :: vs => v.print ++ 0x2c :: printItems vs

def printMembers : List (Bytes × Value) → Bytes
  | [] => [0x7d]
  | (key, v) :: [] => 0x22 :: (key ++ 0x22 :: 0x3a :: (v.print ++ [0x7d]))
  | (key, v) :: ms => 0x22 :: (key ++ 0x22 :: 0x3a :: (v.print ++ 0x2c :: printMembers ms))

end

theorem scanString_append (st : StrState) (body rest : Bytes) (h : bodyOk st body = true) :
    scanString st (body ++ 0x22 :: rest) = some (body, rest) := by
  induction body generalizing st with
  | nil =>
    have hst : st = .body := by simpa [bodyOk] using h
    simp [scanString, hst]
  | cons b body ih =>
    simp only [bodyOk] at h
    cases hs : strStep st b with
    | none => simp [hs] at h
    | some st' =>
      have hq : ¬(st = .body ∧ b = 0x22) := by
        rintro ⟨rfl, rfl⟩
        simp [strStep] at hs
      simp [scanString, hq, hs, ih st' (by simpa [hs] using h)]

theorem scanString_ok (st : StrState) (bs body rest : Bytes)
    (h : scanString st bs = some (body, rest)) : bodyOk st body = true := by
  induction bs generalizing st body with
  | nil => simp [scanString] at h
  | cons b bs ih =>
    by_cases hq : st = .body ∧ b = 0x22
    · obtain ⟨rfl, rfl⟩ := hq
      simp only [scanString, and_self, ↓reduceIte, Option.some.injEq, Prod.mk.injEq] at h
      simp [← h.1, bodyOk]
    cases hs : strStep st b with
    | none => simp [scanString, hq, hs] at h
    | some st' =>
      simp only [scanString, hq, hs, ↓reduceIte, map_eq_some_iff, Prod.exists, Prod.mk.injEq] at h
      obtain ⟨body', rest', hr, rfl, rfl⟩ := h
      simp [bodyOk, hs, ih st' body' hr]

def endsNumber (rest : Bytes) : Prop := ∀ b ∈ rest.head?, ∀ st, numStep st b = none

theorem endsNumber_nil : endsNumber [] := by
  intro b hb
  simp at hb

theorem endsNumber_delimiter (b : UInt8) (rest : Bytes) (hb : b ∈ ascii ",]\x7d") :
    endsNumber (b :: rest) := by
  have hall : ∀ b ∈ ascii ",]\x7d", ∀ st, numStep st b = none := by
    intro b hb st
    cases st <;> revert b <;> decide +kernel
  intro c hc
  obtain rfl : b = c := by simpa using hc
  exact hall b hb

theorem scanNumber_append (st : NumState) (literal rest : Bytes)
    (h : numOk st literal = true) (hr : endsNumber rest) :
    scanNumber st (literal ++ rest) = some (literal, rest) := by
  induction literal generalizing st with
  | nil =>
    have hc : st.complete = true := h
    cases rest with
    | nil => simp [scanNumber, hc]
    | cons b => simp [scanNumber, hr b rfl st, hc]
  | cons b literal ih =>
    simp only [numOk] at h
    cases hs : numStep st b with
    | none => simp [hs] at h
    | some st' => simp [scanNumber, hs, ih st' (by simpa [hs] using h)]

theorem scanNumber_ok (st : NumState) (bs literal rest : Bytes)
    (h : scanNumber st bs = some (literal, rest)) : numOk st literal = true := by
  induction bs generalizing st literal with
  | nil =>
    cases hc : st.complete <;> simp [scanNumber, hc] at h
    simp [h.1, numOk, hc]
  | cons b bs ih =>
    cases hs : numStep st b with
    | none =>
      cases hc : st.complete <;> simp [scanNumber, hs, hc] at h
      simp [h.1, numOk, hc]
    | some st' =>
      simp only [scanNumber, hs, map_eq_some_iff, Prod.exists, Prod.mk.injEq] at h
      obtain ⟨literal', rest', hr, rfl, rfl⟩ := h
      simp [numOk, hs, ih st' literal' hr]

variable (depth : ℕ)

theorem scanName_ok (name bs rest : Bytes) (v w : Value)
    (hv : v.ok depth = true) (h : scanName name v bs = some (w, rest)) : w.ok depth = true := by
  unfold scanName at h
  split at h
  · obtain ⟨rfl, rfl⟩ : v = w ∧ _ = rest := by simpa using h
    exact hv
  · simp at h

/-- Whatever the parser returns is well formed within the depth it was given. -/
theorem parsers_ok (fuel : ℕ) :
    (∀ depth bs v rest, parseValue fuel depth bs = some (v, rest) → v.ok depth = true) ∧
    (∀ depth bs ms rest, parseMembers fuel depth bs = some (ms, rest) → membersOk depth ms = true) ∧
    (∀ depth bs vs rest, parseItems fuel depth bs = some (vs, rest) → itemsOk depth vs = true) := by
  induction fuel with
  | zero => simp [parseValue, parseMembers, parseItems]
  | succ fuel ih =>
    obtain ⟨ihv, ihm, ihi⟩ := ih
    generalize hn : fuel+1 = n
    refine ⟨?_, ?_, ?_⟩ <;> intro depth bs
    · fun_cases parseValue n depth bs <;> cases hn
      case case12.refl | case13.refl | case14.refl => exact fun _ _ => scanName_ok _ _ _ _ _ _ (by simp [ok])
      all_goals simp [ok, membersOk, itemsOk]
      case case6.refl =>
        rintro _ _ ms hm rfl
        exact ihm _ _ _ _ hm
      case case10.refl =>
        rintro _ _ vs hi rfl
        exact ihi _ _ _ _ hi
      case case11.refl =>
        rintro _ _ body hb rfl
        simp [ok, scanString_ok _ _ _ _ hb]
      case case16.refl hst _ =>
        rintro _ _ literal hnum rfl
        simp [ok, literalOk, hst, scanNumber_ok _ _ _ _ hnum]
    · fun_cases parseMembers n depth bs <;> cases hn <;> simp
      case case9.refl hkey _ _ _ _ _ _ _ _ _ hv =>
        rintro _ _ ms hm rfl
        simp [membersOk, scanString_ok _ _ _ _ hkey, ihv _ _ _ _ hv, ihm _ _ _ _ hm]
      case case10.refl hkey _ _ _ _ _ _ _ _ _ _ hv => simp [membersOk, scanString_ok _ _ _ _ hkey, ihv _ _ _ _ hv]
    · fun_cases parseItems n depth bs <;> cases hn <;> simp
      case case4.refl hv =>
        rintro _ _ vs hi rfl
        simp [itemsOk, ihv _ _ _ _ hv, ihi _ _ _ _ hi]
      case case5.refl hv => simp [itemsOk, ihv _ _ _ _ hv]

theorem parse_ok (bs : Bytes) (v : Value) (h : parse depth bs = some v) :
    v.ok depth = true := by
  unfold parse at h
  split at h
  · simp at h
  rename_i w rest hw
  split at h
  · obtain rfl : w = v := by simpa using h
    exact (parsers_ok _).1 _ _ _ _ hw
  · simp at h

theorem numStart_some (b : UInt8) (st : NumState) (h : numStart b = some st) :
    b ∉ ascii "\x7b[\"ntf]" ∧ isSpace b = false := by
  have hd : b = 0x2d ∨ isDigit b = true := by
    by_contra hn
    obtain ⟨hneg, hdig⟩ := not_or.mp hn
    have hz : b ≠ 0x30 := by
      rintro rfl
      exact hdig (by decide)
    simp [numStart, hneg, hz, hdig] at h
  rcases hd with rfl | hd
  · decide
  have hall : ∀ b ∈ ascii "\x7b[\"ntf] \t\r\n", isDigit b = false := by decide +kernel
  refine ⟨?_, ?_⟩
  · intro hb
    have hsub : ascii "\x7b[\"ntf]" ⊆ ascii "\x7b[\"ntf] \t\r\n" := by decide
    have := hall b (hsub hb)
    simp [hd] at this
  · by_contra hs
    have := hall b (by
      simp only [isSpace, Bool.not_eq_false, Bool.or_eq_true, beq_iff_eq] at hs
      obtain ((rfl | rfl) | rfl) | rfl := hs <;> decide)
    simp [hd] at this

theorem print_head (v : Value) (hv : v.ok depth = true) :
    ∃ b bs, v.print = b :: bs ∧ isSpace b = false ∧ b ≠ 0x5d := by
  cases v with
  | null => exact ⟨_, _, by rw [print]; rfl, by decide, by decide⟩
  | bool b => cases b <;> exact ⟨_, _, by rw [print]; rfl, by decide, by decide⟩
  | str | arr | obj => exact ⟨_, _, by rw [print], by decide, by decide⟩
  | num literal =>
    cases literal with
    | nil => simp [ok, literalOk] at hv
    | cons b literal =>
      cases hb : numStart b with
      | none => simp [ok, literalOk, hb] at hv
      | some st =>
        obtain ⟨hne, hs⟩ := numStart_some b st hb
        refine ⟨b, literal, by rw [print], hs, ?_⟩
        rintro rfl
        exact hne (by decide)

theorem printItems_head (v : Value) (vs : List Value) (h : itemsOk depth (v :: vs) = true) :
    ∃ b bs, printItems (v :: vs) = b :: bs ∧ isSpace b = false ∧ b ≠ 0x5d := by
  simp only [itemsOk, Bool.and_eq_true] at h
  obtain ⟨b, bs, hb, hs, hne⟩ := print_head depth v h.1
  cases vs with
  | nil => exact ⟨b, bs ++ [0x5d], by simp [printItems, hb], hs, hne⟩
  | cons w vs => exact ⟨b, bs ++ 0x2c :: printItems (w :: vs), by simp [printItems, hb], hs, hne⟩

theorem printMembers_head (key : Bytes) (v : Value) (ms : List (Bytes × Value)) :
    ∃ bs, printMembers ((key, v) :: ms) = 0x22 :: bs := by
  cases ms with
  | nil => exact ⟨_, by rw [printMembers]⟩
  | cons => exact ⟨_, by rw [printMembers]; simp⟩

theorem skipSpace_cons (b : UInt8) (bs : Bytes) (h : isSpace b = false) :
    skipSpace (b :: bs) = b :: bs := by
  simp [skipSpace, h]

theorem parseValue_num (fuel depth : ℕ) (literal rest : Bytes) (h : literalOk literal = true) (hr : endsNumber rest) :
    parseValue (fuel+1) depth (literal ++ rest) = some (.num literal, rest) := by
  cases literal with
  | nil => simp [literalOk] at h
  | cons b literal =>
    cases hb : numStart b with
    | none => simp [literalOk, hb] at h
    | some st =>
      obtain ⟨hne, hs⟩ := numStart_some b st hb
      have hn : numOk st literal = true := by simpa [literalOk, hb] using h
      have hst (c : UInt8) (hc : c ∈ ascii "\x7b[\"ntf]") : b ≠ c := by
        rintro rfl
        exact hne hc
      rw [cons_append, parseValue, skipSpace_cons b _ hs]
      simp [hst 0x7b (by decide), hst 0x5b (by decide), hst 0x22 (by decide),
        hst 0x6e (by decide), hst 0x74 (by decide), hst 0x66 (by decide), hb,
        scanNumber_append st literal rest hn hr]

mutual

/-- A well formed value is read back from its printed bytes, whatever follows them. -/
theorem parseValue_print : ∀ (fuel depth : ℕ) (v : Value) (rest : Bytes),
    v.ok depth = true → v.print.length < fuel → endsNumber rest →
    parseValue fuel depth (v.print ++ rest) = some (v, rest)
  | 0, _, v, _, _, hf, _ => by simp at hf
  | fuel+1, depth, .null, rest, _, _, _ => by
    rw [parseValue]
    simp [print, ascii, skipSpace, isSpace, scanName]
  | fuel+1, depth, .bool true, rest, _, _, _ => by
    rw [parseValue]
    simp [print, ascii, skipSpace, isSpace, scanName]
  | fuel+1, depth, .bool false, rest, _, _, _ => by
    rw [parseValue]
    simp [print, ascii, skipSpace, isSpace, scanName]
  | fuel+1, depth, .num literal, rest, hv, _, hr => by exact parseValue_num fuel depth literal rest hv hr
  | fuel+1, depth, .str body, rest, hv, _, _ => by
    rw [parseValue]
    simp [print, skipSpace, isSpace, scanString_append .body body rest hv]
  | fuel+1, 0, .arr items, rest, hv, _, _ => by simp [ok] at hv
  | fuel+1, depth+1, .arr [], rest, hv, hf, _ => by
    rw [parseValue]
    simp [print, printItems, skipSpace, isSpace]
  | fuel+1, depth+1, .arr (v :: vs), rest, hv, hf, _ => by
    simp only [print, length_cons] at hf
    have hitems := parseItems_print fuel depth v vs rest hv (by omega)
    obtain ⟨b, bs, hb, hs, hne⟩ := printItems_head depth v vs hv
    rw [hb, cons_append] at hitems
    rw [print, cons_append, parseValue, skipSpace_cons _ _ (by decide), hb]
    simp [skipSpace_cons b (bs ++ rest) hs, hne, hitems]
  | fuel+1, 0, .obj members, rest, hv, _, _ => by simp [ok] at hv
  | fuel+1, depth+1, .obj [], rest, hv, hf, _ => by
    rw [parseValue]
    simp [print, printMembers, skipSpace, isSpace]
  | fuel+1, depth+1, .obj ((key, v) :: ms), rest, hv, hf, _ => by
    simp only [print, length_cons] at hf
    have hmemb := parseMembers_print fuel depth key v ms rest hv (by omega)
    obtain ⟨bs, hb⟩ := printMembers_head key v ms
    rw [hb, cons_append] at hmemb
    rw [parseValue]
    simp [print, hb, skipSpace, isSpace, hmemb]

theorem parseItems_print : ∀ (fuel depth : ℕ) (v : Value) (vs : List Value) (rest : Bytes),
    itemsOk depth (v :: vs) = true → (printItems (v :: vs)).length < fuel →
    parseItems fuel depth (printItems (v :: vs) ++ rest) = some (v :: vs, rest)
  | 0, _, v, vs, _, _, hf => by simp at hf
  | fuel+1, depth, v, [], rest, hv, hf => by
    simp only [itemsOk, Bool.and_eq_true] at hv
    simp only [printItems, length_append, length_cons] at hf
    have hval := parseValue_print fuel depth v (0x5d :: rest) hv.1 (by omega) (endsNumber_delimiter _ _ (by decide))
    rw [parseItems]
    simp [printItems, hval, skipSpace, isSpace]
  | fuel+1, depth, v, w :: vs, rest, hv, hf => by
    simp only [itemsOk, Bool.and_eq_true] at hv
    simp only [printItems, length_append, length_cons] at hf
    have hval := parseValue_print fuel depth v (0x2c :: (printItems (w :: vs) ++ rest)) hv.1
      (by omega) (endsNumber_delimiter _ _ (by decide))
    have hitems := parseItems_print fuel depth w vs rest (by simp [itemsOk, hv.2]) (by omega)
    rw [parseItems]
    simp [printItems, hval, hitems, skipSpace, isSpace]

theorem parseMembers_print : ∀ (fuel depth : ℕ) (key : Bytes) (v : Value) (ms : List (Bytes × Value)) (rest : Bytes),
    membersOk depth ((key, v) :: ms) = true → (printMembers ((key, v) :: ms)).length < fuel →
    parseMembers fuel depth (printMembers ((key, v) :: ms) ++ rest) = some ((key, v) :: ms, rest)
  | 0, _, key, v, ms, _, _, hf => by simp at hf
  | fuel+1, depth, key, v, [], rest, hv, hf => by
    simp only [membersOk, Bool.and_eq_true] at hv
    simp only [printMembers, length_append, length_cons] at hf
    have hval := parseValue_print fuel depth v (0x7d :: rest) hv.1.2 (by omega) (endsNumber_delimiter _ _ (by decide))
    have hkey := scanString_append .body key (0x3a :: (v.print ++ 0x7d :: rest)) hv.1.1
    rw [parseMembers]
    simp [printMembers, hkey, hval, skipSpace, isSpace]
  | fuel+1, depth, key, v, (key', w) :: ms, rest, hv, hf => by
    simp only [membersOk, Bool.and_eq_true] at hv
    simp only [printMembers, length_append, length_cons] at hf
    have hval := parseValue_print fuel depth v
      (0x2c :: (printMembers ((key', w) :: ms) ++ rest)) hv.1.2 (by omega)
      (endsNumber_delimiter _ _ (by decide))
    have hkey := scanString_append .body key
      (0x3a :: (v.print ++ 0x2c :: (printMembers ((key', w) :: ms) ++ rest))) hv.1.1
    have hmemb := parseMembers_print fuel depth key' w ms rest (by simp [membersOk, hv.2]) (by omega)
    rw [parseMembers]
    simp [printMembers, hkey, hval, hmemb, skipSpace, isSpace]

end

theorem parse_print (depth : ℕ) (v : Value) (hv : v.ok depth = true) :
    parse depth v.print = some v := by
  have h := parseValue_print (v.print.length+1) depth v [] hv (by omega) endsNumber_nil
  rw [append_nil] at h
  simp [parse, h, skipSpace]

end Chromeless.Json
