import Mathlib.Data.List.Basic

/-! Lexical processing of slash-separated paths, as Go's `path/filepath` does it on Unix. -/
namespace Chromeless.Path
open List

abbrev Text := List Char

def dot : Text := ['.']

def dotdot : Text := ['.', '.']

def rooted (s : Text) : Bool := s.head? = some '/'

def enter (rooted : Bool) (before : List Text) (e : Text) : List Text :=
  if e = [] ∨ e = dot then before
  else if e = dotdot then
    match before with
    | [] => if rooted then [] else [dotdot]
    | last :: rest => if last = dotdot then dotdot :: before else rest
  else e :: before

/-- The elements that are left when empty ones, `.` and inner `..` are eliminated. -/
def elements (s : Text) : List Text := ((s.splitOn '/').foldl (enter (rooted s)) []).reverse

def render (rooted : Bool) (es : List Text) : Text :=
  if rooted then '/' :: ['/'].intercalate es
  else if es = [] then dot else ['/'].intercalate es

def clean (s : Text) : Text := render (rooted s) (elements s)

def join (es : List Text) : Text :=
  match es.dropWhile (· = []) with
  | [] => []
  | es' => clean (['/'].intercalate es')

def base (s : Text) : Text :=
  if s = [] then dot
  else
    -- trailing separators go first
    match s.reverse.dropWhile (· = '/') with
    | [] => ['/']
    | rest => (rest.takeWhile (· ≠ '/')).reverse

/-! ### Children of a directory -/

structure IsName (e : Text) : Prop where
  ne_nil : e ≠ []
  ne_dot : e ≠ dot
  ne_dotdot : e ≠ dotdot
  no_slash : '/' ∉ e

def child (dir name : Text) : Text := render (rooted dir) (elements dir ++ [name])

def IsChild (dir path : Text) : Prop := ∃ name, IsName name ∧ path = child dir name

theorem enter_name {e : Text} (he : IsName e) (r : Bool) (before : List Text) :
    enter r before e = e :: before := by
  simp [enter, he.ne_nil, he.ne_dot, he.ne_dotdot]

theorem elements_snoc {dir name : Text} (hdir : dir ≠ []) (hname : IsName name) :
    elements (dir ++ '/' :: name) = elements dir ++ [name] := by
  have hroot : rooted (dir ++ '/' :: name) = rooted dir := by rw [rooted, rooted, head?_append_of_ne_nil _ hdir]
  rw [elements, elements, splitOn_append_cons_self, splitOn_eq_singleton hname.no_slash,
    foldl_append, foldl_cons, foldl_nil, enter_name hname, hroot,
    reverse_cons]

theorem join_name (dir : Text) {name : Text} (hname : IsName name) :
    join [dir, name] = child dir name := by
  by_cases hdir : dir = []
  · subst hdir
    have hhead : rooted name = false := by
      cases name with
      | nil => rfl
      | cons c =>
        have hc : '/' ≠ c := fun h => hname.no_slash (h ▸ mem_cons_self)
        simp [rooted, Ne.symm hc]
    have helem : elements name = [name] := by
      rw [elements, splitOn_eq_singleton hname.no_slash, foldl_cons, foldl_nil, enter_name hname]
      rfl
    have hjoin : join [[], name] = clean name := by simp [join, hname.ne_nil]
    rw [hjoin, clean, hhead, helem]
    rfl
  · have hjoin : join [dir, name] = clean (dir ++ '/' :: name) := by simp [join, hdir, intercalate_cons_cons]
    rw [hjoin, clean, elements_snoc hdir hname, child]
    congr 1
    rw [rooted, rooted, head?_append_of_ne_nil _ hdir]

theorem exists_child_eq_append (dir : Text) : ∃ front, ∀ name, child dir name = front ++ name := by
  have hsnoc : ∀ es : List Text, ∃ front, ∀ name, ['/'].intercalate (es ++ [name]) = front ++ name := by
    intro es
    induction es with
    | nil => exact ⟨[], fun name => by simp⟩
    | cons e es ih =>
      obtain ⟨front, hfrt⟩ := ih
      refine ⟨e ++ '/' :: front, ?_⟩
      intro name
      have hne : es ++ [name] ≠ [] := by simp
      rw [cons_append, intercalate_cons_of_ne_nil hne, hfrt]
      simp
  obtain ⟨front, hfrt⟩ := hsnoc (elements dir)
  cases hr : rooted dir with
  | true => exact ⟨'/' :: front, fun name => by simp [child, render, hr, hfrt]⟩
  | false => exact ⟨front, fun name => by simp [child, render, hr, hfrt]⟩

theorem child_injective (dir : Text) : Function.Injective (child dir) := by
  obtain ⟨front, hfrt⟩ := exists_child_eq_append dir
  intro name name' h
  rw [hfrt, hfrt] at h
  exact append_cancel_left h

end Chromeless.Path
