import Chromeless.LibJsonSyntax
import Mathlib.Algebra.Group.Nat.Defs
import Mathlib.Data.Rat.Defs

/-! JSON values as a program holds them. Members of an object are kept in the order of their names.
-/
namespace Chromeless.Json

/-- A value. A number is an integer or the bits of a double. -/
inductive Datum
  | null
  | boolean (b : Bool)
  | integer (n : ℤ)
  | double (bits : UInt64)
  | string (s : Bytes)
  | list (items : List Datum)
  | dict (members : List (Bytes × Datum))

abbrev Dict := List (Bytes × Datum)

mutual

def Datum.same : Datum → Datum → Bool
  | .null, .null => true
  | .boolean b, .boolean c => b == c
  | .integer m, .integer n => m == n
  | .double b, .double c => b == c
  | .string s, .string t => s == t
  | .list xs, .list ys => sameItems xs ys
  | .dict ms, .dict ns => sameMembers ms ns
  | _, _ => false

def sameItems : List Datum → List Datum → Bool
  | [], [] => true
  | x :: xs, y :: ys => x.same y && sameItems xs ys
  | _, _ => false

def sameMembers : Dict → Dict → Bool
  | [], [] => true
  | (k, x) :: ms, (l, y) :: ns => k == l && x.same y && sameMembers ms ns
  | _, _ => false

end

mutual

open Datum

theorem Datum.same_iff (x y : Datum) : x.same y = true ↔ x = y := by
  cases x with
  | list xs =>
    cases y with
    | list ys => rw [same, sameItems_iff xs ys, Datum.list.injEq]
    | _ => simp [same]
  | dict ms =>
    cases y with
    | dict ns => rw [same, sameMembers_iff ms ns, Datum.dict.injEq]
    | _ => simp [same]
  | _ => cases y <;> simp [same]

theorem sameItems_iff (xs ys : List Datum) : sameItems xs ys = true ↔ xs = ys := by
  cases xs with
  | nil => cases ys <;> simp [sameItems]
  | cons x xs =>
    cases ys with
    | nil => simp [sameItems]
    | cons y ys => rw [sameItems, Bool.and_eq_true, Datum.same_iff x y, sameItems_iff xs ys, List.cons.injEq]

theorem sameMembers_iff (ms ns : Dict) : sameMembers ms ns = true ↔ ms = ns := by
  match ms, ns with
  | [], [] => simp [sameMembers]
  | [], _ :: _ => simp [sameMembers]
  | _ :: _, [] => simp [sameMembers]
  | (k, x) :: ms, (l, y) :: ns =>
    rw [sameMembers, Bool.and_eq_true, Bool.and_eq_true, beq_iff_eq, Datum.same_iff x y,
      sameMembers_iff ms ns, List.cons.injEq, Prod.mk.injEq]

end

instance : DecidableEq Datum := fun x y => decidable_of_iff _ (x.same_iff y)

def Datum.getIfString : Datum → Option Bytes
  | .string s => some s
  | _ => none

def Datum.getIfInt : Datum → Option ℤ
  | .integer n => some n
  | _ => none

def doubleValue (bits : UInt64) : ℚ :=
  let fraction : ℕ := bits.toNat % 2^52
  let exponent : ℕ := bits.toNat / 2^52 % 2^11
  let sign : ℚ := if bits.toNat / 2^63 = 0 then 1 else -1
  if exponent = 0 then sign * fraction * 2^(-1074 : ℤ)
  else sign * (2^52 + fraction) * 2^((exponent : ℤ) - 1075)

def Datum.getIfDouble : Datum → Option ℚ
  | .integer n => some n
  | .double bits => some (doubleValue bits)
  | _ => none

namespace Dict

def find : Dict → Bytes → Option Datum
  | [], _ => none
  | (k, x) :: d, name => if name = k then some x else find d name

def findString (d : Dict) (name : Bytes) : Option Bytes := (d.find name).bind Datum.getIfString

def findInt (d : Dict) (name : Bytes) : Option ℤ := (d.find name).bind Datum.getIfInt

def findDouble (d : Dict) (name : Bytes) : Option ℚ := (d.find name).bind Datum.getIfDouble

def set (key : Bytes) (x : Datum) : Dict → Dict
  | [] => [(key, x)]
  | (k, y) :: d =>
    if key = k then (key, x) :: d
    else if key < k then (key, x) :: (k, y) :: d
    else (k, y) :: set key x d

@[simp] theorem find_set (d : Dict) (key : Bytes) (x : Datum) (name : Bytes) :
    find (set key x d) name = if name = key then some x else find d name := by
  induction d with
  | nil => rfl
  | cons m d ih =>
    obtain ⟨k, y⟩ := m
    rw [set]
    split
    next heq =>
      subst heq
      simp only [find]
      split <;> rfl
    next hne =>
      split
      · rfl
      rw [find, find, ih]
      by_cases hname : name = k
      · rw [if_pos hname, if_pos hname, if_neg (hname ▸ Ne.symm hne)]
      · rw [if_neg hname, if_neg hname]

end Dict

end Chromeless.Json
