import Mathlib.Data.List.Basic
import Mathlib.Tactic.Common

/-!
# EqualParts — lists of parts that have one size, laid out one behind the other

* `AllOfSize` — the parts of a list have this size,
* `flatten_take`, `flatten_drop`, `part_at`: where a part starts in the layout,
* `parts` — a list cut into parts,
* `removeAt` — a list without some of its elements.
-/

namespace SharedUtility

variable {α : Type}

def AllOfSize (size : Nat) (xss : List (List α)) : Prop :=
  ∀ xs ∈ xss, xs.length = size

def parts (size : Nat) : (count : Nat) → List α → List (List α)
  | 0, _ => []
  | count + 1, xs => xs.take size :: parts size count (xs.drop size)

/-- The elements from an index on are removed, if there are as many. -/
def removeAt (i n : Nat) (xs : List α) : List α :=
  if i + n ≤ xs.length then xs.take i ++ xs.drop (i + n) else xs

section

variable {size i n : Nat} {xss yss : List (List α)} {xs : List α}

theorem allOfSize_append (h : AllOfSize size xss) (h' : AllOfSize size yss) : AllOfSize size (xss ++ yss) := by
  intro xs hxs
  rcases List.mem_append.1 hxs with hxs | hxs
  · exact h xs hxs
  · exact h' xs hxs

theorem AllOfSize.removeAt (h : AllOfSize size xss) (i n : Nat) : AllOfSize size (removeAt i n xss) := by
  rw [SharedUtility.removeAt]
  split_ifs
  · refine allOfSize_append (fun xs hxs => h xs (List.mem_of_mem_take hxs)) fun xs hxs => ?_
    exact h xs (List.mem_of_mem_drop hxs)
  · exact h

theorem AllOfSize.tail {xs : List α} (h : AllOfSize size (xs :: xss)) : AllOfSize size xss :=
  fun ys hys => h ys (List.mem_cons_of_mem _ hys)

theorem AllOfSize.length_flatten (h : AllOfSize size xss) : xss.flatten.length = size * xss.length := by
  induction xss with
  | nil => rfl
  | cons xs xss ih =>
    rw [List.flatten_cons, List.length_append, h xs (List.mem_cons_self ..), ih h.tail, List.length_cons,
      Nat.mul_succ, Nat.add_comm]

theorem flatten_take (h : AllOfSize size xss) (i : Nat) :
    xss.flatten.take (size * i) = (xss.take i).flatten := by
  induction xss generalizing i with
  | nil => rw [List.take_nil, List.flatten_nil, List.take_nil]
  | cons xs xss ih =>
    cases i with
    | zero => rw [Nat.mul_zero, List.take_zero, List.take_zero, List.flatten_nil]
    | succ i =>
      have hxs := h xs (List.mem_cons_self ..)
      rw [List.flatten_cons, List.take_succ_cons, List.flatten_cons, Nat.mul_succ, Nat.add_comm, ← hxs,
        List.take_length_add_append, hxs, ih h.tail]

theorem flatten_drop (h : AllOfSize size xss) (i : Nat) :
    xss.flatten.drop (size * i) = (xss.drop i).flatten := by
  induction xss generalizing i with
  | nil => rw [List.drop_nil, List.flatten_nil, List.drop_nil]
  | cons xs xss ih =>
    cases i with
    | zero => rw [Nat.mul_zero, List.drop_zero, List.drop_zero]
    | succ i =>
      have hxs := h xs (List.mem_cons_self ..)
      rw [List.flatten_cons, List.drop_succ_cons, Nat.mul_succ, Nat.add_comm, ← hxs,
        List.drop_length_add_append, hxs, ih h.tail]

theorem part_at (h : AllOfSize size xss) (hi : i < xss.length) :
    (xss.flatten.drop (size * i)).take size = xss[i] := by
  rw [flatten_drop h, List.drop_eq_getElem_cons hi, List.flatten_cons]
  exact List.take_left' (h _ (List.getElem_mem hi))

theorem length_parts (size count : Nat) (xs : List α) : (parts size count xs).length = count := by
  induction count generalizing xs with
  | zero => rfl
  | succ count ih => rw [parts, List.length_cons, ih]

theorem allOfSize_parts {count : Nat} (h : size * count ≤ xs.length) :
    AllOfSize size (parts size count xs) := by
  induction count generalizing xs with
  | zero => exact nofun
  | succ count ih =>
    rw [Nat.mul_succ] at h
    intro ys hys
    rcases List.mem_cons.1 hys with rfl | hys
    · rw [List.length_take]
      omega
    · refine ih ?_ ys hys
      rw [List.length_drop]
      omega

theorem flatten_parts (size count : Nat) (xs : List α) :
    (parts size count xs).flatten = xs.take (size * count) := by
  induction count generalizing xs with
  | zero => rfl
  | succ count ih =>
    rw [parts, List.flatten_cons, ih, Nat.mul_succ, Nat.add_comm, List.take_add]

theorem length_removeAt (h : i + n ≤ xs.length) : (removeAt i n xs).length = xs.length - n := by
  rw [removeAt, if_pos h, List.length_append, List.length_take, List.length_drop]
  omega

theorem flatten_removeAt (h : AllOfSize size xss) (hle : i + n ≤ xss.length) :
    (removeAt i n xss).flatten =
      xss.flatten.take (size * i) ++ xss.flatten.drop (size * (i + n)) := by
  rw [removeAt, if_pos hle, List.flatten_append, flatten_take h, flatten_drop h]

end

end SharedUtility
