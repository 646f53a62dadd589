import Mathlib.Data.List.Basic
import Mathlib.Tactic.Common

/-!
# Memory.Block — blocks that are written from their start on

A write behind the end of a block is undefined behaviour: `none`.
-/

namespace SharedUtility.Memory

variable {α : Type}

/-- A block, and what has been written to it so far. -/
structure Block (α : Type) where
  capacity : Nat
  written : List α
  fits : written.length ≤ capacity

namespace Block

def allocate (capacity : Nat) : Block α :=
  ⟨capacity, [], Nat.zero_le _⟩

@[simp] theorem allocate_capacity (capacity : Nat) :
    (allocate capacity : Block α).capacity = capacity := rfl
@[simp] theorem allocate_written (capacity : Nat) :
    (allocate capacity : Block α).written = [] := rfl

/-- What a block is when there is room for more. -/
def extend (block : Block α) (xs : List α)
    (h : block.written.length + xs.length ≤ block.capacity) : Block α :=
  ⟨block.capacity, block.written ++ xs, by rwa [List.length_append]⟩

@[simp] theorem extend_capacity (block : Block α) (xs : List α)
    (h : block.written.length + xs.length ≤ block.capacity) :
    (block.extend xs h).capacity = block.capacity := rfl
@[simp] theorem extend_written (block : Block α) (xs : List α)
    (h : block.written.length + xs.length ≤ block.capacity) :
    (block.extend xs h).written = block.written ++ xs := rfl

/-- The next place is written. -/
def put (block : Block α) (x : α) : Option (Block α) :=
  if h : block.written.length < block.capacity then some (block.extend [x] h) else none

/-- The next places are written, one after the other. -/
def putAll (block : Block α) (xs : List α) : Option (Block α) :=
  xs.foldlM put block

@[simp] theorem putAll_nil (block : Block α) : block.putAll [] = some block := rfl

theorem putAll_append (block : Block α) (xs ys : List α) :
    block.putAll (xs ++ ys) = (block.putAll xs).bind fun block => block.putAll ys :=
  List.foldlM_append

theorem putAll_eq (block : Block α) (xs : List α)
    (h : block.written.length + xs.length ≤ block.capacity) :
    block.putAll xs = some (block.extend xs h) := by
  induction xs generalizing block with
  | nil =>
    rcases block with ⟨capacity, written, fits⟩
    simp [extend]
  | cons x xs ih =>
    rw [List.length_cons] at h
    have hput : block.put x = some (block.extend [x] (by rw [List.length_singleton]; omega)) := by
      rw [put, dif_pos]
    have hroom : (block.extend [x] (by rw [List.length_singleton]; omega)).written.length +
        xs.length ≤ block.capacity := by
      rw [extend, List.length_append, List.length_singleton]
      omega
    change (block.put x).bind (fun block => block.putAll xs) = _
    rw [hput, Option.bind_some, ih _ hroom]
    simp [extend]

theorem length_putAll {block block' : Block α} {xs : List α} (h : block.putAll xs = some block') :
    block'.capacity = block.capacity ∧
      block'.written.length = block.written.length + xs.length := by
  induction xs generalizing block with
  | nil =>
    rw [putAll_nil, Option.some.injEq] at h
    subst h
    exact ⟨rfl, rfl⟩
  | cons x xs ih =>
    change (block.put x).bind (fun block => block.putAll xs) = _ at h
    rcases Option.bind_eq_some_iff.1 h with ⟨next, hput, hrest⟩
    rw [put] at hput
    split_ifs at hput with hroom
    rw [Option.some.injEq] at hput
    subst hput
    rcases ih hrest with ⟨hcapacity, hlength⟩
    rw [extend_written, List.length_append, List.length_singleton] at hlength
    rw [List.length_cons]
    exact ⟨hcapacity, by omega⟩

/-- What the block holds; where nothing is written it holds what it held before. -/
def content (block : Block α) (uninitialised : Nat → α) : List α :=
  (List.range block.capacity).map fun i => block.written.getD i (uninitialised i)

theorem content_eq (block : Block α) (uninitialised : Nat → α) :
    block.content uninitialised = block.written ++
      (List.range (block.capacity - block.written.length)).map fun i =>
        uninitialised (block.written.length + i) := by
  have hfits := block.fits
  apply List.ext_getElem
  · simp only [content, List.length_append, List.length_map, List.length_range]
    omega
  · intro i hi _
    rw [content, List.length_map, List.length_range] at hi
    simp only [content, List.getElem_map, List.getElem_range, List.getD_eq_getElem?_getD]
    rcases Nat.lt_or_ge i block.written.length with hlt | hge
    · rw [List.getElem_append_left hlt, List.getElem?_eq_getElem hlt, Option.getD_some]
    · rw [List.getElem_append_right hge, List.getElem?_eq_none hge, Option.getD_none,
        List.getElem_map, List.getElem_range]
      congr 1
      omega

theorem content_full (block : Block α) (uninitialised : Nat → α)
    (h : block.written.length = block.capacity) : block.content uninitialised = block.written := by
  rw [content_eq, h, Nat.sub_self, List.range_zero, List.map_nil, List.append_nil]

end Block

/-- A function that allocates: its result is `y` when all allocations succeed, as they do with `ok`, and
otherwise it may be NULL. -/
def Produces {A β : Type} (ok : A) (f : A → Option (Option β)) (y : β) : Prop :=
  f ok = some (some y) ∧ ∀ allocations, f allocations = some (some y) ∨ f allocations = some none

end SharedUtility.Memory
