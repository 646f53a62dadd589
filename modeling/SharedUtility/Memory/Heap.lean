import Mathlib.Algebra.GroupWithZero.Nat
import Mathlib.Data.List.Basic

/-!
# Memory.Heap — a heap whose allocations may fail

* `Heap α` — cells with values of type `α`, by address; a freed cell has no value,
* `HeapM α` — computations on it; `none` stands for undefined behaviour: the use of a cell that has
  been freed, or of a place beyond the end of an array,
* `Meets` — a computation is defined, and what it returns and leaves meets a condition.

Arrays are lists of slots that belong to whoever holds them.
-/

namespace SharedUtility.Memory

variable {α β γ : Type}

/-- NULL, or an address. -/
abbrev Ptr := Option Nat

structure Heap (α : Type) where
  cells : List (Option α) := []
  /-- Which allocations to come succeed; those after the end of the list do. -/
  outcomes : List Bool := []
  /-- How many allocations have failed. -/
  failures : Nat := 0
  /-- How many reallocations of an array to a smaller size have failed. -/
  shrinkFailures : Nat := 0

abbrev HeapM (α β : Type) := StateT (Heap α) Option β

namespace Heap

/-- The value of a cell that has not been freed. -/
def cell (h : Heap α) : Ptr → Option α
  | none => none
  | some a => (h.cells[a]?).join

/-- An allocation has succeeded. -/
def allocated (h : Heap α) : Heap α :=
  { h with outcomes := h.outcomes.tail }

/-- An allocation has failed. -/
def refused (h : Heap α) : Heap α :=
  { h with outcomes := h.outcomes.tail, failures := h.failures + 1 }

def push (h : Heap α) (value : α) : Heap α :=
  { h with cells := h.cells ++ [some value] }

def clear (h : Heap α) (a : Nat) : Heap α :=
  { h with cells := h.cells.set a none }

def store (h : Heap α) (a : Nat) (value : α) : Heap α :=
  { h with cells := h.cells.set a (some value) }

def shrinkRefused (h : Heap α) : Heap α :=
  { h with shrinkFailures := h.shrinkFailures + 1 }

end Heap

/-! ## Cells -/

/-- Whether the next allocation succeeds. -/
def allocate : HeapM α Bool :=
  fun h => if h.outcomes.headD true then some (true, h.allocated) else some (false, h.refused)

def new (value : α) : HeapM α Ptr :=
  fun h => some (some h.cells.length, h.push value)

def malloc (value : α) : HeapM α Ptr := do
  let ok ← allocate
  if ok then new value else pure none

def read (p : Ptr) : HeapM α α :=
  fun h => (h.cell p).map fun value => (value, h)

def free (p : Ptr) : HeapM α Unit :=
  fun h =>
    match p with
    | none => some ((), h)
    | some a => if (h.cell p).isSome then some ((), h.clear a) else none

def write (p : Ptr) (value : α) : HeapM α Unit :=
  fun h =>
    match p with
    | none => none
    | some a => if (h.cell p).isSome then some ((), h.store a value) else none

/-- `realloc` of a cell, which moves it, and the writing of the new value. -/
def realloc (p : Ptr) (value : α) : HeapM α Ptr := do
  let ok ← allocate
  if ok then do
    free p
    new value
  else pure none

/-! ## Arrays of pointers -/

/-- `realloc` of an array to `size` slots; NULL is the empty one, and new slots hold anything. -/
def reallocArray (array : Option (List Ptr)) (size : Nat) : HeapM α (Option (List Ptr)) := do
  let ok ← allocate
  let slots := array.getD []
  if ok then pure (some (slots.take size ++ List.replicate (size - slots.length) none))
  else do
    if size < slots.length then modify Heap.shrinkRefused
    pure none

def mallocArray (size : Nat) : HeapM α (Option (List Ptr)) := do
  let ok ← allocate
  if ok then pure (some (List.replicate size none)) else pure none

def readAt (array : Option (List Ptr)) (i : Nat) : HeapM α Ptr :=
  fun h => ((array.getD [])[i]?).map fun p => (p, h)

def writeAt (array : Option (List Ptr)) (i : Nat) (p : Ptr) : HeapM α (Option (List Ptr)) :=
  fun h =>
    if i < (array.getD []).length then some (some ((array.getD []).set i p), h) else none

/-- `memmove (array + i, array + i + 1, n)`. -/
def moveDown (array : Option (List Ptr)) (i n : Nat) : HeapM α (Option (List Ptr)) :=
  fun h =>
    let slots := array.getD []
    if i + 1 + n ≤ slots.length then
      some (some (slots.take i ++ (slots.drop (i + 1)).take n ++ slots.drop (i + n)), h)
    else none

/-! ## What the cells are after an operation -/

namespace Heap

variable {h : Heap α} {value : α} {p q : Ptr}

/-- The address that `new` returns. -/
def fresh (h : Heap α) : Ptr :=
  some h.cells.length

@[simp] theorem cell_fresh : h.cell h.fresh = none := by
  change (h.cells[h.cells.length]?).join = none
  rw [List.getElem?_eq_none (Nat.le_refl _)]
  rfl

theorem cell_push (p : Ptr) : (h.push value).cell p = if p = h.fresh then some value else h.cell p := by
  cases p with
  | none => rfl
  | some a =>
    unfold cell push fresh
    simp only [Option.some.injEq]
    rw [List.getElem?_append]
    split
    case isTrue hlt => rw [if_neg (by omega)]
    case isFalse hge =>
      split
      case isTrue heq =>
        subst heq
        simp
      case isFalse hne =>
        rw [List.getElem?_eq_none (by simp; omega), List.getElem?_eq_none (by omega)]

@[simp] theorem cell_push_fresh : (h.push value).cell h.fresh = some value := by
  rw [cell_push, if_pos rfl]

theorem cell_push_of_ne (hne : p ≠ h.fresh) : (h.push value).cell p = h.cell p := by
  rw [cell_push, if_neg hne]

theorem cell_push_of_live {v : α} (hlive : h.cell p = some v) : (h.push value).cell p = some v := by
  rw [cell_push_of_ne, hlive]
  rintro rfl
  rw [cell_fresh] at hlive
  cases hlive

theorem cell_clear (a : Nat) (p : Ptr) : (h.clear a).cell p = if p = some a then none else h.cell p := by
  cases p with
  | none => rfl
  | some b =>
    unfold cell clear
    simp only [Option.some.injEq]
    rw [List.getElem?_set]
    split
    case isTrue heq =>
      subst heq
      rw [if_pos rfl]
      split
      · rfl
      · rfl
    case isFalse hne => rw [if_neg (Ne.symm hne)]

theorem cell_store {a : Nat} {v : α} (hlive : h.cell (some a) = some v) (p : Ptr) :
    (h.store a value).cell p = if p = some a then some value else h.cell p := by
  have ha : a < h.cells.length := by
    by_contra hge
    have hnone : h.cell (some a) = none := by
      change (h.cells[a]?).join = none
      rw [List.getElem?_eq_none (Nat.le_of_not_lt hge)]
      rfl
    rw [hnone] at hlive
    cases hlive
  cases p with
  | none => rfl
  | some b =>
    unfold cell store
    simp only [Option.some.injEq]
    rw [List.getElem?_set]
    split
    case isTrue heq =>
      subst heq
      rw [if_pos rfl]
      rfl
    case isFalse hne => rw [if_neg (Ne.symm hne)]

/-! A cell is moved, and its value changed. -/

@[simp] theorem fresh_moved {a : Nat} : (h.allocated.clear a).fresh = h.fresh := by
  simp [fresh, clear, allocated]

theorem cell_moved_fresh {a : Nat} : ((h.allocated.clear a).push value).cell h.fresh = some value := by
  rw [cell_push, fresh_moved, if_pos rfl]

theorem cell_moved_of_live {a : Nat} {v : α} (hne : p ≠ some a) (hlive : h.cell p = some v) :
    ((h.allocated.clear a).push value).cell p = some v := by
  apply cell_push_of_live
  rw [cell_clear, if_neg hne]
  exact hlive

end Heap

/-! ## Computations that are defined -/

/-- The computation is defined from `h`, and meets `Q`. -/
def Meets (c : HeapM α β) (h : Heap α) (Q : β → Heap α → Prop) : Prop :=
  ∃ r h', c h = some (r, h') ∧ Q r h'

section

variable {h : Heap α} {Q Q' : β → Heap α → Prop}

theorem Meets.mono {c : HeapM α β} (hc : Meets c h Q) (himp : ∀ r h', Q r h' → Q' r h') :
    Meets c h Q' := by
  obtain ⟨r, h', heq, hQ⟩ := hc
  exact ⟨r, h', heq, himp r h' hQ⟩

theorem meets_pure {r : β} (hQ : Q r h) : Meets (pure r) h Q :=
  ⟨r, h, rfl, hQ⟩

theorem bind_eq_of_eq {c : HeapM α β} {f : β → HeapM α γ} {r : β} {h' : Heap α}
    (hc : c h = some (r, h')) : (c >>= f) h = f r h' := by
  change (c h).bind (fun x => f x.1 x.2) = f r h'
  rw [hc]
  rfl

theorem bind_eq_none {c : HeapM α β} (f : β → HeapM α γ) (hc : c h = none) : (c >>= f) h = none := by
  change (c h).bind (fun x => f x.1 x.2) = none
  rw [hc]
  rfl

theorem bind_eq_some {c : HeapM α β} {f : β → HeapM α γ} {r : γ × Heap α} (hc : (c >>= f) h = some r) :
    ∃ b h', c h = some (b, h') ∧ f b h' = some r := by
  rcases Option.bind_eq_some_iff.1 hc with ⟨⟨b, h'⟩, hfirst, hrest⟩
  exact ⟨b, h', hfirst, hrest⟩

theorem Meets.bind {c : HeapM α β} {f : β → HeapM α γ} {R : γ → Heap α → Prop}
    (hc : Meets c h fun r h' => Meets (f r) h' R) : Meets (c >>= f) h R := by
  obtain ⟨r, h', heq, r', h'', heq', hR⟩ := hc
  refine ⟨r', h'', ?_, hR⟩
  rw [bind_eq_of_eq heq]
  exact heq'

theorem meets_allocate {Q : Bool → Heap α → Prop} (hyes : Q true h.allocated)
    (hno : Q false h.refused) : Meets allocate h Q := by
  by_cases hok : h.outcomes.headD true = true
  · exact ⟨_, _, if_pos hok, hyes⟩
  · exact ⟨_, _, if_neg hok, hno⟩

theorem meets_new {value : α} {Q : Ptr → Heap α → Prop} (hQ : Q h.fresh (h.push value)) :
    Meets (new value) h Q :=
  ⟨_, _, rfl, hQ⟩

theorem meets_malloc {value : α} {Q : Ptr → Heap α → Prop}
    (hyes : Q h.allocated.fresh (h.allocated.push value)) (hno : Q none h.refused) :
    Meets (malloc value) h Q :=
  Meets.bind (meets_allocate (meets_new hyes) (meets_pure hno))

theorem meets_read {p : Ptr} {value : α} (hp : h.cell p = some value) {Q : α → Heap α → Prop}
    (hQ : Q value h) : Meets (read p) h Q := by
  refine ⟨value, h, ?_, hQ⟩
  unfold read
  rw [hp]
  rfl

theorem meets_free {a : Nat} {value : α} (hp : h.cell (some a) = some value)
    {Q : Unit → Heap α → Prop} (hQ : Q () (h.clear a)) : Meets (free (some a)) h Q := by
  refine ⟨(), h.clear a, ?_, hQ⟩
  simp only [free]
  rw [hp]
  rfl

theorem meets_write {a : Nat} {value value' : α} (hp : h.cell (some a) = some value)
    {Q : Unit → Heap α → Prop} (hQ : Q () (h.store a value')) :
    Meets (write (some a) value') h Q := by
  refine ⟨(), h.store a value', ?_, hQ⟩
  simp only [write]
  rw [hp]
  rfl

theorem meets_realloc {a : Nat} {value value' : α} (hp : h.cell (some a) = some value)
    {Q : Ptr → Heap α → Prop} (hyes : Q h.fresh ((h.allocated.clear a).push value'))
    (hno : Q none h.refused) : Meets (realloc (some a) value') h Q := by
  apply Meets.bind
  apply meets_allocate
  case hno => exact meets_pure hno
  case hyes =>
    have hlive : h.allocated.cell (some a) = some value := hp
    apply Meets.bind
    apply meets_free hlive
    apply meets_new
    rw [Heap.fresh_moved]
    exact hyes

theorem meets_reallocArray {array : Option (List Ptr)} {size : Nat}
    {Q : Option (List Ptr) → Heap α → Prop}
    (hyes : Q (some ((array.getD []).take size ++
      List.replicate (size - (array.getD []).length) none)) h.allocated)
    (hkept : ¬ size < (array.getD []).length → Q none h.refused)
    (hshrink : size < (array.getD []).length → Q none h.refused.shrinkRefused) :
    Meets (reallocArray array size) h Q := by
  apply Meets.bind
  apply meets_allocate
  case hyes => exact meets_pure hyes
  case hno =>
    simp only [Bool.false_eq_true, ↓reduceIte]
    by_cases hsize : size < (array.getD []).length
    · rw [if_pos hsize]
      exact ⟨_, _, rfl, hshrink hsize⟩
    · rw [if_neg hsize]
      exact ⟨_, _, rfl, hkept hsize⟩

theorem meets_mallocArray {size : Nat} {Q : Option (List Ptr) → Heap α → Prop}
    (hyes : Q (some (List.replicate size none)) h.allocated) (hno : Q none h.refused) :
    Meets (mallocArray size) h Q :=
  Meets.bind (meets_allocate (meets_pure hyes) (meets_pure hno))

theorem meets_readAt {array : Option (List Ptr)} {i : Nat} {p : Ptr}
    (hp : (array.getD [])[i]? = some p) {Q : Ptr → Heap α → Prop} (hQ : Q p h) :
    Meets (readAt array i) h Q := by
  refine ⟨p, h, ?_, hQ⟩
  unfold readAt
  rw [hp]
  rfl

theorem meets_writeAt {array : Option (List Ptr)} {i : Nat} {p : Ptr}
    (hi : i < (array.getD []).length) {Q : Option (List Ptr) → Heap α → Prop}
    (hQ : Q (some ((array.getD []).set i p)) h) : Meets (writeAt array i p) h Q :=
  ⟨_, _, if_pos hi, hQ⟩

theorem meets_moveDown {array : Option (List Ptr)} {i n : Nat}
    (hi : i + 1 + n ≤ (array.getD []).length) {Q : Option (List Ptr) → Heap α → Prop}
    (hQ : Q (some ((array.getD []).take i ++ ((array.getD []).drop (i + 1)).take n ++
      (array.getD []).drop (i + n))) h) : Meets (moveDown array i n) h Q :=
  ⟨_, _, if_pos hi, hQ⟩

end

end SharedUtility.Memory
