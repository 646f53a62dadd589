import Mathlib.Data.List.Nodup
import Mathlib.Logic.Function.Basic
import SharedUtility.Memory.Heap

/-!
# Memory.Segment — singly linked cells

`Segment cells p items q` says that the cells from `p` on hold `items`, each with its address, and that
the link of the last one is `q`.
-/

namespace SharedUtility.Memory

variable {α : Type} {cells cells' : Nat → Option (α × Ptr)} {p q q' : Ptr} {a : Nat} {value : α}
variable {items items' : List (Nat × α)}

/-- The cells from `p` to `q`; a cell that is not allocated has no value. -/
def Segment (cells : Nat → Option (α × Ptr)) : Ptr → List (Nat × α) → Ptr → Prop
  | p, [], q => p = q
  | p, (a, value) :: items, q =>
    p = some a ∧ ∃ next, cells a = some (value, next) ∧ Segment cells next items q

/-- The addresses of cells. -/
def handles (items : List (Nat × α)) : List Nat :=
  items.map Prod.fst

@[simp] theorem handles_nil : handles ([] : List (Nat × α)) = [] := rfl
@[simp] theorem handles_cons (item : Nat × α) :
    handles (item :: items) = item.1 :: handles items := rfl
@[simp] theorem handles_append : handles (items ++ items') = handles items ++ handles items' :=
  List.map_append

/-- The address of the last cell, or NULL. -/
def lastHandle (items : List (Nat × α)) : Ptr :=
  (handles items).getLast?

@[simp] theorem lastHandle_nil : lastHandle ([] : List (Nat × α)) = none := rfl
@[simp] theorem lastHandle_concat : lastHandle (items ++ [(a, value)]) = some a := by
  simp [lastHandle]

namespace Segment

theorem append :
    Segment cells p (items ++ items') q ↔ ∃ m, Segment cells p items m ∧ Segment cells m items' q := by
  induction items generalizing p with
  | nil =>
    constructor
    · intro h
      exact ⟨p, rfl, h⟩
    · rintro ⟨m, rfl, h⟩
      exact h
  | cons item items ih =>
    rcases item with ⟨a, value⟩
    constructor
    · rintro ⟨rfl, next, hcell, hrest⟩
      rcases ih.1 hrest with ⟨m, hfirst, hsecond⟩
      exact ⟨m, ⟨rfl, next, hcell, hfirst⟩, hsecond⟩
    · rintro ⟨m, ⟨rfl, next, hcell, hfirst⟩, hsecond⟩
      exact ⟨rfl, next, hcell, ih.2 ⟨m, hfirst, hsecond⟩⟩

theorem congr (h : Segment cells p items q) (hcells : ∀ a ∈ handles items, cells' a = cells a) :
    Segment cells' p items q := by
  induction items generalizing p with
  | nil => exact h
  | cons item items ih =>
    rcases item with ⟨a, value⟩
    rcases h with ⟨rfl, next, hcell, hrest⟩
    refine ⟨rfl, next, ?_, ih hrest fun b hb => hcells b (List.mem_cons_of_mem _ hb)⟩
    rw [hcells a (List.mem_cons_self ..)]
    exact hcell

theorem update (h : Segment cells p items q) (ha : a ∉ handles items)
    (content : Option (α × Ptr)) : Segment (Function.update cells a content) p items q := by
  apply h.congr
  intro b hb
  have hne : b ≠ a := by
    rintro rfl
    exact ha hb
  rw [Function.update_apply, if_neg hne]

theorem relink (h : Segment cells p (items ++ [(a, value)]) q)
    (hnodup : (handles (items ++ [(a, value)])).Nodup) (q' : Ptr) :
    Segment (Function.update cells a (some (value, q'))) p (items ++ [(a, value)]) q' := by
  rcases append.1 h with ⟨m, hfront, rfl, next, hcell, -⟩
  have ha : a ∉ handles items := by
    rw [handles_append] at hnodup
    intro hmem
    exact List.disjoint_of_nodup_append hnodup hmem (List.mem_cons_self ..)
  refine append.2 ⟨some a, hfront.update ha _, rfl, q', ?_, rfl⟩
  rw [Function.update_self]

theorem cell (h : Segment cells p items q) (hmem : (a, value) ∈ items) :
    ∃ next, cells a = some (value, next) := by
  rcases List.append_of_mem hmem with ⟨front, back, rfl⟩
  rcases append.1 h with ⟨_, _, _, next, hcell, _⟩
  exact ⟨next, hcell⟩

theorem next (h : Segment cells p (items ++ (a, value) :: items') none) :
    cells a = some (value, (handles items').head?) := by
  rcases append.1 h with ⟨_, -, -, next, hcell, hrest⟩
  cases items' with
  | nil =>
    have hend : next = none := hrest
    rw [hcell, hend]
    rfl
  | cons item items' =>
    have hstart : next = some item.1 := hrest.1
    rw [hcell, hstart]
    rfl

theorem start (h : Segment cells p items none) : p = (handles items).head? := by
  cases items with
  | nil => exact h
  | cons item items => exact h.1

end Segment

end SharedUtility.Memory
