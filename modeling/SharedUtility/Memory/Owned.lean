import SharedUtility.Memory.Heap

/-!
# Memory.Owned — the cells that have been added to a heap

* `Owns before h owned` — `h` is `before` with the cells of `owned` added, and nothing else is different,
* `Freed` — a pointer to a cell that has been freed.

A computation whose heap owns nothing in the end has freed all that it has allocated.
-/

namespace SharedUtility.Memory

variable {α β : Type}

/-- The pointer is to a cell that has been freed. -/
def Heap.Freed (h : Heap α) (p : Ptr) : Prop :=
  ∃ a, p = some a ∧ h.cells[a]? = some none

/-- The cells of `owned`, at places of their own, are what `h` has and `before` has not. -/
structure Owns (before h : Heap α) (owned : List (Ptr × α)) : Prop where
  nodup : (owned.map Prod.fst).Nodup
  unused : ∀ e ∈ owned, before.cell e.1 = none
  holds : ∀ e ∈ owned, h.cell e.1 = some e.2
  others : ∀ q, q ∉ owned.map Prod.fst → h.cell q = before.cell q

section

variable {before h : Heap α} {owned owned' : List (Ptr × α)} {p : Ptr} {a : Nat} {v w : α}

theorem Owns.nil (h : Heap α) : Owns h h [] :=
  ⟨List.nodup_nil, nofun, nofun, fun _ _ => rfl⟩

theorem Owns.same (ho : Owns before h []) (q : Ptr) : h.cell q = before.cell q :=
  ho.others q List.not_mem_nil

theorem Owns.perm (ho : Owns before h owned) (hperm : owned.Perm owned') : Owns before h owned' where
  nodup := (hperm.map Prod.fst).nodup_iff.1 ho.nodup
  unused e he := ho.unused e (hperm.mem_iff.2 he)
  holds e he := ho.holds e (hperm.mem_iff.2 he)
  others q hq := ho.others q fun hmem => hq ((hperm.map Prod.fst).mem_iff.1 hmem)

theorem Owns.push (ho : Owns before h owned) (v : α) :
    Owns before (h.push v) ((h.fresh, v) :: owned) := by
  have hfresh : h.fresh ∉ owned.map Prod.fst := by
    intro hmem
    rcases List.mem_map.1 hmem with ⟨e, he, hplace⟩
    have hlive := ho.holds e he
    rw [hplace, Heap.cell_fresh] at hlive
    cases hlive
  constructor
  case nodup => exact List.nodup_cons.2 ⟨hfresh, ho.nodup⟩
  case unused =>
    intro e he
    rcases List.mem_cons.1 he with rfl | he
    · exact (ho.others _ hfresh).symm.trans Heap.cell_fresh
    · exact ho.unused e he
  case holds =>
    intro e he
    rcases List.mem_cons.1 he with rfl | he
    · exact Heap.cell_push_fresh
    · exact Heap.cell_push_of_live (ho.holds e he)
  case others =>
    intro q hq
    rw [List.map_cons, List.mem_cons, not_or] at hq
    rw [Heap.cell_push_of_ne hq.1]
    exact ho.others q hq.2

theorem Owns.clear (ho : Owns before h ((some a, v) :: owned)) : Owns before (h.clear a) owned := by
  have hnodup := List.nodup_cons.1 ho.nodup
  constructor
  case nodup => exact hnodup.2
  case unused => exact fun e he => ho.unused e (List.mem_cons_of_mem _ he)
  case holds =>
    intro e he
    have hne : e.1 ≠ some a := by
      intro heq
      have hmem : e.1 ∈ owned.map Prod.fst := List.mem_map_of_mem he
      rw [heq] at hmem
      exact hnodup.1 hmem
    rw [Heap.cell_clear, if_neg hne]
    exact ho.holds e (List.mem_cons_of_mem _ he)
  case others =>
    intro q hq
    rw [Heap.cell_clear]
    split_ifs with hqa
    · rw [hqa]
      exact (ho.unused (some a, v) (List.mem_cons_self ..)).symm
    · apply ho.others
      rw [List.map_cons, List.mem_cons, not_or]
      exact ⟨hqa, hq⟩

theorem Owns.store (ho : Owns before h ((some a, v) :: owned)) (w : α) :
    Owns before (h.store a w) ((some a, w) :: owned) := by
  have hnodup := List.nodup_cons.1 ho.nodup
  have hlive := ho.holds (some a, v) (List.mem_cons_self ..)
  constructor
  case nodup => exact ho.nodup
  case unused =>
    intro e he
    rcases List.mem_cons.1 he with rfl | he
    · exact ho.unused (some a, v) (List.mem_cons_self ..)
    · exact ho.unused e (List.mem_cons_of_mem _ he)
  case holds =>
    intro e he
    rcases List.mem_cons.1 he with rfl | he
    · rw [Heap.cell_store hlive, if_pos rfl]
    · have hne : e.1 ≠ some a := by
        intro heq
        have hmem : e.1 ∈ owned.map Prod.fst := List.mem_map_of_mem he
        rw [heq] at hmem
        exact hnodup.1 hmem
      rw [Heap.cell_store hlive, if_neg hne]
      exact ho.holds e (List.mem_cons_of_mem _ he)
  case others =>
    intro q hq
    have hne : q ≠ some a := fun heq => hq (heq ▸ List.mem_cons_self ..)
    rw [Heap.cell_store hlive, if_neg hne]
    exact ho.others q hq

theorem Owns.place_ne (ho : Owns before h owned) (hp : (p, v) ∈ owned) : p ≠ none := by
  rintro rfl
  cases ho.holds _ hp

theorem Heap.not_freed_none : ¬ h.Freed none := by
  rintro ⟨a, heq, -⟩
  cases heq

theorem Heap.freed_clear (ha : h.cell (some a) = some v) : (h.clear a).Freed (some a) := by
  refine ⟨a, rfl, ?_⟩
  have hlength : a < h.cells.length := by
    by_contra hge
    rw [Heap.cell, List.getElem?_eq_none (Nat.le_of_not_lt hge)] at ha
    cases ha
  rw [Heap.clear, List.getElem?_set_self hlength]

/-! ## Rules -/

theorem meets_new_owned (ho : Owns before h owned) {Q : Ptr → Heap α → Prop}
    (hQ : ∀ p h', Owns before h' ((p, v) :: owned) → Q p h') : Meets (new v) h Q :=
  meets_new (hQ _ _ (ho.push v))

theorem meets_read_owned (ho : Owns before h owned) (hp : (p, v) ∈ owned) {Q : α → Heap α → Prop}
    (hQ : Q v h) : Meets (read p) h Q :=
  meets_read (ho.holds _ hp) hQ

theorem meets_free_owned (ho : Owns before h ((p, v) :: owned)) {Q : Unit → Heap α → Prop}
    (hQ : ∀ h', Owns before h' owned → h'.Freed p → Q () h') : Meets (free p) h Q := by
  have hlive := ho.holds _ (List.mem_cons_self ..)
  cases p with
  | none => cases hlive
  | some a => exact meets_free hlive (hQ _ ho.clear (Heap.freed_clear hlive))

theorem meets_write_owned (ho : Owns before h ((p, v) :: owned)) {Q : Unit → Heap α → Prop}
    (hQ : ∀ h', Owns before h' ((p, w) :: owned) → Q () h') : Meets (write p w) h Q := by
  have hlive := ho.holds _ (List.mem_cons_self ..)
  cases p with
  | none => cases hlive
  | some a => exact meets_write hlive (hQ _ (ho.store w))

end

end SharedUtility.Memory
