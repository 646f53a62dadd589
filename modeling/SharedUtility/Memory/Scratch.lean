import SharedUtility.Memory.Pool

/-!
# Memory.Scratch — the things that a computation has made so far

* `Adds before h pool contents` — the cells of `before` are as they were, and the things of the pool have
  cells of their own besides, which are all that has come into use,
* `Adds.create`, `Adds.change`, `Adds.delete`: a thing is made, changed or freed again,
* `Adds.returns`: a computation that leaves one of them has created it.
-/

namespace SharedUtility.Memory

variable {α X C : Type}

structure Adds (V : View α X C) (before h : Heap α) (pool : List X) (contents : List C) : Prop where
  represents : Represents V h pool contents
  kept : ∀ q v, before.cell q = some v → h.cell q = some v
  unused : ∀ x ∈ pool, before.cell (V.place x) = none
  nothingElse : ∀ q, (∀ x ∈ pool, q ≠ V.place x) → before.cell q = none → h.cell q = none
  failures : before.failures ≤ h.failures

namespace Adds

variable {V : View α X C} {before h h' : Heap α} {pool : List X} {contents : List C} {x x' : X} {c c' : C}
  {i : Nat}

theorem start (V : View α X C) (h : Heap α) : Adds V h h [] [] where
  represents := .nil V h
  kept _ _ hq := hq
  unused := nofun
  nothingElse _ _ hq := hq
  failures := Nat.le_refl _

theorem unused_of_cell (ha : Adds V before h pool contents) {p : Ptr} (hp : h.cell p = none) :
    before.cell p = none := by
  cases hcell : before.cell p with
  | none => rfl
  | some v =>
    rw [ha.kept p v hcell] at hp
    cases hp

theorem stays (ha : Adds V before h pool contents) {p p' : Ptr} (hh : Replaces h h' p p') {q : Ptr} (hne : q ≠ p')
    (hother : q ≠ p → ∀ x ∈ pool, q ≠ V.place x) (hq : before.cell q = none) : h'.cell q = none := by
  by_cases heq : q = p
  · exact hh.unused q hne (.inl heq)
  · exact hh.unused q hne (.inr (ha.nothingElse q (hother heq) hq))

theorem still (ha : Adds V before h pool contents) (hh : Replaces h h' none none) :
    Adds V before h' pool contents where
  represents := ha.represents.kept hh
  kept q v hq := hh.others q v (Heap.ne_none_of_cell hq) (ha.kept q v hq)
  unused := ha.unused
  nothingElse q hother hq := by
    by_cases hnull : q = none
    · rw [hnull]
      rfl
    · exact ha.stays hh hnull (fun _ => hother) hq
  failures := Nat.le_trans ha.failures hh.failures

theorem create (ha : Adds V before h pool contents) (hh : Replaces h h' none (V.place x))
    (hx : V.Holds h' x c) : Adds V before h' (pool ++ [x]) (contents ++ [c]) where
  represents := ha.represents.append hh hx
  kept q v hq := hh.others q v (Heap.ne_none_of_cell hq) (ha.kept q v hq)
  unused := by
    intro y hy
    rcases List.mem_append.1 hy with hy | hy
    · exact ha.unused y hy
    · rw [List.mem_singleton.1 hy]
      rcases hh.place with hnone | hnone | hdead
      · rw [hnone]
        rfl
      · rw [hnone]
        rfl
      · exact ha.unused_of_cell hdead
  nothingElse q hother hq :=
    ha.stays hh (hother x (List.mem_append_right pool (List.mem_singleton_self x)))
      (fun _ y hy => hother y (List.mem_append_left _ hy)) hq
  failures := Nat.le_trans ha.failures hh.failures

theorem change (ha : Adds V before h pool contents) (hx : pool[i]? = some x)
    (hh : Replaces h h' (V.place x) (V.place x')) (hx' : V.Holds h' x' c') :
    Adds V before h' (pool.set i x') (contents.set i c') where
  represents := ha.represents.set hx hh hx'
  kept q v hq := by
    refine hh.others q v ?_ (ha.kept q v hq)
    rintro rfl
    rw [ha.unused x (List.mem_of_getElem? hx)] at hq
    cases hq
  unused := by
    intro y hy
    rcases List.mem_or_eq_of_mem_set hy with hy | rfl
    · exact ha.unused y hy
    · rcases hh.place with hnone | hsame | hdead
      · rw [hnone]
        rfl
      · rw [hsame]
        exact ha.unused x (List.mem_of_getElem? hx)
      · exact ha.unused_of_cell hdead
  nothingElse q hother hq := by
    have hi := (List.getElem?_eq_some_iff.1 hx).1
    refine ha.stays hh (hother x' (List.mem_set hi x')) (fun hne y hy => ?_) hq
    by_cases heq : y = x
    · exact heq ▸ hne
    · rcases List.mem_iff_getElem?.1 hy with ⟨j, hj⟩
      have hji : i ≠ j := by
        rintro rfl
        exact heq (Option.some.inj (hj.symm.trans hx))
      exact hother y (List.mem_of_getElem? ((List.getElem?_set_ne hji).trans hj))
  failures := Nat.le_trans ha.failures hh.failures

theorem delete (ha : Adds V before h pool contents) (hx : pool[i]? = some x)
    (hh : Replaces h h' (V.place x) none) : Adds V before h' (pool.eraseIdx i) (contents.eraseIdx i) := by
  have hlength := ha.represents.length
  have hi := (List.getElem?_eq_some_iff.1 hx).1
  -- What is left stood behind what is gone, or in front of it.
  have hleft : ∀ {Y : Type} (l : List Y) (j : Nat) (y : Y), (l.eraseIdx i)[j]? = some y →
      l[if j < i then j else j + 1]? = some y := by
    intro Y l j y hy
    rw [List.getElem?_eraseIdx] at hy
    split_ifs at hy ⊢ with hj
    · exact hy
    · exact hy
  have hne : ∀ j : Nat, (if j < i then j else j + 1) ≠ i := by
    intro j
    split_ifs with hj
    · omega
    · omega
  constructor
  case represents =>
    constructor
    case length => rw [List.length_eraseIdx_of_lt hi, List.length_eraseIdx_of_lt (hlength ▸ hi), hlength]
    case holds =>
      intro j y d hy hd
      have hy' := hleft pool j y hy
      apply V.frame (ha.represents.holds _ y d hy' (hleft contents j d hd))
      intro v hv
      exact hh.others _ v (ha.represents.apart _ i y x (hne j) hy' hx (Heap.ne_none_of_cell hv)) hv
    case apart =>
      intro j k y z hjk hy hz hplace
      refine ha.represents.apart _ _ y z ?_ (hleft pool j y hy) (hleft pool k z hz) hplace
      split_ifs with hj hk
      all_goals omega
  case kept =>
    intro q v hq
    refine hh.others q v ?_ (ha.kept q v hq)
    rintro rfl
    rw [ha.unused x (List.mem_of_getElem? hx)] at hq
    cases hq
  case unused => exact fun y hy => ha.unused y (List.mem_of_mem_eraseIdx hy)
  case nothingElse =>
    intro q hother hq
    by_cases hnull : q = none
    · rw [hnull]
      rfl
    refine ha.stays hh hnull (fun hplace y hy => ?_) hq
    rcases List.mem_iff_getElem?.1 hy with ⟨j, hj⟩
    by_cases hji : j = i
    · rw [hji] at hj
      exact Option.some.inj (hj.symm.trans hx) ▸ hplace
    · exact hother y (List.mem_eraseIdx_iff_getElem?.2 ⟨j, hji, hj⟩)
  case failures => exact Nat.le_trans ha.failures hh.failures

theorem holds (ha : Adds V before h pool contents) (hx : pool[i]? = some x) (hc : contents[i]? = some c) :
    V.Holds h x c :=
  ha.represents.holds i x c hx hc

theorem returns (ha : Adds V before h [x] [c]) : Creates V before (some c) (some x) h :=
  .new rfl
    { others := fun q v _ hq => ha.kept q v hq
      unused := by
        intro q hne hq
        apply ha.nothingElse q fun y hy => List.mem_singleton.1 hy ▸ hne
        rcases hq with rfl | hdead
        · rfl
        · exact hdead
      place := .inr (.inr (ha.unused x (List.mem_singleton_self x)))
      failures := ha.failures }
    (ha.holds (i := 0) rfl rfl)

theorem returns_null (ha : Adds V before h [] []) {wanted : Option C}
    (hfailed : wanted = none ∨ before.failures < h.failures) : Creates V before wanted none h :=
  .null hfailed
    { others := fun q v _ hq => ha.kept q v hq
      unused := by
        rintro q - (rfl | hdead)
        · rfl
        · exact ha.nothingElse q nofun hdead
      place := .inl rfl
      failures := ha.failures }

end Adds

end SharedUtility.Memory
