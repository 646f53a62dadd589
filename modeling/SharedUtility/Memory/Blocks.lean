import SharedUtility.Memory.Heap

/-!
# Memory.Blocks — blocks of memory on the heap

A cell is a block: the list of its places, `none` where nothing has been written yet. To read or to
write behind the end of a block and to copy with `memcpy` between places that overlap is undefined
behaviour.
-/

namespace SharedUtility.Memory

variable {α β : Type}

/-- What a block holds. -/
abbrev Region (β : Type) := List (Option β)

/-- Whether the next allocation, of `size` places, succeeds where no block is longer than `limit`. -/
def Heap.grants (h : Heap α) (limit size : Nat) : Bool :=
  decide (size ≤ limit) && h.outcomes.headD true

/-- Undefined behaviour. -/
def undefined : HeapM α β :=
  fun _ => none

def allocateUpTo (limit size : Nat) : HeapM α Bool :=
  fun h => if h.grants limit size then some (true, h.allocated) else some (false, h.refused)

/-- A block that has just been allocated. -/
def unwritten (size : Nat) : Region β :=
  List.replicate size none

/-- The places that are kept when a block is given another size. -/
def resized (block : Region β) (size : Nat) : Region β :=
  block.take size ++ unwritten (size - block.length)

/-- The block after `xs` has been written to it. -/
def overwritten (block : Region β) (offset : Nat) (xs : Region β) : Region β :=
  block.take offset ++ xs ++ block.drop (offset + xs.length)

def mallocBlock (limit size : Nat) : HeapM (Region β) Ptr := do
  let ok ← allocateUpTo limit size
  if ok then new (unwritten size) else pure none

/-- `realloc` always moves the block. -/
def reallocBlock (limit : Nat) (p : Ptr) (size : Nat) : HeapM (Region β) Ptr := do
  let ok ← allocateUpTo limit size
  if ok then
    if p = none then new (unwritten size)
    else do
      let block ← read p
      free p
      new (resized block size)
  else pure none

/-- The `n` places from `offset` on are read. -/
def load (p : Ptr) (offset n : Nat) : HeapM (Region β) (Region β) := do
  let block ← read p
  if offset + n ≤ block.length then pure ((block.drop offset).take n) else undefined

/-- The places from `offset` on are written. -/
def store (p : Ptr) (offset : Nat) (xs : Region β) : HeapM (Region β) Unit := do
  let block ← read p
  if offset + xs.length ≤ block.length then write p (overwritten block offset xs) else undefined

/-- `memcpy (p + offset, q + from, n)`. -/
def memcpy (p : Ptr) (offset : Nat) (q : Ptr) (start n : Nat) : HeapM (Region β) Unit :=
  if n = 0 then pure ()
  else if p = q ∧ offset < start + n ∧ start < offset + n then undefined
  else do
    let xs ← load q start n
    store p offset xs

def memmove (p : Ptr) (offset : Nat) (q : Ptr) (start n : Nat) : HeapM (Region β) Unit := do
  let xs ← load q start n
  store p offset xs

/-- `memcpy (p + offset, source, n)` from memory that is not on the heap. -/
def copyIn (p : Ptr) (offset : Nat) (source : List β) (n : Nat) : HeapM (Region β) Unit :=
  if n ≤ source.length then store p offset ((source.take n).map some) else undefined

/-! ## What blocks hold -/

section

variable {block xs ys : Region β} {offset size n : Nat}

@[simp] theorem length_unwritten (size : Nat) : (unwritten size : Region β).length = size :=
  List.length_replicate

@[simp] theorem unwritten_zero : (unwritten 0 : Region β) = [] := rfl

@[simp] theorem length_resized (block : Region β) (size : Nat) :
    (resized block size).length = size := by
  rw [resized, List.length_append, List.length_take, length_unwritten]
  omega

@[simp] theorem resized_nil (size : Nat) : resized ([] : Region β) size = unwritten size := by
  rw [resized, List.take_nil, List.nil_append, List.length_nil, Nat.sub_zero]

theorem take_resized (hsize : n ≤ size) (hblock : n ≤ block.length) :
    (resized block size).take n = block.take n := by
  rw [resized, List.take_append_of_le_length (by rw [List.length_take]; omega), List.take_take,
    Nat.min_eq_left hsize]

theorem resized_append (xs : Region β) (spare n : Nat) :
    resized (xs ++ unwritten spare) (xs.length + n) = xs ++ unwritten n := by
  rw [resized, List.take_length_add_append, List.append_assoc, List.length_append,
    length_unwritten]
  congr 1
  rw [unwritten, unwritten, unwritten, List.take_replicate, List.replicate_append_replicate]
  congr 1
  omega

theorem overwritten_rest (hlength : block.length = offset + ys.length) :
    overwritten block offset ys = block.take offset ++ ys := by
  rw [overwritten, List.drop_eq_nil_of_le (Nat.le_of_eq hlength), List.append_nil]

theorem overwritten_all (hlength : block.length = ys.length) : overwritten block 0 ys = ys := by
  rw [overwritten_rest (by rw [hlength, Nat.zero_add])]
  rfl

theorem overwritten_append (xs : Region β) (hlength : ys.length = size) (spare : Nat) :
    overwritten (xs ++ unwritten (size + spare)) xs.length ys = xs ++ ys ++ unwritten spare := by
  subst hlength
  rw [overwritten, List.take_left' rfl, List.drop_length_add_append, unwritten, List.drop_replicate,
    Nat.add_sub_cancel_left]
  rfl

theorem overwritten_start (hlength : ys.length = size) (spare : Nat) :
    overwritten (unwritten (size + spare)) 0 ys = ys ++ unwritten spare :=
  overwritten_append [] hlength spare

theorem overwritten_between {zs ws : Region β} (hlength : ys.length = ws.length) :
    overwritten (xs ++ ys ++ zs) xs.length ws = xs ++ ws ++ zs := by
  rw [List.append_assoc xs ys, overwritten, List.take_left' rfl, List.drop_length_add_append,
    List.drop_left' hlength]

theorem overwritten_twice (hoffset : offset ≤ block.length) :
    overwritten (overwritten block offset xs) (offset + xs.length) ys =
      overwritten block offset (xs ++ ys) := by
  have hstart : (block.take offset ++ xs).length = offset + xs.length := by
    rw [List.length_append, List.length_take, Nat.min_eq_left hoffset]
  rw [overwritten, overwritten, List.take_left' hstart, ← hstart, List.drop_length_add_append,
    List.drop_drop, overwritten, ← List.append_assoc, hstart, List.length_append, Nat.add_assoc]

@[simp] theorem length_overwritten (hfit : offset + ys.length ≤ block.length) :
    (overwritten block offset ys).length = block.length := by
  simp only [overwritten, List.length_append, List.length_take, List.length_drop]
  omega

end

/-! ## What becomes of the other cells -/

/-- The cell at `p` gives way to that at `p'`; all others that are in use stay as they are, and no other comes
into use. -/
structure Replaces (h h' : Heap α) (p p' : Ptr) : Prop where
  others : ∀ q v, q ≠ p → h.cell q = some v → h'.cell q = some v
  unused : ∀ q, q ≠ p' → q = p ∨ h.cell q = none → h'.cell q = none
  place : p' = none ∨ p' = p ∨ h.cell p' = none
  failures : h.failures ≤ h'.failures

section

variable {h h' h'' : Heap α} {p p' p'' q : Ptr} {v : α}

theorem Heap.ne_none_of_cell (hp : h.cell p = some v) : p ≠ none := by
  rintro rfl
  cases hp

theorem Replaces.refl (h : Heap α) (p : Ptr) : Replaces h h p p where
  others _ _ _ hq := hq
  unused _ hne hq := hq.resolve_left hne
  place := .inr (.inl rfl)
  failures := Nat.le_refl _

theorem replaces_allocated (h : Heap α) (p : Ptr) : Replaces h h.allocated p p where
  others _ _ _ hq := hq
  unused _ hne hq := hq.resolve_left hne
  place := .inr (.inl rfl)
  failures := Nat.le_refl _

theorem replaces_refused (h : Heap α) (p : Ptr) : Replaces h h.refused p p where
  others _ _ _ hq := hq
  unused _ hne hq := hq.resolve_left hne
  place := .inr (.inl rfl)
  failures := Nat.le_succ _

theorem Replaces.trans (hab : Replaces h h' p p') (hbc : Replaces h' h'' p' p'') :
    Replaces h h'' p p'' where
  others q v hne hq := by
    apply hbc.others q v _ (hab.others q v hne hq)
    rintro rfl
    rcases hab.place with hnone | heq | hdead
    · exact Heap.ne_none_of_cell hq hnone
    · exact hne heq
    · rw [hq] at hdead
      cases hdead
  unused q hne hq := by
    by_cases heq : q = p'
    · exact hbc.unused q hne (.inl heq)
    · exact hbc.unused q hne (.inr (hab.unused q heq hq))
  place := by
    rcases hbc.place with hnone | rfl | hdead
    · exact .inl hnone
    · exact hab.place
    · by_cases heq : p'' = p
      · exact .inr (.inl heq)
      · right
        right
        cases hcell : h.cell p'' with
        | none => rfl
        | some v =>
          rw [hab.others p'' v heq hcell] at hdead
          cases hdead
  failures := Nat.le_trans hab.failures hbc.failures

theorem Replaces.place_ne (hh : Replaces h h' p p') (hp' : p' ≠ none) (hq : h.cell q = some v)
    (hne : q ≠ p) : p' ≠ q := by
  rintro rfl
  rcases hh.place with hnone | heq | hdead
  · exact hp' hnone
  · exact hne heq
  · rw [hdead] at hq
    cases hq

theorem Replaces.exchange (hab : Replaces h h' none p') (hbc : Replaces h' h'' p none) :
    Replaces h h'' p p' where
  others q v hne hq :=
    hbc.others q v hne (hab.others q v (Heap.ne_none_of_cell hq) hq)
  unused q hne hq := by
    by_cases hnull : q = none
    · rw [hnull]
      rfl
    · rcases hq with heq | hdead
      · exact hbc.unused q hnull (.inl heq)
      · exact hbc.unused q hnull (.inr (hab.unused q hne (.inr hdead)))
  place := by
    rcases hab.place with hnone | hnone | hdead
    · exact .inl hnone
    · exact .inl hnone
    · exact .inr (.inr hdead)
  failures := Nat.le_trans hab.failures hbc.failures

theorem replaces_push (h : Heap α) (v : α) : Replaces h (h.push v) none h.fresh where
  others _ _ _ hq := Heap.cell_push_of_live hq
  unused q hne hq := by
    rw [Heap.cell_push_of_ne hne]
    rcases hq with rfl | hdead
    · rfl
    · exact hdead
  place := .inr (.inr Heap.cell_fresh)
  failures := Nat.le_refl _

theorem replaces_clear (h : Heap α) (a : Nat) : Replaces h (h.clear a) (some a) none where
  others q v hne hq := by
    rw [Heap.cell_clear, if_neg hne]
    exact hq
  unused q _ hq := by
    rw [Heap.cell_clear]
    split_ifs with heq
    · rfl
    · exact hq.resolve_left heq
  place := .inl rfl
  failures := Nat.le_refl _

theorem replaces_store {a : Nat} (ha : h.cell (some a) = some v) (w : α) :
    Replaces h (h.store a w) (some a) (some a) where
  others q u hne hq := by
    rw [Heap.cell_store ha, if_neg hne]
    exact hq
  unused q hne hq := by
    rw [Heap.cell_store ha, if_neg hne]
    exact hq.resolve_left hne
  place := .inr (.inl rfl)
  failures := Nat.le_refl _

end

/-! ## Rules -/

theorem Heap.le_of_grants {h : Heap α} {limit size : Nat} (hgrants : h.grants limit size = true) :
    size ≤ limit := by
  rw [grants, Bool.and_eq_true, decide_eq_true_eq] at hgrants
  exact hgrants.1

section

variable {h : Heap (Region β)} {limit size : Nat} {p q : Ptr} {block : Region β}

theorem meets_allocateUpTo {h : Heap α} {Q : Bool → Heap α → Prop}
    (hyes : h.grants limit size = true → Q true h.allocated)
    (hno : h.grants limit size = false → Q false h.refused) :
    Meets (allocateUpTo limit size) h Q := by
  cases hgrants : h.grants limit size with
  | true => exact ⟨_, _, by simp only [allocateUpTo, hgrants]; rfl, hyes hgrants⟩
  | false => exact ⟨_, _, by simp only [allocateUpTo, hgrants]; rfl, hno hgrants⟩

theorem meets_mallocBlock {Q : Ptr → Heap (Region β) → Prop}
    (hyes : ∀ p h', h.grants limit size = true → Replaces h h' none p →
      h'.cell p = some (unwritten size) → Q p h')
    (hno : h.grants limit size = false → Q none h.refused) :
    Meets (mallocBlock limit size) h Q := by
  apply Meets.bind
  apply meets_allocateUpTo
  · intro hgrants
    apply meets_new
    apply hyes _ _ hgrants
    · exact (replaces_allocated h none).trans (replaces_push _ _)
    · exact Heap.cell_push_fresh
  · intro hgrants
    exact meets_pure (hno hgrants)

theorem meets_reallocBlock {Q : Ptr → Heap (Region β) → Prop}
    (hp : p = none ∧ block = [] ∨ h.cell p = some block)
    (hyes : ∀ p' h', h.grants limit size = true → Replaces h h' p p' →
      h'.cell p' = some (resized block size) → Q p' h')
    (hno : h.grants limit size = false → Q none h.refused) :
    Meets (reallocBlock limit p size) h Q := by
  apply Meets.bind
  apply meets_allocateUpTo
  case hno =>
    intro hgrants
    exact meets_pure (hno hgrants)
  case hyes =>
    intro hgrants
    simp only [↓reduceIte]
    rcases hp with ⟨rfl, rfl⟩ | hp
    · simp only [↓reduceIte]
      apply meets_new
      apply hyes _ _ hgrants
      · exact (replaces_allocated h none).trans (replaces_push _ _)
      · rw [Heap.cell_push_fresh]
        simp [resized]
    · cases p with
      | none => cases hp
      | some a =>
        have hlive : h.allocated.cell (some a) = some block := hp
        simp only [reduceCtorEq, ↓reduceIte]
        apply Meets.bind
        apply meets_read hlive
        apply Meets.bind
        apply meets_free hlive
        apply meets_new
        apply hyes _ _ hgrants
        · exact ((replaces_allocated h _).trans (replaces_clear _ a)).trans (replaces_push _ _)
        · exact Heap.cell_push_fresh

theorem meets_load {offset n : Nat} (hp : h.cell p = some block) (hfit : offset + n ≤ block.length)
    {Q : Region β → Heap (Region β) → Prop} (hQ : Q ((block.drop offset).take n) h) :
    Meets (load p offset n) h Q := by
  apply Meets.bind
  apply meets_read hp
  rw [if_pos hfit]
  exact meets_pure hQ

theorem meets_store {offset : Nat} {xs : Region β} (hp : h.cell p = some block)
    (hfit : offset + xs.length ≤ block.length) {Q : Unit → Heap (Region β) → Prop}
    (hQ : ∀ h', Replaces h h' p p → h'.cell p = some (overwritten block offset xs) → Q () h') :
    Meets (store p offset xs) h Q := by
  cases p with
  | none => cases hp
  | some a =>
    apply Meets.bind
    apply meets_read hp
    rw [if_pos hfit]
    apply meets_write hp
    apply hQ
    · exact replaces_store hp _
    · rw [Heap.cell_store hp, if_pos rfl]

theorem meets_memmove {offset start n : Nat} {source : Region β} (hp : h.cell p = some block)
    (hq : h.cell q = some source) (hfit : offset + n ≤ block.length)
    (hsource : start + n ≤ source.length) {Q : Unit → Heap (Region β) → Prop}
    (hQ : ∀ h', Replaces h h' p p →
      h'.cell p = some (overwritten block offset ((source.drop start).take n)) → Q () h') :
    Meets (memmove p offset q start n) h Q := by
  apply Meets.bind
  apply meets_load hq hsource
  apply meets_store hp _ hQ
  rw [List.length_take, List.length_drop]
  omega

theorem meets_memcpy {offset start n : Nat} {source : Region β} (hne : p ≠ q)
    (hp : h.cell p = some block) (hq : h.cell q = some source) (hfit : offset + n ≤ block.length)
    (hsource : start + n ≤ source.length) {Q : Unit → Heap (Region β) → Prop}
    (hQ : ∀ h', Replaces h h' p p →
      h'.cell p = some (overwritten block offset ((source.drop start).take n)) → Q () h') :
    Meets (memcpy p offset q start n) h Q := by
  unfold memcpy
  split
  case isTrue hzero =>
    apply meets_pure
    apply hQ h (Replaces.refl h p)
    rw [hp]
    simp [overwritten, hzero]
  case isFalse =>
    rw [if_neg (by simp [hne])]
    exact meets_memmove hp hq hfit hsource hQ

theorem meets_copyIn {offset n : Nat} {source : List β} (hp : h.cell p = some block)
    (hsource : n ≤ source.length) (hfit : offset + n ≤ block.length)
    {Q : Unit → Heap (Region β) → Prop}
    (hQ : ∀ h', Replaces h h' p p →
      h'.cell p = some (overwritten block offset ((source.take n).map some)) → Q () h') :
    Meets (copyIn p offset source n) h Q := by
  unfold copyIn
  rw [if_pos hsource]
  apply meets_store hp _ hQ
  rw [List.length_map, List.length_take]
  omega

/-- `free`, also of NULL. -/
theorem meets_freeBlock (hp : p = none ∨ h.cell p = some block) {Q : Unit → Heap (Region β) → Prop}
    (hQ : ∀ h', Replaces h h' p none → Q () h') : Meets (free p) h Q := by
  rcases hp with rfl | hp
  · exact ⟨(), h, rfl, hQ h (Replaces.refl h none)⟩
  · cases p with
    | none => cases hp
    | some a => exact meets_free hp (hQ _ (replaces_clear h a))

end

end SharedUtility.Memory
