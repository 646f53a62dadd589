import Mathlib.Algebra.GroupWithZero.Nat
import Mathlib.Data.List.Perm.Basic
import Mathlib.Data.List.Nodup
import Mathlib.Algebra.BigOperators.Group.List.Basic
import Mathlib.Order.Interval.Finset.Nat

/-!
# Memory.Addresses — the blocks that the C allocator hands out

Where only the addresses and the sizes of the blocks matter, not what is in them:

* `Extent` — a block, an interval of addresses; one of size zero takes an address all the same,
* `AddressSpace` — the blocks in use: they lie apart, above the null pointer and below a limit,
* `malloc`, `free`, `realloc` — `none` for undefined behaviour, and for an answer that the allocator cannot give,
* `AddressSpace.total_le` — all blocks in use together are smaller than the limit.
-/

namespace SharedUtility.Memory

/-- A block of memory. -/
structure Extent where
  address : Nat
  size : Nat
deriving DecidableEq, Repr

namespace Extent

/-- The first address behind the block. -/
def behind (e : Extent) : Nat :=
  e.address + max e.size 1

def Apart (e e' : Extent) : Prop :=
  e.behind ≤ e'.address ∨ e'.behind ≤ e.address

instance (e e' : Extent) : Decidable (e.Apart e') :=
  inferInstanceAs (Decidable (_ ∨ _))

/-- The sizes of the blocks together. -/
def total (blocks : List Extent) : Nat :=
  (blocks.map size).sum

/-- The blocks at other addresses. -/
def without (address : Nat) (blocks : List Extent) : List Extent :=
  blocks.filter fun e => e.address ≠ address

/-- A block in the place of the one at an address. -/
def exchanged (address : Nat) (e : Extent) (blocks : List Extent) : List Extent :=
  blocks.map fun e' => if e'.address = address then e else e'

end Extent

open Extent

/-- The blocks in use. -/
structure AddressSpace (limit : Nat) where
  blocks : List Extent
  apart : blocks.Pairwise Apart
  inside : ∀ e ∈ blocks, 0 < e.address ∧ e.behind ≤ limit

namespace AddressSpace

variable {limit : Nat}

def empty : AddressSpace limit where
  blocks := []
  apart := List.Pairwise.nil
  inside := nofun

/-- There is room for the block. -/
def Fits (memory : AddressSpace limit) (e : Extent) : Prop :=
  (0 < e.address ∧ e.behind ≤ limit) ∧ ∀ e' ∈ memory.blocks, e.Apart e'

instance (memory : AddressSpace limit) (e : Extent) : Decidable (memory.Fits e) :=
  inferInstanceAs (Decidable (_ ∧ _))

def place (memory : AddressSpace limit) (e : Extent) (hfits : memory.Fits e) : AddressSpace limit where
  blocks := e :: memory.blocks
  apart := List.pairwise_cons.2 ⟨hfits.2, memory.apart⟩
  inside := List.forall_mem_cons.2 ⟨hfits.1, memory.inside⟩

def release (memory : AddressSpace limit) (address : Nat) : AddressSpace limit where
  blocks := without address memory.blocks
  apart := memory.apart.sublist List.filter_sublist
  inside e he := memory.inside e (List.mem_of_mem_filter he)

/-! ## The functions of the C library -/

/-- `malloc`, which answers with an address or with the null pointer. -/
def malloc (memory : AddressSpace limit) (size : Nat) : Option Nat → Option (Option Nat × AddressSpace limit)
  | none => some (none, memory)
  | some address =>
    if hfits : memory.Fits ⟨address, size⟩ then some (some address, memory.place _ hfits) else none

def free (memory : AddressSpace limit) : Option Nat → Option (AddressSpace limit)
  | none => some memory
  | some address => if address ∈ memory.blocks.map Extent.address then some (memory.release address) else none

/-- What `realloc` does with the block. -/
inductive Resizing
  /-- There is no memory; the block stays as it is. -/
  | refused
  /-- The new size is zero, and the block is freed. -/
  | freed
  | moved (address : Nat)
deriving DecidableEq, Repr

def realloc (memory : AddressSpace limit) (ptr : Option Nat) (size : Nat) (resizing : Resizing) :
    Option (Option Nat × AddressSpace limit) :=
  match ptr with
  | none =>
    match resizing with
    | .refused => memory.malloc size none
    | .freed => none
    | .moved address => memory.malloc size (some address)
  | some old =>
    if old ∈ memory.blocks.map Extent.address then
      match resizing with
      | .refused => some (none, memory)
      | .freed => if size = 0 then some (none, memory.release old) else none
      | .moved address => (memory.release old).malloc size (some address)
    else none

end AddressSpace

/-! ## Lists of blocks -/

namespace Extent

variable {e e' : Extent} {blocks more : List Extent} {address : Nat}

theorem Apart.symm (h : e.Apart e') : e'.Apart e :=
  Or.symm h

theorem address_lt_behind (e : Extent) : e.address < e.behind := by
  have hpos : 1 ≤ max e.size 1 := Nat.le_max_right _ _
  rw [behind]
  omega

theorem Apart.address_ne (h : e.Apart e') : e.address ≠ e'.address := by
  have he := e.address_lt_behind
  have he' := e'.address_lt_behind
  rcases h with h | h
  · omega
  · omega

theorem total_cons (e : Extent) (blocks : List Extent) : total (e :: blocks) = e.size + total blocks :=
  rfl

theorem total_append (blocks more : List Extent) : total (blocks ++ more) = total blocks + total more := by
  rw [total, List.map_append, List.sum_append]
  rfl

theorem total_perm (h : blocks.Perm more) : total blocks = total more :=
  (h.map size).sum_eq

theorem without_append (address : Nat) (blocks more : List Extent) :
    without address (blocks ++ more) = without address blocks ++ without address more :=
  List.filter_append ..

theorem without_cons_ne (h : e.address ≠ address) : without address (e :: blocks) = e :: without address blocks :=
  List.filter_cons_of_pos (decide_eq_true h)

theorem without_cons_eq (h : e.address = address) : without address (e :: blocks) = without address blocks :=
  List.filter_cons_of_neg (by rw [decide_eq_true_eq]; exact fun hne => hne h)

theorem without_eq (h : address ∉ blocks.map Extent.address) : without address blocks = blocks := by
  rw [without, List.filter_eq_self]
  intro e he
  rw [decide_eq_true_eq]
  rintro rfl
  exact h (List.mem_map_of_mem he)

theorem exchanged_append (address : Nat) (e : Extent) (blocks more : List Extent) :
    exchanged address e (blocks ++ more) = exchanged address e blocks ++ exchanged address e more :=
  List.map_append

theorem exchanged_cons_eq (h : e.address = address) :
    exchanged address e' (e :: blocks) = e' :: exchanged address e' blocks := by
  rw [exchanged, List.map_cons, if_pos h]
  rfl

theorem exchanged_cons_ne (h : e.address ≠ address) :
    exchanged address e' (e :: blocks) = e :: exchanged address e' blocks := by
  rw [exchanged, List.map_cons, if_neg h]
  rfl

theorem exchanged_eq (h : address ∉ blocks.map Extent.address) (e : Extent) : exchanged address e blocks = blocks := by
  rw [exchanged]
  refine List.map_congr_left (fun e' he' => if_neg ?_) |>.trans (List.map_id' _)
  rintro rfl
  exact h (List.mem_map_of_mem he')

theorem perm_without (hnodup : (blocks.map Extent.address).Nodup) (he : e ∈ blocks) :
    blocks.Perm (e :: without e.address blocks) := by
  induction blocks with
  | nil => cases he
  | cons b blocks ih =>
    rw [List.map_cons, List.nodup_cons] at hnodup
    rcases List.mem_cons.1 he with rfl | he'
    · rw [without_cons_eq rfl, without_eq hnodup.1]
    · have hne : b.address ≠ e.address := by
        intro heq
        exact hnodup.1 (heq ▸ List.mem_map_of_mem he')
      rw [without_cons_ne hne]
      exact ((ih hnodup.2 he').cons b).trans (List.Perm.swap e b _)

theorem exchanged_perm (hnodup : (blocks.map Extent.address).Nodup) (he : e ∈ blocks) (e' : Extent) :
    (exchanged e.address e' blocks).Perm (e' :: without e.address blocks) := by
  induction blocks with
  | nil => cases he
  | cons b blocks ih =>
    rw [List.map_cons, List.nodup_cons] at hnodup
    rcases List.mem_cons.1 he with rfl | he'
    · rw [exchanged_cons_eq rfl, exchanged_eq hnodup.1, without_cons_eq rfl, without_eq hnodup.1]
    · have hne : b.address ≠ e.address := by
        intro heq
        exact hnodup.1 (heq ▸ List.mem_map_of_mem he')
      rw [exchanged_cons_ne hne, without_cons_ne hne]
      exact ((ih hnodup.2 he').cons b).trans (List.Perm.swap e' b _)

section

variable {part others : List Extent}

theorem mem_part (h : blocks.Perm (part ++ others)) (hin : address ∈ blocks.map Extent.address)
    (hothers : address ∉ others.map Extent.address) : address ∈ part.map Extent.address := by
  rw [(h.map Extent.address).mem_iff, List.map_append, List.mem_append] at hin
  exact hin.resolve_right hothers

theorem notMem_others (h : blocks.Perm (part ++ others)) (hnodup : (blocks.map Extent.address).Nodup)
    (hin : address ∈ part.map Extent.address) : address ∉ others.map Extent.address := by
  rw [(h.map Extent.address).nodup_iff, List.map_append, List.nodup_append] at hnodup
  exact fun hothers => hnodup.2.2 _ hin _ hothers rfl

theorem without_part (h : blocks.Perm (part ++ others)) (hnodup : (blocks.map Extent.address).Nodup)
    (hin : address ∈ part.map Extent.address) : (without address blocks).Perm (without address part ++ others) := by
  have hothers := notMem_others h hnodup hin
  have hfiltered : (without address blocks).Perm (without address (part ++ others)) := h.filter _
  rw [without_append, without_eq hothers] at hfiltered
  exact hfiltered

theorem exchanged_part (h : blocks.Perm (part ++ others)) (hnodup : (blocks.map Extent.address).Nodup)
    (hin : address ∈ part.map Extent.address) (e : Extent) :
    (e :: without address blocks).Perm (exchanged address e part ++ others) := by
  have hpart : (part.map Extent.address).Nodup := by
    rw [(h.map Extent.address).nodup_iff, List.map_append, List.nodup_append] at hnodup
    exact hnodup.1
  obtain ⟨e', he', rfl⟩ := List.mem_map.1 hin
  calc (e :: without e'.address blocks).Perm (e :: (without e'.address part ++ others)) :=
        (without_part h hnodup hin).cons e
    _ = e :: without e'.address part ++ others := rfl
    List.Perm _ (exchanged e'.address e part ++ others) := (exchanged_perm hpart he' e).symm.append_right others

end

/-! ## How much fits between the null pointer and the limit -/

/-- The addresses that the blocks take. -/
def covered : List Extent → Finset Nat
  | [] => ∅
  | e :: blocks => Finset.Ico e.address e.behind ∪ covered blocks

theorem mem_covered {a : Nat} : a ∈ covered blocks ↔ ∃ e ∈ blocks, e.address ≤ a ∧ a < e.behind := by
  induction blocks with
  | nil =>
    constructor
    · exact fun h => absurd h (Finset.notMem_empty a)
    · rintro ⟨e, he, -⟩
      cases he
  | cons e blocks ih =>
    rw [covered, Finset.mem_union, Finset.mem_Ico, ih]
    constructor
    · rintro (h | ⟨e', he', h⟩)
      · exact ⟨e, List.mem_cons_self .., h⟩
      · exact ⟨e', List.mem_cons_of_mem _ he', h⟩
    · rintro ⟨e', he', h⟩
      rcases List.mem_cons.1 he' with rfl | he'
      · exact .inl h
      · exact .inr ⟨e', he', h⟩

theorem total_le_card (h : blocks.Pairwise Apart) : total blocks ≤ (covered blocks).card := by
  induction blocks with
  | nil => exact Nat.le_refl _
  | cons e blocks ih =>
    rw [List.pairwise_cons] at h
    have hdisjoint : Disjoint (Finset.Ico e.address e.behind) (covered blocks) := by
      rw [Finset.disjoint_left]
      intro a ha hcovered
      rw [Finset.mem_Ico] at ha
      obtain ⟨e', he', ha'⟩ := mem_covered.1 hcovered
      rcases h.1 e' he' with hapart | hapart
      · omega
      · omega
    have hsize : e.size ≤ e.behind - e.address := by
      have hmax : e.size ≤ max e.size 1 := Nat.le_max_left _ _
      rw [behind]
      omega
    rw [total_cons, covered, Finset.card_union_of_disjoint hdisjoint, Nat.card_Ico]
    exact Nat.add_le_add hsize (ih h.2)

end Extent

namespace AddressSpace

variable {limit : Nat} {memory memory' : AddressSpace limit} {e : Extent}

theorem nodup (memory : AddressSpace limit) : (memory.blocks.map Extent.address).Nodup :=
  List.pairwise_map.2 (memory.apart.imp Apart.address_ne)

theorem total_le (memory : AddressSpace limit) : total memory.blocks ≤ limit - 1 := by
  have hsubset : covered memory.blocks ⊆ Finset.Ico 1 limit := by
    intro a ha
    obtain ⟨e, he, hle, hlt⟩ := mem_covered.1 ha
    have hinside := memory.inside e he
    rw [Finset.mem_Ico]
    omega
  calc total memory.blocks ≤ (covered memory.blocks).card := total_le_card memory.apart
    _ ≤ (Finset.Ico 1 limit).card := Finset.card_le_card hsubset
    _ = limit - 1 := Nat.card_Ico 1 limit

/-- What `malloc` does where there is memory. -/
theorem malloc_some {size address : Nat} {result : Option Nat}
    (h : memory.malloc size (some address) = some (result, memory')) :
    result = some address ∧ memory'.blocks = ⟨address, size⟩ :: memory.blocks := by
  unfold malloc at h
  dsimp only at h
  split at h
  · cases h
    exact ⟨rfl, rfl⟩
  · cases h

/-- What `malloc` does. -/
theorem malloc_cases {size : Nat} {answer result : Option Nat}
    (h : memory.malloc size answer = some (result, memory')) :
    (result = none ∧ memory' = memory) ∨
      ∃ address, result = some address ∧ memory'.blocks = ⟨address, size⟩ :: memory.blocks := by
  cases answer with
  | none =>
    cases h
    exact .inl ⟨rfl, rfl⟩
  | some address => exact .inr ⟨address, malloc_some h⟩

/-- What `free` does with a block. -/
theorem free_cases {address : Nat} (h : memory.free (some address) = some memory') :
    address ∈ memory.blocks.map Extent.address ∧ memory'.blocks = without address memory.blocks := by
  rw [free] at h
  split at h
  case isTrue hin =>
    cases h
    exact ⟨hin, rfl⟩
  case isFalse => cases h

theorem realloc_none_cases {size : Nat} {resizing : Resizing} {result : Option Nat}
    (h : memory.realloc none size resizing = some (result, memory')) :
    (result = none ∧ memory' = memory) ∨
      ∃ address, result = some address ∧ memory'.blocks = ⟨address, size⟩ :: memory.blocks := by
  unfold realloc at h
  cases resizing with
  | refused => exact malloc_cases h
  | freed => cases h
  | moved address => exact malloc_cases h

theorem realloc_some_cases {old size : Nat} {resizing : Resizing} {result : Option Nat}
    (h : memory.realloc (some old) size resizing = some (result, memory')) (hkept : resizing ≠ .freed) :
    (result = none ∧ memory' = memory) ∨
      ∃ address, result = some address ∧ old ∈ memory.blocks.map Extent.address ∧
        memory'.blocks = ⟨address, size⟩ :: without old memory.blocks := by
  unfold realloc at h
  dsimp only at h
  split at h
  case isFalse => cases h
  case isTrue hin =>
    cases resizing with
    | refused =>
      cases h
      exact .inl ⟨rfl, rfl⟩
    | freed => exact absurd rfl hkept
    | moved address =>
      obtain ⟨rfl, hblocks⟩ := malloc_some h
      exact .inr ⟨address, rfl, hin, hblocks⟩

end AddressSpace
end SharedUtility.Memory
