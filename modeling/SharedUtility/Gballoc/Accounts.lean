import SharedUtility.Gballoc.Code

/-!
# Gballoc.Accounts — the totals, and the blocks that have been handed out

* `Ledger` — who has been given which blocks, and how much that has been at most,
* `Usual` — the calls that do not take back what the ledger has closed the account of,
* `Accounted` — the totals and the list are those of the ledger,
* `accounts_kept` — every run of such calls.
-/

namespace SharedUtility.Gballoc

open Memory Memory.Extent

/-! ## The ledger -/

/-- The blocks in use. -/
structure Ledger where
  /-- Handed out since the last init or reset. -/
  fresh : List Extent := []
  /-- Handed out before it. -/
  old : List Extent := []
  /-- Handed out while nothing is initialised, or by somebody else. -/
  untracked : List Extent
  /-- The most that the fresh blocks have been together. -/
  peak : Nat := 0

namespace Ledger

def started (l : Ledger) : Ledger :=
  { l with fresh := [], old := l.fresh ++ l.old, peak := 0 }

def handedOut (l : Ledger) (initialised : Bool) (e : Extent) : Ledger :=
  if initialised then { l with fresh := e :: l.fresh } else { l with untracked := e :: l.untracked }

def resized (l : Ledger) (initialised : Bool) (address : Nat) (e : Extent) : Ledger :=
  if initialised then { l with fresh := exchanged address e l.fresh }
  else { l with untracked := exchanged address e l.untracked }

def givenBack (l : Ledger) (initialised : Bool) (address : Nat) : Ledger :=
  if initialised then { l with fresh := without address l.fresh }
  else { l with untracked := without address l.untracked }

/-- What is noted for a call that returns a pointer. -/
def change (l : Ledger) (initialised : Bool) (returned : Option Nat) : Call → Ledger
  | .init lockCreated => if !initialised && lockCreated then l.started else l
  | .deinit => l
  | .malloc size _ => returned.elim l fun p => l.handedOut initialised ⟨p, size⟩
  | .calloc nmemb size _ => returned.elim l fun p => l.handedOut initialised ⟨p, nmemb * size⟩
  | .realloc none size _ => returned.elim l fun p => l.handedOut initialised ⟨p, size⟩
  | .realloc (some address) size _ => returned.elim l fun p => l.resized initialised address ⟨p, size⟩
  | .free none _ => l
  | .free (some address) locked => if initialised && !locked then l else l.givenBack initialised address
  | .resetMetrics locked => if initialised && locked then l.started else l

/-- The running maximum. -/
def noted (l : Ledger) : Ledger :=
  { l with peak := max l.peak (total l.fresh) }

def after (l : Ledger) (initialised : Bool) (returned : Option Nat) (c : Call) : Ledger :=
  (l.change initialised returned c).noted

/-- The blocks that are in use, but that cannot be freed or resized now without losing the account of them. -/
def closed (l : Ledger) (initialised : Bool) : List Nat :=
  (if initialised then l.old else l.fresh ++ l.old).map Extent.address

end Ledger

/-- What is freed or resized while `gballoc.c` is initialised has been handed out since the last init or reset, or
has never been tracked; what is freed or resized while it is not is not tracked. And no block is freed by a
`realloc` that answers with the null pointer. -/
def Usual (l : Ledger) (initialised : Bool) (returned : Option Nat) : Call → Prop
  | .free (some address) locked => initialised = false ∨ locked = true → address ∉ l.closed initialised
  | .realloc (some address) _ answers =>
    (returned.isSome = true → address ∉ l.closed initialised) ∧ answers.block ≠ .freed
  | _ => True

def Allocation.extent (allocation : Allocation) : Extent where
  address := allocation.ptr
  size := allocation.size

def Statics.initialised (s : Statics) : Bool :=
  decide (s.gballocState = .init)

/-- The numbers and the list are those of the ledger. -/
structure Accounted (s : Statics) (l : Ledger) : Prop where
  current : ∀ locked, s.gballocGetCurrentMemoryUsed locked =
    if s.initialised && locked then total l.fresh else sizeMax
  maximum : ∀ locked, s.gballocGetMaximumMemoryUsed locked = if s.initialised && locked then l.peak else sizeMax
  le_maximum : total l.fresh ≤ l.peak
  tracked : s.head.map Allocation.extent = l.fresh ++ l.old
  inUse : s.memory.blocks.Perm (l.fresh ++ l.old ++ l.untracked)

/-- In every state of a run. -/
def AccountsKept : Statics → Ledger → List Call → Prop
  | s, l, [] => Accounted s l
  | s, l, c :: calls => Accounted s l ∧
      ∀ returned s', s.call c = some (returned, s') → Usual l s.initialised returned c →
        AccountsKept s' (l.after s.initialised returned c) calls

/-! ## One call -/

/-- The variables are those of the ledger. -/
structure Agree (s : Statics) (l : Ledger) : Prop where
  totalSize : s.totalSize = total l.fresh
  maxSize : s.maxSize = l.peak
  le_peak : total l.fresh ≤ l.peak
  tracked : s.head.map Allocation.extent = l.fresh ++ l.old
  inUse : s.memory.blocks.Perm (l.fresh ++ l.old ++ l.untracked)

section

variable {head : List Allocation} {ptr i : Nat} {allocation : Allocation}

theorem map_address_extent (head : List Allocation) :
    (head.map Allocation.extent).map Extent.address = head.map Allocation.ptr := by
  rw [List.map_map]
  rfl

theorem lookUp_cons_eq (h : allocation.ptr = ptr) : lookUp ptr (allocation :: head) = some (0, allocation) := by
  rw [lookUp, if_pos h]

theorem lookUp_cons_ne (h : allocation.ptr ≠ ptr) :
    lookUp ptr (allocation :: head) = (lookUp ptr head).map fun found => (found.1 + 1, found.2) := by
  rw [lookUp, if_neg h]

theorem lookUp_eq_some (h : lookUp ptr head = some (i, allocation)) : allocation ∈ head ∧ allocation.ptr = ptr := by
  induction head generalizing i with
  | nil => cases h
  | cons curr rest ih =>
    by_cases hcurr : curr.ptr = ptr
    · rw [lookUp_cons_eq hcurr] at h
      cases h
      exact ⟨List.mem_cons_self .., hcurr⟩
    · rw [lookUp_cons_ne hcurr, Option.map_eq_some_iff] at h
      obtain ⟨⟨j, found⟩, hfound, hpair⟩ := h
      cases hpair
      exact ⟨List.mem_cons_of_mem _ (ih hfound).1, (ih hfound).2⟩

theorem lookUp_eq_none (h : lookUp ptr head = none) : ptr ∉ head.map Allocation.ptr := by
  induction head with
  | nil => exact List.not_mem_nil
  | cons curr rest ih =>
    by_cases hcurr : curr.ptr = ptr
    · rw [lookUp_cons_eq hcurr] at h
      cases h
    · rw [lookUp_cons_ne hcurr, Option.map_eq_none_iff] at h
      rw [List.map_cons, List.mem_cons, not_or]
      exact ⟨fun heq => hcurr heq.symm, ih h⟩

theorem eraseIdx_lookUp (h : lookUp ptr head = some (i, allocation)) (hnodup : (head.map Allocation.ptr).Nodup) :
    (head.eraseIdx i).map Allocation.extent = without ptr (head.map Allocation.extent) := by
  induction head generalizing i with
  | nil => cases h
  | cons curr rest ih =>
    rw [List.map_cons, List.nodup_cons] at hnodup
    by_cases hcurr : curr.ptr = ptr
    · rw [lookUp_cons_eq hcurr] at h
      cases h
      have hrest : ptr ∉ (rest.map Allocation.extent).map Extent.address := by
        rw [map_address_extent, ← hcurr]
        exact hnodup.1
      rw [List.eraseIdx_cons_zero, List.map_cons, without_cons_eq hcurr, without_eq hrest]
    · rw [lookUp_cons_ne hcurr, Option.map_eq_some_iff] at h
      obtain ⟨⟨j, found⟩, hfound, hpair⟩ := h
      cases hpair
      rw [List.eraseIdx_cons_succ, List.map_cons, List.map_cons, without_cons_ne hcurr, ih hfound hnodup.2]

theorem set_lookUp (h : lookUp ptr head = some (i, allocation)) (hnodup : (head.map Allocation.ptr).Nodup)
    (other : Allocation) :
    (head.set i other).map Allocation.extent = exchanged ptr other.extent (head.map Allocation.extent) := by
  induction head generalizing i with
  | nil => cases h
  | cons curr rest ih =>
    rw [List.map_cons, List.nodup_cons] at hnodup
    by_cases hcurr : curr.ptr = ptr
    · rw [lookUp_cons_eq hcurr] at h
      cases h
      have hrest : ptr ∉ (rest.map Allocation.extent).map Extent.address := by
        rw [map_address_extent, ← hcurr]
        exact hnodup.1
      rw [List.set_cons_zero, List.map_cons, List.map_cons, exchanged_cons_eq hcurr, exchanged_eq hrest]
    · rw [lookUp_cons_ne hcurr, Option.map_eq_some_iff] at h
      obtain ⟨⟨j, found⟩, hfound, hpair⟩ := h
      cases hpair
      rw [List.set_cons_succ, List.map_cons, List.map_cons, exchanged_cons_ne hcurr, ih hfound hnodup.2]

end

section

variable {s : Statics} {l : Ledger} {memory : CMemory} {ptr size i : Nat} {allocation : Allocation}

theorem counted_totalSize (h : s.totalSize + size ≤ sizeMax) :
    (s.counted size).totalSize = s.totalSize + size :=
  addSizeT_of_le h

theorem counted_maxSize (s : Statics) (size : Nat) :
    (s.counted size).maxSize = max s.maxSize (s.counted size).totalSize := by
  rw [Statics.counted]
  dsimp only
  split_ifs with hlt
  · rw [Nat.max_eq_right (Nat.le_of_lt hlt)]
  · rw [Nat.max_eq_left (Nat.le_of_not_lt hlt)]

namespace Agree

theorem same (ha : Agree s l) : Agree s l.noted where
  totalSize := ha.totalSize
  maxSize := by
    rw [Ledger.noted, Nat.max_eq_left ha.le_peak]
    exact ha.maxSize
  le_peak := Nat.le_max_right _ _
  tracked := ha.tracked
  inUse := ha.inUse

theorem besides (ha : Agree s l) {untracked : List Extent}
    (h : memory.blocks.Perm (l.fresh ++ l.old ++ untracked)) :
    Agree { s with memory := memory } { l with untracked := untracked }.noted :=
  same { ha with inUse := h }

theorem nodup (ha : Agree s l) : ((l.fresh ++ l.old ++ l.untracked).map Extent.address).Nodup :=
  (ha.inUse.map Extent.address).nodup_iff.1 s.memory.nodup

theorem head_nodup (ha : Agree s l) : (s.head.map Allocation.ptr).Nodup := by
  have hnodup := ha.nodup
  rw [List.map_append, List.nodup_append] at hnodup
  rw [← map_address_extent, ha.tracked]
  exact hnodup.1

theorem found (ha : Agree s l) (h : lookUp ptr s.head = some (i, allocation))
    (hold : ptr ∉ l.old.map Extent.address) : allocation.extent ∈ l.fresh ∧ allocation.extent.address = ptr := by
  obtain ⟨hmem, hptr⟩ := lookUp_eq_some h
  have htracked : allocation.extent ∈ l.fresh ++ l.old := by
    rw [← ha.tracked]
    exact List.mem_map_of_mem hmem
  refine ⟨(List.mem_append.1 htracked).resolve_right fun hmem => hold ?_, hptr⟩
  rw [← hptr]
  exact List.mem_map_of_mem (f := Extent.address) hmem

theorem fresh_le {blocks others : List Extent} (h : memory.blocks.Perm (blocks ++ others)) :
    total blocks ≤ sizeMax := by
  have htotal := memory.total_le
  rw [total_perm h, total_append] at htotal
  omega

theorem pushed (ha : Agree s l) (h : memory.blocks = ⟨ptr, size⟩ :: s.memory.blocks) :
    Agree (s.pushed memory size ptr) (l.handedOut true ⟨ptr, size⟩).noted := by
  have hinUse : memory.blocks.Perm (⟨ptr, size⟩ :: l.fresh ++ l.old ++ l.untracked) := by
    rw [h]
    exact ha.inUse.cons _
  have htotal : (s.pushed memory size ptr).totalSize = total (⟨ptr, size⟩ :: l.fresh) := by
    have hle : total (⟨ptr, size⟩ :: l.fresh) ≤ sizeMax := by
      rw [List.append_assoc] at hinUse
      exact fresh_le hinUse
    rw [total_cons] at hle ⊢
    dsimp only at hle ⊢
    rw [Statics.pushed, counted_totalSize]
    · rw [ha.totalSize]
      exact Nat.add_comm _ _
    · dsimp only
      rw [ha.totalSize]
      omega
  constructor
  case totalSize => exact htotal
  case maxSize =>
    change _ = max l.peak (total (⟨ptr, size⟩ :: l.fresh))
    rw [← ha.maxSize, ← htotal]
    exact counted_maxSize _ _
  case le_peak => exact Nat.le_max_right _ _
  case tracked =>
    change Allocation.extent _ :: s.head.map Allocation.extent = ⟨ptr, size⟩ :: l.fresh ++ l.old
    rw [ha.tracked]
    rfl
  case inUse => exact hinUse

theorem taken (ha : Agree s l) (h : memory.blocks = without ptr s.memory.blocks)
    (hfound : lookUp ptr s.head = some (i, allocation)) (hold : ptr ∉ l.old.map Extent.address) :
    Agree
      { s with
        memory := memory
        totalSize := subSizeT s.totalSize allocation.size
        head := s.head.eraseIdx i }
      (l.givenBack true ptr).noted := by
  obtain ⟨hmem, hptr⟩ := ha.found hfound hold
  have hin : ptr ∈ l.fresh.map Extent.address := by
    rw [← hptr]
    exact List.mem_map_of_mem hmem
  have htotal : total l.fresh = allocation.size + total (without ptr l.fresh) := by
    have hnodup := ha.nodup
    rw [List.append_assoc, List.map_append, List.nodup_append] at hnodup
    rw [total_perm (perm_without hnodup.1 hmem), hptr]
    rfl
  apply same
  constructor
  case totalSize =>
    have hle : total l.fresh ≤ sizeMax := by
      have hinUse := ha.inUse
      rw [List.append_assoc] at hinUse
      exact fresh_le hinUse
    rw [ha.totalSize, subSizeT_of_le (by omega) hle, htotal, Nat.add_sub_cancel_left]
    rfl
  case maxSize => exact ha.maxSize
  case le_peak =>
    have hle := ha.le_peak
    change total (without ptr l.fresh) ≤ l.peak
    omega
  case tracked =>
    change _ = without ptr l.fresh ++ l.old
    rw [eraseIdx_lookUp hfound ha.head_nodup, ha.tracked, without_append, without_eq hold]
  case inUse =>
    change memory.blocks.Perm (without ptr l.fresh ++ l.old ++ l.untracked)
    have hinUse := ha.inUse
    rw [List.append_assoc] at hinUse ⊢
    rw [h]
    exact without_part hinUse s.memory.nodup hin

theorem moved {result : Nat} (ha : Agree s l) (h : memory.blocks = ⟨result, size⟩ :: without ptr s.memory.blocks)
    (hfound : lookUp ptr s.head = some (i, allocation)) (hold : ptr ∉ l.old.map Extent.address) :
    Agree
      ({ s with
        memory := memory
        head := s.head.set i { size := size, ptr := result }
        totalSize := subSizeT s.totalSize allocation.size }.counted size)
      (l.resized true ptr ⟨result, size⟩).noted := by
  obtain ⟨hmem, hptr⟩ := ha.found hfound hold
  have hin : ptr ∈ l.fresh.map Extent.address := by
    rw [← hptr]
    exact List.mem_map_of_mem hmem
  have hnodup := ha.nodup
  rw [List.append_assoc, List.map_append, List.nodup_append] at hnodup
  have hbefore : total l.fresh = allocation.size + total (without ptr l.fresh) := by
    rw [total_perm (perm_without hnodup.1 hmem), hptr]
    rfl
  have hafter : total (exchanged ptr ⟨result, size⟩ l.fresh) = size + total (without ptr l.fresh) := by
    rw [← hptr, total_perm (exchanged_perm hnodup.1 hmem ⟨result, size⟩)]
    rfl
  have hinUse := ha.inUse
  rw [List.append_assoc] at hinUse
  have hinUse' : memory.blocks.Perm (exchanged ptr ⟨result, size⟩ l.fresh ++ (l.old ++ l.untracked)) := by
    rw [h]
    exact exchanged_part hinUse s.memory.nodup hin _
  have hle := fresh_le hinUse
  have hle' := fresh_le hinUse'
  have hless : subSizeT s.totalSize allocation.size = total (without ptr l.fresh) := by
    rw [ha.totalSize, subSizeT_of_le (by omega) hle, hbefore, Nat.add_sub_cancel_left]
  have htotal : ({ s with
      memory := memory
      head := s.head.set i { size := size, ptr := result }
      totalSize := subSizeT s.totalSize allocation.size }.counted size).totalSize =
        total (exchanged ptr ⟨result, size⟩ l.fresh) := by
    rw [counted_totalSize, hafter]
    · dsimp only
      rw [hless, Nat.add_comm]
    · dsimp only
      rw [hless]
      omega
  constructor
  case totalSize => exact htotal
  case maxSize =>
    change _ = max l.peak (total (exchanged ptr ⟨result, size⟩ l.fresh))
    rw [counted_maxSize, htotal, ← ha.maxSize]
  case le_peak => exact Nat.le_max_right _ _
  case tracked =>
    change (s.head.set i _).map Allocation.extent = exchanged ptr ⟨result, size⟩ l.fresh ++ l.old
    rw [set_lookUp hfound ha.head_nodup, ha.tracked, exchanged_append, exchanged_eq hold]
    rfl
  case inUse =>
    change memory.blocks.Perm (exchanged ptr ⟨result, size⟩ l.fresh ++ l.old ++ l.untracked)
    rw [List.append_assoc]
    exact hinUse'

end Agree

theorem initialised_true (h : s.gballocState = .init) : s.initialised = true :=
  decide_eq_true h

theorem initialised_false (h : s.gballocState ≠ .init) : s.initialised = false :=
  decide_eq_false h

theorem Agree.cleared (ha : Agree s l) (gballocState : GballocState) :
    Agree { s with gballocState := gballocState }.cleared l.started.noted :=
  Agree.same
    { totalSize := rfl
      maxSize := rfl
      le_peak := Nat.le_refl _
      tracked := ha.tracked
      inUse := ha.inUse }

theorem Agree.state (ha : Agree s l) (gballocState : GballocState) :
    Agree { s with gballocState := gballocState } l :=
  { ha with }

theorem Agree.allocated (ha : Agree s l) {returned : Option Nat}
    (h : (returned = none ∧ memory = s.memory) ∨
      ∃ address, returned = some address ∧ memory.blocks = ⟨address, size⟩ :: s.memory.blocks) :
    Agree { s with memory := memory } (returned.elim l fun p => l.handedOut false ⟨p, size⟩).noted := by
  rcases h with ⟨rfl, rfl⟩ | ⟨address, rfl, hblocks⟩
  · exact ha.same
  · refine ha.besides ?_
    rw [hblocks]
    exact (ha.inUse.cons _).trans List.perm_middle.symm

theorem Agree.allocated_tracked (ha : Agree s l) {returned : Option Nat} {tracked : Nat}
    (h : (returned = none ∧ memory = s.memory) ∨
      ∃ address, returned = some address ∧ memory.blocks = ⟨address, size⟩ :: s.memory.blocks)
    (htracked : size ≤ sizeMax → tracked = size) :
    Agree (returned.elim { s with memory := memory } (s.pushed memory tracked))
      (returned.elim l fun p => l.handedOut true ⟨p, size⟩).noted := by
  rcases h with ⟨rfl, rfl⟩ | ⟨address, rfl, hblocks⟩
  · exact ha.same
  · have hfits : size ≤ sizeMax := by
      have htotal := memory.total_le
      rw [hblocks, total_cons] at htotal
      dsimp only at htotal
      omega
    rw [htracked hfits]
    exact ha.pushed hblocks

theorem init_agree (ha : Agree s l) (lockCreated : Bool) :
    Agree (s.gballocInit lockCreated).2 (l.after s.initialised none (.init lockCreated)) := by
  rw [Statics.gballocInit, Ledger.after, Ledger.change]
  by_cases hstate : s.gballocState = .init
  · rw [initialised_true hstate, if_pos (by rw [hstate]; exact nofun)]
    exact ha.same
  · have hnot : s.gballocState = .notInit := by
      cases h : s.gballocState with
      | init => exact absurd h hstate
      | notInit => rfl
    rw [initialised_false hstate, if_neg (not_not.2 hnot)]
    cases lockCreated with
    | false => exact ha.same
    | true => exact ha.cleared .init

theorem resetMetrics_agree (ha : Agree s l) (locked : Bool) :
    Agree (s.gballocResetMetrics locked) (l.after s.initialised none (.resetMetrics locked)) := by
  rw [Statics.gballocResetMetrics, Ledger.after, Ledger.change]
  by_cases hstate : s.gballocState = .init
  · rw [initialised_true hstate, if_neg (not_not.2 hstate)]
    cases locked with
    | false => exact ha.same
    | true => exact ha.cleared s.gballocState
  · rw [initialised_false hstate, if_pos hstate]
    exact ha.same

/-- `gballoc_malloc`, and `gballoc_calloc`: `tracked` is the size that is put down for the block. -/
theorem handOut_agree (ha : Agree s l) {answers : Answers (Option Nat)} {returned : Option Nat} {s' : Statics}
    {tracked : Nat} (htracked : size ≤ sizeMax → tracked = size)
    (hcall : (if s.gballocState ≠ .init then
        (s.memory.malloc size answers.block).map fun r => (r.1, { s with memory := r.2 })
      else if answers.locked = false then some (none, s)
      else if answers.record = false then some (none, s)
      else
        (s.memory.malloc size answers.block).map fun r =>
          match r.1 with
          | none => (none, { s with memory := r.2 })
          | some result => (some result, s.pushed r.2 tracked result)) = some (returned, s')) :
    Agree s' (returned.elim l fun p => l.handedOut s.initialised ⟨p, size⟩).noted := by
  by_cases hstate : s.gballocState = .init
  case neg =>
    rw [if_pos hstate, Option.map_eq_some_iff] at hcall
    obtain ⟨⟨result, memory⟩, hmalloc, hpair⟩ := hcall
    cases hpair
    rw [initialised_false hstate]
    exact ha.allocated (AddressSpace.malloc_cases hmalloc)
  case pos =>
    rw [if_neg (not_not.2 hstate)] at hcall
    rw [initialised_true hstate]
    by_cases hlocked : answers.locked = false
    · rw [if_pos hlocked] at hcall
      cases hcall
      exact ha.same
    rw [if_neg hlocked] at hcall
    by_cases hrecord : answers.record = false
    · rw [if_pos hrecord] at hcall
      cases hcall
      exact ha.same
    rw [if_neg hrecord, Option.map_eq_some_iff] at hcall
    obtain ⟨⟨result, memory⟩, hmalloc, hpair⟩ := hcall
    have hagree := ha.allocated_tracked (AddressSpace.malloc_cases hmalloc) htracked
    cases result with
    | none =>
      cases hpair
      exact hagree
    | some result =>
      cases hpair
      exact hagree

theorem realloc_agree (ha : Agree s l) {answers : Answers AddressSpace.Resizing} {given returned : Option Nat}
    {s' : Statics} (hcall : s.gballocRealloc given size answers = some (returned, s'))
    (husual : Usual l s.initialised returned (.realloc given size answers)) :
    Agree s' (l.after s.initialised returned (.realloc given size answers)) := by
  unfold Statics.gballocRealloc at hcall
  by_cases hstate : s.gballocState = .init
  case neg =>
    rw [if_pos hstate, Option.map_eq_some_iff] at hcall
    obtain ⟨⟨result, memory⟩, hrealloc, hpair⟩ := hcall
    cases hpair
    rw [initialised_false hstate] at husual ⊢
    cases given with
    | none => exact ha.allocated (AddressSpace.realloc_none_cases hrealloc)
    | some ptr =>
      obtain ⟨hclosed, hkept⟩ := husual
      rcases AddressSpace.realloc_some_cases hrealloc hkept with ⟨rfl, rfl⟩ | ⟨address, rfl, hin, hblocks⟩
      · exact ha.same
      · refine ha.besides ?_
        have hpart := mem_part (ha.inUse.trans List.perm_append_comm) hin (hclosed rfl)
        rw [hblocks]
        exact (exchanged_part (ha.inUse.trans List.perm_append_comm) s.memory.nodup hpart _).trans
          List.perm_append_comm
  case pos =>
    rw [if_neg (not_not.2 hstate)] at hcall
    rw [initialised_true hstate] at husual ⊢
    by_cases hlocked : answers.locked = false
    · rw [if_pos hlocked] at hcall
      cases hcall
      cases given with
      | none => exact ha.same
      | some ptr => exact ha.same
    rw [if_neg hlocked] at hcall
    cases given with
    | none =>
      by_cases hrecord : answers.record = false
      · dsimp only at hcall
        rw [if_pos hrecord] at hcall
        cases hcall
        exact ha.same
      dsimp only at hcall
      rw [if_neg hrecord, Option.map_eq_some_iff] at hcall
      obtain ⟨⟨result, memory⟩, hrealloc, hpair⟩ := hcall
      have hagree := ha.allocated_tracked (AddressSpace.realloc_none_cases hrealloc) fun _ => rfl
      cases result with
      | none =>
        cases hpair
        exact hagree
      | some result =>
        cases hpair
        exact hagree
    | some ptr =>
      dsimp only at hcall
      cases hfound : lookUp ptr s.head with
      | none =>
        rw [hfound] at hcall
        cases hcall
        exact ha.same
      | some found =>
        obtain ⟨i, allocation⟩ := found
        rw [hfound] at hcall
        dsimp only at hcall
        rw [Option.map_eq_some_iff] at hcall
        obtain ⟨⟨result, memory⟩, hrealloc, hpair⟩ := hcall
        rcases AddressSpace.realloc_some_cases hrealloc husual.2 with ⟨rfl, rfl⟩ | ⟨address, rfl, -, hblocks⟩
        · cases hpair
          exact ha.same
        · cases hpair
          exact ha.moved hblocks hfound (husual.1 rfl)

theorem free_agree (ha : Agree s l) {given : Option Nat} {locked : Bool} {s' : Statics}
    (hcall : s.gballocFree given locked = some s') (husual : Usual l s.initialised none (.free given locked)) :
    Agree s' (l.after s.initialised none (.free given locked)) := by
  rw [Statics.gballocFree] at hcall
  by_cases hstate : s.gballocState = .init
  case neg =>
    rw [if_pos hstate, Option.map_eq_some_iff] at hcall
    obtain ⟨memory, hfree, rfl⟩ := hcall
    rw [initialised_false hstate] at husual ⊢
    cases given with
    | none =>
      cases hfree
      exact ha.same
    | some ptr =>
      obtain ⟨hin, hblocks⟩ := AddressSpace.free_cases hfree
      refine ha.besides ?_
      have hpart := mem_part (ha.inUse.trans List.perm_append_comm) hin (husual (.inl rfl))
      rw [hblocks]
      exact (without_part (ha.inUse.trans List.perm_append_comm) s.memory.nodup hpart).trans
        List.perm_append_comm
  case pos =>
    rw [if_neg (not_not.2 hstate)] at hcall
    rw [initialised_true hstate] at husual ⊢
    cases locked with
    | false =>
      cases hcall
      cases given with
      | none => exact ha.same
      | some ptr => exact ha.same
    | true =>
      rw [if_neg fun h => Bool.noConfusion h] at hcall
      cases given with
      | none =>
        cases hcall
        exact ha.same
      | some ptr =>
        rw [Option.bind_some] at hcall
        have hold := husual (.inr rfl)
        cases hfound : lookUp ptr s.head with
        | none =>
          -- the block is not tracked, so there is no fresh one to take back
          rw [hfound] at hcall
          cases hcall
          have hnone : ptr ∉ l.fresh.map Extent.address := by
            have hnone := lookUp_eq_none hfound
            rw [← map_address_extent, ha.tracked, List.map_append, List.mem_append, not_or] at hnone
            exact hnone.1
          have hsame : l.givenBack true ptr = l := by
            rw [Ledger.givenBack, if_pos rfl, without_eq hnone]
          change Agree s (l.givenBack true ptr).noted
          rw [hsame]
          exact ha.same
        | some found =>
          obtain ⟨i, allocation⟩ := found
          rw [hfound] at hcall
          dsimp only at hcall
          rw [Option.map_eq_some_iff] at hcall
          obtain ⟨memory, hfree, rfl⟩ := hcall
          exact ha.taken (AddressSpace.free_cases hfree).2 hfound hold

theorem call_agree (ha : Agree s l) {c : Call} {returned : Option Nat} {s' : Statics}
    (hcall : s.call c = some (returned, s')) (husual : Usual l s.initialised returned c) :
    Agree s' (l.after s.initialised returned c) := by
  cases c with
  | init lockCreated =>
    cases hcall
    exact init_agree ha lockCreated
  | deinit =>
    cases hcall
    exact (ha.state .notInit).same
  | malloc size answers => exact handOut_agree ha (fun _ => rfl) hcall
  | calloc nmemb size answers => exact handOut_agree ha mulSizeT_of_le hcall
  | realloc given size answers => exact realloc_agree ha hcall husual
  | free given locked =>
    rw [Statics.call, Option.map_eq_some_iff] at hcall
    obtain ⟨s'', hfree, hpair⟩ := hcall
    cases hpair
    exact free_agree ha hfree husual
  | resetMetrics locked =>
    cases hcall
    exact resetMetrics_agree ha locked

theorem Agree.accounted (ha : Agree s l) : Accounted s l := by
  have hguarded : ∀ locked missing value, s.guarded locked missing value =
      if s.initialised && locked then value else missing := by
    intro locked missing value
    rw [Statics.guarded]
    by_cases hstate : s.gballocState = .init
    · rw [if_neg (not_not.2 hstate), initialised_true hstate]
      cases locked with
      | false => rfl
      | true => rfl
    · rw [if_pos hstate, initialised_false hstate]
      rfl
  constructor
  case current =>
    intro locked
    rw [Statics.gballocGetCurrentMemoryUsed, hguarded, ha.totalSize]
  case maximum =>
    intro locked
    rw [Statics.gballocGetMaximumMemoryUsed, hguarded, ha.maxSize]
  case le_maximum => exact ha.le_peak
  case tracked => exact ha.tracked
  case inUse => exact ha.inUse

theorem accountsKept_of_agree (ha : Agree s l) (calls : List Call) : AccountsKept s l calls := by
  induction calls generalizing s l with
  | nil => exact ha.accounted
  | cons c calls ih => exact ⟨ha.accounted, fun _ _ hcall husual => ih (call_agree ha hcall husual)⟩

/-- Every run from the start of the program on, whatever is in use already. -/
theorem accounts_kept (memory : CMemory) (calls : List Call) :
    AccountsKept { memory := memory } { untracked := memory.blocks } calls :=
  accountsKept_of_agree
    { totalSize := rfl
      maxSize := rfl
      le_peak := Nat.le_refl _
      tracked := rfl
      inUse := List.Perm.refl _ } calls

end

/-- The calls one after the other. -/
def Statics.calls (s : Statics) : List Call → Option Statics
  | [] => some s
  | c :: more => (s.call c).bind fun r => r.2.calls more

/-- `gballoc_resetMetrics` sets the total to zero, and the block of ten bytes is tracked all the same. -/
theorem resetMetrics_forgets : ¬∀ (calls : List Call) (s : Statics),
    ({ memory := AddressSpace.empty } : Statics).calls calls = some s → s.gballocState = .init →
      s.gballocGetCurrentMemoryUsed true = total (s.head.map Allocation.extent) := by
  intro hall
  have hreset := hall [.init true, .malloc 10 { block := some 16 }, .resetMetrics true] _ rfl rfl
  exact absurd hreset (by decide)

end SharedUtility.Gballoc
