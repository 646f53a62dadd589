import SharedUtility.Bytes
import SharedUtility.Memory.Addresses

/-!
# Gballoc — `gballoc.c`

The allocator that keeps account of what it hands out. The memory behind it is that of the C library; what `Lock`,
`Lock_Init` and the allocations answer is an argument of each call. A call is `none` where the C library is
given a pointer to no block in use.
-/

namespace SharedUtility.Gballoc

open Memory

structure Allocation where
  size : Nat
  ptr : Nat
deriving DecidableEq, Repr

inductive GballocState
  | init
  | notInit
deriving DecidableEq, Repr

abbrev CMemory := AddressSpace (sizeMax + 1)

/-- The static variables, and the memory of the C library. -/
structure Statics where
  head : List Allocation := []
  totalSize : Nat := 0
  maxSize : Nat := 0
  gAllocations : Nat := 0
  gballocState : GballocState := .notInit
  memory : CMemory

/-- What a call is answered by `Lock`, by `malloc` for the `ALLOCATION`, and by the C library for the block. -/
structure Answers (α : Type) where
  locked : Bool := true
  record : Bool := true
  block : α

/-- The loop that looks for the first allocation with the pointer: its place, and the allocation. -/
def lookUp (ptr : Nat) : List Allocation → Option (Nat × Allocation)
  | [] => none
  | curr :: rest =>
    if curr.ptr = ptr then some (0, curr)
    else (lookUp ptr rest).map fun found => (found.1 + 1, found.2)

namespace Statics

/-- `totalSize`, `maxSize` and `g_allocations` are set to zero. -/
def cleared (s : Statics) : Statics :=
  { s with totalSize := 0, maxSize := 0, gAllocations := 0 }

/-- `totalSize += size`, and what follows from it. -/
def counted (s : Statics) (size : Nat) : Statics :=
  let totalSize := addSizeT s.totalSize size
  { s with
    gAllocations := addSizeT s.gAllocations 1
    totalSize := totalSize
    maxSize := if s.maxSize < totalSize then totalSize else s.maxSize }

def gballocInit (s : Statics) (lockCreated : Bool) : Int × Statics :=
  if s.gballocState ≠ .notInit then (failure, s)
  else if lockCreated = false then (failure, s)
  else (0, { s with gballocState := .init }.cleared)

def gballocDeinit (s : Statics) : Statics :=
  { s with gballocState := .notInit }

/-- A block of that size has been handed out, and is put in front of the list. -/
def pushed (s : Statics) (memory : CMemory) (size ptr : Nat) : Statics :=
  { s with memory := memory, head := { size := size, ptr := ptr } :: s.head }.counted size

def gballocMalloc (s : Statics) (size : Nat) (answers : Answers (Option Nat)) : Option (Option Nat × Statics) :=
  if s.gballocState ≠ .init then
    (s.memory.malloc size answers.block).map fun r => (r.1, { s with memory := r.2 })
  else if answers.locked = false then some (none, s)
  else if answers.record = false then some (none, s)
  else
    (s.memory.malloc size answers.block).map fun r =>
      match r.1 with
      | none => (none, { s with memory := r.2 })
      | some result => (some result, s.pushed r.2 size result)

/-- `gballoc_calloc`; the C library gives no block whose size is above `SIZE_MAX`. -/
def gballocCalloc (s : Statics) (nmemb size : Nat) (answers : Answers (Option Nat)) :
    Option (Option Nat × Statics) :=
  if s.gballocState ≠ .init then
    (s.memory.malloc (nmemb * size) answers.block).map fun r => (r.1, { s with memory := r.2 })
  else if answers.locked = false then some (none, s)
  else if answers.record = false then some (none, s)
  else
    (s.memory.malloc (nmemb * size) answers.block).map fun r =>
      match r.1 with
      | none => (none, { s with memory := r.2 })
      | some result => (some result, s.pushed r.2 (mulSizeT nmemb size) result)

def gballocRealloc (s : Statics) (ptr : Option Nat) (size : Nat) (answers : Answers AddressSpace.Resizing) :
    Option (Option Nat × Statics) :=
  if s.gballocState ≠ .init then
    (s.memory.realloc ptr size answers.block).map fun r => (r.1, { s with memory := r.2 })
  else if answers.locked = false then some (none, s)
  else
    match ptr with
    | none =>
      if answers.record = false then some (none, s)
      else
        (s.memory.realloc none size answers.block).map fun r =>
          match r.1 with
          | none => (none, { s with memory := r.2 })
          | some result => (some result, s.pushed r.2 size result)
    | some ptr =>
      match lookUp ptr s.head with
      | none => some (none, s)
      | some (i, allocation) =>
        (s.memory.realloc (some ptr) size answers.block).map fun r =>
          match r.1 with
          | none => (none, { s with memory := r.2 })
          | some result =>
            (some result,
             { s with
               memory := r.2
               head := s.head.set i { size := size, ptr := result }
               totalSize := subSizeT s.totalSize allocation.size }.counted size)

def gballocFree (s : Statics) (ptr : Option Nat) (locked : Bool) : Option Statics :=
  if s.gballocState ≠ .init then
    (s.memory.free ptr).map fun memory => { s with memory := memory }
  else if locked = false then some s
  else
    -- no allocation of the list has the null pointer
    match ptr.bind fun ptr => lookUp ptr s.head with
    | none => some s
    | some (i, curr) =>
      (s.memory.free ptr).map fun memory =>
        { s with
          memory := memory
          totalSize := subSizeT s.totalSize curr.size
          head := s.head.eraseIdx i }

/-- A number that is read under the lock; `missing` if that is not possible. -/
def guarded (s : Statics) (locked : Bool) (missing value : Nat) : Nat :=
  if s.gballocState ≠ .init then missing
  else if locked = false then missing
  else value

def gballocGetMaximumMemoryUsed (s : Statics) (locked : Bool) : Nat :=
  s.guarded locked sizeMax s.maxSize

def gballocGetCurrentMemoryUsed (s : Statics) (locked : Bool) : Nat :=
  s.guarded locked sizeMax s.totalSize

def gballocGetAllocationCount (s : Statics) (locked : Bool) : Nat :=
  s.guarded locked 0 s.gAllocations

def gballocResetMetrics (s : Statics) (locked : Bool) : Statics :=
  if s.gballocState ≠ .init then s
  else if locked = false then s
  else s.cleared

end Statics

/-! ## Calls -/

inductive Call
  | init (lockCreated : Bool)
  | deinit
  | malloc (size : Nat) (answers : Answers (Option Nat))
  | calloc (nmemb size : Nat) (answers : Answers (Option Nat))
  | realloc (ptr : Option Nat) (size : Nat) (answers : Answers AddressSpace.Resizing)
  | free (ptr : Option Nat) (locked : Bool)
  | resetMetrics (locked : Bool)

/-- A call, with the pointer that it returns; a call that returns none is given the null pointer. -/
def Statics.call (s : Statics) : Call → Option (Option Nat × Statics)
  | .init lockCreated => some (none, (s.gballocInit lockCreated).2)
  | .deinit => some (none, s.gballocDeinit)
  | .malloc size answers => s.gballocMalloc size answers
  | .calloc nmemb size answers => s.gballocCalloc nmemb size answers
  | .realloc ptr size answers => s.gballocRealloc ptr size answers
  | .free ptr locked => (s.gballocFree ptr locked).map fun s' => (none, s')
  | .resetMetrics locked => some (none, s.gballocResetMetrics locked)

end SharedUtility.Gballoc
