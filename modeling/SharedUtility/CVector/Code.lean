import SharedUtility.Bytes
import SharedUtility.EqualParts

/-!
# CVector.Code — the functions of `vector.c`

A pointer is its address, and NULL is 0; `size_t` and the addresses are computed modulo `2 ^ 64`.  `realloc` is
asked for a place, and gets one only inside the address space.  The outer `none` is undefined behaviour: an access
outside of the storage, memory that has been freed, and `realloc` to the size 0.
-/

namespace SharedUtility.CVector

/-! ## Memory -/

structure Storage where
  address : Nat
  bytes : Bytes
  deriving DecidableEq

/-- Where `realloc` puts a block, and what the new bytes are. -/
structure Place where
  address : Nat
  fresh : Nat → UInt8

/-- The bytes up to the smaller size are kept. -/
def resized (bytes : Bytes) (size : Nat) (fresh : Nat → UInt8) : Bytes :=
  bytes.take size ++ (List.range (size - bytes.length)).map fresh

/-- `realloc`; without a place it fails. -/
def realloc (bytes : Bytes) (size : Nat) (place : Option Place) : Option Storage :=
  place.bind fun place =>
    if 0 < place.address ∧ place.address + size ≤ sizeMax then
      some { address := place.address, bytes := resized bytes size place.fresh }
    else none

/-- The bytes are written to an offset of the block. -/
def writeAt (block : Bytes) (offset : Nat) (bytes : Bytes) : Option Bytes :=
  if offset + bytes.length ≤ block.length then
    some (block.take offset ++ bytes ++ block.drop (offset + bytes.length))
  else none

/-! ## The code -/

/-- `VECTOR`. -/
structure VectorTag where
  storage : Option Storage
  count : Nat
  elementSize : Nat
  deriving DecidableEq

def VectorTag.address (handle : VectorTag) : Nat :=
  match handle.storage with
  | none => 0
  | some storage => storage.address

def VectorTag.bytes (handle : VectorTag) : Bytes :=
  match handle.storage with
  | none => []
  | some storage => storage.bytes

/-- `VECTOR_create`; `allocated` tells whether `malloc` succeeds. -/
def vectorCreate (elementSize : Nat) (allocated : Bool) : Option VectorTag :=
  if elementSize = 0 then none
  else if allocated then some { storage := none, count := 0, elementSize := elementSize }
  else none

/-- `VECTOR_move`: the result, and the vector that is moved from. -/
def vectorMove (handle : VectorTag) (allocated : Bool) : Option VectorTag × VectorTag :=
  if allocated then
    (some { storage := handle.storage, count := handle.count, elementSize := handle.elementSize },
      { handle with storage := none, count := 0 })
  else (none, handle)

/-- What `elements` points to: memory with these bytes, or the storage of the vector itself. -/
inductive Source
  | outside (readable : Bytes)
  | inside

/-- `VECTOR_push_back`; `elements` is `none` for NULL. -/
def vectorPushBack (handle : VectorTag) (elements : Option Source) (numElements : Nat) (place : Option Place) :
    Option (Int × VectorTag) :=
  match elements with
  | none => some (failure, handle)
  | some elements =>
    if numElements = 0 then some (failure, handle)
    else
      let curSize := mulSizeT handle.elementSize handle.count
      let appendSize := mulSizeT handle.elementSize numElements
      if addSizeT curSize appendSize = 0 then none
      else
        match realloc handle.bytes (addSizeT curSize appendSize) place with
        | none => some (failure, handle)
        | some temp =>
          match elements with
          | .inside => none
          | .outside readable =>
            if appendSize ≤ readable.length then
              (writeAt temp.bytes curSize (readable.take appendSize)).map fun bytes =>
                (0, { handle with
                  storage := some { temp with bytes := bytes }
                  count := addSizeT handle.count numElements })
            else none

/-- The branch of `VECTOR_erase` behind its checks. -/
def eraseAt (handle : VectorTag) (elements src srcEnd numElements : Nat) (place : Option Place) :
    Option VectorTag :=
  let count := subSizeT handle.count numElements
  if count = 0 then some { handle with storage := none, count := 0 }
  else if src < handle.address ∨ handle.address + handle.bytes.length < srcEnd then none
  else
    let moved := (handle.bytes.drop (src - handle.address)).take (srcEnd - src)
    (writeAt handle.bytes (elements - handle.address) moved).bind fun bytes =>
      if mulSizeT handle.elementSize count = 0 then none
      else
        match realloc bytes (mulSizeT handle.elementSize count) place with
        | none =>
          some { handle with storage := some { address := handle.address, bytes := bytes }, count := count }
        | some tmp => some { handle with storage := some tmp, count := count }

def vectorErase (handle : VectorTag) (elements : Nat) (numElements : Nat) (place : Option Place) :
    Option VectorTag :=
  if elements = 0 ∨ numElements = 0 then some handle
  else if elements < handle.address then some handle
  else
    let diff := elements - handle.address
    if diff % handle.elementSize ≠ 0 then some handle
    else
      let src := addSizeT elements (mulSizeT handle.elementSize numElements)
      let srcEnd := addSizeT handle.address (mulSizeT handle.elementSize handle.count)
      if src > srcEnd then some handle
      else eraseAt handle elements src srcEnd numElements place

def vectorClear (handle : VectorTag) : VectorTag :=
  { handle with storage := none, count := 0 }

def vectorElement (handle : VectorTag) (index : Nat) : Nat :=
  if index ≥ handle.count then 0
  else addSizeT handle.address (mulSizeT handle.elementSize index)

def vectorFront (handle : VectorTag) : Nat :=
  if handle.count = 0 then 0 else handle.address

def vectorBack (handle : VectorTag) : Nat :=
  if handle.count = 0 then 0
  else addSizeT handle.address (mulSizeT handle.elementSize (handle.count - 1))

/-- What a pointer into the storage points to. -/
def VectorTag.elementAt (handle : VectorTag) (pointer : Nat) : Bytes :=
  (handle.bytes.drop (pointer - handle.address)).take handle.elementSize

/-- The loop of `VECTOR_find_if` from `i` on: the index where it ends. -/
def findIfLoop (handle : VectorTag) (pred : Bytes → Bool) : (remaining : Nat) → (i : Nat) → Nat
  | 0, i => i
  | remaining + 1, i =>
    if pred (handle.elementAt (addSizeT handle.address (mulSizeT handle.elementSize i))) then i
    else findIfLoop handle pred remaining (i + 1)

def vectorFindIf (handle : VectorTag) (pred : Bytes → Bool) : Nat :=
  let i := findIfLoop handle pred handle.count 0
  if i = handle.count then 0
  else addSizeT handle.address (mulSizeT handle.elementSize i)

def vectorSize (handle : VectorTag) : Nat :=
  handle.count

/-! ## Runs -/

/-- A call, and what the allocator does in it; after `VECTOR_move` one of the two vectors is followed. -/
inductive Operation
  | pushBack (elements : Option Source) (numElements : Nat) (place : Option Place)
  | erase (elements : Nat) (numElements : Nat) (place : Option Place)
  | clear
  | moveFrom (allocated : Bool)
  | moveTo

/-- The code that is returned, and the vector; a call without a result returns 0. -/
def perform (handle : VectorTag) : Operation → Option (Int × VectorTag)
  | .pushBack elements numElements place => vectorPushBack handle elements numElements place
  | .erase elements numElements place =>
    (vectorErase handle elements numElements place).map fun handle => (0, handle)
  | .clear => some (0, vectorClear handle)
  | .moveFrom allocated => some (0, (vectorMove handle allocated).2)
  | .moveTo => (vectorMove handle true).1.map fun handle => (0, handle)

end SharedUtility.CVector
