import SharedUtility.Bytes
import SharedUtility.Memory.Pool

/-!
# Buffer.Code — `buffer.c`

The bytes of a `BUFFER` are a block on the heap. What a handle points to is passed to each function
and returned by it as it is afterwards; NULL is `none`. Allocations fail or succeed as the heap says,
and a request for more than `SIZE_MAX` bytes always fails.
-/

namespace SharedUtility

open Memory

structure Buffer where
  buffer : Ptr
  size : Nat
  deriving DecidableEq

namespace Buffer

abbrev BufferHeap := Heap (Region UInt8)
abbrev BufferM := HeapM (Region UInt8)

def bufferNew : BufferM (Option Buffer) := do
  let ok ← allocate
  if ok then pure (some { buffer := none, size := 0 }) else pure none

def bufferSafemalloc (handleptr : Buffer) (size : Nat) : BufferM (Int × Buffer) := do
  let sizetomalloc := if size = 0 then 1 else size
  let p ← mallocBlock sizeMax sizetomalloc
  if p = none then pure (failure, { handleptr with buffer := none })
  else pure (0, { handleptr with buffer := p, size := size })

def bufferCreate (source : Option Bytes) (size : Nat) : BufferM (Option Buffer) :=
  match source with
  | none => pure none
  | some source => do
    let ok ← allocate
    if ok then do
      -- Both fields hold anything until they are set.
      let r ← bufferSafemalloc { buffer := none, size := 0 } size
      if r.1 ≠ 0 then pure none
      else do
        copyIn r.2.buffer 0 source size
        pure (some r.2)
    else pure none

def bufferBuild (handle : Option Buffer) (source : Option Bytes) (size : Nat) :
    BufferM (Int × Option Buffer) :=
  match handle with
  | none => pure (failure, none)
  | some b =>
    if size = 0 then do
      free b.buffer
      pure (0, some { b with buffer := none, size := 0 })
    else
      match source with
      | none => pure (failure, some b)
      | some source => do
        let newBuffer ← reallocBlock sizeMax b.buffer size
        if newBuffer = none then pure (failure, some b)
        else do
          copyIn newBuffer 0 source size
          pure (0, some { b with buffer := newBuffer, size := size })

def bufferAppendBuild (handle : Option Buffer) (source : Option Bytes) (size : Nat) :
    BufferM (Int × Option Buffer) :=
  match handle, source with
  | none, _ => pure (failure, none)
  | some b, none => pure (failure, some b)
  | some b, some source =>
    if size = 0 then pure (failure, some b)
    else if b.buffer = none then do
      let r ← bufferSafemalloc b size
      if r.1 ≠ 0 then pure (failure, some r.2)
      else do
        copyIn r.2.buffer 0 source size
        pure (0, some r.2)
    else do
      let mallocSize := safeAddSizeT b.size size
      if mallocSize = sizeMax then pure (failure, some b)
      else do
        let temp ← reallocBlock sizeMax b.buffer mallocSize
        if temp = none then pure (failure, some b)
        else do
          copyIn temp b.size source size
          pure (0, some { b with buffer := temp, size := addSizeT b.size size })

def bufferPreBuild (handle : Option Buffer) (size : Nat) : BufferM (Int × Option Buffer) :=
  match handle with
  | none => pure (failure, none)
  | some b =>
    if size = 0 then pure (failure, some b)
    else if b.buffer ≠ none then pure (failure, some b)
    else do
      let p ← mallocBlock sizeMax size
      if p = none then pure (failure, some { b with buffer := none })
      else pure (0, some { b with buffer := p, size := size })

/-- The result, and `*content` where it is set; `content` may be NULL. -/
def bufferContent (handle : Option Buffer) (content : Bool) : Int × Option Ptr :=
  match handle with
  | none => (failure, none)
  | some b => if content then (0, some b.buffer) else (failure, none)

def bufferUnbuild (handle : Option Buffer) : BufferM (Int × Option Buffer) :=
  match handle with
  | none => pure (failure, none)
  | some b =>
    if b.buffer ≠ none then do
      free b.buffer
      pure (0, some { b with buffer := none, size := 0 })
    else pure (failure, some b)

def bufferEnlarge (handle : Option Buffer) (enlargeSize : Nat) : BufferM (Int × Option Buffer) :=
  match handle with
  | none => pure (failure, none)
  | some b =>
    if enlargeSize = 0 then pure (failure, some b)
    else do
      let mallocSize := safeAddSizeT b.size enlargeSize
      if mallocSize = sizeMax then pure (failure, some b)
      else do
        let temp ← reallocBlock sizeMax b.buffer mallocSize
        if temp = none then pure (failure, some b)
        else pure (0, some { b with buffer := temp, size := addSizeT b.size enlargeSize })

def bufferShrink (handle : Option Buffer) (decreaseSize : Nat) (fromEnd : Bool) :
    BufferM (Int × Option Buffer) :=
  match handle with
  | none => pure (failure, none)
  | some b =>
    if decreaseSize = 0 then pure (failure, some b)
    else if decreaseSize > b.size then pure (failure, some b)
    else do
      let allocSize := b.size - decreaseSize
      if allocSize = 0 then do
        free b.buffer
        pure (0, some { b with buffer := none, size := 0 })
      else do
        let tmp ← mallocBlock sizeMax allocSize
        if tmp = none then pure (failure, some b)
        else if fromEnd then do
          memcpy tmp 0 b.buffer 0 allocSize
          free b.buffer
          pure (0, some { b with buffer := tmp, size := allocSize })
        else do
          memcpy tmp 0 b.buffer decreaseSize allocSize
          free b.buffer
          pure (0, some { b with buffer := tmp, size := allocSize })

/-- The result, and `*size` where it is set; `size` may be NULL. -/
def bufferSize (handle : Option Buffer) (size : Bool) : Int × Option Nat :=
  match handle with
  | none => (failure, none)
  | some b => if size then (0, some b.size) else (failure, none)

/-- `same`: whether `handle1 == handle2`. -/
def bufferAppend (handle1 handle2 : Option Buffer) (same : Bool) : BufferM (Int × Option Buffer) :=
  match handle1, handle2 with
  | none, _ => pure (failure, none)
  | some b1, none => pure (failure, some b1)
  | some b1, some b2 =>
    if same then pure (failure, some b1)
    else if b1.buffer = none then pure (failure, some b1)
    else if b2.buffer = none then pure (failure, some b1)
    else if b2.size = 0 then pure (0, some b1)
    else do
      let mallocSize := safeAddSizeT b1.size b2.size
      if mallocSize = sizeMax then pure (failure, some b1)
      else do
        let temp ← reallocBlock sizeMax b1.buffer mallocSize
        if temp = none then pure (failure, some b1)
        else do
          memcpy temp b1.size b2.buffer 0 b2.size
          pure (0, some { b1 with buffer := temp, size := addSizeT b1.size b2.size })

def bufferPrepend (handle1 handle2 : Option Buffer) (same : Bool) : BufferM (Int × Option Buffer) :=
  match handle1, handle2 with
  | none, _ => pure (failure, none)
  | some b1, none => pure (failure, some b1)
  | some b1, some b2 =>
    if same then pure (failure, some b1)
    else if b1.buffer = none then pure (failure, some b1)
    else if b2.buffer = none then pure (failure, some b1)
    else if b2.size = 0 then pure (0, some b1)
    else do
      let mallocSize := safeAddSizeT (safeAddSizeT b1.size b2.size) 1
      if mallocSize = sizeMax then pure (failure, some b1)
      else do
        let temp ← mallocBlock sizeMax mallocSize
        if temp = none then pure (failure, some b1)
        else do
          memcpy temp 0 b2.buffer 0 b2.size
          memcpy temp b2.size b1.buffer 0 b1.size
          free b1.buffer
          pure (0, some { b1 with buffer := temp, size := addSizeT b1.size b2.size })

def bufferClone (handle : Option Buffer) : BufferM (Option Buffer) :=
  match handle with
  | none => pure none
  | some suppliedBuff => do
    let ok ← allocate
    if ok then do
      let r ← bufferSafemalloc { buffer := none, size := 0 } suppliedBuff.size
      if r.1 ≠ 0 then pure none
      else do
        memcpy r.2.buffer 0 suppliedBuff.buffer 0 suppliedBuff.size
        pure (some { r.2 with size := suppliedBuff.size })
    else pure none

/-- The pointer that `BUFFER_u_char` returns. -/
def bufferUChar (handle : Option Buffer) : Ptr :=
  match handle with
  | none => none
  | some b => if b.size = 0 then none else b.buffer

def bufferDelete (handle : Option Buffer) : BufferM Unit :=
  match handle with
  | none => pure ()
  | some b => if b.buffer ≠ none then free b.buffer else pure ()

/-! ## Programs -/

/-- A handle is the place of its buffer among those that have been made; the other numbers are
NULL. -/
inductive Call
  | bufferNew
  | bufferCreate (source : Option Bytes) (size : Nat)
  | bufferBuild (handle : Nat) (source : Option Bytes) (size : Nat)
  | bufferAppendBuild (handle : Nat) (source : Option Bytes) (size : Nat)
  | bufferPreBuild (handle : Nat) (size : Nat)
  | bufferContent (handle : Nat) (content : Bool)
  | bufferUnbuild (handle : Nat)
  | bufferEnlarge (handle : Nat) (enlargeSize : Nat)
  | bufferShrink (handle : Nat) (decreaseSize : Nat) (fromEnd : Bool)
  | bufferSize (handle : Nat) (size : Bool)
  | bufferAppend (handle1 handle2 : Nat)
  | bufferPrepend (handle1 handle2 : Nat)
  | bufferClone (handle : Nat)

inductive Answer
  | result (result : Int)
  | handle (handle : Option Nat)
  | content (result : Int) (content : Option Ptr)
  | size (result : Int) (size : Option Nat)

def Answer.succeeds : Answer → Bool
  | .result code => code == 0
  | .handle place => place.isSome
  | .content code _ => code == 0
  | .size code _ => code == 0

def onBuffer (pool : List Buffer) (handle : Nat) (c : BufferM (Int × Option Buffer)) :
    BufferM (Answer × List Buffer) := do
  let r ← onOne pool handle c
  pure (.result r.1, r.2)

def newBuffer (pool : List Buffer) (c : BufferM (Option Buffer)) :
    BufferM (Answer × List Buffer) := do
  let r ← makeOne pool c
  pure (.handle r.1, r.2)

def perform (c : Call) (pool : List Buffer) : BufferM (Answer × List Buffer) :=
  match c with
  | .bufferNew => newBuffer pool Buffer.bufferNew
  | .bufferCreate source size => newBuffer pool (Buffer.bufferCreate source size)
  | .bufferBuild i source size => onBuffer pool i (Buffer.bufferBuild pool[i]? source size)
  | .bufferAppendBuild i source size =>
    onBuffer pool i (Buffer.bufferAppendBuild pool[i]? source size)
  | .bufferPreBuild i size => onBuffer pool i (Buffer.bufferPreBuild pool[i]? size)
  | .bufferContent i content =>
    let r := Buffer.bufferContent pool[i]? content
    pure (.content r.1 r.2, pool)
  | .bufferUnbuild i => onBuffer pool i (Buffer.bufferUnbuild pool[i]?)
  | .bufferEnlarge i enlargeSize => onBuffer pool i (Buffer.bufferEnlarge pool[i]? enlargeSize)
  | .bufferShrink i decreaseSize fromEnd =>
    onBuffer pool i (Buffer.bufferShrink pool[i]? decreaseSize fromEnd)
  | .bufferSize i size =>
    let r := Buffer.bufferSize pool[i]? size
    pure (.size r.1 r.2, pool)
  | .bufferAppend i j => onBuffer pool i (Buffer.bufferAppend pool[i]? pool[j]? (i == j))
  | .bufferPrepend i j => onBuffer pool i (Buffer.bufferPrepend pool[i]? pool[j]? (i == j))
  | .bufferClone i => newBuffer pool (Buffer.bufferClone pool[i]?)

end Buffer
end SharedUtility
