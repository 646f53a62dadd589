import SharedUtility.Map.Code
import SharedUtility.Memory.Heap

/-!
# Storage — `map.c` with its arrays and its strings on the heap

`Code` has the arrays of a map by value. Here `keys` and `values` are the blocks that the code
allocates, grows, shrinks and shifts, each by a call of its own that may fail, and their slots point
to strings that are allocated, moved and freed one by one.
-/

namespace SharedUtility.Map
namespace Storage

open Memory

abbrev MapM := HeapM Bytes

/-- `MAP_HANDLE_DATA`; a block is NULL or has the slots that were allocated. -/
structure MapHandleData where
  keys : Option (List Ptr) := none
  values : Option (List Ptr) := none
  count : Nat := 0
  mapFilterCallback : Option MapFilterCallback := none

/-- `mallocAndStrcpy_s`; NULL stands for its failure. -/
def mallocAndStrcpyS (source : Bytes) : MapM Ptr :=
  malloc source

def mapCreate (mapFilterFunc : Option MapFilterCallback) : MapM (Option MapHandleData) := do
  let ok ← allocate
  if ok then pure (some { mapFilterCallback := mapFilterFunc }) else pure none

/-! ## Cloning -/

/-- The first loop of `Map_CloneVector`, from `i` on for `n` rounds: where it ends, and the array. -/
def cloneStrings (source result : Option (List Ptr)) (i : Nat) : Nat →
    MapM (Nat × Option (List Ptr))
  | 0 => pure (i, result)
  | n + 1 => do
    let p ← readAt source i
    let text ← read p
    let copy ← mallocAndStrcpyS text
    if copy = none then pure (i, result)
    else do
      let result ← writeAt result i copy
      cloneStrings source result (i + 1) n

/-- The second loop of `Map_CloneVector`, from `j` on for `n` rounds. -/
def freeStrings (result : Option (List Ptr)) (j : Nat) : Nat → MapM Unit
  | 0 => pure ()
  | n + 1 => do
    let p ← readAt result j
    free p
    freeStrings result (j + 1) n

def mapCloneVector (source : Option (List Ptr)) (count : Nat) : MapM (Option (List Ptr)) := do
  let result ← mallocArray count
  if result = none then pure none
  else do
    let r ← cloneStrings source result 0 count
    if r.1 = count then pure r.2
    else do
      freeStrings r.2 0 r.1
      pure none

def mapClone (handleData : MapHandleData) : MapM (Option MapHandleData) := do
  let ok ← allocate
  if ok = false then pure none
  else if handleData.count = 0 then pure (some {})
  else do
    let keys ← mapCloneVector handleData.keys handleData.count
    if keys = none then pure none
    else do
      let values ← mapCloneVector handleData.values handleData.count
      if values = none then do
        freeStrings keys 0 handleData.count
        pure none
      else pure (some { handleData with keys := keys, values := values })

/-! ## Growing and shrinking -/

def mapIncreaseStorageKeysValues (handleData : MapHandleData) : MapM (Int × MapHandleData) := do
  let newKeys ← reallocArray handleData.keys (handleData.count + 1)
  if newKeys = none then pure (failure, handleData)
  else do
    let keys ← writeAt newKeys handleData.count none
    let newValues ← reallocArray handleData.values (handleData.count + 1)
    if newValues = none then
      if handleData.count = 0 then pure (failure, { handleData with keys := none })
      else do
        let undoneKeys ← reallocArray keys handleData.count
        if undoneKeys = none then pure (failure, { handleData with keys := keys })
        else pure (failure, { handleData with keys := undoneKeys })
    else do
      let values ← writeAt newValues handleData.count none
      pure (0, { handleData with keys := keys, values := values, count := handleData.count + 1 })

def mapDecreaseStorageKeysValues (handleData : MapHandleData) : MapM MapHandleData :=
  if handleData.count = 1 then pure {}
  else do
    let undoneKeys ← reallocArray handleData.keys (handleData.count - 1)
    let keys := if undoneKeys = none then handleData.keys else undoneKeys
    let undoneValues ← reallocArray handleData.values (handleData.count - 1)
    let values := if undoneValues = none then handleData.values else undoneValues
    pure { handleData with keys := keys, values := values, count := handleData.count - 1 }

/-! ## Searching -/

/-- The loop of `findKey` and `findValue`, from `i` on for `n` rounds. -/
def findString (array : Option (List Ptr)) (text : Bytes) (i : Nat) : Nat → MapM (Option Nat)
  | 0 => pure none
  | n + 1 => do
    let p ← readAt array i
    let found ← read p
    if found = text then pure (some i) else findString array text (i + 1) n

/-- The index that `findKey` finds. -/
def findKey (handleData : MapHandleData) (key : Bytes) : MapM (Option Nat) :=
  if handleData.keys = none then pure none
  else findString handleData.keys key 0 handleData.count

def findValue (handleData : MapHandleData) (value : Bytes) : MapM (Option Nat) :=
  if handleData.values = none then pure none
  else findString handleData.values value 0 handleData.count

/-! ## Changing a map -/

def insertNewKeyValue (handleData : MapHandleData) (key value : Bytes) :
    MapM (Int × MapHandleData) := do
  let increased ← mapIncreaseStorageKeysValues handleData
  let handleData := increased.2
  if increased.1 ≠ 0 then pure (failure, handleData)
  else do
    let newKey ← mallocAndStrcpyS key
    if newKey = none then do
      let handleData ← mapDecreaseStorageKeysValues handleData
      pure (failure, handleData)
    else do
      let keys ← writeAt handleData.keys (handleData.count - 1) newKey
      let newValue ← mallocAndStrcpyS value
      if newValue = none then do
        free newKey
        let handleData ← mapDecreaseStorageKeysValues { handleData with keys := keys }
        pure (failure, handleData)
      else do
        let values ← writeAt handleData.values (handleData.count - 1) newValue
        pure (0, { handleData with keys := keys, values := values })

/-- The filter is there and rejects the pair. -/
def MapHandleData.rejects (handleData : MapHandleData) (key value : Bytes) : Bool :=
  match handleData.mapFilterCallback with
  | some mapFilterCallback => mapFilterCallback key value != 0
  | none => false

def mapAdd (handleData : MapHandleData) (key value : Option Bytes) :
    MapM (MapResult × MapHandleData) :=
  match key, value with
  | some key, some value => do
    let found ← findKey handleData key
    if found ≠ none then pure (.mapKeyExists, handleData)
    else if handleData.rejects key value then pure (.mapFilterReject, handleData)
    else do
      let r ← insertNewKeyValue handleData key value
      if r.1 ≠ 0 then pure (.mapError, r.2) else pure (.mapOk, r.2)
  | _, _ => pure (.mapInvalidArg, handleData)

def mapAddOrUpdate (handleData : MapHandleData) (key value : Option Bytes) :
    MapM (MapResult × MapHandleData) :=
  match key, value with
  | some key, some value =>
    if handleData.rejects key value then pure (.mapFilterReject, handleData)
    else do
      let whereIsIt ← findKey handleData key
      match whereIsIt with
      | none => do
        let r ← insertNewKeyValue handleData key value
        if r.1 ≠ 0 then pure (.mapError, r.2) else pure (.mapOk, r.2)
      | some index => do
        let p ← readAt handleData.values index
        let newValue ← realloc p value
        if newValue = none then pure (.mapError, handleData)
        else do
          let values ← writeAt handleData.values index newValue
          pure (.mapOk, { handleData with values := values })
  | _, _ => pure (.mapInvalidArg, handleData)

def mapDelete (handleData : MapHandleData) (key : Option Bytes) :
    MapM (MapResult × MapHandleData) :=
  match key with
  | some key => do
    let whereIsIt ← findKey handleData key
    match whereIsIt with
    | none => pure (.mapKeyNotFound, handleData)
    | some index => do
      let k ← readAt handleData.keys index
      free k
      let v ← readAt handleData.values index
      free v
      let keys ← moveDown handleData.keys index (handleData.count - index - 1)
      let values ← moveDown handleData.values index (handleData.count - index - 1)
      let handleData ←
        mapDecreaseStorageKeysValues { handleData with keys := keys, values := values }
      pure (.mapOk, handleData)
  | none => pure (.mapInvalidArg, handleData)

/-! ## Reading a map

A result comes with what is written through the output pointers; `given` says that they are not
NULL. -/

def mapContainsKey (handleData : MapHandleData) (key : Option Bytes) (given : Bool) :
    MapM (MapResult × Option Bool) :=
  match key, given with
  | some key, true => do
    let found ← findKey handleData key
    pure (.mapOk, some found.isSome)
  | _, _ => pure (.mapInvalidArg, none)

def mapContainsValue (handleData : MapHandleData) (value : Option Bytes) (given : Bool) :
    MapM (MapResult × Option Bool) :=
  match value, given with
  | some value, true => do
    let found ← findValue handleData value
    pure (.mapOk, some found.isSome)
  | _, _ => pure (.mapInvalidArg, none)

def mapGetValueFromKey (handleData : MapHandleData) (key : Option Bytes) : MapM Ptr :=
  match key with
  | some key => do
    let whereIsIt ← findKey handleData key
    match whereIsIt with
    | none => pure none
    | some index => readAt handleData.values index
  | none => pure none

/-- The arrays and the count that are written. -/
abbrev Internals := Option (List Ptr) × Option (List Ptr) × Nat

def mapGetInternals (handleData : MapHandleData) (given : Bool) :
    MapResult × Option Internals :=
  if given then (.mapOk, some (handleData.keys, handleData.values, handleData.count))
  else (.mapInvalidArg, none)

/-! ## Calls on several maps -/

/-- A call on the map number `handle`; the handle is NULL where there is no such map. -/
inductive MapCall
  | mapAdd (handle : Nat) (key value : Option Bytes)
  | mapAddOrUpdate (handle : Nat) (key value : Option Bytes)
  | mapDelete (handle : Nat) (key : Option Bytes)
  | mapContainsKey (handle : Nat) (key : Option Bytes) (given : Bool)
  | mapContainsValue (handle : Nat) (value : Option Bytes) (given : Bool)
  | mapGetValueFromKey (handle : Nat) (key : Option Bytes)
  | mapGetInternals (handle : Nat) (given : Bool)
  | mapClone (handle : Nat)
  deriving DecidableEq, Repr

/-- What the caller learns, with the strings that it finds behind the pointers. -/
inductive MapAnswer
  | result (r : MapResult)
  | exists (r : MapResult) (written : Option Bool)
  | value (text : Option Bytes)
  | internals (r : MapResult) (contents : Option (List Bytes × List Bytes × Nat))
  | handle (h : Option Nat)
  deriving DecidableEq, Repr

def MapCall.handle : MapCall → Nat
  | .mapAdd handle _ _ | .mapAddOrUpdate handle _ _ | .mapDelete handle _
  | .mapContainsKey handle _ _ | .mapContainsValue handle _ _ | .mapGetValueFromKey handle _
  | .mapGetInternals handle _ | .mapClone handle => handle

/-- The answer to a call with a NULL handle. -/
def MapCall.nullAnswer : MapCall → MapAnswer
  | .mapAdd .. | .mapAddOrUpdate .. | .mapDelete .. => .result .mapInvalidArg
  | .mapContainsKey .. | .mapContainsValue .. => .exists .mapInvalidArg none
  | .mapGetValueFromKey .. => .value none
  | .mapGetInternals .. => .internals .mapInvalidArg none
  | .mapClone .. => .handle none

/-- The caller reads the strings in the first slots of an array. -/
def readStrings (array : Option (List Ptr)) (i : Nat) : Nat → MapM (List Bytes)
  | 0 => pure []
  | n + 1 => do
    let p ← readAt array i
    let text ← read p
    let rest ← readStrings array (i + 1) n
    pure (text :: rest)

/-- A call on a map that there is: its answer, what becomes of the map, and the clone of it. -/
def MapCall.perform (handleData : MapHandleData) (clones : Nat) :
    MapCall → MapM (MapAnswer × MapHandleData × Option MapHandleData)
  | .mapAdd _ key value => do
    let r ← Storage.mapAdd handleData key value
    pure (.result r.1, r.2, none)
  | .mapAddOrUpdate _ key value => do
    let r ← Storage.mapAddOrUpdate handleData key value
    pure (.result r.1, r.2, none)
  | .mapDelete _ key => do
    let r ← Storage.mapDelete handleData key
    pure (.result r.1, r.2, none)
  | .mapContainsKey _ key given => do
    let r ← Storage.mapContainsKey handleData key given
    pure (.exists r.1 r.2, handleData, none)
  | .mapContainsValue _ value given => do
    let r ← Storage.mapContainsValue handleData value given
    pure (.exists r.1 r.2, handleData, none)
  | .mapGetValueFromKey _ key => do
    let p ← Storage.mapGetValueFromKey handleData key
    if p = none then pure (.value none, handleData, none)
    else do
      let text ← read p
      pure (.value (some text), handleData, none)
  | .mapGetInternals _ given =>
    match Storage.mapGetInternals handleData given with
    | (r, some (keys, values, count)) => do
      let keyTexts ← readStrings keys 0 count
      let valueTexts ← readStrings values 0 count
      pure (.internals r (some (keyTexts, valueTexts, count)), handleData, none)
    | (r, none) => pure (.internals r none, handleData, none)
  | .mapClone _ => do
    let clone ← Storage.mapClone handleData
    pure (.handle (clone.map fun _ => clones), handleData, clone)

structure Maps where
  heap : Heap Bytes
  maps : List MapHandleData

/-- A call; `none` where it is undefined. -/
def Maps.call (s : Maps) (c : MapCall) : Option (MapAnswer × Maps) :=
  match s.maps[c.handle]? with
  | none => some (c.nullAnswer, s)
  | some handleData =>
    match c.perform handleData s.maps.length s.heap with
    | none => none
    | some ((answer, handleData, clone), heap) =>
      some (answer, { heap := heap, maps := s.maps.set c.handle handleData ++ clone.toList })

/-- The maps after the calls. -/
def Maps.run : Maps → List MapCall → Option Maps
  | s, [] => some s
  | s, c :: calls => do
    let r ← s.call c
    r.2.run calls

/-- The map that `Map_Create` makes without a filter; `outcomes` says which of the allocations to
come succeed. -/
def Maps.created (outcomes : List Bool) : Maps where
  heap := { outcomes := outcomes }
  maps := [{}]

end Storage
end SharedUtility.Map
