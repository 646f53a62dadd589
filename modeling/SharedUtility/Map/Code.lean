import SharedUtility.Bytes

/-!
# Code — the functions of `map.c` that change a map

The arrays `keys` and `values` are lists of the slots that `count` counts; a slot is `none` where the
array holds NULL.  A realloc to a smaller size that fails leaves a slot behind that is not counted.
-/

namespace SharedUtility.Map

/-- Zero accepts the pair. -/
abbrev MapFilterCallback := Bytes → Bytes → Int

inductive MapResult
  | mapOk
  | mapError
  | mapInvalidArg
  | mapKeyExists
  | mapKeyNotFound
  | mapFilterReject
  deriving DecidableEq, Repr

structure MapHandleData where
  keys : List (Option Bytes) := []
  values : List (Option Bytes) := []
  mapFilterCallback : Option MapFilterCallback

def MapHandleData.count (handleData : MapHandleData) : Nat :=
  handleData.keys.length

/-- Which allocations of a call succeed. -/
structure Allocations where
  keysGrown : Bool := true
  valuesGrown : Bool := true
  keyCopied : Bool := true
  valueCopied : Bool := true
  valueResized : Bool := true
  handleAllocated : Bool := true
  keysCloned : Bool := true
  valuesCloned : Bool := true
  deriving DecidableEq, Repr

def mapCreate (mapFilterFunc : Option MapFilterCallback) (alloc : Allocations) :
    Option MapHandleData :=
  if alloc.handleAllocated then some { mapFilterCallback := mapFilterFunc } else none

def mapClone (handleData : MapHandleData) (alloc : Allocations) : Option MapHandleData :=
  if alloc.handleAllocated = false then none
  else if handleData.count = 0 then some { mapFilterCallback := none }
  else if alloc.keysCloned = false then none
  else if alloc.valuesCloned = false then none
  else some handleData

/-- `Map_IncreaseStorageKeysValues`; `none` stands for its failure, which leaves the map as it was. -/
def mapIncreaseStorageKeysValues (handleData : MapHandleData) (alloc : Allocations) :
    Option MapHandleData :=
  if alloc.keysGrown = false then none
  else if alloc.valuesGrown = false then none
  else
    some { handleData with
      keys := handleData.keys ++ [none]
      values := handleData.values ++ [none] }

/-- `Map_DecreaseStorageKeysValues`: the last slots go. -/
def mapDecreaseStorageKeysValues (handleData : MapHandleData) : MapHandleData :=
  if handleData.count = 1 then { keys := [], values := [], mapFilterCallback := none }
  else { handleData with keys := handleData.keys.dropLast, values := handleData.values.dropLast }

/-- The index that `findKey` finds. -/
def findKey (handleData : MapHandleData) (key : Bytes) : Option Nat :=
  handleData.keys.findIdx? (· == some key)

def insertNewKeyValue (handleData : MapHandleData) (key value : Bytes) (alloc : Allocations) :
    Int × MapHandleData :=
  match mapIncreaseStorageKeysValues handleData alloc with
  | none => (failure, handleData)
  | some handleData =>
    let last := handleData.count - 1
    if alloc.keyCopied = false then (failure, mapDecreaseStorageKeysValues handleData)
    else if alloc.valueCopied = false then (failure, mapDecreaseStorageKeysValues handleData)
    else
      (0, { handleData with
        keys := handleData.keys.set last (some key)
        values := handleData.values.set last (some value) })

/-- The filter is there and rejects the pair. -/
def MapHandleData.rejects (handleData : MapHandleData) (key value : Bytes) : Bool :=
  match handleData.mapFilterCallback with
  | some mapFilterCallback => mapFilterCallback key value != 0
  | none => false

def mapAdd (handleData : MapHandleData) (key value : Option Bytes) (alloc : Allocations) :
    MapResult × MapHandleData :=
  match key, value with
  | some key, some value =>
    if (findKey handleData key).isSome then (.mapKeyExists, handleData)
    else if handleData.rejects key value then (.mapFilterReject, handleData)
    else
      let r := insertNewKeyValue handleData key value alloc
      if r.1 ≠ 0 then (.mapError, r.2) else (.mapOk, r.2)
  | _, _ => (.mapInvalidArg, handleData)

def mapAddOrUpdate (handleData : MapHandleData) (key value : Option Bytes) (alloc : Allocations) :
    MapResult × MapHandleData :=
  match key, value with
  | some key, some value =>
    if handleData.rejects key value then (.mapFilterReject, handleData)
    else
      match findKey handleData key with
      | none =>
        let r := insertNewKeyValue handleData key value alloc
        if r.1 ≠ 0 then (.mapError, r.2) else (.mapOk, r.2)
      | some index =>
        if alloc.valueResized = false then (.mapError, handleData)
        else (.mapOk, { handleData with values := handleData.values.set index (some value) })
  | _, _ => (.mapInvalidArg, handleData)

def mapDelete (handleData : MapHandleData) (key : Option Bytes) : MapResult × MapHandleData :=
  match key with
  | some key =>
    match findKey handleData key with
    | none => (.mapKeyNotFound, handleData)
    | some index =>
      -- `memmove` closes the gap and leaves the last slot for the decrease.
      let moved := { handleData with
        keys := handleData.keys.eraseIdx index ++ handleData.keys.getLast?.toList
        values := handleData.values.eraseIdx index ++ handleData.values.getLast?.toList }
      (.mapOk, mapDecreaseStorageKeysValues moved)
  | none => (.mapInvalidArg, handleData)

end SharedUtility.Map
