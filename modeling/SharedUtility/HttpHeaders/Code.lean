import SharedUtility.HttpHeaders
import SharedUtility.Map.Refinement
import SharedUtility.Memory.Block
import SharedUtility.Strings.Code

/-!
# HttpHeaders.Code — `httpheaders.c` over the map on the heap

`HTTP_HEADERS_HANDLE_DATA` holds a map and nothing else. The block that is freed again, and the one that
goes to the caller, are not cells of the heap; a write behind the end of either is undefined.
-/

namespace SharedUtility.HttpHeaders
namespace Stored

open Memory Map.Storage
open Strings (CString ptrdiffMax)

inductive HttpHeadersResult
  | ok
  | invalidArg
  | allocFailed
  | error
  deriving DecidableEq, Repr

/-- The characters are written behind what is in the block. -/
def writeAll (block : Block UInt8) (characters : Bytes) : MapM (Block UInt8) :=
  fun h => (block.putAll characters).map fun block => (block, h)

/-- A block for two strings, with two characters between them and a NUL behind them. -/
def mallocJoined (first : Bytes) (c d : UInt8) (second : Bytes) : MapM (Option (Block UInt8)) := do
  let size := addSizeT (addSizeT (addSizeT first.length 2) second.length) 1
  let ok ← allocateUpTo ptrdiffMax size
  if ok then do
    let block ← writeAll (.allocate size) first
    let block ← writeAll block [c]
    let block ← writeAll block [d]
    let block ← writeAll block (second ++ [0])
    pure (some block)
  else pure none

def headersReplaceHeaderNameValuePair (handleData : MapHandleData) (name value : Option CString)
    (replace : Bool) : MapM (HttpHeadersResult × MapHandleData) :=
  match name, value with
  | some name, some value =>
    if name.text.all isNameChar = false then pure (.invalidArg, handleData)
    else do
      let existingValue ← mapGetValueFromKey handleData (some name.text)
      let value := value.text.dropWhile isLws
      if replace = false ∧ existingValue ≠ none then do
        let existing ← read existingValue
        let newValue ← mallocJoined existing 0x2C 0x20 value
        match newValue with
        | none => pure (.allocFailed, handleData)
        | some newValue => do
          let r ← Map.Storage.mapAddOrUpdate handleData (some name.text) (some (cString newValue.written))
          if r.1 ≠ .mapOk then pure (.error, r.2) else pure (.ok, r.2)
      else do
        let r ← Map.Storage.mapAddOrUpdate handleData (some name.text) (some value)
        if r.1 ≠ .mapOk then pure (.allocFailed, r.2) else pure (.ok, r.2)
  | _, _ => pure (.invalidArg, handleData)

def httpHeadersAddHeaderNameValuePair (handleData : MapHandleData) (name value : Option CString) :
    MapM (HttpHeadersResult × MapHandleData) :=
  headersReplaceHeaderNameValuePair handleData name value false

def httpHeadersReplaceHeaderNameValuePair (handleData : MapHandleData) (name value : Option CString) :
    MapM (HttpHeadersResult × MapHandleData) :=
  headersReplaceHeaderNameValuePair handleData name value true

def httpHeadersFindHeaderValue (handleData : MapHandleData) (name : Option CString) : MapM Ptr :=
  match name with
  | none => pure none
  | some name => mapGetValueFromKey handleData (some name.text)

/-- `given`: whether the pointer for the count is not NULL. -/
def httpHeadersGetHeaderCount (handleData : MapHandleData) (given : Bool) :
    HttpHeadersResult × Option Nat :=
  if given = false then (.invalidArg, none)
  else
    match mapGetInternals handleData given with
    | (.mapOk, some (_, _, headerCount)) => (.ok, some headerCount)
    | _ => (.error, none)

/-- The result, and the block that `*destination` points to. -/
def httpHeadersGetHeader (handleData : MapHandleData) (index : Nat) (given : Bool) :
    MapM (HttpHeadersResult × Option (Block UInt8)) :=
  if given = false then pure (.invalidArg, none)
  else
    match mapGetInternals handleData true with
    | (.mapOk, some (keys, values, headerCount)) =>
      if index ≥ headerCount then pure (.invalidArg, none)
      else do
        let k ← readAt keys index
        let key ← read k
        let v ← readAt values index
        let value ← read v
        let destination ← mallocJoined key 0x3A 0x20 value
        match destination with
        | none => pure (.error, none)
        | some destination => pure (.ok, some destination)
    | _ => pure (.error, none)

def httpHeadersClone (handleData : MapHandleData) : MapM (Option MapHandleData) := do
  let ok ← allocate
  if ok then mapClone handleData else pure none

/-! ## Calls on several handles -/

/-- A call on the handle number `handle`; it is NULL where there is no such handle. -/
inductive HeadersCall
  | addHeaderNameValuePair (handle : Nat) (name value : Option CString)
  | replaceHeaderNameValuePair (handle : Nat) (name value : Option CString)
  | findHeaderValue (handle : Nat) (name : Option CString)
  | getHeaderCount (handle : Nat) (given : Bool)
  | getHeader (handle index : Nat) (given : Bool)
  | clone (handle : Nat)

/-- What the caller learns, with the strings that it finds behind the pointers. -/
inductive HeadersAnswer
  | result (r : HttpHeadersResult)
  | value (text : Option Bytes)
  | count (r : HttpHeadersResult) (headerCount : Option Nat)
  | header (r : HttpHeadersResult) (destination : Option Bytes)
  | handle (h : Option Nat)
  deriving DecidableEq, Repr

def HeadersCall.handle : HeadersCall → Nat
  | .addHeaderNameValuePair handle _ _ | .replaceHeaderNameValuePair handle _ _ | .findHeaderValue handle _
  | .getHeaderCount handle _ | .getHeader handle _ _ | .clone handle => handle

/-- The answer to a call with a NULL handle. -/
def HeadersCall.nullAnswer : HeadersCall → HeadersAnswer
  | .addHeaderNameValuePair .. | .replaceHeaderNameValuePair .. => .result .invalidArg
  | .findHeaderValue .. => .value none
  | .getHeaderCount .. => .count .invalidArg none
  | .getHeader .. => .header .invalidArg none
  | .clone .. => .handle none

/-- A call on a handle that there is: its answer, what becomes of the map, and the clone of it. -/
def HeadersCall.perform (handleData : MapHandleData) (clones : Nat) :
    HeadersCall → MapM (HeadersAnswer × MapHandleData × Option MapHandleData)
  | .addHeaderNameValuePair _ name value => do
    let r ← httpHeadersAddHeaderNameValuePair handleData name value
    pure (.result r.1, r.2, none)
  | .replaceHeaderNameValuePair _ name value => do
    let r ← httpHeadersReplaceHeaderNameValuePair handleData name value
    pure (.result r.1, r.2, none)
  | .findHeaderValue _ name => do
    let p ← httpHeadersFindHeaderValue handleData name
    if p = none then pure (.value none, handleData, none)
    else do
      let text ← read p
      pure (.value (some text), handleData, none)
  | .getHeaderCount _ given =>
    let r := httpHeadersGetHeaderCount handleData given
    pure (.count r.1 r.2, handleData, none)
  | .getHeader _ index given => do
    let r ← httpHeadersGetHeader handleData index given
    pure (.header r.1 (r.2.map fun destination => cString destination.written), handleData, none)
  | .clone _ => do
    let clone ← httpHeadersClone handleData
    pure (.handle (clone.map fun _ => clones), handleData, clone)

/-- A call; `none` where it is undefined. -/
def headersCall (s : Maps) (c : HeadersCall) : Option (HeadersAnswer × Maps) :=
  match s.maps[c.handle]? with
  | none => some (c.nullAnswer, s)
  | some handleData =>
    match c.perform handleData s.maps.length s.heap with
    | none => none
    | some ((answer, handleData, clone), heap) =>
      some (answer, { heap := heap, maps := s.maps.set c.handle handleData ++ clone.toList })

end Stored
end SharedUtility.HttpHeaders
