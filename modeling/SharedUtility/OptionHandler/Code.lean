import Mathlib.Data.List.Basic

/-!
# Code — option handlers and the functions that retrieve them

* `OptionHandlerHandleData` — a handler with the options it has stored; a handle is its place in the
  heap,
* `OptionComp` — code that allocates; an `Allocator` says which allocations succeed,
* the functions of `optionhandler.c`, and `xio_retrieveoptions`, `uws_client_retrieve_options` and
  `wsio_retrieveoptions`, whose option value is a handler itself.

What is destroyed is logged.  A handler that has been destroyed stays in the heap, with what it held.
-/

namespace SharedUtility.OptionHandler

/-- What a `void*` of an option refers to: data that was copied for it, or another handler. -/
inductive Value
  | plain (k : Nat)
  | handler (h : Nat)
  deriving DecidableEq, Repr

/-- The `pfCloneOption` and `pfDestroyOption` of a component: which options they pass on as they are
and destroy as handlers, and which they copy and free.  Other names are refused, and ignored. -/
structure OptionFunctions where
  nests : String → Bool
  copies : String → Bool

/-- `OPTION`. -/
structure OptionData where
  name : String
  storage : Value
  deriving DecidableEq, Repr

/-- `OPTIONHANDLER_HANDLE_DATA`; `live` says that it has not been freed. -/
structure OptionHandlerHandleData where
  functions : OptionFunctions
  storage : List OptionData := []
  live : Bool := true

/-- `values` counts the values that were copied, `allocs` the allocations that were tried. -/
structure OptionHeap where
  handlers : List OptionHandlerHandleData := []
  values : Nat := 0
  destroyed : List Value := []
  allocs : Nat := 0

inductive OptionHandlerResult
  | optionHandlerOk
  | optionHandlerError
  | optionHandlerInvalidarg
  deriving DecidableEq, Repr

/-- What memory is allocated for: `element` is a place in the vector of a handler, for a value that
is a handler or for another one. -/
inductive Alloc
  | handlerData
  | vector
  | name
  | value
  | element (nested : Bool)
  deriving DecidableEq, Repr

/-- Whether an allocation succeeds, by its number. -/
abbrev Allocator := Alloc → Nat → Bool

abbrev OptionComp := ReaderT Allocator (StateM OptionHeap)

namespace OptionHeap

def count (s : OptionHeap) : OptionHeap :=
  { s with allocs := s.allocs + 1 }

def addHandler (s : OptionHeap) (functions : OptionFunctions) : OptionHeap :=
  { s with handlers := s.handlers ++ [{ functions := functions }] }

def addValue (s : OptionHeap) : OptionHeap :=
  { s with values := s.values + 1 }

/-- A value is destroyed. -/
def log (s : OptionHeap) (v : Value) : OptionHeap :=
  { s with destroyed := s.destroyed ++ [v] }

def setHandler (s : OptionHeap) (h : Nat) (d : OptionHandlerHandleData) : OptionHeap :=
  { s with handlers := s.handlers.set h d }

end OptionHeap

/-! ## Memory -/

def malloc (purpose : Alloc) : OptionComp Bool :=
  fun allocator s => (allocator purpose s.allocs, s.count)

/-- The handler behind a handle, if it has not been freed. -/
def getHandler (h : Nat) : OptionComp (Option OptionHandlerHandleData) := do
  let s ← get
  pure (s.handlers[h]?.filter (·.live))

/-- A clone that a component makes of a value. -/
def newValue : OptionComp Value := do
  let s ← get
  set s.addValue
  pure (.plain s.values)

/-- A handler is freed, and what it held is returned; nothing is when it has been freed before. -/
def release (h : Nat) : OptionComp (Option OptionHandlerHandleData) := do
  let d ← getHandler h
  modify fun s => s.log (.handler h)
  match d with
  | some d => do
    modify fun s => s.setHandler h { d with live := false }
    pure (some d)
  | none => pure none

/-! ## The functions of a component -/

/-- `pfCloneOption`. -/
def cloneOption (f : OptionFunctions) (name : String) (value : Value) :
    OptionComp (Option Value) := do
  if f.nests name then pure (some value)
  else if f.copies name then do
    let copied ← malloc .value
    if copied = false then pure none
    else do
      let clone ← newValue
      pure (some clone)
  else pure none

/-- `pfDestroyOption`, for a value that is of the kind that the name says. -/
def destroyOption (destroyHandler : Nat → OptionComp Unit) (f : OptionFunctions) (name : String)
    (value : Value) : OptionComp Unit :=
  match value with
  | .handler h => if f.nests name then destroyHandler h else pure ()
  | .plain k => if f.copies name then modify fun s => s.log (.plain k) else pure ()

/-! ## Option handlers -/

def createInternal (functions : OptionFunctions) : OptionComp (Option Nat) := do
  let allocated ← malloc .handlerData
  if allocated = false then pure none
  else do
    let created ← malloc .vector
    if created = false then pure none
    else do
      let s ← get
      set (s.addHandler functions)
      pure (some s.handlers.length)

/-- The loop of `DestroyInternal`. -/
def destroyOptions (destroyHandler : Nat → OptionComp Unit) (f : OptionFunctions) :
    List OptionData → OptionComp Unit
  | [] => pure ()
  | option :: rest => do
    destroyOption destroyHandler f option.name option.storage
    destroyOptions destroyHandler f rest

/-- `DestroyInternal`, to a depth that is enough when it exceeds the number of the handlers: each that
it meets is released, and one that was released before is not looked into. -/
def destroyInternal : Nat → Nat → OptionComp Unit
  | 0, _ => pure ()
  | depth + 1, h => do
    let released ← release h
    match released with
    | some d => destroyOptions (destroyInternal depth) d.functions d.storage
    | none => pure ()

def optionHandlerDestroy (handle : Option Nat) : OptionComp Unit :=
  match handle with
  | none => pure ()
  | some h => do
    let s ← get
    destroyInternal (s.handlers.length + 1) h

def addOptionInternal (handle : Nat) (name : String) (value : Value) :
    OptionComp OptionHandlerResult := do
  let cloneOfName ← malloc .name
  if cloneOfName = false then pure .optionHandlerError
  else do
    let d ← getHandler handle
    match d with
    | none => pure .optionHandlerError
    | some d => do
      let cloneOfValue ← cloneOption d.functions name value
      match cloneOfValue with
      | none => pure .optionHandlerError
      | some cloneOfValue => do
        let pushed ← malloc (.element (d.functions.nests name))
        if pushed = false then do
          destroyOption (fun h => optionHandlerDestroy (some h)) d.functions name cloneOfValue
          pure .optionHandlerError
        else do
          modify fun s =>
            s.setHandler handle
              { d with storage := d.storage ++ [{ name := name, storage := cloneOfValue }] }
          pure .optionHandlerOk

def optionHandlerCreate (functions : OptionFunctions) : OptionComp (Option Nat) :=
  createInternal functions

def optionHandlerAddOption (handle : Option Nat) (name : Option String) (value : Option Value) :
    OptionComp OptionHandlerResult :=
  match handle, name, value with
  | some handle, some name, some value => addOptionInternal handle name value
  | _, _, _ => pure .optionHandlerInvalidarg

/-- The loop of `OptionHandler_Clone`. -/
def cloneOptions (clone : Nat) : List OptionData → OptionComp OptionHandlerResult
  | [] => pure .optionHandlerOk
  | option :: rest => do
    let r ← addOptionInternal clone option.name option.storage
    if r ≠ .optionHandlerOk then pure .optionHandlerError else cloneOptions clone rest

def optionHandlerClone (handler : Option Nat) : OptionComp (Option Nat) := do
  match handler with
  | none => pure none
  | some h => do
    let d ← getHandler h
    match d with
    | none => pure none
    | some d => do
      let result ← createInternal d.functions
      match result with
      | none => pure none
      | some clone => do
        let r ← cloneOptions clone d.storage
        if r ≠ .optionHandlerOk then do
          optionHandlerDestroy (some clone)
          pure none
        else pure (some clone)

/-! ## Retrieved handlers -/

/-- Functions that know one option, whose value is a handler. -/
def nestedFunctions (options : String) : OptionFunctions where
  nests name := name == options
  copies _ := false

/-- A handler with one option, whose value is the handler that `retrieve` gives. -/
def retrieveNested (options : String) (retrieve : OptionComp (Option Nat)) :
    OptionComp (Option Nat) := do
  let result ← optionHandlerCreate (nestedFunctions options)
  match result with
  | none => pure none
  | some h => do
    let nested ← retrieve
    match nested with
    | none => do
      optionHandlerDestroy (some h)
      pure none
    | some nested => do
      let r ← optionHandlerAddOption (some h) (some options) (some (.handler nested))
      if r ≠ .optionHandlerOk then do
        optionHandlerDestroy (some nested)
        optionHandlerDestroy (some h)
        pure none
      else pure (some h)

/-- `CONCRETE_OPTIONS` of `xio.c`. -/
def concreteOptions : String := "concreteOptions"

/-- `UWS_CLIENT_OPTIONS` of `uws_client.c`. -/
def uwsClientOptions : String := "uWSClientOptions"

/-- `WSIO_OPTIONS` of `wsio.c`. -/
def wsioOptions : String := "WSIOOptions"

/-- The argument is the `concrete_io_retrieveoptions` of the io. -/
def xioRetrieveoptions (concreteIoRetrieveoptions : OptionComp (Option Nat)) :
    OptionComp (Option Nat) :=
  retrieveNested concreteOptions concreteIoRetrieveoptions

def uwsClientRetrieveOptions (concreteIoRetrieveoptions : OptionComp (Option Nat)) :
    OptionComp (Option Nat) :=
  retrieveNested uwsClientOptions (xioRetrieveoptions concreteIoRetrieveoptions)

def wsioRetrieveoptions (concreteIoRetrieveoptions : OptionComp (Option Nat)) :
    OptionComp (Option Nat) :=
  retrieveNested wsioOptions (uwsClientRetrieveOptions concreteIoRetrieveoptions)

/-- The io under an xio: one that copies its own options, such as a socket, or a wsio with the io that
is under it. -/
inductive ConcreteIo
  | own (copies : String → Bool) (options : List (String × Value))
  | wsio (underlying : ConcreteIo)

/-- An io adds its own options one by one, and gives up where one cannot be added. -/
def addOptions (h : Nat) : List (String × Value) → OptionComp OptionHandlerResult
  | [] => pure .optionHandlerOk
  | (name, value) :: rest => do
    let r ← optionHandlerAddOption (some h) (some name) (some value)
    if r ≠ .optionHandlerOk then pure .optionHandlerError else addOptions h rest

def ConcreteIo.retrieveoptions : ConcreteIo → OptionComp (Option Nat)
  | .own copies options => do
    let result ← optionHandlerCreate { nests := fun _ => false, copies := copies }
    match result with
    | none => pure none
    | some h => do
      let r ← addOptions h options
      if r ≠ .optionHandlerOk then do
        optionHandlerDestroy (some h)
        pure none
      else pure (some h)
  | .wsio underlying => wsioRetrieveoptions underlying.retrieveoptions

end SharedUtility.OptionHandler
