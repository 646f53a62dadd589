import SharedUtility.HttpApiEx.Code
import SharedUtility.Memory.Pool

/-!
# HttpApiEx.Options — `httpapiex.c` with the values of the saved options

`Code` has of a saved option the name. Here an option is a pair of a name and a pointer to the clone of its
value, which is allocated and freed on a heap; a value that has been freed cannot be passed on. The vector of the
options is a list.
-/

namespace SharedUtility.HttpApiEx
namespace Options

open Memory

variable {V : Type}

/-- `HTTPAPIEX_SAVED_OPTION`. -/
structure SavedOption where
  optionName : String
  value : Ptr

/-- `HTTPAPIEX_HANDLE_DATA`. -/
structure OptionHandle where
  hostName : Bytes
  k : Int := -1
  httpHandle : Option Nat := none
  savedOptions : List SavedOption := []

/-- A call of the HTTPAPI layer; `HTTPAPI_SetOption` is told with the value that it is given. -/
inductive Happening (V : Type)
  | call (e : Event)
  | setOption (httpHandle : Option Nat) (optionName : String) (value : V)

def Happening.event : Happening V → Option Event
  | .call e => some e
  | .setOption httpHandle optionName _ => some (.setOption httpHandle optionName)

def calls (trace : List (Happening V)) : List Event :=
  trace.filterMap Happening.event

/-! ## The loop -/

structure OptionRetry (V : Type) where
  handleData : OptionHandle
  st : List Bool := [false, false, false]
  received : Received
  trace : List (Happening V)

namespace OptionRetry

def k (s : OptionRetry V) : Int :=
  s.handleData.k

def tried (s : OptionRetry V) : Bool :=
  s.st.getD s.k.toNat false

def record (s : OptionRetry V) (e : Event) : OptionRetry V :=
  { s with trace := s.trace ++ [.call e] }

/-- `st[k] = tried; k = k + step`. -/
def leave (s : OptionRetry V) (tried : Bool) (step : Int) : OptionRetry V :=
  { s with
    st := s.st.set s.k.toNat tried
    handleData := { s.handleData with k := s.k + step } }

/-- `st[k] = false`. -/
def clear (s : OptionRetry V) : OptionRetry V :=
  { s with st := s.st.set s.k.toNat false }

end OptionRetry

/-- `HTTPAPI_SetOption` for the elements of the vector; a failure is ignored. -/
def giveOptions (httpHandle : Option Nat) : List SavedOption → HeapM V (List (Happening V))
  | [] => pure []
  | option :: savedOptions => do
    let value ← read option.value
    let given ← giveOptions httpHandle savedOptions
    pure (.setOption httpHandle option.optionName value :: given)

/-- The `switch` over the levels: `goOn`. -/
def tryLevel (api : HttpApi) (sent : Sent) (s : OptionRetry V) : HeapM V (Bool × OptionRetry V) :=
  if s.k = 0 then
    let ok := api.init (calls s.trace)
    pure (ok, s.record (.init ok))
  else if s.k = 1 then do
    let httpHandle := api.createConnection (calls s.trace) s.handleData.hostName
    let s := ({ s with handleData := { s.handleData with httpHandle := httpHandle } }).record
      (.createConnection httpHandle)
    if httpHandle = none then pure (false, s)
    else do
      let given ← giveOptions httpHandle s.handleData.savedOptions
      pure (true, { s with trace := s.trace ++ given })
  else if s.k = 2 then
    let r := api.executeRequest (calls s.trace) sent s.received
    pure (r.1, ({ s with received := r.2 }).record (.executeRequest s.handleData.httpHandle r.1))
  else pure (false, s)

/-- `goOn`; what has been tried already fails. -/
def tryOnce (api : HttpApi) (sent : Sent) (s : OptionRetry V) : HeapM V (Bool × OptionRetry V) :=
  if s.tried then pure (false, s) else tryLevel api sent s

/-- The `switch` that undoes the level that has been gone back to. -/
def undoLevel (s : OptionRetry V) : OptionRetry V :=
  if s.k = 0 then s.record .deinit
  else if s.k = 1 then
    ({ s with handleData := { s.handleData with httpHandle := none } }).record
      (.closeConnection s.handleData.httpHandle)
  else s

inductive OptionRound (V : Type)
  | again (s : OptionRetry V)
  | done (result : HttpApiExResult) (s : OptionRetry V)

def retryRound (api : HttpApi) (sent : Sent) (s : OptionRetry V) : HeapM V (OptionRound V) :=
  if s.k > 2 then pure (.done .recoveryFailed s)
  else do
    let r ← tryOnce api sent s
    if r.1 then
      if r.2.k = 2 then pure (.done .ok r.2) else pure (.again (r.2.leave true 1).clear)
    else
      let s := undoLevel (r.2.leave false (-1))
      if s.k ≥ 0 then pure (.again s) else pure (.done .recoveryFailed s)

/-- The loop, for so many rounds; `none` if it has not ended then. -/
def retryLoop (api : HttpApi) (sent : Sent) :
    Nat → OptionRetry V → HeapM V (Option (HttpApiExResult × OptionRetry V))
  | 0, _ => pure none
  | rounds + 1, s => do
    let round ← retryRound api sent s
    match round with
    | .again s => retryLoop api sent rounds s
    | .done result s => pure (some (result, s))

/-! ## The functions -/

/-- The handle, and what has happened with it. -/
structure OptionSession (V : Type) where
  handle : OptionHandle
  trace : List (Happening V) := []

/-- The handle that `HTTPAPIEX_Create` returns. -/
def OptionSession.created (hostName : Bytes) : OptionSession V where
  handle := { hostName := hostName }

def OptionHandle.plain (handleData : OptionHandle) : HandleData where
  hostName := handleData.hostName
  k := handleData.k
  httpHandle := handleData.httpHandle
  savedOptions := handleData.savedOptions.map SavedOption.optionName

/-- `HTTPAPIEX_ExecuteRequest`: its result; `none` if its loop takes more than so many rounds. -/
def httpApiExExecuteRequest (api : HttpApi) (rounds : Nat) (s : OptionSession V) (arguments : Arguments)
    (alloc : Allocations) : HeapM V (Option (HttpApiExResult × OptionSession V)) :=
  if arguments.requestType ≥ requestTypeCount then pure (some (.invalidArg, s))
  else
    match buildAllRequests s.handle.plain arguments alloc with
    | none => pure (some (.error, s))
    | some (sent, received) => do
      let handleData := if s.handle.k = -1 then { s.handle with k := 0 } else s.handle
      let r ← retryLoop api sent rounds
        { handleData := handleData, received := received, trace := s.trace }
      match r with
      | none => pure none
      | some (result, r) => pure (some (result, { handle := r.handleData, trace := r.trace }))

/-- `VECTOR_find_if` with `sameName`: the place of the element, and the element. -/
def findOption (savedOptions : List SavedOption) (optionName : String) : Option (Nat × SavedOption) :=
  (savedOptions.findIdx? fun option => option.optionName = optionName).bind fun i =>
    savedOptions[i]?.map fun option => (i, option)

def createOrUpdateOption (handleData : OptionHandle) (optionName : String) (value : Ptr) :
    HeapM V (Int × OptionHandle) :=
  match findOption handleData.savedOptions optionName with
  | some (i, whereIsIt) => do
    free whereIsIt.value
    pure (0, { handleData with
      savedOptions := handleData.savedOptions.set i { whereIsIt with value := value } })
  | none => do
    let copied ← allocate
    if copied = false then do
      free value
      pure (failure, handleData)
    else do
      let pushed ← allocate
      if pushed = false then do
        free value
        pure (failure, handleData)
      else
        let newOption := { optionName := optionName, value := value }
        pure (0, { handleData with savedOptions := handleData.savedOptions ++ [newOption] })

/-- What `HTTPAPI_CloneOption` and `HTTPAPI_SetOption` return. -/
structure SetOutcomes where
  cloned : HttpApiExResult := .ok
  set : HttpApiExResult := .ok

/-- `HTTPAPIEX_SetOption`; `clone` says what `HTTPAPI_CloneOption` makes of a value. -/
def httpApiExSetOption (clone : String → V → V) (s : OptionSession V) (optionName : Option String)
    (value : Option V) (outcomes : SetOutcomes) : HeapM V (HttpApiExResult × OptionSession V) :=
  match optionName, value with
  | some optionName, some value =>
    if outcomes.cloned = .invalidArg then pure (.invalidArg, s)
    else if outcomes.cloned ≠ .ok then pure (.error, s)
    else do
      let savedOption ← new (clone optionName value)
      let r ← createOrUpdateOption s.handle optionName savedOption
      if r.1 ≠ 0 then pure (.error, { s with handle := r.2 })
      else if r.2.httpHandle ≠ none then
        pure
          (if outcomes.set = .ok then .ok
            else if outcomes.set = .invalidArg then .invalidArg else .error,
           { handle := r.2, trace := s.trace ++ [.setOption r.2.httpHandle optionName value] })
      else pure (.ok, { s with handle := r.2 })
  | _, _ => pure (.invalidArg, s)

inductive OptionCall (V : Type)
  | executeRequest (arguments : Arguments) (alloc : Allocations)
  | setOption (optionName : Option String) (value : Option V) (outcomes : SetOutcomes)

/-- A call on the handle; `none` if the loop takes more than so many rounds. -/
def OptionSession.call (api : HttpApi) (clone : String → V → V) (rounds : Nat) (s : OptionSession V) :
    OptionCall V → HeapM V (Option (HttpApiExResult × OptionSession V))
  | .executeRequest arguments alloc => httpApiExExecuteRequest api rounds s arguments alloc
  | .setOption optionName value outcomes => do
    let r ← httpApiExSetOption clone s optionName value outcomes
    pure (some r)

end Options
end SharedUtility.HttpApiEx
