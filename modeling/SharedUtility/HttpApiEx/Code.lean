import SharedUtility.CrtAbstractions
import SharedUtility.HttpHeaders

/-!
# Code — the requests of `httpapiex.c` and their retries

* `HttpApi` — what the calls of the HTTPAPI layer give, whatever has been called before,
* `Event` — the calls that have been made,
* `retryRound` — one round of the loop over the three levels,
* `httpApiExExecuteRequest`, `httpApiExSetOption`, `httpApiExDestroy`.
-/

namespace SharedUtility.HttpApiEx

inductive HttpApiExResult
  | ok
  | error
  | invalidArg
  | recoveryFailed
  deriving DecidableEq, Repr

/-- A call of the HTTPAPI layer, with its outcome. -/
inductive Event
  | init (ok : Bool)
  | deinit
  | createConnection (httpHandle : Option Nat)
  | setOption (httpHandle : Option Nat) (optionName : String)
  | executeRequest (httpHandle : Option Nat) (ok : Bool)
  | closeConnection (httpHandle : Option Nat)
  deriving DecidableEq, Repr

/-- What a request sends. -/
structure Sent where
  requestType : Nat
  relativePath : Bytes
  requestHeaders : HttpHeaders
  content : Bytes

/-- Where a request puts what it receives; a buffer without memory is `none`. -/
structure Received where
  statusCode : Option Int := none
  responseHeaders : HttpHeaders := []
  responseContent : Option Bytes := none
  deriving DecidableEq, Repr

/-- The HTTPAPI layer, given the calls that have been made. -/
structure HttpApi where
  init : List Event → Bool
  createConnection : List Event → Bytes → Option Nat
  executeRequest : List Event → Sent → Received → Bool × Received

/-- `HTTPAPIEX_HANDLE_DATA`; of the saved options the names. -/
structure HandleData where
  hostName : Bytes
  k : Int := -1
  httpHandle : Option Nat := none
  savedOptions : List String := []

/-! ## Building the request -/

/-- The arguments of `HTTPAPIEX_ExecuteRequest`; `none` is NULL, and a buffer without memory is
`some none`. -/
structure Arguments where
  requestType : Nat
  relativePath : Option Bytes := none
  requestHttpHeadersHandle : Option HttpHeaders := none
  requestContent : Option (Option Bytes) := none
  statusCode : Option (Option Int) := none
  responseHttpHeadersHandle : Option HttpHeaders := none
  responseContent : Option (Option Bytes) := none

/-- What succeeds of what `buildAllRequests` allocates and stores. -/
structure Allocations where
  requestContent : Bool := true
  requestHeaders : Bool := true
  host : Bool := true
  contentLength : Bool := true
  responseHeaders : Bool := true
  responseContent : Bool := true

/-- `COUNT_ARG(HTTPAPI_REQUEST_TYPE_VALUES)`. -/
def requestTypeCount : Nat := 5

def buildBufferIfNotExist (original : Option (Option Bytes)) (allocated : Bool) :
    Option (Option Bytes) :=
  match original with
  | some buffer => some buffer
  | none => if allocated then some none else none

def buildRequestHttpHeadersHandle (handleData : HandleData) (requestContent : Option Bytes)
    (original : Option HttpHeaders) (alloc : Allocations) : Option HttpHeaders :=
  let toBeUsed :=
    match original with
    | some headers => some headers
    | none => if alloc.requestHeaders then some [] else none
  match toBeUsed with
  | none => none
  | some headers =>
    let temp := (sizeTToString 22 (requestContent.getD []).length).getD []
    if alloc.host = false then none
    else
      match headers.replaceHeaderNameValuePair (ascii "Host") handleData.hostName with
      | none => none
      | some headers =>
        if alloc.contentLength = false then none
        else headers.replaceHeaderNameValuePair (ascii "Content-Length") temp

def buildResponseHttpHeadersHandle (original : Option HttpHeaders) (allocated : Bool) :
    Option HttpHeaders :=
  match original with
  | some headers => some headers
  | none => if allocated then some [] else none

/-- `buildAllRequests`; `none` stands for its failure. -/
def buildAllRequests (handleData : HandleData) (arguments : Arguments) (alloc : Allocations) :
    Option (Sent × Received) :=
  match buildBufferIfNotExist arguments.requestContent alloc.requestContent with
  | none => none
  | some content =>
    match buildRequestHttpHeadersHandle handleData content arguments.requestHttpHeadersHandle
        alloc with
    | none => none
    | some requestHeaders =>
      match buildResponseHttpHeadersHandle arguments.responseHttpHeadersHandle
          alloc.responseHeaders with
      | none => none
      | some responseHeaders =>
        match buildBufferIfNotExist arguments.responseContent alloc.responseContent with
        | none => none
        | some responseContent =>
          some
            ({ requestType := arguments.requestType
               relativePath := arguments.relativePath.getD []
               requestHeaders := requestHeaders
               content := content.getD [] },
             { statusCode := arguments.statusCode.getD none
               responseHeaders := responseHeaders
               responseContent := responseContent })

/-! ## The loop -/

structure Retry where
  handleData : HandleData
  st : List Bool := [false, false, false]
  received : Received
  log : List Event

namespace Retry

def k (s : Retry) : Int :=
  s.handleData.k

def tried (s : Retry) : Bool :=
  s.st.getD s.k.toNat false

def record (s : Retry) (e : Event) : Retry :=
  { s with log := s.log ++ [e] }

/-- `HTTPAPI_SetOption` for the saved options; a failure is ignored. -/
def setOptions (s : Retry) : Retry :=
  { s with
    log := s.log ++ s.handleData.savedOptions.map (.setOption s.handleData.httpHandle) }

/-- `st[k] = tried; k = k + step`. -/
def leave (s : Retry) (tried : Bool) (step : Int) : Retry :=
  { s with
    st := s.st.set s.k.toNat tried
    handleData := { s.handleData with k := s.k + step } }

/-- `st[k] = false`. -/
def clear (s : Retry) : Retry :=
  { s with st := s.st.set s.k.toNat false }

end Retry

/-- The `switch` over the levels: `goOn`. -/
def tryLevel (api : HttpApi) (sent : Sent) (s : Retry) : Bool × Retry :=
  if s.k = 0 then
    let ok := api.init s.log
    (ok, s.record (.init ok))
  else if s.k = 1 then
    let httpHandle := api.createConnection s.log s.handleData.hostName
    let s := ({ s with handleData := { s.handleData with httpHandle := httpHandle } }).record
      (.createConnection httpHandle)
    if httpHandle = none then (false, s) else (true, s.setOptions)
  else if s.k = 2 then
    let r := api.executeRequest s.log sent s.received
    (r.1, ({ s with received := r.2 }).record (.executeRequest s.handleData.httpHandle r.1))
  else (false, s)

/-- The `switch` that undoes the level that has been gone back to. -/
def undoLevel (s : Retry) : Retry :=
  if s.k = 0 then s.record .deinit
  else if s.k = 1 then
    ({ s with handleData := { s.handleData with httpHandle := none } }).record
      (.closeConnection s.handleData.httpHandle)
  else s

inductive Round
  | again (s : Retry)
  | done (result : HttpApiExResult) (s : Retry)

def retryRound (api : HttpApi) (sent : Sent) (s : Retry) : Round :=
  if s.k > 2 then .done .recoveryFailed s
  else
    let r := if s.tried then (false, s) else tryLevel api sent s
    if r.1 then
      if r.2.k = 2 then .done .ok r.2 else .again (r.2.leave true 1).clear
    else
      let s := undoLevel (r.2.leave false (-1))
      if s.k ≥ 0 then .again s else .done .recoveryFailed s

/-- The loop, for so many rounds; `none` if it has not ended then. -/
def retryLoop (api : HttpApi) (sent : Sent) : Nat → Retry → Option (HttpApiExResult × Retry)
  | 0, _ => none
  | rounds + 1, s =>
    match retryRound api sent s with
    | .again s => retryLoop api sent rounds s
    | .done result s => some (result, s)

/-! ## The functions -/

/-- The handle, and the calls of the HTTPAPI layer that have been made with it. The handle is NULL
once it has been destroyed. -/
structure Session where
  handle : Option HandleData
  log : List Event := []

/-- The handle that `HTTPAPIEX_Create` returns. -/
def Session.created (hostName : Bytes) : Session where
  handle := some { hostName := hostName }

/-- `HTTPAPIEX_ExecuteRequest`: its result, and what was received; `none` if its loop takes more than
so many rounds. -/
def httpApiExExecuteRequest (api : HttpApi) (rounds : Nat) (s : Session) (arguments : Arguments)
    (alloc : Allocations) : Option (HttpApiExResult × Option Received × Session) :=
  match s.handle with
  | none => some (.invalidArg, none, s)
  | some handleData =>
    if arguments.requestType ≥ requestTypeCount then some (.invalidArg, none, s)
    else
      match buildAllRequests handleData arguments alloc with
      | none => some (.error, none, s)
      | some (sent, received) =>
        let handleData := if handleData.k = -1 then { handleData with k := 0 } else handleData
        match retryLoop api sent rounds
            { handleData := handleData, received := received, log := s.log } with
        | none => none
        | some (result, r) =>
          some (result, some r.received, { handle := some r.handleData, log := r.log })

def httpApiExDestroy (s : Session) : Session :=
  match s.handle with
  | none => s
  | some handleData =>
    if handleData.k = 2 then
      { handle := none, log := s.log ++ [.closeConnection handleData.httpHandle, .deinit] }
    else { s with handle := none }

/-- What `HTTPAPI_CloneOption`, the saving of the option and `HTTPAPI_SetOption` give. -/
structure OptionOutcomes where
  cloned : HttpApiExResult := .ok
  saved : Bool := true
  set : HttpApiExResult := .ok

def httpApiExSetOption (s : Session) (optionName : Option String) (valueGiven : Bool)
    (outcomes : OptionOutcomes) : HttpApiExResult × Session :=
  match s.handle, optionName, valueGiven with
  | some handleData, some optionName, true =>
    if outcomes.cloned = .invalidArg then (.invalidArg, s)
    else if outcomes.cloned ≠ .ok then (.error, s)
    else if optionName ∉ handleData.savedOptions && outcomes.saved = false then (.error, s)
    else
      let handleData :=
        if optionName ∈ handleData.savedOptions then handleData
        else { handleData with savedOptions := handleData.savedOptions ++ [optionName] }
      if handleData.httpHandle ≠ none then
        (if outcomes.set = .ok then .ok
          else if outcomes.set = .invalidArg then .invalidArg else .error,
         { handle := some handleData
           log := s.log ++ [.setOption handleData.httpHandle optionName] })
      else (.ok, { s with handle := some handleData })
  | _, _, _ => (.invalidArg, s)

end SharedUtility.HttpApiEx
