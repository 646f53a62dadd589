import SharedUtility.Reentrant.RelyGuarantee
import SharedUtility.UwsClient.Handshake

/-!
# Code — the tunnel through an HTTP proxy (`http_proxy_io.c`)

* `HttpProxyIoConfig`, `HttpProxyIoInstance` — what `http_proxy_io_create` fixes, and what changes,
* `Call`, `Proc`, `ProxyIo` — the calls out, the functions, the instance with its observer,
* `connectRequest` — the text of the CONNECT request,
* `httpProxyIoCode` — the functions, for a handle that is not NULL.
-/

namespace SharedUtility.HttpProxyIo

open Reentrant

inductive HttpProxyIoState
  | httpProxyIoStateClosed
  | httpProxyIoStateOpeningUnderlyingIo
  | httpProxyIoStateWaitingForConnectResponse
  | httpProxyIoStateOpen
  | httpProxyIoStateClosing
  | httpProxyIoStateError
  deriving DecidableEq, Repr

/-- A function pointer together with its context. -/
abbrev Callback := Nat

/-- The fields that are set by `http_proxy_io_create` only; `none` is a NULL string. -/
structure HttpProxyIoConfig where
  hostname : Bytes
  port : Int
  username : Option Bytes := none
  password : Option Bytes := none

/-- The other fields.  The callbacks are set by each open, and not used before the first. -/
structure HttpProxyIoInstance where
  httpProxyIoState : HttpProxyIoState := .httpProxyIoStateClosed
  onIoOpenComplete : Callback := 0
  onBytesReceived : Callback := 0
  onIoError : Callback := 0
  onIoCloseComplete : Option Callback := none
  receiveBuffer : Bytes := []
  deriving DecidableEq

/-! ## Calls and procedures -/

/-- Which `xio_send` of the module is made. -/
inductive SendPurpose
  | connectRequest
  | userData (onSendComplete : Option Callback)
  deriving DecidableEq, Repr

/-- Which `xio_close` of the module is made. -/
inductive ClosePurpose
  | failedOpen
  | cancelledOpen
  | closeWhileOpening
  | closeOpened
  deriving DecidableEq, Repr

inductive Call
  | malloc
  | realloc
  | errno
  | xioOpen
  | xioSend (purpose : SendPurpose) (bytes : Bytes)
  | xioClose (purpose : ClosePurpose)
  | xioDowork
  | xioDestroy
  | onIoOpenComplete (cb : Callback) (result : IoOpenResultDetailed)
  | onBytesReceived (cb : Callback) (bytes : Bytes)
  | onIoError (cb : Callback)
  | onIoCloseComplete (cb : Callback)
  deriving DecidableEq

/-- Whether an allocation succeeds, whether `errno` is set, the `int` of an `xio` function. -/
abbrev Ans : Call → Type
  | .malloc => Bool
  | .realloc => Bool
  | .errno => Bool
  | .xioOpen => Int
  | .xioSend _ _ => Int
  | .xioClose _ => Int
  | _ => Unit

def succeeds : (c : Call) → Ans c
  | .malloc => true
  | .realloc => true
  | .errno => false
  | .xioOpen => (0 : Int)
  | .xioSend _ _ => (0 : Int)
  | .xioClose _ => (0 : Int)
  | .xioDowork | .xioDestroy | .onIoOpenComplete _ _ | .onBytesReceived _ _ | .onIoError _
  | .onIoCloseComplete _ => ()

/-- Calls of the underlying io during which it may call back. -/
def Call.isXio : Call → Bool
  | .xioOpen | .xioSend _ _ | .xioClose _ | .xioDowork => true
  | _ => false

def Call.isCallback : Call → Bool
  | .onIoOpenComplete _ _ | .onBytesReceived _ _ | .onIoError _ | .onIoCloseComplete _ => true
  | _ => false

/-- The arguments of `http_proxy_io_open`; `none` is a NULL function pointer. -/
structure OpenArguments where
  onIoOpenComplete : Option Callback
  onBytesReceived : Option Callback
  onIoError : Option Callback
  deriving DecidableEq

inductive Proc
  | httpProxyIoOpen (arguments : OpenArguments)
  | httpProxyIoClose (onIoCloseComplete : Option Callback)
  | httpProxyIoSend (buffer : Option Bytes) (onSendComplete : Option Callback)
  | httpProxyIoDowork
  | httpProxyIoDestroy
  | onUnderlyingIoOpenComplete (result : IoOpenResultDetailed)
  | onUnderlyingIoBytesReceived (buffer : Bytes)
  | onUnderlyingIoError
  | onUnderlyingIoCloseComplete
  deriving DecidableEq

/-- The callbacks handed to the underlying io. -/
def Proc.isIoEvent : Proc → Bool
  | .onUnderlyingIoOpenComplete _ | .onUnderlyingIoBytesReceived _ | .onUnderlyingIoError
  | .onUnderlyingIoCloseComplete => true
  | _ => false

def Proc.isClose : Proc → Bool
  | .httpProxyIoClose _ => true
  | _ => false

abbrev httpProxyIoSignature : Signature where
  Call := Call
  Ans := Ans
  Proc := Proc

/-! ## The observed instance -/

/-- `openId` numbers the calls of `http_proxy_io_open`; that of a call out or of a close is the open
whose callbacks the instance holds. -/
inductive Event
  | call (openId : Nat) (c : Call)
  | openReturned (openId : Nat) (result : Int)
  | closeCalled (openId : Nat)
  deriving DecidableEq

/-- What the underlying io says of the connection. -/
inductive IoEvent
  | openComplete (result : IoOpenResult)
  | bytesReceived (buffer : Bytes)
  | error
  deriving DecidableEq, Repr

/-- The instance and its observer: the calls of `http_proxy_io_open` so far, the open whose callbacks
the instance holds, and since then what the underlying io has said and whether a close was called. -/
structure ProxyIo where
  inst : HttpProxyIoInstance := {}
  openCalls : Nat := 0
  currentOpen : Nat := 0
  heard : List IoEvent := []
  closeCalled : Bool := false
  destroyed : Bool := false
  log : List Event := []
  deriving DecidableEq

namespace ProxyIo

def record (s : ProxyIo) (ev : Event) : ProxyIo :=
  { s with log := s.log ++ [ev] }

def setInst (s : ProxyIo) (i : HttpProxyIoInstance) : ProxyIo :=
  { s with inst := i }

def setState (s : ProxyIo) (st : HttpProxyIoState) : ProxyIo :=
  s.setInst { s.inst with httpProxyIoState := st }

def hear (s : ProxyIo) (ev : IoEvent) : ProxyIo :=
  { s with heard := s.heard ++ [ev] }

@[simp] theorem record_inst (s : ProxyIo) (ev : Event) : (s.record ev).inst = s.inst := rfl
@[simp] theorem record_log (s : ProxyIo) (ev : Event) :
    (s.record ev).log = s.log ++ [ev] := rfl
@[simp] theorem record_currentOpen (s : ProxyIo) (ev : Event) :
    (s.record ev).currentOpen = s.currentOpen := rfl
@[simp] theorem setInst_inst (s : ProxyIo) (i : HttpProxyIoInstance) :
    (s.setInst i).inst = i := rfl
@[simp] theorem setInst_log (s : ProxyIo) (i : HttpProxyIoInstance) :
    (s.setInst i).log = s.log := rfl

@[simp] theorem setState_inst (s : ProxyIo) (st : HttpProxyIoState) :
    (s.setState st).inst = { s.inst with httpProxyIoState := st } := rfl
@[simp] theorem setState_log (s : ProxyIo) (st : HttpProxyIoState) :
    (s.setState st).log = s.log := rfl
@[simp] theorem setState_currentOpen (s : ProxyIo) (st : HttpProxyIoState) :
    (s.setState st).currentOpen = s.currentOpen := rfl
@[simp] theorem setState_openCalls (s : ProxyIo) (st : HttpProxyIoState) :
    (s.setState st).openCalls = s.openCalls := rfl
@[simp] theorem setState_heard (s : ProxyIo) (st : HttpProxyIoState) :
    (s.setState st).heard = s.heard := rfl
@[simp] theorem setState_closeCalled (s : ProxyIo) (st : HttpProxyIoState) :
    (s.setState st).closeCalled = s.closeCalled := rfl

@[simp] theorem hear_inst (s : ProxyIo) (ev : IoEvent) : (s.hear ev).inst = s.inst := rfl
@[simp] theorem hear_heard (s : ProxyIo) (ev : IoEvent) :
    (s.hear ev).heard = s.heard ++ [ev] := rfl

end ProxyIo

abbrev HttpProxyIoComp := Comp ProxyIo httpProxyIoSignature

/-! ## The CONNECT request -/

def plainAuthStringLength (username : Bytes) (password : Option Bytes) : Int :=
  let length := intOfSizeT (username.length + 1)
  match password with
  | none => length
  | some password => (BitVec.ofInt 32 (length + intOfSizeT password.length)).toInt

/-- `plain_auth_string_length + 1`, which is an `int` as well. -/
def plainAuthStringSize (username : Bytes) (password : Option Bytes) : Int :=
  (BitVec.ofInt 32 (plainAuthStringLength username password + 1)).toInt

/-- What `sprintf (…, "%s:%s", username, password)` writes. -/
def plainAuthString (username : Bytes) (password : Option Bytes) : Bytes :=
  username ++ ascii ":" ++ password.getD []

/-- `append_connect_request_segment`; `none` stands for its failure. -/
def appendConnectRequestSegment (connectRequestSize : Nat) (connectRequest segment : Bytes) :
    Option Bytes :=
  if connectRequestSize ≤ connectRequest.length then none
  else if connectRequestSize - connectRequest.length ≤ segment.length then none
  else some (connectRequest ++ segment)

/-- `append_formatted_host_for_authority`; `none` stands for its failure. -/
def appendFormattedHostForAuthority (connectRequestSize : Nat) (connectRequest host : Bytes) :
    Option Bytes :=
  if connectRequestSize ≤ connectRequest.length then none
  else if connectRequestSize - connectRequest.length ≤ authorityHostLength host then none
  else
    (formatHostForAuthority host (connectRequestSize - connectRequest.length)).bind fun formatted =>
      if safeAddSizeT connectRequest.length (authorityHostLength host) = sizeMax then none
      else some (connectRequest ++ formatted)

/-- The summands of `connect_request_length`, in order. -/
def connectRequestSummands (config : HttpProxyIoConfig) (authStringPayload : Bytes) : List Nat :=
  let port := UwsClient.formattedPort config.port
  [(ascii "CONNECT ").length, authorityHostLength config.hostname, (ascii ":").length,
    port.length, (ascii " HTTP/1.1\r\nHost:").length, authorityHostLength config.hostname,
    (ascii ":").length, port.length] ++
  (if config.username.isSome then
    [(ascii "\r\nProxy-authorization: Basic ").length, authStringPayload.length]
    else []) ++
  [(ascii "\r\n\r\n").length]

def connectRequestLength (config : HttpProxyIoConfig) (authStringPayload : Bytes) : Nat :=
  (connectRequestSummands config authStringPayload).foldl safeAddSizeT 0

/-- The request as it is copied together; `none` if a part does not fit or cannot be formatted. -/
def connectRequest (config : HttpProxyIoConfig) (authStringPayload : Bytes) : Option Bytes := do
  let connectRequestLength := connectRequestLength config authStringPayload
  let size := safeAddSizeT connectRequestLength 1
  let port := UwsClient.formattedPort config.port
  let segment := appendConnectRequestSegment size
  let host := fun request => appendFormattedHostForAuthority size request config.hostname
  let request ← segment [] (ascii "CONNECT ")
  let request ← host request
  let request ← segment request (ascii ":")
  let request ← segment request port
  let request ← segment request (ascii " HTTP/1.1\r\nHost:")
  let request ← host request
  let request ← segment request (ascii ":")
  let request ← segment request port
  let request ←
    if config.username.isSome then do
      let request ← segment request (ascii "\r\nProxy-authorization: Basic ")
      segment request authStringPayload
    else some request
  let request ← segment request (ascii "\r\n\r\n")
  if request.length ≠ connectRequestLength then none else some request

/-! ## Primitive steps -/

def getInst : HttpProxyIoComp HttpProxyIoInstance := do
  let s ← Comp.get
  pure s.inst

def modifyInst (f : HttpProxyIoInstance → HttpProxyIoInstance) : HttpProxyIoComp Unit :=
  Comp.modify fun s => s.setInst (f s.inst)

def setHttpProxyIoState (st : HttpProxyIoState) : HttpProxyIoComp Unit :=
  Comp.modify fun s => s.setState st

/-- Ask the allocator or `errno`. -/
def ask (c : Call) : HttpProxyIoComp (Ans c) :=
  @Comp.call ProxyIo httpProxyIoSignature c

def callOut (c : Call) : HttpProxyIoComp (Ans c) := do
  Comp.modify fun s => s.record (.call s.currentOpen c)
  ask c

def malloc : HttpProxyIoComp Bool := ask .malloc

/-- `malloc` of as many bytes as an `int` says. -/
def mallocInt (size : Int) : HttpProxyIoComp Bool :=
  -- A negative `int` becomes a `size_t` above the size of every object.
  if size < 0 then pure false else malloc

def realloc : HttpProxyIoComp Bool := ask .realloc

def errno : HttpProxyIoComp Bool := ask .errno

def xioOpen : HttpProxyIoComp Int := callOut .xioOpen

def xioSend (purpose : SendPurpose) (bytes : Bytes) : HttpProxyIoComp Int :=
  callOut (.xioSend purpose bytes)

def xioClose (purpose : ClosePurpose) : HttpProxyIoComp Int := callOut (.xioClose purpose)

/-- Call `on_io_open_complete`. -/
def onIoOpenComplete (result : IoOpenResultDetailed) : HttpProxyIoComp Unit := do
  let i ← getInst
  callOut (.onIoOpenComplete i.onIoOpenComplete result)

/-- Call `on_bytes_received`. -/
def onBytesReceived (bytes : Bytes) : HttpProxyIoComp Unit := do
  let i ← getInst
  callOut (.onBytesReceived i.onBytesReceived bytes)

/-- Call `on_io_error`. -/
def onIoError : HttpProxyIoComp Unit := do
  let i ← getInst
  callOut (.onIoError i.onIoError)

/-! ## Callbacks of the underlying io -/

def indicateOpenCompleteErrorAndClose (code : Int) : HttpProxyIoComp Unit := do
  setHttpProxyIoState .httpProxyIoStateClosed
  let _ ← xioClose .failedOpen
  onIoOpenComplete { result := .ioOpenError, code := code }

/-- `encoded_auth_string`, empty without a user name; `none` when it could not be made, and the
failure has been indicated. -/
def encodedAuthString (config : HttpProxyIoConfig) : HttpProxyIoComp (Option Bytes) :=
  match config.username with
  | none => pure (some [])
  | some username => do
    let length := plainAuthStringLength username config.password
    if length < 0 then do
      indicateOpenCompleteErrorAndClose failure
      pure none
    else do
      let allocated ← mallocInt (plainAuthStringSize username config.password)
      if allocated = false then do
        indicateOpenCompleteErrorAndClose failure
        pure none
      else do
        -- The allocations of `Base64_Encode_Bytes`.
        let encoded ← malloc
        if encoded = false then do
          indicateOpenCompleteErrorAndClose failure
          pure none
        else
          let plain := (plainAuthString username config.password).take length.toNat
          pure (some (base64EncodeInternal plain))

/-- Put the request together and send it. -/
def sendConnectRequestFor (config : HttpProxyIoConfig) (authStringPayload : Bytes) :
    HttpProxyIoComp Unit := do
  let length := connectRequestLength config authStringPayload
  if length = sizeMax ∨ safeAddSizeT length 1 = sizeMax then
    indicateOpenCompleteErrorAndClose failure
  else do
    let allocated ← malloc
    if allocated = false then
      indicateOpenCompleteErrorAndClose failure
    else
      match connectRequest config authStringPayload with
      | none => indicateOpenCompleteErrorAndClose failure
      | some request => do
        let r ← xioSend .connectRequest request
        if r ≠ 0 then indicateOpenCompleteErrorAndClose failure else pure ()

/-- The branch `IO_OPEN_OK` of `on_underlying_io_open_complete`. -/
def sendConnectRequest (config : HttpProxyIoConfig) : HttpProxyIoComp Unit := do
  setHttpProxyIoState .httpProxyIoStateWaitingForConnectResponse
  let authString ← encodedAuthString config
  match authString with
  | none => pure ()
  | some authStringPayload => sendConnectRequestFor config authStringPayload

def onUnderlyingIoOpenComplete (config : HttpProxyIoConfig) (openResult : IoOpenResultDetailed) :
    HttpProxyIoComp Unit := do
  Comp.modify fun s => s.hear (.openComplete openResult.result)
  let i ← getInst
  match i.httpProxyIoState with
  | .httpProxyIoStateClosing | .httpProxyIoStateOpen => onIoError
  | .httpProxyIoStateWaitingForConnectResponse => indicateOpenCompleteErrorAndClose failure
  | .httpProxyIoStateOpeningUnderlyingIo =>
    match openResult.result with
    | .ioOpenError => indicateOpenCompleteErrorAndClose openResult.code
    | .ioOpenCancelled => do
      setHttpProxyIoState .httpProxyIoStateClosed
      let _ ← xioClose .cancelledOpen
      onIoOpenComplete openResult
    | .ioOpenOk => sendConnectRequest config
  | .httpProxyIoStateClosed | .httpProxyIoStateError => pure ()

def onUnderlyingIoError : HttpProxyIoComp Unit := do
  Comp.modify fun s => s.hear .error
  let i ← getInst
  match i.httpProxyIoState with
  | .httpProxyIoStateOpeningUnderlyingIo | .httpProxyIoStateWaitingForConnectResponse =>
    indicateOpenCompleteErrorAndClose failure
  | .httpProxyIoStateOpen => do
    setHttpProxyIoState .httpProxyIoStateError
    onIoError
  | _ => pure ()

def onUnderlyingIoCloseComplete : HttpProxyIoComp Unit := do
  let i ← getInst
  match i.httpProxyIoState with
  | .httpProxyIoStateClosing => do
    setHttpProxyIoState .httpProxyIoStateClosed
    let i ← getInst
    match i.onIoCloseComplete with
    | some cb => callOut (.onIoCloseComplete cb)
    | none => pure ()
  | _ => pure ()

/-- What follows the first double new-line of the buffer. -/
def tunnelledBytes (receiveBuffer : Bytes) (responseEnd : Nat) : Bytes :=
  receiveBuffer.drop (responseEnd + 4)

/-- The CONNECT request is granted. -/
def reportOpened (tunnelled : Bytes) : HttpProxyIoComp Unit := do
  setHttpProxyIoState .httpProxyIoStateOpen
  onIoOpenComplete { result := .ioOpenOk, code := 0 }
  if tunnelled ≠ [] then onBytesReceived tunnelled else pure ()

/-- Look for the response in the receive buffer. -/
def parseConnectResponse : HttpProxyIoComp Unit := do
  let i ← getInst
  match UwsClient.findResponseEnd i.receiveBuffer with
  | none => pure ()
  | some responseEnd => do
    let errnoSet ← errno
    -- `ParseHttpResponse` is the same text as in `uws_client.c`.
    match UwsClient.parseHttpResponse i.receiveBuffer errnoSet with
    | none => indicateOpenCompleteErrorAndClose failure
    | some statusCode =>
      if statusCode < 200 ∨ statusCode > 299 then
        indicateOpenCompleteErrorAndClose failure
      else reportOpened (tunnelledBytes i.receiveBuffer responseEnd)

/-- Append to the receive buffer. -/
def accumulateConnectResponse (buffer : Bytes) : HttpProxyIoComp Unit := do
  let reallocated ← realloc
  if reallocated = false then
    indicateOpenCompleteErrorAndClose failure
  else
    modifyInst fun i => { i with receiveBuffer := i.receiveBuffer ++ buffer }

def onUnderlyingIoBytesReceived (buffer : Bytes) : HttpProxyIoComp Unit := do
  Comp.modify fun s => s.hear (.bytesReceived buffer)
  let i ← getInst
  match i.httpProxyIoState with
  | .httpProxyIoStateOpeningUnderlyingIo => indicateOpenCompleteErrorAndClose failure
  | .httpProxyIoStateWaitingForConnectResponse => do
    accumulateConnectResponse buffer
    -- This follows a failed reallocation, too.
    parseConnectResponse
  | .httpProxyIoStateOpen => onBytesReceived buffer
  | _ => pure ()

/-! ## The interface -/

/-- Store the callbacks of the open with number `k`. -/
def ProxyIo.beginOpen (s : ProxyIo) (k onIoOpenComplete onBytesReceived onIoError : Nat) :
    ProxyIo :=
  { s with
    inst := { s.inst with
      httpProxyIoState := .httpProxyIoStateOpeningUnderlyingIo
      onIoOpenComplete := onIoOpenComplete
      onBytesReceived := onBytesReceived
      onIoError := onIoError }
    currentOpen := k
    heard := []
    closeCalled := false }

def openUnderlyingIo (k : Nat) (arguments : OpenArguments) : HttpProxyIoComp Int :=
  match arguments.onIoOpenComplete, arguments.onBytesReceived, arguments.onIoError with
  | some onIoOpenComplete, some onBytesReceived, some onIoError => do
    let i ← getInst
    if i.httpProxyIoState ≠ .httpProxyIoStateClosed then pure failure
    else do
      Comp.modify fun s => s.beginOpen k onIoOpenComplete onBytesReceived onIoError
      let r ← xioOpen
      if r ≠ 0 then do
        setHttpProxyIoState .httpProxyIoStateClosed
        pure failure
      else pure 0
  | _, _, _ => pure failure

def httpProxyIoOpen (arguments : OpenArguments) : HttpProxyIoComp Int := do
  Comp.modify fun s => { s with openCalls := s.openCalls + 1 }
  let s ← Comp.get
  let r ← openUnderlyingIo s.openCalls arguments
  Comp.modify fun s' => s'.record (.openReturned s.openCalls r)
  pure r

/-- A close is called for the current open. -/
def ProxyIo.markClose (s : ProxyIo) : ProxyIo :=
  { s.record (.closeCalled s.currentOpen) with closeCalled := true }

/-- The branch of `http_proxy_io_close` for an open that is under way. -/
def closeWhileOpening : HttpProxyIoComp Int := do
  setHttpProxyIoState .httpProxyIoStateClosed
  let _ ← xioClose .closeWhileOpening
  onIoOpenComplete { result := .ioOpenCancelled, code := failure }
  pure 0

/-- The branch of `http_proxy_io_close` for an open that has succeeded. -/
def closeOpened (previousState : HttpProxyIoState) (onIoCloseComplete : Option Callback) :
    HttpProxyIoComp Int := do
  modifyInst fun i =>
    { i with
      httpProxyIoState := .httpProxyIoStateClosing
      onIoCloseComplete := onIoCloseComplete }
  let r ← xioClose .closeOpened
  if r ≠ 0 then do
    setHttpProxyIoState previousState
    pure failure
  else pure 0

def httpProxyIoClose (onIoCloseComplete : Option Callback) : HttpProxyIoComp Int := do
  Comp.modify ProxyIo.markClose
  let i ← getInst
  match i.httpProxyIoState with
  | .httpProxyIoStateClosed | .httpProxyIoStateClosing => pure failure
  | .httpProxyIoStateOpeningUnderlyingIo | .httpProxyIoStateWaitingForConnectResponse =>
    closeWhileOpening
  | .httpProxyIoStateOpen => closeOpened .httpProxyIoStateOpen onIoCloseComplete
  | .httpProxyIoStateError => closeOpened .httpProxyIoStateError onIoCloseComplete

def httpProxyIoSend (buffer : Option Bytes) (onSendComplete : Option Callback) :
    HttpProxyIoComp Int :=
  match buffer with
  | none => pure failure
  | some [] => pure failure
  | some bytes => do
    let i ← getInst
    if i.httpProxyIoState ≠ .httpProxyIoStateOpen then pure failure
    else do
      let r ← xioSend (.userData onSendComplete) bytes
      pure (if r ≠ 0 then failure else 0)

def httpProxyIoDowork : HttpProxyIoComp Unit := do
  let i ← getInst
  if i.httpProxyIoState ≠ .httpProxyIoStateClosed then callOut .xioDowork else pure ()

def httpProxyIoDestroy : HttpProxyIoComp Unit := do
  callOut .xioDestroy
  Comp.modify fun s => { s with destroyed := true }

def void (c : HttpProxyIoComp Unit) : HttpProxyIoComp Int := do
  c
  pure 0

def httpProxyIoCode (config : HttpProxyIoConfig) : Proc → HttpProxyIoComp Int
  | .httpProxyIoOpen arguments => httpProxyIoOpen arguments
  | .httpProxyIoClose onIoCloseComplete => httpProxyIoClose onIoCloseComplete
  | .httpProxyIoSend buffer onSendComplete => httpProxyIoSend buffer onSendComplete
  | .httpProxyIoDowork => void httpProxyIoDowork
  | .httpProxyIoDestroy => void httpProxyIoDestroy
  | .onUnderlyingIoOpenComplete result => void (onUnderlyingIoOpenComplete config result)
  | .onUnderlyingIoBytesReceived buffer => void (onUnderlyingIoBytesReceived buffer)
  | .onUnderlyingIoError => void onUnderlyingIoError
  | .onUnderlyingIoCloseComplete => void onUnderlyingIoCloseComplete

/-- The user calls any function while no call is being served, and `http_proxy_io_close` in its
callbacks; the underlying io makes any of its callbacks, also during its own functions. -/
def anyRun : Env ProxyIo httpProxyIoSignature where
  mayEnter top p s :=
    !s.destroyed &&
    (match top with
    | none => true
    | some c => (c.isXio && p.isIoEvent) || (c.isCallback && p.isClose))
  mayAnswer _ _ _ := true

/-! ## Runs for examples -/

def someConfig : HttpProxyIoConfig where
  hostname := ascii "h"
  port := 443

def someArguments : OpenArguments :=
  ⟨some 0, some 1, some 2⟩

/-- An open with its CONNECT request sent. -/
def connecting : List (Input httpProxyIoSignature) :=
  [.enter (.httpProxyIoOpen someArguments), .answer succeeds,
    .enter (.onUnderlyingIoOpenComplete { result := .ioOpenOk }), .answer succeeds,
    .answer succeeds]

end SharedUtility.HttpProxyIo
