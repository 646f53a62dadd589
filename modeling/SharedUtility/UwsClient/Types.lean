import SharedUtility.Reentrant.Machine
import SharedUtility.UwsFrameEncoder
import SharedUtility.Xio

/-!
# Types — the instance of `uws_client.c`, its calls and its procedures

* `UwsClientInstance` — the fields of `UWS_CLIENT_INSTANCE`,
* `Call`, `Ans` — what the client asks of its underlying io, of its user and of the allocator,
* `Proc` — the functions of the module that somebody else may call, and its two loops,
* `Uws` — the instance with a log of what an observer has seen so far.

A callback with its context is identified by a number; handles of list items are numbers that are
never reused, so that a freed item can be told from a live one.
-/

namespace SharedUtility.UwsClient

open Reentrant

inductive UwsState
  | uwsStateClosed
  | uwsStateOpeningUnderlyingIo
  | uwsStateWaitingForUpgradeResponse
  | uwsStateOpen
  | uwsStateClosingWaitingForClose
  | uwsStateClosingSendingClose
  | uwsStateClosingUnderlyingIo
  | uwsStateError
  deriving DecidableEq, Repr

inductive WsOpenResult
  | wsOpenOk
  | wsOpenErrorUnderlyingIoOpenFailed
  | wsOpenErrorUnderlyingIoOpenCancelled
  | wsOpenErrorNotEnoughMemory
  | wsOpenErrorCannotConstructUpgradeRequest
  | wsOpenErrorCannotSendUpgradeRequest
  | wsOpenErrorMultipleUnderlyingIoOpenEvents
  | wsOpenErrorConstructingUpgradeRequest
  | wsOpenErrorInvalidBytesReceivedArguments
  | wsOpenErrorBytesReceivedBeforeUnderlyingOpen
  | wsOpenCancelled
  | wsOpenErrorUnderlyingIoError
  | wsOpenErrorBadUpgradeResponse
  | wsOpenErrorBase64EncodeFailed
  | wsOpenErrorBadResponseStatus
  deriving DecidableEq, Repr

/-- `WS_OPEN_RESULT_DETAILED`; `buffer` comes with its size. -/
structure WsOpenResultDetailed where
  result : WsOpenResult
  code : Int := 0
  buffer : Option Bytes := none
  deriving DecidableEq, Repr

inductive WsError
  | wsErrorNotEnoughMemory
  | wsErrorBadFrameReceived
  | wsErrorCannotRemoveSentItemFromList
  | wsErrorUnderlyingIoError
  | wsErrorCannotCloseUnderlyingIo
  deriving DecidableEq, Repr

inductive WsSendFrameResult
  | wsSendFrameOk
  | wsSendFrameError
  | wsSendFrameCancelled
  deriving DecidableEq, Repr

def wsFrameTypeUnknown : UInt8 := 0x00
def wsFrameTypeText : UInt8 := 0x01
def wsFrameTypeBinary : UInt8 := 0x02

/-- A function pointer together with its context. -/
abbrev Callback := Nat

/-- The callbacks given to `uws_client_open_async`; `none` is a NULL function pointer. -/
structure OpenCallbacks where
  onWsOpenComplete : Option Callback
  onWsFrameReceived : Option Callback
  onWsPeerClosed : Option Callback
  onWsError : Option Callback
  deriving DecidableEq, Repr

/-- `WS_PENDING_SEND` with the handle of its list item. -/
structure WsPendingSend where
  item : Nat
  onWsSendFrameComplete : Option Callback
  deriving DecidableEq, Repr

/-- What `fragment_buffer` points to; `freed` is a block that `realloc` has given back. -/
inductive FragmentBlock
  | null
  | allocated
  | freed
  deriving DecidableEq, Repr

/-- `UWS_CLIENT_INSTANCE`.  A buffer is the list of the bytes it counts. -/
structure UwsClientInstance where
  pendingSends : List WsPendingSend := []
  hostname : Bytes
  resourceName : Bytes
  protocols : List Bytes
  port : Int
  requestHeaders : List (Bytes × Bytes)
  uwsState : UwsState := .uwsStateClosed
  callbacks : OpenCallbacks := ⟨none, none, none, none⟩
  onWsCloseComplete : Option Callback := none
  streamBuffer : Bytes := []
  fragmentBuffer : Bytes := []
  fragmentBlock : FragmentBlock := .null
  fragmentedFrameType : UInt8 := wsFrameTypeUnknown
  deriving DecidableEq

namespace UwsClientInstance

/-- The instance with other bytes in the stream buffer. -/
def withStream (c : UwsClientInstance) (buffer : Bytes) : UwsClientInstance :=
  { c with streamBuffer := buffer }

@[simp] theorem withStream_uwsState (c : UwsClientInstance) (buffer : Bytes) :
    (c.withStream buffer).uwsState = c.uwsState := rfl
@[simp] theorem withStream_callbacks (c : UwsClientInstance) (buffer : Bytes) :
    (c.withStream buffer).callbacks = c.callbacks := rfl
@[simp] theorem withStream_streamBuffer (c : UwsClientInstance) (buffer : Bytes) :
    (c.withStream buffer).streamBuffer = buffer := rfl
@[simp] theorem withStream_fragmentBuffer (c : UwsClientInstance) (buffer : Bytes) :
    (c.withStream buffer).fragmentBuffer = c.fragmentBuffer := rfl
@[simp] theorem withStream_fragmentBlock (c : UwsClientInstance) (buffer : Bytes) :
    (c.withStream buffer).fragmentBlock = c.fragmentBlock := rfl
@[simp] theorem withStream_fragmentedFrameType (c : UwsClientInstance) (buffer : Bytes) :
    (c.withStream buffer).fragmentedFrameType = c.fragmentedFrameType := rfl
@[simp] theorem withStream_withStream (c : UwsClientInstance) (buffer buffer' : Bytes) :
    (c.withStream buffer).withStream buffer' = c.withStream buffer' := rfl

end UwsClientInstance

/-! ## Calls out -/

/-- Which `xio_send` of the module is made; `dataFrame` names the list item it passes as context. -/
inductive SendPurpose
  | upgradeRequest
  | closeFrame
  | closeResponse
  | pongFrame
  | dataFrame (item : Nat)
  deriving DecidableEq, Repr

/-- Which `xio_close` of the module is made. -/
inductive ClosePurpose
  | failedOpen
  | ioErrorWhileClosing
  | closeSent
  | badCloseReason
  | closeHandshakeDone
  | closeResponseFailed
  | closeAsync
  deriving DecidableEq, Repr

/-- Whether `on_underlying_io_close_complete` is passed, and not NULL. -/
def ClosePurpose.wantsCloseComplete : ClosePurpose → Bool
  | .failedOpen | .ioErrorWhileClosing => false
  | _ => true

inductive Call
  | malloc
  | encoderResources
  | nonce
  | errno
  | xioOpen
  | xioSend (purpose : SendPurpose) (bytes : Bytes)
  | xioClose (purpose : ClosePurpose)
  | xioDestroy
  | xioDowork
  | onWsOpenComplete (cb : Callback) (result : WsOpenResultDetailed)
  | onWsFrameReceived (cb : Callback) (frameType : UInt8) (payload : Bytes)
  | onWsPeerClosed (cb : Callback) (closeCode : Option Nat) (extraData : Bytes)
  | onWsError (cb : Callback) (error : WsError)
  | onWsCloseComplete (cb : Callback)
  | onWsSendFrameComplete (item : Nat) (cb : Callback) (result : WsSendFrameResult)
  deriving DecidableEq

/-- What a call returns: whether an allocation succeeds, random bytes, whether `errno` is set, or
the `int` of an `xio` function. -/
abbrev Ans : Call → Type
  | .malloc => Bool
  | .encoderResources => EncoderResources
  | .nonce => Fin 16 → UInt8
  | .errno => Bool
  | .xioOpen => Int
  | .xioSend _ _ => Int
  | .xioClose _ => Int
  | _ => Unit

def succeeds : (c : Call) → Ans c
  | .malloc => true
  | .encoderResources => default
  | .nonce => fun _ => 0
  | .errno => false
  | .xioOpen => (0 : Int)
  | .xioSend _ _ => (0 : Int)
  | .xioClose _ => (0 : Int)
  | .xioDestroy | .xioDowork | .onWsOpenComplete _ _ | .onWsFrameReceived _ _ _
  | .onWsPeerClosed _ _ _ | .onWsError _ _ | .onWsCloseComplete _
  | .onWsSendFrameComplete _ _ _ => ()

/-- The allocator, the random number generator and `errno` neither are observed nor call back. -/
def Call.isLocal : Call → Bool
  | .malloc | .encoderResources | .nonce | .errno => true
  | _ => false

def Call.isXio : Call → Bool
  | .xioOpen | .xioSend _ _ | .xioClose _ | .xioDestroy | .xioDowork => true
  | _ => false

def Call.isCallback : Call → Bool
  | .onWsOpenComplete _ _ | .onWsFrameReceived _ _ _ | .onWsPeerClosed _ _ _ | .onWsError _ _
  | .onWsCloseComplete _ | .onWsSendFrameComplete _ _ _ => true
  | _ => false

/-! ## Procedures -/

inductive Proc
  | uwsClientOpenAsync (callbacks : OpenCallbacks)
  | uwsClientCloseAsync (onWsCloseComplete : Option Callback)
  | uwsClientCloseHandshakeAsync (closeCode : UInt16) (onWsCloseComplete : Option Callback)
  | uwsClientSendFrameAsync (frameType : UInt8) (buffer : Option Bytes) (size : Nat)
      (isFinal : Bool) (onWsSendFrameComplete : Option Callback)
  | uwsClientDowork
  | uwsClientDestroy
  | onUnderlyingIoOpenComplete (result : IoOpenResult) (code : Int)
  | onUnderlyingIoBytesReceived (buffer : Option Bytes)
  | onUnderlyingIoError
  | onUnderlyingIoCloseComplete
  | onUnderlyingIoCloseSent (result : IoSendResult)
  | onUnderlyingIoSendComplete (item : Nat) (result : IoSendResult)
  | decodeStream
  | clearPendingSends
  deriving DecidableEq

/-- The callbacks the client hands to the underlying io. -/
def Proc.isIoEvent : Proc → Bool
  | .onUnderlyingIoOpenComplete _ _ | .onUnderlyingIoBytesReceived _ | .onUnderlyingIoError
  | .onUnderlyingIoCloseComplete | .onUnderlyingIoCloseSent _
  | .onUnderlyingIoSendComplete _ _ => true
  | _ => false

def Proc.isApi : Proc → Bool
  | .uwsClientOpenAsync _ | .uwsClientCloseAsync _ | .uwsClientCloseHandshakeAsync _ _
  | .uwsClientSendFrameAsync _ _ _ _ _ | .uwsClientDowork | .uwsClientDestroy => true
  | _ => false

abbrev uwsSignature : Signature where
  Call := Call
  Ans := Ans
  Proc := Proc

/-! ## The observed instance -/

/-- Undefined behaviour of the C program. -/
inductive Fault
  | useAfterFree
  | nullCallback
  | streamBufferUnderflow
  deriving DecidableEq, Repr

/-- What an observer records.  `openId` is the number of the `uws_client_open_async` call whose
callbacks the instance holds, `sendId` the list item of a `uws_client_send_frame_async` call. -/
inductive Event
  | call (openId : Nat) (c : Call)
  | openAccepted (openId : Nat)
  | openAsyncReturned (openId : Nat) (result : Int)
  | sendFrameAsyncReturned (sendId : Nat) (onWsSendFrameComplete : Option Callback) (result : Int)
  | fault (f : Fault)
  deriving DecidableEq

/-- The instance and its observer.  `openCalls` and `sendCalls` number the calls made so far. -/
structure Uws where
  client : UwsClientInstance
  openCalls : Nat := 0
  currentOpen : Nat := 0
  sendCalls : Nat := 0
  destroyed : Bool := false
  log : List Event := []
  deriving DecidableEq

namespace Uws

def record (s : Uws) (ev : Event) : Uws :=
  { s with log := s.log ++ [ev] }

def setClient (s : Uws) (c : UwsClientInstance) : Uws :=
  { s with client := c }

def setState (s : Uws) (st : UwsState) : Uws :=
  s.setClient { s.client with uwsState := st }

@[simp] theorem record_client (s : Uws) (ev : Event) : (s.record ev).client = s.client := rfl
@[simp] theorem record_log (s : Uws) (ev : Event) : (s.record ev).log = s.log ++ [ev] := rfl
@[simp] theorem record_currentOpen (s : Uws) (ev : Event) :
    (s.record ev).currentOpen = s.currentOpen := rfl
@[simp] theorem record_openCalls (s : Uws) (ev : Event) :
    (s.record ev).openCalls = s.openCalls := rfl
@[simp] theorem record_sendCalls (s : Uws) (ev : Event) :
    (s.record ev).sendCalls = s.sendCalls := rfl
@[simp] theorem record_destroyed (s : Uws) (ev : Event) :
    (s.record ev).destroyed = s.destroyed := rfl

@[simp] theorem setClient_client (s : Uws) (c : UwsClientInstance) :
    (s.setClient c).client = c := rfl
@[simp] theorem setClient_log (s : Uws) (c : UwsClientInstance) :
    (s.setClient c).log = s.log := rfl
@[simp] theorem setClient_currentOpen (s : Uws) (c : UwsClientInstance) :
    (s.setClient c).currentOpen = s.currentOpen := rfl
@[simp] theorem setClient_openCalls (s : Uws) (c : UwsClientInstance) :
    (s.setClient c).openCalls = s.openCalls := rfl
@[simp] theorem setClient_sendCalls (s : Uws) (c : UwsClientInstance) :
    (s.setClient c).sendCalls = s.sendCalls := rfl
@[simp] theorem setClient_destroyed (s : Uws) (c : UwsClientInstance) :
    (s.setClient c).destroyed = s.destroyed := rfl

@[simp] theorem setState_client (s : Uws) (st : UwsState) :
    (s.setState st).client = { s.client with uwsState := st } := rfl
@[simp] theorem setState_log (s : Uws) (st : UwsState) : (s.setState st).log = s.log := rfl
@[simp] theorem setState_currentOpen (s : Uws) (st : UwsState) :
    (s.setState st).currentOpen = s.currentOpen := rfl
@[simp] theorem setState_openCalls (s : Uws) (st : UwsState) :
    (s.setState st).openCalls = s.openCalls := rfl
@[simp] theorem setState_sendCalls (s : Uws) (st : UwsState) :
    (s.setState st).sendCalls = s.sendCalls := rfl
@[simp] theorem setState_destroyed (s : Uws) (st : UwsState) :
    (s.setState st).destroyed = s.destroyed := rfl

end Uws

abbrev UwsComp := Comp Uws uwsSignature

def fault (f : Fault) : UwsComp Unit :=
  Comp.modify fun s => s.record (.fault f)

/-- Ask the allocator, the random number generator or `errno`. -/
def ask (c : Call) : UwsComp (Ans c) :=
  @Comp.call Uws uwsSignature c

/-- Call a function of the module itself, as a procedure. -/
def callProc (p : Proc) : UwsComp Int :=
  @Comp.proc Uws uwsSignature p

def malloc : UwsComp Bool := ask .malloc

def encoderResources : UwsComp EncoderResources := ask .encoderResources

/-- The results of 16 calls of `gb_rand`. -/
def nonceBytes : UwsComp (Fin 16 → UInt8) := ask .nonce

def errno : UwsComp Bool := ask .errno

def callOut (c : Call) : UwsComp (Ans c) := do
  Comp.modify fun s => s.record (.call s.currentOpen c)
  ask c

/-- Call through a function pointer, which is a fault when it is NULL. -/
def callBack (slot : Option Callback) (c : Callback → Call) : UwsComp Unit :=
  match slot with
  | some cb => do
    let _ ← callOut (c cb)
    pure ()
  | none => fault .nullCallback

end SharedUtility.UwsClient
