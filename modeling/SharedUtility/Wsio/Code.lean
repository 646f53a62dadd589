import SharedUtility.UwsClient.Types

/-!
# Code — the instance and the functions of `wsio.c`

* `WsioInstance` — the fields of `WSIO_INSTANCE`,
* `Call`, `Ans` — the functions of the websocket client, the allocator and the callbacks of the user,
* `Proc` — the functions of the interface, the callbacks handed to the websocket client, and
  `internal_close` with its loop.

The contexts that are passed around are those that the functions expect.  The name of a list item is
the number of the `wsio_send` call that added it.
-/

namespace SharedUtility.Wsio

open Reentrant
open UwsClient (Callback Fault WsOpenResult WsOpenResultDetailed WsSendFrameResult wsFrameTypeBinary)

inductive IoState
  | ioStateNotOpen
  | ioStateOpening
  | ioStateOpen
  | ioStateClosing
  | ioStateError
  deriving DecidableEq, Repr

/-- `PENDING_IO` with its list item. -/
structure PendingIo where
  item : Nat
  onSendComplete : Option Callback
  deriving DecidableEq, Repr

/-- `WSIO_INSTANCE` as `wsio_create` leaves it. -/
structure WsioInstance where
  onBytesReceived : Option Callback := none
  onIoOpenComplete : Option Callback := none
  onIoError : Option Callback := none
  onIoCloseComplete : Option Callback := none
  ioState : IoState := .ioStateNotOpen
  pendingIoList : List PendingIo := []
  deriving DecidableEq, Repr

/-- The number of an enumerator of `WS_OPEN_RESULT`. -/
def openResultCode (result : WsOpenResult) : Int :=
  result.ctorIdx

/-! ## Calls out -/

inductive Call
  | malloc
  | singlylinkedlistAdd
  | uwsClientOpenAsync
  | uwsClientCloseAsync
  | uwsClientSendFrameAsync (frameType : UInt8) (buffer : Bytes) (isFinal : Bool) (item : Nat)
  | uwsClientDowork
  | uwsClientDestroy
  | onIoOpenComplete (cb : Callback) (result : IoOpenResultDetailed)
  | onIoCloseComplete (cb : Callback)
  | onIoError (cb : Callback)
  | onBytesReceived (cb : Callback) (bytes : Bytes)
  | onSendComplete (cb : Callback) (result : IoSendResult)
  deriving DecidableEq

abbrev Ans : Call → Type
  | .malloc => Bool
  | .singlylinkedlistAdd => Bool
  | .uwsClientOpenAsync => Int
  | .uwsClientCloseAsync => Int
  | .uwsClientSendFrameAsync _ _ _ _ => Int
  | _ => Unit

def succeeds : (c : Call) → Ans c
  | .malloc => true
  | .singlylinkedlistAdd => true
  | .uwsClientOpenAsync => (0 : Int)
  | .uwsClientCloseAsync => (0 : Int)
  | .uwsClientSendFrameAsync _ _ _ _ => (0 : Int)
  | .uwsClientDowork | .uwsClientDestroy | .onIoOpenComplete _ _ | .onIoCloseComplete _
  | .onIoError _ | .onBytesReceived _ _ | .onSendComplete _ _ => ()

/-- The allocations call nobody back. -/
def Call.isLocal : Call → Bool
  | .malloc | .singlylinkedlistAdd => true
  | _ => false

def Call.isUws : Call → Bool
  | .uwsClientOpenAsync | .uwsClientCloseAsync | .uwsClientSendFrameAsync _ _ _ _
  | .uwsClientDowork | .uwsClientDestroy => true
  | _ => false

def Call.isCallback : Call → Bool
  | .onIoOpenComplete _ _ | .onIoCloseComplete _ | .onIoError _ | .onBytesReceived _ _
  | .onSendComplete _ _ => true
  | _ => false

/-! ## Procedures -/

inductive Proc
  | wsioOpen (onIoOpenComplete onBytesReceived onIoError : Option Callback)
  | wsioClose (onIoCloseComplete : Option Callback)
  | wsioSend (buffer : Option Bytes) (onSendComplete : Option Callback)
  | wsioDowork
  | wsioDestroy
  | onUnderlyingWsOpenComplete (wsOpenResultDetailed : WsOpenResultDetailed)
  | onUnderlyingWsFrameReceived (frameType : UInt8) (buffer : Option Bytes) (size : Nat)
  | onUnderlyingWsPeerClosed
  | onUnderlyingWsError
  | onUnderlyingWsCloseComplete
  | onUnderlyingWsSendFrameComplete (item : Nat) (result : WsSendFrameResult)
  | internalClose (onIoCloseComplete : Option Callback)
  | cancelPendingIos
  deriving DecidableEq

def Proc.isApi : Proc → Bool
  | .wsioOpen _ _ _ | .wsioClose _ | .wsioSend _ _ | .wsioDowork | .wsioDestroy => true
  | _ => false

/-- The callbacks handed to the websocket client. -/
def Proc.isWsEvent : Proc → Bool
  | .onUnderlyingWsOpenComplete _ | .onUnderlyingWsFrameReceived _ _ _
  | .onUnderlyingWsPeerClosed | .onUnderlyingWsError | .onUnderlyingWsCloseComplete
  | .onUnderlyingWsSendFrameComplete _ _ => true
  | _ => false

abbrev wsioSignature : Signature where
  Call := Call
  Ans := Ans
  Proc := Proc

/-! ## The instance -/

/-- The instance, the number of `wsio_send` calls so far and the undefined behaviour met so far. -/
structure WsIo where
  inst : WsioInstance := {}
  sendCalls : Nat := 0
  faults : List Fault := []
  destroyed : Bool := false
  deriving DecidableEq

namespace WsIo

def setInst (s : WsIo) (inst : WsioInstance) : WsIo :=
  { s with inst := inst }

def setIoState (s : WsIo) (st : IoState) : WsIo :=
  s.setInst { s.inst with ioState := st }

def addFault (s : WsIo) (f : Fault) : WsIo :=
  { s with faults := s.faults ++ [f] }

@[simp] theorem setInst_inst (s : WsIo) (inst : WsioInstance) : (s.setInst inst).inst = inst := rfl

@[simp] theorem setIoState_inst (s : WsIo) (st : IoState) :
    (s.setIoState st).inst = { s.inst with ioState := st } := rfl

@[simp] theorem addFault_inst (s : WsIo) (f : Fault) : (s.addFault f).inst = s.inst := rfl

end WsIo

abbrev WsioComp := Comp WsIo wsioSignature

def ask (c : Call) : WsioComp (Ans c) :=
  @Comp.call WsIo wsioSignature c

def callProc (p : Proc) : WsioComp Int :=
  @Comp.proc WsIo wsioSignature p

def getInst : WsioComp WsioInstance := do
  let s ← Comp.get
  pure s.inst

def modifyInst (f : WsioInstance → WsioInstance) : WsioComp Unit :=
  Comp.modify fun s => s.setInst (f s.inst)

def setIoState (st : IoState) : WsioComp Unit :=
  Comp.modify fun s => s.setIoState st

def fault (f : Fault) : WsioComp Unit :=
  Comp.modify fun s => s.addFault f

/-- Call through a function pointer, which is a fault when it is NULL. -/
def callBack (slot : Option Callback) (c : Callback → Call) : WsioComp Unit :=
  match slot with
  | some cb => do
    let _ ← ask (c cb)
    pure ()
  | none => fault .nullCallback

/-- Call through a function pointer, unless it is NULL. -/
def callOptional (slot : Option Callback) (c : Callback → Call) : WsioComp Unit :=
  match slot with
  | some cb => do
    let _ ← ask (c cb)
    pure ()
  | none => pure ()

/-! ## What is reported -/

def indicateError : WsioComp Unit := do
  setIoState .ioStateError
  let i ← getInst
  callBack i.onIoError .onIoError

def indicateOpenComplete (openResultDetailed : IoOpenResultDetailed) : WsioComp Unit := do
  let i ← getInst
  callBack i.onIoOpenComplete fun cb => .onIoOpenComplete cb openResultDetailed

/-- `complete_send_item`, for an item that is on the list. -/
def completeSendItem (pendingIo : PendingIo) (ioSendResult : IoSendResult) : WsioComp Unit := do
  modifyInst fun i =>
    { i with pendingIoList := i.pendingIoList.filter (·.item != pendingIo.item) }
  callOptional pendingIo.onSendComplete fun cb => .onSendComplete cb ioSendResult

/-! ## The callbacks of the websocket client -/

/-- An item that is not on the list has been freed. -/
def onUnderlyingWsSendFrameComplete (item : Nat) (result : WsSendFrameResult) : WsioComp Unit := do
  let ioSendResult : IoSendResult :=
    match result with
    | .wsSendFrameError => .ioSendError
    | .wsSendFrameOk => .ioSendOk
    | .wsSendFrameCancelled => .ioSendCancelled
  let i ← getInst
  match i.pendingIoList.find? (·.item == item) with
  | some pendingIo => completeSendItem pendingIo ioSendResult
  | none => fault .useAfterFree

def onUnderlyingWsCloseComplete : WsioComp Unit := do
  setIoState .ioStateNotOpen
  let i ← getInst
  callOptional i.onIoCloseComplete .onIoCloseComplete

def onUnderlyingWsOpenComplete (wsOpenResultDetailed : WsOpenResultDetailed) : WsioComp Unit := do
  let openResult := wsOpenResultDetailed.result
  let i ← getInst
  match i.ioState with
  | .ioStateNotOpen | .ioStateClosing | .ioStateError | .ioStateOpen => indicateError
  | .ioStateOpening => do
    setIoState .ioStateOpen
    match openResult with
    | .wsOpenOk => do
      setIoState .ioStateOpen
      indicateOpenComplete { result := .ioOpenOk }
    | .wsOpenCancelled => do
      setIoState .ioStateNotOpen
      indicateOpenComplete { result := .ioOpenCancelled, code := openResultCode openResult }
    | openResult => do
      setIoState .ioStateNotOpen
      indicateOpenComplete { result := .ioOpenError, code := openResultCode openResult }

def onUnderlyingWsFrameReceived (frameType : UInt8) (buffer : Option Bytes) (size : Nat) :
    WsioComp Unit := do
  let i ← getInst
  if i.ioState ≠ .ioStateOpen then pure ()
  else if frameType ≠ wsFrameTypeBinary then indicateError
  else if 0 < size then
    match buffer with
    | none => indicateError
    | some bytes => callBack i.onBytesReceived fun cb => .onBytesReceived cb (bytes.take size)
  else pure ()

def onUnderlyingWsPeerClosed : WsioComp Unit := do
  let i ← getInst
  match i.ioState with
  | .ioStateOpen | .ioStateClosing | .ioStateError => indicateError
  | .ioStateNotOpen => do
    indicateError
    setIoState .ioStateNotOpen
  | .ioStateOpening => do
    setIoState .ioStateNotOpen
    indicateOpenComplete { result := .ioOpenError, code := failure }

def onUnderlyingWsError : WsioComp Unit := do
  let i ← getInst
  if i.ioState = .ioStateOpening then do
    -- Here the report comes before the assignment.
    indicateOpenComplete { result := .ioOpenError, code := 0 }
    setIoState .ioStateNotOpen
  else callBack i.onIoError .onIoError

/-! ## Open, close and send -/

def wsioOpen (onIoOpenComplete onBytesReceived onIoError : Option Callback) : WsioComp Int := do
  if onIoOpenComplete = none ∨ onBytesReceived = none ∨ onIoError = none then pure failure
  else do
    let i ← getInst
    if i.ioState ≠ .ioStateNotOpen then pure failure
    else do
      modifyInst fun i =>
        { i with
          onBytesReceived := onBytesReceived
          onIoOpenComplete := onIoOpenComplete
          onIoError := onIoError
          ioState := .ioStateOpening }
      let r : Int ← ask .uwsClientOpenAsync
      if r ≠ 0 then do
        setIoState .ioStateNotOpen
        pure failure
      else pure 0

/-- The loop of `internal_close`. -/
def cancelPendingIos : WsioComp Int := do
  let i ← getInst
  match i.pendingIoList with
  | [] => pure 0
  | firstPendingIo :: _ => do
    completeSendItem firstPendingIo .ioSendCancelled
    callProc .cancelPendingIos

def internalClose (onIoCloseComplete : Option Callback) : WsioComp Int := do
  let i ← getInst
  match i.ioState with
  | .ioStateNotOpen => pure failure
  | .ioStateOpening => do
    setIoState .ioStateNotOpen
    indicateOpenComplete { result := .ioOpenCancelled, code := failure }
    pure 0
  | .ioStateClosing => pure failure
  | .ioStateOpen | .ioStateError => do
    modifyInst fun i =>
      { i with ioState := .ioStateClosing, onIoCloseComplete := onIoCloseComplete }
    let r : Int ← ask .uwsClientCloseAsync
    if r ≠ 0 then do
      let i ← getInst
      callOptional i.onIoCloseComplete .onIoCloseComplete
    else pure ()
    let _ ← callProc .cancelPendingIos
    setIoState .ioStateNotOpen
    pure 0

def wsioClose (onIoCloseComplete : Option Callback) : WsioComp Int := do
  let r ← callProc (.internalClose onIoCloseComplete)
  if r ≠ 0 then pure failure else pure 0

def wsioSend (sendId : Nat) (buffer : Option Bytes) (onSendComplete : Option Callback) :
    WsioComp Int := do
  match buffer with
  | none | some [] => pure failure
  | some (b :: bs) => do
    let i ← getInst
    if i.ioState ≠ .ioStateOpen then pure failure
    else do
      let allocated ← ask .malloc
      if allocated = false then pure failure
      else do
        let added ← ask .singlylinkedlistAdd
        if added = false then pure failure
        else do
          modifyInst fun i =>
            { i with
              pendingIoList :=
                i.pendingIoList ++ [{ item := sendId, onSendComplete := onSendComplete }] }
          let r : Int ←
            ask (.uwsClientSendFrameAsync wsFrameTypeBinary (b :: bs) true sendId)
          if r ≠ 0 then do
            let i ← getInst
            if i.pendingIoList.all (·.item != sendId) then
              -- The item was completed meanwhile, and is freed once more.
              fault .useAfterFree
            else
              modifyInst fun i =>
                { i with pendingIoList := i.pendingIoList.filter (·.item != sendId) }
            pure failure
          else pure 0

def wsioSendProc (buffer : Option Bytes) (onSendComplete : Option Callback) : WsioComp Int := do
  let s ← Comp.get
  Comp.modify fun s => { s with sendCalls := s.sendCalls + 1 }
  wsioSend s.sendCalls buffer onSendComplete

def wsioDowork : WsioComp Unit := do
  let i ← getInst
  if i.ioState ≠ .ioStateNotOpen then do
    let _ ← ask .uwsClientDowork
    pure ()
  else pure ()

def wsioDestroy : WsioComp Unit := do
  let i ← getInst
  if i.ioState ≠ .ioStateNotOpen then do
    let _ ← callProc (.internalClose none)
    pure ()
  else pure ()
  let _ ← ask .uwsClientDestroy
  Comp.modify fun s => { s with destroyed := true }

def void (c : WsioComp Unit) : WsioComp Int := do
  c
  pure 0

def wsioCode : Proc → WsioComp Int
  | .wsioOpen onIoOpenComplete onBytesReceived onIoError =>
    wsioOpen onIoOpenComplete onBytesReceived onIoError
  | .wsioClose onIoCloseComplete => wsioClose onIoCloseComplete
  | .wsioSend buffer onSendComplete => wsioSendProc buffer onSendComplete
  | .wsioDowork => void wsioDowork
  | .wsioDestroy => void wsioDestroy
  | .onUnderlyingWsOpenComplete wsOpenResultDetailed =>
    void (onUnderlyingWsOpenComplete wsOpenResultDetailed)
  | .onUnderlyingWsFrameReceived frameType buffer size =>
    void (onUnderlyingWsFrameReceived frameType buffer size)
  | .onUnderlyingWsPeerClosed => void onUnderlyingWsPeerClosed
  | .onUnderlyingWsError => void onUnderlyingWsError
  | .onUnderlyingWsCloseComplete => void onUnderlyingWsCloseComplete
  | .onUnderlyingWsSendFrameComplete item result =>
    void (onUnderlyingWsSendFrameComplete item result)
  | .internalClose onIoCloseComplete => internalClose onIoCloseComplete
  | .cancelPendingIos => cancelPendingIos

end SharedUtility.Wsio
