import SharedUtility.Reentrant.Machine
import SharedUtility.Xio

/-!
# Code — the instance and the functions of `tlsio_appleios.c`

* `TlsIoInstance` — the fields of `TLS_IO_INSTANCE` that open, send, dowork and close use,
* `Call`, `Ans` — the streams of CoreFoundation, the allocator and the callbacks of the user,
* `ObservedTls` — the instance with what an observer counts: the messages of the latest connection, the bytes
  written on it, and the calls of `on_send_complete`.

The number of a `PENDING_TRANSMISSION` is the number of messages accepted before it.
-/

namespace SharedUtility.TlsIoAppleios

open Reentrant

def websocketHeaderStart : Bytes := ascii "GET /$iothub/websocket"

def websocketHeaderNoCertParam : Bytes := ascii "?iothub-no-client-cert=true"

inductive TlsioState
  | tlsioStateClosed
  | tlsioStateOpeningWaitingDns
  | tlsioStateOpeningWaitingSocket
  | tlsioStateOpeningWaitingSsl
  | tlsioStateOpen
  | tlsioStateError
  deriving DecidableEq, Repr

def isAnOpeningState (state : TlsioState) : Bool :=
  state == .tlsioStateOpeningWaitingDns || state == .tlsioStateOpeningWaitingSocket ||
    state == .tlsioStateOpeningWaitingSsl

/-- `PENDING_TRANSMISSION`; `bytes` comes with its `size`. -/
structure PendingTransmission (Cb : Type) where
  item : Nat
  bytes : Bytes
  unsentSize : Nat
  onSendComplete : Cb
  deriving DecidableEq

/-- The bytes from `bytes + size - unsent_size` on. -/
def PendingTransmission.unsent {Cb : Type} (message : PendingTransmission Cb) : Bytes :=
  message.bytes.drop (message.bytes.length - message.unsentSize)

/-- `TLS_IO_INSTANCE`; a callback comes with its context. -/
structure TlsIoInstance (Cb : Type) where
  onBytesReceived : Option Cb := none
  onIoError : Option Cb := none
  onOpenComplete : Option Cb := none
  tlsioState : TlsioState := .tlsioStateClosed
  noMessagesYetSent : Bool := false
  sockRead : Option Nat := none
  sockWrite : Option Nat := none
  pendingTransmissionList : List (PendingTransmission Cb) := []
  deriving DecidableEq

/-! ## Calls out -/

/-- `CFStreamStatus`. -/
inductive StreamStatus
  | notOpen
  | opening
  | isOpen
  | reading
  | writing
  | atEnd
  | closed
  | error
  deriving DecidableEq, Repr

/-- The three statuses that are looked for. -/
def StreamStatus.isBroken : StreamStatus → Bool
  | .atEnd | .error | .closed => true
  | _ => false

/-- `CFReadStreamRead`: -1, or as many bytes as there are. -/
inductive ReadResult
  | failed
  | received (bytes : Bytes)
  deriving DecidableEq, Repr

/-- `CFWriteStreamWrite`: -1 with what `CFWriteStreamCopyError` gives then, or how many bytes were taken. -/
inductive WriteResult
  | failed (writeError : Option Int)
  | taken (n : Nat)
  deriving DecidableEq, Repr

/-- `errSSLWouldBlock` of Secure Transport. -/
def errSSLWouldBlock : Int := -9803

/-- Nothing is noted of `CFReadStreamClose`, `CFWriteStreamClose` and `CFRelease`, which return nothing. -/
inductive Call (Cb : Type)
  | malloc
  | singlylinkedlistAdd
  | cfStreamCreatePairWithSocketToHost
  | cfReadStreamSetProperty (sockRead : Option Nat)
  | cfReadStreamOpen (sockRead : Option Nat)
  | cfWriteStreamOpen (sockWrite : Option Nat)
  | cfReadStreamGetStatus (sockRead : Option Nat)
  | cfReadStreamHasBytesAvailable (sockRead : Option Nat)
  | cfReadStreamRead (sockRead : Option Nat)
  | cfWriteStreamGetStatus (sockWrite : Option Nat)
  | cfWriteStreamCanAcceptBytes (sockWrite : Option Nat)
  | cfWriteStreamWrite (sockWrite : Option Nat) (bytes : Bytes)
  | onOpenComplete (cb : Cb) (result : IoOpenResult)
  | onCloseComplete (cb : Cb)
  | onBytesReceived (cb : Cb) (bytes : Bytes)
  | onIoError (cb : Cb)
  | onSendComplete (cb : Cb) (result : IoSendResult)
  deriving DecidableEq

abbrev Ans {Cb : Type} : Call Cb → Type
  | .malloc | .singlylinkedlistAdd | .cfReadStreamSetProperty _ | .cfReadStreamOpen _ | .cfWriteStreamOpen _
  | .cfReadStreamHasBytesAvailable _ | .cfWriteStreamCanAcceptBytes _ => Bool
  | .cfStreamCreatePairWithSocketToHost => Option Nat × Option Nat
  | .cfReadStreamGetStatus _ | .cfWriteStreamGetStatus _ => StreamStatus
  | .cfReadStreamRead _ => ReadResult
  | .cfWriteStreamWrite _ _ => WriteResult
  | _ => Unit

/-- Calls of the user's callbacks. -/
def Call.isCallback {Cb : Type} : Call Cb → Bool
  | .onOpenComplete _ _ | .onCloseComplete _ | .onBytesReceived _ _ | .onIoError _ | .onSendComplete _ _ => true
  | _ => false

/-! ## Procedures -/

/-- The functions of the interface, and two loops: that of `internal_close` with what follows it, and that of
`dowork_read`. The bytes `behind` a buffer are those that follow it in memory. -/
inductive Proc (Cb : Type)
  | tlsioOpenAsync (onIoOpenComplete onBytesReceived onIoError : Option Cb)
  | tlsioCloseAsync (onIoCloseComplete : Option Cb)
  | tlsioSendAsync (buffer : Option Bytes) (behind : Bytes) (onSendComplete : Option Cb)
  | tlsioDowork
  | tlsioDestroy
  | cancelPending
  | readBytes
  deriving DecidableEq

abbrev tlsioSignature (Cb : Type) : Signature where
  Call := Call Cb
  Ans := Ans
  Proc := Proc Cb

/-! ## The observed instance -/

/-- What C leaves undefined. -/
inductive Fault
  /-- A queue item was used that had been freed. -/
  | freedItemUsed
  /-- `strncmp` has found the request start partly behind the buffer, and more is copied than there is. -/
  | copiedPastTheEnd
  deriving DecidableEq, Repr

/-- `messages` are those accepted since the latest `tlsio_appleios_open_async`, in call order, `written` are the
bytes that `CFWriteStreamWrite` has taken since then, and `writtenAtError` is what they were when `on_io_error`
was called. `accepted` counts the messages of all connections, and `completed` has their numbers in the order in which
their `on_send_complete` was called. -/
structure ObservedTls (Cb : Type) where
  inst : TlsIoInstance Cb := {}
  messages : List Bytes := []
  written : Bytes := []
  writtenAtError : Option Bytes := none
  accepted : Nat := 0
  completed : List Nat := []
  fault : Option Fault := none
  destroyed : Bool := false
  deriving DecidableEq

namespace ObservedTls

variable {Cb : Type}

def setInst (s : ObservedTls Cb) (inst : TlsIoInstance Cb) : ObservedTls Cb :=
  { s with inst }

def beginConnection (s : ObservedTls Cb) (inst : TlsIoInstance Cb) : ObservedTls Cb :=
  { s with inst, messages := [], written := [], writtenAtError := none }

/-- The first call of `on_io_error` on a connection. -/
def noteError (s : ObservedTls Cb) : ObservedTls Cb :=
  { s with writtenAtError := s.writtenAtError <|> some s.written }

/-- A message is in the queue and its `tlsio_appleios_send_async` will return 0. -/
def accept (s : ObservedTls Cb) (buffer : Bytes) (queued : PendingTransmission Cb) : ObservedTls Cb :=
  { s with
    inst := { s.inst with pendingTransmissionList := s.inst.pendingTransmissionList ++ [queued] }
    messages := s.messages ++ [buffer]
    accepted := s.accepted + 1 }

end ObservedTls

abbrev TlsComp (Cb : Type) := Comp (ObservedTls Cb) (tlsioSignature Cb)

section

variable {Cb : Type}

def ask (c : Call Cb) : TlsComp Cb (Ans c) :=
  @Comp.call (ObservedTls Cb) (tlsioSignature Cb) c

def callProc (p : Proc Cb) : TlsComp Cb Int :=
  @Comp.proc (ObservedTls Cb) (tlsioSignature Cb) p

def getInst : TlsComp Cb (TlsIoInstance Cb) := do
  let s ← Comp.get
  pure s.inst

def modifyInst (f : TlsIoInstance Cb → TlsIoInstance Cb) : TlsComp Cb Unit :=
  Comp.modify fun s => s.setInst (f s.inst)

/-- The callbacks were checked for NULL when they were given to the instance. -/
def callBack (slot : Option Cb) (c : Cb → Call Cb) : TlsComp Cb Unit :=
  match slot with
  | some cb => do
    let _ ← ask (c cb)
    pure ()
  | none => pure ()

/-- Nothing is said about a run behind this point. -/
def raise (fault : Fault) : TlsComp Cb Unit :=
  Comp.modify fun s => { s with fault := some fault }

def enterTlsioErrorState : TlsComp Cb Unit := do
  let i ← getInst
  if i.tlsioState ≠ .tlsioStateError then do
    modifyInst fun i => { i with tlsioState := .tlsioStateError }
    Comp.modify ObservedTls.noteError
    callBack i.onIoError .onIoError
  else pure ()

/-- The callback is read before the framework can destroy it. -/
def enterOpenErrorState : TlsComp Cb Unit := do
  let i ← getInst
  enterTlsioErrorState
  callBack i.onOpenComplete fun cb => .onOpenComplete cb .ioOpenError

/-- `singlylinkedlist_remove`: 0 if the item was found. -/
def singlylinkedlistRemove (item : Nat) : TlsComp Cb Int := do
  let i ← getInst
  if i.pendingTransmissionList.all (·.item != item) then pure failure
  else do
    modifyInst fun i =>
      { i with pendingTransmissionList := i.pendingTransmissionList.eraseP (·.item == item) }
    pure 0

/-- `process_and_destroy_head_message` behind its first `if`: the head is removed, completed and freed. -/
def destroyHeadMessage (sendResult : IoSendResult) : TlsComp Cb Bool := do
  let i ← getInst
  match i.pendingTransmissionList with
  | [] => pure false
  | headMessage :: _ => do
    let removed ← singlylinkedlistRemove headMessage.item
    if removed ≠ 0 then enterTlsioErrorState else pure ()
    Comp.modify fun s => { s with completed := s.completed ++ [headMessage.item] }
    let _ ← ask (.onSendComplete headMessage.onSendComplete sendResult)
    pure true

/-- `process_and_destroy_head_message`: whether a message was available to remove. -/
def processAndDestroyHeadMessage (sendResult : IoSendResult) : TlsComp Cb Bool := do
  if sendResult = .ioSendError then enterTlsioErrorState else pure ()
  -- The callback may have closed the instance, and then there is no head any more.
  destroyHeadMessage sendResult

/-- The loop of `internal_close`, and what follows it. -/
def cancelPending : TlsComp Cb Int := do
  let processed ← processAndDestroyHeadMessage .ioSendCancelled
  if processed then callProc .cancelPending
  else do
    modifyInst fun i =>
      { i with
        onBytesReceived := none, onIoError := none, onOpenComplete := none, tlsioState := .tlsioStateClosed }
    pure 0

def internalClose : TlsComp Cb Unit := do
  modifyInst fun i => { i with sockRead := none, sockWrite := none }
  let _ ← callProc .cancelPending
  pure ()

def tlsioDestroy : TlsComp Cb Int := do
  let i ← getInst
  if i.tlsioState ≠ .tlsioStateClosed then internalClose else pure ()
  Comp.modify fun s => { s with destroyed := true }
  pure 0

def tlsioOpenAsync (onIoOpenComplete onBytesReceived onIoError : Option Cb) : TlsComp Cb Int := do
  if onIoOpenComplete = none then pure failure
  else if onBytesReceived = none then pure failure
  else if onIoError = none then pure failure
  else do
    let i ← getInst
    if i.tlsioState ≠ .tlsioStateClosed then pure failure
    else do
      Comp.modify fun s =>
        s.beginConnection
          { s.inst with
            noMessagesYetSent := true
            onBytesReceived := onBytesReceived
            onIoError := onIoError
            onOpenComplete := onIoOpenComplete
            tlsioState := .tlsioStateOpeningWaitingDns }
      pure 0

def tlsioCloseAsync (onIoCloseComplete : Option Cb) : TlsComp Cb Int := do
  match onIoCloseComplete with
  | none => pure failure
  | some onIoCloseComplete => do
    let i ← getInst
    if isAnOpeningState i.tlsioState then
      callBack i.onOpenComplete fun cb => .onOpenComplete cb .ioOpenCancelled
    else pure ()
    internalClose
    let _ ← ask (.onCloseComplete onIoCloseComplete)
    pure 0

/-- The loop `while` of `dowork_read`. -/
def readBytes : TlsComp Cb Int := do
  let i ← getInst
  if i.tlsioState ≠ .tlsioStateOpen then pure 0
  else do
    let available : Bool ← ask (.cfReadStreamHasBytesAvailable i.sockRead)
    if available = false then pure 0
    else do
      let received : ReadResult ← ask (.cfReadStreamRead i.sockRead)
      match received with
      | .received [] => pure ()
      | .received (b :: bs) => callBack i.onBytesReceived fun cb => .onBytesReceived cb (b :: bs)
      | .failed => enterTlsioErrorState
      callProc .readBytes

def doworkRead : TlsComp Cb Unit := do
  let i ← getInst
  if i.tlsioState = .tlsioStateOpen then do
    let readStatus : StreamStatus ← ask (.cfReadStreamGetStatus i.sockRead)
    if readStatus.isBroken then enterTlsioErrorState
    else do
      let _ ← callProc .readBytes
      pure ()
  else pure ()

/-- `write_error_code != errSSLWouldBlock`. -/
def isHardError (writeError : Option Int) : Bool :=
  writeError.getD errSSLWouldBlock != errSSLWouldBlock

/-- The write of `dowork_send`, for a head message that is still there. -/
def writeHead (pendingMessage : PendingTransmission Cb) : TlsComp Cb Unit := do
  let i ← getInst
  let writeResult : WriteResult ← ask (.cfWriteStreamWrite i.sockWrite pendingMessage.unsent)
  match writeResult with
  | .taken n => do
    Comp.modify fun s => { s with written := s.written ++ pendingMessage.unsent.take n }
    modifyInst fun i =>
      { i with
        pendingTransmissionList := i.pendingTransmissionList.modifyHead fun message =>
          { message with unsentSize := message.unsentSize - n } }
    if pendingMessage.unsentSize - n = 0 then do
      let _ ← processAndDestroyHeadMessage .ioSendOk
      pure ()
    else pure ()
  | .failed writeError =>
    if isHardError writeError then do
      let _ ← processAndDestroyHeadMessage .ioSendError
      pure ()
    else pure ()

def doworkSend : TlsComp Cb Unit := do
  let i ← getInst
  match i.pendingTransmissionList with
  | [] => pure ()
  | pendingMessage :: _ => do
    let sendStatus : StreamStatus ← ask (.cfWriteStreamGetStatus i.sockWrite)
    if sendStatus.isBroken then enterTlsioErrorState else pure ()
    -- There is no `else`: a broken stream is asked as well, with the head message read before.
    let i ← getInst
    let canAcceptBytes : Bool ← ask (.cfWriteStreamCanAcceptBytes i.sockWrite)
    if canAcceptBytes = false then pure ()
    else if i.pendingTransmissionList.all (·.item != pendingMessage.item) then raise .freedItemUsed
    else writeHead pendingMessage

def doworkPollDns : TlsComp Cb Unit :=
  modifyInst fun i => { i with tlsioState := .tlsioStateOpeningWaitingSocket }

def doworkPollSocket : TlsComp Cb Unit := do
  let streams : Option Nat × Option Nat ← ask .cfStreamCreatePairWithSocketToHost
  modifyInst fun i => { i with sockRead := streams.1, sockWrite := streams.2 }
  if streams.1 ≠ none ∧ streams.2 ≠ none then do
    let set : Bool ← ask (.cfReadStreamSetProperty streams.1)
    if set then modifyInst fun i => { i with tlsioState := .tlsioStateOpeningWaitingSsl }
    else enterOpenErrorState
  else enterOpenErrorState

def doworkPollOpenSsl : TlsComp Cb Unit := do
  let i ← getInst
  let readOpened : Bool ← ask (.cfReadStreamOpen i.sockRead)
  let writeOpened : Bool ← if readOpened then ask (.cfWriteStreamOpen i.sockWrite) else pure false
  if writeOpened then do
    modifyInst fun i => { i with tlsioState := .tlsioStateOpen }
    callBack i.onOpenComplete fun cb => .onOpenComplete cb .ioOpenOk
  else enterOpenErrorState

def tlsioDowork : TlsComp Cb Int := do
  let i ← getInst
  match i.tlsioState with
  | .tlsioStateClosed => pure ()
  | .tlsioStateOpeningWaitingDns => doworkPollDns
  | .tlsioStateOpeningWaitingSocket => doworkPollSocket
  | .tlsioStateOpeningWaitingSsl => doworkPollOpenSsl
  | .tlsioStateOpen => do
    doworkRead
    doworkSend
  | .tlsioStateError => pure ()
  pure 0

/-- `strncmp (buffer, WEBSOCKET_HEADER_START, WEBSOCKET_HEADER_START_SIZE) == 0`, which does not know where the
buffer ends. -/
def startsRequest (buffer behind : Bytes) : Bool :=
  websocketHeaderStart.isPrefixOf (buffer ++ behind)

/-- The request start, the parameter, and what follows the request start in the buffer. -/
def insertNoCertParam (buffer : Bytes) : Bytes :=
  websocketHeaderStart ++ websocketHeaderNoCertParam ++ buffer.drop websocketHeaderStart.length

def tlsioSendAsync (buffer : Option Bytes) (behind : Bytes) (onSendComplete : Option Cb) : TlsComp Cb Int := do
  match buffer, onSendComplete with
  | some (b :: bs), some onSendComplete => do
    let buffer := b :: bs
    let i ← getInst
    if i.tlsioState ≠ .tlsioStateOpen then pure failure
    else do
      let pendingAllocated : Bool ← ask .malloc
      if pendingAllocated = false then pure failure
      else do
        -- The first message of a connection, whatever becomes of it.
        let addNoCertUrlParameter := i.noMessagesYetSent && startsRequest buffer behind
        modifyInst fun i => { i with noMessagesYetSent := false }
        let size :=
          if addNoCertUrlParameter then buffer.length + websocketHeaderNoCertParam.length else buffer.length
        let bytesAllocated : Bool ← ask .malloc
        if bytesAllocated = false then pure failure
        else if addNoCertUrlParameter ∧ buffer.length < websocketHeaderStart.length then do
          raise .copiedPastTheEnd
          pure failure
        else do
          let bytes := if addNoCertUrlParameter then insertNoCertParam buffer else buffer
          let added : Bool ← ask .singlylinkedlistAdd
          if added = false then pure failure
          else do
            Comp.modify fun s =>
              s.accept buffer
                { item := s.accepted, bytes, unsentSize := size, onSendComplete }
            doworkSend
            pure 0
  | _, _ => pure failure

def tlsioCode : Proc Cb → TlsComp Cb Int
  | .tlsioOpenAsync onIoOpenComplete onBytesReceived onIoError =>
    tlsioOpenAsync onIoOpenComplete onBytesReceived onIoError
  | .tlsioCloseAsync onIoCloseComplete => tlsioCloseAsync onIoCloseComplete
  | .tlsioSendAsync buffer behind onSendComplete => tlsioSendAsync buffer behind onSendComplete
  | .tlsioDowork => tlsioDowork
  | .tlsioDestroy => tlsioDestroy
  | .cancelPending => cancelPending
  | .readBytes => readBytes

end

end SharedUtility.TlsIoAppleios
