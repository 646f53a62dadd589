import SharedUtility.UwsClient.Handshake
import SharedUtility.Utf8Checker

/-!
# Code — the functions of `uws_client.c`

The functions are written for a handle that is not NULL.  What they call is in the order of the
source; a read of the instance after a call out reads what the call left there.
-/

namespace SharedUtility.UwsClient

open Reentrant

def getClient : UwsComp UwsClientInstance := do
  let s ← Comp.get
  pure s.client

def modifyClient (f : UwsClientInstance → UwsClientInstance) : UwsComp Unit :=
  Comp.modify fun s => s.setClient (f s.client)

def setUwsState (st : UwsState) : UwsComp Unit :=
  Comp.modify fun s => s.setState st

def xioOpen : UwsComp Int :=
  callOut .xioOpen

def xioSend (purpose : SendPurpose) (bytes : Bytes) : UwsComp Int :=
  callOut (.xioSend purpose bytes)

def xioClose (purpose : ClosePurpose) : UwsComp Int :=
  callOut (.xioClose purpose)

/-! ## Indications to the user -/

def indicateWsOpenCompleteError (result : WsOpenResultDetailed) : UwsComp Unit := do
  setUwsState .uwsStateClosed
  let c ← getClient
  callBack c.callbacks.onWsOpenComplete fun cb => .onWsOpenComplete cb result

def indicateWsOpenCompleteErrorAndClose (result : WsOpenResultDetailed) : UwsComp Unit := do
  let _ ← xioClose .failedOpen
  indicateWsOpenCompleteError result

def indicateWsError (error : WsError) : UwsComp Unit := do
  setUwsState .uwsStateError
  let c ← getClient
  callBack c.callbacks.onWsError fun cb => .onWsError cb error

def indicateWsCloseComplete : UwsComp Unit := do
  setUwsState .uwsStateClosed
  let _ ← callProc .clearPendingSends
  let c ← getClient
  match c.onWsCloseComplete with
  | some cb => do
    let _ ← callOut (.onWsCloseComplete cb)
    pure ()
  | none => pure ()

def sendCloseFrame (closeErrorCode : Nat) : UwsComp Int := do
  let payload : Bytes := [UInt8.ofNat (closeErrorCode >>> 8), UInt8.ofNat closeErrorCode]
  let res ← encoderResources
  match uwsFrameEncoderEncode res wsCloseFrame (some payload) 2 true true 0 with
  | none => pure failure
  | some frame => do
    let r ← xioSend .closeFrame frame
    pure (if r ≠ 0 then failure else 0)

def indicateWsErrorAndClose (error : WsError) (closeErrorCode : Nat) : UwsComp Unit := do
  setUwsState .uwsStateError
  let _ ← sendCloseFrame closeErrorCode
  let c ← getClient
  callBack c.callbacks.onWsError fun cb => .onWsError cb error

/-! ## Pending sends -/

def completeSendFrame (wsPendingSend : WsPendingSend) (result : WsSendFrameResult) :
    UwsComp Int := do
  let c ← getClient
  if c.pendingSends.all (·.item != wsPendingSend.item) then pure failure
  else do
    modifyClient fun c =>
      { c with pendingSends := c.pendingSends.filter (·.item != wsPendingSend.item) }
    match wsPendingSend.onWsSendFrameComplete with
    | some cb => do
      let _ ← callOut (.onWsSendFrameComplete wsPendingSend.item cb result)
      pure 0
    | none => pure 0

/-- The loop of `clear_pending_sends`. -/
def clearPendingSends : UwsComp Int := do
  let c ← getClient
  match c.pendingSends with
  | [] => pure 0
  | firstPendingSend :: _ => do
    let _ ← completeSendFrame firstPendingSend .wsSendFrameCancelled
    callProc .clearPendingSends

/-! ## Callbacks of the underlying io -/

/-- The branch `IO_OPEN_OK` of `on_underlying_io_open_complete`. -/
def sendUpgradeRequest : UwsComp Unit := do
  let c ← getClient
  let nonce ← nonceBytes
  let base64Allocated ← malloc
  if base64Allocated = false then
    indicateWsOpenCompleteErrorAndClose { result := .wsOpenErrorBase64EncodeFailed }
  else do
    let base64Nonce := base64EncodeInternal (List.ofFn nonce)
    let headersAllocated ← malloc
    if headersAllocated = false then
      indicateWsOpenCompleteErrorAndClose { result := .wsOpenErrorConstructingUpgradeRequest }
    else do
      let requestHeaders := getRequestHeaders c.requestHeaders
      if safeAddSizeT (upgradeRequestLength c base64Nonce requestHeaders) 1 = sizeMax then
        indicateWsOpenCompleteErrorAndClose { result := .wsOpenErrorConstructingUpgradeRequest }
      else do
        let requestAllocated ← malloc
        if requestAllocated = false then
          indicateWsOpenCompleteErrorAndClose { result := .wsOpenErrorNotEnoughMemory }
        else
          match upgradeRequest c base64Nonce requestHeaders with
          | none =>
            indicateWsOpenCompleteErrorAndClose
              { result := .wsOpenErrorConstructingUpgradeRequest }
          | some request => do
            let r ← xioSend .upgradeRequest request
            if r ≠ 0 then
              indicateWsOpenCompleteErrorAndClose
                { result := .wsOpenErrorCannotSendUpgradeRequest }
            else setUwsState .uwsStateWaitingForUpgradeResponse

def onUnderlyingIoOpenComplete (openResult : IoOpenResult) (code : Int) : UwsComp Unit := do
  let c ← getClient
  match c.uwsState with
  | .uwsStateOpeningUnderlyingIo =>
    match openResult with
    | .ioOpenError =>
      indicateWsOpenCompleteError
        { result := .wsOpenErrorUnderlyingIoOpenFailed, code := code }
    | .ioOpenCancelled =>
      indicateWsOpenCompleteErrorAndClose
        { result := .wsOpenErrorUnderlyingIoOpenCancelled, code := code }
    | .ioOpenOk => sendUpgradeRequest
  | _ =>
    indicateWsOpenCompleteErrorAndClose
      { result := .wsOpenErrorMultipleUnderlyingIoOpenEvents }

def onUnderlyingIoCloseComplete : UwsComp Unit := do
  let c ← getClient
  if c.uwsState = .uwsStateClosingUnderlyingIo then do
    indicateWsCloseComplete
    setUwsState .uwsStateClosed
  else pure ()

def onUnderlyingIoCloseSent (ioSendResult : IoSendResult) : UwsComp Unit := do
  match ioSendResult with
  | .ioSendError => pure ()
  | _ => do
    let c ← getClient
    if c.uwsState = .uwsStateClosingSendingClose then do
      setUwsState .uwsStateClosingUnderlyingIo
      let r ← xioClose .closeSent
      if r ≠ 0 then indicateWsCloseComplete else pure ()
    else pure ()

def onUnderlyingIoError : UwsComp Unit := do
  let c ← getClient
  match c.uwsState with
  | .uwsStateClosingWaitingForClose | .uwsStateClosingSendingClose
  | .uwsStateClosingUnderlyingIo => do
    let _ ← xioClose .ioErrorWhileClosing
    indicateWsCloseComplete
  | .uwsStateOpeningUnderlyingIo | .uwsStateWaitingForUpgradeResponse =>
    indicateWsOpenCompleteErrorAndClose { result := .wsOpenErrorUnderlyingIoError }
  | .uwsStateOpen => indicateWsError .wsErrorUnderlyingIoError
  | _ => pure ()

def onUnderlyingIoSendComplete (item : Nat) (sendResult : IoSendResult) : UwsComp Unit := do
  let c ← getClient
  match c.pendingSends.find? (·.item == item) with
  | none =>
    -- The list item was freed when its send was completed.
    fault .useAfterFree
  | some wsPendingSend => do
    let wsSendFrameResult :=
      match sendResult with
      | .ioSendError => WsSendFrameResult.wsSendFrameError
      | .ioSendOk => .wsSendFrameOk
      | .ioSendCancelled => .wsSendFrameCancelled
    let r ← completeSendFrame wsPendingSend wsSendFrameResult
    if r ≠ 0 then indicateWsError .wsErrorCannotRemoveSentItemFromList else pure ()

/-! ## Decoding of frames -/

def consumeStreamBufferBytes (consumedBytes : Nat) : UwsComp Unit := do
  let c ← getClient
  if c.streamBuffer.length < consumedBytes then fault .streamBufferUnderflow else pure ()
  modifyClient fun c => c.withStream (c.streamBuffer.drop consumedBytes)

/-- What the header of the frame at the start of the stream buffer says. -/
structure FrameLength where
  length : Nat
  neededBytes : Nat
  hasError : Bool := false
  deriving DecidableEq, Repr

/-- The value of the 8 bytes of a 64-bit payload length. -/
def extendedLength64 (streamBuffer : Bytes) : Nat :=
  (streamBuffer.getD 2 0).toNat <<< 56 + (streamBuffer.getD 3 0).toNat <<< 48 +
  (streamBuffer.getD 4 0).toNat <<< 40 + (streamBuffer.getD 5 0).toNat <<< 32 +
  (streamBuffer.getD 6 0).toNat <<< 24 + (streamBuffer.getD 7 0).toNat <<< 16 +
  (streamBuffer.getD 8 0).toNat <<< 8 + (streamBuffer.getD 9 0).toNat

/-- The computation of `length` and `needed_bytes`.  They stay small enough not to wrap. -/
def decodeFrameLength (streamBuffer : Bytes) : FrameLength :=
  let length := (streamBuffer.getD 1 0).toNat
  if length = 126 then
    if streamBuffer.length ≥ 4 then
      let length := (streamBuffer.getD 2 0).toNat <<< 8 + (streamBuffer.getD 3 0).toNat
      if length < 126 then { length := length, neededBytes := 4, hasError := true }
      else { length := length, neededBytes := 4 + length }
    else { length := length, neededBytes := 4 }
  else if length = 127 then
    if streamBuffer.length ≥ 10 then
      if streamBuffer.getD 2 0 &&& 0x80 ≠ 0 then
        { length := length, neededBytes := 10, hasError := true }
      else if extendedLength64 streamBuffer < 65536 then
        { length := extendedLength64 streamBuffer, neededBytes := 10, hasError := true }
      else
        { length := extendedLength64 streamBuffer,
          neededBytes := 10 + extendedLength64 streamBuffer }
    else { length := length, neededBytes := 10 }
  else { length := length, neededBytes := 2 + length }

/-- The `length` bytes at `stream_buffer + needed_bytes - length`. -/
def framePayload (streamBuffer : Bytes) (fl : FrameLength) : Bytes :=
  (streamBuffer.drop (fl.neededBytes - fl.length)).take fl.length

/-- `fragment_buffer` is handed to `realloc` or `free`, which it must not be a second time. -/
def checkFragmentBuffer : UwsComp Unit := do
  let c ← getClient
  if c.fragmentBlock = .freed then fault .useAfterFree else pure ()

/-- `realloc (fragment_buffer, size)`; the result is whether it returns a block. -/
def reallocFragmentBuffer (size : Nat) : UwsComp Bool := do
  checkFragmentBuffer
  let c ← getClient
  if c.fragmentBlock ≠ .null ∧ size = 0 then do
    -- glibc and the runtime of Windows free a block of which no bytes are wanted and return NULL.
    modifyClient fun c => { c with fragmentBlock := .freed }
    pure false
  else do
    let allocated ← malloc
    if allocated then modifyClient fun c => { c with fragmentBlock := .allocated } else pure ()
    pure allocated

/-- `free (fragment_buffer)`. -/
def freeFragmentBuffer : UwsComp Unit := do
  checkFragmentBuffer
  modifyClient fun c =>
    { c with fragmentBlock := if c.fragmentBlock = .null then .null else .freed }

def processFrameFragment (fl : FrameLength) : UwsComp Int := do
  let c ← getClient
  let allocated ← reallocFragmentBuffer (c.fragmentBuffer.length + fl.length)
  if allocated = false then do
    indicateWsError .wsErrorNotEnoughMemory
    pure failure
  else do
    modifyClient fun c =>
      { c with fragmentBuffer := c.fragmentBuffer ++ framePayload c.streamBuffer fl }
    pure 0

/-- The branch `WS_CONTINUATION_FRAME`; the result is `decode_stream`. -/
def receiveContinuationFrame (fl : FrameLength) (isFinal : Bool) : UwsComp Bool := do
  let r ← processFrameFragment fl
  if r ≠ 0 then pure false
  else if isFinal then do
    let c ← getClient
    if c.fragmentedFrameType = wsFrameTypeUnknown then do
      indicateWsError .wsErrorBadFrameReceived
      pure true
    else do
      callBack c.callbacks.onWsFrameReceived fun cb =>
        .onWsFrameReceived cb c.fragmentedFrameType c.fragmentBuffer
      modifyClient fun c =>
        { c with fragmentBuffer := [], fragmentedFrameType := wsFrameTypeUnknown }
      pure true
  else pure true

/-- The branches `WS_TEXT_FRAME` and `WS_BINARY_FRAME` differ in `frameType` only. -/
def receiveDataFrame (frameType : UInt8) (fl : FrameLength) (isFinal : Bool) : UwsComp Bool := do
  let c ← getClient
  if isFinal then do
    callBack c.callbacks.onWsFrameReceived fun cb =>
      .onWsFrameReceived cb frameType (framePayload c.streamBuffer fl)
    pure true
  else if c.fragmentedFrameType ≠ wsFrameTypeUnknown then do
    indicateWsError .wsErrorBadFrameReceived
    pure true
  else do
    let r ← processFrameFragment fl
    if r ≠ 0 then pure false
    else do
      modifyClient fun c => { c with fragmentedFrameType := frameType }
      pure true

def receiveTextFrame (fl : FrameLength) (isFinal : Bool) : UwsComp Bool :=
  receiveDataFrame wsFrameTypeText fl isFinal

def receiveBinaryFrame (fl : FrameLength) (isFinal : Bool) : UwsComp Bool :=
  receiveDataFrame wsFrameTypeBinary fl isFinal

/-- Close the underlying io in place of a close handshake that cannot be completed. -/
def closeUnderlyingIo (purpose : ClosePurpose) : UwsComp Unit := do
  setUwsState .uwsStateClosingUnderlyingIo
  let r ← xioClose purpose
  if r ≠ 0 then do
    indicateWsError .wsErrorCannotCloseUnderlyingIo
    setUwsState .uwsStateClosed
  else pure ()

/-- `close_code`, absent in a payload of less than two bytes. -/
def closeCodeOf (payload : Bytes) : Option Nat :=
  if payload.length ≥ 2 then
    some ((payload.getD 0 0).toNat <<< 8 + (payload.getD 1 0).toNat)
  else none

/-- The branch `WS_CLOSE_FRAME`. -/
def receiveCloseFrame (fl : FrameLength) (isFinal : Bool) : UwsComp Bool := do
  let c ← getClient
  let payload := framePayload c.streamBuffer fl
  if isFinal = false then do
    indicateWsError .wsErrorBadFrameReceived
    pure false
  else if payload.length > 2 ∧ utf8CheckerIsValidUtf8 (payload.drop 2) = false then do
    closeUnderlyingIo .badCloseReason
    pure false
  else if c.uwsState = .uwsStateClosingWaitingForClose then do
    setUwsState .uwsStateClosingUnderlyingIo
    let r ← xioClose .closeHandshakeDone
    if r ≠ 0 then do
      indicateWsCloseComplete
      setUwsState .uwsStateClosed
      pure false
    else pure false
  else do
    setUwsState .uwsStateClosingSendingClose
    let res ← encoderResources
    match uwsFrameEncoderEncode res wsCloseFrame none 0 true true 0 with
    | none => closeUnderlyingIo .closeResponseFailed
    | some frame => do
      let r ← xioSend .closeResponse frame
      if r ≠ 0 then closeUnderlyingIo .closeResponseFailed else pure ()
    let c ← getClient
    callBack c.callbacks.onWsPeerClosed fun cb =>
      .onWsPeerClosed cb (closeCodeOf payload) (payload.drop 2)
    pure false

/-- The branch `WS_PING_FRAME`. -/
def receivePingFrame (fl : FrameLength) (isFinal : Bool) : UwsComp Bool := do
  let c ← getClient
  if isFinal = false then do
    indicateWsError .wsErrorBadFrameReceived
    pure false
  else do
    let res ← encoderResources
    match uwsFrameEncoderEncode res wsPongFrame (some (framePayload c.streamBuffer fl))
        fl.length true true 0 with
    | none => pure false
    | some frame => do
      let _ ← xioSend .pongFrame frame
      pure false

/-- The `switch` over the opcode; the result is `decode_stream`. -/
def receiveFrame (opcode : UInt8) (fl : FrameLength) (isFinal : Bool) : UwsComp Bool :=
  if opcode = wsContinuationFrame then receiveContinuationFrame fl isFinal
  else if opcode = wsTextFrame then receiveTextFrame fl isFinal
  else if opcode = wsBinaryFrame then receiveBinaryFrame fl isFinal
  else if opcode = wsCloseFrame then receiveCloseFrame fl isFinal
  else if opcode = wsPingFrame then receivePingFrame fl isFinal
  else
    -- `WS_PONG_FRAME` and the reserved opcodes are dropped.
    pure false

/-- The cases `UWS_STATE_OPEN` and `UWS_STATE_CLOSING_WAITING_FOR_CLOSE` of the decode loop. -/
def decodeFrame : UwsComp Bool := do
  let c ← getClient
  if c.streamBuffer.length ≥ 2 then do
    if c.streamBuffer.getD 1 0 &&& 0x80 ≠ 0 then
      -- The masked frame is reported, but `has_error` stays clear.
      indicateWsErrorAndClose .wsErrorBadFrameReceived 1002
    else pure ()
    let c ← getClient
    let fl := decodeFrameLength c.streamBuffer
    if fl.hasError then do
      indicateWsError .wsErrorBadFrameReceived
      pure false
    else if c.streamBuffer.length ≥ fl.neededBytes then do
      let firstByte := c.streamBuffer.getD 0 0
      let decodeStream ← receiveFrame (firstByte &&& 0xF) fl (firstByte &&& 0x80 != 0)
      consumeStreamBufferBytes fl.neededBytes
      pure decodeStream
    else pure false
  else pure false

/-- The case `UWS_STATE_WAITING_FOR_UPGRADE_RESPONSE` of the decode loop. -/
def decodeUpgradeResponse : UwsComp Bool := do
  let c ← getClient
  match findResponseEnd c.streamBuffer with
  | none => pure false
  | some requestEnd => do
    let errnoSet ← errno
    match parseHttpResponse c.streamBuffer errnoSet with
    | none => do
      indicateWsOpenCompleteErrorAndClose
        { result := .wsOpenErrorBadUpgradeResponse, code := failure }
      pure false
    | some statusCode =>
      if statusCode ≠ 101 then do
        indicateWsOpenCompleteErrorAndClose
          { result := .wsOpenErrorBadResponseStatus, code := statusCode,
            buffer := some c.streamBuffer }
        pure false
      else do
        consumeStreamBufferBytes (requestEnd + 4)
        setUwsState .uwsStateOpen
        let c ← getClient
        callBack c.callbacks.onWsOpenComplete fun cb =>
          .onWsOpenComplete cb { result := .wsOpenOk }
        pure true

/-- One round of the loop `while (decode_stream)`; the result is the new `decode_stream`. -/
def decodeRound : UwsComp Bool := do
  let c ← getClient
  match c.uwsState with
  | .uwsStateOpeningUnderlyingIo => do
    indicateWsOpenCompleteErrorAndClose
      { result := .wsOpenErrorBytesReceivedBeforeUnderlyingOpen, code := failure }
    pure false
  | .uwsStateWaitingForUpgradeResponse => decodeUpgradeResponse
  | .uwsStateOpen | .uwsStateClosingWaitingForClose => decodeFrame
  | _ => pure false

/-- The loop `while (decode_stream)`. -/
def decodeStream : UwsComp Int := do
  let decodeStream ← decodeRound
  if decodeStream then callProc .decodeStream else pure 0

def appendReceivedBytes (bytes : Bytes) : UwsComp Unit :=
  modifyClient fun c => c.withStream (c.streamBuffer ++ bytes)

/-- The branch of `on_underlying_io_bytes_received` for bytes that can be used. -/
def receiveBytes (bytes : Bytes) : UwsComp Unit := do
  let c ← getClient
  match c.uwsState with
  | .uwsStateOpeningUnderlyingIo =>
    indicateWsOpenCompleteErrorAndClose
      { result := .wsOpenErrorBytesReceivedBeforeUnderlyingOpen, code := failure }
  | .uwsStateWaitingForUpgradeResponse => do
    let allocated ← malloc
    if allocated = false then
      indicateWsOpenCompleteErrorAndClose
        { result := .wsOpenErrorNotEnoughMemory, code := failure }
    else do
      appendReceivedBytes bytes
      let _ ← callProc .decodeStream
      pure ()
  | .uwsStateOpen | .uwsStateClosingWaitingForClose => do
    let allocated ← malloc
    if allocated = false then indicateWsError .wsErrorNotEnoughMemory
    else do
      appendReceivedBytes bytes
      let _ ← callProc .decodeStream
      pure ()
  | _ => pure ()

/-- `buffer = none` is the NULL pointer. -/
def onUnderlyingIoBytesReceived (buffer : Option Bytes) : UwsComp Unit :=
  match buffer with
  | none | some [] =>
    indicateWsOpenCompleteErrorAndClose
      { result := .wsOpenErrorInvalidBytesReceivedArguments, code := failure }
  | some (b :: bs) => receiveBytes (b :: bs)

theorem onUnderlyingIoBytesReceived_nonempty {bytes : Bytes} (h : bytes ≠ []) :
    onUnderlyingIoBytesReceived (some bytes) = receiveBytes bytes := by
  cases bytes with
  | nil => exact absurd rfl h
  | cons b bs => rfl

/-! ## The user's interface -/

/-- The assignments of `uws_client_open_async`. -/
def UwsClientInstance.beginOpen (c : UwsClientInstance) (callbacks : OpenCallbacks) :
    UwsClientInstance :=
  { c with
    uwsState := .uwsStateOpeningUnderlyingIo
    streamBuffer := []
    fragmentBuffer := []
    fragmentedFrameType := wsFrameTypeUnknown
    callbacks := callbacks }

def OpenCallbacks.anyNull (callbacks : OpenCallbacks) : Bool :=
  callbacks.onWsOpenComplete.isNone || callbacks.onWsFrameReceived.isNone ||
    callbacks.onWsPeerClosed.isNone || callbacks.onWsError.isNone

def uwsClientOpenAsync (openId : Nat) (callbacks : OpenCallbacks) : UwsComp Int := do
  if callbacks.anyNull then pure failure
  else do
    let c ← getClient
    if c.uwsState ≠ .uwsStateClosed then pure failure
    else do
      modifyClient fun c => c.beginOpen callbacks
      Comp.modify fun s => { s with currentOpen := openId }.record (.openAccepted openId)
      let r ← xioOpen
      if r ≠ 0 then do
        setUwsState .uwsStateClosed
        pure failure
      else pure 0

def uwsClientCloseAsync (onWsCloseComplete : Option Callback) : UwsComp Int := do
  let c ← getClient
  if c.uwsState = .uwsStateClosed then pure failure
  else do
    modifyClient fun c => { c with onWsCloseComplete := onWsCloseComplete }
    setUwsState .uwsStateClosingUnderlyingIo
    let r ← xioClose .closeAsync
    if r ≠ 0 then do
      indicateWsError .wsErrorCannotCloseUnderlyingIo
      pure failure
    else pure 0

def uwsClientCloseHandshakeAsync (closeCode : UInt16) (onWsCloseComplete : Option Callback) :
    UwsComp Int := do
  let c ← getClient
  match c.uwsState with
  | .uwsStateClosed | .uwsStateClosingWaitingForClose | .uwsStateClosingSendingClose
  | .uwsStateClosingUnderlyingIo => pure failure
  | _ => do
    modifyClient fun c => { c with onWsCloseComplete := onWsCloseComplete }
    setUwsState .uwsStateClosingWaitingForClose
    let r ← sendCloseFrame closeCode.toNat
    pure (if r ≠ 0 then failure else 0)

def uwsClientSendFrameAsync (sendId : Nat) (frameType : UInt8) (buffer : Option Bytes)
    (size : Nat) (isFinal : Bool) (onWsSendFrameComplete : Option Callback) : UwsComp Int := do
  let c ← getClient
  if buffer.isNone ∧ size > 0 then pure failure
  else if c.uwsState ≠ .uwsStateOpen then pure failure
  else do
    let pendingSendAllocated ← malloc
    if pendingSendAllocated = false then pure failure
    else do
      let res ← encoderResources
      match uwsFrameEncoderEncode res frameType buffer size true isFinal 0 with
      | none => pure failure
      | some encodedFrame => do
        let itemAllocated ← malloc
        if itemAllocated = false then pure failure
        else do
          modifyClient fun c =>
            { c with
              pendingSends :=
                c.pendingSends ++
                  [{ item := sendId, onWsSendFrameComplete := onWsSendFrameComplete }] }
          let r ← xioSend (.dataFrame sendId) encodedFrame
          if r ≠ 0 then do
            -- The underlying io may have completed the send already.
            modifyClient fun c =>
              { c with pendingSends := c.pendingSends.filter (·.item != sendId) }
            pure failure
          else pure 0

/-- `uws_client_dowork`; what it logs while an open takes long is left out. -/
def uwsClientDowork : UwsComp Unit := do
  let c ← getClient
  if c.uwsState ≠ .uwsStateClosed then do
    let _ ← callOut .xioDowork
    pure ()
  else pure ()

def uwsClientDestroy : UwsComp Unit := do
  freeFragmentBuffer
  let c ← getClient
  match c.uwsState with
  | .uwsStateOpen | .uwsStateError => do
    let _ ← uwsClientCloseAsync none
    pure ()
  | _ => pure ()
  let _ ← callOut .xioDestroy
  let _ ← callProc .clearPendingSends
  Comp.modify fun s => { s with destroyed := true }

/-! ## The procedures -/

def void (c : UwsComp Unit) : UwsComp Int := do
  c
  pure 0

/-- Number a call of `uws_client_open_async`, from 1, and record what it returns. -/
def openAsyncProc (callbacks : OpenCallbacks) : UwsComp Int := do
  let s ← Comp.get
  Comp.modify fun s => { s with openCalls := s.openCalls + 1 }
  let r ← uwsClientOpenAsync (s.openCalls + 1) callbacks
  Comp.modify fun s' => s'.record (.openAsyncReturned (s.openCalls + 1) r)
  pure r

/-- Number a call of `uws_client_send_frame_async` and record what it returns. -/
def sendFrameAsyncProc (frameType : UInt8) (buffer : Option Bytes) (size : Nat) (isFinal : Bool)
    (onWsSendFrameComplete : Option Callback) : UwsComp Int := do
  let s ← Comp.get
  Comp.modify fun s => { s with sendCalls := s.sendCalls + 1 }
  let r ← uwsClientSendFrameAsync s.sendCalls frameType buffer size isFinal onWsSendFrameComplete
  Comp.modify fun s' => s'.record (.sendFrameAsyncReturned s.sendCalls onWsSendFrameComplete r)
  pure r

def uwsCode : Proc → UwsComp Int
  | .uwsClientOpenAsync callbacks => openAsyncProc callbacks
  | .uwsClientCloseAsync cb => uwsClientCloseAsync cb
  | .uwsClientCloseHandshakeAsync code cb => uwsClientCloseHandshakeAsync code cb
  | .uwsClientSendFrameAsync frameType buffer size isFinal cb =>
    sendFrameAsyncProc frameType buffer size isFinal cb
  | .uwsClientDowork => void uwsClientDowork
  | .uwsClientDestroy => void uwsClientDestroy
  | .onUnderlyingIoOpenComplete result code => void (onUnderlyingIoOpenComplete result code)
  | .onUnderlyingIoBytesReceived buffer => void (onUnderlyingIoBytesReceived buffer)
  | .onUnderlyingIoError => void onUnderlyingIoError
  | .onUnderlyingIoCloseComplete => void onUnderlyingIoCloseComplete
  | .onUnderlyingIoCloseSent result => void (onUnderlyingIoCloseSent result)
  | .onUnderlyingIoSendComplete item result => void (onUnderlyingIoSendComplete item result)
  | .decodeStream => decodeStream
  | .clearPendingSends => clearPendingSends

end SharedUtility.UwsClient
