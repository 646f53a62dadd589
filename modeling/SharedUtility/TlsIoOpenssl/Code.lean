import SharedUtility.TlsIoOpenssl.Types

/-!
# Code — the TLS io over OpenSSL (`tlsio_openssl.c`)

The functions, for a handle that is not NULL.  A memory BIO holds less than 2^31 bytes, so that
`(int)pending` is the number of bytes in `out_bio`.
-/

namespace SharedUtility.TlsIoOpenssl

open Reentrant

/-! ## Primitive steps -/

def getInst : TlsComp TlsIoInstance := do
  let s ← Comp.get
  pure s.inst

def modifyInst (f : TlsIoInstance → TlsIoInstance) : TlsComp Unit :=
  Comp.modify fun s => s.setInst (f s.inst)

def setTlsioState (state : TlsioState) : TlsComp Unit :=
  Comp.modify fun s => s.setState state

/-- Ask OpenSSL or the allocator. -/
def ask (c : Call) : TlsComp (Ans c) :=
  @Comp.call TlsIo tlsioOpensslSignature c

def callOut (c : Call) : TlsComp (Ans c) := do
  Comp.modify fun s => s.record (.call s.currentOpen c)
  ask c

def xioOpen : TlsComp Int := do
  Comp.modify fun s => { s with openDepth := s.openDepth + 1, ioOpen := true }
  let r ← callOut .xioOpen
  Comp.modify fun s => { s with openDepth := s.openDepth - 1 }
  pure (show Int from r)

def xioClose (purpose : ClosePurpose) : TlsComp Int := callOut (.xioClose purpose)

def indicateError : TlsComp Unit := do
  let i ← getInst
  match i.onIoError with
  | none => pure ()
  | some cb => callOut (.onIoError cb)

def indicateOpenComplete (openResult : IoOpenResultDetailed) (site : ReportSite) :
    TlsComp Unit := do
  let i ← getInst
  match i.onIoOpenComplete with
  | none => pure ()
  | some cb => callOut (.onIoOpenComplete cb openResult site)

/-! ## Outgoing bytes -/

/-- The bytes are given to `xio_send`. -/
def TlsIo.handOver (s : TlsIo) (purpose : WritePurpose) (bytes : List OutgoingByte) : TlsIo :=
  { s.record (.call s.currentOpen (.xioSend s.handed.length purpose bytes)) with
    handed := s.handed ++
      [{ openId := (s.inst.ssl.map Ssl.openId).getD 0, purpose := purpose, bytes := bytes }] }

/-- The `xio_send` with the number `n` has returned. -/
def TlsIo.sendReturned (s : TlsIo) (n : Nat) (r : Int) : TlsIo :=
  { s with handed := s.handed.modify n fun h => { h with result := some r } }

def xioSend (purpose : WritePurpose) (bytes : List OutgoingByte) : TlsComp Int := do
  let s ← Comp.get
  Comp.modify fun s => s.handOver purpose bytes
  let r ← ask (.xioSend s.handed.length purpose bytes)
  Comp.modify fun s' => s'.sendReturned s.handed.length r
  pure (show Int from r)

def writeOutgoingBytes (purpose : WritePurpose) : TlsComp Int := do
  Comp.modify fun s => s.useBio s.inst.outBio
  let i ← getInst
  let pending := i.pending
  if pending = [] then pure 0
  else do
    let bytesToSend ← ask (.malloc purpose)
    if bytesToSend = false then pure failure
    else do
      let count ← ask (.bioRead purpose pending.length)
      let count : Int := count
      Comp.modify fun s => s.takeOutgoing count.toNat
      if count ≠ pending.length then pure failure
      else do
        let r ← xioSend purpose pending
        pure (if r ≠ 0 then failure else 0)

/-! ## The handshake -/

/-- Bytes that carry no application data. -/
def protocolBytes (bytes : Bytes) : List OutgoingByte :=
  bytes.map fun b => { byte := b }

def failHandshake : TlsComp Unit := do
  Comp.modify TlsIo.endAttempt
  setTlsioState .tlsioStateHandshakeFailed

/-- What `send_handshake_bytes` does with the result of `SSL_do_handshake`. -/
def handshakeStepped (result : HandshakeResult) : TlsComp Unit :=
  match result with
  | .success => do
    Comp.modify TlsIo.endAttempt
    setTlsioState .tlsioStateOpen
    indicateOpenComplete { result := .ioOpenOk } .handshakeDone
  | .error sslError =>
    if sslError.wantsMore = false then failHandshake
    else do
      let r ← writeOutgoingBytes .handshake
      if r ≠ 0 then failHandshake else pure ()

def sendHandshakeBytes : TlsComp Unit := do
  let i ← getInst
  match i.ssl with
  | none => Comp.modify fun s => s.record (.fault .sslNull)
  | some ssl => do
    let step ← ask (.sslDoHandshake ssl.history)
    let step : SslStep HandshakeResult := step
    Comp.modify fun s => s.stepSsl .sslDoHandshake (protocolBytes step.written)
    handshakeStepped step.result

/-! ## Callbacks of the underlying io -/

def closeOpensslInstance : TlsComp Unit :=
  Comp.modify TlsIo.closeOpensslInstance

/-- The io has completed the close it was asked for. -/
def TlsIo.ioClosed (s : TlsIo) : TlsIo :=
  { s.endAttempt with ioClosing := false, closeCompleteDepth := s.closeCompleteDepth + 1 }

def TlsIo.closeCompleted (s : TlsIo) : TlsIo :=
  { s.closed with closeCompleteDepth := s.closeCompleteDepth - 1 }

/-- What `on_underlying_io_close_complete` does for the state. -/
def closeCompleteIn (state : TlsioState) : TlsComp Unit :=
  match state with
  | .tlsioStateOpeningUnderlyingIo => do
    setTlsioState .tlsioStateNotOpen
    indicateOpenComplete { result := .ioOpenError, code := failure } .ioCloseComplete
  | .tlsioStateClosing => do
    setTlsioState .tlsioStateNotOpen
    let s ← Comp.get
    match s.inst.onIoCloseComplete with
    | none => pure ()
    | some cb => callOut (.onIoCloseComplete s.currentClose cb)
  | _ => pure ()

def onUnderlyingIoCloseComplete : TlsComp Unit := do
  Comp.modify TlsIo.ioClosed
  let i ← getInst
  closeCompleteIn i.tlsioState
  closeOpensslInstance
  Comp.modify TlsIo.closeCompleted

def onUnderlyingIoOpenComplete (openResult : IoOpenResultDetailed) : TlsComp Unit := do
  let i ← getInst
  if i.tlsioState = .tlsioStateOpeningUnderlyingIo ∧ openResult.result = .ioOpenOk then do
    setTlsioState .tlsioStateInHandshake
    sendHandshakeBytes
  else do
    -- Both for a failed open and for a state in which none is expected.
    Comp.modify TlsIo.endAttempt
    Comp.modify TlsIo.giveUp
    setTlsioState .tlsioStateNotOpen
    indicateOpenComplete { openResult with result := .ioOpenError } .ioOpenComplete

/-- The connection of the current open has failed. -/
def TlsIo.fail (s : TlsIo) : TlsIo :=
  s.record (.failed s.currentOpen)

/-- The io has reported the failure, and the state stays as it is until the user closes. -/
def TlsIo.failInPlace (s : TlsIo) : TlsIo :=
  { s.fail with awaitsClose := true }

def onUnderlyingIoError : TlsComp Unit := do
  Comp.modify TlsIo.endAttempt
  let i ← getInst
  match i.tlsioState with
  | .tlsioStateOpeningUnderlyingIo | .tlsioStateInHandshake => do
    Comp.modify TlsIo.giveUp
    setTlsioState .tlsioStateNotOpen
    indicateOpenComplete { result := .ioOpenError, code := failure } .ioError
  | .tlsioStateOpen => do
    Comp.modify TlsIo.failInPlace
    indicateError
  | _ => pure ()

/-- What the loop of `decode_ssl_received_bytes` does with the result of `SSL_read`. -/
def sslReadReturned (result : ReadResult) : TlsComp Int :=
  match result with
  | .received bytes => do
    let i ← getInst
    match i.onBytesReceived with
    | none => Comp.proc .decodeSslReceivedBytes
    | some cb => do
      callOut (.onBytesReceived cb bytes)
      Comp.proc .decodeSslReceivedBytes
  | .error sslError =>
    if sslError.wantsMore = false then do
      -- The error is only logged.
      Comp.modify TlsIo.fail
      pure 0
    else pure 0

/-- `decode_ssl_received_bytes`, a round of its loop and the rounds after it. -/
def decodeSslReceivedBytes : TlsComp Int := do
  let i ← getInst
  if i.tlsioState = .tlsioStateOpen then
    match i.ssl with
    | none => pure failure
    | some ssl => do
      let step ← ask (.sslRead ssl.history)
      let step : SslStep ReadResult := step
      Comp.modify fun s => s.stepSsl .sslRead (protocolBytes step.written)
      sslReadReturned step.result
  else pure 0

/-- `in_bio` has not taken the bytes. -/
def TlsIo.refuseBytes (s : TlsIo) : TlsIo :=
  (if s.inst.tlsioState = .tlsioStateOpen then s.fail else s).endAttempt

/-- What `on_underlying_io_bytes_received` does for the state. -/
def bytesReceivedIn (state : TlsioState) : TlsComp Unit :=
  match state with
  | .tlsioStateInHandshake => sendHandshakeBytes
  | .tlsioStateOpen => do
    let r ← Comp.proc .decodeSslReceivedBytes
    if r ≠ 0 then do
      setTlsioState .tlsioStateError
      indicateError
    else pure ()
  | _ => pure ()

def onUnderlyingIoBytesReceived (buffer : Bytes) : TlsComp Unit := do
  Comp.modify fun s => s.useBio s.inst.inBio
  let written ← ask (.bioWrite buffer)
  let written : Int := written
  Comp.modify fun s => s.stepSsl (.bioWrite (buffer.take written.toNat)) []
  if written ≠ intOfSizeT buffer.length then do
    Comp.modify TlsIo.refuseBytes
    setTlsioState .tlsioStateError
    indicateError
  else do
    let i ← getInst
    bytesReceivedIn i.tlsioState

/-! ## The engine -/

/-- A step that is made only if it is needed. -/
def createStepIf (needed : Bool) (step : CreateStep) : TlsComp Bool :=
  if needed then ask (.create step) else pure true

/-- The result of `SSL_CTX_new` is stored. -/
def TlsIo.storeContext (s : TlsIo) (context : Option Nat) : TlsIo :=
  (if s.inst.sslContext = none then s else s.record (.fault .overwritten)).setInst
    { s.inst with sslContext := context }

/-- The result of `SSL_new` is stored. -/
def TlsIo.storeSsl (s : TlsIo) (ssl : Option Ssl) : TlsIo :=
  (if s.inst.ssl = none then s else s.record (.fault .overwritten)).setInst
    { s.inst with ssl := ssl }

/-- The end of `create_openssl_instance` when a step has failed after `ssl_context` was made. -/
def freeSslContext : TlsComp Int := do
  modifyInst fun i => { i with sslContext := none }
  pure failure

/-- The same after `ssl` was made. -/
def freeSsl : TlsComp Int := do
  closeOpensslInstance
  pure failure

def createSsl (config : TlsioConfig) (k : Nat) : TlsComp Int := do
  let created ← createStepIf true .sslNew
  Comp.modify fun s => s.storeSsl (if created then some { openId := k } else none)
  if created = false then freeSslContext
  else do
    let named ← createStepIf (!isIpLiteral config.hostname) .sslSetTlsextHostName
    if named = false then freeSsl
    else do
      let i ← getInst
      let checked ← createStepIf (!i.ignoreHostNameCheck) .enableDomainCheck
      if checked = false then freeSsl else pure 0

def createBios (config : TlsioConfig) (k : Nat) : TlsComp Int := do
  let inBio ← createStepIf true .bioNewIn
  modifyInst fun i => { i with inBio := if inBio then some k else none }
  if inBio = false then freeSslContext
  else do
    let outBio ← createStepIf true .bioNewOut
    modifyInst fun i => { i with outBio := if outBio then some k else none }
    if outBio = false then freeSslContext
    else do
      -- Both calls of `BIO_set_mem_eof_return`.
      let eof ← createStepIf true .bioSetMemEofReturn
      if eof = false then freeSslContext else createSsl config k

def addCredentials (config : TlsioConfig) (k : Nat) : TlsComp Int := do
  let i ← getInst
  let trusted ← createStepIf i.certificate.isSome .addCertificateToStore
  if trusted = false then freeSslContext
  else do
    let authenticated ← createStepIf (i.x509Certificate.isSome && i.x509PrivateKey.isSome)
      .x509OpensslAddCredentials
    if authenticated = false then freeSslContext else createBios config k

def createOpensslInstance (config : TlsioConfig) (k : Nat) : TlsComp Int := do
  let created ← createStepIf true .sslCtxNew
  Comp.modify fun s => s.storeContext (if created then some k else none)
  if created = false then pure failure
  else do
    let loaded ← createStepIf true .loadSystemStore
    -- These two failures leave `ssl_context`.
    if loaded = false then pure failure
    else do
      let ready ← createStepIf true .setupCrlCheck
      if ready = false then pure failure else addCredentials config k

/-! ## The interface -/

/-- Store the callbacks of the open with number `k`. -/
def TlsIo.beginOpen (s : TlsIo) (k : Nat) (arguments : OpenArguments) : TlsIo :=
  { s with
    inst := { s.inst with
      onIoOpenComplete := arguments.onIoOpenComplete
      onBytesReceived := arguments.onBytesReceived
      onIoError := arguments.onIoError
      tlsioState := .tlsioStateOpeningUnderlyingIo }
    currentOpen := k
    attemptOver := false }

def openUnderlyingIo (config : TlsioConfig) (k : Nat) (arguments : OpenArguments) :
    TlsComp Int := do
  let i ← getInst
  if i.tlsioState ≠ .tlsioStateNotOpen then pure failure
  else do
    Comp.modify fun s => s.beginOpen k arguments
    let created ← createOpensslInstance config k
    if created ≠ 0 then do
      setTlsioState .tlsioStateNotOpen
      pure failure
    else do
      let r ← xioOpen
      if r ≠ 0 then do
        closeOpensslInstance
        setTlsioState .tlsioStateNotOpen
        Comp.modify TlsIo.closed
        pure failure
      else pure 0

def tlsioOpensslOpen (config : TlsioConfig) (arguments : OpenArguments) : TlsComp Int := do
  Comp.modify fun s => { s with openCalls := s.openCalls + 1 }
  let s ← Comp.get
  let r ← openUnderlyingIo config s.openCalls arguments
  Comp.modify fun s' => s'.record (.openReturned s.openCalls r)
  pure r

/-- The open that is under way is reported as cancelled; here the callback is not compared with
NULL. -/
def cancelOpen (state : TlsioState) : TlsComp Unit :=
  if isAnOpeningState state then do
    let i ← getInst
    match i.onIoOpenComplete with
    | none => Comp.modify fun s => s.record (.fault .callbackNull)
    | some cb => callOut (.onIoOpenComplete cb { result := .ioOpenCancelled } .closeCalled)
  else pure ()

/-- The close with number `j` waits for the io. -/
def TlsIo.beginClosing (s : TlsIo) (j : Nat) (onIoCloseComplete : Option Callback) : TlsIo :=
  { s with
    inst := { s.inst with
      tlsioState := .tlsioStateClosing
      onIoCloseComplete := onIoCloseComplete }
    currentClose := j
    ioClosing := true }

def closeGracefully (j : Nat) (onIoCloseComplete : Option Callback) : TlsComp Unit := do
  Comp.modify fun s => s.beginClosing j onIoCloseComplete
  let r ← xioClose .graceful
  if r ≠ 0 then do
    closeOpensslInstance
    Comp.modify fun s => { s.closed with ioClosing := false }
    setTlsioState .tlsioStateNotOpen
  else pure ()

/-- The callback of the close is not stored, let alone called. -/
def forceClose : TlsComp Unit := do
  let _ ← xioClose .forced
  closeOpensslInstance
  setTlsioState .tlsioStateNotOpen
  Comp.modify TlsIo.closed

def shutDown (j : Nat) (onIoCloseComplete : Option Callback) : TlsComp Unit := do
  let i ← getInst
  if i.tlsioState = .tlsioStateOpen then closeGracefully j onIoCloseComplete else forceClose

/-- The open that a close in this state cancels. -/
def TlsIo.cancels (s : TlsIo) : Option Nat :=
  if isAnOpeningState s.inst.tlsioState then some s.currentOpen else none

def tlsioOpensslClose (onIoCloseComplete : Option Callback) : TlsComp Int := do
  Comp.modify fun s =>
    { s.endAttempt with closeCalls := s.closeCalls + 1, awaitsClose := false }
  let s ← Comp.get
  cancelOpen s.inst.tlsioState
  shutDown s.closeCalls onIoCloseComplete
  Comp.modify fun s' => s'.record (.closeReturned s.closeCalls s.cancels onIoCloseComplete 0)
  pure 0

/-- The bytes of `SSL_write`, those with application data marked with the number of the send. -/
def applicationBytes (sendId : Nat) (written : List (UInt8 × Bool)) : List OutgoingByte :=
  written.map fun b => { byte := b.1, send := if b.2 then some sendId else none }

def sendBytes (sendId openId : Nat) (buffer : Bytes) (onSendComplete : Option Callback) :
    TlsComp Int := do
  let i ← getInst
  if i.tlsioState ≠ .tlsioStateOpen then pure failure
  else
    match i.ssl with
    | none => pure failure
    | some ssl => do
      let bytes := buffer.take (intOfSizeT buffer.length).toNat
      let step ← ask (.sslWrite ssl.history buffer)
      let step : SslWriteStep := step
      Comp.modify fun s => s.stepSsl (.sslWrite bytes) (applicationBytes sendId step.written)
      if step.result ≠ intOfSizeT buffer.length then pure failure
      else do
        let r ← writeOutgoingBytes (.send sendId openId onSendComplete)
        pure (if r ≠ 0 then failure else 0)

def tlsioOpensslSend (buffer : Bytes) (onSendComplete : Option Callback) : TlsComp Int := do
  Comp.modify fun s => { s with sendCalls := s.sendCalls + 1 }
  let s ← Comp.get
  let r ← sendBytes s.sendCalls s.currentOpen buffer onSendComplete
  Comp.modify fun s' => s'.record (.sendReturned s.sendCalls s.currentOpen r)
  pure r

/-- `tlsio_openssl_dowork` closes when the handshake has failed. -/
def closeFailedHandshake : TlsComp Unit := do
  setTlsioState .tlsioStateError
  let _ ← tlsioOpensslClose none
  indicateOpenComplete { result := .ioOpenError, code := failure } .handshakeFailed

def workUnderlyingIo : TlsComp Unit := do
  Comp.modify fun s => { s with doworkDepth := s.doworkDepth + 1 }
  callOut .xioDowork
  Comp.modify fun s => { s with doworkDepth := s.doworkDepth - 1 }
  let i ← getInst
  if i.tlsioState = .tlsioStateHandshakeFailed then closeFailedHandshake else pure ()

/-- The states in which the SSL object is used; in these `tlsio_openssl_dowork` pumps out what it has
written. -/
def TlsioState.usesSsl : TlsioState → Bool
  | .tlsioStateOpeningUnderlyingIo | .tlsioStateInHandshake | .tlsioStateOpen => true
  | _ => false

def pumpOutgoing (state : TlsioState) : TlsComp Unit :=
  if state.usesSsl then do
    let _ ← writeOutgoingBytes .dowork
    pure ()
  else pure ()

def tlsioOpensslDowork : TlsComp Unit := do
  let i ← getInst
  pumpOutgoing i.tlsioState
  let i ← getInst
  if i.tlsioState ≠ .tlsioStateNotOpen then workUnderlyingIo else pure ()

/-- What is freed is never entered again. -/
def tlsioOpensslDestroy : TlsComp Unit := do
  modifyInst fun i =>
    { i with certificate := none, x509Certificate := none, x509PrivateKey := none }
  closeOpensslInstance
  callOut .xioDestroy
  Comp.modify fun s => { s.closed with inst := {}, destroyed := true }

/-! ## Options -/

/-- An option that can be set while there is no context only. -/
def setWhileDisconnected (f : TlsIo → TlsIo) : TlsComp Int := do
  let i ← getInst
  if i.sslContext ≠ none then pure failure
  else do
    Comp.modify f
    pure 0

def setTlsVersion (version : Int) : TlsComp Int :=
  setWhileDisconnected fun s => s.setInst { s.inst with
    tlsVersion :=
      if version = 10 then .optionTlsVersion10
      else if version = 11 then .optionTlsVersion11
      else .optionTlsVersion12 }

/-- `int` of a step that succeeds or fails. -/
def resultOf (ok : Bool) : Int :=
  if ok then 0 else failure

def setTrustedCerts (certificate : Bytes) : TlsComp Int := do
  let stored ← ask (.setoption .malloc)
  let stored : Bool := stored
  modifyInst fun i => { i with certificate := if stored then some certificate else none }
  let i ← getInst
  if i.sslContext ≠ none then do
    let added ← ask (.setoption .addCertificateToStore)
    pure (resultOf added)
  else pure (resultOf stored)

/-- A string option that can be set once; `stored` is where it is kept. -/
def setOnce (stored : TlsIoInstance → Option Bytes) (store : TlsIoInstance → TlsIoInstance) :
    TlsComp Int := do
  let i ← getInst
  if (stored i).isSome then pure failure
  else do
    let allocated ← ask (.setoption .malloc)
    if allocated = false then pure failure
    else do
      modifyInst store
      pure 0

def tlsioOpensslSetoption (option : TlsioOption) : TlsComp Int :=
  match option with
  | .trustedCerts certificate => setTrustedCerts certificate
  | .x509Certificate certificate =>
    setOnce TlsIoInstance.x509Certificate fun i => { i with x509Certificate := some certificate }
  | .x509PrivateKey key =>
    setOnce TlsIoInstance.x509PrivateKey fun i => { i with x509PrivateKey := some key }
  | .tlsValidationCallback callback => do
    modifyInst fun i => { i with tlsValidationCallback := callback }
    pure 0
  | .tlsValidationCallbackData data => do
    modifyInst fun i => { i with tlsValidationCallbackData := data }
    pure 0
  | .tlsVersion version => setTlsVersion version
  | .disableCrlCheck value =>
    setWhileDisconnected fun s => s.setInst { s.inst with disableCrlCheck := value }
  | .continueOnCrlDownloadFailure value =>
    setWhileDisconnected fun s =>
      s.setInst { s.inst with continueOnCrlDownloadFailure := value }
  | .sslCrlMaxSizeInKb value =>
    setWhileDisconnected fun s => { s with sslCrlMaxSizeInKb := value }
  | .disableDefaultVerifyPaths value =>
    setWhileDisconnected fun s => s.setInst { s.inst with disableDefaultVerifyPaths := value }
  | .underlyingIoOptions => do
    let fed ← ask (.setoption .optionHandlerFeedOptions)
    pure (resultOf fed)
  | .ignoreHostNameCheck value => do
    modifyInst fun i => { i with ignoreHostNameCheck := value }
    pure 0
  | .other => do
    let set ← ask (.setoption .xioSetoption)
    pure (resultOf set)

def void (c : TlsComp Unit) : TlsComp Int := do
  c
  pure 0

def tlsioOpensslCode (config : TlsioConfig) : Proc → TlsComp Int
  | .tlsioOpensslOpen arguments => tlsioOpensslOpen config arguments
  | .tlsioOpensslClose onIoCloseComplete => tlsioOpensslClose onIoCloseComplete
  | .tlsioOpensslSend buffer onSendComplete => tlsioOpensslSend buffer onSendComplete
  | .tlsioOpensslDowork => void tlsioOpensslDowork
  | .tlsioOpensslSetoption option => tlsioOpensslSetoption option
  | .tlsioOpensslDestroy => void tlsioOpensslDestroy
  | .onUnderlyingIoOpenComplete openResult => void (onUnderlyingIoOpenComplete openResult)
  | .onUnderlyingIoBytesReceived buffer => void (onUnderlyingIoBytesReceived buffer)
  | .onUnderlyingIoError => void onUnderlyingIoError
  | .onUnderlyingIoCloseComplete => void onUnderlyingIoCloseComplete
  | .decodeSslReceivedBytes => decodeSslReceivedBytes

/-- Any function while no call is being served, events of the underlying io during its functions, and
in the callbacks of the user the functions that `inCallback` admits; `on_send_complete` is called by
the underlying io. -/
def runsWith (inCallback : Proc → Bool) : Env TlsIo tlsioOpensslSignature where
  mayEnter top p s :=
    !s.destroyed && p.isExternal &&
    (match top with
    | none => true
    | some c => (c.isXio && p.isIoEvent) || ((c.isXio || c.isCallback) && inCallback p))
  mayAnswer _ _ _ := true

/-- Started in this state, a function uses the objects of the instance only, and calls a callback that
is there. -/
def usesOwnObjects (p : Proc) (s : TlsIo) : Bool :=
  match p with
  | .onUnderlyingIoBytesReceived _ => s.inst.owns s.inst.inBio && s.inst.owns s.inst.outBio
  | .onUnderlyingIoOpenComplete openResult =>
    s.inst.tlsioState != .tlsioStateOpeningUnderlyingIo || openResult.result != .ioOpenOk ||
      s.inst.owns s.inst.outBio
  | .tlsioOpensslDowork => !s.inst.tlsioState.usesSsl || s.inst.owns s.inst.outBio
  | .tlsioOpensslSend _ _ =>
    s.inst.tlsioState != .tlsioStateOpen || s.inst.ssl.isNone || s.inst.owns s.inst.outBio
  | .tlsioOpensslClose _ =>
    !isAnOpeningState s.inst.tlsioState || s.inst.onIoOpenComplete.isSome
  | _ => true

/-! ## Runs for examples -/

/-- Everything succeeds: the handshake with its first step, and what is sent becomes a record. -/
def succeeds : (c : Call) → Ans c
  | .create _ | .setoption _ | .malloc _ => true
  | .bioWrite bytes => (bytes.length : Int)
  | .bioRead _ pending => (pending : Int)
  | .sslDoHandshake _ => { result := .success }
  | .sslRead _ => { result := .error .wantRead }
  | .sslWrite _ bytes => { result := bytes.length, written := bytes.map fun b => (b, true) }
  | .xioOpen => (0 : Int)
  | .xioSend _ _ _ => (0 : Int)
  | .xioClose _ => (0 : Int)
  | .xioDowork | .xioDestroy | .onIoOpenComplete _ _ _ | .onBytesReceived _ _ | .onIoError _
  | .onIoCloseComplete _ _ => ()

def someConfig : TlsioConfig where
  hostname := ascii "h"

def someArguments : OpenArguments :=
  ⟨some 0, some 1, some 2⟩

/-- An open: nine steps for the engine, and `xio_open`. -/
def opening : List (Input tlsioOpensslSignature) :=
  .enter (.tlsioOpensslOpen someArguments) :: List.replicate 10 (.answer succeeds)

/-- An open with its handshake done and reported. -/
def opened : List (Input tlsioOpensslSignature) :=
  opening ++ [.enter (.onUnderlyingIoOpenComplete { result := .ioOpenOk }), .answer succeeds,
    .answer succeeds]

end SharedUtility.TlsIoOpenssl
