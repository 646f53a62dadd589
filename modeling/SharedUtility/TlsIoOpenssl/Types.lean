import SharedUtility.Reentrant.RelyGuarantee
import SharedUtility.Xio

/-!
# Types — the instance of `tlsio_openssl.c` and what lies outside of it

* `TlsIoInstance` — the fields of `TLS_IO_INSTANCE`; `Ssl` is the object that `SSL_new` makes,
* `Call`, `Ans` — OpenSSL, the allocator, the underlying io and the callbacks of the user,
* `Proc` — the functions,
* `TlsIo` — the instance with what an observer has seen of it.

OpenSSL is outside: what it answers may depend on everything that was done with the object before.
-/

namespace SharedUtility.TlsIoOpenssl

open Reentrant

inductive TlsioState
  | tlsioStateNotOpen
  | tlsioStateOpeningUnderlyingIo
  | tlsioStateInHandshake
  | tlsioStateHandshakeFailed
  | tlsioStateOpen
  | tlsioStateClosing
  | tlsioStateError
  deriving DecidableEq, Repr

def isAnOpeningState (state : TlsioState) : Bool :=
  state == .tlsioStateOpeningUnderlyingIo || state == .tlsioStateInHandshake

inductive TlsioVersion
  | optionTlsVersion10
  | optionTlsVersion11
  | optionTlsVersion12
  deriving DecidableEq, Repr

/-- A function pointer together with its context. -/
abbrev Callback := Nat

/-! ## The SSL object -/

/-- What is done with an SSL object. -/
inductive SslOperation
  | bioWrite (bytes : Bytes)
  | sslDoHandshake
  | sslRead
  | sslWrite (bytes : Bytes)
  deriving DecidableEq, Repr

/-- A byte of `out_bio`, with the number of the `tlsio_openssl_send` whose application data it
carries. -/
structure OutgoingByte where
  byte : UInt8
  send : Option Nat := none
  deriving DecidableEq, Repr

/-- An SSL object and its two BIOs: the open that has made it, what has been done with it since, and
what `out_bio` holds. -/
structure Ssl where
  openId : Nat
  history : List SslOperation := []
  outgoing : List OutgoingByte := []
  deriving DecidableEq, Repr

/-- `SSL_get_error` for a result that is no success. -/
inductive SslError
  | wantRead
  | wantWrite
  | other (code : Int)
  deriving DecidableEq, Repr

/-- `ssl_err` is `SSL_ERROR_WANT_READ` or `SSL_ERROR_WANT_WRITE`. -/
def SslError.wantsMore : SslError → Bool
  | .wantRead | .wantWrite => true
  | .other _ => false

inductive HandshakeResult
  | success
  | error (sslError : SslError)
  deriving DecidableEq, Repr

inductive ReadResult
  | received (bytes : Bytes)
  | error (sslError : SslError)
  deriving DecidableEq, Repr

/-- A step of the SSL object: its result, and what it adds to `out_bio`. -/
structure SslStep (Result : Type) where
  result : Result
  written : Bytes := []
  deriving DecidableEq, Repr

/-- The step of `SSL_write`; a byte is marked when it belongs to a record with application data. -/
structure SslWriteStep where
  result : Int
  written : List (UInt8 × Bool) := []
  deriving DecidableEq, Repr

/-! ## The instance -/

/-- `hostname`, which is set by `tlsio_openssl_create` only. -/
structure TlsioConfig where
  hostname : Bytes

def isIpLiteral (hostname : Bytes) : Bool :=
  hostname.contains 0x3A ||
    (hostname.contains 0x2E && hostname.all fun b => (ascii "0123456789.").contains b)

/-- The other fields; `none` is NULL.  A context and the BIOs are named by the open that has made
them, and a pointer stays when the BIO is freed. -/
structure TlsIoInstance where
  onBytesReceived : Option Callback := none
  onIoOpenComplete : Option Callback := none
  onIoCloseComplete : Option Callback := none
  onIoError : Option Callback := none
  ssl : Option Ssl := none
  sslContext : Option Nat := none
  inBio : Option Nat := none
  outBio : Option Nat := none
  tlsioState : TlsioState := .tlsioStateNotOpen
  certificate : Option Bytes := none
  x509Certificate : Option Bytes := none
  x509PrivateKey : Option Bytes := none
  tlsVersion : TlsioVersion := .optionTlsVersion10
  disableCrlCheck : Bool := false
  continueOnCrlDownloadFailure : Bool := false
  disableDefaultVerifyPaths : Bool := false
  tlsValidationCallback : Option Callback := none
  tlsValidationCallbackData : Nat := 0
  ignoreHostNameCheck : Bool := false
  deriving DecidableEq

/-- The BIO belongs to the SSL object. -/
def TlsIoInstance.owns (i : TlsIoInstance) (bio : Option Nat) : Bool :=
  match i.ssl with
  | some ssl => bio == some ssl.openId
  | none => false

/-- What `out_bio` holds. -/
def TlsIoInstance.pending (i : TlsIoInstance) : List OutgoingByte :=
  match i.ssl with
  | some ssl => if i.owns i.outBio then ssl.outgoing else []
  | none => []

/-! ## Calls and procedures -/

/-- The steps of `create_openssl_instance` that can fail. -/
inductive CreateStep
  | sslCtxNew
  | loadSystemStore
  | setupCrlCheck
  | addCertificateToStore
  | x509OpensslAddCredentials
  | bioNewIn
  | bioNewOut
  | bioSetMemEofReturn
  | sslNew
  | sslSetTlsextHostName
  | enableDomainCheck
  deriving DecidableEq, Repr

/-- The steps of `tlsio_openssl_setoption` that can fail. -/
inductive SetoptionStep
  | malloc
  | addCertificateToStore
  | optionHandlerFeedOptions
  | xioSetoption
  deriving DecidableEq, Repr

/-- Which call of `write_outgoing_bytes` is made; that of a send comes with its callback. -/
inductive WritePurpose
  | handshake
  | dowork
  | send (sendId openId : Nat) (onSendComplete : Option Callback)
  deriving DecidableEq, Repr

/-- Where `on_io_open_complete` is called. -/
inductive ReportSite
  | handshakeDone
  | ioCloseComplete
  | ioOpenComplete
  | ioError
  | closeCalled
  | handshakeFailed
  deriving DecidableEq, Repr

/-- Which `xio_close` is made. -/
inductive ClosePurpose
  | graceful
  | forced
  deriving DecidableEq, Repr

inductive Call
  | create (step : CreateStep)
  | setoption (step : SetoptionStep)
  | malloc (purpose : WritePurpose)
  | bioWrite (bytes : Bytes)
  | bioRead (purpose : WritePurpose) (pending : Nat)
  | sslDoHandshake (history : List SslOperation)
  | sslRead (history : List SslOperation)
  | sslWrite (history : List SslOperation) (bytes : Bytes)
  | xioOpen
  | xioSend (number : Nat) (purpose : WritePurpose) (bytes : List OutgoingByte)
  | xioClose (purpose : ClosePurpose)
  | xioDowork
  | xioDestroy
  | onIoOpenComplete (cb : Callback) (result : IoOpenResultDetailed) (site : ReportSite)
  | onBytesReceived (cb : Callback) (bytes : Bytes)
  | onIoError (cb : Callback)
  | onIoCloseComplete (closeId : Nat) (cb : Callback)
  deriving DecidableEq

/-- Whether a step or an allocation succeeds, how many bytes a BIO takes or gives, what the SSL object
does, the `int` of an `xio` function. -/
abbrev Ans : Call → Type
  | .create _ => Bool
  | .setoption _ => Bool
  | .malloc _ => Bool
  | .bioWrite _ => Int
  | .bioRead _ _ => Int
  | .sslDoHandshake _ => SslStep HandshakeResult
  | .sslRead _ => SslStep ReadResult
  | .sslWrite _ _ => SslWriteStep
  | .xioOpen => Int
  | .xioSend _ _ _ => Int
  | .xioClose _ => Int
  | _ => Unit

/-- Calls of the underlying io during which it may call back. -/
def Call.isXio : Call → Bool
  | .xioOpen | .xioSend _ _ _ | .xioClose _ | .xioDowork => true
  | _ => false

def Call.isCallback : Call → Bool
  | .onIoOpenComplete _ _ _ | .onBytesReceived _ _ | .onIoError _ | .onIoCloseComplete _ _ => true
  | _ => false

/-- The arguments of `tlsio_openssl_open`; `none` is a NULL function pointer. -/
structure OpenArguments where
  onIoOpenComplete : Option Callback
  onBytesReceived : Option Callback
  onIoError : Option Callback
  deriving DecidableEq

/-- The options of `tlsio_openssl_setoption` with their values. -/
inductive TlsioOption
  | trustedCerts (certificate : Bytes)
  | x509Certificate (certificate : Bytes)
  | x509PrivateKey (key : Bytes)
  | tlsValidationCallback (callback : Option Callback)
  | tlsValidationCallbackData (data : Nat)
  | tlsVersion (version : Int)
  | disableCrlCheck (value : Bool)
  | continueOnCrlDownloadFailure (value : Bool)
  | sslCrlMaxSizeInKb (value : Int)
  | disableDefaultVerifyPaths (value : Bool)
  | underlyingIoOptions
  | ignoreHostNameCheck (value : Bool)
  | other
  deriving DecidableEq

inductive Proc
  | tlsioOpensslOpen (arguments : OpenArguments)
  | tlsioOpensslClose (onIoCloseComplete : Option Callback)
  | tlsioOpensslSend (buffer : Bytes) (onSendComplete : Option Callback)
  | tlsioOpensslDowork
  | tlsioOpensslSetoption (option : TlsioOption)
  | tlsioOpensslDestroy
  | onUnderlyingIoOpenComplete (openResult : IoOpenResultDetailed)
  | onUnderlyingIoBytesReceived (buffer : Bytes)
  | onUnderlyingIoError
  | onUnderlyingIoCloseComplete
  | decodeSslReceivedBytes
  deriving DecidableEq

/-- The callbacks handed to the underlying io. -/
def Proc.isIoEvent : Proc → Bool
  | .onUnderlyingIoOpenComplete _ | .onUnderlyingIoBytesReceived _ | .onUnderlyingIoError
  | .onUnderlyingIoCloseComplete => true
  | _ => false

/-- The functions that others can call. -/
def Proc.isExternal : Proc → Bool
  | .decodeSslReceivedBytes => false
  | _ => true

abbrev tlsioOpensslSignature : Signature where
  Call := Call
  Ans := Ans
  Proc := Proc

/-! ## The observed instance -/

/-- What must not happen to the objects of the instance. -/
inductive Fault
  | bioNotOwned
  | sslNull
  | overwritten
  | callbackNull
  deriving DecidableEq, Repr

/-- Opens, closes and sends are numbered by their calls.  A call out and a failure belong to the open
whose callbacks the instance holds, what the SSL object writes to the open that has made it. -/
inductive Event
  | call (openId : Nat) (c : Call)
  | openReturned (openId : Nat) (result : Int)
  | closeReturned (closeId : Nat) (cancelled : Option Nat) (onIoCloseComplete : Option Callback)
      (result : Int)
  | sendReturned (sendId openId : Nat) (result : Int)
  | written (openId : Nat) (bytes : List OutgoingByte)
  | failed (openId : Nat)
  | fault (f : Fault)
  deriving DecidableEq

/-- Bytes given to `xio_send`, and what it has returned. -/
structure Handover where
  openId : Nat
  purpose : WritePurpose
  bytes : List OutgoingByte
  result : Option Int := none
  deriving DecidableEq

/-- The instance and its observer.

* `attemptOver` — the io, the SSL object or the user has ended the attempt of the current open,
* `ioClosing` — the io has taken a close and not completed it,
* `ioOpen` — `xio_open` has been called, and the io is not closed since,
* `givenUp` — an attempt has been reported as failed, and the io is not closed since,
* `awaitsClose` — the io has reported an error of an open connection, and `tlsio_openssl_close` has not
  been called since,
* `openDepth`, `doworkDepth`, `closeCompleteDepth` — the calls of `xio_open`, `xio_dowork` and
  `on_underlying_io_close_complete` that have not returned.

The io is closed when a forced `xio_close` returns, when a graceful one fails or is completed, and when
`xio_open` fails. -/
structure TlsIo where
  inst : TlsIoInstance := {}
  sslCrlMaxSizeInKb : Int := 10 * 1024
  openCalls : Nat := 0
  closeCalls : Nat := 0
  sendCalls : Nat := 0
  currentOpen : Nat := 0
  currentClose : Nat := 0
  attemptOver : Bool := false
  ioClosing : Bool := false
  ioOpen : Bool := false
  givenUp : Bool := false
  awaitsClose : Bool := false
  openDepth : Nat := 0
  doworkDepth : Nat := 0
  closeCompleteDepth : Nat := 0
  destroyed : Bool := false
  handed : List Handover := []
  log : List Event := []
  deriving DecidableEq

namespace TlsIo

def record (s : TlsIo) (ev : Event) : TlsIo :=
  { s with log := s.log ++ [ev] }

def setInst (s : TlsIo) (i : TlsIoInstance) : TlsIo :=
  { s with inst := i }

def setState (s : TlsIo) (state : TlsioState) : TlsIo :=
  s.setInst { s.inst with tlsioState := state }

def endAttempt (s : TlsIo) : TlsIo :=
  { s with attemptOver := true }

def closed (s : TlsIo) : TlsIo :=
  { s with ioOpen := false, givenUp := false }

/-- The attempt is to be reported as failed; without one there is nothing to give up. -/
def giveUp (s : TlsIo) : TlsIo :=
  { s with givenUp := s.givenUp || s.inst.tlsioState != .tlsioStateNotOpen }

/-- A BIO is used. -/
def useBio (s : TlsIo) (bio : Option Nat) : TlsIo :=
  if s.inst.owns bio then s else s.record (.fault .bioNotOwned)

/-- The SSL object takes a step. -/
def stepSsl (s : TlsIo) (operation : SslOperation) (written : List OutgoingByte) : TlsIo :=
  match s.inst.ssl with
  | none => s
  | some ssl =>
    (s.setInst { s.inst with
      ssl := some { ssl with
        history := ssl.history ++ [operation]
        outgoing := ssl.outgoing ++ written } }).record (.written ssl.openId written)

/-- `BIO_read` takes bytes out of `out_bio`. -/
def takeOutgoing (s : TlsIo) (count : Nat) : TlsIo :=
  match s.inst.ssl with
  | none => s
  | some ssl =>
    s.setInst { s.inst with ssl := some { ssl with outgoing := ssl.outgoing.drop count } }

def closeOpensslInstance (s : TlsIo) : TlsIo :=
  s.setInst { s.inst with ssl := none, sslContext := none }

end TlsIo

abbrev TlsComp := Comp TlsIo tlsioOpensslSignature

end SharedUtility.TlsIoOpenssl
