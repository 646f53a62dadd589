import SharedUtility.SocketIo.Code

/-!
# Code — the functions of `socketio_win32.c`

The instance, its list items and its callbacks are those of `SocketIo.Code`; there is no `IO_STATE_ERROR` here.
What differs is the socket: whatever `send` returns other than the size of the message is looked at no further,
only at what `WSAGetLastError` says then.

* `Sent`, `Ans`     — what the socket answers,
* `ObservedWin32`   — the instance with what an observer counts: the messages of the latest connection, the bytes
  that `send` has taken on it, and the calls of `on_send_complete`,
* `win32Code`       — the functions.

The number of a message is the number of messages accepted before it.
-/

namespace SharedUtility.SocketIoWin32

open Reentrant SocketIo

/-- What `send` returns, `none` for `SOCKET_ERROR`, and whether `WSAGetLastError` is `WSAEWOULDBLOCK` after it;
where `send` has not failed, that is what some call before it has left behind. -/
structure Sent where
  taken : Option Nat
  wouldBlock : Bool
  deriving DecidableEq, Repr

abbrev Ans {Cb : Type} : Call Cb → Type
  | .malloc => Bool
  | .connect => Except Int Nat
  | .send _ _ => Sent
  | .recv _ => RecvResult
  | _ => Unit

abbrev win32Signature (Cb : Type) : Signature where
  Call := Call Cb
  Ans := Ans
  Proc := Proc Cb

/-! ## The observed instance -/

/-- `messages` are those accepted since the latest successful `socketio_open`, in call order, and `taken` the
bytes that `send` has taken since then. `accepted` counts the messages of all connections; `owed` are the numbers
of those that came with a callback, `completed` those whose callback has been called. `headSent` says that
`socketio_dowork` is calling the callback of the first list item, `working` how many calls of it are under way. -/
structure ObservedWin32 (Cb : Type) where
  inst : SocketIoInstance Cb
  messages : List Bytes := []
  taken : Bytes := []
  accepted : Nat := 0
  owed : List Nat := []
  completed : List Nat := []
  headSent : Bool := false
  working : Nat := 0
  freedTwice : Bool := false
  destroyed : Bool := false
  deriving DecidableEq

namespace ObservedWin32

variable {Cb : Type}

def setInst (s : ObservedWin32 Cb) (inst : SocketIoInstance Cb) : ObservedWin32 Cb :=
  { s with inst }

def setList (s : ObservedWin32 Cb) (pendingIoList : List (PendingSocketIo Cb)) : ObservedWin32 Cb :=
  s.setInst { s.inst with pendingIoList }

def beginConnection (s : ObservedWin32 Cb) (inst : SocketIoInstance Cb) : ObservedWin32 Cb :=
  { s with inst, messages := [], taken := [] }

def take (s : ObservedWin32 Cb) (bytes : Bytes) : ObservedWin32 Cb :=
  { s with taken := s.taken ++ bytes }

/-- From here on `socketio_send` is sure to return 0. -/
def accept (s : ObservedWin32 Cb) (buffer : Bytes) (onSendComplete : Option Cb) : ObservedWin32 Cb :=
  { s with
    messages := s.messages ++ [buffer]
    accepted := s.accepted + 1
    owed := if onSendComplete.isSome then s.owed ++ [s.accepted] else s.owed }

/-- The message is accepted and on the list. -/
def queue (s : ObservedWin32 Cb) (buffer : Bytes) (onSendComplete : Option Cb) : ObservedWin32 Cb :=
  (s.accept buffer onSendComplete).setList
    (s.inst.pendingIoList ++ [{ item := s.accepted, bytes := buffer, onSendComplete }])

/-- The callback of a message is called. -/
def complete (s : ObservedWin32 Cb) (item : Nat) : ObservedWin32 Cb :=
  { s with completed := s.completed ++ [item] }

end ObservedWin32

abbrev Win32Comp (Cb : Type) := Comp (ObservedWin32 Cb) (win32Signature Cb)

section

variable {Cb : Type}

def ask (c : Call Cb) : Win32Comp Cb (Ans c) :=
  @Comp.call (ObservedWin32 Cb) (win32Signature Cb) c

def callProc (p : Proc Cb) : Win32Comp Cb Int :=
  @Comp.proc (ObservedWin32 Cb) (win32Signature Cb) p

def getInst : Win32Comp Cb (SocketIoInstance Cb) := do
  let s ← Comp.get
  pure s.inst

def modifyInst (f : SocketIoInstance Cb → SocketIoInstance Cb) : Win32Comp Cb Unit :=
  Comp.modify fun s => s.setInst (f s.inst)

/-- Call through a function pointer, unless it is NULL. -/
def callBack (slot : Option Cb) (c : Cb → Call Cb) : Win32Comp Cb Unit :=
  match slot with
  | some cb => do
    let _ ← ask (c cb)
    pure ()
  | none => pure ()

/-- `send`, with the bytes it takes observed. -/
def send (socket : Option Nat) (bytes : Bytes) : Win32Comp Cb Sent := do
  let r : Sent ← ask (.send socket bytes)
  Comp.modify fun s => s.take (bytes.take (r.taken.getD 0))
  pure r

def indicateError : Win32Comp Cb Unit := do
  let i ← getInst
  callBack i.onIoError .onIoError

/-- Call the `on_send_complete` of a message, unless it is NULL. -/
def sendComplete (item : Nat) (onSendComplete : Option Cb) : Win32Comp Cb Unit :=
  match onSendComplete with
  | some cb => do
    Comp.modify fun s => s.complete item
    let _ ← ask (.onSendComplete cb .ioSendOk)
    pure ()
  | none => pure ()

/-- `add_pending_io`: the structure, its bytes and the list item are allocated. -/
def addPendingIo (buffer : Bytes) (onSendComplete : Option Cb) : Win32Comp Cb Int := do
  let pendingAllocated : Bool ← ask .malloc
  if pendingAllocated = false then pure failure
  else do
    let bytesAllocated : Bool ← ask .malloc
    if bytesAllocated = false then pure failure
    else do
      let itemAllocated : Bool ← ask .malloc
      if itemAllocated = false then pure failure
      else do
        Comp.modify fun s => s.queue buffer onSendComplete
        pure 0

/-- `socketio_open`; `connect` looks the host up and tries its addresses, and fails where there is no name. -/
def socketioOpen (onIoOpenComplete onBytesReceived onIoError : Option Cb) : Win32Comp Cb Int := do
  let opened (i : SocketIoInstance Cb) (socket : Option Nat) : SocketIoInstance Cb :=
    { i with
      socket := socket, onBytesReceived := onBytesReceived, onIoError := onIoError,
      ioState := .ioStateOpen }
  let complete (result : IoOpenResult) (code : Int) : Win32Comp Cb Int :=
    match onIoOpenComplete with
    | some cb => do
      let _ ← ask (.onIoOpenComplete cb result code)
      pure 0
    | none => pure (if result = .ioOpenOk then 0 else failure)
  let i ← getInst
  if i.ioState ≠ .ioStateClosed then complete .ioOpenError failure
  else if i.socket ≠ none then do
    -- Opening an accepted socket.
    Comp.modify fun s => s.beginConnection (opened s.inst s.inst.socket)
    complete .ioOpenOk 0
  else do
    let r : Except Int Nat ← ask .connect
    match r with
    | .ok socket => do
      Comp.modify fun s => s.beginConnection (opened s.inst (some socket))
      complete .ioOpenOk 0
    | .error code => complete .ioOpenError code

/-- `socketio_close`; the list is left alone. -/
def socketioClose (onIoCloseComplete : Option Cb) : Win32Comp Cb Int := do
  let i ← getInst
  if i.ioState ≠ .ioStateClosing ∧ i.ioState ≠ .ioStateClosed then do
    let _ ← ask (.close i.socket)
    modifyInst fun i => { i with socket := none, ioState := .ioStateClosed }
  else pure ()
  callBack onIoCloseComplete .onIoCloseComplete
  pure 0

def socketioSend (buffer : Option Bytes) (onSendComplete : Option Cb) : Win32Comp Cb Int := do
  match buffer with
  | none | some [] => pure failure
  | some (b :: bs) => do
    let i ← getInst
    if i.ioState ≠ .ioStateOpen then pure failure
    else if i.pendingIoList ≠ [] then addPendingIo (b :: bs) onSendComplete
    else do
      let sendResult ← send i.socket (b :: bs)
      if sendResult.taken ≠ some (b :: bs).length then
        -- The whole message is queued, also when a part of it has been taken.
        if sendResult.wouldBlock = false then pure failure
        else addPendingIo (b :: bs) onSendComplete
      else do
        let s ← Comp.get
        Comp.modify fun s => s.accept (b :: bs) onSendComplete
        sendComplete s.accepted onSendComplete
        pure 0

/-- Free a list item and take it off the list; an item that is not on it was freed before. -/
def removePendingIo (item : Nat) : Win32Comp Cb Bool := do
  let i ← getInst
  if i.pendingIoList.all (·.item != item) then do
    Comp.modify fun s => { s with freedTwice := true }
    pure false
  else do
    modifyInst fun i => { i with pendingIoList := i.pendingIoList.filter (·.item != item) }
    pure true

/-- The loop `while (first_pending_io != NULL)` of `socketio_dowork`. -/
def sendPending : Win32Comp Cb Int := do
  let i ← getInst
  match i.pendingIoList with
  | [] => pure 0
  | pendingSocketIo :: _ => do
    let sendResult ← send i.socket pendingSocketIo.bytes
    if sendResult.taken ≠ some pendingSocketIo.bytes.length then
      if sendResult.wouldBlock = false then do
        -- The item is dropped, and the loop goes on with the one behind it.
        let _ ← removePendingIo pendingSocketIo.item
        callProc .sendPending
      else callProc .sendPending
    else do
      Comp.modify fun s => { s with headSent := true }
      sendComplete pendingSocketIo.item pendingSocketIo.onSendComplete
      Comp.modify fun s => { s with headSent := false }
      let removed ← removePendingIo pendingSocketIo.item
      if removed = false then indicateError else pure ()
      callProc .sendPending

/-- The loop `do … while` of `socketio_dowork`. -/
def receiveBytes : Win32Comp Cb Int := do
  let i ← getInst
  let received : RecvResult ← ask (.recv i.socket)
  match received with
  | .received bytes => do
    callBack i.onBytesReceived fun cb => .onBytesReceived cb bytes
    let i ← getInst
    if i.ioState = .ioStateOpen then callProc .receiveBytes else pure 0
  | .again => pure 0
  | .closed | .error => do
    indicateError
    pure 0

def socketioDowork : Win32Comp Cb Int := do
  Comp.modify fun s => { s with working := s.working + 1 }
  let i ← getInst
  if i.ioState = .ioStateOpen then do
    let _ ← callProc .sendPending
    let i ← getInst
    if i.ioState = .ioStateOpen then do
      let _ ← callProc .receiveBytes
      pure ()
    else pure ()
  else pure ()
  Comp.modify fun s => { s with working := s.working - 1 }
  pure 0

/-- `socketio_destroy`: the items left on the list are freed. -/
def socketioDestroy : Win32Comp Cb Int := do
  let i ← getInst
  let _ ← ask (.close i.socket)
  modifyInst fun i => { i with pendingIoList := [] }
  Comp.modify fun s => { s with destroyed := true }
  pure 0

def win32Code : Proc Cb → Win32Comp Cb Int
  | .socketioOpen onIoOpenComplete onBytesReceived onIoError =>
    socketioOpen onIoOpenComplete onBytesReceived onIoError
  | .socketioClose onIoCloseComplete => socketioClose onIoCloseComplete
  | .socketioSend buffer onSendComplete => socketioSend buffer onSendComplete
  | .socketioDowork => socketioDowork
  | .socketioDestroy => socketioDestroy
  | .sendPending => sendPending
  | .receiveBytes => receiveBytes

end

end SharedUtility.SocketIoWin32
