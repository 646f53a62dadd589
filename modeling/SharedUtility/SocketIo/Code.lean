import SharedUtility.Reentrant.Machine
import SharedUtility.Xio

/-!
# Code — the instance and the functions of `socketio_berkeley.c`

* `SocketIoInstance` — the fields of `SOCKET_IO_INSTANCE` that its open, send, receive and close use,
* `Call`, `Ans` — the calls of the socket, of the allocator and of the callbacks,
* `ObservedSocket` — the instance with what an observer counts: the messages of the latest connection and
  the bytes that `send` has taken on it.

A callback with its context is a value of a type `Cb`.  The name of a list item is the number of the
`socketio_send` call that added it.
-/

namespace SharedUtility.SocketIo

open Reentrant

inductive IoState
  | ioStateClosed
  | ioStateOpening
  | ioStateOpen
  | ioStateClosing
  | ioStateError
  deriving DecidableEq, Repr

/-- `PENDING_SOCKET_IO` with its list item; `bytes` comes with its size. -/
structure PendingSocketIo (Cb : Type) where
  item : Nat
  bytes : Bytes
  onSendComplete : Option Cb
  deriving DecidableEq

theorem item_ne_first {Cb : Type} {io : PendingSocketIo Cb} {rest : List (PendingSocketIo Cb)}
    (hdistinct : ((io :: rest).map PendingSocketIo.item).Nodup) : ∀ io' ∈ rest, io'.item ≠ io.item := by
  rw [List.map_cons, List.nodup_cons] at hdistinct
  intro io' hio' heq
  exact hdistinct.1 (heq ▸ List.mem_map_of_mem hio')

theorem filter_first {Cb : Type} {io : PendingSocketIo Cb} {rest : List (PendingSocketIo Cb)}
    (hrest : ∀ io' ∈ rest, io'.item ≠ io.item) : (io :: rest).filter (·.item != io.item) = rest := by
  rw [List.filter_cons_of_neg (by simp), List.filter_eq_self]
  intro io' hio'
  exact bne_iff_ne.2 (hrest io' hio')

/-- `SOCKET_IO_INSTANCE`; `socket = none` is `INVALID_SOCKET`. -/
structure SocketIoInstance (Cb : Type) where
  socket : Option Nat
  onBytesReceived : Option Cb := none
  onIoError : Option Cb := none
  ioState : IoState := .ioStateClosed
  pendingIoList : List (PendingSocketIo Cb) := []
  deriving DecidableEq

/-- What `send` returns: how many bytes it took, or `INVALID_SOCKET` with `errno`. -/
inductive SendResult
  | taken (n : Nat)
  | again
  | error
  deriving DecidableEq, Repr

/-- What `recv` returns: bytes, 0 when the peer has closed, or -1 with `errno`. -/
inductive RecvResult
  | received (bytes : Bytes)
  | closed
  | again
  | error
  deriving DecidableEq, Repr

/-! ## Calls out -/

inductive Call (Cb : Type)
  | malloc
  | connect
  | shutdown (socket : Option Nat)
  | close (socket : Option Nat)
  | send (socket : Option Nat) (bytes : Bytes)
  | recv (socket : Option Nat)
  | onIoOpenComplete (cb : Cb) (result : IoOpenResult) (code : Int)
  | onIoCloseComplete (cb : Cb)
  | onSendComplete (cb : Cb) (result : IoSendResult)
  | onBytesReceived (cb : Cb) (bytes : Bytes)
  | onIoError (cb : Cb)
  deriving DecidableEq

/-- `connect` looks the host up and tries its addresses: a connected socket, or an error code. -/
abbrev Ans {Cb : Type} : Call Cb → Type
  | .malloc => Bool
  | .connect => Except Int Nat
  | .send _ _ => SendResult
  | .recv _ => RecvResult
  | _ => Unit

/-- Calls of the callbacks that were given to the instance. -/
def Call.isCallback {Cb : Type} : Call Cb → Bool
  | .onIoOpenComplete _ _ _ | .onIoCloseComplete _ | .onSendComplete _ _
  | .onBytesReceived _ _ | .onIoError _ => true
  | _ => false

/-! ## Procedures -/

/-- The functions of the interface, and the two loops of `socketio_dowork`. -/
inductive Proc (Cb : Type)
  | socketioOpen (onIoOpenComplete onBytesReceived onIoError : Option Cb)
  | socketioClose (onIoCloseComplete : Option Cb)
  | socketioSend (buffer : Option Bytes) (onSendComplete : Option Cb)
  | socketioDowork
  | socketioDestroy
  | sendPending
  | receiveBytes
  deriving DecidableEq

abbrev socketIoSignature (Cb : Type) : Signature where
  Call := Call Cb
  Ans := Ans
  Proc := Proc Cb

/-! ## The observed instance -/

/-- `messages` are the arguments of the `socketio_send` calls since the latest successful
`socketio_open`, in call order and without those that returned non-zero; `taken` are the bytes that
`send` has taken since then.  `headSent` says that `socketio_dowork` is calling the `on_send_complete`
of the first list item, and `freedTwice` that an item was freed while this was so. -/
structure ObservedSocket (Cb : Type) where
  inst : SocketIoInstance Cb
  sendCalls : Nat := 0
  messages : List (Nat × Bytes) := []
  taken : Bytes := []
  headSent : Bool := false
  freedTwice : Bool := false
  destroyed : Bool := false
  deriving DecidableEq

namespace ObservedSocket

variable {Cb : Type}

def setInst (s : ObservedSocket Cb) (inst : SocketIoInstance Cb) : ObservedSocket Cb :=
  { s with inst := inst }

def beginConnection (s : ObservedSocket Cb) (inst : SocketIoInstance Cb) : ObservedSocket Cb :=
  { s with inst := inst, messages := [], taken := [] }

/-- A call of `socketio_send` is numbered and counted. -/
def beginSend (s : ObservedSocket Cb) (buffer : Bytes) : ObservedSocket Cb :=
  { s with
    sendCalls := s.sendCalls + 1
    messages := s.messages ++ [(s.sendCalls, buffer)] }

/-- A call of `socketio_send` that returned non-zero does not count. -/
def dropMessage (s : ObservedSocket Cb) (sendId : Nat) : ObservedSocket Cb :=
  { s with messages := s.messages.filter (·.1 != sendId) }

def take (s : ObservedSocket Cb) (bytes : Bytes) : ObservedSocket Cb :=
  { s with taken := s.taken ++ bytes }

def messageBytes (s : ObservedSocket Cb) : Bytes :=
  (s.messages.map Prod.snd).flatten

/-- The list items whose bytes `send` has not taken yet. -/
def unsent (s : ObservedSocket Cb) : List (PendingSocketIo Cb) :=
  if s.headSent then s.inst.pendingIoList.tail else s.inst.pendingIoList

def unsentBytes (s : ObservedSocket Cb) : Bytes :=
  (s.unsent.map PendingSocketIo.bytes).flatten

end ObservedSocket

abbrev SocketIoComp (Cb : Type) := Comp (ObservedSocket Cb) (socketIoSignature Cb)

section

variable {Cb : Type}

def ask (c : Call Cb) : SocketIoComp Cb (Ans c) :=
  @Comp.call (ObservedSocket Cb) (socketIoSignature Cb) c

def callProc (p : Proc Cb) : SocketIoComp Cb Int :=
  @Comp.proc (ObservedSocket Cb) (socketIoSignature Cb) p

def getInst : SocketIoComp Cb (SocketIoInstance Cb) := do
  let s ← Comp.get
  pure s.inst

def modifyInst (f : SocketIoInstance Cb → SocketIoInstance Cb) : SocketIoComp Cb Unit :=
  Comp.modify fun s => s.setInst (f s.inst)

/-- Call through a function pointer, unless it is NULL. -/
def callBack (slot : Option Cb) (c : Cb → Call Cb) : SocketIoComp Cb Unit :=
  match slot with
  | some cb => do
    let _ ← ask (c cb)
    pure ()
  | none => pure ()

/-- `send`, with the bytes it takes observed. -/
def send (socket : Option Nat) (bytes : Bytes) : SocketIoComp Cb SendResult := do
  let r : SendResult ← ask (.send socket bytes)
  match r with
  | .taken n => do
    Comp.modify fun s => s.take (bytes.take n)
    pure (.taken n)
  | r => pure r

def indicateError : SocketIoComp Cb Unit := do
  let i ← getInst
  callBack i.onIoError .onIoError

/-- `add_pending_io`: the structure, its bytes and the list item are allocated. -/
def addPendingIo (item : Nat) (buffer : Bytes) (onSendComplete : Option Cb) :
    SocketIoComp Cb Int := do
  let pendingAllocated ← ask .malloc
  if pendingAllocated = false then pure failure
  else do
    let bytesAllocated ← ask .malloc
    if bytesAllocated = false then pure failure
    else do
      let itemAllocated ← ask .malloc
      if itemAllocated = false then pure failure
      else do
        modifyInst fun i =>
          { i with
            pendingIoList :=
              i.pendingIoList ++
                [{ item := item, bytes := buffer, onSendComplete := onSendComplete }] }
        pure 0

def socketioOpen (onIoOpenComplete onBytesReceived onIoError : Option Cb) :
    SocketIoComp Cb Int := do
  let opened (i : SocketIoInstance Cb) (socket : Option Nat) : SocketIoInstance Cb :=
    { i with
      socket := socket, onBytesReceived := onBytesReceived, onIoError := onIoError,
      ioState := .ioStateOpen }
  let complete (result : IoOpenResult) (code : Int) : SocketIoComp Cb Int :=
    match onIoOpenComplete with
    | some cb => do
      let _ ← ask (.onIoOpenComplete cb result code)
      pure 0
    | none => pure (if result = .ioOpenOk then 0 else failure)
  let i ← getInst
  if i.ioState ≠ .ioStateClosed then complete .ioOpenError failure
  else if i.socket ≠ none then do
    -- Opening an accepted socket.
    Comp.modify fun s => s.beginConnection (opened s.inst s.inst.socket)
    complete .ioOpenOk 0
  else do
    let r : Except Int Nat ← ask .connect
    match r with
    | .ok socket => do
      Comp.modify fun s => s.beginConnection (opened s.inst (some socket))
      complete .ioOpenOk 0
    | .error code => do
      modifyInst fun i => { i with socket := none }
      complete .ioOpenError code

def socketioClose (onIoCloseComplete : Option Cb) : SocketIoComp Cb Int := do
  let i ← getInst
  if i.ioState ≠ .ioStateClosed ∧ i.ioState ≠ .ioStateClosing then do
    let _ ← ask (.shutdown i.socket)
    let _ ← ask (.close i.socket)
    modifyInst fun i => { i with socket := none, ioState := .ioStateClosed }
  else pure ()
  callBack onIoCloseComplete .onIoCloseComplete
  pure 0

def socketioSend (sendId : Nat) (buffer : Option Bytes) (onSendComplete : Option Cb) :
    SocketIoComp Cb Int := do
  match buffer with
  | none | some [] => pure failure
  | some (b :: bs) => do
    let i ← getInst
    if i.ioState ≠ .ioStateOpen then pure failure
    else if i.pendingIoList ≠ [] then addPendingIo sendId (b :: bs) onSendComplete
    else do
      let sendResult : SendResult ← send i.socket (b :: bs)
      match sendResult with
      | .error => pure failure
      | .again => addPendingIo sendId (b :: bs) onSendComplete
      | .taken n =>
        if n ≠ (b :: bs).length then addPendingIo sendId ((b :: bs).drop n) onSendComplete
        else do
          callBack onSendComplete fun cb => .onSendComplete cb .ioSendOk
          pure 0

/-- Free a list item and take it off the list; an item that is not on it was freed before. -/
def removePendingIo (item : Nat) : SocketIoComp Cb Bool := do
  let i ← getInst
  if i.pendingIoList.all (·.item != item) then do
    Comp.modify fun s => { s with freedTwice := true }
    pure false
  else do
    modifyInst fun i => { i with pendingIoList := i.pendingIoList.filter (·.item != item) }
    pure true

/-- The loop `while (first_pending_io != NULL)` of `socketio_dowork`. -/
def sendPending : SocketIoComp Cb Int := do
  let i ← getInst
  match i.pendingIoList with
  | [] => pure 0
  | pendingSocketIo :: _ => do
    let sendResult : SendResult ← send i.socket pendingSocketIo.bytes
    match sendResult with
    | .again => pure 0
    | .error => do
      -- The item is dropped, and the loop goes on with the one behind it.
      let _ ← removePendingIo pendingSocketIo.item
      modifyInst fun i => { i with ioState := .ioStateError }
      indicateError
      callProc .sendPending
    | .taken n =>
      if n ≠ pendingSocketIo.bytes.length then do
        modifyInst fun i =>
          { i with
            pendingIoList := i.pendingIoList.modifyHead fun io =>
              { io with bytes := io.bytes.drop n } }
        pure 0
      else do
        Comp.modify fun s => { s with headSent := true }
        callBack pendingSocketIo.onSendComplete fun cb => .onSendComplete cb .ioSendOk
        Comp.modify fun s => { s with headSent := false }
        let removed ← removePendingIo pendingSocketIo.item
        if removed = false then do
          modifyInst fun i => { i with ioState := .ioStateError }
          indicateError
        else pure ()
        callProc .sendPending

/-- The loop `do … while` of `socketio_dowork`. -/
def receiveBytes : SocketIoComp Cb Int := do
  let i ← getInst
  let received : RecvResult ← ask (.recv i.socket)
  match received with
  | .received bytes => do
    callBack i.onBytesReceived fun cb => .onBytesReceived cb bytes
    let i ← getInst
    if i.ioState = .ioStateOpen then callProc .receiveBytes else pure 0
  | .again => pure 0
  | .closed | .error => do
    indicateError
    pure 0

def socketioDowork : SocketIoComp Cb Int := do
  let _ ← callProc .sendPending
  let i ← getInst
  if i.ioState = .ioStateOpen then callProc .receiveBytes else pure 0

/-- `socketio_destroy`: the items left on the list are freed. -/
def socketioDestroy : SocketIoComp Cb Int := do
  let i ← getInst
  if i.socket ≠ none then do
    let _ ← ask (.close i.socket)
    pure ()
  else pure ()
  modifyInst fun i => { i with pendingIoList := [] }
  Comp.modify fun s => { s with destroyed := true }
  pure 0

/-- A call of `socketio_send`, with its message observed. -/
def socketioSendProc (buffer : Option Bytes) (onSendComplete : Option Cb) :
    SocketIoComp Cb Int := do
  let s ← Comp.get
  Comp.modify fun s => s.beginSend (buffer.getD [])
  let r ← socketioSend s.sendCalls buffer onSendComplete
  if r ≠ 0 then do
    Comp.modify fun s' => s'.dropMessage s.sendCalls
    pure r
  else pure r

def socketioCode : Proc Cb → SocketIoComp Cb Int
  | .socketioOpen onIoOpenComplete onBytesReceived onIoError =>
    socketioOpen onIoOpenComplete onBytesReceived onIoError
  | .socketioClose onIoCloseComplete => socketioClose onIoCloseComplete
  | .socketioSend buffer onSendComplete => socketioSendProc buffer onSendComplete
  | .socketioDowork => socketioDowork
  | .socketioDestroy => socketioDestroy
  | .sendPending => sendPending
  | .receiveBytes => receiveBytes

end

end SharedUtility.SocketIo
