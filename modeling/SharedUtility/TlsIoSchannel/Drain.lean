import Mathlib.Order.OrderIsoNat
import SharedUtility.Bytes

/-!
# Drain — the loop that decodes what `tlsio_schannel.c` has received

* `TlsIoInstance`, `Turn` — the fields that the loop reads, and what schannel, the allocator, the underlying io
  and the user's callbacks answer in one iteration,
* `receiveChunk`, `drainTurn` — `on_underlying_io_bytes_received` up to its loop, and one iteration,
* `drainRun`              — the instance at each iteration, as long as the loop goes on,
* `Progress`              — input is consumed, more bytes are needed, or the state is not one that is decoded,
* `drain_progress_iff`    — an iteration makes progress unless the renegotiation that it starts fails,
* `drain_ends_iff`        — the loop ends unless from some iteration on every one is such.
-/

namespace SharedUtility.TlsIoSchannel

/-! ## The instance -/

inductive TlsioState
  | tlsioStateNotOpen
  | tlsioStateOpeningUnderlyingIo
  | tlsioStateHandshakeClientHelloSent
  | tlsioStateHandshakeServerHelloReceived
  | tlsioStateRenegotiate
  | tlsioStateOpen
  | tlsioStateClosing
  | tlsioStateError
  deriving DecidableEq, Repr

/-- The states in which the loop looks at the received bytes. -/
def TlsioState.decodes : TlsioState → Bool
  | .tlsioStateHandshakeClientHelloSent | .tlsioStateRenegotiate | .tlsioStateOpen => true
  | _ => false

/-- The statuses that the loop tells apart. -/
inductive SecurityStatus
  | secEOk
  | secEIncompleteMessage
  | secICompleteNeeded
  | secIContinueNeeded
  | secICompleteAndContinue
  | secEWrongPrincipal
  | secEUntrustedRoot
  | secIRenegotiate
  | other (code : Int)
  deriving DecidableEq, Repr

/-- The three statuses that ask for a token to be sent. -/
def SecurityStatus.continues : SecurityStatus → Bool
  | .secICompleteNeeded | .secIContinueNeeded | .secICompleteAndContinue => true
  | _ => false

inductive OpenResult
  | ioOpenOk
  /-- `__FAILURE__`, or the status of schannel. -/
  | ioOpenError (code : Option SecurityStatus)
  deriving DecidableEq, Repr

/-- The calls of user callbacks and of the underlying io. -/
inductive Call
  | onIoOpenComplete (result : OpenResult)
  | onBytesReceived (bytes : Bytes)
  | onIoError
  | xioSend (buffer : Bytes)
  deriving DecidableEq, Repr

/-- `received_byte_count` is the length of `receivedBytes`; of a callback it matters whether it is NULL. -/
structure TlsIoInstance where
  tlsioState : TlsioState
  receivedBytes : Bytes
  bufferSize : Nat
  neededBytes : Nat
  /-- The bytes of each `PENDING_SEND`; an item may hold NULL. -/
  pendingIoList : List (Option Bytes) := []
  onIoOpenComplete : Bool := true
  onBytesReceived : Bool := true
  onIoError : Bool := true
  calls : List Call := []
  deriving Repr

/-- The length that is given to schannel, an `unsigned long`. -/
def TlsIoInstance.inputLength (i : TlsIoInstance) : Nat :=
  i.receivedBytes.length % 2 ^ 32

/-! ## What is outside -/

/-- A `SecBuffer` when schannel returns from an input of `n` bytes. A `SECBUFFER_MISSING` names at least one byte,
and what a `SECBUFFER_EXTRA` leaves is less than the input, if there is any. -/
inductive SecBuffer (n : Nat)
  | empty
  | data (bytes : Bytes)
  | missing (count : { count : Nat // 0 < count })
  | extra (count : Fin (max n 1))
  | other (bufferType : Nat)

/-- The bytes that are left over in the buffer. -/
def SecBuffer.left {n : Nat} : SecBuffer n → Nat
  | .extra count => count
  | _ => 0

/-- If `SECBUFFER_MISSING` is not sent, the stream is read byte by byte. -/
def SecBuffer.missingCount {n : Nat} : SecBuffer n → Nat
  | .missing count => count
  | _ => 1

def SecBuffer.isExtra {n : Nat} : SecBuffer n → Bool
  | .extra _ => true
  | _ => false

/-- `InitializeSecurityContext`: its status, the second input buffer and the token. -/
structure HandshakeAnswer (n : Nat) where
  status : SecurityStatus
  second : SecBuffer n
  token : Bytes

/-- `DecryptMessage`: its status and the four buffers. -/
structure DecryptAnswer (n : Nat) where
  status : SecurityStatus
  buffers : Vector (SecBuffer n) 4

/-- The first buffer that is a `SECBUFFER_EXTRA` says what is left. -/
def DecryptAnswer.left {n : Nat} (answer : DecryptAnswer n) : Nat :=
  match answer.buffers.toList.find? SecBuffer.isExtra with
  | some buffer => buffer.left
  | none => 0

/-- A callback may close the io, and the underlying io may say at once that it is closed. -/
inductive Reaction
  | returns
  | closes
  | closesAtOnce
  deriving DecidableEq, Repr

/-- What is answered in one iteration. After calls of the log the answers may depend on it. -/
structure Turn where
  initializeSecurityContext : (n : Nat) → HandshakeAnswer n
  decryptMessage : (n : Nat) → DecryptAnswer n
  reallocated : Bool
  encryptMessage : List Call → Bytes → Option Bytes
  sent : List Call → Bool
  reaction : List Call → Reaction

/-! ## The code -/

/-- The state that `tlsio_schannel_close` leaves. -/
def Reaction.stateAfter (state : TlsioState) : Reaction → TlsioState
  | .returns => state
  | .closes =>
    if state = .tlsioStateNotOpen ∨ state = .tlsioStateClosing then state else .tlsioStateClosing
  | .closesAtOnce =>
    if state = .tlsioStateNotOpen ∨ state = .tlsioStateClosing then state else .tlsioStateNotOpen

/-- The call of a user callback. -/
def callback (t : Turn) (call : Call) (i : TlsIoInstance) : TlsIoInstance :=
  let calls := i.calls ++ [call]
  { i with calls, tlsioState := (t.reaction calls).stateAfter i.tlsioState }

def indicateError (t : Turn) (i : TlsIoInstance) : TlsIoInstance :=
  if i.onIoError then callback t .onIoError i else i

/-- The call of `on_io_open_complete`, if there is one. -/
def indicateOpen (t : Turn) (result : OpenResult) (i : TlsIoInstance) : TlsIoInstance :=
  if i.onIoOpenComplete then callback t (.onIoOpenComplete result) i else i

def indicateBytesReceived (t : Turn) (bytes : Bytes) (i : TlsIoInstance) : TlsIoInstance :=
  if i.onBytesReceived then callback t (.onBytesReceived bytes) i else i

def xioSend (t : Turn) (buffer : Bytes) (i : TlsIoInstance) : Bool × TlsIoInstance :=
  let calls := i.calls ++ [.xioSend buffer]
  (t.sent calls, { i with calls })

def resizeReceiveBuffer (reallocated : Bool) (neededBufferSize : Nat) (i : TlsIoInstance) :
    Option TlsIoInstance :=
  if i.bufferSize < neededBufferSize then
    if reallocated then some { i with bufferSize := neededBufferSize } else none
  else some i

def setReceiveBuffer (reallocated : Bool) (bufferSize : Nat) (i : TlsIoInstance) : Option TlsIoInstance :=
  if reallocated then some { i with bufferSize } else none

/-- `send_chunk`. What `QueryContextAttributes`, `malloc` and `EncryptMessage` make of the bytes is
`encryptMessage`. -/
def sendChunk (t : Turn) (buffer : Bytes) (i : TlsIoInstance) : Bool × TlsIoInstance :=
  if buffer = [] then (false, i)
  else if i.tlsioState ≠ .tlsioStateOpen then (false, i)
  else
    match t.encryptMessage i.calls buffer with
    | none => (false, i)
    | some outBuffer => xioSend t outBuffer i

def internalSend (t : Turn) (buffer : Bytes) (i : TlsIoInstance) : Bool × TlsIoInstance :=
  if _h : buffer = [] then (true, i)
  else
    match sendChunk t (buffer.take (16 * 1024)) i with
    | (false, i) => (false, i)
    | (true, i) => internalSend t (buffer.drop (16 * 1024)) i
termination_by buffer.length
decreasing_by
  have hpos : 0 < buffer.length := List.length_pos_iff.mpr _h
  rw [List.length_drop]
  omega

def sendPendingItem (t : Turn) (i : TlsIoInstance) : Option Bytes → TlsIoInstance
  | none => indicateError t i
  | some bytes =>
    match internalSend t bytes i with
    | (true, i) => i
    | (false, i) => indicateError t i

/-- The loop over the pending sends; each one is removed after it has been sent. -/
def sendPending (t : Turn) : List (Option Bytes) → TlsIoInstance → TlsIoInstance
  | [], i => i
  | pendingSend :: rest, i =>
    sendPending t rest { sendPendingItem t i pendingSend with pendingIoList := rest }

/-- The last `left` bytes stay. If there are none, one byte is needed to go on. -/
def consume (left : Nat) (i : TlsIoInstance) : TlsIoInstance :=
  let receivedBytes := i.receivedBytes.drop (i.receivedBytes.length - left)
  { i with receivedBytes, neededBytes := if receivedBytes.length = 0 then 1 else 0 }

/-- `TLSIO_STATE_ERROR`, reported as the end of the open. -/
def failOpen (t : Turn) (code : Option SecurityStatus) (i : TlsIoInstance) : TlsIoInstance :=
  indicateOpen t (.ioOpenError code) { i with tlsioState := .tlsioStateError }

/-- `TLSIO_STATE_ERROR`, reported as an error of the io. -/
def failIo (t : Turn) (i : TlsIoInstance) : TlsIoInstance :=
  indicateError t { i with tlsioState := .tlsioStateError }

/-- `SEC_E_OK` of the handshake. -/
def finishHandshake (t : Turn) (left : Nat) (i : TlsIoInstance) : TlsIoInstance :=
  let i := consume left i
  match setReceiveBuffer t.reallocated (addSizeT i.neededBytes i.receivedBytes.length) i with
  | none => failOpen t none i
  | some i =>
    if i.tlsioState = .tlsioStateHandshakeClientHelloSent then
      indicateOpen t .ioOpenOk { i with tlsioState := .tlsioStateOpen }
    else sendPending t i.pendingIoList { i with tlsioState := .tlsioStateOpen }

/-- The three statuses that continue the handshake. -/
def continueHandshake (t : Turn) (token : Bytes) (left : Nat) (i : TlsIoInstance) : TlsIoInstance :=
  -- An empty token is not sent.
  match if token = [] then (true, i) else xioSend t token i with
  | (false, i) => failOpen t none i
  | (true, i) =>
    let i := consume left i
    match setReceiveBuffer t.reallocated (addSizeT i.neededBytes i.receivedBytes.length) i with
    | none => failOpen t none i
    | some i =>
      if i.tlsioState ≠ .tlsioStateRenegotiate then
        { i with tlsioState := .tlsioStateHandshakeClientHelloSent }
      else i

/-- An iteration in `TLSIO_STATE_HANDSHAKE_CLIENT_HELLO_SENT` or `TLSIO_STATE_RENEGOTIATE`. -/
def handshakeTurn (t : Turn) (i : TlsIoInstance) : TlsIoInstance :=
  let answer := t.initializeSecurityContext i.inputLength
  match answer.status with
  | .secEIncompleteMessage =>
    let i := { i with neededBytes := answer.second.missingCount }
    match resizeReceiveBuffer t.reallocated (addSizeT i.receivedBytes.length i.neededBytes) i with
    | none => failOpen t none i
    | some i => i
  | .secEOk => finishHandshake t answer.second.left i
  | .secICompleteNeeded | .secIContinueNeeded | .secICompleteAndContinue =>
    continueHandshake t answer.token answer.second.left i
  | .secEWrongPrincipal | .secEUntrustedRoot => failOpen t (some answer.status) i
  | _ => failIo t i

/-- `SEC_I_RENEGOTIATE` in `TLSIO_STATE_OPEN`. -/
def startRenegotiation (t : Turn) (i : TlsIoInstance) : TlsIoInstance :=
  let answer := t.initializeSecurityContext i.inputLength
  if answer.status.continues then
    match xioSend t answer.token { i with receivedBytes := [] } with
    | (false, i) => failIo t i
    | (true, i) =>
      let i := { i with neededBytes := 1 }
      match resizeReceiveBuffer t.reallocated (addSizeT i.neededBytes i.receivedBytes.length) i with
      | none => failIo t i
      | some i => { i with tlsioState := .tlsioStateRenegotiate }
  -- There is no `else`: on another status nothing is changed.
  else i

/-- An iteration in `TLSIO_STATE_OPEN`. -/
def openTurn (t : Turn) (i : TlsIoInstance) : TlsIoInstance :=
  let answer := t.decryptMessage i.inputLength
  match answer.status with
  | .secEIncompleteMessage =>
    let i := { i with neededBytes := answer.buffers[1].missingCount }
    match resizeReceiveBuffer t.reallocated (addSizeT i.receivedBytes.length i.neededBytes) i with
    | none => failIo t i
    | some i => i
  | .secEOk =>
    match answer.buffers[1] with
    | .data bytes =>
      let i := consume answer.left (indicateBytesReceived t bytes i)
      match setReceiveBuffer t.reallocated (addSizeT i.neededBytes i.receivedBytes.length) i with
      | none => failIo t i
      | some i => i
    | _ => failIo t i
  | .secIRenegotiate => startRenegotiation t i
  | _ => failIo t i

/-- One iteration of the loop; in the other states it is left. -/
def drainTurn (t : Turn) (i : TlsIoInstance) : TlsIoInstance :=
  match i.tlsioState with
  | .tlsioStateHandshakeClientHelloSent | .tlsioStateRenegotiate => handshakeTurn t i
  | .tlsioStateOpen => openTurn t i
  | _ => i

/-- The loop goes on: no more bytes are needed, and the state is decoded. -/
def TlsIoInstance.drains (i : TlsIoInstance) : Bool :=
  i.neededBytes == 0 && i.tlsioState.decodes

/-- `on_underlying_io_bytes_received` up to its loop. -/
def receiveChunk (reallocated : Bool) (buffer : Bytes) (i : TlsIoInstance) : Option TlsIoInstance :=
  match resizeReceiveBuffer reallocated (addSizeT i.receivedBytes.length buffer.length) i with
  | none => none
  | some i =>
    some { i with
      receivedBytes := i.receivedBytes ++ buffer
      neededBytes := if i.neededBytes < buffer.length then 0 else i.neededBytes - buffer.length }

/-- The instance when iteration `k` begins; `none` if there is no such iteration. -/
def drainRun (reallocated : Bool) (buffer : Bytes) (turns : Nat → Turn) (i : TlsIoInstance) :
    (k : Nat) → Option TlsIoInstance
  | 0 => (receiveChunk reallocated buffer i).filter TlsIoInstance.drains
  | k + 1 =>
    ((drainRun reallocated buffer turns i k).map (drainTurn (turns k))).filter TlsIoInstance.drains

/-! ## What an iteration makes of the instance -/

/-- The received bytes and the count of needed ones are as before. -/
structure SameInput (i i' : TlsIoInstance) : Prop where
  receivedBytes : i'.receivedBytes = i.receivedBytes
  neededBytes : i'.neededBytes = i.neededBytes

/-- Input is consumed, more bytes are needed, or the state is not one that is decoded. -/
def Progress (i i' : TlsIoInstance) : Prop :=
  i'.receivedBytes.length < i.receivedBytes.length ∨ 0 < i'.neededBytes ∨ i'.tlsioState.decodes = false

/-- `DecryptMessage` reports a renegotiation, and its first step is not a continuation. -/
structure FailedRenegotiation (t : Turn) (i : TlsIoInstance) : Prop where
  isOpen : i.tlsioState = .tlsioStateOpen
  renegotiates : (t.decryptMessage i.inputLength).status = .secIRenegotiate
  fails : (t.initializeSecurityContext i.inputLength).status.continues = false

section

variable {t : Turn} {i j l : TlsIoInstance}

theorem SameInput.refl (i : TlsIoInstance) : SameInput i i :=
  ⟨rfl, rfl⟩

theorem SameInput.trans (hij : SameInput i j) (hjl : SameInput j l) : SameInput i l :=
  ⟨hjl.receivedBytes.trans hij.receivedBytes, hjl.neededBytes.trans hij.neededBytes⟩

theorem SameInput.inputLength (h : SameInput i j) : j.inputLength = i.inputLength := by
  unfold TlsIoInstance.inputLength
  rw [h.receivedBytes]

theorem sameInput_indicateError (t : Turn) (i : TlsIoInstance) : SameInput i (indicateError t i) := by
  unfold indicateError
  split
  · exact ⟨rfl, rfl⟩
  · exact SameInput.refl i

theorem sameInput_indicateOpen (t : Turn) (result : OpenResult) (i : TlsIoInstance) :
    SameInput i (indicateOpen t result i) := by
  unfold indicateOpen
  split
  · exact ⟨rfl, rfl⟩
  · exact SameInput.refl i

theorem sameInput_indicateBytesReceived (t : Turn) (bytes : Bytes) (i : TlsIoInstance) :
    SameInput i (indicateBytesReceived t bytes i) := by
  unfold indicateBytesReceived
  split
  · exact ⟨rfl, rfl⟩
  · exact SameInput.refl i

theorem sameInput_sendChunk (t : Turn) (buffer : Bytes) (i : TlsIoInstance) :
    SameInput i (sendChunk t buffer i).2 := by
  unfold sendChunk
  split
  · exact SameInput.refl i
  · split
    · exact SameInput.refl i
    · split
      · exact SameInput.refl i
      · exact ⟨rfl, rfl⟩

theorem sameInput_internalSend (t : Turn) (buffer : Bytes) (i : TlsIoInstance) :
    SameInput i (internalSend t buffer i).2 := by
  fun_induction internalSend t buffer i with
  | case1 i => exact SameInput.refl i
  | case2 buffer i hne i' hsent =>
    have hchunk := sameInput_sendChunk t (buffer.take (16 * 1024)) i
    rw [hsent] at hchunk
    exact hchunk
  | case3 buffer i hne i' hsent ih =>
    have hchunk := sameInput_sendChunk t (buffer.take (16 * 1024)) i
    rw [hsent] at hchunk
    exact hchunk.trans ih

theorem sameInput_sendPendingItem (t : Turn) (i : TlsIoInstance) (pendingSend : Option Bytes) :
    SameInput i (sendPendingItem t i pendingSend) := by
  cases pendingSend with
  | none => exact sameInput_indicateError t i
  | some bytes =>
    have hsend := sameInput_internalSend t bytes i
    unfold sendPendingItem
    dsimp only
    split
    case h_1 j hsent =>
      rw [hsent] at hsend
      exact hsend
    case h_2 j hsent =>
      rw [hsent] at hsend
      exact hsend.trans (sameInput_indicateError t j)

theorem sameInput_sendPending (t : Turn) (pending : List (Option Bytes)) (i : TlsIoInstance) :
    SameInput i (sendPending t pending i) := by
  induction pending generalizing i with
  | nil => exact SameInput.refl i
  | cons pendingSend rest ih =>
    have hitem := sameInput_sendPendingItem t i pendingSend
    have hrest := ih { sendPendingItem t i pendingSend with pendingIoList := rest }
    exact ⟨hrest.receivedBytes.trans hitem.receivedBytes, hrest.neededBytes.trans hitem.neededBytes⟩

theorem sameInput_state (state : TlsioState) (i : TlsIoInstance) :
    SameInput i { i with tlsioState := state } :=
  ⟨rfl, rfl⟩

theorem sameInput_xioSend (t : Turn) (buffer : Bytes) (i : TlsIoInstance) :
    SameInput i (xioSend t buffer i).2 :=
  ⟨rfl, rfl⟩

end

section

variable {t : Turn} {i j : TlsIoInstance} {size : Nat} {reallocated : Bool}

theorem stateAfter_decodes (reaction : Reaction) {state : TlsioState} (hstate : state.decodes = false) :
    (reaction.stateAfter state).decodes = false := by
  have hite : ∀ closed : TlsioState, closed.decodes = false →
      (if state = .tlsioStateNotOpen ∨ state = .tlsioStateClosing then state else closed).decodes = false := by
    intro closed hclosed
    split
    · exact hstate
    · exact hclosed
  cases reaction with
  | returns => exact hstate
  | closes => exact hite .tlsioStateClosing rfl
  | closesAtOnce => exact hite .tlsioStateNotOpen rfl

theorem failOpen_decodes (t : Turn) (code : Option SecurityStatus) (i : TlsIoInstance) :
    (failOpen t code i).tlsioState.decodes = false := by
  unfold failOpen indicateOpen
  split
  · exact stateAfter_decodes _ rfl
  · rfl

theorem failIo_decodes (t : Turn) (i : TlsIoInstance) : (failIo t i).tlsioState.decodes = false := by
  unfold failIo indicateError
  split
  · exact stateAfter_decodes _ rfl
  · rfl

theorem progress_failOpen (t : Turn) (code : Option SecurityStatus) (i j : TlsIoInstance) :
    Progress i (failOpen t code j) :=
  .inr (.inr (failOpen_decodes t code j))

theorem progress_failIo (t : Turn) (i j : TlsIoInstance) : Progress i (failIo t j) :=
  .inr (.inr (failIo_decodes t j))

theorem Progress.of_sameInput {i' : TlsIoInstance}
    (h : j.receivedBytes.length < i.receivedBytes.length ∨ 0 < j.neededBytes) (hsame : SameInput j i') :
    Progress i i' := by
  rcases h with hfewer | hneeded
  · left
    rw [hsame.receivedBytes]
    exact hfewer
  · right
    left
    rw [hsame.neededBytes]
    exact hneeded

theorem sameInput_resize (h : resizeReceiveBuffer reallocated size i = some j) : SameInput i j := by
  unfold resizeReceiveBuffer at h
  by_cases hgrow : i.bufferSize < size
  · rw [if_pos hgrow] at h
    cases reallocated with
    | true =>
      cases h
      exact ⟨rfl, rfl⟩
    | false => cases h
  · rw [if_neg hgrow] at h
    cases h
    exact SameInput.refl i

theorem sameInput_set (h : setReceiveBuffer reallocated size i = some j) : SameInput i j := by
  unfold setReceiveBuffer at h
  cases reallocated with
  | true =>
    cases h
    exact ⟨rfl, rfl⟩
  | false => cases h

theorem SecBuffer.missingCount_pos {n : Nat} (buffer : SecBuffer n) : 0 < buffer.missingCount := by
  cases buffer with
  | missing count => exact count.property
  | empty | data | extra | other => exact Nat.one_pos

theorem SecBuffer.left_lt {n : Nat} (buffer : SecBuffer n) : buffer.left < max n 1 := by
  cases buffer with
  | extra count => exact count.isLt
  | empty | data | missing | other => exact lt_max_of_lt_right Nat.one_pos

theorem DecryptAnswer.left_lt {n : Nat} (answer : DecryptAnswer n) : answer.left < max n 1 := by
  unfold DecryptAnswer.left
  split
  · exact SecBuffer.left_lt _
  · exact lt_max_of_lt_right Nat.one_pos

theorem consume_progress {left : Nat} (hleft : left < max i.inputLength 1) :
    (consume left i).receivedBytes.length < i.receivedBytes.length ∨ 0 < (consume left i).neededBytes := by
  have hlength : (consume left i).receivedBytes.length
      = i.receivedBytes.length - (i.receivedBytes.length - left) := List.length_drop
  have hinput : i.inputLength ≤ i.receivedBytes.length := Nat.mod_le _ _
  by_cases hzero : (consume left i).receivedBytes.length = 0
  · right
    have hneeded : (consume left i).neededBytes = 1 := if_pos hzero
    rw [hneeded]
    exact Nat.one_pos
  · left
    rw [hlength] at hzero ⊢
    have hcases := lt_max_iff.mp hleft
    omega

theorem finishHandshake_progress (t : Turn) {left : Nat} (i : TlsIoInstance)
    (hleft : left < max i.inputLength 1) : Progress i (finishHandshake t left i) := by
  unfold finishHandshake
  dsimp only
  split
  case h_1 => exact progress_failOpen _ _ _ _
  case h_2 j hset =>
    have hopen := (sameInput_set hset).trans (sameInput_state .tlsioStateOpen j)
    split
    case isTrue =>
      exact Progress.of_sameInput (consume_progress hleft) (hopen.trans (sameInput_indicateOpen _ _ _))
    case isFalse =>
      exact Progress.of_sameInput (consume_progress hleft) (hopen.trans (sameInput_sendPending _ _ _))

theorem continueHandshake_progress (t : Turn) (token : Bytes) {left : Nat} (i : TlsIoInstance)
    (hleft : left < max i.inputLength 1) : Progress i (continueHandshake t token left i) := by
  have hsame : SameInput i (if token = [] then (true, i) else xioSend t token i).2 := by
    split
    · exact SameInput.refl i
    · exact sameInput_xioSend t token i
  unfold continueHandshake
  split
  case h_1 => exact progress_failOpen _ _ _ _
  case h_2 j hsent =>
    rw [hsent] at hsame
    rw [← hsame.inputLength] at hleft
    have hconsumed := consume_progress hleft
    rw [hsame.receivedBytes] at hconsumed
    dsimp only
    split
    case h_1 => exact progress_failOpen _ _ _ _
    case h_2 l hset =>
      split
      case isTrue =>
        exact Progress.of_sameInput hconsumed
          ((sameInput_set hset).trans (sameInput_state .tlsioStateHandshakeClientHelloSent l))
      case isFalse => exact Progress.of_sameInput hconsumed (sameInput_set hset)

theorem handshakeTurn_progress (t : Turn) (i : TlsIoInstance) : Progress i (handshakeTurn t i) := by
  have hleft := (t.initializeSecurityContext i.inputLength).second.left_lt
  unfold handshakeTurn
  dsimp only
  split
  case h_1 =>
    -- Incomplete: the count of missing bytes stays, whatever the allocator says.
    split
    case h_1 => exact progress_failOpen _ _ _ _
    case h_2 j hresize =>
      exact Progress.of_sameInput (.inr (SecBuffer.missingCount_pos _)) (sameInput_resize hresize)
  case h_2 => exact finishHandshake_progress t i hleft
  case h_3 | h_4 | h_5 => exact continueHandshake_progress t _ i hleft
  case h_6 | h_7 => exact progress_failOpen _ _ _ _
  case h_8 => exact progress_failIo _ _ _

theorem startRenegotiation_progress (t : Turn) (i : TlsIoInstance)
    (hcontinues : (t.initializeSecurityContext i.inputLength).status.continues = true) :
    Progress i (startRenegotiation t i) := by
  unfold startRenegotiation
  dsimp only
  rw [if_pos hcontinues]
  split
  case h_1 => exact progress_failIo _ _ _
  case h_2 j hsent =>
    split
    case h_1 => exact progress_failIo _ _ _
    case h_2 l hresize =>
      have hsame := (sameInput_resize hresize).trans (sameInput_state .tlsioStateRenegotiate l)
      exact Progress.of_sameInput (.inr Nat.one_pos) hsame

theorem openTurn_progress (t : Turn) (i : TlsIoInstance)
    (hcontinues : (t.decryptMessage i.inputLength).status = .secIRenegotiate →
      (t.initializeSecurityContext i.inputLength).status.continues = true) :
    Progress i (openTurn t i) := by
  have hleft := (t.decryptMessage i.inputLength).left_lt
  unfold openTurn
  dsimp only
  split
  case h_1 =>
    split
    case h_1 => exact progress_failIo _ _ _
    case h_2 j hresize =>
      exact Progress.of_sameInput (.inr (SecBuffer.missingCount_pos _)) (sameInput_resize hresize)
  case h_2 =>
    split
    case h_1 bytes hdata =>
      have hsame := sameInput_indicateBytesReceived t bytes i
      have hless : (t.decryptMessage i.inputLength).left
          < max (indicateBytesReceived t bytes i).inputLength 1 := by
        rw [hsame.inputLength]
        exact hleft
      have hconsumed := consume_progress hless
      rw [hsame.receivedBytes] at hconsumed
      split
      case h_1 => exact progress_failIo _ _ _
      case h_2 j hset => exact Progress.of_sameInput hconsumed (sameInput_set hset)
    case h_2 => exact progress_failIo _ _ _
  case h_3 hrenegotiate => exact startRenegotiation_progress t i (hcontinues hrenegotiate)
  case h_4 => exact progress_failIo _ _ _

end

/-! ## The loop -/

section

variable {t : Turn} {i j : TlsIoInstance}

theorem drainTurn_failed (h : FailedRenegotiation t i) : drainTurn t i = i := by
  have hturn : drainTurn t i = startRenegotiation t i := by
    unfold drainTurn openTurn
    rw [h.isOpen]
    dsimp only
    rw [h.renegotiates]
  rw [hturn]
  unfold startRenegotiation
  dsimp only
  rw [if_neg]
  rw [h.fails]
  exact Bool.false_ne_true

theorem drainTurn_progress (hdrains : i.drains = true) (h : ¬ FailedRenegotiation t i) :
    Progress i (drainTurn t i) := by
  have hdecodes : i.tlsioState.decodes = true := (Bool.and_eq_true_iff.mp hdrains).2
  unfold drainTurn
  split
  case h_1 | h_2 => exact handshakeTurn_progress t i
  case h_3 hopen =>
    refine openTurn_progress t i fun hrenegotiate => ?_
    by_contra hfails
    exact h ⟨hopen, hrenegotiate, Bool.eq_false_iff.mpr hfails⟩
  case h_4 hhello hrenegotiate hopen =>
    cases hstate : i.tlsioState with
    | tlsioStateHandshakeClientHelloSent => exact absurd hstate hhello
    | tlsioStateRenegotiate => exact absurd hstate hrenegotiate
    | tlsioStateOpen => exact absurd hstate hopen
    | tlsioStateNotOpen | tlsioStateOpeningUnderlyingIo | tlsioStateHandshakeServerHelloReceived
      | tlsioStateClosing | tlsioStateError =>
      rw [hstate] at hdecodes
      exact absurd hdecodes Bool.false_ne_true

/-- Where the loop goes on, only the bytes that are left can have made the progress. -/
theorem Progress.length_lt (h : Progress i j) (hdrains : j.drains = true) :
    j.receivedBytes.length < i.receivedBytes.length := by
  obtain ⟨hneeded, hdecodes⟩ := Bool.and_eq_true_iff.mp hdrains
  rcases h with hfewer | hpos | hleaves
  · exact hfewer
  · exact absurd (beq_iff_eq.mp hneeded) (Nat.ne_of_gt hpos)
  · rw [hleaves] at hdecodes
    exact absurd hdecodes Bool.false_ne_true

theorem not_progress_self (hdrains : i.drains = true) : ¬ Progress i i :=
  fun h => absurd (h.length_lt hdrains) (Nat.lt_irrefl _)

theorem drain_progress_iff (hdrains : i.drains = true) :
    Progress i (drainTurn t i) ↔ ¬ FailedRenegotiation t i := by
  constructor
  · intro hprogress hfailed
    rw [drainTurn_failed hfailed] at hprogress
    exact not_progress_self hdrains hprogress
  · exact drainTurn_progress hdrains

/-- A count that goes down unless `P` holds comes to rest, and from then on `P` holds. -/
theorem eventually_of_descends {count : Nat → Nat} {P : Nat → Prop}
    (hstep : ∀ k, count (k + 1) < count k ∨ P k ∧ count (k + 1) = count k) : ∃ K, ∀ k, K ≤ k → P k := by
  have hantitone : Antitone count := by
    refine antitone_nat_of_succ_le fun k => ?_
    rcases hstep k with hless | ⟨_, hsame⟩
    · exact Nat.le_of_lt hless
    · exact Nat.le_of_eq hsame
  obtain ⟨K, hrest⟩ := WellFoundedLT.antitone_chain_condition hantitone
  refine ⟨K, fun k hk => ?_⟩
  rcases hstep k with hless | ⟨hP, _⟩
  · have hsame : count k = count (k + 1) := (hrest k hk).symm.trans (hrest (k + 1) (Nat.le_succ_of_le hk))
    omega
  · exact hP

variable {reallocated : Bool} {buffer : Bytes} {turns : Nat → Turn}

theorem drainRun_drains {k : Nat} (h : drainRun reallocated buffer turns i k = some j) : j.drains = true := by
  cases k with
  | zero => exact (Option.filter_eq_some_iff.mp h).2
  | succ k => exact (Option.filter_eq_some_iff.mp h).2

theorem drainRun_none {k l : Nat} (hkl : k ≤ l) (h : drainRun reallocated buffer turns i k = none) :
    drainRun reallocated buffer turns i l = none := by
  induction hkl with
  | refl => exact h
  | step _ ih =>
    rw [drainRun, ih]
    rfl

/-- A loop that goes on has made progress with fewer bytes, or has failed to renegotiate and changed nothing. -/
theorem drainRun_succ {k : Nat} {j' : TlsIoInstance} (h : drainRun reallocated buffer turns i k = some j)
    (h' : drainRun reallocated buffer turns i (k + 1) = some j') :
    j'.receivedBytes.length < j.receivedBytes.length ∨ FailedRenegotiation (turns k) j ∧ j' = j := by
  rw [drainRun, h] at h'
  obtain ⟨hturn, hdrains⟩ := Option.filter_eq_some_iff.mp h'
  have hj' : drainTurn (turns k) j = j' := Option.some.inj hturn
  by_cases hfailed : FailedRenegotiation (turns k) j
  · right
    exact ⟨hfailed, hj'.symm.trans (drainTurn_failed hfailed)⟩
  · left
    have hprogress := drainTurn_progress (drainRun_drains h) hfailed
    rw [hj'] at hprogress
    exact hprogress.length_lt hdrains

theorem drain_never_ends (h : ∀ k, drainRun reallocated buffer turns i k ≠ none) :
    ∃ K, ∀ k, K ≤ k →
      ∃ j, drainRun reallocated buffer turns i k = some j ∧ FailedRenegotiation (turns k) j := by
  have hsome : ∀ k, ∃ j, drainRun reallocated buffer turns i k = some j :=
    fun k => Option.ne_none_iff_exists'.mp (h k)
  choose run hrun using hsome
  refine @eventually_of_descends (fun k => (run k).receivedBytes.length) _ fun k => ?_
  rcases drainRun_succ (hrun k) (hrun (k + 1)) with hless | ⟨hfailed, hsame⟩
  · exact .inl hless
  · right
    exact ⟨⟨run k, hrun k, hfailed⟩, congrArg (fun l : TlsIoInstance => l.receivedBytes.length) hsame⟩

end

/-- Every iteration makes progress unless the renegotiation that it starts fails, and the loop ends unless from
some iteration on all of them are such. -/
theorem drain_ends_iff (reallocated : Bool) (buffer : Bytes) (turns : Nat → Turn) (i : TlsIoInstance) :
    (∀ k j, drainRun reallocated buffer turns i k = some j →
      (Progress j (drainTurn (turns k) j) ↔ ¬ FailedRenegotiation (turns k) j)) ∧
    ((∃ k, drainRun reallocated buffer turns i k = none) ↔
      ¬ ∃ K, ∀ k, K ≤ k →
        ∃ j, drainRun reallocated buffer turns i k = some j ∧ FailedRenegotiation (turns k) j) := by
  refine ⟨fun k j hrun => drain_progress_iff (drainRun_drains hrun), ?_⟩
  constructor
  · rintro ⟨k, hnone⟩ ⟨K, hfailed⟩
    obtain ⟨j, hsome, _⟩ := hfailed (max K k) (le_max_left K k)
    rw [drainRun_none (le_max_right K k) hnone] at hsome
    cases hsome
  · intro hnever
    by_contra hruns
    exact hnever (drain_never_ends fun k hnone => hruns ⟨k, hnone⟩)

/-! ## A peer that asks for a renegotiation that fails -/

/-- `SEC_I_RENEGOTIATE` on every message, and `SEC_E_INVALID_TOKEN` from the handshake. -/
def refusedTurn : Turn where
  initializeSecurityContext _ := { status := .other (-2146893048), second := .empty, token := [] }
  decryptMessage _ := { status := .secIRenegotiate, buffers := Vector.replicate 4 .empty }
  reallocated := true
  encryptMessage _ _ := none
  sent _ := true
  reaction _ := .returns

def openInstance : TlsIoInstance :=
  { tlsioState := .tlsioStateOpen, receivedBytes := [], bufferSize := 1, neededBytes := 1 }

/-- One byte arrives in an open connection, and the loop never ends. -/
theorem refused_renegotiation_spins :
    ¬ ∀ (reallocated : Bool) (buffer : Bytes) (turns : Nat → Turn) (i : TlsIoInstance),
      ∃ k, drainRun reallocated buffer turns i k = none := by
  intro hends
  obtain ⟨k, hnone⟩ := hends true [22] (fun _ => refusedTurn) openInstance
  have hspins : ∀ k, drainRun true [22] (fun _ => refusedTurn) openInstance k
      = some { openInstance with receivedBytes := [22], neededBytes := 0 } := by
    intro k
    induction k with
    | zero => rfl
    | succ k ih =>
      rw [drainRun, ih]
      rfl
  rw [hspins k] at hnone
  cases hnone

end SharedUtility.TlsIoSchannel
