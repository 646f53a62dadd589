import SharedUtility.Reentrant.Quiet
import SharedUtility.UwsClient.Code

/-!
# Rules — the primitive steps of the client in both program logics

`wp_…` for environments that may re-enter the client, `quiet_…` for those that do not.  A proof about
a function of the client steps through its body with these rules and never unfolds a primitive.
-/

namespace SharedUtility.UwsClient

open Reentrant

/-- Bytes are taken out of the stream buffer; a fault when there are not as many. -/
def Uws.consumed (s : Uws) (n : Nat) : Uws :=
  (if s.client.streamBuffer.length < n then s.record (.fault .streamBufferUnderflow)
    else s).setClient (s.client.withStream (s.client.streamBuffer.drop n))

theorem Uws.consumed_of_le {s : Uws} {n : Nat} (h : n ≤ s.client.streamBuffer.length) :
    s.consumed n = s.setClient (s.client.withStream (s.client.streamBuffer.drop n)) := by
  rw [Uws.consumed, if_neg (Nat.not_lt.2 h)]

@[simp] theorem Uws.consumed_client (s : Uws) (n : Nat) :
    (s.consumed n).client = s.client.withStream (s.client.streamBuffer.drop n) := by
  rfl

/-- A fault when the fragment buffer has been freed. -/
def Uws.fragmentChecked (s : Uws) : Uws :=
  if s.client.fragmentBlock = .freed then s.record (.fault .useAfterFree) else s

@[simp] theorem Uws.fragmentChecked_client (s : Uws) : s.fragmentChecked.client = s.client := by
  rw [Uws.fragmentChecked]
  split
  · rfl
  · rfl

/-- What `decodeFrame` does with two bytes or more in the buffer, when a mask has been reported. -/
def readFrame : UwsComp Bool := do
  let c ← getClient
  let fl := decodeFrameLength c.streamBuffer
  if fl.hasError then do
    indicateWsError .wsErrorBadFrameReceived
    pure false
  else if c.streamBuffer.length ≥ fl.neededBytes then do
    let firstByte := c.streamBuffer.getD 0 0
    let decodeStream ← receiveFrame (firstByte &&& 0xF) fl (firstByte &&& 0x80 != 0)
    consumeStreamBufferBytes fl.neededBytes
    pure decodeStream
  else pure false

theorem decodeFrame_eq : decodeFrame = (do
    let c ← getClient
    if c.streamBuffer.length ≥ 2 then
      if c.streamBuffer.getD 1 0 &&& 0x80 ≠ 0 then do
        indicateWsErrorAndClose .wsErrorBadFrameReceived 1002
        readFrame
      else readFrame
    else pure false : UwsComp Bool) :=
  rfl

/-- The instance after `free (fragment_buffer)`. -/
def Uws.fragmentFreed (s : Uws) : Uws :=
  s.fragmentChecked.setClient
    { s.client with fragmentBlock := if s.client.fragmentBlock = .null then .null else .freed }

section

variable {ok : (c : Call) → Ans c → Prop} {s : Uws}

@[simp] theorem quiet_getClient (Q : UwsClientInstance → Uws → Prop) :
    Quiet uwsCode ok getClient Q s ↔ Q s.client s := by
  simp [getClient]

@[simp] theorem quiet_modifyClient (f : UwsClientInstance → UwsClientInstance)
    (Q : Unit → Uws → Prop) :
    Quiet uwsCode ok (modifyClient f) Q s ↔ Q () (s.setClient (f s.client)) := by
  simp [modifyClient]

@[simp] theorem quiet_setUwsState (st : UwsState) (Q : Unit → Uws → Prop) :
    Quiet uwsCode ok (setUwsState st) Q s ↔ Q () (s.setState st) := by
  simp [setUwsState]

@[simp] theorem quiet_fault (f : Fault) (Q : Unit → Uws → Prop) :
    Quiet uwsCode ok (fault f) Q s ↔ Q () (s.record (.fault f)) := by
  simp [fault]

theorem quiet_ask (c : Call) (Q : Ans c → Uws → Prop) :
    Quiet uwsCode ok (ask c) Q s ↔ (∃ r, ok c r) ∧ ∀ r, ok c r → Q r s :=
  @quiet_call Uws uwsSignature uwsCode ok s c Q

theorem quiet_malloc (Q : Bool → Uws → Prop) :
    Quiet uwsCode ok malloc Q s ↔ (∃ r, ok .malloc r) ∧ ∀ r, ok .malloc r → Q r s :=
  quiet_ask .malloc Q

theorem quiet_encoderResources (Q : EncoderResources → Uws → Prop) :
    Quiet uwsCode ok encoderResources Q s ↔
      (∃ r, ok .encoderResources r) ∧ ∀ r, ok .encoderResources r → Q r s :=
  quiet_ask .encoderResources Q

theorem quiet_callOut (c : Call) (Q : Ans c → Uws → Prop) :
    Quiet uwsCode ok (callOut c) Q s ↔
      (∃ r, ok c r) ∧ ∀ r, ok c r → Q r (s.record (.call s.currentOpen c)) := by
  simp [callOut, quiet_ask]

theorem quiet_callBack (cb : Callback) (c : Callback → Call) (Q : Unit → Uws → Prop) :
    Quiet uwsCode ok (callBack (some cb) c) Q s ↔
      (∃ r, ok (c cb) r) ∧
        ∀ r, ok (c cb) r → Q () (s.record (.call s.currentOpen (c cb))) := by
  simp [callBack, quiet_callOut]

@[simp] theorem quiet_callProc (p : Proc) (Q : Int → Uws → Prop) :
    Quiet uwsCode ok (callProc p) Q s ↔ Quiet uwsCode ok (uwsCode p) Q s := by
  simp [callProc]

@[simp] theorem quiet_consumeStreamBufferBytes (n : Nat) (Q : Unit → Uws → Prop) :
    Quiet uwsCode ok (consumeStreamBufferBytes n) Q s ↔ Q () (s.consumed n) := by
  by_cases hlt : s.client.streamBuffer.length < n
  · simp [consumeStreamBufferBytes, Uws.consumed, hlt]
  · simp [consumeStreamBufferBytes, Uws.consumed, hlt]

@[simp] theorem quiet_checkFragmentBuffer (Q : Unit → Uws → Prop) :
    Quiet uwsCode ok checkFragmentBuffer Q s ↔ Q () s.fragmentChecked := by
  by_cases hfreed : s.client.fragmentBlock = .freed
  · simp [checkFragmentBuffer, Uws.fragmentChecked, hfreed]
  · simp [checkFragmentBuffer, Uws.fragmentChecked, hfreed]

end

section

variable {spec : Spec Uws uwsSignature} {s : Uws}

@[simp] theorem wp_getClient (Q : UwsClientInstance → Uws → Prop) :
    wp spec getClient Q s ↔ Q s.client s := by
  simp [getClient]

@[simp] theorem wp_modifyClient (f : UwsClientInstance → UwsClientInstance)
    (Q : Unit → Uws → Prop) :
    wp spec (modifyClient f) Q s ↔ Q () (s.setClient (f s.client)) := by
  simp [modifyClient]

@[simp] theorem wp_setUwsState (st : UwsState) (Q : Unit → Uws → Prop) :
    wp spec (setUwsState st) Q s ↔ Q () (s.setState st) := by
  simp [setUwsState]

@[simp] theorem wp_fault (f : Fault) (Q : Unit → Uws → Prop) :
    wp spec (fault f) Q s ↔ Q () (s.record (.fault f)) := by
  simp [fault]

@[simp] theorem wp_ask (c : Call) (Q : Ans c → Uws → Prop) :
    wp spec (ask c) Q s ↔
      spec.callPre c s ∧ ∀ r s', spec.callPost c s r s' → Q r s' :=
  @wp_call Uws uwsSignature spec s c Q

@[simp] theorem wp_callOut (c : Call) (Q : Ans c → Uws → Prop) :
    wp spec (callOut c) Q s ↔
      spec.callPre c (s.record (.call s.currentOpen c)) ∧
        ∀ r s', spec.callPost c (s.record (.call s.currentOpen c)) r s' → Q r s' := by
  simp [callOut]

@[simp] theorem wp_callProc (p : Proc) (Q : Int → Uws → Prop) :
    wp spec (callProc p) Q s ↔
      spec.procPre p s ∧ ∀ r s', spec.procPost p s r s' → Q r s' := by
  simp [callProc]

@[simp] theorem wp_consumeStreamBufferBytes (n : Nat) (Q : Unit → Uws → Prop) :
    wp spec (consumeStreamBufferBytes n) Q s ↔ Q () (s.consumed n) := by
  by_cases hlt : s.client.streamBuffer.length < n
  · simp [consumeStreamBufferBytes, Uws.consumed, hlt]
  · simp [consumeStreamBufferBytes, Uws.consumed, hlt]

@[simp] theorem wp_checkFragmentBuffer (Q : Unit → Uws → Prop) :
    wp spec checkFragmentBuffer Q s ↔ Q () s.fragmentChecked := by
  by_cases hfreed : s.client.fragmentBlock = .freed
  · simp [checkFragmentBuffer, Uws.fragmentChecked, hfreed]
  · simp [checkFragmentBuffer, Uws.fragmentChecked, hfreed]

@[simp] theorem wp_freeFragmentBuffer (Q : Unit → Uws → Prop) :
    wp spec freeFragmentBuffer Q s ↔ Q () s.fragmentFreed := by
  simp [freeFragmentBuffer, Uws.fragmentFreed]

end

end SharedUtility.UwsClient
