import SharedUtility.UwsClient.Rules
import SharedUtility.UwsClient.WireFrame

/-!
# Observation — what the user and the server see of the client

* `Observation`, `observe` — deliveries, frames sent, closes and errors, read off the log,
* `readMaskedFrame`        — how the server reads a frame of the client,
* `answers`                — the answers of surroundings in which allocations succeed.
-/

namespace SharedUtility.UwsClient

open Reentrant

/-! ## Observations -/

/-- A masked frame as its receiver reads it. -/
structure SentFrame where
  opcode : UInt8
  isFinal : Bool
  payload : Bytes
  deriving DecidableEq, Repr

/-- Read a masked frame and unmask its payload; `none` for any other bytes. -/
def readMaskedFrame (bs : Bytes) : Option SentFrame :=
  let lengthByte := bs.getD 1 0
  let fl := decodeFrameLength (bs.set 1 (lengthByte &&& 0x7F))
  let body := bs.drop (fl.neededBytes - fl.length)
  let key : MaskingKey := fun i => body.getD i 0
  if lengthByte &&& 0x80 = 0 ∨ fl.hasError ∨ bs.length ≠ fl.neededBytes + 4 then none
  else
    some {
      opcode := bs.getD 0 0 &&& 0xF
      isFinal := bs.getD 0 0 &&& 0x80 != 0
      payload := maskPayload key (body.drop 4) }

inductive Observation
  | received (frameType : UInt8) (payload : Bytes)
  | sent (frame : Option SentFrame)
  | peerClosed (closeCode : Option Nat) (extraData : Bytes)
  | ioClosed
  | error (e : WsError)
  | faulted (f : Fault)
  deriving DecidableEq, Repr

def observe : Event → Option Observation
  | .call _ (.onWsFrameReceived _ frameType payload) => some (.received frameType payload)
  | .call _ (.xioSend _ bytes) => some (.sent (readMaskedFrame bytes))
  | .call _ (.onWsPeerClosed _ closeCode extraData) => some (.peerClosed closeCode extraData)
  | .call _ (.xioClose _) => some .ioClosed
  | .call _ (.onWsError _ e) => some (.error e)
  | .fault f => some (.faulted f)
  | _ => none

def Uws.observations (s : Uws) : List Observation :=
  s.log.filterMap observe

@[simp] theorem observations_record (s : Uws) (ev : Event) :
    (s.record ev).observations = s.observations ++ (observe ev).toList := by
  cases h : observe ev <;> simp [Uws.observations, h]

@[simp] theorem observations_setClient (s : Uws) (c : UwsClientInstance) :
    (s.setClient c).observations = s.observations := rfl

@[simp] theorem observations_setState (s : Uws) (st : UwsState) :
    (s.setState st).observations = s.observations := rfl

theorem maskedLengthByte (n : Nat) :
    (encodedLengthByte n ||| 0x80) &&& 0x80 ≠ 0 ∧
      (encodedLengthByte n ||| 0x80) &&& 0x7F = encodedLengthByte n := by
  have hall : ∀ k : Fin 256, UInt8.ofNat k &&& 0x80 = 0 →
      (UInt8.ofNat k ||| 0x80) &&& 0x80 ≠ 0 ∧
        (UInt8.ofNat k ||| 0x80) &&& 0x7F = UInt8.ofNat k := by
    decide +kernel
  have hmask := encodedLengthByte_unmasked n
  simpa using hall ⟨(encodedLengthByte n).toNat, (encodedLengthByte n).toNat_lt⟩
    (by simpa using hmask)

theorem readMaskedFrame_encodedFrame {opcode reserved : UInt8} (hop : opcode ≤ 0x0F)
    (hrsv : reserved ≤ 7) {payload : Bytes} (hlen : payload.length < 2 ^ 63) (isFinal : Bool)
    (key : MaskingKey) :
    readMaskedFrame (encodedFrame opcode payload true isFinal reserved key) =
      some { opcode := opcode, isFinal := isFinal, payload := payload } := by
  have hfields := encodedFirstByte_fields hop hrsv isFinal
  have hbyte := maskedLengthByte payload.length
  have hframe : encodedFrame opcode payload true isFinal reserved key =
      encodedFirstByte opcode isFinal reserved :: (encodedLengthByte payload.length ||| 0x80) ::
        (encodedExtendedLength payload.length ++
          (key 0 :: key 1 :: key 2 :: key 3 :: maskPayload key payload)) := by
    simp [encodedFrame]
  have hdecode := decodeFrameLength_header (encodedFirstByte opcode isFinal reserved) hlen
    (key 0 :: key 1 :: key 2 :: key 3 :: maskPayload key payload)
  have hheader : 2 + (encodedExtendedLength payload.length).length + payload.length -
      payload.length = (encodedExtendedLength payload.length).length + 1 + 1 := by omega
  have hkey : (fun i : Fin 4 =>
      (key 0 :: key 1 :: key 2 :: key 3 :: maskPayload key payload).getD i 0) = key := by
    funext i
    rcases i with ⟨i, hi⟩
    interval_cases i <;> rfl
  rw [hframe, readMaskedFrame]
  simp only [List.getD_cons_succ, List.getD_cons_zero, List.set_cons_succ, List.set_cons_zero,
    hbyte.2, hdecode, hheader, List.drop_succ_cons, List.drop_left, hkey, List.drop_zero,
    maskPayload_maskPayload, hfields.1, hfields.2]
  rw [if_neg]
  simp only [hbyte.1, List.length_cons, List.length_append, length_maskPayload, false_or,
    Bool.false_eq_true]
  omega

/-! ## Surroundings in which allocations succeed -/

/-- What the calls of the underlying io return that matter while a server's frame is handled. -/
structure XioResults where
  send : Int := 0
  close : Int := 0

/-- Allocations succeed, and the underlying io answers as `x` says. -/
def answers (x : XioResults) : (c : Call) → Ans c → Prop
  | .malloc, r => r = true
  | .encoderResources, r => r.available = true
  | .xioSend .closeResponse _, r => r = x.send
  | .xioClose _, r => r = x.close
  | _, _ => True

/-- Any answer at all. -/
def anyAnswer : (c : Call) → Ans c → Prop :=
  fun _ _ => True

section

variable {x : XioResults} {s : Uws}

theorem quiet_callOut_of {ok : (c : Call) → Ans c → Prop} {c : Call} {r : Ans c}
    (h : ∀ r', ok c r' ↔ r' = r) (Q : Ans c → Uws → Prop) :
    Quiet uwsCode ok (callOut c) Q s ↔ Q r (s.record (.call s.currentOpen c)) := by
  rw [quiet_callOut]
  constructor
  · intro hQ
    exact hQ.2 r ((h r).2 rfl)
  · intro hQ
    refine ⟨⟨r, (h r).2 rfl⟩, ?_⟩
    intro r' hr'
    rwa [(h r').1 hr']

@[simp] theorem answers_malloc_iff (Q : Bool → Uws → Prop) :
    Quiet uwsCode (answers x) malloc Q s ↔ Q true s := by
  rw [quiet_malloc]
  constructor
  · intro h
    exact h.2 true rfl
  · intro h
    refine ⟨⟨true, rfl⟩, ?_⟩
    intro r hr
    rwa [show r = true from hr]

@[simp] theorem answers_encoderResources (Q : EncoderResources → Uws → Prop) :
    Quiet uwsCode (answers x) encoderResources Q s ↔ ∀ res, res.available = true → Q res s := by
  rw [quiet_encoderResources]
  constructor
  · intro h
    exact h.2
  · intro h
    exact ⟨⟨⟨true, true, true, fun _ => 0⟩, rfl⟩, h⟩

@[simp] theorem answers_xioClose (p : ClosePurpose) (Q : Int → Uws → Prop) :
    Quiet uwsCode (answers x) (xioClose p) Q s ↔
      Q x.close (s.record (.call s.currentOpen (.xioClose p))) :=
  quiet_callOut_of (c := .xioClose p) (r := x.close) (fun _ => Iff.rfl) Q

@[simp] theorem answers_closeResponse (bytes : Bytes) (Q : Int → Uws → Prop) :
    Quiet uwsCode (answers x) (xioSend .closeResponse bytes) Q s ↔
      Q x.send (s.record (.call s.currentOpen (.xioSend .closeResponse bytes))) :=
  quiet_callOut_of (c := .xioSend .closeResponse bytes) (r := x.send) (fun _ => Iff.rfl) Q

@[simp] theorem answers_pongFrame (bytes : Bytes) (Q : Int → Uws → Prop) :
    Quiet uwsCode (answers x) (xioSend .pongFrame bytes) Q s ↔
      ∀ r, Q r (s.record (.call s.currentOpen (.xioSend .pongFrame bytes))) := by
  rw [xioSend, quiet_callOut]
  constructor
  · intro h r
    exact h.2 r trivial
  · intro h
    exact ⟨⟨(0 : Int), trivial⟩, fun r _ => h r⟩

theorem answers_of_isCallback {c : Call} (hc : c.isCallback = true) :
    (∃ r, answers x c r) ∧ ∀ r, answers x c r := by
  cases c
  all_goals first
    | exact ⟨⟨(), trivial⟩, fun _ => trivial⟩
    | cases hc

theorem answers_callBack (cb : Callback) (c : Callback → Call)
    (hc : (c cb).isCallback = true) (Q : Unit → Uws → Prop) :
    Quiet uwsCode (answers x) (callBack (some cb) c) Q s ↔
      Q () (s.record (.call s.currentOpen (c cb))) := by
  rw [quiet_callBack]
  have hany := answers_of_isCallback (x := x) hc
  constructor
  · intro h
    rcases hany.1 with ⟨r, hr⟩
    exact h.2 r hr
  · intro h
    exact ⟨hany.1, fun _ _ => h⟩

@[simp] theorem answers_onWsError (cb : Callback) (e : WsError) (Q : Unit → Uws → Prop) :
    Quiet uwsCode (answers x) (callBack (some cb) fun cb => .onWsError cb e) Q s ↔
      Q () (s.record (.call s.currentOpen (.onWsError cb e))) :=
  answers_callBack cb _ rfl Q

@[simp] theorem answers_onWsFrameReceived (cb : Callback) (frameType : UInt8) (payload : Bytes)
    (Q : Unit → Uws → Prop) :
    Quiet uwsCode (answers x)
        (callBack (some cb) fun cb => .onWsFrameReceived cb frameType payload) Q s ↔
      Q () (s.record (.call s.currentOpen (.onWsFrameReceived cb frameType payload))) :=
  answers_callBack cb _ rfl Q

@[simp] theorem answers_onWsPeerClosed (cb : Callback) (closeCode : Option Nat) (extraData : Bytes)
    (Q : Unit → Uws → Prop) :
    Quiet uwsCode (answers x)
        (callBack (some cb) fun cb => .onWsPeerClosed cb closeCode extraData) Q s ↔
      Q () (s.record (.call s.currentOpen (.onWsPeerClosed cb closeCode extraData))) :=
  answers_callBack cb _ rfl Q

end

end SharedUtility.UwsClient
