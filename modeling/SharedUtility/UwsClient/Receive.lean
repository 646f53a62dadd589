import SharedUtility.UwsClient.Observation

/-!
# Receive — what the decode loop makes of the frames of a server

* `UwsClientInstance.receive` — the effect of one frame on a client in state OPEN,
* `receiveFrames`            — every frame in turn, as long as the client is OPEN,
* `handledCount`             — how many of the frames at hand one run of the loop gets to.

`decodeStream_frames` ties the code to the fold: evaluated on complete frames and a partial one, the
loop does what `receiveFrames` says of the first `handledCount` frames and keeps the rest.
-/

namespace SharedUtility.UwsClient

open Reentrant UwsClientInstance

/-! ## One frame -/

/-- The opcodes after which the decode loop does not go on by itself. -/
def WireFrame.endsRound (f : WireFrame) : Bool :=
  f.opcode != wsContinuationFrame && f.opcode != wsTextFrame && f.opcode != wsBinaryFrame

namespace UwsClientInstance

def badFrame (c : UwsClientInstance) : UwsClientInstance × List Observation :=
  ({ c with uwsState := .uwsStateError }, [.error .wsErrorBadFrameReceived])

def closedUnderlyingIo (x : XioResults) (c : UwsClientInstance) :
    UwsClientInstance × List Observation :=
  if x.close ≠ 0 then
    ({ c with uwsState := .uwsStateClosed }, [.ioClosed, .error .wsErrorCannotCloseUnderlyingIo])
  else ({ c with uwsState := .uwsStateClosingUnderlyingIo }, [.ioClosed])

/-- No bytes are wanted of a block that is there: `realloc` gives it back and returns NULL. -/
def GivesBack (c : UwsClientInstance) (payload : Bytes) : Prop :=
  c.fragmentBlock ≠ .null ∧ c.fragmentBuffer ++ payload = []

instance (c : UwsClientInstance) (payload : Bytes) : Decidable (c.GivesBack payload) :=
  inferInstanceAs (Decidable (_ ∧ _))

/-- The client with the payload of a fragment behind the bytes it has collected. -/
def collected (c : UwsClientInstance) (payload : Bytes) : UwsClientInstance :=
  { c with fragmentBlock := .allocated, fragmentBuffer := c.fragmentBuffer ++ payload }

/-- What is seen of `realloc` when it gets a block that was given back before. -/
def blockFault (c : UwsClientInstance) : List Observation :=
  if c.fragmentBlock = .freed then [.faulted .useAfterFree] else []

/-- Collect the payload, with the memory for it there, and go on. -/
def receiveFragment (c : UwsClientInstance) (payload : Bytes)
    (goOn : UwsClientInstance → UwsClientInstance × List Observation) :
    UwsClientInstance × List Observation :=
  if c.GivesBack payload then
    ({ c with fragmentBlock := .freed, uwsState := .uwsStateError },
      c.blockFault ++ [.error .wsErrorNotEnoughMemory])
  else ((goOn (c.collected payload)).1, c.blockFault ++ (goOn (c.collected payload)).2)

def receiveContinuation (c : UwsClientInstance) (f : WireFrame) :
    UwsClientInstance × List Observation :=
  c.receiveFragment f.payload fun c =>
    if f.isFinal then
      if c.fragmentedFrameType = wsFrameTypeUnknown then c.badFrame
      else
        ({ c with fragmentBuffer := [], fragmentedFrameType := wsFrameTypeUnknown },
          [.received c.fragmentedFrameType c.fragmentBuffer])
    else (c, [])

def receiveData (c : UwsClientInstance) (f : WireFrame) : UwsClientInstance × List Observation :=
  if f.isFinal then (c, [.received f.opcode f.payload])
  else if c.fragmentedFrameType ≠ wsFrameTypeUnknown then c.badFrame
  else c.receiveFragment f.payload fun c => ({ c with fragmentedFrameType := f.opcode }, [])

def receiveClose (x : XioResults) (c : UwsClientInstance) (f : WireFrame) :
    UwsClientInstance × List Observation :=
  if f.isFinal = false then c.badFrame
  else if f.payload.length > 2 ∧ utf8CheckerIsValidUtf8 (f.payload.drop 2) = false then
    c.closedUnderlyingIo x
  else
    let response := .sent (some { opcode := wsCloseFrame, isFinal := true, payload := [] })
    let peerClosed := .peerClosed (closeCodeOf f.payload) (f.payload.drop 2)
    if x.send ≠ 0 then
      let r := c.closedUnderlyingIo x
      (r.1, response :: r.2 ++ [peerClosed])
    else ({ c with uwsState := .uwsStateClosingSendingClose }, [response, peerClosed])

def receivePing (c : UwsClientInstance) (f : WireFrame) : UwsClientInstance × List Observation :=
  if f.isFinal = false then c.badFrame
  else (c, [.sent (some { opcode := wsPongFrame, isFinal := true, payload := f.payload })])

/-- What a client in state OPEN makes of a frame, and what is observed. -/
def receive (x : XioResults) (c : UwsClientInstance) (f : WireFrame) :
    UwsClientInstance × List Observation :=
  if f.opcode = wsContinuationFrame then c.receiveContinuation f
  else if f.opcode = wsTextFrame ∨ f.opcode = wsBinaryFrame then c.receiveData f
  else if f.opcode = wsCloseFrame then c.receiveClose x f
  else if f.opcode = wsPingFrame then c.receivePing f
  else (c, [])

end UwsClientInstance

theorem OpenCallbacks.exists_of_anyNull {cbs : OpenCallbacks} (h : cbs.anyNull = false) :
    ∃ a b d e, cbs = ⟨some a, some b, some d, some e⟩ := by
  rcases cbs with ⟨_ | a, _ | b, _ | d, _ | e⟩
  case some.some.some.some => exact ⟨a, b, d, e, rfl⟩
  all_goals simp [OpenCallbacks.anyNull] at h

theorem WireFrame.endsRound_eq_false {f : WireFrame}
    (h : f.opcode = wsContinuationFrame ∨ f.opcode = wsTextFrame ∨ f.opcode = wsBinaryFrame) :
    f.endsRound = false := by
  rcases h with h | h | h
  all_goals simp [WireFrame.endsRound, h]

section

variable {x : XioResults} {c : UwsClientInstance} {f : WireFrame}

theorem receive_continuation (hop : f.opcode = wsContinuationFrame) :
    c.receive x f = c.receiveContinuation f := by
  simp [receive, hop]

theorem receive_data (hop : f.opcode = wsTextFrame ∨ f.opcode = wsBinaryFrame) :
    c.receive x f = c.receiveData f := by
  rcases hop with hop | hop
  all_goals
    simp only [receive, hop]
    rfl

theorem receive_close (hop : f.opcode = wsCloseFrame) : c.receive x f = c.receiveClose x f := by
  simp only [receive, hop]
  rfl

theorem receive_ping (hop : f.opcode = wsPingFrame) : c.receive x f = c.receivePing f := by
  simp only [receive, hop]
  rfl

theorem receive_other (hround : f.endsRound = true) (hclose : f.opcode ≠ wsCloseFrame)
    (hping : f.opcode ≠ wsPingFrame) : c.receive x f = (c, []) := by
  simp only [WireFrame.endsRound, Bool.and_eq_true, bne_iff_ne, ne_eq] at hround
  simp [receive, hround, hclose, hping]

end

@[simp] theorem closedUnderlyingIo_uwsState (x : XioResults) (c : UwsClientInstance)
    (st : UwsState) :
    ({ c with uwsState := st } : UwsClientInstance).closedUnderlyingIo x =
      c.closedUnderlyingIo x := by
  unfold closedUnderlyingIo
  split
  · rfl
  · rfl

@[simp] theorem closedUnderlyingIo_callbacks (x : XioResults) (c : UwsClientInstance) :
    (c.closedUnderlyingIo x).1.callbacks = c.callbacks := by
  unfold closedUnderlyingIo
  split
  · rfl
  · rfl

/-! ## The code on one frame -/

/-- Handling the frame has had the effect that `receive` describes; the loop of a client that is
still OPEN ends after some of the opcodes. -/
structure FrameReceived (x : XioResults) (s : Uws) (f : WireFrame) (decodeStream : Bool)
    (s' : Uws) : Prop where
  client : s'.client = (s.client.receive x f).1
  observations : s'.observations = s.observations ++ (s.client.receive x f).2
  decodeStream : s'.client.uwsState = .uwsStateOpen → decodeStream = !f.endsRound

section

variable {x : XioResults} {s : Uws} {f : WireFrame} {fl : FrameLength}

theorem observations_fragmentChecked :
    s.fragmentChecked.observations = s.observations ++ s.client.blockFault := by
  unfold Uws.fragmentChecked blockFault
  split
  · simp [observe]
  · simp

theorem quiet_processFrameFragment {ok : (c : Call) → Ans c → Prop}
    (hpay : framePayload s.client.streamBuffer fl = f.payload) (hlen : fl.length = f.payload.length)
    (Q : Int → Uws → Prop) :
    Quiet uwsCode ok (processFrameFragment fl) Q s ↔
      if s.client.GivesBack f.payload then
        Quiet uwsCode ok (indicateWsError .wsErrorNotEnoughMemory) (fun _ => Q failure)
          (s.fragmentChecked.setClient { s.client with fragmentBlock := .freed })
      else
        (∃ allocated, ok .malloc allocated) ∧ ∀ allocated, ok .malloc allocated →
          if allocated then Q 0 (s.fragmentChecked.setClient (s.client.collected f.payload))
          else
            Quiet uwsCode ok (indicateWsError .wsErrorNotEnoughMemory) (fun _ => Q failure)
              s.fragmentChecked := by
  have hsize : s.client.GivesBack f.payload ↔
      s.client.fragmentBlock ≠ .null ∧ s.client.fragmentBuffer.length + fl.length = 0 := by
    rw [GivesBack, hlen, ← List.length_append, List.length_eq_zero_iff]
  have hfailed : @Quiet Uws uwsSignature uwsCode ok _ (pure failure) Q = Q failure :=
    funext fun s' => propext (quiet_pure failure Q)
  simp only [processFrameFragment, reallocFragmentBuffer, quiet_bind, quiet_getClient,
    quiet_checkFragmentBuffer, Uws.fragmentChecked_client, ← hsize]
  split
  · simp [hfailed]
  · simp only [quiet_bind, quiet_malloc]
    refine and_congr Iff.rfl (forall_congr' fun allocated => imp_congr Iff.rfl ?_)
    cases allocated with
    | false => simp [hfailed]
    | true =>
      simp only [if_true, Bool.true_eq_false, if_false, quiet_bind, quiet_modifyClient, quiet_pure,
        Uws.setClient_client, Uws.fragmentChecked_client, hpay]
      rfl

theorem receiveContinuationFrame_meets (hcb : s.client.callbacks.anyNull = false)
    (hpay : framePayload s.client.streamBuffer fl = f.payload)
    (hlen : fl.length = f.payload.length) (hop : f.opcode = wsContinuationFrame) :
    Quiet uwsCode (answers x) (receiveContinuationFrame fl f.isFinal) (FrameReceived x s f) s := by
  rcases OpenCallbacks.exists_of_anyNull hcb with ⟨a, b, d, e, hcb⟩
  have hround := WireFrame.endsRound_eq_false (.inl hop)
  have hrec := receive_continuation (x := x) (c := s.client) hop
  simp only [receiveContinuation, receiveFragment] at hrec
  simp only [receiveContinuationFrame, quiet_bind]
  rw [quiet_processFrameFragment hpay hlen]
  split
  case isTrue hgives =>
    simp [hcb, indicateWsError, failure]
    constructor
    all_goals simp [hrec, hgives, hcb, observations_fragmentChecked, observe]
  case isFalse hkeeps =>
    rw [if_neg hkeeps] at hrec
    refine ⟨⟨true, rfl⟩, ?_⟩
    rintro allocated rfl
    have hcb' : (s.client.collected f.payload).callbacks = ⟨some a, some b, some d, some e⟩ := hcb
    by_cases hfin : f.isFinal = true
    · by_cases hun : (s.client.collected f.payload).fragmentedFrameType = wsFrameTypeUnknown
      · simp [hcb', hfin, hun, indicateWsError]
        constructor
        all_goals simp [hrec, hround, hfin, hun, hcb', badFrame,
          observations_fragmentChecked, observe]
      · simp [hcb', hfin, hun]
        constructor
        all_goals simp [hrec, hround, hfin, hun, hcb', observations_fragmentChecked, observe]
    · simp [hfin]
      constructor
      all_goals simp [hrec, hround, hfin, observations_fragmentChecked]

theorem receiveDataFrame_meets (hcb : s.client.callbacks.anyNull = false)
    (hpay : framePayload s.client.streamBuffer fl = f.payload)
    (hlen : fl.length = f.payload.length) (hop : f.opcode = wsTextFrame ∨ f.opcode = wsBinaryFrame) :
    Quiet uwsCode (answers x) (receiveDataFrame f.opcode fl f.isFinal) (FrameReceived x s f) s := by
  rcases OpenCallbacks.exists_of_anyNull hcb with ⟨a, b, d, e, hcb⟩
  have hround := WireFrame.endsRound_eq_false (.inr hop)
  have hrec := receive_data (x := x) (c := s.client) hop
  simp only [receiveDataFrame, quiet_bind, quiet_getClient]
  by_cases hfin : f.isFinal = true
  · simp [hpay, hcb, hfin]
    constructor
    all_goals simp [hrec, hround, hfin, receiveData, observe]
  · by_cases hun : s.client.fragmentedFrameType = wsFrameTypeUnknown
    · simp only [receiveData, hfin, hun, receiveFragment] at hrec
      simp only [hfin, hun, Bool.false_eq_true, if_false, ne_eq, not_true_eq_false, quiet_bind]
      rw [quiet_processFrameFragment hpay hlen]
      split
      case isTrue hgives =>
        simp [hcb, indicateWsError, failure]
        constructor
        all_goals simp [hrec, hgives, hun, hcb, observations_fragmentChecked, observe]
      case isFalse hkeeps =>
        refine ⟨⟨true, rfl⟩, ?_⟩
        rintro allocated rfl
        simp
        constructor
        all_goals simp [hrec, hround, hkeeps, observations_fragmentChecked]
    · simp [hcb, hfin, hun, indicateWsError]
      constructor
      all_goals simp [hrec, hround, hfin, hun, hcb, receiveData,
        badFrame, observe]

theorem closeUnderlyingIo_meets (hcb : s.client.callbacks.anyNull = false) (p : ClosePurpose) :
    Quiet uwsCode (answers x) (closeUnderlyingIo p)
      (fun _ s' => s'.client = (s.client.closedUnderlyingIo x).1 ∧
        s'.observations = s.observations ++ (s.client.closedUnderlyingIo x).2) s := by
  rcases OpenCallbacks.exists_of_anyNull hcb with ⟨a, b, d, e, hcb⟩
  by_cases hclose : x.close = 0
  · simp [closeUnderlyingIo, closedUnderlyingIo, hclose, observe]
  · simp [closeUnderlyingIo, closedUnderlyingIo, hclose, hcb, indicateWsError,
      observe]

theorem readMaskedFrame_closeResponse (key : MaskingKey) :
    readMaskedFrame (encodedFrame wsCloseFrame [] true true 0 key) =
      some { opcode := wsCloseFrame, isFinal := true, payload := [] } :=
  readMaskedFrame_encodedFrame (by decide) (by decide) (by decide) true key

theorem receiveCloseFrame_meets (hopen : s.client.uwsState = .uwsStateOpen)
    (hcb : s.client.callbacks.anyNull = false)
    (hpay : framePayload s.client.streamBuffer fl = f.payload) (hop : f.opcode = wsCloseFrame) :
    Quiet uwsCode (answers x) (receiveCloseFrame fl f.isFinal) (FrameReceived x s f) s := by
  rcases OpenCallbacks.exists_of_anyNull hcb with ⟨a, b, d, e, hcb'⟩
  have hround : f.endsRound = true := by
    simp only [WireFrame.endsRound, hop]
    decide
  have hrec := receive_close (x := x) (c := s.client) hop
  simp only [receiveCloseFrame]
  by_cases hfin : f.isFinal = false
  · simp [hcb', hfin, indicateWsError]
    constructor
    all_goals simp [hrec, hround, hfin, hcb', receiveClose,
      badFrame, observe]
  · by_cases hutf8 : f.payload.length > 2 ∧ utf8CheckerIsValidUtf8 (f.payload.drop 2) = false
    · simp [hpay, hfin, hutf8]
      refine Quiet.mono (closeUnderlyingIo_meets hcb .badCloseReason) ?_
      intro _ s' h
      rw [quiet_pure]
      constructor
      all_goals simp [hrec, hround, hfin, hutf8, receiveClose, h]
    · simp only [quiet_bind, quiet_getClient, hpay, hopen, hfin, hutf8, if_false, quiet_setUwsState,
        answers_encoderResources, reduceCtorEq]
      intro res hres
      rw [uwsFrameEncoderEncode_empty hres (by decide)]
      by_cases hsend : x.send = 0
      · simp [hsend, hcb']
        constructor
        all_goals simp [hrec, hround, hfin, hutf8, hsend, hcb', receiveClose,
          readMaskedFrame_closeResponse, observe]
      · simp [hsend]
        refine Quiet.mono (closeUnderlyingIo_meets (by simpa using hcb) .closeResponseFailed) ?_
        intro _ s' h
        simp only [Uws.record_client, Uws.setState_client, closedUnderlyingIo_uwsState] at h
        have hcb'' : s'.client.callbacks = ⟨some a, some b, some d, some e⟩ := by
          rw [h.1, closedUnderlyingIo_callbacks, hcb']
        simp [hcb'']
        constructor
        all_goals simp [hrec, hround, hfin, hutf8, hsend, h, receiveClose,
          readMaskedFrame_closeResponse, observe]

theorem receivePingFrame_meets (hcb : s.client.callbacks.anyNull = false)
    (hpay : framePayload s.client.streamBuffer fl = f.payload) (hlen : fl.length = f.payload.length)
    (hop : f.opcode = wsPingFrame) :
    Quiet uwsCode (answers x) (receivePingFrame fl f.isFinal) (FrameReceived x s f) s := by
  rcases OpenCallbacks.exists_of_anyNull hcb with ⟨a, b, d, e, hcb⟩
  have hround : f.endsRound = true := by
    simp only [WireFrame.endsRound, hop]
    decide
  have hrec := receive_ping (x := x) (c := s.client) hop
  have hread : ∀ key, readMaskedFrame (encodedFrame wsPongFrame f.payload true true 0 key) =
      some { opcode := wsPongFrame, isFinal := true, payload := f.payload } := fun key =>
    readMaskedFrame_encodedFrame (by decide) (by decide) f.payload_lt true key
  simp only [receivePingFrame]
  by_cases hfin : f.isFinal = false
  · simp [hcb, hfin, indicateWsError]
    constructor
    all_goals simp [hrec, hround, hfin, hcb, receivePing,
      badFrame, observe]
  · simp only [quiet_bind, quiet_getClient, hpay, hlen, hfin]
    rw [if_neg (by simp)]
    simp only [quiet_bind, answers_encoderResources]
    intro res hres
    rw [uwsFrameEncoderEncode_available hres (by decide) (by decide)]
    simp only [quiet_bind, answers_pongFrame, quiet_pure]
    intro _
    constructor
    all_goals simp [hrec, hround, hfin, receivePing, hread, observe]

theorem receiveFrame_meets (hopen : s.client.uwsState = .uwsStateOpen)
    (hcb : s.client.callbacks.anyNull = false)
    (hpay : framePayload s.client.streamBuffer fl = f.payload)
    (hlen : fl.length = f.payload.length) :
    Quiet uwsCode (answers x) (receiveFrame f.opcode fl f.isFinal) (FrameReceived x s f) s := by
  unfold receiveFrame
  by_cases hcont : f.opcode = wsContinuationFrame
  · rw [if_pos hcont]
    exact receiveContinuationFrame_meets hcb hpay hlen hcont
  by_cases htext : f.opcode = wsTextFrame
  · rw [if_neg hcont, if_pos htext, receiveTextFrame]
    have hmeets := receiveDataFrame_meets (x := x) hcb hpay hlen (.inl htext)
    rwa [htext] at hmeets
  by_cases hbinary : f.opcode = wsBinaryFrame
  · rw [if_neg hcont, if_neg htext, if_pos hbinary, receiveBinaryFrame]
    have hmeets := receiveDataFrame_meets (x := x) hcb hpay hlen (.inr hbinary)
    rwa [hbinary] at hmeets
  rw [if_neg hcont, if_neg htext, if_neg hbinary]
  by_cases hclose : f.opcode = wsCloseFrame
  · rw [if_pos hclose]
    exact receiveCloseFrame_meets hopen hcb hpay hclose
  by_cases hping : f.opcode = wsPingFrame
  · rw [if_neg hclose, if_pos hping]
    exact receivePingFrame_meets hcb hpay hlen hping
  · have hround : f.endsRound = true := by
      simp [WireFrame.endsRound, hcont, htext, hbinary]
    have hrec := receive_other (x := x) (c := s.client) hround hclose hping
    rw [if_neg hclose, if_neg hping, quiet_pure]
    constructor
    all_goals simp [hrec, hround]

end

/-! ## Frames in turn -/

/-- Handle the frames one after the other, as long as the client is OPEN. -/
def receiveFrames (x : XioResults) (c : UwsClientInstance) :
    List WireFrame → UwsClientInstance × List Observation
  | [] => (c, [])
  | f :: fs =>
    if c.uwsState = .uwsStateOpen then
      let r := c.receive x f
      let r' := receiveFrames x r.1 fs
      (r'.1, r.2 ++ r'.2)
    else (c, [])

/-- How many of the frames in the stream buffer one run of the decode loop consumes. -/
def handledCount (x : XioResults) (c : UwsClientInstance) : List WireFrame → Nat
  | [] => 0
  | f :: fs =>
    if c.uwsState = .uwsStateOpen then
      if f.endsRound then 1 else handledCount x (c.receive x f).1 fs + 1
    else 0

/-- The states a client that was OPEN is in as long as nobody but the server acts on it. -/
def UwsState.openOrStopped : UwsState → Bool
  | .uwsStateOpen | .uwsStateClosed | .uwsStateClosingSendingClose | .uwsStateClosingUnderlyingIo
  | .uwsStateError => true
  | _ => false

section

variable {x : XioResults} {c : UwsClientInstance} {f : WireFrame}

theorem receiveFrames_stopped (h : c.uwsState ≠ .uwsStateOpen) (fs : List WireFrame) :
    receiveFrames x c fs = (c, []) := by
  cases fs with
  | nil => rfl
  | cons f fs => simp [receiveFrames, h]

theorem receiveFrames_append (fs gs : List WireFrame) :
    receiveFrames x c (fs ++ gs) =
      ((receiveFrames x (receiveFrames x c fs).1 gs).1,
        (receiveFrames x c fs).2 ++ (receiveFrames x (receiveFrames x c fs).1 gs).2) := by
  induction fs generalizing c with
  | nil => simp [receiveFrames]
  | cons f fs ih =>
    by_cases hopen : c.uwsState = .uwsStateOpen
    · simp [receiveFrames, hopen, ih]
    · simp [receiveFrames_stopped hopen]

theorem receive_withStream (buffer : Bytes) :
    (c.withStream buffer).receive x f =
      ((c.receive x f).1.withStream buffer, (c.receive x f).2) := by
  unfold receive receiveContinuation
    receiveData receiveFragment collected
    blockFault GivesBack receiveClose
    receivePing closedUnderlyingIo badFrame withStream
  grind

theorem receive_streamBuffer : (c.receive x f).1.streamBuffer = c.streamBuffer := by
  unfold receive receiveContinuation
    receiveData receiveFragment collected
    blockFault GivesBack receiveClose
    receivePing closedUnderlyingIo badFrame
  grind

theorem receiveFrames_withStream (buffer : Bytes) (fs : List WireFrame) :
    receiveFrames x (c.withStream buffer) fs =
      ((receiveFrames x c fs).1.withStream buffer, (receiveFrames x c fs).2) := by
  induction fs generalizing c with
  | nil => rfl
  | cons f fs ih =>
    by_cases hopen : c.uwsState = .uwsStateOpen
    · simp [receiveFrames, hopen, receive_withStream, ih]
    · simp [receiveFrames, hopen]

theorem handledCount_stopped (h : c.uwsState ≠ .uwsStateOpen) (fs : List WireFrame) :
    handledCount x c fs = 0 := by
  cases fs with
  | nil => rfl
  | cons f fs => simp [handledCount, h]

theorem handledCount_withStream (buffer : Bytes) (fs : List WireFrame) :
    handledCount x (c.withStream buffer) fs = handledCount x c fs := by
  induction fs generalizing c with
  | nil => rfl
  | cons f fs ih => simp [handledCount, receive_withStream, ih]

theorem receive_openOrStopped (hst : c.uwsState.openOrStopped = true) :
    (c.receive x f).1.uwsState.openOrStopped = true := by
  unfold receive receiveContinuation
    receiveData receiveFragment collected
    blockFault GivesBack receiveClose
    receivePing closedUnderlyingIo badFrame
  grind [UwsState.openOrStopped]

theorem receive_callbacks : (c.receive x f).1.callbacks = c.callbacks := by
  unfold receive receiveContinuation
    receiveData receiveFragment collected
    blockFault GivesBack receiveClose
    receivePing closedUnderlyingIo badFrame
  grind

end

/-- `P` holds of every frame the client gets to while it is OPEN. -/
def Throughout (x : XioResults) (P : UwsClientInstance → WireFrame → Prop)
    (c : UwsClientInstance) : List WireFrame → Prop
  | [] => True
  | f :: fs => c.uwsState = .uwsStateOpen → P c f ∧ Throughout x P (c.receive x f).1 fs

section

variable {x : XioResults} {P : UwsClientInstance → WireFrame → Prop} {c : UwsClientInstance}

theorem throughout_stopped (hopen : c.uwsState ≠ .uwsStateOpen) (fs : List WireFrame) :
    Throughout x P c fs := by
  cases fs with
  | nil => exact trivial
  | cons f fs => exact fun ho => absurd ho hopen

theorem throughout_withStream (hP : ∀ c buffer f, P (c.withStream buffer) f ↔ P c f)
    (buffer : Bytes) (fs : List WireFrame) :
    Throughout x P (c.withStream buffer) fs ↔ Throughout x P c fs := by
  induction fs generalizing c with
  | nil => rfl
  | cons f fs ih => simp [Throughout, receive_withStream, ih, hP]

theorem throughout_append {fs gs : List WireFrame} (hfs : Throughout x P c fs)
    (hgs : Throughout x P (receiveFrames x c fs).1 gs) : Throughout x P c (fs ++ gs) := by
  induction fs generalizing c with
  | nil => exact hgs
  | cons f fs ih =>
    intro hopen
    have hf := hfs hopen
    refine ⟨hf.1, ih hf.2 ?_⟩
    simpa [receiveFrames, hopen] using hgs

end

/-! ## The decode loop -/

section

variable {x : XioResults} {s : Uws}

/-- One round on a complete frame is the code of its opcode, then the frame is taken out of the
stream buffer. -/
theorem decodeRound_on_frame {ok : (c : Call) → Ans c → Prop} {Q : Bool → Uws → Prop}
    (hopen : s.client.uwsState = .uwsStateOpen) {f : WireFrame} {rest : Bytes}
    (hbuf : s.client.streamBuffer = f.bytes ++ rest)
    (hframe : Quiet uwsCode ok
      (receiveFrame f.opcode { length := f.payload.length, neededBytes := f.bytes.length } f.isFinal)
      (fun d s' => Quiet uwsCode ok (consumeStreamBufferBytes f.bytes.length) (fun _ => Q d) s')
      s) :
    Quiet uwsCode ok decodeRound Q s := by
  have htwo : s.client.streamBuffer.length ≥ 2 := by
    have := f.two_le_length_bytes
    rw [hbuf, List.length_append]
    omega
  have hlead := frame_leadingBytes f rest
  have hfields := encodedFirstByte_fields f.opcode_le f.reserved_le f.isFinal
  have hfl := decodeFrameLength_frame f rest
  rw [← hbuf] at hlead hfl
  have hneed : s.client.streamBuffer.length ≥ f.bytes.length := by
    rw [hbuf, List.length_append]
    omega
  simp only [decodeRound, quiet_bind, quiet_getClient, hopen, decodeFrame]
  rw [if_pos htwo]
  simp only [quiet_bind, hlead.2, ne_eq, not_true_eq_false, if_false, quiet_getClient, hfl,
    Bool.false_eq_true]
  rw [if_pos hneed]
  simp only [quiet_bind, hlead.1, hfields.1, hfields.2]
  refine Quiet.mono hframe ?_
  intro d s' h
  rw [quiet_bind]
  refine Quiet.mono h ?_
  intro _ s'' hQ
  exact (quiet_pure d Q).2 hQ

theorem framePayload_of_buffer {f : WireFrame} {buffer rest : Bytes}
    (hbuf : buffer = f.bytes ++ rest) :
    framePayload buffer { length := f.payload.length, neededBytes := f.bytes.length } =
      f.payload := by
  have hpay := framePayload_frame f rest
  rwa [decodeFrameLength_frame, ← hbuf] at hpay

theorem decodeRound_frame (hopen : s.client.uwsState = .uwsStateOpen)
    (hcb : s.client.callbacks.anyNull = false) {f : WireFrame} {rest : Bytes}
    (hbuf : s.client.streamBuffer = f.bytes ++ rest) :
    Quiet uwsCode (answers x) decodeRound
      (fun d s' => s'.client = (s.client.receive x f).1.withStream rest ∧
        s'.observations = s.observations ++ (s.client.receive x f).2 ∧
          (s'.client.uwsState = .uwsStateOpen → d = !f.endsRound)) s := by
  apply decodeRound_on_frame hopen hbuf
  refine Quiet.mono (receiveFrame_meets hopen hcb (framePayload_of_buffer hbuf) rfl) ?_
  intro d s' h
  have hstream : s'.client.streamBuffer = f.bytes ++ rest := by
    rw [h.client, receive_streamBuffer, hbuf]
  have hfits : f.bytes.length ≤ s'.client.streamBuffer.length := by
    rw [hstream, List.length_append]
    exact Nat.le_add_right _ _
  rw [quiet_consumeStreamBufferBytes, Uws.consumed_of_le hfits]
  refine ⟨?_, h.observations, h.decodeStream⟩
  rw [Uws.setClient_client, hstream, List.drop_left, h.client]

theorem decodeRound_partial {ok : (c : Call) → Ans c → Prop}
    (hopen : s.client.uwsState = .uwsStateOpen) (hpart : PartialFrame s.client.streamBuffer) :
    Quiet uwsCode ok decodeRound (fun d s' => d = false ∧ s' = s) s := by
  simp only [decodeRound, quiet_bind, quiet_getClient, hopen, decodeFrame]
  by_cases htwo : s.client.streamBuffer.length ≥ 2
  · have hwaits := hpart.waits htwo
    have hneed : ¬ s.client.streamBuffer.length ≥
        (decodeFrameLength s.client.streamBuffer).neededBytes := by omega
    rw [if_pos htwo]
    simp only [quiet_bind, hwaits.1, hwaits.2.1, ne_eq, not_true_eq_false, if_false,
      quiet_getClient, Bool.false_eq_true]
    rw [if_neg hneed]
    simp
  · rw [if_neg htwo]
    simp

theorem decodeRound_stopped {ok : (c : Call) → Ans c → Prop}
    (hst : s.client.uwsState.openOrStopped = true) (hopen : s.client.uwsState ≠ .uwsStateOpen) :
    Quiet uwsCode ok decodeRound (fun d s' => d = false ∧ s' = s) s := by
  simp only [decodeRound, quiet_bind, quiet_getClient]
  cases hcase : s.client.uwsState
  all_goals simp [hcase, UwsState.openOrStopped] at hst hopen ⊢

/-- Once the client has stopped, or is not to decode, another round of the loop has no effect. -/
theorem quiet_lastRound {ok : (c : Call) → Ans c → Prop} {Q : Int → Uws → Prop} {d : Bool}
    (hst : s.client.uwsState.openOrStopped = true)
    (hdecode : s.client.uwsState = .uwsStateOpen → d = false) (hQ : Q 0 s) :
    Quiet uwsCode ok (if d then callProc .decodeStream else pure 0) Q s := by
  cases d with
  | false => exact (quiet_pure 0 Q).2 hQ
  | true =>
    have hopen : s.client.uwsState ≠ .uwsStateOpen := fun hopen => by cases hdecode hopen
    rw [if_pos rfl, quiet_callProc, uwsCode, decodeStream, quiet_bind]
    refine Quiet.mono (decodeRound_stopped hst hopen) ?_
    rintro _ s' ⟨rfl, rfl⟩
    exact (quiet_pure 0 Q).2 hQ

/-- The loop consumes the first `handledCount` of the complete frames it finds. -/
theorem decodeStream_frames (fs : List WireFrame) {tail : Bytes}
    (hst : s.client.uwsState.openOrStopped = true) (hcb : s.client.callbacks.anyNull = false)
    (hbuf : s.client.streamBuffer = wireBytes fs ++ tail) (hpart : PartialFrame tail) :
    Quiet uwsCode (answers x) decodeStream
      (fun _ s' =>
        s'.client = (receiveFrames x s.client (fs.take (handledCount x s.client fs))).1.withStream
            (wireBytes (fs.drop (handledCount x s.client fs)) ++ tail) ∧
          s'.observations = s.observations ++
            (receiveFrames x s.client (fs.take (handledCount x s.client fs))).2) s := by
  simp only [decodeStream, quiet_bind]
  induction fs generalizing s with
  | nil =>
    have hself : s.client = s.client.withStream tail := by
      rw [show tail = s.client.streamBuffer from hbuf.symm]
      rfl
    have hround : Quiet uwsCode (answers x) decodeRound (fun d s' => d = false ∧ s' = s) s := by
      by_cases hopen : s.client.uwsState = .uwsStateOpen
      · exact decodeRound_partial hopen (by simpa [hbuf] using hpart)
      · exact decodeRound_stopped hst hopen
    refine Quiet.mono hround ?_
    intro d s' h
    rcases h with ⟨rfl, rfl⟩
    simpa [receiveFrames] using hself
  | cons f fs ih =>
    by_cases hopen : s.client.uwsState = .uwsStateOpen
    · rw [wireBytes_cons, List.append_assoc] at hbuf
      refine Quiet.mono (decodeRound_frame hopen hcb hbuf) ?_
      intro d s' h
      rcases h with ⟨hclient, hobs, hdecode⟩
      have hst' : s'.client.uwsState.openOrStopped = true := by
        rw [hclient]
        exact receive_openOrStopped hst
      have hdone : s'.client =
            (receiveFrames x s.client ((f :: fs).take 1)).1.withStream
              (wireBytes ((f :: fs).drop 1) ++ tail) ∧
          s'.observations = s.observations ++
            (receiveFrames x s.client ((f :: fs).take 1)).2 := by
        simp [receiveFrames, hopen, hclient, hobs]
      by_cases hround : f.endsRound = true
      · have hcount : handledCount x s.client (f :: fs) = 1 := by
          simp [handledCount, hopen, hround]
        rw [hcount]
        exact quiet_lastRound hst' (fun hopen' => by rw [hdecode hopen', hround]; rfl) hdone
      · have hcount : handledCount x s.client (f :: fs) =
            handledCount x s'.client fs + 1 := by
          simp [handledCount, hopen, hround, hclient, handledCount_withStream]
        have hcb' : s'.client.callbacks.anyNull = false := by
          rw [hclient, withStream_callbacks, receive_callbacks, hcb]
        have hbuf' : s'.client.streamBuffer = wireBytes fs ++ tail := by
          rw [hclient]
          rfl
        by_cases hopen' : s'.client.uwsState = .uwsStateOpen
        case neg =>
          -- The frame has stopped the client, whether the loop goes on or not.
          rw [hcount, handledCount_stopped hopen', Nat.zero_add]
          exact quiet_lastRound hst' (fun h => absurd h hopen') hdone
        case pos =>
          simp only [hdecode hopen', hround, Bool.not_false, if_true, quiet_callProc, uwsCode,
            decodeStream, quiet_bind]
          refine Quiet.mono (ih hst' hcb' hbuf') ?_
          intro d s'' h
          refine Quiet.mono h ?_
          intro _ s₃ h₃
          simp only [hcount, List.take_succ_cons, List.drop_succ_cons, receiveFrames, hopen, if_true]
          rw [h₃.1, h₃.2, hobs, hclient, receiveFrames_withStream]
          simp
    · have hself : s.client = s.client.withStream (wireBytes (f :: fs) ++ tail) := by
        rw [← hbuf]
        rfl
      refine Quiet.mono (decodeRound_stopped hst hopen) ?_
      intro d s' h
      rcases h with ⟨rfl, rfl⟩
      simpa [handledCount_stopped hopen, receiveFrames] using hself

end

end SharedUtility.UwsClient
