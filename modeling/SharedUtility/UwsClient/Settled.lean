import SharedUtility.UwsClient.RoundTrip

/-!
# Settled — no decoded frame is left behind

After a PING, a PONG or a frame with a reserved opcode the decode loop is not entered again, so a
complete frame behind it waits for the next chunk.  When no such frame has a complete frame behind
it, the client reads all it can at every call, and what is observed depends on the bytes alone.
-/

namespace SharedUtility.UwsClient

open Reentrant UwsClientInstance

/-- No frame that ends the decode loop while the client stays OPEN has another one behind it. -/
def NothingBehindControl (c : UwsClientInstance) : List WireFrame → Prop
  | [] => True
  | f :: fs =>
    c.uwsState = .uwsStateOpen →
      if f.endsRound then (c.receive {} f).1.uwsState = .uwsStateOpen → fs = []
      else NothingBehindControl (c.receive {} f).1 fs

theorem nothingBehindControl_withStream {c : UwsClientInstance} (buffer : Bytes)
    (fs : List WireFrame) :
    NothingBehindControl (c.withStream buffer) fs ↔ NothingBehindControl c fs := by
  induction fs generalizing c with
  | nil => rfl
  | cons f fs ih => simp [NothingBehindControl, receive_withStream, ih]

/-- The condition on a call with a chunk: that of the frames then at hand. -/
def NothingStuck (s : Uws) (chunk : Bytes) : Prop :=
  NothingBehindControl s.client (splitFrames (s.client.streamBuffer ++ chunk)).1

/-- In the sessions of `s₀` whose calls meet `meets`, every call reads all the complete frames,
whatever its calls return; and when allocations succeed, what is observed is a function of the bytes
and not of the chunks. -/
def ReadsEveryFrame (meets : Uws → Bytes → Prop) (s₀ : Uws) (retained : Bytes)
    (chunks : List Bytes) : Prop :=
  ∀ s' : Uws,
    (Session anyAnswer meets s₀ retained chunks s' →
      s'.client.uwsState = .uwsStateOpen → ¬ StartsWithFrame s'.client.streamBuffer) ∧
    ∀ x : XioResults, Session (answers x) meets s₀ retained chunks s' →
      s'.observations = s₀.observations ++
        (receiveFrames x s₀.client (splitFrames (retained ++ chunks.flatten)).1).2

/-! ## Answers that fail -/

section

variable {s : Uws}

theorem nonempty_ans (c : Call) : Nonempty (Ans c) := by
  cases c
  all_goals exact ⟨default⟩

@[simp] theorem anyAnswer_malloc (Q : Bool → Uws → Prop) :
    Quiet uwsCode anyAnswer malloc Q s ↔ ∀ r, Q r s := by
  simp [quiet_malloc, anyAnswer]

@[simp] theorem anyAnswer_encoderResources (Q : EncoderResources → Uws → Prop) :
    Quiet uwsCode anyAnswer encoderResources Q s ↔ ∀ r, Q r s := by
  simp [quiet_encoderResources, anyAnswer]

@[simp] theorem anyAnswer_callOut (c : Call) (Q : Ans c → Uws → Prop) :
    Quiet uwsCode anyAnswer (callOut c) Q s ↔
      ∀ r, Q r (s.record (.call s.currentOpen c)) := by
  have hans := nonempty_ans c
  simp [quiet_callOut, anyAnswer]

@[simp] theorem anyAnswer_xioClose (p : ClosePurpose) (Q : Int → Uws → Prop) :
    Quiet uwsCode anyAnswer (xioClose p) Q s ↔
      ∀ r, Q r (s.record (.call s.currentOpen (.xioClose p))) :=
  anyAnswer_callOut (.xioClose p) Q

@[simp] theorem anyAnswer_xioSend (p : SendPurpose) (bytes : Bytes) (Q : Int → Uws → Prop) :
    Quiet uwsCode anyAnswer (xioSend p bytes) Q s ↔
      ∀ r, Q r (s.record (.call s.currentOpen (.xioSend p bytes))) :=
  anyAnswer_callOut (.xioSend p bytes) Q

@[simp] theorem anyAnswer_callBack (cb : Callback) (c : Callback → Call)
    (Q : Unit → Uws → Prop) :
    Quiet uwsCode anyAnswer (callBack (some cb) c) Q s ↔
      Q () (s.record (.call s.currentOpen (c cb))) := by
  have hans := nonempty_ans (c cb)
  simp [quiet_callBack, anyAnswer]

variable {f : WireFrame} {rest : Bytes} {fl : FrameLength}

/-- What is sure about a frame when calls may fail: a client that is still OPEN has handled it. -/
def FrameTried (s : Uws) (f : WireFrame) (decodeStream : Bool) (s' : Uws) : Prop :=
  s'.client.uwsState.openOrStopped = true ∧ s'.client.callbacks = s.client.callbacks ∧
    (s'.client.uwsState = .uwsStateOpen →
      s'.client = (s.client.receive {} f).1 ∧ decodeStream = !f.endsRound)

theorem outOfMemory_tried (hcb : s.client.callbacks.anyNull = false) {s' : Uws}
    (hs' : s'.client.callbacks = s.client.callbacks) (decodeStream : Bool) :
    Quiet uwsCode anyAnswer (indicateWsError .wsErrorNotEnoughMemory)
      (fun _ => FrameTried s f decodeStream) s' := by
  rcases OpenCallbacks.exists_of_anyNull hcb with ⟨a, b, d, e, hcb⟩
  simp [indicateWsError, FrameTried, hs', hcb, UwsState.openOrStopped]

theorem processFrameFragment_tried (hcb : s.client.callbacks.anyNull = false)
    (hpay : framePayload s.client.streamBuffer fl = f.payload)
    (hlen : fl.length = f.payload.length) {goOn : UwsComp Bool}
    (hgoOn : ¬ s.client.GivesBack f.payload → Quiet uwsCode anyAnswer goOn (FrameTried s f)
      (s.fragmentChecked.setClient (s.client.collected f.payload))) :
    Quiet uwsCode anyAnswer (do
      let r ← processFrameFragment fl
      if r ≠ 0 then pure false else goOn) (FrameTried s f) s := by
  rw [quiet_bind, quiet_processFrameFragment hpay hlen]
  have hfailed : ∀ s' : Uws, s'.client.callbacks = s.client.callbacks →
      Quiet uwsCode anyAnswer (indicateWsError .wsErrorNotEnoughMemory) (fun _ =>
        Quiet uwsCode anyAnswer (if failure ≠ 0 then pure false else goOn) (FrameTried s f)) s' := by
    intro s' hs'
    refine Quiet.mono (outOfMemory_tried (f := f) hcb hs' false) ?_
    intro _ s'' h
    rw [if_pos (by decide), quiet_pure]
    exact h
  split
  case isTrue => exact hfailed _ (by simp)
  case isFalse hkeeps =>
    refine ⟨⟨true, trivial⟩, ?_⟩
    rintro allocated -
    cases allocated with
    | false => exact hfailed _ (by simp)
    | true => exact hgoOn hkeeps

theorem receiveContinuationFrame_tried (hopen : s.client.uwsState = .uwsStateOpen)
    (hcb : s.client.callbacks.anyNull = false)
    (hpay : framePayload s.client.streamBuffer fl = f.payload)
    (hlen : fl.length = f.payload.length) (hop : f.opcode = wsContinuationFrame) :
    Quiet uwsCode anyAnswer (receiveContinuationFrame fl f.isFinal) (FrameTried s f) s := by
  apply processFrameFragment_tried hcb hpay hlen
  intro hkeeps
  rcases OpenCallbacks.exists_of_anyNull hcb with ⟨a, b, d, e, hcb⟩
  have hround := WireFrame.endsRound_eq_false (.inl hop)
  have hrec := receive_continuation (x := {}) (c := s.client) hop
  simp only [receiveContinuation, receiveFragment] at hrec
  rw [if_neg hkeeps] at hrec
  have hcb' : (s.client.collected f.payload).callbacks = ⟨some a, some b, some d, some e⟩ := hcb
  have hopen' : (s.client.collected f.payload).uwsState = .uwsStateOpen := hopen
  by_cases hfin : f.isFinal = true
  · by_cases hun : (s.client.collected f.payload).fragmentedFrameType = wsFrameTypeUnknown
    · simp [hcb, hcb', hfin, hun, indicateWsError, FrameTried, UwsState.openOrStopped]
    · simp [hcb, hcb', hfin, hun, FrameTried, UwsState.openOrStopped, hopen', hround, hrec]
  · simp [hcb, hcb', hfin, FrameTried, UwsState.openOrStopped, hopen', hround, hrec]

theorem receiveDataFrame_tried (hopen : s.client.uwsState = .uwsStateOpen)
    (hcb : s.client.callbacks.anyNull = false)
    (hpay : framePayload s.client.streamBuffer fl = f.payload)
    (hlen : fl.length = f.payload.length) (hop : f.opcode = wsTextFrame ∨ f.opcode = wsBinaryFrame) :
    Quiet uwsCode anyAnswer (receiveDataFrame f.opcode fl f.isFinal) (FrameTried s f) s := by
  rcases OpenCallbacks.exists_of_anyNull hcb with ⟨a, b, d, e, hcb'⟩
  have hround := WireFrame.endsRound_eq_false (.inr hop)
  have hrec := receive_data (x := {}) (c := s.client) hop
  simp only [receiveDataFrame, quiet_bind, quiet_getClient]
  by_cases hfin : f.isFinal = true
  · simp [hpay, hcb', hfin, FrameTried, hopen, hround, hrec, UwsState.openOrStopped,
      receiveData]
  · by_cases hun : s.client.fragmentedFrameType = wsFrameTypeUnknown
    · simp only [receiveData, hfin, hun, receiveFragment] at hrec
      simp only [hfin, hun, Bool.false_eq_true, if_false, ne_eq, not_true_eq_false]
      apply processFrameFragment_tried hcb hpay hlen
      intro hkeeps
      have hcb'' : (s.client.collected f.payload).callbacks = s.client.callbacks := rfl
      have hopen' : (s.client.collected f.payload).uwsState = .uwsStateOpen := hopen
      simp [hkeeps, FrameTried, hopen', hcb'', hround, hrec, UwsState.openOrStopped]
    · simp [hcb', hfin, hun, indicateWsError, FrameTried, UwsState.openOrStopped]

/-- A client that has stopped is not OPEN, and keeps its callbacks. -/
def Stopped (callbacks : OpenCallbacks) (s : Uws) : Prop :=
  s.client.uwsState.openOrStopped = true ∧ s.client.uwsState ≠ .uwsStateOpen ∧
    s.client.callbacks = callbacks

theorem Stopped.tried {s' : Uws} (h : Stopped s.client.callbacks s') (d : Bool) :
    FrameTried s f d s' :=
  ⟨h.1, h.2.2, fun ho => absurd ho h.2.1⟩

theorem closeUnderlyingIo_stopped (hcb : s.client.callbacks.anyNull = false) (p : ClosePurpose) :
    Quiet uwsCode anyAnswer (closeUnderlyingIo p) (fun _ s' => Stopped s.client.callbacks s') s := by
  rcases OpenCallbacks.exists_of_anyNull hcb with ⟨a, b, d, e, hcb⟩
  simp only [closeUnderlyingIo, quiet_bind, quiet_setUwsState, anyAnswer_xioClose]
  intro r
  by_cases hr : r = 0
  · simp [hr, Stopped, UwsState.openOrStopped]
  · simp [hr, hcb, indicateWsError, Stopped, UwsState.openOrStopped]

theorem receiveCloseFrame_tried (hopen : s.client.uwsState = .uwsStateOpen)
    (hcb : s.client.callbacks.anyNull = false) :
    Quiet uwsCode anyAnswer (receiveCloseFrame fl f.isFinal) (FrameTried s f) s := by
  rcases OpenCallbacks.exists_of_anyNull hcb with ⟨a, b, d, e, hcb'⟩
  have hpeer : ∀ (s₁ : Uws) (closeCode : Option Nat) (extraData : Bytes),
      Stopped s.client.callbacks s₁ →
        Quiet uwsCode anyAnswer (do
          let c ← getClient
          callBack c.callbacks.onWsPeerClosed fun cb => .onWsPeerClosed cb closeCode extraData
          pure false) (FrameTried s f) s₁ := by
    intro s₁ closeCode extraData h
    have hcb₁ : s₁.client.callbacks = ⟨some a, some b, some d, some e⟩ := h.2.2.trans hcb'
    simp only [quiet_bind, quiet_getClient, hcb₁, anyAnswer_callBack, quiet_pure]
    exact Stopped.tried (by simpa [Stopped] using h) false
  simp only [receiveCloseFrame, quiet_bind, quiet_getClient]
  by_cases hfin : f.isFinal = false
  · simp [hcb', hfin, indicateWsError, FrameTried, UwsState.openOrStopped]
  rw [if_neg hfin]
  split
  · simp only [quiet_bind]
    refine Quiet.mono (closeUnderlyingIo_stopped hcb .badCloseReason) ?_
    intro _ s' h
    rw [quiet_pure]
    exact h.tried false
  · simp only [hopen, reduceCtorEq, if_false, quiet_bind, quiet_setUwsState,
      anyAnswer_encoderResources]
    intro res
    split
    · rw [quiet_bind]
      refine Quiet.mono (closeUnderlyingIo_stopped (by simpa using hcb) .closeResponseFailed) ?_
      intro _ s' h
      exact hpeer s' _ _ h
    · simp only [quiet_bind, anyAnswer_xioSend]
      intro r
      split
      · rw [quiet_bind]
        refine Quiet.mono (closeUnderlyingIo_stopped (by simpa using hcb) .closeResponseFailed) ?_
        intro _ s' h
        exact hpeer s' _ _ h
      · apply hpeer
        simp [Stopped, UwsState.openOrStopped]

theorem receivePingFrame_tried (hopen : s.client.uwsState = .uwsStateOpen)
    (hcb : s.client.callbacks.anyNull = false) (hop : f.opcode = wsPingFrame) :
    Quiet uwsCode anyAnswer (receivePingFrame fl f.isFinal) (FrameTried s f) s := by
  rcases OpenCallbacks.exists_of_anyNull hcb with ⟨a, b, d, e, hcb⟩
  have hround : f.endsRound = true := by
    simp only [WireFrame.endsRound, hop]
    decide
  have hrec := receive_ping (x := {}) (c := s.client) hop
  simp only [receivePingFrame, quiet_bind, quiet_getClient]
  by_cases hfin : f.isFinal = false
  · simp [hcb, hfin, indicateWsError, FrameTried, UwsState.openOrStopped]
  · rw [if_neg hfin]
    simp only [quiet_bind, anyAnswer_encoderResources]
    intro res
    split
    · simp [FrameTried, hopen, UwsState.openOrStopped, hround, hrec, hfin,
        receivePing]
    · simp [FrameTried, hopen, UwsState.openOrStopped, hround, hrec, hfin,
        receivePing]

theorem receiveFrame_tried (hopen : s.client.uwsState = .uwsStateOpen)
    (hcb : s.client.callbacks.anyNull = false)
    (hpay : framePayload s.client.streamBuffer fl = f.payload)
    (hlen : fl.length = f.payload.length) :
    Quiet uwsCode anyAnswer (receiveFrame f.opcode fl f.isFinal) (FrameTried s f) s := by
  unfold receiveFrame
  by_cases hcont : f.opcode = wsContinuationFrame
  · rw [if_pos hcont]
    exact receiveContinuationFrame_tried hopen hcb hpay hlen hcont
  by_cases htext : f.opcode = wsTextFrame
  · rw [if_neg hcont, if_pos htext, receiveTextFrame]
    have htried := receiveDataFrame_tried hopen hcb hpay hlen (.inl htext)
    rwa [htext] at htried
  by_cases hbinary : f.opcode = wsBinaryFrame
  · rw [if_neg hcont, if_neg htext, if_pos hbinary, receiveBinaryFrame]
    have htried := receiveDataFrame_tried hopen hcb hpay hlen (.inr hbinary)
    rwa [hbinary] at htried
  rw [if_neg hcont, if_neg htext, if_neg hbinary]
  by_cases hclose : f.opcode = wsCloseFrame
  · rw [if_pos hclose]
    exact receiveCloseFrame_tried hopen hcb
  by_cases hping : f.opcode = wsPingFrame
  · rw [if_neg hclose, if_pos hping]
    exact receivePingFrame_tried hopen hcb hping
  · have hround : f.endsRound = true := by
      simp [WireFrame.endsRound, hcont, htext, hbinary]
    have hrec := receive_other (x := {}) (c := s.client) hround hclose hping
    rw [if_neg hclose, if_neg hping, quiet_pure]
    simp [FrameTried, hopen, UwsState.openOrStopped, hround, hrec]

theorem decodeRound_tried (hopen : s.client.uwsState = .uwsStateOpen)
    (hcb : s.client.callbacks.anyNull = false)
    (hbuf : s.client.streamBuffer = f.bytes ++ rest) :
    Quiet uwsCode anyAnswer decodeRound
      (fun d s' => s'.client.uwsState.openOrStopped = true ∧
        s'.client.callbacks = s.client.callbacks ∧
          (s'.client.uwsState = .uwsStateOpen →
            s'.client = (s.client.receive {} f).1.withStream rest ∧ d = !f.endsRound)) s := by
  apply decodeRound_on_frame hopen hbuf
  refine Quiet.mono (receiveFrame_tried hopen hcb (framePayload_of_buffer hbuf) rfl) ?_
  intro d s' h
  rw [quiet_consumeStreamBufferBytes]
  refine ⟨by simpa using h.1, by simpa using h.2.1, ?_⟩
  intro hopen'
  have hclient := h.2.2 (by simpa using hopen')
  refine ⟨?_, hclient.2⟩
  rw [Uws.consumed_client, hclient.1, receive_streamBuffer, hbuf, List.drop_left]

theorem decodeRound_idle {tail : Bytes} (hst : s.client.uwsState.openOrStopped = true)
    (hbuf : s.client.uwsState = .uwsStateOpen → s.client.streamBuffer = tail)
    (hpart : PartialFrame tail) :
    Quiet uwsCode anyAnswer decodeRound (fun d s' => d = false ∧ s' = s) s := by
  by_cases hopen : s.client.uwsState = .uwsStateOpen
  · exact decodeRound_partial hopen (hbuf hopen ▸ hpart)
  · exact decodeRound_stopped hst hopen

theorem decodeStream_settles (fs : List WireFrame) {tail : Bytes}
    (hst : s.client.uwsState.openOrStopped = true) (hcb : s.client.callbacks.anyNull = false)
    (hbuf : s.client.uwsState = .uwsStateOpen → s.client.streamBuffer = wireBytes fs ++ tail)
    (hpart : PartialFrame tail) (hnothing : NothingBehindControl s.client fs) :
    Quiet uwsCode anyAnswer decodeStream
      (fun _ s' => s'.client.uwsState.openOrStopped = true ∧
        s'.client.callbacks = s.client.callbacks ∧
          (s'.client.uwsState = .uwsStateOpen → s'.client.streamBuffer = tail)) s := by
  simp only [decodeStream, quiet_bind]
  induction fs generalizing s with
  | nil =>
    refine Quiet.mono (decodeRound_idle hst hbuf hpart) ?_
    intro d s' h
    rcases h with ⟨rfl, rfl⟩
    simpa [hst] using hbuf
  | cons f fs ih =>
    by_cases hopen : s.client.uwsState = .uwsStateOpen
    · have hframe := hbuf hopen
      rw [wireBytes_cons, List.append_assoc] at hframe
      refine Quiet.mono (decodeRound_tried hopen hcb hframe) ?_
      intro d s' h
      rcases h with ⟨hst', hcb', hclient⟩
      by_cases hround : d = true
      · subst hround
        have hcb'' : s'.client.callbacks.anyNull = false := by rw [hcb', hcb]
        have hrest : s'.client.uwsState = .uwsStateOpen →
            s'.client.streamBuffer = wireBytes fs ++ tail ∧
              NothingBehindControl s'.client fs := by
          intro hopen'
          rcases hclient hopen' with ⟨hclient, hends⟩
          have hends : f.endsRound = false := by simpa using hends.symm
          have hcond := hnothing hopen
          rw [hends, if_neg Bool.false_ne_true] at hcond
          rw [hclient]
          exact ⟨rfl, (nothingBehindControl_withStream _ fs).2 hcond⟩
        simp only [if_true, quiet_callProc, uwsCode, decodeStream, quiet_bind]
        rw [← hcb']
        by_cases hopen' : s'.client.uwsState = .uwsStateOpen
        · exact ih hst' hcb'' (fun _ => (hrest hopen').1) (hrest hopen').2
        · refine Quiet.mono (decodeRound_stopped hst' hopen') ?_
          intro d s'' h
          rcases h with ⟨rfl, rfl⟩
          simp [hst', hopen']
      · have hd : d = false := by simpa using hround
        subst hd
        simp only [Bool.false_eq_true, if_false, quiet_pure]
        refine ⟨hst', hcb', ?_⟩
        intro hopen'
        rcases hclient hopen' with ⟨hclient, hends⟩
        have hends : f.endsRound = true := by simpa using hends.symm
        have hcond := hnothing hopen
        rw [hends, if_pos rfl] at hcond
        rw [hclient] at hopen'
        rw [hclient, hcond hopen']
        rfl
    · refine Quiet.mono (decodeRound_stopped hst hopen) ?_
      intro d s' h
      rcases h with ⟨rfl, rfl⟩
      simp [hst, hopen]

/-- What the calls so far have left of the bytes received, whatever failed. -/
structure SettledSoFar (bs : Bytes) (s : Uws) : Prop where
  openOrStopped : s.client.uwsState.openOrStopped = true
  callbacks : s.client.callbacks.anyNull = false
  buffered : s.client.uwsState = .uwsStateOpen → s.client.streamBuffer = (splitFrames bs).2

theorem SettledSoFar.chunk {bs chunk : Bytes} (hne : chunk ≠ []) (h : SettledSoFar bs s)
    (hpart : PartialFrame (splitFrames (bs ++ chunk)).2) (hstuck : NothingStuck s chunk) :
    Quiet uwsCode anyAnswer (uwsCode (.onUnderlyingIoBytesReceived (some chunk)))
      (fun _ s' => SettledSoFar (bs ++ chunk) s') s := by
  simp only [uwsCode, void, quiet_bind, onUnderlyingIoBytesReceived_nonempty hne, receiveBytes,
    quiet_getClient]
  by_cases hopen : s.client.uwsState = .uwsStateOpen
  · simp only [hopen, quiet_bind, anyAnswer_malloc]
    intro allocated
    cases allocated with
    | false =>
      rcases OpenCallbacks.exists_of_anyNull h.callbacks with ⟨a, b, d, e, hcb⟩
      simp only [if_true, indicateWsError, quiet_bind, quiet_setUwsState, quiet_getClient,
        Uws.setState_client, hcb, anyAnswer_callBack, quiet_pure]
      constructor
      case openOrStopped => rfl
      case callbacks =>
        rw [Uws.record_client, Uws.setState_client, hcb]
        rfl
      case buffered =>
        intro hopen'
        cases hopen'
    | true =>
      have hspec := (splitFrames_spec (s.client.streamBuffer ++ chunk)).1
      have hrest : (splitFrames (s.client.streamBuffer ++ chunk)).2 =
          (splitFrames (bs ++ chunk)).2 := by
        rw [h.buffered hopen, splitFrames_append bs chunk]
      rw [hrest] at hspec
      simp only [Bool.true_eq_false, if_false, quiet_bind, appendReceivedBytes,
        quiet_modifyClient, quiet_callProc, uwsCode]
      refine Quiet.mono (decodeStream_settles
        (s := s.setClient (s.client.withStream (s.client.streamBuffer ++ chunk)))
        (splitFrames (s.client.streamBuffer ++ chunk)).1 h.openOrStopped h.callbacks
        (fun _ => hspec) hpart ((nothingBehindControl_withStream _ _).2 hstuck)) ?_
      intro _ s' h'
      simp only [quiet_pure]
      exact ⟨h'.1, h'.2.1 ▸ h.callbacks, h'.2.2⟩
  · have hst := h.openOrStopped
    have hstopped : SettledSoFar (bs ++ chunk) s := ⟨hst, h.callbacks, fun ho => absurd ho hopen⟩
    cases hcase : s.client.uwsState
    all_goals simp [hcase, UwsState.openOrStopped, hstopped] at hst hopen ⊢

end

/-! ## The property -/

theorem receive_results (x : XioResults) (c : UwsClientInstance) (f : WireFrame) :
    c.receive x f = c.receive {} f ∨
      (c.receive x f).1.uwsState ≠ .uwsStateOpen ∧
        (c.receive {} f).1.uwsState ≠ .uwsStateOpen := by
  by_cases hclose : f.opcode = wsCloseFrame
  · rw [receive_close hclose, receive_close hclose]
    unfold receiveClose closedUnderlyingIo
      badFrame
    grind
  · refine .inl ?_
    simp [receive, hclose]

theorem NothingBehindControl.getsThrough {x : XioResults} {c : UwsClientInstance}
    {fs : List WireFrame} (h : NothingBehindControl c fs) : GetsThrough x c fs := by
  induction fs generalizing c with
  | nil => exact .inl rfl
  | cons f fs ih =>
    by_cases hopen : c.uwsState = .uwsStateOpen
    · have hcond := h hopen
      by_cases hround : f.endsRound = true
      · have hcount : handledCount x c (f :: fs) = 1 := by simp [handledCount, hopen, hround]
        rw [if_pos hround] at hcond
        rcases receive_results x c f with heq | hstop
        · by_cases hstill : (c.receive {} f).1.uwsState = .uwsStateOpen
          · exact .inl (by rw [hcount, hcond hstill, List.length_singleton])
          · exact .inr (by simpa [hcount, receiveFrames, hopen, heq] using hstill)
        · exact .inr (by simpa [hcount, receiveFrames, hopen] using hstop.1)
      · have hcount : handledCount x c (f :: fs) = handledCount x (c.receive x f).1 fs + 1 := by
          simp [handledCount, hopen, hround]
        rw [if_neg hround] at hcond
        have hthrough : GetsThrough x (c.receive x f).1 fs := by
          rcases receive_results x c f with heq | hstop
          · rw [heq]
            exact ih hcond
          · refine .inr ?_
            simpa [handledCount_stopped hstop.1, receiveFrames] using hstop.1
        rcases hthrough with hall | hstop
        · exact .inl (by rw [hcount, hall, List.length_cons])
        · refine .inr ?_
          rw [hcount, List.take_succ_cons]
          simpa [receiveFrames, hopen] using hstop
    · refine .inr ?_
      simpa [handledCount_stopped hopen, receiveFrames] using hopen

/-- If at every call nothing is behind a control frame, every frame is read. -/
theorem readsEveryFrame_of_nothingStuck {s₀ : Uws} {retained : Bytes} {chunks : List Bytes}
    {frames : List WireFrame} (h₀ : Ready s₀.client)
    (hwire : retained ++ chunks.flatten <+: wireBytes frames) :
    ReadsEveryFrame NothingStuck s₀ retained chunks := by
  intro s'
  have hempty : NothingStuck s₀ retained → NothingBehindControl s₀.client (splitFrames retained).1 := by
    intro h
    simpa [NothingStuck, h₀.streamBuffer] using h
  constructor
  · intro h
    rcases h with ⟨r, s₁, hstuck, heval, hchunks⟩
    have hretained : retained <+: wireBytes frames := (List.prefix_append _ _).trans hwire
    have hpart := (splitFrames_of_isPrefix hretained).2
    have hstart := decodeStream_settles (s := s₀.setClient (s₀.client.withStream retained))
      (splitFrames retained).1 (by simp [h₀.uwsState, UwsState.openOrStopped])
      (by simpa using h₀.callbacks) (fun _ => (splitFrames_spec retained).1) hpart
      ((nothingBehindControl_withStream _ _).2 (hempty hstuck))
    have hfirst := Returns.of_eval heval hstart
    have hsettled : SettledSoFar (retained ++ chunks.flatten) s' := by
      refine Receives.invariant (I := SettledSoFar) ?_ hchunks hwire
        ⟨hfirst.1, hfirst.2.1 ▸ h₀.callbacks, hfirst.2.2⟩
      intro bs s chunk hne hmeets hpre hI
      exact hI.chunk hne (splitFrames_of_isPrefix hpre).2 hmeets
    intro hopen
    rw [hsettled.buffered hopen]
    exact (splitFrames_spec _).2
  · intro x h
    refine (Session.handledAll h₀ hwire (fun hmeets => (hempty hmeets).getsThrough) ?_ h).observations
    intro bs s chunk hmeets _ _ _
    exact hmeets.getsThrough

def textA : WireFrame := dataFrame .text true ⟨[0x41], by decide⟩

def emptyPing : WireFrame :=
  { textA with opcode := wsPingFrame, payload := [], opcode_le := by decide, payload_lt := by decide }

/-- A TEXT and a PING frame in one chunk meet the condition. -/
theorem readsEveryFrame_textThenPing :
    ∃ s', Session (answers {}) NothingStuck { client := openClient } [] [textA.bytes ++ emptyPing.bytes]
        s' ∧
      s'.observations = [.received wsFrameTypeText [0x41],
        .sent (some { opcode := wsPongFrame, isFinal := true, payload := [] })] := by
  have hsplit : splitFrames (textA.bytes ++ emptyPing.bytes) = ([textA, emptyPing], []) :=
    splitFrames_frames [textA, emptyPing]
  have hnil : NothingStuck { client := openClient } [] := by
    rw [NothingStuck, show openClient.streamBuffer ++ [] = [] from rfl, splitFrames_nil]
    exact trivial
  have hstuck : NothingStuck { client := openClient } (textA.bytes ++ emptyPing.bytes) := by
    rw [NothingStuck, show openClient.streamBuffer ++ (textA.bytes ++ emptyPing.bytes) =
      textA.bytes ++ emptyPing.bytes from rfl, hsplit]
    intro _ _ _
    rfl
  have hstart := eval_start answers_succeeds
  have hcall : ∃ s', Eval uwsCode (answers {})
      (uwsCode (.onUnderlyingIoBytesReceived (some (textA.bytes ++ emptyPing.bytes)))
        { client := openClient }) 0 s' := ⟨_, Prog.eval_sound answers_succeeds 30 rfl⟩
  rcases hcall with ⟨s', hs'⟩
  have hsession : Session (answers {}) NothingStuck { client := openClient } []
      [textA.bytes ++ emptyPing.bytes] s' :=
    ⟨0, _, hnil, hstart, .chunk (by decide) hstuck hs' (.done s')⟩
  refine ⟨s', hsession, ?_⟩
  have hwire : [] ++ [textA.bytes ++ emptyPing.bytes].flatten <+: wireBytes [textA, emptyPing] :=
    ⟨[], rfl⟩
  have hall := (readsEveryFrame_of_nothingStuck ready_openClient hwire s').2 {} hsession
  rw [show [] ++ [textA.bytes ++ emptyPing.bytes].flatten = textA.bytes ++ emptyPing.bytes from rfl,
    hsplit] at hall
  exact hall

/-- A PING and a TEXT frame in one chunk: the TEXT frame is left in the stream buffer. -/
theorem pingThenText_leftBehind :
    ¬ ∀ (s₀ : Uws) (retained : Bytes) (chunks : List Bytes) (frames : List WireFrame),
        Ready s₀.client → retained ++ chunks.flatten <+: wireBytes frames →
          ReadsEveryFrame (fun _ _ => True) s₀ retained chunks := by
  intro h
  have hstart := @eval_start anyAnswer fun _ => trivial
  have hcall : ∃ s', Eval uwsCode anyAnswer
      (uwsCode (.onUnderlyingIoBytesReceived (some (emptyPing.bytes ++ textA.bytes)))
        { client := openClient }) 0 s' ∧ s'.client.uwsState = .uwsStateOpen ∧
          s'.client.streamBuffer = textA.bytes :=
    ⟨_, Prog.eval_sound (f := succeeds) (fun _ => trivial) 30 rfl, rfl, rfl⟩
  rcases hcall with ⟨s', hs', hopen, hbuf⟩
  have hsession : Session anyAnswer (fun _ _ => True) { client := openClient } []
      [emptyPing.bytes ++ textA.bytes] s' :=
    ⟨0, _, trivial, hstart, .chunk (by decide) trivial hs' (.done s')⟩
  have hwire : [] ++ [emptyPing.bytes ++ textA.bytes].flatten <+: wireBytes [emptyPing, textA] :=
    ⟨[], rfl⟩
  have hread := (h _ _ _ _ ready_openClient hwire s').1 hsession hopen
  rw [hbuf] at hread
  exact hread ⟨textA, List.prefix_refl _⟩

end SharedUtility.UwsClient
