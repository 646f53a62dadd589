import SharedUtility.UwsClient.Settled

/-!
# ControlFrames — CLOSE, PING and PONG

`receiveChecked` states what is intended: a control frame that is not final, or carries more than
125 bytes, is a protocol error that is indicated and not acted on.  The client checks no length, and
of a PONG frame not even the FIN bit; on all other frames it does what is intended.
-/

namespace SharedUtility.UwsClient

open Reentrant UwsClientInstance

def WireFrame.isControl (f : WireFrame) : Bool :=
  f.opcode == wsCloseFrame || f.opcode == wsPingFrame || f.opcode == wsPongFrame

/-- A control frame that has to be refused. -/
def WireFrame.badControl (f : WireFrame) : Bool :=
  f.isControl && (!f.isFinal || f.payload.length > 125)

/-- A PING or PONG frame that need not be refused. -/
def WireFrame.goodPingPong (f : WireFrame) : Bool :=
  (f.opcode == wsPingFrame || f.opcode == wsPongFrame) && !f.badControl

/-- What is intended to be made of a frame. -/
def UwsClientInstance.receiveChecked (x : XioResults) (c : UwsClientInstance) (f : WireFrame) :
    UwsClientInstance × List Observation :=
  if f.badControl then c.badFrame else c.receive x f

def receiveFramesChecked (x : XioResults) (c : UwsClientInstance) :
    List WireFrame → UwsClientInstance × List Observation
  | [] => (c, [])
  | f :: fs =>
    if c.uwsState = .uwsStateOpen then
      let r := c.receiveChecked x f
      let r' := receiveFramesChecked x r.1 fs
      (r'.1, r.2 ++ r'.2)
    else (c, [])

/-- The frames the client gets to while it is OPEN. -/
def framesReached (x : XioResults) (c : UwsClientInstance) : List WireFrame → List WireFrame
  | [] => []
  | f :: fs =>
    if c.uwsState = .uwsStateOpen then f :: framesReached x (c.receiveChecked x f).1 fs else []

def Observation.asMessage : Observation → Option (UInt8 × Bytes)
  | .received frameType payload => some (frameType, payload)
  | _ => none

/-- The payload of a PONG frame that was sent final and masked. -/
def Observation.asPong : Observation → Option Bytes
  | .sent (some frame) =>
    if frame.opcode = wsPongFrame ∧ frame.isFinal = true then some frame.payload else none
  | _ => none

/-- The answer a frame asks for. -/
def WireFrame.asksPong (f : WireFrame) : Option Bytes :=
  if f.opcode = wsPingFrame ∧ f.badControl = false then some f.payload else none

/-- Control frames are handled exactly in a session that takes `s₀` to `s'` with the bytes `bs`: what
is observed is what is intended; the PONG frames answer the good PING frames, in order; and the
messages are those of the frames without the good PING and PONG frames. -/
def HandlesControlFrames (x : XioResults) (s₀ : Uws) (bs : Bytes) (s' : Uws) : Prop :=
  let received := (splitFrames bs).1
  let intended := receiveFramesChecked x s₀.client received
  s'.observations = s₀.observations ++ intended.2 ∧
    intended.2.filterMap Observation.asPong =
      (framesReached x s₀.client received).filterMap WireFrame.asksPong ∧
    intended.2.filterMap Observation.asMessage =
      (receiveFramesChecked x s₀.client
        (received.filter fun f => !f.goodPingPong)).2.filterMap Observation.asMessage

/-! ## The intended handling -/

section

variable {x : XioResults} {c : UwsClientInstance} {f : WireFrame}

theorem receiveFramesChecked_badControl (hopen : c.uwsState = .uwsStateOpen)
    (hbad : f.badControl = true) (fs : List WireFrame) :
    receiveFramesChecked x c (f :: fs) =
      ({ c with uwsState := .uwsStateError }, [.error .wsErrorBadFrameReceived]) := by
  have hstop : receiveFramesChecked x c.badFrame.1 fs = (c.badFrame.1, []) := by
    cases fs with
    | nil => rfl
    | cons g gs => simp [receiveFramesChecked, badFrame]
  simp only [receiveFramesChecked, hopen, if_true, receiveChecked, hbad, hstop]
  simp [badFrame]

theorem receiveChecked_goodPingPong (hgood : f.goodPingPong = true) :
    (c.receiveChecked x f).1 = c ∧
      (c.receiveChecked x f).2.filterMap Observation.asMessage = [] := by
  simp only [WireFrame.goodPingPong, Bool.and_eq_true, Bool.or_eq_true, beq_iff_eq,
    Bool.not_eq_true'] at hgood
  rcases hgood with ⟨hop | hop, hgood⟩
  · have hfin : f.isFinal = true := by
      simp [WireFrame.badControl, WireFrame.isControl, hop] at hgood
      exact hgood.1
    simp [receiveChecked, hgood, receive_ping hop, receivePing,
      hfin, Observation.asMessage]
  · have hrec : c.receive x f = (c, []) := by
      simp only [receive, hop]
      rfl
    simp [receiveChecked, hgood, hrec]

theorem messages_without_pingPong (fs : List WireFrame) :
    (receiveFramesChecked x c fs).2.filterMap Observation.asMessage =
      (receiveFramesChecked x c (fs.filter fun f => !f.goodPingPong)).2.filterMap
        Observation.asMessage := by
  induction fs generalizing c with
  | nil => rfl
  | cons f fs ih =>
    by_cases hopen : c.uwsState = .uwsStateOpen
    · by_cases hgood : f.goodPingPong = true
      · have hstep := receiveChecked_goodPingPong (x := x) (c := c) hgood
        rw [List.filter_cons_of_neg (by simp [hgood]), receiveFramesChecked, if_pos hopen]
        simp only [List.filterMap_append, hstep.1, hstep.2, List.nil_append, ih]
      · rw [List.filter_cons_of_pos (by simp [hgood]), receiveFramesChecked, if_pos hopen,
          receiveFramesChecked, if_pos hopen]
        simp only [List.filterMap_append, ih]
    · have hstop : ∀ gs, receiveFramesChecked x c gs = (c, []) := by
        intro gs
        cases gs with
        | nil => rfl
        | cons g gs => simp [receiveFramesChecked, hopen]
      rw [hstop, hstop]

theorem receive_noPong (hping : f.opcode ≠ wsPingFrame) :
    (c.receive x f).2.filterMap Observation.asPong = [] := by
  have hclosed : ∀ c : UwsClientInstance,
      (c.closedUnderlyingIo x).2.filterMap Observation.asPong = [] := by
    intro c
    unfold closedUnderlyingIo
    split
    · rfl
    · rfl
  by_cases hcont : f.opcode = wsContinuationFrame
  · rw [receive_continuation hcont]
    unfold receiveContinuation receiveFragment
      blockFault badFrame
    grind [Observation.asPong]
  by_cases hdata : f.opcode = wsTextFrame ∨ f.opcode = wsBinaryFrame
  · rw [receive_data hdata]
    unfold receiveData receiveFragment
      blockFault badFrame
    grind [Observation.asPong]
  by_cases hclose : f.opcode = wsCloseFrame
  · have hpong : wsCloseFrame ≠ wsPongFrame := by decide
    rw [receive_close hclose]
    unfold receiveClose badFrame
    split
    · rfl
    split
    · exact hclosed c
    · split
      · simp [hclosed, Observation.asPong, hpong]
      · simp [Observation.asPong, hpong]
  · have hround : f.endsRound = true := by
      rw [not_or] at hdata
      simp [WireFrame.endsRound, hcont, hdata]
    rw [receive_other hround hclose hping]
    rfl

theorem receiveChecked_pongs :
    (c.receiveChecked x f).2.filterMap Observation.asPong = f.asksPong.toList := by
  by_cases hbad : f.badControl = true
  · simp [receiveChecked, hbad, badFrame, WireFrame.asksPong,
      Observation.asPong]
  have hbad : f.badControl = false := by simpa using hbad
  simp only [receiveChecked, hbad, Bool.false_eq_true, if_false]
  by_cases hping : f.opcode = wsPingFrame
  · have hfin : f.isFinal = true := by
      simp [WireFrame.badControl, WireFrame.isControl, hping] at hbad
      exact hbad.1
    simp [receive_ping hping, receivePing, hfin, WireFrame.asksPong, hping, hbad,
      Observation.asPong]
  · have hasks : f.asksPong = none := by simp [WireFrame.asksPong, hping]
    rw [hasks, receive_noPong hping]
    rfl

theorem pongs_of_framesReached (fs : List WireFrame) :
    (receiveFramesChecked x c fs).2.filterMap Observation.asPong =
      (framesReached x c fs).filterMap WireFrame.asksPong := by
  induction fs generalizing c with
  | nil => rfl
  | cons f fs ih =>
    by_cases hopen : c.uwsState = .uwsStateOpen
    · simp only [receiveFramesChecked, framesReached, hopen, if_true, List.filterMap_append,
        receiveChecked_pongs, ih]
      cases h : f.asksPong with
      | none => simp [h]
      | some payload => simp [h]
    · simp [receiveFramesChecked, framesReached, hopen]

end

/-! ## Where the code does what is intended -/

/-- A bad control frame the client does not refuse: a PONG, or a final one that is too long. -/
def WireFrame.misjudged (f : WireFrame) : Bool :=
  f.badControl && (f.opcode == wsPongFrame || f.isFinal)

/-- No misjudged frame is among those the client gets to while it is OPEN. -/
def NoneMisjudged (x : XioResults) : UwsClientInstance → List WireFrame → Prop :=
  Throughout x fun _ f => f.misjudged = false

/-- The condition on a call with a chunk. -/
def ControlsInOrder (x : XioResults) (s : Uws) (chunk : Bytes) : Prop :=
  NothingStuck s chunk ∧
    NoneMisjudged x s.client (splitFrames (s.client.streamBuffer ++ chunk)).1

section

variable {x : XioResults} {c : UwsClientInstance}

theorem receive_checked {f : WireFrame} (h : f.misjudged = false) :
    c.receive x f = c.receiveChecked x f := by
  unfold receiveChecked
  by_cases hbad : f.badControl = true
  · rw [if_pos hbad]
    simp only [WireFrame.misjudged, hbad, Bool.true_and, Bool.or_eq_false_iff, beq_eq_false_iff_ne,
      ne_eq] at h
    rcases h with ⟨hpong, hfin⟩
    have hop : f.opcode = wsCloseFrame ∨ f.opcode = wsPingFrame := by
      simpa [WireFrame.badControl, WireFrame.isControl, hpong, hfin] using hbad
    rcases hop with hop | hop
    · simp [receive_close hop, receiveClose, hfin]
    · simp [receive_ping hop, receivePing, hfin]
  · rw [if_neg hbad]

theorem receiveFrames_checked {fs : List WireFrame} (h : NoneMisjudged x c fs) :
    receiveFrames x c fs = receiveFramesChecked x c fs := by
  induction fs generalizing c with
  | nil => rfl
  | cons f fs ih =>
    by_cases hopen : c.uwsState = .uwsStateOpen
    · have hf := h hopen
      have hrest := ih hf.2
      rw [receive_checked hf.1] at hrest
      simp [receiveFrames, receiveFramesChecked, hopen, receive_checked hf.1, hrest]
    · simp [receiveFrames, receiveFramesChecked, hopen]

theorem ControlsInOrder.chunk {s₀ s : Uws} {bs chunk : Bytes} (hcall : ControlsInOrder x s chunk)
    (hall : HandledAll x s₀ bs s) (hnone : NoneMisjudged x s₀.client (splitFrames bs).1) :
    NoneMisjudged x s₀.client (splitFrames (bs ++ chunk)).1 := by
  rw [splitFrames_append]
  apply throughout_append hnone
  by_cases hopen : s.client.uwsState = .uwsStateOpen
  · have hframes := hcall.2
    rw [hall.buffered hopen, hall.client] at hframes
    exact (throughout_withStream (fun _ _ _ => Iff.rfl) _ _).1 hframes
  · apply throughout_stopped
    rwa [hall.client, withStream_uwsState] at hopen

end

/-- If the calls meet the condition, control frames are handled exactly. -/
theorem handlesControlFrames_of_controlsInOrder {x : XioResults} {s₀ s' : Uws} {retained : Bytes}
    {chunks : List Bytes} {frames : List WireFrame} (h₀ : Ready s₀.client)
    (hwire : retained ++ chunks.flatten <+: wireBytes frames)
    (h : Session (answers x) (ControlsInOrder x) s₀ retained chunks s') :
    HandlesControlFrames x s₀ (retained ++ chunks.flatten) s' := by
  rcases h with ⟨r, s₁, hmeets, heval, hchunks⟩
  have hretained : retained <+: wireBytes frames := (List.prefix_append _ _).trans hwire
  have hpart := (splitFrames_of_isPrefix hretained).2
  rw [ControlsInOrder, NothingStuck, h₀.streamBuffer, List.nil_append] at hmeets
  have hfirst := Returns.of_eval heval (HandledAll.start h₀ hpart hmeets.1.getsThrough)
  have hrun : HandledAll x s₀ (retained ++ chunks.flatten) s' ∧
      NoneMisjudged x s₀.client (splitFrames (retained ++ chunks.flatten)).1 := by
    refine Receives.invariant
      (I := fun bs s => HandledAll x s₀ bs s ∧ NoneMisjudged x s₀.client (splitFrames bs).1)
      ?_ hchunks hwire ⟨hfirst, hmeets.2⟩
    intro bs s chunk hne hcall hpre hI
    refine Quiet.mono (hI.1.chunk hne h₀ (splitFrames_of_isPrefix hpre).2
      fun _ => hcall.1.getsThrough) ?_
    intro _ s' hall
    exact ⟨hall, hcall.chunk hI.1 hI.2⟩
  have hobs := hrun.1.observations
  rw [receiveFrames_checked hrun.2] at hobs
  exact ⟨hobs, pongs_of_framesReached _, messages_without_pingPong _⟩

def firstFragment : WireFrame := { textA with isFinal := false }

def lastFragment : WireFrame := continuationFrame true ⟨[0x42], by decide⟩

theorem eval_pingBetweenFragments :
    ∃ s₁ s', Eval uwsCode (answers {})
        (uwsCode (.onUnderlyingIoBytesReceived (some (firstFragment.bytes ++ emptyPing.bytes)))
          { client := openClient }) 0 s₁ ∧ s₁.client.streamBuffer = [] ∧
      Eval uwsCode (answers {})
        (uwsCode (.onUnderlyingIoBytesReceived (some lastFragment.bytes)) s₁) 0 s' :=
  ⟨_, _, Prog.eval_sound answers_succeeds 30 rfl, rfl, Prog.eval_sound answers_succeeds 30 rfl⟩

/-- A PING frame between the fragments of a message, at the end of a chunk. -/
theorem handlesControlFrames_pingBetweenFragments :
    ∃ s', Session (answers {}) (ControlsInOrder {}) { client := openClient } []
        [firstFragment.bytes ++ emptyPing.bytes, lastFragment.bytes] s' ∧
      s'.observations = [.sent (some { opcode := wsPongFrame, isFinal := true, payload := [] }),
        .received wsFrameTypeText [0x41, 0x42]] := by
  have hstart := eval_start answers_succeeds
  rcases eval_pingBetweenFragments with ⟨s₁, s', hs₁, hbuf, hs'⟩
  have hcall₀ : ControlsInOrder {} { client := openClient } [] := by
    rw [ControlsInOrder, NothingStuck, show openClient.streamBuffer ++ [] = wireBytes [] from rfl,
      splitFrames_frames]
    exact ⟨trivial, trivial⟩
  have hcall₁ : ControlsInOrder {} { client := openClient }
      (firstFragment.bytes ++ emptyPing.bytes) := by
    rw [ControlsInOrder, NothingStuck, show openClient.streamBuffer ++ (firstFragment.bytes ++
      emptyPing.bytes) = wireBytes [firstFragment, emptyPing] from rfl,
      splitFrames_frames]
    exact ⟨fun _ _ _ => rfl, fun _ => ⟨rfl, fun _ => ⟨rfl, trivial⟩⟩⟩
  have hcall₂ : ControlsInOrder {} s₁ lastFragment.bytes := by
    rw [ControlsInOrder, NothingStuck, hbuf, show [] ++ lastFragment.bytes =
      wireBytes [lastFragment] from rfl, splitFrames_frames]
    exact ⟨fun _ => trivial, fun _ => ⟨rfl, trivial⟩⟩
  have hsession : Session (answers {}) (ControlsInOrder {}) { client := openClient } []
      [firstFragment.bytes ++ emptyPing.bytes, lastFragment.bytes] s' :=
    ⟨0, _, hcall₀, hstart, .chunk (by decide) hcall₁ hs₁ (.chunk (by decide) hcall₂ hs' (.done s'))⟩
  have hwire : [] ++ [firstFragment.bytes ++ emptyPing.bytes, lastFragment.bytes].flatten =
      wireBytes [firstFragment, emptyPing, lastFragment] := rfl
  have hhandled := (handlesControlFrames_of_controlsInOrder ready_openClient
    ⟨[], (List.append_nil _).trans hwire⟩ hsession).1
  rw [hwire, splitFrames_frames] at hhandled
  exact ⟨s', hsession, hhandled⟩

def nonFinalPong : WireFrame :=
  { emptyPing with opcode := wsPongFrame, isFinal := false, opcode_le := by decide }

/-- A PONG frame that is not final is not refused. -/
theorem nonFinalPong_notRefused :
    ¬ ∀ (x : XioResults) (s₀ s' : Uws) (retained : Bytes) (chunks : List Bytes)
        (frames : List WireFrame),
        Ready s₀.client → retained ++ chunks.flatten <+: wireBytes frames →
          Session (answers x) (fun _ _ => True) s₀ retained chunks s' →
            HandlesControlFrames x s₀ (retained ++ chunks.flatten) s' := by
  intro h
  have hstart := eval_start answers_succeeds
  have hcall : ∃ s', Eval uwsCode (answers {})
      (uwsCode (.onUnderlyingIoBytesReceived (some nonFinalPong.bytes)) { client := openClient }) 0
        s' ∧ s'.observations = [] := ⟨_, Prog.eval_sound answers_succeeds 30 rfl, rfl⟩
  rcases hcall with ⟨s', hs', hobs⟩
  have hsession : Session (answers {}) (fun _ _ => True) { client := openClient } []
      [nonFinalPong.bytes] s' := ⟨0, _, trivial, hstart, .chunk (by decide) trivial hs' (.done s')⟩
  have hsplit : splitFrames ([] ++ [nonFinalPong.bytes].flatten) = ([nonFinalPong], []) :=
    splitFrames_frames [nonFinalPong]
  have hintended := (h {} _ _ _ _ [nonFinalPong] ready_openClient ⟨[], rfl⟩ hsession).1
  rw [hsplit, hobs, receiveFramesChecked_badControl rfl rfl] at hintended
  cases hintended

end SharedUtility.UwsClient
