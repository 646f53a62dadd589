import SharedUtility.UwsClient.Chunks

/-!
# RoundTrip — what the encoder encodes, the client delivers

Application messages are sent as unmasked frames, whole or in fragments.  However the encodings are
cut into chunks, an OPEN client delivers the messages, each once and in order, and keeps nothing.
-/

namespace SharedUtility.UwsClient

open Reentrant UwsClientInstance

/-! ## Messages and their frames -/

inductive MessageType
  | text
  | binary
  deriving DecidableEq, Repr

/-- `WS_FRAME_TYPE_TEXT` and `WS_FRAME_TYPE_BINARY`, which are also the opcodes of the frames. -/
def MessageType.code : MessageType → UInt8
  | .text => wsFrameTypeText
  | .binary => wsFrameTypeBinary

/-- Bytes that fit into one frame. -/
structure FramePayload where
  bytes : Bytes
  bytes_lt : bytes.length < 2 ^ 63

structure Fragment extends FramePayload where
  bytes_ne : bytes ≠ []

/-- A message sent in one frame, or in an initial frame and CONTINUATION frames. -/
inductive AppMessage
  | whole (type : MessageType) (payload : FramePayload)
  | fragmented (type : MessageType) (first : Fragment) (middle : List Fragment) (last : Fragment)

def dataFrame (type : MessageType) (isFinal : Bool) (payload : FramePayload) : WireFrame where
  opcode := type.code
  isFinal := isFinal
  payload := payload.bytes
  opcode_le := by cases type <;> decide
  payload_lt := payload.bytes_lt

def continuationFrame (isFinal : Bool) (payload : FramePayload) : WireFrame where
  opcode := wsContinuationFrame
  isFinal := isFinal
  payload := payload.bytes
  payload_lt := payload.bytes_lt

namespace AppMessage

def frames : AppMessage → List WireFrame
  | .whole type payload => [dataFrame type true payload]
  | .fragmented type first middle last =>
    dataFrame type false first.toFramePayload ::
      (middle.map (fun p => continuationFrame false p.toFramePayload) ++
        [continuationFrame true last.toFramePayload])

def type : AppMessage → MessageType
  | .whole type _ => type
  | .fragmented type _ _ _ => type

def payload : AppMessage → Bytes
  | .whole _ payload => payload.bytes
  | .fragmented _ first middle last =>
    first.bytes ++ (middle.map (·.bytes)).flatten ++ last.bytes

/-- The call of `on_ws_frame_received` the message leads to. -/
def delivery (m : AppMessage) : Observation :=
  .received m.type.code m.payload

end AppMessage

/-- The frames of the messages, one message after the other. -/
def framesOf (messages : List AppMessage) : List WireFrame :=
  messages.flatMap AppMessage.frames

/-- Each of the encodings is the frame's, whatever the encoder's calls returned. -/
def Encodes (frames : List WireFrame) (encodings : List Bytes) : Prop :=
  List.Forall₂ (fun f encoding => ∃ res, f.encode res = some encoding) frames encodings

theorem WireFrame.encode_eq_some {f : WireFrame} {res : EncoderResources} {encoding : Bytes}
    (h : f.encode res = some encoding) : encoding = f.bytes := by
  have hop : ¬ f.opcode > 0x0F := UInt8.not_lt.2 f.opcode_le
  have hrsv : ¬ f.reserved > 7 := UInt8.not_lt.2 f.reserved_le
  simp only [WireFrame.encode, uwsFrameEncoderEncode, hop, hrsv, if_false, Option.isNone_some,
    Bool.and_false, Bool.false_eq_true] at h
  split at h
  · cases h
  split at h
  · cases h
  split at h
  · cases h
  · simpa [WireFrame.bytes, encodedFrame] using h.symm

theorem Encodes.flatten_eq {frames : List WireFrame} {encodings : List Bytes}
    (h : Encodes frames encodings) : encodings.flatten = wireBytes frames := by
  induction h with
  | nil => rfl
  | cons hf _ ih =>
    rcases hf with ⟨res, hres⟩
    rw [List.flatten_cons, wireBytes_cons, ih, WireFrame.encode_eq_some hres]

theorem endsRound_framesOf {messages : List AppMessage} :
    ∀ f ∈ framesOf messages, f.endsRound = false := by
  intro f hf
  rcases List.mem_flatMap.1 hf with ⟨m, _, hm⟩
  apply WireFrame.endsRound_eq_false
  cases m with
  | whole type payload =>
    rw [AppMessage.frames, List.mem_singleton] at hm
    subst hm
    cases type with
    | text => exact .inr (.inl rfl)
    | binary => exact .inr (.inr rfl)
  | fragmented type first middle last =>
    simp only [AppMessage.frames, List.mem_cons, List.mem_append, List.mem_map,
      List.not_mem_nil, or_false] at hm
    rcases hm with rfl | ⟨p, _, rfl⟩ | rfl
    · cases type with
      | text => exact .inr (.inl rfl)
      | binary => exact .inr (.inr rfl)
    · exact .inl rfl
    · exact .inl rfl

/-! ## What the frames of messages lead to -/

/-- A client that is OPEN between two messages, and has not lost the block for their fragments to a
`realloc` that returned NULL. -/
structure BetweenMessages (c : UwsClientInstance) : Prop extends Ready c where
  fragmentBuffer : c.fragmentBuffer = []
  fragmentedFrameType : c.fragmentedFrameType = wsFrameTypeUnknown
  fragmentBlock : c.fragmentBlock ≠ .freed

theorem betweenMessages_openClient : BetweenMessages openClient :=
  { ready_openClient with
    fragmentBuffer := rfl
    fragmentedFrameType := rfl
    fragmentBlock := nofun }

section

variable {x : XioResults} {c : UwsClientInstance}

theorem receiveFragment_of_nonempty {payload : Bytes} (hblock : c.fragmentBlock ≠ .freed)
    (hne : payload ≠ []) (goOn : UwsClientInstance → UwsClientInstance × List Observation) :
    c.receiveFragment payload goOn = goOn (c.collected payload) := by
  have hkeeps : ¬ c.GivesBack payload := fun h => hne (List.append_eq_nil_iff.1 h.2).2
  rw [receiveFragment, if_neg hkeeps, blockFault, if_neg hblock,
    List.nil_append]

theorem receiveFrames_continuations (hopen : c.uwsState = .uwsStateOpen)
    (htype : c.fragmentedFrameType ≠ wsFrameTypeUnknown) (hblock : c.fragmentBlock ≠ .freed)
    (middle : List Fragment) (last : Fragment) :
    receiveFrames x c (middle.map (fun p => continuationFrame false p.toFramePayload) ++
        [continuationFrame true last.toFramePayload]) =
      ({ c with
          fragmentBlock := .allocated
          fragmentBuffer := []
          fragmentedFrameType := wsFrameTypeUnknown },
        [.received c.fragmentedFrameType
          (c.fragmentBuffer ++ (middle.map (·.bytes)).flatten ++ last.bytes)]) := by
  induction middle generalizing c with
  | nil =>
    simp [receiveFrames, hopen, receive, continuationFrame,
      receiveContinuation, receiveFragment_of_nonempty hblock last.bytes_ne,
      collected, htype]
  | cons p middle ih =>
    have hstep : c.receive x (continuationFrame false p.toFramePayload) =
        (c.collected p.bytes, []) := by
      simp [receive, continuationFrame, receiveContinuation,
        receiveFragment_of_nonempty hblock p.bytes_ne]
    rw [List.map_cons, List.cons_append, receiveFrames, if_pos hopen, hstep]
    simp only
    rw [ih (c := c.collected p.bytes) hopen htype (by rintro ⟨⟩)]
    simp [collected]

theorem receiveFrames_message (h : BetweenMessages c) (m : AppMessage) :
    BetweenMessages (receiveFrames x c m.frames).1 ∧
      (receiveFrames x c m.frames).2 = [m.delivery] := by
  cases m with
  | whole type payload =>
    have hrec : c.receive x (dataFrame type true payload) =
        (c, [.received type.code payload.bytes]) := by
      cases type with
      | text => rfl
      | binary => rfl
    simp [AppMessage.frames, receiveFrames, h.uwsState, hrec, AppMessage.delivery,
      AppMessage.type, AppMessage.payload, h]
  | fragmented type first middle last =>
    have hrec : c.receive x (dataFrame type false first.toFramePayload) =
        ({ c.collected first.bytes with fragmentedFrameType := type.code }, []) := by
      have hunknown := h.fragmentedFrameType
      have hcollects := @receiveFragment_of_nonempty c _ h.fragmentBlock first.bytes_ne
      cases type with
      | text =>
        simp [receive, dataFrame, MessageType.code, wsFrameTypeText,
          wsContinuationFrame, wsTextFrame, receiveData, hunknown, hcollects]
      | binary =>
        simp [receive, dataFrame, MessageType.code, wsFrameTypeBinary,
          wsContinuationFrame, wsTextFrame, wsBinaryFrame, receiveData,
          hunknown, hcollects]
    have htype : type.code ≠ wsFrameTypeUnknown := by
      cases type with
      | text => decide
      | binary => decide
    rw [AppMessage.frames, receiveFrames, if_pos h.uwsState, hrec]
    simp only
    rw [receiveFrames_continuations
      (c := { c.collected first.bytes with fragmentedFrameType := type.code })
      h.uwsState htype (by rintro ⟨⟩)]
    constructor
    · exact { h.toReady with
        fragmentBuffer := rfl
        fragmentedFrameType := rfl
        fragmentBlock := by rintro ⟨⟩ }
    · simp [AppMessage.delivery, AppMessage.type, AppMessage.payload, collected,
        h.fragmentBuffer]

theorem receiveFrames_framesOf (h : BetweenMessages c) (messages : List AppMessage) :
    BetweenMessages (receiveFrames x c (framesOf messages)).1 ∧
      (receiveFrames x c (framesOf messages)).2 = messages.map AppMessage.delivery := by
  induction messages generalizing c with
  | nil => exact ⟨h, rfl⟩
  | cons m messages ih =>
    have hfirst := receiveFrames_message (x := x) h m
    have hrest := ih hfirst.1
    rw [framesOf] at hrest
    rw [framesOf, List.flatMap_cons, receiveFrames_append]
    refine ⟨hrest.1, ?_⟩
    rw [hfirst.2, hrest.2, List.map_cons, List.singleton_append]

end

/-! ## The round trip -/

/-- However the encodings of messages are cut into chunks, receiving them succeeds, leads to one
delivery for each message, in order and with its type and payload, to nothing else that is observed,
and leaves the buffers empty. -/
theorem received_messages {x : XioResults} {s₀ : Uws} (h₀ : BetweenMessages s₀.client)
    {messages : List AppMessage} {encodings chunks : List Bytes}
    (hencodes : Encodes (framesOf messages) encodings) (hne : ∀ chunk ∈ chunks, chunk ≠ [])
    (hchunks : chunks.flatten = encodings.flatten) :
    (∃ s', Receives (answers x) (fun _ _ => True) s₀ chunks s') ∧
      ∀ s', Receives (answers x) (fun _ _ => True) s₀ chunks s' →
        s'.observations = s₀.observations ++ messages.map AppMessage.delivery ∧
          s'.client.uwsState = .uwsStateOpen ∧ s'.client.streamBuffer = [] ∧
            s'.client.fragmentBuffer = [] := by
  have hbytes : chunks.flatten = wireBytes (framesOf messages) :=
    hchunks.trans hencodes.flatten_eq
  have hwire : [] ++ chunks.flatten <+: wireBytes (framesOf messages) := ⟨[], by simp [hbytes]⟩
  have hnil := HandledAll.nil (x := x) h₀.toReady
  refine ⟨hnil.handled.exists_receives h₀.toReady chunks hne hwire, ?_⟩
  intro s' hreceives
  have hall : HandledAll x s₀ ([] ++ chunks.flatten) s' := by
    refine Receives.invariant (I := HandledAll x s₀) ?_ hreceives hwire hnil
    intro bs s chunk hne _ hpre hI
    refine hI.chunk hne h₀.toReady (splitFrames_of_isPrefix hpre).2 ?_
    intro hopen
    apply getsThrough_of_data
    intro f hf
    -- The frames at hand are among those of the messages, of which none ends the loop.
    have hmem : f ∈ (splitFrames (bs ++ chunk)).1 := by
      rw [splitFrames_append, List.mem_append]
      rw [hI.buffered hopen] at hf
      exact .inr hf
    exact endsRound_framesOf f ((splitFrames_of_isPrefix hpre).1.subset hmem)
  have hsplit : splitFrames ([] ++ chunks.flatten) = (framesOf messages, []) := by
    rw [List.nil_append, hbytes, splitFrames_frames]
  have hfold := receiveFrames_framesOf (x := x) h₀ messages
  have hobs := hall.observations
  have hclient := hall.client
  have hbuf := hall.buffered
  rw [hsplit] at hobs hclient hbuf
  have hopen : s'.client.uwsState = .uwsStateOpen := by
    rw [hclient, withStream_uwsState, hfold.1.uwsState]
  refine ⟨hobs.trans (by rw [hfold.2]), hopen, hbuf hopen, ?_⟩
  rw [hclient, withStream_fragmentBuffer, hfold.1.fragmentBuffer]

/-- A message in two fragments, cut inside a header and inside a payload. -/
theorem received_messages_fragmented :
    ∃ s', Receives (answers {}) (fun _ _ => True) { client := openClient }
        [[0x01], [0x02, 0x41], [0x42, 0x80, 0x01, 0x43]] s' ∧
      s'.observations = [.received wsFrameTypeText [0x41, 0x42, 0x43]] := by
  have hencodes : Encodes
      (framesOf [.fragmented .text ⟨⟨[0x41, 0x42], by decide⟩, by decide⟩ []
        ⟨⟨[0x43], by decide⟩, by decide⟩])
      [[0x01, 0x02, 0x41, 0x42], [0x80, 0x01, 0x43]] :=
    .cons ⟨default, by decide⟩ (.cons ⟨default, by decide⟩ .nil)
  have h₀ : BetweenMessages ({ client := openClient } : Uws).client := betweenMessages_openClient
  have hrun := received_messages (x := {}) h₀ hencodes
    (show ∀ chunk ∈ [[0x01], [0x02, 0x41], [0x42, 0x80, 0x01, 0x43]], chunk ≠ [] by decide) rfl
  rcases hrun.1 with ⟨s', hs'⟩
  exact ⟨s', hs', (hrun.2 s' hs').1⟩

end SharedUtility.UwsClient
