import SharedUtility.UwsClient.ControlFrames

/-!
# Fragmentation — messages in several frames

`Assembly` is the intended automaton: it is idle, or it collects the fragments of one message.  The
client refines it on every frame but three: a final TEXT or BINARY frame while a message is being
collected, a CONTINUATION frame that is not final while none is, and a fragment of no bytes when there
is a block for fragments with nothing in it, which `realloc` then frees.
-/

namespace SharedUtility.UwsClient

open Reentrant UwsClientInstance

/-! ## The automaton -/

inductive Assembly
  | idle
  | collecting (frameType : UInt8) (bytes : Bytes)
  deriving DecidableEq, Repr

/-- What a frame does to the message being put together, and the message it completes; `none` is a
protocol error. -/
def Assembly.next (a : Assembly) (f : WireFrame) : Option (Assembly × Option (UInt8 × Bytes)) :=
  if f.opcode = wsContinuationFrame then
    match a with
    | .idle => none
    | .collecting frameType bytes =>
      if f.isFinal then some (.idle, some (frameType, bytes ++ f.payload))
      else some (.collecting frameType (bytes ++ f.payload), none)
  else if f.opcode = wsTextFrame ∨ f.opcode = wsBinaryFrame then
    match a with
    | .idle =>
      if f.isFinal then some (.idle, some (f.opcode, f.payload))
      else some (.collecting f.opcode f.payload, none)
    | .collecting _ _ => none
  else if f.opcode = wsPingFrame ∧ f.isFinal = false then none
  else some (a, none)

/-- The messages of the frames, and the message left unfinished; `none` after a protocol error. -/
def Assembly.run : Assembly → List WireFrame → List (UInt8 × Bytes) × Option Assembly
  | a, [] => ([], some a)
  | a, f :: fs =>
    match a.next f with
    | none => ([], none)
    | some (a', message) => (message.toList ++ (a'.run fs).1, (a'.run fs).2)

/-- Data frames, and PING and PONG frames between them. -/
def WireFrame.isDataOrPingPong (f : WireFrame) : Prop :=
  f.opcode = wsContinuationFrame ∨ f.opcode = wsTextFrame ∨ f.opcode = wsBinaryFrame ∨
    f.opcode = wsPingFrame ∨ f.opcode = wsPongFrame

instance (f : WireFrame) : Decidable f.isDataOrPingPong :=
  inferInstanceAs (Decidable (_ ∨ _))

def Observation.asError : Observation → Option WsError
  | .error e => some e
  | _ => none

/-- In a session that takes `s₀` to `s'` with the bytes `bs`, the frames decoded so far lead to the
messages of the automaton, and to one error where it has one; an OPEN client has the other frames in
its stream buffer. -/
def AssemblesMessages (s₀ : Uws) (bs : Bytes) (s' : Uws) : Prop :=
  ∃ k, let received := splitFrames bs
    let intended := Assembly.idle.run (received.1.take k)
    (s'.client.uwsState = .uwsStateOpen →
        s'.client.streamBuffer = wireBytes (received.1.drop k) ++ received.2) ∧
      s'.observations.filterMap Observation.asMessage =
        s₀.observations.filterMap Observation.asMessage ++ intended.1 ∧
      (∃ errors, errors.length = (if intended.2 = none then 1 else 0) ∧
        s'.observations.filterMap Observation.asError =
          s₀.observations.filterMap Observation.asError ++ errors) ∧
      s'.client.uwsState =
        if intended.2 = none then .uwsStateError else .uwsStateOpen

/-! ## The client refines the automaton -/

/-- The fragment buffer of the client and the message being put together. -/
def Represents (c : UwsClientInstance) : Assembly → Prop
  | .idle => c.fragmentedFrameType = wsFrameTypeUnknown ∧ c.fragmentBuffer = []
  | .collecting frameType bytes =>
    frameType ≠ wsFrameTypeUnknown ∧ c.fragmentedFrameType = frameType ∧
      c.fragmentBuffer = bytes

/-- The frames the client takes although the automaton refuses them. -/
def GluedOn (c : UwsClientInstance) (f : WireFrame) : Prop :=
  (f.opcode = wsTextFrame ∨ f.opcode = wsBinaryFrame) ∧ f.isFinal = true ∧
      c.fragmentedFrameType ≠ wsFrameTypeUnknown ∨
    f.opcode = wsContinuationFrame ∧ f.isFinal = false ∧
      c.fragmentedFrameType = wsFrameTypeUnknown

instance (c : UwsClientInstance) (f : WireFrame) : Decidable (GluedOn c f) :=
  inferInstanceAs (Decidable (_ ∨ _))

/-- The fragments of no bytes the automaton takes and the client loses its block to. -/
def LosesBlock (c : UwsClientInstance) (f : WireFrame) : Prop :=
  c.GivesBack f.payload ∧
    ((f.opcode = wsTextFrame ∨ f.opcode = wsBinaryFrame) ∧ f.isFinal = false ∧
        c.fragmentedFrameType = wsFrameTypeUnknown ∨
      f.opcode = wsContinuationFrame ∧ c.fragmentedFrameType ≠ wsFrameTypeUnknown)

instance (c : UwsClientInstance) (f : WireFrame) : Decidable (LosesBlock c f) :=
  inferInstanceAs (Decidable (_ ∧ _))

/-- The frames that the client makes something else of than the automaton. -/
def Mishandled (c : UwsClientInstance) (f : WireFrame) : Prop :=
  GluedOn c f ∨ LosesBlock c f

instance (c : UwsClientInstance) (f : WireFrame) : Decidable (Mishandled c f) :=
  inferInstanceAs (Decidable (_ ∨ _))

section

variable {x : XioResults} {c : UwsClientInstance} {a : Assembly} {f : WireFrame}

/-- What one frame does to the client, in terms of the automaton. -/
def Refines (x : XioResults) (c : UwsClientInstance) (f : WireFrame) :
    Option (Assembly × Option (UInt8 × Bytes)) → Prop
  | none =>
    (c.receive x f).1.uwsState = .uwsStateError ∧
      (c.receive x f).2.filterMap Observation.asMessage = [] ∧
        ∃ e, (c.receive x f).2.filterMap Observation.asError = [e]
  | some (a', message) =>
    (c.receive x f).1.uwsState = .uwsStateOpen ∧ Represents (c.receive x f).1 a' ∧
      (c.receive x f).2.filterMap Observation.asMessage = message.toList ∧
        (c.receive x f).2.filterMap Observation.asError = []

@[simp] theorem blockFault_asMessage : c.blockFault.filterMap Observation.asMessage = [] := by
  unfold blockFault
  split
  · rfl
  · rfl

@[simp] theorem blockFault_asError : c.blockFault.filterMap Observation.asError = [] := by
  unfold blockFault
  split
  · rfl
  · rfl

theorem continuation_refines (hopen : c.uwsState = .uwsStateOpen) (hrep : Represents c a)
    (hcont : f.opcode = wsContinuationFrame) (hmis : ¬ Mishandled c f) : Refines x c f (a.next f) := by
  cases a with
  | idle =>
    have hfin : f.isFinal = true := by
      by_contra hnot
      exact hmis (.inl (.inr ⟨hcont, by simpa using hnot, hrep.1⟩))
    -- With or without a block, the client reports an error.
    by_cases hgives : c.GivesBack f.payload
    · simp [Assembly.next, hcont, Refines, receive_continuation hcont,
        receiveContinuation, receiveFragment, hgives,
        Observation.asMessage, Observation.asError]
    · simp [Assembly.next, hcont, Refines, receive_continuation hcont,
        receiveContinuation, receiveFragment, hgives,
        collected, hfin, hrep.1, badFrame,
        Observation.asMessage, Observation.asError]
  | collecting frameType bytes =>
    rcases hrep with ⟨hne, htype, hbuf⟩
    have hkeeps : ¬ c.GivesBack f.payload := fun hgives =>
      hmis (.inr ⟨hgives, .inr ⟨hcont, htype ▸ hne⟩⟩)
    by_cases hfin : f.isFinal = true
    · simp [Assembly.next, hcont, Refines, receive_continuation hcont,
        receiveContinuation, receiveFragment, hkeeps,
        collected, hfin, htype, hne, hbuf, hopen, Represents,
        Observation.asMessage, Observation.asError]
    · simp [Assembly.next, hcont, Refines, receive_continuation hcont,
        receiveContinuation, receiveFragment, hkeeps,
        collected, hfin, htype, hne, hbuf, hopen, Represents]

theorem data_refines (hopen : c.uwsState = .uwsStateOpen) (hrep : Represents c a)
    (hcont : f.opcode ≠ wsContinuationFrame) (hdata : f.opcode = wsTextFrame ∨ f.opcode = wsBinaryFrame)
    (hmis : ¬ Mishandled c f) : Refines x c f (a.next f) := by
  have hknown : f.opcode ≠ wsFrameTypeUnknown := by
    rcases hdata with h | h
    all_goals
      rw [h]
      decide
  cases a with
  | idle =>
    rcases hrep with ⟨htype, hbuf⟩
    by_cases hfin : f.isFinal = true
    · simp [Assembly.next, hcont, hdata, Refines, receive_data hdata,
        receiveData, hfin, htype, hbuf, hopen, Represents,
        Observation.asMessage, Observation.asError]
    · have hkeeps : ¬ c.GivesBack f.payload := fun hgives =>
        hmis (.inr ⟨hgives, .inl ⟨hdata, by simpa using hfin, htype⟩⟩)
      simp [Assembly.next, hcont, hdata, Refines, receive_data hdata,
        receiveData, receiveFragment, hkeeps,
        collected, hfin, htype, hbuf, hopen, hknown, Represents]
  | collecting frameType bytes =>
    rcases hrep with ⟨hne, htype, _⟩
    have hfin : f.isFinal = false := by
      by_contra hfin
      exact hmis (.inl (.inl ⟨hdata, by simpa using hfin, htype ▸ hne⟩))
    simp [Assembly.next, hcont, hdata, Refines, receive_data hdata,
      receiveData, hfin, htype, hne, badFrame,
      Observation.asMessage, Observation.asError]

theorem receive_refines (hopen : c.uwsState = .uwsStateOpen) (hrep : Represents c a)
    (hkind : f.isDataOrPingPong) (hmis : ¬ Mishandled c f) : Refines x c f (a.next f) := by
  by_cases hcont : f.opcode = wsContinuationFrame
  · exact continuation_refines hopen hrep hcont hmis
  by_cases hdata : f.opcode = wsTextFrame ∨ f.opcode = wsBinaryFrame
  · exact data_refines hopen hrep hcont hdata hmis
  by_cases hping : f.opcode = wsPingFrame
  · by_cases hfin : f.isFinal = false
    · unfold Assembly.next
      rw [if_neg hcont, if_neg hdata, if_pos ⟨hping, hfin⟩]
      simp [Refines, receive_ping hping, receivePing, hfin,
        badFrame, Observation.asMessage, Observation.asError]
    · unfold Assembly.next
      rw [if_neg hcont, if_neg hdata, if_neg fun h => hfin h.2]
      simp [Refines, receive_ping hping, receivePing, hfin, hopen, hrep,
        Observation.asMessage, Observation.asError]
  · have hpong : f.opcode = wsPongFrame := by
      rw [not_or] at hdata
      simpa [WireFrame.isDataOrPingPong, hcont, hdata, hping] using hkind
    have hrec : c.receive x f = (c, []) := by
      simp only [receive, hpong]
      rfl
    simp [Assembly.next, hcont, hdata, hping, Refines, hrec, hopen, hrep]

/-- As long as no frame is mishandled, the fold over the frames refines the automaton. -/
theorem receiveFrames_refines {fs : List WireFrame} (hopen : c.uwsState = .uwsStateOpen)
    (hrep : Represents c a) (hkind : ∀ f ∈ fs, f.isDataOrPingPong)
    (hmis : Throughout x (fun c f => ¬ Mishandled c f) c fs) :
    (receiveFrames x c fs).2.filterMap Observation.asMessage = (a.run fs).1 ∧
      ((receiveFrames x c fs).2.filterMap Observation.asError).length =
        (if (a.run fs).2 = none then 1 else 0) ∧
      (receiveFrames x c fs).1.uwsState =
        if (a.run fs).2 = none then .uwsStateError else .uwsStateOpen := by
  induction fs generalizing c a with
  | nil => simp [receiveFrames, Assembly.run, hopen]
  | cons f fs ih =>
    have hf := hmis hopen
    have hstep := receive_refines (x := x) hopen hrep (hkind f (by simp)) hf.1
    cases hnext : a.next f with
    | none =>
      rw [hnext] at hstep
      rcases hstep with ⟨hstate, hmessage, e, herror⟩
      have hstop : (c.receive x f).1.uwsState ≠ .uwsStateOpen := by simp [hstate]
      simp [receiveFrames, hopen, receiveFrames_stopped hstop, Assembly.run, hnext, hstate,
        hmessage, herror]
    | some r =>
      rcases r with ⟨a', message⟩
      rw [hnext] at hstep
      rcases hstep with ⟨hopen', hrep', hmessage, herror⟩
      have hrest := ih hopen' hrep' (fun g hg => hkind g (by simp [hg])) hf.2
      simp only [receiveFrames, hopen, if_true, List.filterMap_append, Assembly.run, hnext,
        hmessage, herror, hrest, List.nil_append, and_self]

end

/-! ## The property -/

/-- No frame that one run of the decode loop gets to is mishandled. -/
def NoneMishandled (x : XioResults) (c : UwsClientInstance) : List WireFrame → Prop
  | [] => True
  | f :: fs =>
    c.uwsState = .uwsStateOpen →
      ¬ Mishandled c f ∧ (f.endsRound = false → NoneMishandled x (c.receive x f).1 fs)

/-- The condition on a call with a chunk. -/
def FragmentsInOrder (x : XioResults) (s : Uws) (chunk : Bytes) : Prop :=
  NoneMishandled x s.client (splitFrames (s.client.streamBuffer ++ chunk)).1

theorem NoneMishandled.throughout {x : XioResults} {c : UwsClientInstance} {fs : List WireFrame}
    (h : NoneMishandled x c fs) :
    Throughout x (fun c f => ¬ Mishandled c f) c (fs.take (handledCount x c fs)) := by
  induction fs generalizing c with
  | nil => exact trivial
  | cons f fs ih =>
    by_cases hopen : c.uwsState = .uwsStateOpen
    · have hf := h hopen
      by_cases hround : f.endsRound = true
      · simp only [handledCount, hopen, hround, if_true, List.take_succ_cons, List.take_zero]
        exact fun _ => ⟨hf.1, trivial⟩
      · have hround : f.endsRound = false := by simpa using hround
        simp only [handledCount, hopen, hround, if_true, List.take_succ_cons,
          Bool.false_eq_true, if_false]
        exact fun _ => ⟨hf.1, ih (hf.2 hround)⟩
    · exact throughout_stopped hopen _

end SharedUtility.UwsClient
