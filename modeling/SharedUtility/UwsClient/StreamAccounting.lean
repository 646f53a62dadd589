import SharedUtility.UwsClient.Runs
import SharedUtility.UwsClient.Watch

/-!
# StreamAccounting — what is taken out of the stream buffer has been decoded

Noted are the bytes added to the stream buffer on the current connection, the size of the frames and
of the response decoded in them, and the frame that is being handled, whose bytes are taken out of the
buffer when the callbacks have returned.  The buffer holds the rest, as long as nothing is added to it
and no other connection is opened while a frame is being handled.
-/

namespace SharedUtility.UwsClient
namespace StreamAccounting

open Reentrant Observed Observer Watch

/-! ## What is noted -/

/-- The size of the frame at the start of the buffer, if its header is in order and it is complete. -/
def completeFrame (streamBuffer : Bytes) : Option Nat :=
  let fl := decodeFrameLength streamBuffer
  if fl.hasError then none
  else if streamBuffer.length ≥ fl.neededBytes then some fl.neededBytes
  else none

/-- The size of the frame that a decode round handles; 0 for a masked one that it only reports. -/
def handledFrame (c : UwsClientInstance) : Option Nat :=
  if c.uwsState.decodesFrames && 2 ≤ c.streamBuffer.length then
    match completeFrame c.streamBuffer with
    | some size => some size
    | none => if startsMasked c.streamBuffer then some 0 else none
  else none

/-- The size of a complete response with status 101. -/
def responseSize (streamBuffer : Bytes) (errnoSet : Bool) : Nat :=
  match findResponseEnd streamBuffer with
  | none => 0
  | some requestEnd =>
    if parseHttpResponse streamBuffer errnoSet = some 101 then requestEnd + 4 else 0

/-- `received` are the bytes added to the stream buffer since the connection was opened, `decoded` is
the size of what was decoded in them, with the frame `handling`. -/
structure StreamNotes where
  active : List Proc := []
  received : Bytes := []
  decoded : Nat := 0
  handling : Option Nat := none
  deriving DecidableEq

namespace StreamNotes

/-- What is still to be taken out of the stream buffer. -/
def due (n : StreamNotes) : Nat :=
  n.handling.getD 0

def push (n : StreamNotes) (p : Proc) : StreamNotes :=
  { n with active := p :: n.active }

def pop (n : StreamNotes) : StreamNotes :=
  { n with active := n.active.tail }

def round (n : StreamNotes) (c : UwsClientInstance) : StreamNotes :=
  { n with handling := handledFrame c, decoded := n.decoded + (handledFrame c).getD 0 }

def endRound (n : StreamNotes) : StreamNotes :=
  { n with handling := none }

def restart (n : StreamNotes) : StreamNotes :=
  { n with received := [], decoded := 0, handling := none }

/-- The bytes that the function under way adds before it starts to decode. -/
def indicated (n : StreamNotes) : Option Bytes :=
  match n.active with
  | .onUnderlyingIoBytesReceived buffer :: _ => buffer
  | _ => none

def addIndicated (n : StreamNotes) : StreamNotes :=
  { n with received := n.received ++ n.indicated.getD [] }

end StreamNotes

def streamObserver : Observer Uws uwsSignature StreamNotes where
  entered p s n :=
    match p with
    | .decodeStream => (n.addIndicated.push p).round s.client
    | _ => n.push p
  called c _ n :=
    match c with
    | .xioOpen => n.restart
    | _ => n
  answered c r s n :=
    match c, r with
    | .errno, errnoSet =>
      { n with decoded := n.decoded + responseSize s.client.streamBuffer errnoSet }
    | _, _ => n
  returned p _ _ n :=
    match p with
    | .decodeStream => n.endRound.pop
    | _ => n.pop

abbrev NotedUws := Observed Uws StreamNotes

def notedCode (p : Proc) : Comp NotedUws uwsSignature Int :=
  streamObserver.code uwsCode p

/-! ## The property -/

/-- No more bytes were taken out of the buffer than it held, the frame that is being handled is in it,
and it holds what was received without what was decoded, but with that frame. -/
structure Accounted (s : NotedUws) : Prop where
  noUnderflow : .fault .streamBufferUnderflow ∉ s.state.log
  fits : s.notes.due ≤ s.state.client.streamBuffer.length
  buffered : s.state.client.streamBuffer = s.notes.received.drop (s.notes.decoded - s.notes.due)
  decoded : s.notes.decoded ≤ s.notes.received.length
  due : s.notes.due ≤ s.notes.decoded

/-! ## Runs -/

def anyNotedRun : Env NotedUws uwsSignature :=
  environment StreamNotes reentrantRun

/-- The condition.  While a frame is being handled, the client does not start to open another
connection, and does not start to decode other bytes that it has added to the stream buffer. -/
def handledInPeaceRun : Env NotedUws uwsSignature where
  mayEnter top p s :=
    anyNotedRun.mayEnter top p s &&
    (match p with
      | .uwsClientOpenAsync callbacks => !(s.state.startsOpen callbacks && s.notes.handling.isSome)
      | _ => true)
  mayAnswer _ _ _ := true
  mayRun p s :=
    match p with
    | .decodeStream => s.notes.indicated.isNone || s.notes.handling.isNone
    | _ => true

/-! ## The invariant -/

/-- The frame that is being handled is left alone, and no other one is. -/
structure Undisturbed (s s' : NotedUws) : Prop where
  active : s'.notes.active = s.notes.active
  handling : s'.notes.handling = s.notes.handling
  buffer : s.notes.handling.isSome = true →
    s'.state.client.streamBuffer = s.state.client.streamBuffer

theorem Undisturbed.refl (s : NotedUws) : Undisturbed s s :=
  ⟨rfl, rfl, fun _ => rfl⟩

theorem Undisturbed.trans {s s' s'' : NotedUws} (h : Undisturbed s s') (h' : Undisturbed s' s'') :
    Undisturbed s s'' where
  active := h'.active.trans h.active
  handling := h'.handling.trans h.handling
  buffer := fun hsome => (h'.buffer (h.handling ▸ hsome)).trans (h.buffer hsome)

/-- Everything decoded has been taken out of the buffer, whether the round has ended or not. -/
structure Consumed (s : NotedUws) : Prop where
  noUnderflow : .fault .streamBufferUnderflow ∉ s.state.log
  buffered : s.state.client.streamBuffer = s.notes.received.drop s.notes.decoded
  decoded : s.notes.decoded ≤ s.notes.received.length

theorem Accounted.consumed {s : NotedUws} (h : Accounted s) (hdue : s.notes.due = 0) :
    Consumed s where
  noUnderflow := h.noUnderflow
  buffered := by
    have hbuffered := h.buffered
    rwa [hdue] at hbuffered
  decoded := h.decoded

theorem Consumed.accounted {s : NotedUws} (h : Consumed s) (hdue : s.notes.due = 0) :
    Accounted s where
  noUnderflow := h.noUnderflow
  fits := by
    rw [hdue]
    exact Nat.zero_le _
  buffered := by
    rw [hdue]
    exact h.buffered
  decoded := h.decoded
  due := by
    rw [hdue]
    exact Nat.zero_le _

/-- What a decode round needs, unless bytes were added while a frame is being handled. -/
def Decodes (s : NotedUws) : Prop :=
  (s.notes.indicated.isNone || s.notes.handling.isNone) = true →
    Consumed (s.setNotes s.notes.addIndicated)

structure Decoded (s s' : NotedUws) : Prop where
  peace : (s.notes.indicated.isNone || s.notes.handling.isNone) = true
  consumed : Consumed s'
  active : s'.notes.active = s.notes.active
  handling : s'.notes.handling = none

def streamWatch : Watch StreamNotes where
  observer := streamObserver
  env := handledInPeaceRun
  inv := Accounted
  rely := Undisturbed
  within := Undisturbed
  entry p s :=
    match p with
    | .uwsClientOpenAsync callbacks =>
      s.state.startsOpen callbacks = true → s.notes.handling = none
    | _ => True
  decodes := Decodes
  decoded := Decoded
  calm _ := True
  common c := c ≠ .xioOpen ∧ c ≠ .errno

section

variable {s : NotedUws}

theorem Accounted.push (h : Accounted s) (p : Proc) : Accounted (s.setNotes (s.notes.push p)) :=
  { h with }

theorem Accounted.pop (h : Accounted s) : Accounted (s.setNotes s.notes.pop) :=
  { h with }

theorem tolerant : streamWatch.Closable where
  alike s₀ s t h ht := by
    have hbuffer : t.client.streamBuffer = s.state.client.streamBuffer := ht.streamBuffer
    refine ⟨⟨fun hmem => h.inv.noUnderflow (ht.underflow hmem), ?_, ?_, h.inv.decoded, h.inv.due⟩,
      h.within.trans ⟨rfl, rfl, fun _ => hbuffer⟩⟩
    · show s.notes.due ≤ t.client.streamBuffer.length
      rw [hbuffer]
      exact h.inv.fits
    · exact hbuffer.trans h.inv.buffered
  state s₀ s st h _ := ⟨{ h.inv with }, h.within.trans ⟨rfl, rfl, fun _ => rfl⟩⟩
  called s₀ c s h hc := by
    have hsame : streamObserver.called c s.state s.notes = s.notes := by
      cases c with
      | xioOpen => exact absurd rfl hc.1
      | _ => rfl
    show streamWatch.At s₀ (s.setNotes (streamObserver.called c s.state s.notes))
    rw [hsame]
    exact h
  answered s₀ c r s h hc := by
    have hsame : streamObserver.answered c r s.state s.notes = s.notes := by
      cases c with
      | errno => exact absurd rfl hc.2
      | _ => rfl
    show streamWatch.At s₀ (s.setNotes (streamObserver.answered c r s.state s.notes))
    rw [hsame]
    exact h
  relied _ _ _ h hinv hrely := ⟨hinv, Undisturbed.trans h.within hrely⟩
  ordinary c hc := by
    constructor
    · rintro rfl
      cases hc
    · rintro rfl
      cases hc
  closed := trivial
  error := trivial
  waiting := trivial
  closing := trivial
  sending := trivial
  slot _ _ _ h := ⟨{ h.inv with }, h.within.trans ⟨rfl, rfl, fun _ => rfl⟩⟩

theorem atStart (h : Accounted s) : streamWatch.At s s :=
  ⟨h, Undisturbed.refl s⟩

theorem reports {s₀ : NotedUws} (h : streamWatch.At s₀ s) :
    streamWatch.Keeps s₀ indicateWsCloseComplete s :=
  tolerant.indicateWsCloseComplete (fun _ => ⟨nofun, nofun⟩) h fun _ _ => trivial

end

/-! ## Decoding -/

theorem findResponseEnd_length {streamBuffer : Bytes} {requestEnd : Nat}
    (h : findResponseEnd streamBuffer = some requestEnd) :
    requestEnd + 4 ≤ streamBuffer.length := by
  rw [findResponseEnd] at h
  split at h
  · have hlength := strstr_length h
    have hcrlf : (ascii "\r\n\r\n").length = 4 := by decide
    have hstring : (cString streamBuffer).length ≤ streamBuffer.length :=
      (List.takeWhile_prefix _).length_le
    omega
  · cases h

theorem completeFrame_length {streamBuffer : Bytes} {size : Nat}
    (h : completeFrame streamBuffer = some size) : size ≤ streamBuffer.length := by
  simp only [completeFrame] at h
  split at h
  · cases h
  split at h
  · cases h
    assumption
  · cases h

theorem handledFrame_length (c : UwsClientInstance) :
    (handledFrame c).getD 0 ≤ c.streamBuffer.length := by
  unfold handledFrame
  split
  · cases hframe : completeFrame c.streamBuffer with
    | some size => exact completeFrame_length hframe
    | none =>
      simp only
      split
      · exact Nat.zero_le _
      · exact Nat.zero_le _
  · exact Nat.zero_le _

section

variable {s s₀ : NotedUws}

theorem Consumed.take (h : Consumed s) {n : Nat} (hn : n ≤ s.state.client.streamBuffer.length) :
    Consumed ((s.setNotes { s.notes with decoded := s.notes.decoded + n }).setState
      (s.state.consumed n)) where
  noUnderflow := by
    rw [Uws.consumed_of_le hn]
    exact h.noUnderflow
  buffered := by
    show s.state.client.streamBuffer.drop n = s.notes.received.drop (s.notes.decoded + n)
    rw [h.buffered, List.drop_drop]
  decoded := by
    have hlength := congrArg List.length h.buffered
    rw [List.length_drop] at hlength
    have hdecoded := h.decoded
    show s.notes.decoded + n ≤ s.notes.received.length
    omega

structure Rounded (s₀ s : NotedUws) : Prop where
  consumed : Consumed s
  active : s.notes.active = s₀.notes.active

theorem rounded_of_at (h : streamWatch.At s₀ s) (hdue : s₀.notes.due = 0) : Rounded s₀ s where
  consumed := by
    apply h.inv.consumed
    have hhandling : s.notes.handling = s₀.notes.handling := h.within.handling
    rw [StreamNotes.due, hhandling]
    exact hdue
  active := h.within.active

theorem decodeUpgradeResponse_rounds (h : streamWatch.At s₀ s) (hhandling : s₀.notes.handling = none) :
    wp streamWatch.interference.spec (streamWatch.observer.observe decodeUpgradeResponse)
      (fun _ s' => Rounded s₀ s') s := by
  have hdue₀ : s₀.notes.due = 0 := by rw [StreamNotes.due, hhandling, Option.getD_none]
  have hdue : s.notes.due = 0 := by
    have hsame : s.notes.handling = s₀.notes.handling := h.within.handling
    rw [StreamNotes.due, hsame, hhandling, Option.getD_none]
  simp only [decodeUpgradeResponse, errno, wp_observe_bind, observe_getClient]
  cases hend : findResponseEnd s.state.client.streamBuffer with
  | none => exact rounded_of_at h hdue₀
  | some requestEnd =>
    simp only [wp_observe_bind]
    apply observe_askLocal rfl h.inv
    intro errnoSet _
    have hfailed : parseHttpResponse s.state.client.streamBuffer errnoSet ≠ some 101 →
        streamWatch.At s₀ (s.setNotes
          (streamObserver.answered .errno errnoSet s.state s.notes)) := by
      intro hparse
      have hnoted : streamObserver.answered .errno errnoSet s.state s.notes = s.notes := by
        simp [streamObserver, responseSize, hend, hparse]
      rw [hnoted]
      exact h
    cases hparse : parseHttpResponse s.state.client.streamBuffer errnoSet with
    | none =>
      simp only [wp_observe_bind]
      apply wp_mono _ (tolerant.indicateWsOpenCompleteErrorAndClose
        (hfailed (by simp [hparse])) _)
      intro _ s' h'
      exact rounded_of_at h' hdue₀
    | some statusCode =>
      simp only [wp_observe_ite]
      split
      · rename_i hstatus
        simp only [wp_observe_bind]
        apply wp_mono _ (tolerant.indicateWsOpenCompleteErrorAndClose
          (hfailed (by simpa [hparse] using hstatus)) _)
        intro _ s' h'
        exact rounded_of_at h' hdue₀
      · rename_i hstatus
        have hstatus : statusCode = 101 := not_not.1 hstatus
        have hsize : responseSize s.state.client.streamBuffer errnoSet = requestEnd + 4 := by
          simp [responseSize, hend, hparse, hstatus]
        have hnoted : streamWatch.observer.answered .errno errnoSet s.state
            (streamWatch.observer.called .errno s.state s.notes) =
              { s.notes with decoded := s.notes.decoded + (requestEnd + 4) } := by
          show streamObserver.answered .errno errnoSet s.state s.notes = _
          simp only [streamObserver, hsize]
        simp only [wp_observe_bind, observe_consumeStreamBufferBytes, observe_setUwsState,
          observe_getClient, hnoted]
        have hopened : streamWatch.At s₀ ((s.setNotes
            { s.notes with decoded := s.notes.decoded + (requestEnd + 4) }).setState
              ((s.state.consumed (requestEnd + 4)).setState .uwsStateOpen)) := by
          have htaken := (h.inv.consumed hdue).take (findResponseEnd_length hend)
          refine ⟨Consumed.accounted { htaken with } hdue, h.within.active,
            h.within.handling, ?_⟩
          intro hsome
          rw [hhandling] at hsome
          cases hsome
        apply tolerant.callBack hopened (fun _ => rfl) (fun _ => tolerant.ordinary _ rfl)
        intro s' h'
        exact rounded_of_at h' hdue₀

/-- The frame that a round handles is taken out of the buffer when it has been handled. -/
theorem Accounted.takeHandled (h : Accounted s) {n : Nat} (hdue : s.notes.due = n) :
    Consumed (s.setState (s.state.consumed n)) where
  noUnderflow := by
    subst hdue
    rw [Uws.consumed_of_le h.fits]
    exact h.noUnderflow
  buffered := by
    show s.state.client.streamBuffer.drop n = s.notes.received.drop s.notes.decoded
    rw [h.buffered, List.drop_drop, hdue]
    have hle := h.due
    rw [hdue] at hle
    rw [Nat.sub_add_cancel hle]
  decoded := h.decoded

theorem handledFrame_getD {c : UwsClientInstance} (hstate : c.uwsState.decodesFrames = true)
    (hlength : 2 ≤ c.streamBuffer.length) :
    (handledFrame c).getD 0 = (completeFrame c.streamBuffer).getD 0 := by
  simp only [handledFrame, hstate, hlength, decide_true, Bool.and_self, if_true]
  cases completeFrame c.streamBuffer with
  | some size => rfl
  | none =>
    simp only
    split
    · rfl
    · rfl

theorem decodeFrame_rounds (h : Accounted s)
    (hhandling : s.notes.handling = handledFrame s.state.client)
    (hstate : s.state.client.uwsState.decodesFrames = true) :
    wp streamWatch.interference.spec (streamWatch.observer.observe decodeFrame)
      (fun _ s' => Rounded s s') s := by
  have hstart := atStart h
  simp only [decodeFrame_eq, wp_observe_bind, wp_observe_ite, observe_getClient]
  split
  case isFalse hshort =>
    have hnone : handledFrame s.state.client = none := by
      simp only [handledFrame]
      rw [if_neg]
      simp only [Bool.and_eq_true, decide_eq_true_eq]
      exact fun hboth => hshort hboth.2
    apply rounded_of_at hstart
    rw [StreamNotes.due, hhandling, hnone, Option.getD_none]
  case isTrue hlength =>
    have hdue : s.notes.due = (completeFrame s.state.client.streamBuffer).getD 0 := by
      rw [StreamNotes.due, hhandling]
      exact handledFrame_getD hstate hlength
    -- The frame that is read is the one the buffer held at the start of the round.
    have hread : ∀ s₁ : NotedUws, streamWatch.At s s₁ →
        s₁.state.client.streamBuffer = s.state.client.streamBuffer →
        wp streamWatch.interference.spec (streamWatch.observer.observe readFrame)
          (fun _ s' => Rounded s s') s₁ := by
      intro s₁ h₁ hbuffer
      simp only [readFrame, wp_observe_bind, wp_observe_ite, observe_getClient, hbuffer]
      simp only [completeFrame] at hdue
      split
      case isTrue herror =>
        rw [if_pos herror, Option.getD_none] at hdue
        apply wp_mono _ (tolerant.indicateWsError h₁ _)
        intro _ s' h'
        exact rounded_of_at h' hdue
      case isFalse herror =>
        rw [if_neg herror] at hdue
        split
        case isFalse hincomplete =>
          rw [if_neg hincomplete, Option.getD_none] at hdue
          exact rounded_of_at h₁ hdue
        case isTrue hcomplete =>
          rw [if_pos hcomplete, Option.getD_some] at hdue
          apply wp_mono _ (tolerant.receiveFrame h₁ _ _ _ fun _ =>
            tolerant.receiveCloseFrame (fun _ => reports) h₁ _ _)
          intro _ s₂ h₂
          have hdue₂ : s₂.notes.due = (decodeFrameLength s.state.client.streamBuffer).neededBytes := by
            have hsame : s₂.notes.handling = s.notes.handling := h₂.within.handling
            rw [← hdue, StreamNotes.due, hsame, StreamNotes.due]
          simp only [observe_consumeStreamBufferBytes]
          exact ⟨h₂.inv.takeHandled hdue₂, h₂.within.active⟩
    split
    case isTrue hmasked =>
      have hsome : s.notes.handling.isSome = true := by
        rw [hhandling]
        simp only [handledFrame, hstate, hlength, decide_true, Bool.and_self, if_true]
        cases completeFrame s.state.client.streamBuffer with
        | some size => rfl
        | none =>
          have hstarts : startsMasked s.state.client.streamBuffer = true := by
            simp only [startsMasked, Bool.and_eq_true, decide_eq_true_eq, bne_iff_ne]
            exact ⟨hlength, hmasked⟩
          simp [hstarts]
      apply wp_mono _ (tolerant.indicateWsErrorAndClose hstart _ _)
      intro _ s₁ h₁
      exact hread s₁ h₁ (h₁.within.buffer hsome)
    case isFalse hmasked => exact hread s hstart rfl

/-- A decode round leaves what it has not decoded in the buffer; the next one starts with that. -/
theorem decodeStream_decodes (h : Accounted s)
    (hhandling : s.notes.handling = handledFrame s.state.client)
    (hproc : s.notes.indicated = none) :
    wp streamWatch.interference.spec (streamWatch.observer.observe decodeStream)
      (fun _ s' => Rounded s s') s := by
  have hstart := atStart h
  have hidle : s.state.client.uwsState.decodesFrames = false → s.notes.handling = none := by
    intro hstate
    rw [hhandling]
    simp [handledFrame, hstate]
  have hdue : s.state.client.uwsState.decodesFrames = false → s.notes.due = 0 := by
    intro hstate
    rw [StreamNotes.due, hidle hstate, Option.getD_none]
  have hround : wp streamWatch.interference.spec (streamWatch.observer.observe decodeRound)
      (fun _ s' => Rounded s s') s := by
    simp only [decodeRound, wp_observe_bind, observe_getClient]
    split
    · rename_i hstate
      simp only [wp_observe_bind]
      apply wp_mono _ (tolerant.indicateWsOpenCompleteErrorAndClose hstart _)
      intro _ s' h'
      exact rounded_of_at h' (hdue (by rw [hstate]; rfl))
    · rename_i hstate
      exact decodeUpgradeResponse_rounds hstart (hidle (by rw [hstate]; rfl))
    · rename_i hstate
      exact decodeFrame_rounds h hhandling (by rw [hstate]; rfl)
    · rename_i hstate
      exact decodeFrame_rounds h hhandling (by rw [hstate]; rfl)
    · rename_i hopening hwaiting hopen hclosing
      apply rounded_of_at hstart
      apply hdue
      cases hstate : s.state.client.uwsState with
      | uwsStateOpen => exact absurd hstate hopen
      | uwsStateClosingWaitingForClose => exact absurd hstate hclosing
      | _ => rfl
  simp only [decodeStream, wp_observe_bind]
  apply wp_mono _ hround
  intro decodes s₁ h₁
  split
  · show wp streamWatch.interference.spec (Comp.proc Proc.decodeStream) (fun r s' => Rounded s s') s₁
    apply Interference.wp_nested (F := streamWatch.interference)
    case hpre =>
      intro _
      have hindicated : s₁.notes.indicated = none := by
        rw [StreamNotes.indicated, h₁.active]
        exact hproc
      have hadded : s₁.notes.addIndicated = s₁.notes := by
        simp [StreamNotes.addIndicated, hindicated]
      rw [hadded]
      exact h₁.consumed
    case hQ =>
      intro r s' hdecoded
      exact ⟨hdecoded.consumed, hdecoded.active.trans h₁.active⟩
  · exact h₁

end

/-! ## The functions that a connection depends on -/

section

variable {s s₀ : NotedUws}

theorem receiveBytes_keeps {bytes : Bytes} (h : streamWatch.At s₀ s)
    (hindicated : s.notes.indicated = some bytes) :
    streamWatch.Keeps s₀ (receiveBytes bytes) s := by
  apply tolerant.receiveBytes (P := (s = ·)) h
  case hask => exact fun _ hQ => observe_askLocal rfl h.inv fun r _ => hQ r s rfl
  case hat =>
    rintro _ rfl
    exact h
  case hdecode =>
    rintro _ rfl
    show wp streamWatch.interference.spec (Comp.proc Proc.decodeStream) _ _
    apply Interference.wp_nested (F := streamWatch.interference)
    case hpre =>
      intro hpeace
      have hnone : s.notes.handling = none := by
        have hpeace : (s.notes.indicated.isNone || s.notes.handling.isNone) = true := hpeace
        simpa [hindicated] using hpeace
      have hconsumed := h.inv.consumed (by rw [StreamNotes.due, hnone, Option.getD_none])
      refine ⟨hconsumed.noUnderflow, ?_, ?_⟩
      · show s.state.client.streamBuffer ++ bytes =
          (s.notes.received ++ s.notes.indicated.getD []).drop s.notes.decoded
        rw [hindicated, Option.getD_some, List.drop_append_of_le_length hconsumed.decoded,
          ← hconsumed.buffered]
      · show s.notes.decoded ≤ (s.notes.received ++ s.notes.indicated.getD []).length
        rw [List.length_append]
        exact Nat.le_add_right_of_le hconsumed.decoded
    case hQ =>
      intro r s' hdecoded
      have hpeace : (s.notes.indicated.isNone || s.notes.handling.isNone) = true := hdecoded.peace
      have hnone : s.notes.handling = none := by simpa [hindicated] using hpeace
      have hhandling : s'.notes.handling = none := hdecoded.handling
      have hactive : s'.notes.active = s.notes.active := hdecoded.active
      refine ⟨hdecoded.consumed.accounted (by rw [StreamNotes.due, hhandling, Option.getD_none]),
        h.within.trans ⟨hactive, hhandling.trans hnone.symm, ?_⟩⟩
      intro hsome
      rw [hnone] at hsome
      cases hsome

theorem openAsyncProc_keeps (h : streamWatch.At s₀ s) (callbacks : OpenCallbacks)
    (hpeace : s.state.startsOpen callbacks = true → s.notes.handling = none) :
    streamWatch.Keeps s₀ (openAsyncProc callbacks) s := by
  apply tolerant.openAsyncProc h callbacks
  intro hstarts
  have hnone := hpeace hstarts
  apply observe_callOut rfl
  case hinv =>
    refine ⟨?_, Nat.zero_le _, rfl, Nat.zero_le _, Nat.zero_le _⟩
    intro hmem
    simp only [calling, setNotes_state, setState_state, Uws.openStarted, Uws.record_log,
      List.mem_append, List.mem_singleton] at hmem
    rcases hmem with (hmem | hmem) | hmem
    · exact h.inv.noUnderflow hmem
    · cases hmem
    · cases hmem
  case hQ =>
    intro r s₁ _ hinv hrely
    have hhandling : s₁.notes.handling = none := hrely.handling
    have hactive : s₁.notes.active = s.notes.active := hrely.active
    refine ⟨hinv, h.within.trans ⟨hactive, hhandling.trans hnone.symm, ?_⟩⟩
    intro hsome
    rw [hnone] at hsome
    cases hsome

end

/-! ## Every run -/

theorem beginProc_of_ne {p : Proc} (hp : p ≠ .decodeStream) (s : NotedUws) :
    streamWatch.beginProc p s = s.setNotes (s.notes.push p) := by
  cases p with
  | decodeStream => exact absurd rfl hp
  | _ => rfl

theorem accounted_pop {s s' : NotedUws} {p : Proc} (hp : p ≠ .decodeStream)
    (h : streamWatch.At (streamWatch.beginProc p s) s') (r : Int) :
    Accounted (streamWatch.endProc p r s') ∧ Undisturbed s (streamWatch.endProc p r s') ∧ True := by
  have hend : streamWatch.endProc p r s' = s'.setNotes s'.notes.pop := by
    cases p with
    | decodeStream => exact absurd rfl hp
    | _ => rfl
  rw [beginProc_of_ne hp] at h
  rw [hend]
  refine ⟨h.inv.pop, ⟨?_, h.within.handling, h.within.buffer⟩, trivial⟩
  show s'.notes.active.tail = s.notes.active
  have hactive : s'.notes.active = p :: s.notes.active := h.within.active
  rw [hactive, List.tail_cons]

theorem decodeStream_meets {s : NotedUws} (hpre : Decodes s)
    (hrun : handledInPeaceRun.mayRun .decodeStream s = true) :
    wp streamWatch.interference.spec (notedCode .decodeStream) (fun _ s' => Decoded s s') s := by
  have hpeace : (s.notes.indicated.isNone || s.notes.handling.isNone) = true := hrun
  have hconsumed := hpre hpeace
  have hstart : Accounted (streamWatch.beginProc .decodeStream s) := by
    have hfits := handledFrame_length s.state.client
    have hlength := congrArg List.length hconsumed.buffered
    rw [List.length_drop] at hlength
    have hdecoded : s.notes.decoded ≤ s.notes.addIndicated.received.length := hconsumed.decoded
    have hlength : s.state.client.streamBuffer.length =
      s.notes.addIndicated.received.length - s.notes.decoded := hlength
    refine ⟨hconsumed.noUnderflow, hfits, ?_, ?_, ?_⟩
    · show s.state.client.streamBuffer = s.notes.addIndicated.received.drop
        (s.notes.decoded + (handledFrame s.state.client).getD 0 -
          (handledFrame s.state.client).getD 0)
      rw [Nat.add_sub_cancel]
      exact hconsumed.buffered
    · show s.notes.decoded + (handledFrame s.state.client).getD 0 ≤
        s.notes.addIndicated.received.length
      omega
    · exact Nat.le_add_left _ _
  rw [notedCode, wp_code]
  apply wp_mono _ (decodeStream_decodes hstart rfl rfl)
  intro r s' hs'
  refine ⟨hpeace, { hs'.consumed with }, ?_, rfl⟩
  show s'.notes.active.tail = s.notes.active
  have hactive : s'.notes.active = .decodeStream :: s.notes.active := hs'.active
  rw [hactive, List.tail_cons]

theorem onUnderlyingIoBytesReceived_keeps {s : NotedUws} (h : Accounted s)
    (buffer : Option Bytes) :
    streamWatch.Keeps (s.setNotes (s.notes.push (.onUnderlyingIoBytesReceived buffer)))
      (onUnderlyingIoBytesReceived buffer)
      (s.setNotes (s.notes.push (.onUnderlyingIoBytesReceived buffer))) := by
  have hstart := atStart (h.push (.onUnderlyingIoBytesReceived buffer))
  match buffer with
  | none => exact tolerant.indicateWsOpenCompleteErrorAndClose hstart _
  | some [] => exact tolerant.indicateWsOpenCompleteErrorAndClose hstart _
  | some (b :: bs) => exact receiveBytes_keeps hstart rfl

theorem streamWatch_obligations : streamWatch.Obligations where
  anyRun _ _ _ hmay := (Bool.and_eq_true_iff.1 hmay).1
  refl := Undisturbed.refl
  trans _ _ _ := Undisturbed.trans
  entry top p s _ hmay := by
    have hcond := (Bool.and_eq_true_iff.1 hmay).2
    cases p with
    | uwsClientOpenAsync callbacks =>
      intro hstarts
      simpa [hstarts] using hcond
    | _ => trivial
  loop _ hpre hrun := decodeStream_meets hpre hrun
  procs p s hdecode hinv hentry := by
    have hstart := atStart (hinv.push p)
    apply meets
    case hend => exact fun r s' hs' => accounted_pop hdecode hs' r
    case hbody =>
      rw [beginProc_of_ne hdecode]
      cases p with
      | decodeStream => exact absurd rfl hdecode
      | uwsClientOpenAsync callbacks => exact openAsyncProc_keeps hstart callbacks hentry
      | uwsClientCloseHandshakeAsync closeCode cb =>
        exact tolerant.uwsClientCloseHandshakeAsync hstart trivial closeCode cb
      | onUnderlyingIoBytesReceived buffer =>
        exact keeps_void (onUnderlyingIoBytesReceived_keeps hinv buffer)
      | _ => exact tolerant.ordinaryProc (fun _ => reports) (fun _ _ => trivial) hstart rfl

structure Created (s : NotedUws) : Prop where
  streamBuffer : s.state.client.streamBuffer = []
  log : s.state.log = []
  notes : s.notes = {}

/-- In a run that meets the condition, only what has been decoded is taken out of the buffer. -/
theorem accounted_of_run {s₀ s : NotedUws} {st : List (Frame NotedUws uwsSignature)}
    (h₀ : Created s₀) (h : Reachable notedCode handledInPeaceRun s₀ (.env s st)) :
    Accounted s := by
  have hinv : Accounted s₀ := by
    refine ⟨by simp [h₀.log], ?_, ?_, ?_, ?_⟩
    · simp [h₀.notes, StreamNotes.due]
    · simp [h₀.notes, h₀.streamBuffer]
    · simp [h₀.notes]
    · simp [h₀.notes, StreamNotes.due]
  exact streamWatch_obligations.sound.reachable_inv hinv h

def createdNoted : NotedUws :=
  ⟨createdClient, {}⟩

/-- `HTTP/1.1 101` and an empty line, with an empty binary frame behind. -/
def responseAndFrame : Bytes :=
  [0x48, 0x54, 0x54, 0x50, 0x2F, 0x31, 0x2E, 0x31, 0x20, 0x31, 0x30, 0x31, 0x0D, 0x0A, 0x0D, 0x0A,
    0x82, 0x00]

/-- A connection is upgraded and a frame is received; the frame is given to the user. -/
def upgradeThenFrame : List (Input uwsSignature) :=
  [.enter (.uwsClientOpenAsync someCallbacks), .answer succeeds,
    .enter (.onUnderlyingIoOpenComplete .ioOpenOk 0), .answer succeeds, .answer succeeds,
    .answer succeeds, .answer succeeds, .answer succeeds,
    .enter (.onUnderlyingIoBytesReceived (some responseAndFrame)), .answer succeeds,
    .answer succeeds, .answer succeeds]

theorem accounted_upgradeThenFrame :
    ∃ s st, Reachable notedCode handledInPeaceRun createdNoted (.env s st) ∧
      s.notes.decoded = 18 ∧ s.notes.due = 2 ∧ Accounted s := by
  have hrun : handledInPeaceRun.endsIn notedCode 40 createdNoted upgradeThenFrame
      (fun s _ => decide (s.notes.decoded = 18) && decide (s.notes.due = 2)) = true := by
    decide +kernel
  rcases Env.endsIn_sound hrun with ⟨s, st, hreach, htest⟩
  simp only [Bool.and_eq_true, decide_eq_true_eq] at htest
  exact ⟨s, st, hreach, htest.1, htest.2, accounted_of_run ⟨rfl, rfl, rfl⟩ hreach⟩

/-- While the frame is with the user the connection is closed and another one is opened. -/
def reopenWhileHandling : List (Input uwsSignature) :=
  upgradeThenFrame ++
    [.enter (.uwsClientCloseAsync none), .enter .onUnderlyingIoCloseComplete, .answer succeeds,
      .enter (.uwsClientOpenAsync someCallbacks), .answer succeeds, .answer succeeds]

/-- The bytes of the frame are taken out of the buffer that the other connection has emptied. -/
theorem reopenWhileHandling_underflows :
    ¬ ∀ (s₀ s : NotedUws) (st : List (Frame NotedUws uwsSignature)),
        Created s₀ → Reachable notedCode anyNotedRun s₀ (.env s st) → Accounted s := by
  intro h
  have hrun : anyNotedRun.endsIn notedCode 40 createdNoted reopenWhileHandling
      (fun s _ => decide (.fault .streamBufferUnderflow ∈ s.state.log)) = true := by
    decide +kernel
  rcases Env.endsIn_sound hrun with ⟨s, st, hreach, htest⟩
  exact (h _ s st ⟨rfl, rfl, rfl⟩ hreach).noUnderflow (of_decide_eq_true htest)

end StreamAccounting
end SharedUtility.UwsClient
