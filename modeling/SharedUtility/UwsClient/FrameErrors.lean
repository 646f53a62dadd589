import SharedUtility.Reentrant.Trace
import SharedUtility.UwsClient.Runs

/-!
# FrameErrors — a framing error ends the connection

Once an error has been indicated for a frame, the client is in a state in which it decodes nothing,
and it stays in such a state until it is opened again.  Three things break this: a masked frame that
is completely buffered is handled after the error was indicated for it; a close handshake that the
user starts in the error state makes the client decode again; and an upgrade request that is sent
after the client has left the opening state does so too.
-/

namespace SharedUtility.UwsClient

open Reentrant

/-- The client may come to decode a frame without a call of the user. -/
def UwsState.live : UwsState → Bool
  | .uwsStateOpeningUnderlyingIo | .uwsStateWaitingForUpgradeResponse | .uwsStateOpen
  | .uwsStateClosingWaitingForClose => true
  | _ => false

def Uws.live (s : Uws) : Bool :=
  s.client.uwsState.live

/-- The connection on which an error is indicated for a frame. -/
def Event.frameError : Event → Option Nat
  | .call k (.onWsError _ .wsErrorBadFrameReceived) => some k
  | _ => none

/-- The connection on which a frame is delivered, answered, or acted on as a CLOSE frame. -/
def Event.frameAction : Event → Option Nat
  | .call k (.onWsFrameReceived _ _ _) | .call k (.onWsPeerClosed _ _ _)
  | .call k (.xioSend .pongFrame _) | .call k (.xioSend .closeResponse _)
  | .call k (.xioClose .badCloseReason) | .call k (.xioClose .closeHandshakeDone)
  | .call k (.xioClose .closeResponseFailed) => some k
  | _ => none

/-- An error has been indicated for a frame of the current connection. -/
def Uws.failedFrame (s : Uws) : Bool :=
  s.log.any fun ev => ev.frameError == some s.currentOpen

/-- After an error for a frame no frame is handled on that connection, and it is not OPEN. -/
def FrameErrorsFinal (s : Uws) : Prop :=
  NeverAfter Event.frameError Event.frameAction s.log ∧
    (s.failedFrame = true → s.client.uwsState ≠ .uwsStateOpen)

/-- The frame in the stream buffer is one to deliver, to answer or to close for. -/
def UwsClientInstance.actsOnFrame (c : UwsClientInstance) : Bool :=
  let firstByte := c.streamBuffer.getD 0 0
  let opcode := firstByte &&& 0xF
  (firstByte &&& 0x80 != 0) &&
    (if opcode = wsContinuationFrame then c.fragmentedFrameType != wsFrameTypeUnknown
      else opcode == wsTextFrame || opcode == wsBinaryFrame || opcode == wsCloseFrame ||
        opcode == wsPingFrame)

/-- A masked frame of that kind, with all the bytes that the client takes for its payload. -/
def UwsClientInstance.maskedFrameBuffered (c : UwsClientInstance) : Bool :=
  (c.uwsState == .uwsStateOpen || c.uwsState == .uwsStateClosingWaitingForClose) &&
    (2 ≤ c.streamBuffer.length && (c.streamBuffer.getD 1 0 &&& 0x80 != 0) &&
      2 + (c.streamBuffer.getD 1 0).toNat ≤ c.streamBuffer.length) && c.actsOnFrame

/-- The condition.  No round of decoding starts with a masked frame that is completely buffered and
to be acted upon, no close handshake is started in the error state after an error for a frame, and
none has been indicated when the io returns from sending the upgrade request. -/
def frameErrorRun : Env Uws uwsSignature where
  mayEnter top p s :=
    anyRun.mayEnter top p s &&
    (match p with
      | .uwsClientCloseHandshakeAsync _ _ => s.client.uwsState != .uwsStateError || !s.failedFrame
      | _ => true)
  mayAnswer c r s :=
    match c, r with
    | .xioSend .upgradeRequest _, r => r != 0 || !s.failedFrame
    | _, _ => true
  mayRun p s :=
    match p with
    | .decodeStream => !s.client.maskedFrameBuffered
    | _ => true

/-! ## The invariant -/

structure FrameErrorInvariant (s : Uws) : Prop where
  final : NeverAfter Event.frameError Event.frameAction s.log
  stopped : s.live = true → ¬ Occurs Event.frameError s.log s.currentOpen
  opened : s.currentOpen ≤ s.openCalls
  numbered : ∀ k, s.openCalls < k → ¬ Occurs Event.frameError s.log k

/-- What the io may do during a call: a client that decodes nothing goes on so. -/
structure StaysStopped (s s' : Uws) : Prop where
  currentOpen : s'.currentOpen = s.currentOpen
  openCalls : s'.openCalls = s.openCalls
  live : s.live = false → s'.live = false
  undecoded : s.live = false → s'.client.streamBuffer = s.client.streamBuffer ∧
    s'.client.fragmentedFrameType = s.client.fragmentedFrameType
  noError : s.live = false → ¬ Occurs Event.frameError s.log s.currentOpen →
    ¬ Occurs Event.frameError s'.log s'.currentOpen

theorem StaysStopped.refl (s : Uws) : StaysStopped s s :=
  ⟨rfl, rfl, id, fun _ => ⟨rfl, rfl⟩, fun _ => id⟩

theorem StaysStopped.trans {s s' s'' : Uws} (h : StaysStopped s s') (h' : StaysStopped s' s'') :
    StaysStopped s s'' where
  currentOpen := h'.currentOpen.trans h.currentOpen
  openCalls := h'.openCalls.trans h.openCalls
  live hs := h'.live (h.live hs)
  undecoded hs :=
    ⟨(h'.undecoded (h.live hs)).1.trans (h.undecoded hs).1,
      (h'.undecoded (h.live hs)).2.trans (h.undecoded hs).2⟩
  noError hs hno := h'.noError (h.live hs) (h.noError hs hno)

theorem StaysStopped.of_live {s s' : Uws} (hs : s.live = true)
    (hcurrent : s'.currentOpen = s.currentOpen) (hcalls : s'.openCalls = s.openCalls) :
    StaysStopped s s' := by
  have habsurd : s.live ≠ false := by simp [hs]
  exact ⟨hcurrent, hcalls, fun h => absurd h habsurd, fun h => absurd h habsurd,
    fun h => absurd h habsurd⟩

structure FrameErrorKept (s₀ s : Uws) : Prop where
  inv : FrameErrorInvariant s
  rel : StaysStopped s₀ s

def frameErrors : Discipline where
  env := frameErrorRun
  inv := FrameErrorInvariant
  rel := StaysStopped
  callPre _ _ := True
  procPre p s :=
    match p with
    | .uwsClientCloseHandshakeAsync _ _ =>
      s.client.uwsState = .uwsStateError → ¬ Occurs Event.frameError s.log s.currentOpen
    | _ => True

section

variable {s₀ s : Uws}

theorem failedFrame_iff : s.failedFrame = true ↔ Occurs Event.frameError s.log s.currentOpen := by
  simp [Uws.failedFrame, Occurs]

theorem FrameErrorInvariant.record (h : FrameErrorInvariant s) {e : Event}
    (herror : e.frameError = none)
    (haction : ∀ k, e.frameAction = some k → ¬ Occurs Event.frameError s.log k) :
    FrameErrorInvariant (s.record e) where
  final := h.final.concat haction
  stopped hlive := by
    rw [Uws.record_log, occurs_concat_of_none herror]
    exact h.stopped hlive
  opened := h.opened
  numbered k hk := by
    rw [Uws.record_log, occurs_concat_of_none herror]
    exact h.numbered k hk

theorem FrameErrorInvariant.setClient (h : FrameErrorInvariant s) {c : UwsClientInstance}
    (hc : c.uwsState = s.client.uwsState) : FrameErrorInvariant (s.setClient c) where
  final := h.final
  stopped hlive := h.stopped (by simpa [Uws.live, hc] using hlive)
  opened := h.opened
  numbered := h.numbered

theorem FrameErrorInvariant.setState (h : FrameErrorInvariant s) {st : UwsState}
    (hst : st.live = true → s.live = true) : FrameErrorInvariant (s.setState st) where
  final := h.final
  stopped hlive := h.stopped (hst hlive)
  opened := h.opened
  numbered := h.numbered

theorem FrameErrorInvariant.resume (h : FrameErrorInvariant s)
    (hnone : ¬ Occurs Event.frameError s.log s.currentOpen) {st : UwsState} :
    FrameErrorInvariant (s.setState st) where
  final := h.final
  stopped _ := hnone
  opened := h.opened
  numbered := h.numbered

theorem FrameErrorInvariant.recordError (h : FrameErrorInvariant s) (hs : s.live = false)
    (cb : Callback) :
    FrameErrorInvariant (s.record (.call s.currentOpen (.onWsError cb .wsErrorBadFrameReceived)))
    where
  final := h.final.concat_of_none rfl
  stopped hlive := by
    have hlive : s.live = true := hlive
    rw [hs] at hlive
    cases hlive
  opened := h.opened
  numbered k hk := by
    rw [Uws.record_log, occurs_concat]
    rintro (hlog | hev)
    · exact h.numbered k hk hlog
    · cases hev
      exact absurd h.opened (Nat.not_le_of_lt hk)

theorem FrameErrorKept.record (h : FrameErrorKept s₀ s) {ev : Event} (herror : ev.frameError = none)
    (haction : ev.frameAction = none) : FrameErrorKept s₀ (s.record ev) where
  inv := h.inv.record herror (by simp [haction])
  rel := by
    refine h.rel.trans ⟨rfl, rfl, id, fun _ => ⟨rfl, rfl⟩, ?_⟩
    intro _ hno
    rwa [Uws.record_log, occurs_concat_of_none herror]

theorem FrameErrorKept.setState (h : FrameErrorKept s₀ s) {st : UwsState}
    (hst : st.live = true → s.live = true) : FrameErrorKept s₀ (s.setState st) where
  inv := h.inv.setState hst
  rel := by
    refine h.rel.trans ⟨rfl, rfl, ?_, fun _ => ⟨rfl, rfl⟩, fun _ => id⟩
    intro hs
    by_contra hlive
    have hlive := hst (by simpa [Uws.live] using hlive)
    rw [hs] at hlive
    cases hlive

theorem FrameErrorKept.leave (h : FrameErrorKept s₀ s) {st : UwsState} (hst : st.live = false) :
    FrameErrorKept s₀ (s.setState st) := by
  apply h.setState
  simp [hst]

theorem FrameErrorKept.setClient (h : FrameErrorKept s₀ s) {c : UwsClientInstance}
    (hstate : c.uwsState = s.client.uwsState) (hbuffer : c.streamBuffer = s.client.streamBuffer)
    (htype : c.fragmentedFrameType = s.client.fragmentedFrameType) :
    FrameErrorKept s₀ (s.setClient c) where
  inv := h.inv.setClient hstate
  rel := by
    refine h.rel.trans ⟨rfl, rfl, ?_, fun _ => ⟨hbuffer, htype⟩, fun _ => id⟩
    intro hs
    simpa [Uws.live, hstate] using hs

/-! ### From a live state -/

theorem live_of_state {st : UwsState} (hstate : s.client.uwsState = st) (hst : st.live = true) :
    s.live = true := by
  rw [Uws.live, hstate, hst]

theorem FrameErrorKept.live_of_live (h : FrameErrorKept s₀ s) (hs : s.live = true) :
    s₀.live = true := by
  cases hs₀ : s₀.live with
  | true => rfl
  | false =>
    rw [h.rel.live hs₀] at hs
    cases hs

theorem FrameErrorKept.of_live (hs₀ : s₀.live = true) (h : FrameErrorInvariant s)
    (hcurrent : s.currentOpen = s₀.currentOpen) (hcalls : s.openCalls = s₀.openCalls) :
    FrameErrorKept s₀ s :=
  ⟨h, .of_live hs₀ hcurrent hcalls⟩

theorem FrameErrorKept.setBuffer (h : FrameErrorKept s₀ s) (hs₀ : s₀.live = true)
    {c : UwsClientInstance} (hstate : c.uwsState = s.client.uwsState) :
    FrameErrorKept s₀ (s.setClient c) :=
  .of_live hs₀ (h.inv.setClient hstate) h.rel.currentOpen h.rel.openCalls

theorem FrameErrorKept.recordAction (h : FrameErrorKept s₀ s) (hs₀ : s₀.live = true)
    (hno : ¬ Occurs Event.frameError s.log s.currentOpen) {e : Event}
    (herror : e.frameError = none) (haction : e.frameAction = some s.currentOpen) :
    FrameErrorKept s₀ (s.record e) := by
  refine .of_live hs₀ (h.inv.record herror ?_) h.rel.currentOpen h.rel.openCalls
  intro k hk
  rw [haction] at hk
  cases hk
  exact hno

theorem FrameErrorKept.consumed (h : FrameErrorKept s₀ s) (hs₀ : s₀.live = true) (n : Nat) :
    FrameErrorKept s₀ (s.consumed n) := by
  unfold Uws.consumed
  split
  · exact (h.record rfl rfl).setBuffer hs₀ rfl
  · exact h.setBuffer hs₀ rfl

theorem FrameErrorKept.fragmentChecked (h : FrameErrorKept s₀ s) :
    FrameErrorKept s₀ s.fragmentChecked := by
  unfold Uws.fragmentChecked
  split
  · exact h.record rfl rfl
  · exact h

theorem occurs_fragmentChecked :
    Occurs Event.frameError s.fragmentChecked.log s.fragmentChecked.currentOpen ↔
      Occurs Event.frameError s.log s.currentOpen := by
  unfold Uws.fragmentChecked
  split
  · rw [Uws.record_log, Uws.record_currentOpen, occurs_concat_of_none rfl]
  · rfl

end

/-! ## The code outside the decode loop -/

section

open Discipline

variable {s₀ s : Uws}

theorem frameError_xio {c : Call} (hc : c.isXio = true) (k : Nat) : Event.frameError (.call k c) = none := by
  cases c
  all_goals first | rfl | cases hc

abbrev KeepsFrameErrors (s₀ : Uws) {α : Type} (c : UwsComp α) (s : Uws) : Prop :=
  wp frameErrors.spec c (fun _ s' => FrameErrorKept s₀ s') s

theorem wp_xioKept {c : Call} {Q : Ans c → Uws → Prop} (hc : c.isXio = true)
    (h : FrameErrorKept s₀ (s.record (.call s.currentOpen c)))
    (hQ : ∀ r s', frameErrorRun.mayAnswer c r s' = true → FrameErrorKept s₀ s' →
      StaysStopped s s' → Q r s') :
    wp frameErrors.spec (callOut c) Q s := by
  have herror := frameError_xio hc s.currentOpen
  have hcalled : StaysStopped s (s.record (.call s.currentOpen c)) := by
    refine ⟨rfl, rfl, id, fun _ => ⟨rfl, rfl⟩, ?_⟩
    intro _ hno
    rwa [Uws.record_log, occurs_concat_of_none herror]
  apply wp_callXio hc h.inv trivial
  intro r s' hans h' hrel
  exact hQ r s' hans ⟨h', h.rel.trans hrel⟩ (hcalled.trans hrel)

theorem wp_xioQuiet {c : Call} {Q : Ans c → Uws → Prop} (hc : c.isXio = true)
    (hquiet : ∀ k, Event.frameAction (.call k c) = none) (h : FrameErrorKept s₀ s)
    (hQ : ∀ r s', frameErrorRun.mayAnswer c r s' = true → FrameErrorKept s₀ s' →
      StaysStopped s s' → Q r s') :
    wp frameErrors.spec (callOut c) Q s := by
  have herror := frameError_xio hc s.currentOpen
  exact wp_xioKept hc (h.record herror (hquiet _)) hQ

theorem wp_localKept {c : Call} {Q : Ans c → Uws → Prop} (hc : c.isXio = false)
    (h : FrameErrorKept s₀ s) (hQ : ∀ r, Q r s) : wp frameErrors.spec (ask c) Q s :=
  wp_askLocal hc h.inv trivial hQ

theorem wp_userQuiet {slot : Option Callback} {c : Callback → Call} {Q : Unit → Uws → Prop}
    (hc : ∀ cb, (c cb).isXio = false)
    (hquiet : ∀ k cb, Event.frameError (.call k (c cb)) = none ∧
      Event.frameAction (.call k (c cb)) = none)
    (h : FrameErrorKept s₀ s)
    (hQ : ∀ s', FrameErrorKept s₀ s' → s'.client = s.client → Q () s') :
    wp frameErrors.spec (callBack slot c) Q s := by
  apply wp_callSlot hc
  · intro cb
    have hcalled := h.record (hquiet s.currentOpen cb).1 (hquiet s.currentOpen cb).2
    exact ⟨hcalled.inv, trivial, hQ _ hcalled rfl⟩
  · exact hQ _ (h.record rfl rfl) rfl

theorem wp_innerKept {p : Proc} {Q : Int → Uws → Prop} (hp : p.isApi = false)
    (h : FrameErrorKept s₀ s) (hQ : ∀ r s', FrameErrorKept s₀ s' → Q r s') :
    wp frameErrors.spec (callProc p) Q s := by
  rw [wp_callProc]
  constructor
  · refine ⟨h.inv, ?_⟩
    cases p with
    | uwsClientCloseHandshakeAsync code cb => cases hp
    | _ => trivial
  · intro r s' hs'
    exact hQ r s' ⟨hs'.1, h.rel.trans (hs'.2 hp)⟩

theorem indicateWsOpenCompleteError_kept (h : FrameErrorKept s₀ s) (r : WsOpenResultDetailed) :
    KeepsFrameErrors s₀ (indicateWsOpenCompleteError r) s := by
  simp only [KeepsFrameErrors, indicateWsOpenCompleteError, wp_bind, wp_setUwsState, wp_getClient]
  exact wp_userQuiet (fun _ => rfl) (fun _ _ => ⟨rfl, rfl⟩) (h.leave rfl) fun s' h' _ => h'

theorem indicateWsOpenCompleteErrorAndClose_kept (h : FrameErrorKept s₀ s)
    (r : WsOpenResultDetailed) :
    KeepsFrameErrors s₀ (indicateWsOpenCompleteErrorAndClose r) s := by
  simp only [KeepsFrameErrors, indicateWsOpenCompleteErrorAndClose, xioClose, wp_bind]
  apply wp_xioQuiet rfl (fun _ => rfl) h
  intro _ s' _ h' _
  exact indicateWsOpenCompleteError_kept h' r

theorem indicateWsError_kept (h : FrameErrorKept s₀ s) {error : WsError}
    (hquiet : ∀ k cb, Event.frameError (.call k (.onWsError cb error)) = none) :
    KeepsFrameErrors s₀ (indicateWsError error) s := by
  simp only [KeepsFrameErrors, indicateWsError, wp_bind, wp_setUwsState, wp_getClient]
  exact wp_userQuiet (fun _ => rfl) (fun k cb => ⟨hquiet k cb, rfl⟩) (h.leave rfl)
    fun s' h' _ => h'

theorem completeSendFrame_kept (h : FrameErrorKept s₀ s) (wsPendingSend : WsPendingSend)
    (r : WsSendFrameResult) : KeepsFrameErrors s₀ (completeSendFrame wsPendingSend r) s := by
  simp only [KeepsFrameErrors, completeSendFrame, wp_bind, wp_getClient]
  split
  · exact h
  simp only [wp_bind, wp_modifyClient]
  have hremoved : FrameErrorKept s₀ (s.setClient { s.client with
      pendingSends := s.client.pendingSends.filter (·.item != wsPendingSend.item) }) :=
    h.setClient rfl rfl rfl
  cases wsPendingSend.onWsSendFrameComplete with
  | none => exact hremoved
  | some cb =>
    simp only [wp_bind]
    apply wp_callUser rfl (hremoved.record rfl rfl).inv trivial
    intro _
    exact hremoved.record rfl rfl

theorem clearPendingSends_kept (h : FrameErrorKept s₀ s) :
    KeepsFrameErrors s₀ clearPendingSends s := by
  simp only [KeepsFrameErrors, clearPendingSends, wp_bind, wp_getClient]
  cases s.client.pendingSends with
  | nil => exact h
  | cons firstPendingSend rest =>
    simp only [wp_bind]
    refine wp_mono ?_ (completeSendFrame_kept h firstPendingSend .wsSendFrameCancelled)
    intro _ s' h'
    exact wp_innerKept rfl h' fun _ _ h'' => h''

theorem indicateWsCloseComplete_kept (h : FrameErrorKept s₀ s) :
    KeepsFrameErrors s₀ indicateWsCloseComplete s := by
  simp only [KeepsFrameErrors, indicateWsCloseComplete, wp_bind, wp_setUwsState]
  apply wp_innerKept rfl (h.leave rfl)
  intro _ s' h'
  simp only [wp_getClient]
  cases s'.client.onWsCloseComplete with
  | none => exact h'
  | some cb =>
    simp only [wp_bind]
    apply wp_callUser rfl (h'.record rfl rfl).inv trivial
    intro _
    exact h'.record rfl rfl

theorem sendUpgradeRequest_kept (hs₀ : s₀.live = true) (h : FrameErrorKept s₀ s) :
    KeepsFrameErrors s₀ sendUpgradeRequest s := by
  have hfail := fun r => indicateWsOpenCompleteErrorAndClose_kept h r
  simp only [KeepsFrameErrors, sendUpgradeRequest, wp_bind, wp_getClient]
  apply wp_localKept rfl h
  intro nonce
  apply wp_localKept rfl h
  intro base64Allocated
  split
  · exact hfail _
  simp only [wp_bind]
  apply wp_localKept rfl h
  intro headersAllocated
  split
  · exact hfail _
  split
  · exact hfail _
  simp only [wp_bind]
  apply wp_localKept rfl h
  intro requestAllocated
  split
  · exact hfail _
  split
  · exact hfail _
  simp only [wp_bind, xioSend]
  apply wp_xioQuiet rfl (fun _ => rfl) h
  intro r s' hans h' _
  split
  · exact indicateWsOpenCompleteErrorAndClose_kept h' _
  · rename_i hr
    have hnone : ¬ Occurs Event.frameError s'.log s'.currentOpen := by
      have hnone : s'.failedFrame = false := by simpa [frameErrorRun, not_not.1 hr] using hans
      rw [← failedFrame_iff, hnone]
      exact Bool.false_ne_true
    rw [wp_setUwsState]
    exact .of_live hs₀ (h'.inv.resume hnone) h'.rel.currentOpen h'.rel.openCalls

theorem onUnderlyingIoOpenComplete_kept (h : FrameErrorKept s₀ s) (openResult : IoOpenResult)
    (code : Int) : KeepsFrameErrors s₀ (onUnderlyingIoOpenComplete openResult code) s := by
  simp only [KeepsFrameErrors, onUnderlyingIoOpenComplete, wp_bind, wp_getClient]
  split
  · rename_i hstate
    cases openResult with
    | ioOpenOk => exact sendUpgradeRequest_kept (h.live_of_live (live_of_state hstate rfl)) h
    | ioOpenError => exact indicateWsOpenCompleteError_kept h _
    | ioOpenCancelled => exact indicateWsOpenCompleteErrorAndClose_kept h _
  · exact indicateWsOpenCompleteErrorAndClose_kept h _

theorem onUnderlyingIoCloseComplete_kept (h : FrameErrorKept s₀ s) :
    KeepsFrameErrors s₀ onUnderlyingIoCloseComplete s := by
  simp only [KeepsFrameErrors, onUnderlyingIoCloseComplete, wp_bind, wp_getClient]
  split
  · simp only [wp_bind]
    refine wp_mono ?_ (indicateWsCloseComplete_kept h)
    intro _ s' h'
    rw [wp_setUwsState]
    exact h'.leave rfl
  · exact h

theorem onUnderlyingIoCloseSent_kept (h : FrameErrorKept s₀ s) (ioSendResult : IoSendResult) :
    KeepsFrameErrors s₀ (onUnderlyingIoCloseSent ioSendResult) s := by
  have hsent : KeepsFrameErrors s₀ (do
      let c ← getClient
      if c.uwsState = .uwsStateClosingSendingClose then do
        setUwsState .uwsStateClosingUnderlyingIo
        let r ← xioClose .closeSent
        if r ≠ 0 then indicateWsCloseComplete else pure ()
      else pure ()) s := by
    simp only [KeepsFrameErrors, wp_bind, wp_getClient]
    split
    · simp only [wp_bind, wp_setUwsState]
      apply wp_xioQuiet rfl (fun _ => rfl) (h.leave rfl)
      intro r s' _ h' _
      split
      · exact indicateWsCloseComplete_kept h'
      · exact h'
    · exact h
  cases ioSendResult with
  | ioSendError => exact h
  | ioSendOk => exact hsent
  | ioSendCancelled => exact hsent

theorem onUnderlyingIoError_kept (h : FrameErrorKept s₀ s) :
    KeepsFrameErrors s₀ onUnderlyingIoError s := by
  have hclosing : KeepsFrameErrors s₀ (do
      let _ ← xioClose .ioErrorWhileClosing
      indicateWsCloseComplete) s := by
    simp only [KeepsFrameErrors, wp_bind]
    apply wp_xioQuiet rfl (fun _ => rfl) h
    intro _ s' _ h' _
    exact indicateWsCloseComplete_kept h'
  simp only [KeepsFrameErrors, onUnderlyingIoError, wp_bind, wp_getClient]
  split
  · exact hclosing
  · exact hclosing
  · exact hclosing
  · exact indicateWsOpenCompleteErrorAndClose_kept h _
  · exact indicateWsOpenCompleteErrorAndClose_kept h _
  · exact indicateWsError_kept h fun _ _ => rfl
  · exact h

theorem onUnderlyingIoSendComplete_kept (h : FrameErrorKept s₀ s) (item : Nat) (r : IoSendResult) :
    KeepsFrameErrors s₀ (onUnderlyingIoSendComplete item r) s := by
  simp only [KeepsFrameErrors, onUnderlyingIoSendComplete, wp_bind, wp_getClient]
  split
  · rw [wp_fault]
    exact h.record rfl rfl
  · simp only [wp_bind]
    refine wp_mono ?_ (completeSendFrame_kept h _ _)
    intro _ s' h'
    split
    · exact indicateWsError_kept h' fun _ _ => rfl
    · exact h'

theorem sendCloseFrame_kept (h : FrameErrorKept s₀ s) (closeErrorCode : Nat) :
    KeepsFrameErrors s₀ (sendCloseFrame closeErrorCode) s := by
  simp only [KeepsFrameErrors, sendCloseFrame, wp_bind]
  apply wp_localKept rfl h
  intro res
  split
  · exact h
  simp only [wp_bind]
  exact wp_xioQuiet rfl (fun _ => rfl) h fun _ _ _ h' _ => h'

/-! ## The decode loop

A procedure that decodes starts in a live state, and takes the client out of it before it indicates
an error for a frame.
-/

theorem wp_frameError {slot : Option Callback} {Q : Unit → Uws → Prop} (hs₀ : s₀.live = true)
    (h : FrameErrorKept s₀ s) (hs : s.live = false)
    (hQ : ∀ s', FrameErrorKept s₀ s' → s'.client = s.client → Q () s') :
    wp frameErrors.spec (callBack slot fun cb => .onWsError cb .wsErrorBadFrameReceived) Q s := by
  apply wp_callSlot (fun _ => rfl)
  · intro cb
    have hcalled := h.inv.recordError hs cb
    exact ⟨hcalled, trivial, hQ _ (.of_live hs₀ hcalled h.rel.currentOpen h.rel.openCalls) rfl⟩
  · exact hQ _ (h.record rfl rfl) rfl

theorem indicateFrameError_kept (hs₀ : s₀.live = true) (h : FrameErrorKept s₀ s) :
    KeepsFrameErrors s₀ (indicateWsError .wsErrorBadFrameReceived) s := by
  simp only [KeepsFrameErrors, indicateWsError, wp_bind, wp_setUwsState, wp_getClient]
  exact wp_frameError hs₀ (h.leave rfl) rfl fun s' h' _ => h'

theorem indicateWsErrorAndClose_kept (hs₀ : s₀.live = true) (h : FrameErrorKept s₀ s)
    (closeErrorCode : Nat) :
    wp frameErrors.spec (indicateWsErrorAndClose .wsErrorBadFrameReceived closeErrorCode)
      (fun _ s' => FrameErrorKept s₀ s' ∧ s'.client.streamBuffer = s.client.streamBuffer ∧
        s'.client.fragmentedFrameType = s.client.fragmentedFrameType) s := by
  have hleft : FrameErrorKept s₀ (s.setState .uwsStateError) := h.leave rfl
  -- The client is stopped during `xio_send`.
  have hstopped : KeepsFrameErrors (s.setState .uwsStateError) (sendCloseFrame closeErrorCode)
      (s.setState .uwsStateError) := sendCloseFrame_kept ⟨hleft.inv, .refl _⟩ closeErrorCode
  simp only [indicateWsErrorAndClose, wp_bind, wp_setUwsState]
  refine wp_mono ?_ hstopped
  intro _ s' h'
  have hs' : s'.live = false := h'.rel.live rfl
  simp only [wp_getClient]
  refine wp_frameError hs₀ ⟨h'.inv, hleft.rel.trans h'.rel⟩ hs' ?_
  intro s'' h'' hclient
  rw [hclient]
  exact ⟨h'', h'.rel.undecoded rfl⟩

/-- No error has been indicated for a frame meanwhile, and the type of the message is the same. -/
def SameMessage (s s' : Uws) : Prop :=
  (Occurs Event.frameError s'.log s'.currentOpen → Occurs Event.frameError s.log s.currentOpen) ∧
    s'.client.fragmentedFrameType = s.client.fragmentedFrameType

theorem reallocFragmentBuffer_kept (hs₀ : s₀.live = true) (h : FrameErrorKept s₀ s) (size : Nat) :
    wp frameErrors.spec (reallocFragmentBuffer size)
      (fun _ s' => FrameErrorKept s₀ s' ∧ SameMessage s s') s := by
  have hsame : ∀ block, SameMessage s
      (s.fragmentChecked.setClient { s.fragmentChecked.client with fragmentBlock := block }) :=
    fun _ => ⟨occurs_fragmentChecked.1, by rw [Uws.setClient_client, Uws.fragmentChecked_client]⟩
  simp only [reallocFragmentBuffer, wp_bind, wp_checkFragmentBuffer, wp_getClient]
  split
  · simp only [wp_bind, wp_modifyClient, wp_pure]
    exact ⟨h.fragmentChecked.setBuffer hs₀ rfl, hsame _⟩
  · simp only [malloc, wp_bind]
    apply wp_localKept rfl h.fragmentChecked
    intro allocated
    cases allocated with
    | false => exact ⟨h.fragmentChecked, hsame s.fragmentChecked.client.fragmentBlock⟩
    | true => exact ⟨h.fragmentChecked.setBuffer hs₀ rfl, hsame _⟩

theorem processFrameFragment_kept (hs₀ : s₀.live = true) (h : FrameErrorKept s₀ s)
    (fl : FrameLength) :
    wp frameErrors.spec (processFrameFragment fl)
      (fun r s' => FrameErrorKept s₀ s' ∧ (r = 0 → SameMessage s s')) s := by
  simp only [processFrameFragment, wp_bind, wp_getClient]
  refine wp_mono ?_ (reallocFragmentBuffer_kept hs₀ h _)
  intro allocated s₁ h₁
  split
  · simp only [wp_bind]
    refine wp_mono ?_ (indicateWsError_kept h₁.1 fun _ _ => rfl)
    intro _ s' h'
    exact ⟨h', fun hr => absurd hr (by decide)⟩
  · simp only [wp_bind, wp_modifyClient]
    exact ⟨h₁.1.setBuffer hs₀ rfl, fun _ => h₁.2⟩

theorem wp_deliver {slot : Option Callback} {frameType : UInt8} {payload : Bytes}
    {Q : Unit → Uws → Prop} (hs₀ : s₀.live = true) (h : FrameErrorKept s₀ s)
    (hnone : ¬ Occurs Event.frameError s.log s.currentOpen)
    (hQ : ∀ s', FrameErrorKept s₀ s' → Q () s') :
    wp frameErrors.spec (callBack slot fun cb => .onWsFrameReceived cb frameType payload) Q s := by
  apply wp_callSlot (fun _ => rfl)
  · intro cb
    have hcalled := h.recordAction hs₀ hnone
      (e := .call s.currentOpen (.onWsFrameReceived cb frameType payload)) rfl rfl
    exact ⟨hcalled.inv, trivial, hQ _ hcalled⟩
  · exact hQ _ (h.record rfl rfl)

theorem receiveContinuationFrame_kept (hs₀ : s₀.live = true) (h : FrameErrorKept s₀ s)
    (fl : FrameLength) (isFinal : Bool)
    (hact : isFinal = true → s.client.fragmentedFrameType ≠ wsFrameTypeUnknown →
      ¬ Occurs Event.frameError s.log s.currentOpen) :
    KeepsFrameErrors s₀ (receiveContinuationFrame fl isFinal) s := by
  simp only [KeepsFrameErrors, receiveContinuationFrame, wp_bind]
  refine wp_mono ?_ (processFrameFragment_kept hs₀ h fl)
  intro r s' hs'
  split
  · exact hs'.1
  rename_i hr
  split
  · rename_i hfinal
    simp only [wp_bind, wp_getClient]
    split
    · simp only [wp_bind]
      exact indicateFrameError_kept hs₀ hs'.1
    · rename_i htype
      simp only [wp_bind]
      rcases hs'.2 (not_not.1 hr) with ⟨hlog, hkept⟩
      have hnone : ¬ Occurs Event.frameError s'.log s'.currentOpen := fun herror =>
        hact hfinal (by rwa [← hkept]) (hlog herror)
      apply wp_deliver hs₀ hs'.1 hnone
      intro s'' h''
      simp only [wp_modifyClient]
      exact h''.setBuffer hs₀ rfl
  · exact hs'.1

theorem receiveDataFrame_kept (hs₀ : s₀.live = true) (h : FrameErrorKept s₀ s) (frameType : UInt8)
    (fl : FrameLength) (isFinal : Bool)
    (hact : isFinal = true → ¬ Occurs Event.frameError s.log s.currentOpen) :
    KeepsFrameErrors s₀ (receiveDataFrame frameType fl isFinal) s := by
  simp only [KeepsFrameErrors, receiveDataFrame, wp_bind, wp_getClient]
  split
  · rename_i hfinal
    simp only [wp_bind]
    exact wp_deliver hs₀ h (hact hfinal) fun _ h' => h'
  split
  · simp only [wp_bind]
    exact indicateFrameError_kept hs₀ h
  · simp only [wp_bind]
    refine wp_mono ?_ (processFrameFragment_kept hs₀ h fl)
    intro r s' hs'
    split
    · exact hs'.1
    · simp only [wp_bind, wp_modifyClient]
      exact hs'.1.setBuffer hs₀ rfl

/-! ### CLOSE frames -/

/-- The client is closing for a CLOSE frame, and no error has been indicated for a frame. -/
structure ClosingForFrame (s₀ s : Uws) : Prop where
  kept : FrameErrorKept s₀ s
  stopped : s.live = false
  noError : ¬ Occurs Event.frameError s.log s.currentOpen

theorem ClosingForFrame.begin (h : FrameErrorKept s₀ s)
    (hnone : ¬ Occurs Event.frameError s.log s.currentOpen) {st : UwsState}
    (hst : st.live = false) : ClosingForFrame s₀ (s.setState st) :=
  ⟨h.leave hst, hst, hnone⟩

theorem frameAction_call {k k' : Nat} {c : Call} (h : Event.frameAction (.call k c) = some k') :
    k' = k := by
  unfold Event.frameAction at h
  split at h
  all_goals simp_all

theorem ClosingForFrame.record (h : ClosingForFrame s₀ s) (hs₀ : s₀.live = true) {c : Call}
    (hc : Event.frameError (.call s.currentOpen c) = none) :
    ClosingForFrame s₀ (s.record (.call s.currentOpen c)) where
  kept := by
    refine .of_live hs₀ (h.kept.inv.record hc ?_) h.kept.rel.currentOpen h.kept.rel.openCalls
    intro k hk
    rw [frameAction_call hk]
    exact h.noError
  stopped := h.stopped
  noError := by
    rw [Uws.record_log, occurs_concat_of_none hc]
    exact h.noError

theorem wp_xioClosing {c : Call} {Q : Ans c → Uws → Prop} (hc : c.isXio = true)
    (hs₀ : s₀.live = true) (h : ClosingForFrame s₀ s)
    (hQ : ∀ r s', ClosingForFrame s₀ s' → Q r s') : wp frameErrors.spec (callOut c) Q s := by
  have herror := frameError_xio hc s.currentOpen
  have hcalled := h.record hs₀ herror
  apply wp_callXio hc hcalled.kept.inv trivial
  intro r s' _ h' hrel
  apply hQ r s'
  exact ⟨⟨h', hcalled.kept.rel.trans hrel⟩, hrel.live hcalled.stopped,
    hrel.noError hcalled.stopped hcalled.noError⟩

theorem closeUnderlyingIo_kept (hs₀ : s₀.live = true) (h : FrameErrorKept s₀ s)
    (hnone : ¬ Occurs Event.frameError s.log s.currentOpen) (purpose : ClosePurpose) :
    wp frameErrors.spec (closeUnderlyingIo purpose) (fun _ s' => ClosingForFrame s₀ s') s := by
  simp only [closeUnderlyingIo, wp_bind, wp_setUwsState]
  apply wp_xioClosing rfl hs₀ (.begin h hnone rfl)
  intro r s' h'
  split
  · simp only [wp_bind, indicateWsError, wp_setUwsState, wp_getClient]
    have herror : ClosingForFrame s₀ (s'.setState .uwsStateError) := .begin h'.kept h'.noError rfl
    apply wp_callSlot (fun _ => rfl)
    · intro cb
      have hcalled : ClosingForFrame s₀ ((s'.setState .uwsStateError).record
          (.call s'.currentOpen (.onWsError cb .wsErrorCannotCloseUnderlyingIo))) :=
        herror.record hs₀ rfl
      exact ⟨hcalled.kept.inv, trivial, .begin hcalled.kept hcalled.noError rfl⟩
    · refine .begin (herror.kept.record rfl rfl) ?_ rfl
      rw [Uws.record_log, occurs_concat_of_none rfl]
      exact herror.noError
  · exact h'

theorem wp_peerClosedKept {closeCode : Option Nat} {extraData : Bytes} (hs₀ : s₀.live = true)
    (h : ClosingForFrame s₀ s) :
    wp frameErrors.spec getClient (fun c =>
      wp frameErrors.spec
        (callBack c.callbacks.onWsPeerClosed fun cb => .onWsPeerClosed cb closeCode extraData)
        fun _ => wp frameErrors.spec (pure false) fun (_ : Bool) s' => FrameErrorKept s₀ s') s := by
  rw [wp_getClient]
  apply wp_callSlot (fun _ => rfl)
  · intro cb
    have hcalled := (h.record hs₀ (c := .onWsPeerClosed cb closeCode extraData) rfl).kept
    exact ⟨hcalled.inv, trivial, hcalled⟩
  · exact h.kept.record rfl rfl

theorem receiveCloseFrame_kept (hs₀ : s₀.live = true) (h : FrameErrorKept s₀ s) (fl : FrameLength)
    (isFinal : Bool) (hact : isFinal = true → ¬ Occurs Event.frameError s.log s.currentOpen) :
    KeepsFrameErrors s₀ (receiveCloseFrame fl isFinal) s := by
  simp only [KeepsFrameErrors, receiveCloseFrame, wp_bind, wp_getClient]
  split
  · simp only [wp_bind]
    exact indicateFrameError_kept hs₀ h
  rename_i hfinal
  have hnone := hact (by simpa using hfinal)
  have hfailed : ∀ {s' : Uws} {Q : Unit → Uws → Prop}, ClosingForFrame s₀ s' →
      (∀ r s'', ClosingForFrame s₀ s'' → Q r s'') →
        wp frameErrors.spec (closeUnderlyingIo .closeResponseFailed) Q s' := by
    intro s' Q h' hQ
    exact wp_mono hQ (closeUnderlyingIo_kept hs₀ h'.kept h'.noError _)
  split
  · simp only [wp_bind]
    refine wp_mono ?_ (closeUnderlyingIo_kept hs₀ h hnone _)
    intro _ s' h'
    exact h'.kept
  split
  · simp only [wp_bind, wp_setUwsState]
    apply wp_xioClosing rfl hs₀ (.begin h hnone rfl)
    intro r s' h'
    split
    · simp only [wp_bind]
      refine wp_mono ?_ (indicateWsCloseComplete_kept h'.kept)
      intro _ s'' h''
      simp only [wp_setUwsState]
      exact h''.leave rfl
    · exact h'.kept
  · simp only [wp_bind, wp_setUwsState]
    have hclosing : ClosingForFrame s₀ (s.setState .uwsStateClosingSendingClose) :=
      .begin h hnone rfl
    apply wp_localKept rfl hclosing.kept
    intro res
    split
    · simp only [wp_bind]
      apply hfailed hclosing
      intro _ s' h'
      exact wp_peerClosedKept hs₀ h'
    · simp only [wp_bind]
      apply wp_xioClosing rfl hs₀ hclosing
      intro r s' h'
      split
      · simp only [wp_bind]
        apply hfailed h'
        intro _ s'' h''
        exact wp_peerClosedKept hs₀ h''
      · simp only [wp_bind]
        exact wp_peerClosedKept hs₀ h'

theorem receivePingFrame_kept (hs₀ : s₀.live = true) (h : FrameErrorKept s₀ s) (fl : FrameLength)
    (isFinal : Bool) (hact : isFinal = true → ¬ Occurs Event.frameError s.log s.currentOpen) :
    KeepsFrameErrors s₀ (receivePingFrame fl isFinal) s := by
  simp only [KeepsFrameErrors, receivePingFrame, wp_bind, wp_getClient]
  split
  · simp only [wp_bind]
    exact indicateFrameError_kept hs₀ h
  rename_i hfinal
  have hnone := hact (by simpa using hfinal)
  simp only [wp_bind]
  apply wp_localKept rfl h
  intro res
  split
  · exact h
  · rename_i frame _
    simp only [wp_bind]
    have hcalled := h.recordAction hs₀ hnone (e := .call s.currentOpen (.xioSend .pongFrame frame))
      rfl rfl
    exact wp_xioKept rfl hcalled fun _ _ _ h' _ => h'

theorem receiveFrame_kept (hs₀ : s₀.live = true) (h : FrameErrorKept s₀ s) (fl : FrameLength)
    (hact : s.client.actsOnFrame = true → ¬ Occurs Event.frameError s.log s.currentOpen) :
    KeepsFrameErrors s₀ (receiveFrame (s.client.streamBuffer.getD 0 0 &&& 0xF) fl
      (s.client.streamBuffer.getD 0 0 &&& 0x80 != 0)) s := by
  unfold receiveFrame
  split
  · rename_i hop
    apply receiveContinuationFrame_kept hs₀ h
    intro hfinal htype
    apply hact
    simp only [UwsClientInstance.actsOnFrame, hop, hfinal]
    simpa using htype
  rename_i hcontinuation
  have hacts : ∀ {opcode : UInt8}, s.client.streamBuffer.getD 0 0 &&& 0xF = opcode →
      opcode = wsTextFrame ∨ opcode = wsBinaryFrame ∨ opcode = wsCloseFrame ∨
        opcode = wsPingFrame → (s.client.streamBuffer.getD 0 0 &&& 0x80 != 0) = true →
          ¬ Occurs Event.frameError s.log s.currentOpen := by
    intro opcode hop hkind hfinal
    apply hact
    subst hop
    simp only [UwsClientInstance.actsOnFrame, hfinal, if_neg hcontinuation, Bool.true_and,
      Bool.or_eq_true, beq_iff_eq]
    tauto
  split
  · rename_i hop
    exact receiveDataFrame_kept hs₀ h _ fl _ (hacts hop (.inl rfl))
  split
  · rename_i hop
    exact receiveDataFrame_kept hs₀ h _ fl _ (hacts hop (.inr (.inl rfl)))
  split
  · rename_i hop
    exact receiveCloseFrame_kept hs₀ h fl _ (hacts hop (.inr (.inr (.inl rfl))))
  split
  · rename_i hop
    exact receivePingFrame_kept hs₀ h fl _ (hacts hop (.inr (.inr (.inr rfl))))
  · exact h

/-! ### The loop -/

theorem le_toNat_of_topBit {b : UInt8} (h : b &&& 0x80 ≠ 0) : 128 ≤ b.toNat := by
  have hall : ∀ k : Fin 256, UInt8.ofNat k &&& 0x80 ≠ 0 → 128 ≤ (UInt8.ofNat k).toNat := by
    decide +kernel
  have hb := hall ⟨b.toNat, b.toNat_lt⟩
  simp only [UInt8.ofNat_toNat] at hb
  exact hb h

theorem decodeFrameLength_masked {streamBuffer : Bytes}
    (h : streamBuffer.getD 1 0 &&& 0x80 ≠ 0) :
    decodeFrameLength streamBuffer =
      { length := (streamBuffer.getD 1 0).toNat,
        neededBytes := 2 + (streamBuffer.getD 1 0).toNat } := by
  have hlarge := le_toNat_of_topBit h
  have hne126 : (streamBuffer.getD 1 0).toNat ≠ 126 := by omega
  have hne127 : (streamBuffer.getD 1 0).toNat ≠ 127 := by omega
  simp only [decodeFrameLength, if_neg hne126, if_neg hne127]

theorem decodeFrame_kept (h : FrameErrorKept s₀ s) (hs : s.live = true)
    (hmasked : 2 ≤ s.client.streamBuffer.length → s.client.streamBuffer.getD 1 0 &&& 0x80 ≠ 0 →
      2 + (s.client.streamBuffer.getD 1 0).toNat ≤ s.client.streamBuffer.length →
        s.client.actsOnFrame = false) :
    KeepsFrameErrors s₀ decodeFrame s := by
  have hs₀ := h.live_of_live hs
  have hread : ∀ s', FrameErrorKept s₀ s' →
      ((decodeFrameLength s'.client.streamBuffer).neededBytes ≤ s'.client.streamBuffer.length →
        s'.client.actsOnFrame = true → ¬ Occurs Event.frameError s'.log s'.currentOpen) →
      KeepsFrameErrors s₀ readFrame s' := by
    intro s' h' hact
    simp only [KeepsFrameErrors, readFrame, wp_bind, wp_getClient]
    split
    · simp only [wp_bind]
      exact indicateFrameError_kept hs₀ h'
    split
    · rename_i hcomplete
      simp only [wp_bind]
      refine wp_mono ?_ (receiveFrame_kept hs₀ h' _ (hact hcomplete))
      intro _ s'' h''
      simp only [wp_consumeStreamBufferBytes]
      exact h''.consumed hs₀ _
    · exact h'
  simp only [KeepsFrameErrors, decodeFrame_eq, wp_bind, wp_getClient]
  split
  · rename_i hlength
    split
    · rename_i hmask
      simp only [wp_bind]
      refine wp_mono ?_ (indicateWsErrorAndClose_kept hs₀ h _)
      rintro _ s' ⟨h', hbuffer, htype⟩
      -- The error is out: a frame that is acted upon is not there completely.
      apply hread s' h'
      intro hcomplete hacts
      rw [hbuffer, decodeFrameLength_masked hmask] at hcomplete
      have hacts' : s.client.actsOnFrame = true := by
        simpa only [UwsClientInstance.actsOnFrame, hbuffer, htype] using hacts
      rw [hmasked hlength hmask hcomplete] at hacts'
      cases hacts'
    · exact hread s h fun _ _ => h.inv.stopped hs
  · exact h

theorem decodeUpgradeResponse_kept (h : FrameErrorKept s₀ s) (hs : s.live = true) :
    KeepsFrameErrors s₀ decodeUpgradeResponse s := by
  have hs₀ := h.live_of_live hs
  simp only [KeepsFrameErrors, decodeUpgradeResponse, wp_bind, wp_getClient]
  split
  · exact h
  rename_i requestEnd _
  simp only [wp_bind]
  apply wp_localKept rfl h
  intro errnoSet
  split
  · simp only [wp_bind]
    exact indicateWsOpenCompleteErrorAndClose_kept h _
  split
  · simp only [wp_bind]
    exact indicateWsOpenCompleteErrorAndClose_kept h _
  simp only [wp_bind, wp_consumeStreamBufferBytes, wp_setUwsState, wp_getClient]
  have hconsumed := h.consumed hs₀ (requestEnd + 4)
  have hlive : (s.consumed (requestEnd + 4)).live = true := hs
  exact wp_userQuiet (fun _ => rfl) (fun _ _ => ⟨rfl, rfl⟩) (hconsumed.setState fun _ => hlive)
    fun s' h' _ => h'

theorem decodeRound_kept (h : FrameErrorKept s₀ s) (hmay : s.client.maskedFrameBuffered = false) :
    KeepsFrameErrors s₀ decodeRound s := by
  have hmasked : s.client.uwsState = .uwsStateOpen ∨
      s.client.uwsState = .uwsStateClosingWaitingForClose →
      2 ≤ s.client.streamBuffer.length → s.client.streamBuffer.getD 1 0 &&& 0x80 ≠ 0 →
        2 + (s.client.streamBuffer.getD 1 0).toNat ≤ s.client.streamBuffer.length →
          s.client.actsOnFrame = false := by
    intro hstate hlength hmask hcomplete
    have hmay := hmay
    simp only [UwsClientInstance.maskedFrameBuffered, hlength, hcomplete, bne_iff_ne.2 hmask] at hmay
    simpa [hstate] using hmay
  simp only [KeepsFrameErrors, decodeRound, wp_bind, wp_getClient]
  split
  · simp only [wp_bind]
    exact indicateWsOpenCompleteErrorAndClose_kept h _
  · rename_i hstate
    exact decodeUpgradeResponse_kept h (live_of_state hstate rfl)
  · rename_i hstate
    exact decodeFrame_kept h (live_of_state hstate rfl) (hmasked (.inl hstate))
  · rename_i hstate
    exact decodeFrame_kept h (live_of_state hstate rfl) (hmasked (.inr hstate))
  · exact h

theorem decodeStream_kept (h : FrameErrorKept s₀ s) (hmay : s.client.maskedFrameBuffered = false) :
    KeepsFrameErrors s₀ decodeStream s := by
  simp only [KeepsFrameErrors, decodeStream, wp_bind]
  refine wp_mono ?_ (decodeRound_kept h hmay)
  intro _ s' h'
  split
  · exact wp_innerKept rfl h' fun _ _ h'' => h''
  · exact h'

theorem onUnderlyingIoBytesReceived_kept (h : FrameErrorKept s₀ s) (buffer : Option Bytes) :
    KeepsFrameErrors s₀ (onUnderlyingIoBytesReceived buffer) s := by
  have hdecode : ∀ bytes, s₀.live = true → KeepsFrameErrors s₀ (do
      appendReceivedBytes bytes
      let _ ← callProc .decodeStream
      pure ()) s := by
    intro bytes hs₀
    simp only [KeepsFrameErrors, appendReceivedBytes, wp_bind, wp_modifyClient]
    exact wp_innerKept rfl (h.setBuffer hs₀ rfl) fun _ _ h' => h'
  have hreceive : ∀ bytes, KeepsFrameErrors s₀ (receiveBytes bytes) s := by
    intro bytes
    simp only [KeepsFrameErrors, receiveBytes, wp_bind, wp_getClient]
    split
    · exact indicateWsOpenCompleteErrorAndClose_kept h _
    · rename_i hstate
      simp only [wp_bind]
      apply wp_localKept rfl h
      intro allocated
      split
      · exact indicateWsOpenCompleteErrorAndClose_kept h _
      · exact hdecode bytes (h.live_of_live (live_of_state hstate rfl))
    -- A frame may be there in both states.
    iterate 2
      · rename_i hstate
        simp only [wp_bind]
        apply wp_localKept rfl h
        intro allocated
        split
        · exact indicateWsError_kept h fun _ _ => rfl
        · exact hdecode bytes (h.live_of_live (live_of_state hstate rfl))
    · exact h
  rcases buffer with _ | (_ | ⟨b, bs⟩)
  · exact indicateWsOpenCompleteErrorAndClose_kept h _
  · exact indicateWsOpenCompleteErrorAndClose_kept h _
  · exact hreceive (b :: bs)

/-! ### The user's interface -/

/-- What a function of the interface does. -/
abbrev KeepsInvariant {α : Type} (c : UwsComp α) (s : Uws) : Prop :=
  wp frameErrors.spec c (fun _ s' => FrameErrorInvariant s') s

theorem FrameErrorInvariant.begin (h : FrameErrorInvariant s) (callbacks : OpenCallbacks) :
    FrameErrorInvariant
      ({ s with openCalls := s.openCalls + 1, currentOpen := s.openCalls + 1 }.setClient
        (s.client.beginOpen callbacks)) where
  final := h.final
  stopped _ := h.numbered (s.openCalls + 1) (Nat.lt_succ_self _)
  opened := Nat.le_refl _
  numbered k hk := h.numbered k (Nat.lt_of_succ_lt hk)

theorem openAsyncProc_kept (h : FrameErrorInvariant s) (callbacks : OpenCallbacks) :
    KeepsInvariant (openAsyncProc callbacks) s := by
  have hcounted : FrameErrorInvariant { s with openCalls := s.openCalls + 1 } :=
    { h with
      opened := Nat.le_succ_of_le h.opened
      numbered := fun k hk => h.numbered k (Nat.lt_of_succ_lt hk) }
  have hreturn : ∀ (s' : Uws) (r : Int), FrameErrorInvariant s' →
      FrameErrorInvariant (s'.record (.openAsyncReturned (s.openCalls + 1) r)) :=
    fun s' r h' => h'.record rfl (by rintro _ ⟨⟩)
  simp only [KeepsInvariant, openAsyncProc, wp_bind, wp_get, wp_modify, uwsClientOpenAsync]
  split
  · exact hreturn _ _ hcounted
  simp only [wp_bind, wp_getClient]
  split
  · exact hreturn _ _ hcounted
  simp only [wp_bind, wp_modifyClient, wp_modify]
  have hbegun := (h.begin callbacks).record (e := .openAccepted (s.openCalls + 1)) rfl (by rintro _ ⟨⟩)
  apply wp_xioQuiet rfl (fun _ => rfl) ⟨hbegun, .refl _⟩
  intro r s' _ h' _
  split
  · simp only [wp_bind, wp_setUwsState]
    exact hreturn _ _ (h'.leave rfl).inv
  · exact hreturn _ _ h'.inv

theorem uwsClientCloseAsync_kept (h : FrameErrorKept s₀ s) (cb : Option Callback) :
    KeepsFrameErrors s₀ (uwsClientCloseAsync cb) s := by
  simp only [KeepsFrameErrors, uwsClientCloseAsync, wp_bind, wp_getClient]
  split
  · exact h
  have hset : FrameErrorKept s₀ (s.setClient { s.client with onWsCloseComplete := cb }) :=
    h.setClient rfl rfl rfl
  simp only [wp_bind, wp_modifyClient, wp_setUwsState]
  apply wp_xioQuiet rfl (fun _ => rfl) (hset.leave rfl)
  intro r s' _ h' _
  split
  · simp only [wp_bind]
    exact indicateWsError_kept h' fun _ _ => rfl
  · exact h'

theorem uwsClientCloseHandshakeAsync_kept (h : FrameErrorInvariant s)
    (hpre : s.client.uwsState = .uwsStateError → ¬ Occurs Event.frameError s.log s.currentOpen)
    (closeCode : UInt16) (cb : Option Callback) :
    KeepsInvariant (uwsClientCloseHandshakeAsync closeCode cb) s := by
  have hbegin : ¬ Occurs Event.frameError s.log s.currentOpen → KeepsInvariant (do
      modifyClient fun c => { c with onWsCloseComplete := cb }
      setUwsState .uwsStateClosingWaitingForClose
      let r ← sendCloseFrame closeCode.toNat
      pure (if r ≠ 0 then failure else 0) : UwsComp Int) s := by
    intro hnone
    have hset : FrameErrorInvariant (s.setClient { s.client with onWsCloseComplete := cb }) :=
      h.setClient rfl
    simp only [KeepsInvariant, wp_bind, wp_modifyClient, wp_setUwsState]
    refine wp_mono ?_ (sendCloseFrame_kept ⟨hset.resume hnone, .refl _⟩ _)
    intro _ s' h'
    exact h'.inv
  simp only [KeepsInvariant, uwsClientCloseHandshakeAsync, wp_bind, wp_getClient]
  split
  · exact h
  · exact h
  · exact h
  · exact h
  · apply hbegin
    cases hstate : s.client.uwsState with
    | uwsStateError => exact hpre hstate
    | uwsStateOpeningUnderlyingIo => exact h.stopped (live_of_state hstate rfl)
    | uwsStateWaitingForUpgradeResponse => exact h.stopped (live_of_state hstate rfl)
    | uwsStateOpen => exact h.stopped (live_of_state hstate rfl)
    | _ => contradiction

theorem sendFrameAsyncProc_kept (h : FrameErrorKept s₀ s) (frameType : UInt8)
    (buffer : Option Bytes) (size : Nat) (isFinal : Bool) (cb : Option Callback) :
    KeepsFrameErrors s₀ (sendFrameAsyncProc frameType buffer size isFinal cb) s := by
  have hcounted : FrameErrorKept s₀ { s with sendCalls := s.sendCalls + 1 } :=
    ⟨{ h.inv with }, { h.rel with }⟩
  have hreturn : ∀ (s' : Uws) (r : Int), FrameErrorKept s₀ s' →
      FrameErrorKept s₀ (s'.record (.sendFrameAsyncReturned s.sendCalls cb r)) :=
    fun s' r h' => h'.record rfl rfl
  simp only [KeepsFrameErrors, sendFrameAsyncProc, wp_bind, wp_get, wp_modify,
    uwsClientSendFrameAsync, wp_getClient]
  split
  · exact hreturn _ _ hcounted
  split
  · exact hreturn _ _ hcounted
  simp only [wp_bind]
  apply wp_localKept rfl hcounted
  intro pendingSendAllocated
  split
  · exact hreturn _ _ hcounted
  simp only [wp_bind]
  apply wp_localKept rfl hcounted
  intro res
  split
  · exact hreturn _ _ hcounted
  simp only [wp_bind]
  apply wp_localKept rfl hcounted
  intro itemAllocated
  split
  · exact hreturn _ _ hcounted
  simp only [wp_bind, wp_modifyClient]
  have hadded := hcounted.setClient (c := { s.client with
    pendingSends := s.client.pendingSends ++ [{ item := s.sendCalls, onWsSendFrameComplete := cb }] })
    rfl rfl rfl
  apply wp_xioQuiet rfl (fun _ => rfl) hadded
  intro r s' _ h' _
  split
  · simp only [wp_bind, wp_modifyClient]
    exact hreturn _ _ (h'.setClient rfl rfl rfl)
  · exact hreturn _ _ h'

theorem uwsClientDestroy_kept (h : FrameErrorKept s₀ s) :
    KeepsFrameErrors s₀ uwsClientDestroy s := by
  -- The block is freed first.
  have hfreed : FrameErrorKept s₀ s.fragmentFreed :=
    h.fragmentChecked.setClient (by simp) (by simp) (by simp)
  have hdestroy : ∀ s', FrameErrorKept s₀ s' → KeepsFrameErrors s₀ (do
      let _ ← callOut .xioDestroy
      let _ ← callProc .clearPendingSends
      Comp.modify fun s => { s with destroyed := true }) s' := by
    intro s' h'
    simp only [KeepsFrameErrors, wp_bind]
    apply wp_xioQuiet rfl (fun _ => rfl) h'
    intro _ s₁ _ h₁ _
    apply wp_innerKept rfl h₁
    intro _ s₂ h₂
    simp only [wp_modify]
    exact ⟨{ h₂.inv with }, { h₂.rel with }⟩
  have hclose : KeepsFrameErrors s₀ (do
      let _ ← uwsClientCloseAsync none
      let _ ← callOut .xioDestroy
      let _ ← callProc .clearPendingSends
      Comp.modify fun s => { s with destroyed := true }) s.fragmentFreed := by
    simp only [KeepsFrameErrors, wp_bind]
    refine wp_mono ?_ (uwsClientCloseAsync_kept hfreed none)
    intro _ s' h'
    have hdestroy' := hdestroy s' h'
    simpa only [KeepsFrameErrors, wp_bind] using hdestroy'
  simp only [KeepsFrameErrors, uwsClientDestroy, wp_bind, wp_freeFragmentBuffer, wp_getClient]
  split
  · simpa only [KeepsFrameErrors, wp_bind] using hclose
  · simpa only [KeepsFrameErrors, wp_bind] using hclose
  · simpa only [KeepsFrameErrors, wp_bind] using hdestroy _ hfreed

theorem uwsClientDowork_kept (h : FrameErrorKept s₀ s) :
    KeepsFrameErrors s₀ uwsClientDowork s := by
  simp only [KeepsFrameErrors, uwsClientDowork, wp_bind, wp_getClient]
  split
  · simp only [wp_bind]
    exact wp_xioQuiet rfl (fun _ => rfl) h fun _ _ _ h' _ => h'
  · exact h

theorem void_kept {c : UwsComp Unit} (h : KeepsFrameErrors s₀ c s) :
    KeepsFrameErrors s₀ (void c) s := by
  simp only [KeepsFrameErrors, void, wp_bind]
  exact h

theorem uwsCode_kept (h : FrameErrorKept s₀ s) {p : Proc}
    (hmay : frameErrorRun.mayRun p s = true)
    (hopen : ∀ callbacks, p ≠ .uwsClientOpenAsync callbacks)
    (hclose : ∀ code cb, p ≠ .uwsClientCloseHandshakeAsync code cb) :
    KeepsFrameErrors s₀ (uwsCode p) s := by
  cases p with
  | uwsClientOpenAsync callbacks => exact absurd rfl (hopen callbacks)
  | uwsClientCloseAsync cb => exact uwsClientCloseAsync_kept h cb
  | uwsClientCloseHandshakeAsync code cb => exact absurd rfl (hclose code cb)
  | uwsClientSendFrameAsync frameType buffer size isFinal cb =>
    exact sendFrameAsyncProc_kept h frameType buffer size isFinal cb
  | uwsClientDowork => exact void_kept (uwsClientDowork_kept h)
  | uwsClientDestroy => exact void_kept (uwsClientDestroy_kept h)
  | onUnderlyingIoOpenComplete result code =>
    exact void_kept (onUnderlyingIoOpenComplete_kept h result code)
  | onUnderlyingIoBytesReceived buffer =>
    exact void_kept (onUnderlyingIoBytesReceived_kept h buffer)
  | onUnderlyingIoError => exact void_kept (onUnderlyingIoError_kept h)
  | onUnderlyingIoCloseComplete => exact void_kept (onUnderlyingIoCloseComplete_kept h)
  | onUnderlyingIoCloseSent result => exact void_kept (onUnderlyingIoCloseSent_kept h result)
  | onUnderlyingIoSendComplete item result =>
    exact void_kept (onUnderlyingIoSendComplete_kept h item result)
  | decodeStream => exact decodeStream_kept h (by simpa [frameErrorRun] using hmay)
  | clearPendingSends => exact clearPendingSends_kept h

end

/-! ## Every run -/

theorem frameErrors_sound : frameErrors.Sound where
  env_le := by
    intro top p s hmay
    exact (Bool.and_eq_true_iff.1 hmay).1
  refl s := .refl s
  trans _ _ _ h h' := h.trans h'
  enter := by
    intro top p s _ hmay
    have hmay := (Bool.and_eq_true_iff.1 hmay).2
    cases p with
    | uwsClientCloseHandshakeAsync code cb =>
      intro hstate
      rw [← failedFrame_iff]
      simpa [hstate] using hmay
    | _ => trivial
  code := by
    intro p s h hpre hmay
    by_cases hopen : ∃ callbacks, p = .uwsClientOpenAsync callbacks
    · rcases hopen with ⟨callbacks, rfl⟩
      refine wp_mono ?_ (openAsyncProc_kept h callbacks)
      intro _ s' h'
      exact ⟨h', nofun⟩
    by_cases hclose : ∃ code cb, p = .uwsClientCloseHandshakeAsync code cb
    · rcases hclose with ⟨code, cb, rfl⟩
      refine wp_mono ?_ (uwsClientCloseHandshakeAsync_kept h hpre code cb)
      intro _ s' h'
      exact ⟨h', nofun⟩
    refine wp_mono ?_ (uwsCode_kept ⟨h, .refl s⟩ hmay (fun callbacks hp => hopen ⟨callbacks, hp⟩)
      fun code cb hp => hclose ⟨code, cb, hp⟩)
    intro _ s' h'
    exact ⟨h'.inv, fun _ => h'.rel⟩

/-- In a run that meets the condition, nothing is done for a frame after an error for one. -/
theorem frameErrorsFinal_of_frameErrorRun {s₀ s : Uws} {st : List (Frame Uws uwsSignature)}
    (hopened : s₀.currentOpen ≤ s₀.openCalls) (hlog : s₀.log = [])
    (h : Reachable uwsCode frameErrorRun s₀ (.env s st)) : FrameErrorsFinal s := by
  have hinv : frameErrors.inv s₀ :=
    { final := by simp [hlog]
      stopped := by simp [hlog]
      opened := hopened
      numbered := by simp [hlog] }
  have hinv' := frameErrors_sound.reachable_inv hinv h
  refine ⟨hinv'.final, ?_⟩
  intro hfailed hstate
  exact hinv'.stopped (live_of_state hstate rfl) (failedFrame_iff.1 hfailed)

/-- A client that is OPEN on its first connection. -/
def connectedClient : Uws where
  client := { createdClient.client with uwsState := .uwsStateOpen, callbacks := someCallbacks }
  openCalls := 1
  currentOpen := 1

/-- A CONTINUATION frame outside a message, and then a TEXT frame. -/
def badFragmentThenText : List (Input uwsSignature) :=
  [.enter (.onUnderlyingIoBytesReceived (some [0x80, 0x00])), .answer succeeds, .answer succeeds,
    .answer succeeds, .enter (.onUnderlyingIoBytesReceived (some [0x81, 0x01, 0x41]))]

theorem frameErrorsFinal_badFragmentThenText :
    ∃ s st, Reachable uwsCode frameErrorRun connectedClient (.env s st) ∧
      s.failedFrame = true ∧ FrameErrorsFinal s := by
  have hrun : ∃ s st, frameErrorRun.runInputs uwsCode 20 (.env connectedClient [])
      badFragmentThenText = some (.env s st) ∧ s.failedFrame = true := ⟨_, _, rfl, rfl⟩
  rcases hrun with ⟨s, st, hrun, hfailed⟩
  have hreach := Env.runInputs_sound _ hrun
  exact ⟨s, st, hreach, hfailed, frameErrorsFinal_of_frameErrorRun (by decide) rfl hreach⟩

/-- A masked TEXT frame with as many bytes as its second byte says, mask bit included. -/
def maskedText : List (Input uwsSignature) :=
  [.enter (.onUnderlyingIoBytesReceived (some ([0x81, 0x81] ++ List.replicate 129 0x41))),
    .answer succeeds, .answer succeeds, .answer succeeds, .answer succeeds]

set_option maxRecDepth 4000 in
/-- The masked frame is delivered after the error for it. -/
theorem maskedText_delivered :
    ¬ ∀ (s₀ s : Uws) (st : List (Frame Uws uwsSignature)),
        s₀.currentOpen ≤ s₀.openCalls → s₀.log = [] →
          Reachable uwsCode anyRun s₀ (.env s st) → FrameErrorsFinal s := by
  intro h
  have hrun : ∃ s st, anyRun.runInputs uwsCode 20 (.env connectedClient []) maskedText =
      some (.env s st) ∧
        ((s.log.take 2).any fun ev => ev.frameError == some 1) = true ∧
          ((s.log.drop 2).any fun ev => ev.frameAction == some 1) = true := ⟨_, _, rfl, rfl, rfl⟩
  rcases hrun with ⟨s, st, hrun, herror, haction⟩
  have hfinal := (h _ _ _ (by decide) rfl (Env.runInputs_sound _ hrun)).1
  apply hfinal (s.log.take 2) (s.log.drop 2) (List.take_append_drop 2 s.log).symm 1
  · simpa [Occurs] using herror
  · simpa [Occurs] using haction

end SharedUtility.UwsClient
