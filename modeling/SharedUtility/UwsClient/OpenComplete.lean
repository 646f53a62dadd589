import SharedUtility.Reentrant.Trace
import SharedUtility.UwsClient.Runs

/-!
# OpenComplete — one open, one `on_ws_open_complete`

A client that is opening has not reported the end of the open yet, and the report takes it out of
these states.  This fails where an event is reported as the end of an open without a look at the
state, and where the io reports the end of the open while the client is sending the upgrade request
or closing after a failed open: the client goes on there as if it were opening still.
-/

namespace SharedUtility.UwsClient

open Reentrant

def UwsState.opening : UwsState → Bool
  | .uwsStateOpeningUnderlyingIo | .uwsStateWaitingForUpgradeResponse => true
  | _ => false

def Uws.opening (s : Uws) : Bool :=
  s.client.uwsState.opening

/-- The open that an event reports as complete. -/
def Event.completedOpen : Event → Option Nat
  | .call k (.onWsOpenComplete _ _) => some k
  | _ => none

/-- The open that was refused with this event. -/
def Event.refusedOpen : Event → Option Nat
  | .openAsyncReturned k r => if r ≠ 0 then some k else none
  | _ => none

/-- How often an open has been reported as complete. -/
def Uws.openCompletions (s : Uws) (k : Nat) : Nat :=
  s.log.countP fun ev => ev.completedOpen == some k

/-- Every open is reported as complete at most once, and not after it was refused. -/
def CompletesOnce (s : Uws) : Prop :=
  (∀ k, s.openCompletions k ≤ 1) ∧ NeverAfter Event.refusedOpen Event.completedOpen s.log

/-- The condition.  The io reports its open complete, and hands over no bytes at all, only while the
client is opening; and the client is opening still when the io returns from sending the upgrade
request and from the close after a failed open. -/
def openOnceRun : Env Uws uwsSignature where
  mayEnter top p s :=
    anyRun.mayEnter top p s &&
    (match p with
      | .onUnderlyingIoOpenComplete _ _ | .onUnderlyingIoBytesReceived none
      | .onUnderlyingIoBytesReceived (some []) => s.opening
      | _ => true)
  mayAnswer c _ s :=
    match c with
    | .xioSend .upgradeRequest _ | .xioClose .failedOpen => s.opening
    | _ => true

/-! ## The invariant -/

/-- `n` is a lower bound for the number of opens so far. -/
structure OpenInvariant (n : Nat) (s : Uws) : Prop where
  counted : n ≤ s.openCalls
  completesOnce : CompletesOnce s
  unreported : s.opening = true →
    s.currentOpen ≤ s.openCalls ∧ s.openCompletions s.currentOpen = 0 ∧
      ¬ Occurs Event.refusedOpen s.log s.currentOpen
  numbered : ∀ k, s.openCalls < k → s.openCompletions k = 0 ∧ ¬ Occurs Event.refusedOpen s.log k

section

variable {n : Nat} {s s' : Uws}

/-- Only the log, the numbers of the opens, and whether the client is opening matter. -/
theorem OpenInvariant.congr (h : OpenInvariant n s) (hlog : s'.log = s.log)
    (hcalls : s'.openCalls = s.openCalls) (hcurrent : s'.currentOpen = s.currentOpen)
    (hopening : s'.opening = true → s.opening = true) : OpenInvariant n s' where
  counted := hcalls ▸ h.counted
  completesOnce := by
    simpa only [CompletesOnce, Uws.openCompletions, hlog] using h.completesOnce
  unreported := by
    intro hop
    simpa only [Uws.openCompletions, hlog, hcalls, hcurrent] using h.unreported (hopening hop)
  numbered := by
    simpa only [Uws.openCompletions, hlog, hcalls] using h.numbered

theorem OpenInvariant.setClient (h : OpenInvariant n s) {c : UwsClientInstance}
    (hc : c.uwsState = s.client.uwsState) : OpenInvariant n (s.setClient c) := by
  refine h.congr rfl rfl rfl ?_
  intro hop
  simpa [Uws.opening, hc] using hop

theorem OpenInvariant.setState (h : OpenInvariant n s) {st : UwsState}
    (hst : st.opening = true → s.opening = true) : OpenInvariant n (s.setState st) :=
  h.congr rfl rfl rfl hst

theorem OpenInvariant.leave (h : OpenInvariant n s) {st : UwsState} (hst : st.opening = false) :
    OpenInvariant n (s.setState st) := by
  apply h.setState
  simp [hst]

theorem openCompletions_record (ev : Event) (k : Nat) :
    (s.record ev).openCompletions k =
      s.openCompletions k + if ev.completedOpen = some k then 1 else 0 := by
  simp [Uws.openCompletions]

theorem CompletesOnce.record (h : CompletesOnce s) {ev : Event}
    (hev : ∀ k, ev.completedOpen = some k →
      s.openCompletions k = 0 ∧ ¬ Occurs Event.refusedOpen s.log k) :
    CompletesOnce (s.record ev) := by
  refine ⟨?_, h.2.concat fun k hk => (hev k hk).2⟩
  intro k
  rw [openCompletions_record]
  by_cases hk : ev.completedOpen = some k
  · simp [hk, (hev k hk).1]
  · simpa [hk] using h.1 k

theorem OpenInvariant.record (h : OpenInvariant n s) {e : Event} (hcompleted : e.completedOpen = none)
    (hrefused : e.refusedOpen = none) : OpenInvariant n (s.record e) where
  counted := h.counted
  completesOnce := h.completesOnce.record (by simp [hcompleted])
  unreported := by
    intro hop
    simpa [openCompletions_record, occurs_concat, hcompleted, hrefused] using h.unreported hop
  numbered := by
    simpa [openCompletions_record, occurs_concat, hcompleted, hrefused] using h.numbered

theorem OpenInvariant.consumed (h : OpenInvariant n s) (consumedBytes : Nat) :
    OpenInvariant n (s.consumed consumedBytes) := by
  unfold Uws.consumed
  split
  · exact (h.record rfl rfl).setClient rfl
  · exact h.setClient rfl

theorem OpenInvariant.fragmentChecked (h : OpenInvariant n s) :
    OpenInvariant n s.fragmentChecked := by
  unfold Uws.fragmentChecked
  split
  · exact h.record rfl rfl
  · exact h

/-- The open that is under way is reported, and the client leaves the opening states. -/
theorem OpenInvariant.complete (h : OpenInvariant n s) (hop : s.opening = true) {st : UwsState}
    (hst : st.opening = false) (cb : Callback) (r : WsOpenResultDetailed) :
    OpenInvariant n ((s.setState st).record (.call s.currentOpen (.onWsOpenComplete cb r))) := by
  have hcurrent := h.unreported hop
  have hset : OpenInvariant n (s.setState st) :=
    h.congr rfl rfl rfl fun hop' => absurd (show st.opening = true from hop') (by simp [hst])
  constructor
  case counted => exact h.counted
  case completesOnce =>
    apply hset.completesOnce.record
    intro k hk
    cases hk
    exact hcurrent.2
  case unreported =>
    intro hop'
    exact absurd (show st.opening = true from hop') (by simp [hst])
  case numbered =>
    intro k hk
    have hk' : s.openCalls < k := hk
    have hne : s.currentOpen ≠ k := by omega
    have hnumbered := hset.numbered k hk
    rw [openCompletions_record, Uws.record_log, occurs_concat]
    simpa [Event.completedOpen, Event.refusedOpen, hne] using hnumbered

theorem OpenInvariant.refuse (h : OpenInvariant n s) {k : Nat} (hk : k ≤ s.openCalls)
    (hop : s.opening = true → s.currentOpen ≠ k) (r : Int) :
    OpenInvariant n (s.record (.openAsyncReturned k r)) where
  counted := h.counted
  completesOnce := h.completesOnce.record nofun
  unreported := by
    intro hop'
    have hcurrent := h.unreported hop'
    rw [openCompletions_record, Uws.record_log, occurs_concat]
    have hne : Event.refusedOpen (.openAsyncReturned k r) ≠ some s.currentOpen := by
      have := hop hop'
      simp only [Event.refusedOpen]
      grind
    simpa [Event.completedOpen, hne] using hcurrent
  numbered := by
    intro k' hk'
    have hk' : s.openCalls < k' := hk'
    have hnumbered := h.numbered k' hk'
    rw [openCompletions_record, Uws.record_log, occurs_concat]
    have hne : Event.refusedOpen (.openAsyncReturned k r) ≠ some k' := by
      simp only [Event.refusedOpen]
      grind
    simpa [Event.completedOpen, hne] using hnumbered

end

/-! ## The code -/

def openOnce : Discipline where
  env := openOnceRun
  inv := OpenInvariant 0
  rel s s' := s.openCalls ≤ s'.openCalls
  callPre _ _ := True
  procPre _ _ := True

section

open Discipline

variable {n : Nat} {s : Uws}

/-- What every function does: it keeps the invariant. -/
abbrev KeepsOpen (n : Nat) {α : Type} (c : UwsComp α) (s : Uws) : Prop :=
  wp openOnce.spec c (fun _ s' => OpenInvariant n s') s

theorem OpenInvariant.inv (h : OpenInvariant n s) : openOnce.inv s :=
  { h with counted := Nat.zero_le _ }

theorem OpenInvariant.later {s' : Uws} (h : OpenInvariant n s) (h' : openOnce.inv s')
    (hrel : openOnce.rel s s') : OpenInvariant n s' :=
  { h' with counted := Nat.le_trans h.counted hrel }

theorem wp_xio {c : Call} {Q : Ans c → Uws → Prop} (hc : c.isXio = true) (h : OpenInvariant n s)
    (hQ : ∀ r s', openOnceRun.mayAnswer c r s' = true → OpenInvariant n s' → Q r s') :
    wp openOnce.spec (callOut c) Q s := by
  have hquiet : ∀ k, Event.completedOpen (.call k c) = none := by
    intro k
    cases c
    all_goals first | rfl | cases hc
  have hcalled := h.record (hquiet s.currentOpen) rfl
  apply wp_callXio hc hcalled.inv trivial
  intro r s' hans h' hrel
  exact hQ r s' hans (hcalled.later h' hrel)

theorem wp_local {c : Call} {Q : Ans c → Uws → Prop} (hc : c.isXio = false)
    (h : OpenInvariant n s) (hQ : ∀ r, Q r s) : wp openOnce.spec (ask c) Q s :=
  wp_askLocal hc h.inv trivial hQ

theorem wp_user {slot : Option Callback} {c : Callback → Call} {Q : Unit → Uws → Prop}
    (hc : ∀ cb, (c cb).isXio = false) (hquiet : ∀ k cb, Event.completedOpen (.call k (c cb)) = none)
    (h : OpenInvariant n s)
    (hQ : ∀ s', OpenInvariant n s' → s'.client = s.client → Q () s') :
    wp openOnce.spec (callBack slot c) Q s := by
  apply wp_callSlot hc
  · intro cb
    have hcalled := h.record (hquiet s.currentOpen cb) rfl
    exact ⟨hcalled.inv, trivial, hQ _ hcalled rfl⟩
  · exact hQ _ (h.record rfl rfl) rfl

theorem wp_inner {p : Proc} {Q : Int → Uws → Prop} (hp : p.isApi = false)
    (h : OpenInvariant n s) (hQ : ∀ r s', OpenInvariant n s' → Q r s') :
    wp openOnce.spec (callProc p) Q s := by
  rw [wp_callProc]
  refine ⟨⟨h.inv, trivial⟩, ?_⟩
  intro r s' hs'
  exact hQ r s' (h.later hs'.1 (hs'.2 hp))

/-! ### Reports of the end of an open -/

theorem indicateWsOpenCompleteError_keeps (h : OpenInvariant n s) (hop : s.opening = true)
    (r : WsOpenResultDetailed) : KeepsOpen n (indicateWsOpenCompleteError r) s := by
  simp only [KeepsOpen, indicateWsOpenCompleteError, wp_bind, wp_setUwsState, wp_getClient]
  apply wp_callSlot (fun _ => rfl)
  · intro cb
    have hcompleted : OpenInvariant n ((s.setState .uwsStateClosed).record
        (.call s.currentOpen (.onWsOpenComplete cb r))) := h.complete hop rfl cb r
    exact ⟨hcompleted.inv, trivial, hcompleted⟩
  · exact (h.leave rfl).record rfl rfl

/-- The client is opening when the io has closed, whatever the io has called meanwhile. -/
theorem indicateWsOpenCompleteErrorAndClose_keeps (h : OpenInvariant n s)
    (r : WsOpenResultDetailed) : KeepsOpen n (indicateWsOpenCompleteErrorAndClose r) s := by
  simp only [KeepsOpen, indicateWsOpenCompleteErrorAndClose, xioClose, wp_bind]
  apply wp_xio rfl h
  intro _ s' hans h'
  exact indicateWsOpenCompleteError_keeps h' hans r

theorem sendUpgradeRequest_keeps (h : OpenInvariant n s) :
    KeepsOpen n sendUpgradeRequest s := by
  have hfail := fun r => indicateWsOpenCompleteErrorAndClose_keeps h r
  simp only [KeepsOpen, sendUpgradeRequest, wp_bind, wp_getClient]
  apply wp_local rfl h
  intro nonce
  apply wp_local rfl h
  intro base64Allocated
  split
  · exact hfail _
  simp only [wp_bind]
  apply wp_local rfl h
  intro headersAllocated
  split
  · exact hfail _
  split
  · exact hfail _
  simp only [wp_bind]
  apply wp_local rfl h
  intro requestAllocated
  split
  · exact hfail _
  split
  · exact hfail _
  simp only [wp_bind, xioSend]
  apply wp_xio rfl h
  intro r s' hans h'
  split
  · exact indicateWsOpenCompleteErrorAndClose_keeps h' _
  · rw [wp_setUwsState]
    exact h'.setState fun _ => hans

theorem onUnderlyingIoOpenComplete_keeps (h : OpenInvariant n s) (openResult : IoOpenResult)
    (code : Int) : KeepsOpen n (onUnderlyingIoOpenComplete openResult code) s := by
  simp only [KeepsOpen, onUnderlyingIoOpenComplete, wp_bind, wp_getClient]
  split
  · rename_i hstate
    cases openResult with
    | ioOpenOk => exact sendUpgradeRequest_keeps h
    | ioOpenError => exact indicateWsOpenCompleteError_keeps h (by simp [Uws.opening, hstate,
        UwsState.opening]) _
    | ioOpenCancelled => exact indicateWsOpenCompleteErrorAndClose_keeps h _
  · exact indicateWsOpenCompleteErrorAndClose_keeps h _

theorem decodeUpgradeResponse_keeps (h : OpenInvariant n s) (hop : s.opening = true) :
    KeepsOpen n decodeUpgradeResponse s := by
  simp only [KeepsOpen, decodeUpgradeResponse, wp_bind, wp_getClient]
  split
  · exact h
  rename_i requestEnd _
  simp only [wp_bind]
  apply wp_local rfl h
  intro errnoSet
  split
  · simp only [wp_bind]
    exact indicateWsOpenCompleteErrorAndClose_keeps h _
  split
  · simp only [wp_bind]
    exact indicateWsOpenCompleteErrorAndClose_keeps h _
  simp only [wp_bind, wp_consumeStreamBufferBytes, wp_setUwsState, wp_getClient]
  let s₁ := s.consumed (requestEnd + 4)
  have h₁ : OpenInvariant n s₁ := h.consumed _
  have hop₁ : s₁.opening = true := hop
  apply wp_callSlot (fun _ => rfl)
  · intro cb
    have hcompleted : OpenInvariant n ((s₁.setState .uwsStateOpen).record
        (.call s₁.currentOpen (.onWsOpenComplete cb { result := .wsOpenOk }))) :=
      h₁.complete hop₁ rfl cb _
    exact ⟨hcompleted.inv, trivial, hcompleted⟩
  · exact (h₁.leave rfl).record rfl rfl

/-! ### Everything else -/

theorem indicateWsError_keeps (h : OpenInvariant n s) (error : WsError) :
    KeepsOpen n (indicateWsError error) s := by
  simp only [KeepsOpen, indicateWsError, wp_bind, wp_setUwsState, wp_getClient]
  apply wp_user (fun _ => rfl) (fun _ _ => rfl) (h.leave rfl)
  intro s' h' _
  exact h'

theorem completeSendFrame_keeps (h : OpenInvariant n s) (wsPendingSend : WsPendingSend)
    (r : WsSendFrameResult) : KeepsOpen n (completeSendFrame wsPendingSend r) s := by
  simp only [KeepsOpen, completeSendFrame, wp_bind, wp_getClient]
  split
  · exact h
  simp only [wp_bind, wp_modifyClient]
  have hremoved : OpenInvariant n (s.setClient { s.client with
      pendingSends := s.client.pendingSends.filter (·.item != wsPendingSend.item) }) :=
    h.setClient rfl
  cases wsPendingSend.onWsSendFrameComplete with
  | none => exact hremoved
  | some cb =>
    simp only [wp_bind]
    apply wp_callUser rfl (hremoved.record rfl rfl).inv trivial
    intro _
    exact hremoved.record rfl rfl

theorem clearPendingSends_keeps (h : OpenInvariant n s) : KeepsOpen n clearPendingSends s := by
  simp only [KeepsOpen, clearPendingSends, wp_bind, wp_getClient]
  cases s.client.pendingSends with
  | nil => exact h
  | cons firstPendingSend rest =>
    simp only [wp_bind]
    refine wp_mono ?_ (completeSendFrame_keeps h firstPendingSend .wsSendFrameCancelled)
    intro _ s' h'
    exact wp_inner rfl h' fun _ _ h'' => h''

theorem indicateWsCloseComplete_keeps (h : OpenInvariant n s) :
    KeepsOpen n indicateWsCloseComplete s := by
  simp only [KeepsOpen, indicateWsCloseComplete, wp_bind, wp_setUwsState]
  apply wp_inner rfl (h.leave rfl)
  intro _ s' h'
  simp only [wp_getClient]
  cases s'.client.onWsCloseComplete with
  | none => exact h'
  | some cb =>
    simp only [wp_bind]
    apply wp_callUser rfl (h'.record rfl rfl).inv trivial
    intro _
    exact h'.record rfl rfl

theorem sendCloseFrame_keeps (h : OpenInvariant n s) (closeErrorCode : Nat) :
    KeepsOpen n (sendCloseFrame closeErrorCode) s := by
  simp only [KeepsOpen, sendCloseFrame, wp_bind]
  apply wp_local rfl h
  intro res
  split
  · exact h
  simp only [wp_bind]
  exact wp_xio rfl h fun _ _ _ h' => h'

theorem indicateWsErrorAndClose_keeps (h : OpenInvariant n s) (error : WsError)
    (closeErrorCode : Nat) : KeepsOpen n (indicateWsErrorAndClose error closeErrorCode) s := by
  simp only [KeepsOpen, indicateWsErrorAndClose, wp_bind, wp_setUwsState]
  refine wp_mono ?_ (sendCloseFrame_keeps (h.leave rfl) closeErrorCode)
  intro _ s' h'
  simp only [wp_getClient]
  apply wp_user (fun _ => rfl) (fun _ _ => rfl) h'
  intro s'' h'' _
  exact h''

theorem closeUnderlyingIo_keeps (h : OpenInvariant n s) (purpose : ClosePurpose) :
    KeepsOpen n (closeUnderlyingIo purpose) s := by
  simp only [KeepsOpen, closeUnderlyingIo, wp_bind, wp_setUwsState]
  apply wp_xio rfl (h.leave rfl)
  intro r s' _ h'
  split
  · simp only [wp_bind]
    refine wp_mono ?_ (indicateWsError_keeps h' _)
    intro _ s'' h''
    rw [wp_setUwsState]
    exact h''.leave rfl
  · exact h'

/-! ### Callbacks of the underlying io -/

theorem onUnderlyingIoCloseComplete_keeps (h : OpenInvariant n s) :
    KeepsOpen n onUnderlyingIoCloseComplete s := by
  simp only [KeepsOpen, onUnderlyingIoCloseComplete, wp_bind, wp_getClient]
  split
  · simp only [wp_bind]
    refine wp_mono ?_ (indicateWsCloseComplete_keeps h)
    intro _ s' h'
    rw [wp_setUwsState]
    exact h'.leave rfl
  · exact h

theorem onUnderlyingIoCloseSent_keeps (h : OpenInvariant n s) (ioSendResult : IoSendResult) :
    KeepsOpen n (onUnderlyingIoCloseSent ioSendResult) s := by
  have hsent : KeepsOpen n (do
      let c ← getClient
      if c.uwsState = .uwsStateClosingSendingClose then do
        setUwsState .uwsStateClosingUnderlyingIo
        let r ← xioClose .closeSent
        if r ≠ 0 then indicateWsCloseComplete else pure ()
      else pure ()) s := by
    simp only [KeepsOpen, wp_bind, wp_getClient]
    split
    · simp only [wp_bind, wp_setUwsState]
      apply wp_xio rfl (h.leave rfl)
      intro r s' _ h'
      split
      · exact indicateWsCloseComplete_keeps h'
      · exact h'
    · exact h
  cases ioSendResult with
  | ioSendError => exact h
  | ioSendOk => exact hsent
  | ioSendCancelled => exact hsent

theorem onUnderlyingIoError_keeps (h : OpenInvariant n s) : KeepsOpen n onUnderlyingIoError s := by
  have hclosing : KeepsOpen n (do
      let _ ← xioClose .ioErrorWhileClosing
      indicateWsCloseComplete) s := by
    simp only [KeepsOpen, wp_bind]
    apply wp_xio rfl h
    intro _ s' _ h'
    exact indicateWsCloseComplete_keeps h'
  simp only [KeepsOpen, onUnderlyingIoError, wp_bind, wp_getClient]
  split
  · exact hclosing
  · exact hclosing
  · exact hclosing
  · exact indicateWsOpenCompleteErrorAndClose_keeps h _
  · exact indicateWsOpenCompleteErrorAndClose_keeps h _
  · exact indicateWsError_keeps h _
  · exact h

theorem onUnderlyingIoSendComplete_keeps (h : OpenInvariant n s) (item : Nat) (r : IoSendResult) :
    KeepsOpen n (onUnderlyingIoSendComplete item r) s := by
  simp only [KeepsOpen, onUnderlyingIoSendComplete, wp_bind, wp_getClient]
  split
  · rw [wp_fault]
    exact h.record rfl rfl
  · simp only [wp_bind]
    refine wp_mono ?_ (completeSendFrame_keeps h _ _)
    intro _ s' h'
    split
    · exact indicateWsError_keeps h' _
    · exact h'

theorem reallocFragmentBuffer_keeps (h : OpenInvariant n s) (size : Nat) :
    KeepsOpen n (reallocFragmentBuffer size) s := by
  simp only [KeepsOpen, reallocFragmentBuffer, wp_bind, wp_checkFragmentBuffer, wp_getClient]
  split
  · simp only [wp_bind, wp_modifyClient, wp_pure]
    exact h.fragmentChecked.setClient rfl
  · simp only [malloc, wp_bind]
    apply wp_local rfl h.fragmentChecked
    intro allocated
    cases allocated with
    | false => exact h.fragmentChecked
    | true => exact h.fragmentChecked.setClient rfl

theorem processFrameFragment_keeps (h : OpenInvariant n s) (fl : FrameLength) :
    KeepsOpen n (processFrameFragment fl) s := by
  simp only [KeepsOpen, processFrameFragment, wp_bind, wp_getClient]
  refine wp_mono ?_ (reallocFragmentBuffer_keeps h _)
  intro allocated s' h'
  split
  · simp only [wp_bind]
    exact indicateWsError_keeps h' _
  · simp only [wp_bind, wp_modifyClient]
    exact h'.setClient rfl

theorem receiveContinuationFrame_keeps (h : OpenInvariant n s) (fl : FrameLength) (isFinal : Bool) :
    KeepsOpen n (receiveContinuationFrame fl isFinal) s := by
  simp only [KeepsOpen, receiveContinuationFrame, wp_bind]
  refine wp_mono ?_ (processFrameFragment_keeps h fl)
  intro r s' h'
  split
  · exact h'
  split
  · simp only [wp_bind, wp_getClient]
    split
    · simp only [wp_bind]
      exact indicateWsError_keeps h' _
    · simp only [wp_bind]
      apply wp_user (fun _ => rfl) (fun _ _ => rfl) h'
      intro s'' h'' _
      simp only [wp_modifyClient]
      exact h''.setClient rfl
  · exact h'

theorem receiveDataFrame_keeps (h : OpenInvariant n s) (frameType : UInt8) (fl : FrameLength)
    (isFinal : Bool) : KeepsOpen n (receiveDataFrame frameType fl isFinal) s := by
  simp only [KeepsOpen, receiveDataFrame, wp_bind, wp_getClient]
  split
  · simp only [wp_bind]
    apply wp_user (fun _ => rfl) (fun _ _ => rfl) h
    intro s' h' _
    exact h'
  split
  · simp only [wp_bind]
    exact indicateWsError_keeps h _
  · simp only [wp_bind]
    refine wp_mono ?_ (processFrameFragment_keeps h fl)
    intro r s' h'
    split
    · exact h'
    · simp only [wp_bind, wp_modifyClient]
      exact h'.setClient rfl

theorem wp_peerClosed {closeCode : Option Nat} {extraData : Bytes} (h : OpenInvariant n s) :
    wp openOnce.spec getClient (fun c =>
      wp openOnce.spec
        (callBack c.callbacks.onWsPeerClosed fun cb => .onWsPeerClosed cb closeCode extraData)
        fun _ => wp openOnce.spec (pure false) fun (_ : Bool) s' => OpenInvariant n s') s := by
  rw [wp_getClient]
  apply wp_user (fun _ => rfl) (fun _ _ => rfl) h
  intro s' h' _
  exact h'

theorem receiveCloseFrame_keeps (h : OpenInvariant n s) (fl : FrameLength) (isFinal : Bool) :
    KeepsOpen n (receiveCloseFrame fl isFinal) s := by
  have hfailed : ∀ {s' : Uws} {Q : Unit → Uws → Prop}, OpenInvariant n s' →
      (∀ r s'', OpenInvariant n s'' → Q r s'') →
        wp openOnce.spec (closeUnderlyingIo .closeResponseFailed) Q s' := by
    intro s' Q h' hQ
    exact wp_mono hQ (closeUnderlyingIo_keeps h' _)
  simp only [KeepsOpen, receiveCloseFrame, wp_bind, wp_getClient]
  split
  · simp only [wp_bind]
    exact indicateWsError_keeps h _
  split
  · simp only [wp_bind]
    exact closeUnderlyingIo_keeps h _
  split
  · simp only [wp_bind, wp_setUwsState]
    apply wp_xio rfl (h.leave rfl)
    intro r s' _ h'
    split
    · simp only [wp_bind]
      refine wp_mono ?_ (indicateWsCloseComplete_keeps h')
      intro _ s'' h''
      simp only [wp_setUwsState]
      exact h''.leave rfl
    · exact h'
  · simp only [wp_bind, wp_setUwsState]
    apply wp_local rfl (h.leave rfl)
    intro res
    split
    · simp only [wp_bind]
      apply hfailed (h.leave rfl)
      intro _ s' h'
      exact wp_peerClosed h'
    · simp only [wp_bind]
      apply wp_xio rfl (h.leave rfl)
      intro r s' _ h'
      split
      · simp only [wp_bind]
        apply hfailed h'
        intro _ s'' h''
        exact wp_peerClosed h''
      · simp only [wp_bind]
        exact wp_peerClosed h'

theorem receivePingFrame_keeps (h : OpenInvariant n s) (fl : FrameLength) (isFinal : Bool) :
    KeepsOpen n (receivePingFrame fl isFinal) s := by
  simp only [KeepsOpen, receivePingFrame, wp_bind, wp_getClient]
  split
  · simp only [wp_bind]
    exact indicateWsError_keeps h _
  simp only [wp_bind]
  apply wp_local rfl h
  intro res
  split
  · exact h
  · simp only [wp_bind]
    exact wp_xio rfl h fun _ _ _ h' => h'

theorem receiveFrame_keeps (h : OpenInvariant n s) (opcode : UInt8) (fl : FrameLength)
    (isFinal : Bool) : KeepsOpen n (receiveFrame opcode fl isFinal) s := by
  unfold receiveFrame
  split
  · exact receiveContinuationFrame_keeps h fl isFinal
  split
  · exact receiveDataFrame_keeps h _ fl isFinal
  split
  · exact receiveDataFrame_keeps h _ fl isFinal
  split
  · exact receiveCloseFrame_keeps h fl isFinal
  split
  · exact receivePingFrame_keeps h fl isFinal
  · exact h

theorem decodeFrame_keeps (h : OpenInvariant n s) : KeepsOpen n decodeFrame s := by
  have hread : ∀ s', OpenInvariant n s' → KeepsOpen n readFrame s' := by
    intro s' h'
    simp only [KeepsOpen, readFrame, wp_bind, wp_getClient]
    split
    · simp only [wp_bind]
      exact indicateWsError_keeps h' _
    split
    · simp only [wp_bind]
      refine wp_mono ?_ (receiveFrame_keeps h' _ _ _)
      intro _ s'' h''
      simp only [wp_consumeStreamBufferBytes]
      exact h''.consumed _
    · exact h'
  simp only [KeepsOpen, decodeFrame_eq, wp_bind, wp_getClient]
  split
  · split
    · simp only [wp_bind]
      refine wp_mono ?_ (indicateWsErrorAndClose_keeps h _ _)
      intro _ s' h'
      exact hread s' h'
    · exact hread s h
  · exact h

theorem decodeRound_keeps (h : OpenInvariant n s) : KeepsOpen n decodeRound s := by
  simp only [KeepsOpen, decodeRound, wp_bind, wp_getClient]
  split
  · simp only [wp_bind]
    exact indicateWsOpenCompleteErrorAndClose_keeps h _
  · rename_i hstate
    exact decodeUpgradeResponse_keeps h (by simp [Uws.opening, hstate, UwsState.opening])
  · exact decodeFrame_keeps h
  · exact decodeFrame_keeps h
  · exact h

theorem decodeStream_keeps (h : OpenInvariant n s) : KeepsOpen n decodeStream s := by
  simp only [KeepsOpen, decodeStream, wp_bind]
  refine wp_mono ?_ (decodeRound_keeps h)
  intro _ s' h'
  split
  · exact wp_inner rfl h' fun _ _ h'' => h''
  · exact h'

theorem onUnderlyingIoBytesReceived_keeps (h : OpenInvariant n s) (buffer : Option Bytes) :
    KeepsOpen n (onUnderlyingIoBytesReceived buffer) s := by
  have hdecode : ∀ bytes, KeepsOpen n (do
      appendReceivedBytes bytes
      let _ ← callProc .decodeStream
      pure ()) s := by
    intro bytes
    simp only [KeepsOpen, appendReceivedBytes, wp_bind, wp_modifyClient]
    exact wp_inner rfl (h.setClient rfl) fun _ _ h' => h'
  have hreceive : ∀ bytes, KeepsOpen n (receiveBytes bytes) s := by
    intro bytes
    simp only [KeepsOpen, receiveBytes, wp_bind, wp_getClient]
    split
    · exact indicateWsOpenCompleteErrorAndClose_keeps h _
    · simp only [wp_bind]
      apply wp_local rfl h
      intro allocated
      split
      · exact indicateWsOpenCompleteErrorAndClose_keeps h _
      · exact hdecode bytes
    · simp only [wp_bind]
      apply wp_local rfl h
      intro allocated
      split
      · exact indicateWsError_keeps h _
      · exact hdecode bytes
    · simp only [wp_bind]
      apply wp_local rfl h
      intro allocated
      split
      · exact indicateWsError_keeps h _
      · exact hdecode bytes
    · exact h
  rcases buffer with _ | (_ | ⟨b, bs⟩)
  · exact indicateWsOpenCompleteErrorAndClose_keeps h _
  · exact indicateWsOpenCompleteErrorAndClose_keeps h _
  · exact hreceive (b :: bs)

/-! ### The user's interface -/

theorem OpenInvariant.begin (h : OpenInvariant n s) (callbacks : OpenCallbacks) :
    OpenInvariant (s.openCalls + 1)
      ({ s with openCalls := s.openCalls + 1, currentOpen := s.openCalls + 1 }.setClient
        (s.client.beginOpen callbacks)) where
  counted := Nat.le_refl _
  completesOnce := h.completesOnce
  unreported := fun _ => ⟨Nat.le_refl _, h.numbered (s.openCalls + 1) (Nat.lt_succ_self _)⟩
  numbered := fun k hk => h.numbered k (Nat.lt_of_succ_lt hk)

theorem openAsyncProc_keeps (h : OpenInvariant 0 s) (callbacks : OpenCallbacks) :
    KeepsOpen 0 (openAsyncProc callbacks) s := by
  -- The call is numbered; it is not the open under way, if there is one.
  have hcounted : OpenInvariant 0 { s with openCalls := s.openCalls + 1 } :=
    { h with
      counted := Nat.zero_le _
      unreported := fun hop => ⟨Nat.le_succ_of_le (h.unreported hop).1, (h.unreported hop).2⟩
      numbered := fun k hk => h.numbered k (Nat.lt_of_succ_lt hk) }
  have hother : s.opening = true → s.currentOpen ≠ s.openCalls + 1 :=
    fun hop => Nat.ne_of_lt (Nat.lt_succ_of_le (h.unreported hop).1)
  have hrefused : OpenInvariant 0 ({ s with openCalls := s.openCalls + 1 }.record
      (.openAsyncReturned (s.openCalls + 1) failure)) :=
    hcounted.refuse (Nat.le_refl _) hother _
  simp only [KeepsOpen, openAsyncProc, wp_bind, wp_get, wp_modify, uwsClientOpenAsync]
  split
  · exact hrefused
  simp only [wp_bind, wp_getClient]
  split
  · exact hrefused
  simp only [wp_bind, wp_modifyClient, wp_modify]
  have hbegun := (h.begin callbacks).record (e := .openAccepted (s.openCalls + 1)) rfl rfl
  apply wp_xio rfl hbegun
  intro r s' _ h'
  split
  · simp only [wp_bind, wp_setUwsState]
    have hclosed : OpenInvariant (s.openCalls + 1) (s'.setState .uwsStateClosed) := h'.leave rfl
    exact (hclosed.refuse h'.counted (by rintro ⟨⟩) failure).inv
  · exact (h'.record (e := .openAsyncReturned (s.openCalls + 1) 0) rfl rfl).inv

theorem uwsClientCloseAsync_keeps (h : OpenInvariant n s) (cb : Option Callback) :
    KeepsOpen n (uwsClientCloseAsync cb) s := by
  simp only [KeepsOpen, uwsClientCloseAsync, wp_bind, wp_getClient]
  split
  · exact h
  have hset : OpenInvariant n (s.setClient { s.client with onWsCloseComplete := cb }) :=
    h.setClient rfl
  simp only [wp_bind, wp_modifyClient, wp_setUwsState]
  apply wp_xio rfl (hset.leave rfl)
  intro r s' _ h'
  split
  · simp only [wp_bind]
    exact indicateWsError_keeps h' _
  · exact h'

theorem uwsClientCloseHandshakeAsync_keeps (h : OpenInvariant n s) (closeCode : UInt16)
    (cb : Option Callback) : KeepsOpen n (uwsClientCloseHandshakeAsync closeCode cb) s := by
  have hbegin : KeepsOpen n (do
      modifyClient fun c => { c with onWsCloseComplete := cb }
      setUwsState .uwsStateClosingWaitingForClose
      let r ← sendCloseFrame closeCode.toNat
      pure (if r ≠ 0 then failure else 0) : UwsComp Int) s := by
    have hset : OpenInvariant n (s.setClient { s.client with onWsCloseComplete := cb }) :=
      h.setClient rfl
    simp only [KeepsOpen, wp_bind, wp_modifyClient, wp_setUwsState]
    refine wp_mono ?_ (sendCloseFrame_keeps (hset.leave rfl) _)
    intro _ s' h'
    exact h'
  simp only [KeepsOpen, uwsClientCloseHandshakeAsync, wp_bind, wp_getClient]
  split
  · exact h
  · exact h
  · exact h
  · exact h
  · exact hbegin

theorem sendFrameAsyncProc_keeps (h : OpenInvariant n s) (frameType : UInt8)
    (buffer : Option Bytes) (size : Nat) (isFinal : Bool) (cb : Option Callback) :
    KeepsOpen n (sendFrameAsyncProc frameType buffer size isFinal cb) s := by
  have hcounted : OpenInvariant n { s with sendCalls := s.sendCalls + 1 } :=
    h.congr rfl rfl rfl id
  have hreturn : ∀ (s' : Uws) (r : Int), OpenInvariant n s' →
      OpenInvariant n (s'.record (.sendFrameAsyncReturned s.sendCalls cb r)) :=
    fun s' r h' => h'.record rfl rfl
  simp only [KeepsOpen, sendFrameAsyncProc, wp_bind, wp_get, wp_modify, uwsClientSendFrameAsync,
    wp_getClient]
  split
  · exact hreturn _ _ hcounted
  split
  · exact hreturn _ _ hcounted
  simp only [wp_bind]
  apply wp_local rfl hcounted
  intro pendingSendAllocated
  split
  · exact hreturn _ _ hcounted
  simp only [wp_bind]
  apply wp_local rfl hcounted
  intro res
  split
  · exact hreturn _ _ hcounted
  simp only [wp_bind]
  apply wp_local rfl hcounted
  intro itemAllocated
  split
  · exact hreturn _ _ hcounted
  simp only [wp_bind, wp_modifyClient]
  have hadded := hcounted.setClient (c := { s.client with
    pendingSends := s.client.pendingSends ++ [{ item := s.sendCalls, onWsSendFrameComplete := cb }] })
    rfl
  apply wp_xio rfl hadded
  intro r s' _ h'
  split
  · simp only [wp_bind, wp_modifyClient]
    exact hreturn _ _ (h'.setClient rfl)
  · exact hreturn _ _ h'

theorem uwsClientDestroy_keeps (h : OpenInvariant n s) : KeepsOpen n uwsClientDestroy s := by
  -- The block is freed first.
  have hfreed : OpenInvariant n s.fragmentFreed := h.fragmentChecked.setClient (by simp)
  have hdestroy : ∀ s', OpenInvariant n s' → KeepsOpen n (do
      let _ ← callOut .xioDestroy
      let _ ← callProc .clearPendingSends
      Comp.modify fun s => { s with destroyed := true }) s' := by
    intro s' h'
    simp only [KeepsOpen, wp_bind]
    apply wp_xio rfl h'
    intro _ s₁ _ h₁
    apply wp_inner rfl h₁
    intro _ s₂ h₂
    simp only [wp_modify]
    exact h₂.congr rfl rfl rfl id
  have hclose : KeepsOpen n (do
      let _ ← uwsClientCloseAsync none
      let _ ← callOut .xioDestroy
      let _ ← callProc .clearPendingSends
      Comp.modify fun s => { s with destroyed := true }) s.fragmentFreed := by
    simp only [KeepsOpen, wp_bind]
    refine wp_mono ?_ (uwsClientCloseAsync_keeps hfreed none)
    intro _ s' h'
    have hdestroy' := hdestroy s' h'
    simpa only [KeepsOpen, wp_bind] using hdestroy'
  simp only [KeepsOpen, uwsClientDestroy, wp_bind, wp_freeFragmentBuffer, wp_getClient]
  split
  · simpa only [KeepsOpen, wp_bind] using hclose
  · simpa only [KeepsOpen, wp_bind] using hclose
  · simpa only [KeepsOpen, wp_bind] using hdestroy _ hfreed

theorem uwsClientDowork_keeps (h : OpenInvariant n s) : KeepsOpen n uwsClientDowork s := by
  simp only [KeepsOpen, uwsClientDowork, wp_bind, wp_getClient]
  split
  · simp only [wp_bind]
    exact wp_xio rfl h fun _ _ _ h' => h'
  · exact h

theorem void_keeps {c : UwsComp Unit} (h : KeepsOpen n c s) : KeepsOpen n (void c) s := by
  simp only [KeepsOpen, void, wp_bind]
  exact h

/-- Every procedure but `uws_client_open_async` keeps the invariant for any bound. -/
theorem uwsCode_keeps (h : OpenInvariant n s) {p : Proc}
    (hp : ∀ callbacks, p ≠ .uwsClientOpenAsync callbacks) : KeepsOpen n (uwsCode p) s := by
  cases p with
  | uwsClientOpenAsync callbacks => exact absurd rfl (hp callbacks)
  | uwsClientCloseAsync cb => exact uwsClientCloseAsync_keeps h cb
  | uwsClientCloseHandshakeAsync code cb => exact uwsClientCloseHandshakeAsync_keeps h code cb
  | uwsClientSendFrameAsync frameType buffer size isFinal cb =>
    exact sendFrameAsyncProc_keeps h frameType buffer size isFinal cb
  | uwsClientDowork => exact void_keeps (uwsClientDowork_keeps h)
  | uwsClientDestroy => exact void_keeps (uwsClientDestroy_keeps h)
  | onUnderlyingIoOpenComplete result code =>
    exact void_keeps (onUnderlyingIoOpenComplete_keeps h result code)
  | onUnderlyingIoBytesReceived buffer =>
    exact void_keeps (onUnderlyingIoBytesReceived_keeps h buffer)
  | onUnderlyingIoError => exact void_keeps (onUnderlyingIoError_keeps h)
  | onUnderlyingIoCloseComplete => exact void_keeps (onUnderlyingIoCloseComplete_keeps h)
  | onUnderlyingIoCloseSent result => exact void_keeps (onUnderlyingIoCloseSent_keeps h result)
  | onUnderlyingIoSendComplete item result =>
    exact void_keeps (onUnderlyingIoSendComplete_keeps h item result)
  | decodeStream => exact decodeStream_keeps h
  | clearPendingSends => exact clearPendingSends_keeps h

end

/-! ## Every run -/

theorem openOnce_sound : openOnce.Sound where
  env_le := by
    intro top p s hmay
    exact (Bool.and_eq_true_iff.1 hmay).1
  refl s := Nat.le_refl _
  trans _ _ _ h h' := Nat.le_trans h h'
  enter _ _ _ _ _ := trivial
  code := by
    intro p s h _ _
    by_cases hp : ∀ callbacks, p ≠ .uwsClientOpenAsync callbacks
    · have hbound : OpenInvariant s.openCalls s := { h with counted := Nat.le_refl _ }
      refine wp_mono ?_ (uwsCode_keeps hbound hp)
      intro _ s' h'
      exact ⟨h'.inv, fun _ => h'.counted⟩
    · rcases not_forall_not.1 hp with ⟨callbacks, rfl⟩
      refine wp_mono ?_ (openAsyncProc_keeps h callbacks)
      intro _ s' h'
      exact ⟨h', nofun⟩

/-- In a run that meets the condition, every open is reported as complete at most once. -/
theorem completesOnce_of_openOnceRun {s₀ s : Uws} {st : List (Frame Uws uwsSignature)}
    (h₀ : s₀.client.uwsState = .uwsStateClosed) (hlog : s₀.log = [])
    (h : Reachable uwsCode openOnceRun s₀ (.env s st)) : CompletesOnce s := by
  have hinv : openOnce.inv s₀ :=
    { counted := Nat.zero_le _
      completesOnce := by simp [CompletesOnce, Uws.openCompletions, hlog]
      unreported := by simp [Uws.opening, h₀, UwsState.opening]
      numbered := by simp [Uws.openCompletions, hlog] }
  exact (openOnce_sound.reachable_inv hinv h).completesOnce

/-- An open that fails, and another one that fails. -/
def failTwice : List (Input uwsSignature) :=
  [.enter (.uwsClientOpenAsync someCallbacks), .answer succeeds,
    .enter (.onUnderlyingIoOpenComplete .ioOpenError 5), .answer succeeds,
    .enter (.uwsClientOpenAsync someCallbacks), .answer succeeds,
    .enter .onUnderlyingIoError, .answer succeeds, .answer succeeds]

theorem completesOnce_failTwice :
    ∃ s st, Reachable uwsCode openOnceRun createdClient (.env s st) ∧
      s.openCompletions 1 = 1 ∧ s.openCompletions 2 = 1 ∧ CompletesOnce s := by
  have hrun : ∃ s st, openOnceRun.runInputs uwsCode 20 (.env createdClient []) failTwice =
      some (.env s st) ∧ s.openCompletions 1 = 1 ∧ s.openCompletions 2 = 1 := ⟨_, _, rfl, rfl, rfl⟩
  rcases hrun with ⟨s, st, hrun, hfirst, hsecond⟩
  have hreach := Env.runInputs_sound _ hrun
  exact ⟨s, st, hreach, hfirst, hsecond, completesOnce_of_openOnceRun rfl rfl hreach⟩

/-- A failed open, and then an indication of received bytes without any. -/
def failThenNothing : List (Input uwsSignature) :=
  [.enter (.uwsClientOpenAsync someCallbacks), .answer succeeds,
    .enter (.onUnderlyingIoOpenComplete .ioOpenError 5), .answer succeeds,
    .enter (.onUnderlyingIoBytesReceived none), .answer succeeds, .answer succeeds]

/-- The failed open is reported twice. -/
theorem failThenNothing_completesTwice :
    ¬ ∀ (s₀ s : Uws) (st : List (Frame Uws uwsSignature)),
        s₀.client.uwsState = .uwsStateClosed → s₀.log = [] →
          Reachable uwsCode anyRun s₀ (.env s st) → CompletesOnce s := by
  intro h
  have hrun : ∃ s st, anyRun.runInputs uwsCode 20 (.env createdClient []) failThenNothing =
      some (.env s st) ∧ s.openCompletions 1 = 2 := ⟨_, _, rfl, rfl⟩
  rcases hrun with ⟨s, st, hrun, htwice⟩
  have honce := (h _ _ _ rfl rfl (Env.runInputs_sound _ hrun)).1 1
  rw [htwice] at honce
  exact absurd honce (by decide)

end SharedUtility.UwsClient
