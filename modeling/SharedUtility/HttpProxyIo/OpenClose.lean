import SharedUtility.HttpProxyIo.Code
import SharedUtility.Reentrant.Trace

/-!
# OpenClose — one open, one `on_io_open_complete`, and bytes only in between

An open is reported when the instance leaves the opening states, and bytes are delivered in state
OPEN only.  This fails where a report is followed by more work of the same function: a failing
`xio_send` after the io has ended the open already, a failed reallocation before the search of the
buffer, and the delivery of tunnelled bytes after the user has closed in `on_io_open_complete`.
-/

namespace SharedUtility.HttpProxyIo

open Reentrant

/-! ## What an observer sees -/

/-- The open that an event reports as complete. -/
def Event.completedOpen : Event → Option Nat
  | .call k (.onIoOpenComplete _ _) => some k
  | _ => none

/-- The open that an event reports as successful. -/
def Event.openedOk : Event → Option Nat
  | .call k (.onIoOpenComplete _ r) => if r.result = .ioOpenOk then some k else none
  | _ => none

/-- The open to which bytes are delivered. -/
def Event.deliveredTo : Event → Option Nat
  | .call k (.onBytesReceived _ _) => some k
  | _ => none

/-- The open for which `http_proxy_io_close` is called. -/
def Event.closedOpen : Event → Option Nat
  | .closeCalled k => some k
  | _ => none

/-- The open that has returned 0. -/
def Event.acceptedOpen : Event → Option Nat
  | .openReturned k r => if r = 0 then some k else none
  | _ => none

/-- How often an open has been reported as complete. -/
def ProxyIo.openCompletions (s : ProxyIo) (k : Nat) : Nat :=
  s.log.countP fun ev => ev.completedOpen == some k

/-- Nothing is reported twice, and bytes are delivered to opens that succeeded and are not closed. -/
structure Disciplined (s : ProxyIo) : Prop where
  atMostOnce : ∀ k, s.openCompletions k ≤ 1
  onlyAfterOpen : OnlyAfter Event.openedOk Event.deliveredTo s.log
  notAfterClose : NeverAfter Event.closedOpen Event.deliveredTo s.log

/-- The bytes among what the io has said. -/
def heardBytes (heard : List IoEvent) : Bytes :=
  (heard.map fun
    | .bytesReceived buffer => buffer
    | _ => []).flatten

/-- The io has neither failed nor answered the CONNECT request. -/
def IoSilent (heard : List IoEvent) : Prop :=
  heard = [] ∨
    ∃ chunks : List Bytes, heard = .openComplete .ioOpenOk :: chunks.map .bytesReceived ∧
      UwsClient.findResponseEnd chunks.flatten = none

/-- Every open that returned 0 is reported exactly once, unless the io stays silent. -/
def EachReported (s : ProxyIo) : Prop :=
  ∀ k, Occurs Event.acceptedOpen s.log k →
    s.openCompletions k = 1 ∨ (k = s.currentOpen ∧ IoSilent s.heard)

/-! ## The condition -/

/-- Bytes of an earlier connection in the receive buffer do not hide the end of the response, and no
bytes arrive after a close that was refused because the io could not be closed. -/
def arrivesWell (s : ProxyIo) (buffer : Bytes) : Bool :=
  match s.inst.httpProxyIoState with
  | .httpProxyIoStateWaitingForConnectResponse =>
    (UwsClient.findResponseEnd (s.inst.receiveBuffer ++ buffer)).isSome ||
      (UwsClient.findResponseEnd (heardBytes s.heard ++ buffer)).isNone
  | .httpProxyIoStateOpen => !s.closeCalled
  | _ => true

/-- Nothing follows the response in the receive buffer. -/
def nothingTunnelled (s : ProxyIo) : Bool :=
  match UwsClient.findResponseEnd s.inst.receiveBuffer with
  | some responseEnd => tunnelledBytes s.inst.receiveBuffer responseEnd == []
  | none => true

/-- The condition.  Sending the CONNECT request fails only while the open is still under way, a
reallocation only when the buffer holds no response, and the user does not close in
`on_io_open_complete` when tunnelled bytes have come with the response. -/
def disciplinedRun : Env ProxyIo httpProxyIoSignature where
  mayEnter top p s :=
    anyRun.mayEnter top p s &&
    (match p with
      | .onUnderlyingIoBytesReceived buffer => arrivesWell s buffer
      | _ => true)
  mayAnswer c r s :=
    match c, r with
    | .xioSend .connectRequest _, r =>
      r == (0 : Int) || s.inst.httpProxyIoState == .httpProxyIoStateWaitingForConnectResponse
    | .realloc, r => r || (UwsClient.findResponseEnd s.inst.receiveBuffer).isNone
    | .onIoOpenComplete _ result, _ =>
      result.result != .ioOpenOk || nothingTunnelled s || !s.closeCalled
    | _, _ => true

/-! ## The invariant -/

def HttpProxyIoState.opening : HttpProxyIoState → Bool
  | .httpProxyIoStateOpeningUnderlyingIo | .httpProxyIoStateWaitingForConnectResponse => true
  | _ => false

/-- An open is under way. -/
def ProxyIo.opening (s : ProxyIo) : Bool :=
  s.inst.httpProxyIoState.opening

/-- What the io has said while an open is under way. -/
def Heard : HttpProxyIoState → List IoEvent → Prop
  | .httpProxyIoStateOpeningUnderlyingIo, heard => heard = []
  | .httpProxyIoStateWaitingForConnectResponse, heard =>
    ∃ chunks : List Bytes, heard = .openComplete .ioOpenOk :: chunks.map .bytesReceived ∧
      UwsClient.findResponseEnd chunks.flatten = none
  | _, _ => True

/-- The invariant without what the io has said. -/
structure Core (s : ProxyIo) : Prop where
  disciplined : Disciplined s
  current : s.currentOpen ≤ s.openCalls
  numbered : ∀ k, s.openCalls < k → s.openCompletions k = 0 ∧ ¬ Occurs Event.closedOpen s.log k
  unreported : s.opening = true → s.openCompletions s.currentOpen = 0
  opened : s.inst.httpProxyIoState = .httpProxyIoStateOpen →
    Occurs Event.openedOk s.log s.currentOpen
  notClosed : s.closeCalled = false → ¬ Occurs Event.closedOpen s.log s.currentOpen

structure Invariant (s : ProxyIo) : Prop extends Core s where
  heard : Heard s.inst.httpProxyIoState s.heard

/-- Every open that returned 0 is reported or under way. -/
def Settled (s : ProxyIo) : Prop :=
  ∀ k, Occurs Event.acceptedOpen s.log k →
    s.openCompletions k = 1 ∨ (k = s.currentOpen ∧ s.opening = true)

/-- More events of the same open. -/
structure Continued (s s' : ProxyIo) : Prop where
  grows : s.log <+: s'.log
  openCalls : s'.openCalls = s.openCalls
  currentOpen : s'.currentOpen = s.currentOpen
  accepted : ∀ k, Occurs Event.acceptedOpen s'.log k → Occurs Event.acceptedOpen s.log k

/-- What the code that may run during a call guarantees: no new open, and a report when the open that
is under way ends. -/
structure Rely (s s' : ProxyIo) : Prop extends Continued s s' where
  ends : s.opening = true → s'.opening = true ∨ 1 ≤ s'.openCompletions s.currentOpen
  stays : s.opening = false → s'.opening = false ∧
    s'.openCompletions s.currentOpen = s.openCompletions s.currentOpen ∧
    s'.inst.receiveBuffer = s.inst.receiveBuffer

section

variable {s s' s'' : ProxyIo}

theorem openCompletions_record (ev : Event) (k : Nat) :
    (s.record ev).openCompletions k =
      s.openCompletions k + if ev.completedOpen = some k then 1 else 0 := by
  simp [ProxyIo.openCompletions]

theorem openCompletions_mono (h : s.log <+: s'.log) (k : Nat) :
    s.openCompletions k ≤ s'.openCompletions k :=
  h.sublist.countP_le

theorem Continued.of_eq (hlog : s'.log = s.log) (hcalls : s'.openCalls = s.openCalls)
    (hcurrent : s'.currentOpen = s.currentOpen) : Continued s s' where
  grows := hlog ▸ List.prefix_rfl
  openCalls := hcalls
  currentOpen := hcurrent
  accepted _ hk := hlog ▸ hk

theorem Continued.trans (h : Continued s s') (h' : Continued s' s'') : Continued s s'' where
  grows := h.grows.trans h'.grows
  openCalls := h'.openCalls.trans h.openCalls
  currentOpen := h'.currentOpen.trans h.currentOpen
  accepted k hk := h.accepted k (h'.accepted k hk)

theorem continued_record {ev : Event} (hev : ev.acceptedOpen = none) : Continued s (s.record ev) where
  grows := List.prefix_append _ _
  openCalls := rfl
  currentOpen := rfl
  accepted := by
    intro k hk
    rwa [ProxyIo.record_log, occurs_concat_of_none hev] at hk

theorem Rely.refl (s : ProxyIo) : Rely s s where
  toContinued := .of_eq rfl rfl rfl
  ends h := .inl h
  stays h := ⟨h, rfl, rfl⟩

theorem Rely.trans (h : Rely s s') (h' : Rely s' s'') : Rely s s'' where
  toContinued := h.toContinued.trans h'.toContinued
  ends := by
    intro hop
    rcases h.ends hop with hop' | hone
    · rw [← h.currentOpen]
      exact h'.ends hop'
    · right
      exact Nat.le_trans hone (openCompletions_mono h'.grows s.currentOpen)
  stays := by
    intro hop
    have hfirst := h.stays hop
    have hsecond := h'.stays hfirst.1
    rw [h.currentOpen] at hsecond
    exact ⟨hsecond.1, hsecond.2.1.trans hfirst.2.1, hsecond.2.2.trans hfirst.2.2⟩

theorem Settled.of_rely (h : Settled s) (hrely : Rely s s') (hcore : Core s') : Settled s' := by
  intro k hk
  rcases h k (hrely.accepted k hk) with hone | ⟨rfl, hop⟩
  · left
    have hmono := openCompletions_mono hrely.grows k
    have honce := hcore.disciplined.atMostOnce k
    omega
  · rcases hrely.ends hop with hop' | hone
    · exact .inr ⟨hrely.currentOpen.symm, hop'⟩
    · exact .inl (Nat.le_antisymm (hcore.disciplined.atMostOnce _) hone)

/-! ### One event -/

/-- What an event may say: it concerns the current open, reports it when it is not reported yet and no
longer under way, and delivers bytes when it has succeeded and is not closed. -/
structure Admissible (s : ProxyIo) (ev : Event) : Prop where
  completes : ∀ k, ev.completedOpen = some k →
    k = s.currentOpen ∧ s.openCompletions k = 0 ∧ s.opening = false
  delivers : ∀ k, ev.deliveredTo = some k →
    Occurs Event.openedOk s.log k ∧ ¬ Occurs Event.closedOpen s.log k
  closes : ∀ k, ev.closedOpen = some k → k = s.currentOpen ∧ s.closeCalled = true

theorem Core.record (h : Core s) {ev : Event} (hev : Admissible s ev) : Core (s.record ev) where
  disciplined := by
    constructor
    case atMostOnce =>
      intro k
      rw [openCompletions_record]
      split
      case isTrue hk => simp [(hev.completes k hk).2.1]
      case isFalse => simpa using h.disciplined.atMostOnce k
    case onlyAfterOpen =>
      exact h.disciplined.onlyAfterOpen.concat fun k hk => (hev.delivers k hk).1
    case notAfterClose =>
      exact h.disciplined.notAfterClose.concat fun k hk => (hev.delivers k hk).2
  current := h.current
  numbered := by
    intro k hk
    have hnumbered := h.numbered k hk
    have hcurrent : s.currentOpen < k := Nat.lt_of_le_of_lt h.current hk
    rw [openCompletions_record, ProxyIo.record_log, occurs_concat]
    have hcompletes : ev.completedOpen ≠ some k := by
      intro hk'
      have := (hev.completes k hk').1
      omega
    have hcloses : ev.closedOpen ≠ some k := by
      intro hk'
      have := (hev.closes k hk').1
      omega
    simpa [hcompletes, hcloses] using hnumbered
  unreported := by
    intro hop
    have hop : s.opening = true := hop
    rw [openCompletions_record, ProxyIo.record_currentOpen]
    have hcompletes : ev.completedOpen ≠ some s.currentOpen := by
      intro hk
      have := (hev.completes _ hk).2.2
      simp [hop] at this
    simpa [hcompletes] using h.unreported hop
  opened := by
    intro hst
    exact occurs_concat.2 (.inl (h.opened hst))
  notClosed := by
    intro hclose
    rw [ProxyIo.record_log, occurs_concat]
    have hclose : s.closeCalled = false := hclose
    have hcloses : ev.closedOpen ≠ some s.currentOpen := by
      intro hk
      have := (hev.closes _ hk).2
      simp [hclose] at this
    simpa [hcloses] using h.notClosed hclose

theorem Invariant.record (h : Invariant s) {ev : Event} (hev : Admissible s ev) :
    Invariant (s.record ev) :=
  { h.toCore.record hev with heard := h.heard }

theorem rely_record {ev : Event} (haccepted : ev.acceptedOpen = none)
    (hcompleted : ev.completedOpen = none) : Rely s (s.record ev) where
  toContinued := continued_record haccepted
  ends hop := .inl hop
  stays := by
    intro hop
    refine ⟨hop, ?_, rfl⟩
    simp [openCompletions_record, hcompleted]

/-! ### Changes of the state -/

theorem Core.congr (h : Core s) (hlog : s'.log = s.log) (hcalls : s'.openCalls = s.openCalls)
    (hcurrent : s'.currentOpen = s.currentOpen) (hclosed : s'.closeCalled = s.closeCalled)
    (hopening : s'.opening = true → s.opening = true)
    (hopened : s'.inst.httpProxyIoState = .httpProxyIoStateOpen →
      Occurs Event.openedOk s.log s.currentOpen) : Core s' where
  disciplined := by
    have hd := h.disciplined
    constructor
    case atMostOnce => simpa only [ProxyIo.openCompletions, hlog] using hd.atMostOnce
    case onlyAfterOpen => simpa only [hlog] using hd.onlyAfterOpen
    case notAfterClose => simpa only [hlog] using hd.notAfterClose
  current := by simpa only [hcalls, hcurrent] using h.current
  numbered := by simpa only [ProxyIo.openCompletions, hlog, hcalls] using h.numbered
  unreported := by
    intro hop
    simpa only [ProxyIo.openCompletions, hlog, hcurrent] using h.unreported (hopening hop)
  opened := by simpa only [hlog, hcurrent] using hopened
  notClosed := by simpa only [hlog, hcurrent, hclosed] using h.notClosed

theorem Core.hear (h : Core s) (ev : IoEvent) : Core (s.hear ev) :=
  h.congr rfl rfl rfl rfl id h.opened

theorem Core.leave (h : Core s) {st : HttpProxyIoState} (hst : st.opening = false)
    (hopen : st = .httpProxyIoStateOpen → Occurs Event.openedOk s.log s.currentOpen) :
    Core (s.setState st) :=
  h.congr rfl rfl rfl rfl (fun hop => absurd (show st.opening = true from hop) (by simp [hst]))
    hopen

theorem Core.invariant (h : Core s) (hop : s.opening = false) : Invariant s where
  toCore := h
  heard := by
    revert hop
    unfold ProxyIo.opening
    cases s.inst.httpProxyIoState
    all_goals simp [HttpProxyIoState.opening, Heard]

/-- In a state that is neither opening nor open nothing is to be said of the connection. -/
theorem Core.closed (h : Core s) (st : HttpProxyIoState) (hst : st.opening = false)
    (hopen : st ≠ .httpProxyIoStateOpen) : Invariant (s.setState st) :=
  (h.leave hst fun hst' => absurd hst' hopen).invariant hst

theorem rely_setState {st : HttpProxyIoState} (hop : s.opening = false) (hst : st.opening = false) :
    Rely s (s.setState st) where
  toContinued := .of_eq rfl rfl rfl
  ends hop' := absurd hop' (by simp [hop])
  stays _ := ⟨hst, rfl, rfl⟩

theorem rely_hear (ev : IoEvent) : Rely s (s.hear ev) where
  toContinued := .of_eq rfl rfl rfl
  ends h := .inl h
  stays h := ⟨h, rfl, rfl⟩

/-- The open that was under way in `s` has been reported. -/
structure Ended (s s' : ProxyIo) : Prop where
  inv : Invariant s'
  continued : Continued s s'
  opening : s'.opening = false
  reported : s'.openCompletions s.currentOpen = 1
  buffer : s'.inst.receiveBuffer = s.inst.receiveBuffer

theorem Ended.rely (h : Ended s s') (hop : s.opening = true) : Rely s s' where
  toContinued := h.continued
  ends _ := .inr (Nat.le_of_eq h.reported.symm)
  stays hop' := absurd hop (by simp [hop'])

end

/-! ## The code -/

def openClose : RelyGuarantee ProxyIo httpProxyIoSignature where
  env := disciplinedRun
  reenters c := c.isXio || c.isCallback
  nested p := p.isIoEvent || p.isClose
  entry p s :=
    match p with
    | .onUnderlyingIoBytesReceived buffer => arrivesWell s buffer = true
    | _ => True
  always := Disciplined
  inv := Invariant
  settled := Settled
  rely := Rely

section

open RelyGuarantee

variable {s : ProxyIo} {config : HttpProxyIoConfig}

/-- Code that may run during a call. -/
abbrev Keeps {α : Type} (c : HttpProxyIoComp α) (s : ProxyIo) : Prop :=
  wp openClose.spec c (fun _ s' => Invariant s' ∧ Rely s s') s

@[simp] theorem wp_getInst (Q : HttpProxyIoInstance → ProxyIo → Prop) :
    wp openClose.spec getInst Q s ↔ Q s.inst s := by
  simp [getInst]

@[simp] theorem wp_modifyInst (f : HttpProxyIoInstance → HttpProxyIoInstance)
    (Q : Unit → ProxyIo → Prop) :
    wp openClose.spec (modifyInst f) Q s ↔ Q () (s.setInst (f s.inst)) := by
  simp [modifyInst]

@[simp] theorem wp_setHttpProxyIoState (st : HttpProxyIoState) (Q : Unit → ProxyIo → Prop) :
    wp openClose.spec (setHttpProxyIoState st) Q s ↔ Q () (s.setState st) := by
  simp [setHttpProxyIoState]

theorem wp_callOut {c : Call} {Q : Ans c → ProxyIo → Prop}
    (hc : (c.isXio || c.isCallback) = true)
    (hinv : Invariant (s.record (.call s.currentOpen c)))
    (hQ : ∀ r s', disciplinedRun.mayAnswer c r s' = true → Invariant s' →
      Rely (s.record (.call s.currentOpen c)) s' → Q r s') :
    wp openClose.spec (callOut c) Q s := by
  simp only [callOut, wp_bind, wp_modify]
  apply wp_reentrant hc hinv
  intro r s' hans hlater
  exact hQ r s' hans hlater.inv hlater.rely

/-- Code that runs after `s`, in a state that a call of `s` may have left. -/
theorem Keeps.after {α : Type} {c : HttpProxyIoComp α} {s s₁ : ProxyIo} (h : Keeps c s₁)
    (hrely : Rely s s₁) : wp openClose.spec c (fun _ s' => Invariant s' ∧ Rely s s') s₁ := by
  refine wp_mono ?_ h
  intro _ s' hs'
  exact ⟨hs'.1, hrely.trans hs'.2⟩

/-- Calls that neither report an open nor deliver bytes. -/
def Call.isQuiet : Call → Bool
  | .onIoError _ | .onIoCloseComplete _ => true
  | c => c.isXio

theorem wp_quiet {c : Call} {Q : Ans c → ProxyIo → Prop} (hc : c.isQuiet = true)
    (hinv : Invariant s)
    (hQ : ∀ r s', disciplinedRun.mayAnswer c r s' = true → Invariant s' → Rely s s' → Q r s') :
    wp openClose.spec (callOut c) Q s := by
  have hreenters : (c.isXio || c.isCallback) = true := by
    cases c
    all_goals first | rfl | cases hc
  have hquiet : ∀ k, Event.completedOpen (.call k c) = none ∧
      Event.deliveredTo (.call k c) = none := by
    intro k
    cases c
    all_goals first | exact ⟨rfl, rfl⟩ | cases hc
  have hadmissible : Admissible s (.call s.currentOpen c) := {
    completes := by simp [hquiet]
    delivers := by simp [hquiet]
    closes := nofun }
  apply wp_callOut hreenters (hinv.record hadmissible)
  intro r s' hans hinv' hrely
  exact hQ r s' hans hinv' ((rely_record rfl (hquiet _).1).trans hrely)

theorem wp_ask {c : Call} {Q : Ans c → ProxyIo → Prop} (hc : (c.isXio || c.isCallback) = false)
    (hcore : Core s) (hQ : ∀ r, disciplinedRun.mayAnswer c r s = true → Q r s) :
    wp openClose.spec (ask c) Q s :=
  wp_local hc hcore.disciplined hQ

/-! ### Reports and deliveries -/

theorem Core.report (h : Core s) (hop : s.opening = false)
    (hzero : s.openCompletions s.currentOpen = 0) (cb : Callback) (r : IoOpenResultDetailed) :
    Core (s.record (.call s.currentOpen (.onIoOpenComplete cb r))) := by
  apply h.record
  constructor
  case completes =>
    intro k hk
    cases hk
    exact ⟨rfl, hzero, hop⟩
  case delivers => exact nofun
  case closes => exact nofun

theorem wp_onIoOpenComplete {r : IoOpenResultDetailed} {Q : Unit → ProxyIo → Prop}
    (hop : s.opening = false) (hzero : s.openCompletions s.currentOpen = 0)
    (hcore : Core (s.record (.call s.currentOpen (.onIoOpenComplete s.inst.onIoOpenComplete r))))
    (hQ : ∀ s', Ended s s' →
      (r.result = .ioOpenOk → Occurs Event.openedOk s'.log s'.currentOpen ∧
        (nothingTunnelled s' = true ∨ s'.closeCalled = false)) → Q () s') :
    wp openClose.spec (onIoOpenComplete r) Q s := by
  simp only [onIoOpenComplete, wp_bind, wp_getInst]
  apply wp_callOut rfl (hcore.invariant hop)
  intro _ s' hans hinv hrely
  have hstays := hrely.stays hop
  apply hQ s'
  · constructor
    case inv => exact hinv
    case continued => exact (continued_record rfl).trans hrely.toContinued
    case opening => exact hstays.1
    case reported => simpa [openCompletions_record, Event.completedOpen, hzero] using hstays.2.1
    case buffer => exact hstays.2.2
  · intro hok
    constructor
    · rw [hrely.currentOpen]
      apply Occurs.grow _ hrely.grows
      simp [occurs_concat, Event.openedOk, hok]
    · simpa [disciplinedRun, hok] using hans

theorem closeAndReport_ends (h : Core s) (hop : s.opening = true) (purpose : ClosePurpose)
    (r : IoOpenResultDetailed) :
    wp openClose.spec (do
      setHttpProxyIoState .httpProxyIoStateClosed
      let _ ← xioClose purpose
      onIoOpenComplete r) (fun _ s' => Ended s s') s := by
  simp only [xioClose, wp_bind, wp_setHttpProxyIoState]
  apply wp_quiet rfl (h.closed .httpProxyIoStateClosed rfl nofun)
  intro _ s' _ hinv hrely
  have hstays := hrely.stays rfl
  have hzero : s'.openCompletions s'.currentOpen = 0 := by
    rw [hrely.currentOpen]
    exact hstays.2.1.trans (h.unreported hop)
  apply wp_onIoOpenComplete hstays.1 hzero (hinv.report hstays.1 hzero _ _)
  intro s'' hended _
  constructor
  case inv => exact hended.inv
  case continued =>
    have hcontinued : Continued s (s.setState .httpProxyIoStateClosed) := .of_eq rfl rfl rfl
    exact hcontinued.trans (hrely.toContinued.trans hended.continued)
  case opening => exact hended.opening
  case reported => simpa [hrely.currentOpen] using hended.reported
  case buffer => exact hended.buffer.trans hstays.2.2

theorem indicateOpenCompleteErrorAndClose_ends (h : Core s) (hop : s.opening = true) (code : Int) :
    wp openClose.spec (indicateOpenCompleteErrorAndClose code) (fun _ s' => Ended s s') s :=
  closeAndReport_ends h hop .failedOpen _

theorem indicateOpenCompleteErrorAndClose_keeps (h : Core s) (hop : s.opening = true)
    (code : Int) : Keeps (indicateOpenCompleteErrorAndClose code) s := by
  refine wp_mono ?_ (indicateOpenCompleteErrorAndClose_ends h hop code)
  intro _ s' hended
  exact ⟨hended.inv, hended.rely hop⟩

theorem onBytesReceived_keeps (h : Invariant s)
    (hopened : Occurs Event.openedOk s.log s.currentOpen) (hclosed : s.closeCalled = false)
    (bytes : Bytes) : Keeps (onBytesReceived bytes) s := by
  simp only [Keeps, onBytesReceived, wp_bind, wp_getInst]
  have hadmissible : Admissible s
      (.call s.currentOpen (.onBytesReceived s.inst.onBytesReceived bytes)) := {
    completes := nofun
    delivers := by
      intro k hk
      cases hk
      exact ⟨hopened, h.notClosed hclosed⟩
    closes := nofun }
  apply wp_callOut rfl (h.record hadmissible)
  intro _ s' _ hinv hrely
  exact ⟨hinv, (rely_record rfl rfl).trans hrely⟩

theorem onIoError_keeps (h : Invariant s) : Keeps onIoError s := by
  simp only [Keeps, onIoError, wp_bind, wp_getInst]
  apply wp_quiet rfl h
  intro _ s' _ hinv hrely
  exact ⟨hinv, hrely⟩

/-! ### Callbacks of the underlying io -/

theorem encodedAuthString_keeps (h : Core s) (hop : s.opening = true) :
    wp openClose.spec (encodedAuthString config) (fun authString s' =>
      match authString with
      | none => Invariant s' ∧ Rely s s'
      | some _ => s' = s) s := by
  have hfail : wp openClose.spec (do
      indicateOpenCompleteErrorAndClose failure
      pure (none : Option Bytes)) (fun authString s' =>
        match authString with
        | none => Invariant s' ∧ Rely s s'
        | some _ => s' = s) s := by
    rw [wp_bind]
    exact indicateOpenCompleteErrorAndClose_keeps h hop failure
  unfold encodedAuthString
  cases config.username with
  | none => rfl
  | some username =>
    dsimp only
    split
    · exact hfail
    simp only [wp_bind, mallocInt, malloc]
    split
    · exact hfail
    apply wp_ask rfl h
    intro allocated _
    split
    · exact hfail
    simp only [wp_bind]
    apply wp_ask rfl h
    intro encoded _
    split
    · exact hfail
    · rfl

theorem sendConnectRequestFor_keeps (h : Invariant s) (hop : s.opening = true)
    (authStringPayload : Bytes) : Keeps (sendConnectRequestFor config authStringPayload) s := by
  have hfail : Keeps (indicateOpenCompleteErrorAndClose failure) s :=
    indicateOpenCompleteErrorAndClose_keeps h.toCore hop failure
  simp only [Keeps, sendConnectRequestFor]
  split
  · exact hfail
  simp only [malloc, wp_bind]
  apply wp_ask rfl h.toCore
  intro allocated _
  split
  · exact hfail
  split
  · exact hfail
  simp only [xioSend, wp_bind]
  apply wp_quiet rfl h
  intro r s' hans hinv hrely
  split
  · rename_i hr
    -- The open is under way still, or the io would not have failed to send.
    have hstate : s'.inst.httpProxyIoState = .httpProxyIoStateWaitingForConnectResponse := by
      simpa [disciplinedRun, hr] using hans
    have hop' : s'.opening = true := by
      simp [ProxyIo.opening, hstate, HttpProxyIoState.opening]
    exact (indicateOpenCompleteErrorAndClose_keeps hinv.toCore hop' failure).after hrely
  · exact ⟨hinv, hrely⟩

theorem sendConnectRequest_keeps (h : Core s)
    (hstate : s.inst.httpProxyIoState = .httpProxyIoStateOpeningUnderlyingIo)
    (hheard : s.heard = [.openComplete .ioOpenOk]) : Keeps (sendConnectRequest config) s := by
  simp only [Keeps, sendConnectRequest, wp_bind, wp_setHttpProxyIoState]
  let s₁ := s.setState .httpProxyIoStateWaitingForConnectResponse
  have hop : s.opening = true := by simp [ProxyIo.opening, hstate, HttpProxyIoState.opening]
  have hcore : Core s₁ := h.congr rfl rfl rfl rfl (fun _ => hop) nofun
  have hinv : Invariant s₁ := { hcore with heard := ⟨[], hheard, rfl⟩ }
  have hrely : Rely s s₁ := {
    toContinued := .of_eq rfl rfl rfl
    ends := fun _ => .inl rfl
    stays := fun hop' => absurd hop (by simp [hop']) }
  refine wp_mono ?_ (encodedAuthString_keeps hcore rfl)
  intro authString s' hs'
  cases authString with
  | none => exact ⟨hs'.1, hrely.trans hs'.2⟩
  | some authStringPayload =>
    have hs' : s' = s₁ := hs'
    subst hs'
    exact (sendConnectRequestFor_keeps hinv rfl authStringPayload).after hrely

theorem opening_of_state {st : HttpProxyIoState} (h : s.inst.httpProxyIoState = st) :
    s.opening = st.opening := by
  rw [ProxyIo.opening, h]

theorem onUnderlyingIoOpenComplete_keeps (h : Invariant s) (openResult : IoOpenResultDetailed) :
    Keeps (onUnderlyingIoOpenComplete config openResult) s := by
  simp only [Keeps, onUnderlyingIoOpenComplete, wp_bind, wp_modify, wp_getInst]
  let s₁ := s.hear (.openComplete openResult.result)
  have hcore : Core s₁ := h.toCore.hear _
  have hrely : Rely s s₁ := rely_hear _
  have hinv : s₁.opening = false → Invariant s₁ := hcore.invariant
  cases hstate : s₁.inst.httpProxyIoState with
  | httpProxyIoStateClosed => exact ⟨hinv (opening_of_state hstate), hrely⟩
  | httpProxyIoStateError => exact ⟨hinv (opening_of_state hstate), hrely⟩
  | httpProxyIoStateOpen => exact (onIoError_keeps (hinv (opening_of_state hstate))).after hrely
  | httpProxyIoStateClosing => exact (onIoError_keeps (hinv (opening_of_state hstate))).after hrely
  | httpProxyIoStateWaitingForConnectResponse =>
    have hop : s₁.opening = true := opening_of_state hstate
    exact (indicateOpenCompleteErrorAndClose_keeps hcore hop failure).after hrely
  | httpProxyIoStateOpeningUnderlyingIo =>
    have hop : s₁.opening = true := opening_of_state hstate
    have hheard : s.heard = [] := by
      have hheard := h.heard
      rwa [show s.inst.httpProxyIoState = .httpProxyIoStateOpeningUnderlyingIo from hstate]
        at hheard
    rcases openResult with ⟨result, code⟩
    cases result with
    | ioOpenError => exact (indicateOpenCompleteErrorAndClose_keeps hcore hop code).after hrely
    | ioOpenOk =>
      have hfirst : s₁.heard = [.openComplete .ioOpenOk] := by simp [s₁, hheard]
      exact (sendConnectRequest_keeps hcore hstate hfirst).after hrely
    | ioOpenCancelled =>
      have hkeeps := closeAndReport_ends hcore hop .cancelledOpen ⟨.ioOpenCancelled, code⟩
      refine wp_mono ?_ hkeeps
      intro _ s' hended
      exact ⟨hended.inv, hrely.trans (hended.rely hop)⟩

theorem onUnderlyingIoError_keeps (h : Invariant s) : Keeps onUnderlyingIoError s := by
  simp only [Keeps, onUnderlyingIoError, wp_bind, wp_modify, wp_getInst]
  let s₁ := s.hear .error
  have hcore : Core s₁ := h.toCore.hear _
  have hrely : Rely s s₁ := rely_hear _
  have hinv : s₁.opening = false → Invariant s₁ := hcore.invariant
  cases hstate : s₁.inst.httpProxyIoState with
  | httpProxyIoStateClosed => exact ⟨hinv (opening_of_state hstate), hrely⟩
  | httpProxyIoStateError => exact ⟨hinv (opening_of_state hstate), hrely⟩
  | httpProxyIoStateClosing => exact ⟨hinv (opening_of_state hstate), hrely⟩
  | httpProxyIoStateOpeningUnderlyingIo =>
    exact (indicateOpenCompleteErrorAndClose_keeps hcore (opening_of_state hstate)
      failure).after hrely
  | httpProxyIoStateWaitingForConnectResponse =>
    exact (indicateOpenCompleteErrorAndClose_keeps hcore (opening_of_state hstate)
      failure).after hrely
  | httpProxyIoStateOpen =>
    simp only [wp_bind, wp_setHttpProxyIoState]
    have hfailed : Invariant (s₁.setState .httpProxyIoStateError) := hcore.closed _ rfl (by rintro ⟨⟩)
    have hleft : Rely s₁ (s₁.setState .httpProxyIoStateError) :=
      rely_setState (opening_of_state hstate) rfl
    exact (onIoError_keeps hfailed).after (hrely.trans hleft)

theorem onUnderlyingIoCloseComplete_keeps (h : Invariant s) :
    Keeps onUnderlyingIoCloseComplete s := by
  simp only [Keeps, onUnderlyingIoCloseComplete, wp_bind, wp_getInst]
  cases hstate : s.inst.httpProxyIoState with
  | httpProxyIoStateClosing =>
    simp only [wp_bind, wp_setHttpProxyIoState, wp_getInst]
    have hclosed : Invariant (s.setState .httpProxyIoStateClosed) :=
      h.toCore.closed _ rfl nofun
    have hrely : Rely s (s.setState .httpProxyIoStateClosed) :=
      rely_setState (opening_of_state hstate) rfl
    split
    · apply wp_quiet rfl hclosed
      intro _ s' _ hinv' hrely'
      exact ⟨hinv', hrely.trans hrely'⟩
    · exact ⟨hclosed, hrely⟩
  | _ => exact ⟨h, .refl s⟩

theorem reportOpened_keeps (h : Core s) (hop : s.opening = true) {responseEnd : Nat}
    (hend : UwsClient.findResponseEnd s.inst.receiveBuffer = some responseEnd) :
    Keeps (reportOpened (tunnelledBytes s.inst.receiveBuffer responseEnd)) s := by
  simp only [Keeps, reportOpened, wp_bind, wp_setHttpProxyIoState]
  let s₁ := s.setState .httpProxyIoStateOpen
  let report : Event :=
    .call s₁.currentOpen (.onIoOpenComplete s₁.inst.onIoOpenComplete { result := .ioOpenOk })
  have hzero : s₁.openCompletions s₁.currentOpen = 0 := h.unreported hop
  have hreported : Core ((s.setState .httpProxyIoStateClosed).record report) :=
    (h.closed .httpProxyIoStateClosed rfl nofun).report rfl hzero _ _
  have hopened : Core (s₁.record report) :=
    show Core (((s.setState .httpProxyIoStateClosed).record report).setState
        .httpProxyIoStateOpen) from
      hreported.leave rfl fun _ => occurs_concat.2 (.inr rfl)
  apply wp_onIoOpenComplete rfl hzero hopened
  intro s' hended hok
  have hcontinued : Continued s s₁ := .of_eq rfl rfl rfl
  have hended' : Ended s s' := { hended with continued := hcontinued.trans hended.continued }
  split
  case isFalse => exact ⟨hended'.inv, hended'.rely hop⟩
  case isTrue htunnelled =>
    have hok := hok rfl
    have hclosed : s'.closeCalled = false := by
      rcases hok.2 with hnothing | hclosed
      · rw [nothingTunnelled, hended'.buffer, hend] at hnothing
        exact absurd (by simpa using hnothing) htunnelled
      · exact hclosed
    exact (onBytesReceived_keeps hended'.inv hok.1 hclosed _).after (hended'.rely hop)

theorem parseConnectResponse_keeps (h : Core s) (hop : s.opening = true)
    (hheard : UwsClient.findResponseEnd s.inst.receiveBuffer = none →
      Heard s.inst.httpProxyIoState s.heard) : Keeps parseConnectResponse s := by
  simp only [Keeps, parseConnectResponse, wp_bind, wp_getInst]
  split
  case h_1 hend => exact ⟨{ h with heard := hheard hend }, .refl s⟩
  case h_2 responseEnd hend =>
    simp only [errno, wp_bind]
    apply wp_ask rfl h
    intro errnoSet _
    split
    · exact indicateOpenCompleteErrorAndClose_keeps h hop failure
    split
    · exact indicateOpenCompleteErrorAndClose_keeps h hop failure
    · exact reportOpened_keeps h hop hend

theorem heardBytes_chunks (chunks : List Bytes) :
    heardBytes (.openComplete .ioOpenOk :: chunks.map .bytesReceived) = chunks.flatten := by
  simp [heardBytes, Function.comp_def]

theorem onConnectResponseReceived_keeps (h : Invariant s) (buffer : Bytes)
    (hstate : s.inst.httpProxyIoState = .httpProxyIoStateWaitingForConnectResponse)
    (harrives : arrivesWell s buffer = true) :
    Keeps (do
      accumulateConnectResponse buffer
      parseConnectResponse) (s.hear (.bytesReceived buffer)) := by
  have hcore : Core (s.hear (.bytesReceived buffer)) := h.toCore.hear _
  have hop : (s.hear (.bytesReceived buffer)).opening = true := opening_of_state hstate
  simp only [Keeps, accumulateConnectResponse, realloc, wp_bind]
  apply wp_ask rfl hcore
  intro reallocated hans
  cases reallocated with
  | false =>
    have hnone : UwsClient.findResponseEnd s.inst.receiveBuffer = none := by
      simpa [disciplinedRun] using hans
    refine wp_mono ?_ (indicateOpenCompleteErrorAndClose_ends hcore hop failure)
    intro _ s' hended
    simp only [parseConnectResponse, wp_bind, wp_getInst, hended.buffer, ProxyIo.hear_inst, hnone]
    exact ⟨hended.inv, hended.rely hop⟩
  | true =>
    simp only [Bool.true_eq_false, if_false, wp_modifyInst]
    let s₁ := (s.hear (.bytesReceived buffer)).setInst
      { s.inst with receiveBuffer := s.inst.receiveBuffer ++ buffer }
    have hcore₁ : Core s₁ := hcore.congr rfl rfl rfl rfl id (fun hst => absurd
      (hstate.symm.trans hst) nofun)
    have hrely : Rely (s.hear (.bytesReceived buffer)) s₁ := {
      toContinued := .of_eq rfl rfl rfl
      ends := fun hop' => .inl hop'
      stays := fun hop' => absurd hop (by simp [hop']) }
    refine (parseConnectResponse_keeps hcore₁ hop ?_).after hrely
    intro hnone
    have hheard := h.heard
    rw [hstate] at hheard
    rcases hheard with ⟨chunks, hchunks, -⟩
    show Heard s.inst.httpProxyIoState (s.heard ++ [.bytesReceived buffer])
    rw [hstate]
    refine ⟨chunks ++ [buffer], by simp [hchunks], ?_⟩
    have hsilent : UwsClient.findResponseEnd (heardBytes s.heard ++ buffer) = none := by
      rw [show s₁.inst.receiveBuffer = s.inst.receiveBuffer ++ buffer from rfl] at hnone
      simpa [arrivesWell, hstate, hnone] using harrives
    simpa [hchunks, heardBytes_chunks] using hsilent

theorem onUnderlyingIoBytesReceived_keeps (h : Invariant s) (buffer : Bytes)
    (harrives : arrivesWell s buffer = true) : Keeps (onUnderlyingIoBytesReceived buffer) s := by
  simp only [Keeps, onUnderlyingIoBytesReceived, wp_bind, wp_modify, wp_getInst]
  let s₁ := s.hear (.bytesReceived buffer)
  have hcore : Core s₁ := h.toCore.hear _
  have hrely : Rely s s₁ := rely_hear _
  have hinv : s₁.opening = false → Invariant s₁ := hcore.invariant
  cases hstate : s₁.inst.httpProxyIoState with
  | httpProxyIoStateClosed => exact ⟨hinv (opening_of_state hstate), hrely⟩
  | httpProxyIoStateError => exact ⟨hinv (opening_of_state hstate), hrely⟩
  | httpProxyIoStateClosing => exact ⟨hinv (opening_of_state hstate), hrely⟩
  | httpProxyIoStateOpeningUnderlyingIo =>
    exact (indicateOpenCompleteErrorAndClose_keeps hcore (opening_of_state hstate)
      failure).after hrely
  | httpProxyIoStateWaitingForConnectResponse =>
    exact (onConnectResponseReceived_keeps h buffer hstate harrives).after hrely
  | httpProxyIoStateOpen =>
    have hopened := h.opened hstate
    have hclosed : s.closeCalled = false := by
      have hstate' : s.inst.httpProxyIoState = .httpProxyIoStateOpen := hstate
      simpa [arrivesWell, hstate'] using harrives
    exact (onBytesReceived_keeps (hinv (opening_of_state hstate)) hopened hclosed buffer).after
      hrely

/-! ### The interface -/

theorem Invariant.markClose (h : Invariant s) : Invariant s.markClose := by
  have hdisciplined : Disciplined { s with closeCalled := true } := { h.disciplined with }
  have hmarked : Invariant { s with closeCalled := true } :=
    { h with disciplined := hdisciplined, notClosed := nofun }
  have hadmissible : Admissible { s with closeCalled := true } (.closeCalled s.currentOpen) := {
    completes := nofun
    delivers := nofun
    closes := by
      intro k hk
      cases hk
      exact ⟨rfl, rfl⟩ }
  exact hmarked.record hadmissible

theorem rely_markClose : Rely s s.markClose where
  grows := List.prefix_append _ _
  openCalls := rfl
  currentOpen := rfl
  accepted k hk := by
    rwa [show s.markClose.log = s.log ++ [.closeCalled s.currentOpen] from rfl,
      occurs_concat_of_none rfl] at hk
  ends hop := .inl hop
  stays hop := by
    refine ⟨hop, ?_, rfl⟩
    exact openCompletions_record (.closeCalled s.currentOpen) s.currentOpen

theorem closeWhileOpening_keeps (h : Core s) (hop : s.opening = true) :
    Keeps closeWhileOpening s := by
  have hends := closeAndReport_ends h hop .closeWhileOpening ⟨.ioOpenCancelled, failure⟩
  simp only [Keeps, closeWhileOpening, wp_bind] at hends ⊢
  refine wp_mono ?_ hends
  intro _ s' hs'
  refine wp_mono ?_ hs'
  intro _ s'' hs''
  refine wp_mono ?_ hs''
  intro _ s₃ hended
  exact ⟨hended.inv, hended.rely hop⟩

/-- The state that is restored is no opening state, and OPEN only if the open has succeeded. -/
theorem closeOpened_keeps (h : Invariant s) {previousState : HttpProxyIoState}
    (hstate : s.inst.httpProxyIoState = previousState) (hprevious : previousState.opening = false)
    (onIoCloseComplete : Option Callback) :
    Keeps (closeOpened previousState onIoCloseComplete) s := by
  simp only [Keeps, closeOpened, xioClose, wp_bind, wp_modifyInst]
  let s₁ := s.setInst { s.inst with
    httpProxyIoState := .httpProxyIoStateClosing
    onIoCloseComplete := onIoCloseComplete }
  have hop : s.opening = false := (opening_of_state hstate).trans hprevious
  have hcore : Core s₁ := h.toCore.congr rfl rfl rfl rfl nofun nofun
  have hrely : Rely s s₁ := {
    toContinued := .of_eq rfl rfl rfl
    ends := fun hop' => absurd hop' (by simp [hop])
    stays := fun _ => ⟨rfl, rfl, rfl⟩ }
  apply wp_quiet rfl (hcore.invariant rfl)
  intro r s' _ hinv hrely'
  have hlater : Rely s s' := hrely.trans hrely'
  split
  · simp only [wp_bind, wp_setHttpProxyIoState]
    have hrestored : Core (s'.setState previousState) := by
      apply hinv.toCore.leave hprevious
      intro hopen
      rw [hlater.currentOpen]
      exact (h.opened (hstate.trans hopen)).grow hlater.grows
    have hrely'' : Rely s' (s'.setState previousState) :=
      rely_setState (hlater.stays hop).1 hprevious
    exact ⟨hrestored.invariant hprevious, hlater.trans hrely''⟩
  · exact ⟨hinv, hlater⟩

theorem httpProxyIoClose_keeps (h : Invariant s) (onIoCloseComplete : Option Callback) :
    Keeps (httpProxyIoClose onIoCloseComplete) s := by
  simp only [Keeps, httpProxyIoClose, wp_bind, wp_modify, wp_getInst]
  have hinv : Invariant s.markClose := h.markClose
  cases hstate : s.markClose.inst.httpProxyIoState with
  | httpProxyIoStateClosed => exact ⟨hinv, rely_markClose⟩
  | httpProxyIoStateClosing => exact ⟨hinv, rely_markClose⟩
  | httpProxyIoStateOpeningUnderlyingIo =>
    exact (closeWhileOpening_keeps hinv.toCore (opening_of_state hstate)).after rely_markClose
  | httpProxyIoStateWaitingForConnectResponse =>
    exact (closeWhileOpening_keeps hinv.toCore (opening_of_state hstate)).after rely_markClose
  | httpProxyIoStateOpen =>
    exact (closeOpened_keeps hinv hstate rfl onIoCloseComplete).after rely_markClose
  | httpProxyIoStateError =>
    exact (closeOpened_keeps hinv hstate rfl onIoCloseComplete).after rely_markClose

theorem httpProxyIoSend_keeps (h : Invariant s) (buffer : Option Bytes)
    (onSendComplete : Option Callback) : Keeps (httpProxyIoSend buffer onSendComplete) s := by
  match buffer with
  | none => exact ⟨h, .refl s⟩
  | some [] => exact ⟨h, .refl s⟩
  | some (b :: bytes) =>
    simp only [Keeps, httpProxyIoSend, xioSend, wp_bind, wp_getInst]
    split
    · exact ⟨h, .refl s⟩
    · simp only [wp_bind]
      apply wp_quiet rfl h
      intro r s' _ hinv hrely
      exact ⟨hinv, hrely⟩

theorem httpProxyIoDowork_keeps (h : Invariant s) : Keeps httpProxyIoDowork s := by
  simp only [Keeps, httpProxyIoDowork, wp_bind, wp_getInst]
  split
  · apply wp_quiet rfl h
    intro _ s' _ hinv hrely
    exact ⟨hinv, hrely⟩
  · exact ⟨h, .refl s⟩

theorem httpProxyIoDestroy_keeps (h : Invariant s) : Keeps httpProxyIoDestroy s := by
  have hadmissible : Admissible s (.call s.currentOpen .xioDestroy) := ⟨nofun, nofun, nofun⟩
  have hinv : Invariant (s.record (.call s.currentOpen .xioDestroy)) := h.record hadmissible
  have hrely : Rely s (s.record (.call s.currentOpen .xioDestroy)) := rely_record rfl rfl
  simp only [Keeps, httpProxyIoDestroy, callOut, wp_bind, wp_modify]
  apply wp_ask rfl hinv.toCore
  intro _ _
  have hdisciplined : Disciplined { s.record (.call s.currentOpen .xioDestroy) with
      destroyed := true } := { hinv.disciplined with }
  exact ⟨{ hinv with disciplined := hdisciplined }, { hrely with openCalls := rfl, currentOpen := rfl }⟩

/-- `k` is the number of this open. -/
theorem openUnderlyingIo_keeps (h : Invariant s) (arguments : OpenArguments)
    (hzero : s.openCompletions s.openCalls = 0)
    (hclosed : ¬ Occurs Event.closedOpen s.log s.openCalls) :
    wp openClose.spec (openUnderlyingIo s.openCalls arguments) (fun r s' =>
      Invariant s' ∧ (Settled s → Settled s') ∧
        (r = 0 → s'.openCompletions s.openCalls = 1 ∨
          (s.openCalls = s'.currentOpen ∧ s'.opening = true))) s := by
  have hrefused : Invariant s ∧ (Settled s → Settled s) ∧
      (failure = 0 → s.openCompletions s.openCalls = 1 ∨
        (s.openCalls = s.currentOpen ∧ s.opening = true)) :=
    ⟨h, id, fun hr => absurd hr (by decide)⟩
  unfold openUnderlyingIo
  split
  case h_2 => exact hrefused
  case h_1 onIoOpenComplete onBytesReceived onIoError _ _ _ =>
    simp only [xioOpen, wp_bind, wp_getInst]
    split
    case isTrue => exact hrefused
    case isFalse hstate =>
      simp only [wp_bind, wp_modify]
      let s₁ := s.beginOpen s.openCalls onIoOpenComplete onBytesReceived onIoError
      have hop : s.opening = false := opening_of_state (Decidable.not_not.1 hstate)
      have hdisciplined : Disciplined s₁ := { h.disciplined with }
      have hinv : Invariant s₁ := {
        disciplined := hdisciplined
        current := Nat.le_refl _
        numbered := h.numbered
        unreported := fun _ => hzero
        opened := by rintro ⟨⟩
        notClosed := fun _ => hclosed
        heard := rfl }
      apply wp_quiet rfl hinv
      intro r s' _ hinv' hrely
      -- The opens before this one are reported, since the instance was closed.
      have hreported : Settled s → ∀ k, Occurs Event.acceptedOpen s'.log k →
          s'.openCompletions k = 1 := by
        intro hsettled k hk
        rcases hsettled k (hrely.accepted k hk) with hone | ⟨-, hop'⟩
        · have hmono : s.openCompletions k ≤ s'.openCompletions k :=
            openCompletions_mono (s := s₁) hrely.grows k
          have honce := hinv'.disciplined.atMostOnce k
          omega
        · simp [hop] at hop'
      split
      · simp only [wp_bind, wp_setHttpProxyIoState]
        refine ⟨hinv'.toCore.closed _ rfl (by rintro ⟨⟩), ?_, fun hr => absurd hr (by decide)⟩
        intro hsettled k hk
        exact .inl (hreported hsettled k hk)
      · refine ⟨hinv', fun hsettled k hk => .inl (hreported hsettled k hk), ?_⟩
        intro _
        rcases hrely.ends rfl with hop' | hone
        · exact .inr ⟨hrely.currentOpen.symm, hop'⟩
        · exact .inl (Nat.le_antisymm (hinv'.disciplined.atMostOnce _) hone)

theorem httpProxyIoOpen_keeps (h : Invariant s) (arguments : OpenArguments) :
    wp openClose.spec (httpProxyIoOpen arguments)
      (fun _ s' => Invariant s' ∧ (Settled s → Settled s')) s := by
  simp only [httpProxyIoOpen, wp_bind, wp_modify, wp_get]
  let s₁ : ProxyIo := { s with openCalls := s.openCalls + 1 }
  have hnumbered := h.numbered (s.openCalls + 1) (Nat.lt_succ_self _)
  have hdisciplined : Disciplined s₁ := { h.disciplined with }
  have hinv : Invariant s₁ := { h with
    disciplined := hdisciplined
    current := Nat.le_succ_of_le h.current
    numbered := fun k hk => h.numbered k (Nat.lt_of_succ_lt hk) }
  refine wp_mono ?_ (openUnderlyingIo_keeps hinv arguments hnumbered.1 hnumbered.2)
  rintro r s' ⟨hinv', hsettled, hreturned⟩
  refine ⟨hinv'.record ⟨by rintro _ ⟨⟩, by rintro _ ⟨⟩, by rintro _ ⟨⟩⟩, ?_⟩
  intro h₀ k hk
  rw [ProxyIo.record_log, occurs_concat] at hk
  have hcompletions : (s'.record (.openReturned s₁.openCalls r)).openCompletions k =
      s'.openCompletions k := openCompletions_record _ _
  rw [hcompletions]
  rcases hk with hk | hk
  · exact hsettled h₀ k hk
  · by_cases hr : r = 0
    · have hkeq : s₁.openCalls = k := by simpa [Event.acceptedOpen, hr] using hk
      rw [← hkeq]
      exact hreturned hr
    · simp [Event.acceptedOpen, hr] at hk

theorem httpProxyIoCode_keeps (h : Invariant s) {p : Proc} (hentry : openClose.entry p s)
    (hopen : ∀ arguments, p ≠ .httpProxyIoOpen arguments) :
    Keeps (httpProxyIoCode config p) s := by
  have hvoid : ∀ {c : HttpProxyIoComp Unit}, Keeps c s → Keeps (void c) s := by
    intro c hc
    rw [Keeps, void, wp_bind]
    exact hc
  cases p with
  | httpProxyIoOpen arguments => exact absurd rfl (hopen arguments)
  | httpProxyIoClose onIoCloseComplete => exact httpProxyIoClose_keeps h onIoCloseComplete
  | httpProxyIoSend buffer onSendComplete => exact httpProxyIoSend_keeps h buffer onSendComplete
  | httpProxyIoDowork => exact hvoid (httpProxyIoDowork_keeps h)
  | httpProxyIoDestroy => exact hvoid (httpProxyIoDestroy_keeps h)
  | onUnderlyingIoOpenComplete result => exact hvoid (onUnderlyingIoOpenComplete_keeps h result)
  | onUnderlyingIoBytesReceived buffer =>
    exact hvoid (onUnderlyingIoBytesReceived_keeps h buffer hentry)
  | onUnderlyingIoError => exact hvoid (onUnderlyingIoError_keeps h)
  | onUnderlyingIoCloseComplete => exact hvoid (onUnderlyingIoCloseComplete_keeps h)

end

/-! ## Every run -/

theorem openClose_sound (config : HttpProxyIoConfig) :
    openClose.Sound (httpProxyIoCode config) where
  inv_always s h := h.disciplined
  refl := Rely.refl
  trans _ _ _ h h' := h.trans h'
  reenter := by
    intro c p s hmay
    have hany := (Bool.and_eq_true_iff.1 (Bool.and_eq_true_iff.1 hmay).1).2
    simp only [Bool.or_eq_true, Bool.and_eq_true] at hany
    simp only [openClose, Bool.or_eq_true]
    rcases hany with ⟨hc, hp⟩ | ⟨hc, hp⟩
    · exact ⟨.inl hc, .inl hp⟩
    · exact ⟨.inr hc, .inr hp⟩
  enter := by
    intro top p s h _ hmay
    have harrives := (Bool.and_eq_true_iff.1 hmay).2
    cases p with
    | onUnderlyingIoBytesReceived buffer => exact harrives
    | _ => trivial
  code := by
    intro p s h hentry _
    by_cases hopen : ∃ arguments, p = .httpProxyIoOpen arguments
    · rcases hopen with ⟨arguments, rfl⟩
      refine wp_mono ?_ (httpProxyIoOpen_keeps h arguments)
      intro _ s' h'
      exact ⟨h'.1, h'.2, nofun⟩
    · refine wp_mono ?_ (httpProxyIoCode_keeps h hentry fun arguments hp => hopen ⟨arguments, hp⟩)
      intro _ s' h'
      exact ⟨h'.1, fun hsettled => hsettled.of_rely h'.2 h'.1.toCore, fun _ => h'.2⟩

theorem Settled.eachReported {s : ProxyIo} (h : Settled s) (hinv : Invariant s) :
    EachReported s := by
  intro k hk
  rcases h k hk with hone | ⟨hcurrent, hop⟩
  · exact .inl hone
  · refine .inr ⟨hcurrent, ?_⟩
    have hheard := hinv.heard
    revert hop hheard
    unfold ProxyIo.opening
    cases s.inst.httpProxyIoState
    all_goals simp only [HttpProxyIoState.opening, Heard, Bool.false_eq_true, false_implies]
    · exact fun _ hheard => .inl hheard
    · exact fun _ hheard => .inr hheard

/-- In a run that meets the condition, opens are reported once and bytes are delivered in between. -/
theorem disciplined_of_disciplinedRun {config : HttpProxyIoConfig} {s : ProxyIo}
    {st : List (Frame ProxyIo httpProxyIoSignature)}
    (h : Reachable (httpProxyIoCode config) disciplinedRun {} (.env s st)) :
    Disciplined s ∧ (st = [] → EachReported s) := by
  have hdisciplined : Disciplined {} := {
    atMostOnce := fun _ => Nat.zero_le _
    onlyAfterOpen := onlyAfter_nil
    notAfterClose := neverAfter_nil }
  have hinv : Invariant {} := {
    disciplined := hdisciplined
    current := Nat.le_refl _
    numbered := fun _ _ => ⟨rfl, not_occurs_nil⟩
    unreported := nofun
    opened := nofun
    notClosed := fun _ => not_occurs_nil
    heard := trivial }
  have hsettled : Settled {} := fun _ hk => absurd hk not_occurs_nil
  refine ⟨(openClose_sound config).reachable_always hinv hsettled h, ?_⟩
  rintro rfl
  have hidle := (openClose_sound config).reachable_idle hinv hsettled h
  exact hidle.2.eachReported hidle.1

/-- The response in two chunks, the second with a tunnelled byte. -/
def connectThenClose : List (Input httpProxyIoSignature) :=
  connecting ++
    [.enter (.onUnderlyingIoBytesReceived (ascii "HTTP/1.1 200 \r\n")), .answer succeeds,
      .enter (.onUnderlyingIoBytesReceived (ascii "\r\nx")), .answer succeeds, .answer succeeds,
      .answer succeeds, .answer succeeds,
      .enter (.httpProxyIoClose none), .answer succeeds, .enter .onUnderlyingIoCloseComplete]

theorem disciplined_connectThenClose :
    ∃ s, Reachable (httpProxyIoCode someConfig) disciplinedRun {} (.env s []) ∧
      s.openCompletions 1 = 1 ∧ (s.log.any fun ev => ev.deliveredTo == some 1) = true ∧
        Disciplined s ∧ EachReported s := by
  have hrun : disciplinedRun.endsIn (httpProxyIoCode someConfig) 20 {} connectThenClose
      (fun s st => st.isEmpty && s.openCompletions 1 == 1 &&
        s.log.any fun ev => ev.deliveredTo == some 1) = true := by
    decide +kernel
  rcases Env.endsIn_sound hrun with ⟨s, st, hreach, htest⟩
  simp only [Bool.and_eq_true, List.isEmpty_iff, beq_iff_eq] at htest
  rcases htest with ⟨⟨rfl, hreported⟩, hdelivered⟩
  have hdisciplined := disciplined_of_disciplinedRun hreach
  exact ⟨s, hreach, hreported, hdelivered, hdisciplined.1, hdisciplined.2 rfl⟩

/-- The user closes in `on_io_open_complete`, and a tunnelled byte has come with the response. -/
def closeInOpenComplete : List (Input httpProxyIoSignature) :=
  connecting ++
    [.enter (.onUnderlyingIoBytesReceived (ascii "HTTP/1.1 200 \r\n\r\nx")), .answer succeeds,
      .answer succeeds, .enter (.httpProxyIoClose none), .answer succeeds, .answer succeeds]

/-- The byte is delivered after the close. -/
theorem closeInOpenComplete_delivered :
    ¬ ∀ (config : HttpProxyIoConfig) (s : ProxyIo)
        (st : List (Frame ProxyIo httpProxyIoSignature)),
        Reachable (httpProxyIoCode config) anyRun {} (.env s st) →
          Disciplined s ∧ (st = [] → EachReported s) := by
  intro h
  have hrun : anyRun.endsIn (httpProxyIoCode someConfig) 20 {} closeInOpenComplete
      (fun s _ => ((s.log.take 6).any fun ev => ev.closedOpen == some 1) &&
        (s.log.drop 6).any fun ev => ev.deliveredTo == some 1) = true := by
    decide +kernel
  rcases Env.endsIn_sound hrun with ⟨s, st, hreach, htest⟩
  rcases Bool.and_eq_true_iff.1 htest with ⟨hclosed, hdelivered⟩
  have hdisciplined := (h _ _ _ hreach).1
  apply hdisciplined.notAfterClose (s.log.take 6) (s.log.drop 6)
    (List.take_append_drop 6 s.log).symm 1
  · simpa [Occurs] using hclosed
  · simpa [Occurs] using hdelivered

end SharedUtility.HttpProxyIo
