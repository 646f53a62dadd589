import SharedUtility.UwsClient.Runs
import SharedUtility.UwsClient.Watch

/-!
# CloseReports — `on_ws_close_complete` is called for close calls of its own connection

Noted are the callbacks given to close calls, those that were called, and whether the callback in the
slot `on_ws_close_complete` is fresh: given to a close call on this connection, and not called since.
The slot is never cleared, so it outlives the connection and the report.

* a peer that closes the next connection makes the client report with the old callback,
* a close that is completed while the client is closing the underlying io once more is reported twice,
* an open from `on_ws_send_frame_complete`, while a close is being reported, gets the report.
-/

namespace SharedUtility.UwsClient
namespace CloseReports

open Reentrant Observed Observer Watch

/-! ## What is noted -/

/-- A function under way.  `reports` is a loop that clears the pending sends before a close is
reported, `masked` a decode round that starts with a masked frame. -/
structure Activity where
  proc : Proc
  reports : Bool := false
  masked : Bool := false
  deriving DecidableEq

/-- A callback with the connection on which it was given or called. -/
structure CloseCallback where
  openId : Nat
  callback : Callback
  deriving DecidableEq

/-- `closes` are the callbacks given to close calls that were not refused at once, `reports` those that
were called. -/
structure CloseNotes where
  active : List Activity := []
  closes : List CloseCallback := []
  reports : List CloseCallback := []
  fresh : Bool := false
  deriving DecidableEq

namespace CloseNotes

/-- Whether a loop that starts now clears the pending sends for a report: not in
`uws_client_destroy`. -/
def clearsForReport (n : CloseNotes) : Bool :=
  match n.active with
  | [] => false
  | a :: _ =>
    match a.proc with
    | .uwsClientDestroy => false
    | .clearPendingSends => a.reports
    | _ => true

/-- Whether a close is about to be reported. -/
def reporting (n : CloseNotes) : Bool :=
  n.active.any (·.reports)

/-- Whether the function under way is a decode round that started with a masked frame. -/
def inMasked (n : CloseNotes) : Bool :=
  n.active.head?.any (·.masked)

def push (n : CloseNotes) (a : Activity) : CloseNotes :=
  { n with active := a :: n.active }

def pop (n : CloseNotes) : CloseNotes :=
  { n with active := n.active.tail }

/-- A close call that is not refused puts its callback into the slot. -/
def close (n : CloseNotes) (openId : Nat) (cb : Option Callback) : CloseNotes :=
  { n with closes := n.closes ++ cb.toList.map fun cb => ⟨openId, cb⟩, fresh := true }

def report (n : CloseNotes) (openId : Nat) (cb : Callback) : CloseNotes :=
  { n with reports := n.reports ++ [⟨openId, cb⟩], fresh := false }

end CloseNotes

def closeObserver : Observer Uws uwsSignature CloseNotes where
  entered p s n :=
    match p with
    | .uwsClientCloseAsync cb =>
      (if s.client.uwsState = .uwsStateClosed then n else n.close s.currentOpen cb).push
        { proc := p }
    | .uwsClientCloseHandshakeAsync _ cb =>
      (if s.client.uwsState.refusesHandshake then n else n.close s.currentOpen cb).push
        { proc := p }
    | .clearPendingSends => n.push { proc := p, reports := n.clearsForReport }
    | .decodeStream =>
      n.push
        { proc := p,
          masked := s.client.uwsState.decodesFrames && startsMasked s.client.streamBuffer }
    | p => n.push { proc := p }
  called c s n :=
    match c with
    | .xioOpen => { n with fresh := false }
    | .onWsCloseComplete cb => n.report s.currentOpen cb
    | _ => n
  returned _ _ _ n := n.pop

abbrev NotedUws := Observed Uws CloseNotes

def notedCode (p : Proc) : Comp NotedUws uwsSignature Int :=
  closeObserver.code uwsCode p

/-! ## The property -/

/-- On each connection, a callback is called at most as often as it was given to close calls. -/
def Matched (s : NotedUws) : Prop :=
  ∀ x, s.notes.reports.count x ≤ s.notes.closes.count x

/-! ## Runs -/

def anyNotedRun : Env NotedUws uwsSignature :=
  environment CloseNotes reentrantRun

/-- The slot is NULL, or its callback is fresh. -/
def current (s : NotedUws) : Bool :=
  s.state.client.onWsCloseComplete.isNone || s.notes.fresh

/-- The stream buffer starts with a close frame that is complete and final. -/
def startsWithClose (streamBuffer : Bytes) : Bool :=
  let fl := decodeFrameLength streamBuffer
  !fl.hasError && decide (fl.neededBytes ≤ streamBuffer.length) &&
    (streamBuffer.getD 0 0 &&& 0xF == wsCloseFrame) && streamBuffer.getD 0 0 &&& 0x80 != 0

/-- If a close frame is handled next, the slot is current. -/
def currentForClose (s : NotedUws) : Bool :=
  !startsWithClose s.state.client.streamBuffer || current s

/-- The condition.  A close frame of the peer is handled, also behind the report that it is masked, only
while the slot is NULL or its callback fresh; the same holds when `xio_close` returns to a function that
reports then, and when the answer to a close frame could not be sent; and the client is not opened
while a close is about to be reported. -/
def closeReportsRun : Env NotedUws uwsSignature where
  mayEnter top p s :=
    anyNotedRun.mayEnter top p s &&
    (match p with
      | .uwsClientOpenAsync callbacks => !(s.state.startsOpen callbacks && s.notes.reporting)
      | _ => true)
  mayAnswer c r s :=
    match c, r with
    | .onWsError _ _, _ => !s.notes.inMasked || currentForClose s
    | .xioSend .closeFrame _, _ => !s.notes.inMasked || currentForClose s
    | .xioSend .closeResponse _, r => r == 0 || current s
    | .xioClose .ioErrorWhileClosing, _ => current s
    | .xioClose .closeSent, r => r == 0 || current s
    | .xioClose .closeHandshakeDone, r => r == 0 || current s
    | _, _ => true
  mayRun p s :=
    match p with
    | .decodeStream => s.state.client.uwsState != .uwsStateOpen || currentForClose s
    | _ => true

/-! ## The invariant -/

def isClosing : UwsState → Bool
  | .uwsStateClosingWaitingForClose | .uwsStateClosingSendingClose | .uwsStateClosingUnderlyingIo => true
  | _ => false

/-- What holds whenever the client calls out: in particular, a client that is closing will report with
a fresh callback, and nothing is left to close while it is about to report. -/
structure Kept (s : NotedUws) : Prop where
  matched : Matched s
  fresh : s.notes.fresh = true → ∀ cb, s.state.client.onWsCloseComplete = some cb →
    s.notes.reports.count ⟨s.state.currentOpen, cb⟩ < s.notes.closes.count ⟨s.state.currentOpen, cb⟩
  closing : isClosing s.state.client.uwsState = true → current s = true
  reporting : s.notes.reporting = true →
    s.state.client.uwsState = .uwsStateClosed ∧ current s = true

/-- A loop that clears the pending sends for a report leaves the client closed, with a fresh callback. -/
def ReadyToReport (s : NotedUws) : Prop :=
  s.state.client.uwsState = .uwsStateClosed ∧ current s = true

/-- Where no close is about to be reported. -/
def closeWatch : Watch CloseNotes where
  observer := closeObserver
  env := closeReportsRun
  inv := Kept
  rely s s' := s'.notes.active = s.notes.active
  within s s' := s'.notes.active = s.notes.active ∧ s.notes.reporting = false
  entry p s :=
    match p with
    | .uwsClientOpenAsync callbacks => s.state.startsOpen callbacks = true → s.notes.reporting = false
    | .clearPendingSends => s.notes.clearsForReport = true → ReadyToReport s
    | _ => True
  effect p s s' :=
    match p with
    | .clearPendingSends => s.notes.clearsForReport = true → ReadyToReport s'
    | _ => True
  decodes s := Kept s ∧ s.notes.reporting = false
  decoded s s' := Kept s' ∧ s'.notes.active = s.notes.active
  calm st := isClosing st = false
  common c := c ≠ .xioOpen ∧ ∀ cb, c ≠ .onWsCloseComplete cb

/-- Where one is: the client stays closed. -/
def reportWatch : Watch CloseNotes :=
  { closeWatch with
    within := fun s s' => s'.notes.active = s.notes.active
    calm := fun st => st = .uwsStateClosed }

section

variable {s s₀ : NotedUws}

theorem reporting_of_active (h : s.notes.active = s₀.notes.active) :
    s.notes.reporting = s₀.notes.reporting := by
  rw [CloseNotes.reporting, h, CloseNotes.reporting]

theorem clearsForReport_of_active (h : s.notes.active = s₀.notes.active) :
    s.notes.clearsForReport = s₀.notes.clearsForReport := by
  rw [CloseNotes.clearsForReport, h, CloseNotes.clearsForReport]

theorem idle (h : closeWatch.At s₀ s) : s.notes.reporting = false :=
  (reporting_of_active h.within.1).trans h.within.2

theorem Kept.alike (h : Kept s) {t : Uws} (ht : Uws.Alike s.state t) : Kept (s.setState t) := by
  have hcurrent : current (s.setState t) = current s := by
    show (t.client.onWsCloseComplete.isNone || s.notes.fresh) = _
    rw [ht.onWsCloseComplete, current]
  refine ⟨h.matched, ?_, ?_, ?_⟩
  · intro hfresh cb hcb
    have hcb : t.client.onWsCloseComplete = some cb := hcb
    show s.notes.reports.count ⟨t.currentOpen, cb⟩ < s.notes.closes.count ⟨t.currentOpen, cb⟩
    rw [ht.currentOpen]
    exact h.fresh hfresh cb (ht.onWsCloseComplete ▸ hcb)
  · intro hclosing
    have hclosing : isClosing t.client.uwsState = true := hclosing
    rw [ht.uwsState] at hclosing
    rw [hcurrent]
    exact h.closing hclosing
  · intro hreporting
    have hboth := h.reporting hreporting
    exact ⟨ht.uwsState.trans hboth.1, hcurrent.trans hboth.2⟩

/-- The state may be set, unless this starts to close with an old callback, or a close is reported. -/
theorem Kept.setState (h : Kept s) {st : UwsState} (hclosing : isClosing st = true → current s = true)
    (hreporting : s.notes.reporting = true → st = .uwsStateClosed) :
    Kept (s.setState (s.state.setState st)) := by
  refine ⟨h.matched, h.fresh, hclosing, ?_⟩
  intro hreports
  exact ⟨hreporting hreports, (h.reporting hreports).2⟩

theorem called_of_common {c : Call} (hc : c ≠ .xioOpen ∧ ∀ cb, c ≠ .onWsCloseComplete cb) (s : Uws)
    (n : CloseNotes) : closeObserver.called c s n = n := by
  cases c with
  | xioOpen => exact absurd rfl hc.1
  | onWsCloseComplete cb => exact absurd rfl (hc.2 cb)
  | _ => rfl

theorem common_of_isOrdinary (c : Call) (hc : c.isOrdinary = true) :
    c ≠ .xioOpen ∧ ∀ cb, c ≠ .onWsCloseComplete cb := by
  constructor
  · rintro rfl
    cases hc
  · rintro cb rfl
    cases hc

theorem streaming : closeWatch.Streaming where
  alike _ _ _ h ht := ⟨h.inv.alike ht, h.within⟩
  state s₀ s st h hst := by
    have hst : isClosing st = false := hst
    refine ⟨h.inv.setState ?_ ?_, h.within⟩
    · intro hclosing
      rw [hst] at hclosing
      cases hclosing
    · intro hreporting
      rw [idle h] at hreporting
      cases hreporting
  called s₀ c s h hc := by
    show closeWatch.At s₀ (s.setNotes (closeObserver.called c s.state s.notes))
    rw [called_of_common hc]
    exact h
  answered _ _ _ _ h _ := h
  relied _ _ _ h hinv hactive := ⟨hinv, Eq.trans hactive h.within.1, h.within.2⟩
  ordinary := common_of_isOrdinary
  closed := rfl
  error := rfl
  waiting := rfl
  opened := rfl
  errno := ⟨nofun, nofun⟩
  stream _ _ _ h := ⟨{ h.inv with }, h.within⟩
  consumed s₀ s n h := by
    have hopen : (s.state.consumed n).currentOpen = s.state.currentOpen := by
      rw [Uws.consumed]
      split
      · rfl
      · rfl
    refine ⟨⟨h.inv.matched, ?_, h.inv.closing, h.inv.reporting⟩, h.within⟩
    intro hfresh cb hcb
    show s.notes.reports.count ⟨(s.state.consumed n).currentOpen, cb⟩ <
      s.notes.closes.count ⟨(s.state.consumed n).currentOpen, cb⟩
    rw [hopen]
    exact h.inv.fresh hfresh cb hcb
  decodes _ _ h := ⟨h.inv, idle h⟩
  decoded _ _ _ h hdecoded := ⟨hdecoded.1, Eq.trans hdecoded.2 h.within.1, h.within.2⟩

theorem steady : reportWatch.Steady where
  alike _ _ _ h ht := ⟨h.inv.alike ht, h.within⟩
  state s₀ s st h hst := by
    have hst : st = .uwsStateClosed := hst
    refine ⟨h.inv.setState ?_ fun _ => hst, h.within⟩
    intro hclosing
    rw [hst] at hclosing
    cases hclosing
  called s₀ c s h hc := by
    show reportWatch.At s₀ (s.setNotes (closeObserver.called c s.state s.notes))
    rw [called_of_common hc]
    exact h
  answered _ _ _ _ h _ := h
  relied _ _ _ h hinv hactive := ⟨hinv, Eq.trans hactive h.within⟩
  ordinary := common_of_isOrdinary
  closed := rfl

end

/-! ## The report of a close -/

section

variable {s s₀ : NotedUws}

theorem at_closing (h : closeWatch.At s₀ s) (hcurrent : current s = true) (st : UwsState) :
    closeWatch.At s₀ (s.setState (s.state.setState st)) := by
  refine ⟨h.inv.setState (fun _ => hcurrent) ?_, h.within⟩
  intro hreporting
  rw [idle h] at hreporting
  cases hreporting

theorem Kept.report (h : Kept s) (hready : ReadyToReport s) (hidle : s.notes.reporting = false)
    {cb : Callback} (hslot : s.state.client.onWsCloseComplete = some cb) :
    Kept (closeWatch.calling (.onWsCloseComplete cb) s) := by
  have hfresh : s.notes.fresh = true := by
    have hcurrent := hready.2
    rw [current, hslot] at hcurrent
    simpa using hcurrent
  have hunreported := h.fresh hfresh cb hslot
  refine ⟨?_, nofun, ?_, ?_⟩
  · intro x
    show (s.notes.reports ++ [CloseCallback.mk s.state.currentOpen cb]).count x ≤ s.notes.closes.count x
    rw [List.count_append, List.count_singleton]
    split
    · rename_i heq
      rw [← beq_iff_eq.1 heq]
      exact hunreported
    · exact h.matched x
  · intro hclosing
    have hclosing : isClosing s.state.client.uwsState = true := hclosing
    rw [hready.1] at hclosing
    cases hclosing
  · intro hreporting
    have hreporting : s.notes.reporting = true := hreporting
    rw [hidle] at hreporting
    cases hreporting

theorem indicateWsCloseComplete_keeps (h : closeWatch.At s₀ s) (hcurrent : current s = true)
    (hclears : s₀.notes.clearsForReport = true) :
    closeWatch.Keeps s₀ indicateWsCloseComplete s := by
  have hclosed := at_closing h hcurrent .uwsStateClosed
  simp only [Keeps, indicateWsCloseComplete, wp_observe_bind, observe_setUwsState]
  show wp closeWatch.interference.spec (Comp.proc Proc.clearPendingSends) _ _
  apply Interference.wp_nested (F := closeWatch.interference)
  case hpre =>
    refine ⟨hclosed.inv, ?_⟩
    intro _
    show ReadyToReport (s.setState (s.state.setState .uwsStateClosed))
    exact ⟨rfl, hcurrent⟩
  case hQ =>
    rintro _ s₁ ⟨hinv, hactive, heffect⟩
    have h₁ : closeWatch.At s₀ s₁ := streaming.relied s₀ _ s₁ hclosed hinv hactive
    have hready : ReadyToReport s₁ :=
      heffect ((clearsForReport_of_active h.within.1).trans hclears)
    simp only [observe_getClient]
    split
    case h_2 => exact h₁
    case h_1 cb hslot =>
      have hcalling : closeWatch.At s₀ (closeWatch.calling (.onWsCloseComplete cb) s₁) :=
        ⟨h₁.inv.report hready (idle h₁) hslot, h₁.within⟩
      simp only [wp_observe_bind]
      apply observe_callOut rfl hcalling.inv
      intro r s₂ _ hinv₂ hrely
      exact streaming.relied s₀ _ s₂ hcalling hinv₂ hrely

theorem xioClose_meets {purpose : ClosePurpose} {Q : Int → NotedUws → Prop}
    (h : closeWatch.At s₀ s)
    (hQ : ∀ (r : Int) s', closeReportsRun.mayAnswer (.xioClose purpose) r s' = true →
      closeWatch.At s₀ s' → Q r s') :
    wp closeWatch.interference.spec (closeWatch.observer.observe (xioClose purpose)) Q s := by
  have hcalling := streaming.atCalling h (streaming.ordinary (.xioClose purpose) rfl)
  apply observe_callOut rfl hcalling.inv
  intro r s' hmay hinv hrely
  exact hQ r s' hmay (streaming.relied s₀ _ s' hcalling hinv hrely)

theorem onUnderlyingIoCloseComplete_keeps (h : closeWatch.At s₀ s)
    (hclears : s₀.notes.clearsForReport = true) :
    closeWatch.Keeps s₀ onUnderlyingIoCloseComplete s := by
  simp only [Keeps, onUnderlyingIoCloseComplete, wp_observe_bind, wp_observe_ite, observe_getClient]
  split
  · rename_i hstate
    have hcurrent := h.inv.closing (by rw [hstate]; rfl)
    apply wp_mono _ (indicateWsCloseComplete_keeps h hcurrent hclears)
    intro _ s₁ h₁
    simp only [observe_setUwsState]
    exact streaming.atState h₁ rfl
  · exact h

theorem onUnderlyingIoCloseSent_keeps (h : closeWatch.At s₀ s)
    (hclears : s₀.notes.clearsForReport = true) (ioSendResult : IoSendResult) :
    closeWatch.Keeps s₀ (onUnderlyingIoCloseSent ioSendResult) s := by
  apply onUnderlyingIoCloseSent_meets h
  intro hstate
  have hcurrent := h.inv.closing (by rw [hstate]; rfl)
  simp only [wp_observe_bind]
  apply xioClose_meets (at_closing h hcurrent _)
  intro r s₁ hmay h₁
  split
  · rename_i hr
    have hmay : (r == 0 || current s₁) = true := hmay
    exact indicateWsCloseComplete_keeps h₁ (by simpa [hr] using hmay) hclears
  · exact h₁

theorem onUnderlyingIoError_keeps (h : closeWatch.At s₀ s)
    (hclears : s₀.notes.clearsForReport = true) :
    closeWatch.Keeps s₀ onUnderlyingIoError s := by
  apply streaming.onUnderlyingIoError_meets h fun _ h' => h'
  simp only [wp_observe_bind]
  apply xioClose_meets h
  intro r s₁ hmay h₁
  exact indicateWsCloseComplete_keeps h₁ hmay hclears

end

/-! ## A close frame of the peer -/

section

variable {s s₀ : NotedUws}

theorem closeUnderlyingIo_keeps (h : closeWatch.At s₀ s) (hcurrent : current s = true)
    (purpose : ClosePurpose) : closeWatch.Keeps s₀ (closeUnderlyingIo purpose) s := by
  simp only [Keeps, closeUnderlyingIo, wp_observe_bind, observe_setUwsState]
  apply xioClose_meets (at_closing h hcurrent _)
  intro r s₁ _ h₁
  split
  · simp only [wp_observe_bind]
    apply wp_mono _ (streaming.indicateWsError h₁ _)
    intro _ s₂ h₂
    simp only [observe_setUwsState]
    exact streaming.atState h₂ rfl
  · exact h₁

theorem receiveCloseFrame_keeps (h : closeWatch.At s₀ s) (fl : FrameLength) (isFinal : Bool)
    (hcurrent : isFinal = true → current s = true) (hclears : s₀.notes.clearsForReport = true) :
    closeWatch.Keeps s₀ (receiveCloseFrame fl isFinal) s := by
  have hpeer : ∀ (s₁ : NotedUws) (closeCode : Option Nat) (extraData : Bytes),
      closeWatch.At s₀ s₁ →
      wp closeWatch.interference.spec (closeWatch.observer.observe getClient)
        (fun c => wp closeWatch.interference.spec
          (closeWatch.observer.observe (callBack c.callbacks.onWsPeerClosed fun cb =>
            .onWsPeerClosed cb closeCode extraData))
          fun _ => wp closeWatch.interference.spec (closeWatch.observer.observe (pure false))
            fun _ s' => closeWatch.At s₀ s') s₁ := by
    intro s₁ closeCode extraData h₁
    simp only [observe_getClient]
    exact streaming.callBack h₁ (fun _ => rfl) (fun _ => streaming.ordinary _ rfl) fun _ h' => h'
  simp only [Keeps, receiveCloseFrame, encoderResources, wp_observe_bind, wp_observe_ite,
    observe_getClient]
  split
  · apply wp_mono _ (streaming.indicateWsError h _)
    intro _ s' h'
    exact h'
  rename_i hfinal
  have hcurrent := hcurrent (by simpa using hfinal)
  split
  · apply wp_mono _ (closeUnderlyingIo_keeps h hcurrent _)
    intro _ s' h'
    exact h'
  split
  · simp only [observe_setUwsState]
    apply xioClose_meets (at_closing h hcurrent _)
    intro r s₁ hmay h₁
    split
    · rename_i hr
      have hmay : (r == 0 || current s₁) = true := hmay
      simp only [wp_observe_bind]
      apply wp_mono _ (indicateWsCloseComplete_keeps h₁ (by simpa [hr] using hmay) hclears)
      intro _ s₂ h₂
      simp only [observe_setUwsState]
      exact streaming.atState h₂ rfl
    · exact h₁
  · have hsending := at_closing h hcurrent .uwsStateClosingSendingClose
    simp only [observe_setUwsState]
    apply observe_askLocal rfl hsending.inv
    intro res _
    split
    · simp only [wp_observe_bind]
      apply wp_mono _ (closeUnderlyingIo_keeps hsending hcurrent _)
      intro _ s₂ h₂
      exact hpeer s₂ _ _ h₂
    · rename_i frame _
      have hcalling := streaming.atCalling hsending
        (streaming.ordinary (.xioSend .closeResponse frame) rfl)
      simp only [xioSend, wp_observe_bind]
      apply observe_callOut rfl hcalling.inv
      intro r s₂ hmay hinv hrely
      have h₂ := streaming.relied s₀ _ s₂ hcalling hinv hrely
      split
      · rename_i hr
        have hmay : (r == 0 || current s₂) = true := hmay
        simp only [wp_observe_bind]
        apply wp_mono _ (closeUnderlyingIo_keeps h₂ (by simpa [hr] using hmay) _)
        intro _ s₃ h₃
        exact hpeer s₃ _ _ h₃
      · simp only [wp_observe_bind]
        exact hpeer s₂ _ _ h₂

theorem indicateWsErrorAndClose_meets (h : closeWatch.At s₀ s) (hmasked : s₀.notes.inMasked = true)
    (hcurrent : currentForClose s = true) (error : WsError) (closeErrorCode : Nat) :
    wp closeWatch.interference.spec
      (closeWatch.observer.observe (indicateWsErrorAndClose error closeErrorCode))
      (fun _ s' => closeWatch.At s₀ s' ∧ currentForClose s' = true) s := by
  have hstill : ∀ s₁, closeWatch.At s₀ s₁ → (!s₁.notes.inMasked || currentForClose s₁) = true →
      currentForClose s₁ = true := by
    intro s₁ h₁ hmay
    have hin : s₁.notes.inMasked = true := by
      rw [CloseNotes.inMasked, h₁.within.1]
      exact hmasked
    simpa [hin] using hmay
  have herror := streaming.atState h streaming.error
  -- The user is told of it when the close frame has been sent.
  have htold : ∀ s₁, closeWatch.At s₀ s₁ → currentForClose s₁ = true →
      wp closeWatch.interference.spec (closeWatch.observer.observe getClient)
        (fun c => wp closeWatch.interference.spec
          (closeWatch.observer.observe (callBack c.callbacks.onWsError fun cb =>
            .onWsError cb error))
          fun _ s' => closeWatch.At s₀ s' ∧ currentForClose s' = true) s₁ := by
    intro s₁ h₁ hcurrent₁
    simp only [observe_getClient]
    cases s₁.state.client.callbacks.onWsError with
    | none =>
      simp only [callBack, observe_fault]
      exact ⟨streaming.atAlike h₁ (s₁.state.alike_record _ (by rintro ⟨⟩)), hcurrent₁⟩
    | some cb =>
      have hcalling := streaming.atCalling h₁ (streaming.ordinary (.onWsError cb error) rfl)
      simp only [callBack, wp_observe_bind]
      apply observe_callOut rfl hcalling.inv
      intro r s₂ hmay hinv hrely
      have h₂ := streaming.relied s₀ _ s₂ hcalling hinv hrely
      exact ⟨h₂, hstill s₂ h₂ hmay⟩
  simp only [indicateWsErrorAndClose, sendCloseFrame, encoderResources, wp_observe_bind,
    observe_setUwsState]
  apply observe_askLocal rfl herror.inv
  intro res _
  split
  · exact htold _ herror hcurrent
  · rename_i frame _
    have hcalling := streaming.atCalling herror
      (streaming.ordinary (.xioSend .closeFrame frame) rfl)
    simp only [xioSend, wp_observe_bind]
    apply observe_callOut rfl hcalling.inv
    intro r s₁ hmay hinv hrely
    have h₁ := streaming.relied s₀ _ s₁ hcalling hinv hrely
    exact htold s₁ h₁ (hstill s₁ h₁ hmay)

theorem decodeFrame_keeps (h : closeWatch.At s₀ s) (hclears : s₀.notes.clearsForReport = true)
    (hmasked : s.state.client.streamBuffer.length ≥ 2 →
      s.state.client.streamBuffer.getD 1 0 &&& 0x80 ≠ 0 → s₀.notes.inMasked = true)
    (hcurrent : currentForClose s = true) : closeWatch.Keeps s₀ decodeFrame s := by
  have hread : ∀ s₁ : NotedUws, closeWatch.At s₀ s₁ → currentForClose s₁ = true →
      closeWatch.Keeps s₀ readFrame s₁ := by
    intro s₁ h₁ hcurrent₁
    simp only [Keeps, readFrame, wp_observe_bind, wp_observe_ite, observe_getClient]
    split
    · apply wp_mono _ (streaming.indicateWsError h₁ _)
      intro _ s' h'
      exact h'
    rename_i herror
    split
    · rename_i hcomplete
      have hclose : s₁.state.client.streamBuffer.getD 0 0 &&& 0xF = wsCloseFrame →
          (s₁.state.client.streamBuffer.getD 0 0 &&& 0x80 != 0) = true → current s₁ = true := by
        intro hopcode hfinal
        have hstarts : startsWithClose s₁.state.client.streamBuffer = true := by
          have hcomplete : (decodeFrameLength s₁.state.client.streamBuffer).neededBytes ≤
            s₁.state.client.streamBuffer.length := hcomplete
          simp only [startsWithClose, Bool.and_eq_true, Bool.not_eq_true', decide_eq_true_eq,
            beq_iff_eq]
          exact ⟨⟨⟨by simpa using herror, hcomplete⟩, hopcode⟩, hfinal⟩
        rw [currentForClose, hstarts] at hcurrent₁
        simpa using hcurrent₁
      apply wp_mono _ (streaming.receiveFrame h₁ _ _ _ fun hopcode =>
        receiveCloseFrame_keeps h₁ _ _ (hclose hopcode) hclears)
      intro _ s₂ h₂
      simp only [observe_consumeStreamBufferBytes]
      exact streaming.consumed s₀ s₂ _ h₂
    · exact h₁
  simp only [Keeps, decodeFrame_eq, wp_observe_bind, wp_observe_ite, observe_getClient]
  split
  · rename_i hlength
    split
    · rename_i hbit
      apply wp_mono _ (indicateWsErrorAndClose_meets h (hmasked hlength hbit) hcurrent _ _)
      rintro _ s₁ ⟨h₁, hcurrent₁⟩
      exact hread s₁ h₁ hcurrent₁
    · exact hread s h hcurrent
  · exact h

end

/-! ## Start and end of a function -/

section

variable {s s' : NotedUws} {p : Proc}

theorem Kept.push (h : Kept s) (a : Activity) (ha : a.reports = true → ReadyToReport s) :
    Kept (s.setNotes (s.notes.push a)) := by
  refine { h with reporting := ?_ }
  intro hreporting
  have hreporting : (a.reports || s.notes.active.any (·.reports)) = true := hreporting
  rcases Bool.or_eq_true_iff.1 hreporting with hthis | hothers
  · exact ha hthis
  · exact h.reporting hothers

theorem Kept.pop (h : Kept s) : Kept (s.setNotes s.notes.pop) := by
  refine { h with reporting := ?_ }
  intro hreporting
  rcases List.any_eq_true.1 hreporting with ⟨a, ha, hreports⟩
  exact h.reporting (List.any_eq_true.2 ⟨a, List.mem_of_mem_tail ha, hreports⟩)

theorem Kept.close (h : Kept s) (hidle : s.notes.reporting = false) (cb : Option Callback)
    (st : UwsState) :
    Kept ((s.setNotes ((s.notes.close s.state.currentOpen cb).push { proc := p })).setState
      ((s.state.setClient { s.state.client with onWsCloseComplete := cb }).setState st)) := by
  refine ⟨?_, ?_, ?_, ?_⟩
  · intro x
    show s.notes.reports.count x ≤
      (s.notes.closes ++ cb.toList.map fun cb => CloseCallback.mk s.state.currentOpen cb).count x
    rw [List.count_append]
    exact Nat.le_add_right_of_le (h.matched x)
  · intro _ cb' hcb'
    have hcb' : cb = some cb' := hcb'
    subst hcb'
    show s.notes.reports.count ⟨s.state.currentOpen, cb'⟩ <
      (s.notes.closes ++ [CloseCallback.mk s.state.currentOpen cb']).count ⟨s.state.currentOpen, cb'⟩
    rw [List.count_append, List.count_singleton_self]
    exact Nat.lt_succ_of_le (h.matched _)
  · intro _
    exact Bool.or_true _
  · intro hreporting
    have hreporting : (false || s.notes.active.any (·.reports)) = true := hreporting
    rw [CloseNotes.reporting] at hidle
    rw [hidle] at hreporting
    cases hreporting

theorem Kept.emptySlot (h : Kept s) (hidle : s.notes.reporting = false) (st : UwsState) :
    Kept (s.setState
      ((s.state.setClient { s.state.client with onWsCloseComplete := none }).setState st)) := by
  refine ⟨h.matched, fun _ _ => nofun, fun _ => rfl, ?_⟩
  intro hreporting
  have hreporting : s.notes.reporting = true := hreporting
  rw [hidle] at hreporting
  cases hreporting

theorem beginProc_active (p : Proc) (s : NotedUws) :
    ∃ a : Activity, a.proc = p ∧ (closeWatch.beginProc p s).notes.active = a :: s.notes.active := by
  cases p with
  | uwsClientCloseAsync cb =>
    show ∃ a : Activity, _ ∧ ((if s.state.client.uwsState = .uwsStateClosed then s.notes
      else s.notes.close s.state.currentOpen cb).push _).active = _
    split
    · exact ⟨_, rfl, rfl⟩
    · exact ⟨_, rfl, rfl⟩
  | uwsClientCloseHandshakeAsync closeCode cb =>
    show ∃ a : Activity, _ ∧ ((if s.state.client.uwsState.refusesHandshake then s.notes
      else s.notes.close s.state.currentOpen cb).push _).active = _
    split
    · exact ⟨_, rfl, rfl⟩
    · exact ⟨_, rfl, rfl⟩
  | _ => exact ⟨_, rfl, rfl⟩

theorem beginProc_clears (hp : p ≠ .clearPendingSends ∧ p ≠ .uwsClientDestroy) :
    (closeWatch.beginProc p s).notes.clearsForReport = true := by
  rcases beginProc_active p s with ⟨a, ha, hactive⟩
  simp only [CloseNotes.clearsForReport, hactive, ha]
  cases p with
  | clearPendingSends => exact absurd rfl hp.1
  | uwsClientDestroy => exact absurd rfl hp.2
  | _ => rfl

theorem kept_pop (h : Kept s') (hactive : s'.notes.active = (closeWatch.beginProc p s).notes.active) :
    Kept (s'.setNotes s'.notes.pop) ∧ s'.notes.pop.active = s.notes.active := by
  refine ⟨h.pop, ?_⟩
  rcases beginProc_active p s with ⟨a, -, hbegun⟩
  show s'.notes.active.tail = s.notes.active
  rw [hactive, hbegun, List.tail_cons]

end

/-! ## The functions of the user -/

section

variable {s s₀ : NotedUws}

theorem uwsClientCloseAsync_meets (cb : Option Callback)
    (hrefused : s.state.client.uwsState = .uwsStateClosed → closeWatch.At s₀ s)
    (hcloses : s.state.client.uwsState ≠ .uwsStateClosed → closeWatch.At s₀ (s.setState
      ((s.state.setClient { s.state.client with onWsCloseComplete := cb }).setState
        .uwsStateClosingUnderlyingIo))) :
    closeWatch.Keeps s₀ (uwsClientCloseAsync cb) s := by
  simp only [Keeps, uwsClientCloseAsync, wp_observe_bind, wp_observe_ite, observe_getClient]
  split
  · rename_i hstate
    exact hrefused hstate
  · rename_i hstate
    simp only [observe_modifyClient, observe_setUwsState]
    apply xioClose_meets (hcloses hstate)
    intro r s₁ _ h₁
    split
    · simp only [wp_observe_bind]
      apply wp_mono _ (streaming.indicateWsError h₁ _)
      intro _ s' h'
      exact h'
    · exact h₁

theorem uwsClientCloseHandshakeAsync_meets (closeCode : UInt16) (cb : Option Callback)
    (hrefused : s.state.client.uwsState.refusesHandshake = true → closeWatch.At s₀ s)
    (hcloses : s.state.client.uwsState.refusesHandshake = false → closeWatch.At s₀ (s.setState
      ((s.state.setClient { s.state.client with onWsCloseComplete := cb }).setState
        .uwsStateClosingWaitingForClose))) :
    closeWatch.Keeps s₀ (uwsClientCloseHandshakeAsync closeCode cb) s := by
  simp only [Keeps, uwsClientCloseHandshakeAsync, wp_observe_bind, observe_getClient]
  split
  · rename_i hstate
    exact hrefused (by rw [hstate]; rfl)
  · rename_i hstate
    exact hrefused (by rw [hstate]; rfl)
  · rename_i hstate
    exact hrefused (by rw [hstate]; rfl)
  · rename_i hstate
    exact hrefused (by rw [hstate]; rfl)
  · rename_i hclosed hwaiting hsending hclosing
    have hrefuses := refusesHandshake_eq_false hclosed hwaiting hsending hclosing
    simp only [wp_observe_bind, observe_modifyClient, observe_setUwsState]
    apply wp_mono _ (streaming.sendCloseFrame (hcloses hrefuses) _)
    intro _ s' h'
    exact h'

theorem openAsyncProc_keeps (h : closeWatch.At s₀ s) (callbacks : OpenCallbacks) :
    closeWatch.Keeps s₀ (openAsyncProc callbacks) s := by
  apply streaming.openAsyncProc h callbacks
  intro _
  apply observe_callOut rfl
  case hinv =>
    refine ⟨h.inv.matched, by rintro ⟨⟩, by rintro ⟨⟩, ?_⟩
    intro hreporting
    have hreporting : s.notes.reporting = true := hreporting
    rw [idle h] at hreporting
    cases hreporting
  case hQ =>
    intro r s₁ _ hinv hactive
    exact ⟨hinv, Eq.trans hactive h.within.1, h.within.2⟩

theorem openAsyncProc_refused (h : reportWatch.At s₀ s) {callbacks : OpenCallbacks}
    (hrefused : s.state.startsOpen callbacks = false) :
    reportWatch.Keeps s₀ (openAsyncProc callbacks) s :=
  steady.openAsyncProc h callbacks fun hstarts => Bool.noConfusion (hrefused.symm.trans hstarts)

end

/-! ## Every run -/

section

variable {s : NotedUws} {p : Proc}

theorem decodeStream_meets (hkept : Kept s) (hidle : s.notes.reporting = false)
    (hrun : closeReportsRun.mayRun .decodeStream s = true) :
    wp closeWatch.interference.spec (closeWatch.observer.code uwsCode .decodeStream)
      (fun _ s' => closeWatch.decoded s s') s := by
  have hbegun : closeWatch.At (closeWatch.beginProc .decodeStream s)
      (closeWatch.beginProc .decodeStream s) :=
    ⟨hkept.push _ nofun, rfl, hidle⟩
  rw [wp_code]
  apply wp_mono _ (streaming.decodeStream hbegun ?_)
  · intro r s' hs'
    exact kept_pop hs'.inv hs'.within.1
  · intro hstate
    apply decodeFrame_keeps hbegun (beginProc_clears ⟨nofun, nofun⟩)
    · intro hlength hbit
      show (s.state.client.uwsState.decodesFrames && startsMasked s.state.client.streamBuffer) = true
      have hstate : s.state.client.uwsState.decodesFrames = true := hstate
      rw [hstate, Bool.true_and, startsMasked, Bool.and_eq_true]
      exact ⟨decide_eq_true hlength, bne_iff_ne.2 hbit⟩
    · show currentForClose s = true
      have hstate : s.state.client.uwsState.decodesFrames = true := hstate
      have hrun : (s.state.client.uwsState != .uwsStateOpen || currentForClose s) = true := hrun
      cases huws : s.state.client.uwsState with
      | uwsStateOpen =>
        rw [huws] at hrun
        exact hrun
      | uwsStateClosingWaitingForClose =>
        rw [currentForClose, hkept.closing (by rw [huws]; rfl), Bool.or_true]
      | _ =>
        rw [huws] at hstate
        cases hstate

theorem procs_idle (hdecode : p ≠ .decodeStream) (hclear : p ≠ .clearPendingSends) (hkept : Kept s)
    (hidle : s.notes.reporting = false) :
    closeWatch.Keeps (closeWatch.beginProc p s) (uwsCode p) (closeWatch.beginProc p s) := by
  have hpush : closeWatch.At (s.setNotes (s.notes.push { proc := p }))
      (s.setNotes (s.notes.push { proc := p })) :=
    ⟨hkept.push _ nofun, rfl, hidle⟩
  have hclears := @beginProc_clears s p
  cases p with
  | decodeStream => exact absurd rfl hdecode
  | clearPendingSends => exact absurd rfl hclear
  | uwsClientOpenAsync callbacks => exact openAsyncProc_keeps hpush callbacks
  | uwsClientCloseAsync cb =>
    by_cases hstate : s.state.client.uwsState = .uwsStateClosed
    · have hbegun : closeWatch.beginProc (.uwsClientCloseAsync cb) s =
          s.setNotes (s.notes.push { proc := .uwsClientCloseAsync cb }) := by
        show s.setNotes ((if _ then _ else _ : CloseNotes).push _) = _
        rw [if_pos hstate]
      rw [hbegun]
      exact uwsClientCloseAsync_meets cb (fun _ => hpush) fun hne => absurd hstate hne
    · have hbegun : closeWatch.beginProc (.uwsClientCloseAsync cb) s =
          s.setNotes ((s.notes.close s.state.currentOpen cb).push
            { proc := .uwsClientCloseAsync cb }) := by
        show s.setNotes ((if _ then _ else _ : CloseNotes).push _) = _
        rw [if_neg hstate]
      rw [hbegun]
      apply uwsClientCloseAsync_meets cb
      · intro hclosed
        exact absurd hclosed hstate
      · intro _
        exact ⟨hkept.close hidle cb _, rfl, hidle⟩
  | uwsClientCloseHandshakeAsync closeCode cb =>
    by_cases hstate : s.state.client.uwsState.refusesHandshake = true
    · have hbegun : closeWatch.beginProc (.uwsClientCloseHandshakeAsync closeCode cb) s =
          s.setNotes (s.notes.push { proc := .uwsClientCloseHandshakeAsync closeCode cb }) := by
        show s.setNotes ((if _ then _ else _ : CloseNotes).push _) = _
        rw [if_pos hstate]
      rw [hbegun]
      apply uwsClientCloseHandshakeAsync_meets closeCode cb fun _ => hpush
      intro hrefuses
      have hrefuses : s.state.client.uwsState.refusesHandshake = false := hrefuses
      rw [hstate] at hrefuses
      cases hrefuses
    · have hbegun : closeWatch.beginProc (.uwsClientCloseHandshakeAsync closeCode cb) s =
          s.setNotes ((s.notes.close s.state.currentOpen cb).push
            { proc := .uwsClientCloseHandshakeAsync closeCode cb }) := by
        show s.setNotes ((if _ then _ else _ : CloseNotes).push _) = _
        rw [if_neg hstate]
      rw [hbegun]
      apply uwsClientCloseHandshakeAsync_meets closeCode cb
      · intro hrefuses
        exact absurd hrefuses hstate
      · intro _
        exact ⟨hkept.close hidle cb _, rfl, hidle⟩
  | uwsClientSendFrameAsync frameType buffer size isFinal cb =>
    exact streaming.sendFrameAsyncProc hpush frameType buffer size isFinal cb
  | uwsClientDowork => exact keeps_void (streaming.uwsClientDowork hpush)
  | uwsClientDestroy =>
    apply keeps_void
    apply streaming.uwsClientDestroy hpush
    · intro s₁ h₁ hreports
      rw [clearsForReport_of_active h₁.within.1] at hreports
      cases hreports
    · intro hfreed hstate
      apply uwsClientCloseAsync_meets none
      · intro hclosed
        exact absurd hclosed hstate
      · intro _
        exact ⟨hfreed.inv.emptySlot hidle _, rfl, hidle⟩
  | onUnderlyingIoOpenComplete result code =>
    exact keeps_void (streaming.onUnderlyingIoOpenComplete hpush result code)
  | onUnderlyingIoBytesReceived buffer =>
    exact keeps_void (streaming.onUnderlyingIoBytesReceived hpush buffer)
  | onUnderlyingIoError =>
    exact keeps_void (onUnderlyingIoError_keeps hpush (hclears ⟨nofun, nofun⟩))
  | onUnderlyingIoCloseComplete =>
    exact keeps_void (onUnderlyingIoCloseComplete_keeps hpush (hclears ⟨nofun, nofun⟩))
  | onUnderlyingIoCloseSent result =>
    exact keeps_void (onUnderlyingIoCloseSent_keeps hpush (hclears ⟨nofun, nofun⟩) result)
  | onUnderlyingIoSendComplete item result =>
    exact keeps_void (streaming.onUnderlyingIoSendComplete hpush item result)

/-- A function of the client while a close is about to be reported: it finds the client closed. -/
theorem procs_reporting (hdecode : p ≠ .decodeStream) (hclear : p ≠ .clearPendingSends)
    (hkept : Kept s) (hentry : closeWatch.entry p s) (hreporting : s.notes.reporting = true) :
    reportWatch.Keeps (closeWatch.beginProc p s) (uwsCode p) (closeWatch.beginProc p s) := by
  have hclosed := (hkept.reporting hreporting).1
  have hpush : reportWatch.At (s.setNotes (s.notes.push { proc := p }))
      (s.setNotes (s.notes.push { proc := p })) :=
    ⟨hkept.push _ (by rintro ⟨⟩), rfl⟩
  cases p with
  | decodeStream => exact absurd rfl hdecode
  | clearPendingSends => exact absurd rfl hclear
  | uwsClientOpenAsync callbacks =>
    have hrefused : s.state.startsOpen callbacks = false := by
      cases hstarts : s.state.startsOpen callbacks with
      | false => rfl
      | true =>
        have hidle := hentry hstarts
        rw [hreporting] at hidle
        cases hidle
    exact openAsyncProc_refused hpush hrefused
  | uwsClientCloseAsync cb =>
    have hbegun : closeWatch.beginProc (.uwsClientCloseAsync cb) s =
        s.setNotes (s.notes.push { proc := .uwsClientCloseAsync cb }) := by
      show s.setNotes ((if _ then _ else _ : CloseNotes).push _) = _
      rw [if_pos hclosed]
    rw [hbegun]
    simp only [uwsCode, Keeps, uwsClientCloseAsync, wp_observe_bind, observe_getClient,
      setNotes_state, hclosed, if_true]
    exact hpush
  | uwsClientCloseHandshakeAsync closeCode cb =>
    have hbegun : closeWatch.beginProc (.uwsClientCloseHandshakeAsync closeCode cb) s =
        s.setNotes (s.notes.push { proc := .uwsClientCloseHandshakeAsync closeCode cb }) := by
      show s.setNotes ((if _ then _ else _ : CloseNotes).push _) = _
      rw [if_pos (by rw [hclosed]; rfl)]
    rw [hbegun]
    simp only [uwsCode, Keeps, uwsClientCloseHandshakeAsync, wp_observe_bind, observe_getClient,
      setNotes_state, hclosed]
    exact hpush
  | uwsClientSendFrameAsync frameType buffer size isFinal cb =>
    exact steady.sendFrameAsyncProc hpush frameType buffer size isFinal cb
  | uwsClientDowork => exact keeps_void (steady.uwsClientDowork hpush)
  | uwsClientDestroy =>
    apply keeps_void
    apply steady.uwsClientDestroy hpush
    · intro s₁ h₁ hreports
      have hactive : s₁.notes.active =
        (s.setNotes (s.notes.push { proc := .uwsClientDestroy })).notes.active := h₁.within
      rw [clearsForReport_of_active hactive] at hreports
      cases hreports
    · intro _ hstate
      exact absurd hclosed hstate
  | onUnderlyingIoOpenComplete result code =>
    apply keeps_void
    show reportWatch.Keeps (s.setNotes (s.notes.push _)) _ (s.setNotes (s.notes.push _))
    simp only [Keeps, onUnderlyingIoOpenComplete, wp_observe_bind, observe_getClient,
      setNotes_state, hclosed]
    exact steady.indicateWsOpenCompleteErrorAndClose hpush _
  | onUnderlyingIoBytesReceived buffer =>
    apply keeps_void
    rcases buffer with _ | (_ | ⟨b, bs⟩)
    · exact steady.indicateWsOpenCompleteErrorAndClose hpush _
    · exact steady.indicateWsOpenCompleteErrorAndClose hpush _
    · show reportWatch.Keeps (s.setNotes (s.notes.push _)) (receiveBytes (b :: bs))
        (s.setNotes (s.notes.push _))
      simp only [Keeps, receiveBytes, wp_observe_bind, observe_getClient, setNotes_state, hclosed]
      exact hpush
  | onUnderlyingIoError =>
    apply keeps_void
    show reportWatch.Keeps (s.setNotes (s.notes.push _)) _ (s.setNotes (s.notes.push _))
    simp only [Keeps, onUnderlyingIoError, wp_observe_bind, observe_getClient, setNotes_state,
      hclosed]
    exact hpush
  | onUnderlyingIoCloseComplete =>
    apply keeps_void
    show reportWatch.Keeps (s.setNotes (s.notes.push _)) _ (s.setNotes (s.notes.push _))
    simp only [Keeps, onUnderlyingIoCloseComplete, wp_observe_bind, observe_getClient,
      setNotes_state, hclosed, reduceCtorEq, if_false]
    exact hpush
  | onUnderlyingIoCloseSent result =>
    have hsent : reportWatch.Keeps
        (s.setNotes (s.notes.push { proc := .onUnderlyingIoCloseSent result })) (do
          let c ← getClient
          if c.uwsState = .uwsStateClosingSendingClose then do
            setUwsState .uwsStateClosingUnderlyingIo
            let r ← xioClose .closeSent
            if r ≠ 0 then indicateWsCloseComplete else pure ()
          else pure () : UwsComp Unit)
        (s.setNotes (s.notes.push { proc := .onUnderlyingIoCloseSent result })) := by
      simp only [Keeps, wp_observe_bind, observe_getClient, setNotes_state, hclosed, reduceCtorEq,
        if_false]
      exact hpush
    apply keeps_void
    cases result with
    | ioSendError => exact hpush
    | ioSendOk => exact hsent
    | ioSendCancelled => exact hsent
  | onUnderlyingIoSendComplete item result =>
    exact keeps_void (steady.onUnderlyingIoSendComplete hpush item result)

theorem clearPendingSends_meets (hkept : Kept s) (hentry : closeWatch.entry .clearPendingSends s) :
    wp closeWatch.interference.spec (closeWatch.observer.code uwsCode .clearPendingSends)
      (fun _ s' => Kept s' ∧ closeWatch.rely s s' ∧ closeWatch.effect .clearPendingSends s s') s := by
  have hbegun : reportWatch.At (closeWatch.beginProc .clearPendingSends s)
      (closeWatch.beginProc .clearPendingSends s) :=
    ⟨hkept.push _ hentry, rfl⟩
  -- The activity of the loop that is called next is the one of this loop.
  have hready : ∀ s₁, reportWatch.At (closeWatch.beginProc .clearPendingSends s) s₁ →
      s.notes.clearsForReport = true → ReadyToReport s₁ := by
    intro s₁ h₁ hclears
    apply h₁.inv.reporting
    have hactive : s₁.notes.active = (closeWatch.beginProc .clearPendingSends s).notes.active :=
      h₁.within
    rw [reporting_of_active hactive]
    show (s.notes.clearsForReport || s.notes.active.any (·.reports)) = true
    rw [hclears, Bool.true_or]
  rw [wp_code]
  apply wp_mono _ (steady.clearPendingSends hbegun ?_)
  · intro r s' hs'
    have hpop := kept_pop hs'.inv hs'.within
    exact ⟨hpop.1, hpop.2, fun hclears => hready s' hs' hclears⟩
  · intro s₁ h₁ hclears
    have hactive : s₁.notes.active = (closeWatch.beginProc .clearPendingSends s).notes.active :=
      h₁.within
    rw [clearsForReport_of_active hactive] at hclears
    exact hready s₁ h₁ hclears

end

theorem closeWatch_obligations : closeWatch.Obligations where
  anyRun _ _ _ hmay := (Bool.and_eq_true_iff.1 hmay).1
  refl _ := rfl
  trans _ _ _ h h' := Eq.trans h' h
  entry top p s _ hmay := by
    have hany := (Bool.and_eq_true_iff.1 hmay).1
    have hcond := (Bool.and_eq_true_iff.1 hmay).2
    cases p with
    | clearPendingSends =>
      rcases reentrantRun_enters hany with hp | hp
      · cases hp
      · cases hp
    | uwsClientOpenAsync callbacks =>
      intro hstarts
      simpa [hstarts] using hcond
    | _ => trivial
  loop _ hdecodes hrun := decodeStream_meets hdecodes.1 hdecodes.2 hrun
  procs p s hdecode hkept hentry := by
    by_cases hclear : p = .clearPendingSends
    · subst hclear
      exact clearPendingSends_meets hkept hentry
    have heffect : ∀ s', closeWatch.effect p s s' := by
      intro s'
      cases p with
      | clearPendingSends => exact absurd rfl hclear
      | _ => trivial
    rw [wp_code]
    cases hreporting : s.notes.reporting with
    | false =>
      apply wp_mono _ (procs_idle hdecode hclear hkept hreporting)
      intro r s' hs'
      have hpop := kept_pop hs'.inv hs'.within.1
      exact ⟨hpop.1, hpop.2, heffect _⟩
    | true =>
      apply wp_mono _ (procs_reporting hdecode hclear hkept hentry hreporting)
      intro r s' hs'
      have hpop := kept_pop hs'.inv hs'.within
      exact ⟨hpop.1, hpop.2, heffect _⟩

structure Created (s : NotedUws) : Prop where
  uwsState : s.state.client.uwsState = .uwsStateClosed
  notes : s.notes = {}

theorem Created.kept {s : NotedUws} (h : Created s) : Kept s where
  matched := by
    intro x
    simp [h.notes]
  fresh := by
    rw [h.notes]
    exact nofun
  closing := by
    rw [h.uwsState]
    exact nofun
  reporting := by
    rw [h.notes]
    exact nofun

/-- In a run that meets the condition, the callbacks that are called were given to close calls on the
same connection, and to as many of them. -/
theorem matched_of_run {s₀ s : NotedUws} {st : List (Frame NotedUws uwsSignature)}
    (h₀ : Created s₀) (h : Reachable notedCode closeReportsRun s₀ (.env s st)) : Matched s :=
  (closeWatch_obligations.sound.reachable_inv h₀.kept h).matched

def createdNoted : NotedUws :=
  ⟨createdClient, {}⟩

/-- The client is opened and closed. -/
def openThenClose : List (Input uwsSignature) :=
  [.enter (.uwsClientOpenAsync someCallbacks), .answer succeeds,
    .enter (.uwsClientCloseAsync (some 4)), .answer succeeds,
    .enter .onUnderlyingIoCloseComplete, .answer succeeds]

theorem matched_openThenCloseTwice :
    ∃ s st, Reachable notedCode closeReportsRun createdNoted (.env s st) ∧
      s.notes.reports = [⟨1, 4⟩, ⟨2, 4⟩] ∧ Matched s := by
  have hrun : closeReportsRun.endsIn notedCode 40 createdNoted (openThenClose ++ openThenClose)
      (fun s _ => decide (s.notes.reports = [⟨1, 4⟩, ⟨2, 4⟩])) = true := by
    decide +kernel
  rcases Env.endsIn_sound hrun with ⟨s, st, hreach, htest⟩
  exact ⟨s, st, hreach, of_decide_eq_true htest, matched_of_run ⟨rfl, rfl⟩ hreach⟩

/-- `HTTP/1.1 101` and an empty line, with a close frame behind. -/
def upgradeAndClose : Bytes :=
  [0x48, 0x54, 0x54, 0x50, 0x2F, 0x31, 0x2E, 0x31, 0x20, 0x31, 0x30, 0x31, 0x0D, 0x0A, 0x0D, 0x0A,
    0x88, 0x00]

/-- Behind that, the client is opened once more, and the peer closes. -/
def closeThenPeerClose : List (Input uwsSignature) :=
  openThenClose ++
    [.enter (.uwsClientOpenAsync someCallbacks), .answer succeeds,
      .enter (.onUnderlyingIoOpenComplete .ioOpenOk 0), .answer succeeds, .answer succeeds,
      .answer succeeds, .answer succeeds, .answer succeeds,
      .enter (.onUnderlyingIoBytesReceived (some upgradeAndClose)), .answer succeeds,
      .answer succeeds, .answer succeeds, .answer succeeds, .answer succeeds, .answer succeeds,
      .enter (.onUnderlyingIoCloseSent .ioSendOk), .answer succeeds,
      .enter .onUnderlyingIoCloseComplete]

/-- The callback of the first connection is called for the second one, which the client has not
closed. -/
theorem closeThenPeerClose_reports :
    ¬ ∀ (s₀ s : NotedUws) (st : List (Frame NotedUws uwsSignature)),
        Created s₀ → Reachable notedCode anyNotedRun s₀ (.env s st) → Matched s := by
  intro h
  have hrun : anyNotedRun.endsIn notedCode 60 createdNoted closeThenPeerClose
      (fun s _ => decide (s.notes.reports = [⟨1, 4⟩, ⟨2, 4⟩]) &&
        decide (s.notes.closes = [⟨1, 4⟩])) = true := by
    decide +kernel
  rcases Env.endsIn_sound hrun with ⟨s, st, hreach, htest⟩
  simp only [Bool.and_eq_true, decide_eq_true_eq] at htest
  have hmatched := h _ s st ⟨rfl, rfl⟩ hreach ⟨2, 4⟩
  rw [htest.1, htest.2] at hmatched
  exact absurd hmatched (by decide)

end CloseReports
end SharedUtility.UwsClient
