import SharedUtility.Reentrant.Interference
import SharedUtility.Reentrant.Observer
import SharedUtility.Wsio.Code

/-!
# OpenDiscipline — opens of a wsio that are completed once, and the state after each call

`reentrantRun` lets the websocket client make any of its callbacks, between calls as well as before one
of its own functions returns, and lets a callback of the user call any function of the interface.

* Every `wsio_open` is completed at most once, and has been when a function returns that has reported its
  outcome or has closed the io.
* Every function leaves the state that the latest event implies: an open that starts or is completed, a
  close that starts or is over, an error that is reported.

Some functions call the user before they set the state; the condition says what may not happen there.
-/

namespace SharedUtility.Wsio
namespace OpenDiscipline

open Reentrant Observed Observer
open UwsClient (Callback Fault WsOpenResultDetailed WsSendFrameResult wsFrameTypeBinary)

def reentrantRun : Env WsIo wsioSignature where
  mayEnter top p s :=
    !s.destroyed &&
    (match top with
      | none => p.isApi || p.isWsEvent
      | some c => (c.isUws && p.isWsEvent) || (c.isCallback && p.isApi))
  mayAnswer _ _ _ := true

def live : IoState → Bool
  | .ioStateOpening | .ioStateOpen => true
  | _ => false

/-! ## What is noted -/

/-- The functions by which an outcome is reported or the io is closed. -/
def endsOpen : Proc → Bool
  | .onUnderlyingWsOpenComplete _ | .onUnderlyingWsPeerClosed | .onUnderlyingWsError
  | .onUnderlyingWsCloseComplete | .internalClose _ => true
  | _ => false

/-- A function under way.  `openId` is the open it has started, `ends` the open that was under way when
it was entered, if it is to end it; `closing` says that it leaves the io closed, and `failing` that it
calls `on_io_open_complete` in the state `IO_STATE_OPENING`. -/
structure Activity where
  proc : Proc
  openId : Option Nat := none
  ends : Option Nat := none
  closing : Bool := false
  failing : Bool := false
  deriving DecidableEq

/-- The state that a function has left, and the one that was implied by then. -/
structure Returned where
  implied : IoState
  left : IoState
  deriving DecidableEq

/-- `opens` counts the opens that were started; `completions` and `ended` are the opens completed, and
those whose outcome a function that has returned has reported or that it has closed. -/
structure OpenNotes where
  active : List Activity := []
  opens : Nat := 0
  implied : IoState := .ioStateNotOpen
  completions : List Nat := []
  ended : List Nat := []
  returns : List Returned := []
  deriving DecidableEq

/-- An error that is reported makes the state `IO_STATE_ERROR`: not one that `on_underlying_ws_error`
passes on, and where the io is not open only until `on_underlying_ws_peer_closed` returns. -/
def errorImplied (p : Proc) (implied : IoState) : IoState :=
  match p, implied with
  | .onUnderlyingWsError, implied => implied
  | .onUnderlyingWsPeerClosed, _ => .ioStateError
  | _, .ioStateNotOpen => .ioStateNotOpen
  | _, _ => .ioStateError

namespace Activity

def enter (p : Proc) (opens : Nat) (implied : IoState) : Activity where
  proc := p
  ends := if endsOpen p = true ∧ implied = .ioStateOpening then some opens else none
  closing := p == .onUnderlyingWsPeerClosed && implied == .ioStateNotOpen

def start (a : Activity) (openId : Nat) : Activity :=
  { a with openId := some openId }

def startClose (a : Activity) : Activity :=
  { a with closing := true }

/-- What is implied when the function returns: the io is closed, unless it has been opened since. -/
def settle (a : Activity) (implied : IoState) : IoState :=
  if a.closing && !live implied then .ioStateNotOpen else implied

end Activity

namespace OpenNotes

def failing (n : OpenNotes) : Bool :=
  n.active.any Activity.failing

/-- Change what is noted of the function under way. -/
def update (n : OpenNotes) (f : Activity → Activity) : OpenNotes :=
  { n with active := n.active.modifyHead f }

/-- The close that is reported as complete is not that of a later open. -/
def enter (n : OpenNotes) (p : Proc) : OpenNotes :=
  { n with
    active := Activity.enter p n.opens n.implied :: n.active
    implied :=
      if p == .onUnderlyingWsCloseComplete && !live n.implied then .ioStateNotOpen else n.implied }

def startOpen (n : OpenNotes) : OpenNotes :=
  { n.update fun a => a.start (n.opens + 1) with
    opens := n.opens + 1
    implied := .ioStateOpening }

def startClose (n : OpenNotes) : OpenNotes :=
  { n.update Activity.startClose with implied := .ioStateClosing }

def complete (n : OpenNotes) (result : IoOpenResult) : OpenNotes :=
  { n.update fun a => { a with failing := a.proc == .onUnderlyingWsError } with
    completions := n.completions ++ [n.opens]
    implied := if result = .ioOpenOk then .ioStateOpen else .ioStateNotOpen }

def reportError (n : OpenNotes) : OpenNotes :=
  match n.active.head? with
  | some a => { n with implied := errorImplied a.proc n.implied }
  | none => n

/-- Whether the open that is being started is the latest one. -/
def startsLatest (n : OpenNotes) : Bool :=
  n.active.head?.any fun a => a.openId == some n.opens

/-- `uws_client_open_async` returns. -/
def started (n : OpenNotes) (result : Int) : OpenNotes :=
  if result ≠ 0 ∧ n.startsLatest = true then { n with implied := .ioStateNotOpen } else n

def resume (n : OpenNotes) : OpenNotes :=
  n.update fun a => { a with failing := false }

def leave (n : OpenNotes) (left : IoState) : OpenNotes :=
  match n.active with
  | [] => n
  | a :: rest =>
    { n with
      active := rest
      implied := a.settle n.implied
      ended := n.ended ++ a.ends.toList
      returns := n.returns ++ [{ implied := a.settle n.implied, left := left }] }

/-- Whether the function under way leaves the io closed. -/
def closing (n : OpenNotes) : Bool :=
  n.active.head?.any Activity.closing

end OpenNotes

def openObserver : Observer WsIo wsioSignature OpenNotes where
  entered p _ n := n.enter p
  called c _ n :=
    match c with
    | .uwsClientOpenAsync => n.startOpen
    | .uwsClientCloseAsync => n.startClose
    | .onIoOpenComplete _ openResult => n.complete openResult.result
    | .onIoError _ => n.reportError
    | _ => n
  answered c r _ n :=
    match c, r with
    | .uwsClientOpenAsync, r => n.started r
    | .onIoOpenComplete _ _, _ => n.resume
    | _, _ => n
  returned _ _ s n := n.leave s.inst.ioState

abbrev NotedWsio := Observed WsIo OpenNotes

def notedCode (p : Proc) : Comp NotedWsio wsioSignature Int :=
  openObserver.code wsioCode p

/-! ## The property -/

structure Disciplined (s : NotedWsio) : Prop where
  once : ∀ k, s.notes.completions.count k ≤ 1
  ended : ∀ k ∈ s.notes.ended, k ∈ s.notes.completions
  kept : ∀ x ∈ s.notes.returns, x.left = x.implied

/-! ## Runs -/

def anyNotedRun : Env NotedWsio wsioSignature :=
  environment OpenNotes reentrantRun

/-- An open is not reported complete where none is under way, nor a close complete where an open is
live. -/
def reportable (p : Proc) (implied : IoState) : Bool :=
  match p with
  | .onUnderlyingWsOpenComplete _ => implied != .ioStateNotOpen
  | .onUnderlyingWsCloseComplete => !live implied
  | _ => true

/-- The condition.
* Nothing is called from the `on_io_open_complete` of `on_underlying_ws_error`.
* The websocket client reports only what is `reportable`.
* A function that sets `IO_STATE_NOT_OPEN` after a call of the user finds no open that is live. -/
def openRun : Env NotedWsio wsioSignature where
  mayEnter top p s :=
    anyNotedRun.mayEnter top p s && !s.notes.failing && reportable p s.notes.implied
  mayAnswer c r s :=
    match c, r with
    | .uwsClientOpenAsync, r =>
      r == 0 || s.notes.startsLatest || s.notes.implied == .ioStateNotOpen
    | .onIoError _, _ => !(s.notes.closing && live s.notes.implied)
    | _, _ => true
  mayRun p s :=
    match p with
    | .cancelPendingIos => !(s.state.inst.pendingIoList.isEmpty && live s.notes.implied)
    | _ => true

/-! ## The invariant -/

/-- What holds of the notes, and of the callbacks that are needed. -/
structure Recorded (s : NotedWsio) : Prop where
  once : ∀ k, s.notes.completions.count k ≤ 1
  started : ∀ k ∈ s.notes.completions, k ≤ s.notes.opens
  ended : ∀ k ∈ s.notes.ended, k ∈ s.notes.completions
  kept : ∀ x ∈ s.notes.returns, x.left = x.implied
  opening : s.notes.implied = .ioStateOpening → s.notes.opens ∉ s.notes.completions
  completer : s.notes.implied = .ioStateOpening → s.state.inst.onIoOpenComplete ≠ none
  reporter : s.notes.implied ≠ .ioStateNotOpen → s.state.inst.onIoError ≠ none

/-- The state is the implied one, but for a failing open that is being reported. -/
structure Kept (s : NotedWsio) : Prop extends Recorded s where
  agrees : s.notes.failing = false → s.state.inst.ioState = s.notes.implied
  failing : s.notes.failing = true → s.notes.implied = .ioStateNotOpen

structure Undisturbed (s s' : NotedWsio) : Prop where
  active : s'.notes.active = s.notes.active
  completions : s.notes.completions ⊆ s'.notes.completions

def openInterference : Interference NotedWsio wsioSignature where
  env := openRun
  reenters c := !c.isLocal
  inv := Kept
  rely := Undisturbed
  pre p s := Kept s ∧ s.notes.failing = false ∧
    (p = .onUnderlyingWsCloseComplete → live s.notes.implied = false) ∧
      ∀ r, p = .onUnderlyingWsOpenComplete r → s.notes.implied ≠ .ioStateNotOpen
  post p s s' := Kept s' ∧ Undisturbed s s' ∧
    (p = .cancelPendingIos → live s'.notes.implied = false)

/-- The part of the instance that matters. -/
structure Alike (t t' : WsIo) : Prop where
  ioState : t'.inst.ioState = t.inst.ioState
  onIoOpenComplete : t'.inst.onIoOpenComplete = t.inst.onIoOpenComplete
  onIoError : t'.inst.onIoError = t.inst.onIoError

/-- Where a function that was entered in `s₀` may be, with `a` noted of it. -/
structure Under (a : Activity) (s₀ s : NotedWsio) : Prop where
  inv : Kept s
  active : s.notes.active = a :: s₀.notes.active
  calm : s₀.notes.failing = false
  completions : s₀.notes.completions ⊆ s.notes.completions

section

variable {s s₀ s' : NotedWsio} {a : Activity}

theorem Recorded.setState (h : Recorded s) {t : WsIo}
    (hopen : t.inst.onIoOpenComplete = s.state.inst.onIoOpenComplete)
    (herror : t.inst.onIoError = s.state.inst.onIoError) : Recorded (s.setState t) :=
  { h with
    completer := by
      intro himplied
      rw [setState_state, hopen]
      exact h.completer himplied
    reporter := by
      intro himplied
      rw [setState_state, herror]
      exact h.reporter himplied }

theorem Recorded.close (h : Recorded s) :
    Recorded (s.setNotes { s.notes with implied := .ioStateNotOpen }) :=
  ⟨h.once, h.started, h.ended, h.kept, nofun, nofun, fun hopen => absurd rfl hopen⟩

theorem Under.setState (h : Under a s₀ s) {t : WsIo} (ht : Alike s.state t) :
    Under a s₀ (s.setState t) :=
  { h with
    inv :=
      { toRecorded := h.inv.toRecorded.setState ht.onIoOpenComplete ht.onIoError
        agrees := fun hcalm => ht.ioState.trans (h.inv.agrees hcalm)
        failing := h.inv.failing } }

theorem Under.setPending (h : Under a s₀ s) (pendingIoList : List PendingIo) :
    Under a s₀ (s.setState (s.state.setInst { s.state.inst with pendingIoList := pendingIoList })) :=
  h.setState ⟨rfl, rfl, rfl⟩

theorem Under.addFault (h : Under a s₀ s) (f : Fault) :
    Under a s₀ (s.setState (s.state.addFault f)) :=
  h.setState ⟨rfl, rfl, rfl⟩

theorem Under.relied (h : Under a s₀ s) (hinv : Kept s') (hrely : Undisturbed s s') :
    Under a s₀ s' where
  inv := hinv
  active := hrely.active.trans h.active
  calm := h.calm
  completions := fun _ hk => hrely.completions (h.completions hk)

theorem Under.not_failing (h : Under a s₀ s) (ha : a.failing = false) :
    s.notes.failing = false := by
  have hrest : s₀.notes.active.any Activity.failing = false := h.calm
  rw [OpenNotes.failing, h.active, List.any_cons, ha, hrest, Bool.or_false]

theorem Under.agrees (h : Under a s₀ s) (ha : a.failing = false) :
    s.state.inst.ioState = s.notes.implied :=
  h.inv.agrees (h.not_failing ha)

/-! ## Rules -/

@[simp] theorem observe_getInst {spec : Spec NotedWsio wsioSignature}
    (Q : WsioInstance → NotedWsio → Prop) :
    wp spec (openObserver.observe getInst) Q s ↔ Q s.state.inst s := by
  simp [getInst]

@[simp] theorem observe_modifyInst {spec : Spec NotedWsio wsioSignature}
    (f : WsioInstance → WsioInstance) (Q : Unit → NotedWsio → Prop) :
    wp spec (openObserver.observe (modifyInst f)) Q s ↔
      Q () (s.setState (s.state.setInst (f s.state.inst))) := by
  simp [modifyInst]

@[simp] theorem observe_setIoState {spec : Spec NotedWsio wsioSignature} (st : IoState)
    (Q : Unit → NotedWsio → Prop) :
    wp spec (openObserver.observe (setIoState st)) Q s ↔
      Q () (s.setState (s.state.setIoState st)) := by
  simp [setIoState]

@[simp] theorem observe_fault {spec : Spec NotedWsio wsioSignature} (f : Fault)
    (Q : Unit → NotedWsio → Prop) :
    wp spec (openObserver.observe (fault f)) Q s ↔ Q () (s.setState (s.state.addFault f)) := by
  simp [fault]

theorem observe_ask {c : Call} {Q : Ans c → NotedWsio → Prop} (hc : c.isLocal = false)
    (hinv : Kept (s.setNotes (openObserver.called c s.state s.notes)))
    (hQ : ∀ r s', openRun.mayAnswer c r s' = true → Kept s' →
      Undisturbed (s.setNotes (openObserver.called c s.state s.notes)) s' →
        Q r (s'.setNotes (openObserver.answered c r s'.state s'.notes))) :
    wp openInterference.spec (openObserver.observe (ask c)) Q s :=
  Interference.wp_reentrant (F := openInterference) (by simp [openInterference, hc]) hinv hQ

/-- The calls that are not noted. -/
def isPlain : Call → Bool
  | .uwsClientOpenAsync | .uwsClientCloseAsync | .onIoOpenComplete _ _ | .onIoError _ => false
  | _ => true

theorem called_of_plain {c : Call} (hc : isPlain c = true) (t : WsIo) (n : OpenNotes) :
    openObserver.called c t n = n := by
  cases c with
  | uwsClientOpenAsync => cases hc
  | uwsClientCloseAsync => cases hc
  | onIoOpenComplete cb result => cases hc
  | onIoError cb => cases hc
  | _ => rfl

theorem answered_of_plain {c : Call} (hc : isPlain c = true) (r : Ans c) (t : WsIo)
    (n : OpenNotes) : openObserver.answered c r t n = n := by
  cases c with
  | uwsClientOpenAsync => cases hc
  | uwsClientCloseAsync => cases hc
  | onIoOpenComplete cb result => cases hc
  | onIoError cb => cases hc
  | _ => rfl

theorem Under.askPlain (h : Under a s₀ s) {c : Call} {Q : Ans c → NotedWsio → Prop}
    (hc : isPlain c = true) (hQ : ∀ r s', Under a s₀ s' → Q r s') :
    wp openInterference.spec (openObserver.observe (ask c)) Q s := by
  have hcalled : s.setNotes (openObserver.called c s.state s.notes) = s := by
    rw [called_of_plain hc]
    rfl
  have hanswered : ∀ (r : Ans c) (s' : NotedWsio),
      s'.setNotes (openObserver.answered c r s'.state s'.notes) = s' := by
    intro r s'
    rw [answered_of_plain hc]
    rfl
  cases hlocal : c.isLocal with
  | false =>
    apply observe_ask hlocal
    case hinv =>
      rw [hcalled]
      exact h.inv
    case hQ =>
      intro r s' _ hinv hrely
      rw [hcalled] at hrely
      rw [hanswered]
      exact hQ r s' (h.relied hinv hrely)
  | true =>
    show wp openInterference.spec (Comp.call c)
      (fun r s' => Q r (s'.setNotes (openObserver.answered c r s'.state s'.notes)))
      (s.setNotes (openObserver.called c s.state s.notes))
    rw [hcalled]
    apply Interference.wp_local (F := openInterference)
    case hc => simp [openInterference, hlocal]
    case hinv => exact h.inv
    case hQ =>
      intro r _
      rw [hanswered]
      exact hQ r s h

theorem Under.callOptional (h : Under a s₀ s) {slot : Option Callback} {c : Callback → Call}
    {Q : Unit → NotedWsio → Prop} (hc : ∀ cb, isPlain (c cb) = true)
    (hQ : ∀ s', Under a s₀ s' → Q () s') :
    wp openInterference.spec (openObserver.observe (callOptional slot c)) Q s := by
  cases slot with
  | none => exact hQ s h
  | some cb =>
    simp only [Wsio.callOptional, wp_observe_bind]
    apply h.askPlain (hc cb)
    intro _ s' hs'
    exact hQ s' hs'

theorem Under.callBack (h : Under a s₀ s) {slot : Option Callback} {c : Callback → Call}
    {Q : Unit → NotedWsio → Prop} (hc : ∀ cb, isPlain (c cb) = true)
    (hQ : ∀ s', Under a s₀ s' → Q () s') :
    wp openInterference.spec (openObserver.observe (callBack slot c)) Q s := by
  cases slot with
  | none =>
    simp only [Wsio.callBack, observe_fault]
    exact hQ _ (h.addFault _)
  | some cb =>
    simp only [Wsio.callBack, wp_observe_bind]
    apply h.askPlain (hc cb)
    intro _ s' hs'
    exact hQ s' hs'

theorem Under.callProc (h : Under a s₀ s) (ha : a.failing = false) {p : Proc}
    (hp : p.isWsEvent = false) {Q : Int → NotedWsio → Prop}
    (hQ : ∀ r s', Under a s₀ s' → (p = .cancelPendingIos → live s'.notes.implied = false) →
      Q r s') :
    wp openInterference.spec (openObserver.observe (callProc p)) Q s := by
  show wp openInterference.spec (Comp.proc p) Q s
  apply Interference.wp_nested (F := openInterference)
  case hpre =>
    refine ⟨h.inv, h.not_failing ha, ?_, ?_⟩
    · rintro rfl
      cases hp
    · rintro r rfl
      cases hp
  case hQ =>
    rintro r s' ⟨hinv, hrely, hlive⟩
    exact hQ r s' (h.relied hinv hrely) hlive

end

/-! ## What is reported -/

/-- Where a function may be that still has to set the state. -/
structure Ending (a : Activity) (s₀ s : NotedWsio) : Prop where
  recorded : Recorded s
  active : s.notes.active = a :: s₀.notes.active
  calm : s₀.notes.failing = false
  completions : s₀.notes.completions ⊆ s.notes.completions

section

variable {s s₀ s' : NotedWsio} {a : Activity}

theorem Under.ending (h : Under a s₀ s) : Ending a s₀ s :=
  ⟨h.inv.toRecorded, h.active, h.calm, h.completions⟩

theorem Ending.under (h : Ending a s₀ s) (ha : a.failing = false)
    (hagrees : s.state.inst.ioState = s.notes.implied) : Under a s₀ s where
  inv :=
    { toRecorded := h.recorded
      agrees := fun _ => hagrees
      failing := by
        intro hfailing
        have hrest : s₀.notes.active.any Activity.failing = false := h.calm
        rw [OpenNotes.failing, h.active, List.any_cons, ha, hrest] at hfailing
        cases hfailing }
  active := h.active
  calm := h.calm
  completions := h.completions

theorem Ending.setState (h : Ending a s₀ s) {t : WsIo}
    (hopen : t.inst.onIoOpenComplete = s.state.inst.onIoOpenComplete)
    (herror : t.inst.onIoError = s.state.inst.onIoError) : Ending a s₀ (s.setState t) :=
  ⟨h.recorded.setState hopen herror, h.active, h.calm, h.completions⟩

theorem Recorded.complete (h : Recorded s) (himplied : s.notes.implied = .ioStateOpening)
    (result : IoOpenResult) : Recorded (s.setNotes (s.notes.complete result)) where
  once k := by
    show (s.notes.completions ++ [s.notes.opens]).count k ≤ 1
    rw [List.count_append, List.count_singleton]
    by_cases hk : s.notes.opens = k
    · subst hk
      rw [List.count_eq_zero_of_not_mem (h.opening himplied)]
      simp
    · have hcount := h.once k
      simpa [hk] using hcount
  started k hk := by
    rcases List.mem_append.1 hk with hk | hk
    · exact h.started k hk
    · exact Nat.le_of_eq (List.mem_singleton.1 hk)
  ended k hk := List.mem_append_left _ (h.ended k hk)
  kept := h.kept
  opening := by
    intro hopening
    have hresult : (if result = .ioOpenOk then IoState.ioStateOpen else .ioStateNotOpen) =
        .ioStateOpening := hopening
    split at hresult
    · cases hresult
    · cases hresult
  completer := by
    intro hopening
    have hresult : (if result = .ioOpenOk then IoState.ioStateOpen else .ioStateNotOpen) =
        .ioStateOpening := hopening
    split at hresult
    · cases hresult
    · cases hresult
  reporter _ := h.reporter (by rw [himplied]; exact nofun)

/-- `on_io_open_complete` is called, by `on_underlying_ws_error` before the state is set. -/
theorem Under.indicateOpenComplete (h : Under a s₀ s) (ha : a.failing = false)
    (himplied : s.notes.implied = .ioStateOpening) {t : WsIo}
    (hopen : t.inst.onIoOpenComplete = s.state.inst.onIoOpenComplete)
    (herror : t.inst.onIoError = s.state.inst.onIoError) (r : IoOpenResultDetailed)
    (hfails : a.proc = .onUnderlyingWsError → r.result ≠ .ioOpenOk)
    (hstate : a.proc ≠ .onUnderlyingWsError →
      t.inst.ioState = if r.result = .ioOpenOk then .ioStateOpen else .ioStateNotOpen) :
    wp openInterference.spec (openObserver.observe (indicateOpenComplete r))
      (fun _ s' => Ending a s₀ s' ∧ s.notes.opens ∈ s'.notes.completions ∧
        (a.proc = .onUnderlyingWsError → s'.notes.implied = .ioStateNotOpen) ∧
          (a.proc ≠ .onUnderlyingWsError → s'.state.inst.ioState = s'.notes.implied))
      (s.setState t) := by
  have hrest : s₀.notes.active.any Activity.failing = false := h.calm
  have hactive : (s.notes.complete r.result).active =
      { a with failing := a.proc == .onUnderlyingWsError } :: s₀.notes.active := by
    simp only [OpenNotes.complete, OpenNotes.update, h.active, List.modifyHead_cons]
  have hfailing : (s.notes.complete r.result).failing = (a.proc == .onUnderlyingWsError) := by
    rw [OpenNotes.failing, hactive, List.any_cons, hrest, Bool.or_false]
  simp only [Wsio.indicateOpenComplete, wp_observe_bind, observe_getInst, setState_state]
  cases hslot : t.inst.onIoOpenComplete with
  | none => exact absurd (hopen.symm.trans hslot) (h.inv.completer himplied)
  | some cb =>
    simp only [Wsio.callBack, wp_observe_bind]
    apply observe_ask rfl
    case hinv =>
      show Kept ((s.setState t).setNotes (s.notes.complete r.result))
      refine ⟨(h.inv.toRecorded.setState hopen herror).complete himplied r.result, ?_, ?_⟩
      · intro hcalm
        have hproc : (a.proc == .onUnderlyingWsError) = false := hfailing.symm.trans hcalm
        exact hstate (by simpa using hproc)
      · intro hbusy
        have hproc : (a.proc == .onUnderlyingWsError) = true := hfailing.symm.trans hbusy
        exact if_neg (hfails (by simpa using hproc))
    case hQ =>
      intro _ s₁ _ hinv hrely
      have hactive₁ : s₁.notes.active =
          { a with failing := a.proc == .onUnderlyingWsError } :: s₀.notes.active :=
        hrely.active.trans hactive
      have hbusy : s₁.notes.failing = (a.proc == .onUnderlyingWsError) := by
        rw [OpenNotes.failing, hactive₁, List.any_cons, hrest, Bool.or_false]
      have hresume : s₁.notes.resume.active = a :: s₀.notes.active := by
        simp only [OpenNotes.resume, OpenNotes.update, hactive₁, List.modifyHead_cons, ← ha]
      have hgrow : s.notes.completions ++ [s.notes.opens] ⊆ s₁.notes.completions :=
        hrely.completions
      refine ⟨⟨?_, hresume, h.calm, ?_⟩, hgrow (by simp), ?_, ?_⟩
      · exact ⟨hinv.once, hinv.started, hinv.ended, hinv.kept, hinv.opening, hinv.completer,
          hinv.reporter⟩
      · intro k hk
        exact hgrow (List.mem_append_left _ (h.completions hk))
      · intro hproc
        exact hinv.failing (by rw [hbusy, hproc]; rfl)
      · intro hproc
        exact hinv.agrees (by rw [hbusy]; simpa using hproc)

theorem Under.indicateError (h : Under a s₀ s) (ha : a.failing = false)
    (himplied : errorImplied a.proc s.notes.implied = .ioStateError) :
    wp openInterference.spec (openObserver.observe indicateError)
      (fun _ s' => Ending a s₀ s' ∧ (a.closing = true → live s'.notes.implied = false) ∧
        (s.notes.implied ≠ .ioStateNotOpen → s'.state.inst.ioState = s'.notes.implied)) s := by
  simp only [Wsio.indicateError, wp_observe_bind, observe_setIoState, observe_getInst,
    setState_state, WsIo.setIoState_inst]
  cases hslot : s.state.inst.onIoError with
  | none =>
    have hclosed : s.notes.implied = .ioStateNotOpen := by
      by_contra hopen
      exact h.inv.reporter hopen hslot
    simp only [Wsio.callBack, observe_fault]
    refine ⟨(h.ending.setState rfl rfl).setState rfl rfl, ?_, fun hopen => absurd hclosed hopen⟩
    intro _
    show live s.notes.implied = false
    rw [hclosed]
    rfl
  | some cb =>
    simp only [Wsio.callBack, wp_observe_bind]
    have hnoted : s.notes.reportError = { s.notes with implied := .ioStateError } := by
      simp only [OpenNotes.reportError, h.active, List.head?_cons, himplied]
    have hreported : Under a s₀ ((s.setState (s.state.setIoState .ioStateError)).setNotes
        { s.notes with implied := .ioStateError }) := by
      apply Ending.under _ ha rfl
      refine ⟨⟨h.inv.once, h.inv.started, h.inv.ended, h.inv.kept, nofun, nofun, ?_⟩,
        h.active, h.calm, h.completions⟩
      intro _
      show s.state.inst.onIoError ≠ none
      rw [hslot]
      exact nofun
    apply observe_ask rfl
    case hinv =>
      show Kept ((s.setState (s.state.setIoState .ioStateError)).setNotes s.notes.reportError)
      rw [hnoted]
      exact hreported.inv
    case hQ =>
      intro _ s₁ hmay hinv hrely
      have hrely : Undisturbed ((s.setState (s.state.setIoState .ioStateError)).setNotes
          s.notes.reportError) s₁ := hrely
      rw [hnoted] at hrely
      have h₁ := hreported.relied hinv hrely
      refine ⟨h₁.ending, ?_, fun _ => h₁.agrees ha⟩
      intro hclosing
      have hmay : (!(s₁.notes.closing && live s₁.notes.implied)) = true := hmay
      have hnotes : s₁.notes.closing = true := by
        rw [OpenNotes.closing, h₁.active, List.head?_cons, Option.any_some, hclosing]
      show live s₁.notes.implied = false
      simpa [hnotes] using hmay

end

/-! ## Every function -/

section

variable {s s₀ s' : NotedWsio} {a : Activity}

/-- Where the code of a function may end: the state is the one that is implied then, and the open that
it was to end has been completed. -/
structure Ended (a : Activity) (s₀ s : NotedWsio) : Prop extends Ending a s₀ s where
  ends : ∀ k, a.ends = some k → k ∈ s.notes.completions
  settled : s.state.inst.ioState = a.settle s.notes.implied

/-- A function that ends no open, and leaves the io closed only where it sets the state itself. -/
theorem Under.ended (h : Under a s₀ s) (ha : a.failing = false) (hends : a.ends = none)
    (hclosing : a.closing = false) : Ended a s₀ s where
  toEnding := h.ending
  ends := by
    rw [hends]
    exact nofun
  settled := by
    rw [Activity.settle, hclosing]
    exact h.agrees ha

theorem Ended.leave (h : Ended a s₀ s) :
    Kept (s.setNotes (s.notes.leave s.state.inst.ioState)) ∧
      Undisturbed s₀ (s.setNotes (s.notes.leave s.state.inst.ioState)) := by
  have hleave : s.notes.leave s.state.inst.ioState =
      { s.notes with
        active := s₀.notes.active
        implied := a.settle s.notes.implied
        ended := s.notes.ended ++ a.ends.toList
        returns := s.notes.returns ++
          [{ implied := a.settle s.notes.implied, left := s.state.inst.ioState }] } := by
    simp only [OpenNotes.leave, h.active]
  have hsettle : a.settle s.notes.implied = .ioStateNotOpen ∨
      a.settle s.notes.implied = s.notes.implied := by
    rw [Activity.settle]
    split
    · exact .inl rfl
    · exact .inr rfl
  rw [hleave]
  refine ⟨⟨⟨h.recorded.once, h.recorded.started, ?_, ?_, ?_, ?_, ?_⟩, fun _ => h.settled, ?_⟩,
    rfl, h.completions⟩
  · intro k hk
    rcases List.mem_append.1 hk with hk | hk
    · exact h.recorded.ended k hk
    · exact h.ends k (by simpa using hk)
  · intro x hx
    rcases List.mem_append.1 hx with hx | hx
    · exact h.recorded.kept x hx
    · rw [List.mem_singleton.1 hx]
      exact h.settled
  · intro himplied
    have himplied : a.settle s.notes.implied = .ioStateOpening := himplied
    rcases hsettle with hnone | hsame
    · rw [hnone] at himplied
      cases himplied
    · exact h.recorded.opening (hsame.symm.trans himplied)
  · intro himplied
    have himplied : a.settle s.notes.implied = .ioStateOpening := himplied
    rcases hsettle with hnone | hsame
    · rw [hnone] at himplied
      cases himplied
    · exact h.recorded.completer (hsame.symm.trans himplied)
  · intro himplied
    have himplied : a.settle s.notes.implied ≠ .ioStateNotOpen := himplied
    rcases hsettle with hnone | hsame
    · exact absurd hnone himplied
    · exact h.recorded.reporter (hsame ▸ himplied)
  · intro hfailing
    have hcalm : s₀.notes.failing = true := hfailing
    rw [h.calm] at hcalm
    cases hcalm

/-- The code ends well when the function was entered in `s₀`. -/
def Ends (s₀ : NotedWsio) (c : WsioComp Int) (s : NotedWsio) : Prop :=
  wp openInterference.spec (openObserver.observe c) (fun _ s' => ∃ a, Ended a s₀ s') s

theorem ends_void {c : WsioComp Unit}
    (h : wp openInterference.spec (openObserver.observe c) (fun _ s' => ∃ a, Ended a s₀ s') s) :
    Ends s₀ (void c) s := by
  simp only [Ends, void, wp_observe_bind]
  exact h

/-! ### Open -/

theorem wsioOpen_ends (h : Under a s₀ s) (ha : a.failing = false) (hends : a.ends = none)
    (hclosing : a.closing = false) (onIoOpenComplete onBytesReceived onIoError : Option Callback) :
    Ends s₀ (wsioOpen onIoOpenComplete onBytesReceived onIoError) s := by
  simp only [Ends, wsioOpen, wp_observe_bind, wp_observe_ite, observe_getInst, observe_modifyInst]
  split
  · exact ⟨a, h.ended ha hends hclosing⟩
  rename_i hslots
  have hopen : onIoOpenComplete ≠ none := fun hnone => hslots (.inl hnone)
  have herror : onIoError ≠ none := fun hnone => hslots (.inr (.inr hnone))
  split
  · exact ⟨a, h.ended ha hends hclosing⟩
  have hactive : s.notes.startOpen.active = a.start (s.notes.opens + 1) :: s₀.notes.active := by
    simp only [OpenNotes.startOpen, OpenNotes.update, h.active, List.modifyHead_cons]
  have hfresh : s.notes.opens + 1 ∉ s.notes.completions := by
    intro hmem
    exact absurd (h.inv.started _ hmem) (Nat.not_succ_le_self _)
  have hstart : Under (a.start (s.notes.opens + 1)) s₀
      ((s.setState (s.state.setInst
        { s.state.inst with
          onBytesReceived := onBytesReceived
          onIoOpenComplete := onIoOpenComplete
          onIoError := onIoError
          ioState := .ioStateOpening })).setNotes s.notes.startOpen) := by
    refine Ending.under ⟨?_, hactive, h.calm, h.completions⟩ ha rfl
    refine ⟨h.inv.once, ?_, h.inv.ended, h.inv.kept, fun _ => hfresh, fun _ => hopen,
      fun _ => herror⟩
    intro k hk
    exact Nat.le_succ_of_le (h.inv.started k hk)
  apply observe_ask rfl
  case hinv => exact hstart.inv
  case hQ =>
    intro r s₁ hmay hinv hrely
    have h₁ := hstart.relied hinv hrely
    split
    · rename_i hr
      simp only [wp_observe_bind, observe_setIoState]
      -- Either this open fails, or a later one is over already.
      have hfails : s₁.notes.started r = { s₁.notes with implied := .ioStateNotOpen } := by
        have hmay : (r == 0 || s₁.notes.startsLatest || s₁.notes.implied == .ioStateNotOpen) =
            true := hmay
        have hzero : (r == 0) = false := by simpa using hr
        rw [hzero, Bool.false_or, Bool.or_eq_true] at hmay
        rw [OpenNotes.started]
        split
        · rfl
        · rename_i hlater
          rcases hmay with hlatest | hclosed
          · exact absurd ⟨hr, hlatest⟩ hlater
          · rw [← eq_of_beq hclosed]
      refine ⟨a.start (s.notes.opens + 1), ?_⟩
      show Ended _ s₀ ((s₁.setNotes (s₁.notes.started r)).setState _)
      rw [hfails]
      refine Under.ended (Ending.under ⟨?_, h₁.active, h₁.calm, h₁.completions⟩ ha rfl) ha hends
        hclosing
      exact h₁.inv.toRecorded.close.setState rfl rfl
    · rename_i hr
      refine ⟨a.start (s.notes.opens + 1), ?_⟩
      have hsame : s₁.notes.started r = s₁.notes := by
        rw [OpenNotes.started, if_neg (fun hfailed => hr hfailed.1)]
      show Ended _ s₀ (s₁.setNotes (s₁.notes.started r))
      rw [hsame]
      exact h₁.ended ha hends hclosing

/-! ### An open that ends -/

/-- What is noted of a function that is entered in `s` and is to end the open under way. -/
structure Finishes (a : Activity) (s : NotedWsio) : Prop where
  failing : a.failing = false
  ends : ∀ k, a.ends = some k → k = s.notes.opens
  idle : s.notes.implied ≠ .ioStateOpening → a.ends = none

theorem Finishes.report (f : Finishes a s) (h : Under a s₀ s)
    (himplied : s.notes.implied = .ioStateOpening) (hproc : a.proc ≠ .onUnderlyingWsError)
    (hclosing : a.closing = false) {t : WsIo}
    (hopen : t.inst.onIoOpenComplete = s.state.inst.onIoOpenComplete)
    (herror : t.inst.onIoError = s.state.inst.onIoError) (r : IoOpenResultDetailed)
    (hstate : t.inst.ioState = if r.result = .ioOpenOk then .ioStateOpen else .ioStateNotOpen) :
    wp openInterference.spec (openObserver.observe (indicateOpenComplete r))
      (fun _ s' => ∃ a, Ended a s₀ s') (s.setState t) := by
  apply wp_mono _ (h.indicateOpenComplete f.failing himplied hopen herror r
    (fun hp => absurd hp hproc) fun _ => hstate)
  rintro _ s₁ ⟨hending, hcompleted, -, hagrees⟩
  refine ⟨a, hending, ?_, ?_⟩
  · intro k hk
    rw [f.ends k hk]
    exact hcompleted
  · rw [Activity.settle, hclosing]
    exact hagrees hproc

theorem errorImplied_eq {p : Proc} {implied : IoState} (hp : p ≠ .onUnderlyingWsError)
    (hopen : implied ≠ .ioStateNotOpen) : errorImplied p implied = .ioStateError := by
  cases p with
  | onUnderlyingWsError => exact absurd rfl hp
  | onUnderlyingWsPeerClosed => rfl
  | _ =>
    cases implied with
    | ioStateNotOpen => exact absurd rfl hopen
    | _ => rfl

theorem Finishes.error (f : Finishes a s) (h : Under a s₀ s)
    (hopening : s.notes.implied ≠ .ioStateOpening) (hopen : s.notes.implied ≠ .ioStateNotOpen)
    (hproc : a.proc ≠ .onUnderlyingWsError) (hclosing : a.closing = false) :
    wp openInterference.spec (openObserver.observe indicateError)
      (fun _ s' => ∃ a, Ended a s₀ s') s := by
  apply wp_mono _ (h.indicateError f.failing (errorImplied_eq hproc hopen))
  rintro _ s₁ ⟨hending, -, hagrees⟩
  exact ⟨a, (hending.under f.failing (hagrees hopen)).ended f.failing (f.idle hopening) hclosing⟩

theorem onUnderlyingWsOpenComplete_ends (f : Finishes a s) (h : Under a s₀ s)
    (hproc : a.proc ≠ .onUnderlyingWsError) (hclosing : a.closing = false)
    (hopen : s.notes.implied ≠ .ioStateNotOpen) (r : WsOpenResultDetailed) :
    wp openInterference.spec (openObserver.observe (onUnderlyingWsOpenComplete r))
      (fun _ s' => ∃ a, Ended a s₀ s') s := by
  have hagrees := h.agrees f.failing
  have herror : s.notes.implied ≠ .ioStateOpening →
      wp openInterference.spec (openObserver.observe indicateError)
        (fun _ s' => ∃ a, Ended a s₀ s') s := by
    intro hopening
    exact f.error h hopening hopen hproc hclosing
  simp only [onUnderlyingWsOpenComplete, wp_observe_bind, observe_getInst]
  split
  case h_1 hstate => exact herror (by rw [← hagrees, hstate]; exact nofun)
  case h_2 hstate => exact herror (by rw [← hagrees, hstate]; exact nofun)
  case h_3 hstate => exact herror (by rw [← hagrees, hstate]; exact nofun)
  case h_4 hstate => exact herror (by rw [← hagrees, hstate]; exact nofun)
  case h_5 hstate =>
    have himplied : s.notes.implied = .ioStateOpening := hagrees.symm.trans hstate
    simp only [wp_observe_bind, observe_setIoState]
    split
    all_goals
      simp only [wp_observe_bind, observe_setIoState, setState_setState]
      apply f.report h himplied hproc hclosing
      case hopen => rfl
      case herror => rfl
      case hstate => rfl

theorem onUnderlyingWsPeerClosed_ends (f : Finishes a s) (h : Under a s₀ s)
    (hproc : a.proc = .onUnderlyingWsPeerClosed)
    (hclosing : a.closing = (s.notes.implied == .ioStateNotOpen)) :
    wp openInterference.spec (openObserver.observe onUnderlyingWsPeerClosed)
      (fun _ s' => ∃ a, Ended a s₀ s') s := by
  have hagrees := h.agrees f.failing
  have hother : a.proc ≠ .onUnderlyingWsError := by
    rw [hproc]
    exact nofun
  have herror : s.notes.implied ≠ .ioStateOpening → s.notes.implied ≠ .ioStateNotOpen →
      wp openInterference.spec (openObserver.observe indicateError)
        (fun _ s' => ∃ a, Ended a s₀ s') s := by
    intro hopening hopen
    apply f.error h hopening hopen hother
    rw [hclosing]
    simpa using hopen
  simp only [onUnderlyingWsPeerClosed, wp_observe_bind, observe_getInst]
  split
  case h_1 hstate =>
    exact herror (by rw [← hagrees, hstate]; exact nofun) (by rw [← hagrees, hstate]; exact nofun)
  case h_2 hstate =>
    exact herror (by rw [← hagrees, hstate]; exact nofun) (by rw [← hagrees, hstate]; exact nofun)
  case h_3 hstate =>
    exact herror (by rw [← hagrees, hstate]; exact nofun) (by rw [← hagrees, hstate]; exact nofun)
  case h_4 hstate =>
    have himplied : s.notes.implied = .ioStateNotOpen := hagrees.symm.trans hstate
    have hcloses : a.closing = true := by rw [hclosing, himplied]; rfl
    simp only [wp_observe_bind]
    apply wp_mono _ (h.indicateError f.failing (by rw [hproc]; rfl))
    rintro _ s₁ ⟨hending, hdown, -⟩
    simp only [observe_setIoState]
    refine ⟨a, hending.setState rfl rfl, ?_, ?_⟩
    · rw [f.idle (by rw [himplied]; exact nofun)]
      exact nofun
    · show IoState.ioStateNotOpen = a.settle s₁.notes.implied
      rw [Activity.settle, hcloses, hdown hcloses]
      rfl
  case h_5 hstate =>
    have himplied : s.notes.implied = .ioStateOpening := hagrees.symm.trans hstate
    have hkeeps : a.closing = false := by rw [hclosing, himplied]; rfl
    simp only [wp_observe_bind, observe_setIoState]
    apply f.report h himplied hother hkeeps
    case hopen => rfl
    case herror => rfl
    case hstate => rfl

theorem onUnderlyingWsError_ends (f : Finishes a s) (h : Under a s₀ s)
    (hproc : a.proc = .onUnderlyingWsError) (hclosing : a.closing = false) :
    wp openInterference.spec (openObserver.observe onUnderlyingWsError)
      (fun _ s' => ∃ a, Ended a s₀ s') s := by
  have hagrees := h.agrees f.failing
  simp only [onUnderlyingWsError, wp_observe_bind, wp_observe_ite, observe_getInst]
  split
  · rename_i hstate
    have himplied : s.notes.implied = .ioStateOpening := hagrees.symm.trans hstate
    have hreport := h.indicateOpenComplete f.failing himplied (t := s.state) rfl rfl
      { result := .ioOpenError, code := 0 } (by rintro _ ⟨⟩) fun hp => absurd hproc hp
    apply wp_mono _ hreport
    rintro _ s₁ ⟨hending, hcompleted, hdown, -⟩
    simp only [observe_setIoState]
    refine ⟨a, hending.setState rfl rfl, ?_, ?_⟩
    · intro k hk
      rw [f.ends k hk]
      exact hcompleted
    · show IoState.ioStateNotOpen = a.settle s₁.notes.implied
      rw [Activity.settle, hclosing, hdown hproc]
      rfl
  · rename_i hstate
    have hidle : a.ends = none := f.idle (by rw [← hagrees]; exact hstate)
    cases hslot : s.state.inst.onIoError with
    | none =>
      simp only [Wsio.callBack, observe_fault]
      exact ⟨a, (h.addFault _).ended f.failing hidle hclosing⟩
    | some cb =>
      have hhead : s.notes.active.head? = some a := by rw [h.active, List.head?_cons]
      have hsame : s.notes.reportError = s.notes := by
        simp only [OpenNotes.reportError, hhead, hproc, errorImplied]
      simp only [Wsio.callBack, wp_observe_bind]
      apply observe_ask rfl
      case hinv =>
        show Kept (s.setNotes s.notes.reportError)
        rw [hsame]
        exact h.inv
      case hQ =>
        intro _ s₁ _ hinv hrely
        have hrely : Undisturbed (s.setNotes s.notes.reportError) s₁ := hrely
        rw [hsame] at hrely
        exact ⟨a, (h.relied hinv hrely).ended f.failing hidle hclosing⟩

theorem onUnderlyingWsCloseComplete_ends (h : Ending a s₀ s) (ha : a.failing = false)
    (hends : a.ends = none) (hclosing : a.closing = false)
    (hdown : s.notes.implied = .ioStateNotOpen) :
    wp openInterference.spec (openObserver.observe onUnderlyingWsCloseComplete)
      (fun _ s' => ∃ a, Ended a s₀ s') s := by
  simp only [onUnderlyingWsCloseComplete, wp_observe_bind, observe_setIoState, observe_getInst]
  have hset : Ending a s₀ (s.setState (s.state.setIoState .ioStateNotOpen)) := h.setState rfl rfl
  apply (hset.under ha hdown.symm).callOptional (fun _ => rfl)
  intro s₁ h₁
  exact ⟨a, h₁.ended ha hends hclosing⟩

/-! ### Close -/

theorem completeSendItem_keeps (h : Under a s₀ s) (pendingIo : PendingIo) (result : IoSendResult) :
    wp openInterference.spec (openObserver.observe (completeSendItem pendingIo result))
      (fun _ s' => Under a s₀ s') s := by
  simp only [completeSendItem, wp_observe_bind, observe_modifyInst]
  apply Under.callOptional _ (fun _ => rfl)
  case _ =>
    intro s' hs'
    exact hs'
  case _ => exact h.setPending _

theorem cancelPendingIos_ends (h : Under a s₀ s) (ha : a.failing = false) (hends : a.ends = none)
    (hclosing : a.closing = false)
    (hrun : s.state.inst.pendingIoList = [] → live s.notes.implied = false) :
    wp openInterference.spec (openObserver.observe cancelPendingIos)
      (fun _ s' => Ended a s₀ s' ∧ live s'.notes.implied = false) s := by
  simp only [cancelPendingIos, wp_observe_bind, observe_getInst]
  split
  case h_1 hlist => exact ⟨h.ended ha hends hclosing, hrun hlist⟩
  case h_2 firstPendingIo rest hlist =>
    simp only [wp_observe_bind]
    apply wp_mono _ (completeSendItem_keeps h firstPendingIo .ioSendCancelled)
    intro _ s₁ h₁
    apply h₁.callProc ha rfl
    intro _ s₂ h₂ hdown
    exact ⟨h₂.ended ha hends hclosing, hdown rfl⟩

theorem internalClose_ends (f : Finishes a s) (h : Under a s₀ s)
    (hproc : a.proc ≠ .onUnderlyingWsError) (hclosing : a.closing = false)
    (onIoCloseComplete : Option Callback) : Ends s₀ (internalClose onIoCloseComplete) s := by
  have hagrees := h.agrees f.failing
  have hrefused : s.notes.implied ≠ .ioStateOpening → ∃ a, Ended a s₀ s := by
    intro hopening
    exact ⟨a, h.ended f.failing (f.idle hopening) hclosing⟩
  have hcloses : s.notes.implied ≠ .ioStateOpening → s.notes.implied ≠ .ioStateNotOpen →
      wp openInterference.spec (openObserver.observe (do
        modifyInst fun i =>
          { i with ioState := .ioStateClosing, onIoCloseComplete := onIoCloseComplete }
        let r : Int ← ask .uwsClientCloseAsync
        if r ≠ 0 then do
          let i ← getInst
          callOptional i.onIoCloseComplete .onIoCloseComplete
        else pure ()
        let _ ← callProc .cancelPendingIos
        setIoState .ioStateNotOpen
        pure 0 : WsioComp Int)) (fun _ s' => ∃ a, Ended a s₀ s') s := by
    intro hopening hopen
    simp only [wp_observe_bind, observe_modifyInst]
    have hstart : Under a.startClose s₀
        ((s.setState (s.state.setInst
          { s.state.inst with
            ioState := .ioStateClosing
            onIoCloseComplete := onIoCloseComplete })).setNotes s.notes.startClose) := by
      have hactive : s.notes.startClose.active = a.startClose :: s₀.notes.active := by
        simp only [OpenNotes.startClose, OpenNotes.update, h.active, List.modifyHead_cons]
      refine Ending.under ⟨?_, hactive, h.calm, h.completions⟩ f.failing rfl
      exact ⟨h.inv.once, h.inv.started, h.inv.ended, h.inv.kept, nofun, nofun,
        fun _ => h.inv.reporter hopen⟩
    apply observe_ask rfl
    case hinv => exact hstart.inv
    case hQ =>
      intro r s₁ _ hinv hrely
      have h₁ := hstart.relied hinv hrely
      have hloop : ∀ s₂, Under a.startClose s₀ s₂ →
          wp openInterference.spec (openObserver.observe (callProc .cancelPendingIos))
            (fun _ s' => ∃ a, Ended a s₀ (s'.setState (s'.state.setIoState .ioStateNotOpen)))
            s₂ := by
        intro s₂ h₂
        apply h₂.callProc f.failing rfl
        intro _ s₃ h₃ hdown
        refine ⟨a.startClose, h₃.ending.setState rfl rfl, ?_, ?_⟩
        · rw [Activity.startClose, f.idle hopening]
          exact nofun
        · show IoState.ioStateNotOpen = a.startClose.settle s₃.notes.implied
          rw [Activity.settle, hdown rfl]
          rfl
      split
      · simp only [wp_observe_bind, observe_getInst]
        apply h₁.callOptional (fun _ => rfl)
        exact hloop
      · simp only [wp_observe_bind]
        exact hloop s₁ h₁
  simp only [Ends, internalClose, wp_observe_bind, observe_getInst]
  split
  case h_1 hstate => exact hrefused (by rw [← hagrees, hstate]; exact nofun)
  case h_2 hstate =>
    have himplied : s.notes.implied = .ioStateOpening := hagrees.symm.trans hstate
    simp only [wp_observe_bind, observe_setIoState]
    apply f.report h himplied hproc hclosing
    case hopen => rfl
    case herror => rfl
    case hstate => rfl
  case h_3 hstate => exact hrefused (by rw [← hagrees, hstate]; exact nofun)
  case h_4 hstate =>
    exact hcloses (by rw [← hagrees, hstate]; exact nofun) (by rw [← hagrees, hstate]; exact nofun)
  case h_5 hstate =>
    exact hcloses (by rw [← hagrees, hstate]; exact nofun) (by rw [← hagrees, hstate]; exact nofun)

theorem wsioClose_ends (h : Under a s₀ s) (ha : a.failing = false) (hends : a.ends = none)
    (hclosing : a.closing = false) (onIoCloseComplete : Option Callback) :
    Ends s₀ (wsioClose onIoCloseComplete) s := by
  simp only [Ends, wsioClose, wp_observe_bind]
  apply h.callProc ha rfl
  intro r s₁ h₁ _
  simp only [wp_observe_ite, wp_observe_pure]
  split
  · exact ⟨a, h₁.ended ha hends hclosing⟩
  · exact ⟨a, h₁.ended ha hends hclosing⟩

theorem wsioDestroy_ends (h : Under a s₀ s) (ha : a.failing = false) (hends : a.ends = none)
    (hclosing : a.closing = false) :
    wp openInterference.spec (openObserver.observe wsioDestroy)
      (fun _ s' => ∃ a, Ended a s₀ s') s := by
  have hdestroy : ∀ s₁, Under a s₀ s₁ →
      wp openInterference.spec (openObserver.observe (do
        let _ ← ask .uwsClientDestroy
        Comp.modify fun s => { s with destroyed := true } : WsioComp Unit))
        (fun _ s' => ∃ a, Ended a s₀ s') s₁ := by
    intro s₁ h₁
    simp only [wp_observe_bind]
    apply h₁.askPlain rfl
    intro _ s₂ h₂
    have halike : Alike s₂.state { s₂.state with destroyed := true } := ⟨rfl, rfl, rfl⟩
    exact ⟨a, (h₂.setState halike).ended ha hends hclosing⟩
  simp only [wsioDestroy, wp_observe_bind, observe_getInst]
  split
  · simp only [wp_observe_bind]
    apply h.callProc ha rfl
    intro _ s₁ h₁ _
    exact hdestroy s₁ h₁
  · exact hdestroy s h

/-! ### Frames -/

theorem onUnderlyingWsSendFrameComplete_ends (h : Under a s₀ s) (ha : a.failing = false)
    (hends : a.ends = none) (hclosing : a.closing = false) (item : Nat)
    (result : WsSendFrameResult) :
    wp openInterference.spec
      (openObserver.observe (onUnderlyingWsSendFrameComplete item result))
      (fun _ s' => ∃ a, Ended a s₀ s') s := by
  simp only [onUnderlyingWsSendFrameComplete, wp_observe_bind, observe_getInst]
  split
  case h_1 pendingIo hitem =>
    apply wp_mono _ (completeSendItem_keeps h pendingIo _)
    intro _ s₁ h₁
    exact ⟨a, h₁.ended ha hends hclosing⟩
  case h_2 hitem =>
    simp only [observe_fault]
    exact ⟨a, (h.addFault _).ended ha hends hclosing⟩

theorem onUnderlyingWsFrameReceived_ends (f : Finishes a s) (h : Under a s₀ s)
    (hends : a.ends = none) (hproc : a.proc ≠ .onUnderlyingWsError) (hclosing : a.closing = false)
    (frameType : UInt8) (buffer : Option Bytes) (size : Nat) :
    wp openInterference.spec
      (openObserver.observe (onUnderlyingWsFrameReceived frameType buffer size))
      (fun _ s' => ∃ a, Ended a s₀ s') s := by
  have hagrees := h.agrees f.failing
  simp only [onUnderlyingWsFrameReceived, wp_observe_bind, wp_observe_ite, observe_getInst]
  split
  · exact ⟨a, h.ended f.failing hends hclosing⟩
  rename_i hstate
  have himplied : s.notes.implied = .ioStateOpen := hagrees.symm.trans (not_not.1 hstate)
  have herror := f.error h (by rw [himplied]; rintro ⟨⟩) (by rw [himplied]; rintro ⟨⟩) hproc
    hclosing
  split
  · exact herror
  split
  · split
    · exact herror
    · apply h.callBack (fun _ => rfl)
      intro s₁ h₁
      exact ⟨a, h₁.ended f.failing hends hclosing⟩
  · exact ⟨a, h.ended f.failing hends hclosing⟩

theorem wsioSendProc_ends (h : Under a s₀ s) (ha : a.failing = false) (hends : a.ends = none)
    (hclosing : a.closing = false) (buffer : Option Bytes) (onSendComplete : Option Callback) :
    Ends s₀ (wsioSendProc buffer onSendComplete) s := by
  have hended : ∀ s₁, Under a s₀ s₁ → ∃ a, Ended a s₀ s₁ := by
    intro s₁ h₁
    exact ⟨a, h₁.ended ha hends hclosing⟩
  have hcounted : Under a s₀
      (s.setState { s.state with sendCalls := s.state.sendCalls + 1 }) :=
    h.setState ⟨rfl, rfl, rfl⟩
  simp only [Ends, wsioSendProc, wsioSend, wp_observe_bind, wp_observe_get, wp_observe_modify]
  split
  · exact hended _ hcounted
  · exact hended _ hcounted
  simp only [wp_observe_bind, observe_getInst]
  split
  · exact hended _ hcounted
  simp only [wp_observe_bind]
  apply hcounted.askPlain rfl
  intro allocated s₁ h₁
  split
  · exact hended _ h₁
  simp only [wp_observe_bind]
  apply h₁.askPlain rfl
  intro added s₂ h₂
  split
  · exact hended _ h₂
  simp only [wp_observe_bind, observe_modifyInst]
  apply (h₂.setPending _).askPlain rfl
  intro r s₃ h₃
  split
  · simp only [wp_observe_bind, observe_getInst]
    split
    · simp only [wp_observe_bind, observe_fault]
      exact hended _ (h₃.addFault _)
    · simp only [wp_observe_bind, observe_modifyInst]
      exact hended _ (h₃.setPending _)
  · exact hended _ h₃

theorem wsioDowork_ends (h : Under a s₀ s) (ha : a.failing = false) (hends : a.ends = none)
    (hclosing : a.closing = false) :
    wp openInterference.spec (openObserver.observe wsioDowork)
      (fun _ s' => ∃ a, Ended a s₀ s') s := by
  simp only [wsioDowork, wp_observe_bind, wp_observe_ite, observe_getInst]
  split
  · apply h.askPlain rfl
    intro _ s₁ h₁
    exact ⟨a, h₁.ended ha hends hclosing⟩
  · exact ⟨a, h.ended ha hends hclosing⟩

end

/-! ## Every run -/

section

variable {s s' : NotedWsio} {p : Proc}

def beginProc (p : Proc) (s : NotedWsio) : NotedWsio :=
  s.setNotes (s.notes.enter p)

/-- What is noted of a function that is entered in `s`. -/
def begun (p : Proc) (s : NotedWsio) : Activity :=
  Activity.enter p s.notes.opens s.notes.implied

theorem begun_ends (hp : endsOpen p = false) : (begun p s).ends = none := by
  simp [begun, Activity.enter, hp]

theorem begun_idle (hidle : s.notes.implied ≠ .ioStateOpening) : (begun p s).ends = none := by
  simp [begun, Activity.enter, hidle]

theorem begun_closing (hp : p ≠ .onUnderlyingWsPeerClosed) : (begun p s).closing = false := by
  simp [begun, Activity.enter, hp]

theorem under_beginProc (hinv : Kept s) (hcalm : s.notes.failing = false)
    (hp : p ≠ .onUnderlyingWsCloseComplete) : Under (begun p s) s (beginProc p s) := by
  have hnotes : s.notes.enter p = { s.notes with active := begun p s :: s.notes.active } := by
    simp [OpenNotes.enter, begun, hp]
  rw [beginProc, hnotes]
  refine Ending.under ⟨?_, rfl, hcalm, List.Subset.refl _⟩ rfl (hinv.agrees hcalm)
  exact ⟨hinv.once, hinv.started, hinv.ended, hinv.kept, hinv.opening, hinv.completer,
    hinv.reporter⟩

theorem finishes_beginProc (hp : p ≠ .onUnderlyingWsCloseComplete) :
    Finishes (begun p s) (beginProc p s) where
  failing := rfl
  ends := by
    intro k hk
    have hk : (if endsOpen p = true ∧ s.notes.implied = .ioStateOpening then some s.notes.opens
        else none) = some k := hk
    split at hk
    · exact (Option.some_inj.1 hk).symm
    · cases hk
  idle := by
    intro hidle
    apply begun_idle
    simpa [beginProc, OpenNotes.enter, hp] using hidle

theorem ending_beginProc (hinv : Kept s) (hcalm : s.notes.failing = false)
    (hdown : live s.notes.implied = false) :
    Ending (begun .onUnderlyingWsCloseComplete s) s (beginProc .onUnderlyingWsCloseComplete s) ∧
      (beginProc .onUnderlyingWsCloseComplete s).notes.implied = .ioStateNotOpen := by
  have hnotes : s.notes.enter .onUnderlyingWsCloseComplete =
      { s.notes with
        active := begun .onUnderlyingWsCloseComplete s :: s.notes.active
        implied := .ioStateNotOpen } := by
    simp [OpenNotes.enter, begun, hdown]
  rw [beginProc, hnotes]
  refine ⟨⟨?_, rfl, hcalm, List.Subset.refl _⟩, rfl⟩
  exact ⟨hinv.once, hinv.started, hinv.ended, hinv.kept, nofun, nofun, fun h => absurd rfl h⟩

theorem meets_of_ends (hp : p ≠ .cancelPendingIos) (h : Ends s (wsioCode p) (beginProc p s)) :
    wp openInterference.spec (openObserver.code wsioCode p)
      (fun _ s' => openInterference.post p s s') s := by
  rw [wp_code]
  apply wp_mono _ h
  rintro r s' ⟨a, hs'⟩
  exact ⟨hs'.leave.1, hs'.leave.2, fun hloop => absurd hloop hp⟩

theorem openRun_mayEnter {top : Option Call} (hmay : openRun.mayEnter top p s = true) :
    anyNotedRun.mayEnter top p s = true ∧ s.notes.failing = false ∧
      reportable p s.notes.implied = true := by
  simpa [openRun, and_assoc] using hmay

theorem openInterference_code (hpre : openInterference.pre p s)
    (hrun : openRun.mayRun p s = true) :
    wp openInterference.spec (notedCode p) (fun _ s' => openInterference.post p s s') s := by
  rcases hpre with ⟨hinv, hcalm, hcomplete, hopened⟩
  have hunder := under_beginProc (p := p) hinv hcalm
  have hfinishes := finishes_beginProc (p := p) (s := s)
  cases p with
  | wsioOpen onIoOpenComplete onBytesReceived onIoError =>
    exact meets_of_ends nofun (wsioOpen_ends (hunder nofun) rfl (begun_ends rfl)
      (begun_closing nofun) onIoOpenComplete onBytesReceived onIoError)
  | wsioClose onIoCloseComplete =>
    exact meets_of_ends nofun (wsioClose_ends (hunder nofun) rfl (begun_ends rfl)
      (begun_closing nofun) onIoCloseComplete)
  | wsioSend buffer onSendComplete =>
    exact meets_of_ends nofun (wsioSendProc_ends (hunder nofun) rfl (begun_ends rfl)
      (begun_closing nofun) buffer onSendComplete)
  | wsioDowork =>
    exact meets_of_ends nofun (ends_void (wsioDowork_ends (hunder nofun) rfl (begun_ends rfl)
      (begun_closing nofun)))
  | wsioDestroy =>
    exact meets_of_ends nofun (ends_void (wsioDestroy_ends (hunder nofun) rfl (begun_ends rfl)
      (begun_closing nofun)))
  | onUnderlyingWsOpenComplete result =>
    exact meets_of_ends nofun (ends_void (onUnderlyingWsOpenComplete_ends (hfinishes nofun)
      (hunder nofun) nofun (begun_closing nofun) (hopened result rfl) result))
  | onUnderlyingWsFrameReceived frameType buffer size =>
    exact meets_of_ends nofun (ends_void (onUnderlyingWsFrameReceived_ends (hfinishes nofun)
      (hunder nofun) (begun_ends rfl) nofun (begun_closing nofun) frameType buffer size))
  | onUnderlyingWsPeerClosed =>
    exact meets_of_ends nofun (ends_void (onUnderlyingWsPeerClosed_ends (hfinishes nofun)
      (hunder nofun) rfl rfl))
  | onUnderlyingWsError =>
    exact meets_of_ends nofun (ends_void (onUnderlyingWsError_ends (hfinishes nofun)
      (hunder nofun) rfl (begun_closing nofun)))
  | onUnderlyingWsCloseComplete =>
    have hdown := hcomplete rfl
    have hbegun := ending_beginProc hinv hcalm hdown
    have hidle : s.notes.implied ≠ .ioStateOpening := by
      intro himplied
      rw [himplied] at hdown
      cases hdown
    exact meets_of_ends nofun (ends_void (onUnderlyingWsCloseComplete_ends hbegun.1 rfl
      (begun_idle hidle) (begun_closing nofun) hbegun.2))
  | onUnderlyingWsSendFrameComplete item result =>
    exact meets_of_ends nofun (ends_void (onUnderlyingWsSendFrameComplete_ends (hunder nofun) rfl
      (begun_ends rfl) (begun_closing nofun) item result))
  | internalClose onIoCloseComplete =>
    exact meets_of_ends nofun (internalClose_ends (hfinishes nofun) (hunder nofun) nofun
      (begun_closing nofun) onIoCloseComplete)
  | cancelPendingIos =>
    have hrun : (!(s.state.inst.pendingIoList.isEmpty && live s.notes.implied)) = true := hrun
    have hdown : s.state.inst.pendingIoList = [] → live s.notes.implied = false := by
      intro hlist
      simpa [hlist] using hrun
    have hkeeps : (begun .cancelPendingIos s).closing = false := begun_closing nofun
    rw [notedCode, wp_code]
    apply wp_mono _ (cancelPendingIos_ends (hunder nofun) rfl (begun_ends rfl) hkeeps hdown)
    rintro r s' ⟨hs', hlive⟩
    refine ⟨hs'.leave.1, hs'.leave.2, fun _ => ?_⟩
    show live (s'.notes.leave s'.state.inst.ioState).implied = false
    simpa [OpenNotes.leave, hs'.active, Activity.settle, hkeeps] using hlive

theorem openInterference_sound : openInterference.Sound notedCode where
  refl s := ⟨rfl, List.Subset.refl _⟩
  trans s s' s'' h h' :=
    ⟨h'.active.trans h.active, List.Subset.trans h.completions h'.completions⟩
  reenter c p s hmay := by
    have hmay := (openRun_mayEnter hmay).1
    simp only [anyNotedRun, environment, reentrantRun, Bool.and_eq_true, Bool.or_eq_true] at hmay
    cases c with
    | malloc => simp [Call.isUws, Call.isCallback] at hmay
    | singlylinkedlistAdd => simp [Call.isUws, Call.isCallback] at hmay
    | _ => rfl
  enter top p s hinv hmay := by
    rcases openRun_mayEnter hmay with ⟨-, hcalm, hreportable⟩
    refine ⟨hinv, hcalm, ?_, ?_⟩
    · rintro rfl
      simpa [reportable] using hreportable
    · rintro result rfl
      simpa [reportable] using hreportable
  leave top p s s' _ _ hpost := ⟨hpost.1, hpost.2.1⟩
  code p s hpre hrun := openInterference_code hpre hrun

end

def createdNoted : NotedWsio :=
  ⟨{}, {}⟩

theorem kept_createdNoted : Kept createdNoted where
  once _ := Nat.zero_le 1
  started := nofun
  ended := nofun
  kept := nofun
  opening := nofun
  completer := nofun
  reporter h := absurd rfl h
  agrees _ := rfl
  failing := nofun

/-- The io is opened, closed, and opened again from `on_io_close_complete`. -/
def reopenWhenClosed : List (Input wsioSignature) :=
  [.enter (.wsioOpen (some 0) (some 1) (some 2)), .answer succeeds,
    .enter (.onUnderlyingWsOpenComplete { result := .wsOpenOk }), .answer succeeds,
    .enter (.wsioClose (some 3)), .answer succeeds,
    .enter .onUnderlyingWsCloseComplete,
    .enter (.wsioOpen (some 0) (some 1) (some 2)), .answer succeeds, .answer succeeds]

/-- The websocket client reports the close before `uws_client_close_async` returns. -/
def reopenWhileClosing : List (Input wsioSignature) :=
  [.enter (.wsioOpen (some 0) (some 1) (some 2)), .answer succeeds,
    .enter (.onUnderlyingWsOpenComplete { result := .wsOpenOk }), .answer succeeds,
    .enter (.wsioClose (some 3)),
    .enter .onUnderlyingWsCloseComplete,
    .enter (.wsioOpen (some 0) (some 1) (some 2)), .answer succeeds, .answer succeeds,
    .answer succeeds]

end OpenDiscipline
end SharedUtility.Wsio
