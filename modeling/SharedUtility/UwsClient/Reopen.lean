import SharedUtility.UwsClient.Runs
import SharedUtility.UwsClient.Watch

/-!
# Reopen — a client opened again from its close callback

The user may call `uws_client_open_async` from `on_ws_close_complete`.  Noted are, for every function
under way, whether its callback has opened the client, and the state in which the callback left it;
when the function returns, the state should be that one.

* `on_underlying_io_error` and `on_underlying_io_close_sent` call the callback last,
* `on_underlying_io_close_complete` and the handling of a close frame set the state once more.
-/

namespace SharedUtility.UwsClient
namespace Reopen

open Reentrant Observed Observer Watch

/-! ## What is noted -/

/-- A function under way.  While its `on_ws_close_complete` runs, `before` is the number of opens
accepted before it; `reopened` is the state that the callback left, if it has opened the client. -/
structure Activity where
  proc : Proc
  before : Option Nat := none
  reopened : Option UwsState := none
  deriving DecidableEq

/-- What a function left that has called `on_ws_close_complete` and was reopened by it. -/
structure Returned where
  reopened : UwsState
  left : UwsState
  deriving DecidableEq

/-- `opens` counts the calls of `uws_client_open_async` that have returned 0. -/
structure ReopenNotes where
  active : List Activity := []
  opens : Nat := 0
  returns : List Returned := []
  deriving DecidableEq

namespace Activity

def report (a : Activity) (opens : Nat) : Activity :=
  { a with before := some opens }

def resume (a : Activity) (opens : Nat) (state : UwsState) : Activity :=
  { a with
    before := none
    reopened := if a.before.any (· < opens) then some state else a.reopened }

end Activity

namespace ReopenNotes

def push (n : ReopenNotes) (p : Proc) : ReopenNotes :=
  { n with active := { proc := p } :: n.active }

def pop (n : ReopenNotes) : ReopenNotes :=
  { n with active := n.active.tail }

/-- Change what is noted of the function under way. -/
def update (n : ReopenNotes) (f : Activity → Activity) : ReopenNotes :=
  { n with active := n.active.modifyHead f }

def reopened (n : ReopenNotes) : Option UwsState :=
  n.active.head?.bind Activity.reopened

/-- A function of the library returns and leaves the state `left`. -/
def leave (n : ReopenNotes) (left : UwsState) : ReopenNotes :=
  match n.reopened with
  | some st => { n.pop with returns := n.returns ++ [{ reopened := st, left := left }] }
  | none => n.pop

/-- A loop returns to the function that has called it. -/
def leaveLoop (n : ReopenNotes) : ReopenNotes :=
  match n.reopened with
  | some st => n.pop.update fun a => { a with reopened := some st }
  | none => n.pop

/-- A call of `uws_client_open_async` returns. -/
def countOpen (n : ReopenNotes) (result : Int) : ReopenNotes :=
  if result = 0 then { n with opens := n.opens + 1 } else n

end ReopenNotes

def reopenObserver : Observer Uws uwsSignature ReopenNotes where
  entered p _ n := n.push p
  called c _ n :=
    match c with
    | .onWsCloseComplete _ => n.update fun a => a.report n.opens
    | _ => n
  answered c _ s n :=
    match c with
    | .onWsCloseComplete _ => n.update fun a => a.resume n.opens s.client.uwsState
    | _ => n
  returned p r s n :=
    match p with
    | .decodeStream | .clearPendingSends => n.leaveLoop
    | .uwsClientOpenAsync _ => (n.countOpen r).leave s.client.uwsState
    | _ => n.leave s.client.uwsState

abbrev NotedUws := Observed Uws ReopenNotes

def notedCode (p : Proc) : Comp NotedUws uwsSignature Int :=
  reopenObserver.code uwsCode p

/-! ## The property -/

/-- Every function whose `on_ws_close_complete` has opened the client leaves the state that the
callback left. -/
def ReopenKept (s : NotedUws) : Prop :=
  ∀ x ∈ s.notes.returns, x.left = x.reopened

/-! ## Runs -/

def anyNotedRun : Env NotedUws uwsSignature :=
  environment ReopenNotes reentrantRun

/-- The functions that set the state after `on_ws_close_complete` has returned: a close frame is handled
in the decode loop. -/
def closesAfterReport : Proc → Bool
  | .onUnderlyingIoCloseComplete | .decodeStream => true
  | _ => false

/-- Whether one of them is in its callback. -/
def ReopenNotes.closing (n : ReopenNotes) : Bool :=
  n.active.any fun a => closesAfterReport a.proc && a.before.isSome

/-- The condition.  From the callback that `on_underlying_io_close_complete` or the handling of a close
frame makes, no open is started successfully. -/
def reopenRun : Env NotedUws uwsSignature where
  mayEnter top p s := anyNotedRun.mayEnter top p s
  mayAnswer c r s :=
    match c, r with
    | .xioOpen, r => !(r == 0 && s.notes.closing)
    | _, _ => true

/-! ## The invariant -/

/-- What is left alone: no open is accepted while the state is still to be set. -/
structure Undisturbed (s s' : NotedUws) : Prop where
  active : s'.notes.active = s.notes.active
  opens : s.notes.closing = true → s'.notes.opens = s.notes.opens

theorem Undisturbed.refl (s : NotedUws) : Undisturbed s s :=
  ⟨rfl, fun _ => rfl⟩

theorem Undisturbed.closing {s s' : NotedUws} (h : Undisturbed s s') :
    s'.notes.closing = s.notes.closing := by
  rw [ReopenNotes.closing, h.active, ReopenNotes.closing]

theorem Undisturbed.trans {s s' s'' : NotedUws} (h : Undisturbed s s') (h' : Undisturbed s' s'') :
    Undisturbed s s'' where
  active := h'.active.trans h.active
  opens := by
    intro hclosing
    exact (h'.opens (h.closing.trans hclosing)).trans (h.opens hclosing)

def reopenWatch : Watch ReopenNotes where
  observer := reopenObserver
  env := reopenRun
  inv := ReopenKept
  rely := Undisturbed
  within := Undisturbed
  entry _ _ := True
  decodes := ReopenKept
  decoded s s' := ReopenKept s' ∧ Undisturbed s s'
  calm _ := True
  common c := ∀ cb, c ≠ .onWsCloseComplete cb

section

variable {s s₀ : NotedUws}

theorem at_setState (h : reopenWatch.At s₀ s) (t : Uws) : reopenWatch.At s₀ (s.setState t) :=
  ⟨h.inv, h.within.trans ⟨rfl, fun _ => rfl⟩⟩

theorem called_of_common {c : Call} (hc : ∀ cb, c ≠ .onWsCloseComplete cb) (s : Uws)
    (n : ReopenNotes) : reopenObserver.called c s n = n := by
  cases c with
  | onWsCloseComplete cb => exact absurd rfl (hc cb)
  | _ => rfl

theorem answered_of_common {c : Call} (hc : ∀ cb, c ≠ .onWsCloseComplete cb) (r : Ans c) (s : Uws)
    (n : ReopenNotes) : reopenObserver.answered c r s n = n := by
  cases c with
  | onWsCloseComplete cb => exact absurd rfl (hc cb)
  | _ => rfl

theorem closable : reopenWatch.Closable where
  alike _ _ t h _ := at_setState h t
  state _ _ _ h _ := at_setState h _
  called s₀ c s h hc := by
    show reopenWatch.At s₀ (s.setNotes (reopenObserver.called c s.state s.notes))
    rw [called_of_common hc]
    exact h
  answered s₀ c r s h hc := by
    show reopenWatch.At s₀ (s.setNotes (reopenObserver.answered c r s.state s.notes))
    rw [answered_of_common hc]
    exact h
  relied _ _ _ h hinv hrely := ⟨hinv, Undisturbed.trans h.within hrely⟩
  ordinary c hc := by
    rintro cb rfl
    cases hc
  closed := trivial
  error := trivial
  waiting := trivial
  closing := trivial
  sending := trivial
  slot _ _ _ h := at_setState h _

theorem streaming : reopenWatch.Streaming where
  toTolerant := closable.toTolerant
  opened := trivial
  errno := nofun
  stream _ _ _ h := at_setState h _
  consumed _ _ _ h := at_setState h _
  decodes _ _ h := h.inv
  decoded _ _ _ h hdecoded := ⟨hdecoded.1, Undisturbed.trans h.within hdecoded.2⟩

end

/-! ## The report of a close -/

/-- Where the function `p` may be, called by `rest`, when it has called `on_ws_close_complete`. -/
structure Reported (p : Proc) (rest : List Activity) (s₀ s : NotedUws) : Prop where
  inv : ReopenKept s
  active : ∃ reopened, s.notes.active = { proc := p, reopened := reopened } :: rest ∧
    ∀ st, reopened = some st → s.state.client.uwsState = st
  opens : s₀.notes.closing = true → s.notes.opens = s₀.notes.opens

section

variable {s s₀ : NotedUws} {p : Proc} {rest : List Activity}

theorem reported_of_at (h : reopenWatch.At s₀ s) (hbegun : s₀.notes.active = { proc := p } :: rest) :
    Reported p rest s₀ s where
  inv := h.inv
  active := ⟨none, h.within.active.trans hbegun, nofun⟩
  opens := h.within.opens

theorem indicateWsCloseComplete_reports (h : reopenWatch.At s₀ s)
    (hbegun : s₀.notes.active = { proc := p } :: rest) :
    wp reopenWatch.interference.spec (reopenWatch.observer.observe indicateWsCloseComplete)
      (fun _ s' => Reported p rest s₀ s' ∧ (closesAfterReport p = true → reopenWatch.At s₀ s')) s := by
  simp only [indicateWsCloseComplete, wp_observe_bind, observe_setUwsState]
  apply closable.callClear (at_setState h (s.state.setState .uwsStateClosed)) trivial
  intro _ s₁ h₁
  have hactive : s₁.notes.active = { proc := p } :: rest := h₁.within.active.trans hbegun
  simp only [observe_getClient]
  split
  case h_2 => exact ⟨reported_of_at h₁ hbegun, fun _ => h₁⟩
  case h_1 cb hslot =>
    simp only [wp_observe_bind]
    apply observe_callOut rfl
    case hinv => exact h₁.inv
    case hQ =>
      intro r s₂ _ hinv hrely
      have hnoted : (reopenWatch.calling (.onWsCloseComplete cb) s₁).notes =
          { s₁.notes with active := { proc := p, before := some s₁.notes.opens } :: rest } := by
        show s₁.notes.update (fun a => a.report s₁.notes.opens) = _
        simp only [ReopenNotes.update, hactive, List.modifyHead_cons, Activity.report]
      have hactive₂ : s₂.notes.active = { proc := p, before := some s₁.notes.opens } :: rest := by
        rw [hrely.active, hnoted]
      have hopens₂ : closesAfterReport p = true ∨ s₀.notes.closing = true →
          s₂.notes.opens = s₁.notes.opens := by
        intro hclosing
        have hcalled := hrely.opens
        rw [hnoted] at hcalled
        apply hcalled
        simp only [ReopenNotes.closing, List.any_cons, Option.isSome_some, Bool.and_true,
          Bool.or_eq_true]
        rcases hclosing with hp | hothers
        · exact .inl hp
        · rw [ReopenNotes.closing, hbegun] at hothers
          exact .inr (by simpa using hothers)
      have hresumed : s₂.notes.update (fun a => a.resume s₂.notes.opens s₂.state.client.uwsState) =
          { s₂.notes with
            active :=
              { proc := p,
                reopened := if s₁.notes.opens < s₂.notes.opens then
                  some s₂.state.client.uwsState else none } :: rest } := by
        simp only [ReopenNotes.update, hactive₂, List.modifyHead_cons, Activity.resume,
          Option.any_some, decide_eq_true_eq]
      show Reported p rest s₀ (s₂.setNotes
          (s₂.notes.update fun a => a.resume s₂.notes.opens s₂.state.client.uwsState)) ∧
        (closesAfterReport p = true → reopenWatch.At s₀ (s₂.setNotes
          (s₂.notes.update fun a => a.resume s₂.notes.opens s₂.state.client.uwsState)))
      rw [hresumed]
      constructor
      · refine ⟨hinv, ⟨_, rfl, ?_⟩, ?_⟩
        · intro st hst
          split at hst
          · exact Option.some_inj.1 hst
          · cases hst
        · intro hclosing
          exact (hopens₂ (.inr hclosing)).trans (h₁.within.opens hclosing)
      · intro hp
        -- No open has been accepted meanwhile.
        have hsame := hopens₂ (.inl hp)
        rw [if_neg (Nat.not_lt.2 (Nat.le_of_eq hsame))]
        refine ⟨hinv, hbegun.symm, ?_⟩
        intro hclosing
        exact hsame.trans (h₁.within.opens hclosing)

theorem reports (hbegun : s₀.notes.active = { proc := p } :: rest) (hp : closesAfterReport p = true)
    (h : reopenWatch.At s₀ s) : reopenWatch.Keeps s₀ indicateWsCloseComplete s := by
  apply wp_mono _ (indicateWsCloseComplete_reports h hbegun)
  intro _ s' hs'
  exact hs'.2 hp

theorem onUnderlyingIoError_reports (h : reopenWatch.At s₀ s)
    (hbegun : s₀.notes.active = { proc := p } :: rest) :
    wp reopenWatch.interference.spec (reopenWatch.observer.observe onUnderlyingIoError)
      (fun _ s' => Reported p rest s₀ s') s := by
  apply closable.onUnderlyingIoError_meets h fun _ h' => reported_of_at h' hbegun
  simp only [xioClose, wp_observe_bind]
  apply closable.callOut h rfl (closable.ordinary _ rfl)
  intro _ s₁ h₁
  apply wp_mono _ (indicateWsCloseComplete_reports h₁ hbegun)
  intro _ s' hs'
  exact hs'.1

theorem onUnderlyingIoCloseSent_reports (h : reopenWatch.At s₀ s)
    (hbegun : s₀.notes.active = { proc := p } :: rest) (ioSendResult : IoSendResult) :
    wp reopenWatch.interference.spec
      (reopenWatch.observer.observe (onUnderlyingIoCloseSent ioSendResult))
      (fun _ s' => Reported p rest s₀ s') s := by
  apply onUnderlyingIoCloseSent_meets (reported_of_at h hbegun)
  intro _
  simp only [xioClose, wp_observe_bind]
  apply closable.callOut (closable.atState h closable.closing) rfl (closable.ordinary _ rfl)
  intro r s₁ h₁
  split
  · apply wp_mono _ (indicateWsCloseComplete_reports h₁ hbegun)
    intro _ s' hs'
    exact hs'.1
  · exact reported_of_at h₁ hbegun

theorem reports_void {c : UwsComp Unit}
    (h : wp reopenWatch.interference.spec (reopenWatch.observer.observe c)
      (fun _ s' => Reported p rest s₀ s') s) :
    wp reopenWatch.interference.spec (reopenWatch.observer.observe (void c))
      (fun _ s' => Reported p rest s₀ s') s := by
  simp only [void, wp_observe_bind]
  exact h

end

/-! ## Opening -/

theorem openAsyncProc_reopens {s s₀ : NotedUws} (h : reopenWatch.At s₀ s)
    (callbacks : OpenCallbacks) :
    wp reopenWatch.interference.spec (reopenWatch.observer.observe (openAsyncProc callbacks))
      (fun r s' => reopenWatch.At s₀ s' ∧ (r = 0 → s₀.notes.closing = false)) s := by
  have hrefused : failure = 0 → s₀.notes.closing = false := nofun
  simp only [openAsyncProc, uwsClientOpenAsync, wp_observe_bind, wp_observe_get, wp_observe_modify,
    wp_observe_ite, observe_getClient]
  split
  · exact ⟨at_setState h _, hrefused⟩
  split
  · exact ⟨at_setState h _, hrefused⟩
  simp only [xioOpen, observe_modifyClient]
  apply observe_callOut rfl
  case hinv => exact h.inv
  case hQ =>
    intro r s₁ hmay hinv hrely
    have h₁ : reopenWatch.At s₀ s₁ :=
      ⟨hinv, h.within.trans ⟨hrely.active, hrely.opens⟩⟩
    split
    · simp only [wp_observe_bind, observe_setUwsState]
      exact ⟨at_setState h₁ _, hrefused⟩
    · rename_i hr
      refine ⟨at_setState h₁ _, fun _ => ?_⟩
      have hmay : (!(r == 0 && s₁.notes.closing)) = true := hmay
      rw [not_not.1 hr] at hmay
      rw [← h₁.within.closing]
      simpa using hmay

/-! ## Every run -/

section

variable {s s' : NotedUws} {p : Proc}

theorem beginProc_active (p : Proc) (s : NotedUws) :
    (reopenWatch.beginProc p s).notes.active = { proc := p } :: s.notes.active :=
  rfl

theorem beginProc_closing (p : Proc) (s : NotedUws) :
    (reopenWatch.beginProc p s).notes.closing = s.notes.closing := by
  rw [ReopenNotes.closing, beginProc_active, List.any_cons, Option.isSome_none, Bool.and_false,
    Bool.false_or, ReopenNotes.closing]

theorem leave_of_reported (opens : Nat)
    (h : Reported p s.notes.active (reopenWatch.beginProc p s) s')
    (hopens : s.notes.closing = true → opens = s'.notes.opens) :
    ReopenKept (s'.setNotes
        (({ s'.notes with opens := opens } : ReopenNotes).leave s'.state.client.uwsState)) ∧
      Undisturbed s (s'.setNotes
        (({ s'.notes with opens := opens } : ReopenNotes).leave s'.state.client.uwsState)) := by
  rcases h.active with ⟨reopened, hactive, hstate⟩
  have hkept : s.notes.closing = true → opens = s.notes.opens := by
    intro hclosing
    exact (hopens hclosing).trans (h.opens ((beginProc_closing p s).trans hclosing))
  have htail : s'.notes.active.tail = s.notes.active := by rw [hactive, List.tail_cons]
  have hreopened : ({ s'.notes with opens := opens } : ReopenNotes).reopened = reopened := by
    simp only [ReopenNotes.reopened, hactive, List.head?_cons, Option.bind_some]
  cases reopened with
  | none =>
    simp only [ReopenNotes.leave, hreopened]
    exact ⟨h.inv, htail, hkept⟩
  | some st =>
    simp only [ReopenNotes.leave, hreopened]
    refine ⟨?_, htail, hkept⟩
    intro x hx
    rcases List.mem_append.1 hx with hx | hx
    · exact h.inv x hx
    · rw [List.mem_singleton.1 hx]
      exact hstate st rfl

theorem leaveLoop_of_at (h : reopenWatch.At (reopenWatch.beginProc p s) s') :
    ReopenKept (s'.setNotes s'.notes.leaveLoop) ∧
      Undisturbed s (s'.setNotes s'.notes.leaveLoop) := by
  have hactive : s'.notes.active = { proc := p } :: s.notes.active := h.within.active
  have hreopened : s'.notes.reopened = none := by
    simp only [ReopenNotes.reopened, hactive, List.head?_cons, Option.bind_some]
  simp only [ReopenNotes.leaveLoop, hreopened]
  refine ⟨h.inv, ?_, ?_⟩
  · show s'.notes.active.tail = s.notes.active
    rw [hactive, List.tail_cons]
  · intro hclosing
    exact h.within.opens ((beginProc_closing p s).trans hclosing)

/-- The functions of the library, but for `uws_client_open_async`, which is counted. -/
def leaves : Proc → Bool
  | .uwsClientOpenAsync _ | .decodeStream | .clearPendingSends => false
  | _ => true

/-- A function of the library that may have called `on_ws_close_complete`. -/
theorem meets_of_reports (hp : leaves p = true)
    (h : wp reopenWatch.interference.spec (reopenWatch.observer.observe (uwsCode p))
      (fun _ s' => Reported p s.notes.active (reopenWatch.beginProc p s) s')
      (reopenWatch.beginProc p s)) :
    wp reopenWatch.interference.spec (reopenWatch.observer.code uwsCode p)
      (fun _ s' => reopenWatch.inv s' ∧ reopenWatch.rely s s' ∧ reopenWatch.effect p s s') s := by
  rw [wp_code]
  apply wp_mono _ h
  intro r s' hs'
  have hleave := leave_of_reported _ hs' fun _ => rfl
  cases p with
  | uwsClientOpenAsync callbacks => cases hp
  | decodeStream => cases hp
  | clearPendingSends => cases hp
  | _ => exact ⟨hleave.1, hleave.2, trivial⟩

theorem meets_of_keeps (hp : leaves p = true)
    (h : reopenWatch.Keeps (reopenWatch.beginProc p s) (uwsCode p) (reopenWatch.beginProc p s)) :
    wp reopenWatch.interference.spec (reopenWatch.observer.code uwsCode p)
      (fun _ s' => reopenWatch.inv s' ∧ reopenWatch.rely s s' ∧ reopenWatch.effect p s s') s := by
  apply meets_of_reports hp
  apply wp_mono _ h
  intro r s' hs'
  exact reported_of_at hs' (beginProc_active p s)

end

theorem reopenWatch_obligations : reopenWatch.Obligations where
  anyRun _ _ _ hmay := hmay
  refl := Undisturbed.refl
  trans _ _ _ := Undisturbed.trans
  entry _ _ _ _ _ := trivial
  loop s hkept _ := by
    have hbegun : reopenWatch.At (reopenWatch.beginProc .decodeStream s)
        (reopenWatch.beginProc .decodeStream s) := ⟨hkept, Undisturbed.refl _⟩
    rw [wp_code]
    apply wp_mono _ (streaming.decodeStream hbegun ?_)
    · intro r s' hs'
      exact leaveLoop_of_at hs'
    · intro _
      apply streaming.decodeFrame hbegun (streaming.consumed _)
      intro s₁ opcode fl isFinal h₁
      exact streaming.receiveFrame h₁ opcode fl isFinal fun _ =>
        closable.receiveCloseFrame (fun _ => reports (beginProc_active .decodeStream s) rfl) h₁ fl
          isFinal
  procs p s hdecode hkept _ := by
    have hbegun : reopenWatch.At (reopenWatch.beginProc p s) (reopenWatch.beginProc p s) :=
      ⟨hkept, Undisturbed.refl _⟩
    have hactive := beginProc_active p s
    cases p with
    | decodeStream => exact absurd rfl hdecode
    | uwsClientOpenAsync callbacks =>
      rw [wp_code]
      apply wp_mono _ (openAsyncProc_reopens hbegun callbacks)
      rintro r s' ⟨hs', hr⟩
      have hcount : s'.notes.countOpen r =
          { s'.notes with opens := if r = 0 then s'.notes.opens + 1 else s'.notes.opens } := by
        rw [ReopenNotes.countOpen]
        split
        · rfl
        · rfl
      have hsame : s.notes.closing = true →
          (if r = 0 then s'.notes.opens + 1 else s'.notes.opens) = s'.notes.opens := by
        intro hclosing
        rw [if_neg]
        intro hzero
        rw [beginProc_closing, hclosing] at hr
        cases hr hzero
      have hleave := leave_of_reported _ (reported_of_at hs' hactive) hsame
      rw [← hcount] at hleave
      exact ⟨hleave.1, hleave.2, trivial⟩
    | clearPendingSends =>
      rw [wp_code]
      apply wp_mono _ (closable.clearPendingSends hbegun fun _ _ => trivial)
      intro r s' hs'
      have hleave := leaveLoop_of_at hs'
      exact ⟨hleave.1, hleave.2, trivial⟩
    | onUnderlyingIoError =>
      exact meets_of_reports rfl (reports_void (onUnderlyingIoError_reports hbegun hactive))
    | onUnderlyingIoCloseSent result =>
      exact meets_of_reports rfl
        (reports_void (onUnderlyingIoCloseSent_reports hbegun hactive result))
    | onUnderlyingIoCloseComplete =>
      exact meets_of_keeps rfl
        (keeps_void (closable.onUnderlyingIoCloseComplete (fun _ => reports hactive rfl) hbegun))
    | onUnderlyingIoBytesReceived buffer =>
      exact meets_of_keeps rfl (keeps_void (streaming.onUnderlyingIoBytesReceived hbegun buffer))
    | onUnderlyingIoOpenComplete result code =>
      exact meets_of_keeps rfl (keeps_void (closable.onUnderlyingIoOpenComplete hbegun result code))
    | onUnderlyingIoSendComplete item result =>
      exact meets_of_keeps rfl (keeps_void (closable.onUnderlyingIoSendComplete hbegun item result))
    | uwsClientCloseAsync cb => exact meets_of_keeps rfl (closable.uwsClientCloseAsync hbegun cb)
    | uwsClientCloseHandshakeAsync closeCode cb =>
      exact meets_of_keeps rfl
        (closable.uwsClientCloseHandshakeAsync hbegun trivial closeCode cb)
    | uwsClientSendFrameAsync frameType buffer size isFinal cb =>
      exact meets_of_keeps rfl
        (closable.sendFrameAsyncProc hbegun frameType buffer size isFinal cb)
    | uwsClientDowork => exact meets_of_keeps rfl (keeps_void (closable.uwsClientDowork hbegun))
    | uwsClientDestroy =>
      exact meets_of_keeps rfl
        (keeps_void (closable.uwsClientDestroy hbegun fun _ _ => trivial))

/-- In a run that meets the condition, a client that is opened from its close callback stays as the
callback has left it. -/
theorem reopenKept_of_run {s₀ s : NotedUws} {st : List (Frame NotedUws uwsSignature)}
    (h₀ : s₀.notes = {}) (h : Reachable notedCode reopenRun s₀ (.env s st)) : ReopenKept s := by
  have hkept : ReopenKept s₀ := by
    intro x hx
    rw [h₀] at hx
    cases hx
  exact reopenWatch_obligations.sound.reachable_inv hkept h

def createdNoted : NotedUws :=
  ⟨createdClient, {}⟩

/-- The client is closed while it opens, the underlying io fails, and the client is opened again. -/
def failThenReopen : List (Input uwsSignature) :=
  [.enter (.uwsClientOpenAsync someCallbacks), .answer succeeds,
    .enter (.uwsClientCloseAsync (some 4)), .answer succeeds,
    .enter .onUnderlyingIoError, .answer succeeds,
    .enter (.uwsClientOpenAsync someCallbacks), .answer succeeds, .answer succeeds]

theorem reopenKept_failThenReopen :
    ∃ s st, Reachable notedCode reopenRun createdNoted (.env s st) ∧
      s.notes.returns = [⟨.uwsStateOpeningUnderlyingIo, .uwsStateOpeningUnderlyingIo⟩] ∧
        ReopenKept s := by
  have hrun : reopenRun.endsIn notedCode 40 createdNoted failThenReopen
      (fun s _ => decide (s.notes.returns =
        [⟨.uwsStateOpeningUnderlyingIo, .uwsStateOpeningUnderlyingIo⟩])) = true := by
    decide
  rcases Env.endsIn_sound hrun with ⟨s, st, hreach, htest⟩
  exact ⟨s, st, hreach, of_decide_eq_true htest, reopenKept_of_run rfl hreach⟩

/-- The underlying io has been closed, and the client is opened again. -/
def closeThenReopen : List (Input uwsSignature) :=
  [.enter (.uwsClientOpenAsync someCallbacks), .answer succeeds,
    .enter (.uwsClientCloseAsync (some 4)), .answer succeeds,
    .enter .onUnderlyingIoCloseComplete,
    .enter (.uwsClientOpenAsync someCallbacks), .answer succeeds, .answer succeeds]

/-- The client is closed although it is being opened. -/
theorem closeThenReopen_clobbers :
    ¬ ∀ (s₀ s : NotedUws) (st : List (Frame NotedUws uwsSignature)),
        s₀.notes = {} → Reachable notedCode anyNotedRun s₀ (.env s st) → ReopenKept s := by
  intro h
  have hrun : anyNotedRun.endsIn notedCode 40 createdNoted closeThenReopen
      (fun s _ => decide (⟨.uwsStateOpeningUnderlyingIo, .uwsStateClosed⟩ ∈ s.notes.returns)) =
        true := by
    decide
  rcases Env.endsIn_sound hrun with ⟨s, st, hreach, htest⟩
  cases h _ s st rfl hreach _ (of_decide_eq_true htest)

end Reopen
end SharedUtility.UwsClient
