import SharedUtility.HttpProxyIo.Code
import SharedUtility.Reentrant.Lockstep

/-!
# FreshOpen — what an open takes over from the connections before it

Two instances that hold the same receive buffer do the same from an accepted open on, whatever was
before.  The receive buffer is the only thing that an open takes over: nothing ever empties it, and an
instance that has read a CONNECT response answers the next one with what is left of the first.
-/

namespace SharedUtility.HttpProxyIo

open Reentrant

/-- What the user learns of an open. -/
inductive Outcome
  | reported (result : IoOpenResultDetailed)
  | forwarded (bytes : Bytes)
  deriving DecidableEq, Repr

def Event.outcome : Event → Option Outcome
  | .call _ (.onIoOpenComplete _ result) => some (.reported result)
  | .call _ (.onBytesReceived _ bytes) => some (.forwarded bytes)
  | _ => none

/-- What the user has learned since the log had `n` entries. -/
def ProxyIo.outcomeSince (s : ProxyIo) (n : Nat) : List Outcome :=
  (s.log.drop n).filterMap Event.outcome

/-- The same for a configuration in which the environment has control. -/
def outcomeSince (n : Nat) : Config ProxyIo httpProxyIoSignature → List Outcome
  | .env s _ => s.outcomeSince n
  | .run _ _ => []

/-! ## Two instances -/

/-- The instances cannot be told apart by the code, and their users have learned the same since their
logs had `n` and `n'` entries. -/
structure Same (n n' : Nat) (s s' : ProxyIo) : Prop where
  state : s.inst.httpProxyIoState = s'.inst.httpProxyIoState
  onIoOpenComplete : s.inst.onIoOpenComplete = s'.inst.onIoOpenComplete
  onBytesReceived : s.inst.onBytesReceived = s'.inst.onBytesReceived
  onIoError : s.inst.onIoError = s'.inst.onIoError
  closing : s.inst.httpProxyIoState = .httpProxyIoStateClosing →
    s.inst.onIoCloseComplete = s'.inst.onIoCloseComplete
  buffer : s.inst.receiveBuffer = s'.inst.receiveBuffer
  destroyed : s.destroyed = s'.destroyed
  later : n ≤ s.log.length ∧ n' ≤ s'.log.length
  outcome : s.outcomeSince n = s'.outcomeSince n'

section

variable {n n' : Nat} {s s' : ProxyIo}

theorem outcomeSince_record (hn : n ≤ s.log.length) (ev : Event) :
    (s.record ev).outcomeSince n = s.outcomeSince n ++ ev.outcome.toList := by
  rw [ProxyIo.outcomeSince, ProxyIo.record_log, List.drop_append_of_le_length hn,
    List.filterMap_append]
  cases hev : ev.outcome <;> simp [hev, ProxyIo.outcomeSince]

theorem Same.record (h : Same n n' s s') {ev ev' : Event} (hev : ev.outcome = ev'.outcome) :
    Same n n' (s.record ev) (s'.record ev') :=
  { h with
    later := by
      have := h.later
      simp only [ProxyIo.record_log, List.length_append]
      omega
    outcome := by
      rw [outcomeSince_record h.later.1, outcomeSince_record h.later.2, h.outcome, hev] }

theorem Same.setInst (h : Same n n' s s') {i i' : HttpProxyIoInstance}
    (hstate : i.httpProxyIoState = i'.httpProxyIoState)
    (hcallbacks : i.onIoOpenComplete = s.inst.onIoOpenComplete ∧
      i.onBytesReceived = s.inst.onBytesReceived ∧ i.onIoError = s.inst.onIoError)
    (hcallbacks' : i'.onIoOpenComplete = s'.inst.onIoOpenComplete ∧
      i'.onBytesReceived = s'.inst.onBytesReceived ∧ i'.onIoError = s'.inst.onIoError)
    (hclosing : i.httpProxyIoState = .httpProxyIoStateClosing →
      i.onIoCloseComplete = i'.onIoCloseComplete)
    (hbuffer : i.receiveBuffer = i'.receiveBuffer) :
    Same n n' (s.setInst i) (s'.setInst i') where
  state := hstate
  onIoOpenComplete := hcallbacks.1.trans (h.onIoOpenComplete.trans hcallbacks'.1.symm)
  onBytesReceived := hcallbacks.2.1.trans (h.onBytesReceived.trans hcallbacks'.2.1.symm)
  onIoError := hcallbacks.2.2.trans (h.onIoError.trans hcallbacks'.2.2.symm)
  closing := hclosing
  buffer := hbuffer
  destroyed := h.destroyed
  later := h.later
  outcome := h.outcome

theorem Same.setState (h : Same n n' s s') (st : HttpProxyIoState)
    (hst : st ≠ .httpProxyIoStateClosing) : Same n n' (s.setState st) (s'.setState st) :=
  h.setInst rfl ⟨rfl, rfl, rfl⟩ ⟨rfl, rfl, rfl⟩ (fun hclosing => absurd hclosing hst) h.buffer

theorem Same.hear (h : Same n n' s s') (ev : IoEvent) : Same n n' (s.hear ev) (s'.hear ev) :=
  { h with }

end

/-! ## The code -/

section

variable {n n' : Nat} {s s' : ProxyIo} {config : HttpProxyIoConfig}

/-- The code does the same to both instances. -/
abbrev DoesSame (n n' : Nat) {α : Type} (c : HttpProxyIoComp α) (s s' : ProxyIo) : Prop :=
  rwp (Same n n') c c (Agree (Same n n')) s s'

theorem rwp_getInst {Q : HttpProxyIoInstance → HttpProxyIoInstance → ProxyIo → ProxyIo → Prop}
    (h : Q s.inst s'.inst s s') : rwp (Same n n') getInst getInst Q s s' :=
  rwp_bind (rwp_get (rwp_pure h))

theorem rwp_setHttpProxyIoState {st : HttpProxyIoState} {Q : Unit → Unit → ProxyIo → ProxyIo → Prop}
    (h : Q () () (s.setState st) (s'.setState st)) :
    rwp (Same n n') (setHttpProxyIoState st) (setHttpProxyIoState st) Q s s' :=
  rwp_modify h

theorem rwp_ask {c : Call} {Q : Ans c → Ans c → ProxyIo → ProxyIo → Prop} (h : Same n n' s s')
    (hQ : ∀ r t t', Same n n' t t' → Q r r t t') :
    rwp (Same n n') (ask c) (ask c) Q s s' :=
  rwp_call h hQ

theorem rwp_callOut {c : Call} {Q : Ans c → Ans c → ProxyIo → ProxyIo → Prop} (h : Same n n' s s')
    (hQ : ∀ r t t', Same n n' t t' → Q r r t t') :
    rwp (Same n n') (callOut c) (callOut c) Q s s' := by
  refine rwp_bind (rwp_modify (rwp_ask (h.record ?_) hQ))
  cases c
  all_goals rfl

theorem onIoOpenComplete_same (h : Same n n' s s') (result : IoOpenResultDetailed) :
    DoesSame n n' (onIoOpenComplete result) s s' := by
  apply rwp_bind
  apply rwp_getInst
  rw [h.onIoOpenComplete]
  exact rwp_callOut h fun _ _ _ ht => ⟨rfl, ht⟩

theorem onBytesReceived_same (h : Same n n' s s') (bytes : Bytes) :
    DoesSame n n' (onBytesReceived bytes) s s' := by
  apply rwp_bind
  apply rwp_getInst
  rw [h.onBytesReceived]
  exact rwp_callOut h fun _ _ _ ht => ⟨rfl, ht⟩

theorem onIoError_same (h : Same n n' s s') : DoesSame n n' onIoError s s' := by
  apply rwp_bind
  apply rwp_getInst
  rw [h.onIoError]
  exact rwp_callOut h fun _ _ _ ht => ⟨rfl, ht⟩

theorem closeAndReport_same (h : Same n n' s s') (purpose : ClosePurpose)
    (result : IoOpenResultDetailed) :
    DoesSame n n' (do
      setHttpProxyIoState .httpProxyIoStateClosed
      let _ ← xioClose purpose
      onIoOpenComplete result) s s' := by
  apply rwp_bind
  apply rwp_setHttpProxyIoState
  apply rwp_bind
  apply rwp_callOut (h.setState .httpProxyIoStateClosed nofun)
  intro _ t t' ht
  exact onIoOpenComplete_same ht result

theorem indicateOpenCompleteErrorAndClose_same (h : Same n n' s s') (code : Int) :
    DoesSame n n' (indicateOpenCompleteErrorAndClose code) s s' :=
  closeAndReport_same h .failedOpen _

theorem encodedAuthString_same (h : Same n n' s s') :
    DoesSame n n' (encodedAuthString config) s s' := by
  have hfail : ∀ {t t' : ProxyIo}, Same n n' t t' → DoesSame n n' (do
      indicateOpenCompleteErrorAndClose failure
      pure (none : Option Bytes)) t t' := by
    intro t t' ht
    apply rwp_bind
    refine rwp_mono (indicateOpenCompleteErrorAndClose_same ht failure) ?_
    intro _ _ u u' hu
    exact rwp_pure ⟨rfl, hu.2⟩
  unfold encodedAuthString
  cases config.username with
  | none => exact rwp_pure ⟨rfl, h⟩
  | some username =>
    dsimp only
    split
    · exact hfail h
    apply rwp_bind
    unfold mallocInt
    split
    · exact rwp_pure (hfail h)
    apply rwp_ask h
    intro allocated t t' ht
    cases allocated with
    | false => exact hfail ht
    | true =>
      apply rwp_bind
      apply rwp_ask ht
      intro encoded u u' hu
      cases encoded with
      | false => exact hfail hu
      | true => exact rwp_pure ⟨rfl, hu⟩

theorem sendConnectRequestFor_same (h : Same n n' s s') (authStringPayload : Bytes) :
    DoesSame n n' (sendConnectRequestFor config authStringPayload) s s' := by
  unfold sendConnectRequestFor
  dsimp only
  split
  · exact indicateOpenCompleteErrorAndClose_same h failure
  apply rwp_bind
  apply rwp_ask h
  intro allocated t t' ht
  cases allocated with
  | false => exact indicateOpenCompleteErrorAndClose_same ht failure
  | true =>
    simp only [Bool.true_eq_false, if_false]
    split
    · exact indicateOpenCompleteErrorAndClose_same ht failure
    apply rwp_bind
    apply rwp_callOut ht
    intro r u u' hu
    split
    · exact indicateOpenCompleteErrorAndClose_same hu failure
    · exact rwp_pure ⟨rfl, hu⟩

theorem sendConnectRequest_same (h : Same n n' s s') :
    DoesSame n n' (sendConnectRequest config) s s' := by
  apply rwp_bind
  apply rwp_setHttpProxyIoState
  apply rwp_bind
  refine rwp_mono (encodedAuthString_same (h.setState _ nofun)) ?_
  rintro authString _ t t' ⟨rfl, ht⟩
  cases authString with
  | none => exact rwp_pure ⟨rfl, ht⟩
  | some authStringPayload => exact sendConnectRequestFor_same ht authStringPayload

theorem onUnderlyingIoOpenComplete_same (h : Same n n' s s') (openResult : IoOpenResultDetailed) :
    DoesSame n n' (onUnderlyingIoOpenComplete config openResult) s s' := by
  have hheard := h.hear (.openComplete openResult.result)
  apply rwp_bind
  apply rwp_modify
  apply rwp_bind
  apply rwp_getInst
  rw [← hheard.state]
  cases (s.hear (.openComplete openResult.result)).inst.httpProxyIoState with
  | httpProxyIoStateClosed => exact rwp_pure ⟨rfl, hheard⟩
  | httpProxyIoStateError => exact rwp_pure ⟨rfl, hheard⟩
  | httpProxyIoStateOpen => exact onIoError_same hheard
  | httpProxyIoStateClosing => exact onIoError_same hheard
  | httpProxyIoStateWaitingForConnectResponse =>
    exact indicateOpenCompleteErrorAndClose_same hheard failure
  | httpProxyIoStateOpeningUnderlyingIo =>
    rcases openResult with ⟨result, code⟩
    cases result with
    | ioOpenError => exact indicateOpenCompleteErrorAndClose_same hheard code
    | ioOpenOk => exact sendConnectRequest_same hheard
    | ioOpenCancelled => exact closeAndReport_same hheard .cancelledOpen _

theorem onUnderlyingIoError_same (h : Same n n' s s') : DoesSame n n' onUnderlyingIoError s s' := by
  have hheard := h.hear .error
  apply rwp_bind
  apply rwp_modify
  apply rwp_bind
  apply rwp_getInst
  rw [← hheard.state]
  cases (s.hear .error).inst.httpProxyIoState with
  | httpProxyIoStateOpeningUnderlyingIo =>
    exact indicateOpenCompleteErrorAndClose_same hheard failure
  | httpProxyIoStateWaitingForConnectResponse =>
    exact indicateOpenCompleteErrorAndClose_same hheard failure
  | httpProxyIoStateOpen =>
    apply rwp_bind
    apply rwp_setHttpProxyIoState
    exact onIoError_same (hheard.setState _ nofun)
  | _ => exact rwp_pure ⟨rfl, hheard⟩

theorem onUnderlyingIoCloseComplete_same (h : Same n n' s s') :
    DoesSame n n' onUnderlyingIoCloseComplete s s' := by
  apply rwp_bind
  apply rwp_getInst
  have hclosing := h.closing
  rw [← h.state]
  cases hstate : s.inst.httpProxyIoState with
  | httpProxyIoStateClosing =>
    apply rwp_bind
    apply rwp_setHttpProxyIoState
    apply rwp_bind
    apply rwp_getInst
    simp only [ProxyIo.setState_inst, ← hclosing hstate]
    have hclosed : Same n n' (s.setState .httpProxyIoStateClosed)
        (s'.setState .httpProxyIoStateClosed) := h.setState _ nofun
    cases s.inst.onIoCloseComplete with
    | none => exact rwp_pure ⟨rfl, hclosed⟩
    | some cb => exact rwp_callOut hclosed fun _ _ _ ht => ⟨rfl, ht⟩
  | _ => exact rwp_pure ⟨rfl, h⟩

theorem reportOpened_same (h : Same n n' s s') (tunnelled : Bytes) :
    DoesSame n n' (reportOpened tunnelled) s s' := by
  apply rwp_bind
  apply rwp_setHttpProxyIoState
  apply rwp_bind
  refine rwp_mono (onIoOpenComplete_same (h.setState .httpProxyIoStateOpen nofun) _) ?_
  intro _ _ t t' ht
  split
  · exact onBytesReceived_same ht.2 tunnelled
  · exact rwp_pure ⟨rfl, ht.2⟩

theorem parseConnectResponse_same (h : Same n n' s s') :
    DoesSame n n' parseConnectResponse s s' := by
  apply rwp_bind
  apply rwp_getInst
  rw [h.buffer]
  split
  · exact rwp_pure ⟨rfl, h⟩
  apply rwp_bind
  apply rwp_ask h
  intro errnoSet t t' ht
  split
  · exact indicateOpenCompleteErrorAndClose_same ht failure
  split
  · exact indicateOpenCompleteErrorAndClose_same ht failure
  · exact reportOpened_same ht _

theorem accumulateConnectResponse_same (h : Same n n' s s') (buffer : Bytes) :
    DoesSame n n' (accumulateConnectResponse buffer) s s' := by
  apply rwp_bind
  apply rwp_ask h
  intro reallocated t t' ht
  cases reallocated with
  | false => exact indicateOpenCompleteErrorAndClose_same ht failure
  | true =>
    refine rwp_modify ⟨rfl, ?_⟩
    exact ht.setInst ht.state ⟨rfl, rfl, rfl⟩ ⟨rfl, rfl, rfl⟩ ht.closing
      (congrArg (· ++ buffer) ht.buffer)

theorem onUnderlyingIoBytesReceived_same (h : Same n n' s s') (buffer : Bytes) :
    DoesSame n n' (onUnderlyingIoBytesReceived buffer) s s' := by
  have hheard := h.hear (.bytesReceived buffer)
  apply rwp_bind
  apply rwp_modify
  apply rwp_bind
  apply rwp_getInst
  rw [← hheard.state]
  cases (s.hear (.bytesReceived buffer)).inst.httpProxyIoState with
  | httpProxyIoStateOpeningUnderlyingIo =>
    exact indicateOpenCompleteErrorAndClose_same hheard failure
  | httpProxyIoStateWaitingForConnectResponse =>
    apply rwp_bind
    refine rwp_mono (accumulateConnectResponse_same hheard buffer) ?_
    intro _ _ t t' ht
    exact parseConnectResponse_same ht.2
  | httpProxyIoStateOpen => exact onBytesReceived_same hheard buffer
  | _ => exact rwp_pure ⟨rfl, hheard⟩

/-! ### The interface -/

theorem closeWhileOpening_same (h : Same n n' s s') : DoesSame n n' closeWhileOpening s s' := by
  apply rwp_bind
  apply rwp_setHttpProxyIoState
  apply rwp_bind
  apply rwp_callOut (h.setState .httpProxyIoStateClosed nofun)
  intro _ t t' ht
  apply rwp_bind
  refine rwp_mono (onIoOpenComplete_same ht _) ?_
  intro _ _ u u' hu
  exact rwp_pure ⟨rfl, hu.2⟩

theorem closeOpened_same (h : Same n n' s s') (previousState : HttpProxyIoState)
    (hprevious : previousState ≠ .httpProxyIoStateClosing) (onIoCloseComplete : Option Callback) :
    DoesSame n n' (closeOpened previousState onIoCloseComplete) s s' := by
  have hclosing : Same n n'
      (s.setInst { s.inst with
        httpProxyIoState := .httpProxyIoStateClosing
        onIoCloseComplete := onIoCloseComplete })
      (s'.setInst { s'.inst with
        httpProxyIoState := .httpProxyIoStateClosing
        onIoCloseComplete := onIoCloseComplete }) :=
    h.setInst rfl ⟨rfl, rfl, rfl⟩ ⟨rfl, rfl, rfl⟩ (fun _ => rfl) h.buffer
  apply rwp_bind
  apply rwp_modify
  apply rwp_bind
  apply rwp_callOut hclosing
  intro r t t' ht
  split
  · apply rwp_bind
    apply rwp_setHttpProxyIoState
    exact rwp_pure ⟨rfl, ht.setState _ hprevious⟩
  · exact rwp_pure ⟨rfl, ht⟩

theorem Same.markClose (h : Same n n' s s') : Same n n' s.markClose s'.markClose := by
  have hrecord : Same n n' (s.record (.closeCalled s.currentOpen))
      (s'.record (.closeCalled s'.currentOpen)) := h.record rfl
  exact { hrecord with }

theorem httpProxyIoClose_same (h : Same n n' s s') (onIoCloseComplete : Option Callback) :
    DoesSame n n' (httpProxyIoClose onIoCloseComplete) s s' := by
  apply rwp_bind
  apply rwp_modify
  apply rwp_bind
  apply rwp_getInst
  rw [← h.markClose.state]
  cases s.markClose.inst.httpProxyIoState with
  | httpProxyIoStateClosed => exact rwp_pure ⟨rfl, h.markClose⟩
  | httpProxyIoStateClosing => exact rwp_pure ⟨rfl, h.markClose⟩
  | httpProxyIoStateOpeningUnderlyingIo => exact closeWhileOpening_same h.markClose
  | httpProxyIoStateWaitingForConnectResponse => exact closeWhileOpening_same h.markClose
  | httpProxyIoStateOpen =>
    exact closeOpened_same h.markClose .httpProxyIoStateOpen nofun onIoCloseComplete
  | httpProxyIoStateError =>
    exact closeOpened_same h.markClose .httpProxyIoStateError nofun onIoCloseComplete

theorem httpProxyIoSend_same (h : Same n n' s s') (buffer : Option Bytes)
    (onSendComplete : Option Callback) :
    DoesSame n n' (httpProxyIoSend buffer onSendComplete) s s' := by
  match buffer with
  | none => exact rwp_pure ⟨rfl, h⟩
  | some [] => exact rwp_pure ⟨rfl, h⟩
  | some (b :: bytes) =>
    apply rwp_bind
    apply rwp_getInst
    rw [← h.state]
    split
    · exact rwp_pure ⟨rfl, h⟩
    · apply rwp_bind
      apply rwp_callOut h
      intro r t t' ht
      exact rwp_pure ⟨rfl, ht⟩

theorem httpProxyIoDowork_same (h : Same n n' s s') : DoesSame n n' httpProxyIoDowork s s' := by
  apply rwp_bind
  apply rwp_getInst
  rw [← h.state]
  split
  · exact rwp_callOut h fun _ _ _ ht => ⟨rfl, ht⟩
  · exact rwp_pure ⟨rfl, h⟩

theorem httpProxyIoDestroy_same (h : Same n n' s s') : DoesSame n n' httpProxyIoDestroy s s' := by
  apply rwp_bind
  apply rwp_callOut h
  intro _ t t' ht
  exact rwp_modify ⟨rfl, { ht with destroyed := rfl }⟩

/-- An open that is given its callbacks sets what it uses, but for the receive buffer. -/
theorem beginOpen_same {k k' onIoOpenComplete onBytesReceived onIoError : Nat}
    (hbuffer : s.inst.receiveBuffer = s'.inst.receiveBuffer)
    (hdestroyed : s.destroyed = s'.destroyed)
    (hlater : n ≤ s.log.length ∧ n' ≤ s'.log.length)
    (houtcome : s.outcomeSince n = s'.outcomeSince n') :
    Same n n' (s.beginOpen k onIoOpenComplete onBytesReceived onIoError)
      (s'.beginOpen k' onIoOpenComplete onBytesReceived onIoError) where
  state := rfl
  onIoOpenComplete := rfl
  onBytesReceived := rfl
  onIoError := rfl
  closing := nofun
  buffer := hbuffer
  destroyed := hdestroyed
  later := hlater
  outcome := houtcome

theorem openedUnderlyingIo_same (h : Same n n' s s') : DoesSame n n' (do
    let r ← xioOpen
    if r ≠ 0 then do
      setHttpProxyIoState .httpProxyIoStateClosed
      pure failure
    else pure 0) s s' := by
  apply rwp_bind
  apply rwp_callOut h
  intro r t t' ht
  split
  · apply rwp_bind
    apply rwp_setHttpProxyIoState
    exact rwp_pure ⟨rfl, ht.setState _ nofun⟩
  · exact rwp_pure ⟨rfl, ht⟩

theorem openUnderlyingIo_same (h : Same n n' s s') (k k' : Nat) (arguments : OpenArguments) :
    rwp (Same n n') (openUnderlyingIo k arguments) (openUnderlyingIo k' arguments)
      (Agree (Same n n')) s s' := by
  unfold openUnderlyingIo
  split
  case h_2 => exact rwp_pure ⟨rfl, h⟩
  case h_1 =>
    apply rwp_bind
    apply rwp_getInst
    rw [← h.state]
    split
    · exact rwp_pure ⟨rfl, h⟩
    · apply rwp_bind
      apply rwp_modify
      exact openedUnderlyingIo_same (beginOpen_same h.buffer h.destroyed h.later h.outcome)

theorem httpProxyIoOpen_same (h : Same n n' s s') (arguments : OpenArguments) :
    DoesSame n n' (httpProxyIoOpen arguments) s s' := by
  have hcounted : Same n n' { s with openCalls := s.openCalls + 1 }
      { s' with openCalls := s'.openCalls + 1 } := { h with }
  apply rwp_bind
  apply rwp_modify
  apply rwp_bind
  apply rwp_get
  apply rwp_bind
  refine rwp_mono (openUnderlyingIo_same hcounted _ _ arguments) ?_
  rintro r _ t t' ⟨rfl, ht⟩
  apply rwp_bind
  apply rwp_modify
  exact rwp_pure ⟨rfl, ht.record rfl⟩

theorem httpProxyIoCode_same (h : Same n n' s s') (p : Proc) :
    DoesSame n n' (httpProxyIoCode config p) s s' := by
  have hvoid : ∀ {c : HttpProxyIoComp Unit}, DoesSame n n' c s s' →
      DoesSame n n' (void c) s s' := by
    intro c hc
    apply rwp_bind
    refine rwp_mono hc ?_
    intro _ _ t t' ht
    exact rwp_pure ⟨rfl, ht.2⟩
  cases p with
  | httpProxyIoOpen arguments => exact httpProxyIoOpen_same h arguments
  | httpProxyIoClose onIoCloseComplete => exact httpProxyIoClose_same h onIoCloseComplete
  | httpProxyIoSend buffer onSendComplete => exact httpProxyIoSend_same h buffer onSendComplete
  | httpProxyIoDowork => exact hvoid (httpProxyIoDowork_same h)
  | httpProxyIoDestroy => exact hvoid (httpProxyIoDestroy_same h)
  | onUnderlyingIoOpenComplete result => exact hvoid (onUnderlyingIoOpenComplete_same h result)
  | onUnderlyingIoBytesReceived buffer => exact hvoid (onUnderlyingIoBytesReceived_same h buffer)
  | onUnderlyingIoError => exact hvoid (onUnderlyingIoError_same h)
  | onUnderlyingIoCloseComplete => exact hvoid (onUnderlyingIoCloseComplete_same h)

end

/-! ## Every history -/

theorem lockstep_same (config : HttpProxyIoConfig) (n n' : Nat) :
    Lockstep (Same n n') (httpProxyIoCode config) anyRun where
  code_alike p _ _ h := httpProxyIoCode_same h p
  mayEnter top p s s' h := by
    simp only [anyRun, h.destroyed]
  mayAnswer _ _ _ _ _ := rfl
  mayRun _ _ _ _ := rfl

/-- An open of an instance whose receive buffer is empty, and the first open of a new one. -/
theorem openFresh_alike {config : HttpProxyIoConfig} {s : ProxyIo}
    (hclosed : s.inst.httpProxyIoState = .httpProxyIoStateClosed)
    (hempty : s.inst.receiveBuffer = []) (hdestroyed : s.destroyed = false)
    (onIoOpenComplete onBytesReceived onIoError : Callback) :
    rwp (Same s.log.length 0)
      (httpProxyIoCode config
        (.httpProxyIoOpen ⟨some onIoOpenComplete, some onBytesReceived, some onIoError⟩))
      (httpProxyIoCode config
        (.httpProxyIoOpen ⟨some onIoOpenComplete, some onBytesReceived, some onIoError⟩))
      (Agree (Same s.log.length 0)) s {} := by
  apply rwp_bind
  apply rwp_modify
  apply rwp_bind
  apply rwp_get
  apply rwp_bind
  refine rwp_mono (Q := Agree (Same s.log.length 0)) ?_ ?_
  · apply rwp_bind
    apply rwp_getInst
    simp only [hclosed, ne_eq, not_true_eq_false, if_false]
    apply rwp_bind
    apply rwp_modify
    exact openedUnderlyingIo_same (beginOpen_same hempty hdestroyed ⟨Nat.le_refl _, Nat.le_refl _⟩
      (by simp [ProxyIo.outcomeSince]))
  · rintro r _ t t' ⟨rfl, ht⟩
    apply rwp_bind
    apply rwp_modify
    exact rwp_pure ⟨rfl, ht.record rfl⟩

/-- Whatever the history of an instance: if it is closed and its receive buffer is empty, then an open
has the outcome that it would have on a new instance, for the same events and answers. -/
theorem openOutcome_of_empty_receiveBuffer {config : HttpProxyIoConfig} {fuel : Nat}
    {history : List (Input httpProxyIoSignature)} {s : ProxyIo}
    (hhistory : anyRun.runInputs (httpProxyIoCode config) fuel (.env {} []) history =
      some (.env s []))
    (hclosed : s.inst.httpProxyIoState = .httpProxyIoStateClosed)
    (hempty : s.inst.receiveBuffer = []) (hdestroyed : s.destroyed = false)
    (onIoOpenComplete onBytesReceived onIoError : Callback)
    (inputs : List (Input httpProxyIoSignature)) :
    (anyRun.runInputs (httpProxyIoCode config) fuel (.env {} []) (history ++
        .enter (.httpProxyIoOpen
          ⟨some onIoOpenComplete, some onBytesReceived, some onIoError⟩) :: inputs)).map
        (outcomeSince s.log.length) =
      (anyRun.runInputs (httpProxyIoCode config) fuel (.env {} [])
        (.enter (.httpProxyIoOpen
          ⟨some onIoOpenComplete, some onBytesReceived, some onIoError⟩) :: inputs)).map
        (outcomeSince 0) := by
  rw [Env.runInputs_append, hhistory, Option.bind_some]
  apply map_eq_of_alike (R := Same s.log.length 0)
  · intro cfg cfg' halike
    cases halike with
    | env h _ => exact h.outcome
    | run _ _ => rfl
  · apply (lockstep_same config s.log.length 0).runInputs_enter fuel
    · exact openFresh_alike hclosed hempty hdestroyed onIoOpenComplete onBytesReceived onIoError
    · simp [anyRun, hdestroyed]
    · rfl

/-- An open that the io refuses before it has received anything. -/
def failedOpen : List (Input httpProxyIoSignature) :=
  [.enter (.httpProxyIoOpen someArguments), .answer succeeds, .enter .onUnderlyingIoError,
    .answer succeeds, .answer succeeds]

/-- What follows the call of an open: the CONNECT request is sent, and answered by `response`. -/
def answeredBy (response : Bytes) : List (Input httpProxyIoSignature) :=
  [.answer succeeds, .enter (.onUnderlyingIoOpenComplete { result := .ioOpenOk }),
    .answer succeeds, .answer succeeds, .enter (.onUnderlyingIoBytesReceived response),
    .answer succeeds, .answer succeeds, .answer succeeds]

theorem openOutcome_after_failedOpen :
    ∃ s, anyRun.runInputs (httpProxyIoCode someConfig) 20 (.env {} []) failedOpen =
        some (.env s []) ∧ s.log ≠ [] ∧
      (anyRun.runInputs (httpProxyIoCode someConfig) 20 (.env {} []) (failedOpen ++
          .enter (.httpProxyIoOpen ⟨some 0, some 1, some 2⟩) ::
            answeredBy (ascii "HTTP/1.1 200 \r\n\r\nx"))).map (outcomeSince s.log.length) =
        (anyRun.runInputs (httpProxyIoCode someConfig) 20 (.env {} [])
          (.enter (.httpProxyIoOpen ⟨some 0, some 1, some 2⟩) ::
            answeredBy (ascii "HTTP/1.1 200 \r\n\r\nx"))).map (outcomeSince 0) := by
  have hhistory : ∃ s, anyRun.runInputs (httpProxyIoCode someConfig) 20 (.env {} []) failedOpen =
      some (.env s []) ∧ s.log ≠ [] ∧ s.inst.httpProxyIoState = .httpProxyIoStateClosed ∧
        s.inst.receiveBuffer = [] ∧ s.destroyed = false := ⟨_, rfl, nofun, rfl, rfl, rfl⟩
  rcases hhistory with ⟨s, hrun, hlog, hclosed, hempty, hdestroyed⟩
  exact ⟨s, hrun, hlog, openOutcome_of_empty_receiveBuffer hrun hclosed hempty hdestroyed 0 1 2 _⟩

/-- A connection that is granted, used and closed. -/
def grantedThenClosed : List (Input httpProxyIoSignature) :=
  .enter (.httpProxyIoOpen someArguments) :: answeredBy (ascii "HTTP/1.1 200 \r\n\r\n") ++
    [.enter (.httpProxyIoClose none), .answer succeeds, .enter .onUnderlyingIoCloseComplete]

/-- The next connection is refused by the proxy, and reported as open. -/
theorem grantedThenClosed_grants_again :
    ¬ ∀ (config : HttpProxyIoConfig) (fuel : Nat) (history : List (Input httpProxyIoSignature))
        (s : ProxyIo),
        anyRun.runInputs (httpProxyIoCode config) fuel (.env {} []) history = some (.env s []) →
        s.inst.httpProxyIoState = .httpProxyIoStateClosed → s.destroyed = false →
        ∀ (onIoOpenComplete onBytesReceived onIoError : Callback)
          (inputs : List (Input httpProxyIoSignature)),
          (anyRun.runInputs (httpProxyIoCode config) fuel (.env {} []) (history ++
              .enter (.httpProxyIoOpen
                ⟨some onIoOpenComplete, some onBytesReceived, some onIoError⟩) :: inputs)).map
              (outcomeSince s.log.length) =
            (anyRun.runInputs (httpProxyIoCode config) fuel (.env {} [])
              (.enter (.httpProxyIoOpen
                ⟨some onIoOpenComplete, some onBytesReceived, some onIoError⟩) :: inputs)).map
              (outcomeSince 0) := by
  intro h
  have hrun : anyRun.endsIn (httpProxyIoCode someConfig) 20 {} grantedThenClosed (fun s st =>
      st.isEmpty && s.inst.httpProxyIoState == .httpProxyIoStateClosed && !s.destroyed &&
        (anyRun.runInputs (httpProxyIoCode someConfig) 20 (.env {} []) (grantedThenClosed ++
          .enter (.httpProxyIoOpen ⟨some 0, some 1, some 2⟩) ::
            answeredBy (ascii "HTTP/1.1 404 \r\n\r\n"))).map (outcomeSince s.log.length) !=
        (anyRun.runInputs (httpProxyIoCode someConfig) 20 (.env {} [])
          (.enter (.httpProxyIoOpen ⟨some 0, some 1, some 2⟩) ::
            answeredBy (ascii "HTTP/1.1 404 \r\n\r\n"))).map (outcomeSince 0)) = true := by
    decide +kernel
  rcases Env.endsIn_spec hrun with ⟨s, st, hhistory, htest⟩
  simp only [Bool.and_eq_true, List.isEmpty_iff, beq_iff_eq, Bool.not_eq_true', bne_iff_ne] at htest
  rcases htest with ⟨⟨⟨rfl, hclosed⟩, hdestroyed⟩, hdiffer⟩
  exact hdiffer (h someConfig 20 grantedThenClosed s hhistory hclosed hdestroyed 0 1 2 _)

end SharedUtility.HttpProxyIo
