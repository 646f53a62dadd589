import SharedUtility.TlsIoOpenssl.Rules

/-!
# Engine — the SSL objects in step with the state

In the states that use it, `ssl` is the object of the latest open, and there is none in state NOT_OPEN.
The paths that change one without the other: a report of a failed attempt that leaves the object to
the next close, two steps of `create_openssl_instance` that leave the context, a close complete that is
not expected, and the close complete that frees what the user has opened in its callback.  The
condition is on the calls: which are made before the close that frees the object.
-/

namespace SharedUtility.TlsIoOpenssl

open Reentrant

/-! ## What an observer sees -/

/-- An object is overwritten, or used when it is gone. -/
def Event.engineFault : Event → Bool
  | .fault .callbackNull => false
  | .fault _ => true
  | _ => false

def Faultless (s : TlsIo) : Prop :=
  ∀ ev ∈ s.log, ev.engineFault = false

/-- The state uses the SSL object of the latest open only. -/
def OwnEngine (s : TlsIo) : Prop :=
  s.inst.tlsioState.usesSsl = true →
    ∃ ssl, s.inst.ssl = some ssl ∧ ssl.openId = s.currentOpen

/-- The options that are refused while there is a context. -/
def TlsioOption.whileDisconnected : TlsioOption → Bool
  | .tlsVersion _ | .disableCrlCheck _ | .continueOnCrlDownloadFailure _ | .sslCrlMaxSizeInKb _
  | .disableDefaultVerifyPaths _ => true
  | _ => false

/-- Without a connection there are no objects, and every option can be set. -/
structure AtRest (s : TlsIo) : Prop where
  released : s.inst.ssl = none ∧ s.inst.sslContext = none
  settable : ∀ option : TlsioOption, option.whileDisconnected = true →
    ∃ s', tlsioOpensslSetoption option s = .ret 0 s'

theorem atRest_of_released {s : TlsIo} (h : s.inst.ssl = none ∧ s.inst.sslContext = none) :
    AtRest s where
  released := h
  settable := by
    intro option hoption
    have hset : ∀ f, ∃ s', setWhileDisconnected f s = .ret 0 s' := by
      intro f
      refine ⟨f s, ?_⟩
      show (if s.inst.sslContext ≠ none then (pure failure : TlsComp Int)
        else (do Comp.modify f; pure 0)) s = _
      rw [if_neg (not_not.2 h.2)]
      rfl
    cases option with
    | tlsVersion version => exact hset _
    | disableCrlCheck value => exact hset _
    | continueOnCrlDownloadFailure value => exact hset _
    | sslCrlMaxSizeInKb value => exact hset _
    | disableDefaultVerifyPaths value => exact hset _
    | _ => cases hoption

/-! ## The condition -/

def noEngine (s : TlsIo) : Bool :=
  s.inst.ssl.isNone && s.inst.sslContext.isNone

/-- Somebody hears that the attempt is given up: the user, who can close, or the caller of `xio_open`,
which can fail. -/
def isHeard (s : TlsIo) : Bool :=
  0 < s.openDepth || s.inst.onIoOpenComplete.isSome

/-- The user opens and closes in his callbacks. -/
def Proc.isOpenOrClose : Proc → Bool
  | .tlsioOpensslOpen _ | .tlsioOpensslClose _ => true
  | _ => false

/-- The condition on the start of a function: an attempt that was given up is closed before the next open,
which does not come inside a close complete; bytes come while the io is open. -/
def runsInStep (p : Proc) (s : TlsIo) : Bool :=
  match p with
  | .tlsioOpensslOpen _ =>
    s.inst.tlsioState != .tlsioStateNotOpen || (!s.givenUp && s.closeCompleteDepth == 0)
  | .onUnderlyingIoBytesReceived _ => s.ioOpen
  | .onUnderlyingIoOpenComplete openResult =>
    (s.inst.tlsioState == .tlsioStateOpeningUnderlyingIo && openResult.result == .ioOpenOk) ||
      s.inst.tlsioState == .tlsioStateNotOpen || isHeard s
  | .onUnderlyingIoError => !isAnOpeningState s.inst.tlsioState || isHeard s
  | .onUnderlyingIoCloseComplete =>
    s.inst.tlsioState != .tlsioStateInHandshake && s.inst.tlsioState != .tlsioStateOpen
  | _ => true

/-- The condition on the return of a call: the user closes before he returns from the report of a failed
attempt, unless `xio_open` is still to return; that does not succeed where the attempt was given up and
nobody has closed. -/
def answersInStep (c : Call) (r : Ans c) (s : TlsIo) : Bool :=
  match c, r with
  | .create .loadSystemStore, r | .create .setupCrlCheck, r => r
  | .xioOpen, r => r != (0 : Int) || !s.givenUp
  | .onIoOpenComplete _ _ .ioOpenComplete, _ | .onIoOpenComplete _ _ .ioError, _ =>
    !s.givenUp || 0 < s.openDepth
  | _, _ => true

def inStepRun : Env TlsIo tlsioOpensslSignature where
  mayEnter := (runsWith Proc.isOpenOrClose).mayEnter
  mayAnswer := answersInStep
  mayRun := runsInStep

/-! ## The invariant -/

/-- The open that has made the SSL object. -/
def TlsIo.sslId (s : TlsIo) : Option Nat :=
  s.inst.ssl.map Ssl.openId

/-- An open io has its SSL object.  Without a connection there are no objects, unless the attempt was given
up and nobody has closed yet, or a close complete is about to free them. -/
structure EngineInvariant (s : TlsIo) : Prop where
  faultless : Faultless s
  own : s.inst.tlsioState.usesSsl = true → s.sslId = some s.currentOpen
  bios : ∀ k, s.sslId = some k → s.inst.inBio = some k ∧ s.inst.outBio = some k
  reading : s.ioOpen = true → s.sslId ≠ none
  resting : s.inst.tlsioState = .tlsioStateNotOpen →
    noEngine s = true ∨ s.givenUp = true ∨ 0 < s.closeCompleteDepth

def EngineSettled (s : TlsIo) : Prop :=
  s.givenUp = false ∨ 0 < s.openDepth

/-- What code does for its callers. -/
structure EngineRely (s s' : TlsIo) : Prop where
  openDepth : s'.openDepth = s.openDepth
  closeCompleteDepth : s'.closeCompleteDepth = s.closeCompleteDepth
  settled : EngineSettled s → EngineSettled s'
  unused : 0 < s.closeCompleteDepth → s.inst.tlsioState.usesSsl = false →
    s'.inst.tlsioState.usesSsl = false

/-- Nothing that matters here has changed. -/
structure SameEngine (s s' : TlsIo) : Prop where
  state : s'.inst.tlsioState = s.inst.tlsioState
  sslId : s'.sslId = s.sslId
  context : s'.inst.sslContext = s.inst.sslContext
  inBio : s'.inst.inBio = s.inst.inBio
  outBio : s'.inst.outBio = s.inst.outBio
  currentOpen : s'.currentOpen = s.currentOpen
  openDepth : s'.openDepth = s.openDepth
  closeCompleteDepth : s'.closeCompleteDepth = s.closeCompleteDepth
  ioOpen : s'.ioOpen = s.ioOpen
  givenUp : s'.givenUp = s.givenUp
  log : ∃ evs, s'.log = s.log ++ evs ∧ ∀ ev ∈ evs, ev.engineFault = false

section

variable {s s' s'' : TlsIo}

theorem SameEngine.refl (s : TlsIo) : SameEngine s s where
  state := rfl
  sslId := rfl
  context := rfl
  inBio := rfl
  outBio := rfl
  currentOpen := rfl
  openDepth := rfl
  closeCompleteDepth := rfl
  ioOpen := rfl
  givenUp := rfl
  log := ⟨[], by simp, nofun⟩

theorem SameEngine.trans (h : SameEngine s s') (h' : SameEngine s' s'') : SameEngine s s'' where
  state := h'.state.trans h.state
  sslId := h'.sslId.trans h.sslId
  context := h'.context.trans h.context
  inBio := h'.inBio.trans h.inBio
  outBio := h'.outBio.trans h.outBio
  currentOpen := h'.currentOpen.trans h.currentOpen
  openDepth := h'.openDepth.trans h.openDepth
  closeCompleteDepth := h'.closeCompleteDepth.trans h.closeCompleteDepth
  ioOpen := h'.ioOpen.trans h.ioOpen
  givenUp := h'.givenUp.trans h.givenUp
  log := by
    rcases h.log with ⟨evs, hevs, hfaults⟩
    rcases h'.log with ⟨evs', hevs', hfaults'⟩
    refine ⟨evs ++ evs', by rw [hevs', hevs, List.append_assoc], ?_⟩
    intro ev hev
    rcases List.mem_append.1 hev with hev | hev
    · exact hfaults ev hev
    · exact hfaults' ev hev

theorem SameEngine.record {ev : Event} (hev : ev.engineFault = false) :
    SameEngine s (s.record ev) :=
  { SameEngine.refl s with log := ⟨[ev], rfl, by simpa using hev⟩ }

theorem SameEngine.stepSsl (operation : SslOperation) (written : List OutgoingByte) :
    SameEngine s (s.stepSsl operation written) := by
  unfold TlsIo.stepSsl
  cases hssl : s.inst.ssl with
  | none => exact .refl s
  | some ssl =>
    exact { SameEngine.refl s with
      sslId := by simp [TlsIo.sslId, hssl, TlsIo.record, TlsIo.setInst]
      log := ⟨[_], rfl, by simp [Event.engineFault]⟩ }

theorem SameEngine.takeOutgoing (count : Nat) : SameEngine s (s.takeOutgoing count) := by
  unfold TlsIo.takeOutgoing
  cases hssl : s.inst.ssl with
  | none => exact .refl s
  | some ssl =>
    exact { SameEngine.refl s with
      sslId := by simp [TlsIo.sslId, hssl, TlsIo.setInst] }

theorem SameEngine.handOver (purpose : WritePurpose) (bytes : List OutgoingByte) :
    SameEngine s (s.handOver purpose bytes) :=
  { SameEngine.refl s with log := ⟨[_], rfl, by simp [Event.engineFault]⟩ }

theorem SameEngine.sendReturned (n : Nat) (r : Int) : SameEngine s (s.sendReturned n r) :=
  { SameEngine.refl s with log := ⟨[], (List.append_nil _).symm, nofun⟩ }

theorem SameEngine.of_eq (hinst : s'.inst = s.inst) (hcurrent : s'.currentOpen = s.currentOpen)
    (hdepth : s'.openDepth = s.openDepth) (hcloses : s'.closeCompleteDepth = s.closeCompleteDepth)
    (hopen : s'.ioOpen = s.ioOpen) (hgivenUp : s'.givenUp = s.givenUp) (hlog : s'.log = s.log) :
    SameEngine s s' where
  state := by rw [hinst]
  sslId := by rw [TlsIo.sslId, hinst, TlsIo.sslId]
  context := by rw [hinst]
  inBio := by rw [hinst]
  outBio := by rw [hinst]
  currentOpen := hcurrent
  openDepth := hdepth
  closeCompleteDepth := hcloses
  ioOpen := hopen
  givenUp := hgivenUp
  log := ⟨[], by rw [hlog, List.append_nil], nofun⟩

theorem SameEngine.endAttempt : SameEngine s s.endAttempt :=
  .of_eq rfl rfl rfl rfl rfl rfl rfl

theorem noEngine_iff : noEngine s = true ↔ s.sslId = none ∧ s.inst.sslContext = none := by
  simp [noEngine, TlsIo.sslId]

theorem SameEngine.noEngine (hs : SameEngine s s') : noEngine s' = noEngine s := by
  rw [Bool.eq_iff_iff, noEngine_iff, noEngine_iff, hs.sslId, hs.context]

theorem EngineInvariant.same (h : EngineInvariant s) (hs : SameEngine s s') :
    EngineInvariant s' where
  faultless := by
    rcases hs.log with ⟨evs, hevs, hfaults⟩
    intro ev hev
    rw [hevs] at hev
    rcases List.mem_append.1 hev with hev | hev
    · exact h.faultless ev hev
    · exact hfaults ev hev
  own := by
    rw [hs.state, hs.sslId, hs.currentOpen]
    exact h.own
  bios := by
    rw [hs.sslId, hs.inBio, hs.outBio]
    exact h.bios
  reading := by
    rw [hs.ioOpen, hs.sslId]
    exact h.reading
  resting := by
    rw [hs.state, hs.noEngine, hs.givenUp, hs.closeCompleteDepth]
    exact h.resting

theorem EngineSettled.same (h : EngineSettled s) (hs : SameEngine s s') : EngineSettled s' := by
  rw [EngineSettled, hs.givenUp, hs.openDepth]
  exact h

theorem EngineInvariant.setState (h : EngineInvariant s) {state : TlsioState}
    (hown : state.usesSsl = true → s.sslId = some s.currentOpen)
    (hresting : state = .tlsioStateNotOpen →
      noEngine s = true ∨ s.givenUp = true ∨ 0 < s.closeCompleteDepth) :
    EngineInvariant (s.setState state) where
  faultless := h.faultless
  own := hown
  bios := h.bios
  reading := h.reading
  resting := hresting

theorem EngineRely.refl (s : TlsIo) : EngineRely s s where
  openDepth := rfl
  closeCompleteDepth := rfl
  settled := id
  unused _ := id

theorem EngineRely.trans (h : EngineRely s s') (h' : EngineRely s' s'') : EngineRely s s'' where
  openDepth := h'.openDepth.trans h.openDepth
  closeCompleteDepth := h'.closeCompleteDepth.trans h.closeCompleteDepth
  settled hset := h'.settled (h.settled hset)
  unused hdepth huses := h'.unused (h.closeCompleteDepth ▸ hdepth) (h.unused hdepth huses)

theorem SameEngine.rely (hs : SameEngine s s') : EngineRely s s' where
  openDepth := hs.openDepth
  closeCompleteDepth := hs.closeCompleteDepth
  settled hset := hset.same hs
  unused _ huses := hs.state ▸ huses

theorem engineRely_setState {state : TlsioState}
    (huses : s.inst.tlsioState.usesSsl = false → state.usesSsl = false) :
    EngineRely s (s.setState state) where
  openDepth := rfl
  closeCompleteDepth := rfl
  settled := id
  unused _ := huses

/-- The objects are freed, and the io is closed. -/
structure Freed (s s' : TlsIo) : Prop where
  noEngine : noEngine s' = true
  ioOpen : s'.ioOpen = false
  givenUp : s'.givenUp = false
  unused : s'.inst.tlsioState.usesSsl = false
  openDepth : s'.openDepth = s.openDepth
  log : s'.log = s.log

theorem EngineInvariant.freed (h : EngineInvariant s) (hfreed : Freed s s') :
    EngineInvariant s' where
  faultless := by
    unfold Faultless
    rw [hfreed.log]
    exact h.faultless
  own hstate := absurd hstate (by simp [hfreed.unused])
  bios := by
    intro k hk
    rw [(noEngine_iff.1 hfreed.noEngine).1] at hk
    cases hk
  reading hopen := absurd hopen (by simp [hfreed.ioOpen])
  resting _ := .inl hfreed.noEngine

theorem Freed.rely {s₀ : TlsIo} (hfreed : Freed s s') (hdepth : s.openDepth = s₀.openDepth)
    (hcloses : s'.closeCompleteDepth = s₀.closeCompleteDepth) : EngineRely s₀ s' where
  openDepth := hfreed.openDepth.trans hdepth
  closeCompleteDepth := hcloses
  settled _ := .inl hfreed.givenUp
  unused _ _ := hfreed.unused

theorem freed_closed (s : TlsIo) :
    Freed s (s.closeOpensslInstance.setState .tlsioStateNotOpen).closed :=
  ⟨rfl, rfl, rfl, rfl, rfl, rfl⟩

theorem freed_notClosing (s : TlsIo) :
    Freed s (TlsIo.setState { s.closeOpensslInstance.closed with ioClosing := false }
      .tlsioStateNotOpen) :=
  ⟨rfl, rfl, rfl, rfl, rfl, rfl⟩

theorem freed_closeCompleted (huses : s.inst.tlsioState.usesSsl = false) :
    Freed s s.closeOpensslInstance.closeCompleted :=
  ⟨rfl, rfl, rfl, huses, rfl, rfl⟩

theorem EngineInvariant.owns (h : EngineInvariant s) (hstate : s.inst.tlsioState.usesSsl = true) :
    s.inst.owns s.inst.outBio = true := by
  have hown := h.own hstate
  have hbios := h.bios _ hown
  rw [TlsIo.sslId, Option.map_eq_some_iff] at hown
  rcases hown with ⟨ssl, hssl, hid⟩
  simp [TlsIoInstance.owns, hssl, hbios.2, hid]

theorem EngineInvariant.ownsInBio (h : EngineInvariant s) (hopen : s.ioOpen = true) :
    s.inst.owns s.inst.inBio = true := by
  rcases Option.ne_none_iff_exists'.1 (h.reading hopen) with ⟨k, hk⟩
  have hbios := h.bios k hk
  rw [TlsIo.sslId, Option.map_eq_some_iff] at hk
  rcases hk with ⟨ssl, hssl, hid⟩
  simp [TlsIoInstance.owns, hssl, hbios.1, hid]

theorem useBio_of_owns {bio : Option Nat} (h : s.inst.owns bio = true) : s.useBio bio = s := by
  simp [TlsIo.useBio, h]

theorem EngineInvariant.ssl (h : EngineInvariant s) (hstate : s.inst.tlsioState.usesSsl = true) :
    ∃ ssl, s.inst.ssl = some ssl := by
  have hown := h.own hstate
  rw [TlsIo.sslId, Option.map_eq_some_iff] at hown
  rcases hown with ⟨ssl, hssl, -⟩
  exact ⟨ssl, hssl⟩

end

/-! ## Every function -/

def inStep : RelyGuarantee TlsIo tlsioOpensslSignature where
  env := inStepRun
  reenters := Call.reenters
  nested _ := true
  always := Faultless
  inv := EngineInvariant
  settled s := EngineSettled s ∧ s.openDepth = 0 ∧ s.closeCompleteDepth = 0
  rely := EngineRely

section

variable {α : Type} {s s' : TlsIo} {config : TlsioConfig}

/-- The code keeps the invariant, and what was settled. -/
def KeepsEngine (c : TlsComp α) (s : TlsIo) : Prop :=
  wp inStep.spec c (fun _ s' => EngineInvariant s' ∧ EngineRely s s') s

theorem KeepsEngine.after {c : TlsComp α} (h : KeepsEngine c s') (hrely : EngineRely s s') :
    wp inStep.spec c (fun _ s'' => EngineInvariant s'' ∧ EngineRely s s'') s' :=
  wp_mono (fun _ _ hs'' => ⟨hs''.1, hrely.trans hs''.2⟩) h

theorem wp_engineCall {c : Call} {Q : Ans c → TlsIo → Prop} (hc : c.reenters = true)
    (h : EngineInvariant s)
    (hQ : ∀ r s', answersInStep c r s' = true → EngineInvariant s' →
      EngineRely s s' → Q r s') :
    wp inStep.spec (callOut c) Q s := by
  have hs : SameEngine s (s.record (.call s.currentOpen c)) := .record rfl
  apply wp_callOut hc (h.same hs)
  intro r s' hans hlater
  exact hQ r s' hans hlater.inv (hs.rely.trans hlater.rely)

theorem wp_engineReport {openResult : IoOpenResultDetailed} {site : ReportSite}
    {Q : Unit → TlsIo → Prop} (h : EngineInvariant s)
    (hnull : s.inst.onIoOpenComplete = none → Q () s)
    (hcall : ∀ cb s', answersInStep (.onIoOpenComplete cb openResult site) () s' = true →
      EngineInvariant s' → EngineRely s s' → Q () s') :
    wp inStep.spec (indicateOpenComplete openResult site) Q s := by
  apply wp_indicateOpenComplete hnull
  intro cb _
  apply wp_engineCall rfl h
  intro _ s' hans hinv hrely
  exact hcall cb s' hans hinv hrely

theorem indicateError_keepsEngine (h : EngineInvariant s) : KeepsEngine indicateError s := by
  apply wp_indicateError
  case hnull =>
    intro _
    exact ⟨h, .refl s⟩
  case hcall =>
    intro cb _
    apply wp_engineCall rfl h
    intro _ s' _ hinv hrely
    exact ⟨hinv, hrely⟩

theorem writeOutgoingBytes_keepsEngine (h : EngineInvariant s)
    (hstate : s.inst.tlsioState.usesSsl = true) (purpose : WritePurpose) :
    KeepsEngine (writeOutgoingBytes purpose) s := by
  apply wp_writeOutgoingBytes (useBio_of_owns (h.owns hstate)) rfl (fun _ => rfl) (fun _ _ => rfl)
    h.faultless
  case hempty =>
    intro _
    exact ⟨h, .refl s⟩
  case hnoMemory =>
    intro _ _
    exact ⟨h, .refl s⟩
  case hnotRead =>
    intro count _ _
    have hs : SameEngine s (s.takeOutgoing count.toNat) := .takeOutgoing _
    exact ⟨h.same hs, hs.rely⟩
  case hsent =>
    rintro _ s₂ rfl
    let n := s.inst.pending.length
    have hs : SameEngine s ((s.takeOutgoing n).handOver purpose s.inst.pending) :=
      (SameEngine.takeOutgoing n).trans (.handOver _ _)
    refine ⟨h.same hs, ?_⟩
    intro r s' _ hlater
    have hs' : SameEngine s' (s'.sendReturned (s.takeOutgoing n).handed.length r) :=
      .sendReturned _ _
    exact ⟨hlater.inv.same hs', (hs.rely.trans hlater.rely).trans hs'.rely⟩

theorem failHandshake_keepsEngine (h : EngineInvariant s) :
    EngineInvariant (s.endAttempt.setState .tlsioStateHandshakeFailed) ∧
      EngineRely s (s.endAttempt.setState .tlsioStateHandshakeFailed) :=
  ⟨(h.same .endAttempt).setState nofun nofun,
    SameEngine.endAttempt.rely.trans (engineRely_setState fun _ => rfl)⟩

theorem handshakeStepped_keepsEngine (h : EngineInvariant s)
    (hstate : s.inst.tlsioState = .tlsioStateInHandshake) (result : HandshakeResult) :
    KeepsEngine (handshakeStepped result) s := by
  have huses : s.inst.tlsioState.usesSsl = true := by simp [hstate, TlsioState.usesSsl]
  have hown : s.sslId = some s.currentOpen := h.own huses
  cases result with
  | success =>
    let s₁ := s.endAttempt.setState .tlsioStateOpen
    have hinv : EngineInvariant s₁ := (h.same .endAttempt).setState (fun _ => hown) nofun
    have hused : EngineRely s.endAttempt s₁ :=
      engineRely_setState fun hunused => Bool.noConfusion (huses.symm.trans hunused)
    have hrely : EngineRely s s₁ := SameEngine.endAttempt.rely.trans hused
    simp only [KeepsEngine, handshakeStepped, wp_bind, wp_modify, wp_setTlsioState]
    apply wp_engineReport hinv
    case hnull =>
      intro _
      exact ⟨hinv, hrely⟩
    case hcall =>
      intro cb s' _ hinv' hrely'
      exact ⟨hinv', hrely.trans hrely'⟩
  | error sslError =>
    simp only [KeepsEngine, handshakeStepped, wp_ite, wp_failHandshake, wp_bind]
    split
    · exact failHandshake_keepsEngine h
    · refine wp_mono ?_ (writeOutgoingBytes_keepsEngine h huses .handshake)
      rintro r s' ⟨hinv', hrely'⟩
      split
      · have hfail := failHandshake_keepsEngine hinv'
        exact ⟨hfail.1, hrely'.trans hfail.2⟩
      · exact ⟨hinv', hrely'⟩

theorem sendHandshakeBytes_keepsEngine (h : EngineInvariant s)
    (hstate : s.inst.tlsioState = .tlsioStateInHandshake) :
    KeepsEngine sendHandshakeBytes s := by
  rcases h.ssl (by simp [hstate, TlsioState.usesSsl]) with ⟨ssl, hssl⟩
  simp only [KeepsEngine, sendHandshakeBytes, wp_bind, wp_getInst, hssl]
  apply wp_ask rfl h.faultless
  intro step _
  simp only [wp_modify]
  have hs : SameEngine s (s.stepSsl .sslDoHandshake (protocolBytes step.written)) := .stepSsl _ _
  have hkeeps := handshakeStepped_keepsEngine (h.same hs) (hs.state.trans hstate) step.result
  exact hkeeps.after hs.rely

theorem onUnderlyingIoCloseComplete_keepsEngine (h : EngineInvariant s)
    (hrun : runsInStep .onUnderlyingIoCloseComplete s = true) :
    KeepsEngine onUnderlyingIoCloseComplete s := by
  let s₁ := s.ioClosed
  have hinv : EngineInvariant s₁ :=
    { h with resting := fun _ => .inr (.inr (Nat.succ_pos _)) }
  have hrun : s.inst.tlsioState ≠ .tlsioStateInHandshake ∧
      s.inst.tlsioState ≠ .tlsioStateOpen := by
    simpa [runsInStep] using hrun
  -- What is left when the objects are freed.
  have hfree : ∀ s', EngineInvariant s' → s'.inst.tlsioState.usesSsl = false →
      s'.openDepth = s.openDepth → s'.closeCompleteDepth = s.closeCompleteDepth + 1 →
        EngineInvariant s'.closeOpensslInstance.closeCompleted ∧
          EngineRely s s'.closeOpensslInstance.closeCompleted := by
    intro s' hinv' huses hdepth hcloses
    have hfreed := freed_closeCompleted huses
    refine ⟨hinv'.freed hfreed, hfreed.rely hdepth ?_⟩
    show s'.closeCompleteDepth - 1 = s.closeCompleteDepth
    omega
  have hclosed : EngineInvariant (s₁.setState .tlsioStateNotOpen) :=
    hinv.setState nofun fun _ => .inr (.inr (Nat.succ_pos _))
  -- The user does not open before it returns.
  have hreported : ∀ s', EngineInvariant s' → EngineRely (s₁.setState .tlsioStateNotOpen) s' →
      EngineInvariant s'.closeOpensslInstance.closeCompleted ∧
        EngineRely s s'.closeOpensslInstance.closeCompleted := by
    intro s' hinv' hrely
    exact hfree s' hinv' (hrely.unused (Nat.succ_pos _) rfl) hrely.openDepth
      hrely.closeCompleteDepth
  simp only [KeepsEngine, onUnderlyingIoCloseComplete, wp_bind, wp_modify, wp_getInst]
  show wp _ (closeCompleteIn s₁.inst.tlsioState) _ s₁
  cases hstate : s₁.inst.tlsioState with
  | tlsioStateOpeningUnderlyingIo =>
    simp only [closeCompleteIn, wp_bind, wp_setTlsioState]
    apply wp_engineReport hclosed
    case hnull =>
      intro _
      exact hreported _ hclosed (.refl _)
    case hcall =>
      intro cb s' _ hinv' hrely
      exact hreported s' hinv' hrely
  | tlsioStateClosing =>
    simp only [closeCompleteIn, wp_bind, wp_setTlsioState, wp_get]
    cases (s₁.setState .tlsioStateNotOpen).inst.onIoCloseComplete with
    | none => exact hreported _ hclosed (.refl _)
    | some cb =>
      apply wp_engineCall rfl hclosed
      intro _ s' _ hinv' hrely
      exact hreported s' hinv' hrely
  | tlsioStateInHandshake => exact absurd hstate hrun.1
  | tlsioStateOpen => exact absurd hstate hrun.2
  | tlsioStateNotOpen => exact hfree s₁ hinv (by simp [hstate, TlsioState.usesSsl]) rfl rfl
  | tlsioStateHandshakeFailed => exact hfree s₁ hinv (by simp [hstate, TlsioState.usesSsl]) rfl rfl
  | tlsioStateError => exact hfree s₁ hinv (by simp [hstate, TlsioState.usesSsl]) rfl rfl

theorem EngineInvariant.givenUp (h : EngineInvariant s) :
    EngineInvariant (s.giveUp.setState .tlsioStateNotOpen) where
  faultless := h.faultless
  own := nofun
  bios := h.bios
  reading := h.reading
  resting := by
    intro _
    show noEngine s = true ∨ (s.givenUp || s.inst.tlsioState != .tlsioStateNotOpen) = true ∨
      0 < s.closeCompleteDepth
    by_cases hstate : s.inst.tlsioState = .tlsioStateNotOpen
    · rw [hstate, bne_self_eq_false, Bool.or_false]
      exact h.resting hstate
    · right
      left
      rw [bne_iff_ne.2 hstate, Bool.or_true]

theorem giveUp_keepsEngine (h : EngineInvariant s)
    (hheard : s.inst.tlsioState = .tlsioStateNotOpen ∨ isHeard s = true)
    (openResult : IoOpenResultDetailed) {site : ReportSite}
    (hsite : site = .ioOpenComplete ∨ site = .ioError) :
    wp inStep.spec (indicateOpenComplete openResult site)
      (fun _ s' => EngineInvariant s' ∧ EngineRely s s')
      (s.giveUp.setState .tlsioStateNotOpen) := by
  apply wp_engineReport h.givenUp
  case hnull =>
    intro hnull
    have hnull : s.inst.onIoOpenComplete = none := hnull
    refine ⟨h.givenUp, rfl, rfl, fun hset => ?_, fun _ _ => rfl⟩
    rcases hheard with hstate | hheard
    · -- Nothing was given up.
      have hsame : s.giveUp.givenUp = s.givenUp := by
        rw [TlsIo.giveUp, hstate, bne_self_eq_false, Bool.or_false]
      exact hset.imp_left fun hnot => hsame.trans hnot
    · right
      show 0 < s.openDepth
      simpa [isHeard, hnull] using hheard
  case hcall =>
    intro cb s' hans hinv' hrely
    refine ⟨hinv', hrely.openDepth, hrely.closeCompleteDepth, fun _ => ?_,
      fun hdepth _ => hrely.unused hdepth rfl⟩
    rcases hsite with rfl | rfl
    · simpa [answersInStep, EngineSettled] using hans
    · simpa [answersInStep, EngineSettled] using hans

theorem onUnderlyingIoOpenComplete_keepsEngine (h : EngineInvariant s)
    (openResult : IoOpenResultDetailed)
    (hrun : runsInStep (.onUnderlyingIoOpenComplete openResult) s = true) :
    KeepsEngine (onUnderlyingIoOpenComplete openResult) s := by
  simp only [KeepsEngine, onUnderlyingIoOpenComplete, wp_bind, wp_getInst, wp_ite]
  split
  case isTrue hok =>
    simp only [wp_setTlsioState]
    have hown : s.sslId = some s.currentOpen := h.own (by simp [hok.1, TlsioState.usesSsl])
    have hinv : EngineInvariant (s.setState .tlsioStateInHandshake) :=
      h.setState (fun _ => hown) (by rintro ⟨⟩)
    have hrely : EngineRely s (s.setState .tlsioStateInHandshake) :=
      engineRely_setState fun hunused => by simp [hok.1, TlsioState.usesSsl] at hunused
    exact (sendHandshakeBytes_keepsEngine hinv rfl).after hrely
  case isFalse hbad =>
    simp only [wp_modify, wp_setTlsioState]
    have hheard : s.inst.tlsioState = .tlsioStateNotOpen ∨ isHeard s = true := by
      simp only [runsInStep, Bool.or_eq_true, Bool.and_eq_true, beq_iff_eq, or_assoc] at hrun
      exact hrun.resolve_left hbad
    have hkeeps := giveUp_keepsEngine (h.same .endAttempt) hheard
      { openResult with result := .ioOpenError } (.inl rfl)
    refine wp_mono ?_ hkeeps
    intro _ s' hs'
    exact ⟨hs'.1, SameEngine.endAttempt.rely.trans hs'.2⟩

theorem onUnderlyingIoError_keepsEngine (h : EngineInvariant s)
    (hrun : runsInStep .onUnderlyingIoError s = true) : KeepsEngine onUnderlyingIoError s := by
  have hs : SameEngine s s.endAttempt := .endAttempt
  have hinv : EngineInvariant s.endAttempt := h.same hs
  have hgiveUp : isAnOpeningState s.endAttempt.inst.tlsioState = true →
      wp inStep.spec (indicateOpenComplete { result := .ioOpenError, code := failure } .ioError)
        (fun _ s' => EngineInvariant s' ∧ EngineRely s s')
        (s.endAttempt.giveUp.setState .tlsioStateNotOpen) := by
    intro hopening
    have hopening : isAnOpeningState s.inst.tlsioState = true := hopening
    have hheard : isHeard s = true := by simpa [runsInStep, hopening] using hrun
    refine wp_mono ?_ (giveUp_keepsEngine hinv (.inr hheard) _ (.inr rfl))
    intro _ s' hs'
    exact ⟨hs'.1, hs.rely.trans hs'.2⟩
  simp only [KeepsEngine, onUnderlyingIoError, wp_bind, wp_modify, wp_getInst]
  cases hstate : s.endAttempt.inst.tlsioState with
  | tlsioStateOpeningUnderlyingIo => exact hgiveUp (by rw [hstate]; rfl)
  | tlsioStateInHandshake => exact hgiveUp (by rw [hstate]; rfl)
  | tlsioStateOpen =>
    simp only [wp_bind, wp_modify]
    have hs' : SameEngine s s.endAttempt.failInPlace :=
      (hs.trans (.record rfl)).trans (.of_eq rfl rfl rfl rfl rfl rfl rfl)
    exact ((indicateError_keepsEngine (h.same hs')).after hs'.rely)
  | tlsioStateNotOpen => exact ⟨hinv, hs.rely⟩
  | tlsioStateHandshakeFailed => exact ⟨hinv, hs.rely⟩
  | tlsioStateClosing => exact ⟨hinv, hs.rely⟩
  | tlsioStateError => exact ⟨hinv, hs.rely⟩

theorem nextRound_keepsEngine (h : EngineInvariant s) :
    KeepsEngine (Comp.proc .decodeSslReceivedBytes) s := by
  apply RelyGuarantee.wp_nested rfl h trivial
  intro r s' hlater
  exact ⟨hlater.inv, hlater.rely⟩

theorem sslReadReturned_keepsEngine (h : EngineInvariant s) (result : ReadResult) :
    KeepsEngine (sslReadReturned result) s := by
  cases result with
  | received bytes =>
    simp only [KeepsEngine, sslReadReturned, wp_bind, wp_getInst]
    cases s.inst.onBytesReceived with
    | none => exact nextRound_keepsEngine h
    | some cb =>
      simp only [wp_bind]
      apply wp_engineCall rfl h
      intro _ s' _ hinv hrely
      exact (nextRound_keepsEngine hinv).after hrely
  | error sslError =>
    simp only [KeepsEngine, sslReadReturned, wp_ite, wp_bind, wp_modify, wp_pure]
    split
    · have hs : SameEngine s s.fail := .record rfl
      exact ⟨h.same hs, hs.rely⟩
    · exact ⟨h, .refl s⟩

theorem decodeSslReceivedBytes_keepsEngine (h : EngineInvariant s) :
    KeepsEngine decodeSslReceivedBytes s := by
  simp only [KeepsEngine, decodeSslReceivedBytes, wp_bind, wp_getInst, wp_ite]
  split
  · cases s.inst.ssl with
    | none => exact ⟨h, .refl s⟩
    | some ssl =>
      simp only [wp_bind]
      apply wp_ask rfl h.faultless
      intro step _
      simp only [wp_modify]
      have hs : SameEngine s (s.stepSsl .sslRead (protocolBytes step.written)) := .stepSsl _ _
      exact ((sslReadReturned_keepsEngine (h.same hs) step.result).after hs.rely)
  · exact ⟨h, .refl s⟩

theorem indicateFailure_keepsEngine (h : EngineInvariant s) :
    wp inStep.spec indicateError
      (fun _ s' => EngineInvariant s' ∧ EngineRely s s')
      (s.setState .tlsioStateError) := by
  have hinv : EngineInvariant (s.setState .tlsioStateError) := h.setState nofun nofun
  exact (indicateError_keepsEngine hinv).after (engineRely_setState fun _ => rfl)

theorem bytesReceivedIn_keepsEngine (h : EngineInvariant s) :
    KeepsEngine (bytesReceivedIn s.inst.tlsioState) s := by
  unfold KeepsEngine
  cases hstate : s.inst.tlsioState with
  | tlsioStateInHandshake => exact sendHandshakeBytes_keepsEngine h hstate
  | tlsioStateOpen =>
    simp only [bytesReceivedIn, wp_bind]
    refine wp_mono ?_ (nextRound_keepsEngine h)
    rintro r s' ⟨hinv, hrely⟩
    simp only [wp_ite, wp_bind, wp_setTlsioState]
    split
    · refine wp_mono ?_ (indicateFailure_keepsEngine hinv)
      intro _ s'' hs''
      exact ⟨hs''.1, hrely.trans hs''.2⟩
    · exact ⟨hinv, hrely⟩
  | tlsioStateNotOpen => exact ⟨h, .refl s⟩
  | tlsioStateOpeningUnderlyingIo => exact ⟨h, .refl s⟩
  | tlsioStateHandshakeFailed => exact ⟨h, .refl s⟩
  | tlsioStateClosing => exact ⟨h, .refl s⟩
  | tlsioStateError => exact ⟨h, .refl s⟩

theorem onUnderlyingIoBytesReceived_keepsEngine (h : EngineInvariant s) (buffer : Bytes)
    (hrun : runsInStep (.onUnderlyingIoBytesReceived buffer) s = true) :
    KeepsEngine (onUnderlyingIoBytesReceived buffer) s := by
  simp only [KeepsEngine, onUnderlyingIoBytesReceived, wp_bind, wp_modify,
    useBio_of_owns (h.ownsInBio hrun)]
  apply wp_ask rfl h.faultless
  intro written _
  simp only [wp_modify, wp_bind, wp_ite, wp_getInst, wp_setTlsioState]
  let s₁ := s.stepSsl (.bioWrite (buffer.take written.toNat)) []
  have hs : SameEngine s s₁ := .stepSsl _ _
  split
  · have hs' : SameEngine s₁ s₁.refuseBytes := by
      unfold TlsIo.refuseBytes
      split
      · exact (SameEngine.record rfl).trans .endAttempt
      · exact .endAttempt
    refine wp_mono ?_ (indicateFailure_keepsEngine (h.same (hs.trans hs')))
    intro _ s' hs''
    exact ⟨hs''.1, (hs.trans hs').rely.trans hs''.2⟩
  · exact ((bytesReceivedIn_keepsEngine (h.same hs)).after hs.rely)

/-! ### The interface -/

/-- The engine of the open with number `k`, or none. -/
theorem EngineInvariant.made {k : Nat} {arguments : OpenArguments} {r : Int}
    (h : EngineInvariant s) (hnone : noEngine s = true)
    (hmade : EngineMade k (s.beginOpen k arguments) r s')
    (hgone : r ≠ 0 → s'.inst.sslContext = none) :
    EngineInvariant (if r = 0 then s' else s'.setState .tlsioStateNotOpen) := by
  have hnone : s.inst.ssl = none ∧ s.inst.sslContext = none := by
    simpa [noEngine] using hnone
  have hlog : s'.log = s.log := hmade.noneLost hnone.1 hnone.2
  rcases hmade.rest with ⟨_, _, _, _, hs'⟩
  have hcurrent : s'.currentOpen = k := by
    rw [hs']
    rfl
  have hfaultless : Faultless s' := by
    unfold Faultless
    rw [hlog]
    exact h.faultless
  split
  case isTrue hr =>
    rcases hmade.made hr with ⟨hssl, hin, hout⟩
    have hid : s'.sslId = some k := by simp [TlsIo.sslId, hssl]
    have hstate : s'.inst.tlsioState = .tlsioStateOpeningUnderlyingIo := by
      rw [hs']
      rfl
    exact {
      faultless := hfaultless
      own := fun _ => hid.trans (congrArg some hcurrent.symm)
      bios := by
        intro j hj
        rw [hid] at hj
        cases hj
        exact ⟨hin, hout⟩
      reading := by
        intro _ hgone
        rw [hid] at hgone
        cases hgone
      resting := by
        intro hclosed
        rw [hstate] at hclosed
        cases hclosed }
  case isFalse hr =>
    have hssl : s'.inst.ssl = none := hmade.notMade hr hnone.1
    have hclosed : s'.ioOpen = false := by
      have hio : s'.ioOpen = s.ioOpen := by
        rw [hs']
        rfl
      rw [hio, Bool.eq_false_iff]
      intro hopen
      exact h.reading hopen (by rw [TlsIo.sslId, hnone.1, Option.map_none])
    exact {
      faultless := hfaultless
      own := nofun
      bios := by
        intro j hj
        simp [TlsIo.sslId, TlsIo.setState, TlsIo.setInst, hssl] at hj
      reading := fun hopen => Bool.noConfusion (hclosed.symm.trans hopen)
      resting := fun _ => .inl (by
        simp [noEngine, TlsIo.setState, TlsIo.setInst, hssl, hgone hr]) }

theorem xioOpened_keepsEngine (h : EngineInvariant s) (hssl : s.sslId ≠ none) :
    wp inStep.spec xioOpen (fun r s' => EngineInvariant s' ∧ s'.openDepth = s.openDepth ∧
      s'.closeCompleteDepth = s.closeCompleteDepth ∧ (r = 0 → s'.givenUp = false)) s := by
  let s₁ : TlsIo := { s with openDepth := s.openDepth + 1, ioOpen := true }
  have hinv : EngineInvariant s₁ := { h with reading := fun _ => hssl }
  simp only [xioOpen, wp_bind, wp_modify]
  apply wp_engineCall rfl hinv
  intro r s' hans hinv' hrely
  have hdepth : s'.openDepth = s.openDepth + 1 := hrely.openDepth
  refine ⟨{ hinv' with }, ?_, hrely.closeCompleteDepth, ?_⟩
  · show s'.openDepth - 1 = s.openDepth
    omega
  · intro hr
    have hr : r = (0 : Int) := hr
    subst hr
    exact Bool.not_eq_true' _ ▸ hans

theorem openUnderlyingIo_keepsEngine (h : EngineInvariant s) {k : Nat} {arguments : OpenArguments}
    (hrun : runsInStep (.tlsioOpensslOpen arguments) s = true) :
    KeepsEngine (openUnderlyingIo config k arguments) s := by
  simp only [KeepsEngine, openUnderlyingIo, wp_bind, wp_getInst, wp_ite]
  split
  case isTrue => exact ⟨h, .refl s⟩
  case isFalse hstate =>
    have hstate : s.inst.tlsioState = .tlsioStateNotOpen := Decidable.not_not.1 hstate
    have hclosed : s.givenUp = false ∧ s.closeCompleteDepth = 0 := by
      simpa [runsInStep, hstate] using hrun
    -- Nothing was given up, and no close complete is under way.
    have hnone : noEngine s = true := by
      rcases h.resting hstate with hnone | hgivenUp | hdepth
      · exact hnone
      · exact Bool.noConfusion (hclosed.1.symm.trans hgivenUp)
      · omega
    have hfree : s.inst.ssl = none ∧ s.inst.sslContext = none := by simpa [noEngine] using hnone
    simp only [wp_modify]
    apply wp_createOpensslInstance
    case hlocal => exact fun _ => rfl
    case halways =>
      intro s' _ hlog
      show Faultless s'
      unfold Faultless
      rw [hlog hfree.1 hfree.2]
      exact h.faultless
    case hQ =>
      intro created s' hmade hgone
      have hgone : created ≠ 0 → s'.inst.sslContext = none := by
        intro hcreated
        rcases hgone with hgone | hgone | hgone | hgone
        · exact absurd hgone hcreated
        · exact hgone
        · exact Bool.noConfusion (show false = true from hgone)
        · exact Bool.noConfusion (show false = true from hgone)
      have hinv := EngineInvariant.made h hnone hmade hgone
      rcases hmade.rest with ⟨_, _, _, _, hs'⟩
      have hdepth : s'.openDepth = s.openDepth := by
        rw [hs']
        rfl
      have hcloses : s'.closeCompleteDepth = s.closeCompleteDepth := by
        rw [hs']
        rfl
      have hgivenUp : s'.givenUp = s.givenUp := by
        rw [hs']
        rfl
      simp only [wp_ite, wp_bind, wp_setTlsioState]
      split
      case isTrue hcreated =>
        rw [if_neg hcreated] at hinv
        exact ⟨hinv, hdepth, hcloses, fun _ => .inl (hgivenUp.trans hclosed.1), fun _ _ => rfl⟩
      case isFalse hcreated =>
        have hcreated : created = 0 := Decidable.not_not.1 hcreated
        have hssl : s'.sslId ≠ none := by
          rw [TlsIo.sslId, (hmade.made hcreated).1]
          rintro ⟨⟩
        rw [if_pos hcreated] at hinv
        refine wp_mono ?_ (xioOpened_keepsEngine hinv hssl)
        rintro r s'' ⟨hinv', hdepth', hcloses', hgivenUp'⟩
        have hcloses'' : s''.closeCompleteDepth = s.closeCompleteDepth := hcloses'.trans hcloses
        split
        · simp only [wp_bind, wp_closeOpensslInstance, wp_setTlsioState, wp_modify]
          have hfreed := freed_closed s''
          exact ⟨hinv'.freed hfreed, hfreed.rely (hdepth'.trans hdepth) hcloses''⟩
        · rename_i hr
          refine ⟨hinv', hdepth'.trans hdepth, hcloses'',
            fun _ => .inl (hgivenUp' (Decidable.not_not.1 hr)), fun hpositive _ => ?_⟩
          omega

theorem tlsioOpensslOpen_keepsEngine (h : EngineInvariant s) (arguments : OpenArguments)
    (hrun : runsInStep (.tlsioOpensslOpen arguments) s = true) :
    KeepsEngine (tlsioOpensslOpen config arguments) s := by
  let s₁ : TlsIo := { s with openCalls := s.openCalls + 1 }
  have hs : SameEngine s s₁ := .of_eq rfl rfl rfl rfl rfl rfl rfl
  simp only [KeepsEngine, tlsioOpensslOpen, wp_bind, wp_modify, wp_get]
  refine wp_mono ?_ (openUnderlyingIo_keepsEngine (h.same hs) hrun)
  rintro r s' ⟨hinv, hrely⟩
  have hs' : SameEngine s' (s'.record (.openReturned s₁.openCalls r)) := .record rfl
  exact ⟨hinv.same hs', (hs.rely.trans hrely).trans hs'.rely⟩

theorem cancelOpen_keepsEngine (h : EngineInvariant s) (state : TlsioState) :
    KeepsEngine (cancelOpen state) s := by
  simp only [KeepsEngine, cancelOpen, wp_ite, wp_bind, wp_getInst]
  split
  · cases s.inst.onIoOpenComplete with
    | none =>
      have hs : SameEngine s (s.record (.fault .callbackNull)) := .record rfl
      exact ⟨h.same hs, hs.rely⟩
    | some cb =>
      apply wp_engineCall rfl h
      intro _ s' _ hinv hrely
      exact ⟨hinv, hrely⟩
  · exact ⟨h, .refl s⟩

theorem shutDown_keepsEngine (h : EngineInvariant s) (j : Nat)
    (onIoCloseComplete : Option Callback) : KeepsEngine (shutDown j onIoCloseComplete) s := by
  simp only [KeepsEngine, shutDown, wp_bind, wp_getInst, wp_ite]
  split
  · let s₁ := s.beginClosing j onIoCloseComplete
    have hinv : EngineInvariant s₁ := { h with own := by rintro ⟨⟩, resting := by rintro ⟨⟩ }
    have hrely : EngineRely s s₁ := ⟨rfl, rfl, id, fun _ _ => rfl⟩
    simp only [closeGracefully, xioClose, wp_bind, wp_modify]
    apply wp_engineCall rfl hinv
    intro r s' _ hinv' hrely'
    simp only [wp_ite, wp_bind, wp_closeOpensslInstance, wp_modify, wp_setTlsioState]
    split
    · have hfreed := freed_notClosing s'
      exact ⟨hinv'.freed hfreed, hfreed.rely hrely'.openDepth hrely'.closeCompleteDepth⟩
    · exact ⟨hinv', hrely.trans hrely'⟩
  · simp only [forceClose, xioClose, wp_bind]
    apply wp_engineCall rfl h
    intro r s' _ hinv' hrely
    simp only [wp_closeOpensslInstance, wp_setTlsioState, wp_modify]
    have hfreed := freed_closed s'
    exact ⟨hinv'.freed hfreed, hfreed.rely hrely.openDepth hrely.closeCompleteDepth⟩

theorem tlsioOpensslClose_keepsEngine (h : EngineInvariant s)
    (onIoCloseComplete : Option Callback) :
    KeepsEngine (tlsioOpensslClose onIoCloseComplete) s := by
  let s₁ : TlsIo := { s.endAttempt with closeCalls := s.closeCalls + 1, awaitsClose := false }
  have hs : SameEngine s s₁ := .of_eq rfl rfl rfl rfl rfl rfl rfl
  simp only [KeepsEngine, tlsioOpensslClose, wp_bind, wp_modify, wp_get]
  refine wp_mono ?_ (cancelOpen_keepsEngine (h.same hs) _)
  rintro _ s₂ ⟨hinv, hrely⟩
  refine wp_mono ?_ (shutDown_keepsEngine hinv _ _)
  rintro _ s₃ ⟨hinv', hrely'⟩
  have hs' : SameEngine s₃ (s₃.record (.closeReturned s₁.closeCalls s₁.cancels
    onIoCloseComplete 0)) := .record rfl
  exact ⟨hinv'.same hs', ((hs.rely.trans hrely).trans hrely').trans hs'.rely⟩

theorem sendBytes_keepsEngine (h : EngineInvariant s) (sendId openId : Nat) (buffer : Bytes)
    (onSendComplete : Option Callback) :
    KeepsEngine (sendBytes sendId openId buffer onSendComplete) s := by
  simp only [KeepsEngine, sendBytes, wp_bind, wp_getInst, wp_ite]
  split
  case isTrue => exact ⟨h, .refl s⟩
  case isFalse hstate =>
    have hstate : s.inst.tlsioState = .tlsioStateOpen := Decidable.not_not.1 hstate
    cases s.inst.ssl with
    | none => exact ⟨h, .refl s⟩
    | some ssl =>
      simp only [wp_bind]
      apply wp_ask rfl h.faultless
      intro step _
      simp only [wp_modify, wp_ite, wp_bind]
      let bytes := buffer.take (intOfSizeT buffer.length).toNat
      have hs : SameEngine s (s.stepSsl (.sslWrite bytes)
        (applicationBytes sendId step.written)) := .stepSsl _ _
      split
      · exact ⟨h.same hs, hs.rely⟩
      · have huses : (s.stepSsl (.sslWrite bytes)
            (applicationBytes sendId step.written)).inst.tlsioState.usesSsl = true := by
          rw [hs.state, hstate]
          rfl
        exact ((writeOutgoingBytes_keepsEngine (h.same hs) huses _).after hs.rely)

theorem tlsioOpensslSend_keepsEngine (h : EngineInvariant s) (buffer : Bytes)
    (onSendComplete : Option Callback) : KeepsEngine (tlsioOpensslSend buffer onSendComplete) s := by
  let s₁ : TlsIo := { s with sendCalls := s.sendCalls + 1 }
  have hs : SameEngine s s₁ := .of_eq rfl rfl rfl rfl rfl rfl rfl
  simp only [KeepsEngine, tlsioOpensslSend, wp_bind, wp_modify, wp_get]
  refine wp_mono ?_ (sendBytes_keepsEngine (h.same hs) _ _ buffer onSendComplete)
  rintro r s' ⟨hinv, hrely⟩
  have hs' : SameEngine s' (s'.record (.sendReturned s₁.sendCalls s₁.currentOpen r)) := .record rfl
  exact ⟨hinv.same hs', (hs.rely.trans hrely).trans hs'.rely⟩

theorem closeFailedHandshake_keepsEngine (h : EngineInvariant s) :
    KeepsEngine closeFailedHandshake s := by
  have hinv : EngineInvariant (s.setState .tlsioStateError) := h.setState nofun nofun
  have hrely : EngineRely s (s.setState .tlsioStateError) := engineRely_setState fun _ => rfl
  simp only [KeepsEngine, closeFailedHandshake, wp_bind, wp_setTlsioState]
  refine wp_mono ?_ (tlsioOpensslClose_keepsEngine hinv none)
  rintro _ s' ⟨hinv', hrely'⟩
  apply wp_engineReport hinv'
  case hnull =>
    intro _
    exact ⟨hinv', hrely.trans hrely'⟩
  case hcall =>
    intro cb s'' _ hinv'' hrely''
    exact ⟨hinv'', (hrely.trans hrely').trans hrely''⟩

theorem workUnderlyingIo_keepsEngine (h : EngineInvariant s) : KeepsEngine workUnderlyingIo s := by
  let s₁ : TlsIo := { s with doworkDepth := s.doworkDepth + 1 }
  have hs : SameEngine s s₁ := .of_eq rfl rfl rfl rfl rfl rfl rfl
  simp only [KeepsEngine, workUnderlyingIo, wp_bind, wp_modify]
  apply wp_engineCall rfl (h.same hs)
  intro _ s' _ hinv hrely
  let s₂ : TlsIo := { s' with doworkDepth := s'.doworkDepth - 1 }
  have hs' : SameEngine s' s₂ := .of_eq rfl rfl rfl rfl rfl rfl rfl
  have hrely' : EngineRely s s₂ := (hs.rely.trans hrely).trans hs'.rely
  rw [wp_modify, wp_getInst, wp_ite]
  split
  · exact (closeFailedHandshake_keepsEngine (hinv.same hs')).after hrely'
  · exact ⟨hinv.same hs', hrely'⟩

theorem tlsioOpensslDowork_keepsEngine (h : EngineInvariant s) :
    KeepsEngine tlsioOpensslDowork s := by
  have hpumped : KeepsEngine (pumpOutgoing s.inst.tlsioState) s := by
    simp only [KeepsEngine, pumpOutgoing, wp_ite, wp_bind]
    split
    case isTrue hstate => exact writeOutgoingBytes_keepsEngine h hstate _
    case isFalse => exact ⟨h, .refl s⟩
  simp only [KeepsEngine, tlsioOpensslDowork, wp_bind, wp_getInst]
  refine wp_mono ?_ hpumped
  rintro _ s' ⟨hinv, hrely⟩
  rw [wp_getInst, wp_ite]
  split
  · exact (workUnderlyingIo_keepsEngine hinv).after hrely
  · exact ⟨hinv, hrely⟩

theorem tlsioOpensslDestroy_keepsEngine (h : EngineInvariant s) :
    KeepsEngine tlsioOpensslDestroy s := by
  simp only [KeepsEngine, tlsioOpensslDestroy, callOut, wp_bind, wp_modify, wp_modifyInst,
    wp_closeOpensslInstance]
  have hfaultless : Faultless (s.record (.call s.currentOpen .xioDestroy)) :=
    (h.same (.record rfl)).faultless
  apply wp_ask rfl hfaultless
  intro _ _
  have hinv : EngineInvariant { (s.setInst { s.inst with
      certificate := none, x509Certificate := none, x509PrivateKey := none }).closeOpensslInstance.record
        (.call s.currentOpen .xioDestroy) |>.closed with inst := {}, destroyed := true } := {
    faultless := hfaultless
    own := by rintro ⟨⟩
    bios := by rintro _ ⟨⟩
    reading := by rintro ⟨⟩
    resting := fun _ => .inl rfl }
  exact ⟨hinv, rfl, rfl, fun _ => .inl rfl, fun _ _ => rfl⟩

theorem SameEngine.of_optionsOnly (h : OptionsOnly s s') : SameEngine s s' where
  state := h.state
  sslId := congrArg (Option.map Ssl.openId) h.ssl
  context := h.sslContext
  inBio := h.inBio
  outBio := h.outBio
  currentOpen := by rw [h.rest]
  openDepth := by rw [h.rest]
  closeCompleteDepth := by rw [h.rest]
  ioOpen := by rw [h.rest]
  givenUp := by rw [h.rest]
  log := ⟨[], by rw [h.rest, List.append_nil], nofun⟩

theorem tlsioOpensslSetoption_keepsEngine (h : EngineInvariant s) (option : TlsioOption) :
    KeepsEngine (tlsioOpensslSetoption option) s := by
  have hsame : ∀ s', OptionsOnly s s' → EngineInvariant s' := fun _ hs => h.same (.of_optionsOnly hs)
  apply wp_tlsioOpensslSetoption (fun _ => rfl) fun s' hs => (hsame s' hs).faultless
  intro _ s' hs
  exact ⟨hsame s' hs, (SameEngine.of_optionsOnly hs).rely⟩

theorem tlsioOpensslCode_keepsEngine (h : EngineInvariant s) {p : Proc}
    (hrun : runsInStep p s = true) : KeepsEngine (tlsioOpensslCode config p) s := by
  have hvoid : ∀ {c : TlsComp Unit}, KeepsEngine c s → KeepsEngine (void c) s := by
    intro c hc
    rw [KeepsEngine, void, wp_bind]
    exact hc
  cases p with
  | tlsioOpensslOpen arguments => exact tlsioOpensslOpen_keepsEngine h arguments hrun
  | tlsioOpensslClose onIoCloseComplete => exact tlsioOpensslClose_keepsEngine h _
  | tlsioOpensslSend buffer onSendComplete => exact tlsioOpensslSend_keepsEngine h _ _
  | tlsioOpensslDowork => exact hvoid (tlsioOpensslDowork_keepsEngine h)
  | tlsioOpensslSetoption option => exact tlsioOpensslSetoption_keepsEngine h option
  | tlsioOpensslDestroy => exact hvoid (tlsioOpensslDestroy_keepsEngine h)
  | onUnderlyingIoOpenComplete openResult =>
    exact hvoid (onUnderlyingIoOpenComplete_keepsEngine h openResult hrun)
  | onUnderlyingIoBytesReceived buffer =>
    exact hvoid (onUnderlyingIoBytesReceived_keepsEngine h buffer hrun)
  | onUnderlyingIoError => exact hvoid (onUnderlyingIoError_keepsEngine h hrun)
  | onUnderlyingIoCloseComplete => exact hvoid (onUnderlyingIoCloseComplete_keepsEngine h hrun)
  | decodeSslReceivedBytes => exact decodeSslReceivedBytes_keepsEngine h

end

/-! ## Every run -/

theorem inStep_sound (config : TlsioConfig) : inStep.Sound (tlsioOpensslCode config) where
  inv_always s h := h.faultless
  refl := .refl
  trans _ _ _ h h' := h.trans h'
  reenter c p s hmay := ⟨reenters_of_mayEnter hmay, rfl⟩
  enter _ _ _ _ _ _ := trivial
  code := by
    intro p s h _ hrun
    refine wp_mono ?_ (tlsioOpensslCode_keepsEngine h hrun)
    rintro _ s' ⟨hinv, hrely⟩
    refine ⟨hinv, ?_, fun _ => hrely⟩
    intro hset
    exact ⟨hrely.settled hset.1, hrely.openDepth.trans hset.2.1,
      hrely.closeCompleteDepth.trans hset.2.2⟩

/-- The io reports in `xio_dowork` that it could not be opened, and the user closes before he returns; the
next open succeeds, and is closed. -/
def failedThenReopened : List (Input tlsioOpensslSignature) :=
  opening ++ [.enter .tlsioOpensslDowork,
    .enter (.onUnderlyingIoOpenComplete { result := .ioOpenError, code := 1 }),
    .enter (.tlsioOpensslClose none), .answer succeeds, .answer succeeds, .answer succeeds] ++
  opened ++ [.enter (.tlsioOpensslClose (some 3)), .answer succeeds,
    .enter .onUnderlyingIoCloseComplete, .answer succeeds]

/-- The io reports in `xio_dowork` that it could not be opened. -/
def failedOpen : List (Input tlsioOpensslSignature) :=
  opening ++ [.enter .tlsioOpensslDowork,
    .enter (.onUnderlyingIoOpenComplete { result := .ioOpenError, code := 1 }), .answer succeeds,
    .answer succeeds]

end SharedUtility.TlsIoOpenssl
