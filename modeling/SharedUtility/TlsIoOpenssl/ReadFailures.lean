import SharedUtility.Reentrant.Trace
import SharedUtility.TlsIoOpenssl.Rules

/-!
# ReadFailures — a connection that fails in state OPEN is reported and final

Three things fail a connection that is open: `SSL_read` fails, `in_bio` refuses bytes, the io reports an
error.  Only the second leaves state OPEN.  The first is not reported to anybody, and after the third
the connection looks open until the user closes it.  The condition is that the first does not happen, and
that the user closes in the `on_io_error` of the third before anything else is sent or received.
-/

namespace SharedUtility.TlsIoOpenssl

open Reentrant

/-! ## What an observer sees -/

def Event.failedOpen : Event → Option Nat
  | .failed k => some k
  | _ => none

def Event.erroredOpen : Event → Option Nat
  | .call k (.onIoError _) => some k
  | _ => none

def Event.deliveredTo : Event → Option Nat
  | .call k (.onBytesReceived _ _) => some k
  | _ => none

/-- The open that was current when a send was called that is accepted. -/
def Event.acceptedSend : Event → Option Nat
  | .sendReturned _ k r => if r = 0 then some k else none
  | _ => none

/-- Every failure is reported, and nothing follows it on the connection. -/
structure FailuresFinal (log : List Event) : Prop where
  reported : Followed Event.failedOpen Event.erroredOpen log
  nothingDelivered : NeverAfter Event.failedOpen Event.deliveredTo log
  nothingAccepted : NeverAfter Event.failedOpen Event.acceptedSend log

/-- A connection that has failed is not open. -/
def FailedNotOpen (s : TlsIo) : Prop :=
  Occurs Event.failedOpen s.log s.currentOpen → s.inst.tlsioState ≠ .tlsioStateOpen

/-! ## The condition -/

/-- The functions of the interface, but for the last one. -/
def Proc.isApi : Proc → Bool
  | .tlsioOpensslOpen _ | .tlsioOpensslClose _ | .tlsioOpensslSend _ _ | .tlsioOpensslDowork
  | .tlsioOpensslSetoption _ => true
  | _ => false

def TlsIo.hasFailed (s : TlsIo) (k : Nat) : Bool :=
  s.log.any fun ev => ev.failedOpen == some k

/-- The connection has failed, and the state is still OPEN. -/
def failedButOpen (s : TlsIo) : Bool :=
  s.inst.tlsioState == .tlsioStateOpen && s.hasFailed s.currentOpen

/-- The `xio_send` of a `tlsio_openssl_send` on the open with number `k`, which has not returned. -/
def Handover.isRunning (h : Handover) (k : Nat) : Bool :=
  match h.purpose with
  | .send _ openId _ => openId == k && h.result.isNone
  | _ => false

def TlsIo.isSending (s : TlsIo) (k : Nat) : Bool :=
  s.handed.any fun h => h.isRunning k

/-- What fails the open connection now does not come inside a send, and can be reported. -/
def canFail (s : TlsIo) : Bool :=
  s.inst.tlsioState != .tlsioStateOpen ||
    (s.inst.onIoError.isSome && !s.isSending s.currentOpen)

/-- The condition on the start of a function: between an error that the io reports and the close of the
user nothing is sent, and no bytes come. -/
def runsFinally (p : Proc) (s : TlsIo) : Bool :=
  usesOwnObjects p s &&
  (match p with
  | .tlsioOpensslSend _ _ | .onUnderlyingIoBytesReceived _ => !s.awaitsClose
  | .onUnderlyingIoError => canFail s
  | _ => true)

/-- The condition on the return of a call: `SSL_read` does not fail, and the user has closed when he returns
from `on_io_error` of an error that the io has reported. -/
def answersFinally (c : Call) (r : Ans c) (s : TlsIo) : Bool :=
  match c, r with
  | .sslRead _, ⟨.error sslError, _⟩ => sslError.wantsMore
  | .bioWrite buffer, r => r == intOfSizeT buffer.length || canFail s
  | .onIoError _, _ => !s.awaitsClose
  | _, _ => true

def finalRun : Env TlsIo tlsioOpensslSignature where
  mayEnter := (runsWith Proc.isApi).mayEnter
  mayAnswer := answersFinally
  mayRun := runsFinally

/-! ## The invariant -/

/-- A connection that has failed is not open, unless the io has reported the error and the user has not closed
yet. -/
structure ReadInvariant (s : TlsIo) : Prop where
  final : FailuresFinal s.log
  current : s.currentOpen ≤ s.openCalls
  numbered : ∀ k, s.openCalls < k → ¬ Occurs Event.failedOpen s.log k
  opening : isAnOpeningState s.inst.tlsioState = true →
    ¬ Occurs Event.failedOpen s.log s.currentOpen
  notOpen : s.awaitsClose = false → FailedNotOpen s

/-- What was handed over is still there as it was. -/
def HandedKept (s s' : TlsIo) : Prop :=
  ∀ (i : Nat) (h : Handover), s.handed[i]? = some h → s'.handed[i]? = some h

/-- What code does for its callers: the user has closed, and no connection fails while it sends. -/
structure ReadRely (s s' : TlsIo) : Prop where
  closed : s.awaitsClose = false → s'.awaitsClose = false
  handed : HandedKept s s'
  unfailed : ∀ k, s.isSending k = true → s.hasFailed k = false → s'.hasFailed k = false

/-- An event that is none of those that matter here. -/
structure Event.Plain (ev : Event) : Prop where
  notFailed : ev.failedOpen = none
  notDelivered : ev.deliveredTo = none
  notAccepted : ev.acceptedSend = none

/-- Nothing that matters here has changed. -/
structure SameReading (s s' : TlsIo) : Prop where
  state : s'.inst.tlsioState = s.inst.tlsioState
  onIoError : s'.inst.onIoError = s.inst.onIoError
  currentOpen : s'.currentOpen = s.currentOpen
  openCalls : s'.openCalls = s.openCalls
  awaitsClose : s'.awaitsClose = s.awaitsClose
  handed : HandedKept s s'
  log : ∃ evs, s'.log = s.log ++ evs ∧ ∀ ev ∈ evs, ev.Plain

section

variable {s s' s'' : TlsIo} {k : Nat}

theorem hasFailed_iff : s.hasFailed k = true ↔ Occurs Event.failedOpen s.log k := by
  simp [TlsIo.hasFailed, Occurs]

theorem failedButOpen_eq_false :
    failedButOpen s = false ↔ FailedNotOpen s := by
  rw [← Bool.not_eq_true, failedButOpen, Bool.and_eq_true, beq_iff_eq, hasFailed_iff, FailedNotOpen]
  constructor
  · intro h hfailed hopen
    exact h ⟨hopen, hfailed⟩
  · intro h hboth
    exact h hboth.2 hboth.1

theorem HandedKept.trans (h : HandedKept s s') (h' : HandedKept s' s'') : HandedKept s s'' :=
  fun i handover hi => h' i handover (h i handover hi)

theorem HandedKept.isSending (h : HandedKept s s') (hsending : s.isSending k = true) :
    s'.isSending k = true := by
  rw [TlsIo.isSending, List.any_eq_true] at hsending ⊢
  rcases hsending with ⟨handover, hmem, hrunning⟩
  rcases List.mem_iff_getElem?.1 hmem with ⟨i, hi⟩
  exact ⟨handover, List.mem_iff_getElem?.2 ⟨i, h i handover hi⟩, hrunning⟩

theorem SameReading.refl (s : TlsIo) : SameReading s s where
  state := rfl
  onIoError := rfl
  currentOpen := rfl
  openCalls := rfl
  awaitsClose := rfl
  handed _ _ := id
  log := ⟨[], by simp, nofun⟩

theorem SameReading.trans (h : SameReading s s') (h' : SameReading s' s'') : SameReading s s'' where
  state := h'.state.trans h.state
  onIoError := h'.onIoError.trans h.onIoError
  currentOpen := h'.currentOpen.trans h.currentOpen
  openCalls := h'.openCalls.trans h.openCalls
  awaitsClose := h'.awaitsClose.trans h.awaitsClose
  handed := h.handed.trans h'.handed
  log := by
    rcases h.log with ⟨evs, hevs, hplain⟩
    rcases h'.log with ⟨evs', hevs', hplain'⟩
    refine ⟨evs ++ evs', by rw [hevs', hevs, List.append_assoc], ?_⟩
    intro ev hev
    rcases List.mem_append.1 hev with hev | hev
    · exact hplain ev hev
    · exact hplain' ev hev

theorem SameReading.of_eq (hstate : s'.inst.tlsioState = s.inst.tlsioState)
    (herror : s'.inst.onIoError = s.inst.onIoError) (hcurrent : s'.currentOpen = s.currentOpen)
    (hcalls : s'.openCalls = s.openCalls) (hawaits : s'.awaitsClose = s.awaitsClose)
    (hhanded : s'.handed = s.handed) (hlog : s'.log = s.log) : SameReading s s' where
  state := hstate
  onIoError := herror
  currentOpen := hcurrent
  openCalls := hcalls
  awaitsClose := hawaits
  handed _ _ hi := hhanded ▸ hi
  log := ⟨[], by rw [hlog, List.append_nil], nofun⟩

theorem SameReading.record {ev : Event} (hev : ev.Plain) : SameReading s (s.record ev) :=
  { SameReading.refl s with log := ⟨[ev], rfl, by simpa using hev⟩ }

theorem SameReading.useBio (bio : Option Nat) : SameReading s (s.useBio bio) := by
  unfold TlsIo.useBio
  split
  · exact .refl s
  · exact .record ⟨rfl, rfl, rfl⟩

theorem SameReading.stepSsl (operation : SslOperation) (written : List OutgoingByte) :
    SameReading s (s.stepSsl operation written) := by
  unfold TlsIo.stepSsl
  cases s.inst.ssl with
  | none => exact .refl s
  | some ssl =>
    exact { SameReading.refl s with
      log := ⟨[_], rfl, by simpa using (⟨rfl, rfl, rfl⟩ : Event.Plain (.written _ _))⟩ }

theorem SameReading.takeOutgoing (count : Nat) : SameReading s (s.takeOutgoing count) := by
  unfold TlsIo.takeOutgoing
  cases s.inst.ssl with
  | none => exact .refl s
  | some ssl => exact .of_eq rfl rfl rfl rfl rfl rfl rfl

theorem SameReading.handOver (purpose : WritePurpose) (bytes : List OutgoingByte) :
    SameReading s (s.handOver purpose bytes) :=
  { SameReading.refl s with
    handed := fun i handover hi => by
      rw [TlsIo.handOver, List.getElem?_append_left (List.getElem?_eq_some_iff.1 hi).1]
      exact hi
    log := ⟨[_], rfl, by simpa using (⟨rfl, rfl, rfl⟩ : Event.Plain (.call _ (.xioSend _ _ _)))⟩ }

theorem SameReading.closeOpensslInstance : SameReading s s.closeOpensslInstance :=
  .of_eq rfl rfl rfl rfl rfl rfl rfl

theorem SameReading.closeCompleted : SameReading s s.closeOpensslInstance.closeCompleted :=
  .of_eq rfl rfl rfl rfl rfl rfl rfl

theorem SameReading.endAttempt : SameReading s s.endAttempt :=
  .of_eq rfl rfl rfl rfl rfl rfl rfl

theorem SameReading.engine (h : EngineOnly s s') : SameReading s s' := by
  rcases h.rest with ⟨_, _, _, _, hs'⟩
  rcases h.noted with ⟨n, hn⟩
  have hplain : ∀ ev ∈ List.replicate n (Event.fault .overwritten), ev.Plain := by
    intro ev hev
    rw [(List.mem_replicate.1 hev).2]
    exact ⟨rfl, rfl, rfl⟩
  exact {
    state := by rw [hs']
    onIoError := by rw [hs']
    currentOpen := by rw [hs']
    openCalls := by rw [hs']
    awaitsClose := by rw [hs']
    handed := by
      rw [hs']
      exact fun _ _ => id
    log := ⟨_, hn, hplain⟩ }

theorem SameReading.occurs (h : SameReading s s') (k : Nat) :
    Occurs Event.failedOpen s'.log k ↔ Occurs Event.failedOpen s.log k := by
  rcases h.log with ⟨evs, hevs, hplain⟩
  rw [hevs]
  exact occurs_append_of_none fun ev hev => (hplain ev hev).notFailed

theorem SameReading.hasFailed (h : SameReading s s') (k : Nat) :
    s'.hasFailed k = s.hasFailed k := by
  rw [Bool.eq_iff_iff, hasFailed_iff, hasFailed_iff, h.occurs]

theorem FailuresFinal.append {log evs : List Event} (h : FailuresFinal log)
    (hplain : ∀ ev ∈ evs, ev.Plain) : FailuresFinal (log ++ evs) where
  reported := h.reported.append_of_none fun ev hev => (hplain ev hev).notFailed
  nothingDelivered := h.nothingDelivered.append_of_none fun ev hev => (hplain ev hev).notDelivered
  nothingAccepted := h.nothingAccepted.append_of_none fun ev hev => (hplain ev hev).notAccepted

theorem ReadInvariant.same (h : ReadInvariant s) (hs : SameReading s s') : ReadInvariant s' where
  final := by
    rcases hs.log with ⟨evs, hevs, hplain⟩
    rw [hevs]
    exact h.final.append hplain
  current := by
    rw [hs.currentOpen, hs.openCalls]
    exact h.current
  numbered := by
    intro k hk
    rw [hs.openCalls] at hk
    rw [hs.occurs]
    exact h.numbered k hk
  opening := by
    rw [hs.state, hs.currentOpen, hs.occurs]
    exact h.opening
  notOpen := by
    rw [hs.awaitsClose, FailedNotOpen, hs.state, hs.currentOpen, hs.occurs]
    exact h.notOpen

theorem ReadInvariant.setState (h : ReadInvariant s) {state : TlsioState}
    (hopening : isAnOpeningState state = true → ¬ Occurs Event.failedOpen s.log s.currentOpen)
    (hopen : state = .tlsioStateOpen → ¬ Occurs Event.failedOpen s.log s.currentOpen) :
    ReadInvariant (s.setState state) :=
  { h with opening := hopening, notOpen := fun _ hfailed hstate => hopen hstate hfailed }

theorem ReadInvariant.beginClosing (h : ReadInvariant s) (j : Nat)
    (onIoCloseComplete : Option Callback) (hcurrent : s'.currentOpen = s.currentOpen)
    (hcalls : s'.openCalls = s.openCalls) (hlog : s'.log = s.log) :
    ReadInvariant (s'.beginClosing j onIoCloseComplete) where
  final := by
    have hfinal := h.final
    rw [← hlog] at hfinal
    exact hfinal
  current := by
    have hle := h.current
    rw [← hcurrent, ← hcalls] at hle
    exact hle
  numbered := by
    have hnumbered := h.numbered
    rw [← hcalls, ← hlog] at hnumbered
    exact hnumbered
  opening := by rintro ⟨⟩
  notOpen _ _ := by rintro ⟨⟩

theorem ReadInvariant.awaitClose (h : ReadInvariant s) :
    ReadInvariant { s with awaitsClose := true } :=
  { h with notOpen := nofun }

theorem ReadInvariant.sendReturned (h : ReadInvariant s) (n : Nat) (r : Int) :
    ReadInvariant (s.sendReturned n r) :=
  ⟨h.final, h.current, h.numbered, h.opening, h.notOpen⟩

/-- The connection fails, and `on_io_error` is called at once. -/
theorem ReadInvariant.failed {cb : Callback} (h : ReadInvariant s)
    (hstate : isAnOpeningState s.inst.tlsioState = false)
    (hopen : s.inst.tlsioState = .tlsioStateOpen → s.awaitsClose = true) :
    ReadInvariant (s.fail.record (.call s.currentOpen (.onIoError cb))) where
  final := by
    have hlog : (s.fail.record (.call s.currentOpen (.onIoError cb))).log =
        s.log ++ [.failed s.currentOpen, .call s.currentOpen (.onIoError cb)] := by
      simp [TlsIo.fail, TlsIo.record]
    constructor
    case reported =>
      rw [hlog]
      exact h.final.reported.answered rfl fun _ hk => hk
    case nothingDelivered =>
      rw [hlog]
      exact h.final.nothingDelivered.append_of_none (by simp [Event.deliveredTo])
    case nothingAccepted =>
      rw [hlog]
      exact h.final.nothingAccepted.append_of_none (by simp [Event.acceptedSend])
  current := h.current
  numbered := by
    intro k hk
    have hcurrent := h.current
    have hk : s.openCalls < k := hk
    simp only [TlsIo.fail, TlsIo.record, occurs_concat, Event.failedOpen, Option.some.injEq,
      not_or, reduceCtorEq, not_false_iff, and_true]
    exact ⟨h.numbered k hk, by omega⟩
  opening := by
    intro hopening
    have hopening : isAnOpeningState s.inst.tlsioState = true := hopening
    simp [hstate] at hopening
  notOpen := by
    intro hawaits _ hopen'
    have hawaits : s.awaitsClose = false := hawaits
    simp [hopen hopen'] at hawaits

theorem hasFailed_failed {cb : Callback} (hk : k ≠ s.currentOpen) :
    (s.fail.record (.call s.currentOpen (.onIoError cb))).hasFailed k = s.hasFailed k := by
  have hlog : (s.fail.record (.call s.currentOpen (.onIoError cb))).log =
      s.log ++ [.failed s.currentOpen] ++ [.call s.currentOpen (.onIoError cb)] := rfl
  rw [Bool.eq_iff_iff, hasFailed_iff, hasFailed_iff, hlog, occurs_concat_of_none rfl, occurs_concat,
    Event.failedOpen, Option.some.injEq]
  exact or_iff_left fun heq => hk heq.symm

theorem ReadInvariant.record {ev : Event} (h : ReadInvariant s) (hev : ev.failedOpen = none)
    (hfinal : FailuresFinal (s.record ev).log) : ReadInvariant (s.record ev) where
  final := hfinal
  current := h.current
  numbered := by
    intro k hk
    rw [TlsIo.record, occurs_concat_of_none hev]
    exact h.numbered k hk
  opening := by
    intro hopening
    rw [TlsIo.record, occurs_concat_of_none hev]
    exact h.opening hopening
  notOpen := by
    intro hawaits hoccurs
    rw [TlsIo.record, occurs_concat_of_none hev] at hoccurs
    exact h.notOpen hawaits hoccurs

theorem ReadInvariant.delivered {cb : Callback} {bytes : Bytes} (h : ReadInvariant s)
    (hfailed : ¬ Occurs Event.failedOpen s.log s.currentOpen) :
    ReadInvariant (s.record (.call s.currentOpen (.onBytesReceived cb bytes))) := by
  apply h.record rfl
  constructor
  case reported => exact h.final.reported.append_of_none (by simp [Event.failedOpen])
  case nothingDelivered =>
    apply h.final.nothingDelivered.concat
    intro k hk
    cases hk
    exact hfailed
  case nothingAccepted => exact h.final.nothingAccepted.concat_of_none rfl

theorem ReadInvariant.accepted {sendId : Nat} {r : Int} (h : ReadInvariant s)
    (hfailed : r = 0 → ¬ Occurs Event.failedOpen s.log k) :
    ReadInvariant (s.record (.sendReturned sendId k r)) := by
  apply h.record rfl
  constructor
  case reported => exact h.final.reported.append_of_none (by simp [Event.failedOpen])
  case nothingDelivered => exact h.final.nothingDelivered.concat_of_none rfl
  case nothingAccepted =>
    apply h.final.nothingAccepted.concat
    intro j hj
    simp only [Event.acceptedSend, Option.ite_none_right_eq_some, Option.some.injEq] at hj
    rw [← hj.2]
    exact hfailed hj.1

end

/-! ## Every function -/

def finality : RelyGuarantee TlsIo tlsioOpensslSignature where
  env := finalRun
  reenters := Call.reenters
  nested _ := true
  entry p s := p = .decodeSslReceivedBytes → s.awaitsClose = false
  always s := FailuresFinal s.log
  inv := ReadInvariant
  settled s := s.awaitsClose = false
  rely := ReadRely

section

variable {α : Type} {s s' s'' : TlsIo} {config : TlsioConfig} {k : Nat}

theorem ReadRely.refl (s : TlsIo) : ReadRely s s where
  closed := id
  handed _ _ := id
  unfailed _ _ := id

theorem ReadRely.trans (h : ReadRely s s') (h' : ReadRely s' s'') : ReadRely s s'' where
  closed hawaits := h'.closed (h.closed hawaits)
  handed := h.handed.trans h'.handed
  unfailed k hsending hfailed :=
    h'.unfailed k (h.handed.isSending hsending) (h.unfailed k hsending hfailed)

theorem SameReading.rely (hs : SameReading s s') : ReadRely s s' where
  closed hawaits := hs.awaitsClose.trans hawaits
  handed := hs.handed
  unfailed k _ hfailed := (hs.hasFailed k).trans hfailed

theorem readRely_of_eq (hawaits : s'.awaitsClose = s.awaitsClose) (hhanded : s'.handed = s.handed)
    (hlog : s'.log = s.log) : ReadRely s s' where
  closed := hawaits.trans
  handed _ _ hi := hhanded ▸ hi
  unfailed k _ hfailed := by
    rw [TlsIo.hasFailed, hlog]
    exact hfailed

theorem readRely_setState (state : TlsioState) : ReadRely s (s.setState state) :=
  readRely_of_eq rfl rfl rfl

theorem readRely_record {ev : Event} (hev : ev.failedOpen = none) : ReadRely s (s.record ev) where
  closed := id
  handed _ _ := id
  unfailed k _ hfailed := by
    rw [Bool.eq_false_iff, ne_eq, hasFailed_iff] at hfailed ⊢
    rwa [TlsIo.record, occurs_concat_of_none hev]

/-- The code keeps the invariant, and does what its callers rely on. -/
def KeepsReading (c : TlsComp α) (s : TlsIo) : Prop :=
  wp finality.spec c (fun _ s' => ReadInvariant s' ∧ ReadRely s s') s

theorem KeepsReading.after {c : TlsComp α} (h : KeepsReading c s') (hrely : ReadRely s s') :
    wp finality.spec c (fun _ s'' => ReadInvariant s'' ∧ ReadRely s s'') s' :=
  wp_mono (fun _ _ hs'' => ⟨hs''.1, hrely.trans hs''.2⟩) h

theorem wp_readCall {c : Call} {Q : Ans c → TlsIo → Prop} (hc : c.reenters = true)
    (hplain : (Event.call s.currentOpen c).Plain) (h : ReadInvariant s)
    (hQ : ∀ r s', answersFinally c r s' = true → ReadInvariant s' → ReadRely s s' → Q r s') :
    wp finality.spec (callOut c) Q s := by
  have hs : SameReading s (s.record (.call s.currentOpen c)) := .record hplain
  apply wp_callOut hc (h.same hs)
  intro r s' hans hlater
  exact hQ r s' hans hlater.inv (hs.rely.trans hlater.rely)

theorem indicateOpenComplete_keepsReading (h : ReadInvariant s)
    (openResult : IoOpenResultDetailed) (site : ReportSite) :
    KeepsReading (indicateOpenComplete openResult site) s := by
  apply wp_indicateOpenComplete
  case hnull =>
    intro _
    exact ⟨h, .refl s⟩
  case hcall =>
    intro cb _
    apply wp_readCall rfl ⟨rfl, rfl, rfl⟩ h
    intro _ s' _ hinv hrely
    exact ⟨hinv, hrely⟩

theorem indicateError_keepsReading (h : ReadInvariant s) : KeepsReading indicateError s := by
  apply wp_indicateError
  case hnull =>
    intro _
    exact ⟨h, .refl s⟩
  case hcall =>
    intro cb _
    apply wp_readCall rfl ⟨rfl, rfl, rfl⟩ h
    intro _ s' _ hinv hrely
    exact ⟨hinv, hrely⟩

/-- A failure, at which `on_io_error` is called; then the user has closed if he had to. -/
theorem failed_keepsReading (h : ReadInvariant s)
    (hstate : isAnOpeningState s.inst.tlsioState = false)
    (hopen : s.inst.tlsioState = .tlsioStateOpen → s.awaitsClose = true)
    (hsending : s.isSending s.currentOpen = false) {cb : Callback}
    (hcb : s.inst.onIoError = some cb) :
    wp finality.spec indicateError
      (fun _ s' => ReadInvariant s' ∧ s'.awaitsClose = false ∧ ReadRely s s') s.fail := by
  apply wp_indicateError
  case hnull =>
    intro hnull
    have hnull : s.inst.onIoError = none := hnull
    rw [hcb] at hnull
    cases hnull
  case hcall =>
    intro cb' hcb'
    have hcb' : s.inst.onIoError = some cb' := hcb'
    rw [hcb] at hcb'
    cases hcb'
    apply wp_callOut rfl (h.failed hstate hopen)
    intro _ s' hans hlater
    have hclosed : s'.awaitsClose = false := Bool.not_eq_true' _ ▸ hans
    refine ⟨hlater.inv, hclosed, fun _ => hclosed, hlater.rely.handed, fun k hrunning hfailed => ?_⟩
    -- The connection that fails is not one that sends.
    have hk : k ≠ s.currentOpen := by
      rintro rfl
      rw [hsending] at hrunning
      cases hrunning
    exact hlater.rely.unfailed k hrunning ((hasFailed_failed hk).trans hfailed)

theorem writeOutgoingBytes_keepsReading (h : ReadInvariant s) (purpose : WritePurpose)
    (hsend : ∀ sendId cb, purpose = .send sendId k cb → s.hasFailed k = false) :
    wp finality.spec (writeOutgoingBytes purpose)
      (fun r s' => ReadInvariant s' ∧ ReadRely s s' ∧
        ∀ sendId cb, purpose = .send sendId k cb → r = 0 → s'.hasFailed k = false) s := by
  have hbio : SameReading s (s.useBio s.inst.outBio) := .useBio _
  apply wp_writeOutgoingBytes rfl rfl (fun _ => rfl) (fun _ _ => rfl) (h.same hbio).final
  case hempty =>
    intro _
    refine ⟨h.same hbio, hbio.rely, ?_⟩
    intro sendId cb hpurpose _
    rw [hbio.hasFailed]
    exact hsend sendId cb hpurpose
  case hnoMemory =>
    intro _ _
    exact ⟨h.same hbio, hbio.rely, fun _ _ _ hr => absurd hr (by decide)⟩
  case hnotRead =>
    intro count _ _
    have hs := hbio.trans (.takeOutgoing count.toNat)
    exact ⟨h.same hs, hs.rely, fun _ _ _ hr => absurd hr (by decide)⟩
  case hsent =>
    rintro _ s₂ rfl
    let bytes := (s.useBio s.inst.outBio).inst.pending
    let s₂ := (s.useBio s.inst.outBio).takeOutgoing bytes.length
    have htaken : SameReading s s₂ := hbio.trans (.takeOutgoing _)
    have hs : SameReading s (s₂.handOver purpose bytes) := htaken.trans (.handOver _ _)
    refine ⟨h.same hs, fun r s' _ hlater => ?_⟩
    have hrely : ReadRely s s' := hs.rely.trans hlater.rely
    refine ⟨hlater.inv.sendReturned _ _, ⟨hrely.closed, ?_, hrely.unfailed⟩, ?_⟩
    · -- Only the result of this call is new.
      intro i handover hi
      have hlt := (List.getElem?_eq_some_iff.1 (htaken.handed i handover hi)).1
      rw [TlsIo.sendReturned, List.getElem?_modify_ne _ _ (Nat.ne_of_gt hlt)]
      exact hrely.handed i handover hi
    · rintro sendId cb rfl _
      have hrunning : (s₂.handOver (.send sendId k cb) bytes).isSending k = true := by
        rw [TlsIo.isSending, TlsIo.handOver, List.any_append, Bool.or_eq_true]
        right
        simp [Handover.isRunning]
      have hfailed := (hs.hasFailed k).trans (hsend sendId cb rfl)
      exact hlater.rely.unfailed k hrunning hfailed

theorem writeOutgoingBytes_keepsReading' (h : ReadInvariant s) {purpose : WritePurpose}
    (hpurpose : purpose = .handshake ∨ purpose = .dowork) :
    KeepsReading (writeOutgoingBytes purpose) s := by
  have hno : ∀ sendId cb, purpose = .send sendId 0 cb → s.hasFailed 0 = false := by
    rintro sendId cb rfl
    rcases hpurpose with hpurpose | hpurpose
    · cases hpurpose
    · cases hpurpose
  refine wp_mono ?_ (writeOutgoingBytes_keepsReading h purpose hno)
  rintro r s' ⟨hinv, hrely, -⟩
  exact ⟨hinv, hrely⟩

theorem failHandshake_keepsReading (h : ReadInvariant s) :
    ReadInvariant (s.endAttempt.setState .tlsioStateHandshakeFailed) ∧
      ReadRely s (s.endAttempt.setState .tlsioStateHandshakeFailed) :=
  ⟨(h.same .endAttempt).setState nofun nofun,
    SameReading.endAttempt.rely.trans (readRely_setState _)⟩

theorem handshakeStepped_keepsReading (h : ReadInvariant s)
    (hstate : s.inst.tlsioState = .tlsioStateInHandshake) (result : HandshakeResult) :
    KeepsReading (handshakeStepped result) s := by
  have hfailed : ¬ Occurs Event.failedOpen s.log s.currentOpen :=
    h.opening (by rw [hstate]; rfl)
  cases result with
  | success =>
    have hinv : ReadInvariant (s.endAttempt.setState .tlsioStateOpen) :=
      (h.same .endAttempt).setState nofun fun _ => hfailed
    have hrely : ReadRely s (s.endAttempt.setState .tlsioStateOpen) :=
      SameReading.endAttempt.rely.trans (readRely_setState _)
    simp only [KeepsReading, handshakeStepped, wp_bind, wp_modify, wp_setTlsioState]
    exact (indicateOpenComplete_keepsReading hinv _ _).after hrely
  | error sslError =>
    simp only [KeepsReading, handshakeStepped, wp_ite, wp_failHandshake, wp_bind]
    split
    · exact failHandshake_keepsReading h
    · refine wp_mono ?_ (writeOutgoingBytes_keepsReading' h (.inl rfl))
      rintro r s' ⟨hinv, hrely⟩
      split
      · have hfail := failHandshake_keepsReading hinv
        exact ⟨hfail.1, hrely.trans hfail.2⟩
      · exact ⟨hinv, hrely⟩

theorem sendHandshakeBytes_keepsReading (h : ReadInvariant s)
    (hstate : s.inst.tlsioState = .tlsioStateInHandshake) :
    KeepsReading sendHandshakeBytes s := by
  simp only [KeepsReading, sendHandshakeBytes, wp_bind, wp_getInst]
  cases s.inst.ssl with
  | none =>
    have hs : SameReading s (s.record (.fault .sslNull)) := .record ⟨rfl, rfl, rfl⟩
    exact ⟨h.same hs, hs.rely⟩
  | some ssl =>
    simp only [wp_bind]
    apply wp_ask rfl h.final
    intro step _
    simp only [wp_modify]
    have hs : SameReading s (s.stepSsl .sslDoHandshake (protocolBytes step.written)) :=
      .stepSsl _ _
    have hkeeps := handshakeStepped_keepsReading (h.same hs) (hs.state.trans hstate) step.result
    exact hkeeps.after hs.rely

theorem onUnderlyingIoCloseComplete_keepsReading (h : ReadInvariant s) :
    KeepsReading onUnderlyingIoCloseComplete s := by
  have hs : SameReading s s.ioClosed := .of_eq rfl rfl rfl rfl rfl rfl rfl
  have hinv : ReadInvariant s.ioClosed := h.same hs
  have hclosed : ReadInvariant (s.ioClosed.setState .tlsioStateNotOpen) :=
    hinv.setState nofun nofun
  have hcloses : ReadRely s (s.ioClosed.setState .tlsioStateNotOpen) :=
    hs.rely.trans (readRely_setState _)
  have hkeeps : wp finality.spec (closeCompleteIn s.ioClosed.inst.tlsioState)
      (fun _ s' => ReadInvariant s' ∧ ReadRely s s') s.ioClosed := by
    cases s.ioClosed.inst.tlsioState with
    | tlsioStateOpeningUnderlyingIo =>
      simp only [closeCompleteIn, wp_bind, wp_setTlsioState]
      exact (indicateOpenComplete_keepsReading hclosed _ _).after hcloses
    | tlsioStateClosing =>
      simp only [closeCompleteIn, wp_bind, wp_setTlsioState, wp_get]
      cases (s.ioClosed.setState .tlsioStateNotOpen).inst.onIoCloseComplete with
      | none => exact ⟨hclosed, hcloses⟩
      | some cb =>
        apply wp_readCall rfl ⟨rfl, rfl, rfl⟩ hclosed
        intro _ s' _ hinv' hrely
        exact ⟨hinv', hcloses.trans hrely⟩
    | _ => exact ⟨hinv, hs.rely⟩
  simp only [KeepsReading, onUnderlyingIoCloseComplete, wp_bind, wp_modify, wp_getInst]
  refine wp_mono ?_ hkeeps
  rintro _ s' ⟨hinv', hrely⟩
  have hfree : SameReading s' s'.closeOpensslInstance.closeCompleted := .closeCompleted
  exact ⟨hinv'.same hfree, hrely.trans hfree.rely⟩

theorem giveUp_keepsReading (h : ReadInvariant s) (openResult : IoOpenResultDetailed)
    (site : ReportSite) :
    wp finality.spec (indicateOpenComplete openResult site)
      (fun _ s' => ReadInvariant s' ∧ ReadRely s s')
      (s.endAttempt.giveUp.setState .tlsioStateNotOpen) := by
  have hs : SameReading s s.endAttempt.giveUp := .of_eq rfl rfl rfl rfl rfl rfl rfl
  have hinv : ReadInvariant (s.endAttempt.giveUp.setState .tlsioStateNotOpen) :=
    (h.same hs).setState nofun nofun
  exact (indicateOpenComplete_keepsReading hinv _ _).after (hs.rely.trans (readRely_setState _))

theorem onUnderlyingIoOpenComplete_keepsReading (h : ReadInvariant s)
    (openResult : IoOpenResultDetailed) :
    KeepsReading (onUnderlyingIoOpenComplete openResult) s := by
  simp only [KeepsReading, onUnderlyingIoOpenComplete, wp_bind, wp_getInst, wp_ite]
  split
  case isTrue hok =>
    have hfailed := h.opening (by rw [hok.1]; rfl)
    have hinv : ReadInvariant (s.setState .tlsioStateInHandshake) :=
      h.setState (fun _ => hfailed) (by rintro ⟨⟩)
    simp only [wp_setTlsioState]
    exact (sendHandshakeBytes_keepsReading hinv rfl).after (readRely_setState _)
  case isFalse =>
    simp only [wp_modify, wp_setTlsioState]
    exact giveUp_keepsReading h _ _

theorem onUnderlyingIoError_keepsReading (h : ReadInvariant s)
    (hrun : runsFinally .onUnderlyingIoError s = true) : KeepsReading onUnderlyingIoError s := by
  have hs : SameReading s s.endAttempt := .endAttempt
  have hinv : ReadInvariant s.endAttempt := h.same hs
  simp only [KeepsReading, onUnderlyingIoError, wp_bind, wp_modify, wp_getInst]
  cases hstate : s.endAttempt.inst.tlsioState with
  | tlsioStateOpeningUnderlyingIo =>
    simp only [wp_bind, wp_modify, wp_setTlsioState]
    exact giveUp_keepsReading h _ _
  | tlsioStateInHandshake =>
    simp only [wp_bind, wp_modify, wp_setTlsioState]
    exact giveUp_keepsReading h _ _
  | tlsioStateOpen =>
    have hopen : s.inst.tlsioState = .tlsioStateOpen := hstate
    have hcan : s.inst.onIoError.isSome = true ∧ s.isSending s.currentOpen = false := by
      simpa [runsFinally, usesOwnObjects, canFail, hopen] using hrun
    rcases Option.isSome_iff_exists.1 hcan.1 with ⟨cb, hcb⟩
    -- The state stays OPEN, and the user is to close.
    have hopening : isAnOpeningState s.inst.tlsioState = false := by
      rw [hopen]
      rfl
    have hkeeps := failed_keepsReading hinv.awaitClose hopening (fun _ => rfl) hcan.2 hcb
    simp only [wp_bind, wp_modify]
    refine wp_mono ?_ hkeeps
    rintro _ s' ⟨hinv', hclosed, hrely⟩
    exact ⟨hinv', fun _ => hclosed, hrely.handed, hrely.unfailed⟩
  | _ => exact ⟨hinv, hs.rely⟩

theorem nextRound_keepsReading (h : ReadInvariant s) (hawaits : s.awaitsClose = false) :
    KeepsReading (Comp.proc .decodeSslReceivedBytes) s := by
  apply RelyGuarantee.wp_nested rfl h fun _ => hawaits
  intro r s' hlater
  exact ⟨hlater.inv, hlater.rely⟩

theorem sslReadReturned_keepsReading (h : ReadInvariant s) (hawaits : s.awaitsClose = false)
    {result : ReadResult} (hfailed : ¬ Occurs Event.failedOpen s.log s.currentOpen)
    (hresult : ∀ sslError, result = .error sslError → sslError.wantsMore = true) :
    KeepsReading (sslReadReturned result) s := by
  cases result with
  | received bytes =>
    simp only [KeepsReading, sslReadReturned, wp_bind, wp_getInst]
    cases s.inst.onBytesReceived with
    | none => exact nextRound_keepsReading h hawaits
    | some cb =>
      simp only [wp_bind]
      apply wp_callOut rfl (h.delivered hfailed)
      intro _ s' _ hlater
      have hrely : ReadRely s s' := (readRely_record rfl).trans hlater.rely
      exact (nextRound_keepsReading hlater.inv (hrely.closed hawaits)).after hrely
  | error sslError =>
    have hmore : ¬ sslError.wantsMore = false := by simp [hresult sslError rfl]
    simp only [KeepsReading, sslReadReturned, if_neg hmore]
    exact ⟨h, .refl s⟩

theorem decodeSslReceivedBytes_keepsReading (h : ReadInvariant s)
    (hawaits : s.awaitsClose = false) : KeepsReading decodeSslReceivedBytes s := by
  simp only [KeepsReading, decodeSslReceivedBytes, wp_bind, wp_getInst, wp_ite]
  split
  case isTrue hstate =>
    have hfailed : ¬ Occurs Event.failedOpen s.log s.currentOpen :=
      fun hoccurs => h.notOpen hawaits hoccurs hstate
    cases s.inst.ssl with
    | none => exact ⟨h, .refl s⟩
    | some ssl =>
      simp only [wp_bind]
      apply wp_ask rfl h.final
      intro step hans
      simp only [wp_modify]
      have hs : SameReading s (s.stepSsl .sslRead (protocolBytes step.written)) := .stepSsl _ _
      have hresult : ∀ sslError, step.result = .error sslError → sslError.wantsMore = true := by
        rcases step with ⟨result, written⟩
        rintro sslError rfl
        exact hans
      have hfailed' := (hs.occurs s.currentOpen).not.2 hfailed
      rw [← hs.currentOpen] at hfailed'
      exact (sslReadReturned_keepsReading (h.same hs) (hs.awaitsClose.trans hawaits) hfailed'
        hresult).after hs.rely
  case isFalse => exact ⟨h, .refl s⟩

theorem indicateFailure_keepsReading (h : ReadInvariant s) :
    wp finality.spec indicateError (fun _ s' => ReadInvariant s' ∧ ReadRely s s')
      (s.setState .tlsioStateError) := by
  have hinv : ReadInvariant (s.setState .tlsioStateError) := h.setState nofun nofun
  exact (indicateError_keepsReading hinv).after (readRely_setState _)

/-- `in_bio` has refused bytes; in state OPEN this is a failure, after which the state is ERROR. -/
theorem refuseBytes_keepsReading (h : ReadInvariant s) (hcan : canFail s = true) :
    wp finality.spec indicateError (fun _ s' => ReadInvariant s' ∧ ReadRely s s')
      (s.refuseBytes.setState .tlsioStateError) := by
  have hs : SameReading s s.endAttempt := .endAttempt
  have hinv : ReadInvariant s.endAttempt := h.same hs
  by_cases hopen : s.inst.tlsioState = .tlsioStateOpen
  · have hcan : s.inst.onIoError.isSome = true ∧ s.isSending s.currentOpen = false := by
      simpa [canFail, hopen] using hcan
    rcases Option.isSome_iff_exists.1 hcan.1 with ⟨cb, hcb⟩
    have hrefused : s.refuseBytes.setState .tlsioStateError =
        (s.endAttempt.setState .tlsioStateError).fail := by
      rw [TlsIo.refuseBytes, if_pos hopen]
      rfl
    have hfailed : ReadInvariant (s.endAttempt.setState .tlsioStateError) :=
      hinv.setState nofun nofun
    rw [hrefused]
    refine wp_mono ?_ (failed_keepsReading hfailed rfl nofun hcan.2 hcb)
    rintro _ s' ⟨hinv', -, hrely⟩
    exact ⟨hinv', (hs.rely.trans (readRely_setState _)).trans hrely⟩
  · have hrefused : s.refuseBytes = s.endAttempt := by
      rw [TlsIo.refuseBytes, if_neg hopen]
    rw [hrefused]
    refine wp_mono ?_ (indicateFailure_keepsReading hinv)
    intro _ s' hs'
    exact ⟨hs'.1, hs.rely.trans hs'.2⟩

theorem bytesReceivedIn_keepsReading (h : ReadInvariant s) (hawaits : s.awaitsClose = false) :
    KeepsReading (bytesReceivedIn s.inst.tlsioState) s := by
  unfold KeepsReading
  cases hstate : s.inst.tlsioState with
  | tlsioStateInHandshake => exact sendHandshakeBytes_keepsReading h hstate
  | tlsioStateOpen =>
    simp only [bytesReceivedIn, wp_bind]
    refine wp_mono ?_ (nextRound_keepsReading h hawaits)
    rintro r s' ⟨hinv, hrely⟩
    simp only [wp_ite, wp_bind, wp_setTlsioState]
    split
    · refine wp_mono ?_ (indicateFailure_keepsReading hinv)
      intro _ s'' hs''
      exact ⟨hs''.1, hrely.trans hs''.2⟩
    · exact ⟨hinv, hrely⟩
  | _ => exact ⟨h, .refl s⟩

theorem canFail_stepSsl (operation : SslOperation) (written : List OutgoingByte) :
    canFail (s.stepSsl operation written) = canFail s := by
  unfold TlsIo.stepSsl
  cases s.inst.ssl with
  | none => rfl
  | some ssl => rfl

theorem onUnderlyingIoBytesReceived_keepsReading (h : ReadInvariant s) (buffer : Bytes)
    (hrun : runsFinally (.onUnderlyingIoBytesReceived buffer) s = true) :
    KeepsReading (onUnderlyingIoBytesReceived buffer) s := by
  have hbio : SameReading s (s.useBio s.inst.inBio) := .useBio _
  have hawaits : s.awaitsClose = false := by
    have hboth := (Bool.and_eq_true_iff.1 hrun).2
    exact Bool.not_eq_true' _ ▸ hboth
  simp only [KeepsReading, onUnderlyingIoBytesReceived, wp_bind, wp_modify]
  apply wp_ask rfl (h.same hbio).final
  intro written hans
  simp only [wp_modify, wp_bind, wp_ite, wp_getInst, wp_setTlsioState]
  have hs := hbio.trans (.stepSsl (.bioWrite (buffer.take written.toNat)) [])
  split
  case isTrue hrefused =>
    have hans : (written == intOfSizeT buffer.length ||
        canFail (s.useBio s.inst.inBio)) = true := hans
    have hwritten : (written == intOfSizeT buffer.length) = false := beq_eq_false_iff_ne.2 hrefused
    rw [hwritten, Bool.false_or, ← canFail_stepSsl (.bioWrite (buffer.take written.toNat)) []]
      at hans
    refine wp_mono ?_ (refuseBytes_keepsReading (h.same hs) hans)
    intro _ s' hs'
    exact ⟨hs'.1, hs.rely.trans hs'.2⟩
  case isFalse =>
    exact (bytesReceivedIn_keepsReading (h.same hs) (hs.awaitsClose.trans hawaits)).after hs.rely

/-! ### The interface -/

theorem openUnderlyingIo_keepsReading (h : ReadInvariant s) (arguments : OpenArguments)
    (hnew : ¬ Occurs Event.failedOpen s.log s.openCalls) :
    KeepsReading (openUnderlyingIo config s.openCalls arguments) s := by
  simp only [KeepsReading, openUnderlyingIo, wp_bind, wp_getInst, wp_ite]
  split
  · exact ⟨h, .refl s⟩
  · simp only [wp_modify]
    let s₁ := s.beginOpen s.openCalls arguments
    have hinv : ReadInvariant s₁ := {
      final := h.final
      current := Nat.le_refl _
      numbered := h.numbered
      opening := fun _ => hnew
      notOpen := fun _ _ => by rintro ⟨⟩ }
    have hbegun : ReadRely s s₁ := readRely_of_eq rfl rfl rfl
    apply wp_createOpensslInstance
    case hlocal => exact fun _ => rfl
    case halways =>
      intro s' honly _
      exact (hinv.same (.engine honly)).final
    case hQ =>
      intro created s' hmade _
      have hs' : SameReading s₁ s' := .engine hmade.toEngineOnly
      have hinv' : ReadInvariant s' := hinv.same hs'
      have hrely' : ReadRely s s' := hbegun.trans hs'.rely
      simp only [wp_ite, wp_bind, wp_setTlsioState]
      split
      · exact ⟨hinv'.setState (by rintro ⟨⟩) (by rintro ⟨⟩), hrely'.trans (readRely_setState _)⟩
      · let s₂ : TlsIo := { s' with openDepth := s'.openDepth + 1, ioOpen := true }
        have hs₂ : SameReading s' s₂ := .of_eq rfl rfl rfl rfl rfl rfl rfl
        simp only [xioOpen, wp_bind, wp_modify]
        apply wp_readCall rfl ⟨rfl, rfl, rfl⟩ (hinv'.same hs₂)
        intro r s₃ _ hinv₃ hrely₃
        let s₄ : TlsIo := { s₃ with openDepth := s₃.openDepth - 1 }
        have hs₄ : SameReading s₃ s₄ := .of_eq rfl rfl rfl rfl rfl rfl rfl
        simp only [wp_pure, wp_ite, wp_bind, wp_modify, wp_closeOpensslInstance, wp_setTlsioState]
        have hrely₄ : ReadRely s s₄ := ((hrely'.trans hs₂.rely).trans hrely₃).trans hs₄.rely
        split
        · have hclosed : ReadInvariant (s₄.closeOpensslInstance.setState .tlsioStateNotOpen) :=
            ((hinv₃.same hs₄).same .closeOpensslInstance).setState (by rintro ⟨⟩) (by rintro ⟨⟩)
          exact ⟨hclosed.same (.of_eq rfl rfl rfl rfl rfl rfl rfl),
            hrely₄.trans (readRely_of_eq rfl rfl rfl)⟩
        · exact ⟨hinv₃.same hs₄, hrely₄⟩

theorem tlsioOpensslOpen_keepsReading (h : ReadInvariant s) (arguments : OpenArguments) :
    KeepsReading (tlsioOpensslOpen config arguments) s := by
  let s₁ : TlsIo := { s with openCalls := s.openCalls + 1 }
  have hinv : ReadInvariant s₁ := { h with
    current := Nat.le_succ_of_le h.current
    numbered := fun k hk => h.numbered k (Nat.lt_of_succ_lt hk) }
  have hcounted : ReadRely s s₁ := readRely_of_eq rfl rfl rfl
  simp only [KeepsReading, tlsioOpensslOpen, wp_bind, wp_modify, wp_get]
  refine wp_mono ?_ (openUnderlyingIo_keepsReading hinv arguments
    (h.numbered _ (Nat.lt_succ_self _)))
  rintro r s' ⟨hinv', hrely⟩
  have hs' : SameReading s' (s'.record (.openReturned s₁.openCalls r)) := .record ⟨rfl, rfl, rfl⟩
  exact ⟨hinv'.same hs', (hcounted.trans hrely).trans hs'.rely⟩

theorem cancelOpen_keepsReading (h : ReadInvariant s) (state : TlsioState) :
    KeepsReading (cancelOpen state) s := by
  simp only [KeepsReading, cancelOpen, wp_ite, wp_bind, wp_getInst]
  split
  · cases s.inst.onIoOpenComplete with
    | none =>
      have hs : SameReading s (s.record (.fault .callbackNull)) := .record ⟨rfl, rfl, rfl⟩
      exact ⟨h.same hs, hs.rely⟩
    | some cb =>
      apply wp_readCall rfl ⟨rfl, rfl, rfl⟩ h
      intro _ s' _ hinv hrely
      exact ⟨hinv, hrely⟩
  · exact ⟨h, .refl s⟩

theorem closeGracefully_keepsReading {j : Nat} {onIoCloseComplete : Option Callback}
    (h : ReadInvariant (s.beginClosing j onIoCloseComplete)) :
    KeepsReading (closeGracefully j onIoCloseComplete) s := by
  have hrely : ReadRely s (s.beginClosing j onIoCloseComplete) := readRely_of_eq rfl rfl rfl
  simp only [KeepsReading, closeGracefully, xioClose, wp_bind, wp_modify]
  apply wp_readCall rfl ⟨rfl, rfl, rfl⟩ h
  intro r s' _ hinv' hrely'
  simp only [wp_ite, wp_bind, wp_closeOpensslInstance, wp_modify, wp_setTlsioState]
  split
  · have hs' : SameReading s' { s'.closeOpensslInstance.closed with ioClosing := false } :=
      .of_eq rfl rfl rfl rfl rfl rfl rfl
    exact ⟨(hinv'.same hs').setState (by rintro ⟨⟩) (by rintro ⟨⟩),
      ((hrely.trans hrely').trans hs'.rely).trans (readRely_setState _)⟩
  · exact ⟨hinv', hrely.trans hrely'⟩

theorem forceClose_keepsReading (h : ReadInvariant s) : KeepsReading forceClose s := by
  simp only [KeepsReading, forceClose, xioClose, wp_bind]
  apply wp_readCall rfl ⟨rfl, rfl, rfl⟩ h
  intro r s' _ hinv' hrely
  simp only [wp_closeOpensslInstance, wp_setTlsioState, wp_modify]
  have hclosed : ReadInvariant (s'.closeOpensslInstance.setState .tlsioStateNotOpen) :=
    (hinv'.same .closeOpensslInstance).setState (by rintro ⟨⟩) (by rintro ⟨⟩)
  exact ⟨hclosed.same (.of_eq rfl rfl rfl rfl rfl rfl rfl),
    hrely.trans (readRely_of_eq rfl rfl rfl)⟩

theorem shutDown_keepsReading (h : ReadInvariant s) (j : Nat)
    (onIoCloseComplete : Option Callback) : KeepsReading (shutDown j onIoCloseComplete) s := by
  simp only [KeepsReading, shutDown, wp_bind, wp_getInst, wp_ite]
  split
  · exact closeGracefully_keepsReading (h.beginClosing j onIoCloseComplete rfl rfl rfl)
  · exact forceClose_keepsReading h

/-- From the call on nothing waits for the close; where the connection has failed in state OPEN, the state is
CLOSING before anything else is done. -/
theorem tlsioOpensslClose_keepsReading (h : ReadInvariant s)
    (onIoCloseComplete : Option Callback) :
    KeepsReading (tlsioOpensslClose onIoCloseComplete) s := by
  let s₁ : TlsIo := { s.endAttempt with closeCalls := s.closeCalls + 1, awaitsClose := false }
  have hs : ReadRely s s₁ := ⟨fun _ => rfl, fun _ _ => id, fun _ _ => id⟩
  have hshut : wp finality.spec (do
      cancelOpen s₁.inst.tlsioState
      shutDown s₁.closeCalls onIoCloseComplete)
        (fun _ s' => ReadInvariant s' ∧ ReadRely s₁ s') s₁ := by
    rw [wp_bind]
    by_cases hopen : s.inst.tlsioState = .tlsioStateOpen
    · have hopen₁ : s₁.inst.tlsioState = .tlsioStateOpen := hopen
      have hclosing : ReadInvariant (s₁.beginClosing s₁.closeCalls onIoCloseComplete) :=
        h.beginClosing _ _ rfl rfl rfl
      rw [cancelOpen, hopen₁, if_neg (by decide), wp_pure, shutDown, wp_bind, wp_getInst,
        if_pos hopen₁]
      exact closeGracefully_keepsReading hclosing
    · have hinv : ReadInvariant s₁ := ⟨h.final, h.current, h.numbered, h.opening, fun _ _ => hopen⟩
      refine wp_mono ?_ (cancelOpen_keepsReading hinv _)
      rintro _ s₂ ⟨hinv₂, hrely⟩
      exact (shutDown_keepsReading hinv₂ _ _).after hrely
  rw [wp_bind] at hshut
  simp only [KeepsReading, tlsioOpensslClose, wp_bind, wp_modify, wp_get]
  refine wp_mono ?_ hshut
  intro _ s₂ hshut₂
  refine wp_mono ?_ hshut₂
  rintro _ s₃ ⟨hinv, hrely⟩
  have hs' : SameReading s₃ (s₃.record (.closeReturned s₁.closeCalls s₁.cancels
    onIoCloseComplete 0)) := .record ⟨rfl, rfl, rfl⟩
  exact ⟨hinv.same hs', (hs.trans hrely).trans hs'.rely⟩

theorem sendBytes_keepsReading (h : ReadInvariant s) (sendId : Nat) (buffer : Bytes)
    (onSendComplete : Option Callback) (hawaits : s.awaitsClose = false) :
    wp finality.spec (sendBytes sendId s.currentOpen buffer onSendComplete)
      (fun r s' => ReadInvariant s' ∧ ReadRely s s' ∧
        (r = 0 → s'.hasFailed s.currentOpen = false)) s := by
  have hrefused : ReadInvariant s ∧ ReadRely s s ∧
      (failure = 0 → s.hasFailed s.currentOpen = false) :=
    ⟨h, .refl s, fun hr => absurd hr (by decide)⟩
  simp only [sendBytes, wp_bind, wp_getInst, wp_ite]
  split
  case isTrue => exact hrefused
  case isFalse hstate =>
    have hopen : s.inst.tlsioState = .tlsioStateOpen := Decidable.not_not.1 hstate
    have hfailed : s.hasFailed s.currentOpen = false := by
      rw [Bool.eq_false_iff, ne_eq, hasFailed_iff]
      exact fun hoccurs => h.notOpen hawaits hoccurs hopen
    cases s.inst.ssl with
    | none => exact hrefused
    | some ssl =>
      simp only [wp_bind]
      apply wp_ask rfl h.final
      intro step _
      simp only [wp_modify, wp_ite, wp_bind]
      let bytes := buffer.take (intOfSizeT buffer.length).toNat
      have hs : SameReading s (s.stepSsl (.sslWrite bytes)
        (applicationBytes sendId step.written)) := .stepSsl _ _
      split
      · exact ⟨h.same hs, hs.rely, fun hr => absurd hr (by decide)⟩
      · have hfailed' := (hs.hasFailed s.currentOpen).trans hfailed
        refine wp_mono ?_ (writeOutgoingBytes_keepsReading (k := s.currentOpen) (h.same hs) _
          fun _ _ _ => hfailed')
        rintro r s' ⟨hinv, hrely, haccepted⟩
        refine ⟨hinv, hs.rely.trans hrely, ?_⟩
        intro hr
        by_cases hzero : r = 0
        · exact haccepted _ _ rfl hzero
        · rw [if_pos hzero] at hr
          exact absurd hr (by decide)

theorem tlsioOpensslSend_keepsReading (h : ReadInvariant s) (buffer : Bytes)
    (onSendComplete : Option Callback)
    (hrun : runsFinally (.tlsioOpensslSend buffer onSendComplete) s = true) :
    KeepsReading (tlsioOpensslSend buffer onSendComplete) s := by
  let s₁ : TlsIo := { s with sendCalls := s.sendCalls + 1 }
  have hs : SameReading s s₁ := .of_eq rfl rfl rfl rfl rfl rfl rfl
  have hawaits : s₁.awaitsClose = false := by
    have hboth := (Bool.and_eq_true_iff.1 hrun).2
    exact Bool.not_eq_true' _ ▸ hboth
  simp only [KeepsReading, tlsioOpensslSend, wp_bind, wp_modify, wp_get]
  refine wp_mono ?_ (sendBytes_keepsReading (h.same hs) _ buffer onSendComplete hawaits)
  rintro r s' ⟨hinv, hrely, haccepted⟩
  refine ⟨hinv.accepted ?_, ?_⟩
  · intro hr hoccurs
    rw [← hasFailed_iff, haccepted hr] at hoccurs
    cases hoccurs
  · exact (hs.rely.trans hrely).trans (readRely_record rfl)

theorem closeFailedHandshake_keepsReading (h : ReadInvariant s) :
    KeepsReading closeFailedHandshake s := by
  have hinv : ReadInvariant (s.setState .tlsioStateError) := h.setState nofun nofun
  have hrely : ReadRely s (s.setState .tlsioStateError) := readRely_setState _
  simp only [KeepsReading, closeFailedHandshake, wp_bind, wp_setTlsioState]
  refine wp_mono ?_ (tlsioOpensslClose_keepsReading hinv none)
  rintro _ s' ⟨hinv', hrely'⟩
  exact (indicateOpenComplete_keepsReading hinv' _ _).after (hrely.trans hrely')

theorem workUnderlyingIo_keepsReading (h : ReadInvariant s) :
    KeepsReading workUnderlyingIo s := by
  let s₁ : TlsIo := { s with doworkDepth := s.doworkDepth + 1 }
  have hs : SameReading s s₁ := .of_eq rfl rfl rfl rfl rfl rfl rfl
  simp only [KeepsReading, workUnderlyingIo, wp_bind, wp_modify]
  apply wp_readCall rfl ⟨rfl, rfl, rfl⟩ (h.same hs)
  intro _ s' _ hinv hrely
  let s₂ : TlsIo := { s' with doworkDepth := s'.doworkDepth - 1 }
  have hs' : SameReading s' s₂ := .of_eq rfl rfl rfl rfl rfl rfl rfl
  have hrely' : ReadRely s s₂ := (hs.rely.trans hrely).trans hs'.rely
  rw [wp_modify, wp_getInst, wp_ite]
  split
  · exact (closeFailedHandshake_keepsReading (hinv.same hs')).after hrely'
  · exact ⟨hinv.same hs', hrely'⟩

theorem tlsioOpensslDowork_keepsReading (h : ReadInvariant s) :
    KeepsReading tlsioOpensslDowork s := by
  have hpumped : KeepsReading (pumpOutgoing s.inst.tlsioState) s := by
    simp only [KeepsReading, pumpOutgoing, wp_ite, wp_bind]
    split
    · exact writeOutgoingBytes_keepsReading' h (.inr rfl)
    · exact ⟨h, .refl s⟩
  simp only [KeepsReading, tlsioOpensslDowork, wp_bind, wp_getInst]
  refine wp_mono ?_ hpumped
  rintro _ s' ⟨hinv, hrely⟩
  rw [wp_getInst, wp_ite]
  split
  · exact (workUnderlyingIo_keepsReading hinv).after hrely
  · exact ⟨hinv, hrely⟩

theorem tlsioOpensslDestroy_keepsReading (h : ReadInvariant s) :
    KeepsReading tlsioOpensslDestroy s := by
  let s₁ := (s.setInst { s.inst with
    certificate := none, x509Certificate := none, x509PrivateKey := none }).closeOpensslInstance
  have hs₁ : SameReading s s₁ := .of_eq rfl rfl rfl rfl rfl rfl rfl
  have hs : SameReading s (s₁.record (.call s₁.currentOpen .xioDestroy)) :=
    hs₁.trans (.record ⟨rfl, rfl, rfl⟩)
  have hinv := h.same hs
  simp only [KeepsReading, tlsioOpensslDestroy, callOut, wp_bind, wp_modify, wp_modifyInst,
    wp_closeOpensslInstance]
  apply wp_ask rfl hinv.final
  intro _ _
  refine ⟨?_, hs.rely.trans (readRely_of_eq rfl rfl rfl)⟩
  exact { hinv with opening := by rintro ⟨⟩, notOpen := fun _ _ => by rintro ⟨⟩ }

theorem SameReading.of_optionsOnly (h : OptionsOnly s s') : SameReading s s' := by
  refine .of_eq h.state h.onIoError ?_ ?_ ?_ ?_ ?_
  all_goals rw [h.rest]

theorem tlsioOpensslSetoption_keepsReading (h : ReadInvariant s) (option : TlsioOption) :
    KeepsReading (tlsioOpensslSetoption option) s := by
  have hsame : ∀ s', OptionsOnly s s' → ReadInvariant s' := fun _ hs => h.same (.of_optionsOnly hs)
  apply wp_tlsioOpensslSetoption (fun _ => rfl) fun s' hs => (hsame s' hs).final
  intro _ s' hs
  exact ⟨hsame s' hs, (SameReading.of_optionsOnly hs).rely⟩

theorem tlsioOpensslCode_keepsReading (h : ReadInvariant s) {p : Proc}
    (hentry : p = .decodeSslReceivedBytes → s.awaitsClose = false) (hrun : runsFinally p s = true) : KeepsReading (tlsioOpensslCode config p) s := by
  have hvoid : ∀ {c : TlsComp Unit}, KeepsReading c s → KeepsReading (void c) s := by
    intro c hc
    rw [KeepsReading, void, wp_bind]
    exact hc
  cases p with
  | tlsioOpensslOpen arguments => exact tlsioOpensslOpen_keepsReading h arguments
  | tlsioOpensslClose onIoCloseComplete => exact tlsioOpensslClose_keepsReading h _
  | tlsioOpensslSend buffer onSendComplete => exact tlsioOpensslSend_keepsReading h _ _ hrun
  | tlsioOpensslDowork => exact hvoid (tlsioOpensslDowork_keepsReading h)
  | tlsioOpensslSetoption option => exact tlsioOpensslSetoption_keepsReading h option
  | tlsioOpensslDestroy => exact hvoid (tlsioOpensslDestroy_keepsReading h)
  | onUnderlyingIoOpenComplete openResult =>
    exact hvoid (onUnderlyingIoOpenComplete_keepsReading h openResult)
  | onUnderlyingIoBytesReceived buffer =>
    exact hvoid (onUnderlyingIoBytesReceived_keepsReading h buffer hrun)
  | onUnderlyingIoError => exact hvoid (onUnderlyingIoError_keepsReading h hrun)
  | onUnderlyingIoCloseComplete => exact hvoid (onUnderlyingIoCloseComplete_keepsReading h)
  | decodeSslReceivedBytes => exact decodeSslReceivedBytes_keepsReading h (hentry rfl)

end

/-! ## Every run -/

theorem finality_sound (config : TlsioConfig) : finality.Sound (tlsioOpensslCode config) where
  inv_always s h := h.final
  refl := .refl
  trans _ _ _ h h' := h.trans h'
  reenter c p s hmay := ⟨reenters_of_mayEnter hmay, rfl⟩
  enter := by
    rintro top p s _ _ hmay rfl
    -- Nobody else can call it.
    have hboth := Bool.and_eq_true_iff.1 (Bool.and_eq_true_iff.1 hmay).1
    cases hboth.2
  code := by
    intro p s h hentry hrun
    refine wp_mono ?_ (tlsioOpensslCode_keepsReading h hentry hrun)
    rintro _ s' ⟨hinv, hrely⟩
    exact ⟨hinv, hrely.closed, fun _ => hrely⟩

/-- The io reports an error, and the user closes in `on_io_error`. -/
def errorThenClose : List (Input tlsioOpensslSignature) :=
  opened ++ [.enter .onUnderlyingIoError, .enter (.tlsioOpensslClose none), .answer succeeds,
    .answer succeeds, .enter .onUnderlyingIoCloseComplete]

/-- `SSL_read` fails when a record arrives. -/
def readFails : List (Input tlsioOpensslSignature) :=
  opened ++ [.enter (.onUnderlyingIoBytesReceived [0x15]), .answer succeeds,
    .answer fun
      | .sslRead _ => { result := .error (.other 1) }
      | c => succeeds c]

end SharedUtility.TlsIoOpenssl
