import SharedUtility.Reentrant.Interference
import SharedUtility.Reentrant.Observer
import SharedUtility.UwsClient.Rules

/-!
# Watch — the client under observation, with users that call back

`reentrantRun` lets a callback of the user call any function of the client before it returns, and a
function of the underlying io make any of its callbacks.  A `Watch` is what a group of results shows
of these runs: notes, an invariant, and what a nested call leaves alone.  Most functions of the client
do little that a watch is about; what they do is proved harmless here once, for every watch that
tolerates it.
-/

namespace SharedUtility.UwsClient

open Reentrant Observed Observer

/-- Any function between calls; from the functions of the io its callbacks, and from the callbacks of
the user the functions of the client. -/
def reentrantRun : Env Uws uwsSignature where
  mayEnter top p s :=
    !s.destroyed &&
    (match top with
      | none => p.isApi || p.isIoEvent
      | some c => (c.isXio && p.isIoEvent) || (c.isCallback && p.isApi))
  mayAnswer _ _ _ := true

theorem reentrantRun_reenters {c : Call} {p : Proc} {s : Uws}
    (h : reentrantRun.mayEnter (some c) p s = true) : c.isLocal = false := by
  simp only [reentrantRun, Bool.and_eq_true, Bool.or_eq_true] at h
  cases c with
  | malloc => simp [Call.isXio, Call.isCallback] at h
  | encoderResources => simp [Call.isXio, Call.isCallback] at h
  | nonce => simp [Call.isXio, Call.isCallback] at h
  | errno => simp [Call.isXio, Call.isCallback] at h
  | _ => rfl

theorem reentrantRun_enters {top : Option Call} {p : Proc} {s : Uws}
    (h : reentrantRun.mayEnter top p s = true) : p.isApi = true ∨ p.isIoEvent = true := by
  simp only [reentrantRun, Bool.and_eq_true] at h
  cases top with
  | none => simpa using h.2
  | some c =>
    simp only [Bool.or_eq_true, Bool.and_eq_true] at h
    rcases h.2 with hxio | huser
    · exact .inr hxio.2
    · exact .inl huser.2

theorem reentrantRun_ne_decodeStream {top : Option Call} {p : Proc} {s : Uws}
    (h : reentrantRun.mayEnter top p s = true) : p ≠ .decodeStream := by
  rintro rfl
  rcases reentrantRun_enters h with hp | hp
  · cases hp
  · cases hp

/-- The states in which a decode round reads a frame. -/
def UwsState.decodesFrames : UwsState → Bool
  | .uwsStateOpen | .uwsStateClosingWaitingForClose => true
  | _ => false

def startsMasked (streamBuffer : Bytes) : Bool :=
  2 ≤ streamBuffer.length && streamBuffer.getD 1 0 &&& 0x80 != 0

/-- Whether `uws_client_close_handshake_async` returns at once, without an effect. -/
def UwsState.refusesHandshake : UwsState → Bool
  | .uwsStateClosed | .uwsStateClosingWaitingForClose | .uwsStateClosingSendingClose
  | .uwsStateClosingUnderlyingIo => true
  | _ => false

theorem refusesHandshake_eq_false {st : UwsState} (hclosed : st ≠ .uwsStateClosed)
    (hwaiting : st ≠ .uwsStateClosingWaitingForClose)
    (hsending : st ≠ .uwsStateClosingSendingClose)
    (hclosing : st ≠ .uwsStateClosingUnderlyingIo) : st.refusesHandshake = false := by
  cases st <;> first | rfl | contradiction

/-- Whether `uws_client_open_async` starts to open. -/
def Uws.startsOpen (s : Uws) (callbacks : OpenCallbacks) : Bool :=
  !callbacks.anyNull && s.client.uwsState == .uwsStateClosed

/-- The instance when `uws_client_open_async` calls `xio_open`. -/
def Uws.openStarted (s : Uws) (callbacks : OpenCallbacks) : Uws :=
  { (({ s with openCalls := s.openCalls + 1 } : Uws).setClient (s.client.beginOpen callbacks)) with
    currentOpen := s.openCalls + 1 }.record (.openAccepted (s.openCalls + 1))

/-- What a watch is not about: the two instances differ in their lists of sends, their fragments, the
observer's counters and the log, but there is no new underflow. -/
structure Uws.Alike (s t : Uws) : Prop where
  uwsState : t.client.uwsState = s.client.uwsState
  streamBuffer : t.client.streamBuffer = s.client.streamBuffer
  callbacks : t.client.callbacks = s.client.callbacks
  onWsCloseComplete : t.client.onWsCloseComplete = s.client.onWsCloseComplete
  currentOpen : t.currentOpen = s.currentOpen
  underflow : .fault .streamBufferUnderflow ∈ t.log → .fault .streamBufferUnderflow ∈ s.log

theorem Uws.alike_record (s : Uws) (ev : Event) (hev : ev ≠ .fault .streamBufferUnderflow) :
    Uws.Alike s (s.record ev) := by
  refine ⟨rfl, rfl, rfl, rfl, rfl, ?_⟩
  intro h
  rcases List.mem_append.1 h with h | h
  · exact h
  · exact absurd (List.mem_singleton.1 h).symm hev

theorem Uws.alike_setClient (s : Uws) {c : UwsClientInstance}
    (hstate : c.uwsState = s.client.uwsState) (hstream : c.streamBuffer = s.client.streamBuffer)
    (hcallbacks : c.callbacks = s.client.callbacks)
    (hslot : c.onWsCloseComplete = s.client.onWsCloseComplete) : Uws.Alike s (s.setClient c) :=
  ⟨hstate, hstream, hcallbacks, hslot, rfl, id⟩

theorem Uws.alike_fragmentChecked (s : Uws) : Uws.Alike s s.fragmentChecked := by
  unfold Uws.fragmentChecked
  split
  · exact s.alike_record _ nofun
  · exact ⟨rfl, rfl, rfl, rfl, rfl, id⟩

theorem Uws.alike_fragmentFreed (s : Uws) : Uws.Alike s s.fragmentFreed :=
  { s.alike_fragmentChecked with
    uwsState := rfl
    streamBuffer := rfl
    callbacks := rfl
    onWsCloseComplete := rfl }

/-- `decodes` and `decoded` are what the decode loop needs and what it does; the other procedures
need the invariant and `entry`, and do `effect`.  `within` is what the steps of one procedure leave
alone.  `calm` are the states that a watch does not care about, `common` the calls. -/
structure Watch (N : Type) where
  observer : Observer Uws uwsSignature N
  env : Env (Observed Uws N) uwsSignature
  inv : Observed Uws N → Prop
  rely : Observed Uws N → Observed Uws N → Prop
  within : Observed Uws N → Observed Uws N → Prop
  entry : Proc → Observed Uws N → Prop
  effect : Proc → Observed Uws N → Observed Uws N → Prop := fun _ _ _ => True
  decodes : Observed Uws N → Prop
  decoded : Observed Uws N → Observed Uws N → Prop
  calm : UwsState → Prop
  common : Call → Prop

/-- The calls that most functions make. -/
def Call.isOrdinary : Call → Bool
  | .xioOpen | .errno | .onWsCloseComplete _ => false
  | _ => true

namespace Watch

variable {N : Type} {α : Type}

def interference (W : Watch N) : Interference (Observed Uws N) uwsSignature where
  env := W.env
  reenters c := !c.isLocal
  inv := W.inv
  rely := W.rely
  pre p s :=
    match p with
    | .decodeStream => W.decodes s
    | p => W.inv s ∧ W.entry p s
  post p s s' :=
    match p with
    | .decodeStream => W.decoded s s'
    | p => W.inv s' ∧ W.rely s s' ∧ W.effect p s s'

/-- The state in which a procedure, started in `s`, begins. -/
def beginProc (W : Watch N) (p : Proc) (s : Observed Uws N) : Observed Uws N :=
  s.setNotes (W.observer.entered p s.state s.notes)

/-- The state that is left by a procedure whose code ends in `s`. -/
def endProc (W : Watch N) (p : Proc) (r : Int) (s : Observed Uws N) : Observed Uws N :=
  s.setNotes (W.observer.returned p r s.state s.notes)

/-- Where the code of a procedure that began in `s₀` may be. -/
structure At (W : Watch N) (s₀ s : Observed Uws N) : Prop where
  inv : W.inv s
  within : W.within s₀ s

/-- The code ends where the procedure that began in `s₀` may be. -/
def Keeps (W : Watch N) (s₀ : Observed Uws N) (c : UwsComp α) (s : Observed Uws N) : Prop :=
  wp W.interference.spec (W.observer.observe c) (fun _ s' => W.At s₀ s') s

/-- The watch tolerates what it is not about, where it cares about nothing but what is closed. -/
structure Steady (W : Watch N) : Prop where
  alike : ∀ s₀ s t, W.At s₀ s → Uws.Alike s.state t → W.At s₀ (s.setState t)
  state : ∀ s₀ s st, W.At s₀ s → W.calm st → W.At s₀ (s.setState (s.state.setState st))
  called : ∀ s₀ c s, W.At s₀ s → W.common c →
    W.At s₀ (s.setNotes (W.observer.called c s.state s.notes))
  answered : ∀ s₀ c r s, W.At s₀ s → W.common c →
    W.At s₀ (s.setNotes (W.observer.answered c r s.state s.notes))
  relied : ∀ s₀ s s', W.At s₀ s → W.inv s' → W.rely s s' → W.At s₀ s'
  ordinary : ∀ c, c.isOrdinary = true → W.common c
  closed : W.calm .uwsStateClosed

/-- The watch tolerates errors, and an open that goes on. -/
structure Tolerant (W : Watch N) : Prop extends Steady W where
  error : W.calm .uwsStateError
  waiting : W.calm .uwsStateWaitingForUpgradeResponse

/-- The watch tolerates the closing states, and another callback in the slot `on_ws_close_complete`. -/
structure Closable (W : Watch N) : Prop extends Tolerant W where
  closing : W.calm .uwsStateClosingUnderlyingIo
  sending : W.calm .uwsStateClosingSendingClose
  slot : ∀ s₀ s cb, W.At s₀ s →
    W.At s₀ (s.setState (s.state.setClient { s.state.client with onWsCloseComplete := cb }))

/-- The watch is not about the stream buffer. -/
structure Streaming (W : Watch N) : Prop extends Tolerant W where
  opened : W.calm .uwsStateOpen
  errno : W.common .errno
  stream : ∀ s₀ s buffer, W.At s₀ s →
    W.At s₀ (s.setState (s.state.setClient (s.state.client.withStream buffer)))
  consumed : ∀ s₀ s n, W.At s₀ s → W.At s₀ (s.setState (s.state.consumed n))
  decodes : ∀ s₀ s, W.At s₀ s → W.decodes s
  decoded : ∀ s₀ s s', W.At s₀ s → W.decoded s s' → W.At s₀ s'

/-! ## Rules -/

section

variable {W : Watch N} {s s₀ : Observed Uws N}

@[simp] theorem observe_getClient {spec : Spec (Observed Uws N) uwsSignature}
    (Q : UwsClientInstance → Observed Uws N → Prop) :
    wp spec (W.observer.observe getClient) Q s ↔ Q s.state.client s := by
  simp [getClient]

@[simp] theorem observe_modifyClient {spec : Spec (Observed Uws N) uwsSignature}
    (f : UwsClientInstance → UwsClientInstance) (Q : Unit → Observed Uws N → Prop) :
    wp spec (W.observer.observe (modifyClient f)) Q s ↔
      Q () (s.setState (s.state.setClient (f s.state.client))) := by
  simp [modifyClient]

@[simp] theorem observe_setUwsState {spec : Spec (Observed Uws N) uwsSignature} (st : UwsState)
    (Q : Unit → Observed Uws N → Prop) :
    wp spec (W.observer.observe (setUwsState st)) Q s ↔
      Q () (s.setState (s.state.setState st)) := by
  simp [setUwsState]

@[simp] theorem observe_fault {spec : Spec (Observed Uws N) uwsSignature} (f : Fault)
    (Q : Unit → Observed Uws N → Prop) :
    wp spec (W.observer.observe (fault f)) Q s ↔
      Q () (s.setState (s.state.record (.fault f))) := by
  simp [fault]

@[simp] theorem observe_consumeStreamBufferBytes {spec : Spec (Observed Uws N) uwsSignature} (n : Nat)
    (Q : Unit → Observed Uws N → Prop) :
    wp spec (W.observer.observe (consumeStreamBufferBytes n)) Q s ↔
      Q () (s.setState (s.state.consumed n)) := by
  by_cases hlt : s.state.client.streamBuffer.length < n
  · simp [consumeStreamBufferBytes, Uws.consumed, hlt]
  · simp [consumeStreamBufferBytes, Uws.consumed, hlt]

@[simp] theorem observe_checkFragmentBuffer {spec : Spec (Observed Uws N) uwsSignature}
    (Q : Unit → Observed Uws N → Prop) :
    wp spec (W.observer.observe checkFragmentBuffer) Q s ↔
      Q () (s.setState s.state.fragmentChecked) := by
  by_cases hfreed : s.state.client.fragmentBlock = .freed
  · simp [checkFragmentBuffer, Uws.fragmentChecked, hfreed]
  · simp [checkFragmentBuffer, Uws.fragmentChecked, hfreed, Observed.setState]

@[simp] theorem observe_freeFragmentBuffer {spec : Spec (Observed Uws N) uwsSignature}
    (Q : Unit → Observed Uws N → Prop) :
    wp spec (W.observer.observe freeFragmentBuffer) Q s ↔
      Q () (s.setState s.state.fragmentFreed) := by
  simp [freeFragmentBuffer, Uws.fragmentFreed]

theorem observe_askLocal {c : Call} {Q : Ans c → Observed Uws N → Prop} (hc : c.isLocal = true)
    (hinv : W.inv (s.setNotes (W.observer.called c s.state s.notes)))
    (hQ : ∀ r, W.env.mayAnswer c r (s.setNotes (W.observer.called c s.state s.notes)) = true →
      Q r (s.setNotes (W.observer.answered c r s.state (W.observer.called c s.state s.notes)))) :
    wp W.interference.spec (W.observer.observe (ask c)) Q s :=
  Interference.wp_local (F := W.interference) (by simp [interference, hc]) hinv hQ

/-- The state in which a call is made: it is recorded, and noted. -/
def calling (W : Watch N) (c : Call) (s : Observed Uws N) : Observed Uws N :=
  let s₁ := s.setState (s.state.record (.call s.state.currentOpen c))
  s₁.setNotes (W.observer.called c s₁.state s₁.notes)

theorem observe_callOut {c : Call} {Q : Ans c → Observed Uws N → Prop} (hc : c.isLocal = false)
    (hinv : W.inv (W.calling c s))
    (hQ : ∀ r s', W.env.mayAnswer c r s' = true → W.inv s' → W.rely (W.calling c s) s' →
      Q r (s'.setNotes (W.observer.answered c r s'.state s'.notes))) :
    wp W.interference.spec (W.observer.observe (callOut c)) Q s := by
  simp only [callOut, wp_observe_bind, wp_observe_modify]
  exact Interference.wp_reentrant (F := W.interference) (by simp [interference, hc]) hinv hQ

end

/-! ## Steps that a watch tolerates -/

section

variable {W : Watch N} (T : W.Steady) {s s₀ : Observed Uws N}

include T

theorem Steady.atAlike (h : W.At s₀ s) {t : Uws} (ht : Uws.Alike s.state t) :
    W.At s₀ (s.setState t) :=
  T.alike s₀ s t h ht

theorem Steady.atState (h : W.At s₀ s) {st : UwsState} (hst : W.calm st) :
    W.At s₀ (s.setState (s.state.setState st)) :=
  T.state s₀ s st h hst

theorem Steady.atCalling (h : W.At s₀ s) {c : Call} (hc : W.common c) :
    W.At s₀ (W.calling c s) :=
  T.called s₀ c _ (T.atAlike h (s.state.alike_record (.call s.state.currentOpen c) nofun)) hc

theorem Steady.callOut (h : W.At s₀ s) {c : Call} {Q : Ans c → Observed Uws N → Prop}
    (hlocal : c.isLocal = false) (hc : W.common c) (hQ : ∀ r s', W.At s₀ s' → Q r s') :
    wp W.interference.spec (W.observer.observe (callOut c)) Q s := by
  have hcalling := T.atCalling h hc
  apply observe_callOut hlocal hcalling.inv
  intro r s' _ hinv hrely
  exact hQ r _ (T.answered s₀ c r s' (T.relied s₀ _ s' hcalling hinv hrely) hc)

theorem Steady.askLocal (h : W.At s₀ s) {c : Call} {Q : Ans c → Observed Uws N → Prop}
    (hlocal : c.isLocal = true) (hc : W.common c) (hQ : ∀ r s', W.At s₀ s' → Q r s') :
    wp W.interference.spec (W.observer.observe (ask c)) Q s := by
  have hcalled := T.called s₀ c s h hc
  apply observe_askLocal hlocal hcalled.inv
  intro r _
  exact hQ r _ (T.answered s₀ c r _ hcalled hc)

theorem Steady.callBack (h : W.At s₀ s) {slot : Option Callback} {c : Callback → Call}
    {Q : Unit → Observed Uws N → Prop} (hlocal : ∀ cb, (c cb).isLocal = false)
    (hc : ∀ cb, W.common (c cb)) (hQ : ∀ s', W.At s₀ s' → Q () s') :
    wp W.interference.spec (W.observer.observe (callBack slot c)) Q s := by
  cases slot with
  | none =>
    simp only [UwsClient.callBack, observe_fault]
    exact hQ _ (T.atAlike h (s.state.alike_record (.fault .nullCallback) (by rintro ⟨⟩)))
  | some cb =>
    simp only [UwsClient.callBack, wp_observe_bind]
    apply T.callOut h (hlocal cb) (hc cb)
    intro _ s' hs'
    exact hQ s' hs'

theorem Steady.callClear (h : W.At s₀ s) (hentry : W.entry .clearPendingSends s)
    {Q : Int → Observed Uws N → Prop} (hQ : ∀ r s', W.At s₀ s' → Q r s') :
    wp W.interference.spec (W.observer.observe (callProc .clearPendingSends)) Q s := by
  show wp W.interference.spec (Comp.proc Proc.clearPendingSends) Q s
  apply Interference.wp_nested (F := W.interference)
  case hpre => exact ⟨h.inv, hentry⟩
  case hQ =>
    rintro r s' ⟨hinv, hrely, -⟩
    exact hQ r s' (T.relied s₀ s s' h hinv hrely)

end

/-! ## Functions that end closed, or keep the state -/

section

variable {W : Watch N} (T : W.Steady) {s s₀ : Observed Uws N}

include T

theorem Steady.indicateWsOpenCompleteError (h : W.At s₀ s) (result : WsOpenResultDetailed) :
    W.Keeps s₀ (indicateWsOpenCompleteError result) s := by
  simp only [Keeps, UwsClient.indicateWsOpenCompleteError, wp_observe_bind, observe_setUwsState,
    observe_getClient]
  exact T.callBack (T.atState h T.closed) (fun _ => rfl) (fun _ => T.ordinary _ rfl) fun _ h' => h'

theorem Steady.indicateWsOpenCompleteErrorAndClose (h : W.At s₀ s)
    (result : WsOpenResultDetailed) :
    W.Keeps s₀ (indicateWsOpenCompleteErrorAndClose result) s := by
  simp only [Keeps, UwsClient.indicateWsOpenCompleteErrorAndClose, xioClose, wp_observe_bind]
  apply T.callOut h rfl (T.ordinary _ rfl)
  intro _ s' h'
  exact T.indicateWsOpenCompleteError h' result

theorem Steady.completeSendFrame (h : W.At s₀ s) (wsPendingSend : WsPendingSend)
    (result : WsSendFrameResult) :
    wp W.interference.spec (W.observer.observe (completeSendFrame wsPendingSend result))
      (fun r s' => W.At s₀ s' ∧ (wsPendingSend ∈ s.state.client.pendingSends → r = 0)) s := by
  simp only [UwsClient.completeSendFrame, wp_observe_bind, observe_getClient, wp_observe_ite]
  split
  · rename_i hnone
    refine ⟨h, ?_⟩
    intro hmem
    have hne := List.all_eq_true.1 hnone wsPendingSend hmem
    simp at hne
  · have hremoved : W.At s₀ (s.setState (s.state.setClient { s.state.client with
        pendingSends := s.state.client.pendingSends.filter (·.item != wsPendingSend.item) })) :=
      T.atAlike h (s.state.alike_setClient rfl rfl rfl rfl)
    simp only [observe_modifyClient]
    cases wsPendingSend.onWsSendFrameComplete with
    | none => exact ⟨hremoved, fun _ => rfl⟩
    | some cb =>
      simp only [wp_observe_bind]
      apply T.callOut hremoved rfl (T.ordinary _ rfl)
      intro _ s' h'
      exact ⟨h', fun _ => rfl⟩

theorem Steady.clearPendingSends (h : W.At s₀ s)
    (hclear : ∀ s, W.At s₀ s → W.entry .clearPendingSends s) :
    W.Keeps s₀ clearPendingSends s := by
  simp only [Keeps, UwsClient.clearPendingSends, wp_observe_bind, observe_getClient]
  cases s.state.client.pendingSends with
  | nil => exact h
  | cons firstPendingSend rest =>
    simp only [wp_observe_bind]
    apply wp_mono _ (T.completeSendFrame h firstPendingSend .wsSendFrameCancelled)
    rintro _ s₁ ⟨h₁, -⟩
    exact T.callClear h₁ (hclear s₁ h₁) fun _ _ h' => h'

/-- The send that the io has completed is in the list, so that no error is indicated. -/
theorem Steady.onUnderlyingIoSendComplete (h : W.At s₀ s) (item : Nat)
    (sendResult : IoSendResult) : W.Keeps s₀ (onUnderlyingIoSendComplete item sendResult) s := by
  simp only [Keeps, UwsClient.onUnderlyingIoSendComplete, wp_observe_bind, observe_getClient]
  split
  · simp only [observe_fault]
    exact T.atAlike h (s.state.alike_record _ nofun)
  · rename_i wsPendingSend hfind
    simp only [wp_observe_bind]
    apply wp_mono _ (T.completeSendFrame h _ _)
    rintro r s' ⟨h', hr⟩
    rw [if_neg (not_not.2 (hr (List.mem_of_find?_eq_some hfind)))]
    exact h'

theorem Steady.uwsClientDowork (h : W.At s₀ s) : W.Keeps s₀ uwsClientDowork s := by
  simp only [Keeps, UwsClient.uwsClientDowork, wp_observe_bind, wp_observe_ite, observe_getClient]
  split
  · apply T.callOut h rfl (T.ordinary _ rfl)
    intro _ s' h'
    exact h'
  · exact h

theorem Steady.uwsClientDestroy (h : W.At s₀ s)
    (hclear : ∀ s, W.At s₀ s → W.entry .clearPendingSends s)
    (hclose : W.At s₀ (s.setState s.state.fragmentFreed) →
      s.state.client.uwsState ≠ .uwsStateClosed →
        W.Keeps s₀ (uwsClientCloseAsync none) (s.setState s.state.fragmentFreed)) :
    W.Keeps s₀ uwsClientDestroy s := by
  have hdestroy : ∀ s₁, W.At s₀ s₁ → W.Keeps s₀ (do
      let _ ← UwsClient.callOut .xioDestroy
      let _ ← callProc .clearPendingSends
      Comp.modify fun s => { s with destroyed := true } : UwsComp Unit) s₁ := by
    intro s₁ h₁
    simp only [Keeps, wp_observe_bind]
    apply T.callOut h₁ rfl (T.ordinary _ rfl)
    intro _ s₂ h₂
    apply T.callClear h₂ (hclear s₂ h₂)
    intro _ s₃ h₃
    exact T.atAlike h₃ ⟨rfl, rfl, rfl, rfl, rfl, id⟩
  have hfreed := T.atAlike h s.state.alike_fragmentFreed
  have hboth : s.state.client.uwsState ≠ .uwsStateClosed → W.Keeps s₀ (do
      let _ ← uwsClientCloseAsync none
      let _ ← UwsClient.callOut .xioDestroy
      let _ ← callProc .clearPendingSends
      Comp.modify fun s => { s with destroyed := true } : UwsComp Unit)
      (s.setState s.state.fragmentFreed) := by
    intro hstate
    rw [Keeps, wp_observe_bind]
    apply wp_mono _ (hclose hfreed hstate)
    intro _ s₁ h₁
    exact hdestroy s₁ h₁
  simp only [Keeps, UwsClient.uwsClientDestroy, wp_observe_bind, observe_freeFragmentBuffer,
    observe_getClient]
  split
  · rename_i hstate
    replace hstate : s.state.client.uwsState = .uwsStateOpen := hstate
    simpa only [Keeps, wp_observe_bind] using hboth (by rw [hstate]; exact nofun)
  · rename_i hstate
    replace hstate : s.state.client.uwsState = .uwsStateError := hstate
    simpa only [Keeps, wp_observe_bind] using hboth (by rw [hstate]; exact nofun)
  · simpa only [Keeps, wp_observe_bind] using hdestroy _ hfreed

theorem Steady.sendCloseFrame (h : W.At s₀ s) (closeErrorCode : Nat) :
    W.Keeps s₀ (sendCloseFrame closeErrorCode) s := by
  simp only [Keeps, UwsClient.sendCloseFrame, encoderResources, wp_observe_bind]
  apply T.askLocal h rfl (T.ordinary _ rfl)
  intro res s₁ h₁
  cases uwsFrameEncoderEncode res wsCloseFrame
      (some [UInt8.ofNat (closeErrorCode >>> 8), UInt8.ofNat closeErrorCode]) 2 true true 0 with
  | none => exact h₁
  | some frame =>
    simp only [xioSend, wp_observe_bind]
    apply T.callOut h₁ rfl (T.ordinary _ rfl)
    intro _ s' h'
    exact h'

theorem Steady.sendFrameAsyncProc (h : W.At s₀ s) (frameType : UInt8) (buffer : Option Bytes)
    (size : Nat) (isFinal : Bool) (cb : Option Callback) :
    W.Keeps s₀ (sendFrameAsyncProc frameType buffer size isFinal cb) s := by
  have hcounted : W.At s₀ (s.setState { s.state with sendCalls := s.state.sendCalls + 1 }) :=
    T.atAlike h ⟨rfl, rfl, rfl, rfl, rfl, id⟩
  have hreturn : ∀ (s' : Observed Uws N) (r : Int), W.At s₀ s' →
      W.At s₀ (s'.setState
        (s'.state.record (.sendFrameAsyncReturned s.state.sendCalls cb r))) :=
    fun s' r h' => T.atAlike h' (s'.state.alike_record _ nofun)
  simp only [Keeps, UwsClient.sendFrameAsyncProc, UwsClient.uwsClientSendFrameAsync, malloc,
    encoderResources, wp_observe_bind, wp_observe_get, wp_observe_modify, wp_observe_ite,
    observe_getClient]
  split
  · exact hreturn _ _ hcounted
  split
  · exact hreturn _ _ hcounted
  apply T.askLocal hcounted rfl (T.ordinary _ rfl)
  intro pendingSendAllocated s₁ h₁
  split
  · exact hreturn _ _ h₁
  simp only [wp_observe_bind]
  apply T.askLocal h₁ rfl (T.ordinary _ rfl)
  intro res s₂ h₂
  cases uwsFrameEncoderEncode res frameType buffer size true isFinal 0 with
  | none => exact hreturn _ _ h₂
  | some encodedFrame =>
    simp only [wp_observe_bind]
    apply T.askLocal h₂ rfl (T.ordinary _ rfl)
    intro itemAllocated s₃ h₃
    split
    · exact hreturn _ _ h₃
    simp only [xioSend, wp_observe_bind, observe_modifyClient]
    have hadded : W.At s₀ (s₃.setState (s₃.state.setClient { s₃.state.client with
        pendingSends := s₃.state.client.pendingSends ++
          [{ item := s.state.sendCalls, onWsSendFrameComplete := cb }] })) :=
      T.atAlike h₃ (s₃.state.alike_setClient rfl rfl rfl rfl)
    apply T.callOut hadded rfl (T.ordinary _ rfl)
    intro r s₄ h₄
    split
    · simp only [wp_observe_bind, observe_modifyClient, wp_observe_pure, wp_observe_modify]
      exact hreturn _ _ (T.atAlike h₄ (s₄.state.alike_setClient rfl rfl rfl rfl))
    · exact hreturn _ _ h₄

theorem Steady.openAsyncProc (h : W.At s₀ s) (callbacks : OpenCallbacks)
    (hopens : s.state.startsOpen callbacks = true →
      wp W.interference.spec (W.observer.observe (UwsClient.callOut .xioOpen))
        (fun _ s' => W.At s₀ s') (s.setState (s.state.openStarted callbacks))) :
    W.Keeps s₀ (openAsyncProc callbacks) s := by
  have hreturn : ∀ (s' : Observed Uws N) (openId : Nat) (r : Int), W.At s₀ s' →
      W.At s₀ (s'.setState (s'.state.record (.openAsyncReturned openId r))) :=
    fun s' _ _ h' => T.atAlike h' (s'.state.alike_record _ nofun)
  have hcounted : W.At s₀ (s.setState { s.state with openCalls := s.state.openCalls + 1 }) :=
    T.atAlike h ⟨rfl, rfl, rfl, rfl, rfl, id⟩
  simp only [Keeps, UwsClient.openAsyncProc, uwsClientOpenAsync, wp_observe_bind, wp_observe_get,
    wp_observe_modify, wp_observe_ite, observe_getClient]
  split
  · exact hreturn _ _ _ hcounted
  rename_i hnull
  split
  · exact hreturn _ _ _ hcounted
  rename_i hclosed
  have hclosed : s.state.client.uwsState = .uwsStateClosed := not_not.1 hclosed
  simp only [xioOpen, observe_modifyClient]
  apply wp_mono _ (hopens (by simp [Uws.startsOpen, hclosed, hnull]))
  intro r s₁ h₁
  split
  · simp only [wp_observe_bind, observe_setUwsState]
    exact hreturn _ _ _ (T.atState h₁ T.closed)
  · exact hreturn _ _ _ h₁

end

/-! ## Functions that may end in an error, or go on with an open -/

section

variable {W : Watch N} (T : W.Tolerant) {s s₀ : Observed Uws N}

include T

theorem Tolerant.indicateWsError (h : W.At s₀ s) (error : WsError) :
    W.Keeps s₀ (indicateWsError error) s := by
  simp only [Keeps, UwsClient.indicateWsError, wp_observe_bind, observe_setUwsState, observe_getClient]
  exact T.callBack (T.atState h T.error) (fun _ => rfl) (fun _ => T.ordinary _ rfl) fun _ h' => h'

theorem Tolerant.indicateWsErrorAndClose (h : W.At s₀ s) (error : WsError) (closeErrorCode : Nat) :
    W.Keeps s₀ (indicateWsErrorAndClose error closeErrorCode) s := by
  simp only [Keeps, UwsClient.indicateWsErrorAndClose, wp_observe_bind, observe_setUwsState]
  apply wp_mono _ (T.sendCloseFrame (T.atState h T.error) closeErrorCode)
  intro _ s₁ h₁
  exact T.callBack h₁ (fun _ => rfl) (fun _ => T.ordinary _ rfl) fun _ h' => h'

/-! ### Opening -/

theorem Tolerant.sendUpgradeRequest (h : W.At s₀ s) : W.Keeps s₀ sendUpgradeRequest s := by
  simp only [Keeps, UwsClient.sendUpgradeRequest, nonceBytes, malloc, wp_observe_bind,
    observe_getClient]
  apply T.askLocal h rfl (T.ordinary _ rfl)
  intro nonce s₁ h₁
  apply T.askLocal h₁ rfl (T.ordinary _ rfl)
  intro base64Allocated s₂ h₂
  split
  · exact T.indicateWsOpenCompleteErrorAndClose h₂ _
  simp only [wp_observe_bind]
  apply T.askLocal h₂ rfl (T.ordinary _ rfl)
  intro headersAllocated s₃ h₃
  split
  · exact T.indicateWsOpenCompleteErrorAndClose h₃ _
  split
  · exact T.indicateWsOpenCompleteErrorAndClose h₃ _
  simp only [wp_observe_bind]
  apply T.askLocal h₃ rfl (T.ordinary _ rfl)
  intro requestAllocated s₄ h₄
  split
  · exact T.indicateWsOpenCompleteErrorAndClose h₄ _
  split
  · exact T.indicateWsOpenCompleteErrorAndClose h₄ _
  simp only [xioSend, wp_observe_bind]
  apply T.callOut h₄ rfl (T.ordinary _ rfl)
  intro r s₅ h₅
  split
  · exact T.indicateWsOpenCompleteErrorAndClose h₅ _
  · simp only [observe_setUwsState]
    exact T.atState h₅ T.waiting

theorem Tolerant.onUnderlyingIoOpenComplete (h : W.At s₀ s) (openResult : IoOpenResult)
    (code : Int) : W.Keeps s₀ (onUnderlyingIoOpenComplete openResult code) s := by
  simp only [Keeps, UwsClient.onUnderlyingIoOpenComplete, wp_observe_bind, observe_getClient]
  split
  · cases openResult with
    | ioOpenOk => exact T.sendUpgradeRequest h
    | ioOpenError => exact T.indicateWsOpenCompleteError h _
    | ioOpenCancelled => exact T.indicateWsOpenCompleteErrorAndClose h _
  · exact T.indicateWsOpenCompleteErrorAndClose h _

/-! ### Frames -/

theorem Tolerant.reallocFragmentBuffer (h : W.At s₀ s) (size : Nat) :
    W.Keeps s₀ (reallocFragmentBuffer size) s := by
  have hchecked := T.atAlike h s.state.alike_fragmentChecked
  simp only [Keeps, UwsClient.reallocFragmentBuffer, malloc, wp_observe_bind, wp_observe_ite,
    observe_checkFragmentBuffer, observe_getClient]
  split
  · simp only [observe_modifyClient]
    exact T.atAlike hchecked (Uws.alike_setClient _ rfl rfl rfl rfl)
  · apply T.askLocal hchecked rfl (T.ordinary _ rfl)
    intro allocated s₁ h₁
    cases allocated with
    | false => exact h₁
    | true => exact T.atAlike h₁ (Uws.alike_setClient _ rfl rfl rfl rfl)

theorem Tolerant.processFrameFragment (h : W.At s₀ s) (fl : FrameLength) :
    W.Keeps s₀ (processFrameFragment fl) s := by
  simp only [Keeps, UwsClient.processFrameFragment, wp_observe_bind, observe_getClient]
  apply wp_mono _ (T.reallocFragmentBuffer h _)
  intro allocated s₁ h₁
  split
  · simp only [wp_observe_bind]
    apply wp_mono _ (T.indicateWsError h₁ _)
    intro _ s' h'
    exact h'
  · simp only [wp_observe_bind, observe_modifyClient]
    exact T.atAlike h₁ (s₁.state.alike_setClient rfl rfl rfl rfl)

theorem Tolerant.receiveContinuationFrame (h : W.At s₀ s) (fl : FrameLength) (isFinal : Bool) :
    W.Keeps s₀ (receiveContinuationFrame fl isFinal) s := by
  simp only [Keeps, UwsClient.receiveContinuationFrame, wp_observe_bind]
  apply wp_mono _ (T.processFrameFragment h fl)
  intro r s₁ h₁
  split
  · exact h₁
  split
  · simp only [wp_observe_bind, wp_observe_ite, observe_getClient]
    split
    · apply wp_mono _ (T.indicateWsError h₁ _)
      intro _ s' h'
      exact h'
    · apply T.callBack h₁ (fun _ => rfl) (fun _ => T.ordinary _ rfl)
      intro s₂ h₂
      simp only [observe_modifyClient]
      exact T.atAlike h₂ (s₂.state.alike_setClient rfl rfl rfl rfl)
  · exact h₁

theorem Tolerant.receiveDataFrame (h : W.At s₀ s) (frameType : UInt8) (fl : FrameLength)
    (isFinal : Bool) : W.Keeps s₀ (receiveDataFrame frameType fl isFinal) s := by
  simp only [Keeps, UwsClient.receiveDataFrame, wp_observe_bind, wp_observe_ite, observe_getClient]
  split
  · apply T.callBack h (fun _ => rfl) (fun _ => T.ordinary _ rfl)
    intro s' h'
    exact h'
  split
  · apply wp_mono _ (T.indicateWsError h _)
    intro _ s' h'
    exact h'
  · apply wp_mono _ (T.processFrameFragment h fl)
    intro r s₁ h₁
    split
    · exact h₁
    · simp only [wp_observe_bind, observe_modifyClient]
      exact T.atAlike h₁ (s₁.state.alike_setClient rfl rfl rfl rfl)

theorem Tolerant.receivePingFrame (h : W.At s₀ s) (fl : FrameLength) (isFinal : Bool) :
    W.Keeps s₀ (receivePingFrame fl isFinal) s := by
  simp only [Keeps, UwsClient.receivePingFrame, encoderResources, wp_observe_bind, wp_observe_ite,
    observe_getClient]
  split
  · apply wp_mono _ (T.indicateWsError h _)
    intro _ s' h'
    exact h'
  · apply T.askLocal h rfl (T.ordinary _ rfl)
    intro res s₁ h₁
    split
    · exact h₁
    · simp only [xioSend, wp_observe_bind]
      apply T.callOut h₁ rfl (T.ordinary _ rfl)
      intro _ s' h'
      exact h'

theorem Tolerant.receiveFrame (h : W.At s₀ s) (opcode : UInt8) (fl : FrameLength) (isFinal : Bool)
    (hclose : opcode = wsCloseFrame → W.Keeps s₀ (receiveCloseFrame fl isFinal) s) :
    W.Keeps s₀ (receiveFrame opcode fl isFinal) s := by
  unfold UwsClient.receiveFrame
  split
  · exact T.receiveContinuationFrame h fl isFinal
  split
  · exact T.receiveDataFrame h wsFrameTypeText fl isFinal
  split
  · exact T.receiveDataFrame h wsFrameTypeBinary fl isFinal
  split
  · rename_i hopcode
    exact hclose hopcode
  split
  · exact T.receivePingFrame h fl isFinal
  · exact h

theorem Tolerant.readFrame (h : W.At s₀ s)
    (hconsumed : ∀ s n, W.At s₀ s → W.At s₀ (s.setState (s.state.consumed n)))
    (hframe : ∀ opcode fl isFinal, W.Keeps s₀ (UwsClient.receiveFrame opcode fl isFinal) s) :
    W.Keeps s₀ readFrame s := by
  simp only [Keeps, UwsClient.readFrame, wp_observe_bind, wp_observe_ite, observe_getClient]
  split
  · apply wp_mono _ (T.indicateWsError h _)
    intro _ s' h'
    exact h'
  split
  · apply wp_mono _ (hframe _ _ _)
    intro _ s₁ h₁
    simp only [observe_consumeStreamBufferBytes]
    exact hconsumed s₁ _ h₁
  · exact h

/-- A frame is read by a decode round, unless a masked one has been reported before. -/
theorem Tolerant.decodeFrame (h : W.At s₀ s)
    (hconsumed : ∀ s n, W.At s₀ s → W.At s₀ (s.setState (s.state.consumed n)))
    (hframe : ∀ s opcode fl isFinal, W.At s₀ s →
      W.Keeps s₀ (UwsClient.receiveFrame opcode fl isFinal) s) :
    W.Keeps s₀ decodeFrame s := by
  have hread : ∀ s₁, W.At s₀ s₁ → W.Keeps s₀ UwsClient.readFrame s₁ :=
    fun s₁ h₁ => T.readFrame h₁ hconsumed fun _ _ _ => hframe s₁ _ _ _ h₁
  simp only [Keeps, decodeFrame_eq, wp_observe_bind, wp_observe_ite, observe_getClient]
  split
  · split
    · apply wp_mono _ (T.indicateWsErrorAndClose h _ _)
      intro _ s₁ h₁
      exact hread s₁ h₁
    · exact hread s h
  · exact h

theorem Tolerant.decodeStream (h : W.At s₀ s) (hupgrade : W.Keeps s₀ decodeUpgradeResponse s)
    (hframe : s.state.client.uwsState.decodesFrames = true → W.Keeps s₀ UwsClient.decodeFrame s)
    (hnext : ∀ s₁, W.At s₀ s₁ → W.Keeps s₀ (callProc .decodeStream) s₁) :
    W.Keeps s₀ decodeStream s := by
  have hround : W.Keeps s₀ decodeRound s := by
    simp only [Keeps, decodeRound, wp_observe_bind, observe_getClient]
    split
    · simp only [wp_observe_bind]
      apply wp_mono _ (T.indicateWsOpenCompleteErrorAndClose h _)
      intro _ s' h'
      exact h'
    · exact hupgrade
    · rename_i hstate
      exact hframe (by rw [hstate]; rfl)
    · rename_i hstate
      exact hframe (by rw [hstate]; rfl)
    · exact h
  simp only [Keeps, UwsClient.decodeStream, wp_observe_bind]
  apply wp_mono _ hround
  intro decodes s₁ h₁
  split
  · exact hnext s₁ h₁
  · exact h₁

/-- `P` holds when the allocator has answered; the bytes are then decoded. -/
theorem Tolerant.receiveBytes {P : Observed Uws N → Prop} {bytes : Bytes} (h : W.At s₀ s)
    (hask : ∀ Q : Bool → Observed Uws N → Prop, (∀ r s₁, P s₁ → Q r s₁) →
      wp W.interference.spec (W.observer.observe malloc) Q s)
    (hat : ∀ s₁, P s₁ → W.At s₀ s₁)
    (hdecode : ∀ s₁, P s₁ → W.Keeps s₀ (callProc .decodeStream) (s₁.setState (s₁.state.setClient
      (s₁.state.client.withStream (s₁.state.client.streamBuffer ++ bytes))))) :
    W.Keeps s₀ (receiveBytes bytes) s := by
  have hframes : wp W.interference.spec (W.observer.observe (do
      let allocated ← malloc
      if allocated = false then UwsClient.indicateWsError .wsErrorNotEnoughMemory
      else do
        appendReceivedBytes bytes
        let _ ← callProc .decodeStream
        pure () : UwsComp Unit)) (fun _ s' => W.At s₀ s') s := by
    simp only [wp_observe_bind]
    apply hask
    intro allocated s₁ h₁
    split
    · exact T.indicateWsError (hat s₁ h₁) _
    · exact hdecode s₁ h₁
  simp only [Keeps, UwsClient.receiveBytes, wp_observe_bind, observe_getClient]
  split
  · exact T.indicateWsOpenCompleteErrorAndClose h _
  · simp only [wp_observe_bind]
    apply hask
    intro allocated s₁ h₁
    split
    · exact T.indicateWsOpenCompleteErrorAndClose (hat s₁ h₁) _
    · exact hdecode s₁ h₁
  · exact hframes
  · exact hframes
  · exact h

theorem Tolerant.onUnderlyingIoError_meets {R : Observed Uws N → Prop} (h : W.At s₀ s)
    (hR : ∀ s', W.At s₀ s' → R s')
    (hclose : wp W.interference.spec (W.observer.observe (do
      let _ ← xioClose .ioErrorWhileClosing
      indicateWsCloseComplete : UwsComp Unit)) (fun _ s' => R s') s) :
    wp W.interference.spec (W.observer.observe onUnderlyingIoError) (fun _ s' => R s') s := by
  simp only [onUnderlyingIoError, wp_observe_bind, observe_getClient] at hclose ⊢
  split
  · exact hclose
  · exact hclose
  · exact hclose
  · exact wp_mono (fun _ _ => hR _) (T.indicateWsOpenCompleteErrorAndClose h _)
  · exact wp_mono (fun _ _ => hR _) (T.indicateWsOpenCompleteErrorAndClose h _)
  · exact wp_mono (fun _ _ => hR _) (T.indicateWsError h _)
  · exact hR s h

omit T in
theorem onUnderlyingIoCloseSent_meets {R : Observed Uws N → Prop} (hrest : R s)
    (ioSendResult : IoSendResult)
    (hsent : s.state.client.uwsState = .uwsStateClosingSendingClose →
      wp W.interference.spec (W.observer.observe (do
        let r ← xioClose .closeSent
        if r ≠ 0 then indicateWsCloseComplete else pure () : UwsComp Unit)) (fun _ s' => R s')
        (s.setState (s.state.setState .uwsStateClosingUnderlyingIo))) :
    wp W.interference.spec (W.observer.observe (onUnderlyingIoCloseSent ioSendResult))
      (fun _ s' => R s') s := by
  cases ioSendResult with
  | ioSendError => exact hrest
  | _ =>
    simp only [onUnderlyingIoCloseSent, wp_observe_bind, wp_observe_ite, observe_getClient]
    split
    · rename_i hstate
      simpa only [observe_setUwsState, wp_observe_bind, wp_observe_ite] using hsent hstate
    · exact hrest

end

/-! ## Closing, when a watch tolerates it -/

section

variable {W : Watch N} (C : W.Closable) {s s₀ : Observed Uws N}

include C

theorem Closable.closeUnderlyingIo (h : W.At s₀ s) (purpose : ClosePurpose) :
    W.Keeps s₀ (closeUnderlyingIo purpose) s := by
  simp only [Keeps, UwsClient.closeUnderlyingIo, xioClose, wp_observe_bind, observe_setUwsState]
  apply C.callOut (C.atState h C.closing) rfl (C.ordinary _ rfl)
  intro r s₁ h₁
  split
  · simp only [wp_observe_bind]
    apply wp_mono _ (C.indicateWsError h₁ _)
    intro _ s₂ h₂
    simp only [observe_setUwsState]
    exact C.atState h₂ C.closed
  · exact h₁

theorem Closable.uwsClientCloseAsync (h : W.At s₀ s) (cb : Option Callback) :
    W.Keeps s₀ (uwsClientCloseAsync cb) s := by
  simp only [Keeps, UwsClient.uwsClientCloseAsync, xioClose, wp_observe_bind, wp_observe_ite,
    observe_getClient]
  split
  · exact h
  · simp only [observe_modifyClient, observe_setUwsState]
    apply C.callOut (C.atState (C.slot s₀ s cb h) C.closing) rfl (C.ordinary _ rfl)
    intro r s₁ h₁
    split
    · simp only [wp_observe_bind]
      apply wp_mono _ (C.indicateWsError h₁ _)
      intro _ s' h'
      exact h'
    · exact h₁

theorem Closable.uwsClientDestroy (h : W.At s₀ s)
    (hclear : ∀ s, W.At s₀ s → W.entry .clearPendingSends s) :
    W.Keeps s₀ uwsClientDestroy s :=
  C.toSteady.uwsClientDestroy h hclear fun hfreed _ => C.uwsClientCloseAsync hfreed none

theorem Closable.uwsClientCloseHandshakeAsync (h : W.At s₀ s)
    (hcalm : W.calm .uwsStateClosingWaitingForClose) (closeCode : UInt16) (cb : Option Callback) :
    W.Keeps s₀ (uwsClientCloseHandshakeAsync closeCode cb) s := by
  simp only [Keeps, UwsClient.uwsClientCloseHandshakeAsync, wp_observe_bind, observe_getClient]
  split
  · exact h
  · exact h
  · exact h
  · exact h
  · simp only [wp_observe_bind, observe_modifyClient, observe_setUwsState]
    apply wp_mono _ (C.sendCloseFrame (C.atState (C.slot s₀ s cb h) hcalm) _)
    intro _ s' h'
    exact h'

theorem Closable.indicateWsCloseComplete (hcommon : ∀ cb, W.common (.onWsCloseComplete cb))
    (h : W.At s₀ s) (hclear : ∀ s, W.At s₀ s → W.entry .clearPendingSends s) :
    W.Keeps s₀ indicateWsCloseComplete s := by
  simp only [Keeps, UwsClient.indicateWsCloseComplete, wp_observe_bind, observe_setUwsState]
  have hclosed := C.atState h C.closed
  apply C.callClear hclosed (hclear _ hclosed)
  intro _ s₁ h₁
  simp only [observe_getClient]
  split
  · simp only [wp_observe_bind]
    apply C.callOut h₁ rfl (hcommon _)
    intro _ s' h'
    exact h'
  · exact h₁

variable (hreport : ∀ s, W.At s₀ s → W.Keeps s₀ UwsClient.indicateWsCloseComplete s)

include hreport

theorem Closable.onUnderlyingIoCloseComplete (h : W.At s₀ s) :
    W.Keeps s₀ onUnderlyingIoCloseComplete s := by
  simp only [Keeps, UwsClient.onUnderlyingIoCloseComplete, wp_observe_bind, wp_observe_ite,
    observe_getClient]
  split
  · apply wp_mono _ (hreport _ h)
    intro _ s₁ h₁
    simp only [observe_setUwsState]
    exact C.atState h₁ C.closed
  · exact h

theorem Closable.onUnderlyingIoCloseSent (h : W.At s₀ s) (ioSendResult : IoSendResult) :
    W.Keeps s₀ (onUnderlyingIoCloseSent ioSendResult) s := by
  apply onUnderlyingIoCloseSent_meets h
  intro _
  simp only [xioClose, wp_observe_bind]
  apply C.callOut (C.atState h C.closing) rfl (C.ordinary _ rfl)
  intro r s₁ h₁
  split
  · exact hreport _ h₁
  · exact h₁

theorem Closable.onUnderlyingIoError (h : W.At s₀ s) : W.Keeps s₀ onUnderlyingIoError s := by
  apply C.onUnderlyingIoError_meets h fun _ h' => h'
  simp only [xioClose, wp_observe_bind]
  apply C.callOut h rfl (C.ordinary _ rfl)
  intro _ s₁ h₁
  exact hreport _ h₁

theorem Closable.receiveCloseFrame (h : W.At s₀ s) (fl : FrameLength) (isFinal : Bool) :
    W.Keeps s₀ (receiveCloseFrame fl isFinal) s := by
  -- The peer's close is reported when it has been answered.
  have hpeer : ∀ (s₁ : Observed Uws N) (closeCode : Option Nat) (extraData : Bytes), W.At s₀ s₁ →
      wp W.interference.spec (W.observer.observe getClient)
        (fun c => wp W.interference.spec
          (W.observer.observe (callBack c.callbacks.onWsPeerClosed fun cb =>
            .onWsPeerClosed cb closeCode extraData))
          fun _ => wp W.interference.spec (W.observer.observe (pure false))
            fun _ s' => W.At s₀ s') s₁ := by
    intro s₁ closeCode extraData h₁
    simp only [observe_getClient]
    exact C.callBack h₁ (fun _ => rfl) (fun _ => C.ordinary _ rfl) fun _ h' => h'
  simp only [Keeps, UwsClient.receiveCloseFrame, encoderResources, wp_observe_bind, wp_observe_ite,
    observe_getClient]
  split
  · apply wp_mono _ (C.indicateWsError h _)
    intro _ s' h'
    exact h'
  split
  · apply wp_mono _ (C.closeUnderlyingIo h _)
    intro _ s' h'
    exact h'
  split
  · simp only [xioClose, observe_setUwsState]
    apply C.callOut (C.atState h C.closing) rfl (C.ordinary _ rfl)
    intro r s₁ h₁
    split
    · simp only [wp_observe_bind]
      apply wp_mono _ (hreport _ h₁)
      intro _ s₂ h₂
      simp only [observe_setUwsState]
      exact C.atState h₂ C.closed
    · exact h₁
  · simp only [observe_setUwsState]
    apply C.askLocal (C.atState h C.sending) rfl (C.ordinary _ rfl)
    intro res s₁ h₁
    split
    · simp only [wp_observe_bind]
      apply wp_mono _ (C.closeUnderlyingIo h₁ _)
      intro _ s₂ h₂
      exact hpeer s₂ _ _ h₂
    · simp only [xioSend, wp_observe_bind]
      apply C.callOut h₁ rfl (C.ordinary _ rfl)
      intro r s₂ h₂
      split
      · simp only [wp_observe_bind]
        apply wp_mono _ (C.closeUnderlyingIo h₂ _)
        intro _ s₃ h₃
        exact hpeer s₃ _ _ h₃
      · simpa only [wp_observe_bind] using hpeer s₂ _ _ h₂

end

/-! ## Decoding, when a watch is not about the stream -/

section

variable {W : Watch N} (T : W.Streaming) {s s₀ : Observed Uws N}

include T

theorem Streaming.callDecodeStream (h : W.At s₀ s) {Q : Int → Observed Uws N → Prop}
    (hQ : ∀ r s', W.At s₀ s' → Q r s') :
    wp W.interference.spec (W.observer.observe (callProc .decodeStream)) Q s := by
  show wp W.interference.spec (Comp.proc Proc.decodeStream) Q s
  apply Interference.wp_nested (F := W.interference)
  case hpre => exact T.decodes s₀ s h
  case hQ =>
    intro r s' hdecoded
    exact hQ r s' (T.decoded s₀ s s' h hdecoded)

theorem Streaming.decodeUpgradeResponse (h : W.At s₀ s) : W.Keeps s₀ decodeUpgradeResponse s := by
  simp only [Keeps, UwsClient.decodeUpgradeResponse, UwsClient.errno, wp_observe_bind,
    observe_getClient]
  split
  · exact h
  rename_i requestEnd hend
  simp only [wp_observe_bind]
  apply T.askLocal h rfl T.errno
  intro errnoSet s₁ h₁
  split
  · simp only [wp_observe_bind]
    apply wp_mono _ (T.indicateWsOpenCompleteErrorAndClose h₁ _)
    intro _ s' h'
    exact h'
  split
  · simp only [wp_observe_bind]
    apply wp_mono _ (T.indicateWsOpenCompleteErrorAndClose h₁ _)
    intro _ s' h'
    exact h'
  · simp only [wp_observe_bind, observe_consumeStreamBufferBytes, observe_setUwsState,
      observe_getClient]
    have hopened := T.atState (T.consumed s₀ s₁ (requestEnd + 4) h₁) T.opened
    exact T.callBack hopened (fun _ => rfl) (fun _ => T.ordinary _ rfl) fun _ h' => h'

theorem Streaming.decodeStream (h : W.At s₀ s)
    (hframe : s.state.client.uwsState.decodesFrames = true → W.Keeps s₀ UwsClient.decodeFrame s) :
    W.Keeps s₀ decodeStream s :=
  T.toTolerant.decodeStream h (T.decodeUpgradeResponse h) hframe fun _ h₁ =>
    T.callDecodeStream h₁ fun _ _ h' => h'

theorem Streaming.receiveBytes (h : W.At s₀ s) (bytes : Bytes) :
    W.Keeps s₀ (receiveBytes bytes) s :=
  T.toTolerant.receiveBytes (P := W.At s₀) h
    (fun _ hQ => T.askLocal h rfl (T.ordinary _ rfl) hQ) (fun _ h₁ => h₁)
    fun s₁ h₁ => T.callDecodeStream (T.stream s₀ s₁ _ h₁) fun _ _ h' => h'

theorem Streaming.onUnderlyingIoBytesReceived (h : W.At s₀ s) (buffer : Option Bytes) :
    W.Keeps s₀ (onUnderlyingIoBytesReceived buffer) s := by
  match buffer with
  | none => exact T.indicateWsOpenCompleteErrorAndClose h _
  | some [] => exact T.indicateWsOpenCompleteErrorAndClose h _
  | some (b :: bs) => exact T.receiveBytes h (b :: bs)

end

/-! ## Procedures -/

section

variable {W : Watch N} {s s₀ : Observed Uws N}

theorem keeps_void {c : UwsComp Unit} (h : W.Keeps s₀ c s) : W.Keeps s₀ (void c) s := by
  simp only [Keeps, void, wp_observe_bind]
  exact h

theorem meets {p : Proc}
    (hbody : W.Keeps (W.beginProc p s) (uwsCode p) (W.beginProc p s))
    (hend : ∀ r s', W.At (W.beginProc p s) s' →
      W.inv (W.endProc p r s') ∧ W.rely s (W.endProc p r s') ∧ W.effect p s (W.endProc p r s')) :
    wp W.interference.spec (W.observer.code uwsCode p)
      (fun _ s' => W.inv s' ∧ W.rely s s' ∧ W.effect p s s') s := by
  rw [wp_code]
  apply wp_mono _ hbody
  intro r s' hs'
  exact hend r s' hs'

/-- What is to be shown for a watch. -/
structure Obligations (W : Watch N) : Prop where
  anyRun : ∀ top p s, W.env.mayEnter top p s = true → reentrantRun.mayEnter top p s.state = true
  refl : ∀ s, W.rely s s
  trans : ∀ s s' s'', W.rely s s' → W.rely s' s'' → W.rely s s''
  entry : ∀ top p s, W.inv s → W.env.mayEnter top p s = true → W.entry p s
  loop : ∀ s, W.decodes s → W.env.mayRun .decodeStream s = true →
    wp W.interference.spec (W.observer.code uwsCode .decodeStream) (fun _ s' => W.decoded s s') s
  procs : ∀ p s, p ≠ .decodeStream → W.inv s → W.entry p s →
    wp W.interference.spec (W.observer.code uwsCode p)
      (fun _ s' => W.inv s' ∧ W.rely s s' ∧ W.effect p s s') s

/-- The decode loop is the only procedure with conditions of another kind, and it is not entered. -/
theorem Obligations.sound (h : W.Obligations) :
    W.interference.Sound (W.observer.code uwsCode) where
  refl := h.refl
  trans := h.trans
  reenter c p s hmay := by
    show (!c.isLocal) = true
    rw [reentrantRun_reenters (h.anyRun _ p s hmay)]
    rfl
  enter top p s hinv hmay := by
    have hentry := h.entry top p s hinv hmay
    cases p with
    | decodeStream => exact absurd rfl (reentrantRun_ne_decodeStream (h.anyRun top _ s hmay))
    | _ => exact ⟨hinv, hentry⟩
  leave top p s s' _ hmay hpost := by
    cases p with
    | decodeStream => exact absurd rfl (reentrantRun_ne_decodeStream (h.anyRun top _ s hmay))
    | _ => exact ⟨hpost.1, hpost.2.1⟩
  code p s hpre hrun := by
    cases p with
    | decodeStream => exact h.loop s hpre hrun
    | _ => exact h.procs _ s nofun hpre.1 hpre.2

/-- The procedures that neither open, nor close with a handshake, nor receive bytes. -/
def ordinaryProc : Proc → Bool
  | .uwsClientOpenAsync _ | .uwsClientCloseHandshakeAsync _ _ | .onUnderlyingIoBytesReceived _
  | .decodeStream => false
  | _ => true

theorem Closable.ordinaryProc (C : W.Closable)
    (hreport : ∀ s, W.At s₀ s → W.Keeps s₀ UwsClient.indicateWsCloseComplete s)
    (hclear : ∀ s, W.At s₀ s → W.entry .clearPendingSends s) (h : W.At s₀ s) {p : Proc}
    (hp : ordinaryProc p = true) : W.Keeps s₀ (uwsCode p) s := by
  cases p with
  | uwsClientOpenAsync callbacks => cases hp
  | uwsClientCloseHandshakeAsync code cb => cases hp
  | onUnderlyingIoBytesReceived buffer => cases hp
  | decodeStream => cases hp
  | uwsClientCloseAsync cb => exact C.uwsClientCloseAsync h cb
  | uwsClientSendFrameAsync frameType buffer size isFinal cb =>
    exact C.sendFrameAsyncProc h frameType buffer size isFinal cb
  | uwsClientDowork => exact keeps_void (C.uwsClientDowork h)
  | uwsClientDestroy => exact keeps_void (C.uwsClientDestroy h hclear)
  | onUnderlyingIoOpenComplete result code =>
    exact keeps_void (C.onUnderlyingIoOpenComplete h result code)
  | onUnderlyingIoError => exact keeps_void (C.onUnderlyingIoError hreport h)
  | onUnderlyingIoCloseComplete => exact keeps_void (C.onUnderlyingIoCloseComplete hreport h)
  | onUnderlyingIoCloseSent result => exact keeps_void (C.onUnderlyingIoCloseSent hreport h result)
  | onUnderlyingIoSendComplete item result =>
    exact keeps_void (C.onUnderlyingIoSendComplete h item result)
  | clearPendingSends => exact C.clearPendingSends h hclear

end

end Watch

end SharedUtility.UwsClient
