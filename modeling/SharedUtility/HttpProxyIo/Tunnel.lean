import SharedUtility.HttpProxyIo.FreshOpen
import SharedUtility.HttpProxyIo.OpenClose

/-!
# Tunnel — what the user receives of the stream behind the response head

The stream that the io hands over after the CONNECT request is the head of the response and whatever
follows.  However it is cut into chunks, the open is reported when the head is complete, and all that
follows is handed on in order.

* `ResponseHead`, `parseHttpResponse_head` — a head that grants the tunnel, and how it is read,
* `proxyRun`, `tunnelRun` — the runs of a first open,
* `Tunnel`, `Meanwhile` — the invariant, and what holds between a call and its return.
-/

namespace SharedUtility.HttpProxyIo

open Reentrant

/-! ## The response head -/

/-- `isdigit` in the C locale. -/
def IsDigit (b : UInt8) : Prop :=
  0x30 ≤ b ∧ b ≤ 0x39

/-- A status line with a code from 200 to 299, and all up to the first double new-line. -/
structure ResponseHead (head : Bytes) : Prop where
  noNul : 0 ∉ head
  ends : strstr head (ascii "\r\n\r\n") = some (head.length - 4)
  statusLine : ∃ d₁ d₂ rest, IsDigit d₁ ∧ IsDigit d₂ ∧
    head = ascii "HTTP/1.1 2" ++ [d₁, d₂] ++ ascii " " ++ rest

namespace ResponseHead

variable {head : Bytes}

theorem length_le (h : ResponseHead head) : 4 ≤ head.length := by
  have hlength := strstr_length h.ends
  have hcrlf : (ascii "\r\n\r\n").length = 4 := by decide
  omega

theorem ne_nil (h : ResponseHead head) : head ≠ [] :=
  List.ne_nil_of_length_pos (Nat.lt_of_lt_of_le (by decide) h.length_le)

theorem findResponseEnd (h : ResponseHead head) (payload : Bytes) :
    UwsClient.findResponseEnd (head ++ payload) = some (head.length - 4) := by
  have hlength : (head ++ payload).length ≥ 4 := by
    have := h.length_le
    simp only [List.length_append]
    omega
  rw [UwsClient.findResponseEnd, if_pos hlength, cString_append h.noNul]
  exact strstr_append _ h.ends

theorem findResponseEnd_of_shorter (h : ResponseHead head) {received : Bytes}
    (hpart : received <+: head) (hlength : received.length < head.length) :
    UwsClient.findResponseEnd received = none := by
  rcases hpart with ⟨missing, rfl⟩
  have hnoNul : 0 ∉ received := fun h0 => h.noNul (List.mem_append_left _ h0)
  have hstring : cString received = received := by
    simpa [cString] using cString_append hnoNul []
  rw [UwsClient.findResponseEnd, hstring]
  split
  · cases hfound : strstr received (ascii "\r\n\r\n") with
    | none => rfl
    | some offset =>
      have hends := h.ends
      rw [strstr_append missing hfound, Option.some.injEq] at hends
      have hinside := strstr_length hfound
      have hcrlf : (ascii "\r\n\r\n").length = 4 := by decide
      omega
  · rfl

theorem tunnelledBytes (h : ResponseHead head) (payload : Bytes) :
    tunnelledBytes (head ++ payload) (head.length - 4) = payload := by
  have hlength := h.length_le
  have hdrop : head.length - 4 + 4 = head.length := by omega
  rw [HttpProxyIo.tunnelledBytes, hdrop, List.drop_left]

end ResponseHead

theorem IsDigit.digitValue {b : UInt8} (h : IsDigit b) :
    digitValue b = some (b.toNat - 0x30) ∧ b.toNat - 0x30 < 10 := by
  have hlow : (0x30 : UInt8).toNat ≤ b.toNat := h.1
  have hhigh : b.toNat ≤ (0x39 : UInt8).toNat := h.2
  constructor
  · simp [SharedUtility.digitValue, h.1, h.2]
  · simp at hlow hhigh
    omega

theorem strtol0_statusCode {d₁ d₂ : UInt8} (h₁ : IsDigit d₁) (h₂ : IsDigit d₂) (rest : Bytes) :
    strtol0 (0x20 :: 0x32 :: d₁ :: d₂ :: 0x20 :: rest) =
      (200 + 10 * ((d₁.toNat - 0x30 : Nat) : Int) + ((d₂.toNat - 0x30 : Nat) : Int), 4) := by
  have hdigits : digits 10 (0x32 :: d₁ :: d₂ :: 0x20 :: rest) 0 =
      (200 + 10 * (d₁.toNat - 0x30) + (d₂.toNat - 0x30), 3) := by
    have htwo : digitValue 0x32 = some 2 := by decide
    have hblank : digitValue 0x20 = none := by decide
    simp [digits, htwo, hblank, h₁.digitValue, h₂.digitValue]
    omega
  have hspace : isSpace 0x20 = true := by decide
  have hnot : isSpace 0x32 = false := by decide
  have hlow₁ := h₁.digitValue.2
  have hlow₂ := h₂.digitValue.2
  simp [strtol0, hspace, hnot, hdigits]
  omega

/-- The status code of a head is read as a success, whatever `errno` was and whatever follows. -/
theorem parseHttpResponse_head {head : Bytes} (h : ResponseHead head) (payload : Bytes)
    (errnoSet : Bool) : ∃ statusCode, 200 ≤ statusCode ∧ statusCode ≤ 299 ∧
      UwsClient.parseHttpResponse (head ++ payload) errnoSet = some statusCode := by
  rcases h.statusLine with ⟨d₁, d₂, rest, h₁, h₂, hhead⟩
  have hlow₁ := h₁.digitValue.2
  have hlow₂ := h₂.digitValue.2
  let statusCode : Int :=
    200 + 10 * ((d₁.toNat - 0x30 : Nat) : Int) + ((d₂.toNat - 0x30 : Nat) : Int)
  have hlow : 200 ≤ statusCode := by omega
  have hhigh : statusCode ≤ 299 := by omega
  refine ⟨statusCode, hlow, hhigh, ?_⟩
  have hstring : cString (head ++ payload) =
      ascii "HTTP/1.1 2" ++ [d₁, d₂] ++ ascii " " ++ (rest ++ cString payload) := by
    rw [cString_append h.noNul, hhead]
    simp
  have hread : UwsClient.parseStringToDecimal
      (0x20 :: 0x32 :: d₁ :: d₂ :: 0x20 :: (rest ++ cString payload)) errnoSet =
        some statusCode := by
    have hint : intOfLong statusCode = statusCode := by
      rw [intOfLong, Int.bmod_eq_of_le]
      all_goals omega
    have hmax : ¬ (statusCode = 2 ^ 31 - 1 ∨ statusCode = -(2 ^ 31)) := by omega
    rw [UwsClient.parseStringToDecimal, strtol0_statusCode h₁ h₂]
    show (if (4 : Nat) = 0 then none else if (intOfLong statusCode = 2 ^ 31 - 1 ∨
      intOfLong statusCode = -(2 ^ 31)) ∧ errnoSet then none else some (intOfLong statusCode)) = _
    rw [hint, if_neg (by decide), if_neg fun hclamped => hmax hclamped.1]
  rw [UwsClient.parseHttpResponse, hstring]
  simpa [ascii] using hread

/-! ## The runs -/

/-- All that has been handed to `on_bytes_received`. -/
def ProxyIo.forwardedBytes (s : ProxyIo) : Bytes :=
  ((s.outcomeSince 0).map fun
    | .forwarded bytes => bytes
    | .reported _ => []).flatten

/-- All that was heard behind the head has been handed on. -/
def caughtUp (head : Bytes) (s : ProxyIo) : Bool :=
  s.forwardedBytes == (heardBytes s.heard).drop head.length

/-- The stream starts with `head`, and with nothing else. -/
def arrives (head : Bytes) (s : ProxyIo) (buffer : Bytes) : Bool :=
  match s.inst.httpProxyIoState with
  | .httpProxyIoStateWaitingForConnectResponse =>
    (heardBytes s.heard ++ buffer).isPrefixOf head ||
      head.isPrefixOf (heardBytes s.heard ++ buffer)
  | .httpProxyIoStateOpen => true
  | _ => false

/-- The first open of an instance.  The io completes its open once, which may fail, and then hands over
a stream that starts with `head`, a chunk at a time: none while an earlier one is still to be handed
on.  It does not refuse a request that it has answered.  The user may send at any time. -/
def proxyRun (head : Bytes) : Env ProxyIo httpProxyIoSignature where
  mayEnter top p s :=
    match p with
    | .httpProxyIoOpen _ =>
      top.isNone &&
        (s.inst.httpProxyIoState != .httpProxyIoStateClosed || s.currentOpen == 0)
    | .httpProxyIoSend _ _ | .httpProxyIoDowork => top.all Call.isCallback
    | .onUnderlyingIoOpenComplete _ =>
      top.all Call.isXio && s.inst.httpProxyIoState == .httpProxyIoStateOpeningUnderlyingIo
    | .onUnderlyingIoBytesReceived buffer =>
      top.all Call.isXio && (top.isNone || caughtUp head s) && arrives head s buffer
    | _ => false
  mayAnswer c r s :=
    match c, r with
    | .xioOpen, r => r == (0 : Int) || s.heard.isEmpty
    | .xioSend .connectRequest _, r => r == (0 : Int) || (heardBytes s.heard).isEmpty
    | _, _ => true

/-- The condition: the receive buffer can be reallocated. -/
def tunnelRun (head : Bytes) : Env ProxyIo httpProxyIoSignature where
  mayEnter := (proxyRun head).mayEnter
  mayAnswer c r s :=
    (proxyRun head).mayAnswer c r s &&
    (match c, r with
      | .realloc, r => r
      | _, _ => true)

/-! ## What the user has learned -/

/-- The open has not succeeded, and no byte was handed on. -/
def NotOpened (s : ProxyIo) : Prop :=
  ∀ outcome ∈ s.outcomeSince 0, ∃ result, outcome = .reported result ∧ result.result ≠ .ioOpenOk

/-- The open was reported first, once and as successful, and then `delivered` was handed on. -/
def OpenedWith (s : ProxyIo) (delivered : Bytes) : Prop :=
  ∃ chunks : List Bytes, chunks.flatten = delivered ∧
    s.outcomeSince 0 = .reported { result := .ioOpenOk, code := 0 } :: chunks.map .forwarded

/-- Nothing but what was heard behind the head is handed on. -/
def InOrder (head : Bytes) (s : ProxyIo) : Prop :=
  NotOpened s ∨ ∃ delivered, OpenedWith s delivered ∧ head ++ delivered <+: heardBytes s.heard

/-- No open has been accepted. -/
structure Unopened (s : ProxyIo) : Prop where
  outcome : s.outcomeSince 0 = []
  heard : heardBytes s.heard = []
  buffer : s.inst.receiveBuffer = []

/-- The open has failed before the head was complete. -/
structure Refused (head : Bytes) (s : ProxyIo) : Prop where
  notOpened : NotOpened s
  short : (heardBytes s.heard).length < head.length
  accepted : s.currentOpen ≠ 0

/-- The receive buffer holds all that was heard, and the user has learned nothing. -/
structure Accumulating (s : ProxyIo) : Prop where
  outcome : s.outcomeSince 0 = []
  buffer : s.inst.receiveBuffer = heardBytes s.heard
  accepted : s.currentOpen ≠ 0

/-- What is known in each state. -/
inductive Tunnel (head : Bytes) (s : ProxyIo) : Prop
  | unopened (hstate : s.inst.httpProxyIoState = .httpProxyIoStateClosed) (hunopened : Unopened s)
  | refused (hstate : s.inst.httpProxyIoState = .httpProxyIoStateClosed)
      (hrefused : Refused head s)
  | opening (hstate : s.inst.httpProxyIoState = .httpProxyIoStateOpeningUnderlyingIo)
      (haccumulating : Accumulating s) (hheard : heardBytes s.heard = [])
  | waiting (hstate : s.inst.httpProxyIoState = .httpProxyIoStateWaitingForConnectResponse)
      (haccumulating : Accumulating s) (hstart : heardBytes s.heard <+: head)
      (hshort : (heardBytes s.heard).length < head.length)
  | opened (hstate : s.inst.httpProxyIoState = .httpProxyIoStateOpen) (delivered : Bytes)
      (hopened : OpenedWith s delivered) (hheard : head ++ delivered <+: heardBytes s.heard)

/-- What the code that may run during a call guarantees: a closed instance stays closed, and nothing
happens before what was heard is handed on. -/
structure Meanwhile (head : Bytes) (s s' : ProxyIo) : Prop where
  closed : s.inst.httpProxyIoState = .httpProxyIoStateClosed →
    s'.inst.httpProxyIoState = .httpProxyIoStateClosed
  currentOpen : s'.currentOpen = s.currentOpen
  pending : caughtUp head s = false →
    s'.inst.httpProxyIoState = s.inst.httpProxyIoState ∧ s'.heard = s.heard ∧
      s'.outcomeSince 0 = s.outcomeSince 0

section

variable {head : Bytes} {s s' s'' : ProxyIo}

theorem caughtUp_iff : caughtUp head s = true ↔
    s.forwardedBytes = (heardBytes s.heard).drop head.length := by
  simp [caughtUp]

theorem caughtUp_congr (hheard : s'.heard = s.heard)
    (houtcome : s'.outcomeSince 0 = s.outcomeSince 0) : caughtUp head s' = caughtUp head s := by
  rw [caughtUp, caughtUp, ProxyIo.forwardedBytes, ProxyIo.forwardedBytes, hheard, houtcome]

theorem Meanwhile.refl (s : ProxyIo) : Meanwhile head s s where
  closed := id
  currentOpen := rfl
  pending _ := ⟨rfl, rfl, rfl⟩

theorem Meanwhile.trans (h : Meanwhile head s s') (h' : Meanwhile head s' s'') :
    Meanwhile head s s'' where
  closed hstate := h'.closed (h.closed hstate)
  currentOpen := h'.currentOpen.trans h.currentOpen
  pending hpending := by
    rcases h.pending hpending with ⟨hstate, hheard, houtcome⟩
    have hpending' : caughtUp head s' = false := (caughtUp_congr hheard houtcome).trans hpending
    rcases h'.pending hpending' with ⟨hstate', hheard', houtcome'⟩
    exact ⟨hstate'.trans hstate, hheard'.trans hheard, houtcome'.trans houtcome⟩

theorem NotOpened.caughtUp (h : NotOpened s) (hshort : (heardBytes s.heard).length < head.length) :
    caughtUp head s = true := by
  have hnothing : s.forwardedBytes = [] := by
    apply List.flatten_eq_nil_iff.2
    intro bytes hbytes
    rcases List.mem_map.1 hbytes with ⟨outcome, houtcome, rfl⟩
    rcases h outcome houtcome with ⟨result, rfl, -⟩
    rfl
  rw [caughtUp_iff, hnothing, List.drop_eq_nil_of_le (Nat.le_of_lt hshort)]

theorem notOpened_of_nil (h : s.outcomeSince 0 = []) : NotOpened s := by
  intro outcome houtcome
  rw [h] at houtcome
  cases houtcome

theorem OpenedWith.forwardedBytes {delivered : Bytes} (h : OpenedWith s delivered) :
    s.forwardedBytes = delivered := by
  rcases h with ⟨chunks, rfl, hchunks⟩
  simp [ProxyIo.forwardedBytes, hchunks, Function.comp_def]

/-- Once it has caught up, the user has received all that was heard behind the head. -/
theorem OpenedWith.heard {delivered : Bytes} (h : OpenedWith s delivered)
    (hheard : head ++ delivered <+: heardBytes s.heard) (hcaught : caughtUp head s = true) :
    heardBytes s.heard = head ++ delivered := by
  rw [caughtUp_iff, h.forwardedBytes] at hcaught
  rcases hheard with ⟨rest, hrest⟩
  rw [← hrest, List.append_assoc, List.drop_left] at hcaught
  rw [← hrest, List.append_assoc, ← hcaught]

theorem Tunnel.notOpened (h : Tunnel head s) (hhead : head ≠ [])
    (hstate : s.inst.httpProxyIoState ≠ .httpProxyIoStateOpen) :
    NotOpened s ∧ (heardBytes s.heard).length < head.length := by
  have hpos : 0 < head.length := List.length_pos_iff.2 hhead
  cases h with
  | unopened _ hunopened =>
    exact ⟨notOpened_of_nil hunopened.outcome, by simpa [hunopened.heard] using hpos⟩
  | refused _ hrefused => exact ⟨hrefused.notOpened, hrefused.short⟩
  | opening _ haccumulating hheard =>
    exact ⟨notOpened_of_nil haccumulating.outcome, by simpa [hheard] using hpos⟩
  | waiting _ haccumulating _ hshort =>
    exact ⟨notOpened_of_nil haccumulating.outcome, hshort⟩
  | opened hopen => exact absurd hopen hstate

theorem Tunnel.inOrder (h : Tunnel head s) (hhead : head ≠ []) : InOrder head s := by
  by_cases hstate : s.inst.httpProxyIoState = .httpProxyIoStateOpen
  · cases h with
    | opened _ delivered hopened hheard => exact .inr ⟨delivered, hopened, hheard⟩
    | _ => simp_all
  · exact .inl (h.notOpened hhead hstate).1

theorem Tunnel.silent (h : Tunnel head s) (hhead : head ≠ []) (hheard : heardBytes s.heard = []) :
    NotOpened s ∧ (heardBytes s.heard).length < head.length := by
  apply h.notOpened hhead
  intro hstate
  cases h with
  | opened _ delivered _ hprefix =>
    rw [hheard, List.prefix_nil] at hprefix
    exact hhead (List.append_eq_nil_iff.1 hprefix).1
  | _ => simp_all

end

/-! ## The code -/

/-- Bytes that are handed over during a call find everything before them handed on. -/
def tunnel (head : Bytes) : RelyGuarantee ProxyIo httpProxyIoSignature where
  env := tunnelRun head
  reenters c := c.isXio || c.isCallback
  nested
    | .httpProxyIoOpen _ => false
    | _ => true
  entry p s :=
    match p with
    | .httpProxyIoOpen _ =>
      s.inst.httpProxyIoState = .httpProxyIoStateClosed → s.currentOpen = 0
    | .httpProxyIoSend _ _ | .httpProxyIoDowork => True
    | .onUnderlyingIoOpenComplete _ =>
      s.inst.httpProxyIoState = .httpProxyIoStateOpeningUnderlyingIo
    | .onUnderlyingIoBytesReceived buffer => caughtUp head s = true ∧ arrives head s buffer = true
    | _ => False
  always := InOrder head
  inv := Tunnel head
  settled s := caughtUp head s = true
  rely := Meanwhile head

section

open RelyGuarantee

namespace Tunnel

variable {head : Bytes} {s s' s'' : ProxyIo} {config : HttpProxyIoConfig}

/-- Code that may run during a call. -/
abbrev Keeps (head : Bytes) {α : Type} (c : HttpProxyIoComp α) (s : ProxyIo) : Prop :=
  wp (tunnel head).spec c (fun _ s' => (tunnel head).Later s s') s

theorem later_refl (h : Tunnel head s) : (tunnel head).Later s s :=
  ⟨h, Meanwhile.refl s, id⟩

theorem later_trans (h : (tunnel head).Later s s') (h' : (tunnel head).Later s' s'') :
    (tunnel head).Later s s'' :=
  ⟨h'.inv, h.rely.trans h'.rely, fun hcaught => h'.settled (h.settled hcaught)⟩

/-- Where the code ends up that handles an event: everything is handed on. -/
structure Handled (head : Bytes) (s s' : ProxyIo) : Prop where
  inv : Tunnel head s'
  caughtUp : caughtUp head s' = true
  currentOpen : s'.currentOpen = s.currentOpen

theorem Handled.after (h : Handled head s' s'') (hcurrent : s'.currentOpen = s.currentOpen) :
    Handled head s s'' :=
  ⟨h.inv, h.caughtUp, h.currentOpen.trans hcurrent⟩

theorem Handled.later (h : Handled head s s')
    (hstate : s.inst.httpProxyIoState ≠ .httpProxyIoStateClosed)
    (hcaught : HttpProxyIo.caughtUp head s = true) : (tunnel head).Later s s' where
  inv := h.inv
  rely := {
    closed := fun hclosed => absurd hclosed hstate
    currentOpen := h.currentOpen
    pending := fun hpending => by simp [hcaught] at hpending }
  settled _ := h.caughtUp

@[simp] theorem wp_getInst (Q : HttpProxyIoInstance → ProxyIo → Prop) :
    wp (tunnel head).spec getInst Q s ↔ Q s.inst s := by
  simp [getInst]

@[simp] theorem wp_modifyInst (f : HttpProxyIoInstance → HttpProxyIoInstance)
    (Q : Unit → ProxyIo → Prop) :
    wp (tunnel head).spec (modifyInst f) Q s ↔ Q () (s.setInst (f s.inst)) := by
  simp [modifyInst]

@[simp] theorem wp_setHttpProxyIoState (st : HttpProxyIoState) (Q : Unit → ProxyIo → Prop) :
    wp (tunnel head).spec (setHttpProxyIoState st) Q s ↔ Q () (s.setState st) := by
  simp [setHttpProxyIoState]

theorem wp_ask {c : Call} {Q : Ans c → ProxyIo → Prop} (hc : (c.isXio || c.isCallback) = false)
    (h : InOrder head s) (hQ : ∀ r, (tunnelRun head).mayAnswer c r s = true → Q r s) :
    wp (tunnel head).spec (ask c) Q s :=
  wp_local hc h hQ

theorem wp_callOut {c : Call} {Q : Ans c → ProxyIo → Prop}
    (hc : (c.isXio || c.isCallback) = true)
    (hinv : Tunnel head (s.record (.call s.currentOpen c)))
    (hQ : ∀ r s', (tunnelRun head).mayAnswer c r s' = true →
      (tunnel head).Later (s.record (.call s.currentOpen c)) s' → Q r s') :
    wp (tunnel head).spec (callOut c) Q s := by
  simp only [callOut, wp_bind, wp_modify]
  exact wp_reentrant hc hinv hQ

theorem outcome_record (ev : Event) :
    (s.record ev).outcomeSince 0 = s.outcomeSince 0 ++ ev.outcome.toList :=
  outcomeSince_record (Nat.zero_le _) ev

theorem outcome_record_of_none {ev : Event} (hev : ev.outcome = none) :
    (s.record ev).outcomeSince 0 = s.outcomeSince 0 := by
  simp [outcome_record, hev]

theorem congr (h : Tunnel head s) (hinst : s'.inst = s.inst) (hheard : s'.heard = s.heard)
    (houtcome : s'.outcomeSince 0 = s.outcomeSince 0)
    (hcurrent : s'.currentOpen = s.currentOpen) : Tunnel head s' := by
  have hnotOpened : NotOpened s → NotOpened s' := by
    intro hnot
    rwa [NotOpened, houtcome]
  have haccumulates : Accumulating s → Accumulating s' := by
    intro ha
    constructor
    case outcome => rw [houtcome, ha.outcome]
    case buffer => rw [hinst, hheard, ha.buffer]
    case accepted => rw [hcurrent]; exact ha.accepted
  cases h with
  | unopened hstate hu =>
    refine .unopened (by rwa [hinst]) ?_
    constructor
    case outcome => rw [houtcome, hu.outcome]
    case heard => rw [hheard, hu.heard]
    case buffer => rw [hinst, hu.buffer]
  | refused hstate hr =>
    refine .refused (by rwa [hinst]) ?_
    constructor
    case notOpened => exact hnotOpened hr.notOpened
    case short => rw [hheard]; exact hr.short
    case accepted => rw [hcurrent]; exact hr.accepted
  | opening hstate ha hnothing =>
    exact .opening (by rwa [hinst]) (haccumulates ha) (by rwa [hheard])
  | waiting hstate ha hstart hshort =>
    exact .waiting (by rwa [hinst]) (haccumulates ha) (by rwa [hheard]) (by rwa [hheard])
  | opened hstate delivered hopened hstart =>
    exact .opened (by rwa [hinst]) delivered (by rwa [OpenedWith, houtcome]) (by rwa [hheard])

theorem later_record (h : Tunnel head s) {ev : Event} (hev : ev.outcome = none) :
    (tunnel head).Later s (s.record ev) where
  inv := h.congr rfl rfl (outcome_record_of_none hev) rfl
  rely := {
    closed := id
    currentOpen := rfl
    pending := fun _ => ⟨rfl, rfl, outcome_record_of_none hev⟩ }
  settled hcaught := by
    have hsame : caughtUp head (s.record ev) = caughtUp head s :=
      caughtUp_congr rfl (outcome_record_of_none hev)
    exact hsame.trans hcaught

theorem wp_xio {c : Call} {Q : Ans c → ProxyIo → Prop} (hc : c.isXio = true)
    (h : Tunnel head s)
    (hQ : ∀ r s', (tunnelRun head).mayAnswer c r s' = true → (tunnel head).Later s s' → Q r s') :
    wp (tunnel head).spec (callOut c) Q s := by
  have hev : Event.outcome (.call s.currentOpen c) = none := by
    cases c
    all_goals first | rfl | cases hc
  have hrecord := h.later_record hev
  apply wp_callOut (by simp [hc]) hrecord.inv
  intro r s' hans hlater
  exact hQ r s' hans (later_trans hrecord hlater)

/-! ### An open that fails -/

theorem refuse (hrefused : Refused head s) :
    Tunnel head (s.setState .httpProxyIoStateClosed) :=
  .refused rfl ⟨hrefused.notOpened, hrefused.short, hrefused.accepted⟩

theorem closeAndReport_handled (h : Refused head s) (purpose : ClosePurpose)
    {r : IoOpenResultDetailed} (hr : r.result ≠ .ioOpenOk) :
    wp (tunnel head).spec (do
      setHttpProxyIoState .httpProxyIoStateClosed
      let _ ← xioClose purpose
      onIoOpenComplete r) (fun _ s' => Handled head s s') s := by
  simp only [xioClose, wp_bind, wp_setHttpProxyIoState]
  apply wp_xio rfl (refuse h)
  intro _ s' _ hlater
  have hclosed := hlater.rely.closed rfl
  have haccepted : s'.currentOpen ≠ 0 := by
    rw [hlater.rely.currentOpen]
    exact h.accepted
  simp only [onIoOpenComplete, wp_bind, wp_getInst]
  have hshort : (heardBytes s'.heard).length < head.length ∧ NotOpened s' := by
    cases hlater.inv with
    | unopened _ hu =>
      refine ⟨?_, notOpened_of_nil hu.outcome⟩
      rw [hu.heard]
      exact Nat.lt_of_le_of_lt (Nat.zero_le _) h.short
    | refused _ hr => exact ⟨hr.short, hr.notOpened⟩
    | opening hstate _ _ => simp [hclosed] at hstate
    | waiting hstate _ _ _ => simp [hclosed] at hstate
    | opened hstate _ _ _ => simp [hclosed] at hstate
  have hreported : Refused head
      (s'.record (.call s'.currentOpen (.onIoOpenComplete s'.inst.onIoOpenComplete r))) := by
    constructor
    case notOpened =>
      intro outcome houtcome
      rw [outcome_record, List.mem_append] at houtcome
      rcases houtcome with hbefore | hnow
      · exact hshort.2 outcome hbefore
      · exact ⟨r, by simpa [Event.outcome] using hnow, hr⟩
    case short => exact hshort.1
    case accepted => exact haccepted
  apply wp_callOut rfl (.refused hclosed hreported)
  intro _ s'' _ hlater'
  constructor
  case inv => exact hlater'.inv
  case caughtUp => exact hlater'.settled (hreported.notOpened.caughtUp hreported.short)
  case currentOpen => exact hlater'.rely.currentOpen.trans hlater.rely.currentOpen

theorem indicateOpenCompleteErrorAndClose_handled (h : Refused head s) (code : Int) :
    wp (tunnel head).spec (indicateOpenCompleteErrorAndClose code)
      (fun _ s' => Handled head s s') s :=
  closeAndReport_handled h .failedOpen nofun

/-! ### Callbacks of the underlying io -/

theorem encodedAuthString_handled (h : Refused head s) (horder : InOrder head s) :
    wp (tunnel head).spec (encodedAuthString config) (fun authString s' =>
      match authString with
      | none => Handled head s s'
      | some _ => s' = s) s := by
  have hfail : wp (tunnel head).spec (do
      indicateOpenCompleteErrorAndClose failure
      pure (none : Option Bytes)) (fun authString s' =>
        match authString with
        | none => Handled head s s'
        | some _ => s' = s) s := by
    rw [wp_bind]
    exact indicateOpenCompleteErrorAndClose_handled h failure
  unfold encodedAuthString
  cases config.username with
  | none => rfl
  | some username =>
    dsimp only
    split
    · exact hfail
    simp only [wp_bind, mallocInt, malloc]
    split
    · exact hfail
    apply wp_ask rfl horder
    intro allocated _
    split
    · exact hfail
    simp only [wp_bind]
    apply wp_ask rfl horder
    intro encoded _
    split
    · exact hfail
    · rfl

theorem sendConnectRequestFor_handled (h : Tunnel head s) (hrefused : Refused head s)
    (authStringPayload : Bytes) :
    wp (tunnel head).spec (sendConnectRequestFor config authStringPayload)
      (fun _ s' => Handled head s s') s := by
  have hfail : wp (tunnel head).spec (indicateOpenCompleteErrorAndClose failure)
      (fun _ s' => Handled head s s') s :=
    indicateOpenCompleteErrorAndClose_handled hrefused failure
  have hhead : head ≠ [] := List.ne_nil_of_length_pos (Nat.zero_lt_of_lt hrefused.short)
  simp only [sendConnectRequestFor]
  split
  · exact hfail
  simp only [malloc, wp_bind]
  apply wp_ask rfl (h.inOrder hhead)
  intro allocated _
  split
  · exact hfail
  split
  · exact hfail
  simp only [xioSend, wp_bind]
  apply wp_xio rfl h
  intro r s' hans hlater
  split
  · rename_i hr
    have hsilent : heardBytes s'.heard = [] := by
      simpa [tunnelRun, proxyRun, hr] using hans
    have hnot := hlater.inv.silent hhead hsilent
    have hrefused' : Refused head s' := by
      refine ⟨hnot.1, hnot.2, ?_⟩
      rw [hlater.rely.currentOpen]
      exact hrefused.accepted
    refine wp_mono ?_ (indicateOpenCompleteErrorAndClose_handled hrefused' failure)
    exact fun _ _ hhandled => hhandled.after hlater.rely.currentOpen
  · exact ⟨hlater.inv, hlater.settled (hrefused.notOpened.caughtUp hrefused.short),
      hlater.rely.currentOpen⟩

theorem sendConnectRequest_handled (h : Accumulating s) (hhead : head ≠ [])
    (hheard : heardBytes s.heard = []) :
    wp (tunnel head).spec (sendConnectRequest config) (fun _ s' => Handled head s s') s := by
  simp only [sendConnectRequest, wp_bind, wp_setHttpProxyIoState]
  let s₁ := s.setState .httpProxyIoStateWaitingForConnectResponse
  have hpos : 0 < head.length := List.length_pos_iff.2 hhead
  have hheard₁ : heardBytes s₁.heard = [] := hheard
  have hshort : (heardBytes s₁.heard).length < head.length := by
    rw [hheard₁]
    exact hpos
  have hinv : Tunnel head s₁ := by
    refine .waiting rfl ⟨h.outcome, h.buffer, h.accepted⟩ ?_ hshort
    rw [hheard₁]
    exact List.nil_prefix
  have hrefused : Refused head s₁ := ⟨notOpened_of_nil h.outcome, hshort, h.accepted⟩
  refine wp_mono ?_ (encodedAuthString_handled hrefused (hinv.inOrder hhead))
  intro authString s' hs'
  cases authString with
  | none =>
    have hs' : Handled head s₁ s' := hs'
    exact hs'.after rfl
  | some authStringPayload =>
    have hs' : s' = s₁ := hs'
    subst hs'
    refine wp_mono ?_ (sendConnectRequestFor_handled hinv hrefused authStringPayload)
    exact fun _ _ hhandled => hhandled.after rfl

theorem heardBytes_concat (heard : List IoEvent) (ev : IoEvent) :
    heardBytes (heard ++ [ev]) = heardBytes heard ++ heardBytes [ev] := by
  simp [heardBytes]

theorem onUnderlyingIoOpenComplete_keeps (h : Tunnel head s) (hhead : head ≠ [])
    (hstate : s.inst.httpProxyIoState = .httpProxyIoStateOpeningUnderlyingIo)
    (openResult : IoOpenResultDetailed) :
    Keeps head (onUnderlyingIoOpenComplete config openResult) s := by
  have hopening : Accumulating s ∧ heardBytes s.heard = [] := by
    cases h with
    | opening _ ha hheard => exact ⟨ha, hheard⟩
    | _ => simp_all
  rcases hopening with ⟨ha, hheard⟩
  let s₁ := s.hear (.openComplete openResult.result)
  have hheard₁ : heardBytes s₁.heard = [] := by
    rw [ProxyIo.hear_heard, heardBytes_concat, hheard]
    rfl
  have ha₁ : Accumulating s₁ := by
    refine ⟨ha.outcome, ?_, ha.accepted⟩
    rw [hheard₁, ← hheard]
    exact ha.buffer
  have hshort : ∀ {heard}, heardBytes heard = [] → (heardBytes heard).length < head.length := by
    intro heard hnothing
    rw [hnothing]
    exact List.length_pos_iff.2 hhead
  have hrefused : Refused head s₁ := ⟨notOpened_of_nil ha.outcome, hshort hheard₁, ha.accepted⟩
  have hcaught : caughtUp head s = true :=
    (notOpened_of_nil ha.outcome).caughtUp (hshort hheard)
  have hlater : ∀ {s'}, Handled head s₁ s' → (tunnel head).Later s s' := by
    intro s' hhandled
    have hs' : Handled head s s' := hhandled.after rfl
    exact hs'.later (by simp [hstate]) hcaught
  simp only [Keeps, onUnderlyingIoOpenComplete, wp_bind, wp_modify, wp_getInst,
    ProxyIo.hear_inst, hstate]
  rcases openResult with ⟨result, code⟩
  cases result with
  | ioOpenError =>
    refine wp_mono ?_ (indicateOpenCompleteErrorAndClose_handled hrefused code)
    exact fun _ _ => hlater
  | ioOpenOk =>
    refine wp_mono ?_ (sendConnectRequest_handled ha₁ hhead hheard₁)
    exact fun _ _ => hlater
  | ioOpenCancelled =>
    refine wp_mono ?_ (closeAndReport_handled hrefused .cancelledOpen nofun)
    exact fun _ _ => hlater

theorem onBytesReceived_handled
    (hstate : s.inst.httpProxyIoState = .httpProxyIoStateOpen) {delivered bytes : Bytes}
    (hopened : OpenedWith s delivered)
    (hheard : heardBytes s.heard = head ++ delivered ++ bytes) :
    wp (tunnel head).spec (onBytesReceived bytes) (fun _ s' => Handled head s s') s := by
  simp only [onBytesReceived, wp_bind, wp_getInst]
  let s₁ := s.record (.call s.currentOpen (.onBytesReceived s.inst.onBytesReceived bytes))
  have hopened₁ : OpenedWith s₁ (delivered ++ bytes) := by
    rcases hopened with ⟨chunks, rfl, hchunks⟩
    refine ⟨chunks ++ [bytes], by simp, ?_⟩
    rw [outcome_record, hchunks]
    simp [Event.outcome]
  have hheard₁ : heardBytes s₁.heard = head ++ (delivered ++ bytes) := by
    rw [← List.append_assoc]
    exact hheard
  have hcaught : HttpProxyIo.caughtUp head s₁ = true := by
    rw [caughtUp_iff, hopened₁.forwardedBytes, hheard₁, List.drop_left]
  have hinv : Tunnel head s₁ := by
    refine .opened hstate (delivered ++ bytes) hopened₁ ?_
    exact ⟨[], by rw [List.append_nil, hheard₁]⟩
  apply wp_callOut rfl hinv
  intro _ s' _ hlater
  exact ⟨hlater.inv, hlater.settled hcaught, hlater.rely.currentOpen⟩

theorem reportOpened_handled (ha : Accumulating s) {tunnelled : Bytes}
    (hheard : heardBytes s.heard = head ++ tunnelled) :
    wp (tunnel head).spec (reportOpened tunnelled) (fun _ s' => Handled head s s') s := by
  simp only [reportOpened, onIoOpenComplete, wp_bind, wp_setHttpProxyIoState, wp_getInst]
  let s₁ := (s.setState .httpProxyIoStateOpen).record
    (.call s.currentOpen (.onIoOpenComplete s.inst.onIoOpenComplete { result := .ioOpenOk }))
  have hopened : OpenedWith s₁ [] := by
    refine ⟨[], rfl, ?_⟩
    have hnone : (s.setState .httpProxyIoStateOpen).outcomeSince 0 = [] := ha.outcome
    rw [outcome_record, hnone]
    rfl
  have hheard₁ : heardBytes s₁.heard = head ++ tunnelled := hheard
  have hinv : Tunnel head s₁ := by
    refine .opened rfl [] hopened ?_
    rw [hheard₁, List.append_nil]
    exact List.prefix_append _ _
  apply wp_callOut rfl hinv
  intro _ s' _ hlater
  split
  case isTrue hsome =>
    have hpending : HttpProxyIo.caughtUp head s₁ = false := by
      apply Bool.eq_false_iff.2
      intro hcaught
      rw [caughtUp_iff, hopened.forwardedBytes, hheard₁, List.drop_left] at hcaught
      exact hsome hcaught.symm
    rcases hlater.rely.pending hpending with ⟨hstate', hheard', houtcome'⟩
    have hopened' : OpenedWith s' [] := by
      rwa [OpenedWith, houtcome']
    have hbytes : heardBytes s'.heard = head ++ [] ++ tunnelled := by
      rw [hheard', List.append_nil]
      exact hheard₁
    refine wp_mono ?_ (onBytesReceived_handled hstate' hopened' hbytes)
    exact fun _ _ hhandled => hhandled.after hlater.rely.currentOpen
  case isFalse hnone =>
    have htunnelled : tunnelled = [] := Decidable.not_not.1 hnone
    have hcaught : HttpProxyIo.caughtUp head s₁ = true := by
      rw [caughtUp_iff, hopened.forwardedBytes, hheard₁, htunnelled, List.append_nil,
        List.drop_length]
    exact ⟨hlater.inv, hlater.settled hcaught, hlater.rely.currentOpen⟩

theorem parseConnectResponse_handled (hhead : ResponseHead head) (ha : Accumulating s)
    (hstate : s.inst.httpProxyIoState = .httpProxyIoStateWaitingForConnectResponse)
    (harrived : heardBytes s.heard <+: head ∨ head <+: heardBytes s.heard) :
    wp (tunnel head).spec parseConnectResponse (fun _ s' => Handled head s s') s := by
  have hnotOpened : NotOpened s := notOpened_of_nil ha.outcome
  simp only [parseConnectResponse, wp_bind, wp_getInst, ha.buffer]
  by_cases hcomplete : head <+: heardBytes s.heard
  · rcases hcomplete with ⟨payload, hpayload⟩
    simp only [← hpayload, hhead.findResponseEnd payload, errno, wp_bind]
    apply wp_ask rfl (.inl hnotOpened)
    intro errnoSet _
    rcases parseHttpResponse_head hhead payload errnoSet with ⟨statusCode, hlow, hhigh, hread⟩
    rw [hread]
    show wp (tunnel head).spec (if statusCode < 200 ∨ statusCode > 299 then
      indicateOpenCompleteErrorAndClose failure
      else reportOpened (tunnelledBytes (head ++ payload) (head.length - 4)))
        (fun _ s' => Handled head s s') s
    rw [if_neg (by omega), hhead.tunnelledBytes]
    exact reportOpened_handled ha hpayload.symm
  · have hstart := harrived.resolve_right hcomplete
    have hshort : (heardBytes s.heard).length < head.length := by
      apply Nat.lt_of_le_of_ne hstart.length_le
      intro heq
      apply hcomplete
      exact ⟨[], by rw [List.append_nil, hstart.eq_of_length heq]⟩
    rw [hhead.findResponseEnd_of_shorter hstart hshort]
    exact ⟨.waiting hstate ha hstart hshort, hnotOpened.caughtUp hshort, rfl⟩

theorem onUnderlyingIoBytesReceived_keeps (h : Tunnel head s) (hhead : ResponseHead head)
    {buffer : Bytes} (hcaught : caughtUp head s = true) (harrives : arrives head s buffer = true) :
    Keeps head (onUnderlyingIoBytesReceived buffer) s := by
  have hheard₁ : heardBytes (s.hear (.bytesReceived buffer)).heard =
      heardBytes s.heard ++ buffer := by
    rw [ProxyIo.hear_heard, heardBytes_concat]
    simp [heardBytes]
  simp only [Keeps, onUnderlyingIoBytesReceived, wp_bind, wp_modify, wp_getInst,
    ProxyIo.hear_inst]
  cases h with
  | unopened hstate _ => simp [arrives, hstate] at harrives
  | refused hstate _ => simp [arrives, hstate] at harrives
  | opening hstate _ _ => simp [arrives, hstate] at harrives
  | waiting hstate ha hstart hshort =>
    simp only [hstate, accumulateConnectResponse, realloc, wp_bind]
    have hnotOpened : NotOpened (s.hear (.bytesReceived buffer)) := notOpened_of_nil ha.outcome
    apply wp_ask rfl (.inl hnotOpened)
    intro reallocated hans
    have hreallocated : reallocated = true := by
      simpa [tunnelRun, proxyRun] using hans
    simp only [hreallocated, Bool.true_eq_false, if_false, wp_modifyInst]
    let s₁ := s.hear (.bytesReceived buffer)
    let s₂ := s₁.setInst { s₁.inst with receiveBuffer := s₁.inst.receiveBuffer ++ buffer }
    have hheard₂ : heardBytes s₂.heard = heardBytes s.heard ++ buffer := hheard₁
    have ha₂ : Accumulating s₂ := by
      refine ⟨ha.outcome, ?_, ha.accepted⟩
      rw [hheard₂, ← ha.buffer]
      rfl
    have harrived : heardBytes s₂.heard <+: head ∨ head <+: heardBytes s₂.heard := by
      rw [hheard₂]
      simpa [arrives, hstate] using harrives
    refine wp_mono ?_ (parseConnectResponse_handled hhead ha₂ hstate harrived)
    intro _ s' hhandled
    have hs' : Handled head s s' := hhandled.after rfl
    exact hs'.later (by simp [hstate]) hcaught
  | opened hstate delivered hopened hstart =>
    simp only [hstate]
    let s₁ := s.hear (.bytesReceived buffer)
    have hopened₁ : OpenedWith s₁ delivered := hopened
    have hbytes : heardBytes s₁.heard = head ++ delivered ++ buffer := by
      rw [← hopened.heard hstart hcaught]
      exact hheard₁
    refine wp_mono ?_ (onBytesReceived_handled (s := s₁) hstate hopened₁ hbytes)
    intro _ s' hhandled
    have hs' : Handled head s s' := hhandled.after rfl
    exact hs'.later (by simp [hstate]) hcaught

/-! ### The interface -/

theorem httpProxyIoSend_keeps (h : Tunnel head s) (buffer : Option Bytes)
    (onSendComplete : Option Callback) : Keeps head (httpProxyIoSend buffer onSendComplete) s := by
  match buffer with
  | none => exact later_refl h
  | some [] => exact later_refl h
  | some (b :: bytes) =>
    simp only [Keeps, httpProxyIoSend, xioSend, wp_bind, wp_getInst]
    split
    · exact later_refl h
    · simp only [wp_bind]
      apply wp_xio rfl h
      intro r s' _ hlater
      exact hlater

theorem httpProxyIoDowork_keeps (h : Tunnel head s) : Keeps head httpProxyIoDowork s := by
  simp only [Keeps, httpProxyIoDowork, wp_bind, wp_getInst]
  split
  · apply wp_xio rfl h
    intro _ s' _ hlater
    exact hlater
  · exact later_refl h

/-- `k` is the number of this open. -/
theorem openUnderlyingIo_settles (h : Tunnel head s) (hhead : head ≠ []) {k : Nat} (hk : k ≠ 0)
    (hfirst : s.inst.httpProxyIoState = .httpProxyIoStateClosed → s.currentOpen = 0)
    (arguments : OpenArguments) :
    wp (tunnel head).spec (openUnderlyingIo k arguments) (fun _ s' =>
      Tunnel head s' ∧ (caughtUp head s = true → caughtUp head s' = true)) s := by
  unfold openUnderlyingIo
  split
  case h_2 => exact ⟨h, id⟩
  case h_1 onIoOpenComplete onBytesReceived onIoError _ _ _ =>
    simp only [xioOpen, wp_bind, wp_getInst]
    split
    case isTrue => exact ⟨h, id⟩
    case isFalse hstate =>
      have hclosed := Decidable.not_not.1 hstate
      have hunopened : Unopened s := by
        cases h with
        | unopened _ hu => exact hu
        | refused _ hrefused => exact absurd (hfirst hclosed) hrefused.accepted
        | _ => simp_all
      simp only [wp_bind, wp_modify]
      let s₁ := s.beginOpen k onIoOpenComplete onBytesReceived onIoError
      have hopening : Tunnel head s₁ := .opening rfl ⟨hunopened.outcome, hunopened.buffer, hk⟩ rfl
      have hcaught : caughtUp head s₁ = true := by
        have hnot := hopening.silent hhead rfl
        exact hnot.1.caughtUp hnot.2
      apply wp_xio rfl hopening
      intro r s' hans hlater
      split
      · rename_i hr
        simp only [wp_bind, wp_setHttpProxyIoState]
        have hsilent : heardBytes s'.heard = [] := by
          have hnothing : s'.heard = [] := by simpa [tunnelRun, proxyRun, hr] using hans
          rw [hnothing]
          rfl
        have hnot := hlater.inv.silent hhead hsilent
        have haccepted : s'.currentOpen ≠ 0 := by
          rw [hlater.rely.currentOpen]
          exact hk
        refine ⟨refuse ⟨hnot.1, hnot.2, haccepted⟩, fun _ => ?_⟩
        have hnot' : NotOpened (s'.setState .httpProxyIoStateClosed) := hnot.1
        exact hnot'.caughtUp hnot.2
      · exact ⟨hlater.inv, fun _ => hlater.settled hcaught⟩

theorem httpProxyIoOpen_settles (h : Tunnel head s) (hhead : head ≠ [])
    (hfirst : s.inst.httpProxyIoState = .httpProxyIoStateClosed → s.currentOpen = 0)
    (arguments : OpenArguments) :
    wp (tunnel head).spec (httpProxyIoOpen arguments) (fun _ s' =>
      Tunnel head s' ∧ (caughtUp head s = true → caughtUp head s' = true)) s := by
  simp only [httpProxyIoOpen, wp_bind, wp_modify, wp_get]
  let s₁ : ProxyIo := { s with openCalls := s.openCalls + 1 }
  have hinv : Tunnel head s₁ := h.congr rfl rfl rfl rfl
  have hnumber : s₁.openCalls ≠ 0 := Nat.succ_ne_zero _
  refine wp_mono ?_ (openUnderlyingIo_settles hinv hhead hnumber hfirst arguments)
  rintro r s' ⟨hinv', hcaught⟩
  have hrecord : (tunnel head).Later s' (s'.record (.openReturned s₁.openCalls r)) :=
    hinv'.later_record rfl
  exact ⟨hrecord.inv, fun hbefore => hrecord.settled (hcaught hbefore)⟩

end Tunnel

end

/-! ## Every run -/

theorem tunnel_sound (config : HttpProxyIoConfig) {head : Bytes} (hhead : ResponseHead head) :
    (tunnel head).Sound (httpProxyIoCode config) where
  inv_always _ h := Tunnel.inOrder h hhead.ne_nil
  refl := Meanwhile.refl
  trans _ _ _ h h' := h.trans h'
  reenter := by
    intro c p s hmay
    cases p with
    | httpProxyIoOpen arguments => cases hmay
    | httpProxyIoSend buffer onSendComplete =>
      have hmay : c.isCallback = true := hmay
      exact ⟨by simp [tunnel, hmay], rfl⟩
    | httpProxyIoDowork =>
      have hmay : c.isCallback = true := hmay
      exact ⟨by simp [tunnel, hmay], rfl⟩
    | onUnderlyingIoOpenComplete result =>
      have hxio : c.isXio = true := (Bool.and_eq_true_iff.1 hmay).1
      exact ⟨by simp [tunnel, hxio], rfl⟩
    | onUnderlyingIoBytesReceived buffer =>
      have hxio : c.isXio = true :=
        (Bool.and_eq_true_iff.1 (Bool.and_eq_true_iff.1 hmay).1).1
      exact ⟨by simp [tunnel, hxio], rfl⟩
    | _ => cases hmay
  enter := by
    intro top p s h hsettled hmay
    cases p with
    | httpProxyIoOpen arguments =>
      intro hclosed
      simpa [tunnel, tunnelRun, proxyRun, hclosed] using (Bool.and_eq_true_iff.1 hmay).2
    | httpProxyIoSend buffer onSendComplete => trivial
    | httpProxyIoDowork => trivial
    | onUnderlyingIoOpenComplete result =>
      have hstate : (s.inst.httpProxyIoState == .httpProxyIoStateOpeningUnderlyingIo) = true :=
        (Bool.and_eq_true_iff.1 hmay).2
      exact eq_of_beq hstate
    | onUnderlyingIoBytesReceived buffer =>
      have hparts := Bool.and_eq_true_iff.1 hmay
      refine ⟨?_, hparts.2⟩
      rcases Bool.or_eq_true_iff.1 (Bool.and_eq_true_iff.1 hparts.1).2 with hnone | hcaught
      · exact hsettled (Option.isNone_iff_eq_none.1 hnone)
      · exact hcaught
    | _ => cases hmay
  code := by
    intro p s h hentry _
    have hkeeps : ∀ {c : HttpProxyIoComp Int}, Tunnel.Keeps head c s →
        wp (tunnel head).spec c ((tunnel head).spec.procPost p s) s := by
      intro c hc
      refine wp_mono ?_ hc
      intro _ s' hlater
      exact ⟨hlater.inv, hlater.settled, fun _ => hlater.rely⟩
    have hvoid : ∀ {c : HttpProxyIoComp Unit}, Tunnel.Keeps head c s →
        Tunnel.Keeps head (void c) s := by
      intro c hc
      rw [Tunnel.Keeps, void, wp_bind]
      exact hc
    cases p with
    | httpProxyIoOpen arguments =>
      refine wp_mono ?_ (Tunnel.httpProxyIoOpen_settles h hhead.ne_nil hentry arguments)
      intro _ s' hs'
      exact ⟨hs'.1, hs'.2, by rintro ⟨⟩⟩
    | httpProxyIoSend buffer onSendComplete =>
      exact hkeeps (Tunnel.httpProxyIoSend_keeps h buffer onSendComplete)
    | httpProxyIoDowork => exact hkeeps (hvoid (Tunnel.httpProxyIoDowork_keeps h))
    | onUnderlyingIoOpenComplete result =>
      exact hkeeps (hvoid (Tunnel.onUnderlyingIoOpenComplete_keeps h hhead.ne_nil hentry
        result))
    | onUnderlyingIoBytesReceived buffer =>
      exact hkeeps (hvoid (Tunnel.onUnderlyingIoBytesReceived_keeps h hhead hentry.1 hentry.2))
    | _ => cases hentry

def someHead : Bytes := ascii "HTTP/1.1 200 OK\r\n\r\n"

theorem responseHead_someHead : ResponseHead someHead where
  noNul := by decide +kernel
  ends := by decide +kernel
  statusLine := ⟨0x30, 0x30, ascii "OK\r\n\r\n", ⟨by decide, by decide⟩, ⟨by decide, by decide⟩,
    by decide +kernel⟩

/-- The double new-line is cut in two, and the second chunk goes on behind it. -/
def tunnelInChunks : List (Input httpProxyIoSignature) :=
  connecting ++
    [.enter (.onUnderlyingIoBytesReceived (ascii "HTTP/1.1 200 OK\r\n\r")), .answer succeeds,
      .enter (.onUnderlyingIoBytesReceived (ascii "\nab")), .answer succeeds, .answer succeeds,
      .answer succeeds, .answer succeeds,
      .enter (.onUnderlyingIoBytesReceived (ascii "cd")), .answer succeeds]

/-- There is no memory for the response. -/
def withoutMemory : List (Input httpProxyIoSignature) :=
  connecting ++
    [.enter (.onUnderlyingIoBytesReceived someHead),
      .answer fun
        | .realloc => false
        | c => succeeds c,
      .answer succeeds, .answer succeeds]

end SharedUtility.HttpProxyIo
