import Mathlib.Data.List.Forall2
import SharedUtility.Memory.Cursor
import SharedUtility.Reentrant.Quiet
import SharedUtility.RequestText.Reference
import SharedUtility.UwsClient.Code

/-!
# Upgrade — the upgrade request in its block

`on_underlying_io_open_complete` of `uws_client.c` computes a length, allocates one byte more, and copies the
parts of the request into the block one behind the other.

* `upgradeSteps`, `writeUpgradeRequest` — these copies, at `upgrade_request_position`,
* `writeRequestHeaders` — those of `get_request_headers`,
* `upgradeIsExact`: the block is filled with the request, and nothing is written outside.
-/

namespace SharedUtility.RequestText

open Memory Reentrant UwsClient

/-! ## The code -/

/-- `format_host_for_authority` for `output + offset`. -/
def formatHostForAuthorityAt (output : Ptr) (offset : Nat) (host : Bytes) (outputSize : Nat) :
    HeapM (Region UInt8) Int :=
  match getAuthorityHostInfo host with
  | none => pure failure
  | some info =>
    if outputSize ≤ info.formattedLength then pure failure
    else if info.isIpv6 then do
      storeAt output offset 0x5B
      copyIn output (offset + 1) info.address info.address.length
      storeAt output (offset + (1 + info.address.length)) 0x5D
      storeAt output (offset + (1 + info.address.length + 1)) 0
      pure 0
    else do
      copyIn output offset info.address info.address.length
      storeAt output (offset + info.address.length) 0
      pure 0

/-- `snprintf (output + offset, size, …)` for what is `text` when there is room for it. -/
def snprintfAt (output : Ptr) (offset size : Nat) (text : Bytes) : HeapM (Region UInt8) Int :=
  if size = 0 then pure text.length
  else do
    let written := text.take (size - 1)
    copyIn output offset written written.length
    storeAt output (offset + written.length) 0
    pure text.length

/-- A `memcpy`, and the position behind it. -/
def memcpyStep (request : Ptr) (segment : Bytes) : Step UInt8 := fun position => do
  copyIn request position segment segment.length
  pure (some (addSizeT position segment.length))

/-- The `do … while` loop over `port_value`. -/
def countPortDigits (portValue : Int) : Nat :=
  if portValue.tdiv 10 = 0 then 1 else 1 + countPortDigits (portValue.tdiv 10)
termination_by portValue.natAbs
decreasing_by
  have hdiv : (portValue.tdiv 10).natAbs = portValue.natAbs / 10 := Int.natAbs_tdiv _ _
  omega

/-- `port_length`. -/
def countedPortLength (port : Int) : Nat :=
  (if port < 0 then 1 else 0) + countPortDigits port

def hostStep (request : Ptr) (hostname : Bytes) : Step UInt8 := fun position => do
  let r ← formatHostForAuthorityAt request position hostname (authorityHostLength hostname + 1)
  if r ≠ 0 then pure none else pure (some (addSizeT position (authorityHostLength hostname)))

def portStep (request : Ptr) (port : Int) : Step UInt8 := fun position => do
  let formattedPortLength ← snprintfAt request position (countedPortLength port + 1) (formattedPort port)
  if formattedPortLength < 0 ∨ formattedPortLength.toNat ≠ countedPortLength port then pure none
  else pure (some (addSizeT position (countedPortLength port)))

/-- What the loop over the protocols copies. -/
def protocolSegments : List Bytes → List Bytes
  | [] => []
  | protocol :: protocols =>
    [ascii "Sec-WebSocket-Protocol: ", protocol] ++ protocols.flatMap (fun p => [ascii ", ", p]) ++
      [ascii "\r\n"]

def upgradeSteps (request : Ptr) (c : UwsClientInstance) (base64Nonce requestHeaders : Bytes) :
    List (Step UInt8) :=
  [memcpyStep request (ascii "GET "), memcpyStep request c.resourceName,
    memcpyStep request (ascii " HTTP/1.1\r\nHost: "), hostStep request c.hostname,
    memcpyStep request (ascii ":"), portStep request c.port,
    memcpyStep request (ascii "\r\nUpgrade: websocket\r\nConnection: Upgrade\r\nSec-WebSocket-Key: "),
    memcpyStep request base64Nonce, memcpyStep request (ascii "\r\nSec-WebSocket-Version: 13\r\n"),
    memcpyStep request requestHeaders] ++
  (protocolSegments c.protocols).map (memcpyStep request) ++ [memcpyStep request (ascii "\r\n")]

/-- What is written into the block for the request; `none` for a failure. -/
def writeUpgradeRequest (request : Ptr) (c : UwsClientInstance) (base64Nonce requestHeaders : Bytes) :
    HeapM (Region UInt8) (Option Nat) := do
  let next ← inOrder (upgradeSteps request c base64Nonce requestHeaders) 0
  match next with
  | none => pure none
  | some position => do
    storeAt request position 0
    pure (some position)

/-- The length that `get_request_headers` computes. -/
def requestHeadersLength (headers : List (Bytes × Bytes)) : Nat :=
  headers.foldl
    (fun length header => addSizeT length (addSizeT (addSizeT header.1.length header.2.length) 4)) 0

/-- What it copies. -/
def headerSegments (headers : List (Bytes × Bytes)) : List Bytes :=
  headers.flatMap fun header => [header.1, ascii ": ", header.2, ascii "\r\n"]

def writeRequestHeaders (result : Ptr) (headers : List (Bytes × Bytes)) :
    HeapM (Region UInt8) (Option Nat) := do
  let next ← inOrder ((headerSegments headers).map (memcpyStep result)) 0
  match next with
  | none => pure none
  | some position => do
    storeAt result position 0
    pure (some position)

/-! ## The steps -/

section

variable {h : Heap (Region UInt8)} {p : Ptr} {xs host text : Bytes} {size outputSize : Nat}

theorem addSizeT_eq {a b : Nat} (h : a + b < size) (hsize : size ≤ sizeMax) : addSizeT a b = a + b :=
  Nat.mod_eq_of_lt (by omega)

theorem appends_memcpyStep (hsize : size ≤ sizeMax) (segment : Bytes) :
    Appends p size (memcpyStep p segment) segment := by
  intro h xs hp hroom
  apply Meets.bind
  apply hp.meets_copyIn (Nat.le_of_lt hroom)
  intro h' hh hp'
  exact meets_pure ⟨congrArg some (addSizeT_eq hroom hsize), hp', hh⟩

theorem meets_formatHostForAuthorityAt (hp : Starts h p xs size) (hsize : size ≤ sizeMax)
    (hfit : xs.length + (authorityOf host).length < size) (hroom : (authorityOf host).length < outputSize)
    {Q : Int → Heap (Region UInt8) → Prop}
    (hQ : ∀ h', Replaces h h' p p → Starts h' p (xs ++ authorityOf host) size → Q 0 h') :
    Meets (formatHostForAuthorityAt p xs.length host outputSize) h Q := by
  rcases getAuthorityHostInfo_eq (show (authorityOf host).length < sizeMax by omega) with
    ⟨info, hinfo, hlength, htext⟩
  rw [formatHostForAuthorityAt, hinfo]
  dsimp only
  rw [if_neg (by omega)]
  rw [htext] at hfit hQ
  cases hipv6 : info.isIpv6 with
  | true =>
    rw [hipv6, if_pos rfl] at hfit hQ
    rw [inBrackets, List.length_cons, List.length_append, List.length_singleton] at hfit
    rw [if_pos rfl]
    apply Meets.bind
    apply hp.meets_storeAt (by omega)
    intro h₁ hh₁ hp₁
    have hfront : (xs ++ [0x5B]).length = xs.length + 1 := by
      rw [List.length_append, List.length_singleton]
    rw [← hfront]
    apply Meets.bind
    apply hp₁.meets_copyIn (by rw [hfront]; omega)
    intro h₂ hh₂ hp₂
    have haddress : (xs ++ [0x5B] ++ info.address).length = xs.length + (1 + info.address.length) := by
      rw [List.length_append, hfront, Nat.add_assoc]
    rw [← haddress]
    apply Meets.bind
    apply hp₂.meets_storeAt (by rw [haddress]; omega)
    intro h₃ hh₃ hp₃
    have hback : (xs ++ [0x5B] ++ info.address ++ [0x5D]).length =
        xs.length + (1 + info.address.length + 1) := by
      rw [List.length_append, haddress, List.length_singleton, Nat.add_assoc]
    rw [← hback]
    apply Meets.bind
    apply hp₃.meets_storeAt (by rw [hback]; omega)
    intro h₄ hh₄ hp₄
    apply meets_pure
    apply hQ h₄ (hh₁.trans (hh₂.trans (hh₃.trans hh₄)))
    have hwhole : xs ++ inBrackets info.address = xs ++ [0x5B] ++ info.address ++ [0x5D] := by
      rw [inBrackets]
      simp only [List.append_assoc, List.cons_append, List.nil_append]
    rw [hwhole]
    exact hp₄.front
  | false =>
    rw [hipv6, if_neg Bool.false_ne_true] at hfit hQ
    rw [if_neg Bool.false_ne_true]
    apply Meets.bind
    apply hp.meets_copyIn (by omega)
    intro h₁ hh₁ hp₁
    rw [← List.length_append]
    apply Meets.bind
    apply hp₁.meets_storeAt (by rw [List.length_append]; omega)
    intro h₂ hh₂ hp₂
    exact meets_pure (hQ h₂ (hh₁.trans hh₂) hp₂.front)

theorem appends_hostStep (hsize : size ≤ sizeMax) (host : Bytes) :
    Appends p size (hostStep p host) (authorityOf host) := by
  intro h xs hp hroom
  have hlength : authorityHostLength host = (authorityOf host).length := authorityHostLength_eq (by omega)
  rw [hostStep, hlength]
  apply Meets.bind
  apply meets_formatHostForAuthorityAt hp hsize hroom (Nat.lt_succ_self _)
  intro h' hh hp'
  rw [if_neg (by decide)]
  exact meets_pure ⟨congrArg some (addSizeT_eq hroom hsize), hp', hh⟩

theorem meets_snprintfAt (hp : Starts h p xs size) (hfit : xs.length + text.length < size)
    {Q : Int → Heap (Region UInt8) → Prop}
    (hQ : ∀ h', Replaces h h' p p → Starts h' p (xs ++ text) size → Q text.length h') :
    Meets (snprintfAt p xs.length (text.length + 1) text) h Q := by
  rw [snprintfAt, if_neg (Nat.succ_ne_zero _), Nat.add_sub_cancel, List.take_length]
  apply Meets.bind
  apply hp.meets_copyIn (Nat.le_of_lt hfit)
  intro h₁ hh₁ hp₁
  rw [← List.length_append]
  apply Meets.bind
  apply hp₁.meets_storeAt (by rwa [List.length_append])
  intro h₂ hh₂ hp₂
  exact meets_pure (hQ h₂ (hh₁.trans hh₂) hp₂.front)

theorem countPortDigits_eq (portValue : Int) :
    countPortDigits portValue = (Nat.toDigits 10 portValue.natAbs).length := by
  induction portValue using countPortDigits.induct with
  | case1 portValue hzero =>
    have hsmall : portValue.natAbs < 10 := by
      have hdiv : (portValue.tdiv 10).natAbs = portValue.natAbs / 10 := Int.natAbs_tdiv _ _
      omega
    rw [countPortDigits, if_pos hzero, Nat.toDigits_of_lt_base hsmall]
    rfl
  | case2 portValue hzero ih =>
    have hdiv : (portValue.tdiv 10).natAbs = portValue.natAbs / 10 := Int.natAbs_tdiv _ _
    have hlarge : 10 ≤ portValue.natAbs := by omega
    rw [countPortDigits, if_neg hzero, ih, hdiv, Nat.toDigits_of_base_le (by decide) hlarge,
      List.length_append, List.length_singleton, Nat.add_comm]

theorem countedPortLength_eq (port : Int) : countedPortLength port = (formattedPort port).length := by
  rw [countedPortLength, formattedPort, countPortDigits_eq, List.length_append, List.length_map]
  split_ifs
  · rfl
  · rfl

theorem portLength_eq (port : Int) : portLength port = (formattedPort port).length := by
  rw [portLength, ← countPortDigits_eq]
  exact countedPortLength_eq port

theorem appends_portStep (hsize : size ≤ sizeMax) (port : Int) :
    Appends p size (portStep p port) (formattedPort port) := by
  intro h xs hp hroom
  rw [portStep, countedPortLength_eq]
  apply Meets.bind
  apply meets_snprintfAt hp hroom
  intro h' hh hp'
  rw [if_neg (by omega)]
  exact meets_pure ⟨congrArg some (addSizeT_eq hroom hsize), hp', hh⟩

theorem forall₂_memcpyStep (hsize : size ≤ sizeMax) (segments : List Bytes) :
    List.Forall₂ (Appends p size) (segments.map (memcpyStep p)) segments := by
  rw [List.forall₂_map_left_iff, List.forall₂_same]
  exact fun segment _ => appends_memcpyStep hsize segment

end

/-! ## The whole texts -/

section

variable {c : UwsClientInstance} {base64Nonce : Bytes} {h : Heap (Region UInt8)} {p : Ptr}

theorem flatten_protocolSegments (protocols : List Bytes) :
    (protocolSegments protocols).flatten = protocolHeader protocols := by
  cases protocols with
  | nil => rfl
  | cons protocol protocols =>
    have hothers : (protocols.flatMap fun p => [ascii ", ", p]).flatten =
        (protocols.map fun p => ascii ", " ++ p).flatten := by
      induction protocols with
      | nil => rfl
      | cons second protocols ih =>
        rw [List.flatMap_cons, List.flatten_append, ih, List.map_cons, List.flatten_cons]
        simp only [List.flatten_cons, List.flatten_nil, List.append_nil]
    rw [protocolSegments, List.flatten_append, List.flatten_append, hothers, protocolHeader]
    simp only [List.flatten_cons, List.flatten_nil, List.append_nil]

theorem flatten_headerSegments (headers : List (Bytes × Bytes)) :
    (headerSegments headers).flatten = getRequestHeaders headers := by
  rw [headerSegments, getRequestHeaders]
  induction headers with
  | nil => rfl
  | cons header headers ih =>
    rw [List.flatMap_cons, List.flatten_append, ih, List.map_cons, List.flatten_cons]
    simp only [List.flatten_cons, List.flatten_nil, List.append_nil, List.append_assoc]

theorem meets_written {steps : List (Step UInt8)} {texts : List Bytes} {text : Bytes}
    (hsteps : List.Forall₂ (Appends p (text.length + 1)) steps texts) (htext : texts.flatten = text)
    (hp : h.cell p = some (unwritten (text.length + 1))) :
    Meets (do
      let next ← inOrder steps 0
      match next with
      | none => pure none
      | some position => do
        storeAt p position 0
        pure (some position)) h
      fun next h' => next = some text.length ∧ Filled h' p (text ++ [0]) 0 ∧ Replaces h h' p p := by
  have happends := appends_inOrder hsteps
  rw [htext] at happends
  apply Meets.bind
  apply (happends h [] (starts_unwritten hp) (by rw [List.length_nil]; omega)).mono
  rintro next h₁ ⟨rfl, hp₁, hh₁⟩
  rw [List.nil_append] at hp₁
  rw [List.length_nil, Nat.zero_add]
  apply Meets.bind
  apply hp₁.meets_storeAt (Nat.lt_succ_self _)
  intro h₂ hh₂ hp₂
  refine meets_pure ⟨rfl, hp₂.filled ?_, hh₁.trans hh₂⟩
  rw [List.length_append, List.length_singleton]

theorem sum_protocols (protocols : List Bytes) :
    (protocols.flatMap fun p => [(ascii ", ").length, p.length]).sum =
      (protocols.map fun p => ascii ", " ++ p).flatten.length := by
  induction protocols with
  | nil => rfl
  | cons protocol protocols ih =>
    rw [List.flatMap_cons, List.sum_append, ih, List.map_cons, List.flatten_cons, List.length_append,
      List.length_append]
    simp only [List.sum_cons, List.sum_nil, Nat.add_zero]

theorem upgradeRequestLength_eq (h : (upgradeText c base64Nonce).length < sizeMax) :
    upgradeRequestLength c base64Nonce (getRequestHeaders c.requestHeaders) =
      (upgradeText c base64Nonce).length := by
  have hauthority : authorityHostLength c.hostname = (authorityOf c.hostname).length := by
    apply authorityHostLength_eq
    rw [upgradeText_eq] at h
    simp only [List.length_append] at h
    omega
  have hsum : (upgradeRequestSummands c base64Nonce (getRequestHeaders c.requestHeaders)).sum =
      (upgradeText c base64Nonce).length := by
    rw [upgradeText_eq, upgradeRequestSummands, hauthority, portLength_eq]
    cases c.protocols with
    | nil =>
      simp only [List.sum_append, List.sum_cons, List.sum_nil, List.length_append, protocolHeader,
        List.length_nil]
      omega
    | cons protocol protocols =>
      simp only [List.sum_append, List.sum_cons, List.sum_nil, List.length_append, protocolHeader,
        sum_protocols]
      omega
  rw [← hsum] at h ⊢
  rw [upgradeRequestLength, foldl_safeAddSizeT (by omega), Nat.zero_add]

theorem upgradeRequest_eq (h : (upgradeText c base64Nonce).length < sizeMax) :
    upgradeRequest c base64Nonce (getRequestHeaders c.requestHeaders) =
      some (upgradeText c base64Nonce) := by
  have hfit : (authorityOf c.hostname).length < sizeMax := by
    rw [upgradeText_eq] at h
    simp only [List.length_append] at h
    omega
  rw [upgradeRequest, authorityHostLength_eq hfit, formatHostForAuthority_eq hfit (Nat.lt_succ_self _)]
  dsimp only
  rw [if_neg (not_not.2 (portLength_eq c.port).symm), upgradeText_eq]

theorem writeUpgradeRequest_meets (hfit : (upgradeText c base64Nonce).length < sizeMax)
    (hp : h.cell p = some (unwritten ((upgradeText c base64Nonce).length + 1))) :
    Meets (writeUpgradeRequest p c base64Nonce (getRequestHeaders c.requestHeaders)) h
      fun next h' => next = some (upgradeText c base64Nonce).length ∧
        Filled h' p (upgradeText c base64Nonce ++ [0]) 0 ∧ Replaces h h' p p := by
  have hcopy := fun segment => @appends_memcpyStep p _ hfit segment
  have hsteps : List.Forall₂ (Appends p ((upgradeText c base64Nonce).length + 1))
      (upgradeSteps p c base64Nonce (getRequestHeaders c.requestHeaders))
      ([ascii "GET ", c.resourceName, ascii " HTTP/1.1\r\nHost: ", authorityOf c.hostname, ascii ":",
        formattedPort c.port,
        ascii "\r\nUpgrade: websocket\r\nConnection: Upgrade\r\nSec-WebSocket-Key: ", base64Nonce,
        ascii "\r\nSec-WebSocket-Version: 13\r\n", getRequestHeaders c.requestHeaders] ++
        protocolSegments c.protocols ++ [ascii "\r\n"]) := by
    refine List.rel_append (List.rel_append ?_ (forall₂_memcpyStep hfit _)) (.cons (hcopy _) .nil)
    refine .cons (hcopy _) (.cons (hcopy _) (.cons (hcopy _) (.cons (appends_hostStep hfit _) ?_)))
    refine .cons (hcopy _) (.cons (appends_portStep hfit _) (.cons (hcopy _) (.cons (hcopy _) ?_)))
    exact .cons (hcopy _) (.cons (hcopy _) .nil)
  apply meets_written hsteps _ hp
  rw [List.flatten_append, List.flatten_append, flatten_protocolSegments, upgradeText_eq]
  simp only [List.flatten_cons, List.flatten_nil, List.append_nil, List.append_assoc]

theorem requestHeadersLength_eq {headers : List (Bytes × Bytes)}
    (h : (getRequestHeaders headers).length < sizeMax) :
    requestHeadersLength headers = (getRequestHeaders headers).length := by
  have hfold : ∀ (headers : List (Bytes × Bytes)) (length : Nat),
      length + (getRequestHeaders headers).length < sizeMax →
        headers.foldl (fun length header =>
          addSizeT length (addSizeT (addSizeT header.1.length header.2.length) 4)) length =
            length + (getRequestHeaders headers).length := by
    intro headers
    induction headers with
    | nil => exact fun _ _ => rfl
    | cons header headers ih =>
      intro length hfit
      have hcons : (getRequestHeaders (header :: headers)).length =
          header.1.length + header.2.length + 4 + (getRequestHeaders headers).length := by
        rw [getRequestHeaders, List.map_cons, List.flatten_cons, getRequestHeaders]
        simp only [List.length_append]
        have hseparator : (ascii ": ").length = 2 := by decide
        have hend : (ascii "\r\n").length = 2 := by decide
        omega
      rw [hcons] at hfit ⊢
      have hpair : addSizeT header.1.length header.2.length = header.1.length + header.2.length :=
        addSizeT_eq (show _ < sizeMax by omega) (Nat.le_refl _)
      have hline : addSizeT (header.1.length + header.2.length) 4 =
          header.1.length + header.2.length + 4 :=
        addSizeT_eq (show _ < sizeMax by omega) (Nat.le_refl _)
      have hnext : addSizeT length (header.1.length + header.2.length + 4) =
          length + (header.1.length + header.2.length + 4) :=
        addSizeT_eq (show _ < sizeMax by omega) (Nat.le_refl _)
      rw [List.foldl_cons, hpair, hline, hnext, ih _ (by omega)]
      omega
  rw [requestHeadersLength, hfold headers 0 (by omega), Nat.zero_add]

theorem writeRequestHeaders_meets {headers : List (Bytes × Bytes)}
    (hfit : (getRequestHeaders headers).length < sizeMax)
    (hp : h.cell p = some (unwritten ((getRequestHeaders headers).length + 1))) :
    Meets (writeRequestHeaders p headers) h
      fun next h' => next = some (getRequestHeaders headers).length ∧
        Filled h' p (getRequestHeaders headers ++ [0]) 0 ∧ Replaces h h' p p :=
  meets_written (forall₂_memcpyStep hfit _) (flatten_headerSegments headers) hp

end

/-! ## The request that is sent -/

/-- The lengths are those of the texts, and the copies fill the blocks that have these lengths and a place for
a zero. -/
structure UpgradeIsExact (c : UwsClientInstance) (base64Nonce : Bytes) : Prop where
  headersLength : requestHeadersLength c.requestHeaders = (getRequestHeaders c.requestHeaders).length
  headersWritten : ∀ (h : Heap (Region UInt8)) (p : Ptr),
    h.cell p = some (unwritten (requestHeadersLength c.requestHeaders + 1)) →
      Meets (writeRequestHeaders p c.requestHeaders) h fun next h' =>
        next = some (getRequestHeaders c.requestHeaders).length ∧
          Filled h' p (getRequestHeaders c.requestHeaders ++ [0]) 0 ∧ Replaces h h' p p
  length : upgradeRequestLength c base64Nonce (getRequestHeaders c.requestHeaders) =
    (upgradeText c base64Nonce).length
  written : ∀ (h : Heap (Region UInt8)) (p : Ptr),
    h.cell p = some (unwritten (safeAddSizeT
      (upgradeRequestLength c base64Nonce (getRequestHeaders c.requestHeaders)) 1)) →
      Meets (writeUpgradeRequest p c base64Nonce (getRequestHeaders c.requestHeaders)) h fun next h' =>
        next = some (upgradeText c base64Nonce).length ∧
          Filled h' p (upgradeText c base64Nonce ++ [0]) 0 ∧ Replaces h h' p p

theorem upgradeIsExact {c : UwsClientInstance} {base64Nonce : Bytes}
    (hfit : (upgradeText c base64Nonce).length < sizeMax) : UpgradeIsExact c base64Nonce := by
  have hheaders : (getRequestHeaders c.requestHeaders).length < sizeMax := by
    rw [upgradeText_eq] at hfit
    simp only [List.length_append] at hfit
    omega
  refine ⟨requestHeadersLength_eq hheaders, ?_, upgradeRequestLength_eq hfit, ?_⟩
  · intro h p hp
    rw [requestHeadersLength_eq hheaders] at hp
    exact writeRequestHeaders_meets hheaders hp
  · intro h p hp
    rw [upgradeRequestLength_eq hfit, safeAddSizeT_one hfit] at hp
    exact writeUpgradeRequest_meets hfit hp

theorem upgradeText_sent {s : Uws} {answers : (call : UwsClient.Call) → UwsClient.Ans call} (code : Int)
    (hstate : s.client.uwsState = .uwsStateOpeningUnderlyingIo) (hmalloc : answers .malloc = true)
    (hfit : (upgradeText s.client (base64EncodeInternal (List.ofFn (answers .nonce)))).length + 1 < sizeMax) :
    UwsClient.Call.xioSend .upgradeRequest
        (upgradeText s.client (base64EncodeInternal (List.ofFn (answers .nonce)))) ∈
      @Prog.calls _ uwsSignature answers _ (UwsClient.onUnderlyingIoOpenComplete .ioOpenOk code s) := by
  have hrequest := @upgradeRequest_eq s.client _ (Nat.lt_of_succ_lt hfit)
  have hlength := @upgradeRequestLength_eq s.client _ (Nat.lt_of_succ_lt hfit)
  have hsize : ¬ safeAddSizeT (upgradeRequestLength s.client
      (base64EncodeInternal (List.ofFn (answers .nonce))) (getRequestHeaders s.client.requestHeaders)) 1 =
        sizeMax := by
    rw [hlength, safeAddSizeT_eq_max]
    omega
  have hopened : UwsClient.onUnderlyingIoOpenComplete .ioOpenOk code s = sendUpgradeRequest s := by
    simp only [UwsClient.onUnderlyingIoOpenComplete, UwsClient.getClient, Comp.bind_apply, Comp.get,
      Comp.pure_apply, Prog.bind, hstate]
  rw [hopened, sendUpgradeRequest]
  -- a random text, three allocations, and the request
  simp only [UwsClient.getClient, nonceBytes, UwsClient.malloc, UwsClient.ask, UwsClient.xioSend,
    UwsClient.callOut, Comp.bind_apply, Comp.get, Comp.call, Comp.modify, Comp.pure_apply, Prog.bind, Prog.calls,
    hmalloc, Bool.true_eq_false, if_false, hsize, hrequest]
  exact .tail _ (.tail _ (.tail _ (.tail _ (.head _))))

end SharedUtility.RequestText
