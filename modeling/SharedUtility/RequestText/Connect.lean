import SharedUtility.Base64.Code
import SharedUtility.RequestText.Upgrade

/-!
# Connect — the CONNECT request in its block, and the request texts

`on_underlying_io_open_complete` of `http_proxy_io.c` checks the room for each part before it copies it.  The
credentials are put together in a block of their own, whose length is computed as an `int`.

* `connectSteps`, `writeConnectRequest` — the copies at `connect_request_offset`,
* `connectIsExact`: the block is filled with the request, whatever the credentials are,
* `requestTexts_iff`: for which user names and passwords the request is sent.
-/

namespace SharedUtility.RequestText

open Memory Reentrant HttpProxyIo

/-! ## The code -/

/-- `append_connect_request_segment`. -/
def appendConnectRequestSegmentAt (connectRequest : Ptr) (connectRequestSize : Nat) (segment : Bytes) :
    Step UInt8 := fun offset =>
  if connectRequestSize ≤ offset then pure none
  else if connectRequestSize - offset ≤ segment.length then pure none
  else do
    copyIn connectRequest offset segment segment.length
    storeAt connectRequest (addSizeT offset segment.length) 0
    pure (some (addSizeT offset segment.length))

/-- `append_formatted_host_for_authority`. -/
def appendFormattedHostForAuthorityAt (connectRequest : Ptr) (connectRequestSize : Nat) (host : Bytes)
    (formattedHostLength : Nat) : Step UInt8 := fun offset =>
  if connectRequestSize ≤ offset ∨ connectRequestSize - offset ≤ formattedHostLength then pure none
  else do
    let r ← formatHostForAuthorityAt connectRequest offset host (connectRequestSize - offset)
    if r ≠ 0 then pure none
    else if safeAddSizeT offset formattedHostLength = sizeMax then pure none
    else pure (some (safeAddSizeT offset formattedHostLength))

/-- All copies but the last one. -/
def connectSteps (connectRequest : Ptr) (connectRequestSize : Nat) (config : HttpProxyIoConfig)
    (authStringPayload : Bytes) : List (Step UInt8) :=
  let segment := appendConnectRequestSegmentAt connectRequest connectRequestSize
  let host := appendFormattedHostForAuthorityAt connectRequest connectRequestSize config.hostname
    (authorityHostLength config.hostname)
  let portString := UwsClient.formattedPort config.port
  [segment (ascii "CONNECT "), host, segment (ascii ":"), segment portString,
    segment (ascii " HTTP/1.1\r\nHost:"), host, segment (ascii ":"), segment portString] ++
  (if config.username.isSome then
    [segment (ascii "\r\nProxy-authorization: Basic "), segment authStringPayload]
    else [])

/-- What is written into the block for the request; `none` for a failure. -/
def writeConnectRequest (connectRequest : Ptr) (config : HttpProxyIoConfig) (authStringPayload : Bytes) :
    HeapM (Region UInt8) (Option Nat) := do
  let connectRequestLength := connectRequestLength config authStringPayload
  let connectRequestSize := safeAddSizeT connectRequestLength 1
  let next ← inOrder (connectSteps connectRequest connectRequestSize config authStringPayload ++
    [appendConnectRequestSegmentAt connectRequest connectRequestSize (ascii "\r\n\r\n")]) 0
  match next with
  | none => pure none
  | some offset => if offset ≠ connectRequestLength then pure none else pure (some offset)

/-- What `sprintf` writes into the block for the credentials. -/
def writePlainAuthString (plainAuthStringBytes : Ptr) (username : Bytes) (password : Option Bytes) :
    HeapM (Region UInt8) Unit :=
  storeEach plainAuthStringBytes 0 (plainAuthString username password ++ [0])

/-! ## The steps -/

section

variable {h : Heap (Region UInt8)} {p : Ptr} {size : Nat}

theorem finishes_segment (hsize : size ≤ sizeMax) (segment : Bytes) :
    Finishes p size (appendConnectRequestSegmentAt p size segment) segment 0 := by
  intro h xs hp hroom
  rw [appendConnectRequestSegmentAt, if_neg (by omega), if_neg (by omega), addSizeT_eq hroom hsize]
  apply Meets.bind
  apply hp.meets_copyIn (Nat.le_of_lt hroom)
  intro h₁ hh₁ hp₁
  rw [← List.length_append]
  apply Meets.bind
  apply hp₁.meets_storeAt (by rwa [List.length_append])
  intro h₂ hh₂ hp₂
  exact meets_pure ⟨rfl, hp₂, hh₁.trans hh₂⟩

theorem appends_host (hsize : size ≤ sizeMax) {host : Bytes} (hfit : (authorityOf host).length < sizeMax) :
    Appends p size (appendFormattedHostForAuthorityAt p size host (authorityHostLength host))
      (authorityOf host) := by
  intro h xs hp hroom
  rw [appendFormattedHostForAuthorityAt, authorityHostLength_eq hfit, if_neg (by omega)]
  apply Meets.bind
  apply meets_formatHostForAuthorityAt hp hsize hroom (by omega)
  intro h' hh hp'
  have hsum : safeAddSizeT xs.length (authorityOf host).length = xs.length + (authorityOf host).length :=
    safeAddSizeT_of_lt (by omega)
  rw [if_neg (by decide), hsum, if_neg (by omega)]
  exact meets_pure ⟨rfl, hp', hh⟩

end

/-! ## The request -/

section

variable {config : HttpProxyIoConfig} {credentials : Bytes} {h : Heap (Region UInt8)} {p : Ptr}

theorem authority_le (config : HttpProxyIoConfig) (credentials : Bytes) :
    (authorityOf config.hostname).length < (connectText config credentials).length := by
  rw [connectText_eq]
  simp only [List.length_append]
  have hprefix : (ascii "CONNECT ").length = 8 := by decide
  omega

theorem connectRequestLength_eq (h : (connectText config credentials).length < sizeMax) :
    connectRequestLength config credentials = (connectText config credentials).length := by
  have hauthority := authorityHostLength_eq (Nat.lt_trans (authority_le config credentials) h)
  have hsum : (connectRequestSummands config credentials).sum = (connectText config credentials).length := by
    rw [connectText_eq, connectRequestSummands, hauthority]
    cases config.username.isSome with
    | true =>
      simp only [if_true, List.sum_append, List.sum_cons, List.sum_nil, List.length_append]
      omega
    | false =>
      simp only [Bool.false_eq_true, if_false, List.sum_append, List.sum_cons, List.sum_nil,
        List.length_append, List.length_nil]
      omega
  rw [← hsum] at h ⊢
  rw [connectRequestLength, foldl_safeAddSizeT (by omega), Nat.zero_add]

/-- The texts that are copied. -/
def connectSegments (config : HttpProxyIoConfig) (credentials : Bytes) : List Bytes :=
  [ascii "CONNECT ", authorityOf config.hostname, ascii ":", UwsClient.formattedPort config.port,
    ascii " HTTP/1.1\r\nHost:", authorityOf config.hostname, ascii ":", UwsClient.formattedPort config.port] ++
  (if config.username.isSome then [ascii "\r\nProxy-authorization: Basic ", credentials] else [])

theorem flatten_connectSegments :
    (connectSegments config credentials).flatten ++ ascii "\r\n\r\n" = connectText config credentials := by
  rw [connectSegments, connectText_eq]
  cases config.username.isSome with
  | true =>
    simp only [if_true, List.flatten_append, List.flatten_cons, List.flatten_nil, List.append_assoc,
      List.append_nil]
  | false =>
    simp only [Bool.false_eq_true, if_false, List.flatten_cons, List.flatten_nil, List.append_assoc,
      List.append_nil]

theorem writeConnectRequest_meets (hfit : (connectText config credentials).length < sizeMax)
    (hp : h.cell p = some (unwritten ((connectText config credentials).length + 1))) :
    Meets (writeConnectRequest p config credentials) h fun next h' =>
      next = some (connectText config credentials).length ∧
        Filled h' p (connectText config credentials ++ [0]) 0 ∧ Replaces h h' p p := by
  have hsize := safeAddSizeT_one hfit
  have hhost := @appends_host p _ hfit config.hostname
    (Nat.lt_trans (authority_le config credentials) hfit)
  have hsegment := fun segment => (@finishes_segment p _ hfit segment).appends
  have hsteps : List.Forall₂ (Appends p ((connectText config credentials).length + 1))
      (connectSteps p ((connectText config credentials).length + 1) config credentials)
      (connectSegments config credentials) := by
    refine List.rel_append ?_ ?_
    · refine .cons (hsegment _) (.cons hhost (.cons (hsegment _) (.cons (hsegment _) ?_)))
      exact .cons (hsegment _) (.cons hhost (.cons (hsegment _) (.cons (hsegment _) .nil)))
    · cases config.username.isSome with
      | true => exact .cons (hsegment _) (.cons (hsegment _) .nil)
      | false => exact .nil
  have hall := finishes_inOrder hsteps (finishes_segment hfit (ascii "\r\n\r\n"))
  rw [flatten_connectSegments] at hall
  rw [writeConnectRequest, connectRequestLength_eq hfit, hsize]
  apply Meets.bind
  apply (hall h [] (starts_unwritten hp) (by rw [List.length_nil]; omega)).mono
  rintro next h' ⟨rfl, hp', hh⟩
  rw [List.length_nil, Nat.zero_add]
  dsimp only
  rw [if_neg (not_not.2 rfl)]
  refine meets_pure ⟨rfl, hp'.filled ?_, hh⟩
  rw [List.nil_append, List.length_append, List.length_singleton]

theorem appendConnectRequestSegment_eq {size : Nat} {front segment : Bytes}
    (hroom : front.length + segment.length < size) :
    appendConnectRequestSegment size front segment = some (front ++ segment) := by
  rw [appendConnectRequestSegment, if_neg (by omega), if_neg (by omega)]

theorem appendFormattedHostForAuthority_eq {size : Nat} {front host : Bytes}
    (hroom : front.length + (authorityOf host).length < size) (hsize : size ≤ sizeMax) :
    appendFormattedHostForAuthority size front host = some (front ++ authorityOf host) := by
  have hfit : (authorityOf host).length < sizeMax := by omega
  rw [appendFormattedHostForAuthority, authorityHostLength_eq hfit, if_neg (by omega), if_neg (by omega),
    formatHostForAuthority_eq hfit (by omega), Option.bind_some, safeAddSizeT_of_lt (by omega),
    if_neg (by omega)]

theorem connectRequest_eq (hfit : (connectText config credentials).length < sizeMax) :
    connectRequest config credentials = some (connectText config credentials) := by
  have hsize := safeAddSizeT_one hfit
  have hlength := congrArg List.length (@connectText_eq config credentials)
  simp only [List.length_append] at hlength
  have htext := @connectText_eq config credentials
  -- one part after the other, and what follows
  have hsegment : ∀ {front segment : Bytes} {k : Bytes → Option Bytes},
      front.length + segment.length ≤ (connectText config credentials).length →
        (appendConnectRequestSegment ((connectText config credentials).length + 1) front segment >>= k) =
          k (front ++ segment) := by
    intro front segment k hroom
    rw [appendConnectRequestSegment_eq (Nat.lt_succ_of_le hroom)]
    rfl
  have hhost : ∀ {front : Bytes} {k : Bytes → Option Bytes},
      front.length + (authorityOf config.hostname).length ≤ (connectText config credentials).length →
        (appendFormattedHostForAuthority ((connectText config credentials).length + 1) front
          config.hostname >>= k) = k (front ++ authorityOf config.hostname) := by
    intro front k hroom
    rw [appendFormattedHostForAuthority_eq (Nat.lt_succ_of_le hroom) hfit]
    rfl
  have hnone : ∀ {front : Bytes} {k : Bytes → Option Bytes}, ((some front : Option Bytes) >>= k) = k front :=
    rfl
  rw [connectRequest, connectRequestLength_eq hfit, hsize]
  dsimp only
  cases huser : config.username.isSome with
  | true =>
    rw [huser, if_pos rfl, List.length_append] at hlength
    rw [huser, if_pos rfl] at htext
    rw [hsegment, hhost, hsegment, hsegment, hsegment, hhost, hsegment, hsegment, if_pos rfl, hsegment,
      hsegment, hsegment]
    · simp only [List.nil_append, List.append_assoc] at htext ⊢
      rw [← htext, if_neg (not_not.2 rfl)]
    all_goals
      simp only [List.length_append, List.length_nil]
      omega
  | false =>
    rw [huser, if_neg Bool.false_ne_true, List.length_nil] at hlength
    rw [huser, if_neg Bool.false_ne_true] at htext
    rw [hsegment, hhost, hsegment, hsegment, hsegment, hhost, hsegment, hsegment,
      if_neg Bool.false_ne_true, hnone, hsegment]
    · simp only [List.nil_append, List.append_assoc] at htext ⊢
      rw [← htext, if_neg (not_not.2 rfl)]
    all_goals
      simp only [List.length_append, List.length_nil]
      omega

end

/-- The length that is computed is that of the text, and the copies fill the block that has this length and a
place for a zero. -/
structure ConnectIsExact (config : HttpProxyIoConfig) (credentials : Bytes) : Prop where
  length : connectRequestLength config credentials = (connectText config credentials).length
  written : ∀ (h : Heap (Region UInt8)) (p : Ptr),
    h.cell p = some (unwritten (safeAddSizeT (connectRequestLength config credentials) 1)) →
      Meets (writeConnectRequest p config credentials) h fun next h' =>
        next = some (connectText config credentials).length ∧
          Filled h' p (connectText config credentials ++ [0]) 0 ∧ Replaces h h' p p

theorem connectIsExact {config : HttpProxyIoConfig} {credentials : Bytes}
    (hfit : (connectText config credentials).length < sizeMax) : ConnectIsExact config credentials := by
  refine ⟨connectRequestLength_eq hfit, ?_⟩
  intro h p hp
  rw [connectRequestLength_eq hfit, safeAddSizeT_one hfit] at hp
  exact writeConnectRequest_meets hfit hp

/-! ## The credentials -/

/-- User name and password in base 64. -/
def credentialsOf (config : HttpProxyIoConfig) : Bytes :=
  match config.username with
  | none => []
  | some username => base64EncodeInternal (plainAuthString username config.password)

/-- An `int` holds the size of the block for user name and password. -/
def CredentialsFit (config : HttpProxyIoConfig) : Prop :=
  ∀ username, config.username = some username →
    (plainAuthString username config.password).length + 1 ≤ 2 ^ 31 - 1

section

variable {config : HttpProxyIoConfig} {username credentials request : Bytes} {password : Option Bytes}
  {answers : (call : HttpProxyIo.Call) → HttpProxyIo.Ans call} {s : ProxyIo}

/-- The length wraps as an `int` does. -/
theorem plainAuthStringLength_eq (username : Bytes) (password : Option Bytes) :
    plainAuthStringLength username password =
      ((plainAuthString username password).length : Int).bmod (2 ^ 32) := by
  have hlength : (plainAuthString username password).length =
      username.length + 1 + (password.getD []).length := by
    rw [plainAuthString, List.length_append, List.length_append]
    rfl
  have hint : ∀ n : Nat, intOfSizeT n = (n : Int).bmod (2 ^ 32) := fun n => BitVec.toInt_ofNat' n
  rw [hlength]
  cases password with
  | none => exact hint _
  | some password =>
    change (BitVec.ofInt 32 (intOfSizeT (username.length + 1) + intOfSizeT password.length)).toInt = _
    rw [hint, hint, BitVec.toInt_ofInt, Int.bmod_add_bmod, Int.add_bmod_bmod]
    rfl

/-- It is not negative, and the length itself, when an `int` holds it; else it is far from it, or negative. -/
theorem plainAuthStringLength_cases (username : Bytes) (password : Option Bytes) :
    ((plainAuthString username password).length ≤ 2 ^ 31 - 1 ∧
      plainAuthStringLength username password = (plainAuthString username password).length) ∨
    (2 ^ 31 - 1 < (plainAuthString username password).length ∧
      (plainAuthStringLength username password < 0 ∨
        (plainAuthStringLength username password).toNat + 3 ≤ (plainAuthString username password).length)) := by
  rw [plainAuthStringLength_eq, Int.bmod_def]
  split_ifs
  · omega
  · omega

theorem plainAuthStringLength_le (username : Bytes) (password : Option Bytes) :
    plainAuthStringLength username password ≤ 2 ^ 31 - 1 := by
  rw [plainAuthStringLength_eq]
  exact Int.le_of_lt_add_one (Int.bmod_lt (by decide))

/-- One byte more for the terminating zero: `INT_MAX` is the only length with which the size is negative. -/
theorem plainAuthStringSize_cases (username : Bytes) (password : Option Bytes)
    (hlength : 0 ≤ plainAuthStringLength username password) :
    (plainAuthStringLength username password = 2 ^ 31 - 1 ∧ plainAuthStringSize username password < 0) ∨
    (plainAuthStringLength username password < 2 ^ 31 - 1 ∧
      plainAuthStringSize username password = plainAuthStringLength username password + 1) := by
  have hle := plainAuthStringLength_le username password
  rw [plainAuthStringSize, BitVec.toInt_ofInt, Int.bmod_def]
  split_ifs
  · omega
  · omega

theorem not_sent_of_failure (code : Int) :
    HttpProxyIo.Call.xioSend .connectRequest request ∉
      @Prog.calls _ httpProxyIoSignature answers _
        (((do
          indicateOpenCompleteErrorAndClose code
          pure none : HttpProxyIoComp (Option Bytes)) s).bind fun authString s' =>
            (authString.elim (pure ()) (sendConnectRequestFor config) : HttpProxyIoComp Unit) s') := by
  simp [indicateOpenCompleteErrorAndClose, setHttpProxyIoState, HttpProxyIo.xioClose,
    HttpProxyIo.onIoOpenComplete, HttpProxyIo.callOut, HttpProxyIo.ask, HttpProxyIo.getInst,
    Comp.bind_apply, Comp.get, Comp.call, Comp.modify, Comp.pure_apply, Prog.bind, Prog.calls]

theorem sent_for_iff (hmalloc : answers .malloc = true)
    (hfit : (connectText config credentials).length + 1 < sizeMax) :
    HttpProxyIo.Call.xioSend .connectRequest request ∈
        @Prog.calls _ httpProxyIoSignature answers _ (sendConnectRequestFor config credentials s) ↔
      request = connectText config credentials := by
  have hlength := connectRequestLength_eq (Nat.lt_of_succ_lt hfit)
  have hrequest := connectRequest_eq (Nat.lt_of_succ_lt hfit)
  have hsize : ¬ ((connectText config credentials).length = sizeMax ∨
      safeAddSizeT (connectText config credentials).length 1 = sizeMax) := by
    rw [safeAddSizeT_eq_max]
    omega
  rw [sendConnectRequestFor]
  dsimp only
  rw [hlength, if_neg hsize]
  simp only [HttpProxyIo.malloc, HttpProxyIo.ask, HttpProxyIo.xioSend, HttpProxyIo.callOut, Comp.bind_apply,
    Comp.call, Comp.modify, Prog.bind, Prog.calls, hmalloc, Bool.true_eq_false, if_false, hrequest]
  by_cases hfailed : answers (.xioSend .connectRequest (connectText config credentials)) = (0 : Int)
  case pos =>
    simp [hfailed, Comp.pure_apply, Prog.calls]
  case neg =>
    simp [hfailed, indicateOpenCompleteErrorAndClose, setHttpProxyIoState, HttpProxyIo.xioClose,
      HttpProxyIo.onIoOpenComplete, HttpProxyIo.callOut, HttpProxyIo.ask, HttpProxyIo.getInst,
      Comp.bind_apply, Comp.get, Comp.call, Comp.modify, Comp.pure_apply, Prog.bind, Prog.calls]

theorem connectText_length_lt {credentials' : Bytes} (huser : config.username.isSome = true)
    (h : credentials'.length < credentials.length) :
    (connectText config credentials').length < (connectText config credentials).length := by
  rw [connectText_eq, connectText_eq, huser, if_pos rfl, if_pos rfl]
  simp only [List.length_append]
  omega

/-- The request is sent exactly when an `int` holds the size of the block for the credentials. -/
theorem connectText_sent_iff (code : Int)
    (hstate : s.inst.httpProxyIoState = .httpProxyIoStateOpeningUnderlyingIo)
    (hmalloc : answers .malloc = true)
    (hfit : (connectText config (credentialsOf config)).length + 1 < sizeMax) :
    HttpProxyIo.Call.xioSend .connectRequest (connectText config (credentialsOf config)) ∈
        @Prog.calls _ httpProxyIoSignature answers _
          (HttpProxyIo.onUnderlyingIoOpenComplete config { result := .ioOpenOk, code := code } s) ↔
      CredentialsFit config := by
  have hopened : ∃ s', HttpProxyIo.onUnderlyingIoOpenComplete config { result := .ioOpenOk, code := code } s =
      (encodedAuthString config s').bind fun authString s'' =>
        (authString.elim (pure ()) (sendConnectRequestFor config) : HttpProxyIoComp Unit) s'' := by
    simp only [HttpProxyIo.onUnderlyingIoOpenComplete, sendConnectRequest, setHttpProxyIoState,
      HttpProxyIo.getInst, Comp.bind_apply, Comp.modify, Comp.get, Comp.pure_apply, Prog.bind,
      ProxyIo.hear_inst, hstate]
    refine ⟨_, congrArg _ ?_⟩
    funext authString s''
    cases authString <;> rfl
  rcases hopened with ⟨s', hopened⟩
  rw [hopened]
  cases huser : config.username with
  | none =>
    have hcredentials : credentialsOf config = [] := by rw [credentialsOf, huser]
    rw [hcredentials] at hfit ⊢
    rw [encodedAuthString, huser]
    exact iff_of_true ((sent_for_iff hmalloc hfit).2 rfl) fun username h => by
      cases huser.symm.trans h
  | some username =>
    have hcredentials : credentialsOf config =
        base64EncodeInternal (plainAuthString username config.password) := by rw [credentialsOf, huser]
    have hfits : CredentialsFit config ↔
        (plainAuthString username config.password).length + 1 ≤ 2 ^ 31 - 1 := by
      refine ⟨fun h => h username huser, fun h username' h' => ?_⟩
      rw [huser] at h'
      cases h'
      exact h
    rw [hcredentials] at hfit ⊢
    rw [hfits, encodedAuthString, huser]
    dsimp only
    by_cases hnegative : plainAuthStringLength username config.password < 0
    case pos =>
      rw [if_pos hnegative]
      refine iff_of_false (not_sent_of_failure failure) ?_
      rcases plainAuthStringLength_cases username config.password with ⟨_, heq⟩ | ⟨hlong, _⟩
      · omega
      · omega
    case neg =>
      rw [if_neg hnegative, mallocInt]
      rcases plainAuthStringSize_cases username config.password (Int.not_lt.1 hnegative) with
        ⟨hmax, hsize⟩ | ⟨hless, hsize⟩
      case inl =>
        -- `INT_MAX + 1` is negative: no block of this size
        rw [if_pos hsize]
        refine iff_of_false (not_sent_of_failure failure) ?_
        rcases plainAuthStringLength_cases username config.password with ⟨_, heq⟩ | ⟨hlong, _⟩
        · omega
        · omega
      case inr =>
        rw [if_neg (by omega)]
        simp only [HttpProxyIo.malloc, HttpProxyIo.ask, Comp.bind_apply, Comp.call, Comp.pure_apply,
          Prog.bind, Prog.calls, hmalloc, Bool.true_eq_false, if_false]
        rw [List.mem_cons, or_iff_right (by rintro ⟨⟩), List.mem_cons, or_iff_right (by rintro ⟨⟩)]
        rcases plainAuthStringLength_cases username config.password with ⟨hshort, heq⟩ | ⟨hlong, hwrapped⟩
        · rw [heq, Int.toNat_natCast, List.take_length]
          exact iff_of_true ((sent_for_iff hmalloc hfit).2 rfl) (by omega)
        · -- the request with the truncated credentials is shorter
          have hsome : config.username.isSome = true := by rw [huser]; rfl
          have hcut := hwrapped.resolve_left hnegative
          have hlength : (connectText config (base64EncodeInternal ((plainAuthString username
              config.password).take (plainAuthStringLength username config.password).toNat))).length <
              (connectText config (base64EncodeInternal (plainAuthString username config.password))).length := by
            apply connectText_length_lt hsome
            rw [Base64.length_encode, Base64.length_encode, List.length_take]
            omega
          rw [Option.elim_some, sent_for_iff hmalloc (by omega)]
          refine iff_of_false (fun heq => ?_) (by omega)
          rw [← heq] at hlength
          exact Nat.lt_irrefl _ hlength

end

/-! ## Both requests -/

theorem writePlainAuthString_meets {username : Bytes} {password : Option Bytes} {h : Heap (Region UInt8)}
    {p : Ptr} (hfit : (plainAuthString username password).length + 1 ≤ 2 ^ 31 - 1)
    (hp : h.cell p = some (unwritten (plainAuthStringSize username password).toNat)) :
    Meets (writePlainAuthString p username password) h fun _ h' =>
      Filled h' p (plainAuthString username password ++ [0]) 0 ∧ Replaces h h' p p := by
  rcases plainAuthStringLength_cases username password with ⟨_, hlength⟩ | ⟨hlong, _⟩
  case inr => exact absurd hfit (by omega)
  case inl =>
    have hsize : plainAuthStringSize username password = plainAuthStringLength username password + 1 := by
      rcases plainAuthStringSize_cases username password (by omega) with ⟨hmax, _⟩ | ⟨_, hsize⟩
      · omega
      · exact hsize
    rw [hsize, hlength] at hp
    apply @meets_storeEach _ h p [] _ 0 0 (filled_nil.2 _) rfl
    · intro h' hh hp'
      exact ⟨hp', hh⟩
    · rw [hp, List.length_append, List.length_singleton]
      rfl

/-- With memory for it, the request is sent when the underlying io has been opened, and the credentials have
been put together in a block that they fill. -/
def SendsConnectText (config : HttpProxyIoConfig) (answers : (call : HttpProxyIo.Call) → HttpProxyIo.Ans call)
    (code : Int) (s : ProxyIo) : Prop :=
  (∀ username, config.username = some username → ∀ (h : Heap (Region UInt8)) (p : Ptr),
    h.cell p = some (unwritten (plainAuthStringSize username config.password).toNat) →
      Meets (writePlainAuthString p username config.password) h fun _ h' =>
        Filled h' p (plainAuthString username config.password ++ [0]) 0 ∧ Replaces h h' p p) ∧
  HttpProxyIo.Call.xioSend .connectRequest (connectText config (credentialsOf config)) ∈
    @Prog.calls _ httpProxyIoSignature answers _
      (HttpProxyIo.onUnderlyingIoOpenComplete config { result := .ioOpenOk, code := code } s)

/-- Hosts are written as they should be; the lengths of the requests are those of their texts, which are written
into blocks of these lengths with nothing outside; and the requests are sent, that to a proxy exactly when an
`int` holds the size of the block for the credentials. -/
theorem requestTexts_iff (host : Host) (c : UwsClient.UwsClientInstance) (base64Nonce : Bytes)
    (s : UwsClient.Uws) (answers : (call : UwsClient.Call) → UwsClient.Ans call)
    (config : HttpProxyIoConfig) (credentials : Bytes) (s' : ProxyIo)
    (answers' : (call : HttpProxyIo.Call) → HttpProxyIo.Ans call) (code : Int) :
    (authorityOf host.text = host.authority ∧
      host.authority.count 0x5B = (if host.isIpv6 then 1 else 0) ∧
      host.authority.count 0x5D = (if host.isIpv6 then 1 else 0)) ∧
    ((upgradeText c base64Nonce).length < sizeMax → UpgradeIsExact c base64Nonce) ∧
    (s.client.uwsState = .uwsStateOpeningUnderlyingIo → answers .malloc = true →
      (upgradeText s.client (base64EncodeInternal (List.ofFn (answers .nonce)))).length + 1 < sizeMax →
      UwsClient.Call.xioSend .upgradeRequest
          (upgradeText s.client (base64EncodeInternal (List.ofFn (answers .nonce)))) ∈
        @Prog.calls _ UwsClient.uwsSignature answers _
          (UwsClient.onUnderlyingIoOpenComplete .ioOpenOk code s)) ∧
    ((connectText config credentials).length < sizeMax → ConnectIsExact config credentials) ∧
    (s'.inst.httpProxyIoState = .httpProxyIoStateOpeningUnderlyingIo → answers' .malloc = true →
      (connectText config (credentialsOf config)).length + 1 < sizeMax →
      (SendsConnectText config answers' code s' ↔ CredentialsFit config)) := by
  refine ⟨?host, ?upgrade, ?upgradeSent, ?connect, ?connectSent⟩
  case host => exact ⟨authorityOf_text host, host.count_brackets⟩
  case upgrade => exact fun hfit => upgradeIsExact hfit
  case upgradeSent => exact fun hstate hmalloc hfit => upgradeText_sent code hstate hmalloc hfit
  case connect => exact fun hfit => connectIsExact hfit
  case connectSent =>
    intro hstate hmalloc hfit
    rw [SendsConnectText, connectText_sent_iff code hstate hmalloc hfit]
    refine ⟨fun h => h.2, fun h => ⟨fun username huser heap p hp => ?_, h⟩⟩
    exact writePlainAuthString_meets (h username huser) hp

/-- An instance that opens its underlying io. -/
def opening : ProxyIo :=
  { inst := { httpProxyIoState := .httpProxyIoStateOpeningUnderlyingIo } }

/-- A host in brackets with a zone id, and credentials. -/
def bracketedConfig : HttpProxyIoConfig :=
  { hostname := ascii "[fe80::1%eth0]", port := 443, username := some (ascii "u"), password := some (ascii "p") }

theorem requestTexts_bracketed :
    connectText bracketedConfig (credentialsOf bracketedConfig) =
        ascii "CONNECT [fe80::1]:443 HTTP/1.1\r\nHost:[fe80::1]:443\r\n" ++
          ascii "Proxy-authorization: Basic dTpw\r\n\r\n" ∧
      SendsConnectText bracketedConfig succeeds 0 opening := by
  have htext : connectText bracketedConfig (credentialsOf bracketedConfig) =
      ascii "CONNECT [fe80::1]:443 HTTP/1.1\r\nHost:[fe80::1]:443\r\n" ++
        ascii "Proxy-authorization: Basic dTpw\r\n\r\n" := by
    decide
  have hall := requestTexts_iff (.name [] nofun)
    { hostname := [], resourceName := [], protocols := [], port := 0, requestHeaders := [] } []
    { client := { hostname := [], resourceName := [], protocols := [], port := 0, requestHeaders := [] } }
    UwsClient.succeeds bracketedConfig [] opening succeeds 0
  refine ⟨htext, (hall.2.2.2.2 rfl rfl ?_).2 ?_⟩
  · rw [htext]
    decide
  · intro username huser
    cases huser
    decide

/-- A user name of `INT_MAX - 1` bytes and an empty password. -/
def longConfig : HttpProxyIoConfig :=
  { hostname := ascii "host"
    port := 443
    username := some (List.replicate (2 ^ 31 - 2) 0x75)
    password := some [] }

/-- With it the request is not sent. -/
theorem long_username_not_sent : ¬ SendsConnectText longConfig succeeds 0 opening := by
  have hlength : (plainAuthString (List.replicate (2 ^ 31 - 2) 0x75) (some [])).length = 2 ^ 31 - 1 := by
    rw [plainAuthString, List.length_append, List.length_append, List.length_replicate]
    rfl
  have hcredentials : credentialsOf longConfig =
      base64EncodeInternal (plainAuthString (List.replicate (2 ^ 31 - 2) 0x75) (some [])) := rfl
  have hfit : (connectText longConfig (credentialsOf longConfig)).length + 1 < sizeMax := by
    rw [connectText_eq, hcredentials, show longConfig.username.isSome = true from rfl, if_pos rfl]
    simp only [List.length_append, Base64.length_encode, hlength]
    have hhost : (authorityOf longConfig.hostname).length = 4 := by decide
    have hport : (UwsClient.formattedPort longConfig.port).length = 3 := by decide
    rw [hhost, hport]
    decide
  rintro ⟨-, hsent⟩
  have hfits : (plainAuthString (List.replicate (2 ^ 31 - 2) 0x75) (some [])).length + 1 ≤ 2 ^ 31 - 1 :=
    (connectText_sent_iff 0 rfl rfl hfit).1 hsent _ rfl
  rw [hlength] at hfits
  exact absurd hfits (by decide)

end SharedUtility.RequestText
