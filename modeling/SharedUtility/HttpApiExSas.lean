import SharedUtility.HttpApiEx.Code
import SharedUtility.SasToken.SelfConsistency
import SharedUtility.Sha.HmacSha256

/-!
# HttpApiExSas — `httpapiexsas.c`

A request that has an `Authorization` header gets a token that is valid for an hour in its place, and goes to
`HTTPAPIEX_ExecuteRequest`. The headers are those of the caller: what is stored in them is there for the next request.

* `refreshAuthorization`, `httpApiExSasExecuteRequest` — the code,
* `sasRun` — requests with one handle and one collection of headers, one after the other,
* `issued` — the token that a request puts into the headers,
* `HttpApi.guarded` — a server that refuses the requests that it finds something wrong with,
* `Passes`, `sasRun_of_passes` — servers whose checks the requests pass,
* `sasRun_guarded` — one that wants the last token issued, and no other header changed, refuses nothing,
* `sasRun_validated` — nor does one that looks at the token with `SASToken_Validate`.
-/

namespace SharedUtility.HttpApiExSas

open HttpApiEx SasToken

/-! ## The code -/

/-- `HTTPAPIEX_SAS_STATE`. -/
structure SasState where
  key : Bytes
  uriResource : Bytes
  keyName : Option Bytes

/-- `HTTPAPIEX_SAS_Create_From_String`; `allocated` says that all allocations succeed. -/
def httpApiExSasCreateFromString (allocated : Bool) (key uriResource keyName : Option Bytes) : Option SasState :=
  match key, uriResource with
  | some key, some uriResource =>
    if allocated then some { key := key, uriResource := uriResource, keyName := keyName } else none
  | _, _ => none

/-- One call of `HTTPAPIEX_SAS_ExecuteRequest`, with what it finds around it. -/
structure SasCall where
  /-- What `get_time` returns; -1 if there is no clock. -/
  currentTime : Int
  /-- All allocations of `SASToken_CreateString` succeed. -/
  tokenAllocated : Bool := true
  /-- There is memory to store the token. -/
  stored : Bool := true
  /-- The arguments but for the headers. -/
  arguments : Arguments
  alloc : Allocations := {}
  api : HttpApi

def authorization : Bytes :=
  ascii "Authorization"

/-- `(size_t)(difftime(currentTime, 0) + 3600)`; undefined for a negative number. -/
def expiryOf (currentTime : Int) : Option Nat :=
  let seconds := doubleOfTime (doubleOfTime currentTime + 3600)
  if seconds < 0 then none else some seconds.toNat

section

variable (hmacSha256 : Bytes → Bytes → Bytes) (uninitialised : Nat → UInt8)

/-- `SASToken_CreateString`; there is no hash for an empty key. -/
def sasTokenCreateString (allocated : Bool) (sas : SasState) (expiry : Nat) : Option Bytes :=
  if base64Decoder sas.key uninitialised = some [] then none
  else constructSasToken hmacSha256 uninitialised allocated sas.key sas.uriResource sas.keyName expiry

/-- The headers with a token of this call, if one can be made and stored. -/
def refreshAuthorization (sas : SasState) (call : SasCall) (headers : HttpHeaders) : Option HttpHeaders :=
  if (headers.lookup authorization).isNone then some headers
  else if call.currentTime = -1 then some headers
  else do
    let expiry ← expiryOf call.currentTime
    match sasTokenCreateString hmacSha256 uninitialised call.tokenAllocated sas expiry with
    | none => some headers
    | some newSasToken =>
      some
        (if call.stored then (headers.replaceHeaderNameValuePair authorization newSasToken).getD headers
        else headers)

/-- What `HTTPAPIEX_ExecuteRequest` leaves of the headers of the caller. -/
def headersLeft (s : Session) (arguments : Arguments) (alloc : Allocations) (headers : HttpHeaders) : HttpHeaders :=
  match s.handle with
  | none => headers
  | some handleData =>
    if arguments.requestType ≥ requestTypeCount then headers
    else
      match buildBufferIfNotExist arguments.requestContent alloc.requestContent with
      | none => headers
      | some content =>
        if alloc.host = false then headers
        else
          let headers := (headers.replaceHeaderNameValuePair (ascii "Host") handleData.hostName).getD headers
          if alloc.contentLength = false then headers
          else
            let temp := (sizeTToString 22 (content.getD []).length).getD []
            (headers.replaceHeaderNameValuePair (ascii "Content-Length") temp).getD headers

/-- `HTTPAPIEX_SAS_ExecuteRequest`: its result, what was received, the handle and the headers afterwards. -/
def httpApiExSasExecuteRequest (rounds : Nat) (sas : Option SasState) (call : SasCall) (s : Session)
    (headers : Option HttpHeaders) : Option (HttpApiExResult × Option Received × Session × Option HttpHeaders) := do
  let headers ←
    (match sas, headers with
      | some sas, some headers => (refreshAuthorization hmacSha256 uninitialised sas call headers).map some
      | _, _ => some headers)
  let arguments := { call.arguments with requestHttpHeadersHandle := headers }
  let r ← httpApiExExecuteRequest call.api rounds s arguments call.alloc
  some (r.1, r.2.1, r.2.2, headers.map (headersLeft s arguments call.alloc))

/-- Calls one after the other, with the same headers. -/
def sasRun (rounds : Nat) (sas : Option SasState) :
    List SasCall → Session → Option HttpHeaders →
      Option (List (HttpApiExResult × Option Received) × Session × Option HttpHeaders)
  | [], s, headers => some ([], s, headers)
  | call :: calls, s, headers => do
    let r ← httpApiExSasExecuteRequest hmacSha256 uninitialised rounds sas call s headers
    let rest ← sasRun rounds sas calls r.2.2.1 r.2.2.2
    some ((r.1, r.2.1) :: rest.1, rest.2)

/-! ## What is sent -/

def issued (sas : SasState) (call : SasCall) : Option Bytes :=
  if call.currentTime = -1 ∨ call.stored = false then none
  else
    (expiryOf call.currentTime).bind (sasTokenCreateString hmacSha256 uninitialised call.tokenAllocated sas)

end

/-- The headers that are set along the way. -/
def isOwn (name : Bytes) : Bool :=
  [authorization, ascii "Host", ascii "Content-Length"].contains name

/-- The headers that no one but the caller changes. -/
def others (headers : HttpHeaders) : HttpHeaders :=
  headers.filter fun e => !isOwn e.1

/-- The request has this token, and these other headers. -/
def carries (token : Bytes) (rest : HttpHeaders) (sent : Sent) : Bool :=
  sent.requestHeaders.lookup authorization == some token && others sent.requestHeaders == rest

/-- A server that refuses the requests that do not pass the check. -/
def guarded (api : HttpApi) (check : Sent → Bool) : HttpApi :=
  { api with
    executeRequest := fun log sent received =>
      if check sent then api.executeRequest log sent received else (false, received) }

/-! ## A server that checks -/

section

variable {api : HttpApi} {check : Sent → Bool} {sent : Sent}

theorem tryLevel_guarded (hcheck : check sent = true) (s : Retry) :
    tryLevel (guarded api check) sent s = tryLevel api sent s := by
  have hserved : ∀ log received, (guarded api check).executeRequest log sent received =
      api.executeRequest log sent received := fun _ _ => if_pos hcheck
  unfold tryLevel
  rw [hserved]
  rfl

theorem retryLoop_guarded (hcheck : check sent = true) (rounds : Nat) :
    ∀ s : Retry, retryLoop (guarded api check) sent rounds s = retryLoop api sent rounds s := by
  induction rounds with
  | zero => exact fun _ => rfl
  | succ rounds ih =>
    intro s
    have hround : retryRound (guarded api check) sent s = retryRound api sent s := by
      simp only [retryRound, tryLevel_guarded hcheck]
    rw [retryLoop, retryLoop, hround]
    cases retryRound api sent s with
    | again s => exact ih s
    | done result s => rfl

theorem executeRequest_guarded {s : Session} {arguments : Arguments} {alloc : Allocations} (rounds : Nat)
    (hcheck : ∀ handleData sent received, s.handle = some handleData → ¬ arguments.requestType ≥ requestTypeCount →
      buildAllRequests handleData arguments alloc = some (sent, received) → check sent = true) :
    httpApiExExecuteRequest (guarded api check) rounds s arguments alloc =
      httpApiExExecuteRequest api rounds s arguments alloc := by
  unfold httpApiExExecuteRequest
  cases hhandle : s.handle with
  | none => rfl
  | some handleData =>
    dsimp only
    by_cases htype : arguments.requestType ≥ requestTypeCount
    · rw [if_pos htype, if_pos htype]
    · rw [if_neg htype, if_neg htype]
      cases hbuilt : buildAllRequests handleData arguments alloc with
      | none => rfl
      | some request =>
        dsimp only
        rw [retryLoop_guarded (hcheck handleData request.1 request.2 hhandle htype hbuilt)]

end

/-! ## The headers -/

section

variable {headers headers' : HttpHeaders} {name value : Bytes} {s : Session} {arguments : Arguments}
  {alloc : Allocations}

theorem replace_eq (hname : name.all HttpHeaders.isNameChar = true) (headers : HttpHeaders) (value : Bytes) :
    headers.replaceHeaderNameValuePair name value =
      some (headers.mapAddOrUpdate name (value.dropWhile HttpHeaders.isLws)) := by
  unfold HttpHeaders.replaceHeaderNameValuePair HttpHeaders.headersReplaceHeaderNameValuePair
  rw [hname, if_neg (by decide)]
  cases headers.lookup name with
  | none => rfl
  | some existingValue => rfl

theorem others_cons_own {e : Bytes × Bytes} (h : isOwn e.1 = true) (headers : HttpHeaders) :
    others (e :: headers) = others headers :=
  List.filter_cons_of_neg (by rw [h]; decide)

theorem others_cons {e : Bytes × Bytes} (h : ¬ isOwn e.1 = true) (headers : HttpHeaders) :
    others (e :: headers) = e :: others headers :=
  List.filter_cons_of_pos (by rw [Bool.not_eq_true] at h; rw [h]; rfl)

theorem others_update (hname : isOwn name = true) (headers : HttpHeaders) (value : Bytes) :
    others (headers.update name value) = others headers := by
  induction headers with
  | nil => rfl
  | cons e headers ih =>
    change others ((if e.1 = name then (name, value) else e) :: Map.AssocList.update headers name value) = _
    by_cases hfirst : e.1 = name
    · have hown : isOwn e.1 = true := by rw [hfirst, hname]
      rw [if_pos hfirst, others_cons_own hname, others_cons_own hown]
      exact ih
    · rw [if_neg hfirst]
      by_cases hown : isOwn e.1 = true
      · rw [others_cons_own hown, others_cons_own hown]
        exact ih
      · rw [others_cons hown, others_cons hown]
        exact congrArg (e :: ·) ih

theorem others_mapAddOrUpdate (hname : isOwn name = true) (headers : HttpHeaders) (value : Bytes) :
    others (headers.mapAddOrUpdate name value) = others headers := by
  rw [HttpHeaders.mapAddOrUpdate_eq]
  split_ifs
  · exact others_update hname headers value
  · rw [others, Map.AssocList.insert, List.filter_append]
    have hlast : others [(name, value)] = [] := others_cons_own hname []
    rw [others] at hlast
    rw [hlast, List.append_nil]
    rfl

/-- The headers still carry the token and what the caller has put there. -/
structure Keeps (token : Bytes) (rest headers : HttpHeaders) : Prop where
  token : headers.lookup authorization = some token
  rest : others headers = rest

variable {token : Bytes} {rest : HttpHeaders}

/-- `Host` and `Content-Length` are set. -/
theorem Keeps.replace (h : Keeps token rest headers) (hvalid : name.all HttpHeaders.isNameChar = true)
    (hown : isOwn name = true) (hne : authorization ≠ name) (value : Bytes) :
    Keeps token rest ((headers.replaceHeaderNameValuePair name value).getD headers) := by
  rw [replace_eq hvalid, Option.getD_some]
  constructor
  · rw [HttpHeaders.lookup_mapAddOrUpdate, if_neg hne, h.token]
  · rw [others_mapAddOrUpdate hown, h.rest]

theorem Keeps.left (h : Keeps token rest headers) (s : Session) (arguments : Arguments) (alloc : Allocations) :
    Keeps token rest (headersLeft s arguments alloc headers) := by
  unfold headersLeft
  have hhost : ∀ hostName, Keeps token rest
      ((headers.replaceHeaderNameValuePair (ascii "Host") hostName).getD headers) :=
    h.replace (by decide) (by decide) (by decide)
  cases s.handle with
  | none => exact h
  | some handleData =>
    dsimp only
    by_cases htype : arguments.requestType ≥ requestTypeCount
    · rw [if_pos htype]
      exact h
    · rw [if_neg htype]
      cases buildBufferIfNotExist arguments.requestContent alloc.requestContent with
      | none => exact h
      | some content =>
        dsimp only
        by_cases halloc : alloc.host = false
        · rw [if_pos halloc]
          exact h
        · rw [if_neg halloc]
          change Keeps token rest (if alloc.contentLength = false then _ else _)
          split_ifs
          · exact hhost _
          · exact (hhost _).replace (by decide) (by decide) (by decide) _

theorem sent_headers {handleData : HandleData} {sent : Sent} {received : Received}
    (hhandle : s.handle = some handleData) (htype : ¬ arguments.requestType ≥ requestTypeCount)
    (hbuilt : buildAllRequests handleData { arguments with requestHttpHeadersHandle := some headers } alloc =
      some (sent, received)) :
    sent.requestHeaders =
      headersLeft s { arguments with requestHttpHeadersHandle := some headers } alloc headers := by
  unfold buildAllRequests at hbuilt
  unfold headersLeft
  rw [hhandle]
  dsimp only at hbuilt ⊢
  rw [if_neg htype]
  cases hcontent : buildBufferIfNotExist arguments.requestContent alloc.requestContent with
  | none =>
    rw [hcontent] at hbuilt
    cases hbuilt
  | some content =>
    rw [hcontent] at hbuilt
    dsimp only [buildRequestHttpHeadersHandle] at hbuilt ⊢
    by_cases hhost : alloc.host = false
    · rw [if_pos hhost] at hbuilt
      cases hbuilt
    · rw [if_neg hhost, replace_eq (by decide)] at hbuilt ⊢
      dsimp only at hbuilt ⊢
      rw [Option.getD_some]
      by_cases hlength : alloc.contentLength = false
      · rw [if_pos hlength] at hbuilt
        cases hbuilt
      · rw [if_neg hlength, replace_eq (by decide)] at hbuilt ⊢
        dsimp only at hbuilt
        rw [Option.getD_some]
        cases hheaders : buildResponseHttpHeadersHandle arguments.responseHttpHeadersHandle alloc.responseHeaders with
        | none =>
          rw [hheaders] at hbuilt
          cases hbuilt
        | some responseHeaders =>
          rw [hheaders] at hbuilt
          dsimp only at hbuilt
          cases hresponse : buildBufferIfNotExist arguments.responseContent alloc.responseContent with
          | none =>
            rw [hresponse] at hbuilt
            cases hbuilt
          | some responseContent =>
            rw [hresponse] at hbuilt
            cases hbuilt
            rfl

end

/-! ## The token -/

section

variable {hmacSha256 : Bytes → Bytes → Bytes} {uninitialised : Nat → UInt8} {sas : SasState} {call : SasCall}
  {token newSasToken : Bytes} {rest headers headers' : HttpHeaders}

theorem dropWhile_token {allocated : Bool} {expiry : Nat}
    (h : sasTokenCreateString hmacSha256 uninitialised allocated sas expiry = some newSasToken) :
    newSasToken.dropWhile HttpHeaders.isLws = newSasToken := by
  unfold sasTokenCreateString at h
  split_ifs at h
  rw [constructSasToken_eq_some h]
  rfl

theorem refresh_keeps (h : Keeps token rest headers)
    (hrefresh : refreshAuthorization hmacSha256 uninitialised sas call headers = some headers') :
    Keeps ((issued hmacSha256 uninitialised sas call).getD token) rest headers' := by
  unfold refreshAuthorization at hrefresh
  unfold issued
  rw [h.token, Option.isNone_some, if_neg Bool.false_ne_true] at hrefresh
  by_cases hclock : call.currentTime = -1
  · rw [if_pos hclock] at hrefresh
    rw [if_pos (.inl hclock)]
    cases hrefresh
    exact h
  · rw [if_neg hclock] at hrefresh
    rcases Option.bind_eq_some_iff.1 hrefresh with ⟨expiry, hexpiry, hstore⟩
    rw [hexpiry, Option.bind_some]
    cases htoken : sasTokenCreateString hmacSha256 uninitialised call.tokenAllocated sas expiry with
    | none =>
      rw [htoken] at hstore
      cases hstore
      rw [ite_self]
      exact h
    | some newSasToken =>
      rw [htoken] at hstore
      cases hstored : call.stored with
      | false =>
        rw [hstored] at hstore
        cases hstore
        rw [if_pos (.inr rfl)]
        exact h
      | true =>
        rw [hstored] at hstore
        cases hstore
        rw [if_neg (not_or.2 ⟨hclock, Bool.noConfusion⟩), if_pos rfl, replace_eq (by decide), Option.getD_some,
          Option.getD_some, dropWhile_token htoken]
        constructor
        · rw [HttpHeaders.lookup_mapAddOrUpdate, if_pos rfl]
        · rw [others_mapAddOrUpdate (by decide), h.rest]

theorem carries_of_keeps {sent : Sent} (h : Keeps token rest sent.requestHeaders) : carries token rest sent = true := by
  rw [carries, h.token, h.rest]
  simp

end

/-! ## Runs -/

section

variable {hmacSha256 : Bytes → Bytes → Bytes} {uninitialised : Nat → UInt8} {sas : SasState} {rest : HttpHeaders}

theorem call_guarded {call : SasCall} {check : Sent → Bool} {token : Bytes} {headers : HttpHeaders} (rounds : Nat)
    (s : Session) (h : Keeps token rest headers)
    (hcheck : ∀ sent, Keeps ((issued hmacSha256 uninitialised sas call).getD token) rest sent.requestHeaders →
      check sent = true) :
    httpApiExSasExecuteRequest hmacSha256 uninitialised rounds (some sas)
        { call with api := guarded call.api check } s (some headers) =
      httpApiExSasExecuteRequest hmacSha256 uninitialised rounds (some sas) call s (some headers) := by
  have hsame : refreshAuthorization hmacSha256 uninitialised sas { call with api := guarded call.api check } headers =
      refreshAuthorization hmacSha256 uninitialised sas call headers := rfl
  unfold httpApiExSasExecuteRequest
  dsimp only
  rw [hsame]
  cases hrefresh : refreshAuthorization hmacSha256 uninitialised sas call headers with
  | none => rfl
  | some headers' =>
    have hkeeps := refresh_keeps h hrefresh
    rw [Option.map_some, Option.bind_eq_bind, Option.bind_some, Option.bind_eq_bind, Option.bind_some,
      executeRequest_guarded rounds]
    intro handleData sent received hhandle htype hbuilt
    apply hcheck
    rw [sent_headers hhandle htype hbuilt]
    exact hkeeps.left s _ call.alloc

theorem call_keeps {call : SasCall} {token : Bytes} {headers : HttpHeaders} {rounds : Nat} {s : Session}
    {r : HttpApiExResult × Option Received × Session × Option HttpHeaders} (h : Keeps token rest headers)
    (hcall : httpApiExSasExecuteRequest hmacSha256 uninitialised rounds (some sas) call s (some headers) = some r) :
    ∃ headers', r.2.2.2 = some headers' ∧
      Keeps ((issued hmacSha256 uninitialised sas call).getD token) rest headers' := by
  rcases Option.bind_eq_some_iff.1 hcall with ⟨left, hleft, hrest⟩
  rcases Option.map_eq_some_iff.1 hleft with ⟨headers', hrefresh, rfl⟩
  rcases Option.bind_eq_some_iff.1 hrest with ⟨request, -, hresult⟩
  cases hresult
  exact ⟨_, rfl, (refresh_keeps h hrefresh).left s _ call.alloc⟩

/-- Servers with checks, one for each call, that its request with the last token issued passes. -/
def Passes (hmacSha256 : Bytes → Bytes → Bytes) (uninitialised : Nat → UInt8) (sas : SasState) (rest : HttpHeaders) :
    (token : Bytes) → List (SasCall × (Sent → Bool)) → Prop
  | _, [] => True
  | token, (call, check) :: calls =>
    (∀ sent, Keeps ((issued hmacSha256 uninitialised sas call).getD token) rest sent.requestHeaders →
      check sent = true) ∧
      Passes hmacSha256 uninitialised sas rest ((issued hmacSha256 uninitialised sas call).getD token) calls

theorem sasRun_of_passes (rounds : Nat) (calls : List (SasCall × (Sent → Bool))) :
    ∀ {token : Bytes} {headers : HttpHeaders} {s : Session}, Keeps token rest headers →
      Passes hmacSha256 uninitialised sas rest token calls →
      sasRun hmacSha256 uninitialised rounds (some sas)
          (calls.map fun c => { c.1 with api := guarded c.1.api c.2 }) s (some headers) =
        sasRun hmacSha256 uninitialised rounds (some sas) (calls.map Prod.fst) s (some headers) := by
  induction calls with
  | nil => exact fun _ _ => rfl
  | cons c calls ih =>
    intro token headers s h hpasses
    rw [List.map_cons, List.map_cons, sasRun, sasRun, call_guarded rounds s h hpasses.1]
    cases hcall : httpApiExSasExecuteRequest hmacSha256 uninitialised rounds (some sas) c.1 s (some headers) with
    | none => rfl
    | some r =>
      rcases call_keeps h hcall with ⟨headers', hheaders', hkeeps⟩
      simp only [Option.bind_eq_bind, Option.bind_some]
      rw [hheaders', ih hkeeps hpasses.2]

/-- Every server wants the last token issued, and the other headers unchanged. -/
def tokenChecks (hmacSha256 : Bytes → Bytes → Bytes) (uninitialised : Nat → UInt8) (sas : SasState)
    (rest : HttpHeaders) : (token : Bytes) → List SasCall → List (SasCall × (Sent → Bool))
  | _, [] => []
  | token, call :: calls =>
    let token := (issued hmacSha256 uninitialised sas call).getD token
    (call, carries token rest) :: tokenChecks hmacSha256 uninitialised sas rest token calls

theorem tokenChecks_fst (calls : List SasCall) :
    ∀ token, (tokenChecks hmacSha256 uninitialised sas rest token calls).map Prod.fst = calls := by
  induction calls with
  | nil => exact fun _ => rfl
  | cons call calls ih =>
    intro token
    rw [tokenChecks, List.map_cons, ih]

theorem tokenChecks_passes (calls : List SasCall) :
    ∀ token, Passes hmacSha256 uninitialised sas rest token
      (tokenChecks hmacSha256 uninitialised sas rest token calls) := by
  induction calls with
  | nil => exact fun _ => trivial
  | cons call calls ih => exact fun token => ⟨fun sent h => carries_of_keeps h, ih _⟩

/-- A server that everything goes well with. -/
def obliging : HttpApi where
  init _ := true
  createConnection _ _ := some 1
  executeRequest _ _ received := (true, received)

/-- Every request of a run has the token of the last call that could make and store one, and all other headers
but `Host` and `Content-Length` as the caller has put them in. -/
theorem sasRun_guarded (rounds : Nat) (calls : List SasCall) (s : Session) {headers : HttpHeaders} {token : Bytes}
    (h : headers.lookup authorization = some token) :
    sasRun hmacSha256 uninitialised rounds (some sas)
        ((tokenChecks hmacSha256 uninitialised sas (others headers) token calls).map fun c =>
          { c.1 with api := guarded c.1.api c.2 }) s (some headers) =
      sasRun hmacSha256 uninitialised rounds (some sas) calls s (some headers) := by
  have hpasses : Passes hmacSha256 uninitialised sas (others headers) token
      (tokenChecks hmacSha256 uninitialised sas (others headers) token calls) := tokenChecks_passes calls token
  have hrun := sasRun_of_passes rounds (s := s) _ ⟨h, rfl⟩ hpasses
  rw [tokenChecks_fst] at hrun
  exact hrun

def hubState : SasState where
  key := ascii "a2V5"
  uriResource := ascii "hub"
  keyName := none

/-- The second token cannot be made. -/
def twoCalls : List SasCall :=
  [{ currentTime := 1000, arguments := { requestType := 0 }, api := obliging },
    { currentTime := 2000, tokenAllocated := false, arguments := { requestType := 0 }, api := obliging }]

/-- The first token is sent again. -/
theorem sasRun_guarded_twice :
    (tokenChecks (fun _ _ => [0x61]) (fun _ => 0) hubState [] [] twoCalls).map (fun c => c.2
        { requestType := 0, relativePath := [], content := [], requestHeaders :=
          [(authorization, ascii "SharedAccessSignature sr=hub&sig=YQ==&se=4600")] }) = [true, true] ∧
      sasRun (fun _ _ => [0x61]) (fun _ => 0) 9 (some hubState)
          ((tokenChecks (fun _ _ => [0x61]) (fun _ => 0) hubState (others [(authorization, [])]) [] twoCalls).map
            fun c => { c.1 with api := guarded c.1.api c.2 })
          (.created (ascii "hub")) (some [(authorization, [])]) =
        sasRun (fun _ _ => [0x61]) (fun _ => 0) 9 (some hubState) twoCalls (.created (ascii "hub"))
          (some [(authorization, [])]) :=
  ⟨by decide +kernel, sasRun_guarded 9 _ (.created (ascii "hub")) rfl⟩

end

/-! ## The check of the library -/

def computeHash (key text : Bytes) : Bytes :=
  Sha.narrowedHash key key.length text text.length

/-- `SASToken_Validate` on the `Authorization` header. -/
def validates (serverTime : Int) (sent : Sent) : Bool :=
  sasTokenValidate ((sent.requestHeaders.lookup authorization).getD []) true serverTime

/-- A resource name without an equals sign, and a key name without one. -/
structure Ordinary (sas : SasState) : Prop where
  uriResource : 0x3D ∉ sas.uriResource
  length : 2 ≤ sas.uriResource.length
  keyName : ∀ name ∈ sas.keyName, 0x3D ∉ name

/-- A call that makes and stores a token, and a server whose clock is not behind the hour of the token. -/
structure Timely (uninitialised : Nat → UInt8) (sas : SasState) (call : SasCall) (serverTime : Int) : Prop where
  clock : 0 ≤ call.currentTime
  small : call.currentTime + 3600 < 2 ^ 53
  stored : call.stored = true
  token : ∃ token, sasTokenCreateString computeHash uninitialised call.tokenAllocated sas
    (call.currentTime.toNat + 3600) = some token ∧ token.length < 2 ^ 31
  /-- A signature that ends with `sig=` is taken for the start of a field. -/
  signature : endsInSig (tokenHash computeHash uninitialised sas.key sas.uriResource
    (call.currentTime.toNat + 3600)) = false
  serverClock : 0 ≤ serverTime
  hour : serverTime ≤ call.currentTime + 3600

section

variable {uninitialised : Nat → UInt8} {sas : SasState} {call : SasCall} {serverTime : Int}

theorem expiryOf_small {currentTime : Int} (hpos : 0 ≤ currentTime) (hsmall : currentTime + 3600 < 2 ^ 53) :
    expiryOf currentTime = some (currentTime.toNat + 3600) := by
  have hexact : ∀ n : Int, 0 ≤ n → n < 2 ^ 53 → doubleOfTime n = n := by
    intro n h0 hn
    rw [doubleOfTime, if_neg (by omega), roundDouble_of_lt (by omega)]
    omega
  rw [expiryOf, hexact currentTime hpos (by omega), hexact (currentTime + 3600) (by omega) hsmall]
  rw [if_neg (by omega)]
  congr 1
  omega

theorem Timely.issued (h : Timely uninitialised sas call serverTime) :
    ∃ token, HttpApiExSas.issued computeHash uninitialised sas call = some token ∧
      sasTokenCreateString computeHash uninitialised call.tokenAllocated sas (call.currentTime.toNat + 3600) =
        some token ∧ token.length < 2 ^ 31 := by
  rcases h.token with ⟨token, htoken, hlength⟩
  refine ⟨token, ?_, htoken, hlength⟩
  have hclock := h.clock
  have hable : ¬ (call.currentTime = -1 ∨ call.stored = false) := by
    rintro (hnone | hlost)
    · omega
    · rw [h.stored] at hlost
      cases hlost
  rw [HttpApiExSas.issued, if_neg hable, expiryOf_small h.clock h.small, Option.bind_some, htoken]

theorem Timely.accepted (hsas : Ordinary sas) (h : Timely uninitialised sas call serverTime) {token : Bytes}
    (htoken : sasTokenCreateString computeHash uninitialised call.tokenAllocated sas
      (call.currentTime.toNat + 3600) = some token) (hlength : token.length < 2 ^ 31) :
    sasTokenValidate token true serverTime = true := by
  unfold sasTokenCreateString at htoken
  split_ifs at htoken
  have htext := constructSasToken_eq_some htoken
  have hsmall := h.small
  have hclock := h.clock
  have hserver := h.serverClock
  have hhour := h.hour
  have hroom : call.currentTime.toNat + 3600 < 10 ^ 31 := by
    have hbound : (2 ^ 53 : Nat) ≤ 10 ^ 31 := by decide
    omega
  have hverdict := sasTokenValidate_tokenText sas.uriResource true serverTime
    (show (tokenHash computeHash uninitialised sas.key sas.uriResource
      (call.currentTime.toNat + 3600)).length = 32 from Sha.narrowedHash_length)
    (show 0 < 31 by decide) hroom rfl hsas.keyName (htext ▸ hlength)
  rw [htext]
  refine hverdict.2 ⟨?_, rfl, by omega, ?_⟩
  · rw [readsBack, readsScope_of_no_equals hsas.uriResource hsas.length, h.signature]
    rfl
  · rw [roundedExpiry_of_lt (by omega), doubleOfTime, if_neg (by omega), roundDouble_of_lt (by omega)]
    omega

theorem validated_passes (hsas : Ordinary sas) {rest : HttpHeaders} (calls : List (SasCall × Int)) :
    ∀ token, (∀ c ∈ calls, Timely uninitialised sas c.1 c.2) →
      Passes computeHash uninitialised sas rest token (calls.map fun c => (c.1, validates c.2)) := by
  induction calls with
  | nil => exact fun _ _ => trivial
  | cons c calls ih =>
    intro token htimely
    have hfirst := htimely c (List.mem_cons_self ..)
    refine ⟨?_, ih _ fun c' hc' => htimely c' (List.mem_cons_of_mem c hc')⟩
    intro sent hkeeps
    rcases hfirst.issued with ⟨issuedToken, hissued, hcreated, hlength⟩
    rw [hissued, Option.getD_some] at hkeeps
    rw [validates, hkeeps.token, Option.getD_some]
    exact hfirst.accepted hsas hcreated hlength

/-- A server that validates the token of each request refuses none that comes within the hour. -/
theorem sasRun_validated (rounds : Nat) (calls : List (SasCall × Int)) (s : Session) {headers : HttpHeaders}
    (hsas : Ordinary sas) (hheaders : headers.lookup authorization ≠ none)
    (htimely : ∀ c ∈ calls, Timely uninitialised sas c.1 c.2) :
    sasRun computeHash uninitialised rounds (some sas)
        (calls.map fun c => { c.1 with api := guarded c.1.api (validates c.2) }) s (some headers) =
      sasRun computeHash uninitialised rounds (some sas) (calls.map Prod.fst) s (some headers) := by
  rcases Option.ne_none_iff_exists'.1 hheaders with ⟨token, htoken⟩
  have hrun := sasRun_of_passes rounds (s := s) (calls.map fun c => (c.1, validates c.2)) ⟨htoken, rfl⟩
    (validated_passes hsas calls token htimely)
  have hguarded : (calls.map fun c => (c.1, validates c.2)).map
      (fun c : SasCall × (Sent → Bool) => { c.1 with api := guarded c.1.api c.2 }) =
        calls.map fun c => { c.1 with api := guarded c.1.api (validates c.2) } := by
    simp only [List.map_map, Function.comp_def]
  have hplain : (calls.map fun c => (c.1, validates c.2)).map Prod.fst = calls.map Prod.fst := by
    simp only [List.map_map, Function.comp_def]
  rw [hguarded, hplain] at hrun
  exact hrun

/-- A server looks at the token when its hour is just over. -/
theorem sasRun_validated_hub :
    sasRun computeHash (fun _ => 0) 9 (some hubState)
        ([(({ currentTime := 1800000000, arguments := { requestType := 0 }, api := obliging } : SasCall),
          (1800003600 : Int))].map fun c => { c.1 with api := guarded c.1.api (validates c.2) })
        (.created (ascii "hub")) (some [(authorization, [])]) =
      sasRun computeHash (fun _ => 0) 9 (some hubState)
        ([(({ currentTime := 1800000000, arguments := { requestType := 0 }, api := obliging } : SasCall),
          (1800003600 : Int))].map Prod.fst) (.created (ascii "hub")) (some [(authorization, [])]) := by
  apply sasRun_validated
  · exact ⟨by decide, by decide, by rintro _ ⟨⟩⟩
  · decide
  · intro c hc
    rw [List.mem_singleton.1 hc]
    refine ⟨by decide, by decide, rfl, ?_, by decide +kernel, by decide, by decide⟩
    have hcreated : ((sasTokenCreateString computeHash (fun _ => 0) true hubState
        ((1800000000 : Int).toNat + 3600)).map List.length).any (fun n => decide (n < 2 ^ 31)) = true := by
      decide +kernel
    rcases (Option.any_eq_true_iff_get _ _).1 hcreated with ⟨hsome, hlength⟩
    rcases Option.map_eq_some_iff.1 (Option.some_get hsome).symm with ⟨token, htoken, heq⟩
    rw [← heq, decide_eq_true_eq] at hlength
    exact ⟨token, htoken, hlength⟩

end

end SharedUtility.HttpApiExSas
