import SharedUtility.HttpApiCompact.Outputs
import SharedUtility.HttpApiEx.Code

/-!
# RetriedRequest — what the failed attempts of a request leave for the one that succeeds

All attempts of a request put what they receive into the same headers and the same buffer. A failed
attempt that has stored a header leaves it there, and the attempt that succeeds adds to it: then the
headers are never those of this attempt alone. One that has not stored a header has not got to a body
either, and leaves nothing.
-/

namespace SharedUtility.HttpApiEx

/-- What an attempt meets: how the opening and the sending end, and the connection after them. -/
structure Attempt where
  sent : HttpApiCompact.HttpApiResult
  connection : HttpApiCompact.HttpHandleData

/-- What is there for a handle; the calls that have been made say when. -/
structure Network where
  init : List Event → Bool
  createConnection : List Event → Bytes → Option Nat
  attempt : List Event → Attempt

section

variable (uninitialised : Nat → UInt8)

/-- The outputs as they are passed to `HTTPAPI_ExecuteRequest`. -/
def Received.response (received : Received) : HttpApiCompact.Response HttpHeaders where
  statusCode := received.statusCode
  headers := some received.responseHeaders
  content := received.responseContent

/-- Whether the result is `HTTPAPI_OK`, and the outputs. -/
def outcome (r : HttpApiCompact.HttpApiResult × HttpApiCompact.Response HttpHeaders ×
    HttpApiCompact.HttpHandleData) : Bool × Received :=
  (decide (r.1 = .ok),
    { statusCode := r.2.1.statusCode
      responseHeaders := r.2.1.headers.getD []
      responseContent := r.2.1.content })

/-- `HTTPAPI_ExecuteRequest` of `httpapi_compact.c`: whether it returns `HTTPAPI_OK`, and the outputs;
`none` if it never returns. -/
def Attempt.execute (a : Attempt) (received : Received) : Option (Bool × Received) :=
  (HttpApiCompact.httpApiExecuteRequestInternal HttpHeaders.addHeaderNameValuePair uninitialised 0
    a.sent received.response a.connection).map outcome

/-- The HTTPAPI layer of `httpapi_compact.c`, for the runs in which its calls return. -/
def Network.httpApi (network : Network) : HttpApi where
  init := network.init
  createConnection := network.createConnection
  executeRequest log _ received :=
    ((network.attempt log).execute uninitialised received).getD (false, received)

/-- The attempts among the new calls, and whether they succeeded. -/
def Network.attempts (network : Network) : (log new : List Event) → List (Attempt × Bool)
  | _, [] => []
  | log, .executeRequest httpHandle ok :: new =>
    (network.attempt log, ok) :: network.attempts (log ++ [.executeRequest httpHandle ok]) new
  | log, e :: new => network.attempts (log ++ [e]) new

/-- The attempts that a request has made. -/
def Network.attemptsBetween (network : Network) (s s' : Session) : List (Attempt × Bool) :=
  network.attempts s.log (s'.log.drop s.log.length)

/-- The outputs are not given, or they are empty and have no memory. -/
structure Arguments.FreshOutputs (arguments : Arguments) : Prop where
  headers : arguments.responseHttpHeadersHandle.getD [] = []
  content : arguments.responseContent.getD none = none

/-- The outputs before the first attempt, if they are fresh. -/
def Arguments.received (arguments : Arguments) : Received where
  statusCode := arguments.statusCode.getD none

/-- The attempt succeeds if its outputs are fresh. -/
def Attempt.SucceedsAlone (a : Attempt) : Prop :=
  ∃ alone, a.execute uninitialised {} = some (true, alone)

/-- The attempt gets a header line with a name that `HTTPHeaders_AddHeaderNameValuePair` accepts. -/
def Attempt.StoresHeader (a : Attempt) : Prop :=
  a.sent = .ok ∧
    ∃ pair ∈ HttpApiCompact.headersReceived a.connection, pair.1.all HttpHeaders.isNameChar = true

/-- The attempts have been made one after the other on these outputs, and all have returned. -/
inductive Ran : Received → List (Attempt × Bool) → Bool → Received → Prop
  | nothing (received : Received) : Ran received [] false received
  | failed {a : Attempt} {received received' final : Received} {attempts : List (Attempt × Bool)}
      {ok : Bool} :
      a.execute uninitialised received = some (false, received') →
      Ran received' attempts ok final → Ran received ((a, false) :: attempts) ok final
  | succeeded {a : Attempt} {received received' : Received} :
      a.execute uninitialised received = some (true, received') →
      Ran received [(a, true)] true received'

/-- All attempts return on these outputs, and end as they are said to. -/
def AllReturn : Received → List (Attempt × Bool) → Prop
  | _, [] => True
  | received, a :: attempts =>
    ∃ received', a.1.execute uninitialised received = some (a.2, received') ∧
      AllReturn received' attempts

/-- No attempt that alone succeeds has failed, and a request that succeeds has the headers and the
content of its last attempt alone. -/
structure OnlySuccessReported (attempts : List (Attempt × Bool)) (result : HttpApiExResult)
    (received : Received) : Prop where
  noFailure : ∀ a ∈ attempts, a.1.SucceedsAlone uninitialised → a.2 = true
  outputs : result = .ok → ∃ a alone, attempts.getLast? = some (a, true) ∧
    a.execute uninitialised {} = some (true, alone) ∧
    received.responseHeaders = alone.responseHeaders ∧
    received.responseContent = alone.responseContent

end

/-! ## One attempt -/

section

open HttpApiCompact (addHeaders headersReceived HeadEnds receiveResponse_head)

variable {uninitialised : Nat → UInt8} {a : Attempt} {ok : Bool} {received received' : Received}

/-- The names and values that an attempt adds to the response headers. -/
def Attempt.pairs (a : Attempt) : List (Bytes × Bytes) :=
  if a.sent = .ok then headersReceived a.connection else []

theorem addHeaders_of_unstored {headers : HttpHeaders} {pairs : List (Bytes × Bytes)}
    (h : ∀ pair ∈ pairs, pair.1.all HttpHeaders.isNameChar = false) :
    addHeaders HttpHeaders.addHeaderNameValuePair headers pairs = headers := by
  induction pairs with
  | nil => rfl
  | cons pair pairs ih =>
    unfold addHeaders
    rw [List.foldl_cons, HttpHeaders.add_of_invalid (h pair List.mem_cons_self)]
    exact ih fun pair hpair => h pair (List.mem_cons_of_mem _ hpair)

theorem unstored_of_not (h : ¬ a.StoresHeader) :
    ∀ pair ∈ a.pairs, pair.1.all HttpHeaders.isNameChar = false := by
  intro pair hpair
  unfold Attempt.pairs at hpair
  split at hpair
  case isTrue hsent =>
    rw [← Bool.not_eq_true]
    intro hname
    exact h ⟨hsent, pair, hpair, hname⟩
  case isFalse hfailed => cases hpair

/-- The headers have taken in what the attempt has received, and the content is as it was. -/
structure HeadersTaken (a : Attempt) (received received' : Received) : Prop where
  headers : received'.responseHeaders =
    addHeaders HttpHeaders.addHeaderNameValuePair received.responseHeaders a.pairs
  content : received'.responseContent = received.responseContent

/-- What an attempt does on any outputs. -/
inductive AttemptEnds (uninitialised : Nat → UInt8) (a : Attempt) : Prop
  | failed (h : ∀ received, ∃ received', a.execute uninitialised received = some (false, received') ∧
      HeadersTaken a received received')
  | body (info : HttpApiCompact.ContentInfo) (c : HttpApiCompact.HttpHandleData)
      (h : ∀ received, ∃ response : HttpApiCompact.Response HttpHeaders,
        response.headers =
          some (addHeaders HttpHeaders.addHeaderNameValuePair received.responseHeaders a.pairs) ∧
        response.content = received.responseContent ∧
        a.execute uninitialised received =
          (HttpApiCompact.readHTTPResponseBodyFromXio uninitialised info response c).map outcome)
      (hstored : info ≠ {} → a.StoresHeader)

theorem attemptEnds (uninitialised : Nat → UInt8) (a : Attempt) : AttemptEnds uninitialised a := by
  by_cases hsent : a.sent = .ok
  case neg =>
    apply AttemptEnds.failed
    intro received
    refine ⟨received, ?_, ?_, rfl⟩
    · simp only [Attempt.execute, HttpApiCompact.httpApiExecuteRequestInternal, if_pos hsent,
        Option.map_some, outcome, hsent, decide_false]
      rfl
    · rw [Attempt.pairs, if_neg hsent]
      rfl
  case pos =>
    have hpairs : a.pairs = headersReceived a.connection := if_pos hsent
    have hexecute : ∀ received, a.execute uninitialised received =
        (HttpApiCompact.receiveResponse HttpHeaders.addHeaderNameValuePair uninitialised 0
          received.response a.connection).map outcome := by
      intro received
      simp only [Attempt.execute, HttpApiCompact.httpApiExecuteRequestInternal,
        if_neg (not_not_intro hsent), Option.map_map]
      rfl
    cases receiveResponse_head HttpHeaders.addHeaderNameValuePair uninitialised 0 a.connection with
    | failed h =>
      apply AttemptEnds.failed
      intro received
      obtain ⟨result, response', c', heq, hfailed, hheaders, hcontent⟩ :=
        h received.response received.responseHeaders rfl
      have houtcome : outcome (result, response', c') =
          (false, (outcome (result, response', c')).2) := by
        simp only [outcome, hfailed, decide_false]
      refine ⟨(outcome (result, response', c')).2, ?_, ?_, hcontent⟩
      · rw [hexecute, heq, Option.map_some, houtcome]
      · rw [hpairs]
        simp only [outcome, hheaders, Option.getD_some]
    | body info c h hstored =>
      apply AttemptEnds.body info c
      case hstored => exact fun hne => ⟨hsent, hstored hne⟩
      case h =>
        intro received
        obtain ⟨response', heq, hheaders, hcontent⟩ :=
          h received.response received.responseHeaders rfl
        exact ⟨response', hpairs ▸ hheaders, hcontent, (hexecute received).trans (congrArg _ heq)⟩

theorem execute_headers (h : a.execute uninitialised received = some (ok, received')) :
    received'.responseHeaders =
      addHeaders HttpHeaders.addHeaderNameValuePair received.responseHeaders a.pairs := by
  cases attemptEnds uninitialised a with
  | failed hends =>
    obtain ⟨failed, heq, htaken⟩ := hends received
    rw [heq] at h
    cases h
    exact htaken.headers
  | body info c hends hstored =>
    obtain ⟨response, hheaders, hcontent, heq⟩ := hends received
    rw [heq, HttpApiCompact.readHTTPResponseBodyFromXio_content, Option.map_map,
      Option.map_eq_some_iff] at h
    obtain ⟨r, hr, houtcome⟩ := h
    cases houtcome
    simp only [HttpApiCompact.Response.withBody, hheaders, Option.getD_some]

theorem execute_unstored (h : a.execute uninitialised received = some (ok, received'))
    (hunstored : ¬ a.StoresHeader) :
    received'.responseHeaders = received.responseHeaders ∧
      received'.responseContent = received.responseContent := by
  constructor
  case left =>
    rw [execute_headers h]
    exact addHeaders_of_unstored (unstored_of_not hunstored)
  case right =>
    cases attemptEnds uninitialised a with
    | failed hends =>
      obtain ⟨failed, heq, htaken⟩ := hends received
      rw [heq] at h
      cases h
      exact htaken.content
    | body info c hends hstored =>
      obtain ⟨response, hheaders, hcontent, heq⟩ := hends received
      have hinfo : info = {} := Decidable.byContradiction fun hne => hunstored (hstored hne)
      rw [heq, hinfo] at h
      cases h
      exact hcontent

theorem execute_same (others : Received) (hheaders : others.responseHeaders = received.responseHeaders)
    (hcontent : others.responseContent = received.responseContent)
    (h : a.execute uninitialised received = some (ok, received')) :
    ∃ others', a.execute uninitialised others = some (ok, others') ∧
      others'.responseHeaders = received'.responseHeaders ∧
      others'.responseContent = received'.responseContent := by
  cases attemptEnds uninitialised a with
  | failed hends =>
    obtain ⟨failed, heq, htaken⟩ := hends received
    obtain ⟨failed', heq', htaken'⟩ := hends others
    rw [heq] at h
    cases h
    refine ⟨failed', heq', ?_, ?_⟩
    · rw [htaken'.headers, htaken.headers, hheaders]
    · rw [htaken'.content, htaken.content, hcontent]
  | body info c hends hstored =>
    obtain ⟨response, hheld, hbuffer, heq⟩ := hends received
    obtain ⟨response', hheld', hbuffer', heq'⟩ := hends others
    rw [heq, HttpApiCompact.readHTTPResponseBodyFromXio_content, Option.map_map,
      Option.map_eq_some_iff, hbuffer] at h
    obtain ⟨r, hr, houtcome⟩ := h
    rw [heq', HttpApiCompact.readHTTPResponseBodyFromXio_content, hbuffer', hcontent, hr]
    cases houtcome
    refine ⟨_, rfl, ?_, rfl⟩
    simp only [HttpApiCompact.Response.withBody, hheld, hheld', hheaders]

theorem execute_alone (h : a.execute uninitialised received = some (true, received')) :
    a.SucceedsAlone uninitialised := by
  cases attemptEnds uninitialised a with
  | failed hends =>
    obtain ⟨failed, heq, htaken⟩ := hends received
    rw [heq] at h
    cases h
  | body info c hends hstored =>
    obtain ⟨response, hheld, hbuffer, heq⟩ := hends received
    obtain ⟨response', hheld', hbuffer', heq'⟩ := hends {}
    rw [heq, Option.map_eq_some_iff] at h
    obtain ⟨⟨result, r⟩, hr, houtcome⟩ := h
    have hok : result = .ok := of_decide_eq_true (congrArg Prod.fst houtcome)
    rw [hok] at hr
    obtain ⟨r', hr'⟩ := HttpApiCompact.readHTTPResponseBodyFromXio_fresh hr hbuffer'
    exact ⟨_, heq'.trans (congrArg _ hr')⟩

end

/-! ## One attempt after the other -/

section

open HttpApiCompact (addHeaders)
open HttpHeaders (Longer)

variable {uninitialised : Nat → UInt8} {received final : Received}
variable {attempts : List (Attempt × Bool)} {ok : Bool}

theorem longer_addHeaders {headers others : HttpHeaders} (h : Longer headers others)
    (pairs : List (Bytes × Bytes)) :
    Longer (addHeaders HttpHeaders.addHeaderNameValuePair headers pairs) others := by
  induction pairs generalizing headers with
  | nil => exact h
  | cons pair pairs ih => exact ih (h.add pair.1 pair.2)

theorem longer_addHeaders_both {headers others : HttpHeaders} (h : Longer headers others)
    (pairs : List (Bytes × Bytes)) :
    Longer (addHeaders HttpHeaders.addHeaderNameValuePair headers pairs)
      (addHeaders HttpHeaders.addHeaderNameValuePair others pairs) := by
  induction pairs generalizing headers others with
  | nil => exact h
  | cons pair pairs ih => exact ih (h.add_both pair.1 pair.2)

theorem longer_of_stored {headers : HttpHeaders} {pairs : List (Bytes × Bytes)}
    (h : ∃ pair ∈ pairs, pair.1.all HttpHeaders.isNameChar = true) :
    Longer (addHeaders HttpHeaders.addHeaderNameValuePair headers pairs) headers := by
  induction pairs with
  | nil =>
    obtain ⟨pair, hpair, hname⟩ := h
    cases hpair
  | cons pair pairs ih =>
    cases hfirst : pair.1.all HttpHeaders.isNameChar with
    | true =>
      exact longer_addHeaders (HttpHeaders.longer_add hfirst pair.2) pairs
    | false =>
      have hrest : ∃ pair ∈ pairs, pair.1.all HttpHeaders.isNameChar = true := by
        obtain ⟨other, hother, hname⟩ := h
        rcases List.mem_cons.mp hother with heq | hmem
        · rw [heq, hfirst] at hname
          cases hname
        · exact ⟨other, hmem, hname⟩
      have hlonger := ih hrest
      unfold addHeaders at hlonger ⊢
      rwa [List.foldl_cons, HttpHeaders.add_of_invalid hfirst]

theorem Ran.nonempty (h : Ran uninitialised received attempts true final) : attempts ≠ [] := by
  cases h with
  | failed hexecute hran => exact List.cons_ne_nil _ _
  | succeeded hexecute => exact List.cons_ne_nil _ _

theorem Ran.ok_of_mem (h : Ran uninitialised received attempts ok final) {a : Attempt}
    (ha : (a, true) ∈ attempts) : ok = true := by
  induction h with
  | nothing received => cases ha
  | failed hexecute hran ih =>
    rcases List.mem_cons.mp ha with heq | hmem
    · cases heq
    · exact ih hmem
  | succeeded hexecute => rfl

theorem Ran.fails (h : Ran uninitialised received attempts ok final)
    (hnone : ∀ a ∈ attempts, ¬ a.1.SucceedsAlone uninitialised) : ok = false := by
  induction h with
  | nothing received => rfl
  | failed hexecute hran ih => exact ih fun a ha => hnone a (List.mem_cons_of_mem _ ha)
  | succeeded hexecute => exact absurd (execute_alone hexecute) (hnone _ List.mem_cons_self)

theorem Ran.alone (h : Ran uninitialised received attempts ok final)
    (hheaders : received.responseHeaders = []) (hcontent : received.responseContent = none)
    (hunstored : ∀ a ∈ attempts.dropLast, ¬ a.1.StoresHeader) :
    (∀ a ∈ attempts, a.1.SucceedsAlone uninitialised → a.2 = true) ∧
      (ok = true → ∃ a alone, attempts.getLast? = some (a, true) ∧
        a.execute uninitialised {} = some (true, alone) ∧
        final.responseHeaders = alone.responseHeaders ∧
        final.responseContent = alone.responseContent) := by
  induction h with
  | nothing received => exact ⟨fun a ha => absurd ha List.not_mem_nil, nofun⟩
  | @failed a received received' final attempts ok hexecute hran ih =>
    have hfirst : a.SucceedsAlone uninitialised → false = true := by
      rintro ⟨alone, halone⟩
      obtain ⟨failed, hfailed, -⟩ := execute_same {} hheaders.symm hcontent.symm hexecute
      rw [hfailed] at halone
      cases halone
    cases attempts with
    | nil =>
      cases hran
      refine ⟨?_, nofun⟩
      intro b hb hsucceeds
      rw [List.mem_singleton.mp hb] at hsucceeds ⊢
      exact hfirst hsucceeds
    | cons next rest =>
      rw [List.dropLast_cons_cons] at hunstored
      obtain ⟨hsameHeaders, hsameContent⟩ :=
        execute_unstored hexecute (hunstored (a, false) List.mem_cons_self)
      obtain ⟨hall, houtputs⟩ := ih (hsameHeaders.trans hheaders) (hsameContent.trans hcontent)
        fun b hb => hunstored b (List.mem_cons_of_mem _ hb)
      rw [List.getLast?_cons_cons]
      refine ⟨?_, houtputs⟩
      intro b hb hsucceeds
      rcases List.mem_cons.mp hb with rfl | hmem
      · exact hfirst hsucceeds
      · exact hall b hmem hsucceeds
  | succeeded hexecute =>
    obtain ⟨alone, halone, hsameHeaders, hsameContent⟩ :=
      execute_same {} hheaders.symm hcontent.symm hexecute
    refine ⟨?_, fun _ => ⟨_, alone, rfl, halone, hsameHeaders.symm, hsameContent.symm⟩⟩
    intro a ha hsucceeds
    rw [List.mem_singleton.mp ha]

/-- A header that was there, or that a failed attempt has stored, is missing in the headers of the
last attempt alone, or is longer than there. -/
theorem Ran.longer (h : Ran uninitialised received attempts ok final) (hok : ok = true)
    (hleft : Longer received.responseHeaders [] ∨ ∃ a ∈ attempts.dropLast, a.1.StoresHeader) :
    ∃ a, attempts.getLast? = some (a, true) ∧
      Longer final.responseHeaders
        (addHeaders HttpHeaders.addHeaderNameValuePair [] a.pairs) := by
  induction h with
  | nothing received => cases hok
  | @failed a received received' final attempts ok hexecute hran ih =>
    subst hok
    obtain ⟨next, rest, rfl⟩ := List.exists_cons_of_ne_nil hran.nonempty
    rw [List.dropLast_cons_cons] at hleft
    rw [List.getLast?_cons_cons]
    apply ih rfl
    rcases hleft with hlonger | ⟨b, hb, hstores⟩
    · left
      rw [execute_headers hexecute]
      exact longer_addHeaders hlonger _
    · rcases List.mem_cons.mp hb with rfl | hmem
      · left
        rw [execute_headers hexecute]
        obtain ⟨hsent, hpair⟩ := hstores
        apply HttpHeaders.Longer.than_nil
        exact longer_of_stored (by rwa [Attempt.pairs, if_pos hsent])
      · exact .inr ⟨b, hmem, hstores⟩
  | @succeeded a received received' hexecute =>
    refine ⟨a, rfl, ?_⟩
    rw [execute_headers hexecute]
    rcases hleft with hlonger | ⟨b, hb, hstores⟩
    · exact longer_addHeaders_both hlonger _
    · cases hb

end

/-! ## The loop -/

section

variable {uninitialised : Nat → UInt8} {network : Network} {sent : Sent} {s s' s'' : Retry}

theorem attempts_append (log new new' : List Event) :
    network.attempts log (new ++ new') =
      network.attempts log new ++ network.attempts (log ++ new) new' := by
  induction new generalizing log with
  | nil => rw [List.nil_append, List.append_nil]; rfl
  | cons e new ih =>
    have hlog : log ++ e :: new = log ++ [e] ++ new := List.append_cons log e new
    rw [List.cons_append, hlog]
    cases e with
    | executeRequest httpHandle ok => exact congrArg _ (ih _)
    | _ => exact ih _

theorem attempts_setOptions (log : List Event) (httpHandle : Option Nat) (optionNames : List String) :
    network.attempts log (optionNames.map (.setOption httpHandle)) = [] := by
  induction optionNames generalizing log with
  | nil => rfl
  | cons optionName optionNames ih => exact ih _

/-- There are calls between the two states, but no attempt. -/
structure Quiet (network : Network) (s s' : Retry) : Prop where
  received : s'.received = s.received
  log : ∃ new, s'.log = s.log ++ new ∧ network.attempts s.log new = []

/-- There is one attempt between the two states. -/
structure Attempted (network : Network) (uninitialised : Nat → UInt8) (sent : Sent) (s : Retry)
    (ok : Bool) (s' : Retry) : Prop where
  executed : (network.httpApi uninitialised).executeRequest s.log sent s.received = (ok, s'.received)
  log : ∃ new, s'.log = s.log ++ new ∧
    network.attempts s.log new = [(network.attempt s.log, ok)]

theorem Quiet.refl (s : Retry) : Quiet network s s :=
  ⟨rfl, [], (List.append_nil _).symm, rfl⟩

theorem Quiet.trans (h : Quiet network s s') (h' : Quiet network s' s'') : Quiet network s s'' := by
  obtain ⟨hreceived, new, hlog, hnone⟩ := h
  obtain ⟨hreceived', new', hlog', hnone'⟩ := h'
  refine ⟨hreceived'.trans hreceived, new ++ new', ?_, ?_⟩
  · rw [hlog', hlog, List.append_assoc]
  · rw [attempts_append, hnone, ← hlog, hnone']
    rfl

theorem Attempted.quiet {ok : Bool} (h : Attempted network uninitialised sent s ok s')
    (h' : Quiet network s' s'') : Attempted network uninitialised sent s ok s'' := by
  obtain ⟨hexecuted, new, hlog, hmade⟩ := h
  obtain ⟨hreceived', new', hlog', hnone'⟩ := h'
  refine ⟨hreceived' ▸ hexecuted, new ++ new', ?_, ?_⟩
  · rw [hlog', hlog, List.append_assoc]
  · rw [attempts_append, hmade, ← hlog, hnone']
    rfl

theorem undoLevel_quiet (s : Retry) : Quiet network s (undoLevel s) := by
  unfold undoLevel
  split
  case isTrue hinit => exact ⟨rfl, [.deinit], rfl, rfl⟩
  case isFalse hnot =>
    split
    case isTrue hconnect => exact ⟨rfl, [.closeConnection s.handleData.httpHandle], rfl, rfl⟩
    case isFalse hother => exact .refl s

theorem leave_quiet (s : Retry) (tried : Bool) (step : Int) :
    Quiet network s (s.leave tried step) :=
  ⟨rfl, [], (List.append_nil _).symm, rfl⟩

theorem undoLevel_k (s : Retry) : (undoLevel s).k = s.k := by
  unfold undoLevel
  split
  case isTrue hinit => rfl
  case isFalse hnot => split <;> rfl

theorem executed_of_returned {log : List Event} {received received' received'' : Received} {ok : Bool}
    (hexecuted : (network.httpApi uninitialised).executeRequest log sent received = (ok, received''))
    (hreturned : (network.attempt log).execute uninitialised received = some (ok, received')) :
    received' = received'' := by
  have hcall : (network.httpApi uninitialised).executeRequest log sent received = (ok, received') :=
    congrArg (Option.getD · (false, received)) hreturned
  exact congrArg Prod.snd (hcall.symm.trans hexecuted)

/-- Only at the highest level there is an attempt. -/
inductive LevelTried (network : Network) (uninitialised : Nat → UInt8) (sent : Sent) (s : Retry) :
    Bool × Retry → Prop
  | quiet {ok : Bool} {s' : Retry} : Quiet network s s' → s'.k = s.k → (ok = true → s.k ≠ 2) →
      LevelTried network uninitialised sent s (ok, s')
  | attempted {ok : Bool} {s' : Retry} : Attempted network uninitialised sent s ok s' → s.k = 2 →
      s'.k = s.k → LevelTried network uninitialised sent s (ok, s')

theorem tryLevel_tried (s : Retry) :
    LevelTried network uninitialised sent s (tryLevel (network.httpApi uninitialised) sent s) := by
  unfold tryLevel
  split
  case isTrue hinit =>
    refine .quiet ⟨rfl, [.init ((network.httpApi uninitialised).init s.log)], rfl, rfl⟩ rfl fun _ => ?_
    rw [hinit]
    decide
  case isFalse hnot =>
    split
    case isTrue hconnect =>
      generalize (network.httpApi uninitialised).createConnection s.log s.handleData.hostName =
        httpHandle
      have hcreated : Quiet network s
          (({ s with handleData := { s.handleData with httpHandle := httpHandle } }).record
            (.createConnection httpHandle)) := ⟨rfl, [.createConnection httpHandle], rfl, rfl⟩
      have hbelow : s.k ≠ 2 := by
        rw [hconnect]
        decide
      simp only
      split
      case isTrue hnone => exact .quiet hcreated rfl nofun
      case isFalse hopen =>
        refine .quiet (hcreated.trans ⟨rfl, _, rfl, ?_⟩) rfl fun _ => hbelow
        exact attempts_setOptions _ _ _
    case isFalse hnot' =>
      split
      case isTrue hexecute =>
        exact .attempted ⟨rfl, [.executeRequest s.handleData.httpHandle _], rfl, rfl⟩ hexecute rfl
      case isFalse hother => exact .quiet (.refl s) rfl nofun

/-- What a round does: it has an attempt, which decides whether the loop ends with it, or none. -/
inductive RoundTried (network : Network) (uninitialised : Nat → UInt8) (sent : Sent) (s : Retry) :
    Round → Prop
  | quiet {s' : Retry} : Quiet network s s' → RoundTried network uninitialised sent s (.again s')
  | failed {s' : Retry} : Attempted network uninitialised sent s false s' →
      RoundTried network uninitialised sent s (.again s')
  | succeeded {s' : Retry} : Attempted network uninitialised sent s true s' →
      RoundTried network uninitialised sent s (.done .ok s')
  | ended {s' : Retry} : Quiet network s s' →
      RoundTried network uninitialised sent s (.done .recoveryFailed s')

theorem retryRound_tried (s : Retry) :
    RoundTried network uninitialised sent s
      (retryRound (network.httpApi uninitialised) sent s) := by
  unfold retryRound
  split
  case isTrue hhigh => exact .ended (.refl s)
  case isFalse hlevel =>
    have htried : LevelTried network uninitialised sent s
        (if s.tried then (false, s) else tryLevel (network.httpApi uninitialised) sent s) := by
      split
      case isTrue htried => exact .quiet (.refl s) rfl nofun
      case isFalse hfirst => exact tryLevel_tried s
    generalize (if s.tried then (false, s) else tryLevel (network.httpApi uninitialised) sent s) = r
      at htried
    have hback : ∀ s' : Retry, Quiet network s' (undoLevel (s'.leave false (-1))) := fun s' =>
      (leave_quiet s' false (-1)).trans (undoLevel_quiet _)
    cases htried with
    | @quiet ok s' hquiet hk hbelow =>
      cases ok with
      | true =>
        have hgo : s'.k ≠ 2 := hk ▸ hbelow rfl
        simp only [if_true, if_neg hgo]
        exact .quiet (hquiet.trans ⟨rfl, [], (List.append_nil _).symm, rfl⟩)
      | false =>
        simp only [Bool.false_eq_true, if_false]
        split
        · exact .quiet (hquiet.trans (hback s'))
        · exact .ended (hquiet.trans (hback s'))
    | @attempted ok s' hattempted htop hk =>
      have hk' : s'.k = 2 := hk.trans htop
      cases ok with
      | true =>
        simp only [if_true, if_pos hk']
        exact .succeeded hattempted
      | false =>
        have hlower : (undoLevel (s'.leave false (-1))).k ≥ 0 := by
          have hleft : (s'.leave false (-1)).k = s'.k + -1 := rfl
          rw [undoLevel_k]
          omega
        simp only [Bool.false_eq_true, if_false, if_pos hlower]
        exact .failed (hattempted.quiet (hback s'))

/-- The loop makes its attempts one after the other on the same outputs, and its result is that of
the last one. -/
theorem retryLoop_ran {rounds : Nat} {result : HttpApiExResult}
    (h : retryLoop (network.httpApi uninitialised) sent rounds s = some (result, s')) :
    ∃ new, s'.log = s.log ++ new ∧
      (AllReturn uninitialised s.received (network.attempts s.log new) →
        Ran uninitialised s.received (network.attempts s.log new) (decide (result = .ok))
          s'.received) := by
  induction rounds generalizing s with
  | zero => cases h
  | succ rounds ih =>
    unfold retryLoop at h
    have hround : RoundTried network uninitialised sent s
        (retryRound (network.httpApi uninitialised) sent s) := retryRound_tried s
    generalize retryRound (network.httpApi uninitialised) sent s = round at h hround
    cases hround with
    | quiet hquiet =>
      obtain ⟨new', hlog', hran⟩ := ih h
      obtain ⟨hreceived, new, hlog, hnone⟩ := hquiet
      refine ⟨new ++ new', ?_, ?_⟩
      · rw [hlog', hlog, List.append_assoc]
      · rw [attempts_append, hnone, ← hlog, List.nil_append, ← hreceived]
        exact hran
    | failed hattempted =>
      obtain ⟨new', hlog', hran⟩ := ih h
      obtain ⟨hexecuted, new, hlog, hmade⟩ := hattempted
      refine ⟨new ++ new', ?_, ?_⟩
      · rw [hlog', hlog, List.append_assoc]
      · rw [attempts_append, hmade, ← hlog, List.singleton_append]
        rintro ⟨received', hreturned, hrest⟩
        cases executed_of_returned hexecuted hreturned
        exact .failed hreturned (hran hrest)
    | succeeded hattempted =>
      cases h
      obtain ⟨hexecuted, new, hlog, hmade⟩ := hattempted
      refine ⟨new, hlog, ?_⟩
      rw [hmade]
      rintro ⟨received', hreturned, hrest⟩
      cases executed_of_returned hexecuted hreturned
      exact .succeeded hreturned
    | ended hquiet =>
      cases h
      obtain ⟨hreceived, new, hlog, hnone⟩ := hquiet
      refine ⟨new, hlog, fun _ => ?_⟩
      rw [hnone, hreceived]
      exact .nothing _

end

/-! ## The request -/

section

variable {uninitialised : Nat → UInt8} {network : Network} {s s' : Session} {arguments : Arguments}
variable {alloc : Allocations} {rounds : Nat} {result : HttpApiExResult} {received : Received}

theorem buildAllRequests_fresh {handleData : HandleData} {sent : Sent}
    (hfresh : arguments.FreshOutputs)
    (h : buildAllRequests handleData arguments alloc = some (sent, received)) :
    received = arguments.received := by
  unfold buildAllRequests at h
  split at h
  · cases h
  split at h
  · cases h
  split at h
  · cases h
  rename_i responseHeaders hheaders
  split at h
  · cases h
  rename_i responseContent hcontent
  cases h
  have hheaders' : responseHeaders = [] := by
    rw [← hfresh.headers]
    unfold buildResponseHttpHeadersHandle at hheaders
    cases hgiven : arguments.responseHttpHeadersHandle with
    | some headers =>
      rw [hgiven] at hheaders
      exact (Option.some.inj hheaders).symm
    | none =>
      rw [hgiven] at hheaders
      simp only [Option.ite_none_right_eq_some, Option.some.injEq] at hheaders
      exact hheaders.2.symm
  have hcontent' : responseContent = none := by
    rw [← hfresh.content]
    unfold buildBufferIfNotExist at hcontent
    cases hgiven : arguments.responseContent with
    | some content =>
      rw [hgiven] at hcontent
      exact (Option.some.inj hcontent).symm
    | none =>
      rw [hgiven] at hcontent
      simp only [Option.ite_none_right_eq_some, Option.some.injEq] at hcontent
      exact hcontent.2.symm
  rw [hheaders', hcontent']
  rfl

theorem httpApiExExecuteRequest_ran (hfresh : arguments.FreshOutputs)
    (hrun : httpApiExExecuteRequest (network.httpApi uninitialised) rounds s arguments alloc =
      some (result, some received, s'))
    (hreturn : AllReturn uninitialised arguments.received (network.attemptsBetween s s')) :
    Ran uninitialised arguments.received (network.attemptsBetween s s') (decide (result = .ok))
      received := by
  unfold httpApiExExecuteRequest at hrun
  split at hrun
  · cases hrun
  split at hrun
  · cases hrun
  split at hrun
  · cases hrun
  rename_i handleData hhandle hrequest sent received₀ hbuild
  have hreceived := buildAllRequests_fresh hfresh hbuild
  subst hreceived
  simp only at hrun
  split at hrun
  · cases hrun
  rename_i result' r hloop
  cases hrun
  obtain ⟨new, hlog, hran⟩ := retryLoop_ran hloop
  have hnew : network.attemptsBetween s { handle := some r.handleData, log := r.log } =
      network.attempts s.log new := by
    unfold Network.attemptsBetween
    simp only at hlog ⊢
    rw [hlog, List.drop_left]
  rw [hnew] at hreturn ⊢
  exact hran hreturn

/-- Only the successful attempt is reported if and only if no attempt succeeds alone, or none but the
last stores a header. -/
theorem httpApiExExecuteRequest_onlySuccessReported (hfresh : arguments.FreshOutputs)
    (hrun : httpApiExExecuteRequest (network.httpApi uninitialised) rounds s arguments alloc =
      some (result, some received, s'))
    (hreturn : AllReturn uninitialised arguments.received (network.attemptsBetween s s')) :
    OnlySuccessReported uninitialised (network.attemptsBetween s s') result received ↔
      (∀ a ∈ network.attemptsBetween s s', ¬ a.1.SucceedsAlone uninitialised) ∨
        ∀ a ∈ (network.attemptsBetween s s').dropLast, ¬ a.1.StoresHeader := by
  have hran := httpApiExExecuteRequest_ran hfresh hrun hreturn
  generalize network.attemptsBetween s s' = attempts at hran
  constructor
  case mp =>
    rintro ⟨hnoFailure, houtputs⟩
    by_cases hsome : ∃ a ∈ attempts, a.1.SucceedsAlone uninitialised
    case neg => exact .inl fun a ha hsucceeds => hsome ⟨a, ha, hsucceeds⟩
    case pos =>
      right
      intro b hb hstores
      obtain ⟨⟨a, ended⟩, ha, hsucceeds⟩ := hsome
      have hended : ended = true := hnoFailure _ ha hsucceeds
      subst hended
      have hok := hran.ok_of_mem ha
      obtain ⟨last, hlast, hlonger⟩ := hran.longer hok (.inr ⟨b, hb, hstores⟩)
      obtain ⟨last', alone, hlast', halone, hheaders, hcontent⟩ := houtputs (of_decide_eq_true hok)
      rw [hlast] at hlast'
      cases hlast'
      rw [hheaders, execute_headers halone] at hlonger
      exact hlonger.ne rfl
  case mpr =>
    intro hcondition
    rcases hcondition with hnone | hunstored
    · refine ⟨fun a ha hsucceeds => absurd hsucceeds (hnone a ha), fun hok => ?_⟩
      have hfailed := hran.fails hnone
      rw [hok] at hfailed
      cases hfailed
    · obtain ⟨hnoFailure, houtputs⟩ := hran.alone rfl rfl hunstored
      exact ⟨hnoFailure, fun hok => houtputs (decide_eq_true hok)⟩

end

/-! ## A retried request -/

/-- A first request is answered, the second breaks off within the header lines and is answered when
it is retried. -/
def breakingOff : Network where
  init _ := true
  createConnection _ _ := some 1
  attempt log :=
    { sent := .ok
      connection :=
        { work :=
            if log.countP (fun e => e matches .executeRequest ..) = 1 then
              [.bytes (ascii "HTTP/1.1 200 OK\r\n"), .bytes (ascii "Id: 1\r\n"), .error]
            else [.bytes (ascii "HTTP/1.1 200 OK\r\nId: 2\r\n\r\n")] } }

/-- What the first request leaves. -/
def answered : Session where
  handle := some { hostName := ascii "host", k := 2, httpHandle := some 1 }
  log := [.init true, .createConnection (some 1), .executeRequest (some 1) true]

example : (httpApiExExecuteRequest (breakingOff.httpApi fun _ => 0) 9 (.created (ascii "host"))
    { requestType := 0 } {}).map (fun r => (r.1, r.2.2.log)) = some (.ok, answered.log) := by
  decide +kernel

/-- The calls that the second request makes. -/
def retriedCalls : List Event :=
  [.executeRequest (some 1) false, .closeConnection (some 1), .createConnection (some 1),
    .executeRequest (some 1) true]

theorem breakingOff_run :
    (httpApiExExecuteRequest (breakingOff.httpApi fun _ => 0) 9 answered { requestType := 0 } {}).map
        (fun r => (r.1, r.2.1, r.2.2.log)) =
      some (.ok, some { statusCode := some 200, responseHeaders := [(ascii "Id", ascii "1, 2")] },
        answered.log ++ retriedCalls) := by
  decide +kernel

/-- What the second request gives the caller, and which attempts it has made. -/
theorem breakingOff_answered :
    ∃ s', httpApiExExecuteRequest (breakingOff.httpApi fun _ => 0) 9 answered { requestType := 0 } {} =
        some (.ok, some { statusCode := some 200, responseHeaders := [(ascii "Id", ascii "1, 2")] }, s') ∧
      breakingOff.attemptsBetween answered s' = breakingOff.attempts answered.log retriedCalls := by
  obtain ⟨⟨result, received, s'⟩, hrun, hvalues⟩ := Option.map_eq_some_iff.mp breakingOff_run
  simp only [Prod.mk.injEq] at hvalues
  obtain ⟨rfl, rfl, hlog⟩ := hvalues
  refine ⟨s', hrun, ?_⟩
  unfold Network.attemptsBetween
  rw [hlog, List.drop_left]

theorem breakingOff_return :
    AllReturn (fun _ => 0) {} (breakingOff.attempts answered.log retriedCalls) := by
  refine ⟨{ statusCode := some 200, responseHeaders := [(ascii "Id", ascii "1")] }, ?_,
    { statusCode := some 200, responseHeaders := [(ascii "Id", ascii "1, 2")] }, ?_, trivial⟩
  · decide +kernel
  · decide +kernel

/-- The headers of the successful attempt are merged with those of the failed one. -/
theorem httpApiExExecuteRequest_merged :
    ∃ received s', httpApiExExecuteRequest (breakingOff.httpApi fun _ => 0) 9 answered
        { requestType := 0 } {} = some (.ok, some received, s') ∧
      AllReturn (fun _ => 0) {} (breakingOff.attemptsBetween answered s') ∧
      ¬ OnlySuccessReported (fun _ => 0) (breakingOff.attemptsBetween answered s') .ok received := by
  obtain ⟨s', hrun, hattempts⟩ := breakingOff_answered
  refine ⟨_, s', hrun, ?_, ?_⟩
  · rw [hattempts]
    exact breakingOff_return
  · rw [hattempts]
    rintro ⟨-, houtputs⟩
    obtain ⟨a, alone, hlast, halone, hheaders, -⟩ := houtputs rfl
    have hexpected : ((breakingOff.attempts answered.log retriedCalls).getLast?.bind fun a =>
        a.1.execute (fun _ => 0) {}).map (fun r => r.2.responseHeaders) =
        some [(ascii "Id", ascii "2")] := by
      decide +kernel
    rw [hlast, Option.bind_some, halone, Option.map_some, ← hheaders] at hexpected
    exact absurd hexpected (by decide)

/-- What is said of a request that is retried holds of this one. -/
theorem httpApiExExecuteRequest_breakingOff :
    ∃ received s', httpApiExExecuteRequest (breakingOff.httpApi fun _ => 0) 9 answered
        { requestType := 0 } {} = some (.ok, some received, s') ∧
      (OnlySuccessReported (fun _ => 0) (breakingOff.attemptsBetween answered s') .ok received ↔
        (∀ a ∈ breakingOff.attemptsBetween answered s', ¬ a.1.SucceedsAlone fun _ => 0) ∨
          ∀ a ∈ (breakingOff.attemptsBetween answered s').dropLast, ¬ a.1.StoresHeader) := by
  obtain ⟨s', hrun, hattempts⟩ := breakingOff_answered
  refine ⟨_, s', hrun, ?_⟩
  apply httpApiExExecuteRequest_onlySuccessReported ⟨rfl, rfl⟩ hrun
  rw [hattempts]
  exact breakingOff_return

end SharedUtility.HttpApiEx
