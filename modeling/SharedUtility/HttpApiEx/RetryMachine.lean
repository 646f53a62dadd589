import Mathlib.Data.List.Induction
import SharedUtility.HttpApiEx.Code

/-!
# RetryMachine — the retries end, and leave nothing half open

The level `k` and the flags `st` say how far the connection is: nothing, initialised, connected. Every
round of the loop goes one level up or down, and each level is tried again at most once after each
new attempt at the level below; so `roundsLeft` goes down in every round, and `requestsLeft` bounds
the requests that are still to be made.
-/

namespace SharedUtility.HttpApiEx

/-! ## What has been set up -/

/-- How far the HTTPAPI layer has been set up. -/
inductive Phase
  | down
  | initialised
  | connected (httpHandle : Nat)
  deriving DecidableEq, Repr

/-- The phase after a call; `none` where the call is out of order, or not on the connection that is
open. -/
def Phase.after : Phase → Event → Option Phase
  | .down, .init ok => some (if ok then .initialised else .down)
  | .initialised, .deinit => some .down
  | .initialised, .createConnection none => some .initialised
  | .initialised, .createConnection (some httpHandle) => some (.connected httpHandle)
  | .connected httpHandle, .setOption used _ =>
    if used = some httpHandle then some (.connected httpHandle) else none
  | .connected httpHandle, .executeRequest used _ =>
    if used = some httpHandle then some (.connected httpHandle) else none
  | .connected httpHandle, .closeConnection used =>
    if used = some httpHandle then some .initialised else none
  | _, _ => none

/-- The phase after calls of which none is out of order. -/
def phaseAfter (log : List Event) : Option Phase :=
  log.foldl (fun phase e => phase.bind (Phase.after · e)) (some .down)

def isRequest : Event → Bool
  | .executeRequest .. => true
  | _ => false

/-- How many calls of `HTTPAPI_ExecuteRequest` there have been. -/
def requestCount (log : List Event) : Nat :=
  log.countP isRequest

section

variable {log : List Event} {e : Event} {phase : Phase}

theorem phaseAfter_append (log : List Event) (e : Event) :
    phaseAfter (log ++ [e]) = (phaseAfter log).bind (Phase.after · e) := by
  unfold phaseAfter
  rw [List.foldl_append]
  rfl

theorem phaseAfter_snoc {phase' : Phase} (h : phaseAfter log = some phase)
    (he : phase.after e = some phase') : phaseAfter (log ++ [e]) = some phase' := by
  rw [phaseAfter_append, h]
  exact he

theorem phaseAfter_setOptions {httpHandle : Nat}
    (h : phaseAfter log = some (.connected httpHandle)) (optionNames : List String) :
    phaseAfter (log ++ optionNames.map (.setOption (some httpHandle))) =
      some (.connected httpHandle) := by
  induction optionNames generalizing log with
  | nil =>
    rw [List.map_nil, List.append_nil]
    exact h
  | cons optionName optionNames ih =>
    rw [List.map_cons, List.append_cons]
    apply ih
    exact phaseAfter_snoc h (if_pos rfl)

theorem requestCount_append (log log' : List Event) :
    requestCount (log ++ log') = requestCount log + requestCount log' :=
  List.countP_append

theorem requestCount_setOptions (httpHandle : Option Nat) (optionNames : List String) :
    requestCount (optionNames.map (.setOption httpHandle)) = 0 := by
  induction optionNames with
  | nil => rfl
  | cons optionName optionNames ih => exact ih

/-- What has been set up has been taken down as often, except for what the phase says is still set
up. -/
structure Balanced (log : List Event) (phase : Phase) : Prop where
  initialised : log.count (.init true) = log.count .deinit + if phase = .down then 0 else 1
  connected : ∀ httpHandle, log.count (.createConnection (some httpHandle)) =
    log.count (.closeConnection (some httpHandle)) + if phase = .connected httpHandle then 1 else 0

theorem Balanced.after {phase' : Phase} (h : Balanced log phase) (he : phase.after e = some phase') :
    Balanced (log ++ [e]) phase' := by
  obtain ⟨hinitialised, hconnected⟩ := h
  unfold Phase.after at he
  constructor
  case initialised =>
    rw [List.count_append, List.count_append, hinitialised]
    split at he <;> grind
  case connected =>
    intro httpHandle
    rw [List.count_append, List.count_append, hconnected httpHandle]
    split at he <;> grind

theorem balanced_of_phase (h : phaseAfter log = some phase) : Balanced log phase := by
  induction log using List.reverseRecOn generalizing phase with
  | nil =>
    cases h
    exact ⟨rfl, fun _ => rfl⟩
  | append_singleton log e ih =>
    rw [phaseAfter_append] at h
    obtain ⟨before, hbefore, he⟩ := Option.bind_eq_some_iff.mp h
    exact (ih hbefore).after he

end

/-! ## The rounds of the loop -/

/-- What is set up at a level. -/
def SetUp (handleData : HandleData) (log : List Event) : Nat → Prop
  | 0 => handleData.httpHandle = none ∧ phaseAfter log = some .down
  | 1 => handleData.httpHandle = none ∧ phaseAfter log = some .initialised
  | 2 =>
    ∃ httpHandle, handleData.httpHandle = some httpHandle ∧
      phaseAfter log = some (.connected httpHandle)
  | _ => False

/-- The loop is at a level, and `initTried` and `createTried` are the flags of the levels below. -/
structure AtLevel (s : Retry) (level : Nat) (initTried createTried : Bool) : Prop where
  k : s.handleData.k = level
  st : s.st = [initTried, createTried, false]
  setUp : SetUp s.handleData s.log level

/-- A bound on the rounds that the loop still takes. -/
def roundsLeft (level : Nat) (initTried createTried : Bool) : Nat :=
  (if initTried then 0 else 4) +
    match level with
    | 0 => 1
    | 1 => if createTried then 2 else 4
    | _ => if createTried then 3 else 5

/-- A bound on the requests that the loop still makes. -/
def requestsLeft (level : Nat) (initTried createTried : Bool) : Nat :=
  (if initTried then 0 else 1) +
    match level with
    | 0 => 0
    | 1 => if createTried then 0 else 1
    | _ => if createTried then 1 else 2

/-- The loop has ended with the connection open, or with everything closed. -/
inductive Ended (s : Retry) : HttpApiExResult → Prop
  | ok : s.handleData.k = 2 → SetUp s.handleData s.log 2 → Ended s .ok
  | recoveryFailed : s.handleData.k = -1 → SetUp s.handleData s.log 0 → Ended s .recoveryFailed

/-- What a round has made of a level. -/
inductive RoundEnds (requests rounds : Nat) : Round → Prop
  | again {s : Retry} (level : Nat) {initTried createTried : Bool} :
      AtLevel s level initTried createTried →
      roundsLeft level initTried createTried < rounds →
      requestCount s.log + requestsLeft level initTried createTried ≤ requests →
      RoundEnds requests rounds (.again s)
  | done {s : Retry} {result : HttpApiExResult} :
      Ended s result → requestCount s.log ≤ requests → RoundEnds requests rounds (.done result s)

section

variable {api : HttpApi} {sent : Sent} {s : Retry} {initTried createTried : Bool}

theorem retryRound_init (hs : AtLevel s 0 initTried createTried) :
    RoundEnds (requestCount s.log + requestsLeft 0 initTried createTried)
      (roundsLeft 0 initTried createTried) (retryRound api sent s) := by
  obtain ⟨⟨hostName, k, httpHandle, savedOptions⟩, st, received, log⟩ := s
  obtain ⟨hk, hst, hhandle, hphase⟩ := hs
  simp only at hk hst hhandle hphase
  subst hk hst hhandle
  cases initTried with
  | true => exact .done (.recoveryFailed rfl ⟨rfl, hphase⟩) (Nat.le_add_right _ _)
  | false =>
    have hcount : ∀ ok, requestCount (log ++ [.init ok]) = requestCount log := fun ok =>
      requestCount_append log _
    cases hok : api.init log with
    | true =>
      have hround : retryRound api sent
          ⟨⟨hostName, 0, none, savedOptions⟩, [false, createTried, false], received, log⟩ =
          .again ⟨⟨hostName, 1, none, savedOptions⟩, [true, false, false], received,
            log ++ [.init true]⟩ := by
        simp [retryRound, Retry.k, Retry.tried, tryLevel, hok, Retry.record, Retry.leave,
          Retry.clear]
      refine hround ▸ .again 1 ⟨rfl, rfl, rfl, phaseAfter_snoc hphase rfl⟩ ?_ ?_
      · cases createTried <;> decide
      · rw [hcount]
        exact Nat.le_refl _
    | false =>
      have hround : retryRound api sent
          ⟨⟨hostName, 0, none, savedOptions⟩, [false, createTried, false], received, log⟩ =
          .done .recoveryFailed ⟨⟨hostName, -1, none, savedOptions⟩,
            [false, createTried, false], received, log ++ [.init false]⟩ := by
        simp [retryRound, Retry.k, Retry.tried, tryLevel, hok, Retry.record, Retry.leave,
          undoLevel]
      refine hround ▸ .done (.recoveryFailed rfl ⟨rfl, phaseAfter_snoc hphase rfl⟩) ?_
      rw [hcount]
      exact Nat.le_add_right _ _

/-- From the middle level the loop connects, or it goes back and undoes the initialisation. -/
theorem retryRound_create (hs : AtLevel s 1 initTried createTried) :
    RoundEnds (requestCount s.log + requestsLeft 1 initTried createTried)
      (roundsLeft 1 initTried createTried) (retryRound api sent s) := by
  obtain ⟨⟨hostName, k, httpHandle, savedOptions⟩, st, received, log⟩ := s
  obtain ⟨hk, hst, hhandle, hphase⟩ := hs
  simp only at hk hst hhandle hphase
  subst hk hst hhandle
  cases createTried with
  | true =>
    have hround : retryRound api sent
        ⟨⟨hostName, 1, none, savedOptions⟩, [initTried, true, false], received, log⟩ =
        .again ⟨⟨hostName, 0, none, savedOptions⟩, [initTried, false, false], received,
          log ++ [.deinit]⟩ := by
      simp [retryRound, Retry.k, Retry.tried, Retry.record, Retry.leave, undoLevel]
    refine hround ▸ .again 0 ⟨rfl, rfl, rfl, phaseAfter_snoc hphase rfl⟩ ?_ ?_
    · cases initTried <;> decide
    · rw [requestCount_append]
      exact Nat.le_refl _
  | false =>
    cases hcreated : api.createConnection log hostName with
    | none =>
      have hround : retryRound api sent
          ⟨⟨hostName, 1, none, savedOptions⟩, [initTried, false, false], received, log⟩ =
          .again ⟨⟨hostName, 0, none, savedOptions⟩, [initTried, false, false], received,
            log ++ [.createConnection none] ++ [.deinit]⟩ := by
        simp [retryRound, Retry.k, Retry.tried, tryLevel, hcreated, Retry.record, Retry.leave,
          undoLevel]
      have hphase' := phaseAfter_snoc hphase (e := .createConnection none) rfl
      refine hround ▸ .again 0 ⟨rfl, rfl, rfl, phaseAfter_snoc hphase' rfl⟩ ?_ ?_
      · cases initTried <;> decide
      · rw [requestCount_append, requestCount_append]
        cases initTried <;> simp [requestsLeft, requestCount, isRequest]
    | some httpHandle =>
      have hround : retryRound api sent
          ⟨⟨hostName, 1, none, savedOptions⟩, [initTried, false, false], received, log⟩ =
          .again ⟨⟨hostName, 2, some httpHandle, savedOptions⟩, [initTried, true, false],
            received, log ++ [.createConnection (some httpHandle)] ++
              savedOptions.map (.setOption (some httpHandle))⟩ := by
        simp [retryRound, Retry.k, Retry.tried, tryLevel, hcreated, Retry.record, Retry.leave,
          Retry.clear, Retry.setOptions]
      have hphase' := phaseAfter_snoc hphase (e := .createConnection (some httpHandle)) rfl
      refine hround ▸ .again 2
        ⟨rfl, rfl, httpHandle, rfl, phaseAfter_setOptions hphase' savedOptions⟩ ?_ ?_
      · cases initTried <;> decide
      · rw [requestCount_append, requestCount_append, requestCount_setOptions]
        cases initTried <;> simp [requestsLeft, requestCount, isRequest]

theorem retryRound_execute (hs : AtLevel s 2 initTried createTried) :
    RoundEnds (requestCount s.log + requestsLeft 2 initTried createTried)
      (roundsLeft 2 initTried createTried) (retryRound api sent s) := by
  obtain ⟨⟨hostName, k, httpHandle, savedOptions⟩, st, received, log⟩ := s
  obtain ⟨hk, hst, opened, hhandle, hphase⟩ := hs
  simp only at hk hst hhandle hphase
  subst hk hst hhandle
  have hphase' : ∀ ok, phaseAfter (log ++ [.executeRequest (some opened) ok]) =
      some (.connected opened) := fun ok => phaseAfter_snoc hphase (if_pos rfl)
  have hcount : ∀ ok, requestCount (log ++ [.executeRequest (some opened) ok]) =
      requestCount log + 1 := fun ok => requestCount_append log _
  cases hok : (api.executeRequest log sent received).1 with
  | true =>
    have hround : retryRound api sent ⟨⟨hostName, 2, some opened, savedOptions⟩,
        [initTried, createTried, false], received, log⟩ =
        .done .ok ⟨⟨hostName, 2, some opened, savedOptions⟩, [initTried, createTried, false],
          (api.executeRequest log sent received).2,
          log ++ [.executeRequest (some opened) true]⟩ := by
      simp [retryRound, Retry.k, Retry.tried, tryLevel, hok, Retry.record]
    refine hround ▸ .done (.ok rfl ⟨opened, rfl, hphase' true⟩) ?_
    rw [hcount]
    cases initTried <;> cases createTried <;> simp [requestsLeft]
  | false =>
    have hround : retryRound api sent ⟨⟨hostName, 2, some opened, savedOptions⟩,
        [initTried, createTried, false], received, log⟩ =
        .again ⟨⟨hostName, 1, none, savedOptions⟩, [initTried, createTried, false],
          (api.executeRequest log sent received).2,
          log ++ [.executeRequest (some opened) false] ++ [.closeConnection (some opened)]⟩ := by
      simp [retryRound, Retry.k, Retry.tried, tryLevel, hok, Retry.record, Retry.leave, undoLevel]
    have hclosed := phaseAfter_snoc (hphase' false) (e := .closeConnection (some opened))
      (if_pos rfl)
    refine hround ▸ .again 1 ⟨rfl, rfl, rfl, hclosed⟩ ?_ ?_
    · cases initTried <;> cases createTried <;> decide
    · rw [requestCount_append, hcount]
      cases initTried <;> cases createTried <;> simp [requestsLeft, requestCount, isRequest]

theorem retryLoop_ends (api : HttpApi) (sent : Sent) (level rounds : Nat)
    (hs : AtLevel s level initTried createTried)
    (hrounds : roundsLeft level initTried createTried ≤ rounds) :
    ∃ result s', retryLoop api sent rounds s = some (result, s') ∧ Ended s' result ∧
      requestCount s'.log ≤ requestCount s.log + requestsLeft level initTried createTried := by
  induction rounds generalizing s level initTried createTried with
  | zero =>
    exfalso
    unfold roundsLeft at hrounds
    split at hrounds <;> grind
  | succ rounds ih =>
    have hround : RoundEnds (requestCount s.log + requestsLeft level initTried createTried)
        (roundsLeft level initTried createTried) (retryRound api sent s) := by
      match level, hs with
      | 0, hs => exact retryRound_init hs
      | 1, hs => exact retryRound_create hs
      | 2, hs => exact retryRound_execute hs
      | level + 3, hs => exact absurd hs.setUp id
    unfold retryLoop
    generalize retryRound api sent s = round at hround
    cases hround with
    | again level hs' hless hrequests =>
      obtain ⟨result, s', hloop, hended, hcount⟩ := ih _ hs' (by omega)
      exact ⟨result, s', hloop, hended, by omega⟩
    | done hended hrequests => exact ⟨_, _, rfl, hended, hrequests⟩

end

/-! ## Calls on a handle -/

inductive Call
  | executeRequest (arguments : Arguments) (alloc : Allocations)
  | setOption (optionName : Option String) (valueGiven : Bool) (outcomes : OptionOutcomes)
  | destroy

/-- A call, with the result of a request. -/
def Session.call (api : HttpApi) (rounds : Nat) (s : Session) :
    Call → Option (Option HttpApiExResult × Session)
  | .executeRequest arguments alloc =>
    (httpApiExExecuteRequest api rounds s arguments alloc).map fun r => (some r.1, r.2.2)
  | .setOption optionName valueGiven outcomes =>
    let r := httpApiExSetOption s optionName valueGiven outcomes
    some (some r.1, r.2)
  | .destroy => some (none, httpApiExDestroy s)

/-- The request is made: the handle and the request type are valid, and the request can be built. -/
def Session.entersRetries (s : Session) (arguments : Arguments) (alloc : Allocations) : Bool :=
  match s.handle with
  | none => false
  | some handleData =>
    decide (arguments.requestType < requestTypeCount) &&
      (buildAllRequests handleData arguments alloc).isSome

/-- What is set up between the calls on a handle. -/
inductive Ready (s : Session) : Prop
  /-- There is no connection, and nothing is initialised. -/
  | closed {handleData : HandleData} :
      s.handle = some handleData → handleData.k = -1 → SetUp handleData s.log 0 → Ready s
  /-- The connection is open, and is kept for the next request. -/
  | kept {handleData : HandleData} :
      s.handle = some handleData → handleData.k = 2 → SetUp handleData s.log 2 → Ready s
  | destroyed : s.handle = none → phaseAfter s.log = some .down → Ready s

/-- What a call returns and leaves. -/
inductive CallKept (s s' : Session) : Call → Option HttpApiExResult → Prop
  /-- The request has succeeded, and the connection is open. -/
  | ok {arguments : Arguments} {alloc : Allocations} {handleData : HandleData} :
      s.entersRetries arguments alloc = true → s'.handle = some handleData → handleData.k = 2 →
      SetUp handleData s'.log 2 → requestCount s'.log ≤ requestCount s.log + 3 →
      CallKept s s' (.executeRequest arguments alloc) (some .ok)
  /-- The request has failed, and everything is closed. -/
  | recoveryFailed {arguments : Arguments} {alloc : Allocations} {handleData : HandleData} :
      s.entersRetries arguments alloc = true → s'.handle = some handleData → handleData.k = -1 →
      SetUp handleData s'.log 0 → requestCount s'.log ≤ requestCount s.log + 3 →
      CallKept s s' (.executeRequest arguments alloc) (some .recoveryFailed)
  /-- The request has been rejected, and nothing has been done. -/
  | rejected {arguments : Arguments} {alloc : Allocations} {result : HttpApiExResult} :
      s.entersRetries arguments alloc = false → s' = s → result = .invalidArg ∨ result = .error →
      CallKept s s' (.executeRequest arguments alloc) (some result)
  | optionSet {optionName : Option String} {valueGiven : Bool} {outcomes : OptionOutcomes}
      {result : HttpApiExResult} :
      requestCount s'.log = requestCount s.log →
      CallKept s s' (.setOption optionName valueGiven outcomes) (some result)
  | destroyed :
      s'.handle = none → phaseAfter s'.log = some .down → CallKept s s' .destroy none

section

variable {api : HttpApi} {s : Session}

theorem Ready.atLevel (hs : Ready s) {handleData : HandleData} (hhandle : s.handle = some handleData)
    (received : Received) :
    ∃ level, requestsLeft level false false ≤ 3 ∧ roundsLeft level false false ≤ 9 ∧
      AtLevel
        { handleData := if handleData.k = -1 then { handleData with k := 0 } else handleData
          received := received
          log := s.log }
        level false false := by
  cases hs with
  | closed hhandle' hk hsetUp =>
    cases hhandle.symm.trans hhandle'
    refine ⟨0, by decide, by decide, ?_⟩
    rw [if_pos hk]
    exact ⟨rfl, rfl, hsetUp⟩
  | kept hhandle' hk hsetUp =>
    cases hhandle.symm.trans hhandle'
    refine ⟨2, by decide, by decide, ?_⟩
    rw [if_neg (by omega)]
    exact ⟨hk, rfl, hsetUp⟩
  | destroyed hnone hphase =>
    rw [hnone] at hhandle
    cases hhandle

theorem executeRequest_kept (hs : Ready s) (arguments : Arguments) (alloc : Allocations)
    (rounds : Nat) :
    ∃ result s', s.call api (rounds + 9) (.executeRequest arguments alloc) = some (result, s') ∧
      CallKept s s' (.executeRequest arguments alloc) result ∧ Ready s' := by
  simp only [Session.call, httpApiExExecuteRequest]
  cases hhandle : s.handle with
  | none =>
    refine ⟨_, _, rfl, .rejected ?_ rfl (.inl rfl), hs⟩
    simp only [Session.entersRetries, hhandle]
  | some handleData =>
    simp only
    by_cases htype : arguments.requestType ≥ requestTypeCount
    · rw [if_pos htype]
      refine ⟨_, _, rfl, .rejected ?_ rfl (.inl rfl), hs⟩
      simp only [Session.entersRetries, hhandle, Nat.not_lt.mpr htype, decide_false,
        Bool.false_and]
    · rw [if_neg htype]
      have hvalid : arguments.requestType < requestTypeCount := Nat.not_le.mp htype
      cases hbuilt : buildAllRequests handleData arguments alloc with
      | none =>
        refine ⟨_, _, rfl, .rejected ?_ rfl (.inr rfl), hs⟩
        simp only [Session.entersRetries, hhandle, hbuilt, Option.isSome_none, Bool.and_false]
      | some built =>
        obtain ⟨sent, received⟩ := built
        have henters : s.entersRetries arguments alloc = true := by
          simp only [Session.entersRetries, hhandle, hbuilt, Option.isSome_some, hvalid,
            decide_true, Bool.and_self]
        obtain ⟨level, hrequests, hrounds, hlevel⟩ := hs.atLevel hhandle received
        obtain ⟨result, r, hloop, hended, hcount⟩ :=
          retryLoop_ends api sent level (rounds + 9) hlevel (by omega)
        simp only [hloop, Option.map_some]
        have hbound : requestCount r.log ≤ requestCount s.log + 3 := by
          simp only at hcount
          omega
        cases hended with
        | ok hk hsetUp =>
          exact ⟨_, _, rfl, .ok henters rfl hk hsetUp hbound, .kept rfl hk hsetUp⟩
        | recoveryFailed hk hsetUp =>
          exact ⟨_, _, rfl, .recoveryFailed henters rfl hk hsetUp hbound,
            .closed rfl hk hsetUp⟩

theorem Ready.setHandle (hs : Ready s) {handleData handleData' : HandleData} {log : List Event}
    (hhandle : s.handle = some handleData) (hk : handleData'.k = handleData.k)
    (hsetUp : ∀ level, SetUp handleData s.log level → SetUp handleData' log level) :
    Ready { handle := some handleData', log := log } := by
  cases hs with
  | closed hhandle' hk' hclosed =>
    cases hhandle.symm.trans hhandle'
    exact .closed rfl (hk.trans hk') (hsetUp 0 hclosed)
  | kept hhandle' hk' hkept =>
    cases hhandle.symm.trans hhandle'
    exact .kept rfl (hk.trans hk') (hsetUp 2 hkept)
  | destroyed hnone hphase =>
    rw [hnone] at hhandle
    cases hhandle

theorem setOption_ready (hs : Ready s) (optionName : Option String) (valueGiven : Bool)
    (outcomes : OptionOutcomes) :
    Ready (httpApiExSetOption s optionName valueGiven outcomes).2 ∧
      requestCount (httpApiExSetOption s optionName valueGiven outcomes).2.log =
        requestCount s.log := by
  unfold httpApiExSetOption
  split
  case h_1 handleData optionName hhandle =>
    split
    · exact ⟨hs, rfl⟩
    split
    · exact ⟨hs, rfl⟩
    split
    · exact ⟨hs, rfl⟩
    generalize hsaved : (if optionName ∈ handleData.savedOptions then handleData
      else { handleData with savedOptions := handleData.savedOptions ++ [optionName] }) = handleData'
    have hk : handleData'.k = handleData.k := by
      rw [← hsaved]
      split <;> rfl
    have hsame : handleData'.httpHandle = handleData.httpHandle := by
      rw [← hsaved]
      split <;> rfl
    simp only
    split
    case isTrue hopen =>
      constructor
      · apply hs.setHandle hhandle hk
        intro level hsetUp
        match level, hsetUp with
        | 0, hsetUp => exact absurd (hsame.trans hsetUp.1) hopen
        | 1, hsetUp => exact absurd (hsame.trans hsetUp.1) hopen
        | 2, ⟨httpHandle, hopened, hphase⟩ =>
          refine ⟨httpHandle, hsame.trans hopened, phaseAfter_snoc hphase ?_⟩
          exact if_pos (hsame.trans hopened)
      · exact requestCount_append s.log _
    case isFalse hnone =>
      refine ⟨?_, rfl⟩
      apply hs.setHandle hhandle hk
      intro level hsetUp
      match level, hsetUp with
      | 0, hsetUp => exact ⟨hsame.trans hsetUp.1, hsetUp.2⟩
      | 1, hsetUp => exact ⟨hsame.trans hsetUp.1, hsetUp.2⟩
      | 2, ⟨httpHandle, hopened, hphase⟩ => exact ⟨httpHandle, hsame.trans hopened, hphase⟩
  case h_2 => exact ⟨hs, rfl⟩

theorem destroy_down (hs : Ready s) :
    (httpApiExDestroy s).handle = none ∧ phaseAfter (httpApiExDestroy s).log = some .down := by
  unfold httpApiExDestroy
  cases hs with
  | closed hhandle hk hsetUp =>
    simp only [hhandle, hk]
    exact ⟨rfl, hsetUp.2⟩
  | kept hhandle hk hsetUp =>
    obtain ⟨httpHandle, hopened, hphase⟩ := hsetUp
    simp only [hhandle, hk, if_pos, hopened]
    refine ⟨trivial, ?_⟩
    rw [List.append_cons]
    exact phaseAfter_snoc (phaseAfter_snoc hphase (if_pos rfl)) rfl
  | destroyed hnone hphase =>
    simp only [hnone]
    exact ⟨trivial, hphase⟩

theorem call_kept (hs : Ready s) (c : Call) (rounds : Nat) :
    ∃ result s', s.call api (rounds + 9) c = some (result, s') ∧ CallKept s s' c result ∧
      Ready s' := by
  cases c with
  | executeRequest arguments alloc => exact executeRequest_kept hs arguments alloc rounds
  | setOption optionName valueGiven outcomes =>
    obtain ⟨hready, hcount⟩ := setOption_ready hs optionName valueGiven outcomes
    exact ⟨_, _, rfl, .optionSet hcount, hready⟩
  | destroy =>
    obtain ⟨hnone, hdown⟩ := destroy_down hs
    exact ⟨_, _, rfl, .destroyed hnone hdown, .destroyed hnone hdown⟩

theorem Ready.phase (hs : Ready s) : ∃ phase, phaseAfter s.log = some phase := by
  cases hs with
  | closed hhandle hk hsetUp => exact ⟨_, hsetUp.2⟩
  | kept hhandle hk hsetUp =>
    obtain ⟨httpHandle, hopened, hphase⟩ := hsetUp
    exact ⟨_, hphase⟩
  | destroyed hnone hphase => exact ⟨_, hphase⟩

/-- Before the calls and after each of them the handle is ready, no call of the HTTPAPI layer has been
out of order or on a connection that is not open, and all of them are matched; and every call
returns and keeps what it should. -/
def RetryMachineKept (api : HttpApi) (rounds : Nat) : Session → List Call → Prop
  | s, [] => Ready s ∧ ∃ phase, phaseAfter s.log = some phase ∧ Balanced s.log phase
  | s, c :: calls =>
    (Ready s ∧ ∃ phase, phaseAfter s.log = some phase ∧ Balanced s.log phase) ∧
      ∃ result s', s.call api rounds c = some (result, s') ∧ CallKept s s' c result ∧
        RetryMachineKept api rounds s' calls

theorem retryMachineKept_of_ready (hs : Ready s) (calls : List Call) (rounds : Nat) :
    RetryMachineKept api (rounds + 9) s calls := by
  obtain ⟨phase, hphase⟩ := hs.phase
  have hready : Ready s ∧ ∃ phase, phaseAfter s.log = some phase ∧ Balanced s.log phase :=
    ⟨hs, phase, hphase, balanced_of_phase hphase⟩
  induction calls generalizing s phase with
  | nil => exact hready
  | cons c calls ih =>
    obtain ⟨result, s', hcall, hkept, hs'⟩ := call_kept hs c rounds
    obtain ⟨phase', hphase'⟩ := hs'.phase
    exact ⟨hready, result, s', hcall, hkept,
      ih hs' phase' hphase' ⟨hs', phase', hphase', balanced_of_phase hphase'⟩⟩

/-- A handle from its creation on, whatever the HTTPAPI layer does: nine rounds of the loop are
enough. -/
theorem retryMachine_kept (api : HttpApi) (hostName : Bytes) (calls : List Call) (rounds : Nat) :
    RetryMachineKept api (rounds + 9) (Session.created hostName) calls := by
  apply retryMachineKept_of_ready
  exact .closed rfl rfl ⟨rfl, rfl⟩

end

end SharedUtility.HttpApiEx
