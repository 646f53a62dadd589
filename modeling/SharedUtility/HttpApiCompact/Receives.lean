import SharedUtility.HttpApiCompact.Silence

/-!
# Receives — where a request calls `conn_receive`

`conn_receive` is the loop without a counter. A request calls it behind the header lines only: for a
body of `Content-Length` bytes, for the data of a chunk, and for the two bytes behind a chunk.

* `Receives` — the calls that a computation adds to the history,
* `ChunkReceives`, `BodyReceives` — the calls for a body.
-/

namespace SharedUtility.HttpApiCompact

/-- A call of `conn_receive`: for how many bytes, and the exchange at that time. -/
abbrev Receive := Nat × Connection × List XioCall

/-- The calls that a computation adds to the history are such ones. -/
def Receives {α : Type} (P : List Receive → Prop) (p : ExchangeM α) (e : Exchange) : Prop :=
  ∃ calls, (p e).2.receives = e.receives ++ calls ∧ P calls

/-- A computation that does not call `conn_receive`. -/
def Quiet {α : Type} (p : ExchangeM α) : Prop :=
  ∀ e, (p e).2.receives = e.receives

section

variable {α β : Type} {P : List Receive → Prop} {p : ExchangeM α} {f : α → ExchangeM β}
variable {e : Exchange} {first : List Receive}

theorem Quiet.pure (a : α) : Quiet (Pure.pure a : ExchangeM α) :=
  fun _ => rfl

theorem Quiet.update (f : Connection → Connection) : Quiet (HttpApiCompact.update f) :=
  fun _ => rfl

theorem Quiet.xioCall : Quiet HttpApiCompact.xioCall :=
  fun e => (Exchange.called_noted e).receives

theorem Quiet.bind (hp : Quiet p) (hf : ∀ a, Quiet (f a)) : Quiet (p >>= f) := by
  intro e
  have hfirst := hp e
  rw [run_bind]
  rcases hrun : p e with ⟨a | a, e'⟩
  · rw [hrun] at hfirst
    exact hfirst
  · rw [hrun] at hfirst
    exact (hf a e').trans hfirst

theorem Quiet.waitLoop {round : β → Exchange → Wait α β × Exchange} {timeout : α}
    (hround : ∀ b e, (round b e).2.receives = e.receives) (countRetry : Nat) (b : β) :
    Quiet (HttpApiCompact.waitLoop round timeout countRetry b) := by
  induction countRetry generalizing b with
  | zero =>
    intro e
    have hfirst := hround b e
    unfold HttpApiCompact.waitLoop
    rcases hrun : round b e with ⟨a | b', e'⟩ <;> rw [hrun] at hfirst <;> exact hfirst
  | succ countRetry ih =>
    intro e
    have hfirst := hround b e
    unfold HttpApiCompact.waitLoop
    rcases hrun : round b e with ⟨a | b', e'⟩
    · rw [hrun] at hfirst
      exact hfirst
    · rw [hrun] at hfirst
      exact (ih b' e'.slept).trans hfirst

theorem Quiet.receives (hp : Quiet p) (hnone : P []) : Receives P p e :=
  ⟨[], by rw [hp e, List.append_nil], hnone⟩

theorem Receives.bind (hp : (p e).2.receives = e.receives ++ first)
    (hbroken : (p e).1 = none → P first)
    (hf : ∀ a e', p e = (some a, e') → Receives (fun calls => P (first ++ calls)) (f a) e') :
    Receives P (p >>= f) e := by
  unfold Receives
  rw [run_bind]
  rcases hrun : p e with ⟨a | a, e'⟩
  · rw [hrun] at hp hbroken
    exact ⟨first, hp, hbroken rfl⟩
  · rw [hrun] at hp
    obtain ⟨calls, hcalls, hP⟩ := hf a e' hrun
    refine ⟨first ++ calls, ?_, hP⟩
    simp only at hp
    rw [hcalls, hp, List.append_assoc]

theorem Quiet.bindReceives (hp : Quiet p) (hnone : P [])
    (hf : ∀ a e', p e = (some a, e') → Receives P (f a) e') : Receives P (p >>= f) e :=
  Receives.bind (by rw [hp e, List.append_nil]) (fun _ => hnone) hf

end

namespace Exchange

/-! ## The parts without `conn_receive` -/

section

theorem setOption_quiet (given : Bool) : Quiet (setOption given) := by
  unfold setOption
  split
  · exact .xioCall
  · exact .pure true

theorem unless_quiet {p : ExchangeM Bool} {failure : HttpApiResult} {rest : ExchangeM HttpApiResult}
    (hp : Quiet p) (hrest : Quiet rest) :
    Quiet (do if !(← p) then return failure else rest) := by
  apply hp.bind
  intro ok
  split
  · exact .pure _
  · exact hrest

theorem andThen_quiet {p rest : ExchangeM HttpApiResult} (hp : Quiet p) (hrest : Quiet rest) :
    Quiet (do
      let result ← p
      if result != .ok then return result
      rest) := by
  apply hp.bind
  intro result
  split
  · exact .pure _
  · exact hrest

theorem openXioConnection_quiet : Quiet openXioConnection := by
  have hopen (c : Connection) : Quiet (openConnection c) := by
    refine Quiet.bind (.update _) fun _ => ?_
    refine unless_quiet (setOption_quiet _) ?_
    refine unless_quiet (setOption_quiet _) ?_
    refine unless_quiet (setOption_quiet _) ?_
    refine unless_quiet .xioCall ?_
    exact .waitLoop (fun b e => (openRound_countsDown.noted b e).receives) _ ()
  have hchecked (p : ExchangeM HttpApiResult) (hp : Quiet p) : Quiet (do
      let result ← p
      let c ← readConnection
      if c.isIoError && result == .ok then return .openRequestFailed
      return result) := by
    refine hp.bind fun result => ?_
    refine Quiet.bind (fun _ => rfl) fun c => ?_
    split <;> exact .pure _
  refine Quiet.bind (fun _ => rfl) fun c => ?_
  dsimp only
  split
  · exact hchecked _ (.pure _)
  · exact hchecked _ (hopen c)

theorem connSendAll_quiet (buf : Bytes) : Quiet (connSendAll buf) := by
  refine Quiet.bind (.update _) fun _ => ?_
  refine Quiet.bind (fun _ => rfl) fun _ => ?_
  refine unless_quiet .xioCall ?_
  exact .waitLoop (fun b e => (sendRound_countsDown.noted b e).receives) _ ()

theorem sendHeaders_quiet (headers : List (Option Bytes)) : Quiet (sendHeaders headers) := by
  induction headers with
  | nil => exact .pure _
  | cons header headers ih =>
    cases header with
    | none => exact .pure _
    | some header => exact andThen_quiet (connSendAll_quiet _) (andThen_quiet (connSendAll_quiet _) ih)

theorem sendHeadsToXio_quiet (requestType : Nat) (relativePath : Bytes)
    (headers : List (Option Bytes)) : Quiet (sendHeadsToXio requestType relativePath headers) := by
  unfold sendHeadsToXio
  dsimp only
  split
  · exact .pure _
  · exact andThen_quiet (connSendAll_quiet _)
      (andThen_quiet (sendHeaders_quiet headers) (connSendAll_quiet _))

theorem sendContentToXio_quiet (content : Option Bytes) : Quiet (sendContentToXio content) := by
  unfold sendContentToXio
  split
  · exact connSendAll_quiet _
  · exact .pure _

theorem readLine_quiet (maxBufSize : Nat) : Quiet (readLine maxBufSize) :=
  .waitLoop (fun b e => ((readLineRound_countsDown maxBufSize).noted b e).receives) _ []

theorem skipN_quiet (n : Nat) : Quiet (skipN n) := by
  unfold skipN
  split
  · exact .pure _
  · exact Quiet.bind (.waitLoop (fun b e => (skipRound_countsDown.noted b e).receives) _ n)
      fun _ => .pure _

variable {Headers : Type} (addHeaderNameValuePair : Headers → Bytes → Bytes → Headers)

theorem receiveHeaderFromXio_quiet (maxReasonPhraseSize : Nat) (response : Response Headers) :
    Quiet (receiveHeaderFromXio maxReasonPhraseSize response) := by
  refine Quiet.bind (.update _) fun _ => ?_
  refine Quiet.bind (readLine_quiet _) fun line => ?_
  cases line with
  | none => exact .pure _
  | some buf =>
    simp only
    split <;> exact .pure _

theorem receiveContentInfoLoop_quiet (rounds : Nat) (buf : Bytes) (info : ContentInfo)
    (response : Response Headers) :
    Quiet (receiveContentInfoLoop addHeaderNameValuePair rounds buf info response) := by
  induction rounds generalizing buf info response with
  | zero => exact fun _ => rfl
  | succ rounds ih =>
    unfold receiveContentInfoLoop
    split
    · exact .pure _
    · cases contentInfoOf buf info with
      | none => exact .pure _
      | some info =>
        refine Quiet.bind (readLine_quiet _) fun line => ?_
        cases line with
        | none => exact .pure _
        | some buf => exact ih _ _ _

theorem receiveContentInfoFromXio_quiet (response : Response Headers) :
    Quiet (receiveContentInfoFromXio addHeaderNameValuePair response) := by
  refine Quiet.bind (.update _) fun _ => ?_
  refine Quiet.bind (readLine_quiet _) fun line => ?_
  cases line with
  | none => exact .pure _
  | some buf =>
    refine Quiet.bind (fun _ => rfl) fun rounds => ?_
    exact receiveContentInfoLoop_quiet addHeaderNameValuePair rounds _ _ _

end

/-! ## `conn_receive` -/

section

/-- The call of `conn_receive` for so many bytes of a buffer; none if the number is not positive as an
`int`. -/
def receivesFor (size : Nat) (e : Exchange) : List Receive :=
  if 0 < intOfSizeT size then [((intOfSizeT size).toNat, e.toConnection, e.script)] else []

variable {e : Exchange}

/-- What `conn_receive` returns. -/
theorem connReceiveLoop_result {count : Nat} {script : List XioCall} {r : Int × Bytes}
    (h : (connReceiveLoop count script e).1 = some r) : r.1 = -1 ∨ r.1 = count := by
  have hround {e e' : Exchange} (h : connReceiveRound count e = (.done r, e')) :
      r.1 = -1 ∨ r.1 = count := by
    unfold connReceiveRound at h
    simp only at h
    split at h
    · cases h
      exact .inl rfl
    · split at h
      · cases h
        exact .inr rfl
      · cases h
  induction script generalizing e with
  | nil =>
    unfold connReceiveLoop at h
    rcases hrun : connReceiveRound count e with ⟨r' | b, e'⟩
    · rw [hrun] at h
      cases h
      exact hround hrun
    · rw [hrun] at h
      cases h
  | cons call script ih =>
    unfold connReceiveLoop at h
    rcases hrun : connReceiveRound count e with ⟨r' | b, e'⟩
    · rw [hrun] at h
      cases h
      exact hround hrun
    · rw [hrun] at h
      exact ih h

theorem connReceive_receives (size : Nat) (e : Exchange) :
    (connReceive (intOfSizeT size) e).2.receives = e.receives ++ receivesFor size e ∧
      ∀ r, (connReceive (intOfSizeT size) e).1 = some r → 0 < r.1 → r.1 = intOfSizeT size := by
  unfold connReceive receivesFor
  by_cases hpos : 0 < intOfSizeT size
  case pos =>
    rw [if_neg (by omega), if_neg (by omega), if_pos hpos]
    have hends : ReceiveEnds (intOfSizeT size).toNat _ _ := connReceiveLoop_ends (e := { e with
      receives := e.receives ++ [((intOfSizeT size).toNat, e.toConnection, e.script)] }) e.script rfl
    refine ⟨?_, ?_⟩
    · generalize connReceiveLoop (intOfSizeT size).toNat e.script _ = r at hends
      cases hends with
      | returned hnoted hcome => exact hnoted.receives
      | waits hreceives hnever => exact hreceives
    · intro r hr hreceived
      rcases connReceiveLoop_result hr with hfailed | hcount <;> omega
  case neg =>
    rw [if_neg hpos, List.append_nil]
    split
    · refine ⟨rfl, ?_⟩
      rintro r ⟨⟩ hr
      exact absurd hr (by decide)
    · rw [if_pos (by omega)]
      refine ⟨rfl, ?_⟩
      rintro r ⟨⟩ hr
      exact absurd hr (by decide)

/-- What is left of a size behind the bytes of one call is nothing as an `int`. -/
theorem intOfSizeT_rest {size : Nat} (h : 0 < intOfSizeT size) :
    intOfSizeT (size - (intOfSizeT size).toNat) = 0 := by
  simp only [intOfSizeT, BitVec.toInt_ofNat', Int.bmod_def] at h ⊢
  omega

theorem readChunkLoop_of_zero {size : Nat} (h : intOfSizeT size = 0) (rounds : Nat) :
    readChunkLoop rounds size e = (some (0, []), e) := by
  cases rounds with
  | zero => rfl
  | succ rounds =>
    unfold readChunkLoop
    split
    · rfl
    · rw [h]
      rfl

theorem readChunk_receives (size : Nat) (e : Exchange) :
    (readChunk size e).2.receives = e.receives ++ receivesFor size e := by
  unfold readChunk readChunkLoop
  split
  case isTrue hzero =>
    subst hzero
    exact (List.append_nil _).symm
  case isFalse hsize =>
    obtain ⟨hreceives, hresult⟩ := connReceive_receives size e
    rw [run_bind]
    rcases hrun : connReceive (intOfSizeT size) e with ⟨r | ⟨cur, bytes⟩, e'⟩
    · rw [hrun] at hreceives
      exact hreceives
    · rw [hrun] at hreceives hresult
      simp only
      split
      case isTrue hnothing => exact hreceives
      case isFalse hsome =>
        have hcur : cur = intOfSizeT size := hresult _ rfl (by omega)
        rw [run_bind, readChunkLoop_of_zero (hcur ▸ intOfSizeT_rest (by omega))]
        exact hreceives

end

/-! ## The body -/

/-- The state behind the data of a chunk, which is received or skipped. -/
def behindData (contentGiven : Bool) (size : Nat) (e : Exchange) : Exchange :=
  if contentGiven then (readChunk size e).2 else (skipN size e).2

def dataReceives (contentGiven : Bool) (size : Nat) (e : Exchange) : List Receive :=
  if contentGiven then receivesFor size e else []

/-- The line in front of a chunk: its size, and the state behind it. -/
def ChunkLine (e : Exchange) (size : Nat) (e' : Exchange) : Prop :=
  ∃ buf, readLine tempBufferSize e = (some (some buf), e') ∧
    parseStringToHexadecimal (cString buf) = some size

/-- The calls for a chunked body; it may break off anywhere. -/
inductive ChunkReceives (contentGiven : Bool) : Exchange → List Receive → Prop
  | over {e : Exchange} : ChunkReceives contentGiven e []
  | lastEnd {e e' : Exchange} : ChunkLine e 0 e' → ChunkReceives contentGiven e (receivesFor 2 e')
  | data {e e' : Exchange} {size : Nat} : ChunkLine e size e' →
      ChunkReceives contentGiven e (dataReceives contentGiven size e')
  | chunk {e e' : Exchange} {size : Nat} {calls : List Receive} : ChunkLine e size e' →
      ChunkReceives contentGiven (readChunk 2 (behindData contentGiven size e')).2 calls →
      ChunkReceives contentGiven e (dataReceives contentGiven size e' ++
        (receivesFor 2 (behindData contentGiven size e') ++ calls))

inductive BodyReceives (contentGiven : Bool) (info : ContentInfo) (e : Exchange) :
    List Receive → Prop
  | none : BodyReceives contentGiven info e []
  | whole : info.chunked = false → contentGiven = true →
      BodyReceives contentGiven info e (receivesFor info.bodyLength e)
  | chunks {calls : List Receive} : info.chunked = true → ChunkReceives contentGiven e calls →
      BodyReceives contentGiven info e calls

section

variable {Headers : Type} (addHeaderNameValuePair : Headers → Bytes → Bytes → Headers)
variable (uninitialised : Nat → UInt8) {e : Exchange}

theorem behindData_receives (contentGiven : Bool) (size : Nat) (e : Exchange) :
    (behindData contentGiven size e).receives = e.receives ++ dataReceives contentGiven size e := by
  cases contentGiven with
  | true => exact readChunk_receives size e
  | false => exact (skipN_quiet size e).trans (List.append_nil _).symm

theorem readChunkEnd_state (e : Exchange) : (readChunkEnd e).2 = (readChunk 2 e).2 := by
  unfold readChunkEnd
  rw [run_bind]
  rcases readChunk 2 e with ⟨r | ⟨result, buf⟩, e'⟩ <;> rfl

theorem chunkLine_receives {α : Type} {P : List Receive → Prop} {failed : α}
    {refused : Bytes → α} {f : Nat → ExchangeM α} (hnone : P [])
    (hf : ∀ size e', ChunkLine e size e' → Receives P (f size) e') :
    Receives P (do
      match ← readLine tempBufferSize with
      | none => return failed
      | some buf =>
        match parseStringToHexadecimal (cString buf) with
        | none => return refused buf
        | some size => f size) e := by
  refine (readLine_quiet tempBufferSize).bindReceives hnone ?_
  intro line e' hline
  cases line with
  | none => exact (Quiet.pure _).receives hnone
  | some buf =>
    simp only
    cases hsize : parseStringToHexadecimal (cString buf) with
    | none => exact (Quiet.pure _).receives hnone
    | some size => exact hf size e' ⟨buf, hline, hsize⟩

theorem readChunkData_state (size chunkSize : Nat) (response : Response Headers) (e : Exchange) :
    let r := readChunksLoop.readChunkData uninitialised size chunkSize response e
    r.2 = behindData true chunkSize e ∨ r.2 = e ∧ ∀ r', r.1 = some r' → r'.1 ≠ .ok := by
  unfold readChunksLoop.readChunkData
  cases bufferEnlarge uninitialised response.content chunkSize with
  | none =>
    refine .inr ⟨rfl, ?_⟩
    rintro r' ⟨⟩
    nofun
  | some content =>
    refine .inl ?_
    simp only [run_bind, behindData, if_true]
    rcases readChunk chunkSize e with ⟨r | ⟨result, bytes⟩, e'⟩
    · rfl
    · simp only
      split <;> rfl

theorem skipped_state (n : Nat) (response : Response Headers) (e : Exchange) :
    ((do
      let skipped ← skipN n
      return (if skipped < 0 then .readDataFailed else .ok, response) :
        ExchangeM (HttpApiResult × Response Headers)) e).2 = behindData false n e := by
  rw [run_bind]
  simp only [behindData, Bool.false_eq_true, if_false]
  rcases skipN n e with ⟨r | skipped, e'⟩ <;> rfl

/-- A round of the loop over the chunks behind the line: the data, the end, and the other chunks. -/
theorem chunk_receives {contentGiven : Bool} {chunkSize : Nat} {e' : Exchange}
    {p : ExchangeM (HttpApiResult × Response Headers)}
    {rest : Response Headers → ExchangeM (HttpApiResult × Response Headers)}
    (hline : ChunkLine e chunkSize e')
    (hdata : (p e').2 = behindData contentGiven chunkSize e' ∨
      (p e').2 = e' ∧ ∀ r, (p e').1 = some r → r.1 ≠ .ok)
    (hrest : ∀ response e'', Receives (ChunkReceives contentGiven e'') (rest response) e'') :
    Receives (ChunkReceives contentGiven e) (p >>= fun r => do
      if r.1 != .ok then return (r.1, r.2)
      if ← readChunkEnd then rest r.2
      else return (.readDataFailed, r.2)) e' := by
  rcases hdata with hdata | ⟨hstate, hfailed⟩
  · have hreceives := behindData_receives contentGiven chunkSize e'
    rw [← hdata] at hreceives
    refine Receives.bind hreceives (fun _ => .data hline) ?_
    intro r e₂ hrun
    have he₂ : e₂ = behindData contentGiven chunkSize e' := by rw [← hdata, hrun]
    split
    case isTrue hfailed =>
      refine (Quiet.pure _).receives ?_
      rw [List.append_nil]
      exact .data hline
    case isFalse hok =>
      have hend : (readChunkEnd e₂).2.receives = e₂.receives ++ receivesFor 2 e₂ := by
        rw [readChunkEnd_state]
        exact readChunk_receives 2 e₂
      have hbroken : ChunkReceives contentGiven e
          (dataReceives contentGiven chunkSize e' ++ (receivesFor 2 e₂ ++ [])) :=
        he₂ ▸ .chunk hline .over
      refine Receives.bind hend (fun _ => List.append_nil (receivesFor 2 e₂) ▸ hbroken) ?_
      intro ended e₃ hrun₃
      have he₃ : e₃ = (readChunk 2 e₂).2 := by rw [← readChunkEnd_state, hrun₃]
      cases ended with
      | false => exact (Quiet.pure _).receives hbroken
      | true =>
        obtain ⟨calls, hcalls, hchunks⟩ := hrest r.2 e₃
        refine ⟨calls, hcalls, ?_⟩
        subst he₃ he₂
        exact .chunk hline hchunks
  · refine Receives.bind (show _ = _ ++ [] by rw [hstate, List.append_nil]) (fun _ => .over) ?_
    intro r e₂ hrun
    rw [if_pos (bne_iff_ne.mpr (hfailed r (by rw [hrun])))]
    exact (Quiet.pure _).receives .over

/-- Each round of the loop over the chunks reads a line, the data behind it and its end. -/
theorem readChunksLoop_receives (contentGiven : Bool) (rounds size : Nat)
    (response : Response Headers) (e : Exchange) :
    Receives (ChunkReceives contentGiven e)
      (readChunksLoop uninitialised contentGiven rounds size response) e := by
  induction rounds generalizing size response e with
  | zero => exact ⟨[], (List.append_nil _).symm, .over⟩
  | succ rounds ih =>
    unfold readChunksLoop
    refine chunkLine_receives .over ?_
    intro chunkSize e' hline
    split
    case isTrue hzero =>
      subst hzero
      have hend : (readChunkEnd e').2.receives = e'.receives ++ receivesFor 2 e' := by
        rw [readChunkEnd_state]
        exact readChunk_receives 2 e'
      refine Receives.bind hend (fun _ => .lastEnd hline) ?_
      intro ended e'' _
      have hlast : ChunkReceives contentGiven e (receivesFor 2 e' ++ []) := by
        rw [List.append_nil]
        exact .lastEnd hline
      split <;> exact (Quiet.pure _).receives hlast
    case isFalse hsome =>
      cases contentGiven with
      | true =>
        exact chunk_receives hline (readChunkData_state uninitialised size chunkSize response e')
          fun response e'' => ih _ response e''
      | false =>
        simp only [Bool.false_eq_true, if_false]
        rw [← bind_assoc]
        exact chunk_receives hline (.inl (skipped_state chunkSize response e'))
          fun response e'' => ih _ response e''

theorem readHTTPResponseBodyFromXio_receives (contentGiven : Bool) (info : ContentInfo)
    (response : Response Headers) (e : Exchange) :
    Receives (BodyReceives contentGiven info { e with isIoError := false })
      (readHTTPResponseBodyFromXio uninitialised contentGiven info response) e := by
  unfold readHTTPResponseBodyFromXio
  refine (Quiet.update _).bindReceives .none ?_
  rintro a e' ⟨⟩
  split
  case isTrue hchunked =>
    refine Quiet.bindReceives (fun _ => rfl) .none ?_
    rintro rounds e' ⟨⟩
    obtain ⟨calls, hcalls, hchunks⟩ := readChunksLoop_receives uninitialised contentGiven _ 0
      response { e with isIoError := false }
    exact ⟨calls, hcalls, .chunks hchunked hchunks⟩
  case isFalse hwhole =>
    have hwhole : info.chunked = false := Bool.not_eq_true _ ▸ hwhole
    split
    · exact (Quiet.pure _).receives .none
    · split
      case isTrue hgiven =>
        cases bufferPreBuild uninitialised response.content info.bodyLength with
        | none => exact (Quiet.pure _).receives .none
        | some content =>
          refine Receives.bind (readChunk_receives info.bodyLength _) (fun _ => .whole hwhole hgiven) ?_
          rintro ⟨result, bytes⟩ e' -
          have hcalls : BodyReceives contentGiven info { e with isIoError := false }
              (receivesFor info.bodyLength { e with isIoError := false } ++ []) := by
            rw [List.append_nil]
            exact .whole hwhole hgiven
          simp only
          split <;> exact (Quiet.pure _).receives hcalls
      case isFalse hdiscarded =>
        exact ((skipN_quiet _).bind fun _ => .pure _).receives .none

/-- The calls of a request: those for the body that the header lines announce. -/
def RequestReceives (contentGiven : Bool) (calls : List Receive) : Prop :=
  calls = [] ∨ ∃ header e info body e',
    receiveContentInfoFromXio addHeaderNameValuePair header e = (some (.ok, info, body), e') ∧
      BodyReceives contentGiven info { e' with isIoError := false } calls

/-- A part that has to succeed before the next, and does not call `conn_receive`. -/
theorem andThen_receives {α : Type} {P : List Receive → Prop} {p : ExchangeM HttpApiResult}
    {rest : ExchangeM α} {failed : HttpApiResult → α} (hp : Quiet p) (hnone : P [])
    (hrest : ∀ e', Receives P rest e') :
    Receives P (p >>= fun result =>
      if (result != .ok) = true then pure (failed result) else rest) e := by
  refine hp.bindReceives hnone ?_
  intro result e' _
  split
  · exact (Quiet.pure _).receives hnone
  · exact hrest e'

theorem sendAndReceive_receives (request : Request) (relativePath : Bytes)
    (headers : List (Option Bytes)) (maxReasonPhraseSize : Nat) (contentGiven : Bool)
    (response : Response Headers) (e : Exchange) :
    Receives (RequestReceives addHeaderNameValuePair contentGiven)
      (sendAndReceive addHeaderNameValuePair uninitialised request relativePath headers
        maxReasonPhraseSize contentGiven response) e := by
  have hnone : RequestReceives addHeaderNameValuePair contentGiven [] := .inl rfl
  unfold sendAndReceive
  refine andThen_receives openXioConnection_quiet hnone fun e₁ => ?_
  refine andThen_receives (sendHeadsToXio_quiet _ _ _) hnone fun e₂ => ?_
  refine andThen_receives (sendContentToXio_quiet _) hnone fun e₃ => ?_
  refine (receiveHeaderFromXio_quiet maxReasonPhraseSize response).bindReceives hnone ?_
  rintro ⟨result, header⟩ e₄ -
  simp only
  split
  · exact (Quiet.pure _).receives hnone
  · refine (receiveContentInfoFromXio_quiet addHeaderNameValuePair header).bindReceives hnone ?_
    rintro ⟨result, info, body⟩ e₅ hlines
    simp only
    split
    case isTrue hfailed => exact (Quiet.pure _).receives hnone
    case isFalse hok =>
      have hresult : result = .ok := by simpa using hok
      obtain ⟨calls, hcalls, hbody⟩ :=
        readHTTPResponseBodyFromXio_receives uninitialised contentGiven info body e₅
      exact ⟨calls, hcalls, .inr ⟨header, e₄, info, body, e₅, hresult ▸ hlines, hbody⟩⟩

/-- A request calls `conn_receive` for the body that the header lines announce, and for nothing else. -/
theorem httpApiExecuteRequest_receives (request : Request) (maxReasonPhraseSize : Nat)
    (contentGiven : Bool) (response : Response Headers) (e : Exchange) :
    Receives (RequestReceives addHeaderNameValuePair contentGiven)
      (httpApiExecuteRequest addHeaderNameValuePair uninitialised request maxReasonPhraseSize
        contentGiven response) e := by
  have hnone : RequestReceives addHeaderNameValuePair contentGiven [] := .inl rfl
  have hdiscarded {α : Type} {p : ExchangeM α} (hp : Receives
      (RequestReceives addHeaderNameValuePair contentGiven) p e) :
      Receives (RequestReceives addHeaderNameValuePair contentGiven) (do
        let a ← p
        update fun c => { c with receivedBytes := [] }
        return a) e := by
    obtain ⟨calls, hcalls, hall⟩ := hp
    refine Receives.bind hcalls (fun _ => hall) ?_
    intro a e' _
    refine ((Quiet.update _).bind fun _ => .pure a).receives ?_
    rw [List.append_nil]
    exact hall
  obtain ⟨requestType, relativePath, headers, content⟩ := request
  unfold httpApiExecuteRequest
  cases relativePath with
  | none => exact hdiscarded ((Quiet.pure _).receives hnone)
  | some relativePath =>
    cases headers with
    | none => exact hdiscarded ((Quiet.pure _).receives hnone)
    | some headers =>
      simp only
      split
      · exact hdiscarded (sendAndReceive_receives addHeaderNameValuePair uninitialised _
          relativePath headers maxReasonPhraseSize contentGiven response e)
      · exact hdiscarded ((Quiet.pure _).receives hnone)

end

end Exchange

end SharedUtility.HttpApiCompact
