import SharedUtility.HttpApiCompact.Code

/-!
# Exchange — a whole `HTTPAPI_ExecuteRequest` of `httpapi_compact.c`

From the opening of the connection to the end of the body, with the rounds of `xio_dowork` and
`ThreadAPI_Sleep` that it waits.

* `XioCall` — what a call of the underlying io does; after the last one it is silent,
* `ExchangeM` — computations on the handle; without a result they never return,
* `waitLoop` — the loops that count down,
* `connReceive` — the one that does not.
-/

namespace SharedUtility.HttpApiCompact

/-- What the underlying io calls back. -/
inductive Callback
  | openComplete (ok : Bool)
  | sendComplete (ok : Bool)
  /-- `on_bytes_received`, with enough memory. -/
  | bytes (buffer : Bytes)
  /-- `on_io_error`, or bytes that cannot be stored. -/
  | error
  deriving DecidableEq, Repr

/-- A call of the underlying io. -/
structure XioCall where
  failed : Bool := false
  callbacks : List Callback := []
  deriving DecidableEq, Repr

/-- `HTTP_HANDLE_DATA`; of the options whether they are given. -/
structure Connection where
  certificate : Bool := false
  x509ClientCertificate : Bool := false
  x509ClientPrivateKey : Bool := false
  receivedBytes : Bytes := []
  isIoError : Bool := false
  isConnected : Bool := false
  sendCompleted : Bool := false
  deriving DecidableEq, Repr

/-- The handle, and the underlying io. -/
structure Exchange extends Connection where
  /-- What the calls of the underlying io will do; behind the end of the list they do nothing. -/
  script : List XioCall := []
  /-- History: what has been sent. -/
  sent : List Bytes := []
  /-- History: whether the last call of the underlying io was behind the end of the list. -/
  silent : Bool := false
  /-- History: how often `ThreadAPI_Sleep` was called after such a call. -/
  silentRounds : Nat := 0
  /-- History: how many bytes `conn_receive` was to receive, and the exchange at that time. -/
  receives : List (Nat × Connection × List XioCall) := []
  deriving DecidableEq, Repr

abbrev ExchangeM (α : Type) := OptionT (StateM Exchange) α

def maxOpenRetry : Nat := 1000

def maxSendRetry : Nat := 200

/-! ## The underlying io -/

/-- `on_io_open_complete`, `on_send_complete`, `on_bytes_received` and `on_io_error`. -/
def Connection.callback (c : Connection) : Callback → Connection
  | .openComplete true => { c with isConnected := true, isIoError := false }
  | .openComplete false => { c with isIoError := true }
  | .sendComplete true => { c with sendCompleted := true, isIoError := false }
  | .sendComplete false => { c with isIoError := true }
  | .bytes buffer => { c with receivedBytes := c.receivedBytes ++ buffer }
  | .error => { c with isIoError := true }

/-- The next call of the underlying io. -/
def Exchange.called (e : Exchange) : Exchange :=
  match e.script with
  | [] => { e with silent := true }
  | call :: script =>
    { e with
      toConnection := call.callbacks.foldl Connection.callback e.toConnection
      script := script
      silent := false }

/-- Whether the next call of the underlying io fails. -/
def Exchange.fails (e : Exchange) : Bool :=
  match e.script with
  | [] => false
  | call :: _ => call.failed

/-- `ThreadAPI_Sleep`. -/
def Exchange.slept (e : Exchange) : Exchange :=
  { e with silentRounds := if e.silent then e.silentRounds + 1 else e.silentRounds }

/-- A call of the underlying io: whether it succeeds. -/
def xioCall : ExchangeM Bool :=
  fun e => (some (!e.fails), e.called)

def update (f : Connection → Connection) : ExchangeM Unit :=
  fun e => (some (), { e with toConnection := f e.toConnection })

def readConnection : ExchangeM Connection :=
  fun e => (some e.toConnection, e)

/-- What is handed to `xio_send`. -/
def record (buf : Bytes) : ExchangeM Unit :=
  fun e => (some (), { e with sent := e.sent ++ [buf] })

/-- A computation that never returns. -/
def never {α : Type} : ExchangeM α :=
  fun e => (none, e)

def callbackBytes (callbacks : List Callback) : Bytes :=
  callbacks.flatMap fun callback =>
    match callback with
    | .bytes buffer => buffer
    | _ => []

/-- How many bytes have been received or are still to come. -/
def Exchange.streamLength (e : Exchange) : Nat :=
  e.receivedBytes.length + (e.script.map fun call => (callbackBytes call.callbacks).length).sum

/-- More than the lines that can still be read. -/
def linesLeft : ExchangeM Nat :=
  fun e => (some (e.streamLength + 1), e)

/-- How a round of a waiting loop ends: with a result, or with what the next round needs. -/
inductive Wait (α β : Type)
  | done (result : α)
  | more (next : β)

/-- A loop that waits between its rounds, at most so often. -/
def waitLoop {α β : Type} (round : β → Exchange → Wait α β × Exchange) (timeout : α) :
    (countRetry : Nat) → β → ExchangeM α
  | countRetry, b => fun e =>
    match round b e with
    | (.done result, e) => (some result, e)
    | (.more b, e) =>
      match countRetry with
      | 0 => (some timeout, e)
      | countRetry + 1 => waitLoop round timeout countRetry b e.slept

namespace Exchange

/-! ## Opening and sending -/

/-- `xio_setoption` for an option that is given: whether it succeeds. -/
def setOption (given : Bool) : ExchangeM Bool :=
  if given then xioCall else pure true

def openRound (_ : Unit) (e : Exchange) : Wait HttpApiResult Unit × Exchange :=
  if e.isConnected || e.isIoError then (.done .ok, e) else (.more (), e.called)

/-- The part of `OpenXIOConnection` that opens. `countRetry` is compared before it is less than 0. -/
def openConnection (c : Connection) : ExchangeM HttpApiResult := do
  update fun c => { c with isIoError := false }
  if !(← setOption c.certificate) then return .setOptionFailed
  if !(← setOption c.x509ClientCertificate) then return .setOptionFailed
  if !(← setOption c.x509ClientPrivateKey) then return .setOptionFailed
  if !(← xioCall) then return .openRequestFailed
  waitLoop openRound .openRequestFailed (maxOpenRetry + 1) ()

def openXioConnection : ExchangeM HttpApiResult := do
  let c ← readConnection
  let result ← if c.isConnected then pure .ok else openConnection c
  let c ← readConnection
  if c.isIoError && result == .ok then return .openRequestFailed
  return result

def sendRound (_ : Unit) (e : Exchange) : Wait HttpApiResult Unit × Exchange :=
  if e.sendCompleted then (.done .ok, e)
  else
    let e := e.called
    if e.isIoError then (.done .sendRequestFailed, e) else (.more (), e)

def connSendAll (buf : Bytes) : ExchangeM HttpApiResult := do
  update fun c => { c with sendCompleted := false, isIoError := false }
  record buf
  if !(← xioCall) then return .sendRequestFailed
  waitLoop sendRound .sendRequestFailed maxSendRetry ()

def httpapiRequestString : List String :=
  ["GET", "POST", "PUT", "DELETE", "PATCH"]

/-- The loop of `SendHeadsToXIO` over the headers; `none` is one that cannot be got. -/
def sendHeaders : List (Option Bytes) → ExchangeM HttpApiResult
  | [] => pure .ok
  | none :: _ => pure .stringProcessingError
  | some header :: headers => do
    let result ← connSendAll header
    if result != .ok then return result
    let result ← connSendAll (ascii "\r\n")
    if result != .ok then return result
    sendHeaders headers

def sendHeadsToXio (requestType : Nat) (relativePath : Bytes) (headers : List (Option Bytes)) :
    ExchangeM HttpApiResult := do
  let buf := ascii (httpapiRequestString.getD requestType "") ++ ascii " " ++ relativePath ++
    ascii " HTTP/1.1\r\n"
  if buf.length ≥ tempBufferSize then return .stringProcessingError
  let result ← connSendAll buf
  if result != .ok then return result
  let result ← sendHeaders headers
  if result != .ok then return result
  connSendAll (ascii "\r\n")

def sendContentToXio (content : Option Bytes) : ExchangeM HttpApiResult :=
  match content with
  | some (c :: rest) => connSendAll (c :: rest)
  | _ => pure .ok

/-! ## Receiving -/

def connReceiveRound (count : Nat) (e : Exchange) : Wait (Int × Bytes) Unit × Exchange :=
  let e := e.called
  if e.isIoError then (.done (-1, []), e)
  else if count ≤ e.receivedBytes.length then
    (.done (count, e.receivedBytes.take count),
      { e with receivedBytes := e.receivedBytes.drop count })
  else (.more (), e)

/-- The loop of `conn_receive`, for the calls that the underlying io is still to do something in;
behind them it never ends. -/
def connReceiveLoop (count : Nat) : List XioCall → ExchangeM (Int × Bytes)
  | [] => fun e =>
    match connReceiveRound count e with
    | (.done result, e) => (some result, e)
    | (.more _, e) => (none, e)
  | _ :: script => fun e =>
    match connReceiveRound count e with
    | (.done result, e) => (some result, e)
    | (.more _, e) => connReceiveLoop count script e.slept

/-- `conn_receive`: its result, and the bytes it has written. -/
def connReceive (count : Int) : ExchangeM (Int × Bytes) :=
  if count < 0 then pure (-1, [])
  else if count = 0 then pure (0, [])
  else fun e =>
    connReceiveLoop count.toNat e.script
      { e with receives := e.receives ++ [(count.toNat, e.toConnection, e.script)] }

def readLineRound (maxBufSize : Nat) (line : Bytes) (e : Exchange) :
    Wait (Option Bytes) Bytes × Exchange :=
  let e := e.called
  if e.isIoError then (.done none, e)
  else
    match scanLine maxBufSize line e.receivedBytes with
    | .line line rest => (.done (some line), { e with receivedBytes := rest })
    | .tooLong => (.done none, { e with receivedBytes := [] })
    | .more line => (.more line, { e with receivedBytes := [] })

/-- `readLine`: the line, without its end; `none` stands for a negative result. -/
def readLine (maxBufSize : Nat) : ExchangeM (Option Bytes) :=
  waitLoop (readLineRound maxBufSize) none maxReceiveRetry []

/-- The loop of `readChunk`; each round but the last takes a byte. -/
def readChunkLoop : (rounds size : Nat) → ExchangeM (Int × Bytes)
  | 0, _ => pure (0, [])
  | rounds + 1, size => do
    if size = 0 then return (0, [])
    let (cur, bytes) ← connReceive (intOfSizeT size)
    if cur ≤ 0 then return (cur, [])
    let (offset, rest) ← readChunkLoop rounds (size - cur.toNat)
    return (if offset < 0 then offset else cur + offset, bytes ++ rest)

/-- `readChunk`: its result, and the bytes it has written. -/
def readChunk (size : Nat) : ExchangeM (Int × Bytes) :=
  readChunkLoop (size + 1) size

def skipRound (n : Nat) (e : Exchange) : Wait Bool Nat × Exchange :=
  let e := e.called
  if e.isIoError then (.done false, e)
  else
    let left := n - e.receivedBytes.length
    let e := { e with receivedBytes := e.receivedBytes.drop n }
    if left > 0 then (.more left, e) else (.done true, e)

def skipN (n : Nat) : ExchangeM Int := do
  if n = 0 then return 0
  let skipped ← waitLoop skipRound false maxReceiveRetry n
  return if skipped then intOfSizeT n else -1

/-! ## The response -/

section

variable {Headers : Type} (addHeaderNameValuePair : Headers → Bytes → Bytes → Headers)
variable (uninitialised : Nat → UInt8)

def receiveHeaderFromXio (maxReasonPhraseSize : Nat) (response : Response Headers) :
    ExchangeM (HttpApiResult × Response Headers) := do
  update fun c => { c with isIoError := false }
  match ← readLine tempBufferSize with
  | none => return (.readDataFailed, response)
  | some buf =>
    let parsed := parseHttpResponse (cString buf) maxReasonPhraseSize
    let response := { response with reasonPhrase := parsed.2 }
    match parsed.1 with
    | none => return (.receiveResponseFailed, response)
    | some ret => return (.ok, { response with statusCode := some ret })

/-- The loop over the header lines, for so many of them. -/
def receiveContentInfoLoop : (rounds : Nat) → (buf : Bytes) → ContentInfo → Response Headers →
    ExchangeM (HttpApiResult × ContentInfo × Response Headers)
  | 0, _, _, _ => never
  | rounds + 1, buf, info, response => do
    if buf.isEmpty then return (.ok, info, response)
    match contentInfoOf buf info with
    | none => return (.readDataFailed, info, response)
    | some info =>
      let response := addHeader addHeaderNameValuePair buf response
      match ← readLine tempBufferSize with
      | none => return (.readDataFailed, info, response)
      | some buf => receiveContentInfoLoop rounds (cString buf) info response

def receiveContentInfoFromXio (response : Response Headers) :
    ExchangeM (HttpApiResult × ContentInfo × Response Headers) := do
  update fun c => { c with isIoError := false }
  match ← readLine tempBufferSize with
  | none => return (.readDataFailed, {}, response)
  | some buf =>
    let rounds ← linesLeft
    receiveContentInfoLoop addHeaderNameValuePair rounds (cString buf) {} response

/-- The two bytes behind a chunk: whether they are an end of line. -/
def readChunkEnd : ExchangeM Bool := do
  let (result, buf) ← readChunk 2
  return 0 ≤ result && buf == [0x0D, 0x0A]

/-- The loop over the chunks, for so many of them. The buffer of `responseContent` may be missing. -/
def readChunksLoop (contentGiven : Bool) : (rounds size : Nat) → Response Headers →
    ExchangeM (HttpApiResult × Response Headers)
  | 0, _, _ => never
  | rounds + 1, size, response => do
    match ← readLine tempBufferSize with
    | none => return (.readDataFailed, response)
    | some buf =>
      match parseStringToHexadecimal (cString buf) with
      | none => return (.receiveResponseFailed, response)
      | some chunkSize =>
        if chunkSize = 0 then
          if ← readChunkEnd then return (.ok, response)
          return (.readDataFailed, { response with content := none })
        let (result, response) ←
          if contentGiven then readChunkData size chunkSize response
          else do
            let skipped ← skipN chunkSize
            pure (if skipped < 0 then .readDataFailed else .ok, response)
        if result != .ok then return (result, response)
        if ← readChunkEnd then readChunksLoop contentGiven rounds (size + chunkSize) response
        else return (.readDataFailed, response)
where
  /-- A chunk that goes into the buffer. -/
  readChunkData (size chunkSize : Nat) (response : Response Headers) :
      ExchangeM (HttpApiResult × Response Headers) := do
    match bufferEnlarge uninitialised response.content chunkSize with
    | none => return (.allocFailed, { response with content := none })
    | some content =>
      let (result, bytes) ← readChunk chunkSize
      let content := writeAt content size bytes
      let response := { response with content := some content }
      if result < 0 then return (.readDataFailed, response)
      return (.ok, { response with
        chunksReceived := response.chunksReceived ++ [(content.drop size).take chunkSize] })

def readHTTPResponseBodyFromXio (contentGiven : Bool) (info : ContentInfo)
    (response : Response Headers) : ExchangeM (HttpApiResult × Response Headers) := do
  update fun c => { c with isIoError := false }
  if info.chunked then
    let rounds ← linesLeft
    readChunksLoop uninitialised contentGiven rounds 0 response
  else if info.bodyLength = 0 then return (.ok, response)
  else if contentGiven then
    match bufferPreBuild uninitialised response.content info.bodyLength with
    | none => return (.allocFailed, response)
    | some content =>
      let (result, bytes) ← readChunk info.bodyLength
      let content := writeAt content 0 bytes
      let response := { response with content := some content }
      if result < 0 then return (.readDataFailed, response)
      return (.ok, { response with chunksReceived := response.chunksReceived ++ [content] })
  else
    let skipped ← skipN info.bodyLength
    return (if skipped < 0 then .readDataFailed else .ok, response)

/-! ## The request -/

/-- The arguments of `HTTPAPI_ExecuteRequest_Internal` that are sent; of a header that cannot be got
nothing. -/
structure Request where
  requestType : Nat
  relativePath : Option Bytes
  headers : Option (List (Option Bytes))
  content : Option Bytes := none

def sendAndReceive (request : Request) (relativePath : Bytes) (headers : List (Option Bytes))
    (maxReasonPhraseSize : Nat) (contentGiven : Bool) (response : Response Headers) :
    ExchangeM (HttpApiResult × Response Headers) := do
  let result ← openXioConnection
  if result != .ok then return (result, response)
  let result ← sendHeadsToXio request.requestType relativePath headers
  if result != .ok then return (result, response)
  let result ← sendContentToXio request.content
  if result != .ok then return (result, response)
  let (result, response) ← receiveHeaderFromXio maxReasonPhraseSize response
  if result != .ok then return (result, response)
  let (result, info, response) ← receiveContentInfoFromXio addHeaderNameValuePair response
  if result != .ok then return (result, response)
  readHTTPResponseBodyFromXio uninitialised contentGiven info response

/-- `HTTPAPI_ExecuteRequest_Internal`; `contentGiven` says whether `responseContent` is given or its
buffer has been allocated. -/
def httpApiExecuteRequest (request : Request) (maxReasonPhraseSize : Nat) (contentGiven : Bool)
    (response : Response Headers) : ExchangeM (HttpApiResult × Response Headers) := do
  let r ←
    match request.relativePath, request.headers with
    | some relativePath, some headers =>
      if request.requestType < httpapiRequestString.length then
        sendAndReceive addHeaderNameValuePair uninitialised request relativePath headers
          maxReasonPhraseSize contentGiven response
      else pure (.invalidArg, response)
    | _, _ => pure (.invalidArg, response)
  update fun c => { c with receivedBytes := [] }
  return r

end

end Exchange

end SharedUtility.HttpApiCompact
