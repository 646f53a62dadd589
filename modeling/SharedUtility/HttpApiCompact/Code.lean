import SharedUtility.Bytes

/-!
# Code — the reading of a response in `httpapi_compact.c`

The connection is open.  What the calls of `xio_dowork` will bring is a list with one entry a call;
behind its end they bring nothing more.
-/

namespace SharedUtility.HttpApiCompact

inductive HttpApiResult
  | ok
  | invalidArg
  | error
  | openRequestFailed
  | setOptionFailed
  | sendRequestFailed
  | receiveResponseFailed
  | readDataFailed
  | stringProcessingError
  | allocFailed
  deriving DecidableEq, Repr

/-- What one `xio_dowork` does. -/
inductive Work
  /-- `on_bytes_received`, with enough memory. -/
  | bytes (buffer : Bytes)
  /-- `on_io_error`, or bytes that cannot be stored. -/
  | error
  deriving DecidableEq, Repr

/-- `HTTP_HANDLE_DATA`, and the underlying io. -/
structure HttpHandleData where
  receivedBytes : Bytes := []
  isIoError : Bool := false
  work : List Work := []
  /-- History: what was received and what was to come when `readLine` was called. -/
  lineStarts : List (Bytes × List Work) := []
  deriving DecidableEq, Repr

def tempBufferSize : Nat := 1024

def maxReceiveRetry : Nat := 2000

/-! ## Parsing -/

/-- `ParseStringToDecimalAndRemaining`: the number, `none` for `EOF`, and `next`. -/
def parseStringToDecimalAndRemaining (src : Bytes) : Option Int × Bytes :=
  let r := strtol0 src
  (if r.2 = 0 ∨ r.1 < -(2 ^ 31) ∨ r.1 > 2 ^ 31 - 1 then none else some r.1, src.drop r.2)

/-- What `ParseStringToDecimalAndRemaining` leaves in `remaining`; `none` if nothing is written. Where the
text does not fit, `strcpy_s` gets the size of the buffer, fails, and leaves the empty string. -/
def remainingText (next : Bytes) (maxRemainingSize : Nat) : Option Bytes :=
  if maxRemainingSize > 0 then some (if next.length > maxRemainingSize - 1 then [] else next)
  else none

/-- `HEXA_DIGIT_VAL`, `none` for -1. -/
def hexaDigitVal (c : UInt8) : Option Nat :=
  if c ≥ 0x30 ∧ c ≤ 0x39 then some (c.toNat - 0x30)
  else if c ≥ 0x61 ∧ c ≤ 0x66 then some (c.toNat - 0x61 + 10)
  else if c ≥ 0x41 ∧ c ≤ 0x46 then some (c.toNat - 0x41 + 10)
  else none

/-- The loop of `ParseStringToHexadecimal`, on a `size_t`. -/
def hexadecimalFrom : (dst : Nat) → Bytes → Nat
  | dst, [] => dst
  | dst, c :: src =>
    match hexaDigitVal c with
    | some digitVal => hexadecimalFrom ((dst * 0x10 + digitVal) % 2 ^ 64) src
    | none => dst

/-- `ParseStringToHexadecimal`; `none` for `EOF`. -/
def parseStringToHexadecimal (src : Bytes) : Option Nat :=
  if (hexaDigitVal (src.headD 0)).isNone then none else some (hexadecimalFrom 0 src)

/-- `ParseHttpResponse` on a C string: the status code, `none` for `EOF`, and the reason phrase,
`none` where it is not written. -/
def parseHttpResponse (src : Bytes) (maxReasonPhraseSize : Nat) : Option Int × Option Bytes :=
  if (ascii "HTTP/").isPrefixOf src then
    let fromDot := (src.drop 5).dropWhile (· != 0x2E)
    let fromBlank := fromDot.dropWhile (· != 0x20)
    if fromBlank.isEmpty then (none, none)
    else
      let r := parseStringToDecimalAndRemaining fromBlank
      (r.1, remainingText r.2 maxReasonPhraseSize)
  else (none, none)

def toLower (c : UInt8) : UInt8 :=
  if c ≥ 0x41 ∧ c ≤ 0x5A then c - 0x41 + 0x61 else c

/-- `InternStrnicmp` on C strings; only whether it is 0 is used. -/
def internStrnicmp : Bytes → Bytes → Nat → Int
  | _, _, 0 => 0
  | [], _, _ => -1
  | _ :: _, [], _ => 1
  | c1 :: s1, c2 :: s2, n + 1 =>
    let result : Int := (toLower c1).toNat - (toLower c2).toNat
    if result = 0 then internStrnicmp s1 s2 n else result

/-! ## Reading -/

def xioDowork (c : HttpHandleData) : HttpHandleData :=
  match c.work with
  | [] => c
  | .bytes buffer :: work => { c with receivedBytes := c.receivedBytes ++ buffer, work := work }
  | .error :: work => { c with isIoError := true, work := work }

/-- The bytes that are still to come. -/
def bytesToCome : List Work → Bytes
  | [] => []
  | .bytes buffer :: work => buffer ++ bytesToCome work
  | .error :: work => bytesToCome work

/-- The bytes that have been received or are still to come. -/
def HttpHandleData.stream (c : HttpHandleData) : Bytes :=
  c.receivedBytes ++ bytesToCome c.work

/-- What the inner loop of `readLine` makes of the bytes. -/
inductive Scan
  /-- The bytes have been copied, and the line goes on. -/
  | more (line : Bytes)
  | tooLong
  /-- The line has ended, and `rest` is not read yet. -/
  | line (line rest : Bytes)
  deriving DecidableEq, Repr

/-- The inner loop of `readLine`; `line` is what `destByte` has left behind. -/
def scanLine (maxBufSize : Nat) : (line receivedBytes : Bytes) → Scan
  | line, [] => .more line
  | line, c :: rest =>
    if c ≠ 0x0D then
      if (line ++ [c]).length ≥ maxBufSize - 1 then .tooLong
      else scanLine maxBufSize (line ++ [c]) rest
    else
      .line line (if rest.head? = some 0x0A then rest.drop 1 else rest)

/-- The outer loop of `readLine`; `none` stands for a negative result. -/
def readLineLoop (maxBufSize : Nat) :
    (countRetry : Nat) → (line : Bytes) → HttpHandleData → Option Bytes × HttpHandleData
  | countRetry, line, c =>
    let c := xioDowork c
    if c.isIoError then (none, c)
    else
      match scanLine maxBufSize line c.receivedBytes with
      | .line line rest => (some line, { c with receivedBytes := rest })
      | .tooLong => (none, { c with receivedBytes := [] })
      | .more line =>
        match countRetry with
        | 0 => (none, { c with receivedBytes := [] })
        | countRetry + 1 => readLineLoop maxBufSize countRetry line { c with receivedBytes := [] }

/-- `readLine`: the line, without its end. -/
def readLine (maxBufSize : Nat) (c : HttpHandleData) : Option Bytes × HttpHandleData :=
  readLineLoop maxBufSize maxReceiveRetry []
    { c with lineStarts := c.lineStarts ++ [(c.receivedBytes, c.work)] }

/-- The loop of `conn_receive`, while the underlying io brings something; `none` if it never ends. -/
def connReceiveLoop (count : Nat) : List Work → HttpHandleData → Option (Int × Bytes × HttpHandleData)
  | work, c =>
    let c := xioDowork c
    if c.isIoError then some (-1, [], c)
    else if c.receivedBytes.length ≥ count then
      some (count, c.receivedBytes.take count,
        { c with receivedBytes := c.receivedBytes.drop count })
    else
      match work with
      | [] => none
      | _ :: work => connReceiveLoop count work c

/-- `conn_receive`: its result, and the bytes it has written. -/
def connReceive (count : Int) (c : HttpHandleData) : Option (Int × Bytes × HttpHandleData) :=
  if count < 0 then some (-1, [], c)
  else if count = 0 then some (0, [], c)
  else connReceiveLoop count.toNat c.work c

/-- The loop of `readChunk`; each round but the last takes a byte. -/
def readChunkLoop : (rounds size : Nat) → HttpHandleData → Option (Int × Bytes × HttpHandleData)
  | 0, _, c => some (0, [], c)
  | rounds + 1, size, c =>
    if size = 0 then some (0, [], c)
    else
      match connReceive (intOfSizeT size) c with
      | none => none
      | some (cur, bytes, c) =>
        if cur ≤ 0 then some (cur, [], c)
        else
          match readChunkLoop rounds (size - cur.toNat) c with
          | none => none
          | some (offset, rest, c) =>
            some (if offset < 0 then offset else cur + offset, bytes ++ rest, c)

/-- `readChunk`: its result, and the bytes it has written. -/
def readChunk (size : Nat) (c : HttpHandleData) : Option (Int × Bytes × HttpHandleData) :=
  readChunkLoop (size + 1) size c

/-! ## The response -/

/-- What the caller gets; the headers are kept by `HTTPHeaders_AddHeaderNameValuePair`. -/
structure Response (Headers : Type) where
  statusCode : Option Int := none
  reasonPhrase : Option Bytes := none
  /-- `responseHeadersHandle`, which may be NULL. -/
  headers : Option Headers
  /-- The buffer of `responseContent`, which may be NULL. -/
  content : Option Bytes
  /-- The calls of `on_chunk_received`. -/
  chunksReceived : List Bytes := []
  deriving DecidableEq, Repr

section

variable {Headers : Type} (addHeaderNameValuePair : Headers → Bytes → Bytes → Headers)
variable (uninitialised : Nat → UInt8)

def receiveHeaderFromXio (maxReasonPhraseSize : Nat) (c : HttpHandleData)
    (response : Response Headers) : HttpApiResult × Response Headers × HttpHandleData :=
  let r := readLine tempBufferSize { c with isIoError := false }
  match r.1 with
  | none => (.readDataFailed, response, r.2)
  | some buf =>
    let parsed := parseHttpResponse (cString buf) maxReasonPhraseSize
    let response := { response with reasonPhrase := parsed.2 }
    match parsed.1 with
    | none => (.receiveResponseFailed, response, r.2)
    | some ret => (.ok, { response with statusCode := some ret }, r.2)

/-- What the header lines say about the body. -/
structure ContentInfo where
  bodyLength : Nat := 0
  chunked : Bool := false
  deriving DecidableEq, Repr

/-- One header line; `none` for `HTTPAPI_READ_DATA_FAILED`. -/
def contentInfoOf (buf : Bytes) (info : ContentInfo) : Option ContentInfo :=
  let contentLength := ascii "content-length:"
  let transferEncoding := ascii "transfer-encoding:"
  let chunked := ascii "chunked"
  if internStrnicmp buf contentLength contentLength.length = 0 then
    match (parseStringToDecimalAndRemaining (buf.drop contentLength.length)).1 with
    | none => none
    | some lengthInMsg => some { info with bodyLength := (lengthInMsg % 2 ^ 64).toNat }
  else if internStrnicmp buf transferEncoding transferEncoding.length = 0 then
    let substr := (buf.drop transferEncoding.length).dropWhile isSpace
    if internStrnicmp substr chunked chunked.length = 0 then some { info with chunked := true }
    else some info
  else some info

/-- The header line in the response. -/
def addHeader (buf : Bytes) (response : Response Headers) : Response Headers :=
  match response.headers with
  | none => response
  | some headers =>
    if 0x3A ∈ buf then
      { response with
        headers := some (addHeaderNameValuePair headers (buf.takeWhile (· != 0x3A))
          ((buf.dropWhile (· != 0x3A)).drop 1)) }
    else response

/-- The loop over the header lines; each round but the last takes a byte of the stream. -/
def receiveContentInfoLoop : (rounds : Nat) → (buf : Bytes) → ContentInfo → Response Headers →
    HttpHandleData → HttpApiResult × (ContentInfo × Response Headers) × HttpHandleData
  | 0, _, info, response, c => (.ok, (info, response), c)
  | rounds + 1, buf, info, response, c =>
    if buf.isEmpty then (.ok, (info, response), c)
    else
      match contentInfoOf buf info with
      | none => (.readDataFailed, (info, response), c)
      | some info =>
        let response := addHeader addHeaderNameValuePair buf response
        let r := readLine tempBufferSize c
        match r.1 with
        | none => (.readDataFailed, (info, response), r.2)
        | some buf => receiveContentInfoLoop rounds (cString buf) info response r.2

def receiveContentInfoFromXio (c : HttpHandleData) (response : Response Headers) :
    HttpApiResult × (ContentInfo × Response Headers) × HttpHandleData :=
  let r := readLine tempBufferSize { c with isIoError := false }
  match r.1 with
  | none => (.readDataFailed, ({}, response), r.2)
  | some buf =>
    receiveContentInfoLoop addHeaderNameValuePair (r.2.stream.length + 1) (cString buf) {} response
      r.2

def freshBytes (size : Nat) : Bytes :=
  (List.range size).map uninitialised

/-- `BUFFER_pre_build`; `none` for its failure. -/
def bufferPreBuild (buffer : Option Bytes) (size : Nat) : Option Bytes :=
  if size = 0 then none
  else
    match buffer with
    | some _ => none
    | none => some (freshBytes uninitialised size)

/-- `BUFFER_enlarge`; `none` for its failure. -/
def bufferEnlarge (buffer : Option Bytes) (enlargeSize : Nat) : Option Bytes :=
  if enlargeSize = 0 then none
  else
    let content := buffer.getD []
    if safeAddSizeT content.length enlargeSize = sizeMax then none
    else some (content ++ freshBytes uninitialised enlargeSize)

/-- The buffer after the bytes have been written at `offset`. -/
def writeAt (content : Bytes) (offset : Nat) (bytes : Bytes) : Bytes :=
  content.take offset ++ bytes ++ content.drop (offset + bytes.length)

/-- The two bytes behind a chunk: whether they are an end of line. -/
def readChunkEnd (c : HttpHandleData) : Option (Bool × HttpHandleData) :=
  match readChunk 2 c with
  | none => none
  | some (result, buf, c) => some (0 ≤ result && buf == [0x0D, 0x0A], c)

/-- The loop over the chunks; each round takes a byte of the stream. -/
def readChunksLoop : (rounds size : Nat) → Response Headers → HttpHandleData →
    Option (HttpApiResult × Response Headers × HttpHandleData)
  | 0, _, _, _ => none
  | rounds + 1, size, response, c =>
    let r := readLine tempBufferSize c
    match r.1 with
    | none => some (.readDataFailed, response, r.2)
    | some buf =>
      match parseStringToHexadecimal (cString buf) with
      | none => some (.receiveResponseFailed, response, r.2)
      | some 0 =>
        match readChunkEnd r.2 with
        | none => none
        | some (true, c) => some (.ok, response, c)
        | some (false, c) => some (.readDataFailed, { response with content := none }, c)
      | some chunkSize =>
        match bufferEnlarge uninitialised response.content chunkSize with
        | none => some (.allocFailed, { response with content := none }, r.2)
        | some content =>
          match readChunk chunkSize r.2 with
          | none => none
          | some (result, bytes, c) =>
            let content := writeAt content size bytes
            let response := { response with content := some content }
            if result < 0 then some (.readDataFailed, response, c)
            else
              let response := { response with
                chunksReceived := response.chunksReceived ++
                  [(content.drop size).take chunkSize] }
              match readChunkEnd c with
              | none => none
              | some (false, c) => some (.readDataFailed, response, c)
              | some (true, c) => readChunksLoop rounds (size + chunkSize) response c

/-- `ReadHTTPResponseBodyFromXIO`; `none` if it never returns. -/
def readHTTPResponseBodyFromXio (info : ContentInfo) (response : Response Headers)
    (c : HttpHandleData) : Option (HttpApiResult × Response Headers × HttpHandleData) :=
  let c := { c with isIoError := false }
  if info.chunked then readChunksLoop uninitialised (c.stream.length + 1) 0 response c
  else if info.bodyLength = 0 then some (.ok, response, c)
  else
    match bufferPreBuild uninitialised response.content info.bodyLength with
    | none => some (.allocFailed, response, c)
    | some content =>
      match readChunk info.bodyLength c with
      | none => none
      | some (result, bytes, c) =>
        let content := writeAt content 0 bytes
        let response := { response with content := some content }
        if result < 0 then some (.readDataFailed, response, c)
        else
          some (.ok, { response with chunksReceived := response.chunksReceived ++ [content] }, c)

/-- The response: its status line, its header lines and its body; `none` if this never returns. -/
def receiveResponse (maxReasonPhraseSize : Nat) (response : Response Headers) (c : HttpHandleData) :
    Option (HttpApiResult × Response Headers × HttpHandleData) :=
  let header := receiveHeaderFromXio maxReasonPhraseSize c response
  if header.1 ≠ .ok then some header
  else
    let info := receiveContentInfoFromXio addHeaderNameValuePair header.2.2 header.2.1
    if info.1 ≠ .ok then some (info.1, info.2.1.2, info.2.2)
    else readHTTPResponseBodyFromXio uninitialised info.2.1.1 info.2.1.2 info.2.2

/-- `HTTPAPI_ExecuteRequest_Internal` from where the connection has been opened and the request been
sent, with the result `sent`; the buffer for the content has been allocated.  `none` if it never
returns. -/
def httpApiExecuteRequestInternal (maxReasonPhraseSize : Nat) (sent : HttpApiResult)
    (response : Response Headers) (c : HttpHandleData) :
    Option (HttpApiResult × Response Headers × HttpHandleData) :=
  let r :=
    if sent ≠ .ok then some (sent, response, c)
    else receiveResponse addHeaderNameValuePair uninitialised maxReasonPhraseSize response c
  r.map fun r => (r.1, r.2.1, { r.2.2 with receivedBytes := [] })

end

end SharedUtility.HttpApiCompact
