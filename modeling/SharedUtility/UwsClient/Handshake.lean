import SharedUtility.Base64
import SharedUtility.HostUtils
import SharedUtility.UwsClient.Types

/-!
# Handshake — the upgrade request and the upgrade response

The text `on_underlying_io_open_complete` sends, with the length it computes first, and the
recognition of the response in `on_underlying_io_bytes_received`.
-/

namespace SharedUtility.UwsClient

/-! ## The request -/

def getRequestHeaders (headers : List (Bytes × Bytes)) : Bytes :=
  (headers.map fun kv => kv.1 ++ ascii ": " ++ kv.2 ++ ascii "\r\n").flatten

/-- The number of characters the `do … while` loop over `port_value` counts. -/
def portLength (port : Int) : Nat :=
  (if port < 0 then 1 else 0) + (Nat.toDigits 10 port.natAbs).length

/-- `snprintf (…, "%d", port)`. -/
def formattedPort (port : Int) : Bytes :=
  (if port < 0 then ascii "-" else []) ++
    (Nat.toDigits 10 port.natAbs).map fun c => UInt8.ofNat c.toNat

/-- The `Sec-WebSocket-Protocol` header, absent when there are no protocols. -/
def protocolHeader : List Bytes → Bytes
  | [] => []
  | protocol :: protocols =>
    ascii "Sec-WebSocket-Protocol: " ++ protocol ++
      (protocols.map fun p => ascii ", " ++ p).flatten ++ ascii "\r\n"

/-- The summands of `upgrade_request_length`, in order. -/
def upgradeRequestSummands (c : UwsClientInstance) (base64Nonce requestHeaders : Bytes) :
    List Nat :=
  [(ascii "GET ").length, c.resourceName.length, (ascii " HTTP/1.1\r\nHost: ").length,
    authorityHostLength c.hostname, (ascii ":").length, portLength c.port,
    (ascii "\r\nUpgrade: websocket\r\nConnection: Upgrade\r\nSec-WebSocket-Key: ").length,
    base64Nonce.length, (ascii "\r\nSec-WebSocket-Version: 13\r\n").length,
    requestHeaders.length] ++
  (match c.protocols with
    | [] => []
    | protocol :: protocols =>
      [(ascii "Sec-WebSocket-Protocol: ").length, protocol.length] ++
        protocols.flatMap (fun p => [(ascii ", ").length, p.length]) ++
        [(ascii "\r\n").length]) ++
  [(ascii "\r\n").length]

def upgradeRequestLength (c : UwsClientInstance) (base64Nonce requestHeaders : Bytes) : Nat :=
  (upgradeRequestSummands c base64Nonce requestHeaders).foldl safeAddSizeT 0

/-- The request as it is copied together; `none` if the host or the port cannot be formatted. -/
def upgradeRequest (c : UwsClientInstance) (base64Nonce requestHeaders : Bytes) : Option Bytes :=
  match formatHostForAuthority c.hostname (authorityHostLength c.hostname + 1) with
  | none => none
  | some host =>
    if (formattedPort c.port).length ≠ portLength c.port then none
    else
      some (ascii "GET " ++ c.resourceName ++ ascii " HTTP/1.1\r\nHost: " ++ host ++
        ascii ":" ++ formattedPort c.port ++
        ascii "\r\nUpgrade: websocket\r\nConnection: Upgrade\r\nSec-WebSocket-Key: " ++
        base64Nonce ++ ascii "\r\nSec-WebSocket-Version: 13\r\n" ++ requestHeaders ++
        protocolHeader c.protocols ++ ascii "\r\n")

/-! ## The response -/

/-- `ParseStringToDecimal` with what `errno` was; `none` stands for its failure. -/
def parseStringToDecimal (src : Bytes) (errnoSet : Bool) : Option Int :=
  let r := strtol0 src
  let dst := intOfLong r.1
  if r.2 = 0 then none
  else if (dst = 2 ^ 31 - 1 ∨ dst = -(2 ^ 31)) ∧ errnoSet then none
  else some dst

/-- `ParseHttpResponse` on a NUL-terminated buffer; `none` stands for its failure. -/
def parseHttpResponse (buffer : Bytes) (errnoSet : Bool) : Option Int :=
  let src := cString buffer
  if (ascii "HTTP/").isPrefixOf src then
    let fromDot := (src.drop 5).dropWhile (· != 0x2E)
    let fromBlank := fromDot.dropWhile (· != 0x20)
    if fromDot.isEmpty || fromBlank.isEmpty then none
    else parseStringToDecimal fromBlank errnoSet
  else none

/-- Where `strstr` finds the end of the response in the NUL-terminated stream buffer. -/
def findResponseEnd (streamBuffer : Bytes) : Option Nat :=
  if streamBuffer.length ≥ 4 then strstr (cString streamBuffer) (ascii "\r\n\r\n") else none

end SharedUtility.UwsClient
