import SharedUtility.HttpProxyIo.Code

/-!
# Reference — what the requests should say

* `Host`, `Host.text`, `Host.authority` — the hosts that are configured, and how they are written in a request,
* `Request`, `Request.render` — a request line and header lines, each with its end,
* `upgradeText`, `connectText` — the two requests,
* `authorityOf` — what the formatter makes of any text: that of `Host.authority` for a host.
-/

namespace SharedUtility.RequestText

/-! ## Hosts -/

/-- A DNS name or an IPv4 address, or else an IPv6 address, perhaps with a zone id, perhaps in brackets. -/
inductive Host
  | name (text : Bytes) (plain : ∀ b ∈ text, b ≠ 0x3A ∧ b ≠ 0x5B ∧ b ≠ 0x5D)
  | ipv6 (address : Bytes) (zone : Option Bytes) (bracketed : Bool) (colon : 0x3A ∈ address)
      (plain : ∀ b ∈ address, b ≠ 0x25 ∧ b ≠ 0x5B ∧ b ≠ 0x5D)

/-- A zone id with the sign in front of it. -/
def zoneText : Option Bytes → Bytes
  | none => []
  | some zone => 0x25 :: zone

def inBrackets (address : Bytes) : Bytes :=
  0x5B :: (address ++ [0x5D])

namespace Host

/-- As it is configured. -/
def text : Host → Bytes
  | name text _ => text
  | ipv6 address zone true _ _ => inBrackets (address ++ zoneText zone)
  | ipv6 address zone false _ _ => address ++ zoneText zone

/-- As it is written in a request: without the zone id, which means nothing to the peer. -/
def authority : Host → Bytes
  | name text _ => text
  | ipv6 address _ _ _ _ => inBrackets address

def isIpv6 : Host → Bool
  | name _ _ => false
  | ipv6 _ _ _ _ _ => true

theorem count_brackets (host : Host) :
    host.authority.count 0x5B = (if host.isIpv6 then 1 else 0) ∧
      host.authority.count 0x5D = (if host.isIpv6 then 1 else 0) := by
  cases host with
  | name text plain =>
    exact ⟨List.count_eq_zero.2 fun hb => (plain _ hb).2.1 rfl,
      List.count_eq_zero.2 fun hb => (plain _ hb).2.2 rfl⟩
  | ipv6 address zone bracketed colon plain =>
    have hopen : address.count 0x5B = 0 := List.count_eq_zero.2 fun hb => (plain _ hb).2.1 rfl
    have hclose : address.count 0x5D = 0 := List.count_eq_zero.2 fun hb => (plain _ hb).2.2 rfl
    simp only [authority, inBrackets, List.count_cons, List.count_append, hopen, hclose]
    exact ⟨rfl, rfl⟩

end Host

/-! ## What the formatter makes of a text -/

/-- A text without the brackets around it. -/
def withoutBrackets (host : Bytes) : Bytes :=
  if 2 ≤ host.length && host.head? == some 0x5B && host.getLast? == some 0x5D then
    (host.drop 1).dropLast
  else host

def authorityOf (host : Bytes) : Bytes :=
  if (withoutBrackets host).contains 0x3A then
    inBrackets ((withoutBrackets host).take (hostWithoutIpv6ScopeLength (withoutBrackets host)))
  else withoutBrackets host

section

variable {host address : Bytes} {zone : Option Bytes}

theorem withoutBrackets_inBrackets (address : Bytes) : withoutBrackets (inBrackets address) = address := by
  have hlast : (inBrackets address).getLast? = some 0x5D := by
    rw [inBrackets, ← List.cons_append, List.getLast?_append]
    rfl
  have hlength : 2 ≤ (inBrackets address).length := by
    rw [inBrackets, List.length_cons, List.length_append]
    exact Nat.le_add_left 2 _
  rw [withoutBrackets, hlast, decide_eq_true hlength]
  exact List.dropLast_concat

theorem withoutBrackets_plain (h : host.head? ≠ some 0x5B) : withoutBrackets host = host := by
  rw [withoutBrackets, if_neg]
  rw [Bool.and_eq_true, Bool.and_eq_true, beq_iff_eq]
  exact fun hall => h hall.1.2

theorem take_scope (hcolon : 0x3A ∈ address) (hplain : 0x25 ∉ address) :
    (address ++ zoneText zone).take (hostWithoutIpv6ScopeLength (address ++ zoneText zone)) = address := by
  have hnone : address.findIdx? (· == 0x25) = none := by
    rw [List.findIdx?_eq_none_iff]
    intro b hb
    rw [beq_eq_false_iff_ne]
    rintro rfl
    exact hplain hb
  rw [hostWithoutIpv6ScopeLength, List.findIdx?_append, hnone]
  cases zone with
  | none =>
    rw [zoneText, List.append_nil]
    exact List.take_length
  | some zone =>
    have hfound : (zoneText (some zone)).findIdx? (· == 0x25) = some 0 := rfl
    have hcontains : address.contains 0x3A = true := List.contains_iff_mem.2 hcolon
    rw [hfound]
    simp only [Option.none_or, Option.map_some, Nat.zero_add, List.take_left', hcontains, if_true]

theorem authorityOf_text (host : Host) : authorityOf host.text = host.authority := by
  cases host with
  | name text plain =>
    have hhead : text.head? ≠ some 0x5B := by
      intro hhead
      exact (plain _ (List.mem_of_mem_head? hhead)).2.1 rfl
    have hcolon : ¬ text.contains 0x3A = true := by
      rw [List.contains_iff_mem]
      exact fun hb => (plain _ hb).1 rfl
    rw [Host.text, authorityOf, withoutBrackets_plain hhead, if_neg hcolon]
    rfl
  | ipv6 address zone bracketed colon plain =>
    have hcontains : (address ++ zoneText zone).contains 0x3A = true :=
      List.contains_iff_mem.2 (List.mem_append_left _ colon)
    have hscope : (0x25 : UInt8) ∉ address := fun hb => (plain _ hb).1 rfl
    have haddress : withoutBrackets (Host.ipv6 address zone bracketed colon plain).text =
        address ++ zoneText zone := by
      cases bracketed with
      | true => exact withoutBrackets_inBrackets _
      | false =>
        apply withoutBrackets_plain
        -- an address is not empty, and its first character is none of the brackets
        rcases List.exists_cons_of_ne_nil (List.ne_nil_of_mem colon) with ⟨b, more, rfl⟩
        rw [Host.text, List.cons_append, List.head?_cons, ne_eq, Option.some.injEq]
        exact (plain b (List.mem_cons_self ..)).2.1
    rw [authorityOf, haddress, if_pos hcontains, take_scope colon hscope]
    rfl

theorem getAuthorityHostInfo_eq (h : (authorityOf host).length < sizeMax) :
    ∃ info, getAuthorityHostInfo host = some info ∧ info.formattedLength = (authorityOf host).length ∧
      authorityOf host = if info.isIpv6 then inBrackets info.address else info.address := by
  rw [authorityOf] at h ⊢
  have hcode : getAuthorityHostInfo host =
      (let isIpv6 := (withoutBrackets host).contains 0x3A
      let address := if isIpv6 then
          (withoutBrackets host).take (hostWithoutIpv6ScopeLength (withoutBrackets host))
        else withoutBrackets host
      let formattedLength := if isIpv6 then safeAddSizeT address.length 2 else address.length
      if formattedLength = sizeMax then none
      else some { address := address, isIpv6 := isIpv6, formattedLength := formattedLength }) := rfl
  rw [hcode]
  dsimp only
  by_cases hcolon : (withoutBrackets host).contains 0x3A = true
  case pos =>
    rw [if_pos hcolon] at h ⊢
    rw [inBrackets, List.length_cons, List.length_append, List.length_singleton] at h
    rw [if_pos hcolon, if_pos hcolon, safeAddSizeT_of_lt (by omega), if_neg (by omega)]
    refine ⟨_, rfl, ?_, (if_pos hcolon).symm⟩
    rw [inBrackets, List.length_cons, List.length_append, List.length_singleton]
  case neg =>
    rw [if_neg hcolon] at h ⊢
    rw [if_neg hcolon, if_neg hcolon, if_neg (Nat.ne_of_lt h)]
    exact ⟨_, rfl, rfl, (if_neg hcolon).symm⟩

theorem authorityHostLength_eq (h : (authorityOf host).length < sizeMax) :
    authorityHostLength host = (authorityOf host).length := by
  rcases getAuthorityHostInfo_eq h with ⟨info, hinfo, hlength, -⟩
  rw [authorityHostLength, hinfo, ← hlength]

theorem formatHostForAuthority_eq {outputSize : Nat} (h : (authorityOf host).length < sizeMax)
    (hroom : (authorityOf host).length < outputSize) :
    formatHostForAuthority host outputSize = some (authorityOf host) := by
  rcases getAuthorityHostInfo_eq h with ⟨info, hinfo, hlength, htext⟩
  rw [formatHostForAuthority, hinfo]
  dsimp only
  rw [if_neg (by omega), htext]
  cases info.isIpv6 with
  | true => rfl
  | false => rfl

end

/-! ## Requests -/

/-- A request without a body; the lines are without their ends. -/
structure Request where
  requestLine : Bytes
  headerLines : List Bytes

namespace Request

def render (request : Request) : Bytes :=
  (request.requestLine :: request.headerLines).flatMap (fun line => line ++ ascii "\r\n") ++ ascii "\r\n"

end Request

/-- Host and port. -/
def authorityAndPort (hostname : Bytes) (port : Int) : Bytes :=
  authorityOf hostname ++ ascii ":" ++ UwsClient.formattedPort port

/-- The header with the protocols, if there are any. -/
def protocolLines : List Bytes → List Bytes
  | [] => []
  | protocols => [ascii "Sec-WebSocket-Protocol: " ++ List.intercalate (ascii ", ") protocols]

/-- The upgrade request, with all configured headers and protocols. -/
def upgradeText (c : UwsClient.UwsClientInstance) (base64Nonce : Bytes) : Bytes :=
  Request.render
    { requestLine := ascii "GET " ++ c.resourceName ++ ascii " HTTP/1.1"
      headerLines :=
        [ascii "Host: " ++ authorityAndPort c.hostname c.port, ascii "Upgrade: websocket",
          ascii "Connection: Upgrade", ascii "Sec-WebSocket-Key: " ++ base64Nonce,
          ascii "Sec-WebSocket-Version: 13"] ++
        c.requestHeaders.map (fun header => header.1 ++ ascii ": " ++ header.2) ++
        protocolLines c.protocols }

/-- The CONNECT request, with these credentials if there is a user name. -/
def connectText (config : HttpProxyIo.HttpProxyIoConfig) (credentials : Bytes) : Bytes :=
  Request.render
    { requestLine := ascii "CONNECT " ++ authorityAndPort config.hostname config.port ++ ascii " HTTP/1.1"
      headerLines := (ascii "Host:" ++ authorityAndPort config.hostname config.port) ::
        (if config.username.isSome then [ascii "Proxy-authorization: Basic " ++ credentials] else []) }

section

variable {c : UwsClient.UwsClientInstance} {config : HttpProxyIo.HttpProxyIoConfig}
  {base64Nonce credentials : Bytes}

theorem requestHeaders_eq (headers : List (Bytes × Bytes)) :
    (headers.map fun header => header.1 ++ ascii ": " ++ header.2).flatMap (fun line => line ++ ascii "\r\n") =
      UwsClient.getRequestHeaders headers := by
  rw [UwsClient.getRequestHeaders, List.flatMap_map, List.flatMap]

theorem intercalate_cons (separator first : Bytes) (others : List Bytes) :
    List.intercalate separator (first :: others) =
      first ++ (others.map fun text => separator ++ text).flatten := by
  induction others generalizing first with
  | nil => rw [List.intercalate_singleton, List.map_nil, List.flatten_nil, List.append_nil]
  | cons second others ih =>
    rw [List.intercalate_cons_cons, ih second, List.map_cons, List.flatten_cons]
    simp only [List.append_assoc]

theorem protocolLines_eq (protocols : List Bytes) :
    (protocolLines protocols).flatMap (fun line => line ++ ascii "\r\n") =
      UwsClient.protocolHeader protocols := by
  cases protocols with
  | nil => rfl
  | cons protocol protocols =>
    rw [protocolLines, List.flatMap_singleton, intercalate_cons, UwsClient.protocolHeader]
    · simp only [List.append_assoc]
    · exact List.cons_ne_nil _ _

theorem upgradeText_eq : upgradeText c base64Nonce =
    ascii "GET " ++ c.resourceName ++ ascii " HTTP/1.1\r\nHost: " ++ authorityOf c.hostname ++
      ascii ":" ++ UwsClient.formattedPort c.port ++
      ascii "\r\nUpgrade: websocket\r\nConnection: Upgrade\r\nSec-WebSocket-Key: " ++
      base64Nonce ++ ascii "\r\nSec-WebSocket-Version: 13\r\n" ++
      UwsClient.getRequestHeaders c.requestHeaders ++ UwsClient.protocolHeader c.protocols ++
      ascii "\r\n" := by
  have hhost : ascii " HTTP/1.1\r\nHost: " = ascii " HTTP/1.1" ++ (ascii "\r\n" ++ ascii "Host: ") := by decide
  have hport : ascii "\r\nUpgrade: websocket\r\nConnection: Upgrade\r\nSec-WebSocket-Key: " =
      ascii "\r\n" ++ (ascii "Upgrade: websocket" ++ (ascii "\r\n" ++ (ascii "Connection: Upgrade" ++
        (ascii "\r\n" ++ ascii "Sec-WebSocket-Key: ")))) := by decide
  have hnonce : ascii "\r\nSec-WebSocket-Version: 13\r\n" =
      ascii "\r\n" ++ (ascii "Sec-WebSocket-Version: 13" ++ ascii "\r\n") := by decide
  rw [upgradeText, Request.render, hhost, hport, hnonce]
  rw [List.flatMap_cons, List.flatMap_append, List.flatMap_append, requestHeaders_eq, protocolLines_eq]
  simp only [List.flatMap_cons, List.flatMap_nil, authorityAndPort, List.append_assoc, List.append_nil]

theorem connectText_eq : connectText config credentials =
    ascii "CONNECT " ++ authorityOf config.hostname ++ ascii ":" ++ UwsClient.formattedPort config.port ++
      ascii " HTTP/1.1\r\nHost:" ++ authorityOf config.hostname ++ ascii ":" ++
      UwsClient.formattedPort config.port ++
      (if config.username.isSome then ascii "\r\nProxy-authorization: Basic " ++ credentials else []) ++
      ascii "\r\n\r\n" := by
  have hhost : ascii " HTTP/1.1\r\nHost:" = ascii " HTTP/1.1" ++ (ascii "\r\n" ++ ascii "Host:") := by decide
  have hcredentials : ascii "\r\nProxy-authorization: Basic " =
      ascii "\r\n" ++ ascii "Proxy-authorization: Basic " := by decide
  have hend : ascii "\r\n\r\n" = ascii "\r\n" ++ ascii "\r\n" := by decide
  rw [connectText, Request.render, hhost, hcredentials, hend]
  cases config.username.isSome with
  | true =>
    simp only [if_true, List.flatMap_cons, List.flatMap_nil, authorityAndPort, List.append_assoc,
      List.append_nil]
  | false =>
    simp only [Bool.false_eq_true, if_false, List.flatMap_cons, List.flatMap_nil, authorityAndPort,
      List.append_assoc, List.append_nil]

theorem foldl_safeAddSizeT {summands : List Nat} {length : Nat} (h : length + summands.sum < sizeMax) :
    summands.foldl safeAddSizeT length = length + summands.sum := by
  induction summands generalizing length with
  | nil => rfl
  | cons n summands ih =>
    rw [List.sum_cons] at h ⊢
    rw [List.foldl_cons, safeAddSizeT_of_lt (by omega), ih (by omega), Nat.add_assoc]

theorem safeAddSizeT_one {length : Nat} (h : length < sizeMax) : safeAddSizeT length 1 = length + 1 := by
  rw [safeAddSizeT]
  split_ifs
  · rfl
  · omega

end

end SharedUtility.RequestText
