import SharedUtility.Bytes

/-!
# HostUtils — hosts in an authority (`host_utils.c`)
-/

namespace SharedUtility

/-- The length of `host` without an IPv6 zone id. -/
def hostWithoutIpv6ScopeLength (host : Bytes) : Nat :=
  match host.findIdx? (· == 0x25) with
  | some scope => if (host.take scope).contains 0x3A then scope else host.length
  | none => host.length

structure AuthorityHostInfo where
  address : Bytes
  isIpv6 : Bool
  formattedLength : Nat
  deriving DecidableEq, Repr

/-- `get_authority_host_info`; `none` stands for its failure. -/
def getAuthorityHostInfo (host : Bytes) : Option AuthorityHostInfo :=
  -- An already bracketed literal is accepted.
  let address :=
    if 2 ≤ host.length && host.head? == some 0x5B && host.getLast? == some 0x5D then
      (host.drop 1).dropLast
    else host
  let isIpv6 := address.contains 0x3A
  let address := if isIpv6 then address.take (hostWithoutIpv6ScopeLength address) else address
  let formattedLength := if isIpv6 then safeAddSizeT address.length 2 else address.length
  if formattedLength = sizeMax then none
  else some { address := address, isIpv6 := isIpv6, formattedLength := formattedLength }

def authorityHostLength (host : Bytes) : Nat :=
  match getAuthorityHostInfo host with
  | none => 0
  | some info => info.formattedLength

/-- `format_host_for_authority`: what it writes before the NUL, `none` for its failure. -/
def formatHostForAuthority (host : Bytes) (outputSize : Nat) : Option Bytes :=
  match getAuthorityHostInfo host with
  | none => none
  | some info =>
    if outputSize ≤ info.formattedLength then none
    else if info.isIpv6 then some (0x5B :: info.address ++ [0x5D])
    else some info.address

end SharedUtility
