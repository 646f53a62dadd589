import SharedUtility.Base64
import SharedUtility.CrtAbstractions
import SharedUtility.Double
import SharedUtility.UrlEncode

/-!
# Code — the functions of `sastoken.c`

A string is the list of its characters, none of which is NUL.  The validator reads a token from left
to right: it is given the character before the one it looks at, and the rest of the token from there.
-/

namespace SharedUtility.SasToken

/-! ## Creation -/

/-- `construct_sas_token`.  `hmacSha256` is the 32 bytes of `HMACSHA256_ComputeHash`, and `allocated`
says that all allocations succeed. -/
def constructSasToken (hmacSha256 : Bytes → Bytes → Bytes) (uninitialised : Nat → UInt8)
    (allocated : Bool) (key scope : Bytes) (keyname : Option Bytes) (expiry : Nat) : Option Bytes :=
  match base64Decoder key uninitialised with
  | none => none
  | some decodedKey =>
    match sizeTToString 32 expiry with
    | none => none
    | some tokenExpirationTime =>
      if allocated = false then none
      else
        let toBeHashed := scope ++ ascii "\n" ++ tokenExpirationTime
        let hash := hmacSha256 decodedKey toBeHashed
        let base64Signature := base64EncodeInternal hash
        let urlEncodedSignature := urlEncode base64Signature
        some (ascii "SharedAccessSignature sr=" ++ scope ++ ascii "&sig=" ++
          urlEncodedSignature ++ ascii "&se=" ++ tokenExpirationTime ++
          (match keyname with
            | some keyname => ascii "&skn=" ++ keyname
            | none => []))

/-! ## Validation -/

/-- One digit after the other, in double precision; a character that is no digit makes it 0. -/
def getExpiryValueFrom : (value : Nat) → Bytes → Nat
  | value, [] => value
  | value, c :: rest =>
    if isDigit c then
      getExpiryValueFrom (roundDouble (roundDouble (value * 10) + (c.toNat - 0x30))) rest
    else 0

def getExpiryValue (expiryASCII : Bytes) : Nat :=
  getExpiryValueFrom 0 expiryASCII

/-- Where the value of a field starts and stops; negative when it is not known. -/
structure Field where
  start : Int := -1
  stop : Int := -1
  deriving DecidableEq, Repr

/-- The value has started and has not stopped. -/
def Field.isOpen (field : Field) : Bool :=
  field.start > 0 && field.stop < 0

structure Fields where
  se : Field := {}
  sr : Field := {}
  sig : Field := {}
  deriving DecidableEq, Repr

/-- Where the value before a field name at `i` stops; `none` if no `&` and no blank is between. -/
def stopBefore (i : Nat) (prev : UInt8) : Option Int :=
  if prev = 0x20 then some (i - 1) else if prev = 0x26 then some (i - 2) else none

/-- The value of the field `own` starts, and the value of one of the others that is open stops: the
result is `own`, `first` and `second` as they are then. -/
def startField (i : Nat) (prev : UInt8) (start : Int) (own first second : Field) :
    Field × Field × Field :=
  if first.isOpen then
    match stopBefore i prev with
    | some stop => ({ own with start := start }, { first with stop := stop }, second)
    | none => ({ own with start := -1 }, first, second)
  else if second.isOpen then
    match stopBefore i prev with
    | some stop => ({ own with start := start }, first, { second with stop := stop })
    | none => ({ own with start := -1 }, first, second)
  else ({ own with start := start }, first, second)

/-- One round of the loop over the characters of the token. -/
def scanAt (i : Nat) (prev : UInt8) (rest : Bytes) (fields : Fields) : Fields :=
  if (ascii "se=").isPrefixOf rest then
    let r := startField i prev (i + 3) fields.se fields.sr fields.sig
    { se := r.1, sr := r.2.1, sig := r.2.2 }
  else if (ascii "sr=").isPrefixOf rest then
    let r := startField i prev (i + 3) fields.sr fields.se fields.sig
    { sr := r.1, se := r.2.1, sig := r.2.2 }
  else if (ascii "sig=").isPrefixOf rest then
    let r := startField i prev (i + 4) fields.sig fields.sr fields.se
    { sig := r.1, sr := r.2.1, se := r.2.2 }
  else fields

/-- The loop, for `n` rounds from the character at `i` on. -/
def scanFrom : (n i : Nat) → (prev : UInt8) → (rest : Bytes) → Fields → Fields
  | 0, _, _, _, fields => fields
  | n + 1, i, prev, rest, fields =>
    scanFrom n (i + 1) (rest.getD 0 0) (rest.drop 1) (scanAt i prev rest fields)

/-- The conversion `(int)` of a length. -/
def intOfLength (length : Nat) : Int :=
  (length : Int).bmod (2 ^ 32)

/-- A time as a `double`. -/
def doubleOfTime (time : Int) : Int :=
  if time < 0 then -(roundDouble time.natAbs) else roundDouble time.natAbs

/-- The first of the fields without a stop takes the end of the token. -/
def stopAtEnd (tokenLength : Int) (fields : Fields) : Fields :=
  if fields.se.stop < 0 then { fields with se := { fields.se with stop := tokenLength } }
  else if fields.sr.stop < 0 then { fields with sr := { fields.sr with stop := tokenLength } }
  else if fields.sig.stop < 0 then { fields with sig := { fields.sig with stop := tokenLength } }
  else fields

/-- The characters copied to `expiryASCII`. -/
def expiryASCII (sasTokenArray : Bytes) (se : Field) : Bytes :=
  ((sasTokenArray.drop se.start.toNat).take (se.stop - se.start).toNat).takeWhile (· != 0x26)

/-- `SASToken_Validate` at the time `now`; `allocated` says that its `malloc` succeeds. -/
def sasTokenValidate (sasTokenArray : Bytes) (allocated : Bool) (now : Int) : Bool :=
  let tokenLength := intOfLength sasTokenArray.length
  let fields := scanFrom tokenLength.toNat 0 0 sasTokenArray {}
  if fields.se.start < 0 || fields.sr.start < 0 || fields.sig.start < 0 then false
  else
    let fields := stopAtEnd tokenLength fields
    if fields.se.stop ≤ fields.se.start || fields.sr.stop ≤ fields.sr.start ||
        fields.sig.stop ≤ fields.sig.start then false
    else if allocated = false then false
    else
      let expiry : Int := getExpiryValue (expiryASCII sasTokenArray fields.se)
      if expiry ≤ 0 then false
      else if expiry < doubleOfTime now then false
      else true

end SharedUtility.SasToken
