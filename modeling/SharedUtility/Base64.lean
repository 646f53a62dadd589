import SharedUtility.Bytes

/-!
# Base64 — the encoder and the decoder of `base64.c`
-/

namespace SharedUtility

def base64char (val : UInt8) : UInt8 :=
  if val < 26 then 0x41 + val
  else if val < 52 then 0x61 + (val - 26)
  else if val < 62 then 0x30 + (val - 52)
  else if val = 62 then 0x2B
  else 0x2F

/-- The character for the last sextet of a group of two bytes, whose low two bits are zero. -/
def base64b16 (val : UInt8) : UInt8 :=
  (ascii "AEIMQUYcgkosw048").getD val.toNat 0

/-- The character for the last sextet of a group of one byte, whose low four bits are zero. -/
def base64b8 (val : UInt8) : UInt8 :=
  (ascii "AQgw").getD val.toNat 0

/-- `Base64_Encode_Internal`, with all allocations succeeding. -/
def base64EncodeInternal : Bytes → Bytes
  | b0 :: b1 :: b2 :: rest =>
    base64char (b0 >>> 2) ::
    base64char (((b0 &&& 3) <<< 4) ||| (b1 >>> 4)) ::
    base64char (((b1 &&& 0x0F) <<< 2) ||| ((b2 >>> 6) &&& 3)) ::
    base64char (b2 &&& 0x3F) :: base64EncodeInternal rest
  | [b0, b1] =>
    [base64char (b0 >>> 2),
      base64char (((b0 &&& 3) <<< 4) ||| (b1 >>> 4)),
      base64b16 (b1 &&& 0x0F), 0x3D]
  | [b0] => [base64char (b0 >>> 2), base64b8 (b0 &&& 3), 0x3D, 0x3D]
  | [] => []

/-- `base64toValue`; `none` stands for its failure. -/
def base64toValue (base64character : UInt8) : Option UInt8 :=
  if 0x41 ≤ base64character ∧ base64character ≤ 0x5A then some (base64character - 0x41)
  else if 0x61 ≤ base64character ∧ base64character ≤ 0x7A then some (26 + (base64character - 0x61))
  else if 0x30 ≤ base64character ∧ base64character ≤ 0x39 then some (52 + (base64character - 0x30))
  else if base64character = 0x2B then some 62
  else if base64character = 0x2F then some 63
  else none

/-- The values of the characters that `numberOfBase64Characters` counts. -/
def base64Values : Bytes → List UInt8
  | [] => []
  | c :: rest =>
    match base64toValue c with
    | some value => value :: base64Values rest
    | none => []

def base64decodeLen (encodedString : Bytes) : Nat :=
  let sourceLength := encodedString.length
  if sourceLength = 0 then 0
  else
    let result := sourceLength / 4 * 3
    if encodedString.getD (sourceLength - 1) 0 = 0x3D then
      if encodedString.getD (sourceLength - 2) 0 = 0x3D then result - 2 else result - 1
    else result

/-- The bytes that `Base64decode` writes for these values. -/
def base64decode : List UInt8 → Bytes
  | c1 :: c2 :: c3 :: c4 :: rest =>
    ((c1 <<< 2) ||| (c2 >>> 4)) :: (((c2 &&& 0x0F) <<< 4) ||| (c3 >>> 2)) ::
    (((c3 &&& 0x03) <<< 6) ||| c4) :: base64decode rest
  | [c1, c2, c3] => [(c1 <<< 2) ||| (c2 >>> 4), ((c2 &&& 0x0F) <<< 4) ||| (c3 >>> 2)]
  | [c1, c2] => [(c1 <<< 2) ||| (c2 >>> 4)]
  | _ => []

/-- `Base64_Decoder`, with all allocations succeeding; `uninitialised` is what the new buffer holds
where nothing is written. -/
def base64Decoder (source : Bytes) (uninitialised : Nat → UInt8) : Option Bytes :=
  if source.length % 4 ≠ 0 then none
  else
    let decoded := base64decode (base64Values source)
    some ((List.range (base64decodeLen source)).map fun i => decoded.getD i (uninitialised i))

end SharedUtility
