import SharedUtility.Bytes
import SharedUtility.Memory.Block

/-!
# Base32.Code — the encoder and the decoder of `base32.c`

The outer `none` is undefined behaviour, a write outside of a block, and the inner one the NULL that is
returned. Which allocations succeed is given.
-/

namespace SharedUtility.Base32

open Memory

def base32EqualSign : UInt8 := 32

def base32Values : Bytes :=
  ascii "abcdefghijklmnopqrstuvwxyz234567="

def base32EncodingLength (srcLen : Nat) : Nat :=
  (srcLen + 5 - 1) % (sizeMax + 1) / 5 * 8 % (sizeMax + 1)

def base32DecodingLength (srcLen : Nat) : Nat :=
  srcLen * 5 % (sizeMax + 1) / 8

def convertValueToBase32Char (value : UInt8) : UInt8 :=
  if 50 ≤ value ∧ value ≤ 55 then 0x1A + (value - 50)
  else if value = 61 then 0x20
  else if value ≤ 49 ∨ (56 ≤ value ∧ value ≤ 64) then 0xFF
  else if 65 ≤ value ∧ value ≤ 90 then 0x00 + (value - 65)
  else if 91 ≤ value ∧ value ≤ 96 then 0xFF
  else if 97 ≤ value ∧ value ≤ 123 then 0x00 + (value - 97)
  else 0xFF

/-- Whether `malloc` of the text, `malloc` of the temporary buffer, and the creations of a `STRING` and
of a `BUFFER` succeed. -/
structure Allocations where
  result : Bool := true
  tempBuffer : Bool := true
  string : Bool := true
  buffer : Bool := true

/-! ## Encoding -/

/-- `pos1` to `pos8`. -/
structure Positions where
  pos1 : UInt8 := 0
  pos2 : UInt8 := 0
  pos3 : UInt8 := 0
  pos4 : UInt8 := 0
  pos5 : UInt8 := 0
  pos6 : UInt8 := 0
  pos7 : UInt8 := 0
  pos8 : UInt8 := 0

/-- The first switch; each case falls through to those below it. -/
def chunks (iterator : Nat → UInt8) (blockLen : Nat) : Positions :=
  let p : Positions := {}
  let p := if 5 ≤ blockLen then
      { p with
        pos8 := iterator 4 &&& 0x1F
        pos7 := (iterator 4 &&& 0xE0) >>> 5 }
    else p
  let p := if 4 ≤ blockLen then
      { p with
        pos7 := p.pos7 ||| ((iterator 3 &&& 0x03) <<< 3)
        pos6 := (iterator 3 &&& 0x7C) >>> 2
        pos5 := (iterator 3 &&& 0x80) >>> 7 }
    else p
  let p := if 3 ≤ blockLen then
      { p with
        pos5 := p.pos5 ||| ((iterator 2 &&& 0x0F) <<< 1)
        pos4 := (iterator 2 &&& 0xF0) >>> 4 }
    else p
  let p := if 2 ≤ blockLen then
      { p with
        pos4 := p.pos4 ||| ((iterator 1 &&& 0x01) <<< 4)
        pos3 := (iterator 1 &&& 0x3E) >>> 1
        pos2 := (iterator 1 &&& 0xC0) >>> 6 }
    else p
  if 1 ≤ blockLen then
    { p with
      pos2 := p.pos2 ||| ((iterator 0 &&& 0x07) <<< 2)
      pos1 := (iterator 0 &&& 0xF8) >>> 3 }
  else p

/-- The second switch; each case falls through to those below it. -/
def padded (p : Positions) (blockLen : Nat) : Positions :=
  let p := if blockLen ≤ 1 then { p with pos4 := 32, pos3 := 32 } else p
  let p := if blockLen ≤ 2 then { p with pos5 := 32 } else p
  let p := if blockLen ≤ 3 then { p with pos7 := 32, pos6 := 32 } else p
  if blockLen ≤ 4 then { p with pos8 := 32 } else p

/-- The characters that are written for a block. -/
def blockChars (source : Bytes) (blockLen : Nat) : Bytes :=
  let p := padded (chunks (fun i => source.getD i 0) blockLen) blockLen
  [p.pos1, p.pos2, p.pos3, p.pos4, p.pos5, p.pos6, p.pos7, p.pos8].map fun pos =>
    base32Values.getD pos.toNat 0

/-- The loop of `base32_encode_impl`. -/
def encodeLoop (source : Bytes) (result : Block UInt8) : Option (Block UInt8) :=
  if source = [] then some result
  else
    let blockLen := if 5 < source.length then 5 else source.length
    (result.putAll (blockChars source blockLen)).bind fun result =>
      encodeLoop (source.drop blockLen) result
termination_by source.length
decreasing_by
  rename_i hne
  have hpos := List.length_pos_of_ne_nil hne
  rw [List.length_drop]
  split_ifs
  all_goals omega

/-- `base32_encode_impl`; the bytes that are not written stay zero. -/
def base32EncodeImpl (allocations : Allocations) (source : Bytes) : Option (Option Bytes) :=
  if allocations.result = false then some none
  else
    (encodeLoop source
      (.allocate ((base32EncodingLength source.length + 1) % (sizeMax + 1)))).map fun result =>
        some (cString (result.content fun _ => 0))

/-- `Base32_Encode_Bytes`; `none` is the NULL source. -/
def base32EncodeBytes (allocations : Allocations) (source : Option Bytes) : Option (Option Bytes) :=
  match source with
  | none => some none
  | some [] => if allocations.result = false then some none else some (some [])
  | some source => base32EncodeImpl allocations source

/-- `Base32_Encode`; the content of a buffer, or the NULL handle. -/
def base32Encode (allocations : Allocations) (source : Option Bytes) : Option (Option Bytes) :=
  match source with
  | none => some none
  | some [] => if allocations.string = false then some none else some (some [])
  | some source => (base32EncodeImpl allocations source).map fun encoded =>
    match encoded with
    | none => none
    | some encoded => if allocations.string = false then none else some encoded

/-! ## Decoding -/

/-- The five bytes of eight inputs. -/
def groupBytes (input0 input1 input2 input3 input4 input5 input6 input7 : UInt8) : Bytes :=
  [((input0 &&& 0x1F) <<< 3) ||| ((input1 &&& 0x1C) >>> 2),
    ((input1 &&& 0x03) <<< 6) ||| ((input2 &&& 0x1F) <<< 1) ||| ((input3 &&& 0x10) >>> 4),
    ((input3 &&& 0x0F) <<< 4) ||| ((input4 &&& 0x1E) >>> 1),
    ((input4 &&& 0x01) <<< 7) ||| ((input5 &&& 0x1F) <<< 2) ||| ((input6 &&& 0x18) >>> 3),
    ((input6 &&& 0x07) <<< 5) ||| (input7 &&& 0x1F)]

/-- By how much padding makes `dest_size` smaller. -/
def paddingBytes (input2 input4 input5 input7 : UInt8) : Nat :=
  if input7 = base32EqualSign then
    if input5 = base32EqualSign then
      if input4 = base32EqualSign then
        if input2 = base32EqualSign then 4 else 3
      else 2
    else 1
  else 0

/-- The loop of `base32_decode_impl`: `dest_size` and `temp_buffer` where it ends, or the NULL of its
errors. A string whose length is no multiple of eight would be read beyond its end. -/
def decodeLoop (allocationLen : Nat) :
    Bytes → Nat → Block UInt8 → Option (Option (Nat × Block UInt8))
  | [], destSize, tempBuffer => some (some (destSize, tempBuffer))
  | c0 :: c1 :: c2 :: c3 :: c4 :: c5 :: c6 :: c7 :: iterator, destSize, tempBuffer =>
    if [c0, c1, c2, c3, c4, c5, c6, c7].any (fun c => 0x80 ≤ c) = true then some none
    else if allocationLen < destSize + 5 then some none
    else
      let input0 := convertValueToBase32Char c0
      let input1 := convertValueToBase32Char c1
      let input2 := convertValueToBase32Char c2
      let input3 := convertValueToBase32Char c3
      let input4 := convertValueToBase32Char c4
      let input5 := convertValueToBase32Char c5
      let input6 := convertValueToBase32Char c6
      let input7 := convertValueToBase32Char c7
      (tempBuffer.putAll
        (groupBytes input0 input1 input2 input3 input4 input5 input6 input7)).bind fun tempBuffer =>
          decodeLoop allocationLen iterator
            (destSize + 5 - paddingBytes input2 input4 input5 input7) tempBuffer
  | _, _, _ => none

/-- `base32_decode_impl`; the content of the buffer that is returned. -/
def base32DecodeImpl (allocations : Allocations) (source : Bytes) : Option (Option Bytes) :=
  if source.length % 8 ≠ 0 then some none
  else
    let allocationLen := base32DecodingLength source.length
    if allocations.tempBuffer = false then some none
    else
      (decodeLoop allocationLen source 0 (.allocate allocationLen)).map fun decoded =>
        match decoded with
        | none => none
        | some (destSize, tempBuffer) =>
          if allocations.buffer = false then none else some (tempBuffer.written.take destSize)

/-- `Base32_Decode` of a `STRING`, and `Base32_Decode_String` of a `char*`. -/
def base32Decode (allocations : Allocations) (handle : Option Bytes) : Option (Option Bytes) :=
  match handle with
  | none => some none
  | some source => base32DecodeImpl allocations source

end SharedUtility.Base32
