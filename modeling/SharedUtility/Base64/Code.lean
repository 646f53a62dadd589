import SharedUtility.Base64
import SharedUtility.Memory.Block

/-!
# Base64.Code — the functions of `base64.c` with the memory that they write

* `encodeInternal`, `base64EncodeBytes`, `base64Encoder` — the text, in the block of `malloc`,
* `decoder` — the bytes, in the block of `BUFFER_pre_build`.

The outer `none` is undefined behaviour, a write outside of the block, and the inner one the NULL that is
returned. Which allocations succeed is given.
-/

namespace SharedUtility.Base64

open Memory

/-- Whether `malloc` of the text, the creation of a `STRING`, `BUFFER_new` and `BUFFER_pre_build`
succeed. -/
structure Allocations where
  encoded : Bool := true
  string : Bool := true
  buffer : Bool := true
  content : Bool := true

/-- The `neededSize` of `Base64_Encode_Internal`. -/
def neededSize (size : Nat) : Nat :=
  ((if size = 0 then 0 else ((size - 1) / 3 + 1) * 4) + 1) % (sizeMax + 1)

/-- The writes to `encoded`, without the terminating NUL. -/
def encodeLoop : Bytes → Block UInt8 → Option (Block UInt8)
  | b0 :: b1 :: b2 :: rest, encoded =>
    (encoded.putAll
      [base64char (b0 >>> 2),
        base64char (((b0 &&& 3) <<< 4) ||| (b1 >>> 4)),
        base64char (((b1 &&& 0x0F) <<< 2) ||| ((b2 >>> 6) &&& 3)),
        base64char (b2 &&& 0x3F)]).bind (encodeLoop rest)
  | [b0, b1], encoded =>
    encoded.putAll
      [base64char (b0 >>> 2),
        base64char (((b0 &&& 3) <<< 4) ||| (b1 >>> 4)),
        base64b16 (b1 &&& 0x0F), 0x3D]
  | [b0], encoded =>
    encoded.putAll [base64char (b0 >>> 2), base64b8 (b0 &&& 3), 0x3D, 0x3D]
  | [], encoded => some encoded

/-- `Base64_Encode_Internal`; the string is what stands before the first NUL. -/
def encodeInternal (allocations : Allocations) (source : Bytes) : Option (Option Bytes) :=
  if allocations.encoded = false then some none
  else do
    let encoded ← encodeLoop source
      (.allocate ((neededSize source.length + 1) % (sizeMax + 1)))
    let encoded ← encoded.put 0
    if allocations.string = false then some none
    else some (some (cString encoded.written))

/-- `Base64_Encode_Bytes`; `none` is the NULL source. -/
def base64EncodeBytes (allocations : Allocations) (source : Option Bytes) : Option (Option Bytes) :=
  match source with
  | none => some none
  | some [] => if allocations.string = false then some none else some (some [])
  | some source => encodeInternal allocations source

/-- `Base64_Encoder`; the content of a buffer, or the NULL handle. -/
def base64Encoder (allocations : Allocations) (input : Option Bytes) : Option (Option Bytes) :=
  match input with
  | none => some none
  | some inputBinary => encodeInternal allocations inputBinary

/-- The writes of `Base64decode`, from the values of the characters. -/
def decodeLoop : List UInt8 → Block UInt8 → Option (Block UInt8)
  | c1 :: c2 :: c3 :: c4 :: rest, decodedString =>
    (decodedString.putAll
      [(c1 <<< 2) ||| (c2 >>> 4), ((c2 &&& 0x0F) <<< 4) ||| (c3 >>> 2),
        ((c3 &&& 0x03) <<< 6) ||| c4]).bind (decodeLoop rest)
  | [c1, c2, c3], decodedString =>
    decodedString.putAll [(c1 <<< 2) ||| (c2 >>> 4), ((c2 &&& 0x0F) <<< 4) ||| (c3 >>> 2)]
  | [c1, c2], decodedString => decodedString.putAll [(c1 <<< 2) ||| (c2 >>> 4)]
  | _, decodedString => some decodedString

/-- `Base64_Decoder`; the content of the buffer that is returned. -/
def decoder (allocations : Allocations) (source : Option Bytes) (uninitialised : Nat → UInt8) :
    Option (Option Bytes) :=
  match source with
  | none => some none
  | some source =>
    if source.length % 4 ≠ 0 then some none
    else if allocations.buffer = false then some none
    else
      let sizeOfOutputBuffer := base64decodeLen source
      if 0 < sizeOfOutputBuffer then
        if allocations.content = false then some none
        else (decodeLoop (base64Values source) (.allocate sizeOfOutputBuffer)).map fun decoded =>
          some (decoded.content uninitialised)
      else some (some [])

/-! ## What is written -/

theorem encodeLoop_eq (source : Bytes) (encoded : Block UInt8) :
    encodeLoop source encoded = encoded.putAll (base64EncodeInternal source) := by
  induction source using base64EncodeInternal.induct generalizing encoded with
  | case1 b0 b1 b2 rest ih =>
    rw [encodeLoop, base64EncodeInternal, funext ih]
    exact (encoded.putAll_append [_, _, _, _] _).symm
  | case2 b0 b1 => rw [encodeLoop, base64EncodeInternal]
  | case3 b0 => rw [encodeLoop, base64EncodeInternal]
  | case4 => rw [encodeLoop, base64EncodeInternal, Block.putAll_nil]

theorem decodeLoop_eq (values : List UInt8) (decodedString : Block UInt8) :
    decodeLoop values decodedString = decodedString.putAll (base64decode values) := by
  induction values using base64decode.induct generalizing decodedString with
  | case1 c1 c2 c3 c4 rest ih =>
    rw [decodeLoop, base64decode, funext ih]
    exact (decodedString.putAll_append [_, _, _] _).symm
  | case2 c1 c2 c3 => rw [decodeLoop, base64decode]
  | case3 c1 c2 => rw [decodeLoop, base64decode]
  | case4 values h1 h2 h3 => rw [decodeLoop, base64decode, Block.putAll_nil] <;> assumption

theorem length_encode (source : Bytes) :
    (base64EncodeInternal source).length = 4 * ((source.length + 2) / 3) := by
  induction source using base64EncodeInternal.induct with
  | case1 b0 b1 b2 rest ih =>
    simp only [base64EncodeInternal, List.length_cons, ih]
    omega
  | case2 b0 b1 => simp [base64EncodeInternal]
  | case3 b0 => simp [base64EncodeInternal]
  | case4 => simp [base64EncodeInternal]

theorem neededSize_eq {source : Bytes} (h : 4 * ((source.length + 2) / 3) < sizeMax) :
    neededSize source.length = (base64EncodeInternal source).length + 1 := by
  have hsize : (if source.length = 0 then 0 else ((source.length - 1) / 3 + 1) * 4) =
      4 * ((source.length + 2) / 3) := by
    split_ifs with hzero
    · omega
    · omega
  rw [neededSize, hsize, length_encode, Nat.mod_eq_of_lt (by omega)]

end SharedUtility.Base64
