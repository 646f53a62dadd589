import SharedUtility.CrtAbstractions
import SharedUtility.Memory.Block
import SharedUtility.UrlEncode

/-!
# UrlEncode.Code — the functions of `urlencode.c` with the memory that they write

* `encodedSize`, `writeEncoded` — the two loops of `URL_Encode`,
* `calculateDecodedStringSize`, `createDecodedString` — the two of `URL_Decode`,
* `urlEncodeString`, `urlDecodeString`.

A text is given without its NUL, which the loops do read and write.  The outer `none` is undefined behaviour, a
write outside of the block, and the inner one the NULL that is returned.
-/

namespace SharedUtility.UrlEncode

open Memory

/-- Whether `STRING_construct`, `malloc` and `STRING_new_with_memory` succeed. -/
structure Allocations where
  constructed : Bool := true
  text : Bool := true
  string : Bool := true

/-- `STRING_new_with_memory`: the string is what stands before the first NUL. -/
def stringNewWithMemory (allocations : Allocations) (memory : Block UInt8) : Option Bytes :=
  if allocations.string then some (cString memory.written) else none

/-! ## Encoding -/

def urlPrintableCharSize (charVal : UInt8) : Nat :=
  if isPrintable charVal then 1
  else if charVal < 0x80 then 3
  else 6

/-- The loop that computes `lengthOfResult`; it ends with the NUL. -/
def encodedSize : Bytes → (lengthOfResult : Nat) → Nat
  | [], lengthOfResult => addSizeT lengthOfResult (urlPrintableCharSize 0)
  | c :: currentInput, lengthOfResult =>
    encodedSize currentInput (addSizeT lengthOfResult (urlPrintableCharSize c))

/-- The loop that writes: `currentEncodePosition` and the memory. -/
def writeEncoded : Bytes → (currentEncodePosition : Nat) → Block UInt8 → Option (Nat × Block UInt8)
  | [], currentEncodePosition, encodedURL =>
    (encodedURL.putAll (urlPrintableChar 0)).map fun encodedURL =>
      (addSizeT currentEncodePosition (urlPrintableChar 0).length, encodedURL)
  | c :: currentInput, currentEncodePosition, encodedURL =>
    (encodedURL.putAll (urlPrintableChar c)).bind fun encodedURL =>
      writeEncoded currentInput (addSizeT currentEncodePosition (urlPrintableChar c).length) encodedURL

/-- `URL_Encode` on a handle that is not NULL. -/
def urlEncodeHandle (allocations : Allocations) (input : Bytes) : Option (Option Bytes) :=
  if allocations.text = false then some none
  else
    (writeEncoded input 0 (.allocate (encodedSize input 0))).map fun r =>
      stringNewWithMemory allocations r.2

def urlEncodeString (allocations : Allocations) (textEncode : Option Bytes) : Option (Option Bytes) :=
  match textEncode with
  | none => some none
  | some textEncode =>
    if allocations.constructed = false then some none
    else urlEncodeHandle allocations textEncode

/-! ## Decoding -/

def isHexDigit (c : UInt8) : Bool :=
  (0x30 ≤ c && c ≤ 0x39) || (0x41 ≤ c && c ≤ 0x46) || (0x61 ≤ c && c ≤ 0x66)

/-- `IS_IN_ASCII_RANGE`, for a big nibble. -/
def isInAsciiRange (c : UInt8) : Bool :=
  0x30 ≤ c && c ≤ 0x37

def nibbleFromString (c : UInt8) : UInt8 :=
  if isDigit c then c - 0x30 else toUpper c + 10 - 0x41

def charFromNibbles (bigNibbleStr littleNibbleStr : UInt8) : UInt8 :=
  nibbleFromString bigNibbleStr <<< 4 ||| nibbleFromString littleNibbleStr

/-- The loop of `calculateDecodedStringSize`; `none` where it breaks off. -/
def decodedSize : Bytes → (decodedSize : Nat) → Option Nat
  | [], size => some size
  | c :: encodedString, size =>
    if c = 0x25 then
      match encodedString with
      | big :: little :: encodedString =>
        if isHexDigit big = false ∨ isHexDigit little = false then none
        else if isInAsciiRange big = false then none
        else decodedSize encodedString (size + 1)
      | _ => none
    else if isPrintable c = false then none
    else decodedSize encodedString (size + 1)

/-- The size with the terminator, 0 for an error. -/
def calculateDecodedStringSize (encodedString : Bytes) : Nat :=
  if encodedString.length = 0 then 1
  else
    match decodedSize encodedString 0 with
    | none => 0
    | some size => size + 1

/-- The loop, up to the NUL; a triple that the text does not have is read from outside of it. -/
def createDecodedString : Bytes → Block UInt8 → Option (Block UInt8)
  | [], output => output.put 0
  | c :: input, output =>
    if c ≠ 0x25 then (output.put c).bind (createDecodedString input)
    else
      match input with
      | big :: little :: input =>
        (output.put (charFromNibbles big little)).bind (createDecodedString input)
      | _ => none

/-- `URL_Decode` on a handle that is not NULL. -/
def urlDecodeHandle (allocations : Allocations) (input : Bytes) : Option (Option Bytes) :=
  if calculateDecodedStringSize input = 0 then some none
  else if allocations.text = false then some none
  else
    (createDecodedString input (.allocate (calculateDecodedStringSize input))).map
      (stringNewWithMemory allocations)

def urlDecodeString (allocations : Allocations) (textDecode : Option Bytes) : Option (Option Bytes) :=
  match textDecode with
  | none => some none
  | some textDecode =>
    if allocations.constructed = false then some none
    else urlDecodeHandle allocations textDecode

/-! ## The encoder's loops -/

theorem length_urlPrintableChar (c : UInt8) : (urlPrintableChar c).length = urlPrintableCharSize c := by
  rw [urlPrintableChar, urlPrintableCharSize]
  split_ifs
  · rfl
  · rfl
  · rfl
  · rfl

theorem writeEncoded_eq (input : Bytes) (position : Nat) (encodedURL : Block UInt8) :
    writeEncoded input position encodedURL =
      (encodedURL.putAll (urlEncode input ++ [0])).map fun encodedURL =>
        (encodedSize input position, encodedURL) := by
  induction input generalizing position encodedURL with
  | nil => rfl
  | cons c input ih =>
    have happend : urlEncode (c :: input) ++ [0] = urlPrintableChar c ++ (urlEncode input ++ [0]) := by
      rw [urlEncode, List.flatMap_cons, List.append_assoc]
      rfl
    rw [writeEncoded, happend, Block.putAll_append, encodedSize]
    cases encodedURL.putAll (urlPrintableChar c) with
    | none => rfl
    | some encodedURL =>
      rw [Option.bind_some, Option.bind_some, ih, length_urlPrintableChar]

theorem encodedSize_eq {input : Bytes} {size : Nat} (h : size + (urlEncode input).length < sizeMax) :
    encodedSize input size = size + (urlEncode input).length + 1 := by
  induction input generalizing size with
  | nil =>
    have hnul : urlPrintableCharSize 0 = 1 := rfl
    rw [encodedSize, hnul, urlEncode, List.flatMap_nil, List.length_nil, Nat.add_zero]
    exact addSizeT_of_le (Nat.le_trans (Nat.succ_le_succ (Nat.le_add_right _ _)) h)
  | cons c input ih =>
    rw [urlEncode, List.flatMap_cons, List.length_append, length_urlPrintableChar] at h
    have hrest : size + urlPrintableCharSize c + (urlEncode input).length < sizeMax := by
      rw [urlEncode]
      omega
    rw [encodedSize, addSizeT_of_le (by omega), ih hrest, urlEncode, urlEncode, List.flatMap_cons,
      List.length_append, length_urlPrintableChar]
    omega

end SharedUtility.UrlEncode
