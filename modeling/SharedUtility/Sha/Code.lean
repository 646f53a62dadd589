import SharedUtility.Bytes

/-!
# Code — `sha1.c`, `sha224.c` and `sha384-512.c`

The five functions differ in their words, their blocks and the function for one block; the functions of the
interface are written once, over an `Algorithm`. A store outside of `Message_Block` is undefined, as is a message
that is shorter than its length says: then the result is `none`.

SHA-384 and SHA-512 have words of 64 bits, the other three of 32; SHA-1 has a schedule and rounds of its own.
-/

namespace SharedUtility.Sha

def shaSuccess : Int := 0
def shaNull : Int := 1
def shaStateError : Int := 3
def shaBadParam : Int := 4

/-- What the functions of one `.c` file have of their own: `L` holds the length, `H` the `Intermediate_Hash`. -/
structure Algorithm (L H : Type) where
  blockSize : Nat
  /-- The bytes at the end of the last block that hold the length. -/
  lengthSize : Nat
  zeroLength : L
  /-- The new length, and whether it has overflowed. -/
  addLength : L → Nat → L × Bool
  lengthBytes : L → Bytes
  processMessageBlock : H → Bytes → H
  digestByte : H → Nat → UInt8

structure ShaContext (L H : Type) where
  intermediateHash : H
  length : L
  messageBlockIndex : Nat
  messageBlock : Bytes
  computed : Bool
  corrupted : Int
  deriving Repr

namespace Algorithm

variable {L H : Type} (A : Algorithm L H)

/-! ## The message block -/

/-- `Message_Block[Message_Block_Index++] = b`. -/
def store (c : ShaContext L H) (b : UInt8) : Option (ShaContext L H) :=
  if c.messageBlockIndex < A.blockSize then
    some { c with
      messageBlock := c.messageBlock.set c.messageBlockIndex b
      messageBlockIndex := c.messageBlockIndex + 1 }
  else none

/-- `SHA…AddLength`. -/
def addLengthTo (c : ShaContext L H) (n : Nat) : ShaContext L H :=
  let r := A.addLength c.length n
  { c with length := r.1, corrupted := if r.2 then 1 else 0 }

/-- `SHA…ProcessMessageBlock`. -/
def process (c : ShaContext L H) : ShaContext L H :=
  { c with
    intermediateHash := A.processMessageBlock c.intermediateHash c.messageBlock
    messageBlockIndex := 0 }

def storeZeros : Nat → ShaContext L H → Option (ShaContext L H)
  | 0, c => some c
  | n + 1, c => do
    let c ← A.store c 0
    storeZeros n c

/-- `while (Message_Block_Index < limit) Message_Block[Message_Block_Index++] = 0`. -/
def padTo (limit : Nat) (c : ShaContext L H) : Option (ShaContext L H) :=
  A.storeZeros (limit - c.messageBlockIndex) c

/-- The length is stored as the last octets. -/
def storeLength (c : ShaContext L H) : ShaContext L H :=
  { c with messageBlock := c.messageBlock.take (A.blockSize - A.lengthSize) ++ A.lengthBytes c.length }

/-- `SHA…PadMessage`. -/
def padMessage (padByte : UInt8) (c : ShaContext L H) : Option (ShaContext L H) := do
  let c ←
    -- The block is too small for the length: it is processed before the one with the length.
    if c.messageBlockIndex ≥ A.blockSize - A.lengthSize then do
      let c ← A.store c padByte
      let c ← A.padTo A.blockSize c
      pure (A.process c)
    else A.store c padByte
  let c ← A.padTo (A.blockSize - A.lengthSize) c
  pure (A.process (A.storeLength c))

/-- `SHA…Finalize`; the message may be sensitive, so it is cleared. -/
def finalize (padByte : UInt8) (c : ShaContext L H) : Option (ShaContext L H) := do
  let c ← A.padMessage padByte c
  pure { c with
    messageBlock := List.replicate A.blockSize 0
    length := A.zeroLength
    computed := true }

/-! ## The interface -/

/-- `SHA…Reset`, from an initial hash value. -/
def reset (h0 : H) (context : Option (ShaContext L H)) : Int × Option (ShaContext L H) :=
  match context with
  | none => (shaNull, none)
  | some c =>
    (shaSuccess, some { c with
      length := A.zeroLength
      messageBlockIndex := 0
      intermediateHash := h0
      computed := false
      corrupted := 0 })

/-- The loop of `SHA…Input`. -/
def inputLoop : Bytes → ShaContext L H → Option (ShaContext L H)
  | [], c => some c
  | b :: messageArray, c =>
    if c.corrupted ≠ 0 then some c
    else do
      let c ← A.store c b
      let c := A.addLengthTo c 8
      if c.corrupted = 0 ∧ c.messageBlockIndex = A.blockSize then inputLoop messageArray (A.process c)
      else inputLoop messageArray c

/-- `SHA…Input`. -/
def input (context : Option (ShaContext L H)) (messageArray : Option Bytes) (length : Nat) :
    Option (Int × Option (ShaContext L H)) :=
  if length = 0 then some (shaSuccess, context)
  else
    match context, messageArray with
    | some c, some messageArray =>
      if c.computed then some (shaStateError, some { c with corrupted := shaStateError })
      else if c.corrupted ≠ 0 then some (c.corrupted, some c)
      else if length ≤ messageArray.length then do
        let c ← A.inputLoop (messageArray.take length) c
        some (shaSuccess, some c)
      else none
    | context, _ => some (shaNull, context)

def masks : List UInt8 := [0x00, 0x80, 0xC0, 0xE0, 0xF0, 0xF8, 0xFC, 0xFE]

def markbit : List UInt8 := [0x80, 0x40, 0x20, 0x10, 0x08, 0x04, 0x02, 0x01]

/-- `SHA…FinalBits`. -/
def finalBits (context : Option (ShaContext L H)) (messageBits : UInt8) (length : Nat) :
    Option (Int × Option (ShaContext L H)) :=
  if length = 0 then some (shaSuccess, context)
  else
    match context with
    | none => some (shaNull, none)
    | some c =>
      if c.computed ∨ length ≥ 8 ∨ length = 0 then
        some (shaStateError, some { c with corrupted := shaStateError })
      else if c.corrupted ≠ 0 then some (c.corrupted, some c)
      else do
        let padByte := (messageBits &&& masks.getD length 0) ||| markbit.getD length 0
        let c ← A.finalize padByte (A.addLengthTo c length)
        some (shaSuccess, some c)

/-- `SHA…Result`: what is written to `Message_Digest`, if it is not NULL. -/
def result (hashSize : Nat) (context : Option (ShaContext L H)) (messageDigest : Bool) :
    Option (Int × Option Bytes × Option (ShaContext L H)) :=
  match context with
  | none => some (shaNull, none, none)
  | some c =>
    if messageDigest = false then some (shaNull, none, some c)
    else if c.corrupted ≠ 0 then some (c.corrupted, none, some c)
    else do
      let c ← if c.computed then pure c else A.finalize 0x80 c
      some (shaSuccess, some ((List.range hashSize).map (A.digestByte c.intermediateHash)), some c)

end Algorithm

/-! ## What the `.c` files share -/

section

variable {w : Nat}

/-- `Length_Low` and `Length_High`. -/
structure LengthWords (w : Nat) where
  low : BitVec w
  high : BitVec w
  deriving Repr

def addLengthWords (l : LengthWords w) (n : Nat) : LengthWords w × Bool :=
  let low := l.low + BitVec.ofNat w n
  if low < l.low then
    let high := l.high + 1
    ({ low, high }, high = 0)
  else ({ l with low }, false)

def wordBytes (x : BitVec w) : Bytes :=
  (List.range (w / 8)).map fun i => UInt8.ofNat (x >>> (w - 8 - 8 * i)).toNat

/-- `W[t]` of the first 16 words. -/
def messageWord (w : Nat) (block : Bytes) (t : Nat) : BitVec w :=
  (List.range (w / 8)).foldl
    (fun word i => word ||| BitVec.ofNat w (block.getD (t * (w / 8) + i) 0).toNat <<< (w - 8 - 8 * i)) 0

/-- A byte of `Intermediate_Hash`. -/
def hashByte (hash : List (BitVec w)) (i : Nat) : UInt8 :=
  UInt8.ofNat (hash.getD (i / (w / 8)) 0 >>> (8 * (w / 8 - 1 - i % (w / 8)))).toNat

def shaCh (x y z : BitVec w) : BitVec w := (x &&& y) ^^^ (~~~x &&& z)

def shaMaj (x y z : BitVec w) : BitVec w := (x &&& y) ^^^ (x &&& z) ^^^ (y &&& z)

def shaParity (x y z : BitVec w) : BitVec w := x ^^^ y ^^^ z

def rotl (bits : Nat) (word : BitVec w) : BitVec w := word <<< bits ||| word >>> (w - bits)

def rotr (bits : Nat) (word : BitVec w) : BitVec w := word >>> bits ||| word <<< (w - bits)

end

/-- The algorithms with words of `w` bits, and blocks of 16 of them. -/
def wordAlgorithm {w : Nat} (processMessageBlock : List (BitVec w) → Bytes → List (BitVec w)) :
    Algorithm (LengthWords w) (List (BitVec w)) where
  blockSize := 2 * w
  lengthSize := w / 4
  zeroLength := { low := 0, high := 0 }
  addLength := addLengthWords
  lengthBytes l := wordBytes l.high ++ wordBytes l.low
  processMessageBlock
  digestByte := hashByte

/-! ## `sha1.c` -/

structure Sha1Words where
  a : BitVec 32
  b : BitVec 32
  c : BitVec 32
  d : BitVec 32
  e : BitVec 32

def sha1Schedule (block : Bytes) : List (BitVec 32) :=
  (List.range' 16 64).foldl
    (fun W t => W ++ [rotl 1 (W.getD (t - 3) 0 ^^^ W.getD (t - 8) 0 ^^^ W.getD (t - 14) 0 ^^^ W.getD (t - 16) 0)])
    ((List.range 16).map (messageWord 32 block))

def sha1Round (f : BitVec 32 → BitVec 32 → BitVec 32 → BitVec 32) (k : BitVec 32) (W : List (BitVec 32))
    (s : Sha1Words) (t : Nat) : Sha1Words where
  a := rotl 5 s.a + f s.b s.c s.d + s.e + W.getD t 0 + k
  b := s.a
  c := rotl 30 s.b
  d := s.c
  e := s.d

def sha1ProcessMessageBlock (hash : List (BitVec 32)) (block : Bytes) : List (BitVec 32) :=
  let W := sha1Schedule block
  let s : Sha1Words :=
    { a := hash.getD 0 0, b := hash.getD 1 0, c := hash.getD 2 0, d := hash.getD 3 0, e := hash.getD 4 0 }
  let s := (List.range' 0 20).foldl (sha1Round shaCh 0x5A827999 W) s
  let s := (List.range' 20 20).foldl (sha1Round shaParity 0x6ED9EBA1 W) s
  let s := (List.range' 40 20).foldl (sha1Round shaMaj 0x8F1BBCDC W) s
  let s := (List.range' 60 20).foldl (sha1Round shaParity 0xCA62C1D6 W) s
  [hash.getD 0 0 + s.a, hash.getD 1 0 + s.b, hash.getD 2 0 + s.c, hash.getD 3 0 + s.d, hash.getD 4 0 + s.e]

def sha1 : Algorithm (LengthWords 32) (List (BitVec 32)) :=
  wordAlgorithm sha1ProcessMessageBlock

def sha1H0 : List (BitVec 32) := [0x67452301, 0xEFCDAB89, 0x98BADCFE, 0x10325476, 0xC3D2E1F0]

/-! ## The blocks of `sha224.c` and `sha384-512.c` -/

structure Sha2Words (w : Nat) where
  a : BitVec w
  b : BitVec w
  c : BitVec w
  d : BitVec w
  e : BitVec w
  f : BitVec w
  g : BitVec w
  h : BitVec w

/-- `SIGMA0`, `SIGMA1`, `sigma0`, `sigma1` and `K`. -/
structure Sha2Functions (w : Nat) where
  bigSigma0 : BitVec w → BitVec w
  bigSigma1 : BitVec w → BitVec w
  smallSigma0 : BitVec w → BitVec w
  smallSigma1 : BitVec w → BitVec w
  k : List (BitVec w)

section

variable {w : Nat} (F : Sha2Functions w)

def sha2Schedule (block : Bytes) : List (BitVec w) :=
  (List.range' 16 (F.k.length - 16)).foldl
    (fun W t => W ++ [F.smallSigma1 (W.getD (t - 2) 0) + W.getD (t - 7) 0 +
      F.smallSigma0 (W.getD (t - 15) 0) + W.getD (t - 16) 0])
    ((List.range 16).map (messageWord w block))

def sha2Round (W : List (BitVec w)) (s : Sha2Words w) (t : Nat) : Sha2Words w :=
  let temp1 := s.h + F.bigSigma1 s.e + shaCh s.e s.f s.g + F.k.getD t 0 + W.getD t 0
  let temp2 := F.bigSigma0 s.a + shaMaj s.a s.b s.c
  { a := temp1 + temp2, b := s.a, c := s.b, d := s.c, e := s.d + temp1, f := s.e, g := s.f, h := s.g }

def sha2ProcessMessageBlock (hash : List (BitVec w)) (block : Bytes) : List (BitVec w) :=
  let W := sha2Schedule F block
  let s : Sha2Words w :=
    { a := hash.getD 0 0, b := hash.getD 1 0, c := hash.getD 2 0, d := hash.getD 3 0,
      e := hash.getD 4 0, f := hash.getD 5 0, g := hash.getD 6 0, h := hash.getD 7 0 }
  let s := (List.range F.k.length).foldl (sha2Round F W) s
  [hash.getD 0 0 + s.a, hash.getD 1 0 + s.b, hash.getD 2 0 + s.c, hash.getD 3 0 + s.d,
    hash.getD 4 0 + s.e, hash.getD 5 0 + s.f, hash.getD 6 0 + s.g, hash.getD 7 0 + s.h]

end

/-! ## `sha224.c` -/

def sha256Functions : Sha2Functions 32 where
  bigSigma0 word := rotr 2 word ^^^ rotr 13 word ^^^ rotr 22 word
  bigSigma1 word := rotr 6 word ^^^ rotr 11 word ^^^ rotr 25 word
  smallSigma0 word := rotr 7 word ^^^ rotr 18 word ^^^ word >>> 3
  smallSigma1 word := rotr 17 word ^^^ rotr 19 word ^^^ word >>> 10
  k := [
    0x428a2f98, 0x71374491, 0xb5c0fbcf, 0xe9b5dba5, 0x3956c25b, 0x59f111f1, 0x923f82a4, 0xab1c5ed5,
    0xd807aa98, 0x12835b01, 0x243185be, 0x550c7dc3, 0x72be5d74, 0x80deb1fe, 0x9bdc06a7, 0xc19bf174,
    0xe49b69c1, 0xefbe4786, 0x0fc19dc6, 0x240ca1cc, 0x2de92c6f, 0x4a7484aa, 0x5cb0a9dc, 0x76f988da,
    0x983e5152, 0xa831c66d, 0xb00327c8, 0xbf597fc7, 0xc6e00bf3, 0xd5a79147, 0x06ca6351, 0x14292967,
    0x27b70a85, 0x2e1b2138, 0x4d2c6dfc, 0x53380d13, 0x650a7354, 0x766a0abb, 0x81c2c92e, 0x92722c85,
    0xa2bfe8a1, 0xa81a664b, 0xc24b8b70, 0xc76c51a3, 0xd192e819, 0xd6990624, 0xf40e3585, 0x106aa070,
    0x19a4c116, 0x1e376c08, 0x2748774c, 0x34b0bcb5, 0x391c0cb3, 0x4ed8aa4a, 0x5b9cca4f, 0x682e6ff3,
    0x748f82ee, 0x78a5636f, 0x84c87814, 0x8cc70208, 0x90befffa, 0xa4506ceb, 0xbef9a3f7, 0xc67178f2]

def sha256 : Algorithm (LengthWords 32) (List (BitVec 32)) :=
  wordAlgorithm (sha2ProcessMessageBlock sha256Functions)

def sha224H0 : List (BitVec 32) :=
  [0xC1059ED8, 0x367CD507, 0x3070DD17, 0xF70E5939, 0xFFC00B31, 0x68581511, 0x64F98FA7, 0xBEFA4FA4]

def sha256H0 : List (BitVec 32) :=
  [0x6A09E667, 0xBB67AE85, 0x3C6EF372, 0xA54FF53A, 0x510E527F, 0x9B05688C, 0x1F83D9AB, 0x5BE0CD19]

/-! ## `sha384-512.c` -/

def sha512Functions : Sha2Functions 64 where
  bigSigma0 word := rotr 28 word ^^^ rotr 34 word ^^^ rotr 39 word
  bigSigma1 word := rotr 14 word ^^^ rotr 18 word ^^^ rotr 41 word
  smallSigma0 word := rotr 1 word ^^^ rotr 8 word ^^^ word >>> 7
  smallSigma1 word := rotr 19 word ^^^ rotr 61 word ^^^ word >>> 6
  k := [
    0x428A2F98D728AE22, 0x7137449123EF65CD, 0xB5C0FBCFEC4D3B2F, 0xE9B5DBA58189DBBC, 0x3956C25BF348B538,
    0x59F111F1B605D019, 0x923F82A4AF194F9B, 0xAB1C5ED5DA6D8118, 0xD807AA98A3030242, 0x12835B0145706FBE,
    0x243185BE4EE4B28C, 0x550C7DC3D5FFB4E2, 0x72BE5D74F27B896F, 0x80DEB1FE3B1696B1, 0x9BDC06A725C71235,
    0xC19BF174CF692694, 0xE49B69C19EF14AD2, 0xEFBE4786384F25E3, 0x0FC19DC68B8CD5B5, 0x240CA1CC77AC9C65,
    0x2DE92C6F592B0275, 0x4A7484AA6EA6E483, 0x5CB0A9DCBD41FBD4, 0x76F988DA831153B5, 0x983E5152EE66DFAB,
    0xA831C66D2DB43210, 0xB00327C898FB213F, 0xBF597FC7BEEF0EE4, 0xC6E00BF33DA88FC2, 0xD5A79147930AA725,
    0x06CA6351E003826F, 0x142929670A0E6E70, 0x27B70A8546D22FFC, 0x2E1B21385C26C926, 0x4D2C6DFC5AC42AED,
    0x53380D139D95B3DF, 0x650A73548BAF63DE, 0x766A0ABB3C77B2A8, 0x81C2C92E47EDAEE6, 0x92722C851482353B,
    0xA2BFE8A14CF10364, 0xA81A664BBC423001, 0xC24B8B70D0F89791, 0xC76C51A30654BE30, 0xD192E819D6EF5218,
    0xD69906245565A910, 0xF40E35855771202A, 0x106AA07032BBD1B8, 0x19A4C116B8D2D0C8, 0x1E376C085141AB53,
    0x2748774CDF8EEB99, 0x34B0BCB5E19B48A8, 0x391C0CB3C5C95A63, 0x4ED8AA4AE3418ACB, 0x5B9CCA4F7763E373,
    0x682E6FF3D6B2B8A3, 0x748F82EE5DEFB2FC, 0x78A5636F43172F60, 0x84C87814A1F0AB72, 0x8CC702081A6439EC,
    0x90BEFFFA23631E28, 0xA4506CEBDE82BDE9, 0xBEF9A3F7B2C67915, 0xC67178F2E372532B, 0xCA273ECEEA26619C,
    0xD186B8C721C0C207, 0xEADA7DD6CDE0EB1E, 0xF57D4F7FEE6ED178, 0x06F067AA72176FBA, 0x0A637DC5A2C898A6,
    0x113F9804BEF90DAE, 0x1B710B35131C471B, 0x28DB77F523047D84, 0x32CAAB7B40C72493, 0x3C9EBE0A15C9BEBC,
    0x431D67C49C100D4C, 0x4CC5D4BECB3E42B6, 0x597F299CFC657E2A, 0x5FCB6FAB3AD6FAEC, 0x6C44198C4A475817]

def sha512 : Algorithm (LengthWords 64) (List (BitVec 64)) :=
  wordAlgorithm (sha2ProcessMessageBlock sha512Functions)

def sha384H0 : List (BitVec 64) := [
    0xCBBB9D5DC1059ED8, 0x629A292A367CD507, 0x9159015A3070DD17, 0x152FECD8F70E5939,
    0x67332667FFC00B31, 0x8EB44A8768581511, 0xDB0C2E0D64F98FA7, 0x47B5481DBEFA4FA4]

def sha512H0 : List (BitVec 64) := [
    0x6A09E667F3BCC908, 0xBB67AE8584CAA73B, 0x3C6EF372FE94F82B, 0xA54FF53A5F1D36F1,
    0x510E527FADE682D1, 0x9B05688C2B3E6C1F, 0x1F83D9ABFB41BD6B, 0x5BE0CD19137E2179]

end SharedUtility.Sha
