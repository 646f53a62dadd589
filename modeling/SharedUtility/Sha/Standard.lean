import SharedUtility.BitStrings
import SharedUtility.BlockStream
import SharedUtility.Sha.Code

/-!
# Standard — what the hash functions are for

A message is a string of bits. It is made longer by a 1, by as few 0 as make whole blocks with the length behind
them, and by the length, and its digest is what the blocks make of the initial hash value.

* `padded`, `Algorithm.digest` — the message in blocks, and its digest,
* `HashObject` — a message that is given piece by piece, until its digest is asked for,
* `bytesOf_padded` — the blocks of a message that ends within a byte.
-/

namespace SharedUtility.Sha

open BitStrings BlockStream

/-- The fewest 0 that make whole blocks of `block` bits. -/
def padding (block length : Nat) : Nat :=
  (block - length % block) % block

/-- A message of bits in blocks of `blockSize` bytes, with the length in the last `lengthSize` of them. -/
def padded (blockSize lengthSize : Nat) (bits : List Bool) : List Bool :=
  bits ++ true ::
    (List.replicate (padding (8 * blockSize) (bits.length + 1 + 8 * lengthSize)) false ++
      numberBits (8 * lengthSize) bits.length)

def Algorithm.digest {L H : Type} (A : Algorithm L H) (h0 : H) (hashSize : Nat) (bits : List Bool) : Bytes :=
  let h := compressAll A.blockSize A.processMessageBlock h0 (bytesOf (padded A.blockSize A.lengthSize bits))
  (List.range hashSize).map (A.digestByte h)

/-! ## The object -/

/-- A context that has been reset: it takes bytes, it holds a whole message, or it only answers with a code. -/
inductive HashObject
  | absorbing (message : Bytes)
  | finished (bits : List Bool)
  | broken (code : Int)

inductive Call
  | input (messageArray : Option Bytes) (length : Nat)
  | finalBits (messageBits : UInt8) (length : Nat)
  | result (messageDigest : Bool)

structure Answer where
  code : Int
  digest : Option Bytes := none
  deriving DecidableEq

/-- The message is at least as long as its length says. -/
def Call.valid : Call → Bool
  | .input (some messageArray) length => length ≤ messageArray.length
  | _ => true

/-- One call, for messages of less than `limit` bits. A message that reaches the limit is not told to be too long:
it is answered with success, and all that follows with the code of a NULL pointer. -/
def HashObject.step (digest : List Bool → Bytes) (limit : Nat) (o : HashObject) : Call → Answer × HashObject
  | .input messageArray length =>
    if length = 0 then ({ code := shaSuccess }, o)
    else
      match messageArray, o with
      | none, o => ({ code := shaNull }, o)
      | some _, .finished _ => ({ code := shaStateError }, .broken shaStateError)
      | some _, .broken code => ({ code }, .broken code)
      | some messageArray, .absorbing message =>
        if 8 * (message.length + length) < limit then
          ({ code := shaSuccess }, .absorbing (message ++ messageArray.take length))
        else ({ code := shaSuccess }, .broken shaNull)
  | .finalBits messageBits length =>
    if length = 0 then ({ code := shaSuccess }, o)
    else if length ≥ 8 then ({ code := shaStateError }, .broken shaStateError)
    else
      match o with
      | .finished _ => ({ code := shaStateError }, .broken shaStateError)
      | .broken code => ({ code }, .broken code)
      | .absorbing message =>
        ({ code := shaSuccess },
          .finished (bitsOf message ++ (numberBits 8 messageBits.toNat).take length))
  | .result messageDigest =>
    if messageDigest = false then ({ code := shaNull }, o)
    else
      match o with
      | .broken code => ({ code }, .broken code)
      | .finished bits => ({ code := shaSuccess, digest := some (digest bits) }, .finished bits)
      | .absorbing message =>
        ({ code := shaSuccess, digest := some (digest (bitsOf message)) }, .finished (bitsOf message))

/-! ## The padding in bytes -/

section

variable {block length k : Nat}

theorem padding_eq (hk : k < block) (hdvd : block ∣ length + k) : padding block length = k := by
  have hpos : 0 < block := Nat.zero_lt_of_lt hk
  have hlength : length % block < block := Nat.mod_lt _ hpos
  have hsum : (length % block + k) % block = 0 := by
    rw [Nat.mod_add_mod]
    exact Nat.mod_eq_zero_of_dvd hdvd
  rw [padding]
  by_cases hzero : length % block = 0
  · rw [hzero, Nat.zero_add, Nat.mod_eq_of_lt hk] at hsum
    rw [hzero, Nat.sub_zero, Nat.mod_self, hsum]
  · -- Both parts are less than a block, so that together they are one.
    have hone : length % block + k = block := by
      rcases Nat.lt_or_ge (length % block + k) block with hless | hge
      · rw [Nat.mod_eq_of_lt hless] at hsum
        omega
      · rw [Nat.mod_eq_sub_mod hge, Nat.mod_eq_of_lt (by omega)] at hsum
        omega
    rw [Nat.mod_eq_of_lt (by omega)]
    omega

end

/-- The zero bytes between the byte with the mark bit, at place `r` of its block, and the length. -/
def zeroBytes (blockSize lengthSize r : Nat) : Nat :=
  if r ≥ blockSize - lengthSize then blockSize - (r + 1) + (blockSize - lengthSize)
  else blockSize - lengthSize - (r + 1)

section

variable {blockSize lengthSize r : Nat} {message : Bytes} {last : List Bool} {padByte : UInt8}

theorem zeroBytes_lt (hlength : lengthSize < blockSize) (hr : r < blockSize) :
    zeroBytes blockSize lengthSize r < blockSize := by
  unfold zeroBytes
  split_ifs <;> omega

theorem zeroBytes_dvd (hlength : lengthSize < blockSize) (hr : r < blockSize) :
    blockSize ∣ r + 1 + zeroBytes blockSize lengthSize r + lengthSize := by
  unfold zeroBytes
  split_ifs
  · exact ⟨2, by omega⟩
  · exact ⟨1, by omega⟩

/-- The message with the byte of the mark bit, the zero bytes and the length is made of whole blocks. -/
theorem padded_dvd (hlength : lengthSize < blockSize) (n : Nat) :
    blockSize ∣ n + 1 + zeroBytes blockSize lengthSize (n % blockSize) + lengthSize := by
  have hdvd := zeroBytes_dvd hlength (Nat.mod_lt n (Nat.zero_lt_of_lt hlength))
  have hsplit := Nat.div_add_mod n blockSize
  have hsum : n + 1 + zeroBytes blockSize lengthSize (n % blockSize) + lengthSize =
      blockSize * (n / blockSize) +
        (n % blockSize + 1 + zeroBytes blockSize lengthSize (n % blockSize) + lengthSize) := by
    omega
  rw [hsum]
  exact Nat.dvd_add (Nat.dvd_mul_right ..) hdvd

theorem bitsOf_zeros (n : Nat) : bitsOf (List.replicate n 0) = List.replicate (8 * n) false := by
  induction n with
  | zero => rfl
  | succ n ih =>
    rw [List.replicate_succ, bitsOf_cons, ih, Nat.mul_succ, Nat.add_comm, List.replicate_add]
    rfl

/-- The bits behind the whole bytes stand in a byte with the mark bit, and that is the one with which the zero
bytes start. -/
theorem bytesOf_padded (hlength : lengthSize < blockSize) (hlast : last.length < 8)
    (hbyte : numberBits 8 padByte.toNat = last ++ true :: List.replicate (7 - last.length) false) :
    bytesOf (padded blockSize lengthSize (bitsOf message ++ last)) =
      message ++ padByte ::
        (List.replicate (zeroBytes blockSize lengthSize (message.length % blockSize)) 0 ++
          numberBytes lengthSize (8 * message.length + last.length)) := by
  have hbits : (bitsOf message ++ last).length = 8 * message.length + last.length := by
    rw [List.length_append, length_bitsOf]
  have hr := Nat.mod_lt message.length (Nat.zero_lt_of_lt hlength)
  have hzeros : padding (8 * blockSize) (8 * message.length + last.length + 1 + 8 * lengthSize) =
      7 - last.length + 8 * zeroBytes blockSize lengthSize (message.length % blockSize) := by
    apply padding_eq
    · have hless := zeroBytes_lt hlength hr
      omega
    · rcases padded_dvd hlength message.length with ⟨count, hcount⟩
      refine ⟨count, ?_⟩
      rw [Nat.mul_assoc, ← hcount]
      omega
  have hpadded : padded blockSize lengthSize (bitsOf message ++ last) =
      bitsOf (message ++ padByte ::
        (List.replicate (zeroBytes blockSize lengthSize (message.length % blockSize)) 0 ++
          numberBytes lengthSize (8 * message.length + last.length))) := by
    rw [padded, hbits, hzeros, bitsOf_append, bitsOf_cons, bitsOf_append, bitsOf_zeros, bitsOf_numberBytes,
      hbyte, List.replicate_add, List.append_assoc, List.append_assoc, List.append_assoc, List.cons_append]
  rw [hpadded, bytesOf_bitsOf]

end

end SharedUtility.Sha
