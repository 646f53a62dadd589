import SharedUtility.Buffer.Refinement
import SharedUtility.Sha.Hmac

/-!
# HmacSha256 — `hmacsha256.c`

The lengths are narrowed to `int`, and the hash is written to the start of the buffer, which has been made longer
by 32 bytes.

* `hmacSha256ComputeHash` — the function,
* `wantedHash` — what the buffer is to hold,
* `hmacSha256ComputeHash_meets` — it holds that, or memory has run out and it is unchanged.
-/

namespace SharedUtility.Sha

open Memory Buffer BitStrings

inductive HmacSha256Result
  | ok
  | invalidArg
  | error
  deriving DecidableEq, Repr

/-- `ctx` and `leftover` are what the local variables of `hmac` hold before they are written. -/
def hmacSha256ComputeHash (ctx : HmacContext) (leftover : Nat → UInt8) (key : Option Bytes) (keyLen : Nat)
    (payload : Option Bytes) (payloadLen : Nat) (hash : Option Buffer) :
    BufferM (HmacSha256Result × Option Buffer) :=
  match key with
  | none => pure (.invalidArg, hash)
  | some key =>
    if keyLen = 0 ∨ payload = none ∨ payloadLen = 0 ∨ hash = none then pure (.invalidArg, hash)
    else do
      let r ← bufferEnlarge hash 32
      if r.1 ≠ 0 then pure (.error, r.2)
      else
        let digest := bufferUChar r.2
        match hmac ctx .sha256 payload (intOfSizeT payloadLen) key (intOfSizeT keyLen) (digest ≠ none) leftover with
        | none => undefined
        | some (code, none) => pure (if code ≠ 0 then .error else .ok, r.2)
        | some (code, some written) => do
          copyIn digest 0 written written.length
          pure (if code ≠ 0 then .error else .ok, r.2)

/-! ## What the buffer is to hold -/

/-- A length from `2 ^ 31` on, below `2 ^ 32`, is one of an empty key. -/
def keyLength (keyLen : Nat) : Nat :=
  if keyLen % 2 ^ 32 < 2 ^ 31 then keyLen % 2 ^ 32 else 0

/-- The hash of the key and the payload, as long as their narrowed lengths. -/
def narrowedHash (key : Bytes) (keyLen : Nat) (payload : Bytes) (payloadLen : Nat) : Bytes :=
  keyedHash SHAversion.sha256.digest 64 (key.take (keyLength keyLen)) (bitsOf (payload.take (payloadLen % 2 ^ 32)))

/-- 32 bytes more, and the hash in the place of the first 32. -/
def wantedHash (c : Content) (hash : Bytes) : Option Content :=
  (wantedEnlarge c 32).map fun c => some (hash.map some ++ c.bytes.drop 32)

/-! ## The refinement -/

section

theorem intOfSizeT_eq (n : Nat) :
    intOfSizeT n = if n % 2 ^ 32 < 2 ^ 31 then ((n % 2 ^ 32 : Nat) : Int) else (n % 2 ^ 32 : Nat) - 2 ^ 32 := by
  rw [intOfSizeT, BitVec.toInt_eq_toNat_cond, BitVec.toNat_ofNat]
  split_ifs <;> omega

theorem unsignedOfInt_intOfSizeT (n : Nat) : unsignedOfInt (intOfSizeT n) = n % 2 ^ 32 := by
  rw [unsignedOfInt, intOfSizeT_eq]
  split_ifs <;> omega

theorem toNat_intOfSizeT (n : Nat) : (intOfSizeT n).toNat = keyLength n := by
  rw [intOfSizeT_eq, keyLength]
  split_ifs <;> omega

theorem intOfSizeT_lt (n : Nat) : intOfSizeT n < 2 ^ 31 := by
  rw [intOfSizeT_eq]
  split_ifs <;> omega

theorem keyLength_le (n : Nat) : keyLength n ≤ n := by
  unfold keyLength
  split_ifs
  · exact Nat.mod_le ..
  · exact Nat.zero_le n

end

section

variable {h : BufferHeap} {b : Buffer} {c : Content} {ctx : HmacContext} {leftover : Nat → UInt8}
  {key payload : Bytes} {keyLen payloadLen : Nat}

/-- The lengths are short enough whatever they are: `hmac` does not fail. -/
theorem hmac_narrowed (hkey : keyLen ≤ key.length) (hpayload : payloadLen ≤ payload.length) :
    hmac ctx .sha256 (some payload) (intOfSizeT payloadLen) key (intOfSizeT keyLen) true leftover =
      some (shaSuccess, some (narrowedHash key keyLen payload payloadLen)) := by
  have hvalid : (HmacCall.reset .sha256 key (intOfSizeT keyLen) leftover).valid = true := by
    refine decide_eq_true ⟨by decide, ?_, intOfSizeT_lt keyLen⟩
    rw [toNat_intOfSizeT]
    exact (keyLength_le keyLen).trans hkey
  have htext : unsignedOfInt (intOfSizeT payloadLen) ≤ payload.length := by
    rw [unsignedOfInt_intOfSizeT]
    exact (Nat.mod_le ..).trans hpayload
  rw [hmac_eq ctx .sha256 payload _ key _ leftover hvalid htext, toNat_intOfSizeT, unsignedOfInt_intOfSizeT]
  rfl

theorem narrowedHash_length : (narrowedHash key keyLen payload payloadLen).length = 32 := by
  rw [narrowedHash, keyedHash, digest_length (by decide)]
  rfl

theorem meets_copyHash {bytes : Region UInt8} {hash : Bytes} (hb : Holds h b (some bytes)) (hsize : 32 ≤ bytes.length)
    (hhash : hash.length = 32) :
    Meets (copyIn (bufferUChar (some b)) 0 hash hash.length) h fun _ h' =>
      Replaces h h' b.buffer b.buffer ∧ Holds h' b (some (hash.map some ++ bytes.drop 32)) := by
  rcases hb with ⟨⟨spare, hcell⟩, hlength⟩
  have hplace : bufferUChar (some b) = b.buffer := if_neg (by omega)
  rw [hplace]
  refine meets_copyIn hcell (le_of_eq rfl) ?_ fun h' hh hwritten => ⟨hh, ⟨spare, ?_⟩, ?_⟩
  · rw [List.length_append]
    omega
  · rw [hwritten, overwritten, List.take_zero, List.nil_append, List.take_length, List.length_map, hhash,
      List.drop_append_of_le_length (by omega), List.append_assoc]
  · rw [hlength, List.length_append, List.length_map, List.length_drop, hhash]
    omega

/-- The buffer holds the hash, or memory has run out and it is what it was. -/
theorem hmacSha256ComputeHash_meets (hb : Holds h b c) (hkey : keyLen ≤ key.length)
    (hpayload : payloadLen ≤ payload.length) (hkeyLen : keyLen ≠ 0) (hpayloadLen : payloadLen ≠ 0) :
    Meets (hmacSha256ComputeHash ctx leftover (some key) keyLen (some payload) payloadLen (some b)) h fun r h' =>
      Does view h b c (wantedHash c (narrowedHash key keyLen payload payloadLen))
        (if r.1 = .ok then 0 else 1, r.2) h' := by
  have hargs : ¬(keyLen = 0 ∨ (some payload : Option Bytes) = none ∨ payloadLen = 0 ∨
      (some b : Option Buffer) = none) := by
    rintro (hzero | hnull | hzero | hnull)
    · exact hkeyLen hzero
    · cases hnull
    · exact hpayloadLen hzero
    · cases hnull
  unfold hmacSha256ComputeHash
  dsimp only
  rw [if_neg hargs]
  apply Meets.bind
  apply (bufferEnlarge_does hb 32).mono
  rintro ⟨code, handle⟩ h₁ ⟨b₁, rfl, hreplaces, c₁, hholds, hsettles⟩
  dsimp only at hsettles ⊢
  by_cases hcode : code = 0
  case neg =>
    rw [if_pos hcode]
    refine meets_pure ⟨b₁, rfl, hreplaces, c₁, hholds, ?_⟩
    rw [beq_eq_false_iff_ne.2 hcode] at hsettles
    rcases hsettles with hdone | hfailed
    refine .failed (hfailed.imp_left fun hnone => ?_)
    rw [wantedHash, hnone]
    rfl
  case pos =>
    subst hcode
    have hgrown : wantedEnlarge c 32 = some c₁ := by
      rcases hsettles with hdone | hfailed
      exact hdone
    have hbytes : c₁ = some (c.bytes ++ unwritten 32) := by
      rcases Option.ite_none_left_eq_some.1 hgrown with ⟨-, hsome⟩
      exact (Option.some.inj hsome).symm
    subst hbytes
    have hsize : 32 ≤ (c.bytes ++ unwritten 32).length := by
      rw [List.length_append, length_unwritten]
      exact Nat.le_add_left ..
    have hplace : bufferUChar (some b₁) ≠ none := by
      rcases hholds with ⟨⟨spare, hcell⟩, hlength⟩
      have hbuffer : bufferUChar (some b₁) = b₁.buffer := if_neg (by omega)
      rw [hbuffer]
      exact Heap.ne_none_of_cell hcell
    rw [if_neg (not_not.2 rfl), decide_eq_true hplace, hmac_narrowed hkey hpayload]
    apply Meets.bind
    apply (meets_copyHash hholds hsize narrowedHash_length).mono
    rintro _ h₂ ⟨hreplaces₂, hholds₂⟩
    apply meets_pure
    have hwanted : wantedHash c (narrowedHash key keyLen payload payloadLen) =
        some (some ((narrowedHash key keyLen payload payloadLen).map some ++ (c.bytes ++ unwritten 32).drop 32)) := by
      rw [wantedHash, hgrown]
      rfl
    exact Does.done hwanted (hreplaces.trans hreplaces₂) hholds₂

/-- A buffer that is new holds the hash alone. -/
theorem hmacSha256ComputeHash_meets_new :
    wantedHash none (narrowedHash (ascii "Jefe") 4 (ascii "what do ya want for nothing?") 28) =
        some (some ([0x5B, 0xDC, 0xC1, 0x46, 0xBF, 0x60, 0x75, 0x4E, 0x6A, 0x04, 0x24, 0x26, 0x08, 0x95, 0x75, 0xC7,
          0x5A, 0x00, 0x3F, 0x08, 0x9D, 0x27, 0x39, 0x83, 0x9D, 0xEC, 0x58, 0xB9, 0x64, 0xEC, 0x38, 0x43].map some)) ∧
      Meets (hmacSha256ComputeHash emptyContext (fun _ => 0) (some (ascii "Jefe")) 4
          (some (ascii "what do ya want for nothing?")) 28 (some { buffer := none, size := 0 }))
        {} fun r h' =>
          Does view {} { buffer := none, size := 0 } none
            (wantedHash none (narrowedHash (ascii "Jefe") 4 (ascii "what do ya want for nothing?") 28))
            (if r.1 = .ok then 0 else 1, r.2) h' :=
  ⟨by decide +kernel, hmacSha256ComputeHash_meets ⟨rfl, rfl⟩ (by decide) (by decide) (by decide) (by decide)⟩

end

end SharedUtility.Sha
