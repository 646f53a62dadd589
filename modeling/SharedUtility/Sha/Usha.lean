import SharedUtility.Sha.Streaming

/-!
# Usha — `usha.c`

One interface for the five hash functions: `whichSha` says which member of the union is in use.

* `ushaReset`, `ushaInput`, `ushaFinalBits`, `ushaResult` — the switches,
* `UshaObject` — a hash object that can be reset, also to another function,
* `usha_run_refines` — every run of calls answers as the object.
-/

namespace SharedUtility.Sha

open BitStrings BlockStream

/-- `enum SHAversion`; a C enumeration can also hold another number. -/
inductive SHAversion
  | sha1
  | sha224
  | sha256
  | sha384
  | sha512
  | other
  deriving DecidableEq, Repr

abbrev Sha1Context := ShaContext (LengthWords 32) (List (BitVec 32))

abbrev Sha256Context := ShaContext (LengthWords 32) (List (BitVec 32))

abbrev Sha512Context := ShaContext (LengthWords 64) (List (BitVec 64))

/-- `USHAContext`: the member that `whichSha` selects. -/
inductive UshaContext
  | sha1 (ctx : Sha1Context)
  | sha224 (ctx : Sha256Context)
  | sha256 (ctx : Sha256Context)
  | sha384 (ctx : Sha512Context)
  | sha512 (ctx : Sha512Context)
  | other

/-! ## The switches -/

/-- What stands in the union before a reset: another member, or nothing that has been written. -/
def leftoverContext {w : Nat} (blockSize : Nat) (leftover : Nat → UInt8) :
    ShaContext (LengthWords w) (List (BitVec w)) where
  intermediateHash := []
  length := { low := 0, high := 0 }
  messageBlockIndex := 0
  messageBlock := (List.range blockSize).map leftover
  computed := false
  corrupted := 0

/-- The result of a function of the member, in the union. -/
def UshaContext.within {w : Nat} {R : Type}
    (member : ShaContext (LengthWords w) (List (BitVec w)) → UshaContext)
    (r : R × Option (ShaContext (LengthWords w) (List (BitVec w)))) : R × Option UshaContext :=
  (r.1, r.2.map member)

def ushaReset (ctx : Option UshaContext) (whichSha : SHAversion) (leftover : Nat → UInt8) :
    Int × Option UshaContext :=
  match ctx with
  | none => (shaNull, none)
  | some _ =>
    match whichSha with
    | .sha1 => UshaContext.within .sha1 (sha1.reset sha1H0 (some (leftoverContext 64 leftover)))
    | .sha224 => UshaContext.within .sha224 (sha256.reset sha224H0 (some (leftoverContext 64 leftover)))
    | .sha256 => UshaContext.within .sha256 (sha256.reset sha256H0 (some (leftoverContext 64 leftover)))
    | .sha384 => UshaContext.within .sha384 (sha512.reset sha384H0 (some (leftoverContext 128 leftover)))
    | .sha512 => UshaContext.within .sha512 (sha512.reset sha512H0 (some (leftoverContext 128 leftover)))
    | .other => (shaBadParam, some .other)

def ushaInput (ctx : Option UshaContext) (bytes : Option Bytes) (bytecount : Nat) :
    Option (Int × Option UshaContext) :=
  match ctx with
  | none => some (shaNull, none)
  | some (.sha1 c) => (sha1.input (some c) bytes bytecount).map (UshaContext.within .sha1)
  | some (.sha224 c) => (sha256.input (some c) bytes bytecount).map (UshaContext.within .sha224)
  | some (.sha256 c) => (sha256.input (some c) bytes bytecount).map (UshaContext.within .sha256)
  | some (.sha384 c) => (sha512.input (some c) bytes bytecount).map (UshaContext.within .sha384)
  | some (.sha512 c) => (sha512.input (some c) bytes bytecount).map (UshaContext.within .sha512)
  | some .other => some (shaBadParam, some .other)

def ushaFinalBits (ctx : Option UshaContext) (bits : UInt8) (bitcount : Nat) :
    Option (Int × Option UshaContext) :=
  match ctx with
  | none => some (shaNull, none)
  | some (.sha1 c) => (sha1.finalBits (some c) bits bitcount).map (UshaContext.within .sha1)
  | some (.sha224 c) => (sha256.finalBits (some c) bits bitcount).map (UshaContext.within .sha224)
  | some (.sha256 c) => (sha256.finalBits (some c) bits bitcount).map (UshaContext.within .sha256)
  | some (.sha384 c) => (sha512.finalBits (some c) bits bitcount).map (UshaContext.within .sha384)
  | some (.sha512 c) => (sha512.finalBits (some c) bits bitcount).map (UshaContext.within .sha512)
  | some .other => some (shaBadParam, some .other)

/-- `Message_Digest` is NULL or not; the bytes are those that are written to it. -/
def ushaResult (ctx : Option UshaContext) (messageDigest : Bool) :
    Option ((Int × Option Bytes) × Option UshaContext) :=
  match ctx with
  | none => some ((shaNull, none), none)
  | some (.sha1 c) => (sha1.result 20 (some c) messageDigest).map fun r =>
    UshaContext.within .sha1 ((r.1, r.2.1), r.2.2)
  | some (.sha224 c) => (sha256.result 28 (some c) messageDigest).map fun r =>
    UshaContext.within .sha224 ((r.1, r.2.1), r.2.2)
  | some (.sha256 c) => (sha256.result 32 (some c) messageDigest).map fun r =>
    UshaContext.within .sha256 ((r.1, r.2.1), r.2.2)
  | some (.sha384 c) => (sha512.result 48 (some c) messageDigest).map fun r =>
    UshaContext.within .sha384 ((r.1, r.2.1), r.2.2)
  | some (.sha512 c) => (sha512.result 64 (some c) messageDigest).map fun r =>
    UshaContext.within .sha512 ((r.1, r.2.1), r.2.2)
  | some .other => some ((shaBadParam, none), some .other)

def ushaBlockSize : SHAversion → Nat
  | .sha1 => 64
  | .sha224 => 64
  | .sha256 => 64
  | .sha384 => 128
  | _ => 128

def ushaHashSize : SHAversion → Nat
  | .sha1 => 20
  | .sha224 => 28
  | .sha256 => 32
  | .sha384 => 48
  | _ => 64

def ushaHashSizeBits : SHAversion → Nat
  | .sha1 => 160
  | .sha224 => 224
  | .sha256 => 256
  | .sha384 => 384
  | _ => 512

/-! ## Runs of calls -/

inductive UshaCall
  | reset (whichSha : SHAversion) (leftover : Nat → UInt8)
  | pass (call : Call)

def UshaCall.valid : UshaCall → Bool
  | .reset _ _ => true
  | .pass call => call.valid

def ushaCall (ctx : Option UshaContext) : UshaCall → Option (Answer × Option UshaContext)
  | .reset whichSha leftover =>
    let r := ushaReset ctx whichSha leftover
    some ({ code := r.1 }, r.2)
  | .pass (.input messageArray length) => do
    let r ← ushaInput ctx messageArray length
    some ({ code := r.1 }, r.2)
  | .pass (.finalBits messageBits length) => do
    let r ← ushaFinalBits ctx messageBits length
    some ({ code := r.1 }, r.2)
  | .pass (.result messageDigest) => do
    let r ← ushaResult ctx messageDigest
    some ({ code := r.1.1, digest := r.1.2 }, r.2)

def ushaRun : Option UshaContext → List UshaCall → Option (List Answer)
  | _, [] => some []
  | ctx, call :: calls => do
    let r ← ushaCall ctx call
    let answers ← ushaRun r.2 calls
    some (r.1 :: answers)

/-! ## The object -/

def SHAversion.digest : SHAversion → List Bool → Bytes
  | .sha1 => Sha.sha1.digest sha1H0 20
  | .sha224 => Sha.sha256.digest sha224H0 28
  | .sha256 => Sha.sha256.digest sha256H0 32
  | .sha384 => Sha.sha512.digest sha384H0 48
  | .sha512 => Sha.sha512.digest sha512H0 64
  | .other => fun _ => []

/-- A message has fewer bits. -/
def SHAversion.limit : SHAversion → Nat
  | .sha384 => 2 ^ 128
  | .sha512 => 2 ^ 128
  | _ => 2 ^ 64

inductive UshaObject
  | hash (whichSha : SHAversion) (o : HashObject)
  | unknown

def UshaObject.step : UshaObject → UshaCall → Answer × UshaObject
  | _, .reset whichSha _ =>
    if whichSha = .other then ({ code := shaBadParam }, .unknown)
    else ({ code := shaSuccess }, .hash whichSha (.absorbing []))
  | .hash whichSha o, .pass call =>
    let r := o.step whichSha.digest whichSha.limit call
    (r.1, .hash whichSha r.2)
  | .unknown, .pass _ => ({ code := shaBadParam }, .unknown)

def UshaObject.run : UshaObject → List UshaCall → List Answer
  | _, [] => []
  | o, call :: calls => (o.step call).1 :: UshaObject.run (o.step call).2 calls

/-! ## The length of the message -/

section

variable {w : Nat}

theorem wordBytes_eq (hw : 8 ∣ w) (x : BitVec w) : wordBytes x = numberBytes (w / 8) x.toNat := by
  unfold wordBytes numberBytes
  apply List.map_congr_left
  intro i hi
  have hshift : w - 8 - 8 * i = 8 * (w / 8 - 1 - i) := by
    have hi := List.mem_range.1 hi
    omega
  rw [BitVec.toNat_ushiftRight, hshift]

/-- The number that the two words of a length make. -/
def LengthWords.value (l : LengthWords w) : Nat :=
  l.high.toNat * 2 ^ w + l.low.toNat

theorem LengthWords.value_lt (l : LengthWords w) : l.value < 2 ^ (2 * w) := by
  have hhigh : l.high.toNat + 1 ≤ 2 ^ w := l.high.isLt
  calc l.high.toNat * 2 ^ w + l.low.toNat
      < l.high.toNat * 2 ^ w + 2 ^ w := Nat.add_lt_add_left l.low.isLt _
    _ = (l.high.toNat + 1) * 2 ^ w := (Nat.succ_mul ..).symm
    _ ≤ 2 ^ w * 2 ^ w := Nat.mul_le_mul_right _ hhigh
    _ = 2 ^ (2 * w) := by rw [← Nat.pow_add, Nat.two_mul]

theorem low_lt_iff (hw : 8 ≤ w) (l : LengthWords w) {n : Nat} (hn : n ≤ 8) :
    (l.low + BitVec.ofNat w n < l.low ↔ ¬l.low.toNat + n < 2 ^ w) ∧
      (l.low + BitVec.ofNat w n).toNat =
        if l.low.toNat + n < 2 ^ w then l.low.toNat + n else l.low.toNat + n - 2 ^ w := by
  have hlow := l.low.isLt
  have hroom : n < 2 ^ w :=
    calc n ≤ 8 := hn
      _ < 2 ^ 8 := by decide
      _ ≤ 2 ^ w := Nat.pow_le_pow_right (by decide) hw
  have hsum : (l.low + BitVec.ofNat w n).toNat = (l.low.toNat + n) % 2 ^ w := by
    rw [BitVec.toNat_add, BitVec.toNat_ofNat, Nat.add_mod_mod]
  rw [BitVec.lt_def, hsum]
  split_ifs with hcarry
  · rw [Nat.mod_eq_of_lt hcarry]
    exact ⟨⟨fun h => by omega, fun h => absurd hcarry h⟩, rfl⟩
  · rw [Nat.mod_eq_sub_mod (not_lt.1 hcarry), Nat.mod_eq_of_lt (by omega)]
    exact ⟨⟨fun _ => hcarry, fun _ => by omega⟩, rfl⟩

theorem addLengthWords_value (hw : 8 ≤ w) (l : LengthWords w) {n : Nat} (hn : n ≤ 8) :
    if l.value + n < 2 ^ (2 * w) then
      (addLengthWords l n).1.value = l.value + n ∧ (addLengthWords l n).2 = false
    else (addLengthWords l n).2 = true := by
  rcases low_lt_iff hw l hn with ⟨hless, hlow⟩
  have hhigh := l.high.isLt
  have hsquare : 2 ^ (2 * w) = 2 ^ w * 2 ^ w := by rw [← Nat.pow_add, Nat.two_mul]
  unfold addLengthWords
  by_cases hcarry : l.low.toNat + n < 2 ^ w
  case pos =>
    rw [if_pos hcarry] at hlow
    have hfits : l.value + n < 2 ^ (2 * w) := by
      have hvalue := LengthWords.value_lt { l with low := l.low + BitVec.ofNat w n }
      rw [LengthWords.value, hlow] at hvalue
      rw [LengthWords.value, Nat.add_assoc]
      exact hvalue
    rw [if_pos hfits, if_neg fun h => hless.1 h hcarry]
    refine ⟨?_, rfl⟩
    rw [LengthWords.value, hlow, LengthWords.value, Nat.add_assoc]
  case neg =>
    rw [if_neg hcarry] at hlow
    rw [if_pos (hless.2 hcarry)]
    have hone : (1 : BitVec w).toNat = 1 := BitVec.toNat_one (by omega)
    have hnext : (l.high.toNat + 1) * 2 ^ w = l.high.toNat * 2 ^ w + 2 ^ w := Nat.succ_mul ..
    by_cases hlast : l.high.toNat + 1 = 2 ^ w
    case pos =>
      have hfull : ¬l.value + n < 2 ^ (2 * w) := by
        rw [LengthWords.value, hsquare]
        rw [hlast] at hnext
        omega
      have hzero : l.high + 1 = 0 := by
        apply BitVec.eq_of_toNat_eq
        rw [BitVec.toNat_add, hone, hlast, Nat.mod_self]
        rfl
      rw [if_neg hfull]
      exact decide_eq_true hzero
    case neg =>
      have hmore : l.high.toNat + 1 < 2 ^ w := Nat.lt_of_le_of_ne hhigh hlast
      have hword : (l.high + 1).toNat = l.high.toNat + 1 := by
        rw [BitVec.toNat_add, hone, Nat.mod_eq_of_lt hmore]
      have hvalue : LengthWords.value { low := l.low + BitVec.ofNat w n, high := l.high + 1 } = l.value + n := by
        rw [LengthWords.value, hword, hlow, hnext, LengthWords.value]
        omega
      have hfits : l.value + n < 2 ^ (2 * w) := by
        rw [← hvalue]
        exact LengthWords.value_lt _
      rw [if_pos hfits]
      refine ⟨hvalue, decide_eq_false fun hzero => ?_⟩
      rw [hzero] at hword
      exact absurd hword.symm (Nat.succ_ne_zero _)

theorem lengthBytes_value (hw : 8 ∣ w) (l : LengthWords w) :
    wordBytes l.high ++ wordBytes l.low = numberBytes (w / 4) l.value := by
  have hsplit : w / 4 = w / 8 + w / 8 := by omega
  have hbits : 8 * (w / 8) = w := Nat.mul_div_cancel' hw
  have hhigh : l.value >>> w = l.high.toNat := by
    rw [Nat.shiftRight_eq_div_pow, LengthWords.value, Nat.mul_comm,
      Nat.mul_add_div (Nat.two_pow_pos w), Nat.div_eq_of_lt l.low.isLt, Nat.add_zero]
  have hlow : l.value % 2 ^ w = l.low.toNat := by
    rw [LengthWords.value, Nat.mul_comm, Nat.mul_add_mod, Nat.mod_eq_of_lt l.low.isLt]
  have hlast : numberBytes (w / 8) l.value = numberBytes (w / 8) l.low.toNat := by
    rw [← numberBytes_mod, hbits, hlow]
  rw [hsplit, numberBytes_add, hbits, hhigh, hlast, wordBytes_eq hw, wordBytes_eq hw]

/-- Two words count the bits of a message. -/
def wordLawful (processMessageBlock : List (BitVec w) → Bytes → List (BitVec w)) (hw : 8 ∣ w) (hpos : 8 ≤ w) :
    (wordAlgorithm processMessageBlock).Lawful (2 ^ (2 * w)) where
  value := LengthWords.value
  value_zero := by
    rw [LengthWords.value]
    simp [wordAlgorithm]
  value_add l n hn hless := by
    have hvalue := addLengthWords_value hpos l hn
    rw [if_pos hless] at hvalue
    exact hvalue
  overflow l hreached := by
    have hvalue := addLengthWords_value hpos l (Nat.le_refl 8)
    rw [if_neg (by rw [hreached]; exact Nat.lt_irrefl _)] at hvalue
    exact hvalue
  lengthBytes_eq l _ := lengthBytes_value hw l
  lengthSize_pos := Nat.div_pos (by omega) (by decide)
  lengthSize_lt := by
    change w / 4 < 2 * w
    omega
  limit_dvd := Nat.pow_dvd_pow 2 (show 3 ≤ 2 * w by omega)
  limit_pos := Nat.two_pow_pos _

end

def sha1Lawful : Sha.sha1.Lawful (2 ^ 64) :=
  wordLawful sha1ProcessMessageBlock (by decide) (by decide)

def sha256Lawful : Sha.sha256.Lawful (2 ^ 64) :=
  wordLawful (sha2ProcessMessageBlock sha256Functions) (by decide) (by decide)

def sha512Lawful : Sha.sha512.Lawful (2 ^ 128) :=
  wordLawful (sha2ProcessMessageBlock sha512Functions) (by decide) (by decide)

/-! ## The refinement -/

/-- The member in use stands for the object. -/
def UshaRelated : UshaContext → UshaObject → Prop
  | .sha1 c, .hash .sha1 o => Related sha1Lawful sha1H0 c o
  | .sha224 c, .hash .sha224 o => Related sha256Lawful sha224H0 c o
  | .sha256 c, .hash .sha256 o => Related sha256Lawful sha256H0 c o
  | .sha384 c, .hash .sha384 o => Related sha512Lawful sha384H0 c o
  | .sha512 c, .hash .sha512 o => Related sha512Lawful sha512H0 c o
  | .other, .unknown => True
  | _, _ => False

section

variable {w : Nat} (member : ShaContext (LengthWords w) (List (BitVec w)) → UshaContext)

theorem within_code (r : Option (Int × Option (ShaContext (LengthWords w) (List (BitVec w))))) :
    ((r.map (UshaContext.within member)).bind fun r => some (({ code := r.1 } : Answer), r.2)) =
      (r.bind fun r => some (({ code := r.1 } : Answer), r.2)).map (UshaContext.within member) := by
  cases r <;> rfl

theorem within_digest (r : Option (Int × Option Bytes × Option (ShaContext (LengthWords w) (List (BitVec w))))) :
    ((r.map fun r => UshaContext.within member ((r.1, r.2.1), r.2.2)).bind fun r =>
        some (({ code := r.1.1, digest := r.1.2 } : Answer), r.2)) =
      (r.bind fun r => some (({ code := r.1, digest := r.2.1 } : Answer), r.2.2)).map
        (UshaContext.within member) := by
  cases r <;> rfl

end

theorem ushaCall_eq (call : Call) :
    (∀ c, ushaCall (some (.sha1 c)) (.pass call) =
      (sha1.call 20 (some c) call).map (UshaContext.within .sha1)) ∧
    (∀ c, ushaCall (some (.sha224 c)) (.pass call) =
      (sha256.call 28 (some c) call).map (UshaContext.within .sha224)) ∧
    (∀ c, ushaCall (some (.sha256 c)) (.pass call) =
      (sha256.call 32 (some c) call).map (UshaContext.within .sha256)) ∧
    (∀ c, ushaCall (some (.sha384 c)) (.pass call) =
      (sha512.call 48 (some c) call).map (UshaContext.within .sha384)) ∧
    (∀ c, ushaCall (some (.sha512 c)) (.pass call) =
      (sha512.call 64 (some c) call).map (UshaContext.within .sha512)) := by
  cases call with
  | input messageArray length => refine ⟨?_, ?_, ?_, ?_, ?_⟩ <;> exact fun c => within_code _ _
  | finalBits messageBits length => refine ⟨?_, ?_, ?_, ?_, ?_⟩ <;> exact fun c => within_code _ _
  | result messageDigest => refine ⟨?_, ?_, ?_, ?_, ?_⟩ <;> exact fun c => within_digest _ _

section

variable {ctx : UshaContext} {o : UshaObject}

theorem usha_reset_related (ctx : UshaContext) (o : UshaObject) (whichSha : SHAversion) (leftover : Nat → UInt8) :
    ∃ ctx', ushaCall (some ctx) (.reset whichSha leftover) =
        some ((o.step (.reset whichSha leftover)).1, some ctx') ∧
      UshaRelated ctx' (o.step (.reset whichSha leftover)).2 := by
  have hsize : ∀ blockSize, ((List.range blockSize).map leftover).length = blockSize := by
    intro blockSize
    rw [List.length_map, List.length_range]
  cases whichSha with
  | sha1 =>
    rcases reset_related sha1Lawful sha1H0 (c := leftoverContext 64 leftover) (hsize 64) with
      ⟨c', hreset, hrelated⟩
    exact ⟨.sha1 c', by rw [ushaCall, ushaReset, hreset]; rfl, hrelated⟩
  | sha224 =>
    rcases reset_related sha256Lawful sha224H0 (c := leftoverContext 64 leftover) (hsize 64) with
      ⟨c', hreset, hrelated⟩
    exact ⟨.sha224 c', by rw [ushaCall, ushaReset, hreset]; rfl, hrelated⟩
  | sha256 =>
    rcases reset_related sha256Lawful sha256H0 (c := leftoverContext 64 leftover) (hsize 64) with
      ⟨c', hreset, hrelated⟩
    exact ⟨.sha256 c', by rw [ushaCall, ushaReset, hreset]; rfl, hrelated⟩
  | sha384 =>
    rcases reset_related sha512Lawful sha384H0 (c := leftoverContext 128 leftover) (hsize 128) with
      ⟨c', hreset, hrelated⟩
    exact ⟨.sha384 c', by rw [ushaCall, ushaReset, hreset]; rfl, hrelated⟩
  | sha512 =>
    rcases reset_related sha512Lawful sha512H0 (c := leftoverContext 128 leftover) (hsize 128) with
      ⟨c', hreset, hrelated⟩
    exact ⟨.sha512 c', by rw [ushaCall, ushaReset, hreset]; rfl, hrelated⟩
  | other => exact ⟨.other, rfl, trivial⟩

theorem usha_call_related (h : UshaRelated ctx o) (call : UshaCall) (hvalid : call.valid = true) :
    ∃ ctx', ushaCall (some ctx) call = some ((o.step call).1, some ctx') ∧ UshaRelated ctx' (o.step call).2 := by
  rcases call with ⟨whichSha, leftover⟩ | call
  · exact usha_reset_related ctx o whichSha leftover
  rcases ushaCall_eq call with ⟨hsha1, hsha224, hsha256, hsha384, hsha512⟩
  rcases o with ⟨whichSha, o⟩ | _
  case unknown =>
    cases ctx with
    | other => cases call <;> exact ⟨.other, rfl, trivial⟩
    | _ => exact h.elim
  case hash =>
    -- The member is the one that the object says.
    cases ctx with
    | sha1 c =>
      cases whichSha with
      | sha1 =>
        rcases call_related h 20 call hvalid with ⟨c', hcall, hrelated⟩
        exact ⟨.sha1 c', by rw [hsha1, hcall]; rfl, hrelated⟩
      | _ => exact h.elim
    | sha224 c =>
      cases whichSha with
      | sha224 =>
        rcases call_related h 28 call hvalid with ⟨c', hcall, hrelated⟩
        exact ⟨.sha224 c', by rw [hsha224, hcall]; rfl, hrelated⟩
      | _ => exact h.elim
    | sha256 c =>
      cases whichSha with
      | sha256 =>
        rcases call_related h 32 call hvalid with ⟨c', hcall, hrelated⟩
        exact ⟨.sha256 c', by rw [hsha256, hcall]; rfl, hrelated⟩
      | _ => exact h.elim
    | sha384 c =>
      cases whichSha with
      | sha384 =>
        rcases call_related h 48 call hvalid with ⟨c', hcall, hrelated⟩
        exact ⟨.sha384 c', by rw [hsha384, hcall]; rfl, hrelated⟩
      | _ => exact h.elim
    | sha512 c =>
      cases whichSha with
      | sha512 =>
        rcases call_related h 64 call hvalid with ⟨c', hcall, hrelated⟩
        exact ⟨.sha512 c', by rw [hsha512, hcall]; rfl, hrelated⟩
      | _ => exact h.elim
    | other => exact h.elim

theorem usha_calls_related (h : UshaRelated ctx o) (calls : List UshaCall)
    (hvalid : ∀ call ∈ calls, call.valid = true) : ushaRun (some ctx) calls = some (o.run calls) := by
  induction calls generalizing ctx o with
  | nil => rfl
  | cons call calls ih =>
    rcases usha_call_related h call (hvalid call List.mem_cons_self) with ⟨ctx', hcall, hrelated⟩
    have hrest := ih hrelated fun call hcall => hvalid call (List.mem_cons_of_mem _ hcall)
    rw [ushaRun, hcall, Option.bind_eq_bind, Option.bind_some, hrest]
    rfl

/-- Whatever the context holds at first: from the first reset on, every call answers as the hash object does, and
nothing is stored outside of the message block. -/
theorem usha_run_refines (ctx : UshaContext) (whichSha : SHAversion) (leftover : Nat → UInt8)
    (calls : List UshaCall) (hvalid : ∀ call ∈ calls, call.valid = true) :
    ushaRun (some ctx) (.reset whichSha leftover :: calls) =
      some (UshaObject.run .unknown (.reset whichSha leftover :: calls)) := by
  rcases usha_reset_related ctx .unknown whichSha leftover with ⟨ctx', hreset, hrelated⟩
  rw [ushaRun, hreset, Option.bind_eq_bind, Option.bind_some, usha_calls_related hrelated calls hvalid]
  rfl

/-- The first test of the standard. -/
theorem usha_run_refines_abc :
    ushaRun (some .other)
        [.reset .sha1 fun _ => 0xFF, .pass (.input (some [0x61, 0x62]) 2), .pass (.input (some [0x63, 0]) 1),
          .pass (.result true)] =
      some [{ code := shaSuccess }, { code := shaSuccess }, { code := shaSuccess },
        { code := shaSuccess
          digest := some [0xA9, 0x99, 0x3E, 0x36, 0x47, 0x06, 0x81, 0x6A, 0xBA, 0x3E, 0x25, 0x71, 0x78, 0x50,
            0xC2, 0x6C, 0x9C, 0xD0, 0xD8, 0x9D] }] :=
  (usha_run_refines .other .sha1 (fun _ => 0xFF)
    [.pass (.input (some [0x61, 0x62]) 2), .pass (.input (some [0x63, 0]) 1), .pass (.result true)]
    (by decide)).trans (by decide +kernel)

end

end SharedUtility.Sha
