import Mathlib.Algebra.Group.Nat.Defs
import Mathlib.Data.Nat.Bitwise
import SharedUtility.EqualParts

/-!
# BitStrings — bytes as bits, the highest first

* `numberBits`, `numberBytes` — a number in so many bits or bytes,
* `bitsOf`, `bytesOf` — the bits of bytes and the bytes of bits,
* `bytesOf_bitsOf` — bits are read back as the bytes they come from,
* `bitsOf_numberBytes` — both forms of a number are the same bits.
-/

namespace SharedUtility.BitStrings

/-- The lowest bits of a number, so many. -/
def numberBits (w n : Nat) : List Bool :=
  (List.range w).map fun i => n.testBit (w - 1 - i)

/-- The lowest bytes of a number, so many. -/
def numberBytes (k n : Nat) : List UInt8 :=
  (List.range k).map fun i => UInt8.ofNat (n >>> (8 * (k - 1 - i)))

def bitsOf (bytes : List UInt8) : List Bool :=
  bytes.flatMap fun b => numberBits 8 b.toNat

def bitsValue (bits : List Bool) : Nat :=
  bits.foldl (fun n b => 2 * n + b.toNat) 0

/-- The bytes that whole groups of eight bits make. -/
def bytesOf (bits : List Bool) : List UInt8 :=
  (parts 8 (bits.length / 8) bits).map fun byte => UInt8.ofNat (bitsValue byte)

/-! ## Numbers -/

section

variable {v w j k n : Nat}

@[simp] theorem length_numberBits : (numberBits w n).length = w := by
  rw [numberBits, List.length_map, List.length_range]

@[simp] theorem length_numberBytes : (numberBytes k n).length = k := by
  rw [numberBytes, List.length_map, List.length_range]

theorem numberBits_succ : numberBits (w + 1) n = n.testBit w :: numberBits w n := by
  unfold numberBits
  rw [List.range_succ_eq_map, List.map_cons, List.map_map]
  congr 1
  apply List.map_congr_left
  intro i _
  rw [Function.comp_apply]
  congr 1
  omega

theorem numberBytes_succ : numberBytes (k + 1) n = UInt8.ofNat (n >>> (8 * k)) :: numberBytes k n := by
  unfold numberBytes
  rw [List.range_succ_eq_map, List.map_cons, List.map_map]
  congr 1
  apply List.map_congr_left
  intro i _
  rw [Function.comp_apply]
  congr 3
  omega

theorem numberBits_add : numberBits (v + w) n = numberBits v (n >>> w) ++ numberBits w n := by
  induction v with
  | zero => rw [Nat.zero_add]; rfl
  | succ v ih =>
    rw [Nat.add_right_comm, numberBits_succ, ih, numberBits_succ, List.cons_append,
      Nat.testBit_shiftRight, Nat.add_comm]

theorem numberBytes_add : numberBytes (j + k) n = numberBytes j (n >>> (8 * k)) ++ numberBytes k n := by
  induction j with
  | zero => rw [Nat.zero_add]; rfl
  | succ j ih =>
    rw [Nat.add_right_comm, numberBytes_succ, ih, numberBytes_succ, List.cons_append,
      ← Nat.shiftRight_add, Nat.mul_add, Nat.add_comm (8 * k)]

theorem numberBits_mod : numberBits w (n % 2 ^ w) = numberBits w n := by
  unfold numberBits
  apply List.map_congr_left
  intro i hi
  have hlow : w - 1 - i < w := by
    have hi := List.mem_range.1 hi
    omega
  rw [Nat.testBit_mod_two_pow, decide_eq_true hlow, Bool.true_and]

theorem bitsOf_numberBytes : bitsOf (numberBytes k n) = numberBits (8 * k) n := by
  induction k with
  | zero => rfl
  | succ k ih =>
    rw [numberBytes_succ, bitsOf, List.flatMap_cons, ← bitsOf, ih, Nat.mul_succ, Nat.add_comm,
      numberBits_add, UInt8.toNat_ofNat', numberBits_mod]

theorem numberBytes_mod : numberBytes k (n % 2 ^ (8 * k)) = numberBytes k n := by
  unfold numberBytes
  apply List.map_congr_left
  intro i hi
  have hi := List.mem_range.1 hi
  apply UInt8.toNat.inj
  rw [UInt8.toNat_ofNat', UInt8.toNat_ofNat']
  apply Nat.eq_of_testBit_eq
  intro bit
  rw [Nat.testBit_mod_two_pow, Nat.testBit_mod_two_pow, Nat.testBit_shiftRight, Nat.testBit_shiftRight,
    Nat.testBit_mod_two_pow]
  by_cases hbit : bit < 8
  · have hlow : 8 * (k - 1 - i) + bit < 8 * k := by omega
    rw [decide_eq_true hlow, Bool.true_and]
  · rw [decide_eq_false hbit, Bool.false_and, Bool.false_and]

theorem bitsValue_cons (b : Bool) (bits : List Bool) :
    bitsValue (b :: bits) = b.toNat * 2 ^ bits.length + bitsValue bits := by
  have hfrom : ∀ (bits : List Bool) (n : Nat),
      bits.foldl (fun n b => 2 * n + b.toNat) n = n * 2 ^ bits.length + bitsValue bits := by
    intro bits
    induction bits with
    | nil => exact fun n => by rw [List.length_nil, Nat.pow_zero, Nat.mul_one]; rfl
    | cons b bits ih =>
      intro n
      rw [bitsValue, List.foldl_cons, List.foldl_cons, ih, ih (2 * 0 + b.toNat), List.length_cons,
        Nat.pow_succ, Nat.mul_zero, Nat.zero_add, Nat.add_mul, Nat.add_assoc]
      congr 1
      rw [Nat.mul_assoc, Nat.mul_left_comm, Nat.mul_comm 2]
  rw [bitsValue, List.foldl_cons, hfrom, Nat.mul_zero, Nat.zero_add]

theorem bitsValue_numberBits : bitsValue (numberBits w n) = n % 2 ^ w := by
  induction w with
  | zero => rw [Nat.pow_zero, Nat.mod_one]; rfl
  | succ w ih =>
    have hbit : (n.testBit w).toNat = n / 2 ^ w % 2 := by
      rw [Nat.testBit_eq_decide_div_mod_eq]
      rcases Nat.mod_two_eq_zero_or_one (n / 2 ^ w) with hbit | hbit <;> rw [hbit] <;> rfl
    rw [numberBits_succ, bitsValue_cons, length_numberBits, ih, hbit, Nat.mod_pow_succ, Nat.add_comm,
      Nat.mul_comm]

end

/-! ## Bytes -/

section

variable {bits : List Bool} {bytes : List UInt8}

theorem bitsOf_cons (b : UInt8) (bytes : List UInt8) :
    bitsOf (b :: bytes) = numberBits 8 b.toNat ++ bitsOf bytes :=
  List.flatMap_cons

theorem bitsOf_append (bytes bytes' : List UInt8) : bitsOf (bytes ++ bytes') = bitsOf bytes ++ bitsOf bytes' :=
  List.flatMap_append

theorem length_bitsOf (bytes : List UInt8) : (bitsOf bytes).length = 8 * bytes.length := by
  induction bytes with
  | nil => rfl
  | cons b bytes ih =>
    rw [bitsOf_cons, List.length_append, length_numberBits, ih, List.length_cons, Nat.mul_succ, Nat.add_comm]

theorem bytesOf_append_byte (b : UInt8) (bits : List Bool) :
    bytesOf (numberBits 8 b.toNat ++ bits) = b :: bytesOf bits := by
  have hcount : (numberBits 8 b.toNat ++ bits).length / 8 = bits.length / 8 + 1 := by
    rw [List.length_append, length_numberBits]
    omega
  have hbyte : UInt8.ofNat (bitsValue (numberBits 8 b.toNat)) = b := by
    rw [bitsValue_numberBits, Nat.mod_eq_of_lt b.toNat_lt, UInt8.ofNat_toNat]
  rw [bytesOf, hcount, parts, List.map_cons, List.take_left' length_numberBits, hbyte,
    List.drop_left' length_numberBits, bytesOf]

theorem bytesOf_bitsOf_append (bytes : List UInt8) (bits : List Bool) :
    bytesOf (bitsOf bytes ++ bits) = bytes ++ bytesOf bits := by
  induction bytes with
  | nil => rfl
  | cons b bytes ih =>
    rw [bitsOf_cons, List.append_assoc, bytesOf_append_byte, ih, List.cons_append]

theorem bytesOf_bitsOf (bytes : List UInt8) : bytesOf (bitsOf bytes) = bytes := by
  rw [← List.append_nil (bitsOf bytes), bytesOf_bitsOf_append]
  exact List.append_nil bytes

end

end SharedUtility.BitStrings
