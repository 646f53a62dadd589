import Mathlib.Algebra.Group.Int.Defs
import Mathlib.Algebra.GroupWithZero.Nat
import Mathlib.Data.List.Basic

/-!
# Bytes — byte strings and the C library functions on them

Buffers are lists of bytes; a `char*` is the list of its bytes without the terminating NUL.
-/

namespace SharedUtility

abbrev Bytes := List UInt8

/-- `SIZE_MAX` of a 64-bit target. -/
def sizeMax : Nat := 2 ^ 64 - 1

/-- `safe_add_size_t` of `safe_math.h`. -/
def safeAddSizeT (a b : Nat) : Nat :=
  if a < sizeMax - b then a + b else sizeMax

/-- `+` on `size_t`. -/
def addSizeT (a b : Nat) : Nat :=
  (a + b) % (sizeMax + 1)

/-- `*` on `size_t`. -/
def mulSizeT (a b : Nat) : Nat :=
  a * b % (sizeMax + 1)

/-- `-` on `size_t`. -/
def subSizeT (a b : Nat) : Nat :=
  (a + (sizeMax + 1) - b) % (sizeMax + 1)

/-- The conversion `(int)` of a `size_t`. -/
def intOfSizeT (size : Nat) : Int :=
  (BitVec.ofNat 32 size).toInt

/-- `__FAILURE__` is the number of its source line; all that matters is that it is not zero. -/
def failure : Int := 1

def ascii (s : String) : Bytes :=
  s.toList.map fun c => UInt8.ofNat c.toNat

theorem failure_ne_zero : failure ≠ 0 := by
  decide

/-! ## Sums of sizes -/

theorem addSizeT_of_le {a b : Nat} (hle : a + b ≤ sizeMax) : addSizeT a b = a + b :=
  Nat.mod_eq_of_lt (Nat.lt_succ_of_le hle)

theorem mulSizeT_of_le {a b : Nat} (h : a * b ≤ sizeMax) : mulSizeT a b = a * b :=
  Nat.mod_eq_of_lt (Nat.lt_succ_of_le h)

theorem subSizeT_of_le {a b : Nat} (h : b ≤ a) (ha : a ≤ sizeMax) : subSizeT a b = a - b := by
  have hsum : a + (sizeMax + 1) - b = a - b + (sizeMax + 1) := by omega
  rw [subSizeT, hsum, Nat.add_mod_right, Nat.mod_eq_of_lt (by omega)]

theorem safeAddSizeT_eq_max {a b : Nat} : safeAddSizeT a b = sizeMax ↔ sizeMax ≤ a + b := by
  unfold safeAddSizeT
  split
  · omega
  · omega

theorem safeAddSizeT_of_lt {a b : Nat} (hlt : a + b < sizeMax) : safeAddSizeT a b = a + b := by
  rw [safeAddSizeT, if_pos (by omega)]

theorem safeAddSizeT_twice_eq_max {a b : Nat} :
    safeAddSizeT (safeAddSizeT a b) 1 = sizeMax ↔ sizeMax ≤ a + b + 1 := by
  rw [safeAddSizeT_eq_max]
  by_cases hmax : sizeMax ≤ a + b
  · rw [safeAddSizeT_eq_max.mpr hmax]
    omega
  · rw [safeAddSizeT_of_lt (Nat.lt_of_not_le hmax)]

theorem forall_mem_of_all {P : UInt8 → Prop} [DecidablePred P] {text : Bytes}
    (h : text.all (fun b => decide (P b)) = true) : ∀ b ∈ text, P b := by
  intro b hb
  exact of_decide_eq_true (List.all_eq_true.1 h b hb)

theorem byte_forall {P : UInt8 → Prop} (h : ∀ n < 256, P (UInt8.ofNat n)) (b : UInt8) : P b := by
  have hb := h b.toNat b.toNat_lt
  rwa [UInt8.ofNat_toNat] at hb

/-! ## Bits of a byte -/

section

variable {a b m s : UInt8} {i k : Nat}

theorem toNat_mask (b : UInt8) (hm : m.toNat = 2 ^ k - 1) : (b &&& m).toNat = b.toNat % 2 ^ k := by
  rw [UInt8.toNat_and, hm]
  exact Nat.and_two_pow_sub_one_eq_mod _ k

theorem toNat_shiftRight (b : UInt8) (hs : s.toNat = i) (hi : i < 8) :
    (b >>> s).toNat = b.toNat / 2 ^ i := by
  rw [UInt8.toNat_shiftRight, hs, Nat.mod_eq_of_lt hi, Nat.shiftRight_eq_div_pow]

theorem toNat_shiftLeft (b : UInt8) (hs : s.toNat = i) (hi : i < 8) :
    (b <<< s).toNat = b.toNat * 2 ^ i % 256 := by
  rw [UInt8.toNat_shiftLeft, hs, Nat.mod_eq_of_lt hi, Nat.shiftLeft_eq]

theorem toNat_field (b : UInt8) (hs : s.toNat = i) (hi : i < 8) (hm : m.toNat >>> i = 2 ^ k - 1) :
    ((b &&& m) >>> s).toNat = b.toNat / 2 ^ i % 2 ^ k := by
  rw [UInt8.toNat_shiftRight, UInt8.toNat_and, hs, Nat.mod_eq_of_lt hi, Nat.shiftRight_and_distrib,
    hm, Nat.and_two_pow_sub_one_eq_mod, Nat.shiftRight_eq_div_pow]

theorem toNat_or_of_lt (ha : 2 ^ i ∣ a.toNat) (hb : b.toNat < 2 ^ i) :
    (a ||| b).toNat = a.toNat + b.toNat := by
  rcases ha with ⟨n, hn⟩
  rw [UInt8.toNat_or, hn, Nat.two_pow_add_eq_or_of_lt hb]

end

/-- The C string at the start of a NUL-terminated buffer. -/
def cString (buffer : Bytes) : Bytes :=
  buffer.takeWhile (· != 0)

/-- `strstr` on C strings: the offset of the first occurrence of `needle`. -/
def strstr (haystack needle : Bytes) : Option Nat :=
  if needle.isPrefixOf haystack then some 0
  else
    match haystack with
    | [] => none
    | _ :: rest => (strstr rest needle).map (· + 1)

theorem strstr_length {needle : Bytes} :
    ∀ {haystack : Bytes} {offset : Nat}, strstr haystack needle = some offset →
      offset + needle.length ≤ haystack.length := by
  intro haystack
  induction haystack with
  | nil =>
    intro offset h
    rw [strstr] at h
    split at h
    · rename_i hprefix
      cases h
      simpa using (List.isPrefixOf_iff_prefix.1 hprefix).length_le
    · cases h
  | cons b rest ih =>
    intro offset h
    rw [strstr] at h
    split at h
    · rename_i hprefix
      cases h
      simpa using (List.isPrefixOf_iff_prefix.1 hprefix).length_le
    · rcases Option.map_eq_some_iff.1 h with ⟨offset', hoffset', rfl⟩
      have hlength := ih hoffset'
      rw [List.length_cons]
      omega

theorem strstr_append {needle : Bytes} (more : Bytes) :
    ∀ {haystack : Bytes} {offset : Nat}, strstr haystack needle = some offset →
      strstr (haystack ++ more) needle = some offset := by
  intro haystack
  induction haystack with
  | nil =>
    intro offset h
    rw [strstr] at h
    split at h
    · rename_i hprefix
      cases h
      have hnil : needle = [] := List.prefix_nil.1 (List.isPrefixOf_iff_prefix.1 hprefix)
      subst hnil
      cases more
      all_goals rfl
    · cases h
  | cons b rest ih =>
    intro offset h
    have hlength := strstr_length h
    rw [strstr] at h
    rw [List.cons_append, strstr]
    split at h
    · rename_i hprefix
      cases h
      have hlonger : needle <+: b :: (rest ++ more) :=
        (List.isPrefixOf_iff_prefix.1 hprefix).trans (List.prefix_append (b :: rest) more)
      rw [if_pos (List.isPrefixOf_iff_prefix.2 hlonger)]
    · rename_i hprefix
      rcases Option.map_eq_some_iff.1 h with ⟨offset', hoffset', rfl⟩
      -- An occurrence at the start would lie in the part that was searched.
      have hnot : ¬ needle <+: b :: (rest ++ more) := by
        intro hlonger
        apply hprefix
        apply List.isPrefixOf_iff_prefix.2
        apply List.prefix_of_prefix_length_le hlonger (List.prefix_append (b :: rest) more)
        omega
      rw [if_neg fun hbool => hnot (List.isPrefixOf_iff_prefix.1 hbool), ih hoffset']
      rfl

theorem cString_append {buffer : Bytes} (h : 0 ∉ buffer) (more : Bytes) :
    cString (buffer ++ more) = buffer ++ cString more := by
  apply List.takeWhile_append_of_pos
  intro b hb
  rw [bne_iff_ne]
  rintro rfl
  exact h hb

/-- `isspace` in the C locale. -/
def isSpace (b : UInt8) : Bool :=
  b == 0x20 || (0x09 ≤ b && b ≤ 0x0D)

/-- `TOUPPER` of `crt_abstractions.h`. -/
def toUpper (c : UInt8) : UInt8 :=
  if 0x61 ≤ c && c ≤ 0x7A then c - 0x61 + 0x41 else c

/-- The value of a digit of a base up to 36, for `strtol`. -/
def digitValue (b : UInt8) : Option Nat :=
  if 0x30 ≤ b && b ≤ 0x39 then some (b.toNat - 0x30)
  else if 0x61 ≤ b && b ≤ 0x7A then some (b.toNat - 0x61 + 10)
  else if 0x41 ≤ b && b ≤ 0x5A then some (b.toNat - 0x41 + 10)
  else none

/-- The longest prefix of digits of `base`: its value from `acc` on, and its length. -/
def digits (base : Nat) : Bytes → Nat → Nat × Nat
  | [], acc => (acc, 0)
  | b :: rest, acc =>
    match digitValue b with
    | some d =>
      if d < base then
        let r := digits base rest (acc * base + d)
        (r.1, r.2 + 1)
      else (acc, 0)
    | none => (acc, 0)

/-- `strtol (src, &next, 0)` on a target with a 64-bit `long`: the clamped value and `next - src`. -/
def strtol0 (src : Bytes) : Int × Nat :=
  let blanks := (src.takeWhile isSpace).length
  let afterBlanks := src.drop blanks
  let signed := afterBlanks.head? == some 0x2D || afterBlanks.head? == some 0x2B
  let negative := afterBlanks.head? == some 0x2D
  let signLength := if signed then 1 else 0
  let body := afterBlanks.drop signLength
  -- `0x` is a prefix only in front of a hexadecimal digit; otherwise the `0` alone is read.
  let hex := body.head? == some 0x30 &&
    ((body.drop 1).head? == some 0x78 || (body.drop 1).head? == some 0x58) &&
    0 < (digits 16 (body.drop 2) 0).2
  let read :=
    if hex then
      let r := digits 16 (body.drop 2) 0
      (r.1, r.2 + 2)
    else if body.head? == some 0x30 then digits 8 body 0
    else digits 10 body 0
  if read.2 = 0 then (0, 0)
  else
    let value : Int := if negative then -(read.1 : Int) else read.1
    let clamped := max (-(2 ^ 63 : Int)) (min (2 ^ 63 - 1) value)
    (clamped, blanks + signLength + read.2)

/-- The conversion `(int)` of a `long`. -/
def intOfLong (value : Int) : Int :=
  value.bmod (2 ^ 32)

end SharedUtility
