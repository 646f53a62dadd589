import Mathlib.Algebra.Group.Nat.Defs
import Mathlib.Data.Nat.Log

/-!
# Double — the rounding of natural numbers to double precision

A `double` that holds a non-negative integral value is that value.  It has 53 significant bits;
`roundDouble` rounds to the nearest one, and to the even one of two that are equally near.  The range
of the exponent is not bounded.
-/

namespace SharedUtility

/-- `q * 2 ^ e` is the value below, and `n % 2 ^ e` what is cut off. -/
def roundDouble (n : Nat) : Nat :=
  if n < 2 ^ 53 then n
  else
    let e := Nat.log2 n - 52
    let q := n / 2 ^ e
    let cut := n % 2 ^ e
    let half := 2 ^ (e - 1)
    if cut > half ∨ (cut = half ∧ q % 2 = 1) then (q + 1) * 2 ^ e else q * 2 ^ e

theorem roundDouble_of_lt {n : Nat} (h : n < 2 ^ 53) : roundDouble n = n := by
  rw [roundDouble, if_pos h]

theorem roundDouble_pos {n : Nat} (h : 0 < n) : 0 < roundDouble n := by
  unfold roundDouble
  split
  · exact h
  · rename_i hlarge
    have hlarge : 2 ^ 53 ≤ n := Nat.le_of_not_lt hlarge
    have hpow : 2 ^ (Nat.log2 n - 52) ≤ n := by
      calc 2 ^ (Nat.log2 n - 52) ≤ 2 ^ Nat.log2 n := Nat.pow_le_pow_right (by decide) (Nat.sub_le _ _)
        _ ≤ n := Nat.log2_self_le (Nat.ne_of_gt h)
    have hquotient : 0 < n / 2 ^ (Nat.log2 n - 52) :=
      Nat.div_pos hpow (Nat.two_pow_pos _)
    dsimp only
    split
    · exact Nat.mul_pos (Nat.succ_pos _) (Nat.two_pow_pos _)
    · exact Nat.mul_pos hquotient (Nat.two_pow_pos _)

/-- A number that is not exact does not become one that is smaller than all of these. -/
theorem le_roundDouble {n : Nat} (h : 2 ^ 53 ≤ n) : 2 ^ 53 ≤ roundDouble n := by
  have hlog : 53 ≤ Nat.log2 n := (Nat.le_log2 (by omega)).2 h
  have hcut : 2 ^ (Nat.log2 n - 52) * 2 ^ 52 ≤ n := by
    rw [← Nat.pow_add, Nat.sub_add_cancel (by omega)]
    exact Nat.log2_self_le (by omega)
  have hquotient : 2 ^ 52 ≤ n / 2 ^ (Nat.log2 n - 52) := by
    rw [Nat.le_div_iff_mul_le (Nat.two_pow_pos _), Nat.mul_comm]
    exact hcut
  have htwo : 2 ≤ 2 ^ (Nat.log2 n - 52) := by
    calc 2 = 2 ^ 1 := rfl
      _ ≤ 2 ^ (Nat.log2 n - 52) := Nat.pow_le_pow_right (by decide) (by omega)
  have hdown : 2 ^ 53 ≤ n / 2 ^ (Nat.log2 n - 52) * 2 ^ (Nat.log2 n - 52) := by
    calc 2 ^ 53 = 2 ^ 52 * 2 := rfl
      _ ≤ n / 2 ^ (Nat.log2 n - 52) * 2 ^ (Nat.log2 n - 52) := Nat.mul_le_mul hquotient htwo
  unfold roundDouble
  rw [if_neg (by omega)]
  dsimp only
  split
  · exact Nat.le_trans hdown (Nat.mul_le_mul_right _ (Nat.le_succ _))
  · exact hdown

end SharedUtility
