import SharedUtility.Bytes

/-!
# CrtAbstractions — the printing of integers of `crt_abstractions.c`
-/

namespace SharedUtility

/-- The loop of `size_tToString`, and the reversal after it: the digits that fit into `room`
characters, and what is left of the value. -/
def sizeTToStringLoop : (room : Nat) → (value : Nat) → Bytes × Nat
  | 0, value => ([], value)
  | room + 1, value =>
    let digit := UInt8.ofNat (0x30 + value % 10)
    if value / 10 > 0 then
      let r := sizeTToStringLoop room (value / 10)
      (r.1 ++ [digit], r.2)
    else ([digit], 0)

/-- `size_tToString`; `none` stands for its failure. -/
def sizeTToString (destinationSize value : Nat) : Option Bytes :=
  if destinationSize < 2 then none
  else
    let r := sizeTToStringLoop (destinationSize - 1) value
    if r.2 = 0 then some r.1 else none

def isDigit (c : UInt8) : Bool :=
  0x30 ≤ c && c ≤ 0x39

theorem isDigit_ofNat (n : Nat) : isDigit (UInt8.ofNat (0x30 + n % 10)) = true := by
  have hall : ∀ k : Fin 10, isDigit (UInt8.ofNat (0x30 + k)) = true := by
    decide
  exact hall ⟨n % 10, Nat.mod_lt n (by decide)⟩

theorem sizeTToStringLoop_digits (room value : Nat) :
    ∀ c ∈ (sizeTToStringLoop room value).1, isDigit c = true := by
  induction room generalizing value with
  | zero =>
    intro c hc
    cases hc
  | succ room ih =>
    intro c hc
    rw [sizeTToStringLoop] at hc
    split at hc
    · rcases List.mem_append.1 hc with hc | hc
      · exact ih (value / 10) c hc
      · rw [List.mem_singleton.1 hc]
        exact isDigit_ofNat value
    · rw [List.mem_singleton.1 hc]
      exact isDigit_ofNat value

end SharedUtility
