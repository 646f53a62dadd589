import Mathlib.Data.List.TakeWhile
import SharedUtility.Bytes

/-!
# Numerals — numbers in texts

* `valueOf` — the number that digits denote,
* `numeral` — the digits that C reads as a number, and their base: 16 behind `0x`, 8 behind `0`, else 10,
* `strtol0_none`, `strtol0_some`: what `strtol` makes of a text.

Digits of a numeral that starts with 0 denote another number as soon as it is not below 8:
`valueOf_octal`.
-/

namespace SharedUtility

/-! ## Digits -/

def isDigitOf (base : Nat) (b : UInt8) : Bool :=
  (digitValue b).any (· < base)

/-- The number that digits denote behind those that denote `acc`. -/
def valueFrom (base acc : Nat) (text : Bytes) : Nat :=
  text.foldl (fun n b => n * base + (digitValue b).getD 0) acc

def valueOf (base : Nat) (text : Bytes) : Nat :=
  valueFrom base 0 text

@[simp] theorem valueFrom_nil (base acc : Nat) : valueFrom base acc [] = acc := rfl

@[simp] theorem valueFrom_cons (base acc : Nat) (b : UInt8) (text : Bytes) :
    valueFrom base acc (b :: text) = valueFrom base (acc * base + (digitValue b).getD 0) text := rfl

theorem pow_le_valueFrom (base acc : Nat) (text : Bytes) :
    acc * base ^ text.length ≤ valueFrom base acc text := by
  induction text generalizing acc with
  | nil => exact Nat.le_of_eq (Nat.mul_one _)
  | cons b text ih =>
    calc acc * base ^ (b :: text).length = acc * base * base ^ text.length := by
          rw [List.length_cons, Nat.pow_succ', Nat.mul_assoc]
      _ ≤ (acc * base + (digitValue b).getD 0) * base ^ text.length :=
          Nat.mul_le_mul_right _ (Nat.le_add_right _ _)
      _ ≤ valueFrom base acc (b :: text) := ih _

theorem le_valueFrom {base acc : Nat} (hbase : 0 < base) (text : Bytes) :
    acc ≤ valueFrom base acc text :=
  Nat.le_trans (Nat.le_mul_of_pos_right _ (Nat.pow_pos hbase)) (pow_le_valueFrom base acc text)

theorem valueFrom_eq (base acc : Nat) (text : Bytes) :
    valueFrom base acc text = acc * base ^ text.length + valueOf base text := by
  unfold valueOf
  induction text generalizing acc with
  | nil => rw [valueFrom_nil, valueFrom_nil, List.length_nil, Nat.pow_zero, Nat.mul_one, Nat.add_zero]
  | cons b text ih =>
    rw [valueFrom_cons, valueFrom_cons, ih (acc * base + _), ih (0 * base + _), List.length_cons,
      Nat.pow_succ', Nat.zero_mul, Nat.zero_add, Nat.add_mul, Nat.mul_assoc, Nat.add_assoc]

theorem valueOf_append (base : Nat) (front back : Bytes) :
    valueOf base (front ++ back) = valueOf base front * base ^ back.length + valueOf base back := by
  rw [valueOf, valueFrom, List.foldl_append]
  exact valueFrom_eq base _ back

theorem digits_eq (base : Nat) (text : Bytes) (acc : Nat) :
    digits base text acc =
      (valueFrom base acc (text.takeWhile (isDigitOf base)),
        (text.takeWhile (isDigitOf base)).length) := by
  induction text generalizing acc with
  | nil => rfl
  | cons b text ih =>
    rw [digits, List.takeWhile_cons]
    cases hvalue : digitValue b with
    | none =>
      have hnot : isDigitOf base b = false := by rw [isDigitOf, hvalue]; rfl
      rw [hnot]
      rfl
    | some d =>
      dsimp only
      have hdigit : isDigitOf base b = decide (d < base) := by rw [isDigitOf, hvalue]; rfl
      by_cases hd : d < base
      · rw [if_pos hd, hdigit, decide_eq_true hd, ih, if_pos rfl, valueFrom_cons, hvalue]
        rfl
      · rw [if_neg hd, hdigit, decide_eq_false hd]
        rfl

set_option maxRecDepth 8000 in
theorem isDigitOf_ten (b : UInt8) (h : isDigitOf 10 b = true) :
    isSpace b = false ∧ b ≠ 0x2B ∧ b ≠ 0x2D ∧ b ≠ 0 ∧ isDigitOf 16 b = true ∧
      (isDigitOf 8 b = true ↔ (digitValue b).getD 0 < 8) := by
  revert b
  apply byte_forall
  decide

set_option maxRecDepth 8000 in
theorem isDigitOf_eight (b : UInt8) (h : isDigitOf 8 b = true) : isDigitOf 10 b = true := by
  revert b
  apply byte_forall
  decide

theorem head_not_digit {p : UInt8 → Bool} {text : Bytes} :
    text.takeWhile p = [] ↔ text.head?.any p = false := by
  cases text with
  | nil => simp
  | cons b text =>
    rw [List.takeWhile_cons]
    cases hb : p b with
    | true => simp [hb]
    | false => simp [hb]

/-! ## Octal digits -/

theorem valueFrom_octal_add {a b k : Nat} (hle : a + k ≤ b) (text : Bytes) :
    valueFrom 8 a (text.takeWhile (isDigitOf 8)) + k ≤ valueFrom 10 b text := by
  induction text generalizing a b with
  | nil => exact hle
  | cons c text ih =>
    rw [List.takeWhile_cons]
    split_ifs with hc
    · rw [valueFrom_cons, valueFrom_cons]
      exact ih (by omega)
    · exact Nat.le_trans hle (le_valueFrom (by decide) _)

/-- Decimal digits denote the same number as the octal ones among them only below 8. -/
theorem valueOf_octal {text : Bytes} (h : ∀ b ∈ text, isDigitOf 10 b = true) :
    valueOf 8 (text.takeWhile (isDigitOf 8)) = valueOf 10 text ↔ valueOf 10 text < 8 := by
  unfold valueOf
  induction text with
  | nil => simp
  | cons c text ih =>
    have hc := (isDigitOf_ten c (h c (List.mem_cons_self ..))).2.2.2.2.2
    rw [List.takeWhile_cons, valueFrom_cons 10, Nat.zero_mul, Nat.zero_add]
    by_cases hoctal : isDigitOf 8 c = true
    case neg =>
      have hge : ¬ (digitValue c).getD 0 < 8 := fun hlt => hoctal (hc.2 hlt)
      have hle := @le_valueFrom 10 ((digitValue c).getD 0) (by decide) text
      rw [if_neg hoctal, valueFrom_nil]
      omega
    case pos =>
      have hlt := hc.1 hoctal
      rw [if_pos hoctal, valueFrom_cons, Nat.zero_mul, Nat.zero_add]
      cases hvalue : (digitValue c).getD 0 with
      | zero => exact ih fun b hb => h b (List.mem_cons_of_mem _ hb)
      | succ d =>
        cases text with
        | nil =>
          rw [hvalue] at hlt
          exact ⟨fun _ => hlt, fun _ => rfl⟩
        | cons c' text =>
          have hle := @le_valueFrom 10 ((d + 1) * 10 + (digitValue c').getD 0) (by decide) text
          have hbig : ¬ valueFrom 10 (d + 1) (c' :: text) < 8 := by
            rw [valueFrom_cons]
            omega
          have hne : valueFrom 8 (d + 1) ((c' :: text).takeWhile (isDigitOf 8)) <
              valueFrom 10 (d + 1) (c' :: text) := by
            rw [List.takeWhile_cons]
            split_ifs
            · rw [valueFrom_cons, valueFrom_cons]
              exact valueFrom_octal_add (k := 1) (by omega) text
            · rw [valueFrom_nil, valueFrom_cons]
              omega
          omega

/-! ## Numbers of C -/

/-- What is behind white space and a sign. -/
def behindSign (src : Bytes) : Bytes :=
  let text := src.dropWhile isSpace
  if text.head? = some 0x2D ∨ text.head? = some 0x2B then text.tail else text

def isNegative (src : Bytes) : Bool :=
  (src.dropWhile isSpace).head? == some 0x2D

/-- The base of the numeral at the start of a text, and its digits. -/
def numeral (text : Bytes) : Nat × Bytes :=
  if text.head? = some 0x30 ∧ ((text.drop 1).head? = some 0x78 ∨ (text.drop 1).head? = some 0x58) ∧
      (text.drop 2).head?.any (isDigitOf 16) = true then
    (16, (text.drop 2).takeWhile (isDigitOf 16))
  else if text.head? = some 0x30 then (8, text.takeWhile (isDigitOf 8))
  else (10, text.takeWhile (isDigitOf 10))

/-- The number that a text starts with; without digits it is 0. -/
def numberAt (src : Bytes) : Int :=
  let digits := numeral (behindSign src)
  if isNegative src then -(valueOf digits.1 digits.2 : Int) else valueOf digits.1 digits.2

theorem drop_takeWhile_length (p : UInt8 → Bool) (text : Bytes) :
    text.drop (text.takeWhile p).length = text.dropWhile p := by
  induction text with
  | nil => rfl
  | cons b text ih =>
    rw [List.takeWhile_cons, List.dropWhile_cons]
    split_ifs
    · exact ih
    · rfl

/-- The numeral that `strtol` reads behind white space and a sign, and how long it is. -/
def reads (text : Bytes) : Nat × Nat :=
  let digits := numeral text
  (valueOf digits.1 digits.2, if digits.1 = 16 then digits.2.length + 2 else digits.2.length)

theorem strtol0_eq (src : Bytes) :
    strtol0 src =
      if (reads (behindSign src)).2 = 0 then (0, 0)
      else (max (-(2 ^ 63 : Int)) (min (2 ^ 63 - 1) (numberAt src)),
        (src.takeWhile isSpace).length +
          (if (src.dropWhile isSpace).head? == some 0x2D || (src.dropWhile isSpace).head? == some 0x2B then 1
            else 0) + (reads (behindSign src)).2) := by
  have hbody : (src.dropWhile isSpace).drop
      (if (src.dropWhile isSpace).head? == some 0x2D || (src.dropWhile isSpace).head? == some 0x2B then 1
        else 0) = behindSign src := by
    rw [behindSign]
    by_cases hsign : (src.dropWhile isSpace).head? = some 0x2D ∨ (src.dropWhile isSpace).head? = some 0x2B
    · rw [if_pos (by simpa using hsign), if_pos hsign, List.drop_one]
    · rw [if_neg (by simpa using hsign), if_neg hsign, List.drop_zero]
  have hread : ∀ body : Bytes, (if (body.head? == some 0x30 &&
      ((body.drop 1).head? == some 0x78 || (body.drop 1).head? == some 0x58) &&
        decide (0 < ((body.drop 2).takeWhile (isDigitOf 16)).length)) = true then
      (valueFrom 16 0 ((body.drop 2).takeWhile (isDigitOf 16)),
        ((body.drop 2).takeWhile (isDigitOf 16)).length + 2)
    else if (body.head? == some 0x30) = true then
      (valueFrom 8 0 (body.takeWhile (isDigitOf 8)), (body.takeWhile (isDigitOf 8)).length)
    else (valueFrom 10 0 (body.takeWhile (isDigitOf 10)), (body.takeWhile (isDigitOf 10)).length)) =
      reads body := by
    intro body
    rw [reads, numeral]
    simp only [Bool.and_eq_true, Bool.or_eq_true, beq_iff_eq, decide_eq_true_eq, List.length_pos_iff,
      ne_eq, head_not_digit, Bool.not_eq_false, and_assoc]
    by_cases hhex : body.head? = some 0x30 ∧
        ((body.drop 1).head? = some 0x78 ∨ (body.drop 1).head? = some 0x58) ∧
          (body.drop 2).head?.any (isDigitOf 16) = true
    · rw [if_pos hhex, if_pos hhex]
      rfl
    · rw [if_neg hhex, if_neg hhex]
      by_cases hzero : body.head? = some 0x30
      · rw [if_pos hzero, if_pos hzero]
        rfl
      · rw [if_neg hzero, if_neg hzero]
        rfl
  rw [strtol0]
  simp only [drop_takeWhile_length, hbody, digits_eq, hread]
  rfl

theorem strtol0_none {src : Bytes} (h : (numeral (behindSign src)).2 = []) : strtol0 src = (0, 0) := by
  have hbase : (numeral (behindSign src)).1 ≠ 16 := by
    unfold numeral at h ⊢
    split_ifs at h ⊢ with hhex
    · rw [head_not_digit] at h
      rw [h] at hhex
      cases hhex.2.2
    · exact (by decide : (8 : Nat) ≠ 16)
    · exact (by decide : (10 : Nat) ≠ 16)
  rw [strtol0_eq, if_pos]
  rw [reads, if_neg hbase, h]
  rfl

theorem strtol0_some {src : Bytes} (h : (numeral (behindSign src)).2 ≠ []) :
    (strtol0 src).1 = max (-(2 ^ 63 : Int)) (min (2 ^ 63 - 1) (numberAt src)) ∧
      (strtol0 src).2 ≠ 0 := by
  have hpos := List.length_pos_of_ne_nil h
  have hread : (reads (behindSign src)).2 ≠ 0 := by
    rw [reads]
    dsimp only
    split_ifs
    · omega
    · omega
  rw [strtol0_eq, if_neg hread]
  refine ⟨rfl, ?_⟩
  dsimp only
  omega

theorem numeral_nil_iff {text : Bytes} :
    (numeral text).2 = [] ↔ text.head?.any (isDigitOf 10) = false := by
  rw [← head_not_digit]
  by_cases hzero : text.head? = some 0x30
  case neg =>
    rw [numeral, if_neg (fun hhex => hzero hhex.1), if_neg hzero]
  case pos =>
    have hten : text.takeWhile (isDigitOf 10) ≠ [] := by
      rw [ne_eq, head_not_digit, hzero]
      decide
    have height : text.takeWhile (isDigitOf 8) ≠ [] := by
      rw [ne_eq, head_not_digit, hzero]
      decide
    rw [numeral]
    split_ifs with hhex
    · refine iff_of_false ?_ hten
      rw [head_not_digit, hhex.2.2]
      exact Bool.noConfusion
    · exact iff_of_false height hten

/-! ## Decimal digits as a number of C -/

section

variable {front digits back : Bytes}

theorem takeWhile_append_stop {p : UInt8 → Bool} (hback : back.head?.any p = false) :
    (digits ++ back).takeWhile p = digits.takeWhile p := by
  induction digits with
  | nil => exact head_not_digit.2 hback
  | cons d digits ih => rw [List.cons_append, List.takeWhile_cons, List.takeWhile_cons, ih]

/-- What `strtol` reads them as. -/
def valueInC (digits : Bytes) : Nat :=
  if digits.head? = some 0x30 then valueOf 8 (digits.takeWhile (isDigitOf 8)) else valueOf 10 digits

theorem valueInC_eq_iff (h : ∀ b ∈ digits, isDigitOf 10 b = true) :
    valueInC digits = valueOf 10 digits ↔ valueOf 10 digits < 8 ∨ digits.head? ≠ some 0x30 := by
  rw [valueInC]
  by_cases hzero : digits.head? = some 0x30
  · rw [if_pos hzero]
    exact (valueOf_octal h).trans ⟨.inl, fun hor => hor.resolve_right fun hne => hne hzero⟩
  · rw [if_neg hzero]
    exact iff_of_true rfl (.inr hzero)

theorem valueFrom_octal_lt_pow (acc : Nat) (text : Bytes) :
    valueFrom 8 acc (text.takeWhile (isDigitOf 8)) < (acc + 1) * 8 ^ text.length := by
  induction text generalizing acc with
  | nil => exact Nat.lt_of_lt_of_eq (Nat.lt_succ_self acc) (Nat.mul_one _).symm
  | cons c text ih =>
    have hpos : 0 < 8 ^ text.length := Nat.pow_pos (by decide)
    rw [List.takeWhile_cons, List.length_cons, Nat.pow_succ', ← Nat.mul_assoc]
    split_ifs with hc
    · have hlt := (isDigitOf_ten c (isDigitOf_eight c hc)).2.2.2.2.2.1 hc
      rw [valueFrom_cons]
      calc valueFrom 8 (acc * 8 + (digitValue c).getD 0) (text.takeWhile (isDigitOf 8))
          < (acc * 8 + (digitValue c).getD 0 + 1) * 8 ^ text.length := ih _
        _ ≤ (acc + 1) * 8 * 8 ^ text.length := Nat.mul_le_mul_right _ (by omega)
    · calc acc < (acc + 1) * 8 := by omega
        _ ≤ (acc + 1) * 8 * 8 ^ text.length := Nat.le_mul_of_pos_right _ hpos

theorem valueOf_octal_lt {text : Bytes} (h : ∀ b ∈ text, isDigitOf 10 b = true)
    (hn : valueOf 10 text < 300) : valueOf 8 (text.takeWhile (isDigitOf 8)) < 200 := by
  unfold valueOf at hn ⊢
  induction text with
  | nil => exact Nat.succ_pos _
  | cons a text ih =>
    have ha := (isDigitOf_ten a (h a (List.mem_cons_self ..))).2.2.2.2.2
    rw [valueFrom_cons, Nat.zero_mul, Nat.zero_add] at hn
    rw [List.takeWhile_cons]
    split_ifs with hoctal
    case neg => exact Nat.succ_pos _
    case pos =>
      have hlt := ha.1 hoctal
      rw [valueFrom_cons, Nat.zero_mul, Nat.zero_add]
      cases hvalue : (digitValue a).getD 0 with
      | zero =>
        rw [hvalue] at hn
        exact ih (fun b hb => h b (List.mem_cons_of_mem _ hb)) hn
      | succ x =>
        -- at most two more digits
        rw [hvalue] at hn hlt
        have hlow := pow_le_valueFrom 10 (x + 1) text
        have hhigh := valueFrom_octal_lt_pow (x + 1) text
        have hshort : text.length < 3 := by
          by_contra hlong
          have hpow : 10 ^ 3 ≤ 10 ^ text.length := Nat.pow_le_pow_right (by decide) (by omega)
          have hmul : 10 ^ text.length ≤ (x + 1) * 10 ^ text.length :=
            Nat.le_mul_of_pos_left _ (Nat.succ_pos x)
          omega
        match hlength : text.length, hshort with
        | 0, _ =>
          rw [hlength] at hhigh
          omega
        | 1, _ =>
          rw [hlength] at hhigh
          omega
        | 2, _ =>
          rw [hlength] at hhigh hlow
          omega

theorem valueInC_le (digits : Bytes) : valueInC digits ≤ valueOf 10 digits := by
  rw [valueInC]
  split_ifs
  · exact valueFrom_octal_add (k := 0) (Nat.le_refl _) digits
  · exact Nat.le_refl _

/-- White space and digits are read, where neither a digit nor an `x` is behind them. -/
theorem numberAt_digits (hfront : ∀ b ∈ front, isSpace b = true) (hne : digits ≠ [])
    (hdigits : ∀ b ∈ digits, isDigitOf 10 b = true)
    (hback : ∀ b, back.head? = some b → isDigitOf 10 b = false ∧ b ≠ 0x78 ∧ b ≠ 0x58) :
    numberAt (front ++ (digits ++ back)) = valueInC digits ∧
      (numeral (behindSign (front ++ (digits ++ back)))).2 ≠ [] := by
  rcases List.exists_cons_of_ne_nil hne with ⟨d, more, rfl⟩
  have hd := isDigitOf_ten d (hdigits d (List.mem_cons_self ..))
  have hspace : (front ++ (d :: more ++ back)).dropWhile isSpace = d :: more ++ back := by
    rw [List.dropWhile_append_of_pos hfront, List.cons_append,
      List.dropWhile_cons_of_neg (by rw [hd.1]; exact Bool.false_ne_true)]
  have hbehind : behindSign (front ++ (d :: more ++ back)) = d :: more ++ back := by
    rw [behindSign, hspace, if_neg]
    rw [List.cons_append, List.head?_cons, Option.some.injEq, Option.some.injEq]
    exact fun hsign => hsign.elim hd.2.2.1 hd.2.1
  have hpositive : isNegative (front ++ (d :: more ++ back)) = false := by
    rw [isNegative, hspace, List.cons_append, List.head?_cons, beq_eq_false_iff_ne, ne_eq,
      Option.some.injEq]
    exact hd.2.2.1
  have hstop : ∀ base, (∀ b, isDigitOf base b = true → isDigitOf 10 b = true) →
      (d :: more ++ back).takeWhile (isDigitOf base) = (d :: more).takeWhile (isDigitOf base) := by
    intro base hbase
    apply takeWhile_append_stop
    cases hhead : back.head? with
    | none => rfl
    | some b =>
      rw [Option.any_some, ← Bool.not_eq_true]
      intro hb
      have hten := hbase b hb
      rw [(hback b hhead).1] at hten
      cases hten
  -- no `x` is behind the first digit
  have hx : ∀ b, (more ++ back).head? = some b → b ≠ 0x78 ∧ b ≠ 0x58 := by
    intro b hb
    cases more with
    | nil => exact (hback b hb).2
    | cons d' more =>
      cases hb
      have hdigit := hdigits b (List.mem_cons_of_mem _ (List.mem_cons_self ..))
      constructor
      · rintro rfl
        revert hdigit
        decide
      · rintro rfl
        revert hdigit
        decide
  have hnumeral : numeral (d :: more ++ back) =
      if (d :: more).head? = some 0x30 then (8, (d :: more).takeWhile (isDigitOf 8))
      else (10, d :: more) := by
    rw [numeral, if_neg, hstop 8 isDigitOf_eight, hstop 10 fun _ hb => hb,
      List.takeWhile_eq_self_iff.2 hdigits]
    · rfl
    · rintro ⟨-, hsecond, -⟩
      exact hsecond.elim (fun h => (hx _ h).1 rfl) fun h => (hx _ h).2 rfl
  constructor
  · rw [numberAt, hbehind, hpositive, hnumeral, valueInC, if_neg Bool.false_ne_true]
    by_cases hzero : (d :: more).head? = some 0x30
    · rw [if_pos hzero, if_pos hzero]
    · rw [if_neg hzero, if_neg hzero]
  · rw [ne_eq, numeral_nil_iff, hbehind, List.cons_append, List.head?_cons, Option.any_some,
      hdigits d (List.mem_cons_self ..)]
    exact Bool.noConfusion

end

end SharedUtility
