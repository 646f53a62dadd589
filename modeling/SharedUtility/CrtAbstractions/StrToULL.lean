import SharedUtility.SubjectSequence

/-!
# StrToULL — `strtoull_s` of `crt_abstractions.c`

* `digitVal`, `digitLoop`, `behindPrefix`, `strtoullS` — the code; a pointer into the text is what is left of the
  text from there on, and the character behind its end is NUL,
* `digitLoop_eq`: the digits that are taken, their number, and the overflow,
* `LoneZero`, `LonePrefix` — where the code skips a `0` or a `0x` that no digit follows,
* `strtoullS_eq`, `strtoullS_lone`: what is converted elsewhere, and there.
-/

namespace SharedUtility.CrtAbstractions

/-! ## The code -/

def ullongMax : Nat := 2 ^ 64 - 1

def erange : Int := 34

def digitVal (c : UInt8) : Int :=
  if 0x30 ≤ c && c ≤ 0x39 then c.toNat - 0x30
  else if 0x61 ≤ c && c ≤ 0x7A then c.toNat - 0x61 + 10
  else if 0x41 ≤ c && c ≤ 0x5A then c.toNat - 0x41 + 10
  else -1

def inBaseRange (d b : Int) : Bool :=
  0 ≤ d && d < b

/-- The character that `runner` points to. -/
def charAt (runner : Bytes) : UInt8 :=
  runner.head?.getD 0

/-- The loop over the digits: `result`, `errno` and `runner`. -/
def digitLoop (base : Nat) : (runner : Bytes) → (result : Nat) → (errno : Int) → Nat × Int × Bytes
  | [], result, errno => (result, errno, [])
  | c :: runner, result, errno =>
    let digitVal := digitVal c
    if inBaseRange digitVal base then
      if (ullongMax - digitVal.toNat) / base < result then digitLoop base runner ullongMax erange
      else digitLoop base runner ((result * base + digitVal.toNat) % 2 ^ 64) errno
    else (result, errno, c :: runner)

/-- The base that the prefix gives, and `runner` behind it. -/
def behindPrefix (base : Nat) (runner : Bytes) : Nat × Bytes :=
  let r :=
    if charAt runner = 0x30 then
      if charAt (runner.drop 1) = 0x78 ∨ charAt (runner.drop 1) = 0x58 then
        if base = 0 ∨ base = 16 then (16, runner.drop 2) else (base, runner)
      else if base = 0 ∨ base = 8 then (8, runner.drop 1)
      else (base, runner)
    else (base, runner)
  if r.1 = 0 then (10, r.2) else r

/-- What a conversion leaves. -/
structure Conversion where
  result : Nat
  endptr : Bytes
  errno : Int
  deriving DecidableEq

/-- `strtoull_s`, where `nptr` and `endptr` are not NULL. -/
def strtoullS (nptr : Bytes) (base : Int) (errno : Int) : Conversion :=
  if (base ≥ 2 ∨ base = 0) ∧ base ≤ 36 then
    let runner := nptr.dropWhile isSpace
    let isNegative := charAt runner == 0x2D
    let runner := if charAt runner = 0x2B ∨ charAt runner = 0x2D then runner.drop 1 else runner
    let r := behindPrefix base.toNat runner
    if inBaseRange (digitVal (charAt r.2)) r.1 then
      let converted := digitLoop r.1 r.2 0 0
      { result := if isNegative then (ullongMax - converted.1 + 1) % 2 ^ 64 else converted.1
        endptr := converted.2.2
        errno := converted.2.1 }
    else
      { result := if isNegative then (ullongMax - 0 + 1) % 2 ^ 64 else 0
        endptr := nptr
        errno := errno }
  else { result := 0, endptr := nptr, errno := errno }

/-! ## Digits -/

set_option maxRecDepth 8000 in
theorem digitVal_eq (c : UInt8) :
    digitVal c = match digitValue c with
      | some d => (d : Int)
      | none => -1 := by
  revert c
  apply byte_forall
  decide

theorem inBaseRange_digitVal (c : UInt8) (base : Nat) :
    inBaseRange (digitVal c) base = isDigitOf base c := by
  rw [digitVal_eq, isDigitOf]
  cases digitValue c with
  | none => rfl
  | some d =>
    dsimp only
    rw [inBaseRange, Option.any_some, decide_eq_true (Int.natCast_nonneg d), Bool.true_and]
    exact decide_eq_decide.2 Int.ofNat_lt

theorem toNat_digitVal (c : UInt8) : (digitVal c).toNat = (digitValue c).getD 0 := by
  rw [digitVal_eq]
  cases digitValue c with
  | none => rfl
  | some d => rfl

set_option maxRecDepth 8000 in
theorem digitValue_lt (c : UInt8) : (digitValue c).getD 0 < 36 := by
  revert c
  apply byte_forall
  decide

theorem isDigitOf_charAt (base : Nat) (runner : Bytes) :
    isDigitOf base (charAt runner) = runner.head?.any (isDigitOf base) := by
  cases runner with
  | nil => rfl
  | cons c runner => rfl

/-! ## The loop -/

section

variable {base : Nat}

theorem digitLoop_saturated (hbase : 2 ≤ base) (runner : Bytes) :
    digitLoop base runner ullongMax erange = (ullongMax, erange, runner.dropWhile (isDigitOf base)) := by
  induction runner with
  | nil => rfl
  | cons c runner ih =>
    have hoverflow : (ullongMax - (digitVal c).toNat) / base < ullongMax :=
      Nat.lt_of_le_of_lt (Nat.div_le_div_right (Nat.sub_le _ _)) (Nat.div_lt_self (by decide) hbase)
    rw [digitLoop, List.dropWhile_cons, inBaseRange_digitVal, if_pos hoverflow]
    split_ifs
    · exact ih
    · rfl

/-- The digits are taken; the number that they denote from `result` on is the result, if it does not overflow.
No multiplication or addition wraps around. -/
theorem digitLoop_eq (hbase : 2 ≤ base) (runner : Bytes) {result : Nat} (hresult : result ≤ ullongMax)
    (errno : Int) :
    digitLoop base runner result errno =
      (min (valueFrom base result (runner.takeWhile (isDigitOf base))) ullongMax,
        if ullongMax < valueFrom base result (runner.takeWhile (isDigitOf base)) then erange else errno,
        runner.dropWhile (isDigitOf base)) := by
  induction runner generalizing result with
  | nil =>
    rw [digitLoop, List.takeWhile_nil, valueFrom_nil, Nat.min_eq_left hresult, if_neg (Nat.not_lt.2 hresult)]
    rfl
  | cons c runner ih =>
    rw [digitLoop, List.takeWhile_cons, List.dropWhile_cons, inBaseRange_digitVal, toNat_digitVal]
    by_cases hdigit : isDigitOf base c = true
    case neg =>
      rw [if_neg hdigit, if_neg hdigit, if_neg hdigit, valueFrom_nil, Nat.min_eq_left hresult,
        if_neg (Nat.not_lt.2 hresult)]
    case pos =>
      rw [if_pos hdigit, if_pos hdigit, if_pos hdigit, valueFrom_cons]
      have hd := digitValue_lt c
      generalize (digitValue c).getD 0 = d at hd ⊢
      have hoverflow : (ullongMax - d) / base < result ↔ ullongMax < result * base + d := by
        rw [Nat.div_lt_iff_lt_mul (by omega)]
        have hmax : 36 ≤ ullongMax := by decide
        omega
      by_cases hlarge : ullongMax < result * base + d
      · have hpos : 0 < base := by omega
        have hvalue := Nat.lt_of_lt_of_le hlarge
          (le_valueFrom hpos (runner.takeWhile (isDigitOf base)))
        rw [if_pos (hoverflow.2 hlarge), digitLoop_saturated hbase, Nat.min_eq_right (Nat.le_of_lt hvalue),
          if_pos hvalue]
      · have hsmall := Nat.le_of_not_lt hlarge
        have hwrap : (result * base + d) % 2 ^ 64 = result * base + d :=
          Nat.mod_eq_of_lt (Nat.lt_of_le_of_lt hsmall (by decide))
        rw [if_neg fun h => hlarge (hoverflow.1 h), hwrap, ih hsmall]

end

/-! ## The prefix -/

/-- A `0` that is skipped as the prefix of an octal number, and no octal digit behind it. -/
def LoneZero (base : Nat) (text : Bytes) : Prop :=
  (base = 0 ∨ base = 8) ∧
    ∃ rest, text = 0x30 :: rest ∧ rest.head?.any (fun b => b == 0x78 || b == 0x58 || isDigitOf 8 b) = false

/-- A `0x` that is skipped, and no hexadecimal digit behind it. -/
def LonePrefix (base : Nat) (text : Bytes) : Prop :=
  (base = 0 ∨ base = 16) ∧
    ∃ x rest, (x = 0x78 ∨ x = 0x58) ∧ text = 0x30 :: x :: rest ∧ rest.head?.any (isDigitOf 16) = false

/-- What the digits behind the prefix are to the subject sequence. -/
structure Finds (base : Nat) (text : Bytes) (radix : Nat) (runner : Bytes) : Prop where
  radix_ge : 2 ≤ radix
  absent : runner.head?.any (isDigitOf radix) = false → sequenceOf base text = none
  present : runner.head?.any (isDigitOf radix) = true → ∃ digits,
    sequenceOf base text = some (radix, digits, runner.dropWhile (isDigitOf radix)) ∧
      valueOf radix digits = valueOf radix (runner.takeWhile (isDigitOf radix))

section

variable {base : Nat} {text : Bytes}

theorem finds_plain (hbase : base = 0 ∨ 2 ≤ base)
    (hhex : ¬ ((base = 0 ∨ base = 16) ∧ hasHexPrefix text = true ∧
      (text.drop 2).head?.any (isDigitOf 16) = true)) : Finds base text (radixOf base text) text where
  radix_ge := by
    rw [radixOf]
    split_ifs
    · exact (by decide : 2 ≤ 8)
    · exact (by decide : 2 ≤ 10)
    · omega
  absent := by
    intro hhead
    rw [sequenceOf, if_neg hhex, hhead]
    rfl
  present := by
    intro hhead
    exact ⟨_, by rw [sequenceOf, if_neg hhex, if_pos hhead], rfl⟩

theorem charAt_eq_iff {c : UInt8} (hc : c ≠ 0) (runner : Bytes) : charAt runner = c ↔ runner.head? = some c := by
  cases runner with
  | nil => exact iff_of_false (Ne.symm hc) nofun
  | cons d runner => exact (Option.some_inj).symm

theorem hasHexPrefix_charAt :
    hasHexPrefix text = true ↔
      charAt text = 0x30 ∧ (charAt (text.drop 1) = 0x78 ∨ charAt (text.drop 1) = 0x58) := by
  rw [charAt_eq_iff (by decide), charAt_eq_iff (by decide), charAt_eq_iff (by decide), hasHexPrefix,
    Bool.and_eq_true, Bool.or_eq_true, beq_iff_eq, beq_iff_eq, beq_iff_eq]

theorem behindPrefix_hex {x : UInt8} {rest : Bytes} (hsixteen : base = 0 ∨ base = 16)
    (hx : x = 0x78 ∨ x = 0x58) : behindPrefix base (0x30 :: x :: rest) = (16, rest) := by
  have hfirst : charAt (0x30 :: x :: rest) = 0x30 := rfl
  have hsecond : charAt ((0x30 :: x :: rest).drop 1) = 0x78 ∨ charAt ((0x30 :: x :: rest).drop 1) = 0x58 := hx
  rw [behindPrefix, if_pos hfirst, if_pos hsecond, if_pos hsixteen]
  rfl

theorem behindPrefix_octal {rest : Bytes} (height : base = 0 ∨ base = 8)
    (hrest : ¬ (charAt rest = 0x78 ∨ charAt rest = 0x58)) : behindPrefix base (0x30 :: rest) = (8, rest) := by
  have hfirst : charAt (0x30 :: rest) = 0x30 := rfl
  have hsecond : ¬ (charAt ((0x30 :: rest).drop 1) = 0x78 ∨ charAt ((0x30 :: rest).drop 1) = 0x58) := hrest
  rw [behindPrefix, if_pos hfirst, if_neg hsecond, if_pos height]
  rfl

theorem behindPrefix_finds (hbase : base = 0 ∨ 2 ≤ base) (hzero : ¬ LoneZero base text)
    (hskip : ¬ LonePrefix base text) :
    Finds base text (behindPrefix base text).1 (behindPrefix base text).2 := by
  by_cases hhex : hasHexPrefix text = true
  case pos =>
    obtain ⟨x, rest, hx, rfl⟩ := hasHexPrefix_iff.1 hhex
    obtain ⟨hfirst, hsecond⟩ := hasHexPrefix_charAt.1 hhex
    by_cases hsixteen : base = 0 ∨ base = 16
    case pos =>
      have hdigit : rest.head?.any (isDigitOf 16) = true := by
        by_contra hnot
        exact hskip ⟨hsixteen, x, rest, hx, rfl, (Bool.not_eq_true _).mp hnot⟩
      rw [behindPrefix_hex hsixteen hx]
      exact {
        radix_ge := (by decide : 2 ≤ 16)
        absent := fun hnone => Bool.noConfusion (hdigit.symm.trans hnone)
        present := fun _ => ⟨_, by rw [sequenceOf, if_pos ⟨hsixteen, hhex, hdigit⟩]; rfl, rfl⟩ }
    case neg =>
      have hgiven : behindPrefix base (0x30 :: x :: rest) =
          (radixOf base (0x30 :: x :: rest), 0x30 :: x :: rest) := by
        have hnonzero : base ≠ 0 := fun h => hsixteen (.inl h)
        rw [behindPrefix, if_pos hfirst, if_pos hsecond, if_neg hsixteen, if_neg hnonzero, radixOf,
          if_neg hnonzero]
      rw [hgiven]
      exact finds_plain hbase fun h => hsixteen h.1
  case neg =>
    have hplain := @finds_plain base text hbase fun h => hhex h.2.1
    by_cases hfirst : charAt text = 0x30
    case neg =>
      have hhead : text.head? ≠ some 0x30 := fun h => hfirst ((charAt_eq_iff (by decide) text).2 h)
      have hgiven : behindPrefix base text = (radixOf base text, text) := by
        rw [behindPrefix, if_neg hfirst, radixOf, if_neg hhead]
        by_cases hnone : base = 0
        · rw [if_pos hnone, if_pos hnone]
        · rw [if_neg hnone, if_neg hnone]
      rwa [hgiven]
    case pos =>
      have hhead := (charAt_eq_iff (by decide) text).1 hfirst
      have hsecond : ¬ (charAt (text.drop 1) = 0x78 ∨ charAt (text.drop 1) = 0x58) :=
        fun h => hhex (hasHexPrefix_charAt.2 ⟨hfirst, h⟩)
      by_cases height : base = 0 ∨ base = 8
      case neg =>
        have hgiven : behindPrefix base text = (radixOf base text, text) := by
          have hnonzero : base ≠ 0 := fun h => height (.inl h)
          rw [behindPrefix, if_pos hfirst, if_neg hsecond, if_neg height, if_neg hnonzero, radixOf,
            if_neg hnonzero]
        rwa [hgiven]
      case pos =>
        have hradix : radixOf base text = 8 := by
          rw [radixOf, if_pos hhead]
          split_ifs with hnone
          · rfl
          · exact height.resolve_left hnone
        cases text with
        | nil => cases hhead
        | cons c rest =>
          cases hhead
          have hoctal : rest.head?.any (isDigitOf 8) = true := by
            cases rest with
            | nil => exact absurd ⟨height, [], rfl, rfl⟩ hzero
            | cons d rest =>
              by_contra hnot
              refine hzero ⟨height, d :: rest, rfl, ?_⟩
              rw [List.head?_cons, Option.any_some, Bool.or_eq_false_iff, Bool.or_eq_false_iff,
                beq_eq_false_iff_ne, beq_eq_false_iff_ne]
              exact ⟨not_or.1 hsecond, (Bool.not_eq_true _).mp hnot⟩
          rw [behindPrefix_octal height (show ¬ (charAt rest = 0x78 ∨ charAt rest = 0x58) from hsecond)]
          refine ⟨(by decide : 2 ≤ 8), fun hnone => Bool.noConfusion (hoctal.symm.trans hnone), fun _ => ?_⟩
          -- the zero in front does not change the value
          have hfound := hplain.present (by rw [hradix]; rfl)
          rw [hradix] at hfound
          exact hfound

end

/-! ## The conversion -/

/-- The sign is applied, modulo `2 ^ 64`. -/
def signed (isNegative : Bool) (result : Nat) : Nat :=
  if isNegative then (ullongMax - result + 1) % 2 ^ 64 else result

section

variable {nptr : Bytes} {base : Nat}

theorem behindSign_eq (nptr : Bytes) :
    (if charAt (nptr.dropWhile isSpace) = 0x2B ∨ charAt (nptr.dropWhile isSpace) = 0x2D then
      (nptr.dropWhile isSpace).drop 1
    else nptr.dropWhile isSpace) = behindSign nptr := by
  rw [List.drop_one, behindSign]
  refine if_congr ?_ rfl rfl
  rw [charAt_eq_iff (by decide), charAt_eq_iff (by decide), or_comm]

theorem isNegative_eq (nptr : Bytes) :
    (charAt (nptr.dropWhile isSpace) == 0x2D) = isNegative nptr := by
  rw [isNegative, Bool.eq_iff_iff, beq_iff_eq, beq_iff_eq, charAt_eq_iff (by decide)]

theorem strtoullS_unfold (hbase : base = 0 ∨ 2 ≤ base) (hmax : base ≤ 36) (errno : Int) :
    strtoullS nptr base errno =
      let r := behindPrefix base (behindSign nptr)
      if r.2.head?.any (isDigitOf r.1) = true then
        let converted := digitLoop r.1 r.2 0 0
        { result := signed (isNegative nptr) converted.1
          endptr := converted.2.2
          errno := converted.2.1 }
      else { result := 0, endptr := nptr, errno := errno } := by
  have hvalid : ((base : Int) ≥ 2 ∨ (base : Int) = 0) ∧ (base : Int) ≤ 36 := by omega
  have hzero : ∀ negative : Bool, (if negative then (ullongMax - 0 + 1) % 2 ^ 64 else 0) = 0 := by
    intro negative
    cases negative with
    | false => rfl
    | true => rfl
  rw [strtoullS, if_pos hvalid]
  dsimp only
  rw [behindSign_eq, isNegative_eq, Int.toNat_natCast, inBaseRange_digitVal, isDigitOf_charAt, hzero]
  rfl

theorem strtoullS_eq (hbase : base = 0 ∨ 2 ≤ base) (hmax : base ≤ 36) (errno : Int)
    (hzero : ¬ LoneZero base (behindSign nptr)) (hskip : ¬ LonePrefix base (behindSign nptr)) :
    strtoullS nptr base errno =
      match sequenceOf base (behindSign nptr) with
      | none => { result := 0, endptr := nptr, errno := errno }
      | some (radix, digits, rest) =>
        { result := signed (isNegative nptr) (min (valueOf radix digits) ullongMax)
          endptr := rest
          errno := if ullongMax < valueOf radix digits then erange else 0 } := by
  have hfinds := behindPrefix_finds hbase hzero hskip
  rw [strtoullS_unfold hbase hmax]
  generalize behindPrefix base (behindSign nptr) = r at hfinds ⊢
  dsimp only
  by_cases hdigit : r.2.head?.any (isDigitOf r.1) = true
  case pos =>
    obtain ⟨digits, hfound, hvalue⟩ := hfinds.present hdigit
    rw [if_pos hdigit, digitLoop_eq hfinds.radix_ge r.2 (Nat.zero_le _), hfound]
    dsimp only
    rw [hvalue, valueOf]
  case neg =>
    rw [if_neg hdigit, hfinds.absent ((Bool.not_eq_true _).mp hdigit)]

theorem sequenceOf_zero (hbase : base = 0 ∨ 2 ≤ base) {tail : Bytes}
    (hhex : ¬ ((base = 0 ∨ base = 16) ∧ hasHexPrefix (0x30 :: tail) = true ∧
      ((0x30 :: tail).drop 2).head?.any (isDigitOf 16) = true))
    (htail : tail.head?.any (isDigitOf (radixOf base (0x30 :: tail))) = false) :
    sequenceOf base (0x30 :: tail) = some (radixOf base (0x30 :: tail), [0x30], tail) := by
  have hzero : isDigitOf (radixOf base (0x30 :: tail)) 0x30 = true :=
    isDigitOf_zero (finds_plain hbase hhex).radix_ge
  have htake := head_not_digit.2 htail
  have hdrop := List.takeWhile_append_dropWhile (p := isDigitOf (radixOf base (0x30 :: tail))) (l := tail)
  rw [htake, List.nil_append] at hdrop
  rw [sequenceOf, if_neg hhex, List.head?_cons, Option.any_some, if_pos hzero, List.takeWhile_cons,
    List.dropWhile_cons, if_pos hzero, if_pos hzero, htake, hdrop]

/-- Where a lone zero is skipped, nothing is converted, although the zero is a numeral. -/
theorem strtoullS_lone (hbase : base = 0 ∨ 2 ≤ base) (hmax : base ≤ 36) (errno : Int)
    (hlone : LoneZero base (behindSign nptr) ∨ LonePrefix base (behindSign nptr)) :
    strtoullS nptr base errno = { result := 0, endptr := nptr, errno := errno } ∧
      ∃ radix rest, sequenceOf base (behindSign nptr) = some (radix, [0x30], rest) := by
  rw [strtoullS_unfold hbase hmax]
  rcases hlone with ⟨height, rest, htext, hrest⟩ | ⟨hsixteen, x, rest, hx, htext, hrest⟩
  · rw [htext]
    have hoctal : rest.head?.any (isDigitOf 8) = false ∧ charAt rest ≠ 0x78 ∧ charAt rest ≠ 0x58 := by
      cases rest with
      | nil => exact ⟨rfl, by decide, by decide⟩
      | cons c rest =>
        rw [List.head?_cons, Option.any_some, Bool.or_eq_false_iff, Bool.or_eq_false_iff,
          beq_eq_false_iff_ne, beq_eq_false_iff_ne] at hrest
        exact ⟨hrest.2, hrest.1⟩
    have hradix : radixOf base (0x30 :: rest) = 8 := by
      rw [radixOf]
      split_ifs with hnone hhead
      · rfl
      · exact absurd rfl hhead
      · exact height.resolve_left hnone
    rw [behindPrefix_octal height (not_or.2 hoctal.2)]
    refine ⟨if_neg (by rw [hoctal.1]; exact Bool.false_ne_true), _, _, sequenceOf_zero hbase ?_ ?_⟩
    · exact fun h => not_or.2 hoctal.2 (hasHexPrefix_charAt.1 h.2.1).2
    · rw [hradix]
      exact hoctal.1
  · rw [htext]
    rw [behindPrefix_hex hsixteen hx]
    refine ⟨if_neg (by rw [hrest]; exact Bool.false_ne_true), _, _, sequenceOf_zero hbase ?_ ?_⟩
    · exact fun h => Bool.noConfusion (hrest.symm.trans h.2.2)
    · have hdigits := x_not_digit x hx
      change isDigitOf (radixOf base (0x30 :: x :: rest)) x = false
      rw [radixOf]
      split_ifs with hnone hhead
      · exact hdigits.1
      · exact hdigits.2.1
      · rw [hsixteen.resolve_left hnone]
        exact hdigits.2.2

/-! ## Decimal digits -/

theorem sequenceOf_ten (text : Bytes) :
    sequenceOf 10 text =
      if text.head?.any (isDigitOf 10) then
        some (10, text.takeWhile (isDigitOf 10), text.dropWhile (isDigitOf 10))
      else none := by
  rw [sequenceOf, if_neg (by rintro ⟨h | h, -⟩ <;> cases h)]
  rfl

theorem strtoullS_ten (nptr : Bytes) (errno : Int) :
    strtoullS nptr 10 errno =
      if (behindSign nptr).head?.any (isDigitOf 10) then
        let value := valueOf 10 ((behindSign nptr).takeWhile (isDigitOf 10))
        { result := signed (isNegative nptr) (min value ullongMax)
          endptr := (behindSign nptr).dropWhile (isDigitOf 10)
          errno := if ullongMax < value then erange else 0 }
      else { result := 0, endptr := nptr, errno := errno } := by
  have hzero : ¬ LoneZero 10 (behindSign nptr) := by
    rintro ⟨h | h, -⟩
    · cases h
    · cases h
  have hskip : ¬ LonePrefix 10 (behindSign nptr) := by
    rintro ⟨h | h, -⟩
    · cases h
    · cases h
  have hcode := @strtoullS_eq nptr 10 (.inr (by decide)) (by decide) errno hzero hskip
  rw [sequenceOf_ten] at hcode
  refine hcode.trans ?_
  split_ifs
  · rfl
  · rfl

theorem behindSign_digit (hdigit : nptr.head?.any (isDigitOf 10) = true) :
    behindSign nptr = nptr ∧ isNegative nptr = false := by
  cases nptr with
  | nil => cases hdigit
  | cons d nptr =>
    obtain ⟨hspace, hplus, hminus, -⟩ := isDigitOf_ten d hdigit
    have hdrop : (d :: nptr).dropWhile isSpace = d :: nptr :=
      List.dropWhile_cons_of_neg (by rw [hspace]; exact Bool.false_ne_true)
    constructor
    · rw [behindSign, hdrop]
      refine if_neg ?_
      rintro (h | h)
      · exact hminus (Option.some.inj h)
      · exact hplus (Option.some.inj h)
    · rw [isNegative, hdrop, beq_eq_false_iff_ne]
      exact fun h => hminus (Option.some.inj h)

/-! ## What it is to the subject sequence -/

/-- The result for a number: the number, negated modulo `2 ^ 64` behind a `-`, or `ULLONG_MAX` and `ERANGE`. -/
def Represents (converted : Conversion) (isNegative : Bool) (value : Nat) : Prop :=
  (value ≤ ullongMax → converted.result = if isNegative then (2 ^ 64 - value) % 2 ^ 64 else value) ∧
    (ullongMax < value → converted.result = ullongMax ∧ converted.errno = erange)

/-- `endptr` is `nptr` where there is no subject sequence, and behind it where there is one. -/
def EndsAt (converted : Conversion) (nptr : Bytes) (base : Nat) : Prop :=
  (converted.endptr = nptr ↔ ¬ ∃ radix digits rest, Reads base (behindSign nptr) radix digits rest) ∧
    ∀ radix digits rest, Subject base (behindSign nptr) radix digits rest → converted.endptr = rest

theorem signed_of_le {isNegative : Bool} {value : Nat} (h : value ≤ ullongMax) :
    signed isNegative value = if isNegative then (2 ^ 64 - value) % 2 ^ 64 else value := by
  have hmax : ullongMax = 2 ^ 64 - 1 := rfl
  have hsum : ullongMax - value + 1 = 2 ^ 64 - value := by omega
  rw [signed, hsum]

theorem behindSign_suffix (src : Bytes) : behindSign src <:+ src := by
  rw [behindSign]
  split_ifs
  · exact (List.tail_suffix _).trans (List.dropWhile_suffix _)
  · exact List.dropWhile_suffix _

/-- A subject sequence has the right value, unless it overflows behind a `-`: then the result is 1. -/
theorem strtoullS_represents_iff (hbase : base = 0 ∨ 2 ≤ base ∧ base ≤ 36) (errno : Int) {radix : Nat}
    {digits rest : Bytes} (h : Subject base (behindSign nptr) radix digits rest) :
    Represents (strtoullS nptr base errno) (isNegative nptr) (valueOf radix digits) ↔
      ¬ (isNegative nptr = true ∧ ullongMax < valueOf radix digits) := by
  have htwo : base = 0 ∨ 2 ≤ base := hbase.imp_right And.left
  have hmax : base ≤ 36 := by omega
  have hfound := (sequenceOf_some_iff htwo).2 h
  by_cases hlone : LoneZero base (behindSign nptr) ∨ LonePrefix base (behindSign nptr)
  case pos =>
    obtain ⟨hcode, _, _, hzero⟩ := @strtoullS_lone nptr base htwo hmax errno hlone
    cases hfound.symm.trans hzero
    have hvalue : valueOf radix [0x30] = 0 := by
      rw [valueOf, valueFrom_cons, valueFrom_nil, Nat.zero_mul]
      rfl
    rw [hcode, hvalue]
    refine iff_of_true ⟨fun _ => ?_, fun hlarge => absurd hlarge (Nat.not_lt_zero _)⟩
      fun hlarge => Nat.not_lt_zero _ hlarge.2
    cases isNegative nptr with
    | false => rfl
    | true => rfl
  case neg =>
    obtain ⟨hzero, hskip⟩ := not_or.1 hlone
    rw [strtoullS_eq htwo hmax errno hzero hskip, hfound]
    dsimp only
    by_cases hlarge : ullongMax < valueOf radix digits
    case neg =>
      have hsmall := Nat.le_of_not_lt hlarge
      refine iff_of_true ⟨fun _ => ?_, fun h => absurd h hlarge⟩ fun h => hlarge h.2
      dsimp only
      rw [Nat.min_eq_left hsmall]
      exact signed_of_le hsmall
    case pos =>
      rw [Nat.min_eq_right (Nat.le_of_lt hlarge), if_pos hlarge]
      cases isNegative nptr with
      | false =>
        exact iff_of_true ⟨fun hsmall => absurd hlarge (Nat.not_lt.2 hsmall), fun _ => ⟨rfl, rfl⟩⟩
          fun h => Bool.noConfusion h.1
      | true =>
        refine iff_of_false (fun hrepresents => ?_) (not_not_intro ⟨rfl, hlarge⟩)
        exact absurd (hrepresents.2 hlarge).1 (by decide : signed true ullongMax ≠ ullongMax)

/-- The end is right, unless a lone zero is skipped. -/
theorem strtoullS_endsAt_iff (hbase : base = 0 ∨ 2 ≤ base ∧ base ≤ 36) (errno : Int) :
    EndsAt (strtoullS nptr base errno) nptr base ↔
      ¬ (LoneZero base (behindSign nptr) ∨ LonePrefix base (behindSign nptr)) := by
  have htwo : base = 0 ∨ 2 ≤ base := hbase.imp_right And.left
  have hmax : base ≤ 36 := by omega
  by_cases hlone : LoneZero base (behindSign nptr) ∨ LonePrefix base (behindSign nptr)
  case pos =>
    obtain ⟨hcode, _, _, hzero⟩ := @strtoullS_lone nptr base htwo hmax errno hlone
    rw [hcode]
    refine iff_of_false (fun hends => ?_) (not_not_intro hlone)
    exact hends.1.1 rfl ⟨_, _, _, sequenceOf_reads htwo hzero⟩
  case neg =>
    obtain ⟨hzero, hskip⟩ := not_or.1 hlone
    rw [strtoullS_eq htwo hmax errno hzero hskip]
    refine iff_of_true ?_ hlone
    cases hfound : sequenceOf base (behindSign nptr) with
    | none =>
      have hnone := (sequenceOf_none_iff htwo).1 hfound
      exact ⟨iff_of_true rfl hnone, fun _ _ _ h => absurd ⟨_, _, _, h.1⟩ hnone⟩
    | some r =>
      obtain ⟨radix, digits, rest⟩ := r
      have hreads := sequenceOf_reads htwo hfound
      refine ⟨iff_of_false ?_ (not_not_intro ⟨_, _, _, hreads⟩), fun _ _ _ h => ?_⟩
      · -- the rest is shorter than the text
        intro heq
        have hshorter := hreads.length_lt
        have hle := (behindSign_suffix nptr).length_le
        rw [show rest = nptr from heq] at hshorter
        omega
      · have hsame := (sequenceOf_some_iff htwo).2 h
        cases hfound.symm.trans hsame
        rfl

/-- A number of base 8. -/
theorem strtoullS_represents_octal :
    Represents (strtoullS (ascii " -017") 0 0) (isNegative (ascii " -017")) (valueOf 8 (ascii "017")) ↔
      ¬ (isNegative (ascii " -017") = true ∧ ullongMax < valueOf 8 (ascii "017")) :=
  @strtoullS_represents_iff _ 0 (.inl rfl) 0 8 (ascii "017") []
    ((sequenceOf_some_iff (.inl rfl)).1 (by decide))

/-- The number behind the sign is 18446744073709551616. -/
theorem strtoullS_negative_overflow :
    Subject 10 (behindSign (ascii "-18446744073709551616")) 10 (ascii "18446744073709551616") [] ∧
      strtoullS (ascii "-18446744073709551616") 10 0 = { result := 1, endptr := [], errno := erange } :=
  ⟨(sequenceOf_some_iff (.inr (by decide))).1 (by decide), by decide⟩

/-- Two digits of base 16. -/
theorem strtoullS_endsAt_hex :
    EndsAt (strtoullS (ascii "0x1F rest") 16 0) (ascii "0x1F rest") 16 ↔
      ¬ (LoneZero 16 (behindSign (ascii "0x1F rest")) ∨ LonePrefix 16 (behindSign (ascii "0x1F rest"))) :=
  strtoullS_endsAt_iff (.inr (by decide)) 0

/-- A zero is a numeral, but it is not taken. -/
theorem strtoullS_zero_not_taken :
    Subject 0 (behindSign (ascii "0")) 8 (ascii "0") [] ∧ (strtoullS (ascii "0") 0 0).endptr = ascii "0" :=
  ⟨(sequenceOf_some_iff (.inl rfl)).1 (by decide), by decide⟩

end

end SharedUtility.CrtAbstractions
