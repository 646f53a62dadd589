import SharedUtility.CrtAbstractions.StrToULL
import SharedUtility.FloatSequence

/-!
# FloatText — `strtof_s` and `strtold_s` of `crt_abstractions.c`

* `substricmp`, `isInfinity`, `isNaN`, `splitFloatString`, `strtofS`, `strtoldS` — the code, up to its floating
  point arithmetic: `FloatString` has the integers that this starts from, and `combined` is their sum,
* `ProperlyEnded`, `float_extent_iff`: where the end pointers are those of the longest floating point number,
* `Combinable`, `splitFloatString_combines_iff`: where the sum is the number of the digits.
-/

namespace SharedUtility.CrtAbstractions

/-! ## The code -/

def substricmp : (nptr subsrt : Bytes) → Int
  | _, [] => 0
  | nptr, c :: subsrt =>
    let result : Int := (toUpper (charAt nptr)).toNat - (toUpper c).toNat
    if result = 0 then substricmp (nptr.drop 1) subsrt else result

/-- The answer, and where `endptr` is moved to. -/
def isInfinity (endptr : Bytes) : Bool × Bytes :=
  if substricmp endptr (ascii "INF") = 0 then
    let endptr := endptr.drop 3
    if substricmp endptr (ascii "INITY") = 0 then (true, endptr.drop 5) else (true, endptr)
  else (false, endptr)

def isNaN (endptr : Bytes) : Bool × Bytes :=
  if substricmp endptr (ascii "NAN") = 0 then
    let runner := endptr.drop 3
    if charAt runner = 0x28 then
      let runner := (runner.drop 1).dropWhile fun c => c != 0 && c != 0x29
      if charAt runner = 0x29 then (true, runner.drop 1) else (false, endptr)
    else (true, runner)
  else (false, endptr)

inductive FloatStringType
  | fstInfinity
  | fstNan
  | fstNumber
  | fstOverflow
  | fstError
  deriving DecidableEq

/-- What `splitFloatString` computes before `fraction`: the integers are those that it is computed from. -/
structure FloatString where
  result : FloatStringType
  endptr : Bytes
  signal : Int
  ullInteger : Nat := 0
  ullFraction : Nat := 0
  integerSize : Int := 0
  fractionSize : Int := 0
  exponential : Int := 0
  errno : Int
  deriving DecidableEq

/-- `(unsigned long long)(pow(10, (double)fractionSize))`; from the twentieth power on the type cannot hold it,
and the conversion is undefined. -/
def ullPow10 (fractionSize : Int) : Option Nat :=
  if fractionSize < 0 then some 0
  else if fractionSize ≤ 19 then some (10 ^ fractionSize.toNat)
  else none

/-- `ullFraction` after `ullInteger` has been added. -/
def FloatString.combined (split : FloatString) : Option Nat :=
  (ullPow10 split.fractionSize).map fun power =>
    (split.ullFraction + split.ullInteger * power % 2 ^ 64) % 2 ^ 64

def dblMax10Exp : Int := 308

/-- `strtol` of base 10: the value, `endptr` and `errno`. -/
def strtol10 (nptr : Bytes) (errno : Int) : Int × Bytes × Int :=
  match sequenceOf 10 (behindSign nptr) with
  | none => (0, nptr, errno)
  | some (_, digits, rest) =>
    let value : Int := if isNegative nptr then -(valueOf 10 digits : Int) else valueOf 10 digits
    (max (-(2 ^ 63)) (min (2 ^ 63 - 1) value), rest,
      if value < -(2 ^ 63) ∨ 2 ^ 63 - 1 < value then erange else errno)

/-- Some digits that have been read: their number, `endptr`, how many characters have been taken, and whether the
number does not fit. -/
structure Part where
  value : Nat
  endptr : Bytes
  size : Int
  overflow : Bool
  errno : Int

/-- The integer or the fraction. -/
def readPart (startptr : Bytes) (errno : Int) : Part :=
  let converted := strtoullS startptr 10 errno
  { value := converted.result
    endptr := converted.endptr
    size := intOfSizeT (startptr.length - converted.endptr.length)
    overflow := converted.result == ullongMax && converted.errno != 0
    errno := converted.errno }

/-- The fraction part, if it exists. -/
def readFraction (endptr : Bytes) (errno : Int) : Part :=
  if charAt endptr = 0x2E then readPart (endptr.drop 1) errno
  else { value := 0, endptr := endptr, size := 0, overflow := false, errno := errno }

/-- `exponential`, whether it is out of range, `endptr` and `errno`. -/
def readExponent (endptr : Bytes) (errno : Int) : Int × Bool × Bytes × Int :=
  if charAt endptr = 0x65 ∨ charAt endptr = 0x45 then
    let r := strtol10 (endptr.drop 1) errno
    let exponential := intOfLong r.1
    (exponential, exponential < -dblMax10Exp || exponential > dblMax10Exp, r.2)
  else (0, false, endptr, errno)

/-- The branch of `splitFloatString` for a text that starts with a digit. -/
def splitNumber (startptr : Bytes) (signal errno : Int) : FloatString :=
  let integer := readPart startptr errno
  let fraction := readFraction integer.endptr integer.errno
  let exponent := readExponent fraction.endptr fraction.errno
  let overflow := integer.overflow || fraction.overflow || exponent.2.1
  { result := if overflow then .fstOverflow else .fstNumber
    endptr := exponent.2.2.1
    signal := signal
    ullInteger := integer.value
    ullFraction := fraction.value
    integerSize := integer.size
    fractionSize := fraction.size
    exponential := if overflow then exponent.1 else exponent.1 + (integer.size - 1)
    errno := exponent.2.2.2 }

def splitFloatString (nptr : Bytes) (errno : Int) : FloatString :=
  let endptr := nptr.dropWhile isSpace
  let signal := if charAt endptr = 0x2D then -1 else 1
  let endptr := if charAt endptr = 0x2B ∨ charAt endptr = 0x2D then endptr.drop 1 else endptr
  let infinity := isInfinity endptr
  if infinity.1 then { result := .fstInfinity, endptr := infinity.2, signal := signal, errno := errno }
  else
    let nan := isNaN infinity.2
    if nan.1 then { result := .fstNan, endptr := nan.2, signal := signal, errno := errno }
    else if inBaseRange (digitVal (charAt nan.2)) 10 then splitNumber nan.2 signal errno
    else { result := .fstError, endptr := nan.2, signal := signal, errno := errno }

/-- A result, up to the floating point arithmetic. -/
inductive FloatValue
  | zero
  | infinity (signal : Int)
  | nan
  | scaled (split : FloatString)
  | huge (signal : Int)

structure FloatConversion where
  value : FloatValue
  endptr : Option Bytes
  errno : Int

/-- The switch of the two functions; `inRange` is the test of a number's magnitude, in which they differ. -/
def outcome (inRange : FloatString → Bool) (nptr : Bytes) (split : FloatString) : FloatConversion :=
  match split.result with
  | .fstInfinity => { value := .infinity split.signal, endptr := some split.endptr, errno := 0 }
  | .fstNan => { value := .nan, endptr := some split.endptr, errno := split.errno }
  | .fstNumber =>
    if inRange split then { value := .scaled split, endptr := some split.endptr, errno := split.errno }
    else { value := .huge split.signal, endptr := some split.endptr, errno := erange }
  | .fstOverflow => { value := .huge split.signal, endptr := some split.endptr, errno := erange }
  | .fstError => { value := .zero, endptr := some nptr, errno := split.errno }

def convert (inRange : FloatString → Bool) (nptr : Option Bytes) (errno : Int) : FloatConversion :=
  match nptr with
  | none => { value := .zero, endptr := none, errno := errno }
  | some nptr => outcome inRange nptr (splitFloatString nptr errno)

/-- `strtof_s`; `inRange` compares with `FLT_MAX`. -/
def strtofS (inRange : FloatString → Bool) (nptr : Option Bytes) (errno : Int) : FloatConversion :=
  convert inRange nptr errno

/-- `strtold_s`; `inRange` compares with `DBL_MAX` and `DBL_MIN`. -/
def strtoldS (inRange : FloatString → Bool) (nptr : Option Bytes) (errno : Int) : FloatConversion :=
  convert inRange nptr errno

/-! ## The names -/

section

variable {text : Bytes}

theorem substricmp_iff {name : Bytes} (hname : name.all (fun c => toUpper c == c && c != 0) = true)
    (text : Bytes) :
    substricmp text name = 0 ↔ startsWith name text = true := by
  rw [startsWith, beq_iff_eq]
  induction name generalizing text with
  | nil => exact iff_of_true rfl rfl
  | cons c name ih =>
    rw [List.all_cons, Bool.and_eq_true, Bool.and_eq_true, beq_iff_eq, bne_iff_ne] at hname
    obtain ⟨⟨hupper, hzero⟩, hname⟩ := hname
    have hrest := ih hname (text.drop 1)
    have hsame : ((toUpper (charAt text)).toNat : Int) - (toUpper c).toNat = 0 ↔
        toUpper (charAt text) = c := by
      rw [hupper, Int.sub_eq_zero, Int.ofNat_inj]
      exact UInt8.toNat_inj
    rw [substricmp]
    cases text with
    | nil =>
      have hne : ¬ toUpper (charAt []) = c := fun h => hzero (h.symm.trans (by decide))
      rw [if_neg fun h => hne (hsame.1 h)]
      exact iff_of_false (fun h => hne (hsame.1 h)) (by rintro ⟨⟩)
    | cons b text =>
      rw [List.length_cons, List.take_succ_cons, List.map_cons, List.cons.injEq]
      by_cases hb : toUpper b = c
      · rw [if_pos (hsame.2 hb), hrest]
        exact (and_iff_right hb).symm
      · rw [if_neg fun h => hb (hsame.1 h)]
        exact iff_of_false (fun h => hb (hsame.1 h)) fun h => hb h.1

theorem isInfinity_eq (text : Bytes) :
    isInfinity text =
      if startsWith (ascii "INF") text then (true, infinityRest (text.drop 3)) else (false, text) := by
  rw [isInfinity]
  have hshort := @substricmp_iff (ascii "INF") rfl
  have hlong := @substricmp_iff (ascii "INITY") rfl
  simp only [hshort, hlong, infinityRest]
  split_ifs
  · rfl
  · rfl
  · rfl

/-- `NAN(` without a bracket that closes it is not taken. -/
theorem isNaN_eq (text : Bytes) :
    isNaN text =
      if startsWith (ascii "NAN") text = true ∧
          ((text.drop 3).head? = some 0x28 → hasInner (text.drop 3) = true) then
        (true, nanRest (text.drop 3))
      else (false, text) := by
  rw [isNaN]
  have hletters := @substricmp_iff (ascii "NAN") rfl
  simp only [hletters]
  by_cases hname : startsWith (ascii "NAN") text = true
  case neg => rw [if_neg hname, if_neg fun h => hname h.1]
  case pos =>
    rw [if_pos hname]
    generalize text.drop 3 = runner
    have hmark := charAt_eq_iff (by decide : (0x28 : UInt8) ≠ 0) runner
    by_cases hopen : runner.head? = some 0x28
    case neg =>
      have hinner : ¬ hasInner runner = true := by
        rw [hasInner, Bool.and_eq_true, beq_iff_eq]
        exact fun h => hopen h.1
      rw [if_neg fun h => hopen (hmark.1 h), if_pos ⟨hname, fun h => absurd h hopen⟩, nanRest,
        if_neg hinner]
    case pos =>
      have hinner : charAt ((runner.drop 1).dropWhile fun c => c != 0 && c != 0x29) = 0x29 ↔
          hasInner runner = true := by
        rw [charAt_eq_iff (by decide), hasInner, Bool.and_eq_true, beq_iff_eq, beq_iff_eq, List.drop_one]
        exact (and_iff_right hopen).symm
      rw [if_pos (hmark.2 hopen)]
      by_cases hclosed : hasInner runner = true
      · rw [if_pos (hinner.2 hclosed), if_pos ⟨hname, fun _ => hclosed⟩, nanRest, if_pos hclosed,
          List.drop_one, List.drop_one]
        rfl
      · rw [if_neg fun h => hclosed (hinner.1 h), if_neg fun h => hclosed (h.2 hopen)]

end

/-! ## The parts of a number -/

section

variable {text nptr : Bytes}

/-- Where `strtoull_s` and `strtol` of base 10 end. -/
def endOf (nptr : Bytes) : Bytes :=
  if (behindSign nptr).head?.any (isDigitOf 10) then (behindSign nptr).dropWhile (isDigitOf 10) else nptr

theorem strtoullS_ten_endptr (nptr : Bytes) (errno : Int) : (strtoullS nptr 10 errno).endptr = endOf nptr := by
  rw [strtoullS_ten, endOf]
  split_ifs
  · rfl
  · rfl

theorem strtol10_endptr (nptr : Bytes) (errno : Int) : (strtol10 nptr errno).2.1 = endOf nptr := by
  rw [strtol10, endOf, sequenceOf_ten]
  by_cases hdigit : (behindSign nptr).head?.any (isDigitOf 10) = true
  · rw [if_pos hdigit, if_pos hdigit]
  · rw [if_neg hdigit, if_neg hdigit]

theorem length_endOf_le (nptr : Bytes) : (endOf nptr).length ≤ nptr.length := by
  rw [endOf]
  split_ifs
  · exact ((List.dropWhile_suffix _).trans (behindSign_suffix nptr)).length_le
  · exact Nat.le_refl _

theorem endOf_sign (hdigit : (behindOneSign text).head?.any (isDigitOf 10) = true) :
    endOf text = (behindOneSign text).dropWhile (isDigitOf 10) := by
  have hdrop : text.dropWhile isSpace = text := by
    obtain ⟨sign, hsign, htext⟩ := exists_sign text
    cases hsign with
    | none =>
      rw [List.nil_append] at htext
      rw [← htext] at hdigit
      cases text with
      | nil => rfl
      | cons d text =>
        exact List.dropWhile_cons_of_neg (by rw [(isDigitOf_ten d hdigit).1]; exact Bool.false_ne_true)
    | plus =>
      rw [htext]
      rfl
    | minus =>
      rw [htext]
      rfl
  have hbehind : behindSign text = behindOneSign text := congrArg behindOneSign hdrop
  rw [endOf, hbehind, if_pos hdigit]

theorem endOf_digit (hdigit : text.head?.any (isDigitOf 10) = true) :
    endOf text = text.dropWhile (isDigitOf 10) := by
  rw [endOf, (behindSign_digit hdigit).1, if_pos hdigit]

/-- Where the code ends behind the integer digits: it takes every point, and every letter behind that. -/
def takenPoint (text : Bytes) : Bytes :=
  if text.head? = some 0x2E then endOf text.tail else text

def takenLetter (text : Bytes) : Bytes :=
  if text.head? = some 0x65 ∨ text.head? = some 0x45 then endOf text.tail else text

theorem splitNumber_endptr (hdigit : text.head?.any (isDigitOf 10) = true) (signal errno : Int) :
    (splitNumber text signal errno).endptr = takenLetter (takenPoint (text.dropWhile (isDigitOf 10))) := by
  have hfraction : ∀ endptr errno, (readFraction endptr errno).endptr = takenPoint endptr := by
    intro endptr errno
    have hmark := charAt_eq_iff (by decide : (0x2E : UInt8) ≠ 0) endptr
    rw [readFraction, takenPoint]
    by_cases hpoint : endptr.head? = some 0x2E
    · rw [if_pos (hmark.2 hpoint), if_pos hpoint, List.drop_one]
      exact strtoullS_ten_endptr _ _
    · rw [if_neg fun h => hpoint (hmark.1 h), if_neg hpoint]
  have hexponent : ∀ endptr errno, (readExponent endptr errno).2.2.1 = takenLetter endptr := by
    intro endptr errno
    have hmark : charAt endptr = 0x65 ∨ charAt endptr = 0x45 ↔
        endptr.head? = some 0x65 ∨ endptr.head? = some 0x45 := by
      rw [charAt_eq_iff (by decide), charAt_eq_iff (by decide)]
    rw [readExponent, takenLetter]
    by_cases hletter : endptr.head? = some 0x65 ∨ endptr.head? = some 0x45
    · rw [if_pos (hmark.2 hletter), if_pos hletter, List.drop_one]
      exact strtol10_endptr _ _
    · rw [if_neg fun h => hletter (hmark.1 h), if_neg hletter]
  have hinteger : (readPart text errno).endptr = text.dropWhile (isDigitOf 10) :=
    (strtoullS_ten_endptr text errno).trans (endOf_digit hdigit)
  rw [splitNumber]
  dsimp only
  rw [hexponent, hfraction, hinteger]

theorem length_takenLetter_le (text : Bytes) : (takenLetter text).length ≤ text.length := by
  rw [takenLetter]
  split_ifs
  · exact Nat.le_trans (length_endOf_le _) (List.tail_suffix text).length_le
  · exact Nat.le_refl _

theorem takenPoint_eq_iff (text : Bytes) :
    takenPoint text = fractionRest text ↔ (text.head? = some 0x2E → hasFraction text = true) := by
  rw [takenPoint, fractionRest]
  cases text with
  | nil => exact iff_of_true rfl (by rintro ⟨⟩)
  | cons c rest =>
    by_cases hpoint : c = 0x2E
    case neg =>
      have hhead : ¬ (c :: rest).head? = some 0x2E := fun h => hpoint (Option.some.inj h)
      have hnone : ¬ hasFraction (c :: rest) = true := by
        intro h
        obtain ⟨_, heq, -⟩ := hasFraction_iff.1 h
        exact hpoint (List.cons.inj heq).1
      rw [if_neg hhead, if_neg hnone]
      exact iff_of_true rfl fun h => absurd h hhead
    case pos =>
      subst hpoint
      rw [List.head?_cons, if_pos rfl, List.tail_cons]
      by_cases hdigit : hasFraction (0x2E :: rest) = true
      · obtain ⟨_, heq, hhead⟩ := hasFraction_iff.1 hdigit
        cases heq
        rw [if_pos hdigit]
        exact iff_of_true (endOf_digit hhead) fun _ => hdigit
      · rw [if_neg hdigit]
        refine iff_of_false (fun heq => ?_) fun h => hdigit (h rfl)
        have hle := length_endOf_le rest
        rw [heq, List.length_cons] at hle
        omega

theorem takenLetter_eq_iff (text : Bytes) :
    takenLetter text = exponentRest text ↔
      (text.head? = some 0x65 ∨ text.head? = some 0x45 → hasExponent text = true) := by
  rw [takenLetter, exponentRest]
  cases text with
  | nil => exact iff_of_true rfl (by rintro (h | h) <;> cases h)
  | cons c rest =>
    by_cases hletter : (c :: rest).head? = some 0x65 ∨ (c :: rest).head? = some 0x45
    case neg =>
      have hnone : ¬ hasExponent (c :: rest) = true := by
        intro h
        obtain ⟨_, _, heq, he, -⟩ := hasExponent_iff.1 h
        cases heq
        exact hletter (he.imp (congrArg some) (congrArg some))
      rw [if_neg hletter, if_neg hnone]
      exact iff_of_true rfl fun h => absurd h hletter
    case pos =>
      rw [if_pos hletter, List.tail_cons]
      by_cases hdigit : hasExponent (c :: rest) = true
      · obtain ⟨_, _, heq, -, hhead⟩ := hasExponent_iff.1 hdigit
        cases heq
        rw [if_pos hdigit]
        exact iff_of_true (endOf_sign hhead) fun _ => hdigit
      · rw [if_neg hdigit]
        refine iff_of_false (fun heq => ?_) fun h => hdigit (h hletter)
        have hle := length_endOf_le rest
        rw [heq, List.length_cons] at hle
        omega

theorem taken_eq_iff (text : Bytes) :
    takenLetter (takenPoint text) = exponentRest (fractionRest text) ↔
      (text.head? = some 0x2E → hasFraction text = true) ∧
        ((fractionRest text).head? = some 0x65 ∨ (fractionRest text).head? = some 0x45 →
          hasExponent (fractionRest text) = true) := by
  by_cases hpoint : text.head? = some 0x2E → hasFraction text = true
  case pos =>
    rw [(takenPoint_eq_iff text).2 hpoint, takenLetter_eq_iff]
    exact (and_iff_right hpoint).symm
  case neg =>
    refine iff_of_false (fun heq => ?_) fun h => hpoint h.1
    obtain ⟨hhead, hnone⟩ := not_forall.1 hpoint
    have hrest : fractionRest text = text := if_neg hnone
    have hletter : exponentRest text = text := by
      refine if_neg fun h => ?_
      obtain ⟨e, rest, rfl, he, -⟩ := hasExponent_iff.1 h
      cases hhead
      exact absurd he (by decide)
    have hle := Nat.le_trans (length_takenLetter_le (takenPoint text)) (Nat.le_refl _)
    rw [heq, hrest, hletter, takenPoint, if_pos hhead] at hle
    have hend := length_endOf_le text.tail
    cases text with
    | nil => cases hhead
    | cons c rest =>
      rw [List.length_cons] at hle
      rw [List.tail_cons] at hend hle
      omega

end

/-! ## The extent -/

/-- A `NAN(` is closed; a point behind the integer digits has a digit behind it, and so has an `e` behind it and
its sign. -/
structure ProperlyEnded (text : Bytes) : Prop where
  nan : startsWith (ascii "NAN") text = true →
    (text.drop 3).head? = some 0x28 → hasInner (text.drop 3) = true
  point : text.head?.any (isDigitOf 10) = true →
    (text.dropWhile (isDigitOf 10)).head? = some 0x2E → hasFraction (text.dropWhile (isDigitOf 10)) = true
  letter : text.head?.any (isDigitOf 10) = true →
    (fractionRest (text.dropWhile (isDigitOf 10))).head? = some 0x65 ∨
        (fractionRest (text.dropWhile (isDigitOf 10))).head? = some 0x45 →
      hasExponent (fractionRest (text.dropWhile (isDigitOf 10))) = true

section

variable {nptr text : Bytes}

theorem not_digit_of_startsWith {c : UInt8} {name : Bytes} (hc : c = 0x49 ∨ c = 0x4E)
    (h : startsWith (c :: name) text = true) : text.head?.any (isDigitOf 10) = false := by
  obtain ⟨front, rest, hfront, rfl⟩ := startsWith_iff.1 h
  exact hfront.head_not_digit hc rest

/-- `splitFloatString` behind the sign. -/
theorem splitFloatString_eq (nptr : Bytes) (errno : Int) :
    splitFloatString nptr errno =
      let signal := if isNegative nptr then -1 else 1
      let text := behindSign nptr
      if startsWith (ascii "INF") text then
        { result := .fstInfinity, endptr := infinityRest (text.drop 3), signal := signal, errno := errno }
      else if startsWith (ascii "NAN") text = true ∧
          ((text.drop 3).head? = some 0x28 → hasInner (text.drop 3) = true) then
        { result := .fstNan, endptr := nanRest (text.drop 3), signal := signal, errno := errno }
      else if text.head?.any (isDigitOf 10) then splitNumber text signal errno
      else { result := .fstError, endptr := text, signal := signal, errno := errno } := by
  have hsignal : (if charAt (nptr.dropWhile isSpace) = 0x2D then (-1 : Int) else 1) =
      if isNegative nptr then -1 else 1 := by
    rw [← isNegative_eq]
    exact if_congr beq_iff_eq.symm rfl rfl
  rw [splitFloatString]
  dsimp only
  rw [behindSign_eq, hsignal, isInfinity_eq]
  by_cases hinfinity : startsWith (ascii "INF") (behindSign nptr) = true
  · rw [if_pos hinfinity, if_pos hinfinity]
    rfl
  · rw [if_neg hinfinity, if_neg hinfinity, if_neg Bool.false_ne_true, isNaN_eq]
    by_cases hnan : startsWith (ascii "NAN") (behindSign nptr) = true ∧
        (((behindSign nptr).drop 3).head? = some 0x28 → hasInner ((behindSign nptr).drop 3) = true)
    · rw [if_pos hnan, if_pos hnan]
      rfl
    · have hdigit : inBaseRange (digitVal (charAt (behindSign nptr))) 10 =
          (behindSign nptr).head?.any (isDigitOf 10) :=
        (inBaseRange_digitVal _ 10).trans (isDigitOf_charAt 10 _)
      rw [if_neg hnan, if_neg hnan, if_neg Bool.false_ne_true, hdigit]

/-- The end pointer of both functions. -/
def convertEnd (nptr : Bytes) (split : FloatString) : Bytes :=
  if split.result = .fstError then nptr else split.endptr

theorem outcome_endptr (inRange : FloatString → Bool) (nptr : Bytes) (split : FloatString) :
    (outcome inRange nptr split).endptr = some (convertEnd nptr split) := by
  rw [outcome, convertEnd]
  cases hresult : split.result with
  | fstNumber =>
    have hne : FloatStringType.fstNumber ≠ .fstError := by decide
    rw [if_neg hne]
    split_ifs
    · rfl
    · rfl
  | _ => rfl

theorem convert_endptr (inRange : FloatString → Bool) (nptr : Bytes) (errno : Int) :
    (convert inRange (some nptr) errno).endptr = some (convertEnd nptr (splitFloatString nptr errno)) :=
  outcome_endptr inRange nptr _

theorem convertEnd_eq_iff (nptr : Bytes) (errno : Int) :
    convertEnd nptr (splitFloatString nptr errno) = floatRest nptr ↔ ProperlyEnded (behindSign nptr) := by
  rw [floatRest, formRest, splitFloatString_eq]
  dsimp only
  have hlength := (behindSign_suffix nptr).length_le
  generalize behindSign nptr = text at hlength ⊢
  by_cases hdigit : text.head?.any (isDigitOf 10) = true
  case pos =>
    have hnoName : ∀ {c name}, c = 0x49 ∨ c = 0x4E → ¬ startsWith (c :: name) text = true := by
      intro c name hc h
      exact Bool.noConfusion (hdigit.symm.trans (not_digit_of_startsWith hc h))
    have hinfinity : ¬ startsWith (ascii "INF") text = true := hnoName (.inl rfl)
    have hnan : ¬ startsWith (ascii "NAN") text = true := hnoName (.inr rfl)
    rw [if_neg hinfinity, if_neg fun h => hnan h.1, if_pos hdigit, if_pos hdigit]
    have hnumber : ∀ signal, (splitNumber text signal errno).result ≠ .fstError := by
      intro signal
      rw [splitNumber]
      dsimp only
      split_ifs
      · rintro ⟨⟩
      · rintro ⟨⟩
    rw [convertEnd, if_neg (hnumber _), splitNumber_endptr hdigit]
    refine (taken_eq_iff _).trans ?_
    constructor
    · intro h
      exact ⟨fun hname => absurd hname hnan, fun _ => h.1, fun _ => h.2⟩
    · intro h
      exact ⟨h.point hdigit, h.letter hdigit⟩
  case neg =>
    rw [if_neg hdigit, if_neg hdigit]
    by_cases hinfinity : startsWith (ascii "INF") text = true
    case pos =>
      have hnan : ¬ startsWith (ascii "NAN") text = true := by
        obtain ⟨front, rest, hfront, rfl⟩ := startsWith_iff.1 hinfinity
        exact not_startsWith_of_head hfront (by decide : (0x49 : UInt8) ≠ 0x4E) rest
      rw [if_pos hinfinity, if_pos hinfinity]
      exact iff_of_true rfl ⟨fun h => absurd h hnan, fun h => absurd h hdigit, fun h => absurd h hdigit⟩
    case neg =>
      rw [if_neg hinfinity, if_neg hinfinity]
      by_cases hnan : startsWith (ascii "NAN") text = true
      case neg =>
        rw [if_neg hnan, if_neg fun h => hnan h.1]
        exact iff_of_true rfl ⟨fun h => absurd h hnan, fun h => absurd h hdigit, fun h => absurd h hdigit⟩
      case pos =>
        rw [if_pos hnan]
        by_cases hclosed : (text.drop 3).head? = some 0x28 → hasInner (text.drop 3) = true
        · rw [if_pos ⟨hnan, hclosed⟩]
          exact iff_of_true rfl ⟨fun _ => hclosed, fun h => absurd h hdigit, fun h => absurd h hdigit⟩
        · rw [if_neg fun h => hclosed h.2]
          refine iff_of_false (fun heq => ?_) fun h => hclosed (h.nan hnan)
          -- the name has been read, but the end is the start
          have hnptr : nptr = nanRest (text.drop 3) := heq
          obtain ⟨front, rest, hfront, rfl⟩ := startsWith_iff.1 hnan
          have hthree : front.length = 3 := hfront.length_eq
          have hle := length_nanRest_le ((front ++ rest).drop 3)
          rw [← hnptr, List.length_drop, List.length_append, hthree] at hle
          rw [List.length_append, hthree] at hlength
          omega

/-- The end pointers are those of the longest number where the text is properly ended. -/
theorem float_extent_iff (inRange : FloatString → Bool) (nptr : Bytes) (errno : Int) :
    ((∃ endptr, (strtofS inRange (some nptr) errno).endptr = some endptr ∧ Extent nptr endptr) ↔
        ProperlyEnded (behindSign nptr)) ∧
      ((∃ endptr, (strtoldS inRange (some nptr) errno).endptr = some endptr ∧ Extent nptr endptr) ↔
        ProperlyEnded (behindSign nptr)) := by
  have hconvert :
      (∃ endptr, (convert inRange (some nptr) errno).endptr = some endptr ∧ Extent nptr endptr) ↔
        ProperlyEnded (behindSign nptr) := by
    rw [convert_endptr, ← convertEnd_eq_iff nptr errno]
    constructor
    · rintro ⟨endptr, hend, hextent⟩
      cases hend
      exact extent_iff.1 hextent
    · intro h
      exact ⟨_, rfl, extent_iff.2 h⟩
  exact ⟨hconvert, hconvert⟩

/-- The blank and the sign behind the point are taken. -/
theorem float_extent_blank :
    Extent (ascii "1. -5x") (ascii ". -5x") ∧
      ∀ inRange, (strtofS inRange (some (ascii "1. -5x")) 0).endptr = some (ascii "x") ∧
        (strtoldS inRange (some (ascii "1. -5x")) 0).endptr = some (ascii "x") := by
  have hcode : convertEnd (ascii "1. -5x") (splitFloatString (ascii "1. -5x") 0) = ascii "x" := by
    decide
  refine ⟨extent_iff.2 (by decide), fun inRange => ?_⟩
  have hconvert := convert_endptr inRange (ascii "1. -5x") 0
  rw [hcode] at hconvert
  exact ⟨hconvert, hconvert⟩

end

/-! ## The sum -/

/-- The sum is the number, and no step of it wraps around. -/
structure CombinesTo (split : FloatString) (number : Nat) : Prop where
  combined : split.combined = some number
  inRange : ∃ power, ullPow10 split.fractionSize = some power ∧
    split.ullInteger * power + split.ullFraction ≤ ullongMax

/-- A fraction of so many characters that is added to the integer changes nothing. A size that is
negative as an `int` makes the power 0. -/
def Unchanged (integer fraction : Nat) (size : Int) : Prop :=
  size ≤ 19 ∧ if size < 0 then fraction = integer else fraction = 0 ∧ (size = 0 ∨ integer = 0)

/-- The number of all the digits fits, and the power of ten does. Where blanks or a sign follow the
point, digits behind them are taken for a fraction, and it must not change the sum. -/
def Combinable (text : Bytes) : Prop :=
  let integer := valueOf 10 (text.takeWhile (isDigitOf 10))
  let behind := text.dropWhile (isDigitOf 10)
  if hasFraction behind then
    valueOf 10 (decimalDigits text) ≤ ullongMax ∧ intOfSizeT (fractionDigits behind).length ≤ 19
  else
    behind.head? = some 0x2E → (behindSign behind.tail).head?.any (isDigitOf 10) = true →
      Unchanged integer
        (signed (isNegative behind.tail)
          (min (valueOf 10 ((behindSign behind.tail).takeWhile (isDigitOf 10))) ullongMax))
        (intOfSizeT (behind.tail.length - (endOf behind.tail).length))

section

variable {text nptr : Bytes} {split : FloatString} {number : Nat}

theorem combinesTo_iff :
    CombinesTo split number ↔
      ∃ power, ullPow10 split.fractionSize = some power ∧
        split.ullInteger * power + split.ullFraction = number ∧ number ≤ ullongMax := by
  have hsum : ∀ power, ullPow10 split.fractionSize = some power →
      split.ullInteger * power + split.ullFraction ≤ ullongMax →
        split.combined = some (split.ullInteger * power + split.ullFraction) := by
    intro power hpower hle
    have hmax : ullongMax < 2 ^ 64 := by decide
    have hproduct : split.ullInteger * power % 2 ^ 64 = split.ullInteger * power := Nat.mod_eq_of_lt (by omega)
    rw [FloatString.combined, hpower, Option.map_some, hproduct, Nat.add_comm, Nat.mod_eq_of_lt (by omega)]
  constructor
  · rintro ⟨hcombined, power, hpower, hle⟩
    cases (hsum power hpower hle).symm.trans hcombined
    exact ⟨power, hpower, rfl, hle⟩
  · rintro ⟨power, hpower, rfl, hle⟩
    exact ⟨hsum power hpower hle, power, hpower, hle⟩

theorem readPart_eq (hdigit : (behindSign text).head?.any (isDigitOf 10) = true) (errno : Int) :
    (readPart text errno).value = signed (isNegative text)
        (min (valueOf 10 ((behindSign text).takeWhile (isDigitOf 10))) ullongMax) ∧
      (readPart text errno).size = intOfSizeT (text.length - (endOf text).length) ∧
      (isNegative text = false → (readPart text errno).overflow = false →
        valueOf 10 ((behindSign text).takeWhile (isDigitOf 10)) ≤ ullongMax) := by
  have hend := strtoullS_ten_endptr text errno
  rw [readPart]
  dsimp only
  rw [hend, strtoullS_ten, if_pos hdigit]
  refine ⟨rfl, rfl, fun hpositive hoverflow => ?_⟩
  by_contra hlarge
  have hmax := Nat.lt_of_not_le hlarge
  have hread : signed (isNegative text)
      (min (valueOf 10 ((behindSign text).takeWhile (isDigitOf 10))) ullongMax) = ullongMax := by
    rw [hpositive, Nat.min_eq_right (Nat.le_of_lt hmax)]
    rfl
  dsimp only at hoverflow
  rw [hread, if_pos hmax] at hoverflow
  revert hoverflow
  decide

theorem readPart_none (hdigit : ¬ (behindSign text).head?.any (isDigitOf 10) = true) (errno : Int) :
    (readPart text errno).value = 0 ∧ (readPart text errno).size = 0 := by
  rw [readPart]
  dsimp only
  rw [strtoullS_ten, if_neg hdigit, Nat.sub_self]
  exact ⟨rfl, rfl⟩

theorem length_sub_dropWhile (p : UInt8 → Bool) (text : Bytes) :
    text.length - (text.dropWhile p).length = (text.takeWhile p).length := by
  have hlength := congrArg List.length (@List.takeWhile_append_dropWhile _ p text)
  rw [List.length_append] at hlength
  omega

theorem readPart_digit (hdigit : text.head?.any (isDigitOf 10) = true) (errno : Int)
    (hoverflow : (readPart text errno).overflow = false) :
    (readPart text errno).value = valueOf 10 (text.takeWhile (isDigitOf 10)) ∧
      (readPart text errno).size = intOfSizeT (text.takeWhile (isDigitOf 10)).length ∧
      valueOf 10 (text.takeWhile (isDigitOf 10)) ≤ ullongMax := by
  obtain ⟨hbehind, hpositive⟩ := behindSign_digit hdigit
  have hread := @readPart_eq text (by rw [hbehind]; exact hdigit) errno
  rw [hbehind, hpositive, endOf_digit hdigit, length_sub_dropWhile] at hread
  obtain ⟨hvalue, hsize, hfits⟩ := hread
  have hle := hfits rfl hoverflow
  rw [Nat.min_eq_left hle] at hvalue
  exact ⟨hvalue, hsize, hle⟩

theorem intOfSizeT_of_lt {size : Nat} (h : size < 2 ^ 31) : intOfSizeT size = size := by
  rw [intOfSizeT, BitVec.toInt_eq_toNat_of_lt]
  · rw [BitVec.toNat_ofNat, Nat.mod_eq_of_lt (by omega)]
  · rw [BitVec.toNat_ofNat, Nat.mod_eq_of_lt (by omega)]
    omega

theorem decimal_sum_iff {integer fraction length : Nat} :
    (∃ power, ullPow10 (intOfSizeT length) = some power ∧
        integer * power + fraction = integer * 10 ^ length + fraction ∧
          integer * 10 ^ length + fraction ≤ ullongMax) ↔
      integer * 10 ^ length + fraction ≤ ullongMax ∧ intOfSizeT length ≤ 19 := by
  constructor
  · rintro ⟨power, hpower, -, hle⟩
    refine ⟨hle, ?_⟩
    rw [ullPow10] at hpower
    split_ifs at hpower with hnegative hsmall
    · omega
    · exact hsmall
  · rintro ⟨hle, hsmall⟩
    rcases Nat.eq_zero_or_pos integer with rfl | hpos
    · rw [Nat.zero_mul, Nat.zero_add] at hle ⊢
      by_cases hnegative : intOfSizeT length < 0
      · exact ⟨0, by rw [ullPow10, if_pos hnegative], by rw [Nat.zero_mul, Nat.zero_add], hle⟩
      · have hpower : ullPow10 (intOfSizeT length) = some (10 ^ (intOfSizeT length).toNat) := by
          rw [ullPow10, if_neg hnegative, if_pos hsmall]
        exact ⟨_, hpower, by rw [Nat.zero_mul, Nat.zero_add], hle⟩
    · -- the power itself is in range
      have hlength : length ≤ 19 := by
        by_contra hlong
        have hpow : 10 ^ 20 ≤ 10 ^ length := Nat.pow_le_pow_right (by decide) (by omega)
        have hproduct : 10 ^ length ≤ integer * 10 ^ length := Nat.le_mul_of_pos_left _ hpos
        have hmax : ullongMax < 10 ^ 20 := by decide
        omega
      have hint := @intOfSizeT_of_lt length (by omega)
      refine ⟨10 ^ length, ?_, rfl, hle⟩
      rw [hint, ullPow10, if_neg (by omega), if_pos (by omega), Int.toNat_natCast]

theorem unchanged_iff {integer fraction : Nat} {size : Int} :
    (∃ power, ullPow10 size = some power ∧ integer * power + fraction = integer) ↔
      Unchanged integer fraction size := by
  rw [Unchanged, ullPow10]
  by_cases hnegative : size < 0
  case pos =>
    rw [if_pos hnegative, if_pos hnegative]
    constructor
    · rintro ⟨power, ⟨⟩, hsum⟩
      exact ⟨by omega, by omega⟩
    · rintro ⟨-, rfl⟩
      exact ⟨0, rfl, by omega⟩
  case neg =>
    rw [if_neg hnegative, if_neg hnegative]
    by_cases hsmall : size ≤ 19
    case neg =>
      rw [if_neg hsmall]
      exact iff_of_false (by rintro ⟨power, ⟨⟩, -⟩) fun h => hsmall h.1
    case pos =>
      rw [if_pos hsmall]
      constructor
      · rintro ⟨power, ⟨⟩, hsum⟩
        refine ⟨hsmall, ?_⟩
        by_cases hzero : size = 0
        · subst hzero
          rw [Int.toNat_zero, Nat.pow_zero, Nat.mul_one] at hsum
          exact ⟨by omega, .inl rfl⟩
        · -- ten times an integer is more than the integer
          have hten : 10 ^ 1 ≤ 10 ^ size.toNat := Nat.pow_le_pow_right (by decide) (by omega)
          have hproduct : integer * 10 ≤ integer * 10 ^ size.toNat := Nat.mul_le_mul_left _ hten
          exact ⟨by omega, .inr (by omega)⟩
      · rintro ⟨-, rfl, rfl | rfl⟩
        · exact ⟨10 ^ 0, rfl, by rw [Nat.pow_zero, Nat.mul_one, Nat.add_zero]⟩
        · exact ⟨_, rfl, by rw [Nat.zero_mul, Nat.add_zero]⟩

theorem signed_min_eq_zero_iff {negative : Bool} {value : Nat} :
    signed negative (min value ullongMax) = 0 ↔ value = 0 := by
  have hmax : ullongMax = 2 ^ 64 - 1 := by decide
  unfold signed
  split <;> omega

/-- A misread fraction is harmless if all the digits are 0, and few characters are taken. -/
theorem combinable_misread_iff (hlength : text.length < 2 ^ 31)
    (hfraction : hasFraction (text.dropWhile (isDigitOf 10)) = false)
    (hpoint : (text.dropWhile (isDigitOf 10)).head? = some 0x2E)
    (hskipped :
      (behindSign (text.dropWhile (isDigitOf 10)).tail).head?.any (isDigitOf 10) = true) :
    let rest := (text.dropWhile (isDigitOf 10)).tail
    Combinable text ↔
      valueOf 10 (text.takeWhile (isDigitOf 10)) = 0 ∧
        valueOf 10 ((behindSign rest).takeWhile (isDigitOf 10)) = 0 ∧
          rest.length - (endOf rest).length ≤ 19 := by
  intro rest
  have hrest : (endOf rest).length < rest.length := by
    rw [endOf, if_pos hskipped]
    refine Nat.lt_of_lt_of_le ?_ (behindSign_suffix rest).length_le
    rcases hdigits : behindSign rest with ⟨⟩ | ⟨digit, digits⟩
    · rw [hdigits] at hskipped
      cases hskipped
    · rw [hdigits] at hskipped
      have hdigit : isDigitOf 10 digit = true := hskipped
      rw [List.dropWhile_cons_of_pos hdigit]
      exact Nat.lt_succ_of_le (List.dropWhile_suffix _).length_le
  have hshort : rest.length ≤ text.length :=
    ((List.tail_suffix _).trans (List.dropWhile_suffix _)).length_le
  have hcombinable : Combinable text ↔
      Unchanged (valueOf 10 (text.takeWhile (isDigitOf 10)))
        (signed (isNegative rest)
          (min (valueOf 10 ((behindSign rest).takeWhile (isDigitOf 10))) ullongMax))
        (intOfSizeT (rest.length - (endOf rest).length)) := by
    rw [Combinable, hfraction]
    exact ⟨fun h => h hpoint hskipped, fun h _ _ => h⟩
  rw [hcombinable, Unchanged, intOfSizeT_of_lt (by omega), if_neg (by omega), signed_min_eq_zero_iff]
  omega

theorem splitNumber_combines_iff (hdigit : text.head?.any (isDigitOf 10) = true) (signal errno : Int)
    (h : (splitNumber text signal errno).result = .fstNumber) :
    CombinesTo (splitNumber text signal errno) (valueOf 10 (decimalDigits text)) ↔ Combinable text := by
  rw [combinesTo_iff]
  rw [splitNumber] at h ⊢
  dsimp only at h ⊢
  have hinteger : (readPart text errno).endptr = text.dropWhile (isDigitOf 10) :=
    (strtoullS_ten_endptr text errno).trans (endOf_digit hdigit)
  rw [hinteger] at h ⊢
  -- nothing has overflowed
  have hnone : (readPart text errno).overflow = false ∧
      (readFraction (text.dropWhile (isDigitOf 10)) (readPart text errno).errno).overflow = false := by
    split_ifs at h with hoverflow
    rw [Bool.not_eq_true, Bool.or_eq_false_iff, Bool.or_eq_false_iff] at hoverflow
    exact hoverflow.1
  obtain ⟨hvalue, -, hle⟩ := readPart_digit hdigit errno hnone.1
  have hoverflow := hnone.2
  clear h hnone hinteger
  rw [hvalue]
  generalize (readPart text errno).errno = errno' at hoverflow ⊢
  rw [Combinable, decimalDigits, valueOf_append]
  generalize valueOf 10 (text.takeWhile (isDigitOf 10)) = integer at hle ⊢
  generalize text.dropWhile (isDigitOf 10) = behind at hoverflow ⊢
  have hmark := charAt_eq_iff (by decide : (0x2E : UInt8) ≠ 0) behind
  rw [readFraction] at hoverflow ⊢
  by_cases hfraction : hasFraction behind = true
  case pos =>
    obtain ⟨rest, rfl, hrest⟩ := hasFraction_iff.1 hfraction
    rw [if_pos (hmark.2 rfl), List.drop_one, List.tail_cons] at hoverflow
    obtain ⟨hread, hsize, -⟩ := readPart_digit hrest errno' hoverflow
    have hdigits : fractionDigits (0x2E :: rest) = rest.takeWhile (isDigitOf 10) := if_pos hfraction
    rw [if_pos hfraction, if_pos (hmark.2 rfl), List.drop_one, List.tail_cons, hread, hsize, hdigits]
    exact decimal_sum_iff
  case neg =>
    have hdigits : fractionDigits behind = [] := if_neg hfraction
    rw [if_neg hfraction, hdigits, List.length_nil, Nat.pow_zero, Nat.mul_one,
      show valueOf 10 [] = 0 from rfl, Nat.add_zero]
    have hplain :
        ∃ power, ullPow10 0 = some power ∧ integer * power + 0 = integer ∧ integer ≤ ullongMax :=
      ⟨1, rfl, by rw [Nat.mul_one, Nat.add_zero], hle⟩
    by_cases hpoint : behind.head? = some 0x2E
    case neg =>
      rw [if_neg fun hc => hpoint (hmark.1 hc)]
      exact iff_of_true hplain fun h => absurd h hpoint
    case pos =>
      rw [if_pos (hmark.2 hpoint), List.drop_one]
      by_cases hskipped : (behindSign behind.tail).head?.any (isDigitOf 10) = true
      case neg =>
        obtain ⟨hzero, hsize⟩ := readPart_none hskipped errno'
        rw [hzero, hsize]
        exact iff_of_true hplain fun _ h => absurd h hskipped
      case pos =>
        obtain ⟨hread, hsize, -⟩ := readPart_eq hskipped errno'
        rw [hread, hsize]
        constructor
        · rintro ⟨power, hpower, hsum, -⟩ - -
          exact unchanged_iff.1 ⟨power, hpower, hsum⟩
        · intro h
          obtain ⟨power, hpower, hsum⟩ := unchanged_iff.2 (h hpoint hskipped)
          exact ⟨power, hpower, hsum, hle⟩

/-- The sum of a number is the number of its digits where that fits, and its power of ten does. -/
theorem splitFloatString_combines_iff (nptr : Bytes) (errno : Int)
    (h : (splitFloatString nptr errno).result = .fstNumber) :
    CombinesTo (splitFloatString nptr errno) (valueOf 10 (decimalDigits (behindSign nptr))) ↔
      Combinable (behindSign nptr) := by
  rw [splitFloatString_eq] at h ⊢
  dsimp only at h ⊢
  generalize (if isNegative nptr = true then (-1 : Int) else 1) = signal at h ⊢
  split_ifs at h with hinfinity hnan hdigit
  rw [if_neg hinfinity, if_neg hnan, if_pos hdigit]
  exact splitNumber_combines_iff hdigit signal errno h

/-- A number with two digits behind the point. -/
theorem splitFloatString_combines_short :
    CombinesTo (splitFloatString (ascii " -3.25e2") 0)
        (valueOf 10 (decimalDigits (behindSign (ascii " -3.25e2")))) ↔
      Combinable (behindSign (ascii " -3.25e2")) :=
  splitFloatString_combines_iff (ascii " -3.25e2") 0 (by decide)

/-- Twenty digits: the product wraps around. -/
theorem splitFloatString_wraps :
    (splitFloatString (ascii "2.0000000000000000000") 0).result = .fstNumber ∧
      (splitFloatString (ascii "2.0000000000000000000") 0).combined = some 1553255926290448384 ∧
      valueOf 10 (decimalDigits (ascii "2.0000000000000000000")) = 20000000000000000000 := by
  decide

end

end SharedUtility.CrtAbstractions
