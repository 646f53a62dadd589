import SharedUtility.SubjectSequence

/-!
# FloatSequence — the texts of floating point numbers

* `Fraction`, `Exponent`, `FloatForm` — the expected form: digits, where there are some also a fraction and an
  exponent; or `INF`, `INFINITY`, `NAN` and `NAN(…)`, ignoring case,
* `FloatAt`, `Extent` — a text starts with it behind white space and a sign, and the longest one,
* `floatRest` — how it is found,
* `extent_iff`.
-/

namespace SharedUtility

/-! ## The form -/

inductive Sign : Bytes → Prop
  | none : Sign []
  | plus : Sign [0x2B]
  | minus : Sign [0x2D]

inductive Fraction : Bytes → Prop
  | none : Fraction []
  | digits {digits : Bytes} : IsDigits 10 digits → Fraction (0x2E :: digits)

inductive Exponent : Bytes → Prop
  | none : Exponent []
  | digits {e : UInt8} {sign digits : Bytes} :
      e = 0x65 ∨ e = 0x45 → Sign sign → IsDigits 10 digits → Exponent (e :: (sign ++ digits))

/-- The letters are those of the name, ignoring case. -/
def IsName (name : Bytes) (text : Bytes) : Prop :=
  text.map toUpper = name

inductive FloatForm : Bytes → Prop
  | number {integer fraction exponent : Bytes} :
      IsDigits 10 integer → Fraction fraction → Exponent exponent →
        FloatForm (integer ++ (fraction ++ exponent))
  | infinity {text : Bytes} : IsName (ascii "INF") text ∨ IsName (ascii "INFINITY") text → FloatForm text
  | nan {text : Bytes} : IsName (ascii "NAN") text → FloatForm text
  | nanOf {text inner : Bytes} :
      IsName (ascii "NAN") text → (∀ b ∈ inner, b ≠ 0 ∧ b ≠ 0x29) →
        FloatForm (text ++ (0x28 :: (inner ++ [0x29])))

/-- The text has that form behind white space and a sign, up to the rest. -/
def FloatAt (nptr rest : Bytes) : Prop :=
  ∃ blanks sign body, (∀ b ∈ blanks, isSpace b = true) ∧ Sign sign ∧ FloatForm body ∧
    nptr = blanks ++ (sign ++ (body ++ rest))

/-- The end of the longest such text, and the start where there is none. -/
def Extent (nptr endptr : Bytes) : Prop :=
  (FloatAt nptr endptr ∧ ∀ rest, FloatAt nptr rest → endptr.length ≤ rest.length) ∨
    (endptr = nptr ∧ ¬ ∃ rest, FloatAt nptr rest)

/-! ## The search -/

/-- A point is a fraction only with a digit behind it. -/
def hasFraction (text : Bytes) : Bool :=
  text.head? == some 0x2E && text.tail.head?.any (isDigitOf 10)

def fractionRest (text : Bytes) : Bytes :=
  if hasFraction text then text.tail.dropWhile (isDigitOf 10) else text

def fractionDigits (text : Bytes) : Bytes :=
  if hasFraction text then text.tail.takeWhile (isDigitOf 10) else []

/-- The digits of the integer and of the fraction. -/
def decimalDigits (text : Bytes) : Bytes :=
  text.takeWhile (isDigitOf 10) ++ fractionDigits (text.dropWhile (isDigitOf 10))

def behindOneSign (text : Bytes) : Bytes :=
  if text.head? = some 0x2D ∨ text.head? = some 0x2B then text.tail else text

/-- An `e` is an exponent only with a digit behind it and its sign. -/
def hasExponent (text : Bytes) : Bool :=
  (text.head? == some 0x65 || text.head? == some 0x45) &&
    (behindOneSign text.tail).head?.any (isDigitOf 10)

def exponentRest (text : Bytes) : Bytes :=
  if hasExponent text then (behindOneSign text.tail).dropWhile (isDigitOf 10) else text

def numberRest (text : Bytes) : Bytes :=
  exponentRest (fractionRest (text.dropWhile (isDigitOf 10)))

def startsWith (name text : Bytes) : Bool :=
  (text.take name.length).map toUpper == name

def infinityRest (text : Bytes) : Bytes :=
  if startsWith (ascii "INITY") text then text.drop 5 else text

/-- A character between the brackets. -/
def isInner (c : UInt8) : Bool :=
  c != 0 && c != 0x29

/-- A bracket is closed. -/
def hasInner (text : Bytes) : Bool :=
  text.head? == some 0x28 && (text.tail.dropWhile isInner).head? == some 0x29

def nanRest (text : Bytes) : Bytes :=
  if hasInner text then (text.tail.dropWhile isInner).tail else text

/-- What is behind the longest text of the form, if there is one. -/
def formRest (text : Bytes) : Option Bytes :=
  if text.head?.any (isDigitOf 10) then some (numberRest text)
  else if startsWith (ascii "INF") text then some (infinityRest (text.drop 3))
  else if startsWith (ascii "NAN") text then some (nanRest (text.drop 3))
  else none

def floatRest (nptr : Bytes) : Bytes :=
  (formRest (behindSign nptr)).getD nptr

/-! ## Where digits end -/

section

variable {text digits sign rest : Bytes}

set_option maxRecDepth 8000 in
theorem digit_not_mark (b : UInt8) (h : isDigitOf 10 b = true) :
    b ≠ 0x2E ∧ b ≠ 0x65 ∧ b ≠ 0x45 ∧ toUpper b ≠ 0x49 ∧ toUpper b ≠ 0x4E := by
  revert b
  apply byte_forall
  decide

theorem dropWhile_digits_cons (h : IsDigits 10 digits) {c : UInt8} (hc : isDigitOf 10 c = false) :
    (digits ++ c :: rest).dropWhile (isDigitOf 10) = c :: rest := by
  rw [List.dropWhile_append_of_pos h.2, List.dropWhile_cons_of_neg]
  rw [hc]
  exact Bool.false_ne_true

theorem IsDigits.behindOneSign (h : IsDigits 10 digits) (hsign : Sign sign) (rest : Bytes) :
    SharedUtility.behindOneSign (sign ++ (digits ++ rest)) = digits ++ rest := by
  cases hsign with
  | none =>
    obtain ⟨hne, hall⟩ := h
    cases digits with
    | nil => exact absurd rfl hne
    | cons d digits =>
      have hd := isDigitOf_ten d (hall d (List.mem_cons_self ..))
      refine if_neg ?_
      rintro (hminus | hplus)
      · exact hd.2.2.1 (Option.some.inj hminus)
      · exact hd.2.1 (Option.some.inj hplus)
  | plus => rfl
  | minus => rfl

theorem exists_sign (text : Bytes) : ∃ sign, Sign sign ∧ text = sign ++ behindOneSign text := by
  rw [behindOneSign]
  split_ifs with hsign
  · cases text with
    | nil => exact absurd hsign (by rintro (h | h) <;> cases h)
    | cons c text =>
      rcases hsign with hminus | hplus
      · cases hminus
        exact ⟨_, .minus, rfl⟩
      · cases hplus
        exact ⟨_, .plus, rfl⟩
  · exact ⟨[], .none, rfl⟩

end

/-! ## Fractions and exponents -/

section

variable {text integer fraction exponent rest : Bytes}

theorem hasFraction_iff :
    hasFraction text = true ↔ ∃ rest, text = 0x2E :: rest ∧ rest.head?.any (isDigitOf 10) = true := by
  cases text with
  | nil => exact iff_of_false nofun nofun
  | cons c rest =>
    rw [hasFraction, Bool.and_eq_true, beq_iff_eq, List.head?_cons, Option.some_inj]
    constructor
    · rintro ⟨rfl, hdigit⟩
      exact ⟨rest, rfl, hdigit⟩
    · rintro ⟨_, htext, hdigit⟩
      cases htext
      exact ⟨rfl, hdigit⟩

theorem hasExponent_iff :
    hasExponent text = true ↔ ∃ e rest, text = e :: rest ∧ (e = 0x65 ∨ e = 0x45) ∧
      (behindOneSign rest).head?.any (isDigitOf 10) = true := by
  cases text with
  | nil => exact iff_of_false nofun nofun
  | cons c rest =>
    rw [hasExponent, Bool.and_eq_true, Bool.or_eq_true, beq_iff_eq, beq_iff_eq, List.head?_cons,
      Option.some_inj, Option.some_inj]
    constructor
    · rintro ⟨hc, hdigit⟩
      exact ⟨c, rest, rfl, hc, hdigit⟩
    · rintro ⟨_, _, htext, hc, hdigit⟩
      cases htext
      exact ⟨hc, hdigit⟩

theorem fractionRest_form (text : Bytes) :
    ∃ fraction, Fraction fraction ∧ text = fraction ++ fractionRest text := by
  rw [fractionRest]
  split_ifs with hpoint
  · obtain ⟨rest, rfl, hdigit⟩ := hasFraction_iff.1 hpoint
    refine ⟨_, .digits (takeWhile_isDigits hdigit), ?_⟩
    rw [List.cons_append, List.tail_cons, List.takeWhile_append_dropWhile]
  · exact ⟨[], .none, rfl⟩

theorem exponentRest_form (text : Bytes) :
    ∃ exponent, Exponent exponent ∧ text = exponent ++ exponentRest text := by
  rw [exponentRest]
  split_ifs with hletter
  · obtain ⟨e, rest, rfl, he, hdigit⟩ := hasExponent_iff.1 hletter
    obtain ⟨sign, hsign, hrest⟩ := exists_sign rest
    refine ⟨_, .digits he hsign (takeWhile_isDigits hdigit), ?_⟩
    rw [List.cons_append, List.append_assoc, List.tail_cons, List.takeWhile_append_dropWhile, ← hrest]
  · exact ⟨[], .none, rfl⟩

theorem length_fractionRest_le (text : Bytes) : (fractionRest text).length ≤ text.length := by
  obtain ⟨fraction, -, htext⟩ := fractionRest_form text
  rw [congrArg List.length htext, List.length_append]
  exact Nat.le_add_left _ _

theorem length_exponentRest_le (text : Bytes) : (exponentRest text).length ≤ text.length := by
  obtain ⟨exponent, -, htext⟩ := exponentRest_form text
  rw [congrArg List.length htext, List.length_append]
  exact Nat.le_add_left _ _

theorem exponentRest_longest (h : Exponent exponent) (rest : Bytes) :
    (exponentRest (exponent ++ rest)).length ≤ rest.length := by
  cases h with
  | none => exact length_exponentRest_le rest
  | @digits e sign digits he hsign hdigits =>
    have hbehind := hdigits.behindOneSign hsign rest
    have hletter : hasExponent (e :: (sign ++ (digits ++ rest))) = true :=
      hasExponent_iff.2 ⟨e, _, rfl, he, by rw [hbehind]; exact hdigits.head rest⟩
    rw [List.cons_append, List.append_assoc, exponentRest, if_pos hletter, List.tail_cons, hbehind]
    exact length_dropWhile_le hdigits.2

theorem fraction_exponent_longest (hfraction : Fraction fraction) (hexponent : Exponent exponent)
    (rest : Bytes) :
    (exponentRest (fractionRest (fraction ++ (exponent ++ rest)))).length ≤ rest.length := by
  cases hfraction with
  | none =>
    cases hexponent with
    | none => exact Nat.le_trans (length_exponentRest_le _) (length_fractionRest_le rest)
    | @digits e sign digits he hsign hdigits =>
      have hpoint : ¬ hasFraction (e :: (sign ++ digits) ++ rest) = true := by
        intro h
        obtain ⟨_, heq, -⟩ := hasFraction_iff.1 h
        injection heq with heq
        rcases he with rfl | rfl
        · exact absurd heq (by decide)
        · exact absurd heq (by decide)
      rw [List.nil_append, fractionRest, if_neg hpoint]
      exact exponentRest_longest (.digits he hsign hdigits) rest
  | @digits digits hdigits =>
    have hpoint : hasFraction (0x2E :: digits ++ (exponent ++ rest)) = true :=
      hasFraction_iff.2 ⟨_, rfl, hdigits.head _⟩
    rw [fractionRest, if_pos hpoint, List.cons_append, List.tail_cons]
    cases hexponent with
    | none => exact Nat.le_trans (length_exponentRest_le _) (length_dropWhile_le hdigits.2)
    | @digits e sign digits' he hsign hdigits' =>
      have hletter : isDigitOf 10 e = false := by
        rcases he with rfl | rfl
        · rfl
        · rfl
      rw [List.cons_append, dropWhile_digits_cons hdigits hletter]
      exact exponentRest_longest (.digits he hsign hdigits') rest

theorem numberRest_longest (hinteger : IsDigits 10 integer) (hfraction : Fraction fraction)
    (hexponent : Exponent exponent) (rest : Bytes) :
    (numberRest (integer ++ (fraction ++ (exponent ++ rest)))).length ≤ rest.length := by
  have hlongest := fraction_exponent_longest hfraction hexponent rest
  rw [numberRest]
  cases hfraction with
  | none =>
    cases hexponent with
    | none =>
      exact Nat.le_trans (length_exponentRest_le _)
        (Nat.le_trans (length_fractionRest_le _) (length_dropWhile_le hinteger.2))
    | @digits e sign digits he =>
      have hletter : isDigitOf 10 e = false := by
        rcases he with rfl | rfl
        · rfl
        · rfl
      rw [List.nil_append, List.cons_append, dropWhile_digits_cons hinteger hletter]
      exact hlongest
  | digits =>
    rw [List.cons_append, dropWhile_digits_cons hinteger rfl]
    exact hlongest

theorem numberRest_form (hdigit : text.head?.any (isDigitOf 10) = true) :
    ∃ integer fraction exponent, IsDigits 10 integer ∧ Fraction fraction ∧ Exponent exponent ∧
      text = integer ++ (fraction ++ (exponent ++ numberRest text)) := by
  obtain ⟨fraction, hfraction, hpoint⟩ := fractionRest_form (text.dropWhile (isDigitOf 10))
  obtain ⟨exponent, hexponent, hletter⟩ :=
    exponentRest_form (fractionRest (text.dropWhile (isDigitOf 10)))
  refine ⟨_, _, _, takeWhile_isDigits hdigit, hfraction, hexponent, ?_⟩
  rw [numberRest, ← hletter, ← hpoint, List.takeWhile_append_dropWhile]

end

/-! ## Names -/

section

variable {text name inner rest : Bytes}

theorem startsWith_iff :
    startsWith name text = true ↔ ∃ front rest, IsName name front ∧ text = front ++ rest := by
  rw [startsWith, beq_iff_eq]
  constructor
  · intro h
    exact ⟨_, _, h, (List.take_append_drop name.length text).symm⟩
  · rintro ⟨front, rest, hname, rfl⟩
    have hlength : front.length = name.length := by rw [← hname, List.length_map]
    rw [← hlength, List.take_left]
    exact hname

theorem IsName.split {first second : Bytes} (h : IsName (first ++ second) text) :
    IsName first (text.take first.length) ∧ IsName second (text.drop first.length) := by
  constructor
  · rw [IsName, List.map_take, h, List.take_left]
  · rw [IsName, List.map_drop, h, List.drop_left]

theorem IsName.length_eq (h : IsName name text) : text.length = name.length := by
  rw [← h, List.length_map]

theorem length_infinityRest_le (text : Bytes) : (infinityRest text).length ≤ text.length := by
  rw [infinityRest]
  split_ifs
  · rw [List.length_drop]
    exact Nat.sub_le _ _
  · exact Nat.le_refl _

theorem hasInner_iff :
    hasInner text = true ↔
      ∃ inner rest, (∀ b ∈ inner, b ≠ 0 ∧ b ≠ 0x29) ∧ text = 0x28 :: (inner ++ 0x29 :: rest) := by
  have hmark : ∀ b, isInner b = true ↔ b ≠ 0 ∧ b ≠ 0x29 := by
    intro b
    rw [isInner, Bool.and_eq_true, bne_iff_ne, bne_iff_ne]
  rw [hasInner, Bool.and_eq_true, beq_iff_eq, beq_iff_eq]
  constructor
  · rintro ⟨hopen, hclose⟩
    cases text with
    | nil => cases hopen
    | cons c text =>
      cases hopen
      refine ⟨text.takeWhile isInner, (text.dropWhile isInner).tail,
        fun b hb => (hmark b).1 (List.mem_takeWhile_imp hb), ?_⟩
      rw [List.tail_cons] at hclose
      have htail := List.cons_head?_tail hclose
      rw [htail, List.takeWhile_append_dropWhile]
  · rintro ⟨inner, rest, hinner, rfl⟩
    refine ⟨rfl, ?_⟩
    rw [List.tail_cons, List.dropWhile_append_of_pos fun b hb => (hmark b).2 (hinner b hb)]
    rfl

theorem nanRest_closed (hinner : ∀ b ∈ inner, b ≠ 0 ∧ b ≠ 0x29) (rest : Bytes) :
    nanRest (0x28 :: (inner ++ 0x29 :: rest)) = rest := by
  rw [nanRest, if_pos (hasInner_iff.2 ⟨inner, rest, hinner, rfl⟩), List.tail_cons,
    List.dropWhile_append_of_pos]
  · rfl
  · intro b hb
    rw [isInner, Bool.and_eq_true, bne_iff_ne, bne_iff_ne]
    exact hinner b hb

theorem length_nanRest_le (text : Bytes) : (nanRest text).length ≤ text.length := by
  by_cases hclosed : hasInner text = true
  · obtain ⟨inner, rest, hinner, rfl⟩ := hasInner_iff.1 hclosed
    rw [nanRest_closed hinner, List.length_cons, List.length_append, List.length_cons]
    omega
  · rw [nanRest, if_neg hclosed]

end

/-! ## The longest text -/

section

variable {nptr endptr text body rest : Bytes}

theorem IsName.head_not_digit {c : UInt8} {name : Bytes} (h : IsName (c :: name) text)
    (hc : c = 0x49 ∨ c = 0x4E) (rest : Bytes) : (text ++ rest).head?.any (isDigitOf 10) = false := by
  cases text with
  | nil => cases h
  | cons b text =>
    injection h with hb
    rw [List.cons_append, List.head?_cons, Option.any_some, ← Bool.not_eq_true]
    intro hdigit
    have hmark := digit_not_mark b hdigit
    rcases hc with rfl | rfl
    · exact hmark.2.2.2.1 hb
    · exact hmark.2.2.2.2 hb

theorem not_startsWith_of_head {c d : UInt8} {name other : Bytes} (h : IsName (c :: name) text) (hne : c ≠ d)
    (rest : Bytes) : ¬ startsWith (d :: other) (text ++ rest) = true := by
  intro hstart
  obtain ⟨front, back, hfront, heq⟩ := startsWith_iff.1 hstart
  cases text with
  | nil => cases h
  | cons b text =>
    cases front with
    | nil => cases hfront
    | cons b' front =>
      injection h with hb
      injection hfront with hb'
      injection heq with hsame
      rw [hsame] at hb
      exact hne (hb.symm.trans hb')

theorem formRest_form (h : formRest text = some rest) : ∃ body, FloatForm body ∧ text = body ++ rest := by
  rw [formRest] at h
  split_ifs at h with hdigit hinfinity hnan
  · cases h
    obtain ⟨integer, fraction, exponent, hinteger, hfraction, hexponent, htext⟩ := numberRest_form hdigit
    refine ⟨_, .number hinteger hfraction hexponent, ?_⟩
    rw [List.append_assoc, List.append_assoc]
    exact htext
  · cases h
    obtain ⟨front, back, hfront, rfl⟩ := startsWith_iff.1 hinfinity
    have hdrop : (front ++ back).drop 3 = back := List.drop_left' hfront.length_eq
    rw [hdrop, infinityRest]
    split_ifs with hlong
    · obtain ⟨more, tail, hmore, rfl⟩ := startsWith_iff.1 hlong
      have htail : (more ++ tail).drop 5 = tail := List.drop_left' hmore.length_eq
      refine ⟨front ++ more, .infinity (.inr ?_), ?_⟩
      · rw [IsName, List.map_append, hfront, hmore]
        rfl
      · rw [htail, List.append_assoc]
    · exact ⟨front, .infinity (.inl hfront), rfl⟩
  · cases h
    obtain ⟨front, back, hfront, rfl⟩ := startsWith_iff.1 hnan
    have hdrop : (front ++ back).drop 3 = back := List.drop_left' hfront.length_eq
    rw [hdrop]
    by_cases hclosed : hasInner back = true
    · obtain ⟨inner, tail, hinner, rfl⟩ := hasInner_iff.1 hclosed
      refine ⟨_, .nanOf hfront hinner, ?_⟩
      rw [nanRest_closed hinner, List.append_assoc, List.cons_append, List.append_assoc]
      rfl
    · refine ⟨front, .nan hfront, ?_⟩
      rw [nanRest, if_neg hclosed]

theorem formRest_longest (h : FloatForm body) (rest : Bytes) :
    ∃ found, formRest (body ++ rest) = some found ∧ found.length ≤ rest.length := by
  have hinfinity : ∀ {text back : Bytes}, IsName (ascii "INF") text →
      formRest (text ++ back) = some (infinityRest back) := by
    intro text back hname
    have hdrop : (text ++ back).drop 3 = back := List.drop_left' hname.length_eq
    rw [formRest, hname.head_not_digit (.inl rfl), if_neg Bool.false_ne_true,
      if_pos (startsWith_iff.2 ⟨_, _, hname, rfl⟩), hdrop]
  have hnan : ∀ {text back : Bytes}, IsName (ascii "NAN") text →
      formRest (text ++ back) = some (nanRest back) := by
    intro text back hname
    have hdrop : (text ++ back).drop 3 = back := List.drop_left' hname.length_eq
    have hother : ¬ startsWith (ascii "INF") (text ++ back) = true :=
      not_startsWith_of_head hname (by decide : (0x4E : UInt8) ≠ 0x49) back
    rw [formRest, hname.head_not_digit (.inr rfl), if_neg Bool.false_ne_true, if_neg hother,
      if_pos (startsWith_iff.2 ⟨_, _, hname, rfl⟩), hdrop]
  cases h with
  | @number integer fraction exponent hinteger hfraction hexponent =>
    rw [List.append_assoc, List.append_assoc, formRest, if_pos (hinteger.head _)]
    exact ⟨_, rfl, numberRest_longest hinteger hfraction hexponent rest⟩
  | infinity hname =>
    rcases hname with hshort | hlong
    · exact ⟨_, hinfinity hshort, length_infinityRest_le rest⟩
    · -- the name of eight letters is the one of three, and five more
      obtain ⟨hfirst, hsecond⟩ := @IsName.split body (ascii "INF") (ascii "INITY") hlong
      have hrest := @hinfinity _ (body.drop 3 ++ rest) hfirst
      rw [← List.append_assoc, show (ascii "INF").length = 3 from rfl, List.take_append_drop] at hrest
      have hmore : startsWith (ascii "INITY") (body.drop 3 ++ rest) = true :=
        startsWith_iff.2 ⟨_, _, hsecond, rfl⟩
      have hdrop : (body.drop 3 ++ rest).drop 5 = rest := List.drop_left' hsecond.length_eq
      refine ⟨_, hrest, ?_⟩
      rw [infinityRest, if_pos hmore, hdrop]
  | nan hname => exact ⟨_, hnan hname, length_nanRest_le rest⟩
  | @nanOf text inner hname hinner =>
    refine ⟨_, ?_, Nat.le_refl _⟩
    rw [List.append_assoc, hnan hname, List.cons_append, List.append_assoc]
    exact congrArg some (nanRest_closed hinner rest)

set_option maxRecDepth 8000 in
theorem letter_not_blank (b : UInt8) (h : toUpper b = 0x49 ∨ toUpper b = 0x4E) :
    isSpace b = false ∧ b ≠ 0x2B ∧ b ≠ 0x2D := by
  revert b
  apply byte_forall
  decide

theorem FloatForm.head (h : FloatForm body) :
    ∃ c more, body = c :: more ∧ isSpace c = false ∧ c ≠ 0x2B ∧ c ≠ 0x2D := by
  have hletter : ∀ {c : UInt8} {name text : Bytes}, IsName (c :: name) text → c = 0x49 ∨ c = 0x4E →
      ∃ b more, text = b :: more ∧ isSpace b = false ∧ b ≠ 0x2B ∧ b ≠ 0x2D := by
    intro c name text hname hc
    cases text with
    | nil => cases hname
    | cons b more =>
      injection hname with hb
      exact ⟨b, more, rfl, letter_not_blank b (hb ▸ hc)⟩
  cases h with
  | @number integer fraction exponent hinteger =>
    obtain ⟨hne, hall⟩ := hinteger
    cases integer with
    | nil => exact absurd rfl hne
    | cons d integer =>
      have hd := isDigitOf_ten d (hall d (List.mem_cons_self ..))
      exact ⟨d, _, rfl, hd.1, hd.2.1, hd.2.2.1⟩
  | infinity hname =>
    rcases hname with hshort | hlong
    · exact hletter hshort (.inl rfl)
    · exact hletter hlong (.inl rfl)
  | nan hname => exact hletter hname (.inr rfl)
  | nanOf hname =>
    obtain ⟨c, more, rfl, hc⟩ := hletter hname (.inr rfl)
    exact ⟨c, _, rfl, hc⟩

theorem floatAt_iff : FloatAt nptr rest ↔ ∃ body, FloatForm body ∧ behindSign nptr = body ++ rest := by
  constructor
  · rintro ⟨blanks, sign, body, hblanks, hsign, hbody, rfl⟩
    refine ⟨body, hbody, ?_⟩
    obtain ⟨c, more, rfl, hspace, hplus, hminus⟩ := hbody.head
    have hdrop : (blanks ++ (sign ++ (c :: more ++ rest))).dropWhile isSpace = sign ++ (c :: more ++ rest) := by
      rw [List.dropWhile_append_of_pos hblanks]
      cases hsign with
      | none => exact List.dropWhile_cons_of_neg (by rw [hspace]; exact Bool.false_ne_true)
      | plus => rfl
      | minus => rfl
    rw [behindSign, hdrop]
    cases hsign with
    | none =>
      refine if_neg ?_
      rintro (h | h)
      · exact hminus (Option.some.inj h)
      · exact hplus (Option.some.inj h)
    | plus => rfl
    | minus => rfl
  · rintro ⟨body, hbody, htext⟩
    obtain ⟨sign, hsign, hrest⟩ := exists_sign (nptr.dropWhile isSpace)
    refine ⟨nptr.takeWhile isSpace, sign, body, fun b hb => List.mem_takeWhile_imp hb, hsign, hbody, ?_⟩
    rw [← htext, show behindSign nptr = behindOneSign (nptr.dropWhile isSpace) from rfl, ← hrest,
      List.takeWhile_append_dropWhile]

theorem extent_iff : Extent nptr endptr ↔ endptr = floatRest nptr := by
  have hlongest : ∀ rest, FloatAt nptr rest →
      ∃ found, formRest (behindSign nptr) = some found ∧ found.length ≤ rest.length := by
    intro rest h
    obtain ⟨body, hbody, htext⟩ := floatAt_iff.1 h
    rw [htext]
    exact formRest_longest hbody rest
  rw [floatRest]
  cases hfound : formRest (behindSign nptr) with
  | none =>
    have hnone : ¬ ∃ rest, FloatAt nptr rest := by
      rintro ⟨rest, h⟩
      obtain ⟨found, hsome, -⟩ := hlongest rest h
      cases hfound.symm.trans hsome
    constructor
    · rintro (⟨h, -⟩ | ⟨h, -⟩)
      · exact absurd ⟨endptr, h⟩ hnone
      · exact h
    · intro h
      exact .inr ⟨h, hnone⟩
  | some found =>
    obtain ⟨body, hbody, htext⟩ := formRest_form hfound
    have hat : FloatAt nptr found := floatAt_iff.2 ⟨body, hbody, htext⟩
    have hall : ∀ rest, FloatAt nptr rest → found.length ≤ rest.length := by
      intro rest h
      obtain ⟨found', hsome, hle⟩ := hlongest rest h
      cases hfound.symm.trans hsome
      exact hle
    constructor
    · rintro (⟨h, hmin⟩ | ⟨-, h⟩)
      · -- both are ends of the same text, and of one length
        obtain ⟨body', -, htext'⟩ := floatAt_iff.1 h
        have hlength := Nat.le_antisymm (hmin found hat) (hall endptr h)
        exact (List.append_inj' (htext'.symm.trans htext) hlength).2
      · exact absurd ⟨found, hat⟩ h
    · rintro rfl
      exact .inl ⟨hat, hall⟩

end

end SharedUtility
