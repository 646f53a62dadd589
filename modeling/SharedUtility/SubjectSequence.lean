import SharedUtility.Numerals

/-!
# SubjectSequence — the numerals of C in any base

* `Form`, `Reads` — a text starts with a numeral of the expected form: digits of the base, with a prefix `0x`
  where the base is 16 or not given; where it is not given, also octal digits from a `0` on, or decimal digits,
* `Subject` — the longest one, which is what a conversion takes,
* `sequenceOf` — how it is found,
* `sequenceOf_some_iff`, `sequenceOf_none_iff`.

The base 0 stands for one that is not given.
-/

namespace SharedUtility

/-- Some digits. -/
def IsDigits (radix : Nat) (digits : Bytes) : Prop :=
  digits ≠ [] ∧ ∀ b ∈ digits, isDigitOf radix b = true

/-- What stands in front of the digits of a numeral, and their radix. -/
inductive Form (base : Nat) : (start : Bytes) → (radix : Nat) → (digits : Bytes) → Prop
  | given {digits : Bytes} : 2 ≤ base → Form base [] base digits
  | hexadecimal {x : UInt8} {digits : Bytes} :
      base = 0 ∨ base = 16 → x = 0x78 ∨ x = 0x58 → Form base [0x30, x] 16 digits
  | octal {digits : Bytes} : base = 0 → digits.head? = some 0x30 → Form base [] 8 digits
  | decimal {digits : Bytes} : base = 0 → digits.head? ≠ some 0x30 → Form base [] 10 digits

/-- The text is a numeral, whose digits are of this radix, and a rest. -/
structure Reads (base : Nat) (text : Bytes) (radix : Nat) (digits rest : Bytes) : Prop where
  isDigits : IsDigits radix digits
  form : ∃ start, Form base start radix digits ∧ text = start ++ (digits ++ rest)

/-- No other numeral at the start of the text is longer. -/
def Subject (base : Nat) (text : Bytes) (radix : Nat) (digits rest : Bytes) : Prop :=
  Reads base text radix digits rest ∧
    ∀ radix' digits' rest', Reads base text radix' digits' rest' → rest.length ≤ rest'.length

/-- A prefix `0x`. -/
def hasHexPrefix (text : Bytes) : Bool :=
  text.head? == some 0x30 && ((text.drop 1).head? == some 0x78 || (text.drop 1).head? == some 0x58)

def radixOf (base : Nat) (text : Bytes) : Nat :=
  if base = 0 then (if text.head? = some 0x30 then 8 else 10) else base

/-- The radix, the digits and the rest. -/
def sequenceOf (base : Nat) (text : Bytes) : Option (Nat × Bytes × Bytes) :=
  if (base = 0 ∨ base = 16) ∧ hasHexPrefix text = true ∧ (text.drop 2).head?.any (isDigitOf 16) = true then
    some (16, (text.drop 2).takeWhile (isDigitOf 16), (text.drop 2).dropWhile (isDigitOf 16))
  else if text.head?.any (isDigitOf (radixOf base text)) = true then
    some (radixOf base text, text.takeWhile (isDigitOf (radixOf base text)),
      text.dropWhile (isDigitOf (radixOf base text)))
  else none

/-! ## Prefixes of digits -/

section

variable {base radix : Nat} {text digits rest : Bytes}

theorem hasHexPrefix_iff :
    hasHexPrefix text = true ↔ ∃ x rest, (x = 0x78 ∨ x = 0x58) ∧ text = 0x30 :: x :: rest := by
  constructor
  · intro h
    rw [hasHexPrefix, Bool.and_eq_true, Bool.or_eq_true, beq_iff_eq, beq_iff_eq, beq_iff_eq] at h
    match text, h with
    | [], h => cases h.1
    | [_], h => exact absurd h.2 (by rintro (h | h) <;> cases h)
    | c :: x :: rest, h =>
      obtain ⟨hc, hx⟩ := h
      cases hc
      refine ⟨x, rest, hx.imp (fun h => ?_) (fun h => ?_), rfl⟩
      · exact Option.some.inj h
      · exact Option.some.inj h
  · rintro ⟨x, rest, rfl | rfl, rfl⟩
    · rfl
    · rfl

theorem takeWhile_isDigits (h : text.head?.any (isDigitOf radix) = true) :
    IsDigits radix (text.takeWhile (isDigitOf radix)) := by
  refine ⟨fun hnil => ?_, fun b hb => List.mem_takeWhile_imp hb⟩
  rw [head_not_digit, h] at hnil
  cases hnil

theorem IsDigits.head (h : IsDigits radix digits) (rest : Bytes) :
    (digits ++ rest).head?.any (isDigitOf radix) = true := by
  obtain ⟨hne, hall⟩ := h
  cases digits with
  | nil => exact absurd rfl hne
  | cons d digits => exact hall d (List.mem_cons_self ..)

theorem length_dropWhile_le {p : UInt8 → Bool} (h : ∀ b ∈ digits, p b = true) :
    ((digits ++ rest).dropWhile p).length ≤ rest.length := by
  rw [List.dropWhile_append_of_pos h]
  exact (List.dropWhile_suffix p).length_le

set_option maxRecDepth 8000 in
/-- An `x` is no digit up to base 16. -/
theorem x_not_digit (b : UInt8) (h : b = 0x78 ∨ b = 0x58) :
    isDigitOf 8 b = false ∧ isDigitOf 10 b = false ∧ isDigitOf 16 b = false := by
  revert b
  apply byte_forall
  decide

theorem isDigitOf_mono {b : UInt8} (hradix : base ≤ radix) (h : isDigitOf base b = true) :
    isDigitOf radix b = true := by
  rw [isDigitOf] at h ⊢
  cases hvalue : digitValue b with
  | none =>
    rw [hvalue] at h
    cases h
  | some d =>
    rw [hvalue, Option.any_some, decide_eq_true_eq] at h
    exact decide_eq_true (Nat.lt_of_lt_of_le h hradix)

theorem isDigitOf_zero (hradix : 2 ≤ radix) : isDigitOf radix 0x30 = true :=
  decide_eq_true (Nat.lt_of_lt_of_le Nat.zero_lt_two hradix)

theorem length_le_dropWhile {p : UInt8 → Bool} {x : UInt8} (hx : p x = false) (c : UInt8) (rest : Bytes) :
    rest.length ≤ ((c :: x :: rest).dropWhile p).length := by
  rw [List.dropWhile_cons]
  split_ifs
  · rw [List.dropWhile_cons_of_neg (by rw [hx]; exact Bool.false_ne_true)]
    exact Nat.le_succ _
  · exact Nat.le_add_right _ 2

end

/-! ## The longest numeral -/

section

variable {base radix radix' : Nat} {text digits digits' rest rest' : Bytes}

theorem sequenceOf_reads (hbase : base = 0 ∨ 2 ≤ base) (h : sequenceOf base text = some (radix, digits, rest)) :
    Reads base text radix digits rest := by
  rw [sequenceOf] at h
  split_ifs at h with hhex hplain
  · obtain ⟨hsixteen, hstart, hdigit⟩ := hhex
    obtain ⟨x, tail, hx, rfl⟩ := hasHexPrefix_iff.1 hstart
    cases h
    refine ⟨takeWhile_isDigits hdigit, [0x30, x], .hexadecimal hsixteen hx, ?_⟩
    rw [List.takeWhile_append_dropWhile]
    rfl
  · cases h
    refine ⟨takeWhile_isDigits hplain, [], ?_, ?_⟩
    · unfold radixOf at hplain ⊢
      split_ifs at hplain ⊢ with hzero hoctal
      · refine .octal hzero ?_
        cases text with
        | nil => cases hoctal
        | cons c tail =>
          cases hoctal
          rfl
      · refine .decimal hzero ?_
        cases text with
        | nil => exact nofun
        | cons c tail =>
          rw [List.takeWhile_cons, if_pos (show isDigitOf 10 c = true from hplain)]
          exact hoctal
      · exact .given (hbase.resolve_left hzero)
    · rw [List.takeWhile_append_dropWhile, List.nil_append]

theorem sequenceOf_of_reads (h : Reads base text radix' digits' rest') :
    ∃ radix digits rest, sequenceOf base text = some (radix, digits, rest) ∧ rest.length ≤ rest'.length := by
  obtain ⟨hdigits, start, hform, rfl⟩ := h
  generalize htext : start ++ (digits' ++ rest') = text
  by_cases hhex : (base = 0 ∨ base = 16) ∧ hasHexPrefix text = true ∧
      (text.drop 2).head?.any (isDigitOf 16) = true
  case pos =>
    refine ⟨_, _, _, if_pos hhex, ?_⟩
    obtain ⟨x, tail, hx, rfl⟩ := hasHexPrefix_iff.1 hhex.2.1
    have htail : ((0x30 :: x :: tail).drop 2).dropWhile (isDigitOf 16) = tail.dropWhile (isDigitOf 16) := rfl
    have hle : (tail.dropWhile (isDigitOf 16)).length ≤ tail.length := (List.dropWhile_suffix _).length_le
    obtain ⟨hx8, hx10, hx16⟩ := x_not_digit x hx
    -- without the prefix no more than the zero is a numeral
    have hother : ∀ r, isDigitOf r x = false → digits' ++ rest' = 0x30 :: x :: tail →
        (∀ b ∈ digits', isDigitOf r b = true) → tail.length ≤ rest'.length := by
      intro r hr heq hall
      exact Nat.le_trans (length_le_dropWhile hr 0x30 tail) (heq ▸ length_dropWhile_le hall)
    rw [htail]
    cases hform with
    | given hbase =>
      have hsixteen : base = 16 := by omega
      subst hsixteen
      exact Nat.le_trans hle (hother 16 hx16 htext hdigits.2)
    | hexadecimal =>
      injection htext with _ htext
      injection htext with _ htext
      rw [← htext]
      exact length_dropWhile_le hdigits.2
    | octal => exact Nat.le_trans hle (hother 8 hx8 htext hdigits.2)
    | decimal => exact Nat.le_trans hle (hother 10 hx10 htext hdigits.2)
  case neg =>
    have hplain : ∀ r, radixOf base text = r → start = [] → IsDigits r digits' →
        ∃ radix digits rest, sequenceOf base text = some (radix, digits, rest) ∧ rest.length ≤ rest'.length := by
      rintro r rfl rfl hall
      rw [List.nil_append] at htext
      have hhead := hall.head rest'
      rw [htext] at hhead
      refine ⟨_, _, _, (if_neg hhex).trans (if_pos hhead), ?_⟩
      have hle := @length_dropWhile_le digits' rest' _ hall.2
      rwa [htext] at hle
    have hhead : ∀ c, digits'.head? = c → (digits' ++ rest').head? = c := by
      rintro c rfl
      cases hcase : digits' with
      | nil => exact absurd hcase hdigits.1
      | cons d digits'' => rfl
    cases hform with
    | given hbase => exact hplain base (if_neg (by omega)) rfl hdigits
    | hexadecimal hsixteen hx =>
      refine absurd ⟨hsixteen, ?_, ?_⟩ hhex
      · exact hasHexPrefix_iff.2 ⟨_, _, hx, htext.symm⟩
      · rw [← htext]
        exact hdigits.head rest'
    | octal hzero hoctal =>
      refine hplain 8 ?_ rfl hdigits
      rw [radixOf, if_pos hzero, ← htext, List.nil_append, if_pos (hhead _ hoctal)]
    | decimal hzero hdecimal =>
      refine hplain 10 ?_ rfl hdigits
      rw [radixOf, if_pos hzero, ← htext, List.nil_append, hhead _ rfl, if_neg hdecimal]

theorem Reads.unique (h : Reads base text radix digits rest) (h' : Reads base text radix' digits' rest')
    (hlength : rest.length = rest'.length) : radix = radix' ∧ digits = digits' ∧ rest = rest' := by
  obtain ⟨hdigits, start, hform, htext⟩ := h
  obtain ⟨hdigits', start', hform', htext'⟩ := h'
  rw [htext, ← List.append_assoc, ← List.append_assoc] at htext'
  obtain ⟨hfront, rfl⟩ := List.append_inj' htext' hlength
  -- digits do not start with a prefix
  have hstart : ∀ {x : UInt8} {r : Nat} {ds ds' : Bytes}, x = 0x78 ∨ x = 0x58 → r ≤ 16 → IsDigits r ds →
      [] ++ ds ≠ [0x30, x] ++ ds' := by
    rintro x r ds ds' hx hr hds rfl
    have hdigit := hds.2 x (List.mem_append_left _ (List.mem_cons_of_mem _ (List.mem_singleton_self x)))
    have hsixteen := isDigitOf_mono hr hdigit
    rw [(x_not_digit x hx).2.2] at hsixteen
    cases hsixteen
  cases hform with
  | given hbase =>
    cases hform' with
    | given => exact ⟨rfl, hfront, rfl⟩
    | hexadecimal hsixteen hx => exact absurd hfront (hstart hx (by omega) hdigits)
    | octal hzero => omega
    | decimal hzero => omega
  | hexadecimal hsixteen hx =>
    cases hform' with
    | given hbase => exact absurd hfront.symm (hstart hx (by omega) hdigits')
    | hexadecimal =>
      injection hfront with _ hfront
      injection hfront with _ hfront
      exact ⟨rfl, hfront, rfl⟩
    | octal => exact absurd hfront.symm (hstart hx (by omega) hdigits')
    | decimal => exact absurd hfront.symm (hstart hx (by omega) hdigits')
  | octal hzero hoctal =>
    cases hform' with
    | given hbase => omega
    | hexadecimal hsixteen hx => exact absurd hfront (hstart hx (by omega) hdigits)
    | octal => exact ⟨rfl, hfront, rfl⟩
    | decimal _ hdecimal =>
      rw [List.nil_append, List.nil_append] at hfront
      exact absurd (hfront ▸ hoctal) hdecimal
  | decimal hzero hdecimal =>
    cases hform' with
    | given hbase => omega
    | hexadecimal hsixteen hx => exact absurd hfront (hstart hx (by omega) hdigits)
    | octal _ hoctal =>
      rw [List.nil_append, List.nil_append] at hfront
      exact absurd (hfront ▸ hoctal) hdecimal
    | decimal => exact ⟨rfl, hfront, rfl⟩

theorem Reads.length_lt (h : Reads base text radix digits rest) : rest.length < text.length := by
  obtain ⟨hdigits, start, hform, rfl⟩ := h
  have hpos := List.length_pos_of_ne_nil hdigits.1
  rw [List.length_append, List.length_append]
  omega

theorem sequenceOf_some_iff (hbase : base = 0 ∨ 2 ≤ base) :
    sequenceOf base text = some (radix, digits, rest) ↔ Subject base text radix digits rest := by
  constructor
  · intro h
    refine ⟨sequenceOf_reads hbase h, fun radix' digits' rest' hreads => ?_⟩
    obtain ⟨_, _, _, hfound, hle⟩ := sequenceOf_of_reads hreads
    cases h.symm.trans hfound
    exact hle
  · rintro ⟨hreads, hlongest⟩
    obtain ⟨radix', digits', rest', hfound, hle⟩ := sequenceOf_of_reads hreads
    have hother := sequenceOf_reads hbase hfound
    obtain ⟨rfl, rfl, rfl⟩ := hreads.unique hother (Nat.le_antisymm (hlongest _ _ _ hother) hle)
    exact hfound

theorem sequenceOf_none_iff (hbase : base = 0 ∨ 2 ≤ base) :
    sequenceOf base text = none ↔ ¬ ∃ radix digits rest, Reads base text radix digits rest := by
  constructor
  · rintro h ⟨radix, digits, rest, hreads⟩
    obtain ⟨_, _, _, hfound, -⟩ := sequenceOf_of_reads hreads
    cases h.symm.trans hfound
  · intro h
    cases hfound : sequenceOf base text with
    | none => rfl
    | some r => exact absurd ⟨_, _, _, sequenceOf_reads hbase hfound⟩ h

end

end SharedUtility
