import SharedUtility.SasToken.Authenticity

/-!
# FieldOrder — the three fields of a token in any order

The value of a field stops where the next field begins: at the character before the last one, since the
ampersand is counted and the stop is exclusive.  Only the last value is taken whole.  A token of the three
fields is accepted in the order in which no value loses a character that it needs:
`validatesExpiry_iff`.
-/

namespace SharedUtility.SasToken

/-! ## Tokens -/

/-- The three names in some order. -/
structure FieldOrder where
  first : FieldName
  second : FieldName
  third : FieldName
  second_ne_first : second ≠ first
  third_ne_first : third ≠ first
  third_ne_second : third ≠ second

/-- A value for each name: not empty, without an equals sign or an ampersand, and for `se` a decimal
number. -/
structure FieldValues where
  value : FieldName → Bytes
  nonempty : ∀ name, value name ≠ []
  no_equals : ∀ name, 0x3D ∉ value name
  no_ampersand : ∀ name, 0x26 ∉ value name
  decimal : isDecimal (value .se) = true

/-- The time at which the token expires. -/
def FieldValues.expiry (values : FieldValues) : Nat :=
  decimalValue (values.value .se)

namespace FieldOrder

variable (order : FieldOrder) (values : FieldValues)

/-- The fields in this order, joined by ampersands behind the scheme. -/
def token : Bytes :=
  ascii "SharedAccessSignature " ++
    (order.first.text ++ (values.value order.first ++
      0x26 :: (order.second.text ++ (values.value order.second ++
        0x26 :: (order.third.text ++ values.value order.third)))))

def secondAt : Nat :=
  22 + order.first.text.length + (values.value order.first).length + 1

def thirdAt : Nat :=
  order.secondAt values + order.second.text.length + (values.value order.second).length + 1

/-- Where the value of the last field starts. -/
def lastValueAt : Nat :=
  order.thirdAt values + order.third.text.length

end FieldOrder

/-! ## The names in a text -/

theorem nameAt_eq_none {rest : Bytes} (h : startsName rest = false) : nameAt rest = none := by
  have hnone := startsName_eq_false.1 h
  simp only [nameAt, List.isPrefixOf_iff_prefix]
  rw [if_neg (hnone _ (by decide)), if_neg (hnone _ (by decide)), if_neg (hnone _ (by decide))]

theorem nameAt_text (name : FieldName) (rest : Bytes) : nameAt (name.text ++ rest) = some name := by
  cases name with
  | se => rfl
  | sr => rfl
  | sig => rfl

theorem scannedLength_le (token : Bytes) : scannedLength token ≤ token.length := by
  unfold scannedLength intOfLength
  rw [Int.bmod_def]
  omega

/-- The field names that start in a text. -/
def occurrencesIn (i : Nat) (prev : UInt8) (text : Bytes) : List Occurrence :=
  occurrencesFrom text.length i prev text

/-- The names that start at its first `n` characters. -/
theorem occurrencesFrom_eq_filter {n i : Nat} {prev : UInt8} {text : Bytes} (h : n ≤ text.length) :
    occurrencesFrom n i prev text = (occurrencesIn i prev text).filter (·.position < i + n) := by
  induction n generalizing i prev text with
  | zero =>
    rw [occurrencesFrom, Eq.comm, List.filter_eq_nil_iff]
    intro o ho
    have hle := le_position_of_mem ho
    rw [decide_eq_true_eq]
    omega
  | succ n ih =>
    cases text with
    | nil => cases h
    | cons c rest =>
      have hlater := @ih (i + 1) c rest (Nat.le_of_succ_le_succ h)
      have hbound : i + 1 + n = i + (n + 1) := by omega
      rw [hbound] at hlater
      rw [occurrencesIn, List.length_cons, occurrencesFrom, occurrencesFrom]
      cases nameAt (c :: rest) with
      | none => exact hlater
      | some name =>
        dsimp only
        have hhere : i < i + (n + 1) := by omega
        rw [List.filter_cons, if_pos (decide_eq_true hhere)]
        congr 1

theorem occurrencesIn_cons {i : Nat} {prev c : UInt8} {rest : Bytes} (h : nameAt (c :: rest) = none) :
    occurrencesIn i prev (c :: rest) = occurrencesIn (i + 1) c rest := by
  rw [occurrencesIn, List.length_cons, occurrencesFrom, h]
  rfl

theorem occurrencesIn_skip {i : Nat} {prev : UInt8} {text rest : Bytes}
    (h : ∀ s, s <:+ text → s ≠ [] → startsName (s ++ rest) = false) :
    occurrencesIn i prev (text ++ rest) =
      occurrencesIn (i + text.length) (text.getLastD prev) rest := by
  induction text generalizing i prev with
  | nil => rfl
  | cons b text ih =>
    have hhere : startsName (b :: (text ++ rest)) = false :=
      h (b :: text) (List.suffix_refl _) (List.cons_ne_nil _ _)
    have hlater := @ih (i + 1) b fun s hs hne => h s (hs.trans (List.suffix_cons b text)) hne
    rw [List.cons_append, occurrencesIn_cons (nameAt_eq_none hhere), hlater, List.length_cons]
    congr 1
    · omega
    · cases text with
      | nil => rfl
      | cons b' text => rfl

/-- Only the first character of a name is an `s`, and the last one is the equals sign. -/
theorem FieldName.text_eq (name : FieldName) :
    ∃ tail, name.text = 0x73 :: tail ∧ 0x73 ∉ tail ∧ tail.getLastD 0x73 = 0x3D := by
  cases name with
  | se => exact ⟨_, rfl, by decide, by decide⟩
  | sr => exact ⟨_, rfl, by decide, by decide⟩
  | sig => exact ⟨_, rfl, by decide, by decide⟩

theorem occurrencesIn_name {i : Nat} {prev : UInt8} (name : FieldName) (rest : Bytes) :
    occurrencesIn i prev (name.text ++ rest) =
      ⟨name, i, prev⟩ :: occurrencesIn (i + name.text.length) 0x3D rest := by
  have hname := nameAt_text name rest
  rcases name.text_eq with ⟨tail, htext, hs, hlast⟩
  rw [htext, List.cons_append] at hname
  have hskip : occurrencesIn (i + 1) 0x73 (tail ++ rest) =
      occurrencesIn (i + 1 + tail.length) (tail.getLastD 0x73) rest := by
    apply occurrencesIn_skip
    intro s hsuffix hne
    cases s with
    | nil => exact absurd rfl hne
    | cons c s =>
      apply startsName_cons_of_ne
      rintro rfl
      exact hs (hsuffix.mem (List.mem_cons_self ..))
  rw [htext, List.cons_append, occurrencesIn, List.length_cons, occurrencesFrom, hname]
  change _ :: occurrencesIn (i + 1) 0x73 (tail ++ rest) = _
  rw [hskip, hlast, List.length_cons, Nat.add_assoc, Nat.add_comm 1]

theorem occurrencesIn_separator {i : Nat} {prev c : UInt8} {text : Bytes} (rest : Bytes)
    (htext : 0x3D ∉ text) (hc : c = 0x26 ∨ c = 0x20) :
    occurrencesIn i prev (text ++ c :: rest) = occurrencesIn (i + text.length + 1) c rest := by
  have hs : c ≠ 0x73 := by
    rcases hc with rfl | rfl
    · decide
    · decide
  rw [occurrencesIn_skip fun s hs _ => startsName_of_separator (fun hmem => htext (hs.subset hmem)) hc,
    occurrencesIn_cons (nameAt_eq_none (startsName_cons_of_ne hs))]

theorem occurrencesIn_end {i : Nat} {prev : UInt8} {text : Bytes} (htext : 0x3D ∉ text) :
    occurrencesIn i prev text = [] := by
  have hskip : occurrencesIn i prev (text ++ []) = occurrencesIn (i + text.length) _ [] :=
    occurrencesIn_skip fun s hs _ => by
      rw [List.append_nil]
      exact startsName_of_no_equals fun hmem => htext (hs.subset hmem)
  rw [List.append_nil] at hskip
  exact hskip

/-! ## The layout of a token of three fields -/

namespace FieldOrder

variable (order : FieldOrder) (values : FieldValues)

theorem occurrencesIn_token :
    occurrencesIn 0 0 (order.token values) =
      [⟨order.first, 22, 0x20⟩, ⟨order.second, order.secondAt values, 0x26⟩,
        ⟨order.third, order.thirdAt values, 0x26⟩] := by
  have hscheme : ascii "SharedAccessSignature " = ascii "SharedAccessSignature" ++ [0x20] := rfl
  have hlength : (ascii "SharedAccessSignature").length = 21 := rfl
  rw [token, hscheme, List.append_assoc, List.singleton_append,
    occurrencesIn_separator _ (by decide) (.inr rfl), occurrencesIn_name,
    occurrencesIn_separator _ (values.no_equals _) (.inl rfl), occurrencesIn_name,
    occurrencesIn_separator _ (values.no_equals _) (.inl rfl), occurrencesIn_name,
    occurrencesIn_end (values.no_equals _), hlength]
  rfl

/-- The layout, where the loop looks at all of the token. -/
def layout : Layout where
  first := ⟨order.first, 22, 0x20⟩
  behindFirst := []
  second := ⟨order.second, order.secondAt values, 0x26⟩
  behindSecond := []
  third := ⟨order.third, order.thirdAt values, 0x26⟩
  behindThird := []
  second_ne_first := order.second_ne_first
  third_ne_first := order.third_ne_first
  third_ne_second := order.third_ne_second
  second_separated := rfl
  third_separated := rfl
  inFirst := nofun
  inSecond := nofun
  inThird := nofun

/-- Where the value of a name starts. -/
def valueAt (name : FieldName) : Nat :=
  (order.layout values).start name

theorem valueAt_first : order.valueAt values order.first = 22 + order.first.text.length :=
  if_pos rfl

theorem valueAt_second :
    order.valueAt values order.second = order.secondAt values + order.second.text.length := by
  rw [valueAt, Layout.start]
  exact (if_neg order.second_ne_first).trans (if_pos rfl)

theorem valueAt_third : order.valueAt values order.third = order.lastValueAt values := by
  rw [valueAt, Layout.start]
  exact (if_neg order.third_ne_first).trans (if_neg order.third_ne_second)

theorem token_value (name : FieldName) :
    ∃ front back, order.token values = front ++ (values.value name ++ back) ∧
      front.length = order.valueAt values name ∧ (name = order.third → back = []) := by
  have hscheme : (ascii "SharedAccessSignature ").length = 22 := rfl
  rcases name_cases order.second_ne_first order.third_ne_first order.third_ne_second name with
    rfl | rfl | rfl
  · refine ⟨ascii "SharedAccessSignature " ++ order.first.text, 0x26 :: (order.second.text ++
      (values.value order.second ++ 0x26 :: (order.third.text ++ values.value order.third))), ?_, ?_,
      fun h => absurd h.symm order.third_ne_first⟩
    · rw [token, List.append_assoc]
    · rw [valueAt_first, List.length_append, hscheme]
  · refine ⟨ascii "SharedAccessSignature " ++ (order.first.text ++ (values.value order.first ++
      0x26 :: order.second.text)), 0x26 :: (order.third.text ++ values.value order.third), ?_, ?_,
      fun h => absurd h.symm order.third_ne_second⟩
    · simp only [token, List.append_assoc, List.cons_append]
    · simp only [valueAt_second, secondAt, List.length_append, List.length_cons]
      omega
  · refine ⟨ascii "SharedAccessSignature " ++ (order.first.text ++ (values.value order.first ++
      0x26 :: (order.second.text ++ (values.value order.second ++ 0x26 :: order.third.text)))), [],
      ?_, ?_, fun _ => rfl⟩
    · simp only [token, List.append_assoc, List.cons_append, List.append_nil]
    · simp only [valueAt_third, lastValueAt, thirdAt, secondAt, List.length_append, List.length_cons]
      omega

/-! ## What is read of a token of three fields -/

/-- The values before the last one have a character to lose, and the last one starts before the length of
the token as an `int`. -/
structure Complete : Prop where
  first : 2 ≤ (values.value order.first).length
  second : 2 ≤ (values.value order.second).length
  third : (order.lastValueAt values : Int) < intOfLength (order.token values).length

/-- The characters of the expiry time that are read: all but the last one if another field follows, and
else those before the length of the token as an `int`. -/
def digitsRead : Bytes :=
  if order.third = .se then
    (values.value .se).take
      (intOfLength (order.token values).length - order.lastValueAt values).toNat
  else (values.value .se).dropLast

theorem digitsRead_prefix : order.digitsRead values <+: values.value .se := by
  rw [digitsRead]
  split
  · exact List.take_prefix _ _
  · exact List.dropLast_prefix _

theorem occurrences_layout :
    (order.layout values).occurrences =
      [⟨order.first, 22, 0x20⟩, ⟨order.second, order.secondAt values, 0x26⟩,
        ⟨order.third, order.thirdAt values, 0x26⟩] := rfl

theorem occurrences_token :
    occurrences (order.token values) =
      (order.layout values).occurrences.filter (·.position < scannedLength (order.token values)) := by
  have hfilter := @occurrencesFrom_eq_filter _ 0 0 _ (scannedLength_le (order.token values))
  rw [Nat.zero_add, occurrencesIn_token] at hfilter
  exact hfilter

theorem occurrences_cases :
    (order.thirdAt values < scannedLength (order.token values) ∧
      occurrences (order.token values) = (order.layout values).occurrences) ∨
    (scannedLength (order.token values) ≤ order.thirdAt values ∧
      ∀ layout : Layout, occurrences (order.token values) ≠ layout.occurrences) := by
  have hsecond : 22 < order.secondAt values := by
    rw [secondAt]
    omega
  have hthird : order.secondAt values < order.thirdAt values := by
    rw [thirdAt]
    omega
  rw [occurrences_token]
  rcases Nat.lt_or_ge (order.thirdAt values) (scannedLength (order.token values)) with hlt | hge
  · refine .inl ⟨hlt, ?_⟩
    rw [List.filter_eq_self, occurrences_layout, List.forall_mem_cons, List.forall_mem_cons,
      List.forall_mem_singleton]
    exact ⟨decide_eq_true (Nat.lt_trans hsecond (Nat.lt_trans hthird hlt)),
      decide_eq_true (Nat.lt_trans hthird hlt), decide_eq_true hlt⟩
  · refine .inr ⟨hge, fun layout heq => ?_⟩
    -- two occurrences at most are not enough for three groups
    have htwo : (order.layout values).occurrences.filter
        (·.position < scannedLength (order.token values)) =
          [⟨order.first, 22, 0x20⟩, ⟨order.second, order.secondAt values, 0x26⟩].filter
            (·.position < scannedLength (order.token values)) := by
      rw [occurrences_layout]
      simp [List.filter_cons, Nat.not_lt.2 hge]
    have hle := List.length_filter_le
      (fun o : Occurrence => decide (o.position < scannedLength (order.token values)))
      [⟨order.first, 22, 0x20⟩, ⟨order.second, order.secondAt values, 0x26⟩]
    rw [← htwo, heq] at hle
    simp only [Layout.occurrences, List.length_cons, List.length_append, List.length_nil] at hle
    omega

theorem stop_first (length : Int) :
    (order.layout values).stop length order.first =
      order.valueAt values order.first + (values.value order.first).length - 1 := by
  have hstops : (order.layout values).second.stopsAt = (order.secondAt values : Int) - 2 :=
    if_neg (show ¬ (0x26 : UInt8) = 0x20 by decide)
  rw [Layout.stop, if_pos (show order.first = (order.layout values).first.name from rfl), hstops,
    valueAt_first, secondAt]
  omega

theorem stop_second (length : Int) :
    (order.layout values).stop length order.second =
      order.valueAt values order.second + (values.value order.second).length - 1 := by
  have hstops : (order.layout values).third.stopsAt = (order.thirdAt values : Int) - 2 :=
    if_neg (show ¬ (0x26 : UInt8) = 0x20 by decide)
  rw [Layout.stop, if_neg (show order.second ≠ (order.layout values).first.name from
      order.second_ne_first),
    if_pos (show order.second = (order.layout values).second.name from rfl), hstops, valueAt_second,
    thirdAt]
  omega

theorem stop_third (length : Int) : (order.layout values).stop length order.third = length :=
  (if_neg order.third_ne_first).trans (if_neg order.third_ne_second)

theorem expiryASCII_token :
    expiryASCII (order.token values)
      ((order.layout values).field (intOfLength (order.token values).length) .se) =
        order.digitsRead values := by
  rcases order.token_value values .se with ⟨front, back, htoken, hfront, hback⟩
  have hplain : ∀ {part : Bytes}, part <+: values.value .se → part.takeWhile (· != 0x26) = part := by
    intro part hpart
    have hpart : 0x26 ∉ part := fun hc => values.no_ampersand .se (hpart.subset hc)
    have hwhole : upToAmpersand (part ++ []) = part ++ upToAmpersand [] := upToAmpersand_append hpart
    rw [List.append_nil] at hwhole
    exact hwhole.trans (List.append_nil part)
  have hdrop : (order.token values).drop (order.valueAt values .se) = values.value .se ++ back := by
    rw [htoken, ← hfront, List.drop_left]
  have hcopied : ∀ stop : Int, (order.layout values).stop
      (intOfLength (order.token values).length) .se = stop →
        expiryASCII (order.token values)
          ((order.layout values).field (intOfLength (order.token values).length) .se) =
            ((values.value .se ++ back).take (stop - order.valueAt values .se).toNat).takeWhile
              (· != 0x26) := by
    rintro stop rfl
    rw [expiryASCII, ← hdrop]
    rfl
  have hcut : ∀ name, name = .se →
      (order.layout values).stop (intOfLength (order.token values).length) name =
        order.valueAt values name + (values.value name).length - 1 →
      order.third ≠ .se → expiryASCII (order.token values)
          ((order.layout values).field (intOfLength (order.token values).length) .se) =
        order.digitsRead values := by
    rintro name rfl hstop hthird
    have hnonempty := List.length_pos_of_ne_nil (values.nonempty .se)
    have hlength : (order.valueAt values .se + (values.value .se).length - 1 -
        order.valueAt values .se : Int).toNat = (values.value .se).length - 1 := by omega
    rw [hcopied _ hstop, hlength, List.take_append_of_le_length (by omega), ← List.dropLast_eq_take,
      hplain (List.dropLast_prefix _), digitsRead, if_neg hthird]
  rcases name_cases order.second_ne_first order.third_ne_first order.third_ne_second .se with
    hse | hse | hse
  · exact hcut _ hse.symm (order.stop_first values _) fun h => order.third_ne_first (h.trans hse)
  · exact hcut _ hse.symm (order.stop_second values _) fun h => order.third_ne_second (h.trans hse)
  · have hstop := order.stop_third values (intOfLength (order.token values).length)
    have hvalue := order.valueAt_third values
    rw [← hse] at hstop hvalue
    rw [hcopied _ hstop, hback hse, List.append_nil, hplain (List.take_prefix _ _), digitsRead,
      if_pos hse.symm, hvalue]

theorem sasTokenValidate_token (now : Int) :
    sasTokenValidate (order.token values) true now = true ↔
      order.Complete values ∧ 0 < getExpiryValue (order.digitsRead values) ∧
        doubleOfTime now ≤ getExpiryValue (order.digitsRead values) := by
  rcases order.occurrences_cases values with ⟨-, hall⟩ | ⟨hthird, hnone⟩
  · rw [sasTokenValidate_of_layout hall, and_iff_right rfl]
    have hread := order.expiryASCII_token values
    constructor
    · intro haccepted
      rw [← hread]
      refine ⟨?_, haccepted.positive, haccepted.unexpired⟩
      have hfirst := haccepted.nonempty order.first
      have hsecond := haccepted.nonempty order.second
      have hthird := haccepted.nonempty order.third
      rw [stop_first, valueAt] at hfirst
      rw [stop_second, valueAt] at hsecond
      rw [stop_third, ← valueAt, valueAt_third] at hthird
      exact ⟨by omega, by omega, hthird⟩
    · rintro ⟨hcomplete, hpositive, hunexpired⟩
      rw [← hread] at hpositive hunexpired
      refine ⟨hall, fun name => ?_, hpositive, hunexpired⟩
      rcases name_cases order.second_ne_first order.third_ne_first order.third_ne_second name with
        rfl | rfl | rfl
      · have hlength := hcomplete.first
        rw [stop_first, valueAt]
        omega
      · have hlength := hcomplete.second
        rw [stop_second, valueAt]
        omega
      · rw [stop_third, ← valueAt, valueAt_third]
        exact hcomplete.third
  · rw [accepted_iff_layout]
    constructor
    · rintro ⟨-, layout, haccepted⟩
      exact absurd haccepted.occurrences (hnone layout)
    · rintro ⟨hcomplete, -⟩
      have hbehind := hcomplete.third
      rw [lastValueAt] at hbehind
      rw [scannedLength] at hthird
      omega

end FieldOrder

/-! ## Numbers that are not exact -/

theorem le_roundDigit {value digit : Nat} (h : 2 ^ 53 ≤ value * 10 + digit) :
    2 ^ 53 ≤ roundDouble (roundDouble (value * 10) + digit) := by
  apply le_roundDouble
  rcases Nat.lt_or_ge (value * 10) (2 ^ 53) with hlt | hge
  · rw [roundDouble_of_lt hlt]
    exact h
  · exact Nat.le_trans (le_roundDouble hge) (Nat.le_add_right _ _)

/-- From `2 ^ 53` on the value that is read stays above. -/
theorem le_getExpiryValueFrom {value : Nat} {digits : Bytes}
    (hdigits : ∀ c ∈ digits, isDigit c = true) (h : 2 ^ 53 ≤ digits.foldl appendDigit value) :
    2 ^ 53 ≤ getExpiryValueFrom value digits := by
  induction digits generalizing value with
  | nil => exact h
  | cons c rest ih =>
    rw [List.forall_mem_cons] at hdigits
    rw [List.foldl_cons] at h
    rw [getExpiryValueFrom, if_pos hdigits.1]
    refine ih hdigits.2 ?_
    rcases Nat.lt_or_ge (appendDigit value c) (2 ^ 53) with hlt | hge
    · have hexact : value * 10 + (c.toNat - 0x30) = appendDigit value c := rfl
      rw [roundDouble_of_lt (n := value * 10) (by omega), hexact, roundDouble_of_lt hlt]
      exact h
    · exact Nat.le_trans (le_roundDigit hge) (le_foldl_appendDigit _ rest)

/-- Up to `2 ^ 53` a time compares with the number itself. -/
theorem unexpired_iff {digits : Bytes} {now : Int} (hdigits : ∀ c ∈ digits, isDigit c = true)
    (hnow : now < 2 ^ 53) :
    (0 < getExpiryValue digits ∧ doubleOfTime now ≤ getExpiryValue digits) ↔
      0 < decimalValue digits ∧ now ≤ decimalValue digits := by
  have htime : doubleOfTime now ≤ 0 ∧ now < 0 ∨ doubleOfTime now = now := by
    rcases Int.lt_or_le now 0 with hneg | hnonneg
    · refine .inl ⟨?_, hneg⟩
      rw [doubleOfTime, if_pos hneg]
      omega
    · exact .inr (doubleOfTime_of_lt hnonneg hnow)
  rw [getExpiryValue, decimalValue]
  rcases Nat.lt_or_ge (digits.foldl appendDigit 0) (2 ^ 53) with hlt | hge
  · rw [getExpiryValueFrom_exact hdigits hlt]
    omega
  · have hread := le_getExpiryValueFrom hdigits hge
    omega

/-! ## The validity of a token -/

namespace FieldOrder

variable (order : FieldOrder) (values : FieldValues)

/-- The validator returns true exactly when the expiry time is not in the past. -/
def ValidatesExpiry (now : Int) : Prop :=
  sasTokenValidate (order.token values) true now = true ↔ now ≤ values.expiry

theorem digitsRead_digits : ∀ c ∈ order.digitsRead values, isDigit c = true := by
  have hdecimal := values.decimal
  simp only [isDecimal, Bool.and_eq_true, List.all_eq_true] at hdecimal
  exact fun c hc => hdecimal.2 c ((order.digitsRead_prefix values).subset hc)

theorem decimalValue_digitsRead : decimalValue (order.digitsRead values) ≤ values.expiry := by
  rcases order.digitsRead_prefix values with ⟨tail, htail⟩
  rw [FieldValues.expiry, ← htail, decimalValue, decimalValue, List.foldl_append]
  exact le_foldl_appendDigit _ tail

/-- The expiry time is in the past, or no value is too short and the number that is read of it is not in the
past either. -/
def ReadsExpiry (now : Int) : Prop :=
  values.expiry < now ∨
    (order.Complete values ∧ 0 < decimalValue (order.digitsRead values) ∧
      now ≤ decimalValue (order.digitsRead values))

/-- Double precision has the time and the number that is read as they are. -/
structure Doubles (now : Int) : Prop where
  time : doubleOfTime now = now
  number : getExpiryValue (order.digitsRead values) = decimalValue (order.digitsRead values)

theorem validatesExpiry_iff_of_compare {now : Int}
    (hcompare : (0 < getExpiryValue (order.digitsRead values) ∧
      doubleOfTime now ≤ getExpiryValue (order.digitsRead values)) ↔
        0 < decimalValue (order.digitsRead values) ∧ now ≤ decimalValue (order.digitsRead values)) :
    order.ValidatesExpiry values now ↔ order.ReadsExpiry values now := by
  have hle := order.decimalValue_digitsRead values
  rw [ValidatesExpiry, sasTokenValidate_token, hcompare, ReadsExpiry]
  constructor
  · intro hexact
    rcases Int.lt_or_le values.expiry now with hpast | hfuture
    · exact .inl hpast
    · exact .inr (hexact.2 hfuture)
  · rintro (hpast | hread)
    · exact iff_of_false (fun hread => by omega) (by omega)
    · exact iff_of_true hread (by omega)

/-- Up to `2 ^ 53` the expiry time decides in this order exactly if it is read so; and at a later time, where
double precision has both numbers as they are. -/
theorem validatesExpiry_iff (now : Int) :
    if now < 2 ^ 53 then order.ValidatesExpiry values now ↔ order.ReadsExpiry values now
    else order.Doubles values now →
      (order.ValidatesExpiry values now ↔ order.ReadsExpiry values now) := by
  split_ifs with hnow
  · exact order.validatesExpiry_iff_of_compare values
      (unexpired_iff (order.digitsRead_digits values) hnow)
  · intro hdoubles
    apply order.validatesExpiry_iff_of_compare values
    rw [hdoubles.time, hdoubles.number]

end FieldOrder

/-- The values of a token for a hub, which expires in 2030. -/
def hubValues : FieldValues where
  value
    | .se => ascii "1900000000"
    | .sr => ascii "hub"
    | .sig => ascii "cd"
  nonempty := by
    intro name
    cases name <;> decide
  no_equals := by
    intro name
    cases name <;> decide
  no_ampersand := by
    intro name
    cases name <;> decide
  decimal := by decide

def expiryFirst : FieldOrder :=
  ⟨.se, .sr, .sig, by decide, by decide, by decide⟩

def expiryLast : FieldOrder :=
  ⟨.sr, .sig, .se, by decide, by decide, by decide⟩

/-- In 2027 the token is accepted where the expiry time comes last, and has expired where it comes first,
since its last digit is not read. -/
theorem order_matters :
    sasTokenValidate (expiryLast.token hubValues) true 1800000000 = true ∧
      sasTokenValidate (expiryFirst.token hubValues) true 1800000000 = false ∧
      ¬ expiryFirst.ValidatesExpiry hubValues 1800000000 := by
  have hlast : sasTokenValidate (expiryLast.token hubValues) true 1800000000 = true := by decide
  have hfirst : sasTokenValidate (expiryFirst.token hubValues) true 1800000000 = false := by decide
  have hfuture : (1800000000 : Int) ≤ hubValues.expiry := by decide
  refine ⟨hlast, hfirst, fun hexact => ?_⟩
  rw [hexact.2 hfuture] at hfirst
  cases hfirst

end SharedUtility.SasToken
