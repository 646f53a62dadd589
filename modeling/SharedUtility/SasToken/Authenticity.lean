import SharedUtility.SasToken.Layout

/-!
# Authenticity — the fields of an accepted token

A field of a token stands behind the scheme or behind an ampersand.  The validator accepts a token
only because of its own fields, and with an expiry time that is a decimal number, if no layout of the
token takes a name inside another field or a text that is not the whole number.  That the names taken
begin fields is also necessary, and the decimal number is where no other field is named `se`:
`sasTokenValidate_authentic`.
-/

namespace SharedUtility.SasToken

/-! ## Fields -/

/-- A field begins behind `SharedAccessSignature ` at the start, and behind every ampersand. -/
def beginsField (token : Bytes) (position : Nat) : Bool :=
  token.take position == ascii "SharedAccessSignature " ||
    (token.take position).getLast? == some 0x26

/-- The text up to the next ampersand or to the end. -/
def upToAmpersand (text : Bytes) : Bytes :=
  text.takeWhile (· != 0x26)

/-- A decimal number. -/
def isDecimal (value : Bytes) : Bool :=
  value != [] && value.all isDigit

/-- The number behind `value` and one more digit. -/
def appendDigit (value : Nat) (c : UInt8) : Nat :=
  value * 10 + (c.toNat - 0x30)

def decimalValue (digits : Bytes) : Nat :=
  digits.foldl appendDigit 0

/-- The token has a field named `se`, and its value is a decimal number that is not before `now`. -/
def HasExpiry (token : Bytes) (now : Int) : Prop :=
  ∃ position value, beginsField token position = true ∧
    upToAmpersand (token.drop position) = FieldName.se.text ++ value ∧
      isDecimal value = true ∧ now ≤ decimalValue value

/-- Where the loop of the validator has the value of a name start. -/
def valueTaken (token : Bytes) (name : FieldName) : Int :=
  let fields := scanFrom (intOfLength token.length).toNat 0 0 token {}
  match name with
  | .se => fields.se.start
  | .sr => fields.sr.start
  | .sig => fields.sig.start

/-- What an accepted token promises: an expiry time, and values that are those of its own fields. -/
structure Authentic (token : Bytes) (now : Int) : Prop where
  expiry : HasExpiry token now
  own : ∀ name, ∃ position, beginsField token position = true ∧
    name.text <+: token.drop position ∧ valueTaken token name = position + name.text.length

/-! ## The condition -/

/-- The place of the name whose value is taken. -/
def Layout.nameTaken (layout : Layout) (name : FieldName) : Nat :=
  layout.start name - name.text.length

/-- Every name taken begins a field, the text behind the `se=` taken is a decimal number up to the next
ampersand, and the time is exact in double precision. -/
structure Layout.TakesFields (layout : Layout) (token : Bytes) (now : Int) : Prop where
  begins : ∀ name, beginsField token (layout.nameTaken name) = true
  decimal : isDecimal (upToAmpersand (token.drop (layout.start .se))) = true
  inRange : now < 2 ^ 53

/-- No two fields are named `se`. -/
def OneExpiryField (token : Bytes) : Prop :=
  ∀ i j, beginsField token i = true → FieldName.se.text <+: token.drop i →
    beginsField token j = true → FieldName.se.text <+: token.drop j → i = j

/-! ## Numbers -/

theorem le_foldl_appendDigit (value : Nat) (digits : Bytes) :
    value ≤ digits.foldl appendDigit value := by
  induction digits generalizing value with
  | nil => exact Nat.le_refl value
  | cons c rest ih =>
    have hdigit : value ≤ appendDigit value c := by
      unfold appendDigit
      omega
    exact Nat.le_trans hdigit (ih (appendDigit value c))

/-- Nothing is rounded below `2 ^ 53`. -/
theorem getExpiryValueFrom_exact {value : Nat} {digits : Bytes}
    (hdigits : ∀ c ∈ digits, isDigit c = true) (h : digits.foldl appendDigit value < 2 ^ 53) :
    getExpiryValueFrom value digits = digits.foldl appendDigit value := by
  induction digits generalizing value with
  | nil => rfl
  | cons c rest ih =>
    rw [List.foldl_cons] at h ⊢
    have hnext : appendDigit value c < 2 ^ 53 :=
      Nat.lt_of_le_of_lt (le_foldl_appendDigit _ rest) h
    have hexact : value * 10 + (c.toNat - 0x30) = appendDigit value c := rfl
    rw [getExpiryValueFrom, if_pos (hdigits c (List.mem_cons_self ..)),
      roundDouble_of_lt (n := value * 10) (by omega), hexact, roundDouble_of_lt hnext]
    exact ih (fun c' hc' => hdigits c' (List.mem_cons_of_mem c hc')) h

theorem doubleOfTime_of_lt {now : Int} (h0 : 0 ≤ now) (h : now < 2 ^ 53) :
    doubleOfTime now = now := by
  rw [doubleOfTime, if_neg (by omega), roundDouble_of_lt (by omega)]
  omega

/-- Of a decimal number a first part has been read, and it is not before `now`. -/
theorem le_decimalValue_of_prefix {now : Int} {part value : Bytes} (hpart : part <+: value)
    (hvalue : isDecimal value = true) (hnow : now < 2 ^ 53)
    (hread : doubleOfTime now ≤ getExpiryValue part) : now ≤ decimalValue value := by
  rcases hpart with ⟨tail, rfl⟩
  have hmore : decimalValue part ≤ decimalValue (part ++ tail) := by
    rw [decimalValue, decimalValue, List.foldl_append]
    exact le_foldl_appendDigit _ tail
  by_cases hneg : now < 0
  · omega
  by_cases hsmall : decimalValue part < 2 ^ 53
  · simp only [isDecimal, Bool.and_eq_true, List.all_eq_true] at hvalue
    have hexact := getExpiryValueFrom_exact
      (fun c hc => hvalue.2 c (List.mem_append_left tail hc)) hsmall
    rw [getExpiryValue, hexact, doubleOfTime_of_lt (by omega) hnow] at hread
    rw [decimalValue] at hmore
    omega
  · omega

/-! ## Names of a layout -/

section

variable {layout : Layout} {token : Bytes} {now : Int}

theorem text_prefix_of_mem {n i : Nat} {prev : UInt8} {token : Bytes} {o : Occurrence}
    (h : o ∈ occurrencesFrom n i prev (token.drop i)) : o.name.text <+: token.drop o.position := by
  induction n generalizing i prev with
  | zero => cases h
  | succ n ih =>
    rw [occurrencesFrom, List.drop_drop, Nat.add_comm i 1, Nat.add_comm 1 i] at h
    split at h
    case h_1 name hname =>
      rcases List.mem_cons.1 h with rfl | h
      · exact text_prefix_of_nameAt hname
      · exact ih h
    case h_2 => exact ih h

theorem exists_lastStart {own : FieldName} (first : Occurrence) (rest : List Occurrence)
    (hfirst : first.name = own) :
    ∃ o ∈ first :: rest, o.name = own ∧ lastStart own first.valueStart rest = o.valueStart := by
  induction rest generalizing first with
  | nil => exact ⟨first, List.mem_cons_self .., hfirst, rfl⟩
  | cons next rest ih =>
    rw [lastStart]
    by_cases hnext : next.name = own
    · rw [if_pos hnext]
      rcases ih next hnext with ⟨o, ho, hname, hstart⟩
      exact ⟨o, List.mem_cons_of_mem first ho, hname, hstart⟩
    · rw [if_neg hnext]
      rcases ih first hfirst with ⟨o, ho, hname, hstart⟩
      refine ⟨o, ?_, hname, hstart⟩
      rcases List.mem_cons.1 ho with rfl | ho
      · exact List.mem_cons_self ..
      · exact List.mem_cons_of_mem first (List.mem_cons_of_mem next ho)

theorem Layout.exists_occurrence (layout : Layout) (name : FieldName) :
    ∃ o ∈ layout.occurrences, o.name = name ∧ layout.start name = o.valueStart := by
  rcases name_cases layout.second_ne_first layout.third_ne_first layout.third_ne_second name with
    rfl | rfl | rfl
  · rcases exists_lastStart layout.first layout.behindFirst rfl with
      ⟨o, ho, hname, hstart⟩
    refine ⟨o, ?_, hname, by rw [Layout.start, if_pos rfl, hstart]⟩
    rw [Layout.occurrences, ← List.cons_append]
    exact List.mem_append_left _ ho
  · rcases exists_lastStart layout.second layout.behindSecond rfl with
      ⟨o, ho, hname, hstart⟩
    refine ⟨o, ?_, hname, by rw [Layout.start, if_neg layout.second_ne_first, if_pos rfl, hstart]⟩
    have hgroup : layout.occurrences = layout.first :: (layout.behindFirst ++
        ((layout.second :: layout.behindSecond) ++ layout.third :: layout.behindThird)) := rfl
    rw [hgroup]
    exact List.mem_cons_of_mem _ (List.mem_append_right _ (List.mem_append_left _ ho))
  · rcases exists_lastStart layout.third layout.behindThird rfl with
      ⟨o, ho, hname, hstart⟩
    refine ⟨o, ?_, hname, by
      rw [Layout.start, if_neg layout.third_ne_first, if_neg layout.third_ne_second, hstart]⟩
    rw [Layout.occurrences]
    exact List.mem_cons_of_mem _ (List.mem_append_right _
      (List.mem_cons_of_mem _ (List.mem_append_right _ ho)))

theorem Layout.nameTaken_prefix (h : SasToken.occurrences token = layout.occurrences)
    (name : FieldName) : name.text <+: token.drop (layout.nameTaken name) ∧
      layout.start name = layout.nameTaken name + name.text.length := by
  rcases layout.exists_occurrence name with ⟨o, ho, rfl, hstart⟩
  have hposition : layout.nameTaken o.name = o.position := by
    rw [Layout.nameTaken, hstart, Occurrence.valueStart, Nat.add_sub_cancel]
  rw [hposition, hstart]
  refine ⟨?_, rfl⟩
  rw [← h] at ho
  exact text_prefix_of_mem (i := 0) ho

theorem Layout.valueTaken_eq (h : SasToken.occurrences token = layout.occurrences)
    (name : FieldName) : valueTaken token name = layout.start name := by
  have hascending : Ascending layout.occurrences := h ▸ ascending_occurrencesFrom
  have hscanned : scannedFields token = .ofNames (layout.field (-1)) := by
    rw [scannedFields, h, foldl_layout hascending]
  unfold valueTaken
  rw [scanFrom_eq_scannedFields, hscanned]
  cases name <;> rfl

theorem upToAmpersand_append {text tail : Bytes} (htext : 0x26 ∉ text) :
    upToAmpersand (text ++ tail) = text ++ upToAmpersand tail := by
  rw [upToAmpersand, List.takeWhile_append_of_pos]
  · rfl
  · intro c hc
    simp only [bne_iff_ne, ne_eq]
    rintro rfl
    exact htext hc

theorem expiryASCII_begins (token : Bytes) (se : Field) :
    expiryASCII token se <+: upToAmpersand (token.drop se.start.toNat) := by
  unfold expiryASCII upToAmpersand
  have hpart := List.take_prefix (se.stop - se.start).toNat (token.drop se.start.toNat)
  generalize (token.drop se.start.toNat).take (se.stop - se.start).toNat = part at hpart
  rcases hpart with ⟨tail, htail⟩
  rw [← htail, List.takeWhile_append]
  split
  · rename_i hall
    have hwhole : part.takeWhile (· != 0x26) = part :=
      (List.takeWhile_prefix _).eq_of_length hall
    rw [hwhole]
    exact List.prefix_append part _
  · exact List.prefix_refl _

theorem Layout.field_taken (h : SasToken.occurrences token = layout.occurrences) (name : FieldName) :
    upToAmpersand (token.drop (layout.nameTaken name)) =
      name.text ++ upToAmpersand (token.drop (layout.start name)) := by
  rcases layout.nameTaken_prefix h name with ⟨⟨tail, htail⟩, hstart⟩
  have hbehind : token.drop (layout.start name) = tail := by
    rw [hstart, ← List.drop_drop, ← htail, List.drop_left]
  have hplain : 0x26 ∉ name.text := by
    cases name <;> decide
  rw [hbehind, ← htail, upToAmpersand_append hplain]

/-- The decimal number behind the `se=` taken is an expiry time. -/
theorem Layout.Accepted.hasExpiry (h : layout.Accepted token now)
    (htakes : layout.TakesFields token now) : HasExpiry token now := by
  refine ⟨layout.nameTaken .se, upToAmpersand (token.drop (layout.start .se)), htakes.begins .se,
    Layout.field_taken h.occurrences .se, htakes.decimal, ?_⟩
  exact le_decimalValue_of_prefix
    (expiryASCII_begins token (layout.field (intOfLength token.length) .se)) htakes.decimal
    htakes.inRange h.unexpired

theorem Layout.Accepted.authentic (h : layout.Accepted token now)
    (htakes : layout.TakesFields token now) : Authentic token now where
  expiry := h.hasExpiry htakes
  own name := by
    rcases layout.nameTaken_prefix h.occurrences name with ⟨htext, hstart⟩
    refine ⟨layout.nameTaken name, htakes.begins name, htext, ?_⟩
    rw [layout.valueTaken_eq h.occurrences, hstart]
    rfl

theorem Layout.Accepted.begins_of_authentic (h : layout.Accepted token now)
    (hauthentic : Authentic token now) (name : FieldName) :
    beginsField token (layout.nameTaken name) = true := by
  rcases hauthentic.own name with ⟨position, hbegins, -, htaken⟩
  have hposition : layout.nameTaken name = position := by
    rw [layout.valueTaken_eq h.occurrences] at htaken
    rw [Layout.nameTaken]
    omega
  rw [hposition]
  exact hbegins

/-- The one field named `se` is the one taken, so that its value has to be the number. -/
theorem Layout.Accepted.decimal_of_authentic (h : layout.Accepted token now)
    (hauthentic : Authentic token now) (hone : OneExpiryField token) :
    isDecimal (upToAmpersand (token.drop (layout.start .se))) = true := by
  rcases hauthentic.expiry with ⟨position, value, hbegins, hfield, hdecimal, -⟩
  have htext : FieldName.se.text <+: token.drop position := by
    have hbefore : upToAmpersand (token.drop position) <+: token.drop position :=
      List.takeWhile_prefix _
    rw [hfield] at hbefore
    exact (List.prefix_append _ value).trans hbefore
  have hposition : position = layout.nameTaken .se :=
    hone position _ hbegins htext (h.begins_of_authentic hauthentic .se)
      (layout.nameTaken_prefix h.occurrences .se).1
  rw [hposition, Layout.field_taken h.occurrences, List.append_cancel_left_eq] at hfield
  rw [hfield]
  exact hdecimal

end

/-- An accepted token keeps its promises if its layout takes names at the start of fields, and a whole
decimal number behind `se=`.  It keeps them only if the names are at the start of fields, and only with
such a number if no other field is named `se`. -/
theorem sasTokenValidate_authentic (token : Bytes) (allocated : Bool) (now : Int) :
    ((allocated = true → ∀ layout : Layout, layout.Accepted token now →
        layout.TakesFields token now) →
      sasTokenValidate token allocated now = true → Authentic token now) ∧
    ((sasTokenValidate token allocated now = true → Authentic token now) → allocated = true →
      ∀ layout : Layout, layout.Accepted token now →
        (∀ name, beginsField token (layout.nameTaken name) = true) ∧
        (OneExpiryField token →
          isDecimal (upToAmpersand (token.drop (layout.start .se))) = true)) := by
  rw [accepted_iff_layout]
  constructor
  · rintro htakes ⟨hallocated, layout, haccepted⟩
    exact haccepted.authentic (htakes hallocated layout haccepted)
  · intro h hallocated layout haccepted
    have hauthentic := h ⟨hallocated, layout, haccepted⟩
    exact ⟨haccepted.begins_of_authentic hauthentic, haccepted.decimal_of_authentic hauthentic⟩

theorem takesFields_of_valuesTaken {token : Bytes} {now : Int}
    (hbegins : ∀ name, beginsField token ((valueTaken token name).toNat - name.text.length) = true)
    (hdecimal : isDecimal (upToAmpersand (token.drop (valueTaken token .se).toNat)) = true)
    (hnow : now < 2 ^ 53) {layout : Layout} (h : layout.Accepted token now) :
    layout.TakesFields token now := by
  have htaken : ∀ name, (valueTaken token name).toNat = layout.start name := fun name => by
    rw [layout.valueTaken_eq h.occurrences, Int.toNat_natCast]
  rw [htaken] at hdecimal
  refine ⟨fun name => ?_, hdecimal, hnow⟩
  have hname := hbegins name
  rw [htaken] at hname
  exact hname

/-- The `se=` inside the signature is not taken, since no separator stands before it and the value of `sig`
is open. -/
theorem sasTokenValidate_authentic_ordinary :
    sasTokenValidate (ascii "SharedAccessSignature sr=ab&sig=c.se=1x&se=1900000000&skn=a b") true
        1800000000 = true ∧
      Authentic (ascii "SharedAccessSignature sr=ab&sig=c.se=1x&se=1900000000&skn=a b")
        1800000000 := by
  have hbegins : ∀ name, beginsField
      (ascii "SharedAccessSignature sr=ab&sig=c.se=1x&se=1900000000&skn=a b")
      ((valueTaken (ascii "SharedAccessSignature sr=ab&sig=c.se=1x&se=1900000000&skn=a b")
        name).toNat - name.text.length) = true := by
    intro name
    cases name <;> decide
  have haccepted : sasTokenValidate
      (ascii "SharedAccessSignature sr=ab&sig=c.se=1x&se=1900000000&skn=a b") true 1800000000 =
        true := by decide
  refine ⟨haccepted, (sasTokenValidate_authentic _ true 1800000000).1 ?_ haccepted⟩
  exact fun _ layout => takesFields_of_valuesTaken hbegins (by decide) (by decide)

/-- A token with the expiry time in a field named `xse`, and no field named `se`. -/
theorem accepted_without_se :
    sasTokenValidate (ascii "SharedAccessSignature xse=19000000001&sr=ab&sig=c") true
        1800000000 = true ∧
      ¬ Authentic (ascii "SharedAccessSignature xse=19000000001&sr=ab&sig=c") 1800000000 := by
  refine ⟨by decide, fun hauthentic => ?_⟩
  rcases hauthentic.expiry with ⟨position, value, hbegins, hfield, -⟩
  have htext : FieldName.se.text.isPrefixOf (upToAmpersand
      ((ascii "SharedAccessSignature xse=19000000001&sr=ab&sig=c").drop position)) = true := by
    rw [hfield, List.isPrefixOf_iff_prefix]
    exact List.prefix_append ..
  by_cases hposition : position < 49
  · have hall : ∀ k < 49,
        (beginsField (ascii "SharedAccessSignature xse=19000000001&sr=ab&sig=c") k &&
          FieldName.se.text.isPrefixOf (upToAmpersand
            ((ascii "SharedAccessSignature xse=19000000001&sr=ab&sig=c").drop k))) = false := by
      decide
    have hnone := hall position hposition
    rw [hbegins, htext] at hnone
    cases hnone
  · have hlength : (ascii "SharedAccessSignature xse=19000000001&sr=ab&sig=c").length = 49 := rfl
    rw [List.drop_eq_nil_of_le (by omega)] at htext
    exact absurd htext (by decide)

end SharedUtility.SasToken
