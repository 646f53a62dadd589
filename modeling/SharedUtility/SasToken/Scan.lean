import Mathlib.Data.List.Infix
import SharedUtility.SasToken.Code

/-!
# Scan — what the validator makes of a text

* `scanText_skip`: a text in which no field name starts changes nothing,
* `Bad`: a field that has stopped before it has started stays so, and such a token is rejected.
-/

namespace SharedUtility.SasToken

/-- The loop over a whole text. -/
def scanText (i : Nat) (prev : UInt8) (text : Bytes) (fields : Fields) : Fields :=
  scanFrom text.length i prev text fields

section

variable {i : Nat} {prev c : UInt8} {rest text tail : Bytes} {fields : Fields}

theorem scanText_nil : scanText i prev [] fields = fields := rfl

theorem scanText_cons :
    scanText i prev (c :: rest) fields =
      scanText (i + 1) c rest (scanAt i prev (c :: rest) fields) := rfl

/-! ## Field names -/

def fieldNames : List Bytes :=
  [ascii "se=", ascii "sr=", ascii "sig="]

/-- A field name starts here. -/
def startsName (rest : Bytes) : Bool :=
  fieldNames.any fun name => name.isPrefixOf rest

theorem scanAt_of_no_name (h : startsName rest = false) : scanAt i prev rest fields = fields := by
  simp only [startsName, fieldNames, List.any_cons, List.any_nil, Bool.or_false,
    Bool.or_eq_false_iff] at h
  simp [scanAt, h.1, h.2.1, h.2.2]

theorem startsName_eq_false :
    startsName rest = false ↔ ∀ name ∈ fieldNames, ¬ name <+: rest := by
  simp only [startsName, List.any_eq_false, List.isPrefixOf_iff_prefix]

/-- Every name starts with an `s`. -/
theorem startsName_cons_of_ne (h : c ≠ 0x73) : startsName (c :: rest) = false := by
  have hse : (ascii "se=").isPrefixOf (c :: rest) = false := by
    simp [show ascii "se=" = [0x73, 0x65, 0x3D] from rfl, List.isPrefixOf, Ne.symm h]
  have hsr : (ascii "sr=").isPrefixOf (c :: rest) = false := by
    simp [show ascii "sr=" = [0x73, 0x72, 0x3D] from rfl, List.isPrefixOf, Ne.symm h]
  have hsig : (ascii "sig=").isPrefixOf (c :: rest) = false := by
    simp [show ascii "sig=" = [0x73, 0x69, 0x67, 0x3D] from rfl, List.isPrefixOf, Ne.symm h]
  simp [startsName, fieldNames, hse, hsr, hsig]

theorem scanAt_of_ne (h : c ≠ 0x73) : scanAt i prev (c :: rest) fields = fields :=
  scanAt_of_no_name (startsName_cons_of_ne h)

theorem name_length {name : Bytes} (h : name ∈ fieldNames) : name.length ≤ 4 := by
  revert name
  decide

theorem equals_mem_name {name : Bytes} (h : name ∈ fieldNames) : 0x3D ∈ name := by
  revert name
  decide

theorem separator_not_mem_name {name : Bytes} (h : name ∈ fieldNames) :
    0x26 ∉ name ∧ 0x20 ∉ name := by
  revert name
  decide

theorem startsName_of_long (htext : 0x3D ∉ text) (hlength : 4 ≤ text.length) :
    startsName (text ++ tail) = false := by
  rw [startsName_eq_false]
  intro name hname hstarts
  have hshort : name <+: text :=
    List.prefix_of_prefix_length_le hstarts (List.prefix_append text tail)
      (Nat.le_trans (name_length hname) hlength)
  exact htext (hshort.subset (equals_mem_name hname))

theorem prefix_append_separator {name : Bytes} (hname : name ∈ fieldNames)
    (hc : c = 0x26 ∨ c = 0x20) : name <+: text ++ c :: tail ↔ name <+: text := by
  constructor
  · intro h
    rcases List.prefix_or_prefix_of_prefix h (List.prefix_append text (c :: tail)) with hin | hreach
    · exact hin
    · rcases hreach with ⟨reach, rfl⟩
      cases reach with
      | nil => simp
      | cons b reach =>
        have hb : b = c := by
          have hcons := (List.prefix_append_right_inj text).1 h
          exact (List.cons_prefix_cons.1 hcons).1
        have hmem : c ∈ text ++ b :: reach := by simp [hb]
        rcases hc with rfl | rfl
        · exact absurd hmem (separator_not_mem_name hname).1
        · exact absurd hmem (separator_not_mem_name hname).2
  · intro h
    exact h.trans (List.prefix_append text (c :: tail))

theorem isPrefixOf_append_separator {name : Bytes} (hname : name ∈ fieldNames)
    (hc : c = 0x26 ∨ c = 0x20) : name.isPrefixOf (text ++ c :: tail) = name.isPrefixOf text := by
  rw [Bool.eq_iff_iff, List.isPrefixOf_iff_prefix, List.isPrefixOf_iff_prefix]
  exact prefix_append_separator hname hc

theorem startsName_of_separator (htext : 0x3D ∉ text) (hc : c = 0x26 ∨ c = 0x20) :
    startsName (text ++ c :: tail) = false := by
  rw [startsName_eq_false]
  intro name hname hstarts
  have hin := (prefix_append_separator hname hc).1 hstarts
  exact htext (hin.subset (equals_mem_name hname))

theorem startsName_of_no_equals (htext : 0x3D ∉ text) : startsName text = false := by
  rw [startsName_eq_false]
  intro name hname hstarts
  exact htext (hstarts.subset (equals_mem_name hname))

/-! ## Texts without a field name -/

theorem scanText_skip {p : UInt8} {f : Fields} {t u : Bytes}
    (h : ∀ s, s <:+ t → s ≠ [] → startsName (s ++ u) = false) :
    scanText i p (t ++ u) f = scanText (i + t.length) (t.getLastD p) u f := by
  induction t generalizing i p with
  | nil => rfl
  | cons b text ih =>
    have hhere : startsName (b :: (text ++ u)) = false :=
      h (b :: text) (List.suffix_refl _) (List.cons_ne_nil _ _)
    have hrest := ih (i := i + 1) (p := b) fun s hs hne =>
      h s (hs.trans (List.suffix_cons b text)) hne
    rw [List.cons_append, scanText_cons, scanAt_of_no_name hhere, hrest, List.length_cons]
    congr 1
    · omega
    · cases text with
      | nil => rfl
      | cons b' text => rfl

theorem scanText_skip_separator (htext : 0x3D ∉ text) (hc : c = 0x26 ∨ c = 0x20) :
    scanText i prev (text ++ c :: tail) fields =
      scanText (i + text.length + 1) c tail fields := by
  have hskip := scanText_skip (i := i) (p := prev) (f := fields) (t := text) (u := c :: tail)
    fun s hs _ => startsName_of_separator (fun hmem => htext (hs.subset hmem)) hc
  have hs : c ≠ 0x73 := by
    rcases hc with rfl | rfl
    · decide
    · decide
  rw [hskip, scanText_cons, scanAt_of_ne hs]

theorem scanText_skip_end (htext : 0x3D ∉ text) : scanText i prev text fields = fields := by
  have hskip := scanText_skip (i := i) (p := prev) (f := fields) (t := text) (u := [])
    fun s hs _ => by
      rw [List.append_nil]
      exact startsName_of_no_equals fun hmem => htext (hs.subset hmem)
  rw [List.append_nil] at hskip
  rw [hskip, scanText_nil]

/-! ## What the loop keeps -/

theorem scanText_invariant {p : UInt8} {t u : Bytes} {P : Nat → Fields → Prop}
    (hstep : ∀ i prev rest fields, P i fields → P (i + 1) (scanAt i prev rest fields))
    (h : P i fields) :
    ∃ fields', P (i + t.length) fields' ∧
      scanText i p (t ++ u) fields =
        scanText (i + t.length) (t.getLastD p) u fields' := by
  induction t generalizing i p fields with
  | nil => exact ⟨fields, h, rfl⟩
  | cons b text ih =>
    rcases ih (i := i + 1) (p := b) (hstep i p (b :: (text ++ u)) fields h) with
      ⟨fields', h', hscan⟩
    refine ⟨fields', ?_, ?_⟩
    · have hlength : i + (b :: text).length = i + 1 + text.length := by
        simp only [List.length_cons]
        omega
      rw [hlength]
      exact h'
    · rw [List.cons_append, scanText_cons, hscan]
      congr 1
      · simp only [List.length_cons]
        omega
      · cases text with
        | nil => rfl
        | cons b' text => rfl

end

/-! ## Fields -/

section

variable {i : Nat} {prev : UInt8} {rest : Bytes} {fields : Fields} {own first second : Field}
variable {start : Int}

theorem startField_own {p : UInt8} {n : Int} {a b c : Field} :
    (startField i p n a b c).1.stop = a.stop ∧
      ((startField i p n a b c).1.start = n ∨ (startField i p n a b c).1.start = -1) := by
  unfold startField
  grind

theorem isOpen_of_started (h : 0 < start) : (⟨start, -1⟩ : Field).isOpen = true := by
  simp only [Field.isOpen, Bool.and_eq_true, decide_eq_true_eq]
  omega

theorem isOpen_of_stopped {field : Field} (h : 0 ≤ field.stop) : field.isOpen = false := by
  simp only [Field.isOpen, Bool.and_eq_false_iff, decide_eq_false_iff_not]
  omega

theorem startField_first (h : 0 ≤ first.stop) :
    (startField i prev start own first second).2.1 = first := by
  have hclosed := isOpen_of_stopped h
  unfold startField
  grind

theorem startField_second (h : 0 ≤ second.stop) :
    (startField i prev start own first second).2.2 = second := by
  have hclosed := isOpen_of_stopped h
  unfold startField
  grind

/-- Before `i` the value has stopped, and not behind its start. -/
structure Bad (i : Nat) (field : Field) : Prop where
  stopped : 0 ≤ field.stop
  before : field.stop < i
  order : field.start < 0 ∨ field.stop ≤ field.start

/-- A value that has stopped before `i` starts again at `i`. -/
theorem bad_startField (hstopped : 0 ≤ own.stop) (hbefore : own.stop < i) (hstart : i ≤ start) :
    Bad (i + 1) (startField i prev start own first second).1 := by
  have hown := startField_own (i := i) (p := prev) (n := start) (a := own) (b := first) (c := second)
  constructor
  case stopped =>
    rw [hown.1]
    exact hstopped
  case before =>
    rw [hown.1]
    omega
  case order =>
    rw [hown.1]
    rcases hown.2 with heq | heq
    · right
      rw [heq]
      omega
    · left
      rw [heq]
      decide

theorem Bad.next {field : Field} (h : Bad i field) : Bad (i + 1) field :=
  ⟨h.stopped, by have := h.before; omega, h.order⟩

theorem Bad.scanAt_se (h : Bad i fields.se) : Bad (i + 1) (scanAt i prev rest fields).se := by
  unfold scanAt
  split
  · exact bad_startField h.stopped h.before (by omega)
  split
  · simp only [startField_first h.stopped]
    exact h.next
  split
  · simp only [startField_second h.stopped]
    exact h.next
  · exact h.next

theorem Bad.scanAt_sr (h : Bad i fields.sr) : Bad (i + 1) (scanAt i prev rest fields).sr := by
  unfold scanAt
  split
  · simp only [startField_first h.stopped]
    exact h.next
  split
  · exact bad_startField h.stopped h.before (by omega)
  split
  · simp only [startField_first h.stopped]
    exact h.next
  · exact h.next

theorem Bad.scanAt_sig (h : Bad i fields.sig) : Bad (i + 1) (scanAt i prev rest fields).sig := by
  unfold scanAt
  split
  · simp only [startField_second h.stopped]
    exact h.next
  split
  · simp only [startField_second h.stopped]
    exact h.next
  split
  · exact bad_startField h.stopped h.before (by omega)
  · exact h.next

/-- One of the fields is bad. -/
def AnyBad (i : Nat) (fields : Fields) : Prop :=
  Bad i fields.se ∨ Bad i fields.sr ∨ Bad i fields.sig

theorem AnyBad.scanAt (h : AnyBad i fields) : AnyBad (i + 1) (scanAt i prev rest fields) := by
  rcases h with h | h | h
  · exact .inl h.scanAt_se
  · exact .inr (.inl h.scanAt_sr)
  · exact .inr (.inr h.scanAt_sig)

/-- The value of `se` has stopped already, or `sr` is bad: the next `se` makes the token invalid. -/
def Doomed (i : Nat) (fields : Fields) : Prop :=
  (0 ≤ fields.se.stop ∧ fields.se.stop < i) ∨ Bad i fields.sr

theorem Doomed.scanAt (h : Doomed i fields) : Doomed (i + 1) (scanAt i prev rest fields) := by
  rcases h with ⟨hstopped, hbefore⟩ | h
  · left
    have hkept : (SasToken.scanAt i prev rest fields).se.stop = fields.se.stop := by
      unfold SasToken.scanAt
      split
      · exact startField_own.1
      split
      · simp only [startField_first hstopped]
      split
      · simp only [startField_second hstopped]
      · rfl
    rw [hkept]
    omega
  · exact .inr h.scanAt_sr

/-- The next `se`. -/
theorem Doomed.anyBad (h : Doomed i fields) (hname : (ascii "se=").isPrefixOf rest = true) :
    AnyBad (i + 1) (SasToken.scanAt i prev rest fields) := by
  rcases h with ⟨hstopped, hbefore⟩ | h
  · left
    simp only [SasToken.scanAt, hname, if_true]
    exact bad_startField hstopped hbefore (by omega)
  · exact .inr (.inl h.scanAt_sr)

/-- The value of `se` has started, and no other one can stop before it. -/
structure SeOpen (fields : Fields) : Prop where
  se : fields.se.isOpen = true
  sr : fields.sr.isOpen = false
  sig : fields.sig.isOpen = false

theorem SeOpen.scanAt (h : SeOpen fields) (hi : 2 ≤ i) :
    SeOpen (SasToken.scanAt i prev rest fields) ∨
      Doomed (i + 1) (SasToken.scanAt i prev rest fields) := by
  have hclosed : ∀ field : Field, ({ field with start := -1 } : Field).isOpen = false := by
    intro field
    rfl
  have hstop : ∀ stop, stopBefore i prev = some stop → 0 ≤ stop ∧ stop < (i + 1 : Nat) := by
    intro stop hstop
    unfold stopBefore at hstop
    split at hstop
    · cases hstop
      omega
    split at hstop
    · cases hstop
      omega
    · cases hstop
  unfold SasToken.scanAt
  split
  · left
    have hse := h.se
    simp only [startField, h.sr, h.sig, Bool.false_eq_true, if_false]
    refine ⟨?_, h.sr, h.sig⟩
    simp only [Field.isOpen, Bool.and_eq_true, decide_eq_true_eq] at hse ⊢
    exact ⟨by omega, hse.2⟩
  split
  · simp only [startField, h.se, if_true]
    cases hbefore : stopBefore i prev with
    | some stop => exact .inr (.inl (hstop stop hbefore))
    | none => exact .inl ⟨h.se, hclosed _, h.sig⟩
  split
  · simp only [startField, h.se, h.sr, if_true]
    cases hbefore : stopBefore i prev with
    | some stop => exact .inr (.inl (hstop stop hbefore))
    | none => exact .inl ⟨h.se, h.sr, hclosed _⟩
  · exact .inl h

/-- The next `sig` behind an ampersand. -/
theorem SeOpen.doomed (h : SeOpen fields) (hi : 2 ≤ i)
    (hse : (ascii "se=").isPrefixOf rest = false) (hsr : (ascii "sr=").isPrefixOf rest = false)
    (hsig : (ascii "sig=").isPrefixOf rest = true) :
    Doomed (i + 1) (SasToken.scanAt i 0x26 rest fields) := by
  left
  simp only [SasToken.scanAt, hse, hsr, hsig, startField, stopBefore, h.se, h.sr, if_true]
  have hend : (0 : Int) ≤ i - 2 ∧ (i : Int) - 2 < (i + 1 : Nat) := by omega
  simpa using hend

end

/-! ## The verdict -/

theorem intOfLength_of_lt {length : Nat} (h : length < 2 ^ 31) : intOfLength length = length := by
  unfold intOfLength
  rw [Int.bmod_eq_of_le]
  · omega
  · omega

/-- A length that does not fit into an `int`, but into 32 bits, is negative. -/
theorem intOfLength_of_ge {length : Nat} (h : 2 ^ 31 ≤ length) (h' : length < 2 ^ 32) :
    intOfLength length < 0 := by
  unfold intOfLength
  rw [Int.bmod_def]
  omega

theorem sasTokenValidate_of_large {token : Bytes} {allocated : Bool} {now : Int}
    (h : 2 ^ 31 ≤ token.length) (h' : token.length < 2 ^ 32) :
    sasTokenValidate token allocated now = false := by
  have hnegative := intOfLength_of_ge h h'
  have hrounds : (intOfLength token.length).toNat = 0 := by omega
  simp [sasTokenValidate, hrounds, scanFrom]

theorem sasTokenValidate_of_anyBad {token : Bytes} {allocated : Bool} {now : Int} {n : Nat}
    (h : AnyBad n (scanFrom (intOfLength token.length).toNat 0 0 token {})) :
    sasTokenValidate token allocated now = false := by
  simp only [sasTokenValidate]
  generalize scanFrom (intOfLength token.length).toNat 0 0 token {} = fields at h
  split
  · rfl
  rename_i hstarted
  simp only [Bool.or_eq_true, decide_eq_true_eq, not_or, not_lt] at hstarted
  -- A stop that is known is not replaced by the end of the token.
  have horder : (stopAtEnd (intOfLength token.length) fields).se.stop ≤ fields.se.start ∨
      (stopAtEnd (intOfLength token.length) fields).sr.stop ≤ fields.sr.start ∨
        (stopAtEnd (intOfLength token.length) fields).sig.stop ≤ fields.sig.start := by
    unfold stopAtEnd
    rcases h with h | h | h
    · have hstopped := h.stopped
      have horder := h.order
      left
      grind
    · have hstopped := h.stopped
      have horder := h.order
      right
      left
      grind
    · have hstopped := h.stopped
      have horder := h.order
      right
      right
      grind
  have hstarts : (stopAtEnd (intOfLength token.length) fields).se.start = fields.se.start ∧
      (stopAtEnd (intOfLength token.length) fields).sr.start = fields.sr.start ∧
        (stopAtEnd (intOfLength token.length) fields).sig.start = fields.sig.start := by
    unfold stopAtEnd
    grind
  generalize stopAtEnd (intOfLength token.length) fields = ended at *
  rcases hstarts with ⟨hse, hsr, hsig⟩
  rcases horder with horder | horder | horder
  · simp [hse, horder]
  · simp [hsr, horder]
  · simp [hsig, horder]

theorem sasTokenValidate_of_bad {token : Bytes} {allocated : Bool} {now : Int} {n : Nat}
    (hlength : token.length < 2 ^ 31) (h : AnyBad n (scanText 0 0 token {})) :
    sasTokenValidate token allocated now = false := by
  have hrounds : (intOfLength token.length).toNat = token.length := by
    rw [intOfLength_of_lt hlength]
    rfl
  apply sasTokenValidate_of_anyBad
  rw [hrounds]
  exact h

/-- Only the value of `se` is open at the end of the token. -/
theorem sasTokenValidate_of_fields {token : Bytes} (allocated : Bool) (now : Int)
    {seStart srStart srStop sigStart sigStop : Int} (hlength : token.length < 2 ^ 31)
    (hscan : scanText 0 0 token {} =
      { se := ⟨seStart, -1⟩, sr := ⟨srStart, srStop⟩, sig := ⟨sigStart, sigStop⟩ })
    (hse : 0 ≤ seStart ∧ seStart < token.length) (hsr : 0 ≤ srStart ∧ srStart < srStop)
    (hsig : 0 ≤ sigStart ∧ sigStart < sigStop) :
    sasTokenValidate token allocated now = true ↔ allocated = true ∧
      0 < getExpiryValue (expiryASCII token ⟨seStart, token.length⟩) ∧
        doubleOfTime now ≤ getExpiryValue (expiryASCII token ⟨seStart, token.length⟩) := by
  have hint : intOfLength token.length = token.length := intOfLength_of_lt hlength
  have hloop : scanFrom (token.length : Int).toNat 0 0 token {} =
      { se := ⟨seStart, -1⟩, sr := ⟨srStart, srStop⟩, sig := ⟨sigStart, sigStop⟩ } := by
    rw [Int.toNat_natCast]
    exact hscan
  have hstarted : (seStart < 0 || srStart < 0 || sigStart < 0) = false := by
    simp only [Bool.or_eq_false_iff, decide_eq_false_iff_not]
    omega
  have hended : stopAtEnd token.length
      { se := ⟨seStart, -1⟩, sr := ⟨srStart, srStop⟩, sig := ⟨sigStart, sigStop⟩ } =
      { se := ⟨seStart, token.length⟩, sr := ⟨srStart, srStop⟩, sig := ⟨sigStart, sigStop⟩ } := rfl
  have hordered : (token.length ≤ seStart || srStop ≤ srStart || sigStop ≤ sigStart) = false := by
    simp only [Bool.or_eq_false_iff, decide_eq_false_iff_not]
    omega
  simp only [sasTokenValidate, hint, hloop, hstarted, hended, hordered]
  generalize getExpiryValue (expiryASCII token ⟨seStart, token.length⟩) = expiry
  cases allocated with
  | false => simp
  | true =>
    simp only [Bool.false_eq_true, if_false, true_and, Bool.true_eq_false]
    split
    · simp
      omega
    split
    · simp
      omega
    · simp
      omega

end SharedUtility.SasToken
