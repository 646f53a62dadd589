import SharedUtility.Numerals

/-!
# Uuid — the text of a UUID, `uuid.c`

* `uuidFromString`, `uuidToString` — the code,
* `Layout` — 8-4-4-4-12 hexadecimal digits,
* `textFrom` — the text of the bytes from one position on,
* `decode_spec`, `decode_textFrom` — the loop on any text, and on the text of a UUID,
* `codec` — what is accepted, and that the two functions undo each other.
-/

namespace SharedUtility.Uuid

/-- `unsigned char[16]`. -/
structure UUID where
  bytes : Bytes
  size : bytes.length = 16
deriving DecidableEq

theorem UUID.ext {uuid uuid' : UUID} (h : uuid.bytes = uuid'.bytes) : uuid = uuid' := by
  cases uuid
  cases uuid'
  cases h
  rfl

/-! ## The code -/

def uuidStringLength : Nat := 36

def hexaDigitVal (c : UInt8) : Int :=
  if 0x30 ≤ c ∧ c ≤ 0x39 then (c.toNat : Int) - 0x30
  else if 0x61 ≤ c ∧ c ≤ 0x66 then (c.toNat : Int) - 0x61 + 10
  else if 0x41 ≤ c ∧ c ≤ 0x46 then (c.toNat : Int) - 0x41 + 10
  else -1

/-- `i == 8 || i == 13 || i == 18 || i == 23`. -/
def mustBeDash (i : Nat) : Bool :=
  i == 8 || i == 13 || i == 18 || i == 23

/-- `uuid_bytes[j] = value`; there is nothing behind the sixteen bytes. -/
def UUID.store (uuid : UUID) (j : Nat) (value : UInt8) : Option UUID :=
  if j < 16 then some { bytes := uuid.bytes.set j value, size := by rw [List.length_set, uuid.size] }
  else none

/-- The loop of `UUID_from_string` on what is left of the text: the result and the UUID, or `none` if it
writes behind the UUID. -/
def decode : (text : Bytes) → (i j : Nat) → UUID → Option (Int × UUID)
  | [], _, _, uuid => some (0, uuid)
  | c :: text, i, j, uuid =>
    if (c == 0x2D) ≠ mustBeDash i then some (failure, uuid)
    else if c = 0x2D then decode text (i + 1) j uuid
    else
      match text with
      | [] => some (failure, uuid) -- the second digit is the NUL
      | d :: text =>
        if hexaDigitVal c = -1 ∨ hexaDigitVal d = -1 then some (failure, uuid)
        else
          match uuid.store j (UInt8.ofInt (hexaDigitVal c * 16 + hexaDigitVal d)) with
          | none => none
          | some uuid => decode text (i + 2) (j + 1) uuid

/-- `UUID_from_string`: the result, and the UUID behind the second argument. -/
def uuidFromString (uuidString : Option Bytes) (uuid : Option UUID) : Option (Int × Option UUID) :=
  match uuidString, uuid with
  | some uuidString, some uuid =>
    if uuidString.length ≠ uuidStringLength then some (failure, some uuid)
    else (decode uuidString 0 0 uuid).map fun r => (r.1, some r.2)
  | _, _ => some (failure, uuid)

def uuidFormatString : Bytes :=
  ascii "%02x%02x%02x%02x-%02x%02x-%02x%02x-%02x%02x-%02x%02x%02x%02x%02x%02x"

def hexChar (nibble : Nat) : UInt8 :=
  if nibble < 10 then UInt8.ofNat (0x30 + nibble) else UInt8.ofNat (0x61 + (nibble - 10))

/-- What `%02x` writes for an `unsigned char`. -/
def hexPair (b : UInt8) : Bytes :=
  [hexChar (b.toNat / 16), hexChar (b.toNat % 16)]

/-- `sprintf` with a format whose only conversion is `%02x`. -/
def sprintf : (format : Bytes) → (args : Bytes) → Bytes
  | 0x25 :: 0x30 :: 0x32 :: 0x78 :: format, b :: args => hexPair b ++ sprintf format args
  | c :: format, args => c :: sprintf format args
  | [], _ => []

/-- `UUID_to_string`; `allocated` is whether its `malloc` succeeds. -/
def uuidToString (uuid : Option UUID) (allocated : Bool) : Option Bytes :=
  match uuid with
  | none => none
  | some uuid =>
    if allocated then
      let result := sprintf uuidFormatString uuid.bytes
      if result.length ≠ uuidStringLength then none else some result
    else none

/-! ## The layout of the text -/

/-- `'A'` to `'Z'` in lower case. -/
def lowerCase (c : UInt8) : UInt8 :=
  if 0x41 ≤ c ∧ c ≤ 0x5A then c + 0x20 else c

/-- A run of hexadecimal digits of either case. -/
def HexRun (n : Nat) (text : Bytes) : Prop :=
  text.length = n ∧ ∀ c ∈ text, isDigitOf 16 c = true

/-- 8-4-4-4-12 hexadecimal digits. -/
def Layout (text : Bytes) : Prop :=
  ∃ timeLow timeMid timeHigh clock node : Bytes,
    HexRun 8 timeLow ∧ HexRun 4 timeMid ∧ HexRun 4 timeHigh ∧ HexRun 4 clock ∧ HexRun 12 node ∧
    text = timeLow ++ 0x2D :: (timeMid ++ 0x2D :: (timeHigh ++ 0x2D :: (clock ++ 0x2D :: node)))

/-- What may stand at position `i`. -/
def fits (i : Nat) (c : UInt8) : Bool :=
  if mustBeDash i then c == 0x2D else isDigitOf 16 c

/-- What may stand from position `i` on. -/
def fitsFrom : (i : Nat) → (text : Bytes) → Bool
  | _, [] => true
  | i, c :: text => fits i c && fitsFrom (i + 1) text

/-- The text of the bytes that stand from position `i` on. -/
def textFrom : (i : Nat) → (bytes : Bytes) → Bytes
  | _, [] => []
  | i, b :: bytes =>
    if mustBeDash i then 0x2D :: (hexPair b ++ textFrom (i + 3) bytes)
    else hexPair b ++ textFrom (i + 2) bytes

/-- How many dashes stand in front of position `i`. -/
def dashesBefore : (i : Nat) → Nat
  | 0 => 0
  | i + 1 => dashesBefore i + (mustBeDash i).toNat

/-- `i` and `j` are at the same place of the text and of the UUID. -/
def InStep (i j : Nat) : Prop :=
  2 * j + dashesBefore i = i

/-! ## Digits -/

set_option maxRecDepth 8000 in
theorem hexaDigitVal_eq_neg (c : UInt8) : hexaDigitVal c = -1 ↔ isDigitOf 16 c = false := by
  revert c
  apply byte_forall
  decide

set_option maxRecDepth 8000 in
theorem hexaDigitVal_digit (c : UInt8) (h : isDigitOf 16 c = true) :
    hexaDigitVal c = ((digitValue c).getD 0 : Nat) ∧ (digitValue c).getD 0 < 16 ∧
      hexChar ((digitValue c).getD 0) = lowerCase c := by
  revert c
  apply byte_forall
  decide

theorem hexChar_digit : ∀ nibble < 16, isDigitOf 16 (hexChar nibble) = true ∧
    hexaDigitVal (hexChar nibble) = nibble ∧ lowerCase (hexChar nibble) = hexChar nibble := by
  decide

theorem ofInt_nibbles {high low : Nat} (hhigh : high < 16) (hlow : low < 16) :
    (UInt8.ofInt ((high : Int) * 16 + low)).toNat = high * 16 + low := by
  rw [UInt8.ofInt, UInt8.toNat_ofNat']
  omega

theorem hexPair_ofInt {c d : UInt8} (hc : isDigitOf 16 c = true) (hd : isDigitOf 16 d = true) :
    hexPair (UInt8.ofInt (hexaDigitVal c * 16 + hexaDigitVal d)) = [lowerCase c, lowerCase d] := by
  rcases hexaDigitVal_digit c hc with ⟨hcVal, hcLt, hcChar⟩
  rcases hexaDigitVal_digit d hd with ⟨hdVal, hdLt, hdChar⟩
  have hvalue := ofInt_nibbles hcLt hdLt
  rw [hexPair, hcVal, hdVal, hvalue, ← hcChar, ← hdChar]
  congr
  · omega
  · omega

theorem ofInt_hexChars (b : UInt8) :
    UInt8.ofInt (hexaDigitVal (hexChar (b.toNat / 16)) * 16 + hexaDigitVal (hexChar (b.toNat % 16))) = b := by
  have hb := b.toNat_lt
  rw [(hexChar_digit (b.toNat / 16) (by omega)).2.1, (hexChar_digit (b.toNat % 16) (by omega)).2.1]
  apply UInt8.toNat_inj.1
  rw [ofInt_nibbles (by omega) (by omega)]
  omega

/-! ## The loop -/

section

variable {i j : Nat} {uuid : UUID}

theorem inStep_zero : InStep 0 0 := rfl

theorem InStep.lt (h : InStep i j) (hi : i < 36) : j < 16 := by
  have hdashes : ∀ i < 36, i < dashesBefore i + 32 := by decide
  have hi' := hdashes i hi
  unfold InStep at h
  omega

theorem InStep.atEnd (h : InStep 36 j) : j = 16 := by
  have hdashes : 2 * j + 4 = 36 := h
  omega

theorem not_mustBeDash_succ (hdash : mustBeDash i = true) : mustBeDash (i + 1) = false := by
  simp only [mustBeDash, Bool.or_eq_true, beq_iff_eq, or_assoc] at hdash
  rcases hdash with rfl | rfl | rfl | rfl <;> rfl

theorem InStep.dash (h : InStep i j) (hdash : mustBeDash i = true) : InStep (i + 1) j := by
  unfold InStep at *
  rw [dashesBefore, hdash, Bool.toNat_true]
  omega

theorem InStep.pair (h : InStep i j) (hdash : mustBeDash i = false) :
    mustBeDash (i + 1) = false ∧ InStep (i + 2) (j + 1) := by
  unfold InStep at *
  have hnext : mustBeDash (i + 1) = false := by
    cases hnext : mustBeDash (i + 1) with
    | false => rfl
    | true =>
      -- the four dashes stand behind an even number of digits
      simp only [mustBeDash, Bool.or_eq_true, beq_iff_eq, or_assoc] at hnext
      rcases hnext with hi | hi | hi | hi
      all_goals
        obtain rfl := Nat.succ.inj hi
        exact absurd h (by simp only [dashesBefore, mustBeDash]; simp; omega)
  refine ⟨hnext, ?_⟩
  rw [dashesBefore, dashesBefore, hnext, hdash, Bool.toNat_false]
  omega

theorem UUID.store_eq (uuid : UUID) (value : UInt8) (hj : j < 16) :
    ∃ uuid', uuid.store j value = some uuid' ∧ uuid'.bytes = uuid.bytes.set j value :=
  ⟨_, if_pos hj, rfl⟩

theorem decode_wrong {c : UInt8} {text : Bytes} (hwrong : (c == 0x2D) ≠ mustBeDash i) :
    decode (c :: text) i j uuid = some (failure, uuid) := by
  unfold decode
  exact if_pos hwrong

theorem decode_dash {text : Bytes} (hdash : mustBeDash i = true) :
    decode (0x2D :: text) i j uuid = decode text (i + 1) j uuid := by
  rw [decode.eq_def]
  dsimp only
  rw [hdash, if_neg fun hne => hne rfl, if_pos rfl]

theorem textFrom_dash {bytes : Bytes} (hdash : mustBeDash i = true) (hbytes : bytes ≠ []) :
    textFrom i bytes = 0x2D :: textFrom (i + 1) bytes := by
  cases bytes with
  | nil => exact absurd rfl hbytes
  | cons b bytes =>
    rw [textFrom, textFrom, if_pos hdash, not_mustBeDash_succ hdash]
    rfl

/-- The result of the loop: it accepts what fits; the bytes in front of `j` stay, and the text of the others is
the one that was read, in lower case. -/
def Decoded (text : Bytes) (i j : Nat) (uuid : UUID) (result : Option (Int × UUID)) : Prop :=
  ∃ code uuid', result = some (code, uuid') ∧ (code = 0 ↔ fitsFrom i text = true) ∧
    (code = 0 → uuid'.bytes.take j = uuid.bytes.take j ∧
      textFrom i (uuid'.bytes.drop j) = text.map lowerCase)

theorem Decoded.refused {text : Bytes} (h : fitsFrom i text = false) :
    Decoded text i j uuid (some (failure, uuid)) :=
  ⟨failure, uuid, rfl, iff_of_false failure_ne_zero (Bool.eq_false_iff.1 h),
    fun hcode => absurd hcode failure_ne_zero⟩

theorem Decoded.dash {text : Bytes} {result : Option (Int × UUID)} (hstep : InStep i j) (hi : i < 36)
    (hdash : mustBeDash i = true) (h : Decoded text (i + 1) j uuid result) :
    Decoded (0x2D :: text) i j uuid result := by
  rcases h with ⟨code, uuid', hresult, hiff, hread⟩
  refine ⟨code, uuid', hresult, ?_, fun hcode => ⟨(hread hcode).1, ?_⟩⟩
  · rw [hiff, fitsFrom, fits, if_pos hdash]
    rfl
  · have hbytes : uuid'.bytes.drop j ≠ [] := by
      intro hnil
      have hsize := List.drop_eq_nil_iff.1 hnil
      have hlt := hstep.lt hi
      rw [uuid'.size] at hsize
      omega
    rw [textFrom_dash hdash hbytes, (hread hcode).2]
    rfl

theorem Decoded.pair {text : Bytes} {result : Option (Int × UUID)} {c d : UInt8} {uuid₁ : UUID}
    (hstep : InStep i j) (hi : i < 36) (hdash : mustBeDash i = false)
    (hc : isDigitOf 16 c = true) (hd : isDigitOf 16 d = true)
    (hstore : uuid₁.bytes = uuid.bytes.set j (UInt8.ofInt (hexaDigitVal c * 16 + hexaDigitVal d)))
    (h : Decoded text (i + 2) (j + 1) uuid₁ result) : Decoded (c :: d :: text) i j uuid result := by
  rcases h with ⟨code, uuid', hresult, hiff, hread⟩
  have hlt : j < uuid.bytes.length := by rw [uuid.size]; exact hstep.lt hi
  have hlt' : j < uuid'.bytes.length := by rw [uuid'.size]; exact hstep.lt hi
  refine ⟨code, uuid', hresult, ?_, fun hcode => ?_⟩
  · rw [hiff, fitsFrom, fitsFrom, fits, fits, hdash, (hstep.pair hdash).1, hc, hd]
    rfl
  · rcases hread hcode with ⟨htake, htext⟩
    rw [hstore] at htake
    have hbyte : uuid'.bytes[j] = UInt8.ofInt (hexaDigitVal c * 16 + hexaDigitVal d) := by
      have hget := congrArg (fun bytes => bytes[j]?) htake
      simp only [List.getElem?_take, Nat.lt_succ_self, if_true, List.getElem?_set_self hlt,
        List.getElem?_eq_getElem hlt'] at hget
      exact Option.some.inj hget
    constructor
    · have hprefix := congrArg (List.take j) htake
      rwa [List.take_take, List.take_take, Nat.min_eq_left (Nat.le_succ j),
        List.take_set_of_le (Nat.le_refl j)] at hprefix
    · rw [List.drop_eq_getElem_cons hlt', textFrom, hdash, hbyte, htext, hexPair_ofInt hc hd]
      rfl

theorem decode_spec (text : Bytes) (i j : Nat) (uuid : UUID) (hstep : InStep i j)
    (hlen : i + text.length = 36) : Decoded text i j uuid (decode text i j uuid) := by
  induction text, i, j, uuid using decode.induct with
  | case1 i j uuid =>
    obtain rfl : i = 36 := hlen
    obtain rfl := hstep.atEnd
    refine ⟨0, uuid, rfl, ⟨fun _ => rfl, fun _ => rfl⟩, fun _ => ⟨rfl, ?_⟩⟩
    rw [List.drop_of_length_le (Nat.le_of_eq uuid.size)]
    rfl
  | case2 c text i j uuid hwrong =>
    rw [decode_wrong hwrong]
    apply Decoded.refused
    rw [fitsFrom, fits]
    cases hdash : mustBeDash i with
    | true =>
      rw [hdash] at hwrong
      rw [if_pos rfl, Bool.eq_false_iff.2 hwrong, Bool.false_and]
    | false =>
      rw [hdash] at hwrong
      rw [eq_of_beq (Bool.of_not_eq_false hwrong)]
      rfl
  | case3 text i j uuid hright ih =>
    have hdash : mustBeDash i = true := (not_not.1 hright).symm
    rw [List.length_cons] at hlen
    rw [decode_dash hdash]
    exact (ih (hstep.dash hdash) (by omega)).dash hstep (by omega) hdash
  | case4 c i j uuid hright hc =>
    have hdash : mustBeDash i = false := by rw [← not_not.1 hright, beq_eq_false_iff_ne]; exact hc
    have hstep' := hstep.pair hdash
    -- the text cannot end between two digits
    exfalso
    obtain rfl : i = 35 := by rw [List.length_singleton] at hlen; omega
    unfold InStep at hstep
    rw [show dashesBefore 35 = 4 from rfl] at hstep
    omega
  | case5 c i j uuid hright hc d text hdigits =>
    have hdash : mustBeDash i = false := by rw [← not_not.1 hright, beq_eq_false_iff_ne]; exact hc
    rw [decode, if_neg hright, if_neg hc, if_pos hdigits]
    apply Decoded.refused
    rw [fitsFrom, fitsFrom, fits, fits, hdash, (hstep.pair hdash).1]
    rcases hdigits with hdigit | hdigit
    · rw [(hexaDigitVal_eq_neg c).1 hdigit]
      rfl
    · rw [(hexaDigitVal_eq_neg d).1 hdigit]
      exact Bool.and_false _
  | case6 c i j uuid hright hc d text hdigits hstore =>
    rcases uuid.store_eq _ (hstep.lt (by rw [List.length_cons] at hlen; omega)) with
      ⟨uuid', huuid', _⟩
    rw [huuid'] at hstore
    cases hstore
  | case7 c i j uuid hright hc d text hdigits uuid₁ hstore ih =>
    have hdash : mustBeDash i = false := by rw [← not_not.1 hright, beq_eq_false_iff_ne]; exact hc
    rw [List.length_cons, List.length_cons] at hlen
    rcases not_or.1 hdigits with ⟨hcVal, hdVal⟩
    rcases uuid.store_eq _ (hstep.lt (by omega)) with ⟨uuid', huuid', hbytes⟩
    obtain rfl : uuid' = uuid₁ := Option.some.inj (huuid'.symm.trans hstore)
    rw [decode, if_neg hright, if_neg hc, if_neg hdigits, hstore]
    exact (ih (hstep.pair hdash).2 (by omega)).pair hstep (by omega) hdash
      (Bool.of_not_eq_false fun h => hcVal ((hexaDigitVal_eq_neg c).2 h))
      (Bool.of_not_eq_false fun h => hdVal ((hexaDigitVal_eq_neg d).2 h)) hbytes

theorem decode_hexPair (uuid : UUID) (text : Bytes) (b : UInt8) (hdash : mustBeDash i = false) (hj : j < 16) :
    ∃ uuid', decode (hexPair b ++ text) i j uuid = decode text (i + 2) (j + 1) uuid' ∧
      uuid'.bytes = uuid.bytes.set j b := by
  have hb := b.toNat_lt
  have hhigh := hexChar_digit (b.toNat / 16) (by omega)
  have hlow := hexChar_digit (b.toNat % 16) (by omega)
  rcases uuid.store_eq b hj with ⟨uuid', hstore, hbytes⟩
  refine ⟨uuid', ?_, hbytes⟩
  have hnotDash : hexChar (b.toNat / 16) ≠ 0x2D := by
    intro heq
    rw [heq] at hhigh
    cases hhigh.1
  have hdigits :
      ¬ (hexaDigitVal (hexChar (b.toNat / 16)) = -1 ∨ hexaDigitVal (hexChar (b.toNat % 16)) = -1) := by
    rw [hhigh.2.1, hlow.2.1]
    omega
  rw [hexPair, List.cons_append, List.singleton_append, decode, hdash, beq_eq_false_iff_ne.2 hnotDash,
    if_neg (not_not.2 rfl), if_neg hnotDash, if_neg hdigits, ofInt_hexChars, hstore]

/-- The text of the bytes from `j` on is read as these bytes. -/
theorem decode_textFrom (bytes : Bytes) (i j : Nat) (uuid : UUID) (hstep : InStep i j)
    (hlen : j + bytes.length = 16) :
    ∃ uuid', decode (textFrom i bytes) i j uuid = some (0, uuid') ∧
      uuid'.bytes = uuid.bytes.take j ++ bytes := by
  induction bytes generalizing i j uuid with
  | nil =>
    refine ⟨uuid, rfl, ?_⟩
    rw [List.append_nil, List.take_of_length_le (by rw [uuid.size]; exact Nat.le_of_eq hlen.symm)]
  | cons b bytes ih =>
    rw [List.length_cons] at hlen
    -- the byte itself, whether a dash is in front of it or not
    have hbyte : ∀ i, InStep i j → mustBeDash i = false →
        ∃ uuid', decode (hexPair b ++ textFrom (i + 2) bytes) i j uuid = some (0, uuid') ∧
          uuid'.bytes = uuid.bytes.take j ++ b :: bytes := by
      intro i hstep hdash
      rcases decode_hexPair uuid (textFrom (i + 2) bytes) b hdash (j := j) (by omega) with
        ⟨uuid₁, hread, hbytes₁⟩
      rcases ih (i + 2) (j + 1) uuid₁ (hstep.pair hdash).2 (by omega) with ⟨uuid', hread', hbytes'⟩
      refine ⟨uuid', hread.trans hread', ?_⟩
      have hlt : j < uuid.bytes.length := by rw [uuid.size]; omega
      rw [hbytes', hbytes₁, List.take_succ_eq_append_getElem (by rwa [List.length_set]),
        List.take_set_of_le (Nat.le_refl j), List.getElem_set_self, List.append_assoc, List.singleton_append]
    cases hdash : mustBeDash i with
    | false =>
      rw [textFrom, hdash, if_neg Bool.false_ne_true]
      exact hbyte i hstep hdash
    | true =>
      rw [textFrom, if_pos hdash, decode_dash hdash]
      exact hbyte (i + 1) (hstep.dash hdash) (not_mustBeDash_succ hdash)

end

/-! ## The blocks of the text -/

theorem HexRun.cons {n : Nat} {c : UInt8} {block : Bytes} (hc : isDigitOf 16 c = true) (h : HexRun n block) :
    HexRun (n + 1) (c :: block) :=
  ⟨congrArg (· + 1) h.1, List.forall_mem_cons.2 ⟨hc, h.2⟩⟩

theorem fitsFrom_digit {i : Nat} {c : UInt8} {text : Bytes} (hdash : mustBeDash i = false) :
    fitsFrom i (c :: text) = true ↔ isDigitOf 16 c = true ∧ fitsFrom (i + 1) text = true := by
  rw [fitsFrom, fits, hdash, Bool.and_eq_true]
  rfl

theorem fitsFrom_block (n : Nat) {i : Nat} {text : Bytes} (hrun : ∀ k < n, mustBeDash (i + k) = false)
    (hdash : mustBeDash (i + n) = true) (hlen : n < text.length) :
    fitsFrom i text = true ↔
      ∃ block rest, HexRun n block ∧ text = block ++ 0x2D :: rest ∧ fitsFrom (i + n + 1) rest = true := by
  induction n generalizing i text with
  | zero =>
    cases text with
    | nil => cases hlen
    | cons c text =>
      rw [fitsFrom, fits, if_pos (show mustBeDash i = true from hdash), Bool.and_eq_true, beq_iff_eq]
      constructor
      · rintro ⟨rfl, hrest⟩
        exact ⟨[], text, ⟨rfl, List.forall_mem_nil _⟩, rfl, hrest⟩
      · rintro ⟨block, rest, ⟨hnil, _⟩, htext, hrest⟩
        obtain rfl := List.length_eq_zero_iff.1 hnil
        obtain ⟨rfl, rfl⟩ := List.cons.inj htext
        exact ⟨rfl, hrest⟩
  | succ n ih =>
    cases text with
    | nil => cases hlen
    | cons c text =>
      have hmore := @ih (i + 1) text
        (fun k hk => by rw [Nat.add_assoc, Nat.add_comm 1]; exact hrun (k + 1) (Nat.succ_lt_succ hk))
        (by rwa [Nat.add_assoc, Nat.add_comm 1]) (Nat.lt_of_succ_lt_succ hlen)
      rw [Nat.add_assoc i 1 n, Nat.add_comm 1 n] at hmore
      have hhere : mustBeDash i = false := hrun 0 (Nat.succ_pos n)
      rw [fitsFrom_digit hhere, hmore]
      constructor
      · rintro ⟨hc, block, rest, hblock, rfl, hrest⟩
        exact ⟨c :: block, rest, hblock.cons hc, rfl, hrest⟩
      · rintro ⟨block, rest, ⟨hsize, hdigits⟩, htext, hrest⟩
        cases block with
        | nil => cases hsize
        | cons d block =>
          obtain ⟨rfl, rfl⟩ := List.cons.inj htext
          rcases List.forall_mem_cons.1 hdigits with ⟨hc, hdigits⟩
          exact ⟨hc, block, rest, ⟨Nat.succ.inj hsize, hdigits⟩, rfl, hrest⟩

theorem fitsFrom_last {i : Nat} {text : Bytes} (hi : 24 ≤ i) :
    fitsFrom i text = true ↔ ∀ c ∈ text, isDigitOf 16 c = true := by
  induction text generalizing i with
  | nil => exact iff_of_true rfl (List.forall_mem_nil _)
  | cons c text ih =>
    have hdash : mustBeDash i = false := by
      simp only [mustBeDash, Bool.or_eq_false_iff, beq_eq_false_iff_ne]
      omega
    rw [fitsFrom_digit hdash, ih (by omega), List.forall_mem_cons]

theorem layout_iff (text : Bytes) : Layout text ↔ text.length = 36 ∧ fitsFrom 0 text = true := by
  constructor
  · rintro ⟨a, b, c, d, e, ha, hb, hc, hd, he, rfl⟩
    have hlen : (a ++ 0x2D :: (b ++ 0x2D :: (c ++ 0x2D :: (d ++ 0x2D :: e)))).length = 36 := by
      simp only [List.length_append, List.length_cons, ha.1, hb.1, hc.1, hd.1, he.1]
    refine ⟨hlen, ?_⟩
    simp only [List.length_append, List.length_cons, ha.1, hb.1, hc.1, hd.1] at hlen
    rw [fitsFrom_block 8 (by decide) rfl]
    refine ⟨a, _, ha, rfl, ?_⟩
    rw [fitsFrom_block 4 (by decide) rfl]
    refine ⟨b, _, hb, rfl, ?_⟩
    rw [fitsFrom_block 4 (by decide) rfl]
    refine ⟨c, _, hc, rfl, ?_⟩
    rw [fitsFrom_block 4 (by decide) rfl]
    refine ⟨d, _, hd, rfl, ?_⟩
    · exact (fitsFrom_last (by decide)).2 he.2
    all_goals
      simp only [List.length_append, List.length_cons, ha.1, hb.1, hc.1, hd.1]
      omega
  · rintro ⟨hlen, hfits⟩
    rcases (fitsFrom_block 8 (by decide) rfl (by omega)).1 hfits with ⟨a, text, ha, rfl, hbehindA⟩
    rw [List.length_append, List.length_cons, ha.1] at hlen
    rcases (fitsFrom_block 4 (i := 9) (by decide) rfl (by omega)).1 hbehindA with ⟨b, text, hb, rfl, hbehindB⟩
    rw [List.length_append, List.length_cons, hb.1] at hlen
    rcases (fitsFrom_block 4 (i := 14) (by decide) rfl (by omega)).1 hbehindB with
      ⟨c, text, hc, rfl, hbehindC⟩
    rw [List.length_append, List.length_cons, hc.1] at hlen
    rcases (fitsFrom_block 4 (i := 19) (by decide) rfl (by omega)).1 hbehindC with
      ⟨d, text, hd, rfl, hbehindD⟩
    rw [List.length_append, List.length_cons, hd.1] at hlen
    exact ⟨a, b, c, d, text, ha, hb, hc, hd, ⟨by omega, (fitsFrom_last (by decide)).1 hbehindD⟩, rfl⟩

/-! ## The two functions -/

theorem sprintf_eq (uuid : UUID) : sprintf uuidFormatString uuid.bytes = textFrom 0 uuid.bytes := by
  rcases uuid with ⟨bytes, size⟩
  match bytes, size with
  | [_, _, _, _, _, _, _, _, _, _, _, _, _, _, _, _], _ => rfl

theorem textFrom_length (bytes : Bytes) (size : bytes.length = 16) : (textFrom 0 bytes).length = 36 := by
  match bytes, size with
  | [_, _, _, _, _, _, _, _, _, _, _, _, _, _, _, _], _ => rfl

theorem uuidToString_eq (uuid : UUID) : uuidToString (some uuid) true = some (textFrom 0 uuid.bytes) := by
  rw [uuidToString]
  dsimp only
  rw [if_pos rfl, sprintf_eq, textFrom_length uuid.bytes uuid.size]
  rfl

/-- A text is accepted exactly in the 8-4-4-4-12 layout and is then the text of the UUID but for the case of its
letters; a UUID is read back from its text. What is refused may overwrite the UUID, and never what is behind. -/
theorem codec (text : Bytes) (uuid old : UUID) :
    (∃ code uuid', uuidFromString (some text) (some old) = some (code, some uuid') ∧
      (code = 0 ↔ Layout text) ∧
      (code = 0 → uuidToString (some uuid') true = some (text.map lowerCase))) ∧
    ∃ printed, uuidToString (some uuid) true = some printed ∧
      uuidFromString (some printed) (some old) = some (0, some uuid) := by
  constructor
  · by_cases hlen : text.length = 36
    case neg =>
      refine ⟨failure, old, if_pos hlen, iff_of_false failure_ne_zero fun h => hlen ((layout_iff text).1 h).1,
        fun h => absurd h failure_ne_zero⟩
    case pos =>
      rcases decode_spec text 0 0 old inStep_zero (by rw [hlen]) with ⟨code, uuid', hresult, hiff, hread⟩
      refine ⟨code, uuid', ?_, ?_, fun hcode => ?_⟩
      · rw [uuidFromString, if_neg fun hne => hne hlen, hresult]
        rfl
      · rw [hiff, layout_iff]
        exact ⟨fun h => ⟨hlen, h⟩, And.right⟩
      · rw [uuidToString_eq]
        exact congrArg some (hread hcode).2
  · refine ⟨_, uuidToString_eq uuid, ?_⟩
    rcases decode_textFrom uuid.bytes 0 0 old inStep_zero (by rw [uuid.size]) with ⟨uuid', hresult, hbytes⟩
    obtain rfl : uuid' = uuid := UUID.ext hbytes
    rw [uuidFromString, if_neg fun hne => hne (textFrom_length _ uuid'.size), hresult]
    rfl

end SharedUtility.Uuid
