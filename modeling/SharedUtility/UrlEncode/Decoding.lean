import SharedUtility.Numerals
import SharedUtility.UrlEncode.Code

/-!
# UrlEncode.Decoding — which texts are decoded, and what of them is lost

* `Piece` — a character that stands for itself, or a complete triple for a character below 0x80,
* `Spells` — a text is made of pieces,
* `urlDecodeString_of_spells`, `urlDecodeString_of_not_spells`: exactly these texts are decoded,
* `urlDecode_exact_iff`: the decoded text has all the characters that were counted if and only if none of the
  pieces is `%00`, whose character ends the string.
-/

namespace SharedUtility.UrlEncode

open Memory

/-! ## Pieces -/

inductive Piece
  | plain (c : UInt8)
  | triple (big little : UInt8)

namespace Piece

def text : Piece → Bytes
  | plain c => [c]
  | triple big little => [0x25, big, little]

def value (big little : UInt8) : Nat :=
  valueOf 16 [big, little]

/-- The character that is meant. -/
def char : Piece → UInt8
  | plain c => c
  | triple big little => UInt8.ofNat (value big little)

/-- The encoder leaves the character as it is, or the triple is hexadecimal and denotes a byte below 0x80. -/
def Valid : Piece → Prop
  | plain c => isPrintable c = true
  | triple big little => isDigitOf 16 big = true ∧ isDigitOf 16 little = true ∧ value big little < 0x80

end Piece

def Spells (pieces : List Piece) (text : Bytes) : Prop :=
  text = pieces.flatMap Piece.text ∧ ∀ piece ∈ pieces, piece.Valid

/-- Some triple is `%00`. -/
def HasNul (text : Bytes) : Prop :=
  ∃ pieces, Spells pieces text ∧ .triple 0x30 0x30 ∈ pieces

/-! ## Digits -/

set_option maxRecDepth 8000 in
theorem isHexDigit_eq (c : UInt8) : isHexDigit c = isDigitOf 16 c := by
  revert c
  apply byte_forall
  decide

set_option maxRecDepth 8000 in
theorem isInAsciiRange_iff (c : UInt8) (h : isDigitOf 16 c = true) :
    isInAsciiRange c = true ↔ (digitValue c).getD 0 < 8 := by
  revert c
  apply byte_forall
  decide

set_option maxRecDepth 8000 in
theorem nibbleFromString_eq (c : UInt8) (h : isDigitOf 16 c = true) :
    nibbleFromString c = UInt8.ofNat ((digitValue c).getD 0) ∧ (digitValue c).getD 0 < 16 := by
  revert c
  apply byte_forall
  decide

set_option maxRecDepth 8000 in
theorem digit_zero (c : UInt8) (h : isDigitOf 16 c = true) : (digitValue c).getD 0 = 0 → c = 0x30 := by
  revert c
  apply byte_forall
  decide

set_option maxRecDepth 8000 in
theorem isPrintable_ne_percent (c : UInt8) (h : isPrintable c = true) : c ≠ 0x25 := by
  revert c
  apply byte_forall
  decide

theorem value_eq (big little : UInt8) :
    Piece.value big little = (digitValue big).getD 0 * 16 + (digitValue little).getD 0 := by
  rw [Piece.value, valueOf, valueFrom_cons, valueFrom_cons, valueFrom_nil, Nat.zero_mul, Nat.zero_add]

theorem isInAsciiRange_value {big little : UInt8} (hbig : isDigitOf 16 big = true)
    (hlittle : isDigitOf 16 little = true) :
    isInAsciiRange big = true ↔ Piece.value big little < 0x80 := by
  have hlow := (nibbleFromString_eq little hlittle).2
  rw [isInAsciiRange_iff big hbig, value_eq]
  omega

theorem charFromNibbles_eq {big little : UInt8} (hbig : isDigitOf 16 big = true)
    (hlittle : isDigitOf 16 little = true) :
    charFromNibbles big little = (Piece.triple big little).char := by
  obtain ⟨hbigNibble, hbigValue⟩ := nibbleFromString_eq big hbig
  obtain ⟨hlittleNibble, hlittleValue⟩ := nibbleFromString_eq little hlittle
  apply UInt8.toNat_inj.1
  rw [charFromNibbles, hbigNibble, hlittleNibble, Piece.char, value_eq]
  generalize (digitValue big).getD 0 = m at hbigValue ⊢
  generalize (digitValue little).getD 0 = n at hlittleValue ⊢
  have hpow : 2 ^ 4 = 16 := by decide
  have hshift : (UInt8.ofNat m <<< 4).toNat = m * 16 := by
    rw [toNat_shiftLeft (i := 4) _ rfl (by decide), hpow, UInt8.toNat_ofNat', Nat.mod_eq_of_lt (by omega),
      Nat.mod_eq_of_lt (by omega)]
  have hlow : (UInt8.ofNat n).toNat = n := by
    rw [UInt8.toNat_ofNat', Nat.mod_eq_of_lt (by omega)]
  rw [toNat_or_of_lt (i := 4) (by rw [hshift]; exact Nat.dvd_mul_left _ _) (by rw [hlow]; exact hlittleValue),
    hshift, hlow, UInt8.toNat_ofNat', Nat.mod_eq_of_lt (by omega)]

/-! ## The loops on pieces -/

theorem decodedSize_plain {c : UInt8} (hc : c ≠ 0x25) (text : Bytes) (size : Nat) :
    decodedSize (c :: text) size =
      if isPrintable c = false then none else decodedSize text (size + 1) := by
  rw [decodedSize.eq_def]
  exact if_neg hc

theorem createDecodedString_plain {c : UInt8} (hc : c ≠ 0x25) (text : Bytes) (output : Block UInt8) :
    createDecodedString (c :: text) output = (output.put c).bind (createDecodedString text) := by
  rw [createDecodedString.eq_def]
  exact if_pos hc

theorem decodedSize_pieces {pieces : List Piece} (h : ∀ piece ∈ pieces, piece.Valid) (size : Nat) :
    decodedSize (pieces.flatMap Piece.text) size = some (size + pieces.length) := by
  induction pieces generalizing size with
  | nil => rfl
  | cons piece pieces ih =>
    have hpiece := h piece (List.mem_cons_self ..)
    have hrest := ih (fun piece hmem => h piece (List.mem_cons_of_mem _ hmem)) (size + 1)
    rw [List.flatMap_cons, List.length_cons]
    cases piece with
    | plain c =>
      have hprintable : isPrintable c = true := hpiece
      have hnot : ¬ isPrintable c = false := by rw [hprintable]; decide
      rw [Piece.text, List.singleton_append, decodedSize_plain (isPrintable_ne_percent c hprintable),
        if_neg hnot, hrest, Nat.add_assoc, Nat.add_comm 1]
    | triple big little =>
      obtain ⟨hbig, hlittle, hvalue⟩ := hpiece
      have hdigits : ¬ (isHexDigit big = false ∨ isHexDigit little = false) := by
        rw [isHexDigit_eq, isHexDigit_eq, hbig, hlittle]
        decide
      have hrange : ¬ isInAsciiRange big = false := by
        rw [(isInAsciiRange_value hbig hlittle).2 hvalue]
        decide
      rw [Piece.text, List.cons_append, List.cons_append, List.singleton_append, decodedSize, if_pos rfl,
        if_neg hdigits, if_neg hrange, hrest, Nat.add_assoc, Nat.add_comm 1]

theorem spells_of_decodedSize {text : Bytes} {size size' : Nat} (h : decodedSize text size = some size') :
    ∃ pieces, Spells pieces text := by
  induction text, size using decodedSize.induct with
  | case1 size => exact ⟨[], rfl, nofun⟩
  | case2 size big little text hdigits =>
    rw [decodedSize, if_pos rfl, if_pos hdigits] at h
    cases h
  | case3 size big little text hdigits hrange =>
    rw [decodedSize, if_pos rfl, if_neg hdigits, if_pos hrange] at h
    cases h
  | case4 size big little text hdigits hrange ih =>
    rw [decodedSize, if_pos rfl, if_neg hdigits, if_neg hrange] at h
    obtain ⟨pieces, htext, hvalid⟩ := ih h
    rw [isHexDigit_eq, isHexDigit_eq, not_or, Bool.not_eq_false, Bool.not_eq_false] at hdigits
    rw [Bool.not_eq_false] at hrange
    refine ⟨.triple big little :: pieces, ?_, ?_⟩
    · rw [List.flatMap_cons, ← htext]
      rfl
    · refine List.forall_mem_cons.2 ⟨⟨hdigits.1, hdigits.2, ?_⟩, hvalid⟩
      exact (isInAsciiRange_value hdigits.1 hdigits.2).1 hrange
  | case5 text size hshort =>
    rw [decodedSize, if_pos rfl] at h
    · cases h
    · exact hshort
  | case6 c text size hpercent hprintable =>
    rw [decodedSize_plain hpercent, if_pos hprintable] at h
    cases h
  | case7 c text size hpercent hprintable ih =>
    rw [decodedSize_plain hpercent, if_neg hprintable] at h
    obtain ⟨pieces, htext, hvalid⟩ := ih h
    refine ⟨.plain c :: pieces, ?_, ?_⟩
    · rw [List.flatMap_cons, ← htext]
      rfl
    · exact List.forall_mem_cons.2 ⟨(Bool.not_eq_false _).mp hprintable, hvalid⟩

theorem createDecodedString_pieces {pieces : List Piece} (h : ∀ piece ∈ pieces, piece.Valid)
    (output : Block UInt8) :
    createDecodedString (pieces.flatMap Piece.text) output =
      output.putAll (pieces.map Piece.char ++ [0]) := by
  induction pieces generalizing output with
  | nil => exact (bind_pure (output.put 0)).symm
  | cons piece pieces ih =>
    have hpiece := h piece (List.mem_cons_self ..)
    have hrest := funext (ih fun piece hmem => h piece (List.mem_cons_of_mem _ hmem))
    have hcons : ∀ c : UInt8, output.putAll (c :: (pieces.map Piece.char ++ [0])) =
        (output.put c).bind fun output => output.putAll (pieces.map Piece.char ++ [0]) := fun _ => rfl
    rw [List.flatMap_cons, List.map_cons, List.cons_append, hcons]
    cases piece with
    | plain c =>
      have hprintable : isPrintable c = true := hpiece
      rw [Piece.text, List.singleton_append, createDecodedString_plain (isPrintable_ne_percent c hprintable),
        hrest]
      rfl
    | triple big little =>
      obtain ⟨hbig, hlittle, hvalue⟩ := hpiece
      rw [Piece.text, List.cons_append, List.cons_append, List.singleton_append, createDecodedString,
        if_neg (not_not_intro rfl), hrest, charFromNibbles_eq hbig hlittle]

/-! ## The decoder -/

section

variable {pieces : List Piece} {text : Bytes}

theorem calculateDecodedStringSize_of_spells (h : Spells pieces text) :
    calculateDecodedStringSize text = pieces.length + 1 := by
  have hsize := decodedSize_pieces h.2 0
  rw [← h.1, Nat.zero_add] at hsize
  rw [calculateDecodedStringSize, hsize]
  split
  case isTrue hempty =>
    -- the size of the empty text is computed without the loop
    rw [List.eq_nil_of_length_eq_zero hempty] at hsize
    exact congrArg (· + 1) (Option.some.inj hsize)
  case isFalse => rfl

theorem urlDecodeString_of_spells (h : Spells pieces text) :
    Produces {} (fun allocations => urlDecodeString allocations (some text))
      (cString (pieces.map Piece.char)) := by
  have hsize := calculateDecodedStringSize_of_spells h
  have hfits : (Block.allocate (pieces.length + 1) : Block UInt8).written.length +
      (pieces.map Piece.char ++ [0]).length ≤
        (Block.allocate (pieces.length + 1) : Block UInt8).capacity := by
    rw [Block.allocate_written, Block.allocate_capacity, List.length_append, List.length_map, List.length_nil]
    exact Nat.le_of_eq (Nat.zero_add _)
  have hwritten : createDecodedString text (.allocate (calculateDecodedStringSize text)) =
      some ((Block.allocate (pieces.length + 1)).extend (pieces.map Piece.char ++ [0]) hfits) := by
    rw [hsize, h.1, createDecodedString_pieces h.2, Block.putAll_eq _ _ hfits]
  have hstring : cString (pieces.map Piece.char ++ [0]) = cString (pieces.map Piece.char) := by
    generalize pieces.map Piece.char = chars
    induction chars with
    | nil => rfl
    | cons c chars ih =>
      rw [cString, cString, List.cons_append, List.takeWhile_cons, List.takeWhile_cons]
      split_ifs
      · rw [← cString, ← cString, ih]
      · rfl
  have hsome : calculateDecodedStringSize text ≠ 0 := by
    rw [hsize]
    exact Nat.succ_ne_zero _
  have hall : ∀ allocations : Allocations, urlDecodeString allocations (some text) =
      if allocations.constructed = false then some none
      else if allocations.text = false then some none
      else some (if allocations.string then some (cString (pieces.map Piece.char)) else none) := by
    intro allocations
    rw [urlDecodeString, urlDecodeHandle, if_neg hsome, hwritten, Option.map_some,
      stringNewWithMemory, Block.extend_written, Block.allocate_written, List.nil_append, hstring]
  refine ⟨hall {}, fun allocations => ?_⟩
  dsimp only
  rw [hall allocations]
  split_ifs
  · exact .inr rfl
  · exact .inr rfl
  · exact .inl rfl
  · exact .inr rfl

theorem urlDecodeString_of_not_spells (h : ¬ ∃ pieces, Spells pieces text) (allocations : Allocations) :
    urlDecodeString allocations (some text) = some none := by
  have hsize : decodedSize text 0 = none := by
    cases hsize : decodedSize text 0 with
    | none => rfl
    | some size => exact absurd (spells_of_decodedSize hsize) h
  have hnonempty : text.length ≠ 0 := by
    intro hempty
    exact h ⟨[], List.eq_nil_of_length_eq_zero hempty, nofun⟩
  have hzero : calculateDecodedStringSize text = 0 := by
    rw [calculateDecodedStringSize, if_neg hnonempty, hsize]
  rw [urlDecodeString]
  split_ifs
  · rfl
  · rw [urlDecodeHandle, if_pos hzero]

theorem length_cString_iff (chars : Bytes) : (cString chars).length = chars.length ↔ 0 ∉ chars := by
  induction chars with
  | nil => exact iff_of_true rfl List.not_mem_nil
  | cons c chars ih =>
    rw [cString, List.takeWhile_cons, ← cString, List.mem_cons, not_or]
    by_cases hc : c = 0
    · subst hc
      exact iff_of_false (Nat.succ_ne_zero _).symm fun hnot => hnot.1 rfl
    · rw [if_pos (bne_iff_ne.2 hc), List.length_cons, List.length_cons, Nat.succ_inj, ih]
      exact (and_iff_right (Ne.symm hc)).symm

/-- In a text without NULs only `%00` denotes one. -/
theorem nul_mem_iff (h : Spells pieces text) (htext : 0 ∉ text) :
    0 ∈ pieces.map Piece.char ↔ .triple 0x30 0x30 ∈ pieces := by
  constructor
  · intro hmem
    obtain ⟨piece, hpiece, hchar⟩ := List.mem_map.1 hmem
    have hvalid := h.2 piece hpiece
    cases piece with
    | plain c =>
      have hzero : 0 ∈ text := by
        rw [h.1]
        exact List.mem_flatMap.2 ⟨_, hpiece, by rw [← hchar]; exact List.mem_singleton_self _⟩
      exact absurd hzero htext
    | triple big little =>
      obtain ⟨hbig, hlittle, hvalue⟩ := hvalid
      have hzero := congrArg UInt8.toNat hchar
      rw [Piece.char, UInt8.toNat_ofNat', Nat.mod_eq_of_lt (by omega), value_eq] at hzero
      change _ = 0 at hzero
      have hbigZero := digit_zero big hbig (by omega)
      have hlittleZero := digit_zero little hlittle (by omega)
      rwa [hbigZero, hlittleZero] at hpiece
  · exact fun hmem => List.mem_map.2 ⟨_, hmem, by decide⟩

/-- With all allocations succeeding, a text is decoded exactly when it is made of pieces, and the result has all
the characters that were counted: for all texts but those with a triple `%00`. -/
theorem urlDecode_exact_iff (text : Bytes) (htext : 0 ∉ text) :
    (((∃ decoded, urlDecodeString {} (some text) = some (some decoded)) ↔ ∃ pieces, Spells pieces text) ∧
        ∀ decoded, urlDecodeString {} (some text) = some (some decoded) →
          decoded.length + 1 = calculateDecodedStringSize text) ↔
      ¬ HasNul text := by
  constructor
  · rintro ⟨-, hlength⟩ ⟨pieces, hspells, hnul⟩
    have hdecoded := hlength _ (urlDecodeString_of_spells hspells).1
    rw [calculateDecodedStringSize_of_spells hspells, Nat.succ_inj, ← List.length_map Piece.char,
      length_cString_iff, nul_mem_iff hspells htext] at hdecoded
    exact hdecoded hnul
  · intro hnul
    constructor
    · constructor
      · rintro ⟨decoded, hdecoded⟩
        by_contra hnot
        rw [urlDecodeString_of_not_spells hnot] at hdecoded
        cases hdecoded
      · rintro ⟨pieces, hspells⟩
        exact ⟨_, (urlDecodeString_of_spells hspells).1⟩
    · intro decoded hdecoded
      by_cases hspells : ∃ pieces, Spells pieces text
      case pos =>
        obtain ⟨pieces, hspells⟩ := hspells
        have hresult := (urlDecodeString_of_spells hspells).1
        dsimp only at hresult
        rw [hresult] at hdecoded
        cases hdecoded
        have hchars : 0 ∉ pieces.map Piece.char := by
          rw [nul_mem_iff hspells htext]
          exact fun hmem => hnul ⟨pieces, hspells, hmem⟩
        rw [calculateDecodedStringSize_of_spells hspells, (length_cString_iff _).2 hchars, List.length_map]
      case neg =>
        rw [urlDecodeString_of_not_spells hspells] at hdecoded
        cases hdecoded

/-- A triple is decoded to one character. -/
theorem urlDecode_exact_space :
    (((∃ decoded, urlDecodeString {} (some (ascii "a%20b")) = some (some decoded)) ↔
          ∃ pieces, Spells pieces (ascii "a%20b")) ∧
        ∀ decoded, urlDecodeString {} (some (ascii "a%20b")) = some (some decoded) →
          decoded.length + 1 = calculateDecodedStringSize (ascii "a%20b")) ↔
      ¬ HasNul (ascii "a%20b") :=
  urlDecode_exact_iff (ascii "a%20b") (by decide)

/-- Two of the three characters are behind the NUL. -/
theorem decoded_nul_lost :
    urlDecodeString {} (some (ascii "a%00b")) = some (some (ascii "a")) ∧
      (ascii "a").length + 1 ≠ calculateDecodedStringSize (ascii "a%00b") := by
  decide

end

end SharedUtility.UrlEncode
