import SharedUtility.Utf8Checker
import SharedUtility.Utf8.Encoding

/-!
# Utf8.Validation — what `utf8_checker_is_valid_utf8` accepts

The checker tests the bit patterns and the shortest form, and nothing else. So it accepts exactly
the concatenations of encodings of numbers that the patterns have room for, the surrogates and
the numbers above `0x10FFFF` among them.
-/

namespace SharedUtility.Utf8

/-! ## The bit tests of the checker, by the value of the byte -/

section

variable (b : UInt8)

theorem shiftRight_beq_iff (shift pattern : UInt8) :
    (b >>> shift == pattern) = true ↔ b.toNat / 2 ^ (shift.toNat % 8) = pattern.toNat := by
  rw [beq_iff_eq, ← UInt8.toNat_inj, UInt8.toNat_shiftRight, Nat.shiftRight_eq_div_pow]

theorem isContinuationByte_iff : isContinuationByte b = true ↔ IsTail b := by
  unfold isContinuationByte IsTail
  rw [shiftRight_beq_iff]
  simp only [UInt8.toNat_ofNat, Nat.reduceMod, Nat.reducePow]
  omega

theorem fourBytes_iff : (b >>> 3 == 0x1E) = true ↔ 0xF0 ≤ b.toNat ∧ b.toNat < 0xF8 := by
  rw [shiftRight_beq_iff]
  simp only [UInt8.toNat_ofNat, Nat.reduceMod, Nat.reducePow]
  omega

theorem threeBytes_iff : (b >>> 4 == 0x0E) = true ↔ 0xE0 ≤ b.toNat ∧ b.toNat < 0xF0 := by
  rw [shiftRight_beq_iff]
  simp only [UInt8.toNat_ofNat, Nat.reduceMod, Nat.reducePow]
  omega

theorem twoBytes_iff : (b >>> 5 == 0x06) = true ↔ 0xC0 ≤ b.toNat ∧ b.toNat < 0xE0 := by
  rw [shiftRight_beq_iff]
  simp only [UInt8.toNat_ofNat, Nat.reduceMod, Nat.reducePow]
  omega

theorem oneByte_iff : (b >>> 7 == 0x00) = true ↔ b.toNat < 0x80 := by
  rw [shiftRight_beq_iff]
  simp only [UInt8.toNat_ofNat, Nat.reduceMod, Nat.reducePow]
  omega

theorem toNat_and_low (mask : UInt8) (k : Nat) (hmask : mask.toNat = 2 ^ k - 1) :
    (b &&& mask).toNat = b.toNat % 2 ^ k := by
  rw [UInt8.toNat_and, hmask, Nat.and_two_pow_sub_one_eq_mod]

theorem pushContinuation_eq (codePoint : Nat) :
    pushContinuation codePoint b = codePoint * 64 + b.toNat % 64 := by
  unfold pushContinuation
  simp only [toNat_and_low b 0x3F 6 rfl, Nat.shiftLeft_eq, Nat.reducePow]

end

/-! ## One round of the loop -/

section

variable {b0 b1 b2 b3 : UInt8} {v : Nat} {bytes rest : Bytes}

theorem checker_append (h : Encoded v bytes) :
    utf8CheckerIsValidUtf8 (bytes ++ rest) = utf8CheckerIsValidUtf8 rest := by
  cases h with
  | @one b0 h0 hv =>
    have hfour := (fourBytes_iff b0).not.mpr (by omega)
    have hthree := (threeBytes_iff b0).not.mpr (by omega)
    have htwo := (twoBytes_iff b0).not.mpr (by omega)
    have hone := (oneByte_iff b0).mpr h0
    rw [List.singleton_append, utf8CheckerIsValidUtf8.eq_def]
    simp only [if_neg hfour, if_neg hthree, if_neg htwo, if_pos hone]
  | @two b0 b1 h0 h1 hv hshortest =>
    have hfour := (fourBytes_iff b0).not.mpr (by omega)
    have hthree := (threeBytes_iff b0).not.mpr (by omega)
    have htwo := (twoBytes_iff b0).mpr h0
    have htail := (isContinuationByte_iff b1).mpr h1
    have hvalue : pushContinuation (b0 &&& 0x1F).toNat b1 = v := by
      rw [pushContinuation_eq, toNat_and_low b0 0x1F 5 rfl]
      exact hv.symm
    rw [List.cons_append, utf8CheckerIsValidUtf8.eq_def]
    simp only [if_neg hfour, if_neg hthree, if_pos htwo, List.cons_append, List.nil_append, htail, hvalue,
      hshortest, decide_true, Bool.true_and]
  | @three b0 b1 b2 h0 h1 h2 hv hshortest =>
    have hfour := (fourBytes_iff b0).not.mpr (by omega)
    have hthree := (threeBytes_iff b0).mpr h0
    have htail1 := (isContinuationByte_iff b1).mpr h1
    have htail2 := (isContinuationByte_iff b2).mpr h2
    have hvalue : pushContinuation (pushContinuation (b0 &&& 0x0F).toNat b1) b2 = v := by
      rw [pushContinuation_eq, pushContinuation_eq,
        toNat_and_low b0 0x0F 4 rfl]
      exact hv.symm
    rw [List.cons_append, utf8CheckerIsValidUtf8.eq_def]
    simp only [if_neg hfour, if_pos hthree, List.cons_append, List.nil_append, htail1, htail2,
      hvalue, hshortest, decide_true, Bool.true_and]
  | @four b0 b1 b2 b3 h0 h1 h2 h3 hv hshortest =>
    have hfour := (fourBytes_iff b0).mpr h0
    have htail1 := (isContinuationByte_iff b1).mpr h1
    have htail2 := (isContinuationByte_iff b2).mpr h2
    have htail3 := (isContinuationByte_iff b3).mpr h3
    have hvalue : pushContinuation
        (pushContinuation (pushContinuation (b0 &&& 0x07).toNat b1) b2) b3 = v := by
      rw [pushContinuation_eq, pushContinuation_eq, pushContinuation_eq,
        toNat_and_low b0 0x07 3 rfl]
      exact hv.symm
    rw [List.cons_append, utf8CheckerIsValidUtf8.eq_def]
    simp only [if_pos hfour, List.cons_append, List.nil_append, htail1, htail2, htail3, hvalue,
      hshortest, decide_true, Bool.true_and]

/-- What the checker accepts starts with an encoding, and it accepts what follows that. -/
theorem checker_cons (h : utf8CheckerIsValidUtf8 (b0 :: rest) = true) :
    ∃ v bytes rest', Encoded v bytes ∧ b0 :: rest = bytes ++ rest' ∧
      utf8CheckerIsValidUtf8 rest' = true := by
  rw [utf8CheckerIsValidUtf8.eq_def] at h
  simp only at h
  split at h
  case isTrue hfour =>
    split at h
    case h_1 b1 b2 b3 rest' =>
      simp only [Bool.and_eq_true, decide_eq_true_eq, isContinuationByte_iff,
        pushContinuation_eq, toNat_and_low b0 0x07 3 rfl] at h
      obtain ⟨⟨⟨⟨h1, h2⟩, h3⟩, hshortest⟩, hrest⟩ := h
      exact ⟨_, [b0, b1, b2, b3], rest',
        .four ((fourBytes_iff b0).mp hfour) h1 h2 h3 rfl hshortest, rfl, hrest⟩
    case h_2 => cases h
  case isFalse hfour =>
    split at h
    case isTrue hthree =>
      split at h
      case h_1 b1 b2 rest' =>
        simp only [Bool.and_eq_true, decide_eq_true_eq, isContinuationByte_iff,
          pushContinuation_eq, toNat_and_low b0 0x0F 4 rfl] at h
        obtain ⟨⟨⟨h1, h2⟩, hshortest⟩, hrest⟩ := h
        exact ⟨_, [b0, b1, b2], rest',
          .three ((threeBytes_iff b0).mp hthree) h1 h2 rfl hshortest, rfl, hrest⟩
      case h_2 => cases h
    case isFalse hthree =>
      split at h
      case isTrue htwo =>
        split at h
        case h_1 b1 rest' =>
          simp only [Bool.and_eq_true, decide_eq_true_eq, isContinuationByte_iff,
            pushContinuation_eq, toNat_and_low b0 0x1F 5 rfl] at h
          obtain ⟨⟨h1, hshortest⟩, hrest⟩ := h
          exact ⟨_, [b0, b1], rest',
            .two ((twoBytes_iff b0).mp htwo) h1 rfl hshortest, rfl, hrest⟩
        case h_2 => cases h
      case isFalse htwo =>
        split at h
        case isTrue hone =>
          exact ⟨_, [b0], rest, .one ((oneByte_iff b0).mp hone) rfl, rfl, h⟩
        case isFalse hone => cases h

end

/-! ## The whole loop -/

theorem checker_flatMap_encode {vs : List Nat} (hvs : ∀ v ∈ vs, v < patternLimit) :
    utf8CheckerIsValidUtf8 (vs.flatMap encode) = true := by
  induction vs with
  | nil => rfl
  | cons v vs ih =>
    rw [List.flatMap_cons, checker_append (encoded_encode (hvs v List.mem_cons_self))]
    exact ih fun v hv => hvs v (List.mem_cons_of_mem _ hv)

theorem patternText_of_checker (bytes : Bytes) (h : utf8CheckerIsValidUtf8 bytes = true) :
    PatternText bytes := by
  -- The rounds consume at least one byte each.
  induction hlength : bytes.length using Nat.strongRecOn generalizing bytes with
  | ind n ih =>
    cases bytes with
    | nil => exact ⟨[], nofun, rfl⟩
    | cons b0 rest =>
      obtain ⟨v, first, rest', henc, hsplit, hrest⟩ := checker_cons h
      have hpos := List.length_pos_of_ne_nil henc.ne_nil
      have hlen := congrArg List.length hsplit
      rw [List.length_append] at hlen
      obtain ⟨vs, hvs, hflat⟩ := ih rest'.length (by omega) rest' hrest rfl
      refine ⟨v :: vs, List.forall_mem_cons.mpr ⟨henc.lt_patternLimit, hvs⟩, ?_⟩
      rw [List.flatMap_cons, henc.encode_eq, hflat, hsplit]

theorem checker_iff_patternText (bytes : Bytes) :
    utf8CheckerIsValidUtf8 bytes = true ↔ PatternText bytes := by
  refine ⟨patternText_of_checker bytes, ?_⟩
  rintro ⟨vs, hvs, rfl⟩
  exact checker_flatMap_encode hvs

/-- The verdict differs from well-formedness exactly on the strings that encode a number which is
no scalar value. -/
theorem checker_wellFormed_iff_scalarsOnly (bytes : Bytes) :
    (utf8CheckerIsValidUtf8 bytes = true ↔ WellFormed bytes) ↔ ScalarsOnly bytes := by
  constructor
  · rintro hverdict vs hvs rfl
    have hwell := hverdict.mp (checker_flatMap_encode hvs)
    exact (wellFormed_flatMap_encode hvs).mp hwell
  · intro hscalars
    constructor
    · intro haccepted
      obtain ⟨vs, hvs, hflat⟩ := patternText_of_checker bytes haccepted
      have hvalid := hscalars vs hvs hflat
      rw [← hflat]
      exact (wellFormed_flatMap_encode hvs).mpr hvalid
    · intro hwell
      exact (checker_iff_patternText bytes).mpr hwell.patternText

/-- The checker accepts the concatenations of shortest forms of numbers below `2 ^ 21` and nothing
else, and this is well-formedness except on the strings that encode a surrogate or a number above
`0x10FFFF`. -/
theorem utf8CheckerIsValidUtf8_accepts (bytes : Bytes) :
    (utf8CheckerIsValidUtf8 bytes = true ↔ PatternText bytes) ∧
      ((utf8CheckerIsValidUtf8 bytes = true ↔ WellFormed bytes) ↔ ScalarsOnly bytes) :=
  ⟨checker_iff_patternText bytes, checker_wellFormed_iff_scalarsOnly bytes⟩

/-- `F7 BF BF BF`, the largest number of the four-byte pattern, and `ED A0 80`, which would be
`U+D800`, are accepted. -/
theorem utf8CheckerIsValidUtf8_nonScalars :
    ¬ (utf8CheckerIsValidUtf8 [0xF7, 0xBF, 0xBF, 0xBF] = true ↔
        WellFormed [0xF7, 0xBF, 0xBF, 0xBF]) ∧
      ¬ (utf8CheckerIsValidUtf8 [0xED, 0xA0, 0x80] = true ↔ WellFormed [0xED, 0xA0, 0x80]) := by
  constructor
  · intro hverdict
    have hlimit : ∀ v ∈ [0x1FFFFF], v < patternLimit := by decide
    have hwell : WellFormed ([0x1FFFFF].flatMap encode) := hverdict.mp (by decide)
    have hvalid := (wellFormed_flatMap_encode hlimit).mp hwell 0x1FFFFF List.mem_cons_self
    exact absurd hvalid (by decide)
  · intro hverdict
    have hlimit : ∀ v ∈ [0xD800], v < patternLimit := by decide
    have hwell : WellFormed ([0xD800].flatMap encode) := hverdict.mp (by decide)
    have hvalid := (wellFormed_flatMap_encode hlimit).mp hwell 0xD800 List.mem_cons_self
    exact absurd hvalid (by decide)

end SharedUtility.Utf8
