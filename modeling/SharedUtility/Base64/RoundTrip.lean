import SharedUtility.Base64.Code
import SharedUtility.BaseEncoding

/-!
# Base64.RoundTrip — the encoder and the decoder are inverse

The characters are those of the base64 encoding, and they carry the bytes over; a canonical text, with
its padding at the end and its unused bits zero, is the text of the bytes that it stands for.
-/

namespace SharedUtility.Base64

open Memory BaseEncoding

/-- The base64 encoding: three bytes are four characters. -/
def base64Scheme : Scheme where
  blockBytes := 3
  blockChars := 4
  charBits := 6
  alphabet := ascii "ABCDEFGHIJKLMNOPQRSTUVWXYZabcdefghijklmnopqrstuvwxyz0123456789+/"
  pad := 0x3D
  blockBytes_pos := by decide
  bits_eq := by decide
  alphabet_length := by decide

/-! ## Sextets -/

/-- A character of the alphabet, by its value. -/
def sextetChar (n : Nat) : UInt8 :=
  base64Scheme.alphabet.getD n 0x3D

set_option maxRecDepth 8000 in
theorem base64char_eq (v : UInt8) (h : v.toNat < 64) : base64char v = sextetChar v.toNat := by
  revert h
  apply byte_forall (P := fun v => v.toNat < 64 → base64char v = sextetChar v.toNat)
  decide

set_option maxRecDepth 8000 in
theorem base64b16_eq (v : UInt8) (h : v.toNat < 16) : base64b16 v = sextetChar (v.toNat * 4) := by
  revert h
  apply byte_forall (P := fun v => v.toNat < 16 → base64b16 v = sextetChar (v.toNat * 4))
  decide

set_option maxRecDepth 8000 in
theorem base64b8_eq (v : UInt8) (h : v.toNat < 4) : base64b8 v = sextetChar (v.toNat * 16) := by
  revert h
  apply byte_forall (P := fun v => v.toNat < 4 → base64b8 v = sextetChar (v.toNat * 16))
  decide

set_option maxRecDepth 8000 in
theorem base64toValue_sextetChar (n : Nat) (h : n < 64) :
    base64toValue (sextetChar n) = some (UInt8.ofNat n) := by
  revert n
  decide

section

variable (b b' : UInt8)

theorem toNat_upper6 : (b >>> 2).toNat = b.toNat / 4 :=
  toNat_shiftRight b rfl (by decide)

theorem toNat_lower6 : (b &&& 0x3F).toNat = b.toNat % 64 :=
  toNat_mask (k := 6) b rfl

theorem toNat_lower4 : (b &&& 0x0F).toNat = b.toNat % 16 :=
  toNat_mask (k := 4) b rfl

theorem toNat_lower2 : (b &&& 3).toNat = b.toNat % 4 :=
  toNat_mask (k := 2) b rfl

theorem toNat_two_four : (((b &&& 3) <<< 4) ||| (b' >>> 4)).toNat =
    b.toNat % 4 * 16 + b'.toNat / 16 := by
  have hfirst : ((b &&& 3) <<< 4).toNat = b.toNat % 4 * 16 := by
    rw [toNat_shiftLeft (i := 4) _ rfl (by decide), toNat_lower2]
    omega
  have hsecond : (b' >>> 4).toNat = b'.toNat / 16 := toNat_shiftRight b' rfl (by decide)
  have hlt := b'.toNat_lt
  rw [toNat_or_of_lt (i := 4) (by rw [hfirst]; omega) (by rw [hsecond]; omega), hfirst, hsecond]

theorem toNat_four_two : (((b &&& 0x0F) <<< 2) ||| ((b' >>> 6) &&& 3)).toNat =
    b.toNat % 16 * 4 + b'.toNat / 64 := by
  have hfirst : ((b &&& 0x0F) <<< 2).toNat = b.toNat % 16 * 4 := by
    rw [toNat_shiftLeft (i := 2) _ rfl (by decide), toNat_lower4]
    omega
  have hlt := b'.toNat_lt
  have hsecond : ((b' >>> 6) &&& 3).toNat = b'.toNat / 64 := by
    rw [toNat_lower2, toNat_shiftRight (i := 6) b' rfl (by decide)]
    omega
  rw [toNat_or_of_lt (i := 2) (by rw [hfirst]; omega) (by rw [hsecond]; omega), hfirst, hsecond]

variable {b b'}

theorem toNat_six_two (hb : b.toNat < 64) (hb' : b'.toNat < 64) :
    ((b <<< 2) ||| (b' >>> 4)).toNat = b.toNat * 4 + b'.toNat / 16 := by
  have hfirst : (b <<< 2).toNat = b.toNat * 4 := by
    rw [toNat_shiftLeft (i := 2) _ rfl (by decide)]
    omega
  have hsecond : (b' >>> 4).toNat = b'.toNat / 16 := toNat_shiftRight b' rfl (by decide)
  rw [toNat_or_of_lt (i := 2) (by rw [hfirst]; omega) (by rw [hsecond]; omega), hfirst, hsecond]

theorem toNat_four_four (hb' : b'.toNat < 64) :
    (((b &&& 0x0F) <<< 4) ||| (b' >>> 2)).toNat = b.toNat % 16 * 16 + b'.toNat / 4 := by
  have hfirst : ((b &&& 0x0F) <<< 4).toNat = b.toNat % 16 * 16 := by
    rw [toNat_shiftLeft (i := 4) _ rfl (by decide), toNat_lower4]
    omega
  rw [toNat_or_of_lt (i := 4) (by rw [hfirst]; omega) (by rw [toNat_upper6]; omega), hfirst,
    toNat_upper6]

theorem toNat_two_six (hb' : b'.toNat < 64) :
    (((b &&& 0x03) <<< 6) ||| b').toNat = b.toNat % 4 * 64 + b'.toNat := by
  have hfirst : ((b &&& 0x03) <<< 6).toNat = b.toNat % 4 * 64 := by
    rw [toNat_shiftLeft (i := 6) _ rfl (by decide), toNat_lower2]
    omega
  rw [toNat_or_of_lt (i := 6) (by rw [hfirst]; omega) hb', hfirst]

end

/-! ## The text -/

theorem blockText_eq (block : Bytes) :
    base64Scheme.blockText block = [0, 1, 2, 3].map fun i =>
      if i < (8 * block.length + 5) / 6 then
        sextetChar (number block * 256 ^ (3 - block.length) / 2 ^ (6 * (3 - i)) % 64)
      else 0x3D := rfl

theorem blockText_three (b0 b1 b2 : UInt8) :
    base64Scheme.blockText [b0, b1, b2] =
      [sextetChar (b0.toNat / 4), sextetChar (b0.toNat % 4 * 16 + b1.toNat / 16),
        sextetChar (b1.toNat % 16 * 4 + b2.toNat / 64), sextetChar (b2.toNat % 64)] := by
  have h0 := b0.toNat_lt
  have h1 := b1.toNat_lt
  have h2 := b2.toNat_lt
  simp only [blockText_eq, number, List.map_cons, List.map_nil, List.length_cons, List.length_nil,
    List.foldl_cons, List.foldl_nil, Nat.reduceAdd, Nat.reduceMul, Nat.reduceDiv, Nat.reduceLT,
    Nat.reduceSub, Nat.reducePow, if_true, List.cons.injEq, and_true]
  refine ⟨congrArg sextetChar ?_, congrArg sextetChar ?_, congrArg sextetChar ?_,
    congrArg sextetChar ?_⟩
  all_goals omega

theorem blockText_two (b0 b1 : UInt8) :
    base64Scheme.blockText [b0, b1] =
      [sextetChar (b0.toNat / 4), sextetChar (b0.toNat % 4 * 16 + b1.toNat / 16),
        sextetChar (b1.toNat % 16 * 4), 0x3D] := by
  have h0 := b0.toNat_lt
  have h1 := b1.toNat_lt
  simp only [blockText_eq, number, List.map_cons, List.map_nil, List.length_cons, List.length_nil,
    List.foldl_cons, List.foldl_nil, Nat.reduceAdd, Nat.reduceMul, Nat.reduceDiv, Nat.reduceLT,
    Nat.reduceSub, Nat.reducePow, if_true, if_false, List.cons.injEq, and_true]
  refine ⟨congrArg sextetChar ?_, congrArg sextetChar ?_, congrArg sextetChar ?_⟩
  all_goals omega

theorem blockText_one (b0 : UInt8) :
    base64Scheme.blockText [b0] =
      [sextetChar (b0.toNat / 4), sextetChar (b0.toNat % 4 * 16), 0x3D, 0x3D] := by
  have h0 := b0.toNat_lt
  simp only [blockText_eq, number, List.map_cons, List.map_nil, List.length_cons, List.length_nil,
    List.foldl_cons, List.foldl_nil, Nat.reduceAdd, Nat.reduceMul, Nat.reduceDiv, Nat.reduceLT,
    Nat.reduceSub, Nat.reducePow, if_true, if_false, List.cons.injEq, and_true]
  refine ⟨congrArg sextetChar ?_, congrArg sextetChar ?_⟩
  all_goals omega

theorem encode_three (b0 b1 b2 : UInt8) (rest : Bytes) :
    base64EncodeInternal (b0 :: b1 :: b2 :: rest) =
      [sextetChar (b0.toNat / 4), sextetChar (b0.toNat % 4 * 16 + b1.toNat / 16),
        sextetChar (b1.toNat % 16 * 4 + b2.toNat / 64), sextetChar (b2.toNat % 64)] ++
        base64EncodeInternal rest := by
  have h0 := b0.toNat_lt
  have h1 := b1.toNat_lt
  have h2 := b2.toNat_lt
  rw [base64EncodeInternal, base64char_eq, base64char_eq, base64char_eq, base64char_eq,
    toNat_upper6, toNat_two_four, toNat_four_two, toNat_lower6]
  · rfl
  · rw [toNat_lower6]; omega
  · rw [toNat_four_two]; omega
  · rw [toNat_two_four]; omega
  · rw [toNat_upper6]; omega

theorem encode_two (b0 b1 : UInt8) :
    base64EncodeInternal [b0, b1] =
      [sextetChar (b0.toNat / 4), sextetChar (b0.toNat % 4 * 16 + b1.toNat / 16),
        sextetChar (b1.toNat % 16 * 4), 0x3D] := by
  have h0 := b0.toNat_lt
  have h1 := b1.toNat_lt
  rw [base64EncodeInternal, base64char_eq, base64char_eq, base64b16_eq, toNat_upper6,
    toNat_two_four, toNat_lower4]
  · rw [toNat_lower4]; omega
  · rw [toNat_two_four]; omega
  · rw [toNat_upper6]; omega

theorem encode_one (b0 : UInt8) :
    base64EncodeInternal [b0] =
      [sextetChar (b0.toNat / 4), sextetChar (b0.toNat % 4 * 16), 0x3D, 0x3D] := by
  have h0 := b0.toNat_lt
  rw [base64EncodeInternal, base64char_eq, base64b8_eq, toNat_upper6, toNat_lower2]
  · rw [toNat_lower2]; omega
  · rw [toNat_upper6]; omega

theorem encode_eq_text (b : Bytes) : base64EncodeInternal b = base64Scheme.text b := by
  induction b using base64EncodeInternal.induct with
  | case1 b0 b1 b2 rest ih =>
    have htext := base64Scheme.text_append (rfl : [b0, b1, b2].length = _) rest
    rw [encode_three, ih, ← blockText_three]
    exact htext.symm
  | case2 b0 b1 =>
    rw [encode_two, base64Scheme.text_last (List.cons_ne_nil b0 [b1]) (Nat.le_succ 2),
      blockText_two]
  | case3 b0 =>
    rw [encode_one, base64Scheme.text_last (List.cons_ne_nil b0 []) (Nat.le_add_right 1 2),
      blockText_one]
  | case4 => rw [base64EncodeInternal, Scheme.text_nil]

/-! ## The bytes -/

theorem toNat_sextet {n : Nat} (h : n < 64) : (UInt8.ofNat n).toNat = n := by
  rw [UInt8.toNat_ofNat']
  omega

theorem base64Values_sextet {n : Nat} (h : n < 64) (rest : Bytes) :
    base64Values (sextetChar n :: rest) = UInt8.ofNat n :: base64Values rest := by
  rw [base64Values, base64toValue_sextetChar n h]

theorem base64Values_pad (rest : Bytes) : base64Values (0x3D :: rest) = [] := by
  rw [base64Values]
  rfl

theorem decode_four {n1 n2 n3 n4 : Nat} (h1 : n1 < 64) (h2 : n2 < 64) (h3 : n3 < 64) (h4 : n4 < 64)
    (values : List UInt8) :
    base64decode (UInt8.ofNat n1 :: UInt8.ofNat n2 :: UInt8.ofNat n3 :: UInt8.ofNat n4 :: values) =
      UInt8.ofNat (n1 * 4 + n2 / 16) :: UInt8.ofNat (n2 % 16 * 16 + n3 / 4) ::
        UInt8.ofNat (n3 % 4 * 64 + n4) :: base64decode values := by
  have e1 := toNat_sextet h1
  have e2 := toNat_sextet h2
  have e3 := toNat_sextet h3
  have e4 := toNat_sextet h4
  simp only [base64decode, List.cons.injEq, and_true, ← UInt8.toNat_inj, UInt8.toNat_ofNat']
  refine ⟨?_, ?_, ?_⟩
  · rw [toNat_six_two (by omega) (by omega), e1, e2]
    omega
  · rw [toNat_four_four (by omega), e2, e3]
    omega
  · rw [toNat_two_six (by omega), e3, e4]
    omega

theorem decode_three {n1 n2 n3 : Nat} (h1 : n1 < 64) (h2 : n2 < 64) (h3 : n3 < 64) :
    base64decode [UInt8.ofNat n1, UInt8.ofNat n2, UInt8.ofNat n3] =
      [UInt8.ofNat (n1 * 4 + n2 / 16), UInt8.ofNat (n2 % 16 * 16 + n3 / 4)] := by
  have e1 := toNat_sextet h1
  have e2 := toNat_sextet h2
  have e3 := toNat_sextet h3
  simp only [base64decode, List.cons.injEq, and_true, ← UInt8.toNat_inj, UInt8.toNat_ofNat']
  refine ⟨?_, ?_⟩
  · rw [toNat_six_two (by omega) (by omega), e1, e2]
    omega
  · rw [toNat_four_four (by omega), e2, e3]
    omega

theorem decode_two {n1 n2 : Nat} (h1 : n1 < 64) (h2 : n2 < 64) :
    base64decode [UInt8.ofNat n1, UInt8.ofNat n2] = [UInt8.ofNat (n1 * 4 + n2 / 16)] := by
  have e1 := toNat_sextet h1
  have e2 := toNat_sextet h2
  simp only [base64decode, List.cons.injEq, and_true, ← UInt8.toNat_inj, UInt8.toNat_ofNat']
  rw [toNat_six_two (by omega) (by omega), e1, e2]
  omega

theorem decode_encode (b : Bytes) : base64decode (base64Values (base64EncodeInternal b)) = b := by
  induction b using base64EncodeInternal.induct with
  | case1 b0 b1 b2 rest ih =>
    have h0 := b0.toNat_lt
    have h1 := b1.toNat_lt
    have h2 := b2.toNat_lt
    rw [encode_three]
    simp only [List.cons_append, List.nil_append]
    rw [base64Values_sextet (by omega), base64Values_sextet (by omega),
      base64Values_sextet (by omega), base64Values_sextet (by omega),
      decode_four (by omega) (by omega) (by omega) (by omega), ih]
    simp only [List.cons.injEq, and_true, ← UInt8.toNat_inj, UInt8.toNat_ofNat']
    omega
  | case2 b0 b1 =>
    have h0 := b0.toNat_lt
    have h1 := b1.toNat_lt
    rw [encode_two, base64Values_sextet (by omega), base64Values_sextet (by omega),
      base64Values_sextet (by omega), base64Values_pad,
      decode_three (by omega) (by omega) (by omega)]
    simp only [List.cons.injEq, and_true, ← UInt8.toNat_inj, UInt8.toNat_ofNat']
    omega
  | case3 b0 =>
    have h0 := b0.toNat_lt
    rw [encode_one, base64Values_sextet (by omega), base64Values_sextet (by omega),
      base64Values_pad, decode_two (by omega) (by omega)]
    simp only [List.cons.injEq, and_true, ← UInt8.toNat_inj, UInt8.toNat_ofNat']
    omega
  | case4 => rfl

/-! ## Canonical texts -/

/-- Characters of the alphabet, then up to two of padding, in groups of four; the bits that the last
character has to spare are zero. -/
def Canonical (t : Bytes) : Prop :=
  ∃ (sextets : List Nat) (padding : Nat),
    (∀ n ∈ sextets, n < 64) ∧ t = sextets.map sextetChar ++ List.replicate padding 0x3D ∧
      4 ∣ t.length ∧ padding ≤ 2 ∧ ∀ last ∈ sextets.getLast?, 4 ^ padding ∣ last

theorem canonical_encode (b : Bytes) : Canonical (base64EncodeInternal b) := by
  induction b using base64EncodeInternal.induct with
  | case1 b0 b1 b2 rest ih =>
    have h0 := b0.toNat_lt
    have h1 := b1.toNat_lt
    have h2 := b2.toNat_lt
    rcases ih with ⟨sextets, padding, hsextets, htext, hlength, hpadding, hlast⟩
    refine ⟨b0.toNat / 4 :: (b0.toNat % 4 * 16 + b1.toNat / 16) ::
      (b1.toNat % 16 * 4 + b2.toNat / 64) :: (b2.toNat % 64) :: sextets, padding, ?_, ?_, ?_,
      hpadding, ?_⟩
    · intro n hn
      simp only [List.mem_cons] at hn
      rcases hn with rfl | rfl | rfl | rfl | hn
      · omega
      · omega
      · omega
      · omega
      · exact hsextets n hn
    · rw [encode_three, htext]
      rfl
    · rw [encode_three, List.length_append]
      exact Nat.dvd_add (Nat.dvd_refl 4) hlength
    · rcases List.eq_nil_or_concat' sextets with rfl | ⟨front, last, rfl⟩
      · -- no padding behind a whole block
        have hzero : padding = 0 := by
          rw [htext] at hlength
          simp at hlength
          omega
        rw [hzero]
        exact fun _ _ => Nat.one_dvd _
      · intro n hn
        apply hlast n
        simpa [List.getLast?_cons] using hn
  | case2 b0 b1 =>
    have h0 := b0.toNat_lt
    have h1 := b1.toNat_lt
    refine ⟨[b0.toNat / 4, b0.toNat % 4 * 16 + b1.toNat / 16, b1.toNat % 16 * 4], 1, ?_, ?_, ?_,
      by decide, ?_⟩
    · intro n hn
      simp only [List.mem_cons, List.not_mem_nil, or_false] at hn
      omega
    · rw [encode_two]
      rfl
    · rw [encode_two]
      exact Nat.dvd_refl 4
    · intro n hn
      cases hn
      exact Nat.dvd_mul_left _ _
  | case3 b0 =>
    have h0 := b0.toNat_lt
    refine ⟨[b0.toNat / 4, b0.toNat % 4 * 16], 2, ?_, ?_, ?_, by decide, ?_⟩
    · intro n hn
      simp only [List.mem_cons, List.not_mem_nil, or_false] at hn
      omega
    · rw [encode_one]
      rfl
    · rw [encode_one]
      exact Nat.dvd_refl 4
    · intro n hn
      cases hn
      exact Nat.dvd_mul_left _ _
  | case4 => exact ⟨[], 0, by simp, rfl, by simp [base64EncodeInternal], by decide, by simp⟩

theorem base64Values_canonical {sextets : List Nat} (h : ∀ n ∈ sextets, n < 64) (padding : Nat) :
    base64Values (sextets.map sextetChar ++ List.replicate padding 0x3D) =
      sextets.map UInt8.ofNat := by
  induction sextets with
  | nil =>
    cases padding with
    | zero => rfl
    | succ padding => exact base64Values_pad _
  | cons n sextets ih =>
    rw [List.map_cons, List.cons_append, base64Values_sextet (h n (List.mem_cons_self ..)),
      ih fun m hm => h m (List.mem_cons_of_mem _ hm), List.map_cons]

theorem encode_decode {padding : Nat} (hpadding : padding ≤ 2) :
    ∀ {sextets : List Nat}, (∀ n ∈ sextets, n < 64) → 4 ∣ sextets.length + padding →
      (∀ last ∈ sextets.getLast?, 4 ^ padding ∣ last) →
        base64EncodeInternal (base64decode (sextets.map UInt8.ofNat)) =
          sextets.map sextetChar ++ List.replicate padding 0x3D
  | [], _, hlength, _ => by
    have hzero : padding = 0 := by
      rw [List.length_nil] at hlength
      omega
    subst hzero
    simp [base64decode, base64EncodeInternal]
  | [n1], _, hlength, _ => by
    rw [List.length_singleton] at hlength
    omega
  | [n1, n2], hsextets, hlength, hlast => by
    have h1 : n1 < 64 := hsextets n1 (by simp)
    have h2 : n2 < 64 := hsextets n2 (by simp)
    have htwo : padding = 2 := by
      simp only [List.length_cons, List.length_nil] at hlength
      omega
    subst htwo
    have hspare : 4 ^ 2 ∣ n2 := hlast n2 rfl
    have e1 : (UInt8.ofNat (n1 * 4 + n2 / 16)).toNat = n1 * 4 + n2 / 16 := by
      rw [UInt8.toNat_ofNat']
      omega
    simp only [List.map_cons, List.map_nil]
    rw [decode_two h1 h2, encode_one, e1]
    have c1 : (n1 * 4 + n2 / 16) / 4 = n1 := by omega
    have c2 : (n1 * 4 + n2 / 16) % 4 * 16 = n2 := by omega
    rw [c1, c2]
    rfl
  | [n1, n2, n3], hsextets, hlength, hlast => by
    have h1 : n1 < 64 := hsextets n1 (by simp)
    have h2 : n2 < 64 := hsextets n2 (by simp)
    have h3 : n3 < 64 := hsextets n3 (by simp)
    have hone : padding = 1 := by
      simp only [List.length_cons, List.length_nil] at hlength
      omega
    subst hone
    have hspare : 4 ^ 1 ∣ n3 := hlast n3 rfl
    have e1 : (UInt8.ofNat (n1 * 4 + n2 / 16)).toNat = n1 * 4 + n2 / 16 := by
      rw [UInt8.toNat_ofNat']
      omega
    have e2 : (UInt8.ofNat (n2 % 16 * 16 + n3 / 4)).toNat = n2 % 16 * 16 + n3 / 4 := by
      rw [UInt8.toNat_ofNat']
      omega
    simp only [List.map_cons, List.map_nil]
    rw [decode_three h1 h2 h3, encode_two, e1, e2]
    have c1 : (n1 * 4 + n2 / 16) / 4 = n1 := by omega
    have c2 : (n1 * 4 + n2 / 16) % 4 * 16 + (n2 % 16 * 16 + n3 / 4) / 16 = n2 := by omega
    have c3 : (n2 % 16 * 16 + n3 / 4) % 16 * 4 = n3 := by omega
    rw [c1, c2, c3]
    rfl
  | n1 :: n2 :: n3 :: n4 :: sextets, hsextets, hlength, hlast => by
    have h1 : n1 < 64 := hsextets n1 (by simp)
    have h2 : n2 < 64 := hsextets n2 (by simp)
    have h3 : n3 < 64 := hsextets n3 (by simp)
    have h4 : n4 < 64 := hsextets n4 (by simp)
    have hrest : ∀ n ∈ sextets, n < 64 := fun n hn => hsextets n (by simp [hn])
    have hlength' : 4 ∣ sextets.length + padding := by
      simp only [List.length_cons] at hlength
      omega
    have hlast' : ∀ last ∈ sextets.getLast?, 4 ^ padding ∣ last := by
      intro last hmem
      have hsome : sextets.getLast? = some last := hmem
      apply hlast last
      simp [List.getLast?_cons, hsome]
    have ih := encode_decode hpadding hrest hlength' hlast'
    have e1 : (UInt8.ofNat (n1 * 4 + n2 / 16)).toNat = n1 * 4 + n2 / 16 := by
      rw [UInt8.toNat_ofNat']
      omega
    have e2 : (UInt8.ofNat (n2 % 16 * 16 + n3 / 4)).toNat = n2 % 16 * 16 + n3 / 4 := by
      rw [UInt8.toNat_ofNat']
      omega
    have e3 : (UInt8.ofNat (n3 % 4 * 64 + n4)).toNat = n3 % 4 * 64 + n4 := by
      rw [UInt8.toNat_ofNat']
      omega
    simp only [List.map_cons]
    rw [decode_four h1 h2 h3 h4, encode_three, ih, e1, e2, e3]
    have c1 : (n1 * 4 + n2 / 16) / 4 = n1 := by omega
    have c2 : (n1 * 4 + n2 / 16) % 4 * 16 + (n2 % 16 * 16 + n3 / 4) / 16 = n2 := by omega
    have c3 : (n2 % 16 * 16 + n3 / 4) % 16 * 4 + (n3 % 4 * 64 + n4) / 64 = n3 := by omega
    have c4 : (n3 % 4 * 64 + n4) % 64 = n4 := by omega
    rw [c1, c2, c3, c4]
    rfl

theorem length_decode (values : List UInt8) :
    (base64decode values).length =
      values.length / 4 * 3 +
        (if values.length % 4 = 2 then 1 else if values.length % 4 = 3 then 2 else 0) := by
  induction values using base64decode.induct with
  | case1 c1 c2 c3 c4 rest ih =>
    have hmod : (rest.length + 1 + 1 + 1 + 1) % 4 = rest.length % 4 := by omega
    simp only [base64decode, List.length_cons, ih, hmod]
    omega
  | case2 c1 c2 c3 => simp [base64decode]
  | case3 c1 c2 => simp [base64decode]
  | case4 values h1 h2 h3 =>
    rcases values with _ | ⟨c1, _ | ⟨c2, _ | ⟨c3, _ | ⟨c4, rest⟩⟩⟩⟩
    case nil => rfl
    case cons.nil => simp [base64decode]
    case cons.cons.nil => exact absurd rfl (h3 _ _)
    case cons.cons.cons.nil => exact absurd rfl (h2 _ _ _)
    case cons.cons.cons.cons => exact absurd rfl (h1 _ _ _ _ _)

theorem sextetChar_ne_pad {n : Nat} (h : n < 64) : sextetChar n ≠ 0x3D := by
  revert n
  decide

section

variable (front : Bytes) {c : UInt8}

theorem decodeLen_unpadded (hc : c ≠ 0x3D) :
    base64decodeLen (front ++ [c]) = (front.length + 1) / 4 * 3 := by
  simp [base64decodeLen, hc]

theorem decodeLen_one_pad (hc : c ≠ 0x3D) :
    base64decodeLen (front ++ [c, 0x3D]) = (front.length + 2) / 4 * 3 - 1 := by
  have hlast : (front ++ [c, 0x3D]).getD (front.length + 1) 0 = 0x3D := by
    simp
  have hsecond : (front ++ [c, 0x3D]).getD front.length 0 = c := by simp
  simp only [base64decodeLen, List.length_append, List.length_cons, List.length_nil,
    Nat.reduceAdd, Nat.add_sub_cancel, Nat.add_succ_sub_one, hlast, hsecond, if_true, if_neg hc]
  rw [if_neg (by omega)]

theorem decodeLen_two_pads :
    base64decodeLen (front ++ [0x3D, 0x3D]) = (front.length + 2) / 4 * 3 - 2 := by
  have hlast : (front ++ [0x3D, 0x3D]).getD (front.length + 1) 0 = 0x3D := by
    simp
  have hsecond : (front ++ [0x3D, 0x3D]).getD front.length 0 = 0x3D := by simp
  simp only [base64decodeLen, List.length_append, List.length_cons, List.length_nil,
    Nat.reduceAdd, Nat.add_sub_cancel, Nat.add_succ_sub_one, hlast, hsecond, if_true]
  rw [if_neg (by omega)]

end

theorem decodeLen_canonical {t : Bytes} (h : Canonical t) :
    base64decodeLen t = (base64decode (base64Values t)).length := by
  rcases h with ⟨sextets, padding, hsextets, rfl, hlength, hpadding, -⟩
  rw [base64Values_canonical hsextets, length_decode, List.length_map]
  simp only [List.length_append, List.length_map, List.length_replicate] at hlength
  rcases List.eq_nil_or_concat' sextets with rfl | ⟨front, last, rfl⟩
  · have hzero : padding = 0 := by
      rw [List.length_nil] at hlength
      omega
    subst hzero
    rfl
  · have hlast : sextetChar last ≠ 0x3D := sextetChar_ne_pad (hsextets last (by simp))
    rw [List.length_append, List.length_singleton] at hlength
    have hcases : padding = 0 ∨ padding = 1 ∨ padding = 2 := by omega
    rcases hcases with rfl | rfl | rfl
    · have hlen := decodeLen_unpadded (front.map sextetChar) hlast
      rw [List.length_map] at hlen
      simp only [List.map_append, List.map_cons, List.map_nil, List.replicate_zero,
        List.append_nil, List.length_append, List.length_singleton]
      rw [hlen, if_neg (by omega), if_neg (by omega)]
      rfl
    · have hlen := decodeLen_one_pad (front.map sextetChar) hlast
      rw [List.length_map] at hlen
      simp only [List.map_append, List.map_cons, List.map_nil, List.replicate_one,
        List.append_assoc, List.cons_append, List.nil_append, List.length_append,
        List.length_singleton]
      rw [hlen, if_neg (by omega), if_pos (by omega)]
      omega
    · have hlen := decodeLen_two_pads (front.map sextetChar ++ [sextetChar last])
      rw [List.length_append, List.length_map, List.length_singleton] at hlen
      simp only [List.map_append, List.map_cons, List.map_nil, List.length_append,
        List.length_singleton]
      rw [show List.replicate 2 (0x3D : UInt8) = [0x3D, 0x3D] from rfl, hlen, if_pos (by omega)]
      omega

/-! ## The functions -/

set_option maxRecDepth 8000 in
theorem text_ne_zero {c : UInt8} {b : Bytes} (h : c ∈ base64Scheme.text b) : c ≠ 0 := by
  rcases base64Scheme.mem_text h with halphabet | rfl
  · have hall : ∀ c ∈ base64Scheme.alphabet, c ≠ 0 := by decide
    exact hall c halphabet
  · decide

theorem encodeLoop_writes (b : Bytes) {capacity : Nat}
    (h : (base64Scheme.text b).length + 1 ≤ capacity) :
    ∃ encoded : Block UInt8, (encodeLoop b (.allocate capacity)).bind (fun encoded => encoded.put 0) =
      some encoded ∧ encoded.written = base64Scheme.text b ++ [0] := by
  have hroom : (Block.allocate capacity : Block UInt8).written.length +
      (base64Scheme.text b ++ [0]).length ≤ capacity := by
    rw [Block.allocate_written, List.length_nil, List.length_append, List.length_singleton]
    omega
  have hput : ∀ encoded : Block UInt8, encoded.put 0 = encoded.putAll [0] := by
    intro encoded
    change _ = (encoded.put 0).bind some
    cases encoded.put 0
    all_goals rfl
  refine ⟨Block.extend _ _ hroom, ?_, rfl⟩
  rw [encodeLoop_eq, encode_eq_text, funext hput, ← Block.putAll_append, Block.putAll_eq _ _ hroom]

theorem length_text (b : Bytes) : (base64Scheme.text b).length = 4 * ((b.length + 2) / 3) := by
  rw [← encode_eq_text, length_encode]

/-- The size that is computed is that of the text with its NUL, and the text is what is returned. -/
theorem encodeInternal_produces {b : Bytes} (h : (base64Scheme.text b).length + 2 ≤ sizeMax) :
    Produces {} (fun allocations => encodeInternal allocations b) (base64Scheme.text b) := by
  have hlength := length_text b
  have hneeded : neededSize b.length = (base64Scheme.text b).length + 1 := by
    rw [← encode_eq_text]
    apply neededSize_eq
    omega
  have hcapacity : (neededSize b.length + 1) % (sizeMax + 1) = neededSize b.length + 1 := by
    apply Nat.mod_eq_of_lt
    omega
  rcases encodeLoop_writes b (Nat.le_succ_of_le (Nat.le_of_eq hneeded.symm)) with ⟨encoded, hwrites, hwritten⟩
  have hstring : cString encoded.written = base64Scheme.text b := by
    rw [hwritten, cString_append fun hzero => text_ne_zero hzero rfl]
    exact List.append_nil _
  have hresult : ∀ allocations : Allocations, encodeInternal allocations b =
      if allocations.encoded = false then some none
      else if allocations.string = false then some none
      else some (some (base64Scheme.text b)) := by
    intro allocations
    rw [encodeInternal, hcapacity]
    by_cases hencoded : allocations.encoded = false
    · rw [if_pos hencoded, if_pos hencoded]
    · rw [if_neg hencoded, if_neg hencoded]
      change (encodeLoop b _).bind (fun block => (block.put 0).bind fun block =>
        if allocations.string = false then some none else some (some (cString block.written))) = _
      rw [← Option.bind_assoc, hwrites, Option.bind_some, hstring]
  constructor
  · exact hresult {}
  · intro allocations
    change encodeInternal allocations b = _ ∨ encodeInternal allocations b = _
    rw [hresult allocations]
    split_ifs
    · exact Or.inr rfl
    · exact Or.inr rfl
    · exact Or.inl rfl

theorem base64EncodeBytes_produces {b : Bytes} (h : (base64Scheme.text b).length + 2 ≤ sizeMax) :
    Produces {} (fun allocations => base64EncodeBytes allocations (some b)) (base64Scheme.text b) := by
  cases b with
  | nil =>
    rw [Scheme.text_nil]
    refine ⟨rfl, ?_⟩
    intro allocations
    change (if allocations.string = false then _ else _) = _ ∨
      (if allocations.string = false then _ else _) = _
    split_ifs
    · exact Or.inr rfl
    · exact Or.inl rfl
  | cons b0 rest => exact encodeInternal_produces h

theorem decoder_produces {t : Bytes} (h : Canonical t) (uninitialised : Nat → UInt8) :
    Produces {} (fun allocations => decoder allocations (some t) uninitialised)
      (base64decode (base64Values t)) := by
  have hlen := decodeLen_canonical h
  have hmod : t.length % 4 = 0 := by
    rcases h with ⟨_, _, _, _, hlength, _, _⟩
    omega
  have hroom : (Block.allocate (base64decodeLen t) : Block UInt8).written.length +
      (base64decode (base64Values t)).length ≤ base64decodeLen t := by
    rw [Block.allocate_written, List.length_nil, Nat.zero_add]
    exact Nat.le_of_eq hlen.symm
  have hwrites := Block.putAll_eq (Block.allocate (base64decodeLen t)) _ hroom
  have hcontent : (Block.extend _ _ hroom).content uninitialised =
      base64decode (base64Values t) := by
    rw [Block.content_full]
    · rfl
    · exact hlen.symm
  have hresult : ∀ allocations : Allocations, decoder allocations (some t) uninitialised =
      if allocations.buffer = false then some none
      else if 0 < base64decodeLen t then
        if allocations.content = false then some none
        else some (some (base64decode (base64Values t)))
      else some (some []) := by
    intro allocations
    rw [decoder, if_neg (not_not.2 hmod)]
    simp only [decodeLoop_eq, hwrites, Option.map_some, hcontent]
  have hempty : ¬ 0 < base64decodeLen t → base64decode (base64Values t) = [] := by
    intro hzero
    rw [← List.length_eq_zero_iff, ← hlen]
    omega
  constructor
  · change decoder {} (some t) uninitialised = _
    rw [hresult {}]
    by_cases hpos : 0 < base64decodeLen t
    · rw [if_pos hpos]
      rfl
    · rw [if_neg hpos, hempty hpos]
      rfl
  · intro allocations
    change decoder allocations (some t) uninitialised = _ ∨
      decoder allocations (some t) uninitialised = _
    rw [hresult allocations]
    split_ifs with hbuffer hpos hcontent
    · exact Or.inr rfl
    · exact Or.inr rfl
    · exact Or.inl rfl
    · rw [hempty hpos]
      exact Or.inl rfl

/-- The encoders return the base64 text, which fills the size that is computed, the decoder the bytes of
that text, and the bytes of a canonical text are encoded as that text. -/
theorem base64_roundTrip (uninitialised : Nat → UInt8) :
    (∀ b : Bytes, (base64Scheme.text b).length + 2 ≤ sizeMax →
      (base64Scheme.text b).length = 4 * ((b.length + 2) / 3) ∧
      neededSize b.length = (base64Scheme.text b).length + 1 ∧
      (∃ encoded : Block UInt8,
        ((encodeLoop b (.allocate (neededSize b.length))).bind fun encoded => encoded.put 0) =
          some encoded ∧ encoded.written = base64Scheme.text b ++ [0]) ∧
      Produces {} (fun allocations => base64EncodeBytes allocations (some b)) (base64Scheme.text b) ∧
      Produces {} (fun allocations => base64Encoder allocations (some b)) (base64Scheme.text b) ∧
      Produces {} (fun allocations => decoder allocations (some (base64Scheme.text b)) uninitialised) b) ∧
    ∀ t : Bytes, Canonical t → t.length + 2 ≤ sizeMax →
      ∃ decoded,
        Produces {} (fun allocations => decoder allocations (some t) uninitialised) decoded ∧
        Produces {} (fun allocations => base64EncodeBytes allocations (some decoded)) t ∧
        Produces {} (fun allocations => base64Encoder allocations (some decoded)) t := by
  constructor
  · intro b hsize
    have hlength := length_text b
    have hneeded : neededSize b.length = (base64Scheme.text b).length + 1 := by
      rw [← encode_eq_text]
      apply neededSize_eq
      omega
    refine ⟨hlength, hneeded, encodeLoop_writes b (Nat.le_of_eq hneeded.symm),
      base64EncodeBytes_produces hsize, encodeInternal_produces hsize, ?_⟩
    have hdecoder := decoder_produces (canonical_encode b) uninitialised
    rwa [decode_encode, encode_eq_text] at hdecoder
  · intro t hcanonical hsize
    have htext : base64Scheme.text (base64decode (base64Values t)) = t := by
      rcases hcanonical with ⟨sextets, padding, hsextets, rfl, hlength, hpadding, hlast⟩
      rw [base64Values_canonical hsextets, ← encode_eq_text]
      simp only [List.length_append, List.length_map, List.length_replicate] at hlength
      exact encode_decode hpadding hsextets hlength hlast
    rw [← htext] at hsize
    refine ⟨_, decoder_produces hcanonical uninitialised, ?_, ?_⟩
    · have hencode := base64EncodeBytes_produces hsize
      rwa [htext] at hencode
    · have hencode := encodeInternal_produces hsize
      rwa [htext] at hencode

/-- Two bytes, and their text. -/
theorem base64_fo :
    Produces {} (fun allocations => base64Encoder allocations (some (ascii "fo"))) (ascii "Zm8=") ∧
      ∃ decoded, Produces {}
        (fun allocations => decoder allocations (some (ascii "Zm8=")) fun _ => 0) decoded ∧
        Produces {} (fun allocations => base64EncodeBytes allocations (some decoded)) (ascii "Zm8=") := by
  have htext : base64Scheme.text (ascii "fo") = ascii "Zm8=" := by
    rw [← encode_eq_text]
    decide
  have hcanonical : Canonical (ascii "Zm8=") :=
    ⟨[25, 38, 60], 1, by decide, by decide, by decide, by decide, by decide⟩
  have hroundTrip := base64_roundTrip fun _ => 0
  have hencode := hroundTrip.1 (ascii "fo") (by rw [htext]; decide)
  rcases hroundTrip.2 (ascii "Zm8=") hcanonical (by decide) with
    ⟨decoded, hdecoder, hbytes, -⟩
  rw [htext] at hencode
  exact ⟨hencode.2.2.2.2.1, decoded, hdecoder, hbytes⟩

end SharedUtility.Base64
