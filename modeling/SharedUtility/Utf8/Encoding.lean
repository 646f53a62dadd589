import Mathlib.Data.List.Basic

/-!
# Utf8.Encoding — the shortest-form encoding of numbers below `2 ^ 21`

UTF-8 writes a Unicode scalar value in the shortest of four bit patterns. The patterns have room
for more than the scalar values: for the surrogates `U+D800..U+DFFF` and for everything from
`0x110000` up to `2 ^ 21`. This file defines

* `encode v`, the shortest pattern that holds `v`, which on a `Char` is its UTF-8 encoding;
* `WellFormed bytes`, that `bytes` is the UTF-8 encoding of a text;

and shows that a concatenation of encodings can be split in one way only.
-/

namespace SharedUtility.Utf8

/-- The numbers that the four patterns have room for. -/
def patternLimit : Nat := 0x200000

/-- `v` in the shortest of the four patterns that holds it. -/
def encode (v : Nat) : List UInt8 :=
  if v ≤ 0x7F then
    [UInt8.ofNat v]
  else if v ≤ 0x7FF then
    [UInt8.ofNat (v / 64 % 0x20 + 0xC0), UInt8.ofNat (v % 0x40 + 0x80)]
  else if v ≤ 0xFFFF then
    [UInt8.ofNat (v / 4096 % 0x10 + 0xE0), UInt8.ofNat (v / 64 % 0x40 + 0x80),
      UInt8.ofNat (v % 0x40 + 0x80)]
  else
    [UInt8.ofNat (v / 262144 % 0x08 + 0xF0), UInt8.ofNat (v / 4096 % 0x40 + 0x80),
      UInt8.ofNat (v / 64 % 0x40 + 0x80), UInt8.ofNat (v % 0x40 + 0x80)]

/-- The bytes are the UTF-8 encoding of a text, that is of a list of Unicode scalar values. -/
def WellFormed (bytes : List UInt8) : Prop :=
  ∃ text : List Char, text.flatMap String.utf8EncodeChar = bytes

theorem encode_char (c : Char) : encode c.toNat = String.utf8EncodeChar c :=
  rfl

theorem char_lt_patternLimit (c : Char) : c.toNat < patternLimit := by
  have hnat : c.toNat.isValidChar := c.valid
  unfold Nat.isValidChar at hnat
  unfold patternLimit
  omega

/-! ## The four patterns, by the values of their bytes -/

/-- The values of a byte `10xxxxxx`. -/
def IsTail (b : UInt8) : Prop :=
  0x80 ≤ b.toNat ∧ b.toNat < 0xC0

/-- `Encoded v bytes`: the bytes are one of the four patterns, filled with `v`, and no shorter
pattern holds `v`. -/
inductive Encoded (v : Nat) : List UInt8 → Prop where
  | one {b0 : UInt8} :
      b0.toNat < 0x80 → v = b0.toNat → Encoded v [b0]
  | two {b0 b1 : UInt8} :
      0xC0 ≤ b0.toNat ∧ b0.toNat < 0xE0 → IsTail b1 →
      v = b0.toNat % 32 * 64 + b1.toNat % 64 → 0x7F < v → Encoded v [b0, b1]
  | three {b0 b1 b2 : UInt8} :
      0xE0 ≤ b0.toNat ∧ b0.toNat < 0xF0 → IsTail b1 → IsTail b2 →
      v = (b0.toNat % 16 * 64 + b1.toNat % 64) * 64 + b2.toNat % 64 → 0x7FF < v →
      Encoded v [b0, b1, b2]
  | four {b0 b1 b2 b3 : UInt8} :
      0xF0 ≤ b0.toNat ∧ b0.toNat < 0xF8 → IsTail b1 → IsTail b2 → IsTail b3 →
      v = ((b0.toNat % 8 * 64 + b1.toNat % 64) * 64 + b2.toNat % 64) * 64 + b3.toNat % 64 →
      0xFFFF < v → Encoded v [b0, b1, b2, b3]

theorem encoded_encode {v : Nat} (hv : v < patternLimit) : Encoded v (encode v) := by
  unfold patternLimit at hv
  unfold encode
  split
  case isTrue hone =>
    apply Encoded.one <;> rw [UInt8.toNat_ofNat'] <;> omega
  case isFalse hone =>
    split
    case isTrue htwo =>
      refine Encoded.two ?_ ?_ ?_ (by omega) <;> simp only [IsTail, UInt8.toNat_ofNat'] <;> omega
    case isFalse htwo =>
      split
      case isTrue hthree =>
        refine Encoded.three ?_ ?_ ?_ ?_ (by omega) <;> simp only [IsTail, UInt8.toNat_ofNat'] <;> omega
      case isFalse hthree =>
        refine Encoded.four ?_ ?_ ?_ ?_ ?_ (by omega) <;> simp only [IsTail, UInt8.toNat_ofNat'] <;> omega

namespace Encoded

variable {v w : Nat} {bytes bytes' rest rest' : List UInt8}

theorem lt_patternLimit (h : Encoded v bytes) : v < patternLimit := by
  unfold patternLimit
  cases h <;> omega

theorem encode_eq (h : Encoded v bytes) : encode v = bytes := by
  unfold encode
  cases h with
  | one h0 hv =>
    subst hv
    rw [if_pos (by omega), UInt8.ofNat_toNat]
  | two h0 h1 hv hshortest =>
    unfold IsTail at h1
    rw [if_neg (by omega), if_pos (by omega)]
    simp only [List.cons.injEq, ← UInt8.toNat_inj, UInt8.toNat_ofNat', and_true]
    omega
  | three h0 h1 h2 hv hshortest =>
    unfold IsTail at h1 h2
    rw [if_neg (by omega), if_neg (by omega), if_pos (by omega)]
    simp only [List.cons.injEq, ← UInt8.toNat_inj, UInt8.toNat_ofNat', and_true]
    omega
  | four h0 h1 h2 h3 hv hshortest =>
    unfold IsTail at h1 h2 h3
    rw [if_neg (by omega), if_neg (by omega), if_neg (by omega)]
    simp only [List.cons.injEq, ← UInt8.toNat_inj, UInt8.toNat_ofNat', and_true]
    omega

theorem ne_nil (h : Encoded v bytes) : bytes ≠ [] := by
  cases h <;> exact nofun

/-- The first byte tells which pattern it starts, so no encoding continues another one. -/
theorem split_unique (h : Encoded v bytes) (h' : Encoded w bytes')
    (heq : bytes ++ rest = bytes' ++ rest') : v = w ∧ rest = rest' := by
  cases h <;> cases h' <;>
    simp only [List.cons_append, List.nil_append, List.cons.injEq] at heq
  all_goals
    obtain ⟨rfl, heq⟩ := heq
    first
      | exact ⟨by omega, heq⟩
      | (obtain ⟨rfl, heq⟩ := heq; exact ⟨by omega, heq⟩)
      | (obtain ⟨rfl, rfl, heq⟩ := heq; exact ⟨by omega, heq⟩)
      | (obtain ⟨rfl, rfl, rfl, heq⟩ := heq; exact ⟨by omega, heq⟩)
      | omega

end Encoded

/-! ## Concatenations of encodings -/

/-- The bytes are a concatenation of encodings of numbers that the patterns have room for. -/
def PatternText (bytes : List UInt8) : Prop :=
  ∃ vs : List Nat, (∀ v ∈ vs, v < patternLimit) ∧ vs.flatMap encode = bytes

/-- Where the bytes are a concatenation of encodings, all the numbers are scalar values. -/
def ScalarsOnly (bytes : List UInt8) : Prop :=
  ∀ vs : List Nat, (∀ v ∈ vs, v < patternLimit) → vs.flatMap encode = bytes →
    ∀ v ∈ vs, v.isValidChar

theorem map_toNat_lt_patternLimit (text : List Char) :
    ∀ v ∈ text.map Char.toNat, v < patternLimit := by
  intro v hv
  obtain ⟨c, -, rfl⟩ := List.mem_map.mp hv
  exact char_lt_patternLimit c

theorem flatMap_encode_map_toNat (text : List Char) :
    (text.map Char.toNat).flatMap encode = text.flatMap String.utf8EncodeChar := by
  rw [List.flatMap_map]
  rfl

theorem WellFormed.patternText {bytes : List UInt8} (h : WellFormed bytes) :
    PatternText bytes := by
  obtain ⟨text, rfl⟩ := h
  exact ⟨text.map Char.toNat, map_toNat_lt_patternLimit text, flatMap_encode_map_toNat text⟩

theorem flatMap_encode_injective {vs ws : List Nat}
    (hvs : ∀ v ∈ vs, v < patternLimit) (hws : ∀ w ∈ ws, w < patternLimit)
    (heq : vs.flatMap encode = ws.flatMap encode) : vs = ws := by
  induction vs generalizing ws with
  | nil =>
    cases ws with
    | nil => rfl
    | cons w ws =>
      have hne := (encoded_encode (hws w List.mem_cons_self)).ne_nil
      simp only [List.flatMap_nil, List.flatMap_cons] at heq
      exact absurd (List.append_eq_nil_iff.mp heq.symm).1 hne
  | cons v vs ih =>
    cases ws with
    | nil =>
      have hne := (encoded_encode (hvs v List.mem_cons_self)).ne_nil
      simp only [List.flatMap_nil, List.flatMap_cons] at heq
      exact absurd (List.append_eq_nil_iff.mp heq).1 hne
    | cons w ws =>
      simp only [List.flatMap_cons] at heq
      obtain ⟨hhead, htail⟩ := (encoded_encode (hvs v List.mem_cons_self)).split_unique
        (encoded_encode (hws w List.mem_cons_self)) heq
      rw [hhead, ih (fun v hv => hvs v (List.mem_cons_of_mem _ hv))
        (fun w hw => hws w (List.mem_cons_of_mem _ hw)) htail]

private theorem toNat_charOfNat {v : Nat} (hv : v.isValidChar) : (Char.ofNat v).toNat = v := by
  rw [Char.ofNat, dif_pos hv]
  rfl

/-- Numbers below the limit encode a well-formed string when, and only when, all of them are
scalar values. -/
theorem wellFormed_flatMap_encode {vs : List Nat} (hvs : ∀ v ∈ vs, v < patternLimit) :
    WellFormed (vs.flatMap encode) ↔ ∀ v ∈ vs, v.isValidChar := by
  constructor
  · rintro ⟨text, htext⟩
    have henc := (flatMap_encode_map_toNat text).trans htext
    rw [← flatMap_encode_injective (map_toNat_lt_patternLimit text) hvs henc]
    intro w hw
    obtain ⟨c, -, rfl⟩ := List.mem_map.mp hw
    exact c.valid
  · intro hscalar
    refine ⟨vs.map Char.ofNat, ?_⟩
    rw [List.flatMap_map]
    apply List.flatMap_congr
    intro v hv
    rw [← encode_char, toNat_charOfNat (hscalar v hv)]

end SharedUtility.Utf8
