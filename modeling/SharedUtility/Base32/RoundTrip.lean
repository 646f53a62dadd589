import Mathlib.Tactic.IntervalCases
import SharedUtility.Base32.Code
import SharedUtility.BaseEncoding

/-!
# Base32.RoundTrip — the encoder writes the base32 text, and the decoder takes it back

A block of one to five bytes is five bytes, zeros for those that are missing, and eight quintets of bits;
the quintets that hold no bit of the block are padding.
-/

namespace SharedUtility.Base32

open Memory BaseEncoding

/-- The base32 encoding in lower case: five bytes are eight characters. -/
def base32Scheme : Scheme where
  blockBytes := 5
  blockChars := 8
  charBits := 5
  alphabet := ascii "abcdefghijklmnopqrstuvwxyz234567"
  pad := 0x3D
  blockBytes_pos := by decide
  bits_eq := by decide
  alphabet_length := by decide

/-! ## Quintets -/

/-- A character of the alphabet, by its value. -/
def quintetChar (n : Nat) : UInt8 :=
  base32Scheme.alphabet.getD n 0x3D

theorem quintet_tables {n : Nat} (h : n < 32) :
    base32Values.getD n 0 = quintetChar n ∧
      convertValueToBase32Char (quintetChar n) = UInt8.ofNat n ∧ quintetChar n < 0x80 ∧
        quintetChar n ≠ 0 ∧ UInt8.ofNat n ≠ base32EqualSign := by
  revert n
  decide

theorem pad_tables :
    base32Values.getD 32 0 = 0x3D ∧ convertValueToBase32Char 0x3D = base32EqualSign := by
  decide

def quintets (b0 b1 b2 b3 b4 : Nat) : List Nat :=
  [b0 / 8, b0 % 8 * 4 + b1 / 64, b1 / 2 % 32, b1 % 2 * 16 + b2 / 16, b2 % 16 * 2 + b3 / 128,
    b3 / 4 % 32, b3 % 4 * 8 + b4 / 32, b4 % 32]

theorem quintets_lt {b0 b1 b2 b3 b4 : Nat} (h0 : b0 < 256) (h1 : b1 < 256) (h2 : b2 < 256)
    (h3 : b3 < 256) (h4 : b4 < 256) {n : Nat} (hn : n ∈ quintets b0 b1 b2 b3 b4) : n < 32 := by
  simp only [quintets, List.mem_cons, List.not_mem_nil, or_false] at hn
  omega

/-- How many characters hold the bits of so many bytes. -/
def charCount (bytes : Nat) : Nat :=
  (8 * bytes + 4) / 5

/-- The text of some of the quintets, and padding. -/
def groupText (count : Nat) (qs : List Nat) : Bytes :=
  (qs.take count).map quintetChar ++ List.replicate (8 - count) 0x3D

/-- The byte at place `i` of a block, or zero. -/
def byteAt (block : Bytes) (i : Nat) : UInt8 :=
  block.getD i 0

def blockQuintets (block : Bytes) : List Nat :=
  quintets (byteAt block 0).toNat (byteAt block 1).toNat (byteAt block 2).toNat
    (byteAt block 3).toNat (byteAt block 4).toNat

theorem blockQuintets_lt {block : Bytes} {n : Nat} (hn : n ∈ blockQuintets block) : n < 32 :=
  quintets_lt (UInt8.toNat_lt _) (UInt8.toNat_lt _) (UInt8.toNat_lt _) (UInt8.toNat_lt _)
    (UInt8.toNat_lt _) hn

theorem block_cases {block : Bytes} (hne : block ≠ []) (h : block.length ≤ 5) :
    (∃ b0, block = [b0]) ∨ (∃ b0 b1, block = [b0, b1]) ∨ (∃ b0 b1 b2, block = [b0, b1, b2]) ∨
      (∃ b0 b1 b2 b3, block = [b0, b1, b2, b3]) ∨ ∃ b0 b1 b2 b3 b4, block = [b0, b1, b2, b3, b4] := by
  rcases block with _ | ⟨b0, _ | ⟨b1, _ | ⟨b2, _ | ⟨b3, _ | ⟨b4, _ | ⟨b5, rest⟩⟩⟩⟩⟩⟩
  case nil => exact absurd rfl hne
  case cons.nil => exact Or.inl ⟨_, rfl⟩
  case cons.cons.nil => exact Or.inr (Or.inl ⟨_, _, rfl⟩)
  case cons.cons.cons.nil => exact Or.inr (Or.inr (Or.inl ⟨_, _, _, rfl⟩))
  case cons.cons.cons.cons.nil => exact Or.inr (Or.inr (Or.inr (Or.inl ⟨_, _, _, _, rfl⟩)))
  case cons.cons.cons.cons.cons.nil =>
    exact Or.inr (Or.inr (Or.inr (Or.inr ⟨_, _, _, _, _, rfl⟩)))
  case cons.cons.cons.cons.cons.cons =>
    simp only [List.length_cons] at h
    omega

theorem number_padded {block : Bytes} (hne : block ≠ []) (h : block.length ≤ 5) :
    number block * 256 ^ (5 - block.length) =
      (((((byteAt block 0).toNat * 256 + (byteAt block 1).toNat) * 256 +
        (byteAt block 2).toNat) * 256 + (byteAt block 3).toNat) * 256 + (byteAt block 4).toNat) := by
  rcases block_cases hne h with ⟨b0, rfl⟩ | ⟨b0, b1, rfl⟩ | ⟨b0, b1, b2, rfl⟩ |
    ⟨b0, b1, b2, b3, rfl⟩ | ⟨b0, b1, b2, b3, b4, rfl⟩
  all_goals
    simp [number, byteAt]
    try omega

theorem digits_eq {b0 b1 b2 b3 b4 : Nat} (h0 : b0 < 256) (h1 : b1 < 256) (h2 : b2 < 256)
    (h3 : b3 < 256) (h4 : b4 < 256) :
    ([0, 1, 2, 3, 4, 5, 6, 7].map fun i =>
      ((((b0 * 256 + b1) * 256 + b2) * 256 + b3) * 256 + b4) / 2 ^ (5 * (7 - i)) % 32) =
        quintets b0 b1 b2 b3 b4 := by
  simp only [quintets, List.map_cons, List.map_nil, Nat.reduceSub, Nat.reduceMul, Nat.reducePow,
    List.cons.injEq, and_true]
  refine ⟨?_, ?_, ?_, ?_, ?_, ?_, ?_, ?_⟩
  all_goals omega

theorem charCount_le {bytes : Nat} (h : bytes ≤ 5) : charCount bytes ≤ 8 := by
  unfold charCount
  omega

theorem groupText_map (f : Nat → Nat) {count : Nat} (h : count ≤ 8) :
    groupText count ([0, 1, 2, 3, 4, 5, 6, 7].map f) =
      [0, 1, 2, 3, 4, 5, 6, 7].map fun i => if i < count then quintetChar (f i) else 0x3D := by
  interval_cases count
  all_goals rfl

theorem blockText_eq {block : Bytes} (hne : block ≠ []) (h : block.length ≤ 5) :
    base32Scheme.blockText block = groupText (charCount block.length) (blockQuintets block) := by
  have hdigits := digits_eq (byteAt block 0).toNat_lt (byteAt block 1).toNat_lt
    (byteAt block 2).toNat_lt (byteAt block 3).toNat_lt (byteAt block 4).toNat_lt
  rw [blockQuintets, ← hdigits, groupText_map _ (charCount_le h), ← number_padded hne h]
  rfl

/-! ## Encoding -/

/-- The switch reads the bytes of the block, and the others are as if they were zero. -/
theorem chunks_eq {iterator padded : Nat → UInt8} {blockLen : Nat} (hpos : 1 ≤ blockLen)
    (h : blockLen ≤ 5) (hread : ∀ i, i < blockLen → iterator i = padded i)
    (hzero : ∀ i, blockLen ≤ i → padded i = 0) : chunks iterator blockLen = chunks padded 5 := by
  interval_cases blockLen
  · simp [chunks, hread 0, hzero 1, hzero 2, hzero 3, hzero 4]
  · simp [chunks, hread 0, hread 1, hzero 2, hzero 3, hzero 4]
  · simp [chunks, hread 0, hread 1, hread 2, hzero 3, hzero 4]
  · simp [chunks, hread 0, hread 1, hread 2, hread 3, hzero 4]
  · simp [chunks, hread 0, hread 1, hread 2, hread 3, hread 4]

theorem toNat_low_or_high {low high : UInt8} {i : Nat} (hhigh : 2 ^ i ∣ high.toNat)
    (hlow : low.toNat < 2 ^ i) : (low ||| high).toNat = high.toNat + low.toNat := by
  rw [UInt8.or_comm, toNat_or_of_lt hhigh hlow]

theorem chunks_toNat (iterator : Nat → UInt8) :
    let p := chunks iterator 5
    [p.pos1, p.pos2, p.pos3, p.pos4, p.pos5, p.pos6, p.pos7, p.pos8].map UInt8.toNat =
      quintets (iterator 0).toNat (iterator 1).toNat (iterator 2).toNat (iterator 3).toNat
        (iterator 4).toNat := by
  have h0 := (iterator 0).toNat_lt
  have h1 := (iterator 1).toNat_lt
  have h2 := (iterator 2).toNat_lt
  have h3 := (iterator 3).toNat_lt
  have h4 := (iterator 4).toNat_lt
  -- the lower bits of a chunk, and its higher bits where there are such
  have low2 : ((iterator 1 &&& 0xC0) >>> 6).toNat = (iterator 1).toNat / 64 := by
    rw [toNat_field (i := 6) (k := 2) _ rfl (by decide) rfl]
    omega
  have low4 : ((iterator 2 &&& 0xF0) >>> 4).toNat = (iterator 2).toNat / 16 := by
    rw [toNat_field (i := 4) (k := 4) _ rfl (by decide) rfl]
    omega
  have low5 : ((iterator 3 &&& 0x80) >>> 7).toNat = (iterator 3).toNat / 128 := by
    rw [toNat_field (i := 7) (k := 1) _ rfl (by decide) rfl]
    omega
  have low7 : ((iterator 4 &&& 0xE0) >>> 5).toNat = (iterator 4).toNat / 32 := by
    rw [toNat_field (i := 5) (k := 3) _ rfl (by decide) rfl]
    omega
  have high2 : ((iterator 0 &&& 0x07) <<< 2).toNat = (iterator 0).toNat % 8 * 4 := by
    rw [toNat_shiftLeft (i := 2) _ rfl (by decide), toNat_mask (k := 3) _ rfl]
    omega
  have high4 : ((iterator 1 &&& 0x01) <<< 4).toNat = (iterator 1).toNat % 2 * 16 := by
    rw [toNat_shiftLeft (i := 4) _ rfl (by decide), toNat_mask (k := 1) _ rfl]
    omega
  have high5 : ((iterator 2 &&& 0x0F) <<< 1).toNat = (iterator 2).toNat % 16 * 2 := by
    rw [toNat_shiftLeft (i := 1) _ rfl (by decide), toNat_mask (k := 4) _ rfl]
    omega
  have high7 : ((iterator 3 &&& 0x03) <<< 3).toNat = (iterator 3).toNat % 4 * 8 := by
    rw [toNat_shiftLeft (i := 3) _ rfl (by decide), toNat_mask (k := 2) _ rfl]
    omega
  simp only [chunks, quintets, List.map_cons, List.map_nil, if_true, Nat.reduceLeDiff,
    List.cons.injEq, and_true]
  refine ⟨?_, ?_, ?_, ?_, ?_, ?_, ?_, ?_⟩
  · rw [toNat_field (i := 3) (k := 5) (iterator 0) rfl (by decide) rfl]
    omega
  · rw [toNat_low_or_high (i := 2) (by rw [high2]; omega) (by rw [low2]; omega), high2, low2]
  · exact toNat_field (i := 1) (k := 5) (iterator 1) rfl (by decide) rfl
  · rw [toNat_low_or_high (i := 4) (by rw [high4]; omega) (by rw [low4]; omega), high4, low4]
  · rw [toNat_low_or_high (i := 1) (by rw [high5]; omega) (by rw [low5]; omega), high5, low5]
  · exact toNat_field (i := 2) (k := 5) (iterator 3) rfl (by decide) rfl
  · rw [toNat_low_or_high (i := 3) (by rw [high7]; omega) (by rw [low7]; omega), high7, low7]
  · exact toNat_mask (k := 5) (iterator 4) rfl

theorem blockChars_eq {source : Bytes} {blockLen : Nat} (hpos : 1 ≤ blockLen) (h : blockLen ≤ 5)
    (hlen : blockLen ≤ source.length) :
    blockChars source blockLen = base32Scheme.blockText (source.take blockLen) := by
  have htake : (source.take blockLen).length = blockLen := List.length_take_of_le hlen
  have hne : source.take blockLen ≠ [] := List.ne_nil_of_length_pos (by omega)
  have hchunks : chunks (fun i => source.getD i 0) blockLen =
      chunks (byteAt (source.take blockLen)) 5 := by
    apply chunks_eq hpos h
    · intro i hi
      simp only [byteAt, List.getD_eq_getElem?_getD, List.getElem?_take_of_lt hi]
    · intro i hi
      rw [byteAt, List.getD_eq_getElem?_getD, List.getElem?_eq_none (by omega), Option.getD_none]
  have hquintets := chunks_toNat (byteAt (source.take blockLen))
  rcases hp : chunks (byteAt (source.take blockLen)) 5 with ⟨p1, p2, p3, p4, p5, p6, p7, p8⟩
  rw [hp] at hquintets
  have htable : ∀ p ∈ [p1, p2, p3, p4, p5, p6, p7, p8],
      base32Values.getD p.toNat 0 = quintetChar p.toNat := by
    intro p hmem
    have hquintet : p.toNat ∈ blockQuintets (source.take blockLen) := by
      rw [blockQuintets, ← hquintets]
      exact List.mem_map_of_mem hmem
    exact (quintet_tables (blockQuintets_lt hquintet)).1
  have hpad : base32Values.getD (32 : UInt8).toNat 0 = 0x3D := pad_tables.1
  simp only [List.forall_mem_cons] at htable
  rcases htable with ⟨e1, e2, e3, e4, e5, e6, e7, e8, -⟩
  rw [blockText_eq hne (by omega), htake, blockChars, hchunks, hp, blockQuintets, ← hquintets]
  clear hchunks hp hquintets hne htake hlen
  interval_cases blockLen
  all_goals
    simp only [padded, Nat.reduceLeDiff, if_true, if_false, List.map_cons, List.map_nil, e1, e2, e3,
      e4, e5, e6, e7, e8, hpad]
    rfl

theorem encodeLoop_eq (source : Bytes) (result : Block UInt8) :
    encodeLoop source result = result.putAll (base32Scheme.text source) := by
  induction source, result using encodeLoop.induct with
  | case1 result => rw [encodeLoop, if_pos rfl, Scheme.text_nil, Block.putAll_nil]
  | case2 source result hne blockLen ih =>
    have hpos := List.length_pos_of_ne_nil hne
    have hblock : blockChars source blockLen = base32Scheme.blockText (source.take 5) ∧
        source.drop blockLen = source.drop 5 := by
      unfold blockLen
      by_cases hlong : 5 < source.length
      · rw [dif_pos hlong]
        exact ⟨blockChars_eq (by decide) (Nat.le_refl 5) (Nat.le_of_lt hlong), rfl⟩
      · rw [dif_neg hlong, blockChars_eq hpos (by omega) (Nat.le_refl _), List.take_length,
          List.take_of_length_le (by omega), List.drop_length, List.drop_of_length_le (by omega)]
        exact ⟨rfl, rfl⟩
    rw [encodeLoop, if_neg hne, Scheme.text, if_neg hne, Block.putAll_append]
    change (result.putAll (blockChars source blockLen)).bind
      (fun result => encodeLoop (source.drop blockLen) result) = _
    rw [hblock.1]
    congr 1
    funext result
    rw [ih result, hblock.2]
    rfl

/-! ## Decoding -/

theorem groupBytes_toNat (i0 i1 i2 i3 i4 i5 i6 i7 : UInt8) :
    (groupBytes i0 i1 i2 i3 i4 i5 i6 i7).map UInt8.toNat =
      [i0.toNat % 32 * 8 + i1.toNat % 32 / 4,
        i1.toNat % 4 * 64 + i2.toNat % 32 * 2 + i3.toNat % 32 / 16,
        i3.toNat % 16 * 16 + i4.toNat % 32 / 2,
        i4.toNat % 2 * 128 + i5.toNat % 32 * 4 + i6.toNat % 32 / 8,
        i6.toNat % 8 * 32 + i7.toNat % 32] := by
  simp only [groupBytes, List.map_cons, List.map_nil, List.cons.injEq, and_true]
  refine ⟨?_, ?_, ?_, ?_, ?_⟩
  · have hhigh : ((i0 &&& 0x1F) <<< 3).toNat = i0.toNat % 32 * 8 := by
      rw [toNat_shiftLeft (i := 3) _ rfl (by decide), toNat_mask (k := 5) _ rfl]
      omega
    have hlow : ((i1 &&& 0x1C) >>> 2).toNat = i1.toNat % 32 / 4 := by
      rw [toNat_field (i := 2) (k := 3) _ rfl (by decide) rfl]
      omega
    rw [toNat_or_of_lt (i := 3) (by rw [hhigh]; omega) (by rw [hlow]; omega), hhigh, hlow]
  · have hhigh : ((i1 &&& 0x03) <<< 6).toNat = i1.toNat % 4 * 64 := by
      rw [toNat_shiftLeft (i := 6) _ rfl (by decide), toNat_mask (k := 2) _ rfl]
      omega
    have hmiddle : ((i2 &&& 0x1F) <<< 1).toNat = i2.toNat % 32 * 2 := by
      rw [toNat_shiftLeft (i := 1) _ rfl (by decide), toNat_mask (k := 5) _ rfl]
      omega
    have hlow : ((i3 &&& 0x10) >>> 4).toNat = i3.toNat % 32 / 16 := by
      rw [toNat_field (i := 4) (k := 1) _ rfl (by decide) rfl]
      omega
    have hupper := toNat_or_of_lt (i := 6) (a := (i1 &&& 0x03) <<< 6) (b := (i2 &&& 0x1F) <<< 1)
      (by rw [hhigh]; omega) (by rw [hmiddle]; omega)
    rw [hhigh, hmiddle] at hupper
    rw [toNat_or_of_lt (i := 1) (by rw [hupper]; omega) (by rw [hlow]; omega), hupper, hlow]
  · have hhigh : ((i3 &&& 0x0F) <<< 4).toNat = i3.toNat % 16 * 16 := by
      rw [toNat_shiftLeft (i := 4) _ rfl (by decide), toNat_mask (k := 4) _ rfl]
      omega
    have hlow : ((i4 &&& 0x1E) >>> 1).toNat = i4.toNat % 32 / 2 := by
      rw [toNat_field (i := 1) (k := 4) _ rfl (by decide) rfl]
      omega
    rw [toNat_or_of_lt (i := 4) (by rw [hhigh]; omega) (by rw [hlow]; omega), hhigh, hlow]
  · have hhigh : ((i4 &&& 0x01) <<< 7).toNat = i4.toNat % 2 * 128 := by
      rw [toNat_shiftLeft (i := 7) _ rfl (by decide), toNat_mask (k := 1) _ rfl]
      omega
    have hmiddle : ((i5 &&& 0x1F) <<< 2).toNat = i5.toNat % 32 * 4 := by
      rw [toNat_shiftLeft (i := 2) _ rfl (by decide), toNat_mask (k := 5) _ rfl]
      omega
    have hlow : ((i6 &&& 0x18) >>> 3).toNat = i6.toNat % 32 / 8 := by
      rw [toNat_field (i := 3) (k := 2) _ rfl (by decide) rfl]
      omega
    have hupper := toNat_or_of_lt (i := 7) (a := (i4 &&& 0x01) <<< 7) (b := (i5 &&& 0x1F) <<< 2)
      (by rw [hhigh]; omega) (by rw [hmiddle]; omega)
    rw [hhigh, hmiddle] at hupper
    rw [toNat_or_of_lt (i := 2) (by rw [hupper]; omega) (by rw [hlow]; omega), hupper, hlow]
  · have hhigh : ((i6 &&& 0x07) <<< 5).toNat = i6.toNat % 8 * 32 := by
      rw [toNat_shiftLeft (i := 5) _ rfl (by decide), toNat_mask (k := 3) _ rfl]
      omega
    have hlow : (i7 &&& 0x1F).toNat = i7.toNat % 32 := toNat_mask (k := 5) _ rfl
    rw [toNat_or_of_lt (i := 5) (by rw [hhigh]; omega) (by rw [hlow]; omega), hhigh, hlow]

section

variable (block : Bytes)

def quintetAt (i : Nat) : Nat :=
  (blockQuintets block).getD i 0

/-- The character at a place of the text of a block. -/
def groupChar (i : Nat) : UInt8 :=
  if i < charCount block.length then quintetChar (quintetAt block i) else 0x3D

/-- What it is converted to. -/
def groupInput (i : Nat) : UInt8 :=
  if i < charCount block.length then UInt8.ofNat (quintetAt block i) else base32EqualSign

variable {block}

theorem quintetAt_lt (i : Nat) : quintetAt block i < 32 := by
  unfold quintetAt
  by_cases hi : i < (blockQuintets block).length
  · rw [List.getD_eq_getElem?_getD, List.getElem?_eq_getElem hi]
    exact blockQuintets_lt (List.getElem_mem hi)
  · rw [List.getD_eq_getElem?_getD, List.getElem?_eq_none (by omega)]
    decide

theorem convert_groupChar (i : Nat) :
    convertValueToBase32Char (groupChar block i) = groupInput block i := by
  unfold groupChar groupInput
  split_ifs
  · exact (quintet_tables (quintetAt_lt i)).2.1
  · exact pad_tables.2

theorem groupChar_ascii (i : Nat) : groupChar block i < 0x80 := by
  unfold groupChar
  split_ifs
  · exact (quintet_tables (quintetAt_lt i)).2.2.1
  · decide

theorem groupInput_eq_pad (i : Nat) :
    groupInput block i = base32EqualSign ↔ charCount block.length ≤ i := by
  unfold groupInput
  split_ifs with hi
  · exact ⟨fun heq => absurd heq (quintet_tables (quintetAt_lt i)).2.2.2.2, fun hle => by omega⟩
  · exact ⟨fun _ => by omega, fun _ => rfl⟩

theorem blockText_groupChars (hne : block ≠ []) (h : block.length ≤ 5) :
    base32Scheme.blockText block =
      [groupChar block 0, groupChar block 1, groupChar block 2, groupChar block 3,
        groupChar block 4, groupChar block 5, groupChar block 6, groupChar block 7] := by
  have hquintets : blockQuintets block = [0, 1, 2, 3, 4, 5, 6, 7].map (quintetAt block) := rfl
  rw [blockText_eq hne h, hquintets, groupText_map _ (charCount_le h)]
  rfl

theorem quintetAt_zero (hne : block ≠ []) (h : block.length ≤ 5) {i : Nat}
    (hi : charCount block.length ≤ i) : quintetAt block i = 0 := by
  have hpos := List.length_pos_of_ne_nil hne
  have hzero : ∀ j, block.length ≤ j → byteAt block j = 0 := by
    intro j hj
    rw [byteAt, List.getD_eq_getElem?_getD, List.getElem?_eq_none hj, Option.getD_none]
  rcases Nat.lt_or_ge i 8 with hlt | hge
  · unfold charCount at hi
    generalize block.length = k at *
    interval_cases k
    all_goals
      interval_cases i
      all_goals simp [quintetAt, blockQuintets, quintets, hzero]
  · have hlength : (blockQuintets block).length ≤ i := hge
    rw [quintetAt, List.getD_eq_getElem?_getD, List.getElem?_eq_none hlength, Option.getD_none]

theorem groupInput_mod (hne : block ≠ []) (h : block.length ≤ 5) (i : Nat) :
    (groupInput block i).toNat % 32 = quintetAt block i := by
  have hlt : quintetAt block i < 32 := quintetAt_lt i
  unfold groupInput
  split_ifs with hi
  · rw [UInt8.toNat_ofNat']
    omega
  · rw [quintetAt_zero hne h (by omega)]
    rfl

theorem paddingBytes_eq (hne : block ≠ []) (h : block.length ≤ 5) :
    paddingBytes (groupInput block 2) (groupInput block 4) (groupInput block 5)
      (groupInput block 7) = 5 - block.length := by
  have hpos := List.length_pos_of_ne_nil hne
  simp only [paddingBytes, groupInput_eq_pad]
  generalize block.length = k at *
  interval_cases k
  all_goals rfl

theorem groupBytes_eq (hne : block ≠ []) (h : block.length ≤ 5) :
    groupBytes (groupInput block 0) (groupInput block 1) (groupInput block 2) (groupInput block 3)
      (groupInput block 4) (groupInput block 5) (groupInput block 6) (groupInput block 7) =
        [byteAt block 0, byteAt block 1, byteAt block 2, byteAt block 3, byteAt block 4] := by
  apply List.map_injective_iff.2 fun _ _ heq => UInt8.toNat_inj.1 heq
  have hb0 := (byteAt block 0).toNat_lt
  have hb1 := (byteAt block 1).toNat_lt
  have hb2 := (byteAt block 2).toNat_lt
  have hb3 := (byteAt block 3).toNat_lt
  have hb4 := (byteAt block 4).toNat_lt
  have q0 : _ = (byteAt block 0).toNat / 8 := groupInput_mod hne h 0
  have q1 : _ = (byteAt block 0).toNat % 8 * 4 + (byteAt block 1).toNat / 64 :=
    groupInput_mod hne h 1
  have q2 : _ = (byteAt block 1).toNat / 2 % 32 := groupInput_mod hne h 2
  have q3 : _ = (byteAt block 1).toNat % 2 * 16 + (byteAt block 2).toNat / 16 :=
    groupInput_mod hne h 3
  have q4 : _ = (byteAt block 2).toNat % 16 * 2 + (byteAt block 3).toNat / 128 :=
    groupInput_mod hne h 4
  have q5 : _ = (byteAt block 3).toNat / 4 % 32 := groupInput_mod hne h 5
  have q6 : _ = (byteAt block 3).toNat % 4 * 8 + (byteAt block 4).toNat / 32 :=
    groupInput_mod hne h 6
  have q7 : _ = (byteAt block 4).toNat % 32 := groupInput_mod hne h 7
  rw [groupBytes_toNat]
  simp only [List.map_cons, List.map_nil, List.cons.injEq, and_true]
  refine ⟨?_, ?_, ?_, ?_, ?_⟩
  · rw [q0, q1]
    omega
  · rw [q2, q3]
    omega
  · rw [q4]
    omega
  · rw [q5, q6]
    omega
  · rw [q7]
    omega

theorem bytesAt_eq (h : block.length ≤ 5) :
    [byteAt block 0, byteAt block 1, byteAt block 2, byteAt block 3, byteAt block 4] =
      block ++ List.replicate (5 - block.length) 0 := by
  by_cases hne : block = []
  · subst hne
    rfl
  · rcases block_cases hne h with ⟨b0, rfl⟩ | ⟨b0, b1, rfl⟩ | ⟨b0, b1, b2, rfl⟩ |
      ⟨b0, b1, b2, b3, rfl⟩ | ⟨b0, b1, b2, b3, b4, rfl⟩
    all_goals rfl

theorem decodeLoop_block (hne : block ≠ []) (h : block.length ≤ 5) {allocationLen destSize : Nat}
    (hroom : destSize + 5 ≤ allocationLen) (rest : Bytes) (tempBuffer : Block UInt8) :
    decodeLoop allocationLen (base32Scheme.blockText block ++ rest) destSize tempBuffer =
      (tempBuffer.putAll (block ++ List.replicate (5 - block.length) 0)).bind fun tempBuffer =>
        decodeLoop allocationLen rest (destSize + block.length) tempBuffer := by
  have hascii : ([groupChar block 0, groupChar block 1, groupChar block 2, groupChar block 3,
      groupChar block 4, groupChar block 5, groupChar block 6, groupChar block 7].any
        fun c => 0x80 ≤ c) = false := by
    have hall : ∀ i, ¬ (0x80 : UInt8) ≤ groupChar block i := fun i =>
      UInt8.not_le.2 (groupChar_ascii i)
    simp [hall]
  have hdest : destSize + 5 - (5 - block.length) = destSize + block.length := by omega
  rw [blockText_groupChars hne h, ← bytesAt_eq h, ← groupBytes_eq hne h]
  simp only [List.cons_append, List.nil_append]
  rw [decodeLoop]
  simp only [hascii, convert_groupChar, paddingBytes_eq hne h, hdest]
  rw [if_neg (by decide), if_neg (by omega)]

end

/-! ## The functions -/

theorem length_text (b : Bytes) : (base32Scheme.text b).length = 8 * ((b.length + 4) / 5) := by
  rw [Scheme.length_text]
  change (b.length + 5 - 1) / 5 * 8 = _
  omega

theorem decodeLoop_text (b : Bytes) {allocationLen destSize : Nat} {tempBuffer : Block UInt8}
    (hdest : destSize = tempBuffer.written.length) (hcapacity : tempBuffer.capacity = allocationLen)
    (hroom : destSize + 5 * ((b.length + 4) / 5) ≤ allocationLen) :
    ∃ tempBuffer', decodeLoop allocationLen (base32Scheme.text b) destSize tempBuffer =
        some (some (destSize + b.length, tempBuffer')) ∧
      tempBuffer'.written.take (destSize + b.length) = tempBuffer.written ++ b := by
  induction b using Scheme.text.induct base32Scheme generalizing destSize tempBuffer with
  | case1 =>
    refine ⟨tempBuffer, ?_, ?_⟩
    · rw [Scheme.text_nil, decodeLoop]
      rfl
    · rw [List.append_nil, List.length_nil, Nat.add_zero, hdest, List.take_length]
  | case2 bytes hne ih =>
    have hpos := List.length_pos_of_ne_nil hne
    have htake : (bytes.take 5).length ≤ 5 := List.length_take_le ..
    have htakeNe : bytes.take 5 ≠ [] := by
      apply List.ne_nil_of_length_pos
      rw [List.length_take]
      omega
    have hblock := decodeLoop_block htakeNe htake
      (show destSize + 5 ≤ allocationLen by omega) (base32Scheme.text (bytes.drop 5)) tempBuffer
    have hroom' : tempBuffer.written.length +
        (bytes.take 5 ++ List.replicate (5 - (bytes.take 5).length) 0).length ≤
          tempBuffer.capacity := by
      rw [List.length_append, List.length_replicate]
      omega
    have htext : base32Scheme.text bytes =
        base32Scheme.blockText (bytes.take 5) ++ base32Scheme.text (bytes.drop 5) := by
      rw [Scheme.text, if_neg hne]
      rfl
    rw [htext, hblock, Block.putAll_eq _ _ hroom', Option.bind_some]
    have hwritten : (tempBuffer.extend _ hroom').written = tempBuffer.written ++
        (bytes.take 5 ++ List.replicate (5 - (bytes.take 5).length) 0) := rfl
    have hextended : (tempBuffer.extend _ hroom').capacity = allocationLen := hcapacity
    generalize tempBuffer.extend _ hroom' = extended at *
    rcases Nat.lt_or_ge bytes.length 5 with hlt | hge
    case inl =>
      -- the last block, which zeros complete
      have hlast : bytes.take 5 = bytes := List.take_of_length_le (by omega)
      have hnil : bytes.drop 5 = [] := List.drop_of_length_le (by omega)
      refine ⟨extended, ?_, ?_⟩
      · rw [hnil, Scheme.text_nil, decodeLoop, hlast]
      · rw [hwritten, hlast, ← List.append_assoc, hdest, ← List.length_append, List.take_left]
    case inr =>
      have hfive : (bytes.take 5).length = 5 := List.length_take_of_le hge
      have hdrop : (bytes.drop 5).length = bytes.length - 5 := List.length_drop
      have hnext : destSize + 5 = extended.written.length := by
        rw [hwritten, hfive, hdest]
        simp [hfive]
      have hblocks : destSize + 5 + 5 * (((bytes.drop 5).length + 4) / 5) ≤ allocationLen := by
        rw [hdrop]
        omega
      rcases ih hnext hextended hblocks with ⟨tempBuffer', hloop, htaken⟩
      change decodeLoop allocationLen (base32Scheme.text (bytes.drop 5)) _ _ =
        some (some (destSize + 5 + (bytes.drop 5).length, _)) at hloop
      change List.take (destSize + 5 + (bytes.drop 5).length) _ = _ ++ bytes.drop 5 at htaken
      have hsum : destSize + 5 + (bytes.drop 5).length = destSize + bytes.length := by
        rw [hdrop]
        omega
      rw [hsum] at hloop htaken
      refine ⟨tempBuffer', ?_, ?_⟩
      · rw [hfive, hloop]
      · rw [htaken, hwritten, hfive, Nat.sub_self, List.replicate_zero, List.append_nil,
          List.append_assoc, List.take_append_drop]

set_option maxRecDepth 8000 in
theorem text_ne_zero {c : UInt8} {b : Bytes} (h : c ∈ base32Scheme.text b) : c ≠ 0 := by
  rcases base32Scheme.mem_text h with halphabet | rfl
  · have hall : ∀ c ∈ base32Scheme.alphabet, c ≠ 0 := by decide
    exact hall c halphabet
  · decide

theorem encodingLength_eq {b : Bytes} (h : (base32Scheme.text b).length ≤ sizeMax) :
    base32EncodingLength b.length = (base32Scheme.text b).length := by
  rw [length_text] at h ⊢
  have hsize : b.length + 5 - 1 < sizeMax + 1 := by
    unfold sizeMax at h ⊢
    omega
  rw [base32EncodingLength, Nat.mod_eq_of_lt hsize, Nat.mod_eq_of_lt (by omega)]
  omega

theorem base32EncodeImpl_eq {b : Bytes} (h : (base32Scheme.text b).length < sizeMax)
    (allocations : Allocations) :
    base32EncodeImpl allocations b =
      if allocations.result = false then some none else some (some (base32Scheme.text b)) := by
  have hlength := encodingLength_eq (Nat.le_of_lt h)
  have hcapacity : (base32EncodingLength b.length + 1) % (sizeMax + 1) =
      (base32Scheme.text b).length + 1 := by
    rw [hlength]
    apply Nat.mod_eq_of_lt
    omega
  have hroom : (Block.allocate ((base32Scheme.text b).length + 1) : Block UInt8).written.length +
      (base32Scheme.text b).length ≤
        (Block.allocate ((base32Scheme.text b).length + 1) : Block UInt8).capacity := by
    rw [Block.allocate_written, Block.allocate_capacity, List.length_nil]
    omega
  have hstring : cString ((Block.extend _ _ hroom).content fun _ => 0) = base32Scheme.text b := by
    rw [Block.content_eq, Block.extend_written, Block.extend_capacity, Block.allocate_written,
      Block.allocate_capacity, List.nil_append, Nat.add_sub_cancel_left,
      cString_append fun hzero => text_ne_zero hzero rfl]
    exact List.append_nil _
  rw [base32EncodeImpl, hcapacity, encodeLoop_eq, Block.putAll_eq _ _ hroom, Option.map_some,
    hstring]

theorem base32DecodeImpl_eq {b : Bytes} (h : (base32Scheme.text b).length * 5 ≤ sizeMax)
    (allocations : Allocations) :
    base32DecodeImpl allocations (base32Scheme.text b) =
      if allocations.tempBuffer = false then some none
      else if allocations.buffer = false then some none else some (some b) := by
  have hlength := length_text b
  have hallocation : base32DecodingLength (base32Scheme.text b).length = 5 * ((b.length + 4) / 5) := by
    rw [base32DecodingLength, Nat.mod_eq_of_lt (by omega)]
    omega
  have hroom : 0 + 5 * ((b.length + 4) / 5) ≤ 5 * ((b.length + 4) / 5) := by omega
  have hempty : 0 = (Block.allocate (5 * ((b.length + 4) / 5)) : Block UInt8).written.length := rfl
  have hcapacity : (Block.allocate (5 * ((b.length + 4) / 5)) : Block UInt8).capacity =
      5 * ((b.length + 4) / 5) := rfl
  rcases decodeLoop_text b hempty hcapacity hroom with ⟨tempBuffer', hloop, htaken⟩
  rw [Nat.zero_add] at hloop htaken
  have hmod : (base32Scheme.text b).length % 8 = 0 := by omega
  rw [base32DecodeImpl, if_neg (not_not.2 hmod), hallocation]
  simp only [hloop, Option.map_some, htaken, Block.allocate_written, List.nil_append]
  split_ifs
  all_goals rfl

theorem base32EncodeBytes_produces {b : Bytes} (hne : b ≠ [])
    (h : (base32Scheme.text b).length < sizeMax) :
    Produces {} (fun allocations => base32EncodeBytes allocations (some b))
      (base32Scheme.text b) := by
  cases b with
  | nil => exact absurd rfl hne
  | cons b0 rest =>
    constructor
    · exact base32EncodeImpl_eq h {}
    · intro allocations
      change base32EncodeImpl allocations _ = _ ∨ base32EncodeImpl allocations _ = _
      rw [base32EncodeImpl_eq h]
      split_ifs
      · exact Or.inr rfl
      · exact Or.inl rfl

theorem base32Encode_produces {b : Bytes} (hne : b ≠ [])
    (h : (base32Scheme.text b).length < sizeMax) :
    Produces {} (fun allocations => base32Encode allocations (some b)) (base32Scheme.text b) := by
  cases b with
  | nil => exact absurd rfl hne
  | cons b0 rest =>
    constructor
    · change (base32EncodeImpl {} _).map _ = _
      rw [base32EncodeImpl_eq h]
      rfl
    · intro allocations
      change (base32EncodeImpl allocations _).map _ = _ ∨
        (base32EncodeImpl allocations _).map _ = _
      rw [base32EncodeImpl_eq h]
      by_cases hresult : allocations.result = false
      · rw [if_pos hresult]
        exact Or.inr rfl
      · rw [if_neg hresult, Option.map_some]
        by_cases hstring : allocations.string = false
        · exact Or.inr (congrArg some (if_pos hstring))
        · exact Or.inl (congrArg some (if_neg hstring))

theorem base32Decode_produces {b : Bytes} (h : (base32Scheme.text b).length * 5 ≤ sizeMax) :
    Produces {} (fun allocations => base32Decode allocations (some (base32Scheme.text b))) b := by
  constructor
  · exact base32DecodeImpl_eq h {}
  · intro allocations
    change base32DecodeImpl allocations _ = _ ∨ base32DecodeImpl allocations _ = _
    rw [base32DecodeImpl_eq h]
    split_ifs
    · exact Or.inr rfl
    · exact Or.inr rfl
    · exact Or.inl rfl

/-- The encoders return the base32 text, a multiple of eight characters, and the decoder the bytes of that
text. The bits of the text are to be counted by a `size_t`. -/
theorem base32_roundTrip (b : Bytes) (hne : b ≠ [])
    (hsize : (base32Scheme.text b).length * 5 ≤ sizeMax) :
    (base32Scheme.text b).length = 8 * ((b.length + 4) / 5) ∧
      base32EncodingLength b.length = (base32Scheme.text b).length ∧
      Produces {} (fun allocations => base32EncodeBytes allocations (some b))
        (base32Scheme.text b) ∧
      Produces {} (fun allocations => base32Encode allocations (some b)) (base32Scheme.text b) ∧
      Produces {} (fun allocations => base32Decode allocations (some (base32Scheme.text b))) b := by
  have hlength := length_text b
  have hpos := List.length_pos_of_ne_nil hne
  have hlt : (base32Scheme.text b).length < sizeMax := by omega
  exact ⟨hlength, encodingLength_eq (Nat.le_of_lt hlt), base32EncodeBytes_produces hne hlt,
    base32Encode_produces hne hlt, base32Decode_produces hsize⟩

/-- Two bytes, and their text. -/
theorem base32_fo :
    Produces {} (fun allocations => base32EncodeBytes allocations (some (ascii "fo")))
        (ascii "mzxq====") ∧
      Produces {} (fun allocations => base32Decode allocations (some (ascii "mzxq====")))
        (ascii "fo") := by
  have htext : base32Scheme.text (ascii "fo") = ascii "mzxq====" := by
    rw [base32Scheme.text_last (by decide) (by decide)]
    decide
  have hroundTrip := base32_roundTrip (ascii "fo") (by decide) (by rw [htext]; decide)
  rw [htext] at hroundTrip
  exact ⟨hroundTrip.2.2.1, hroundTrip.2.2.2.2⟩

end SharedUtility.Base32
