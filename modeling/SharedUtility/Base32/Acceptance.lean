import SharedUtility.Base32.Code

/-!
# Base32.Acceptance — which strings the decoder takes

Only the length of the string and the highest bit of its bytes are looked at: what
`convert_value_to_base32_char` makes of a character outside the alphabet, `0xFF`, is masked like any other
value and never compared with.
-/

namespace SharedUtility.Base32

open Memory

/-- A letter of either case, or a digit from 2 to 7. -/
def IsDataChar (c : UInt8) : Prop :=
  (0x61 ≤ c ∧ c ≤ 0x7A) ∨ (0x41 ≤ c ∧ c ≤ 0x5A) ∨ (0x32 ≤ c ∧ c ≤ 0x37)

/-- Base32 text: whole groups of eight of the alphabet, where padding only stands at the end and is of a
length that some number of bytes leaves. -/
def IsBase32Text (source : Bytes) : Prop :=
  source ≠ [] ∧ source.length % 8 = 0 ∧
    ∃ (data : Bytes) (padding : Nat),
      (∀ c ∈ data, IsDataChar c) ∧ source = data ++ List.replicate padding 0x3D ∧
        padding ∈ [0, 1, 3, 4, 6]

/-- All allocations succeed, and a buffer is returned. -/
def Accepts (source : Bytes) : Prop :=
  ∃ content, base32Decode {} (some source) = some (some content)

/-! ## The loop -/

theorem length_groupBytes (i0 i1 i2 i3 i4 i5 i6 i7 : UInt8) :
    (groupBytes i0 i1 i2 i3 i4 i5 i6 i7).length = 5 := rfl

/-- Where the loop ends well, it has looked at ASCII characters only and written five bytes for each group
of eight. -/
theorem decodeLoop_some {allocationLen : Nat} (source : Bytes) {destSize : Nat}
    {tempBuffer : Block UInt8} {decoded : Nat × Block UInt8}
    (h : decodeLoop allocationLen source destSize tempBuffer = some (some decoded)) :
    (∀ c ∈ source, c < 0x80) ∧
      tempBuffer.written.length + 5 * (source.length / 8) ≤ tempBuffer.capacity := by
  induction source, destSize, tempBuffer using decodeLoop.induct allocationLen with
  | case1 destSize tempBuffer => exact ⟨by simp, tempBuffer.fits⟩
  | case2 c0 c1 c2 c3 c4 c5 c6 c7 iterator destSize tempBuffer hany =>
    rw [decodeLoop, if_pos hany] at h
    cases h
  | case3 c0 c1 c2 c3 c4 c5 c6 c7 iterator destSize tempBuffer hany hlen =>
    rw [decodeLoop, if_neg hany, if_pos hlen] at h
    cases h
  | case4 c0 c1 c2 c3 c4 c5 c6 c7 iterator destSize tempBuffer hany hlen
      input2 input4 input5 input7 ih =>
      rw [decodeLoop, if_neg hany, if_neg hlen] at h
      rcases Option.bind_eq_some_iff.1 h with ⟨next, hput, hrest⟩
      rcases Block.length_putAll hput with ⟨hcapacity, hwritten⟩
      rcases ih next hrest with ⟨hascii, hroom⟩
      rw [length_groupBytes] at hwritten
      constructor
      · intro c hc
        rw [List.any_eq_true] at hany
        rcases List.mem_append.1 (show c ∈ [c0, c1, c2, c3, c4, c5, c6, c7] ++ iterator from hc)
          with hgroup | hlater
        · by_contra hhigh
          exact hany ⟨c, hgroup, decide_eq_true (UInt8.not_lt.1 hhigh)⟩
        · exact hascii c hlater
      · simp only [List.length_cons]
        omega
  | case5 source destSize tempBuffer hnil hgroup =>
    rw [decodeLoop] at h
    · cases h
    · exact hnil
    · exact hgroup

/-- Whole groups that the block has room for are read without a write outside of it, and all of them when
they are of ASCII characters. -/
theorem decodeLoop_fits {allocationLen : Nat} (source : Bytes) {destSize : Nat}
    {tempBuffer : Block UInt8} (hlength : source.length % 8 = 0)
    (hroom : tempBuffer.written.length + 5 * (source.length / 8) ≤ tempBuffer.capacity)
    (hcapacity : tempBuffer.capacity = allocationLen)
    (hsize : destSize ≤ tempBuffer.written.length) :
    ∃ result, decodeLoop allocationLen source destSize tempBuffer = some result ∧
      ((∀ c ∈ source, c < 0x80) → result.isSome) := by
  induction source, destSize, tempBuffer using decodeLoop.induct allocationLen with
  | case1 destSize tempBuffer => exact ⟨_, rfl, fun _ => rfl⟩
  | case2 c0 c1 c2 c3 c4 c5 c6 c7 iterator destSize tempBuffer hany =>
    refine ⟨none, by rw [decodeLoop, if_pos hany], fun hascii => ?_⟩
    rcases List.any_eq_true.1 hany with ⟨c, hc, hhigh⟩
    have hlow := hascii c (List.mem_append_left iterator hc)
    exact absurd (of_decide_eq_true hhigh) (UInt8.not_le.2 hlow)
  | case3 c0 c1 c2 c3 c4 c5 c6 c7 iterator destSize tempBuffer hany hlen =>
    -- the size that is counted is never more than what is written
    simp only [List.length_cons] at hroom
    omega
  | case4 c0 c1 c2 c3 c4 c5 c6 c7 iterator destSize tempBuffer hany hlen
      input2 input4 input5 input7 ih =>
      simp only [List.length_cons] at hlength hroom
      have hfits : tempBuffer.written.length +
          (groupBytes (convertValueToBase32Char c0) (convertValueToBase32Char c1) input2
            (convertValueToBase32Char c3) input4 input5 (convertValueToBase32Char c6) input7).length ≤
              tempBuffer.capacity := by
        rw [length_groupBytes]
        omega
      have hput := Block.putAll_eq tempBuffer _ hfits
      have hnext : ∃ result, decodeLoop allocationLen iterator
          (destSize + 5 - paddingBytes input2 input4 input5 input7) (tempBuffer.extend _ hfits) =
            some result ∧ ((∀ c ∈ iterator, c < 0x80) → result.isSome) := by
        apply ih
        · omega
        · rw [Block.extend_capacity, Block.extend_written, List.length_append, length_groupBytes]
          omega
        · exact hcapacity
        · rw [Block.extend_written, List.length_append, length_groupBytes]
          omega
      rcases hnext with ⟨result, hresult, hall⟩
      refine ⟨result, ?_, fun hascii => hall fun c hc =>
        hascii c (List.mem_append_right [c0, c1, c2, c3, c4, c5, c6, c7] hc)⟩
      rw [decodeLoop, if_neg hany, if_neg hlen]
      simp only
      rw [hput, Option.bind_some, hresult]
  | case5 source destSize tempBuffer hnil hgroup =>
    exfalso
    rcases source with _ | ⟨c0, _ | ⟨c1, _ | ⟨c2, _ | ⟨c3, _ | ⟨c4, _ | ⟨c5, _ | ⟨c6, _ | ⟨c7, rest⟩⟩⟩⟩⟩⟩⟩⟩
    case nil => exact hnil rfl
    case cons.cons.cons.cons.cons.cons.cons.cons => exact hgroup _ _ _ _ _ _ _ _ _ rfl
    all_goals simp at hlength

/-! ## The decoder -/

/-- The size that is allocated is that of the bytes, unless the product wraps around; then it is less. -/
theorem decodingLength_iff {n : Nat} (h : n % 8 = 0) :
    5 * (n / 8) ≤ base32DecodingLength n ↔ n * 5 ≤ sizeMax := by
  have hmax : sizeMax = 18446744073709551615 := rfl
  rw [base32DecodingLength, hmax]
  omega

theorem base32Decode_eq {source : Bytes} (h : source.length % 8 = 0) :
    base32Decode {} (some source) =
      (decodeLoop (base32DecodingLength source.length) source 0
        (.allocate (base32DecodingLength source.length))).map fun decoded =>
          decoded.map fun result => result.2.written.take result.1 := by
  rw [base32Decode, base32DecodeImpl, if_neg (not_not.2 h)]
  simp only
  rw [if_neg (by decide)]
  congr 1
  funext decoded
  rcases decoded with _ | ⟨destSize, tempBuffer⟩
  · rfl
  · rfl

theorem base32Decode_fits {source : Bytes} (hroom : source.length * 5 ≤ sizeMax) :
    ∃ result, base32Decode {} (some source) = some result ∧
      (source.length % 8 = 0 → (∀ c ∈ source, c < 0x80) → result.isSome) := by
  by_cases hlength : source.length % 8 = 0
  · have hloop : ∃ result, decodeLoop (base32DecodingLength source.length) source 0
        (.allocate (base32DecodingLength source.length)) = some result ∧
          ((∀ c ∈ source, c < 0x80) → result.isSome) := by
      refine decodeLoop_fits source hlength ?_ rfl (Nat.zero_le _)
      rw [Block.allocate_written, Block.allocate_capacity, List.length_nil, Nat.zero_add]
      exact (decodingLength_iff hlength).2 hroom
    rcases hloop with ⟨result, hresult, hascii⟩
    refine ⟨_, by rw [base32Decode_eq hlength, hresult, Option.map_some], fun _ hall => ?_⟩
    rw [Option.isSome_map]
    exact hascii hall
  · refine ⟨none, ?_, fun h => absurd h hlength⟩
    rw [base32Decode, base32DecodeImpl, if_pos hlength]

/-- A buffer is returned for whole groups of ASCII characters whose size in bytes does not wrap around. -/
theorem accepts_iff (source : Bytes) :
    Accepts source ↔
      source.length % 8 = 0 ∧ (∀ c ∈ source, c < 0x80) ∧ source.length * 5 ≤ sizeMax := by
  constructor
  · rintro ⟨content, hcontent⟩
    have hlength : source.length % 8 = 0 := by
      by_contra hne
      rw [base32Decode, base32DecodeImpl, if_pos hne] at hcontent
      cases hcontent
    rw [base32Decode_eq hlength] at hcontent
    rcases Option.map_eq_some_iff.1 hcontent with ⟨result, hloop, hresult⟩
    rcases Option.map_eq_some_iff.1 hresult with ⟨decoded, rfl, -⟩
    rcases decodeLoop_some source hloop with ⟨hascii, hroom⟩
    rw [Block.allocate_written, Block.allocate_capacity, List.length_nil, Nat.zero_add,
      decodingLength_iff hlength] at hroom
    exact ⟨hlength, hascii, hroom⟩
  · rintro ⟨hlength, hascii, hroom⟩
    rcases base32Decode_fits hroom with ⟨result, hresult, hsome⟩
    rcases Option.isSome_iff_exists.1 (hsome hlength hascii) with ⟨content, rfl⟩
    exact ⟨content, hresult⟩

/-! ## Base32 text -/

theorem isDataChar_ascii {c : UInt8} (h : IsDataChar c) : c < 0x80 := by
  rcases h with ⟨-, h⟩ | ⟨-, h⟩ | ⟨-, h⟩
  all_goals exact UInt8.lt_of_le_of_lt h (by decide)

theorem isBase32Text_ascii {source : Bytes} (h : IsBase32Text source) : ∀ c ∈ source, c < 0x80 := by
  rcases h with ⟨-, -, data, padding, hdata, rfl, -⟩
  intro c hc
  rcases List.mem_append.1 hc with hc | hc
  · exact isDataChar_ascii (hdata c hc)
  · rw [List.eq_of_mem_replicate hc]
    decide

/-- A buffer is returned exactly for base32 text. -/
def DecodesBase32Text (source : Bytes) : Prop :=
  Accepts source ↔ IsBase32Text source

/-- The decoder takes base32 text, and also every other ASCII string of whole groups; what it does not take
it rejects with NULL. -/
theorem decodesBase32Text_iff (source : Bytes) :
    (DecodesBase32Text source ↔
      if source.length * 5 ≤ sizeMax then
        source.length % 8 = 0 → (∀ c ∈ source, c < 0x80) → IsBase32Text source
      else ¬ IsBase32Text source) ∧
    (source.length * 5 ≤ sizeMax → ¬ Accepts source → base32Decode {} (some source) = some none) := by
  constructor
  · rw [DecodesBase32Text, accepts_iff]
    by_cases hroom : source.length * 5 ≤ sizeMax
    · rw [if_pos hroom]
      constructor
      · intro hexact hlength hascii
        exact hexact.1 ⟨hlength, hascii, hroom⟩
      · intro hascii
        exact ⟨fun h => hascii h.1 h.2.1, fun h => ⟨h.2.1, isBase32Text_ascii h, hroom⟩⟩
    · rw [if_neg hroom]
      constructor
      · intro hexact htext
        exact hroom (hexact.2 htext).2.2
      · intro hother
        exact ⟨fun h => absurd h.2.2 hroom, fun h => absurd h hother⟩
  · intro hroom hother
    rcases base32Decode_fits hroom with ⟨_ | content, hresult, -⟩
    · exact hresult
    · exact absurd ⟨content, hresult⟩ hother

/-- A character outside the alphabet is decoded. -/
theorem decodes_exclamation_mark : ¬ DecodesBase32Text (ascii "abcdefg!") := by
  intro hexact
  have haccepts : Accepts (ascii "abcdefg!") := by
    rw [accepts_iff]
    exact ⟨by decide, forall_mem_of_all (by decide), by decide⟩
  rcases hexact.1 haccepts with ⟨-, -, data, padding, hdata, heq, -⟩
  have hmem : (0x21 : UInt8) ∈ data ++ List.replicate padding 0x3D := by
    rw [← heq]
    decide
  rcases List.mem_append.1 hmem with hmem | hmem
  · exact absurd (hdata _ hmem) (by unfold IsDataChar; decide)
  · exact absurd (List.eq_of_mem_replicate hmem) (by decide)

end SharedUtility.Base32
