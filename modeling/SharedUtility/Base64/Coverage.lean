import SharedUtility.Base64.RoundTrip

/-!
# Base64.Coverage — which bytes of its buffer the decoder writes

The size of the buffer is computed from the length of the source and the padding at its end, the bytes are
written for the characters that stand before the first one outside the alphabet. The two agree exactly
where the padding is all that stands behind these characters; otherwise bytes of the buffer stay what the
allocator left in them.
-/

namespace SharedUtility.Base64

open Memory

/-- Characters of the alphabet, and at most two of padding behind them. -/
def WellPadded (source : Bytes) : Prop :=
  ∃ (data : Bytes) (padding : Nat),
    (∀ c ∈ data, (base64toValue c).isSome) ∧ source = data ++ List.replicate padding 0x3D ∧
      padding ≤ 2

/-! ## The characters that are counted -/

theorem length_values_le (data : Bytes) : (base64Values data).length ≤ data.length := by
  induction data with
  | nil => exact Nat.le_refl 0
  | cons c data ih =>
    rw [base64Values]
    cases base64toValue c with
    | none => exact Nat.zero_le _
    | some value => exact Nat.succ_le_succ ih

theorem length_values_iff (data : Bytes) :
    (base64Values data).length = data.length ↔ ∀ c ∈ data, (base64toValue c).isSome := by
  induction data with
  | nil => simp [base64Values]
  | cons c data ih =>
    rw [base64Values, List.forall_mem_cons]
    cases hvalue : base64toValue c with
    | none => simp
    | some value => simp [ih]

theorem values_padded (data : Bytes) (padding : Nat) :
    base64Values (data ++ List.replicate padding 0x3D) = base64Values data := by
  induction data with
  | nil =>
    cases padding with
    | zero => rfl
    | succ padding => exact base64Values_pad _
  | cons c data ih => rw [List.cons_append, base64Values, base64Values, ih]

/-! ## The padding that is counted -/

/-- Every source is data and the padding that `Base64decode_len` takes off. -/
theorem split_padding {source : Bytes} (h : source.length % 4 = 0) :
    ∃ (data : Bytes) (padding : Nat), source = data ++ List.replicate padding 0x3D ∧ padding ≤ 2 ∧
      (padding < 2 → ∀ front, data ≠ front ++ [0x3D]) ∧
      base64decodeLen source = source.length / 4 * 3 - padding := by
  rcases List.eq_nil_or_concat' source with rfl | ⟨front, c, rfl⟩
  · exact ⟨[], 0, rfl, Nat.zero_le _, fun _ front => by simp, rfl⟩
  · have hend : ∀ {front : Bytes} {c : UInt8}, c ≠ 0x3D → ∀ front', front ++ [c] ≠ front' ++ [0x3D] := by
      intro front c hc front' heq
      have hlast := (List.append_inj' heq rfl).2
      exact hc (List.cons.inj hlast).1
    rcases ne_or_eq c 0x3D with hc | rfl
    · refine ⟨front ++ [c], 0, (List.append_nil _).symm, Nat.zero_le _, fun _ => hend hc, ?_⟩
      rw [decodeLen_unpadded front hc, List.length_append, List.length_singleton, Nat.sub_zero]
    · rcases List.eq_nil_or_concat' front with rfl | ⟨front, c, rfl⟩
      · -- one character alone is no group of four
        simp at h
      · rw [List.append_assoc, List.singleton_append]
        rcases ne_or_eq c 0x3D with hc | rfl
        · refine ⟨front ++ [c], 1, by simp, by omega, fun _ => hend hc, ?_⟩
          rw [decodeLen_one_pad front hc, List.length_append]
          rfl
        · refine ⟨front, 2, rfl, Nat.le_refl 2, fun hlt => absurd hlt (by omega), ?_⟩
          rw [decodeLen_two_pads front, List.length_append]
          rfl

/-- As many bytes are written as the buffer has exactly for a source that is well padded. -/
theorem length_decode_iff {source : Bytes} (h : source.length % 4 = 0) :
    (base64decode (base64Values source)).length = base64decodeLen source ↔ WellPadded source := by
  rcases split_padding h with ⟨data, padding, rfl, hpadding, hmost, hlen⟩
  have hle := length_values_le data
  rw [List.length_append, List.length_replicate] at h hlen
  rw [hlen, length_decode, values_padded]
  constructor
  · intro heq
    have hall : (base64Values data).length = data.length := by
      split_ifs at heq
      all_goals omega
    exact ⟨data, padding, (length_values_iff data).1 hall, rfl, hpadding⟩
  · rintro ⟨data', padding', hall, heq, hpadding'⟩
    have hvalues := congrArg base64Values heq
    have hlength := congrArg List.length heq
    rw [values_padded, values_padded] at hvalues
    rw [List.length_append, List.length_append, List.length_replicate,
      List.length_replicate] at hlength
    have hcount := (length_values_iff data').2 hall
    rw [← hvalues] at hcount
    -- no padding is left in the data, so both ways to take the source apart are one
    have hsame : padding = padding' := by
      by_contra hne
      have hlt : padding < padding' := by omega
      refine hmost (by omega) (data' ++ List.replicate (padding' - padding - 1) 0x3D) ?_
      have hsplit : List.replicate padding' (0x3D : UInt8) =
          List.replicate (padding' - padding - 1) 0x3D ++ [0x3D] ++ List.replicate padding 0x3D := by
        rw [← List.replicate_succ', ← List.replicate_add]
        congr 1
        omega
      rw [hsplit, ← List.append_assoc, ← List.append_assoc] at heq
      exact List.append_cancel_right heq
    split_ifs
    all_goals omega

theorem length_decode_le {source : Bytes} (h : source.length % 4 = 0) :
    (base64decode (base64Values source)).length ≤ base64decodeLen source := by
  rcases split_padding h with ⟨data, padding, rfl, hpadding, -, hlen⟩
  have hle := length_values_le data
  rw [List.length_append, List.length_replicate] at h hlen
  rw [hlen, length_decode, values_padded]
  split_ifs
  all_goals omega

/-! ## The buffer -/

theorem decodeLoop_writes {source : Bytes} (h : source.length % 4 = 0) :
    ∃ decoded : Block UInt8,
      decodeLoop (base64Values source) (.allocate (base64decodeLen source)) = some decoded ∧
      decoded.capacity = base64decodeLen source ∧
      decoded.written = base64decode (base64Values source) := by
  have hroom : (Block.allocate (base64decodeLen source) : Block UInt8).written.length +
      (base64decode (base64Values source)).length ≤ base64decodeLen source := by
    rw [Block.allocate_written, List.length_nil, Nat.zero_add]
    exact length_decode_le h
  rw [decodeLoop_eq, Block.putAll_eq _ _ hroom]
  exact ⟨_, rfl, rfl, rfl⟩

/-- Whatever is returned has been written by `Base64decode`, none of it behind the buffer, and does not
depend on what the memory held before. -/
def DefinesResult (source : Bytes) : Prop :=
  ∀ (allocations : Allocations) (uninitialised : Nat → UInt8),
    ∃ result, decoder allocations (some source) uninitialised = some result ∧
      ∀ content ∈ result,
        (∃ decoded : Block UInt8,
          decodeLoop (base64Values source) (.allocate (base64decodeLen source)) = some decoded ∧
            decoded.written = content ∧ content.length = base64decodeLen source) ∧
        ∀ other, decoder allocations (some source) other = some (some content)

theorem decoder_eq {source : Bytes} (h : source.length % 4 = 0) {decoded : Block UInt8}
    (hdecoded : decodeLoop (base64Values source) (.allocate (base64decodeLen source)) = some decoded)
    (allocations : Allocations) (uninitialised : Nat → UInt8) :
    decoder allocations (some source) uninitialised =
      if allocations.buffer = false then some none
      else if 0 < base64decodeLen source then
        if allocations.content = false then some none
        else some (some (decoded.content uninitialised))
      else some (some []) := by
  rw [decoder, if_neg (not_not.2 h)]
  simp only [hdecoded, Option.map_some]

/-- The decoder defines every byte that it returns exactly where the source is rejected for its length or
well padded. -/
theorem decoder_defines_iff (source : Bytes) :
    DefinesResult source ↔ (source.length % 4 = 0 → WellPadded source) := by
  constructor
  · intro hdefines h
    rw [← length_decode_iff h]
    rcases decodeLoop_writes h with ⟨decoded, hdecoded, hcapacity, hwritten⟩
    rcases hdefines {} fun _ => 0 with ⟨result, hresult, hcontent⟩
    have hdecoder := decoder_eq h hdecoded {} fun _ => 0
    rw [hdecoder, if_neg (by decide)] at hresult
    by_cases hpos : 0 < base64decodeLen source
    · rw [if_pos hpos, if_neg (by decide), Option.some.injEq] at hresult
      subst hresult
      rcases (hcontent _ rfl).1 with ⟨block, hblock, hall, hsize⟩
      rw [hdecoded, Option.some.injEq] at hblock
      rw [← hwritten, hblock, hall, hsize]
    · have hle := length_decode_le h
      omega
  · intro hpadded allocations uninitialised
    by_cases h : source.length % 4 = 0
    · rcases decodeLoop_writes h with ⟨decoded, hdecoded, hcapacity, hwritten⟩
      have hsize := (length_decode_iff h).2 (hpadded h)
      rw [← hwritten, ← hcapacity] at hsize
      have hfull : ∀ other, decoded.content other = decoded.written := fun other =>
        decoded.content_full other hsize
      -- the same is returned over any memory, and where the buffer is empty nothing was to be written
      have hvalue : ∃ result, (∀ other, decoder allocations (some source) other = some result) ∧
          ∀ content ∈ result, decoded.written = content := by
        have hdecoder := decoder_eq h hdecoded allocations
        simp only [hfull] at hdecoder
        simp only [hdecoder]
        split_ifs with hbuffer hpos hcontent
        · exact ⟨none, fun _ => rfl, by simp⟩
        · exact ⟨none, fun _ => rfl, by simp⟩
        · exact ⟨_, fun _ => rfl, by simp⟩
        · refine ⟨some [], fun _ => rfl, ?_⟩
          intro content hcontent
          cases hcontent
          rw [← List.length_eq_zero_iff]
          omega
      rcases hvalue with ⟨result, hsame, hresult⟩
      refine ⟨result, hsame uninitialised, ?_⟩
      rintro content rfl
      have hcontent := hresult content rfl
      refine ⟨⟨decoded, hdecoded, hcontent, ?_⟩, hsame⟩
      rw [← hcontent, hsize, hcapacity]
    · exact ⟨none, by rw [decoder, if_pos h], fun content hcontent => by cases hcontent⟩

/-- One character and three of padding: the one byte of the buffer is what the memory held before. -/
theorem decoder_leaks_byte : ¬ DefinesResult (ascii "A===") := by
  intro hdefines
  rcases hdefines {} fun _ => 0 with ⟨result, hresult, hcontent⟩
  have hzero : decoder {} (some (ascii "A===")) (fun _ => 0) = some (some [0]) := by decide
  have hone : decoder {} (some (ascii "A===")) (fun _ => 1) = some (some [1]) := by decide
  rw [hzero] at hresult
  cases hresult
  have hsame := (hcontent [0] rfl).2 fun _ => 1
  rw [hone] at hsame
  exact absurd hsame (by decide)

end SharedUtility.Base64
