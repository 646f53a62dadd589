import Mathlib.Tactic.IntervalCases
import SharedUtility.UwsClient.Code

/-!
# WireFrame — unmasked frames on the wire and their recognition

A `WireFrame` is a frame a server may send; `WireFrame.bytes` is its unmasked encoding.  The module
shows that the header arithmetic of the decoder inverts the encoder on all three length forms, and
that the decoder finds a complete frame exactly when the stream buffer starts with one.
-/

namespace SharedUtility.UwsClient

/-- An unmasked frame; the payload is as long as the 64-bit form can carry. -/
structure WireFrame where
  opcode : UInt8
  isFinal : Bool
  reserved : UInt8 := 0
  payload : Bytes
  opcode_le : opcode ≤ 0x0F := by decide
  reserved_le : reserved ≤ 7 := by decide
  payload_lt : payload.length < 2 ^ 63

/-- What the encoder makes of the frame, given the outcomes of the calls it makes. -/
def WireFrame.encode (res : EncoderResources) (f : WireFrame) : Option Bytes :=
  uwsFrameEncoderEncode res f.opcode (some f.payload) f.payload.length false f.isFinal f.reserved

def WireFrame.bytes (f : WireFrame) : Bytes :=
  encodedFrame f.opcode f.payload false f.isFinal f.reserved fun _ => 0

def WireFrame.header (f : WireFrame) : Bytes :=
  encodedFirstByte f.opcode f.isFinal f.reserved ::
    encodedLengthByte f.payload.length :: encodedExtendedLength f.payload.length

theorem WireFrame.bytes_eq (f : WireFrame) : f.bytes = f.header ++ f.payload := by
  simp [WireFrame.bytes, WireFrame.header, encodedFrame]

theorem WireFrame.length_header (f : WireFrame) :
    f.header.length = 2 + (encodedExtendedLength f.payload.length).length := by
  simp [WireFrame.header]
  omega

theorem WireFrame.two_le_length_bytes (f : WireFrame) : 2 ≤ f.bytes.length := by
  rw [f.bytes_eq, List.length_append, f.length_header]
  omega

/-! ## Length arithmetic -/

private theorem toNat_ofNat_mod (n : Nat) : (UInt8.ofNat n).toNat = n % 256 := by
  simp [UInt8.toNat_ofNat']

theorem sixteenBit_roundTrip {n : Nat} (h : n ≤ 65535) :
    (n >>> 8 % 256) <<< 8 + n % 256 = n := by
  simp only [Nat.shiftRight_eq_div_pow, Nat.shiftLeft_eq]
  omega

theorem sixtyFourBit_roundTrip {n : Nat} (h : n < 2 ^ 64) :
    (n >>> 56 % 256) <<< 56 + (n >>> 48 % 256) <<< 48 + (n >>> 40 % 256) <<< 40 +
      (n >>> 32 % 256) <<< 32 + (n >>> 24 % 256) <<< 24 + (n >>> 16 % 256) <<< 16 +
      (n >>> 8 % 256) <<< 8 + n % 256 = n := by
  have hstep : ∀ k, n >>> k = (n >>> (k + 8)) * 256 + n >>> k % 256 := by
    intro k
    rw [Nat.shiftRight_add]
    have hdiv := Nat.div_add_mod (n >>> k) 256
    rw [Nat.shiftRight_eq_div_pow (n >>> k) 8]
    omega
  have h0 := hstep 0
  have h8 := hstep 8
  have h16 := hstep 16
  have h24 := hstep 24
  have h32 := hstep 32
  have h40 := hstep 40
  have h48 := hstep 48
  have h56 : n >>> 56 < 256 := by
    rw [Nat.shiftRight_eq_div_pow]
    omega
  simp only [Nat.shiftLeft_eq, Nat.zero_add, Nat.shiftRight_zero] at *
  omega

/-- The most significant byte of a length below `2 ^ 63` has its top bit clear. -/
theorem sixtyFourBit_topBit {n : Nat} (h : n < 2 ^ 63) :
    UInt8.ofNat (n >>> 56) &&& 0x80 = 0 := by
  have hlt : n >>> 56 < 128 := by
    rw [Nat.shiftRight_eq_div_pow]
    omega
  generalize n >>> 56 = k at hlt
  interval_cases k <;> decide

theorem encodedLengthByte_toNat (n : Nat) :
    (encodedLengthByte n).toNat = if n > 65535 then 127 else if n > 125 then 126 else n := by
  unfold encodedLengthByte
  split
  · rfl
  · split
    · rfl
    · rw [toNat_ofNat_mod]
      omega

theorem encodedLengthByte_unmasked (n : Nat) : encodedLengthByte n &&& 0x80 = 0 := by
  have hlt : (encodedLengthByte n).toNat < 128 := by
    rw [encodedLengthByte_toNat]
    split
    · omega
    · split
      · omega
      · omega
  generalize encodedLengthByte n = b at hlt
  have hb : b = UInt8.ofNat b.toNat := by simp
  generalize b.toNat = k at hlt hb
  subst hb
  interval_cases k <;> decide

theorem decodeFrameLength_header (b0 : UInt8) {n : Nat} (hn : n < 2 ^ 63) (tail : Bytes) :
    decodeFrameLength (b0 :: encodedLengthByte n :: (encodedExtendedLength n ++ tail)) =
      { length := n, neededBytes := 2 + (encodedExtendedLength n).length + n } := by
  have hbyte := encodedLengthByte_toNat n
  by_cases h64 : n > 65535
  · have htop := sixtyFourBit_topBit hn
    have hval := sixtyFourBit_roundTrip (n := n) (by omega)
    simp only [h64, if_true] at hbyte
    have hext : encodedExtendedLength n =
        [UInt8.ofNat (n >>> 56), UInt8.ofNat (n >>> 48), UInt8.ofNat (n >>> 40),
          UInt8.ofNat (n >>> 32), UInt8.ofNat (n >>> 24), UInt8.ofNat (n >>> 16),
          UInt8.ofNat (n >>> 8), UInt8.ofNat n] := by
      simp [encodedExtendedLength, h64]
    have hread : ∀ tail', extendedLength64
        (b0 :: encodedLengthByte n :: (encodedExtendedLength n ++ tail')) = n := by
      intro tail'
      rw [hext]
      simpa [extendedLength64, toNat_ofNat_mod] using hval
    have hnot : ¬ n < 65536 := by omega
    unfold decodeFrameLength
    simp only [hread, hnot]
    simp [hbyte, hext, htop]
  · by_cases h16 : n > 125
    · have hval := sixteenBit_roundTrip (n := n) (by omega)
      simp only [h64, h16, if_true, if_false] at hbyte
      have hnot : ¬ n < 126 := by omega
      unfold decodeFrameLength
      simp [hbyte, encodedExtendedLength, h64, h16, hval, hnot]
    · simp only [h64, h16, if_false] at hbyte
      have h126 : n ≠ 126 := by omega
      have h127 : n ≠ 127 := by omega
      unfold decodeFrameLength
      simp [hbyte, encodedExtendedLength, h64, h16, h126, h127]

theorem decodeFrameLength_cutHeader (b0 : UInt8) (n : Nat) {rest : Bytes}
    (hrest : rest.length < (encodedExtendedLength n).length) :
    (decodeFrameLength (b0 :: encodedLengthByte n :: rest)).hasError = false ∧
      (decodeFrameLength (b0 :: encodedLengthByte n :: rest)).neededBytes =
        2 + (encodedExtendedLength n).length := by
  have hbyte := encodedLengthByte_toNat n
  have hext := length_encodedExtendedLength n
  by_cases h64 : n > 65535
  · simp only [h64, if_true] at hbyte hext
    have hshort : ¬ rest.length + 1 + 1 ≥ 10 := by omega
    unfold decodeFrameLength
    simp [hbyte, hext, hshort]
  · by_cases h16 : n > 125
    · simp only [h64, h16, if_true, if_false] at hbyte hext
      have hshort : ¬ rest.length + 1 + 1 ≥ 4 := by omega
      unfold decodeFrameLength
      simp [hbyte, hext, hshort]
    · simp only [h64, h16, if_false] at hext
      omega

/-! ## The first byte -/

theorem fields_toNat_lt {opcode reserved : UInt8} (hop : opcode ≤ 0x0F) (hrsv : reserved ≤ 7) :
    opcode.toNat < 16 ∧ reserved.toNat < 8 :=
  ⟨Nat.lt_succ_of_le (UInt8.le_iff_toNat_le.1 hop), Nat.lt_succ_of_le (UInt8.le_iff_toNat_le.1 hrsv)⟩

theorem encodedFirstByte_fields {opcode reserved : UInt8} (hop : opcode ≤ 0x0F)
    (hrsv : reserved ≤ 7) (isFinal : Bool) :
    encodedFirstByte opcode isFinal reserved &&& 0xF = opcode ∧
      (encodedFirstByte opcode isFinal reserved &&& 0x80 != 0) = isFinal := by
  have hall : ∀ (op : Fin 16) (rsv : Fin 8) (fin : Bool),
      encodedFirstByte (UInt8.ofNat op) fin (UInt8.ofNat rsv) &&& 0xF = UInt8.ofNat op ∧
        (encodedFirstByte (UInt8.ofNat op) fin (UInt8.ofNat rsv) &&& 0x80 != 0) = fin := by
    decide
  obtain ⟨hop', hrsv'⟩ := fields_toNat_lt hop hrsv
  simpa using hall ⟨opcode.toNat, hop'⟩ ⟨reserved.toNat, hrsv'⟩ isFinal

theorem firstByte_eq (b : UInt8) :
    b &&& 0xF ≤ 0x0F ∧ (b >>> 4) &&& 7 ≤ 7 ∧
      encodedFirstByte (b &&& 0xF) (b &&& 0x80 != 0) ((b >>> 4) &&& 7) = b := by
  have hall : ∀ n : Fin 256, UInt8.ofNat n &&& 0xF ≤ 0x0F ∧ (UInt8.ofNat n >>> 4) &&& 7 ≤ 7 ∧
      encodedFirstByte (UInt8.ofNat n &&& 0xF) (UInt8.ofNat n &&& 0x80 != 0)
        ((UInt8.ofNat n >>> 4) &&& 7) = UInt8.ofNat n := by
    decide +kernel
  simpa using hall ⟨b.toNat, b.toNat_lt⟩

/-! ## Complete and incomplete frames at the start of the stream buffer -/

/-- The bytes start with a complete unmasked frame. -/
def StartsWithFrame (bs : Bytes) : Prop :=
  ∃ f : WireFrame, f.bytes <+: bs

theorem decodeFrameLength_frame (f : WireFrame) (rest : Bytes) :
    decodeFrameLength (f.bytes ++ rest) =
      { length := f.payload.length, neededBytes := f.bytes.length } := by
  have h := decodeFrameLength_header (encodedFirstByte f.opcode f.isFinal f.reserved)
    f.payload_lt (f.payload ++ rest)
  have hlen : f.bytes.length = 2 + (encodedExtendedLength f.payload.length).length +
      f.payload.length := by
    rw [f.bytes_eq, List.length_append, f.length_header]
  rw [hlen, ← h, f.bytes_eq]
  simp [WireFrame.header]

theorem framePayload_frame (f : WireFrame) (rest : Bytes) :
    framePayload (f.bytes ++ rest) (decodeFrameLength (f.bytes ++ rest)) = f.payload := by
  have hlen : f.bytes.length - f.payload.length = f.header.length := by
    rw [f.bytes_eq, List.length_append]
    omega
  rw [decodeFrameLength_frame, framePayload, hlen, f.bytes_eq, List.append_assoc,
    List.drop_left, List.take_left]

theorem frame_leadingBytes (f : WireFrame) (rest : Bytes) :
    (f.bytes ++ rest).getD 0 0 = encodedFirstByte f.opcode f.isFinal f.reserved ∧
      (f.bytes ++ rest).getD 1 0 &&& 0x80 = 0 := by
  have hmask := encodedLengthByte_unmasked f.payload.length
  rw [f.bytes_eq]
  simp [WireFrame.header, hmask]

theorem decodeFrameLength_incomplete {f : WireFrame} {bs : Bytes} (hpre : bs <+: f.bytes)
    (hlt : bs.length < f.bytes.length) (htwo : 2 ≤ bs.length) :
    bs.getD 1 0 &&& 0x80 = 0 ∧ (decodeFrameLength bs).hasError = false ∧
      bs.length < (decodeFrameLength bs).neededBytes := by
  rcases hpre with ⟨more, hmore⟩
  rcases bs with _ | ⟨b0, _ | ⟨b1, rest⟩⟩
  · simp at htwo
  · simp at htwo
  have hbytes := f.bytes_eq
  rw [← hmore] at hbytes
  simp only [WireFrame.header, List.cons_append, List.cons.injEq] at hbytes
  rcases hbytes with ⟨rfl, rfl, hrest⟩
  have hmask := encodedLengthByte_unmasked f.payload.length
  refine ⟨by simpa using hmask, ?_⟩
  have hlen : f.bytes.length = 2 + (encodedExtendedLength f.payload.length).length +
      f.payload.length := by
    rw [f.bytes_eq, List.length_append, f.length_header]
  by_cases hcut : rest.length < (encodedExtendedLength f.payload.length).length
  · have hdec := decodeFrameLength_cutHeader
      (encodedFirstByte f.opcode f.isFinal f.reserved) f.payload.length hcut
    refine ⟨hdec.1, ?_⟩
    rw [hdec.2]
    simp only [List.length_cons]
    omega
  · have hext : encodedExtendedLength f.payload.length <+: rest := by
      have hpre : encodedExtendedLength f.payload.length <+: rest ++ more := by
        rw [hrest]
        exact List.prefix_append _ _
      exact List.prefix_of_prefix_length_le hpre (List.prefix_append _ _) (by omega)
    rcases hext with ⟨tail, rfl⟩
    rw [decodeFrameLength_header _ f.payload_lt]
    refine ⟨rfl, ?_⟩
    simp only [List.length_cons] at hlt ⊢
    omega

theorem toNat_lt_of_topBit {b : UInt8} (h : b &&& 0x80 = 0) : b.toNat < 128 := by
  have hall : ∀ k : Fin 256, UInt8.ofNat k &&& 0x80 = 0 → (UInt8.ofNat k).toNat < 128 := by
    decide +kernel
  simpa using hall ⟨b.toNat, b.toNat_lt⟩ (by simpa using h)

theorem extendedLength_bytes {b2 b3 b4 b5 b6 b7 b8 b9 : UInt8} {n : Nat}
    (hn : n = b2.toNat <<< 56 + b3.toNat <<< 48 + b4.toNat <<< 40 + b5.toNat <<< 32 +
      b6.toNat <<< 24 + b7.toNat <<< 16 + b8.toNat <<< 8 + b9.toNat) (hlarge : n > 65535) :
    encodedExtendedLength n = [b2, b3, b4, b5, b6, b7, b8, b9] := by
  have h2 := b2.toNat_lt
  have h3 := b3.toNat_lt
  have h4 := b4.toNat_lt
  have h5 := b5.toNat_lt
  have h6 := b6.toNat_lt
  have h7 := b7.toNat_lt
  have h8 := b8.toNat_lt
  have h9 := b9.toNat_lt
  simp only [Nat.shiftLeft_eq] at hn
  have hbyte : ∀ {k : Nat} {b : UInt8}, (n >>> k) % 256 = b.toNat → UInt8.ofNat (n >>> k) = b := by
    intro k b h
    apply UInt8.toNat_inj.1
    rw [toNat_ofNat_mod, h]
  have hlow : UInt8.ofNat n = b9 := by
    apply UInt8.toNat_inj.1
    rw [toNat_ofNat_mod]
    omega
  simp only [encodedExtendedLength, hlarge, if_true, List.cons.injEq, and_true]
  refine ⟨hbyte ?_, hbyte ?_, hbyte ?_, hbyte ?_, hbyte ?_, hbyte ?_, hbyte ?_, hlow⟩
  all_goals
    rw [Nat.shiftRight_eq_div_pow]
    omega

/-- The length byte and the extended length that are in the stream buffer are those of the length
that was decoded. -/
theorem header_of_decodeFrameLength {b0 b1 : UInt8} {rest : Bytes} (hmask : b1 &&& 0x80 = 0)
    (herr : (decodeFrameLength (b0 :: b1 :: rest)).hasError = false)
    (hneed : (decodeFrameLength (b0 :: b1 :: rest)).neededBytes ≤ rest.length + 2) :
    ∃ n tail, n < 2 ^ 63 ∧ b1 = encodedLengthByte n ∧ rest = encodedExtendedLength n ++ tail ∧
      n ≤ tail.length := by
  have hb1 := toNat_lt_of_topBit hmask
  have heq : ∀ {k : Nat}, b1.toNat = k → b1 = UInt8.ofNat k := by
    rintro k rfl
    simp
  unfold decodeFrameLength at herr hneed
  by_cases h126 : b1.toNat = 126
  · rcases rest with _ | ⟨b2, _ | ⟨b3, tail⟩⟩
    · simp [h126] at hneed
    · simp [h126] at hneed
    · have h2 := b2.toNat_lt
      have h3 := b3.toNat_lt
      simp only [List.getD_cons_succ, List.getD_cons_zero, h126, List.length_cons] at herr hneed
      by_cases hsmall : b2.toNat <<< 8 + b3.toNat < 126
      · simp [hsmall] at herr
      · simp [hsmall] at hneed
        refine ⟨b2.toNat <<< 8 + b3.toNat, tail, ?_, ?_, ?_, ?_⟩
        · rw [Nat.shiftLeft_eq]
          omega
        · rw [heq h126, encodedLengthByte]
          have : ¬ b2.toNat <<< 8 + b3.toNat > 65535 := by
            rw [Nat.shiftLeft_eq]
            omega
          have hlarge : b2.toNat <<< 8 + b3.toNat > 125 := by omega
          simp [this, hlarge]
        · have hnot : ¬ b2.toNat <<< 8 + b3.toNat > 65535 := by
            rw [Nat.shiftLeft_eq]
            omega
          have hlarge : b2.toNat <<< 8 + b3.toNat > 125 := by omega
          have hhi : (b2.toNat <<< 8 + b3.toNat) >>> 8 = b2.toNat := by
            rw [Nat.shiftLeft_eq, Nat.shiftRight_eq_div_pow]
            omega
          have hlo : UInt8.ofNat (b2.toNat <<< 8 + b3.toNat) = b3 := by
            apply UInt8.toNat_inj.1
            rw [toNat_ofNat_mod, Nat.shiftLeft_eq]
            omega
          simp only [encodedExtendedLength, hnot, hlarge, if_true, if_false, hhi, hlo]
          simp
        · omega
  · by_cases h127 : b1.toNat = 127
    · rcases Nat.lt_or_ge rest.length 8 with hshort | hlong
      · have hcut : ¬ rest.length + 1 + 1 ≥ 10 := by omega
        simp [h127, hcut] at hneed
      · rcases rest with _ | ⟨b2, _ | ⟨b3, _ | ⟨b4, _ | ⟨b5, _ | ⟨b6, _ | ⟨b7, _ | ⟨b8, _ |
          ⟨b9, tail⟩⟩⟩⟩⟩⟩⟩⟩
        all_goals try simp at hlong
        have htop : b2 &&& 0x80 = 0 := by
          by_contra hset
          simp [h127, hset] at herr
        have hb2 := toNat_lt_of_topBit htop
        have hread : extendedLength64 (b0 :: b1 :: b2 :: b3 :: b4 :: b5 :: b6 :: b7 :: b8 :: b9 ::
            tail) = b2.toNat <<< 56 + b3.toNat <<< 48 + b4.toNat <<< 40 + b5.toNat <<< 32 +
              b6.toNat <<< 24 + b7.toNat <<< 16 + b8.toNat <<< 8 + b9.toNat := rfl
        generalize hn : extendedLength64 (b0 :: b1 :: b2 :: b3 :: b4 :: b5 :: b6 :: b7 :: b8 ::
          b9 :: tail) = n at hread herr hneed
        have hlarge : n > 65535 := by
          by_contra hsmall
          have hlt : n < 65536 := by omega
          simp [h127, htop, hlt] at herr
        have hnot : ¬ n < 65536 := by omega
        simp [h127, htop, hnot] at hneed
        refine ⟨n, tail, ?_, ?_, ?_, ?_⟩
        · have h3 := b3.toNat_lt
          have h4 := b4.toNat_lt
          have h5 := b5.toNat_lt
          have h6 := b6.toNat_lt
          have h7 := b7.toNat_lt
          have h8 := b8.toNat_lt
          have h9 := b9.toNat_lt
          simp only [Nat.shiftLeft_eq] at hread
          omega
        · rw [heq h127, encodedLengthByte, if_pos hlarge]
          rfl
        · rw [extendedLength_bytes hread hlarge]
          rfl
        · omega
    · simp [h126, h127] at hneed
      refine ⟨b1.toNat, rest, by omega, ?_, ?_, by omega⟩
      · have h64 : ¬ b1.toNat > 65535 := by omega
        have h16 : ¬ b1.toNat > 125 := by omega
        simp [encodedLengthByte, h64, h16]
      · have h64 : ¬ b1.toNat > 65535 := by omega
        have h16 : ¬ b1.toNat > 125 := by omega
        simp [encodedExtendedLength, h64, h16]

/-! ## The frames in a byte string -/

/-- Where the decoder finds a complete frame that it has nothing to object to. -/
def FrameComplete (bs : Bytes) : Prop :=
  2 ≤ bs.length ∧ bs.getD 1 0 &&& 0x80 = 0 ∧ (decodeFrameLength bs).hasError = false ∧
    (decodeFrameLength bs).neededBytes ≤ bs.length

instance (bs : Bytes) : Decidable (FrameComplete bs) :=
  inferInstanceAs (Decidable (_ ∧ _))

theorem FrameComplete.exists_frame {bs : Bytes} (h : FrameComplete bs) :
    ∃ (f : WireFrame) (rest : Bytes), bs = f.bytes ++ rest := by
  rcases bs with _ | ⟨b0, _ | ⟨b1, rest⟩⟩
  · simp [FrameComplete] at h
  · simp [FrameComplete] at h
  rcases h with ⟨-, hmask, herr, hneed⟩
  have hmask' : b1 &&& 0x80 = 0 := by simpa using hmask
  rcases header_of_decodeFrameLength hmask' herr hneed with ⟨n, tail, hn, rfl, rfl, hlen⟩
  have hfirst := firstByte_eq b0
  refine ⟨{
    opcode := b0 &&& 0xF
    isFinal := b0 &&& 0x80 != 0
    reserved := (b0 >>> 4) &&& 7
    payload := tail.take n
    opcode_le := hfirst.1
    reserved_le := hfirst.2.1
    payload_lt := by
      rw [List.length_take]
      omega }, tail.drop n, ?_⟩
  have htake : (tail.take n).length = n := by
    rw [List.length_take]
    omega
  simp only [WireFrame.bytes_eq, WireFrame.header, htake, hfirst.2.2]
  simp

theorem frameComplete_frame (f : WireFrame) (rest : Bytes) : FrameComplete (f.bytes ++ rest) := by
  have htwo := f.two_le_length_bytes
  refine ⟨?_, (frame_leadingBytes f rest).2, ?_, ?_⟩
  · rw [List.length_append]
    omega
  · rw [decodeFrameLength_frame]
  · rw [decodeFrameLength_frame, List.length_append]
    simp

theorem startsWithFrame_iff (bs : Bytes) : StartsWithFrame bs ↔ FrameComplete bs := by
  constructor
  · intro h
    rcases h with ⟨f, rest, rfl⟩
    exact frameComplete_frame f rest
  · intro h
    rcases h.exists_frame with ⟨f, rest, rfl⟩
    exact ⟨f, rest, rfl⟩

instance (bs : Bytes) : Decidable (StartsWithFrame bs) :=
  decidable_of_iff _ (startsWithFrame_iff bs).symm

/-- The frame the bytes start with, and the bytes behind it. -/
def nextFrame (bs : Bytes) : Option (WireFrame × Bytes) :=
  if h : FrameComplete bs then
    some ({
      opcode := bs.getD 0 0 &&& 0xF
      isFinal := bs.getD 0 0 &&& 0x80 != 0
      reserved := (bs.getD 0 0 >>> 4) &&& 7
      payload := framePayload bs (decodeFrameLength bs)
      opcode_le := (firstByte_eq _).1
      reserved_le := (firstByte_eq _).2.1
      payload_lt := by
        rcases h.exists_frame with ⟨f, rest, rfl⟩
        rw [framePayload_frame]
        exact f.payload_lt }, bs.drop (decodeFrameLength bs).neededBytes)
  else none

theorem encodedFirstByte_reserved {opcode reserved : UInt8} (hop : opcode ≤ 0x0F)
    (hrsv : reserved ≤ 7) (isFinal : Bool) :
    (encodedFirstByte opcode isFinal reserved >>> 4) &&& 7 = reserved := by
  have hall : ∀ (op : Fin 16) (rsv : Fin 8) (fin : Bool),
      (encodedFirstByte (UInt8.ofNat op) fin (UInt8.ofNat rsv) >>> 4) &&& 7 = UInt8.ofNat rsv := by
    decide
  obtain ⟨hop', hrsv'⟩ := fields_toNat_lt hop hrsv
  simpa using hall ⟨opcode.toNat, hop'⟩ ⟨reserved.toNat, hrsv'⟩ isFinal

theorem nextFrame_frame (f : WireFrame) (rest : Bytes) :
    nextFrame (f.bytes ++ rest) = some (f, rest) := by
  have hfields := encodedFirstByte_fields f.opcode_le f.reserved_le f.isFinal
  have hrsv := encodedFirstByte_reserved f.opcode_le f.reserved_le f.isFinal
  have hpayload := framePayload_frame f rest
  have hneed : (decodeFrameLength (f.bytes ++ rest)).neededBytes = f.bytes.length := by
    rw [decodeFrameLength_frame]
  unfold nextFrame
  rw [dif_pos (frameComplete_frame f rest)]
  simp only [(frame_leadingBytes f rest).1, hfields.1, hfields.2, hrsv, hpayload, hneed,
    List.drop_left]

theorem nextFrame_eq_some {bs rest : Bytes} {f : WireFrame} (h : nextFrame bs = some (f, rest)) :
    bs = f.bytes ++ rest := by
  by_cases hc : FrameComplete bs
  · rcases hc.exists_frame with ⟨f', rest', rfl⟩
    rw [nextFrame_frame, Option.some.injEq, Prod.mk.injEq] at h
    rw [h.1, h.2]
  · rw [nextFrame, dif_neg hc] at h
    cases h

theorem nextFrame_eq_none {bs : Bytes} : nextFrame bs = none ↔ ¬ StartsWithFrame bs := by
  rw [startsWithFrame_iff]
  unfold nextFrame
  split
  · rename_i h
    simp [h]
  · rename_i h
    simp [h]

theorem length_of_nextFrame {bs rest : Bytes} {f : WireFrame} (h : nextFrame bs = some (f, rest)) :
    rest.length < bs.length := by
  have htwo := f.two_le_length_bytes
  rw [nextFrame_eq_some h, List.length_append]
  omega

/-- The complete frames at the start of the bytes, and what is behind them. -/
def splitFrames (bs : Bytes) : List WireFrame × Bytes :=
  match _h : nextFrame bs with
  | none => ([], bs)
  | some (f, rest) => (f :: (splitFrames rest).1, (splitFrames rest).2)
termination_by bs.length
decreasing_by all_goals exact length_of_nextFrame _h

theorem splitFrames_of_not {bs : Bytes} (h : ¬ StartsWithFrame bs) : splitFrames bs = ([], bs) := by
  rw [← nextFrame_eq_none] at h
  rw [splitFrames]
  split
  · rfl
  · rename_i f rest hsome
    rw [h] at hsome
    cases hsome

theorem splitFrames_frame (f : WireFrame) (rest : Bytes) :
    splitFrames (f.bytes ++ rest) = (f :: (splitFrames rest).1, (splitFrames rest).2) := by
  have hnext := nextFrame_frame f rest
  rw [splitFrames]
  split
  · rename_i hnone
    rw [hnext] at hnone
    cases hnone
  · rename_i f' rest' hsome
    rw [hnext, Option.some.injEq, Prod.mk.injEq] at hsome
    rw [hsome.1, hsome.2]

/-- The encodings of the frames, one after the other. -/
def wireBytes (fs : List WireFrame) : Bytes :=
  fs.flatMap WireFrame.bytes

@[simp] theorem wireBytes_nil : wireBytes [] = [] := rfl

@[simp] theorem wireBytes_cons (f : WireFrame) (fs : List WireFrame) :
    wireBytes (f :: fs) = f.bytes ++ wireBytes fs := rfl

theorem splitFrames_wireBytes (fs : List WireFrame) (rest : Bytes) :
    splitFrames (wireBytes fs ++ rest) = (fs ++ (splitFrames rest).1, (splitFrames rest).2) := by
  induction fs with
  | nil => simp
  | cons f fs ih =>
    rw [wireBytes_cons, List.append_assoc, splitFrames_frame, ih]
    rfl

theorem splitFrames_spec (bs : Bytes) :
    bs = wireBytes (splitFrames bs).1 ++ (splitFrames bs).2 ∧
      ¬ StartsWithFrame (splitFrames bs).2 := by
  by_cases h : StartsWithFrame bs
  · rcases h with ⟨f, rest, rfl⟩
    have hlt : rest.length < (f.bytes ++ rest).length := by
      have htwo := f.two_le_length_bytes
      rw [List.length_append]
      omega
    have ih := splitFrames_spec rest
    rw [splitFrames_frame]
    refine ⟨?_, ih.2⟩
    rw [wireBytes_cons, List.append_assoc, ← ih.1]
  · rw [splitFrames_of_not h]
    exact ⟨by simp, h⟩
termination_by bs.length

theorem splitFrames_append (bs more : Bytes) :
    splitFrames (bs ++ more) =
      ((splitFrames bs).1 ++ (splitFrames ((splitFrames bs).2 ++ more)).1,
        (splitFrames ((splitFrames bs).2 ++ more)).2) := by
  have hsplit := (splitFrames_spec bs).1
  calc splitFrames (bs ++ more)
      = splitFrames (wireBytes (splitFrames bs).1 ++ ((splitFrames bs).2 ++ more)) := by
        rw [← List.append_assoc, ← hsplit]
    _ = _ := splitFrames_wireBytes _ _

/-- A proper prefix of a frame. -/
def PartialFrame (bs : Bytes) : Prop :=
  ∃ f : WireFrame, bs <+: f.bytes ∧ bs.length < f.bytes.length

theorem partialFrame_nil : PartialFrame [] := by
  refine ⟨{ opcode := wsTextFrame, isFinal := true, payload := [], payload_lt := by decide },
    List.nil_prefix, ?_⟩
  exact Nat.lt_of_lt_of_le (by decide) (WireFrame.two_le_length_bytes _)

theorem splitFrames_nil : splitFrames [] = ([], []) := by
  apply splitFrames_of_not
  intro h
  rcases h with ⟨f, hf⟩
  have htwo := f.two_le_length_bytes
  rw [List.prefix_nil.1 hf] at htwo
  simp at htwo

theorem splitFrames_frames (fs : List WireFrame) : splitFrames (wireBytes fs) = (fs, []) := by
  have hframes := splitFrames_wireBytes fs []
  rw [splitFrames_nil] at hframes
  simpa using hframes

theorem PartialFrame.waits {bs : Bytes} (h : PartialFrame bs) (htwo : 2 ≤ bs.length) :
    bs.getD 1 0 &&& 0x80 = 0 ∧ (decodeFrameLength bs).hasError = false ∧
      bs.length < (decodeFrameLength bs).neededBytes := by
  rcases h with ⟨f, hpre, hlt⟩
  exact decodeFrameLength_incomplete hpre hlt htwo

theorem PartialFrame.not_startsWithFrame {bs : Bytes} (h : PartialFrame bs) :
    ¬ StartsWithFrame bs := by
  rw [startsWithFrame_iff]
  intro hc
  have hwait := h.waits hc.1
  have hneed := hc.2.2.2
  omega

/-- The bytes of frames that have arrived so far are complete frames and a partial one. -/
theorem splitFrames_of_isPrefix {fs : List WireFrame} :
    ∀ {bs : Bytes}, bs <+: wireBytes fs →
      (splitFrames bs).1 <+: fs ∧ PartialFrame (splitFrames bs).2 := by
  induction fs with
  | nil =>
    intro bs h
    have hnil : bs = [] := List.prefix_nil.1 h
    subst hnil
    rw [splitFrames_of_not partialFrame_nil.not_startsWithFrame]
    exact ⟨List.prefix_refl _, partialFrame_nil⟩
  | cons f fs ih =>
    intro bs h
    rcases Nat.lt_or_ge bs.length f.bytes.length with hlt | hge
    · have hpartial : PartialFrame bs := by
        refine ⟨f, ?_, hlt⟩
        exact List.prefix_of_prefix_length_le h (List.prefix_append _ _) (by omega)
      rw [splitFrames_of_not hpartial.not_startsWithFrame]
      exact ⟨List.nil_prefix, hpartial⟩
    · have hpre : f.bytes <+: bs :=
        List.prefix_of_prefix_length_le (List.prefix_append _ _) h hge
      rcases hpre with ⟨rest, rfl⟩
      have hrest : rest <+: wireBytes fs := by
        rw [wireBytes_cons] at h
        exact (List.prefix_append_right_inj _).1 h
      rw [splitFrames_frame]
      exact ⟨List.cons_prefix_cons.2 ⟨rfl, (ih hrest).1⟩, (ih hrest).2⟩

end SharedUtility.UwsClient
