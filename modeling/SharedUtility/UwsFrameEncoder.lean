import SharedUtility.Bytes

/-!
# UwsFrameEncoder — `uws_frame_encoder.c`

The opcodes of `WS_FRAME_TYPE`, and the encoder.  What the encoder obtains from elsewhere, the
outcomes of its allocations and the four bytes drawn for a masking key, is its argument.
-/

namespace SharedUtility

def wsContinuationFrame : UInt8 := 0x0
def wsTextFrame : UInt8 := 0x1
def wsBinaryFrame : UInt8 := 0x2
def wsCloseFrame : UInt8 := 0x8
def wsPingFrame : UInt8 := 0x9
def wsPongFrame : UInt8 := 0xA

/-- The results of four calls of `gb_rand`. -/
abbrev MaskingKey := Fin 4 → UInt8

/-- The outcomes of the calls `uws_frame_encoder_encode` makes. -/
structure EncoderResources where
  bufferNew : Bool
  bufferEnlarge : Bool
  bufferUChar : Bool
  gbRand : MaskingKey

instance : Inhabited EncoderResources :=
  ⟨⟨true, true, true, fun _ => 0⟩⟩

/-- All allocations succeed. -/
def EncoderResources.available (res : EncoderResources) : Bool :=
  res.bufferNew && res.bufferEnlarge && res.bufferUChar

/-- `header_bytes`: the size of the header with the masking key. -/
def encodedHeaderBytes (length : Nat) (isMasked : Bool) : Nat :=
  2 + (if length > 65535 then 8 else if length > 125 then 2 else 0) + (if isMasked then 4 else 0)

/-- `buffer[0]`. -/
def encodedFirstByte (opcode : UInt8) (isFinal : Bool) (reserved : UInt8) : UInt8 :=
  (if isFinal then opcode ||| 0x80 else opcode) ||| (reserved <<< 4)

/-- `buffer[1]` before the mask bit is set. -/
def encodedLengthByte (length : Nat) : UInt8 :=
  if length > 65535 then 127
  else if length > 125 then 126
  else UInt8.ofNat length

/-- The bytes of the extended payload length, in network byte order. -/
def encodedExtendedLength (length : Nat) : Bytes :=
  if length > 65535 then
    [UInt8.ofNat (length >>> 56), UInt8.ofNat (length >>> 48), UInt8.ofNat (length >>> 40),
      UInt8.ofNat (length >>> 32), UInt8.ofNat (length >>> 24), UInt8.ofNat (length >>> 16),
      UInt8.ofNat (length >>> 8), UInt8.ofNat length]
  else if length > 125 then [UInt8.ofNat (length >>> 8), UInt8.ofNat length]
  else []

/-- Octet `i` of the payload is combined with octet `i % 4` of the key. -/
def maskPayload (key : MaskingKey) (payload : Bytes) : Bytes :=
  payload.mapIdx fun i b => b ^^^ key ⟨i % 4, Nat.mod_lt _ (by decide)⟩

/-- The contents of the result buffer. -/
def encodedFrame (opcode : UInt8) (payload : Bytes) (isMasked isFinal : Bool) (reserved : UInt8)
    (key : MaskingKey) : Bytes :=
  let lengthByte := encodedLengthByte payload.length
  encodedFirstByte opcode isFinal reserved ::
    (if isMasked then lengthByte ||| 0x80 else lengthByte) ::
    (encodedExtendedLength payload.length ++
      (if isMasked then List.ofFn key else []) ++
      (if isMasked then maskPayload key payload else payload))

/-- `uws_frame_encoder_encode`; `payload = none` is the NULL pointer. -/
def uwsFrameEncoderEncode (res : EncoderResources) (opcode : UInt8) (payload : Option Bytes)
    (length : Nat) (isMasked isFinal : Bool) (reserved : UInt8) : Option Bytes :=
  if reserved > 7 then none
  else if opcode > 0x0F then none
  else if length > 0 && payload.isNone then none
  else if res.bufferNew = false then none
  else if res.bufferEnlarge = false then none
  else if res.bufferUChar = false then none
  else
    some (encodedFrame opcode ((payload.getD []).take length) isMasked isFinal reserved res.gbRand)

/-! ## The shape of an encoded frame -/

@[simp] theorem length_maskPayload (key : MaskingKey) (payload : Bytes) :
    (maskPayload key payload).length = payload.length := by
  simp [maskPayload]

theorem maskPayload_maskPayload (key : MaskingKey) (payload : Bytes) :
    maskPayload key (maskPayload key payload) = payload := by
  apply List.ext_getElem
  · simp
  · intro i h₁ h₂
    simp only [maskPayload, List.getElem_mapIdx, UInt8.xor_assoc, UInt8.xor_self, UInt8.xor_zero]

theorem length_encodedExtendedLength (length : Nat) :
    (encodedExtendedLength length).length =
      if length > 65535 then 8 else if length > 125 then 2 else 0 := by
  unfold encodedExtendedLength
  split
  · rfl
  · split
    · rfl
    · rfl

/-- The buffer is filled exactly: `needed_bytes` is the header and the payload. -/
theorem length_encodedFrame (opcode : UInt8) (payload : Bytes) (isMasked isFinal : Bool)
    (reserved : UInt8) (key : MaskingKey) :
    (encodedFrame opcode payload isMasked isFinal reserved key).length =
      encodedHeaderBytes payload.length isMasked + payload.length := by
  have hext := length_encodedExtendedLength payload.length
  cases isMasked with
  | true =>
    simp [encodedFrame, encodedHeaderBytes, hext]
    omega
  | false =>
    simp [encodedFrame, encodedHeaderBytes, hext]
    omega

theorem uwsFrameEncoderEncode_available {res : EncoderResources} (hres : res.available = true)
    {opcode reserved : UInt8} (hop : opcode ≤ 0x0F) (hrsv : reserved ≤ 7) (payload : Bytes)
    (isMasked isFinal : Bool) :
    uwsFrameEncoderEncode res opcode (some payload) payload.length isMasked isFinal reserved =
      some (encodedFrame opcode payload isMasked isFinal reserved res.gbRand) := by
  have hop' : ¬ opcode > 0x0F := UInt8.not_lt.2 hop
  have hrsv' : ¬ reserved > 7 := UInt8.not_lt.2 hrsv
  simp only [EncoderResources.available, Bool.and_eq_true] at hres
  simp [uwsFrameEncoderEncode, hop', hrsv', hres]

theorem uwsFrameEncoderEncode_empty {res : EncoderResources} (hres : res.available = true)
    {opcode : UInt8} (hop : opcode ≤ 0x0F) (isMasked isFinal : Bool) :
    uwsFrameEncoderEncode res opcode none 0 isMasked isFinal 0 =
      some (encodedFrame opcode [] isMasked isFinal 0 res.gbRand) := by
  have hop' : ¬ opcode > 0x0F := UInt8.not_lt.2 hop
  simp only [EncoderResources.available, Bool.and_eq_true] at hres
  simp [uwsFrameEncoderEncode, hop', hres]

end SharedUtility
