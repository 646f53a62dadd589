import Mathlib.Tactic.IntervalCases
import SharedUtility.BaseEncoding
import SharedUtility.Buffer.Refinement
import SharedUtility.Memory.Places
import SharedUtility.UwsFrameEncoder

/-!
# Encode — the writes of `uws_frame_encoder_encode`

The buffer is enlarged to `needed_bytes` and its bytes are written one by one, at places that are computed
from `header_bytes`.  What it holds at the end is `encodedFrame`, with nothing written beside it; and a
masked frame gives its payload back: `encode_carries`.
-/

namespace SharedUtility.UwsFrameEncoder

open Memory Buffer

/-! ## The code -/

/-- The loop that masks the payload, from `i` on. -/
def maskLoop (buffer : Ptr) (headerBytes : Nat) : (i : Nat) → (payload : Bytes) → BufferM Unit
  | _, [] => pure ()
  | i, b :: payload => do
    let k ← loadAt buffer (headerBytes - 4 + i % 4)
    storeAt buffer (headerBytes + i) (b ^^^ k)
    maskLoop buffer headerBytes (i + 1) payload

/-- `buffer[i] |= bits`. -/
def setBits (buffer : Ptr) (i : Nat) (bits : UInt8) : BufferM Unit := do
  let b ← loadAt buffer i
  storeAt buffer i (b ||| bits)

/-- The header without the masking key. -/
def writeHeader (buffer : Ptr) (opcode : UInt8) (length : Nat) (isFinal : Bool) (reserved : UInt8) :
    BufferM Unit := do
  storeAt buffer 0 opcode
  if isFinal then setBits buffer 0 0x80
  setBits buffer 0 (reserved <<< 4)
  if length > 65535 then do
    storeAt buffer 1 127
    storeEach buffer 2
      [UInt8.ofNat (length >>> 56), UInt8.ofNat (length >>> 48), UInt8.ofNat (length >>> 40),
        UInt8.ofNat (length >>> 32), UInt8.ofNat (length >>> 24), UInt8.ofNat (length >>> 16),
        UInt8.ofNat (length >>> 8), UInt8.ofNat length]
  else if length > 125 then do
    storeAt buffer 1 126
    storeEach buffer 2 [UInt8.ofNat (length >>> 8), UInt8.ofNat length]
  else storeAt buffer 1 (UInt8.ofNat length)

/-- The mask bit and the masking key. -/
def writeMaskingKey (buffer : Ptr) (headerBytes : Nat) (gbRand : MaskingKey) : BufferM Unit := do
  setBits buffer 1 0x80
  storeAt buffer (headerBytes - 4) (gbRand 0)
  storeAt buffer (headerBytes - 3) (gbRand 1)
  storeAt buffer (headerBytes - 2) (gbRand 2)
  storeAt buffer (headerBytes - 1) (gbRand 3)

/-- A payload shorter than `length` would be read beyond its end. -/
def writePayload (buffer : Ptr) (headerBytes : Nat) (payload : Option Bytes) (length : Nat)
    (isMasked : Bool) : BufferM Unit :=
  if length > 0 then
    if isMasked then
      if length ≤ (payload.getD []).length then
        maskLoop buffer headerBytes 0 ((payload.getD []).take length)
      else undefined
    else copyIn buffer headerBytes (payload.getD []) length
  else pure ()

def writeFrame (buffer : Ptr) (headerBytes : Nat) (opcode : UInt8) (payload : Option Bytes)
    (length : Nat) (isMasked isFinal : Bool) (reserved : UInt8) (gbRand : MaskingKey) :
    BufferM Unit := do
  writeHeader buffer opcode length isFinal reserved
  if isMasked then do
    writeMaskingKey buffer headerBytes gbRand
    writePayload buffer headerBytes payload length isMasked
  else writePayload buffer headerBytes payload length isMasked

def headerBytes (length : Nat) (isMasked : Bool) : Nat :=
  let neededBytes := 2
  let neededBytes :=
    if length > 65535 then addSizeT neededBytes 8
    else if length > 125 then addSizeT neededBytes 2
    else neededBytes
  if isMasked then addSizeT neededBytes 4 else neededBytes

/-- `uws_frame_encoder_encode`.  `gbRand` are the bytes that `gb_rand` returns. -/
def uwsFrameEncoderEncode (opcode : UInt8) (payload : Option Bytes) (length : Nat)
    (isMasked isFinal : Bool) (reserved : UInt8) (gbRand : MaskingKey) : BufferM (Option Buffer) :=
  if reserved > 7 then pure none
  else if opcode > 0x0F then pure none
  else if length > 0 ∧ payload = none then pure none
  else do
    let result ← bufferNew
    if result = none then pure none
    else do
      let headerBytes := headerBytes length isMasked
      let r ← bufferEnlarge result (addSizeT headerBytes length)
      let result := r.2
      if r.1 ≠ 0 then do
        bufferDelete result
        pure none
      else do
        let buffer := bufferUChar result
        if buffer = none then do
          bufferDelete result
          pure none
        else do
          writeFrame buffer headerBytes opcode payload length isMasked isFinal reserved gbRand
          pure result

/-! ## The header -/

section

variable {h : BufferHeap} {p : Ptr} {xs back : Bytes} {spare : Nat}

theorem meets_setBits (front : Bytes) {b bits : UInt8} {i : Nat} (hp : Filled h p (front ++ b :: back) spare)
    (hi : i = front.length) {Q : Unit → BufferHeap → Prop}
    (hQ : ∀ h', Replaces h h' p p → Filled h' p (front ++ (b ||| bits) :: back) spare → Q () h') :
    Meets (setBits p i bits) h Q := by
  have hget : (front ++ b :: back)[i]? = some b := by
    subst hi
    simp
  apply Meets.bind
  apply meets_loadAt hp hget
  exact meets_storeAt hp hi hQ

theorem meets_writeHeader {opcode reserved : UInt8} {length : Nat} {isFinal : Bool}
    (hp : Filled h p [] (2 + (encodedExtendedLength length).length + spare))
    {Q : Unit → BufferHeap → Prop}
    (hQ : ∀ h', Replaces h h' p p →
      Filled h' p (encodedFirstByte opcode isFinal reserved :: encodedLengthByte length ::
        encodedExtendedLength length) spare → Q () h') :
    Meets (writeHeader p opcode length isFinal reserved) h Q := by
  have hroom : 2 + (encodedExtendedLength length).length + spare =
      (encodedExtendedLength length).length + spare + 1 + 1 := by omega
  rw [hroom] at hp
  -- the bytes behind the first one
  have hlength : ∀ {h₁ : BufferHeap} {b : UInt8}, Replaces h h₁ p p →
      Filled h₁ p [b] ((encodedExtendedLength length).length + spare + 1) →
        b = encodedFirstByte opcode isFinal reserved →
          Meets (if length > 65535 then do
              storeAt p 1 127
              storeEach p 2
                [UInt8.ofNat (length >>> 56), UInt8.ofNat (length >>> 48),
                  UInt8.ofNat (length >>> 40), UInt8.ofNat (length >>> 32),
                  UInt8.ofNat (length >>> 24), UInt8.ofNat (length >>> 16),
                  UInt8.ofNat (length >>> 8), UInt8.ofNat length]
            else if length > 125 then do
              storeAt p 1 126
              storeEach p 2 [UInt8.ofNat (length >>> 8), UInt8.ofNat length]
            else storeAt p 1 (UInt8.ofNat length)) h₁ Q := by
    rintro h₁ b hh hp rfl
    unfold encodedLengthByte at hQ
    unfold encodedExtendedLength at hp hQ
    split
    case isTrue hlarge =>
      simp only [if_pos hlarge] at hp hQ
      apply Meets.bind
      apply meets_storeAt_next hp rfl
      intro h₂ hh₂ hp₂
      apply meets_storeEach hp₂ rfl
      intro h₃ hh₃ hp₃
      exact hQ h₃ ((hh.trans hh₂).trans hh₃) hp₃
    case isFalse hlarge =>
      simp only [if_neg hlarge] at hp hQ
      split
      case isTrue hmiddle =>
        simp only [if_pos hmiddle] at hp hQ
        apply Meets.bind
        apply meets_storeAt_next hp rfl
        intro h₂ hh₂ hp₂
        apply meets_storeEach hp₂ rfl
        intro h₃ hh₃ hp₃
        exact hQ h₃ ((hh.trans hh₂).trans hh₃) hp₃
      case isFalse hmiddle =>
        simp only [if_neg hmiddle] at hp hQ
        rw [List.length_nil, Nat.zero_add] at hp
        apply meets_storeAt_next hp rfl
        intro h₂ hh₂ hp₂
        exact hQ h₂ (hh.trans hh₂) hp₂
  unfold writeHeader
  apply Meets.bind
  apply meets_storeAt_next hp rfl
  intro h₁ hh₁ hp₁
  cases isFinal with
  | true =>
    apply Meets.bind
    apply meets_setBits [] hp₁ rfl
    intro h₂ hh₂ hp₂
    apply Meets.bind
    apply meets_setBits [] hp₂ rfl
    intro h₃ hh₃ hp₃
    exact hlength ((hh₁.trans hh₂).trans hh₃) hp₃ rfl
  | false =>
    apply Meets.bind
    apply meets_setBits [] hp₁ rfl
    intro h₂ hh₂ hp₂
    exact hlength (hh₁.trans hh₂) hp₂ rfl

/-! ## The masking key and the payload -/

/-- The octets of a part of the payload, the first of which is octet `i`. -/
def maskFrom (key : MaskingKey) (i : Nat) (payload : Bytes) : Bytes :=
  payload.mapIdx fun k b => b ^^^ key ⟨(i + k) % 4, Nat.mod_lt _ (by decide)⟩

theorem maskFrom_zero (key : MaskingKey) (payload : Bytes) :
    maskFrom key 0 payload = maskPayload key payload := by
  simp only [maskFrom, maskPayload, Nat.zero_add]

theorem maskFrom_cons (key : MaskingKey) (i : Nat) (b : UInt8) (payload : Bytes) :
    maskFrom key i (b :: payload) =
      (b ^^^ key ⟨i % 4, Nat.mod_lt _ (by decide)⟩) :: maskFrom key (i + 1) payload := by
  simp only [maskFrom, List.mapIdx_cons, Nat.add_zero, Nat.add_assoc, Nat.add_comm 1]

theorem meets_maskLoop {key : MaskingKey} {headerBytes i : Nat} (payload : Bytes)
    (hheader : 4 ≤ headerBytes) (hlength : xs.length = headerBytes + i)
    (hkey : ∀ j : Fin 4, xs[headerBytes - 4 + j.val]? = some (key j))
    (hp : Filled h p xs (payload.length + spare)) {Q : Unit → BufferHeap → Prop}
    (hQ : ∀ h', Replaces h h' p p → Filled h' p (xs ++ maskFrom key i payload) spare → Q () h') :
    Meets (maskLoop p headerBytes i payload) h Q := by
  induction payload generalizing h xs i with
  | nil =>
    apply meets_pure
    apply hQ h (Replaces.refl h p)
    rw [List.length_nil, Nat.zero_add] at hp
    rwa [maskFrom, List.mapIdx_nil, List.append_nil]
  | cons b payload ih =>
    rw [List.length_cons, Nat.add_right_comm] at hp
    rw [maskLoop]
    apply Meets.bind
    apply meets_loadAt hp (hkey ⟨i % 4, Nat.mod_lt _ (by decide)⟩)
    apply Meets.bind
    apply meets_storeAt_next hp hlength.symm
    intro h₁ hh₁ hp₁
    apply ih _ _ hp₁
    · intro h₂ hh₂ hp₂
      apply hQ h₂ (hh₁.trans hh₂)
      rwa [List.append_assoc, List.singleton_append, ← maskFrom_cons] at hp₂
    · rw [List.length_append, List.length_singleton, hlength, Nat.add_assoc]
    · intro j
      rw [List.getElem?_append_left (by omega)]
      exact hkey j

theorem headerBytes_eq (length : Nat) (isMasked : Bool) :
    headerBytes length isMasked = encodedHeaderBytes length isMasked := by
  by_cases hlarge : length > 65535
  · simp only [headerBytes, encodedHeaderBytes, if_pos hlarge]
    cases isMasked <;> rfl
  · by_cases hmiddle : length > 125
    · simp only [headerBytes, encodedHeaderBytes, if_neg hlarge, if_pos hmiddle]
      cases isMasked <;> rfl
    · simp only [headerBytes, encodedHeaderBytes, if_neg hlarge, if_neg hmiddle]
      cases isMasked <;> rfl

theorem meets_writeMaskingKey {b0 b1 : UInt8} {ext : Bytes} {key : MaskingKey} {headerBytes : Nat}
    (hheader : headerBytes = 2 + ext.length + 4) (hp : Filled h p (b0 :: b1 :: ext) (4 + spare))
    {Q : Unit → BufferHeap → Prop}
    (hQ : ∀ h', Replaces h h' p p →
      Filled h' p (b0 :: (b1 ||| 0x80) :: (ext ++ [key 0, key 1, key 2, key 3])) spare → Q () h') :
    Meets (writeMaskingKey p headerBytes key) h Q := by
  have hspare : 4 + spare = spare + 1 + 1 + 1 + 1 := by omega
  rw [hspare] at hp
  subst hheader
  apply Meets.bind
  apply meets_setBits [b0] hp rfl
  intro h₁ hh₁ hp₁
  apply Meets.bind
  apply meets_storeAt_next hp₁ (by simp only [List.length_append, List.length_cons, List.length_nil]; omega)
  intro h₂ hh₂ hp₂
  apply Meets.bind
  apply meets_storeAt_next hp₂ (by simp only [List.length_append, List.length_cons, List.length_nil]; omega)
  intro h₃ hh₃ hp₃
  apply Meets.bind
  apply meets_storeAt_next hp₃ (by simp only [List.length_append, List.length_cons, List.length_nil]; omega)
  intro h₄ hh₄ hp₄
  apply meets_storeAt_next hp₄ (by simp only [List.length_append, List.length_cons, List.length_nil]; omega)
  intro h₅ hh₅ hp₅
  apply hQ h₅ ((((hh₁.trans hh₂).trans hh₃).trans hh₄).trans hh₅)
  simpa only [List.append_assoc, List.cons_append, List.nil_append] using hp₅

theorem meets_writePayload {key : MaskingKey} {headerBytes : Nat} {payload : Option Bytes}
    {isMasked : Bool} (hlength : xs.length = headerBytes)
    (hkey : isMasked = true → 4 ≤ headerBytes ∧
      ∀ j : Fin 4, xs[headerBytes - 4 + j.val]? = some (key j))
    (hp : Filled h p xs ((payload.getD []).length + spare)) {Q : Unit → BufferHeap → Prop}
    (hQ : ∀ h', Replaces h h' p p →
      Filled h' p (xs ++ if isMasked then maskPayload key (payload.getD []) else payload.getD [])
        spare → Q () h') :
    Meets (writePayload p headerBytes payload (payload.getD []).length isMasked) h Q := by
  unfold writePayload
  split
  case isFalse hzero =>
    have hnil : payload.getD [] = [] := List.length_eq_zero_iff.1 (by omega)
    rw [hnil] at hp hQ
    apply meets_pure
    apply hQ h (Replaces.refl h p)
    rw [List.length_nil, Nat.zero_add] at hp
    cases isMasked with
    | true => rwa [if_pos rfl, maskPayload, List.mapIdx_nil, List.append_nil]
    | false => rwa [if_neg (by decide), List.append_nil]
  case isTrue hpos =>
    cases isMasked with
    | true =>
      rcases hkey rfl with ⟨hheader, hkey⟩
      rw [if_pos rfl, if_pos (Nat.le_refl _), List.take_length]
      apply meets_maskLoop _ hheader hlength hkey hp
      intro h' hh hfilled
      apply hQ h' hh
      rwa [maskFrom_zero] at hfilled
    | false =>
      rw [if_neg (by decide)]
      apply meets_copyIn hp (Nat.le_refl _)
      · rw [List.length_append, List.length_map, length_unwritten]
        omega
      · intro h' hh hcell
        apply hQ h' hh
        rw [if_neg (by decide), Filled, hcell, List.take_length]
        have hnext := overwritten_append (xs.map some)
          (show ((payload.getD []).map some).length = (payload.getD []).length from
            List.length_map ..) spare
        rw [List.length_map, hlength] at hnext
        rw [hnext, List.map_append]

theorem meets_writeFrame {opcode reserved : UInt8} {payload : Option Bytes} {isMasked isFinal : Bool}
    {key : MaskingKey}
    (hp : Filled h p []
      (encodedHeaderBytes (payload.getD []).length isMasked + (payload.getD []).length + spare))
    {Q : Unit → BufferHeap → Prop}
    (hQ : ∀ h', Replaces h h' p p →
      Filled h' p (encodedFrame opcode (payload.getD []) isMasked isFinal reserved key) spare →
        Q () h') :
    Meets (writeFrame p (encodedHeaderBytes (payload.getD []).length isMasked) opcode payload
      (payload.getD []).length isMasked isFinal reserved key) h Q := by
  have hext := length_encodedExtendedLength (payload.getD []).length
  have hheader : encodedHeaderBytes (payload.getD []).length isMasked =
      2 + (encodedExtendedLength (payload.getD []).length).length + if isMasked then 4 else 0 := by
    rw [hext]
    rfl
  have hroom : encodedHeaderBytes (payload.getD []).length isMasked + (payload.getD []).length +
      spare = 2 + (encodedExtendedLength (payload.getD []).length).length +
        ((if isMasked then 4 else 0) + ((payload.getD []).length + spare)) := by omega
  rw [hroom] at hp
  apply Meets.bind
  apply meets_writeHeader hp
  intro h₁ hh₁ hp₁
  cases isMasked with
  | true =>
    apply Meets.bind
    apply meets_writeMaskingKey hheader hp₁
    intro h₂ hh₂ hp₂
    apply meets_writePayload _ _ hp₂
    · intro h₃ hh₃ hp₃
      apply hQ h₃ ((hh₁.trans hh₂).trans hh₃)
      simpa [encodedFrame] using hp₃
    · rw [hheader]
      simp only [List.length_cons, List.length_append, List.length_nil, if_true]
      omega
    · intro _
      refine ⟨by rw [hheader, if_pos rfl]; omega, fun j => ?_⟩
      have hindex : encodedHeaderBytes (payload.getD []).length true - 4 + j.val =
          (encodedExtendedLength (payload.getD []).length).length + j.val + 1 + 1 := by
        rw [hheader, if_pos rfl]
        omega
      rw [hindex, List.getElem?_cons_succ, List.getElem?_cons_succ,
        List.getElem?_append_right (Nat.le_add_right _ _), Nat.add_sub_cancel_left]
      rcases j with ⟨j, hj⟩
      interval_cases j <;> rfl
  | false =>
    have hkey : false = true → 4 ≤ encodedHeaderBytes (payload.getD []).length false ∧
        ∀ j : Fin 4, (encodedFirstByte opcode isFinal reserved ::
          encodedLengthByte (payload.getD []).length ::
            encodedExtendedLength (payload.getD []).length)[
              encodedHeaderBytes (payload.getD []).length false - 4 + j.val]? = some (key j) := by rintro ⟨⟩
    rw [if_neg (by decide), Nat.zero_add] at hp₁
    apply meets_writePayload _ hkey hp₁
    · intro h₂ hh₂ hp₂
      apply hQ h₂ (hh₁.trans hh₂)
      simpa [encodedFrame] using hp₂
    · rw [hheader, if_neg (by decide)]
      simp only [List.length_cons]
      omega

end

/-! ## The encoder -/

/-- No object is larger than `PTRDIFF_MAX`. -/
def ptrdiffMax : Nat := 2 ^ 63 - 1

section

variable {opcode reserved : UInt8} {payload : Option Bytes}

theorem encode_creates (hopcode : opcode ≤ 0x0F) (hreserved : reserved ≤ 7)
    (hsize : (payload.getD []).length ≤ ptrdiffMax) (isMasked isFinal : Bool) (key : MaskingKey)
    (h : BufferHeap) :
    Meets (uwsFrameEncoderEncode opcode payload (payload.getD []).length isMasked isFinal reserved key)
      h (Creates view h (some (some
        ((encodedFrame opcode (payload.getD []) isMasked isFinal reserved key).map some)))) := by
  have hheader := headerBytes_eq (payload.getD []).length isMasked
  have hbounds : 2 ≤ encodedHeaderBytes (payload.getD []).length isMasked ∧
      encodedHeaderBytes (payload.getD []).length isMasked ≤ 14 := by
    unfold encodedHeaderBytes
    split_ifs
    all_goals omega
  have hlimit : ptrdiffMax + 14 < sizeMax := by decide
  have hneeded : addSizeT (encodedHeaderBytes (payload.getD []).length isMasked)
      (payload.getD []).length = encodedHeaderBytes (payload.getD []).length isMasked +
        (payload.getD []).length := addSizeT_of_le (by omega)
  have hnull : ¬ ((payload.getD []).length > 0 ∧ payload = none) := by
    rintro ⟨hlength, rfl⟩
    cases hlength
  unfold uwsFrameEncoderEncode
  rw [if_neg (UInt8.not_lt.2 hreserved), if_neg (UInt8.not_lt.2 hopcode), if_neg hnull]
  apply Meets.bind
  apply (bufferNew_creates h).mono
  rintro result h₁ (⟨hwanted, hh₁, hb⟩ | ⟨hfailed, hh⟩)
  case null => exact meets_pure (.null (.inr (hfailed.resolve_left (by simp))) hh)
  case new b c =>
    cases hwanted
    rw [if_neg (by simp)]
    apply Meets.bind
    simp only [hheader, hneeded]
    apply (bufferEnlarge_does (show Holds h₁ b none from hb) _).mono
    rintro ⟨code, enlarged⟩ h₂ ⟨b', rfl, hh₂, after, hb', hsettles⟩
    have hempty : wantedEnlarge none (encodedHeaderBytes (payload.getD []).length isMasked +
        (payload.getD []).length) = some (some ([] ++ unwritten
          (encodedHeaderBytes (payload.getD []).length isMasked + (payload.getD []).length))) := by
      rw [wantedEnlarge, if_neg]
      · rfl
      · simp only [Option.getD_none, List.length_nil, Nat.zero_add]
        omega
    dsimp only at hsettles hh₂ ⊢
    generalize hok : (code == 0) = ok at hsettles
    cases hsettles with
    | failed hfailed =>
      -- the buffer is deleted, and has no block
      rw [hempty] at hfailed
      have hfailures := hfailed.resolve_left (by simp)
      rw [if_pos (by simpa using hok)]
      rcases hb' with ⟨hnull, -⟩
      apply Meets.bind
      simp only [bufferDelete, hnull, ne_eq, not_true, if_false]
      apply meets_pure
      apply meets_pure
      refine .null (.inr (Nat.lt_of_le_of_lt hh₁.failures hfailures)) ?_
      have hplace : view.place b = none := hb.1
      have hplace' : view.place b' = none := hnull
      rw [hplace] at hh₁ hh₂
      rw [hplace'] at hh₂
      exact hh₁.trans hh₂
    | done hdone =>
      rw [hempty] at hdone
      cases hdone
      rcases hb' with ⟨⟨spare, hcell⟩, hlength⟩
      rw [List.nil_append] at hcell
      rw [List.nil_append, length_unwritten] at hlength
      have hbuffer : bufferUChar (some b') = b'.buffer := by
        rw [bufferUChar, if_neg (by omega)]
      have hfilled : Filled h₂ b'.buffer []
          (encodedHeaderBytes (payload.getD []).length isMasked + (payload.getD []).length +
            spare) := by
        rw [filled_nil, hcell, unwritten, unwritten, unwritten, List.replicate_append_replicate]
      rw [if_neg (by simpa using hok), hbuffer, if_neg (Heap.ne_none_of_cell hcell)]
      apply Meets.bind
      apply meets_writeFrame hfilled
      intro h₃ hh₃ hp₃
      apply meets_pure
      refine .new rfl ?_ ⟨⟨spare, hp₃⟩, ?_⟩
      · have hplace : view.place b = none := hb.1
        rw [hplace] at hh₁ hh₂
        exact (hh₁.trans hh₂).trans hh₃
      · rw [hlength, List.length_map, length_encodedFrame]

end

/-! ## What a masked frame carries -/

/-- The shortest of the three forms of a length: the low seven bits of the second byte, and the bytes
behind it in network byte order. -/
def ShortestForm (length low : Nat) (extended : Bytes) : Prop :=
  (length ≤ 125 ∧ low = length ∧ extended = []) ∨
    (125 < length ∧ length ≤ 65535 ∧ low = 126 ∧ extended.length = 2 ∧
      BaseEncoding.number extended = length) ∨
    (65535 < length ∧ low = 127 ∧ extended.length = 8 ∧ BaseEncoding.number extended = length)

/-- A masked frame: the header with the masking key, and the payload combined with that key. -/
def Carries (frame : Bytes) (opcode : UInt8) (isFinal : Bool) (reserved : UInt8) (key : MaskingKey)
    (payload : Bytes) : Prop :=
  ∃ first second extended masked low,
    frame = first :: second :: (extended ++ [key 0, key 1, key 2, key 3] ++ masked) ∧
      first.toNat = (if isFinal then 128 else 0) + 16 * reserved.toNat + opcode.toNat ∧
        second.toNat = 128 + low ∧ ShortestForm payload.length low extended ∧
          frame.length = (2 + extended.length + 4) + payload.length ∧
            maskPayload key masked = payload

theorem firstByte_toNat {opcode reserved : UInt8} (hopcode : opcode ≤ 0x0F) (hreserved : reserved ≤ 7)
    (isFinal : Bool) :
    (encodedFirstByte opcode isFinal reserved).toNat =
      (if isFinal then 128 else 0) + 16 * reserved.toNat + opcode.toNat := by
  have hall : ∀ o < 16, ∀ r < 8, ∀ f,
      (encodedFirstByte (UInt8.ofNat o) f (UInt8.ofNat r)).toNat =
        (if f then 128 else 0) + 16 * r + o := by decide
  have hvalue := hall opcode.toNat (Nat.lt_succ_of_le (UInt8.le_iff_toNat_le.1 hopcode))
    reserved.toNat (Nat.lt_succ_of_le (UInt8.le_iff_toNat_le.1 hreserved)) isFinal
  rwa [UInt8.ofNat_toNat, UInt8.ofNat_toNat] at hvalue

theorem lengthByte_toNat (length : Nat) :
    (encodedLengthByte length ||| 0x80).toNat =
      128 + if length > 65535 then 127 else if length > 125 then 126 else length := by
  unfold encodedLengthByte
  split_ifs with hlarge hmiddle
  · rfl
  · rfl
  · have hall : ∀ n < 126, (UInt8.ofNat n ||| 0x80).toNat = 128 + n := by decide
    exact hall length (by omega)

theorem number_extendedLength {length : Nat} (h : 125 < length) (hsize : length < 2 ^ 64) :
    BaseEncoding.number (encodedExtendedLength length) = length := by
  unfold encodedExtendedLength BaseEncoding.number
  split_ifs with hlarge
  · simp only [List.foldl_cons, List.foldl_nil, UInt8.toNat_ofNat', Nat.shiftRight_eq_div_pow]
    omega
  · simp only [List.foldl_cons, List.foldl_nil, UInt8.toNat_ofNat', Nat.shiftRight_eq_div_pow]
    omega

theorem shortestForm {length : Nat} (hsize : length < 2 ^ 64) :
    ShortestForm length (if length > 65535 then 127 else if length > 125 then 126 else length)
      (encodedExtendedLength length) := by
  have hext := length_encodedExtendedLength length
  split_ifs at hext ⊢ with hlarge hmiddle
  · exact .inr (.inr ⟨hlarge, rfl, hext, number_extendedLength (by omega) hsize⟩)
  · exact .inr (.inl ⟨hmiddle, by omega, rfl, hext, number_extendedLength hmiddle hsize⟩)
  · exact .inl ⟨by omega, rfl, List.length_eq_zero_iff.1 hext⟩

theorem encodedFrame_carries {opcode reserved : UInt8} (hopcode : opcode ≤ 0x0F)
    (hreserved : reserved ≤ 7) {payload : Bytes} (hsize : payload.length < 2 ^ 64) (isFinal : Bool)
    (key : MaskingKey) :
    Carries (encodedFrame opcode payload true isFinal reserved key) opcode isFinal reserved key
      payload := by
  refine ⟨_, _, _, maskPayload key payload, _, rfl, firstByte_toNat hopcode hreserved isFinal,
    lengthByte_toNat payload.length, shortestForm hsize, ?_, maskPayload_maskPayload key payload⟩
  rw [length_encodedFrame, encodedHeaderBytes, length_encodedExtendedLength]
  rfl

/-- Whatever is on the heap: a new buffer holds a frame that carries the payload, or an allocation has
failed and NULL is returned. -/
theorem encode_carries {opcode reserved : UInt8} (hopcode : opcode ≤ 0x0F) (hreserved : reserved ≤ 7)
    {payload : Option Bytes} (hsize : (payload.getD []).length ≤ ptrdiffMax) (isFinal : Bool)
    (key : MaskingKey) (h : BufferHeap) :
    Meets (uwsFrameEncoderEncode opcode payload (payload.getD []).length true isFinal reserved key) h
      fun result h' => ∃ frame, Carries frame opcode isFinal reserved key (payload.getD []) ∧
        Creates view h (some (some (frame.map some))) result h' := by
  have hlimit : ptrdiffMax < 2 ^ 64 := by decide
  apply (encode_creates hopcode hreserved hsize true isFinal key h).mono
  intro result h' hcreates
  exact ⟨_, encodedFrame_carries hopcode hreserved (by omega) isFinal key, hcreates⟩

/-- A final text frame of two bytes on an empty heap. -/
theorem encode_carries_text :
    Meets (uwsFrameEncoderEncode wsTextFrame (some (ascii "hi")) 2 true true 0
        fun i => UInt8.ofNat (i.val + 1)) {}
      fun result h' => ∃ frame,
        Carries frame wsTextFrame true 0 (fun i => UInt8.ofNat (i.val + 1)) (ascii "hi") ∧
          Creates view {} (some (some (frame.map some))) result h' :=
  @encode_carries _ _ (by decide) (by decide) (some (ascii "hi")) (by decide) true _ {}

end SharedUtility.UwsFrameEncoder
