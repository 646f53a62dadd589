import SharedUtility.Buffer.Code

/-!
# Buffer.Refinement — a buffer is a list of bytes

* `Content` — the bytes of a buffer, `none` for one that nobody has specified; a buffer without a
  block is not the same as one of no bytes, since it cannot be appended to,
* `Call.wanted` — what the buffers are after a call that does not fail,
* `buffer_refines_bytes` — every run of calls, whichever allocations fail, does what is wanted or
  changes nothing.
-/

namespace SharedUtility.Buffer

open Memory

abbrev Content := Option (Region UInt8)

/-- The bytes, also of a buffer without a block. -/
abbrev Content.bytes (c : Content) : Region UInt8 :=
  c.getD []

/-! ## What is wanted -/

section

variable (c : Content)

def wantedCreate (source : Option Bytes) (size : Nat) : Option Content :=
  source.map fun source => some ((source.take size).map some)

def wantedBuild (source : Option Bytes) (size : Nat) : Option Content :=
  if size = 0 then some none else wantedCreate source size

def wantedAppendBuild (source : Option Bytes) (size : Nat) : Option Content :=
  if size = 0 then none
  else if c ≠ none ∧ sizeMax ≤ c.bytes.length + size then none
  else source.map fun source => some (c.bytes ++ (source.take size).map some)

def wantedPreBuild (size : Nat) : Option Content :=
  if size = 0 ∨ c ≠ none then none else some (some (unwritten size))

def wantedUnbuild : Option Content :=
  c.map fun _ => none

def wantedEnlarge (enlargeSize : Nat) : Option Content :=
  if enlargeSize = 0 ∨ sizeMax ≤ c.bytes.length + enlargeSize then none
  else some (some (c.bytes ++ unwritten enlargeSize))

/-- A buffer that shrinks to nothing has no block any more. -/
def wantedShrink (decreaseSize : Nat) (fromEnd : Bool) : Option Content :=
  if decreaseSize = 0 ∨ c.bytes.length < decreaseSize then none
  else if decreaseSize = c.bytes.length then some none
  else if fromEnd then some (some (c.bytes.take (c.bytes.length - decreaseSize)))
  else some (some (c.bytes.drop decreaseSize))

/-- The size of the two must be less than `SIZE_MAX`, and leave `spare` bytes. -/
def wantedJoin (c1 c2 : Content) (spare : Nat) (joined : Region UInt8) : Option Content :=
  if c1 = none ∨ c2 = none then none
  else if c2.bytes = [] then some c1
  else if sizeMax ≤ c1.bytes.length + c2.bytes.length + spare then none
  else some (some joined)

def wantedAppend (c1 c2 : Content) : Option Content :=
  wantedJoin c1 c2 0 (c1.bytes ++ c2.bytes)

def wantedPrepend (c1 c2 : Content) : Option Content :=
  wantedJoin c1 c2 1 (c2.bytes ++ c1.bytes)

end

/-- What the buffers are after a call that succeeds; `none` where the call must fail. -/
def Call.wanted (contents : List Content) : Call → Option (List Content)
  | .bufferNew => some (contents ++ [none])
  | .bufferCreate source size => (wantedCreate source size).map fun c => contents ++ [c]
  | .bufferBuild i source size => onContent contents i fun _ => wantedBuild source size
  | .bufferAppendBuild i source size => onContent contents i fun c => wantedAppendBuild c source size
  | .bufferPreBuild i size => onContent contents i fun c => wantedPreBuild c size
  | .bufferContent i content => if content then onContent contents i some else none
  | .bufferUnbuild i => onContent contents i wantedUnbuild
  | .bufferEnlarge i enlargeSize => onContent contents i fun c => wantedEnlarge c enlargeSize
  | .bufferShrink i decreaseSize fromEnd =>
    onContent contents i fun c => wantedShrink c decreaseSize fromEnd
  | .bufferSize i size => if size then onContent contents i some else none
  | .bufferAppend i j =>
    contents[j]?.bind fun c2 => onContent contents i fun c1 =>
      if i = j then none else wantedAppend c1 c2
  | .bufferPrepend i j =>
    contents[j]?.bind fun c2 => onContent contents i fun c1 =>
      if i = j then none else wantedPrepend c1 c2
  | .bufferClone i => contents[i]?.map fun c => contents ++ [some c.bytes]

/-- A source has as many bytes as the call says. -/
def Call.Readable : Call → Prop
  | .bufferCreate source size => ∀ bytes, source = some bytes → size ≤ bytes.length
  | .bufferBuild _ source size => ∀ bytes, source = some bytes → size ≤ bytes.length
  | .bufferAppendBuild _ source size => ∀ bytes, source = some bytes → size ≤ bytes.length
  | _ => True

/-! ## What a buffer stands for -/

/-- A NULL pointer goes with size 0; a block may be longer than the size. -/
def Holds (h : BufferHeap) (b : Buffer) : Content → Prop
  | none => b.buffer = none ∧ b.size = 0
  | some bytes =>
    (∃ spare, h.cell b.buffer = some (bytes ++ unwritten spare)) ∧ b.size = bytes.length

def view : View (Region UInt8) Buffer Content where
  place b := b.buffer
  Holds := Holds
  frame := by
    intro h h' b c hb hkept
    cases c with
    | none => exact hb
    | some bytes =>
      obtain ⟨⟨spare, hcell⟩, hsize⟩ := hb
      exact ⟨⟨spare, hkept _ hcell⟩, hsize⟩
  live := by
    intro h b c hb hplace
    cases c with
    | none => exact absurd hb.1 hplace
    | some bytes =>
      obtain ⟨⟨spare, hcell⟩, -⟩ := hb
      exact ⟨_, hcell⟩

/-- What the answer to a call tells is so. -/
def Answer.Tells (contents : List Content) (h : BufferHeap) : Call → Answer → Prop
  | .bufferContent i _, .content _ (some p) =>
    ∃ c, contents[i]? = some c ∧ (c = none → p = none) ∧
      ∀ bytes, c = some bytes → ∃ block, h.cell p = some block ∧ bytes <+: block
  | .bufferSize i _, .size _ (some n) => ∃ c, contents[i]? = some c ∧ n = c.bytes.length
  | .bufferContent .., .content code none => code ≠ 0
  | .bufferSize .., .size code none => code ≠ 0
  | _, .handle (some place) => place + 1 = contents.length
  | _, _ => True

/-- The call does what is wanted, or reports a failure and changes nothing. -/
def Agrees (c : Call) (contents : List Content) (h : BufferHeap) (answer : Answer)
    (contents' : List Content) (h' : BufferHeap) : Prop :=
  Settles (c.wanted contents) contents (h.failures < h'.failures) answer.succeeds contents' ∧
    answer.Tells contents' h' c

/-! ## Functions on one buffer -/

section

variable {h h' : BufferHeap} {b b' : Buffer} {c c' : Content} {wanted : Option Content}

theorem Holds.block (hb : Holds h b c) :
    ∃ spare, (b.buffer = none ∧ c.bytes ++ unwritten spare = [] ∨
      h.cell b.buffer = some (c.bytes ++ unwritten spare)) ∧ b.size = c.bytes.length := by
  cases c with
  | none => exact ⟨0, .inl ⟨hb.1, rfl⟩, hb.2⟩
  | some bytes =>
    obtain ⟨⟨spare, hcell⟩, hsize⟩ := hb
    exact ⟨spare, .inr hcell, hsize⟩

theorem Holds.null_iff (hb : Holds h b c) : b.buffer = none ↔ c = none := by
  cases c with
  | none => exact ⟨fun _ => rfl, fun _ => hb.1⟩
  | some bytes =>
    obtain ⟨⟨spare, hcell⟩, -⟩ := hb
    simp only [reduceCtorEq, iff_false]
    exact Heap.ne_none_of_cell hcell

theorem holds_some {p : Ptr} {bytes : Region UInt8} {n : Nat} (spare : Nat)
    (hp : h.cell p = some (bytes ++ unwritten spare)) (hn : n = bytes.length) :
    Holds h ⟨p, n⟩ (some bytes) :=
  ⟨⟨spare, hp⟩, hn⟩

theorem meets_freeBuffer (hb : Holds h b c) {Q : Unit → BufferHeap → Prop}
    (hQ : ∀ h', Replaces h h' b.buffer none → Q () h') : Meets (free b.buffer) h Q := by
  obtain ⟨spare, hblock, -⟩ := hb.block
  exact meets_freeBlock (hblock.imp_left And.left) hQ

theorem meets_bufferSafemalloc {size : Nat} {Q : Int × Buffer → BufferHeap → Prop}
    (hyes : ∀ p h' spare, Replaces h h' none p → h'.cell p = some (unwritten (size + spare)) →
      Q (0, ⟨p, size⟩) h')
    (hno : Q (failure, { b with buffer := none }) h.refused) :
    Meets (bufferSafemalloc b size) h Q := by
  apply Meets.bind
  apply meets_mallocBlock
  · intro p h' _ hh hp
    rw [if_neg (Heap.ne_none_of_cell hp)]
    apply meets_pure
    by_cases hzero : size = 0
    · rw [if_pos hzero] at hp
      apply hyes p h' 1 hh
      rw [hp, hzero]
    · rw [if_neg hzero] at hp
      exact hyes p h' 0 hh hp
  · intro _
    exact meets_pure hno

theorem length_source {source : Bytes} {size : Nat} (hsize : size ≤ source.length) :
    ((source.take size).map some).length = size := by
  rw [List.length_map, List.length_take, Nat.min_eq_left hsize]

theorem bufferBuild_does (hb : Holds h b c) {source : Option Bytes} {size : Nat}
    (hreadable : ∀ bytes, source = some bytes → size ≤ bytes.length) :
    Meets (bufferBuild (some b) source size) h (Does view h b c (wantedBuild source size)) := by
  simp only [bufferBuild, wantedBuild]
  split
  case isTrue =>
    apply Meets.bind
    apply meets_freeBuffer hb
    intro h' hh
    exact meets_pure (.done rfl hh ⟨rfl, rfl⟩)
  case isFalse =>
    cases source with
    | none => exact meets_pure (.rejected failure_ne_zero hb rfl)
    | some source =>
      have hsource := hreadable source rfl
      obtain ⟨spare, hblock, -⟩ := hb.block
      apply Meets.bind
      apply meets_reallocBlock hblock
      · intro p h' _ hh hp
        rw [if_neg (Heap.ne_none_of_cell hp)]
        apply Meets.bind
        apply meets_copyIn hp hsource (by simp)
        intro h'' hh' hp'
        apply meets_pure
        apply Does.done rfl (hh.trans hh')
        apply holds_some 0 _ (length_source hsource).symm
        rw [hp', overwritten_all (by rw [length_resized, length_source hsource])]
        simp
      · intro _
        exact meets_pure (.refused failure_ne_zero hb)

theorem bufferAppendBuild_does (hb : Holds h b c) {source : Option Bytes} {size : Nat}
    (hreadable : ∀ bytes, source = some bytes → size ≤ bytes.length) :
    Meets (bufferAppendBuild (some b) source size) h (Does view h b c (wantedAppendBuild c source size))
    := by
  cases source with
  | none =>
    apply meets_pure
    apply Does.rejected failure_ne_zero hb
    simp [wantedAppendBuild]
  | some source =>
    have hsource := hreadable source rfl
    simp only [bufferAppendBuild, wantedAppendBuild]
    split
    case isTrue => exact meets_pure (.rejected failure_ne_zero hb rfl)
    case isFalse =>
      split
      case isTrue hnull =>
        obtain rfl := hb.null_iff.mp hnull
        rw [if_neg (by simp)]
        apply Meets.bind
        apply meets_bufferSafemalloc
        · intro p h' spare hh hp
          apply Meets.bind
          apply meets_copyIn hp hsource (by simp)
          intro h'' hh' hp'
          apply meets_pure
          apply Does.done rfl
          · change Replaces h h'' b.buffer p
            rw [hnull]
            exact hh.trans hh'
          · apply holds_some spare _ (by simp [hsource])
            rw [hp', overwritten_start (length_source hsource)]
            simp
        · apply meets_pure
          rw [show { b with buffer := none } = b by cases b; cases hnull; rfl]
          exact .refused failure_ne_zero hb
      case isFalse hnull =>
        have hsome : c ≠ none := fun hnone => hnull (hb.null_iff.mpr hnone)
        obtain ⟨spare, hblock, hsize⟩ := hb.block
        rw [hsize]
        split
        case isTrue hmax =>
          apply meets_pure
          apply Does.rejected failure_ne_zero hb
          rw [if_pos ⟨hsome, safeAddSizeT_eq_max.mp hmax⟩]
        case isFalse hmax =>
          have hlt := Nat.lt_of_not_le (mt safeAddSizeT_eq_max.mpr hmax)
          rw [if_neg (fun h => Nat.not_le_of_lt hlt h.2), safeAddSizeT_of_lt hlt]
          apply Meets.bind
          apply meets_reallocBlock hblock
          · intro p h' _ hh hp
            rw [if_neg (Heap.ne_none_of_cell hp)]
            rw [resized_append] at hp
            apply Meets.bind
            apply meets_copyIn hp hsource (by simp)
            intro h'' hh' hp'
            apply meets_pure
            apply Does.done rfl (hh.trans hh')
            apply holds_some 0
            · rw [hp', overwritten_rest (by simp [hsource]), List.take_left' rfl]
              simp
            · rw [addSizeT_of_le (Nat.le_of_lt hlt), List.length_append, length_source hsource]
          · intro _
            exact meets_pure (.refused failure_ne_zero hb)

theorem bufferPreBuild_does (hb : Holds h b c) (size : Nat) :
    Meets (bufferPreBuild (some b) size) h (Does view h b c (wantedPreBuild c size)) := by
  simp only [bufferPreBuild, wantedPreBuild]
  split
  case isTrue hzero => exact meets_pure (.rejected failure_ne_zero hb (if_pos (.inl hzero)))
  case isFalse hzero =>
    split
    case isTrue hnull =>
      exact meets_pure (.rejected failure_ne_zero hb (if_pos (.inr (mt hb.null_iff.mpr hnull))))
    case isFalse hnull =>
      rw [ne_eq, not_not] at hnull
      obtain rfl := hb.null_iff.mp hnull
      rw [if_neg (by simp [hzero])]
      apply Meets.bind
      apply meets_mallocBlock
      · intro p h' _ hh hp
        rw [if_neg (Heap.ne_none_of_cell hp)]
        apply meets_pure
        apply Does.done rfl
        · change Replaces h h' b.buffer p
          rw [hnull]
          exact hh
        · exact holds_some 0 (by rw [hp]; simp) (by simp)
      · intro _
        apply meets_pure
        rw [show { b with buffer := none } = b by cases b; cases hnull; rfl]
        exact .refused failure_ne_zero hb

theorem bufferUnbuild_does (hb : Holds h b c) :
    Meets (bufferUnbuild (some b)) h (Does view h b c (wantedUnbuild c)) := by
  simp only [bufferUnbuild, wantedUnbuild]
  split
  case isTrue hnull =>
    cases c with
    | none => exact absurd (hb.null_iff.mpr rfl) hnull
    | some bytes =>
      apply Meets.bind
      apply meets_freeBuffer hb
      intro h' hh
      exact meets_pure (.done rfl hh ⟨rfl, rfl⟩)
  case isFalse hnull =>
    rw [ne_eq, not_not] at hnull
    obtain rfl := hb.null_iff.mp hnull
    exact meets_pure (.rejected failure_ne_zero hb rfl)

theorem bufferEnlarge_does (hb : Holds h b c) (enlargeSize : Nat) :
    Meets (bufferEnlarge (some b) enlargeSize) h (Does view h b c (wantedEnlarge c enlargeSize)) := by
  obtain ⟨spare, hblock, hsize⟩ := hb.block
  simp only [bufferEnlarge, wantedEnlarge]
  split
  case isTrue hzero => exact meets_pure (.rejected failure_ne_zero hb (if_pos (.inl hzero)))
  case isFalse hzero =>
    rw [hsize]
    split
    case isTrue hmax =>
      exact meets_pure (.rejected failure_ne_zero hb (if_pos (.inr (safeAddSizeT_eq_max.mp hmax))))
    case isFalse hmax =>
      have hlt := Nat.lt_of_not_le (mt safeAddSizeT_eq_max.mpr hmax)
      rw [if_neg (by omega), safeAddSizeT_of_lt hlt]
      apply Meets.bind
      apply meets_reallocBlock hblock
      · intro p h' _ hh hp
        rw [if_neg (Heap.ne_none_of_cell hp)]
        rw [resized_append] at hp
        apply meets_pure
        apply Does.done rfl hh
        apply holds_some 0
        · rw [hp]
          simp
        · rw [addSizeT_of_le (Nat.le_of_lt hlt), List.length_append, length_unwritten]
      · intro _
        exact meets_pure (.refused failure_ne_zero hb)

/-- The part of a block that is kept is copied to a new one, and the old one is freed. -/
theorem shrinkTo_does {h₁ : BufferHeap} {bytes : Region UInt8} {tmp : Ptr} {start allocSize : Nat}
    (hb : Holds h b (some bytes)) (hh : Replaces h h₁ none tmp)
    (htmp : h₁.cell tmp = some (unwritten allocSize)) (hfit : start + allocSize ≤ bytes.length)
    (hwanted : wanted = some (some ((bytes.drop start).take allocSize))) :
    Meets (do
      memcpy tmp 0 b.buffer start allocSize
      free b.buffer
      pure (0, some { b with buffer := tmp, size := allocSize })) h₁
      (Does view h b (some bytes) wanted) := by
  obtain ⟨⟨spare, hcell⟩, -⟩ := hb
  have hbuffer := Heap.ne_none_of_cell hcell
  have hne := hh.place_ne (Heap.ne_none_of_cell htmp) hcell hbuffer
  have hcell₁ := hh.others _ _ hbuffer hcell
  apply Meets.bind
  apply meets_memcpy hne htmp hcell₁ (by simp) (by rw [List.length_append]; omega)
  intro h₂ hh₂ htmp₂
  apply Meets.bind
  apply meets_freeBlock (.inr (hh₂.others _ _ hne.symm hcell₁))
  intro h₃ hh₃
  apply meets_pure
  apply Does.done hwanted ((hh.trans hh₂).exchange hh₃)
  have hlength : ((bytes.drop start).take allocSize).length = allocSize := by
    rw [List.length_take, List.length_drop]
    omega
  apply holds_some 0 _ hlength.symm
  rw [hh₃.others _ _ hne htmp₂, List.drop_append_of_le_length (by omega),
    List.take_append_of_le_length (by rw [List.length_drop]; omega),
    overwritten_all (by rw [length_unwritten, hlength])]
  simp

theorem bufferShrink_does (hb : Holds h b c) (decreaseSize : Nat) (fromEnd : Bool) :
    Meets (bufferShrink (some b) decreaseSize fromEnd) h
      (Does view h b c (wantedShrink c decreaseSize fromEnd)) := by
  obtain ⟨_, _, hsize⟩ := hb.block
  simp only [bufferShrink, wantedShrink, hsize]
  split
  case isTrue hzero => exact meets_pure (.rejected failure_ne_zero hb (if_pos (.inl hzero)))
  case isFalse hzero =>
    split
    case isTrue hgt => exact meets_pure (.rejected failure_ne_zero hb (if_pos (.inr hgt)))
    case isFalse hle =>
      rw [if_neg (not_or.mpr ⟨hzero, hle⟩)]
      by_cases hall : c.bytes.length - decreaseSize = 0
      · rw [if_pos hall, if_pos (by omega)]
        apply Meets.bind
        apply meets_freeBuffer hb
        intro h' hh
        exact meets_pure (.done rfl hh ⟨rfl, rfl⟩)
      · rw [if_neg hall, if_neg (by omega)]
        cases c with
        | none => exact absurd (Nat.zero_sub decreaseSize) hall
        | some bytes =>
          simp only [Content.bytes, Option.getD_some] at hle hsize ⊢
          apply Meets.bind
          apply meets_mallocBlock
          · intro tmp h₁ _ hh htmp
            rw [if_neg (Heap.ne_none_of_cell htmp)]
            cases fromEnd with
            | true =>
              apply shrinkTo_does hb hh htmp (by omega)
              rw [List.drop_zero]
              rfl
            | false =>
              apply shrinkTo_does hb hh htmp (by omega)
              rw [← List.length_drop, List.take_length]
              rfl
          · intro _
            exact meets_pure (.refused failure_ne_zero hb)

end

/-! ## Functions on two buffers -/

section

variable {h : BufferHeap} {b1 b2 : Buffer} {c1 c2 : Content}

/-- Both buffers have a block, the second is not empty, and the joined size is not too large. -/
theorem join_does (hb1 : Holds h b1 c1) (hb2 : Holds h b2 c2) {spare mallocSize : Nat}
    {joined : Region UInt8} {join : BufferM (Int × Option Buffer)}
    (hmax : mallocSize = sizeMax ↔ sizeMax ≤ c1.bytes.length + c2.bytes.length + spare)
    (hjoin : b1.buffer ≠ none → b2.buffer ≠ none → c1.bytes.length + c2.bytes.length + spare < sizeMax →
      Meets join h (Does view h b1 c1 (some (some joined)))) :
    Meets (if b1.buffer = none then pure (failure, some b1)
      else if b2.buffer = none then pure (failure, some b1)
      else if b2.size = 0 then pure (0, some b1)
      else if mallocSize = sizeMax then pure (failure, some b1)
      else join) h (Does view h b1 c1 (wantedJoin c1 c2 spare joined)) := by
  unfold wantedJoin
  split
  case isTrue hnull => exact meets_pure (.rejected failure_ne_zero hb1 (if_pos (.inl (hb1.null_iff.mp hnull))))
  case isFalse hnull1 =>
    split
    case isTrue hnull => exact meets_pure (.rejected failure_ne_zero hb1 (if_pos (.inr (hb2.null_iff.mp hnull))))
    case isFalse hnull2 =>
      rw [if_neg (not_or.mpr ⟨mt hb1.null_iff.mpr hnull1, mt hb2.null_iff.mpr hnull2⟩)]
      obtain ⟨spare2, -, hsize2⟩ := hb2.block
      rw [hsize2]
      by_cases hempty : c2.bytes = []
      · rw [if_pos (by rw [hempty]; rfl), if_pos hempty]
        exact meets_pure (.done rfl (Replaces.refl h _) hb1)
      · rw [if_neg (mt List.eq_nil_of_length_eq_zero hempty), if_neg hempty]
        split
        case isTrue hfull => exact meets_pure (.rejected failure_ne_zero hb1 (if_pos (hmax.mp hfull)))
        case isFalse hroom =>
          have hlt := Nat.lt_of_not_le (mt hmax.mpr hroom)
          rw [if_neg (Nat.not_le_of_lt hlt)]
          exact hjoin hnull1 hnull2 hlt

theorem bufferAppend_does (hb1 : Holds h b1 c1) (hb2 : Holds h b2 c2)
    (hapart : b2.buffer ≠ none → b2.buffer ≠ b1.buffer) :
    Meets (bufferAppend (some b1) (some b2) false) h (Does view h b1 c1 (wantedAppend c1 c2)) := by
  obtain ⟨spare1, hblock1, hsize1⟩ := hb1.block
  obtain ⟨spare2, hblock2, hsize2⟩ := hb2.block
  simp only [bufferAppend, wantedAppend, Bool.false_eq_true, if_false]
  apply join_does hb1 hb2
  case hmax =>
    rw [hsize1, hsize2]
    exact safeAddSizeT_eq_max
  case hjoin =>
    intro _ hnull2 hlt
    rw [Nat.add_zero] at hlt
    have hcell2 := hblock2.resolve_left fun hnone => hnull2 hnone.1
    rw [hsize1, hsize2, safeAddSizeT_of_lt hlt]
    apply Meets.bind
    apply meets_reallocBlock hblock1
    · intro temp h₁ _ hh htemp
      have hne := Heap.ne_none_of_cell htemp
      rw [if_neg hne]
      rw [resized_append] at htemp
      have hcell₁ := hh.others _ _ (hapart hnull2) hcell2
      apply Meets.bind
      apply meets_memcpy (hh.place_ne hne hcell2 (hapart hnull2)) htemp hcell₁ (by simp)
        (by simp)
      intro h₂ hh₂ htemp₂
      apply meets_pure
      apply Does.done rfl (hh.trans hh₂)
      apply holds_some 0
      · rw [htemp₂, List.drop_zero, List.take_left' rfl, overwritten_rest (by simp),
          List.take_left' rfl]
        simp
      · rw [addSizeT_of_le (Nat.le_of_lt hlt), List.length_append]
    · intro _
      exact meets_pure (.refused failure_ne_zero hb1)

theorem bufferPrepend_does (hb1 : Holds h b1 c1) (hb2 : Holds h b2 c2) :
    Meets (bufferPrepend (some b1) (some b2) false) h (Does view h b1 c1 (wantedPrepend c1 c2)) := by
  obtain ⟨spare1, hblock1, hsize1⟩ := hb1.block
  obtain ⟨spare2, hblock2, hsize2⟩ := hb2.block
  simp only [bufferPrepend, wantedPrepend, Bool.false_eq_true, if_false]
  apply join_does hb1 hb2
  case hmax =>
    rw [hsize1, hsize2]
    exact safeAddSizeT_twice_eq_max
  case hjoin =>
    intro hnull1 hnull2 hlt
    have hcell1 := hblock1.resolve_left fun hnone => hnull1 hnone.1
    have hcell2 := hblock2.resolve_left fun hnone => hnull2 hnone.1
    have hsum : c1.bytes.length + c2.bytes.length < sizeMax := by omega
    rw [hsize1, hsize2, safeAddSizeT_of_lt hsum, safeAddSizeT_of_lt hlt]
    apply Meets.bind
    apply meets_mallocBlock
    · intro temp h₁ _ hh htemp
      have hne := Heap.ne_none_of_cell htemp
      rw [if_neg hne]
      have htemp1 := hh.place_ne hne hcell1 hnull1
      have htemp2 := hh.place_ne hne hcell2 hnull2
      have hcell1₁ := hh.others _ _ hnull1 hcell1
      have hcell2₁ := hh.others _ _ hnull2 hcell2
      apply Meets.bind
      apply meets_memcpy htemp2 htemp hcell2₁ (by rw [length_unwritten]; omega) (by simp)
      intro h₂ hh₂ htemp₂
      rw [List.drop_zero, List.take_left' rfl,
        Nat.add_comm c1.bytes.length, Nat.add_assoc, overwritten_start rfl] at htemp₂
      have hcell1₂ := hh₂.others _ _ htemp1.symm hcell1₁
      apply Meets.bind
      apply meets_memcpy htemp1 htemp₂ hcell1₂ (by simp) (by simp)
      intro h₃ hh₃ htemp₃
      rw [List.drop_zero, List.take_left' rfl, overwritten_append _ rfl] at htemp₃
      apply Meets.bind
      apply meets_freeBlock (.inr (hh₃.others _ _ htemp1.symm hcell1₂))
      intro h₄ hh₄
      apply meets_pure
      apply Does.done rfl (((hh.trans hh₂).trans hh₃).exchange hh₄)
      apply holds_some 1 (hh₄.others _ _ htemp1 htemp₃)
      rw [addSizeT_of_le (Nat.le_of_lt hsum), List.length_append, Nat.add_comm]
    · intro _
      exact meets_pure (.refused failure_ne_zero hb1)

end

/-! ## Functions that make a buffer -/

section

variable {h : BufferHeap} {b : Buffer} {c : Content}

theorem bufferNew_creates (h : BufferHeap) :
    Meets bufferNew h (Creates view h (some none)) := by
  apply Meets.bind
  apply meets_allocate
  · exact meets_pure (.new rfl (replaces_allocated h none) ⟨rfl, rfl⟩)
  · exact meets_pure .refused

theorem bufferCreate_creates (h : BufferHeap) {source : Option Bytes} {size : Nat}
    (hreadable : ∀ bytes, source = some bytes → size ≤ bytes.length) :
    Meets (bufferCreate source size) h (Creates view h (wantedCreate source size)) := by
  cases source with
  | none => exact meets_pure (.null (.inl rfl) (Replaces.refl h none))
  | some source =>
    have hsource := hreadable source rfl
    apply Meets.bind
    apply meets_allocate
    · apply Meets.bind
      apply meets_bufferSafemalloc
      · intro p h₁ spare hh hp
        apply Meets.bind
        apply meets_copyIn hp hsource (by simp)
        intro h₂ hh₂ hp₂
        apply meets_pure
        apply Creates.new rfl (((replaces_allocated h none).trans hh).trans hh₂)
        apply holds_some spare _ (length_source hsource).symm
        rw [hp₂, overwritten_start (length_source hsource)]
      · exact meets_pure .refused_second
    · exact meets_pure .refused

theorem bufferClone_creates (hb : Holds h b c) :
    Meets (bufferClone (some b)) h (Creates view h (some (some c.bytes))) := by
  obtain ⟨spare', hblock, hsize⟩ := hb.block
  simp only [bufferClone, hsize]
  apply Meets.bind
  apply meets_allocate
  · apply Meets.bind
    apply meets_bufferSafemalloc
    · intro p h₁ spare hh hp
      have hh₁ := (replaces_allocated h none).trans hh
      have hcopied : Meets (memcpy p 0 b.buffer 0 c.bytes.length) h₁ fun _ h₂ =>
          Replaces h₁ h₂ p p ∧ h₂.cell p = some (c.bytes ++ unwritten spare) := by
        rcases hblock with ⟨_, hempty⟩ | hcell
        · rw [List.append_eq_nil_iff.mp hempty |>.1] at hp ⊢
          refine meets_pure ⟨Replaces.refl h₁ p, ?_⟩
          simpa using hp
        · have hbuffer := Heap.ne_none_of_cell hcell
          apply meets_memcpy (hh₁.place_ne (Heap.ne_none_of_cell hp) hcell hbuffer) hp
            (hh₁.others _ _ hbuffer hcell) (by simp) (by simp)
          intro h₂ hh₂ hp₂
          rw [List.drop_zero, List.take_left' rfl, overwritten_start rfl] at hp₂
          exact ⟨hh₂, hp₂⟩
      apply Meets.bind
      apply hcopied.mono
      rintro _ h₂ ⟨hh₂, hp₂⟩
      exact meets_pure (.new rfl (hh₁.trans hh₂) (holds_some spare hp₂ rfl))
    · exact meets_pure .refused_second
  · exact meets_pure .refused

end

/-! ## Programs -/

section

variable {h : BufferHeap} {pool : List Buffer} {contents : List Content} {i j : Nat}

theorem onBuffer_meets {c : Call} {i : Nat} {m : BufferM (Int × Option Buffer)}
    (hperform : perform c pool = onBuffer pool i m)
    (htells : ∀ code contents' h', (Answer.result code).Tells contents' h' c)
    (hsettled : Meets (onOne pool i m) h fun r h' =>
      Settled view (c.wanted contents) contents h (r.1 == 0) r.2 h') :
    Meets (perform c pool) h fun r h' => ∃ contents', Represents view h' r.2 contents' ∧
      Agrees c contents h r.1 contents' h' := by
  rw [hperform]
  apply Meets.bind
  apply hsettled.mono
  rintro ⟨code, pool'⟩ h' ⟨contents', hr', hsettles⟩
  exact meets_pure ⟨contents', hr', hsettles, htells code contents' h'⟩

theorem newBuffer_meets (hr : Represents view h pool contents) {c : Call}
    {m : BufferM (Option Buffer)} {wanted : Option Content}
    (hperform : perform c pool = newBuffer pool m)
    (hwanted : c.wanted contents = wanted.map fun c => contents ++ [c])
    (htells : ∀ contents' h', (Answer.handle none).Tells contents' h' c ∧
      ∀ k, k + 1 = contents'.length → (Answer.handle (some k)).Tells contents' h' c)
    (hcreates : Meets m h (Creates view h wanted)) :
    Meets (perform c pool) h fun r h' => ∃ contents', Represents view h' r.2 contents' ∧
      Agrees c contents h r.1 contents' h' := by
  rw [hperform]
  unfold Agrees
  rw [hwanted]
  apply Meets.bind
  apply (makeOne_meets hr hcreates).mono
  rintro ⟨place, pool'⟩ h' ⟨⟨contents', hr', hsettles⟩, hplace⟩
  refine meets_pure ⟨contents', hr', hsettles, ?_⟩
  cases place with
  | none => exact (htells _ _).1
  | some k =>
    apply (htells _ _).2
    rw [← hr'.length]
    exact hplace k rfl

theorem perform_meets (hr : Represents view h pool contents) (c : Call) (hreadable : c.Readable) :
    Meets (perform c pool) h fun r h' => ∃ contents', Represents view h' r.2 contents' ∧
      Agrees c contents h r.1 contents' h' := by
  cases c with
  | bufferNew =>
    exact newBuffer_meets hr rfl rfl (fun _ _ => ⟨trivial, fun _ hk => hk⟩) (bufferNew_creates h)
  | bufferCreate source size =>
    exact newBuffer_meets hr rfl rfl (fun _ _ => ⟨trivial, fun _ hk => hk⟩)
      (bufferCreate_creates h hreadable)
  | bufferBuild i source size =>
    refine onBuffer_meets rfl (fun _ _ _ => trivial) ?_
    exact onOne_meets hr (Buffer.bufferBuild · source size) _ failure_ne_zero rfl
      fun b c _ _ hb => bufferBuild_does hb hreadable
  | bufferAppendBuild i source size =>
    refine onBuffer_meets rfl (fun _ _ _ => trivial) ?_
    exact onOne_meets hr (Buffer.bufferAppendBuild · source size) _ failure_ne_zero rfl
      fun b c _ _ hb => bufferAppendBuild_does hb hreadable
  | bufferPreBuild i size =>
    refine onBuffer_meets rfl (fun _ _ _ => trivial) ?_
    exact onOne_meets hr (Buffer.bufferPreBuild · size) _ failure_ne_zero rfl
      fun b c _ _ hb => bufferPreBuild_does hb size
  | bufferUnbuild i =>
    refine onBuffer_meets rfl (fun _ _ _ => trivial) ?_
    exact onOne_meets hr Buffer.bufferUnbuild _ failure_ne_zero rfl
      fun b c _ _ hb => bufferUnbuild_does hb
  | bufferEnlarge i enlargeSize =>
    refine onBuffer_meets rfl (fun _ _ _ => trivial) ?_
    exact onOne_meets hr (Buffer.bufferEnlarge · enlargeSize) _ failure_ne_zero rfl
      fun b c _ _ hb => bufferEnlarge_does hb enlargeSize
  | bufferShrink i decreaseSize fromEnd =>
    refine onBuffer_meets rfl (fun _ _ _ => trivial) ?_
    exact onOne_meets hr (Buffer.bufferShrink · decreaseSize fromEnd) _ failure_ne_zero rfl
      fun b c _ _ hb => bufferShrink_does hb decreaseSize fromEnd
  | bufferAppend i j =>
    refine onBuffer_meets rfl (fun _ _ _ => trivial) ?_
    apply onTwo_meets hr (Buffer.bufferAppend · · (i == j)) _ failure_ne_zero (fun _ => rfl)
      (fun _ => rfl)
    intro b1 b2 c1 c2 hget1 hget2 _ _ hb1 hb2
    by_cases hij : i = j
    · rw [if_pos hij, beq_iff_eq.mpr hij]
      exact meets_pure (.rejected failure_ne_zero hb1 rfl)
    · rw [if_neg hij, beq_eq_false_iff_ne.mpr hij]
      exact bufferAppend_does hb1 hb2 (hr.apart j i b2 b1 (Ne.symm hij) hget2 hget1)
  | bufferPrepend i j =>
    refine onBuffer_meets rfl (fun _ _ _ => trivial) ?_
    apply onTwo_meets hr (Buffer.bufferPrepend · · (i == j)) _ failure_ne_zero (fun _ => rfl)
      (fun _ => rfl)
    intro b1 b2 c1 c2 _ _ _ _ hb1 hb2
    by_cases hij : i = j
    · rw [if_pos hij, beq_iff_eq.mpr hij]
      exact meets_pure (.rejected failure_ne_zero hb1 rfl)
    · rw [if_neg hij, beq_eq_false_iff_ne.mpr hij]
      exact bufferPrepend_does hb1 hb2
  | bufferContent i content =>
    apply meets_pure
    refine ⟨contents, hr, ?_⟩
    cases hb : pool[i]? with
    | none =>
      refine ⟨.failed (.inl ?_), failure_ne_zero⟩
      simp [Call.wanted, onContent, hr.get_none hb]
    | some b =>
      obtain ⟨c, hc, hholds⟩ := hr.get hb
      cases content with
      | false => exact ⟨.failed (.inl rfl), failure_ne_zero⟩
      | true =>
        refine ⟨.done (onContent_same hc), c, hc, fun hnone => hholds.null_iff.mpr hnone, ?_⟩
        rintro bytes rfl
        obtain ⟨⟨spare, hcell⟩, -⟩ := hholds
        exact ⟨_, hcell, List.prefix_append _ _⟩
  | bufferSize i size =>
    apply meets_pure
    refine ⟨contents, hr, ?_⟩
    cases hb : pool[i]? with
    | none =>
      refine ⟨.failed (.inl ?_), failure_ne_zero⟩
      simp [Call.wanted, onContent, hr.get_none hb]
    | some b =>
      obtain ⟨c, hc, hholds⟩ := hr.get hb
      cases size with
      | false => exact ⟨.failed (.inl rfl), failure_ne_zero⟩
      | true =>
        obtain ⟨_, _, hsize⟩ := hholds.block
        exact ⟨.done (onContent_same hc), c, hc, hsize⟩
  | bufferClone i =>
    have hwanted : (Call.bufferClone i).wanted contents =
        (contents[i]?.map fun c => some c.bytes).map fun c => contents ++ [c] := by
      rw [Option.map_map]
      rfl
    apply newBuffer_meets hr rfl hwanted (fun _ _ => ⟨trivial, fun _ hk => hk⟩)
    cases hb : pool[i]? with
    | none =>
      rw [hr.get_none hb]
      exact meets_pure (.null (.inl rfl) (Replaces.refl h none))
    | some b =>
      obtain ⟨c, hc, hholds⟩ := hr.get hb
      rw [hc]
      exact bufferClone_creates hholds

end

/-- Whichever allocations fail, buffers are lists of bytes: every call of a run is defined, does what is
wanted of it or reports a failure and changes nothing, and the blocks hold what has been wanted. -/
theorem buffer_refines_bytes (outcomes : List Bool) (calls : List Call) :
    Refines view perform (fun c _ _ => c.Readable) Agrees { outcomes := outcomes } [] [] calls :=
  refines_of_step view perform _ Agrees
    (fun _ _ _ c hr hreadable => perform_meets hr c hreadable) (Represents.nil view _) calls

end SharedUtility.Buffer
