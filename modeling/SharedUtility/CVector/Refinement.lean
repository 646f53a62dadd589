import SharedUtility.CVector.Code

/-!
# CVector.Refinement — a vector is a list of elements

* `Represents` — the storage starts with the elements, and lies in the address space,
* `effect` — what a call does to the list; `perform_refines` — that the code does it,
* `Safe` — the arguments for which it does: `VECTOR_erase` must not be asked for so many elements that the
  address behind them wraps around into the vector, nor `VECTOR_push_back` for more than the address space holds,
* `Agrees`, `RunRefines`, `vector_refines`: in every run of safe calls,
* `vectorErase_refines_iff`: elsewhere `VECTOR_erase` does not.
-/

namespace SharedUtility.CVector

/-! ## The list of a vector -/

structure Represents (handle : VectorTag) (elements : List Bytes) : Prop where
  count_eq : handle.count = elements.length
  elementSize_pos : 0 < handle.elementSize
  allOfSize : AllOfSize handle.elementSize elements
  storage_none : handle.storage = none ↔ elements = []
  stored : elements.flatten <+: handle.bytes
  inSpace : handle.address + handle.bytes.length ≤ sizeMax
  address_pos : handle.storage ≠ none → 0 < handle.address

/-- The index of the element that a pointer points to. -/
def indexOf (handle : VectorTag) (pointer : Nat) : Option Nat :=
  if handle.address ≤ pointer ∧ (pointer - handle.address) % handle.elementSize = 0 ∧
      (pointer - handle.address) / handle.elementSize < handle.count then
    some ((pointer - handle.address) / handle.elementSize)
  else none

/-- What a call does to the list, with the code that it returns. -/
def effect (handle : VectorTag) (op : Operation) (result : Int) (elements : List Bytes) : List Bytes :=
  match op with
  | .pushBack (some (.outside readable)) numElements _ =>
    if result = 0 then elements ++ parts handle.elementSize numElements readable else elements
  | .pushBack _ _ _ => elements
  | .erase pointer numElements _ =>
    match indexOf handle pointer with
    | some i => removeAt i numElements elements
    | none => elements
  | .clear => []
  | .moveFrom allocated => if allocated then [] else elements
  | .moveTo => elements

/-- The check of `VECTOR_erase` finds that the elements are out of bounds. -/
def Refused (handle : VectorTag) (pointer numElements : Nat) : Prop :=
  pointer = 0 ∨ numElements = 0 ∨ pointer < handle.address ∨
    (pointer - handle.address) % handle.elementSize ≠ 0 ∨
    handle.address + handle.elementSize * handle.count <
      addSizeT pointer (mulSizeT handle.elementSize numElements)

/-- The elements that are appended are outside of the vector, and all of them fit into the address space; those
that are erased are elements of the vector, or the check finds that they are not. -/
def Safe (handle : VectorTag) (op : Operation) : Prop :=
  match op with
  | .pushBack (some source) numElements _ => numElements ≠ 0 →
      ∃ readable, source = .outside readable ∧ handle.elementSize * numElements ≤ readable.length ∧
        handle.elementSize * (handle.count + numElements) ≤ sizeMax
  | .erase pointer numElements _ =>
    (∃ i, indexOf handle pointer = some i ∧ i + numElements ≤ handle.count) ∨
      Refused handle pointer numElements
  | _ => True

/-! ## Memory -/

section

variable {bytes front new : Bytes} {size offset : Nat} {place : Option Place} {storage : Storage}

theorem length_resized (bytes : Bytes) (size : Nat) (fresh : Nat → UInt8) :
    (resized bytes size fresh).length = size := by
  rw [resized, List.length_append, List.length_take, List.length_map, List.length_range]
  omega

/-- What `realloc` returns: a block of that size in the address space, with the bytes that fit. -/
theorem realloc_some (h : realloc bytes size place = some storage) :
    0 < storage.address ∧ storage.address + size ≤ sizeMax ∧ storage.bytes.length = size ∧
      ∀ {front : Bytes}, front <+: bytes → front.length ≤ size → front <+: storage.bytes := by
  cases place with
  | none => cases h
  | some place =>
    rw [realloc, Option.bind_some] at h
    split_ifs at h with hspace
    cases h
    refine ⟨hspace.1, hspace.2, length_resized _ _ _, fun hfront hle => ?_⟩
    exact (List.prefix_take_iff.2 ⟨hfront, hle⟩).trans (List.prefix_append _ _)

theorem writeAt_eq (h : offset + new.length ≤ bytes.length) :
    writeAt bytes offset new = some (bytes.take offset ++ new ++ bytes.drop (offset + new.length)) :=
  if_pos h

theorem length_written (h : offset + new.length ≤ bytes.length) :
    (bytes.take offset ++ new ++ bytes.drop (offset + new.length)).length = bytes.length := by
  have hoffset : min offset bytes.length = offset := Nat.min_eq_left (Nat.le_trans (Nat.le_add_right _ _) h)
  rw [List.length_append, List.length_append, List.length_take, List.length_drop, hoffset]
  exact Nat.add_sub_cancel' h

end

/-! ## Sizes -/

namespace Represents

variable {handle : VectorTag} {elements : List Bytes} {i : Nat}

theorem length_flatten (h : Represents handle elements) :
    elements.flatten.length = handle.elementSize * handle.count := by
  rw [h.count_eq]
  exact h.allOfSize.length_flatten

theorem size_le (h : Represents handle elements) :
    handle.address + handle.elementSize * handle.count ≤ sizeMax := by
  have hle := h.stored.length_le
  have hspace := h.inSpace
  rw [h.length_flatten] at hle
  omega

theorem count_le (h : Represents handle elements) : handle.count ≤ sizeMax := by
  have hle := h.size_le
  have hmul := Nat.le_mul_of_pos_left handle.count h.elementSize_pos
  omega

/-- The address of an element, and the one behind the last one, are computed without wrapping around. -/
theorem address_eq (h : Represents handle elements) (hi : i ≤ handle.count) :
    addSizeT handle.address (mulSizeT handle.elementSize i) = handle.address + handle.elementSize * i := by
  have hle := h.size_le
  have hoffset := Nat.mul_le_mul_left handle.elementSize hi
  rw [mulSizeT_of_le (by omega), addSizeT_of_le (by omega)]

theorem storage_ne (h : Represents handle elements) (hpos : 0 < handle.count) : handle.storage ≠ none := by
  intro hnone
  have hcount := h.count_eq
  rw [h.storage_none.1 hnone] at hcount
  exact Nat.ne_of_gt hpos hcount

theorem elementAt_eq (h : Represents handle elements) (hi : i < elements.length) :
    handle.elementAt (handle.address + handle.elementSize * i) = elements[i] := by
  obtain ⟨rest, hbytes⟩ := h.stored
  have hpart := part_at h.allOfSize hi
  have hflat := h.allOfSize.length_flatten
  have hle : handle.elementSize * i + handle.elementSize ≤ elements.flatten.length := by
    rw [hflat, ← Nat.mul_succ]
    exact Nat.mul_le_mul_left _ hi
  rw [VectorTag.elementAt, Nat.add_sub_cancel_left, ← hbytes, List.drop_append_of_le_length (by omega),
    List.take_append_of_le_length (by rw [List.length_drop]; omega)]
  exact hpart

theorem vectorElement_eq (h : Represents handle elements) (hi : i < handle.count) :
    vectorElement handle i = handle.address + handle.elementSize * i := by
  rw [vectorElement, if_neg (Nat.not_le.2 hi)]
  exact h.address_eq (Nat.le_of_lt hi)

theorem of_indexOf {pointer : Nat} (h : indexOf handle pointer = some i) :
    pointer = handle.address + handle.elementSize * i ∧ i < handle.count := by
  rw [indexOf] at h
  split_ifs at h with hinside
  obtain ⟨hle, hmod, hlt⟩ := hinside
  cases h
  have hdiv := Nat.div_add_mod (pointer - handle.address) handle.elementSize
  constructor
  · omega
  · exact hlt

end Represents

/-! ## What the calls do -/

section

variable {handle : VectorTag} {elements : List Bytes}

theorem represents_empty {elementSize : Nat} (hpos : 0 < elementSize) :
    Represents { storage := none, count := 0, elementSize := elementSize } [] where
  count_eq := rfl
  elementSize_pos := hpos
  allOfSize := nofun
  storage_none := iff_of_true rfl rfl
  stored := List.nil_prefix
  inSpace := Nat.zero_le _
  address_pos := fun h => absurd rfl h

theorem vectorPushBack_refines (h : Represents handle elements) {readable : Bytes} {numElements : Nat}
    (hn : numElements ≠ 0) (hreadable : handle.elementSize * numElements ≤ readable.length)
    (hfits : handle.elementSize * (handle.count + numElements) ≤ sizeMax) (place : Option Place) :
    vectorPushBack handle (some (.outside readable)) numElements place = some (failure, handle) ∨
      ∃ handle', vectorPushBack handle (some (.outside readable)) numElements place = some (0, handle') ∧
        Represents handle' (elements ++ parts handle.elementSize numElements readable) := by
  have hsum := Nat.mul_add handle.elementSize handle.count numElements
  have hpos : 0 < handle.elementSize * numElements :=
    Nat.mul_pos h.elementSize_pos (Nat.pos_of_ne_zero hn)
  have hcount : handle.count + numElements ≤ sizeMax :=
    Nat.le_trans (Nat.le_mul_of_pos_left _ h.elementSize_pos) hfits
  rw [vectorPushBack]
  dsimp only
  rw [if_neg hn, mulSizeT_of_le (by omega), mulSizeT_of_le (by omega), addSizeT_of_le (by omega),
    if_neg (by omega)]
  cases hrealloc : realloc handle.bytes
      (handle.elementSize * handle.count + handle.elementSize * numElements) place with
  | none => exact .inl rfl
  | some temp =>
    right
    obtain ⟨haddress, hspace, hlength, hkept⟩ := realloc_some hrealloc
    have hflat := h.length_flatten
    obtain ⟨rest, hbytes⟩ := hkept h.stored (by omega)
    have hnew : (readable.take (handle.elementSize * numElements)).length =
        handle.elementSize * numElements := by
      rw [List.length_take]
      omega
    have hroom : handle.elementSize * handle.count +
        (readable.take (handle.elementSize * numElements)).length ≤ temp.bytes.length := by omega
    dsimp only
    rw [if_pos hreadable, writeAt_eq hroom, Option.map_some]
    refine ⟨_, rfl, ?_⟩
    have hwritten := length_written hroom
    generalize hbytes' : temp.bytes.take (handle.elementSize * handle.count) ++
      readable.take (handle.elementSize * numElements) ++ temp.bytes.drop _ = bytes at hwritten ⊢
    have hstored : (elements ++ parts handle.elementSize numElements readable).flatten = bytes := by
      rw [← hbytes', List.flatten_append, flatten_parts, ← hbytes, ← hflat, List.take_left,
        List.drop_of_length_le (by rw [hbytes]; omega), List.append_nil]
    exact {
      count_eq := by
        rw [List.length_append, length_parts, ← h.count_eq]
        exact addSizeT_of_le hcount
      elementSize_pos := h.elementSize_pos
      allOfSize := allOfSize_append h.allOfSize (allOfSize_parts hreadable)
      storage_none := iff_of_false nofun fun hnil => by
        have hzero := congrArg List.length hnil
        rw [List.length_append, length_parts, List.length_nil] at hzero
        omega
      stored := by
        rw [hstored]
        exact List.prefix_refl bytes
      inSpace := by
        change temp.address + bytes.length ≤ sizeMax
        omega
      address_pos := fun _ => haddress }

theorem vectorErase_removes (h : Represents handle elements) {i numElements : Nat} (hi : i < handle.count)
    (hle : i + numElements ≤ handle.count) (place : Option Place) :
    ∃ handle',
      vectorErase handle (handle.address + handle.elementSize * i) numElements place = some handle' ∧
        Represents handle' (removeAt i numElements elements) ∧ (numElements = 0 → handle' = handle) := by
  have hpos := h.address_pos (h.storage_ne (by omega))
  have hlength : i + numElements ≤ elements.length := by rwa [← h.count_eq]
  rw [vectorErase]
  by_cases hn : numElements = 0
  case pos =>
    rw [if_pos (.inr hn)]
    subst hn
    refine ⟨handle, rfl, ?_, fun _ => rfl⟩
    rw [removeAt, if_pos hlength, Nat.add_zero, List.take_append_drop]
    exact h
  case neg =>
    have hnull : ¬ (handle.address + handle.elementSize * i = 0 ∨ numElements = 0) := by omega
    have hmul := Nat.mul_add handle.elementSize i numElements
    have hbehind := Nat.mul_le_mul_left handle.elementSize hle
    have hend := h.size_le
    have hsrc : addSizeT (handle.address + handle.elementSize * i)
        (mulSizeT handle.elementSize numElements) =
          handle.address + handle.elementSize * (i + numElements) := by
      rw [mulSizeT_of_le (by omega), addSizeT_of_le (by omega)]
      omega
    dsimp only
    rw [if_neg hnull, if_neg (Nat.not_lt.2 (Nat.le_add_right _ _)), Nat.add_sub_cancel_left, Nat.mul_mod_right,
      if_neg (fun hne => hne rfl), hsrc, h.address_eq (Nat.le_refl _), if_neg (by omega), eraseAt,
      subSizeT_of_le (by omega) h.count_le]
    by_cases hall : handle.count - numElements = 0
    case pos =>
      rw [if_pos hall]
      refine ⟨_, rfl, ?_, fun hzero => absurd hzero hn⟩
      have hnil : removeAt i numElements elements = [] := by
        refine List.eq_nil_of_length_eq_zero ?_
        rw [length_removeAt hlength, ← h.count_eq]
        exact hall
      rw [hnil]
      exact represents_empty h.elementSize_pos
    case neg =>
      have hflat := h.length_flatten
      obtain ⟨rest, hbytes⟩ := h.stored
      have hblock : handle.elementSize * handle.count ≤ handle.bytes.length := by
        rw [← hflat]
        exact h.stored.length_le
      -- the elements behind them
      have hmoved : (handle.bytes.drop (handle.elementSize * (i + numElements))).take
          (handle.elementSize * handle.count - handle.elementSize * (i + numElements)) =
            elements.flatten.drop (handle.elementSize * (i + numElements)) := by
        rw [← hbytes, List.drop_append_of_le_length (by omega)]
        refine List.take_left' ?_
        rw [List.length_drop, hflat]
      have hremaining := flatten_removeAt h.allOfSize hlength
      have hroom : handle.elementSize * i +
          (elements.flatten.drop (handle.elementSize * (i + numElements))).length ≤ handle.bytes.length := by
        rw [List.length_drop, hflat]
        omega
      rw [if_neg hall, if_neg (by omega), Nat.add_sub_cancel_left, Nat.add_sub_add_left,
        Nat.add_sub_cancel_left, hmoved]
      dsimp only
      rw [writeAt_eq hroom, Option.bind_some]
      have hwritten := length_written hroom
      generalize hnew : handle.bytes.take (handle.elementSize * i) ++
        elements.flatten.drop (handle.elementSize * (i + numElements)) ++ handle.bytes.drop _ = bytes
          at hwritten ⊢
      have hstored : (removeAt i numElements elements).flatten <+: bytes := by
        rw [hremaining, ← hnew, ← hbytes, List.take_append_of_le_length (by omega)]
        exact List.prefix_append _ _
      have hcount : handle.count - numElements = (removeAt i numElements elements).length := by
        rw [length_removeAt hlength, h.count_eq]
      have hsize : handle.elementSize * (handle.count - numElements) =
          (removeAt i numElements elements).flatten.length := by
        rw [(h.allOfSize.removeAt i numElements).length_flatten, hcount]
      have hpositive : 0 < handle.elementSize * (handle.count - numElements) :=
        Nat.mul_pos h.elementSize_pos (Nat.pos_of_ne_zero hall)
      have hspace := h.inSpace
      -- the storage is one that starts with these elements
      have hrepresents : ∀ storage : Storage, 0 < storage.address →
          storage.address + storage.bytes.length ≤ sizeMax →
          (removeAt i numElements elements).flatten <+: storage.bytes →
          Represents { handle with storage := some storage, count := handle.count - numElements }
            (removeAt i numElements elements) := by
        intro storage haddress hroom hfront
        exact {
          count_eq := hcount
          elementSize_pos := h.elementSize_pos
          allOfSize := h.allOfSize.removeAt i numElements
          storage_none := iff_of_false (by rintro ⟨⟩) fun hnil => by
            rw [hnil] at hcount
            exact hall hcount
          stored := hfront
          inSpace := hroom
          address_pos := fun _ => haddress }
      have hshrunk : handle.elementSize * (handle.count - numElements) ≤ handle.elementSize * handle.count :=
        Nat.mul_le_mul_left handle.elementSize (Nat.sub_le _ _)
      rw [mulSizeT_of_le (by omega), if_neg (by omega)]
      cases hrealloc : realloc bytes (handle.elementSize * (handle.count - numElements)) place with
      | none =>
        refine ⟨_, rfl, ?_, fun hzero => absurd hzero hn⟩
        refine hrepresents { address := handle.address, bytes := bytes } hpos ?_ hstored
        change handle.address + bytes.length ≤ sizeMax
        omega
      | some tmp =>
        obtain ⟨haddress, hroom, hsame, hkept⟩ := realloc_some hrealloc
        refine ⟨_, rfl, ?_, fun hzero => absurd hzero hn⟩
        refine hrepresents tmp haddress (by omega) (hkept hstored (by omega))

theorem vectorErase_refused (h : Represents handle elements) {pointer numElements : Nat}
    (hrefused : Refused handle pointer numElements) (place : Option Place) :
    vectorErase handle pointer numElements place = some handle := by
  rw [vectorErase]
  dsimp only
  rw [h.address_eq (Nat.le_refl _)]
  split_ifs with hnull hbelow haligned hbehind
  · rfl
  · rfl
  · rfl
  · rfl
  · rcases hrefused with hzero | hzero | hless | hmod | hsrc
    · exact absurd (.inl hzero) hnull
    · exact absurd (.inr hzero) hnull
    · exact absurd hless hbelow
    · exact absurd hmod haligned
    · exact absurd hsrc hbehind

/-- A safe call does to the list what it should, and where that is nothing, the vector is what it was. -/
theorem perform_refines (h : Represents handle elements) {op : Operation} (hsafe : Safe handle op) :
    ∃ result handle', perform handle op = some (result, handle') ∧
      Represents handle' (effect handle op result elements) ∧
      (effect handle op result elements = elements → handle' = handle) := by
  have hempty : elements = [] → { handle with storage := none, count := 0 } = handle := by
    rintro rfl
    have hnone := h.storage_none.2 rfl
    have hzero := h.count_eq
    rcases handle with ⟨storage, count, elementSize⟩
    cases hnone
    cases hzero
    rfl
  cases op with
  | pushBack source numElements place =>
    cases source with
    | none => exact ⟨failure, handle, rfl, h, fun _ => rfl⟩
    | some source =>
      by_cases hn : numElements = 0
      case pos =>
        refine ⟨failure, handle, ?_, ?_, fun _ => rfl⟩
        · rw [perform, vectorPushBack]
          exact if_pos hn
        · cases source with
          | inside => exact h
          | outside readable => exact h
      case neg =>
        obtain ⟨readable, rfl, hreadable, hfits⟩ := hsafe hn
        rcases vectorPushBack_refines h hn hreadable hfits place with hfail | ⟨handle', hdone, hnew⟩
        · exact ⟨failure, handle, hfail, h, fun _ => rfl⟩
        · refine ⟨0, handle', hdone, hnew, fun hsame => ?_⟩
          have hlength := congrArg List.length hsame
          change (elements ++ parts handle.elementSize numElements readable).length = _ at hlength
          rw [List.length_append, length_parts] at hlength
          omega
  | erase pointer numElements place =>
    by_cases hinside : ∃ i, indexOf handle pointer = some i ∧ i + numElements ≤ handle.count
    case pos =>
      obtain ⟨i, hindex, hle⟩ := hinside
      obtain ⟨rfl, hi⟩ := Represents.of_indexOf hindex
      obtain ⟨handle', herase, hnew, hsame⟩ := vectorErase_removes h hi hle place
      refine ⟨0, handle', by rw [perform, herase]; rfl, ?_, fun heffect => hsame ?_⟩
      · rw [effect, hindex]
        exact hnew
      · rw [effect, hindex] at heffect
        have hlength := congrArg List.length heffect
        dsimp only at hlength
        have hcount := h.count_eq
        rw [length_removeAt (by omega)] at hlength
        omega
    case neg =>
      have hkept : effect handle (.erase pointer numElements place) 0 elements = elements := by
        rw [effect]
        cases hindex : indexOf handle pointer with
        | none => rfl
        | some i =>
          refine if_neg fun hle => hinside ⟨i, hindex, ?_⟩
          rwa [h.count_eq]
      have hrefused := vectorErase_refused h (hsafe.resolve_left hinside) place
      refine ⟨0, handle, by rw [perform, hrefused]; rfl, ?_, fun _ => rfl⟩
      rw [hkept]
      exact h
  | clear => exact ⟨0, _, rfl, represents_empty h.elementSize_pos, fun heffect => hempty heffect.symm⟩
  | moveFrom allocated =>
    cases allocated with
    | false => exact ⟨0, handle, rfl, h, fun _ => rfl⟩
    | true => exact ⟨0, _, rfl, represents_empty h.elementSize_pos, fun heffect => hempty heffect.symm⟩
  | moveTo => exact ⟨0, handle, rfl, h, fun _ => rfl⟩

end

/-! ## What the vector tells of the list -/

/-- The elements are stored in order, no size or address of theirs wraps around, and the functions that read
them agree with the list. -/
structure Agrees (handle : VectorTag) (elements : List Bytes) : Prop where
  size : vectorSize handle = elements.length
  inOrder : ∀ (i : Nat) (hi : i < elements.length), vectorElement handle i ≠ 0 ∧
    handle.elementAt (vectorElement handle i) = elements[i]
  outOfRange : ∀ i, elements.length ≤ i → vectorElement handle i = 0
  front : vectorFront handle = vectorElement handle 0
  back : vectorBack handle = vectorElement handle (elements.length - 1)
  found : ∀ pred, vectorFindIf handle pred = vectorElement handle (elements.findIdx pred)
  noWrap : handle.address + handle.elementSize * handle.count ≤ sizeMax ∧
    handle.elementSize * handle.count ≤ handle.bytes.length
  storage_null : handle.storage = none → handle.count = 0

section

variable {handle : VectorTag} {elements : List Bytes}

theorem findIfLoop_eq (h : Represents handle elements) (pred : Bytes → Bool) {remaining i : Nat}
    (hi : i + remaining = elements.length) :
    findIfLoop handle pred remaining i = i + (elements.drop i).findIdx pred := by
  induction remaining generalizing i with
  | zero =>
    rw [Nat.add_zero] at hi
    rw [findIfLoop, List.drop_of_length_le (Nat.le_of_eq hi.symm)]
    rfl
  | succ remaining ih =>
    have hlt : i < elements.length := by omega
    have hcount := h.count_eq
    rw [findIfLoop, h.address_eq (by omega), h.elementAt_eq hlt, List.drop_eq_getElem_cons hlt,
      List.findIdx_cons]
    cases hpred : pred elements[i] with
    | true => rfl
    | false =>
      rw [if_neg Bool.false_ne_true, ih (by omega)]
      exact Nat.add_assoc i 1 _ |>.trans (congrArg (i + ·) (Nat.add_comm 1 _))

theorem Represents.agrees (h : Represents handle elements) : Agrees handle elements where
  size := h.count_eq
  inOrder := by
    intro i hi
    have hcount : i < handle.count := by rwa [h.count_eq]
    have hpos := h.address_pos (h.storage_ne (by omega))
    rw [h.vectorElement_eq hcount]
    exact ⟨by omega, h.elementAt_eq hi⟩
  outOfRange := by
    intro i hi
    rw [← h.count_eq] at hi
    exact if_pos hi
  front := by
    rw [vectorFront]
    by_cases hzero : handle.count = 0
    · rw [if_pos hzero, vectorElement, if_pos (by omega)]
    · rw [if_neg hzero, h.vectorElement_eq (by omega)]
      rfl
  back := by
    rw [vectorBack, ← h.count_eq]
    by_cases hzero : handle.count = 0
    · rw [if_pos hzero, vectorElement, if_pos (by omega)]
    · rw [if_neg hzero, vectorElement, if_neg (by omega)]
  found := by
    intro pred
    have hloop := findIfLoop_eq h pred (Nat.zero_add _)
    rw [List.drop_zero, Nat.zero_add] at hloop
    rw [vectorFindIf, h.count_eq, hloop, vectorElement, h.count_eq]
    by_cases hnone : elements.findIdx pred = elements.length
    · rw [if_pos hnone, if_pos (Nat.le_of_eq hnone.symm)]
    · have hle := @List.findIdx_le_length _ pred elements
      rw [if_neg hnone, if_neg (by omega)]
  noWrap := by
    refine ⟨h.size_le, ?_⟩
    rw [← h.length_flatten]
    exact h.stored.length_le
  storage_null := by
    intro hnone
    rw [h.count_eq, h.storage_none.1 hnone]
    rfl

end

/-! ## Runs -/

/-- Every call is safe in the state in which it is made. -/
def SafeRun : VectorTag → List Operation → Prop
  | _, [] => True
  | handle, op :: ops =>
    Safe handle op ∧ ∀ result handle', perform handle op = some (result, handle') → SafeRun handle' ops

/-- Every state agrees with its list, every call does to the list what it should, and where it leaves the list
it leaves the vector. -/
def RunRefines : VectorTag → List Bytes → List Operation → Prop
  | handle, elements, [] => Agrees handle elements
  | handle, elements, op :: ops =>
    Agrees handle elements ∧
      ∃ result handle', perform handle op = some (result, handle') ∧
        (effect handle op result elements = elements → handle' = handle) ∧
          RunRefines handle' (effect handle op result elements) ops

def run (handle : VectorTag) : List Operation → Option VectorTag
  | [] => some handle
  | op :: ops => (perform handle op).bind fun r => run r.2 ops

theorem Represents.run {handle : VectorTag} {elements : List Bytes} (h : Represents handle elements)
    {ops : List Operation} (hsafe : SafeRun handle ops) : RunRefines handle elements ops := by
  induction ops generalizing handle elements with
  | nil => exact h.agrees
  | cons op ops ih =>
    obtain ⟨hop, hops⟩ := hsafe
    obtain ⟨result, handle', hperform, hnew, hsame⟩ := perform_refines h hop
    exact ⟨h.agrees, result, handle', hperform, hsame, ih hnew (hops result handle' hperform)⟩

/-- In every run of safe calls the vector is the list. -/
theorem vector_refines (elementSize : Nat) (allocated : Bool) (ops : List Operation) (handle : VectorTag)
    (hcreate : vectorCreate elementSize allocated = some handle) (hsafe : SafeRun handle ops) :
    RunRefines handle [] ops := by
  rw [vectorCreate] at hcreate
  split_ifs at hcreate with hzero hallocated
  cases hcreate
  exact (represents_empty (Nat.pos_of_ne_zero hzero)).run hsafe

/-- Two elements are appended and the first one is erased. -/
theorem vector_refines_erase :
    RunRefines { storage := none, count := 0, elementSize := 1 } []
      [.pushBack (some (.outside [7, 8])) 2 (some { address := 16, fresh := fun _ => 0 }),
        .erase 16 1 none] := by
  refine vector_refines 1 true _ _ rfl ⟨fun _ => ⟨[7, 8], rfl, by decide, by decide⟩, ?_⟩
  intro result handle' hperform
  have hpush : perform { storage := none, count := 0, elementSize := 1 }
      (.pushBack (some (.outside [7, 8])) 2 (some { address := 16, fresh := fun _ => 0 })) =
        some (0, { storage := some { address := 16, bytes := [7, 8] }, count := 2, elementSize := 1 }) := by
    decide
  cases hpush.symm.trans hperform
  exact ⟨.inl ⟨0, by decide, by decide⟩, fun _ _ _ => trivial⟩

/-- `2 ^ 61` elements of 8 bytes are to be erased, and there is one: the address behind them wraps around to the
first one, and the count to more than there is memory for. -/
theorem vectorErase_wraps :
    vectorCreate 8 true = some { storage := none, count := 0, elementSize := 8 } ∧
      run { storage := none, count := 0, elementSize := 8 }
        [.pushBack (some (.outside [1, 2, 3, 4, 5, 6, 7, 8])) 1 (some { address := 16, fresh := fun _ => 0 }),
          .erase 16 (2 ^ 61) none] =
        some {
          storage := some { address := 16, bytes := [1, 2, 3, 4, 5, 6, 7, 8] }
          count := 2 ^ 64 - 2 ^ 61 + 1
          elementSize := 8 } ∧
      ¬ RunRefines { storage := none, count := 0, elementSize := 8 } []
        [.pushBack (some (.outside [1, 2, 3, 4, 5, 6, 7, 8])) 1 (some { address := 16, fresh := fun _ => 0 }),
          .erase 16 (2 ^ 61) none] := by
  refine ⟨by decide, by decide, ?_⟩
  rintro ⟨-, result, handle, hpush, -, -, result', handle', herase, -, hagrees⟩
  have hpushed : perform { storage := none, count := 0, elementSize := 8 }
      (.pushBack (some (.outside [1, 2, 3, 4, 5, 6, 7, 8])) 1 (some { address := 16, fresh := fun _ => 0 })) =
        some (0, {
          storage := some { address := 16, bytes := [1, 2, 3, 4, 5, 6, 7, 8] }
          count := 1
          elementSize := 8 }) := by
    decide
  cases hpushed.symm.trans hpush
  have herased : perform {
      storage := some { address := 16, bytes := [1, 2, 3, 4, 5, 6, 7, 8] }
      count := 1
      elementSize := 8 } (.erase 16 (2 ^ 61) none) =
        some (0, {
          storage := some { address := 16, bytes := [1, 2, 3, 4, 5, 6, 7, 8] }
          count := 2 ^ 64 - 2 ^ 61 + 1
          elementSize := 8 }) := by
    decide
  cases herased.symm.trans herase
  exact absurd hagrees.size (by decide)

/-! ## Where an erasure is not safe -/

theorem eraseAt_count {handle handle' : VectorTag} {pointer src srcEnd numElements : Nat} {place : Option Place}
    (h : eraseAt handle pointer src srcEnd numElements place = some handle') :
    handle'.count = subSizeT handle.count numElements := by
  rw [eraseAt] at h
  dsimp only at h
  split_ifs at h with hzero hblock hsize
  · cases h
    exact hzero.symm
  · obtain ⟨bytes, -, hnone⟩ := Option.bind_eq_some_iff.1 h
    cases hnone
  · obtain ⟨bytes, -, h⟩ := Option.bind_eq_some_iff.1 h
    cases hrealloc : realloc bytes (mulSizeT handle.elementSize (subSizeT handle.count numElements)) place with
    | none =>
      rw [hrealloc] at h
      cases h
      rfl
    | some tmp =>
      rw [hrealloc] at h
      cases h
      rfl

/-- `VECTOR_erase` does what it should with a pointer to an element exactly where it is safe. -/
theorem vectorErase_refines_iff {handle : VectorTag} {elements : List Bytes} (h : Represents handle elements)
    {i numElements : Nat} (hi : i < handle.count) (hn : numElements ≤ sizeMax) (place : Option Place) :
    (∃ handle', vectorErase handle (vectorElement handle i) numElements place = some handle' ∧
        Represents handle' (removeAt i numElements elements)) ↔
      i + numElements ≤ handle.count ∨
        handle.address + handle.elementSize * handle.count <
          addSizeT (vectorElement handle i) (mulSizeT handle.elementSize numElements) := by
  rw [h.vectorElement_eq hi]
  have hcount := h.count_eq
  have hle := h.count_le
  constructor
  · rintro ⟨handle', herase, hnew⟩
    by_contra hunsafe
    obtain ⟨hmany, hsrc⟩ := not_or.1 hunsafe
    have hkept : removeAt i numElements elements = elements := if_neg (by omega)
    rw [hkept] at hnew
    have hpos := h.address_pos (h.storage_ne (by omega))
    rw [vectorErase] at herase
    dsimp only at herase
    rw [if_neg (by omega), if_neg (Nat.not_lt.2 (Nat.le_add_right _ _)), Nat.add_sub_cancel_left,
      Nat.mul_mod_right, if_neg (fun hne => hne rfl), h.address_eq (Nat.le_refl _), if_neg hsrc] at herase
    -- the count is another one
    have hwrapped : subSizeT handle.count numElements ≠ handle.count := by
      rw [subSizeT]
      intro heq
      rcases Nat.lt_or_ge handle.count numElements with hless | hge
      · rw [Nat.mod_eq_of_lt (by omega)] at heq
        omega
      · have hsum : handle.count + (sizeMax + 1) - numElements =
            handle.count - numElements + (sizeMax + 1) := by
          omega
        rw [hsum, Nat.add_mod_right, Nat.mod_eq_of_lt (by omega)] at heq
        omega
    have hchanged := eraseAt_count herase
    rw [hnew.count_eq, ← hcount] at hchanged
    exact hwrapped hchanged.symm
  · rintro (hinside | hbehind)
    · obtain ⟨handle', herase, hnew, -⟩ := vectorErase_removes h hi hinside place
      exact ⟨handle', herase, hnew⟩
    · have hrefused := vectorErase_refused h (.inr (.inr (.inr (.inr hbehind)))) place
      by_cases hinside : i + numElements ≤ handle.count
      · obtain ⟨handle', herase, hnew, -⟩ := vectorErase_removes h hi hinside place
        exact ⟨handle', herase, hnew⟩
      · have hkept : removeAt i numElements elements = elements := if_neg (by omega)
        refine ⟨handle, hrefused, ?_⟩
        rw [hkept]
        exact h

end SharedUtility.CVector
