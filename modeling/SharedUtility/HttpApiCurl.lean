import SharedUtility.Buffer.Refinement

/-!
# HttpApiCurl — how `httpapi_curl.c` takes in a response

libcurl hands the body to `ContentWriteFunction` piece by piece; when it is done, `HTTPAPI_ExecuteRequest` copies
what has been gathered into the buffer of the caller and frees its own block.

* `contentWriteFunction`, `curlEasyPerform`, `receiveResponse` — the code,
* `gather` — the bytes that are held after the pieces, by the allocations to come,
* `receiveResponse_law` — the function is undefined exactly where the block cannot be made larger; otherwise the
  caller gets the body, or memory has run out and its buffer is what it was.

A block that cannot be made larger is freed in the callback, and `responseContentBuffer.buffer` still points to it.
-/

namespace SharedUtility.HttpApiCurl

open Memory Buffer

/-! ## The code -/

/-- Of `HTTPAPI_RESULT` what comes after the options have been set. -/
inductive HttpApiResult
  | ok
  | openRequestFailed
  | queryHeadersFailed
  | readDataFailed
  | insufficientResponseBuffer
  deriving DecidableEq, Repr

/-- `HTTP_RESPONSE_CONTENT_BUFFER`. -/
structure ResponseContentBuffer where
  buffer : Ptr
  bufferSize : Nat
  error : Bool

/-- `safe_multiply_size_t` of `safe_math.h`. -/
def safeMultiplySizeT (a b : Nat) : Nat :=
  if a = 0 ∨ b = 0 then 0 else if sizeMax / a ≥ b then a * b else sizeMax

def contentWriteFunction (ptr : Option Bytes) (size nmemb : Nat) (userdata : Option ResponseContentBuffer) :
    BufferM (Nat × Option ResponseContentBuffer) :=
  match userdata, ptr with
  | some r, some bytes =>
    if mulSizeT size nmemb > 0 then do
      let mallocSize := safeAddSizeT (safeMultiplySizeT size nmemb) r.bufferSize
      let newBuffer ← (if mallocSize = sizeMax then pure none else reallocBlock sizeMax r.buffer mallocSize)
      if newBuffer ≠ none then do
        copyIn newBuffer r.bufferSize bytes (mulSizeT size nmemb)
        pure (mulSizeT size nmemb,
          some { r with buffer := newBuffer, bufferSize := addSizeT r.bufferSize (mulSizeT size nmemb) })
      else do
        if r.buffer ≠ none then free r.buffer
        pure (mulSizeT size nmemb, some { r with error := true })
    else pure (mulSizeT size nmemb, some r)
  | _, _ => pure (mulSizeT size nmemb, userdata)

/-- A piece of the body: `nmemb` items of `size` bytes. -/
structure Delivery where
  data : Bytes
  size : Nat
  nmemb : Nat
  length : data.length = size * nmemb
  bounded : size * nmemb ≤ sizeMax

/-- What libcurl does with a request. -/
structure Exchange where
  deliveries : List Delivery
  /-- `curl_easy_perform` returns `CURLE_OK`. -/
  performed : Bool
  /-- What `curl_easy_getinfo` gives, if it does. -/
  httpCode : Option Int

/-- The callbacks of `curl_easy_perform`; it would stop at one that takes fewer bytes than it is given. -/
def curlEasyPerform : List Delivery → ResponseContentBuffer → BufferM ResponseContentBuffer
  | [], r => pure r
  | d :: deliveries, r => do
    let w ← contentWriteFunction (some d.data) d.size d.nmemb (some r)
    let r := w.2.getD r
    if w.1 ≠ d.size * d.nmemb then pure r else curlEasyPerform deliveries r

structure Outcome where
  result : HttpApiResult
  statusCode : Option Nat
  responseContent : Option Buffer

/-- The conversion `(unsigned int)` of a `long`. -/
def unsignedOfLong (value : Int) : Nat :=
  (value % 4294967296).toNat

/-- `BUFFER_build` from what has been gathered, if there is something and somewhere to put it. -/
def buildResponse (r : ResponseContentBuffer) (responseContent : Option Buffer) : BufferM (Bool × Option Buffer) :=
  match responseContent with
  | none => pure (true, none)
  | some b =>
    if r.bufferSize > 0 then do
      let bytes ← load r.buffer 0 r.bufferSize
      let w ← bufferBuild (some b) (some (bytes.map fun byte => byte.getD 0)) r.bufferSize
      pure (w.1 == 0, w.2)
    else pure (true, some b)

/-- What is reported once `curl_easy_perform` has returned. -/
def reportResponse (x : Exchange) (r : ResponseContentBuffer) (statusCode : Option Nat)
    (responseContent : Option Buffer) : BufferM Outcome :=
  if x.performed = false then pure (.mk .openRequestFailed statusCode responseContent)
  else
    match x.httpCode with
    | none => pure (.mk .queryHeadersFailed statusCode responseContent)
    | some httpCode =>
      if r.error then pure (.mk .readDataFailed statusCode responseContent)
      else do
        let w ← buildResponse r responseContent
        let result := if w.1 then HttpApiResult.ok else .insufficientResponseBuffer
        -- Below 300 the result of `BUFFER_build` is overwritten.
        let result := if httpCode ≥ 300 then result else .ok
        pure (.mk result (statusCode.map fun _ => unsignedOfLong httpCode) w.2)

/-- The end of `HTTPAPI_ExecuteRequest`, once all options are set. -/
def receiveResponse (x : Exchange) (statusCode : Option Nat) (responseContent : Option Buffer) : BufferM Outcome := do
  let r ← curlEasyPerform x.deliveries { buffer := none, bufferSize := 0, error := false }
  let outcome ← reportResponse x r statusCode responseContent
  if r.buffer ≠ none then free r.buffer
  pure outcome

/-! ## What is gathered -/

/-- The bytes so far, without a block before the first; and whether some have been lost. -/
structure Gathered where
  content : Option Bytes := none
  lost : Bool := false

/-- One piece, by the allocations to come; none where a block that holds bytes cannot be made larger. -/
def gatherOne (outcomes : List Bool) (g : Gathered) (data : Bytes) : Option (Gathered × List Bool) :=
  if data = [] then some (g, outcomes)
  else if sizeMax ≤ data.length + (g.content.getD []).length then
    if g.content = none then some ({ g with lost := true }, outcomes) else none
  else if outcomes.headD true then some ({ g with content := some (g.content.getD [] ++ data) }, outcomes.tail)
  else if g.content = none then some ({ g with lost := true }, outcomes.tail)
  else none

def gather (outcomes : List Bool) (g : Gathered) : List Delivery → Option (Gathered × List Bool)
  | [] => some (g, outcomes)
  | d :: deliveries => do
    let s ← gatherOne outcomes g d.data
    gather s.2 s.1 deliveries

/-! ## Blocks and the allocations to come -/

section

variable {α β : Type}

theorem Meets.and {c : HeapM α β} {h : Heap α} {Q Q' : β → Heap α → Prop} (hc : Meets c h Q) (hc' : Meets c h Q') :
    Meets c h fun r h' => Q r h' ∧ Q' r h' := by
  rcases hc with ⟨r, h₁, heq, hQ⟩
  rcases hc' with ⟨r', h₂, heq', hQ'⟩
  rw [heq] at heq'
  cases heq'
  exact ⟨r, h₁, heq, hQ, hQ'⟩

variable {h : Heap (Region β)} {p : Ptr} {block : Region β} {limit size offset n : Nat}

theorem reallocBlock_outcomes (hp : p = none ∧ block = [] ∨ h.cell p = some block) :
    Meets (reallocBlock limit p size) h fun _ h' => h'.outcomes = h.outcomes.tail := by
  apply Meets.bind
  apply meets_allocateUpTo
  case hno =>
    intro _
    exact meets_pure rfl
  case hyes =>
    intro _
    simp only [↓reduceIte]
    rcases hp with ⟨rfl, rfl⟩ | hp
    · simp only [↓reduceIte]
      exact meets_new rfl
    · cases p with
      | none => cases hp
      | some a =>
        have hlive : h.allocated.cell (some a) = some block := hp
        simp only [reduceCtorEq, ↓reduceIte]
        apply Meets.bind
        apply meets_read hlive
        apply Meets.bind
        apply meets_free hlive
        exact meets_new rfl

theorem copyIn_outcomes {source : List β} (hp : h.cell p = some block) (hsource : n ≤ source.length)
    (hfit : offset + n ≤ block.length) :
    Meets (copyIn p offset source n) h fun _ h' => h'.outcomes = h.outcomes := by
  cases p with
  | none => cases hp
  | some a =>
    unfold copyIn
    rw [if_pos hsource]
    apply Meets.bind
    apply meets_read hp
    rw [if_pos (by rw [List.length_map, List.length_take]; omega)]
    exact meets_write hp rfl

theorem free_dead {a : Nat} (hdead : h.cell (some a) = none) : free (some a) h = none := by
  simp only [free]
  rw [hdead]
  rfl

theorem reallocBlock_dead {a : Nat} (hdead : h.cell (some a) = none) (hgrants : h.grants limit size = true) :
    reallocBlock limit (some a) size h = none := by
  have hallocate : allocateUpTo limit size h = some (true, h.allocated) := if_pos hgrants
  have hread : read (some a) h.allocated = (none : Option (Region β × Heap (Region β))) := by
    change (h.cell (some a)).map _ = none
    rw [hdead]
    rfl
  rw [reallocBlock, bind_eq_of_eq hallocate, if_pos rfl, if_neg (Option.some_ne_none a)]
  exact bind_eq_none _ hread

theorem reallocBlock_refused (hgrants : h.grants limit size = false) :
    reallocBlock limit p size h = some (none, h.refused) := by
  have hallocate : allocateUpTo limit size h = some (false, h.refused) :=
    if_neg (Bool.eq_false_iff.1 hgrants)
  rw [reallocBlock, bind_eq_of_eq hallocate]
  rfl

end

/-! ## One piece -/

/-- What the block of the response holds. -/
structure Holding (h : BufferHeap) (r : ResponseContentBuffer) (g : Gathered) : Prop where
  block : r.buffer = none ∧ g.content = none ∨
    ∃ bytes, g.content = some bytes ∧ h.cell r.buffer = some (bytes.map some)
  size : r.bufferSize = (g.content.getD []).length
  lost : r.error = g.lost

/-- The block has been freed, and is still pointed to. -/
structure Dangling (h : BufferHeap) (r : ResponseContentBuffer) : Prop where
  pointed : r.buffer ≠ none
  freed : h.cell r.buffer = none
  error : r.error = true

section

variable {h : BufferHeap} {r : ResponseContentBuffer} {g g' : Gathered} {outcomes : List Bool}

theorem Delivery.mulSizeT_eq (d : Delivery) : mulSizeT d.size d.nmemb = d.data.length := by
  rw [mulSizeT_of_le d.bounded, d.length]

theorem safeMultiplySizeT_of_le {a b : Nat} (h : a * b ≤ sizeMax) : safeMultiplySizeT a b = a * b := by
  unfold safeMultiplySizeT
  split_ifs with hzero hfits
  · rcases hzero with rfl | rfl
    · rw [Nat.zero_mul]
    · rw [Nat.mul_zero]
  · rfl
  · refine absurd ?_ hfits
    have hpos : 0 < a := Nat.pos_of_ne_zero (not_or.1 hzero).1
    exact (Nat.le_div_iff_mul_le hpos).2 (Nat.mul_comm a b ▸ h)

theorem Delivery.mallocSize_eq (d : Delivery) (n : Nat) :
    safeAddSizeT (safeMultiplySizeT d.size d.nmemb) n = safeAddSizeT d.data.length n := by
  rw [safeMultiplySizeT_of_le d.bounded, d.length]

/-- The block for `n` bytes more. -/
def grow (n : Nat) (r : ResponseContentBuffer) : BufferM Ptr :=
  if safeAddSizeT n r.bufferSize = sizeMax then pure none
  else reallocBlock sizeMax r.buffer (safeAddSizeT n r.bufferSize)

theorem contentWriteFunction_eq (d : Delivery) (r : ResponseContentBuffer) :
    contentWriteFunction (some d.data) d.size d.nmemb (some r) =
      if d.data.length > 0 then do
        let newBuffer ← grow d.data.length r
        if newBuffer ≠ none then do
          copyIn newBuffer r.bufferSize d.data d.data.length
          pure (d.data.length,
            some { r with buffer := newBuffer, bufferSize := addSizeT r.bufferSize d.data.length })
        else do
          if r.buffer ≠ none then free r.buffer
          pure (d.data.length, some { r with error := true })
      else pure (d.data.length, some r) := by
  simp only [contentWriteFunction, d.mulSizeT_eq, d.mallocSize_eq, grow]

/-- The allocation fails, and nothing is held: the piece is lost, or the block of the earlier ones is freed. -/
theorem refused_piece {h₁ : BufferHeap} {d : Delivery} (hdata : d.data ≠ [])
    (hgrow : grow d.data.length r h = some (none, h₁)) :
    contentWriteFunction (some d.data) d.size d.nmemb (some r) h =
      (do
        if r.buffer ≠ none then free r.buffer
        pure (d.data.length, some { r with error := true }) : BufferM (Nat × Option ResponseContentBuffer)) h₁ := by
  rw [contentWriteFunction_eq, if_pos (List.length_pos_of_ne_nil hdata), bind_eq_of_eq hgrow,
    if_neg (not_not.2 rfl)]

theorem grow_huge {n : Nat} (hhuge : sizeMax ≤ n + r.bufferSize) : grow n r h = some (none, h) := by
  rw [grow, if_pos (safeAddSizeT_eq_max.2 hhuge)]
  rfl

theorem grants_iff {size : Nat} (hsize : size ≤ sizeMax) : h.grants sizeMax size = h.outcomes.headD true := by
  rw [Heap.grants, decide_eq_true hsize, Bool.true_and]

theorem grow_refused {n : Nat} (hfits : n + r.bufferSize < sizeMax) (hno : h.outcomes.headD true = false) :
    grow n r h = some (none, h.refused) := by
  have hgrants : h.grants sizeMax (n + r.bufferSize) = false := by rw [grants_iff (Nat.le_of_lt hfits), hno]
  rw [grow, safeAddSizeT_of_lt hfits, if_neg (Nat.ne_of_lt hfits), reallocBlock_refused hgrants]

theorem Holding.block_or (hr : Holding h r g) :
    r.buffer = none ∧ (g.content.getD []).map some = [] ∨ h.cell r.buffer = some ((g.content.getD []).map some) := by
  rcases hr.block with ⟨hnull, hnone⟩ | ⟨bytes, hbytes, hcell⟩
  · rw [hnone]
    exact .inl ⟨hnull, rfl⟩
  · rw [hbytes]
    exact .inr hcell

theorem Holding.null_iff (hr : Holding h r g) : r.buffer = none ↔ g.content = none := by
  rcases hr.block with ⟨hnull, hnone⟩ | ⟨bytes, hbytes, hcell⟩
  · simp only [hnull, hnone]
  · simp only [hbytes, Heap.ne_none_of_cell hcell, reduceCtorEq]

theorem grow_granted {n : Nat} (hr : Holding h r g) (hfits : n + r.bufferSize < sizeMax)
    (hyes : h.outcomes.headD true = true) :
    Meets (grow n r) h fun p h' =>
      (Replaces h h' r.buffer p ∧ h'.cell p = some ((g.content.getD []).map some ++ unwritten n)) ∧
        h'.outcomes = h.outcomes.tail := by
  have hgrants : h.grants sizeMax (n + r.bufferSize) = true := by rw [grants_iff (Nat.le_of_lt hfits), hyes]
  rw [grow, safeAddSizeT_of_lt hfits, if_neg (Nat.ne_of_lt hfits)]
  apply Meets.and
  · apply meets_reallocBlock hr.block_or
    · intro p h' _ hreplaces hcell
      refine ⟨hreplaces, ?_⟩
      have hresized := resized_append ((g.content.getD []).map some) 0 n
      rw [List.length_map, ← hr.size, Nat.add_comm, unwritten_zero, List.append_nil] at hresized
      rw [hcell, hresized]
    · intro hno
      rw [hgrants] at hno
      cases hno
  · exact reallocBlock_outcomes hr.block_or

/-- What the callback leaves. -/
structure Gathers (h : BufferHeap) (r : ResponseContentBuffer) (g' : Gathered) (outcomes : List Bool) (taken : Nat)
    (w : Nat × Option ResponseContentBuffer) (h' : BufferHeap) : Prop where
  taken : w.1 = taken
  holding : ∃ r', w.2 = some r' ∧ Holding h' r' g' ∧ Replaces h h' r.buffer r'.buffer
  outcomes : h'.outcomes = outcomes

theorem granted_piece {d : Delivery} (hr : Holding h r g) (hdata : d.data ≠ [])
    (hfits : d.data.length + r.bufferSize < sizeMax) (hyes : h.outcomes.headD true = true) :
    Meets (contentWriteFunction (some d.data) d.size d.nmemb (some r)) h
      (Gathers h r { g with content := some (g.content.getD [] ++ d.data) } h.outcomes.tail d.data.length) := by
  rw [contentWriteFunction_eq, if_pos (List.length_pos_of_ne_nil hdata)]
  apply Meets.bind
  apply (grow_granted hr hfits hyes).mono
  rintro p h₁ ⟨⟨hreplaces, hcell⟩, houtcomes⟩
  rw [if_pos (Heap.ne_none_of_cell hcell)]
  have hroom : r.bufferSize + d.data.length ≤
      ((g.content.getD []).map some ++ unwritten d.data.length : Region UInt8).length := by
    refine Nat.le_of_eq ?_
    rw [List.length_append, List.length_map, length_unwritten, hr.size]
  apply Meets.bind
  have hcopied := Meets.and
    (meets_copyIn hcell (Nat.le_refl _) hroom (Q := fun _ h' => Replaces h₁ h' p p ∧
      h'.cell p = some (overwritten ((g.content.getD []).map some ++ unwritten d.data.length) r.bufferSize
        ((d.data.take d.data.length).map some))) fun h' hh hp => ⟨hh, hp⟩)
    (copyIn_outcomes hcell (Nat.le_refl _) hroom)
  apply hcopied.mono
  rintro _ h₂ ⟨⟨hreplaces₂, hcell₂⟩, houtcomes₂⟩
  apply meets_pure
  refine ⟨rfl, ⟨_, rfl, ⟨.inr ⟨_, rfl, ?_⟩, ?_, hr.lost⟩, hreplaces.trans hreplaces₂⟩, houtcomes₂.trans houtcomes⟩
  · have hwritten := overwritten_append ((g.content.getD []).map some)
      (show (d.data.map some).length = d.data.length from List.length_map _) 0
    rw [List.length_map, ← hr.size, Nat.add_zero, unwritten_zero, List.append_nil] at hwritten
    rw [hcell₂, List.take_length, hwritten, ← List.map_append]
  · rw [addSizeT_of_le (by omega), hr.size, ← List.length_append]
    rfl

theorem lost_piece {d : Delivery} {h₁ : BufferHeap} (hr : Holding h r g) (hdata : d.data ≠ [])
    (hnone : g.content = none) (hgrow : grow d.data.length r h = some (none, h₁))
    (hh : Replaces h h₁ r.buffer r.buffer) :
    Meets (contentWriteFunction (some d.data) d.size d.nmemb (some r)) h
      (Gathers h r { g with lost := true } h₁.outcomes d.data.length) := by
  have hnull := hr.null_iff.2 hnone
  refine ⟨(d.data.length, some { r with error := true }), h₁, ?_, rfl,
    ⟨_, rfl, ⟨.inl ⟨hnull, hnone⟩, hr.size, rfl⟩, hh⟩, rfl⟩
  rw [refused_piece hdata hgrow, if_neg (not_not.2 hnull)]
  rfl

theorem freed_piece {d : Delivery} {h₁ : BufferHeap} (hr : Holding h r g) (hdata : d.data ≠ [])
    (hsome : g.content ≠ none) (hgrow : grow d.data.length r h = some (none, h₁))
    (hcells : h₁.cell r.buffer = h.cell r.buffer) :
    Meets (contentWriteFunction (some d.data) d.size d.nmemb (some r)) h fun w h' =>
      w.1 = d.data.length ∧ ∃ r', w.2 = some r' ∧ Dangling h' r' := by
  have hheld := mt hr.null_iff.1 hsome
  rcases hr.block with ⟨hnull, -⟩ | ⟨bytes, -, hcell⟩
  · exact absurd hnull hheld
  · cases hbuffer : r.buffer with
    | none => exact absurd hbuffer hheld
    | some a =>
      rw [hbuffer] at hcell hcells
      have hfree : free (some a) h₁ = some ((), h₁.clear a) := by
        simp only [free]
        rw [hcells, hcell]
        rfl
      refine ⟨(d.data.length, some { r with error := true }), h₁.clear a, ?_, rfl, _, rfl, ?_, ?_, rfl⟩
      · rw [refused_piece hdata hgrow, hbuffer, if_pos (Option.some_ne_none a), bind_eq_of_eq hfree]
        rfl
      · simp only [hbuffer]
        exact Option.some_ne_none a
      · simp only [hbuffer]
        rw [Heap.cell_clear, if_pos rfl]

theorem empty_piece {d : Delivery} (hdata : d.data = []) (h : BufferHeap) (r : ResponseContentBuffer) :
    contentWriteFunction (some d.data) d.size d.nmemb (some r) h = some ((d.data.length, some r), h) := by
  rw [contentWriteFunction_eq, if_neg (by rw [hdata]; decide)]
  rfl

theorem piece_gathers {d : Delivery} (hr : Holding h r g)
    (hstep : gatherOne h.outcomes g d.data = some (g', outcomes)) :
    Meets (contentWriteFunction (some d.data) d.size d.nmemb (some r)) h
      (Gathers h r g' outcomes d.data.length) := by
  unfold gatherOne at hstep
  split_ifs at hstep with hempty hhuge hnone hyes hnone
  · cases hstep
    exact ⟨_, _, empty_piece hempty h r, rfl, ⟨r, rfl, hr, Replaces.refl h _⟩, rfl⟩
  · cases hstep
    exact lost_piece hr hempty hnone (grow_huge (hr.size ▸ hhuge)) (Replaces.refl h _)
  · cases hstep
    exact granted_piece hr hempty (hr.size ▸ Nat.lt_of_not_le hhuge) hyes
  · cases hstep
    have hgrow := grow_refused (hr.size ▸ Nat.lt_of_not_le hhuge) (Bool.eq_false_iff.2 hyes)
    exact lost_piece hr hempty hnone hgrow (replaces_refused h _)

theorem piece_dangles {d : Delivery} (hr : Holding h r g) (hstep : gatherOne h.outcomes g d.data = none) :
    Meets (contentWriteFunction (some d.data) d.size d.nmemb (some r)) h fun w h' =>
      w.1 = d.data.length ∧ ∃ r', w.2 = some r' ∧ Dangling h' r' := by
  unfold gatherOne at hstep
  split_ifs at hstep with hempty hhuge hnone hyes hnone
  · exact freed_piece hr hempty hnone (grow_huge (hr.size ▸ hhuge)) rfl
  · have hgrow := grow_refused (hr.size ▸ Nat.lt_of_not_le hhuge) (Bool.eq_false_iff.2 hyes)
    exact freed_piece hr hempty hnone hgrow rfl

theorem contentWriteFunction_takes {d : Delivery} {w : Nat × Option ResponseContentBuffer} {h' : BufferHeap}
    (hcalled : contentWriteFunction (some d.data) d.size d.nmemb (some r) h = some (w, h')) :
    w.1 = d.size * d.nmemb := by
  rw [contentWriteFunction_eq] at hcalled
  rw [← d.length]
  by_cases hdata : d.data.length > 0
  · rw [if_pos hdata] at hcalled
    rcases bind_eq_some hcalled with ⟨newBuffer, h₁, -, hrest⟩
    by_cases hnew : newBuffer ≠ none
    · rw [if_pos hnew] at hrest
      rcases bind_eq_some hrest with ⟨_, h₂, -, hdone⟩
      cases hdone
      rfl
    · rw [if_neg hnew] at hrest
      by_cases hheld : r.buffer ≠ none
      · rw [if_pos hheld] at hrest
        rcases bind_eq_some hrest with ⟨_, h₂, -, hdone⟩
        cases hdone
        rfl
      · rw [if_neg hheld] at hrest
        cases hrest
        rfl
  · rw [if_neg hdata] at hcalled
    cases hcalled
    rfl

theorem dangling_piece {d : Delivery} (hr : Dangling h r) (hdata : d.data ≠ []) :
    contentWriteFunction (some d.data) d.size d.nmemb (some r) h = none := by
  rcases hr with ⟨hpointed, hdead, -⟩
  cases hbuffer : r.buffer with
  | none => exact absurd hbuffer hpointed
  | some a =>
    rw [hbuffer] at hdead
    -- Without a new block the old one is freed once more.
    have hagain : ∀ h₁ : BufferHeap, h₁.cell (some a) = none → grow d.data.length r h = some (none, h₁) →
        contentWriteFunction (some d.data) d.size d.nmemb (some r) h = none := by
      intro h₁ hdead₁ hgrow
      rw [refused_piece hdata hgrow, hbuffer, if_pos (Option.some_ne_none a)]
      exact bind_eq_none _ (free_dead hdead₁)
    by_cases hhuge : sizeMax ≤ d.data.length + r.bufferSize
    · exact hagain h hdead (grow_huge hhuge)
    · have hfits := Nat.lt_of_not_le hhuge
      cases hyes : h.outcomes.headD true with
      | false => exact hagain h.refused hdead (grow_refused hfits hyes)
      | true =>
        have hgrants : h.grants sizeMax (d.data.length + r.bufferSize) = true := by
          rw [grants_iff (Nat.le_of_lt hfits), hyes]
        rw [contentWriteFunction_eq, if_pos (List.length_pos_of_ne_nil hdata)]
        apply bind_eq_none
        rw [grow, safeAddSizeT_of_lt hfits, if_neg (Nat.ne_of_lt hfits), hbuffer]
        exact reallocBlock_dead hdead hgrants

end

/-! ## All pieces -/

section

variable {h : BufferHeap} {r : ResponseContentBuffer} {g g' : Gathered} {outcomes : List Bool}

theorem perform_gathers (deliveries : List Delivery) :
    ∀ {h : BufferHeap} {r : ResponseContentBuffer} {g : Gathered}, Holding h r g →
      gather h.outcomes g deliveries = some (g', outcomes) →
      Meets (curlEasyPerform deliveries r) h fun r' h' => Holding h' r' g' ∧ Replaces h h' r.buffer r'.buffer := by
  induction deliveries with
  | nil =>
    intro h r g hr hgather
    cases hgather
    exact meets_pure ⟨hr, Replaces.refl h _⟩
  | cons d deliveries ih =>
    intro h r g hr hgather
    rcases Option.bind_eq_some_iff.1 hgather with ⟨⟨g₁, outcomes₁⟩, hstep, hrest⟩
    apply Meets.bind
    apply (piece_gathers hr hstep).mono
    rintro w h₁ ⟨htaken, ⟨r₁, hw, hr₁, hreplaces⟩, houtcomes⟩
    rw [htaken, hw, d.length, if_neg (not_not.2 rfl)]
    dsimp only at hrest
    rw [← houtcomes] at hrest
    apply (ih hr₁ hrest).mono
    rintro r₂ h₂ ⟨hr₂, hreplaces₂⟩
    exact ⟨hr₂, hreplaces.trans hreplaces₂⟩

theorem perform_dangling (deliveries : List Delivery) (hr : Dangling h r) :
    curlEasyPerform deliveries r h = none ∨ curlEasyPerform deliveries r h = some (r, h) := by
  induction deliveries with
  | nil => exact .inr rfl
  | cons d deliveries ih =>
    by_cases hdata : d.data = []
    · have hpiece := empty_piece hdata h r
      rw [curlEasyPerform, bind_eq_of_eq hpiece, d.length, if_neg (not_not.2 rfl)]
      exact ih
    · exact .inl (bind_eq_none _ (dangling_piece hr hdata))

theorem perform_dangles (deliveries : List Delivery) :
    ∀ {h : BufferHeap} {r : ResponseContentBuffer} {g : Gathered}, Holding h r g →
      gather h.outcomes g deliveries = none →
      curlEasyPerform deliveries r h = none ∨
        ∃ r' h', curlEasyPerform deliveries r h = some (r', h') ∧ Dangling h' r' := by
  induction deliveries with
  | nil =>
    intro h r g _ hgather
    cases hgather
  | cons d deliveries ih =>
    intro h r g hr hgather
    cases hstep : gatherOne h.outcomes g d.data with
    | none =>
      rcases piece_dangles hr hstep with ⟨w, h₁, heq, htaken, r₁, hw, hdangling⟩
      rw [curlEasyPerform, bind_eq_of_eq heq, htaken, hw, d.length, if_neg (not_not.2 rfl)]
      exact (perform_dangling deliveries hdangling).imp_right fun hrun => ⟨r₁, h₁, hrun, hdangling⟩
    | some s =>
      rcases piece_gathers hr hstep with ⟨w, h₁, heq, htaken, ⟨r₁, hw, hr₁, -⟩, houtcomes⟩
      rw [gather, hstep, Option.bind_eq_bind, Option.bind_some, ← houtcomes] at hgather
      rw [curlEasyPerform, bind_eq_of_eq heq, htaken, hw, d.length, if_neg (not_not.2 rfl)]
      exact ih hr₁ hgather

end

/-! ## The response -/

/-- Why nothing is reported. -/
def refusal (x : Exchange) (g : Gathered) : Option HttpApiResult :=
  if x.performed = false then some .openRequestFailed
  else if x.httpCode = none then some .queryHeadersFailed
  else if g.lost then some .readDataFailed
  else none

/-- The result, the status code and the content of the buffer of the caller. -/
inductive Receives (x : Exchange) (g : Gathered) (statusCode : Option Nat) (before : Content) (exhausted : Prop) :
    HttpApiResult → Option Nat → Content → Prop
  | refused {result : HttpApiResult} (h : refusal x g = some result) :
      Receives x g statusCode before exhausted result statusCode before
  /-- An empty body leaves the buffer as it is. -/
  | received {httpCode : Int} (h : refusal x g = none) (hcode : x.httpCode = some httpCode) :
      Receives x g statusCode before exhausted .ok (statusCode.map fun _ => unsignedOfLong httpCode)
        (if g.content.getD [] = [] then before else some ((g.content.getD []).map some))
  /-- The failure of `BUFFER_build` is reported from 300 on only. -/
  | exhausted {httpCode : Int} (h : refusal x g = none) (hcode : x.httpCode = some httpCode)
      (hbody : g.content.getD [] ≠ []) (hmemory : exhausted) :
      Receives x g statusCode before exhausted (if httpCode ≥ 300 then .insufficientResponseBuffer else .ok)
        (statusCode.map fun _ => unsignedOfLong httpCode) before

/-- What `receiveResponse` leaves of the buffer of the caller; all other cells of the heap are as they were. -/
def Reports (x : Exchange) (g : Gathered) (statusCode : Option Nat) (b : Buffer) (c : Content) (h : BufferHeap)
    (o : Outcome) (h' : BufferHeap) : Prop :=
  ∃ b' c', o.responseContent = some b' ∧ Holds h' b' c' ∧ Replaces h h' b.buffer b'.buffer ∧
    Receives x g statusCode c (h.failures < h'.failures) o.result o.statusCode c'

section

variable {h h₁ h₂ h₃ : BufferHeap} {r : ResponseContentBuffer} {g : Gathered} {b b' : Buffer} {c c' : Content}
  {p q q' : Ptr} {x : Exchange}

theorem replaces_around (hab : Replaces h h₁ none p) (hbc : Replaces h₁ h₂ q q') (hcd : Replaces h₂ h₃ p none) :
    Replaces h h₃ q q' where
  others s v hne hs := by
    have hs₂ := hbc.others s v hne (hab.others s v (Heap.ne_none_of_cell hs) hs)
    apply hcd.others s v _ hs₂
    rintro rfl
    exact hab.place_ne (Heap.ne_none_of_cell hs) hs (Heap.ne_none_of_cell hs) rfl
  unused s hne hs := by
    by_cases hnull : s = none
    · rw [hnull]
      rfl
    by_cases hblock : s = p
    · exact hcd.unused s hnull (.inl hblock)
    · apply hcd.unused s hnull
      rcases hs with heq | hdead
      · exact .inr (hbc.unused s hne (.inl heq))
      · exact .inr (hbc.unused s hne (.inr (hab.unused s hblock (.inr hdead))))
  place := by
    rcases hbc.place with hnull | hsame | hdead
    · exact .inl hnull
    · exact .inr (.inl hsame)
    · cases hq' : h.cell q' with
      | none => exact .inr (.inr rfl)
      | some v =>
        rw [hab.others q' v (Heap.ne_none_of_cell hq') hq'] at hdead
        cases hdead
  failures := Nat.le_trans hab.failures (Nat.le_trans hbc.failures hcd.failures)

theorem holds_around (hb : Holds h b c) (hab : Replaces h h₁ none p) (hp : p = none ∨ ∃ v, h₁.cell p = some v)
    (hbc : Replaces h₁ h₂ b.buffer b'.buffer) (hb' : Holds h₂ b' c') (hcd : Replaces h₂ h₃ p none) :
    Holds h₃ b' c' := by
  apply view.frame hb'
  intro v hv
  refine hcd.others _ v ?_ hv
  have hne := Heap.ne_none_of_cell hv
  rcases hp with rfl | ⟨w, hw⟩
  · exact hne
  · rcases hbc.place with hnull | hsame | hdead
    · exact absurd hnull hne
    · intro heq
      change b'.buffer = p at heq
      rw [hsame] at heq
      have hplace : view.place b ≠ none := by
        change b.buffer ≠ none
        rw [heq]
        exact Heap.ne_none_of_cell hw
      rcases view.live hb hplace with ⟨u, hu⟩
      exact hab.place_ne (Heap.ne_none_of_cell hw) hu (Heap.ne_none_of_cell hu) heq.symm
    · intro heq
      change b'.buffer = p at heq
      rw [heq, hw] at hdead
      cases hdead

theorem holding_start (h : BufferHeap) : Holding h { buffer := none, bufferSize := 0, error := false } {} where
  block := .inl ⟨rfl, rfl⟩
  size := rfl
  lost := rfl

theorem Holding.freeable (hr : Holding h₁ r g) : r.buffer = none ∨ ∃ v, h₁.cell r.buffer = some v :=
  hr.block_or.imp And.left fun hcell => ⟨_, hcell⟩

theorem meets_freeResponse {α : Type} {o : α} {Q : α → BufferHeap → Prop}
    (hp : p = none ∨ ∃ v, h₂.cell p = some v) (hQ : ∀ h₃, Replaces h₂ h₃ p none → Q o h₃) :
    Meets (do
      if p ≠ none then free p
      pure o : BufferM α) h₂ Q := by
  by_cases hnull : p = none
  · subst hnull
    rw [if_neg (not_not.2 rfl)]
    exact Meets.bind (meets_pure (meets_pure (hQ h₂ (Replaces.refl h₂ none))))
  · rw [if_pos hnull]
    rcases hp with hnone | ⟨v, hv⟩
    · exact absurd hnone hnull
    · apply Meets.bind
      apply meets_freeBlock (.inr hv)
      intro h₃ hh
      exact meets_pure (hQ h₃ hh)

theorem Receives.mono {statusCode status' : Option Nat} {e e' : Prop} {result : HttpApiResult}
    (hr : Receives x g statusCode c e result status' c') (he : e → e') :
    Receives x g statusCode c e' result status' c' := by
  cases hr with
  | refused h => exact .refused h
  | received h hcode => exact .received h hcode
  | exhausted h hcode hbody hmemory => exact .exhausted h hcode hbody (he hmemory)

theorem buildResponse_meets (hr : Holding h r g) (hb : Holds h b c) :
    Meets (buildResponse r (some b)) h fun w h' => ∃ b' c', w.2 = some b' ∧ Holds h' b' c' ∧
      Replaces h h' b.buffer b'.buffer ∧
      (w.1 = true ∧ c' = (if g.content.getD [] = [] then c else some ((g.content.getD []).map some)) ∨
        w.1 = false ∧ c' = c ∧ g.content.getD [] ≠ [] ∧ h.failures < h'.failures) := by
  simp only [buildResponse]
  by_cases hempty : g.content.getD [] = []
  · have hzero : ¬ r.bufferSize > 0 := by
      rw [hr.size, hempty]
      exact Nat.lt_irrefl 0
    rw [if_neg hzero]
    refine meets_pure ⟨b, c, rfl, hb, Replaces.refl h _, .inl ⟨rfl, ?_⟩⟩
    rw [if_pos hempty]
  · have hpos : r.bufferSize > 0 := by
      rw [hr.size]
      exact List.length_pos_of_ne_nil hempty
    rcases hr.block with ⟨-, hnone⟩ | ⟨bytes, hbytes, hcell⟩
    · rw [hnone] at hempty
      exact absurd rfl hempty
    · have hheld : g.content.getD [] = bytes := by rw [hbytes]; rfl
      have hsize : r.bufferSize = bytes.length := by rw [hr.size, hheld]
      rw [if_pos hpos, hheld]
      rw [hheld] at hempty
      apply Meets.bind
      apply meets_load hcell (Nat.le_of_eq (by rw [List.length_map, hsize, Nat.zero_add]))
      have hread : (((bytes.map some).drop 0).take r.bufferSize).map (fun byte => byte.getD 0) = bytes := by
        rw [List.drop_zero, hsize, List.take_of_length_le (Nat.le_of_eq (List.length_map _)), List.map_map]
        exact List.map_id bytes
      rw [hread]
      apply Meets.bind
      have hreadable : ∀ source, some bytes = some source → r.bufferSize ≤ source.length := by
        rintro _ ⟨⟩
        exact Nat.le_of_eq hsize
      apply (bufferBuild_does hb hreadable).mono
      rintro w h' ⟨b', hw, hreplaces, c', hholds, hsettles⟩
      apply meets_pure
      refine ⟨b', c', hw, hholds, hreplaces, ?_⟩
      have hwanted : wantedBuild (some bytes) r.bufferSize = some (some (bytes.map some)) := by
        rw [wantedBuild, if_neg (Nat.ne_of_gt hpos), wantedCreate, Option.map_some, hsize, List.take_length]
      rw [hwanted] at hsettles
      cases hcode : (w.1 == 0) with
      | true =>
        rw [hcode] at hsettles
        rcases hsettles with hdone | hfailed
        cases hdone
        exact .inl ⟨rfl, (if_neg hempty).symm⟩
      | false =>
        rw [hcode] at hsettles
        rcases hsettles with hdone | hfailed
        exact .inr ⟨rfl, rfl, hempty, hfailed.resolve_left (Option.some_ne_none _)⟩

theorem reportResponse_meets (statusCode : Option Nat) (hr : Holding h r g) (hb : Holds h b c) :
    Meets (reportResponse x r statusCode (some b)) h (Reports x g statusCode b c h) := by
  unfold reportResponse
  by_cases hperformed : x.performed = false
  · rw [if_pos hperformed]
    have hrefusal : refusal x g = some .openRequestFailed := if_pos hperformed
    exact meets_pure ⟨b, c, rfl, hb, Replaces.refl h _, .refused hrefusal⟩
  · rw [if_neg hperformed]
    cases hcode : x.httpCode with
    | none =>
      have hrefusal : refusal x g = some .queryHeadersFailed := by
        rw [refusal, if_neg hperformed, if_pos hcode]
      exact meets_pure ⟨b, c, rfl, hb, Replaces.refl h _, .refused hrefusal⟩
    | some httpCode =>
      have hsome : ¬ x.httpCode = none := by
        rw [hcode]
        exact Option.some_ne_none _
      dsimp only
      cases hlost : r.error with
      | true =>
        have hrefusal : refusal x g = some .readDataFailed := by
          rw [refusal, if_neg hperformed, if_neg hsome, if_pos (hr.lost ▸ hlost)]
        rw [if_pos rfl]
        exact meets_pure ⟨b, c, rfl, hb, Replaces.refl h _, .refused hrefusal⟩
      | false =>
        have hrefusal : refusal x g = none := by
          rw [refusal, if_neg hperformed, if_neg hsome, ← hr.lost, hlost]
          rfl
        rw [if_neg Bool.false_ne_true]
        apply Meets.bind
        apply (buildResponse_meets hr hb).mono
        rintro ⟨built, handle⟩ h' ⟨b', c', hw, hholds, hreplaces, hbuilt⟩
        apply meets_pure
        refine ⟨b', c', hw, hholds, hreplaces, ?_⟩
        dsimp only at hbuilt ⊢
        rcases hbuilt with ⟨rfl, rfl⟩ | ⟨rfl, rfl, hbody, hmemory⟩
        · rw [if_pos rfl, ite_self]
          exact .received hrefusal hcode
        · rw [if_neg Bool.false_ne_true]
          exact .exhausted hrefusal hcode hbody hmemory

theorem reportResponse_lost (statusCode : Option Nat) (responseContent : Option Buffer) (hlost : r.error = true) :
    ∃ o, reportResponse x r statusCode responseContent h = some (o, h) := by
  unfold reportResponse
  split_ifs
  · exact ⟨_, rfl⟩
  · cases x.httpCode with
    | none => exact ⟨_, rfl⟩
    | some httpCode => exact ⟨_, rfl⟩

/-- The callback takes every piece. The function is undefined if and only if a block that holds bytes cannot be
made larger; otherwise the caller gets the whole body, or a reason why it does not and the buffer as it was, and no
other block is in use than before. -/
theorem receiveResponse_law (x : Exchange) (statusCode : Option Nat) (hb : Holds h b c) :
    (∀ d ∈ x.deliveries, ∀ r h₁ w h₂,
      contentWriteFunction (some d.data) d.size d.nmemb (some r) h₁ = some (w, h₂) → w.1 = d.size * d.nmemb) ∧
      (receiveResponse x statusCode (some b) h = none ↔ gather h.outcomes {} x.deliveries = none) ∧
      ∀ g outcomes, gather h.outcomes {} x.deliveries = some (g, outcomes) →
        Meets (receiveResponse x statusCode (some b)) h (Reports x g statusCode b c h) := by
  have hmeets : ∀ g outcomes, gather h.outcomes {} x.deliveries = some (g, outcomes) →
      Meets (receiveResponse x statusCode (some b)) h (Reports x g statusCode b c h) := by
    intro g outcomes hgather
    apply Meets.bind
    apply (perform_gathers x.deliveries (holding_start h) hgather).mono
    rintro r h₁ ⟨hr, hab⟩
    have hkept : Holds h₁ b c := view.frame hb fun v hv => hab.others _ v (Heap.ne_none_of_cell hv) hv
    apply Meets.bind
    apply (reportResponse_meets statusCode hr hkept).mono
    rintro o h₂ ⟨b', c', ho, hholds, hbc, hreceives⟩
    -- The block of the response is still there: it is not that of the caller's buffer.
    have hlive : r.buffer = none ∨ ∃ v, h₂.cell r.buffer = some v := by
      apply hr.freeable.imp_right
      rintro ⟨v, hv⟩
      refine ⟨v, hbc.others _ v ?_ hv⟩
      intro heq
      have hplace : view.place b ≠ none := by
        change b.buffer ≠ none
        rw [← heq]
        exact Heap.ne_none_of_cell hv
      rcases view.live hb hplace with ⟨u, hu⟩
      exact hab.place_ne (Heap.ne_none_of_cell hv) hu (Heap.ne_none_of_cell hu) heq
    apply meets_freeResponse hlive
    intro h₃ hcd
    refine ⟨b', c', ho, holds_around hb hab hr.freeable hbc hholds hcd, replaces_around hab hbc hcd, ?_⟩
    apply hreceives.mono
    intro hmemory
    have hbefore := hab.failures
    have hbehind := hcd.failures
    omega
  refine ⟨fun _ _ _ _ _ _ hcalled => contentWriteFunction_takes hcalled, ⟨?_, ?_⟩, hmeets⟩
  · intro hundefined
    cases hgather : gather h.outcomes {} x.deliveries with
    | none => rfl
    | some s =>
      rcases hmeets s.1 s.2 hgather with ⟨o, h', heq, -⟩
      rw [hundefined] at heq
      cases heq
  · intro hgather
    rcases perform_dangles x.deliveries (holding_start h) hgather with hnone | ⟨r, h₁, heq, hdangling⟩
    · exact bind_eq_none _ hnone
    · rcases reportResponse_lost (x := x) (h := h₁) statusCode (some b) hdangling.error with ⟨o, hreport⟩
      rw [receiveResponse, bind_eq_of_eq heq, bind_eq_of_eq hreport, if_pos hdangling.pointed]
      cases hbuffer : r.buffer with
      | none => exact absurd hbuffer hdangling.pointed
      | some a => exact bind_eq_none _ (free_dead (hbuffer ▸ hdangling.freed))

/-- Two pieces: with enough memory both are gathered; if the second finds none, the function is undefined. -/
theorem receiveResponse_law_two_pieces :
    ∃ first second : Delivery, first.data = [0x61] ∧ second.data = [0x62] ∧
      receiveResponse { deliveries := [first, second], performed := true, httpCode := some 200 } none
          (some { buffer := none, size := 0 }) { outcomes := [true, false] } = none ∧
      Meets (receiveResponse { deliveries := [first, second], performed := true, httpCode := some 200 } none
          (some { buffer := none, size := 0 })) {}
        (Reports { deliveries := [first, second], performed := true, httpCode := some 200 }
          { content := some [0x61, 0x62], lost := false } none { buffer := none, size := 0 } none {}) := by
  have hlaw := fun (h : BufferHeap) (deliveries : List Delivery) =>
    receiveResponse_law (h := h) (b := { buffer := none, size := 0 }) (c := none)
      { deliveries := deliveries, performed := true, httpCode := some 200 } none ⟨rfl, rfl⟩
  refine ⟨⟨[0x61], 1, 1, rfl, by decide⟩, ⟨[0x62], 1, 1, rfl, by decide⟩, rfl, rfl, ?_, ?_⟩
  · exact (hlaw { outcomes := [true, false] } _).2.1.2 (by decide)
  · exact (hlaw {} _).2.2 _ [] (by rfl)

end

end SharedUtility.HttpApiCurl
