import SharedUtility.HttpApiCompact.Segmentation

/-!
# Response — the response does not depend on the segmentation

* `httpApiExecuteRequestInternal_segmentation`: two segmentations of one stream that split no end of a
  line give the same response,
* `httpApiExecuteRequestInternal_together`: and either both calls return, or both wait forever. A call
  that waits has no handle at its end; `responseHandle` is the one with which it waits.
-/

namespace SharedUtility.HttpApiCompact

variable {Headers : Type} {addHeaderNameValuePair : Headers → Bytes → Bytes → Headers}
variable {uninitialised : Nat → UInt8} {maxReasonPhraseSize rounds size : Nat}
variable {c c1 c2 : HttpHandleData} {response : Response Headers}

/-- The same has come out of two calls, and reading can go on after a success. -/
structure StepSame {α : Type} (r1 r2 : HttpApiResult × α × HttpHandleData) : Prop where
  result : r1.1 = r2.1
  output : r1.2.1 = r2.2.1
  same : r1.1 = .ok → SameStream r1.2.2 r2.2.2

theorem SameStream.reset (h : SameStream c1 c2) :
    SameStream { c1 with isIoError := false } { c2 with isIoError := false } :=
  ⟨⟨rfl, h.first.work⟩, ⟨rfl, h.second.work⟩, h.stream⟩

theorem readLine_starts : c.lineStarts ⊆ (readLine tempBufferSize c).2.lineStarts := by
  rw [readLine_lineStarts]
  exact List.subset_append_left ..

/-! ## The status line -/

theorem receiveHeaderFromXio_handle :
    (receiveHeaderFromXio maxReasonPhraseSize c response).2.2 =
      (readLine tempBufferSize { c with isIoError := false }).2 := by
  unfold receiveHeaderFromXio
  dsimp only
  split
  · rfl
  split
  · rfl
  · rfl

theorem receiveHeaderFromXio_same (h : SameStream c1 c2)
    (hfine1 : Fine (receiveHeaderFromXio maxReasonPhraseSize c1 response).2.2)
    (hfine2 : Fine (receiveHeaderFromXio maxReasonPhraseSize c2 response).2.2) :
    StepSame (receiveHeaderFromXio maxReasonPhraseSize c1 response)
      (receiveHeaderFromXio maxReasonPhraseSize c2 response) := by
  rw [receiveHeaderFromXio_handle] at hfine1 hfine2
  rcases readLine_same h.reset hfine1 hfine2 with ⟨hline, hsame⟩
  unfold receiveHeaderFromXio
  dsimp only
  generalize readLine tempBufferSize { c1 with isIoError := false } = r1 at *
  generalize readLine tempBufferSize { c2 with isIoError := false } = r2 at *
  rcases r1 with ⟨line, d1⟩
  rcases r2 with ⟨line', d2⟩
  dsimp only at hline hsame
  subst hline
  cases line with
  | none => exact ⟨rfl, rfl, nofun⟩
  | some buf =>
    have hnext := hsame (Option.some_ne_none buf)
    dsimp only
    cases (parseHttpResponse (cString buf) maxReasonPhraseSize).1 with
    | none => exact ⟨rfl, rfl, nofun⟩
    | some ret => exact ⟨rfl, rfl, fun _ => hnext⟩

/-! ## The header lines -/

theorem receiveContentInfoLoop_starts {buf : Bytes} {info : ContentInfo} :
    c.lineStarts ⊆ (receiveContentInfoLoop addHeaderNameValuePair rounds buf info response
      c).2.2.lineStarts := by
  induction rounds generalizing buf info response c with
  | zero => exact List.Subset.refl _
  | succ rounds ih =>
    rw [receiveContentInfoLoop]
    dsimp only
    split
    · exact List.Subset.refl _
    split
    · exact List.Subset.refl _
    split
    · exact readLine_starts
    · exact List.Subset.trans readLine_starts ih

theorem receiveContentInfoLoop_rounds {n m : Nat} {buf : Bytes} {info : ContentInfo}
    (hn : c.stream.length < n) (hm : c.stream.length < m) :
    receiveContentInfoLoop addHeaderNameValuePair n buf info response c =
      receiveContentInfoLoop addHeaderNameValuePair m buf info response c := by
  induction n generalizing m buf info response c with
  | zero => omega
  | succ n ih =>
    cases m with
    | zero => omega
    | succ m =>
      rw [receiveContentInfoLoop, receiveContentInfoLoop]
      split
      · rfl
      cases contentInfoOf buf info with
      | none => rfl
      | some info =>
        dsimp only
        cases hread : (readLine tempBufferSize c).1 with
        | none => rfl
        | some text =>
          have hrest := readLine_shorter hread
          exact ih (by omega) (by omega)

theorem receiveContentInfoLoop_same {buf : Bytes} {info : ContentInfo} (h : SameStream c1 c2)
    (hfine1 : Fine (receiveContentInfoLoop addHeaderNameValuePair rounds buf info response c1).2.2)
    (hfine2 : Fine (receiveContentInfoLoop addHeaderNameValuePair rounds buf info response c2).2.2) :
    StepSame (receiveContentInfoLoop addHeaderNameValuePair rounds buf info response c1)
      (receiveContentInfoLoop addHeaderNameValuePair rounds buf info response c2) := by
  induction rounds generalizing buf info response c1 c2 with
  | zero => exact ⟨rfl, rfl, fun _ => h⟩
  | succ rounds ih =>
    rw [receiveContentInfoLoop] at hfine1 hfine2 ⊢
    rw [receiveContentInfoLoop]
    by_cases hempty : buf.isEmpty = true
    · rw [if_pos hempty, if_pos hempty]
      exact ⟨rfl, rfl, fun _ => h⟩
    rw [if_neg hempty] at hfine1 hfine2 ⊢
    rw [if_neg hempty]
    cases hinfo : contentInfoOf buf info with
    | none => exact ⟨rfl, rfl, by rintro ⟨⟩⟩
    | some info' =>
      rw [hinfo] at hfine1 hfine2
      dsimp only at hfine1 hfine2 ⊢
      -- The next line is read, whatever it is.
      have hread1 : Fine (readLine tempBufferSize c1).2 := by
        split at hfine1
        · exact hfine1
        · exact hfine1.earlier receiveContentInfoLoop_starts
      have hread2 : Fine (readLine tempBufferSize c2).2 := by
        split at hfine2
        · exact hfine2
        · exact hfine2.earlier receiveContentInfoLoop_starts
      rcases readLine_same h hread1 hread2 with ⟨hline, hsame⟩
      generalize readLine tempBufferSize c1 = r1 at *
      generalize readLine tempBufferSize c2 = r2 at *
      rcases r1 with ⟨line, d1⟩
      rcases r2 with ⟨line', d2⟩
      dsimp only at hline hsame
      subst hline
      cases line with
      | none => exact ⟨rfl, rfl, by rintro ⟨⟩⟩
      | some buf => exact ih (hsame (Option.some_ne_none buf)) hfine1 hfine2

theorem receiveContentInfoFromXio_starts :
    c.lineStarts ⊆ (receiveContentInfoFromXio addHeaderNameValuePair c response).2.2.lineStarts := by
  unfold receiveContentInfoFromXio
  have hread : c.lineStarts ⊆
      (readLine tempBufferSize { c with isIoError := false }).2.lineStarts :=
    readLine_starts (c := { c with isIoError := false })
  dsimp only
  split
  · exact hread
  · exact List.Subset.trans hread receiveContentInfoLoop_starts

theorem receiveContentInfoFromXio_same (h : SameStream c1 c2)
    (hfine1 : Fine (receiveContentInfoFromXio addHeaderNameValuePair c1 response).2.2)
    (hfine2 : Fine (receiveContentInfoFromXio addHeaderNameValuePair c2 response).2.2) :
    StepSame (receiveContentInfoFromXio addHeaderNameValuePair c1 response)
      (receiveContentInfoFromXio addHeaderNameValuePair c2 response) := by
  have hread : ∀ {d : HttpHandleData},
      Fine (receiveContentInfoFromXio addHeaderNameValuePair d response).2.2 →
        Fine (readLine tempBufferSize { d with isIoError := false }).2 := by
    intro d hfine
    unfold receiveContentInfoFromXio at hfine
    dsimp only at hfine
    split at hfine
    · exact hfine
    · exact hfine.earlier receiveContentInfoLoop_starts
  rcases readLine_same h.reset (hread hfine1) (hread hfine2) with ⟨hline, hsame⟩
  clear hread
  unfold receiveContentInfoFromXio at hfine1 hfine2 ⊢
  dsimp only at hfine1 hfine2 ⊢
  generalize readLine tempBufferSize { c1 with isIoError := false } = r1 at *
  generalize readLine tempBufferSize { c2 with isIoError := false } = r2 at *
  rcases r1 with ⟨line, d1⟩
  rcases r2 with ⟨line', d2⟩
  dsimp only at hline hsame
  subst hline
  cases line with
  | none => exact ⟨rfl, rfl, nofun⟩
  | some buf =>
    have hnext := hsame (Option.some_ne_none buf)
    dsimp only at hfine1 hfine2 ⊢
    rw [← hnext.stream] at hfine2 ⊢
    exact receiveContentInfoLoop_same hnext hfine1 hfine2

/-! ## The body -/

theorem readChunkEnd_together (h : SameStream c1 c2) :
    Option.Rel (fun r1 r2 => r1.1 = r2.1 ∧ SameStream r1.2 r2.2) (readChunkEnd c1)
      (readChunkEnd c2) := by
  unfold readChunkEnd
  have hread := readChunk_together 2 h
  generalize readChunk 2 c1 = read1 at hread
  generalize readChunk 2 c2 = read2 at hread
  cases hread with
  | none => exact .none
  | some hread => exact .some ⟨by simp only [hread.result, hread.bytes], hread.same⟩

/-- The handle when the loop over the chunks returns, or when it waits forever. -/
def chunksHandle (uninitialised : Nat → UInt8) :
    (rounds size : Nat) → Response Headers → HttpHandleData → HttpHandleData
  | 0, _, _, c => c
  | rounds + 1, size, response, c =>
    let r := readLine tempBufferSize c
    match r.1 with
    | none => r.2
    | some buf =>
      match parseStringToHexadecimal (cString buf) with
      | none => r.2
      | some 0 => ((readChunkEnd r.2).map (·.2)).getD r.2
      | some chunkSize =>
        match bufferEnlarge uninitialised response.content chunkSize with
        | none => r.2
        | some content =>
          match readChunk chunkSize r.2 with
          | none => r.2
          | some (result, bytes, c) =>
            let content := writeAt content size bytes
            if result < 0 then c
            else
              match readChunkEnd c with
              | none => c
              | some (false, c) => c
              | some (true, c) =>
                chunksHandle uninitialised rounds (size + chunkSize)
                  { response with
                    content := some content
                    chunksReceived := response.chunksReceived ++
                      [(content.drop size).take chunkSize] } c

theorem chunksHandle_of_some {r : HttpApiResult × Response Headers × HttpHandleData}
    (h : readChunksLoop uninitialised rounds size response c = some r) :
    chunksHandle uninitialised rounds size response c = r.2.2 := by
  induction rounds generalizing size response c with
  | zero => cases h
  | succ rounds ih =>
    rw [readChunksLoop] at h
    rw [chunksHandle]
    dsimp only at h ⊢
    cases hline : (readLine tempBufferSize c).1 with
    | none =>
      rw [hline] at h
      cases Option.some.inj h
      rfl
    | some buf =>
      rw [hline] at h
      dsimp only at h ⊢
      cases hparsed : parseStringToHexadecimal (cString buf) with
      | none =>
        rw [hparsed] at h
        cases Option.some.inj h
        rfl
      | some chunkSize =>
        rw [hparsed] at h
        cases chunkSize with
        | zero =>
          cases hend : readChunkEnd (readLine tempBufferSize c).2 with
          | none =>
            rw [hend] at h
            cases h
          | some read =>
            rw [hend] at h
            rcases read with ⟨good, d⟩
            cases good <;> cases Option.some.inj h <;> rfl
        | succ chunkSize =>
          cases hcontent : bufferEnlarge uninitialised response.content (chunkSize + 1) with
          | none =>
            simp only [hcontent] at h ⊢
            cases Option.some.inj h
            rfl
          | some content =>
            simp only [hcontent] at h ⊢
            cases hread : readChunk (chunkSize + 1) (readLine tempBufferSize c).2 with
            | none =>
              rw [hread] at h
              cases h
            | some read =>
              rw [hread] at h
              rcases read with ⟨result, bytes, d⟩
              dsimp only at h ⊢
              by_cases hnegative : result < 0
              · rw [if_pos hnegative] at h ⊢
                cases Option.some.inj h
                rfl
              · rw [if_neg hnegative] at h ⊢
                cases hend : readChunkEnd d with
                | none =>
                  rw [hend] at h
                  cases h
                | some read =>
                  rw [hend] at h
                  rcases read with ⟨good, d'⟩
                  cases good with
                  | false =>
                    cases Option.some.inj h
                    rfl
                  | true => exact ih h

theorem chunksHandle_starts :
    c.lineStarts ⊆ (chunksHandle uninitialised rounds size response c).lineStarts ∧
      (rounds ≠ 0 → (readLine tempBufferSize c).2.lineStarts ⊆
        (chunksHandle uninitialised rounds size response c).lineStarts) := by
  induction rounds generalizing size response c with
  | zero => exact ⟨List.Subset.refl _, fun h => absurd rfl h⟩
  | succ rounds ih =>
    have hgrown : (readLine tempBufferSize c).2.lineStarts ⊆
        (chunksHandle uninitialised (rounds + 1) size response c).lineStarts := by
      rw [chunksHandle]
      dsimp only
      split
      · exact List.Subset.refl _
      split
      · exact List.Subset.refl _
      · -- The last chunk.
        cases hend : readChunkEnd (readLine tempBufferSize c).2 with
        | none => exact List.Subset.refl _
        | some r =>
          refine List.Subset.trans ?_ (List.Subset.refl r.2.lineStarts)
          rw [(readChunkEnd_forward hend).starts]
          exact List.Subset.refl _
      · split
        · exact List.Subset.refl _
        split
        · exact List.Subset.refl _
        rename_i hread
        have hstarts := (readChunkLoop_forward hread).starts
        rw [← hstarts]
        split
        · exact List.Subset.refl _
        split
        · exact List.Subset.refl _
        · rename_i hend
          rw [← (readChunkEnd_forward hend).starts]
          exact List.Subset.refl _
        · rename_i hend
          rw [← (readChunkEnd_forward hend).starts]
          exact ih.1
    exact ⟨List.Subset.trans readLine_starts hgrown, fun _ => hgrown⟩

theorem readChunksLoop_rounds {n m : Nat} (hn : c.stream.length < n) (hm : c.stream.length < m) :
    readChunksLoop uninitialised n size response c =
      readChunksLoop uninitialised m size response c := by
  induction n generalizing m size response c with
  | zero => omega
  | succ n ih =>
    cases m with
    | zero => omega
    | succ m =>
      rw [readChunksLoop, readChunksLoop]
      dsimp only
      cases hread : (readLine tempBufferSize c).1 with
      | none => rfl
      | some text =>
        have hrest := readLine_shorter hread
        generalize (readLine tempBufferSize c).2 = d at hrest
        dsimp only
        cases parseStringToHexadecimal (cString text) with
        | none => rfl
        | some chunkSize =>
          cases chunkSize with
          | zero => rfl
          | succ chunkSize =>
            cases hcontent : bufferEnlarge uninitialised response.content (chunkSize + 1) with
            | none => simp only [hcontent]
            | some content =>
              simp only [hcontent]
              cases hchunk : readChunk (chunkSize + 1) d with
              | none => rfl
              | some read =>
                have hforward := (readChunkLoop_forward hchunk).stream
                dsimp only
                split
                · rfl
                cases hend : readChunkEnd read.2.2 with
                | none => rfl
                | some read' =>
                  have hforward' := (readChunkEnd_forward hend).stream
                  rcases read' with ⟨good, d'⟩
                  dsimp only at hforward'
                  cases good with
                  | false => rfl
                  | true => exact ih (by omega) (by omega)

/-- What two calls that have both returned give the caller. -/
def SameResponse (r1 r2 : HttpApiResult × Response Headers × HttpHandleData) : Prop :=
  r1.1 = r2.1 ∧ r1.2.1 = r2.2.1

theorem readChunksLoop_together (h : SameStream c1 c2)
    (hfine1 : Fine (chunksHandle uninitialised rounds size response c1))
    (hfine2 : Fine (chunksHandle uninitialised rounds size response c2)) :
    Option.Rel SameResponse (readChunksLoop uninitialised rounds size response c1)
      (readChunksLoop uninitialised rounds size response c2) := by
  induction rounds generalizing size response c1 c2 with
  | zero => exact .none
  | succ rounds ih =>
    have hread1 := hfine1.earlier (chunksHandle_starts.2 (Nat.succ_ne_zero _))
    have hread2 := hfine2.earlier (chunksHandle_starts.2 (Nat.succ_ne_zero _))
    rcases readLine_same h hread1 hread2 with ⟨hline, hsame⟩
    rw [chunksHandle] at hfine1 hfine2
    rw [readChunksLoop, readChunksLoop]
    dsimp only at hfine1 hfine2 ⊢
    clear hread1 hread2
    generalize readLine tempBufferSize c1 = read1 at *
    generalize readLine tempBufferSize c2 = read2 at *
    rcases read1 with ⟨line, d1⟩
    rcases read2 with ⟨line', d2⟩
    dsimp only at hline hsame hfine1 hfine2 ⊢
    subst hline
    cases line with
    | none => exact .some ⟨rfl, rfl⟩
    | some buf =>
      have hnext := hsame (Option.some_ne_none buf)
      dsimp only at hfine1 hfine2 ⊢
      cases hparsed : parseStringToHexadecimal (cString buf) with
      | none => exact .some ⟨rfl, rfl⟩
      | some chunkSize =>
        rw [hparsed] at hfine1 hfine2
        cases chunkSize with
        | zero =>
          have hend := readChunkEnd_together hnext
          generalize readChunkEnd d1 = end1 at hend ⊢
          generalize readChunkEnd d2 = end2 at hend ⊢
          cases hend with
          | none => exact .none
          | @some end1 end2 hend =>
            rcases end1 with ⟨good, e1⟩
            rcases end2 with ⟨good', e2⟩
            rcases hend with ⟨rfl, -⟩
            cases good with
            | true => exact .some ⟨rfl, rfl⟩
            | false => exact .some ⟨rfl, rfl⟩
        | succ chunkSize =>
          cases hcontent : bufferEnlarge uninitialised response.content (chunkSize + 1) with
          | none =>
            simp only [hcontent]
            exact .some ⟨rfl, rfl⟩
          | some content =>
            simp only [hcontent] at hfine1 hfine2 ⊢
            have hread := readChunk_together (chunkSize + 1) hnext
            generalize readChunk (chunkSize + 1) d1 = read1 at hread hfine1 ⊢
            generalize readChunk (chunkSize + 1) d2 = read2 at hread hfine2 ⊢
            cases hread with
            | none => exact .none
            | @some read1 read2 hread =>
              rcases read1 with ⟨result, bytes, e1⟩
              rcases read2 with ⟨result', bytes', e2⟩
              rcases hread with ⟨rfl, rfl, hbehind⟩
              dsimp only at hfine1 hfine2 ⊢
              split
              case isTrue => exact .some ⟨rfl, rfl⟩
              case isFalse hnegative =>
                rw [if_neg hnegative] at hfine1 hfine2
                have hend := readChunkEnd_together hbehind
                generalize readChunkEnd e1 = end1 at hend hfine1 ⊢
                generalize readChunkEnd e2 = end2 at hend hfine2 ⊢
                cases hend with
                | none => exact .none
                | @some end1 end2 hend =>
                  rcases end1 with ⟨good, f1⟩
                  rcases end2 with ⟨good', f2⟩
                  rcases hend with ⟨rfl, hrest⟩
                  cases good with
                  | false => exact .some ⟨rfl, rfl⟩
                  | true => exact ih hrest hfine1 hfine2

/-- The handle when the reading of the body returns, or when it waits forever. -/
def bodyHandle (uninitialised : Nat → UInt8) (info : ContentInfo) (response : Response Headers)
    (c : HttpHandleData) : HttpHandleData :=
  let c := { c with isIoError := false }
  if info.chunked then chunksHandle uninitialised (c.stream.length + 1) 0 response c
  else if info.bodyLength = 0 then c
  else
    match bufferPreBuild uninitialised response.content info.bodyLength with
    | none => c
    | some _ => ((readChunk info.bodyLength c).map (·.2.2)).getD c

theorem bodyHandle_of_some {info : ContentInfo}
    {r : HttpApiResult × Response Headers × HttpHandleData}
    (h : readHTTPResponseBodyFromXio uninitialised info response c = some r) :
    bodyHandle uninitialised info response c = r.2.2 := by
  unfold readHTTPResponseBodyFromXio at h
  unfold bodyHandle
  dsimp only at h ⊢
  by_cases hchunked : info.chunked = true
  · rw [if_pos hchunked] at h ⊢
    exact chunksHandle_of_some h
  rw [if_neg hchunked] at h ⊢
  by_cases hempty : info.bodyLength = 0
  · rw [if_pos hempty] at h ⊢
    cases Option.some.inj h
    rfl
  rw [if_neg hempty] at h ⊢
  cases hcontent : bufferPreBuild uninitialised response.content info.bodyLength with
  | none =>
    rw [hcontent] at h
    cases Option.some.inj h
    rfl
  | some content =>
    rw [hcontent] at h
    dsimp only at h ⊢
    cases hread : readChunk info.bodyLength { c with isIoError := false } with
    | none =>
      rw [hread] at h
      cases h
    | some read =>
      rw [hread] at h
      rcases read with ⟨result, bytes, d⟩
      dsimp only at h ⊢
      split at h <;> cases Option.some.inj h <;> rfl

theorem bodyHandle_starts {info : ContentInfo} :
    c.lineStarts ⊆ (bodyHandle uninitialised info response c).lineStarts := by
  unfold bodyHandle
  dsimp only
  split
  · exact (chunksHandle_starts (c := { c with isIoError := false })).1
  split
  · exact List.Subset.refl _
  split
  · exact List.Subset.refl _
  · cases hread : readChunk info.bodyLength { c with isIoError := false } with
    | none => exact List.Subset.refl _
    | some r =>
      have hstarts := (readChunkLoop_forward hread).starts
      refine List.Subset.trans ?_ (List.Subset.refl r.2.2.lineStarts)
      rw [hstarts]
      exact List.Subset.refl _

theorem readHTTPResponseBodyFromXio_together {info : ContentInfo} (h : SameStream c1 c2)
    (hfine1 : Fine (bodyHandle uninitialised info response c1))
    (hfine2 : Fine (bodyHandle uninitialised info response c2)) :
    Option.Rel SameResponse (readHTTPResponseBodyFromXio uninitialised info response c1)
      (readHTTPResponseBodyFromXio uninitialised info response c2) := by
  unfold bodyHandle at hfine1 hfine2
  unfold readHTTPResponseBodyFromXio
  dsimp only at hfine1 hfine2 ⊢
  split
  case isTrue hchunked =>
    rw [if_pos hchunked] at hfine1 hfine2
    rw [← h.reset.stream] at hfine2 ⊢
    exact readChunksLoop_together h.reset hfine1 hfine2
  split
  · exact .some ⟨rfl, rfl⟩
  cases bufferPreBuild uninitialised response.content info.bodyLength with
  | none => exact .some ⟨rfl, rfl⟩
  | some content =>
    have hread := readChunk_together info.bodyLength h.reset
    dsimp only
    generalize readChunk info.bodyLength { c1 with isIoError := false } = read1 at hread ⊢
    generalize readChunk info.bodyLength { c2 with isIoError := false } = read2 at hread ⊢
    cases hread with
    | none => exact .none
    | @some read1 read2 hread =>
      rcases read1 with ⟨result, bytes, d1⟩
      rcases read2 with ⟨result', bytes', d2⟩
      rcases hread with ⟨rfl, rfl, -⟩
      dsimp only
      split
      · exact .some ⟨rfl, rfl⟩
      · exact .some ⟨rfl, rfl⟩

/-! ## The whole response -/

/-- The handle when the response has been received, or when the call waits forever. -/
def responseHandle (addHeaderNameValuePair : Headers → Bytes → Bytes → Headers)
    (uninitialised : Nat → UInt8) (maxReasonPhraseSize : Nat) (response : Response Headers)
    (c : HttpHandleData) : HttpHandleData :=
  let header := receiveHeaderFromXio maxReasonPhraseSize c response
  if header.1 ≠ .ok then header.2.2
  else
    let info := receiveContentInfoFromXio addHeaderNameValuePair header.2.2 header.2.1
    if info.1 ≠ .ok then info.2.2
    else bodyHandle uninitialised info.2.1.1 info.2.1.2 info.2.2

theorem responseHandle_of_some {r : HttpApiResult × Response Headers × HttpHandleData}
    (h : receiveResponse addHeaderNameValuePair uninitialised maxReasonPhraseSize response c =
      some r) :
    responseHandle addHeaderNameValuePair uninitialised maxReasonPhraseSize response c = r.2.2 := by
  unfold receiveResponse at h
  unfold responseHandle
  dsimp only at h ⊢
  split at h
  case isTrue hfailed =>
    rw [if_pos hfailed]
    cases Option.some.inj h
    rfl
  case isFalse hok =>
    rw [if_neg hok]
    split at h
    case isTrue hfailed =>
      rw [if_pos hfailed]
      cases Option.some.inj h
      rfl
    case isFalse hok' =>
      rw [if_neg hok']
      exact bodyHandle_of_some h

theorem receiveResponse_together (h : SameStream c1 c2)
    (hfine1 : Fine (responseHandle addHeaderNameValuePair uninitialised maxReasonPhraseSize response
      c1))
    (hfine2 : Fine (responseHandle addHeaderNameValuePair uninitialised maxReasonPhraseSize response
      c2)) :
    Option.Rel SameResponse
      (receiveResponse addHeaderNameValuePair uninitialised maxReasonPhraseSize response c1)
      (receiveResponse addHeaderNameValuePair uninitialised maxReasonPhraseSize response c2) := by
  -- what has been read earlier is fine, too
  have hheaderFine {c : HttpHandleData} (hfine : Fine (responseHandle addHeaderNameValuePair
      uninitialised maxReasonPhraseSize response c)) :
      Fine (receiveHeaderFromXio maxReasonPhraseSize c response).2.2 := by
    unfold responseHandle at hfine
    dsimp only at hfine
    split at hfine
    · exact hfine
    split at hfine
    · exact hfine.earlier receiveContentInfoFromXio_starts
    · exact hfine.earlier (List.Subset.trans receiveContentInfoFromXio_starts bodyHandle_starts)
  have hheader := receiveHeaderFromXio_same h (hheaderFine hfine1) (hheaderFine hfine2)
  clear hheaderFine
  unfold responseHandle at hfine1 hfine2
  unfold receiveResponse
  generalize receiveHeaderFromXio maxReasonPhraseSize c1 response = header1 at *
  generalize receiveHeaderFromXio maxReasonPhraseSize c2 response = header2 at *
  rcases header1 with ⟨result, response', d1⟩
  rcases header2 with ⟨result', response'', d2⟩
  rcases hheader with ⟨hresult, houtput, hsame⟩
  dsimp only at hresult houtput hsame hfine1 hfine2 ⊢
  subst hresult houtput
  split
  case isTrue => exact .some ⟨rfl, rfl⟩
  case isFalse hok =>
    rw [if_neg hok] at hfine1 hfine2
    have hinfoFine {d : HttpHandleData}
        (hfine : Fine (if (receiveContentInfoFromXio addHeaderNameValuePair d response').1 ≠ .ok then
            (receiveContentInfoFromXio addHeaderNameValuePair d response').2.2
          else bodyHandle uninitialised
            (receiveContentInfoFromXio addHeaderNameValuePair d response').2.1.1
            (receiveContentInfoFromXio addHeaderNameValuePair d response').2.1.2
            (receiveContentInfoFromXio addHeaderNameValuePair d response').2.2)) :
        Fine (receiveContentInfoFromXio addHeaderNameValuePair d response').2.2 := by
      split at hfine
      · exact hfine
      · exact hfine.earlier bodyHandle_starts
    have hinfo := receiveContentInfoFromXio_same (hsame (not_not.1 hok)) (hinfoFine hfine1)
      (hinfoFine hfine2)
    clear hinfoFine
    generalize receiveContentInfoFromXio addHeaderNameValuePair d1 response' = info1 at *
    generalize receiveContentInfoFromXio addHeaderNameValuePair d2 response' = info2 at *
    rcases info1 with ⟨result, output, e1⟩
    rcases info2 with ⟨result', output', e2⟩
    rcases hinfo with ⟨hresult, houtput, hnext⟩
    dsimp only at hresult houtput hnext hfine1 hfine2 ⊢
    subst hresult houtput
    split
    case isTrue => exact .some ⟨rfl, rfl⟩
    case isFalse hok' =>
      rw [if_neg hok'] at hfine1 hfine2
      exact readHTTPResponseBodyFromXio_together (hnext (not_not.1 hok')) hfine1 hfine2

/-- A connection on which `received` has been received, and the chunks are to come. -/
def connection (received : Bytes) (chunks : List Bytes) : HttpHandleData :=
  { receivedBytes := received, work := chunks.map .bytes }

theorem connection_stream {received : Bytes} {chunks : List Bytes} :
    (connection received chunks).stream = received ++ chunks.flatten := by
  have hcome : bytesToCome (chunks.map .bytes) = chunks.flatten := by
    induction chunks with
    | nil => rfl
    | cons chunk chunks ih => rw [List.map_cons, bytesToCome, ih, List.flatten_cons]
  rw [connection, HttpHandleData.stream, hcome]

theorem connection_healthy {received : Bytes} {chunks : List Bytes} :
    Healthy (connection received chunks) := by
  refine ⟨rfl, ?_⟩
  intro w hw
  rcases List.mem_map.1 hw with ⟨chunk, -, rfl⟩
  exact nofun

theorem connection_same {received1 received2 : Bytes} {chunks1 chunks2 : List Bytes}
    (hstream : received1 ++ chunks1.flatten = received2 ++ chunks2.flatten) :
    SameStream (connection received1 chunks1) (connection received2 chunks2) := by
  refine ⟨connection_healthy, connection_healthy, ?_⟩
  rw [connection_stream, connection_stream, hstream]

theorem httpApiExecuteRequestInternal_together {sent : HttpApiResult} {received1 received2 : Bytes}
    {chunks1 chunks2 : List Bytes}
    (hstream : received1 ++ chunks1.flatten = received2 ++ chunks2.flatten)
    (hfine1 : Fine (responseHandle addHeaderNameValuePair uninitialised maxReasonPhraseSize response
      (connection received1 chunks1)))
    (hfine2 : Fine (responseHandle addHeaderNameValuePair uninitialised maxReasonPhraseSize response
      (connection received2 chunks2))) :
    Option.Rel SameResponse
      (httpApiExecuteRequestInternal addHeaderNameValuePair uninitialised maxReasonPhraseSize sent
        response (connection received1 chunks1))
      (httpApiExecuteRequestInternal addHeaderNameValuePair uninitialised maxReasonPhraseSize sent
        response (connection received2 chunks2)) := by
  unfold httpApiExecuteRequestInternal
  dsimp only
  split
  · exact .some ⟨rfl, rfl⟩
  · have hresponse := receiveResponse_together (connection_same hstream) hfine1 hfine2
    generalize receiveResponse addHeaderNameValuePair uninitialised maxReasonPhraseSize response
      (connection received1 chunks1) = r1 at hresponse ⊢
    generalize receiveResponse addHeaderNameValuePair uninitialised maxReasonPhraseSize response
      (connection received2 chunks2) = r2 at hresponse ⊢
    cases hresponse with
    | none => exact .none
    | some hsame => exact .some hsame

/-- Two segmentations of one stream, of which neither splits the end of a line that `readLine`
reads. -/
theorem httpApiExecuteRequestInternal_segmentation {sent : HttpApiResult}
    {received1 received2 : Bytes} {chunks1 chunks2 : List Bytes}
    {r1 r2 : HttpApiResult × Response Headers × HttpHandleData}
    (hstream : received1 ++ chunks1.flatten = received2 ++ chunks2.flatten)
    (h1 : httpApiExecuteRequestInternal addHeaderNameValuePair uninitialised maxReasonPhraseSize sent
      response (connection received1 chunks1) = some r1)
    (h2 : httpApiExecuteRequestInternal addHeaderNameValuePair uninitialised maxReasonPhraseSize sent
      response (connection received2 chunks2) = some r2)
    (htimeout1 : NoTimeout r1.2.2) (htimeout2 : NoTimeout r2.2.2)
    (hsplit1 : NoSplitLineEnd r1.2.2) (hsplit2 : NoSplitLineEnd r2.2.2) :
    r1.1 = r2.1 ∧ r1.2.1 = r2.2.1 := by
  unfold httpApiExecuteRequestInternal at h1 h2
  rcases Option.map_eq_some_iff.1 h1 with ⟨r1', hr1, rfl⟩
  rcases Option.map_eq_some_iff.1 h2 with ⟨r2', hr2, rfl⟩
  by_cases hsent : sent = .ok
  · rw [if_neg (not_not_intro hsent)] at hr1 hr2
    have hfine1 : Fine r1'.2.2 := ⟨htimeout1, hsplit1⟩
    have hfine2 : Fine r2'.2.2 := ⟨htimeout2, hsplit2⟩
    rw [← responseHandle_of_some hr1] at hfine1
    rw [← responseHandle_of_some hr2] at hfine2
    have hresponse := receiveResponse_together (connection_same hstream) hfine1 hfine2
    rw [hr1, hr2] at hresponse
    cases hresponse with
    | some hsame => exact hsame
  · rw [if_pos hsent] at hr1 hr2
    cases Option.some.inj hr1
    cases Option.some.inj hr2
    exact ⟨rfl, rfl⟩

/-- The response to a request, with the list of the header lines. -/
def responseTo (chunks : List Bytes) :
    Option (HttpApiResult × Response (List (Bytes × Bytes)) × HttpHandleData) :=
  httpApiExecuteRequestInternal (fun headers name value => headers ++ [(name, value)]) (fun _ => 0) 0
    .ok { headers := some [], content := none } (connection [] chunks)

/-- A header line, and the body, in two parts. -/
theorem responseTo_split_header_line :
    ∃ r1 r2, responseTo [ascii "HTTP/1.1 200 OK\r\nContent-Length: 2\r\n\r\nhi"] = some r1 ∧
      responseTo [ascii "HTTP/1.1 200 OK\r\nContent-Le", ascii "ngth: 2\r\n\r\nh", ascii "i"] =
        some r2 ∧ r1.1 = r2.1 ∧ r1.2.1 = r2.2.1 := by
  have hends : ∀ r : Option (HttpApiResult × Response (List (Bytes × Bytes)) × HttpHandleData),
      (r.any fun r => r.2.2.lineStarts.all fun start =>
        lineEnd start != .timeout && lineEnd start != .split) = true →
      ∃ r', r = some r' ∧ NoTimeout r'.2.2 ∧ NoSplitLineEnd r'.2.2 := by
    intro r h
    rcases r with _ | r
    · cases h
    · have hall := List.all_eq_true.1 h
      simp only [Bool.and_eq_true, bne_iff_ne] at hall
      exact ⟨r, rfl, fun start hstart => (hall start hstart).1, fun start hstart => (hall start hstart).2⟩
  rcases hends (responseTo [ascii "HTTP/1.1 200 OK\r\nContent-Length: 2\r\n\r\nhi"])
    (by decide +kernel) with ⟨r1, h1, htimeout1, hsplit1⟩
  rcases hends (responseTo [ascii "HTTP/1.1 200 OK\r\nContent-Le", ascii "ngth: 2\r\n\r\nh",
    ascii "i"]) (by decide +kernel) with ⟨r2, h2, htimeout2, hsplit2⟩
  exact ⟨r1, r2, h1, h2, httpApiExecuteRequestInternal_segmentation (by decide) h1 h2 htimeout1
    htimeout2 hsplit1 hsplit2⟩

/-- Behind the split end of the status line, the content length is not recognised. -/
theorem responseTo_split_status_line :
    (responseTo [ascii "HTTP/1.1 200 OK\r\nContent-Length: 2\r\n\r\nhi"]).map (·.2.1) = some {
        statusCode := some 200
        headers := some [(ascii "Content-Length", ascii " 2")]
        content := some (ascii "hi")
        chunksReceived := [ascii "hi"] } ∧
      (responseTo [ascii "HTTP/1.1 200 OK\r", ascii "\nContent-Length: 2\r\n\r\nhi"]).map (·.2.1) =
        some {
          statusCode := some 200
          headers := some [(ascii "\nContent-Length", ascii " 2")]
          content := none } ∧
      ∀ r ∈ responseTo [ascii "HTTP/1.1 200 OK\r", ascii "\nContent-Length: 2\r\n\r\nhi"],
        ∀ start ∈ r.2.2.lineStarts, lineEnd start ≠ .timeout := by
  decide +kernel

end SharedUtility.HttpApiCompact
