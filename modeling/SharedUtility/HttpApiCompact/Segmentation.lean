import SharedUtility.HttpApiCompact.Code

/-!
# Segmentation — reading off a stream of bytes

* `scanLine_append`: what the line reader makes of a text that comes in two parts,
* `readLineLoop_line`: a line is read off the stream, or an LF that belongs to it is left there,
* `readLine_same`, `readChunk_together`: two connections with the same stream read the same.
-/

namespace SharedUtility.HttpApiCompact

/-! ## How a call of `readLine` ends -/

inductive LineEnd
  /-- The line has ended, and its end has been read. -/
  | whole
  /-- The CR is the last byte received, and an LF is the next one to come. -/
  | split
  | tooLong
  | timeout
  | ioError
  deriving DecidableEq, Repr

/-- The first CR of the text is its last byte. -/
def endsAtCr (text : Bytes) : Bool :=
  text.dropWhile (· != 0x0D) == [0x0D]

def lineEndLoop (maxBufSize : Nat) : (countRetry : Nat) → (line : Bytes) → HttpHandleData → LineEnd
  | countRetry, line, c =>
    let c := xioDowork c
    if c.isIoError then .ioError
    else
      match scanLine maxBufSize line c.receivedBytes with
      | .line _ _ =>
        if endsAtCr c.receivedBytes && (bytesToCome c.work).head? = some 0x0A then .split
        else .whole
      | .tooLong => .tooLong
      | .more line =>
        match countRetry with
        | 0 => .timeout
        | countRetry + 1 => lineEndLoop maxBufSize countRetry line { c with receivedBytes := [] }

/-- How the call of `readLine` ends that starts with these bytes received, and this to come. -/
def lineEnd (start : Bytes × List Work) : LineEnd :=
  lineEndLoop tempBufferSize maxReceiveRetry [] { receivedBytes := start.1, work := start.2 }

/-- No call has timed out. -/
def NoTimeout (c : HttpHandleData) : Prop :=
  ∀ start ∈ c.lineStarts, lineEnd start ≠ .timeout

/-- No call has ended between a CR and its LF. -/
def NoSplitLineEnd (c : HttpHandleData) : Prop :=
  ∀ start ∈ c.lineStarts, lineEnd start ≠ .split

/-! ## Lines of a stream -/

section

variable {m : Nat} {line text tail : Bytes}

theorem endsAtCr_cons_of_ne {c : UInt8} (h : c ≠ 0x0D) : endsAtCr (c :: text) = endsAtCr text := by
  have hdrop : (c :: text).dropWhile (· != 0x0D) = text.dropWhile (· != 0x0D) :=
    List.dropWhile_cons_of_pos (bne_iff_ne.2 h)
  rw [endsAtCr, hdrop, endsAtCr]

theorem scanLine_rest {l rest : Bytes} (h : scanLine m line text = .line l rest)
    (hends : endsAtCr text = true) : rest = [] := by
  induction text generalizing line with
  | nil => cases h
  | cons c text ih =>
    rw [scanLine] at h
    by_cases hc : c = 0x0D
    · subst hc
      have htext : text = [] := by simpa [endsAtCr] using hends
      simp only [ne_eq, not_true_eq_false, if_false, htext] at h
      cases h
      rfl
    · rw [endsAtCr_cons_of_ne hc] at hends
      simp only [ne_eq, hc, not_false_eq_true, if_true] at h
      split at h
      · cases h
      · exact ih h hends

theorem scanLine_shorter {l rest : Bytes} (h : scanLine m line text = .line l rest) :
    rest.length < text.length := by
  induction text generalizing line with
  | nil => cases h
  | cons c text ih =>
    rw [scanLine] at h
    split at h
    · split at h
      · cases h
      · exact Nat.lt_succ_of_lt (ih h)
    · cases h
      split
      · simp only [List.length_drop, List.length_cons]
        omega
      · exact Nat.lt_succ_self _

theorem scanLine_append :
    scanLine m line (text ++ tail) =
      match scanLine m line text with
      | .more line => scanLine m line tail
      | .tooLong => .tooLong
      | .line line rest =>
        .line line
          (if endsAtCr text then if tail.head? = some 0x0A then tail.drop 1 else tail
          else rest ++ tail) := by
  induction text generalizing line with
  | nil => rfl
  | cons c rest ih =>
    rw [List.cons_append, scanLine, scanLine]
    by_cases hc : c = 0x0D
    · subst hc
      simp only [ne_eq, not_true_eq_false, if_false]
      cases rest with
      | nil => simp [endsAtCr]
      | cons b rest =>
        have hends : endsAtCr (0x0D :: b :: rest) = false := by simp [endsAtCr]
        rw [hends]
        by_cases hb : b = 0x0A
        · simp [hb]
        · simp [hb]
    · simp only [ne_eq, hc, not_false_eq_true, if_true, endsAtCr_cons_of_ne hc]
      split
      · rfl
      · exact ih

end

/-! ## The underlying io -/

/-- The underlying io reports no error. -/
structure Healthy (c : HttpHandleData) : Prop where
  noError : c.isIoError = false
  work : ∀ w ∈ c.work, w ≠ .error

section

variable {c : HttpHandleData}

theorem xioDowork_stream : (xioDowork c).stream = c.stream := by
  rcases c with ⟨received, isIoError, work, starts⟩
  cases work with
  | nil => rfl
  | cons w work =>
    cases w with
    | bytes buffer => simp [xioDowork, HttpHandleData.stream, bytesToCome]
    | error => rfl

theorem Healthy.xioDowork (h : Healthy c) : Healthy (xioDowork c) := by
  rcases c with ⟨received, isIoError, work, starts⟩
  cases work with
  | nil => exact h
  | cons w work =>
    cases w with
    | bytes buffer => exact ⟨h.noError, fun w hw => h.work w (List.mem_cons_of_mem _ hw)⟩
    | error => exact absurd rfl (h.work .error (List.mem_cons_self ..))

theorem xioDowork_work {w : Work} {work : List Work} (h : c.work = w :: work) :
    (xioDowork c).work = work := by
  unfold xioDowork
  rw [h]
  cases w <;> rfl

theorem xioDowork_lineStarts : (xioDowork c).lineStarts = c.lineStarts := by
  unfold xioDowork
  split
  · rfl
  · rfl
  · rfl

theorem Healthy.not_isIoError (h : Healthy c) : ¬ c.isIoError = true := by
  simp [h.noError]

theorem Healthy.received (h : Healthy c) (received : Bytes) :
    Healthy { c with receivedBytes := received } :=
  ⟨h.noError, h.work⟩

end

/-! ## Reading a line -/

section

variable {m n : Nat} {line : Bytes} {c : HttpHandleData}

theorem scanned_line {text rest : Bytes} (hc : Healthy c)
    (h : scanLine m line c.receivedBytes = .line text rest) :
    ∃ text' rest', scanLine m line c.stream = .line text' rest' ∧ some text = some text' ∧
      Healthy { c with receivedBytes := rest } ∧
        HttpHandleData.stream { c with receivedBytes := rest } =
          if (if endsAtCr c.receivedBytes && decide ((bytesToCome c.work).head? = some 0x0A) then
              LineEnd.split else .whole) = .split then 0x0A :: rest' else rest' := by
  refine ⟨text, if endsAtCr c.receivedBytes then
      if (bytesToCome c.work).head? = some 0x0A then (bytesToCome c.work).drop 1
      else bytesToCome c.work
    else rest ++ bytesToCome c.work, ?_, rfl, hc.received rest, ?_⟩
  · rw [HttpHandleData.stream, scanLine_append, h]
  · rw [HttpHandleData.stream]
    cases hends : endsAtCr c.receivedBytes with
    | false => simp
    | true =>
      rw [scanLine_rest h hends]
      cases htail : bytesToCome c.work with
      | nil => simp
      | cons b tail =>
        by_cases hb : b = 0x0A
        · simp [hb]
        · simp [hb]

/-- The call reads the line off the stream, or the LF that it has missed is the next byte. -/
theorem readLineLoop_line {n : Nat} {line : Bytes} {c : HttpHandleData} (hc : Healthy c)
    (h : lineEndLoop m n line c = .whole ∨ lineEndLoop m n line c = .split) :
    ∃ text rest, scanLine m line c.stream = .line text rest ∧
      (readLineLoop m n line c).1 = some text ∧ Healthy (readLineLoop m n line c).2 ∧
        (readLineLoop m n line c).2.stream =
          if lineEndLoop m n line c = .split then 0x0A :: rest else rest := by
  have hd := hc.xioDowork
  have hnoError := hd.not_isIoError
  rw [← xioDowork_stream (c := c)]
  unfold lineEndLoop at h ⊢
  unfold readLineLoop
  simp only [if_neg hnoError] at h ⊢
  cases hscan : scanLine m line (xioDowork c).receivedBytes with
  | line text rest =>
    simp only [hscan] at h ⊢
    exact scanned_line hd hscan
  | tooLong => simp [hscan] at h
  | more line =>
    simp only [hscan] at h ⊢
    rw [HttpHandleData.stream, scanLine_append, hscan]
    cases n with
    | zero => simp at h
    | succ n => exact readLineLoop_line (hd.received []) h

theorem readLineLoop_tooLong {n : Nat} {line : Bytes} {c : HttpHandleData} (hc : Healthy c)
    (h : lineEndLoop m n line c = .tooLong) :
    scanLine m line c.stream = .tooLong ∧ (readLineLoop m n line c).1 = none := by
  have hd := hc.xioDowork
  have hnoError := hd.not_isIoError
  rw [← xioDowork_stream (c := c), HttpHandleData.stream, scanLine_append]
  unfold lineEndLoop at h
  unfold readLineLoop
  simp only [if_neg hnoError] at h ⊢
  cases hscan : scanLine m line (xioDowork c).receivedBytes with
  | line text rest =>
    simp only [hscan] at h
    split at h <;> cases h
  | tooLong => exact ⟨rfl, rfl⟩
  | more line =>
    simp only [hscan] at h ⊢
    cases n with
    | zero => cases h
    | succ n => exact readLineLoop_tooLong (hd.received []) h

theorem lineEndLoop_ne_ioError {n : Nat} {line : Bytes} {c : HttpHandleData} (hc : Healthy c) :
    lineEndLoop m n line c ≠ .ioError := by
  intro h
  have hd := hc.xioDowork
  have hnoError := hd.not_isIoError
  unfold lineEndLoop at h
  simp only [if_neg hnoError] at h
  cases hscan : scanLine m line (xioDowork c).receivedBytes with
  | line text rest =>
    simp only [hscan] at h
    split at h <;> cases h
  | tooLong => simp [hscan] at h
  | more line =>
    simp only [hscan] at h
    cases n with
    | zero => cases h
    | succ n => exact lineEndLoop_ne_ioError (hd.received []) h

theorem readLineLoop_shorter {n : Nat} {l t : Bytes} {c : HttpHandleData}
    (h : (readLineLoop m n l c).1 = some t) :
    (readLineLoop m n l c).2.stream.length < c.stream.length := by
  rw [← xioDowork_stream (c := c)]
  unfold readLineLoop at h ⊢
  dsimp only at h ⊢
  split at h
  · cases h
  rename_i hnoError
  rw [if_neg hnoError]
  cases hscan : scanLine m l (xioDowork c).receivedBytes with
  | line text rest =>
    have hshorter := scanLine_shorter hscan
    simp only [HttpHandleData.stream, List.length_append]
    omega
  | tooLong =>
    rw [hscan] at h
    cases h
  | more line =>
    rw [hscan] at h
    cases n with
    | zero => cases h
    | succ n =>
      have hrest := readLineLoop_shorter h
      simp only [HttpHandleData.stream, List.nil_append, List.length_append] at hrest ⊢
      omega

theorem readLine_shorter {t : Bytes} (h : (readLine m c).1 = some t) :
    (readLine m c).2.stream.length < c.stream.length :=
  readLineLoop_shorter (c := { c with lineStarts := c.lineStarts ++ [(c.receivedBytes, c.work)] }) h

theorem readLineLoop_lineStarts {n : Nat} {line : Bytes} {c : HttpHandleData} :
    (readLineLoop m n line c).2.lineStarts = c.lineStarts := by
  rw [← xioDowork_lineStarts (c := c)]
  unfold readLineLoop
  dsimp only
  split
  · rfl
  split
  · rfl
  · rfl
  · cases n with
    | zero => rfl
    | succ n => exact readLineLoop_lineStarts

theorem lineEndLoop_lineStarts {n : Nat} {line : Bytes} {c : HttpHandleData}
    {s : List (Bytes × List Work)} :
    lineEndLoop m n line { c with lineStarts := s } = lineEndLoop m n line c := by
  have hwork : xioDowork { c with lineStarts := s } = { xioDowork c with lineStarts := s } := by
    rcases c with ⟨received, isIoError, work, starts'⟩
    cases work with
    | nil => rfl
    | cons w work => cases w <;> rfl
  unfold lineEndLoop
  rw [hwork]
  dsimp only
  split
  · rfl
  split
  · rfl
  · rfl
  · cases n with
    | zero => rfl
    | succ n => exact lineEndLoop_lineStarts (c := { xioDowork c with receivedBytes := [] })

end

/-! ## Two segmentations -/

/-- Two connections with the same bytes received or to come, and no error. -/
structure SameStream (c1 c2 : HttpHandleData) : Prop where
  first : Healthy c1
  second : Healthy c2
  stream : c1.stream = c2.stream

/-- In the calls of `readLine` so far, none has timed out or has missed an LF. -/
structure Fine (c : HttpHandleData) : Prop where
  noTimeout : NoTimeout c
  noSplit : NoSplitLineEnd c

section

variable {c c1 c2 : HttpHandleData}

theorem Fine.earlier {c' : HttpHandleData} (h : Fine c') (hstarts : c.lineStarts ⊆ c'.lineStarts) :
    Fine c :=
  ⟨fun start hstart => h.noTimeout start (hstarts hstart),
    fun start hstart => h.noSplit start (hstarts hstart)⟩

theorem Healthy.stream_eq (h : Healthy c) (starts : List (Bytes × List Work)) :
    Healthy { c with lineStarts := starts } :=
  ⟨h.noError, h.work⟩

theorem readLine_lineStarts :
    (readLine tempBufferSize c).2.lineStarts = c.lineStarts ++ [(c.receivedBytes, c.work)] :=
  readLineLoop_lineStarts

theorem readLine_whole (hc : Healthy c) (hfine : Fine (readLine tempBufferSize c).2) :
    (∃ text rest, scanLine tempBufferSize [] c.stream = .line text rest ∧
        (readLine tempBufferSize c).1 = some text ∧ Healthy (readLine tempBufferSize c).2 ∧
          (readLine tempBufferSize c).2.stream = rest) ∨
      (scanLine tempBufferSize [] c.stream = .tooLong ∧ (readLine tempBufferSize c).1 = none) := by
  have hstart : (c.receivedBytes, c.work) ∈ (readLine tempBufferSize c).2.lineStarts := by
    rw [readLine_lineStarts]
    exact List.mem_append_right _ (List.mem_singleton_self _)
  have hcalled : Healthy
      { c with lineStarts := c.lineStarts ++ [(c.receivedBytes, c.work)] } := hc.stream_eq _
  have hend : lineEndLoop tempBufferSize maxReceiveRetry []
      { c with lineStarts := c.lineStarts ++ [(c.receivedBytes, c.work)] } =
      lineEnd (c.receivedBytes, c.work) := by
    rw [lineEndLoop_lineStarts, lineEnd]
    rw [← lineEndLoop_lineStarts (c := c) (s := [])]
    have hnoError := hc.noError
    rcases c with ⟨received, isIoError, work, starts⟩
    cases hnoError
    rfl
  have hnoTimeout := hfine.noTimeout _ hstart
  have hnoSplit := hfine.noSplit _ hstart
  rw [← hend] at hnoTimeout hnoSplit
  cases hlineEnd : lineEndLoop tempBufferSize maxReceiveRetry []
      { c with lineStarts := c.lineStarts ++ [(c.receivedBytes, c.work)] } with
  | whole =>
    left
    rcases readLineLoop_line hcalled (.inl hlineEnd) with ⟨text, rest, hscan, hline, hhealthy, hstream⟩
    rw [if_neg (by rw [hlineEnd]; decide)] at hstream
    exact ⟨text, rest, hscan, hline, hhealthy, hstream⟩
  | split => exact absurd hlineEnd hnoSplit
  | tooLong =>
    right
    exact readLineLoop_tooLong hcalled hlineEnd
  | timeout => exact absurd hlineEnd hnoTimeout
  | ioError => exact absurd hlineEnd (lineEndLoop_ne_ioError hcalled)

theorem readLine_same (h : SameStream c1 c2) (hfine1 : Fine (readLine tempBufferSize c1).2)
    (hfine2 : Fine (readLine tempBufferSize c2).2) :
    (readLine tempBufferSize c1).1 = (readLine tempBufferSize c2).1 ∧
      ((readLine tempBufferSize c1).1 ≠ none →
        SameStream (readLine tempBufferSize c1).2 (readLine tempBufferSize c2).2) := by
  rcases readLine_whole h.first hfine1 with
    ⟨text1, rest1, hscan1, hline1, hhealthy1, hstream1⟩ | ⟨hscan1, hline1⟩
  · rcases readLine_whole h.second hfine2 with
      ⟨text2, rest2, hscan2, hline2, hhealthy2, hstream2⟩ | ⟨hscan2, hline2⟩
    · rw [h.stream, hscan2] at hscan1
      cases hscan1
      refine ⟨by rw [hline1, hline2], fun _ => ⟨hhealthy1, hhealthy2, ?_⟩⟩
      rw [hstream1, hstream2]
    · rw [h.stream, hscan2] at hscan1
      cases hscan1
  · rcases readLine_whole h.second hfine2 with
      ⟨text2, rest2, hscan2, hline2, hhealthy2, hstream2⟩ | ⟨hscan2, hline2⟩
    · rw [h.stream, hscan2] at hscan1
      cases hscan1
    · exact ⟨by rw [hline1, hline2], fun hsome => absurd hline1 hsome⟩

/-! ### A number of bytes -/

theorem connReceiveLoop_take {count : Nat} {work : List Work} {r : Int × Bytes × HttpHandleData}
    (hc : Healthy c) (hwork : c.work = work) (h : connReceiveLoop count work c = some r) :
    r.1 = count ∧ r.2.1 = c.stream.take count ∧ Healthy r.2.2 ∧
      r.2.2.stream = c.stream.drop count := by
  induction work generalizing c with
  | nil =>
    have hidle : xioDowork c = c := by
      unfold xioDowork
      rw [hwork]
    have hnoError := hc.not_isIoError
    unfold connReceiveLoop at h
    simp only [hidle, if_neg hnoError] at h
    split at h
    case isTrue henough =>
      cases Option.some.inj h
      refine ⟨rfl, ?_, hc.received _, ?_⟩
      · rw [HttpHandleData.stream, List.take_append_of_le_length henough]
      · rw [HttpHandleData.stream, HttpHandleData.stream, List.drop_append_of_le_length henough]
    case isFalse => cases h
  | cons w work ih =>
    have hd := hc.xioDowork
    have hnoError := hd.not_isIoError
    rw [← xioDowork_stream (c := c)]
    unfold connReceiveLoop at h
    simp only [if_neg hnoError] at h
    split at h
    case isTrue henough =>
      cases Option.some.inj h
      refine ⟨rfl, ?_, hd.received _, ?_⟩
      · rw [HttpHandleData.stream, List.take_append_of_le_length henough]
      · rw [HttpHandleData.stream, HttpHandleData.stream, List.drop_append_of_le_length henough]
    case isFalse => exact ih hd (xioDowork_work hwork) h

/-- The same has been read off two connections. -/
structure ReadSame (r1 r2 : Int × Bytes × HttpHandleData) : Prop where
  result : r1.1 = r2.1
  bytes : r1.2.1 = r2.2.1
  same : SameStream r1.2.2 r2.2.2

theorem connReceiveLoop_isSome {count : Nat} {work : List Work} (hc : Healthy c)
    (hwork : c.work = work) :
    (connReceiveLoop count work c).isSome = true ↔ count ≤ c.stream.length := by
  induction work generalizing c with
  | nil =>
    have hidle : xioDowork c = c := by
      unfold xioDowork
      rw [hwork]
    have hnoError := hc.not_isIoError
    have hstream : c.stream = c.receivedBytes := by
      rw [HttpHandleData.stream, hwork, bytesToCome, List.append_nil]
    unfold connReceiveLoop
    simp only [hidle, if_neg hnoError, hstream]
    split
    case isTrue henough => exact iff_of_true rfl henough
    case isFalse hfew => exact iff_of_false Bool.false_ne_true hfew
  | cons w work ih =>
    have hd := hc.xioDowork
    have hnoError := hd.not_isIoError
    rw [← xioDowork_stream (c := c)]
    unfold connReceiveLoop
    simp only [if_neg hnoError]
    split
    case isTrue henough =>
      refine iff_of_true rfl ?_
      rw [HttpHandleData.stream, List.length_append]
      exact Nat.le_add_right_of_le henough
    case isFalse hfew => exact ih hd (xioDowork_work hwork)

theorem connReceive_together (count : Int) (h : SameStream c1 c2) :
    Option.Rel ReadSame (connReceive count c1) (connReceive count c2) := by
  unfold connReceive
  split
  · exact .some ⟨rfl, rfl, h⟩
  split
  · exact .some ⟨rfl, rfl, h⟩
  · have hreturns : (connReceiveLoop count.toNat c1.work c1).isSome = true ↔
        (connReceiveLoop count.toNat c2.work c2).isSome = true := by
      rw [connReceiveLoop_isSome h.first rfl, connReceiveLoop_isSome h.second rfl, h.stream]
    cases h1 : connReceiveLoop count.toNat c1.work c1 with
    | none =>
      rw [h1] at hreturns
      rw [Option.not_isSome_iff_eq_none.1 fun h2 => Bool.false_ne_true (hreturns.2 h2)]
      exact .none
    | some r1 =>
      rw [h1] at hreturns
      rcases Option.isSome_iff_exists.1 (hreturns.1 rfl) with ⟨r2, h2⟩
      rw [h2]
      rcases connReceiveLoop_take h.first rfl h1 with ⟨hr1, hb1, hc1, hs1⟩
      rcases connReceiveLoop_take h.second rfl h2 with ⟨hr2, hb2, hc2, hs2⟩
      exact .some ⟨by rw [hr1, hr2], by rw [hb1, hb2, h.stream], hc1, hc2,
        by rw [hs1, hs2, h.stream]⟩

theorem readChunkLoop_together {rounds : Nat} (size : Nat) (h : SameStream c1 c2) :
    Option.Rel ReadSame (readChunkLoop rounds size c1) (readChunkLoop rounds size c2) := by
  induction rounds generalizing size c1 c2 with
  | zero => exact .some ⟨rfl, rfl, h⟩
  | succ rounds ih =>
    rw [readChunkLoop, readChunkLoop]
    split
    · exact .some ⟨rfl, rfl, h⟩
    have hread := connReceive_together (intOfSizeT size) h
    generalize connReceive (intOfSizeT size) c1 = read1 at hread
    generalize connReceive (intOfSizeT size) c2 = read2 at hread
    cases hread with
    | none => exact .none
    | @some r1 r2 hsame =>
      rcases r1 with ⟨cur, bytes, d1⟩
      rcases r2 with ⟨cur', bytes', d2⟩
      rcases hsame with ⟨rfl, rfl, hsame⟩
      dsimp only
      split
      · exact .some ⟨rfl, rfl, hsame⟩
      have hrest := ih (size - cur.toNat) hsame
      generalize readChunkLoop rounds (size - cur.toNat) d1 = rest1 at hrest
      generalize readChunkLoop rounds (size - cur.toNat) d2 = rest2 at hrest
      cases hrest with
      | none => exact .none
      | some hrest => exact .some ⟨by simp only [hrest.result], by simp only [hrest.bytes], hrest.same⟩

theorem readChunk_together (size : Nat) (h : SameStream c1 c2) :
    Option.Rel ReadSame (readChunk size c1) (readChunk size c2) :=
  readChunkLoop_together size h

/-! ### Reading forward -/

/-- No line has been started, and the stream has not grown. -/
structure Forward (c c' : HttpHandleData) : Prop where
  starts : c'.lineStarts = c.lineStarts
  stream : c'.stream.length ≤ c.stream.length

theorem Forward.refl : Forward c c :=
  ⟨rfl, Nat.le_refl _⟩

theorem Forward.trans {c3 : HttpHandleData} (h : Forward c1 c2) (h' : Forward c2 c3) :
    Forward c1 c3 :=
  ⟨h'.starts.trans h.starts, Nat.le_trans h'.stream h.stream⟩

theorem xioDowork_forward : Forward c (xioDowork c) :=
  ⟨xioDowork_lineStarts, Nat.le_of_eq (by rw [xioDowork_stream])⟩

theorem forward_drop {count : Nat} :
    Forward c { c with receivedBytes := c.receivedBytes.drop count } := by
  refine ⟨rfl, ?_⟩
  simp only [HttpHandleData.stream, List.length_append, List.length_drop]
  omega

theorem connReceiveLoop_forward {count : Nat} {work : List Work}
    {r : Int × Bytes × HttpHandleData} (h : connReceiveLoop count work c = some r) :
    Forward c r.2.2 := by
  induction work generalizing c with
  | nil =>
    unfold connReceiveLoop at h
    apply xioDowork_forward.trans
    dsimp only at h
    split at h
    · cases Option.some.inj h
      exact Forward.refl
    split at h
    · cases Option.some.inj h
      exact forward_drop
    · cases h
  | cons w work ih =>
    unfold connReceiveLoop at h
    apply xioDowork_forward.trans
    dsimp only at h
    split at h
    · cases Option.some.inj h
      exact Forward.refl
    split at h
    · cases Option.some.inj h
      exact forward_drop
    · exact ih h

theorem connReceive_forward {count : Int} {r : Int × Bytes × HttpHandleData}
    (h : connReceive count c = some r) : Forward c r.2.2 := by
  unfold connReceive at h
  split at h
  · cases Option.some.inj h
    exact Forward.refl
  split at h
  · cases Option.some.inj h
    exact Forward.refl
  · exact connReceiveLoop_forward h

theorem readChunkLoop_forward {rounds size : Nat} {r : Int × Bytes × HttpHandleData}
    (h : readChunkLoop rounds size c = some r) : Forward c r.2.2 := by
  induction rounds generalizing size c r with
  | zero =>
    rw [readChunkLoop] at h
    cases Option.some.inj h
    exact Forward.refl
  | succ rounds ih =>
    rw [readChunkLoop] at h
    split at h
    · cases Option.some.inj h
      exact Forward.refl
    split at h
    · cases h
    rename_i hread
    have hforward := connReceive_forward hread
    split at h
    · cases Option.some.inj h
      exact hforward
    split at h
    · cases h
    rename_i hrest
    have hforward' := ih hrest
    cases Option.some.inj h
    exact hforward.trans hforward'

theorem readChunkEnd_forward {r : Bool × HttpHandleData} (h : readChunkEnd c = some r) :
    Forward c r.2 := by
  unfold readChunkEnd at h
  split at h
  · cases h
  rename_i hread
  cases Option.some.inj h
  exact readChunkLoop_forward hread

end

end SharedUtility.HttpApiCompact
