import SharedUtility.Numerals

/-!
# LogBinary — the dump of `xlogging.c`

* `logBinary` — the code; every character in the two line buffers remembers for which line it was written,
* `readHexColumn`, `Dumped` — how a dump is read back,
* `Filled` — what the buffers hold behind a prefix of the data,
* `dumped_iff` — the dump is right exactly when the last line is full.

The loop that fills the hex column of a short last line up increments the counter before it writes: it leaves the
three characters behind the last byte as they are.
-/

namespace SharedUtility.LogBinary

/-! ## The line buffers -/

/-- A character of a line buffer, and the start of the line that it was written for. -/
structure Cell where
  char : UInt8
  line : Option Nat
deriving DecidableEq

def lineSize : Nat := 16

/-- What is on the stack where the buffers are. -/
structure Memory where
  charBuf : Bytes
  hexBuf : Bytes
  charBuf_length : charBuf.length = lineSize + 1
  hexBuf_length : hexBuf.length = lineSize * 3 + 1

/-- Characters that no line was written for. -/
def uninitialized (chars : Bytes) : List Cell :=
  chars.map fun char => { char := char, line := none }

/-- What `%s` prints. -/
def cells (buf : List Cell) : List Cell :=
  buf.takeWhile fun cell => cell.char != 0

/-- What is logged. -/
inductive LogLine
  /-- `"%s     %zu bytes"`. -/
  | header (comment : Bytes) (size : Nat)
  /-- `"%p: %s    %s"`. -/
  | dump (startPos : Nat) (hex text : List Cell)
deriving DecidableEq

/-- The variables of `LogBinary`; `startPos` and `bufAsChar` are offsets into the data. -/
structure Variables where
  charBuf : List Cell
  hexBuf : List Cell
  countbuf : Nat
  startPos : Nat
  bufAsChar : Nat
  logged : List LogLine

/-! ## The code -/

def printable (c : UInt8) : UInt8 :=
  if 0x20 ≤ c ∧ c ≤ 0x7E then c else 0x2E

def hexStr (c : UInt8) : UInt8 :=
  if c &&& 0xF < 0xA then (c &&& 0xF) + 0x30 else (c &&& 0xF) - 0xA + 0x41

/-- A character that is written for the current line. -/
def Variables.fresh (v : Variables) (char : UInt8) : Cell :=
  { char := char, line := some v.startPos }

/-- The three characters of the hex column from an index on. -/
def setHex (hexBuf : List Cell) (index : Nat) (high low blank : Cell) : List Cell :=
  ((hexBuf.set index high).set (index + 1) low).set (index + 2) blank

/-- Ends both strings and logs the line. -/
def Variables.log (v : Variables) : Variables :=
  { v with logged := v.logged ++ [.dump v.startPos (cells v.hexBuf) (cells v.charBuf)] }

/-- A byte in both buffers. -/
def store (v : Variables) (b : UInt8) : Variables :=
  { v with
    charBuf := v.charBuf.set v.countbuf (v.fresh (printable b))
    hexBuf := setHex v.hexBuf (v.countbuf * 3) (v.fresh (hexStr (b >>> 4))) (v.fresh (hexStr b)) (v.fresh 0x20)
    countbuf := v.countbuf + 1
    bufAsChar := v.bufAsChar + 1 }

/-- The end of a full line. -/
def newLine (v : Variables) : Variables :=
  let v := { v with
    charBuf := v.charBuf.set v.countbuf (v.fresh 0)
    hexBuf := v.hexBuf.set (v.countbuf * 3) (v.fresh 0) }
  { v.log with countbuf := 0, startPos := v.bufAsChar }

/-- One turn of the `for` loop. -/
def dumpByte (v : Variables) (b : UInt8) : Variables :=
  if (store v b).countbuf = lineSize then newLine (store v b) else store v b

/-- The `while` loop, for at most so many turns. -/
def fillWithSpaces (v : Variables) : (turns : Nat) → Variables
  | 0 => v
  | turns + 1 =>
    -- `countbuf++` has happened when the body is entered
    let more := v.countbuf < lineSize - 1
    let v := { v with countbuf := v.countbuf + 1 }
    if more then
      fillWithSpaces
        { v with hexBuf := setHex v.hexBuf (v.countbuf * 3) (v.fresh 0x20) (v.fresh 0x20) (v.fresh 0x20) } turns
    else v

/-- The end of a short last line; the loop that fills it up has fewer turns than a line has characters. -/
def lastLine (v : Variables) : Variables :=
  let v := { v with charBuf := v.charBuf.set v.countbuf (v.fresh 0) }
  let v := fillWithSpaces v lineSize
  { v with hexBuf := v.hexBuf.set (v.countbuf * 3) (v.fresh 0) }.log

/-- The variables in front of the `for` loop. -/
def start (comment : Bytes) (size : Nat) (memory : Memory) : Variables :=
  { charBuf := uninitialized memory.charBuf
    hexBuf := uninitialized memory.hexBuf
    countbuf := 0
    startPos := 0
    bufAsChar := 0
    logged := [.header comment size] }

/-- `LogBinary`: what is logged. -/
def logBinary (comment data : Bytes) (memory : Memory) : List LogLine :=
  let v := data.foldl dumpByte (start comment data.length memory)
  if v.countbuf > 0 then (lastLine v).logged else v.logged

/-! ## How a dump is read -/

/-- The bytes of a hex column: two digits and a blank each, and nothing but blanks behind them. -/
def readHexColumn : (column : Bytes) → Option Bytes
  | [] => some []
  | high :: low :: blank :: column =>
    if (high :: low :: blank :: column).all (· == 0x20) then some []
    else if isDigitOf 16 high ∧ isDigitOf 16 low ∧ blank = 0x20 then
      (readHexColumn column).map
        (UInt8.ofNat ((digitValue high).getD 0 * 16 + (digitValue low).getD 0) :: ·)
    else none
  | _ => none

/-- A line that shows exactly these bytes, with nothing in it that was not written for it. -/
structure Shows (startPos : Nat) (chunk : Bytes) (hex text : List Cell) : Prop where
  aligned : hex.length = lineSize * 3
  bytes : readHexColumn (hex.map Cell.char) = some chunk
  chars : text.map Cell.char = chunk.map printable
  fresh : ∀ cell ∈ hex ++ text, cell.line = some startPos

/-- The lines behind a position of the data: sixteen bytes on each, the rest on the last one. -/
inductive ShowsFrom (data : Bytes) : (startPos : Nat) → List LogLine → Prop
  | nil {startPos : Nat} (hend : data.length ≤ startPos) : ShowsFrom data startPos []
  | line {startPos : Nat} {hex text : List Cell} {lines : List LogLine} (hmore : startPos < data.length)
      (hline : Shows startPos ((data.drop startPos).take lineSize) hex text)
      (hlines : ShowsFrom data (startPos + lineSize) lines) :
      ShowsFrom data startPos (.dump startPos hex text :: lines)

/-- The dump of the data: a header, and the lines. -/
def Dumped (comment data : Bytes) (logged : List LogLine) : Prop :=
  ∃ lines, logged = .header comment data.length :: lines ∧ ShowsFrom data 0 lines

/-! ## What is written -/

def charCells (startPos : Nat) (chunk : Bytes) : List Cell :=
  chunk.map fun b => { char := printable b, line := some startPos }

def hexCells (startPos : Nat) (chunk : Bytes) : List Cell :=
  chunk.flatMap fun b : UInt8 =>
    [{ char := hexStr (b >>> 4), line := some startPos }, { char := hexStr b, line := some startPos },
      { char := 0x20, line := some startPos }]

/-- What the buffers hold, and what has been logged, behind the first `bufAsChar` bytes of the data. -/
structure Filled (comment data : Bytes) (v : Variables) : Prop where
  here : v.startPos + v.countbuf = v.bufAsChar
  inside : v.bufAsChar ≤ data.length
  fits : v.countbuf ≤ lineSize
  aligned : lineSize ∣ v.startPos
  charBuf_length : v.charBuf.length = lineSize + 1
  hexBuf_length : v.hexBuf.length = lineSize * 3 + 1
  chars : v.charBuf.take v.countbuf = charCells v.startPos ((data.drop v.startPos).take v.countbuf)
  bytes : v.hexBuf.take (v.countbuf * 3) = hexCells v.startPos ((data.drop v.startPos).take v.countbuf)
  /-- No character was written for a line to come. -/
  older : ∀ cell ∈ v.hexBuf, ∀ line, cell.line = some line → line ≤ v.startPos
  /-- Behind the bytes of the line nothing was written for it. -/
  stale : ∀ index cell, v.countbuf * 3 ≤ index → v.hexBuf[index]? = some cell →
    cell.line ≠ some v.startPos
  /-- The lines so far, whatever follows them. -/
  logged : ∃ lines, v.logged = .header comment data.length :: lines ∧
    ∀ more, ShowsFrom data v.startPos more → ShowsFrom data 0 (lines ++ more)

section

variable {startPos : Nat} {chunk : Bytes}

set_option maxRecDepth 8000 in
theorem printable_ne_zero (b : UInt8) : printable b ≠ 0 := by
  revert b
  apply byte_forall
  decide

set_option maxRecDepth 8000 in
theorem hexStr_digits (b : UInt8) :
    (isDigitOf 16 (hexStr (b >>> 4)) = true ∧ isDigitOf 16 (hexStr b) = true) ∧
      UInt8.ofNat ((digitValue (hexStr (b >>> 4))).getD 0 * 16 + (digitValue (hexStr b)).getD 0) = b := by
  revert b
  apply byte_forall
  decide

theorem ne_of_isDigit {c d : UInt8} (hc : isDigitOf 16 c = true) (hd : isDigitOf 16 d = false) : c ≠ d := by
  rintro rfl
  exact Bool.noConfusion (hc.symm.trans hd)

theorem length_hexCells : (hexCells startPos chunk).length = chunk.length * 3 := by
  induction chunk with
  | nil => rfl
  | cons b chunk ih =>
    rw [hexCells, List.flatMap_cons, List.length_append, ← hexCells, ih]
    simp only [List.length_cons, List.length_nil]
    omega

theorem readHexColumn_hexCells : readHexColumn ((hexCells startPos chunk).map Cell.char) = some chunk := by
  induction chunk with
  | nil => rfl
  | cons b chunk ih =>
    rcases hexStr_digits b with ⟨⟨hhigh, hlow⟩, hvalue⟩
    have hnotBlank : (hexStr (b >>> 4) == 0x20) = false := beq_eq_false_iff_ne.2 (ne_of_isDigit hhigh rfl)
    rw [hexCells, List.flatMap_cons, ← hexCells, List.map_append]
    simp only [List.map_cons, List.map_nil, List.cons_append, List.nil_append]
    rw [readHexColumn, List.all_cons, hnotBlank, Bool.false_and, if_neg Bool.false_ne_true,
      if_pos ⟨hhigh, hlow, rfl⟩, ih, hvalue]
    rfl

theorem hexCells_ne_zero :
    ∀ cell ∈ hexCells startPos chunk, cell.char ≠ 0 ∧ cell.line = some startPos := by
  intro cell hcell
  rcases List.mem_flatMap.1 hcell with ⟨b, _, hcell⟩
  rcases hexStr_digits b with ⟨⟨hhigh, hlow⟩, _⟩
  simp only [List.mem_cons, List.not_mem_nil, or_false] at hcell
  rcases hcell with rfl | rfl | rfl
  · exact ⟨ne_of_isDigit hhigh rfl, rfl⟩
  · exact ⟨ne_of_isDigit hlow rfl, rfl⟩
  · exact ⟨(by decide : (0x20 : UInt8) ≠ 0), rfl⟩

theorem charCells_ne_zero :
    ∀ cell ∈ charCells startPos chunk, cell.char ≠ 0 ∧ cell.line = some startPos := by
  intro cell hcell
  rcases List.mem_map.1 hcell with ⟨b, _, rfl⟩
  exact ⟨printable_ne_zero b, rfl⟩

theorem map_char_charCells : (charCells startPos chunk).map Cell.char = chunk.map printable := by
  rw [charCells, List.map_map]
  rfl

theorem shows_cells (hfull : chunk.length = lineSize) :
    Shows startPos chunk (hexCells startPos chunk) (charCells startPos chunk) where
  aligned := by rw [length_hexCells, hfull]
  bytes := readHexColumn_hexCells
  chars := map_char_charCells
  fresh := by
    intro cell hcell
    rcases List.mem_append.1 hcell with hcell | hcell
    · exact (hexCells_ne_zero cell hcell).2
    · exact (charCells_ne_zero cell hcell).2

end

/-! ## The buffers -/

section

variable {α : Type} {buf : List α} {n : Nat}

theorem take_set_succ (x : α) (hn : n < buf.length) : (buf.set n x).take (n + 1) = buf.take n ++ [x] := by
  rw [List.take_succ_eq_append_getElem (by rwa [List.length_set]), List.take_set_of_le (Nat.le_refl n),
    List.getElem_set_self]

end

section

variable {hexBuf : List Cell} {index : Nat} {high low blank : Cell}

theorem length_setHex : (setHex hexBuf index high low blank).length = hexBuf.length := by
  rw [setHex, List.length_set, List.length_set, List.length_set]

theorem take_setHex (h : index + 2 < hexBuf.length) :
    (setHex hexBuf index high low blank).take (index + 3) = hexBuf.take index ++ [high, low, blank] := by
  rw [setHex, take_set_succ blank (by rwa [List.length_set, List.length_set]),
    take_set_succ low (by rw [List.length_set]; omega), take_set_succ high (by omega),
    List.append_assoc, List.append_assoc]
  rfl

theorem getElem?_setHex {i : Nat} (h : i < index ∨ index + 3 ≤ i) :
    (setHex hexBuf index high low blank)[i]? = hexBuf[i]? := by
  rw [setHex, List.getElem?_set_ne (by omega), List.getElem?_set_ne (by omega), List.getElem?_set_ne (by omega)]

theorem mem_setHex {cell : Cell} (h : cell ∈ setHex hexBuf index high low blank) :
    cell ∈ hexBuf ∨ cell = high ∨ cell = low ∨ cell = blank := by
  rcases List.mem_or_eq_of_mem_set h with h | h
  · rcases List.mem_or_eq_of_mem_set h with h | h
    · rcases List.mem_or_eq_of_mem_set h with h | h
      · exact Or.inl h
      · exact Or.inr (Or.inl h)
    · exact Or.inr (Or.inr (Or.inl h))
  · exact Or.inr (Or.inr (Or.inr h))

theorem cells_set {buf : List Cell} {n : Nat} {nul : Cell} (hnul : nul.char = 0) (hn : n < buf.length)
    (h : ∀ cell ∈ buf.take n, cell.char ≠ 0) : cells (buf.set n nul) = buf.take n := by
  have hall : ∀ cell ∈ buf.take n, (cell.char != 0) = true := fun cell hcell => bne_iff_ne.2 (h cell hcell)
  rw [cells, List.set_eq_take_append_cons_drop, if_pos hn, List.takeWhile_append_of_pos hall,
    List.takeWhile_cons, hnul, if_neg (by decide), List.append_nil]

theorem mem_cells_or {buf : List Cell} {cell : Cell} {n : Nat} (h : buf[n]? = some cell) :
    cell ∈ cells buf ∨ (cells buf).length ≤ n := by
  induction buf generalizing n with
  | nil => cases h
  | cons first buf ih =>
    rw [cells, List.takeWhile_cons]
    split_ifs with hfirst
    · cases n with
      | zero =>
        obtain rfl := Option.some.inj h
        exact Or.inl (List.mem_cons_self ..)
      | succ n =>
        rcases ih (List.getElem?_cons_succ ▸ h) with hmem | hlen
        · exact Or.inl (List.mem_cons_of_mem _ hmem)
        · exact Or.inr (Nat.succ_le_succ hlen)
    · exact Or.inr (Nat.zero_le n)

end

/-! ## The loop over the data -/

section

variable {comment data : Bytes} {v : Variables}

theorem Filled.start (comment data : Bytes) (memory : Memory) :
    Filled comment data (start comment data.length memory) where
  here := rfl
  inside := Nat.zero_le _
  fits := Nat.zero_le _
  aligned := Nat.dvd_zero _
  charBuf_length := (List.length_map ..).trans memory.charBuf_length
  hexBuf_length := (List.length_map ..).trans memory.hexBuf_length
  chars := rfl
  bytes := rfl
  older := by
    intro cell hcell line hline
    rcases List.mem_map.1 hcell with ⟨char, _, rfl⟩
    cases hline
  stale := by
    intro index cell _ hcell
    rcases List.mem_map.1 (List.mem_of_getElem? hcell) with ⟨char, _, rfl⟩
    exact nofun
  logged := ⟨[], rfl, fun _ => id⟩

theorem Filled.store {b : UInt8} (h : Filled comment data v) (hshort : v.countbuf < lineSize)
    (hb : data[v.bufAsChar]? = some b) : Filled comment data (store v b) := by
  rcases List.getElem?_eq_some_iff.1 hb with ⟨hlt, hget⟩
  have hchunk : (data.drop v.startPos).take (v.countbuf + 1) =
      (data.drop v.startPos).take v.countbuf ++ [b] := by
    have hhere := h.here
    rw [List.take_succ_eq_append_getElem (by rw [List.length_drop]; omega), List.getElem_drop]
    simp only [hhere, hget]
  have hthree : (v.countbuf + 1) * 3 = v.countbuf * 3 + 3 := Nat.succ_mul _ 3
  have hroom : v.countbuf * 3 + 2 < v.hexBuf.length := by
    have hsize : lineSize = 16 := rfl
    rw [h.hexBuf_length]
    omega
  refine
    { here := congrArg (· + 1) h.here
      inside := hlt
      fits := hshort
      aligned := h.aligned
      charBuf_length := by rw [LogBinary.store, List.length_set, h.charBuf_length]
      hexBuf_length := by rw [LogBinary.store, length_setHex, h.hexBuf_length]
      chars := ?chars
      bytes := ?bytes
      older := ?older
      stale := ?stale
      logged := h.logged }
  case chars =>
    dsimp only [LogBinary.store]
    rw [take_set_succ _ (by rw [h.charBuf_length]; omega), h.chars, hchunk, charCells, charCells, List.map_append]
    rfl
  case bytes =>
    dsimp only [LogBinary.store]
    rw [hthree, take_setHex hroom, h.bytes, hchunk, hexCells, hexCells, List.flatMap_append]
    rfl
  case older =>
    intro cell hcell line hline
    rcases mem_setHex hcell with hcell | rfl | rfl | rfl
    · exact h.older cell hcell line hline
    all_goals
      obtain rfl := Option.some.inj hline
      exact Nat.le_refl _
  case stale =>
    intro index cell hindex hcell
    dsimp only [LogBinary.store] at hindex hcell
    rw [hthree] at hindex
    rw [getElem?_setHex (Or.inr hindex)] at hcell
    exact h.stale index cell (Nat.le_trans (Nat.le_add_right _ 3) hindex) hcell

theorem Filled.newLine (h : Filled comment data v) (hfull : v.countbuf = lineSize) :
    Filled comment data (newLine v) := by
  have hhere := h.here
  have hinside := h.inside
  have hpos : 0 < lineSize := by decide
  have hbytes := h.bytes
  have hchars := h.chars
  rw [hfull] at hbytes hchars
  have hhex : cells (v.hexBuf.set (v.countbuf * 3) (v.fresh 0)) =
      hexCells v.startPos ((data.drop v.startPos).take lineSize) := by
    rw [cells_set rfl (by rw [h.hexBuf_length, hfull]; omega), hfull, hbytes]
    rw [hfull, hbytes]
    exact fun cell hcell => (hexCells_ne_zero cell hcell).1
  have htext : cells (v.charBuf.set v.countbuf (v.fresh 0)) =
      charCells v.startPos ((data.drop v.startPos).take lineSize) := by
    rw [cells_set rfl (by rw [h.charBuf_length, hfull]; omega), hfull, hchars]
    rw [hfull, hchars]
    exact fun cell hcell => (charCells_ne_zero cell hcell).1
  have hnext : v.bufAsChar = v.startPos + lineSize := by omega
  have hline : Shows v.startPos ((data.drop v.startPos).take lineSize)
      (cells (v.hexBuf.set (v.countbuf * 3) (v.fresh 0))) (cells (v.charBuf.set v.countbuf (v.fresh 0))) := by
    rw [hhex, htext]
    exact shows_cells (by rw [List.length_take, List.length_drop]; omega)
  -- no character in the buffers is as late as the line that begins
  have holder : ∀ cell ∈ v.hexBuf.set (v.countbuf * 3) (v.fresh 0),
      ∀ line, cell.line = some line → line ≤ v.startPos := by
    intro cell hcell line hline
    rcases List.mem_or_eq_of_mem_set hcell with hcell | rfl
    · exact h.older cell hcell line hline
    · obtain rfl := Option.some.inj hline
      exact Nat.le_refl _
  exact
    { here := Nat.add_zero _
      inside := hinside
      fits := Nat.zero_le _
      aligned := by
        change lineSize ∣ v.bufAsChar
        rw [hnext]
        exact Nat.dvd_add h.aligned (Nat.dvd_refl lineSize)
      charBuf_length := by
        change (v.charBuf.set v.countbuf (v.fresh 0)).length = _
        rw [List.length_set, h.charBuf_length]
      hexBuf_length := by
        change (v.hexBuf.set (v.countbuf * 3) (v.fresh 0)).length = _
        rw [List.length_set, h.hexBuf_length]
      chars := rfl
      bytes := rfl
      older := fun cell hcell line hline => Nat.le_trans (holder cell hcell line hline) (by
        change v.startPos ≤ v.bufAsChar
        omega)
      stale := fun index cell _ hcell hline => by
        have hle := holder cell (List.mem_of_getElem? hcell) _ hline
        change v.bufAsChar ≤ v.startPos at hle
        omega
      logged := by
        rcases h.logged with ⟨lines, hlogged, hmore⟩
        refine ⟨lines ++ [.dump v.startPos (cells (v.hexBuf.set (v.countbuf * 3) (v.fresh 0)))
          (cells (v.charBuf.set v.countbuf (v.fresh 0)))], ?_, fun more hshows => ?_⟩
        · change v.logged ++ _ = _
          rw [hlogged, List.cons_append]
        · change ShowsFrom data v.bufAsChar more at hshows
          rw [hnext] at hshows
          rw [List.append_assoc]
          exact hmore _ (.line (by omega) hline hshows) }

theorem Filled.dumpByte {b : UInt8} (h : Filled comment data v) (hshort : v.countbuf < lineSize)
    (hb : data[v.bufAsChar]? = some b) :
    Filled comment data (dumpByte v b) ∧ (dumpByte v b).countbuf < lineSize ∧
      (dumpByte v b).bufAsChar = v.bufAsChar + 1 := by
  have hstore := h.store hshort hb
  rw [LogBinary.dumpByte]
  split_ifs with hfull
  · exact ⟨hstore.newLine hfull, Nat.succ_pos 15, rfl⟩
  · exact ⟨hstore, Nat.lt_of_le_of_ne hstore.fits hfull, rfl⟩

theorem Filled.foldl (rest : Bytes) (h : Filled comment data v) (hshort : v.countbuf < lineSize)
    (hrest : data.drop v.bufAsChar = rest) :
    Filled comment data (rest.foldl LogBinary.dumpByte v) ∧
      (rest.foldl LogBinary.dumpByte v).countbuf < lineSize ∧
      (rest.foldl LogBinary.dumpByte v).bufAsChar = data.length := by
  induction rest generalizing v with
  | nil => exact ⟨h, hshort, Nat.le_antisymm h.inside (List.drop_eq_nil_iff.1 hrest)⟩
  | cons b rest ih =>
    have hb : data[v.bufAsChar]? = some b := by
      rw [← List.head?_drop, hrest]
      rfl
    rcases h.dumpByte hshort hb with ⟨hfilled, hshort', hnext⟩
    rw [List.foldl_cons]
    apply ih hfilled hshort'
    rw [hnext, ← List.drop_drop, hrest]
    rfl

end

/-! ## The short last line -/

section

variable {comment data : Bytes} {v : Variables} {turns index : Nat}

theorem getElem?_fillWithSpaces (hindex : index < (v.countbuf + 1) * 3) :
    (fillWithSpaces v turns).hexBuf[index]? = v.hexBuf[index]? := by
  induction turns generalizing v with
  | zero => rfl
  | succ turns ih =>
    rw [fillWithSpaces]
    split_ifs with hmore
    · rw [ih (Nat.lt_of_lt_of_le hindex (Nat.mul_le_mul_right 3 (Nat.le_succ _)))]
      exact getElem?_setHex (Or.inl hindex)
    · rfl

theorem fillWithSpaces_countbuf (hshort : v.countbuf < lineSize) (hturns : lineSize ≤ v.countbuf + turns) :
    (fillWithSpaces v turns).countbuf = lineSize := by
  induction turns generalizing v with
  | zero => exact absurd hshort (Nat.not_lt.2 hturns)
  | succ turns ih =>
    rw [fillWithSpaces]
    split_ifs with hmore
    · exact ih (Nat.add_lt_of_lt_sub hmore) (by dsimp only; omega)
    · dsimp only
      unfold lineSize at *
      omega

theorem fillWithSpaces_logged : (fillWithSpaces v turns).startPos = v.startPos ∧
    (fillWithSpaces v turns).logged = v.logged := by
  induction turns generalizing v with
  | zero => exact ⟨rfl, rfl⟩
  | succ turns ih =>
    rw [fillWithSpaces]
    split_ifs
    · exact ih
    · exact ⟨rfl, rfl⟩

/-- The last line does not show its bytes: the characters behind the last byte were not written for it. -/
theorem Filled.lastLine (h : Filled comment data v) (hshort : v.countbuf < lineSize) :
    ∃ hex text, (lastLine v).logged = v.logged ++ [.dump v.startPos hex text] ∧
      ∀ chunk, ¬ Shows v.startPos chunk hex text := by
  have hwithin : v.countbuf * 3 < v.hexBuf.length := by
    rw [h.hexBuf_length]
    omega
  let v₁ : Variables := { v with charBuf := v.charBuf.set v.countbuf (v.fresh 0) }
  let v₂ := fillWithSpaces v₁ lineSize
  have hend : v₂.countbuf = lineSize := fillWithSpaces_countbuf hshort (Nat.le_add_left _ _)
  have hlogged : v₂.startPos = v.startPos ∧ v₂.logged = v.logged := fillWithSpaces_logged
  -- the character behind the last byte
  have hcell : (v₂.hexBuf.set (v₂.countbuf * 3) (v₂.fresh 0))[v.countbuf * 3]? =
      some (v.hexBuf[v.countbuf * 3]) := by
    rw [List.getElem?_set_ne (by rw [hend]; omega),
      getElem?_fillWithSpaces (v := v₁) (Nat.mul_lt_mul_of_pos_right (Nat.lt_succ_self _) (by decide))]
    exact List.getElem?_eq_getElem hwithin
  have hstale := h.stale _ _ (Nat.le_refl _) (List.getElem?_eq_getElem hwithin)
  refine ⟨cells (v₂.hexBuf.set (v₂.countbuf * 3) (v₂.fresh 0)), cells v₂.charBuf, ?_,
    fun chunk hshows => ?_⟩
  · change v₂.logged ++ [.dump v₂.startPos _ _] = _
    rw [hlogged.1, hlogged.2]
  · rcases mem_cells_or hcell with hmem | hlen
    · exact hstale (hshows.fresh _ (List.mem_append_left _ hmem))
    · have hfull := hshows.aligned
      omega

end

/-! ## The dump -/

theorem ShowsFrom.behind {data : Bytes} {startPos : Nat} {lines more : List LogLine}
    (h : ShowsFrom data startPos (lines ++ more)) : ∃ startPos', ShowsFrom data startPos' more := by
  induction lines generalizing startPos with
  | nil => exact ⟨startPos, h⟩
  | cons line lines ih =>
    cases h with
    | line _ _ hlines => exact ih hlines

theorem not_dumped (comment data : Bytes) (memory : Memory) (h : data.length % lineSize ≠ 0) :
    ¬ Dumped comment data (logBinary comment data memory) := by
  rcases (Filled.start comment data memory).foldl data (Nat.succ_pos 15) rfl with ⟨hfilled, hshort, hall⟩
  rintro ⟨lines, hlines, hshows⟩
  have hmore : (data.foldl dumpByte (start comment data.length memory)).countbuf > 0 := by
    have hhere := hfilled.here
    rcases Nat.eq_zero_or_pos (data.foldl dumpByte (start comment data.length memory)).countbuf with hzero | hpos
    · rw [hzero, Nat.add_zero, hall] at hhere
      exact absurd (Nat.mod_eq_zero_of_dvd (hhere ▸ hfilled.aligned)) h
    · exact hpos
  rw [logBinary, if_pos hmore] at hlines
  rcases hfilled.lastLine hshort with ⟨hex, text, hlogged, hnot⟩
  rcases hfilled.logged with ⟨before, hbefore, _⟩
  rw [hlogged, hbefore, List.cons_append] at hlines
  obtain rfl := (List.cons.inj hlines).2
  rcases hshows.behind with ⟨startPos, hlast⟩
  cases hlast with
  | line _ hline _ => exact hnot _ hline

/-- A dump is right, whatever was on the stack, exactly when the last line is full. -/
theorem dumped_iff (comment data : Bytes) (memory : Memory) :
    Dumped comment data (logBinary comment data memory) ↔ data.length % lineSize = 0 := by
  constructor
  · intro hdumped
    by_contra h
    exact not_dumped comment data memory h hdumped
  · intro h
    rcases (Filled.start comment data memory).foldl data (Nat.succ_pos 15) rfl with ⟨hfilled, hshort, hall⟩
    have hhere := hfilled.here
    have hdvd : lineSize ∣ (data.foldl dumpByte (start comment data.length memory)).countbuf :=
      (Nat.dvd_add_right hfilled.aligned).1 (by rw [hhere, hall]; exact Nat.dvd_of_mod_eq_zero h)
    have hzero := Nat.eq_zero_of_dvd_of_lt hdvd hshort
    rw [logBinary, if_neg (by rw [hzero]; exact Nat.lt_irrefl 0)]
    rcases hfilled.logged with ⟨lines, hlogged, hmore⟩
    refine ⟨lines, hlogged, ?_⟩
    have hshows := hmore [] (.nil (by rw [hzero, hall] at hhere; omega))
    rwa [List.append_nil] at hshows

/-- Seventeen bytes, and memory that nothing was written to. -/
def sampleData : Bytes := (List.range 17).map fun n => UInt8.ofNat (n + 0x60)

def sampleMemory : Memory where
  charBuf := List.replicate 17 0x3F
  hexBuf := List.replicate 49 0x3F
  charBuf_length := rfl
  hexBuf_length := rfl

/-- The last line of seventeen bytes shows the second byte of the line before as if it were its own. -/
theorem seventeen_not_dumped :
    ¬ Dumped [] sampleData (logBinary [] sampleData sampleMemory) ∧
      (logBinary [] sampleData sampleMemory)[2]?.map
        (fun
          | .dump _ hex _ => (hex.map Cell.char).take 9
          | .header _ _ => []) = some (ascii "70 61    ") := by
  refine ⟨not_dumped _ _ _ (by decide), ?_⟩
  decide

end SharedUtility.LogBinary
