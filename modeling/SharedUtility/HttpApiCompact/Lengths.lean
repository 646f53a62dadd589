import SharedUtility.HttpApiCompact.ChunkedBody
import SharedUtility.Numerals

/-!
# Lengths — the lengths in the headers and in front of the chunks

* `contentLength`, `chunkSize` — what the texts should be read as,
* `TakesChunk` — so many bytes are taken off the stream,
* `lengths_iff`: which texts are read so.

The value of `Content-Length` is read as a number of C, with a sign, another base and anything behind it; the
digits of a chunk size are read modulo `SIZE_MAX + 1`, with anything behind them.
-/

namespace SharedUtility.HttpApiCompact

/-! ## The texts -/

/-- A blank or a tab. -/
def isBlank (b : UInt8) : Bool :=
  b == 0x20 || b == 0x09

/-- The number in a text of digits with blanks around them, if it fits a `size_t` and what is behind them may
be there. -/
def lengthText (base : Nat) (behind : Bytes → Bool) (text : Bytes) : Option Nat :=
  let digits := (text.dropWhile isBlank).takeWhile (isDigitOf base)
  let rest := ((text.dropWhile isBlank).dropWhile (isDigitOf base)).dropWhile isBlank
  if digits ≠ [] ∧ behind rest = true ∧ valueOf base digits ≤ sizeMax then some (valueOf base digits)
  else none

/-- The value of `Content-Length`. -/
def contentLength (value : Bytes) : Option Nat :=
  lengthText 10 List.isEmpty value

/-- The line in front of a chunk, where an extension may be behind the size. -/
def chunkSize (line : Bytes) : Option Nat :=
  lengthText 16 (fun rest => rest.isEmpty || rest.head? == some 0x3B) line

/-- No `int` is at the start of a C string. -/
def NoInt (text : Bytes) : Prop :=
  (numeral (behindSign text)).2 = [] ∨ numberAt text < -(2 ^ 31) ∨ 2 ^ 31 - 1 < numberAt text

/-- So many bytes are taken off a stream that has them. -/
def TakesChunk (n : Nat) : Prop :=
  ∀ c bytes rest, bytes.length = n → bytes ≠ [] → Available c (bytes ++ rest) →
    ∃ c', readChunk n c = some ((n : Int), bytes, c')

/-- Which values of `Content-Length` are read as they should be. -/
def ValueIsPlain (value : Bytes) : Prop :=
  match contentLength value with
  | some n => n ≤ 2 ^ 31 - 1 ∧ (n < 8 ∨ (value.dropWhile isBlank).head? ≠ some 0x30)
  | none => NoInt (cString value)

/-- Which lines in front of chunks are. -/
def LineIsPlain (line : Bytes) : Prop :=
  match chunkSize line with
  | some n => n ≤ 2 ^ 31 - 1 ∧ line.head?.any (isDigitOf 16) = true
  | none => line.head?.any (isDigitOf 16) = false

/-! ## Numbers that are read -/

section

theorem parse_none_iff {src : Bytes} : (parseStringToDecimalAndRemaining src).1 = none ↔ NoInt src := by
  rw [parseStringToDecimalAndRemaining, NoInt]
  by_cases hdigits : (numeral (behindSign src)).2 = []
  · rw [strtol0_none hdigits]
    simp [hdigits]
  · rcases strtol0_some hdigits with ⟨hvalue, hlength⟩
    simp only [hvalue, hlength, hdigits, false_or]
    split_ifs with h
    · refine iff_of_true rfl ?_
      omega
    · refine iff_of_false id ?_
      omega

theorem parse_some {src : Bytes} (h : ¬ NoInt src) :
    (parseStringToDecimalAndRemaining src).1 = some (numberAt src) := by
  rw [NoInt, not_or, not_or] at h
  rcases strtol0_some h.1 with ⟨hvalue, hlength⟩
  have hclamp : max (-(2 ^ 63 : Int)) (min (2 ^ 63 - 1) (numberAt src)) = numberAt src := by omega
  rw [hclamp] at hvalue
  rw [parseStringToDecimalAndRemaining]
  dsimp only
  rw [hvalue, if_neg]
  omega

/-- The count wraps in the call of `conn_receive`. -/
theorem intOfSizeT_eq (n : Nat) : intOfSizeT n = if n % 2 ^ 32 < 2 ^ 31 then ((n % 2 ^ 32 : Nat) : Int)
    else ((n % 2 ^ 32 : Nat) : Int) - 2 ^ 32 := by
  rw [intOfSizeT, BitVec.toInt_eq_toNat_cond, BitVec.toNat_ofNat]
  split_ifs
  · rfl
  · omega
  · omega
  · rfl

/-- A chunk is read whole when an `int` holds its size. -/
theorem takesChunk_iff (n : Nat) : TakesChunk n ↔ n ≤ 2 ^ 31 - 1 := by
  constructor
  case mpr =>
    rintro hsize c bytes rest rfl hne havailable
    rcases readChunk_available havailable hne hsize with ⟨c', hread, -⟩
    exact ⟨c', hread⟩
  case mp =>
    intro htakes
    by_contra hbig
    have hlength : (List.replicate n (0 : UInt8)).length = n := List.length_replicate
    have hne : List.replicate n (0 : UInt8) ≠ [] := by
      intro hnil
      rw [hnil] at hlength
      rw [← hlength] at hbig
      exact hbig (Nat.zero_le _)
    have havailable : Available { receivedBytes := List.replicate n 0 } (List.replicate n 0 ++ []) := by
      refine ⟨⟨rfl, nofun⟩, ?_⟩
      rw [List.append_nil]
      exact List.prefix_refl _
    rcases htakes _ _ _ hlength hne havailable with ⟨c', hread⟩
    have hcount := intOfSizeT_eq n
    rw [readChunk, readChunkLoop, if_neg (by omega)] at hread
    by_cases hpos : 0 < intOfSizeT n
    case neg =>
      -- nothing is received at all
      have hreceive : ∃ cur : Int, cur ≤ 0 ∧ connReceive (intOfSizeT n)
          { receivedBytes := List.replicate n 0 } =
            some (cur, [], { receivedBytes := List.replicate n 0 }) := by
        by_cases hnegative : intOfSizeT n < 0
        · exact ⟨-1, by decide, if_pos hnegative⟩
        · exact ⟨0, Int.le_refl _, by rw [connReceive, if_neg hnegative, if_pos (by omega)]⟩
      rcases hreceive with ⟨cur, hcur, hreceive⟩
      rw [hreceive] at hread
      dsimp only at hread
      rw [if_pos hcur] at hread
      simp only [Option.some.injEq, Prod.mk.injEq] at hread
      omega
    case pos =>
      -- the bytes behind the first ones are not asked for
      have hreceive : ∃ bytes c₂, connReceive (intOfSizeT n)
          { receivedBytes := List.replicate n 0 } = some (intOfSizeT n, bytes, c₂) := by
        have henough : (List.replicate n (0 : UInt8)).length ≥ (intOfSizeT n).toNat := by
          rw [hlength]
          split_ifs at hcount
          all_goals omega
        rw [connReceive, if_neg (by omega), if_neg (by omega), connReceiveLoop.eq_def]
        dsimp only [xioDowork]
        rw [if_neg Bool.false_ne_true, if_pos henough]
        rw [Int.toNat_of_nonneg (Int.le_of_lt hpos)]
        exact ⟨_, _, rfl⟩
      rcases hreceive with ⟨bytes, c₂, hreceive⟩
      have hrest : intOfSizeT (n - (intOfSizeT n).toNat) = 0 := by
        rw [intOfSizeT_eq (n - (intOfSizeT n).toNat)]
        split_ifs at hcount ⊢
        all_goals omega
      rw [hreceive] at hread
      dsimp only at hread
      rw [if_neg (by omega)] at hread
      obtain ⟨m, rfl⟩ : ∃ m, n = m + 1 := ⟨n - 1, by omega⟩
      have hmore : m + 1 - (intOfSizeT (m + 1)).toNat ≠ 0 := by
        split_ifs at hcount
        all_goals omega
      rw [readChunkLoop, if_neg hmore, hrest] at hread
      simp only [connReceive, Int.lt_irrefl, if_false, if_true, Int.le_refl, Option.some.injEq,
        Prod.mk.injEq, Int.add_zero] at hread
      split_ifs at hcount
      all_goals omega

end

/-! ## The sizes of chunks -/

section

variable {line : Bytes}

set_option maxRecDepth 8000 in
theorem hexaDigitVal_eq (c : UInt8) :
    hexaDigitVal c = if isDigitOf 16 c = true then some ((digitValue c).getD 0) else none := by
  revert c
  apply byte_forall
  decide

theorem hexadecimalFrom_eq (n : Nat) (text : Bytes) :
    hexadecimalFrom (n % 2 ^ 64) text =
      valueFrom 16 n (text.takeWhile (isDigitOf 16)) % 2 ^ 64 := by
  induction text generalizing n with
  | nil => rfl
  | cons c text ih =>
    rw [hexadecimalFrom, hexaDigitVal_eq, List.takeWhile_cons]
    by_cases hc : isDigitOf 16 c = true
    · rw [if_pos hc, if_pos hc, valueFrom_cons, ← ih]
      dsimp only
      congr 1
      omega
    · rw [if_neg hc, if_neg hc, valueFrom_nil]

theorem parse_hexadecimal_eq (src : Bytes) :
    parseStringToHexadecimal src =
      if src.head?.any (isDigitOf 16) = true then
        some (valueOf 16 (src.takeWhile (isDigitOf 16)) % 2 ^ 64)
      else none := by
  have hfrom := hexadecimalFrom_eq 0 src
  rw [Nat.zero_mod] at hfrom
  rw [parseStringToHexadecimal, hfrom, hexaDigitVal_eq]
  cases src with
  | nil => rfl
  | cons c src =>
    rw [List.headD_cons, List.head?_cons, Option.any_some]
    cases isDigitOf 16 c with
    | true => rfl
    | false => rfl

theorem takeWhile_cString {p : UInt8 → Bool} (hp : p 0 = false) (text : Bytes) :
    (cString text).takeWhile p = text.takeWhile p := by
  unfold cString
  induction text with
  | nil => rfl
  | cons b text ih =>
    rw [List.takeWhile_cons]
    by_cases hb : b = 0
    · subst hb
      simp [hp]
    · rw [if_pos (bne_iff_ne.2 hb), List.takeWhile_cons, List.takeWhile_cons, ih]

theorem head_cString {p : UInt8 → Bool} (hp : p 0 = false) (text : Bytes) :
    (cString text).head?.any p = text.head?.any p := by
  cases text with
  | nil => rfl
  | cons b text =>
    rw [cString, List.takeWhile_cons]
    by_cases hb : b = 0
    · subst hb
      simp [hp]
    · rw [if_pos (bne_iff_ne.2 hb)]
      rfl

set_option maxRecDepth 8000 in
theorem not_blank_of_digit (b : UInt8) (h : isDigitOf 16 b = true) : isBlank b = false := by
  revert b
  apply byte_forall
  decide

theorem chunkSize_plain_iff (line : Bytes) :
    (parseStringToHexadecimal (cString line) = chunkSize line ∧
        ∀ n, chunkSize line = some n → TakesChunk n) ↔ LineIsPlain line := by
  have hzero : isDigitOf 16 0 = false := by decide
  rw [parse_hexadecimal_eq, head_cString hzero, takeWhile_cString hzero, LineIsPlain]
  cases hsize : chunkSize line with
  | none =>
    dsimp only
    cases hhead : line.head?.any (isDigitOf 16) with
    | true => simp
    | false => simp
  | some n =>
    dsimp only
    cases hhead : line.head?.any (isDigitOf 16) with
    | false => simp
    | true =>
      have hline : line.dropWhile isBlank = line := by
        cases line with
        | nil => rfl
        | cons b line => rw [List.dropWhile_cons_of_neg (by rw [not_blank_of_digit b hhead]; decide)]
      have hn : valueOf 16 (line.takeWhile (isDigitOf 16)) % 2 ^ 64 = n := by
        rw [chunkSize, lengthText, hline] at hsize
        split_ifs at hsize with hfits
        rw [Option.some.injEq] at hsize
        rw [← hsize]
        apply Nat.mod_eq_of_lt
        have hmax := hfits.2.2
        rw [sizeMax] at hmax
        omega
      rw [if_pos rfl, hn]
      constructor
      · exact fun hboth => ⟨(takesChunk_iff n).1 (hboth.2 n rfl), rfl⟩
      · rintro ⟨hle, -⟩
        refine ⟨rfl, ?_⟩
        rintro m ⟨rfl⟩
        exact (takesChunk_iff n).2 hle

end

/-! ## The value of `Content-Length` -/

section

variable {value name : Bytes} {n : Nat} {info : ContentInfo}

theorem internStrnicmp_name {lower : Bytes} (hlower : ∀ c ∈ lower, toLower c = c) (name more : Bytes)
    (h : name.map toLower = lower) : internStrnicmp (name ++ more) lower lower.length = 0 := by
  induction name generalizing lower with
  | nil =>
    subst h
    cases more with
    | nil => rfl
    | cons _ _ => rfl
  | cons c name ih =>
    cases lower with
    | nil => cases h
    | cons c' lower =>
      rw [List.map_cons, List.cons.injEq] at h
      have hc := hlower c' (List.mem_cons_self ..)
      rw [List.cons_append, List.length_cons, internStrnicmp]
      rw [if_pos (by rw [h.1, hc, Int.sub_self])]
      exact ih (fun b hb => hlower b (List.mem_cons_of_mem _ hb)) h.2

theorem contentInfoOf_length (hname : name.map toLower = ascii "content-length:") :
    contentInfoOf (cString (name ++ value)) info =
      (parseStringToDecimalAndRemaining (cString value)).1.map fun lengthInMsg =>
        { info with bodyLength := (lengthInMsg % 2 ^ 64).toNat } := by
  have hlength : name.length = (ascii "content-length:").length := by
    rw [← hname, List.length_map]
  have hnul : 0 ∉ name := by
    intro hmem
    have hzero : toLower 0 ∈ ascii "content-length:" := hname ▸ List.mem_map_of_mem hmem
    revert hzero
    decide
  have hfound := internStrnicmp_name (forall_mem_of_all (by decide)) name (cString value) hname
  rw [cString_append hnul, contentInfoOf]
  dsimp only
  rw [if_pos hfound, ← hlength, List.drop_left]
  cases (parseStringToDecimalAndRemaining (cString value)).1 with
  | none => rfl
  | some _ => rfl

set_option maxRecDepth 8000 in
theorem space_of_blank (b : UInt8) (h : isBlank b = true) :
    isSpace b = true ∧ b ≠ 0 ∧ b ≠ 0x78 ∧ b ≠ 0x58 := by
  revert b
  apply byte_forall
  decide

/-- Digits with blanks around them. -/
structure Spelled (value digits : Bytes) : Prop where
  nonempty : digits ≠ []
  isDigits : ∀ b ∈ digits, isDigitOf 10 b = true
  start : (value.dropWhile isBlank).head? = digits.head?
  spelled : ∃ front back, value = front ++ (digits ++ back) ∧ (∀ b ∈ front, isBlank b = true) ∧
    ∀ b ∈ back, isBlank b = true

theorem spelled_of_contentLength (h : contentLength value = some n) :
    ∃ digits, Spelled value digits ∧ valueOf 10 digits = n ∧ n ≤ sizeMax := by
  rw [contentLength, lengthText] at h
  split_ifs at h with hfits
  rw [Option.some.injEq] at h
  have hback : ∀ b ∈ (value.dropWhile isBlank).dropWhile (isDigitOf 10), isBlank b = true :=
    List.dropWhile_eq_nil_iff.1 (List.isEmpty_iff.1 hfits.2.1)
  refine ⟨_, ⟨hfits.1, fun b hb => List.mem_takeWhile_imp hb, ?_, ?_⟩, h, h ▸ hfits.2.2⟩
  · have hsplit := List.takeWhile_append_dropWhile (p := isDigitOf 10) (l := value.dropWhile isBlank)
    rcases List.exists_cons_of_ne_nil hfits.1 with ⟨d, more, hdigits⟩
    rw [hdigits] at hsplit ⊢
    rw [← hsplit]
    rfl
  · refine ⟨value.takeWhile isBlank, _, ?_, fun b hb => List.mem_takeWhile_imp hb, hback⟩
    rw [List.takeWhile_append_dropWhile, List.takeWhile_append_dropWhile]

variable {digits : Bytes}

theorem Spelled.cString_eq (h : Spelled value digits) : cString value = value := by
  rcases h.spelled with ⟨front, back, rfl, hfront, hback⟩
  have hnul : 0 ∉ front ++ (digits ++ back) := by
    rw [List.mem_append, List.mem_append]
    rintro (hmem | hmem | hmem)
    · exact (space_of_blank 0 (hfront 0 hmem)).2.1 rfl
    · exact (isDigitOf_ten 0 (h.isDigits 0 hmem)).2.2.2.1 rfl
    · exact (space_of_blank 0 (hback 0 hmem)).2.1 rfl
  have happend := cString_append hnul []
  rw [List.append_nil] at happend
  exact happend.trans (List.append_nil _)

theorem Spelled.number_eq (h : Spelled value digits) :
    numberAt value = valueInC digits ∧ (numeral (behindSign value)).2 ≠ [] := by
  rcases h.spelled with ⟨front, back, rfl, hfront, hback⟩
  apply numberAt_digits (fun b hb => (space_of_blank b (hfront b hb)).1) h.nonempty h.isDigits
  intro b hb
  have hblank := space_of_blank b (hback b (List.mem_of_head? hb))
  refine ⟨?_, hblank.2.2⟩
  rw [← Bool.not_eq_true]
  intro hdigit
  have hspace := hblank.1
  rw [(isDigitOf_ten b hdigit).1] at hspace
  cases hspace

theorem contentLength_plain_iff (hname : name.map toLower = ascii "content-length:") :
    (contentInfoOf (cString (name ++ value)) info =
        (contentLength value).map (fun n => { info with bodyLength := n }) ∧
      ∀ n, contentLength value = some n → TakesChunk n) ↔ ValueIsPlain value := by
  rw [contentInfoOf_length hname, ValueIsPlain]
  cases hlength : contentLength value with
  | none =>
    rw [Option.map_none, Option.map_eq_none_iff, parse_none_iff]
    exact ⟨And.left, fun hnone => ⟨hnone, nofun⟩⟩
  | some n =>
    rcases spelled_of_contentLength hlength with ⟨digits, hspelled, rfl, hmax⟩
    rcases hspelled.number_eq with ⟨hnumber, hread⟩
    have hsame := valueInC_eq_iff hspelled.isDigits
    dsimp only
    rw [hspelled.cString_eq, hspelled.start, ← hsame]
    have htakes : (∀ m, some (valueOf 10 digits) = some m → TakesChunk m) ↔
        valueOf 10 digits ≤ 2 ^ 31 - 1 := by
      constructor
      · exact fun hall => (takesChunk_iff _).1 (hall _ rfl)
      · rintro hle m ⟨rfl⟩
        exact (takesChunk_iff _).2 hle
    rw [htakes]
    by_cases hint : NoInt value
    · rw [parse_none_iff.2 hint]
      refine iff_of_false (fun hboth => ?_) (fun hboth => ?_)
      · cases hboth.1
      · rw [NoInt, hnumber] at hint
        have hout := hint.resolve_left hread
        omega
    · rw [parse_some hint, hnumber]
      rw [NoInt, hnumber, not_or, not_or] at hint
      have hvalue : (((valueInC digits : Int) % 2 ^ 64).toNat) = valueInC digits := by omega
      rw [Option.map_some, Option.map_some, hvalue, Option.some.injEq]
      constructor
      · rintro ⟨heq, hle⟩
        exact ⟨hle, congrArg ContentInfo.bodyLength heq⟩
      · rintro ⟨hle, heq⟩
        exact ⟨by rw [heq], hle⟩

end

/-- The values of `Content-Length`, and the lines in front of chunks, that are read as the numbers they denote,
or rejected if they denote none. -/
theorem lengths_iff (name value line : Bytes) (info : ContentInfo) :
    (name.map toLower = ascii "content-length:" →
      ((contentInfoOf (cString (name ++ value)) info =
          (contentLength value).map (fun n => { info with bodyLength := n }) ∧
        ∀ n, contentLength value = some n → TakesChunk n) ↔ ValueIsPlain value)) ∧
    ((parseStringToHexadecimal (cString line) = chunkSize line ∧
        ∀ n, chunkSize line = some n → TakesChunk n) ↔ LineIsPlain line) :=
  ⟨fun hname => contentLength_plain_iff hname, chunkSize_plain_iff line⟩

/-- A length of 42 bytes, and a chunk of 26 with an extension. -/
theorem lengths_plain :
    contentInfoOf (cString (ascii "Content-Length: 42")) {} = some { bodyLength := 42 } ∧
      parseStringToHexadecimal (cString (ascii "1a;name=value")) = some 26 := by
  have hvalue : ValueIsPlain (ascii " 42") := by
    rw [ValueIsPlain, show contentLength (ascii " 42") = some 42 by decide]
    exact ⟨by decide, .inr (by decide)⟩
  have hline : LineIsPlain (ascii "1a;name=value") := by
    rw [LineIsPlain, show chunkSize (ascii "1a;name=value") = some 26 by decide]
    exact ⟨by decide, by decide⟩
  have hboth := lengths_iff (ascii "Content-Length:") (ascii " 42") (ascii "1a;name=value") {}
  exact ⟨((hboth.1 (by decide)).2 hvalue).1, (hboth.2.2 hline).1⟩

/-- A length with a 0 in front is read as an octal number. -/
theorem octal_content_length :
    ¬ contentInfoOf (cString (ascii "Content-Length: 010")) {} =
      (contentLength (ascii " 010")).map fun n => { bodyLength := n } := by
  decide

end SharedUtility.HttpApiCompact
