import SharedUtility.SasToken.Scope

/-!
# SelfConsistency — a created token is accepted

The validator accepts the token that `SASToken_Create` has made unless the scope cannot be read, the
signature ends in `sig=`, the expiry time is zero or becomes too small by rounding, or the token is
too long for an `int`.
-/

namespace SharedUtility.SasToken

/-! ## Base64 text -/

def isBase64Char (c : UInt8) : Bool :=
  (0x41 ≤ c && c ≤ 0x5A) || (0x61 ≤ c && c ≤ 0x7A) || (0x30 ≤ c && c ≤ 0x39) || c == 0x2B || c == 0x2F

theorem isBase64Char_printable {c : UInt8} (h : isBase64Char c = true) : isPrintable c = true := by
  simp only [isBase64Char, Bool.or_eq_true] at h
  rcases h with (((h | h) | h) | h) | h
  · simp [isPrintable, h]
  · simp [isPrintable, h]
  · simp [isPrintable, h]
  · rw [beq_iff_eq.1 h]
    decide
  · rw [beq_iff_eq.1 h]
    decide

set_option maxRecDepth 20000 in
theorem isBase64Char_base64char (val : UInt8) : isBase64Char (base64char val) = true := by
  have hall : ∀ k : Fin 256, isBase64Char (base64char (UInt8.ofNat k)) = true := by
    decide
  have hval := hall ⟨val.toNat, val.toNat_lt⟩
  simpa using hval

set_option maxRecDepth 20000 in
/-- The last character of a group of two bytes: no `e`, no `r`, and a `g` for one value only. -/
theorem base64b16_low (b : UInt8) :
    isBase64Char (base64b16 (b &&& 0x0F)) = true ∧ base64b16 (b &&& 0x0F) ≠ 0x65 ∧
      base64b16 (b &&& 0x0F) ≠ 0x72 ∧ (base64b16 (b &&& 0x0F) = 0x67 ↔ b &&& 0x0F = 8) := by
  have hall : ∀ k : Fin 256,
      isBase64Char (base64b16 (UInt8.ofNat k &&& 0x0F)) = true ∧
        base64b16 (UInt8.ofNat k &&& 0x0F) ≠ 0x65 ∧ base64b16 (UInt8.ofNat k &&& 0x0F) ≠ 0x72 ∧
          (base64b16 (UInt8.ofNat k &&& 0x0F) = 0x67 ↔ UInt8.ofNat k &&& 0x0F = 8) := by
    decide
  have hb := hall ⟨b.toNat, b.toNat_lt⟩
  simpa using hb

set_option maxRecDepth 20000 in
theorem base64char_s (b : UInt8) : base64char (b >>> 2) = 0x73 ↔ b &&& 0xFC = 0xB0 := by
  have hall : ∀ k : Fin 256,
      (base64char (UInt8.ofNat k >>> 2) = 0x73 ↔ UInt8.ofNat k &&& 0xFC = 0xB0) := by
    decide
  have hb := hall ⟨b.toNat, b.toNat_lt⟩
  simpa using hb

set_option maxRecDepth 20000 in
theorem base64char_i (val : UInt8) : base64char val = 0x69 ↔ val = 34 := by
  have hall : ∀ k : Fin 256, (base64char (UInt8.ofNat k) = 0x69 ↔ UInt8.ofNat k = 34) := by
    decide
  have hval := hall ⟨val.toNat, val.toNat_lt⟩
  simpa using hval

theorem base64EncodeInternal_append {head tail : Bytes} (h : head.length % 3 = 0) :
    base64EncodeInternal (head ++ tail) =
      base64EncodeInternal head ++ base64EncodeInternal tail := by
  fun_induction base64EncodeInternal head with
  | case1 b0 b1 b2 rest ih =>
    have hrest : rest.length % 3 = 0 := by
      simp only [List.length_cons] at h
      omega
    simp only [List.cons_append, base64EncodeInternal, ih hrest]
  | case2 b0 b1 => simp at h
  | case3 b0 => simp at h
  | case4 => rfl

theorem base64EncodeInternal_groups (source : Bytes) (h : source.length % 3 = 0) :
    (base64EncodeInternal source).length = source.length / 3 * 4 ∧
      ∀ c ∈ base64EncodeInternal source, isBase64Char c = true := by
  fun_induction base64EncodeInternal source with
  | case1 b0 b1 b2 rest ih =>
    have hrest : rest.length % 3 = 0 := by
      simp only [List.length_cons] at h
      omega
    rcases ih hrest with ⟨hlength, hchars⟩
    constructor
    · simp only [List.length_cons, hlength]
      omega
    · intro c hc
      simp only [List.mem_cons] at hc
      rcases hc with rfl | rfl | rfl | rfl | hc
      · exact isBase64Char_base64char _
      · exact isBase64Char_base64char _
      · exact isBase64Char_base64char _
      · exact isBase64Char_base64char _
      · exact hchars c hc
  | case2 b0 b1 => simp at h
  | case3 b0 => simp at h
  | case4 => exact ⟨rfl, nofun⟩

/-! ## The signature -/

/-- The last two bytes of a hash that make its signature end in `sig=`. -/
def endsInSig (hash : Bytes) : Bool :=
  hash.drop 30 == [0xB2, 0x28]

set_option maxRecDepth 20000 in
theorem sig_group (b0 b1 : UInt8) :
    (b0 &&& 0xFC = 0xB0 ∧ (((b0 &&& 3) <<< 4) ||| (b1 >>> 4)) = 34 ∧ b1 &&& 0x0F = 8) ↔
      b0 = 0xB2 ∧ b1 = 0x28 := by
  have hfirst : ∀ k : Fin 256, UInt8.ofNat k &&& 0xFC = 0xB0 →
      UInt8.ofNat k = 0xB0 ∨ UInt8.ofNat k = 0xB1 ∨ UInt8.ofNat k = 0xB2 ∨
        UInt8.ofNat k = 0xB3 := by
    decide
  have hsecond : ∀ j : Fin 4, ∀ k : Fin 256,
      (((UInt8.ofNat (0xB0 + j) &&& 3) <<< 4) ||| (UInt8.ofNat k >>> 4)) = 34 →
        UInt8.ofNat k &&& 0x0F = 8 → UInt8.ofNat (0xB0 + j) = 0xB2 ∧ UInt8.ofNat k = 0x28 := by
    decide
  constructor
  · rintro ⟨h0, h1, h2⟩
    have hb0 := hfirst ⟨b0.toNat, b0.toNat_lt⟩
    simp only [UInt8.ofNat_toNat] at hb0
    have hb1 := fun j => hsecond j ⟨b1.toNat, b1.toNat_lt⟩
    simp only [UInt8.ofNat_toNat] at hb1
    rcases hb0 h0 with rfl | rfl | rfl | rfl
    · exact hb1 0 h1 h2
    · exact hb1 1 h1 h2
    · exact hb1 2 h1 h2
    · exact hb1 3 h1 h2
  · rintro ⟨rfl, rfl⟩
    decide

/-- The encoded signature of a hash: ten groups, and a last one with one character of padding. -/
theorem signature_of_hash {hash : Bytes} (h : hash.length = 32) :
    ∃ (text : Bytes) (c1 c2 c3 : UInt8),
      urlEncode (base64EncodeInternal hash) = text ++ [c1, c2, c3, 0x3D] ∧ text.length = 40 ∧
        (∀ c ∈ text ++ [c1, c2, c3], c ≠ 0x3D) ∧ c3 ≠ 0x65 ∧ c3 ≠ 0x72 ∧
          ((c1 = 0x73 ∧ c2 = 0x69 ∧ c3 = 0x67) ↔ endsInSig hash = true) := by
  have hsplit : hash = hash.take 30 ++ hash.drop 30 := (List.take_append_drop 30 hash).symm
  have hbody : (hash.take 30).length = 30 := by simp [h]
  have hlast : (hash.drop 30).length = 2 := by simp [h]
  rcases hend : hash.drop 30 with _ | ⟨b0, _ | ⟨b1, _ | ⟨b2, rest⟩⟩⟩
  · simp [hend] at hlast
  · simp [hend] at hlast
  · rw [hend] at hsplit
    have hgroups := base64EncodeInternal_groups (hash.take 30) (by rw [hbody])
    have hencoded : base64EncodeInternal hash = base64EncodeInternal (hash.take 30) ++
        [base64char (b0 >>> 2), base64char (((b0 &&& 3) <<< 4) ||| (b1 >>> 4)),
          base64b16 (b1 &&& 0x0F), 0x3D] := by
      calc base64EncodeInternal hash
          = base64EncodeInternal (hash.take 30 ++ [b0, b1]) := by rw [← hsplit]
        _ = base64EncodeInternal (hash.take 30) ++ base64EncodeInternal [b0, b1] :=
              base64EncodeInternal_append (by rw [hbody])
    have hchars : ∀ c ∈ base64EncodeInternal (hash.take 30) ++ [base64char (b0 >>> 2),
        base64char (((b0 &&& 3) <<< 4) ||| (b1 >>> 4)), base64b16 (b1 &&& 0x0F)],
        isBase64Char c = true := by
      intro c hc
      simp only [List.mem_append, List.mem_cons, List.not_mem_nil, or_false] at hc
      rcases hc with hc | rfl | rfl | rfl
      · exact hgroups.2 c hc
      · exact isBase64Char_base64char _
      · exact isBase64Char_base64char _
      · exact (base64b16_low b1).1
    refine ⟨base64EncodeInternal (hash.take 30), base64char (b0 >>> 2),
      base64char (((b0 &&& 3) <<< 4) ||| (b1 >>> 4)), base64b16 (b1 &&& 0x0F), ?_, ?_, ?_,
      (base64b16_low b1).2.1, (base64b16_low b1).2.2.1, ?_⟩
    · rw [hencoded]
      apply urlEncode_of_printable
      intro c hc
      simp only [List.mem_append, List.mem_cons, List.not_mem_nil, or_false] at hc hchars
      rcases hc with hc | hc | hc | hc | rfl
      · exact isBase64Char_printable (hchars c (.inl hc))
      · exact isBase64Char_printable (hchars c (.inr (.inl hc)))
      · exact isBase64Char_printable (hchars c (.inr (.inr (.inl hc))))
      · exact isBase64Char_printable (hchars c (.inr (.inr (.inr hc))))
      · decide
    · rw [hgroups.1, hbody]
    · intro c hc heq
      have hchar := hchars c hc
      rw [heq] at hchar
      exact absurd hchar (by decide)
    · rw [base64char_s, base64char_i, (base64b16_low b1).2.2.2, sig_group, endsInSig, hend]
      simp
  · simp [hend] at hlast

section

variable {i : Nat} {prev : UInt8} {text tail : Bytes} {fields : Fields}

/-- No name starts before the last group; there, only `sig=` can. -/
theorem scanText_signature {c1 c2 c3 : UInt8} (i : Nat) (prev : UInt8) (tail : Bytes)
    (fields : Fields) (hlength : text.length = 40)
    (hchars : ∀ c ∈ text ++ [c1, c2, c3], c ≠ 0x3D) (he : c3 ≠ 0x65) (hr : c3 ≠ 0x72) :
    ∃ p, scanText i prev (text ++ [c1, c2, c3, 0x3D] ++ tail) fields =
      scanText (i + 44) 0x3D tail
        (if c1 = 0x73 ∧ c2 = 0x69 ∧ c3 = 0x67 then
          scanAt (i + 40) p (0x73 :: 0x69 :: 0x67 :: 0x3D :: tail) fields
        else fields) := by
  have hskip := scanText_skip (i := i) (p := prev) (f := fields) (t := text)
    (u := c1 :: c2 :: c3 :: 0x3D :: tail) fun s hs hne => by
      have hequals : 0x3D ∉ s ++ [c1, c2, c3] := by
        intro hmem
        rcases List.mem_append.1 hmem with hmem | hmem
        · exact hchars _ (List.mem_append_left _ (hs.subset hmem)) rfl
        · exact hchars _ (List.mem_append_right _ hmem) rfl
      have hfour : 4 ≤ (s ++ [c1, c2, c3]).length := by
        have hpos := List.length_pos_iff.2 hne
        simp only [List.length_append, List.length_cons, List.length_nil]
        omega
      have hlong : startsName (s ++ [c1, c2, c3] ++ 0x3D :: tail) = false :=
        startsName_of_long hequals hfour
      simpa using hlong
  have hc1 : c1 ≠ 0x3D := hchars c1 (by simp)
  have hc2 : c2 ≠ 0x3D := hchars c2 (by simp)
  have hc3 : c3 ≠ 0x3D := hchars c3 (by simp)
  have hse : ascii "se=" = [0x73, 0x65, 0x3D] := rfl
  have hsr : ascii "sr=" = [0x73, 0x72, 0x3D] := rfl
  have hsig : ascii "sig=" = [0x73, 0x69, 0x67, 0x3D] := rfl
  -- The other three places of the last group.
  have hsecond : ∀ p f, scanAt (i + 40 + 1) p (c2 :: c3 :: 0x3D :: tail) f = f := by
    intro p f
    apply scanAt_of_no_name
    simp [startsName, fieldNames, hse, hsr, hsig, List.isPrefixOf, he.symm, hr.symm]
  have hthird : ∀ p f, scanAt (i + 40 + 1 + 1) p (c3 :: 0x3D :: tail) f = f := by
    intro p f
    apply scanAt_of_no_name
    simp [startsName, fieldNames, hse, hsr, hsig, List.isPrefixOf]
  refine ⟨text.getLastD prev, ?_⟩
  have happend : text ++ [c1, c2, c3, 0x3D] ++ tail = text ++ c1 :: c2 :: c3 :: 0x3D :: tail := by
    simp
  rw [happend, hskip, hlength, scanText_cons, scanText_cons, hsecond, scanText_cons, hthird,
    scanText_cons, scanAt_of_ne (by decide)]
  congr 1
  split
  case isTrue h =>
    rcases h with ⟨rfl, rfl, rfl⟩
    rfl
  case isFalse h =>
    apply scanAt_of_no_name
    simp only [startsName, fieldNames, hse, hsr, hsig, List.any_cons, List.any_nil, Bool.or_false,
      List.isPrefixOf, Bool.and_true, beq_self_eq_true]
    grind

/-! ## Behind the signature -/

/-- The rest of a token: the expiry time, and the name of the key. -/
def tokenEnd (tokenExpirationTime : Bytes) (keyname : Option Bytes) : Bytes :=
  tokenExpirationTime ++
    (match keyname with
      | some keyname => ascii "&skn=" ++ keyname
      | none => [])

theorem scanText_tokenEnd {tokenExpirationTime : Bytes} {keyname : Option Bytes}
    (hdigits : 0x3D ∉ tokenExpirationTime) (hkeyname : ∀ name ∈ keyname, 0x3D ∉ name) :
    scanText i prev (tokenEnd tokenExpirationTime keyname) fields = fields := by
  cases keyname with
  | none =>
    rw [tokenEnd, List.append_nil]
    exact scanText_skip_end hdigits
  | some name =>
    have hname : 0x3D ∉ name := hkeyname name rfl
    have hskn : ∀ p, scanAt (i + tokenExpirationTime.length + 1) p
        (0x73 :: 0x6B :: 0x6E :: 0x3D :: name) fields = fields := fun p =>
      scanAt_of_no_name rfl
    have happend : tokenEnd tokenExpirationTime (some name) =
        tokenExpirationTime ++ 0x26 :: 0x73 :: 0x6B :: 0x6E :: 0x3D :: name := rfl
    rw [happend, scanText_skip_separator hdigits (.inl rfl), scanText_cons, hskn]
    simp only [scanText_cons]
    simp (disch := decide) only [scanAt_of_ne]
    exact scanText_skip_end hname

theorem scanText_seBegins :
    scanText i prev (ascii "&se=" ++ tail) fields =
      scanText (i + 4) 0x3D tail (scanAt (i + 1) 0x26 (0x73 :: 0x65 :: 0x3D :: tail) fields) := by
  have happend : ascii "&se=" ++ tail = 0x26 :: 0x73 :: 0x65 :: 0x3D :: tail := rfl
  rw [happend]
  simp only [scanText_cons]
  simp (disch := decide) only [scanAt_of_ne]

theorem scanText_srBegins :
    scanText 0 0 (ascii "SharedAccessSignature sr=" ++ tail) {} =
      scanText 25 0x3D tail { sr := ⟨25, -1⟩ } := by
  have happend : ascii "SharedAccessSignature sr=" ++ tail =
      ascii "SharedAccessSignature" ++ 0x20 :: 0x73 :: 0x72 :: 0x3D :: tail := rfl
  have hscan : scanAt 22 0x20 (0x73 :: 0x72 :: 0x3D :: tail) {} = { sr := ⟨25, -1⟩ } := rfl
  rw [happend, scanText_skip_separator (by decide) (.inr rfl)]
  have hlength : 0 + (ascii "SharedAccessSignature").length + 1 = 22 := rfl
  rw [hlength, scanText_cons, hscan]
  simp only [scanText_cons]
  simp (disch := decide) only [scanAt_of_ne]

end

/-! ## The whole token -/

def tokenText (scope signature tokenExpirationTime : Bytes) (keyname : Option Bytes) : Bytes :=
  ascii "SharedAccessSignature sr=" ++ scope ++ ascii "&sig=" ++ signature ++ ascii "&se=" ++
    tokenEnd tokenExpirationTime keyname

section

variable {scope hash time : Bytes} {keyname : Option Bytes} {expiry : Nat}

/-- Where the signature starts. -/
def signatureStart (scope : Bytes) : Nat :=
  25 + scope.length + 5

/-- The scope and the signature of the token are read as they were written. -/
def readsBack (scope hash : Bytes) : Bool :=
  readsScope scope && !endsInSig hash

theorem scanText_tokenText (scope : Bytes) (hhash : hash.length = 32) (htime : 0x3D ∉ time)
    (hkeyname : ∀ name ∈ keyname, 0x3D ∉ name) :
    (readsBack scope hash = true → ∃ start stop : Int, 0 ≤ start ∧ start < stop ∧
        scanText 0 0 (tokenText scope (urlEncode (base64EncodeInternal hash)) time keyname) {} =
          { se := ⟨(signatureStart scope + 48 : Nat), -1⟩, sr := ⟨start, stop⟩,
            sig := ⟨signatureStart scope, (signatureStart scope + 43 : Nat)⟩ }) ∧
      (readsBack scope hash = false → ∃ n, AnyBad n
        (scanText 0 0 (tokenText scope (urlEncode (base64EncodeInternal hash)) time keyname) {})) := by
  rcases signature_of_hash hhash with ⟨text, c1, c2, c3, hsignature, hlength, hchars, he, hr, hspells⟩
  have happend : tokenText scope (urlEncode (base64EncodeInternal hash)) time keyname =
      ascii "SharedAccessSignature sr=" ++ (scope ++ sigBegins
        (text ++ [c1, c2, c3, 0x3D] ++ (ascii "&se=" ++ tokenEnd time keyname))) := by
    rw [tokenText, hsignature]
    simp [sigBegins, show ascii "&sig=" = [0x26, 0x73, 0x69, 0x67, 0x3D] from rfl]
  rcases scanText_scope 25 scope
    (text ++ [c1, c2, c3, 0x3D] ++ (ascii "&se=" ++ tokenEnd time keyname)) (by decide)
    with ⟨fields, hread, hscan⟩
  rcases scanText_signature (signatureStart scope) 0x3D (ascii "&se=" ++ tokenEnd time keyname)
    fields hlength hchars he hr with ⟨p, hsigned⟩
  rw [happend, scanText_srBegins]
  have hscan25 : scanText 25 0x3D (scope ++ sigBegins
      (text ++ [c1, c2, c3, 0x3D] ++ (ascii "&se=" ++ tokenEnd time keyname))) { sr := ⟨25, -1⟩ } =
      scanText (signatureStart scope) 0x3D
        (text ++ [c1, c2, c3, 0x3D] ++ (ascii "&se=" ++ tokenEnd time keyname)) fields := hscan
  rw [hscan25, hsigned, scanText_seBegins, scanText_tokenEnd htime hkeyname]
  rw [show 25 + scope.length + 5 = signatureStart scope from rfl] at hread
  generalize signatureStart scope = q at hread
  cases hreads : readsScope scope with
  | true =>
    rw [hreads] at hread
    rcases hread with ⟨start, stop, hstart, horder, hbefore, rfl⟩
    have hsrClosed : (⟨start, stop⟩ : Field).isOpen = false :=
      isOpen_of_stopped (by dsimp only; omega)
    have hseClosed : ({} : Field).isOpen = false := rfl
    have hopen : ∀ n : Int, 0 < n → (⟨n, -1⟩ : Field).isOpen = true := fun _ => isOpen_of_started
    cases hends : endsInSig hash with
    | false =>
      have hnospell : ¬ (c1 = 0x73 ∧ c2 = 0x69 ∧ c3 = 0x67) := by
        rw [hspells, hends]
        decide
      rw [if_neg hnospell]
      constructor
      · intro _
        refine ⟨start, stop, hstart, horder, ?_⟩
        show Fields.mk _ _ _ = _
        simp only [startField, hsrClosed, hopen (q : Int) (by omega), if_true,
          Bool.false_eq_true, if_false, stopBefore]
        simp only [show ((0x26 : UInt8) = 0x20) = False by decide, if_false]
        congr 2
        omega
      · intro h
        simp [readsBack, hreads, hends] at h
    | true =>
      have hspell : c1 = 0x73 ∧ c2 = 0x69 ∧ c3 = 0x67 := hspells.2 hends
      rw [if_pos hspell]
      constructor
      · intro h
        simp [readsBack, hends] at h
      · -- The value of `sig` starts again behind the padding, where the ampersand stops it.
        intro _
        have hagain : scanAt (q + 40) p
            (0x73 :: 0x69 :: 0x67 :: 0x3D :: (ascii "&se=" ++ tokenEnd time keyname))
            { sr := ⟨start, stop⟩, sig := ⟨q, -1⟩ } =
            { sr := ⟨start, stop⟩, sig := ⟨(q + 40 : Nat) + 4, -1⟩ } := by
          show Fields.mk _ _ _ = _
          simp only [startField, hsrClosed, hseClosed, Bool.false_eq_true, if_false]
        refine ⟨q + 45 + 1, .inr (.inr ?_)⟩
        rw [hagain]
        show Bad _ (startField _ _ _ _ _ _).2.2
        simp only [startField, hsrClosed, hopen ((q + 40 : Nat) + 4 : Int) (by omega), if_true,
          Bool.false_eq_true, if_false, stopBefore]
        simp only [show ((0x26 : UInt8) = 0x20) = False by decide, if_false]
        constructor
        case stopped =>
          dsimp only
          omega
        case before =>
          dsimp only
          omega
        case order =>
          right
          dsimp only
          omega
  | false =>
    rw [hreads] at hread
    constructor
    · intro h
      simp [readsBack, hreads] at h
    · intro _
      have hname : (ascii "se=").isPrefixOf
          (0x73 :: 0x65 :: 0x3D :: tokenEnd time keyname) = true := rfl
      refine ⟨q + 44 + 1 + 1, Doomed.anyBad ?_ hname⟩
      split
      · exact ((Doomed.later (n := 40) hread).scanAt).later (n := 4)
      · exact Doomed.later (n := 45) hread

/-- The expiry time as it is read back: rounded to double precision with every digit. -/
def roundedExpiry (expiry : Nat) : Nat :=
  if expiry < 10 then expiry
  else roundDouble (roundDouble (roundedExpiry (expiry / 10) * 10) + expiry % 10)

theorem roundedExpiry_of_lt {expiry : Nat} (h : expiry < 2 ^ 53) :
    roundedExpiry expiry = expiry := by
  fun_induction roundedExpiry expiry with
  | case1 expiry hsmall => rfl
  | case2 expiry hlarge ih =>
    have hshifted : roundDouble (expiry / 10 * 10) = expiry / 10 * 10 :=
      roundDouble_of_lt (by omega)
    rw [ih (by omega), hshifted, roundDouble_of_lt (by omega)]
    omega

theorem roundedExpiry_pos {expiry : Nat} : 0 < roundedExpiry expiry ↔ 0 < expiry := by
  fun_induction roundedExpiry expiry with
  | case1 expiry hsmall => exact Iff.rfl
  | case2 expiry hlarge ih =>
    have hrest : 0 < roundedExpiry (expiry / 10) := ih.2 (by omega)
    have hvalue : 0 < roundDouble (roundedExpiry (expiry / 10) * 10) := roundDouble_pos (by omega)
    have hsum := roundDouble_pos
      (n := roundDouble (roundedExpiry (expiry / 10) * 10) + expiry % 10) (by omega)
    exact ⟨fun _ => by omega, fun _ => hsum⟩

theorem getExpiryValueFrom_append {digits : Bytes} (value : Nat) (rest : Bytes)
    (h : ∀ c ∈ digits, isDigit c = true) :
    getExpiryValueFrom value (digits ++ rest) =
      getExpiryValueFrom (getExpiryValueFrom value digits) rest := by
  induction digits generalizing value with
  | nil => rfl
  | cons c digits ih =>
    have hc := h c (List.mem_cons_self ..)
    simp only [List.cons_append, getExpiryValueFrom, hc, if_true]
    exact ih _ fun c hc => h c (List.mem_cons_of_mem _ hc)

theorem getExpiryValueFrom_digit {value n : Nat} :
    getExpiryValueFrom value [UInt8.ofNat (0x30 + n % 10)] =
      roundDouble (roundDouble (value * 10) + n % 10) := by
  have hdigit : ∀ k : Fin 10, (UInt8.ofNat (0x30 + k)).toNat - 0x30 = k := by
    decide
  have hn := hdigit ⟨n % 10, Nat.mod_lt n (by decide)⟩
  simp only [getExpiryValueFrom, isDigit_ofNat, if_true, hn]

theorem getExpiryValue_digits {room expiry : Nat} (h : expiry < 10 ^ room) (hroom : 0 < room) :
    getExpiryValue (sizeTToStringLoop room expiry).1 = roundedExpiry expiry := by
  induction room generalizing expiry with
  | zero => omega
  | succ room ih =>
    rw [sizeTToStringLoop]
    split
    case isTrue hmore =>
      have hrest : expiry / 10 < 10 ^ room := by
        rw [Nat.pow_succ] at h
        omega
      have hroom : 0 < room := by
        cases room with
        | zero => omega
        | succ room => exact Nat.succ_pos room
      have hdigits := getExpiryValueFrom_append 0 [UInt8.ofNat (0x30 + expiry % 10)]
        (sizeTToStringLoop_digits room (expiry / 10))
      have hvalue : getExpiryValueFrom 0 (sizeTToStringLoop room (expiry / 10)).1 =
          roundedExpiry (expiry / 10) := ih hrest hroom
      rw [hvalue, getExpiryValueFrom_digit] at hdigits
      rw [roundedExpiry, if_neg (by omega)]
      exact hdigits
    case isFalse hlast =>
      have hsmall : expiry < 10 := by omega
      have hzero : getExpiryValue [UInt8.ofNat (0x30 + expiry % 10)] =
          roundDouble (roundDouble (0 * 10) + expiry % 10) := getExpiryValueFrom_digit
      rw [roundedExpiry, if_pos hsmall, hzero, roundDouble_of_lt (n := 0 * 10) (by decide),
        roundDouble_of_lt (by omega)]
      omega

/-! ## The verdict -/

theorem sizeTToStringLoop_ne_nil {room : Nat} (h : 0 < room) :
    (sizeTToStringLoop room expiry).1 ≠ [] := by
  cases room with
  | zero => omega
  | succ room =>
    rw [sizeTToStringLoop]
    split
    · simp
    · simp

theorem isDigit_ne {c : UInt8} (h : isDigit c = true) : c ≠ 0x3D ∧ c ≠ 0x26 := by
  constructor
  · rintro rfl
    exact absurd h (by decide)
  · rintro rfl
    exact absurd h (by decide)

theorem takeWhile_tokenEnd (h : ∀ c ∈ time, isDigit c = true) :
    (tokenEnd time keyname).takeWhile (· != 0x26) = time := by
  have hall : ∀ c ∈ time, (c != 0x26) = true := by
    intro c hc
    exact bne_iff_ne.2 (isDigit_ne (h c hc)).2
  unfold tokenEnd
  rw [List.takeWhile_append_of_pos hall]
  cases keyname with
  | none => simp
  | some name =>
    have hstop : (ascii "&skn=" ++ name).takeWhile (· != 0x26) = [] := rfl
    simp only [hstop, List.append_nil]

theorem drop_tokenText (scope time : Bytes) (keyname : Option Bytes) {signature : Bytes}
    (h : signature.length = 44) :
    (tokenText scope signature time keyname).length =
        signatureStart scope + 48 + (tokenEnd time keyname).length ∧
      (tokenText scope signature time keyname).drop (signatureStart scope + 48) =
        tokenEnd time keyname := by
  have hbefore : (ascii "SharedAccessSignature sr=" ++ scope ++ ascii "&sig=" ++ signature ++
      ascii "&se=").length = signatureStart scope + 48 := by
    simp only [List.length_append, h, signatureStart,
      show (ascii "SharedAccessSignature sr=").length = 25 from rfl,
      show (ascii "&sig=").length = 5 from rfl, show (ascii "&se=").length = 4 from rfl]
  constructor
  · rw [tokenText, List.length_append, hbefore]
  · rw [tokenText, List.drop_left' hbefore]

theorem sasTokenValidate_tokenText {room : Nat} (scope : Bytes) (allocated : Bool) (now : Int)
    (hhash : hash.length = 32) (hroom : 0 < room) (hexpiry : expiry < 10 ^ room)
    (htime : (sizeTToStringLoop room expiry).1 = time) (hkeyname : ∀ name ∈ keyname, 0x3D ∉ name)
    (hlength : (tokenText scope (urlEncode (base64EncodeInternal hash)) time keyname).length < 2 ^ 31) :
    sasTokenValidate (tokenText scope (urlEncode (base64EncodeInternal hash)) time keyname)
        allocated now = true ↔
      readsBack scope hash = true ∧ allocated = true ∧ 0 < expiry ∧
        doubleOfTime now ≤ roundedExpiry expiry := by
  have hdigits : ∀ c ∈ time, isDigit c = true := by
    rw [← htime]
    exact sizeTToStringLoop_digits room expiry
  have hequals : 0x3D ∉ time := fun hmem => (isDigit_ne (hdigits _ hmem)).1 rfl
  have hnonempty : 0 < time.length := by
    rw [← htime]
    exact List.length_pos_iff.2 (sizeTToStringLoop_ne_nil hroom)
  have hvalue : getExpiryValue time = roundedExpiry expiry := by
    rw [← htime]
    exact getExpiryValue_digits hexpiry hroom
  have hsignature : (urlEncode (base64EncodeInternal hash)).length = 44 := by
    rcases signature_of_hash hhash with ⟨text, c1, c2, c3, heq, htext, -⟩
    simp [heq, htext]
  have hscan := scanText_tokenText scope hhash hequals hkeyname
  have hdrop := drop_tokenText scope time keyname hsignature
  generalize htoken : tokenText scope (urlEncode (base64EncodeInternal hash)) time keyname = token
    at hlength hscan hdrop ⊢
  cases hreads : readsBack scope hash with
  | false =>
    rcases hscan.2 hreads with ⟨n, hbad⟩
    rw [sasTokenValidate_of_bad hlength hbad]
    simp
  | true =>
    rcases hscan.1 hreads with ⟨start, stop, hstart, horder, hfields⟩
    have hint : intOfLength token.length = token.length := intOfLength_of_lt hlength
    have hend : (tokenEnd time keyname).take (token.length - (signatureStart scope + 48)) =
        tokenEnd time keyname := by
      apply List.take_of_length_le
      omega
    have hascii : expiryASCII token ⟨(signatureStart scope + 48 : Nat), token.length⟩ = time := by
      have hroom : ((token.length : Int) - (signatureStart scope + 48 : Nat)).toNat =
          token.length - (signatureStart scope + 48) := by omega
      simp only [expiryASCII, Int.toNat_natCast, hdrop.2, hroom, hend]
      exact takeWhile_tokenEnd hdigits
    have htail : time.length ≤ (tokenEnd time keyname).length := by
      unfold tokenEnd
      rw [List.length_append]
      exact Nat.le_add_right _ _
    have hse : (0 : Int) ≤ (signatureStart scope + 48 : Nat) ∧
        ((signatureStart scope + 48 : Nat) : Int) < token.length :=
      ⟨Int.natCast_nonneg _, Int.ofNat_lt.2 (by omega)⟩
    have hsig : (0 : Int) ≤ (signatureStart scope : Nat) ∧
        ((signatureStart scope : Nat) : Int) < (signatureStart scope + 43 : Nat) :=
      ⟨Int.natCast_nonneg _, Int.ofNat_lt.2 (Nat.lt_add_of_pos_right (by decide))⟩
    have hverdict := sasTokenValidate_of_fields allocated now hlength hfields hse ⟨hstart, horder⟩ hsig
    rw [hverdict, hascii, hvalue, roundedExpiry_pos]
    simp

/-! ## Created tokens -/

def tokenHash (hmacSha256 : Bytes → Bytes → Bytes) (uninitialised : Nat → UInt8)
    (key scope : Bytes) (expiry : Nat) : Bytes :=
  hmacSha256 ((base64Decoder key uninitialised).getD [])
    (scope ++ ascii "\n" ++ (sizeTToString 32 expiry).getD [])

variable {hmacSha256 : Bytes → Bytes → Bytes} {uninitialised : Nat → UInt8} {key token : Bytes}

theorem constructSasToken_eq_some {a : Bool}
    (h : constructSasToken hmacSha256 uninitialised a key scope keyname expiry = some token) :
    token = tokenText scope
      (urlEncode (base64EncodeInternal (tokenHash hmacSha256 uninitialised key scope expiry)))
      (sizeTToStringLoop 31 expiry).1 keyname := by
  unfold constructSasToken at h
  cases hkey : base64Decoder key uninitialised with
  | none => simp [hkey] at h
  | some decodedKey =>
    cases htime : sizeTToString 32 expiry with
    | none => simp [hkey, htime] at h
    | some time =>
      have hdigits : time = (sizeTToStringLoop 31 expiry).1 := by
        have hloop := htime
        simp only [sizeTToString] at hloop
        grind
      simp only [hkey, htime] at h
      split at h
      · cases h
      · rw [tokenHash, hkey, htime, ← hdigits]
        unfold tokenText tokenEnd
        rw [← List.append_assoc]
        exact (Option.some.inj h).symm

/-- What a created token needs for its validation, when the clock says `now`. -/
structure SelfConsistent (hash scope token : Bytes) (expiry : Nat) (allocated : Bool) (now : Int) :
    Prop where
  scope : readsScope scope = true
  signature : endsInSig hash = false
  notZero : 0 < expiry
  rounded : doubleOfTime now ≤ roundedExpiry expiry
  length : token.length < 2 ^ 31
  allocated : allocated = true

/-- An encoded resource name, and a time that a `double` holds. -/
theorem SelfConsistent.of_ordinary {a : Bool} {now : Int} (hscope : 0x3D ∉ scope)
    (hlength : 2 ≤ scope.length) (hash_end : endsInSig hash = false) (hnow : 0 ≤ now)
    (hexpiry : now ≤ expiry) (hpos : 0 < expiry) (hsmall : expiry < 2 ^ 53)
    (htoken : token.length < 2 ^ 31) (ha : a = true) :
    SelfConsistent hash scope token expiry a now := by
  refine ⟨readsScope_of_no_equals hscope hlength, hash_end, hpos, ?_, htoken, ha⟩
  rw [roundedExpiry_of_lt hsmall, doubleOfTime, if_neg (by omega), roundDouble_of_lt (by omega)]
  omega

/-- `SASToken_Validate` of what `SASToken_Create` has returned.  From `2 ^ 32` characters on the
length wraps around, and only the start of the token is read. -/
theorem sasTokenValidate_of_constructSasToken (allocated : Bool) (now : Int)
    (hhash : ∀ key text, (hmacSha256 key text).length = 32)
    (hkeyname : ∀ name ∈ keyname, 0x3D ∉ name) (hexpiry : expiry ≤ sizeMax)
    (h : constructSasToken hmacSha256 uninitialised true key scope keyname expiry = some token) :
    (SelfConsistent (tokenHash hmacSha256 uninitialised key scope expiry) scope token expiry
        allocated now → sasTokenValidate token allocated now = true) ∧
      (token.length < 2 ^ 32 → sasTokenValidate token allocated now = true →
        SelfConsistent (tokenHash hmacSha256 uninitialised key scope expiry) scope token expiry
          allocated now) := by
  have htoken := constructSasToken_eq_some h
  have hroom : expiry < 10 ^ 31 := Nat.lt_of_le_of_lt hexpiry (by decide)
  have hverdict := fun hlength => sasTokenValidate_tokenText scope allocated now
    (show (tokenHash hmacSha256 uninitialised key scope expiry).length = 32 from hhash _ _)
    (show 0 < 31 by decide) hroom rfl hkeyname hlength
  rw [← htoken] at hverdict
  constructor
  · intro hconsistent
    refine (hverdict hconsistent.length).2 ⟨?_, hconsistent.allocated, hconsistent.notZero,
      hconsistent.rounded⟩
    simp [readsBack, hconsistent.scope, hconsistent.signature]
  · intro hlength hvalid
    by_cases hshort : token.length < 2 ^ 31
    · rcases (hverdict hshort).1 hvalid with ⟨hreads, hallocated, hpos, hrounded⟩
      simp only [readsBack, Bool.and_eq_true, Bool.not_eq_true'] at hreads
      exact ⟨hreads.1, hreads.2, hpos, hrounded, hshort, hallocated⟩
    · rw [sasTokenValidate_of_large (by omega) hlength] at hvalid
      cases hvalid

/-- A token for a scope without an equals sign. -/
theorem sasTokenValidate_of_hub_token :
    ∃ token, constructSasToken (fun _ _ => List.replicate 32 0x41) (fun _ => 0) true (ascii "a2V5")
        (ascii "hub") (some (ascii "policy")) 1900000000 = some token ∧
      sasTokenValidate token true 1800000000 = true := by
  have hcreated : constructSasToken (fun _ _ => List.replicate 32 0x41) (fun _ => 0) true
      (ascii "a2V5") (ascii "hub") (some (ascii "policy")) 1900000000 =
      some (ascii ("SharedAccessSignature sr=hub&sig=QUFBQUFBQUFBQUFBQUFBQUFBQUFBQUFBQUFBQUFBQUE=" ++
        "&se=1900000000&skn=policy")) := by
    decide
  have hverdict := sasTokenValidate_of_constructSasToken true 1800000000
    (fun _ _ => List.length_replicate ..) (by simp; decide) (by decide) hcreated
  refine ⟨_, hcreated, hverdict.1 ?_⟩
  apply SelfConsistent.of_ordinary
  case hash_end => decide
  all_goals decide

/-- The signature is forty characters and `sig=`. -/
theorem sasTokenValidate_of_signature_sig :
    (constructSasToken (fun _ _ => List.replicate 30 0x41 ++ [0xB2, 0x28]) (fun _ => 0) true
      (ascii "a2V5") (ascii "hub") (some (ascii "policy")) 1900000000).map
        (sasTokenValidate · true 1800000000) = some false := by
  decide +kernel

end

end SharedUtility.SasToken
