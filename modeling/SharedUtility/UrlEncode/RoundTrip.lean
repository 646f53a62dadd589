import SharedUtility.UrlEncode.Decoding

/-!
# UrlEncode.RoundTrip — what is encoded is decoded again

* `percentEncoded` — the triple of a byte,
* `urlPrintableChar_form`: a printable character is left as it is, another one below 0x80 becomes its triple, and
  a byte from 0x80 on the triples of the UTF-8 form of the code point,
* `url_roundTrip`: the sizes agree, and a text of bytes below 0x80 comes back.
-/

namespace SharedUtility.UrlEncode

open Memory

/-! ## The forms of a byte -/

/-- A hexadecimal digit in lower case. -/
def hexDigit (n : Nat) : UInt8 :=
  if n < 10 then UInt8.ofNat (0x30 + n) else UInt8.ofNat (0x61 + (n - 10))

def percentEncoded (b : UInt8) : Bytes :=
  [0x25, hexDigit (b.toNat / 16), hexDigit (b.toNat % 16)]

/-- The UTF-8 form of the code point with the number of the byte. -/
def utf8Form (b : UInt8) : Bytes :=
  String.utf8EncodeChar (Char.ofNat b.toNat)

/-- What is written for a byte. -/
structure Form (b : UInt8) : Prop where
  printable : isPrintable b = true → urlPrintableChar b = [b]
  ascii : isPrintable b = false → b < 0x80 → urlPrintableChar b = percentEncoded b
  extended : 0x80 ≤ b → (utf8Form b).length = 2 ∧ urlPrintableChar b = (utf8Form b).flatMap percentEncoded

set_option maxRecDepth 8000 in
theorem urlPrintableChar_form (b : UInt8) : Form b := by
  have hall : (isPrintable b = true → urlPrintableChar b = [b]) ∧
      (isPrintable b = false → b < 0x80 → urlPrintableChar b = percentEncoded b) ∧
      (0x80 ≤ b → (utf8Form b).length = 2 ∧ urlPrintableChar b = (utf8Form b).flatMap percentEncoded) := by
    revert b
    apply byte_forall
    decide
  exact ⟨hall.1, hall.2.1, hall.2.2⟩

/-! ## The pieces of an encoded text -/

/-- The piece for a byte below 0x80. -/
def pieceOf (b : UInt8) : Piece :=
  if isPrintable b then .plain b else .triple (hexDigit (b.toNat / 16)) (hexDigit (b.toNat % 16))

set_option maxRecDepth 8000 in
theorem pieceOf_spec (b : UInt8) (h : b < 0x80) :
    (pieceOf b).text = urlPrintableChar b ∧ (pieceOf b).char = b := by
  revert b
  apply byte_forall
  decide

set_option maxRecDepth 8000 in
theorem pieceOf_valid (b : UInt8) (h : b < 0x80) : (pieceOf b).Valid := by
  rw [pieceOf]
  split_ifs with hprintable
  · exact hprintable
  · have hall : isDigitOf 16 (hexDigit (b.toNat / 16)) = true ∧ isDigitOf 16 (hexDigit (b.toNat % 16)) = true ∧
        Piece.value (hexDigit (b.toNat / 16)) (hexDigit (b.toNat % 16)) < 0x80 := by
      clear hprintable
      revert b
      apply byte_forall
      decide
    exact hall

theorem spells_urlEncode {text : Bytes} (h : ∀ b ∈ text, b < 0x80) :
    Spells (text.map pieceOf) (urlEncode text) := by
  constructor
  · rw [List.flatMap_map, urlEncode]
    exact List.flatMap_congr fun b hb => ((pieceOf_spec b (h b hb)).1).symm
  · intro piece hpiece
    obtain ⟨b, hb, rfl⟩ := List.mem_map.1 hpiece
    exact pieceOf_valid b (h b hb)

theorem map_char_pieceOf {text : Bytes} (h : ∀ b ∈ text, b < 0x80) :
    (text.map pieceOf).map Piece.char = text := by
  calc (text.map pieceOf).map Piece.char = text.map fun b => (pieceOf b).char := List.map_map
    _ = text.map id := List.map_congr_left fun b hb => (pieceOf_spec b (h b hb)).2
    _ = text := List.map_id _

/-! ## The encoder -/

set_option maxRecDepth 8000 in
theorem urlPrintableChar_no_nul (b : UInt8) (h : b ≠ 0) : 0 ∉ urlPrintableChar b := by
  revert b
  apply byte_forall
  decide

theorem urlEncode_no_nul {text : Bytes} (h : 0 ∉ text) : 0 ∉ urlEncode text := by
  intro hmem
  obtain ⟨b, hb, hzero⟩ := List.mem_flatMap.1 hmem
  refine urlPrintableChar_no_nul b ?_ hzero
  rintro rfl
  exact h hb

theorem writeEncoded_fills {text : Bytes} (hsize : (urlEncode text).length < sizeMax) :
    ∃ encodedURL, writeEncoded text 0 (.allocate (encodedSize text 0)) = some (encodedSize text 0, encodedURL) ∧
      encodedURL.written = urlEncode text ++ [0] := by
  have hcapacity : encodedSize text 0 = (urlEncode text ++ [0]).length := by
    rw [encodedSize_eq (by rwa [Nat.zero_add]), Nat.zero_add, List.length_append, List.length_singleton]
  have hfits : (Block.allocate (encodedSize text 0) : Block UInt8).written.length +
      (urlEncode text ++ [0]).length ≤ (Block.allocate (encodedSize text 0) : Block UInt8).capacity := by
    rw [Block.allocate_written, Block.allocate_capacity, hcapacity, List.length_nil, Nat.zero_add]
  refine ⟨(Block.allocate (encodedSize text 0)).extend _ hfits, ?_, ?_⟩
  · rw [writeEncoded_eq, Block.putAll_eq _ _ hfits, Option.map_some]
  · rw [Block.extend_written, Block.allocate_written, List.nil_append]

theorem urlEncodeString_produces {text : Bytes} (htext : 0 ∉ text)
    (hsize : (urlEncode text).length < sizeMax) :
    Produces {} (fun allocations => urlEncodeString allocations (some text)) (urlEncode text) := by
  obtain ⟨encodedURL, hwrite, hwritten⟩ := writeEncoded_fills hsize
  have hstring : cString encodedURL.written = urlEncode text := by
    rw [hwritten, cString_append (urlEncode_no_nul htext)]
    exact List.append_nil _
  have hall : ∀ allocations : Allocations, urlEncodeString allocations (some text) =
      if allocations.constructed = false then some none
      else if allocations.text = false then some none
      else some (if allocations.string then some (urlEncode text) else none) := by
    intro allocations
    rw [urlEncodeString, urlEncodeHandle, hwrite, Option.map_some, stringNewWithMemory, hstring]
  refine ⟨hall {}, fun allocations => ?_⟩
  dsimp only
  rw [hall allocations]
  split_ifs
  · exact .inr rfl
  · exact .inr rfl
  · exact .inl rfl
  · exact .inr rfl

/-- For a text without NULs whose encoding, with its NUL, can be counted by a `size_t`: the writes end at the
size that was computed, each byte has its form, and if all bytes are below 0x80 the text is what the decoder
makes of the encoding. -/
theorem url_roundTrip (text : Bytes) (htext : 0 ∉ text) (hsize : (urlEncode text).length < sizeMax) :
    (∃ encodedURL, writeEncoded text 0 (.allocate (encodedSize text 0)) = some (encodedSize text 0, encodedURL) ∧
      encodedURL.written = text.flatMap urlPrintableChar ++ [0] ∧
      encodedURL.written.length = encodedSize text 0) ∧
    (∀ b ∈ text, Form b) ∧
    Produces {} (fun allocations => urlEncodeString allocations (some text)) (text.flatMap urlPrintableChar) ∧
    ((∀ b ∈ text, b < 0x80) →
      Produces {} (fun allocations => urlDecodeString allocations (some (text.flatMap urlPrintableChar)))
        text) := by
  refine ⟨?sizes, fun b _ => urlPrintableChar_form b, urlEncodeString_produces htext hsize, ?decoded⟩
  case sizes =>
    obtain ⟨encodedURL, hwrite, hwritten⟩ := writeEncoded_fills hsize
    refine ⟨encodedURL, hwrite, hwritten, ?_⟩
    rw [hwritten, encodedSize_eq (by rwa [Nat.zero_add]), Nat.zero_add, List.length_append,
      List.length_singleton]
  case decoded =>
    intro hascii
    have hdecoded := urlDecodeString_of_spells (spells_urlEncode hascii)
    have hstring : cString text = text := by
      have happend := cString_append htext []
      rwa [List.append_nil, show cString [] = [] from rfl, List.append_nil] at happend
    rw [map_char_pieceOf hascii, hstring] at hdecoded
    exact hdecoded

/-- A blank and a percent sign. -/
theorem url_roundTrip_blank :
    (∃ encodedURL, writeEncoded (ascii "a %b") 0 (.allocate (encodedSize (ascii "a %b") 0)) =
        some (encodedSize (ascii "a %b") 0, encodedURL) ∧
      encodedURL.written = (ascii "a %b").flatMap urlPrintableChar ++ [0] ∧
      encodedURL.written.length = encodedSize (ascii "a %b") 0) ∧
    (∀ b ∈ ascii "a %b", Form b) ∧
    Produces {} (fun allocations => urlEncodeString allocations (some (ascii "a %b")))
      ((ascii "a %b").flatMap urlPrintableChar) ∧
    ((∀ b ∈ ascii "a %b", b < 0x80) →
      Produces {} (fun allocations =>
        urlDecodeString allocations (some ((ascii "a %b").flatMap urlPrintableChar))) (ascii "a %b")) :=
  url_roundTrip (ascii "a %b") (by decide) (by decide)

end SharedUtility.UrlEncode
