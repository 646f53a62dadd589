import SharedUtility.HttpApiCompact.Segmentation

/-!
# ChunkedBody — the decoding of a body sent in chunks

* `Chunk` — the bytes of a chunk, and its size as hexadecimal digits,
* `encodeChunks` — the body: each chunk behind its size, and the chunk of size 0,
* `Available` — the next bytes of the stream have been received, or are with the next `xio_dowork`.

Every round of the loop takes one chunk off the body, and what it leaves begins with the next one:
`chunked_body_decoded`.
-/

namespace SharedUtility.HttpApiCompact

/-! ## The encoding -/

/-- A hexadecimal digit, and whether it is in upper case. -/
abbrev HexDigit := Fin 16 × Bool

def hexDigitChar (d : HexDigit) : UInt8 :=
  (if d.2 then ascii "0123456789ABCDEF" else ascii "0123456789abcdef").getD d.1.val 0

def hexValue (digits : List HexDigit) : Nat :=
  digits.foldl (fun n d => n * 16 + d.1.val) 0

/-- A chunk, and its size without leading zeros. -/
structure Chunk where
  data : Bytes
  digits : List HexDigit
  nonempty : data ≠ []
  size_le : data.length ≤ 2 ^ 31 - 1
  value : hexValue digits = data.length
  leading : ∀ d ∈ digits.head?, d.1 ≠ 0

def crlf : Bytes :=
  [0x0D, 0x0A]

def Chunk.text (chunk : Chunk) : Bytes :=
  chunk.digits.map hexDigitChar ++ crlf ++ chunk.data ++ crlf

def encodeChunks (chunks : List Chunk) : Bytes :=
  chunks.flatMap Chunk.text ++ ascii "0" ++ crlf ++ crlf

/-- What the chunks are joined to. -/
def joinChunks (chunks : List Chunk) : Bytes :=
  chunks.flatMap Chunk.data

/-! ## Sizes -/

theorem hexaDigitVal_char (d : HexDigit) : hexaDigitVal (hexDigitChar d) = some d.1.val := by
  rcases d with ⟨d, upper⟩
  revert d upper
  decide

theorem hexDigitChar_plain (d : HexDigit) : hexDigitChar d ≠ 0x0D ∧ hexDigitChar d ≠ 0 := by
  rcases d with ⟨d, upper⟩
  revert d upper
  decide

theorem le_foldl_hex (n : Nat) (digits : List HexDigit) :
    n * 16 ^ digits.length ≤ digits.foldl (fun n d => n * 16 + d.1.val) n := by
  induction digits generalizing n with
  | nil => simp
  | cons d digits ih =>
    calc n * 16 ^ (d :: digits).length = n * 16 * 16 ^ digits.length := by
          rw [List.length_cons, Nat.pow_succ', Nat.mul_assoc]
      _ ≤ (n * 16 + d.1.val) * 16 ^ digits.length :=
          Nat.mul_le_mul_right _ (Nat.le_add_right _ _)
      _ ≤ _ := ih _

theorem Chunk.digits_length (chunk : Chunk) :
    0 < chunk.digits.length ∧ chunk.digits.length ≤ 8 := by
  have hpos := List.length_pos_of_ne_nil chunk.nonempty
  have hvalue := chunk.value
  have hsize := chunk.size_le
  have hleading := chunk.leading
  cases hdigits : chunk.digits with
  | nil =>
    rw [hdigits] at hvalue
    rw [← hvalue] at hpos
    cases hpos
  | cons d digits =>
    rw [hdigits] at hvalue hleading
    have hd : 0 < d.1.val := Nat.pos_of_ne_zero fun hzero => hleading d rfl (Fin.ext hzero)
    have hpower := le_foldl_hex (0 * 16 + d.1.val) digits
    rw [show digits.foldl (fun n d => n * 16 + d.1.val) (0 * 16 + d.1.val) = chunk.data.length from
      hvalue] at hpower
    refine ⟨Nat.succ_pos _, ?_⟩
    by_contra hlong
    rw [List.length_cons] at hlong
    have hgrow : 16 ^ 8 ≤ 16 ^ digits.length := Nat.pow_le_pow_right (by decide) (by omega)
    have hleft : 16 ^ digits.length ≤ (0 * 16 + d.1.val) * 16 ^ digits.length :=
      Nat.le_mul_of_pos_left _ (by omega)
    omega

theorem hexadecimalFrom_digits (n : Nat) (digits : List HexDigit)
    (h : digits.foldl (fun n d => n * 16 + d.1.val) n < 2 ^ 64) :
    hexadecimalFrom n (digits.map hexDigitChar) = digits.foldl (fun n d => n * 16 + d.1.val) n := by
  induction digits generalizing n with
  | nil => rfl
  | cons d digits ih =>
    have hle := le_foldl_hex (n * 16 + d.1.val) digits
    have hpos : 0 < 16 ^ digits.length := Nat.pow_pos (by decide)
    have hnext : n * 16 + d.1.val ≤ (n * 16 + d.1.val) * 16 ^ digits.length :=
      Nat.le_mul_of_pos_right _ hpos
    rw [List.foldl_cons] at h ⊢
    rw [List.map_cons, hexadecimalFrom, hexaDigitVal_char]
    dsimp only
    rw [Nat.mod_eq_of_lt (by omega)]
    exact ih _ h

theorem Chunk.parse_digits (chunk : Chunk) :
    parseStringToHexadecimal (chunk.digits.map hexDigitChar) = some chunk.data.length := by
  have hlength := chunk.digits_length.1
  have hvalue := chunk.value
  have hsize := chunk.size_le
  cases hdigits : chunk.digits with
  | nil =>
    rw [hdigits] at hlength
    cases hlength
  | cons d digits =>
    rw [hdigits] at hvalue
    have hread := hexadecimalFrom_digits 0 (d :: digits) (by rw [hexValue] at hvalue; omega)
    rw [parseStringToHexadecimal, if_neg, hread]
    · rw [← hvalue]
      rfl
    · rw [List.map_cons, List.headD_cons, hexaDigitVal_char]
      simp

/-! ## Bytes that are available -/

/-- No error comes, and the stream starts with `text`, which has been received or comes next. -/
structure Available (c : HttpHandleData) (text : Bytes) : Prop where
  healthy : Healthy c
  received : text <+: (xioDowork c).receivedBytes

/-- What a call leaves that has taken `taken` off the stream. -/
structure Leaves (c : HttpHandleData) (taken rest : Bytes) (c' : HttpHandleData) : Prop where
  available : Available c' rest
  stream : c.stream = taken ++ c'.stream

section

variable {c c' c'' : HttpHandleData} {text taken taken' rest more : Bytes}

theorem received_xioDowork (h : Healthy c) : c.receivedBytes <+: (xioDowork c).receivedBytes := by
  have hwork := h.work
  unfold xioDowork
  split
  · exact List.prefix_refl _
  · exact List.prefix_append _ _
  · rename_i heq
    exact absurd rfl (hwork .error (by rw [heq]; exact List.mem_cons_self ..))

theorem Leaves.trans (h : Leaves c taken text c') (h' : Leaves c' taken' rest c'') :
    Leaves c (taken ++ taken') rest c'' where
  available := h'.available
  stream := by rw [h.stream, h'.stream, List.append_assoc]

/-- What is left when the received bytes are taken up to `rest`. -/
theorem leaves_of_received (h : Healthy c)
    (hreceived : (xioDowork c).receivedBytes = taken ++ (rest ++ more)) :
    Leaves c taken rest { xioDowork c with receivedBytes := rest ++ more } := by
  have hnext := h.xioDowork.received (rest ++ more)
  refine ⟨⟨hnext, ?_⟩, ?_⟩
  · exact (List.prefix_append rest more).trans (received_xioDowork hnext)
  · rw [← xioDowork_stream (c := c), HttpHandleData.stream, hreceived, List.append_assoc]
    rfl

theorem scanLine_crlf {maxBufSize : Nat} {line done : Bytes} (hline : 0x0D ∉ line)
    (hlength : (done ++ line).length < maxBufSize - 1) :
    scanLine maxBufSize done (line ++ (0x0D :: 0x0A :: rest)) = .line (done ++ line) rest := by
  induction line generalizing done with
  | nil =>
    rw [List.append_nil, List.nil_append, scanLine, if_neg (by simp)]
    rfl
  | cons b line ih =>
    rw [List.mem_cons, not_or] at hline
    have hdone : done ++ b :: line = done ++ [b] ++ line := List.append_cons ..
    rw [hdone] at hlength ⊢
    have hshort := hlength
    rw [List.length_append] at hshort
    rw [List.cons_append, scanLine, if_pos (Ne.symm hline.1), if_neg (by omega)]
    exact ih hline.2 hlength

theorem Available.history (h : Available c text) (starts : List (Bytes × List Work)) :
    Available { c with lineStarts := starts } text := by
  refine ⟨h.healthy.stream_eq starts, ?_⟩
  have hreceived := h.received
  unfold xioDowork at hreceived ⊢
  cases hwork : c.work with
  | nil =>
    rw [hwork] at hreceived
    exact hreceived
  | cons w work =>
    rw [hwork] at hreceived
    cases w with
    | bytes buffer => exact hreceived
    | error => exact hreceived

theorem Available.length_le (h : Available c text) : text.length ≤ c.stream.length := by
  have hreceived := h.received.length_le
  rw [← xioDowork_stream, HttpHandleData.stream, List.length_append]
  omega

theorem readLine_available {line : Bytes} (h : Available c (line ++ crlf ++ rest))
    (hline : 0x0D ∉ line) (hlength : line.length < tempBufferSize - 1) :
    ∃ c', readLine tempBufferSize c = (some line, c') ∧ Leaves c (line ++ crlf) rest c' := by
  have hstarted := h.history (c.lineStarts ++ [(c.receivedBytes, c.work)])
  rcases hstarted.received with ⟨more, hmore⟩
  have hleaves := leaves_of_received hstarted.healthy
    (hmore.symm.trans (List.append_assoc (line ++ crlf) rest more))
  refine ⟨_, ?_, hleaves.available, hleaves.stream⟩
  have hnoError := hstarted.healthy.xioDowork.noError
  have hscan : scanLine tempBufferSize [] (xioDowork { c with
      lineStarts := c.lineStarts ++ [(c.receivedBytes, c.work)] }).receivedBytes =
        .line line (rest ++ more) := by
    rw [← hmore, List.append_assoc, List.append_assoc]
    exact scanLine_crlf hline hlength
  rw [readLine, readLineLoop.eq_def]
  simp only [hnoError, Bool.false_eq_true, if_false, hscan]

theorem readChunk_available {bytes : Bytes} (h : Available c (bytes ++ rest)) (hne : bytes ≠ [])
    (hsize : bytes.length ≤ 2 ^ 31 - 1) :
    ∃ c', readChunk bytes.length c = some ((bytes.length : Int), bytes, c') ∧ Leaves c bytes rest c' := by
  have hpos := List.length_pos_of_ne_nil hne
  rcases h.received with ⟨more, hmore⟩
  have hreceived : (xioDowork c).receivedBytes = bytes ++ (rest ++ more) := by
    rw [← hmore, List.append_assoc]
  have hleaves := leaves_of_received h.healthy hreceived
  refine ⟨_, ?_, hleaves⟩
  have hcount : intOfSizeT bytes.length = bytes.length := by
    rw [intOfSizeT, BitVec.toInt_eq_toNat_of_lt]
    · rw [BitVec.toNat_ofNat, Nat.mod_eq_of_lt (by omega)]
    · rw [BitVec.toNat_ofNat, Nat.mod_eq_of_lt (by omega)]
      omega
  have hnoError := h.healthy.xioDowork.noError
  have henough : bytes.length ≤ (xioDowork c).receivedBytes.length := by
    rw [hreceived, List.length_append]
    exact Nat.le_add_right _ _
  have hreceive : connReceive bytes.length c = some ((bytes.length : Int), bytes,
      { xioDowork c with receivedBytes := rest ++ more }) := by
    rw [connReceive, if_neg (by omega), if_neg (by omega), Int.toNat_natCast, connReceiveLoop.eq_def]
    simp only [hnoError, Bool.false_eq_true, if_false, ge_iff_le, if_pos henough]
    rw [hreceived, List.take_left, List.drop_left]
  rw [readChunk, readChunkLoop, if_neg (by omega), hcount, hreceive]
  dsimp only
  rw [if_neg (by omega), Int.toNat_natCast, Nat.sub_self]
  cases hrounds : bytes.length with
  | zero => omega
  | succ n =>
    rw [readChunkLoop, if_pos rfl]
    simp

theorem readChunkEnd_available (h : Available c (crlf ++ rest)) :
    ∃ c', readChunkEnd c = some (true, c') ∧ Leaves c crlf rest c' := by
  rcases readChunk_available h (by decide) (by decide) with ⟨c', hread, hleaves⟩
  refine ⟨c', ?_, hleaves⟩
  have htwo : crlf.length = 2 := rfl
  rw [htwo] at hread
  rw [readChunkEnd, hread]
  rfl

end

/-! ## The loop over the chunks -/

theorem encodeChunks_cons (chunk : Chunk) (chunks : List Chunk) :
    encodeChunks (chunk :: chunks) =
      chunk.digits.map hexDigitChar ++ crlf ++ (chunk.data ++ (crlf ++ encodeChunks chunks)) := by
  simp only [encodeChunks, Chunk.text, List.flatMap_cons, List.append_assoc]

theorem length_encodeChunks (chunks : List Chunk) : chunks.length < (encodeChunks chunks).length := by
  induction chunks with
  | nil => exact Nat.succ_pos _
  | cons chunk chunks ih =>
    have hpos := List.length_pos_of_ne_nil chunk.nonempty
    rw [encodeChunks_cons]
    simp only [List.length_append, List.length_cons]
    omega

section

variable {Headers : Type} (uninitialised : Nat → UInt8)

/-- The response with more chunks at the end of its content. -/
structure Extends (response response' : Response Headers) (chunks : List Chunk) : Prop where
  statusCode : response'.statusCode = response.statusCode
  reasonPhrase : response'.reasonPhrase = response.reasonPhrase
  headers : response'.headers = response.headers
  content : response'.content.getD [] = response.content.getD [] ++ joinChunks chunks
  received : response'.chunksReceived = response.chunksReceived ++ chunks.map Chunk.data

theorem writeAt_enlarged (content data : Bytes) :
    writeAt (content ++ freshBytes uninitialised data.length) content.length data =
      content ++ data := by
  have hfresh : (freshBytes uninitialised data.length).length = data.length := by
    rw [freshBytes, List.length_map, List.length_range]
  have hlength : (content ++ freshBytes uninitialised data.length).length =
      content.length + data.length := by
    rw [List.length_append, hfresh]
  have hbehind := List.drop_eq_nil_of_le (Nat.le_of_eq hlength)
  rw [writeAt, List.take_left, hbehind, List.append_nil]

theorem readChunksLoop_chunks (chunks : List Chunk) (rounds : Nat) (response : Response Headers)
    {c : HttpHandleData} {rest : Bytes} (havailable : Available c (encodeChunks chunks ++ rest))
    (hrounds : chunks.length < rounds)
    (htotal : (response.content.getD []).length + (joinChunks chunks).length < sizeMax) :
    ∃ response' c', readChunksLoop uninitialised rounds (response.content.getD []).length response c =
        some (.ok, response', c') ∧
      Extends response response' chunks ∧ Leaves c (encodeChunks chunks) rest c' := by
  induction chunks generalizing rounds response c with
  | nil =>
    cases rounds with
    | zero => cases hrounds
    | succ rounds =>
      -- the chunk of size 0, and the end of line behind it
      have hlast : encodeChunks [] ++ rest = ascii "0" ++ crlf ++ (crlf ++ rest) := rfl
      rw [hlast] at havailable
      rcases readLine_available havailable (by decide) (by decide) with ⟨c₁, hline, hleft₁⟩
      rcases readChunkEnd_available hleft₁.available with ⟨c₂, hend, hleft₂⟩
      have hzero : parseStringToHexadecimal (cString (ascii "0")) = some 0 := by decide
      refine ⟨response, c₂, ?_, ⟨rfl, rfl, rfl, (List.append_nil _).symm, (List.append_nil _).symm⟩,
        hleft₁.trans hleft₂⟩
      rw [readChunksLoop]
      simp only [hline, hzero, hend]
  | cons chunk chunks ih =>
    cases rounds with
    | zero => cases hrounds
    | succ rounds =>
      have htext : encodeChunks (chunk :: chunks) ++ rest = chunk.digits.map hexDigitChar ++ crlf ++
          (chunk.data ++ (crlf ++ (encodeChunks chunks ++ rest))) := by
        rw [encodeChunks_cons]
        simp only [List.append_assoc]
      rw [htext] at havailable
      have hdigits := chunk.digits_length
      have hplain : ∀ b ∈ chunk.digits.map hexDigitChar, b ≠ 0x0D ∧ b ≠ 0 := by
        intro b hb
        rcases List.mem_map.1 hb with ⟨d, -, rfl⟩
        exact hexDigitChar_plain d
      have hstring : cString (chunk.digits.map hexDigitChar) = chunk.digits.map hexDigitChar := by
        have hnul : 0 ∉ chunk.digits.map hexDigitChar := fun hmem => (hplain 0 hmem).2 rfl
        have happend := cString_append hnul []
        rw [List.append_nil] at happend
        exact happend.trans (List.append_nil _)
      rcases readLine_available havailable (fun hmem => (hplain _ hmem).1 rfl)
        (by rw [List.length_map]; exact Nat.lt_of_le_of_lt hdigits.2 (by decide)) with
        ⟨c₁, hline, hleft₁⟩
      rcases readChunk_available hleft₁.available chunk.nonempty chunk.size_le with
        ⟨c₂, hread, hleft₂⟩
      rcases readChunkEnd_available hleft₂.available with ⟨c₃, hend, hleft₃⟩
      -- the buffer grows by the chunk
      have hpos := List.length_pos_of_ne_nil chunk.nonempty
      have hjoin : joinChunks (chunk :: chunks) = chunk.data ++ joinChunks chunks := List.flatMap_cons
      rw [hjoin, List.length_append] at htotal
      have hadd := safeAddSizeT_of_lt (a := (response.content.getD []).length)
        (b := chunk.data.length) (by omega)
      have henlarge : bufferEnlarge uninitialised response.content chunk.data.length =
          some (response.content.getD [] ++ freshBytes uninitialised chunk.data.length) := by
        rw [bufferEnlarge, if_neg (by omega), if_neg (by rw [hadd]; omega)]
      have hwritten := writeAt_enlarged uninitialised (response.content.getD []) chunk.data
      rcases ih rounds { response with
          content := some (response.content.getD [] ++ chunk.data),
          chunksReceived := response.chunksReceived ++ [chunk.data] } hleft₃.available
        (Nat.lt_of_succ_lt_succ hrounds)
        (by rw [Option.getD_some, List.length_append]; omega) with
        ⟨response', c', hloop, hextends, hleft⟩
      refine ⟨response', c', ?_, ?_, ?_⟩
      case refine_1 =>
        have hparse := chunk.parse_digits
        have htaken : (response.content.getD [] ++ chunk.data).drop (response.content.getD []).length =
            chunk.data := List.drop_left
        rw [Option.getD_some, List.length_append] at hloop
        cases hsize : chunk.data.length with
        | zero => omega
        | succ size =>
          rw [hsize] at hparse henlarge hread hwritten hloop
          rw [readChunksLoop]
          simp only [hline, hstring, hparse, henlarge, hread, hwritten, htaken, hend]
          rw [← hsize, List.take_length, if_neg (by omega), hsize]
          exact hloop
      case refine_2 =>
        refine ⟨hextends.statusCode, hextends.reasonPhrase, hextends.headers, ?_, ?_⟩
        · rw [hextends.content, hjoin, Option.getD_some, List.append_assoc]
        · rw [hextends.received, List.map_cons, List.append_assoc]
          rfl
      case refine_3 =>
        have hall := (hleft₁.trans hleft₂).trans (hleft₃.trans hleft)
        rw [encodeChunks_cons]
        simp only [List.append_assoc] at hall ⊢
        exact hall

/-- The body is decoded, and not a byte behind it is read. -/
theorem chunked_body_decoded (chunks : List Chunk) (info : ContentInfo) (response : Response Headers)
    (c : HttpHandleData) (rest : Bytes) (hchunked : info.chunked = true)
    (hempty : response.content.getD [] = [])
    (havailable : Available { c with isIoError := false } (encodeChunks chunks ++ rest))
    (hsize : (joinChunks chunks).length < sizeMax) :
    ∃ response' c',
      readHTTPResponseBodyFromXio uninitialised info response c = some (.ok, response', c') ∧
      response'.content.getD [] = joinChunks chunks ∧
      response'.chunksReceived = response.chunksReceived ++ chunks.map Chunk.data ∧
      c.stream = encodeChunks chunks ++ c'.stream := by
  have hrounds := havailable.length_le
  rw [List.length_append] at hrounds
  have hmany := length_encodeChunks chunks
  rcases readChunksLoop_chunks uninitialised chunks (c.stream.length + 1) response havailable
      (Nat.lt_succ_of_lt (Nat.lt_of_lt_of_le hmany (Nat.le_trans (Nat.le_add_right _ _) hrounds)))
      (by rw [hempty, List.length_nil, Nat.zero_add]; exact hsize) with
    ⟨response', c', hloop, hextends, hleft⟩
  rw [hempty] at hloop
  refine ⟨response', c', ?_, ?_, hextends.received, hleft.stream⟩
  · rw [readHTTPResponseBodyFromXio, if_pos hchunked]
    exact hloop
  · rw [hextends.content, hempty, List.nil_append]

end

/-- `Wiki`, in chunks of one byte and of three. -/
def wikiChunks : List Chunk :=
  [⟨ascii "W", [(1, false)], by decide, by decide, by decide, by decide⟩,
    ⟨ascii "iki", [(3, true)], by decide, by decide, by decide, by decide⟩]

/-- The stream with the body, of which a part comes with the next `xio_dowork`. -/
def wikiStream : HttpHandleData :=
  { receivedBytes := (encodeChunks wikiChunks).take 5,
    work := [.bytes ((encodeChunks wikiChunks).drop 5 ++ ascii "HTTP/"), .bytes (ascii "1.1")] }

theorem chunked_body_decoded_wiki :
    ∃ response' c',
      readHTTPResponseBodyFromXio (fun _ => 0) { chunked := true }
          ({ headers := none, content := none } : Response Unit) wikiStream =
        some (.ok, response', c') ∧
      response'.content.getD [] = ascii "Wiki" ∧
      response'.chunksReceived = [ascii "W", ascii "iki"] ∧
      wikiStream.stream = encodeChunks wikiChunks ++ c'.stream :=
  chunked_body_decoded (fun _ => 0) wikiChunks { chunked := true } { headers := none, content := none }
    wikiStream (ascii "HTTP/") rfl rfl
    ⟨⟨rfl, by decide⟩, by decide⟩ (by decide)

end SharedUtility.HttpApiCompact
