import SharedUtility.HttpApiCompact.Code
import SharedUtility.HttpHeaders

/-!
# Outputs — what a response makes of what was in the outputs before

What is read of a response does not depend on the outputs: of the header lines this gives the list
`headersReceived`, which the response headers take in one by one. The body depends on the outputs by
the content alone.
-/

namespace SharedUtility.HttpApiCompact

/-- The headers after these pairs, each a name and a value. -/
def addHeaders {Headers : Type} (addHeaderNameValuePair : Headers → Bytes → Bytes → Headers)
    (headers : Headers) (pairs : List (Bytes × Bytes)) : Headers :=
  pairs.foldl (fun headers pair => addHeaderNameValuePair headers pair.1 pair.2) headers

/-- The name and the value of a header line that has a colon. -/
def headerPair (buf : Bytes) : List (Bytes × Bytes) :=
  if 0x3A ∈ buf then [(buf.takeWhile (· != 0x3A), (buf.dropWhile (· != 0x3A)).drop 1)] else []

/-- The names and values that a response brings, before its body. -/
def headersReceived (c : HttpHandleData) : List (Bytes × Bytes) :=
  let header := receiveHeaderFromXio 0 c { headers := some [], content := none }
  if header.1 ≠ .ok then []
  else
    ((receiveContentInfoFromXio (fun pairs name value => pairs ++ [(name, value)]) header.2.2
      header.2.1).2.1.2.headers).getD []

/-! ## The header lines -/

section

variable {Headers : Type} {addHeaderNameValuePair : Headers → Bytes → Bytes → Headers}

theorem addHeader_eq (buf : Bytes) (response : Response Headers) {headers : Headers}
    (h : response.headers = some headers) :
    addHeader addHeaderNameValuePair buf response =
      { response with
        headers := some (addHeaders addHeaderNameValuePair headers (headerPair buf)) } := by
  unfold addHeader headerPair
  rw [h]
  simp only
  split
  case isTrue hcolon => rfl
  case isFalse hno =>
    obtain ⟨statusCode, reasonPhrase, _, content, chunksReceived⟩ := response
    cases h
    rfl

theorem addHeaders_append (headers : Headers) (pairs pairs' : List (Bytes × Bytes)) :
    addHeaders addHeaderNameValuePair headers (pairs ++ pairs') =
      addHeaders addHeaderNameValuePair (addHeaders addHeaderNameValuePair headers pairs) pairs' :=
  List.foldl_append

theorem addHeaders_collect (collected pairs : List (Bytes × Bytes)) :
    addHeaders (fun pairs name value => pairs ++ [(name, value)]) collected pairs =
      collected ++ pairs := by
  induction pairs generalizing collected with
  | nil => exact (List.append_nil collected).symm
  | cons pair pairs ih =>
    refine (ih (collected ++ [pair])).trans ?_
    rw [List.append_assoc]
    rfl

theorem toLower_upper {c : UInt8} (h : c ≥ 0x41 ∧ c ≤ 0x5A) :
    (toLower c).toNat = c.toNat + 0x20 := by
  have hc : c.toNat ≥ 0x41 ∧ c.toNat ≤ 0x5A := h
  rw [toLower, if_pos h, UInt8.toNat_add, UInt8.toNat_sub]
  simp only [UInt8.reduceToNat]
  omega

theorem eq_colon_of_toLower {c : UInt8} (h : toLower c = 0x3A) : c = 0x3A := by
  by_cases hupper : c ≥ 0x41 ∧ c ≤ 0x5A
  case neg => rwa [toLower, if_neg hupper] at h
  case pos =>
    have hlow := toLower_upper hupper
    rw [h] at hlow
    have hc : c.toNat ≥ 0x41 := hupper.1
    simp only [UInt8.reduceToNat] at hlow
    omega

theorem isNameChar_of_toLower {c : UInt8} (h : HttpHeaders.isNameChar (toLower c) = true) :
    HttpHeaders.isNameChar c = true := by
  by_cases hupper : c ≥ 0x41 ∧ c ≤ 0x5A
  case neg => rwa [toLower, if_neg hupper] at h
  case pos =>
    have hlow : c.toNat ≥ 0x41 := hupper.1
    have hhigh : c.toNat ≤ 0x5A := hupper.2
    have hcolon : c ≠ 0x3A := by
      rintro rfl
      exact absurd hlow (by decide)
    have hfirst : (33 : UInt8) ≤ c := UInt8.le_iff_toNat_le.mpr (Nat.le_trans (by decide) hlow)
    have hlast : c ≤ (126 : UInt8) := UInt8.le_iff_toNat_le.mpr (Nat.le_trans hhigh (by decide))
    simp only [HttpHeaders.isNameChar, hfirst, hlast, decide_true, Bool.and_self, Bool.true_and,
      bne_iff_ne]
    exact hcolon

/-- A line that begins with such a name and a colon has a name that a header may have. -/
theorem nameChars_of_internStrnicmp {name buf : Bytes}
    (hname : name.all HttpHeaders.isNameChar = true)
    (hsmall : name.map toLower = name)
    (h : internStrnicmp buf (name ++ [0x3A]) (name.length + 1) = 0) :
    0x3A ∈ buf ∧ (buf.takeWhile (· != 0x3A)).all HttpHeaders.isNameChar = true := by
  have hsame : ∀ {c d : UInt8}, ((toLower c).toNat : Int) - (toLower d).toNat = 0 →
      toLower c = toLower d := by
    intro c d heq
    rw [← UInt8.toNat_inj]
    omega
  induction name generalizing buf with
  | nil =>
    cases buf with
    | nil => cases h
    | cons c buf =>
      simp only [List.nil_append, List.length_nil, internStrnicmp] at h
      split at h
      case isFalse hne => exact absurd h hne
      case isTrue heq =>
        have hcolon : c = 0x3A := eq_colon_of_toLower (hsame heq)
        subst hcolon
        exact ⟨List.mem_cons_self, rfl⟩
  | cons d name ih =>
    cases buf with
    | nil => cases h
    | cons c buf =>
      simp only [List.cons_append, List.length_cons, internStrnicmp] at h
      rw [List.all_cons, Bool.and_eq_true] at hname
      obtain ⟨hd, hsmall⟩ := List.cons.inj hsmall
      split at h
      case isFalse hne => exact absurd h hne
      case isTrue heq =>
        have hc : HttpHeaders.isNameChar c = true := by
          apply isNameChar_of_toLower
          rw [hsame heq, hd]
          exact hname.1
        obtain ⟨hmem, hall⟩ := ih hname.2 hsmall h
        have hne : (c != 0x3A) = true := by
          rw [HttpHeaders.isNameChar, Bool.and_eq_true] at hc
          exact hc.2
        refine ⟨List.mem_cons_of_mem c hmem, ?_⟩
        rw [List.takeWhile_cons, if_pos hne, List.all_cons, hc, hall]
        rfl

theorem storable_of_contentInfoOf {buf : Bytes} {info info' : ContentInfo}
    (h : contentInfoOf buf info = some info') (hne : info' ≠ info) :
    ∃ pair ∈ headerPair buf, pair.1.all HttpHeaders.isNameChar = true := by
  have hstored : ∀ name : Bytes, name.all HttpHeaders.isNameChar = true →
      name.map toLower = name → internStrnicmp buf (name ++ [0x3A]) (name.length + 1) = 0 →
      ∃ pair ∈ headerPair buf, pair.1.all HttpHeaders.isNameChar = true := by
    intro name hname hsmall hbegins
    obtain ⟨hcolon, hall⟩ := nameChars_of_internStrnicmp hname hsmall hbegins
    unfold headerPair
    rw [if_pos hcolon]
    exact ⟨_, List.mem_singleton_self _, hall⟩
  unfold contentInfoOf at h
  simp only at h
  split at h
  case isTrue hlength => exact hstored (ascii "content-length") (by decide) (by decide) hlength
  case isFalse hnot =>
    split at h
    case isTrue hencoding =>
      exact hstored (ascii "transfer-encoding") (by decide) (by decide) hencoding
    case isFalse hother =>
      cases h
      exact absurd rfl hne

theorem headers_eta {response : Response Headers} {headers : Headers}
    (h : response.headers = some headers) :
    response = { response with headers := some headers } := by
  rw [← h]

/-- The header lines are read in the same way whatever the outputs are, and these take in the pairs;
where none of the pairs can be stored the lines say nothing about the body. -/
theorem receiveContentInfoLoop_pairs (rounds : Nat) (buf : Bytes) (info : ContentInfo)
    (c : HttpHandleData) :
    ∃ result info' pairs c',
      (∀ {Headers : Type} (addHeaderNameValuePair : Headers → Bytes → Bytes → Headers)
        (response : Response Headers) (headers : Headers), response.headers = some headers →
        receiveContentInfoLoop addHeaderNameValuePair rounds buf info response c =
          (result, (info', { response with
            headers := some (addHeaders addHeaderNameValuePair headers pairs) }), c')) ∧
      (info' ≠ info → ∃ pair ∈ pairs, pair.1.all HttpHeaders.isNameChar = true) := by
  induction rounds generalizing buf info c with
  | zero =>
    refine ⟨.ok, info, [], c, ?_, fun hne => absurd rfl hne⟩
    intro Headers add response headers hheaders
    exact congrArg (fun r => (HttpApiResult.ok, (info, r), c)) (headers_eta hheaders)
  | succ rounds ih =>
    unfold receiveContentInfoLoop
    split
    case isTrue hempty =>
      refine ⟨.ok, info, [], c, ?_, fun hne => absurd rfl hne⟩
      intro Headers add response headers hheaders
      exact congrArg (fun r => (HttpApiResult.ok, (info, r), c)) (headers_eta hheaders)
    case isFalse hline =>
      cases hinfo : contentInfoOf buf info with
      | none =>
        refine ⟨.readDataFailed, info, [], c, ?_, fun hne => absurd rfl hne⟩
        intro Headers add response headers hheaders
        exact congrArg (fun r => (HttpApiResult.readDataFailed, (info, r), c))
          (headers_eta hheaders)
      | some info₁ =>
        have hstored : info₁ ≠ info →
            ∃ pair ∈ headerPair buf, pair.1.all HttpHeaders.isNameChar = true :=
          storable_of_contentInfoOf hinfo
        cases hread : (readLine tempBufferSize c).1 with
        | none =>
          refine ⟨.readDataFailed, info₁, headerPair buf, (readLine tempBufferSize c).2, ?_,
            hstored⟩
          intro Headers add response headers hheaders
          simp only [hread, addHeader_eq buf response hheaders]
        | some buf' =>
          obtain ⟨result, info', pairs, c', hloop, hrest⟩ :=
            ih (cString buf') info₁ (readLine tempBufferSize c).2
          refine ⟨result, info', headerPair buf ++ pairs, c', ?_, ?_⟩
          · intro Headers add response headers hheaders
            simp only [hread, addHeader_eq buf response hheaders]
            rw [hloop add _ _ rfl, addHeaders_append]
          · intro hne
            by_cases heq : info' = info₁
            case pos =>
              obtain ⟨pair, hpair, hname⟩ := hstored (heq ▸ hne)
              exact ⟨pair, List.mem_append_left pairs hpair, hname⟩
            case neg =>
              obtain ⟨pair, hpair, hname⟩ := hrest heq
              exact ⟨pair, List.mem_append_right _ hpair, hname⟩

theorem receiveContentInfoFromXio_pairs (c : HttpHandleData) :
    ∃ result info pairs c',
      (∀ {Headers : Type} (addHeaderNameValuePair : Headers → Bytes → Bytes → Headers)
        (response : Response Headers) (headers : Headers), response.headers = some headers →
        receiveContentInfoFromXio addHeaderNameValuePair c response =
          (result, (info, { response with
            headers := some (addHeaders addHeaderNameValuePair headers pairs) }), c')) ∧
      (info ≠ {} → ∃ pair ∈ pairs, pair.1.all HttpHeaders.isNameChar = true) := by
  unfold receiveContentInfoFromXio
  simp only
  cases (readLine tempBufferSize { c with isIoError := false }).1 with
  | none =>
    refine ⟨.readDataFailed, {}, [], (readLine tempBufferSize { c with isIoError := false }).2, ?_,
      fun hne => absurd rfl hne⟩
    intro Headers add response headers hheaders
    exact congrArg (fun r => (HttpApiResult.readDataFailed, (({} : ContentInfo), r), _))
      (headers_eta hheaders)
  | some buf => exact receiveContentInfoLoop_pairs _ (cString buf) {} _

end

/-! ## The body -/

section

variable {Headers : Type} {uninitialised : Nat → UInt8}

/-- The response with what a body has brought. -/
def Response.withBody (response body : Response Headers) : Response Headers :=
  { response with
    content := body.content
    chunksReceived := response.chunksReceived ++ body.chunksReceived }

/-- What is read into outputs that have nothing but this content. -/
def contentOnly (content : Option Bytes) : Response Headers where
  headers := none
  content := content

theorem Response.withBody_contentOnly (response : Response Headers) :
    response.withBody (contentOnly response.content) = response := by
  simp only [Response.withBody, contentOnly, List.append_nil]

theorem readChunksLoop_content (rounds size : Nat) (response : Response Headers)
    (c : HttpHandleData) :
    readChunksLoop uninitialised rounds size response c =
      (readChunksLoop uninitialised rounds size (contentOnly response.content) c).map fun r =>
        (r.1, response.withBody r.2.1, r.2.2) := by
  induction rounds generalizing size response c with
  | zero => rfl
  | succ rounds ih =>
    unfold readChunksLoop
    cases hread : (readLine tempBufferSize c).1 with
    | none => simp only [hread, Option.map_some, Response.withBody_contentOnly]
    | some buf =>
      cases hsize : parseStringToHexadecimal (cString buf) with
      | none => simp only [hread, hsize, Option.map_some, Response.withBody_contentOnly]
      | some chunkSize =>
        cases chunkSize with
        | zero =>
          simp only [hread, hsize]
          cases readChunkEnd (readLine tempBufferSize c).2 with
          | none => rfl
          | some r =>
            obtain ⟨endOfLine, c'⟩ := r
            cases endOfLine with
            | true => simp only [Option.map_some, Response.withBody_contentOnly]
            | false => simp only [Option.map_some, Response.withBody, contentOnly,
                List.append_nil]
        | succ chunk =>
          simp only [hread, hsize, contentOnly]
          cases bufferEnlarge uninitialised response.content (chunk + 1) with
          | none => simp only [Option.map_some, Response.withBody, List.append_nil]
          | some content =>
            cases readChunk (chunk + 1) (readLine tempBufferSize c).2 with
            | none => rfl
            | some r =>
              obtain ⟨result, bytes, c'⟩ := r
              simp only
              split
              case isTrue hfailed =>
                simp only [Option.map_some, Response.withBody, List.append_nil]
              case isFalse hread =>
                cases readChunkEnd c' with
                | none => rfl
                | some r =>
                  obtain ⟨endOfLine, c'⟩ := r
                  cases endOfLine with
                  | true =>
                    simp only
                    conv => rhs; rw [ih]
                    rw [ih, Option.map_map]
                    apply congrArg (Option.map · _)
                    funext r
                    simp only [Function.comp_apply, Response.withBody,
                      List.nil_append, List.append_assoc]
                  | false =>
                    simp only [Option.map_some, Response.withBody, List.nil_append]

theorem readHTTPResponseBodyFromXio_content (info : ContentInfo) (response : Response Headers)
    (c : HttpHandleData) :
    readHTTPResponseBodyFromXio uninitialised info response c =
      (readHTTPResponseBodyFromXio uninitialised info (contentOnly response.content) c).map fun r =>
        (r.1, response.withBody r.2.1, r.2.2) := by
  unfold readHTTPResponseBodyFromXio
  simp only
  split
  case isTrue hchunked => exact readChunksLoop_content _ 0 response _
  case isFalse hplain =>
    split
    case isTrue hempty => simp only [Option.map_some, Response.withBody_contentOnly]
    case isFalse hlength =>
      simp only [contentOnly]
      cases bufferPreBuild uninitialised response.content info.bodyLength with
      | none => simp only [Option.map_some, Response.withBody, List.append_nil]
      | some content =>
        cases readChunk info.bodyLength { c with isIoError := false } with
        | none => rfl
        | some r =>
          obtain ⟨result, bytes, c'⟩ := r
          simp only
          split
          case isTrue hfailed =>
            simp only [Option.map_some, Response.withBody, List.append_nil]
          case isFalse hread => simp only [Option.map_some, Response.withBody, List.nil_append]

def contentSize (content : Option Bytes) : Nat :=
  (content.getD []).length

theorem bufferEnlarge_smaller {buffer buffer' : Option Bytes} {enlargeSize : Nat} {content : Bytes}
    (h : bufferEnlarge uninitialised buffer enlargeSize = some content)
    (hsmaller : contentSize buffer' ≤ contentSize buffer) :
    ∃ content', bufferEnlarge uninitialised buffer' enlargeSize = some content' ∧
      content'.length ≤ content.length := by
  unfold contentSize at hsmaller
  unfold bufferEnlarge at h ⊢
  split at h
  case isTrue hzero => cases h
  case isFalse hpos =>
    rw [if_neg hpos]
    simp only at h ⊢
    split at h
    case isTrue hoverflow => cases h
    case isFalse hfits =>
      cases h
      have hfits' : safeAddSizeT (buffer'.getD []).length enlargeSize ≠ sizeMax := by
        unfold safeAddSizeT at hfits ⊢
        by_cases hroom : (buffer.getD []).length < sizeMax - enlargeSize
        case neg => exact absurd (if_neg hroom) hfits
        case pos =>
          rw [if_pos (Nat.lt_of_le_of_lt hsmaller hroom)]
          omega
      rw [if_neg hfits']
      refine ⟨_, rfl, ?_⟩
      simp only [List.length_append]
      omega

theorem length_writeAt (content : Bytes) (offset : Nat) (bytes : Bytes) :
    (writeAt content offset bytes).length =
      min offset content.length + bytes.length + (content.length - (offset + bytes.length)) := by
  simp only [writeAt, List.length_append, List.length_take, List.length_drop]

theorem readChunksLoop_smaller {rounds size : Nat} {response response' : Response Headers}
    {c : HttpHandleData} {r : Response Headers × HttpHandleData}
    (h : readChunksLoop uninitialised rounds size response c = some (.ok, r))
    (hsmaller : contentSize response'.content ≤ contentSize response.content) :
    ∃ r', readChunksLoop uninitialised rounds size response' c = some (.ok, r') := by
  induction rounds generalizing size response response' c with
  | zero => cases h
  | succ rounds ih =>
    unfold readChunksLoop at h ⊢
    cases hread : (readLine tempBufferSize c).1 with
    | none => simp [hread] at h
    | some buf =>
      simp only [hread] at h ⊢
      cases hsize : parseStringToHexadecimal (cString buf) with
      | none => simp [hsize] at h
      | some chunkSize =>
        simp only [hsize] at h ⊢
        cases chunkSize with
        | zero =>
          simp only at h ⊢
          cases hend : readChunkEnd (readLine tempBufferSize c).2 with
          | none => simp [hend] at h
          | some ended =>
            obtain ⟨endOfLine, c'⟩ := ended
            cases endOfLine with
            | false => simp [hend] at h
            | true => exact ⟨_, rfl⟩
        | succ chunk =>
          simp only at h ⊢
          cases henlarge : bufferEnlarge uninitialised response.content (chunk + 1) with
          | none => simp [henlarge] at h
          | some content =>
            obtain ⟨content', henlarge', hlength⟩ :=
              bufferEnlarge_smaller henlarge hsmaller
            simp only [henlarge, henlarge'] at h ⊢
            cases hchunk : readChunk (chunk + 1) (readLine tempBufferSize c).2 with
            | none => simp [hchunk] at h
            | some read =>
              obtain ⟨result, bytes, c'⟩ := read
              simp only [hchunk] at h ⊢
              split at h
              case isTrue hfailed => simp at h
              case isFalse hfine =>
                rw [if_neg hfine]
                cases hend : readChunkEnd c' with
                | none => simp [hend] at h
                | some ended =>
                  obtain ⟨endOfLine, c''⟩ := ended
                  cases endOfLine with
                  | false => simp [hend] at h
                  | true =>
                    simp only [hend] at h ⊢
                    apply ih h
                    simp only [contentSize, Option.getD_some, length_writeAt]
                    omega

/-- A body that can be stored in a buffer that has been used can be stored in a fresh one. -/
theorem readHTTPResponseBodyFromXio_fresh {info : ContentInfo} {response response' : Response Headers}
    {c : HttpHandleData} {r : Response Headers × HttpHandleData}
    (h : readHTTPResponseBodyFromXio uninitialised info response c = some (.ok, r))
    (hfresh : response'.content = none) :
    ∃ r', readHTTPResponseBodyFromXio uninitialised info response' c = some (.ok, r') := by
  unfold readHTTPResponseBodyFromXio at h ⊢
  simp only at h ⊢
  split at h
  case isTrue hchunked =>
    rw [if_pos hchunked]
    apply readChunksLoop_smaller h
    rw [hfresh]
    exact Nat.zero_le _
  case isFalse hplain =>
    rw [if_neg hplain]
    split at h
    case isTrue hempty =>
      rw [if_pos hempty]
      exact ⟨_, rfl⟩
    case isFalse hlength =>
      rw [if_neg hlength]
      cases hbuild : bufferPreBuild uninitialised response.content info.bodyLength with
      | none => simp [hbuild] at h
      | some content =>
        have hbuild' : bufferPreBuild uninitialised response'.content info.bodyLength =
            some content := by
          rw [← hbuild, hfresh]
          unfold bufferPreBuild at hbuild ⊢
          cases hcontent : response.content with
          | none => rfl
          | some used => simp [hcontent] at hbuild
        simp only [hbuild, hbuild'] at h ⊢
        cases hchunk : readChunk info.bodyLength { c with isIoError := false } with
        | none => simp [hchunk] at h
        | some read =>
          obtain ⟨result, bytes, c'⟩ := read
          simp only [hchunk] at h ⊢
          split at h
          case isTrue hfailed => simp at h
          case isFalse hfine =>
            rw [if_neg hfine]
            exact ⟨_, rfl⟩

end

/-! ## The whole response -/

section

variable {Headers : Type} (addHeaderNameValuePair : Headers → Bytes → Bytes → Headers)
variable (uninitialised : Nat → UInt8) (maxReasonPhraseSize : Nat)

theorem parseHttpResponse_status (src : Bytes) (maxReasonPhraseSize' : Nat) :
    (parseHttpResponse src maxReasonPhraseSize).1 = (parseHttpResponse src maxReasonPhraseSize').1 := by
  unfold parseHttpResponse
  split
  case isTrue hhttp =>
    simp only
    split <;> rfl
  case isFalse hno => rfl

theorem receiveHeaderFromXio_result {Headers' : Type} (c : HttpHandleData)
    (response : Response Headers) (response' : Response Headers') (maxReasonPhraseSize' : Nat) :
    (receiveHeaderFromXio maxReasonPhraseSize c response).1 =
        (receiveHeaderFromXio maxReasonPhraseSize' c response').1 ∧
      (receiveHeaderFromXio maxReasonPhraseSize c response).2.2 =
        (receiveHeaderFromXio maxReasonPhraseSize' c response').2.2 := by
  unfold receiveHeaderFromXio
  simp only
  cases (readLine tempBufferSize { c with isIoError := false }).1 with
  | none => exact ⟨rfl, rfl⟩
  | some buf =>
    simp only
    rw [parseHttpResponse_status maxReasonPhraseSize (cString buf) maxReasonPhraseSize']
    cases (parseHttpResponse (cString buf) maxReasonPhraseSize').1 with
    | none => exact ⟨rfl, rfl⟩
    | some ret => exact ⟨rfl, rfl⟩

theorem receiveHeaderFromXio_outputs (c : HttpHandleData) (response : Response Headers) :
    (receiveHeaderFromXio maxReasonPhraseSize c response).2.1.headers = response.headers ∧
      (receiveHeaderFromXio maxReasonPhraseSize c response).2.1.content = response.content := by
  unfold receiveHeaderFromXio
  simp only
  split
  · exact ⟨rfl, rfl⟩
  · split <;> exact ⟨rfl, rfl⟩

/-- Where the header lines end, the response headers have taken in what has been received, and the
content is as it was. -/
structure HeadersTaken (c : HttpHandleData) (headers : Headers) (response response' : Response Headers) :
    Prop where
  headers : response'.headers = some (addHeaders addHeaderNameValuePair headers (headersReceived c))
  content : response'.content = response.content

/-- How the reading of a response goes on, in the same way whatever the outputs are. -/
inductive HeadEnds (c : HttpHandleData) : Prop
  /-- It fails before the body. -/
  | failed (h : ∀ response headers, response.headers = some headers →
      ∃ result response' c',
        receiveResponse addHeaderNameValuePair uninitialised maxReasonPhraseSize response c =
          some (result, response', c') ∧ result ≠ .ok ∧
        HeadersTaken addHeaderNameValuePair c headers response response')
  /-- There is a body, if any header line has been stored. -/
  | body (info : ContentInfo) (c' : HttpHandleData)
      (h : ∀ response headers, response.headers = some headers →
        ∃ response',
          receiveResponse addHeaderNameValuePair uninitialised maxReasonPhraseSize response c =
            readHTTPResponseBodyFromXio uninitialised info response' c' ∧
          HeadersTaken addHeaderNameValuePair c headers response response')
      (hstored : info ≠ {} →
        ∃ pair ∈ headersReceived c, pair.1.all HttpHeaders.isNameChar = true)

theorem receiveResponse_head (c : HttpHandleData) :
    HeadEnds addHeaderNameValuePair uninitialised maxReasonPhraseSize c := by
  let collecting : Response (List (Bytes × Bytes)) := { headers := some [], content := none }
  have hsame := fun response : Response Headers =>
    receiveHeaderFromXio_result maxReasonPhraseSize c response collecting 0
  have hcollecting := (receiveHeaderFromXio_outputs 0 c collecting).1
  have hreceived : headersReceived c =
      if (receiveHeaderFromXio 0 c collecting).1 ≠ .ok then []
      else
        ((receiveContentInfoFromXio (fun pairs name value => pairs ++ [(name, value)])
          (receiveHeaderFromXio 0 c collecting).2.2
          (receiveHeaderFromXio 0 c collecting).2.1).2.1.2.headers).getD [] := rfl
  generalize receiveHeaderFromXio 0 c collecting = header at hsame hcollecting hreceived
  by_cases hok : header.1 = .ok
  case neg =>
    apply HeadEnds.failed
    intro response headers hheaders
    obtain ⟨hresult, hhandle⟩ := hsame response
    obtain ⟨hkept, hcontent⟩ := receiveHeaderFromXio_outputs maxReasonPhraseSize c response
    rw [if_pos hok] at hreceived
    have hfailed : (receiveHeaderFromXio maxReasonPhraseSize c response).1 ≠ .ok := hresult ▸ hok
    have hresponse : receiveResponse addHeaderNameValuePair uninitialised maxReasonPhraseSize
        response c = some (receiveHeaderFromXio maxReasonPhraseSize c response) := by
      unfold receiveResponse
      simp only
      rw [if_pos hfailed]
    refine ⟨_, _, _, hresponse, hfailed, ?_, hcontent⟩
    rw [hreceived]
    exact hkept.trans hheaders
  case pos =>
    obtain ⟨result, info, pairs, c', hinfo, hstored⟩ := receiveContentInfoFromXio_pairs header.2.2
    rw [if_neg (not_not_intro hok), hinfo _ header.2.1 [] hcollecting, addHeaders_collect] at hreceived
    have hpairs : headersReceived c = pairs := hreceived
    have htaken : ∀ response headers, response.headers = some headers →
        ∃ response',
          receiveContentInfoFromXio addHeaderNameValuePair
            (receiveHeaderFromXio maxReasonPhraseSize c response).2.2
            (receiveHeaderFromXio maxReasonPhraseSize c response).2.1 =
            (result, (info, response'), c') ∧
          HeadersTaken addHeaderNameValuePair c headers response response' := by
      intro response headers hheaders
      obtain ⟨hresult, hhandle⟩ := hsame response
      obtain ⟨hkept, hcontent⟩ := receiveHeaderFromXio_outputs maxReasonPhraseSize c response
      rw [hhandle, hinfo addHeaderNameValuePair _ headers (hkept.trans hheaders)]
      exact ⟨_, rfl, by rw [hpairs], hcontent⟩
    have hresponse : ∀ response : Response Headers,
        receiveResponse addHeaderNameValuePair uninitialised maxReasonPhraseSize response c =
          let info := receiveContentInfoFromXio addHeaderNameValuePair
            (receiveHeaderFromXio maxReasonPhraseSize c response).2.2
            (receiveHeaderFromXio maxReasonPhraseSize c response).2.1
          if info.1 ≠ .ok then some (info.1, info.2.1.2, info.2.2)
          else readHTTPResponseBodyFromXio uninitialised info.2.1.1 info.2.1.2 info.2.2 := by
      intro response
      unfold receiveResponse
      simp only
      rw [if_neg]
      rw [(hsame response).1]
      exact not_not_intro hok
    by_cases hdone : result = .ok
    case neg =>
      apply HeadEnds.failed
      intro response headers hheaders
      obtain ⟨response', heq, htakes⟩ := htaken response headers hheaders
      refine ⟨result, response', c', ?_, hdone, htakes⟩
      rw [hresponse, heq]
      exact if_pos hdone
    case pos =>
      apply HeadEnds.body info c'
      case hstored => rwa [hpairs]
      case h =>
        intro response headers hheaders
        obtain ⟨response', heq, htakes⟩ := htaken response headers hheaders
        refine ⟨response', ?_, htakes⟩
        rw [hresponse, heq]
        exact if_neg (not_not_intro hdone)

end

end SharedUtility.HttpApiCompact
