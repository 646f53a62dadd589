import SharedUtility.HttpApiCompact.Lengths
import SharedUtility.HttpProxyIo.Code
import SharedUtility.Reentrant.Quiet
import SharedUtility.UwsClient.Code

/-!
# StatusLine — which responses are accepted

The three parsers of a response look for the first dot behind `HTTP/`, for the first blank behind the dot, and
read a number of C there.

* `StatusLine line code` — the form of the line, and the digits of the status code in it,
* `statusPlace` — where the parsers look: in the whole text, not only in its first line,
* `acceptance_iff`: for which responses the decision is that of the form,
* `waits_of_zero_in_head`: what happens where the end of the head is behind a zero.
-/

namespace SharedUtility

/-! ## The line and the place -/

/-- `HTTP/`, a version, and a status code with a blank or nothing behind it. -/
structure StatusLine (line code : Bytes) : Prop where
  nonempty : code ≠ []
  isDigits : ∀ b ∈ code, isDigitOf 10 b = true
  spelled : ∃ major minor tail,
    line = ascii "HTTP/" ++ (major ++ (0x2E :: (minor ++ (0x20 :: (code ++ tail))))) ∧
      major ≠ [] ∧ minor ≠ [] ∧ (∀ b ∈ major, isDigitOf 10 b = true) ∧
        (∀ b ∈ minor, isDigitOf 10 b = true) ∧ (tail = [] ∨ tail.head? = some 0x20)

/-- What is in front of the first end of line. -/
def firstLine (text : Bytes) : Bytes :=
  match strstr text (ascii "\r\n") with
  | some lineEnd => text.take lineEnd
  | none => text

/-- From the first blank behind the first dot on; nothing where there is no such place. -/
def statusPlace (text : Bytes) : Bytes :=
  if (ascii "HTTP/").isPrefixOf text then
    ((text.drop 5).dropWhile (· != 0x2E)).dropWhile (· != 0x20)
  else []

section

variable {line code rest : Bytes}

theorem StatusLine.place (h : StatusLine line code) (rest : Bytes) :
    ∃ tail, statusPlace (line ++ rest) = [0x20] ++ (code ++ (tail ++ rest)) ∧
      (tail = [] ∨ tail.head? = some 0x20) := by
  rcases h.spelled with ⟨major, minor, tail, rfl, -, -, hmajor, hminor, htail⟩
  refine ⟨tail, ?_, htail⟩
  have hplain : ∀ b, isDigitOf 10 b = true → b ≠ 0x2E ∧ b ≠ 0x20 := by
    intro b hb
    constructor
    · rintro rfl
      revert hb
      decide
    · rintro rfl
      revert hb
      decide
  have htext : ascii "HTTP/" ++ (major ++ (0x2E :: (minor ++ (0x20 :: (code ++ tail))))) ++ rest =
      ascii "HTTP/" ++ (major ++ (0x2E :: (minor ++ (0x20 :: (code ++ (tail ++ rest)))))) := by
    simp only [List.append_assoc, List.cons_append]
  have hprefix : (ascii "HTTP/").isPrefixOf (ascii "HTTP/" ++
      (major ++ (0x2E :: (minor ++ (0x20 :: (code ++ (tail ++ rest))))))) = true :=
    List.isPrefixOf_iff_prefix.2 (List.prefix_append _ _)
  have hfive : (ascii "HTTP/").length = 5 := by decide
  rw [htext, statusPlace, if_pos hprefix, ← hfive, List.drop_left,
    List.dropWhile_append_of_pos fun b hb => bne_iff_ne.2 (hplain b (hmajor b hb)).1,
    List.dropWhile_cons_of_neg (by decide), List.dropWhile_cons_of_pos (by decide),
    List.dropWhile_append_of_pos fun b hb => bne_iff_ne.2 (hplain b (hminor b hb)).2,
    List.dropWhile_cons_of_neg (by decide)]
  rfl

theorem StatusLine.number (h : StatusLine line code) (hrest : rest = [] ∨ rest.head? = some 0x0D) :
    numberAt (statusPlace (line ++ rest)) = valueInC code ∧
      (numeral (behindSign (statusPlace (line ++ rest)))).2 ≠ [] ∧ statusPlace (line ++ rest) ≠ [] := by
  rcases h.place rest with ⟨tail, hplace, htail⟩
  have hback : ∀ b, (tail ++ rest).head? = some b → b = 0x20 ∨ b = 0x0D := by
    intro b hb
    rcases htail with rfl | hblank
    · rcases hrest with rfl | hreturn
      · cases hb
      · rw [List.nil_append, hreturn] at hb
        exact .inr (Option.some.inj hb).symm
    · rw [List.head?_append, hblank, Option.some_or] at hb
      exact .inl (Option.some.inj hb).symm
  have hends : ∀ b, (tail ++ rest).head? = some b → isDigitOf 10 b = false ∧ b ≠ 0x78 ∧ b ≠ 0x58 := by
    intro b hb
    rcases hback b hb with rfl | rfl
    · decide
    · decide
  have hnumber := @numberAt_digits [0x20] code (tail ++ rest) (forall_mem_of_all (by decide)) h.nonempty
    h.isDigits hends
  rw [hplace]
  exact ⟨hnumber.1, hnumber.2, List.cons_ne_nil _ _⟩

theorem StatusLine.code_eq (h : StatusLine line code) :
    code = (statusPlace line).tail.takeWhile (isDigitOf 10) := by
  rcases h.place [] with ⟨tail, hplace, htail⟩
  rw [List.append_nil, List.append_nil] at hplace
  rw [hplace]
  change code = (code ++ tail).takeWhile (isDigitOf 10)
  rw [takeWhile_append_stop, List.takeWhile_eq_self_iff.2 h.isDigits]
  rcases htail with rfl | hblank
  · rfl
  · rw [hblank]
    rfl

theorem StatusLine.unique {code' : Bytes} (h : StatusLine line code) (h' : StatusLine line code') :
    code = code' :=
  h.code_eq.trans h'.code_eq.symm

theorem strstr_prefix {haystack needle : Bytes} {offset : Nat}
    (h : strstr haystack needle = some offset) : needle <+: haystack.drop offset := by
  induction haystack generalizing offset with
  | nil =>
    rw [strstr] at h
    split_ifs at h with hfound
    cases h
    exact List.isPrefixOf_iff_prefix.1 hfound
  | cons b haystack ih =>
    rw [strstr] at h
    split_ifs at h with hfound
    · cases h
      exact List.isPrefixOf_iff_prefix.1 hfound
    · rcases Option.map_eq_some_iff.1 h with ⟨offset', hoffset', rfl⟩
      exact ih hoffset'

theorem firstLine_split (text : Bytes) :
    ∃ rest, text = firstLine text ++ rest ∧ (rest = [] ∨ rest.head? = some 0x0D) := by
  rw [firstLine]
  cases hend : strstr text (ascii "\r\n") with
  | none => exact ⟨[], (List.append_nil _).symm, .inl rfl⟩
  | some lineEnd =>
    refine ⟨text.drop lineEnd, (List.take_append_drop lineEnd text).symm, .inr ?_⟩
    rcases strstr_prefix hend with ⟨more, hmore⟩
    rw [← hmore]
    rfl

theorem strstr_back (front needle : Bytes) : ∃ offset, strstr (front ++ needle) needle = some offset := by
  induction front with
  | nil => exact ⟨0, by rw [strstr.eq_def, List.nil_append, if_pos (by simp)]⟩
  | cons b front ih =>
    rcases ih with ⟨offset, hoffset⟩
    rw [List.cons_append, strstr, hoffset]
    split_ifs
    · exact ⟨0, rfl⟩
    · exact ⟨offset + 1, rfl⟩

theorem strstr_front {front : Bytes} {c : UInt8} (h : c ∉ front) (needle rest : Bytes) :
    strstr (front ++ (c :: needle ++ rest)) (c :: needle) = some front.length := by
  induction front with
  | nil =>
    have hfound : (c :: needle).isPrefixOf ([] ++ (c :: needle ++ rest)) = true :=
      List.isPrefixOf_iff_prefix.2 (List.prefix_append _ _)
    rw [strstr.eq_def, if_pos hfound]
    rfl
  | cons b front ih =>
    rw [List.mem_cons, not_or] at h
    have hother : ¬ (c :: needle).isPrefixOf (b :: front ++ (c :: needle ++ rest)) = true := by
      rw [List.isPrefixOf_iff_prefix, List.cons_append, List.cons_prefix_cons]
      exact fun hsame => h.1 hsame.1
    rw [List.cons_append] at hother ⊢
    rw [strstr, if_neg hother, ih h.2, Option.map_some, List.length_cons]

theorem firstLine_front {front : Bytes} (h : 0x0D ∉ front) (rest : Bytes) :
    firstLine (front ++ (ascii "\r\n" ++ rest)) = front := by
  have hfound : strstr (front ++ (ascii "\r\n" ++ rest)) (ascii "\r\n") = some front.length :=
    strstr_front h [0x0A] rest
  rw [firstLine, hfound]
  exact List.take_left

theorem strstr_of_longer {haystack needle longer : Bytes} {offset : Nat} (hneedle : needle <+: longer)
    (h : strstr haystack longer = some offset) : ∃ offset', strstr haystack needle = some offset' := by
  induction haystack generalizing offset with
  | nil =>
    rw [strstr] at h
    split_ifs at h with hfound
    rw [strstr, if_pos (List.isPrefixOf_iff_prefix.2
      (hneedle.trans (List.isPrefixOf_iff_prefix.1 hfound)))]
    exact ⟨0, rfl⟩
  | cons b haystack ih =>
    rw [strstr] at h ⊢
    by_cases hshort : needle.isPrefixOf (b :: haystack) = true
    case pos => exact ⟨0, if_pos hshort⟩
    case neg =>
      rw [if_neg hshort]
      split_ifs at h with hfound
      · exact absurd (List.isPrefixOf_iff_prefix.2
          (hneedle.trans (List.isPrefixOf_iff_prefix.1 hfound))) hshort
      · rcases Option.map_eq_some_iff.1 h with ⟨offset', hoffset', -⟩
        rcases ih hoffset' with ⟨offset'', hoffset''⟩
        exact ⟨offset'' + 1, by rw [hoffset'', Option.map_some]⟩

theorem firstLine_cString {buffer : Bytes} {responseEnd : Nat}
    (hend : UwsClient.findResponseEnd buffer = some responseEnd) :
    firstLine (cString buffer) = firstLine buffer := by
  rw [UwsClient.findResponseEnd] at hend
  split_ifs at hend
  have hneedle : ascii "\r\n" <+: ascii "\r\n\r\n" := by decide
  rcases strstr_of_longer hneedle hend with ⟨lineEnd, hlineEnd⟩
  rcases List.takeWhile_prefix (l := buffer) (· != 0) with ⟨more, hmore⟩
  have hbuffer : strstr buffer (ascii "\r\n") = some lineEnd := by
    have happend := strstr_append more hlineEnd
    rwa [cString, hmore] at happend
  have hle : lineEnd ≤ (cString buffer).length := Nat.le_of_add_right_le (strstr_length hlineEnd)
  have htake : buffer.take lineEnd = (cString buffer).take lineEnd := by
    conv_lhs => rw [← hmore]
    exact List.take_append_of_le_length hle
  rw [firstLine, firstLine, hlineEnd, hbuffer]
  exact htake.symm

theorem StatusLine.cString (h : StatusLine line code) : StatusLine (cString line) code := by
  rcases h.spelled with ⟨major, minor, tail, rfl, hmajorNe, hminorNe, hmajor, hminor, htail⟩
  refine ⟨h.nonempty, h.isDigits, major, minor, SharedUtility.cString tail, ?_, hmajorNe, hminorNe,
    hmajor, hminor, ?_⟩
  · have hdigits : ∀ {text : Bytes}, (∀ b ∈ text, isDigitOf 10 b = true) → (0 : UInt8) ∉ text := by
      intro text htext hzero
      exact absurd (htext 0 hzero) (by decide)
    have hfront : (0 : UInt8) ∉ ascii "HTTP/" ++ (major ++ (0x2E :: (minor ++ (0x20 :: code)))) := by
      simp only [List.mem_append, List.mem_cons, hdigits hmajor, hdigits hminor, hdigits h.isDigits]
      decide
    have hassoc : ascii "HTTP/" ++ (major ++ (0x2E :: (minor ++ (0x20 :: (code ++ tail))))) =
        ascii "HTTP/" ++ (major ++ (0x2E :: (minor ++ (0x20 :: code)))) ++ tail := by
      simp only [List.append_assoc, List.cons_append]
    rw [hassoc, cString_append hfront]
    simp only [List.append_assoc, List.cons_append]
  · rcases htail with rfl | hblank
    · exact .inl rfl
    · right
      rcases List.head?_eq_some_iff.1 hblank with ⟨more, rfl⟩
      rfl

end

/-! ## The number at the place -/

/-- The number of C at the place, converted from `long` to `int`. -/
def intAt (text : Bytes) : Option Int :=
  let place := statusPlace text
  if place = [] ∨ (numeral (behindSign place)).2 = [] then none
  else some (intOfLong (max (-(2 ^ 63)) (min (2 ^ 63 - 1) (numberAt place))))

/-- The first line has the form, with a code in these bounds. -/
def HasStatus (low high : Nat) (text : Bytes) : Prop :=
  ∃ code, StatusLine (firstLine text) code ∧ low ≤ valueOf 10 code ∧ valueOf 10 code ≤ high

/-- The code is written without a 0 in front, or else neither is there such a code nor such a number at the
place. -/
def DecidedByForm (low high : Nat) (text : Bytes) : Prop :=
  (∃ code, StatusLine (firstLine text) code ∧ low ≤ valueOf 10 code ∧ valueOf 10 code ≤ high ∧
    code.head? ≠ some 0x30) ∨
  ¬ HasStatus low high text ∧
    ¬ ∃ status, intAt (cString text) = some status ∧ low ≤ status ∧ status ≤ high

/-- The code of the line is written as C writes it and an `int` holds it, or else there is neither a code nor
such a number at the place. -/
def LineIsDecimal (line : Bytes) : Prop :=
  (∃ code, StatusLine line code ∧ valueOf 10 code ≤ 2 ^ 31 - 1 ∧
    (valueOf 10 code < 8 ∨ code.head? ≠ some 0x30)) ∨
  (¬ ∃ code, StatusLine line code) ∧
    (statusPlace (cString line) = [] ∨ HttpApiCompact.NoInt (statusPlace (cString line)))

section

variable {low high : Nat} {text code : Bytes}

theorem StatusLine.intAt (h : StatusLine (firstLine text) code) :
    intAt text = some (intOfLong (max (-(2 ^ 63)) (min (2 ^ 63 - 1) (valueInC code)))) := by
  rcases firstLine_split text with ⟨rest, htext, hrest⟩
  have hnumber := h.number hrest
  rw [← htext] at hnumber
  rw [SharedUtility.intAt, hnumber.1, if_neg]
  rw [not_or]
  exact ⟨hnumber.2.2, hnumber.2.1⟩

/-- The number at the place decides as the form does, where octal digits never denote a code in the bounds
for decimal ones that do. -/
theorem decidedByForm_iff (hhigh : high < 2 ^ 31) (hline : firstLine (cString text) = firstLine text)
    (hoctal : ∀ code : Bytes, (∀ b ∈ code, isDigitOf 10 b = true) → code.head? = some 0x30 →
      low ≤ valueOf 10 code → valueOf 10 code ≤ high →
        ¬ (low ≤ valueInC code ∧ valueInC code ≤ high)) :
    ((∃ status, intAt (cString text) = some status ∧ low ≤ status ∧ status ≤ high) ↔
      HasStatus low high text) ↔ DecidedByForm low high text := by
  have hread : ∀ {code : Bytes}, StatusLine (firstLine text) code → valueInC code ≤ high →
      intAt (cString text) = some (valueInC code : Int) := by
    intro code hcode hle
    rw [← hline] at hcode
    rw [hcode.intAt, intOfLong, Int.bmod_eq_of_le]
    · congr 1
      omega
    · omega
    · omega
  constructor
  case mp =>
    intro hsame
    by_cases hstatus : HasStatus low high text
    case neg => exact .inr ⟨hstatus, fun hseen => hstatus (hsame.1 hseen)⟩
    case pos =>
      rcases hsame.2 hstatus with ⟨status, hseen, hlow, hle⟩
      rcases hstatus with ⟨code, hcode, hcodeLow, hcodeHigh⟩
      refine .inl ⟨code, hcode, hcodeLow, hcodeHigh, fun hzero => ?_⟩
      have hout := hoctal code hcode.isDigits hzero hcodeLow hcodeHigh
      -- the octal number is not larger than the decimal one
      have hsmall : valueInC code ≤ high := Nat.le_trans (valueInC_le code) hcodeHigh
      rw [hread hcode hsmall] at hseen
      cases hseen
      exact hout ⟨by omega, hsmall⟩
  case mpr =>
    rintro (⟨code, hcode, hlow, hle, hzero⟩ | ⟨hstatus, hseen⟩)
    · have hvalue : valueInC code = valueOf 10 code := if_neg hzero
      refine iff_of_true ⟨valueInC code, hread hcode (by omega), ?_, ?_⟩ ⟨code, hcode, hlow, hle⟩
      · omega
      · omega
    · exact iff_of_false hseen hstatus

end

/-! ## The parsers -/

section

variable {buffer line : Bytes} {errnoSet : Bool}

theorem uwsParse_eq (buffer : Bytes) (errnoSet : Bool) :
    UwsClient.parseHttpResponse buffer errnoSet =
      if statusPlace (cString buffer) = [] then none
      else UwsClient.parseStringToDecimal (statusPlace (cString buffer)) errnoSet := by
  rw [UwsClient.parseHttpResponse, statusPlace]
  dsimp only
  split_ifs with hprefix hempty hplace hplace
  · rfl
  · exfalso
    rw [Bool.or_eq_true, List.isEmpty_iff, List.isEmpty_iff] at hempty
    rcases hempty with hdot | hblank
    · rw [hdot] at hplace
      exact hplace rfl
    · exact hplace hblank
  · exfalso
    rw [Bool.or_eq_true, not_or, List.isEmpty_iff, List.isEmpty_iff] at hempty
    exact hempty.2 hplace
  · rfl
  · rfl
  · exact absurd rfl ‹_›

/-- `uws_client.c` and `http_proxy_io.c` read this status, whatever `errno` is. -/
theorem uwsParse_iff {status : Int} (hlow : 0 ≤ status) (hhigh : status < 2 ^ 31 - 1) :
    UwsClient.parseHttpResponse buffer errnoSet = some status ↔
      intAt (cString buffer) = some status := by
  rw [uwsParse_eq, intAt]
  by_cases hplace : statusPlace (cString buffer) = []
  · rw [if_pos hplace, if_pos (.inl hplace)]
  · rw [if_neg hplace, UwsClient.parseStringToDecimal]
    by_cases hread : (numeral (behindSign (statusPlace (cString buffer)))).2 = []
    · rw [strtol0_none hread, if_pos rfl, if_pos (.inr hread)]
    · rcases strtol0_some hread with ⟨hvalue, hlength⟩
      rw [hvalue, if_neg (not_or.2 ⟨hplace, hread⟩), if_neg hlength]
      split_ifs with herrno
      · refine iff_of_false nofun ?_
        rw [Option.some.injEq]
        rintro rfl
        omega
      · rfl

/-- `httpapi_compact.c` reads a status that an `int` holds. -/
theorem httpApiParse_eq (text : Bytes) (maxReasonPhraseSize : Nat) :
    (HttpApiCompact.parseHttpResponse text maxReasonPhraseSize).1 =
      if statusPlace text = [] then none
      else (HttpApiCompact.parseStringToDecimalAndRemaining (statusPlace text)).1 := by
  rw [HttpApiCompact.parseHttpResponse, statusPlace]
  dsimp only
  by_cases hprefix : (ascii "HTTP/").isPrefixOf text = true
  · rw [if_pos hprefix, if_pos hprefix]
    by_cases hblank : ((text.drop 5).dropWhile (· != 0x2E)).dropWhile (· != 0x20) = []
    · rw [if_pos (List.isEmpty_iff.2 hblank), if_pos hblank]
    · rw [if_neg (fun hempty => hblank (List.isEmpty_iff.1 hempty)), if_neg hblank]
  · rw [if_neg hprefix, if_neg hprefix, if_pos rfl]

end

/-! ## The responses -/

open Reentrant

section

/-- A failed open of `uws_client.c` closes the IO and reports `result`. -/
theorem uws_failed_calls {answers : (c : UwsClient.Call) → UwsClient.Ans c} {s : UwsClient.Uws}
    {cb : UwsClient.Callback} {result : UwsClient.WsOpenResultDetailed}
    (hcb : s.client.callbacks.onWsOpenComplete = some cb) :
    @Prog.calls _ UwsClient.uwsSignature answers _ ((do
      UwsClient.indicateWsOpenCompleteErrorAndClose result
      pure false : UwsClient.UwsComp Bool) s) =
      [.xioClose .failedOpen, .onWsOpenComplete cb result] := by
  simp only [UwsClient.indicateWsOpenCompleteErrorAndClose, UwsClient.indicateWsOpenCompleteError,
    UwsClient.xioClose, UwsClient.callOut, UwsClient.ask, UwsClient.setUwsState, UwsClient.getClient,
    UwsClient.callBack, Comp.bind_apply, Comp.modify, Comp.get, Comp.call, Comp.pure_apply, Prog.bind,
    Prog.calls, UwsClient.Uws.setState, UwsClient.Uws.setClient, UwsClient.Uws.record, hcb]

/-- What is consumed of the stream buffer changes the state only, also where it is too much. -/
theorem uws_consumed (s : UwsClient.Uws) (consumedBytes : Nat) :
    ∃ s' : UwsClient.Uws, UwsClient.consumeStreamBufferBytes consumedBytes s = .ret () s' ∧
      s'.client = s.client.withStream (s.client.streamBuffer.drop consumedBytes) := by
  rw [UwsClient.consumeStreamBufferBytes]
  simp only [UwsClient.getClient, UwsClient.modifyClient, Comp.bind_apply, Comp.get, Comp.pure_apply,
    Prog.bind]
  by_cases hfault : s.client.streamBuffer.length < consumedBytes
  case pos =>
    rw [if_pos hfault]
    exact ⟨_, rfl, rfl⟩
  case neg =>
    rw [if_neg hfault]
    exact ⟨_, rfl, rfl⟩

/-- `uws_client.c` reports an open that has succeeded when the status is 101. -/
theorem uws_reports_iff {s : UwsClient.Uws} {cb : UwsClient.Callback} {responseEnd : Nat}
    (answers : (c : UwsClient.Call) → UwsClient.Ans c)
    (hstate : s.client.uwsState = .uwsStateWaitingForUpgradeResponse)
    (hend : UwsClient.findResponseEnd s.client.streamBuffer = some responseEnd)
    (hcb : s.client.callbacks.onWsOpenComplete = some cb) :
    UwsClient.Call.onWsOpenComplete cb { result := .wsOpenOk } ∈
        @Prog.calls _ UwsClient.uwsSignature answers _ (UwsClient.decodeRound s) ↔
      UwsClient.parseHttpResponse s.client.streamBuffer (answers .errno) = some 101 := by
  have hround : UwsClient.decodeRound s = UwsClient.decodeUpgradeResponse s := by
    simp only [UwsClient.decodeRound, UwsClient.getClient, Comp.bind_apply, Comp.get, Comp.pure_apply,
      Prog.bind, hstate]
  rw [hround, UwsClient.decodeUpgradeResponse]
  simp only [UwsClient.getClient, Comp.bind_apply, Comp.get, Comp.pure_apply, Prog.bind, hend,
    UwsClient.errno, UwsClient.ask, Comp.call, Prog.calls]
  rw [List.mem_cons, or_iff_right (by rintro ⟨⟩)]
  cases hparse : UwsClient.parseHttpResponse s.client.streamBuffer (answers .errno) with
  | none =>
    change _ ∈ @Prog.calls _ UwsClient.uwsSignature answers _ ((do
      UwsClient.indicateWsOpenCompleteErrorAndClose
        { result := .wsOpenErrorBadUpgradeResponse, code := SharedUtility.failure }
      pure false : UwsClient.UwsComp Bool) s) ↔ _
    rw [uws_failed_calls hcb]
    refine iff_of_false ?_ (by rintro ⟨⟩)
    simp
  | some statusCode =>
    by_cases hstatus : statusCode = 101
    case neg =>
      rw [Option.some.injEq]
      refine iff_of_false ?_ hstatus
      dsimp only
      rw [if_pos hstatus, uws_failed_calls hcb]
      simp
    case pos =>
      refine iff_of_true ?_ (congrArg some hstatus)
      dsimp only
      rw [if_neg (not_not.2 hstatus)]
      rcases uws_consumed s (responseEnd + 4) with ⟨s', hconsumed, hclient⟩
      rw [Comp.bind_apply, hconsumed]
      simp [UwsClient.setUwsState, UwsClient.callBack, UwsClient.callOut,
        UwsClient.ask, Comp.bind_apply, Comp.modify, Comp.get, Comp.call, Comp.pure_apply, Prog.bind,
        Prog.calls, hclient, hcb]

/-- `http_proxy_io.c` reports an open that has succeeded when the status is from 200 to 299. -/
theorem proxy_reports_iff {s : HttpProxyIo.ProxyIo} {responseEnd : Nat}
    (answers : (c : HttpProxyIo.Call) → HttpProxyIo.Ans c)
    (hend : UwsClient.findResponseEnd s.inst.receiveBuffer = some responseEnd) :
    HttpProxyIo.Call.onIoOpenComplete s.inst.onIoOpenComplete { result := .ioOpenOk, code := 0 } ∈
        @Prog.calls _ HttpProxyIo.httpProxyIoSignature answers _ (HttpProxyIo.parseConnectResponse s) ↔
      ∃ status, UwsClient.parseHttpResponse s.inst.receiveBuffer (answers .errno) = some status ∧
        200 ≤ status ∧ status ≤ 299 := by
  rw [HttpProxyIo.parseConnectResponse]
  simp only [HttpProxyIo.getInst, Comp.bind_apply, Comp.get, Comp.pure_apply, Prog.bind, hend,
    HttpProxyIo.errno, HttpProxyIo.ask, Comp.call, Prog.calls]
  rw [List.mem_cons, or_iff_right (by rintro ⟨⟩)]
  have hfailed : ∀ s : HttpProxyIo.ProxyIo,
      @Prog.calls _ HttpProxyIo.httpProxyIoSignature answers _
        (HttpProxyIo.indicateOpenCompleteErrorAndClose SharedUtility.failure s) =
        [.xioClose .failedOpen, .onIoOpenComplete s.inst.onIoOpenComplete
          { result := .ioOpenError, code := SharedUtility.failure }] := by
    intro s
    simp [HttpProxyIo.indicateOpenCompleteErrorAndClose, HttpProxyIo.setHttpProxyIoState,
      HttpProxyIo.xioClose, HttpProxyIo.onIoOpenComplete, HttpProxyIo.callOut, HttpProxyIo.ask,
      HttpProxyIo.getInst, Comp.bind_apply, Comp.modify, Comp.get, Comp.call, Comp.pure_apply, Prog.bind,
      Prog.calls]
  cases hparse : UwsClient.parseHttpResponse s.inst.receiveBuffer (answers .errno) with
  | none =>
    refine iff_of_false ?_ (by rintro ⟨_, ⟨⟩, _⟩)
    dsimp only
    rw [hfailed]
    simp
  | some statusCode =>
    by_cases hstatus : statusCode < 200 ∨ statusCode > 299
    case pos =>
      refine iff_of_false ?_ ?_
      · dsimp only
        rw [if_pos hstatus, hfailed]
        simp
      · rintro ⟨status, h, hlow, hhigh⟩
        cases h
        omega
    case neg =>
      refine iff_of_true ?_ ⟨statusCode, rfl, by omega, by omega⟩
      dsimp only
      rw [if_neg hstatus]
      simp [HttpProxyIo.reportOpened, HttpProxyIo.setHttpProxyIoState, HttpProxyIo.onIoOpenComplete,
        HttpProxyIo.callOut, HttpProxyIo.ask, HttpProxyIo.getInst, Comp.bind_apply, Comp.modify,
        Comp.get, Comp.call, Comp.pure_apply, Prog.bind, Prog.calls]

/-- Behind a zero in the head its end is never found: whatever comes, the clients go on waiting, and
report neither success nor failure. -/
theorem waits_of_zero_in_head {front : Bytes} (hfront : 0 ∉ front)
    (hhead : strstr front (ascii "\r\n\r\n") = none) (rest : Bytes) :
    (∀ s : UwsClient.Uws, s.client.uwsState = .uwsStateWaitingForUpgradeResponse →
      s.client.streamBuffer = front ++ 0 :: rest → UwsClient.decodeRound s = .ret false s) ∧
    ∀ s : HttpProxyIo.ProxyIo, s.inst.receiveBuffer = front ++ 0 :: rest →
      HttpProxyIo.parseConnectResponse s = .ret () s := by
  have hstring : cString (front ++ 0 :: rest) = front := by
    rw [cString_append hfront]
    exact List.append_nil front
  have hnone : UwsClient.findResponseEnd (front ++ 0 :: rest) = none := by
    rw [UwsClient.findResponseEnd, hstring]
    split
    · exact hhead
    · rfl
  constructor
  case left =>
    intro s hstate hbuffer
    simp only [UwsClient.decodeRound, UwsClient.decodeUpgradeResponse, UwsClient.getClient,
      Comp.bind_apply, Comp.get, Comp.pure_apply, Prog.bind, hstate, hbuffer, hnone]
  case right =>
    intro s hbuffer
    simp only [HttpProxyIo.parseConnectResponse, HttpProxyIo.getInst, Comp.bind_apply, Comp.get,
      Comp.pure_apply, Prog.bind, hbuffer, hnone]

/-- The status code of the response is that of the line, and without one the response is refused. -/
def ReportsCode {Headers : Type} (line : Bytes)
    (r : HttpApiCompact.HttpApiResult × HttpApiCompact.Response Headers × HttpApiCompact.HttpHandleData) :
    Prop :=
  (∀ code, StatusLine line code → r.1 = .ok ∧ r.2.1.statusCode = some (valueOf 10 code : Int)) ∧
  ((¬ ∃ code, StatusLine line code) → r.1 ≠ .ok)

/-- `httpapi_compact.c` reports the code of a line that is decimal. -/
theorem httpApi_reports_iff {Headers : Type} {line : Bytes} {c : HttpApiCompact.HttpHandleData}
    (maxReasonPhraseSize : Nat) (response : HttpApiCompact.Response Headers)
    (hline : (HttpApiCompact.readLine HttpApiCompact.tempBufferSize { c with isIoError := false }).1 =
      some line) :
    ReportsCode line (HttpApiCompact.receiveHeaderFromXio maxReasonPhraseSize c response) ↔
      LineIsDecimal line := by
  have hparsed := httpApiParse_eq (cString line) maxReasonPhraseSize
  rw [HttpApiCompact.receiveHeaderFromXio, ReportsCode, LineIsDecimal]
  dsimp only
  rw [hline]
  dsimp only
  rw [hparsed]
  by_cases hform : ∃ code, StatusLine line code
  case neg =>
    rw [or_iff_right fun h => hform ⟨h.choose, h.choose_spec.1⟩]
    by_cases hplace : statusPlace (cString line) = []
    case pos =>
      rw [if_pos hplace]
      exact iff_of_true ⟨fun code hcode => absurd ⟨code, hcode⟩ hform, nofun⟩ ⟨hform, .inl hplace⟩
    case neg =>
      rw [if_neg hplace]
      by_cases hint : HttpApiCompact.NoInt (statusPlace (cString line))
      case pos =>
        rw [HttpApiCompact.parse_none_iff.2 hint]
        exact iff_of_true ⟨fun code hcode => absurd ⟨code, hcode⟩ hform, nofun⟩ ⟨hform, .inr hint⟩
      case neg =>
        rw [HttpApiCompact.parse_some hint]
        exact iff_of_false (fun h => h.2 hform rfl) fun h => h.2.elim hplace hint
  case pos =>
    rcases hform with ⟨code, hcode⟩
    have hnumber := @StatusLine.number (cString line) code [] hcode.cString (.inl rfl)
    rw [List.append_nil] at hnumber
    rw [or_iff_left fun h => h.1 ⟨code, hcode⟩, if_neg hnumber.2.2]
    have hunique : ∀ {code'}, StatusLine line code' → code' = code := fun h => h.unique hcode
    by_cases hint : HttpApiCompact.NoInt (statusPlace (cString line))
    case pos =>
      rw [HttpApiCompact.parse_none_iff.2 hint]
      refine iff_of_false (fun h => nomatch (h.1 code hcode).1) ?_
      rintro ⟨code', hcode', hle, -⟩
      cases hunique hcode'
      rw [HttpApiCompact.NoInt, or_iff_right hnumber.2.1, hnumber.1] at hint
      have hsmall := valueInC_le code
      omega
    case neg =>
      rw [HttpApiCompact.parse_some hint, hnumber.1]
      have hequal := @valueInC_eq_iff code hcode.isDigits
      constructor
      case mp =>
        intro h
        have hvalue : valueInC code = valueOf 10 code := by
          exact_mod_cast Option.some.inj (h.1 code hcode).2
        rw [HttpApiCompact.NoInt, hnumber.1] at hint
        exact ⟨code, hcode, by omega, hequal.1 hvalue⟩
      case mpr =>
        rintro ⟨code', hcode', -, hvalue⟩
        cases hunique hcode'
        refine ⟨fun code'' hcode'' => ?_, fun hno => absurd ⟨code, hcode⟩ hno⟩
        cases hunique hcode''
        rw [hequal.2 hvalue]
        exact ⟨rfl, rfl⟩

/-- Which responses are accepted by the form of their first line. -/
theorem acceptance_iff {Headers : Type} (s : UwsClient.Uws) (cb : UwsClient.Callback)
    (answers : (call : UwsClient.Call) → UwsClient.Ans call) (s' : HttpProxyIo.ProxyIo)
    (answers' : (call : HttpProxyIo.Call) → HttpProxyIo.Ans call) (line : Bytes)
    (c : HttpApiCompact.HttpHandleData) (maxReasonPhraseSize : Nat)
    (response : HttpApiCompact.Response Headers) :
    (∀ responseEnd, s.client.uwsState = .uwsStateWaitingForUpgradeResponse →
      UwsClient.findResponseEnd s.client.streamBuffer = some responseEnd →
      s.client.callbacks.onWsOpenComplete = some cb →
      ((UwsClient.Call.onWsOpenComplete cb { result := .wsOpenOk } ∈
          @Prog.calls _ UwsClient.uwsSignature answers _ (UwsClient.decodeRound s) ↔
        HasStatus 101 101 s.client.streamBuffer) ↔ DecidedByForm 101 101 s.client.streamBuffer)) ∧
    (∀ responseEnd, UwsClient.findResponseEnd s'.inst.receiveBuffer = some responseEnd →
      ((HttpProxyIo.Call.onIoOpenComplete s'.inst.onIoOpenComplete { result := .ioOpenOk, code := 0 } ∈
          @Prog.calls _ HttpProxyIo.httpProxyIoSignature answers' _
            (HttpProxyIo.parseConnectResponse s') ↔
        HasStatus 200 299 s'.inst.receiveBuffer) ↔ DecidedByForm 200 299 s'.inst.receiveBuffer)) ∧
    ((HttpApiCompact.readLine HttpApiCompact.tempBufferSize { c with isIoError := false }).1 = some line →
      (ReportsCode line (HttpApiCompact.receiveHeaderFromXio maxReasonPhraseSize c response) ↔
        LineIsDecimal line)) := by
  refine ⟨?uws, ?proxy, ?httpApi⟩
  case uws =>
    intro responseEnd hstate hend hcb
    rw [uws_reports_iff answers hstate hend hcb, uwsParse_iff (by decide) (by decide)]
    have hiff := @decidedByForm_iff 101 101 s.client.streamBuffer (by decide) (firstLine_cString hend) (by
      intro code hdigits hzero hlow hhigh hin
      have hsame := (valueInC_eq_iff hdigits).1 (by omega)
      rw [or_iff_left (not_not.2 hzero)] at hsame
      omega)
    rw [← hiff]
    refine iff_congr ⟨fun h => ⟨101, h, by decide, by decide⟩, ?_⟩ Iff.rfl
    rintro ⟨status, h, hlow, hhigh⟩
    rw [h, show status = 101 by omega]
  case proxy =>
    intro responseEnd hend
    have hiff := @decidedByForm_iff 200 299 s'.inst.receiveBuffer (by decide) (firstLine_cString hend) (by
      intro code hdigits hzero hlow hhigh hin
      have hless := valueOf_octal_lt hdigits (by omega)
      rw [valueInC, if_pos hzero] at hin
      omega)
    rw [← hiff, proxy_reports_iff answers' hend]
    refine iff_congr (exists_congr fun status => ?_) Iff.rfl
    constructor
    · rintro ⟨h, hlow, hhigh⟩
      exact ⟨(uwsParse_iff (by omega) (by omega)).1 h, hlow, hhigh⟩
    · rintro ⟨h, hlow, hhigh⟩
      have hlow' : (200 : Int) ≤ status := hlow
      have hhigh' : status ≤ (299 : Int) := hhigh
      exact ⟨(uwsParse_iff (by omega) (by omega)).2 h, hlow, hhigh⟩
  case httpApi =>
    intro hline
    exact httpApi_reports_iff maxReasonPhraseSize response hline

end

/-! ## Some responses -/

/-- An instance with a complete response that begins with this line. -/
def uwsWith (statusLine : Bytes) : UwsClient.Uws :=
  { client :=
    { hostname := [], resourceName := [], protocols := [], port := 80, requestHeaders := []
      uwsState := .uwsStateWaitingForUpgradeResponse
      callbacks := ⟨some 0, some 0, some 0, some 0⟩
      streamBuffer := statusLine ++ ascii "\r\n\r\n" } }

theorem uwsWith_complete {statusLine : Bytes} (h : 0 ∉ statusLine) :
    ∃ responseEnd, UwsClient.findResponseEnd (uwsWith statusLine).client.streamBuffer = some responseEnd := by
  rcases strstr_back statusLine (ascii "\r\n\r\n") with ⟨responseEnd, hend⟩
  refine ⟨responseEnd, ?_⟩
  have hlength : (statusLine ++ ascii "\r\n\r\n").length ≥ 4 := by
    rw [List.length_append]
    exact Nat.le_add_left 4 _
  have hplain : cString (statusLine ++ ascii "\r\n\r\n") = statusLine ++ ascii "\r\n\r\n" :=
    cString_append h _
  rw [uwsWith, UwsClient.findResponseEnd, if_pos hlength, hplain, hend]

/-- The answer to an upgrade request that is granted. -/
theorem acceptance_upgraded :
    UwsClient.Call.onWsOpenComplete 0 { result := .wsOpenOk } ∈
        @Prog.calls _ UwsClient.uwsSignature UwsClient.succeeds _
          (UwsClient.decodeRound (uwsWith (ascii "HTTP/1.1 101 Switching Protocols"))) ↔
      HasStatus 101 101 (uwsWith (ascii "HTTP/1.1 101 Switching Protocols")).client.streamBuffer := by
  rcases @uwsWith_complete (ascii "HTTP/1.1 101 Switching Protocols") (by decide) with ⟨responseEnd, hend⟩
  have hline : firstLine (uwsWith (ascii "HTTP/1.1 101 Switching Protocols")).client.streamBuffer =
      ascii "HTTP/1.1 101 Switching Protocols" := firstLine_front (by decide) (ascii "\r\n")
  have hcode : StatusLine (ascii "HTTP/1.1 101 Switching Protocols") (ascii "101") := by
    refine ⟨by decide, forall_mem_of_all (by decide), ascii "1", ascii "1", ascii " Switching Protocols",
      by decide, by decide, by decide, forall_mem_of_all (by decide), forall_mem_of_all (by decide),
      by decide⟩
  rw [← hline] at hcode
  have hboth := acceptance_iff (uwsWith (ascii "HTTP/1.1 101 Switching Protocols")) 0 UwsClient.succeeds {}
    HttpProxyIo.succeeds [] {} 0 { headers := some (), content := none }
  exact (hboth.1 responseEnd rfl hend rfl).2
    (.inl ⟨_, hcode, by decide, by decide, by decide⟩)

/-- A status in base 16 is accepted, a number from a header is one, and one with a 0 in front is another. -/
theorem status_in_another_base :
    ¬ (UwsClient.Call.onWsOpenComplete 0 { result := .wsOpenOk } ∈
          @Prog.calls _ UwsClient.uwsSignature UwsClient.succeeds _
            (UwsClient.decodeRound (uwsWith (ascii "HTTP/1.1 0x65 Switching Protocols"))) ↔
        HasStatus 101 101 (uwsWith (ascii "HTTP/1.1 0x65 Switching Protocols")).client.streamBuffer) ∧
    ¬ (UwsClient.Call.onWsOpenComplete 0 { result := .wsOpenOk } ∈
          @Prog.calls _ UwsClient.uwsSignature UwsClient.succeeds _
            (UwsClient.decodeRound (uwsWith (ascii "HTTP/1.1\r\nAge: 101"))) ↔
        HasStatus 101 101 (uwsWith (ascii "HTTP/1.1\r\nAge: 101")).client.streamBuffer) ∧
    (HttpApiCompact.parseHttpResponse (cString (ascii "HTTP/1.1 0200 OK")) 0).1 = some 128 := by
  have hnone : ∀ {head line : Bytes}, firstLine head = line →
      valueOf 10 ((statusPlace line).tail.takeWhile (isDigitOf 10)) = 0 → ¬ HasStatus 101 101 head := by
    rintro head line rfl hzero ⟨code, hcode, hlow, -⟩
    rw [hcode.code_eq, hzero] at hlow
    exact absurd hlow (by decide)
  have hhexadecimal : ¬ HasStatus 101 101
      (uwsWith (ascii "HTTP/1.1 0x65 Switching Protocols")).client.streamBuffer :=
    hnone (firstLine_front (by decide) (ascii "\r\n")) (by decide)
  have hheader : ¬ HasStatus 101 101 (uwsWith (ascii "HTTP/1.1\r\nAge: 101")).client.streamBuffer :=
    @hnone _ (ascii "HTTP/1.1") (@firstLine_front (ascii "HTTP/1.1") (by decide)
      (ascii "Age: 101\r\n\r\n")) (by decide)
  rcases @uwsWith_complete (ascii "HTTP/1.1 0x65 Switching Protocols") (by decide) with ⟨_, hend⟩
  rcases @uwsWith_complete (ascii "HTTP/1.1\r\nAge: 101") (by decide) with ⟨_, hend'⟩
  rw [uws_reports_iff UwsClient.succeeds rfl hend rfl, uws_reports_iff UwsClient.succeeds rfl hend' rfl]
  refine ⟨fun h => ?_, fun h => ?_, by decide⟩
  · exact hhexadecimal (h.1 (by decide))
  · exact hheader (h.1 (by decide))

end SharedUtility
