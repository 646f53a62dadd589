import SharedUtility.JsonText
import SharedUtility.Memory.Cursor
import SharedUtility.Memory.Scratch
import SharedUtility.Strings.Refinement

/-!
# Strings.Json — `STRING_new_JSON` of `strings.c`

* `scan`, `writeLoop`, `stringNewJSON`, `stringDelete` — the code,
* `jsonText` — a string in quotation marks, with escapes; `jsonText_denotes`: what it denotes in JSON,
* `scan_eq`, `writeLoop_writes`: the size that is computed is the size that is written,
* `stringNewJSON_creates`.
-/

namespace SharedUtility.Strings

open Memory

/-! ## The code -/

def hexToASCII (nibble : UInt8) : UInt8 :=
  if nibble < 10 then 0x30 + nibble else 0x41 + (nibble - 10)

/-- The loop that counts `nControlCharacters` and `nEscapeCharacters`; it breaks at a character that is not
ASCII. -/
def scan : (source : Bytes) → (nControlCharacters nEscapeCharacters : Nat) → Option (Nat × Nat)
  | [], nControlCharacters, nEscapeCharacters => some (nControlCharacters, nEscapeCharacters)
  | c :: source, nControlCharacters, nEscapeCharacters =>
    if c ≥ 128 then none
    else if c ≤ 0x1F then scan source (addSizeT nControlCharacters 1) nEscapeCharacters
    else if c = 0x22 ∨ c = 0x5C ∨ c = 0x2F then scan source nControlCharacters (addSizeT nEscapeCharacters 1)
    else scan source nControlCharacters nEscapeCharacters

/-- What is written for a character. -/
def jsonChar (c : UInt8) : Bytes :=
  if c ≤ 0x1F then [0x5C, 0x75, 0x30, 0x30, hexToASCII ((c &&& 0xF0) >>> 4), hexToASCII (c &&& 0x0F)]
  else if c = 0x22 then [0x5C, 0x22]
  else if c = 0x5C then [0x5C, 0x5C]
  else if c = 0x2F then [0x5C, 0x2F]
  else [c]

/-- `result->s[pos++] = c` for some characters. -/
def putAll (s : Ptr) : (pos : Nat) → Bytes → StringM Nat
  | pos, [] => pure pos
  | pos, c :: characters => do
    setChar s pos c
    putAll s (addSizeT pos 1) characters

/-- The loop that writes. -/
def writeLoop (s : Ptr) : (pos : Nat) → (source : Bytes) → StringM Nat
  | pos, [] => pure pos
  | pos, c :: source => do
    let pos ← putAll s pos (jsonChar c)
    writeLoop s pos source

def stringNewJSON (source : Option CString) : StringM (Option StringTag) :=
  match source with
  | none => pure none
  | some source =>
    match scan source.text 0 0 with
    | none => pure none
    | some (nControlCharacters, nEscapeCharacters) => do
      let nAllocation := addSizeT (addSizeT
        (addSizeT source.length (5 * nControlCharacters % (sizeMax + 1))) nEscapeCharacters) 3
      let ok ← allocate
      if ok then do
        let s ← mallocBlock ptrdiffMax nAllocation
        if s = none then pure none
        else do
          setChar s 0 0x22
          let pos ← writeLoop s 1 source.text
          setChar s pos 0x22
          setChar s (addSizeT pos 1) 0
          pure (some { s := s })
      else pure none

def stringDelete (handle : Option StringTag) : StringM Unit :=
  match handle with
  | none => pure ()
  | some handle => free handle.s

/-! ## The text -/

def jsonBody (text : Bytes) : Bytes :=
  text.flatMap jsonChar

/-- A string as JSON has it. -/
def jsonText (text : Bytes) : Bytes :=
  0x22 :: (jsonBody text ++ [0x22])

section

variable {text : Bytes}

set_option maxRecDepth 8000 in
theorem hexToASCII_value (c : UInt8) (h : c ≤ 0x1F) :
    (isDigitOf 16 (hexToASCII ((c &&& 0xF0) >>> 4)) = true ∧ isDigitOf 16 (hexToASCII (c &&& 0x0F)) = true) ∧
      (digitValue (hexToASCII ((c &&& 0xF0) >>> 4))).getD 0 * 16 +
        (digitValue (hexToASCII (c &&& 0x0F))).getD 0 = c.toNat := by
  revert c
  apply byte_forall
  decide

theorem jsonChar_form {c : UInt8} (hc : c < 128) : JsonText.CharForm (jsonChar c) c.toNat := by
  rw [jsonChar]
  split_ifs with hcontrol hquote hslash hsolidus
  · obtain ⟨⟨hhigh, hlow⟩, hvalue⟩ := hexToASCII_value c hcontrol
    have hdigits : ∀ b ∈ [0x30, 0x30, hexToASCII ((c &&& 0xF0) >>> 4), hexToASCII (c &&& 0x0F)],
        isDigitOf 16 b = true := by
      intro b hb
      simp only [List.mem_cons, List.not_mem_nil, or_false] at hb
      rcases hb with rfl | rfl | rfl | rfl
      · rfl
      · rfl
      · exact hhigh
      · exact hlow
    have hform := JsonText.CharForm.unicode rfl hdigits
    have hzero : (digitValue 0x30).getD 0 = 0 := rfl
    rw [valueOf, valueFrom_cons, valueFrom_cons, valueFrom_cons, valueFrom_cons, valueFrom_nil, hzero,
      Nat.zero_mul, Nat.zero_add, hvalue] at hform
    exact hform
  · subst hquote
    exact .escape rfl
  · subst hslash
    exact .escape rfl
  · subst hsolidus
    exact .escape rfl
  · refine .plain ?_
    rw [JsonText.isPlain, Bool.and_eq_true, Bool.and_eq_true, Bool.and_eq_true, decide_eq_true_eq,
      decide_eq_true_eq, bne_iff_ne, bne_iff_ne]
    refine ⟨⟨⟨?_, hc⟩, hquote⟩, hslash⟩
    rw [UInt8.le_iff_toNat_le] at hcontrol ⊢
    have hbound : (0x1F : UInt8).toNat + 1 = (0x20 : UInt8).toNat := rfl
    omega

theorem jsonText_denotes (h : ∀ c ∈ text, c < 128) :
    JsonText.StringText (jsonText text) (text.map UInt8.toNat) := by
  refine .quoted ?_
  induction text with
  | nil => exact .nil
  | cons c text ih =>
    rw [jsonBody, List.flatMap_cons, List.map_cons]
    exact .cons (jsonChar_form (h c (List.mem_cons_self ..))) (ih fun d hd => h d (List.mem_cons_of_mem _ hd))

set_option maxRecDepth 8000 in
theorem zero_notMem_jsonChar (c : UInt8) (hc : c ≠ 0) : 0 ∉ jsonChar c := by
  revert c
  apply byte_forall
  decide

theorem zero_notMem_jsonText (h : 0 ∉ text) : 0 ∉ jsonText text := by
  rw [jsonText, List.mem_cons, List.mem_append, List.mem_singleton, jsonBody, List.mem_flatMap]
  rintro (hzero | ⟨c, hc, hmem⟩ | hzero)
  · cases hzero
  · refine zero_notMem_jsonChar c ?_ hmem
    rintro rfl
    exact h hc
  · cases hzero

end

/-! ## The size -/

section

variable {text : Bytes} {nControlCharacters nEscapeCharacters : Nat}

theorem length_jsonChar (c : UInt8) :
    (jsonChar c).length = if c ≤ 0x1F then 6 else if c = 0x22 ∨ c = 0x5C ∨ c = 0x2F then 2 else 1 := by
  rw [jsonChar]
  split_ifs with hcontrol hquote hany hslash hsolidus
  all_goals first | rfl | simp_all

theorem length_jsonBody_cons (c : UInt8) (text : Bytes) :
    (jsonBody (c :: text)).length = (jsonChar c).length + (jsonBody text).length := by
  rw [jsonBody, List.flatMap_cons, List.length_append]
  rfl

theorem scan_eq (hcontrol : nControlCharacters + text.length ≤ sizeMax)
    (hescape : nEscapeCharacters + text.length ≤ sizeMax) :
    (scan text nControlCharacters nEscapeCharacters = none ∧ ¬ ∀ c ∈ text, c < 128) ∨
      ∃ n m, scan text nControlCharacters nEscapeCharacters = some (n, m) ∧ (∀ c ∈ text, c < 128) ∧
        text.length + 5 * n + m = 5 * nControlCharacters + nEscapeCharacters + (jsonBody text).length := by
  induction text generalizing nControlCharacters nEscapeCharacters with
  | nil =>
    refine .inr ⟨_, _, rfl, nofun, ?_⟩
    rw [jsonBody, List.flatMap_nil, List.length_nil]
    omega
  | cons c text ih =>
    rw [List.length_cons] at hcontrol hescape
    rw [scan, length_jsonBody_cons, length_jsonChar]
    by_cases hascii : c ≥ 128
    case pos =>
      rw [if_pos hascii]
      refine .inl ⟨rfl, fun hall => ?_⟩
      exact absurd (hall c (List.mem_cons_self ..)) (UInt8.not_lt.2 hascii)
    case neg =>
      have hc : c < 128 := UInt8.not_le.1 hascii
      have hcons : (∀ d ∈ c :: text, d < 128) ↔ ∀ d ∈ text, d < 128 := by
        rw [List.forall_mem_cons]
        exact and_iff_right hc
      rw [if_neg hascii, hcons, List.length_cons]
      split_ifs with hlow hmark
      · rw [addSizeT_of_le (by omega)]
        rcases @ih (nControlCharacters + 1) nEscapeCharacters (by omega) (by omega) with hnone |
          ⟨n, m, hscan, hall, hsum⟩
        · exact .inl hnone
        · exact .inr ⟨n, m, hscan, hall, by omega⟩
      · rw [addSizeT_of_le (by omega)]
        rcases @ih nControlCharacters (nEscapeCharacters + 1) (by omega) (by omega) with hnone |
          ⟨n, m, hscan, hall, hsum⟩
        · exact .inl hnone
        · exact .inr ⟨n, m, hscan, hall, by omega⟩
      · rcases @ih nControlCharacters nEscapeCharacters (by omega) (by omega) with hnone |
          ⟨n, m, hscan, hall, hsum⟩
        · exact .inl hnone
        · exact .inr ⟨n, m, hscan, hall, by omega⟩

end

/-! ## The writes -/

section

variable {h : StringHeap} {s : Ptr} {done text : Bytes} {size : Nat}

theorem setChar_writes (hs : Starts h s done size) (hfit : done.length + 1 ≤ size) (c : UInt8) :
    Meets (setChar s done.length c) h fun _ h' => Replaces h h' s s ∧ Starts h' s (done ++ [c]) size :=
  @Starts.meets_store _ h s done [c] size hs hfit _ fun _ hh hstarts => ⟨hh, hstarts⟩

theorem putAll_writes (hs : Starts h s done size) (hfit : done.length + text.length ≤ size)
    (hsize : size ≤ sizeMax) :
    Meets (putAll s done.length text) h fun pos h' =>
      pos = (done ++ text).length ∧ Replaces h h' s s ∧ Starts h' s (done ++ text) size := by
  induction text generalizing h done with
  | nil =>
    rw [List.append_nil]
    exact meets_pure ⟨rfl, Replaces.refl h s, hs⟩
  | cons c text ih =>
    rw [List.length_cons] at hfit
    rw [putAll]
    apply Meets.bind
    refine (setChar_writes hs (by omega) c).mono ?_
    rintro _ h₁ ⟨hh₁, hs₁⟩
    have hlength : addSizeT done.length 1 = (done ++ [c]).length := by
      rw [List.length_append, addSizeT_of_le (by omega)]
      rfl
    have hfit₁ : (done ++ [c]).length + text.length ≤ size := by
      rw [List.length_append, List.length_singleton]
      omega
    rw [hlength, List.append_cons done c text]
    refine (ih hs₁ hfit₁).mono ?_
    rintro pos h₂ ⟨hpos, hh₂, hs₂⟩
    exact ⟨hpos, hh₁.trans hh₂, hs₂⟩

theorem writeLoop_writes (hs : Starts h s done size) (hfit : done.length + (jsonBody text).length ≤ size)
    (hsize : size ≤ sizeMax) :
    Meets (writeLoop s done.length text) h fun pos h' =>
      pos = (done ++ jsonBody text).length ∧ Replaces h h' s s ∧ Starts h' s (done ++ jsonBody text) size := by
  induction text generalizing h done with
  | nil =>
    rw [jsonBody, List.flatMap_nil, List.append_nil]
    exact meets_pure ⟨rfl, Replaces.refl h s, hs⟩
  | cons c text ih =>
    rw [length_jsonBody_cons] at hfit
    have hbody : jsonBody (c :: text) = jsonChar c ++ jsonBody text := List.flatMap_cons
    rw [writeLoop, hbody, ← List.append_assoc]
    apply Meets.bind
    refine (putAll_writes hs (by omega) hsize).mono ?_
    rintro pos h₁ ⟨rfl, hh₁, hs₁⟩
    refine (ih hs₁ (by rw [List.length_append]; omega)).mono ?_
    rintro pos h₂ ⟨hpos, hh₂, hs₂⟩
    exact ⟨hpos, hh₁.trans hh₂, hs₂⟩

end

/-! ## The new string -/

section

variable {h : StringHeap} {s : StringTag} {text : Bytes}

/-- What is wanted: the text in JSON, if all characters are ASCII. -/
def jsonOf (text : Bytes) : Option Bytes :=
  if text.all (· < 128) then some (jsonText text) else none

theorem jsonOf_ascii (hascii : ∀ c ∈ text, c < 128) : jsonOf text = some (jsonText text) :=
  if_pos (List.all_eq_true.2 fun c hc => decide_eq_true (hascii c hc))

theorem jsonOf_notAscii (hascii : ¬ ∀ c ∈ text, c < 128) : jsonOf text = none :=
  if_neg fun hall => hascii fun c hc => of_decide_eq_true (List.all_eq_true.1 hall c hc)

theorem length_jsonText (text : Bytes) : (jsonText text).length = (jsonBody text).length + 2 := by
  rw [jsonText, List.length_cons, List.length_append]
  rfl

theorem jsonText_writes {p : Ptr} (hp : Starts h p [] ((jsonText text).length + 1))
    (hsize : (jsonText text).length < sizeMax) :
    Meets (do
      setChar p 0 0x22
      let pos ← writeLoop p 1 text
      setChar p pos 0x22
      setChar p (addSizeT pos 1) 0
      pure (some (StringTag.mk p))) h fun result h' =>
        result = some (StringTag.mk p) ∧ Replaces h h' p p ∧
          ∃ rest, h'.cell p = some (terminated (jsonText text) rest) := by
  rw [length_jsonText] at hp hsize
  have hfirst : ([] : Bytes).length + 1 ≤ (jsonBody text).length + 2 + 1 := by
    rw [List.length_nil]
    omega
  have hbody : ([0x22] : Bytes).length + (jsonBody text).length ≤ (jsonBody text).length + 2 + 1 := by
    rw [List.length_singleton]
    omega
  have hdone : ([0x22] ++ jsonBody text : Bytes).length = (jsonBody text).length + 1 := by
    rw [List.singleton_append, List.length_cons]
  have hpos : addSizeT ([0x22] ++ jsonBody text : Bytes).length 1 =
      ([0x22] ++ jsonBody text ++ [0x22] : Bytes).length := by
    rw [@List.length_append _ ([0x22] ++ jsonBody text), hdone, addSizeT_of_le (by omega)]
    rfl
  have hlast : ([0x22] ++ jsonBody text ++ [0x22] : Bytes).length + 1 ≤ (jsonBody text).length + 2 + 1 := by
    rw [@List.length_append _ ([0x22] ++ jsonBody text), hdone]
    exact Nat.le_refl _
  have htext : [0x22] ++ jsonBody text ++ [0x22] ++ [0] = jsonText text ++ [0] := by
    rw [jsonText, List.singleton_append, List.cons_append]
  apply Meets.bind
  refine (setChar_writes hp hfirst 0x22).mono ?_
  rintro _ h₁ ⟨hh₁, hp₁⟩
  apply Meets.bind
  refine (writeLoop_writes hp₁ hbody (by omega)).mono ?_
  rintro _ h₂ ⟨rfl, hh₂, hp₂⟩
  apply Meets.bind
  refine (setChar_writes hp₂ (by rw [List.nil_append, hdone]; omega) 0x22).mono ?_
  rintro _ h₃ ⟨hh₃, hp₃⟩
  rw [List.nil_append] at hp₃
  rw [List.nil_append, hpos]
  apply Meets.bind
  refine (setChar_writes hp₃ hlast 0).mono ?_
  rintro _ h₄ ⟨hh₄, rest, hcell, -⟩
  rw [htext, List.map_append, List.append_assoc] at hcell
  exact meets_pure ⟨rfl, ((hh₁.trans hh₂).trans hh₃).trans hh₄, rest, hcell⟩

theorem stringNewJSON_creates (h : StringHeap) (t : CString)
    (hsize : ∀ json, jsonOf t.text = some json → json.length < sizeMax) :
    Meets (stringNewJSON (some t)) h (Creates view h (jsonOf t.text)) := by
  have hlength : 0 + t.text.length ≤ sizeMax := by
    have hfits := t.fits
    unfold ptrdiffMax at hfits
    unfold sizeMax
    omega
  rw [stringNewJSON]
  rcases scan_eq hlength hlength with ⟨hscan, hnot⟩ | ⟨n, m, hscan, hascii, hsum⟩
  case inl =>
    rw [hscan]
    exact meets_pure (.null (.inl (jsonOf_notAscii hnot)) (Replaces.refl h none))
  case inr =>
    have hjson : jsonOf t.text = some (jsonText t.text) := jsonOf_ascii hascii
    have hjsonSize := hsize _ hjson
    have hallocation : addSizeT (addSizeT (addSizeT t.length (5 * n % (sizeMax + 1))) m) 3 =
        (jsonText t.text).length + 1 := by
      rw [length_jsonText] at hjsonSize ⊢
      have hcontrols : addSizeT t.text.length (5 * n) = t.text.length + 5 * n := addSizeT_of_le (by omega)
      have hescapes : addSizeT (t.text.length + 5 * n) m = t.text.length + 5 * n + m :=
        addSizeT_of_le (by omega)
      rw [CString.length, Nat.mod_eq_of_lt (by omega), hcontrols, hescapes, addSizeT_of_le (by omega)]
      omega
    rw [hscan, hjson]
    dsimp only
    rw [hallocation]
    apply Meets.bind
    apply meets_allocate
    case hno => exact meets_pure .refused
    case hyes =>
      rw [if_pos rfl]
      apply Meets.bind
      apply meets_mallocBlock
      case hno =>
        intro _
        rw [if_pos rfl]
        exact meets_pure .refused_second
      case hyes =>
        intro p h₁ hgrants hh₁ hp
        rw [if_neg (Heap.ne_none_of_cell hp)]
        refine (jsonText_writes (starts_unwritten hp) hjsonSize).mono ?_
        rintro _ h₂ ⟨rfl, hh₂, rest, hcell⟩
        have hh := ((replaces_allocated h none).trans hh₁).trans hh₂
        exact creates_text hh hcell (zero_notMem_jsonText t.noNul) (Heap.le_of_grants hgrants)

end

end SharedUtility.Strings
