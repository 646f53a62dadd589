import SharedUtility.CrtAbstractions.StrToULL

/-!
# BoundedStrings — `strcpy_s`, `strcat_s` and `strncpy_s` of `crt_abstractions.c`

The functions for the compilers that do not bring their own, on the memory that `dst` points to.
A source is a buffer that ends with a NUL: `strlen (src)` is the length of `cString src`.

* `strcpyS`, `strcatS`, `strncpyS` — the code; a store or a read outside of the memory has no result,
* `Destination`, `text` — the string in the first `dstSizeInBytes` bytes,
* `StringCall.abstract` — what the calls do to it, whatever the memory held before,
* `Shows` — memory that stands for a string, with everything behind it as it was,
* `string_run_refines` — any sequence of calls.
-/

namespace SharedUtility.CrtAbstractions

def einval : Int := 22

def struncate : Int := 80

/-- `_TRUNCATE`. -/
def truncateCount : Nat := sizeMax

/-! ## The code -/

/-- The bytes are stored from an offset on. -/
def storeBytes (memory : Bytes) (offset : Nat) (bytes : Bytes) : Option Bytes :=
  if offset + bytes.length ≤ memory.length then
    some (memory.take offset ++ bytes ++ memory.drop (offset + bytes.length))
  else none

/-- `strncpy (&dst[offset], src, n)`: what is left of the `n` bytes is filled with NULs. -/
def strncpy (dst : Bytes) (offset : Nat) (src : Bytes) (n : Nat) : Option Bytes :=
  storeBytes dst offset ((cString src).take n ++ List.replicate (n - (cString src).length) 0)

/-- The `for` loop of `strcat_s` from `i` on, with so many bytes to go. -/
def terminatorFrom (dst : Bytes) (i : Nat) : (room : Nat) → Option Nat
  | 0 => some i
  | room + 1 => do
    let b ← dst[i]?
    if b ≠ 0 then terminatorFrom dst (i + 1) room else some i

def strcpyS (dst : Option Bytes) (dstSizeInBytes : Nat) (src : Option Bytes) : Option (Int × Option Bytes) :=
  match dst, src with
  | none, _ => some (einval, none)
  | some dst, none => do
    let dst ← storeBytes dst 0 [0]
    some (einval, some dst)
  | some dst, some src =>
    if dstSizeInBytes = 0 then do
      let dst ← storeBytes dst 0 [0]
      some (erange, some dst)
    else
      let neededBuffer := (cString src).length
      if neededBuffer + 1 > dstSizeInBytes then do
        let dst ← storeBytes dst 0 [0]
        some (erange, some dst)
      else do
        let dst ← storeBytes dst 0 (cString src ++ [0])
        some (0, some dst)

def strcatS (dst : Option Bytes) (dstSizeInBytes : Nat) (src : Option Bytes) : Option (Int × Option Bytes) :=
  match dst, src with
  | none, _ => some (einval, none)
  | some dst, none => do
    let dst ← storeBytes dst 0 [0]
    some (einval, some dst)
  | some dst, some src =>
    if dstSizeInBytes = 0 then do
      let dst ← storeBytes dst 0 [0]
      some (erange, some dst)
    else do
      let dstStrLen ← terminatorFrom dst 0 dstSizeInBytes
      if dstSizeInBytes = dstStrLen then some (einval, some dst)
      else do
        let dst ← strncpy dst dstStrLen src (dstSizeInBytes - dstStrLen)
        let last ← dst[dstSizeInBytes - 1]?
        if last ≠ 0 then do
          let dst ← storeBytes dst 0 [0]
          some (erange, some dst)
        else some (0, some dst)

def strncpyS (dst : Option Bytes) (dstSizeInBytes : Nat) (src : Option Bytes) (maxCount : Nat) :
    Option (Int × Option Bytes) :=
  match dst, src with
  | none, _ => some (einval, none)
  | some dst, none => do
    let dst ← storeBytes dst 0 [0]
    some (einval, some dst)
  | some dst, some src =>
    if dstSizeInBytes = 0 then some (einval, some dst)
    else if maxCount ≠ truncateCount then
      let srcLength := if (cString src).length > maxCount then maxCount else (cString src).length
      if srcLength + 1 > dstSizeInBytes then do
        let dst ← storeBytes dst 0 [0]
        some (erange, some dst)
      else do
        let dst ← strncpy dst 0 src srcLength
        let dst ← storeBytes dst srcLength [0]
        some (0, some dst)
    else
      -- The length to copy, and the result that `truncationFlag` makes.
      let r :=
        if (cString src).length + 1 > dstSizeInBytes then (dstSizeInBytes - 1, struncate)
        else ((cString src).length, 0)
      do
        let dst ← strncpy dst 0 src r.1
        let dst ← storeBytes dst r.1 [0]
        some (r.2, some dst)

inductive StringCall where
  | strcpy (src : Option Bytes)
  | strcat (src : Option Bytes)
  | strncpy (src : Option Bytes) (maxCount : Nat)

def StringCall.perform (dst : Bytes) (dstSizeInBytes : Nat) : StringCall → Option (Int × Option Bytes)
  | .strcpy src => strcpyS (some dst) dstSizeInBytes src
  | .strcat src => strcatS (some dst) dstSizeInBytes src
  | .strncpy src maxCount => strncpyS (some dst) dstSizeInBytes src maxCount

/-- The calls one after the other: their results, and the memory. -/
def performAll (dstSizeInBytes : Nat) : Bytes → List StringCall → Option (List Int × Bytes)
  | dst, [] => some ([], dst)
  | dst, call :: calls => do
    let r ← call.perform dst dstSizeInBytes
    let dst ← r.2
    let rest ← performAll dstSizeInBytes dst calls
    some (r.1 :: rest.1, rest.2)

/-! ## The bounded string -/

/-- The memory of `dst`, and the size that the callers pass for it. -/
structure Destination where
  memory : Bytes
  dstSizeInBytes : Nat
  pos : 0 < dstSizeInBytes
  fits : dstSizeInBytes ≤ memory.length

/-- The string in the first bytes; none where no NUL ends it. -/
def text (memory : Bytes) (dstSizeInBytes : Nat) : Option Bytes :=
  if (cString (memory.take dstSizeInBytes)).length < dstSizeInBytes then
    some (cString (memory.take dstSizeInBytes))
  else none

/-- A string that would not fit becomes the empty one. -/
def orEmpty (capacity : Nat) (s : Bytes) : Int × Option Bytes :=
  if s.length < capacity then (0, some s) else (erange, some [])

/-- What a call does to a string that must stay shorter than `capacity`. -/
def StringCall.abstract (capacity : Nat) (s : Option Bytes) : StringCall → Int × Option Bytes
  | .strcpy none => (einval, some [])
  | .strcat none => (einval, some [])
  | .strncpy none _ => (einval, some [])
  | .strcpy (some src) => orEmpty capacity (cString src)
  | .strcat (some src) =>
    match s with
    | none => (einval, none)
    | some s => orEmpty capacity (s ++ cString src)
  | .strncpy (some src) maxCount =>
    if maxCount ≠ truncateCount then orEmpty capacity ((cString src).take maxCount)
    else if (cString src).length < capacity then (0, some (cString src))
    else (struncate, some ((cString src).take (capacity - 1)))

def abstractAll (capacity : Nat) : Option Bytes → List StringCall → List Int × Option Bytes
  | s, [] => ([], s)
  | s, call :: calls =>
    let r := call.abstract capacity s
    let rest := abstractAll capacity r.2 calls
    (r.1 :: rest.1, rest.2)

/-- The memory shows the string; its length, and what is behind the size, are as before. -/
structure Shows (d : Destination) (memory : Bytes) (s : Option Bytes) : Prop where
  length : memory.length = d.memory.length
  shown : text memory d.dstSizeInBytes = s
  behind : memory.drop d.dstSizeInBytes = d.memory.drop d.dstSizeInBytes

/-! ## The memory -/

section

variable {memory memory' bytes src s : Bytes} {offset size n : Nat}

theorem notMem_cString (buffer : Bytes) : 0 ∉ cString buffer := by
  intro h
  have hne := List.mem_takeWhile_imp h
  simp at hne

theorem cString_start (buffer : Bytes) : cString buffer <+: buffer :=
  List.takeWhile_prefix _

theorem storeBytes_kept (h : storeBytes memory offset bytes = some memory') (hend : offset + bytes.length ≤ n) :
    memory'.length = memory.length ∧ memory'.drop n = memory.drop n := by
  unfold storeBytes at h
  split_ifs at h with hin
  cases h
  have htake : (memory.take offset).length = offset := List.length_take_of_le (by omega)
  constructor
  · rw [List.length_append, List.length_append, List.length_drop, htake]
    omega
  · have hfront : (memory.take offset ++ bytes).length = offset + bytes.length := by
      rw [List.length_append, htake]
    rw [List.drop_append, hfront, List.drop_of_length_le (by omega), List.nil_append, List.drop_drop]
    congr 1
    omega

theorem text_of_start (hstart : s ++ [0] <+: memory) (hnul : 0 ∉ s) (hlt : s.length < size) :
    text memory size = some s := by
  rcases hstart with ⟨more, rfl⟩
  have hfront : (s ++ [0] ++ more).take size = s ++ 0 :: (more.take (size - (s.length + 1))) := by
    rw [List.take_append, List.length_append, List.length_singleton,
      List.take_of_length_le (by rw [List.length_append, List.length_singleton]; omega), List.append_assoc]
    rfl
  have hstring : cString ((s ++ [0] ++ more).take size) = s := by
    rw [hfront, cString_append hnul]
    exact List.append_nil s
  rw [text, hstring, if_pos hlt]

/-- What `text` finds is in front. -/
theorem text_some (h : text memory size = some s) :
    s = cString (memory.take size) ∧ s.length < size ∧ memory.take s.length = s := by
  unfold text at h
  split_ifs at h with hlt
  cases h
  refine ⟨rfl, hlt, ?_⟩
  have hstart := (cString_start (memory.take size)).trans (List.take_prefix size memory)
  exact (List.prefix_iff_eq_take.1 hstart).symm

theorem text_none (hsize : size ≤ memory.length) (h : text memory size = none) :
    (cString (memory.take size)).length = size := by
  unfold text at h
  split_ifs at h with hlt
  have hle := (cString_start (memory.take size)).length_le
  rw [List.length_take_of_le hsize] at hle
  omega

theorem terminatorFrom_eq (hsize : size ≤ memory.length) :
    ∀ (room i : Nat), i + room = size →
      terminatorFrom memory i room = some (i + (cString ((memory.take size).drop i)).length) := by
  intro room
  induction room with
  | zero =>
    intro i hi
    have hempty : (memory.take size).drop i = [] :=
      List.drop_of_length_le (by rw [List.length_take_of_le hsize]; omega)
    rw [terminatorFrom, hempty]
    rfl
  | succ room ih =>
    intro i hi
    have hlt : i < memory.length := by omega
    have hcons : (memory.take size).drop i = memory[i] :: (memory.take size).drop (i + 1) := by
      rw [List.drop_eq_getElem_cons (by rw [List.length_take_of_le hsize]; omega), List.getElem_take]
    rw [terminatorFrom, List.getElem?_eq_getElem hlt, hcons]
    by_cases hzero : memory[i] = 0
    · simp [hzero, cString]
    · simp only [Option.bind_eq_bind, Option.bind_some, ne_eq, hzero, not_false_eq_true, if_true]
      rw [ih (i + 1) (by omega), cString, cString, List.takeWhile_cons_of_pos (by simpa using hzero),
        List.length_cons]
      congr 1
      omega

end

/-! ## The calls -/

section

variable {d : Destination} {memory memory' bytes src : Bytes} {s : Option Bytes} {offset n : Nat}

theorem Destination.shows (d : Destination) : Shows d d.memory (text d.memory d.dstSizeInBytes) :=
  { length := rfl, shown := rfl, behind := rfl }

theorem Shows.size_le (h : Shows d memory s) : d.dstSizeInBytes ≤ memory.length := by
  rw [h.length]
  exact d.fits

theorem Shows.store (h : Shows d memory s) (offset : Nat) (bytes : Bytes)
    (hin : offset + bytes.length ≤ d.dstSizeInBytes) :
    ∃ memory', storeBytes memory offset bytes = some memory' ∧
      memory' = memory.take offset ++ bytes ++ memory.drop (offset + bytes.length) ∧
      Shows d memory' (text memory' d.dstSizeInBytes) := by
  have hstore : storeBytes memory offset bytes =
      some (memory.take offset ++ bytes ++ memory.drop (offset + bytes.length)) := if_pos (Nat.le_trans hin h.size_le)
  have hkept := storeBytes_kept hstore hin
  exact ⟨_, hstore, rfl,
    { length := hkept.1.trans h.length, shown := rfl, behind := hkept.2.trans h.behind }⟩

theorem Shows.storeString (h : Shows d memory s) (src : Bytes) (hnul : 0 ∉ src)
    (hlt : src.length < d.dstSizeInBytes) :
    ∃ memory', storeBytes memory 0 (src ++ [0]) = some memory' ∧ Shows d memory' (some src) := by
  have hin : 0 + (src ++ [0]).length ≤ d.dstSizeInBytes := by
    rw [List.length_append, List.length_singleton]
    omega
  rcases h.store 0 _ hin with ⟨memory', hstore, hmemory', hshows⟩
  have hstart : src ++ [0] <+: memory' := by
    rw [hmemory', List.take_zero, List.nil_append]
    exact List.prefix_append _ _
  rw [text_of_start hstart hnul hlt] at hshows
  exact ⟨memory', hstore, hshows⟩

/-- `dst[0] = '\x00'`. -/
theorem Shows.clear (h : Shows d memory s) :
    ∃ memory', storeBytes memory 0 [0] = some memory' ∧ Shows d memory' (some []) :=
  h.storeString [] List.not_mem_nil d.pos

/-- `strncpy` of not more than the string has, and the NUL behind it. -/
theorem Shows.storePart (h : Shows d memory s) (src : Bytes) (n : Nat) (hle : n ≤ (cString src).length)
    (hlt : n < d.dstSizeInBytes) :
    ∃ memory₁ memory₂, strncpy memory 0 src n = some memory₁ ∧ storeBytes memory₁ n [0] = some memory₂ ∧
      Shows d memory₂ (some ((cString src).take n)) := by
  have hpad : n - (cString src).length = 0 := Nat.sub_eq_zero_of_le hle
  have hlength : ((cString src).take n).length = n := List.length_take_of_le hle
  have hbytes : (cString src).take n ++ List.replicate (n - (cString src).length) 0 = (cString src).take n := by
    rw [hpad, List.replicate_zero, List.append_nil]
  rcases h.store 0 ((cString src).take n) (by omega) with ⟨memory₁, hfirst, hmemory₁, hshows₁⟩
  rcases hshows₁.store n [0] hlt with ⟨memory₂, hsecond, hmemory₂, hshows₂⟩
  have hfront : memory₁.take n = (cString src).take n := by
    rw [hmemory₁, List.take_zero, List.nil_append]
    exact List.take_left' hlength
  have hstart : (cString src).take n ++ [0] <+: memory₂ := by
    rw [hmemory₂, hfront]
    exact List.prefix_append _ _
  have hnul : 0 ∉ (cString src).take n := fun hmem => notMem_cString src (List.mem_of_mem_take hmem)
  rw [text_of_start hstart hnul (by omega)] at hshows₂
  exact ⟨memory₁, memory₂, by rw [strncpy, hbytes, hfirst], hsecond, hshows₂⟩

/-- The call gives what the bounded string gives. -/
def Answers (d : Destination) (outcome : Option (Int × Option Bytes)) (expected : Int × Option Bytes) : Prop :=
  ∃ memory', outcome = some (expected.1, some memory') ∧ Shows d memory' expected.2

theorem Shows.answers_clear (h : Shows d memory s) (code : Int) :
    Answers d (do
      let dst ← storeBytes memory 0 [0]
      some (code, some dst)) (code, some []) := by
  rcases h.clear with ⟨memory', hclear, hshows⟩
  exact ⟨memory', by rw [hclear]; rfl, hshows⟩

theorem strcpyS_answers (h : Shows d memory s) (src : Option Bytes) :
    Answers d (strcpyS (some memory) d.dstSizeInBytes src) ((StringCall.strcpy src).abstract d.dstSizeInBytes s) := by
  cases src with
  | none => exact h.answers_clear einval
  | some src =>
    simp only [strcpyS, if_neg (Nat.ne_of_gt d.pos), StringCall.abstract, orEmpty]
    by_cases hlt : (cString src).length < d.dstSizeInBytes
    · rw [if_neg (by omega), if_pos hlt]
      rcases h.storeString _ (notMem_cString src) hlt with ⟨memory', hstore, hshows⟩
      exact ⟨memory', by rw [hstore]; rfl, hshows⟩
    · rw [if_pos (by omega), if_neg hlt]
      exact h.answers_clear erange

theorem strncpyS_answers (h : Shows d memory s) (src : Option Bytes) (maxCount : Nat) :
    Answers d (strncpyS (some memory) d.dstSizeInBytes src maxCount)
      ((StringCall.strncpy src maxCount).abstract d.dstSizeInBytes s) := by
  cases src with
  | none => exact h.answers_clear einval
  | some src =>
    simp only [strncpyS, if_neg (Nat.ne_of_gt d.pos), StringCall.abstract]
    by_cases hcount : maxCount ≠ truncateCount
    · rw [if_pos hcount, if_pos hcount, orEmpty, List.length_take]
      have hmin : (if (cString src).length > maxCount then maxCount else (cString src).length) =
          min maxCount (cString src).length := by
        split_ifs
        · omega
        · omega
      rw [hmin]
      by_cases hlt : min maxCount (cString src).length < d.dstSizeInBytes
      · rw [if_neg (by omega), if_pos hlt]
        rcases h.storePart src _ (Nat.min_le_right _ _) hlt with ⟨memory₁, memory₂, hfirst, hsecond, hshows⟩
        rw [← List.take_eq_take_min] at hshows
        refine ⟨memory₂, ?_, hshows⟩
        simp only [hfirst, hsecond, Option.bind_eq_bind, Option.bind_some]
      · rw [if_pos (by omega), if_neg hlt]
        exact h.answers_clear erange
    · rw [if_neg hcount, if_neg hcount]
      by_cases hlt : (cString src).length < d.dstSizeInBytes
      · rw [if_neg (by omega), if_pos hlt]
        rcases h.storePart src _ (Nat.le_refl _) hlt with ⟨memory₁, memory₂, hfirst, hsecond, hshows⟩
        rw [List.take_length] at hshows
        refine ⟨memory₂, ?_, hshows⟩
        simp only [hfirst, hsecond, Option.bind_eq_bind, Option.bind_some]
      · have hpos := d.pos
        rw [if_pos (by omega), if_neg hlt]
        rcases h.storePart src (d.dstSizeInBytes - 1) (by omega) (by omega) with
          ⟨memory₁, memory₂, hfirst, hsecond, hshows⟩
        refine ⟨memory₂, ?_, hshows⟩
        simp only [hfirst, hsecond, Option.bind_eq_bind, Option.bind_some]

/-- The byte that `strcat_s` looks at is the last one that `strncpy` has written. -/
theorem getElem?_last (front : Bytes) (hne : bytes ≠ []) (rest : Bytes) (hn : n = front.length + bytes.length) :
    (front ++ bytes ++ rest)[n - 1]? = bytes.getLast? := by
  have hpos := List.length_pos_of_ne_nil hne
  rw [List.append_assoc, List.getElem?_append_right (by omega), List.getElem?_append_left (by omega),
    List.getLast?_eq_getElem?]
  congr 1
  omega

def padded (src : Bytes) (n : Nat) : Bytes :=
  (cString src).take n ++ List.replicate (n - (cString src).length) 0

theorem length_padded (src : Bytes) (n : Nat) : (padded src n).length = n := by
  rw [padded, List.length_append, List.length_take, List.length_replicate]
  omega

theorem padded_of_le (h : n ≤ (cString src).length) : padded src n = (cString src).take n := by
  rw [padded, Nat.sub_eq_zero_of_le h, List.replicate_zero, List.append_nil]

theorem padded_of_lt (h : (cString src).length < n) :
    padded src n = cString src ++ [0] ++ List.replicate (n - (cString src).length - 1) 0 := by
  have hsome : n - (cString src).length = n - (cString src).length - 1 + 1 := by omega
  rw [padded, List.take_of_length_le (Nat.le_of_lt h), hsome, List.replicate_succ, List.append_assoc]
  rfl

theorem getLast?_padded : (padded src n).getLast? = some 0 ↔ (cString src).length < n := by
  by_cases hlt : (cString src).length < n
  · rw [padded_of_lt hlt, List.getLast?_append, List.getLast?_replicate]
    split_ifs
    · simpa using hlt
    · simpa using hlt
  · rw [padded_of_le (Nat.le_of_not_lt hlt)]
    constructor
    · intro hlast
      exact absurd (List.mem_of_mem_take (List.mem_of_getLast? hlast)) (notMem_cString src)
    · intro hlt'
      exact absurd hlt' hlt

theorem strcatS_answers (h : Shows d memory s) (src : Option Bytes) :
    Answers d (strcatS (some memory) d.dstSizeInBytes src) ((StringCall.strcat src).abstract d.dstSizeInBytes s) := by
  cases src with
  | none => exact h.answers_clear einval
  | some src =>
    have hlength := terminatorFrom_eq h.size_le d.dstSizeInBytes 0 (Nat.zero_add _)
    rw [List.drop_zero, Nat.zero_add] at hlength
    simp only [strcatS, if_neg (Nat.ne_of_gt d.pos), hlength, Option.bind_eq_bind, Option.bind_some]
    cases s with
    | none =>
      -- Without a terminator the memory is left as it is.
      rw [if_pos (text_none h.size_le h.shown).symm]
      exact ⟨memory, rfl, h⟩
    | some s =>
      rcases text_some h.shown with ⟨hs, hlt, htake⟩
      rw [← hs, if_neg (by omega)]
      rw [strncpy, ← padded]
      have hbytes := length_padded src (d.dstSizeInBytes - s.length)
      rcases h.store s.length (padded src (d.dstSizeInBytes - s.length)) (by omega) with
        ⟨memory', hstore, hmemory', hshows⟩
      rw [htake] at hmemory'
      have hne : padded src (d.dstSizeInBytes - s.length) ≠ [] :=
        List.ne_nil_of_length_pos (by omega)
      have hlast : memory'[d.dstSizeInBytes - 1]? = (padded src (d.dstSizeInBytes - s.length)).getLast? := by
        rw [hmemory']
        exact getElem?_last s hne _ (by omega)
      rw [hstore, Option.bind_some, hlast, List.getLast?_eq_some_getLast hne, Option.bind_some]
      by_cases hfits : (cString src).length < d.dstSizeInBytes - s.length
      · -- The NUL of the padding is the last byte: the strings stand one behind the other.
        have hzero := getLast?_padded.2 hfits
        rw [List.getLast?_eq_some_getLast hne, Option.some_inj] at hzero
        have hnul : 0 ∉ s ++ cString src := by
          rw [List.mem_append, not_or]
          exact ⟨hs ▸ notMem_cString _, notMem_cString src⟩
        have hsum : (s ++ cString src).length < d.dstSizeInBytes := by
          rw [List.length_append]
          omega
        have hstart : s ++ cString src ++ [0] <+: memory' := by
          rw [hmemory', padded_of_lt hfits]
          simp only [List.append_assoc, List.prefix_append_right_inj]
          exact List.prefix_append _ _
        rw [text_of_start hstart hnul hsum] at hshows
        rw [hzero, StringCall.abstract, orEmpty, if_pos hsum]
        exact ⟨memory', if_neg (not_not_intro rfl), hshows⟩
      · have hzero := mt getLast?_padded.1 hfits
        rw [List.getLast?_eq_some_getLast hne, Option.some_inj] at hzero
        have hsum : ¬ (s ++ cString src).length < d.dstSizeInBytes := by
          rw [List.length_append]
          omega
        rw [if_pos hzero, StringCall.abstract, orEmpty, if_neg hsum]
        exact hshows.answers_clear erange

theorem call_answers (h : Shows d memory s) (call : StringCall) :
    Answers d (call.perform memory d.dstSizeInBytes) (call.abstract d.dstSizeInBytes s) := by
  cases call with
  | strcpy src => exact strcpyS_answers h src
  | strcat src => exact strcatS_answers h src
  | strncpy src maxCount => exact strncpyS_answers h src maxCount

end

theorem performAll_shows {d : Destination} (calls : List StringCall) :
    ∀ {memory : Bytes} {s : Option Bytes}, Shows d memory s →
      ∃ memory', performAll d.dstSizeInBytes memory calls =
          some ((abstractAll d.dstSizeInBytes s calls).1, memory') ∧
        Shows d memory' (abstractAll d.dstSizeInBytes s calls).2 := by
  induction calls with
  | nil =>
    intro memory s h
    exact ⟨memory, rfl, h⟩
  | cons call calls ih =>
    intro memory s h
    rcases call_answers h call with ⟨memory₁, hcall, hshows₁⟩
    rcases ih hshows₁ with ⟨memory₂, hcalls, hshows₂⟩
    refine ⟨memory₂, ?_, hshows₂⟩
    rw [performAll, hcall, Option.bind_eq_bind, Option.bind_some, Option.bind_eq_bind, Option.bind_some, hcalls]
    rfl

/-- Any sequence of calls gives the results of the bounded string, leaves its text in the memory, and touches no
byte behind the size. -/
theorem string_run_refines (d : Destination) (calls : List StringCall) :
    ∃ memory, performAll d.dstSizeInBytes d.memory calls =
        some ((abstractAll d.dstSizeInBytes (text d.memory d.dstSizeInBytes) calls).1, memory) ∧
      Shows d memory (abstractAll d.dstSizeInBytes (text d.memory d.dstSizeInBytes) calls).2 :=
  performAll_shows calls d.shows

end SharedUtility.CrtAbstractions
