import SharedUtility.Strings.Code

/-!
# Strings.Refinement — a string is a sequence of characters

* `Call.wanted` — what the texts are after a call that does not fail,
* `Call.Separate` — no string is concatenated to itself; `memcpy` would then copy the NUL it has just
  written over,
* `string_refines_text` — every run of such calls does what is wanted or changes nothing, and any
  other call is undefined.
-/

namespace SharedUtility.Strings

open Memory

/-! ## What is wanted -/

/-- The characters that a source has. -/
def Source.characters (contents : List Bytes) : Source → Option Bytes
  | .null => none
  | .text t => some t.text
  | .string handle => contents[handle]?

/-- What the texts are after a call that succeeds; `none` where the call must fail. -/
def Call.wanted (contents : List Bytes) : Call → Option (List Bytes)
  | .stringNew => some (contents ++ [[]])
  | .stringClone i => contents[i]?.map fun text => contents ++ [text]
  | .stringConstruct psz => (psz.map CString.text).map fun text => contents ++ [text]
  | .stringConstructN psz n =>
    (psz.bind fun t => if n > t.length then none else some (t.text.take n)).map fun text =>
      contents ++ [text]
  | .stringConcat i s2 => s2.bind fun t => onContent contents i fun text => some (text ++ t.text)
  | .stringConcatWithString i j =>
    contents[j]?.bind fun text2 => onContent contents i fun text1 => some (text1 ++ text2)
  | .stringCopy i s2 => (s2.characters contents).bind fun text => onContent contents i fun _ => some text
  | .stringCopyN i s2 n => s2.bind fun t => onContent contents i fun _ => some (t.text.take n)
  | .stringQuote i =>
    onContent contents i fun text => some (quotationMark :: (text ++ [quotationMark]))
  | .stringEmpty i => onContent contents i fun _ => some []
  | .stringReplace i target replace =>
    onContent contents i fun text =>
      some (text.map fun c => if c = target then replace else c)
  | .stringLength _ => some contents
  | .stringCompare _ _ => some contents

/-- No character is replaced by a NUL. -/
def Call.Proper : Call → Prop
  | .stringReplace _ _ replace => replace ≠ 0
  | _ => True

/-- A string is concatenated to itself only if there is no memory for it. -/
def Call.Separate (contents : List Bytes) (h : StringHeap) : Call → Prop
  | .stringConcatWithString i j =>
    i = j → ∀ text, contents[i]? = some text →
      h.grants ptrdiffMax (text.length + text.length + 1) = false
  | _ => True

/-! ## What a string stands for -/

/-- The characters, the NUL behind them and the rest of the block. -/
def terminated (text : Bytes) (rest : Region UInt8) : Region UInt8 :=
  text.map some ++ some 0 :: rest

structure Holds (h : StringHeap) (s : StringTag) (text : Bytes) : Prop where
  cell : ∃ rest, h.cell s.s = some (terminated text rest)
  noNul : 0 ∉ text
  fits : text.length < ptrdiffMax

def view : View (Region UInt8) StringTag Bytes where
  place s := s.s
  Holds := Holds
  frame := by
    intro h h' s text hs hkept
    obtain ⟨rest, hcell⟩ := hs.cell
    exact ⟨⟨rest, hkept _ hcell⟩, hs.noNul, hs.fits⟩
  live := by
    intro h s text hs _
    obtain ⟨rest, hcell⟩ := hs.cell
    exact ⟨_, hcell⟩

/-- How two strings compare, each of which may be NULL. -/
def ComparesTo : Option Bytes → Option Bytes → Int → Prop
  | none, none, n => n = 0
  | none, some _, n => n = 1
  | some _, none, n => n = -1
  | some text1, some text2, n => (n = 0 ↔ text1 = text2) ∧ (n < 0 ↔ text1 < text2)

/-- What the answer to a call tells is so. -/
def Answer.Tells (contents : List Bytes) : Call → Answer → Prop
  | .stringLength i, .length n => n = (contents[i]?.getD []).length
  | .stringCompare i j, .order n => ComparesTo contents[i]? contents[j]? n
  | _, .handle (some place) => place + 1 = contents.length
  | _, _ => True

/-- The call does what is wanted, or reports a failure and changes nothing. -/
def Agrees (c : Call) (contents : List Bytes) (h : StringHeap) (answer : Answer)
    (contents' : List Bytes) (h' : StringHeap) : Prop :=
  Settles (c.wanted contents) contents (h.failures < h'.failures) answer.succeeds contents' ∧
    answer.Tells contents' c

/-! ## Reading a string -/

section

variable {h : StringHeap} {s s1 s2 : StringTag} {text text1 text2 : Bytes} {rest : Region UInt8}

theorem length_terminated (text : Bytes) (rest : Region UInt8) :
    (terminated text rest).length = text.length + 1 + rest.length := by
  simp only [terminated, List.length_append, List.length_map, List.length_cons]
  omega

theorem take_terminated {n : Nat} (hn : n ≤ text.length) :
    (terminated text rest).take n = (text.take n).map some := by
  rw [terminated, List.take_append_of_le_length (by rwa [List.length_map]), List.map_take]

theorem take_terminated_all :
    (terminated text rest).take (text.length + 1) = terminated text [] := by
  have hsplit : terminated text rest = terminated text [] ++ rest := by
    simp [terminated]
  rw [hsplit, List.take_left' (by simp [length_terminated])]

theorem terminator_terminated (hnul : 0 ∉ text) : terminator (terminated text rest) = some text.length
    := by
  induction text with
  | nil => rfl
  | cons c text ih =>
    rw [List.mem_cons, not_or] at hnul
    change (if c = 0 then some 0 else (terminator (terminated text rest)).map (· + 1)) = _
    rw [if_neg (Ne.symm hnul.1), ih hnul.2]
    rfl

theorem meets_strlen (hs : Holds h s text) {Q : Nat → StringHeap → Prop}
    (hQ : Q text.length h) : Meets (strlen s.s) h Q := by
  obtain ⟨rest, hcell⟩ := hs.cell
  apply Meets.bind
  apply meets_read hcell
  rw [terminator_terminated hs.noNul]
  exact meets_pure hQ

theorem toNat_pos {c : UInt8} (hc : ¬ 0 = c) : 0 < c.toNat := by
  rw [Nat.pos_iff_ne_zero]
  intro hzero
  exact hc (UInt8.toNat_inj.mp hzero.symm)

theorem compareBlocks_terminated {rest1 rest2 : Region UInt8} (hnul1 : 0 ∉ text1)
    (hnul2 : 0 ∉ text2) :
    ∃ n, compareBlocks (terminated text1 rest1) (terminated text2 rest2) = some n ∧
      (n = 0 ↔ text1 = text2) ∧ (n < 0 ↔ text1 < text2) := by
  induction text1 generalizing text2 with
  | nil =>
    cases text2 with
    | nil => exact ⟨0, rfl, by simp, by simp⟩
    | cons b text2 =>
      rw [List.mem_cons, not_or] at hnul2
      have hb := toNat_pos hnul2.1
      refine ⟨((0 : UInt8).toNat : Int) - b.toNat, if_pos hnul2.1, ?_, ?_⟩
      · simp only [UInt8.toNat_zero, reduceCtorEq, iff_false]
        omega
      · simp only [UInt8.toNat_zero, List.nil_lt_cons, iff_true]
        omega
  | cons a text1 ih =>
    rw [List.mem_cons, not_or] at hnul1
    cases text2 with
    | nil =>
      have ha := toNat_pos hnul1.1
      refine ⟨(a.toNat : Int) - (0 : UInt8).toNat, if_pos (Ne.symm hnul1.1), ?_, ?_⟩
      · simp only [UInt8.toNat_zero, reduceCtorEq, iff_false]
        omega
      · simp only [UInt8.toNat_zero, List.not_lt_nil, iff_false]
        omega
    | cons b text2 =>
      rw [List.mem_cons, not_or] at hnul2
      by_cases hab : a = b
      · subst hab
        obtain ⟨n, hn, heq, hlt⟩ := ih hnul1.2 hnul2.2
        refine ⟨n, ?_, ?_, ?_⟩
        · change (if a ≠ a then _ else if a = 0 then some 0 else
            compareBlocks (terminated text1 rest1) (terminated text2 rest2)) = some n
          rw [if_neg (by simp), if_neg (Ne.symm hnul1.1), hn]
        · rw [heq, List.cons.injEq]
          simp
        · rw [hlt, List.cons_lt_cons_iff]
          simp
      · have hne : a.toNat ≠ b.toNat := fun heq => hab (UInt8.toNat_inj.mp heq)
        refine ⟨(a.toNat : Int) - b.toNat, if_pos hab, ?_, ?_⟩
        · rw [List.cons.injEq]
          simp only [hab, false_and, iff_false]
          omega
        · rw [List.cons_lt_cons_iff, UInt8.lt_iff_toNat_lt]
          simp only [hab, false_and, or_false]
          omega

theorem meets_strcmp (hs1 : Holds h s1 text1) (hs2 : Holds h s2 text2) {Q : Int → StringHeap → Prop}
    (hQ : ∀ n, (n = 0 ↔ text1 = text2) → (n < 0 ↔ text1 < text2) → Q n h) :
    Meets (strcmp s1.s s2.s) h Q := by
  obtain ⟨rest1, hcell1⟩ := hs1.cell
  obtain ⟨rest2, hcell2⟩ := hs2.cell
  obtain ⟨n, hn, heq, hlt⟩ := compareBlocks_terminated hs1.noNul hs2.noNul
  apply Meets.bind
  apply meets_read hcell1
  apply Meets.bind
  apply meets_read hcell2
  rw [hn]
  exact meets_pure (hQ n heq hlt)

end

/-! ## Writing a string -/

section

variable {h h' h₁ : StringHeap} {s s1 s2 : StringTag} {text text1 text2 : Bytes}
  {rest block : Region UInt8}

theorem CString.map_bytes (t : CString) : t.bytes.map some = terminated t.text [] := by
  rw [bytes, List.map_append]
  rfl

theorem CString.length_bytes (t : CString) : t.bytes.length = t.text.length + 1 := by
  rw [bytes, List.length_append]
  rfl

theorem meets_copyString {p : Ptr} {offset : Nat} (t : CString) (hp : h.cell p = some block)
    (hfit : offset + (t.text.length + 1) ≤ block.length) {Q : Unit → StringHeap → Prop}
    (hQ : ∀ h', Replaces h h' p p →
      h'.cell p = some (overwritten block offset (terminated t.text [])) → Q () h') :
    Meets (copyIn p offset t.bytes (t.text.length + 1)) h Q := by
  apply meets_copyIn hp (Nat.le_of_eq t.length_bytes.symm) hfit
  have hall : t.bytes.take (t.text.length + 1) = t.bytes :=
    List.take_of_length_le (Nat.le_of_eq t.length_bytes)
  rwa [hall, t.map_bytes]

theorem overwritten_terminated (hlength : block.length = text1.length + (text2.length + 1))
    (hstart : block.take text1.length = text1.map some) :
    overwritten block text1.length (terminated text2 []) = terminated (text1 ++ text2) [] := by
  rw [overwritten_rest (by rw [hlength, length_terminated]; rfl), hstart]
  simp [terminated]

theorem overwritten_text {n : Nat} (hlength : text.length = n) (block : Region UInt8) :
    overwritten (overwritten block 0 (text.map some)) n [some 0] =
      terminated text (block.drop (n + 1)) := by
  subst hlength
  have htwice : overwritten (overwritten block 0 (text.map some)) (0 + (text.map some).length)
      [some 0] = overwritten block 0 (text.map some ++ [some 0]) := overwritten_twice (Nat.zero_le _)
  rw [Nat.zero_add, List.length_map] at htwice
  rw [htwice, overwritten, List.take_zero, List.nil_append, Nat.zero_add, List.length_append,
    List.length_map, terminated, List.append_assoc]
  rfl

theorem meets_setChar {p : Ptr} {index : Nat} {xs zs : Region UInt8} {a : Option UInt8} {c : UInt8}
    (hp : h.cell p = some (xs ++ [a] ++ zs)) (hindex : index = xs.length)
    {Q : Unit → StringHeap → Prop}
    (hQ : ∀ h', Replaces h h' p p → h'.cell p = some (xs ++ [some c] ++ zs) → Q () h') :
    Meets (setChar p index c) h Q := by
  subst hindex
  apply meets_store hp
  · rw [List.length_append, List.length_append]
    exact Nat.le_add_right _ _
  · have hwritten : overwritten (xs ++ [a] ++ zs) xs.length [some c] = xs ++ [some c] ++ zs :=
      overwritten_between rfl
    rwa [hwritten]

theorem addSizeT_length (hfits : text.length < ptrdiffMax) {n : Nat} (hn : n ≤ 2) :
    addSizeT text.length n = text.length + n :=
  addSizeT_of_le (by unfold ptrdiffMax at hfits; unfold sizeMax; omega)

/-- The length of two strings and a NUL does not wrap, since no string is longer than half of the
address space. -/
theorem addSizeT_lengths (hfits1 : text1.length < ptrdiffMax) (hfits2 : text2.length < ptrdiffMax) :
    addSizeT (addSizeT text1.length text2.length) 1 = text1.length + (text2.length + 1) := by
  unfold ptrdiffMax at hfits1 hfits2
  rw [addSizeT_of_le (a := text1.length) (by unfold sizeMax; omega),
    addSizeT_of_le (by unfold sizeMax; omega), Nat.add_assoc]

/-- The block of a string is given another size; the function fails when there is no memory for it. -/
theorem meets_reallocString (hs : Holds h s text) {size : Nat} {wanted : Option Bytes}
    {next : Ptr → StringM (Int × Option StringTag)}
    (hnext : ∀ temp h₁ block, size ≤ ptrdiffMax → Replaces h h₁ s.s temp →
      h₁.cell temp = some block → block.length = size →
      (text.length ≤ size → block.take text.length = text.map some) →
        Meets (next temp) h₁ (Does view h s text wanted)) :
    Meets (do
      let temp ← reallocBlock ptrdiffMax s.s size
      if temp = none then pure (failure, some s) else next temp) h
      (Does view h s text wanted) := by
  obtain ⟨rest, hcell⟩ := hs.cell
  apply Meets.bind
  apply meets_reallocBlock (.inr hcell)
  case hno =>
    intro _
    exact meets_pure (.refused failure_ne_zero hs)
  case hyes =>
    intro temp h₁ hgrants hh htemp
    rw [if_neg (Heap.ne_none_of_cell htemp)]
    apply hnext temp h₁ _ (Heap.le_of_grants hgrants) hh htemp (length_resized _ _)
    intro hle
    rw [take_resized hle (by rw [length_terminated]; omega), take_terminated (Nat.le_refl _),
      List.take_length]

/-- The function has left `text2`. -/
theorem does_text (rest : Region UInt8) (hh : Replaces h h' s1.s s2.s)
    (hcell : h'.cell s2.s = some (terminated text2 rest)) (hnul : 0 ∉ text2) (hfits : text2.length < ptrdiffMax) :
    Does view h s1 text1 (some text2) (0, some s2) h' :=
  .done rfl hh ⟨⟨rest, hcell⟩, hnul, hfits⟩

theorem notMem_append {text1 text2 : Bytes} (hnul1 : 0 ∉ text1) (hnul2 : 0 ∉ text2) :
    0 ∉ text1 ++ text2 := by
  rw [List.mem_append, not_or]
  exact ⟨hnul1, hnul2⟩

theorem stringConcat_does (hs : Holds h s text) (t : CString) :
    Meets (stringConcat (some s) (some t)) h (Does view h s text (some (text ++ t.text))) := by
  simp only [stringConcat, CString.length]
  apply Meets.bind
  apply meets_strlen hs
  rw [addSizeT_lengths hs.fits t.fits, addSizeT_length t.fits (by omega)]
  apply meets_reallocString hs
  intro temp h₁ block hsize hh htemp hlength hstart
  apply Meets.bind
  apply meets_copyString t htemp (Nat.le_of_eq hlength.symm)
  intro h₂ hh₂ htemp₂
  rw [overwritten_terminated hlength (hstart (by omega))] at htemp₂
  apply meets_pure
  apply does_text _ (hh.trans hh₂) htemp₂ (notMem_append hs.noNul t.noNul)
  rw [List.length_append]
  omega

theorem stringConcatWithString_does (hs1 : Holds h s1 text1) (hs2 : Holds h s2 text2)
    (hapart : s2.s ≠ s1.s) :
    Meets (stringConcatWithString (some s1) (some s2) false) h
      (Does view h s1 text1 (some (text1 ++ text2))) := by
  obtain ⟨rest, hcell2⟩ := hs2.cell
  simp only [stringConcatWithString, Bool.false_eq_true, if_false]
  apply Meets.bind
  apply meets_strlen hs1
  apply Meets.bind
  apply meets_strlen hs2
  rw [addSizeT_lengths hs1.fits hs2.fits, addSizeT_length hs2.fits (by omega)]
  apply meets_reallocString hs1
  intro temp h₁ block hsize hh htemp hlength hstart
  have hne := hh.place_ne (Heap.ne_none_of_cell htemp) hcell2 hapart
  apply Meets.bind
  apply meets_memcpy hne htemp (hh.others _ _ hapart hcell2) (Nat.le_of_eq hlength.symm)
    (by rw [length_terminated]; omega)
  intro h₂ hh₂ htemp₂
  rw [List.drop_zero, take_terminated_all, overwritten_terminated hlength (hstart (by omega))]
    at htemp₂
  apply meets_pure
  apply does_text _ (hh.trans hh₂) htemp₂ (notMem_append hs1.noNul hs2.noNul)
  rw [List.length_append]
  omega

theorem stringConcatWithString_self_refused (hs : Holds h s text)
    (hgrants : h.grants ptrdiffMax (text.length + text.length + 1) = false) :
    Meets (stringConcatWithString (some s) (some s) true) h
      (Does view h s text (some (text ++ text))) := by
  obtain ⟨rest, hcell⟩ := hs.cell
  simp only [stringConcatWithString]
  apply Meets.bind
  apply meets_strlen hs
  apply Meets.bind
  apply meets_strlen hs
  rw [addSizeT_lengths hs.fits hs.fits]
  apply Meets.bind
  apply meets_reallocBlock (.inr hcell)
  · intro temp h₁ hyes
    rw [← Nat.add_assoc, hgrants] at hyes
    cases hyes
  · intro _
    exact meets_pure (.refused failure_ne_zero hs)

theorem stringConcatWithString_self_undefined (hs : Holds h s text)
    (hgrants : h.grants ptrdiffMax (text.length + text.length + 1) = true) :
    stringConcatWithString (some s) (some s) true h = none := by
  obtain ⟨rest, hcell⟩ := hs.cell
  have hstrlen : strlen s.s h = some (text.length, h) := by
    obtain ⟨n, h', heq, rfl, rfl⟩ :=
      meets_strlen (Q := fun n h' => n = text.length ∧ h' = h) hs ⟨rfl, rfl⟩
    exact heq
  rw [Nat.add_assoc, ← addSizeT_lengths hs.fits hs.fits] at hgrants
  have hmoved : Meets (reallocBlock ptrdiffMax s.s
      (addSizeT (addSizeT text.length text.length) 1)) h fun temp _ => temp ≠ none := by
    apply meets_reallocBlock (.inr hcell)
    · intro temp h₁ _ _ htemp
      exact Heap.ne_none_of_cell htemp
    · intro hno
      rw [hgrants] at hno
      cases hno
  obtain ⟨temp, h₁, hrealloc, hne⟩ := hmoved
  have hoverlap : memcpy temp text.length temp 0 (addSizeT text.length 1) =
      (undefined : StringM Unit) := by
    rw [addSizeT_length hs.fits (by omega), memcpy, if_neg (Nat.succ_ne_zero _),
      if_pos ⟨rfl, by omega, by omega⟩]
  simp only [stringConcatWithString, ↓reduceIte]
  rw [bind_eq_of_eq hstrlen, bind_eq_of_eq hstrlen, bind_eq_of_eq hrealloc, if_neg hne, hoverlap]
  rfl

theorem stringCopy_text_does (hs : Holds h s text) (t : CString) :
    Meets (stringCopy (some s) (some (.text t))) h (Does view h s text (some t.text)) := by
  simp only [stringCopy, CString.length]
  rw [addSizeT_length t.fits (by omega)]
  apply meets_reallocString hs
  intro temp h₁ block hsize hh htemp hlength _
  apply Meets.bind
  apply meets_copyString t htemp (by omega)
  intro h₂ hh₂ htemp₂
  rw [overwritten_all (by rw [hlength, length_terminated]; rfl)] at htemp₂
  exact meets_pure (does_text _ (hh.trans hh₂) htemp₂ t.noNul t.fits)

theorem stringCopy_content_does (hs1 : Holds h s1 text1) (hs2 : Holds h s2 text2)
    (hapart : s2.s = s1.s → text1 = text2) :
    Meets (stringCopy (some s1) (some (.content s2.s))) h (Does view h s1 text1 (some text2)) := by
  obtain ⟨rest, hcell2⟩ := hs2.cell
  simp only [stringCopy]
  split
  case isTrue hne =>
    apply Meets.bind
    apply meets_strlen hs2
    rw [addSizeT_length hs2.fits (by omega)]
    apply meets_reallocString hs1
    intro temp h₁ block hsize hh htemp hlength _
    apply Meets.bind
    apply meets_memmove htemp (hh.others _ _ (Ne.symm hne) hcell2) (by omega)
      (by rw [length_terminated]; omega)
    intro h₂ hh₂ htemp₂
    rw [List.drop_zero, take_terminated_all, overwritten_all (by rw [hlength, length_terminated]; rfl)]
      at htemp₂
    exact meets_pure (does_text _ (hh.trans hh₂) htemp₂ hs2.noNul hs2.fits)
  case isFalse heq =>
    rw [ne_eq, not_not] at heq
    apply meets_pure
    exact .done (congrArg some (hapart heq.symm).symm) (Replaces.refl h _) hs1

theorem stringCopyN_does (hs : Holds h s text) (t : CString) (n : Nat) :
    Meets (stringCopyN (some s) (some t) n) h (Does view h s text (some (t.text.take n))) := by
  have hn : (if t.length > n then n else t.length) = (t.text.take n).length := by
    rw [List.length_take]
    change (if n < t.text.length then n else t.text.length) = _
    split
    · omega
    · omega
  have hfits : (t.text.take n).length < ptrdiffMax :=
    Nat.lt_of_le_of_lt (by rw [List.length_take]; omega) t.fits
  simp only [stringCopyN]
  rw [hn, addSizeT_length hfits (by omega)]
  apply meets_reallocString hs
  intro temp h₁ block hsize hh htemp hlength _
  apply Meets.bind
  apply meets_copyIn htemp (by rw [t.length_bytes, List.length_take]; omega) (by omega)
  intro h₂ hh₂ htemp₂
  have htext : t.bytes.take (t.text.take n).length = t.text.take n := by
    rw [CString.bytes, List.length_take, List.take_append_of_le_length (Nat.min_le_right ..),
      ← List.take_take, List.take_length]
  rw [htext] at htemp₂
  apply Meets.bind
  apply meets_store htemp₂
    (by rw [length_overwritten (by rw [List.length_map]; omega), hlength]; exact Nat.le_refl _)
  intro h₃ hh₃ htemp₃
  rw [overwritten_text rfl] at htemp₃
  apply meets_pure
  apply does_text _ ((hh.trans hh₂).trans hh₃) htemp₃ _ hfits
  intro hmem
  exact t.noNul (List.mem_of_mem_take hmem)

theorem exists_places {n : Nat} (hlength : block.length = n + 2 + 1) :
    ∃ a places y z, block = [a] ++ places ++ [y, z] ∧ places.length = n := by
  obtain ⟨a, block', rfl⟩ := List.exists_cons_of_length_eq_add_one hlength
  rw [List.length_cons] at hlength
  have hrest : (block'.drop n).length = 2 := by
    rw [List.length_drop]
    omega
  obtain ⟨y, z, hyz⟩ := List.length_eq_two.mp hrest
  refine ⟨a, block'.take n, y, z, ?_, ?_⟩
  · rw [← hyz, List.append_assoc, List.take_append_drop]
    rfl
  · rw [List.length_take]
    omega

theorem stringQuote_does (hs : Holds h s text) :
    Meets (stringQuote (some s)) h
      (Does view h s text (some (quotationMark :: (text ++ [quotationMark])))) := by
  simp only [stringQuote]
  apply Meets.bind
  apply meets_strlen hs
  rw [addSizeT_length hs.fits (by omega), addSizeT_length hs.fits (by omega),
    addSizeT_of_le (a := text.length + 2) (by have := hs.fits; unfold ptrdiffMax at this
                                              unfold sizeMax; omega)]
  apply meets_reallocString hs
  intro temp h₁ block hsize hh htemp hlength hstart
  have htext := hstart (by omega)
  -- One place for the first quotation mark, the text's places, two for the other one and the NUL.
  obtain ⟨a, places, y, z, rfl, hplaces⟩ : ∃ a places y z,
      block = [a] ++ places ++ [y, z] ∧ places.length = (text.map some).length := by
    rw [List.length_map]
    exact exists_places hlength
  apply Meets.bind
  apply meets_memmove htemp htemp (by omega) (by omega)
  intro h₂ hh₂ htemp₂
  have hmoved : overwritten ([a] ++ places ++ [y, z]) 1 (text.map some) =
      [] ++ [a] ++ (text.map some ++ [y, z]) := overwritten_between hplaces
  rw [List.drop_zero, htext, hmoved] at htemp₂
  apply Meets.bind
  apply meets_setChar htemp₂ rfl
  intro h₃ hh₃ htemp₃
  have hopened : [] ++ [some quotationMark] ++ (text.map some ++ [y, z]) =
      (quotationMark :: text).map some ++ [y] ++ [z] := by simp
  rw [hopened] at htemp₃
  apply Meets.bind
  apply meets_setChar htemp₃ (by simp)
  intro h₄ hh₄ htemp₄
  have hclosed : (quotationMark :: text).map some ++ [some quotationMark] ++ [z] =
      (quotationMark :: (text ++ [quotationMark])).map some ++ [z] ++ [] := by simp
  rw [hclosed] at htemp₄
  apply Meets.bind
  apply meets_setChar htemp₄ (by simp)
  intro h₅ hh₅ htemp₅
  apply meets_pure
  apply does_text [] ((((hh.trans hh₂).trans hh₃).trans hh₄).trans hh₅)
  · rw [htemp₅, List.append_assoc]
    rfl
  · simp [hs.noNul, quotationMark]
  · simp only [List.length_cons, List.length_append, List.length_nil]
    omega

theorem replaceLoop_meets {target replace : UInt8} (todo done : Bytes) {p : Ptr}
    (hp : h.cell p = some (terminated (done ++ todo) rest)) :
    Meets (replaceLoop p target replace done.length todo.length) h fun _ h' =>
      Replaces h h' p p ∧ h'.cell p = some
        (terminated (done ++ todo.map fun c => if c = target then replace else c) rest) := by
  induction todo generalizing h done with
  | nil => exact meets_pure ⟨Replaces.refl h p, hp⟩
  | cons c todo ih =>
    have hsplit : terminated (done ++ c :: todo) rest =
        done.map some ++ [some c] ++ terminated todo rest := by simp [terminated]
    have hload : Meets (charAt p done.length) h fun r h' => r = c ∧ h' = h := by
      apply Meets.bind
      apply meets_load hp (by rw [hsplit]; simp)
      rw [hsplit, List.append_assoc, List.drop_left' (List.length_map some)]
      exact meets_pure ⟨rfl, rfl⟩
    -- What is left after this round.
    have hnext : ∀ c' h', Replaces h h' p p →
        h'.cell p = some (done.map some ++ [some c'] ++ terminated todo rest) →
        c' = (if c = target then replace else c) →
        Meets (replaceLoop p target replace (done.length + 1) todo.length) h' fun _ h'' =>
          Replaces h h'' p p ∧ h''.cell p = some (terminated (done ++
            (c :: todo).map fun c => if c = target then replace else c) rest) := by
      rintro c' h' hh hcell rfl
      have hdone : done.map some ++ [some (if c = target then replace else c)] ++
          terminated todo rest =
          terminated ((done ++ [if c = target then replace else c]) ++ todo) rest := by
        simp [terminated]
      rw [hdone] at hcell
      have hih := ih _ hcell
      rw [List.length_append, List.length_singleton] at hih
      apply hih.mono
      rintro _ h'' ⟨hh', hcell'⟩
      refine ⟨hh.trans hh', ?_⟩
      rw [hcell']
      simp
    rw [List.length_cons, replaceLoop]
    apply Meets.bind
    apply hload.mono
    rintro _ _ ⟨rfl, rfl⟩
    rw [hsplit] at hp
    split
    case isTrue heq =>
      apply Meets.bind
      apply meets_setChar hp (List.length_map some).symm
      intro h' hh hcell
      exact hnext _ h' hh hcell (if_pos heq).symm
    case isFalse hne => exact hnext _ _ (Replaces.refl _ p) hp (if_neg hne).symm

theorem stringReplace_does (hs : Holds h s text) (target : UInt8) {replace : UInt8}
    (hreplace : replace ≠ 0) :
    Meets (stringReplace (some s) target replace) h
      (Does view h s text (some (text.map fun c => if c = target then replace else c))) := by
  obtain ⟨rest, hcell⟩ := hs.cell
  simp only [stringReplace]
  split
  case isTrue heq =>
    have hsame : (text.map fun c => if c = target then replace else c) = text := by
      apply List.map_id''
      intro c
      split
      case isTrue hc => rw [hc, heq]
      case isFalse => rfl
    rw [hsame]
    exact meets_pure (.done rfl (Replaces.refl h _) hs)
  case isFalse =>
    apply Meets.bind
    apply meets_strlen hs
    apply Meets.bind
    apply (replaceLoop_meets text [] hcell).mono
    rintro _ h' ⟨hh, hcell'⟩
    apply meets_pure
    apply does_text _ hh hcell'
    · rw [List.nil_append, List.mem_map]
      rintro ⟨c, hc, hzero⟩
      split at hzero
      case isTrue => exact hreplace hzero
      case isFalse => exact hs.noNul (hzero ▸ hc)
    · rw [List.nil_append, List.length_map]
      exact hs.fits

theorem stringEmpty_does (hs : Holds h s text) :
    Meets (stringEmpty (some s)) h (Does view h s text (some [])) := by
  simp only [stringEmpty]
  apply meets_reallocString hs
  intro temp h₁ block hsize hh htemp hlength _
  apply Meets.bind
  apply meets_store htemp (by rw [hlength]; exact Nat.le_refl _)
  intro h₂ hh₂ htemp₂
  rw [overwritten_all (by rw [hlength]; rfl)] at htemp₂
  exact meets_pure (does_text [] (hh.trans hh₂) htemp₂ List.not_mem_nil (by decide))

end

/-! ## Making a string -/

section

variable {h : StringHeap} {s : StringTag} {text : Bytes}

theorem meets_mallocString {size : Nat} {wanted : Option Bytes} {h₁ : StringHeap}
    {next : Ptr → StringM (Option StringTag)} (hh₁ : Replaces h h₁ none none)
    (hnext : ∀ p h₂, Replaces h h₂ none p → Replaces h₁ h₂ none p →
      h₂.cell p = some (unwritten size) → Meets (next p) h₂ (Creates view h wanted)) :
    Meets (do
      let p ← mallocBlock ptrdiffMax size
      if p = none then pure none else next p) h₁ (Creates view h wanted) := by
  apply Meets.bind
  apply meets_mallocBlock
  · intro p h₂ _ hh₂ hp
    rw [if_neg (Heap.ne_none_of_cell hp)]
    exact hnext p h₂ (hh₁.trans hh₂) hh₂ hp
  · intro _
    rw [if_pos rfl]
    exact meets_pure (.null (.inr (Nat.lt_succ_of_le hh₁.failures))
      (hh₁.trans (replaces_refused h₁ none)))

theorem creates_text {p : Ptr} {rest : Region UInt8} {h' : StringHeap} (hh : Replaces h h' none p)
    (hp : h'.cell p = some (terminated text rest)) (hnul : 0 ∉ text)
    (hfits : text.length < ptrdiffMax) : Creates view h (some text) (some ⟨p⟩) h' :=
  .new rfl hh ⟨⟨rest, hp⟩, hnul, hfits⟩

theorem stringNew_creates (h : StringHeap) : Meets stringNew h (Creates view h (some [])) := by
  simp only [stringNew, ne_eq, ite_not]
  apply Meets.bind
  apply meets_allocate
  case hno => exact meets_pure .refused
  case hyes =>
    rw [if_pos rfl]
    apply meets_mallocString (replaces_allocated h none)
    intro p h₂ hh _ hp
    apply Meets.bind
    apply meets_store hp (by simp)
    intro h₃ hh₃ hp₃
    rw [overwritten_all (by simp)] at hp₃
    exact meets_pure (creates_text (hh.trans hh₃) hp₃ List.not_mem_nil (by decide))

theorem stringClone_creates (hs : Holds h s text) :
    Meets (stringClone (some s)) h (Creates view h (some text)) := by
  obtain ⟨rest, hcell⟩ := hs.cell
  simp only [stringClone]
  apply Meets.bind
  apply meets_allocate
  case hno => exact meets_pure .refused
  case hyes =>
    rw [if_pos rfl]
    have hs₁ : Holds h.allocated s text := ⟨⟨rest, hcell⟩, hs.noNul, hs.fits⟩
    apply Meets.bind
    apply meets_strlen hs₁
    rw [addSizeT_length hs.fits (by omega)]
    apply meets_mallocString (replaces_allocated h none)
    intro p h₂ hh hh₂ hp
    have hsource := Heap.ne_none_of_cell hcell
    apply Meets.bind
    apply meets_memcpy (hh.place_ne (Heap.ne_none_of_cell hp) hcell hsource) hp
      (hh.others _ _ hsource hcell) (by simp) (by rw [length_terminated]; omega)
    intro h₃ hh₃ hp₃
    rw [List.drop_zero, take_terminated_all, overwritten_all (by simp [length_terminated])] at hp₃
    exact meets_pure (creates_text (hh.trans hh₃) hp₃ hs.noNul hs.fits)

theorem stringConstruct_creates (h : StringHeap) (t : CString) :
    Meets (stringConstruct (some t)) h (Creates view h (some t.text)) := by
  simp only [stringConstruct, CString.length, ne_eq, ite_not]
  apply Meets.bind
  apply meets_allocate
  case hno => exact meets_pure .refused
  case hyes =>
    rw [if_pos rfl, addSizeT_length t.fits (by omega)]
    apply meets_mallocString (replaces_allocated h none)
    intro p h₂ hh _ hp
    apply Meets.bind
    apply meets_copyString t hp (by simp)
    intro h₃ hh₃ hp₃
    rw [overwritten_all (by simp [length_terminated])] at hp₃
    exact meets_pure (creates_text (hh.trans hh₃) hp₃ t.noNul t.fits)

theorem stringConstructN_creates (h : StringHeap) (t : CString) (n : Nat) :
    Meets (stringConstructN (some t) n) h
      (Creates view h (if n > t.length then none else some (t.text.take n))) := by
  simp only [stringConstructN, ne_eq, ite_not]
  by_cases hn : n > t.length
  · rw [if_pos hn, if_pos hn]
    exact meets_pure (.null (.inl rfl) (Replaces.refl h none))
  · rw [if_neg hn, if_neg hn]
    simp only [CString.length] at hn ⊢
    apply Meets.bind
    apply meets_allocate
    case hno => exact meets_pure .refused
    case hyes =>
      rw [if_pos rfl, addSizeT_length t.fits (by omega)]
      apply meets_mallocString (replaces_allocated h none)
      intro p h₂ hh _ hp
      apply Meets.bind
      apply meets_copyIn hp (by rw [t.length_bytes]; omega) (by rw [length_unwritten]; omega)
      intro h₃ hh₃ hp₃
      have htext : (t.text.take n).length = n := by
        rw [List.length_take]
        omega
      have hcopied : t.bytes.take n = t.text.take n := by
        rw [CString.bytes, List.take_append_of_le_length (by omega)]
      rw [hcopied] at hp₃
      apply Meets.bind
      apply meets_store hp₃
      · rw [length_overwritten (by rw [List.length_map, htext, length_unwritten]; omega),
          length_unwritten]
        simp only [List.length_singleton]
        omega
      · intro h₄ hh₄ hp₄
        rw [overwritten_text htext] at hp₄
        apply meets_pure
        apply creates_text ((hh.trans hh₃).trans hh₄) hp₄
        · intro hmem
          exact t.noNul (List.mem_of_mem_take hmem)
        · rw [htext]
          have hfits := t.fits
          omega

end

/-! ## Programs -/

section

variable {h : StringHeap} {pool : List StringTag} {contents : List Bytes}

theorem onString_meets {c : Call} {i : Nat} {m : StringM (Int × Option StringTag)}
    (hperform : perform c pool = onString pool i m)
    (htells : ∀ code contents', (Answer.result code).Tells contents' c)
    (hsettled : Meets (onOne pool i m) h fun r h' =>
      Settled view (c.wanted contents) contents h (r.1 == 0) r.2 h') :
    Meets (perform c pool) h fun r h' => ∃ contents', Represents view h' r.2 contents' ∧
      Agrees c contents h r.1 contents' h' := by
  rw [hperform]
  apply Meets.bind
  apply hsettled.mono
  rintro ⟨code, pool'⟩ h' ⟨contents', hr', hsettles⟩
  exact meets_pure ⟨contents', hr', hsettles, htells code contents'⟩

theorem newString_meets (hr : Represents view h pool contents) {c : Call}
    {m : StringM (Option StringTag)} {wanted : Option Bytes}
    (hperform : perform c pool = newString pool m)
    (hwanted : c.wanted contents = wanted.map fun text => contents ++ [text])
    (htells : ∀ contents', (Answer.handle none).Tells contents' c ∧
      ∀ k, k + 1 = contents'.length → (Answer.handle (some k)).Tells contents' c)
    (hcreates : Meets m h (Creates view h wanted)) :
    Meets (perform c pool) h fun r h' => ∃ contents', Represents view h' r.2 contents' ∧
      Agrees c contents h r.1 contents' h' := by
  rw [hperform]
  unfold Agrees
  rw [hwanted]
  apply Meets.bind
  apply (makeOne_meets hr hcreates).mono
  rintro ⟨place, pool'⟩ h' ⟨⟨contents', hr', hsettles⟩, hplace⟩
  refine meets_pure ⟨contents', hr', hsettles, ?_⟩
  cases place with
  | none => exact (htells _).1
  | some k =>
    apply (htells _).2
    rw [← hr'.length]
    exact hplace k rfl

theorem onOne_rejected (hr : Represents view h pool contents) {i : Nat}
    (f : Option StringTag → StringM (Int × Option StringTag)) (hnull : f none = pure (failure, none))
    (hfails : ∀ s, f (some s) = pure (failure, some s)) :
    Meets (onOne pool i (f pool[i]?)) h fun r h' =>
      Settled view none contents h (r.1 == 0) r.2 h' := by
  rw [← onContent_rejected contents i]
  apply onOne_meets hr f _ failure_ne_zero hnull
  intro s text _ _ hs
  rw [hfails]
  exact meets_pure (.rejected failure_ne_zero hs rfl)

theorem perform_meets (hr : Represents view h pool contents) (c : Call) (hproper : c.Proper)
    (hseparate : c.Separate contents h) :
    Meets (perform c pool) h fun r h' => ∃ contents', Represents view h' r.2 contents' ∧
      Agrees c contents h r.1 contents' h' := by
  cases c with
  | stringNew =>
    exact newString_meets hr rfl rfl (fun _ => ⟨trivial, fun _ hk => hk⟩) (stringNew_creates h)
  | stringClone i =>
    refine newString_meets hr rfl rfl (fun _ => ⟨trivial, fun _ hk => hk⟩) ?_
    cases hs : pool[i]? with
    | none =>
      rw [hr.get_none hs]
      exact meets_pure (.null (.inl rfl) (Replaces.refl h none))
    | some s =>
      obtain ⟨text, htext, hholds⟩ := hr.get hs
      rw [htext]
      exact stringClone_creates hholds
  | stringConstruct psz =>
    refine newString_meets hr rfl rfl (fun _ => ⟨trivial, fun _ hk => hk⟩) ?_
    cases psz with
    | none => exact meets_pure (.null (.inl rfl) (Replaces.refl h none))
    | some t => exact stringConstruct_creates h t
  | stringConstructN psz n =>
    refine newString_meets hr rfl rfl (fun _ => ⟨trivial, fun _ hk => hk⟩) ?_
    cases psz with
    | none => exact meets_pure (.null (.inl rfl) (Replaces.refl h none))
    | some t => exact stringConstructN_creates h t n
  | stringConcat i s2 =>
    refine onString_meets rfl (fun _ _ => trivial) ?_
    cases s2 with
    | none => exact onOne_rejected hr (Strings.stringConcat · none) rfl fun _ => rfl
    | some t =>
      exact onOne_meets hr (Strings.stringConcat · (some t)) _ failure_ne_zero rfl
        fun s text _ _ hs => stringConcat_does hs t
  | stringConcatWithString i j =>
    refine onString_meets rfl (fun _ _ => trivial) ?_
    apply onTwo_meets hr (Strings.stringConcatWithString · · (i == j)) _ failure_ne_zero
      (fun _ => rfl) (fun _ => rfl)
    intro s1 s2 text1 text2 hget1 hget2 htext1 htext2 hs1 hs2
    by_cases hij : i = j
    · subst hij
      rw [hget1] at hget2
      rw [htext1] at htext2
      cases hget2
      cases htext2
      rw [beq_self_eq_true]
      exact stringConcatWithString_self_refused hs1 (hseparate rfl _ htext1)
    · rw [beq_eq_false_iff_ne.mpr hij]
      obtain ⟨rest, hcell⟩ := hs2.cell
      exact stringConcatWithString_does hs1 hs2
        (hr.apart j i s2 s1 (Ne.symm hij) hget2 hget1 (Heap.ne_none_of_cell hcell))
  | stringCopy i s2 =>
    refine onString_meets rfl (fun _ _ => trivial) ?_
    cases s2 with
    | null => exact onOne_rejected hr (Strings.stringCopy · none) rfl fun _ => rfl
    | text t =>
      exact onOne_meets hr (Strings.stringCopy · (some (.text t))) _ failure_ne_zero rfl
        fun s text _ _ hs => stringCopy_text_does hs t
    | string j =>
      apply onTwo_meets hr (fun s1 s2 => Strings.stringCopy s1 (stringCStr s2)) _
        failure_ne_zero (fun _ => rfl) (fun _ => rfl)
      intro s1 s2 text1 text2 hget1 hget2 htext1 htext2 hs1 hs2
      apply stringCopy_content_does hs1 hs2
      intro heq
      by_cases hij : i = j
      · subst hij
        rw [htext1] at htext2
        exact Option.some.inj htext2
      · obtain ⟨rest, hcell⟩ := hs2.cell
        exact absurd heq (hr.apart j i s2 s1 (Ne.symm hij) hget2 hget1
          (Heap.ne_none_of_cell hcell))
  | stringCopyN i s2 n =>
    refine onString_meets rfl (fun _ _ => trivial) ?_
    cases s2 with
    | none => exact onOne_rejected hr (Strings.stringCopyN · none n) rfl fun _ => rfl
    | some t =>
      exact onOne_meets hr (Strings.stringCopyN · (some t) n) _ failure_ne_zero rfl
        fun s text _ _ hs => stringCopyN_does hs t n
  | stringQuote i =>
    refine onString_meets rfl (fun _ _ => trivial) ?_
    exact onOne_meets hr Strings.stringQuote _ failure_ne_zero rfl
      fun s text _ _ hs => stringQuote_does hs
  | stringEmpty i =>
    refine onString_meets rfl (fun _ _ => trivial) ?_
    exact onOne_meets hr Strings.stringEmpty _ failure_ne_zero rfl
      fun s text _ _ hs => stringEmpty_does hs
  | stringReplace i target replace =>
    refine onString_meets rfl (fun _ _ => trivial) ?_
    exact onOne_meets hr (Strings.stringReplace · target replace) _ failure_ne_zero rfl
      fun s text _ _ hs => stringReplace_does hs target hproper
  | stringLength i =>
    apply Meets.bind
    cases hs : pool[i]? with
    | none =>
      refine meets_pure (meets_pure ⟨contents, hr, .done rfl, ?_⟩)
      change 0 = (contents[i]?.getD []).length
      rw [hr.get_none hs]
      rfl
    | some s =>
      obtain ⟨text, htext, hholds⟩ := hr.get hs
      apply meets_strlen hholds
      refine meets_pure ⟨contents, hr, .done rfl, ?_⟩
      change text.length = (contents[i]?.getD []).length
      rw [htext]
      rfl
  | stringCompare i j =>
    apply Meets.bind
    have htells : ∀ n, ComparesTo contents[i]? contents[j]? n →
        Meets (pure (Answer.order n, pool)) h fun r h' => ∃ contents',
          Represents view h' r.2 contents' ∧
            Agrees (.stringCompare i j) contents h r.1 contents' h' :=
      fun n hn => meets_pure ⟨contents, hr, .done rfl, hn⟩
    cases hs1 : pool[i]? with
    | none =>
      rw [hr.get_none hs1] at htells
      cases hs2 : pool[j]? with
      | none =>
        rw [hr.get_none hs2] at htells
        exact meets_pure (htells 0 rfl)
      | some s2 =>
        obtain ⟨text2, htext2, -⟩ := hr.get hs2
        rw [htext2] at htells
        exact meets_pure (htells 1 rfl)
    | some s1 =>
      obtain ⟨text1, htext1, hholds1⟩ := hr.get hs1
      rw [htext1] at htells
      cases hs2 : pool[j]? with
      | none =>
        rw [hr.get_none hs2] at htells
        exact meets_pure (htells (-1) rfl)
      | some s2 =>
        obtain ⟨text2, htext2, hholds2⟩ := hr.get hs2
        rw [htext2] at htells
        exact meets_strcmp hholds1 hholds2 fun n heq hlt => htells n ⟨heq, hlt⟩

theorem perform_undefined (hr : Represents view h pool contents) {c : Call}
    (hself : ¬ c.Separate contents h) : perform c pool h = none := by
  cases c with
  | stringConcatWithString i j =>
    simp only [Call.Separate, not_forall] at hself
    obtain ⟨rfl, text, htext, hgrants⟩ := hself
    rw [Bool.not_eq_false] at hgrants
    cases hs : pool[i]? with
    | none =>
      rw [hr.get_none hs] at htext
      cases htext
    | some s =>
      have hundefined := stringConcatWithString_self_undefined (hr.holds i s text hs htext) hgrants
      simp only [perform, hs, beq_self_eq_true]
      exact bind_eq_none _ (bind_eq_none _ hundefined)
  | _ => exact absurd trivial hself

end

/-- Whichever allocations fail, strings are sequences of characters: every call of a run is defined, does
what is wanted of it or reports a failure and changes no text, as long as no string is concatenated to
itself; when one is, and there is memory for it, the call is undefined. -/
theorem string_refines_text (outcomes : List Bool) (calls : List Call) :
    Refines view perform (fun c contents h => c.Proper ∧ c.Separate contents h) Agrees
        { outcomes := outcomes } [] [] calls ∧
      ∀ (h : StringHeap) (pool : List StringTag) (contents : List Bytes) (c : Call),
        Represents view h pool contents → ¬ c.Separate contents h → perform c pool h = none := by
  constructor
  · apply refines_of_step view perform _ Agrees
    · intro h pool contents c hr hallowed
      exact perform_meets hr c hallowed.1 hallowed.2
    · exact Represents.nil view _
  · intro h pool contents c hr hself
    exact perform_undefined hr hself

/-- The string "a" is concatenated to itself. -/
theorem concat_a_to_itself :
    ¬ ∀ (outcomes : List Bool) (calls : List Call),
      Refines view perform (fun c _ _ => c.Proper) Agrees { outcomes := outcomes } [] [] calls := by
  intro h
  obtain ⟨_, hfirst⟩ := h []
    [.stringConstruct (some ⟨ascii "a", by decide, by decide +kernel⟩),
      .stringConcatWithString 0 0]
  obtain ⟨answer, pool, heap, contents, hrun, -, -, hsecond⟩ := hfirst trivial
  cases hrun
  obtain ⟨answer, pool, heap, contents, hrun, -⟩ := hsecond trivial
  cases hrun

end SharedUtility.Strings
