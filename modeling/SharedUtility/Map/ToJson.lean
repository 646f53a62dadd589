import SharedUtility.Strings.Json

/-!
# ToJson — `Map_ToJSON` of `map.c`

* `concatPieces`, `addEntries`, `mapToJSON` — the code, on the strings of a map in their order,
* `mapText` — the text; `mapText_denotes`: what it denotes in JSON,
* `mapToJSON_creates`: the text is made, unless an allocation fails or a character is not ASCII,
* `mapToJSON_faithful`.
-/

namespace SharedUtility.Map

open Memory Strings

/-! ## The code -/

/-- A key and its value. -/
abbrev Entry := CString × CString

/-- A string literal of one character. -/
def literal (c : UInt8) (hc : c ≠ 0) : CString where
  text := [c]
  noNul := by
    rw [List.mem_singleton]
    exact hc.symm
  fits := by
    rw [List.length_singleton]
    decide

/-- What is added to the text: a literal by `STRING_concat`, or a string by `STRING_concat_with_STRING`. -/
inductive Piece
  | literal (s2 : CString)
  | string (s2 : StringTag)

def concatPiece (result : StringTag) : Piece → StringM (Int × Option StringTag)
  | .literal s2 => stringConcat (some result) (some s2)
  | .string s2 => stringConcatWithString (some result) (some s2) false

/-- The pieces one after the other, until one fails. -/
def concatPieces : List Piece → StringTag → StringM (Bool × StringTag)
  | [], result => pure (true, result)
  | piece :: pieces, result => do
    let r ← concatPiece result piece
    let result := r.2.getD result
    if r.1 = 0 then concatPieces pieces result else pure (false, result)

/-- What is added for the entry at `i`. -/
def entryPieces (i : Nat) (key value : StringTag) : List Piece :=
  let comma := if i > 0 then [.literal (literal 0x2C (by decide))] else []
  comma ++ [.string key, .literal (literal 0x3A (by decide)), .string value]

/-- The loop, from `i` on; `none` where it breaks. -/
def addEntries : (i : Nat) → List Entry → StringTag → StringM (Option StringTag)
  | _, [], result => pure (some result)
  | i, entry :: entries, result => do
    let key ← stringNewJSON (some entry.1)
    match key with
    | none => do
      stringDelete (some result)
      pure none
    | some key => do
      let value ← stringNewJSON (some entry.2)
      match value with
      | none => do
        stringDelete (some result)
        stringDelete (some key)
        pure none
      | some value => do
        let r ← concatPieces (entryPieces i key value) result
        if r.1 then do
          stringDelete (some value)
          stringDelete (some key)
          addEntries (i + 1) entries r.2
        else do
          stringDelete (some r.2)
          stringDelete (some value)
          stringDelete (some key)
          pure none

/-- `none` is a NULL handle. -/
def mapToJSON (handle : Option (List Entry)) : StringM (Option StringTag) :=
  match handle with
  | none => pure none
  | some entries => do
    let result ← stringConstruct (some (literal 0x7B (by decide)))
    match result with
    | none => pure none
    | some result => do
      let result ← addEntries 0 entries result
      match result with
      | none => pure none
      | some result => do
        let r ← stringConcat (some result) (some (literal 0x7D (by decide)))
        let result := r.2.getD result
        if r.1 ≠ 0 then do
          stringDelete (some result)
          pure none
        else pure (some result)

/-! ## The text -/

def entryText (i : Nat) (entry : Entry) : Bytes :=
  (if i > 0 then [0x2C] else []) ++ (jsonText entry.1.text ++ (0x3A :: jsonText entry.2.text))

def entriesText : (i : Nat) → List Entry → Bytes
  | _, [] => []
  | i, entry :: entries => entryText i entry ++ entriesText (i + 1) entries

def mapText (entries : List Entry) : Bytes :=
  0x7B :: (entriesText 0 entries ++ [0x7D])

/-- All characters are from 1 to 127; none is 0. -/
def Ascii (entry : Entry) : Prop :=
  (∀ c ∈ entry.1.text, c < 128) ∧ ∀ c ∈ entry.2.text, c < 128

instance (entry : Entry) : Decidable (Ascii entry) :=
  inferInstanceAs (Decidable (_ ∧ _))

/-- The name and the value that an entry stands for. -/
def units (entry : Entry) : JsonText.Member :=
  (entry.1.text.map UInt8.toNat, entry.2.text.map UInt8.toNat)

/-- Wherever `c` is, a backslash is in front of it. -/
def Escaped (c : UInt8) (text : Bytes) : Prop :=
  ∀ front back, text = front ++ c :: back → front.getLast? = some 0x5C

section

variable {c : UInt8} {text text' : Bytes} {entry : Entry} {entries : List Entry} {i : Nat}

theorem member_denotes (h : Ascii entry) :
    JsonText.MemberText (jsonText entry.1.text ++ (0x3A :: jsonText entry.2.text)) (units entry) := by
  have hblanks : JsonText.Blanks [] := nofun
  have hkey := jsonText_denotes h.1
  have hpair := JsonText.MemberText.pair hblanks hkey hblanks hblanks (jsonText_denotes h.2) hblanks
  rwa [List.nil_append, List.nil_append, List.nil_append, List.append_nil] at hpair

theorem entriesText_denotes (h : ∀ entry ∈ entries, Ascii entry) (hentry : Ascii entry) (i : Nat) :
    JsonText.MembersText
      (jsonText entry.1.text ++ (0x3A :: jsonText entry.2.text) ++ entriesText (i + 1) entries)
      ((entry :: entries).map units) := by
  induction entries generalizing entry i with
  | nil =>
    rw [entriesText, List.append_nil]
    exact .one (member_denotes hentry)
  | cons next entries ih =>
    rw [entriesText, entryText, if_pos (Nat.succ_pos i), List.append_assoc [0x2C]]
    exact .more (member_denotes hentry)
      (ih (fun e he => h e (List.mem_cons_of_mem _ he)) (h next (List.mem_cons_self ..)) (i + 1))

theorem mapText_denotes (h : ∀ entry ∈ entries, Ascii entry) :
    JsonText.ObjectText (mapText entries) (entries.map units) := by
  have hblanks : JsonText.Blanks [] := nofun
  cases entries with
  | nil => exact .empty hblanks hblanks hblanks
  | cons entry entries =>
    have hmembers := entriesText_denotes (fun e he => h e (List.mem_cons_of_mem _ he))
      (h entry (List.mem_cons_self ..)) 0
    exact .members hblanks hmembers hblanks

theorem escaped_of_notMem (h : c ∉ text) : Escaped c text := by
  rintro front back rfl
  exact absurd (List.mem_append_right _ (List.mem_cons_self ..)) h

/-- Two texts are escaped together, as one of them has no place for the backslash of the other. -/
theorem Escaped.append (h : Escaped c text) (h' : Escaped c text') : Escaped c (text ++ text') := by
  intro front back heq
  rcases List.append_eq_append_iff.1 heq with ⟨more, rfl, htext'⟩ | ⟨more, htext, hback⟩
  · rw [List.getLast?_append, h' more back htext']
    rfl
  · cases more with
    | nil =>
      rw [List.append_nil] at htext
      have hlast := h' [] back hback.symm
      cases hlast
    | cons b more =>
      obtain ⟨rfl, hmore⟩ := List.cons.inj hback
      exact h front more htext

set_option maxRecDepth 8000 in
theorem notMem_jsonChar (a : UInt8) (ha : a ≠ 0x2F) : 0x2F ∉ jsonChar a := by
  revert a
  apply byte_forall
  decide

theorem escaped_jsonChar (a : UInt8) : Escaped 0x2F (jsonChar a) := by
  by_cases ha : a = 0x2F
  · subst ha
    intro front back heq
    have hform : jsonChar 0x2F = [0x5C, 0x2F] := rfl
    rw [hform] at heq
    match front with
    | [] => cases (List.cons.inj heq).1
    | [b] => rw [List.getLast?_singleton, (List.cons.inj heq).1]
    | b :: d :: front =>
      have hlength := congrArg List.length heq
      simp only [List.length_cons, List.length_append, List.length_nil] at hlength
      omega
  · exact escaped_of_notMem (notMem_jsonChar a ha)

theorem escaped_jsonText (text : Bytes) : Escaped 0x2F (jsonText text) := by
  have hquote : Escaped 0x2F [0x22] := escaped_of_notMem (by decide)
  have hbody : Escaped 0x2F (jsonBody text) := by
    induction text with
    | nil => exact escaped_of_notMem List.not_mem_nil
    | cons a text ih => exact (escaped_jsonChar a).append ih
  exact hquote.append (hbody.append hquote)

theorem escaped_mapText (entries : List Entry) : Escaped 0x2F (mapText entries) := by
  have hentries : ∀ i, Escaped 0x2F (entriesText i entries) := by
    induction entries with
    | nil => exact fun _ => escaped_of_notMem List.not_mem_nil
    | cons entry entries ih =>
      intro i
      have hcomma : Escaped 0x2F (if i > 0 then [0x2C] else []) := by
        apply escaped_of_notMem
        split_ifs with hi
        · decide
        · exact List.not_mem_nil
      have hcolon : Escaped 0x2F [0x3A] := escaped_of_notMem (by decide)
      have hmember := (escaped_jsonText entry.1.text).append (hcolon.append (escaped_jsonText entry.2.text))
      exact (hcomma.append hmember).append (ih (i + 1))
  have hopen : Escaped 0x2F [0x7B] := escaped_of_notMem (by decide)
  have hclose : Escaped 0x2F [0x7D] := escaped_of_notMem (by decide)
  exact hopen.append ((hentries 0).append hclose)

end

/-! ## The string that is made -/

section

variable {before h h' : StringHeap} {result s : StringTag} {others : List StringTag} {texts : List Bytes}
  {done text : Bytes} {entries : List Entry}

/-- The text that a piece adds; a string is one of `others`. -/
def Adding (others : List StringTag) (texts : List Bytes) : Piece → Bytes → Prop
  | .literal s2, text => text = s2.text
  | .string s2, text => ∃ j : Nat, others[j]? = some s2 ∧ texts[j]? = some text

theorem concatPiece_adds (ha : Adds view before h (result :: others) (done :: texts)) (piece : Piece)
    (hpiece : Adding others texts piece text) :
    Meets (concatPiece result piece) h fun r h' => ∃ result' done', r.2 = some result' ∧
      Adds view before h' (result' :: others) (done' :: texts) ∧
        (r.1 = 0 ∧ done' = done ++ text ∨ r.1 ≠ 0 ∧ before.failures < h'.failures) := by
  have hresult : Holds h result done := ha.holds (i := 0) rfl rfl
  have hdoes : Meets (concatPiece result piece) h (Does view h result done (some (done ++ text))) := by
    cases piece with
    | literal s2 =>
      cases hpiece
      exact stringConcat_does hresult s2
    | string s2 =>
      obtain ⟨j, hj, htext⟩ := hpiece
      have hs2 : Holds h s2 text := ha.holds (i := j + 1) hj htext
      obtain ⟨rest, hcell⟩ := hs2.cell
      have hapart : s2.s ≠ result.s := ha.represents.apart (j + 1) 0 s2 result (Nat.succ_ne_zero j) hj rfl
        (Heap.ne_none_of_cell hcell)
      exact stringConcatWithString_does hresult hs2 hapart
  refine hdoes.mono ?_
  rintro ⟨code, _⟩ h' ⟨result', rfl, hreplaces, done', hholds, hsettles⟩
  refine ⟨result', done', rfl, @Adds.change _ _ _ _ _ _ _ _ _ _ _ _ 0 ha rfl hreplaces hholds, ?_⟩
  generalize hcode : (code == 0) = ok at hsettles
  cases hsettles with
  | done hdone => exact .inl ⟨beq_iff_eq.1 hcode, (Option.some.inj hdone).symm⟩
  | failed hfailed =>
    refine .inr ⟨beq_eq_false_iff_ne.1 hcode, ?_⟩
    rcases hfailed with hnone | hless
    · cases hnone
    · exact Nat.lt_of_le_of_lt ha.failures hless

theorem concatPieces_adds {pieces : List Piece} {added : List Bytes}
    (hpieces : List.Forall₂ (Adding others texts) pieces added)
    (ha : Adds view before h (result :: others) (done :: texts)) :
    Meets (concatPieces pieces result) h fun r h' => ∃ done',
      Adds view before h' (r.2 :: others) (done' :: texts) ∧
        (r.1 = true ∧ done' = done ++ added.flatten ∨ r.1 = false ∧ before.failures < h'.failures) := by
  induction hpieces generalizing h result done with
  | nil => exact meets_pure ⟨done, ha, .inl ⟨rfl, (List.append_nil done).symm⟩⟩
  | @cons piece text pieces added hpiece _ ih =>
    rw [concatPieces]
    apply Meets.bind
    refine (concatPiece_adds ha piece hpiece).mono ?_
    rintro ⟨code, _⟩ h₁ ⟨result', done', rfl, ha₁, ⟨hcode, rfl⟩ | ⟨hcode, hfailed⟩⟩
    case inl =>
      rw [if_pos hcode, List.flatten_cons, ← List.append_assoc]
      exact ih ha₁
    case inr =>
      rw [if_neg hcode]
      exact meets_pure ⟨done', ha₁, .inr ⟨rfl, hfailed⟩⟩

theorem entryPieces_add (i : Nat) (key value : StringTag) (k v : Bytes) :
    List.Forall₂ (Adding [key, value] [k, v]) (entryPieces i key value)
      ((if i > 0 then [[0x2C]] else []) ++ [k, [0x3A], v]) := by
  have hrest : List.Forall₂ (Adding [key, value] [k, v])
      [.string key, .literal (literal 0x3A (by decide)), .string value] [k, [0x3A], v] :=
    .cons ⟨0, rfl, rfl⟩ (.cons rfl (.cons ⟨1, rfl, rfl⟩ .nil))
  rw [entryPieces]
  split_ifs with hi
  · exact .cons rfl hrest
  · exact hrest

theorem flatten_entry (i : Nat) (entry : Entry) :
    ((if i > 0 then [[0x2C]] else []) ++
      [jsonText entry.1.text, [0x3A], jsonText entry.2.text] : List Bytes).flatten = entryText i entry := by
  have hmember : [jsonText entry.1.text, [0x3A], jsonText entry.2.text].flatten =
      jsonText entry.1.text ++ (0x3A :: jsonText entry.2.text) := by
    rw [List.flatten_cons, List.flatten_cons, List.flatten_singleton, List.singleton_append]
  rw [entryText, List.flatten_append, hmember]
  split_ifs with hi
  · rfl
  · rfl

theorem stringDelete_adds {pool : List StringTag} {contents : List Bytes} {i : Nat}
    (ha : Adds view before h pool contents) (hs : pool[i]? = some s) :
    Meets (stringDelete (some s)) h fun _ h' =>
      Adds view before h' (pool.eraseIdx i) (contents.eraseIdx i) ∧ h.failures ≤ h'.failures := by
  obtain ⟨text, _, hholds⟩ := ha.represents.get hs
  obtain ⟨rest, hcell⟩ := hholds.cell
  apply meets_freeBlock (.inr hcell)
  intro h' hh
  exact ⟨ha.delete hs hh, hh.failures⟩

/-- What the loop has come to: all entries have been added; or nothing is left, as an allocation has failed or a
character is not ASCII. -/
inductive Added (before : StringHeap) (done : Bytes) (i : Nat) (entries : List Entry) :
    Option StringTag → StringHeap → Prop
  | all {result : StringTag} {h : StringHeap} (hascii : ∀ entry ∈ entries, Ascii entry)
      (ha : Adds view before h [result] [done ++ entriesText i entries]) :
      Added before done i entries (some result) h
  | none {h : StringHeap} (ha : Adds view before h [] [])
      (hfailed : (¬ ∀ entry ∈ entries, Ascii entry) ∨ before.failures < h.failures) :
      Added before done i entries none h

/-- A string of the map has become JSON text; or it has not, as an allocation has failed or a character is not
ASCII. -/
theorem stringNewJSON_adds {pool : List StringTag} {contents : List Bytes}
    (ha : Adds view before h pool contents) (t : CString)
    (hsize : ∀ json, jsonOf t.text = some json → json.length < sizeMax) :
    Meets (stringNewJSON (some t)) h fun r h' =>
      (∃ s, r = some s ∧ (∀ c ∈ t.text, c < 128) ∧
        Adds view before h' (pool ++ [s]) (contents ++ [jsonText t.text])) ∨
      (r = none ∧ Adds view before h' pool contents ∧
        ((¬ ∀ c ∈ t.text, c < 128) ∨ before.failures < h'.failures)) := by
  refine (stringNewJSON_creates h t hsize).mono ?_
  intro r h' hcreates
  by_cases hascii : ∀ c ∈ t.text, c < 128
  case pos =>
    have hwanted : jsonOf t.text = some (jsonText t.text) := jsonOf_ascii hascii
    rw [hwanted] at hcreates
    cases hcreates with
    | new htext hh hs =>
      cases htext
      exact .inl ⟨_, rfl, hascii, ha.create hh hs⟩
    | null hfailed hh =>
      refine .inr ⟨rfl, ha.still hh, .inr ?_⟩
      rcases hfailed with hnone | hless
      · cases hnone
      · exact Nat.lt_of_le_of_lt ha.failures hless
  case neg =>
    have hwanted : jsonOf t.text = none := jsonOf_notAscii hascii
    rw [hwanted] at hcreates
    cases hcreates with
    | new htext => cases htext
    | null _ hh => exact .inr ⟨rfl, ha.still hh, .inl hascii⟩

/-- The JSON texts can be counted. -/
def Countable (entry : Entry) : Prop :=
  (∀ json, jsonOf entry.1.text = some json → json.length < sizeMax) ∧
    ∀ json, jsonOf entry.2.text = some json → json.length < sizeMax

theorem addEntries_adds {i : Nat} (hsizes : ∀ entry ∈ entries, Countable entry)
    (ha : Adds view before h [result] [done]) :
    Meets (addEntries i entries result) h (Added before done i entries) := by
  induction entries generalizing h i result done with
  | nil =>
    refine meets_pure (.all nofun ?_)
    rwa [entriesText, List.append_nil]
  | cons entry entries ih =>
    have hsize := hsizes entry (List.mem_cons_self ..)
    -- An entry that is not ASCII is one of the entries.
    have hbad : ¬ Ascii entry → ¬ ∀ e ∈ entry :: entries, Ascii e :=
      fun hentry hall => hentry (hall entry (List.mem_cons_self ..))
    rw [addEntries]
    apply Meets.bind
    refine (stringNewJSON_adds ha entry.1 hsize.1).mono ?_
    rintro _ h₁ (⟨key, rfl, hkey, ha₁⟩ | ⟨rfl, ha₁, hfailed⟩)
    case inr =>
      apply Meets.bind
      refine (stringDelete_adds (i := 0) ha₁ rfl).mono ?_
      rintro _ h₂ ⟨ha₂, hle⟩
      exact meets_pure (.none ha₂ (hfailed.imp (fun hnot => hbad fun hentry => hnot hentry.1) fun hless =>
        Nat.lt_of_lt_of_le hless hle))
    case inl =>
      apply Meets.bind
      refine (stringNewJSON_adds ha₁ entry.2 hsize.2).mono ?_
      rintro _ h₂ (⟨value, rfl, hvalue, ha₂⟩ | ⟨rfl, ha₂, hfailed⟩)
      case inr =>
        apply Meets.bind
        refine (stringDelete_adds (i := 0) ha₂ rfl).mono ?_
        rintro _ h₃ ⟨ha₃, hle₃⟩
        apply Meets.bind
        refine (stringDelete_adds (i := 0) ha₃ rfl).mono ?_
        rintro _ h₄ ⟨ha₄, hle₄⟩
        exact meets_pure (.none ha₄ (hfailed.imp (fun hnot => hbad fun hentry => hnot hentry.2) fun hless =>
          Nat.lt_of_lt_of_le hless (Nat.le_trans hle₃ hle₄)))
      case inl =>
        apply Meets.bind
        refine (concatPieces_adds (entryPieces_add i key value _ _) ha₂).mono ?_
        rintro ⟨_, result'⟩ h₃ ⟨done', ha₃, ⟨rfl, rfl⟩ | ⟨rfl, hless⟩⟩
        case inl =>
          rw [if_pos rfl]
          apply Meets.bind
          refine (stringDelete_adds (i := 2) ha₃ rfl).mono ?_
          rintro _ h₄ ⟨ha₄, -⟩
          apply Meets.bind
          refine (stringDelete_adds (i := 1) ha₄ rfl).mono ?_
          rintro _ h₅ ⟨ha₅, -⟩
          rw [flatten_entry] at ha₅
          refine (ih (fun e he => hsizes e (List.mem_cons_of_mem _ he)) ha₅).mono ?_
          intro r h₆ hadded
          cases hadded with
          | all hascii ha₆ =>
            refine .all (List.forall_mem_cons.2 ⟨⟨hkey, hvalue⟩, hascii⟩) ?_
            rwa [entriesText, ← List.append_assoc]
          | none ha₆ hfailed =>
            exact .none ha₆ (hfailed.imp_left fun hnot hall =>
              hnot fun e he => hall e (List.mem_cons_of_mem _ he))
        case inr =>
          rw [if_neg Bool.false_ne_true]
          apply Meets.bind
          refine (stringDelete_adds (i := 0) ha₃ rfl).mono ?_
          rintro _ h₄ ⟨ha₄, hle₄⟩
          apply Meets.bind
          refine (stringDelete_adds (i := 1) ha₄ rfl).mono ?_
          rintro _ h₅ ⟨ha₅, hle₅⟩
          apply Meets.bind
          refine (stringDelete_adds (i := 0) ha₅ rfl).mono ?_
          rintro _ h₆ ⟨ha₆, hle₆⟩
          exact meets_pure (.none ha₆
            (.inr (Nat.lt_of_lt_of_le hless (Nat.le_trans hle₄ (Nat.le_trans hle₅ hle₆)))))

end

/-! ## The map as an object -/

section

variable {h : StringHeap} {entries : List Entry}

/-- What is wanted: the text of the map, if all characters are ASCII. -/
def mapJsonOf (entries : List Entry) : Option Bytes :=
  if ∀ entry ∈ entries, Ascii entry then some (mapText entries) else none

theorem mapToJSON_creates (h : StringHeap) (hsizes : ∀ entry ∈ entries, Countable entry) :
    Meets (mapToJSON (some entries)) h (Creates view h (mapJsonOf entries)) := by
  rw [mapToJSON]
  apply Meets.bind
  refine (stringConstruct_creates h (literal 0x7B (by decide))).mono ?_
  intro r h₁ hopened
  cases hopened with
  | null hfailed hh =>
    refine meets_pure (.null (hfailed.imp_left nofun) hh)
  | new htext hh hs =>
    cases htext
    apply Meets.bind
    refine (addEntries_adds (i := 0) hsizes ((Adds.start view h).create hh hs)).mono ?_
    intro r h₂ hadded
    cases hadded with
    | none ha hfailed => exact meets_pure (ha.returns_null (hfailed.imp_left fun hnot => if_neg hnot))
    | @all result _ hascii ha =>
      apply Meets.bind
      refine (concatPiece_adds ha (.literal (literal 0x7D (by decide))) rfl).mono ?_
      rintro ⟨code, _⟩ h₃ ⟨result', done', rfl, ha₃, ⟨rfl, rfl⟩ | ⟨hcode, hless⟩⟩
      case inl =>
        have hwanted : mapJsonOf entries = some (mapText entries) := if_pos hascii
        rw [hwanted]
        exact meets_pure ha₃.returns
      case inr =>
        dsimp only
        rw [if_pos hcode]
        apply Meets.bind
        refine (stringDelete_adds (i := 0) ha₃ rfl).mono ?_
        rintro _ h₄ ⟨ha₄, hle⟩
        exact meets_pure (ha₄.returns_null (.inr (Nat.lt_of_lt_of_le hless hle)))

/-- What `Map_ToJSON` has made of a map. -/
structure Faithful (entries : List Entry) (h : StringHeap) (result : Option StringTag) (h' : StringHeap) :
    Prop where
  /-- A JSON object whose members are the entries in their order, unless memory has run out. -/
  object : (∀ entry ∈ entries, Ascii entry) →
    (∃ s text, result = some s ∧ Holds h' s text ∧ JsonText.objectOf text = some (entries.map units) ∧
      Escaped 0x2F text) ∨ (result = none ∧ h.failures < h'.failures)
  refused : (¬ ∀ entry ∈ entries, Ascii entry) → result = none
  kept : ∀ q v, h.cell q = some v → h'.cell q = some v

/-- Every map whose JSON strings can be counted, and every pattern of failing allocations. -/
theorem mapToJSON_faithful (h : StringHeap) (entries : List Entry)
    (hsizes : ∀ entry ∈ entries, Countable entry) :
    Meets (mapToJSON (some entries)) h (Faithful entries h) := by
  refine (mapToJSON_creates h hsizes).mono ?_
  intro result h' hcreates
  have hkept : ∀ p : Ptr, Replaces h h' none p → ∀ q v, h.cell q = some v → h'.cell q = some v :=
    fun p hh q v hq => hh.others q v (Heap.ne_none_of_cell hq) hq
  by_cases hascii : ∀ entry ∈ entries, Ascii entry
  case pos =>
    have hwanted : mapJsonOf entries = some (mapText entries) := if_pos hascii
    rw [hwanted] at hcreates
    cases hcreates with
    | new htext hh hs =>
      cases htext
      have hobject := JsonText.objectOf_text (mapText_denotes hascii)
      exact ⟨fun _ => .inl ⟨_, _, rfl, hs, hobject, escaped_mapText entries⟩,
        fun hnot => absurd hascii hnot, hkept _ hh⟩
    | null hfailed hh =>
      exact ⟨fun _ => .inr ⟨rfl, hfailed.resolve_left nofun⟩, fun _ => rfl, hkept _ hh⟩
  case neg =>
    have hwanted : mapJsonOf entries = none := if_neg hascii
    rw [hwanted] at hcreates
    cases hcreates with
    | new htext => cases htext
    | null _ hh => exact ⟨fun hall => absurd hall hascii, fun _ => rfl, hkept _ hh⟩

/-- `{"a":"\/"}`. -/
theorem mapToJSON_faithful_slash :
    Meets (mapToJSON (some [(literal 0x61 (by decide), literal 0x2F (by decide))])) {}
      (Faithful [(literal 0x61 (by decide), literal 0x2F (by decide))] {}) := by
  refine mapToJSON_faithful {} _ fun entry hentry => ?_
  cases List.mem_singleton.1 hentry
  have hkey : jsonOf [0x61] = some [0x22, 0x61, 0x22] := by
    rw [jsonOf_ascii (List.forall_mem_singleton.2 (by decide))]
    rfl
  have hvalue : jsonOf [0x2F] = some [0x22, 0x5C, 0x2F, 0x22] := by
    rw [jsonOf_ascii (List.forall_mem_singleton.2 (by decide))]
    rfl
  refine ⟨fun json hjson => ?_, fun json hjson => ?_⟩
  · cases hkey.symm.trans hjson
    decide
  · cases hvalue.symm.trans hjson
    decide

end

end SharedUtility.Map
