import SharedUtility.SubjectSequence

/-!
# JsonText — JSON objects of strings, in ASCII

* `CharForm`, `StringBody`, `MembersText`, `ObjectText` — the grammar; a string denotes its code units,
* `charOf`, `stringOf`, `membersOf`, `objectOf` — a parser,
* `objectOf_eq_some_iff`: the parser accepts what the grammar does, and a text denotes one object.
-/

namespace SharedUtility.JsonText

/-! ## The grammar -/

/-- A character that stands for itself. -/
def isPlain (c : UInt8) : Bool :=
  0x20 ≤ c && c < 0x80 && c != 0x22 && c != 0x5C

/-- What a letter behind a backslash denotes. -/
def escapeValue (e : UInt8) : Option Nat :=
  if e = 0x22 ∨ e = 0x5C ∨ e = 0x2F then some e.toNat
  else if e = 0x62 then some 0x08
  else if e = 0x66 then some 0x0C
  else if e = 0x6E then some 0x0A
  else if e = 0x72 then some 0x0D
  else if e = 0x74 then some 0x09
  else none

inductive CharForm : Bytes → Nat → Prop
  | plain {c : UInt8} : isPlain c = true → CharForm [c] c.toNat
  | escape {e : UInt8} {unit : Nat} : escapeValue e = some unit → CharForm [0x5C, e] unit
  | unicode {digits : Bytes} :
      digits.length = 4 → (∀ b ∈ digits, isDigitOf 16 b = true) →
        CharForm (0x5C :: 0x75 :: digits) (valueOf 16 digits)

inductive StringBody : Bytes → List Nat → Prop
  | nil : StringBody [] []
  | cons {form body : Bytes} {unit : Nat} {units : List Nat} :
      CharForm form unit → StringBody body units → StringBody (form ++ body) (unit :: units)

inductive StringText : Bytes → List Nat → Prop
  | quoted {body : Bytes} {units : List Nat} :
      StringBody body units → StringText (0x22 :: (body ++ [0x22])) units

def isBlank (c : UInt8) : Bool :=
  c == 0x20 || c == 0x09 || c == 0x0A || c == 0x0D

def Blanks (text : Bytes) : Prop :=
  ∀ b ∈ text, isBlank b = true

/-- The name and the value of a member. -/
abbrev Member := List Nat × List Nat

inductive MemberText : Bytes → Member → Prop
  | pair {first second third fourth key value : Bytes} {k v : List Nat} :
      Blanks first → StringText key k → Blanks second → Blanks third → StringText value v →
        Blanks fourth → MemberText (first ++ (key ++ (second ++ 0x3A :: (third ++ (value ++ fourth))))) (k, v)

inductive MembersText : Bytes → List Member → Prop
  | one {text : Bytes} {m : Member} : MemberText text m → MembersText text [m]
  | more {text rest : Bytes} {m : Member} {ms : List Member} :
      MemberText text m → MembersText rest ms → MembersText (text ++ 0x2C :: rest) (m :: ms)

inductive ObjectText : Bytes → List Member → Prop
  | empty {first second third : Bytes} :
      Blanks first → Blanks second → Blanks third →
        ObjectText (first ++ 0x7B :: (second ++ 0x7D :: third)) []
  | members {first text third : Bytes} {ms : List Member} :
      Blanks first → MembersText text ms → Blanks third →
        ObjectText (first ++ 0x7B :: (text ++ 0x7D :: third)) ms

/-! ## The parser

What is read, and the rest of the text. -/

def escapeOf : Bytes → Option (Nat × Bytes)
  | [] => none
  | e :: rest =>
    if e = 0x75 then
      if (rest.take 4).length = 4 ∧ (rest.take 4).all (isDigitOf 16) = true then
        some (valueOf 16 (rest.take 4), rest.drop 4)
      else none
    else (escapeValue e).map fun unit => (unit, rest)

def charOf : Bytes → Option (Nat × Bytes)
  | [] => none
  | c :: rest =>
    if isPlain c then some (c.toNat, rest)
    else if c = 0x5C then escapeOf rest
    else none

/-- The characters up to the quotation mark. -/
def bodyOf : (fuel : Nat) → Bytes → Option (List Nat × Bytes)
  | 0, _ => none
  | fuel + 1, text =>
    if text.head? = some 0x22 then some ([], text.tail)
    else (charOf text).bind fun r => (bodyOf fuel r.2).map fun s => (r.1 :: s.1, s.2)

def skipBlanks (text : Bytes) : Bytes :=
  text.dropWhile isBlank

def expect (c : UInt8) (text : Bytes) : Option Bytes :=
  if text.head? = some c then some text.tail else none

def stringOf (text : Bytes) : Option (List Nat × Bytes) :=
  (expect 0x22 text).bind fun rest => bodyOf rest.length rest

def memberOf (text : Bytes) : Option (Member × Bytes) :=
  (stringOf (skipBlanks text)).bind fun key =>
    (expect 0x3A (skipBlanks key.2)).bind fun rest =>
      (stringOf (skipBlanks rest)).map fun value => ((key.1, value.1), skipBlanks value.2)

/-- The members up to the closing brace. -/
def membersOf : (fuel : Nat) → Bytes → Option (List Member × Bytes)
  | 0, _ => none
  | fuel + 1, text =>
    (memberOf text).bind fun m =>
      if m.2.head? = some 0x2C then (membersOf fuel m.2.tail).map fun r => (m.1 :: r.1, r.2)
      else (expect 0x7D m.2).map fun rest => ([m.1], rest)

/-- Behind the opening brace. -/
def contentOf (text : Bytes) : Option (List Member × Bytes) :=
  match expect 0x7D (skipBlanks text) with
  | some rest => some ([], rest)
  | none => membersOf text.length text

def objectOf (text : Bytes) : Option (List Member) :=
  (expect 0x7B (skipBlanks text)).bind fun rest =>
    (contentOf rest).bind fun r => if skipBlanks r.2 = [] then some r.1 else none

/-! ## What the grammar accepts is parsed -/

section

variable {text form body rest : Bytes} {unit : Nat} {units : List Nat} {m : Member} {ms : List Member}

theorem charOf_form (h : CharForm form unit) (rest : Bytes) : charOf (form ++ rest) = some (unit, rest) := by
  cases h with
  | plain hplain => exact if_pos hplain
  | @escape e _ he =>
    have hletter : e ≠ 0x75 := by
      rintro rfl
      cases (show escapeValue 0x75 = none from rfl).symm.trans he
    change (if e = 0x75 then _ else (escapeValue e).map fun unit => (unit, rest)) = _
    rw [if_neg hletter, he]
    rfl
  | @unicode digits hlength hdigits =>
    have htake : (digits ++ rest).take 4 = digits := List.take_left' hlength
    have hdrop : (digits ++ rest).drop 4 = rest := List.drop_left' hlength
    change (if ((digits ++ rest).take 4).length = 4 ∧ ((digits ++ rest).take 4).all (isDigitOf 16) = true then
      some (valueOf 16 ((digits ++ rest).take 4), (digits ++ rest).drop 4) else none) = _
    rw [htake, hdrop, if_pos ⟨hlength, List.all_eq_true.2 hdigits⟩]

theorem CharForm.head (h : CharForm form unit) : ∃ c more, form = c :: more ∧ c ≠ 0x22 := by
  cases h with
  | @plain c hplain =>
    refine ⟨c, [], rfl, ?_⟩
    rintro rfl
    exact absurd hplain (by decide)
  | escape => exact ⟨_, _, rfl, by decide⟩
  | unicode => exact ⟨_, _, rfl, by decide⟩

theorem StringBody.length_le (h : StringBody body units) : units.length ≤ body.length := by
  induction h with
  | nil => exact Nat.le_refl _
  | cons hform _ ih =>
    obtain ⟨c, more, rfl, -⟩ := hform.head
    rw [List.length_append, List.length_cons, List.length_cons]
    omega

theorem bodyOf_body (h : StringBody body units) {fuel : Nat} (hfuel : units.length < fuel) (rest : Bytes) :
    bodyOf fuel (body ++ 0x22 :: rest) = some (units, rest) := by
  induction h generalizing fuel with
  | nil =>
    cases fuel with
    | zero => exact absurd hfuel (Nat.not_lt_zero _)
    | succ fuel => rfl
  | @cons form body unit units hform _ ih =>
    cases fuel with
    | zero => exact absurd hfuel (Nat.not_lt_zero _)
    | succ fuel =>
      have hchar := charOf_form hform (body ++ 0x22 :: rest)
      obtain ⟨c, more, rfl, hc⟩ := hform.head
      have hhead : ¬ ((c :: more) ++ body ++ 0x22 :: rest).head? = some 0x22 :=
        fun h => hc (Option.some.inj h)
      rw [bodyOf, if_neg hhead, List.append_assoc, hchar, Option.bind_some,
        ih (Nat.lt_of_succ_lt_succ hfuel)]
      rfl

theorem stringOf_text (h : StringText text units) (rest : Bytes) :
    stringOf (text ++ rest) = some (units, rest) := by
  cases h with
  | @quoted body _ hbody =>
    have htext : (0x22 :: (body ++ [0x22])) ++ rest = 0x22 :: (body ++ 0x22 :: rest) := by
      rw [List.cons_append, List.append_assoc]
      rfl
    have hle := hbody.length_le
    rw [htext]
    change bodyOf (body ++ 0x22 :: rest).length (body ++ 0x22 :: rest) = _
    refine bodyOf_body hbody ?_ rest
    rw [List.length_append, List.length_cons]
    omega

theorem skipBlanks_append (hblanks : Blanks body) (hrest : rest.head?.any isBlank = false) :
    skipBlanks (body ++ rest) = rest := by
  rw [skipBlanks, List.dropWhile_append_of_pos hblanks]
  cases rest with
  | nil => rfl
  | cons c rest =>
    refine List.dropWhile_cons_of_neg fun hc => ?_
    exact Bool.noConfusion (hc.symm.trans hrest)

theorem StringText.head (h : StringText text units) : ∃ more, text = 0x22 :: more := by
  cases h with
  | quoted => exact ⟨_, rfl⟩

theorem StringText.head_not_blank (h : StringText text units) (rest : Bytes) :
    (text ++ rest).head?.any isBlank = false := by
  obtain ⟨more, rfl⟩ := h.head
  rfl

theorem memberOf_text (h : MemberText text m) (hrest : rest.head?.any isBlank = false) :
    memberOf (text ++ rest) = some (m, rest) := by
  cases h with
  | @pair first second third fourth key value k v hfirst hkey hsecond hthird hvalue hfourth =>
    simp only [List.append_assoc, List.cons_append]
    rw [memberOf, skipBlanks_append hfirst (hkey.head_not_blank _), stringOf_text hkey, Option.bind_some,
      skipBlanks_append hsecond rfl]
    change ((stringOf (skipBlanks (third ++ (value ++ (fourth ++ rest))))).map _) = _
    rw [skipBlanks_append hthird (hvalue.head_not_blank _), stringOf_text hvalue, Option.map_some,
      skipBlanks_append hfourth hrest]

theorem membersOf_text (h : MembersText text ms) {fuel : Nat} (hfuel : ms.length ≤ fuel) (rest : Bytes) :
    membersOf fuel (text ++ 0x7D :: rest) = some (ms, rest) := by
  induction h generalizing fuel with
  | one hmember =>
    cases fuel with
    | zero => exact absurd hfuel (Nat.not_succ_le_zero _)
    | succ fuel =>
      rw [membersOf, memberOf_text hmember rfl, Option.bind_some, if_neg]
      · rfl
      · exact fun h => absurd (Option.some.inj h) (by decide)
  | @more text more m ms hmember _ ih =>
    cases fuel with
    | zero => exact absurd hfuel (Nat.not_succ_le_zero _)
    | succ fuel =>
      rw [List.append_assoc, List.cons_append, membersOf, memberOf_text hmember rfl, Option.bind_some]
      refine (if_pos rfl).trans ?_
      rw [List.tail_cons, ih (Nat.le_of_succ_le_succ hfuel)]
      rfl

theorem MembersText.length_le (h : MembersText text ms) : ms.length ≤ text.length := by
  have hpos : ∀ {text : Bytes} {m : Member}, MemberText text m → 1 ≤ text.length := by
    intro text m hmember
    cases hmember with
    | pair _ hkey =>
      obtain ⟨more, rfl⟩ := hkey.head
      simp only [List.length_append, List.length_cons]
      omega
  induction h with
  | one hmember => exact hpos hmember
  | more hmember _ ih =>
    rw [List.length_append, List.length_cons, List.length_cons]
    omega

theorem MembersText.skipBlanks_eq (h : MembersText text ms) (rest : Bytes) :
    ∃ more, skipBlanks (text ++ rest) = 0x22 :: more := by
  have hmember : ∀ {text : Bytes} {m : Member} (rest : Bytes), MemberText text m →
      ∃ more, skipBlanks (text ++ rest) = 0x22 :: more := by
    intro text m rest hmember
    cases hmember with
    | @pair first second third fourth key value k v hfirst hkey =>
      rw [List.append_assoc, List.append_assoc, skipBlanks_append hfirst (hkey.head_not_blank _)]
      obtain ⟨more, rfl⟩ := hkey.head
      exact ⟨_, rfl⟩
  cases h with
  | one h => exact hmember rest h
  | more h =>
    rw [List.append_assoc]
    exact hmember _ h

theorem objectOf_text (h : ObjectText text ms) : objectOf text = some ms := by
  have hend : ∀ {third : Bytes}, Blanks third → skipBlanks third = [] := by
    intro third hthird
    have hskip := @skipBlanks_append third [] hthird rfl
    rwa [List.append_nil] at hskip
  cases h with
  | @empty first second third hfirst hsecond hthird =>
    have hcontent : contentOf (second ++ 0x7D :: third) = some ([], third) := by
      rw [contentOf, skipBlanks_append hsecond rfl]
      rfl
    rw [objectOf, skipBlanks_append hfirst rfl]
    change (contentOf (second ++ 0x7D :: third)).bind _ = _
    rw [hcontent, Option.bind_some, if_pos (hend hthird)]
  | @members first text third _ hfirst hmembers hthird =>
    have hcontent : contentOf (text ++ 0x7D :: third) = some (ms, third) := by
      obtain ⟨more, hskip⟩ := hmembers.skipBlanks_eq (0x7D :: third)
      have hnone : expect 0x7D (0x22 :: more) = none := rfl
      have hle := hmembers.length_le
      rw [contentOf, hskip, hnone]
      refine membersOf_text hmembers ?_ third
      rw [List.length_append]
      omega
    rw [objectOf, skipBlanks_append hfirst rfl]
    change (contentOf (text ++ 0x7D :: third)).bind _ = _
    rw [hcontent, Option.bind_some, if_pos (hend hthird)]

end

/-! ## What is parsed the grammar accepts -/

section

variable {text rest : Bytes} {unit : Nat} {units : List Nat} {m : Member} {ms : List Member}

theorem expect_eq_some_iff {c : UInt8} : expect c text = some rest ↔ text = c :: rest := by
  cases text with
  | nil => exact iff_of_false nofun nofun
  | cons b text =>
    have hhead : (b :: text).head? = some c ↔ b = c := Option.some_inj
    rw [expect, List.cons.injEq]
    by_cases hb : b = c
    · rw [if_pos (hhead.2 hb), List.tail_cons, Option.some_inj]
      exact (and_iff_right hb).symm
    · rw [if_neg fun h => hb (hhead.1 h)]
      exact iff_of_false nofun fun h => hb h.1

theorem skipBlanks_form (text : Bytes) : ∃ blanks, Blanks blanks ∧ text = blanks ++ skipBlanks text :=
  ⟨_, fun _ hb => List.mem_takeWhile_imp hb, List.takeWhile_append_dropWhile.symm⟩

theorem charOf_sound (h : charOf text = some (unit, rest)) :
    ∃ form, CharForm form unit ∧ text = form ++ rest := by
  cases text with
  | nil => cases h
  | cons c text =>
    rw [charOf] at h
    split_ifs at h with hplain hslash
    · cases h
      exact ⟨_, .plain hplain, rfl⟩
    · subst hslash
      cases text with
      | nil => cases h
      | cons e text =>
        rw [escapeOf] at h
        split_ifs at h with hunicode hdigits
        · cases h
          subst hunicode
          refine ⟨_, .unicode hdigits.1 (List.all_eq_true.1 hdigits.2), ?_⟩
          rw [List.cons_append, List.cons_append, List.take_append_drop]
        · obtain ⟨value, hvalue, heq⟩ := Option.map_eq_some_iff.1 h
          cases heq
          exact ⟨_, .escape hvalue, rfl⟩

theorem bodyOf_sound {fuel : Nat} (h : bodyOf fuel text = some (units, rest)) :
    ∃ body, StringBody body units ∧ text = body ++ 0x22 :: rest := by
  induction fuel generalizing text units with
  | zero => cases h
  | succ fuel ih =>
    rw [bodyOf] at h
    split_ifs at h with hquote
    · cases h
      exact ⟨[], .nil, (List.cons_head?_tail hquote).symm⟩
    · obtain ⟨⟨unit, back⟩, hchar, h⟩ := Option.bind_eq_some_iff.1 h
      obtain ⟨⟨more, rest'⟩, hbody, heq⟩ := Option.map_eq_some_iff.1 h
      cases heq
      obtain ⟨form, hform, rfl⟩ := charOf_sound hchar
      obtain ⟨body, hmore, rfl⟩ := ih hbody
      exact ⟨_, .cons hform hmore, (List.append_assoc ..).symm⟩

theorem stringOf_sound (h : stringOf text = some (units, rest)) :
    ∃ t, StringText t units ∧ text = t ++ rest := by
  obtain ⟨inner, hquote, h⟩ := Option.bind_eq_some_iff.1 h
  obtain ⟨body, hbody, rfl⟩ := bodyOf_sound h
  rw [expect_eq_some_iff] at hquote
  refine ⟨_, .quoted hbody, ?_⟩
  rw [hquote, List.cons_append, List.append_assoc]
  rfl

theorem memberOf_sound (h : memberOf text = some (m, rest)) : ∃ t, MemberText t m ∧ text = t ++ rest := by
  obtain ⟨⟨k, behindKey⟩, hkey, h⟩ := Option.bind_eq_some_iff.1 h
  obtain ⟨behindColon, hcolon, h⟩ := Option.bind_eq_some_iff.1 h
  obtain ⟨⟨v, behindValue⟩, hvalue, heq⟩ := Option.map_eq_some_iff.1 h
  cases heq
  obtain ⟨first, hfirst, htext⟩ := skipBlanks_form text
  obtain ⟨key, hkeyText, hkeyEq⟩ := stringOf_sound hkey
  obtain ⟨second, hsecond, hsecondEq⟩ := skipBlanks_form behindKey
  obtain ⟨third, hthird, hthirdEq⟩ := skipBlanks_form behindColon
  obtain ⟨value, hvalueText, hvalueEq⟩ := stringOf_sound hvalue
  obtain ⟨fourth, hfourth, hfourthEq⟩ := skipBlanks_form behindValue
  dsimp only at hcolon
  rw [expect_eq_some_iff] at hcolon
  refine ⟨_, .pair hfirst hkeyText hsecond hthird hvalueText hfourth, ?_⟩
  simp only [List.append_assoc, List.cons_append]
  rw [← hfourthEq, ← hvalueEq, ← hthirdEq, ← hcolon, ← hsecondEq, ← hkeyEq, ← htext]

theorem membersOf_sound {fuel : Nat} (h : membersOf fuel text = some (ms, rest)) :
    ∃ t, MembersText t ms ∧ text = t ++ 0x7D :: rest := by
  induction fuel generalizing text ms with
  | zero => cases h
  | succ fuel ih =>
    rw [membersOf] at h
    obtain ⟨⟨m, back⟩, hmember, hfound⟩ := Option.bind_eq_some_iff.1 h
    obtain ⟨t, ht, rfl⟩ := memberOf_sound hmember
    split_ifs at hfound with hcomma
    · obtain ⟨⟨more, rest'⟩, hmore, heq⟩ := Option.map_eq_some_iff.1 hfound
      cases heq
      obtain ⟨t', ht', htail⟩ := ih hmore
      refine ⟨_, .more ht ht', ?_⟩
      rw [List.append_assoc, List.cons_append, ← htail, List.cons_head?_tail hcomma]
    · obtain ⟨rest', hbrace, heq⟩ := Option.map_eq_some_iff.1 hfound
      cases heq
      exact ⟨t, .one ht, congrArg (t ++ ·) (expect_eq_some_iff.1 hbrace)⟩

theorem objectOf_sound (h : objectOf text = some ms) : ObjectText text ms := by
  obtain ⟨inner, hbrace, h⟩ := Option.bind_eq_some_iff.1 h
  obtain ⟨⟨ms', back⟩, hcontent, h⟩ := Option.bind_eq_some_iff.1 h
  split_ifs at h with hend
  cases h
  obtain ⟨first, hfirst, htext⟩ := skipBlanks_form text
  obtain ⟨third, hthird, hback⟩ := skipBlanks_form back
  rw [expect_eq_some_iff] at hbrace
  dsimp only at hend
  rw [hend, List.append_nil] at hback
  rw [htext, hbrace, hback]
  rw [contentOf] at hcontent
  cases hempty : expect 0x7D (skipBlanks inner) with
  | some rest =>
    rw [hempty] at hcontent
    cases hcontent
    obtain ⟨second, hsecond, hinner⟩ := skipBlanks_form inner
    rw [expect_eq_some_iff.1 hempty] at hinner
    rw [hinner]
    exact .empty hfirst hsecond (hback ▸ hthird)
  | none =>
    rw [hempty] at hcontent
    obtain ⟨t, ht, rfl⟩ := membersOf_sound hcontent
    exact .members hfirst ht (hback ▸ hthird)

theorem objectOf_eq_some_iff : objectOf text = some ms ↔ ObjectText text ms :=
  ⟨objectOf_sound, objectOf_text⟩

end

end SharedUtility.JsonText
