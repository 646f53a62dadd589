import SharedUtility.StringToken.OnHeap
import SharedUtility.StringToken.Splits

/-!
# StringToken.AllOrNothing — when `StringToken_Split` gives all tokens or nothing

* `Walks` — the tokens that the searches find, as long as their memory is granted,
* `Holds` — what the outputs hold in the middle of the loop,
* `Request` — an allocation of the call, and whether it does harm when it is the first to be refused.

`StringToken_GetNext` returns false behind the last token and when a search fails; the array that is freed on
failure stays in `*tokens`.
-/

namespace SharedUtility.StringToken

open Splitting Memory

/-! ## Searches with any delimiters -/

/-- The delimiters that can stand in a text: NULL and the empty string delimit nothing. -/
def separators (delimiters : List (Option Bytes)) : List Bytes :=
  (delimiters.filterMap id).filter (· ≠ [])

theorem separators_ne_nil {delimiters : List (Option Bytes)} : ∀ d ∈ separators delimiters, d ≠ [] := by
  intro d hd
  simpa using (List.mem_filter.1 hd).2

theorem all_isSome (delimiters : List (Option Bytes)) :
    delimiters.all Option.isSome = decide (none ∉ delimiters) := by
  rw [Bool.eq_iff_iff, List.all_eq_true, decide_eq_true_eq]
  constructor
  · intro hall hnone
    exact Bool.false_ne_true (hall none hnone)
  · intro hnone delimiter hmem
    rw [Option.isSome_iff_ne_none]
    rintro rfl
    exact hnone hmem

theorem eq_map_some {delimiters : List (Option Bytes)} (h : none ∉ delimiters) :
    delimiters = (delimiters.filterMap id).map some := by
  induction delimiters with
  | nil => rfl
  | cons d delimiters ih =>
    rw [List.mem_cons, not_or] at h
    cases d with
    | none => exact absurd rfl h.1
    | some d =>
      have hmap : (some d :: delimiters).filterMap id = d :: delimiters.filterMap id := rfl
      rw [hmap, List.map_cons, ← ih h.2]

theorem getDelimitersLengths_null {delimiters : List (Option Bytes)} (h : none ∈ delimiters)
    (allocated : Bool) : getDelimitersLengths delimiters allocated = none := by
  have hnone : (delimiters.mapM fun delimiter : Option Bytes =>
      delimiter.map fun delimiter => (delimiter, delimiter.length)) = none := by
    induction delimiters with
    | nil => cases h
    | cons d delimiters ih =>
      rw [List.mapM_cons]
      cases d with
      | none => rfl
      | some d =>
        rw [ih ((List.mem_cons.1 h).resolve_left nofun)]
        rfl
  rw [getDelimitersLengths, hnone, ite_self]

theorem delimiterAt_nonempty (delimiters : List Bytes) (text : Bytes) :
    delimiterAt (withLengths delimiters) text =
      delimiterAt (withLengths (delimiters.filter (· ≠ []))) text := by
  induction delimiters with
  | nil => rfl
  | cons d delimiters ih =>
    unfold delimiterAt withLengths at ih ⊢
    by_cases hd : d = []
    · subst hd
      rw [List.map_cons, List.find?_cons_of_neg (by simp), List.filter_cons_of_neg (by simp)]
      exact ih
    · rw [List.filter_cons_of_pos (by simpa using hd), List.map_cons, List.map_cons]
      by_cases hfound : text.head? = d.head? ∧ 1 + sameCharacters d.tail text.tail = d.length
      · rw [List.find?_cons_of_pos (by simpa using hfound), List.find?_cons_of_pos (by simpa using hfound)]
      · rw [List.find?_cons_of_neg (by simpa using hfound), List.find?_cons_of_neg (by simpa using hfound)]
        exact ih

theorem scan_nonempty (delimiters : List Bytes) (text : Bytes) (currentPos : Nat) :
    scan (withLengths delimiters) text currentPos =
      scan (withLengths (delimiters.filter (· ≠ []))) text currentPos := by
  induction text generalizing currentPos with
  | nil => rfl
  | cons c text ih =>
    rw [scan, scan, delimiterAt_nonempty, ih]

theorem getNextToken_separators {delimiters : List (Option Bytes)} (h : none ∉ delimiters) (token : Token) :
    getNextToken token delimiters true = getNextToken token ((separators delimiters).map some) true := by
  have hmap := eq_map_some h
  have hleft : getDelimitersLengths delimiters true = some (withLengths (delimiters.filterMap id)) := by
    have heq := getDelimitersLengths_eq (delimiters.filterMap id)
    rwa [← hmap] at heq
  have hright := getDelimitersLengths_eq (separators delimiters)
  unfold getNextToken
  rw [hleft, hright]
  dsimp only
  rw [scan_nonempty]
  rfl

/-- The tokens that are found from one on, and the pieces they show. -/
inductive Walks (delimiters : List (Option Bytes)) : Token → List Bytes → Prop
  | last {token : Token} {shown : Bytes} {d : Option Bytes} : Shows token shown d →
      token.tokenStart ≠ none → token.delimiterStart = none → Walks delimiters token [shown]
  | next {token token' : Token} {shown : Bytes} {d : Option Bytes} {rest : List Bytes} :
      Shows token shown d → getNextToken token delimiters true = (0, token') →
        Walks delimiters token' rest → Walks delimiters token (shown :: rest)

theorem Walks.ne_nil {delimiters : List (Option Bytes)} {token : Token} {pieces : List Bytes}
    (h : Walks delimiters token pieces) : pieces ≠ [] := by
  cases h with
  | last _ _ _ => exact List.cons_ne_nil _ _
  | next _ _ _ => exact List.cons_ne_nil _ _

theorem walks_splits {delimiters : List (Option Bytes)} {separated : List Bytes} {token : Token}
    {front text : Bytes} (hne : ∀ d ∈ separated, d ≠ [])
    (hsearch : ∀ token, getNextToken token delimiters true =
      getNextToken token (separated.map some) true) (h : Next token front text) :
    ∃ token' pieces last, getNextToken token delimiters true = (0, token') ∧
      Splits separated text pieces last ∧ Walks delimiters token' (piecesAndLast pieces last) := by
  induction hlength : text.length using Nat.strongRecOn generalizing token front text with
  | ind length ih =>
    rw [hsearch token]
    rcases getNextToken_cases hne h with
      ⟨shown, d, rest, token', htoken, rfl, hfree, hd, hshows, hnext⟩ |
        ⟨token', htoken, hfree, hshows, hstart, hdelimiterStart⟩
    · have hpos := List.length_pos_of_ne_nil (hne d (startsWith_mem hd))
      simp only [List.length_append] at hlength
      rcases ih rest.length (by omega) hnext rfl with ⟨token'', pieces, last, htoken', hsplits, hwalks⟩
      exact ⟨token', (shown, d) :: pieces, last, htoken, .cut hfree hd hsplits,
        .next hshows htoken' hwalks⟩
    · exact ⟨token', [], text, htoken, .last hfree, .last hshows hstart hdelimiterStart⟩

theorem exists_splits {separated : List Bytes} (hne : ∀ d ∈ separated, d ≠ []) (text : Bytes) :
    ∃ pieces last, Splits separated text pieces last := by
  have hnext : Next { source := text } [] text := ⟨rfl, fun hended => hended.1 rfl, rfl⟩
  rcases walks_splits hne (fun _ => rfl) hnext with ⟨_, pieces, last, _, hsplits, _⟩
  exact ⟨pieces, last, hsplits⟩

/-! ## What the helpers leave allocated -/

namespace OnHeap

section

variable {before h : Heap Cell} {owned : List (Ptr × Cell)} {delimiters : List (Option Bytes)}
variable {token : Token} {allocations : Allocations}

theorem meets_newIf {granted : Bool} {cell : Cell} (ho : Owns before h owned)
    {Q : Ptr → Heap Cell → Prop}
    (hyes : granted = true → ∀ p h', Owns before h' ((p, cell) :: owned) → Q p h')
    (hno : granted = false → Q none h) : Meets (newIf granted cell) h Q := by
  cases granted with
  | true => exact meets_new_owned ho (hyes rfl)
  | false => exact meets_pure (hno rfl)

theorem getNextToken_meets (ho : Owns before h owned) (allocated : Bool) :
    Meets (getNextToken token delimiters allocated) h fun r h' =>
      r = StringToken.getNextToken token delimiters allocated ∧ Owns before h' owned := by
  unfold getNextToken
  split_ifs with hended
  · apply meets_pure
    rw [StringToken.getNextToken, if_pos hended]
    exact ⟨rfl, ho⟩
  · have hfails : ∀ h', StringToken.getDelimitersLengths delimiters allocated = none →
        Owns before h' owned →
          (failure, token) = StringToken.getNextToken token delimiters allocated ∧
            Owns before h' owned := by
      intro h' hnone ho'
      rw [StringToken.getNextToken, if_neg hended, hnone]
      exact ⟨rfl, ho'⟩
    apply Meets.bind
    unfold getDelimitersLengths
    apply Meets.bind
    apply meets_newIf ho
    case hno =>
      intro hrefused
      rw [if_neg (by simp)]
      apply meets_pure
      rw [if_pos rfl]
      apply meets_pure
      apply hfails _ _ ho
      rw [StringToken.getDelimitersLengths, if_pos hrefused]
    case hyes =>
      intro hgranted p h' ho'
      have hp := ho'.place_ne (List.mem_cons_self ..)
      by_cases hnull : none ∈ delimiters
      · rw [if_pos ⟨hp, hnull⟩]
        apply Meets.bind
        apply meets_free_owned ho'
        intro h'' ho'' _
        apply meets_pure
        rw [if_pos rfl]
        exact meets_pure (hfails _ (getDelimitersLengths_null hnull _) ho'')
      · rw [if_neg fun hboth => hnull hboth.2]
        apply meets_pure
        rw [if_neg hp]
        apply Meets.bind
        apply meets_free_owned ho'
        intro h'' ho'' _
        apply meets_pure
        rw [hgranted]
        exact ⟨rfl, ho''⟩

theorem stringTokenGetNext_meets (ho : Owns before h owned) (n : Nat) :
    Meets (stringTokenGetNext allocations n token (some delimiters)) h fun r h' =>
      r = StringToken.stringTokenGetNext allocations n token (some delimiters) ∧
        Owns before h' owned := by
  unfold stringTokenGetNext StringToken.stringTokenGetNext
  dsimp only
  by_cases hempty : delimiters.length = 0
  · rw [if_pos hempty, if_pos hempty]
    exact meets_pure ⟨rfl, ho⟩
  · rw [if_neg hempty, if_neg hempty]
    apply Meets.bind
    apply (getNextToken_meets ho _).mono
    rintro r h' ⟨rfl, ho'⟩
    exact meets_pure ⟨rfl, ho'⟩

theorem stringTokenGetFirst_meets (ho : Owns before h owned) (source : Bytes) :
    Meets (stringTokenGetFirst allocations (some source) (some delimiters)) h fun r h' =>
      r.map Prod.snd = StringToken.stringTokenGetFirst allocations (some source) (some delimiters) ∧
        Owns before h' ((r.map fun handle => (handle.1, Cell.tokenizer)).toList ++ owned) := by
  unfold stringTokenGetFirst StringToken.stringTokenGetFirst
  dsimp only
  by_cases hempty : delimiters.length = 0
  · rw [if_pos hempty, if_pos hempty]
    exact meets_pure ⟨rfl, ho⟩
  · rw [if_neg hempty, if_neg hempty]
    apply Meets.bind
    apply meets_newIf ho
    case hno =>
      intro hrefused
      rw [if_pos rfl, if_pos hrefused]
      exact meets_pure ⟨rfl, ho⟩
    case hyes =>
      intro hgranted p h' ho'
      rw [if_neg (ho'.place_ne (List.mem_cons_self ..)), if_neg (by rw [hgranted]; exact Bool.noConfusion)]
      apply Meets.bind
      apply (getNextToken_meets ho' _).mono
      rintro r h'' ⟨rfl, ho''⟩
      split_ifs with hfailed
      · apply Meets.bind
        apply meets_free_owned ho''
        intro h₃ ho₃ _
        exact meets_pure ⟨rfl, ho₃⟩
      · exact meets_pure ⟨rfl, ho''⟩

end

/-! ## The array and its copies -/

/-- The copies of the tokens; an empty one is NULL. -/
def copies (stored : List (Ptr × Option Bytes)) : List (Ptr × Cell) :=
  stored.filterMap fun e => e.2.map fun text => (e.1, .text (text ++ [0]))

/-- What is owned with the array, `spare` being the slots behind those that count. -/
def tokenCells (tokens : Ptr) (stored : List (Ptr × Option Bytes)) (spare : Region Ptr) :
    List (Ptr × Cell) :=
  if tokens = none then []
  else (tokens, .array (stored.map (fun e => some e.1) ++ spare)) :: copies stored

/-- The outputs hold these tokens, each NULL or a copy. -/
structure Holds (before h : Heap Cell) (owned : List (Ptr × Cell)) (outputs : Outputs)
    (stored : List (Ptr × Option Bytes)) (spare : Region Ptr) : Prop where
  count : outputs.tokenCount = stored.length
  array : outputs.tokens = none → stored = []
  nulls : ∀ e ∈ stored, e.2 = none → e.1 = none
  owns : Owns before h (tokenCells outputs.tokens stored spare ++ owned)

section

variable {before h : Heap Cell} {owned : List (Ptr × Cell)} {stored : List (Ptr × Option Bytes)}
variable {outputs : Outputs} {tokens p : Ptr} {spare slots : Region Ptr} {token : Token}
variable {shown : Bytes} {d : Option Bytes}

theorem copies_append (e : Ptr × Option Bytes) :
    copies (stored ++ [e]) = copies stored ++ copies [e] :=
  List.filterMap_append

theorem tokenCells_some (hp : tokens ≠ none) :
    tokenCells tokens stored spare =
      (tokens, .array (stored.map (fun e => some e.1) ++ spare)) :: copies stored :=
  if_neg hp

theorem readSlots_meets (ho : Owns before h owned) (hp : (p, Cell.array slots) ∈ owned)
    {Q : Region Ptr → Heap Cell → Prop} (hQ : Q slots h) : Meets (readSlots p) h Q := by
  apply Meets.bind
  apply meets_read_owned ho hp
  exact meets_pure hQ

theorem writeSlot_meets {i : Nat} {q : Ptr} (ho : Owns before h ((p, .array slots) :: owned))
    (hi : i < slots.length) {Q : Unit → Heap Cell → Prop}
    (hQ : ∀ h', Owns before h' ((p, .array (slots.set i (some q))) :: owned) → Q () h') :
    Meets (writeSlot p i q) h Q := by
  apply Meets.bind
  apply readSlots_meets ho (List.mem_cons_self ..)
  rw [if_pos hi]
  exact meets_write_owned ho hQ

theorem reallocSlots_meets (hh : Holds before h owned outputs stored []) (granted : Bool)
    {Q : Ptr → Heap Cell → Prop}
    (hyes : granted = true → ∀ p h', Owns before h'
      ((p, .array (stored.map (fun e => some e.1) ++ [none])) :: (copies stored ++ owned)) → Q p h')
    (hno : granted = false → Q none h) :
    Meets (reallocSlots granted outputs.tokens (outputs.tokenCount + 1)) h Q := by
  unfold reallocSlots
  cases granted with
  | false => exact meets_pure (hno rfl)
  | true =>
    rw [if_pos rfl]
    have ho := hh.owns
    by_cases hp : outputs.tokens = none
    · have hstored := hh.array hp
      have hcount := hh.count
      subst hstored
      rw [List.length_nil] at hcount
      rw [if_pos hp, hcount]
      rw [tokenCells, if_pos hp] at ho
      exact meets_new_owned ho (hyes rfl)
    · rw [if_neg hp]
      rw [tokenCells_some hp, List.append_nil] at ho
      apply Meets.bind
      apply readSlots_meets ho (List.mem_cons_self ..)
      apply Meets.bind
      apply meets_free_owned ho
      intro h' ho' _
      have hresized := resized_append (stored.map fun e => some e.1) 0 1
      rw [unwritten_zero, List.append_nil, List.length_map, ← hh.count] at hresized
      rw [hresized]
      exact meets_new_owned ho' (hyes rfl)

theorem set_last (xs : Region Ptr) (q : Ptr) {n : Nat} (hn : n = xs.length) :
    (xs ++ [none]).set n (some q) = xs ++ [some q] := by
  subst hn
  rw [List.set_append_right _ _ (Nat.le_refl _), Nat.sub_self]
  rfl

theorem storeToken_meets (hh : Holds before h owned outputs stored []) (hshows : Shows token shown d)
    (arrayGranted copyGranted : Bool) :
    Meets (storeToken arrayGranted copyGranted token outputs) h fun r h' =>
      (r.1 = 0 ∧ arrayGranted = true ∧ (shown = [] ∨ copyGranted = true) ∧ r.2.tokens ≠ none ∧
        ∃ p, Holds before h' owned r.2
          (stored ++ [(p, if shown = [] then none else some shown)]) []) ∨
      (r.1 ≠ 0 ∧ arrayGranted = true ∧ shown ≠ [] ∧ copyGranted = false ∧ r.2.tokens ≠ none ∧
        ∃ spare, Holds before h' owned r.2 stored spare) ∨
      (r.1 ≠ 0 ∧ arrayGranted = false ∧ r.2 = outputs ∧ Holds before h' owned outputs stored []) := by
  have hlast : (stored.map fun e : Ptr × Option Bytes => some e.1).length = outputs.tokenCount := by
    rw [List.length_map, hh.count]
  apply Meets.bind
  apply reallocSlots_meets hh
  case hno =>
    intro hrefused
    rw [if_pos rfl]
    exact meets_pure (.inr (.inr ⟨failure_ne_zero, hrefused, rfl, hh⟩))
  case hyes =>
    intro hgranted p h' ho
    have hp := ho.place_ne (List.mem_cons_self ..)
    have hroom : outputs.tokenCount + 1 - 1 <
        (stored.map (fun e : Ptr × Option Bytes => some e.1) ++ [none]).length := by
      rw [List.length_append, hlast]
      exact Nat.lt_succ_self _
    rw [if_neg hp]
    by_cases hempty : shown = []
    case pos =>
      rw [if_pos (by rw [hshows.length_eq, hempty]; rfl)]
      apply Meets.bind
      apply writeSlot_meets ho hroom
      intro h'' ho''
      rw [Nat.add_sub_cancel, set_last _ none hlast.symm] at ho''
      apply meets_pure
      refine .inl ⟨rfl, hgranted, .inl hempty, hp, none, ?_⟩
      rw [if_pos hempty]
      constructor
      case count =>
        rw [List.length_append, hh.count]
        rfl
      case array => exact fun hnone => absurd hnone hp
      case nulls =>
        intro e he hnull
        rcases List.mem_append.1 he with he | he
        · exact hh.nulls e he hnull
        · rw [List.mem_singleton.1 he]
      case owns =>
        rw [tokenCells_some hp, copies_append, List.map_append, List.append_nil]
        have hcopies : copies stored ++ copies [((none : Ptr), (none : Option Bytes))] = copies stored :=
          List.append_nil _
        rw [hcopies]
        exact ho''
    case neg =>
      have hpos := List.length_pos_of_ne_nil hempty
      rw [if_neg (by rw [hshows.length_eq]; omega)]
      apply Meets.bind
      apply meets_newIf ho
      case hno =>
        intro hrefused
        apply Meets.bind
        apply writeSlot_meets ho hroom
        intro h'' ho''
        rw [Nat.add_sub_cancel, set_last _ none hlast.symm] at ho''
        rw [if_pos rfl]
        apply meets_pure
        refine .inr (.inl ⟨failure_ne_zero, hgranted, hempty, hrefused, hp, [some none], ?_⟩)
        constructor
        case count => exact hh.count
        case array => exact fun hnone => absurd hnone hp
        case nulls => exact hh.nulls
        case owns =>
          rw [tokenCells_some hp]
          exact ho''
      case hyes =>
        intro hcopied q h'' ho''
        have hq := ho''.place_ne (List.mem_cons_self ..)
        apply Meets.bind
        apply writeSlot_meets (ho''.perm (List.Perm.swap ..)) hroom
        intro h₃ ho₃
        rw [Nat.add_sub_cancel, set_last _ q hlast.symm] at ho₃
        rw [if_neg hq]
        apply Meets.bind
        apply meets_write_owned (ho₃.perm (List.Perm.swap ..))
        intro h₄ ho₄
        apply meets_pure
        refine .inl ⟨rfl, hgranted, .inr hcopied, hp, q, ?_⟩
        rw [if_neg hempty]
        constructor
        case count =>
          rw [List.length_append, hh.count]
          rfl
        case array => exact fun hnone => absurd hnone hp
        case nulls =>
          intro e he hnull
          rcases List.mem_append.1 he with he | he
          · exact hh.nulls e he hnull
          · rw [List.mem_singleton.1 he] at hnull
            cases hnull
        case owns =>
          rw [tokenCells_some hp, copies_append, List.map_append, List.append_nil]
          rw [hshows.text_eq] at ho₄
          apply ho₄.perm
          apply (List.Perm.swap ..).trans
          apply List.Perm.cons
          change List.Perm _ (copies stored ++ [(q, Cell.text (shown ++ [0]))] ++ owned)
          rw [List.append_assoc]
          exact List.perm_middle.symm

theorem freeTokens_meets (hh : Holds before h owned outputs stored spare) :
    Meets (freeTokens outputs.tokens outputs.tokenCount) h fun r h' =>
      r = 0 ∧ Owns before h' owned ∧ (outputs.tokens ≠ none → h'.Freed outputs.tokens) := by
  rcases outputs with ⟨tokens, tokenCount⟩
  have hcount := hh.count
  dsimp only at hcount ⊢
  subst hcount
  induction stored using List.reverseRecOn generalizing h spare with
  | nil =>
    have ho := hh.owns
    apply Meets.bind
    by_cases hp : tokens = none
    · subst hp
      exact ⟨(), h, rfl, meets_pure ⟨rfl, ho, fun hne => absurd rfl hne⟩⟩
    · rw [tokenCells_some hp] at ho
      apply meets_free_owned ho
      intro h' ho' hfreed
      exact meets_pure ⟨rfl, ho', fun _ => hfreed⟩
  | append_singleton stored e ih =>
    have ho := hh.owns
    have hp : tokens ≠ none := by
      intro hnone
      cases List.append_eq_nil_iff.1 (hh.array hnone) with
      | intro _ hsingle => cases hsingle
    have hslots : (stored ++ [e]).map (fun e => some e.1) ++ spare =
        stored.map (fun e => some e.1) ++ (some e.1 :: spare) := by
      rw [List.map_append, List.append_assoc]
      rfl
    rw [tokenCells_some hp, hslots, copies_append] at ho
    rw [List.length_append, List.length_singleton, freeTokens, if_neg hp]
    have hslot : (stored.map (fun e => some e.1) ++ (some e.1 :: spare))[stored.length]? =
        some (some e.1) := by
      rw [List.getElem?_append_right (by rw [List.length_map]), List.length_map, Nat.sub_self]
      rfl
    apply Meets.bind
    apply Meets.bind
    apply readSlots_meets ho (List.mem_cons_self ..)
    rw [hslot]
    apply meets_pure
    apply Meets.bind
    -- what is left is held in the same array
    have hrest : ∀ h', Owns before h' ((tokens, .array (stored.map (fun e => some e.1) ++
        (some e.1 :: spare))) :: (copies stored ++ owned)) →
          Meets (freeTokens tokens stored.length) h' fun r h' =>
            r = 0 ∧ Owns before h' owned ∧ (tokens ≠ none → h'.Freed tokens) := by
      intro h' ho'
      apply ih
      constructor
      case count => rfl
      case array => exact fun hnone => absurd hnone hp
      case nulls => exact fun e he => hh.nulls e (List.mem_append_left _ he)
      case owns =>
        rw [tokenCells_some hp]
        exact ho'
    rcases e with ⟨q, text⟩
    cases text with
    | none =>
      have hq : q = none := hh.nulls (q, none) (List.mem_append_right _ (List.mem_singleton_self _)) rfl
      subst hq
      refine ⟨(), h, rfl, hrest h ?_⟩
      have hcopies : copies stored ++ copies [((none : Ptr), (none : Option Bytes))] = copies stored :=
        List.append_nil _
      rw [hcopies] at ho
      exact ho
    | some text =>
      have hperm : ((tokens, Cell.array (stored.map (fun e => some e.1) ++ (some q :: spare))) ::
          (copies stored ++ copies [(q, some text)]) ++ owned).Perm
            ((q, .text (text ++ [0])) :: (tokens, Cell.array (stored.map (fun e => some e.1) ++
              (some q :: spare))) :: (copies stored ++ owned)) := by
        apply List.Perm.trans _ (List.Perm.swap ..)
        apply List.Perm.cons
        change (copies stored ++ [(q, Cell.text (text ++ [0]))] ++ owned).Perm _
        rw [List.append_assoc]
        exact List.perm_middle
      apply meets_free_owned (ho.perm hperm)
      intro h' ho' _
      exact hrest h' ho'

/-- The text of a copy, without the NUL behind it. -/
def textAt (h : Heap Cell) (p : Ptr) : Option Bytes :=
  match h.cell p with
  | some (.text characters) => some characters.dropLast
  | _ => none

theorem Holds.texts (hh : Holds before h owned outputs stored spare) :
    stored.map Prod.snd = (stored.map Prod.fst).map (textAt h) := by
  rw [List.map_map]
  apply List.map_congr_left
  rintro ⟨p, text⟩ he
  have hp : outputs.tokens ≠ none := by
    intro hnone
    rw [hh.array hnone] at he
    cases he
  cases text with
  | none =>
    have hnull : p = none := hh.nulls _ he rfl
    subst hnull
    rfl
  | some text =>
    have hcopy : (p, Cell.text (text ++ [0])) ∈ copies stored := List.mem_filterMap.2 ⟨_, he, rfl⟩
    have ho := hh.owns
    rw [tokenCells_some hp] at ho
    have hcell := ho.holds _ (List.mem_append_left _ (List.mem_cons_of_mem _ hcopy))
    change some text = textAt h p
    rw [textAt, hcell]
    dsimp only
    rw [List.dropLast_concat]

theorem Holds.unique {stored' : List (Ptr × Option Bytes)} (hh : Holds before h owned outputs stored [])
    (hh' : Holds before h owned outputs stored' []) : stored.map Prod.snd = stored'.map Prod.snd := by
  by_cases hp : outputs.tokens = none
  · rw [hh.array hp, hh'.array hp]
  · have ho := hh.owns
    have ho' := hh'.owns
    rw [tokenCells_some hp] at ho ho'
    have hslots := ho.holds _ (List.mem_cons_self ..)
    rw [ho'.holds _ (List.mem_cons_self ..)] at hslots
    simp only [List.append_nil, Option.some.injEq, Cell.array.injEq] at hslots
    have hplaces : stored.map Prod.fst = stored'.map Prod.fst := by
      have hsome := congrArg (List.map fun slot : Option Ptr => slot.getD none) hslots
      simp only [List.map_map] at hsome
      exact hsome.symm
    rw [hh.texts, hh'.texts, hplaces]

end

/-! ## The allocations of a call -/

/-- An allocation, and whether a call in which it is the first to be refused does what it should. -/
structure Request where
  granted : Bool
  harmless : Bool

/-- The first allocation to be refused, if any, is harmless. -/
def FirstHarmless (requests : List Request) : Prop :=
  ∀ request, requests.find? (fun request => !request.granted) = some request →
    request.harmless = true

section

variable (allocations : Allocations) (includeEmpty : Bool)

/-- Those for a token: the array is NULL before the first one, and nothing has been allocated yet. -/
def storingRequests (n : Nat) (first : Bool) (shown : Bytes) : List Request :=
  if stored includeEmpty shown = [] then []
  else
    { granted := allocations.array n, harmless := first } ::
      if shown = [] then [] else [{ granted := allocations.copy n, harmless := false }]

/-- Those from a token on; the next one need not be found when there is nothing more to store. -/
def requestsFrom : (n : Nat) → (first : Bool) → List Bytes → List Request
  | _, _, [] => []
  | n, first, shown :: rest =>
    storingRequests allocations includeEmpty n first shown ++
      if rest.isEmpty then []
      else
        { granted := allocations.lengths (n + 1),
          harmless := decide (rest.flatMap (stored includeEmpty) = []) } ::
          requestsFrom (n + 1) (first && decide (stored includeEmpty shown = [])) rest

/-- All of them; the first search fails with a delimiter that is NULL, too. -/
def requests (delimiters : List (Option Bytes)) (pieces : List Bytes) : List Request :=
  let harmless := decide (pieces.flatMap (stored includeEmpty) = [])
  { granted := allocations.token, harmless := harmless } ::
    { granted := allocations.lengths 0 && delimiters.all Option.isSome, harmless := harmless } ::
      requestsFrom allocations includeEmpty 0 true pieces

end

section

variable {rs : List Request} {granted harmless : Bool}

theorem firstHarmless_nil : FirstHarmless [] :=
  nofun

theorem firstHarmless_granted (h : granted = true) :
    FirstHarmless ({ granted := granted, harmless := harmless } :: rs) ↔ FirstHarmless rs := by
  unfold FirstHarmless
  rw [List.find?_cons_of_neg (by simp [h])]

theorem firstHarmless_refused (h : granted = false) :
    FirstHarmless ({ granted := granted, harmless := harmless } :: rs) ↔ harmless = true := by
  unfold FirstHarmless
  rw [List.find?_cons_of_pos (by simp [h])]
  constructor
  · exact fun hall => hall _ rfl
  · rintro hharmless request ⟨rfl⟩
    exact hharmless

end

/-! ## The loop -/

section

variable {before h : Heap Cell} {owned : List (Ptr × Cell)} {held : List (Ptr × Option Bytes)}
variable {outputs : Outputs} {delimiters : List (Option Bytes)} {token : Token} {shown : Bytes}
variable {d : Option Bytes} {pieces : List Bytes} {allocations : Allocations} {includeEmpty : Bool}

theorem splitRound_meets (hh : Holds before h owned outputs held []) (hfirst : held = [] → outputs.tokens = none)
    (hshows : Shows token shown d) (n : Nat) :
    Meets (splitRound allocations includeEmpty n token outputs) h fun r h' =>
      (r.1 = 0 ∧ (∃ added, Holds before h' owned r.2 (held ++ added) [] ∧
          (held ++ added = [] → r.2.tokens = none) ∧
          added.map Prod.snd = stored includeEmpty shown) ∧
        ∀ rs, FirstHarmless (storingRequests allocations includeEmpty n (decide (held = [])) shown ++ rs) ↔
          FirstHarmless rs) ∨
      (r.1 ≠ 0 ∧ (∃ spare, Holds before h' owned r.2 held spare) ∧
        ∀ rs, FirstHarmless (storingRequests allocations includeEmpty n (decide (held = [])) shown ++ rs) ↔
          r.2.tokens = none) := by
  have hvalue := hshows.value_none_iff
  have hlength := hshows.length_eq
  have hexpected : ¬ ((stringTokenGetValue token ≠ none ∧ stringTokenGetLength token = 0) ∨
      (stringTokenGetValue token = none ∧ 0 < stringTokenGetLength token)) := by
    rw [hlength, ne_eq, hvalue, List.length_eq_zero_iff, List.length_pos_iff]
    tauto
  unfold splitRound
  rw [if_neg hexpected]
  have hkept : (stringTokenGetValue token ≠ none ∨ includeEmpty = true) ↔
      stored includeEmpty shown ≠ [] := by
    rw [ne_eq, hvalue, stored]
    by_cases hempty : shown = []
    · cases includeEmpty
      all_goals simp [hempty]
    · simp [hempty]
  by_cases hstored : stored includeEmpty shown = []
  case pos =>
    rw [if_neg fun hkeep => hkept.1 hkeep hstored]
    apply meets_pure
    refine .inl ⟨rfl, ⟨[], ?_, ?_, hstored.symm⟩, ?_⟩
    · rw [List.append_nil]
      exact hh
    · rw [List.append_nil]
      exact hfirst
    · intro rs
      rw [storingRequests, if_pos hstored, List.nil_append]
  case neg =>
    rw [if_pos (hkept.2 hstored)]
    have hrequests : ∀ rs, storingRequests allocations includeEmpty n (decide (held = [])) shown ++ rs =
        { granted := allocations.array n, harmless := decide (held = []) } ::
          ((if shown = [] then [] else [{ granted := allocations.copy n, harmless := false }]) ++ rs) := by
      intro rs
      rw [storingRequests, if_neg hstored, List.cons_append]
    apply (storeToken_meets hh hshows _ _).mono
    rintro r h' (⟨hzero, harray, hcopy, htokens, p, hh'⟩ |
      ⟨hfailed, harray, hshown, hcopy, htokens, hspare⟩ | ⟨hfailed, harray, hsame, hh'⟩)
    · refine .inl ⟨hzero, ⟨_, hh', fun hnil => ?_, ?_⟩, ?_⟩
      · exact absurd hnil (List.append_ne_nil_of_right_ne_nil _ (List.cons_ne_nil _ _))
      · by_cases hempty : shown = []
        · rw [stored, if_neg (not_not.2 hempty)] at hstored ⊢
          split_ifs at hstored ⊢ with hinclude
          · rfl
          · exact absurd rfl hstored
        · rw [stored, if_pos hempty, if_neg hempty]
          rfl
      · intro rs
        rw [hrequests, firstHarmless_granted harray]
        by_cases hempty : shown = []
        · rw [if_pos hempty, List.nil_append]
        · rw [if_neg hempty, List.singleton_append]
          exact firstHarmless_granted (hcopy.resolve_left hempty)
    · refine .inr ⟨hfailed, hspare, fun rs => ?_⟩
      rw [hrequests, firstHarmless_granted harray, if_neg hshown, List.singleton_append,
        firstHarmless_refused hcopy]
      exact ⟨by rintro ⟨⟩, fun hnone => absurd hnone htokens⟩
    · refine .inr ⟨hfailed, ⟨[], hsame ▸ hh'⟩, fun rs => ?_⟩
      rw [hrequests, firstHarmless_refused harray, decide_eq_true_eq, hsame]
      exact ⟨hfirst, hh.array⟩

/-- The loop stores the tokens up to the end, or up to a search that fails; or it fails where an allocation
for a token does. -/
theorem splitLoop_meets (hnil : delimiters ≠ []) (hwalks : Walks delimiters token pieces) {fuel : Nat}
    (hfuel : pieces.length ≤ fuel) (n : Nat) (hh : Holds before h owned outputs held [])
    (hfirst : held = [] → outputs.tokens = none) :
    Meets (splitLoop allocations (some delimiters) includeEmpty fuel n token outputs) h fun r h' =>
      (r.1 = 0 ∧ ∃ added, Holds before h' owned r.2 (held ++ added) [] ∧
        (FirstHarmless (requestsFrom allocations includeEmpty n (decide (held = [])) pieces) ↔
          added.map Prod.snd = pieces.flatMap (stored includeEmpty))) ∨
      (r.1 ≠ 0 ∧ (∃ held' spare, Holds before h' owned r.2 held' spare) ∧
        (FirstHarmless (requestsFrom allocations includeEmpty n (decide (held = [])) pieces) ↔
          r.2.tokens = none)) := by
  have hlength : ¬ delimiters.length = 0 := fun hzero => hnil (List.length_eq_zero_iff.1 hzero)
  induction hwalks generalizing h outputs held fuel n with
  | last hshows hstart hended =>
    rename_i token shown d
    obtain ⟨fuel, rfl⟩ : ∃ k, fuel = k + 1 := ⟨fuel - 1, by simp at hfuel; omega⟩
    have hrequests : requestsFrom allocations includeEmpty n (decide (held = [])) [shown] =
        storingRequests allocations includeEmpty n (decide (held = [])) shown ++ [] := rfl
    rw [hrequests, splitLoop]
    apply Meets.bind
    apply (splitRound_meets hh hfirst hshows n).mono
    rintro r h' (⟨hzero, ⟨added, hheld, -, hadded⟩, hharmless⟩ | ⟨hfailed, ⟨spare, hheld⟩, hharmless⟩)
    case inr =>
      rw [if_pos hfailed]
      exact meets_pure (.inr ⟨hfailed, ⟨_, spare, hheld⟩, hharmless []⟩)
    case inl =>
      rw [if_neg (not_not.2 hzero)]
      apply Meets.bind
      apply (stringTokenGetNext_meets hheld.owns (n + 1)).mono
      rintro _ h'' ⟨rfl, ho''⟩
      have hnext : (StringToken.stringTokenGetNext allocations (n + 1) token (some delimiters)).1 =
          false := by
        simp only [StringToken.stringTokenGetNext, if_neg hlength, getNextToken_ended hstart hended]
        rfl
      rw [if_neg (by rw [hnext]; exact Bool.noConfusion)]
      apply meets_pure
      refine .inl ⟨rfl, added, ⟨hheld.count, hheld.array, hheld.nulls, ho''⟩, ?_⟩
      rw [hharmless, List.flatMap_cons, List.flatMap_nil, List.append_nil]
      exact ⟨fun _ => hadded, fun _ => firstHarmless_nil⟩
  | next hshows hfound hrest ih =>
    rename_i token token' shown d rest
    obtain ⟨fuel, rfl⟩ : ∃ k, fuel = k + 1 := ⟨fuel - 1, by simp at hfuel; omega⟩
    have hmore : rest.isEmpty = false := List.isEmpty_eq_false_iff.2 hrest.ne_nil
    have hrequests : requestsFrom allocations includeEmpty n (decide (held = [])) (shown :: rest) =
        storingRequests allocations includeEmpty n (decide (held = [])) shown ++
          ({ granted := allocations.lengths (n + 1),
             harmless := decide (rest.flatMap (stored includeEmpty) = []) } ::
            requestsFrom allocations includeEmpty (n + 1)
              (decide (held = []) && decide (stored includeEmpty shown = [])) rest) := by
      rw [requestsFrom, hmore]
      rfl
    rw [hrequests, splitLoop]
    apply Meets.bind
    apply (splitRound_meets hh hfirst hshows n).mono
    rintro r h' (⟨hzero, ⟨added, hheld, hfirst', hadded⟩, hharmless⟩ |
      ⟨hfailed, ⟨spare, hheld⟩, hharmless⟩)
    case inr =>
      rw [if_pos hfailed]
      exact meets_pure (.inr ⟨hfailed, ⟨_, spare, hheld⟩, hharmless _⟩)
    case inl =>
      rw [if_neg (not_not.2 hzero), hharmless]
      apply Meets.bind
      apply (stringTokenGetNext_meets hheld.owns (n + 1)).mono
      rintro _ h'' ⟨rfl, ho''⟩
      have hheld'' : Holds before h'' owned r.2 (held ++ added) [] :=
        ⟨hheld.count, hheld.array, hheld.nulls, ho''⟩
      have hnone : held ++ added = [] ↔ held = [] ∧ stored includeEmpty shown = [] := by
        rw [List.append_eq_nil_iff, ← hadded, List.map_eq_nil_iff]
      cases hgranted : allocations.lengths (n + 1) with
      | false =>
        -- the search fails, as it does behind the last token
        have hnext : (StringToken.stringTokenGetNext allocations (n + 1) token
            (some delimiters)).1 = false := by
          have hfails : StringToken.getNextToken token delimiters false = (failure, token) := by
            rw [StringToken.getNextToken, StringToken.getDelimitersLengths, if_pos rfl, ite_self]
          simp only [StringToken.stringTokenGetNext, if_neg hlength, hgranted, hfails]
          rfl
        rw [if_neg (by rw [hnext]; exact Bool.noConfusion)]
        apply meets_pure
        refine .inl ⟨rfl, added, hheld'', ?_⟩
        rw [firstHarmless_refused rfl, decide_eq_true_eq, hadded, List.flatMap_cons,
          List.self_eq_append_right]
      | true =>
        have hnext : StringToken.stringTokenGetNext allocations (n + 1) token (some delimiters) =
            (true, token') := by
          simp only [StringToken.stringTokenGetNext, if_neg hlength, hgranted, hfound]
          rfl
        rw [hnext, if_pos rfl, firstHarmless_granted rfl]
        have hdecide : (decide (held = []) && decide (stored includeEmpty shown = [])) =
            decide (held ++ added = []) := by
          rw [← Bool.decide_and]
          exact decide_eq_decide.2 hnone.symm
        rw [hdecide]
        apply (ih (by simp at hfuel; omega) (n + 1) hheld'' hfirst').mono
        rintro r' h₃ (⟨hzero', more, hheld₃, hiff⟩ | hfailed)
        · refine .inl ⟨hzero', added ++ more, ?_, ?_⟩
          · rw [← List.append_assoc]
            exact hheld₃
          · rw [hiff, List.map_append, List.flatMap_cons, hadded, List.append_cancel_left_eq]
        · exact .inr hfailed

end

/-! ## A call -/

/-- The pieces of a text. -/
def Cuts (delimiters : List (Option Bytes)) (text : Bytes) (pieces : List Bytes) : Prop :=
  ∃ cut last, Splits (separators delimiters) text cut last ∧ pieces = piecesAndLast cut last

theorem exists_cuts (delimiters : List (Option Bytes)) (text : Bytes) :
    ∃ pieces, Cuts delimiters text pieces := by
  rcases exists_splits (@separators_ne_nil delimiters) text with ⟨cut, last, hsplits⟩
  exact ⟨_, cut, last, hsplits, rfl⟩

theorem Cuts.unique {delimiters : List (Option Bytes)} {text : Bytes} {pieces pieces' : List Bytes}
    (h : Cuts delimiters text pieces) (h' : Cuts delimiters text pieces') : pieces = pieces' := by
  rcases h with ⟨cut, last, hsplits, rfl⟩
  rcases h' with ⟨cut', last', hsplits', rfl⟩
  rcases hsplits.unique separators_ne_nil hsplits' with ⟨rfl, rfl⟩
  rfl

/-- The outputs are the complete split of the source: its pieces, an empty one as NULL or not at all. -/
def CompleteSplit (source : Option Bytes) (delimiters : Option (List (Option Bytes)))
    (includeEmpty : Bool) (before after : Heap Cell) (outputs : Outputs) : Prop :=
  ∃ text entries pieces held, source = some text ∧ delimiters = some entries ∧
    Cuts entries text pieces ∧ held.map Prod.snd = pieces.flatMap (stored includeEmpty) ∧
    Holds before after [] outputs held []

/-- The call returns, with the complete split or with nothing. -/
def AllOrNothing (source : Option Bytes) (delimiters : Option (List (Option Bytes)))
    (includeEmpty : Bool) (before : Heap Cell)
    (result : Option ((Int × Outputs) × Heap Cell)) : Prop :=
  ∃ code outputs after, result = some ((code, outputs), after) ∧
    (code = 0 → CompleteSplit source delimiters includeEmpty before after outputs) ∧
    (code ≠ 0 → outputs.tokenCount = 0 ∧ ¬ after.Freed outputs.tokens ∧ Owns before after [])

/-- A call with a source and delimiters goes through its allocations until the first one is refused, which
must be harmless; any other call leaves the outputs as they are. -/
def Harmless (allocations : Allocations) (source : Option Bytes)
    (delimiters : Option (List (Option Bytes))) (includeEmpty : Bool) (before : Heap Cell)
    (outputs : Outputs) : Prop :=
  match source, delimiters with
  | some text, some (d :: entries) =>
    ∃ pieces, Cuts (d :: entries) text pieces ∧
      FirstHarmless (requests allocations includeEmpty (d :: entries) pieces)
  | _, _ => outputs.tokenCount = 0 ∧ ¬ before.Freed outputs.tokens

section

variable {before after : Heap Cell} {code : Int} {allocations : Allocations} {source : Option Bytes}
variable {outputs : Outputs} {includeEmpty : Bool} {delimiters : Option (List (Option Bytes))}
variable {text : Bytes} {entries : List (Option Bytes)} {pieces : List Bytes}

theorem allOrNothing_some :
    AllOrNothing source delimiters includeEmpty before (some ((code, outputs), after)) ↔
      (code = 0 → CompleteSplit source delimiters includeEmpty before after outputs) ∧
      (code ≠ 0 → outputs.tokenCount = 0 ∧ ¬ after.Freed outputs.tokens ∧ Owns before after []) := by
  constructor
  · rintro ⟨code', outputs', after', heq, hboth⟩
    cases heq
    exact hboth
  · exact fun hboth => ⟨code, outputs, after, rfl, hboth⟩

theorem allOrNothing_rejected :
    AllOrNothing source delimiters includeEmpty before (some ((failure, outputs), before)) ↔
      outputs.tokenCount = 0 ∧ ¬ before.Freed outputs.tokens := by
  rw [allOrNothing_some]
  constructor
  · rintro ⟨-, hnothing⟩
    exact ⟨(hnothing failure_ne_zero).1, (hnothing failure_ne_zero).2.1⟩
  · rintro ⟨hcount, hfreed⟩
    exact ⟨fun hzero => absurd hzero failure_ne_zero, fun _ => ⟨hcount, hfreed, Owns.nil before⟩⟩

theorem allOrNothing_stored {held : List (Ptr × Option Bytes)} (hcuts : Cuts entries text pieces)
    (hh : Holds before after [] outputs held []) :
    AllOrNothing (some text) (some entries) includeEmpty before (some ((0, outputs), after)) ↔
      held.map Prod.snd = pieces.flatMap (stored includeEmpty) := by
  rw [allOrNothing_some]
  constructor
  · rintro ⟨hcomplete, -⟩
    rcases hcomplete rfl with ⟨text', entries', pieces', held', htext, hentries, hcuts', hheld', hh'⟩
    cases htext
    cases hentries
    rw [hcuts.unique hcuts', ← hheld']
    exact hh.unique hh'
  · exact fun hheld => ⟨fun _ => ⟨text, entries, pieces, held, rfl, rfl, hcuts, hheld, hh⟩,
      fun hne => absurd rfl hne⟩

theorem first_found (hentries : entries ≠ []) (htoken : allocations.token = true)
    (hlengths : (allocations.lengths 0 && decide (none ∉ entries)) = true) (text : Bytes) :
    ∃ token pieces, StringToken.stringTokenGetFirst allocations (some text) (some entries) =
        some token ∧
      Cuts entries text pieces ∧ Walks entries token pieces ∧ pieces.length ≤ text.length + 1 := by
  rw [Bool.and_eq_true, decide_eq_true_eq] at hlengths
  have hnext : Next { source := text } [] text := ⟨rfl, fun hended => hended.1 rfl, rfl⟩
  rcases walks_splits separators_ne_nil (getNextToken_separators hlengths.2) hnext with
    ⟨token, cut, last, hfound, hsplits, hwalks⟩
  refine ⟨token, _, ?_, ⟨cut, last, hsplits, rfl⟩, hwalks, ?_⟩
  · have hlength : ¬ entries.length = 0 := fun hzero => hentries (List.length_eq_zero_iff.1 hzero)
    simp only [StringToken.stringTokenGetFirst, if_neg hlength, htoken, hlengths.1, hfound]
    rfl
  · rw [piecesAndLast, List.length_append, List.length_map]
    exact Nat.succ_le_succ (hsplits.length_le separators_ne_nil)

theorem first_refused (h : allocations.token = false ∨
    (allocations.lengths 0 && decide (none ∉ entries)) = false) (text : Bytes) :
    StringToken.stringTokenGetFirst allocations (some text) (some entries) = none := by
  unfold StringToken.stringTokenGetFirst
  dsimp only
  split_ifs with hlength htoken hfailed
  · rfl
  · rfl
  · rfl
  · exfalso
    apply hfailed
    have hlengths := h.resolve_left htoken
    have hnone : StringToken.getDelimitersLengths entries (allocations.lengths 0) = none := by
      by_cases hnull : none ∈ entries
      · exact getDelimitersLengths_null hnull _
      · rw [decide_eq_true hnull, Bool.and_true] at hlengths
        rw [StringToken.getDelimitersLengths, if_pos hlengths]
    rw [StringToken.getNextToken, if_neg (fun hended => hended.1 rfl), hnone]
    exact failure_ne_zero

theorem freed_nothing {h : Heap Cell} {held : List (Ptr × Option Bytes)} {spare : Region Ptr}
    (hh : Holds before h [] outputs held spare) (hcode : code ≠ 0) :
    Meets (freeTokens outputs.tokens outputs.tokenCount) h fun r h' =>
      (AllOrNothing source delimiters includeEmpty before (some ((code, ⟨outputs.tokens, r⟩), h')) ↔
        outputs.tokens = none) := by
  apply (freeTokens_meets hh).mono
  rintro r h' ⟨rfl, ho, hfreed⟩
  rw [allOrNothing_some]
  constructor
  · rintro ⟨-, hnothing⟩
    by_contra hne
    exact (hnothing hcode).2.1 (hfreed hne)
  · intro hnone
    refine ⟨fun hzero => absurd hzero hcode, fun _ => ⟨rfl, ?_, ho⟩⟩
    rw [hnone]
    exact Heap.not_freed_none

theorem stringTokenSplit_eq (hentries : entries ≠ []) :
    stringTokenSplit allocations (some text) (some entries) includeEmpty outputs = (do
      let tokenizer ← stringTokenGetFirst allocations (some text) (some entries)
      match tokenizer with
      | none => pure (0, ⟨none, 0⟩)
      | some (handle, token) => do
        let r ← splitLoop allocations (some entries) includeEmpty (text.length + 1) 0 token ⟨none, 0⟩
        free handle
        if r.1 ≠ 0 then do
          let tokenCount ← freeTokens r.2.tokens r.2.tokenCount
          pure (r.1, ⟨r.2.tokens, tokenCount⟩)
        else pure r) := by
  cases entries with
  | nil => exact absurd rfl hentries
  | cons d rest => rfl

theorem stringTokenSplit_meets (hentries : entries ≠ []) (hcuts : Cuts entries text pieces) :
    Meets (stringTokenSplit allocations (some text) (some entries) includeEmpty outputs) before
      fun r after => (AllOrNothing (some text) (some entries) includeEmpty before (some (r, after)) ↔
        FirstHarmless (requests allocations includeEmpty entries pieces)) := by
  rw [stringTokenSplit_eq hentries]
  apply Meets.bind
  apply (stringTokenGetFirst_meets (Owns.nil before) text).mono
  rintro r h ⟨hr, ho⟩
  by_cases hgranted : allocations.token = true ∧
      (allocations.lengths 0 && decide (none ∉ entries)) = true
  case neg =>
    have hrefused : allocations.token = false ∨
        (allocations.lengths 0 && decide (none ∉ entries)) = false := by
      rw [not_and_or, Bool.not_eq_true, Bool.not_eq_true] at hgranted
      exact hgranted
    rw [first_refused hrefused, Option.map_eq_none_iff] at hr
    subst hr
    apply meets_pure
    have hh : Holds before h [] ⟨none, 0⟩ [] [] := ⟨rfl, fun _ => rfl, by rintro _ ⟨⟩, ho⟩
    rw [allOrNothing_stored hcuts hh, requests, all_isSome]
    have hnothing : decide (pieces.flatMap (stored includeEmpty) = []) = true ↔
        ([] : List (Ptr × Option Bytes)).map Prod.snd = pieces.flatMap (stored includeEmpty) := by
      rw [decide_eq_true_eq]
      exact eq_comm
    rw [← hnothing]
    rcases Bool.eq_false_or_eq_true allocations.token with htoken | htoken
    · rw [firstHarmless_granted htoken, firstHarmless_refused (hrefused.resolve_left (by simp [htoken]))]
    · rw [firstHarmless_refused htoken]
  case pos =>
    rcases first_found hentries hgranted.1 hgranted.2 text with
      ⟨token, pieces', hfirst, hcuts', hwalks, hlength⟩
    rw [hcuts'.unique hcuts] at hwalks hlength
    rw [hfirst, Option.map_eq_some_iff] at hr
    rcases hr with ⟨⟨handle, _⟩, rfl, rfl⟩
    have hh : Holds before h [(handle, .tokenizer)] ⟨none, 0⟩ [] [] := ⟨rfl, fun _ => rfl, by rintro _ ⟨⟩, ho⟩
    rw [requests, all_isSome, firstHarmless_granted hgranted.1, firstHarmless_granted hgranted.2]
    apply Meets.bind
    apply (splitLoop_meets hentries hwalks hlength 0 hh fun _ => rfl).mono
    rintro r h' (⟨hzero, held, hheld, hiff⟩ | ⟨hfailed, ⟨held, spare, hheld⟩, hiff⟩)
    · rcases r with ⟨code, outputs⟩
      dsimp only at hzero
      subst hzero
      apply Meets.bind
      apply meets_free_owned (hheld.owns.perm (List.perm_append_singleton _ _))
      intro h'' ho'' _
      rw [if_neg (by simp)]
      apply meets_pure
      have hh'' : Holds before h'' [] outputs held [] :=
        ⟨hheld.count, hheld.array, hheld.nulls, by rw [List.append_nil]; exact ho''⟩
      rw [allOrNothing_stored hcuts hh'']
      exact hiff.symm
    · apply Meets.bind
      apply meets_free_owned (hheld.owns.perm (List.perm_append_singleton _ _))
      intro h'' ho'' _
      rw [if_pos hfailed]
      have hh'' : Holds before h'' [] r.2 held spare :=
        ⟨hheld.count, hheld.array, hheld.nulls, by rw [List.append_nil]; exact ho''⟩
      apply Meets.bind
      apply (freed_nothing hh'' hfailed).mono
      intro tokenCount h₃ hfreed
      exact meets_pure (hfreed.trans hiff.symm)

end

/-- `StringToken_Split` gives all tokens or nothing exactly when the first allocation that is refused, if any,
is harmless; a call that is rejected must find no token counted, and no freed memory, in its outputs. -/
theorem allOrNothing_iff (allocations : Allocations) (source : Option Bytes)
    (delimiters : Option (List (Option Bytes))) (includeEmpty : Bool) (outputs : Outputs)
    (before : Heap Cell) :
    AllOrNothing source delimiters includeEmpty before
        (stringTokenSplit allocations source delimiters includeEmpty outputs before) ↔
      Harmless allocations source delimiters includeEmpty before outputs := by
  cases source with
  | none => exact allOrNothing_rejected
  | some text =>
    cases delimiters with
    | none => exact allOrNothing_rejected
    | some entries =>
      cases entries with
      | nil => exact allOrNothing_rejected
      | cons d entries =>
        rcases exists_cuts (d :: entries) text with ⟨pieces, hcuts⟩
        have hharmless : Harmless allocations (some text) (some (d :: entries)) includeEmpty before
            outputs ↔ FirstHarmless (requests allocations includeEmpty (d :: entries) pieces) := by
          constructor
          · rintro ⟨pieces', hcuts', hfirst⟩
            rw [hcuts.unique hcuts']
            exact hfirst
          · exact fun hfirst => ⟨pieces, hcuts, hfirst⟩
        rw [hharmless]
        rcases stringTokenSplit_meets (List.cons_ne_nil _ _) hcuts with ⟨r, h', hresult, hiff⟩
        rw [hresult]
        exact hiff

/-- The copy of the token cannot be allocated, and the array that has been freed is in the output. -/
theorem split_leaves_freed_array :
    ¬ AllOrNothing (some (ascii "a")) (some [some (ascii ",")]) false {}
      (stringTokenSplit { copy := fun _ => false } (some (ascii "a")) (some [some (ascii ",")]) false
        ⟨none, 0⟩ {}) := by
  have hrun : stringTokenSplit { copy := fun _ => false } (some (ascii "a")) (some [some (ascii ",")])
      false ⟨none, 0⟩ {} = some ((failure, ⟨some 2, 0⟩), { cells := [none, none, none] }) := rfl
  rw [hrun, allOrNothing_some]
  rintro ⟨-, hnothing⟩
  exact (hnothing failure_ne_zero).2.1 ⟨2, rfl, rfl⟩

end OnHeap

end SharedUtility.StringToken
