import SharedUtility.ConnectionStringParser.Code
import SharedUtility.Splitting

/-!
# StringTokenizer — the tokens of `STRING_TOKENIZER_get_next_token`

The start of a token is searched by position, its end delimiter by delimiter: the first one of the list
that stands anywhere behind the start ends the token, even where another one stands before it.

* `tokens` — what calls return until one fails,
* `EndsInOrder` — behind a run no delimiter stands that is earlier in the list than the one ending it.
-/

namespace SharedUtility.StringTokenizer

open Splitting

/-- What `STRING_TOKENIZER_get_next_token` returns when it is called until it fails. -/
def tokens (delimiters t : Bytes) : List Bytes :=
  match _h : stringTokenizerGetNextToken t delimiters true with
  | (none, _) => []
  | (some output, rest) => output :: tokens delimiters rest
termination_by t.length
decreasing_by exact stringTokenizerGetNextToken_shorter _h

/-- The delimiter that ends a run stands in the list before all those that come later in the text. -/
def EndsInOrder (delimiters t : Bytes) : Prop :=
  ∀ c d rest, c :: d :: rest <:+ t → c ∉ delimiters → d ∈ delimiters →
    ∀ e ∈ rest, e ∈ delimiters → delimiters.idxOf d ≤ delimiters.idxOf e

variable {delimiters t token rest skipped : Bytes} {c d e : UInt8}

/-! ## The order of the ends -/

theorem endsInOrder_nil : EndsInOrder delimiters [] := by
  intro c d rest hsuffix
  exact absurd (List.suffix_nil.1 hsuffix) (List.cons_ne_nil _ _)

theorem endsInOrder_cons :
    EndsInOrder delimiters (c :: t) ↔
      (c ∉ delimiters → ∀ d rest, t = d :: rest → d ∈ delimiters →
        ∀ e ∈ rest, e ∈ delimiters → delimiters.idxOf d ≤ delimiters.idxOf e) ∧
      EndsInOrder delimiters t := by
  constructor
  · intro h
    constructor
    · rintro hc d rest rfl
      exact h c d rest List.suffix_rfl hc
    · intro c' d rest hsuffix
      exact h c' d rest (hsuffix.trans (List.suffix_cons c t))
  · rintro ⟨hhead, htail⟩ c' d rest hsuffix hc
    rcases List.suffix_cons_iff.1 hsuffix with heq | hlater
    · rcases List.cons.inj heq with ⟨rfl, hrest⟩
      exact hhead hc d rest hrest.symm
    · exact htail c' d rest hlater hc

theorem endsInOrder_append (h : ∀ c ∈ skipped, c ∈ delimiters) :
    EndsInOrder delimiters (skipped ++ t) ↔ EndsInOrder delimiters t := by
  induction skipped with
  | nil => rfl
  | cons c skipped ih =>
    rw [List.forall_mem_cons] at h
    rw [List.cons_append, endsInOrder_cons, ih h.2]
    exact and_iff_right fun hc => absurd h.1 hc

theorem endsInOrder_run (hne : token ≠ []) (htoken : ∀ c ∈ token, c ∉ delimiters)
    (hd : d ∈ delimiters) :
    EndsInOrder delimiters (token ++ d :: rest) ↔
      (∀ e ∈ rest, e ∈ delimiters → delimiters.idxOf d ≤ delimiters.idxOf e) ∧
        EndsInOrder delimiters rest := by
  induction token with
  | nil => exact absurd rfl hne
  | cons c token ih =>
    rw [List.forall_mem_cons] at htoken
    rw [List.cons_append, endsInOrder_cons]
    cases token with
    | nil =>
      -- the last character of the run
      have hlater : EndsInOrder delimiters (d :: rest) ↔ EndsInOrder delimiters rest := by
        have hskip := @endsInOrder_append delimiters rest [d] fun c hc => by
          rw [List.mem_singleton.1 hc]
          exact hd
        exact hskip
      rw [List.nil_append, hlater]
      constructor
      · rintro ⟨hhead, htail⟩
        exact ⟨hhead htoken.1 d rest rfl hd, htail⟩
      · rintro ⟨hhead, htail⟩
        refine ⟨?_, htail⟩
        rintro - d' rest' heq -
        rcases List.cons.inj heq with ⟨rfl, rfl⟩
        exact hhead
    | cons c' token =>
      rw [ih (List.cons_ne_nil _ _) htoken.2]
      refine and_iff_right ?_
      rintro - d' rest' heq hd'
      rcases List.cons.inj heq with ⟨rfl, -⟩
      exact absurd hd' (htoken.2 c' (List.mem_cons_self ..))

theorem endsInOrder_last (htoken : ∀ c ∈ token, c ∉ delimiters) : EndsInOrder delimiters token := by
  intro c d rest hsuffix _ hd
  exact absurd hd (htoken d (hsuffix.mem (by simp)))

/-! ## The end of a token -/

/-- Where `endOfTokenPosition` points to, as a distance from the current position. -/
def endOfToken (delimiters currentPos : Bytes) : Option Nat :=
  delimiters.findSome? fun d => currentPos.idxOf? d

theorem endOfToken_append (htoken : ∀ c ∈ token, c ∉ delimiters) (behind : Bytes) :
    endOfToken delimiters (token ++ behind) =
      (endOfToken delimiters behind).map (· + token.length) := by
  unfold endOfToken
  induction delimiters with
  | nil => rfl
  | cons d delimiters ih =>
    have hd : token.idxOf? d = none := by
      rw [List.idxOf?_eq_none_iff]
      exact fun hmem => htoken d hmem (List.mem_cons_self ..)
    have hfirst : (token ++ behind).idxOf? d = (behind.idxOf? d).map (· + token.length) := by
      rw [List.idxOf?] at hd ⊢
      rw [List.findIdx?_append, hd, Option.none_or]
    rw [List.findSome?_cons, List.findSome?_cons, hfirst,
      ih fun c hc hmem => htoken c hc (List.mem_cons_of_mem _ hmem)]
    cases behind.idxOf? d with
    | none => rfl
    | some n => rfl

/-- The delimiter that stands first is the end, unless one comes later that is earlier in the list. -/
theorem endOfToken_cons (hd : d ∈ delimiters) :
    ∃ n, endOfToken delimiters (d :: rest) = some n ∧
      (n = 0 ↔ ∀ e ∈ rest, e ∈ delimiters → delimiters.idxOf d ≤ delimiters.idxOf e) := by
  unfold endOfToken
  induction delimiters with
  | nil => cases hd
  | cons x delimiters ih =>
    rw [List.findSome?_cons, List.idxOf?_cons]
    rcases eq_or_ne d x with rfl | hx
    · refine ⟨0, by rw [if_pos (beq_self_eq_true d)], ?_⟩
      rw [List.idxOf_cons_self]
      exact iff_of_true rfl fun _ _ _ => Nat.zero_le _
    · rw [if_neg (by simpa using hx), List.idxOf_cons_ne _ (Ne.symm hx)]
      cases hrest : rest.idxOf? x with
      | some n =>
        refine ⟨n + 1, rfl, ?_⟩
        have hmem : x ∈ rest := by
          by_contra hmem
          rw [List.idxOf?_eq_none_iff.2 hmem] at hrest
          cases hrest
        refine iff_of_false (Nat.succ_ne_zero n) fun h => ?_
        have hle := h x hmem (List.mem_cons_self ..)
        rw [List.idxOf_cons_self] at hle
        omega
      | none =>
        rw [List.idxOf?_eq_none_iff] at hrest
        rcases ih ((List.mem_cons.1 hd).resolve_left hx) with ⟨n, hn, hzero⟩
        refine ⟨n, hn, hzero.trans ?_⟩
        constructor
        · intro h e he hmem
          have hne : x ≠ e := fun heq => hrest (heq ▸ he)
          rw [List.idxOf_cons_ne _ hne]
          exact Nat.succ_le_succ (h e he ((List.mem_cons.1 hmem).resolve_left (Ne.symm hne)))
        · intro h e he hmem
          have hne : x ≠ e := fun heq => hrest (heq ▸ he)
          have hle := h e he (List.mem_cons_of_mem _ hmem)
          rw [List.idxOf_cons_ne _ hne] at hle
          exact Nat.le_of_succ_le_succ hle

/-! ## One call -/

theorem getNextToken_delimiters (h : ∀ c ∈ t, c ∈ delimiters) :
    (stringTokenizerGetNextToken t delimiters true).1 = none := by
  have hskipped : (t.dropWhile fun c => delimiters.contains c) = [] := by
    rw [List.dropWhile_eq_nil_iff]
    exact fun c hc => List.contains_iff_mem.2 (h c hc)
  unfold stringTokenizerGetNextToken
  split
  · rfl
  split
  · rfl
  dsimp only
  rw [hskipped, if_pos (by simp)]

theorem getNextToken_token (hdelimiters : delimiters ≠ []) (hskipped : ∀ c ∈ skipped, c ∈ delimiters)
    (hne : token ≠ []) (htoken : ∀ c ∈ token, c ∉ delimiters) (behind : Bytes) :
    stringTokenizerGetNextToken (skipped ++ (token ++ behind)) delimiters true =
      match endOfToken delimiters behind with
      | some n => (some ((token ++ behind).take (n + token.length)), behind.drop (n + 1))
      | none => (some (token ++ behind), []) := by
  have hpos : 0 < token.length := List.length_pos_iff.2 hne
  have hstart : ((skipped ++ (token ++ behind)).dropWhile fun c => delimiters.contains c) =
      token ++ behind := by
    rw [List.dropWhile_append_of_pos fun c hc => List.contains_iff_mem.2 (hskipped c hc)]
    cases token with
    | nil => exact absurd rfl hne
    | cons c token =>
      rw [List.cons_append, List.dropWhile_cons_of_neg]
      simpa using htoken c (List.mem_cons_self ..)
  unfold stringTokenizerGetNextToken
  rw [if_neg (by simp only [List.length_append]; omega),
    if_neg (by simpa using hdelimiters)]
  dsimp only
  rw [hstart, if_neg (by simp only [List.length_append]; omega), if_neg (by simp)]
  have hend := endOfToken_append htoken behind
  rw [endOfToken] at hend
  rw [hend]
  cases endOfToken delimiters behind with
  | none => simp
  | some n =>
    have hdrop : (token ++ behind).drop (n + token.length + 1) = behind.drop (n + 1) := by
      rw [List.drop_append, List.drop_of_length_le (by omega), List.nil_append]
      congr 1
      omega
    simp [hdrop]

/-! ## All calls -/

theorem tokens_delimiters (h : ∀ c ∈ t, c ∈ delimiters) : tokens delimiters t = [] := by
  have hnone := getNextToken_delimiters h
  rw [tokens]
  split
  · rfl
  · rename_i heq
    rw [heq] at hnone
    cases hnone

theorem tokens_token {output left : Bytes}
    (h : stringTokenizerGetNextToken t delimiters true = (some output, left)) :
    tokens delimiters t = output :: tokens delimiters left := by
  rw [tokens]
  split
  · rename_i heq
    rw [h] at heq
    cases heq
  · rename_i heq
    rw [h] at heq
    cases heq
    rfl

/-- The characters of a list of delimiters. -/
def isDelimiter (delimiters : Bytes) (c : UInt8) : Bool :=
  delimiters.contains c

theorem isDelimiter_true : isDelimiter delimiters c = true ↔ c ∈ delimiters :=
  List.contains_iff_mem

theorem isDelimiter_false : isDelimiter delimiters c = false ↔ c ∉ delimiters := by
  rw [← isDelimiter_true, Bool.not_eq_true]

/-- The tokens are the maximal non-empty runs of characters that are no delimiters. -/
def TokenizesRuns (delimiters t : Bytes) : Prop :=
  tokens delimiters t = runs (isDelimiter delimiters) t ∧
    ∀ output ∈ tokens delimiters t, ∀ d ∈ delimiters, d ∉ output

theorem tokens_eq_runs_iff (hdelimiters : delimiters ≠ []) (t : Bytes) :
    tokens delimiters t = runs (isDelimiter delimiters) t ↔ EndsInOrder delimiters t := by
  induction hn : t.length using Nat.strong_induction_on generalizing t with
  | _ n ih =>
    rcases runs_cases (isDelimiter delimiters) t with
      hall | ⟨skipped, token, behind, hskipped, hne, htoken, hbehind, rfl⟩
    · have hmem : ∀ c ∈ t, c ∈ delimiters := fun c hc => isDelimiter_true.1 (hall c hc)
      rw [tokens_delimiters hmem, runs_delimiters hall]
      have hskip := @endsInOrder_append delimiters [] t hmem
      rw [List.append_nil] at hskip
      exact iff_of_true rfl (hskip.2 endsInOrder_nil)
    · have hskipped' : ∀ c ∈ skipped, c ∈ delimiters := fun c hc => isDelimiter_true.1 (hskipped c hc)
      have htoken' : ∀ c ∈ token, c ∉ delimiters := fun c hc => isDelimiter_false.1 (htoken c hc)
      have hcall := getNextToken_token hdelimiters hskipped' hne htoken' behind
      rw [runs_append hskipped, endsInOrder_append hskipped']
      rcases hbehind with rfl | ⟨d, rest, rfl, hd⟩
      · -- the last token
        have hend : endOfToken delimiters [] = none := by
          rw [endOfToken, List.findSome?_eq_none_iff]
          exact fun _ _ => rfl
        rw [hend] at hcall
        rw [tokens_token hcall, tokens_delimiters (fun c hc => absurd hc List.not_mem_nil),
          List.append_nil, runs_last hne htoken]
        exact iff_of_true rfl (endsInOrder_last htoken')
      · rcases @endOfToken_cons delimiters rest d (isDelimiter_true.1 hd) with ⟨n, hend, hzero⟩
        rw [hend] at hcall
        rw [tokens_token hcall, runs_run hne htoken hd,
          endsInOrder_run hne htoken' (isDelimiter_true.1 hd), ← hzero]
        rcases Nat.eq_zero_or_pos n with rfl | hpos
        · -- the call ends the token where the run ends
          rw [Nat.zero_add, List.take_left, List.drop_succ_cons, List.drop_zero, List.cons.injEq,
            and_iff_right rfl, and_iff_right rfl]
          refine ih rest.length ?_ rest rfl
          simp only [← hn, List.length_append, List.length_cons]
          omega
        · -- the call takes more than the run
          refine iff_of_false (fun heq => ?_) (fun h => absurd h.1 (Nat.ne_of_gt hpos))
          have hlength := congrArg List.length (List.cons.inj heq).1
          simp only [List.length_take, List.length_append, List.length_cons] at hlength
          omega

/-- The calls return the runs of the text exactly if none of its runs ends with a delimiter behind which
an earlier one of the list stands. -/
theorem tokenizesRuns_iff (hdelimiters : delimiters ≠ []) (t : Bytes) :
    TokenizesRuns delimiters t ↔ EndsInOrder delimiters t := by
  rw [TokenizesRuns, tokens_eq_runs_iff hdelimiters]
  refine and_iff_left_of_imp fun h output houtput d hd hmem => ?_
  rw [← tokens_eq_runs_iff hdelimiters] at h
  rw [h] at houtput
  exact isDelimiter_false.1 (not_delimiter_of_mem_runs houtput hmem) hd

theorem tokenizesRuns_in_order : TokenizesRuns (ascii ";,") (ascii "a;b,c") := by
  have hlast : EndsInOrder (ascii ";,") (ascii "c") :=
    endsInOrder_last (forall_mem_of_all (by decide))
  have hcomma : EndsInOrder (ascii ";,") (ascii "b" ++ 0x2C :: ascii "c") :=
    (endsInOrder_run (by decide) (forall_mem_of_all (by decide)) (by decide)).2
      ⟨forall_mem_of_all (by decide), hlast⟩
  have hsemicolon : EndsInOrder (ascii ";,") (ascii "a" ++ 0x3B :: (ascii "b" ++ 0x2C :: ascii "c")) :=
    (endsInOrder_run (by decide) (forall_mem_of_all (by decide)) (by decide)).2
      ⟨forall_mem_of_all (by decide), hcomma⟩
  exact (tokenizesRuns_iff (by decide) _).2 hsemicolon

/-- The semicolon is searched first: the first token has the comma. -/
theorem token_over_comma : ¬ TokenizesRuns (ascii ";,") (ascii "a,b;c") := by
  rintro ⟨-, hfree⟩
  have hcall : stringTokenizerGetNextToken (ascii "a,b;c") (ascii ";,") true =
      (some (ascii "a,b"), ascii "c") := by decide
  exact hfree (ascii "a,b") (by rw [tokens_token hcall]; exact List.mem_cons_self ..) 0x2C
    (by decide) (by decide)

end SharedUtility.StringTokenizer
