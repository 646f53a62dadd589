import SharedUtility.StringToken.Code

/-!
# StringToken.Splits — the tokens are the pieces of the source

`scan` finds the leftmost delimiter, and a token shows the piece in front of it (`Shows`); from the first
token on the pieces follow one another, until the one that ends at the end of the source.
-/

namespace SharedUtility.StringToken

open Splitting

/-! ## Searching -/

section

variable {delimiters : List Bytes} {source text d : Bytes} {start currentPos : Nat}

/-- The delimiters as the search has them, with their lengths. -/
def withLengths (delimiters : List Bytes) : List (Bytes × Nat) :=
  delimiters.map fun d => (d, d.length)

theorem getDelimitersLengths_eq (delimiters : List Bytes) :
    getDelimitersLengths (delimiters.map some) true = some (withLengths delimiters) := by
  have hmap : ∀ delimiters : List Bytes,
      ((delimiters.map some).mapM fun delimiter : Option Bytes =>
        delimiter.map fun delimiter => (delimiter, delimiter.length)) =
          some (withLengths delimiters) := by
    intro delimiters
    induction delimiters with
    | nil => rfl
    | cons d delimiters ih =>
      rw [List.map_cons, List.mapM_cons, ih]
      rfl
  exact hmap delimiters

theorem sameCharacters_eq (delimiter source : Bytes) :
    sameCharacters delimiter source = delimiter.length ↔ delimiter <+: source := by
  induction delimiter generalizing source with
  | nil => simp [sameCharacters]
  | cons c delimiter ih =>
    cases source with
    | nil => simp [sameCharacters]
    | cons c' source =>
      rw [sameCharacters, List.cons_prefix_cons, ← ih source]
      split_ifs with hc
      · simp [hc]
      · simp [Ne.symm hc]

theorem delimiterAt_eq (hne : ∀ d ∈ delimiters, d ≠ []) (c : UInt8) (text : Bytes) :
    delimiterAt (withLengths delimiters) (c :: text) = startsWith delimiters (c :: text) := by
  induction delimiters with
  | nil => rfl
  | cons d delimiters ih =>
    have hrest := ih fun d hd => hne d (List.mem_cons_of_mem _ hd)
    rcases d with _ | ⟨c', d⟩
    · exact absurd rfl (hne [] (List.mem_cons_self ..))
    have hsame : (some c = some c' ∧ 1 + sameCharacters d text = d.length + 1) ↔
        (c' :: d) <+: (c :: text) := by
      rw [List.cons_prefix_cons, ← sameCharacters_eq, Option.some.injEq]
      constructor
      · rintro ⟨rfl, hlength⟩
        exact ⟨rfl, by omega⟩
      · rintro ⟨rfl, hlength⟩
        exact ⟨rfl, by omega⟩
    unfold delimiterAt startsWith at *
    rw [withLengths, List.map_cons, List.find?_cons, List.find?_cons]
    simp only [List.head?_cons, List.tail_cons, List.length_cons, hsame]
    by_cases hstands : (c' :: d) <+: (c :: text)
    · simp [hstands]
    · simp only [hstands, decide_false]
      exact hrest

theorem scan_some (hne : ∀ d ∈ delimiters, d ≠ []) (text : Bytes) (start : Nat)
    (h : scan (withLengths delimiters) text start = some (currentPos, d)) :
    ∃ token rest, text = token ++ (d ++ rest) ∧ currentPos = start + token.length ∧
      Free delimiters token (d ++ rest) ∧ startsWith delimiters (d ++ rest) = some d := by
  induction text generalizing start with
  | nil => cases h
  | cons c text ih =>
    rw [scan, delimiterAt_eq hne] at h
    cases hstands : startsWith delimiters (c :: text) with
    | some d' =>
      rw [hstands] at h
      cases h
      rcases startsWith_prefix hstands with ⟨rest, hrest⟩
      refine ⟨[], rest, hrest.symm, rfl, Free.nil, ?_⟩
      rw [hrest]
      exact hstands
    | none =>
      rw [hstands] at h
      rcases ih (start + 1) h with ⟨token, rest, rfl, rfl, hfree, hd⟩
      exact ⟨c :: token, rest, rfl, by simp; omega, hfree.cons hstands, hd⟩

theorem scan_none (hne : ∀ d ∈ delimiters, d ≠ []) (text : Bytes) (start : Nat)
    (h : scan (withLengths delimiters) text start = none) : Free delimiters text [] := by
  induction text generalizing start with
  | nil => exact Free.nil
  | cons c text ih =>
    rw [scan, delimiterAt_eq hne] at h
    cases hstands : startsWith delimiters (c :: text) with
    | some d' =>
      rw [hstands] at h
      cases h
    | none =>
      rw [hstands] at h
      apply Free.cons
      · rwa [List.append_nil]
      · exact ih (start + 1) h

end

/-! ## Tokens -/

section

variable {delimiters : List Bytes} {token : Token} {front text : Bytes}

/-- The next token is to start behind `front`. -/
structure Next (token : Token) (front text : Bytes) : Prop where
  source_eq : token.source = front ++ text
  running : ¬ (token.tokenStart ≠ none ∧ token.delimiterStart = none)
  position : newTokenStart token = front.length

/-- A token shows these characters, and the delimiter behind them. -/
structure Shows (token : Token) (shown : Bytes) (delimiter : Option Bytes) : Prop where
  text_eq : token.text = shown
  value_none_iff : stringTokenGetValue token = none ↔ shown = []
  length_eq : stringTokenGetLength token = shown.length
  delimiter_eq : stringTokenGetDelimiter token = delimiter

theorem shows_piece {shown d rest : Bytes} (hd : d ≠ [])
    (hsource : token.source = front ++ (shown ++ (d ++ rest)))
    (hstart : token.tokenStart =
      if front.length + shown.length = 0 then none else some front.length)
    (hdelimiterStart : token.delimiterStart = some (front.length + shown.length))
    (hdelimiter : token.delimiter = some d) : Shows token shown (some d) := by
  have hpos := List.length_pos_of_ne_nil hd
  have hlength : front.length ≠ token.source.length := by
    rw [hsource]
    simp only [List.length_append]
    omega
  have hvalue : stringTokenGetValue token = if shown = [] then none else some front.length := by
    rw [stringTokenGetValue, hstart, hdelimiterStart]
    by_cases hempty : shown = []
    · subst hempty
      by_cases hfront : front.length = 0
      · simp [hfront]
      · simp [hfront, hlength]
    · have hshown := List.length_pos_of_ne_nil hempty
      have hsum : front.length + shown.length ≠ 0 := by omega
      simp [hempty, hlength]
  have htokenLength : stringTokenGetLength token = shown.length := by
    rw [stringTokenGetLength, hstart, hdelimiterStart]
    by_cases hsum : front.length + shown.length = 0
    · rw [if_pos hsum]
      dsimp only
      omega
    · rw [if_neg hsum]
      dsimp only
      omega
  constructor
  case text_eq =>
    rw [Token.text, hvalue, htokenLength]
    by_cases hempty : shown = []
    · rw [if_pos hempty, hempty]
    · rw [if_neg hempty]
      dsimp only
      rw [hsource, List.drop_left, List.take_left]
  case value_none_iff =>
    rw [hvalue]
    by_cases hempty : shown = []
    · simp [hempty]
    · simp [hempty]
  case length_eq => exact htokenLength
  case delimiter_eq => exact hdelimiter

theorem shows_last (hsource : token.source = front ++ text)
    (hstart : token.tokenStart = some front.length) (hdelimiterStart : token.delimiterStart = none)
    (hdelimiter : token.delimiter = none) : Shows token text none := by
  have hvalue : stringTokenGetValue token = if text = [] then none else some front.length := by
    rw [stringTokenGetValue, hstart, hdelimiterStart, hsource]
    by_cases hempty : text = []
    · simp [hempty]
    · simp [hempty]
  have htokenLength : stringTokenGetLength token = text.length := by
    rw [stringTokenGetLength, hstart, hdelimiterStart, hsource]
    simp
  constructor
  case text_eq =>
    rw [Token.text, hvalue, htokenLength]
    by_cases hempty : text = []
    · rw [if_pos hempty, hempty]
    · rw [if_neg hempty]
      dsimp only
      rw [hsource, List.drop_left, List.take_length]
  case value_none_iff =>
    rw [hvalue]
    by_cases hempty : text = []
    · simp [hempty]
    · simp [hempty]
  case length_eq => exact htokenLength
  case delimiter_eq => exact hdelimiter

theorem getNextToken_eq (delimiters : List Bytes) (h : Next token front text) :
    getNextToken token (delimiters.map some) true =
      match scan (withLengths delimiters) text front.length with
      | some (currentPos, delimiter) =>
        (0, { token with
          tokenStart := if currentPos = 0 then none else some front.length
          delimiterStart := some currentPos
          delimiter := some delimiter })
      | none =>
        (0, { token with
          tokenStart := some front.length, delimiterStart := none, delimiter := none }) := by
  have hdrop : token.source.drop front.length = text := by
    rw [h.source_eq, List.drop_left]
  cases hscan : scan (withLengths delimiters) text front.length with
  | none =>
    simp only [getNextToken, if_neg h.running, getDelimitersLengths_eq, h.position, hdrop, hscan]
  | some found =>
    simp only [getNextToken, if_neg h.running, getDelimitersLengths_eq, h.position, hdrop, hscan]

/-- The next token is the piece in front of the leftmost delimiter, or all that is left. -/
theorem getNextToken_cases (hne : ∀ d ∈ delimiters, d ≠ []) (h : Next token front text) :
    (∃ shown d rest token', getNextToken token (delimiters.map some) true = (0, token') ∧
        text = shown ++ (d ++ rest) ∧ Free delimiters shown (d ++ rest) ∧
        startsWith delimiters (d ++ rest) = some d ∧ Shows token' shown (some d) ∧
        Next token' (front ++ (shown ++ d)) rest) ∨
      ∃ token', getNextToken token (delimiters.map some) true = (0, token') ∧
        Free delimiters text [] ∧ Shows token' text none ∧ token'.tokenStart ≠ none ∧
        token'.delimiterStart = none := by
  have heq := getNextToken_eq delimiters h
  cases hscan : scan (withLengths delimiters) text front.length with
  | some found =>
    left
    rcases found with ⟨currentPos, d⟩
    rw [hscan] at heq
    rcases scan_some hne text front.length hscan with ⟨shown, rest, rfl, rfl, hfree, hd⟩
    have hdne := hne d (startsWith_mem hd)
    refine ⟨shown, d, rest, _, heq, rfl, hfree, hd, ?_, ?_⟩
    · exact shows_piece hdne h.source_eq rfl rfl rfl
    · constructor
      case source_eq =>
        change token.source = _
        rw [h.source_eq]
        simp
      case running => exact fun hended => absurd hended.2 (Option.some_ne_none _)
      case position =>
        change front.length + shown.length + d.length = _
        simp only [List.length_append]
        omega
  | none =>
    right
    rw [hscan] at heq
    refine ⟨_, heq, scan_none hne text front.length hscan, ?_, Option.some_ne_none _, rfl⟩
    exact shows_last h.source_eq rfl rfl rfl

theorem getNextToken_ended (hstart : token.tokenStart ≠ none)
    (hdelimiterStart : token.delimiterStart = none) (delimiters : List (Option Bytes))
    (allocated : Bool) : getNextToken token delimiters allocated = (failure, token) := by
  rw [getNextToken, if_pos ⟨hstart, hdelimiterStart⟩]

end

/-! ## All tokens -/

section

variable {delimiters : List Bytes} {token token' : Token} {front text last : Bytes}
variable {pieces : List (Bytes × Bytes)} {tokens : List Token} {fuel n : Nat}

/-- The tokens show the pieces, and the last one what is left behind them. -/
def ShowPieces (tokens : List Token) (pieces : List (Bytes × Bytes)) (last : Bytes) : Prop :=
  List.Forall₂ (fun token shown => Shows token shown.1 shown.2) tokens
    ((pieces.map fun piece => (piece.1, some piece.2)) ++ [(last, none)])

theorem getNext_eq (hne : delimiters ≠ []) (n : Nat) (token : Token) :
    stringTokenGetNext {} n token (some (delimiters.map some)) =
      (decide ((getNextToken token (delimiters.map some) true).1 = 0),
        (getNextToken token (delimiters.map some) true).2) := by
  rw [stringTokenGetNext, if_neg]
  rw [List.length_map]
  exact (List.length_pos_of_ne_nil hne).ne'

theorem visitFrom_splits (hnil : delimiters ≠ []) (hne : ∀ d ∈ delimiters, d ≠ [])
    (h : Next token front text) (hfuel : text.length + 1 ≤ fuel) :
    ∃ token' tokens pieces last, getNextToken token (delimiters.map some) true = (0, token') ∧
      (∀ n, visitFrom {} (some (delimiters.map some)) fuel n token' = some tokens) ∧
      Splits delimiters text pieces last ∧ ShowPieces tokens pieces last := by
  induction hlength : text.length using Nat.strongRecOn generalizing token front text fuel with
  | ind length ih =>
    obtain ⟨fuel, rfl⟩ : ∃ k, fuel = k + 1 := ⟨fuel - 1, by omega⟩
    rcases getNextToken_cases hne h with
      ⟨shown, d, rest, token', htoken, rfl, hfree, hd, hshows, hnext⟩ |
        ⟨token', htoken, hfree, hshows, hstart, hdelimiterStart⟩
    · have hpos := List.length_pos_of_ne_nil (hne d (startsWith_mem hd))
      simp only [List.length_append] at hfuel hlength
      rcases ih rest.length (by omega) hnext (by omega : rest.length + 1 ≤ fuel) rfl with
        ⟨token'', tokens, pieces, last, htoken', hvisit, hsplits, hshow⟩
      refine ⟨token', token' :: tokens, (shown, d) :: pieces, last, htoken, ?_,
        .cut hfree hd hsplits, .cons hshows hshow⟩
      intro n
      rw [visitFrom, getNext_eq hnil, htoken']
      simp [hvisit]
    · refine ⟨token', [token'], [], text, htoken, ?_, .last hfree, .cons hshows .nil⟩
      intro n
      rw [visitFrom, getNext_eq hnil, getNextToken_ended hstart hdelimiterStart]
      rfl

theorem visitFrom_mono {allocations : Allocations} {delimiters : Option (List (Option Bytes))}
    {fuel' : Nat} (h : visitFrom allocations delimiters fuel n token = some tokens)
    (hle : fuel ≤ fuel') : visitFrom allocations delimiters fuel' n token = some tokens := by
  induction fuel generalizing n token tokens fuel' with
  | zero => cases h
  | succ fuel ih =>
    obtain ⟨fuel', rfl⟩ : ∃ k, fuel' = k + 1 := ⟨fuel' - 1, by omega⟩
    rw [visitFrom] at h ⊢
    by_cases hnext : (stringTokenGetNext allocations (n + 1) token delimiters).1 = true
    · rw [if_pos hnext] at h ⊢
      rcases Option.map_eq_some_iff.1 h with ⟨more, hmore, rfl⟩
      rw [ih hmore (by omega), Option.map_some]
    · rw [if_neg hnext] at h ⊢
      exact h

/-- What is stored of a piece. -/
def stored (includeEmpty : Bool) (shown : Bytes) : List (Option Bytes) :=
  if shown ≠ [] then [some shown] else if includeEmpty = true then [none] else []

theorem stored_all (all : List Bytes) :
    all.flatMap (stored true) = all.map fun shown => if shown = [] then none else some shown := by
  induction all with
  | nil => rfl
  | cons shown all ih =>
    rw [List.flatMap_cons, List.map_cons, ih]
    by_cases hempty : shown = []
    · simp [stored, hempty]
    · simp [stored, hempty]

theorem stored_nonempty (all : List Bytes) :
    all.flatMap (stored false) = (all.filter (· ≠ [])).map some := by
  induction all with
  | nil => rfl
  | cons shown all ih =>
    rw [List.flatMap_cons, List.filter_cons, ih]
    by_cases hempty : shown = []
    · simp [stored, hempty]
    · simp [stored, hempty]

theorem splitLoop_round (includeEmpty : Bool) {done : List (Option Bytes)} {shown : Bytes}
    {d : Option Bytes} (hshows : Shows token shown d) :
    splitLoop {} (some (delimiters.map some)) includeEmpty (fuel + 1) n token done =
      if (stringTokenGetNext {} (n + 1) token (some (delimiters.map some))).1 = true then
        splitLoop {} (some (delimiters.map some)) includeEmpty fuel (n + 1)
          (stringTokenGetNext {} (n + 1) token (some (delimiters.map some))).2
          (done ++ stored includeEmpty token.text)
      else some (0, done ++ stored includeEmpty token.text) := by
  have hlength := hshows.length_eq
  have hvalue := hshows.value_none_iff
  rw [splitLoop, hshows.text_eq]
  by_cases hempty : shown = []
  · have hnone := hvalue.2 hempty
    subst hempty
    rw [List.length_nil] at hlength
    cases includeEmpty
    all_goals simp [hnone, hlength, stored]
  · have hsome : stringTokenGetValue token ≠ none := fun hnone => hempty (hvalue.1 hnone)
    have hpos := List.length_pos_of_ne_nil hempty
    have hzero : stringTokenGetLength token ≠ 0 := by omega
    simp [hsome, hzero, stored, hempty]

theorem splitLoop_of_visit (includeEmpty : Bool) {done : List (Option Bytes)}
    (hvisit : visitFrom {} (some (delimiters.map some)) fuel n token = some tokens)
    (hshow : ∀ token ∈ tokens, ∃ shown d, Shows token shown d) :
    splitLoop {} (some (delimiters.map some)) includeEmpty fuel n token done =
      some (0, done ++ tokens.flatMap fun token => stored includeEmpty token.text) := by
  induction fuel generalizing n token tokens done with
  | zero => cases hvisit
  | succ fuel ih =>
    rw [visitFrom] at hvisit
    by_cases hnext : (stringTokenGetNext {} (n + 1) token (some (delimiters.map some))).1 = true
    case pos =>
      rw [if_pos hnext] at hvisit
      rcases Option.map_eq_some_iff.1 hvisit with ⟨more, hmore, rfl⟩
      rcases hshow token (List.mem_cons_self ..) with ⟨shown, d, hshows⟩
      rw [splitLoop_round includeEmpty hshows, if_pos hnext,
        ih hmore fun token hmem => hshow token (List.mem_cons_of_mem _ hmem), List.flatMap_cons,
        List.append_assoc]
    case neg =>
      rw [if_neg hnext] at hvisit
      cases hvisit
      rcases hshow token (List.mem_cons_self ..) with ⟨shown, d, hshows⟩
      rw [splitLoop_round includeEmpty hshows, if_neg hnext, List.flatMap_cons, List.flatMap_nil,
        List.append_nil]

/-- The pieces of a text, with what is left. -/
def piecesAndLast (pieces : List (Bytes × Bytes)) (last : Bytes) : List Bytes :=
  pieces.map Prod.fst ++ [last]

theorem ShowPieces.texts (h : ShowPieces tokens pieces last) :
    tokens.map Token.text = piecesAndLast pieces last := by
  have hall : tokens.map Token.text =
      ((pieces.map fun piece : Bytes × Bytes => (piece.1, some piece.2)) ++ [(last, none)]).map
        Prod.fst := by
    unfold ShowPieces at h
    generalize (pieces.map fun piece : Bytes × Bytes => (piece.1, some piece.2)) ++ [(last, none)] = shown at h
    induction h with
    | nil => rfl
    | cons hshows _ ih => rw [List.map_cons, List.map_cons, ih, hshows.text_eq]
  rw [hall, piecesAndLast]
  simp

theorem ShowPieces.all (h : ShowPieces tokens pieces last) :
    ∀ token ∈ tokens, ∃ shown d, Shows token shown d := by
  unfold ShowPieces at h
  generalize (pieces.map fun piece : Bytes × Bytes => (piece.1, some piece.2)) ++ [(last, none)] = shown at h
  induction h with
  | nil => exact nofun
  | cons hshows _ ih =>
    intro token hmem
    rcases List.mem_cons.1 hmem with rfl | hmem
    · exact ⟨_, _, hshows⟩
    · exact ih token hmem

/-- The tokens are the pieces of the source, cut at the leftmost delimiter each time, and nothing is lost;
`StringToken_Split` returns them, or those that are not empty. -/
theorem stringToken_splits (source : Bytes) (delimiters : List Bytes) (hnil : delimiters ≠ [])
    (hne : ∀ d ∈ delimiters, d ≠ []) :
    ∃ pieces last tokens, Splits delimiters source pieces last ∧
      (pieces.flatMap fun piece => piece.1 ++ piece.2) ++ last = source ∧
      ShowPieces tokens pieces last ∧ tokens.length ≤ source.length + 1 ∧
      ∀ fuel, source.length + 1 ≤ fuel →
        visit {} fuel (some source) (some (delimiters.map some)) = some tokens ∧
        stringTokenSplit {} fuel (some source) (some (delimiters.map some)) true =
          some (0, (piecesAndLast pieces last).map fun shown =>
            if shown = [] then none else some shown) ∧
        stringTokenSplit {} fuel (some source) (some (delimiters.map some)) false =
          some (0, ((piecesAndLast pieces last).filter (· ≠ [])).map some) := by
  have hnext : Next { source := source } [] source :=
    ⟨rfl, fun hended => hended.1 rfl, rfl⟩
  rcases visitFrom_splits hnil hne hnext (Nat.le_refl (source.length + 1)) with
    ⟨token', tokens, pieces, last, htoken, hvisit, hsplits, hshow⟩
  have hlength : tokens.length = pieces.length + 1 := by
    have htexts := congrArg List.length hshow.texts
    simpa [piecesAndLast] using htexts
  have hfirst : stringTokenGetFirst {} (some source) (some (delimiters.map some)) = some token' := by
    have hpos := List.length_pos_of_ne_nil hnil
    rw [stringTokenGetFirst, if_neg (by rw [List.length_map]; omega)]
    simp [htoken]
  refine ⟨pieces, last, tokens, hsplits, hsplits.join, hshow, ?_, ?_⟩
  · have hpieces := hsplits.length_le hne
    omega
  · intro fuel hfuel
    have hvisit' := visitFrom_mono (hvisit 0) hfuel
    have hsplit : ∀ includeEmpty,
        stringTokenSplit {} fuel (some source) (some (delimiters.map some)) includeEmpty =
          some (0, (piecesAndLast pieces last).flatMap (stored includeEmpty)) := by
      intro includeEmpty
      rcases delimiters with _ | ⟨d, delimiters⟩
      · exact absurd rfl hnil
      have hstored : splitLoop {} _ includeEmpty fuel 0 token' [] = some (0, [] ++ _) :=
        splitLoop_of_visit includeEmpty hvisit' hshow.all
      have hloop : stringTokenSplit {} fuel (some source) (some ((d :: delimiters).map some))
          includeEmpty = splitLoop {} (some ((d :: delimiters).map some)) includeEmpty fuel 0
            token' [] := by
        rw [List.map_cons] at hfirst ⊢
        simp only [stringTokenSplit, hfirst]
      rw [hloop, hstored, List.nil_append, ← hshow.texts, List.flatMap_map]
    refine ⟨?_, ?_, ?_⟩
    · rw [visit, hfirst]
      exact hvisit'
    · rw [hsplit true, stored_all]
    · rw [hsplit false, stored_nonempty]

/-- Delimiters of which one is a prefix of the other, and a token that is empty at the end. -/
theorem stringToken_prefixes :
    ∃ pieces last, Splits [ascii ";;", ascii ";"] (ascii "a;;;b;") pieces last ∧
      (pieces.flatMap fun piece => piece.1 ++ piece.2) ++ last = ascii "a;;;b;" := by
  rcases stringToken_splits (ascii "a;;;b;") [ascii ";;", ascii ";"] (List.cons_ne_nil _ _)
    (by decide) with ⟨pieces, last, -, hsplits, hjoin, -⟩
  exact ⟨pieces, last, hsplits, hjoin⟩

end

end SharedUtility.StringToken
