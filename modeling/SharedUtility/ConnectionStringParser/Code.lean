import SharedUtility.Map.Code

/-!
# Code — `string_tokenizer.c` and `connection_string_parser.c`

A tokenizer is the text from its current position to the end of its copy of the input.
-/

namespace SharedUtility

/-! ## The tokenizer -/

/-- `STRING_TOKENIZER_get_next_token`: the token, or `none` where it returns nonzero, and the tokenizer
after the call.  `copied` says that the token can be copied to the output. -/
def stringTokenizerGetNextToken (tokenizer delimiters : Bytes) (copied : Bool) :
    Option Bytes × Bytes :=
  if tokenizer.length = 0 then (none, tokenizer)
  else if delimiters.length = 0 then (none, tokenizer)
  else
    -- The delimiters before the token are skipped even if no token follows.
    let currentPos := tokenizer.dropWhile fun c => delimiters.contains c
    if currentPos.length = 0 then (none, currentPos)
    else
      let endOfTokenPosition := delimiters.findSome? fun d => currentPos.idxOf? d
      let amountOfCharactersToCopy := endOfTokenPosition.getD currentPos.length
      if copied = false then (none, currentPos)
      else
        (some (currentPos.take amountOfCharactersToCopy),
          if endOfTokenPosition.isSome then currentPos.drop (amountOfCharactersToCopy + 1)
          else currentPos.drop amountOfCharactersToCopy)

theorem stringTokenizerGetNextToken_shorter {tokenizer delimiters token rest : Bytes} {copied : Bool}
    (h : stringTokenizerGetNextToken tokenizer delimiters copied = (some token, rest)) :
    rest.length < tokenizer.length := by
  unfold stringTokenizerGetNextToken at h
  split at h
  · cases h
  split at h
  · cases h
  dsimp only at h
  split at h
  · cases h
  rename_i hne
  split at h
  · cases h
  have hskipped : (tokenizer.dropWhile fun c => delimiters.contains c).length ≤ tokenizer.length :=
    (List.dropWhile_suffix _).length_le
  generalize hcurrent : (tokenizer.dropWhile fun c => delimiters.contains c) = currentPos at *
  have hrest := (Prod.mk.inj h).2
  subst hrest
  split
  · simp only [List.length_drop]
    omega
  · rename_i hnone
    simp only [Option.not_isSome_iff_eq_none] at hnone
    simp only [hnone, Option.getD_none, List.length_drop]
    omega

/-! ## The parser -/

namespace ConnectionStringParser

/-- Which allocations of a round succeed. -/
structure RoundAllocations where
  keyCopied : Bool := true
  valueCopied : Bool := true
  added : Map.Allocations := {}
  deriving DecidableEq, Repr

/-- Which allocations of a call succeed. -/
structure Allocations where
  tokenizerCreated : Bool := true
  keyStringCreated : Bool := true
  valueStringCreated : Bool := true
  mapCreated : Map.Allocations := {}
  round : Nat → RoundAllocations := fun _ => {}

/-- The loop of `connectionstringparser_parse` from round `n` on. -/
def connectionstringparserParseLoop (round : Nat → RoundAllocations) (n : Nat) (tokenizer : Bytes)
    (result : Map.MapHandleData) : Option Map.MapHandleData :=
  match _h : stringTokenizerGetNextToken tokenizer (ascii "=") (round n).keyCopied with
  | (none, _) => some result
  | (some token, behindKey) =>
    match _h' : stringTokenizerGetNextToken behindKey (ascii ";") (round n).valueCopied with
    | (none, _) => none
    | (some value, behindValue) =>
      if token.length = 0 then none
      else
        let r := Map.mapAdd result (some token) (some value) (round n).added
        if r.1 ≠ .mapOk then none
        else connectionstringparserParseLoop round (n + 1) behindValue r.2
termination_by tokenizer.length
decreasing_by
  exact Nat.lt_trans (stringTokenizerGetNextToken_shorter _h')
    (stringTokenizerGetNextToken_shorter _h)

/-- `connectionstringparser_parse`; `none` stands for NULL. -/
def connectionstringparserParse (connectionString : Option Bytes) (alloc : Allocations) :
    Option Map.MapHandleData :=
  match connectionString with
  | none => none
  | some connectionString =>
    if alloc.tokenizerCreated = false then none
    else if alloc.keyStringCreated = false then none
    else if alloc.valueStringCreated = false then none
    else
      match Map.mapCreate none alloc.mapCreated with
      | none => none
      | some result => connectionstringparserParseLoop alloc.round 0 connectionString result

end ConnectionStringParser
end SharedUtility
