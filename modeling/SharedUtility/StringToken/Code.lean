import SharedUtility.Bytes
import SharedUtility.Splitting

/-!
# StringToken.Code — the tokenizer of `string_token.c`

Pointers into the source are offsets, and NULL is `none`; the source is not NULL where it has been given.
Which allocations succeed is given.
-/

namespace SharedUtility.StringToken

open Splitting

/-- `STRING_TOKEN`; `source` is of the length that is given. -/
structure Token where
  source : Bytes
  tokenStart : Option Nat := none
  delimiterStart : Option Nat := none
  delimiter : Option Bytes := none

/-- Which allocations succeed: of the token, of the lengths in each search, of the array and the copy of
each token. -/
structure Allocations where
  token : Bool := true
  lengths : Nat → Bool := fun _ => true
  array : Nat → Bool := fun _ => true
  copy : Nat → Bool := fun _ => true

/-- `get_delimiters_lengths`; a delimiter that is NULL is `none`. -/
def getDelimitersLengths (delimiters : List (Option Bytes)) (allocated : Bool) :
    Option (List (Bytes × Nat)) :=
  if allocated = false then none
  else delimiters.mapM fun delimiter => delimiter.map fun delimiter => (delimiter, delimiter.length)

/-- The loop over `k`, from the second character of a delimiter on: how many are the same. -/
def sameCharacters : Bytes → Bytes → Nat
  | c :: delimiter, c' :: source => if c' = c then sameCharacters delimiter source + 1 else 0
  | _, _ => 0

/-- The loop over the delimiters at the current position. -/
def delimiterAt (delimiters : List (Bytes × Nat)) (source : Bytes) : Option Bytes :=
  (delimiters.find? fun delimiter =>
    source.head? = delimiter.1.head? ∧
      1 + sameCharacters delimiter.1.tail source.tail = delimiter.2).map Prod.fst

/-- The loop over the source from `currentPos` on. -/
def scan (delimiters : List (Bytes × Nat)) : Bytes → Nat → Option (Nat × Bytes)
  | [], _ => none
  | c :: source, currentPos =>
    match delimiterAt delimiters (c :: source) with
    | some delimiter => some (currentPos, delimiter)
    | none => scan delimiters source (currentPos + 1)

/-- Where the next token starts. -/
def newTokenStart (token : Token) : Nat :=
  match token.delimiterStart with
  | none => 0
  | some delimiterStart => delimiterStart + (token.delimiter.getD []).length

def getNextToken (token : Token) (delimiters : List (Option Bytes)) (allocated : Bool) :
    Int × Token :=
  if token.tokenStart ≠ none ∧ token.delimiterStart = none then (failure, token)
  else
    match getDelimitersLengths delimiters allocated with
    | none => (failure, token)
    | some delimiters =>
      let newTokenStart := newTokenStart token
      match scan delimiters (token.source.drop newTokenStart) newTokenStart with
      | some (currentPos, delimiter) =>
        -- a token in front of a delimiter at the beginning of the source is NULL
        (0, { token with
          tokenStart := if currentPos = 0 then none else some newTokenStart
          delimiterStart := some currentPos
          delimiter := some delimiter })
      | none =>
        (0, { token with
          tokenStart := some newTokenStart, delimiterStart := none, delimiter := none })

/-- `StringToken_GetFirst`; the delimiters are their array, or NULL. -/
def stringTokenGetFirst (allocations : Allocations) (source : Option Bytes)
    (delimiters : Option (List (Option Bytes))) : Option Token :=
  match source, delimiters with
  | some source, some delimiters =>
    if delimiters.length = 0 then none
    else if allocations.token = false then none
    else
      let r := getNextToken { source := source } delimiters (allocations.lengths 0)
      if r.1 ≠ 0 then none else some r.2
  | _, _ => none

/-- `StringToken_GetNext`, in the search with that number. -/
def stringTokenGetNext (allocations : Allocations) (n : Nat) (token : Token)
    (delimiters : Option (List (Option Bytes))) : Bool × Token :=
  match delimiters with
  | some delimiters =>
    if delimiters.length = 0 then (false, token)
    else
      let r := getNextToken token delimiters (allocations.lengths n)
      (decide (r.1 = 0), r.2)
  | none => (false, token)

def stringTokenGetValue (token : Token) : Option Nat :=
  if token.tokenStart = some token.source.length then none
  else if token.tokenStart = token.delimiterStart then none
  else token.tokenStart

def stringTokenGetLength (token : Token) : Nat :=
  match token.tokenStart with
  | none => 0
  | some tokenStart =>
    match token.delimiterStart with
    | none => token.source.length - tokenStart
    | some delimiterStart => delimiterStart - tokenStart

def stringTokenGetDelimiter (token : Token) : Option Bytes :=
  token.delimiter

/-- The characters that a token stands for. -/
def Token.text (token : Token) : Bytes :=
  match stringTokenGetValue token with
  | none => []
  | some tokenValue => (token.source.drop tokenValue).take (stringTokenGetLength token)

/-- The loop of `StringToken_Split`, with the tokens that have been stored; `none` when it has not ended
after `fuel` rounds. On failure the tokens are freed. -/
def splitLoop (allocations : Allocations) (delimiters : Option (List (Option Bytes)))
    (includeEmpty : Bool) :
    Nat → Nat → Token → List (Option Bytes) → Option (Int × List (Option Bytes))
  | 0, _, _, _ => none
  | fuel + 1, n, token, tokens =>
    let tokenValue := stringTokenGetValue token
    let tokenLength := stringTokenGetLength token
    let stored : Option (List (Option Bytes)) :=
      if (tokenValue ≠ none ∧ tokenLength = 0) ∨ (tokenValue = none ∧ 0 < tokenLength) then none
      else if tokenValue ≠ none ∨ includeEmpty = true then
        if allocations.array n = false then none
        else if tokenLength = 0 then some (tokens ++ [none])
        else if allocations.copy n = false then none
        else some (tokens ++ [some token.text])
      else some tokens
    match stored with
    | none => some (failure, [])
    | some tokens =>
      let r := stringTokenGetNext allocations (n + 1) token delimiters
      if r.1 = true then splitLoop allocations delimiters includeEmpty fuel (n + 1) r.2 tokens
      else some (0, tokens)

/-- `StringToken_Split`: the return value and the tokens; an empty token is NULL. -/
def stringTokenSplit (allocations : Allocations) (fuel : Nat) (source : Option Bytes)
    (delimiters : Option (List (Option Bytes))) (includeEmpty : Bool) :
    Option (Int × List (Option Bytes)) :=
  match source, delimiters with
  | some _, some (_ :: _) =>
    match stringTokenGetFirst allocations source delimiters with
    | none => some (0, [])
    | some token => splitLoop allocations delimiters includeEmpty fuel 0 token []
  | _, _ => some (failure, [])

/-- The tokens that are visited from one on, until there is no next one. -/
def visitFrom (allocations : Allocations) (delimiters : Option (List (Option Bytes))) :
    Nat → Nat → Token → Option (List Token)
  | 0, _, _ => none
  | fuel + 1, n, token =>
    let r := stringTokenGetNext allocations (n + 1) token delimiters
    if r.1 = true then (visitFrom allocations delimiters fuel (n + 1) r.2).map (token :: ·)
    else some [token]

/-- `StringToken_GetFirst`, then `StringToken_GetNext` until it returns false. -/
def visit (allocations : Allocations) (fuel : Nat) (source : Option Bytes)
    (delimiters : Option (List (Option Bytes))) : Option (List Token) :=
  match stringTokenGetFirst allocations source delimiters with
  | none => some []
  | some token => visitFrom allocations delimiters fuel 0 token

end SharedUtility.StringToken
