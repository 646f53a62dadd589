import SharedUtility.Memory.Blocks
import SharedUtility.Memory.Owned
import SharedUtility.StringToken.Code

/-!
# StringToken.OnHeap — what `StringToken_Split` allocates and frees

The functions as in `Code`, with every `malloc`, `realloc` and `free` on a heap. What a `STRING_TOKEN` holds
is passed along; the places for the tokens and for their count are not NULL.
-/

namespace SharedUtility.StringToken
namespace OnHeap

open Memory

/-- What has been allocated. -/
inductive Cell
  /-- A `STRING_TOKEN`. -/
  | tokenizer
  /-- The lengths of the delimiters. -/
  | lengths
  /-- The array of the tokens; `none` is a slot that has not been written. -/
  | array (slots : Region Ptr)
  /-- The copy of a token. -/
  | text (characters : Bytes)
  deriving DecidableEq, Repr

/-- `*tokens` and `*token_count`. -/
structure Outputs where
  tokens : Ptr
  tokenCount : Nat
  deriving DecidableEq, Repr

/-- `malloc`. -/
def newIf (granted : Bool) (cell : Cell) : HeapM Cell Ptr :=
  if granted = true then new cell else pure none

def getDelimitersLengths (delimiters : List (Option Bytes)) (allocated : Bool) : HeapM Cell Ptr := do
  let result ← newIf allocated .lengths
  if result ≠ none ∧ none ∈ delimiters then do
    free result
    pure none
  else pure result

def getNextToken (token : Token) (delimiters : List (Option Bytes)) (allocated : Bool) :
    HeapM Cell (Int × Token) :=
  if token.tokenStart ≠ none ∧ token.delimiterStart = none then pure (failure, token)
  else do
    let delimitersLengths ← getDelimitersLengths delimiters allocated
    if delimitersLengths = none then pure (failure, token)
    else do
      free delimitersLengths
      pure (StringToken.getNextToken token delimiters true)

/-- `StringToken_GetFirst`, with the place of the `STRING_TOKEN`. -/
def stringTokenGetFirst (allocations : Allocations) (source : Option Bytes)
    (delimiters : Option (List (Option Bytes))) : HeapM Cell (Option (Ptr × Token)) :=
  match source, delimiters with
  | some source, some delimiters =>
    if delimiters.length = 0 then pure none
    else do
      let result ← newIf allocations.token .tokenizer
      if result = none then pure none
      else do
        let r ← getNextToken { source := source } delimiters (allocations.lengths 0)
        if r.1 ≠ 0 then do
          free result
          pure none
        else pure (some (result, r.2))
  | _, _ => pure none

def stringTokenGetNext (allocations : Allocations) (n : Nat) (token : Token)
    (delimiters : Option (List (Option Bytes))) : HeapM Cell (Bool × Token) :=
  match delimiters with
  | some delimiters =>
    if delimiters.length = 0 then pure (false, token)
    else do
      let r ← getNextToken token delimiters (allocations.lengths n)
      pure (decide (r.1 = 0), r.2)
  | none => pure (false, token)

/-- The slots of the array. -/
def readSlots (p : Ptr) : HeapM Cell (Region Ptr) := do
  let cell ← read p
  match cell with
  | .array slots => pure slots
  | _ => undefined

/-- `(*tokens)[i] = q`. -/
def writeSlot (p : Ptr) (i : Nat) (q : Ptr) : HeapM Cell Unit := do
  let slots ← readSlots p
  if i < slots.length then write p (.array (slots.set i (some q))) else undefined

/-- `(*tokens)[i]`, which must have been written. -/
def readSlot (p : Ptr) (i : Nat) : HeapM Cell Ptr := do
  let slots ← readSlots p
  match slots[i]? with
  | some (some q) => pure q
  | _ => undefined

/-- `realloc` of the array to `size` slots; it always moves. -/
def reallocSlots (granted : Bool) (p : Ptr) (size : Nat) : HeapM Cell Ptr :=
  if granted = true then
    if p = none then new (.array (unwritten size))
    else do
      let slots ← readSlots p
      free p
      new (.array (resized slots size))
  else pure none

/-- A token is stored at the end of the array. -/
def storeToken (arrayGranted copyGranted : Bool) (token : Token) (outputs : Outputs) :
    HeapM Cell (Int × Outputs) := do
  let tokenCount := outputs.tokenCount + 1
  let tempToken ← reallocSlots arrayGranted outputs.tokens tokenCount
  if tempToken = none then pure (failure, ⟨outputs.tokens, tokenCount - 1⟩)
  else if stringTokenGetLength token = 0 then do
    writeSlot tempToken (tokenCount - 1) none
    pure (0, ⟨tempToken, tokenCount⟩)
  else do
    let copy ← newIf copyGranted (.text [])
    writeSlot tempToken (tokenCount - 1) copy
    if copy = none then pure (failure, ⟨tempToken, tokenCount - 1⟩)
    else do
      write copy (.text (token.text ++ [0]))
      pure (0, ⟨tempToken, tokenCount⟩)

/-- A round of the loop of `StringToken_Split`, in front of `StringToken_GetNext`. -/
def splitRound (allocations : Allocations) (includeEmpty : Bool) (n : Nat) (token : Token)
    (outputs : Outputs) : HeapM Cell (Int × Outputs) :=
  let tokenValue := stringTokenGetValue token
  let tokenLength := stringTokenGetLength token
  if (tokenValue ≠ none ∧ tokenLength = 0) ∨ (tokenValue = none ∧ 0 < tokenLength) then
    pure (failure, outputs)
  else if tokenValue ≠ none ∨ includeEmpty = true then
    storeToken (allocations.array n) (allocations.copy n) token outputs
  else pure (0, outputs)

/-- The loop of `StringToken_Split`, for `fuel` rounds at most. -/
def splitLoop (allocations : Allocations) (delimiters : Option (List (Option Bytes)))
    (includeEmpty : Bool) : (fuel n : Nat) → Token → Outputs → HeapM Cell (Int × Outputs)
  | 0, _, _, _ => undefined
  | fuel + 1, n, token, outputs => do
    let r ← splitRound allocations includeEmpty n token outputs
    if r.1 ≠ 0 then pure r
    else do
      let next ← stringTokenGetNext allocations (n + 1) token delimiters
      if next.1 = true then splitLoop allocations delimiters includeEmpty fuel (n + 1) next.2 r.2
      else pure (0, r.2)

/-- The loop that frees the tokens from the last one on, and then the array; what is left of the count. -/
def freeTokens (tokens : Ptr) : (tokenCount : Nat) → HeapM Cell Nat
  | 0 => do
    free tokens
    pure 0
  | tokenCount + 1 =>
    if tokens = none then pure (tokenCount + 1)
    else do
      let token ← readSlot tokens tokenCount
      free token
      freeTokens tokens tokenCount

/-- `StringToken_Split`, with what is at the places for the tokens and their count before; each round of
its loop but the last takes a character of the source. -/
def stringTokenSplit (allocations : Allocations) (source : Option Bytes)
    (delimiters : Option (List (Option Bytes))) (includeEmpty : Bool) (outputs : Outputs) :
    HeapM Cell (Int × Outputs) :=
  match source, delimiters with
  | some text, some (_ :: _) => do
    let tokenizer ← stringTokenGetFirst allocations source delimiters
    match tokenizer with
    | none => pure (0, ⟨none, 0⟩)
    | some (handle, token) => do
      let r ← splitLoop allocations delimiters includeEmpty (text.length + 1) 0 token ⟨none, 0⟩
      free handle
      if r.1 ≠ 0 then do
        let tokenCount ← freeTokens r.2.tokens r.2.tokenCount
        pure (r.1, ⟨r.2.tokens, tokenCount⟩)
      else pure r
  | _, _ => pure (failure, outputs)

end OnHeap
end SharedUtility.StringToken
