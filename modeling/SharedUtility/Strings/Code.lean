import SharedUtility.Bytes
import SharedUtility.Memory.Pool

/-!
# Strings.Code — `strings.c`

The characters of a `STRING` are a block on the heap with a NUL behind them. What a handle points to
is passed to each function and returned by it as it is afterwards; NULL is `none`. No object is
longer than `PTRDIFF_MAX` bytes.
-/

namespace SharedUtility.Strings

open Memory

def ptrdiffMax : Nat := 2 ^ 63 - 1

/-- `STRING`. -/
structure StringTag where
  s : Ptr

abbrev StringHeap := Heap (Region UInt8)
abbrev StringM := HeapM (Region UInt8)

/-- A C string of the caller. -/
structure CString where
  text : Bytes
  noNul : 0 ∉ text
  fits : text.length < ptrdiffMax

namespace CString

/-- Its bytes, the NUL included. -/
def bytes (t : CString) : Bytes :=
  t.text ++ [0]

def length (t : CString) : Nat :=
  t.text.length

end CString

/-! ## Reading -/

/-- Where the NUL is; a place that has not been written must not be read. -/
def terminator : Region UInt8 → Option Nat
  | [] => none
  | none :: _ => none
  | some c :: block => if c = 0 then some 0 else (terminator block).map (· + 1)

def strlen (s : Ptr) : StringM Nat := do
  let block ← read s
  match terminator block with
  | some n => pure n
  | none => undefined

/-- The difference of the first characters that differ. -/
def compareBlocks : Region UInt8 → Region UInt8 → Option Int
  | some a :: block1, some b :: block2 =>
    if a ≠ b then some ((a.toNat : Int) - b.toNat)
    else if a = 0 then some 0
    else compareBlocks block1 block2
  | _, _ => none

def strcmp (s1 s2 : Ptr) : StringM Int := do
  let block1 ← read s1
  let block2 ← read s2
  match compareBlocks block1 block2 with
  | some n => pure n
  | none => undefined

/-- `s[index]`. -/
def charAt (s : Ptr) (index : Nat) : StringM UInt8 := do
  let c ← load s index 1
  match c with
  | [some c] => pure c
  | _ => undefined

/-- `s[index] = c`. -/
def setChar (s : Ptr) (index : Nat) (c : UInt8) : StringM Unit :=
  store s index [some c]

/-! ## Making strings -/

def stringNew : StringM (Option StringTag) := do
  let ok ← allocate
  if ok then do
    let s ← mallocBlock ptrdiffMax 1
    if s ≠ none then do
      setChar s 0 0
      pure (some { s := s })
    else pure none
  else pure none

def stringClone (handle : Option StringTag) : StringM (Option StringTag) :=
  match handle with
  | none => pure none
  | some source => do
    let ok ← allocate
    if ok then do
      let sourceLen ← strlen source.s
      let s ← mallocBlock ptrdiffMax (addSizeT sourceLen 1)
      if s = none then pure none
      else do
        memcpy s 0 source.s 0 (addSizeT sourceLen 1)
        pure (some { s := s })
    else pure none

def stringConstruct (psz : Option CString) : StringM (Option StringTag) :=
  match psz with
  | none => pure none
  | some psz => do
    let ok ← allocate
    if ok then do
      let nLen := addSizeT psz.length 1
      let s ← mallocBlock ptrdiffMax nLen
      if s ≠ none then do
        copyIn s 0 psz.bytes nLen
        pure (some { s := s })
      else pure none
    else pure none

def stringConstructN (psz : Option CString) (n : Nat) : StringM (Option StringTag) :=
  match psz with
  | none => pure none
  | some psz =>
    let len := psz.length
    if n > len then pure none
    else do
      let ok ← allocate
      if ok then do
        let s ← mallocBlock ptrdiffMax (addSizeT len 1)
        if s ≠ none then do
          copyIn s 0 psz.bytes n
          setChar s n 0
          pure (some { s := s })
        else pure none
      else pure none

/-! ## Changing strings -/

def stringConcat (handle : Option StringTag) (s2 : Option CString) :
    StringM (Int × Option StringTag) :=
  match handle, s2 with
  | none, _ => pure (failure, none)
  | some s1, none => pure (failure, some s1)
  | some s1, some s2 => do
    let s1Length ← strlen s1.s
    let s2Length := s2.length
    let temp ← reallocBlock ptrdiffMax s1.s (addSizeT (addSizeT s1Length s2Length) 1)
    if temp = none then pure (failure, some s1)
    else do
      copyIn temp s1Length s2.bytes (addSizeT s2Length 1)
      pure (0, some { s := temp })

/-- `same`: whether the two handles are the same; then `src->s` is `temp` as well once `dest->s` has
been set. -/
def stringConcatWithString (s1 s2 : Option StringTag) (same : Bool) :
    StringM (Int × Option StringTag) :=
  match s1, s2 with
  | none, _ => pure (failure, none)
  | some dest, none => pure (failure, some dest)
  | some dest, some src => do
    let s1Length ← strlen dest.s
    let s2Length ← strlen src.s
    let temp ← reallocBlock ptrdiffMax dest.s (addSizeT (addSizeT s1Length s2Length) 1)
    if temp = none then pure (failure, some dest)
    else do
      let source := if same then temp else src.s
      memcpy temp s1Length source 0 (addSizeT s2Length 1)
      pure (0, some { s := temp })

/-- A `const char*`: a string of the caller, or the characters of a `STRING`. -/
inductive CharPointer
  | text (t : CString)
  | content (s : Ptr)

def stringCStr (handle : Option StringTag) : Option CharPointer :=
  handle.map fun value => .content value.s

def stringCopy (handle : Option StringTag) (s2 : Option CharPointer) :
    StringM (Int × Option StringTag) :=
  match handle, s2 with
  | none, _ => pure (failure, none)
  | some s1, none => pure (failure, some s1)
  | some s1, some (.text s2) => do
    let s2Length := s2.length
    let temp ← reallocBlock ptrdiffMax s1.s (addSizeT s2Length 1)
    if temp = none then pure (failure, some s1)
    else do
      copyIn temp 0 s2.bytes (addSizeT s2Length 1)
      pure (0, some { s := temp })
  | some s1, some (.content s2) =>
    if s1.s ≠ s2 then do
      let s2Length ← strlen s2
      let temp ← reallocBlock ptrdiffMax s1.s (addSizeT s2Length 1)
      if temp = none then pure (failure, some s1)
      else do
        memmove temp 0 s2 0 (addSizeT s2Length 1)
        pure (0, some { s := temp })
    else pure (0, some s1)

def stringCopyN (handle : Option StringTag) (s2 : Option CString) (n : Nat) :
    StringM (Int × Option StringTag) :=
  match handle, s2 with
  | none, _ => pure (failure, none)
  | some s1, none => pure (failure, some s1)
  | some s1, some s2 => do
    let s2Length := if s2.length > n then n else s2.length
    let temp ← reallocBlock ptrdiffMax s1.s (addSizeT s2Length 1)
    if temp = none then pure (failure, some s1)
    else do
      copyIn temp 0 s2.bytes s2Length
      setChar temp s2Length 0
      pure (0, some { s := temp })

/-- `'"'`. -/
def quotationMark : UInt8 := 34

def stringQuote (handle : Option StringTag) : StringM (Int × Option StringTag) :=
  match handle with
  | none => pure (failure, none)
  | some s1 => do
    let s1Length ← strlen s1.s
    let temp ← reallocBlock ptrdiffMax s1.s (addSizeT (addSizeT s1Length 2) 1)
    if temp = none then pure (failure, some s1)
    else do
      memmove temp 1 temp 0 s1Length
      setChar temp 0 quotationMark
      setChar temp (addSizeT s1Length 1) quotationMark
      setChar temp (addSizeT s1Length 2) 0
      pure (0, some { s := temp })

def stringEmpty (handle : Option StringTag) : StringM (Int × Option StringTag) :=
  match handle with
  | none => pure (failure, none)
  | some s1 => do
    let temp ← reallocBlock ptrdiffMax s1.s 1
    if temp = none then pure (failure, some s1)
    else do
      setChar temp 0 0
      pure (0, some { s := temp })

/-- The loop of `STRING_replace`, from `index` on for `n` rounds. -/
def replaceLoop (s : Ptr) (target replace : UInt8) (index : Nat) : Nat → StringM Unit
  | 0 => pure ()
  | n + 1 => do
    let c ← charAt s index
    if c = target then setChar s index replace
    replaceLoop s target replace (index + 1) n

def stringReplace (handle : Option StringTag) (target replace : UInt8) :
    StringM (Int × Option StringTag) :=
  match handle with
  | none => pure (failure, none)
  | some strValue =>
    if target = replace then pure (0, some strValue)
    else do
      let length ← strlen strValue.s
      replaceLoop strValue.s target replace 0 length
      pure (0, some strValue)

/-! ## Asking for strings -/

def stringLength (handle : Option StringTag) : StringM Nat :=
  match handle with
  | none => pure 0
  | some value => strlen value.s

def stringCompare (s1 s2 : Option StringTag) : StringM Int :=
  match s1, s2 with
  | none, none => pure 0
  | none, some _ => pure 1
  | some _, none => pure (-1)
  | some value1, some value2 => strcmp value1.s value2.s

/-! ## Programs -/

/-- The second argument of `STRING_copy`. -/
inductive Source
  | null
  | text (t : CString)
  | string (handle : Nat)

/-- A handle is the place of its string among those that have been made; the other numbers are
NULL. -/
inductive Call
  | stringNew
  | stringClone (handle : Nat)
  | stringConstruct (psz : Option CString)
  | stringConstructN (psz : Option CString) (n : Nat)
  | stringConcat (handle : Nat) (s2 : Option CString)
  | stringConcatWithString (s1 s2 : Nat)
  | stringCopy (handle : Nat) (s2 : Source)
  | stringCopyN (handle : Nat) (s2 : Option CString) (n : Nat)
  | stringQuote (handle : Nat)
  | stringEmpty (handle : Nat)
  | stringReplace (handle : Nat) (target replace : UInt8)
  | stringLength (handle : Nat)
  | stringCompare (s1 s2 : Nat)

inductive Answer
  | result (result : Int)
  | handle (handle : Option Nat)
  | length (length : Nat)
  | order (order : Int)

/-- The length and the order are always told. -/
def Answer.succeeds : Answer → Bool
  | .result code => code == 0
  | .handle place => place.isSome
  | .length _ => true
  | .order _ => true

def Source.pointer (pool : List StringTag) : Source → Option CharPointer
  | .null => none
  | .text t => some (.text t)
  | .string handle => stringCStr pool[handle]?

def onString (pool : List StringTag) (handle : Nat) (c : StringM (Int × Option StringTag)) :
    StringM (Answer × List StringTag) := do
  let r ← onOne pool handle c
  pure (.result r.1, r.2)

def newString (pool : List StringTag) (c : StringM (Option StringTag)) :
    StringM (Answer × List StringTag) := do
  let r ← makeOne pool c
  pure (.handle r.1, r.2)

def perform (c : Call) (pool : List StringTag) : StringM (Answer × List StringTag) :=
  match c with
  | .stringNew => newString pool Strings.stringNew
  | .stringClone i => newString pool (Strings.stringClone pool[i]?)
  | .stringConstruct psz => newString pool (Strings.stringConstruct psz)
  | .stringConstructN psz n => newString pool (Strings.stringConstructN psz n)
  | .stringConcat i s2 => onString pool i (Strings.stringConcat pool[i]? s2)
  | .stringConcatWithString i j =>
    onString pool i (Strings.stringConcatWithString pool[i]? pool[j]? (i == j))
  | .stringCopy i s2 => onString pool i (Strings.stringCopy pool[i]? (s2.pointer pool))
  | .stringCopyN i s2 n => onString pool i (Strings.stringCopyN pool[i]? s2 n)
  | .stringQuote i => onString pool i (Strings.stringQuote pool[i]?)
  | .stringEmpty i => onString pool i (Strings.stringEmpty pool[i]?)
  | .stringReplace i target replace =>
    onString pool i (Strings.stringReplace pool[i]? target replace)
  | .stringLength i => do
    let length ← Strings.stringLength pool[i]?
    pure (.length length, pool)
  | .stringCompare i j => do
    let order ← Strings.stringCompare pool[i]? pool[j]?
    pure (.order order, pool)

end SharedUtility.Strings
