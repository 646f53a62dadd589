import SharedUtility.Bytes
import SharedUtility.Refcount

/-!
# ConstBuffer — `constbuffer.c`

The payload is the size, and the resource is the copy of the bytes; an empty buffer has none.

* `constBufferCreate`, `constBufferClone`, `constBufferGetContent`, `constBufferDestroy` — the functions,
* `ConstCall` — what threads do with them, a destroy in its steps,
* `constBuffer_run_refines` — every run of calls by owners is defined, and each sees the bytes of the creation.
-/

namespace SharedUtility.ConstBuffer

open Memory SharedOwnership Refcount

abbrev ConstBufferM := HeapM (Cell Nat Bytes)

def constBufferCreateInternal (source : Option Bytes) (size : Nat) : ConstBufferM Ptr :=
  if size = 0 then create size none
  else
    match source with
    | none => fun _ => none
    | some source => if size ≤ source.length then create size (some (source.take size)) else fun _ => none

def constBufferCreate (source : Option Bytes) (size : Nat) : ConstBufferM Ptr :=
  if source = none ∧ size ≠ 0 then pure none else constBufferCreateInternal source size

/-- A `BUFFER` of no bytes has no pointer to them. -/
def constBufferCreateFromBuffer (buffer : Option Bytes) : ConstBufferM Ptr :=
  match buffer with
  | none => pure none
  | some bytes => constBufferCreateInternal (if bytes = [] then none else some bytes) bytes.length

def constBufferClone (constbufferHandle : Ptr) : ConstBufferM Ptr :=
  if constbufferHandle = none then pure none
  else do
    incRef constbufferHandle
    pure constbufferHandle

/-- The size and the bytes. -/
def constBufferGetContent (constbufferHandle : Ptr) : ConstBufferM (Option (Nat × Option Bytes)) :=
  if constbufferHandle = none then pure none
  else do
    let content ← getContent constbufferHandle
    pure (some content)

def constBufferDestroy (os : RefcountOs) (constbufferHandle : Ptr) : ConstBufferM Unit :=
  if constbufferHandle = none then pure () else destroy os constbufferHandle

/-- The first step of `CONSTBUFFER_Destroy`: whether the thread has to free what the handle holds. -/
def destroyBegins (os : RefcountOs) (constbufferHandle : Ptr) : ConstBufferM Bool :=
  if constbufferHandle = none then pure false else decRef os constbufferHandle

theorem constBufferDestroy_eq (os : RefcountOs) (p : Ptr) :
    constBufferDestroy os p = (do
      let last ← destroyBegins os p
      if last then do
        (Micro.freeResource p).run
        (Micro.freeData p).run
      else pure ()) := by
  unfold constBufferDestroy destroyBegins
  by_cases hnull : p = none
  · rw [if_pos hnull, if_pos hnull]
    rfl
  · rw [if_neg hnull, if_neg hnull]
    rfl

/-! ## Threads -/

variable {T : Type} [DecidableEq T]

inductive ConstCall (T : Type)
  | create (t : T) (source : Option Bytes) (size : Nat)
  | createFromBuffer (t : T) (buffer : Option Bytes)
  | event (i : Nat) (event : Event T)

/-- The source is as long as the size says. -/
def ConstCall.valid : ConstCall T → Bool
  | .create _ (some source) size => size ≤ source.length
  | _ => true

/-- The bytes a creation copies; `none` where it is refused. -/
def ConstCall.copied : ConstCall T → Option Bytes
  | .create _ none size => if size = 0 then some [] else none
  | .create _ (some source) size => some (source.take size)
  | .createFromBuffer _ buffer => buffer
  | .event _ _ => none

def made (s : System T Nat Bytes) (m : ConstBufferM Ptr) : Option (Answer Nat Bytes × System T Nat Bytes) := do
  let (p, heap) ← m s.heap
  some (.made p.isSome, { s with heap, handles := s.handles ++ if p = none then [] else [p] })

def ConstCall.perform (os : RefcountOs) (s : System T Nat Bytes) :
    ConstCall T → Option (Answer Nat Bytes × System T Nat Bytes)
  | .create _ source size => made s (constBufferCreate source size)
  | .createFromBuffer _ buffer => made s (constBufferCreateFromBuffer buffer)
  | .event i (.clone _) => do
    let p ← s.handles[i]?
    let (_, heap) ← constBufferClone p s.heap
    some (.done, { s with heap })
  | .event i (.use _) => do
    let p ← s.handles[i]?
    let (content, heap) ← constBufferGetContent p s.heap
    some (content.elim .done fun content => .content content.1 content.2, { s with heap })
  | .event _ (.give _ _) => some (.done, s)
  | .event i (.drop t) => do
    let p ← s.handles[i]?
    let (last, heap) ← destroyBegins os p s.heap
    some (.done, { s with
      heap
      todo := if last then Function.update s.todo t [.freeResource p, .freeData p] else s.todo })
  | .event _ (.finish t) =>
    match s.todo t with
    | [] => none
    | step :: rest => do
      let (_, heap) ← step.run s.heap
      some (.done, { s with heap, todo := Function.update s.todo t rest })

/-! ## The refinement -/

/-- The size of the bytes, and a copy of them, if there are any. -/
def contentOf (bytes : Bytes) : Nat × Option Bytes :=
  (bytes.length, if bytes = [] then none else some bytes)

/-- The call as one on counted objects; a creation that is refused is none. -/
def ConstCall.counted : ConstCall T → Option (Call T Nat Bytes)
  | .create t source size =>
    (ConstCall.create t source size).copied.map fun bytes => .create t (contentOf bytes).1 (contentOf bytes).2
  | .createFromBuffer t buffer => buffer.map fun bytes => .create t (contentOf bytes).1 (contentOf bytes).2
  | .event i e => some (.event i e)

section

variable {os : RefcountOs} {s : System T Nat Bytes} {source : Option Bytes} {size : Nat}

omit [DecidableEq T] in
theorem constBufferCreate_eq (t : T) (hvalid : (ConstCall.create t source size).valid = true) :
    constBufferCreate source size =
      match (ConstCall.create t source size).copied with
      | none => pure none
      | some bytes => create (contentOf bytes).1 (contentOf bytes).2 := by
  unfold constBufferCreate constBufferCreateInternal
  rcases source with _ | source
  · by_cases hzero : size = 0
    · subst hzero
      rfl
    · simp only [ConstCall.copied, if_neg hzero]
      exact if_pos ⟨trivial, hzero⟩
  · have hlength : (source.take size).length = size := List.length_take_of_le (of_decide_eq_true hvalid)
    have hgiven : ¬(some source = none ∧ size ≠ 0) := by
      rintro ⟨⟨⟩, -⟩
    rw [if_neg hgiven]
    by_cases hzero : size = 0
    · subst hzero
      rfl
    · have hne : source.take size ≠ [] := List.ne_nil_of_length_pos (by omega)
      simp only [ConstCall.copied, contentOf, if_neg hzero, if_neg hne, hlength,
        if_pos (of_decide_eq_true hvalid : size ≤ source.length)]

theorem constBufferCreateFromBuffer_eq (bytes : Bytes) :
    constBufferCreateFromBuffer (some bytes) = create (contentOf bytes).1 (contentOf bytes).2 := by
  unfold constBufferCreateFromBuffer constBufferCreateInternal contentOf
  by_cases hnil : bytes = []
  · subst hnil
    rfl
  · have hpos : bytes.length ≠ 0 := fun hzero => hnil (List.eq_nil_of_length_eq_zero hzero)
    simp only [if_neg hnil, if_neg hpos, if_pos (Nat.le_refl bytes.length), List.take_length]

theorem perform_counted {call : ConstCall T} {counted : Call T Nat Bytes} (hvalid : call.valid = true)
    (hcounted : call.counted = some counted) {r : Answer Nat Bytes × System T Nat Bytes}
    (hperform : s.perform os counted = some r) : call.perform os s = some r := by
  rcases call with ⟨t, source, size⟩ | ⟨t, buffer⟩ | ⟨i, e⟩
  case create =>
    rcases Option.map_eq_some_iff.1 hcounted with ⟨bytes, hcopied, rfl⟩
    rw [ConstCall.perform, constBufferCreate_eq t hvalid, hcopied]
    exact hperform
  case createFromBuffer =>
    rcases Option.map_eq_some_iff.1 hcounted with ⟨bytes, rfl, rfl⟩
    rw [ConstCall.perform, constBufferCreateFromBuffer_eq]
    exact hperform
  case event =>
    rcases Option.some.inj hcounted with rfl
    cases e with
    | give t t' => exact hperform
    | finish t => exact hperform
    | clone t =>
      rw [System.perform] at hperform
      rcases Option.bind_eq_some_iff.1 hperform with ⟨p, hp, hfound⟩
      rcases Option.bind_eq_some_iff.1 hfound with ⟨⟨_, heap⟩, hinc, hr⟩
      have hne : p ≠ none := by
        rintro rfl
        cases hinc
      have hclone : constBufferClone p s.heap = some (p, heap) := by
        rw [constBufferClone, if_neg hne, bind_eq_of_eq hinc]
        rfl
      rw [ConstCall.perform, hp]
      simp only [Option.bind_eq_bind, Option.bind_some, hclone]
      exact hr
    | use t =>
      rw [System.perform] at hperform
      rcases Option.bind_eq_some_iff.1 hperform with ⟨p, hp, hfound⟩
      rcases Option.bind_eq_some_iff.1 hfound with ⟨⟨content, heap⟩, hget, hr⟩
      have hne : p ≠ none := by
        rintro rfl
        cases hget
      have hcontent : constBufferGetContent p s.heap = some (some content, heap) := by
        rw [constBufferGetContent, if_neg hne, bind_eq_of_eq hget]
        rfl
      rw [ConstCall.perform, hp]
      simp only [Option.bind_eq_bind, Option.bind_some, hcontent]
      exact hr
    | drop t =>
      rw [System.perform] at hperform
      rcases Option.bind_eq_some_iff.1 hperform with ⟨p, hp, hfound⟩
      rcases Option.bind_eq_some_iff.1 hfound with ⟨⟨last, heap⟩, hdec, hr⟩
      have hne : p ≠ none := by
        rintro rfl
        cases hdec
      rw [ConstCall.perform, hp]
      simp only [Option.bind_eq_bind, Option.bind_some, destroyBegins, if_neg hne, hdec]
      exact hr

/-- What a call on constant buffers answers and makes of the objects. -/
def ConstCall.next (call : ConstCall T) (w : World T Nat Bytes) (ok : Bool) :
    Option (Answer Nat Bytes × World T Nat Bytes) :=
  match call.counted with
  | none => some (.made false, w)
  | some counted => w.next ok counted

def ConstCall.allowed (call : ConstCall T) (w : World T Nat Bytes) : Prop :=
  ∀ counted ∈ call.counted, w.allowed counted

/-- From here on every call is defined as long as the calls are allowed; it answers as the objects do, nothing is made
only where an allocation has failed, and when all objects are gone the heap is what it was. -/
def ConstRefines (os : RefcountOs) (before : Heap (Cell Nat Bytes)) (s : System T Nat Bytes)
    (w : World T Nat Bytes) : List (ConstCall T) → Prop
  | [] => (∀ o ∈ w, o.life = .gone) → ∀ q, s.heap.cell q = before.cell q
  | call :: calls =>
    ((∀ o ∈ w, o.life = .gone) → ∀ q, s.heap.cell q = before.cell q) ∧
      (call.valid = true → call.allowed w → ∃ ok answer s' w', call.perform os s = some (answer, s') ∧
        (ok = false → s.heap.failures < s'.heap.failures) ∧ call.next w ok = some (answer, w') ∧
          ConstRefines os before s' w' calls)

omit [DecidableEq T] in
theorem made_refused (s : System T Nat Bytes) : made s (pure none) = some (.made false, s) := by
  have hpure : (pure none : ConstBufferM Ptr) s.heap = some (none, s.heap) := rfl
  rw [made, hpure]
  simp only [Option.bind_eq_bind, Option.bind_some, if_true, List.append_nil, Option.isSome_none]

theorem perform_refused (os : RefcountOs) (s : System T Nat Bytes) {call : ConstCall T} (hvalid : call.valid = true)
    (hcounted : call.counted = none) : call.perform os s = some (.made false, s) := by
  rcases call with ⟨t, source, size⟩ | ⟨t, buffer⟩ | ⟨i, e⟩
  case create =>
    rw [ConstCall.perform, constBufferCreate_eq t hvalid, Option.map_eq_none_iff.1 hcounted]
    exact made_refused s
  case createFromBuffer =>
    rw [ConstCall.perform, Option.map_eq_none_iff.1 hcounted]
    exact made_refused s
  case event => cases hcounted

theorem represents_const_refines (os : RefcountOs) {before : Heap (Cell Nat Bytes)}
    {placed : List (Placed T Nat Bytes)} (hr : Represents before s placed) (calls : List (ConstCall T)) :
    ConstRefines os before s (placed.map Placed.object) calls := by
  induction calls generalizing s placed with
  | nil => exact hr.nothing_left
  | cons call calls ih =>
    refine ⟨hr.nothing_left, fun hvalid hallowed => ?_⟩
    cases hcounted : call.counted with
    | none =>
      refine ⟨true, .made false, s, _, perform_refused os s hvalid hcounted, by rintro ⟨⟩, ?_, ih hr⟩
      rw [ConstCall.next, hcounted]
    | some counted =>
      rcases perform_step os hr counted (hallowed counted hcounted) with
        ⟨ok, answer, s', placed', hperform, hok, hnext, hr'⟩
      refine ⟨ok, answer, s', _, perform_counted hvalid hcounted hperform, hok, ?_, ih hr'⟩
      rw [ConstCall.next, hcounted]
      exact hnext

/-- Threads share constant buffers in any order of their steps: nothing is used after it is freed or freed twice,
every owner sees the bytes of the creation, and what has been dropped by all owners is freed. -/
theorem constBuffer_run_refines (os : RefcountOs) (heap : Heap (Cell Nat Bytes)) (calls : List (ConstCall T)) :
    ConstRefines os heap { heap, handles := [], todo := fun _ => [] } [] calls := by
  have hr : Represents heap ({ heap, handles := [], todo := fun _ => [] } : System T Nat Bytes) [] :=
    ⟨rfl, Owns.nil heap, by rintro _ ⟨⟩, by rintro _ ⟨⟩, fun _ => rfl, List.Pairwise.nil⟩
  exact represents_const_refines os hr calls

end

end SharedUtility.ConstBuffer
