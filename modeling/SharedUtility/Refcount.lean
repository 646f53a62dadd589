import Mathlib.Algebra.Group.Nat.Defs
import Mathlib.Logic.Function.Basic
import SharedUtility.Memory.Owned
import SharedUtility.SharedOwnership

/-!
# Refcount — `refcount.h`, and threads that share counted objects

A counted object links to a resource, which only the object owns. Threads call the functions in any order; the
count is changed atomically, and the thread that brings it to zero frees the resource and the object.

* `incRef`, `decRef`, `refcountCreate` — the macros, in the atomic forms of `refcount_os.h`,
* `System`, `System.perform` — the heap, and what each thread has still to do,
* `World` — the objects with their owners and their content,
* `perform_step` — every call of an owner is defined, and each use gives the content.
-/

namespace SharedUtility.Refcount

open Memory SharedOwnership

/-! ## The macros -/

/-- Where the count is changed atomically: with `stdatomic.h`, the intrinsics of gcc, and on Windows. The plain `++`
and `--` of `pal/generic` and of `REFCOUNT_ATOMIC_DONTCARE` are not for threads. -/
inductive RefcountOs
  | stdAtomic
  | gnuAtomic
  | windows
  deriving DecidableEq, Repr

abbrev CountType := BitVec 32

def RefcountOs.decReturnZero : RefcountOs → CountType
  | .stdAtomic => 1
  | .gnuAtomic => 0
  | .windows => 0

/-- What the atomic decrement returns: the count before it, or after it. -/
def RefcountOs.decReturned (count : CountType) : RefcountOs → CountType
  | .stdAtomic => count
  | .gnuAtomic => count - 1
  | .windows => count - 1

variable {P R : Type}

/-- `REFCOUNT_TYPE(type)`: what is counted is the payload and the link to the resource. -/
structure Counted (P : Type) where
  payload : P
  link : Ptr
  count : CountType

inductive Cell (P R : Type)
  | data (counted : Counted P)
  | resource (value : R)

def readCounted (p : Ptr) : HeapM (Cell P R) (Counted P) := do
  let cell ← read p
  match cell with
  | .data counted => pure counted
  | .resource _ => fun _ => none

def readResource (p : Ptr) : HeapM (Cell P R) R := do
  let cell ← read p
  match cell with
  | .data _ => fun _ => none
  | .resource value => pure value

def incRef (p : Ptr) : HeapM (Cell P R) Unit := do
  let counted ← readCounted p
  write p (.data { counted with count := counted.count + 1 })

/-- `DEC_REF(type, p) == DEC_RETURN_ZERO` -/
def decRef (os : RefcountOs) (p : Ptr) : HeapM (Cell P R) Bool := do
  let counted ← readCounted p
  write p (.data { counted with count := counted.count - 1 })
  pure (os.decReturned counted.count = os.decReturnZero)

/-- The fields of what is counted hold anything until they are set. -/
def refcountCreate (payload : P) : HeapM (Cell P R) Ptr :=
  malloc (.data { payload, link := none, count := 1 })

/-! ## The functions on a counted object -/

/-- The object and its resource, where it has one. -/
def create (payload : P) (resource : Option R) : HeapM (Cell P R) Ptr := do
  let result ← refcountCreate payload
  if result = none then pure none
  else
    match resource with
    | none => pure result
    | some value => do
      let temp ← malloc (.resource value)
      if temp = none then do
        free result
        pure none
      else do
        let counted ← readCounted result
        write result (.data { counted with link := temp })
        pure result

def getContent (p : Ptr) : HeapM (Cell P R) (P × Option R) := do
  let counted ← readCounted p
  if counted.link = none then pure (counted.payload, none)
  else do
    let value ← readResource counted.link
    pure (counted.payload, some value)

def freeResource (p : Ptr) : HeapM (Cell P R) Unit := do
  let counted ← readCounted p
  free counted.link

/-- The whole of a destroy function; other threads may be in between its steps. -/
def destroy (os : RefcountOs) (p : Ptr) : HeapM (Cell P R) Unit := do
  let last ← decRef os p
  if last then do
    freeResource p
    free p
  else pure ()

/-! ## Threads -/

variable {T : Type} [DecidableEq T]

inductive Micro
  | freeResource (p : Ptr)
  | freeData (p : Ptr)
  deriving DecidableEq

def Micro.run : Micro → HeapM (Cell P R) Unit
  | .freeResource p => Refcount.freeResource p
  | .freeData p => free p

structure System (T P R : Type) where
  heap : Heap (Cell P R)
  /-- What the program has been given, in the order of the calls. -/
  handles : List Ptr
  todo : T → List Micro

inductive Call (T P R : Type)
  | create (t : T) (payload : P) (resource : Option R)
  | event (i : Nat) (event : Event T)

/-- What a call has returned: whether an object has been made, or its content. -/
inductive Answer (P R : Type)
  | made (ok : Bool)
  | content (payload : P) (resource : Option R)
  | done

def System.perform (os : RefcountOs) (s : System T P R) : Call T P R → Option (Answer P R × System T P R)
  | .create _ payload resource => do
    let (p, heap) ← create payload resource s.heap
    some (.made p.isSome, { s with heap, handles := s.handles ++ if p = none then [] else [p] })
  | .event i (.clone _) => do
    let p ← s.handles[i]?
    let (_, heap) ← incRef p s.heap
    some (.done, { s with heap })
  | .event i (.use _) => do
    let p ← s.handles[i]?
    let (content, heap) ← getContent p s.heap
    some (.content content.1 content.2, { s with heap })
  | .event _ (.give _ _) => some (.done, s)
  | .event i (.drop t) => do
    let p ← s.handles[i]?
    let (last, heap) ← decRef os p s.heap
    some (.done, { s with
      heap
      todo := if last then Function.update s.todo t [.freeResource p, .freeData p] else s.todo })
  | .event _ (.finish t) =>
    match s.todo t with
    | [] => none
    | step :: rest => do
      let (_, heap) ← step.run s.heap
      some (.done, { s with heap, todo := Function.update s.todo t rest })

/-! ## The objects -/

structure Object (T P R : Type) where
  content : P × Option R
  life : Life T

abbrev World (T P R : Type) := List (Object T P R)

/-- The thread is not taking an object down. -/
def World.idle (w : World T P R) (t : T) : Prop :=
  ∀ o ∈ w, ¬o.life.endedBy t

/-- A count of `2 ^ 32` references would be taken for none. -/
def countLimit : Nat := 2 ^ 32

/-- What a thread is told by its event. -/
def Object.answer (o : Object T P R) : Event T → Answer P R
  | .use _ => .content o.content.1 o.content.2
  | _ => .done

/-- What a call answers and what it makes of the objects; a creation may be refused for want of memory. -/
def World.next (w : World T P R) (ok : Bool) : Call T P R → Option (Answer P R × World T P R)
  | .create t payload resource =>
    if ok then some (.made true, w ++ [{ content := (payload, resource), life := .shared [t] }])
    else some (.made false, w)
  | .event i event => do
    let o ← w[i]?
    let life ← o.life.next countLimit 2 event
    some (o.answer event, w.set i { o with life })

/-- A thread goes on with a teardown, or it has none to do and holds a reference to the object of its call. -/
def World.allowed (w : World T P R) : Call T P R → Prop
  | .create t _ _ => w.idle t
  | .event i event =>
    (∃ o ∈ w[i]?, (o.life.next countLimit 2 event).isSome) ∧ ((∀ t, event ≠ .finish t) → w.idle event.thread)

/-! ## What stands on the heap -/

/-- An object, and where it is. -/
structure Placed (T P R : Type) where
  object : Object T P R
  handle : Ptr
  link : Ptr

namespace Placed

def resourceCells (o : Placed T P R) : List (Ptr × Cell P R) :=
  match o.object.content.2 with
  | none => []
  | some value => [(o.link, .resource value)]

def counted (o : Placed T P R) (count : CountType) : Counted P :=
  { payload := o.object.content.1, link := o.link, count }

def cells (o : Placed T P R) : List (Ptr × Cell P R) :=
  match o.object.life with
  | .shared owners => (o.handle, .data (o.counted (BitVec.ofNat 32 owners.length))) :: o.resourceCells
  | .ending _ left => (o.handle, .data (o.counted 0)) :: if left = 2 then o.resourceCells else []
  | .gone => []

/-- What its last thread has still to do. -/
def todo (o : Placed T P R) (t : T) : List Micro :=
  match o.object.life with
  | .ending last left => if last = t then [.freeResource o.handle, .freeData o.handle].drop (2 - left) else []
  | _ => []

end Placed

/-- The objects are the program's part of the heap, each thread takes down one of them at most, and it has to do
what is left of that. -/
structure Represents (before : Heap (Cell P R)) (s : System T P R) (placed : List (Placed T P R)) : Prop where
  handles : placed.map Placed.handle = s.handles
  owns : Owns before s.heap (placed.flatMap Placed.cells)
  nulls : ∀ o ∈ placed, o.object.content.2 = none → o.link = none
  proper : ∀ o ∈ placed, o.object.life.proper countLimit 2
  todo : ∀ t, s.todo t = placed.flatMap fun o => o.todo t
  one : placed.Pairwise fun o o' => ∀ t, o.object.life.endedBy t → ¬o'.object.life.endedBy t

section

variable {before : Heap (Cell P R)} {s : System T P R} {placed : List (Placed T P R)} {o : Placed T P R}
  {i : Nat} {t : T}

omit [DecidableEq T] in
theorem apart_symm {x y : Placed T P R} (h : ∀ t, x.object.life.endedBy t → ¬y.object.life.endedBy t)
    (t : T) (hy : y.object.life.endedBy t) : ¬x.object.life.endedBy t :=
  fun hx => h t hx hy

omit [DecidableEq T] in
theorem split_at (ho : placed[i]? = some o) :
    placed = placed.take i ++ o :: placed.drop (i + 1) ∧
      ∀ o', placed.set i o' = placed.take i ++ o' :: placed.drop (i + 1) := by
  rcases List.getElem?_eq_some_iff.1 ho with ⟨hi, rfl⟩
  refine ⟨?_, fun o' => List.set_eq_take_cons_drop o' hi⟩
  rw [← List.drop_eq_getElem_cons hi, List.take_append_drop]

def otherCells (placed : List (Placed T P R)) (i : Nat) : List (Ptr × Cell P R) :=
  (placed.take i).flatMap Placed.cells ++ (placed.drop (i + 1)).flatMap Placed.cells

omit [DecidableEq T] in
theorem cells_perm (ho : placed[i]? = some o) (o' : Placed T P R) :
    ((placed.set i o').flatMap Placed.cells).Perm (o'.cells ++ otherCells placed i) := by
  rw [(split_at ho).2 o', List.flatMap_append, List.flatMap_cons, otherCells, ← List.append_assoc,
    ← List.append_assoc]
  exact List.Perm.append_right _ List.perm_append_comm

omit [DecidableEq T] in
theorem cells_perm_self (ho : placed[i]? = some o) :
    (placed.flatMap Placed.cells).Perm (o.cells ++ otherCells placed i) := by
  have hsame := cells_perm ho o
  rcases List.getElem?_eq_some_iff.1 ho with ⟨hi, rfl⟩
  rw [List.set_getElem_self] at hsame
  exact hsame

theorem todo_idle (hidle : ¬o.object.life.endedBy t) : o.todo t = [] := by
  unfold Placed.todo
  cases hlife : o.object.life with
  | ending last left =>
    rw [hlife] at hidle
    exact if_neg hidle
  | _ => rfl

theorem todo_set (ho : placed[i]? = some o) (o' : Placed T P R) (hsame : o'.todo t = o.todo t) :
    ((placed.set i o').flatMap fun o => o.todo t) = placed.flatMap fun o => o.todo t := by
  rcases split_at ho with ⟨hsplit, hset⟩
  rw [hset, List.flatMap_append, List.flatMap_cons, hsame]
  conv_rhs => rw [hsplit, List.flatMap_append, List.flatMap_cons]

def others (placed : List (Placed T P R)) (i : Nat) : List (Placed T P R) :=
  placed.take i ++ placed.drop (i + 1)

omit [DecidableEq T] in
theorem mem_of_others {x : Placed T P R} (hx : x ∈ others placed i) : x ∈ placed := by
  rcases List.mem_append.1 hx with hx | hx
  · exact List.mem_of_mem_take hx
  · exact List.mem_of_mem_drop hx

theorem todo_only (ho : placed[i]? = some o) (o' : Placed T P R)
    (hidle : ∀ x ∈ others placed i, ¬x.object.life.endedBy t) :
    ((placed.set i o').flatMap fun o => o.todo t) = o'.todo t := by
  have hnone : ∀ xs : List (Placed T P R), (∀ x ∈ xs, x ∈ others placed i) →
      (xs.flatMap fun o => o.todo t) = [] := by
    intro xs hxs
    rw [List.flatMap_eq_nil_iff]
    exact fun x hx => todo_idle (hidle x (hxs x hx))
  rw [(split_at ho).2 o', List.flatMap_append, List.flatMap_cons,
    hnone _ fun x hx => List.mem_append_left _ hx, hnone _ fun x hx => List.mem_append_right _ hx,
    List.append_nil, List.nil_append]

/-- The object of the call is as its new life says, and the others are as they were. -/
theorem Represents.set (hr : Represents before s placed) (ho : placed[i]? = some o) (o' : Placed T P R)
    (s' : System T P R) (hhandle : o'.handle = o.handle) (hhandles : s'.handles = s.handles)
    (howns : Owns before s'.heap (o'.cells ++ otherCells placed i))
    (hnull : o'.object.content.2 = none → o'.link = none) (hproper : o'.object.life.proper countLimit 2)
    (htodo : ∀ t, s'.todo t = (placed.set i o').flatMap fun o => o.todo t)
    (hended : ∀ t, o'.object.life.endedBy t → ∀ x ∈ others placed i, ¬x.object.life.endedBy t) :
    Represents before s' (placed.set i o') where
  handles := by
    have hmem := ho
    rw [hhandles, ← hr.handles, List.map_set, hhandle]
    rcases List.getElem?_eq_some_iff.1 ho with ⟨hi, rfl⟩
    rw [← List.map_set, List.set_getElem_self]
  owns := howns.perm (cells_perm ho o').symm
  nulls := by
    intro x hx
    rcases List.mem_or_eq_of_mem_set hx with hx | rfl
    · exact hr.nulls x hx
    · exact hnull
  proper := by
    intro x hx
    rcases List.mem_or_eq_of_mem_set hx with hx | rfl
    · exact hr.proper x hx
    · exact hproper
  todo := htodo
  one := by
    have hone := hr.one
    rw [(split_at ho).1, List.pairwise_middle apart_symm, List.pairwise_cons] at hone
    rw [(split_at ho).2, List.pairwise_middle apart_symm, List.pairwise_cons]
    exact ⟨fun x hx t ht => hended t ht x hx, hone.2⟩

end

/-! ## The functions on the heap -/

section

variable {before h : Heap (Cell P R)} {owned : List (Ptr × Cell P R)} {p : Ptr} {counted : Counted P}

theorem meets_readCounted (ho : Owns before h owned) (hp : (p, .data counted) ∈ owned)
    {Q : Counted P → Heap (Cell P R) → Prop} (hQ : Q counted h) : Meets (readCounted p) h Q := by
  apply Meets.bind
  apply meets_read_owned ho hp
  exact meets_pure hQ

theorem meets_incRef (ho : Owns before h ((p, .data counted) :: owned)) {Q : Unit → Heap (Cell P R) → Prop}
    (hQ : ∀ h', Owns before h' ((p, .data { counted with count := counted.count + 1 }) :: owned) → Q () h') :
    Meets (incRef p) h Q := by
  apply Meets.bind
  apply meets_readCounted ho List.mem_cons_self
  exact meets_write_owned ho hQ

theorem decReturned_eq (os : RefcountOs) (count : CountType) :
    os.decReturned count = os.decReturnZero ↔ count = 1 := by
  have hzero : count - 1 = 0 ↔ count = 1 := by
    have hone : (0 : CountType) + 1 = 1 := by decide
    rw [BitVec.sub_eq_iff_eq_add, hone]
  cases os with
  | stdAtomic => exact Iff.rfl
  | gnuAtomic => exact hzero
  | windows => exact hzero

theorem meets_decRef (os : RefcountOs) (ho : Owns before h ((p, .data counted) :: owned))
    {Q : Bool → Heap (Cell P R) → Prop}
    (hQ : ∀ h', Owns before h' ((p, .data { counted with count := counted.count - 1 }) :: owned) →
      Q (decide (counted.count = 1)) h') :
    Meets (decRef os p) h Q := by
  apply Meets.bind
  apply meets_readCounted ho List.mem_cons_self
  apply Meets.bind
  apply meets_write_owned ho
  intro h' ho'
  apply meets_pure
  rw [decide_eq_decide.2 (decReturned_eq os counted.count)]
  exact hQ h' ho'

theorem owns_allocated (ho : Owns before h owned) : Owns before h.allocated owned :=
  ⟨ho.nodup, ho.unused, ho.holds, ho.others⟩

theorem owns_refused (ho : Owns before h owned) : Owns before h.refused owned :=
  ⟨ho.nodup, ho.unused, ho.holds, ho.others⟩

theorem meets_malloc_owned (ho : Owns before h owned) {value : Cell P R} {Q : Ptr → Heap (Cell P R) → Prop}
    (hyes : ∀ p h', p ≠ none → h'.failures = h.failures → Owns before h' ((p, value) :: owned) → Q p h')
    (hno : ∀ h', h.failures < h'.failures → Owns before h' owned → Q none h') : Meets (malloc value) h Q := by
  apply meets_malloc
  · have howns := (owns_allocated ho).push value
    exact hyes _ _ (howns.place_ne List.mem_cons_self) rfl howns
  · exact hno _ (Nat.lt_succ_self _) (owns_refused ho)

theorem meets_free_kept {v : Cell P R} (ho : Owns before h ((p, v) :: owned)) {Q : Unit → Heap (Cell P R) → Prop}
    (hQ : ∀ h', h'.failures = h.failures → Owns before h' owned → Q () h') : Meets (free p) h Q := by
  have hlive := ho.holds _ List.mem_cons_self
  cases p with
  | none => cases hlive
  | some a => exact meets_free hlive (hQ _ rfl ho.clear)

/-- The object is made, with its resource; or an allocation has failed, and nothing is. -/
theorem meets_create (ho : Owns before h owned) (payload : P) (resource : Option R)
    {Q : Ptr → Heap (Cell P R) → Prop}
    (hyes : ∀ p link h', p ≠ none → (resource = none → link = none) →
      Owns before h' ((p, .data { payload, link, count := 1 }) ::
        (resource.toList.map fun value => (link, .resource value)) ++ owned) → Q p h')
    (hno : ∀ h', h.failures < h'.failures → Owns before h' owned → Q none h') :
    Meets (create payload resource) h Q := by
  apply Meets.bind
  apply meets_malloc_owned ho
  case hno =>
    intro h₁ hfailed ho₁
    rw [if_pos rfl]
    exact meets_pure (hno h₁ hfailed ho₁)
  case hyes =>
    intro p h₁ hp hkept₁ ho₁
    rw [if_neg hp]
    cases resource with
    | none => exact meets_pure (hyes p none h₁ hp (fun _ => rfl) ho₁)
    | some value =>
      apply Meets.bind
      apply meets_malloc_owned ho₁
      case hno =>
        intro h₂ hfailed ho₂
        rw [if_pos rfl]
        apply Meets.bind
        apply meets_free_kept ho₂
        intro h₃ hkept₃ ho₃
        exact meets_pure (hno h₃ (by rw [hkept₃, ← hkept₁]; exact hfailed) ho₃)
      case hyes =>
        intro temp h₂ htemp _ ho₂
        rw [if_neg htemp]
        have hswapped := ho₂.perm (List.Perm.swap _ _ _)
        apply Meets.bind
        apply meets_readCounted hswapped List.mem_cons_self
        apply Meets.bind
        apply meets_write_owned hswapped
        intro h₃ ho₃
        exact meets_pure (hyes p temp h₃ hp (by rintro ⟨⟩) ho₃)

theorem meets_getContent {value : Option R} (ho : Owns before h owned) (hp : (p, .data counted) ∈ owned)
    (hnull : value = none → counted.link = none) (hlink : ∀ v, value = some v → (counted.link, .resource v) ∈ owned)
    {Q : P × Option R → Heap (Cell P R) → Prop} (hQ : Q (counted.payload, value) h) :
    Meets (getContent p) h Q := by
  apply Meets.bind
  apply meets_readCounted ho hp
  cases value with
  | none =>
    rw [if_pos (hnull rfl)]
    exact meets_pure hQ
  | some v =>
    rw [if_neg (ho.place_ne (hlink v rfl))]
    apply Meets.bind
    apply Meets.bind
    apply meets_read_owned ho (hlink v rfl)
    apply meets_pure
    exact meets_pure hQ

theorem meets_freeResource {value : Option R}
    (ho : Owns before h ((p, .data counted) :: ((value.toList.map fun v => (counted.link, .resource v)) ++ owned)))
    (hnull : value = none → counted.link = none) {Q : Unit → Heap (Cell P R) → Prop}
    (hQ : ∀ h', Owns before h' ((p, .data counted) :: owned) → Q () h') : Meets (freeResource p) h Q := by
  apply Meets.bind
  apply meets_readCounted ho List.mem_cons_self
  cases value with
  | none =>
    rw [hnull rfl]
    exact ⟨(), h, rfl, hQ h ho⟩
  | some v =>
    apply meets_free_owned (ho.perm (List.Perm.swap _ _ _))
    intro h' ho' _
    exact hQ h' ho'

end

/-! ## The steps -/

/-- The object, later in its life. -/
def Placed.withLife (o : Placed T P R) (life : Life T) : Placed T P R :=
  { o with object := { o.object with life } }

section

variable {before : Heap (Cell P R)} {s : System T P R} {placed : List (Placed T P R)} {o : Placed T P R}
  {i : Nat} {t : T} {owners : List T}

omit [DecidableEq T] in
theorem cells_shared (hlife : o.object.life = .shared owners) :
    o.cells = (o.handle, .data (o.counted (BitVec.ofNat 32 owners.length))) :: o.resourceCells := by
  rw [Placed.cells, hlife]

omit [DecidableEq T] in
theorem cells_ending {left : Nat} (hlife : o.object.life = .ending t left) :
    o.cells = (o.handle, .data (o.counted 0)) :: if left = 2 then o.resourceCells else [] := by
  rw [Placed.cells, hlife]

omit [DecidableEq T] in
theorem resourceCells_eq (o : Placed T P R) :
    o.resourceCells = o.object.content.2.toList.map fun value => (o.link, .resource value) := by
  unfold Placed.resourceCells
  cases o.object.content.2 <;> rfl

theorem Represents.handle (hr : Represents before s placed) (ho : placed[i]? = some o) :
    s.handles[i]? = some o.handle := by
  rw [← hr.handles, List.getElem?_map, ho]
  rfl

theorem Represents.owns_first (hr : Represents before s placed) (ho : placed[i]? = some o) :
    Owns before s.heap (o.cells ++ otherCells placed i) :=
  hr.owns.perm (cells_perm_self ho)

theorem Represents.null (hr : Represents before s placed) (ho : placed[i]? = some o) :
    o.object.content.2 = none → o.link = none :=
  hr.nulls o (List.mem_of_getElem? ho)

theorem todo_shared (hlife : o.object.life = .shared owners) (t : T) : o.todo t = [] := by
  rw [Placed.todo, hlife]

theorem Represents.shared (hr : Represents before s placed) (ho : placed[i]? = some o)
    (hlife : o.object.life = .shared owners) {owners' : List T} {heap : Heap (Cell P R)}
    (howns : Owns before heap ((o.handle, .data (o.counted (BitVec.ofNat 32 owners'.length))) ::
      (o.resourceCells ++ otherCells placed i)))
    (hproper : (Life.shared owners').proper countLimit 2) :
    Represents before { s with heap } (placed.set i (o.withLife (.shared owners'))) := by
  have hnull := hr.null ho
  apply hr.set ho (o.withLife (.shared owners')) { s with heap } rfl rfl howns hnull hproper
  · intro t
    rw [todo_set ho, hr.todo]
    rw [todo_shared hlife, todo_shared rfl]
  · exact fun t ht => ht.elim

theorem perform_clone (os : RefcountOs) (hr : Represents before s placed) (ho : placed[i]? = some o)
    (hlife : o.object.life = .shared owners) (t : T) (hroom : owners.length + 1 < countLimit) :
    ∃ s', s.perform os (.event i (.clone t)) = some (.done, s') ∧
      Represents before s' (placed.set i (o.withLife (.shared (t :: owners)))) := by
  have howns := hr.owns_first ho
  rw [cells_shared hlife] at howns
  have hmeets : Meets (incRef o.handle) s.heap fun _ h' => Owns before h'
      ((o.handle, .data (o.counted (BitVec.ofNat 32 owners.length + 1))) ::
        (o.resourceCells ++ otherCells placed i)) :=
    meets_incRef howns fun _ ho' => ho'
  rcases hmeets with ⟨_, heap, hinc, ho'⟩
  refine ⟨{ s with heap }, ?_, hr.shared ho hlife ?_ ⟨List.cons_ne_nil _ _, hroom⟩⟩
  · rw [System.perform, hr.handle ho]
    simp only [Option.bind_eq_bind, Option.bind_some, hinc]
  · have hcount : BitVec.ofNat 32 owners.length + 1 = BitVec.ofNat 32 (t :: owners).length := by
      rw [List.length_cons, BitVec.ofNat_add]
      rfl
    rw [← hcount]
    exact ho'

theorem perform_use (os : RefcountOs) (hr : Represents before s placed) (ho : placed[i]? = some o)
    (hlife : o.object.life = .shared owners) (t : T) :
    s.perform os (.event i (.use t)) = some (o.object.answer (.use t), s) := by
  have howns := hr.owns_first ho
  rw [cells_shared hlife] at howns
  have hlink : ∀ v, o.object.content.2 = some v → (o.link, Cell.resource v) ∈
      (o.handle, .data (o.counted (BitVec.ofNat 32 owners.length))) ::
        o.resourceCells ++ otherCells placed i := by
    intro v hv
    apply List.mem_cons_of_mem
    apply List.mem_append_left
    rw [resourceCells_eq, hv]
    exact List.mem_singleton_self _
  rcases meets_getContent (Q := fun r h => r = o.object.content ∧ h = s.heap) howns List.mem_cons_self (hr.null ho)
    hlink ⟨rfl, rfl⟩ with ⟨content, heap, hget, rfl, rfl⟩
  rw [System.perform, hr.handle ho]
  simp only [Option.bind_eq_bind, Option.bind_some, hget]
  rfl

theorem perform_give (os : RefcountOs) (hr : Represents before s placed) (ho : placed[i]? = some o)
    (hlife : o.object.life = .shared owners) {t : T} (t' : T) (ht : t ∈ owners) :
    s.perform os (.event i (.give t t')) = some (.done, s) ∧
      Represents before s (placed.set i (o.withLife (.shared (t' :: owners.erase t)))) := by
  refine ⟨rfl, hr.shared ho hlife ?_ ⟨List.cons_ne_nil _ _, ?_⟩⟩
  · have howns := hr.owns_first ho
    rw [cells_shared hlife] at howns
    rw [List.length_cons, Life.length_erase ht]
    exact howns
  · rcases hlife ▸ hr.proper o (List.mem_of_getElem? ho) with ⟨-, hlimit⟩
    rw [List.length_cons, Life.length_erase ht]
    exact hlimit

/-- One reference less; the count of the last one is 1, since there are less than `countLimit`. -/
theorem perform_drop (os : RefcountOs) (hr : Represents before s placed) (ho : placed[i]? = some o)
    (hlife : o.object.life = .shared owners) {t : T} (ht : t ∈ owners)
    (hidle : ∀ x ∈ placed, ¬x.object.life.endedBy t) :
    ∃ s', s.perform os (.event i (.drop t)) = some (.done, s') ∧
      Represents before s' (placed.set i (o.withLife
        (if owners.length = 1 then .ending t 2 else .shared (owners.erase t)))) := by
  rcases hlife ▸ hr.proper o (List.mem_of_getElem? ho) with ⟨-, hlimit⟩
  have hlength := Life.length_erase ht
  have howns := hr.owns_first ho
  rw [cells_shared hlife] at howns
  have hmeets : Meets (decRef os o.handle) s.heap fun last h' =>
      last = decide (owners.length = 1) ∧ Owns before h'
        ((o.handle, .data (o.counted (BitVec.ofNat 32 (owners.erase t).length))) ::
          (o.resourceCells ++ otherCells placed i)) := by
    apply meets_decRef os howns
    intro h' ho'
    have hone : (BitVec.ofNat 32 owners.length = 1) ↔ owners.length = 1 := by
      have hmod : owners.length % 2 ^ 32 = owners.length := Nat.mod_eq_of_lt hlimit
      rw [← BitVec.toNat_inj, BitVec.toNat_ofNat, hmod]
      exact Iff.rfl
    have hcount : BitVec.ofNat 32 owners.length - 1 = BitVec.ofNat 32 (owners.erase t).length := by
      rw [← hlength, BitVec.ofNat_add]
      exact BitVec.add_sub_cancel _ _
    refine ⟨decide_eq_decide.2 hone, ?_⟩
    rw [← hcount]
    exact ho'
  rcases hmeets with ⟨last, heap, hdec, rfl, ho'⟩
  have hperform : s.perform os (.event i (.drop t)) =
      some (.done, { s with
        heap
        todo := if decide (owners.length = 1) then
          Function.update s.todo t [.freeResource o.handle, .freeData o.handle] else s.todo }) := by
    rw [System.perform, hr.handle ho]
    simp only [Option.bind_eq_bind, Option.bind_some, hdec]
  refine ⟨_, hperform, ?_⟩
  by_cases hlast : owners.length = 1
  case neg =>
    rw [if_neg hlast, decide_eq_false hlast]
    exact hr.shared ho hlife ho' ⟨List.ne_nil_of_length_pos (by omega), by omega⟩
  case pos =>
    rw [if_pos hlast, decide_eq_true hlast, if_pos rfl]
    have hzero : (owners.erase t).length = 0 := by omega
    have hnull := hr.null ho
    rw [hzero] at ho'
    apply hr.set ho (o.withLife (.ending t 2))
      { s with heap, todo := Function.update s.todo t [.freeResource o.handle, .freeData o.handle] } rfl rfl ho' hnull
      ⟨by decide, Nat.le_refl 2⟩
    · intro t'
      by_cases htt : t' = t
      · subst htt
        rw [todo_only ho _ fun x hx => hidle x (mem_of_others hx)]
        simp [Placed.todo, Placed.withLife]
      · have hother : (o.withLife (.ending t 2)).todo t' = o.todo t' := by
          rw [todo_shared hlife]
          exact if_neg (Ne.symm htt)
        rw [todo_set ho _ hother, ← hr.todo]
        exact Function.update_of_ne htt _ _
    · rintro t' rfl x hx
      exact hidle x (mem_of_others hx)

theorem Represents.others_idle (hr : Represents before s placed) (ho : placed[i]? = some o)
    (hended : o.object.life.endedBy t) : ∀ x ∈ others placed i, ¬x.object.life.endedBy t := by
  have hone := hr.one
  rw [(split_at ho).1, List.pairwise_middle apart_symm, List.pairwise_cons] at hone
  exact fun x hx => hone.1 x hx t hended

theorem perform_finish (os : RefcountOs) (hr : Represents before s placed) (ho : placed[i]? = some o) {t : T}
    {left : Nat} (hlife : o.object.life = .ending t left) :
    ∃ s', s.perform os (.event i (.finish t)) = some (.done, s') ∧
      Represents before s' (placed.set i (o.withLife
        (if left ≤ 1 then .gone else .ending t (left - 1)))) := by
  rcases hlife ▸ hr.proper o (List.mem_of_getElem? ho) with ⟨hpos, hleft⟩
  have hended : o.object.life.endedBy t := by
    rw [hlife]
    rfl
  have hidle := hr.others_idle ho hended
  have howns := hr.owns_first ho
  have hnull := hr.null ho
  have hmine : s.todo t = [Micro.freeResource o.handle, .freeData o.handle].drop (2 - left) := by
    have honly := todo_only ho o hidle
    rcases List.getElem?_eq_some_iff.1 ho with ⟨hi, rfl⟩
    rw [List.set_getElem_self] at honly
    rw [hr.todo, honly, Placed.todo, hlife]
    exact if_pos rfl
  -- What the other threads have to do does not change.
  have hothers : ∀ {rest : List Micro} {life : Life T}, (o.withLife life).todo t = rest →
      (∀ t', t' ≠ t → (o.withLife life).todo t' = []) → ∀ t', Function.update s.todo t rest t' =
        (placed.set i (o.withLife life)).flatMap fun o => o.todo t' := by
    intro rest life hrest hnone t'
    by_cases htt : t' = t
    · rw [htt, Function.update_self, todo_only ho _ hidle, hrest]
    · have hother : o.todo t' = [] := by
        rw [Placed.todo, hlife]
        exact if_neg (Ne.symm htt)
      rw [Function.update_of_ne htt, todo_set ho _ ((hnone t' htt).trans hother.symm), hr.todo]
  rw [cells_ending hlife] at howns
  rcases Nat.lt_or_ge 1 left with htwo | hone
  case inl =>
    obtain rfl : left = 2 := by omega
    rw [if_pos rfl] at howns
    have hmeets : Meets (freeResource o.handle) s.heap fun _ h' => Owns before h'
        ((o.handle, .data (o.counted 0)) :: otherCells placed i) := by
      rw [resourceCells_eq] at howns
      exact meets_freeResource howns hnull fun _ ho' => ho'
    rcases hmeets with ⟨_, heap, hfree, ho'⟩
    refine ⟨{ s with heap, todo := Function.update s.todo t [.freeData o.handle] }, ?_, ?_⟩
    · rw [System.perform, hmine]
      change (freeResource o.handle s.heap).bind _ = _
      rw [hfree]
      rfl
    · apply hr.set ho (o.withLife (.ending t 1))
        { s with heap, todo := Function.update s.todo t [.freeData o.handle] } rfl rfl ho' hnull
        ⟨by decide, by decide⟩
      · exact hothers (if_pos rfl) fun t' htt => if_neg (Ne.symm htt)
      · rintro t' rfl x hx
        exact hidle x hx
  case inr =>
    obtain rfl : left = 1 := by omega
    have hmeets : Meets (free o.handle) s.heap fun _ h' => Owns before h' (otherCells placed i) :=
      meets_free_owned howns fun _ ho' _ => ho'
    rcases hmeets with ⟨_, heap, hfree, ho'⟩
    refine ⟨{ s with heap, todo := Function.update s.todo t [] }, ?_, ?_⟩
    · rw [System.perform, hmine]
      change (free o.handle s.heap).bind _ = _
      rw [hfree]
      rfl
    · apply hr.set ho (o.withLife .gone) { s with heap, todo := Function.update s.todo t [] } rfl rfl ho' hnull
        trivial
      · exact hothers rfl fun t' _ => rfl
      · exact fun t' ht => ht.elim

theorem Represents.append (hr : Represents before s placed) (o : Placed T P R) {heap : Heap (Cell P R)}
    (hlife : o.object.life = .shared [t]) (hnull : o.object.content.2 = none → o.link = none)
    (howns : Owns before heap (o.cells ++ placed.flatMap Placed.cells)) :
    Represents before { s with heap, handles := s.handles ++ [o.handle] } (placed ++ [o]) where
  handles := by rw [List.map_append, hr.handles, List.map_singleton]
  owns := by
    rw [List.flatMap_append, List.flatMap_singleton]
    exact howns.perm List.perm_append_comm
  nulls := by
    intro x hx
    rcases List.mem_append.1 hx with hx | hx
    · exact hr.nulls x hx
    · rcases List.mem_singleton.1 hx with rfl
      exact hnull
  proper := by
    intro x hx
    rcases List.mem_append.1 hx with hx | hx
    · exact hr.proper x hx
    · rcases List.mem_singleton.1 hx with rfl
      rw [hlife]
      exact ⟨List.cons_ne_nil _ _, Nat.one_lt_two_pow (by decide)⟩
  todo := by
    intro t'
    rw [List.flatMap_append, List.flatMap_singleton, todo_shared hlife, List.append_nil]
    exact hr.todo t'
  one := by
    rw [List.pairwise_append]
    refine ⟨hr.one, List.pairwise_singleton _ _, ?_⟩
    intro x _ y hy t' _
    rcases List.mem_singleton.1 hy with rfl
    rw [hlife]
    exact id

theorem perform_create (os : RefcountOs) (hr : Represents before s placed) (t : T) (payload : P)
    (resource : Option R) :
    ∃ ok s' placed', s.perform os (.create t payload resource) = some (.made ok, s') ∧
      (ok = false → s.heap.failures < s'.heap.failures) ∧
      placed'.map Placed.object =
        placed.map Placed.object ++
          (if ok then [{ content := (payload, resource), life := .shared [t] }] else []) ∧
      Represents before s' placed' := by
  have hmeets : Meets (create payload resource) s.heap fun p h' =>
      (p = none ∧ s.heap.failures < h'.failures ∧ Owns before h' (placed.flatMap Placed.cells)) ∨
      (p ≠ none ∧ ∃ link, (resource = none → link = none) ∧
        Owns before h' ((p, .data { payload, link, count := 1 }) ::
          (resource.toList.map fun value => (link, .resource value)) ++ placed.flatMap Placed.cells)) :=
    meets_create hr.owns payload resource (fun p link h' hp hnull ho' => .inr ⟨hp, link, hnull, ho'⟩)
      fun h' hfailed ho' => .inl ⟨rfl, hfailed, ho'⟩
  rcases hmeets with ⟨p, heap, hcreate, ⟨rfl, hfailed, ho'⟩ | ⟨hp, link, hnull, ho'⟩⟩
  · refine ⟨false, { s with heap }, placed, ?_, fun _ => hfailed, ?_, ?_⟩
    · rw [System.perform, hcreate]
      simp only [Option.bind_eq_bind, Option.bind_some, if_true, List.append_nil, Option.isSome_none]
    · rw [if_neg Bool.false_ne_true, List.append_nil]
    · exact ⟨hr.handles, ho', hr.nulls, hr.proper, hr.todo, hr.one⟩
  · let o : Placed T P R :=
      { object := { content := (payload, resource), life := .shared [t] }, handle := p, link }
    refine ⟨true, { s with heap, handles := s.handles ++ [p] }, placed ++ [o], ?_, by rintro ⟨⟩, ?_, ?_⟩
    · rw [System.perform, hcreate]
      simp only [Option.bind_eq_bind, Option.bind_some, if_neg hp, Option.isSome_iff_ne_none.2 hp]
    · rw [List.map_append, if_pos rfl]
      rfl
    · apply hr.append o rfl hnull
      rw [cells_shared rfl, resourceCells_eq]
      exact ho'

theorem perform_event (os : RefcountOs) (hr : Represents before s placed) (ho : placed[i]? = some o)
    {event : Event T} {life : Life T} (hnext : o.object.life.next countLimit 2 event = some life)
    (hfree : (∀ t, event ≠ .finish t) → ∀ x ∈ placed, ¬x.object.life.endedBy event.thread) :
    ∃ s', s.perform os (.event i event) = some (o.object.answer event, s') ∧
      Represents before s' (placed.set i (o.withLife life)) := by
  cases hlife : o.object.life with
  | gone =>
    rw [hlife] at hnext
    cases event <;> cases hnext
  | ending last left =>
    rw [hlife] at hnext
    cases event with
    | finish t =>
      rcases Option.ite_none_right_eq_some.1 hnext with ⟨rfl, heq⟩
      rcases Option.some.inj heq with rfl
      exact perform_finish os hr ho hlife
    | _ => cases hnext
  | shared owners =>
    rw [hlife] at hnext
    cases event with
    | finish t => cases hnext
    | clone t =>
      rcases Option.ite_none_right_eq_some.1 hnext with ⟨⟨-, hroom⟩, heq⟩
      rcases Option.some.inj heq with rfl
      exact perform_clone os hr ho hlife t hroom
    | use t =>
      rcases Option.ite_none_right_eq_some.1 hnext with ⟨-, heq⟩
      rcases Option.some.inj heq with rfl
      refine ⟨s, perform_use os hr ho hlife t, ?_⟩
      rw [← hlife]
      rcases List.getElem?_eq_some_iff.1 ho with ⟨hi, rfl⟩
      have hsame : placed[i].withLife placed[i].object.life = placed[i] := rfl
      rw [hsame, List.set_getElem_self]
      exact hr
    | give t t' =>
      rcases Option.ite_none_right_eq_some.1 hnext with ⟨ht, heq⟩
      rcases Option.some.inj heq with rfl
      exact ⟨s, perform_give os hr ho hlife t' ht⟩
    | drop t =>
      rcases Option.ite_none_right_eq_some.1 hnext with ⟨ht, heq⟩
      rcases Option.some.inj heq with rfl
      exact perform_drop os hr ho hlife ht (hfree (by rintro _ ⟨⟩))

/-- Every allowed call is defined, and answers as the objects do; only where memory has run out nothing is made. -/
theorem perform_step (os : RefcountOs) (hr : Represents before s placed) (call : Call T P R)
    (hallowed : World.allowed (placed.map Placed.object) call) :
    ∃ ok answer s' placed', s.perform os call = some (answer, s') ∧
      (ok = false → s.heap.failures < s'.heap.failures) ∧
      World.next (placed.map Placed.object) ok call = some (answer, placed'.map Placed.object) ∧
      Represents before s' placed' := by
  rcases call with ⟨t, payload, resource⟩ | ⟨i, event⟩
  case create =>
    rcases perform_create os hr t payload resource with ⟨ok, s', placed', hperform, hok, hobjects, hr'⟩
    refine ⟨ok, .made ok, s', placed', hperform, hok, ?_, hr'⟩
    rw [hobjects]
    cases ok with
    | false => rw [if_neg Bool.false_ne_true, List.append_nil]; rfl
    | true => rfl
  case event =>
    rcases hallowed with ⟨⟨object, hobject, hsome⟩, hidle⟩
    rcases Option.isSome_iff_exists.1 hsome with ⟨life, hnext⟩
    have hobject : (placed.map Placed.object)[i]? = some object := hobject
    rw [List.getElem?_map, Option.map_eq_some_iff] at hobject
    rcases hobject with ⟨o, ho, rfl⟩
    have hfree : (∀ t, event ≠ .finish t) → ∀ x ∈ placed, ¬x.object.life.endedBy event.thread :=
      fun hevent x hx => hidle hevent x.object (List.mem_map_of_mem hx)
    rcases perform_event os hr ho hnext hfree with ⟨s', hperform, hr'⟩
    refine ⟨true, o.object.answer event, s', _, hperform, by rintro ⟨⟩, ?_, hr'⟩
    rw [World.next, List.getElem?_map, ho, List.map_set]
    simp only [Option.bind_eq_bind, Option.map_some, Option.bind_some, hnext]
    rfl

theorem Represents.nothing_left (hr : Represents before s placed)
    (hgone : ∀ o ∈ placed.map Placed.object, o.life = .gone) (q : Ptr) : s.heap.cell q = before.cell q := by
  have hnone : placed.flatMap Placed.cells = [] := by
    rw [List.flatMap_eq_nil_iff]
    intro o ho
    rw [Placed.cells, hgone o.object (List.mem_map_of_mem ho)]
  have howns := hr.owns
  rw [hnone] at howns
  exact howns.same q

end

end SharedUtility.Refcount
