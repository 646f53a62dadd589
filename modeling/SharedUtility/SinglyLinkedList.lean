import SharedUtility.Bytes
import SharedUtility.Memory.Segment

/-!
# SinglyLinkedList — the lists of `singlylinkedlist.c`

* `ListItemInstance`, `ListInstance`, `Storage` — the cells that are allocated, and the list,
* `singlylinkedlistAdd` … — the functions; `none` stands for undefined behaviour, the use of a cell that
  is not allocated, and for a loop that goes on for more rounds than `fuel`,
* `Represents` — the cells from the head on are the items of a sequence, and the tail is the last.
-/

namespace SharedUtility.SinglyLinkedList

open Memory

structure ListItemInstance (α : Type) where
  item : α
  next : Ptr

structure ListInstance where
  head : Ptr := none
  tail : Ptr := none

structure Storage (α : Type) where
  cells : Nat → Option (ListItemInstance α)
  list : ListInstance := {}

variable {α σ : Type}

namespace Storage

def setCell (s : Storage α) (a : Nat) (content : Option (ListItemInstance α)) : Storage α :=
  { s with cells := Function.update s.cells a content }

def setHead (s : Storage α) (p : Ptr) : Storage α :=
  { s with list := { s.list with head := p } }

def setTail (s : Storage α) (p : Ptr) : Storage α :=
  { s with list := { s.list with tail := p } }

@[simp] theorem setCell_list (s : Storage α) (a : Nat) (content : Option (ListItemInstance α)) :
    (s.setCell a content).list = s.list := rfl
@[simp] theorem setCell_cells (s : Storage α) (a : Nat) (content : Option (ListItemInstance α)) :
    (s.setCell a content).cells = Function.update s.cells a content := rfl
@[simp] theorem setHead_cells (s : Storage α) (p : Ptr) : (s.setHead p).cells = s.cells := rfl
@[simp] theorem setHead_head (s : Storage α) (p : Ptr) : (s.setHead p).list.head = p := rfl
@[simp] theorem setHead_tail (s : Storage α) (p : Ptr) :
    (s.setHead p).list.tail = s.list.tail := rfl
@[simp] theorem setTail_cells (s : Storage α) (p : Ptr) : (s.setTail p).cells = s.cells := rfl
@[simp] theorem setTail_head (s : Storage α) (p : Ptr) :
    (s.setTail p).list.head = s.list.head := rfl
@[simp] theorem setTail_tail (s : Storage α) (p : Ptr) : (s.setTail p).list.tail = p := rfl

/-- `p->next = next`. -/
def setNext (s : Storage α) (p next : Ptr) : Option (Storage α) :=
  match p with
  | none => none
  | some a => (s.cells a).map fun cell => s.setCell a (some { cell with next := next })

/-- `free (p)` of a cell. -/
def free (s : Storage α) (a : Nat) : Option (Storage α) :=
  (s.cells a).map fun _ => s.setCell a none

end Storage

/-! ## The functions -/

/-- `singlylinkedlist_add`; `allocated` is what `malloc` returns, and a NULL item is `none`. -/
def singlylinkedlistAdd (item : Option α) (allocated : Ptr) (s : Storage α) :
    Option (Ptr × Storage α) :=
  match item, allocated with
  | none, _ => some (none, s)
  | some _, none => some (none, s)
  | some item, some a =>
    let s := s.setCell a (some { item := item, next := none })
    if s.list.head = none then some (some a, (s.setHead (some a)).setTail (some a))
    else (s.setNext s.list.tail (some a)).map fun s => (some a, s.setTail (some a))

/-- The branch of the loops that takes out the current cell `a`, which `next` follows. -/
def takeOut (a : Nat) (previous next : Ptr) (s : Storage α) : Option (Storage α) := do
  let s ← if previous ≠ none then s.setNext previous next else some (s.setHead next)
  let s := if some a = s.list.tail then s.setTail previous else s
  s.free a

/-- The loop of `singlylinkedlist_remove`: where it ends. -/
def removeLoop (item : Nat) : Nat → Ptr → Ptr → Storage α → Option (Ptr × Storage α)
  | 0, _, _, _ => none
  | _ + 1, none, _, s => some (none, s)
  | fuel + 1, some a, previous, s => do
    let cell ← s.cells a
    if a = item then do
      let s ← takeOut a previous cell.next s
      some (some a, s)
    else removeLoop item fuel cell.next (some a) s

def singlylinkedlistRemove (fuel : Nat) (item : Ptr) (s : Storage α) : Option (Int × Storage α) :=
  match item with
  | none => some (failure, s)
  | some item => do
    let (currentItem, s) ← removeLoop item fuel s.list.head none s
    if currentItem = none then some (failure, s) else some (0, s)

def singlylinkedlistGetHeadItem (s : Storage α) : Ptr :=
  s.list.head

def singlylinkedlistGetNextItem (itemHandle : Ptr) (s : Storage α) : Option Ptr :=
  match itemHandle with
  | none => some none
  | some a => (s.cells a).map ListItemInstance.next

/-- `singlylinkedlist_item_get_value`; the value of NULL is NULL. -/
def singlylinkedlistItemGetValue (itemHandle : Ptr) (s : Storage α) : Option (Option α) :=
  match itemHandle with
  | none => some none
  | some a => (s.cells a).map fun cell => some cell.item

/-- The loop of `singlylinkedlist_find`. -/
def findLoop (matchFunction : Nat → Bool) : Nat → Ptr → Storage α → Option Ptr
  | 0, _, _ => none
  | _ + 1, none, _ => some none
  | fuel + 1, some a, s =>
    if matchFunction a = true then some (some a)
    else do
      let cell ← s.cells a
      findLoop matchFunction fuel cell.next s

/-- `singlylinkedlist_find`; the match function, given its context, decides by the handle. -/
def singlylinkedlistFind (fuel : Nat) (matchFunction : Option (Nat → Bool)) (s : Storage α) :
    Option Ptr :=
  match matchFunction with
  | none => some none
  | some matchFunction => findLoop matchFunction fuel s.list.head s

/-- What a condition function does with an item and its context: whether the item is to be removed, and
`continue_processing`. -/
structure Condition (σ : Type) where
  remove : Bool
  continueProcessing : Bool
  context : σ

/-- The loop of `singlylinkedlist_remove_if`. -/
def removeIfLoop (conditionFunction : α → σ → Condition σ) :
    Nat → Ptr → Ptr → σ → Storage α → Option (σ × Storage α)
  | 0, _, _, _, _ => none
  | _ + 1, none, _, context, s => some (context, s)
  | fuel + 1, some a, previous, context, s => do
    let cell ← s.cells a
    let condition := conditionFunction cell.item context
    if condition.remove = true then do
      let s ← takeOut a previous cell.next s
      if condition.continueProcessing = false then some (condition.context, s)
      else removeIfLoop conditionFunction fuel cell.next previous condition.context s
    else if condition.continueProcessing = false then some (condition.context, s)
    else removeIfLoop conditionFunction fuel cell.next (some a) condition.context s

def singlylinkedlistRemoveIf (fuel : Nat) (conditionFunction : Option (α → σ → Condition σ))
    (matchContext : σ) (s : Storage α) : Option (Int × σ × Storage α) :=
  match conditionFunction with
  | none => some (failure, matchContext, s)
  | some conditionFunction =>
    (removeIfLoop conditionFunction fuel s.list.head none matchContext s).map fun r => (0, r)

/-- The loop of `singlylinkedlist_foreach`. -/
def foreachLoop (actionFunction : α → σ → Bool × σ) :
    Nat → Ptr → σ → Storage α → Option σ
  | 0, _, _, _ => none
  | _ + 1, none, context, _ => some context
  | fuel + 1, some a, context, s => do
    let cell ← s.cells a
    let (continueProcessing, context) := actionFunction cell.item context
    if continueProcessing = false then some context
    else foreachLoop actionFunction fuel cell.next context s

def singlylinkedlistForeach (fuel : Nat) (actionFunction : Option (α → σ → Bool × σ))
    (actionContext : σ) (s : Storage α) : Option (Int × σ) :=
  match actionFunction with
  | none => some (failure, actionContext)
  | some actionFunction =>
    (foreachLoop actionFunction fuel s.list.head actionContext s).map fun r => (0, r)

/-! ## Calls -/

/-- The calls; `σ` is the type of the contexts of the callbacks. -/
inductive Call (α σ : Type)
  | add (item : Option α) (allocated : Ptr)
  | remove (item : Ptr)
  | removeIf (conditionFunction : Option (α → σ → Condition σ)) (matchContext : σ)
  | find (matchFunction : Option (Nat → Bool))
  | foreach (actionFunction : Option (α → σ → Bool × σ)) (actionContext : σ)
  | getHeadItem
  | getNextItem (itemHandle : Ptr)
  | itemGetValue (itemHandle : Ptr)

inductive Result (α σ : Type)
  | handle (p : Ptr)
  | int (value : Int)
  | context (value : Int) (context : σ)
  | value (value : Option α)

def call (fuel : Nat) (s : Storage α) : Call α σ → Option (Result α σ × Storage α)
  | .add item allocated => (singlylinkedlistAdd item allocated s).map fun r => (.handle r.1, r.2)
  | .remove item => (singlylinkedlistRemove fuel item s).map fun r => (.int r.1, r.2)
  | .removeIf conditionFunction matchContext =>
    (singlylinkedlistRemoveIf fuel conditionFunction matchContext s).map fun r =>
      (.context r.1 r.2.1, r.2.2)
  | .find matchFunction =>
    (singlylinkedlistFind fuel matchFunction s).map fun p => (.handle p, s)
  | .foreach actionFunction actionContext =>
    (singlylinkedlistForeach fuel actionFunction actionContext s).map fun r =>
      (.context r.1 r.2, s)
  | .getHeadItem => some (.handle (singlylinkedlistGetHeadItem s), s)
  | .getNextItem itemHandle =>
    (singlylinkedlistGetNextItem itemHandle s).map fun p => (.handle p, s)
  | .itemGetValue itemHandle =>
    (singlylinkedlistItemGetValue itemHandle s).map fun v => (.value v, s)

/-! ## Sequences -/

/-- The items that are left when a condition has gone over them, which stops where it says so. -/
def keep (conditionFunction : α → σ → Condition σ) :
    List (Nat × α) → σ → List (Nat × α) × σ
  | [], context => ([], context)
  | item :: items, context =>
    let condition := conditionFunction item.2 context
    let kept := if condition.remove = true then [] else [item]
    if condition.continueProcessing = false then (kept ++ items, condition.context)
    else
      let r := keep conditionFunction items condition.context
      (kept ++ r.1, r.2)

/-- The context that an action leaves. -/
def act (actionFunction : α → σ → Bool × σ) : List (Nat × α) → σ → σ
  | [], context => context
  | item :: items, context =>
    let r := actionFunction item.2 context
    if r.1 = false then r.2 else act actionFunction items r.2

/-- What the calls do to a sequence of items with their handles, and what they return. -/
def denote (items : List (Nat × α)) : Call α σ → List (Nat × α) × Result α σ
  | .add (some item) (some a) => (items ++ [(a, item)], .handle (some a))
  | .add _ _ => (items, .handle none)
  | .remove none => (items, .int failure)
  | .remove (some a) =>
    if a ∈ handles items then (items.eraseP fun item => item.1 = a, .int 0)
    else (items, .int failure)
  | .removeIf none matchContext => (items, .context failure matchContext)
  | .removeIf (some conditionFunction) matchContext =>
    let r := keep conditionFunction items matchContext
    (r.1, .context 0 r.2)
  | .find none => (items, .handle none)
  | .find (some matchFunction) => (items, .handle ((handles items).find? matchFunction))
  | .foreach none actionContext => (items, .context failure actionContext)
  | .foreach (some actionFunction) actionContext =>
    (items, .context 0 (act actionFunction items actionContext))
  | .getHeadItem => (items, .handle (handles items).head?)
  | .getNextItem none => (items, .handle none)
  | .getNextItem (some a) =>
    (items, .handle ((handles items).dropWhile fun b => b ≠ a).tail.head?)
  | .itemGetValue none => (items, .value none)
  | .itemGetValue (some a) => (items, .value ((items.find? fun item => item.1 = a).map Prod.snd))

/-- `malloc` returns no cell that is in use, and a handle that is used is one of the list. -/
def Call.Allowed (s : Storage α) (items : List (Nat × α)) : Call α σ → Prop
  | .add _ (some a) => s.cells a = none
  | .getNextItem (some a) | .itemGetValue (some a) => a ∈ handles items
  | _ => True

/-! ## Representation -/

namespace Storage

def contents (s : Storage α) : Nat → Option (α × Ptr) :=
  fun a => (s.cells a).map fun cell => (cell.item, cell.next)

@[simp] theorem contents_setHead (s : Storage α) (p : Ptr) :
    (s.setHead p).contents = s.contents := rfl
@[simp] theorem contents_setTail (s : Storage α) (p : Ptr) :
    (s.setTail p).contents = s.contents := rfl

theorem contents_setCell (s : Storage α) (a : Nat) (content : Option (ListItemInstance α)) :
    (s.setCell a content).contents =
      Function.update s.contents a (content.map fun cell => (cell.item, cell.next)) := by
  funext b
  simp only [contents, setCell_cells, Function.update_apply]
  split_ifs
  all_goals rfl

theorem cell_of_contents {s : Storage α} {a : Nat} {item : α} {next : Ptr}
    (h : s.contents a = some (item, next)) : s.cells a = some ⟨item, next⟩ := by
  rcases Option.map_eq_some_iff.1 h with ⟨cell, hcell, hpair⟩
  cases cell
  cases hpair
  exact hcell

end Storage

/-- A loop is at `current`, behind `previous`: it has passed the items `done`, and is to go through
`rest`. -/
structure At (s : Storage α) (done rest : List (Nat × α)) (current previous : Ptr) : Prop where
  front : Segment s.contents s.list.head done current
  back : Segment s.contents current rest none
  previous_eq : previous = lastHandle done
  tail : s.list.tail = lastHandle (done ++ rest)
  nodup : (handles (done ++ rest)).Nodup

/-- The list holds the items, from its head to its tail, each in a cell of its own. -/
structure Represents (s : Storage α) (items : List (Nat × α)) : Prop where
  segment : Segment s.contents s.list.head items none
  tail : s.list.tail = lastHandle items
  nodup : (handles items).Nodup

/-- The cells that are not of the list are as before. -/
def OtherCells (items : List (Nat × α)) (s s' : Storage α) : Prop :=
  ∀ b, b ∉ handles items → s'.cells b = s.cells b

section

variable {s s' : Storage α} {done rest items : List (Nat × α)} {current previous next : Ptr}
variable {a : Nat} {value : α}

theorem Represents.at (h : Represents s items) : At s [] items s.list.head none where
  front := rfl
  back := h.segment
  previous_eq := rfl
  tail := h.tail
  nodup := h.nodup

theorem At.represents (h : At s done rest current previous) : Represents s (done ++ rest) where
  segment := Segment.append.2 ⟨current, h.front, h.back⟩
  tail := h.tail
  nodup := h.nodup

theorem At.cell (h : At s done ((a, value) :: rest) current previous) :
    current = some a ∧ ∃ next, s.cells a = some ⟨value, next⟩ ∧
      Segment s.contents next rest none := by
  rcases h.back with ⟨hcurrent, next, hcell, hrest⟩
  exact ⟨hcurrent, next, Storage.cell_of_contents hcell, hrest⟩

theorem At.advance (h : At s done ((a, value) :: rest) (some a) previous)
    (hcell : s.cells a = some ⟨value, next⟩) :
    At s (done ++ [(a, value)]) rest next (some a) := by
  have hcontent : s.contents a = some (value, next) := by
    simp [Storage.contents, hcell]
  have hsplit : done ++ [(a, value)] ++ rest = done ++ (a, value) :: rest := by simp
  rcases h.back with ⟨-, next', hcell', hrest⟩
  rw [hcontent] at hcell'
  cases hcell'
  constructor
  case front => exact Segment.append.2 ⟨some a, h.front, rfl, next, hcontent, rfl⟩
  case back => exact hrest
  case previous_eq => rw [lastHandle_concat]
  case tail => rw [hsplit]; exact h.tail
  case nodup => rw [hsplit]; exact h.nodup

theorem tail_takenOut (hnodup : (handles (done ++ (a, value) :: rest)).Nodup) :
    (if some a = lastHandle (done ++ (a, value) :: rest) then lastHandle done
      else lastHandle (done ++ (a, value) :: rest)) = lastHandle (done ++ rest) := by
  rcases List.eq_nil_or_concat rest with rfl | ⟨front, ⟨b, w⟩, rfl⟩
  · simp
  · have hne : some a ≠ lastHandle (done ++ (a, value) :: front.concat (b, w)) := by
      rw [List.concat_eq_append, ← List.cons_append, ← List.append_assoc, lastHandle_concat]
      rw [Ne, Option.some.injEq]
      rintro rfl
      rw [handles_append] at hnodup
      have hback := hnodup.of_append_right
      simp at hback
    rw [if_neg hne, List.concat_eq_append, ← List.cons_append, ← List.append_assoc,
      ← List.append_assoc, lastHandle_concat, lastHandle_concat]

theorem takeOut_of_linked {s₁ : Storage α}
    (h : (if previous ≠ none then s.setNext previous next else some (s.setHead next)) = some s₁) :
    takeOut a previous next s =
      (if some a = s₁.list.tail then s₁.setTail previous else s₁).free a := by
  unfold takeOut
  by_cases hprevious : previous ≠ none
  · rw [if_pos hprevious] at h ⊢
    rw [h]
    rfl
  · rw [if_neg hprevious] at h ⊢
    rw [h]
    rfl

theorem At.linkedPast (h : At s done ((a, value) :: rest) (some a) previous)
    (hcell : s.cells a = some ⟨value, next⟩) :
    ∃ s₁, (if previous ≠ none then s.setNext previous next else some (s.setHead next)) = some s₁ ∧
      Segment s₁.contents s₁.list.head done next ∧ Segment s₁.contents next rest none ∧
      s₁.list.tail = s.list.tail ∧ s₁.cells a = s.cells a ∧ OtherCells done s s₁ := by
  rcases h.cell with ⟨-, next', hcell', hrest⟩
  rw [hcell] at hcell'
  cases hcell'
  have hprevious := h.previous_eq
  rcases List.eq_nil_or_concat' done with rfl | ⟨front, ⟨b, w⟩, rfl⟩
  case inl =>
    subst hprevious
    exact ⟨s.setHead next, rfl, rfl, hrest, rfl, rfl, fun _ _ => rfl⟩
  case inr =>
    rw [lastHandle_concat] at hprevious
    subst hprevious
    have hdone : (handles (front ++ [(b, w)])).Nodup := by
      have hnodup := h.nodup
      rw [handles_append] at hnodup
      exact hnodup.of_append_left
    have hapart : ∀ c ∈ handles ((a, value) :: rest), b ≠ c := by
      rintro c hc rfl
      have hnodup := h.nodup
      rw [handles_append] at hnodup
      refine List.disjoint_of_nodup_append hnodup ?_ hc
      simp
    rcases Segment.append.1 h.front with ⟨m, -, rfl, next', hb, -⟩
    have hbcell := Storage.cell_of_contents hb
    refine ⟨s.setCell b (some ⟨w, next⟩), ?_, ?_, ?_, rfl, ?_, ?_⟩
    · simp [Storage.setNext, hbcell]
    · rw [Storage.contents_setCell]
      exact h.front.relink hdone next
    · rw [Storage.contents_setCell]
      exact hrest.update (fun hmem => hapart b (List.mem_cons_of_mem _ hmem) rfl) _
    · rw [Storage.setCell_cells, Function.update_of_ne (hapart a (List.mem_cons_self ..)).symm]
    · intro c hc
      have hcb : c ≠ b := by
        rintro rfl
        simp at hc
      rw [Storage.setCell_cells, Function.update_of_ne hcb]

theorem At.takenOut (h : At s done ((a, value) :: rest) (some a) previous)
    (hcell : s.cells a = some ⟨value, next⟩) :
    ∃ s', takeOut a previous next s = some s' ∧ At s' done rest next previous ∧
      OtherCells (done ++ (a, value) :: rest) s s' := by
  have hsublist : (done ++ rest).Sublist (done ++ (a, value) :: rest) :=
    (List.sublist_cons_self _ _).append_left done
  have hout : a ∉ handles (done ++ rest) := by
    have hmiddle : (handles (done ++ (a, value) :: rest)).Perm (a :: handles (done ++ rest)) :=
      List.perm_middle.map Prod.fst
    exact (List.nodup_cons.1 (hmiddle.nodup_iff.1 h.nodup)).1
  rw [handles_append, List.mem_append, not_or] at hout
  rcases h.linkedPast hcell with ⟨s₁, hlink, hfront, hback, htail, hcell₁, hother⟩
  let s₂ := if some a = s₁.list.tail then s₁.setTail previous else s₁
  have hcells : s₂.cells = s₁.cells := by
    unfold s₂
    split_ifs
    all_goals rfl
  have hhead : s₂.list.head = s₁.list.head := by
    unfold s₂
    split_ifs
    all_goals rfl
  have htail₂ : s₂.list.tail = lastHandle (done ++ rest) := by
    rw [← tail_takenOut h.nodup, ← h.tail, ← h.previous_eq, ← htail]
    unfold s₂
    split_ifs
    all_goals rfl
  have hcontents : (s₂.setCell a none).contents = Function.update s₁.contents a none := by
    rw [Storage.contents_setCell]
    unfold Storage.contents
    rw [hcells]
    rfl
  refine ⟨s₂.setCell a none, ?_, ?_, ?_⟩
  · rw [takeOut_of_linked hlink]
    change s₂.free a = _
    rw [Storage.free, hcells, hcell₁, hcell]
    rfl
  · constructor
    case front =>
      rw [hcontents, Storage.setCell_list, hhead]
      exact hfront.update hout.1 none
    case back =>
      rw [hcontents]
      exact hback.update hout.2 none
    case previous_eq => exact h.previous_eq
    case tail => exact htail₂
    case nodup => exact h.nodup.sublist (hsublist.map Prod.fst)
  · intro c hc
    rw [handles_append, List.mem_append, handles_cons, List.mem_cons, not_or, not_or] at hc
    rw [Storage.setCell_cells, Function.update_of_ne hc.2.1, hcells]
    exact hother c hc.1

/-! ## The loops -/

theorem removeLoop_absent (ha : a ∉ handles rest) {fuel : Nat} (hfuel : rest.length < fuel)
    (h : At s done rest current previous) : removeLoop a fuel current previous s = some (none, s) := by
  induction rest generalizing done current previous fuel with
  | nil =>
    obtain ⟨k, rfl⟩ : ∃ k, fuel = k + 1 := ⟨fuel - 1, by omega⟩
    have hend : current = none := h.back
    subst hend
    rfl
  | cons item rest ih =>
    rcases item with ⟨b, w⟩
    obtain ⟨k, rfl⟩ : ∃ k, fuel = k + 1 := ⟨fuel - 1, by omega⟩
    rcases h.cell with ⟨rfl, next, hcell, -⟩
    rw [handles_cons, List.mem_cons, not_or] at ha
    simp only [removeLoop, hcell, Option.bind_eq_bind, Option.bind_some, if_neg (Ne.symm ha.1)]
    exact ih ha.2 (Nat.succ_lt_succ_iff.1 hfuel) (h.advance hcell)

theorem removeLoop_found (ha : a ∈ handles rest) {fuel : Nat} (hfuel : rest.length < fuel)
    (h : At s done rest current previous) :
    ∃ s', removeLoop a fuel current previous s = some (some a, s') ∧
      Represents s' (done ++ rest.eraseP fun item => item.1 = a) ∧
      OtherCells (done ++ rest) s s' := by
  induction rest generalizing done current previous fuel with
  | nil => cases ha
  | cons item rest ih =>
    rcases item with ⟨b, w⟩
    obtain ⟨k, rfl⟩ : ∃ k, fuel = k + 1 := ⟨fuel - 1, by omega⟩
    rcases h.cell with ⟨rfl, next, hcell, -⟩
    by_cases hb : b = a
    · subst hb
      rcases h.takenOut hcell with ⟨s', htake, hat, hother⟩
      refine ⟨s', ?_, ?_, hother⟩
      · simp [removeLoop, hcell, htake]
      · simpa using hat.represents
    · have hmem : a ∈ handles rest := by
        rcases List.mem_cons.1 ha with heq | hmem
        · exact absurd heq.symm hb
        · exact hmem
      rcases ih hmem (Nat.succ_lt_succ_iff.1 hfuel) (h.advance hcell)
        with ⟨s', hloop, hrep, hother⟩
      refine ⟨s', ?_, ?_, ?_⟩
      · simp only [removeLoop, hcell, Option.bind_eq_bind, Option.bind_some, if_neg hb]
        simpa using hloop
      · simpa [List.eraseP_cons_of_neg, hb] using hrep
      · simpa using hother

theorem removeIfLoop_keep (conditionFunction : α → σ → Condition σ) (context : σ) {fuel : Nat}
    (hfuel : rest.length < fuel) (h : At s done rest current previous) :
    ∃ s', removeIfLoop conditionFunction fuel current previous context s =
        some ((keep conditionFunction rest context).2, s') ∧
      Represents s' (done ++ (keep conditionFunction rest context).1) ∧
      OtherCells (done ++ rest) s s' := by
  induction rest generalizing done current previous fuel context s with
  | nil =>
    obtain ⟨k, rfl⟩ : ∃ k, fuel = k + 1 := ⟨fuel - 1, by omega⟩
    have hend : current = none := h.back
    subst hend
    exact ⟨s, rfl, h.represents, fun _ _ => rfl⟩
  | cons item rest ih =>
    rcases item with ⟨b, w⟩
    obtain ⟨k, rfl⟩ : ∃ k, fuel = k + 1 := ⟨fuel - 1, by omega⟩
    rcases h.cell with ⟨rfl, next, hcell, -⟩
    have hk : rest.length < k := Nat.succ_lt_succ_iff.1 hfuel
    rcases hcondition : conditionFunction w context with ⟨remove, continueProcessing, context'⟩
    simp only [removeIfLoop, keep, hcell, hcondition, Option.bind_eq_bind, Option.bind_some]
    cases remove
    case true =>
      rcases h.takenOut hcell with ⟨s₁, htake, hat, hother₁⟩
      simp only [htake, if_pos, Option.bind_some]
      cases continueProcessing
      case false => exact ⟨s₁, rfl, hat.represents, hother₁⟩
      case true =>
        rcases ih context' hk hat with ⟨s', hloop, hrep, hother⟩
        refine ⟨s', hloop, hrep, ?_⟩
        intro c hc
        rw [handles_append, handles_cons, List.mem_append, List.mem_cons, not_or, not_or] at hc
        rw [hother c (by simp [hc.1, hc.2.2]), hother₁ c (by simp [hc.1, hc.2.1, hc.2.2])]
    case false =>
      cases continueProcessing
      case false => exact ⟨s, rfl, by simpa using h.represents, fun _ _ => rfl⟩
      case true =>
        rcases ih context' hk (h.advance hcell) with ⟨s', hloop, hrep, hother⟩
        exact ⟨s', hloop, by simpa using hrep, by simpa using hother⟩

theorem findLoop_find (matchFunction : Nat → Bool) {fuel : Nat} (hfuel : rest.length < fuel)
    (h : At s done rest current previous) :
    findLoop matchFunction fuel current s = some ((handles rest).find? matchFunction) := by
  induction rest generalizing done current previous fuel with
  | nil =>
    obtain ⟨k, rfl⟩ : ∃ k, fuel = k + 1 := ⟨fuel - 1, by omega⟩
    have hend : current = none := h.back
    subst hend
    rfl
  | cons item rest ih =>
    rcases item with ⟨b, w⟩
    obtain ⟨k, rfl⟩ : ∃ k, fuel = k + 1 := ⟨fuel - 1, by omega⟩
    rcases h.cell with ⟨rfl, next, hcell, -⟩
    have hrest := ih (Nat.succ_lt_succ_iff.1 hfuel) (h.advance hcell)
    cases hmatch : matchFunction b
    case true => simp [findLoop, hmatch]
    case false => simp [findLoop, hmatch, hcell, hrest]

theorem foreachLoop_act (actionFunction : α → σ → Bool × σ) (context : σ) {fuel : Nat}
    (hfuel : rest.length < fuel) (h : At s done rest current previous) :
    foreachLoop actionFunction fuel current context s = some (act actionFunction rest context) := by
  induction rest generalizing done current previous fuel context with
  | nil =>
    obtain ⟨k, rfl⟩ : ∃ k, fuel = k + 1 := ⟨fuel - 1, by omega⟩
    have hend : current = none := h.back
    subst hend
    rfl
  | cons item rest ih =>
    rcases item with ⟨b, w⟩
    obtain ⟨k, rfl⟩ : ∃ k, fuel = k + 1 := ⟨fuel - 1, by omega⟩
    rcases h.cell with ⟨rfl, next, hcell, -⟩
    rcases haction : actionFunction w context with ⟨continueProcessing, context'⟩
    have hrest := ih context' (Nat.succ_lt_succ_iff.1 hfuel) (h.advance hcell)
    cases continueProcessing
    case true => simp [foreachLoop, act, hcell, haction, hrest]
    case false => simp [foreachLoop, act, hcell, haction]

end

/-! ## The calls on a sequence -/

section

variable {s s' : Storage α} {items front back : List (Nat × α)} {a : Nat} {item : α}

theorem Represents.empty (cells : Nat → Option (ListItemInstance α)) :
    Represents { cells := cells } [] where
  segment := rfl
  tail := rfl
  nodup := List.nodup_nil

theorem Represents.head_eq (h : Represents s items) : s.list.head = (handles items).head? :=
  h.segment.start

theorem Represents.tail_none_iff (h : Represents s items) :
    s.list.tail = none ↔ s.list.head = none := by
  rw [h.tail, h.head_eq]
  simp [lastHandle]

theorem Represents.cell (h : Represents s items) (hmem : (a, item) ∈ items) :
    ∃ next, s.cells a = some ⟨item, next⟩ := by
  rcases h.segment.cell hmem with ⟨next, hcell⟩
  exact ⟨next, Storage.cell_of_contents hcell⟩

theorem Represents.not_mem (h : Represents s items) (ha : s.cells a = none) : a ∉ handles items := by
  intro hmem
  rcases List.mem_map.1 hmem with ⟨⟨b, value⟩, hitem, rfl⟩
  rcases h.cell hitem with ⟨next, hcell⟩
  rw [hcell] at ha
  cases ha

theorem Represents.add (h : Represents s items) (ha : s.cells a = none) :
    ∃ s', singlylinkedlistAdd (some item) (some a) s = some (some a, s') ∧
      Represents s' (items ++ [(a, item)]) ∧ OtherCells (items ++ [(a, item)]) s s' := by
  have hout := h.not_mem ha
  have hnodup : (handles (items ++ [(a, item)])).Nodup := by
    rw [handles_append]
    exact h.nodup.append (List.nodup_singleton a) (by simpa using hout)
  let s₁ := s.setCell a (some { item := item, next := none })
  have hcontents : s₁.contents = Function.update s.contents a (some (item, none)) :=
    Storage.contents_setCell ..
  rcases List.eq_nil_or_concat' items with rfl | ⟨front, ⟨b, w⟩, rfl⟩
  case inl =>
    have hhead : s₁.list.head = none := h.head_eq
    refine ⟨(s₁.setHead (some a)).setTail (some a), ?_, ?_, ?_⟩
    · simp only [singlylinkedlistAdd]
      exact if_pos hhead
    · constructor
      case segment =>
        refine ⟨rfl, none, ?_, rfl⟩
        rw [Storage.contents_setTail, Storage.contents_setHead, hcontents, Function.update_self]
      case tail => rfl
      case nodup => exact hnodup
    · intro c hc
      have hca : c ≠ a := by simpa using hc
      simp [s₁, hca]
  case inr =>
    have hhead : s₁.list.head ≠ none := by
      intro hnone
      have hitems : (handles (front ++ [(b, w)])).head? = none := by
        rw [← h.head_eq]
        exact hnone
      simp at hitems
    have htail : s₁.list.tail = some b := by
      change s.list.tail = _
      rw [h.tail, lastHandle_concat]
    have hsegment : Segment s₁.contents s.list.head (front ++ [(b, w)]) none := by
      rw [hcontents]
      exact h.segment.update hout _
    rcases Segment.append.1 hsegment with ⟨m, -, rfl, next, hb, -⟩
    have hbcell := Storage.cell_of_contents hb
    let s₂ := s₁.setCell b (some ⟨w, some a⟩)
    have hab : a ≠ b := by
      rintro rfl
      simp at hout
    refine ⟨s₂.setTail (some a), ?_, ?_, ?_⟩
    · simp only [singlylinkedlistAdd]
      rw [if_neg hhead]
      change (s₁.setNext s₁.list.tail (some a)).map _ = _
      rw [htail]
      simp [Storage.setNext, hbcell, s₂]
    · constructor
      case segment =>
        refine Segment.append.2 ⟨some a, ?_, rfl, none, ?_, rfl⟩
        · rw [Storage.contents_setTail, Storage.contents_setCell]
          exact hsegment.relink h.nodup _
        · rw [Storage.contents_setTail, Storage.contents_setCell, Function.update_of_ne hab,
            hcontents, Function.update_self]
      case tail => rw [lastHandle_concat]; rfl
      case nodup => exact hnodup
    · intro c hc
      have hcb : c ≠ b := by
        rintro rfl
        simp at hc
      have hca : c ≠ a := by
        rintro rfl
        simp at hc
      simp [s₂, s₁, hcb, hca]

theorem Represents.remove (h : Represents s items) {fuel : Nat} (hfuel : items.length < fuel) :
    ∃ s', singlylinkedlistRemove fuel (some a) s =
        some (if a ∈ handles items then 0 else failure, s') ∧
      Represents s' (items.eraseP fun item => item.1 = a) ∧ OtherCells items s s' := by
  by_cases ha : a ∈ handles items
  · rcases removeLoop_found ha hfuel h.at with ⟨s', hloop, hrep, hother⟩
    refine ⟨s', ?_, hrep, hother⟩
    simp [singlylinkedlistRemove, hloop, ha]
  · have hloop := removeLoop_absent ha hfuel h.at
    refine ⟨s, ?_, ?_, fun _ _ => rfl⟩
    · simp [singlylinkedlistRemove, hloop, ha]
    · rw [List.eraseP_of_forall_not]
      · exact h
      · intro item hitem heq
        exact ha (List.mem_map.2 ⟨item, hitem, by simpa using heq⟩)

theorem Represents.getNext (h : Represents s items) (ha : a ∈ handles items) :
    singlylinkedlistGetNextItem (some a) s =
      some ((handles items).dropWhile fun b => b ≠ a).tail.head? := by
  rcases List.mem_map.1 ha with ⟨⟨b, value⟩, hitem, rfl⟩
  rcases List.append_of_mem hitem with ⟨front, back, rfl⟩
  have hcell := Storage.cell_of_contents h.segment.next
  have hfront : b ∉ handles front := by
    have hnodup := h.nodup
    rw [handles_append] at hnodup
    intro hmem
    exact List.disjoint_of_nodup_append hnodup hmem (List.mem_cons_self ..)
  have hdrop : (handles (front ++ (b, value) :: back)).dropWhile (fun c => c ≠ b) =
      b :: handles back := by
    rw [handles_append, List.dropWhile_append_of_pos, handles_cons]
    · simp
    · intro c hc
      have hcb : c ≠ b := by
        rintro rfl
        exact hfront hc
      simpa using hcb
  change (s.cells b).map ListItemInstance.next = _
  rw [hcell, hdrop]
  rfl

theorem Represents.getValue (h : Represents s items) (hmem : (a, item) ∈ items) :
    singlylinkedlistItemGetValue (some a) s = some (some item) := by
  rcases h.cell hmem with ⟨next, hcell⟩
  simp [singlylinkedlistItemGetValue, hcell]

theorem find?_handle (hnodup : (handles items).Nodup) (hmem : (a, item) ∈ items) :
    items.find? (fun entry => entry.1 = a) = some (a, item) := by
  rcases List.append_of_mem hmem with ⟨front, back, rfl⟩
  rw [handles_append] at hnodup
  have hfront : front.find? (fun entry => entry.1 = a) = none := by
    rw [List.find?_eq_none]
    intro entry hentry heq
    refine List.disjoint_of_nodup_append hnodup (List.mem_map_of_mem hentry) ?_
    simpa using Or.inl heq
  rw [List.find?_append, hfront]
  simp

theorem Represents.call (h : Represents s items) {c : Call α σ} (hc : c.Allowed s items)
    {fuel : Nat} (hfuel : items.length < fuel) :
    ∃ s', call fuel s c = some ((denote items c).2, s') ∧ Represents s' (denote items c).1 ∧
      ∀ b, b ∉ handles items → b ∉ handles (denote items c).1 → s'.cells b = s.cells b := by
  cases c with
  | add item allocated =>
    rcases item with _ | item
    · exact ⟨s, rfl, h, fun _ _ _ => rfl⟩
    rcases allocated with _ | a
    · exact ⟨s, rfl, h, fun _ _ _ => rfl⟩
    rcases h.add hc with ⟨s', hadd, hrep, hother⟩
    exact ⟨s', by rw [SinglyLinkedList.call, hadd]; rfl, hrep, fun b _ hb => hother b hb⟩
  | remove item =>
    rcases item with _ | a
    · exact ⟨s, rfl, h, fun _ _ _ => rfl⟩
    rcases h.remove (a := a) hfuel with ⟨s', hremove, hrep, hother⟩
    simp only [SinglyLinkedList.call, denote, hremove, Option.map_some]
    by_cases ha : a ∈ handles items
    · rw [if_pos ha, if_pos ha]
      exact ⟨s', rfl, hrep, fun b hb _ => hother b hb⟩
    · have habsent : items.eraseP (fun item => item.1 = a) = items := by
        apply List.eraseP_of_forall_not
        intro item hitem heq
        exact ha (List.mem_map.2 ⟨item, hitem, by simpa using heq⟩)
      rw [if_neg ha, if_neg ha]
      rw [habsent] at hrep
      exact ⟨s', rfl, hrep, fun b hb _ => hother b hb⟩
  | removeIf conditionFunction matchContext =>
    rcases conditionFunction with _ | conditionFunction
    · exact ⟨s, rfl, h, fun _ _ _ => rfl⟩
    rcases removeIfLoop_keep conditionFunction matchContext hfuel h.at with
      ⟨s', hloop, hrep, hother⟩
    refine ⟨s', ?_, hrep, fun b hb _ => hother b hb⟩
    simp [SinglyLinkedList.call, singlylinkedlistRemoveIf, hloop, denote]
  | find matchFunction =>
    refine ⟨s, ?_, ?_, fun _ _ _ => rfl⟩
    · rcases matchFunction with _ | matchFunction
      · rfl
      · simp [SinglyLinkedList.call, singlylinkedlistFind, findLoop_find _ hfuel h.at, denote]
    · cases matchFunction
      all_goals exact h
  | «foreach» actionFunction actionContext =>
    refine ⟨s, ?_, ?_, fun _ _ _ => rfl⟩
    · rcases actionFunction with _ | actionFunction
      · rfl
      · simp [SinglyLinkedList.call, singlylinkedlistForeach, foreachLoop_act _ _ hfuel h.at, denote]
    · cases actionFunction
      all_goals exact h
  | getHeadItem =>
    refine ⟨s, ?_, h, fun _ _ _ => rfl⟩
    rw [SinglyLinkedList.call, singlylinkedlistGetHeadItem, h.head_eq]
    rfl
  | getNextItem itemHandle =>
    rcases itemHandle with _ | a
    · exact ⟨s, rfl, h, fun _ _ _ => rfl⟩
    refine ⟨s, ?_, h, fun _ _ _ => rfl⟩
    rw [SinglyLinkedList.call, h.getNext hc]
    rfl
  | itemGetValue itemHandle =>
    rcases itemHandle with _ | a
    · exact ⟨s, rfl, h, fun _ _ _ => rfl⟩
    refine ⟨s, ?_, h, fun _ _ _ => rfl⟩
    rcases List.mem_map.1 hc with ⟨⟨b, value⟩, hitem, rfl⟩
    rw [SinglyLinkedList.call, h.getValue hitem, denote, find?_handle h.nodup hitem]
    rfl

end

/-! ## Every sequence of calls -/

/-- The calls of a sequence, from an empty list on; the contexts may be of any type in each call. -/
inductive Runs : Storage α → List (Nat × α) → Prop
  | start (cells : Nat → Option (ListItemInstance α)) : Runs { cells := cells } []
  | step {σ : Type} {s s' : Storage α} {items : List (Nat × α)} (c : Call α σ) (fuel : Nat)
      {r : Result α σ} :
      Runs s items → c.Allowed s items → items.length < fuel → call fuel s c = some (r, s') →
        Runs s' (denote items c).1

/-- In every list that calls have made, the chain from the head on holds the items of the sequence, ends
at the tail, and has the value behind each handle; the next call is defined, its loops end, and it does to
the sequence what it is to do and nothing to any other cell. -/
theorem singlylinkedlist_refines_sequence {s : Storage α} {items : List (Nat × α)}
    (hruns : Runs s items) :
    Represents s items ∧ (s.list.tail = none ↔ s.list.head = none) ∧
      (∀ a item, (a, item) ∈ items → singlylinkedlistItemGetValue (some a) s = some (some item)) ∧
      ∀ (σ : Type) (c : Call α σ), c.Allowed s items → ∀ fuel, items.length < fuel →
        ∃ s', call fuel s c = some ((denote items c).2, s') ∧ Represents s' (denote items c).1 ∧
          ∀ b, b ∉ handles items → b ∉ handles (denote items c).1 → s'.cells b = s.cells b := by
  have hrep : Represents s items := by
    induction hruns with
    | start cells => exact Represents.empty cells
    | step c fuel _ hallowed hfuel hcall ih =>
      rcases ih.call hallowed hfuel with ⟨s', hcall', hrep, -⟩
      rw [hcall] at hcall'
      cases hcall'
      exact hrep
  refine ⟨hrep, hrep.tail_none_iff, fun a item hmem => hrep.getValue hmem, ?_⟩
  intro σ c hallowed fuel hfuel
  exact hrep.call hallowed hfuel

/-- Three items of which a condition takes out the last two. -/
theorem singlylinkedlist_tail_takenOut :
    ∃ s : Storage String, Runs s [(1, "first")] ∧ s.list = ⟨some 1, some 1⟩ ∧
      Represents s [(1, "first")] := by
  let add (item : String) (a : Nat) : Call String Unit := .add (some item) (some a)
  let select (item : String) (_ : Unit) : Condition Unit := ⟨item ≠ "first", true, ()⟩
  have hone := Runs.step (add "first" 1) 5 (.start fun _ => none) rfl (by decide) rfl
  have htwo := hone.step (add "second" 2) 5 rfl (by decide) rfl
  have hthree := htwo.step (add "third" 3) 5 rfl (by decide) rfl
  have hkept := hthree.step (.removeIf (some select) ()) 5 trivial (by decide) rfl
  exact ⟨_, hkept, rfl, (singlylinkedlist_refines_sequence hkept).1⟩

end SharedUtility.SinglyLinkedList
