import Mathlib.Logic.Function.Basic
import SharedUtility.Memory.Ring

/-!
# DoublyLinkedList — the list entries of `doublylinkedlist.c`

* `DListHeap`, `dListInsertTailList` … — the entries of a heap and the functions on them,
* `Lists`, `Denotes` — the sequences that the lists stand for, and what each call does to them,
* `Represents` — the heap holds a ring for each of the lists.
-/

namespace SharedUtility.DoublyLinkedList

open Memory

variable {Addr : Type} [DecidableEq Addr]

structure DListEntry (Addr : Type) where
  flink : Addr
  blink : Addr

abbrev DListHeap (Addr : Type) := Addr → DListEntry Addr

def setFlink (heap : DListHeap Addr) (entry target : Addr) : DListHeap Addr :=
  Function.update heap entry { heap entry with flink := target }

def setBlink (heap : DListHeap Addr) (entry target : Addr) : DListHeap Addr :=
  Function.update heap entry { heap entry with blink := target }

/-! ## The functions -/

def dListInitializeListHead (listHead : Addr) (heap : DListHeap Addr) : DListHeap Addr :=
  let heap := setBlink heap listHead listHead
  setFlink heap listHead (heap listHead).blink

def dListIsListEmpty (listHead : Addr) (heap : DListHeap Addr) : Int :=
  if (heap listHead).flink = listHead then 1 else 0

def dListRemoveEntryList (entry : Addr) (heap : DListHeap Addr) : Int × DListHeap Addr :=
  let flink := (heap entry).flink
  let blink := (heap entry).blink
  let heap := setFlink heap blink flink
  let heap := setBlink heap flink blink
  (if flink = blink then 1 else 0, heap)

def dListRemoveHeadList (listHead : Addr) (heap : DListHeap Addr) : Addr × DListHeap Addr :=
  let entry := (heap listHead).flink
  let flink := (heap entry).flink
  let heap := setFlink heap listHead flink
  let heap := setBlink heap flink listHead
  (entry, heap)

def dListInsertTailList (listHead entry : Addr) (heap : DListHeap Addr) : DListHeap Addr :=
  let blink := (heap listHead).blink
  let heap := setFlink heap entry listHead
  let heap := setBlink heap entry blink
  let heap := setFlink heap blink entry
  setBlink heap listHead entry

def dListAppendTailList (listHead listToAppend : Addr) (heap : DListHeap Addr) : DListHeap Addr :=
  let listEnd := (heap listHead).blink
  let heap := setFlink heap (heap listHead).blink listToAppend
  let heap := setBlink heap listHead (heap listToAppend).blink
  let heap := setFlink heap (heap listToAppend).blink listHead
  setBlink heap listToAppend listEnd

def dListInsertHeadList (listHead entry : Addr) (heap : DListHeap Addr) : DListHeap Addr :=
  let heap := setBlink heap entry listHead
  let heap := setFlink heap entry (heap listHead).flink
  let heap := setBlink heap (heap listHead).flink entry
  setFlink heap listHead entry

/-! ## Calls -/

inductive Call (Addr : Type)
  | initializeListHead (listHead : Addr)
  | isListEmpty (listHead : Addr)
  | insertTailList (listHead entry : Addr)
  | insertHeadList (listHead entry : Addr)
  | appendTailList (listHead listToAppend : Addr)
  | removeEntryList (entry : Addr)
  | removeHeadList (listHead : Addr)

inductive Result (Addr : Type)
  | void
  | int (value : Int)
  | entry (address : Addr)

def call (heap : DListHeap Addr) : Call Addr → Result Addr × DListHeap Addr
  | .initializeListHead listHead => (.void, dListInitializeListHead listHead heap)
  | .isListEmpty listHead => (.int (dListIsListEmpty listHead heap), heap)
  | .insertTailList listHead entry => (.void, dListInsertTailList listHead entry heap)
  | .insertHeadList listHead entry => (.void, dListInsertHeadList listHead entry heap)
  | .appendTailList listHead listToAppend =>
    (.void, dListAppendTailList listHead listToAppend heap)
  | .removeEntryList entry =>
    let r := dListRemoveEntryList entry heap
    (.int r.1, r.2)
  | .removeHeadList listHead =>
    let r := dListRemoveHeadList listHead heap
    (.entry r.1, r.2)

/-! ## Sequences -/

/-- The lists by their heads; `none` is no list head. -/
abbrev Lists (Addr : Type) := Addr → Option (List Addr)

/-- What a call is to return. -/
inductive Outcome (Addr : Type)
  | void
  | isEmpty (empty : Bool)
  | entry (address : Addr)

def Outcome.Agrees : Outcome Addr → Result Addr → Prop
  | .void, .void => True
  | .isEmpty empty, .int value => value ≠ 0 ↔ empty = true
  | .entry address, .entry address' => address' = address
  | _, _ => False

/-- The cell is neither a list head nor in a list. -/
def Free (lists : Lists Addr) (a : Addr) : Prop :=
  ∀ head entries, lists head = some entries → a ∉ head :: entries

/-- What the calls do to the sequences.  A list that is appended goes over with its head as its first
entry; a head may be initialised again, which drops its entries. -/
inductive Denotes (lists : Lists Addr) : Call Addr → Lists Addr → Outcome Addr → Prop
  | initializeListHead {listHead : Addr}
      (hfree : ∀ head entries, lists head = some entries → head ≠ listHead →
        listHead ∉ head :: entries) :
      Denotes lists (.initializeListHead listHead)
        (Function.update lists listHead (some [])) .void
  | isListEmpty {listHead : Addr} {entries : List Addr} (hlist : lists listHead = some entries) :
      Denotes lists (.isListEmpty listHead) lists (.isEmpty entries.isEmpty)
  | insertTailList {listHead entry : Addr} {entries : List Addr}
      (hlist : lists listHead = some entries) (hfree : Free lists entry) :
      Denotes lists (.insertTailList listHead entry)
        (Function.update lists listHead (some (entries ++ [entry]))) .void
  | insertHeadList {listHead entry : Addr} {entries : List Addr}
      (hlist : lists listHead = some entries) (hfree : Free lists entry) :
      Denotes lists (.insertHeadList listHead entry)
        (Function.update lists listHead (some (entry :: entries))) .void
  | appendTailList {listHead listToAppend : Addr} {entries appended : List Addr}
      (hlist : lists listHead = some entries) (happended : lists listToAppend = some appended)
      (hne : listToAppend ≠ listHead) :
      Denotes lists (.appendTailList listHead listToAppend)
        (Function.update (Function.update lists listToAppend none) listHead
          (some (entries ++ listToAppend :: appended))) .void
  | removeEntryList {listHead entry : Addr} {before after : List Addr}
      (hlist : lists listHead = some (before ++ entry :: after)) :
      Denotes lists (.removeEntryList entry)
        (Function.update lists listHead (some (before ++ after)))
        (.isEmpty (before ++ after).isEmpty)
  | removeHeadList {listHead entry : Addr} {entries : List Addr}
      (hlist : lists listHead = some (entry :: entries)) :
      Denotes lists (.removeHeadList listHead) (Function.update lists listHead (some entries))
        (.entry entry)
  | removeHeadOfEmptyList {listHead : Addr} (hlist : lists listHead = some []) :
      Denotes lists (.removeHeadList listHead) lists (.entry listHead)

/-- The lists that a call is about. -/
def Call.Concerns (lists : Lists Addr) : Call Addr → Addr → Prop
  | .initializeListHead listHead, head => head = listHead
  | .isListEmpty listHead, head => head = listHead
  | .insertTailList listHead _, head => head = listHead
  | .insertHeadList listHead _, head => head = listHead
  | .appendTailList listHead listToAppend, head => head = listHead ∨ head = listToAppend
  | .removeEntryList entry, head => ∃ entries, lists head = some entries ∧ entry ∈ entries
  | .removeHeadList listHead, head => head = listHead

/-- All other lists stay as they are, with the links of their entries. -/
def OthersUntouched (lists lists' : Lists Addr) (c : Call Addr) (heap heap' : DListHeap Addr) :
    Prop :=
  ∀ head entries, lists head = some entries → ¬ c.Concerns lists head →
    lists' head = some entries ∧ ∀ a ∈ head :: entries, heap' a = heap a

/-! ## Representation -/

/-- The list of a head is a ring. -/
def ListRing (heap : DListHeap Addr) (head : Addr) (entries : List Addr) : Prop :=
  Ring (fun a => (heap a).flink) (fun a => (heap a).blink) head entries

/-- Each list is a ring, and no entry is in a list twice or in two lists. -/
structure Represents (heap : DListHeap Addr) (lists : Lists Addr) : Prop where
  ring : ∀ head entries, lists head = some entries → ListRing heap head entries
  nodup : ∀ head entries, lists head = some entries → (head :: entries).Nodup
  disjoint : ∀ head entries head' entries', lists head = some entries →
    lists head' = some entries' → head' ≠ head → (head :: entries).Disjoint (head' :: entries')

section

variable {heap heap' : DListHeap Addr} {lists : Lists Addr} {a b head listHead entry : Addr}
variable {entries entries' : List Addr}

/-- Both links between `a` and `b`. -/
def link (heap : DListHeap Addr) (a b : Addr) : DListHeap Addr :=
  setBlink (setFlink heap a b) b a

@[simp] theorem link_flink (c : Addr) :
    (link heap a b c).flink = if c = a then b else (heap c).flink := by
  simp only [link, setBlink, setFlink, Function.update_apply]
  split_ifs
  all_goals simp_all

@[simp] theorem link_blink (c : Addr) :
    (link heap a b c).blink = if c = b then a else (heap c).blink := by
  simp only [link, setBlink, setFlink, Function.update_apply]
  split_ifs
  all_goals simp_all

theorem link_other {c : Addr} (ha : c ≠ a) (hb : c ≠ b) : link heap a b c = heap c := by
  simp [link, setBlink, setFlink, Function.update_apply, ha, hb]

theorem joined_link : Joined (fun c => (heap c).flink) (fun c => (heap c).blink)
    (fun c => (link heap a b c).flink) (fun c => (link heap a b c).blink) a b where
  forwards := by simp
  backwards := by simp
  next_other c hc := by simp [hc]
  prev_other c hc := by simp [hc]

theorem ListRing.frame (h : ListRing heap head entries) (ha : a ∉ head :: entries)
    (hb : b ∉ head :: entries) : ListRing (link heap a b) head entries :=
  Ring.frame h joined_link ha hb

theorem listRing_self : ListRing (link heap a a) a [] :=
  List.isChain_cons_cons.2 ⟨⟨by simp, by simp⟩, .singleton a⟩

omit [DecidableEq Addr] in
theorem heap_ext (hflink : ∀ c, (heap' c).flink = (heap c).flink)
    (hblink : ∀ c, (heap' c).blink = (heap c).blink) : heap' = heap := by
  funext c
  have hf := hflink c
  have hb := hblink c
  cases hc : heap c
  cases hc' : heap' c
  rw [hc, hc'] at hf hb
  cases hf
  cases hb
  rfl

@[simp] theorem setFlink_flink (c : Addr) :
    (setFlink heap a b c).flink = if c = a then b else (heap c).flink := by
  simp only [setFlink, Function.update_apply]
  split_ifs
  all_goals rfl

@[simp] theorem setFlink_blink (c : Addr) : (setFlink heap a b c).blink = (heap c).blink := by
  simp only [setFlink, Function.update_apply]
  split_ifs with hc
  · rw [hc]
  · rfl

@[simp] theorem setBlink_flink (c : Addr) : (setBlink heap a b c).flink = (heap c).flink := by
  simp only [setBlink, Function.update_apply]
  split_ifs with hc
  · rw [hc]
  · rfl

@[simp] theorem setBlink_blink (c : Addr) :
    (setBlink heap a b c).blink = if c = a then b else (heap c).blink := by
  simp only [setBlink, Function.update_apply]
  split_ifs
  all_goals rfl

/-! ### What the functions write -/

theorem dListInitializeListHead_eq :
    dListInitializeListHead listHead heap = link heap listHead listHead := by
  apply heap_ext
  · intro c
    simp [dListInitializeListHead]
  · intro c
    simp [dListInitializeListHead]

theorem dListInsertTailList_eq (hne : entry ≠ listHead) :
    dListInsertTailList listHead entry heap =
      link (link heap entry listHead) (heap listHead).blink entry := by
  apply heap_ext
  · intro c
    simp [dListInsertTailList]
  · intro c
    simp only [dListInsertTailList, setBlink_blink, setFlink_blink, link_blink]
    split_ifs
    all_goals simp_all

theorem dListInsertHeadList_eq (hne : entry ≠ listHead) (hne' : entry ≠ (heap listHead).flink) :
    dListInsertHeadList listHead entry heap =
      link (link heap entry (heap listHead).flink) listHead entry := by
  apply heap_ext
  · intro c
    simp [dListInsertHeadList, Ne.symm hne]
  · intro c
    simp only [dListInsertHeadList, setBlink_blink, setFlink_blink, setFlink_flink, setBlink_flink,
      link_blink, if_neg (Ne.symm hne)]
    split_ifs
    all_goals simp_all

theorem dListAppendTailList_eq {listToAppend : Addr} (hne : listToAppend ≠ listHead)
    (hends : (heap listToAppend).blink ≠ (heap listHead).blink) :
    dListAppendTailList listHead listToAppend heap =
      link (link heap (heap listToAppend).blink listHead) (heap listHead).blink listToAppend := by
  apply heap_ext
  · intro c
    simp only [dListAppendTailList, setBlink_blink, setFlink_blink, setFlink_flink, setBlink_flink,
      link_flink, if_neg hne]
    split_ifs
    all_goals simp_all
  · intro c
    simp only [dListAppendTailList, setBlink_blink, setFlink_blink, link_blink]

theorem dListRemoveEntryList_eq :
    (dListRemoveEntryList entry heap).2 = link heap (heap entry).blink (heap entry).flink := rfl

theorem dListRemoveHeadList_eq :
    (dListRemoveHeadList listHead heap).2 =
      link heap listHead (heap (heap listHead).flink).flink := rfl

end

/-! ## Every call keeps the representation -/

section

variable {heap heap' : DListHeap Addr} {lists lists' : Lists Addr} {listHead entry : Addr}
variable {entries entries' : List Addr}

theorem Represents.update (hring : ListRing heap' listHead entries')
    (hnodup : (listHead :: entries').Nodup)
    (hothers : ∀ head entries, lists head = some entries → head ≠ listHead →
      ListRing heap' head entries ∧ (head :: entries).Nodup ∧
        (listHead :: entries').Disjoint (head :: entries))
    (hdisjoint : ∀ head entries head' entries', lists head = some entries →
      lists head' = some entries' → head ≠ listHead → head' ≠ listHead → head' ≠ head →
        (head :: entries).Disjoint (head' :: entries')) :
    Represents heap' (Function.update lists listHead (some entries')) := by
  have hcases : ∀ head entries, Function.update lists listHead (some entries') head = some entries →
      (head = listHead ∧ entries = entries') ∨ (head ≠ listHead ∧ lists head = some entries) := by
    intro head entries hlist
    rw [Function.update_apply] at hlist
    split_ifs at hlist with hhead
    · cases hlist
      exact .inl ⟨hhead, rfl⟩
    · exact .inr ⟨hhead, hlist⟩
  constructor
  case ring =>
    intro head entries hlist
    rcases hcases head entries hlist with ⟨rfl, rfl⟩ | ⟨hne, hlist⟩
    · exact hring
    · exact (hothers head entries hlist hne).1
  case nodup =>
    intro head entries hlist
    rcases hcases head entries hlist with ⟨rfl, rfl⟩ | ⟨hne, hlist⟩
    · exact hnodup
    · exact (hothers head entries hlist hne).2.1
  case disjoint =>
    intro head entries head' entries'' hlist hlist' hhead
    rcases hcases head entries hlist with ⟨rfl, rfl⟩ | ⟨hne, hold⟩
    · rcases hcases head' entries'' hlist' with ⟨rfl, -⟩ | ⟨hne', hold'⟩
      · exact absurd rfl hhead
      · exact (hothers head' entries'' hold' hne').2.2
    · rcases hcases head' entries'' hlist' with ⟨rfl, rfl⟩ | ⟨hne', hold'⟩
      · exact fun a ha ha' => (hothers head entries hold hne).2.2 ha' ha
      · exact hdisjoint _ _ _ _ hold hold' hne hne' hhead

theorem Represents.replace (hrep : Represents heap lists) (hring : ListRing heap' listHead entries')
    (hnodup : (listHead :: entries').Nodup)
    (hcells : ∀ head entries, lists head = some entries → head ≠ listHead →
      (listHead :: entries').Disjoint (head :: entries))
    (hframe : ∀ head entries, lists head = some entries → head ≠ listHead →
      ListRing heap' head entries) :
    Represents heap' (Function.update lists listHead (some entries')) := by
  apply Represents.update hring hnodup
  · intro head entries hlist hne
    exact ⟨hframe head entries hlist hne, hrep.nodup head entries hlist,
      hcells head entries hlist hne⟩
  · intro head entries head' entries'' hlist hlist' _ _ hne
    exact hrep.disjoint _ _ _ _ hlist hlist' hne

omit [DecidableEq Addr] in
theorem Represents.notMem (hrep : Represents heap lists) (hlist : lists listHead = some entries)
    {a : Addr} (ha : a ∈ listHead :: entries) {head : Addr} {others : List Addr}
    (hothers : lists head = some others) (hne : head ≠ listHead) : a ∉ head :: others :=
  fun hmem => hrep.disjoint _ _ _ _ hlist hothers hne ha hmem

omit [DecidableEq Addr] in
theorem Represents.free_nodup (hrep : Represents heap lists) (hlist : lists listHead = some entries)
    (hfree : Free lists entry) : (entry :: listHead :: entries).Nodup :=
  List.nodup_cons.2 ⟨hfree _ _ hlist, hrep.nodup _ _ hlist⟩

/-- What a call guarantees of the heap it leaves. -/
structure Refines (lists lists' : Lists Addr) (c : Call Addr) (o : Outcome Addr)
    (heap : DListHeap Addr) : Prop where
  represents : Represents (call heap c).2 lists'
  result : o.Agrees (call heap c).1
  others : OthersUntouched lists lists' c heap (call heap c).2

theorem initializeListHead_refines (hrep : Represents heap lists)
    (hfree : ∀ head entries, lists head = some entries → head ≠ listHead →
      listHead ∉ head :: entries) :
    Refines lists (Function.update lists listHead (some [])) (.initializeListHead listHead) .void
      heap where
  represents := by
    rw [call, dListInitializeListHead_eq]
    apply hrep.replace listRing_self (List.nodup_singleton _)
    · intro head entries hlist hne a ha ha'
      rw [List.mem_singleton.1 ha] at ha'
      exact hfree head entries hlist hne ha'
    · intro head entries hlist hne
      exact (hrep.ring head entries hlist).frame (hfree head entries hlist hne)
        (hfree head entries hlist hne)
  result := trivial
  others := by
    intro head entries hlist hother
    have hne : head ≠ listHead := hother
    refine ⟨by simpa [Function.update_apply, hne] using hlist, ?_⟩
    intro a ha
    rw [call, dListInitializeListHead_eq]
    have hother' : a ≠ listHead := fun heq => hfree head entries hlist hne (heq ▸ ha)
    exact link_other hother' hother'

theorem isListEmpty_refines (hrep : Represents heap lists)
    (hlist : lists listHead = some entries) :
    Refines lists lists (.isListEmpty listHead) (.isEmpty entries.isEmpty) heap where
  represents := hrep
  result := by
    have hnext : (heap listHead).flink = (entries ++ [listHead]).head (by simp) :=
      (hrep.ring _ _ hlist).head_next
    show (if (heap listHead).flink = listHead then (1 : Int) else 0) ≠ 0 ↔ entries.isEmpty = true
    rw [hnext]
    cases entries with
    | nil => simp
    | cons a entries =>
      have hne : a ≠ listHead := by
        rintro rfl
        exact (List.nodup_cons.1 (hrep.nodup _ _ hlist)).1 (List.mem_cons_self ..)
      simp [hne]
  others _ _ hlist _ := ⟨hlist, fun _ _ => rfl⟩

omit [DecidableEq Addr] in
theorem Represents.neighbours_notMem {before after : List Addr} (hrep : Represents heap lists)
    (hlist : lists listHead = some entries) (hbefore : before.Sublist entries)
    (hafter : after.Sublist entries) {head : Addr} {others : List Addr}
    (hothers : lists head = some others) (hne : head ≠ listHead) :
    (listHead :: before).getLast (by simp) ∉ head :: others ∧
      (after ++ [listHead]).head (by simp) ∉ head :: others := by
  constructor
  · apply hrep.notMem hlist _ hothers hne
    exact (hbefore.cons_cons listHead).subset (List.getLast_mem _)
  · apply hrep.notMem hlist _ hothers hne
    have hmem : (after ++ [listHead]).head (by simp) ∈ after ++ [listHead] := List.head_mem _
    rcases List.mem_append.1 hmem with hmem | hmem
    · exact List.mem_cons_of_mem _ (hafter.subset hmem)
    · rw [List.mem_singleton.1 hmem]
      exact List.mem_cons_self ..

theorem link_untouched {a b head : Addr} {others : List Addr} (ha : a ∉ head :: others)
    (hb : b ∉ head :: others) : ∀ c ∈ head :: others, link heap a b c = heap c := by
  intro c hc
  exact link_other (fun heq => ha (heq ▸ hc)) (fun heq => hb (heq ▸ hc))

/-- A chain of cells that are in no other list is put into a list by the links at its ends. -/
theorem splice_represents {before after : List Addr} (middle : List Addr)
    (hrep : Represents heap lists)
    (hlist : lists listHead = some (before ++ after)) (hne : middle ≠ [])
    (hmiddle : middle.IsChain
      (Linked (fun a => (heap a).flink) (fun a => (heap a).blink)))
    (hnodup : (listHead :: (before ++ (middle ++ after))).Nodup)
    (hapart : ∀ head entries, lists head = some entries → head ≠ listHead →
      middle.Disjoint (head :: entries)) :
    Represents
        (link (link heap (middle.getLast hne) ((after ++ [listHead]).head (by simp)))
          ((listHead :: before).getLast (by simp)) (middle.head hne))
        (Function.update lists listHead (some (before ++ (middle ++ after)))) ∧
      ∀ head entries, lists head = some entries → head ≠ listHead → ∀ a ∈ head :: entries,
        link (link heap (middle.getLast hne) ((after ++ [listHead]).head (by simp)))
          ((listHead :: before).getLast (by simp)) (middle.head hne) a = heap a := by
  have houtside : ∀ head entries, lists head = some entries → head ≠ listHead →
      middle.getLast hne ∉ head :: entries ∧ middle.head hne ∉ head :: entries ∧
        (listHead :: before).getLast (by simp) ∉ head :: entries ∧
          (after ++ [listHead]).head (by simp) ∉ head :: entries := by
    intro head entries hothers hhead
    have hends := hrep.neighbours_notMem hlist (List.sublist_append_left before after)
      (List.sublist_append_right before after) hothers hhead
    have hchain := hapart head entries hothers hhead
    exact ⟨fun hmem => hchain (List.getLast_mem hne) hmem,
      fun hmem => hchain (List.head_mem hne) hmem, hends⟩
  constructor
  · apply hrep.replace
    case hring =>
      exact Ring.spliced (hrep.ring _ _ hlist) hmiddle hne hnodup joined_link joined_link
    case hnodup => exact hnodup
    case hcells =>
      intro head entries hothers hhead a ha ha'
      have hold : a ∈ middle ∨ a ∈ listHead :: (before ++ after) := by
        simp only [List.mem_cons, List.mem_append] at ha ⊢
        tauto
      rcases hold with hmem | hmem
      · exact hapart head entries hothers hhead hmem ha'
      · exact hrep.notMem hlist hmem hothers hhead ha'
    case hframe =>
      intro head entries hothers hhead
      rcases houtside head entries hothers hhead with ⟨hlast, hfirst, hbefore, hafter⟩
      exact ((hrep.ring head entries hothers).frame hlast hafter).frame hbefore hfirst
  · intro head entries hothers hhead a ha
    rcases houtside head entries hothers hhead with ⟨hlast, hfirst, hbefore, hafter⟩
    rw [link_untouched hbefore hfirst a ha, link_untouched hlast hafter a ha]

theorem cut_represents {before after : List Addr} (middle : List Addr)
    (hrep : Represents heap lists)
    (hlist : lists listHead = some (before ++ (middle ++ after))) :
    Represents
        (link heap ((listHead :: before).getLast (by simp)) ((after ++ [listHead]).head (by simp)))
        (Function.update lists listHead (some (before ++ after))) ∧
      ∀ head entries, lists head = some entries → head ≠ listHead → ∀ a ∈ head :: entries,
        link heap ((listHead :: before).getLast (by simp))
          ((after ++ [listHead]).head (by simp)) a = heap a := by
  have hsub : (before ++ after).Sublist (before ++ (middle ++ after)) :=
    (List.sublist_append_right middle after).append_left before
  have houtside : ∀ head entries, lists head = some entries → head ≠ listHead →
      (listHead :: before).getLast (by simp) ∉ head :: entries ∧
        (after ++ [listHead]).head (by simp) ∉ head :: entries := by
    intro head entries hothers hhead
    exact hrep.neighbours_notMem hlist ((List.sublist_append_left before after).trans hsub)
      ((List.sublist_append_right before after).trans hsub) hothers hhead
  constructor
  · apply hrep.replace
    case hring => exact Ring.cut (hrep.ring _ _ hlist) (hrep.nodup _ _ hlist) joined_link
    case hnodup => exact (hrep.nodup _ _ hlist).sublist (hsub.cons_cons listHead)
    case hcells =>
      intro head entries hothers hhead a ha ha'
      exact hrep.notMem hlist ((hsub.cons_cons listHead).subset ha) hothers hhead ha'
    case hframe =>
      intro head entries hothers hhead
      rcases houtside head entries hothers hhead with ⟨hbefore, hafter⟩
      exact (hrep.ring head entries hothers).frame hbefore hafter
  · intro head entries hothers hhead
    rcases houtside head entries hothers hhead with ⟨hbefore, hafter⟩
    exact link_untouched hbefore hafter

/-! ### The calls -/

omit [DecidableEq Addr] in
theorem Represents.ends (hrep : Represents heap lists) (hlist : lists listHead = some entries) :
    (heap listHead).flink = (entries ++ [listHead]).head (by simp) ∧
      (heap listHead).blink = (listHead :: entries).getLast (by simp) :=
  ⟨(hrep.ring _ _ hlist).head_next, (hrep.ring _ _ hlist).head_prev⟩

theorem update_of_ne {head : Addr} {value : Option (List Addr)} (hne : head ≠ listHead) :
    Function.update lists listHead value head = lists head := by
  rw [Function.update_apply, if_neg hne]

theorem insertTailList_refines (hrep : Represents heap lists)
    (hlist : lists listHead = some entries) (hfree : Free lists entry) :
    Refines lists (Function.update lists listHead (some (entries ++ [entry])))
      (.insertTailList listHead entry) .void heap := by
  have hfresh := hrep.free_nodup hlist hfree
  have hne : entry ≠ listHead := fun heq => (List.nodup_cons.1 hfresh).1 (heq ▸ List.mem_cons_self ..)
  have hnodup : (listHead :: (entries ++ ([entry] ++ []))).Nodup := by
    have hperm : (entry :: listHead :: entries).Perm (listHead :: (entries ++ ([entry] ++ []))) :=
      (List.perm_append_singleton entry (listHead :: entries)).symm
    exact hperm.nodup_iff.1 hfresh
  have hlist' : lists listHead = some (entries ++ []) := by rw [hlist, List.append_nil]
  have hsplice := splice_represents [entry] hrep hlist' (List.cons_ne_nil _ _)
    (.singleton entry) hnodup (fun head others hothers _ a ha ha' =>
      hfree head others hothers (List.mem_singleton.1 ha ▸ ha'))
  have hheap : (call heap (.insertTailList listHead entry)).2 =
      link (link heap entry listHead) ((listHead :: entries).getLast (by simp)) entry := by
    rw [call, dListInsertTailList_eq hne, (hrep.ends hlist).2]
  refine ⟨?_, trivial, ?_⟩
  · rw [hheap]
    exact hsplice.1
  · intro head others hothers hhead
    rw [hheap]
    exact ⟨(update_of_ne hhead).trans hothers, hsplice.2 head others hothers hhead⟩

theorem insertHeadList_refines (hrep : Represents heap lists)
    (hlist : lists listHead = some entries) (hfree : Free lists entry) :
    Refines lists (Function.update lists listHead (some (entry :: entries)))
      (.insertHeadList listHead entry) .void heap := by
  have hfresh := hrep.free_nodup hlist hfree
  have hnotMem := (List.nodup_cons.1 hfresh).1
  have hne : entry ≠ listHead := fun heq => hnotMem (heq ▸ List.mem_cons_self ..)
  have hne' : entry ≠ (heap listHead).flink := by
    rw [(hrep.ends hlist).1]
    intro heq
    have hmem : entry ∈ entries ++ [listHead] := heq ▸ List.head_mem _
    apply hnotMem
    simpa [or_comm] using hmem
  have hnodup : (listHead :: ([] ++ ([entry] ++ entries))).Nodup :=
    (List.Perm.swap listHead entry entries).nodup_iff.1 hfresh
  have hlist' : lists listHead = some ([] ++ entries) := hlist
  have hsplice := splice_represents [entry] hrep hlist' (List.cons_ne_nil _ _)
    (.singleton entry) hnodup (fun head others hothers _ a ha ha' =>
      hfree head others hothers (List.mem_singleton.1 ha ▸ ha'))
  have hheap : (call heap (.insertHeadList listHead entry)).2 =
      link (link heap entry ((entries ++ [listHead]).head (by simp))) listHead entry := by
    rw [call, dListInsertHeadList_eq hne hne', (hrep.ends hlist).1]
  refine ⟨?_, trivial, ?_⟩
  · rw [hheap]
    exact hsplice.1
  · intro head others hothers hhead
    rw [hheap]
    exact ⟨(update_of_ne hhead).trans hothers, hsplice.2 head others hothers hhead⟩

theorem Represents.forget (hrep : Represents heap lists) (a : Addr) :
    Represents heap (Function.update lists a none) := by
  have hold : ∀ head entries, Function.update lists a none head = some entries →
      lists head = some entries := by
    intro head entries hlist
    rw [Function.update_apply] at hlist
    split_ifs at hlist
    exact hlist
  constructor
  case ring => exact fun head entries hlist => hrep.ring _ _ (hold _ _ hlist)
  case nodup => exact fun head entries hlist => hrep.nodup _ _ (hold _ _ hlist)
  case disjoint =>
    exact fun head entries head' entries' hlist hlist' =>
      hrep.disjoint _ _ _ _ (hold _ _ hlist) (hold _ _ hlist')

theorem appendTailList_refines {listToAppend : Addr} {appended : List Addr}
    (hrep : Represents heap lists) (hlist : lists listHead = some entries)
    (happended : lists listToAppend = some appended) (hne : listToAppend ≠ listHead) :
    Refines lists
      (Function.update (Function.update lists listToAppend none) listHead
        (some (entries ++ listToAppend :: appended)))
      (.appendTailList listHead listToAppend) .void heap := by
  have hapart := hrep.disjoint _ _ _ _ hlist happended hne
  have hnodup : (listHead :: (entries ++ ((listToAppend :: appended) ++ []))).Nodup := by
    rw [List.append_nil]
    exact List.Nodup.append (hrep.nodup _ _ hlist) (hrep.nodup _ _ happended) hapart
  have hlist' : Function.update lists listToAppend none listHead = some (entries ++ []) := by
    rw [update_of_ne (Ne.symm hne), hlist, List.append_nil]
  have hchain : (listToAppend :: appended).IsChain
      (Linked (fun a => (heap a).flink) (fun a => (heap a).blink)) := by
    have hring : Ring (fun a => (heap a).flink) (fun a => (heap a).blink) listToAppend
        (appended ++ []) := by
      rw [List.append_nil]
      exact hrep.ring _ _ happended
    exact hring.parts.1
  have hothersApart : ∀ head others,
      Function.update lists listToAppend none head = some others → head ≠ listHead →
        lists head = some others ∧ head ≠ listToAppend := by
    intro head others hothers _
    rw [Function.update_apply] at hothers
    split_ifs at hothers with hhead
    exact ⟨hothers, hhead⟩
  have hsplice := splice_represents (listToAppend :: appended) (hrep.forget listToAppend) hlist'
    (List.cons_ne_nil _ _) hchain hnodup (fun head others hothers hhead =>
      hrep.disjoint _ _ _ _ happended (hothersApart head others hothers hhead).1
        (hothersApart head others hothers hhead).2)
  have hends : (heap listToAppend).blink ≠ (heap listHead).blink := by
    rw [(hrep.ends hlist).2, (hrep.ends happended).2]
    intro heq
    exact hapart (List.getLast_mem _) (heq ▸ List.getLast_mem _)
  have hheap : (call heap (.appendTailList listHead listToAppend)).2 =
      link (link heap ((listToAppend :: appended).getLast (by simp)) listHead)
        ((listHead :: entries).getLast (by simp)) listToAppend := by
    rw [call, dListAppendTailList_eq hne hends, (hrep.ends hlist).2, (hrep.ends happended).2]
  refine ⟨?_, trivial, ?_⟩
  · rw [hheap]
    simpa using hsplice.1
  · intro head others hothers hconcerns
    have hhead : head ≠ listHead := fun heq => hconcerns (.inl heq)
    have hhead' : head ≠ listToAppend := fun heq => hconcerns (.inr heq)
    have hstill : Function.update lists listToAppend none head = some others :=
      (update_of_ne hhead').trans hothers
    rw [hheap]
    exact ⟨(update_of_ne hhead).trans hstill, hsplice.2 head others hstill hhead⟩

omit [DecidableEq Addr] in
/-- The neighbours of an entry are the same cell only where the entry is the only one. -/
theorem neighbours_eq_iff {before after : List Addr}
    (hnodup : (listHead :: (before ++ after)).Nodup) :
    (after ++ [listHead]).head (by simp) = (listHead :: before).getLast (by simp) ↔
      before ++ after = [] := by
  rcases Ring.separate hnodup with ⟨hnodup₁, -, hdisjoint, -⟩
  constructor
  · intro heq
    cases after with
    | cons a after =>
      have hmem : a ∈ listHead :: before := by
        have hlast := List.getLast_mem (List.cons_ne_nil listHead before)
        rw [← heq] at hlast
        exact hlast
      exact absurd (List.mem_cons_self ..) (hdisjoint hmem)
    | nil =>
      cases before with
      | nil => rfl
      | cons b before =>
        have hmem : listHead ∈ b :: before := by
          have hlast := List.getLast_mem (List.cons_ne_nil b before)
          rw [← List.getLast_cons (a := listHead), ← heq] at hlast
          exact hlast
        exact absurd hmem (List.nodup_cons.1 hnodup₁).1
  · intro hnil
    rcases List.append_eq_nil_iff.1 hnil with ⟨rfl, rfl⟩
    rfl

theorem removeEntryList_refines {before after : List Addr} (hrep : Represents heap lists)
    (hlist : lists listHead = some (before ++ entry :: after)) :
    Refines lists (Function.update lists listHead (some (before ++ after)))
      (.removeEntryList entry) (.isEmpty (before ++ after).isEmpty) heap := by
  have hring := hrep.ring _ _ hlist
  have hflink : (heap entry).flink = (after ++ [listHead]).head (by simp) := Ring.entry_next hring
  have hblink : (heap entry).blink = (listHead :: before).getLast (by simp) :=
    Ring.entry_prev hring
  have hcut := cut_represents [entry] hrep hlist
  have hheap : (call heap (.removeEntryList entry)).2 =
      link heap ((listHead :: before).getLast (by simp))
        ((after ++ [listHead]).head (by simp)) := by
    rw [call, dListRemoveEntryList_eq, hflink, hblink]
  have hnodup : (listHead :: (before ++ after)).Nodup := by
    have hsub : (before ++ after).Sublist (before ++ entry :: after) :=
      (List.sublist_cons_self entry after).append_left before
    exact (hrep.nodup _ _ hlist).sublist (hsub.cons_cons listHead)
  refine ⟨?_, ?_, ?_⟩
  · rw [hheap]
    exact hcut.1
  · show (if (heap entry).flink = (heap entry).blink then (1 : Int) else 0) ≠ 0 ↔
      (before ++ after).isEmpty = true
    rw [hflink, hblink, List.isEmpty_iff, ← neighbours_eq_iff hnodup]
    split_ifs with heq
    · simp [heq]
    · simp [heq]
  · intro head others hothers hconcerns
    have hhead : head ≠ listHead := by
      rintro rfl
      exact hconcerns ⟨_, hlist, by simp⟩
    rw [hheap]
    exact ⟨(update_of_ne hhead).trans hothers, hcut.2 head others hothers hhead⟩

theorem removeHeadList_refines (hrep : Represents heap lists)
    (hlist : lists listHead = some (entry :: entries)) :
    Refines lists (Function.update lists listHead (some entries)) (.removeHeadList listHead)
      (.entry entry) heap := by
  have hfirst : (heap listHead).flink = entry := (hrep.ends hlist).1
  have hring : Ring (fun a => (heap a).flink) (fun a => (heap a).blink) listHead
      ([] ++ entry :: entries) := hrep.ring _ _ hlist
  have hflink : (heap entry).flink = (entries ++ [listHead]).head (by simp) := hring.entry_next
  have hlist' : lists listHead = some ([] ++ ([entry] ++ entries)) := hlist
  have hcut := cut_represents [entry] hrep hlist'
  have hheap : (call heap (.removeHeadList listHead)).2 =
      link heap listHead ((entries ++ [listHead]).head (by simp)) := by
    rw [call, dListRemoveHeadList_eq, hfirst, hflink]
  refine ⟨?_, hfirst, ?_⟩
  · rw [hheap]
    exact hcut.1
  · intro head others hothers hhead
    rw [hheap]
    exact ⟨(update_of_ne hhead).trans hothers, hcut.2 head others hothers hhead⟩

theorem removeHeadOfEmptyList_refines (hrep : Represents heap lists)
    (hlist : lists listHead = some []) :
    Refines lists lists (.removeHeadList listHead) (.entry listHead) heap := by
  have hself : (heap listHead).flink = listHead := (hrep.ends hlist).1
  have hfree : ∀ head entries, lists head = some entries → head ≠ listHead →
      listHead ∉ head :: entries := fun head entries hothers hhead =>
    hrep.notMem hlist (List.mem_cons_self ..) hothers hhead
  have hinit := initializeListHead_refines hrep hfree
  have hsame : Function.update lists listHead (some []) = lists := by
    rw [← hlist, Function.update_eq_self]
  have hheap : (call heap (.removeHeadList listHead)).2 =
      (call heap (.initializeListHead listHead)).2 := by
    rw [call, call, dListRemoveHeadList_eq, dListInitializeListHead_eq, hself, hself]
  refine ⟨?_, hself, ?_⟩
  · rw [hheap]
    have hrep' := hinit.represents
    rwa [hsame] at hrep'
  · intro head others hothers hhead
    rw [hheap]
    have hothers' := hinit.others head others hothers hhead
    rwa [hsame] at hothers'

theorem call_refines {c : Call Addr} {o : Outcome Addr} (hrep : Represents heap lists)
    (hcall : Denotes lists c lists' o) : Refines lists lists' c o heap := by
  cases hcall with
  | initializeListHead hfree => exact initializeListHead_refines hrep hfree
  | isListEmpty hlist => exact isListEmpty_refines hrep hlist
  | insertTailList hlist hfree => exact insertTailList_refines hrep hlist hfree
  | insertHeadList hlist hfree => exact insertHeadList_refines hrep hlist hfree
  | appendTailList hlist happended hne => exact appendTailList_refines hrep hlist happended hne
  | removeEntryList hlist => exact removeEntryList_refines hrep hlist
  | removeHeadList hlist => exact removeHeadList_refines hrep hlist
  | removeHeadOfEmptyList hlist => exact removeHeadOfEmptyList_refines hrep hlist

end

/-! ## Every sequence of calls -/

/-- The calls of a sequence, on the heap and on the lists that it stands for. -/
inductive Runs (heap₀ : DListHeap Addr) (lists₀ : Lists Addr) :
    DListHeap Addr → Lists Addr → Prop
  | start : Runs heap₀ lists₀ heap₀ lists₀
  | step {heap : DListHeap Addr} {lists lists' : Lists Addr} {c : Call Addr} {o : Outcome Addr} :
      Runs heap₀ lists₀ heap lists → Denotes lists c lists' o →
        Runs heap₀ lists₀ (call heap c).2 lists'

/-- Well-formed lists stay the rings of the sequences that the calls denote; the next call returns what
it is to return, and leaves the other lists alone. -/
theorem doublyLinkedList_refines_sequences {heap₀ heap : DListHeap Addr}
    {lists₀ lists : Lists Addr} (h₀ : Represents heap₀ lists₀)
    (hruns : Runs heap₀ lists₀ heap lists) :
    Represents heap lists ∧
      (∀ head entries, lists head = some entries → ∀ a ∈ head :: entries,
        (heap (heap a).flink).blink = a ∧ (heap (heap a).blink).flink = a) ∧
      ∀ c lists' o, Denotes lists c lists' o →
        o.Agrees (call heap c).1 ∧ OthersUntouched lists lists' c heap (call heap c).2 := by
  have hrep : Represents heap lists := by
    induction hruns with
    | start => exact h₀
    | step _ hcall ih => exact (call_refines ih hcall).represents
  refine ⟨hrep, ?_, ?_⟩
  · intro head entries hlist a ha
    exact (hrep.ring head entries hlist).inverse ha
  · intro c lists' o hcall
    have hrefines := call_refines hrep hcall
    exact ⟨hrefines.result, hrefines.others⟩

/-- A heap of null links, and two entries of a list that is made there. -/
theorem doublyLinkedList_two_entries :
    ∃ heap : DListHeap Nat, ∃ lists, Runs (fun _ => ⟨0, 0⟩) (fun _ => none) heap lists ∧
      lists 1 = some [2, 3] ∧ Represents heap lists ∧
        ∀ c lists' o, Denotes lists c lists' o →
          o.Agrees (call heap c).1 ∧ OthersUntouched lists lists' c heap (call heap c).2 := by
  have h₀ : Represents (fun _ : Nat => (⟨0, 0⟩ : DListEntry Nat)) (fun _ => none) :=
    ⟨nofun, nofun, nofun⟩
  let none₀ : Lists Nat := fun _ => none
  let empty : Lists Nat := Function.update none₀ 1 (some [])
  let one : Lists Nat := Function.update empty 1 (some [2])
  have hcells : ∀ head entries, empty head = some entries → head = 1 ∧ entries = [] := by
    intro head entries hlist
    simp only [empty, none₀, Function.update_apply] at hlist
    split_ifs at hlist with hhead
    cases hlist
    exact ⟨hhead, rfl⟩
  have hcells' : ∀ head entries, one head = some entries → head = 1 ∧ entries = [2] := by
    intro head entries hlist
    rw [show one = Function.update empty 1 (some [2]) from rfl, Function.update_apply] at hlist
    split_ifs at hlist with hhead
    · cases hlist
      exact ⟨hhead, rfl⟩
    · exact absurd (hcells head entries hlist).1 hhead
  have hinit : Denotes none₀ (.initializeListHead 1) empty .void := .initializeListHead nofun
  have hsecond : Denotes empty (.insertTailList 1 2) one .void := by
    have hlist : empty 1 = some [] := rfl
    refine .insertTailList hlist ?_
    intro head entries hlist
    rcases hcells head entries hlist with ⟨rfl, rfl⟩
    decide
  have hthird : Denotes one (.insertTailList 1 3) (Function.update one 1 (some [2, 3])) .void := by
    have hlist : one 1 = some [2] := rfl
    refine .insertTailList hlist ?_
    intro head entries hlist
    rcases hcells' head entries hlist with ⟨rfl, rfl⟩
    decide
  have hruns : Runs (fun _ => ⟨0, 0⟩) none₀ _ _ :=
    .step (.step (.step .start hinit) hsecond) hthird
  have hrefines := doublyLinkedList_refines_sequences h₀ hruns
  exact ⟨_, _, hruns, rfl, hrefines.1, hrefines.2.2⟩

end SharedUtility.DoublyLinkedList
