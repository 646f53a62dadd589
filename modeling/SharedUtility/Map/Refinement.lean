import Mathlib.Data.List.Nodup
import Mathlib.Data.List.InsertIdx
import SharedUtility.Map.AssocList

/-!
# Refinement — a map is an association list

`Represents h d l` says that the first `count` slots of both arrays of `d` point to the strings of
`l`, each to one of its own. Every function of `map.c` is shown to keep this for the list that it
should leave, whichever of its allocations fail, and to touch no string of another map.
-/

namespace SharedUtility.Map
namespace Storage

open Memory

/-! ## What the slots hold -/

namespace MapHandleData

def firstKeys (d : MapHandleData) (n : Nat) : List Ptr :=
  (d.keys.getD []).take n

def firstValues (d : MapHandleData) (n : Nat) : List Ptr :=
  (d.values.getD []).take n

/-- The slots that `count` counts. -/
def slots (d : MapHandleData) : List Ptr :=
  d.firstKeys d.count ++ d.firstValues d.count

end MapHandleData

/-- The first slots of both arrays point to the strings of `l`. -/
structure Prefix (h : Heap Bytes) (d : MapHandleData) (l : AssocList) : Prop where
  keys : (d.firstKeys l.length).map h.cell = l.map fun e => some e.1
  values : (d.firstValues l.length).map h.cell = l.map fun e => some e.2
  separate : (d.firstKeys l.length ++ d.firstValues l.length).Nodup
  distinct : l.keys.Nodup
  noFilter : d.mapFilterCallback = none

structure Represents (h : Heap Bytes) (d : MapHandleData) (l : AssocList) : Prop
    extends Prefix h d l where
  count : d.count = l.length
  null : l = [] → d.keys = none ∧ d.values = none
  /-- The arrays are longer only where one of them could not be made smaller. -/
  exact : h.shrinkFailures = 0 →
    (d.keys.getD []).length = d.count ∧ (d.values.getD []).length = d.count

/-- No cell has changed. -/
structure Untouched (h h' : Heap Bytes) : Prop where
  cell : h'.cell = h.cell
  failures : h.failures ≤ h'.failures
  shrinkFailures : h.shrinkFailures ≤ h'.shrinkFailures

/-- A call on `d` has left `d'`: of the strings that are not in `d` none has changed, and those in
`d'` were in `d` or are new. -/
structure Changed (h h' : Heap Bytes) (d d' : MapHandleData) : Prop where
  kept : ∀ p v, p ∉ d.slots → h.cell p = some v → h'.cell p = some v
  new : ∀ p ∈ d'.slots, p ∈ d.slots ∨ h.cell p = none
  failures : h.failures ≤ h'.failures
  shrinkFailures : h.shrinkFailures ≤ h'.shrinkFailures

section

variable {h h' h'' : Heap Bytes} {d d' : MapHandleData} {l : AssocList}

theorem Untouched.refl (h : Heap Bytes) : Untouched h h :=
  ⟨rfl, Nat.le_refl _, Nat.le_refl _⟩

theorem Untouched.trans (hab : Untouched h h') (hbc : Untouched h' h'') : Untouched h h'' :=
  ⟨hbc.cell.trans hab.cell, Nat.le_trans hab.failures hbc.failures,
    Nat.le_trans hab.shrinkFailures hbc.shrinkFailures⟩

theorem untouched_allocated (h : Heap Bytes) : Untouched h h.allocated :=
  ⟨rfl, Nat.le_refl _, Nat.le_refl _⟩

theorem untouched_refused (h : Heap Bytes) : Untouched h h.refused :=
  ⟨rfl, Nat.le_succ _, Nat.le_refl _⟩

theorem untouched_shrinkRefused (h : Heap Bytes) : Untouched h h.refused.shrinkRefused :=
  ⟨rfl, Nat.le_succ _, Nat.le_succ _⟩

theorem Prefix.keys_length (hd : Prefix h d l) : l.length ≤ (d.keys.getD []).length := by
  have hlen := congrArg List.length hd.keys
  simp only [List.length_map, MapHandleData.firstKeys, List.length_take] at hlen
  omega

theorem Prefix.values_length (hd : Prefix h d l) : l.length ≤ (d.values.getD []).length := by
  have hlen := congrArg List.length hd.values
  simp only [List.length_map, MapHandleData.firstValues, List.length_take] at hlen
  omega

theorem Prefix.live (hd : Prefix h d l) {p : Ptr}
    (hp : p ∈ d.firstKeys l.length ++ d.firstValues l.length) : ∃ text, h.cell p = some text := by
  rcases List.mem_append.mp hp with hp | hp
  · have hcell := List.mem_map_of_mem (f := h.cell) hp
    rw [hd.keys] at hcell
    obtain ⟨e, -, he⟩ := List.mem_map.mp hcell
    exact ⟨e.1, he.symm⟩
  · have hcell := List.mem_map_of_mem (f := h.cell) hp
    rw [hd.values] at hcell
    obtain ⟨e, -, he⟩ := List.mem_map.mp hcell
    exact ⟨e.2, he.symm⟩

theorem Prefix.of_kept (hd : Prefix h d l)
    (hkept : ∀ p ∈ d.firstKeys l.length ++ d.firstValues l.length, h'.cell p = h.cell p) :
    Prefix h' d l where
  keys := by
    rw [← hd.keys]
    exact List.map_congr_left fun p hp => hkept p (List.mem_append_left _ hp)
  values := by
    rw [← hd.values]
    exact List.map_congr_left fun p hp => hkept p (List.mem_append_right _ hp)
  separate := hd.separate
  distinct := hd.distinct
  noFilter := hd.noFilter

theorem Represents.slots_eq (hd : Represents h d l) :
    d.slots = d.firstKeys l.length ++ d.firstValues l.length := by
  unfold MapHandleData.slots
  rw [hd.count]

theorem Represents.live (hd : Represents h d l) {p : Ptr} (hp : p ∈ d.slots) :
    ∃ text, h.cell p = some text := by
  rw [hd.slots_eq] at hp
  exact hd.toPrefix.live hp

theorem Represents.of_kept (hd : Represents h d l)
    (hkept : ∀ p ∈ d.slots, h'.cell p = h.cell p)
    (hshrink : h.shrinkFailures ≤ h'.shrinkFailures) : Represents h' d l where
  toPrefix := by
    rw [hd.slots_eq] at hkept
    exact hd.toPrefix.of_kept hkept
  count := hd.count
  null := hd.null
  exact := by
    intro hnone
    exact hd.exact (by omega)

theorem Represents.untouched (hd : Represents h d l) (hcells : Untouched h h') :
    Represents h' d l :=
  hd.of_kept (fun p _ => congrFun hcells.cell p) hcells.shrinkFailures

theorem Untouched.changed (hcells : Untouched h h') (hslots : d'.slots = d.slots) :
    Changed h h' d d' where
  kept := by
    intro p v _ hp
    rw [hcells.cell]
    exact hp
  new := by
    intro p hp
    rw [hslots] at hp
    exact .inl hp
  failures := hcells.failures
  shrinkFailures := hcells.shrinkFailures

end

/-! ## Growing and shrinking -/

section

variable {h : Heap Bytes} {d : MapHandleData} {l : AssocList} {f : Nat}

/-- The map with one more slot in each array. -/
def MapHandleData.grown (d : MapHandleData) (p q : Ptr) : MapHandleData :=
  { d with
    keys := some (d.firstKeys d.count ++ [p])
    values := some (d.firstValues d.count ++ [q])
    count := d.count + 1 }

theorem grown_slots (slots : List Ptr) {n : Nat} (hn : n ≤ slots.length) :
    (slots.take (n + 1) ++ List.replicate (n + 1 - slots.length) none).set n none =
      slots.take n ++ [none] := by
  rcases Nat.lt_or_eq_of_le hn with hlt | heq
  · have hno : n + 1 - slots.length = 0 := by omega
    rw [hno, List.replicate_zero, List.append_nil, List.take_succ_eq_append_getElem hlt,
      List.set_append_right n none (by rw [List.length_take]; omega)]
    have hfirst : n - (slots.take n).length = 0 := by
      rw [List.length_take]
      omega
    rw [hfirst]
    rfl
  · subst heq
    have hone : slots.length + 1 - slots.length = 1 := by omega
    rw [hone, List.take_of_length_le (Nat.le_succ _), List.take_length,
      List.set_append_right _ none (Nat.le_refl _), Nat.sub_self]
    rfl

theorem Represents.setKeys (hd : Represents h d l) {keys : List Ptr} (hne : d.count ≠ 0)
    (hkeys : keys.take d.count = d.firstKeys d.count)
    (hexact : h.shrinkFailures = 0 → keys.length = d.count) :
    Represents h { d with keys := some keys } l := by
  rw [hd.count] at hkeys
  exact {
    keys := by
      rw [← hd.keys, ← hkeys]
      rfl
    values := hd.values
    separate := by
      have hseparate := hd.separate
      rw [← hkeys] at hseparate
      exact hseparate
    distinct := hd.distinct
    noFilter := hd.noFilter
    count := hd.count
    null := by
      rintro rfl
      exact absurd hd.count hne
    exact := fun hnone => ⟨hexact hnone, (hd.exact hnone).2⟩ }

theorem undoKeys_meets (hd : Represents h d l) (hfailed : f < h.failures) :
    Meets (do
      if d.count = 0 then pure (failure, { d with keys := none })
      else do
        let undoneKeys ← reallocArray (some (d.firstKeys d.count ++ [none])) d.count
        if undoneKeys = none then
          pure (failure, { d with keys := some (d.firstKeys d.count ++ [none]) })
        else pure (failure, { d with keys := undoneKeys })) h fun r h' =>
      Untouched h h' ∧ r.1 ≠ 0 ∧ f < h'.failures ∧ Represents h' r.2 l ∧ r.2.slots = d.slots := by
  have hlength : (d.firstKeys d.count).length = d.count := by
    have hkeys := hd.keys_length
    rw [MapHandleData.firstKeys, List.length_take]
    have hcount := hd.count
    omega
  split
  case isTrue hzero =>
    apply meets_pure
    have hnil : l = [] := List.eq_nil_of_length_eq_zero (hd.count.symm.trans hzero)
    have hsame : { d with keys := none } = d := by
      rw [← (hd.null hnil).1]
    rw [hsame]
    exact ⟨Untouched.refl h, failure_ne_zero, hfailed, hd, rfl⟩
  case isFalse hne =>
    apply Meets.bind
    apply meets_reallocArray
    case hyes =>
      simp only [reduceCtorEq, ↓reduceIte, Option.getD_some, List.length_append, hlength,
        List.length_singleton, Nat.sub_self_add, List.replicate_zero, List.append_nil]
      apply meets_pure
      have hcells := untouched_allocated h
      have htake : (d.firstKeys d.count ++ [none]).take d.count = d.firstKeys d.count :=
        List.take_left' hlength
      rw [htake]
      have htwice : (d.firstKeys d.count).take d.count = d.firstKeys d.count :=
        List.take_of_length_le (Nat.le_of_eq hlength)
      refine ⟨hcells, failure_ne_zero, hfailed,
        (hd.untouched hcells).setKeys hne htwice fun _ => hlength, ?_⟩
      exact congrArg (· ++ d.firstValues d.count) htwice
    case hkept =>
      intro hlonger
      simp only [Option.getD_some, List.length_append, hlength, List.length_singleton] at hlonger
      omega
    case hshrink =>
      intro _
      simp only [↓reduceIte]
      apply meets_pure
      have hcells := untouched_shrinkRefused h
      have htake : (d.firstKeys d.count ++ [none]).take d.count = d.firstKeys d.count :=
        List.take_left' hlength
      refine ⟨hcells, failure_ne_zero, Nat.lt_succ_of_lt hfailed,
        (hd.untouched hcells).setKeys hne htake fun hnone => absurd hnone (Nat.succ_ne_zero _), ?_⟩
      exact congrArg (· ++ d.firstValues d.count) htake

theorem mapIncreaseStorageKeysValues_meets (hd : Represents h d l) :
    Meets (mapIncreaseStorageKeysValues d) h fun r h' =>
      Untouched h h' ∧ (r = (0, d.grown none none) ∨
        r.1 ≠ 0 ∧ h.failures < h'.failures ∧ Represents h' r.2 l ∧ r.2.slots = d.slots) := by
  have hkeys := hd.keys_length
  have hvalues := hd.values_length
  rw [← hd.count] at hkeys hvalues
  unfold mapIncreaseStorageKeysValues
  apply Meets.bind
  apply meets_reallocArray
  case hkept =>
    intro _
    apply meets_pure
    have hcells := untouched_refused h
    exact ⟨hcells, .inr ⟨failure_ne_zero, Nat.lt_succ_self _, hd.untouched hcells, rfl⟩⟩
  case hshrink =>
    intro _
    apply meets_pure
    have hcells := untouched_shrinkRefused h
    exact ⟨hcells, .inr ⟨failure_ne_zero, Nat.lt_succ_self _, hd.untouched hcells, rfl⟩⟩
  case hyes =>
    simp only [reduceCtorEq, ↓reduceIte]
    apply Meets.bind
    apply meets_writeAt
    case hi =>
      simp only [Option.getD_some, List.length_append, List.length_take, List.length_replicate]
      omega
    simp only [Option.getD_some, grown_slots _ hkeys]
    have hallocated := untouched_allocated h
    apply Meets.bind
    apply meets_reallocArray
    case hyes =>
      simp only [reduceCtorEq, ↓reduceIte]
      apply Meets.bind
      apply meets_writeAt
      case hi =>
        simp only [Option.getD_some, List.length_append, List.length_take, List.length_replicate]
        omega
      simp only [Option.getD_some, grown_slots _ hvalues]
      apply meets_pure
      exact ⟨hallocated.trans (untouched_allocated _), .inl rfl⟩
    case hkept =>
      intro _
      have hcells := hallocated.trans (untouched_refused _)
      apply (undoKeys_meets (hd.untouched hcells) (Nat.lt_succ_self h.failures)).mono
      rintro r h' ⟨huntouched, hresult⟩
      exact ⟨hcells.trans huntouched, .inr hresult⟩
    case hshrink =>
      intro _
      have hcells := hallocated.trans (untouched_shrinkRefused _)
      apply (undoKeys_meets (hd.untouched hcells) (Nat.lt_succ_self h.failures)).mono
      rintro r h' ⟨huntouched, hresult⟩
      exact ⟨hcells.trans huntouched, .inr hresult⟩

theorem shrink_meets {array : Option (List Ptr)} {n : Nat} (hn : n ≤ (array.getD []).length)
    {Q : Option (List Ptr) → Heap Bytes → Prop}
    (hQ : ∀ undone h', Untouched h h' →
      ((if undone = none then array else undone).getD []).take n = (array.getD []).take n →
      (h'.shrinkFailures = 0 →
        ((if undone = none then array else undone).getD []).length = n) → Q undone h') :
    Meets (reallocArray array n) h Q := by
  apply meets_reallocArray
  case hyes =>
    have hno : n - (array.getD []).length = 0 := by omega
    rw [hno, List.replicate_zero, List.append_nil]
    apply hQ _ _ (untouched_allocated h)
    · simp only [reduceCtorEq, ↓reduceIte, Option.getD_some, List.take_take, Nat.min_self]
    · intro _
      simp only [reduceCtorEq, ↓reduceIte, Option.getD_some, List.length_take]
      omega
  case hkept =>
    intro hlonger
    apply hQ _ _ (untouched_refused h)
    · rfl
    · intro _
      simp only [↓reduceIte]
      omega
  case hshrink =>
    intro _
    apply hQ _ _ (untouched_shrinkRefused h)
    · rfl
    · intro hnone
      exact absurd hnone (Nat.succ_ne_zero _)

theorem mapDecreaseStorageKeysValues_meets (hd : Prefix h d l) (hcount : d.count = l.length + 1) :
    Meets (mapDecreaseStorageKeysValues d) h fun d' h' =>
      Untouched h h' ∧ Represents h' d' l ∧
        d'.slots = d.firstKeys l.length ++ d.firstValues l.length := by
  unfold mapDecreaseStorageKeysValues
  split
  case isTrue hone =>
    have hnil : l = [] := List.eq_nil_of_length_eq_zero (by omega)
    subst hnil
    apply meets_pure
    refine ⟨Untouched.refl h, ?_, rfl⟩
    exact {
      keys := rfl
      values := rfl
      separate := List.nodup_nil
      distinct := hd.distinct
      noFilter := rfl
      count := rfl
      null := fun _ => ⟨rfl, rfl⟩
      exact := fun _ => ⟨rfl, rfl⟩ }
  case isFalse hmore =>
    have hpred : d.count - 1 = l.length := by omega
    rw [hpred]
    apply Meets.bind
    apply shrink_meets hd.keys_length
    intro undoneKeys h₁ hcells₁ hkeys hexactKeys
    apply Meets.bind
    apply shrink_meets hd.values_length
    intro undoneValues h₂ hcells₂ hvalues hexactValues
    apply meets_pure
    have hcells := hcells₁.trans hcells₂
    refine ⟨hcells, ?_, ?_⟩
    case refine_1 =>
      have hprefix := hd.of_kept fun p _ => congrFun hcells.cell p
      exact {
        keys := by
          rw [← hprefix.keys]
          exact congrArg (List.map h₂.cell) hkeys
        values := by
          rw [← hprefix.values]
          exact congrArg (List.map h₂.cell) hvalues
        separate := by
          have hseparate := hd.separate
          unfold MapHandleData.firstKeys MapHandleData.firstValues at hseparate ⊢
          rw [← hkeys, ← hvalues] at hseparate
          exact hseparate
        distinct := hd.distinct
        noFilter := hd.noFilter
        count := rfl
        null := by
          rintro rfl
          exact absurd hcount hmore
        exact := by
          intro hnone
          have hshrink := hcells₂.shrinkFailures
          exact ⟨hexactKeys (by omega), hexactValues hnone⟩ }
    case refine_2 =>
      exact congrArg₂ (· ++ ·) hkeys hvalues

end

/-! ## Searching -/

section

variable {h : Heap Bytes} {d : MapHandleData} {l : AssocList} {array : Option (List Ptr)}

/-- The first of the slots from `i` on. -/
theorem slot_of_drop {i n : Nat} {text : Bytes} {texts : List Bytes}
    (hslots : (((array.getD []).drop i).take (n + 1)).map h.cell = (text :: texts).map some) :
    ∃ p, (array.getD [])[i]? = some p ∧ h.cell p = some text ∧
      (((array.getD []).drop (i + 1)).take n).map h.cell = texts.map some := by
  cases hdrop : (array.getD []).drop i with
  | nil =>
    rw [hdrop] at hslots
    cases hslots
  | cons p rest =>
    rw [hdrop, List.take_succ_cons, List.map_cons, List.map_cons] at hslots
    have hsplit := List.cons.inj hslots
    have hp : (array.getD [])[i]? = some p := by
      rw [← List.head?_drop, hdrop]
      rfl
    have hrest : (array.getD []).drop (i + 1) = rest := by
      rw [← List.tail_drop, hdrop]
      rfl
    rw [hrest]
    exact ⟨p, hp, hsplit.1, hsplit.2⟩

theorem findString_meets {texts : List Bytes} {text : Bytes} {i : Nat}
    (hslots : (((array.getD []).drop i).take texts.length).map h.cell = texts.map some)
    {Q : Option Nat → Heap Bytes → Prop}
    (hQ : Q ((texts.findIdx? (· = text)).map (· + i)) h) :
    Meets (findString array text i texts.length) h Q := by
  induction texts generalizing i with
  | nil => exact meets_pure hQ
  | cons t texts ih =>
    obtain ⟨p, hp, hcell, hrest⟩ := slot_of_drop hslots
    apply Meets.bind
    apply meets_readAt hp
    apply Meets.bind
    apply meets_read hcell
    split
    case isTrue heq =>
      apply meets_pure
      rw [List.findIdx?_cons, if_pos (by simpa using heq)] at hQ
      simpa using hQ
    case isFalse hne =>
      apply ih hrest
      rw [List.findIdx?_cons, if_neg (by simpa using hne), Option.map_map] at hQ
      have hshift : (fun j => j + i) ∘ (fun j => j + 1) = fun j => j + (i + 1) := by
        funext j
        simp only [Function.comp_apply]
        omega
      rw [hshift] at hQ
      exact hQ

theorem Represents.keySlots (hd : Represents h d l) :
    (((d.keys.getD []).drop 0).take l.keys.length).map h.cell = l.keys.map some := by
  have hkeys := hd.keys
  simp only [AssocList.keys, List.length_map, List.map_map, List.drop_zero]
  exact hkeys

theorem Represents.valueSlots (hd : Represents h d l) :
    (((d.values.getD []).drop 0).take l.values.length).map h.cell = l.values.map some := by
  have hvalues := hd.values
  simp only [AssocList.values, List.length_map, List.map_map, List.drop_zero]
  exact hvalues

theorem Represents.nil_of_keys (hd : Represents h d l) (hnone : d.keys = none) : l = [] := by
  have hlen := hd.keys_length
  rw [hnone] at hlen
  exact List.eq_nil_of_length_eq_zero (Nat.le_zero.mp hlen)

theorem Represents.nil_of_values (hd : Represents h d l) (hnone : d.values = none) : l = [] := by
  have hlen := hd.values_length
  rw [hnone] at hlen
  exact List.eq_nil_of_length_eq_zero (Nat.le_zero.mp hlen)

theorem findKey_meets (hd : Represents h d l) {key : Bytes} {Q : Option Nat → Heap Bytes → Prop}
    (hQ : Q (l.keys.findIdx? (· = key)) h) : Meets (findKey d key) h Q := by
  unfold findKey
  split
  case isTrue hnone =>
    rw [hd.nil_of_keys hnone] at hQ
    exact meets_pure hQ
  case isFalse hsome =>
    have hlength : d.count = l.keys.length := by
      rw [hd.count, AssocList.keys, List.length_map]
    rw [hlength]
    apply findString_meets hd.keySlots
    simpa using hQ

/-- The key is found at its index, or it is not in the map. -/
theorem findKey_cases (hd : Represents h d l) {key : Bytes} {Q : Option Nat → Heap Bytes → Prop}
    (hfound : ∀ index, key ∈ l.keys → l.keys[index]? = some key → Q (some index) h)
    (hmissing : key ∉ l.keys → Q none h) : Meets (findKey d key) h Q := by
  apply findKey_meets hd
  have hmem := findIdx?_isSome_eq_mem l.keys key
  cases hindex : l.keys.findIdx? (· = key) with
  | some index =>
    rw [hindex, Option.isSome_some] at hmem
    exact hfound index (of_decide_eq_true hmem.symm) (getElem?_of_findIdx? hindex)
  | none =>
    rw [hindex, Option.isSome_none] at hmem
    exact hmissing (of_decide_eq_false hmem.symm)

theorem findValue_meets (hd : Represents h d l) {value : Bytes}
    {Q : Option Nat → Heap Bytes → Prop} (hQ : Q (l.values.findIdx? (· = value)) h) :
    Meets (findValue d value) h Q := by
  unfold findValue
  split
  case isTrue hnone =>
    rw [hd.nil_of_values hnone] at hQ
    exact meets_pure hQ
  case isFalse hsome =>
    have hlength : d.count = l.values.length := by
      rw [hd.count, AssocList.values, List.length_map]
    rw [hlength]
    apply findString_meets hd.valueSlots
    simpa using hQ

end

/-! ## Insertion -/

section

variable {h h' : Heap Bytes} {d d' : MapHandleData} {l : AssocList} {key value : Bytes} {p q : Ptr}

theorem Represents.firstKeys_length (hd : Represents h d l) :
    (d.firstKeys d.count).length = d.count := by
  have hkeys := hd.keys_length
  have hcount := hd.count
  rw [MapHandleData.firstKeys, List.length_take]
  omega

theorem Represents.firstValues_length (hd : Represents h d l) :
    (d.firstValues d.count).length = d.count := by
  have hvalues := hd.values_length
  have hcount := hd.count
  rw [MapHandleData.firstValues, List.length_take]
  omega

theorem Represents.grown_firstKeys (hd : Represents h d l) :
    (d.grown p q).firstKeys l.length = d.firstKeys l.length := by
  rw [← hd.count]
  exact List.take_left' hd.firstKeys_length

theorem Represents.grown_firstValues (hd : Represents h d l) :
    (d.grown p q).firstValues l.length = d.firstValues l.length := by
  rw [← hd.count]
  exact List.take_left' hd.firstValues_length

theorem Represents.grown_first (hd : Represents h d l) (p q : Ptr) :
    Prefix h (d.grown p q) l where
  keys := by
    rw [hd.grown_firstKeys]
    exact hd.keys
  values := by
    rw [hd.grown_firstValues]
    exact hd.values
  separate := by
    rw [hd.grown_firstKeys, hd.grown_firstValues]
    exact hd.separate
  distinct := hd.distinct
  noFilter := hd.noFilter

theorem Represents.grown_allKeys (hd : Represents h d l) :
    (d.grown p q).firstKeys (d.count + 1) = d.firstKeys d.count ++ [p] := by
  apply List.take_of_length_le
  simp only [MapHandleData.grown, Option.getD_some, List.length_append, hd.firstKeys_length,
    List.length_singleton]
  exact Nat.le_refl _

theorem Represents.grown_allValues (hd : Represents h d l) :
    (d.grown p q).firstValues (d.count + 1) = d.firstValues d.count ++ [q] := by
  apply List.take_of_length_le
  simp only [MapHandleData.grown, Option.getD_some, List.length_append, hd.firstValues_length,
    List.length_singleton]
  exact Nat.le_refl _

theorem Represents.grown_slots (hd : Represents h d l) (p q : Ptr) :
    (d.grown p q).slots = d.firstKeys d.count ++ [p] ++ (d.firstValues d.count ++ [q]) := by
  rw [← hd.grown_allKeys (p := p) (q := q), ← hd.grown_allValues (p := p) (q := q)]
  rfl

theorem mem_grown_slots (hd : Represents h d l) {r : Ptr} (hr : r ∈ (d.grown p q).slots) :
    r ∈ d.slots ∨ r = p ∨ r = q := by
  rw [hd.grown_slots] at hr
  simp only [List.mem_append, List.mem_singleton] at hr
  unfold MapHandleData.slots
  rw [List.mem_append]
  grind

/-- What was in use is as it was. -/
def Grows (h h' : Heap Bytes) : Prop :=
  ∀ p v, h.cell p = some v → h'.cell p = some v

theorem Represents.grows (hd : Represents h d l) (hgrows : Grows h h')
    (hshrink : h.shrinkFailures ≤ h'.shrinkFailures) : Represents h' d l := by
  refine hd.of_kept ?_ hshrink
  intro p hp
  obtain ⟨text, htext⟩ := hd.live hp
  rw [htext, hgrows p text htext]

theorem Represents.insert (hd : Represents h d l) (hkey : key ∉ l.keys)
    (hgrows : Grows h h') (hp : h.cell p = none) (hq : h.cell q = none) (hpq : p ≠ q)
    (hp' : h'.cell p = some key) (hq' : h'.cell q = some value) :
    Represents h' (d.grown p q) (l.insert key value) := by
  have hkeysLength := hd.firstKeys_length
  have hvaluesLength := hd.firstValues_length
  have hlength : (l.insert key value).length = d.count + 1 := by
    rw [AssocList.insert, List.length_append, hd.count]
    rfl
  have hold : Prefix h' d l := hd.toPrefix.of_kept fun r hr => by
    obtain ⟨text, htext⟩ := hd.toPrefix.live hr
    rw [htext, hgrows r text htext]
  have hdead : ∀ r, h.cell r = none → r ∉ d.slots := by
    intro r hr hmem
    obtain ⟨text, htext⟩ := hd.live hmem
    rw [hr] at htext
    cases htext
  exact {
    keys := by
      have hkeys := hold.keys
      rw [← hd.count] at hkeys
      rw [hlength, hd.grown_allKeys, List.map_append, hkeys, AssocList.insert, List.map_append]
      simp only [List.map_cons, List.map_nil, hp']
    values := by
      have hvalues := hold.values
      rw [← hd.count] at hvalues
      rw [hlength, hd.grown_allValues, List.map_append, hvalues, AssocList.insert, List.map_append]
      simp only [List.map_cons, List.map_nil, hq']
    separate := by
      rw [hlength, hd.grown_allKeys, hd.grown_allValues]
      have hseparate := hd.separate
      rw [← hd.count] at hseparate
      have hpnot := hdead p hp
      have hqnot := hdead q hq
      unfold MapHandleData.slots at hpnot hqnot
      rw [List.mem_append] at hpnot hqnot
      simp only [List.nodup_append, List.mem_append, List.mem_singleton] at hseparate ⊢
      grind
    distinct := AssocList.nodup_insert hd.distinct hkey value
    noFilter := hd.noFilter
    count := hlength.symm
    null := by
      intro hnil
      rw [hnil] at hlength
      cases hlength
    exact := by
      intro _
      simp only [MapHandleData.grown, Option.getD_some, List.length_append, hkeysLength,
        hvaluesLength, List.length_singleton, and_self] }

theorem Grows.trans {h'' : Heap Bytes} (hab : Grows h h') (hbc : Grows h' h'') : Grows h h'' :=
  fun p v hp => hbc p v (hab p v hp)

theorem Untouched.grows (hcells : Untouched h h') : Grows h h' := by
  intro p v hp
  rw [hcells.cell]
  exact hp

theorem grows_push (h : Heap Bytes) (text : Bytes) : Grows h (h.push text) :=
  fun _ _ hp => Heap.cell_push_of_live hp

theorem Grows.clear (hgrows : Grows h h') {a : Nat} (ha : h.cell (some a) = none) :
    Grows h (h'.clear a) := by
  intro p v hp
  rw [Heap.cell_clear, if_neg, hgrows p v hp]
  rintro rfl
  rw [ha] at hp
  cases hp

theorem Grows.changed (hgrows : Grows h h') (hnew : ∀ p ∈ d'.slots, p ∈ d.slots ∨ h.cell p = none)
    (hfailures : h.failures ≤ h'.failures) (hshrink : h.shrinkFailures ≤ h'.shrinkFailures) :
    Changed h h' d d' :=
  ⟨fun p v _ hp => hgrows p v hp, hnew, hfailures, hshrink⟩

/-- The map has the list, and an allocation has failed. -/
structure Failed (h h' : Heap Bytes) (d d' : MapHandleData) (l : AssocList) : Prop where
  failed : h.failures < h'.failures
  represents : Represents h' d' l
  changed : Changed h h' d d'

theorem dropNew_meets (hd : Represents h d l) (h₁ : Heap Bytes) (hgrows : Grows h h₁)
    (hfailed : h.failures < h₁.failures) (hshrink : h.shrinkFailures ≤ h₁.shrinkFailures) :
    Meets (mapDecreaseStorageKeysValues (d.grown p q)) h₁ fun d' h' => Failed h h' d d' l := by
  have hcount : (d.grown p q).count = l.length + 1 := congrArg (· + 1) hd.count
  apply (mapDecreaseStorageKeysValues_meets ((hd.grows hgrows hshrink).grown_first p q)
    hcount).mono
  rintro d' h' ⟨hcells, hrepresents, hslots⟩
  rw [hd.grown_firstKeys, hd.grown_firstValues, ← hd.slots_eq] at hslots
  have hfailures := hcells.failures
  have hshrinks := hcells.shrinkFailures
  refine ⟨by omega, hrepresents, ?_⟩
  apply (hgrows.trans hcells.grows).changed
  · intro r hr
    rw [hslots] at hr
    exact .inl hr
  · omega
  · omega

theorem set_last {slots : List Ptr} {n : Nat} (hlength : slots.length = n) (r : Ptr) :
    (slots ++ [none]).set (n + 1 - 1) r = slots ++ [r] := by
  subst hlength
  rw [Nat.add_sub_cancel, List.set_append_right _ r (Nat.le_refl _), Nat.sub_self]
  rfl

theorem insertNewKeyValue_meets (hd : Represents h d l) (hkey : key ∉ l.keys) :
    Meets (insertNewKeyValue d key value) h fun r h' =>
      (r.1 = 0 ∧ Represents h' r.2 (l.insert key value) ∧ Changed h h' d r.2) ∨
        (r.1 ≠ 0 ∧ Failed h h' d r.2 l) := by
  have hkeysLength := hd.firstKeys_length
  have hvaluesLength := hd.firstValues_length
  unfold insertNewKeyValue
  apply Meets.bind
  apply (mapIncreaseStorageKeysValues_meets hd).mono
  rintro ⟨result, d₁⟩ h₁ ⟨hcells₁, hincreased | ⟨hfailure, hfailed, hrepresents, hslots⟩⟩
  case inr =>
    simp only [if_pos hfailure]
    apply meets_pure
    exact .inr ⟨failure_ne_zero, hfailed, hrepresents, hcells₁.changed hslots⟩
  case inl =>
    cases hincreased
    simp only [ne_eq, not_true_eq_false, ↓reduceIte]
    have hgrows₁ := hcells₁.grows
    have hfailures₁ := hcells₁.failures
    have hshrink₁ := hcells₁.shrinkFailures
    apply Meets.bind
    apply meets_malloc
    case hno =>
      simp only [↓reduceIte]
      apply Meets.bind
      apply (dropNew_meets hd h₁.refused hgrows₁ (Nat.lt_succ_of_le hfailures₁)
        hshrink₁).mono
      intro d' h' hundone
      exact meets_pure (.inr ⟨failure_ne_zero, hundone⟩)
    case hyes =>
      have hp : h.cell h₁.allocated.fresh = none := by
        rw [← hcells₁.cell]
        exact Heap.cell_fresh
      simp only [Heap.fresh, reduceCtorEq, ↓reduceIte]
      apply Meets.bind
      apply meets_writeAt
      case hi =>
        simp only [MapHandleData.grown, Option.getD_some, List.length_append, hkeysLength,
          List.length_singleton]
        omega
      simp only [MapHandleData.grown, Option.getD_some, set_last hkeysLength]
      have hgrows₂ := hgrows₁.trans (grows_push h₁.allocated key)
      apply Meets.bind
      apply meets_malloc
      case hno =>
        simp only [↓reduceIte]
        apply Meets.bind
        apply meets_free
        case hp => exact Heap.cell_push_fresh
        apply Meets.bind
        apply (dropNew_meets hd (((h₁.allocated.push key).refused).clear h₁.allocated.cells.length)
          (hgrows₂.clear hp) (Nat.lt_succ_of_le hfailures₁) hshrink₁).mono
        intro d' h' hundone
        exact meets_pure (.inr ⟨failure_ne_zero, hundone⟩)
      case hyes =>
        have hp₂ : (h₁.allocated.push key).cell h₁.allocated.fresh = some key := Heap.cell_push_fresh
        have hq₂ : (h₁.allocated.push key).cell (h₁.allocated.push key).allocated.fresh = none :=
          Heap.cell_fresh
        have hgrows₃ := hgrows₂.trans (grows_push (h₁.allocated.push key).allocated value)
        simp only [Heap.fresh, reduceCtorEq, ↓reduceIte]
        apply Meets.bind
        apply meets_writeAt
        case hi =>
          simp only [Option.getD_some, List.length_append, hvaluesLength, List.length_singleton]
          omega
        simp only [Option.getD_some, set_last hvaluesLength]
        apply meets_pure
        have hq : h.cell (h₁.allocated.push key).allocated.fresh = none := by
          cases hcell : h.cell (h₁.allocated.push key).allocated.fresh with
          | none => rfl
          | some text =>
            have hlive := hgrows₂ _ text hcell
            rw [hq₂] at hlive
            cases hlive
        have hpq : h₁.allocated.fresh ≠ (h₁.allocated.push key).allocated.fresh := by
          intro heq
          rw [← heq, hp₂] at hq₂
          cases hq₂
        refine .inl ⟨rfl, hd.insert hkey hgrows₃ hp hq hpq ?_ Heap.cell_push_fresh, ?_⟩
        case refine_1 => exact Heap.cell_push_of_live hp₂
        case refine_2 =>
          apply hgrows₃.changed
          · intro r hr
            rcases mem_grown_slots hd hr with hr | rfl | rfl
            · exact .inl hr
            · exact .inr hp
            · exact .inr hq
          · exact hfailures₁
          · exact hshrink₁

end

/-! ## Adding, updating and deleting -/

/-- The outcome of a function that changes the map: the outcome on the list, or an error for want of
memory. -/
structure Outcome (h h' : Heap Bytes) (d : MapHandleData) (l : AssocList)
    (agreed : MapResult × AssocList) (r : MapResult × MapHandleData) (l' : AssocList) : Prop where
  represents : Represents h' r.2 l'
  changed : Changed h h' d r.2
  agrees : (r.1, l') = agreed ∨ (h.failures < h'.failures ∧ r.1 = .mapError ∧ l' = l)

section

variable {h : Heap Bytes} {d : MapHandleData} {l : AssocList}

theorem Represents.unchanged (hd : Represents h d l) {agreed : MapResult × AssocList}
    {result : MapResult} (hagreed : (result, l) = agreed) :
    Outcome h h d l agreed (result, d) l :=
  ⟨hd, (Untouched.refl h).changed rfl, .inl hagreed⟩

theorem MapHandleData.rejects_of_noFilter (hnone : d.mapFilterCallback = none) (key value : Bytes) :
    d.rejects key value = false := by
  unfold MapHandleData.rejects
  rw [hnone]

theorem insertion_meets (hd : Represents h d l) {key : Bytes} (value : Bytes)
    (hkey : key ∉ l.keys) :
    Meets (do
      let r ← insertNewKeyValue d key value
      if r.1 ≠ 0 then pure (MapResult.mapError, r.2) else pure (MapResult.mapOk, r.2)) h
      fun r h' => ∃ l', Outcome h h' d l (.mapOk, l.insert key value) r l' := by
  apply Meets.bind
  apply (insertNewKeyValue_meets hd hkey).mono
  rintro ⟨result, d'⟩ h' (⟨hok, hrepresents, hchanged⟩ | ⟨hfailure, hfailed⟩)
  · simp only at hok
    subst hok
    exact meets_pure ⟨_, hrepresents, hchanged, .inl rfl⟩
  · simp only [if_pos hfailure]
    exact meets_pure ⟨l, hfailed.represents, hfailed.changed, .inr ⟨hfailed.failed, rfl, rfl⟩⟩

theorem mapAdd_meets (hd : Represents h d l) (key value : Bytes) :
    Meets (mapAdd d (some key) (some value)) h fun r h' =>
      ∃ l', Outcome h h' d l
        (if key ∈ l.keys then (.mapKeyExists, l) else (.mapOk, l.insert key value)) r l' := by
  simp only [mapAdd]
  apply Meets.bind
  apply findKey_cases hd
  case hfound =>
    intro index hkey _
    rw [if_pos hkey]
    exact meets_pure ⟨l, hd.unchanged rfl⟩
  case hmissing =>
    intro hkey
    rw [if_neg hkey]
    simp only [ne_eq, not_true_eq_false, ↓reduceIte,
      MapHandleData.rejects_of_noFilter hd.noFilter, Bool.false_eq_true]
    exact insertion_meets hd value hkey

theorem mem_eraseIdx_of_nodup {slots : List Ptr} (hnodup : slots.Nodup) {index : Nat} {p r : Ptr}
    (hp : slots[index]? = some p) (hr : r ∈ slots.eraseIdx index) : r ∈ slots ∧ r ≠ p := by
  refine ⟨List.mem_of_mem_eraseIdx hr, ?_⟩
  rintro rfl
  obtain ⟨j, hj, hr'⟩ := List.mem_eraseIdx_iff_getElem?.mp hr
  have hlt := (List.getElem?_eq_some_iff.mp hp).1
  exact hj ((List.getElem?_inj hlt hnodup).mp (hp.trans hr'.symm)).symm

theorem map_set_of_kept {slots : List Ptr} (hnodup : slots.Nodup) {index : Nat} {p : Ptr}
    (hp : slots[index]? = some p) {f f' : Ptr → Option Bytes}
    (hkept : ∀ r ∈ slots, r ≠ p → f' r = f r) (x : Option Bytes) :
    (slots.map f').set index x = (slots.map f).set index x := by
  apply List.ext_getElem?
  intro j
  rw [List.getElem?_set, List.getElem?_set, List.length_map, List.length_map]
  split
  case isTrue heq => rfl
  case isFalse hne =>
    rw [List.getElem?_map, List.getElem?_map]
    cases hr : slots[j]? with
    | none => rfl
    | some r =>
      have hrp : r ≠ p := by
        rintro rfl
        have hlt := (List.getElem?_eq_some_iff.mp hp).1
        exact hne ((List.getElem?_inj hlt hnodup).mp (hp.trans hr.symm))
      simp only [Option.map_some, hkept r (List.mem_of_getElem? hr) hrp]

theorem Represents.slot (hd : Represents h d l) {index : Nat} {key : Bytes}
    (hindex : l.keys[index]? = some key) :
    index < l.length ∧ ∃ k v, (d.firstKeys l.length)[index]? = some k ∧
      (d.firstValues l.length)[index]? = some v ∧ (d.keys.getD [])[index]? = some k ∧
      (d.values.getD [])[index]? = some v := by
  have hlt : index < l.length := by
    have hlt := (List.getElem?_eq_some_iff.mp hindex).1
    rwa [AssocList.keys, List.length_map] at hlt
  have hkeys := hd.keys_length
  have hvalues := hd.values_length
  have hk := List.getElem?_eq_getElem (l := d.keys.getD []) (show index < _ by omega)
  have hv := List.getElem?_eq_getElem (l := d.values.getD []) (show index < _ by omega)
  refine ⟨hlt, _, _, ?_, ?_, hk, hv⟩
  · rw [MapHandleData.firstKeys, List.getElem?_take_of_lt hlt, hk]
  · rw [MapHandleData.firstValues, List.getElem?_take_of_lt hlt, hv]

theorem address_of_cell {p : Ptr} {text : Bytes} (hcell : h.cell p = some text) :
    ∃ a, p = some a := by
  cases p with
  | none => cases hcell
  | some a => exact ⟨a, rfl⟩

theorem notMem_of_dead (hd : Represents h d l) {p : Ptr} (hp : h.cell p = none) : p ∉ d.slots := by
  intro hmem
  obtain ⟨text, htext⟩ := hd.live hmem
  rw [hp] at htext
  cases htext

theorem Represents.update (hd : Represents h d l) {index a : Nat} {key : Bytes} (value : Bytes)
    (hindex : l.keys[index]? = some key)
    (ha : (d.firstValues l.length)[index]? = some (some a)) :
    Represents ((h.allocated.clear a).push value)
      { d with values := some ((d.values.getD []).set index h.fresh) } (l.update key value) := by
  obtain ⟨hlt, k, v, hk, hv, hk', hv'⟩ := hd.slot hindex
  have hseparate := List.nodup_append.mp hd.separate
  have hmemValue := List.mem_of_getElem? ha
  have hlength : (l.update key value).length = l.length := List.length_map ..
  -- The cells of the other slots.
  have hkept : ∀ r ∈ d.firstKeys l.length ++ d.firstValues l.length, r ≠ some a →
      ((h.allocated.clear a).push value).cell r = h.cell r := by
    intro r hr hne
    obtain ⟨text, htext⟩ := hd.toPrefix.live hr
    rw [htext]
    exact Heap.cell_moved_of_live hne htext
  have hfirst : (MapHandleData.firstValues
      { d with values := some ((d.values.getD []).set index h.fresh) } l.length) =
      (d.firstValues l.length).set index h.fresh := List.take_set
  have hfresh : h.fresh ∉ d.slots := notMem_of_dead hd Heap.cell_fresh
  rw [hd.slots_eq, List.mem_append, not_or] at hfresh
  exact {
    keys := by
      have hsame : (l.update key value).map (fun e => some e.1) = l.map fun e => some e.1 := by
        have hkeys := congrArg (List.map some) (AssocList.keys_update l key value)
        rw [AssocList.keys, AssocList.keys, List.map_map, List.map_map] at hkeys
        exact hkeys
      rw [hlength, hsame, ← hd.keys]
      apply List.map_congr_left
      intro r hr
      apply hkept r (List.mem_append_left _ hr)
      rintro rfl
      exact hseparate.2.2 _ hr _ hmemValue rfl
    values := by
      rw [hlength, hfirst, List.map_set, Heap.cell_moved_fresh,
        map_set_of_kept hseparate.2.1 ha
          (fun r hr => hkept r (List.mem_append_right _ hr)) (some value),
        hd.values, AssocList.update_eq_set hd.distinct hindex, List.map_set]
    separate := by
      rw [hlength, hfirst, List.nodup_append]
      refine ⟨hseparate.1, List.Nodup.set hseparate.2.1 hfresh.2, ?_⟩
      intro r hr r' hr' heq
      subst heq
      rcases List.mem_or_eq_of_mem_set hr' with hmem | rfl
      · exact hseparate.2.2 r hr r hmem rfl
      · exact hfresh.1 hr
    distinct := by
      rw [AssocList.keys_update]
      exact hd.distinct
    noFilter := hd.noFilter
    count := hd.count.trans hlength.symm
    null := by
      intro hnil
      rw [hnil] at hlength
      rw [← hlength] at hlt
      cases hlt
    exact := by
      intro hnone
      simp only [Option.getD_some, List.length_set]
      exact hd.exact hnone }

theorem mapAddOrUpdate_update_meets (hd : Represents h d l) {index : Nat} {key : Bytes}
    (value : Bytes) (hindex : l.keys[index]? = some key) :
    Meets (do
      let p ← readAt d.values index
      let newValue ← realloc p value
      if newValue = none then pure (MapResult.mapError, d)
      else do
        let values ← writeAt d.values index newValue
        pure (MapResult.mapOk, { d with values := values })) h
      fun r h' => ∃ l', Outcome h h' d l (.mapOk, l.update key value) r l' := by
  obtain ⟨hlt, k, v, -, hv, -, hv'⟩ := hd.slot hindex
  have hmem : v ∈ d.slots := by
    rw [hd.slots_eq]
    exact List.mem_append_right _ (List.mem_of_getElem? hv)
  obtain ⟨text, htext⟩ := hd.live hmem
  obtain ⟨a, rfl⟩ := address_of_cell htext
  apply Meets.bind
  apply meets_readAt hv'
  apply Meets.bind
  apply meets_realloc htext
  case hno =>
    simp only [↓reduceIte]
    apply meets_pure
    have hcells := untouched_refused h
    exact ⟨l, hd.untouched hcells, hcells.changed rfl, .inr ⟨Nat.lt_succ_self _, rfl, rfl⟩⟩
  case hyes =>
    simp only [Heap.fresh, reduceCtorEq, ↓reduceIte]
    apply Meets.bind
    apply meets_writeAt
    case hi =>
      have hvalues := hd.values_length
      omega
    apply meets_pure
    have hupdated := hd.update value hindex hv
    refine ⟨_, hupdated, ?_, .inl rfl⟩
    exact {
      kept := by
        intro r t hr hcell
        apply Heap.cell_moved_of_live _ hcell
        rintro rfl
        exact hr hmem
      new := by
        intro r hr
        simp only [MapHandleData.slots, MapHandleData.firstValues, Option.getD_some, List.take_set,
          List.mem_append] at hr
        unfold MapHandleData.slots
        rw [List.mem_append]
        rcases hr with hr | hr
        · exact .inl (.inl hr)
        · rcases List.mem_or_eq_of_mem_set hr with hr | rfl
          · exact .inl (.inr hr)
          · exact .inr Heap.cell_fresh
      failures := Nat.le_refl _
      shrinkFailures := Nat.le_refl _ }

theorem mapAddOrUpdate_meets (hd : Represents h d l) (key value : Bytes) :
    Meets (mapAddOrUpdate d (some key) (some value)) h fun r h' =>
      ∃ l', Outcome h h' d l
        (if key ∈ l.keys then (.mapOk, l.update key value) else (.mapOk, l.insert key value)) r
        l' := by
  simp only [mapAddOrUpdate, MapHandleData.rejects_of_noFilter hd.noFilter, Bool.false_eq_true,
    ↓reduceIte]
  apply Meets.bind
  apply findKey_cases hd
  case hfound =>
    intro index hkey hindex
    rw [if_pos hkey]
    exact mapAddOrUpdate_update_meets hd value hindex
  case hmissing =>
    intro hkey
    rw [if_neg hkey]
    exact insertion_meets hd value hkey

theorem moved_take (slots : List Ptr) {i n : Nat} (hi : i < n) (hn : n ≤ slots.length) :
    (slots.take i ++ (slots.drop (i + 1)).take (n - i - 1) ++ slots.drop (i + (n - i - 1))).take
      (n - 1) = (slots.take n).eraseIdx i := by
  have hlength : (slots.take i ++ (slots.drop (i + 1)).take (n - i - 1)).length = n - 1 := by
    simp only [List.length_append, List.length_take, List.length_drop]
    omega
  have hfirst : (slots.take n).take i = slots.take i := by
    rw [List.take_take, Nat.min_eq_left (Nat.le_of_lt hi)]
  have hrest : (slots.take n).drop (i + 1) = (slots.drop (i + 1)).take (n - i - 1) := by
    rw [List.drop_take, Nat.sub_sub]
  rw [List.take_left' hlength, List.eraseIdx_eq_take_drop_succ, hfirst, hrest]

/-- The map without the pair number `index`, before the arrays are made smaller. -/
theorem Represents.erase (hd : Represents h d l) {index a b : Nat} {key : Bytes}
    (hindex : l.keys[index]? = some key) (ha : (d.firstKeys l.length)[index]? = some (some a))
    (hb : (d.firstValues l.length)[index]? = some (some b)) (d₁ : MapHandleData)
    (hkeys : d₁.firstKeys (l.length - 1) = (d.firstKeys l.length).eraseIdx index)
    (hvalues : d₁.firstValues (l.length - 1) = (d.firstValues l.length).eraseIdx index)
    (hfilter : d₁.mapFilterCallback = d.mapFilterCallback) :
    Prefix ((h.clear a).clear b) d₁ (l.delete key) := by
  obtain ⟨hlt, -⟩ := hd.slot hindex
  have hdelete := AssocList.delete_eq_eraseIdx hd.distinct hindex
  have hlength : (l.delete key).length = l.length - 1 := by
    rw [hdelete, List.length_eraseIdx_of_lt hlt]
  have hseparate := List.nodup_append.mp hd.separate
  have hcell : ∀ r, r ≠ some a → r ≠ some b → ((h.clear a).clear b).cell r = h.cell r := by
    intro r hra hrb
    rw [Heap.cell_clear, if_neg hrb, Heap.cell_clear, if_neg hra]
  exact {
    keys := by
      have hold := List.eraseIdx_map h.cell (d.firstKeys l.length) index
      rw [hd.keys, List.eraseIdx_map] at hold
      rw [hlength, hkeys, hdelete, hold]
      apply List.map_congr_left
      intro r hr
      obtain ⟨hmem, hne⟩ := mem_eraseIdx_of_nodup hseparate.1 ha hr
      apply hcell r hne
      rintro rfl
      exact hseparate.2.2 _ hmem _ (List.mem_of_getElem? hb) rfl
    values := by
      have hold := List.eraseIdx_map h.cell (d.firstValues l.length) index
      rw [hd.values, List.eraseIdx_map] at hold
      rw [hlength, hvalues, hdelete, hold]
      apply List.map_congr_left
      intro r hr
      obtain ⟨hmem, hne⟩ := mem_eraseIdx_of_nodup hseparate.2.1 hb hr
      apply hcell r _ hne
      rintro rfl
      exact hseparate.2.2 _ (List.mem_of_getElem? ha) _ hmem rfl
    separate := by
      rw [hlength, hkeys, hvalues]
      exact hd.separate.sublist
        ((List.eraseIdx_sublist _ _).append (List.eraseIdx_sublist _ _))
    distinct := AssocList.nodup_delete hd.distinct key
    noFilter := hfilter.trans hd.noFilter }

theorem mapDelete_found_meets (hd : Represents h d l) {index : Nat} {key : Bytes}
    (hindex : l.keys[index]? = some key) :
    Meets (do
      let k ← readAt d.keys index
      free k
      let v ← readAt d.values index
      free v
      let keys ← moveDown d.keys index (d.count - index - 1)
      let values ← moveDown d.values index (d.count - index - 1)
      let d' ← mapDecreaseStorageKeysValues { d with keys := keys, values := values }
      pure (MapResult.mapOk, d')) h
      fun r h' => ∃ l', Outcome h h' d l (.mapOk, l.delete key) r l' ∧ r.1 ≠ .mapError := by
  obtain ⟨hlt, k, v, hk, hv, hk', hv'⟩ := hd.slot hindex
  have hkeysLength := hd.keys_length
  have hvaluesLength := hd.values_length
  have hmemKey := List.mem_of_getElem? hk
  have hmemValue := List.mem_of_getElem? hv
  have hkslot : k ∈ d.slots := by
    rw [hd.slots_eq]
    exact List.mem_append_left _ hmemKey
  have hvslot : v ∈ d.slots := by
    rw [hd.slots_eq]
    exact List.mem_append_right _ hmemValue
  have hne : v ≠ k := (List.nodup_append.mp hd.separate).2.2 _ hmemKey _ hmemValue |>.symm
  obtain ⟨keyText, hkeyText⟩ := hd.live hkslot
  obtain ⟨valueText, hvalueText⟩ := hd.live hvslot
  obtain ⟨a, rfl⟩ := address_of_cell hkeyText
  obtain ⟨b, rfl⟩ := address_of_cell hvalueText
  have hvalueText' : (h.clear a).cell (some b) = some valueText := by
    rw [Heap.cell_clear, if_neg hne]
    exact hvalueText
  apply Meets.bind
  apply meets_readAt hk'
  apply Meets.bind
  apply meets_free hkeyText
  apply Meets.bind
  apply meets_readAt hv'
  apply Meets.bind
  apply meets_free hvalueText'
  rw [hd.count]
  apply Meets.bind
  apply meets_moveDown (by omega)
  apply Meets.bind
  apply meets_moveDown (by omega)
  have hprefix := hd.erase hindex hk hv
    { d with
      keys := some ((d.keys.getD []).take index ++
        ((d.keys.getD []).drop (index + 1)).take (l.length - index - 1) ++
        (d.keys.getD []).drop (index + (l.length - index - 1)))
      values := some ((d.values.getD []).take index ++
        ((d.values.getD []).drop (index + 1)).take (l.length - index - 1) ++
        (d.values.getD []).drop (index + (l.length - index - 1)))
      count := l.length }
    (moved_take _ hlt hkeysLength) (moved_take _ hlt hvaluesLength) rfl
  have hlength : (l.delete key).length = l.length - 1 := by
    rw [AssocList.delete_eq_eraseIdx hd.distinct hindex, List.length_eraseIdx_of_lt hlt]
  apply Meets.bind
  apply (mapDecreaseStorageKeysValues_meets hprefix (by
    rw [hlength]
    exact (Nat.sub_add_cancel (Nat.lt_of_le_of_lt (Nat.zero_le index) hlt)).symm)).mono
  rintro d' h' ⟨hcells, hrepresents, hslots⟩
  apply meets_pure
  refine ⟨_, ⟨hrepresents, ?_, .inl rfl⟩, nofun⟩
  exact {
    kept := by
      intro r t hr hcell
      rw [hcells.cell, Heap.cell_clear, if_neg, Heap.cell_clear, if_neg, hcell]
      · rintro rfl
        exact hr hkslot
      · rintro rfl
        exact hr hvslot
    new := by
      intro r hr
      rw [hslots, hlength] at hr
      left
      rw [hd.slots_eq, List.mem_append]
      rcases List.mem_append.mp hr with hr | hr
      · rw [MapHandleData.firstKeys, Option.getD_some, moved_take _ hlt hkeysLength] at hr
        exact .inl (List.mem_of_mem_eraseIdx hr)
      · rw [MapHandleData.firstValues, Option.getD_some, moved_take _ hlt hvaluesLength] at hr
        exact .inr (List.mem_of_mem_eraseIdx hr)
    failures := hcells.failures
    shrinkFailures := hcells.shrinkFailures }

theorem mapDelete_meets (hd : Represents h d l) (key : Bytes) :
    Meets (mapDelete d (some key)) h fun r h' =>
      ∃ l', Outcome h h' d l
        (if key ∈ l.keys then (.mapOk, l.delete key) else (.mapKeyNotFound, l)) r l' ∧
          r.1 ≠ .mapError := by
  simp only [mapDelete]
  apply Meets.bind
  apply findKey_cases hd
  case hfound =>
    intro index hkey hindex
    rw [if_pos hkey]
    exact mapDelete_found_meets hd hindex
  case hmissing =>
    intro hkey
    rw [if_neg hkey]
    exact meets_pure ⟨l, hd.unchanged rfl, nofun⟩

end

/-! ## Cloning -/

section

variable {h₀ h h' : Heap Bytes} {d : MapHandleData} {l : AssocList}

theorem map_cell_grows {slots : List Ptr} {texts : List Bytes} (hgrows : Grows h h')
    (hslots : slots.map h.cell = texts.map some) : slots.map h'.cell = texts.map some := by
  rw [← hslots]
  apply List.map_congr_left
  intro p hp
  have hcell := List.mem_map_of_mem (f := h.cell) hp
  rw [hslots] at hcell
  obtain ⟨text, -, htext⟩ := List.mem_map.mp hcell
  rw [hgrows p text htext.symm, htext]

/-- The slots point to copies of the strings, in cells that were not in use in `h₀`. -/
structure Copies (h₀ h : Heap Bytes) (slots : List Ptr) (texts : List Bytes) : Prop where
  cells : slots.map h.cell = texts.map some
  nodup : slots.Nodup
  new : ∀ p ∈ slots, h₀.cell p = none

theorem Copies.live {slots : List Ptr} {texts : List Bytes} (hcopies : Copies h₀ h slots texts)
    {p : Ptr} (hp : p ∈ slots) : ∃ text, h.cell p = some text := by
  have hcell := List.mem_map_of_mem (f := h.cell) hp
  rw [hcopies.cells] at hcell
  obtain ⟨text, -, htext⟩ := List.mem_map.mp hcell
  exact ⟨text, htext.symm⟩

theorem Copies.grows {slots : List Ptr} {texts : List Bytes} (hcopies : Copies h₀ h slots texts)
    (hgrows : Grows h h') : Copies h₀ h' slots texts :=
  ⟨map_cell_grows hgrows hcopies.cells, hcopies.nodup, hcopies.new⟩

theorem Copies.push {slots : List Ptr} {texts : List Bytes} (hcopies : Copies h₀ h slots texts)
    (hgrows : Grows h₀ h) (text : Bytes) :
    Copies h₀ (h.push text) (slots ++ [h.fresh]) (texts ++ [text]) where
  cells := by
    rw [List.map_append, List.map_append, map_cell_grows (grows_push h text) hcopies.cells]
    simp only [List.map_cons, List.map_nil, Heap.cell_push_fresh]
  nodup := by
    rw [List.nodup_append]
    refine ⟨hcopies.nodup, List.pairwise_singleton _ _, ?_⟩
    rintro p hp q hq rfl
    rw [List.mem_singleton] at hq
    obtain ⟨t, ht⟩ := hcopies.live hp
    rw [hq, Heap.cell_fresh] at ht
    cases ht
  new := by
    intro p hp
    rcases List.mem_append.mp hp with hp | hp
    · exact hcopies.new p hp
    · rw [List.mem_singleton.mp hp]
      cases hcell : h₀.cell h.fresh with
      | none => rfl
      | some t =>
        have hlive := hgrows _ t hcell
        rw [Heap.cell_fresh] at hlive
        cases hlive

/-- The counters have only gone up. -/
structure Counted (h h' : Heap Bytes) : Prop where
  failures : h.failures ≤ h'.failures
  shrinkFailures : h.shrinkFailures ≤ h'.shrinkFailures

theorem Counted.trans {h'' : Heap Bytes} (hab : Counted h h') (hbc : Counted h' h'') :
    Counted h h'' :=
  ⟨Nat.le_trans hab.failures hbc.failures, Nat.le_trans hab.shrinkFailures hbc.shrinkFailures⟩

/-- Where the first loop of `Map_CloneVector` ends: all strings are copied, or memory has run out
before the end. -/
inductive CloneEnd (h₀ : Heap Bytes) (failures : Nat) (texts : List Bytes) :
    Nat × Option (List Ptr) → Heap Bytes → Prop
  | all {slots : List Ptr} {h : Heap Bytes} :
      Copies h₀ h slots texts → CloneEnd h₀ failures texts (texts.length, some slots) h
  | some {slots rest : List Ptr} {copied : List Bytes} {h : Heap Bytes} :
      Copies h₀ h slots copied → slots.length < texts.length → failures < h.failures →
      CloneEnd h₀ failures texts (slots.length, some (slots ++ rest)) h

theorem Copies.length {slots : List Ptr} {texts : List Bytes} (hcopies : Copies h₀ h slots texts) :
    slots.length = texts.length := by
  have hlength := congrArg List.length hcopies.cells
  rwa [List.length_map, List.length_map] at hlength

theorem cloneStrings_meets {source : Option (List Ptr)} (rest : List Bytes) {slots : List Ptr}
    {copied : List Bytes} {failures : Nat}
    (hsource : (((source.getD []).drop slots.length).take rest.length).map h.cell = rest.map some)
    (hcopies : Copies h₀ h slots copied) (hgrows : Grows h₀ h) (hfailures : failures ≤ h.failures) :
    Meets (cloneStrings source (some (slots ++ List.replicate rest.length none)) slots.length
      rest.length) h fun r h' =>
      Grows h₀ h' ∧ Counted h h' ∧ CloneEnd h₀ failures (copied ++ rest) r h' := by
  induction rest generalizing h slots copied with
  | nil =>
    apply meets_pure
    refine ⟨hgrows, ⟨Nat.le_refl _, Nat.le_refl _⟩, ?_⟩
    rw [hcopies.length]
    simp only [List.append_nil, List.length_nil, List.replicate_zero]
    exact .all hcopies
  | cons text rest ih =>
    obtain ⟨p, hp, hcell, hrest⟩ := slot_of_drop hsource
    apply Meets.bind
    apply meets_readAt hp
    apply Meets.bind
    apply meets_read hcell
    apply Meets.bind
    apply meets_malloc
    case hno =>
      simp only [↓reduceIte]
      apply meets_pure
      have hrefused := hcopies.grows (untouched_refused h).grows
      refine ⟨hgrows, ⟨Nat.le_succ _, Nat.le_refl _⟩,
        .some hrefused ?_ (Nat.lt_succ_of_le hfailures)⟩
      rw [List.length_append, hcopies.length, List.length_cons]
      omega
    case hyes =>
      simp only [Heap.fresh, reduceCtorEq, ↓reduceIte]
      apply Meets.bind
      apply meets_writeAt
      case hi =>
        simp only [Option.getD_some, List.length_append, List.length_replicate, List.length_cons]
        omega
      have hset : (slots ++ List.replicate (rest.length + 1) none).set slots.length
          h.allocated.fresh = slots ++ [h.allocated.fresh] ++ List.replicate rest.length none := by
        rw [List.set_append_right _ _ (Nat.le_refl _), Nat.sub_self, List.replicate_succ,
          List.set_cons_zero, List.append_assoc, List.singleton_append]
      have hlength : slots.length + 1 = (slots ++ [h.allocated.fresh]).length := by
        rw [List.length_append, List.length_singleton]
      have hpushed := grows_push h.allocated text
      simp only [Option.getD_some, List.length_cons]
      change Meets (cloneStrings source (some ((slots ++ List.replicate (rest.length + 1) none).set
        slots.length h.allocated.fresh)) (slots.length + 1) rest.length) _ _
      rw [hset, hlength]
      rw [hlength] at hrest
      have hallocated := hcopies.grows (untouched_allocated h).grows
      have hnext := ih (map_cell_grows hpushed hrest) (hallocated.push hgrows text)
        (hgrows.trans hpushed) hfailures
      apply hnext.mono
      rintro r h' ⟨hgrows', hcounted, hend⟩
      rw [List.append_assoc, List.singleton_append] at hend
      exact ⟨hgrows', ⟨hcounted.failures, hcounted.shrinkFailures⟩, hend⟩

theorem freeStrings_meets {array : Option (List Ptr)} (texts : List Bytes) {j : Nat}
    (hslots : (((array.getD []).drop j).take texts.length).map h.cell = texts.map some)
    (hnodup : (((array.getD []).drop j).take texts.length).Nodup)
    (hnew : ∀ p ∈ ((array.getD []).drop j).take texts.length, h₀.cell p = none)
    (hgrows : Grows h₀ h) :
    Meets (freeStrings array j texts.length) h fun _ h' => Grows h₀ h' ∧ Counted h h' := by
  induction texts generalizing h j with
  | nil => exact meets_pure ⟨hgrows, Nat.le_refl _, Nat.le_refl _⟩
  | cons text texts ih =>
    obtain ⟨p, hp, hcell, hrest⟩ := slot_of_drop hslots
    obtain ⟨a, rfl⟩ := address_of_cell hcell
    have hdrop : ((array.getD []).drop j).take (text :: texts).length =
        some a :: ((array.getD []).drop (j + 1)).take texts.length := by
      have hlt := (List.getElem?_eq_some_iff.mp hp).1
      have hfirst : (array.getD [])[j] = some a := (List.getElem?_eq_some_iff.mp hp).2
      rw [List.drop_eq_getElem_cons hlt, List.length_cons, List.take_succ_cons, hfirst]
    rw [hdrop] at hnodup hnew
    have hsplit := List.nodup_cons.mp hnodup
    have hcleared := hgrows.clear (hnew _ List.mem_cons_self)
    apply Meets.bind
    apply meets_readAt hp
    apply Meets.bind
    apply meets_free hcell
    have hkept : (((array.getD []).drop (j + 1)).take texts.length).map (h.clear a).cell =
        texts.map some := by
      rw [← hrest]
      apply List.map_congr_left
      intro q hq
      rw [Heap.cell_clear, if_neg]
      rintro rfl
      exact hsplit.1 hq
    apply (ih hkept hsplit.2 (fun q hq => hnew q (List.mem_cons_of_mem _ hq)) hcleared).mono
    rintro _ h' ⟨hgrows', hcounted⟩
    exact ⟨hgrows', hcounted.failures, hcounted.shrinkFailures⟩

theorem Copies.freeStrings_meets {slots : List Ptr} {texts : List Bytes}
    (hcopies : Copies h₀ h slots texts) (hgrows : Grows h₀ h) (rest : List Ptr) :
    Meets (freeStrings (some (slots ++ rest)) 0 slots.length) h fun _ h' =>
      Grows h₀ h' ∧ Counted h h' := by
  have hfirst : (((some (slots ++ rest)).getD []).drop 0).take texts.length = slots := by
    rw [Option.getD_some, List.drop_zero, ← hcopies.length, List.take_left' rfl]
  rw [hcopies.length]
  apply Storage.freeStrings_meets texts
  · rw [hfirst]
    exact hcopies.cells
  · rw [hfirst]
    exact hcopies.nodup
  · rw [hfirst]
    exact hcopies.new
  · exact hgrows

theorem mapCloneVector_meets {source : Option (List Ptr)} (texts : List Bytes)
    (hsource : (((source.getD []).drop 0).take texts.length).map h.cell = texts.map some) :
    Meets (mapCloneVector source texts.length) h fun r h' =>
      Grows h h' ∧ Counted h h' ∧
        (r = none ∧ h.failures < h'.failures ∨ ∃ slots, r = some slots ∧ Copies h h' slots texts) := by
  unfold mapCloneVector
  apply Meets.bind
  apply meets_mallocArray
  case hno =>
    exact meets_pure ⟨(untouched_refused h).grows, ⟨Nat.le_succ _, Nat.le_refl _⟩,
      .inl ⟨rfl, Nat.lt_succ_self _⟩⟩
  case hyes =>
    simp only [reduceCtorEq, ↓reduceIte]
    apply Meets.bind
    have hnone : Copies h h.allocated [] [] := ⟨rfl, List.nodup_nil, nofun⟩
    apply (cloneStrings_meets texts hsource hnone (untouched_allocated h).grows
      (Nat.le_refl h.failures)).mono
    rintro r h₁ ⟨hgrows, ⟨hfailures, hshrink⟩, hend⟩
    rw [List.nil_append] at hend
    cases hend with
    | @all slots _ hcopies =>
      simp only [↓reduceIte]
      exact meets_pure ⟨hgrows, ⟨hfailures, hshrink⟩, .inr ⟨slots, rfl, hcopies⟩⟩
    | @some slots rest copied _ hcopies hshort hfailed =>
      simp only [if_neg (Nat.ne_of_lt hshort)]
      apply Meets.bind
      apply (hcopies.freeStrings_meets hgrows rest).mono
      rintro _ h₂ ⟨hgrows₂, hcounted₂⟩
      exact meets_pure ⟨hgrows₂, ⟨Nat.le_trans hfailures hcounted₂.failures,
        Nat.le_trans hshrink hcounted₂.shrinkFailures⟩,
        .inl ⟨rfl, Nat.lt_of_lt_of_le hfailed hcounted₂.failures⟩⟩

/-- A new map, or none for want of memory. -/
structure CloneOutcome (h h' : Heap Bytes) (l : AssocList) (r : Option MapHandleData) : Prop where
  grows : Grows h h'
  counted : Counted h h'
  cloned : r = none ∧ h.failures < h'.failures ∨
    ∃ d', r = some d' ∧ Represents h' d' l ∧ ∀ p ∈ d'.slots, h.cell p = none

theorem represents_nil (h : Heap Bytes) : Represents h {} [] where
  keys := rfl
  values := rfl
  separate := List.nodup_nil
  distinct := List.nodup_nil
  noFilter := rfl
  count := rfl
  null := fun _ => ⟨rfl, rfl⟩
  exact := fun _ => ⟨rfl, rfl⟩

theorem Represents.clone (hd : Represents h d l) (hne : l ≠ []) {h₁ h₂ : Heap Bytes}
    {keySlots valueSlots : List Ptr} (hkeys : Copies h h₁ keySlots l.keys)
    (hgrows₁ : Grows h h₁) (hvalues : Copies h₁ h₂ valueSlots l.values) (hgrows₂ : Grows h₁ h₂) :
    Represents h₂ { d with keys := some keySlots, values := some valueSlots } l ∧
      ∀ p ∈ MapHandleData.slots { d with keys := some keySlots, values := some valueSlots },
        h.cell p = none := by
  have hkeysLength : keySlots.length = l.length := by
    rw [hkeys.length, AssocList.keys, List.length_map]
  have hvaluesLength : valueSlots.length = l.length := by
    rw [hvalues.length, AssocList.values, List.length_map]
  have hfirstKeys : MapHandleData.firstKeys
      { d with keys := some keySlots, values := some valueSlots } l.length = keySlots :=
    List.take_of_length_le (Nat.le_of_eq hkeysLength)
  have hfirstValues : MapHandleData.firstValues
      { d with keys := some keySlots, values := some valueSlots } l.length = valueSlots :=
    List.take_of_length_le (Nat.le_of_eq hvaluesLength)
  have hrepresents :
      Represents h₂ { d with keys := some keySlots, values := some valueSlots } l := {
    keys := by
      have hcells := (hkeys.grows hgrows₂).cells
      rw [AssocList.keys, List.map_map] at hcells
      rw [hfirstKeys]
      exact hcells
    values := by
      have hcells := hvalues.cells
      rw [AssocList.values, List.map_map] at hcells
      rw [hfirstValues]
      exact hcells
    separate := by
      rw [hfirstKeys, hfirstValues, List.nodup_append]
      refine ⟨hkeys.nodup, hvalues.nodup, ?_⟩
      rintro p hp q hq rfl
      obtain ⟨text, htext⟩ := hkeys.live hp
      rw [hvalues.new p hq] at htext
      cases htext
    distinct := hd.distinct
    noFilter := hd.noFilter
    count := hd.count
    null := fun hnil => absurd hnil hne
    exact := fun _ => ⟨hkeysLength.trans hd.count.symm, hvaluesLength.trans hd.count.symm⟩ }
  refine ⟨hrepresents, ?_⟩
  intro p hp
  rw [hrepresents.slots_eq, hfirstKeys, hfirstValues] at hp
  rcases List.mem_append.mp hp with hp | hp
  · exact hkeys.new p hp
  · cases hcell : h.cell p with
    | none => rfl
    | some text =>
      have hlive := hgrows₁ p text hcell
      rw [hvalues.new p hp] at hlive
      cases hlive

theorem mapClone_meets (hd : Represents h d l) :
    Meets (mapClone d) h fun r h' => CloneOutcome h h' l r := by
  have hcountKeys : d.count = l.keys.length := by
    rw [hd.count, AssocList.keys, List.length_map]
  have hcountValues : d.count = l.values.length := by
    rw [hd.count, AssocList.values, List.length_map]
  unfold mapClone
  apply Meets.bind
  apply meets_allocate
  case hno =>
    exact meets_pure ⟨(untouched_refused h).grows, ⟨Nat.le_succ _, Nat.le_refl _⟩,
      .inl ⟨rfl, Nat.lt_succ_self _⟩⟩
  case hyes =>
    have hallocated := (untouched_allocated h).grows
    simp only [Bool.true_eq_false, ↓reduceIte]
    split
    case isTrue hzero =>
      have hnil : l = [] := List.eq_nil_of_length_eq_zero (hd.count.symm.trans hzero)
      subst hnil
      exact meets_pure ⟨hallocated, ⟨Nat.le_refl _, Nat.le_refl _⟩,
        .inr ⟨_, rfl, represents_nil _, by rintro _ ⟨⟩⟩⟩
    case isFalse hmore =>
      have hne : l ≠ [] := by
        rintro rfl
        exact hmore hd.count
      have hd₁ := hd.untouched (untouched_allocated h)
      rw [hcountKeys]
      apply Meets.bind
      apply (mapCloneVector_meets l.keys hd₁.keySlots).mono
      rintro keys h₁ ⟨hgrows₁, hcounted₁, ⟨rfl, hfailed⟩ | ⟨keySlots, rfl, hkeys⟩⟩
      · simp only [↓reduceIte]
        exact meets_pure ⟨hgrows₁, ⟨hcounted₁.failures, hcounted₁.shrinkFailures⟩,
          .inl ⟨rfl, hfailed⟩⟩
      · simp only [reduceCtorEq, ↓reduceIte]
        have hd₂ := hd.grows hgrows₁ hcounted₁.shrinkFailures
        rw [← hcountKeys, hcountValues]
        apply Meets.bind
        apply (mapCloneVector_meets l.values hd₂.valueSlots).mono
        rintro values h₂ ⟨hgrows₂, hcounted₂, ⟨rfl, hfailed⟩ | ⟨valueSlots, rfl, hvalues⟩⟩
        · simp only [↓reduceIte]
          apply Meets.bind
          have hlength : l.values.length = keySlots.length := by
            rw [← hcountValues, hcountKeys, hkeys.length]
          have hall := (hkeys.grows hgrows₂).freeStrings_meets (hgrows₁.trans hgrows₂) []
          rw [List.append_nil, ← hlength] at hall
          apply hall.mono
          rintro _ h₃ ⟨hgrows₃, hcounted₃⟩
          have hcounted := (hcounted₁.trans hcounted₂).trans hcounted₃
          exact meets_pure ⟨hgrows₃, ⟨hcounted.failures, hcounted.shrinkFailures⟩, .inl ⟨rfl,
            Nat.lt_of_lt_of_le (Nat.lt_of_le_of_lt hcounted₁.failures hfailed)
              hcounted₃.failures⟩⟩
        · simp only [reduceCtorEq, ↓reduceIte]
          have hcounted := hcounted₁.trans hcounted₂
          have hclone := hd₁.clone hne hkeys hgrows₁ hvalues hgrows₂
          rw [← hcountValues]
          exact meets_pure ⟨hgrows₁.trans hgrows₂, ⟨hcounted.failures, hcounted.shrinkFailures⟩,
            .inr ⟨_, rfl, hclone.1, hclone.2⟩⟩

end

/-! ## Reading -/

section

variable {h : Heap Bytes} {d : MapHandleData} {l : AssocList}

theorem readStrings_meets {array : Option (List Ptr)} {texts : List Bytes} {i : Nat}
    (hslots : (((array.getD []).drop i).take texts.length).map h.cell = texts.map some)
    {Q : List Bytes → Heap Bytes → Prop} (hQ : Q texts h) :
    Meets (readStrings array i texts.length) h Q := by
  induction texts generalizing i Q with
  | nil => exact meets_pure hQ
  | cons text texts ih =>
    obtain ⟨p, hp, hcell, hrest⟩ := slot_of_drop hslots
    apply Meets.bind
    apply meets_readAt hp
    apply Meets.bind
    apply meets_read hcell
    apply Meets.bind
    apply ih hrest
    exact meets_pure hQ

theorem mapContainsKey_meets (hd : Represents h d l) (key : Bytes)
    {Q : MapResult × Option Bool → Heap Bytes → Prop}
    (hQ : Q (.mapOk, some (decide (key ∈ l.keys))) h) :
    Meets (mapContainsKey d (some key) true) h Q := by
  simp only [mapContainsKey]
  apply Meets.bind
  apply findKey_meets hd
  apply meets_pure
  rw [findIdx?_isSome_eq_mem]
  exact hQ

theorem mapContainsValue_meets (hd : Represents h d l) (value : Bytes)
    {Q : MapResult × Option Bool → Heap Bytes → Prop}
    (hQ : Q (.mapOk, some (decide (value ∈ l.values))) h) :
    Meets (mapContainsValue d (some value) true) h Q := by
  simp only [mapContainsValue]
  apply Meets.bind
  apply findValue_meets hd
  apply meets_pure
  rw [findIdx?_isSome_eq_mem]
  exact hQ

theorem mapGetValueFromKey_meets (hd : Represents h d l) (key : Bytes) :
    Meets (mapGetValueFromKey d (some key)) h fun p h' =>
      h' = h ∧ (p = none ∧ l.lookup key = none ∨
        ∃ text, h.cell p = some text ∧ l.lookup key = some text) := by
  simp only [mapGetValueFromKey]
  apply Meets.bind
  apply findKey_meets hd
  cases hindex : l.keys.findIdx? (· = key) with
  | none => exact meets_pure ⟨rfl, .inl ⟨rfl, AssocList.lookup_of_notMem hindex⟩⟩
  | some index =>
    obtain ⟨hlt, k, v, -, hv, -, hv'⟩ := hd.slot (getElem?_of_findIdx? hindex)
    obtain ⟨text, htext⟩ := hd.toPrefix.live (List.mem_append_right _ (List.mem_of_getElem? hv))
    have hvalue : h.cell v = l.lookup key := by
      have hcells := congrArg (fun texts => texts[index]?) hd.values
      simp only [List.getElem?_map, hv, Option.map_some] at hcells
      rw [AssocList.lookup_eq_values hindex, AssocList.values, List.getElem?_map]
      rw [List.getElem?_eq_getElem hlt] at hcells ⊢
      exact Option.some.inj hcells
    apply meets_readAt hv'
    exact ⟨rfl, .inr ⟨text, htext, hvalue.symm.trans htext⟩⟩

end

/-! ## One call -/

/-- What becomes of the map that a call is on, and of the clone that it makes. -/
inductive Cloned (h h' : Heap Bytes) (d : MapHandleData) :
    Option MapHandleData → Option AssocList → Prop
  | none : Cloned h h' d none none
  | some {clone : MapHandleData} {l : AssocList} :
      Represents h' clone l → (∀ p ∈ clone.slots, h.cell p = none ∧ p ∉ d.slots) →
      Cloned h h' d (some clone) (some l)

/-- What a call on `d` has left: `d'`, which holds `l'`, and perhaps a clone. -/
structure Effect (h h' : Heap Bytes) (d d' : MapHandleData) (clone : Option MapHandleData) (l' : AssocList)
    (l'' : Option AssocList) : Prop where
  represents : Represents h' d' l'
  changed : Changed h h' d d'
  cloned : Cloned h h' d' clone l''

structure Performed (h h' : Heap Bytes) (d : MapHandleData) (l : AssocList) (c : MapCall)
    (clones : Nat) (r : MapAnswer × MapHandleData × Option MapHandleData) (l' : AssocList)
    (clone : Option AssocList) : Prop where
  represents : Represents h' r.2.1 l'
  changed : Changed h h' d r.2.1
  cloned : Cloned h h' r.2.1 r.2.2 clone
  agrees : (r.1, l', clone) = c.assoc l clones ∨
    h.failures < h'.failures ∧ c.outOfMemory = some r.1 ∧ l' = l ∧ clone = none

section

variable {h : Heap Bytes} {d : MapHandleData} {l : AssocList}

theorem Represents.answers (hd : Represents h d l) {c : MapCall} {clones : Nat}
    {answer : MapAnswer} (hanswer : (answer, l, none) = c.assoc l clones) :
    Performed h h d l c clones (answer, d, none) l none :=
  ⟨hd, (Untouched.refl h).changed rfl, .none, .inl hanswer⟩

theorem Outcome.performed {h' : Heap Bytes} {agreed : MapResult × AssocList}
    {r : MapResult × MapHandleData} {l' : AssocList} (houtcome : Outcome h h' d l agreed r l')
    {c : MapCall} {clones : Nat}
    (hassoc : c.assoc l clones = (.result agreed.1, agreed.2, none))
    (herror : c.outOfMemory = some (.result .mapError) ∨ ¬ r.1 = .mapError) :
    Performed h h' d l c clones (.result r.1, r.2, none) l' none := by
  refine ⟨houtcome.represents, houtcome.changed, .none, ?_⟩
  rcases houtcome.agrees with hagrees | ⟨hfailed, hresult, hsame⟩
  · left
    rw [hassoc, ← hagrees]
  · right
    rcases herror with herror | hnever
    · rw [hresult]
      exact ⟨hfailed, herror, hsame, rfl⟩
    · exact absurd hresult hnever

theorem perform_meets (hd : Represents h d l) (c : MapCall) (clones : Nat) :
    Meets (c.perform d clones) h fun r h' =>
      ∃ l' clone, Performed h h' d l c clones r l' clone := by
  cases c with
  | mapAdd handle key value =>
    apply Meets.bind
    cases key with
    | none => exact meets_pure (meets_pure ⟨l, none, hd.answers rfl⟩)
    | some key =>
      cases value with
      | none => exact meets_pure (meets_pure ⟨l, none, hd.answers rfl⟩)
      | some value =>
        apply (mapAdd_meets hd key value).mono
        rintro r h' ⟨l', houtcome⟩
        refine meets_pure ⟨l', none, houtcome.performed ?_ (.inl rfl)⟩
        simp only [MapCall.assoc]
        split <;> rfl
  | mapAddOrUpdate handle key value =>
    apply Meets.bind
    cases key with
    | none => exact meets_pure (meets_pure ⟨l, none, hd.answers rfl⟩)
    | some key =>
      cases value with
      | none => exact meets_pure (meets_pure ⟨l, none, hd.answers rfl⟩)
      | some value =>
        apply (mapAddOrUpdate_meets hd key value).mono
        rintro r h' ⟨l', houtcome⟩
        refine meets_pure ⟨l', none, houtcome.performed ?_ (.inl rfl)⟩
        simp only [MapCall.assoc]
        split <;> rfl
  | mapDelete handle key =>
    apply Meets.bind
    cases key with
    | none => exact meets_pure (meets_pure ⟨l, none, hd.answers rfl⟩)
    | some key =>
      apply (mapDelete_meets hd key).mono
      rintro r h' ⟨l', houtcome, hnever⟩
      refine meets_pure ⟨l', none, houtcome.performed ?_ (.inr hnever)⟩
      simp only [MapCall.assoc]
      split <;> rfl
  | mapContainsKey handle key given =>
    apply Meets.bind
    cases key with
    | none => exact meets_pure (meets_pure ⟨l, none, hd.answers rfl⟩)
    | some key =>
      cases given with
      | false => exact meets_pure (meets_pure ⟨l, none, hd.answers rfl⟩)
      | true =>
        apply mapContainsKey_meets hd key
        exact meets_pure ⟨l, none, hd.answers rfl⟩
  | mapContainsValue handle value given =>
    apply Meets.bind
    cases value with
    | none => exact meets_pure (meets_pure ⟨l, none, hd.answers rfl⟩)
    | some value =>
      cases given with
      | false => exact meets_pure (meets_pure ⟨l, none, hd.answers rfl⟩)
      | true =>
        apply mapContainsValue_meets hd value
        exact meets_pure ⟨l, none, hd.answers rfl⟩
  | mapGetValueFromKey handle key =>
    apply Meets.bind
    cases key with
    | none => exact meets_pure (meets_pure ⟨l, none, hd.answers rfl⟩)
    | some key =>
      apply (mapGetValueFromKey_meets hd key).mono
      rintro p h' ⟨rfl, ⟨rfl, hlookup⟩ | ⟨text, htext, hlookup⟩⟩
      · apply meets_pure
        refine ⟨l, none, hd.answers ?_⟩
        simp only [MapCall.assoc, hlookup]
      · obtain ⟨a, rfl⟩ := address_of_cell htext
        simp only [reduceCtorEq, ↓reduceIte]
        apply Meets.bind
        apply meets_read htext
        apply meets_pure
        refine ⟨l, none, hd.answers ?_⟩
        simp only [MapCall.assoc, hlookup]
  | mapGetInternals handle given =>
    cases given with
    | false => exact meets_pure ⟨l, none, hd.answers rfl⟩
    | true =>
      have hcountKeys : d.count = l.keys.length := by
        rw [hd.count, AssocList.keys, List.length_map]
      have hcountValues : d.count = l.values.length := by
        rw [hd.count, AssocList.values, List.length_map]
      simp only [MapCall.perform, mapGetInternals, if_pos]
      apply Meets.bind
      rw [hcountKeys]
      apply readStrings_meets hd.keySlots
      apply Meets.bind
      rw [← hcountKeys, hcountValues]
      apply readStrings_meets hd.valueSlots
      apply meets_pure
      refine ⟨l, none, hd.answers ?_⟩
      rw [← hcountValues, hd.count]
      rfl
  | mapClone handle =>
    apply Meets.bind
    apply (mapClone_meets hd).mono
    rintro clone h' ⟨hgrows, hcounted, hcloned⟩
    have hchanged : Changed h h' d d :=
      hgrows.changed (fun p hp => .inl hp) hcounted.failures hcounted.shrinkFailures
    have hkept := hd.grows hgrows hcounted.shrinkFailures
    apply meets_pure
    rcases hcloned with ⟨rfl, hfailed⟩ | ⟨d', rfl, hrepresents, hnew⟩
    · exact ⟨l, none, hkept, hchanged, .none, .inr ⟨hfailed, rfl, rfl, rfl⟩⟩
    · exact ⟨l, some l, hkept, hchanged,
        .some hrepresents fun p hp => ⟨hnew p hp, notMem_of_dead hd (hnew p hp)⟩, .inl rfl⟩

end

/-! ## Runs -/

/-- The maps hold the lists, and no two of them share a string. -/
structure Agree (s : Maps) (lists : List AssocList) : Prop where
  length : s.maps.length = lists.length
  represents : ∀ (i : Nat) (d : MapHandleData) (l : AssocList),
    s.maps[i]? = some d → lists[i]? = some l → Represents s.heap d l
  apart : ∀ (i j : Nat) (d d' : MapHandleData), i ≠ j →
    s.maps[i]? = some d → s.maps[j]? = some d' → ∀ p ∈ d.slots, p ∉ d'.slots

/-- The maps agree with the lists, and after every call they agree with what the call makes of the
lists. -/
def Refines : Maps → List AssocList → List MapCall → Prop
  | s, lists, [] => Agree s lists
  | s, lists, c :: calls =>
    Agree s lists ∧
      ∃ answer s' lists', s.call c = some (answer, s') ∧
        AssocStep lists c (s.heap.failures < s'.heap.failures) answer lists' ∧
        Refines s' lists' calls

section

/-- What is in a list of which one entry has been set, and to which one may have been added. -/
theorem getElem?_set_append {α : Type} {xs : List α} {k i : Nat} {x y : α} {added : Option α}
    (hk : k < xs.length) (h : (xs.set k x ++ added.toList)[i]? = some y) :
    i = k ∧ y = x ∨ i ≠ k ∧ i < xs.length ∧ xs[i]? = some y ∨ i = xs.length ∧ added = some y := by
  rw [List.getElem?_append, List.length_set] at h
  split at h
  case isTrue hlt =>
    by_cases heq : k = i
    · subst heq
      rw [List.getElem?_set_self hk] at h
      exact .inl ⟨rfl, (Option.some.inj h).symm⟩
    · rw [List.getElem?_set_ne heq] at h
      exact .inr (.inl ⟨Ne.symm heq, hlt, h⟩)
  case isFalse hge =>
    right
    right
    cases added with
    | none => cases h
    | some z =>
      have hi := (List.getElem?_eq_some_iff.mp h).1
      simp only [Option.toList_some, List.length_singleton] at hi
      have hzero : i - xs.length = 0 := by omega
      rw [hzero] at h
      exact ⟨by omega, h⟩

variable {s : Maps} {lists : List AssocList}

theorem Cloned.length {h h' : Heap Bytes} {d : MapHandleData} {clone : Option MapHandleData}
    {l : Option AssocList} (hcloned : Cloned h h' d clone l) :
    clone.toList.length = l.toList.length := by
  cases hcloned with
  | none => rfl
  | some hrepresents hnew => rfl

theorem Agree.live (hs : Agree s lists) {i : Nat} {d : MapHandleData} (hd : s.maps[i]? = some d)
    {p : Ptr} (hp : p ∈ d.slots) : ∃ text, s.heap.cell p = some text := by
  have hlt := (List.getElem?_eq_some_iff.mp hd).1
  rw [hs.length] at hlt
  exact (hs.represents i d _ hd (List.getElem?_eq_getElem hlt)).live hp

section

variable {k : Nat} {d d' : MapHandleData} {l : AssocList} {h' : Heap Bytes} {made : Option MapHandleData}
  {l' : AssocList} {clone : Option AssocList}

theorem Agree.others (hs : Agree s lists) (hd : s.maps[k]? = some d)
    (hr : Effect s.heap h' d d' made l' clone) {i : Nat} (hi : i ≠ k)
    {d₁ : MapHandleData} {l₁ : AssocList} (hd₁ : s.maps[i]? = some d₁)
    (hl₁ : lists[i]? = some l₁) : Represents h' d₁ l₁ := by
  have hrepresents := hs.represents i d₁ l₁ hd₁ hl₁
  apply hrepresents.of_kept _ hr.changed.shrinkFailures
  intro p hp
  obtain ⟨text, htext⟩ := hrepresents.live hp
  rw [htext]
  exact hr.changed.kept p text (hs.apart i k d₁ d hi hd₁ hd p hp) htext

theorem Agree.notMem_changed (hs : Agree s lists) (hd : s.maps[k]? = some d)
    (hr : Effect s.heap h' d d' made l' clone) {i : Nat} (hi : i ≠ k)
    {d₁ : MapHandleData} (hd₁ : s.maps[i]? = some d₁) {p : Ptr} (hp : p ∈ d₁.slots) :
    p ∉ d'.slots := by
  intro hp'
  rcases hr.changed.new p hp' with hold | hdead
  · exact hs.apart i k d₁ d hi hd₁ hd p hp hold
  · obtain ⟨text, htext⟩ := hs.live hd₁ hp
    rw [hdead] at htext
    cases htext

theorem Agree.notMem_clone (hs : Agree s lists)
    (hr : Effect s.heap h' d d' made l' clone) {d₂ : MapHandleData}
    (hclone : made = some d₂) {i : Nat} {d₁ : MapHandleData} (hd₁ : s.maps[i]? = some d₁) {p : Ptr}
    (hp : p ∈ d₁.slots) : p ∉ d₂.slots := by
  intro hp'
  have hcloned := hr.cloned
  rw [hclone] at hcloned
  cases hcloned with
  | some hrepresents hnew =>
    obtain ⟨text, htext⟩ := hs.live hd₁ hp
    rw [(hnew p hp').1] at htext
    cases htext

theorem Effect.notMem_clone (hr : Effect s.heap h' d d' made l' clone)
    {d₂ : MapHandleData} (hclone : made = some d₂) {p : Ptr} (hp : p ∈ d₂.slots) :
    p ∉ d'.slots := by
  have hcloned := hr.cloned
  rw [hclone] at hcloned
  cases hcloned with
  | some hrepresents hnew => exact (hnew p hp).2

theorem Agree.effect (hs : Agree s lists) (hd : s.maps[k]? = some d)
    (hl : lists[k]? = some l) (hr : Effect s.heap h' d d' made l' clone) :
    Agree { heap := h', maps := s.maps.set k d' ++ made.toList }
      (lists.set k l' ++ clone.toList) := by
  have hhandle := (List.getElem?_eq_some_iff.mp hd).1
  have hhandle' := (List.getElem?_eq_some_iff.mp hl).1
  have hlength := hs.length
  constructor
  case length =>
    simp only [List.length_append, List.length_set, hr.cloned.length, hlength]
  case represents =>
    intro i d₁ l₁ hd₁ hl₁
    rcases getElem?_set_append hhandle hd₁ with ⟨rfl, rfl⟩ | ⟨hi, hlt, hd₁⟩ | ⟨rfl, hclone⟩
    · rcases getElem?_set_append hhandle' hl₁ with ⟨-, rfl⟩ | ⟨hi, -, -⟩ | ⟨hi, -⟩
      · exact hr.represents
      · exact absurd rfl hi
      · omega
    · rcases getElem?_set_append hhandle' hl₁ with ⟨rfl, -⟩ | ⟨-, -, hl₁⟩ | ⟨rfl, -⟩
      · exact absurd rfl hi
      · exact hs.others hd hr hi hd₁ hl₁
      · omega
    · rcases getElem?_set_append hhandle' hl₁ with ⟨hi, -⟩ | ⟨-, hlt, -⟩ | ⟨-, hclone'⟩
      · omega
      · omega
      · have hcloned := hr.cloned
        rw [hclone, hclone'] at hcloned
        cases hcloned with
        | some hrepresents hnew => exact hrepresents
  case apart =>
    intro i j d₁ d₂ hne hset₁ hset₂ p hp hp'
    rcases getElem?_set_append hhandle hset₁ with ⟨rfl, rfl⟩ | ⟨hi, hlt, hd₁⟩ | ⟨rfl, hclone⟩
    · rcases getElem?_set_append hhandle hset₂ with ⟨rfl, -⟩ | ⟨hj, -, hd₂⟩ | ⟨-, hclone⟩
      · exact absurd rfl hne
      · exact hs.notMem_changed hd hr hj hd₂ hp' hp
      · exact hr.notMem_clone hclone hp' hp
    · rcases getElem?_set_append hhandle hset₂ with ⟨rfl, rfl⟩ | ⟨hj, -, hd₂⟩ | ⟨-, hclone⟩
      · exact hs.notMem_changed hd hr hi hd₁ hp hp'
      · exact hs.apart i j d₁ d₂ hne hd₁ hd₂ p hp hp'
      · exact hs.notMem_clone hr hclone hd₁ hp hp'
    · rcases getElem?_set_append hhandle hset₂ with ⟨rfl, rfl⟩ | ⟨hj, -, hd₂⟩ | ⟨hj, -⟩
      · exact hr.notMem_clone hclone hp hp'
      · exact hs.notMem_clone hr hclone hd₂ hp' hp
      · exact absurd hj.symm hne

end

theorem refines_of_agree (hs : Agree s lists) (calls : List MapCall) : Refines s lists calls := by
  induction calls generalizing s lists with
  | nil => exact hs
  | cons c calls ih =>
    refine ⟨hs, ?_⟩
    cases hd : s.maps[c.handle]? with
    | none =>
      refine ⟨c.nullAnswer, s, lists, ?_, ?_, ih hs⟩
      · simp only [Maps.call, hd]
      · apply assocStep_of_agrees
        left
        have hnone : lists[c.handle]? = none := by
          rw [List.getElem?_eq_none_iff] at hd ⊢
          rw [← hs.length]
          exact hd
        simp only [MapCall.assocCall, hnone]
    | some d =>
      have hhandle := (List.getElem?_eq_some_iff.mp hd).1
      rw [hs.length] at hhandle
      have hl := List.getElem?_eq_getElem hhandle
      have hrepresents := hs.represents c.handle d _ hd hl
      obtain ⟨r, h', hrun, l', clone, hr⟩ := perform_meets hrepresents c s.maps.length
      refine ⟨r.1, _, _, ?_, ?_, ih (hs.effect hd hl ⟨hr.represents, hr.changed, hr.cloned⟩)⟩
      · simp only [Maps.call, hd, hrun]
      · apply assocStep_of_agrees
        rcases hr.agrees with hagrees | ⟨hfailed, hmemory, rfl, rfl⟩
        · left
          rw [hs.length] at hagrees
          simp only [MapCall.assocCall, hl, ← hagrees]
        · right
          refine ⟨hfailed, hmemory, ?_⟩
          rw [Option.toList_none, List.append_nil]
          exact List.set_getElem_self hhandle

theorem agree_created (outcomes : List Bool) : Agree (Maps.created outcomes) [[]] := by
  constructor
  case length => rfl
  case represents =>
    intro i d l hd hl
    cases i with
    | zero =>
      cases hd
      cases hl
      exact represents_nil _
    | succ i => cases hd
  case apart =>
    intro i j d d' hne hd hd' p hp
    cases i with
    | zero =>
      cases hd
      cases hp
    | succ i => cases hd

/-- A map without a filter, its clones and their clones are association lists, whichever allocations
fail. -/
theorem map_refines_assocList (outcomes : List Bool) (calls : List MapCall) :
    Refines (Maps.created outcomes) [[]] calls :=
  refines_of_agree (agree_created outcomes) calls

/-- Two pairs are added and one is deleted; the array of the keys cannot be made smaller then, and is
longer than that of the values. -/
theorem map_failedShrink :
    ¬ ∀ (outcomes : List Bool) (calls : List MapCall) (s : Maps),
      (Maps.created outcomes).run calls = some s → ∀ d ∈ s.maps,
        (d.keys.getD []).length = d.count ∧ (d.values.getD []).length = d.count := by
  intro h
  have hrun := h [true, true, true, true, true, true, true, true, false]
    [.mapAdd 0 (some (ascii "a")) (some (ascii "1")),
      .mapAdd 0 (some (ascii "b")) (some (ascii "2")), .mapDelete 0 (some (ascii "b"))] _ rfl _
    List.mem_cons_self
  exact absurd hrun.1 (by decide)

end

end Storage
end SharedUtility.Map
