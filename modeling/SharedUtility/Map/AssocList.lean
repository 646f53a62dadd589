import SharedUtility.Map.Storage

/-!
# AssocList — what a map is for

A map is a list of pairs in the order in which they were inserted, with no key twice. A call without
a filter acts on this list; where memory runs out, an error is reported and nothing changes.
-/

namespace SharedUtility.Map

abbrev AssocList := List (Bytes × Bytes)

namespace AssocList

def keys (l : AssocList) : List Bytes :=
  l.map Prod.fst

def values (l : AssocList) : List Bytes :=
  l.map Prod.snd

def insert (l : AssocList) (key value : Bytes) : AssocList :=
  l ++ [(key, value)]

/-- The pair keeps its place. -/
def update (l : AssocList) (key value : Bytes) : AssocList :=
  l.map fun e => if e.1 = key then (key, value) else e

/-- The others keep their order. -/
def delete (l : AssocList) (key : Bytes) : AssocList :=
  l.filter fun e => e.1 ≠ key

theorem keys_insert (l : AssocList) (key value : Bytes) :
    (l.insert key value).keys = l.keys ++ [key] := by
  simp [insert, keys]

theorem keys_update (l : AssocList) (key value : Bytes) : (l.update key value).keys = l.keys := by
  unfold update keys
  rw [List.map_map]
  apply List.map_congr_left
  intro e he
  simp only [Function.comp_apply]
  split
  case isTrue heq => exact heq.symm
  case isFalse hne => rfl

theorem nodup_insert {l : AssocList} (h : l.keys.Nodup) {key : Bytes} (hkey : key ∉ l.keys)
    (value : Bytes) : (l.insert key value).keys.Nodup := by
  rw [keys_insert, List.nodup_append]
  refine ⟨h, List.pairwise_singleton _ key, ?_⟩
  intro k hk k' hk' heq
  rw [heq, List.mem_singleton.mp hk'] at hk
  exact hkey hk

theorem nodup_delete {l : AssocList} (h : l.keys.Nodup) (key : Bytes) :
    (l.delete key).keys.Nodup :=
  h.sublist (List.Sublist.map Prod.fst List.filter_sublist)

theorem update_of_notMem {l : AssocList} {key : Bytes} (hkey : key ∉ l.keys) (value : Bytes) :
    l.update key value = l := by
  calc l.map (fun e => if e.1 = key then (key, value) else e)
      = l.map id := by
        apply List.map_congr_left
        intro e he
        rw [if_neg]
        · rfl
        · rintro rfl
          exact hkey (List.mem_map_of_mem he)
    _ = l := List.map_id l

theorem delete_of_notMem {l : AssocList} {key : Bytes} (hkey : key ∉ l.keys) :
    l.delete key = l := by
  unfold delete
  rw [List.filter_eq_self]
  intro e he
  rw [decide_eq_true_eq]
  rintro rfl
  exact hkey (List.mem_map_of_mem he)

/-! Where the key is at `index`, these are the operations on that place. -/

section

variable {l : AssocList} {key : Bytes} {index : Nat}

theorem fst_ne_of_nodup {e : Bytes × Bytes} (h : (keys (e :: l)).Nodup) (hindex : l.keys[index]? = some key) :
    e.1 ≠ key := by
  rintro rfl
  exact (List.nodup_cons.mp h).1 (List.mem_of_getElem? hindex)

theorem update_eq_set (h : l.keys.Nodup) (hindex : l.keys[index]? = some key) (value : Bytes) :
    l.update key value = l.set index (key, value) := by
  induction l generalizing index with
  | nil => cases hindex
  | cons e l ih =>
    have hnodup := List.nodup_cons.mp h
    cases index with
    | zero =>
      have hfirst : e.1 = key := Option.some.inj hindex
      have hrest : key ∉ keys l := by
        rw [← hfirst]
        exact hnodup.1
      have hsame : update l key value = l := update_of_notMem hrest value
      simp only [update, List.map_cons, if_pos hfirst, List.set_cons_zero]
      exact congrArg _ hsame
    | succ index =>
      have hne := fst_ne_of_nodup h hindex
      simp only [update, List.map_cons, if_neg hne, List.set_cons_succ]
      exact congrArg _ (ih hnodup.2 hindex)

theorem delete_eq_eraseIdx (h : l.keys.Nodup) (hindex : l.keys[index]? = some key) :
    l.delete key = l.eraseIdx index := by
  induction l generalizing index with
  | nil => cases hindex
  | cons e l ih =>
    have hnodup := List.nodup_cons.mp h
    cases index with
    | zero =>
      have hfirst : e.1 = key := Option.some.inj hindex
      have hrest : key ∉ keys l := by
        rw [← hfirst]
        exact hnodup.1
      have hsame : delete l key = l := delete_of_notMem hrest
      rw [List.eraseIdx_zero, List.tail_cons, delete, List.filter_cons_of_neg (by simp [hfirst])]
      exact hsame
    | succ index =>
      have hne := fst_ne_of_nodup h hindex
      rw [List.eraseIdx_cons_succ, delete, List.filter_cons_of_pos (by simp [hne])]
      exact congrArg _ (ih hnodup.2 hindex)

theorem lookup_eq_values (hindex : l.keys.findIdx? (· = key) = some index) :
    l.lookup key = l.values[index]? := by
  induction l generalizing index with
  | nil => cases hindex
  | cons e l ih =>
    obtain ⟨name, value⟩ := e
    simp only [keys, List.map_cons, List.findIdx?_cons] at hindex
    split at hindex
    case isTrue heq =>
      cases hindex
      have hkey : (key == name) = true := by
        rw [beq_iff_eq]
        exact (of_decide_eq_true heq).symm
      simp only [values, List.map_cons, List.getElem?_cons_zero, List.lookup_cons, hkey]
    case isFalse hne =>
      obtain ⟨j, hj, rfl⟩ := Option.map_eq_some_iff.mp hindex
      have hkey : (key == name) = false := by
        rw [beq_eq_false_iff_ne]
        rintro rfl
        exact hne (decide_eq_true rfl)
      simp only [values, List.map_cons, List.getElem?_cons_succ, List.lookup_cons, hkey]
      exact ih hj

theorem lookup_of_notMem (hkey : l.keys.findIdx? (· = key) = none) : l.lookup key = none := by
  induction l with
  | nil => rfl
  | cons e l ih =>
    obtain ⟨name, value⟩ := e
    simp only [keys, List.map_cons, List.findIdx?_cons] at hkey
    split at hkey
    case isTrue heq => cases hkey
    case isFalse hne =>
      have hrest := Option.map_eq_none_iff.mp hkey
      have hbeq : (key == name) = false := by
        rw [beq_eq_false_iff_ne]
        rintro rfl
        exact hne (decide_eq_true rfl)
      simp only [List.lookup_cons, hbeq]
      exact ih hrest

end

end AssocList

theorem findIdx?_isSome_eq_mem (texts : List Bytes) (text : Bytes) :
    (texts.findIdx? (· = text)).isSome = decide (text ∈ texts) := by
  rw [List.findIdx?_isSome, Bool.eq_iff_iff, List.any_eq_true, decide_eq_true_eq]
  constructor
  · rintro ⟨t, ht, heq⟩
    rw [← of_decide_eq_true heq]
    exact ht
  · intro hmem
    exact ⟨text, hmem, decide_eq_true rfl⟩

theorem getElem?_of_findIdx? {texts : List Bytes} {text : Bytes} {index : Nat}
    (h : texts.findIdx? (· = text) = some index) : texts[index]? = some text := by
  obtain ⟨hlt, heq, -⟩ := List.findIdx?_eq_some_iff_getElem.mp h
  rw [List.getElem?_eq_getElem hlt]
  exact congrArg some (of_decide_eq_true heq)

namespace Storage

/-! ## The calls on association lists -/

/-- A call on the list `l`: its answer, what becomes of the list, and the clone of it. -/
def MapCall.assoc (l : AssocList) (clones : Nat) :
    MapCall → MapAnswer × AssocList × Option AssocList
  | .mapAdd _ (some key) (some value) =>
    if key ∈ l.keys then (.result .mapKeyExists, l, none)
    else (.result .mapOk, l.insert key value, none)
  | .mapAddOrUpdate _ (some key) (some value) =>
    if key ∈ l.keys then (.result .mapOk, l.update key value, none)
    else (.result .mapOk, l.insert key value, none)
  | .mapDelete _ (some key) =>
    if key ∈ l.keys then (.result .mapOk, l.delete key, none)
    else (.result .mapKeyNotFound, l, none)
  | .mapContainsKey _ (some key) true => (.exists .mapOk (some (key ∈ l.keys)), l, none)
  | .mapContainsValue _ (some value) true => (.exists .mapOk (some (value ∈ l.values)), l, none)
  | .mapGetValueFromKey _ (some key) => (.value (l.lookup key), l, none)
  | .mapGetInternals _ true => (.internals .mapOk (some (l.keys, l.values, l.length)), l, none)
  | .mapClone _ => (.handle (some clones), l, some l)
  -- An argument is NULL.
  | c => (c.nullAnswer, l, none)

def MapCall.assocCall (lists : List AssocList) (c : MapCall) :
    MapAnswer × List AssocList :=
  match lists[c.handle]? with
  | none => (c.nullAnswer, lists)
  | some l =>
    let r := c.assoc l lists.length
    (r.1, lists.set c.handle r.2.1 ++ r.2.2.toList)

/-- The answer to a call for which memory has run out. -/
def MapCall.outOfMemory : MapCall → Option MapAnswer
  | .mapAdd .. | .mapAddOrUpdate .. => some (.result .mapError)
  | .mapClone .. => some (.handle none)
  | _ => none

def MapAnswer.isError : MapAnswer → Bool
  | .result r | .exists r _ | .internals r _ => r ≠ .mapOk
  | .value text => text.isNone
  | .handle h => h.isNone

/-- What a call may answer, and what becomes of the lists. -/
structure AssocStep (lists : List AssocList) (c : MapCall) (failed : Prop) (answer : MapAnswer)
    (lists' : List AssocList) : Prop where
  agrees : (answer, lists') = c.assocCall lists ∨
    failed ∧ c.outOfMemory = some answer ∧ lists' = lists
  errorKeeps : answer.isError = true → lists' = lists
  others : ∀ i, i ≠ c.handle → i < lists.length → lists'[i]? = lists[i]?

section

variable {lists : List AssocList} {l : AssocList}

theorem MapCall.assoc_errorKeeps (c : MapCall) (clones : Nat)
    (h : (c.assoc l clones).1.isError = true) : (c.assoc l clones).2 = (l, none) := by
  unfold MapCall.assoc at h ⊢
  split at h
  all_goals first | rfl | skip
  case h_1 handle key value =>
    split at h
    case isTrue hmem => rw [if_pos hmem]
    case isFalse hmem => cases h
  case h_2 handle key value =>
    split at h
    · cases h
    · cases h
  case h_3 handle key =>
    split at h
    · cases h
    case isFalse hmem => rw [if_neg hmem]
  case h_8 handle => cases h

theorem assocStep_of_agrees {c : MapCall} {failed : Prop} {answer : MapAnswer}
    {lists' : List AssocList}
    (h : (answer, lists') = c.assocCall lists ∨
      failed ∧ c.outOfMemory = some answer ∧ lists' = lists) :
    AssocStep lists c failed answer lists' := by
  refine ⟨h, ?_, ?_⟩
  case refine_1 =>
    intro herror
    rcases h with h | ⟨-, -, h⟩
    · unfold MapCall.assocCall at h
      split at h
      case h_1 hnone => exact congrArg Prod.snd h
      case h_2 l hl =>
        have hanswer : answer = (c.assoc l lists.length).1 := congrArg Prod.fst h
        have hlists : lists' = lists.set c.handle (c.assoc l lists.length).2.1 ++
          (c.assoc l lists.length).2.2.toList := congrArg Prod.snd h
        rw [hanswer] at herror
        rw [hlists, c.assoc_errorKeeps lists.length herror, Option.toList_none, List.append_nil]
        obtain ⟨hlt, rfl⟩ := List.getElem?_eq_some_iff.mp hl
        exact List.set_getElem_self hlt
    · exact h
  case refine_2 =>
    intro i hi hlt
    rcases h with h | ⟨-, -, h⟩
    · unfold MapCall.assocCall at h
      split at h
      case h_1 hnone => rw [show lists' = lists from congrArg Prod.snd h]
      case h_2 l hl =>
        have hlists : lists' = lists.set c.handle (c.assoc l lists.length).2.1 ++
          (c.assoc l lists.length).2.2.toList := congrArg Prod.snd h
        rw [hlists, List.getElem?_append_left (by rw [List.length_set]; exact hlt),
          List.getElem?_set_ne (Ne.symm hi)]
    · rw [h]

end

end Storage
end SharedUtility.Map
