import SharedUtility.Map.Code

/-!
# Filter — the filter of a map stays in force

A map is filled by calls on it and on its clones.  The filter is forgotten where a map becomes empty
again, by the deletion of its only key or by the undoing of a failed first insertion, and where an
empty map is cloned.  `filterInForce_iff_filterKept` says that these are the only ways to lose it.
-/

namespace SharedUtility.Map

/-! ## One map -/

section

variable {handleData : MapHandleData} {key value : Bytes} {alloc : Allocations}

/-- The storage of an empty map has grown, and shrinks again because a copy has failed. -/
def MapHandleData.undoesFirstInsert (handleData : MapHandleData) (alloc : Allocations) : Bool :=
  handleData.count == 0 && alloc.keysGrown && alloc.valuesGrown &&
    !(alloc.keyCopied && alloc.valueCopied)

/-- The key that is deleted is the only one. -/
def MapHandleData.deletesLastKey (handleData : MapHandleData) (key : Bytes) : Bool :=
  (findKey handleData key).isSome && handleData.count == 1

theorem mapIncreaseStorageKeysValues_count {grown : MapHandleData}
    (h : mapIncreaseStorageKeysValues handleData alloc = some grown) :
    alloc.keysGrown = true ∧ alloc.valuesGrown = true ∧ grown.count = handleData.count + 1 ∧
      grown.mapFilterCallback = handleData.mapFilterCallback := by
  unfold mapIncreaseStorageKeysValues at h
  split at h
  · cases h
  split at h
  · cases h
  · rename_i hkeys hvalues
    cases h
    exact ⟨by simpa using hkeys, by simpa using hvalues, by simp [MapHandleData.count], rfl⟩

theorem mapDecreaseStorageKeysValues_filter :
    (mapDecreaseStorageKeysValues handleData).mapFilterCallback =
      if handleData.count = 1 then none else handleData.mapFilterCallback := by
  unfold mapDecreaseStorageKeysValues
  split
  · rfl
  · rfl

variable (handleData key value alloc) in
theorem insertNewKeyValue_filter :
    (insertNewKeyValue handleData key value alloc).2.mapFilterCallback =
      if handleData.undoesFirstInsert alloc then none else handleData.mapFilterCallback := by
  unfold insertNewKeyValue
  cases hgrown : mapIncreaseStorageKeysValues handleData alloc with
  | none =>
    have hfailed : handleData.undoesFirstInsert alloc = false := by
      unfold mapIncreaseStorageKeysValues at hgrown
      unfold MapHandleData.undoesFirstInsert
      grind
    simp [hfailed]
  | some grown =>
    rcases mapIncreaseStorageKeysValues_count hgrown with ⟨hkeys, hvalues, hcount, hfilter⟩
    -- The storage has grown: the copies decide.
    have hundone : handleData.undoesFirstInsert alloc =
        (handleData.count == 0 && !(alloc.keyCopied && alloc.valueCopied)) := by
      simp [MapHandleData.undoesFirstInsert, hkeys, hvalues]
    have hshrunk : (mapDecreaseStorageKeysValues grown).mapFilterCallback =
        if handleData.count = 0 then none else handleData.mapFilterCallback := by
      rw [mapDecreaseStorageKeysValues_filter, hcount, hfilter]
      simp
    rw [hundone]
    dsimp only
    split
    · rename_i hkey
      simp [hshrunk, hkey]
    split
    · rename_i hvalue
      simp [hshrunk, hvalue]
    · rename_i hkey hvalue
      simp [hfilter, hkey, hvalue]

theorem findKey_lt {index : Nat} (h : findKey handleData key = some index) :
    index < handleData.count := by
  unfold findKey at h
  rw [List.findIdx?_eq_some_iff_getElem] at h
  exact h.1

theorem undoesFirstInsert_of_found {index : Nat} (h : findKey handleData key = some index) :
    handleData.undoesFirstInsert alloc = false := by
  have hlt := findKey_lt h
  have hcount : (handleData.count == 0) = false := by
    simp
    omega
  simp [MapHandleData.undoesFirstInsert, hcount]

theorem mapAdd_filter :
    (mapAdd handleData (some key) (some value) alloc).2.mapFilterCallback =
      if !handleData.rejects key value && handleData.undoesFirstInsert alloc then none
      else handleData.mapFilterCallback := by
  simp only [mapAdd]
  split
  · rename_i hfound
    rcases Option.isSome_iff_exists.1 hfound with ⟨index, hindex⟩
    simp [undoesFirstInsert_of_found hindex]
  split
  · rename_i hrejects
    simp [hrejects]
  · rename_i hrejects
    have hinsert := insertNewKeyValue_filter handleData key value alloc
    split
    · simpa [hrejects] using hinsert
    · simpa [hrejects] using hinsert

theorem mapAddOrUpdate_filter :
    (mapAddOrUpdate handleData (some key) (some value) alloc).2.mapFilterCallback =
      if !handleData.rejects key value && handleData.undoesFirstInsert alloc then none
      else handleData.mapFilterCallback := by
  simp only [mapAddOrUpdate]
  split
  · rename_i hrejects
    simp [hrejects]
  rename_i hrejects
  split
  · have hinsert := insertNewKeyValue_filter handleData key value alloc
    split
    · simpa [hrejects] using hinsert
    · simpa [hrejects] using hinsert
  · rename_i index hindex
    split
    · simp [undoesFirstInsert_of_found hindex]
    · simp [undoesFirstInsert_of_found hindex]

theorem mapDelete_filter :
    (mapDelete handleData (some key)).2.mapFilterCallback =
      if handleData.deletesLastKey key then none else handleData.mapFilterCallback := by
  simp only [mapDelete]
  split
  · rename_i hnone
    simp [MapHandleData.deletesLastKey, hnone]
  · rename_i index hindex
    have hlt : index < handleData.keys.length := findKey_lt hindex
    -- The gap is closed, and the slots are as many as before.
    have hcount : (handleData.keys.eraseIdx index ++ handleData.keys.getLast?.toList).length =
        handleData.keys.length := by
      have hne : handleData.keys ≠ [] := by
        intro hnil
        simp [hnil] at hlt
      simp only [List.length_append, List.length_eraseIdx, if_pos hlt,
        List.getLast?_eq_some_getLast hne, Option.toList_some, List.length_singleton]
      omega
    have hlast : handleData.deletesLastKey key = (handleData.keys.length == 1) := by
      simp [MapHandleData.deletesLastKey, MapHandleData.count, hindex]
    rw [mapDecreaseStorageKeysValues_filter, hlast]
    simp [MapHandleData.count, hcount]

theorem mapClone_filter {clone : MapHandleData} (h : mapClone handleData alloc = some clone) :
    clone.mapFilterCallback =
      if handleData.count = 0 then none else handleData.mapFilterCallback := by
  unfold mapClone at h
  split at h
  · cases h
  split at h
  · rename_i hcount
    cases h
    simp [hcount]
  · rename_i hcount
    split at h
    · cases h
    split at h
    · cases h
    · cases h
      simp [hcount]

theorem mapAdd_accepted (h : (mapAdd handleData (some key) (some value) alloc).1 = .mapOk) :
    handleData.rejects key value = false := by
  cases hrejects : handleData.rejects key value with
  | false => rfl
  | true =>
    simp only [mapAdd, hrejects, if_pos] at h
    split at h
    · cases h
    · cases h

theorem mapAddOrUpdate_accepted
    (h : (mapAddOrUpdate handleData (some key) (some value) alloc).1 = .mapOk) :
    handleData.rejects key value = false := by
  cases hrejects : handleData.rejects key value with
  | false => rfl
  | true =>
    simp only [mapAddOrUpdate, hrejects, if_pos] at h
    cases h

end

/-! ## A map and its clones -/

/-- The maps that there are, and the pairs that calls have stored in them. -/
structure Maps where
  maps : List MapHandleData
  stored : List (Bytes × Bytes) := []

/-- A call on the map number `handle`. -/
inductive MapCall
  | mapAdd (handle : Nat) (key value : Option Bytes) (alloc : Allocations)
  | mapAddOrUpdate (handle : Nat) (key value : Option Bytes) (alloc : Allocations)
  | mapDelete (handle : Nat) (key : Option Bytes)
  | mapClone (handle : Nat) (alloc : Allocations)

/-- What a call with this result has stored. -/
def storedBy (result : MapResult) (key value : Option Bytes) : List (Bytes × Bytes) :=
  match result, key, value with
  | .mapOk, some key, some value => [(key, value)]
  | _, _, _ => []

def Maps.call (s : Maps) : MapCall → Maps
  | .mapAdd handle key value alloc =>
    match s.maps[handle]? with
    | some handleData =>
      let r := Map.mapAdd handleData key value alloc
      { maps := s.maps.set handle r.2, stored := s.stored ++ storedBy r.1 key value }
    | none => s
  | .mapAddOrUpdate handle key value alloc =>
    match s.maps[handle]? with
    | some handleData =>
      let r := Map.mapAddOrUpdate handleData key value alloc
      { maps := s.maps.set handle r.2, stored := s.stored ++ storedBy r.1 key value }
    | none => s
  | .mapDelete handle key =>
    match s.maps[handle]? with
    | some handleData => { s with maps := s.maps.set handle (Map.mapDelete handleData key).2 }
    | none => s
  | .mapClone handle alloc =>
    match s.maps[handle]? with
    | some handleData => { s with maps := s.maps ++ (Map.mapClone handleData alloc).toList }
    | none => s

/-- The call loses the filter of a map, or makes a clone without one. -/
def Maps.dropsFilter (s : Maps) : MapCall → Bool
  | .mapAdd handle (some key) (some value) alloc
  | .mapAddOrUpdate handle (some key) (some value) alloc =>
    (s.maps[handle]?).any fun handleData =>
      !handleData.rejects key value && handleData.undoesFirstInsert alloc
  | .mapDelete handle (some key) =>
    (s.maps[handle]?).any fun handleData => handleData.deletesLastKey key
  | .mapClone handle alloc =>
    (s.maps[handle]?).any fun handleData => handleData.count == 0 && alloc.handleAllocated
  | _ => false

/-- Every map has the filter `f`, and every pair that was stored is one that `f` accepts. -/
structure FilterInForce (f : MapFilterCallback) (s : Maps) : Prop where
  callback : ∀ handleData ∈ s.maps, handleData.mapFilterCallback = some f
  accepted : ∀ pair ∈ s.stored, f pair.1 pair.2 = 0

/-- The filter is in force before the calls, and after each of them. -/
def FilterInForceThroughout (f : MapFilterCallback) : Maps → List MapCall → Prop
  | s, [] => FilterInForce f s
  | s, c :: calls => FilterInForce f s ∧ FilterInForceThroughout f (s.call c) calls

/-- No call loses the filter. -/
def FilterKept : Maps → List MapCall → Prop
  | _, [] => True
  | s, c :: calls => s.dropsFilter c = false ∧ FilterKept (s.call c) calls

section

variable {f : MapFilterCallback} {s : Maps} {handle : Nat} {handleData : MapHandleData}

/-- The map at `handle` becomes another one, which has the filter unless the call drops it. -/
theorem FilterInForce.set_iff (h : FilterInForce f s) (hhandle : s.maps[handle]? = some handleData)
    {r : MapResult × MapHandleData} {key value : Option Bytes} {d : Bool}
    (hstored : ∀ pair ∈ storedBy r.1 key value, f pair.1 pair.2 = 0)
    (hfilter : r.2.mapFilterCallback = if d then none else handleData.mapFilterCallback) :
    FilterInForce f
      { maps := s.maps.set handle r.2, stored := s.stored ++ storedBy r.1 key value } ↔
      d = false := by
  have hlt : handle < s.maps.length := (List.getElem?_eq_some_iff.1 hhandle).1
  rw [h.callback handleData (List.mem_of_getElem? hhandle)] at hfilter
  constructor
  · intro h'
    have hsome := h'.callback r.2 (List.mem_set hlt r.2)
    cases d with
    | false => rfl
    | true => simp [hfilter] at hsome
  · rintro rfl
    constructor
    case callback =>
      intro handleData' hmem
      rcases List.mem_or_eq_of_mem_set hmem with hmem | rfl
      · exact h.callback handleData' hmem
      · exact hfilter
    case accepted =>
      intro pair hpair
      rcases List.mem_append.1 hpair with hpair | hpair
      · exact h.accepted pair hpair
      · exact hstored pair hpair

theorem FilterInForce.stored_accepted (h : FilterInForce f s)
    (hhandle : s.maps[handle]? = some handleData) {result : MapResult} {key value : Bytes}
    (hresult : result = .mapOk → handleData.rejects key value = false) :
    ∀ pair ∈ storedBy result (some key) (some value), f pair.1 pair.2 = 0 := by
  intro pair hpair
  cases result with
  | mapOk =>
    cases List.mem_singleton.1 hpair
    have haccepted := hresult rfl
    simpa [MapHandleData.rejects, h.callback handleData (List.mem_of_getElem? hhandle)]
      using haccepted
  | _ => cases hpair

theorem FilterInForce.clone_iff (h : FilterInForce f s)
    (hhandle : s.maps[handle]? = some handleData) (alloc : Allocations) :
    FilterInForce f { s with maps := s.maps ++ (Map.mapClone handleData alloc).toList } ↔
      (handleData.count == 0 && alloc.handleAllocated) = false := by
  have hcallback := h.callback handleData (List.mem_of_getElem? hhandle)
  cases hclone : Map.mapClone handleData alloc with
  | none =>
    have hfailed : (handleData.count == 0 && alloc.handleAllocated) = false := by
      unfold Map.mapClone at hclone
      grind
    rw [hfailed, Option.toList_none, List.append_nil]
    exact ⟨fun _ => rfl, fun _ => ⟨h.callback, h.accepted⟩⟩
  | some clone =>
    have hallocated : alloc.handleAllocated = true := by
      unfold Map.mapClone at hclone
      grind
    have hfilter := mapClone_filter hclone
    rw [hcallback] at hfilter
    rw [hallocated, Bool.and_true]
    constructor
    · intro h'
      have hsome := h'.callback clone (by simp)
      cases hcount : handleData.count == 0 with
      | false => rfl
      | true => simp [hfilter, beq_iff_eq.1 hcount] at hsome
    · intro hcount
      refine ⟨?_, h.accepted⟩
      intro handleData' hmem
      rcases List.mem_append.1 hmem with hmem | hmem
      · exact h.callback handleData' hmem
      · cases List.mem_singleton.1 hmem
        simpa [beq_eq_false_iff_ne.1 hcount] using hfilter

theorem FilterInForce.call_iff (h : FilterInForce f s) (c : MapCall) :
    FilterInForce f (s.call c) ↔ s.dropsFilter c = false := by
  cases c with
  | mapAdd handle key value alloc =>
    cases hhandle : s.maps[handle]? with
    | none =>
      have hdrops : s.dropsFilter (.mapAdd handle key value alloc) = false := by
        unfold Maps.dropsFilter
        grind
      simpa [Maps.call, hhandle, hdrops] using h
    | some handleData =>
      simp only [Maps.call, hhandle]
      cases key with
      | none => exact h.set_iff hhandle (d := false) nofun rfl
      | some key =>
        cases value with
        | none => exact h.set_iff hhandle (d := false) nofun rfl
        | some value =>
          simp only [Maps.dropsFilter, hhandle, Option.any_some]
          exact h.set_iff hhandle (h.stored_accepted hhandle mapAdd_accepted)
            mapAdd_filter
  | mapAddOrUpdate handle key value alloc =>
    cases hhandle : s.maps[handle]? with
    | none =>
      have hdrops : s.dropsFilter (.mapAddOrUpdate handle key value alloc) = false := by
        unfold Maps.dropsFilter
        grind
      simpa [Maps.call, hhandle, hdrops] using h
    | some handleData =>
      simp only [Maps.call, hhandle]
      cases key with
      | none => exact h.set_iff hhandle (d := false) nofun rfl
      | some key =>
        cases value with
        | none => exact h.set_iff hhandle (d := false) nofun rfl
        | some value =>
          simp only [Maps.dropsFilter, hhandle, Option.any_some]
          exact h.set_iff hhandle (h.stored_accepted hhandle mapAddOrUpdate_accepted)
            mapAddOrUpdate_filter
  | mapDelete handle key =>
    cases hhandle : s.maps[handle]? with
    | none =>
      have hdrops : s.dropsFilter (.mapDelete handle key) = false := by
        unfold Maps.dropsFilter
        grind
      simpa [Maps.call, hhandle, hdrops] using h
    | some handleData =>
      simp only [Maps.call, hhandle]
      have hstored : ∀ r : MapResult × MapHandleData, s.stored = s.stored ++ storedBy r.1 none none := by
        intro r
        simp [storedBy]
      cases key with
      | none =>
        rw [hstored (Map.mapDelete handleData none)]
        exact h.set_iff hhandle (d := false) (by simp [storedBy]) rfl
      | some key =>
        rw [hstored (Map.mapDelete handleData (some key))]
        simp only [Maps.dropsFilter, hhandle, Option.any_some]
        exact h.set_iff hhandle (by simp [storedBy]) mapDelete_filter
  | mapClone handle alloc =>
    cases hhandle : s.maps[handle]? with
    | none =>
      have hdrops : s.dropsFilter (.mapClone handle alloc) = false := by
        unfold Maps.dropsFilter
        grind
      simpa [Maps.call, hhandle, hdrops] using h
    | some handleData =>
      simp only [Maps.call, Maps.dropsFilter, hhandle, Option.any_some]
      exact h.clone_iff hhandle alloc

theorem filterInForceThroughout_iff (h : FilterInForce f s) (calls : List MapCall) :
    FilterInForceThroughout f s calls ↔ FilterKept s calls := by
  induction calls generalizing s with
  | nil => simp only [FilterInForceThroughout, FilterKept, h]
  | cons c calls ih =>
    simp only [FilterInForceThroughout, FilterKept, h, true_and]
    constructor
    · intro hrest
      have hcall : FilterInForce f (s.call c) := by
        cases calls with
        | nil => exact hrest
        | cons c' calls => exact hrest.1
      exact ⟨(h.call_iff c).1 hcall, (ih hcall).1 hrest⟩
    · rintro ⟨hkept, hrest⟩
      have hcall := (h.call_iff c).2 hkept
      exact (ih hcall).2 hrest

end

/-! ## From the creation on -/

/-- The filter is in force throughout exactly if no call loses it. -/
theorem filterInForce_iff_filterKept {f : MapFilterCallback} {alloc : Allocations}
    {handleData : MapHandleData} (h : mapCreate (some f) alloc = some handleData)
    (calls : List MapCall) :
    FilterInForceThroughout f { maps := [handleData] } calls ↔
      FilterKept { maps := [handleData] } calls := by
  apply filterInForceThroughout_iff
  unfold mapCreate at h
  split at h
  · cases h
    exact ⟨by simp, by simp⟩
  · cases h

/-- A filter that accepts one key only. -/
def onlyKeyA : MapFilterCallback :=
  fun key _ => if key = ascii "a" then 0 else 1

def createdWithFilter : MapHandleData where
  mapFilterCallback := some onlyKeyA

theorem filterInForce_addAndReject :
    FilterInForceThroughout onlyKeyA { maps := [createdWithFilter] }
      [.mapAdd 0 (some (ascii "a")) (some (ascii "1")) {},
        .mapAdd 0 (some (ascii "b")) (some (ascii "2")) {}, .mapClone 0 {}] :=
  (filterInForce_iff_filterKept (show mapCreate (some onlyKeyA) {} = some createdWithFilter from rfl)
    _).2 ⟨rfl, rfl, rfl, trivial⟩

/-- The accepted key is added and deleted, and then a key is stored that the filter rejects. -/
theorem deleteLast_losesFilter :
    ¬ ∀ (f : MapFilterCallback) (alloc : Allocations) (handleData : MapHandleData)
        (calls : List MapCall), mapCreate (some f) alloc = some handleData →
          FilterInForceThroughout f { maps := [handleData] } calls := by
  intro h
  have hthroughout := h onlyKeyA {} createdWithFilter
    [.mapAdd 0 (some (ascii "a")) (some (ascii "1")) {}, .mapDelete 0 (some (ascii "a")),
      .mapAdd 0 (some (ascii "b")) (some (ascii "2")) {}] rfl
  have haccepted := hthroughout.2.2.2.accepted (ascii "b", ascii "2")
  have hstored : (ascii "b", ascii "2") ∈ [(ascii "a", ascii "1"), (ascii "b", ascii "2")] := by
    decide
  exact absurd (haccepted hstored) (by decide)

end SharedUtility.Map
