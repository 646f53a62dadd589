import Mathlib.Data.List.Induction
import SharedUtility.HttpHeaders.Code

/-!
# HttpHeaders.Refinement — the headers are the fold of the calls that were accepted

* `collection` — what the accepted calls make; `collection_law`: its names, their order, its values,
* `HeadersCall.expected` — what a call does that does not run out of memory,
* `httpHeaders_fold` — every run of calls on a handle, its clones and their clones.
-/

namespace SharedUtility.HttpHeaders
namespace Stored

open Memory Map.Storage
open Strings (CString ptrdiffMax)

/-! ## The fold -/

/-- A call that adds or replaces, and that has been accepted. -/
structure Accepted where
  name : Bytes
  value : Bytes
  replace : Bool
  valid : name.all isNameChar = true

namespace Accepted

/-- The value without the blanks in front. -/
def stripped (c : Accepted) : Bytes :=
  c.value.dropWhile isLws

/-- The value that is stored, after the one that was. -/
def stored (c : Accepted) : (old : Option Bytes) → Bytes
  | none => c.stripped
  | some old => if c.replace then c.stripped else old ++ ascii ", " ++ c.stripped

end Accepted

def record (headers : HttpHeaders) (c : Accepted) : HttpHeaders :=
  headers.mapAddOrUpdate c.name (c.stored (headers.lookup c.name))

def collection (accepted : List Accepted) : HttpHeaders :=
  accepted.foldl record []

/-- The names are those of the calls in the order of their first insertion; a call changes the value of its name
and no other. -/
structure CollectionLaw (accepted : List Accepted) : Prop where
  names : (collection accepted).keys = (accepted.map Accepted.name).eraseDups
  distinct : (collection accepted).keys.Nodup
  valid : ∀ name ∈ (collection accepted).keys, name.all isNameChar = true
  values : ∀ (c : Accepted) (key : Bytes), (collection (accepted ++ [c])).lookup key =
    if key = c.name then some (c.stored ((collection accepted).lookup key)) else (collection accepted).lookup key

section

variable {headers : HttpHeaders} {accepted : List Accepted}

theorem keys_mapAddOrUpdate (headers : HttpHeaders) (name value : Bytes) :
    (headers.mapAddOrUpdate name value).keys =
      if name ∈ headers.keys then headers.keys else headers.keys ++ [name] := by
  rw [HttpHeaders.mapAddOrUpdate_eq]
  split
  case isTrue => exact Map.AssocList.keys_update headers name value
  case isFalse => exact Map.AssocList.keys_insert headers name value

theorem collection_append (accepted : List Accepted) (c : Accepted) :
    collection (accepted ++ [c]) = record (collection accepted) c :=
  List.foldl_append

theorem nodup_record (h : headers.keys.Nodup) (c : Accepted) : (record headers c).keys.Nodup := by
  rw [record, HttpHeaders.mapAddOrUpdate_eq]
  split
  case isTrue =>
    rw [Map.AssocList.keys_update]
    exact h
  case isFalse hnew => exact Map.AssocList.nodup_insert h hnew _

theorem collection_names (accepted : List Accepted) :
    (collection accepted).keys = (accepted.map Accepted.name).eraseDups := by
  induction accepted using List.reverseRecOn with
  | nil => rfl
  | append_singleton accepted c ih =>
    have hmem : c.name ∈ (collection accepted).keys ↔ c.name ∈ accepted.map Accepted.name := by
      rw [ih]
      exact List.mem_eraseDups
    have hlast : ([c.name].removeAll (accepted.map Accepted.name)).eraseDups =
        if c.name ∈ accepted.map Accepted.name then [] else [c.name] := by
      rw [List.cons_removeAll, List.nil_removeAll, List.contains_eq_mem]
      by_cases hold : c.name ∈ accepted.map Accepted.name
      · rw [decide_eq_true hold, if_pos hold]
        rfl
      · rw [decide_eq_false hold, if_neg hold]
        rfl
    rw [collection_append, record, keys_mapAddOrUpdate, List.map_append, List.map_singleton,
      List.eraseDups_append, hlast]
    by_cases hold : c.name ∈ accepted.map Accepted.name
    · rw [if_pos (hmem.2 hold), if_pos hold, List.append_nil, ih]
    · rw [if_neg fun h => hold (hmem.1 h), if_neg hold, ih]

theorem collection_law (accepted : List Accepted) : CollectionLaw accepted where
  names := collection_names accepted
  distinct := by
    induction accepted using List.reverseRecOn with
    | nil => exact List.nodup_nil
    | append_singleton accepted c ih =>
      rw [collection_append]
      exact nodup_record ih c
  valid := by
    intro name hname
    rw [collection_names, List.mem_eraseDups] at hname
    obtain ⟨c, -, rfl⟩ := List.mem_map.1 hname
    exact c.valid
  values := by
    intro c key
    rw [collection_append, record, lookup_mapAddOrUpdate]
    split_ifs with hkey
    · rw [hkey]
    · rfl

end

/-! ## What is expected of a call -/

/-- The result of a call that adds or replaces, and the calls that have been accepted then. -/
def accept (accepted : List Accepted) (name value : Option CString) (replace : Bool) :
    HttpHeadersResult × List Accepted :=
  match name, value with
  | some name, some value =>
    if h : name.text.all isNameChar = true then
      (.ok, accepted ++ [{ name := name.text, value := value.text, replace := replace, valid := h }])
    else (.invalidArg, accepted)
  | _, _ => (.invalidArg, accepted)

/-- The answer to a call on a handle with these accepted calls, what they are then, and those of the clone. -/
def HeadersCall.expected (accepted : List Accepted) (clones : Nat) :
    HeadersCall → HeadersAnswer × List Accepted × Option (List Accepted)
  | .addHeaderNameValuePair _ name value =>
    let r := accept accepted name value false
    (.result r.1, r.2, none)
  | .replaceHeaderNameValuePair _ name value =>
    let r := accept accepted name value true
    (.result r.1, r.2, none)
  | .findHeaderValue _ name =>
    (.value (name.bind fun name => (collection accepted).lookup name.text), accepted, none)
  | .getHeaderCount _ given =>
    (if given then .count .ok (some (collection accepted).length) else .count .invalidArg none, accepted, none)
  | .getHeader _ index given =>
    match if given then (collection accepted)[index]? else none with
    | some (name, value) => (.header .ok (some (name ++ ascii ": " ++ value)), accepted, none)
    | none => (.header .invalidArg none, accepted, none)
  | .clone _ => (.handle (some clones), accepted, some accepted)

/-- What a call may answer for which memory has run out. -/
def HeadersCall.OutOfMemory : HeadersCall → HeadersAnswer → Prop
  | .addHeaderNameValuePair .., answer => answer = .result .allocFailed ∨ answer = .result .error
  | .replaceHeaderNameValuePair .., answer => answer = .result .allocFailed
  | .getHeader .., answer => answer = .header .error none
  | .clone .., answer => answer = .handle none
  | _, _ => False

def HeadersAnswer.succeeds : HeadersAnswer → Bool
  | .result r | .count r _ | .header r _ => r == .ok
  | .value text => text.isSome
  | .handle h => h.isSome

/-- What a call comes to: what is expected; or memory has run out and nothing is accepted, of which nothing else
was wrong. -/
inductive Comes (accepted : List Accepted) (c : HeadersCall) (clones : Nat) (failed : Prop) :
    HeadersAnswer → List Accepted → Option (List Accepted) → Prop
  | expected {answer : HeadersAnswer} {accepted' : List Accepted} {clone : Option (List Accepted)}
      (h : c.expected accepted clones = (answer, accepted', clone)) :
      Comes accepted c clones failed answer accepted' clone
  | outOfMemory {answer : HeadersAnswer} (hfailed : failed) (hmemory : c.OutOfMemory answer)
      (hok : (c.expected accepted clones).1.succeeds = true) : Comes accepted c clones failed answer accepted none

/-! ## The calls on the heap -/

/-- A string as a caller or an allocation can have it. -/
structure Plain (text : Bytes) : Prop where
  noNul : 0 ∉ text
  fits : text.length < ptrdiffMax

def AllPlain (headers : HttpHeaders) : Prop :=
  ∀ e ∈ headers, Plain e.1 ∧ Plain e.2

section

variable {h : Heap Bytes} {d : MapHandleData} {l : HttpHeaders} {first second name value : Bytes}
  {c c' : UInt8}

theorem plain_of_cString (t : CString) : Plain t.text :=
  ⟨t.noNul, t.fits⟩

theorem Plain.dropWhile (hvalue : Plain value) (p : UInt8 → Bool) : Plain (value.dropWhile p) where
  noNul hmem := hvalue.noNul ((List.dropWhile_sublist p).subset hmem)
  fits := Nat.lt_of_le_of_lt (List.dropWhile_sublist p).length_le hvalue.fits

theorem writeAll_meets {block : Block UInt8} {characters : Bytes}
    (hroom : block.written.length + characters.length ≤ block.capacity)
    {Q : Block UInt8 → Heap Bytes → Prop} (hQ : Q (block.extend characters hroom) h) :
    Meets (writeAll block characters) h Q := by
  refine ⟨_, _, ?_, hQ⟩
  rw [writeAll, Block.putAll_eq block characters hroom]
  rfl

theorem mallocJoined_meets (hfirst : Plain first) (hsecond : Plain second) (hc : c ≠ 0) (hc' : c' ≠ 0) :
    Meets (mallocJoined first c c' second) h fun r h' =>
      (r = none ∧ h' = h.refused) ∨ ∃ block, r = some block ∧ h' = h.allocated ∧
        cString block.written = first ++ [c, c'] ++ second ∧ Plain (first ++ [c, c'] ++ second) := by
  have hsize : addSizeT (addSizeT (addSizeT first.length 2) second.length) 1 =
      first.length + 2 + second.length + 1 := by
    have hfits₁ := hfirst.fits
    have hfits₂ := hsecond.fits
    unfold ptrdiffMax at hfits₁ hfits₂
    have htwo : addSizeT first.length 2 = first.length + 2 := addSizeT_of_le (by unfold sizeMax; omega)
    have hboth : addSizeT (first.length + 2) second.length = first.length + 2 + second.length :=
      addSizeT_of_le (by unfold sizeMax; omega)
    rw [htwo, hboth, addSizeT_of_le (by unfold sizeMax; omega)]
  have hnul : 0 ∉ first ++ [c, c'] ++ second := by
    simp only [List.mem_append, List.mem_cons, List.not_mem_nil, or_false, not_or]
    exact ⟨⟨hfirst.noNul, hc.symm, hc'.symm⟩, hsecond.noNul⟩
  rw [mallocJoined, hsize]
  apply Meets.bind
  apply meets_allocateUpTo
  case hno => exact fun _ => meets_pure (.inl ⟨rfl, rfl⟩)
  case hyes =>
    intro hgrants
    have hle := Heap.le_of_grants hgrants
    rw [if_pos rfl]
    apply Meets.bind
    apply writeAll_meets
    case hroom =>
      rw [Block.allocate_written, Block.allocate_capacity, List.length_nil]
      omega
    apply Meets.bind
    apply writeAll_meets
    case hroom =>
      simp only [Block.extend_written, Block.extend_capacity, Block.allocate_written, Block.allocate_capacity,
        List.nil_append, List.length_singleton]
      omega
    apply Meets.bind
    apply writeAll_meets
    case hroom =>
      simp only [Block.extend_written, Block.extend_capacity, Block.allocate_written, Block.allocate_capacity,
        List.nil_append, List.length_append, List.length_singleton]
      omega
    apply Meets.bind
    apply writeAll_meets
    case hroom =>
      simp only [Block.extend_written, Block.extend_capacity, Block.allocate_written, Block.allocate_capacity,
        List.nil_append, List.length_append, List.length_singleton]
      omega
    refine meets_pure (.inr ⟨_, rfl, rfl, ?_, hnul, ?_⟩)
    · simp only [Block.extend_written, Block.allocate_written, List.nil_append]
      have hwritten : first ++ [c] ++ [c'] ++ (second ++ [0]) = (first ++ [c, c'] ++ second) ++ [0] := by
        simp only [List.append_assoc, List.cons_append, List.nil_append]
      rw [hwritten, cString_append hnul]
      exact List.append_nil _
    · simp only [List.length_append, List.length_cons, List.length_nil]
      omega

/-- A call on `d` has left `d'`, which holds these headers. -/
structure Recorded (h h' : Heap Bytes) (d d' : MapHandleData) (l' : HttpHeaders) : Prop where
  represents : Represents h' d' l'
  changed : Changed h h' d d'
  plain : AllPlain l'

theorem plain_lookup (hl : AllPlain l) {old : Bytes} (hold : l.lookup name = some old) : Plain old := by
  obtain ⟨front, back, heq, -⟩ := List.lookup_eq_some_iff.1 hold
  have hmem : (name, old) ∈ l := by
    rw [heq]
    exact List.mem_append_right _ (List.mem_cons_self ..)
  exact (hl _ hmem).2

theorem allPlain_mapAddOrUpdate (hl : AllPlain l) (hname : Plain name) (hvalue : Plain value) :
    AllPlain (l.mapAddOrUpdate name value) := by
  intro e he
  rw [HttpHeaders.mapAddOrUpdate_eq] at he
  split_ifs at he with hmem
  · obtain ⟨e', he', rfl⟩ := List.mem_map.1 he
    split_ifs with heq
    · exact ⟨hname, hvalue⟩
    · exact hl e' he'
  · rcases List.mem_append.1 he with he | he
    · exact hl e he
    · rw [List.mem_singleton.1 he]
      exact ⟨hname, hvalue⟩

theorem store_meets (hd : Represents h d l) (hl : AllPlain l) (hname : Plain name) (hvalue : Plain value) :
    Meets (Map.Storage.mapAddOrUpdate d (some name) (some value)) h fun r h' =>
      (r.1 = .mapOk ∧ Recorded h h' d r.2 (l.mapAddOrUpdate name value)) ∨
        (r.1 ≠ .mapOk ∧ h.failures < h'.failures ∧ Recorded h h' d r.2 l) := by
  refine (mapAddOrUpdate_meets hd name value).mono ?_
  rintro ⟨result, d'⟩ h' ⟨l', hrepresents, hchanged, hagrees⟩
  have hstored : (if name ∈ l.keys then (Map.MapResult.mapOk, l.update name value)
      else (.mapOk, l.insert name value)) = (.mapOk, l.mapAddOrUpdate name value) := by
    rw [HttpHeaders.mapAddOrUpdate_eq]
    split_ifs with hmem
    · rfl
    · rfl
  rw [hstored] at hagrees
  rcases hagrees with heq | ⟨hfailed, hresult, rfl⟩
  · cases heq
    exact .inl ⟨rfl, hrepresents, hchanged, allPlain_mapAddOrUpdate hl hname hvalue⟩
  · dsimp only at hresult
    subst hresult
    exact .inr ⟨nofun, hfailed, hrepresents, hchanged, hl⟩

theorem Recorded.after {h₁ h' : Heap Bytes} {d' : MapHandleData} {l' : HttpHeaders}
    (hr : Recorded h₁ h' d d' l') (hcells : Untouched h h₁) : Recorded h h' d d' l' where
  represents := hr.represents
  changed := {
    kept := by
      intro p v hp hv
      rw [← hcells.cell] at hv
      exact hr.changed.kept p v hp hv
    new := by
      intro p hp
      rw [← hcells.cell]
      exact hr.changed.new p hp
    failures := Nat.le_trans hcells.failures hr.changed.failures
    shrinkFailures := Nat.le_trans hcells.shrinkFailures hr.changed.shrinkFailures }
  plain := hr.plain

theorem Recorded.untouched {h' : Heap Bytes} (hd : Represents h d l) (hl : AllPlain l) (hcells : Untouched h h') :
    Recorded h h' d d l :=
  ⟨hd.untouched hcells, hcells.changed rfl, hl⟩

end

section

variable {h : Heap Bytes} {d : MapHandleData} {accepted : List Accepted} {replace : Bool}

/-- What a call that adds or replaces comes to. -/
structure Adds (h h' : Heap Bytes) (d : MapHandleData) (accepted : List Accepted) (name value : Option CString)
    (replace : Bool) (r : HttpHeadersResult × MapHandleData) (accepted' : List Accepted) : Prop where
  recorded : Recorded h h' d r.2 (collection accepted')
  agrees : (r.1, accepted') = accept accepted name value replace ∨
    h.failures < h'.failures ∧ accepted' = accepted ∧ (accept accepted name value replace).1 = .ok ∧
      (r.1 = .allocFailed ∨ r.1 = .error ∧ replace = false)

theorem accept_valid {name value : CString} (hvalid : name.text.all isNameChar = true) :
    accept accepted (some name) (some value) replace =
      (.ok, accepted ++ [{ name := name.text, value := value.text, replace := replace, valid := hvalid }]) :=
  dif_pos hvalid

theorem storeValue_meets {h₁ : Heap Bytes} {name value : CString} (hvalid : name.text.all isNameChar = true)
    (hd : Represents h₁ d (collection accepted)) (hl : AllPlain (collection accepted))
    (hcells : Untouched h h₁) {stored : Bytes} (hplain : Plain stored)
    (hstored : stored = Accepted.stored
      { name := name.text, value := value.text, replace := replace, valid := hvalid }
      ((collection accepted).lookup name.text))
    {code : HttpHeadersResult} (hcode : code = .allocFailed ∨ code = .error ∧ replace = false) :
    Meets (do
      let r ← Map.Storage.mapAddOrUpdate d (some name.text) (some stored)
      if r.1 ≠ .mapOk then pure (code, r.2) else pure (.ok, r.2)) h₁ fun r h' =>
      ∃ accepted', Adds h h' d accepted (some name) (some value) replace r accepted' := by
  have haccept := @accept_valid accepted replace name value hvalid
  apply Meets.bind
  refine (store_meets hd hl (plain_of_cString name) hplain).mono ?_
  rintro ⟨result, d'⟩ h' (⟨hok, hrecorded⟩ | ⟨herror, hfailed, hrecorded⟩)
  · dsimp only at hok
    rw [if_neg (not_not.2 hok)]
    refine meets_pure ⟨_, ?_, .inl haccept.symm⟩
    rw [collection_append, record, ← hstored]
    exact hrecorded.after hcells
  · rw [if_pos herror]
    refine meets_pure ⟨accepted, hrecorded.after hcells, .inr ⟨?_, rfl, congrArg Prod.fst haccept, hcode⟩⟩
    exact Nat.lt_of_le_of_lt hcells.failures hfailed

theorem headersReplace_meets (hd : Represents h d (collection accepted)) (hl : AllPlain (collection accepted))
    (name value : Option CString) (replace : Bool) :
    Meets (headersReplaceHeaderNameValuePair d name value replace) h fun r h' =>
      ∃ accepted', Adds h h' d accepted name value replace r accepted' := by
  have hsame := Recorded.untouched hd hl (Untouched.refl h)
  rcases name with _ | name
  case none => exact meets_pure ⟨accepted, hsame, .inl rfl⟩
  rcases value with _ | value
  case none => exact meets_pure ⟨accepted, hsame, .inl rfl⟩
  rw [headersReplaceHeaderNameValuePair]
  by_cases hvalid : name.text.all isNameChar = true
  case neg =>
    rw [if_pos (Bool.not_eq_true _ ▸ hvalid)]
    have hreject : accept accepted (some name) (some value) replace = (.invalidArg, accepted) := dif_neg hvalid
    exact meets_pure ⟨accepted, hsame, .inl hreject.symm⟩
  case pos =>
    have hvalue := (plain_of_cString value).dropWhile isLws
    rw [if_neg (Bool.not_eq_false _ ▸ hvalid)]
    apply Meets.bind
    refine (mapGetValueFromKey_meets hd name.text).mono ?_
    rintro p h₀ ⟨rfl, ⟨rfl, hnone⟩ | ⟨old, hcell, hold⟩⟩
    case inl =>
      rw [if_neg fun h => h.2 rfl]
      apply storeValue_meets hvalid hd hl (Untouched.refl _) hvalue _ (.inl rfl)
      rw [hnone]
      rfl
    case inr =>
      cases replace with
      | true =>
        rw [if_neg fun h => Bool.noConfusion h.1]
        apply storeValue_meets hvalid hd hl (Untouched.refl _) hvalue _ (.inl rfl)
        rw [hold]
        rfl
      | false =>
        obtain ⟨a, rfl⟩ := address_of_cell hcell
        rw [if_pos ⟨rfl, nofun⟩]
        apply Meets.bind
        apply meets_read hcell
        apply Meets.bind
        refine (mallocJoined_meets (plain_lookup hl hold) hvalue (by decide) (by decide)).mono ?_
        rintro r h₁ (⟨rfl, rfl⟩ | ⟨block, rfl, rfl, htext, hplain⟩)
        · refine meets_pure ⟨accepted, .untouched hd hl (untouched_refused _), .inr ⟨?_, rfl, ?_, .inl rfl⟩⟩
          · exact Nat.lt_succ_self _
          · exact congrArg Prod.fst (accept_valid hvalid)
        · have hcells := untouched_allocated h₀
          dsimp only
          rw [htext]
          apply storeValue_meets hvalid (hd.untouched hcells) hl hcells hplain _ (.inr ⟨rfl, rfl⟩)
          rw [hold]
          rfl

end

section

variable {h : Heap Bytes} {d : MapHandleData} {l : HttpHeaders} {accepted : List Accepted} {name value : Bytes}

theorem entry_slots (hd : Represents h d l) {index : Nat} (hentry : l[index]? = some (name, value)) :
    ∃ k v, (d.keys.getD [])[index]? = some k ∧ h.cell k = some name ∧
      (d.values.getD [])[index]? = some v ∧ h.cell v = some value := by
  have hname : l.keys[index]? = some name := by
    rw [Map.AssocList.keys, List.getElem?_map, hentry]
    rfl
  obtain ⟨-, k, v, hk, hv, hk', hv'⟩ := hd.slot hname
  have hkeys := congrArg (fun cells => cells[index]?) hd.keys
  have hvalues := congrArg (fun cells => cells[index]?) hd.values
  simp only [List.getElem?_map, hk, hv, hentry, Option.map_some, Option.some.injEq] at hkeys hvalues
  exact ⟨k, v, hk', hkeys, hv', hvalues⟩

theorem getHeader_meets (hd : Represents h d (collection accepted)) (hl : AllPlain (collection accepted))
    (index : Nat) :
    Meets (httpHeadersGetHeader d index true) h fun r h' => Untouched h h' ∧
      (((collection accepted)[index]? = none ∧ r = (.invalidArg, none)) ∨
        ∃ name value, (collection accepted)[index]? = some (name, value) ∧
          ((∃ destination, r = (.ok, some destination) ∧
            cString destination.written = name ++ ascii ": " ++ value) ∨
          (r = (.error, none) ∧ h.failures < h'.failures))) := by
  have hinternals : mapGetInternals d true = (.mapOk, some (d.keys, d.values, d.count)) := rfl
  rw [httpHeadersGetHeader, if_neg fun h => Bool.noConfusion h, hinternals]
  dsimp only
  rw [hd.count]
  by_cases hindex : index ≥ (collection accepted).length
  · rw [if_pos hindex]
    exact meets_pure ⟨.refl h, .inl ⟨List.getElem?_eq_none hindex, rfl⟩⟩
  · rw [if_neg hindex]
    obtain ⟨⟨name, value⟩, hentry⟩ : ∃ e, (collection accepted)[index]? = some e :=
      ⟨_, List.getElem?_eq_getElem (Nat.lt_of_not_le hindex)⟩
    obtain ⟨k, v, hk, hname, hv, hvalue⟩ := entry_slots hd hentry
    obtain ⟨hplainName, hplainValue⟩ := hl _ (List.mem_of_getElem? hentry)
    apply Meets.bind
    apply meets_readAt hk
    apply Meets.bind
    apply meets_read hname
    apply Meets.bind
    apply meets_readAt hv
    apply Meets.bind
    apply meets_read hvalue
    apply Meets.bind
    refine (mallocJoined_meets hplainName hplainValue (by decide) (by decide)).mono ?_
    rintro r h₁ (⟨rfl, rfl⟩ | ⟨block, rfl, rfl, htext, -⟩)
    · exact meets_pure ⟨untouched_refused h, .inr ⟨name, value, hentry, .inr ⟨rfl, Nat.lt_succ_self _⟩⟩⟩
    · exact meets_pure ⟨untouched_allocated h, .inr ⟨name, value, hentry, .inl ⟨block, rfl, htext⟩⟩⟩

theorem clone_meets (hd : Represents h d l) :
    Meets (httpHeadersClone d) h fun r h' => Represents h' d l ∧ Changed h h' d d ∧
      ((r = none ∧ h.failures < h'.failures) ∨ ∃ d', r = some d' ∧ Cloned h h' d (some d') (some l)) := by
  apply Meets.bind
  apply meets_allocate
  case hno =>
    have hcells := untouched_refused h
    exact meets_pure ⟨hd.untouched hcells, hcells.changed rfl, .inl ⟨rfl, Nat.lt_succ_self _⟩⟩
  case hyes =>
    rw [if_pos rfl]
    have hcells := untouched_allocated h
    have hd₁ := hd.untouched hcells
    refine (mapClone_meets hd₁).mono ?_
    rintro r h' ⟨hgrows, hcounted, hcloned⟩
    have hgrows' := hcells.grows.trans hgrows
    refine ⟨hd₁.grows hgrows hcounted.shrinkFailures,
      hgrows'.changed (fun p hp => .inl hp) hcounted.failures hcounted.shrinkFailures, ?_⟩
    refine hcloned.imp_right ?_
    rintro ⟨d', rfl, hrepresents, hnew⟩
    exact ⟨d', rfl, .some hrepresents fun p hp => ⟨hnew p hp, notMem_of_dead hd (hnew p hp)⟩⟩

theorem effect_untouched {h' : Heap Bytes} (hd : Represents h d l) (hcells : Untouched h h') :
    Effect h h' d d none l none :=
  ⟨hd.untouched hcells, hcells.changed rfl, .none⟩

theorem Adds.comes {h' : Heap Bytes} {name value : Option CString} {replace : Bool}
    {r : HttpHeadersResult × MapHandleData} {accepted' : List Accepted}
    (hadds : Adds h h' d accepted name value replace r accepted') {c : HeadersCall} {clones : Nat}
    (hc : c.expected accepted clones =
      (.result (accept accepted name value replace).1, (accept accepted name value replace).2, none))
    (hmemory : r.1 = .allocFailed ∨ r.1 = .error ∧ replace = false → c.OutOfMemory (.result r.1)) :
    Effect h h' d r.2 none (collection accepted') none ∧ AllPlain (collection accepted') ∧
      Comes accepted c clones (h.failures < h'.failures) (.result r.1) accepted' none := by
  obtain ⟨⟨hrepresents, hchanged, hplain⟩, hagrees⟩ := hadds
  refine ⟨⟨hrepresents, hchanged, .none⟩, hplain, ?_⟩
  rcases hagrees with heq | ⟨hfailed, rfl, hok, hcode⟩
  · apply Comes.expected
    rw [hc, ← heq]
  · apply Comes.outOfMemory hfailed (hmemory hcode)
    rw [hc, hok]
    rfl

theorem perform_comes (hd : Represents h d (collection accepted)) (hl : AllPlain (collection accepted))
    (c : HeadersCall) (clones : Nat) :
    Meets (c.perform d clones) h fun r h' => ∃ accepted' clone,
      Effect h h' d r.2.1 r.2.2 (collection accepted') (clone.map collection) ∧ AllPlain (collection accepted') ∧
        (∀ calls, clone = some calls → calls = accepted) ∧
          Comes accepted c clones (h.failures < h'.failures) r.1 accepted' clone := by
  have hread := effect_untouched hd (Untouched.refl h)
  cases c with
  | addHeaderNameValuePair handle name value =>
    apply Meets.bind
    refine (headersReplace_meets hd hl name value false).mono ?_
    rintro r h' ⟨accepted', hadds⟩
    obtain ⟨heffect, hplain, hcomes⟩ := @Adds.comes _ _ _ _ _ _ _ _ _ hadds
      (.addHeaderNameValuePair handle name value) clones rfl fun hcode =>
        hcode.imp (congrArg HeadersAnswer.result) fun herror => congrArg HeadersAnswer.result herror.1
    exact meets_pure ⟨accepted', none, heffect, hplain, nofun, hcomes⟩
  | replaceHeaderNameValuePair handle name value =>
    apply Meets.bind
    refine (headersReplace_meets hd hl name value true).mono ?_
    rintro r h' ⟨accepted', hadds⟩
    obtain ⟨heffect, hplain, hcomes⟩ := @Adds.comes _ _ _ _ _ _ _ _ _ hadds
      (.replaceHeaderNameValuePair handle name value) clones rfl fun hcode =>
        congrArg HeadersAnswer.result (hcode.resolve_right fun herror => Bool.noConfusion herror.2)
    exact meets_pure ⟨accepted', none, heffect, hplain, nofun, hcomes⟩
  | findHeaderValue handle name =>
    apply Meets.bind
    cases name with
    | none => exact meets_pure (meets_pure ⟨accepted, none, hread, hl, nofun, .expected rfl⟩)
    | some name =>
      refine (mapGetValueFromKey_meets hd name.text).mono ?_
      rintro p h₀ ⟨rfl, ⟨rfl, hlookup⟩ | ⟨text, htext, hlookup⟩⟩
      · refine meets_pure ⟨accepted, none, hread, hl, nofun, .expected ?_⟩
        rw [HeadersCall.expected, Option.bind_some, hlookup]
      · obtain ⟨a, rfl⟩ := address_of_cell htext
        rw [if_neg nofun]
        apply Meets.bind
        apply meets_read htext
        refine meets_pure ⟨accepted, none, hread, hl, nofun, .expected ?_⟩
        rw [HeadersCall.expected, Option.bind_some, hlookup]
  | getHeaderCount handle given =>
    refine meets_pure ⟨accepted, none, hread, hl, nofun, .expected ?_⟩
    cases given with
    | false => rfl
    | true =>
      have hcount : httpHeadersGetHeaderCount d true = (.ok, some d.count) := rfl
      rw [HeadersCall.expected, hcount, hd.count]
      rfl
  | getHeader handle index given =>
    apply Meets.bind
    cases given with
    | false => exact meets_pure (meets_pure ⟨accepted, none, hread, hl, nofun, .expected rfl⟩)
    | true =>
      refine (getHeader_meets hd hl index).mono ?_
      rintro r h' ⟨hcells, ⟨hnone, rfl⟩ | ⟨name, value, hentry, hfound⟩⟩
      · refine meets_pure ⟨accepted, none, effect_untouched hd hcells, hl, nofun, .expected ?_⟩
        rw [HeadersCall.expected, if_pos rfl, hnone]
        rfl
      · have hexpected : (HeadersCall.getHeader handle index true).expected accepted clones =
            (.header .ok (some (name ++ ascii ": " ++ value)), accepted, none) := by
          rw [HeadersCall.expected, if_pos rfl, hentry]
        refine meets_pure ⟨accepted, none, effect_untouched hd hcells, hl, nofun, ?_⟩
        rcases hfound with ⟨destination, rfl, htext⟩ | ⟨rfl, hfailed⟩
        · apply Comes.expected
          rw [hexpected, ← htext]
          rfl
        · refine @Comes.outOfMemory accepted (.getHeader handle index true) clones _ (.header .error none)
            hfailed rfl ?_
          rw [hexpected]
          rfl
  | clone handle =>
    apply Meets.bind
    refine (clone_meets hd).mono ?_
    rintro r h' ⟨hrepresents, hchanged, ⟨rfl, hfailed⟩ | ⟨d', rfl, hcloned⟩⟩
    · refine meets_pure ⟨accepted, none, ⟨hrepresents, hchanged, .none⟩, hl, nofun, ?_⟩
      exact @Comes.outOfMemory accepted (.clone handle) clones _ (.handle none) hfailed rfl rfl
    · refine meets_pure ⟨accepted, some accepted, ⟨hrepresents, hchanged, hcloned⟩, hl, ?_, .expected rfl⟩
      exact fun calls heq => (Option.some.inj heq).symm

end

/-! ## Runs -/

/-- The maps hold the collections of the accepted calls, and after every call they hold those of what the call
comes to; the calls on the other handles stay as they are, and a clone starts with the calls of its original. -/
def Refines : Maps → List (List Accepted) → List HeadersCall → Prop
  | s, accepted, [] => Agree s (accepted.map collection)
  | s, accepted, c :: calls =>
    Agree s (accepted.map collection) ∧
      match accepted[c.handle]? with
      | none => headersCall s c = some (c.nullAnswer, s) ∧ Refines s accepted calls
      | some mine => ∃ answer s' mine' clone, headersCall s c = some (answer, s') ∧
          Comes mine c accepted.length (s.heap.failures < s'.heap.failures) answer mine' clone ∧
            Refines s' (accepted.set c.handle mine' ++ clone.toList) calls

section

variable {s : Maps} {accepted : List (List Accepted)}

theorem refines_of_agree (hs : Agree s (accepted.map collection))
    (hplain : ∀ mine ∈ accepted, AllPlain (collection mine)) (calls : List HeadersCall) :
    Refines s accepted calls := by
  induction calls generalizing s accepted with
  | nil => exact hs
  | cons c calls ih =>
    refine ⟨hs, ?_⟩
    have hlength : s.maps.length = accepted.length := hs.length.trans (List.length_map _)
    cases hmine : accepted[c.handle]? with
    | none =>
      have hnone : s.maps[c.handle]? = none := by
        rw [List.getElem?_eq_none_iff] at hmine ⊢
        rwa [hlength]
      refine ⟨?_, ih hs hplain⟩
      rw [headersCall, hnone]
    | some mine =>
      have hlt := (List.getElem?_eq_some_iff.1 hmine).1
      rw [← hlength] at hlt
      have hd := List.getElem?_eq_getElem hlt
      have hcollection : (accepted.map collection)[c.handle]? = some (collection mine) := by
        rw [List.getElem?_map, hmine]
        rfl
      have hl := hplain mine (List.mem_of_getElem? hmine)
      obtain ⟨r, h', hrun, mine', clone, heffect, hl', hclone, hcomes⟩ :=
        perform_comes (hs.represents c.handle _ _ hd hcollection) hl c s.maps.length
      rw [hlength] at hcomes
      refine ⟨r.1, { heap := h', maps := s.maps.set c.handle r.2.1 ++ r.2.2.toList }, mine', clone, ?_,
        hcomes, ih ?_ ?_⟩
      · simp only [headersCall, hd, hrun]
      · have hagree := hs.effect hd hcollection heffect
        rw [List.map_append, List.map_set]
        cases clone with
        | none => exact hagree
        | some calls => exact hagree
      · intro calls hcalls
        rcases List.mem_append.1 hcalls with hmem | hmem
        · rcases List.mem_or_eq_of_mem_set hmem with hmem | rfl
          · exact hplain calls hmem
          · exact hl'
        · rw [hclone calls (Option.mem_toList.1 hmem)]
          exact hl

/-- Every run of calls on a handle of `HTTPHeaders_Alloc`, its clones and their clones, whichever allocations
fail; and what the fold of accepted calls is. -/
theorem httpHeaders_fold (outcomes : List Bool) (calls : List HeadersCall) :
    Refines (Maps.created outcomes) [[]] calls ∧ ∀ accepted, CollectionLaw accepted := by
  refine ⟨refines_of_agree ?_ ?_ calls, collection_law⟩
  · exact Map.Storage.agree_created outcomes
  · intro mine hmine e he
    rw [List.mem_singleton.1 hmine] at he
    cases he

end

end Stored
end SharedUtility.HttpHeaders
