import SharedUtility.Map.AssocList

/-!
# HttpHeaders — the storing of headers of `httpheaders.c`

The headers are in a map without a filter, which is an association list (`Map.Refinement`); memory
suffices here.
-/

namespace SharedUtility

abbrev HttpHeaders := Map.AssocList

namespace HttpHeaders

/-- The characters that a header name may have. -/
def isNameChar (c : UInt8) : Bool :=
  33 ≤ c && c ≤ 126 && c != 0x3A

/-- The white space in front of a value. -/
def isLws (c : UInt8) : Bool :=
  c == 0x20 || c == 0x09 || c == 0x0D || c == 0x0A

def mapAddOrUpdate (headers : HttpHeaders) (name value : Bytes) : HttpHeaders :=
  if headers.keys.contains name then headers.update name value else headers.insert name value

/-- `headers_ReplaceHeaderNameValuePair`; `none` stands for `HTTP_HEADERS_INVALID_ARG`. -/
def headersReplaceHeaderNameValuePair (headers : HttpHeaders) (name value : Bytes)
    (replace : Bool) : Option HttpHeaders :=
  if name.all isNameChar = false then none
  else
    let value := value.dropWhile isLws
    match headers.lookup name with
    | some existingValue =>
      if replace then some (mapAddOrUpdate headers name value)
      else some (mapAddOrUpdate headers name (existingValue ++ ascii ", " ++ value))
    | none => some (mapAddOrUpdate headers name value)

/-- `HTTPHeaders_AddHeaderNameValuePair` and what it leaves, for a caller that ignores its result. -/
def addHeaderNameValuePair (headers : HttpHeaders) (name value : Bytes) : HttpHeaders :=
  (headersReplaceHeaderNameValuePair headers name value false).getD headers

/-- `HTTPHeaders_ReplaceHeaderNameValuePair`. -/
def replaceHeaderNameValuePair (headers : HttpHeaders) (name value : Bytes) : Option HttpHeaders :=
  headersReplaceHeaderNameValuePair headers name value true

/-! ## What is added -/

section

variable {headers : HttpHeaders} {name : Bytes}

theorem lookup_update (hname : name ∈ headers.keys) (value key : Bytes) :
    (headers.update name value).lookup key =
      if key = name then some value else headers.lookup key := by
  induction headers with
  | nil => cases hname
  | cons e headers ih =>
    obtain ⟨first, stored⟩ := e
    by_cases hfirst : first = name
    case pos =>
      subst hfirst
      by_cases hkey : key = first
      case pos =>
        subst hkey
        simp [Map.AssocList.update]
      case neg =>
        have hne : (key == first) = false := beq_eq_false_iff_ne.mpr hkey
        by_cases hrest : first ∈ Map.AssocList.keys headers
        case pos =>
          have hrest := ih hrest
          rw [if_neg hkey] at hrest ⊢
          simpa [Map.AssocList.update, List.lookup_cons, hne] using hrest
        case neg =>
          have hsame := Map.AssocList.update_of_notMem hrest value
          rw [if_neg hkey]
          simp only [Map.AssocList.update] at hsame
          simp [Map.AssocList.update, List.lookup_cons, hne, hsame]
    case neg =>
      have hrest : name ∈ Map.AssocList.keys headers := by
        rcases List.mem_cons.mp hname with heq | hmem
        · exact absurd heq.symm hfirst
        · exact hmem
      have hrest := ih hrest
      by_cases hkey : key = first
      case pos =>
        subst hkey
        simp [Map.AssocList.update, hfirst]
      case neg =>
        have hne : (key == first) = false := beq_eq_false_iff_ne.mpr hkey
        simpa [Map.AssocList.update, List.lookup_cons, hfirst, hne] using hrest

theorem mapAddOrUpdate_eq (headers : HttpHeaders) (name value : Bytes) :
    headers.mapAddOrUpdate name value =
      if name ∈ headers.keys then headers.update name value else headers.insert name value :=
  if_congr List.contains_iff_mem rfl rfl

theorem lookup_mapAddOrUpdate (value key : Bytes) :
    (headers.mapAddOrUpdate name value).lookup key =
      if key = name then some value else headers.lookup key := by
  rw [mapAddOrUpdate_eq]
  split
  case isTrue hmem => exact lookup_update hmem value key
  case isFalse hnot =>
    have hnone : headers.lookup name = none := by
      rw [List.lookup_eq_none_iff]
      intro e he
      rw [bne_iff_ne]
      rintro rfl
      exact hnot (List.mem_map_of_mem he)
    rw [Map.AssocList.insert, List.lookup_append]
    by_cases hkey : key = name
    case pos =>
      subst hkey
      rw [hnone]
      simp
    case neg => simp [List.lookup_cons, beq_eq_false_iff_ne.mpr hkey, hkey]

theorem lookup_add (hname : name.all isNameChar = true) (value key : Bytes) :
    (headers.addHeaderNameValuePair name value).lookup key =
      if key = name then
        some (match headers.lookup name with
          | some existingValue => existingValue ++ ascii ", " ++ value.dropWhile isLws
          | none => value.dropWhile isLws)
      else headers.lookup key := by
  unfold addHeaderNameValuePair headersReplaceHeaderNameValuePair
  rw [if_neg (by rw [hname]; decide)]
  cases hlookup : headers.lookup name with
  | none => exact lookup_mapAddOrUpdate _ key
  | some existingValue => exact lookup_mapAddOrUpdate _ key

theorem add_of_invalid (hname : name.all isNameChar = false) (value : Bytes) :
    headers.addHeaderNameValuePair name value = headers := by
  unfold addHeaderNameValuePair headersReplaceHeaderNameValuePair
  rw [if_pos hname]
  rfl

/-- Some header is not in the others, or has a longer value than there. -/
def Longer (headers others : HttpHeaders) : Prop :=
  ∃ key value, headers.lookup key = some value ∧
    ∀ other, others.lookup key = some other → other.length < value.length

theorem Longer.ne {others : HttpHeaders} (h : Longer headers others) : headers ≠ others := by
  rintro rfl
  obtain ⟨key, value, hvalue, hlonger⟩ := h
  exact absurd (hlonger value hvalue) (Nat.lt_irrefl _)

theorem Longer.than_nil {others : HttpHeaders} (h : Longer headers others) : Longer headers [] := by
  obtain ⟨key, value, hvalue, hlonger⟩ := h
  exact ⟨key, value, hvalue, nofun⟩

theorem longer_add (hname : name.all isNameChar = true) (value : Bytes) :
    Longer (headers.addHeaderNameValuePair name value) headers := by
  refine ⟨name, _, (lookup_add hname value name).trans (if_pos rfl), ?_⟩
  intro other hother
  rw [hother]
  simp only [List.length_append]
  have hcomma : (ascii ", ").length = 2 := rfl
  omega

theorem Longer.add {others : HttpHeaders} (h : Longer headers others) (name value : Bytes) :
    Longer (headers.addHeaderNameValuePair name value) others := by
  cases hname : name.all isNameChar with
  | false => rwa [add_of_invalid hname]
  | true =>
    obtain ⟨key, stored, hstored, hlonger⟩ := h
    by_cases hkey : key = name
    case pos =>
      subst hkey
      refine ⟨key, _, (lookup_add hname value key).trans (if_pos rfl), ?_⟩
      intro other hother
      have hless := hlonger other hother
      rw [hstored]
      simp only [List.length_append]
      omega
    case neg =>
      refine ⟨key, stored, ?_, hlonger⟩
      rw [lookup_add hname, if_neg hkey]
      exact hstored

theorem Longer.add_both {others : HttpHeaders} (h : Longer headers others) (name value : Bytes) :
    Longer (headers.addHeaderNameValuePair name value) (others.addHeaderNameValuePair name value) := by
  cases hname : name.all isNameChar with
  | false => rwa [add_of_invalid hname, add_of_invalid hname]
  | true =>
    obtain ⟨key, stored, hstored, hlonger⟩ := h
    by_cases hkey : key = name
    case pos =>
      subst hkey
      refine ⟨key, _, (lookup_add hname value key).trans (if_pos rfl), ?_⟩
      intro other hother
      rw [lookup_add hname, if_pos rfl] at hother
      cases hother
      rw [hstored]
      have hcomma : (ascii ", ").length = 2 := rfl
      cases hlookup : others.lookup key with
      | none =>
        simp only [List.length_append]
        omega
      | some existingValue =>
        have hless := hlonger existingValue hlookup
        simp only [List.length_append]
        omega
    case neg =>
      refine ⟨key, stored, ?_, ?_⟩
      · rw [lookup_add hname, if_neg hkey]
        exact hstored
      · intro other hother
        rw [lookup_add hname, if_neg hkey] at hother
        exact hlonger other hother

end

end HttpHeaders
end SharedUtility
