import SharedUtility.ConnectionStringParser.Segments

/-!
# RoundTrip — the text of a list of pairs

`connectionString` joins pairs; `parse_connectionString` says that the parser takes them apart again, and
that it takes no list in which a key comes twice.
-/

namespace SharedUtility.ConnectionStringParser

/-- The text `k1=v1;…;kn=vn`. -/
def connectionString (pairs : List (Bytes × Bytes)) : Bytes :=
  List.intercalate [0x3B] (pairs.map fun pair => pair.1 ++ 0x3D :: pair.2)

/-- A key of neither `=` nor `;`, and a value without `;`; none of the two is empty. -/
structure WellFormed (pair : Bytes × Bytes) : Prop where
  key_ne : pair.1 ≠ []
  key_equals : 0x3D ∉ pair.1
  key_semicolon : 0x3B ∉ pair.1
  value_ne : pair.2 ≠ []
  value_semicolon : 0x3B ∉ pair.2

def mapOfPairs (pairs : List (Bytes × Bytes)) : Map.MapHandleData where
  keys := pairs.map fun pair => some pair.1
  values := pairs.map fun pair => some pair.2
  mapFilterCallback := none

section

variable {pair : Bytes × Bytes} {pairs : List (Bytes × Bytes)} {final : Bytes}

/-- The round in which a pair is read. -/
def roundOf (pair : Bytes × Bytes) (h : WellFormed pair) : Round where
  equals := 0
  key := pair.1
  semicolons := 0
  value := pair.2
  key_token := ⟨h.key_ne, h.key_equals⟩
  value_token := ⟨h.value_ne, h.value_semicolon⟩

def roundsOf (pairs : List (Bytes × Bytes)) (h : ∀ pair ∈ pairs, WellFormed pair) : List Round :=
  pairs.pmap roundOf h

theorem mapOf_roundsOf (h : ∀ pair ∈ pairs, WellFormed pair) :
    mapOf (roundsOf pairs h) = mapOfPairs pairs := by
  simp [mapOf, mapOfPairs, roundsOf, List.map_pmap, roundOf]

theorem keys_roundsOf (h : ∀ pair ∈ pairs, WellFormed pair) :
    (roundsOf pairs h).map Round.key = pairs.map Prod.fst := by
  simp [roundsOf, List.map_pmap, roundOf]

/-- What is left to read of pairs: their text and the final semicolon, where there is one. -/
def remaining (pairs : List (Bytes × Bytes)) (final : Bytes) : Bytes :=
  if pairs = [] then [] else connectionString pairs ++ final

theorem connectionString_cons (pair : Bytes × Bytes) (pairs : List (Bytes × Bytes)) :
    connectionString (pair :: pairs) =
      pair.1 ++ 0x3D :: pair.2 ++ (if pairs = [] then [] else 0x3B :: connectionString pairs) := by
  cases pairs with
  | nil => simp [connectionString]
  | cons next pairs => simp [connectionString, List.intercalate]

theorem remaining_cons (pairs : List (Bytes × Bytes)) (h : WellFormed pair)
    (hfinal : final = [] ∨ final = [0x3B]) :
    ∃ behind, remaining (pair :: pairs) final = (roundOf pair h).text ++ behind ∧
      EndsToken 0x3B behind (remaining pairs final) := by
  cases pairs with
  | nil =>
    refine ⟨final, ?_, ?_⟩
    · simp [remaining, connectionString_cons, Round.text, roundOf]
    · rcases hfinal with rfl | rfl
      · exact .inr ⟨rfl, rfl⟩
      · exact .inl rfl
  | cons next pairs =>
    refine ⟨0x3B :: remaining (next :: pairs) final, ?_, .inl rfl⟩
    rw [remaining, if_neg (List.cons_ne_nil _ _), connectionString_cons,
      if_neg (List.cons_ne_nil _ _), remaining, if_neg (List.cons_ne_nil _ _)]
    simp [Round.text, roundOf]

theorem loop_remaining (h : ∀ pair ∈ pairs, WellFormed pair)
    (hfinal : final = [] ∨ final = [0x3B]) {n : Nat} {done : List Round}
    (hdone : (done.map Round.key).Nodup) :
    connectionstringparserParseLoop (fun _ => {}) n (remaining pairs final) (mapOf done) =
      if ((done ++ roundsOf pairs h).map Round.key).Nodup then some (mapOf (done ++ roundsOf pairs h))
      else none := by
  induction pairs generalizing n done with
  | nil =>
    have hnil : roundsOf [] h = [] := rfl
    rw [hnil, List.append_nil, if_pos hdone]
    exact loop_ends (getNextToken_none nofun)
  | cons pair pairs ih =>
    have hpair := h pair (List.mem_cons_self ..)
    have hpairs : ∀ pair ∈ pairs, WellFormed pair := fun pair hmem =>
      h pair (List.mem_cons_of_mem _ hmem)
    rcases remaining_cons pairs hpair hfinal with ⟨behind, htext, hends⟩
    have hrounds : roundsOf (pair :: pairs) h = roundOf pair hpair :: roundsOf pairs hpairs := rfl
    have happend : done ++ roundOf pair hpair :: roundsOf pairs hpairs =
        done ++ [roundOf pair hpair] ++ roundsOf pairs hpairs := by simp
    rw [htext, loop_of_round _ hends, hrounds]
    by_cases hnew : (roundOf pair hpair).key ∉ done.map Round.key
    · have hdone' : ((done ++ [roundOf pair hpair]).map Round.key).Nodup := by
        rw [List.map_append, List.nodup_append]
        refine ⟨hdone, by simp, ?_⟩
        rintro key hmem _ hkey rfl
        rw [List.map_singleton, List.mem_singleton] at hkey
        exact hnew (hkey ▸ hmem)
      rw [if_pos ⟨hnew, rfl⟩, ih hpairs hdone', happend]
    · rw [if_neg fun hboth => hnew hboth.1, if_pos rfl, if_neg]
      -- the key is in the map already
      intro hdistinct
      rw [List.map_append, List.nodup_append] at hdistinct
      exact hdistinct.2.2 _ (not_not.1 hnew) _ (by simp) rfl

theorem parse_eq (text : Bytes) :
    connectionstringparserParse (some text) {} =
      connectionstringparserParseLoop (fun _ => {}) 0 text (mapOf []) := rfl

/-- A text of pairs is parsed into their map, and not at all when a key comes twice. A semicolon may stand
behind the last pair. -/
theorem parse_connectionString (pairs : List (Bytes × Bytes)) (final : Bytes)
    (h : ∀ pair ∈ pairs, WellFormed pair)
    (hfinal : final = [] ∨ (final = [0x3B] ∧ pairs ≠ [])) :
    ((pairs.map Prod.fst).Nodup →
      connectionstringparserParse (some (connectionString pairs ++ final)) {} =
        some (mapOfPairs pairs)) ∧
    (¬ (pairs.map Prod.fst).Nodup →
      connectionstringparserParse (some (connectionString pairs ++ final)) {} = none) := by
  have hremaining : connectionString pairs ++ final = remaining pairs final := by
    rw [remaining]
    split_ifs with hnil
    · subst hnil
      rcases hfinal with rfl | ⟨-, hne⟩
      · rfl
      · exact absurd rfl hne
    · rfl
  have hempty : (([] : List Round).map Round.key).Nodup := List.nodup_nil
  have hloop := loop_remaining (n := 0) h (hfinal.imp_right And.left) hempty
  rw [List.nil_append, keys_roundsOf, mapOf_roundsOf] at hloop
  rw [parse_eq, hremaining, hloop]
  exact ⟨fun hdistinct => if_pos hdistinct, fun htwice => if_neg htwice⟩

/-- A key with a base64 value, and a key that comes twice. -/
theorem parse_base64_value :
    connectionstringparserParse (some (ascii "Key=QQ==;HostName=h;")) {} =
        some (mapOfPairs [(ascii "Key", ascii "QQ=="), (ascii "HostName", ascii "h")]) ∧
      connectionstringparserParse (some (ascii "a=1;a=2")) {} = none := by
  have hfirst := parse_connectionString [(ascii "Key", ascii "QQ=="), (ascii "HostName", ascii "h")]
    [0x3B] (by
      intro pair hmem
      simp only [List.mem_cons, List.not_mem_nil, or_false] at hmem
      rcases hmem with rfl | rfl
      all_goals exact ⟨by decide, by decide, by decide, by decide, by decide⟩)
    (.inr ⟨rfl, List.cons_ne_nil _ _⟩)
  have hsecond := parse_connectionString [(ascii "a", ascii "1"), (ascii "a", ascii "2")] [] (by
      intro pair hmem
      simp only [List.mem_cons, List.not_mem_nil, or_false] at hmem
      rcases hmem with rfl | rfl
      all_goals exact ⟨by decide, by decide, by decide, by decide, by decide⟩) (.inl rfl)
  exact ⟨hfirst.1 (by decide), hsecond.2 (by decide)⟩

/-- For no pairs the final semicolon is no text of the map without pairs: it is read as a key. -/
theorem parse_lone_semicolon :
    connectionstringparserParse (some (connectionString [] ++ [0x3B])) {} = none ∧
      connectionstringparserParse (some (connectionString [] ++ [0x3B])) {} ≠
        some (mapOfPairs []) := by
  have hkey : stringTokenizerGetNextToken [0x3B] (ascii "=") true = (some [0x3B], []) := by
    decide
  have hvalue : (stringTokenizerGetNextToken [] (ascii ";") true).1 = none := by decide
  have hnone : connectionstringparserParse (some (connectionString [] ++ [0x3B])) {} = none :=
    loop_fails hkey hvalue
  refine ⟨hnone, ?_⟩
  rw [hnone]
  exact nofun

end

end SharedUtility.ConnectionStringParser
