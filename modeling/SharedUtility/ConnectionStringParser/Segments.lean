import Mathlib.Data.List.TakeWhile
import SharedUtility.ConnectionStringParser.Code

/-!
# Segments — the segments of a connection string

The text is read in rounds of a key and a value, and each of the two tokens skips delimiters before
it (`Reads`).  The map is the one of the segments exactly if nothing has been skipped, no key goes
over a semicolon, and only semicolons are left: `parse_segments_iff`.
-/

namespace SharedUtility.ConnectionStringParser

/-! ## Tokens of one delimiter -/

section

variable {d : UInt8} {token text behind rest : Bytes} {copied : Bool}

def IsToken (d : UInt8) (token : Bytes) : Prop :=
  token ≠ [] ∧ d ∉ token

/-- Behind a token the delimiter and the rest follow, or nothing. -/
def EndsToken (d : UInt8) (behind rest : Bytes) : Prop :=
  behind = d :: rest ∨ (behind = [] ∧ rest = [])

theorem idxOf?_token (h : d ∉ token) (hbehind : EndsToken d behind rest) :
    (token ++ behind).idxOf? d = if behind = [] then none else some token.length := by
  induction token with
  | nil =>
    rcases hbehind with rfl | ⟨rfl, -⟩
    · simp [List.idxOf?_cons]
    · rfl
  | cons c token ih =>
    simp only [List.mem_cons, not_or] at h
    rw [List.cons_append, List.idxOf?_cons, if_neg (by simpa using Ne.symm h.1), ih h.2]
    split
    · rfl
    · rfl

theorem dropWhile_delimiter {n : Nat} (h : IsToken d token) :
    ((List.replicate n d ++ (token ++ behind)).dropWhile fun c => [d].contains c) =
      token ++ behind := by
  rw [List.dropWhile_append_of_pos]
  · cases token with
    | nil => exact absurd rfl h.1
    | cons c token =>
      have hc : c ≠ d := fun heq => h.2 (heq ▸ List.mem_cons_self ..)
      simp [hc]
  · intro c hc
    simp [List.eq_of_mem_replicate hc]

theorem getNextToken_token {n : Nat} (h : IsToken d token) (hbehind : EndsToken d behind rest) :
    stringTokenizerGetNextToken (List.replicate n d ++ (token ++ behind)) [d] true =
      (some token, rest) := by
  have hlength : 0 < token.length := List.length_pos_iff.2 h.1
  unfold stringTokenizerGetNextToken
  rw [if_neg (by simp only [List.length_append]; omega), if_neg (by simp)]
  dsimp only
  rw [dropWhile_delimiter h, if_neg (by simp only [List.length_append]; omega), if_neg (by simp)]
  simp only [List.findSome?_cons, List.findSome?_nil, idxOf?_token h.2 hbehind]
  rcases hbehind with rfl | ⟨rfl, rfl⟩
  · simp
  · simp

theorem getNextToken_uncopied {tokenizer delimiters : Bytes} :
    (stringTokenizerGetNextToken tokenizer delimiters false).1 = none := by
  unfold stringTokenizerGetNextToken
  split
  · rfl
  split
  · rfl
  dsimp only
  split
  · rfl
  · rfl

theorem getNextToken_none (h : ∀ c ∈ text, c = d) :
    (stringTokenizerGetNextToken text [d] copied).1 = none := by
  have hskipped : (text.dropWhile fun c => [d].contains c) = [] := by
    rw [List.dropWhile_eq_nil_iff]
    intro c hc
    simp [h c hc]
  unfold stringTokenizerGetNextToken
  split
  · rfl
  split
  · rfl
  dsimp only
  rw [hskipped, if_pos (by simp)]

theorem token_cases (d : UInt8) (text : Bytes) :
    (∀ c ∈ text, c = d) ∨ ∃ n token behind rest, IsToken d token ∧ EndsToken d behind rest ∧
      text = List.replicate n d ++ (token ++ behind) := by
  induction text with
  | nil => exact .inl nofun
  | cons c text ih =>
    by_cases hc : c = d
    · subst hc
      rcases ih with hall | ⟨n, token, behind, rest, htoken, hbehind, rfl⟩
      · left
        intro c' hc'
        rcases List.mem_cons.1 hc' with rfl | hc'
        · rfl
        · exact hall c' hc'
      · exact .inr ⟨n + 1, token, behind, rest, htoken, hbehind, rfl⟩
    · right
      -- The token starts here, and reaches to the first delimiter.
      by_cases hd : d ∈ text
      · rcases List.eq_append_cons_of_mem hd with ⟨front, rest, rfl, hfront⟩
        refine ⟨0, c :: front, d :: rest, rest, ⟨List.cons_ne_nil _ _, ?_⟩, .inl rfl, rfl⟩
        simp only [List.mem_cons, not_or]
        exact ⟨Ne.symm hc, hfront⟩
      · refine ⟨0, c :: text, [], [], ⟨List.cons_ne_nil _ _, ?_⟩, .inr ⟨rfl, rfl⟩, by simp⟩
        simp only [List.mem_cons, not_or]
        exact ⟨Ne.symm hc, hd⟩

end

/-! ## Rounds -/

/-- A key and a value, and how many delimiters are skipped before each of them. -/
structure Round where
  equals : Nat
  key : Bytes
  semicolons : Nat
  value : Bytes
  key_token : IsToken 0x3D key
  value_token : IsToken 0x3B value

def Round.text (r : Round) : Bytes :=
  List.replicate r.equals 0x3D ++ (r.key ++ 0x3D :: (List.replicate r.semicolons 0x3B ++ r.value))

/-- The text is read in these rounds, and something is left. -/
inductive Reads : (text : Bytes) → List Round → (left : Bytes) → Prop
  | stop (left : Bytes) : Reads left [] left
  | round (r : Round) {behind rest left : Bytes} {rounds : List Round} :
      EndsToken 0x3B behind rest → Reads rest rounds left →
        Reads (r.text ++ behind) (r :: rounds) left

def RoundAllocations.succeed (alloc : RoundAllocations) : Bool :=
  alloc.keyCopied && alloc.valueCopied && alloc.added.keysGrown && alloc.added.valuesGrown &&
    alloc.added.keyCopied && alloc.added.valueCopied

/-- The map after some rounds. -/
def mapOf (rounds : List Round) : Map.MapHandleData :=
  { keys := rounds.map fun r => some r.key
    values := rounds.map fun r => some r.value
    mapFilterCallback := none }

theorem insertNewKeyValue_mapOf {done : List Round} (r : Round) {alloc : Map.Allocations}
    (h : (alloc.keysGrown && alloc.valuesGrown && alloc.keyCopied && alloc.valueCopied) = true) :
    Map.insertNewKeyValue (mapOf done) r.key r.value alloc = (0, mapOf (done ++ [r])) := by
  simp only [Bool.and_eq_true] at h
  simp [Map.insertNewKeyValue, Map.mapIncreaseStorageKeysValues, h, mapOf,
    Map.MapHandleData.count]

theorem insertNewKeyValue_fails {handleData : Map.MapHandleData} {key value : Bytes}
    {alloc : Map.Allocations}
    (h : (alloc.keysGrown && alloc.valuesGrown && alloc.keyCopied && alloc.valueCopied) = false) :
    (Map.insertNewKeyValue handleData key value alloc).1 ≠ 0 := by
  have hfailure : failure ≠ 0 := by decide
  unfold Map.insertNewKeyValue Map.mapIncreaseStorageKeysValues
  by_cases hkeys : alloc.keysGrown = false
  · rw [if_pos hkeys]
    exact hfailure
  rw [if_neg hkeys]
  by_cases hvalues : alloc.valuesGrown = false
  · rw [if_pos hvalues]
    exact hfailure
  rw [if_neg hvalues]
  dsimp only
  by_cases hkey : alloc.keyCopied = false
  · rw [if_pos hkey]
    exact hfailure
  rw [if_neg hkey]
  by_cases hvalue : alloc.valueCopied = false
  · rw [if_pos hvalue]
    exact hfailure
  simp only [Bool.not_eq_false] at hkeys hvalues hkey hvalue
  rw [hkeys, hvalues, hkey, hvalue] at h
  cases h

theorem mapAdd_mapOf {done : List Round} (r : Round) {alloc : Map.Allocations}
    (hkey : r.key ∉ done.map Round.key)
    (h : (alloc.keysGrown && alloc.valuesGrown && alloc.keyCopied && alloc.valueCopied) = true) :
    Map.mapAdd (mapOf done) (some r.key) (some r.value) alloc = (.mapOk, mapOf (done ++ [r])) := by
  have hnew : (Map.findKey (mapOf done) r.key).isSome = false := by
    simpa [Map.findKey, mapOf] using hkey
  have haccepts : (mapOf done).rejects r.key r.value = false := rfl
  simp [Map.mapAdd, hnew, haccepts, insertNewKeyValue_mapOf r h]

theorem mapAdd_fails {done : List Round} (r : Round) {alloc : Map.Allocations}
    (h : r.key ∈ done.map Round.key ∨
      (alloc.keysGrown && alloc.valuesGrown && alloc.keyCopied && alloc.valueCopied) = false) :
    (Map.mapAdd (mapOf done) (some r.key) (some r.value) alloc).1 ≠ .mapOk := by
  by_cases hkey : r.key ∈ done.map Round.key
  · have hfound : (Map.findKey (mapOf done) r.key).isSome = true := by
      simpa [Map.findKey, mapOf] using hkey
    simp [Map.mapAdd, hfound]
  · have hnew : (Map.findKey (mapOf done) r.key).isSome = false := by
      simpa [Map.findKey, mapOf] using hkey
    have haccepts : (mapOf done).rejects r.key r.value = false := rfl
    have hfails : (Map.insertNewKeyValue (mapOf done) r.key r.value alloc).1 ≠ 0 :=
      insertNewKeyValue_fails (h.resolve_left hkey)
    simp [Map.mapAdd, hnew, haccepts, hfails]

/-- The parser gets through the text in these rounds. -/
structure GetsThrough (text : Bytes) (alloc : Nat → RoundAllocations) (done rounds : List Round)
    (left : Bytes) : Prop where
  reads : Reads text rounds left
  distinct : ((done ++ rounds).map Round.key).Nodup
  allocated : ∀ n < rounds.length, (alloc n).succeed = true
  ends : (∀ c ∈ left, c = 0x3D) ∨ (alloc rounds.length).keyCopied = false

/-! ## The loop -/

section

variable {round : Nat → RoundAllocations} {n : Nat} {text behindKey behindValue key value : Bytes}
variable {result : Map.MapHandleData}

theorem loop_ends
    (h : (stringTokenizerGetNextToken text (ascii "=") (round n).keyCopied).1 = none) :
    connectionstringparserParseLoop round n text result = some result := by
  rw [connectionstringparserParseLoop]
  split
  · rfl
  · rename_i hkey
    rw [hkey] at h
    cases h

theorem loop_fails
    (hkey : stringTokenizerGetNextToken text (ascii "=") (round n).keyCopied = (some key, behindKey))
    (h : (stringTokenizerGetNextToken behindKey (ascii ";") (round n).valueCopied).1 = none) :
    connectionstringparserParseLoop round n text result = none := by
  rw [connectionstringparserParseLoop]
  split
  · rename_i hnone
    rw [hkey] at hnone
    cases hnone
  · rename_i hkey'
    rw [hkey] at hkey'
    cases hkey'
    split
    · rfl
    · rename_i hvalue
      rw [hvalue] at h
      cases h

theorem loop_round (hne : key ≠ [])
    (hkey : stringTokenizerGetNextToken text (ascii "=") (round n).keyCopied = (some key, behindKey))
    (hvalue : stringTokenizerGetNextToken behindKey (ascii ";") (round n).valueCopied =
      (some value, behindValue)) :
    connectionstringparserParseLoop round n text result =
      if (Map.mapAdd result (some key) (some value) (round n).added).1 ≠ .mapOk then none
      else connectionstringparserParseLoop round (n + 1) behindValue
        (Map.mapAdd result (some key) (some value) (round n).added).2 := by
  rw [connectionstringparserParseLoop]
  split
  · rename_i hnone
    rw [hkey] at hnone
    cases hnone
  · rename_i hkey'
    rw [hkey] at hkey'
    cases hkey'
    split
    · rename_i hnone
      rw [hvalue] at hnone
      cases hnone
    · rename_i hvalue'
      rw [hvalue] at hvalue'
      cases hvalue'
      rw [if_neg (by simpa using hne)]

theorem tokens_of_round (r : Round) {behind rest : Bytes} (h : EndsToken 0x3B behind rest) :
    stringTokenizerGetNextToken (r.text ++ behind) (ascii "=") true =
        (some r.key, List.replicate r.semicolons 0x3B ++ (r.value ++ behind)) ∧
      stringTokenizerGetNextToken (List.replicate r.semicolons 0x3B ++ (r.value ++ behind))
        (ascii ";") true = (some r.value, rest) := by
  refine ⟨?_, getNextToken_token r.value_token h⟩
  have htext : r.text ++ behind = List.replicate r.equals 0x3D ++
      (r.key ++ 0x3D :: (List.replicate r.semicolons 0x3B ++ (r.value ++ behind))) := by
    simp [Round.text]
  rw [htext]
  exact getNextToken_token r.key_token (.inl rfl)

theorem loop_of_round {done : List Round} (r : Round) {behind rest : Bytes}
    (h : EndsToken 0x3B behind rest) :
    connectionstringparserParseLoop round n (r.text ++ behind) (mapOf done) =
      if r.key ∉ done.map Round.key ∧ (round n).succeed = true then
        connectionstringparserParseLoop round (n + 1) rest (mapOf (done ++ [r]))
      else if (round n).keyCopied then none else some (mapOf done) := by
  rcases tokens_of_round r h with ⟨hkey, hvalue⟩
  cases hkeyCopied : (round n).keyCopied with
  | false =>
    have hfails : (round n).succeed = false := by
      simp [RoundAllocations.succeed, hkeyCopied]
    rw [loop_ends (by rw [hkeyCopied]; exact getNextToken_uncopied), hfails]
    simp
  | true =>
    rw [← hkeyCopied] at hkey
    cases hvalueCopied : (round n).valueCopied with
    | false =>
      have hfails : (round n).succeed = false := by
        simp [RoundAllocations.succeed, hvalueCopied]
      rw [loop_fails hkey (by rw [hvalueCopied]; exact getNextToken_uncopied), hfails]
      simp
    | true =>
      rw [← hvalueCopied] at hvalue
      rw [loop_round r.key_token.1 hkey hvalue]
      have hsucceed : (round n).succeed = ((round n).added.keysGrown &&
          (round n).added.valuesGrown && (round n).added.keyCopied &&
            (round n).added.valueCopied) := by
        simp [RoundAllocations.succeed, hkeyCopied, hvalueCopied]
      rw [hsucceed]
      by_cases hnew : r.key ∉ done.map Round.key ∧ ((round n).added.keysGrown &&
          (round n).added.valuesGrown && (round n).added.keyCopied &&
            (round n).added.valueCopied) = true
      · rw [if_pos hnew, mapAdd_mapOf r hnew.1 hnew.2, if_neg (by simp)]
      · rw [if_neg hnew, if_pos rfl, if_pos]
        apply mapAdd_fails
        by_cases hin : r.key ∈ done.map Round.key
        · exact .inl hin
        · exact .inr (by simpa using fun hall => hnew ⟨hin, hall⟩)

theorem text_cases (text : Bytes) :
    (∀ c ∈ text, c = 0x3D) ∨
      (∃ (r : Round) (behind rest : Bytes), EndsToken 0x3B behind rest ∧ text = r.text ++ behind) ∨
      ∃ key behindKey, stringTokenizerGetNextToken text (ascii "=") true = (some key, behindKey) ∧
        ∀ c ∈ behindKey, c = 0x3B := by
  rcases token_cases 0x3D text with hall | ⟨equals, key, behind, rest, hkey, hbehind, rfl⟩
  · exact .inl hall
  have hfound := getNextToken_token (n := equals) hkey hbehind
  rcases token_cases 0x3B rest with hall |
    ⟨semicolons, value, behindValue, restValue, hvalue, hbehindValue, rfl⟩
  · exact .inr (.inr ⟨key, rest, hfound, hall⟩)
  · rcases hbehind with rfl | ⟨-, hempty⟩
    · refine .inr (.inl ⟨⟨equals, key, semicolons, value, hkey, hvalue⟩, behindValue, restValue,
        hbehindValue, ?_⟩)
      simp [Round.text]
    · have hvalueEmpty : value = [] := (List.append_eq_nil_iff.1
        (List.append_eq_nil_iff.1 hempty).2).1
      exact absurd hvalueEmpty hvalue.1

theorem Round.rest_shorter (r : Round) {behind rest : Bytes} (h : EndsToken 0x3B behind rest) :
    rest.length < (r.text ++ behind).length := by
  have hvalue : 0 < r.value.length := List.length_pos_iff.2 r.value_token.1
  have hrest : rest.length ≤ behind.length := by
    rcases h with rfl | ⟨rfl, rfl⟩
    · exact Nat.le_succ _
    · exact Nat.le_refl _
  simp only [Round.text, List.length_append, List.length_cons]
  omega

theorem GetsThrough.cons {done rounds : List Round} {left behind rest : Bytes} (r : Round)
    (hbehind : EndsToken 0x3B behind rest) (hsucceed : (round n).succeed = true)
    (h : GetsThrough rest (fun k => round (n + 1 + k)) (done ++ [r]) rounds left) :
    GetsThrough (r.text ++ behind) (fun k => round (n + k)) done (r :: rounds) left := by
  constructor
  case reads => exact .round r hbehind h.reads
  case distinct =>
    have hdistinct := h.distinct
    rwa [List.append_assoc] at hdistinct
  case allocated =>
    intro k hk
    cases k with
    | zero => exact hsucceed
    | succ k =>
      have hround := h.allocated k (Nat.lt_of_succ_lt_succ hk)
      rwa [Nat.add_assoc, Nat.add_comm 1 k] at hround
  case ends =>
    have hends := h.ends
    rwa [Nat.add_assoc, Nat.add_comm 1 rounds.length] at hends

theorem loop_eq_some_iff {done : List Round} {map : Map.MapHandleData}
    (hdone : (done.map Round.key).Nodup) :
    connectionstringparserParseLoop round n text (mapOf done) = some map ↔
      ∃ rounds left, GetsThrough text (fun k => round (n + k)) done rounds left ∧
        map = mapOf (done ++ rounds) := by
  constructor
  · intro h
    induction hlength : text.length using Nat.strongRecOn generalizing text n done with
    | ind length ih =>
      -- No more round: the map is as it is.
      have hstop : ((∀ c ∈ text, c = 0x3D) ∨ (round n).keyCopied = false) →
          ∃ rounds left, GetsThrough text (fun k => round (n + k)) done rounds left ∧
            map = mapOf (done ++ rounds) := by
        intro hends
        have hnone : (stringTokenizerGetNextToken text (ascii "=") (round n).keyCopied).1 = none := by
          rcases hends with hall | huncopied
          · exact getNextToken_none hall
          · rw [huncopied]
            exact getNextToken_uncopied
        rw [loop_ends hnone] at h
        refine ⟨[], text, ⟨.stop text, by simpa using hdone, nofun, hends⟩, ?_⟩
        rw [List.append_nil]
        exact (Option.some.inj h).symm
      rcases text_cases text with hall | ⟨r, behind, rest, hbehind, rfl⟩ |
        ⟨key, behindKey, hkey, hall⟩
      · exact hstop (.inl hall)
      · by_cases huncopied : (round n).keyCopied = false
        · exact hstop (.inr huncopied)
        rw [loop_of_round r hbehind] at h
        split at h
        · rename_i hnew
          have hdone' : ((done ++ [r]).map Round.key).Nodup := by
            rw [List.map_append, List.nodup_append]
            refine ⟨hdone, by simp, ?_⟩
            rintro key hmem _ (hkey | ⟨_, ⟨⟩⟩) rfl
            exact hnew.1 hmem
          rcases ih rest.length (hlength ▸ r.rest_shorter hbehind) hdone' h rfl with
            ⟨rounds, left, hthrough, rfl⟩
          exact ⟨r :: rounds, left, hthrough.cons r hbehind hnew.2, by simp⟩
        · rw [if_pos (by simpa using huncopied)] at h
          cases h
      · by_cases huncopied : (round n).keyCopied = false
        · exact hstop (.inr huncopied)
        rw [Bool.not_eq_false] at huncopied
        rw [loop_fails (by rw [huncopied]; exact hkey) (getNextToken_none hall)] at h
        cases h
  · rintro ⟨rounds, left, hthrough, rfl⟩
    rcases hthrough with ⟨hreads, hdistinct, hallocated, hends⟩
    induction hreads generalizing n done with
    | stop left =>
      rw [loop_ends, List.append_nil]
      rcases hends with hall | huncopied
      · exact getNextToken_none hall
      · have huncopied : (round n).keyCopied = false := huncopied
        rw [huncopied]
        exact getNextToken_uncopied
    | @round r behind rest left rounds hbehind hreads ih =>
      have hsucceed : (round n).succeed = true := hallocated 0 (Nat.zero_lt_succ _)
      have hnew : r.key ∉ done.map Round.key := by
        intro hmem
        rw [List.map_append, List.nodup_append] at hdistinct
        exact hdistinct.2.2 r.key hmem r.key (by simp) rfl
      rw [loop_of_round r hbehind, if_pos ⟨hnew, hsucceed⟩]
      have hdistinct' : (((done ++ [r]) ++ rounds).map Round.key).Nodup := by
        rwa [List.append_assoc]
      have hrest : connectionstringparserParseLoop round (n + 1) rest (mapOf (done ++ [r])) =
          some (mapOf ((done ++ [r]) ++ rounds)) := by
        apply ih
        · exact List.Nodup.sublist (by simp) hdistinct'
        · exact hdistinct'
        · intro k hk
          have hround := hallocated (k + 1) (Nat.succ_lt_succ hk)
          rwa [Nat.add_comm k 1, ← Nat.add_assoc] at hround
        · rcases hends with hall | huncopied
          · exact .inl hall
          · rw [List.length_cons, Nat.add_comm rounds.length 1, ← Nat.add_assoc] at huncopied
            exact .inr huncopied
      rwa [List.append_assoc] at hrest

end

/-! ## Segments -/

/-- The text split at its semicolons, without the empty pieces. -/
def segments (text : Bytes) : List Bytes :=
  (text.splitOn 0x3B).filter (· ≠ [])

/-- The segments of the text are these keys and values: each is split at its first equals sign. -/
structure SplitsInto (text : Bytes) (pairs : List (Bytes × Bytes)) : Prop where
  split : segments text = pairs.map fun pair => pair.1 ++ 0x3D :: pair.2
  firstEquals : ∀ pair ∈ pairs, 0x3D ∉ pair.1

/-- The map has exactly the pairs of the segments. -/
def MatchesSegments (text : Bytes) (map : Map.MapHandleData) : Prop :=
  ∃ pairs, SplitsInto text pairs ∧
    (map.keys.zip map.values).Perm (pairs.map fun pair => (some pair.1, some pair.2))

/-- Nothing is skipped before the key and the value, and the key ends in its segment. -/
structure Round.Plain (r : Round) : Prop where
  equals : r.equals = 0
  semicolons : r.semicolons = 0
  key : 0x3B ∉ r.key

def Round.pair (r : Round) : Bytes × Bytes :=
  (r.key, r.value)

section

variable {text segment rest behind left : Bytes} {pairs : List (Bytes × Bytes)} {rounds : List Round}

theorem segments_append (front rest : Bytes) :
    segments (front ++ 0x3B :: rest) = segments front ++ segments rest := by
  rw [segments, List.splitOn_append_cons_self, List.filter_append]
  rfl

theorem segments_of_no_semicolon (h : 0x3B ∉ segment) (hne : segment ≠ []) :
    segments segment = [segment] := by
  simp [segments, List.splitOn_eq_singleton h, hne]

theorem segments_nil : segments [] = [] := by
  simp [segments]

theorem segments_of_ends (h : 0x3B ∉ segment) (hne : segment ≠ []) (hends : EndsToken 0x3B behind rest) :
    segments (segment ++ behind) = segment :: segments rest := by
  rcases hends with rfl | ⟨rfl, rfl⟩
  · rw [segments_append, segments_of_no_semicolon h hne, List.singleton_append]
  · rw [List.append_nil, segments_of_no_semicolon h hne, segments_nil]

theorem exists_first_segment {c : UInt8} (hc : c ≠ 0x3B) (text : Bytes) :
    ∃ tail, c :: tail ∈ segments (c :: text) := by
  by_cases hsemicolon : 0x3B ∈ text
  · rcases List.eq_append_cons_of_mem hsemicolon with ⟨front, back, rfl, hfront⟩
    refine ⟨front, ?_⟩
    have hsegment : 0x3B ∉ c :: front := by
      simp only [List.mem_cons, not_or]
      exact ⟨Ne.symm hc, hfront⟩
    rw [← List.cons_append, segments_of_ends hsegment (List.cons_ne_nil _ _) (.inl rfl)]
    exact List.mem_cons_self ..
  · refine ⟨text, ?_⟩
    have hsegment : 0x3B ∉ c :: text := by
      simp only [List.mem_cons, not_or]
      exact ⟨Ne.symm hc, hsemicolon⟩
    rw [segments_of_no_semicolon hsegment (List.cons_ne_nil _ _)]
    exact List.mem_cons_self ..

theorem segments_eq_nil : segments text = [] ↔ ∀ c ∈ text, c = 0x3B := by
  induction text with
  | nil => simp [segments_nil]
  | cons c text ih =>
    by_cases hc : c = 0x3B
    · subst hc
      have hsplit := segments_append [] text
      rw [List.nil_append, segments_nil, List.nil_append] at hsplit
      rw [hsplit, ih]
      simp
    · constructor
      · intro hnil
        rcases exists_first_segment hc text with ⟨tail, htail⟩
        rw [hnil] at htail
        cases htail
      · intro hall
        exact absurd (hall c (List.mem_cons_self ..)) hc

theorem semicolon_not_mem_segment (h : segment ∈ segments text) : 0x3B ∉ segment := by
  induction hlength : text.length using Nat.strongRecOn generalizing text with
  | ind length ih =>
    by_cases hsemicolon : 0x3B ∈ text
    · rcases List.eq_append_cons_of_mem hsemicolon with ⟨front, back, rfl, hfront⟩
      simp only [List.length_append, List.length_cons] at hlength
      rw [segments_append] at h
      rcases List.mem_append.1 h with h | h
      · exact ih front.length (by omega) h rfl
      · exact ih back.length (by omega) h rfl
    · by_cases hne : text = []
      · rw [hne, segments_nil] at h
        cases h
      · rw [segments_of_no_semicolon hsemicolon hne, List.mem_singleton] at h
        exact h ▸ hsemicolon

theorem SplitsInto.no_semicolon (h : SplitsInto text pairs) {pair : Bytes × Bytes}
    (hpair : pair ∈ pairs) : 0x3B ∉ pair.1 ∧ 0x3B ∉ pair.2 := by
  have hsegment : pair.1 ++ 0x3D :: pair.2 ∈ segments text := by
    rw [h.split]
    exact List.mem_map_of_mem hpair
  have hnone := semicolon_not_mem_segment hsegment
  simp only [List.mem_append, List.mem_cons, not_or] at hnone
  exact ⟨hnone.1, hnone.2.2⟩

theorem append_delimiter_inj {d : UInt8} {key key' value value' : Bytes} (hkey : d ∉ key)
    (hkey' : d ∉ key') (h : key ++ d :: value = key' ++ d :: value') :
    key = key' ∧ value = value' := by
  have hcut : ∀ front back : Bytes, d ∉ front →
      (front ++ d :: back).takeWhile (· != d) = front := by
    intro front back hfront
    rw [List.takeWhile_append_of_pos]
    · simp
    · intro c hc
      simp only [bne_iff_ne, ne_eq]
      rintro rfl
      exact hfront hc
  have hsame : key = key' := by
    rw [← hcut key value hkey, h, hcut key' value' hkey']
  subst hsame
  exact ⟨rfl, (List.cons.inj (List.append_cancel_left h)).2⟩

theorem SplitsInto.empty_key {tail : Bytes} (h : SplitsInto text pairs)
    (hsegment : 0x3D :: tail ∈ segments text) : ([], tail) ∈ pairs := by
  rw [h.split, List.mem_map] at hsegment
  rcases hsegment with ⟨⟨key, value⟩, hpair, heq⟩
  cases key with
  | nil =>
    cases heq
    exact hpair
  | cons c key =>
    have hc : c = 0x3D := (List.cons.inj heq).1
    exact absurd (hc ▸ List.mem_cons_self ..) (h.firstEquals _ hpair)

theorem SplitsInto.empty_value {key : Bytes} (h : SplitsInto text pairs) (hkey : 0x3D ∉ key)
    (hsegment : key ++ [0x3D] ∈ segments text) : (key, []) ∈ pairs := by
  rw [h.split, List.mem_map] at hsegment
  rcases hsegment with ⟨⟨key', value⟩, hpair, heq⟩
  rcases append_delimiter_inj (h.firstEquals _ hpair) hkey heq with ⟨rfl, rfl⟩
  exact hpair

theorem Round.Plain.first_segment {r : Round} (h : r.Plain) (hends : EndsToken 0x3B behind rest) :
    segments (r.text ++ behind) = (r.key ++ 0x3D :: r.value) :: segments rest := by
  have htext : r.text = r.key ++ 0x3D :: r.value := by
    simp [Round.text, h.equals, h.semicolons]
  rw [htext]
  apply segments_of_ends _ _ hends
  · simp only [List.mem_append, List.mem_cons, not_or]
    exact ⟨h.key, by decide, r.value_token.2⟩
  · simp

/-- A round whose pair is one of the segments, where no key and no value is empty, is plain. -/
theorem Round.plain_of_splitsInto {r : Round} (h : SplitsInto (r.text ++ behind) pairs)
    (hpair : r.pair ∈ pairs) (hnonempty : ∀ pair ∈ pairs, pair.1 ≠ [] ∧ pair.2 ≠ []) : r.Plain := by
  have hkey : 0x3B ∉ r.key := (h.no_semicolon hpair).1
  have hequals : r.equals = 0 := by
    by_contra hne
    rcases Nat.exists_eq_succ_of_ne_zero hne with ⟨n, hn⟩
    have htext : r.text ++ behind = 0x3D :: (List.replicate n 0x3D ++
        (r.key ++ 0x3D :: (List.replicate r.semicolons 0x3B ++ r.value)) ++ behind) := by
      simp [Round.text, hn, List.replicate_succ]
    rcases exists_first_segment (show (0x3D : UInt8) ≠ 0x3B by decide) (List.replicate n 0x3D ++
      (r.key ++ 0x3D :: (List.replicate r.semicolons 0x3B ++ r.value)) ++ behind) with ⟨tail, htail⟩
    rw [← htext] at htail
    exact (hnonempty _ (h.empty_key htail)).1 rfl
  refine ⟨hequals, ?_, hkey⟩
  by_contra hne
  rcases Nat.exists_eq_succ_of_ne_zero hne with ⟨n, hn⟩
  have htext : r.text ++ behind = (r.key ++ [0x3D]) ++
      0x3B :: (List.replicate n 0x3B ++ r.value ++ behind) := by
    simp [Round.text, hequals, hn, List.replicate_succ]
  have hsegment : r.key ++ [0x3D] ∈ segments (r.text ++ behind) := by
    rw [htext, segments_of_ends _ (by simp) (.inl rfl)]
    · exact List.mem_cons_self ..
    · simp only [List.mem_append, List.mem_singleton, not_or]
      exact ⟨hkey, by decide⟩
  exact (hnonempty _ (h.empty_value r.key_token.2 hsegment)).2 rfl

/-- The pairs of the rounds are those of the segments exactly if the rounds are plain. -/
theorem Reads.splitsInto_iff (h : Reads text rounds left) :
    (∃ pairs, SplitsInto text pairs ∧ (rounds.map Round.pair).Perm pairs) ↔
      (∀ r ∈ rounds, r.Plain) ∧ ∀ c ∈ left, c = 0x3B := by
  induction h with
  | stop left =>
    constructor
    · rintro ⟨pairs, hsplits, hperm⟩
      have hnil : pairs = [] := hperm.nil_eq.symm
      subst hnil
      exact ⟨nofun, segments_eq_nil.1 hsplits.split⟩
    · rintro ⟨-, hleft⟩
      exact ⟨[], ⟨segments_eq_nil.2 hleft, nofun⟩, .refl _⟩
  | @round r behind rest left rounds hends hreads ih =>
    constructor
    · rintro ⟨pairs, hsplits, hperm⟩
      have hnonempty : ∀ pair ∈ pairs, pair.1 ≠ [] ∧ pair.2 ≠ [] := by
        intro pair hpair
        rcases List.mem_map.1 (hperm.mem_iff.2 hpair) with ⟨r', -, rfl⟩
        exact ⟨r'.key_token.1, r'.value_token.1⟩
      have hplain : r.Plain :=
        Round.plain_of_splitsInto hsplits (hperm.mem_iff.1 (List.mem_cons_self ..)) hnonempty
      -- The first segment is the one of the round, and the others are those of the rest.
      have hsegments := hsplits.split
      rw [hplain.first_segment hends] at hsegments
      cases pairs with
      | nil => cases hsegments
      | cons first pairs =>
        rcases List.cons.inj hsegments with ⟨hfirst, hrest⟩
        have hpair : first = r.pair := by
          have hsame := append_delimiter_inj r.key_token.2
            (hsplits.firstEquals first (List.mem_cons_self ..)) hfirst
          exact Prod.ext hsame.1.symm hsame.2.symm
        subst hpair
        have hothers := ih.1 ⟨pairs, ⟨hrest, fun pair hpair =>
          hsplits.firstEquals pair (List.mem_cons_of_mem _ hpair)⟩, hperm.cons_inv⟩
        refine ⟨?_, hothers.2⟩
        intro r' hr'
        rcases List.mem_cons.1 hr' with rfl | hr'
        · exact hplain
        · exact hothers.1 r' hr'
    · rintro ⟨hplain, hleft⟩
      have hr := hplain r (List.mem_cons_self ..)
      rcases ih.2 ⟨fun r' hr' => hplain r' (List.mem_cons_of_mem r hr'), hleft⟩ with
        ⟨pairs, hsplits, hperm⟩
      refine ⟨r.pair :: pairs, ⟨?_, ?_⟩, hperm.cons r.pair⟩
      · rw [hr.first_segment hends, hsplits.split]
        rfl
      · intro pair hpair
        rcases List.mem_cons.1 hpair with rfl | hpair
        · exact r.key_token.2
        · exact hsplits.firstEquals pair hpair

theorem matchesSegments_mapOf :
    MatchesSegments text (mapOf rounds) ↔
      ∃ pairs, SplitsInto text pairs ∧ (rounds.map Round.pair).Perm pairs := by
  have hstored : (mapOf rounds).keys.zip (mapOf rounds).values =
      (rounds.map Round.pair).map fun pair => (some pair.1, some pair.2) := by
    simp [mapOf, List.zip_map', Round.pair]
  unfold MatchesSegments
  rw [hstored]
  constructor
  · rintro ⟨pairs, hsplits, hperm⟩
    have hback := hperm.map fun stored : Option Bytes × Option Bytes =>
      (stored.1.getD [], stored.2.getD [])
    refine ⟨pairs, hsplits, ?_⟩
    simpa [List.map_map, Function.comp_def] using hback
  · rintro ⟨pairs, hsplits, hperm⟩
    exact ⟨pairs, hsplits, hperm.map _⟩

end

/-! ## The parser -/

/-- What is allocated before the loop. -/
def Allocations.created (alloc : Allocations) : Bool :=
  alloc.tokenizerCreated && alloc.keyStringCreated && alloc.valueStringCreated &&
    alloc.mapCreated.handleAllocated

/-- The parser succeeds exactly if it gets through the text, and its map has the pairs it has read. -/
theorem connectionstringparserParse_eq_some_iff {text : Bytes} {alloc : Allocations}
    {map : Map.MapHandleData} :
    connectionstringparserParse (some text) alloc = some map ↔
      alloc.created = true ∧ ∃ rounds left, GetsThrough text alloc.round [] rounds left ∧
        map = mapOf rounds := by
  have hround : (fun k => alloc.round (0 + k)) = alloc.round := by
    funext k
    rw [Nat.zero_add]
  have hloop : connectionstringparserParseLoop alloc.round 0 text (mapOf []) = some map ↔
      ∃ rounds left, GetsThrough text alloc.round [] rounds left ∧ map = mapOf rounds := by
    have hrounds : connectionstringparserParseLoop alloc.round 0 text (mapOf []) = some map ↔
        ∃ rounds left, GetsThrough text (fun k => alloc.round (0 + k)) [] rounds left ∧
          map = mapOf ([] ++ rounds) := loop_eq_some_iff List.nodup_nil
    rwa [hround] at hrounds
  unfold Allocations.created connectionstringparserParse
  cases alloc.tokenizerCreated with
  | false => simp
  | true =>
    cases alloc.keyStringCreated with
    | false => simp
    | true =>
      cases alloc.valueStringCreated with
      | false => simp
      | true =>
        cases hmap : alloc.mapCreated.handleAllocated with
        | false => simp [Map.mapCreate, hmap]
        | true =>
          simp only [Map.mapCreate, hmap, if_true, Bool.true_eq_false, if_false, Bool.and_self,
            true_and]
          exact hloop

/-- The map is the one of the segments, for every text and all allocations, exactly if whenever the
parser gets through, its rounds are plain and only semicolons are left. -/
theorem parse_segments_iff (text : Bytes) (alloc : Allocations) :
    (∀ map, connectionstringparserParse (some text) alloc = some map → MatchesSegments text map) ↔
      (alloc.created = true → ∀ rounds left, GetsThrough text alloc.round [] rounds left →
        (∀ r ∈ rounds, r.Plain) ∧ ∀ c ∈ left, c = 0x3B) := by
  constructor
  · intro h hcreated rounds left hthrough
    have hmatches := h (mapOf rounds)
      (connectionstringparserParse_eq_some_iff.2 ⟨hcreated, rounds, left, hthrough, rfl⟩)
    exact hthrough.reads.splitsInto_iff.1 (matchesSegments_mapOf.1 hmatches)
  · intro h map hparsed
    rcases connectionstringparserParse_eq_some_iff.1 hparsed with
      ⟨hcreated, rounds, left, hthrough, rfl⟩
    exact matchesSegments_mapOf.2 (hthrough.reads.splitsInto_iff.2 (h hcreated rounds left hthrough))

/-- The round in which the value of `a` skips a semicolon. -/
def swallowingRound : Round where
  equals := 0
  key := ascii "a"
  semicolons := 1
  value := ascii "b=c"
  key_token := ⟨by decide, by decide⟩
  value_token := ⟨by decide, by decide⟩

/-- An empty value takes in the next segment. -/
theorem parse_empty_value :
    (connectionstringparserParse (some (ascii "a=;b=c")) {}).map (fun map => (map.keys, map.values)) =
        some ([some (ascii "a")], [some (ascii "b=c")]) ∧
      ¬ ∀ map, connectionstringparserParse (some (ascii "a=;b=c")) {} = some map →
        MatchesSegments (ascii "a=;b=c") map := by
  have hreads : Reads (ascii "a=;b=c") [swallowingRound] [] :=
    .round swallowingRound (.inr ⟨rfl, rfl⟩) (.stop [])
  have hthrough : GetsThrough (ascii "a=;b=c") (fun _ => {}) [] [swallowingRound] [] := by
    refine ⟨hreads, by simp, ?_, .inl nofun⟩
    intro n _
    rfl
  have hparsed : connectionstringparserParse (some (ascii "a=;b=c")) {} =
      some (mapOf [swallowingRound]) :=
    connectionstringparserParse_eq_some_iff.2 ⟨rfl, [swallowingRound], [], hthrough, rfl⟩
  refine ⟨by rw [hparsed]; rfl, fun h => ?_⟩
  have hplain := hreads.splitsInto_iff.1 (matchesSegments_mapOf.1 (h _ hparsed))
  exact absurd (hplain.1 _ (List.mem_cons_self ..)).semicolons (by decide)

end SharedUtility.ConnectionStringParser
