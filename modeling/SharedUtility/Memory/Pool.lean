import SharedUtility.Memory.Blocks

/-!
# Memory.Pool — things that own a cell each

* `View` — how a thing is read from the cell it owns,
* `Represents` — a pool of things, each with a cell of its own, and what they stand for,
* `Settles` — a call does what is wanted, or reports a failure and changes nothing,
* `Refines` — every run of calls on a pool does what the abstract calls do.
-/

namespace SharedUtility.Memory

variable {α X C Call Answer : Type}

/-- What things of type `X` stand for; a thing without a cell has a NULL pointer. -/
structure View (α X C : Type) where
  place : X → Ptr
  Holds : Heap α → X → C → Prop
  frame : ∀ {h h' x c}, Holds h x c →
    (∀ v, h.cell (place x) = some v → h'.cell (place x) = some v) → Holds h' x c
  live : ∀ {h x c}, Holds h x c → place x ≠ none → ∃ v, h.cell (place x) = some v

/-- No two things of the pool share a cell. -/
structure Represents (V : View α X C) (h : Heap α) (pool : List X) (contents : List C) : Prop where
  length : pool.length = contents.length
  holds : ∀ (i : Nat) x c, pool[i]? = some x → contents[i]? = some c → V.Holds h x c
  apart : ∀ (i j : Nat) x y, i ≠ j → pool[i]? = some x → pool[j]? = some y → V.place x ≠ none →
    V.place x ≠ V.place y

namespace Represents

variable {V : View α X C} {h h' : Heap α} {pool : List X} {contents : List C} {i j : Nat}
  {x x' y : X} {c c' : C}

theorem nil (V : View α X C) (h : Heap α) : Represents V h [] [] where
  length := rfl
  holds i x c hx := by cases hx
  apart i j x y _ hx := by cases hx

theorem get (hr : Represents V h pool contents) (hx : pool[i]? = some x) :
    ∃ c, contents[i]? = some c ∧ V.Holds h x c := by
  have hi := (List.getElem?_eq_some_iff.mp hx).1
  rw [hr.length] at hi
  exact ⟨contents[i], List.getElem?_eq_getElem hi,
    hr.holds i x _ hx (List.getElem?_eq_getElem hi)⟩

theorem get_none (hr : Represents V h pool contents) (hx : pool[i]? = none) :
    contents[i]? = none := by
  rw [List.getElem?_eq_none_iff] at hx ⊢
  rwa [← hr.length]

theorem other (hr : Represents V h pool contents) (hh : Replaces h h' (V.place x) (V.place x'))
    (hne : i ≠ j) (hx : pool[i]? = some x) (hy : pool[j]? = some y) (hc : contents[j]? = some c) :
    V.Holds h' y c := by
  apply V.frame (hr.holds j y c hy hc)
  intro v hv
  apply hh.others _ v _ hv
  exact hr.apart j i y x hne.symm hy hx (Heap.ne_none_of_cell hv)

theorem place_ne (hr : Represents V h pool contents) {p : Ptr} (hy : pool[j]? = some y)
    (hp : h.cell p = none) (hne : p ≠ none) : p ≠ V.place y := by
  rintro rfl
  obtain ⟨c, _, hholds⟩ := hr.get hy
  obtain ⟨v, hv⟩ := V.live hholds hne
  rw [hv] at hp
  cases hp

theorem set (hr : Represents V h pool contents) (hx : pool[i]? = some x)
    (hh : Replaces h h' (V.place x) (V.place x')) (hx' : V.Holds h' x' c') :
    Represents V h' (pool.set i x') (contents.set i c') where
  length := by rw [List.length_set, List.length_set, hr.length]
  holds j y c hy hc := by
    rw [List.getElem?_set] at hy hc
    split at hy
    case isTrue heq =>
      subst heq
      rw [if_pos rfl] at hc
      split at hy
      case isTrue hi =>
        rw [if_pos (by rwa [← hr.length])] at hc
        cases hy
        cases hc
        exact hx'
      case isFalse => cases hy
    case isFalse hne =>
      rw [if_neg hne] at hc
      exact hr.other hh hne hx hy hc
  apart j k y z hne hy hz hplace := by
    have hnew : ∀ k z, i ≠ k → pool[k]? = some z → V.place x' ≠ none →
        V.place x' ≠ V.place z := by
      intro k z hne hz hplace
      rcases hh.place with hnone | heq | hdead
      · exact absurd hnone hplace
      · rw [heq] at hplace ⊢
        exact hr.apart i k x z hne hx hz hplace
      · exact hr.place_ne hz hdead hplace
    rw [List.getElem?_set] at hy hz
    by_cases hij : i = j
    · have hik : ¬ i = k := fun hik => hne (hij.symm.trans hik)
      rw [if_pos hij] at hy
      rw [if_neg hik] at hz
      split at hy
      case isTrue =>
        cases hy
        exact hnew k z hik hz hplace
      case isFalse => cases hy
    · rw [if_neg hij] at hy
      by_cases hik : i = k
      · rw [if_pos hik] at hz
        split at hz
        case isTrue =>
          cases hz
          intro heq
          exact hnew j y hij hy (heq ▸ hplace) heq.symm
        case isFalse => cases hz
      · rw [if_neg hik] at hz
        exact hr.apart j k y z hne hy hz hplace

theorem kept (hr : Represents V h pool contents) (hh : Replaces h h' none none) :
    Represents V h' pool contents where
  length := hr.length
  holds i x c hx hc := by
    apply V.frame (hr.holds i x c hx hc)
    intro v hv
    exact hh.others _ v (Heap.ne_none_of_cell hv) hv
  apart := hr.apart

theorem append (hr : Represents V h pool contents) (hh : Replaces h h' none (V.place x'))
    (hx' : V.Holds h' x' c') : Represents V h' (pool ++ [x']) (contents ++ [c']) where
  length := by rw [List.length_append, List.length_append, hr.length]; rfl
  holds i x c hx hc := by
    by_cases hi : i < pool.length
    · rw [List.getElem?_append_left hi] at hx
      rw [List.getElem?_append_left (hr.length ▸ hi)] at hc
      apply V.frame (hr.holds i x c hx hc)
      intro v hv
      exact hh.others _ v (Heap.ne_none_of_cell hv) hv
    · have hge := Nat.le_of_not_lt hi
      rw [List.getElem?_append_right hge] at hx
      rw [List.getElem?_append_right (hr.length ▸ hge), ← hr.length] at hc
      rw [List.getElem?_singleton] at hx hc
      split at hx
      case isTrue heq =>
        rw [if_pos heq] at hc
        cases hx
        cases hc
        exact hx'
      case isFalse => cases hx
  apart i j x y hne hx hy hplace := by
    have hnew : ∀ (j : Nat) y, pool[j]? = some y → V.place x' ≠ none → V.place x' ≠ V.place y := by
      intro j y hy hplace
      rcases hh.place with hnone | hnone | hdead
      · exact absurd hnone hplace
      · exact absurd hnone hplace
      · exact hr.place_ne hy hdead hplace
    rw [List.getElem?_append] at hx hy
    split at hx
    case isTrue =>
      split at hy
      case isTrue => exact hr.apart i j x y hne hx hy hplace
      case isFalse =>
        rw [List.getElem?_singleton] at hy
        split at hy
        case isTrue =>
          cases hy
          intro heq
          exact hnew i x hx (heq ▸ hplace) heq.symm
        case isFalse => cases hy
    case isFalse hi =>
      rw [List.getElem?_singleton] at hx
      split at hx
      case isFalse => cases hx
      case isTrue hi' =>
        cases hx
        split at hy
        case isTrue => exact hnew j y hy hplace
        case isFalse hj =>
          rw [List.getElem?_singleton] at hy
          split at hy
          case isTrue hj' => omega
          case isFalse => cases hy

end Represents

/-! ## What a call comes to -/

/-- A call reports success and has done what is `wanted`, or reports a failure and has changed
nothing; it fails when nothing is wanted of it or memory has run out. -/
inductive Settles (wanted : Option C) (before : C) (exhausted : Prop) : Bool → C → Prop
  | done {after : C} (h : wanted = some after) : Settles wanted before exhausted true after
  | failed (h : wanted = none ∨ exhausted) : Settles wanted before exhausted false before

theorem Settles.map {wanted : Option C} {before after : C} {exhausted : Prop} {ok : Bool} {D : Type}
    (hs : Settles wanted before exhausted ok after) (f : C → D) :
    Settles (wanted.map f) (f before) exhausted ok (f after) := by
  cases hs with
  | done h => exact .done (by rw [h]; rfl)
  | failed h => exact .failed (h.imp_left fun h => by rw [h]; rfl)

/-- `x` has become `x'`, by a call of which `wanted` is wanted. -/
structure Updates (V : View α X C) (h : Heap α) (x : X) (before : C) (wanted : Option C) (ok : Bool)
    (x' : X) (h' : Heap α) : Prop where
  replaces : Replaces h h' (V.place x) (V.place x')
  holds : ∃ after, V.Holds h' x' after ∧ Settles wanted before (h.failures < h'.failures) ok after

/-- A call makes a new thing, or returns NULL. -/
inductive Creates (V : View α X C) (h : Heap α) (wanted : Option C) : Option X → Heap α → Prop
  | new {x : X} {c : C} {h' : Heap α} (hwanted : wanted = some c)
      (hh : Replaces h h' none (V.place x)) (hx : V.Holds h' x c) : Creates V h wanted (some x) h'
  | null {h' : Heap α} (hfailed : wanted = none ∨ h.failures < h'.failures)
      (hh : Replaces h h' none none) : Creates V h wanted none h'

theorem Creates.refused {V : View α X C} {h : Heap α} {wanted : Option C} :
    Creates V h wanted none h.refused :=
  .null (.inr (Nat.lt_succ_self _)) (replaces_refused h none)

theorem Creates.refused_second {V : View α X C} {h : Heap α} {wanted : Option C} :
    Creates V h wanted none h.allocated.refused :=
  .null (.inr (Nat.lt_succ_self _)) ((replaces_allocated h none).trans (replaces_refused _ none))

namespace Represents

variable {V : View α X C} {h h' : Heap α} {pool : List X} {contents : List C} {i : Nat} {x x' : X}
  {c : C}

theorem updates (hr : Represents V h pool contents) (hx : pool[i]? = some x)
    (hc : contents[i]? = some c) {wanted : Option C} {ok : Bool}
    (hu : Updates V h x c wanted ok x' h') :
    ∃ contents', Represents V h' (pool.set i x') contents' ∧
      Settles (wanted.map (contents.set i)) contents (h.failures < h'.failures) ok contents' := by
  obtain ⟨after, hholds, hs⟩ := hu.holds
  refine ⟨contents.set i after, hr.set hx hu.replaces hholds, ?_⟩
  have hmap := hs.map (contents.set i)
  obtain ⟨hi, hget⟩ := List.getElem?_eq_some_iff.mp hc
  rwa [← hget, List.set_getElem_self] at hmap

theorem creates (hr : Represents V h pool contents) {wanted : Option C} {r : Option X}
    (hcreates : Creates V h wanted r h') :
    ∃ contents', Represents V h' (pool ++ r.toList) contents' ∧
      Settles (wanted.map fun c => contents ++ [c]) contents (h.failures < h'.failures) r.isSome
        contents' := by
  cases hcreates with
  | new hwanted hh hx => exact ⟨_, hr.append hh hx, .done (by rw [hwanted]; rfl)⟩
  | null hfailed hh =>
    refine ⟨contents, ?_, .failed (hfailed.imp_left fun h => by rw [h]; rfl)⟩
    rw [Option.toList_none, List.append_nil]
    exact hr.kept hh

end Represents

/-! ## Calls on a pool

A handle is the place of a thing in the pool; the other numbers are NULL. -/

/-- A call on one thing: its result, and the pool afterwards. -/
def onOne (pool : List X) (i : Nat) (c : HeapM α (Int × Option X)) : HeapM α (Int × List X) := do
  let r ← c
  pure (r.1, r.2.elim pool (pool.set i))

/-- A call that makes a thing: its handle, and the pool afterwards. -/
def makeOne (pool : List X) (c : HeapM α (Option X)) : HeapM α (Option Nat × List X) := do
  let r ← c
  pure (r.map fun _ => pool.length, pool ++ r.toList)

/-- What becomes of the content of one thing. -/
def onContent (contents : List C) (i : Nat) (wanted : C → Option C) : Option (List C) :=
  contents[i]?.bind fun c => (wanted c).map (contents.set i)

section

variable {V : View α X C} {h h' : Heap α} {pool : List X} {contents : List C} {x x' : X} {c c' : C}
  {wanted : Option C} {code : Int} {i j : Nat}

/-- A function on a thing with content `c` comes to this. -/
def Does (V : View α X C) (h : Heap α) (x : X) (c : C) (wanted : Option C) (r : Int × Option X)
    (h' : Heap α) : Prop :=
  ∃ x', r.2 = some x' ∧ Updates V h x c wanted (r.1 == 0) x' h'

theorem Does.done (hwanted : wanted = some c') (hh : Replaces h h' (V.place x) (V.place x'))
    (hx' : V.Holds h' x' c') : Does V h x c wanted (0, some x') h' :=
  ⟨x', rfl, hh, c', hx', .done hwanted⟩

theorem Does.failed (hcode : code ≠ 0) (hfailed : wanted = none ∨ h.failures < h'.failures)
    (hh : Replaces h h' (V.place x) (V.place x)) (hx : V.Holds h' x c) :
    Does V h x c wanted (code, some x) h' := by
  refine ⟨x, rfl, hh, c, hx, ?_⟩
  rw [beq_eq_false_iff_ne.mpr hcode]
  exact .failed hfailed

theorem Does.refused (hcode : code ≠ 0) (hx : V.Holds h x c) :
    Does V h x c wanted (code, some x) h.refused :=
  .failed hcode (.inr (Nat.lt_succ_self _)) (replaces_refused h _) (V.frame hx fun _ hv => hv)

theorem Does.rejected (hcode : code ≠ 0) (hx : V.Holds h x c) (hwanted : wanted = none) :
    Does V h x c wanted (code, some x) h :=
  .failed hcode (.inl hwanted) (Replaces.refl h _) hx

/-- The pool stands for what is wanted, or for what it stood for. -/
def Settled (V : View α X C) (wanted : Option (List C)) (contents : List C) (h : Heap α) (ok : Bool)
    (pool' : List X) (h' : Heap α) : Prop :=
  ∃ contents', Represents V h' pool' contents' ∧
    Settles wanted contents (h.failures < h'.failures) ok contents'

theorem onContent_same (hc : contents[i]? = some c) : onContent contents i some = some contents := by
  obtain ⟨hi, hget⟩ := List.getElem?_eq_some_iff.mp hc
  rw [onContent, hc, Option.bind_some, Option.map_some, ← hget, List.set_getElem_self]

theorem onContent_rejected (contents : List C) (i : Nat) :
    onContent contents i (fun _ => none) = none := by
  rw [onContent]
  cases contents[i]? with
  | none => rfl
  | some c => rfl

theorem onOne_meets (hr : Represents V h pool contents) (f : Option X → HeapM α (Int × Option X))
    (wanted : C → Option C) (hcode : code ≠ 0) (hnull : f none = pure (code, none))
    (hdoes : ∀ x c, pool[i]? = some x → contents[i]? = some c → V.Holds h x c →
      Meets (f (some x)) h (Does V h x c (wanted c))) :
    Meets (onOne pool i (f pool[i]?)) h fun r h' =>
      Settled V (onContent contents i wanted) contents h (r.1 == 0) r.2 h' := by
  apply Meets.bind
  cases hx : pool[i]? with
  | none =>
    rw [hnull]
    apply meets_pure
    refine meets_pure ⟨contents, hr, ?_⟩
    rw [beq_eq_false_iff_ne.mpr hcode, onContent, hr.get_none hx]
    exact .failed (.inl rfl)
  | some x =>
    obtain ⟨c, hc, hholds⟩ := hr.get hx
    apply (hdoes x c hx hc hholds).mono
    rintro ⟨code, handle⟩ h' ⟨x', rfl, hupdates⟩
    apply meets_pure
    rw [onContent, hc]
    exact hr.updates hx hc hupdates

theorem onTwo_meets (hr : Represents V h pool contents)
    (f : Option X → Option X → HeapM α (Int × Option X)) (wanted : C → C → Option C)
    (hcode : code ≠ 0) (hnull₁ : ∀ y, f none y = pure (code, none))
    (hnull₂ : ∀ x, f (some x) none = pure (code, some x))
    (hdoes : ∀ x y c d, pool[i]? = some x → pool[j]? = some y → contents[i]? = some c →
      contents[j]? = some d → V.Holds h x c → V.Holds h y d →
        Meets (f (some x) (some y)) h (Does V h x c (wanted c d))) :
    Meets (onOne pool i (f pool[i]? pool[j]?)) h fun r h' =>
      Settled V (contents[j]?.bind fun d => onContent contents i fun c => wanted c d) contents h
        (r.1 == 0) r.2 h' := by
  cases hy : pool[j]? with
  | none =>
    have hrejected : (contents[j]?.bind fun d => onContent contents i fun c => wanted c d) =
        onContent contents i fun _ => none := by
      rw [hr.get_none hy, onContent_rejected]
      rfl
    rw [hrejected]
    apply onOne_meets hr (fun x => f x none) _ hcode (hnull₁ _)
    intro x c _ _ hx
    rw [hnull₂]
    exact meets_pure (.rejected hcode hx rfl)
  | some y =>
    obtain ⟨d, hd, hholds⟩ := hr.get hy
    rw [hd, Option.bind_some]
    apply onOne_meets hr (fun x => f x (some y)) _ hcode (hnull₁ _)
    intro x c hx hc hholds'
    exact hdoes x y c d hx hy hc hd hholds' hholds

theorem makeOne_meets (hr : Represents V h pool contents) {f : HeapM α (Option X)}
    (hcreates : Meets f h (Creates V h wanted)) :
    Meets (makeOne pool f) h fun r h' =>
      Settled V (wanted.map fun c => contents ++ [c]) contents h r.1.isSome r.2 h' ∧
        ∀ place, r.1 = some place → place + 1 = r.2.length := by
  apply Meets.bind
  apply hcreates.mono
  intro r h' hr'
  refine meets_pure ⟨?_, ?_⟩
  · rw [Option.isSome_map]
    exact hr.creates hr'
  · intro place hplace
    cases r with
    | none => cases hplace
    | some x =>
      cases hplace
      rw [List.length_append]
      rfl

end

/-! ## Runs -/

section

variable (V : View α X C) (perform : Call → List X → HeapM α (Answer × List X))
  (Allowed : Call → List C → Heap α → Prop)
  (Agrees : Call → List C → Heap α → Answer → List C → Heap α → Prop)

/-- From here on every call is defined, as long as the calls are allowed, and the pool stands for what
the abstract calls make of it. -/
def Refines (h : Heap α) (pool : List X) (contents : List C) : List Call → Prop
  | [] => Represents V h pool contents
  | call :: calls =>
    Represents V h pool contents ∧
      (Allowed call contents h →
        ∃ answer pool' h' contents', perform call pool h = some ((answer, pool'), h') ∧
          Agrees call contents h answer contents' h' ∧
          Refines h' pool' contents' calls)

theorem refines_of_step
    (hstep : ∀ h pool contents call, Represents V h pool contents → Allowed call contents h →
      Meets (perform call pool) h fun r h' => ∃ contents', Represents V h' r.2 contents' ∧
        Agrees call contents h r.1 contents' h')
    {h : Heap α} {pool : List X} {contents : List C} (hr : Represents V h pool contents)
    (calls : List Call) : Refines V perform Allowed Agrees h pool contents calls := by
  induction calls generalizing h pool contents with
  | nil => exact hr
  | cons call calls ih =>
    refine ⟨hr, ?_⟩
    intro hallowed
    obtain ⟨⟨answer, pool'⟩, h', hrun, contents', hr', hagrees⟩ :=
      hstep h pool contents call hr hallowed
    exact ⟨answer, pool', h', contents', hrun, hagrees, ih hr'⟩

end

end SharedUtility.Memory
