import SharedUtility.Memory.Places

/-!
# Memory.Cursor — a text is put together in a block

* `Starts` — what a block of a known size starts with,
* `Step`, `inOrder` — functions that write at a position and return the next one, and their composition, which
  ends with the first failure,
* `Appends` — a step writes its text at the end of what is there, and nothing in front of it,
* `Finishes` — a step does so, and leaves its terminator.

A step may use one place more than its text has, for a terminator that the next step overwrites.
-/

namespace SharedUtility.Memory

variable {β : Type}

/-- The block at `p` has `size` places, and the first ones hold `xs`. -/
def Starts (h : Heap (Region β)) (p : Ptr) (xs : List β) (size : Nat) : Prop :=
  ∃ back, h.cell p = some (xs.map some ++ back) ∧ xs.length + back.length = size

/-- Write at a position; the result is the position behind it, `none` a failure. -/
abbrev Step (β : Type) :=
  (position : Nat) → HeapM (Region β) (Option Nat)

/-- The steps one after the other, until one fails. -/
def inOrder : List (Step β) → Step β
  | [], position => pure (some position)
  | step :: steps, position => do
    let next ← step position
    match next with
    | none => pure none
    | some position => inOrder steps position

/-- A step for blocks of `size` places that writes `text`. -/
def Appends (p : Ptr) (size : Nat) (step : Step β) (text : List β) : Prop :=
  ∀ (h : Heap (Region β)) (xs : List β), Starts h p xs size → xs.length + text.length < size →
    Meets (step xs.length) h fun next h' =>
      next = some (xs.length + text.length) ∧ Starts h' p (xs ++ text) size ∧ Replaces h h' p p

/-- A step that writes `text` and `x` behind it. -/
def Finishes (p : Ptr) (size : Nat) (step : Step β) (text : List β) (x : β) : Prop :=
  ∀ (h : Heap (Region β)) (xs : List β), Starts h p xs size → xs.length + text.length < size →
    Meets (step xs.length) h fun next h' =>
      next = some (xs.length + text.length) ∧ Starts h' p (xs ++ text ++ [x]) size ∧ Replaces h h' p p

section

variable {h : Heap (Region β)} {p : Ptr} {xs ys text text' : List β} {size : Nat} {step step' : Step β}
  {x : β}

theorem starts_unwritten (hp : h.cell p = some (unwritten size)) : Starts h p [] size :=
  ⟨unwritten size, hp, by rw [List.length_nil, Nat.zero_add, length_unwritten]⟩

theorem Starts.filled (hp : Starts h p xs size) (hfull : xs.length = size) : Filled h p xs 0 := by
  rcases hp with ⟨back, hcell, hlength⟩
  have hback : back = [] := List.eq_nil_of_length_eq_zero (by omega)
  rw [hback] at hcell
  exact hcell

theorem Starts.front (hp : Starts h p (xs ++ ys) size) : Starts h p xs size := by
  rcases hp with ⟨back, hcell, hlength⟩
  refine ⟨ys.map some ++ back, ?_, ?_⟩
  · rw [hcell, List.map_append, List.append_assoc]
  · rw [List.length_append, List.length_map]
    rw [List.length_append] at hlength
    omega

theorem Starts.meets_store (hp : Starts h p xs size) (hfit : xs.length + ys.length ≤ size)
    {Q : Unit → Heap (Region β) → Prop}
    (hQ : ∀ h', Replaces h h' p p → Starts h' p (xs ++ ys) size → Q () h') :
    Meets (store p xs.length (ys.map some)) h Q := by
  rcases hp with ⟨back, hcell, hlength⟩
  apply Memory.meets_store hcell
  · simp only [List.length_append, List.length_map]
    omega
  · intro h' hh hcell'
    apply hQ h' hh
    refine ⟨back.drop ys.length, ?_, ?_⟩
    · have hstart : (xs.map some).length = xs.length := List.length_map _
      rw [hcell', overwritten, List.length_map, ← hstart, List.take_left' rfl,
        List.drop_length_add_append, List.map_append]
    · rw [List.length_append, List.length_drop]
      omega

theorem Starts.meets_copyIn (hp : Starts h p xs size) (hfit : xs.length + ys.length ≤ size)
    {Q : Unit → Heap (Region β) → Prop}
    (hQ : ∀ h', Replaces h h' p p → Starts h' p (xs ++ ys) size → Q () h') :
    Meets (copyIn p xs.length ys ys.length) h Q := by
  rw [copyIn, if_pos (Nat.le_refl _), List.take_length]
  exact hp.meets_store hfit hQ

theorem Starts.meets_storeAt (hp : Starts h p xs size) (hfit : xs.length < size)
    {Q : Unit → Heap (Region β) → Prop}
    (hQ : ∀ h', Replaces h h' p p → Starts h' p (xs ++ [x]) size → Q () h') :
    Meets (storeAt p xs.length x) h Q :=
  @Starts.meets_store _ _ _ _ [x] _ hp hfit _ hQ

theorem appends_nil : Appends p size (fun position : Nat => (pure (some position) :
    HeapM (Region β) (Option Nat))) [] := by
  intro h xs hp _
  refine meets_pure ⟨rfl, ?_, Replaces.refl h p⟩
  rwa [List.append_nil]

theorem Appends.cons {steps : List (Step β)} (hstep : Appends p size step text)
    (hsteps : Appends p size (inOrder steps) text') :
    Appends p size (inOrder (step :: steps)) (text ++ text') := by
  intro h xs hp hroom
  rw [List.length_append] at hroom
  apply Meets.bind
  apply (hstep h xs hp (by omega)).mono
  rintro next h' ⟨rfl, hp', hh⟩
  rw [← List.length_append]
  apply (hsteps h' (xs ++ text) hp' (by rw [List.length_append]; omega)).mono
  rintro next h'' ⟨rfl, hp'', hh'⟩
  refine ⟨?_, ?_, hh.trans hh'⟩
  · rw [List.length_append, List.length_append, Nat.add_assoc]
  · rwa [List.append_assoc] at hp''

theorem appends_inOrder {steps : List (Step β)} {texts : List (List β)}
    (h : List.Forall₂ (Appends p size) steps texts) : Appends p size (inOrder steps) texts.flatten := by
  induction h with
  | nil => exact appends_nil
  | cons hstep _ ih => exact hstep.cons ih

theorem Finishes.appends (h : Finishes p size step text x) : Appends p size step text := by
  intro heap xs hp hroom
  apply (h heap xs hp hroom).mono
  rintro next h' ⟨hnext, hp', hh⟩
  exact ⟨hnext, hp'.front, hh⟩

theorem finishes_inOrder {steps : List (Step β)} {texts : List (List β)}
    (h : List.Forall₂ (Appends p size) steps texts) (hlast : Finishes p size step text x) :
    Finishes p size (inOrder (steps ++ [step])) (texts.flatten ++ text) x := by
  induction h with
  | nil =>
    intro heap xs hp hroom
    apply Meets.bind
    apply (hlast heap xs hp hroom).mono
    rintro next h' ⟨rfl, hp', hh⟩
    exact meets_pure ⟨rfl, hp', hh⟩
  | @cons first front steps texts hfirst _ ih =>
    intro heap xs hp hroom
    rw [List.flatten_cons, List.append_assoc, List.length_append] at hroom
    apply Meets.bind
    apply (hfirst heap xs hp (by omega)).mono
    rintro next h' ⟨rfl, hp', hh⟩
    rw [← List.length_append]
    apply (ih h' (xs ++ front) hp' (by rw [List.length_append]; omega)).mono
    rintro next h'' ⟨rfl, hp'', hh'⟩
    rw [List.flatten_cons, List.append_assoc front]
    refine ⟨?_, ?_, hh.trans hh'⟩
    · simp only [List.length_append, Nat.add_assoc]
    · rwa [List.append_assoc xs front] at hp''

end

end SharedUtility.Memory
