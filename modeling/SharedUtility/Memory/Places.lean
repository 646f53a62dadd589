import SharedUtility.Memory.Blocks

/-!
# Memory.Places — single places of a block

* `storeAt`, `loadAt` — one place is written, and one that has been written is read; to read another one
  is undefined behaviour,
* `storeEach` — places are written one after the other,
* `Filled` — the start of a block has been written.
-/

namespace SharedUtility.Memory

variable {β : Type}

def storeAt (p : Ptr) (i : Nat) (x : β) : HeapM (Region β) Unit :=
  store p i [some x]

def loadAt (p : Ptr) (i : Nat) : HeapM (Region β) β := do
  let xs ← load p i 1
  match xs with
  | [some x] => pure x
  | _ => undefined

def storeEach (p : Ptr) : (i : Nat) → List β → HeapM (Region β) Unit
  | _, [] => pure ()
  | i, x :: xs => do
    storeAt p i x
    storeEach p (i + 1) xs

/-- The block at `p` starts with `xs`, and has `spare` places behind them. -/
def Filled (h : Heap (Region β)) (p : Ptr) (xs : List β) (spare : Nat) : Prop :=
  h.cell p = some (xs.map some ++ unwritten spare)

section

variable {h : Heap (Region β)} {p : Ptr} {xs ys front back : List β} {x y : β} {i spare : Nat}

theorem filled_nil : Filled h p [] spare ↔ h.cell p = some (unwritten spare) :=
  Iff.rfl

theorem meets_storeAt_next (hp : Filled h p xs (spare + 1)) (hi : i = xs.length)
    {Q : Unit → Heap (Region β) → Prop}
    (hQ : ∀ h', Replaces h h' p p → Filled h' p (xs ++ [x]) spare → Q () h') :
    Meets (storeAt p i x) h Q := by
  subst hi
  apply meets_store hp
  · simp only [List.length_append, List.length_map, length_unwritten, List.length_singleton]
    omega
  · intro h' hh hcell
    apply hQ h' hh
    have hnext : overwritten (xs.map some ++ unwritten (1 + spare)) (xs.map some).length [some x] =
        xs.map some ++ [some x] ++ unwritten spare :=
      overwritten_append _ (show [some x].length = 1 from rfl) spare
    rw [List.length_map, Nat.add_comm 1] at hnext
    rw [Filled, hcell, hnext, List.map_append]
    rfl

theorem meets_storeAt (hp : Filled h p (front ++ x :: back) spare) (hi : i = front.length)
    {Q : Unit → Heap (Region β) → Prop}
    (hQ : ∀ h', Replaces h h' p p → Filled h' p (front ++ y :: back) spare → Q () h') :
    Meets (storeAt p i y) h Q := by
  subst hi
  apply meets_store hp
  · simp only [List.length_append, List.length_map, List.length_cons, length_unwritten,
      List.length_nil]
    omega
  · intro h' hh hcell
    apply hQ h' hh
    have hagain : overwritten (front.map some ++ [some x] ++ (back.map some ++ unwritten spare))
        (front.map some).length [some y] =
          front.map some ++ [some y] ++ (back.map some ++ unwritten spare) :=
      overwritten_between rfl
    rw [List.length_map] at hagain
    rw [Filled, hcell]
    simp only [List.map_append, List.map_cons, List.append_assoc, List.cons_append,
      List.nil_append] at hagain ⊢
    rw [hagain]

theorem meets_loadAt (hp : Filled h p xs spare) (hx : xs[i]? = some x)
    {Q : β → Heap (Region β) → Prop} (hQ : Q x h) : Meets (loadAt p i) h Q := by
  rcases List.getElem?_eq_some_iff.1 hx with ⟨hi, hget⟩
  have hload : ((xs.map some ++ unwritten spare).drop i).take 1 = [some x] := by
    rw [List.drop_append_of_le_length (by rw [List.length_map]; omega), List.drop_eq_getElem_cons
      (by rw [List.length_map]; exact hi), List.getElem_map, hget]
    rfl
  apply Meets.bind
  apply meets_load hp
  · rw [List.length_append, List.length_map]
    omega
  · rw [hload]
    exact meets_pure hQ

theorem meets_storeEach (hp : Filled h p xs (ys.length + spare)) (hi : i = xs.length)
    {Q : Unit → Heap (Region β) → Prop}
    (hQ : ∀ h', Replaces h h' p p → Filled h' p (xs ++ ys) spare → Q () h') :
    Meets (storeEach p i ys) h Q := by
  induction ys generalizing h xs i with
  | nil =>
    apply meets_pure
    apply hQ h (Replaces.refl h p)
    rw [List.append_nil]
    rwa [List.length_nil, Nat.zero_add] at hp
  | cons y ys ih =>
    rw [List.length_cons, Nat.add_right_comm] at hp
    apply Meets.bind
    apply meets_storeAt_next hp hi
    intro h' hh hfilled
    apply ih hfilled
    · rw [List.length_append, List.length_singleton, hi]
    · intro h'' hh' hfilled'
      apply hQ h'' (hh.trans hh')
      rwa [List.append_assoc, List.singleton_append] at hfilled'

end

end SharedUtility.Memory
