import SharedUtility.EqualParts

/-!
# BlockStream — functions that take their input in blocks, given it item by item

* `Buffered` — the state after the whole blocks, and what does not make a block yet,
* `feed` — one more item: a block that is full is taken at once,
* `feedAll_append` — how the input is cut does not matter,
* `feedAll_parts` — what is fed is taken block by block.
-/

namespace SharedUtility.BlockStream

variable {α H : Type}

structure Buffered (H α : Type) where
  state : H
  rest : List α

def feed (size : Nat) (compress : H → List α → H) (b : Buffered H α) (a : α) : Buffered H α :=
  if b.rest.length + 1 = size then { state := compress b.state (b.rest ++ [a]), rest := [] }
  else { b with rest := b.rest ++ [a] }

def feedAll (size : Nat) (compress : H → List α → H) (b : Buffered H α) (xs : List α) : Buffered H α :=
  xs.foldl (feed size compress) b

/-- The blocks of an input that is made of whole ones. -/
def compressAll (size : Nat) (compress : H → List α → H) (h : H) (xs : List α) : H :=
  (parts size (xs.length / size) xs).foldl compress h

section

variable {size : Nat} {compress : H → List α → H} {b : Buffered H α} {xs ys : List α}

@[simp] theorem feedAll_nil : feedAll size compress b [] = b :=
  rfl

theorem feedAll_cons (a : α) :
    feedAll size compress b (a :: xs) = feedAll size compress (feed size compress b a) xs :=
  rfl

theorem feedAll_append :
    feedAll size compress b (xs ++ ys) = feedAll size compress (feedAll size compress b xs) ys :=
  List.foldl_append

theorem feed_rest_lt (hpos : 0 < size) (hrest : b.rest.length < size) (a : α) :
    (feed size compress b a).rest.length < size := by
  unfold feed
  split_ifs with hfull
  · exact hpos
  · rw [List.length_append, List.length_singleton]
    exact Nat.lt_of_le_of_ne hrest hfull

theorem feedAll_rest_lt (hpos : 0 < size) (hrest : b.rest.length < size) :
    (feedAll size compress b xs).rest.length < size := by
  induction xs generalizing b with
  | nil => exact hrest
  | cons a xs ih =>
    rw [feedAll_cons]
    exact ih (feed_rest_lt hpos hrest a)

theorem feed_rest_length (hrest : b.rest.length < size) (a : α) :
    (feed size compress b a).rest.length = (b.rest.length + 1) % size := by
  unfold feed
  split_ifs with hfull
  · rw [hfull, Nat.mod_self]
    rfl
  · rw [List.length_append, List.length_singleton, Nat.mod_eq_of_lt (Nat.lt_of_le_of_ne hrest hfull)]

theorem feedAll_rest_length (hpos : 0 < size) (hrest : b.rest.length < size) :
    (feedAll size compress b xs).rest.length = (b.rest.length + xs.length) % size := by
  induction xs generalizing b with
  | nil => exact (Nat.mod_eq_of_lt hrest).symm
  | cons a xs ih =>
    rw [feedAll_cons, ih (feed_rest_lt hpos hrest a), feed_rest_length hrest, Nat.mod_add_mod,
      List.length_cons]
    congr 1
    exact Nat.add_right_comm ..

theorem feedAll_short (hshort : b.rest.length + xs.length < size) :
    feedAll size compress b xs = { b with rest := b.rest ++ xs } := by
  induction xs generalizing b with
  | nil => rw [feedAll_nil, List.append_nil]
  | cons a xs ih =>
    rw [List.length_cons] at hshort
    have hmore : b.rest.length + 1 ≠ size := by omega
    rw [feedAll_cons, feed, if_neg hmore, ih]
    · rw [List.append_assoc, List.singleton_append]
    · rw [List.length_append, List.length_singleton]
      omega

theorem feedAll_full (hfull : b.rest.length + xs.length = size) (hne : xs ≠ []) :
    feedAll size compress b xs = { state := compress b.state (b.rest ++ xs), rest := [] } := by
  rw [← List.dropLast_append_getLast hne] at hfull ⊢
  rw [List.length_append, List.length_singleton, ← Nat.add_assoc] at hfull
  have hshort : b.rest.length + xs.dropLast.length < size := by omega
  rw [feedAll_append, feedAll_short hshort, feedAll_cons, feedAll_nil, feed]
  dsimp only
  rw [List.length_append, if_pos hfull, List.append_assoc]

end

section

variable {size : Nat} {compress : H → List α → H} {h : H} {xs : List α}

theorem compressAll_nil : compressAll size compress h ([] : List α) = h := by
  rw [compressAll, List.length_nil, Nat.zero_div]
  rfl

theorem compressAll_block (hpos : 0 < size) (hsize : size ≤ xs.length) :
    compressAll size compress h xs = compressAll size compress (compress h (xs.take size)) (xs.drop size) := by
  have hcount : xs.length / size = (xs.drop size).length / size + 1 := by
    rw [List.length_drop, Nat.div_eq_sub_div hpos hsize]
  rw [compressAll, hcount, parts, List.foldl_cons, compressAll]

theorem feedAll_parts (hpos : 0 < size) (hdvd : size ∣ xs.length) :
    feedAll size compress { state := h, rest := [] } xs =
      { state := compressAll size compress h xs, rest := [] } := by
  rcases hdvd with ⟨count, hcount⟩
  induction count generalizing h xs with
  | zero =>
    rw [Nat.mul_zero] at hcount
    rw [List.eq_nil_of_length_eq_zero hcount, feedAll_nil, compressAll_nil]
  | succ count ih =>
    rw [Nat.mul_succ] at hcount
    have hsize : size ≤ xs.length := by omega
    have htake : (xs.take size).length = size := List.length_take_of_le hsize
    have hne : xs.take size ≠ [] := List.ne_nil_of_length_pos (htake.symm ▸ hpos)
    have hfirst : feedAll size compress { state := h, rest := [] } (xs.take size) =
        { state := compress h (xs.take size), rest := [] } :=
      feedAll_full (by rw [htake]; exact Nat.zero_add size) hne
    calc feedAll size compress { state := h, rest := [] } xs
        = feedAll size compress { state := h, rest := [] } (xs.take size ++ xs.drop size) := by
          rw [List.take_append_drop]
      _ = feedAll size compress { state := compress h (xs.take size), rest := [] } (xs.drop size) := by
          rw [feedAll_append, hfirst]
      _ = { state := compressAll size compress (compress h (xs.take size)) (xs.drop size), rest := [] } := by
          apply ih
          rw [List.length_drop]
          omega
      _ = { state := compressAll size compress h xs, rest := [] } := by
          rw [← compressAll_block hpos hsize]

end

end SharedUtility.BlockStream
