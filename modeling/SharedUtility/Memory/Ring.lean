import Mathlib.Data.List.Chain
import Mathlib.Data.List.Nodup

/-!
# Memory.Ring — circular doubly linked lists

A cell is an address with a link forwards and a link backwards.

* `Linked`, `Ring` — two cells that point at each other, and a head with its entries in a circle,
* `Joined`        — one pair of links has been written, and no other,
* `Ring.spliced`, `Ring.cut` — a ring into which a chain is put, and from which one is taken.
-/

namespace SharedUtility.Memory

variable {α : Type} {next prev next' prev' next'' prev'' : α → α} {a b p n head x y : α}
variable {l l₁ l₂ before after middle entries : List α}

/-- `a` points forwards at `b`, and `b` backwards at `a`. -/
def Linked (next prev : α → α) (a b : α) : Prop :=
  next a = b ∧ prev b = a

/-- From `head` the links lead through `entries` and back. -/
def Ring (next prev : α → α) (head : α) (entries : List α) : Prop :=
  (head :: (entries ++ [head])).IsChain (Linked next prev)

/-- The links between `p` and `n` have been written, and no others. -/
structure Joined (next prev next' prev' : α → α) (p n : α) : Prop where
  forwards : next' p = n
  backwards : prev' n = p
  next_other : ∀ a, a ≠ p → next' a = next a
  prev_other : ∀ a, a ≠ n → prev' a = prev a

/-! ## Chains -/

section

/-- The links of a chain are those forwards of all its cells but the last, and those backwards of all
but the first. -/
theorem chain_congr (h : l.IsChain (Linked next prev)) (hnext : ∀ a ∈ l.dropLast, next' a = next a)
    (hprev : ∀ a ∈ l.tail, prev' a = prev a) : l.IsChain (Linked next' prev') := by
  induction l with
  | nil => exact .nil
  | cons a l ih =>
    cases l with
    | nil => exact .singleton a
    | cons b l =>
      rw [List.isChain_cons_cons] at h ⊢
      constructor
      · constructor
        · rw [hnext a (by simp)]
          exact h.1.1
        · rw [hprev b (by simp)]
          exact h.1.2
      · apply ih h.2
        · intro c hc
          exact hnext c (by simp [hc])
        · intro c hc
          exact hprev c (List.mem_of_mem_tail hc)

theorem Joined.frame (hj : Joined next prev next' prev' p n) (h : l.IsChain (Linked next prev))
    (hp : p ∉ l.dropLast) (hn : n ∉ l.tail) : l.IsChain (Linked next' prev') := by
  apply chain_congr h
  · intro a ha
    exact hj.next_other a fun heq => hp (heq ▸ ha)
  · intro a ha
    exact hj.prev_other a fun heq => hn (heq ▸ ha)

theorem getLast_notMem_dropLast (h : l.Nodup) (hne : l ≠ []) : l.getLast hne ∉ l.dropLast := by
  intro hmem
  rw [← List.dropLast_append_getLast hne] at h
  exact List.disjoint_of_nodup_append h hmem (by simp)

theorem head_notMem_tail (h : l.Nodup) (hne : l ≠ []) : l.head hne ∉ l.tail := by
  rw [← List.cons_head_tail hne] at h
  exact (List.nodup_cons.1 h).1

theorem Joined.chain (h₁ : l₁.IsChain (Linked next prev)) (h₂ : l₂.IsChain (Linked next prev))
    (hne₁ : l₁ ≠ []) (hne₂ : l₂ ≠ [])
    (hj : Joined next prev next' prev' (l₁.getLast hne₁) (l₂.head hne₂)) (hnodup₁ : l₁.Nodup)
    (hnodup₂ : l₂.Nodup) (hdropLast : l₁.Disjoint l₂.dropLast) (htail : l₁.tail.Disjoint l₂) :
    (l₁ ++ l₂).IsChain (Linked next' prev') := by
  have hchain₁ : l₁.IsChain (Linked next' prev') :=
    hj.frame h₁ (getLast_notMem_dropLast hnodup₁ hne₁) fun hmem =>
      htail hmem (List.head_mem hne₂)
  have hchain₂ : l₂.IsChain (Linked next' prev') :=
    hj.frame h₂ (fun hmem => hdropLast (List.getLast_mem hne₁) hmem)
      (head_notMem_tail hnodup₂ hne₂)
  rw [List.isChain_append]
  refine ⟨hchain₁, hchain₂, ?_⟩
  intro a ha b hb
  rw [List.getLast?_eq_some_getLast hne₁, Option.mem_some_iff] at ha
  rw [List.head?_eq_some_head hne₂, Option.mem_some_iff] at hb
  subst ha hb
  exact ⟨hj.forwards, hj.backwards⟩

end

/-! ## Rings -/

namespace Ring

theorem head_next (h : Ring next prev head entries) :
    next head = (entries ++ [head]).head (by simp) := by
  cases entries with
  | nil => exact (List.isChain_cons_cons.1 h).1.1
  | cons a entries => exact (List.isChain_cons_cons.1 h).1.1

theorem head_prev (h : Ring next prev head entries) :
    prev head = (head :: entries).getLast (by simp) := by
  have hchain : ((head :: entries) ++ [head]).IsChain (Linked next prev) := h
  have hlast := (List.isChain_append.1 hchain).2.2
    ((head :: entries).getLast (by simp)) (List.getLast_mem_getLast? _) head rfl
  exact hlast.2

theorem parts (h : Ring next prev head (before ++ after)) :
    (head :: before).IsChain (Linked next prev) ∧
      (after ++ [head]).IsChain (Linked next prev) := by
  have hchain : ((head :: before) ++ (after ++ [head])).IsChain (Linked next prev) := by
    simpa [Ring] using h
  exact ⟨hchain.left_of_append, hchain.right_of_append⟩

theorem entry_next (h : Ring next prev head (before ++ x :: after)) :
    next x = (after ++ [head]).head (by simp) := by
  have hchain : (x :: (after ++ [head])).IsChain (Linked next prev) := by
    simpa using h.parts.2
  cases after with
  | nil => exact (List.isChain_cons_cons.1 hchain).1.1
  | cons a after => exact (List.isChain_cons_cons.1 hchain).1.1

theorem entry_prev (h : Ring next prev head (before ++ x :: after)) :
    prev x = (head :: before).getLast (by simp) := by
  have hchain : ((head :: before) ++ (x :: (after ++ [head]))).IsChain (Linked next prev) := by
    simpa [Ring] using h
  have hlast := (List.isChain_append.1 hchain).2.2
    ((head :: before).getLast (by simp)) (List.getLast_mem_getLast? _) x rfl
  exact hlast.2

theorem inverse (h : Ring next prev head entries) (ha : a ∈ head :: entries) :
    prev (next a) = a ∧ next (prev a) = a := by
  rcases List.mem_cons.1 ha with rfl | ha
  · constructor
    · cases entries with
      | nil =>
        have hself := (List.isChain_cons_cons.1 h).1
        rw [hself.1, hself.2]
      | cons b entries =>
        have hfirst := (List.isChain_cons_cons.1 h).1
        rw [hfirst.1, hfirst.2]
    · rcases List.eq_nil_or_concat entries with rfl | ⟨front, b, rfl⟩
      · have hself := (List.isChain_cons_cons.1 h).1
        rw [hself.2, hself.1]
      · rw [List.concat_eq_append] at h
        have hnext := h.entry_next
        have hprev := h.head_prev
        simp only [List.nil_append, List.head_cons] at hnext
        rw [hprev]
        simpa using hnext
  · rcases List.append_of_mem ha with ⟨front, back, rfl⟩
    have hchain : ((head :: front) ++ (a :: (back ++ [head]))).IsChain (Linked next prev) := by
      simpa [Ring] using h
    have hbefore := (List.isChain_append.1 hchain).2.2
      ((head :: front).getLast (by simp)) (List.getLast_mem_getLast? _) a rfl
    have hafter : Linked next prev a ((back ++ [head]).head (by simp)) := by
      cases back with
      | nil => exact (List.isChain_cons_cons.1 hchain.right_of_append).1
      | cons b back => exact (List.isChain_cons_cons.1 hchain.right_of_append).1
    constructor
    · rw [hafter.1, hafter.2]
    · rw [hbefore.2, hbefore.1]

theorem frame (h : Ring next prev head entries) (hj : Joined next prev next' prev' p n)
    (hp : p ∉ head :: entries) (hn : n ∉ head :: entries) : Ring next' prev' head entries := by
  apply hj.frame h
  · intro hmem
    apply hp
    rwa [← List.cons_append, List.dropLast_concat] at hmem
  · intro hmem
    apply hn
    have hmem : n ∈ entries ++ [head] := hmem
    simpa [or_comm] using hmem

theorem separate (hnodup : (head :: (before ++ after)).Nodup) :
    (head :: before).Nodup ∧ (after ++ [head]).Nodup ∧ (head :: before).Disjoint after ∧
      before.Disjoint (after ++ [head]) := by
  have hfront : ((head :: before) ++ after).Nodup := hnodup
  have hback : (before ++ (after ++ [head])).Nodup := by
    rw [← List.append_assoc]
    exact List.nodup_append_comm.1 hnodup
  exact ⟨hfront.of_append_left, hback.of_append_right, List.disjoint_of_nodup_append hfront,
    List.disjoint_of_nodup_append hback⟩

/-- The links past `middle` are written. -/
theorem cut (h : Ring next prev head (before ++ (middle ++ after)))
    (hnodup : (head :: (before ++ (middle ++ after))).Nodup)
    (hj : Joined next prev next' prev' ((head :: before).getLast (by simp))
      ((after ++ [head]).head (by simp))) :
    Ring next' prev' head (before ++ after) := by
  have hback : (after ++ [head]).IsChain (Linked next prev) := by
    have hrest := h.parts.2
    rw [List.append_assoc] at hrest
    exact hrest.right_of_append
  have hsub : (head :: (before ++ after)).Sublist (head :: (before ++ (middle ++ after))) :=
    ((List.sublist_append_right middle after).append_left before).cons_cons head
  rcases separate (hnodup.sublist hsub) with ⟨hnodup₁, hnodup₂, hdisjoint, hdisjoint'⟩
  have hring : ((head :: before) ++ (after ++ [head])).IsChain (Linked next' prev') := by
    apply Joined.chain h.parts.1 hback (by simp) (by simp) hj hnodup₁ hnodup₂
    · rwa [List.dropLast_concat]
    · exact hdisjoint'
  simpa [Ring] using hring

theorem spliced (h : Ring next prev head (before ++ after))
    (hmiddle : middle.IsChain (Linked next prev)) (hne : middle ≠ [])
    (hnodup : (head :: (before ++ (middle ++ after))).Nodup)
    (hj : Joined next prev next' prev' (middle.getLast hne) ((after ++ [head]).head (by simp)))
    (hj' : Joined next' prev' next'' prev'' ((head :: before).getLast (by simp))
      (middle.head hne)) :
    Ring next'' prev'' head (before ++ (middle ++ after)) := by
  rcases separate hnodup with ⟨hnodup₁, hnodup₂, hdisjoint, hdisjoint'⟩
  have hmiddleNodup : middle.Nodup := by
    rw [List.append_assoc] at hnodup₂
    exact hnodup₂.of_append_left
  have hafterNodup : (after ++ [head]).Nodup := by
    rw [List.append_assoc] at hnodup₂
    exact hnodup₂.of_append_right
  have hmiddleAfter : middle.Disjoint (after ++ [head]) := by
    rw [List.append_assoc] at hnodup₂
    exact List.disjoint_of_nodup_append hnodup₂
  have hfar : (middle ++ (after ++ [head])).IsChain (Linked next' prev') := by
    apply Joined.chain hmiddle h.parts.2 hne (by simp) hj hmiddleNodup hafterNodup
    · intro a ha ha'
      rw [List.dropLast_concat] at ha'
      exact hmiddleAfter ha (List.mem_append_left _ ha')
    · intro a ha ha'
      exact hmiddleAfter (List.mem_of_mem_tail ha) ha'
  have hnear : (head :: before).IsChain (Linked next' prev') := by
    apply hj.frame h.parts.1
    · intro hmem
      have hmem : middle.getLast hne ∈ head :: before := List.dropLast_subset _ hmem
      exact hdisjoint hmem (List.mem_append_left _ (List.getLast_mem hne))
    · intro hmem
      apply hdisjoint' hmem
      rw [List.append_assoc]
      exact List.mem_append_right _ (List.head_mem _)
  have hj'' : Joined next' prev' next'' prev'' ((head :: before).getLast (by simp))
      ((middle ++ (after ++ [head])).head (by simp)) := by
    rwa [List.head_append_of_ne_nil hne]
  have hring : ((head :: before) ++ (middle ++ (after ++ [head]))).IsChain
      (Linked next'' prev'') := by
    apply Joined.chain hnear hfar (by simp) (by simp) hj'' hnodup₁
    · rwa [← List.append_assoc]
    · rwa [← List.append_assoc, List.dropLast_concat]
    · rwa [← List.append_assoc]
  simpa [Ring] using hring

end Ring

end SharedUtility.Memory
