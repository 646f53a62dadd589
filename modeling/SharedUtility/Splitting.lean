import Mathlib.Data.List.Infix
import Mathlib.Data.List.TakeWhile
import Mathlib.Tactic.Common

/-!
# Splitting — a list cut at delimiters

A list is cut at the leftmost place where a delimiter stands, and what is behind that delimiter is cut in
the same way. Where more than one delimiter stands at a place the first of the given ones counts.

The runs of a list are what is left of it between single delimiters, when the empty pieces are left out.
-/

namespace SharedUtility.Splitting

variable {α : Type} [DecidableEq α]

/-- The first delimiter that stands at the start. -/
def startsWith (delimiters : List (List α)) (text : List α) : Option (List α) :=
  delimiters.find? fun d => d <+: text

variable {delimiters : List (List α)} {text token front rest last last' d : List α}
variable {pieces pieces' : List (List α × List α)}

theorem startsWith_mem (h : startsWith delimiters text = some d) : d ∈ delimiters :=
  List.mem_of_find?_eq_some h

theorem startsWith_prefix (h : startsWith delimiters text = some d) : d <+: text := by
  have hfound := List.find?_some h
  simpa using hfound

/-- No delimiter stands in front of `rest`. -/
def Free (delimiters : List (List α)) (front rest : List α) : Prop :=
  ∀ a b, front = a ++ b → b ≠ [] → startsWith delimiters (b ++ rest) = none

theorem Free.nil : Free delimiters [] rest := by
  intro a b hsplit hne
  exact absurd (List.append_eq_nil_iff.1 hsplit.symm).2 hne

theorem Free.cons {x : α} (h : startsWith delimiters (x :: (front ++ rest)) = none)
    (hfree : Free delimiters front rest) : Free delimiters (x :: front) rest := by
  intro a b hsplit hne
  cases a with
  | nil =>
    rw [List.nil_append] at hsplit
    rw [← hsplit]
    exact h
  | cons y a =>
    rw [List.cons_append, List.cons.injEq] at hsplit
    exact hfree a b hsplit.2 hne

/-- The pieces of a list, each with the delimiter behind it, and what is left behind the last one. -/
inductive Splits (delimiters : List (List α)) :
    List α → List (List α × List α) → List α → Prop
  | last {text : List α} : Free delimiters text [] → Splits delimiters text [] text
  | cut {token d rest last : List α} {pieces : List (List α × List α)} :
      Free delimiters token (d ++ rest) → startsWith delimiters (d ++ rest) = some d →
        Splits delimiters rest pieces last →
          Splits delimiters (token ++ (d ++ rest)) ((token, d) :: pieces) last

theorem Splits.join (h : Splits delimiters text pieces last) :
    (pieces.flatMap fun piece => piece.1 ++ piece.2) ++ last = text := by
  induction h with
  | last _ => rfl
  | cut _ _ _ ih =>
    rw [List.flatMap_cons, List.append_assoc, ih, List.append_assoc]

theorem Splits.length_le (hne : ∀ d ∈ delimiters, d ≠ []) (h : Splits delimiters text pieces last) :
    pieces.length ≤ text.length := by
  induction h with
  | last _ => exact Nat.zero_le _
  | cut _ hd _ ih =>
    have hpos := List.length_pos_of_ne_nil (hne _ (startsWith_mem hd))
    simp only [List.length_cons, List.length_append]
    omega

theorem Free.length_le {front' rest' : List α} (h : Free delimiters front rest)
    (heq : front ++ rest = front' ++ rest') (hstarts : startsWith delimiters rest' ≠ none) :
    front.length ≤ front'.length := by
  by_contra hlt
  rcases List.append_eq_append_iff.1 heq with ⟨back, rfl, -⟩ | ⟨back, rfl, rfl⟩
  · rw [List.length_append] at hlt
    omega
  · have hback : back ≠ [] := by
      rintro rfl
      rw [List.append_nil] at hlt
      exact hlt (Nat.le_refl _)
    exact hstarts (h front' back rfl hback)

theorem Splits.unique (hne : ∀ d ∈ delimiters, d ≠ []) (h : Splits delimiters text pieces last)
    (h' : Splits delimiters text pieces' last') : pieces = pieces' ∧ last = last' := by
  induction h generalizing pieces' last' with
  | last hfree =>
    rename_i text
    generalize htext : text = whole at h'
    cases h' with
    | last _ =>
      subst htext
      exact ⟨rfl, rfl⟩
    | cut _ hd _ =>
      subst htext
      have hlength := hfree.length_le (List.append_nil _) (by rw [hd]; exact Option.some_ne_none _)
      have hpos := List.length_pos_of_ne_nil (hne _ (startsWith_mem hd))
      simp only [List.length_append] at hlength
      omega
  | cut hfree hd hrest ih =>
    rename_i token d rest last pieces
    generalize htext : token ++ (d ++ rest) = whole at h'
    cases h' with
    | last hfree' =>
      subst htext
      have hlength := hfree'.length_le (List.append_nil _) (by rw [hd]; exact Option.some_ne_none _)
      have hpos := List.length_pos_of_ne_nil (hne _ (startsWith_mem hd))
      simp only [List.length_append] at hlength
      omega
    | cut hfree' hd' hrest' =>
      rename_i token' d' rest' pieces'
      have hle := hfree.length_le htext (by rw [hd']; exact Option.some_ne_none _)
      have hge := hfree'.length_le htext.symm (by rw [hd]; exact Option.some_ne_none _)
      rcases List.append_inj htext (Nat.le_antisymm hle hge) with ⟨rfl, hbehind⟩
      rw [hbehind, hd', Option.some.injEq] at hd
      subst hd
      have hrests := List.append_cancel_left hbehind
      subst hrests
      rcases ih hrest' with ⟨rfl, rfl⟩
      exact ⟨rfl, rfl⟩

/-! ## Runs -/

section

variable {β : Type} {p : β → Bool} {x : β} {run rest : List β}

/-- The maximal non-empty runs of elements that are no delimiters. -/
def runs (p : β → Bool) (text : List β) : List (List β) :=
  (text.splitOnP p).filter (· ≠ [])

@[simp] theorem runs_nil : runs p [] = [] := rfl

theorem runs_cons (h : p x = true) : runs p (x :: rest) = runs p rest := by
  rw [runs, List.splitOnP_cons_eq_if_modifyHead, if_pos h, List.filter_cons]
  rfl

theorem runs_append {skipped : List β} (h : ∀ c ∈ skipped, p c = true) :
    runs p (skipped ++ rest) = runs p rest := by
  induction skipped with
  | nil => rfl
  | cons c skipped ih =>
    rw [List.cons_append, runs_cons (h c (List.mem_cons_self ..)),
      ih fun c' hc' => h c' (List.mem_cons_of_mem _ hc')]

theorem runs_run (hne : run ≠ []) (hrun : ∀ c ∈ run, p c = false) (h : p x = true) :
    runs p (run ++ x :: rest) = run :: runs p rest := by
  rw [runs, List.splitOnP_append_cons_of_forall_mem hrun x h, List.filter_cons,
    if_pos (decide_eq_true hne), runs]

theorem runs_last (hne : run ≠ []) (hrun : ∀ c ∈ run, p c = false) : runs p run = [run] := by
  rw [runs, List.splitOnP_eq_singleton hrun, List.filter_cons, if_pos (decide_eq_true hne)]
  rfl

theorem runs_delimiters {text : List β} (h : ∀ c ∈ text, p c = true) : runs p text = [] := by
  have hskip : runs p (text ++ []) = runs p [] := runs_append h
  rwa [List.append_nil] at hskip

theorem runs_cases (p : β → Bool) (text : List β) :
    (∀ c ∈ text, p c = true) ∨ ∃ skipped run behind,
      (∀ c ∈ skipped, p c = true) ∧ run ≠ [] ∧ (∀ c ∈ run, p c = false) ∧
        (behind = [] ∨ ∃ x rest, behind = x :: rest ∧ p x = true) ∧
          text = skipped ++ (run ++ behind) := by
  induction text with
  | nil => exact .inl nofun
  | cons c text ih =>
    cases hc : p c with
    | true =>
      rcases ih with hall | ⟨skipped, run, behind, hskipped, hne, hrun, hbehind, rfl⟩
      · exact .inl (List.forall_mem_cons.2 ⟨hc, hall⟩)
      · exact .inr ⟨c :: skipped, run, behind, List.forall_mem_cons.2 ⟨hc, hskipped⟩, hne, hrun,
          hbehind, rfl⟩
    | false =>
      -- the run starts here, and reaches to the first delimiter
      right
      refine ⟨[], c :: text.takeWhile (fun x => !p x), text.dropWhile (fun x => !p x), nofun,
        List.cons_ne_nil _ _, ?_, ?_, ?_⟩
      · refine List.forall_mem_cons.2 ⟨hc, fun x hx => ?_⟩
        simpa using List.mem_takeWhile_imp hx
      · cases hrest : text.dropWhile fun x => !p x with
        | nil => exact .inl rfl
        | cons x rest =>
          refine .inr ⟨x, rest, rfl, ?_⟩
          have hhead := List.head_dropWhile_not (fun x => !p x) (by rw [hrest]; simp)
          simpa [hrest] using hhead
      · simp

theorem not_delimiter_of_mem_splitOnP (text : List β) :
    ∀ piece ∈ text.splitOnP p, ∀ c ∈ piece, p c = false := by
  induction text with
  | nil =>
    intro piece hpiece c hc
    rw [List.splitOnP_nil, List.mem_singleton] at hpiece
    rw [hpiece] at hc
    cases hc
  | cons x text ih =>
    rw [List.splitOnP_cons_eq_if_modifyHead]
    cases hx : p x with
    | true =>
      rw [if_pos rfl, List.forall_mem_cons]
      exact ⟨nofun, ih⟩
    | false =>
      rw [if_neg (by simp)]
      cases hpieces : text.splitOnP p with
      | nil => exact nofun
      | cons first pieces =>
        rw [hpieces, List.forall_mem_cons] at ih
        rw [List.modifyHead_cons, List.forall_mem_cons, List.forall_mem_cons]
        exact ⟨⟨hx, ih.1⟩, ih.2⟩

theorem not_delimiter_of_mem_runs {text : List β} (h : run ∈ runs p text) {c : β} (hc : c ∈ run) :
    p c = false :=
  not_delimiter_of_mem_splitOnP text run (List.mem_of_mem_filter h) c hc

end

end SharedUtility.Splitting
