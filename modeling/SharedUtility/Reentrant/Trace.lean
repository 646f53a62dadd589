import Mathlib.Data.List.Basic
import Mathlib.Data.List.Induction

/-!
# Trace — what may and what may not follow what in a log

A log is a list of events, the latest last.  `Occurs f log k` says that it holds an event to which `f`
gives the name `k`; `NeverAfter first later log` that no event that `later` names follows one that
`first` gives the same name; `OnlyAfter first later log` that each does; `Followed first later log` that
each event that `first` names is followed by one that `later` gives the same name.
-/

namespace SharedUtility.Reentrant

variable {Event Name : Type} {f first later : Event → Option Name} {log log' : List Event}
variable {ev : Event} {k : Name}

def Occurs (f : Event → Option Name) (log : List Event) (k : Name) : Prop :=
  ∃ ev ∈ log, f ev = some k

def NeverAfter (first later : Event → Option Name) (log : List Event) : Prop :=
  ∀ before after, log = before ++ after → ∀ k, Occurs first before k → ¬ Occurs later after k

def OnlyAfter (first later : Event → Option Name) (log : List Event) : Prop :=
  ∀ before ev after, log = before ++ ev :: after → ∀ k, later ev = some k → Occurs first before k

def Followed (first later : Event → Option Name) (log : List Event) : Prop :=
  ∀ before ev after, log = before ++ ev :: after → ∀ k, first ev = some k → Occurs later after k

@[simp] theorem not_occurs_nil : ¬ Occurs f [] k := by
  intro h
  rcases h with ⟨ev, hev, -⟩
  cases hev

theorem occurs_append : Occurs f (log ++ log') k ↔ Occurs f log k ∨ Occurs f log' k := by
  constructor
  · rintro ⟨ev, hev, hk⟩
    rcases List.mem_append.1 hev with hev | hev
    · exact .inl ⟨ev, hev, hk⟩
    · exact .inr ⟨ev, hev, hk⟩
  · rintro (⟨ev, hev, hk⟩ | ⟨ev, hev, hk⟩)
    · exact ⟨ev, List.mem_append_left _ hev, hk⟩
    · exact ⟨ev, List.mem_append_right _ hev, hk⟩

@[simp] theorem occurs_singleton : Occurs f [ev] k ↔ f ev = some k := by
  simp [Occurs]

theorem occurs_concat : Occurs f (log ++ [ev]) k ↔ Occurs f log k ∨ f ev = some k := by
  rw [occurs_append, occurs_singleton]

theorem occurs_concat_of_none (h : f ev = none) : Occurs f (log ++ [ev]) k ↔ Occurs f log k := by
  simp [occurs_concat, h]

@[simp] theorem neverAfter_nil : NeverAfter first later ([] : List Event) := by
  intro before after hsplit k _ hlater
  rw [(List.append_eq_nil_iff.1 hsplit.symm).2] at hlater
  exact not_occurs_nil hlater

/-- The rule for one more event: `first` has not given its name before. -/
theorem NeverAfter.concat (h : NeverAfter first later log)
    (hev : ∀ k, later ev = some k → ¬ Occurs first log k) :
    NeverAfter first later (log ++ [ev]) := by
  intro before after hsplit k hfirst hlater
  rcases List.eq_nil_or_concat after with rfl | ⟨rest, last, rfl⟩
  · exact not_occurs_nil hlater
  · rw [List.concat_eq_append, ← List.append_assoc] at hsplit
    rcases List.append_inj' hsplit rfl with ⟨hlog, hlast⟩
    cases hlast
    rw [List.concat_eq_append, occurs_concat] at hlater
    rcases hlater with hlater | hlater
    · exact h before rest hlog k hfirst hlater
    · apply hev k hlater
      rw [hlog]
      exact occurs_append.2 (.inl hfirst)

theorem NeverAfter.concat_of_none (h : NeverAfter first later log) (hev : later ev = none) :
    NeverAfter first later (log ++ [ev]) := by
  apply h.concat
  intro k hk
  rw [hev] at hk
  cases hk

theorem NeverAfter.append_of_none (h : NeverAfter first later log)
    (hevs : ∀ ev ∈ log', later ev = none) : NeverAfter first later (log ++ log') := by
  induction log' using List.reverseRecOn with
  | nil => simpa using h
  | append_singleton evs ev ih =>
    rw [← List.append_assoc]
    have hinit := ih fun ev' hev' => hevs ev' (List.mem_append_left _ hev')
    exact hinit.concat_of_none (hevs ev (by simp))

theorem occurs_append_of_none (h : ∀ ev ∈ log', f ev = none) :
    Occurs f (log ++ log') k ↔ Occurs f log k := by
  rw [occurs_append]
  constructor
  · rintro (hk | ⟨ev, hev, hk⟩)
    · exact hk
    · rw [h ev hev] at hk
      cases hk
  · exact .inl

theorem Occurs.grow (h : Occurs f log k) (hlog : log <+: log') : Occurs f log' k := by
  rcases h with ⟨ev, hev, hk⟩
  exact ⟨ev, hlog.subset hev, hk⟩

@[simp] theorem onlyAfter_nil : OnlyAfter first later ([] : List Event) := by
  intro before ev after hsplit
  cases (List.append_eq_nil_iff.1 hsplit.symm).2

/-- The rule for one more event: `first` has given its name before. -/
theorem OnlyAfter.concat (h : OnlyAfter first later log)
    (hev : ∀ k, later ev = some k → Occurs first log k) :
    OnlyAfter first later (log ++ [ev]) := by
  intro before e after hsplit k hlater
  rcases List.eq_nil_or_concat after with rfl | ⟨rest, last, rfl⟩
  · rcases List.append_inj' hsplit rfl with ⟨rfl, hlast⟩
    cases hlast
    exact hev k hlater
  · rw [List.concat_eq_append, ← List.cons_append, ← List.append_assoc] at hsplit
    rcases List.append_inj' hsplit rfl with ⟨hlog, -⟩
    exact h before e rest hlog k hlater

@[simp] theorem followed_nil : Followed first later ([] : List Event) := by
  intro before ev after hsplit
  cases (List.append_eq_nil_iff.1 hsplit.symm).2

/-- The rule for more events, each of which `first` leaves alone. -/
theorem Followed.append_of_none (h : Followed first later log)
    (hevs : ∀ ev ∈ log', first ev = none) : Followed first later (log ++ log') := by
  intro before ev after hsplit k hfirst
  rcases List.append_eq_append_iff.1 hsplit with ⟨rest, -, hrest⟩ | ⟨rest, hlog, hrest⟩
  · have hev : ev ∈ log' := by
      rw [hrest]
      simp
    rw [hevs ev hev] at hfirst
    cases hfirst
  · cases rest with
    | nil =>
      have hev : ev ∈ log' := by
        rw [← List.nil_append log', ← hrest]
        simp
      rw [hevs ev hev] at hfirst
      cases hfirst
    | cons ev' rest =>
      rw [List.cons_append, List.cons.injEq] at hrest
      rcases hrest with ⟨rfl, rfl⟩
      exact occurs_append.2 (.inl (h before ev rest hlog k hfirst))

theorem Followed.answered {ev' : Event} (h : Followed first later log)
    (hfirst' : first ev' = none) (hlater : ∀ k, first ev = some k → later ev' = some k) :
    Followed first later (log ++ [ev, ev']) := by
  intro before e after hsplit k hfirst
  rcases List.append_eq_append_iff.1 hsplit with ⟨rest, -, hrest⟩ | ⟨rest, hlog, hrest⟩
  · match rest, hrest with
    | [], hrest =>
      simp only [List.nil_append, List.cons.injEq] at hrest
      rcases hrest with ⟨rfl, rfl⟩
      exact occurs_singleton.2 (hlater k hfirst)
    | [_], hrest =>
      simp only [List.cons_append, List.nil_append, List.cons.injEq] at hrest
      rcases hrest with ⟨-, rfl, -⟩
      rw [hfirst'] at hfirst
      cases hfirst
    | _ :: _ :: rest, hrest =>
      have hlength := congrArg List.length hrest
      simp at hlength
  · cases rest with
    | nil =>
      simp only [List.nil_append, List.cons.injEq] at hrest
      rcases hrest with ⟨rfl, rfl⟩
      exact occurs_singleton.2 (hlater k hfirst)
    | cons e' rest =>
      rw [List.cons_append, List.cons.injEq] at hrest
      rcases hrest with ⟨rfl, rfl⟩
      exact occurs_append.2 (.inl (h before e rest hlog k hfirst))

end SharedUtility.Reentrant
