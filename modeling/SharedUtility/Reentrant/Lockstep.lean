import Mathlib.Data.List.Forall2
import Mathlib.Data.Option.Basic
import SharedUtility.Reentrant.Machine

/-!
# Lockstep — two runs of a component on the same inputs

Two runs whose states are related make the same calls as long as the code does not look at what tells
the states apart.

* `Prog.Alike` — two runs make the same calls, in related states, and end in a relation,
* `rwp`        — the corresponding relational precondition of two pieces of code, with its rules,
* `runInputs_alike` — if all procedures keep the relation, the same inputs lead to related
  configurations, or to none in both runs.
-/

namespace SharedUtility.Reentrant

variable {S : Type} {sig : Signature} {α β : Type}

/-- The same calls: `R` holds of the states at each call, and may be relied on at its return. -/
inductive Prog.Alike (R : S → S → Prop) (Q : α → α → S → S → Prop) :
    Prog S sig α → Prog S sig α → Prop
  | ret {a a' : α} {s s' : S} : Q a a' s s' → Alike R Q (.ret a s) (.ret a' s')
  | call {c : sig.Call} {s s' : S} {k k' : sig.Ans c → S → Prog S sig α} :
      R s s' → (∀ r t t', R t t' → Alike R Q (k r t) (k' r t')) →
        Alike R Q (.call c s k) (.call c s' k')
  | proc {p : sig.Proc} {s s' : S} {k k' : Int → S → Prog S sig α} :
      R s s' → (∀ v t t', R t t' → Alike R Q (k v t) (k' v t')) →
        Alike R Q (.proc p s k) (.proc p s' k')

theorem Prog.Alike.bind {R : S → S → Prop} {V : α → α → S → S → Prop} {Q : β → β → S → S → Prop}
    {p p' : Prog S sig α} {f f' : α → S → Prog S sig β} (h : p.Alike R V p')
    (hf : ∀ a a' s s', V a a' s s' → (f a s).Alike R Q (f' a' s')) :
    (p.bind f).Alike R Q (p'.bind f') := by
  induction h with
  | ret h => exact hf _ _ _ _ h
  | call hR _ ih => exact .call hR fun r t t' ht => ih r t t' ht
  | proc hR _ ih => exact .proc hR fun v t t' ht => ih v t t' ht

theorem Prog.Alike.mono {R : S → S → Prop} {Q Q' : α → α → S → S → Prop} {p p' : Prog S sig α}
    (h : p.Alike R Q p') (hQ : ∀ a a' s s', Q a a' s s' → Q' a a' s s') : p.Alike R Q' p' := by
  induction h with
  | ret h => exact .ret (hQ _ _ _ _ h)
  | call hR _ ih => exact .call hR fun r t t' ht => ih r t t' ht
  | proc hR _ ih => exact .proc hR fun v t t' ht => ih v t t' ht

/-! ## Rules for code -/

/-- The relational precondition: started in `s` and `s'`, the two runs are alike. -/
def rwp (R : S → S → Prop) (c c' : Comp S sig α) (Q : α → α → S → S → Prop) (s s' : S) : Prop :=
  (c s).Alike R Q (c' s')

section

variable {R : S → S → Prop} {s s' : S}

theorem rwp_pure {a a' : α} {Q : α → α → S → S → Prop} (h : Q a a' s s') :
    rwp R (pure a : Comp S sig α) (pure a') Q s s' :=
  .ret h

theorem rwp_bind {c c' : Comp S sig α} {f f' : α → Comp S sig β} {Q : β → β → S → S → Prop}
    (h : rwp R c c' (fun a a' => rwp R (f a) (f' a') Q) s s') :
    rwp R (c >>= f) (c' >>= f') Q s s' :=
  Prog.Alike.bind h fun _ _ _ _ h' => h'

theorem rwp_get {Q : S → S → S → S → Prop} (h : Q s s' s s') :
    rwp R (Comp.get : Comp S sig S) Comp.get Q s s' :=
  .ret h

theorem rwp_modify {f f' : S → S} {Q : Unit → Unit → S → S → Prop} (h : Q () () (f s) (f' s')) :
    rwp R (Comp.modify f : Comp S sig Unit) (Comp.modify f') Q s s' :=
  .ret h

theorem rwp_call {c : sig.Call} {Q : sig.Ans c → sig.Ans c → S → S → Prop} (hR : R s s')
    (h : ∀ r t t', R t t' → Q r r t t') :
    rwp R (Comp.call c) (Comp.call c) Q s s' :=
  .call hR fun r t t' ht => .ret (h r t t' ht)

theorem rwp_mono {c c' : Comp S sig α} {Q Q' : α → α → S → S → Prop} (h : rwp R c c' Q s s')
    (hQ : ∀ a a' t t', Q a a' t t' → Q' a a' t t') : rwp R c c' Q' s s' :=
  Prog.Alike.mono h hQ

end

/-! ## Runs -/

/-- The same result in related states. -/
def Agree (R : S → S → Prop) (a a' : α) (s s' : S) : Prop :=
  a = a' ∧ R s s'

inductive Frame.Alike (R : S → S → Prop) : Frame S sig → Frame S sig → Prop
  | inner {k k' : Int → S → Prog S sig Int} :
      (∀ v t t', R t t' → (k v t).Alike R (Agree R) (k' v t')) → Alike R (.inner k) (.inner k')
  | outer {c : sig.Call} {k k' : sig.Ans c → S → Prog S sig Int} :
      (∀ r t t', R t t' → (k r t).Alike R (Agree R) (k' r t')) → Alike R (.outer c k) (.outer c k')

inductive Config.Alike (R : S → S → Prop) : Config S sig → Config S sig → Prop
  | env {s s' : S} {st st' : List (Frame S sig)} :
      R s s' → List.Forall₂ (Frame.Alike R) st st' → Alike R (.env s st) (.env s' st')
  | run {p p' : Prog S sig Int} {st st' : List (Frame S sig)} :
      p.Alike R (Agree R) p' → List.Forall₂ (Frame.Alike R) st st' →
        Alike R (.run p st) (.run p' st')

/-- The procedures keep the relation, and the environment does not look further. -/
structure Lockstep (R : S → S → Prop) (code : sig.Proc → Comp S sig Int) (e : Env S sig) : Prop where
  code_alike : ∀ p s s', R s s' → rwp R (code p) (code p) (Agree R) s s'
  mayEnter : ∀ top p s s', R s s' → e.mayEnter top p s = e.mayEnter top p s'
  mayAnswer : ∀ c r s s', R s s' → e.mayAnswer c r s = e.mayAnswer c r s'
  mayRun : ∀ p s s', R s s' → e.mayRun p s = e.mayRun p s'

namespace Lockstep

variable {R : S → S → Prop} {code : sig.Proc → Comp S sig Int} {e : Env S sig}

/-- By induction on the number of inner steps. -/
theorem settle_alike (h : Lockstep R code e) :
    ∀ (n : Nat) {cfg cfg' : Config S sig}, cfg.Alike R cfg' →
      Option.Rel (Config.Alike R) (e.settle code n cfg) (e.settle code n cfg') := by
  intro n
  induction n with
  | zero =>
    intro cfg cfg' _
    exact .none
  | succ n ih =>
    intro cfg cfg' halike
    cases halike with
    | env hR hst => exact .some (.env hR hst)
    | run hp hst =>
      cases hp with
      | call hR hk => exact ih (.env hR (.cons (.outer hk) hst))
      | @proc p s s' k k' hR hk =>
        simp only [Env.settle, h.mayRun p s s' hR]
        split
        · exact ih (.run (h.code_alike p s s' hR) (.cons (.inner hk) hst))
        · exact .none
      | ret hagree =>
        rcases hagree with ⟨rfl, hR⟩
        cases hst with
        | nil => exact ih (.env hR .nil)
        | cons hframe hst =>
          cases hframe with
          | inner hk => exact ih (.run (hk _ _ _ hR) hst)
          | outer hk => exact ih (.env hR (.cons (.outer hk) hst))

theorem runInput_alike (h : Lockstep R code e) (fuel : Nat) {cfg cfg' : Config S sig}
    (halike : cfg.Alike R cfg') (i : Input sig) :
    Option.Rel (Config.Alike R) (e.runInput code fuel cfg i) (e.runInput code fuel cfg' i) := by
  cases halike with
  | run hp hst => exact .none
  | @env s s' st st' hR hst =>
    cases hst with
    | nil =>
      cases i with
      | answer f => exact .none
      | enter p =>
        simp only [Env.runInput, h.mayEnter none p s s' hR, h.mayRun p s s' hR]
        split
        · exact h.settle_alike fuel (.run (h.code_alike p s s' hR) .nil)
        · exact .none
    | cons hframe hst =>
      cases hframe with
      | inner hk =>
        cases i
        all_goals exact .none
      | @outer c k k' hk =>
        cases i with
        | enter p =>
          simp only [Env.runInput, h.mayEnter (some c) p s s' hR, h.mayRun p s s' hR]
          split
          · exact h.settle_alike fuel
              (.run (h.code_alike p s s' hR) (.cons (.outer hk) hst))
          · exact .none
        | answer f =>
          simp only [Env.runInput, h.mayAnswer c (f c) s s' hR]
          split
          · exact h.settle_alike fuel (.run (hk (f c) s s' hR) hst)
          · exact .none

/-- The same inputs lead to related configurations, or to none. -/
theorem runInputs_alike (h : Lockstep R code e) (fuel : Nat) :
    ∀ (is : List (Input sig)) {cfg cfg' : Config S sig}, cfg.Alike R cfg' →
      Option.Rel (Config.Alike R) (e.runInputs code fuel cfg is)
        (e.runInputs code fuel cfg' is) := by
  intro is
  induction is with
  | nil =>
    intro cfg cfg' halike
    exact .some halike
  | cons i is ih =>
    intro cfg cfg' halike
    have hfirst := h.runInput_alike fuel halike i
    simp only [Env.runInputs]
    generalize e.runInput code fuel cfg i = next at hfirst ⊢
    generalize e.runInput code fuel cfg' i = next' at hfirst ⊢
    cases hfirst with
    | none => exact .none
    | some halike' => exact ih halike'

/-- Two runs that start with a procedure which brings the states into the relation. -/
theorem runInputs_enter (h : Lockstep R code e) (fuel : Nat) {p : sig.Proc} {s s' : S}
    (hp : rwp R (code p) (code p) (Agree R) s s')
    (hmay : (e.mayEnter none p s && e.mayRun p s) = true)
    (hmay' : (e.mayEnter none p s' && e.mayRun p s') = true) (is : List (Input sig)) :
    Option.Rel (Config.Alike R) (e.runInputs code fuel (.env s []) (.enter p :: is))
      (e.runInputs code fuel (.env s' []) (.enter p :: is)) := by
  have hfirst := h.settle_alike fuel (.run hp .nil)
  simp only [Env.runInputs, Env.runInput, if_pos hmay, if_pos hmay']
  generalize e.settle code fuel (.run (code p s) []) = next at hfirst ⊢
  generalize e.settle code fuel (.run (code p s') []) = next' at hfirst ⊢
  cases hfirst with
  | none => exact .none
  | some halike => exact h.runInputs_alike fuel is halike

end Lockstep

/-- What related configurations have in common, their runs have in common. -/
theorem map_eq_of_alike {R : S → S → Prop} {γ : Type} {f f' : Config S sig → γ}
    (hf : ∀ cfg cfg', Config.Alike R cfg cfg' → f cfg = f' cfg') {o o' : Option (Config S sig)}
    (h : Option.Rel (Config.Alike R) o o') : o.map f = o'.map f' := by
  cases h with
  | none => rfl
  | some halike => exact congrArg some (hf _ _ halike)

end SharedUtility.Reentrant
