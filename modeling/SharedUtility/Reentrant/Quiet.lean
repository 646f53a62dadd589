import SharedUtility.Reentrant.Machine

/-!
# Quiet — evaluation in an environment that never re-enters

When every call out is answered at once, a run of a component is an ordinary big-step evaluation.

* `Eval`    — the evaluation relation; the answers range over a relation `ok`,
* `Returns` — total correctness: every such evaluation ends, and ends in the postcondition,
* `Prog.eval` — an executable evaluator for concrete runs.

`Eval.steps` says that a quiet evaluation is a run of the re-entrant machine.
-/

namespace SharedUtility.Reentrant

variable {S : Type} {sig : Signature}

/-- `Eval code ok p a s'`: answered by `ok`, the run `p` ends with result `a` in state `s'`. -/
inductive Eval (code : sig.Proc → Comp S sig Int) (ok : (c : sig.Call) → sig.Ans c → Prop) :
    {α : Type} → Prog S sig α → α → S → Prop where
  | ret {α : Type} (a : α) (s : S) : Eval code ok (.ret a s) a s
  | call {α : Type} {c : sig.Call} {s s' : S} {k : sig.Ans c → S → Prog S sig α} {a : α}
      (r : sig.Ans c) : ok c r → Eval code ok (k r s) a s' → Eval code ok (.call c s k) a s'
  | proc {α : Type} {p : sig.Proc} {s s₁ s' : S} {k : Int → S → Prog S sig α} {v : Int} {a : α} :
      Eval code ok (code p s) v s₁ → Eval code ok (k v s₁) a s' →
        Eval code ok (.proc p s k) a s'

/-- Every evaluation of `p` with answers in `ok` ends, in `Q`. -/
inductive Returns (code : sig.Proc → Comp S sig Int) (ok : (c : sig.Call) → sig.Ans c → Prop) :
    {α : Type} → Prog S sig α → (α → S → Prop) → Prop where
  | ret {α : Type} {a : α} {s : S} {Q : α → S → Prop} :
      Q a s → Returns code ok (.ret a s) Q
  | call {α : Type} {c : sig.Call} {s : S} {k : sig.Ans c → S → Prog S sig α} {Q : α → S → Prop} :
      (∃ r, ok c r) → (∀ r, ok c r → Returns code ok (k r s) Q) →
        Returns code ok (.call c s k) Q
  | proc {α : Type} {p : sig.Proc} {s : S} {k : Int → S → Prog S sig α} {Q : α → S → Prop}
      (Q' : Int → S → Prop) :
      Returns code ok (code p s) Q' → (∀ v s', Q' v s' → Returns code ok (k v s') Q) →
        Returns code ok (.proc p s k) Q

section

variable {code : sig.Proc → Comp S sig Int} {ok : (c : sig.Call) → sig.Ans c → Prop}
variable {α β : Type}

theorem Returns.mono {p : Prog S sig α} {Q Q' : α → S → Prop}
    (h : Returns code ok p Q) (hQ : ∀ a s, Q a s → Q' a s) : Returns code ok p Q' := by
  induction h with
  | ret h => exact .ret (hQ _ _ h)
  | call hex _ ih => exact .call hex fun r hr => ih r hr hQ
  | proc R hR _ _ ih => exact .proc R hR fun v s' hv => ih v s' hv hQ

@[simp] theorem returns_ret {a : α} {s : S} {Q : α → S → Prop} :
    Returns code ok (.ret a s) Q ↔ Q a s := by
  constructor
  · intro h
    cases h with
    | ret h => exact h
  · exact .ret

theorem returns_call {c : sig.Call} {s : S} {k : sig.Ans c → S → Prog S sig α}
    {Q : α → S → Prop} :
    Returns code ok (.call c s k) Q ↔
      (∃ r, ok c r) ∧ ∀ r, ok c r → Returns code ok (k r s) Q := by
  constructor
  · intro h
    cases h with
    | call hex hk => exact ⟨hex, hk⟩
  · intro h
    exact .call h.1 h.2

theorem returns_proc {p : sig.Proc} {s : S} {k : Int → S → Prog S sig α} {Q : α → S → Prop} :
    Returns code ok (.proc p s k) Q ↔
      Returns code ok (code p s) fun v s' => Returns code ok (k v s') Q := by
  constructor
  · intro h
    cases h with
    | proc Q' hp hk => exact hp.mono hk
  · intro h
    exact .proc _ h fun _ _ hv => hv

theorem returns_bind {p : Prog S sig α} {f : α → S → Prog S sig β} {Q : β → S → Prop} :
    Returns code ok (p.bind f) Q ↔
      Returns code ok p fun a s => Returns code ok (f a s) Q := by
  induction p with
  | ret a s => simp [Prog.bind]
  | call c s k ih => simp only [Prog.bind, returns_call, ih]
  | proc p s k ih => simp only [Prog.bind, returns_proc, ih]

/-- Total correctness is existence of an evaluation together with partial correctness. -/
theorem Returns.exists_eval {p : Prog S sig α} {Q : α → S → Prop} (h : Returns code ok p Q) :
    ∃ a s', Eval code ok p a s' ∧ Q a s' := by
  induction h with
  | ret h => exact ⟨_, _, .ret _ _, h⟩
  | call hex _ ih =>
    rcases hex with ⟨r, hr⟩
    rcases ih r hr with ⟨a, s', hev, hQ⟩
    exact ⟨a, s', .call r hr hev, hQ⟩
  | proc R _ _ ihp ihk =>
    rcases ihp with ⟨v, s₁, hev, hR⟩
    rcases ihk v s₁ hR with ⟨a, s', hev', hQ⟩
    exact ⟨a, s', .proc hev hev', hQ⟩

theorem Returns.of_eval {p : Prog S sig α} {a : α} {s' : S} (hev : Eval code ok p a s') :
    ∀ {Q : α → S → Prop}, Returns code ok p Q → Q a s' := by
  induction hev with
  | ret a s =>
    intro Q h
    exact returns_ret.1 h
  | call r hr _ ih =>
    intro Q h
    exact ih ((returns_call.1 h).2 r hr)
  | proc _ _ ihp ihk =>
    intro Q h
    exact ihk (ihp (returns_proc.1 h))

/-- A quiet evaluation is a run of the machine that answers every call at once. -/
theorem Eval.steps {e : Env S sig} (hok : ∀ c r, ok c r → ∀ s, e.mayAnswer c r s = true)
    (hrun : ∀ p s, e.mayRun p s = true) {p : Prog S sig Int} {v : Int} {s' : S}
    (h : Eval code ok p v s') (st : List (Frame S sig)) :
    Relation.ReflTransGen (Step code e) (.run p st) (.run (.ret v s') st) := by
  suffices hgen : ∀ {α : Type} {p : Prog S sig α} {a : α} {s' : S}, Eval code ok p a s' →
      ∀ (f : α → S → Prog S sig Int) (st : List (Frame S sig)),
        Relation.ReflTransGen (Step code e) (.run (p.bind f) st) (.run (f a s') st) by
    have hret : p.bind (fun a s => .ret a s) = p := by
      clear h
      induction p with
      | ret a s => rfl
      | call c s k ih => simp only [Prog.bind, ih]
      | proc p s k ih => simp only [Prog.bind, ih]
    have hsteps := hgen h (fun a s => .ret a s) st
    rwa [hret] at hsteps
  intro α p a s' h
  induction h with
  | ret a s =>
    intro f st
    exact .refl
  | call r hr _ ih =>
    intro f st
    exact .head .callOut (.head (.answer r (hok _ r hr _)) (ih f st))
  | @proc α p s s₁ s' k v a _ _ ihp ihk =>
    intro f st
    have hbody : Relation.ReflTransGen (Step code e)
        (.run (code p s) (.inner (fun v s => (k v s).bind f) :: st))
        (.run (.ret v s₁) (.inner (fun v s => (k v s).bind f) :: st)) := by
      have hret : (code p s).bind (fun a s => .ret a s) = code p s := by
        generalize code p s = q
        induction q with
        | ret a s => rfl
        | call c s k ih => simp only [Prog.bind, ih]
        | proc p s k ih => simp only [Prog.bind, ih]
      have hsteps := ihp (fun a s => .ret a s) (.inner (fun v s => (k v s).bind f) :: st)
      rwa [hret] at hsteps
    exact .head (.callProc (hrun _ _)) (hbody.trans (.head .retInner (ihk f st)))

end

/-! ## Rules for code -/

/-- Total correctness of code in a quiet environment. -/
def Quiet (code : sig.Proc → Comp S sig Int) (ok : (c : sig.Call) → sig.Ans c → Prop)
    {α : Type} (c : Comp S sig α) (Q : α → S → Prop) (s : S) : Prop :=
  Returns code ok (c s) Q

section

variable {code : sig.Proc → Comp S sig Int} {ok : (c : sig.Call) → sig.Ans c → Prop}
variable {α β : Type} {s : S}

@[simp] theorem quiet_pure (a : α) (Q : α → S → Prop) :
    Quiet code ok (pure a) Q s ↔ Q a s := returns_ret

@[simp] theorem quiet_bind (c : Comp S sig α) (f : α → Comp S sig β) (Q : β → S → Prop) :
    Quiet code ok (c >>= f) Q s ↔ Quiet code ok c (fun a => Quiet code ok (f a) Q) s :=
  returns_bind

@[simp] theorem quiet_get (Q : S → S → Prop) :
    Quiet code ok Comp.get Q s ↔ Q s s := returns_ret

@[simp] theorem quiet_modify (f : S → S) (Q : Unit → S → Prop) :
    Quiet code ok (Comp.modify f) Q s ↔ Q () (f s) := returns_ret

@[simp] theorem quiet_call (c : sig.Call) (Q : sig.Ans c → S → Prop) :
    Quiet code ok (Comp.call c) Q s ↔ (∃ r, ok c r) ∧ ∀ r, ok c r → Q r s := by
  simp only [Quiet, Comp.call, returns_call, returns_ret]

@[simp] theorem quiet_proc (p : sig.Proc) (Q : Int → S → Prop) :
    Quiet code ok (Comp.proc p) Q s ↔ Quiet code ok (code p) Q s := by
  simp only [Quiet, Comp.proc, returns_proc, returns_ret]

theorem Quiet.mono {c : Comp S sig α} {Q Q' : α → S → Prop} (h : Quiet code ok c Q s)
    (hQ : ∀ a s, Q a s → Q' a s) : Quiet code ok c Q' s :=
  Returns.mono h hQ

end

/-! ## Executing quiet runs -/

/-- Evaluate a run with the answers of `f`, for at most `n` steps deep. -/
def Prog.eval (code : sig.Proc → Comp S sig Int) (f : (c : sig.Call) → sig.Ans c) :
    Nat → {α : Type} → Prog S sig α → Option (α × S)
  | 0, _, _ => none
  | _ + 1, _, .ret a s => some (a, s)
  | n + 1, _, .call c s k => (k (f c) s).eval code f n
  | n + 1, _, .proc p s k =>
    ((code p s).eval code f n).bind fun vs => (k vs.1 vs.2).eval code f n

theorem Prog.eval_sound {code : sig.Proc → Comp S sig Int}
    {ok : (c : sig.Call) → sig.Ans c → Prop} {f : (c : sig.Call) → sig.Ans c}
    (hf : ∀ c, ok c (f c)) :
    ∀ (n : Nat) {α : Type} {p : Prog S sig α} {a : α} {s' : S},
      p.eval code f n = some (a, s') → Eval code ok p a s' := by
  intro n
  induction n with
  | zero =>
    intro α p a s' h
    cases h
  | succ n ih =>
    intro α p a s' h
    cases p with
    | ret b s =>
      cases h
      exact .ret _ _
    | call c s k =>
      exact .call (f c) (hf c) (ih h)
    | proc q s k =>
      rw [Prog.eval, Option.bind_eq_some_iff] at h
      rcases h with ⟨⟨v, s₁⟩, hbody, hrest⟩
      exact .proc (ih hbody) (ih hrest)

/-- The calls that a run makes with the answers of `f`; its own procedures are not entered. -/
def Prog.calls (f : (c : sig.Call) → sig.Ans c) {α : Type} : Prog S sig α → List sig.Call
  | .ret _ _ => []
  | .call c s k => c :: (k (f c) s).calls f
  | .proc _ s k => (k 0 s).calls f

end SharedUtility.Reentrant
