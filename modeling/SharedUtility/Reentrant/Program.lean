import Mathlib.Logic.Relation

/-!
# Program — components that call out and may be called back

A component of a callback-based library is a set of procedures over one state.  While a procedure
runs it may call code of somebody else (another layer, the user, the allocator), and that code may
call procedures of the same component before it returns.  This module gives the syntax-free
representation of such procedures:

* `Prog` — a resumption: a finished run, a call out, or a call of one of the own procedures,
* `Comp` — the state-passing monad of resumptions, in which procedures are written,
* `wp`   — weakest preconditions against a `Spec` of the calls out and of the own procedures.

Loops are procedures that call themselves, so a `Prog` is a well-founded tree and no fuel is needed.
-/

namespace SharedUtility.Reentrant

universe u

/-- What a component can do besides computing: call out, or call its own procedures. -/
structure Signature where
  Call : Type
  Ans : Call → Type
  Proc : Type

variable {S : Type} {sig : Signature} {α β γ : Type}

/-- A run of component code up to its end, or up to the next call with the code that follows it. -/
inductive Prog (S : Type) (sig : Signature) (α : Type) : Type where
  | ret (a : α) (s : S)
  | call (c : sig.Call) (s : S) (k : sig.Ans c → S → Prog S sig α)
  | proc (p : sig.Proc) (s : S) (k : Int → S → Prog S sig α)

/-- Code of a component: what it does when started in a state. -/
def Comp (S : Type) (sig : Signature) (α : Type) : Type :=
  S → Prog S sig α

namespace Prog

def bind : Prog S sig α → (α → S → Prog S sig β) → Prog S sig β
  | .ret a s, f => f a s
  | .call c s k, f => .call c s fun r s' => (k r s').bind f
  | .proc p s k, f => .proc p s fun r s' => (k r s').bind f

end Prog

namespace Comp

instance : Monad (Comp S sig) where
  pure a := fun s => .ret a s
  bind c f := fun s => (c s).bind fun a s' => f a s'

/-- Read the state. -/
def get : Comp S sig S :=
  fun s => .ret s s

/-- Update the state. -/
def modify (f : S → S) : Comp S sig Unit :=
  fun s => .ret () (f s)

/-- Call out. -/
def call (c : sig.Call) : Comp S sig (sig.Ans c) :=
  fun s => .call c s fun r s' => .ret r s'

/-- Call a procedure of the component itself. -/
def proc (p : sig.Proc) : Comp S sig Int :=
  fun s => .proc p s fun r s' => .ret r s'

theorem pure_apply (a : α) (s : S) :
    (pure a : Comp S sig α) s = .ret a s := rfl

theorem bind_apply (c : Comp S sig α) (f : α → Comp S sig β) (s : S) :
    (c >>= f) s = (c s).bind fun a s' => f a s' := rfl

end Comp

/-! ## Weakest preconditions -/

/-- What is promised at calls and relied on at their return.  A postcondition sees the state in
which the call was made, the result, and the state found at the return. -/
structure Spec (S : Type) (sig : Signature) where
  callPre : sig.Call → S → Prop
  callPost : (c : sig.Call) → S → sig.Ans c → S → Prop
  procPre : sig.Proc → S → Prop
  procPost : sig.Proc → S → Int → S → Prop

/-- `p` makes only permitted calls and ends in `Q`, whatever the calls return. -/
def Prog.Sat (spec : Spec S sig) (Q : α → S → Prop) : Prog S sig α → Prop
  | .ret a s => Q a s
  | .call c s k => spec.callPre c s ∧ ∀ r s', spec.callPost c s r s' → (k r s').Sat spec Q
  | .proc p s k => spec.procPre p s ∧ ∀ r s', spec.procPost p s r s' → (k r s').Sat spec Q

theorem Prog.Sat.mono {spec : Spec S sig} {Q Q' : α → S → Prop} {p : Prog S sig α}
    (hQ : ∀ a s, Q a s → Q' a s) (h : p.Sat spec Q) : p.Sat spec Q' := by
  induction p with
  | ret a s => exact hQ a s h
  | call c s k ih => exact ⟨h.1, fun r s' hr => ih r s' (h.2 r s' hr)⟩
  | proc p s k ih => exact ⟨h.1, fun r s' hr => ih r s' (h.2 r s' hr)⟩

theorem Prog.sat_bind {spec : Spec S sig} {Q : β → S → Prop} (p : Prog S sig α)
    (f : α → S → Prog S sig β) :
    (p.bind f).Sat spec Q ↔ p.Sat spec fun a s => (f a s).Sat spec Q := by
  induction p with
  | ret a s => rfl
  | call c s k ih => simp only [Prog.bind, Prog.Sat, ih]
  | proc p s k ih => simp only [Prog.bind, Prog.Sat, ih]

/-- The weakest precondition of `c` for `Q`. -/
def wp (spec : Spec S sig) (c : Comp S sig α) (Q : α → S → Prop) (s : S) : Prop :=
  (c s).Sat spec Q

section

variable {spec : Spec S sig} {s : S}

@[simp] theorem wp_pure (a : α) (Q : α → S → Prop) :
    wp spec (pure a) Q s ↔ Q a s := Iff.rfl

/-- An equation of predicates, so that it also rewrites in postconditions. -/
@[simp] theorem wp_bind (c : Comp S sig α) (f : α → Comp S sig β) (Q : β → S → Prop) :
    wp spec (c >>= f) Q = wp spec c fun a => wp spec (f a) Q :=
  funext fun s => propext (Prog.sat_bind (c s) _)

@[simp] theorem wp_get (Q : S → S → Prop) :
    wp spec Comp.get Q s ↔ Q s s := Iff.rfl

@[simp] theorem wp_modify (f : S → S) (Q : Unit → S → Prop) :
    wp spec (Comp.modify f) Q s ↔ Q () (f s) := Iff.rfl

@[simp] theorem wp_call (c : sig.Call) (Q : sig.Ans c → S → Prop) :
    wp spec (Comp.call c) Q s ↔
      spec.callPre c s ∧ ∀ r s', spec.callPost c s r s' → Q r s' := Iff.rfl

@[simp] theorem wp_proc (p : sig.Proc) (Q : Int → S → Prop) :
    wp spec (Comp.proc p) Q s ↔
      spec.procPre p s ∧ ∀ r s', spec.procPost p s r s' → Q r s' := Iff.rfl

@[simp] theorem wp_ite (b : Prop) [Decidable b] (c d : Comp S sig α) (Q : α → S → Prop) :
    wp spec (if b then c else d) Q s ↔ if b then wp spec c Q s else wp spec d Q s := by
  split <;> rfl

theorem wp_mono {c : Comp S sig α} {Q Q' : α → S → Prop} (hQ : ∀ a s, Q a s → Q' a s)
    (h : wp spec c Q s) : wp spec c Q' s :=
  Prog.Sat.mono hQ h

end

end SharedUtility.Reentrant
