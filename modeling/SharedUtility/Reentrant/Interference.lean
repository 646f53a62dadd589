import SharedUtility.Reentrant.Machine

/-!
# Interference — procedures with conditions of their own

As in `RelyGuarantee`, a call out either re-enters or is local, the invariant holds at every call, and
what runs during a call that re-enters guarantees the relation `rely`.  Here each procedure has its own
condition `pre` and its own effect `post`; only those of the procedures that the environment may enter
have to keep the invariant and to guarantee `rely`.  So a loop may be called in the middle of a change.
-/

namespace SharedUtility.Reentrant

structure Interference (S : Type) (sig : Signature) where
  env : Env S sig
  reenters : sig.Call → Bool
  inv : S → Prop
  rely : S → S → Prop
  pre : sig.Proc → S → Prop
  post : sig.Proc → S → S → Prop

variable {S : Type} {sig : Signature} {α : Type}

namespace Interference

def spec (F : Interference S sig) : Spec S sig where
  callPre _ s := F.inv s
  callPost c s r s' :=
    F.env.mayAnswer c r s' = true ∧ if F.reenters c then F.inv s' ∧ F.rely s s' else s' = s
  procPre p s := F.pre p s
  procPost p s _ s' := F.post p s s'

def contract (F : Interference S sig) : Contract S sig where
  spec := F.spec
  inv _ s := F.inv s
  during c s s' := if F.reenters c then F.rely s s' else s' = s

/-- What is to be shown of the procedures `code`. -/
structure Sound (F : Interference S sig) (code : sig.Proc → Comp S sig Int) : Prop where
  refl : ∀ s, F.rely s s
  trans : ∀ s s' s'', F.rely s s' → F.rely s' s'' → F.rely s s''
  reenter : ∀ c p s, F.env.mayEnter (some c) p s = true → F.reenters c = true
  enter : ∀ top p s, F.inv s → F.env.mayEnter top p s = true → F.pre p s
  leave : ∀ top p s s', F.inv s → F.env.mayEnter top p s = true → F.post p s s' →
    F.inv s' ∧ F.rely s s'
  code : ∀ p s, F.pre p s → F.env.mayRun p s = true →
    wp F.spec (code p) (fun _ s' => F.post p s s') s

variable {F : Interference S sig} {code : sig.Proc → Comp S sig Int}

theorem Sound.holds (h : F.Sound code) : F.contract.Holds code F.env where
  code_meets p s hpre hrun := h.code p s hpre hrun
  call_inv := by
    intro c s hpre
    refine ⟨hpre, ?_⟩
    show if F.reenters c then F.rely s s else s = s
    split
    · exact h.refl s
    · rfl
  enter_pre top p s hinv hmay := h.enter top p s hinv hmay
  post_inv top p s _ s' hinv hmay hpost := (h.leave top p s s' hinv hmay hpost).1
  post_during := by
    intro c p s₀ s r s' hduring hinv hmay hpost
    have hc := h.reenter c p s hmay
    have hduring : if F.reenters c then F.rely s₀ s else s = s₀ := hduring
    show if F.reenters c then F.rely s₀ s' else s' = s₀
    rw [if_pos hc] at hduring ⊢
    exact h.trans s₀ s s' hduring (h.leave (some c) p s s' hinv hmay hpost).2
  answer_post := by
    intro c s₀ s r hduring hinv hmay
    have hduring : if F.reenters c then F.rely s₀ s else s = s₀ := hduring
    refine ⟨hmay, ?_⟩
    split
    · rename_i hc
      rw [if_pos hc] at hduring
      exact ⟨hinv, hduring⟩
    · rename_i hc
      rwa [if_neg hc] at hduring

/-- The invariant holds whenever the environment has control. -/
theorem Sound.reachable_inv (h : F.Sound code) {s₀ s : S} {st : List (Frame S sig)}
    (h₀ : F.inv s₀) (hreach : Reachable code F.env s₀ (.env s st)) : F.inv s :=
  Contract.reachable_inv h.holds h₀ hreach

/-! ## Rules -/

section

variable {s : S}

/-- A call that re-enters returns when other code has run. -/
theorem wp_reentrant {c : sig.Call} {Q : sig.Ans c → S → Prop} (hc : F.reenters c = true)
    (hinv : F.inv s)
    (hQ : ∀ r s', F.env.mayAnswer c r s' = true → F.inv s' → F.rely s s' → Q r s') :
    wp F.spec (Comp.call c) Q s := by
  rw [wp_call]
  refine ⟨hinv, ?_⟩
  rintro r s' ⟨hans, hpost⟩
  rw [if_pos hc] at hpost
  exact hQ r s' hans hpost.1 hpost.2

/-- A local call returns at once. -/
theorem wp_local {c : sig.Call} {Q : sig.Ans c → S → Prop} (hc : F.reenters c = false)
    (hinv : F.inv s) (hQ : ∀ r, F.env.mayAnswer c r s = true → Q r s) :
    wp F.spec (Comp.call c) Q s := by
  rw [wp_call]
  refine ⟨hinv, ?_⟩
  rintro r s' ⟨hans, hpost⟩
  rw [if_neg (by simp [hc])] at hpost
  subst hpost
  exact hQ r hans

/-- A procedure of the component itself. -/
theorem wp_nested {p : sig.Proc} {Q : Int → S → Prop} (hpre : F.pre p s)
    (hQ : ∀ r s', F.post p s s' → Q r s') : wp F.spec (Comp.proc p) Q s := by
  rw [wp_proc]
  exact ⟨hpre, hQ⟩

end

end Interference

end SharedUtility.Reentrant
