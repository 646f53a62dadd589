import SharedUtility.Reentrant.Machine

/-!
# RelyGuarantee — what code shows of itself and relies on while it calls out

A call out either re-enters (other code of the component may run before it returns) or is local.  At
a call that re-enters, the code shows the invariant and relies on what the code that may run
meanwhile guarantees: the invariant, and a relation between the states at the call and at its return.
Once every procedure is shown to meet these obligations, three things hold of every run:

* `always`  — whenever the environment has control,
* `inv`     — whenever no local call is being served,
* `settled` — whenever no call at all is.
-/

namespace SharedUtility.Reentrant

/-- `nested` are the procedures that may be entered during a call, `entry` is what a procedure needs
besides the invariant. -/
structure RelyGuarantee (S : Type) (sig : Signature) where
  env : Env S sig
  reenters : sig.Call → Bool
  nested : sig.Proc → Bool
  entry : sig.Proc → S → Prop := fun _ _ => True
  always : S → Prop
  inv : S → Prop
  settled : S → Prop := fun _ => True
  rely : S → S → Prop

variable {S : Type} {sig : Signature} {α : Type}

namespace RelyGuarantee

/-- What the code that may run between two states guarantees. -/
structure Later (G : RelyGuarantee S sig) (s s' : S) : Prop where
  inv : G.inv s'
  rely : G.rely s s'
  settled : G.settled s → G.settled s'

def spec (G : RelyGuarantee S sig) : Spec S sig where
  callPre c s := if G.reenters c then G.inv s else G.always s
  callPost c s r s' :=
    G.env.mayAnswer c r s' = true ∧ if G.reenters c then G.Later s s' else s' = s
  procPre p s := G.inv s ∧ G.entry p s
  procPost p s _ s' := G.inv s' ∧ (G.settled s → G.settled s') ∧ (G.nested p = true → G.rely s s')

def contract (G : RelyGuarantee S sig) : Contract S sig where
  spec := G.spec
  inv
    | none, s => G.inv s ∧ G.settled s
    | some c, s => if G.reenters c then G.inv s else G.always s
  during c s s' :=
    if G.reenters c then G.rely s s' ∧ (G.settled s → G.settled s') else s' = s

/-- What is to be shown of the procedures `code`. -/
structure Sound (G : RelyGuarantee S sig) (code : sig.Proc → Comp S sig Int) : Prop where
  inv_always : ∀ s, G.inv s → G.always s
  refl : ∀ s, G.rely s s
  trans : ∀ s s' s'', G.rely s s' → G.rely s' s'' → G.rely s s''
  reenter : ∀ c p s, G.env.mayEnter (some c) p s = true → G.reenters c = true ∧ G.nested p = true
  enter : ∀ top p s, G.inv s → (top = none → G.settled s) → G.env.mayEnter top p s = true →
    G.entry p s
  code : ∀ p s, G.inv s → G.entry p s → G.env.mayRun p s = true →
    wp G.spec (code p) (G.spec.procPost p s) s

variable {G : RelyGuarantee S sig} {code : sig.Proc → Comp S sig Int}

theorem Sound.holds (h : G.Sound code) : G.contract.Holds code G.env where
  code_meets p s hpre hrun := h.code p s hpre.1 hpre.2 hrun
  call_inv := by
    intro c s hpre
    refine ⟨hpre, ?_⟩
    show if G.reenters c then G.rely s s ∧ (G.settled s → G.settled s) else s = s
    split
    · exact ⟨h.refl s, id⟩
    · rfl
  enter_pre := by
    intro top p s hinv hmay
    cases top with
    | none => exact ⟨hinv.1, h.enter none p s hinv.1 (fun _ => hinv.2) hmay⟩
    | some c =>
      have hc := (h.reenter c p s hmay).1
      have hinv : G.inv s := by simpa [contract, hc] using hinv
      exact ⟨hinv, h.enter (some c) p s hinv nofun hmay⟩
  post_inv := by
    intro top p s r s' hinv hmay hpost
    cases top with
    | none => exact ⟨hpost.1, hpost.2.1 hinv.2⟩
    | some c =>
      have hc := (h.reenter c p s hmay).1
      simpa [contract, hc] using hpost.1
  post_during := by
    intro c p s₀ s r s' hduring _ hmay hpost
    have hc := h.reenter c p s hmay
    simp only [contract, hc.1, if_true] at hduring ⊢
    exact ⟨h.trans s₀ s s' hduring.1 (hpost.2.2 hc.2), fun h₀ => hpost.2.1 (hduring.2 h₀)⟩
  answer_post := by
    intro c s₀ s r hduring hinv hmay
    refine ⟨hmay, ?_⟩
    by_cases hc : G.reenters c = true
    · simp only [contract, hc, if_true] at hduring hinv ⊢
      exact ⟨hinv, hduring.1, hduring.2⟩
    · simp only [contract, hc] at hduring ⊢
      exact hduring

section

variable {s₀ s : S} {st : List (Frame S sig)}

theorem Sound.reachable_contract (h : G.Sound code) (h₀ : G.inv s₀) (hset : G.settled s₀)
    (hreach : Reachable code G.env s₀ (.env s st)) : G.contract.inv (pendingCall st) s :=
  Contract.reachable_inv h.holds ⟨h₀, hset⟩ hreach

/-- Between the calls of the environment everything holds. -/
theorem Sound.reachable_idle (h : G.Sound code) (h₀ : G.inv s₀) (hset : G.settled s₀)
    (hreach : Reachable code G.env s₀ (.env s [])) : G.inv s ∧ G.settled s :=
  h.reachable_contract h₀ hset hreach

/-- No local call is being served. -/
theorem Sound.reachable_inv (h : G.Sound code) (h₀ : G.inv s₀) (hset : G.settled s₀)
    (hreach : Reachable code G.env s₀ (.env s st))
    (hst : ∀ c, pendingCall st = some c → G.reenters c = true) : G.inv s := by
  have hinv := h.reachable_contract h₀ hset hreach
  cases htop : pendingCall st with
  | none =>
    rw [htop] at hinv
    exact hinv.1
  | some c =>
    rw [htop] at hinv
    simpa [contract, hst c htop] using hinv

theorem Sound.reachable_always (h : G.Sound code) (h₀ : G.inv s₀) (hset : G.settled s₀)
    (hreach : Reachable code G.env s₀ (.env s st)) : G.always s := by
  have hinv := h.reachable_contract h₀ hset hreach
  cases htop : pendingCall st with
  | none =>
    rw [htop] at hinv
    exact h.inv_always s hinv.1
  | some c =>
    rw [htop] at hinv
    simp only [contract] at hinv
    split at hinv
    · exact h.inv_always s hinv
    · exact hinv

end

/-! ## Rules -/

section

variable {s : S}

theorem wp_reentrant {c : sig.Call} {Q : sig.Ans c → S → Prop} (hc : G.reenters c = true)
    (hinv : G.inv s)
    (hQ : ∀ r s', G.env.mayAnswer c r s' = true → G.Later s s' → Q r s') :
    wp G.spec (Comp.call c) Q s := by
  rw [wp_call]
  refine ⟨?_, ?_⟩
  · show if G.reenters c then G.inv s else G.always s
    rwa [if_pos hc]
  · rintro r s' ⟨hans, hpost⟩
    rw [if_pos hc] at hpost
    exact hQ r s' hans hpost

/-- A local call returns at once. -/
theorem wp_local {c : sig.Call} {Q : sig.Ans c → S → Prop} (hc : G.reenters c = false)
    (halways : G.always s) (hQ : ∀ r, G.env.mayAnswer c r s = true → Q r s) :
    wp G.spec (Comp.call c) Q s := by
  rw [wp_call]
  refine ⟨?_, ?_⟩
  · show if G.reenters c then G.inv s else G.always s
    rwa [if_neg (by simp [hc])]
  · rintro r s' ⟨hans, hpost⟩
    rw [if_neg (by simp [hc])] at hpost
    subst hpost
    exact hQ r hans

/-- A procedure of the component itself. -/
theorem wp_nested {p : sig.Proc} {Q : Int → S → Prop} (hp : G.nested p = true) (hinv : G.inv s)
    (hentry : G.entry p s) (hQ : ∀ r s', G.Later s s' → Q r s') :
    wp G.spec (Comp.proc p) Q s := by
  rw [wp_proc]
  refine ⟨⟨hinv, hentry⟩, ?_⟩
  rintro r s' ⟨hinv', hset, hrely⟩
  exact hQ r s' ⟨hinv', hrely hp, hset⟩

end

end RelyGuarantee

end SharedUtility.Reentrant
