import SharedUtility.UwsClient.Rules

/-!
# Runs — the client over an underlying io that may call it back

`anyRun` lets the user call any function while no call is being served, and the underlying io make
any of its callbacks, between calls as well as before one of its own functions returns.  The
callbacks of the user return without calling the client.

A `Discipline` is what a group of results shows of these runs: an invariant, and a relation that
says what the callbacks of the io may do while one of its functions is being called.
-/

namespace SharedUtility.UwsClient

open Reentrant

def anyRun : Env Uws uwsSignature where
  mayEnter top p s :=
    match top with
    | none => (p.isApi || p.isIoEvent) && !s.destroyed
    | some c => c.isXio && p.isIoEvent
  mayAnswer _ _ _ := true

def createdClient : Uws where
  client := { hostname := [], resourceName := [], protocols := [], port := 443, requestHeaders := [] }

/-- Callbacks that are all there. -/
def someCallbacks : OpenCallbacks :=
  ⟨some 0, some 1, some 2, some 3⟩

/-- The runs `env`, the invariant, what the io may do during a call, and what a call or a procedure
needs besides the invariant. -/
structure Discipline where
  env : Env Uws uwsSignature
  inv : Uws → Prop
  rel : Uws → Uws → Prop
  callPre : Call → Uws → Prop
  procPre : Proc → Uws → Prop

namespace Discipline

def spec (D : Discipline) : Spec Uws uwsSignature where
  callPre c s := D.inv s ∧ D.callPre c s
  callPost c s r s' :=
    D.env.mayAnswer c r s' = true ∧ if c.isXio then D.inv s' ∧ D.rel s s' else s' = s
  procPre p s := D.inv s ∧ D.procPre p s
  procPost p s _ s' := D.inv s' ∧ (p.isApi = false → D.rel s s')

def contract (D : Discipline) : Contract Uws uwsSignature where
  spec := D.spec
  inv _ s := D.inv s
  during c s s' := if c.isXio then D.rel s s' else s' = s

/-- What is to be shown for a discipline. -/
structure Sound (D : Discipline) : Prop where
  env_le : ∀ top p s, D.env.mayEnter top p s = true → anyRun.mayEnter top p s = true
  refl : ∀ s, D.rel s s
  trans : ∀ s s' s'', D.rel s s' → D.rel s' s'' → D.rel s s''
  enter : ∀ top p s, D.inv s → D.env.mayEnter top p s = true → D.procPre p s
  code : ∀ p s, D.inv s → D.procPre p s → D.env.mayRun p s = true →
    wp D.spec (uwsCode p) (fun _ s' => D.inv s' ∧ (p.isApi = false → D.rel s s')) s

variable {D : Discipline}

/-- While a call is pending, only the io calls the client, and only during its own functions. -/
theorem Sound.reenter (h : D.Sound) {c : Call} {p : Proc} {s : Uws}
    (hmay : D.env.mayEnter (some c) p s = true) : c.isXio = true ∧ p.isApi = false := by
  have hany : c.isXio = true ∧ p.isIoEvent = true := by
    simpa [anyRun] using h.env_le _ p s hmay
  refine ⟨hany.1, ?_⟩
  cases p with
  | onUnderlyingIoOpenComplete result code => rfl
  | onUnderlyingIoBytesReceived buffer => rfl
  | onUnderlyingIoError => rfl
  | onUnderlyingIoCloseComplete => rfl
  | onUnderlyingIoCloseSent result => rfl
  | onUnderlyingIoSendComplete item result => rfl
  | _ => cases hany.2

theorem Sound.holds (h : D.Sound) : D.contract.Holds uwsCode D.env where
  code_meets p s hpre hrun := h.code p s hpre.1 hpre.2 hrun
  call_inv := by
    intro c s hpre
    refine ⟨hpre.1, ?_⟩
    show if c.isXio then D.rel s s else s = s
    split
    · exact h.refl s
    · rfl
  enter_pre top p s hinv hmay := ⟨hinv, h.enter top p s hinv hmay⟩
  post_inv top p s r s' _ _ hpost := hpost.1
  post_during := by
    intro c p s₀ s r s' hduring _ hmay hpost
    have hc := h.reenter hmay
    have hduring : if c.isXio then D.rel s₀ s else s = s₀ := hduring
    show if c.isXio then D.rel s₀ s' else s' = s₀
    rw [if_pos hc.1] at hduring ⊢
    exact h.trans s₀ s s' hduring (hpost.2 hc.2)
  answer_post := by
    intro c s₀ s r hduring hinv hmay
    have hduring : if c.isXio then D.rel s₀ s else s = s₀ := hduring
    refine ⟨hmay, ?_⟩
    by_cases hc : c.isXio = true
    · rw [if_pos hc] at hduring ⊢
      exact ⟨hinv, hduring⟩
    · rw [if_neg hc] at hduring ⊢
      exact hduring

theorem Sound.reachable_inv (h : D.Sound) {s₀ s : Uws} {st : List (Frame Uws uwsSignature)}
    (h₀ : D.inv s₀) (hreach : Reachable uwsCode D.env s₀ (.env s st)) : D.inv s :=
  Contract.reachable_inv h.holds h₀ hreach

/-! ## Rules -/

section

variable {s : Uws}

/-- A function of the underlying io returns when the io has made any of its callbacks. -/
theorem wp_callXio {c : Call} {Q : Ans c → Uws → Prop} (hc : c.isXio = true)
    (hinv : D.inv (s.record (.call s.currentOpen c)))
    (hpre : D.callPre c (s.record (.call s.currentOpen c)))
    (hQ : ∀ r s', D.env.mayAnswer c r s' = true → D.inv s' →
      D.rel (s.record (.call s.currentOpen c)) s' → Q r s') :
    wp D.spec (callOut c) Q s := by
  rw [wp_callOut]
  refine ⟨⟨hinv, hpre⟩, ?_⟩
  rintro r s' ⟨hans, hpost⟩
  rw [if_pos hc] at hpost
  exact hQ r s' hans hpost.1 hpost.2

theorem wp_callUser {c : Call} {Q : Ans c → Uws → Prop} (hc : c.isXio = false)
    (hinv : D.inv (s.record (.call s.currentOpen c)))
    (hpre : D.callPre c (s.record (.call s.currentOpen c)))
    (hQ : ∀ r, Q r (s.record (.call s.currentOpen c))) :
    wp D.spec (callOut c) Q s := by
  rw [wp_callOut]
  refine ⟨⟨hinv, hpre⟩, ?_⟩
  rintro r s' ⟨-, hpost⟩
  rw [if_neg (by simp [hc])] at hpost
  subst hpost
  exact hQ r

theorem wp_askLocal {c : Call} {Q : Ans c → Uws → Prop} (hc : c.isXio = false) (hinv : D.inv s)
    (hpre : D.callPre c s) (hQ : ∀ r, Q r s) : wp D.spec (ask c) Q s := by
  rw [wp_ask]
  refine ⟨⟨hinv, hpre⟩, ?_⟩
  rintro r s' ⟨-, hpost⟩
  rw [if_neg (by simp [hc])] at hpost
  subst hpost
  exact hQ r

theorem wp_callSlot {slot : Option Callback} {c : Callback → Call} {Q : Unit → Uws → Prop}
    (hc : ∀ cb, (c cb).isXio = false)
    (hcb : ∀ cb, D.inv (s.record (.call s.currentOpen (c cb))) ∧
      D.callPre (c cb) (s.record (.call s.currentOpen (c cb))) ∧
        Q () (s.record (.call s.currentOpen (c cb))))
    (hnull : Q () (s.record (.fault .nullCallback))) :
    wp D.spec (callBack slot c) Q s := by
  cases slot with
  | none =>
    rw [callBack, wp_fault]
    exact hnull
  | some cb =>
    simp only [callBack, wp_bind]
    apply wp_callUser (hc cb) (hcb cb).1 (hcb cb).2.1
    intro _
    exact (hcb cb).2.2

end

end Discipline

end SharedUtility.UwsClient
