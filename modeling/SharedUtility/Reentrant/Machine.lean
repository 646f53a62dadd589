import SharedUtility.Reentrant.Program

/-!
# Machine — runs of a component in an environment that may re-enter it

The environment owns everything outside the component.  While a call out is pending it may return
from it or call a procedure of the component, to any depth; the pending code waits on a stack.

* `Config`, `Step` — the machine; `Env` says which re-entries and answers the environment may make,
  and in which states the runs considered start a procedure at all,
* `Env.runInputs`  — an executable driver for concrete runs,
* `Contract.reachable_inv` — the invariant rule: if every procedure meets its specification, and
  what nested activity may do to a pending call is closed under the procedures that may be entered
  there, then the invariant holds whenever the environment has control.
-/

namespace SharedUtility.Reentrant

variable {S : Type} {sig : Signature} {α β : Type}

/-- A waiting caller: code of the component waiting for one of its own procedures, or a call out
that the environment has not returned from. -/
inductive Frame (S : Type) (sig : Signature) : Type where
  | inner (k : Int → S → Prog S sig Int)
  | outer (c : sig.Call) (k : sig.Ans c → S → Prog S sig Int)

/-- Either the environment has control, or a procedure of the component runs. -/
inductive Config (S : Type) (sig : Signature) : Type where
  | env (s : S) (stack : List (Frame S sig))
  | run (p : Prog S sig Int) (stack : List (Frame S sig))

/-- The environment: which procedure it may enter while a call is pending (`none`: no call is),
and how it may answer.  `mayRun` restricts the runs to those that start procedures, their own calls
included, in certain states only. -/
structure Env (S : Type) (sig : Signature) where
  mayEnter : Option sig.Call → sig.Proc → S → Bool
  mayAnswer : (c : sig.Call) → sig.Ans c → S → Bool
  mayRun : sig.Proc → S → Bool := fun _ _ => true

/-- One step of the machine for the procedures `code` in the environment `e`. -/
inductive Step (code : sig.Proc → Comp S sig Int) (e : Env S sig) :
    Config S sig → Config S sig → Prop where
  | enter {s : S} {p : sig.Proc} :
      e.mayEnter none p s = true → e.mayRun p s = true →
        Step code e (.env s []) (.run (code p s) [])
  | reenter {s : S} {p : sig.Proc} {c : sig.Call} {k : sig.Ans c → S → Prog S sig Int}
      {st : List (Frame S sig)} :
      e.mayEnter (some c) p s = true → e.mayRun p s = true →
        Step code e (.env s (.outer c k :: st)) (.run (code p s) (.outer c k :: st))
  | answer {s : S} {c : sig.Call} {k : sig.Ans c → S → Prog S sig Int}
      {st : List (Frame S sig)} (r : sig.Ans c) :
      e.mayAnswer c r s = true → Step code e (.env s (.outer c k :: st)) (.run (k r s) st)
  | callOut {s : S} {c : sig.Call} {k : sig.Ans c → S → Prog S sig Int}
      {st : List (Frame S sig)} :
      Step code e (.run (.call c s k) st) (.env s (.outer c k :: st))
  | callProc {s : S} {p : sig.Proc} {k : Int → S → Prog S sig Int} {st : List (Frame S sig)} :
      e.mayRun p s = true →
        Step code e (.run (.proc p s k) st) (.run (code p s) (.inner k :: st))
  | retInner {v : Int} {s : S} {k : Int → S → Prog S sig Int} {st : List (Frame S sig)} :
      Step code e (.run (.ret v s) (.inner k :: st)) (.run (k v s) st)
  | retNested {v : Int} {s : S} {c : sig.Call} {k : sig.Ans c → S → Prog S sig Int}
      {st : List (Frame S sig)} :
      Step code e (.run (.ret v s) (.outer c k :: st)) (.env s (.outer c k :: st))
  | retIdle {v : Int} {s : S} :
      Step code e (.run (.ret v s) []) (.env s [])

/-- Configurations reached from an idle component in state `s₀`. -/
def Reachable (code : sig.Proc → Comp S sig Int) (e : Env S sig) (s₀ : S) :
    Config S sig → Prop :=
  Relation.ReflTransGen (Step code e) (.env s₀ [])

/-! ## The invariant rule -/

/-- The call that is pending when the environment has control. -/
def pendingCall : List (Frame S sig) → Option sig.Call
  | .outer c _ :: _ => some c
  | _ => none

/-- What is to be shown of a component: a specification of its procedures, an invariant for the
moments when the environment has control, which may depend on the call that is pending, and what may
have happened during a pending call. -/
structure Contract (S : Type) (sig : Signature) where
  spec : Spec S sig
  inv : Option sig.Call → S → Prop
  during : sig.Call → S → S → Prop

/-- The obligations of a contract for the procedures `code` in the environment `e`. -/
structure Contract.Holds (C : Contract S sig) (code : sig.Proc → Comp S sig Int)
    (e : Env S sig) : Prop where
  code_meets : ∀ p s, C.spec.procPre p s → e.mayRun p s = true →
    wp C.spec (code p) (C.spec.procPost p s) s
  call_inv : ∀ c s, C.spec.callPre c s → C.inv (some c) s ∧ C.during c s s
  enter_pre : ∀ top p s, C.inv top s → e.mayEnter top p s = true → C.spec.procPre p s
  post_inv : ∀ top p s r s', C.inv top s → e.mayEnter top p s = true →
    C.spec.procPost p s r s' → C.inv top s'
  post_during : ∀ c p s₀ s r s', C.during c s₀ s → C.inv (some c) s →
    e.mayEnter (some c) p s = true → C.spec.procPost p s r s' → C.during c s₀ s'
  answer_post : ∀ c s₀ s r, C.during c s₀ s → C.inv (some c) s → e.mayAnswer c r s = true →
    C.spec.callPost c s₀ r s

namespace Contract

variable (C : Contract S sig)

/-- The stack is ready to be returned to with any result and state in `Q`. -/
def Accepts : List (Frame S sig) → (Int → S → Prop) → Prop
  | [], Q => ∀ r s, Q r s → C.inv none s
  | .inner k :: st, Q =>
    ∃ Q', Accepts st Q' ∧ ∀ r s, Q r s → (k r s).Sat C.spec Q'
  | .outer c k :: st, Q =>
    ∃ s₀ Q', Accepts st Q' ∧
      (∀ r s, C.spec.callPost c s₀ r s → (k r s).Sat C.spec Q') ∧
      ∀ r s, Q r s → C.inv (some c) s ∧ C.during c s₀ s

/-- The configuration respects the contract. -/
def Ok : Config S sig → Prop
  | .env s st => C.inv (pendingCall st) s ∧ C.Accepts st fun _ s' => s' = s
  | .run p st => ∃ Q, p.Sat C.spec Q ∧ C.Accepts st Q

variable {C}

theorem step_ok {code : sig.Proc → Comp S sig Int} {e : Env S sig} (hC : C.Holds code e)
    {cfg cfg' : Config S sig} (h : Step code e cfg cfg') (hok : C.Ok cfg) : C.Ok cfg' := by
  cases h with
  | @enter s p hmay hrun =>
    refine ⟨_, hC.code_meets p s (hC.enter_pre none p s hok.1 hmay) hrun, ?_⟩
    intro r s' hpost
    exact hC.post_inv none p s r s' hok.1 hmay hpost
  | @reenter s p c k st hmay hrun =>
    obtain ⟨hinv, s₀, Q', hst, hk, hduring⟩ := hok
    refine ⟨_, hC.code_meets p s (hC.enter_pre _ p s hinv hmay) hrun, s₀, Q', hst, hk, ?_⟩
    intro r s' hpost
    exact ⟨hC.post_inv _ p s r s' hinv hmay hpost,
      hC.post_during c p s₀ s r s' (hduring 0 s rfl).2 hinv hmay hpost⟩
  | @answer s c k st r hmay =>
    obtain ⟨hinv, s₀, Q', hst, hk, hduring⟩ := hok
    exact ⟨Q', hk r s (hC.answer_post c s₀ s r (hduring 0 s rfl).2 hinv hmay), hst⟩
  | @callOut s c k st =>
    obtain ⟨Q, ⟨hpre, hk⟩, hst⟩ := hok
    have hcall := hC.call_inv c s hpre
    refine ⟨hcall.1, s, Q, hst, hk, ?_⟩
    rintro r s' rfl
    exact hcall
  | @callProc s p k st hrun =>
    obtain ⟨Q, ⟨hpre, hk⟩, hst⟩ := hok
    exact ⟨_, hC.code_meets p s hpre hrun, Q, hst, hk⟩
  | @retInner v s k st =>
    obtain ⟨Q, hQ, Q', hst, hk⟩ := hok
    exact ⟨Q', hk v s hQ, hst⟩
  | @retNested v s c k st =>
    obtain ⟨Q, hQ, s₀, Q', hst, hk, hduring⟩ := hok
    refine ⟨(hduring v s hQ).1, s₀, Q', hst, hk, ?_⟩
    rintro r s' rfl
    exact hduring v s' hQ
  | @retIdle v s =>
    obtain ⟨Q, hQ, hst⟩ := hok
    have hinv : C.inv none s := hst v s hQ
    refine ⟨hinv, ?_⟩
    rintro r s' rfl
    exact hinv

/-- Every reachable configuration respects the contract. -/
theorem reachable_ok {code : sig.Proc → Comp S sig Int} {e : Env S sig} (hC : C.Holds code e)
    {s₀ : S} (h₀ : C.inv none s₀) {cfg : Config S sig} (h : Reachable code e s₀ cfg) :
    C.Ok cfg := by
  induction h with
  | refl =>
    refine ⟨h₀, ?_⟩
    rintro r s rfl
    exact h₀
  | tail _ hstep ih =>
    exact step_ok hC hstep ih

/-- The invariant holds whenever the environment has control. -/
theorem reachable_inv {code : sig.Proc → Comp S sig Int} {e : Env S sig} (hC : C.Holds code e)
    {s₀ s : S} {st : List (Frame S sig)} (h₀ : C.inv none s₀)
    (h : Reachable code e s₀ (.env s st)) : C.inv (pendingCall st) s :=
  (reachable_ok hC h₀ h).1

end Contract

/-! ## Driving concrete runs -/

/-- What the environment does next. -/
inductive Input (sig : Signature) : Type where
  | enter (p : sig.Proc)
  | answer (f : (c : sig.Call) → sig.Ans c)

/-- Run the component until the environment has control again, for at most `n` inner steps. -/
def Env.settle (e : Env S sig) (code : sig.Proc → Comp S sig Int) :
    Nat → Config S sig → Option (Config S sig)
  | 0, _ => none
  | _ + 1, .env s st => some (.env s st)
  | n + 1, .run (.call c s k) st => e.settle code n (.env s (.outer c k :: st))
  | n + 1, .run (.proc p s k) st =>
    if e.mayRun p s then e.settle code n (.run (code p s) (.inner k :: st)) else none
  | n + 1, .run (.ret v s) (.inner k :: st) => e.settle code n (.run (k v s) st)
  | n + 1, .run (.ret _ s) (.outer c k :: st) => e.settle code n (.env s (.outer c k :: st))
  | n + 1, .run (.ret _ s) [] => e.settle code n (.env s [])

/-- Let the environment make one move and run the component until it has control again. -/
def Env.runInput (e : Env S sig) (code : sig.Proc → Comp S sig Int) (fuel : Nat) :
    Config S sig → Input sig → Option (Config S sig)
  | .env s [], .enter p =>
    if e.mayEnter none p s && e.mayRun p s then e.settle code fuel (.run (code p s) []) else none
  | .env s (.outer c k :: st), .enter p =>
    if e.mayEnter (some c) p s && e.mayRun p s then
      e.settle code fuel (.run (code p s) (.outer c k :: st))
    else none
  | .env s (.outer c k :: st), .answer f =>
    if e.mayAnswer c (f c) s then e.settle code fuel (.run (k (f c) s) st) else none
  | _, _ => none

def Env.runInputs (e : Env S sig) (code : sig.Proc → Comp S sig Int) (fuel : Nat) :
    Config S sig → List (Input sig) → Option (Config S sig)
  | cfg, [] => some cfg
  | cfg, i :: is => (e.runInput code fuel cfg i).bind fun cfg' => e.runInputs code fuel cfg' is

theorem Env.runInputs_append (e : Env S sig) (code : sig.Proc → Comp S sig Int) (fuel : Nat)
    (is is' : List (Input sig)) (cfg : Config S sig) :
    e.runInputs code fuel cfg (is ++ is') =
      (e.runInputs code fuel cfg is).bind fun cfg' => e.runInputs code fuel cfg' is' := by
  induction is generalizing cfg with
  | nil => rfl
  | cons i is ih =>
    simp only [List.cons_append, Env.runInputs, Option.bind_assoc, ih]

theorem Env.settle_sound {code : sig.Proc → Comp S sig Int} (e : Env S sig) :
    ∀ (n : Nat) (cfg cfg' : Config S sig), e.settle code n cfg = some cfg' →
      Relation.ReflTransGen (Step code e) cfg cfg' := by
  intro n
  induction n with
  | zero =>
    intro cfg cfg' h
    cases h
  | succ n ih =>
    intro cfg cfg' h
    match cfg, h with
    | .env s st, h =>
      cases h
      exact .refl
    | .run (.call c s k) st, h => exact .head .callOut (ih _ _ h)
    | .run (.proc p s k) st, h =>
      simp only [Env.settle] at h
      split at h
      · rename_i hrun
        exact .head (.callProc hrun) (ih _ _ h)
      · cases h
    | .run (.ret v s) (.inner k :: st), h => exact .head .retInner (ih _ _ h)
    | .run (.ret v s) (.outer c k :: st), h => exact .head .retNested (ih _ _ h)
    | .run (.ret v s) [], h => exact .head .retIdle (ih _ _ h)

theorem Env.runInput_sound {e : Env S sig} {code : sig.Proc → Comp S sig Int} {fuel : Nat}
    {cfg cfg' : Config S sig} {i : Input sig} (h : e.runInput code fuel cfg i = some cfg') :
    Relation.ReflTransGen (Step code e) cfg cfg' := by
  match cfg, i, h with
  | .env s [], .enter p, h =>
    simp only [Env.runInput, Bool.and_eq_true] at h
    split at h
    · rename_i hmay
      exact .head (.enter hmay.1 hmay.2) (Env.settle_sound e fuel _ _ h)
    · cases h
  | .env s (.outer c k :: st), .enter p, h =>
    simp only [Env.runInput, Bool.and_eq_true] at h
    split at h
    · rename_i hmay
      exact .head (.reenter hmay.1 hmay.2) (Env.settle_sound e fuel _ _ h)
    · cases h
  | .env s (.outer c k :: st), .answer f, h =>
    simp only [Env.runInput] at h
    split at h
    · rename_i hmay
      exact .head (.answer (f c) hmay) (Env.settle_sound e fuel _ _ h)
    · cases h

/-- A driven run is a run of the machine. -/
theorem Env.runInputs_sound {e : Env S sig} {code : sig.Proc → Comp S sig Int} {fuel : Nat} :
    ∀ (is : List (Input sig)) {cfg cfg' : Config S sig},
      e.runInputs code fuel cfg is = some cfg' → Relation.ReflTransGen (Step code e) cfg cfg' := by
  intro is
  induction is with
  | nil =>
    intro cfg cfg' h
    cases h
    exact .refl
  | cons i is ih =>
    intro cfg cfg' h
    rw [Env.runInputs, Option.bind_eq_some_iff] at h
    obtain ⟨mid, hmid, hrest⟩ := h
    exact (Env.runInput_sound hmid).trans (ih hrest)

/-- The driven run leaves the environment in control, in a configuration that passes the test. -/
def Env.endsIn (e : Env S sig) (code : sig.Proc → Comp S sig Int) (fuel : Nat) (s₀ : S)
    (is : List (Input sig)) (test : S → List (Frame S sig) → Bool) : Bool :=
  match e.runInputs code fuel (.env s₀ []) is with
  | some (.env s st) => test s st
  | _ => false

theorem Env.endsIn_spec {e : Env S sig} {code : sig.Proc → Comp S sig Int} {fuel : Nat} {s₀ : S}
    {is : List (Input sig)} {test : S → List (Frame S sig) → Bool}
    (h : e.endsIn code fuel s₀ is test = true) :
    ∃ s st, e.runInputs code fuel (.env s₀ []) is = some (.env s st) ∧ test s st = true := by
  unfold Env.endsIn at h
  split at h
  · rename_i s st hrun
    exact ⟨s, st, hrun, h⟩
  · cases h

theorem Env.endsIn_sound {e : Env S sig} {code : sig.Proc → Comp S sig Int} {fuel : Nat} {s₀ : S}
    {is : List (Input sig)} {test : S → List (Frame S sig) → Bool}
    (h : e.endsIn code fuel s₀ is test = true) :
    ∃ s st, Reachable code e s₀ (.env s st) ∧ test s st = true := by
  rcases Env.endsIn_spec h with ⟨s, st, hrun, htest⟩
  exact ⟨s, st, Env.runInputs_sound is hrun, htest⟩

end SharedUtility.Reentrant
