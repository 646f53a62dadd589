import Mathlib.Data.List.Forall2
import SharedUtility.Reentrant.Quiet

/-!
# Observer — notes taken beside a run

An observer keeps notes about a component without changing what the component does: it is told of
every call out and its answer, and of every procedure that is entered and returns, with the state at
that moment.

* `Observer`  — what is noted at these moments,
* `Observed`  — a state with the notes; `observe` lifts code to such states,
* `Observer.code` — the observed procedures,
* `reachable_state` and `reachable_observed` — the observed runs are the runs of the component.
-/

namespace SharedUtility.Reentrant

/-- What is noted; where a field is not given, nothing is. -/
structure Observer (S : Type) (sig : Signature) (G : Type) where
  called : sig.Call → S → G → G := fun _ _ g => g
  answered : (c : sig.Call) → sig.Ans c → S → G → G := fun _ _ _ g => g
  entered : sig.Proc → S → G → G := fun _ _ g => g
  returned : sig.Proc → Int → S → G → G := fun _ _ _ g => g

/-- A state with the notes taken so far. -/
@[ext] structure Observed (S G : Type) where
  state : S
  notes : G
  deriving DecidableEq

variable {S G : Type} {sig : Signature} {α β : Type}

namespace Observed

def setState (s : Observed S G) (state : S) : Observed S G :=
  { s with state := state }

def setNotes (s : Observed S G) (notes : G) : Observed S G :=
  { s with notes := notes }

@[simp] theorem setState_state (s : Observed S G) (a : S) : (s.setState a).state = a := rfl

@[simp] theorem setState_notes (s : Observed S G) (a : S) : (s.setState a).notes = s.notes := rfl

@[simp] theorem setNotes_state (s : Observed S G) (g : G) : (s.setNotes g).state = s.state := rfl

@[simp] theorem setNotes_notes (s : Observed S G) (g : G) : (s.setNotes g).notes = g := rfl

@[simp] theorem setState_setState (s : Observed S G) (a b : S) :
    (s.setState a).setState b = s.setState b := rfl

end Observed

/-- The program with the notes `g` taken before it; at the return of a procedure they are those
that the procedure leaves. -/
def Prog.observe (O : Observer S sig G) : Prog S sig α → G → Prog (Observed S G) sig α
  | .ret a s, g => .ret a ⟨s, g⟩
  | .call c s k, g =>
    .call c ⟨s, O.called c s g⟩ fun r s' =>
      (k r s'.state).observe O (O.answered c r s'.state s'.notes)
  | .proc p s k, g => .proc p ⟨s, g⟩ fun r s' => (k r s'.state).observe O s'.notes

theorem Prog.observe_bind (O : Observer S sig G) (p : Prog S sig α) (f : α → S → Prog S sig β)
    (g : G) :
    (p.bind f).observe O g =
      (p.observe O g).bind fun a s => (f a s.state).observe O s.notes := by
  induction p generalizing g with
  | ret a s => rfl
  | call c s k ih =>
    simp only [Prog.bind, Prog.observe, ih]
  | proc p s k ih =>
    simp only [Prog.bind, Prog.observe, ih]

namespace Observer

variable (O : Observer S sig G)

/-- Code over states with notes. -/
def observe (c : Comp S sig α) : Comp (Observed S G) sig α :=
  fun s => (c s.state).observe O s.notes

/-- The end of a procedure is noted. -/
def finish (p : sig.Proc) (r : Int) (s : Observed S G) : Prog (Observed S G) sig Int :=
  .ret r (s.setNotes (O.returned p r s.state s.notes))

/-- The observed procedures. -/
def code (procs : sig.Proc → Comp S sig Int) (p : sig.Proc) : Comp (Observed S G) sig Int :=
  fun s => ((procs p s.state).observe O (O.entered p s.state s.notes)).bind (O.finish p)

/-! ## Rules -/

section

variable {O} {spec : Spec (Observed S G) sig} {s : Observed S G}

@[simp] theorem wp_observe_pure (a : α) (Q : α → Observed S G → Prop) :
    wp spec (O.observe (pure a)) Q s ↔ Q a s := Iff.rfl

@[simp] theorem wp_observe_bind (c : Comp S sig α) (f : α → Comp S sig β)
    (Q : β → Observed S G → Prop) :
    wp spec (O.observe (c >>= f)) Q =
      wp spec (O.observe c) fun a => wp spec (O.observe (f a)) Q := by
  funext s
  show Prog.Sat spec Q (((c s.state).bind fun a s' => f a s').observe O s.notes) = _
  rw [Prog.observe_bind]
  exact propext (Prog.sat_bind _ _)

@[simp] theorem wp_observe_get (Q : S → Observed S G → Prop) :
    wp spec (O.observe Comp.get) Q s ↔ Q s.state s := Iff.rfl

@[simp] theorem wp_observe_modify (f : S → S) (Q : Unit → Observed S G → Prop) :
    wp spec (O.observe (Comp.modify f)) Q s ↔ Q () (s.setState (f s.state)) := Iff.rfl

@[simp] theorem wp_observe_ite (b : Prop) [Decidable b] (c d : Comp S sig α)
    (Q : α → Observed S G → Prop) :
    wp spec (O.observe (if b then c else d)) Q s ↔
      if b then wp spec (O.observe c) Q s else wp spec (O.observe d) Q s := by
  split <;> rfl

theorem wp_code (procs : sig.Proc → Comp S sig Int) (p : sig.Proc)
    (Q : Int → Observed S G → Prop) :
    wp spec (O.code procs p) Q s ↔
      wp spec (O.observe (procs p))
        (fun r s' => Q r (s'.setNotes (O.returned p r s'.state s'.notes)))
        (s.setNotes (O.entered p s.state s.notes)) :=
  Prog.sat_bind _ _

end

/-! ## Rules for quiet evaluation -/

section

variable {O} {code : sig.Proc → Comp (Observed S G) sig Int}
variable {ok : (c : sig.Call) → sig.Ans c → Prop} {s : Observed S G}

@[simp] theorem quiet_observe_pure (a : α) (Q : α → Observed S G → Prop) :
    Quiet code ok (O.observe (pure a)) Q s ↔ Q a s := returns_ret

@[simp] theorem quiet_observe_bind (c : Comp S sig α) (f : α → Comp S sig β)
    (Q : β → Observed S G → Prop) :
    Quiet code ok (O.observe (c >>= f)) Q s ↔
      Quiet code ok (O.observe c) (fun a => Quiet code ok (O.observe (f a)) Q) s := by
  show Returns code ok (((c s.state).bind fun a s' => f a s').observe O s.notes) Q ↔ _
  rw [Prog.observe_bind]
  exact returns_bind

@[simp] theorem quiet_observe_get (Q : S → Observed S G → Prop) :
    Quiet code ok (O.observe Comp.get) Q s ↔ Q s.state s := returns_ret

@[simp] theorem quiet_observe_modify (f : S → S) (Q : Unit → Observed S G → Prop) :
    Quiet code ok (O.observe (Comp.modify f)) Q s ↔ Q () (s.setState (f s.state)) := returns_ret

@[simp] theorem quiet_observe_call (c : sig.Call) (Q : sig.Ans c → Observed S G → Prop) :
    Quiet code ok (O.observe (Comp.call c)) Q s ↔
      (∃ r, ok c r) ∧ ∀ r, ok c r →
        Q r (s.setNotes (O.answered c r s.state (O.called c s.state s.notes))) := by
  show Returns code ok (.call c ⟨s.state, O.called c s.state s.notes⟩ _) Q ↔ _
  simp only [returns_call, Prog.observe, returns_ret]
  rfl

@[simp] theorem quiet_observe_proc (p : sig.Proc) (Q : Int → Observed S G → Prop) :
    Quiet code ok (O.observe (Comp.proc p)) Q s ↔ Quiet code ok (code p) Q s := by
  show Returns code ok (.proc p s _) Q ↔ _
  simp only [returns_proc, Prog.observe, returns_ret]
  rfl

theorem quiet_code (procs : sig.Proc → Comp S sig Int) (p : sig.Proc)
    (Q : Int → Observed S G → Prop) :
    Quiet code ok (O.code procs p) Q s ↔
      Quiet code ok (O.observe (procs p))
        (fun r s' => Q r (s'.setNotes (O.returned p r s'.state s'.notes)))
        (s.setNotes (O.entered p s.state s.notes)) := by
  show Returns code ok (((procs p s.state).observe O (O.entered p s.state s.notes)).bind
    (O.finish p)) Q ↔ _
  rw [returns_bind]
  simp only [Observer.finish, returns_ret]
  rfl

end

/-! ## Observed runs are runs -/

/-- A waiting caller and the same caller observed. -/
inductive FrameOf : Frame (Observed S G) sig → Frame S sig → Prop where
  | inner (p : sig.Proc) (k : Int → S → Prog S sig Int) :
      FrameOf (.inner fun r s => ((k r s.state).observe O s.notes).bind (O.finish p)) (.inner k)
  | outer (p : sig.Proc) (c : sig.Call) (k : sig.Ans c → S → Prog S sig Int) :
      FrameOf
        (.outer c fun r s =>
          ((k r s.state).observe O (O.answered c r s.state s.notes)).bind (O.finish p))
        (.outer c k)

/-- A configuration and the same configuration observed. -/
inductive ConfigOf : Config (Observed S G) sig → Config S sig → Prop where
  | env (s : Observed S G) {st : List (Frame (Observed S G) sig)} {st' : List (Frame S sig)} :
      List.Forall₂ (FrameOf O) st st' → ConfigOf (.env s st) (.env s.state st')
  | run (p : sig.Proc) (P : Prog S sig Int) (g : G) {st : List (Frame (Observed S G) sig)}
      {st' : List (Frame S sig)} :
      List.Forall₂ (FrameOf O) st st' →
        ConfigOf (.run ((P.observe O g).bind (O.finish p)) st) (.run P st')

/-- The environment `e'` lets happen to states with notes only what `e` lets happen to the states. -/
structure Within (e' : Env (Observed S G) sig) (e : Env S sig) : Prop where
  mayEnter : ∀ top p s, e'.mayEnter top p s = true → e.mayEnter top p s.state = true
  mayAnswer : ∀ c r s, e'.mayAnswer c r s = true → e.mayAnswer c r s.state = true
  mayRun : ∀ p s, e'.mayRun p s = true → e.mayRun p s.state = true

variable {O}

theorem step_state {procs : sig.Proc → Comp S sig Int} {e' : Env (Observed S G) sig}
    {e : Env S sig} (he : Within e' e) {cfg cfg' : Config (Observed S G) sig}
    {plain : Config S sig} (hcfg : ConfigOf O cfg plain) (hstep : Step (O.code procs) e' cfg cfg') :
    ∃ plain', Step procs e plain plain' ∧ ConfigOf O cfg' plain' := by
  cases hcfg with
  | env s hst =>
    cases hstep with
    | @enter _ p hmay hrun =>
      cases hst
      exact ⟨_, .enter (he.mayEnter _ _ _ hmay) (he.mayRun _ _ hrun), .run p _ _ .nil⟩
    | @reenter _ p _ _ _ hmay hrun =>
      cases hst with
      | cons hframe hst =>
        cases hframe with
        | outer q _ k =>
          exact ⟨_, .reenter (he.mayEnter _ _ _ hmay) (he.mayRun _ _ hrun),
            .run p _ _ (.cons (.outer q _ k) hst)⟩
    | answer r hmay =>
      cases hst with
      | cons hframe hst =>
        cases hframe with
        | outer q _ k => exact ⟨_, .answer r (he.mayAnswer _ _ _ hmay), .run q _ _ hst⟩
  | run p P g hst =>
    cases P with
    | ret v s =>
      cases hstep with
      | retInner =>
        cases hst with
        | cons hframe hst =>
          cases hframe with
          | inner q k => exact ⟨_, .retInner, .run q _ _ hst⟩
      | retNested =>
        cases hst with
        | cons hframe hst =>
          cases hframe with
          | outer q _ k => exact ⟨_, .retNested, .env _ (.cons (.outer q _ k) hst)⟩
      | retIdle =>
        cases hst
        exact ⟨_, .retIdle, .env _ .nil⟩
    | call c s k =>
      cases hstep with
      | callOut => exact ⟨_, .callOut, .env _ (.cons (.outer p c k) hst)⟩
    | proc q s k =>
      cases hstep with
      | callProc hrun =>
        exact ⟨_, .callProc (he.mayRun _ _ hrun), .run q _ _ (.cons (.inner p k) hst)⟩

/-- An observed run is a run of the component: the notes change nothing. -/
theorem reachable_state {procs : sig.Proc → Comp S sig Int} {e' : Env (Observed S G) sig}
    {e : Env S sig} (he : Within e' e) {s₀ s : Observed S G}
    {st : List (Frame (Observed S G) sig)} (h : Reachable (O.code procs) e' s₀ (.env s st)) :
    ∃ st', Reachable procs e s₀.state (.env s.state st') := by
  have hsim : ∀ cfg, Reachable (O.code procs) e' s₀ cfg →
      ∃ plain, Reachable procs e s₀.state plain ∧ ConfigOf O cfg plain := by
    intro cfg hreach
    induction hreach with
    | refl => exact ⟨_, .refl, .env s₀ .nil⟩
    | tail _ hstep ih =>
      rcases ih with ⟨plain, hplain, hcfg⟩
      rcases step_state he hcfg hstep with ⟨plain', hstep', hcfg'⟩
      exact ⟨plain', hplain.tail hstep', hcfg'⟩
  rcases hsim _ h with ⟨plain, hplain, hcfg⟩
  cases hcfg with
  | env _ _ => exact ⟨_, hplain⟩

/-- The surroundings `e`, for states with notes. -/
def environment (G : Type) (e : Env S sig) : Env (Observed S G) sig where
  mayEnter top p s := e.mayEnter top p s.state
  mayAnswer c r s := e.mayAnswer c r s.state
  mayRun p s := e.mayRun p s.state

theorem step_observed {procs : sig.Proc → Comp S sig Int} {e : Env S sig}
    {cfg : Config (Observed S G) sig} {plain plain' : Config S sig} (hcfg : ConfigOf O cfg plain)
    (hstep : Step procs e plain plain') :
    ∃ cfg', Step (O.code procs) (environment G e) cfg cfg' ∧ ConfigOf O cfg' plain' := by
  cases hcfg with
  | env s hst =>
    cases hstep with
    | @enter _ p hmay hrun =>
      cases hst
      exact ⟨_, .enter hmay hrun, .run p _ _ .nil⟩
    | @reenter _ p _ _ _ hmay hrun =>
      cases hst with
      | cons hframe hst =>
        cases hframe with
        | outer q _ _ => exact ⟨_, .reenter hmay hrun, .run p _ _ (.cons (.outer q _ _) hst)⟩
    | answer r hmay =>
      cases hst with
      | cons hframe hst =>
        cases hframe with
        | outer q _ _ => exact ⟨_, .answer r hmay, .run q _ _ hst⟩
  | run p P g hst =>
    cases hstep with
    | retInner =>
      cases hst with
      | cons hframe hst =>
        cases hframe with
        | inner q _ => exact ⟨_, .retInner, .run q _ _ hst⟩
    | retNested =>
      cases hst with
      | cons hframe hst =>
        cases hframe with
        | outer q _ _ => exact ⟨_, .retNested, .env _ (.cons (.outer q _ _) hst)⟩
    | retIdle =>
      cases hst
      exact ⟨_, .retIdle, .env _ .nil⟩
    | @callOut s c k st => exact ⟨_, .callOut, .env ⟨s, _⟩ (.cons (.outer p c k) hst)⟩
    | @callProc s q k st hrun => exact ⟨_, .callProc hrun, .run q _ _ (.cons (.inner p k) hst)⟩

/-- Every run of the component is observed: the notes prevent nothing. -/
theorem reachable_observed {procs : sig.Proc → Comp S sig Int} {e : Env S sig} {s₀ : S} {s : S}
    (g : G) {st : List (Frame S sig)} (h : Reachable procs e s₀ (.env s st)) :
    ∃ g' st', Reachable (O.code procs) (environment G e) ⟨s₀, g⟩ (.env ⟨s, g'⟩ st') := by
  have hsim : ∀ plain, Reachable procs e s₀ plain →
      ∃ cfg, Reachable (O.code procs) (environment G e) ⟨s₀, g⟩ cfg ∧ ConfigOf O cfg plain := by
    intro plain hreach
    induction hreach with
    | refl => exact ⟨_, .refl, .env ⟨s₀, g⟩ .nil⟩
    | tail _ hstep ih =>
      rcases ih with ⟨cfg, hcfg, hof⟩
      rcases step_observed hof hstep with ⟨cfg', hstep', hof'⟩
      exact ⟨cfg', hcfg.tail hstep', hof'⟩
  rcases hsim _ h with ⟨cfg, hcfg, hof⟩
  cases hof with
  | env _ _ => exact ⟨_, _, hcfg⟩

end Observer

end SharedUtility.Reentrant
