import Mathlib.Data.List.Perm.Basic
import Mathlib.Data.List.Nodup
import Mathlib.Logic.Relation
import SharedUtility.OptionHandler.Code

/-!
# Ownership — every option value is destroyed once

A history is a list of calls of `OptionHandler_Create`, `OptionHandler_AddOption`, `OptionHandler_Clone`,
`OptionHandler_Destroy` and of the functions that retrieve options, each with an allocator.  The caller
uses the handlers that it owns: those that it was given and has neither destroyed nor added to another.

* `OwnershipKept` — nothing is destroyed twice, what nobody holds any more is destroyed, and what is held
  is not.
* `Owned` — the invariant: the values that are alive are those that are held, each by one live handler,
  those that the caller owns, and those that the code has in hand.

A nested handler is passed on as it is where it should be cloned, and it is destroyed twice where there is
no memory for its place in the vector; the condition says when this does not happen.
-/

namespace SharedUtility.OptionHandler

/-! ## Histories -/

/-- A call.  The functions of a component are any; the caller may be a component itself. -/
inductive Op
  | create (functions : OptionFunctions)
  | addOption (handle : Option Nat) (name : Option String) (value : Option Value)
  | clone (handler : Option Nat)
  | destroy (handle : Option Nat)
  | xioRetrieveoptions (io : ConcreteIo)
  | uwsClientRetrieveOptions (io : ConcreteIo)
  | wsioRetrieveoptions (io : ConcreteIo)

/-- The heap, and the handlers that the caller owns. -/
structure Session where
  heap : OptionHeap := {}
  owned : List Nat := []

namespace Session

/-- The functions of a handler that is live. -/
def functions (s : Session) (h : Nat) : Option OptionFunctions :=
  (s.heap.handlers[h]?.filter (·.live)).map OptionHandlerHandleData.functions

/-- The handler that an option value would be, if its name says that it is one. -/
def nestedIn (s : Session) (h : Nat) (name : String) (value : Value) : Option Nat :=
  match value with
  | .handler n => if (s.functions h).any (·.nests name) then some n else none
  | .plain _ => none

/-- The caller is given a handler. -/
def receive (s : Session) (r : Option Nat × OptionHeap) : Session :=
  { heap := r.2, owned := r.1.toList ++ s.owned }

def perform (s : Session) (op : Op) (allocator : Allocator) : Session :=
  match op with
  | .create functions => s.receive (optionHandlerCreate functions allocator s.heap)
  | .addOption handle name value =>
    let r := optionHandlerAddOption handle name value allocator s.heap
    let added : Option Nat := do
      let h ← handle
      let name ← name
      let value ← value
      s.nestedIn h name value
    { heap := r.2
      owned :=
        if r.1 = .optionHandlerOk then s.owned.filter (some · ≠ added) else s.owned }
  | .clone handler => s.receive (optionHandlerClone handler allocator s.heap)
  | .destroy handle =>
    { heap := (optionHandlerDestroy handle allocator s.heap).2
      owned := s.owned.filter (some · ≠ handle) }
  | .xioRetrieveoptions io => s.receive (xioRetrieveoptions io.retrieveoptions allocator s.heap)
  | .uwsClientRetrieveOptions io =>
    s.receive (OptionHandler.uwsClientRetrieveOptions io.retrieveoptions allocator s.heap)
  | .wsioRetrieveoptions io =>
    s.receive (OptionHandler.wsioRetrieveoptions io.retrieveoptions allocator s.heap)

/-- The caller passes handlers that it owns; a value whose name says that it is a handler is one, and is
not the handler that it is added to. -/
def permits (s : Session) : Op → Bool
  | .addOption (some h) (some name) (some value) =>
    s.owned.contains h &&
    (!(s.functions h).any (·.nests name) ||
      match value with
      | .handler n => s.owned.contains n && n != h
      | .plain _ => false)
  | .addOption (some h) _ _ => s.owned.contains h
  | .clone (some h) => s.owned.contains h
  | .destroy (some h) => s.owned.contains h
  | _ => true

end Session

/-- A step of a history, of those calls that are `allowed`. -/
inductive Step (allowed : Session → Op → Allocator → Prop) : Session → Session → Prop where
  | call {s : Session} (op : Op) (allocator : Allocator) :
      s.permits op = true → allowed s op allocator → Step allowed s (s.perform op allocator)

def Reached (allowed : Session → Op → Allocator → Prop) : Session → Prop :=
  Relation.ReflTransGen (Step allowed) {}

/-! ## The property -/

/-- The values that a handler has stored. -/
def OptionHandlerHandleData.values (d : OptionHandlerHandleData) : List Value :=
  d.storage.map OptionData.storage

/-- A value was copied, or a handler created. -/
def OptionHeap.Made (s : OptionHeap) : Value → Prop
  | .plain k => k < s.values
  | .handler h => h < s.handlers.length

structure OwnershipKept (s : Session) : Prop where
  once : ∀ v, s.heap.destroyed.count v ≤ 1
  released : ∀ v, (∃ d ∈ s.heap.handlers, v ∈ d.values) →
    (∀ d ∈ s.heap.handlers, v ∈ d.values → d.live = false) → v ∈ s.heap.destroyed
  dangling : ∀ d ∈ s.heap.handlers, d.live = true → ∀ v ∈ d.values, v ∉ s.heap.destroyed
  reclaimed : ∀ v, s.heap.Made v → v ∉ s.owned.map Value.handler →
    (∀ d ∈ s.heap.handlers, v ∈ d.values → d.live = false) → v ∈ s.heap.destroyed

/-! ## The condition -/

/-- The allocations of a clone succeed up to an option whose value is a handler.  Each option before it
takes three. -/
def reachesNested (allocator : Allocator) (f : OptionFunctions) : List OptionData → Nat → Bool
  | [], _ => false
  | option :: rest, n =>
    allocator .name n &&
    (f.nests option.name ||
      (f.copies option.name && allocator .value (n + 1) && allocator (.element false) (n + 2) &&
        reachesNested allocator f rest (n + 3)))

/-- A clone comes to an option whose value is a handler, and passes it on. -/
def Session.sharesNested (s : Session) (h : Nat) (allocator : Allocator) : Bool :=
  match s.heap.handlers[h]? with
  | some d =>
    allocator .handlerData s.heap.allocs && allocator .vector (s.heap.allocs + 1) &&
      reachesNested allocator d.functions d.storage (s.heap.allocs + 2)
  | none => false

/-- The condition.
* A handler that is added to another one finds memory for its place in the vector.
* A clone does not come to an option whose value is a handler. -/
def ownedCall (s : Session) (op : Op) (allocator : Allocator) : Prop :=
  (∀ n, allocator (.element true) n = true) ∧
    ∀ h, op = .clone (some h) → s.sharesNested h allocator = false

/-! ## The invariant -/

/-- A value is not destroyed yet. -/
def OptionHeap.Alive (s : OptionHeap) : Value → Prop
  | .plain k => k < s.values ∧ .plain k ∉ s.destroyed
  | .handler h => ∃ d, s.handlers[h]? = some d ∧ d.live = true

def OptionHandlerHandleData.held (d : OptionHandlerHandleData) : List Value :=
  if d.live then d.values else []

/-- The values that the live handlers hold. -/
def OptionHeap.held (s : OptionHeap) : List Value :=
  s.handlers.flatMap OptionHandlerHandleData.held

def OptionHeap.liveCount (s : OptionHeap) : Nat :=
  s.handlers.countP (·.live)

def OptionHeap.functionsOf (s : OptionHeap) (h : Nat) : Option OptionFunctions :=
  (s.handlers.map OptionHandlerHandleData.functions)[h]?

/-- Handlers are only added, and keep their functions. -/
def OptionHeap.Grows (s s' : OptionHeap) : Prop :=
  s.handlers.map OptionHandlerHandleData.functions <+:
    s'.handlers.map OptionHandlerHandleData.functions

/-- The value of an option is of the kind that its name says. -/
def OptionFunctions.Typed (f : OptionFunctions) (option : OptionData) : Prop :=
  match option.storage with
  | .handler _ => f.nests option.name = true
  | .plain _ => f.nests option.name = false ∧ f.copies option.name = true

/-- What is alive, each value once. -/
structure Exact (s : OptionHeap) (l : List Value) : Prop where
  nodup : l.Nodup
  mem : ∀ v, v ∈ l ↔ s.Alive v

/-- `loose` are the values that no handler holds and that are kept, `pending` those that are about to be
destroyed. -/
structure Owned (s : OptionHeap) (loose pending : List Value) : Prop where
  exact : Exact s (s.held ++ (loose ++ pending))
  once : s.destroyed.Nodup
  made : ∀ v ∈ s.destroyed, s.Made v
  gone : ∀ v ∈ s.destroyed, ¬ s.Alive v
  freed : ∀ v, s.Made v → s.Alive v ∨ v ∈ s.destroyed
  spent : ∀ d ∈ s.handlers, d.live = false → ∀ v ∈ d.values, v ∈ s.destroyed ∨ v ∈ pending
  typed : ∀ d ∈ s.handlers, d.live = true → ∀ option ∈ d.storage, d.functions.Typed option

section

variable {s s' : OptionHeap} {l l' : List Value} {v : Value}

theorem Exact.perm (h : Exact s l) (hperm : l.Perm l') : Exact s l' where
  nodup := hperm.nodup_iff.1 h.nodup
  mem w := hperm.mem_iff.symm.trans (h.mem w)

theorem Exact.remove (h : Exact s (v :: l)) (halive : ∀ w, s'.Alive w ↔ s.Alive w ∧ w ≠ v) :
    Exact s' l where
  nodup := (List.nodup_cons.1 h.nodup).2
  mem w := by
    have hfresh := (List.nodup_cons.1 h.nodup).1
    rw [halive, ← h.mem]
    constructor
    · intro hw
      refine ⟨List.mem_cons_of_mem v hw, ?_⟩
      rintro rfl
      exact hfresh hw
    · rintro ⟨hw, hne⟩
      exact (List.mem_cons.1 hw).resolve_left hne

theorem Exact.add (h : Exact s l) (hv : ¬ s.Alive v) (halive : ∀ w, s'.Alive w ↔ s.Alive w ∨ w = v) :
    Exact s' (v :: l) where
  nodup := List.nodup_cons.2 ⟨fun hmem => hv ((h.mem v).1 hmem), h.nodup⟩
  mem w := by
    rw [halive, ← h.mem, List.mem_cons]
    exact Or.comm

end

theorem flatMap_set_perm {α β : Type} (g : α → List β) {l : List α} {i : Nat} {a : α} (a' : α)
    (h : l[i]? = some a) : ((l.set i a').flatMap g ++ g a).Perm (l.flatMap g ++ g a') := by
  induction l generalizing i with
  | nil => cases h
  | cons b l ih =>
    cases i with
    | zero =>
      cases h
      simp only [List.set_cons_zero, List.flatMap_cons, List.append_assoc]
      calc
        (g a' ++ (l.flatMap g ++ g a)).Perm (l.flatMap g ++ (g a' ++ g a)) :=
          List.perm_append_comm_assoc _ _ _
        List.Perm _ (l.flatMap g ++ (g a ++ g a')) := List.perm_append_comm.append_left _
        List.Perm _ (g a ++ (l.flatMap g ++ g a')) := List.perm_append_comm_assoc _ _ _
    | succ i =>
      simp only [List.set_cons_succ, List.flatMap_cons, List.append_assoc]
      exact (ih h).append_left (g b)

/-! ## Changes of the heap -/

section

variable {s s' s'' : OptionHeap} {loose loose' pending pending' : List Value}

theorem Grows.refl (s : OptionHeap) : s.Grows s :=
  List.prefix_refl _

theorem Grows.trans (h : s.Grows s') (h' : s'.Grows s'') : s.Grows s'' :=
  List.IsPrefix.trans h h'

theorem Grows.functionsOf (h : s.Grows s') {n : Nat} {f : OptionFunctions}
    (hf : s.functionsOf n = some f) : s'.functionsOf n = some f := by
  rcases h with ⟨rest, hrest⟩
  have hn := (List.getElem?_eq_some_iff.1 hf).1
  rw [OptionHeap.functionsOf, ← hrest, List.getElem?_append_left hn]
  exact hf

theorem Owned.loosen (hs : Owned s loose pending)
    (hperm : (loose ++ pending).Perm (loose' ++ pending')) (hsub : pending ⊆ pending') :
    Owned s loose' pending' :=
  { hs with
    exact := hs.exact.perm (hperm.append_left s.held)
    spent := fun d hd hdead v hv => (hs.spent d hd hdead v hv).imp_right fun hmem => hsub hmem }

theorem Owned.discard {v : Value} (hs : Owned s (v :: loose) pending) :
    Owned s loose (v :: pending) :=
  hs.loosen List.perm_middle.symm (List.subset_cons_self _ _)

theorem Owned.count (hs : Owned s loose pending) : Owned s.count loose pending :=
  ⟨⟨hs.exact.nodup, hs.exact.mem⟩, hs.once, hs.made, hs.gone, hs.freed, hs.spent, hs.typed⟩

theorem Owned.alive_of_mem (hs : Owned s loose pending) {v : Value} (hv : v ∈ loose ++ pending) :
    s.Alive v :=
  (hs.exact.mem v).1 (List.mem_append_right _ hv)

theorem Owned.addValue (hs : Owned s loose pending) :
    Owned s.addValue (.plain s.values :: loose) pending := by
  have hnew : .plain s.values ∉ s.destroyed := fun hmem => Nat.lt_irrefl _ (hs.made _ hmem)
  have hfresh : ¬ s.Alive (.plain s.values) := fun h => absurd h.1 (Nat.lt_irrefl _)
  have halive : ∀ w, s.addValue.Alive w ↔ s.Alive w ∨ w = .plain s.values := by
    intro w
    cases w with
    | plain k =>
      show k < s.values + 1 ∧ .plain k ∉ s.destroyed ↔
        (k < s.values ∧ .plain k ∉ s.destroyed) ∨ Value.plain k = .plain s.values
      constructor
      · rintro ⟨hk, hmem⟩
        rcases Nat.lt_succ_iff_lt_or_eq.1 hk with hk | rfl
        · exact .inl ⟨hk, hmem⟩
        · exact .inr rfl
      · rintro (⟨hk, hmem⟩ | hk)
        · exact ⟨Nat.lt_succ_of_lt hk, hmem⟩
        · cases hk
          exact ⟨Nat.lt_succ_self _, hnew⟩
    | handler h =>
      constructor
      · exact .inl
      · rintro (h | h)
        · exact h
        · cases h
  have hmade : ∀ w, s.Made w → s.addValue.Made w := by
    intro w hw
    cases w with
    | plain k => exact Nat.lt_succ_of_lt hw
    | handler h => exact hw
  refine ⟨(hs.exact.add hfresh halive).perm List.perm_middle.symm, hs.once,
    fun v hv => hmade v (hs.made v hv), ?_, ?_, hs.spent, hs.typed⟩
  · intro v hv hval
    rcases (halive v).1 hval with hval | rfl
    · exact hs.gone v hv hval
    · exact hnew hv
  · intro v hv
    by_cases hvalue : v = .plain s.values
    · exact .inl ((halive v).2 (.inr hvalue))
    · have hv : s.Made v := by
        cases v with
        | plain k =>
          rcases Nat.lt_succ_iff_lt_or_eq.1 hv with hk | rfl
          · exact hk
          · exact absurd rfl hvalue
        | handler h => exact hv
      exact (hs.freed v hv).imp_left fun h => (halive v).2 (.inl h)

theorem Owned.addHandler (hs : Owned s loose pending) (f : OptionFunctions) :
    Owned (s.addHandler f) (.handler s.handlers.length :: loose) pending := by
  have hnone : s.handlers[s.handlers.length]? = none := List.getElem?_eq_none (Nat.le_refl _)
  have hfresh : ¬ s.Alive (.handler s.handlers.length) := by
    rintro ⟨d, hd, -⟩
    rw [hnone] at hd
    cases hd
  have hnew : .handler s.handlers.length ∉ s.destroyed := fun hmem =>
    Nat.lt_irrefl _ (hs.made _ hmem)
  have halive : ∀ w, (s.addHandler f).Alive w ↔ s.Alive w ∨ w = .handler s.handlers.length := by
    intro w
    cases w with
    | plain k =>
      constructor
      · exact .inl
      · rintro (h | h)
        · exact h
        · cases h
    | handler h =>
      show (∃ d, (s.handlers ++ [_])[h]? = some d ∧ d.live = true) ↔ _
      constructor
      · rintro ⟨d, hd, hlive⟩
        rcases Nat.lt_trichotomy h s.handlers.length with hlt | rfl | hgt
        · rw [List.getElem?_append_left hlt] at hd
          exact .inl ⟨d, hd, hlive⟩
        · exact .inr rfl
        · rw [List.getElem?_eq_none (by rw [List.length_append]; exact hgt)] at hd
          cases hd
      · rintro (⟨d, hd, hlive⟩ | hh)
        · refine ⟨d, ?_, hlive⟩
          rw [List.getElem?_append_left (List.getElem?_eq_some_iff.1 hd).1]
          exact hd
        · cases hh
          exact ⟨_, List.getElem?_concat_length, rfl⟩
  have hheld : (s.addHandler f).held = s.held := by
    simp [OptionHeap.held, OptionHeap.addHandler, OptionHandlerHandleData.held,
      OptionHandlerHandleData.values]
  have hmade : ∀ w, s.Made w → (s.addHandler f).Made w := by
    intro w hw
    cases w with
    | plain k => exact hw
    | handler h =>
      show h < (s.handlers ++ [_]).length
      rw [List.length_append]
      exact Nat.lt_add_right _ hw
  refine ⟨?_, hs.once, fun v hv => hmade v (hs.made v hv), ?_, ?_, ?_, ?_⟩
  · rw [hheld]
    exact (hs.exact.add hfresh halive).perm List.perm_middle.symm
  · intro v hv hval
    rcases (halive v).1 hval with hval | rfl
    · exact hs.gone v hv hval
    · exact hnew hv
  · intro v hv
    by_cases hvalue : v = .handler s.handlers.length
    · exact .inl ((halive v).2 (.inr hvalue))
    · have hv : s.Made v := by
        cases v with
        | plain k => exact hv
        | handler h =>
          have hlt : h < (s.handlers ++ [_]).length := hv
          rw [List.length_append, List.length_singleton] at hlt
          rcases Nat.lt_succ_iff_lt_or_eq.1 hlt with hlt | rfl
          · exact hlt
          · exact absurd rfl hvalue
      exact (hs.freed v hv).imp_left fun h => (halive v).2 (.inl h)
  · intro d hd hdead
    rcases List.mem_append.1 hd with hd | hd
    · exact hs.spent d hd hdead
    · rw [List.mem_singleton.1 hd] at hdead
      cases hdead
  · intro d hd hlive
    rcases List.mem_append.1 hd with hd | hd
    · exact hs.typed d hd hlive
    · rw [List.mem_singleton.1 hd]
      exact nofun

theorem alive_setHandler {h : Nat} {d d' : OptionHandlerHandleData} (hd : s.handlers[h]? = some d)
    (n : Nat) : (s.setHandler h d').Alive (.handler n) ↔
      if n = h then d'.live = true else s.Alive (.handler n) := by
  have hh := (List.getElem?_eq_some_iff.1 hd).1
  show (∃ e, (s.handlers.set h d')[n]? = some e ∧ e.live = true) ↔ _
  by_cases hn : n = h
  · subst hn
    rw [if_pos rfl, List.getElem?_set_self hh]
    simp
  · rw [if_neg hn, List.getElem?_set_ne (Ne.symm hn)]
    rfl

theorem mem_setHandler {h : Nat} {d' e : OptionHandlerHandleData}
    (he : e ∈ (s.setHandler h d').handlers) : e ∈ s.handlers ∨ e = d' :=
  List.mem_or_eq_of_mem_set he

theorem Owned.log {k : Nat} (hs : Owned s loose (.plain k :: pending)) :
    Owned (s.log (.plain k)) loose pending := by
  have hk : s.Alive (.plain k) :=
    hs.alive_of_mem (List.mem_append_right _ List.mem_cons_self)
  have halive : ∀ w, (s.log (.plain k)).Alive w ↔ s.Alive w ∧ w ≠ .plain k := by
    intro w
    cases w with
    | plain j =>
      show j < s.values ∧ .plain j ∉ s.destroyed ++ [.plain k] ↔
        (j < s.values ∧ .plain j ∉ s.destroyed) ∧ Value.plain j ≠ .plain k
      simp [and_assoc]
    | handler h => exact ⟨fun h => ⟨h, nofun⟩, And.left⟩
  have hperm : (s.held ++ (loose ++ .plain k :: pending)).Perm
      (.plain k :: (s.held ++ (loose ++ pending))) :=
    (List.perm_middle.append_left _).trans List.perm_middle
  refine ⟨(hs.exact.perm hperm).remove halive, ?_, ?_, ?_, ?_, ?_, hs.typed⟩
  · rw [OptionHeap.log, List.nodup_append]
    refine ⟨hs.once, List.nodup_singleton _, ?_⟩
    rintro v hv w hw rfl
    rw [List.mem_singleton.1 hw] at hv
    exact hs.gone _ hv hk
  · intro v hv
    rcases List.mem_append.1 hv with hv | hv
    · exact hs.made v hv
    · rw [List.mem_singleton.1 hv]
      exact hk.1
  · intro v hv hval
    rw [halive] at hval
    rcases List.mem_append.1 hv with hv | hv
    · exact hs.gone v hv hval.1
    · exact hval.2 (List.mem_singleton.1 hv)
  · intro v hv
    rcases hs.freed v hv with hval | hmem
    · by_cases hvk : v = .plain k
      · exact .inr (List.mem_append_right _ (List.mem_singleton.2 hvk))
      · exact .inl ((halive v).2 ⟨hval, hvk⟩)
    · exact .inr (List.mem_append_left _ hmem)
  · intro d hd hdead v hv
    rcases hs.spent d hd hdead v hv with hmem | hmem
    · exact .inl (List.mem_append_left _ hmem)
    · rcases List.mem_cons.1 hmem with rfl | hmem
      · exact .inl (List.mem_append_right _ (List.mem_singleton.2 rfl))
      · exact .inr hmem

theorem held_of_live {d : OptionHandlerHandleData} (hlive : d.live = true) : d.held = d.values := by
  rw [OptionHandlerHandleData.held, if_pos hlive]

theorem Owned.release {h : Nat} {d : OptionHandlerHandleData}
    (hs : Owned s loose (.handler h :: pending)) (hd : s.handlers[h]? = some d)
    (hlive : d.live = true) :
    Owned ((s.log (.handler h)).setHandler h { d with live := false }) loose
      (d.values ++ pending) := by
  have hmem : d ∈ s.handlers := List.mem_of_getElem? hd
  have halive : ∀ w, ((s.log (.handler h)).setHandler h { d with live := false }).Alive w ↔
      s.Alive w ∧ w ≠ .handler h := by
    intro w
    cases w with
    | plain j =>
      show j < s.values ∧ .plain j ∉ s.destroyed ++ [.handler h] ↔
        (j < s.values ∧ .plain j ∉ s.destroyed) ∧ Value.plain j ≠ .handler h
      simp
    | handler n =>
      rw [alive_setHandler (s := s.log (.handler h)) hd]
      by_cases hn : n = h
      · simp [hn]
      · rw [if_neg hn]
        exact ⟨fun hval => ⟨hval, fun heq => hn (Value.handler.inj heq)⟩, And.left⟩
  have hgone : .handler h ∉ s.destroyed := by
    intro hin
    exact hs.gone _ hin ⟨d, hd, hlive⟩
  have hheld : (((s.log (.handler h)).setHandler h { d with live := false }).held ++ d.values).Perm
      s.held := by
    have hset := flatMap_set_perm OptionHandlerHandleData.held { d with live := false } hd
    have hnone : OptionHandlerHandleData.held { d with live := false } = [] := if_neg nofun
    rwa [held_of_live hlive, hnone, List.append_nil] at hset
  have hperm : (s.held ++ (loose ++ Value.handler h :: pending)).Perm
      (Value.handler h :: (((s.log (.handler h)).setHandler h { d with live := false }).held ++
        (loose ++ (d.values ++ pending)))) := by
    refine ((List.perm_middle.append_left _).trans List.perm_middle).trans (List.Perm.cons _ ?_)
    refine (hheld.symm.append_right _).trans ?_
    rw [List.append_assoc]
    apply List.Perm.append_left
    exact List.perm_append_comm_assoc _ _ _
  refine ⟨(hs.exact.perm hperm).remove halive, ?_, ?_, ?_, ?_, ?_, ?_⟩
  · show (s.destroyed ++ [Value.handler h]).Nodup
    rw [List.nodup_append]
    refine ⟨hs.once, List.nodup_singleton _, ?_⟩
    rintro v hv w hw rfl
    rw [List.mem_singleton.1 hw] at hv
    exact hgone hv
  · intro v hv
    have hmade : s.Made v := by
      rcases List.mem_append.1 hv with hv | hv
      · exact hs.made v hv
      · rw [List.mem_singleton.1 hv]
        exact (List.getElem?_eq_some_iff.1 hd).1
    cases v with
    | plain k => exact hmade
    | handler n =>
      show n < (s.handlers.set h _).length
      rw [List.length_set]
      exact hmade
  · intro v hv hval
    rw [halive] at hval
    rcases List.mem_append.1 hv with hv | hv
    · exact hs.gone v hv hval.1
    · exact hval.2 (List.mem_singleton.1 hv)
  · intro v hv
    have hmade : s.Made v := by
      cases v with
      | plain k => exact hv
      | handler n =>
        have hv : n < (s.handlers.set h _).length := hv
        rw [List.length_set] at hv
        exact hv
    rcases hs.freed v hmade with hval | hin
    · by_cases hvh : v = .handler h
      · exact .inr (List.mem_append_right _ (List.mem_singleton.2 hvh))
      · exact .inl ((halive v).2 ⟨hval, hvh⟩)
    · exact .inr (List.mem_append_left _ hin)
  · intro e he hdead v hv
    rcases mem_setHandler he with he | rfl
    · rcases hs.spent e he hdead v hv with hin | hin
      · exact .inl (List.mem_append_left _ hin)
      · rcases List.mem_cons.1 hin with rfl | hin
        · exact .inl (List.mem_append_right _ (List.mem_singleton.2 rfl))
        · exact .inr (List.mem_append_right _ hin)
    · exact .inr (List.mem_append_left _ hv)
  · intro e he hlive
    rcases mem_setHandler he with he | rfl
    · exact hs.typed e he hlive
    · cases hlive

theorem Owned.push {h : Nat} {d : OptionHandlerHandleData} {option : OptionData}
    (hs : Owned s (option.storage :: loose) pending) (hd : s.handlers[h]? = some d)
    (hlive : d.live = true) (htyped : d.functions.Typed option) :
    Owned (s.setHandler h { d with storage := d.storage ++ [option] }) loose pending := by
  have hmem : d ∈ s.handlers := List.mem_of_getElem? hd
  have halive : ∀ w,
      (s.setHandler h { d with storage := d.storage ++ [option] }).Alive w ↔ s.Alive w := by
    intro w
    cases w with
    | plain j => rfl
    | handler n =>
      rw [alive_setHandler hd]
      by_cases hn : n = h
      · subst hn
        rw [if_pos rfl]
        exact ⟨fun _ => ⟨d, hd, hlive⟩, fun _ => hlive⟩
      · rw [if_neg hn]
  have hmade : ∀ w,
      (s.setHandler h { d with storage := d.storage ++ [option] }).Made w ↔ s.Made w := by
    intro w
    cases w with
    | plain j => rfl
    | handler n =>
      show n < (s.handlers.set h _).length ↔ n < s.handlers.length
      rw [List.length_set]
  have hheld : ((s.setHandler h { d with storage := d.storage ++ [option] }).held).Perm
      (option.storage :: s.held) := by
    have hset := flatMap_set_perm OptionHandlerHandleData.held
      { d with storage := d.storage ++ [option] } hd
    have hvalues : OptionHandlerHandleData.held { d with storage := d.storage ++ [option] } =
        d.values ++ [option.storage] := by
      simp [OptionHandlerHandleData.held, OptionHandlerHandleData.values, hlive]
    rw [held_of_live hlive, hvalues, ← List.append_assoc] at hset
    have hcomm : (s.held ++ d.values ++ [option.storage]).Perm
        (option.storage :: s.held ++ d.values) := List.perm_append_singleton _ _
    exact (List.perm_append_right_iff _).1 (hset.trans hcomm)
  have hperm : ((s.setHandler h { d with storage := d.storage ++ [option] }).held ++
      (loose ++ pending)).Perm (s.held ++ (option.storage :: loose ++ pending)) :=
    (hheld.append_right _).trans List.perm_middle.symm
  refine ⟨⟨hperm.nodup_iff.2 hs.exact.nodup, ?_⟩, hs.once, ?_, ?_, ?_, ?_, ?_⟩
  · intro v
    rw [hperm.mem_iff, hs.exact.mem, halive]
  · exact fun v hv => (hmade v).2 (hs.made v hv)
  · exact fun v hv hval => hs.gone v hv ((halive v).1 hval)
  · exact fun v hv => (hs.freed v ((hmade v).1 hv)).imp_left (halive v).2
  · intro e he hdead v hv
    rcases mem_setHandler he with he | rfl
    · exact hs.spent e he hdead v hv
    · rw [hlive] at hdead
      cases hdead
  · intro e he hlive'
    rcases mem_setHandler he with he | rfl
    · exact hs.typed e he hlive'
    · intro o ho
      rcases List.mem_append.1 ho with ho | ho
      · exact hs.typed d hmem hlive o ho
      · rw [List.mem_singleton.1 ho]
        exact htyped

end

/-! ## Rules -/

/-- The code, started in `s`, ends in `Q`. -/
def Meets {α : Type} (allocator : Allocator) (c : OptionComp α) (s : OptionHeap)
    (Q : α → OptionHeap → Prop) : Prop :=
  Q (c allocator s).1 (c allocator s).2

section

variable {α β : Type} {allocator : Allocator} {s : OptionHeap}

@[simp] theorem meets_pure (x : α) (Q : α → OptionHeap → Prop) :
    Meets allocator (pure x) s Q ↔ Q x s := Iff.rfl

@[simp] theorem meets_bind (c : OptionComp α) (f : α → OptionComp β) (Q : β → OptionHeap → Prop) :
    Meets allocator (c >>= f) s Q ↔
      Meets allocator c s fun x s' => Meets allocator (f x) s' Q := Iff.rfl

@[simp] theorem meets_get (Q : OptionHeap → OptionHeap → Prop) :
    Meets allocator get s Q ↔ Q s s := Iff.rfl

@[simp] theorem meets_set (s' : OptionHeap) (Q : PUnit → OptionHeap → Prop) :
    Meets allocator (set s') s Q ↔ Q ⟨⟩ s' := Iff.rfl

@[simp] theorem meets_modify (f : OptionHeap → OptionHeap) (Q : PUnit → OptionHeap → Prop) :
    Meets allocator (modify f) s Q ↔ Q ⟨⟩ (f s) := Iff.rfl

@[simp] theorem meets_malloc (purpose : Alloc) (Q : Bool → OptionHeap → Prop) :
    Meets allocator (malloc purpose) s Q ↔ Q (allocator purpose s.allocs) s.count := Iff.rfl

@[simp] theorem meets_getHandler (h : Nat) (Q : Option OptionHandlerHandleData → OptionHeap → Prop) :
    Meets allocator (getHandler h) s Q ↔ Q (s.handlers[h]?.filter (·.live)) s := Iff.rfl

theorem Meets.mono {c : OptionComp α} {Q Q' : α → OptionHeap → Prop}
    (h : Meets allocator c s Q) (hQ : ∀ x s', Q x s' → Q' x s') : Meets allocator c s Q' :=
  hQ _ _ h

end

/-! ## Destroying -/

section

variable {allocator : Allocator} {s : OptionHeap} {loose pending : List Value}

/-- What is destroyed is gone, and nothing else has changed. -/
structure Destroyed (s : OptionHeap) (loose pending : List Value) (s' : OptionHeap) : Prop where
  owned : Owned s' loose pending
  fewer : s'.liveCount ≤ s.liveCount
  grows : s.Grows s'

theorem liveCount_setHandler {h : Nat} {d : OptionHandlerHandleData} (hd : s.handlers[h]? = some d)
    (hlive : d.live = true) :
    (s.setHandler h { d with live := false }).liveCount + 1 = s.liveCount := by
  rcases List.getElem?_eq_some_iff.1 hd with ⟨hh, hget⟩
  have hpos : 0 < s.liveCount :=
    List.countP_pos_iff.2 ⟨d, List.mem_of_getElem? hd, hlive⟩
  have hset := List.countP_set (p := fun e => e.live)
    (a := ({ d with live := false } : OptionHandlerHandleData)) hh
  rw [hget, if_pos hlive, if_neg nofun, Nat.add_zero] at hset
  show (s.handlers.set h _).countP _ + 1 = _
  rw [hset]
  exact Nat.sub_add_cancel hpos

theorem grows_setHandler {h : Nat} {d d' : OptionHandlerHandleData} (hd : s.handlers[h]? = some d)
    (hsame : d'.functions = d.functions) : s.Grows (s.setHandler h d') := by
  have hset : (s.handlers.set h d').map OptionHandlerHandleData.functions =
      s.handlers.map OptionHandlerHandleData.functions := by
    rcases List.getElem?_eq_some_iff.1 hd with ⟨hh, hget⟩
    have hlt : h < (s.handlers.map OptionHandlerHandleData.functions).length := by
      rwa [List.length_map]
    have hmap : (s.handlers.map OptionHandlerHandleData.functions)[h] = d.functions := by
      rw [List.getElem_map, hget]
    rw [List.map_set, hsame, ← hmap, List.set_getElem_self]
  refine ⟨[], ?_⟩
  rw [List.append_nil]
  exact hset.symm

theorem Destroyed.trans {s₁ s₂ : OptionHeap} {pending₁ : List Value}
    (h : Destroyed s loose pending₁ s₁) (h' : Destroyed s₁ loose pending s₂) :
    Destroyed s loose pending s₂ where
  owned := h'.owned
  fewer := Nat.le_trans h'.fewer h.fewer
  grows := Grows.trans h.grows h'.grows

theorem destroyOptions_destroys {destroyHandler : Nat → OptionComp Unit} {n : Nat}
    (hdestroy : ∀ h s pending, Owned s loose (.handler h :: pending) → s.liveCount ≤ n →
      Meets allocator (destroyHandler h) s fun _ s' => Destroyed s loose pending s')
    {f : OptionFunctions} (options : List OptionData) (htyped : ∀ o ∈ options, f.Typed o)
    (hs : Owned s loose (options.map OptionData.storage ++ pending)) (hn : s.liveCount ≤ n) :
    Meets allocator (destroyOptions destroyHandler f options) s
      fun _ s' => Destroyed s loose pending s' := by
  induction options generalizing s with
  | nil => exact ⟨hs, Nat.le_refl _, Grows.refl s⟩
  | cons option rest ih =>
    have htype := htyped option List.mem_cons_self
    have hrest : ∀ s₁, Destroyed s loose (rest.map OptionData.storage ++ pending) s₁ →
        Meets allocator (destroyOptions destroyHandler f rest) s₁
          fun _ s' => Destroyed s loose pending s' := by
      intro s₁ h₁
      have hmeets := ih (fun o ho => htyped o (List.mem_cons_of_mem _ ho)) h₁.owned
        (Nat.le_trans h₁.fewer hn)
      exact hmeets.mono fun _ s' h' => h₁.trans h'
    rw [List.map_cons, List.cons_append] at hs
    simp only [destroyOptions, meets_bind]
    cases hstorage : option.storage with
    | handler h =>
      rw [hstorage] at hs
      have hnests : f.nests option.name = true := by
        simpa only [OptionFunctions.Typed, hstorage] using htype
      simp only [destroyOption, hnests, if_true]
      exact (hdestroy h s _ hs hn).mono fun _ s₁ h₁ => hrest s₁ h₁
    | plain k =>
      rw [hstorage] at hs
      have hcopies : f.copies option.name = true := by
        simp only [OptionFunctions.Typed, hstorage] at htype
        exact htype.2
      simp only [destroyOption, hcopies, if_true, meets_modify]
      exact hrest _ ⟨hs.log, Nat.le_refl _, Grows.refl s⟩

theorem destroyInternal_destroys (depth h : Nat) (hs : Owned s loose (.handler h :: pending))
    (hdepth : s.liveCount ≤ depth) :
    Meets allocator (destroyInternal depth h) s fun _ s' => Destroyed s loose pending s' := by
  induction depth generalizing h s pending with
  | zero =>
    rcases hs.alive_of_mem (List.mem_append_right _ List.mem_cons_self) with ⟨d, hd, hlive⟩
    have hpos : 0 < s.liveCount := List.countP_pos_iff.2 ⟨d, List.mem_of_getElem? hd, hlive⟩
    exact absurd hpos (Nat.not_lt.2 hdepth)
  | succ depth ih =>
    rcases hs.alive_of_mem (List.mem_append_right _ List.mem_cons_self) with ⟨d, hd, hlive⟩
    have hcount : ((s.log (.handler h)).setHandler h { d with live := false }).liveCount + 1 =
        s.liveCount := liveCount_setHandler hd hlive
    have hrelease : Destroyed s loose (d.values ++ pending)
        ((s.log (.handler h)).setHandler h { d with live := false }) :=
      ⟨hs.release hd hlive, Nat.le_of_succ_le (Nat.le_of_eq hcount), grows_setHandler hd rfl⟩
    have hlook : s.handlers[h]?.filter (·.live) = some d := by
      rw [hd, Option.filter_some, if_pos hlive]
    have hloop := destroyOptions_destroys (fun h s pending hs hn => ih h hs hn) d.storage
      (hs.typed d (List.mem_of_getElem? hd) hlive) hrelease.owned
      (Nat.le_of_succ_le_succ (Nat.le_trans (Nat.le_of_eq hcount) hdepth))
    simp only [destroyInternal, release, meets_bind, meets_getHandler, meets_modify, hlook,
      meets_pure]
    exact hloop.mono fun _ s' h' => hrelease.trans h'

theorem optionHandlerDestroy_destroys (h : Nat) (hs : Owned s loose (.handler h :: pending)) :
    Meets allocator (optionHandlerDestroy (some h)) s
      fun _ s' => Destroyed s loose pending s' := by
  simp only [optionHandlerDestroy, meets_bind, meets_get]
  apply destroyInternal_destroys _ _ hs
  exact Nat.le_succ_of_le List.countP_le_length

end

/-! ## Adding, cloning and retrieving -/

section

variable {allocator : Allocator} {s : OptionHeap} {loose : List Value}

theorem Owned.lookup (hs : Owned s loose []) {h : Nat} (hh : Value.handler h ∈ loose)
    {f : OptionFunctions} (hf : s.functionsOf h = some f) :
    ∃ d, s.handlers[h]? = some d ∧ d.live = true ∧ d.functions = f := by
  rcases hs.alive_of_mem (List.mem_append_left _ hh) with ⟨d, hd, hlive⟩
  refine ⟨d, hd, hlive, ?_⟩
  rw [OptionHeap.functionsOf, List.getElem?_map, hd] at hf
  exact Option.some_inj.1 hf

theorem Owned.filter (hs : Owned s loose []) {h : Nat} (hh : Value.handler h ∈ loose)
    {f : OptionFunctions} (hf : s.functionsOf h = some f) :
    ∃ d, s.handlers[h]? = some d ∧ s.handlers[h]?.filter (·.live) = some d ∧
      d.live = true ∧ d.functions = f := by
  rcases hs.lookup hh hf with ⟨d, hd, hlive, hfun⟩
  refine ⟨d, hd, ?_, hlive, hfun⟩
  rw [hd, Option.filter_some, if_pos hlive]

/-- What is allocated when an option is copied and stored, the `n`-th allocation being the first. -/
structure Copied (allocator : Allocator) (f : OptionFunctions) (name : String) (n : Nat) : Prop where
  named : allocator .name n = true
  copies : f.copies name = true
  value : allocator .value (n + 1) = true
  element : allocator (.element false) (n + 2) = true

theorem addOptionInternal_copies (hs : Owned s loose []) {h : Nat} (hh : Value.handler h ∈ loose)
    {f : OptionFunctions} (hf : s.functionsOf h = some f) (name : String) (value : Value)
    (hname : f.nests name = false) :
    Meets allocator (addOptionInternal h name value) s fun r s' =>
      Owned s' loose [] ∧ s.Grows s' ∧ (r = .optionHandlerOk →
        Copied allocator f name s.allocs ∧ s'.allocs = s.allocs + 3) := by
  rcases hs.filter hh hf with ⟨d, hd, hlook, hlive, rfl⟩
  simp only [addOptionInternal, meets_bind, meets_malloc]
  split
  · exact ⟨hs.count, Grows.refl s, nofun⟩
  rename_i hnamed
  have hlook : s.count.handlers[h]?.filter (·.live) = some d := hlook
  simp only [meets_bind, meets_getHandler, hlook, cloneOption, hname, Bool.false_eq_true, if_false]
  by_cases hcopies : d.functions.copies name = true
  case neg =>
    simp only [hcopies, Bool.false_eq_true, if_false, meets_pure]
    exact ⟨hs.count, Grows.refl s, nofun⟩
  simp only [hcopies, if_true, meets_bind, meets_malloc]
  split
  · exact ⟨hs.count.count, Grows.refl s, nofun⟩
  rename_i hvalue
  have hcopied : Owned s.count.count.addValue (.plain s.values :: loose) [] := hs.count.count.addValue
  simp only [newValue, meets_bind, meets_get, meets_set, meets_pure, meets_malloc]
  split
  · simp only [meets_bind, destroyOption, hcopies, if_true, meets_modify, meets_pure]
    exact ⟨hcopied.count.discard.log, Grows.refl s, nofun⟩
  · rename_i helement
    simp only [meets_bind, meets_modify, meets_pure]
    refine ⟨?_, grows_setHandler hd rfl, fun _ => ⟨⟨?_, hcopies, ?_, ?_⟩, rfl⟩⟩
    · have hd : s.count.count.addValue.count.handlers[h]? = some d := hd
      apply Owned.push hcopied.count hd hlive
      exact ⟨hname, hcopies⟩
    · exact eq_true_of_ne_false hnamed
    · exact eq_true_of_ne_false hvalue
    · exact eq_true_of_ne_false helement

theorem addOptionInternal_unnamed (h : Nat) (name : String) (value : Value)
    (hname : allocator .name s.allocs = false) :
    Meets allocator (addOptionInternal h name value) s fun r s' =>
      r = .optionHandlerError ∧ s' = s.count := by
  simp only [addOptionInternal, meets_bind, meets_malloc, hname, if_true, meets_pure, and_self]

theorem addOptionInternal_nests {n : Nat} (hs : Owned s (.handler n :: loose) []) {h : Nat}
    (hh : Value.handler h ∈ loose) {f : OptionFunctions} (hf : s.functionsOf h = some f)
    (name : String) (hname : f.nests name = true)
    (hpush : ∀ n, allocator (.element true) n = true) :
    Meets allocator (addOptionInternal h name (.handler n)) s fun r s' =>
      s.Grows s' ∧ if r = .optionHandlerOk then Owned s' loose []
        else Owned s' (.handler n :: loose) [] := by
  rcases hs.filter (List.mem_cons_of_mem _ hh) hf with ⟨d, hd, hlook, hlive, rfl⟩
  simp only [addOptionInternal, meets_bind, meets_malloc]
  split
  · exact ⟨Grows.refl s, hs.count⟩
  have hlook : s.count.handlers[h]?.filter (·.live) = some d := hlook
  simp only [meets_bind, meets_getHandler, hlook, cloneOption, hname, if_true, meets_pure,
    meets_malloc, hpush, Bool.true_eq_false, if_false, meets_modify]
  have hd : s.count.count.handlers[h]? = some d := hd
  exact ⟨grows_setHandler hd rfl, Owned.push hs.count.count hd hlive hname⟩

/-- The handler that a function returns, if it returns one. -/
def given (r : Option Nat) : List Value :=
  r.toList.map Value.handler

/-- The code returns a new handler to its caller, or leaves nothing behind. -/
def Retrieves (allocator : Allocator) (c : OptionComp (Option Nat)) : Prop :=
  ∀ s loose, Owned s loose [] →
    Meets allocator c s fun r s' => Owned s' (given r ++ loose) [] ∧ s.Grows s'

/-- What is allocated when a handler is created. -/
structure Created (allocator : Allocator) (f : OptionFunctions) (s : OptionHeap) (h : Nat)
    (s' : OptionHeap) : Prop where
  handlerData : allocator .handlerData s.allocs = true
  vector : allocator .vector (s.allocs + 1) = true
  functions : s'.functionsOf h = some f
  allocs : s'.allocs = s.allocs + 2

theorem createInternal_retrieves (hs : Owned s loose []) (f : OptionFunctions) :
    Meets allocator (createInternal f) s fun r s' =>
      Owned s' (given r ++ loose) [] ∧ s.Grows s' ∧
        ∀ h, r = some h → Created allocator f s h s' := by
  simp only [createInternal, meets_bind, meets_malloc]
  split
  · exact ⟨hs.count, Grows.refl s, nofun⟩
  rename_i hdata
  simp only [meets_bind, meets_malloc]
  split
  · exact ⟨hs.count.count, Grows.refl s, nofun⟩
  rename_i hvector
  simp only [meets_bind, meets_get, meets_set, meets_pure]
  refine ⟨hs.count.count.addHandler f, ?_, ?_⟩
  · show _ <+: (s.handlers ++ [_]).map _
    rw [List.map_append]
    exact List.prefix_append _ _
  · rintro h hh
    cases hh
    refine ⟨eq_true_of_ne_false hdata, eq_true_of_ne_false hvector, ?_, rfl⟩
    show ((s.handlers ++ [_]).map OptionHandlerHandleData.functions)[s.handlers.length]? = some f
    rw [List.getElem?_map, List.getElem?_concat_length]
    rfl

theorem cloneOptions_keeps (hs : Owned s loose []) {h : Nat} (hh : Value.handler h ∈ loose)
    {f : OptionFunctions} (hf : s.functionsOf h = some f) (options : List OptionData)
    (hreach : reachesNested allocator f options s.allocs = false) :
    Meets allocator (cloneOptions h options) s fun _ s' => Owned s' loose [] ∧ s.Grows s' := by
  induction options generalizing s with
  | nil => exact ⟨hs, Grows.refl s⟩
  | cons option rest ih =>
    simp only [cloneOptions, meets_bind]
    cases hname : f.nests option.name with
    | true =>
      have hunnamed : allocator .name s.allocs = false := by
        simpa [reachesNested, hname] using hreach
      apply (addOptionInternal_unnamed h option.name option.storage hunnamed).mono
      rintro r s₁ ⟨rfl, rfl⟩
      exact ⟨hs.count, Grows.refl s⟩
    | false =>
      apply (addOptionInternal_copies hs hh hf option.name option.storage hname).mono
      rintro r s₁ ⟨hs₁, hgrows, hcopied⟩
      split
      · exact ⟨hs₁, hgrows⟩
      · rename_i hok
        rcases hcopied (not_not.1 hok) with ⟨hc, hallocs⟩
        have hrest : reachesNested allocator f rest s₁.allocs = false := by
          rw [hallocs]
          simpa [reachesNested, hname, hc.named, hc.copies, hc.value, hc.element] using hreach
        apply (ih hs₁ (Grows.functionsOf hgrows hf) hrest).mono
        rintro _ s₂ ⟨hs₂, hgrows₂⟩
        exact ⟨hs₂, Grows.trans hgrows hgrows₂⟩

theorem optionHandlerClone_retrieves (hs : Owned s loose []) {h : Nat}
    {d : OptionHandlerHandleData} (hd : s.handlers[h]? = some d) (hlive : d.live = true)
    (hreach : (allocator .handlerData s.allocs && allocator .vector (s.allocs + 1) &&
      reachesNested allocator d.functions d.storage (s.allocs + 2)) = false) :
    Meets allocator (optionHandlerClone (some h)) s fun r s' =>
      Owned s' (given r ++ loose) [] ∧ s.Grows s' := by
  have hlook : s.handlers[h]?.filter (·.live) = some d := by
    rw [hd, Option.filter_some, if_pos hlive]
  simp only [optionHandlerClone, meets_bind, meets_getHandler, hlook]
  apply (createInternal_retrieves hs d.functions).mono
  rintro r s₁ ⟨hs₁, hgrows, hcreated⟩
  cases r with
  | none => exact ⟨hs₁, hgrows⟩
  | some clone =>
    have hc := hcreated clone rfl
    have hrest : reachesNested allocator d.functions d.storage s₁.allocs = false := by
      rw [hc.allocs]
      simpa [hc.handlerData, hc.vector] using hreach
    simp only [meets_bind]
    apply (cloneOptions_keeps hs₁ List.mem_cons_self hc.functions d.storage hrest).mono
    rintro r s₂ ⟨hs₂, hgrows₂⟩
    have hgrows₂ := Grows.trans hgrows hgrows₂
    split
    · simp only [meets_bind]
      apply (optionHandlerDestroy_destroys clone hs₂.discard).mono
      intro _ s₃ h₃
      exact ⟨h₃.owned, Grows.trans hgrows₂ h₃.grows⟩
    · exact ⟨hs₂, hgrows₂⟩

/-! ### Retrieved handlers -/

theorem retrieveNested_retrieves (options : String) {retrieve : OptionComp (Option Nat)}
    (hretrieve : Retrieves allocator retrieve) (hpush : ∀ n, allocator (.element true) n = true) :
    Retrieves allocator (retrieveNested options retrieve) := by
  intro s loose hs
  simp only [retrieveNested, optionHandlerCreate, meets_bind]
  apply (createInternal_retrieves hs (nestedFunctions options)).mono
  rintro r s₁ ⟨hs₁, hgrows, hcreated⟩
  cases r with
  | none => exact ⟨hs₁, hgrows⟩
  | some h =>
    simp only [meets_bind]
    apply (hretrieve s₁ _ hs₁).mono
    rintro r s₂ ⟨hs₂, hgrows₂⟩
    have hgrows₂' := Grows.trans hgrows hgrows₂
    cases r with
    | none =>
      simp only [meets_bind]
      apply (optionHandlerDestroy_destroys h (Owned.discard hs₂)).mono
      intro _ s₃ h₃
      exact ⟨h₃.owned, Grows.trans hgrows₂' h₃.grows⟩
    | some n =>
      have hf := Grows.functionsOf hgrows₂ (hcreated h rfl).functions
      have hname : (nestedFunctions options).nests options = true := beq_self_eq_true options
      simp only [meets_bind, optionHandlerAddOption]
      apply (addOptionInternal_nests hs₂ List.mem_cons_self hf options hname hpush).mono
      rintro r s₃ ⟨hgrows₃, hs₃⟩
      have hgrows₃' := Grows.trans hgrows₂' hgrows₃
      split
      · rename_i hfailed
        rw [if_neg hfailed] at hs₃
        simp only [meets_bind]
        apply (optionHandlerDestroy_destroys n hs₃.discard).mono
        intro _ s₄ h₄
        apply (optionHandlerDestroy_destroys h (Owned.discard h₄.owned)).mono
        intro _ s₅ h₅
        exact ⟨h₅.owned, Grows.trans (Grows.trans hgrows₃' h₄.grows) h₅.grows⟩
      · rename_i hok
        rw [if_pos (not_not.1 hok)] at hs₃
        exact ⟨hs₃, hgrows₃'⟩

theorem addOptions_keeps (hs : Owned s loose []) {h : Nat} (hh : Value.handler h ∈ loose)
    {f : OptionFunctions} (hf : s.functionsOf h = some f) (hown : ∀ name, f.nests name = false)
    (options : List (String × Value)) :
    Meets allocator (addOptions h options) s fun _ s' => Owned s' loose [] ∧ s.Grows s' := by
  induction options generalizing s with
  | nil => exact ⟨hs, Grows.refl s⟩
  | cons option rest ih =>
    simp only [addOptions, optionHandlerAddOption, meets_bind]
    apply (addOptionInternal_copies hs hh hf option.1 option.2 (hown option.1)).mono
    rintro r s₁ ⟨hs₁, hgrows, -⟩
    split
    · exact ⟨hs₁, hgrows⟩
    · apply (ih hs₁ (Grows.functionsOf hgrows hf)).mono
      rintro _ s₂ ⟨hs₂, hgrows₂⟩
      exact ⟨hs₂, Grows.trans hgrows hgrows₂⟩

theorem retrieveoptions_retrieves (hpush : ∀ n, allocator (.element true) n = true)
    (io : ConcreteIo) : Retrieves allocator io.retrieveoptions := by
  induction io with
  | own copies options =>
    intro s loose hs
    simp only [ConcreteIo.retrieveoptions, optionHandlerCreate, meets_bind]
    apply (createInternal_retrieves hs _).mono
    rintro r s₁ ⟨hs₁, hgrows, hcreated⟩
    cases r with
    | none => exact ⟨hs₁, hgrows⟩
    | some h =>
      simp only [meets_bind]
      apply (addOptions_keeps hs₁ List.mem_cons_self (hcreated h rfl).functions
        (fun _ => rfl) options).mono
      rintro r s₂ ⟨hs₂, hgrows₂⟩
      have hgrows₂' := Grows.trans hgrows hgrows₂
      split
      · simp only [meets_bind]
        apply (optionHandlerDestroy_destroys h hs₂.discard).mono
        intro _ s₃ h₃
        exact ⟨h₃.owned, Grows.trans hgrows₂' h₃.grows⟩
      · exact ⟨hs₂, hgrows₂'⟩
  | wsio underlying ih =>
    apply retrieveNested_retrieves _ _ hpush
    apply retrieveNested_retrieves _ _ hpush
    exact retrieveNested_retrieves _ ih hpush

end

/-! ## Every history -/

section

variable {s s' : Session} {allocator : Allocator}

/-- The invariant between calls. -/
def Session.Kept (s : Session) : Prop :=
  Owned s.heap (s.owned.map Value.handler) []

theorem Session.Kept.nodup (h : s.Kept) : s.owned.Nodup := by
  have hall := h.exact.nodup
  rw [List.append_nil] at hall
  exact (List.nodup_append.1 hall).2.1.of_map

theorem Session.Kept.split (h : s.Kept) {n : Nat} (hn : n ∈ s.owned) :
    (s.owned.map Value.handler).Perm
      (.handler n :: (s.owned.filter (some · ≠ some n)).map Value.handler) := by
  have herase : s.owned.filter (some · ≠ some n) = s.owned.erase n := by
    rw [h.nodup.erase_eq_filter]
    apply List.filter_congr
    intro m _
    by_cases hm : m = n
    · simp [hm]
    · simp [hm, bne_iff_ne.2 hm]
  rw [herase]
  exact (List.perm_cons_erase hn).map Value.handler

theorem Session.Kept.take (h : s.Kept) {n : Nat} (hn : n ∈ s.owned) :
    Owned s.heap (.handler n :: (s.owned.filter (some · ≠ some n)).map Value.handler) [] :=
  Owned.loosen h (by simpa using h.split hn) (List.Subset.refl _)

theorem Session.Kept.lookup (h : s.Kept) {n : Nat} (hn : n ∈ s.owned) :
    ∃ d, s.heap.handlers[n]? = some d ∧ d.live = true ∧ s.functions n = some d.functions ∧
      s.heap.functionsOf n = some d.functions := by
  have hmem : Value.handler n ∈ s.owned.map Value.handler ++ [] := by
    rw [List.append_nil]
    exact List.mem_map_of_mem hn
  rcases h.alive_of_mem hmem with ⟨d, hd, hlive⟩
  refine ⟨d, hd, hlive, ?_, ?_⟩
  · rw [Session.functions, hd, Option.filter_some, if_pos hlive, Option.map_some]
  · rw [OptionHeap.functionsOf, List.getElem?_map, hd, Option.map_some]

theorem filter_ne_none (owned : List Nat) : owned.filter (some · ≠ (none : Option Nat)) = owned := by
  simp

theorem Session.kept_receive {c : OptionComp (Option Nat)}
    (hc : Meets allocator c s.heap fun r heap =>
      Owned heap (given r ++ s.owned.map Value.handler) [] ∧ s.heap.Grows heap) :
    (s.receive (c allocator s.heap)).Kept := by
  show Owned _ ((_ ++ s.owned).map Value.handler) []
  rw [List.map_append]
  exact hc.1

theorem Session.Kept.addOption (h : s.Kept) {n : Nat} {name : String} {value : Value}
    (hpush : ∀ n, allocator (.element true) n = true)
    (hmay : s.permits (.addOption (some n) (some name) (some value)) = true) :
    (s.perform (.addOption (some n) (some name) (some value)) allocator).Kept := by
  simp only [Session.permits, Bool.and_eq_true, Bool.or_eq_true, List.contains_iff_mem,
    Bool.not_eq_true'] at hmay
  rcases h.lookup hmay.1 with ⟨d, hd, hlive, hfun, hf⟩
  rw [hfun, Option.any_some] at hmay
  cases hname : d.functions.nests name with
  | false =>
    have hnone : s.nestedIn n name value = none := by
      cases value with
      | plain k => rfl
      | handler m => simp [Session.nestedIn, hfun, hname]
    have hadd : Meets allocator (addOptionInternal n name value) s.heap _ :=
      addOptionInternal_copies h (List.mem_map_of_mem hmay.1) hf name value hname
    show Owned (addOptionInternal n name value allocator s.heap).2
      ((if (addOptionInternal n name value allocator s.heap).1 = .optionHandlerOk then
        s.owned.filter (some · ≠ s.nestedIn n name value) else s.owned).map Value.handler) []
    rw [hnone, filter_ne_none, ite_self]
    exact hadd.1
  | true =>
    cases value with
    | plain k => simp [hname] at hmay
    | handler m =>
      have hm : m ∈ s.owned ∧ m ≠ n := by simpa [hname] using hmay.2
      have hnested : s.nestedIn n name (.handler m) = some m := by
        simp [Session.nestedIn, hfun, hname]
      have hn : Value.handler n ∈ (s.owned.filter (some · ≠ some m)).map Value.handler := by
        apply List.mem_map_of_mem
        rw [List.mem_filter]
        exact ⟨hmay.1, by simpa using Ne.symm hm.2⟩
      have hadd := addOptionInternal_nests (h.take hm.1) hn hf name hname hpush
      show Owned (addOptionInternal n name (.handler m) allocator s.heap).2
        ((if (addOptionInternal n name (.handler m) allocator s.heap).1 = .optionHandlerOk then
          s.owned.filter (some · ≠ s.nestedIn n name (.handler m))
          else s.owned).map Value.handler) []
      have hafter := hadd.2
      rw [hnested]
      split
      · rename_i hok
        rwa [if_pos hok] at hafter
      · rename_i hfailed
        rw [if_neg hfailed] at hafter
        exact hafter.loosen (by simpa using (h.split hm.1).symm) (List.Subset.refl _)

theorem Session.Kept.perform (h : s.Kept) {op : Op} (hmay : s.permits op = true)
    (hcall : ownedCall s op allocator) : (s.perform op allocator).Kept := by
  rcases hcall with ⟨hpush, hclone⟩
  cases op with
  | create functions =>
    apply Session.kept_receive
    exact (createInternal_retrieves h functions).mono fun _ _ h' => ⟨h'.1, h'.2.1⟩
  | addOption handle name value =>
    match handle, name, value with
    | some n, some name, some value => exact h.addOption hpush hmay
    | none, _, _ => exact h
    | some _, none, _ => exact h
    | some _, some _, none => exact h
  | clone handler =>
    cases handler with
    | none => exact h
    | some n =>
      have hn : n ∈ s.owned := by simpa [Session.permits] using hmay
      rcases h.lookup hn with ⟨d, hd, hlive, -, -⟩
      have hreach := hclone n rfl
      simp only [Session.sharesNested, hd] at hreach
      exact Session.kept_receive (optionHandlerClone_retrieves h hd hlive hreach)
  | destroy handle =>
    cases handle with
    | none =>
      show Owned s.heap ((s.owned.filter (some · ≠ (none : Option Nat))).map Value.handler) []
      rw [filter_ne_none]
      exact h
    | some n =>
      have hn : n ∈ s.owned := by simpa [Session.permits] using hmay
      exact (optionHandlerDestroy_destroys n (h.take hn).discard).owned
  | xioRetrieveoptions io =>
    apply Session.kept_receive
    exact retrieveNested_retrieves _ (retrieveoptions_retrieves hpush io) hpush _ _ h
  | uwsClientRetrieveOptions io =>
    apply Session.kept_receive
    apply retrieveNested_retrieves _ _ hpush _ _ h
    exact retrieveNested_retrieves _ (retrieveoptions_retrieves hpush io) hpush
  | wsioRetrieveoptions io =>
    apply Session.kept_receive
    exact retrieveoptions_retrieves hpush (.wsio io) _ _ h

theorem Session.Kept.ownershipKept (h : s.Kept) : OwnershipKept s where
  once := List.nodup_iff_count_le_one.1 h.once
  released := by
    rintro v ⟨d, hd, hv⟩ hdead
    exact (h.spent d hd (hdead d hd hv) v hv).resolve_right nofun
  dangling := by
    intro d hd hlive v hv hgone
    apply h.gone v hgone
    apply (h.exact.mem v).1
    apply List.mem_append_left
    rw [OptionHeap.held, List.mem_flatMap]
    exact ⟨d, hd, by rwa [held_of_live hlive]⟩
  reclaimed := by
    intro v hmade howned hdead
    apply (h.freed v hmade).resolve_left
    intro halive
    rcases List.mem_append.1 ((h.exact.mem v).2 halive) with hheld | hloose
    · rw [OptionHeap.held, List.mem_flatMap] at hheld
      rcases hheld with ⟨d, hd, hv⟩
      rw [OptionHandlerHandleData.held] at hv
      split at hv
      · rename_i hlive
        rw [hdead d hd hv] at hlive
        cases hlive
      · cases hv
    · rw [List.append_nil] at hloose
      exact howned hloose

theorem kept_initial : Session.Kept {} where
  exact :=
    { nodup := List.nodup_nil
      mem := by
        intro v
        refine ⟨nofun, fun halive => ?_⟩
        cases v with
        | plain k => exact absurd halive.1 (Nat.not_lt_zero k)
        | handler h =>
          rcases halive with ⟨d, hd, -⟩
          cases hd }
  once := List.nodup_nil
  made := nofun
  gone := nofun
  freed v hv := by
    cases v with
    | plain k => exact absurd hv (Nat.not_lt_zero k)
    | handler h => exact absurd hv (Nat.not_lt_zero h)
  spent := nofun
  typed := nofun

end

/-- In a history whose calls meet the condition every value is destroyed once. -/
theorem ownershipKept_of_history {s : Session} (h : Reached ownedCall s) : OwnershipKept s := by
  have hkept : s.Kept := by
    induction h with
    | refl => exact kept_initial
    | tail _ hstep ih =>
      cases hstep with
      | call op allocator hmay hcall => exact ih.perform hmay hcall
  exact hkept.ownershipKept

/-- Every allocation succeeds. -/
def plenty : Allocator :=
  fun _ _ => true

/-- A socket with one option. -/
def someIo : ConcreteIo :=
  .own (· == "net_interface_mac_address") [("net_interface_mac_address", .plain 0)]

/-- The options of a wsio over a socket, retrieved and destroyed. -/
theorem ownershipKept_retrieveThenDestroy :
    ∃ s, Reached ownedCall s ∧
      s.heap.destroyed = [.handler 0, .handler 1, .handler 2, .handler 3, .plain 0] ∧
        OwnershipKept s := by
  have hretrieve : Step ownedCall {} (Session.perform {} (.wsioRetrieveoptions someIo) plenty) :=
    .call _ _ rfl ⟨fun _ => rfl, nofun⟩
  have hdestroy : Step ownedCall (Session.perform {} (.wsioRetrieveoptions someIo) plenty)
      ((Session.perform {} (.wsioRetrieveoptions someIo) plenty).perform (.destroy (some 0))
        plenty) :=
    .call _ _ (by decide) ⟨fun _ => rfl, nofun⟩
  have hreached := Relation.ReflTransGen.head hretrieve (.single hdestroy)
  exact ⟨_, hreached, by decide, ownershipKept_of_history hreached⟩

/-- The options are cloned, and both handlers are destroyed: the nested one is destroyed twice. -/
theorem cloneThenDestroy_twice :
    ¬ ∀ s, Reached (fun _ _ _ => True) s → OwnershipKept s := by
  intro h
  let s₁ := Session.perform {} (.xioRetrieveoptions someIo) plenty
  let s₂ := s₁.perform (.clone (some 0)) plenty
  let s₃ := s₂.perform (.destroy (some 0)) plenty
  let s₄ := s₃.perform (.destroy (some 2)) plenty
  have h₁ : Step (fun _ _ _ => True) {} s₁ := .call _ _ rfl trivial
  have h₂ : Step (fun _ _ _ => True) s₁ s₂ := .call _ _ (by decide) trivial
  have h₃ : Step (fun _ _ _ => True) s₂ s₃ := .call _ _ (by decide) trivial
  have h₄ : Step (fun _ _ _ => True) s₃ s₄ := .call _ _ (by decide) trivial
  have hreached : Reached (fun _ _ _ => True) s₄ := .head h₁ (.head h₂ (.head h₃ (.single h₄)))
  have honce := (h s₄ hreached).once (.handler 1)
  have htwice : s₄.heap.destroyed.count (.handler 1) = 2 := by decide
  rw [htwice] at honce
  exact absurd honce (by decide)

end SharedUtility.OptionHandler
