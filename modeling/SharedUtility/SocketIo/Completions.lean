import Mathlib.Data.List.Nodup
import SharedUtility.Reentrant.Observer
import SharedUtility.Reentrant.RelyGuarantee
import SharedUtility.SocketIo.Code

/-!
# Completions — every accepted send is completed once

Each call of `on_send_complete` is noted under the number of the `socketio_send` call that it
completes: the one under way, or the one of the first list item.  The callback is the one that was given
to this send.  A send is completed at most once, a refused one never, and by the time the instance is
destroyed every accepted one has been, as long as

* no list item is dropped: `send` does not fail while there are any, and the instance is destroyed
  when there are none,
* no list item is sent to its end while its `on_send_complete` is being called.
-/

namespace SharedUtility.SocketIo
namespace Completions

open Reentrant Observed Observer RelyGuarantee

variable {Cb : Type}

/-! ## What is noted -/

/-- `active` are the procedures under way, the innermost first, each with the number of the next
`socketio_send` at its start; `given` are the callbacks that came with the sends and `called` those of
the calls of `on_send_complete`, each under the number of its send; `accepted` are the sends with a
callback that returned 0, `refused` those that did not return 0. -/
structure SendNotes (Cb : Type) where
  active : List (Proc Cb × Nat) := []
  given : List (Nat × Cb) := []
  called : List (Nat × Cb) := []
  accepted : List Nat := []
  refused : List Nat := []
  deriving DecidableEq

/-- The send whose `on_send_complete` is called. -/
def completing (s : ObservedSocket Cb) : List (Proc Cb × Nat) → List Nat
  | (.socketioSend _ _, sendId) :: _ => [sendId]
  | _ => (s.inst.pendingIoList.head?.map PendingSocketIo.item).toList

/-- The callback that comes with a send. -/
def callbackOf (sendId : Nat) : Proc Cb → List (Nat × Cb)
  | .socketioSend _ (some cb) => [(sendId, cb)]
  | _ => []

/-- The sends whose `on_send_complete` was called, once for each call. -/
def SendNotes.completed (n : SendNotes Cb) : List Nat :=
  n.called.map Prod.fst

def SendNotes.began (n : SendNotes Cb) (p : Proc Cb) (sendId : Nat) : SendNotes Cb :=
  { n with active := (p, sendId) :: n.active, given := n.given ++ callbackOf sendId p }

def SendNotes.complete (n : SendNotes Cb) (s : ObservedSocket Cb) (cb : Cb) : SendNotes Cb :=
  { n with called := n.called ++ (completing s n.active).map fun sendId => (sendId, cb) }

def SendNotes.ended (n : SendNotes Cb) : SendNotes Cb :=
  { n with active := n.active.tail }

def SendNotes.endedSend (n : SendNotes Cb) (onSendComplete : Option Cb) (r : Int) : SendNotes Cb :=
  let sendId := (n.active.head?.map Prod.snd).toList
  if r ≠ 0 then { n.ended with refused := n.refused ++ sendId }
  else if onSendComplete.isSome then { n.ended with accepted := n.accepted ++ sendId }
  else n.ended

def sendObserver : Observer (ObservedSocket Cb) (socketIoSignature Cb) (SendNotes Cb) where
  entered p s n := n.began p s.sendCalls
  called c s n :=
    match c with
    | .onSendComplete cb _ => n.complete s cb
    | _ => n
  returned p r _ n :=
    match p with
    | .socketioSend _ onSendComplete => n.endedSend onSendComplete r
    | _ => n.ended

abbrev NotedSocket (Cb : Type) := Observed (ObservedSocket Cb) (SendNotes Cb)

def notedCode (p : Proc Cb) : Comp (NotedSocket Cb) (socketIoSignature Cb) Int :=
  sendObserver.code socketioCode p

/-! ## The property -/

/-- Sends are completed with the callback that they were given, at most once and, if refused, never; once
the instance is destroyed, every accepted send has been completed. -/
structure CompletedOnce (s : NotedSocket Cb) : Prop where
  callback : ∀ c ∈ s.notes.called, c ∈ s.notes.given
  atMostOnce : ∀ sendId, s.notes.completed.count sendId ≤ 1
  refused : ∀ sendId ∈ s.notes.refused, s.notes.completed.count sendId = 0
  accepted : s.state.destroyed = true →
    ∀ sendId ∈ s.notes.accepted, s.notes.completed.count sendId = 1

structure Created (s : NotedSocket Cb) : Prop where
  ioState : s.state.inst.ioState = .ioStateClosed
  pendingIoList : s.state.inst.pendingIoList = []
  headSent : s.state.headSent = false
  destroyed : s.state.destroyed = false
  notes : s.notes = {}

/-! ## Runs -/

/-- The functions of the interface, until the instance is destroyed, also from the callbacks; the
instance is not destroyed under a `socketio_dowork`, which would go on with it.  Allocations and
the calls of the socket end as they like; `send` takes no more bytes than it is given. -/
def lifetimeRun : Env (NotedSocket Cb) (socketIoSignature Cb) where
  mayEnter top p s :=
    !s.state.destroyed &&
    (match top with
      | none => true
      | some c => c.isCallback) &&
    (match p with
      | .socketioOpen _ _ _ | .socketioSend _ _ | .socketioDowork | .socketioClose _ => true
      | .socketioDestroy => s.notes.active.all fun a =>
        match a.1 with
        | .socketioDowork => false
        | _ => true
      | .sendPending | .receiveBytes => false)
  mayAnswer c r _ :=
    match c, r with
    | .send _ bytes, .taken n => n ≤ bytes.length
    | _, _ => true

/-- The condition.  While there are list items, `send` does not fail, and the instance is not
destroyed; while the `on_send_complete` of the first one is called, `send` does not take all of it. -/
def completingRun : Env (NotedSocket Cb) (socketIoSignature Cb) where
  mayEnter top p s :=
    lifetimeRun.mayEnter top p s &&
    (match p with
      | .socketioDestroy => s.state.inst.pendingIoList.isEmpty
      | _ => true)
  mayAnswer c r s :=
    lifetimeRun.mayAnswer c r s &&
    (match c, r with
      | .send _ _, .error => s.state.inst.pendingIoList.isEmpty
      | .send _ bytes, .taken n => !s.state.headSent || n != bytes.length
      | _, _ => true)

/-! ## The invariant -/

structure Kept (s : NotedSocket Cb) : Prop where
  items : ∀ io ∈ s.state.inst.pendingIoList, io.item < s.state.sendCalls
  distinct : (s.state.inst.pendingIoList.map PendingSocketIo.item).Nodup
  headSent : s.state.headSent = true → s.state.inst.pendingIoList ≠ []
  callbacks : ∀ io ∈ s.state.inst.pendingIoList, ∀ cb, io.onSendComplete = some cb →
    (io.item, cb) ∈ s.notes.given
  called : ∀ c ∈ s.notes.called, c ∈ s.notes.given
  once : s.notes.completed.Nodup
  completed : ∀ sendId ∈ s.notes.completed, sendId < s.state.sendCalls
  unsent : ∀ io ∈ s.state.unsent, io.item ∉ s.notes.completed
  refused : ∀ sendId ∈ s.notes.refused, sendId < s.state.sendCalls ∧
    sendId ∉ s.notes.completed ∧ ∀ io ∈ s.state.inst.pendingIoList, io.item ≠ sendId
  accepted : ∀ sendId ∈ s.notes.accepted, sendId ∈ s.notes.completed ∨
    ∃ io ∈ s.state.unsent, io.item = sendId ∧ io.onSendComplete.isSome = true
  destroyed : s.state.destroyed = true → s.state.inst.pendingIoList = []

/-- What a procedure leaves alone, and what only grows. -/
structure Grown (s s' : NotedSocket Cb) : Prop where
  active : s'.notes.active = s.notes.active
  sendCalls : s.state.sendCalls ≤ s'.state.sendCalls
  completed : s.notes.completed ⊆ s'.notes.completed
  headSent : s'.state.headSent = s.state.headSent
  head : s.state.headSent = true →
    s'.state.inst.pendingIoList.head?.map PendingSocketIo.item =
      s.state.inst.pendingIoList.head?.map PendingSocketIo.item

theorem Grown.refl (s : NotedSocket Cb) : Grown s s :=
  ⟨rfl, Nat.le_refl _, List.Subset.refl _, rfl, fun _ => rfl⟩

theorem Grown.trans {s s' s'' : NotedSocket Cb} (h : Grown s s') (h' : Grown s' s'') :
    Grown s s'' where
  active := h'.active.trans h.active
  sendCalls := Nat.le_trans h.sendCalls h'.sendCalls
  completed := List.Subset.trans h.completed h'.completed
  headSent := h'.headSent.trans h.headSent
  head := fun hsent => (h'.head (h.headSent.trans hsent)).trans (h.head hsent)

def completions : RelyGuarantee (NotedSocket Cb) (socketIoSignature Cb) where
  env := completingRun
  reenters := Call.isCallback
  nested _ := true
  entry p s :=
    match p with
    | .socketioSend _ _ => s.state.destroyed = false
    | .socketioDestroy => s.state.inst.pendingIoList = []
    | _ => True
  always := Kept
  inv := Kept
  settled s := s.state.headSent = false
  rely := Grown

theorem Kept.completedOnce {s : NotedSocket Cb} (h : Kept s) : CompletedOnce s where
  callback := h.called
  atMostOnce sendId := List.nodup_iff_count_le_one.1 h.once sendId
  refused sendId hid := List.count_eq_zero.2 (h.refused sendId hid).2.1
  accepted := by
    intro hdestroyed sendId hid
    have hlist := h.destroyed hdestroyed
    rcases h.accepted sendId hid with hcompleted | ⟨io, hio, -⟩
    · exact List.count_eq_one_of_mem h.once hcompleted
    · simp [ObservedSocket.unsent, hlist] at hio

/-! ## Rules -/

section

variable {spec : Spec (NotedSocket Cb) (socketIoSignature Cb)} {s : NotedSocket Cb}

@[simp] theorem wp_getInst (Q : SocketIoInstance Cb → NotedSocket Cb → Prop) :
    wp spec (sendObserver.observe getInst) Q s ↔ Q s.state.inst s := by
  simp [getInst]

@[simp] theorem wp_modifyInst (f : SocketIoInstance Cb → SocketIoInstance Cb)
    (Q : Unit → NotedSocket Cb → Prop) :
    wp spec (sendObserver.observe (modifyInst f)) Q s ↔
      Q () (s.setState (s.state.setInst (f s.state.inst))) := by
  simp [modifyInst]

theorem wp_ask_local {c : Call Cb} {Q : Ans c → NotedSocket Cb → Prop}
    (hc : c.isCallback = false) (h : Kept s)
    (hQ : ∀ r, completingRun.mayAnswer c r s = true → Q r s) :
    wp completions.spec (sendObserver.observe (ask c)) Q s := by
  have hcalled : sendObserver.called c s.state s.notes = s.notes := by
    cases c with
    | onSendComplete cb r => cases hc
    | _ => rfl
  show wp completions.spec (Comp.call c) Q (s.setNotes (sendObserver.called c s.state s.notes))
  rw [hcalled]
  exact wp_local hc h hQ

theorem wp_ask_callback {c : Call Cb} {Q : Ans c → NotedSocket Cb → Prop}
    (hc : c.isCallback = true) (hcalled : sendObserver.called c s.state s.notes = s.notes)
    (h : Kept s) (hQ : ∀ r s', Kept s' → Grown s s' → Q r s') :
    wp completions.spec (sendObserver.observe (ask c)) Q s := by
  show wp completions.spec (Comp.call c) Q (s.setNotes (sendObserver.called c s.state s.notes))
  rw [hcalled]
  apply wp_reentrant hc h
  intro r s' _ hlater
  exact hQ r s' hlater.inv hlater.rely

theorem wp_callBack {slot : Option Cb} {c : Cb → Call Cb} {Q : Unit → NotedSocket Cb → Prop}
    (hc : ∀ cb, (c cb).isCallback = true)
    (hcalled : ∀ cb, sendObserver.called (c cb) s.state s.notes = s.notes) (h : Kept s)
    (hQ : ∀ s', Kept s' → Grown s s' → Q () s') :
    wp completions.spec (sendObserver.observe (callBack slot c)) Q s := by
  cases slot with
  | none => exact hQ s h (Grown.refl s)
  | some cb =>
    simp only [callBack, wp_observe_bind]
    apply wp_ask_callback (hc cb) (hcalled cb) h
    intro _ s' hs' hgrown
    exact hQ s' hs' hgrown

/-- The state in which an `on_send_complete` is called. -/
def completeNow (s : NotedSocket Cb) (cb : Cb) : NotedSocket Cb :=
  s.setNotes (s.notes.complete s.state cb)

theorem wp_complete {slot : Option Cb} {r : IoSendResult} {Q : Unit → NotedSocket Cb → Prop}
    (h : ∀ cb, slot = some cb → Kept (completeNow s cb)) (hnone : slot = none → Q () s)
    (hQ : ∀ cb s', slot = some cb → Kept s' → Grown (completeNow s cb) s' → Q () s') :
    wp completions.spec
      (sendObserver.observe (callBack slot fun cb => .onSendComplete cb r)) Q s := by
  cases slot with
  | none => exact hnone rfl
  | some cb =>
    simp only [callBack, wp_observe_bind]
    show wp completions.spec (Comp.call (Call.onSendComplete cb r)) (fun _ s' => Q () s')
      (completeNow s cb)
    apply wp_reentrant rfl (h cb rfl)
    intro _ s' _ hlater
    exact hQ cb s' rfl hlater.inv hlater.rely

theorem wp_callProc {p : Proc Cb} {Q : Int → NotedSocket Cb → Prop} (h : Kept s)
    (hentry : completions.entry p s) (hQ : ∀ r s', Kept s' → Grown s s' → Q r s') :
    wp completions.spec (sendObserver.observe (callProc p)) Q s := by
  show wp completions.spec (Comp.proc p) Q s
  apply wp_nested rfl h hentry
  intro r s' hlater
  exact hQ r s' hlater.inv hlater.rely

end

/-! ## Steps of the code -/

section

variable {s : NotedSocket Cb}

theorem wp_indicateError {Q : Unit → NotedSocket Cb → Prop} (h : Kept s)
    (hQ : ∀ s', Kept s' → Grown s s' → Q () s') :
    wp completions.spec (sendObserver.observe indicateError) Q s := by
  simp only [indicateError, wp_observe_bind, wp_getInst]
  exact wp_callBack (fun _ => rfl) (fun _ => rfl) h hQ

theorem wp_send {socket : Option Nat} {bytes : Bytes} {Q : SendResult → NotedSocket Cb → Prop}
    (h : Kept s) (hagain : Q .again s) (herror : s.state.inst.pendingIoList = [] → Q .error s)
    (htaken : ∀ n, (s.state.headSent = true → n ≠ bytes.length) →
      Q (.taken n) (s.setState (s.state.take (bytes.take n)))) :
    wp completions.spec (sendObserver.observe (send socket bytes)) Q s := by
  simp only [send, wp_observe_bind]
  refine wp_ask_local rfl h ?_
  intro r hr
  cases r with
  | again => exact hagain
  | error =>
    apply herror
    simpa [completingRun, lifetimeRun] using hr
  | taken n =>
    apply htaken
    intro hsent
    have hcond := (Bool.and_eq_true_iff.1 hr).2
    simpa [hsent] using hcond

theorem wp_addPendingIo {item : Nat} {buffer : Bytes} {cb : Option Cb}
    {Q : Int → NotedSocket Cb → Prop} (h : Kept s) (hfailed : Q failure s)
    (hadded : Q 0 (s.setState (s.state.setInst { s.state.inst with
      pendingIoList := s.state.inst.pendingIoList ++
        [{ item := item, bytes := buffer, onSendComplete := cb }] }))) :
    wp completions.spec (sendObserver.observe (addPendingIo item buffer cb)) Q s := by
  have hmalloc : ∀ {Q' : Bool → NotedSocket Cb → Prop}, Q' false s → Q' true s →
      wp completions.spec (sendObserver.observe (ask .malloc)) Q' s := by
    intro Q' hfalse htrue
    refine wp_ask_local rfl h ?_
    intro r _
    cases r with
    | false => exact hfalse
    | true => exact htrue
  simp only [addPendingIo, wp_observe_bind]
  apply hmalloc hfailed
  simp only [Bool.true_eq_false, if_false, wp_observe_bind]
  apply hmalloc hfailed
  simp only [Bool.true_eq_false, if_false, wp_observe_bind]
  apply hmalloc hfailed
  simp only [Bool.true_eq_false, if_false, wp_observe_bind, wp_modifyInst, wp_observe_pure]
  exact hadded

theorem removePendingIo_head {io : PendingSocketIo Cb} {rest : List (PendingSocketIo Cb)}
    {Q : Bool → NotedSocket Cb → Prop} (hlist : s.state.inst.pendingIoList = io :: rest)
    (hdistinct : (s.state.inst.pendingIoList.map PendingSocketIo.item).Nodup)
    (hQ : Q true (s.setState (s.state.setInst { s.state.inst with pendingIoList := rest }))) :
    wp completions.spec (sendObserver.observe (removePendingIo io.item)) Q s := by
  rw [hlist] at hdistinct
  simp only [removePendingIo, wp_observe_bind, wp_getInst, wp_observe_ite]
  rw [if_neg (by simp [hlist])]
  simp only [wp_modifyInst, wp_observe_pure, hlist, filter_first (item_ne_first hdistinct)]
  exact hQ

end

/-! ## Changes of the list -/

section

variable {s : NotedSocket Cb} {io : PendingSocketIo Cb} {rest : List (PendingSocketIo Cb)}

/-- The number of a call of `socketio_send` that has neither completed nor failed nor queued. -/
structure Fresh (sendId : Nat) (s : NotedSocket Cb) : Prop where
  started : sendId < s.state.sendCalls
  completed : sendId ∉ s.notes.completed
  refused : sendId ∉ s.notes.refused
  items : ∀ io ∈ s.state.inst.pendingIoList, io.item ≠ sendId

theorem Kept.append (h : Kept s) (io : PendingSocketIo Cb) (hfresh : Fresh io.item s)
    (hgiven : ∀ cb, io.onSendComplete = some cb → (io.item, cb) ∈ s.notes.given)
    (hdestroyed : s.state.destroyed = false) :
    Kept (s.setState (s.state.setInst { s.state.inst with
      pendingIoList := s.state.inst.pendingIoList ++ [io] })) := by
  have hunsent : ∀ (i : SocketIoInstance Cb),
      i.pendingIoList = s.state.inst.pendingIoList ++ [io] →
        (s.state.setInst i).unsent = s.state.unsent ++ [io] := by
    intro i hi
    show (if s.state.headSent then i.pendingIoList.tail else i.pendingIoList) =
      (if s.state.headSent then s.state.inst.pendingIoList.tail
        else s.state.inst.pendingIoList) ++ [io]
    rw [hi]
    split
    · rename_i hsent
      exact List.tail_append_of_ne_nil (h.headSent hsent)
    · rfl
  exact
    { h with
      items := by
        intro io' hio'
        rcases List.mem_append.1 hio' with hio' | hio'
        · exact h.items io' hio'
        · rw [List.mem_singleton.1 hio']
          exact hfresh.started
      distinct := by
        show ((s.state.inst.pendingIoList ++ [io]).map PendingSocketIo.item).Nodup
        rw [List.map_append]
        apply List.Nodup.append h.distinct (List.nodup_singleton _)
        intro sendId hleft hright
        rcases List.mem_map.1 hleft with ⟨io', hio', rfl⟩
        exact hfresh.items io' hio' (List.mem_singleton.1 hright)
      headSent := by
        intro _
        simp [ObservedSocket.setInst]
      callbacks := by
        intro io' hio' cb hcb
        rcases List.mem_append.1 hio' with hio' | hio'
        · exact h.callbacks io' hio' cb hcb
        · rw [List.mem_singleton.1 hio'] at hcb ⊢
          exact hgiven cb hcb
      unsent := by
        intro io' hio'
        rw [setState_state, hunsent _ rfl] at hio'
        rcases List.mem_append.1 hio' with hio' | hio'
        · exact h.unsent io' hio'
        · rw [List.mem_singleton.1 hio']
          exact hfresh.completed
      refused := by
        intro sendId hid
        rcases h.refused sendId hid with ⟨hstarted, hcompleted, hitems⟩
        refine ⟨hstarted, hcompleted, ?_⟩
        intro io' hio'
        rcases List.mem_append.1 hio' with hio' | hio'
        · exact hitems io' hio'
        · rw [List.mem_singleton.1 hio']
          intro heq
          exact hfresh.refused (heq ▸ hid)
      accepted := by
        intro sendId hid
        rw [setState_state, hunsent _ rfl]
        rcases h.accepted sendId hid with hcompleted | ⟨io', hio', hcb⟩
        · exact .inl hcompleted
        · exact .inr ⟨io', List.mem_append_left _ hio', hcb⟩
      destroyed := by
        intro hd
        have hd : s.state.destroyed = true := hd
        rw [hdestroyed] at hd
        cases hd }

theorem Kept.modifyFirst (h : Kept s) (hlist : s.state.inst.pendingIoList = io :: rest)
    (bytes : Bytes) :
    Kept (s.setState (s.state.setInst { s.state.inst with
      pendingIoList := { io with bytes := bytes } :: rest })) := by
  have hitems := h.items
  have hdistinct := h.distinct
  rw [hlist] at hitems hdistinct
  rw [List.forall_mem_cons] at hitems
  have hunsent : ∀ (i : SocketIoInstance Cb), i.pendingIoList = { io with bytes := bytes } :: rest →
      (s.state.setInst i).unsent =
        if s.state.headSent then rest else { io with bytes := bytes } :: rest := by
    intro i hi
    show (if s.state.headSent then i.pendingIoList.tail else i.pendingIoList) = _
    rw [hi, List.tail_cons]
  have hbefore : s.state.unsent = if s.state.headSent then rest else io :: rest := by
    show (if s.state.headSent then s.state.inst.pendingIoList.tail
      else s.state.inst.pendingIoList) = _
    rw [hlist, List.tail_cons]
  have hold := h.unsent
  have haccepted := h.accepted
  rw [hbefore] at hold haccepted
  exact
    { h with
      items := List.forall_mem_cons.2 hitems
      distinct := hdistinct
      headSent := by
        intro _
        simp [ObservedSocket.setInst]
      callbacks := by
        have hcallbacks := h.callbacks
        rw [hlist, List.forall_mem_cons] at hcallbacks
        exact List.forall_mem_cons.2 hcallbacks
      unsent := by
        intro io' hio'
        rw [setState_state, hunsent _ rfl] at hio'
        cases hsent : s.state.headSent with
        | true =>
          rw [hsent] at hio' hold
          exact hold io' hio'
        | false =>
          rw [hsent] at hio' hold
          rcases List.mem_cons.1 hio' with rfl | hio'
          · exact hold io (List.mem_cons_self ..)
          · exact hold io' (List.mem_cons_of_mem _ hio')
      refused := by
        intro sendId hid
        rcases h.refused sendId hid with ⟨hstarted, hcompleted, hne⟩
        rw [hlist, List.forall_mem_cons] at hne
        exact ⟨hstarted, hcompleted, List.forall_mem_cons.2 hne⟩
      accepted := by
        intro sendId hid
        rw [setState_state, hunsent _ rfl]
        rcases haccepted sendId hid with hcompleted | ⟨io', hio', hcb⟩
        · exact .inl hcompleted
        · apply Or.inr
          cases hsent : s.state.headSent with
          | true =>
            rw [hsent] at hio'
            exact ⟨io', hio', hcb⟩
          | false =>
            rw [hsent] at hio'
            rcases List.mem_cons.1 hio' with rfl | hio'
            · exact ⟨_, List.mem_cons_self .., hcb⟩
            · exact ⟨io', List.mem_cons_of_mem _ hio', hcb⟩
      destroyed := by
        intro hd
        rw [h.destroyed hd] at hlist
        cases hlist }

/-- The first list item is sent to its end; unless its callback is NULL, it is completed. -/
theorem Kept.sendHead (h : Kept s) (hlist : s.state.inst.pendingIoList = io :: rest)
    (hhead : s.state.headSent = false) {bytes : Bytes} {called : List (Nat × Cb)}
    (hcalled : (∃ cb, io.onSendComplete = some cb ∧ called = s.notes.called ++ [(io.item, cb)]) ∨
      called = s.notes.called ∧ io.onSendComplete = none) :
    Kept ((s.setState { s.state.take bytes with headSent := true }).setNotes
      { s.notes with called := called }) := by
  let completed := called.map Prod.fst
  have hcompleted : completed = s.notes.completed ++ [io.item] ∨
      completed = s.notes.completed ∧ io.onSendComplete = none := by
    rcases hcalled with ⟨cb, -, rfl⟩ | ⟨rfl, hnone⟩
    · exact .inl List.map_append
    · exact .inr ⟨rfl, hnone⟩
  have hitems := h.items
  have hdistinct := h.distinct
  have hunsent := h.unsent
  have haccepted := h.accepted
  have hbefore : s.state.unsent = io :: rest := by
    simp [ObservedSocket.unsent, hhead, hlist]
  have hafter : ObservedSocket.unsent { s.state.take bytes with headSent := true } = rest := by
    simp [ObservedSocket.unsent, ObservedSocket.take, hlist]
  rw [hlist] at hitems hdistinct
  rw [List.forall_mem_cons] at hitems
  rw [List.map_cons, List.nodup_cons] at hdistinct
  rw [hbefore, List.forall_mem_cons] at hunsent
  rw [hbefore] at haccepted
  have hmem : ∀ sendId, sendId ∈ completed → sendId ∈ s.notes.completed ∨ sendId = io.item := by
    intro sendId hid
    rcases hcompleted with heq | ⟨heq, -⟩
    · rw [heq] at hid
      simpa using hid
    · exact .inl (heq ▸ hid)
  have hkept : ∀ sendId, sendId ∈ s.notes.completed → sendId ∈ completed := by
    intro sendId hid
    rcases hcompleted with heq | ⟨heq, -⟩
    · exact heq ▸ List.mem_append_left _ hid
    · exact heq ▸ hid
  exact
    { h with
      headSent := by
        intro _
        show s.state.inst.pendingIoList ≠ []
        simp [hlist]
      called := by
        intro c hc
        rcases hcalled with ⟨cb, hcb, rfl⟩ | ⟨rfl, -⟩
        · rcases List.mem_append.1 hc with hc | hc
          · exact h.called c hc
          · rw [List.mem_singleton.1 hc]
            exact h.callbacks io (by simp [hlist]) cb hcb
        · exact h.called c hc
      once := by
        show completed.Nodup
        rcases hcompleted with heq | ⟨heq, -⟩
        · rw [heq]
          apply List.Nodup.append h.once (List.nodup_singleton _)
          intro sendId hleft hright
          exact hunsent.1 (List.mem_singleton.1 hright ▸ hleft)
        · rw [heq]
          exact h.once
      completed := by
        intro sendId hid
        rcases hmem sendId hid with hid | rfl
        · exact h.completed sendId hid
        · exact hitems.1
      unsent := by
        intro io' hio' hid
        rw [setNotes_state, setState_state, hafter] at hio'
        rcases hmem _ hid with hid | heq
        · exact hunsent.2 io' hio' hid
        · exact hdistinct.1 (heq ▸ List.mem_map_of_mem hio')
      refused := by
        intro sendId hid
        rcases h.refused sendId hid with ⟨hstarted, hold, hne⟩
        refine ⟨hstarted, ?_, hne⟩
        intro hnew
        rcases hmem sendId hnew with hnew | rfl
        · exact hold hnew
        · exact hne io (by simp [hlist]) rfl
      accepted := by
        intro sendId hid
        rw [setNotes_state, setState_state, hafter]
        rcases haccepted sendId hid with hold | ⟨io', hio', heq, hcb⟩
        · exact .inl (hkept sendId hold)
        · rcases List.mem_cons.1 hio' with rfl | hio'
          · rcases hcompleted with hnow | ⟨-, hnone⟩
            · refine .inl ?_
              show sendId ∈ completed
              simp [hnow, heq]
            · simp [hnone] at hcb
          · exact .inr ⟨io', hio', heq, hcb⟩
      destroyed := by
        intro hd
        have hnil := h.destroyed hd
        rw [hlist] at hnil
        cases hnil }

theorem Kept.removeHead (h : Kept s) (hlist : s.state.inst.pendingIoList = io :: rest)
    (hhead : s.state.headSent = true) :
    Kept ((s.setState { s.state with headSent := false }).setState
      (ObservedSocket.setInst { s.state with headSent := false }
        { s.state.inst with pendingIoList := rest })) := by
  have hitems := h.items
  have hdistinct := h.distinct
  have hbefore : s.state.unsent = rest := by
    simp [ObservedSocket.unsent, hhead, hlist]
  have hafter : ∀ i : SocketIoInstance Cb, i.pendingIoList = rest →
      (ObservedSocket.setInst { s.state with headSent := false } i).unsent = s.state.unsent := by
    intro i hi
    rw [hbefore]
    simp [ObservedSocket.unsent, ObservedSocket.setInst, hi]
  rw [hlist] at hitems hdistinct
  rw [List.forall_mem_cons] at hitems
  rw [List.map_cons, List.nodup_cons] at hdistinct
  exact
    { h with
      items := hitems.2
      distinct := hdistinct.2
      headSent := nofun
      callbacks := by
        intro io' hio'
        exact h.callbacks io' (by rw [hlist]; exact List.mem_cons_of_mem _ hio')
      unsent := by
        intro io' hio'
        rw [setState_state, hafter _ rfl] at hio'
        exact h.unsent io' hio'
      refused := by
        intro sendId hid
        rcases h.refused sendId hid with ⟨hstarted, hcompleted, hne⟩
        rw [hlist, List.forall_mem_cons] at hne
        exact ⟨hstarted, hcompleted, hne.2⟩
      accepted := by
        intro sendId hid
        rw [setState_state, hafter _ rfl]
        exact h.accepted sendId hid
      destroyed := by
        intro hd
        have hnil := h.destroyed hd
        rw [hlist] at hnil
        cases hnil }

end

/-! ## The functions keep the invariant -/

section

variable {s : NotedSocket Cb}

theorem Kept.setInst (h : Kept s) {i : SocketIoInstance Cb}
    (hlist : i.pendingIoList = s.state.inst.pendingIoList) :
    Kept (s.setState (s.state.setInst i)) := by
  have hunsent : (s.state.setInst i).unsent = s.state.unsent := by
    simp [ObservedSocket.unsent, ObservedSocket.setInst, hlist]
  have hitems := h.items
  have hdistinct := h.distinct
  have hrefused := h.refused
  rw [← hlist] at hitems hdistinct hrefused
  exact
    { h with
      items := hitems
      distinct := hdistinct
      headSent := by
        intro hsent
        show i.pendingIoList ≠ []
        rw [hlist]
        exact h.headSent hsent
      callbacks := by
        show ∀ io ∈ i.pendingIoList, _
        rw [hlist]
        exact h.callbacks
      unsent := by
        rw [setState_state, hunsent]
        exact h.unsent
      refused := hrefused
      accepted := by
        rw [setState_state, hunsent]
        exact h.accepted
      destroyed := by
        intro hd
        show i.pendingIoList = []
        rw [hlist]
        exact h.destroyed hd }

theorem Grown.setInst (s : NotedSocket Cb) {i : SocketIoInstance Cb}
    (hlist : i.pendingIoList = s.state.inst.pendingIoList) :
    Grown s (s.setState (s.state.setInst i)) := by
  refine ⟨rfl, Nat.le_refl _, List.Subset.refl _, rfl, ?_⟩
  intro _
  show i.pendingIoList.head?.map PendingSocketIo.item = _
  rw [hlist]

theorem socketioClose_kept (h : Kept s) (cb : Option Cb) :
    wp completions.spec (sendObserver.observe (socketioClose cb))
      (fun _ s' => Kept s' ∧ Grown s s') s := by
  have hclosed : Kept (s.setState (s.state.setInst
      { s.state.inst with socket := none, ioState := .ioStateClosed })) := h.setInst rfl
  have hsame : Grown s (s.setState (s.state.setInst
      { s.state.inst with socket := none, ioState := .ioStateClosed })) := Grown.setInst s rfl
  simp only [socketioClose, wp_observe_bind, wp_getInst, wp_observe_ite]
  split
  · apply wp_ask_local rfl h
    intro _ _
    apply wp_ask_local rfl h
    intro _ _
    simp only [wp_modifyInst]
    apply wp_callBack (fun _ => rfl) (fun _ => rfl) hclosed
    intro s' hs' hgrown
    exact ⟨hs', hsame.trans hgrown⟩
  · apply wp_callBack (fun _ => rfl) (fun _ => rfl) h
    intro s' hs' hgrown
    exact ⟨hs', hgrown⟩

theorem openComplete_kept (oc : Option Cb) (s₁ : NotedSocket Cb) (result : IoOpenResult) (code : Int)
    (h₁ : Kept s₁) (hgrown : Grown s s₁) :
    wp completions.spec
      (sendObserver.observe (match oc with
        | some cb => do
          let _ ← ask (.onIoOpenComplete cb result code)
          pure 0
        | none => pure (if result = .ioOpenOk then 0 else failure)))
      (fun _ s' => Kept s' ∧ Grown s s') s₁ := by
  cases oc with
  | none => exact ⟨h₁, hgrown⟩
  | some cb =>
    simp only [wp_observe_bind]
    apply wp_ask_callback rfl rfl h₁
    intro _ s' hs' hgrown'
    exact ⟨hs', hgrown.trans hgrown'⟩

theorem openedComplete_kept (h : Kept s) (oc ob oe : Option Cb) (socket : Option Nat) (code : Int) :
    wp completions.spec
      (sendObserver.observe (match oc with
        | some cb => do
          let _ ← ask (.onIoOpenComplete cb .ioOpenOk code)
          pure 0
        | none => pure (if IoOpenResult.ioOpenOk = .ioOpenOk then 0 else failure)))
      (fun _ s' => Kept s' ∧ Grown s s')
      (s.setState (s.state.beginConnection
        { s.state.inst with
          socket := socket, onBytesReceived := ob, onIoError := oe,
          ioState := .ioStateOpen })) := by
  apply openComplete_kept
  case h₁ =>
    exact
      { h.setInst (i := { s.state.inst with
          socket := socket, onBytesReceived := ob, onIoError := oe,
          ioState := .ioStateOpen }) rfl with }
  case hgrown =>
    exact
      { Grown.setInst s (i := { s.state.inst with
          socket := socket, onBytesReceived := ob, onIoError := oe,
          ioState := .ioStateOpen }) rfl with }

theorem socketioOpen_kept (h : Kept s) (oc ob oe : Option Cb) :
    wp completions.spec (sendObserver.observe (socketioOpen oc ob oe))
      (fun _ s' => Kept s' ∧ Grown s s') s := by
  have hcomplete := openComplete_kept (s := s) oc
  have hbegin := openedComplete_kept h oc ob oe
  simp only [socketioOpen, wp_observe_bind, wp_getInst, wp_observe_ite]
  split
  · exact hcomplete s _ _ h (Grown.refl s)
  · split
    · exact hbegin _ _
    · apply wp_ask_local rfl h
      intro r _
      cases r with
      | ok socket =>
        simp only [wp_observe_bind, wp_observe_modify]
        exact hbegin _ _
      | error code =>
        simp only [wp_observe_bind, wp_modifyInst]
        exact hcomplete _ _ _ (h.setInst rfl) (Grown.setInst s rfl)

theorem receiveBytes_kept (h : Kept s) :
    wp completions.spec (sendObserver.observe receiveBytes)
      (fun _ s' => Kept s' ∧ Grown s s') s := by
  simp only [receiveBytes, wp_observe_bind, wp_getInst]
  apply wp_ask_local rfl h
  intro r _
  have herror : wp completions.spec (sendObserver.observe indicateError)
      (fun _ s' => Kept s' ∧ Grown s s') s :=
    wp_indicateError h fun s' hs' hgrown => ⟨hs', hgrown⟩
  cases r with
  | received bytes =>
    simp only [wp_observe_bind]
    apply wp_callBack (fun _ => rfl) (fun _ => rfl) h
    intro s₁ h₁ hgrown₁
    simp only [wp_getInst, wp_observe_ite]
    split
    · refine wp_callProc (p := .receiveBytes) h₁ trivial ?_
      intro r s' hs' hgrown
      exact ⟨hs', hgrown₁.trans hgrown⟩
    · exact ⟨h₁, hgrown₁⟩
  | again => exact ⟨h, Grown.refl s⟩
  | closed =>
    simp only [wp_observe_bind]
    exact herror
  | error =>
    simp only [wp_observe_bind]
    exact herror

theorem socketioDowork_kept (h : Kept s) :
    wp completions.spec (sendObserver.observe socketioDowork)
      (fun _ s' => Kept s' ∧ Grown s s') s := by
  simp only [socketioDowork, wp_observe_bind]
  refine wp_callProc (p := .sendPending) h trivial ?_
  intro _ s₁ h₁ hgrown₁
  simp only [wp_getInst, wp_observe_ite]
  split
  · refine wp_callProc (p := .receiveBytes) h₁ trivial ?_
    intro r s' hs' hgrown
    exact ⟨hs', hgrown₁.trans hgrown⟩
  · exact ⟨h₁, hgrown₁⟩

theorem socketioDestroy_kept (h : Kept s) (hlist : s.state.inst.pendingIoList = []) :
    wp completions.spec (sendObserver.observe socketioDestroy)
      (fun _ s' => Kept s' ∧ Grown s s') s := by
  have hfreed : Kept ((s.setState (s.state.setInst { s.state.inst with pendingIoList := [] })).setState
        { s.state.setInst { s.state.inst with pendingIoList := [] } with destroyed := true }) ∧
      Grown s ((s.setState (s.state.setInst { s.state.inst with pendingIoList := [] })).setState
        { s.state.setInst { s.state.inst with pendingIoList := [] } with destroyed := true }) :=
    ⟨{ h.setInst (i := { s.state.inst with pendingIoList := [] }) hlist.symm with
        destroyed := fun _ => rfl },
      { Grown.setInst s (i := { s.state.inst with pendingIoList := [] }) hlist.symm with }⟩
  simp only [socketioDestroy, wp_observe_bind, wp_getInst, wp_observe_ite]
  split
  · apply wp_ask_local rfl h
    intro _ _
    simp only [wp_observe_pure, wp_modifyInst, wp_observe_modify]
    exact hfreed
  · simp only [wp_observe_pure, wp_modifyInst, wp_observe_modify]
    exact hfreed

/-- The loop, with the list item that it is about to send noted as the one it completes. -/
theorem sendPending_kept (h : Kept s) {calls : Nat} {active : List (Proc Cb × Nat)}
    (hactive : s.notes.active = (.sendPending, calls) :: active) :
    wp completions.spec (sendObserver.observe sendPending)
      (fun _ s' => Kept s' ∧ Grown s s') s := by
  simp only [sendPending, wp_observe_bind, wp_getInst]
  cases hlist : s.state.inst.pendingIoList with
  | nil => exact ⟨h, Grown.refl s⟩
  | cons io rest =>
    have hloop : ∀ s₁, Kept s₁ → Grown s s₁ →
        wp completions.spec (sendObserver.observe (callProc .sendPending))
          (fun _ s' => Kept s' ∧ Grown s s') s₁ := by
      intro s₁ h₁ hgrown₁
      refine wp_callProc (p := .sendPending) h₁ trivial ?_
      intro r s' hs' hgrown
      exact ⟨hs', hgrown₁.trans hgrown⟩
    simp only [wp_observe_bind]
    apply wp_send h
    case hagain => exact ⟨h, Grown.refl s⟩
    case herror =>
      intro hnil
      rw [hlist] at hnil
      cases hnil
    case htaken =>
      intro n hn
      by_cases hall : n = io.bytes.length
      · -- The callback is called by the outermost loop only.
        have hhead : s.state.headSent = false := by
          cases hsent : s.state.headSent with
          | false => rfl
          | true => exact absurd hall (hn hsent)
        subst hall
        simp only [ne_eq, not_true_eq_false, if_false, wp_observe_bind, wp_observe_modify]
        have hremove : ∀ s₁ : NotedSocket Cb, Kept s₁ →
            Grown (s.setState { s.state with headSent := true }) s₁ →
            wp completions.spec (sendObserver.observe (removePendingIo io.item))
              (fun removed => wp completions.spec
                (sendObserver.observe
                  (if removed = false then do
                    modifyInst fun i => { i with ioState := .ioStateError }
                    indicateError
                    callProc .sendPending
                  else callProc .sendPending))
                fun _ s' => Kept s' ∧ Grown s s')
              (s₁.setState { s₁.state with headSent := false }) := by
          intro s₁ h₁ hgrown₁
          -- The callback has left the first item where it was.
          have hfirst := hgrown₁.head rfl
          have hlist' : (s.setState { s.state with headSent := true }).state.inst.pendingIoList =
            io :: rest := hlist
          rw [hlist', List.head?_cons, Option.map_some, Option.map_eq_some_iff] at hfirst
          rcases hfirst with ⟨io₁, hio₁, hitem⟩
          rcases List.head?_eq_some_iff.1 hio₁ with ⟨rest₁, hlist₁⟩
          rw [← hitem]
          apply removePendingIo_head (s := s₁.setState { s₁.state with headSent := false })
            hlist₁ h₁.distinct
          simp only [Bool.true_eq_false, if_false]
          apply hloop _ (h₁.removeHead hlist₁ hgrown₁.headSent)
          refine ⟨hgrown₁.active, hgrown₁.sendCalls, hgrown₁.completed, hhead.symm, ?_⟩
          intro hsent
          rw [hhead] at hsent
          cases hsent
        have hcompleting : completing s.state s.notes.active = [io.item] := by
          simp [completing, hactive, hlist]
        apply wp_complete
        case h =>
          intro cb hcb
          refine h.sendHead hlist hhead (.inl ⟨cb, hcb, ?_⟩)
          show s.notes.called ++ (completing s.state s.notes.active).map _ = _
          rw [hcompleting]
          rfl
        case hnone =>
          intro hnone
          exact hremove _ (h.sendHead hlist hhead (.inr ⟨rfl, hnone⟩))
            ⟨rfl, Nat.le_refl _, List.Subset.refl _, rfl, fun _ => rfl⟩
        case hQ =>
          intro cb s₁ _ h₁ hgrown₁
          refine hremove s₁ h₁ { hgrown₁ with completed := List.Subset.trans ?_ hgrown₁.completed }
          exact List.map_subset _ (List.subset_append_left ..)
      · simp only [ne_eq, hall, not_false_eq_true, if_true, wp_observe_bind, wp_modifyInst,
          wp_observe_pure]
        have hmodified : s.state.inst.pendingIoList.modifyHead
            (fun io => { io with bytes := io.bytes.drop n }) =
              { io with bytes := io.bytes.drop n } :: rest := by
          rw [hlist, List.modifyHead_cons]
        simp only [setState_state, ObservedSocket.take, hmodified]
        refine ⟨{ h.modifyFirst hlist (io.bytes.drop n) with },
          ⟨rfl, Nat.le_refl _, List.Subset.refl _, rfl, ?_⟩⟩
        intro _
        rw [hlist]
        rfl

/-- A call of `socketio_send` has failed and left nothing behind, or it will have been completed. -/
structure SendOutcome (sendId : Nat) (cb : Option Cb) (r : Int) (s : NotedSocket Cb) : Prop where
  refused : r ≠ 0 → Fresh sendId s
  accepted : r = 0 → cb.isSome = true → sendId ∈ s.notes.completed ∨
    ∃ io ∈ s.state.unsent, io.item = sendId ∧ io.onSendComplete.isSome = true

theorem Kept.completeSend (h : Kept s) {sendId : Nat} (hfresh : Fresh sendId s)
    (hlist : s.state.inst.pendingIoList = []) {cb : Cb} (hgiven : (sendId, cb) ∈ s.notes.given)
    {bytes : Bytes} {called : List (Nat × Cb)} (hcalled : called = s.notes.called ++ [(sendId, cb)]) :
    Kept ((s.setState (s.state.take bytes)).setNotes { s.notes with called := called }) := by
  have hunsent : (s.state.take bytes).unsent = [] := by
    simp [ObservedSocket.unsent, ObservedSocket.take, hlist]
  have hcompleted : called.map Prod.fst = s.notes.completed ++ [sendId] := by
    rw [hcalled]
    exact List.map_append
  exact
    { h with
      called := by
        intro c hc
        subst hcalled
        rcases List.mem_append.1 hc with hc | hc
        · exact h.called c hc
        · rw [List.mem_singleton.1 hc]
          exact hgiven
      once := by
        show (called.map Prod.fst).Nodup
        rw [hcompleted]
        apply List.Nodup.append h.once (List.nodup_singleton _)
        intro id hleft hright
        exact hfresh.completed (List.mem_singleton.1 hright ▸ hleft)
      completed := by
        intro id hid
        change id ∈ called.map Prod.fst at hid
        rw [hcompleted] at hid
        rcases List.mem_append.1 hid with hid | hid
        · exact h.completed id hid
        · rw [List.mem_singleton.1 hid]
          exact hfresh.started
      unsent := by
        intro io hio
        rw [setNotes_state, setState_state, hunsent] at hio
        cases hio
      refused := by
        intro id hid
        rcases h.refused id hid with ⟨hstarted, hold, hne⟩
        refine ⟨hstarted, ?_, hne⟩
        intro hnew
        change id ∈ called.map Prod.fst at hnew
        rw [hcompleted] at hnew
        rcases List.mem_append.1 hnew with hnew | hnew
        · exact hold hnew
        · exact hfresh.refused (List.mem_singleton.1 hnew ▸ hid)
      accepted := by
        intro id hid
        rcases h.accepted id hid with hold | ⟨io, hio, -⟩
        · refine .inl ?_
          show id ∈ called.map Prod.fst
          rw [hcompleted]
          exact List.mem_append_left _ hold
        · simp [ObservedSocket.unsent, hlist] at hio }

theorem socketioSend_kept (h : Kept s) {sendId : Nat} {buffer : Option Bytes} {cb : Option Cb}
    {active : List (Proc Cb × Nat)} (hfresh : Fresh sendId s)
    (hgiven : ∀ c, cb = some c → (sendId, c) ∈ s.notes.given)
    (hdestroyed : s.state.destroyed = false)
    (hactive : s.notes.active = (.socketioSend buffer cb, sendId) :: active) :
    wp completions.spec (sendObserver.observe (socketioSend sendId buffer cb))
      (fun r s' => Kept s' ∧ Grown s s' ∧ SendOutcome sendId cb r s') s := by
  have hfailed : ∀ s₁ : NotedSocket Cb, Kept s₁ → Grown s s₁ → Fresh sendId s₁ →
      Kept s₁ ∧ Grown s s₁ ∧ SendOutcome sendId cb failure s₁ :=
    fun s₁ h₁ hgrown hfresh₁ => ⟨h₁, hgrown, fun _ => hfresh₁, nofun⟩
  have hqueue : ∀ (s₁ : NotedSocket Cb) (rest : Bytes), Kept s₁ → Grown s s₁ → Fresh sendId s₁ →
      s₁.notes = s.notes → s₁.state.destroyed = false →
      wp completions.spec (sendObserver.observe (addPendingIo sendId rest cb))
        (fun r s' => Kept s' ∧ Grown s s' ∧ SendOutcome sendId cb r s') s₁ := by
    intro s₁ rest h₁ hgrown hfresh₁ hnotes₁ hdestroyed₁
    rw [← hnotes₁] at hgiven
    apply wp_addPendingIo h₁
    case hfailed => exact hfailed _ h₁ hgrown hfresh₁
    case hadded =>
      refine ⟨h₁.append { item := sendId, bytes := rest, onSendComplete := cb }
        hfresh₁ hgiven hdestroyed₁, hgrown.trans ?_, nofun, ?_⟩
      · refine ⟨rfl, Nat.le_refl _, List.Subset.refl _, rfl, ?_⟩
        intro hsent
        show Option.map _ (s₁.state.inst.pendingIoList ++ _).head? = _
        rw [List.head?_append_of_ne_nil _ (h₁.headSent hsent)]
      · intro _ hcb
        refine .inr ⟨{ item := sendId, bytes := rest, onSendComplete := cb }, ?_, rfl, hcb⟩
        show _ ∈ (if s₁.state.headSent then (s₁.state.inst.pendingIoList ++ _).tail
          else s₁.state.inst.pendingIoList ++ _)
        split
        · rename_i hsent
          rw [List.tail_append_of_ne_nil (h₁.headSent hsent)]
          exact List.mem_append_right _ (List.mem_singleton.2 rfl)
        · exact List.mem_append_right _ (List.mem_singleton.2 rfl)
  match buffer with
  | none => exact hfailed s h (Grown.refl s) hfresh
  | some [] => exact hfailed s h (Grown.refl s) hfresh
  | some (b :: bs) =>
    simp only [socketioSend, wp_observe_bind, wp_getInst, wp_observe_ite]
    split
    · exact hfailed s h (Grown.refl s) hfresh
    · split
      · exact hqueue s (b :: bs) h (Grown.refl s) hfresh rfl hdestroyed
      · rename_i hnil
        have hlist : s.state.inst.pendingIoList = [] := not_not.1 hnil
        apply wp_send h
        case hagain => exact hqueue s (b :: bs) h (Grown.refl s) hfresh rfl hdestroyed
        case herror =>
          intro _
          exact hfailed s h (Grown.refl s) hfresh
        case htaken =>
          intro n _
          simp only [wp_observe_ite]
          split
          · exact hqueue _ _ { h with } { Grown.refl s with } { hfresh with } rfl hdestroyed
          · simp only [wp_observe_bind]
            have hcompleting (c : Cb) : s.notes.called ++
                (completing s.state s.notes.active).map (fun sendId => (sendId, c)) =
                  s.notes.called ++ [(sendId, c)] := by
              simp [completing, hactive]
            apply wp_complete
            case h =>
              intro c hc
              exact h.completeSend hfresh hlist (hgiven c hc) (hcompleting c)
            case hnone =>
              intro hnone
              refine ⟨{ h with }, { Grown.refl s with }, nofun, ?_⟩
              intro _ hcb
              rw [hnone] at hcb
              cases hcb
            case hQ =>
              intro c s₁ _ h₁ hgrown₁
              have hcompleted : s.notes.completed ++ [sendId] ⊆ s₁.notes.completed := by
                have hgrown := hgrown₁.completed
                change (s.notes.called ++
                  (completing s.state s.notes.active).map fun sendId => (sendId, c)).map Prod.fst ⊆
                    _ at hgrown
                rw [hcompleting, List.map_append] at hgrown
                exact hgrown
              refine ⟨h₁, ⟨hgrown₁.active, hgrown₁.sendCalls, ?_, hgrown₁.headSent, hgrown₁.head⟩,
                nofun, ?_⟩
              · exact List.Subset.trans (List.subset_append_left ..) hcompleted
              · intro _ _
                exact .inl (hcompleted (by simp))

end

/-! ## Every run -/

section

variable {s : NotedSocket Cb}

def beginProc (s : NotedSocket Cb) (p : Proc Cb) : NotedSocket Cb :=
  s.setNotes (s.notes.began p s.state.sendCalls)

theorem Kept.beginProc (h : Kept s) (p : Proc Cb) : Kept (beginProc s p) :=
  { h with
    callbacks := fun io hio cb hcb => List.mem_append_left _ (h.callbacks io hio cb hcb)
    called := fun c hc => List.mem_append_left _ (h.called c hc) }

/-- A procedure other than `socketio_send` notes only that it was under way. -/
theorem notedCode_meets {p : Proc Cb}
    (hp : ∀ r state n, sendObserver.returned p r state n = SendNotes.ended n)
    (hbody : wp completions.spec (sendObserver.observe (socketioCode p))
      (fun _ s' => Kept s' ∧ Grown (beginProc s p) s') (beginProc s p)) :
    wp completions.spec (notedCode p) (completions.spec.procPost p s) s := by
  rw [notedCode, wp_code]
  apply wp_mono _ hbody
  rintro r s' ⟨hkept, hgrown⟩
  rw [hp]
  refine ⟨{ hkept with }, hgrown.headSent.trans, fun _ => { hgrown with active := ?_ }⟩
  show s'.notes.active.tail = s.notes.active
  rw [hgrown.active]
  rfl

theorem socketioSend_meets (h : Kept s) (hdestroyed : s.state.destroyed = false)
    (buffer : Option Bytes) (cb : Option Cb) :
    wp completions.spec (notedCode (.socketioSend buffer cb))
      (completions.spec.procPost (.socketioSend buffer cb) s) s := by
  let s₁ := (beginProc s (.socketioSend buffer cb)).setState (s.state.beginSend (buffer.getD []))
  have hkept : Kept s₁ :=
    { h.beginProc (.socketioSend buffer cb) with
      items := fun io hio => Nat.lt_succ_of_lt (h.items io hio)
      completed := fun id hid => Nat.lt_succ_of_lt (h.completed id hid)
      refused := fun id hid => ⟨Nat.lt_succ_of_lt (h.refused id hid).1, (h.refused id hid).2⟩ }
  have hgrown : Grown (beginProc s (.socketioSend buffer cb)) s₁ :=
    ⟨rfl, Nat.le_succ _, List.Subset.refl _, rfl, fun _ => rfl⟩
  have hfresh : Fresh s.state.sendCalls s₁ :=
    ⟨Nat.lt_succ_self _, fun hid => Nat.lt_irrefl _ (h.completed _ hid),
      fun hid => Nat.lt_irrefl _ (h.refused _ hid).1,
      fun io hio heq => Nat.lt_irrefl s.state.sendCalls (heq ▸ h.items io hio)⟩
  -- What is noted at the return.
  have hended : ∀ (r : Int) (s' : NotedSocket Cb), Kept s' → Grown s₁ s' →
      SendOutcome s.state.sendCalls cb r s' →
        completions.spec.procPost (.socketioSend buffer cb) s r
          (s'.setNotes (s'.notes.endedSend cb r)) := by
    intro r s' hs' hgrown' hout
    have hactive : s'.notes.active = (.socketioSend buffer cb, s.state.sendCalls) :: s.notes.active :=
      hgrown'.active
    have hgrown'' := hgrown.trans hgrown'
    simp only [SendNotes.endedSend, SendNotes.ended, hactive, List.head?_cons, Option.map_some,
      Option.toList_some, List.tail_cons]
    split
    · rename_i hr
      have hrefused := hout.refused hr
      refine ⟨{ hs' with refused := ?_ }, hgrown''.headSent.trans,
        fun _ => { hgrown'' with active := rfl }⟩
      intro id hid
      rcases List.mem_append.1 hid with hid | hid
      · exact hs'.refused id hid
      · rw [List.mem_singleton.1 hid]
        exact ⟨hrefused.started, hrefused.completed, hrefused.items⟩
    · rename_i hr
      split
      · rename_i hcb
        refine ⟨{ hs' with accepted := ?_ }, hgrown''.headSent.trans,
          fun _ => { hgrown'' with active := rfl }⟩
        intro id hid
        rcases List.mem_append.1 hid with hid | hid
        · exact hs'.accepted id hid
        · rw [List.mem_singleton.1 hid]
          exact hout.accepted (not_not.1 hr) hcb
      · exact ⟨{ hs' with }, hgrown''.headSent.trans, fun _ => { hgrown'' with active := rfl }⟩
  rw [notedCode, wp_code]
  simp only [socketioCode, socketioSendProc, wp_observe_bind, wp_observe_get, wp_observe_modify]
  have hgiven : ∀ c, cb = some c → (s.state.sendCalls, c) ∈ s₁.notes.given := by
    rintro c rfl
    exact List.mem_append_right _ (List.mem_singleton.2 rfl)
  apply wp_mono _ (socketioSend_kept (s := s₁) hkept hfresh hgiven hdestroyed rfl)
  rintro r s' ⟨hs', hgrown', hout⟩
  simp only [wp_observe_ite, wp_observe_bind, wp_observe_modify, wp_observe_pure]
  split
  · rename_i hr
    exact hended r _ { hs' with } { hgrown' with }
      ⟨fun hr => { hout.refused hr with }, fun hr' => absurd hr' hr⟩
  · exact hended r s' hs' hgrown' hout

theorem completions_sound :
    (completions : RelyGuarantee (NotedSocket Cb) _).Sound notedCode where
  inv_always _ h := h
  refl := Grown.refl
  trans _ _ _ := Grown.trans
  reenter c p s hmay := by
    simp only [completions, completingRun, lifetimeRun, Bool.and_eq_true] at hmay
    exact ⟨hmay.1.1.2, rfl⟩
  enter top p s _ _ hmay := by
    cases p with
    | socketioSend buffer cb =>
      simp only [completions, completingRun, lifetimeRun, Bool.and_eq_true] at hmay
      show s.state.destroyed = false
      simpa using hmay.1.1.1
    | socketioDestroy =>
      simp only [completions, completingRun, Bool.and_eq_true] at hmay
      show s.state.inst.pendingIoList = []
      simpa using hmay.2
    | _ => trivial
  code p s h hentry _ := by
    cases p with
    | socketioOpen oc ob oe =>
      exact notedCode_meets (fun _ _ _ => rfl) (socketioOpen_kept (h.beginProc _) oc ob oe)
    | socketioClose cb =>
      exact notedCode_meets (fun _ _ _ => rfl) (socketioClose_kept (h.beginProc _) cb)
    | socketioSend buffer cb => exact socketioSend_meets h hentry buffer cb
    | socketioDowork =>
      exact notedCode_meets (fun _ _ _ => rfl) (socketioDowork_kept (h.beginProc _))
    | socketioDestroy =>
      exact notedCode_meets (fun _ _ _ => rfl) (socketioDestroy_kept (h.beginProc _) hentry)
    | sendPending =>
      exact notedCode_meets (fun _ _ _ => rfl) (sendPending_kept (h.beginProc _) rfl)
    | receiveBytes =>
      exact notedCode_meets (fun _ _ _ => rfl) (receiveBytes_kept (h.beginProc _))

theorem Created.kept (h : Created s) : Kept s where
  items := by simp [h.pendingIoList]
  distinct := by simp [h.pendingIoList]
  headSent := by simp [h.headSent]
  callbacks := by simp [h.pendingIoList]
  called := by simp [h.notes]
  once := by simp [h.notes, SendNotes.completed]
  completed := by simp [h.notes, SendNotes.completed]
  unsent := by simp [h.notes, SendNotes.completed]
  refused := by simp [h.notes]
  accepted := by simp [h.notes]
  destroyed := by simp [h.destroyed]

/-- In a run that meets the condition, sends are completed exactly once. -/
theorem sends_completedOnce {s₀ : NotedSocket Cb} {st : List (Frame (NotedSocket Cb) _)}
    (h₀ : Created s₀) (h : Reachable notedCode completingRun s₀ (.env s st)) : CompletedOnce s :=
  (completions_sound.reachable_always h₀.kept h₀.headSent h).completedOnce

end

def createdSocket : NotedSocket Nat where
  state := { inst := { socket := none } }
  notes := {}

theorem createdSocket_created : Created createdSocket :=
  ⟨rfl, rfl, rfl, rfl, rfl⟩

/-- Surroundings in which only `send` may fail. -/
def answering (sendResult : Bytes → SendResult) : (c : Call Nat) → Ans c
  | .malloc => true
  | .connect => .ok 3
  | .send _ bytes => sendResult bytes
  | .recv _ => .again
  | .shutdown _ => ()
  | .close _ => ()
  | .onIoOpenComplete _ _ _ => ()
  | .onIoCloseComplete _ => ()
  | .onSendComplete _ _ => ()
  | .onBytesReceived _ _ => ()
  | .onIoError _ => ()

/-- A message is queued whole, and `socketio_dowork` calls `send` with it. -/
def sendQueued (sendResult : Bytes → SendResult) : List (Input (socketIoSignature Nat)) :=
  [.enter (.socketioOpen none none none), .answer (answering sendResult),
    .enter (.socketioSend (some [0x41]) (some 7)), .answer (answering fun _ => .again),
    .answer (answering sendResult), .answer (answering sendResult), .answer (answering sendResult),
    .enter .socketioDowork, .answer (answering sendResult)]

theorem sends_completedOnce_sendQueued :
    ∃ s st, Reachable notedCode completingRun createdSocket (.env s st) ∧
      s.state.destroyed = true ∧ s.notes.accepted = [0] ∧ s.notes.completed = [0] ∧
        CompletedOnce s := by
  have hrun : completingRun.endsIn notedCode 20 createdSocket
      (sendQueued (fun bytes => .taken bytes.length) ++
        [.answer (answering fun _ => .again), .answer (answering fun _ => .again),
          .enter .socketioDestroy, .answer (answering fun _ => .again)])
      (fun s _ => s.state.destroyed && decide (s.notes.accepted = [0]) &&
        decide (s.notes.completed = [0])) = true := by
    decide
  rcases Env.endsIn_sound hrun with ⟨s, st, hreach, htest⟩
  simp only [Bool.and_eq_true, decide_eq_true_eq] at htest
  exact ⟨s, st, hreach, htest.1.1, htest.1.2, htest.2,
    sends_completedOnce createdSocket_created hreach⟩

/-- The queued message is dropped when `send` fails, and nobody is told. -/
theorem dropped_not_completed :
    ¬ ∀ (s₀ s : NotedSocket Nat) (st : List (Frame (NotedSocket Nat) _)),
        Created s₀ → Reachable notedCode lifetimeRun s₀ (.env s st) → CompletedOnce s := by
  intro h
  have hrun : lifetimeRun.endsIn notedCode 20 createdSocket
      (sendQueued (fun _ => .error) ++
        [.enter .socketioDestroy, .answer (answering fun _ => .again)])
      (fun s _ => s.state.destroyed && decide (s.notes.accepted = [0]) &&
        decide (s.notes.completed = [])) = true := by
    decide
  rcases Env.endsIn_sound hrun with ⟨s, st, hreach, htest⟩
  simp only [Bool.and_eq_true, decide_eq_true_eq] at htest
  have honce := (h _ s st createdSocket_created hreach).accepted htest.1.1 0 (by simp [htest.1.2])
  rw [htest.2] at honce
  cases honce

end Completions
end SharedUtility.SocketIo
