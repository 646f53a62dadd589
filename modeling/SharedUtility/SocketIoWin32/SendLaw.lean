import Mathlib.Data.List.Nodup
import SharedUtility.Reentrant.RelyGuarantee
import SharedUtility.SocketIoWin32.Code

/-!
# SendLaw — what `socketio_win32.c` sends is what was accepted, and each message is completed once

* `Lawful`       — the bytes taken are a start of the accepted messages in order, and each message with a callback
  is completed once,
* `lifetimeRun`  — open, send, dowork, close and destroy, also from the callbacks,
* `wholeRun`     — those in which `send` takes a message whole or not at all and does not fail while there are
  list items, the instance is closed only when no message is left to send and destroyed only when the list is
  empty, and `socketio_dowork` is not called from an `on_send_complete` that it is itself calling,
* `sends_lawful` — in such a run everything is lawful.
-/

namespace SharedUtility.SocketIoWin32

open Reentrant RelyGuarantee SocketIo

variable {Cb : Type}

/-! ## The property -/

/-- What the connection under way and all calls of `on_send_complete` are to look like. -/
structure Lawful (s : ObservedWin32 Cb) : Prop where
  inOrder : s.taken <+: s.messages.flatten
  atMostOnce : ∀ item, s.completed.count item ≤ 1
  completed : s.destroyed = true → ∀ item ∈ s.owed, s.completed.count item = 1

/-- What `socketio_create` leaves, for a host or for an accepted socket. -/
def created (socket : Option Nat) : ObservedWin32 Cb where
  inst := { socket }

/-! ## Runs -/

def intMax : Nat := 2 ^ 31 - 1

/-- The functions of the interface, until the instance is destroyed, also from the callbacks; the instance is not
destroyed under a `socketio_dowork`, which would go on with it. The size of a message is an `int`, and allocations
succeed. The calls of the socket end as they like; `send` takes no more bytes than it is given, and none without a
socket. -/
def lifetimeRun : Env (ObservedWin32 Cb) (win32Signature Cb) where
  mayEnter top p s :=
    !s.destroyed &&
    (match top with
      | none => true
      | some c => c.isCallback) &&
    (match p with
      | .socketioOpen _ _ _ | .socketioDowork | .socketioClose _ => true
      | .socketioSend buffer _ => (buffer.getD []).length ≤ intMax
      | .socketioDestroy => s.working == 0
      | .sendPending | .receiveBytes => false)
  mayAnswer c r _ :=
    match c, r with
    | .malloc, r => r
    | .send socket bytes, r => r.taken.getD 0 ≤ bytes.length && (socket.isSome || r.taken.isNone)
    | _, _ => true

namespace ObservedWin32

def list (s : ObservedWin32 Cb) : List (PendingSocketIo Cb) :=
  s.inst.pendingIoList

/-- The list items whose bytes `send` has not taken yet. -/
def unsent (s : ObservedWin32 Cb) : List (PendingSocketIo Cb) :=
  if s.headSent then s.list.tail else s.list

end ObservedWin32

def wholeRun : Env (ObservedWin32 Cb) (win32Signature Cb) where
  mayEnter top p s :=
    lifetimeRun.mayEnter top p s &&
    (match p with
      | .socketioDestroy => s.list.isEmpty
      | .socketioClose _ => s.inst.ioState != .ioStateOpen || s.unsent.isEmpty
      | .socketioDowork => s.inst.ioState != .ioStateOpen || !s.headSent
      | _ => true)
  mayAnswer c r s :=
    lifetimeRun.mayAnswer c r s &&
    (match c, r with
      | .send _ bytes, r =>
        r.taken == some bytes.length || (r.taken.getD 0 == 0 && (r.wouldBlock || s.list.isEmpty))
      | _, _ => true)

/-! ## The invariant -/

def callsBack (io : PendingSocketIo Cb) : Bool :=
  io.onSendComplete.isSome

/-- The numbers of the items that have a callback. -/
def callbackItems (items : List (PendingSocketIo Cb)) : List Nat :=
  (items.filter callsBack).map PendingSocketIo.item

def bytesOf (items : List (PendingSocketIo Cb)) : Bytes :=
  (items.map PendingSocketIo.bytes).flatten

structure Kept (s : ObservedWin32 Cb) : Prop where
  whole : s.messages.flatten = s.taken ++ bytesOf s.unsent
  idle : s.inst.ioState ≠ .ioStateOpen → s.unsent = []
  items : ∀ io ∈ s.list, io.item < s.accepted
  distinct : (s.list.map PendingSocketIo.item).Nodup
  settled : s.inst.ioState = .ioStateOpen ∨ s.inst.ioState = .ioStateClosed
  owed : ∀ item ∈ s.owed, item < s.accepted
  once : s.owed.Nodup
  accounts : (s.completed ++ callbackItems s.unsent).Perm s.owed
  headSent : s.headSent = true → s.list ≠ []
  destroyed : s.destroyed = true → s.list = []

/-- What a procedure leaves alone: the first list item while it is being completed. -/
structure SameHead (s s' : ObservedWin32 Cb) : Prop where
  headSent : s'.headSent = s.headSent
  working : s'.working = s.working
  head : s.headSent = true → s'.list.head? = s.list.head?

theorem SameHead.refl (s : ObservedWin32 Cb) : SameHead s s :=
  ⟨rfl, rfl, fun _ => rfl⟩

theorem SameHead.trans {s s' s'' : ObservedWin32 Cb} (h : SameHead s s') (h' : SameHead s' s'') :
    SameHead s s'' where
  headSent := h'.headSent.trans h.headSent
  working := h'.working.trans h.working
  head hsent := (h'.head (h.headSent.trans hsent)).trans (h.head hsent)

theorem Kept.lawful {s : ObservedWin32 Cb} (h : Kept s) : Lawful s where
  inOrder := ⟨bytesOf s.unsent, h.whole.symm⟩
  atMostOnce := by
    have hnodup : (s.completed ++ callbackItems s.unsent).Nodup := h.accounts.nodup_iff.mpr h.once
    exact List.nodup_iff_count_le_one.mp (List.nodup_append.mp hnodup).1
  completed := by
    intro hdestroyed item hitem
    have hunsent : s.unsent = [] := by
      rw [ObservedWin32.unsent, h.destroyed hdestroyed]
      exact ite_self _
    have hperm := h.accounts
    rw [hunsent] at hperm
    have hcompleted : s.completed.Perm s.owed := by
      rw [← List.append_nil s.completed]
      exact hperm
    rw [hcompleted.count_eq]
    exact List.count_eq_one_of_mem h.once hitem

def sendLaw : RelyGuarantee (ObservedWin32 Cb) (win32Signature Cb) where
  env := wholeRun
  reenters := Call.isCallback
  nested _ := true
  entry p s :=
    match p with
    | .socketioSend _ _ => s.destroyed = false
    | .socketioDestroy => s.list = []
    | .socketioClose _ => s.inst.ioState = .ioStateOpen → s.unsent = []
    | .socketioDowork => s.inst.ioState = .ioStateOpen → s.headSent = false
    | .sendPending => s.headSent = false
    | _ => True
  always := Kept
  inv := Kept
  settled s := s.headSent = false
  rely := SameHead

/-! ## Rules -/

section

variable {spec : Spec (ObservedWin32 Cb) (win32Signature Cb)} {s : ObservedWin32 Cb}

@[simp] theorem wp_getInst (Q : SocketIoInstance Cb → ObservedWin32 Cb → Prop) :
    wp spec getInst Q s ↔ Q s.inst s := by
  simp [getInst]

@[simp] theorem wp_modifyInst (f : SocketIoInstance Cb → SocketIoInstance Cb)
    (Q : Unit → ObservedWin32 Cb → Prop) :
    wp spec (modifyInst f) Q s ↔ Q () (s.setInst (f s.inst)) := by
  simp [modifyInst]

theorem wp_ask_local {c : Call Cb} {Q : Ans c → ObservedWin32 Cb → Prop} (hc : c.isCallback = false) (h : Kept s)
    (hQ : ∀ r, wholeRun.mayAnswer c r s = true → Q r s) : wp sendLaw.spec (ask c) Q s :=
  wp_local hc h hQ

theorem wp_ask_callback {c : Call Cb} {Q : Ans c → ObservedWin32 Cb → Prop} (hc : c.isCallback = true)
    (h : Kept s) (hQ : ∀ r s', Kept s' → SameHead s s' → Q r s') : wp sendLaw.spec (ask c) Q s :=
  wp_reentrant hc h fun r s' _ hlater => hQ r s' hlater.inv hlater.rely

theorem wp_callBack {slot : Option Cb} {c : Cb → Call Cb} {Q : Unit → ObservedWin32 Cb → Prop}
    (hc : ∀ cb, (c cb).isCallback = true) (h : Kept s) (hQ : ∀ s', Kept s' → SameHead s s' → Q () s') :
    wp sendLaw.spec (callBack slot c) Q s := by
  cases slot with
  | none => exact hQ s h (SameHead.refl s)
  | some cb =>
    simp only [callBack, wp_bind]
    exact wp_ask_callback (hc cb) h fun _ s' hkept hsame => hQ s' hkept hsame

theorem wp_callProc {p : Proc Cb} {Q : Int → ObservedWin32 Cb → Prop} (h : Kept s) (hentry : sendLaw.entry p s)
    (hQ : ∀ r s', Kept s' → SameHead s s' → Q r s') : wp sendLaw.spec (callProc p) Q s :=
  wp_nested rfl h hentry fun r s' hlater => hQ r s' hlater.inv hlater.rely

theorem wp_sendComplete {item : Nat} {cb : Option Cb} {Q : Unit → ObservedWin32 Cb → Prop}
    (hsome : cb.isSome = true → Kept (s.complete item)) (hnone : cb.isSome = false → Kept s)
    (hQ : ∀ s', Kept s' → SameHead s s' → Q () s') : wp sendLaw.spec (sendComplete item cb) Q s := by
  cases cb with
  | none => exact hQ s (hnone rfl) (SameHead.refl s)
  | some cb =>
    simp only [sendComplete, wp_bind, wp_modify]
    exact wp_ask_callback rfl (hsome rfl) fun _ s' hkept hsame => hQ s' hkept { hsame with }

/-- `send` takes the whole message, or nothing; and then it would have blocked, or the list is empty. -/
theorem wp_send {socket : Option Nat} {bytes : Bytes} {Q : Sent → ObservedWin32 Cb → Prop} (h : Kept s)
    (hall : ∀ r, r.taken = some bytes.length → Q r (s.take bytes))
    (hnone : ∀ r, r.taken ≠ some bytes.length → r.wouldBlock = true ∨ s.list = [] → Q r s) :
    wp sendLaw.spec (send socket bytes) Q s := by
  simp only [send, wp_bind]
  refine wp_ask_local rfl h ?_
  intro r hanswer
  simp only [wp_modify, wp_pure]
  have hcond : (r.taken == some bytes.length ||
      (r.taken.getD 0 == 0 && (r.wouldBlock || s.list.isEmpty))) = true := (Bool.and_eq_true_iff.mp hanswer).2
  by_cases htaken : r.taken = some bytes.length
  · rw [htaken]
    show Q r (s.take (bytes.take bytes.length))
    rw [List.take_length]
    exact hall r htaken
  · have hnothing : r.taken.getD 0 = 0 ∧ (r.wouldBlock = true ∨ s.list = []) := by
      simpa [htaken] using hcond
    rw [hnothing.1, List.take_zero]
    have hsame : s.take [] = s := by
      rw [ObservedWin32.take, List.append_nil]
    rw [hsame]
    exact hnone r htaken hnothing.2

end

/-! ## Changes of the list -/

section

variable {s : ObservedWin32 Cb} {io : PendingSocketIo Cb} {rest : List (PendingSocketIo Cb)} {buffer : Bytes}
variable {cb : Option Cb}

theorem unsent_of_nil (h : s.list = []) : s.unsent = [] := by
  rw [ObservedWin32.unsent, h]
  exact ite_self _

theorem Kept.owed_accept (h : Kept s) (buffer : Bytes) (cb : Option Cb) :
    ∀ item ∈ (s.accept buffer cb).owed, item < s.accepted + 1 := by
  intro item hitem
  change item ∈ (if cb.isSome then s.owed ++ [s.accepted] else s.owed) at hitem
  split at hitem
  case isTrue =>
    rcases List.mem_append.mp hitem with hold | hnew
    · exact Nat.lt_succ_of_lt (h.owed item hold)
    · rw [List.mem_singleton.mp hnew]
      exact Nat.lt_succ_self _
  case isFalse => exact Nat.lt_succ_of_lt (h.owed item hitem)

theorem Kept.once_accept (h : Kept s) (buffer : Bytes) (cb : Option Cb) : (s.accept buffer cb).owed.Nodup := by
  change (if cb.isSome then s.owed ++ [s.accepted] else s.owed).Nodup
  split
  case isTrue =>
    refine List.Nodup.append h.once (List.nodup_singleton _) ?_
    intro item hold hnew
    rw [List.mem_singleton.mp hnew] at hold
    exact Nat.lt_irrefl _ (h.owed _ hold)
  case isFalse => exact h.once

theorem unsent_queue (hhead : s.headSent = true → s.list ≠ []) :
    (s.queue buffer cb).unsent = s.unsent ++ [{ item := s.accepted, bytes := buffer, onSendComplete := cb }] := by
  change (if s.headSent then (s.list ++ [_]).tail else s.list ++ [_]) = (if s.headSent then _ else _) ++ [_]
  by_cases hsent : s.headSent = true
  · rw [if_pos hsent, if_pos hsent, List.tail_append_of_ne_nil (hhead hsent)]
  · rw [if_neg hsent, if_neg hsent]

theorem callbackItems_cons (io : PendingSocketIo Cb) (rest : List (PendingSocketIo Cb)) :
    callbackItems (io :: rest) = (if callsBack io then [io.item] else []) ++ callbackItems rest := by
  unfold callbackItems
  by_cases hsome : callsBack io = true
  · rw [if_pos hsome, List.filter_cons_of_pos hsome]
    rfl
  · rw [if_neg hsome, List.filter_cons_of_neg hsome]
    rfl

theorem callbackItems_append (items : List (PendingSocketIo Cb)) (io : PendingSocketIo Cb) :
    callbackItems (items ++ [io])
      = callbackItems items ++ if callsBack io then [io.item] else [] := by
  have hlast := callbackItems_cons io []
  change callbackItems [io] = (if callsBack io then [io.item] else []) ++ [] at hlast
  rw [List.append_nil] at hlast
  rw [← hlast, callbackItems, List.filter_append, List.map_append]
  rfl

theorem Kept.queue (h : Kept s) (hopen : s.inst.ioState = .ioStateOpen) (hdestroyed : s.destroyed = false)
    (buffer : Bytes) (cb : Option Cb) : Kept (s.queue buffer cb) := by
  have hunsent := @unsent_queue Cb s buffer cb h.headSent
  constructor
  case whole =>
    rw [hunsent, bytesOf, List.map_append, List.flatten_append]
    change (s.messages ++ [buffer]).flatten = s.taken ++ (bytesOf s.unsent ++ (buffer ++ []))
    rw [List.flatten_append, h.whole, List.append_nil, List.append_assoc, List.flatten_singleton]
  case idle => exact fun hne => absurd hopen hne
  case items =>
    intro io hio
    rcases List.mem_append.mp hio with hold | hnew
    · exact Nat.lt_succ_of_lt (h.items io hold)
    · rw [List.mem_singleton.mp hnew]
      exact Nat.lt_succ_self _
  case distinct =>
    change ((s.list ++ [_]).map PendingSocketIo.item).Nodup
    rw [List.map_append]
    refine List.Nodup.append h.distinct (List.nodup_singleton _) ?_
    intro item hold hnew
    obtain ⟨io, hio, hitem⟩ := List.mem_map.mp hold
    have hless := h.items io hio
    rw [hitem, List.mem_singleton.mp hnew] at hless
    exact Nat.lt_irrefl _ hless
  case settled => exact .inl hopen
  case owed => exact h.owed_accept buffer cb
  case once => exact h.once_accept buffer cb
  case accounts =>
    rw [hunsent, callbackItems_append]
    change (s.completed ++ (callbackItems s.unsent ++ if cb.isSome then [s.accepted] else [])).Perm
      (if cb.isSome then s.owed ++ [s.accepted] else s.owed)
    rw [← List.append_assoc]
    split
    case isTrue => exact h.accounts.append_right _
    case isFalse =>
      rw [List.append_nil]
      exact h.accounts
  case headSent =>
    intro _ hnil
    exact absurd hnil (List.append_ne_nil_of_right_ne_nil _ (List.cons_ne_nil _ _))
  case destroyed => exact fun hgone => absurd (hdestroyed.symm.trans hgone) Bool.false_ne_true

theorem Kept.sendAll (h : Kept s) (hlist : s.list = []) {buffer : Bytes} {cb : Option Cb} {completed : List Nat}
    (haccounts : completed.Perm (s.accept buffer cb).owed) :
    Kept { (s.take buffer).accept buffer cb with completed } := by
  have hunsent : ObservedWin32.unsent { (s.take buffer).accept buffer cb with completed } = [] :=
    unsent_of_nil hlist
  constructor
  case whole =>
    have hbefore := h.whole
    rw [unsent_of_nil hlist] at hbefore
    rw [hunsent]
    change (s.messages ++ [buffer]).flatten = s.taken ++ buffer ++ []
    rw [List.flatten_append, hbefore, List.flatten_singleton, List.append_nil]
    change s.taken ++ [] ++ buffer = s.taken ++ buffer
    rw [List.append_nil]
  case idle => exact fun _ => hunsent
  case items => exact fun io hio => Nat.lt_succ_of_lt (h.items io hio)
  case distinct => exact h.distinct
  case settled => exact h.settled
  case owed => exact h.owed_accept buffer cb
  case once => exact h.once_accept buffer cb
  case accounts =>
    rw [hunsent]
    change (completed ++ []).Perm _
    rw [List.append_nil]
    exact haccounts
  case headSent => exact h.headSent
  case destroyed => exact h.destroyed

theorem Kept.accounts_nil (h : Kept s) (hlist : s.list = []) : s.completed.Perm s.owed := by
  have hperm := h.accounts
  rw [unsent_of_nil hlist] at hperm
  change (s.completed ++ []).Perm s.owed at hperm
  rw [List.append_nil] at hperm
  exact hperm

theorem unsent_cons (hlist : s.list = io :: rest) (hhead : s.headSent = false) : s.unsent = io :: rest := by
  rw [ObservedWin32.unsent, hhead, hlist]
  rfl

theorem Kept.takeHead (h : Kept s) (hlist : s.list = io :: rest) (hhead : s.headSent = false)
    {completed : List Nat} (haccounts : (completed ++ callbackItems rest).Perm s.owed) :
    Kept { s.take io.bytes with headSent := true, completed } := by
  have hunsent : ObservedWin32.unsent { s.take io.bytes with headSent := true, completed } = rest := by
    change s.list.tail = rest
    rw [hlist]
    rfl
  constructor
  case whole =>
    have hbefore := h.whole
    rw [unsent_cons hlist hhead] at hbefore
    rw [hunsent]
    change s.messages.flatten = s.taken ++ io.bytes ++ bytesOf rest
    rw [hbefore, List.append_assoc]
    rfl
  case idle =>
    intro hclosed
    have hnil := h.idle hclosed
    rw [unsent_cons hlist hhead] at hnil
    cases hnil
  case items => exact h.items
  case distinct => exact h.distinct
  case settled => exact h.settled
  case owed => exact h.owed
  case once => exact h.once
  case accounts =>
    rw [hunsent]
    exact haccounts
  case headSent =>
    intro _ hnil
    exact absurd (hlist.symm.trans hnil) (List.cons_ne_nil io rest)
  case destroyed => exact h.destroyed

theorem Kept.removeHead (h : Kept s) (hlist : s.list = io :: rest) (hhead : s.headSent = true) :
    Kept (ObservedWin32.setList { s with headSent := false } rest) := by
  have hunsent : (ObservedWin32.setList { s with headSent := false } rest).unsent = s.unsent := by
    rw [ObservedWin32.unsent, ObservedWin32.unsent, if_pos hhead, hlist]
    rfl
  constructor
  case whole =>
    rw [hunsent]
    exact h.whole
  case idle =>
    intro hclosed
    rw [hunsent]
    exact h.idle hclosed
  case items => exact fun io' hio => h.items io' (by rw [hlist]; exact List.mem_cons_of_mem io hio)
  case distinct =>
    have hdistinct := h.distinct
    rw [hlist, List.map_cons] at hdistinct
    exact (List.nodup_cons.mp hdistinct).2
  case settled => exact h.settled
  case owed => exact h.owed
  case once => exact h.once
  case accounts =>
    rw [hunsent]
    exact h.accounts
  case headSent => exact nofun
  case destroyed =>
    intro hdestroyed
    have hnil := h.destroyed hdestroyed
    rw [hlist] at hnil
    cases hnil

theorem wp_removeHead {spec : Spec (ObservedWin32 Cb) (win32Signature Cb)} {Q : Bool → ObservedWin32 Cb → Prop}
    (hlist : s.list = io :: rest) (hdistinct : (s.list.map PendingSocketIo.item).Nodup)
    (hQ : Q true (s.setList rest)) : wp spec (removePendingIo io.item) Q s := by
  have hlist' : s.inst.pendingIoList = io :: rest := hlist
  rw [hlist] at hdistinct
  have hfound : ¬ s.inst.pendingIoList.all (·.item != io.item) = true := by
    rw [hlist']
    simp
  simp only [removePendingIo, wp_bind, wp_getInst, wp_ite]
  rw [if_neg hfound]
  simp only [wp_modifyInst, wp_pure, hlist', filter_first (item_ne_first hdistinct)]
  exact hQ

end

/-! ## The functions -/

section

variable {s : ObservedWin32 Cb}

/-- What a procedure leaves behind. -/
def Leaves (s : ObservedWin32 Cb) (_ : Int) (s' : ObservedWin32 Cb) : Prop :=
  Kept s' ∧ SameHead s s'

/-- Where the list and the head stay, other fields of the instance do not matter, as long as a connection that is
not open has nothing left to send. -/
theorem Kept.setInst (h : Kept s) {i : SocketIoInstance Cb} (hlist : i.pendingIoList = s.inst.pendingIoList)
    (hsettled : i.ioState = .ioStateOpen ∨ i.ioState = .ioStateClosed)
    (hidle : i.ioState ≠ .ioStateOpen → s.unsent = []) : Kept (s.setInst i) := by
  have hsame : (s.setInst i).list = s.list := hlist
  have hunsent : (s.setInst i).unsent = s.unsent := by
    change (if s.headSent then (s.setInst i).list.tail else (s.setInst i).list) = _
    rw [hsame]
    rfl
  exact
    { h with
      whole := hunsent ▸ h.whole
      idle := fun hclosed => hunsent.trans (hidle hclosed)
      items := fun io hio => h.items io (hsame ▸ hio)
      distinct := hsame ▸ h.distinct
      settled := hsettled
      accounts := hunsent ▸ h.accounts
      headSent := fun hsent => hsame ▸ h.headSent hsent
      destroyed := fun hgone => hsame.trans (h.destroyed hgone) }

theorem Kept.beginConnection (h : Kept s) (hclosed : s.inst.ioState ≠ .ioStateOpen) {i : SocketIoInstance Cb}
    (hlist : i.pendingIoList = s.inst.pendingIoList) (hopen : i.ioState = .ioStateOpen) :
    Kept (s.beginConnection i) := by
  have hbegun := h.setInst hlist (.inl hopen) fun hne => absurd hopen hne
  have hunsent : (s.setInst i).unsent = [] := by
    change (if s.headSent then i.pendingIoList.tail else i.pendingIoList) = []
    rw [hlist]
    exact h.idle hclosed
  exact
    { hbegun with
      whole := by
        change [] = [] ++ bytesOf (s.setInst i).unsent
        rw [hunsent]
        rfl }

theorem SameHead.setInst {i : SocketIoInstance Cb} (hlist : i.pendingIoList = s.inst.pendingIoList) :
    SameHead s (s.setInst i) :=
  ⟨rfl, rfl, fun _ => congrArg List.head? hlist⟩

theorem openComplete_leaves (oc : Option Cb) (s₁ : ObservedWin32 Cb) (result : IoOpenResult) (code : Int)
    (hkept₁ : Kept s₁) (hsame₁ : SameHead s s₁) :
    wp sendLaw.spec (match oc with
      | some cb => (do
          let _ ← ask (.onIoOpenComplete cb result code)
          pure 0 : Win32Comp Cb Int)
      | none => pure (if result = .ioOpenOk then 0 else failure)) (Leaves s) s₁ := by
  cases oc with
  | none => exact ⟨hkept₁, hsame₁⟩
  | some cb =>
    simp only [wp_bind]
    apply wp_ask_callback rfl hkept₁
    intro _ s₂ hkept₂ hsame₂
    exact ⟨hkept₂, hsame₁.trans hsame₂⟩

theorem socketioOpen_leaves (h : Kept s) (oc ob oe : Option Cb) :
    wp sendLaw.spec (socketioOpen oc ob oe) (Leaves s) s := by
  have hcomplete := openComplete_leaves (s := s) oc
  simp only [socketioOpen, wp_bind, wp_getInst, wp_ite, wp_modify]
  split
  case isTrue => exact hcomplete s .ioOpenError failure h (SameHead.refl s)
  case isFalse hstate =>
    have hclosed : s.inst.ioState ≠ .ioStateOpen := by
      rw [not_not.mp hstate]
      rintro ⟨⟩
    split
    case isTrue =>
      exact hcomplete _ .ioOpenOk 0 (h.beginConnection hclosed rfl rfl) ⟨rfl, rfl, fun _ => rfl⟩
    case isFalse =>
      refine wp_ask_local rfl h fun connected _ => ?_
      cases connected with
      | ok socket =>
        exact hcomplete _ .ioOpenOk 0 (h.beginConnection hclosed rfl rfl) ⟨rfl, rfl, fun _ => rfl⟩
      | error code => exact hcomplete s .ioOpenError code h (SameHead.refl s)

theorem socketioClose_leaves (h : Kept s) (hsent : s.inst.ioState = .ioStateOpen → s.unsent = [])
    (cb : Option Cb) : wp sendLaw.spec (socketioClose cb) (Leaves s) s := by
  have hcallBack : ∀ s₁, Kept s₁ → SameHead s s₁ →
      wp sendLaw.spec (callBack cb .onIoCloseComplete) (fun _ s' => Leaves s 0 s') s₁ := by
    intro s₁ hkept₁ hsame₁
    apply wp_callBack (fun _ => rfl) hkept₁
    intro s₂ hkept₂ hsame₂
    exact ⟨hkept₂, hsame₁.trans hsame₂⟩
  have hidle : s.unsent = [] := by
    by_cases hopen : s.inst.ioState = .ioStateOpen
    · exact hsent hopen
    · exact h.idle hopen
  simp only [socketioClose, wp_bind, wp_getInst, wp_ite]
  split
  case isTrue =>
    refine wp_ask_local rfl h fun _ _ => ?_
    simp only [wp_modifyInst]
    exact hcallBack _ (h.setInst rfl (.inr rfl) fun _ => hidle) (SameHead.setInst rfl)
  case isFalse => exact hcallBack s h (SameHead.refl s)

theorem wp_addPendingIo (h : Kept s) (hopen : s.inst.ioState = .ioStateOpen) (hdestroyed : s.destroyed = false)
    (buffer : Bytes) (cb : Option Cb) : wp sendLaw.spec (addPendingIo buffer cb) (Leaves s) s := by
  have hmalloc : ∀ {Q : Bool → ObservedWin32 Cb → Prop}, (∀ r, Q r s) →
      wp sendLaw.spec (ask (.malloc : Call Cb)) Q s :=
    fun hQ => wp_ask_local rfl h fun r _ => hQ r
  have hrefused : Leaves s failure s := ⟨h, SameHead.refl s⟩
  simp only [addPendingIo, wp_bind]
  refine hmalloc fun pendingAllocated => ?_
  simp only [wp_ite, wp_pure, wp_bind]
  split
  · exact hrefused
  · refine hmalloc fun bytesAllocated => ?_
    simp only [wp_ite, wp_pure, wp_bind]
    split
    · exact hrefused
    · refine hmalloc fun itemAllocated => ?_
      simp only [wp_ite, wp_pure, wp_bind, wp_modify]
      split
      · exact hrefused
      · refine ⟨h.queue hopen hdestroyed buffer cb, rfl, rfl, ?_⟩
        intro hsent
        exact List.head?_append_of_ne_nil _ (h.headSent hsent)

theorem socketioSend_leaves (h : Kept s) (hdestroyed : s.destroyed = false) (buffer : Option Bytes)
    (cb : Option Cb) : wp sendLaw.spec (socketioSend buffer cb) (Leaves s) s := by
  have hrefused : Leaves s failure s := ⟨h, SameHead.refl s⟩
  match buffer with
  | none => exact hrefused
  | some [] => exact hrefused
  | some (b :: bs) =>
    simp only [socketioSend, wp_bind, wp_getInst, wp_ite, wp_pure]
    split
    case isTrue => exact hrefused
    case isFalse hstate =>
      have hopen : s.inst.ioState = .ioStateOpen := not_not.mp hstate
      split
      case isTrue => exact wp_addPendingIo h hopen hdestroyed (b :: bs) cb
      case isFalse hnil =>
        have hlist : s.list = [] := not_not.mp hnil
        apply wp_send h
        case hnone =>
          intro r htaken _
          simp only [wp_ite, wp_pure]
          rw [if_pos htaken]
          split
          case isTrue => exact hrefused
          case isFalse => exact wp_addPendingIo h hopen hdestroyed (b :: bs) cb
        case hall =>
          intro r htaken
          simp only [wp_ite, wp_bind, wp_get, wp_modify]
          rw [if_neg fun hne => hne htaken]
          have hbefore := h.accounts_nil hlist
          apply wp_sendComplete
          case hsome =>
            intro hsome
            apply h.sendAll hlist
            have howed : (s.accept (b :: bs) cb).owed = s.owed ++ [s.accepted] := if_pos hsome
            rw [howed]
            exact hbefore.append_right _
          case hnone =>
            intro hnone
            apply h.sendAll hlist
            have howed : (s.accept (b :: bs) cb).owed = s.owed :=
              if_neg (by rw [hnone]; exact Bool.false_ne_true)
            rw [howed]
            exact hbefore
          case hQ =>
            intro s₁ hkept₁ hsame₁
            exact ⟨hkept₁, { hsame₁ with }⟩

theorem wp_indicateError {Q : Unit → ObservedWin32 Cb → Prop} (h : Kept s)
    (hQ : ∀ s', Kept s' → SameHead s s' → Q () s') : wp sendLaw.spec indicateError Q s := by
  simp only [indicateError, wp_bind, wp_getInst]
  exact wp_callBack (fun _ => rfl) h hQ

theorem sendPending_leaves (h : Kept s) (hhead : s.headSent = false) :
    wp sendLaw.spec sendPending (Leaves s) s := by
  -- The loop goes on from a state that is like the first one, as no list item is being completed.
  have hnext : ∀ s₁, Kept s₁ → s₁.headSent = false → s₁.working = s.working →
      wp sendLaw.spec (callProc .sendPending) (Leaves s) s₁ := by
    intro s₁ hkept₁ hhead₁ hworking₁
    refine @wp_callProc Cb s₁ .sendPending _ hkept₁ hhead₁ ?_
    intro r s₂ hkept₂ hsame₂
    refine ⟨hkept₂, ?_, ?_, ?_⟩
    · exact hsame₂.headSent.trans (hhead₁.trans hhead.symm)
    · exact hsame₂.working.trans hworking₁
    · intro hsent
      rw [hhead] at hsent
      cases hsent
  simp only [sendPending, wp_bind, wp_getInst]
  cases hlist : s.inst.pendingIoList with
  | nil => exact ⟨h, SameHead.refl s⟩
  | cons io rest =>
    have hlist' : s.list = io :: rest := hlist
    simp only [wp_bind]
    apply wp_send h
    case hnone =>
      intro r htaken hblocked
      simp only [wp_ite, wp_bind]
      rw [if_pos htaken]
      split
      case isTrue hfails =>
        rcases hblocked with hblocked | hnil
        · cases hfails.symm.trans hblocked
        · cases hlist'.symm.trans hnil
      case isFalse => exact hnext s h hhead rfl
    case hall =>
      intro r htaken
      simp only [wp_ite, wp_bind, wp_modify]
      rw [if_neg fun hne => hne htaken]
      have hbefore := h.accounts
      rw [unsent_cons hlist' hhead, callbackItems_cons] at hbefore
      -- What is left to do once the first item has been completed.
      have hafter : ∀ s₁, Kept s₁ → SameHead { s.take io.bytes with headSent := true } s₁ →
          wp sendLaw.spec (removePendingIo io.item) (fun removed =>
            wp sendLaw.spec (do
              if removed = false then indicateError else pure ()
              callProc .sendPending) (Leaves s)) { s₁ with headSent := false } := by
        intro s₁ hkept₁ hsame₁
        have hhead₁ : s₁.headSent = true := hsame₁.headSent
        have hfirst : s₁.list.head? = some io := by
          rw [hsame₁.head rfl]
          change s.list.head? = some io
          rw [hlist']
          rfl
        obtain ⟨rest₁, hlist₁⟩ : ∃ rest₁, s₁.list = io :: rest₁ := by
          cases hcases : s₁.list with
          | nil =>
            rw [hcases] at hfirst
            cases hfirst
          | cons io₁ rest₁ =>
            rw [hcases] at hfirst
            rw [Option.some.inj hfirst]
            exact ⟨rest₁, rfl⟩
        refine @wp_removeHead Cb { s₁ with headSent := false } io rest₁ sendLaw.spec _ hlist₁ hkept₁.distinct ?_
        simp only [Bool.true_eq_false, if_false]
        exact hnext _ (hkept₁.removeHead hlist₁ hhead₁) rfl hsame₁.working
      apply wp_sendComplete
      case hsome =>
        intro hsome
        apply h.takeHead hlist' hhead
        have hcalls : callsBack io = true := hsome
        rw [if_pos hcalls, ← List.append_assoc] at hbefore
        exact hbefore
      case hnone =>
        intro hnone
        apply h.takeHead hlist' hhead
        have hcalls : ¬ callsBack io = true := by
          rw [callsBack, hnone]
          exact Bool.false_ne_true
        rw [if_neg hcalls, List.nil_append] at hbefore
        exact hbefore
      case hQ => exact hafter

theorem receiveBytes_leaves (h : Kept s) : wp sendLaw.spec receiveBytes (Leaves s) s := by
  simp only [receiveBytes, wp_bind, wp_getInst]
  refine wp_ask_local rfl h fun received _ => ?_
  cases received with
  | again => exact ⟨h, SameHead.refl s⟩
  | closed | error =>
    simp only [wp_bind]
    exact wp_indicateError h fun s₁ hkept₁ hsame₁ => ⟨hkept₁, hsame₁⟩
  | received bytes =>
    simp only [wp_bind]
    apply wp_callBack (fun _ => rfl) h
    intro s₁ hkept₁ hsame₁
    simp only [wp_getInst, wp_ite, wp_pure]
    split
    case isTrue =>
      refine @wp_callProc Cb s₁ .receiveBytes _ hkept₁ trivial ?_
      intro r s₂ hkept₂ hsame₂
      exact ⟨hkept₂, hsame₁.trans hsame₂⟩
    case isFalse => exact ⟨hkept₁, hsame₁⟩

theorem socketioDowork_leaves (h : Kept s) (hhead : s.inst.ioState = .ioStateOpen → s.headSent = false) :
    wp sendLaw.spec socketioDowork (Leaves s) s := by
  -- The count of doworks under way is the only thing that is not as before, until the end.
  have hfinish : ∀ s₁, Kept s₁ → SameHead { s with working := s.working + 1 } s₁ →
      Leaves s 0 { s₁ with working := s₁.working - 1 } := by
    intro s₁ hkept₁ hsame₁
    refine ⟨{ hkept₁ with }, hsame₁.headSent, ?_, hsame₁.head⟩
    have hworking : s₁.working = s.working + 1 := hsame₁.working
    change s₁.working - 1 = s.working
    omega
  have hbegun : Kept { s with working := s.working + 1 } := { h with }
  simp only [socketioDowork, wp_bind, wp_modify, wp_getInst, wp_ite, wp_pure]
  split
  case isTrue hopen =>
    refine @wp_callProc Cb { s with working := s.working + 1 } .sendPending _ hbegun (hhead hopen) ?_
    intro _ s₁ hkept₁ hsame₁
    simp only [wp_getInst, wp_ite, wp_bind]
    split
    case isTrue =>
      refine @wp_callProc Cb s₁ .receiveBytes _ hkept₁ trivial ?_
      intro _ s₂ hkept₂ hsame₂
      exact hfinish s₂ hkept₂ (hsame₁.trans hsame₂)
    case isFalse => exact hfinish s₁ hkept₁ hsame₁
  case isFalse => exact hfinish _ hbegun (SameHead.refl _)

theorem socketioDestroy_leaves (h : Kept s) (hlist : s.list = []) :
    wp sendLaw.spec socketioDestroy (Leaves s) s := by
  simp only [socketioDestroy, wp_bind, wp_getInst]
  refine wp_ask_local rfl h fun _ _ => ?_
  simp only [wp_modifyInst, wp_modify, wp_pure]
  have hsame : s.setInst { s.inst with pendingIoList := [] } = s := by
    have hnil : s.inst.pendingIoList = [] := hlist
    rw [← hnil]
    rfl
  rw [hsame]
  exact ⟨{ h with destroyed := fun _ => hlist }, { SameHead.refl s with }⟩

end

/-! ## Every run -/

section

variable {s : ObservedWin32 Cb}

theorem sendLaw_enter {top : Option (Call Cb)} {p : Proc Cb} (hmay : wholeRun.mayEnter top p s = true) :
    sendLaw.entry p s := by
  have hboth := Bool.and_eq_true_iff.mp hmay
  have hlife := Bool.and_eq_true_iff.mp hboth.1
  cases p with
  | socketioOpen oc ob oe => trivial
  | socketioClose cb =>
    intro hopen
    rcases Bool.or_eq_true_iff.mp hboth.2 with hclosed | hsent
    · exact absurd hopen (bne_iff_ne.mp hclosed)
    · exact List.isEmpty_iff.mp hsent
  | socketioSend buffer cb =>
    have hlive := (Bool.and_eq_true_iff.mp hlife.1).1
    exact (Bool.not_eq_true' _).mp hlive
  | socketioDowork =>
    intro hopen
    rcases Bool.or_eq_true_iff.mp hboth.2 with hclosed | hhead
    · exact absurd hopen (bne_iff_ne.mp hclosed)
    · exact (Bool.not_eq_true' _).mp hhead
  | socketioDestroy => exact List.isEmpty_iff.mp hboth.2
  | sendPending => exact absurd hlife.2 Bool.false_ne_true
  | receiveBytes => exact absurd hlife.2 Bool.false_ne_true

theorem sendLaw_sound : (sendLaw : RelyGuarantee (ObservedWin32 Cb) _).Sound win32Code where
  inv_always _ h := h
  refl := SameHead.refl
  trans _ _ _ := SameHead.trans
  reenter c p s hmay := by
    have hlife := (Bool.and_eq_true_iff.mp (Bool.and_eq_true_iff.mp hmay).1).1
    exact ⟨(Bool.and_eq_true_iff.mp hlife).2, rfl⟩
  enter top p s _ _ hmay := sendLaw_enter hmay
  code p s h hentry _ := by
    have hleaves : wp sendLaw.spec (win32Code p) (Leaves s) s := by
      cases p with
      | socketioOpen oc ob oe => exact socketioOpen_leaves h oc ob oe
      | socketioClose cb => exact socketioClose_leaves h hentry cb
      | socketioSend buffer cb => exact socketioSend_leaves h hentry buffer cb
      | socketioDowork => exact socketioDowork_leaves h hentry
      | socketioDestroy => exact socketioDestroy_leaves h hentry
      | sendPending => exact sendPending_leaves h hentry
      | receiveBytes => exact receiveBytes_leaves h
    exact wp_mono (fun _ _ hleft => ⟨hleft.1, hleft.2.headSent.trans, fun _ => hleft.2⟩) hleaves

theorem created_kept (socket : Option Nat) : Kept (created socket : ObservedWin32 Cb) where
  whole := rfl
  idle := fun _ => rfl
  items := nofun
  distinct := List.nodup_nil
  settled := .inr rfl
  owed := nofun
  once := List.nodup_nil
  accounts := List.Perm.refl []
  headSent := nofun
  destroyed := fun _ => rfl

end

/-- Surroundings in which only `send` may fail. -/
def answering (sent : Sent) : (c : Call Nat) → Ans c
  | .malloc => true
  | .connect => .ok 3
  | .send _ _ => sent
  | .recv _ => .again
  | .shutdown _ => ()
  | .close _ => ()
  | .onIoOpenComplete _ _ _ => ()
  | .onIoCloseComplete _ => ()
  | .onSendComplete _ _ => ()
  | .onBytesReceived _ _ => ()
  | .onIoError _ => ()

/-- An accepted socket is opened, and a message of two bytes is given to `send`. -/
def openAndSend (sent : Sent) : List (Input (win32Signature Nat)) :=
  [.enter (.socketioOpen none none none), .enter (.socketioSend (some [0x41, 0x42]) (some 7)),
    .answer (answering sent)]

/-- A part of the message is taken while the last error is still `WSAEWOULDBLOCK`, and then the whole of it. -/
example : lifetimeRun.endsIn win32Code 20 (created (some 3))
    (openAndSend ⟨some 1, true⟩ ++
      [.answer (answering ⟨none, true⟩), .answer (answering ⟨none, true⟩), .answer (answering ⟨none, true⟩),
        .enter .socketioDowork, .answer (answering ⟨some 2, true⟩)])
    (fun s _ => decide (s.taken = [0x41, 0x41, 0x42])) = true := by
  decide

end SharedUtility.SocketIoWin32
