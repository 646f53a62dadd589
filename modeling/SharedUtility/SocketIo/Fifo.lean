import SharedUtility.Reentrant.Quiet
import SharedUtility.SocketIo.Code

/-!
# Fifo — what is sent on a connection is what was accepted on it

The bytes that `send` takes on a connection are, in order, those of the messages accepted on it: as
long as an instance is opened or worked on when closed with an empty list only, a list item is not
sent again from its own completion, and nothing is sent behind a list item that was dropped.
-/

namespace SharedUtility.SocketIo

open Reentrant

variable {Cb : Type}

/-! ## Rules -/

section

variable {spec : Spec (ObservedSocket Cb) (socketIoSignature Cb)} {s : ObservedSocket Cb}

@[simp] theorem wp_getInst (Q : SocketIoInstance Cb → ObservedSocket Cb → Prop) :
    wp spec getInst Q s ↔ Q s.inst s := by
  simp [getInst]

@[simp] theorem wp_modifyInst (f : SocketIoInstance Cb → SocketIoInstance Cb)
    (Q : Unit → ObservedSocket Cb → Prop) :
    wp spec (modifyInst f) Q s ↔ Q () (s.setInst (f s.inst)) := by
  simp [modifyInst]

@[simp] theorem wp_ask (c : Call Cb) (Q : Ans c → ObservedSocket Cb → Prop) :
    wp spec (ask c) Q s ↔
      spec.callPre c s ∧ ∀ r s', spec.callPost c s r s' → Q r s' :=
  @wp_call (ObservedSocket Cb) (socketIoSignature Cb) spec s c Q

@[simp] theorem wp_callProc (p : Proc Cb) (Q : Int → ObservedSocket Cb → Prop) :
    wp spec (callProc p) Q s ↔
      spec.procPre p s ∧ ∀ r s', spec.procPost p s r s' → Q r s' :=
  @wp_proc (ObservedSocket Cb) (socketIoSignature Cb) spec s p Q

end

/-! ## The property -/

/-- The bytes taken since the latest successful open are, in order, those of the messages accepted
since then. -/
def InOrder (s : ObservedSocket Cb) : Prop :=
  s.taken <+: s.messageBytes

/-- If the instance is closed, `socketio_dowork` ends without a call of any function, and changes
nothing. -/
def IdleWhenClosed (s : ObservedSocket Cb) : Prop :=
  s.inst.ioState = .ioStateClosed →
    Eval socketioCode (fun _ _ => False) (socketioCode .socketioDowork s) 0 s

structure Created (s : ObservedSocket Cb) : Prop where
  ioState : s.inst.ioState = .ioStateClosed
  pendingIoList : s.inst.pendingIoList = []
  messages : s.messages = []
  taken : s.taken = []
  headSent : s.headSent = false

/-! ## Runs -/

/-- Opens, sends, doworks and closes, also from the callbacks.  Allocations succeed; `send` takes no
more bytes than it is given, and none without a socket. -/
def anyRun : Env (ObservedSocket Cb) (socketIoSignature Cb) where
  mayEnter top p _ :=
    (match top with
      | none => true
      | some c => c.isCallback) &&
    (match p with
      | .socketioOpen _ _ _ | .socketioSend _ _ | .socketioDowork | .socketioClose _ => true
      | _ => false)
  mayAnswer c r _ :=
    match c, r with
    | .malloc, r => r
    | .send socket bytes, .taken n => n ≤ bytes.length && (socket.isSome || n == 0)
    | _, _ => true

/-- The condition.  A closed instance is opened, or worked on, only when no bytes are left on its
list; `socketio_dowork` is not called from an `on_send_complete` that it is calling; and once the
instance is in the error state, `send` takes nothing. -/
def orderedRun : Env (ObservedSocket Cb) (socketIoSignature Cb) where
  mayEnter top p s :=
    anyRun.mayEnter top p s &&
    (match p with
      | .socketioOpen _ _ _ => s.inst.ioState != .ioStateClosed || s.unsent.isEmpty
      | .socketioDowork =>
        !s.headSent && (s.inst.ioState != .ioStateClosed || s.unsent.isEmpty)
      | _ => true)
  mayAnswer c r s :=
    anyRun.mayAnswer c r s &&
    (match c, r with
      | .send _ _, .taken n => s.inst.ioState != .ioStateError || n == 0
      | _, _ => true)

/-! ## The invariant -/

/-- What holds whenever the instance can be called. -/
structure Kept (s : ObservedSocket Cb) : Prop where
  numbered : ∀ m ∈ s.messages, m.1 < s.sendCalls
  settled : s.inst.ioState ≠ .ioStateOpening ∧ s.inst.ioState ≠ .ioStateClosing
  items : ∀ io ∈ s.inst.pendingIoList, io.item < s.sendCalls
  distinct : (s.inst.pendingIoList.map PendingSocketIo.item).Nodup
  inOrder : InOrder s
  whenOpen : s.inst.ioState = .ioStateOpen → s.messageBytes = s.taken ++ s.unsentBytes
  whenClosed : s.inst.ioState = .ioStateClosed → s.inst.socket = none ∨ s.inst.pendingIoList = []
  headSent : s.headSent = true → s.inst.pendingIoList ≠ []

/-- What a procedure leaves alone: the first list item while it is being completed. -/
def SameHead (s s' : ObservedSocket Cb) : Prop :=
  s'.headSent = s.headSent ∧
    (s.headSent = true → s'.inst.pendingIoList.head? = s.inst.pendingIoList.head?)

theorem SameHead.refl (s : ObservedSocket Cb) : SameHead s s :=
  ⟨rfl, fun _ => rfl⟩

theorem SameHead.trans {s s' s'' : ObservedSocket Cb} (h : SameHead s s')
    (h' : SameHead s' s'') : SameHead s s'' := by
  refine ⟨h'.1.trans h.1, ?_⟩
  intro hsent
  exact (h'.2 (h.1.trans hsent)).trans (h.2 hsent)

def fifoSpec : Spec (ObservedSocket Cb) (socketIoSignature Cb) where
  callPre c s := if c.isCallback then Kept s else InOrder s
  callPost c s r s' :=
    if c.isCallback then Kept s' ∧ SameHead s s'
    else s' = s ∧ orderedRun.mayAnswer c r s = true
  procPre p s := Kept s ∧
    match p with
    | .socketioOpen _ _ _ => s.inst.ioState = .ioStateClosed → s.unsent = []
    | .socketioDowork | .sendPending => s.headSent = false
    | .socketioDestroy => False
    | _ => True
  procPost _ s _ s' := Kept s' ∧ SameHead s s'

def fifoContract : Contract (ObservedSocket Cb) (socketIoSignature Cb) where
  spec := fifoSpec
  inv top s :=
    match top with
    | none => Kept s
    | some c => if c.isCallback then Kept s else InOrder s
  during c s s' := if c.isCallback then SameHead s s' else s' = s

/-! ## Steps of the code -/

section

variable {s : ObservedSocket Cb}

theorem wp_ask_callback {c : Call Cb} {Q : Ans c → ObservedSocket Cb → Prop}
    (hc : c.isCallback = true) (h : Kept s)
    (hQ : ∀ r s', Kept s' → SameHead s s' → Q r s') : wp fifoSpec (ask c) Q s := by
  simp only [wp_ask, fifoSpec, hc, if_true]
  refine ⟨h, ?_⟩
  intro r s' hs'
  exact hQ r s' hs'.1 hs'.2

theorem wp_callBack {slot : Option Cb} {c : Cb → Call Cb} {Q : Unit → ObservedSocket Cb → Prop}
    (hc : ∀ cb, (c cb).isCallback = true) (h : Kept s)
    (hQ : ∀ s', Kept s' → SameHead s s' → Q () s') : wp fifoSpec (callBack slot c) Q s := by
  cases slot with
  | none => exact hQ s h (SameHead.refl s)
  | some cb =>
    simp only [callBack, wp_bind]
    apply wp_ask_callback (hc cb) h
    intro _ s' hs' hsame
    exact hQ s' hs' hsame

theorem wp_indicateError {Q : Unit → ObservedSocket Cb → Prop} (h : Kept s)
    (hQ : ∀ s', Kept s' → SameHead s s' → Q () s') : wp fifoSpec indicateError Q s := by
  simp only [indicateError, wp_bind, wp_getInst]
  exact wp_callBack (fun _ => rfl) h hQ

theorem wp_ask_local {c : Call Cb} {Q : Ans c → ObservedSocket Cb → Prop}
    (hc : c.isCallback = false) (h : InOrder s)
    (hQ : ∀ r, orderedRun.mayAnswer c r s = true → Q r s) : wp fifoSpec (ask c) Q s := by
  simp only [wp_ask, fifoSpec, hc, Bool.false_eq_true, if_false]
  refine ⟨h, ?_⟩
  rintro r s' ⟨rfl, hr⟩
  exact hQ r hr

theorem wp_malloc {Q : Bool → ObservedSocket Cb → Prop} (h : InOrder s) (hQ : Q true s) :
    wp fifoSpec (ask .malloc) Q s := by
  refine wp_ask_local rfl h ?_
  intro r hr
  have hr : r = true := by simpa [orderedRun, anyRun] using hr
  rw [hr]
  exact hQ

theorem wp_addPendingIo {item : Nat} {buffer : Bytes} {cb : Option Cb}
    {Q : Int → ObservedSocket Cb → Prop} (h : InOrder s)
    (hQ : Q 0 (s.setInst { s.inst with
      pendingIoList := s.inst.pendingIoList ++
        [{ item := item, bytes := buffer, onSendComplete := cb }] })) :
    wp fifoSpec (addPendingIo item buffer cb) Q s := by
  simp only [addPendingIo, wp_bind]
  apply wp_malloc h
  simp only [Bool.true_eq_false, if_false, wp_bind]
  apply wp_malloc h
  simp only [Bool.true_eq_false, if_false, wp_bind]
  apply wp_malloc h
  simp only [Bool.true_eq_false, if_false, wp_bind, wp_modifyInst, wp_pure]
  exact hQ

theorem wp_send {socket : Option Nat} {bytes : Bytes} {Q : SendResult → ObservedSocket Cb → Prop}
    (h : InOrder s) (hagain : Q .again s) (herror : Q .error s)
    (htaken : ∀ n, n ≤ bytes.length → (n = 0 ∨ socket ≠ none ∧ s.inst.ioState ≠ .ioStateError) →
      Q (.taken n) (s.take (bytes.take n))) :
    wp fifoSpec (send socket bytes) Q s := by
  simp only [send, wp_bind]
  refine wp_ask_local rfl h ?_
  intro r hr
  cases r with
  | again => exact hagain
  | error => exact herror
  | taken n =>
    simp only [orderedRun, anyRun, Bool.and_eq_true, decide_eq_true_eq, Bool.or_eq_true,
      Option.isSome_iff_ne_none, beq_iff_eq, bne_iff_ne, ne_eq] at hr
    refine htaken n hr.1.1 ?_
    grind

theorem removePendingIo_head {io : PendingSocketIo Cb} {rest : List (PendingSocketIo Cb)}
    {Q : Bool → ObservedSocket Cb → Prop} (hlist : s.inst.pendingIoList = io :: rest)
    (hrest : ∀ io' ∈ rest, io'.item ≠ io.item)
    (hQ : Q true (s.setInst { s.inst with pendingIoList := rest })) :
    wp fifoSpec (removePendingIo io.item) Q s := by
  simp only [removePendingIo, wp_bind, wp_getInst]
  rw [if_neg (by simp [hlist])]
  simp only [wp_bind, wp_modifyInst, wp_pure, hlist, filter_first hrest]
  exact hQ

end

/-! ## The functions keep the invariant -/

section

variable {s : ObservedSocket Cb}

theorem socketioClose_kept (h : Kept s) (cb : Option Cb) :
    wp fifoSpec (socketioClose cb) (fun _ s' => Kept s' ∧ SameHead s s') s := by
  have hclosed : Kept (s.setInst { s.inst with socket := none, ioState := .ioStateClosed }) :=
    { h with
      settled := ⟨nofun, nofun⟩
      whenOpen := nofun
      whenClosed := fun _ => .inl rfl }
  simp only [socketioClose, wp_bind, wp_getInst]
  split
  · simp only [wp_bind]
    apply wp_ask_local rfl h.inOrder
    intro _ _
    apply wp_ask_local rfl h.inOrder
    intro _ _
    simp only [wp_modifyInst]
    apply wp_callBack (fun _ => rfl) hclosed
    intro s' hs' hsame
    exact ⟨hs', hsame⟩
  · simp only [wp_bind]
    apply wp_callBack (fun _ => rfl) h
    intro s' hs' hsame
    exact ⟨hs', hsame⟩

theorem Kept.beginConnection (h : Kept s) (hunsent : s.unsent = []) {i : SocketIoInstance Cb}
    (hlist : i.pendingIoList = s.inst.pendingIoList) (hopen : i.ioState = .ioStateOpen) :
    Kept (s.beginConnection i) where
  numbered := nofun
  settled := by
    show i.ioState ≠ _ ∧ i.ioState ≠ _
    simp [hopen]
  items := by
    intro io hio
    exact h.items io (hlist ▸ hio)
  distinct := by
    show (i.pendingIoList.map PendingSocketIo.item).Nodup
    rw [hlist]
    exact h.distinct
  inOrder := List.prefix_refl _
  whenOpen := by
    intro _
    have hbytes : (s.beginConnection i).unsentBytes = [] := by
      have hempty : (s.beginConnection i).unsent = [] := by
        simpa [ObservedSocket.unsent, ObservedSocket.beginConnection, hlist] using hunsent
      simp [ObservedSocket.unsentBytes, hempty]
    rw [hbytes]
    rfl
  whenClosed := by
    intro hclosed
    have hclosed : i.ioState = .ioStateClosed := hclosed
    rw [hopen] at hclosed
    cases hclosed
  headSent := by
    intro hsent
    show i.pendingIoList ≠ []
    rw [hlist]
    exact h.headSent hsent

theorem openComplete_kept (oc : Option Cb) (s₁ : ObservedSocket Cb) (result : IoOpenResult) (code : Int)
    (h₁ : Kept s₁) (hsame : SameHead s s₁) :
    wp fifoSpec
      (match oc with
        | some cb => do
          let _ ← ask (.onIoOpenComplete cb result code)
          pure 0
        | none => pure (if result = .ioOpenOk then 0 else failure))
      (fun _ s' => Kept s' ∧ SameHead s s') s₁ := by
  cases oc with
  | none => exact ⟨h₁, hsame⟩
  | some cb =>
    simp only [wp_bind]
    apply wp_ask_callback rfl h₁
    intro _ s' hs' hsame'
    exact ⟨hs', hsame.trans hsame'⟩

theorem socketioOpen_kept (h : Kept s)
    (hunsent : s.inst.ioState = .ioStateClosed → s.unsent = []) (oc ob oe : Option Cb) :
    wp fifoSpec (socketioOpen oc ob oe) (fun _ s' => Kept s' ∧ SameHead s s') s := by
  have hcomplete := openComplete_kept (s := s) oc
  simp only [socketioOpen, wp_bind, wp_getInst]
  by_cases hclosed : s.inst.ioState = .ioStateClosed
  · rw [if_neg (not_not_intro hclosed)]
    by_cases hsocket : s.inst.socket = none
    · rw [if_neg (not_not_intro hsocket), wp_bind]
      apply wp_ask_local rfl h.inOrder
      intro r _
      cases r with
      | ok socket =>
        simp only [wp_bind, wp_modify]
        exact hcomplete _ _ _ (h.beginConnection (hunsent hclosed) rfl rfl) ⟨rfl, fun _ => rfl⟩
      | error code =>
        simp only [wp_bind, wp_modifyInst]
        refine hcomplete _ _ _ { h with whenClosed := fun _ => .inl rfl } ⟨rfl, fun _ => rfl⟩
    · rw [if_pos hsocket]
      simp only [wp_bind, wp_modify]
      exact hcomplete _ _ _ (h.beginConnection (hunsent hclosed) rfl rfl) ⟨rfl, fun _ => rfl⟩
  · rw [if_pos hclosed]
    exact hcomplete s _ _ h (SameHead.refl s)

theorem Kept.messageBytes_of_nil (h : Kept s) (hopen : s.inst.ioState = .ioStateOpen)
    (hlist : s.inst.pendingIoList = []) : s.messageBytes = s.taken := by
  have hunsent : s.unsentBytes = [] := by
    simp [ObservedSocket.unsentBytes, ObservedSocket.unsent, hlist]
  rw [h.whenOpen hopen, hunsent, List.append_nil]

theorem messageBytes_beginSend (buffer : Bytes) :
    (s.beginSend buffer).messageBytes = s.messageBytes ++ buffer := by
  simp [ObservedSocket.messageBytes, ObservedSocket.beginSend]

theorem InOrder.beginSend (h : InOrder s) (buffer : Bytes) : InOrder (s.beginSend buffer) := by
  show s.taken <+: (s.beginSend buffer).messageBytes
  rw [messageBytes_beginSend]
  exact h.trans (List.prefix_append _ _)

theorem Kept.beginSend_numbered (h : Kept s) (buffer : Bytes) :
    ∀ m ∈ (s.beginSend buffer).messages, m.1 < s.sendCalls + 1 := by
  intro m hm
  rcases List.mem_append.1 hm with hm | hm
  · exact Nat.lt_succ_of_lt (h.numbered m hm)
  · rw [List.mem_singleton.1 hm]
    exact Nat.lt_succ_self _

theorem Kept.refuse (h : Kept s) (buffer : Bytes) :
    Kept ((s.beginSend buffer).dropMessage s.sendCalls) := by
  have hmessages : (s.messages ++ [(s.sendCalls, buffer)]).filter (·.1 != s.sendCalls) =
      s.messages := by
    rw [List.filter_append, List.filter_eq_self.2, List.filter_cons_of_neg (by simp)]
    · simp
    · intro m hm
      simpa using Nat.ne_of_lt (h.numbered m hm)
  have hbytes : ((s.beginSend buffer).dropMessage s.sendCalls).messageBytes = s.messageBytes :=
    congrArg (fun ms => (ms.map Prod.snd).flatten) hmessages
  exact
    { h with
      numbered := by
        intro m hm
        have hm : m ∈ s.messages := hmessages ▸ hm
        exact Nat.lt_succ_of_lt (h.numbered m hm)
      items := fun io hio => Nat.lt_succ_of_lt (h.items io hio)
      inOrder := by
        show s.taken <+: _
        rw [hbytes]
        exact h.inOrder
      whenOpen := by
        intro hopen
        rw [hbytes]
        exact h.whenOpen hopen }

theorem Kept.sendAll (h : Kept s) (hopen : s.inst.ioState = .ioStateOpen)
    (hlist : s.inst.pendingIoList = []) (buffer : Bytes) :
    Kept ((s.beginSend buffer).take buffer) := by
  have hbytes : ((s.beginSend buffer).take buffer).messageBytes = s.taken ++ buffer := by
    show (s.beginSend buffer).messageBytes = _
    rw [messageBytes_beginSend, h.messageBytes_of_nil hopen hlist]
  have hunsent : ((s.beginSend buffer).take buffer).unsentBytes = [] := by
    simp [ObservedSocket.unsentBytes, ObservedSocket.unsent, ObservedSocket.take,
      ObservedSocket.beginSend, hlist]
  exact
    { h with
      numbered := h.beginSend_numbered buffer
      items := fun io hio => Nat.lt_succ_of_lt (h.items io hio)
      inOrder := ⟨[], (List.append_nil _).trans hbytes.symm⟩
      whenOpen := by
        intro _
        rw [hunsent, hbytes, List.append_nil]
        rfl }

theorem Kept.add (h : Kept s) (hopen : s.inst.ioState = .ioStateOpen) (now later : Bytes)
    (hnow : now = [] ∨ s.inst.pendingIoList = []) (cb : Option Cb) :
    Kept (((s.beginSend (now ++ later)).take now).setInst { s.inst with
      pendingIoList := s.inst.pendingIoList ++
        [{ item := s.sendCalls, bytes := later, onSendComplete := cb }] }) := by
  let s' := ((s.beginSend (now ++ later)).take now).setInst { s.inst with
    pendingIoList := s.inst.pendingIoList ++
      [{ item := s.sendCalls, bytes := later, onSendComplete := cb }] }
  have hunsent : s'.unsentBytes = s.unsentBytes ++ later := by
    by_cases hsent : s.headSent = true
    · have hne := h.headSent hsent
      have hsent' : s'.headSent = true := hsent
      simp only [ObservedSocket.unsentBytes, ObservedSocket.unsent, hsent, hsent', if_true]
      show (((s.inst.pendingIoList ++ [_]).tail).map _).flatten = _
      rw [List.tail_append_of_ne_nil hne]
      simp
    · have hsent' : ¬ s'.headSent = true := hsent
      simp only [ObservedSocket.unsentBytes, ObservedSocket.unsent, hsent, hsent']
      show ((s.inst.pendingIoList ++ [_]).map _).flatten = _
      simp
  have hbytes : s'.messageBytes = s'.taken ++ s'.unsentBytes := by
    have htaken : s'.taken = s.taken ++ now := rfl
    rw [hunsent, htaken]
    show (s.beginSend (now ++ later)).messageBytes = _
    rw [messageBytes_beginSend]
    rcases hnow with hnil | hlist
    · rw [h.whenOpen hopen, hnil]
      simp
    · have hempty : s.unsentBytes = [] := by
        simp [ObservedSocket.unsentBytes, ObservedSocket.unsent, hlist]
      rw [h.messageBytes_of_nil hopen hlist, hempty]
      simp
  exact
    { numbered := h.beginSend_numbered _
      settled := h.settled
      items := by
        intro io hio
        rcases List.mem_append.1 hio with hio | hio
        · exact Nat.lt_succ_of_lt (h.items io hio)
        · rw [List.mem_singleton.1 hio]
          exact Nat.lt_succ_self _
      distinct := by
        show ((s.inst.pendingIoList ++ [_]).map PendingSocketIo.item).Nodup
        rw [List.map_append, List.nodup_append]
        refine ⟨h.distinct, by simp, ?_⟩
        intro item hitem item' hitem'
        rcases List.mem_map.1 hitem with ⟨io, hio, rfl⟩
        rw [List.map_singleton, List.mem_singleton] at hitem'
        rw [hitem']
        exact Nat.ne_of_lt (h.items io hio)
      inOrder := ⟨s'.unsentBytes, hbytes.symm⟩
      whenOpen := fun _ => hbytes
      whenClosed := by
        intro hclosed
        have hclosed : s.inst.ioState = .ioStateClosed := hclosed
        rw [hopen] at hclosed
        cases hclosed
      headSent := by
        intro _
        show s.inst.pendingIoList ++ [_] ≠ []
        simp }

theorem Kept.addAll (h : Kept s) (hopen : s.inst.ioState = .ioStateOpen) (buffer : Bytes)
    (cb : Option Cb) :
    Kept ((s.beginSend buffer).setInst { s.inst with
      pendingIoList := s.inst.pendingIoList ++
        [{ item := s.sendCalls, bytes := buffer, onSendComplete := cb }] }) := by
  have htake : (s.beginSend ([] ++ buffer)).take [] = s.beginSend buffer := by
    simp [ObservedSocket.take]
  rw [← htake]
  exact h.add hopen [] buffer (.inl rfl) cb

theorem socketioSend_kept (h : Kept s) {buffer : Option Bytes} (cb : Option Cb) :
    wp fifoSpec (socketioSend s.sendCalls buffer cb)
      (fun r s' => r = 0 ∧ Kept s' ∧ SameHead s s' ∨
        r ≠ 0 ∧ s' = s.beginSend (buffer.getD [])) (s.beginSend (buffer.getD [])) := by
  match buffer with
  | none => exact .inr ⟨by decide, rfl⟩
  | some [] => exact .inr ⟨by decide, rfl⟩
  | some (b :: bs) =>
    have hbegun := h.inOrder.beginSend (b :: bs)
    have hinst : (s.beginSend (b :: bs)).inst = s.inst := rfl
    simp only [socketioSend, Option.getD_some, wp_bind, wp_getInst, hinst]
    by_cases hopen : s.inst.ioState = .ioStateOpen
    case neg =>
      rw [if_pos hopen]
      exact .inr ⟨by decide, rfl⟩
    rw [if_neg (not_not_intro hopen)]
    by_cases hlist : s.inst.pendingIoList = []
    case neg =>
      -- Something is on the list: the message is put behind it.
      rw [if_pos hlist]
      apply wp_addPendingIo hbegun
      refine .inl ⟨rfl, h.addAll hopen _ cb, rfl, ?_⟩
      intro hsent
      exact List.head?_append_of_ne_nil _ hlist
    have hnotSent : ¬ s.headSent = true := fun hsent => h.headSent hsent hlist
    rw [if_neg (not_not_intro hlist), wp_bind]
    apply wp_send hbegun
    case hagain =>
      apply wp_addPendingIo hbegun
      exact .inl ⟨rfl, h.addAll hopen _ cb, rfl, fun hsent => absurd hsent hnotSent⟩
    case herror => exact .inr ⟨by decide, rfl⟩
    case htaken =>
      intro n _ _
      simp only
      by_cases hall : n = (b :: bs).length
      · have hsent := h.sendAll hopen hlist (b :: bs)
        rw [if_neg (not_not_intro hall), hall, List.take_length, wp_bind]
        apply wp_callBack (fun _ => rfl) hsent
        intro s' hs' hsame
        exact .inl ⟨rfl, hs', hsame⟩
      · have hadd := h.add hopen ((b :: bs).take n) ((b :: bs).drop n) (.inr hlist) cb
        rw [List.take_append_drop] at hadd
        rw [if_pos hall]
        have htaken : InOrder ((s.beginSend (b :: bs)).take ((b :: bs).take n)) := hadd.inOrder
        apply wp_addPendingIo htaken
        exact .inl ⟨rfl, hadd, rfl, fun hsent => absurd hsent hnotSent⟩

theorem socketioSendProc_kept (h : Kept s) (buffer : Option Bytes) (cb : Option Cb) :
    wp fifoSpec (socketioSendProc buffer cb) (fun _ s' => Kept s' ∧ SameHead s s') s := by
  simp only [socketioSendProc, wp_bind, wp_get, wp_modify]
  refine wp_mono ?_ (socketioSend_kept h cb)
  intro r s' hr
  rcases hr with ⟨hr, hs'⟩ | ⟨hr, rfl⟩
  · rw [if_neg (not_not_intro hr)]
    exact hs'
  · rw [if_pos hr]
    exact ⟨h.refuse _, rfl, fun _ => rfl⟩

/-! ### The loops of `socketio_dowork` -/

section

variable {io : PendingSocketIo Cb} {rest : List (PendingSocketIo Cb)}

theorem unsentBytes_of_cons (hlist : s.inst.pendingIoList = io :: rest)
    (hhead : s.headSent = false) :
    s.unsentBytes = io.bytes ++ (rest.map PendingSocketIo.bytes).flatten := by
  simp [ObservedSocket.unsentBytes, ObservedSocket.unsent, hlist, hhead]

theorem Kept.rest_distinct (h : Kept s) (hlist : s.inst.pendingIoList = io :: rest) :
    (∀ io' ∈ rest, io'.item ≠ io.item) ∧ (rest.map PendingSocketIo.item).Nodup := by
  have hnodup := h.distinct
  rw [hlist, List.map_cons, List.nodup_cons] at hnodup
  refine ⟨?_, hnodup.2⟩
  intro io' hio' heq
  exact hnodup.1 (heq ▸ List.mem_map_of_mem hio')

/-- `send` takes bytes of the list only when the instance is open. -/
theorem Kept.open_of_taken (h : Kept s) (hlist : s.inst.pendingIoList = io :: rest) {n : Nat}
    (hn : n = 0 ∨ s.inst.socket ≠ none ∧ s.inst.ioState ≠ .ioStateError) :
    n = 0 ∨ s.inst.ioState = .ioStateOpen := by
  rcases hn with hn | ⟨hsocket, herror⟩
  · exact .inl hn
  · cases hstate : s.inst.ioState with
    | ioStateOpen => exact .inr rfl
    | ioStateError => exact absurd hstate herror
    | ioStateOpening => exact absurd hstate h.settled.1
    | ioStateClosing => exact absurd hstate h.settled.2
    | ioStateClosed =>
      rcases h.whenClosed hstate with hnone | hnil
      · exact absurd hnone hsocket
      · rw [hlist] at hnil
        cases hnil

theorem Kept.take_inOrder (h : Kept s) (hlist : s.inst.pendingIoList = io :: rest)
    (hhead : s.headSent = false) {n : Nat} (hn : n = 0 ∨ s.inst.ioState = .ioStateOpen) :
    InOrder (s.take (io.bytes.take n)) := by
  rcases hn with rfl | hopen
  · simpa [InOrder, ObservedSocket.take, ObservedSocket.messageBytes] using h.inOrder
  · have hall := h.whenOpen hopen
    rw [unsentBytes_of_cons hlist hhead, ← List.take_append_drop n io.bytes] at hall
    refine ⟨io.bytes.drop n ++ (rest.map PendingSocketIo.bytes).flatten, ?_⟩
    calc
      (s.take (io.bytes.take n)).taken ++ (io.bytes.drop n ++ _)
          = s.taken ++ (io.bytes.take n ++ io.bytes.drop n ++ _) := by
            simp only [ObservedSocket.take, List.append_assoc]
      _ = s.messageBytes := hall.symm

theorem Kept.takePart (h : Kept s) (hlist : s.inst.pendingIoList = io :: rest)
    (hhead : s.headSent = false) {n : Nat} (hn : n = 0 ∨ s.inst.ioState = .ioStateOpen) :
    Kept ((s.take (io.bytes.take n)).setInst { s.inst with
      pendingIoList := s.inst.pendingIoList.modifyHead fun io =>
        { io with bytes := io.bytes.drop n } }) := by
  have hmodified : s.inst.pendingIoList.modifyHead (fun io => { io with bytes := io.bytes.drop n }) =
      { io with bytes := io.bytes.drop n } :: rest := by
    rw [hlist]
    rfl
  rw [hmodified]
  have hinOrder := h.take_inOrder hlist hhead hn
  have hdistinct := h.distinct
  have hitems := h.items
  rw [hlist] at hdistinct hitems
  exact
    { h with
      items := by
        intro io' hio'
        rcases List.mem_cons.1 hio' with rfl | hio'
        · exact hitems io (List.mem_cons_self ..)
        · exact hitems io' (List.mem_cons_of_mem _ hio')
      distinct := hdistinct
      inOrder := hinOrder
      whenOpen := by
        intro hopen
        have hall := h.whenOpen hopen
        rw [unsentBytes_of_cons hlist hhead, ← List.take_append_drop n io.bytes] at hall
        let s' := (s.take (io.bytes.take n)).setInst { s.inst with
          pendingIoList := { io with bytes := io.bytes.drop n } :: rest }
        have hunsent : s'.unsentBytes = io.bytes.drop n ++ (rest.map PendingSocketIo.bytes).flatten :=
          unsentBytes_of_cons (s := s') rfl hhead
        calc
          s.messageBytes
              = s.taken ++ (io.bytes.take n ++ io.bytes.drop n ++ _) := hall
          _ = (s.taken ++ io.bytes.take n) ++ (io.bytes.drop n ++ _) := by
                simp only [List.append_assoc]
          _ = s'.taken ++ s'.unsentBytes := congrArg (s'.taken ++ ·) hunsent.symm
      whenClosed := by
        intro hclosed
        rcases h.whenClosed hclosed with hnone | hnil
        · exact .inl hnone
        · rw [hlist] at hnil
          cases hnil
      headSent := nofun }

theorem Kept.takeAll (h : Kept s) (hlist : s.inst.pendingIoList = io :: rest)
    (hhead : s.headSent = false)
    (hn : io.bytes.length = 0 ∨ s.inst.ioState = .ioStateOpen) :
    Kept { s.take io.bytes with headSent := true } := by
  have hinOrder := h.take_inOrder hlist hhead hn
  rw [List.take_length] at hinOrder
  exact
    { h with
      inOrder := hinOrder
      whenOpen := by
        intro hopen
        have hall := h.whenOpen hopen
        rw [unsentBytes_of_cons hlist hhead] at hall
        have hunsent : ObservedSocket.unsentBytes { s.take io.bytes with headSent := true } =
            (rest.map PendingSocketIo.bytes).flatten := by
          have htail : s.inst.pendingIoList.tail = rest := by rw [hlist, List.tail_cons]
          simp [ObservedSocket.unsentBytes, ObservedSocket.unsent, ObservedSocket.take, htail]
        rw [hunsent]
        calc
          s.messageBytes = s.taken ++ (io.bytes ++ _) := hall
          _ = (s.taken ++ io.bytes) ++ _ := (List.append_assoc ..).symm
      headSent := by
        intro _
        show s.inst.pendingIoList ≠ []
        simp [hlist] }

theorem Kept.removeSent (h : Kept s) (hlist : s.inst.pendingIoList = io :: rest)
    (hhead : s.headSent = true) :
    Kept ({ s with headSent := false }.setInst { s.inst with pendingIoList := rest }) := by
  have hitems := h.items
  rw [hlist] at hitems
  exact
    { h with
      items := fun io' hio' => hitems io' (List.mem_cons_of_mem _ hio')
      distinct := (h.rest_distinct hlist).2
      whenOpen := by
        intro hopen
        have hall := h.whenOpen hopen
        have hunsent : s.unsentBytes = (rest.map PendingSocketIo.bytes).flatten := by
          simp [ObservedSocket.unsentBytes, ObservedSocket.unsent, hlist, hhead]
        rw [hunsent] at hall
        exact hall
      whenClosed := by
        intro hclosed
        rcases h.whenClosed hclosed with hnone | hnil
        · exact .inl hnone
        · rw [hlist] at hnil
          cases hnil
      headSent := nofun }

/-- The first list item is dropped; the order is kept, but something is missing from then on. -/
theorem Kept.dropFirst (h : Kept s) (hlist : s.inst.pendingIoList = io :: rest)
    (hhead : s.headSent = false) :
    Kept (s.setInst { s.inst with pendingIoList := rest, ioState := .ioStateError }) := by
  have hitems := h.items
  rw [hlist] at hitems
  exact
    { h with
      settled := ⟨nofun, nofun⟩
      items := fun io' hio' => hitems io' (List.mem_cons_of_mem _ hio')
      distinct := (h.rest_distinct hlist).2
      whenOpen := nofun
      whenClosed := nofun
      headSent := by
        intro hsent
        have hsent : s.headSent = true := hsent
        rw [hhead] at hsent
        cases hsent }

end

theorem sendPending_kept (h : Kept s) (hhead : s.headSent = false) :
    wp fifoSpec sendPending (fun _ s' => Kept s' ∧ SameHead s s') s := by
  simp only [sendPending, wp_bind, wp_getInst]
  cases hlist : s.inst.pendingIoList with
  | nil => exact ⟨h, SameHead.refl s⟩
  | cons io rest =>
    -- From a state with no item in completion the loop goes on, and leaves it so.
    have hloop : ∀ s₁, Kept s₁ → s₁.headSent = false →
        wp fifoSpec (callProc .sendPending) (fun _ s' => Kept s' ∧ SameHead s s') s₁ := by
      intro s₁ h₁ hhead₁
      rw [wp_callProc]
      refine ⟨⟨h₁, hhead₁⟩, ?_⟩
      rintro r s' ⟨hs', hsame⟩
      refine ⟨hs', hsame.1.trans (hhead₁.trans hhead.symm), ?_⟩
      intro hsent
      rw [hhead] at hsent
      cases hsent
    have hsame : ∀ {s'}, s'.headSent = false → SameHead s s' := by
      intro s' hs'
      refine ⟨hs'.trans hhead.symm, ?_⟩
      intro hsent
      rw [hhead] at hsent
      cases hsent
    have hrest := h.rest_distinct hlist
    simp only [wp_bind]
    apply wp_send h.inOrder
    case hagain => exact ⟨h, SameHead.refl s⟩
    case herror =>
      simp only [wp_bind]
      apply removePendingIo_head hlist hrest.1
      simp only [wp_modifyInst]
      apply wp_indicateError (h.dropFirst hlist hhead)
      intro s₁ h₁ hsame₁
      exact hloop s₁ h₁ (hsame₁.1.trans hhead)
    case htaken =>
      intro n hle hn
      have hn := h.open_of_taken hlist hn
      simp only
      by_cases hall : n = io.bytes.length
      · subst hall
        rw [if_neg (not_not_intro rfl), List.take_length]
        simp only [wp_bind, wp_modify]
        apply wp_callBack (fun _ => rfl) (h.takeAll hlist hhead hn)
        intro s₁ h₁ hsame₁
        -- The callback has left the first item where it was.
        have hfirst : s₁.inst.pendingIoList.head? = some io := by
          rw [hsame₁.2 rfl]
          show s.inst.pendingIoList.head? = _
          rw [hlist, List.head?_cons]
        rcases List.head?_eq_some_iff.1 hfirst with ⟨rest₁, hlist₁⟩
        simp only [wp_modify]
        apply removePendingIo_head (s := { s₁ with headSent := false }) hlist₁
          (h₁.rest_distinct hlist₁).1
        simp only [Bool.true_eq_false, if_false]
        exact hloop _ (h₁.removeSent hlist₁ hsame₁.1) rfl
      · rw [if_pos hall]
        simp only [wp_bind, wp_modifyInst, wp_pure]
        exact ⟨h.takePart hlist hhead hn, hsame hhead⟩

theorem receiveBytes_kept (h : Kept s) :
    wp fifoSpec receiveBytes (fun _ s' => Kept s' ∧ SameHead s s') s := by
  simp only [receiveBytes, wp_bind, wp_getInst]
  apply wp_ask_local rfl h.inOrder
  intro r _
  have herror : wp fifoSpec indicateError (fun _ s' => Kept s' ∧ SameHead s s') s :=
    wp_indicateError h fun s' hs' hsame => ⟨hs', hsame⟩
  cases r with
  | received bytes =>
    simp only [wp_bind]
    apply wp_callBack (fun _ => rfl) h
    intro s₁ h₁ hsame₁
    simp only [wp_getInst]
    split
    · rw [wp_callProc]
      refine ⟨⟨h₁, trivial⟩, ?_⟩
      rintro r s' ⟨hs', hsame⟩
      exact ⟨hs', hsame₁.trans hsame⟩
    · exact ⟨h₁, hsame₁⟩
  | again => exact ⟨h, SameHead.refl s⟩
  | closed =>
    simp only [wp_bind]
    exact herror
  | error =>
    simp only [wp_bind]
    exact herror

theorem socketioDowork_kept (h : Kept s) (hhead : s.headSent = false) :
    wp fifoSpec socketioDowork (fun _ s' => Kept s' ∧ SameHead s s') s := by
  simp only [socketioDowork, wp_bind, wp_callProc]
  refine ⟨⟨h, hhead⟩, ?_⟩
  rintro r s₁ ⟨h₁, hsame₁⟩
  simp only [wp_getInst]
  split
  · rw [wp_callProc]
    refine ⟨⟨h₁, trivial⟩, ?_⟩
    rintro r s' ⟨hs', hsame⟩
    exact ⟨hs', hsame₁.trans hsame⟩
  · exact ⟨h₁, hsame₁⟩

end

/-! ## Every run -/

theorem mayEnter_callback {top : Option (Call Cb)} {p : Proc Cb} {s : ObservedSocket Cb}
    (h : orderedRun.mayEnter top p s = true) : ∀ c ∈ top, c.isCallback = true := by
  intro c hc
  cases hc
  simp only [orderedRun, anyRun, Bool.and_eq_true] at h
  exact h.1.1

theorem kept_of_mayEnter {top : Option (Call Cb)} {p : Proc Cb} {s : ObservedSocket Cb}
    (hinv : fifoContract.inv top s) (h : orderedRun.mayEnter top p s = true) : Kept s := by
  cases top with
  | none => exact hinv
  | some c =>
    have hc := mayEnter_callback h c rfl
    have hinv : if c.isCallback then Kept s else InOrder s := hinv
    rwa [if_pos hc] at hinv

theorem fifo_holds : (fifoContract : Contract (ObservedSocket Cb) _).Holds socketioCode
    orderedRun where
  code_meets := by
    intro p s hpre _
    cases p with
    | socketioOpen oc ob oe => exact socketioOpen_kept hpre.1 hpre.2 oc ob oe
    | socketioClose cb => exact socketioClose_kept hpre.1 cb
    | socketioSend buffer cb => exact socketioSendProc_kept hpre.1 buffer cb
    | socketioDowork => exact socketioDowork_kept hpre.1 hpre.2
    | socketioDestroy => exact hpre.2.elim
    | sendPending => exact sendPending_kept hpre.1 hpre.2
    | receiveBytes => exact receiveBytes_kept hpre.1
  call_inv := by
    intro c s hpre
    refine ⟨hpre, ?_⟩
    show if c.isCallback then SameHead s s else s = s
    split
    · exact SameHead.refl s
    · rfl
  enter_pre := by
    intro top p s hinv hmay
    refine ⟨kept_of_mayEnter hinv hmay, ?_⟩
    cases p with
    | socketioOpen oc ob oe =>
      intro hclosed
      simpa [orderedRun, hclosed] using (Bool.and_eq_true_iff.1 hmay).2
    | socketioDowork =>
      have hcond := (Bool.and_eq_true_iff.1 hmay).2
      simp only [Bool.and_eq_true, Bool.not_eq_true'] at hcond
      exact hcond.1
    | socketioDestroy => simp [orderedRun, anyRun] at hmay
    | sendPending => simp [orderedRun, anyRun] at hmay
    | socketioClose cb => trivial
    | socketioSend buffer cb => trivial
    | receiveBytes => trivial
  post_inv := by
    intro top p s r s' _ hmay hpost
    cases top with
    | none => exact hpost.1
    | some c =>
      show if c.isCallback then Kept s' else InOrder s'
      rw [if_pos (mayEnter_callback hmay c rfl)]
      exact hpost.1
  post_during := by
    intro c p s₀ s r s' hduring _ hmay hpost
    have hc := mayEnter_callback hmay c rfl
    have hduring : if c.isCallback then SameHead s₀ s else s = s₀ := hduring
    show if c.isCallback then SameHead s₀ s' else s' = s₀
    rw [if_pos hc] at hduring ⊢
    exact hduring.trans hpost.2
  answer_post := by
    intro c s₀ s r hduring hinv hmay
    have hduring : if c.isCallback then SameHead s₀ s else s = s₀ := hduring
    have hinv : if c.isCallback then Kept s else InOrder s := hinv
    show if c.isCallback then Kept s ∧ SameHead s₀ s
      else s = s₀ ∧ orderedRun.mayAnswer c r s₀ = true
    by_cases hc : c.isCallback = true
    · rw [if_pos hc] at hduring hinv ⊢
      exact ⟨hinv, hduring⟩
    · rw [if_neg hc] at hduring ⊢
      exact ⟨hduring, hduring ▸ hmay⟩

theorem Created.kept {s : ObservedSocket Cb} (h : Created s) : Kept s where
  numbered := by simp [h.messages]
  settled := by simp [h.ioState]
  items := by simp [h.pendingIoList]
  distinct := by simp [h.pendingIoList]
  inOrder := by
    rw [InOrder, h.taken]
    exact List.nil_prefix
  whenOpen := by simp [h.ioState]
  whenClosed := fun _ => .inr h.pendingIoList
  headSent := by simp [h.headSent]

theorem idleWhenClosed {top : Option (Call Cb)} {s : ObservedSocket Cb}
    (h : orderedRun.mayEnter top .socketioDowork s = true) : IdleWhenClosed s := by
  intro hclosed
  have hcond := (Bool.and_eq_true_iff.1 h).2
  have hlist : s.inst.pendingIoList = [] := by
    simp only [hclosed, bne_self_eq_false, Bool.false_or, Bool.and_eq_true, Bool.not_eq_true',
      List.isEmpty_iff] at hcond
    simpa [ObservedSocket.unsent, hcond.1] using hcond.2
  have hquiet : Quiet socketioCode (fun _ _ => False) (socketioCode .socketioDowork)
      (fun r s' => r = 0 ∧ s' = s) s := by
    simp [socketioCode, socketioDowork, callProc, sendPending, getInst, hlist, hclosed]
  rcases hquiet.exists_eval with ⟨r, s', heval, rfl, rfl⟩
  exact heval

/-- In a run that meets the condition, what is sent on a connection is what was accepted on it, and
`socketio_dowork` leaves a closed instance alone. -/
theorem sent_inOrder {s₀ s : ObservedSocket Cb} {st : List (Frame (ObservedSocket Cb) _)}
    (h₀ : Created s₀) (h : Reachable socketioCode orderedRun s₀ (.env s st)) :
    InOrder s ∧ ∀ top, orderedRun.mayEnter top .socketioDowork s = true → IdleWhenClosed s := by
  have hinv := Contract.reachable_inv fifo_holds h₀.kept h
  refine ⟨?_, fun top => idleWhenClosed⟩
  have hcases : Kept s ∨ InOrder s := by
    cases hpending : pendingCall st with
    | none =>
      rw [hpending] at hinv
      exact .inl hinv
    | some c =>
      rw [hpending] at hinv
      have hinv : if c.isCallback then Kept s else InOrder s := hinv
      split at hinv
      · exact .inl hinv
      · exact .inr hinv
  rcases hcases with hkept | horder
  · exact hkept.inOrder
  · exact horder

def createdSocket : ObservedSocket Nat where
  inst := { socket := none }

/-- Surroundings in which only `send` may fail. -/
def answersWith (sendResult : Bytes → SendResult) : (c : Call Nat) → Ans c
  | .malloc => true
  | .connect => .ok 3
  | .send _ bytes => sendResult bytes
  | .recv _ => .again
  | .shutdown _ => ()
  | .close _ => ()
  | .onIoOpenComplete _ _ _ => ()
  | .onIoCloseComplete _ => ()
  | .onSendComplete _ _ => ()
  | .onBytesReceived _ _ => ()
  | .onIoError _ => ()

def takesAll (bytes : Bytes) : SendResult :=
  .taken bytes.length

/-- Two messages in order: one byte of the first is sent at once, the rest from the list. -/
def sendTwo : List (Input (socketIoSignature Nat)) :=
  [.enter (.socketioOpen none none none), .answer (answersWith takesAll),
    .enter (.socketioSend (some [0x41, 0x42]) none),
    .answer (answersWith fun _ => .taken 1), .answer (answersWith takesAll),
    .answer (answersWith takesAll), .answer (answersWith takesAll),
    .enter (.socketioSend (some [0x43]) none),
    .answer (answersWith takesAll), .answer (answersWith takesAll), .answer (answersWith takesAll),
    .enter .socketioDowork, .answer (answersWith takesAll), .answer (answersWith takesAll),
    .answer (answersWith takesAll)]

theorem sent_inOrder_sendTwo :
    ∃ s st, Reachable socketioCode orderedRun createdSocket (.env s st) ∧
      s.taken = [0x41, 0x42, 0x43] ∧ InOrder s := by
  have hrun : ∃ s st, orderedRun.runInputs socketioCode 20 (.env createdSocket []) sendTwo =
      some (.env s st) ∧ s.taken = [0x41, 0x42, 0x43] := ⟨_, _, rfl, rfl⟩
  rcases hrun with ⟨s, st, hrun, htaken⟩
  have hreach := Env.runInputs_sound _ hrun
  exact ⟨s, st, hreach, htaken, (sent_inOrder ⟨rfl, rfl, rfl, rfl, rfl⟩ hreach).1⟩

/-- A message left on the list by a close is sent on the next connection. -/
def sendStale : List (Input (socketIoSignature Nat)) :=
  [.enter (.socketioOpen none none none), .answer (answersWith takesAll),
    .enter (.socketioSend (some [0x41]) none),
    .answer (answersWith fun _ => .again), .answer (answersWith takesAll),
    .answer (answersWith takesAll), .answer (answersWith takesAll),
    .enter (.socketioClose none), .answer (answersWith takesAll), .answer (answersWith takesAll),
    .enter (.socketioOpen none none none), .answer (answersWith takesAll),
    .enter .socketioDowork, .answer (answersWith takesAll)]

theorem stale_sent :
    ¬ ∀ (s₀ s : ObservedSocket Nat) (st : List (Frame (ObservedSocket Nat) _)),
        Created s₀ → Reachable socketioCode anyRun s₀ (.env s st) →
          InOrder s ∧ ∀ top, anyRun.mayEnter top .socketioDowork s = true → IdleWhenClosed s := by
  intro h
  have hrun : ∃ s st, anyRun.runInputs socketioCode 20 (.env createdSocket []) sendStale =
      some (.env s st) ∧ s.taken = [0x41] ∧ s.messages = [] := ⟨_, _, rfl, rfl, rfl⟩
  rcases hrun with ⟨s, st, hrun, htaken, hmessages⟩
  have horder := (h _ _ _ ⟨rfl, rfl, rfl, rfl, rfl⟩ (Env.runInputs_sound _ hrun)).1
  rw [InOrder, ObservedSocket.messageBytes, htaken, hmessages] at horder
  exact absurd (List.prefix_nil.1 horder) (by decide)

end SharedUtility.SocketIo
