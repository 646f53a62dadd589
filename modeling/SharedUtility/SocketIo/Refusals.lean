import SharedUtility.SocketIo.Code

/-!
# Refusals — a `socketio_send` that returns non-zero

* `Outcomes`, `Ends` — what `send` and the allocator return, and all ways in which a call can then end,
* `Silent`           — a refused call has left nothing behind,
* `Splits`           — `send` takes a part of the message, and the rest is not queued,
* `refusal_silent_iff` — a call leaves something behind exactly when it splits its message.
-/

namespace SharedUtility.SocketIo

open Reentrant

variable {Cb : Type}

/-- What `send` returns, and what `malloc` does at its first call, at the second, and so on. -/
structure Outcomes where
  sendResult : SendResult
  allocated : Nat → Bool

/-- The three allocations of `add_pending_io` succeed. -/
def Outcomes.memory (o : Outcomes) : Bool :=
  o.allocated 0 && o.allocated 1 && o.allocated 2

/-- Every way in which a run with these outcomes ends is in `Q`; `mallocs` calls of `malloc` have been made.
The user's callbacks may leave any state behind. -/
def Ends (o : Outcomes) (Q : Int → ObservedSocket Cb → Prop) :
    (mallocs : Nat) → Prog (ObservedSocket Cb) (socketIoSignature Cb) Int → Prop
  | _, .ret r s => Q r s
  | mallocs, .call .malloc s k => Ends o Q (mallocs + 1) (k (o.allocated mallocs) s)
  | mallocs, .call (.send _ _) s k => Ends o Q mallocs (k o.sendResult s)
  | mallocs, .call _ _ k => ∀ r s', Ends o Q mallocs (k r s')
  | mallocs, .proc _ _ k => ∀ r s', Ends o Q mallocs (k r s')

/-- Nothing has been written, the queue is as before, and what can happen afterwards is what could have happened
without the call. -/
structure Silent (s s' : ObservedSocket Cb) : Prop where
  written : s'.taken = s.taken
  queue : s'.inst.pendingIoList = s.inst.pendingIoList
  later : ∀ (env : Env (ObservedSocket Cb) (socketIoSignature Cb)) config,
    Reachable socketioCode env s' config ↔ Reachable socketioCode env s config

/-- Some bytes of the message are written, and there is no memory for the rest. -/
structure Splits (s : ObservedSocket Cb) (buffer : Option Bytes) (o : Outcomes) : Prop where
  message : buffer.getD [] ≠ []
  isOpen : s.inst.ioState = .ioStateOpen
  noneQueued : s.inst.pendingIoList = []
  part : ∃ n, o.sendResult = .taken n ∧ n ≠ 0 ∧ n ≠ (buffer.getD []).length
  noMemory : o.memory = false

section

variable {o : Outcomes} {Q : Int → ObservedSocket Cb → Prop} {s : ObservedSocket Cb}

theorem Silent.refl (s : ObservedSocket Cb) : Silent s s :=
  ⟨rfl, rfl, fun _ _ => Iff.rfl⟩

theorem take_nil (s : ObservedSocket Cb) : s.take [] = s := by
  rw [ObservedSocket.take, List.append_nil]

theorem not_silent_take {n : Nat} {b : UInt8} {bs : Bytes} (hpos : n ≠ 0) :
    ¬ Silent s (s.take ((b :: bs).take n)) := by
  intro h
  have hnil := List.append_right_eq_self.1 h.written
  rw [List.take_eq_nil_iff] at hnil
  rcases hnil with hzero | hnil
  · exact hpos hzero
  · cases hnil

/-- With memory the bytes are queued; without it `add_pending_io` leaves the instance as it is. -/
theorem addPendingIo_ends (item : Nat) (buffer : Bytes) (cb : Option Cb) (hadded : ∀ s', Q 0 s') :
    Ends o Q 0 (addPendingIo item buffer cb s) ↔ (o.memory = false → Q failure s) := by
  unfold addPendingIo Outcomes.memory
  cases h0 : o.allocated 0 with
  | false => simp [Comp.bind_apply, ask, Comp.call, Prog.bind, Ends, h0, Comp.pure_apply]
  | true =>
    cases h1 : o.allocated 1 with
    | false => simp [Comp.bind_apply, ask, Comp.call, Prog.bind, Ends, h0, h1, Comp.pure_apply]
    | true =>
      cases h2 : o.allocated 2 with
      | false => simp [Comp.bind_apply, ask, Comp.call, Prog.bind, Ends, h0, h1, h2, Comp.pure_apply]
      | true =>
        simp [Comp.bind_apply, ask, Comp.call, Prog.bind, Ends, h0, h1, h2, Comp.pure_apply, modifyInst,
          Comp.modify, hadded]

section

variable {sendId : Nat} {b : UInt8} {bs : Bytes} {cb : Option Cb}

theorem socketioSend_notOpen (h : s.inst.ioState ≠ .ioStateOpen) :
    socketioSend sendId (some (b :: bs)) cb s = .ret failure s := by
  unfold socketioSend
  simp only [Comp.bind_apply, getInst, Comp.get, Prog.bind, Comp.pure_apply, if_pos h]

theorem socketioSend_queued (h : s.inst.ioState = .ioStateOpen) (hlist : s.inst.pendingIoList ≠ []) :
    socketioSend sendId (some (b :: bs)) cb s = addPendingIo sendId (b :: bs) cb s := by
  unfold socketioSend
  simp only [Comp.bind_apply, getInst, Comp.get, Prog.bind, Comp.pure_apply, if_neg (not_not.2 h), if_pos hlist]

/-- The message is handed to `send`. -/
theorem socketioSend_ends (h : s.inst.ioState = .ioStateOpen) (hlist : s.inst.pendingIoList = []) :
    Ends o Q 0 (socketioSend sendId (some (b :: bs)) cb s) ↔
      match o.sendResult with
      | .error => Q failure s
      | .again => Ends o Q 0 (addPendingIo sendId (b :: bs) cb s)
      | .taken n =>
        if n ≠ (b :: bs).length then
          Ends o Q 0 (addPendingIo sendId ((b :: bs).drop n) cb (s.take ((b :: bs).take n)))
        else
          Ends o Q 0 ((do callBack cb fun cb => .onSendComplete cb .ioSendOk; pure 0 : SocketIoComp Cb Int)
            (s.take ((b :: bs).take n))) := by
  unfold socketioSend
  simp only [Comp.bind_apply, getInst, Comp.get, Prog.bind, Comp.pure_apply, if_neg (not_not.2 h),
    if_neg (not_not.2 hlist), send, ask, Comp.call, Ends]
  cases o.sendResult with
  | error => exact Iff.rfl
  | again => exact Iff.rfl
  | taken n =>
    dsimp only [Comp.bind_apply, Comp.modify, Prog.bind, Comp.pure_apply]
    split_ifs
    · exact Iff.rfl
    · exact Iff.rfl

/-- A message that `send` has taken as a whole is accepted. -/
theorem callBack_ends (h : ∀ s', Q 0 s') (c : Cb → Call Cb) (hc : ∀ cb, (c cb).isCallback = true) :
    Ends o Q 0 ((do callBack cb c; pure 0 : SocketIoComp Cb Int) s) := by
  cases cb with
  | none => exact h s
  | some cb =>
    have hcb := hc cb
    revert hcb
    simp only [callBack, Comp.bind_apply, ask, Comp.call, Prog.bind, Comp.pure_apply]
    cases c cb with
    | _ => simp [Call.isCallback, Ends, h]

end

end

/-- Whatever the instance, the message and the outcomes: a refused call is silent unless the message is split. -/
theorem refusal_silent_iff (s : ObservedSocket Cb) (sendId : Nat) (buffer : Option Bytes) (cb : Option Cb)
    (o : Outcomes) :
    Ends o (fun r s' => r ≠ 0 → Silent s s') 0 (socketioSend sendId buffer cb s) ↔
      ¬ Splits s buffer o := by
  have haccepted : ∀ s', (0 : Int) ≠ 0 → Silent s s' := fun _ hne => absurd rfl hne
  have hrefused : failure ≠ 0 → Silent s s := fun _ => Silent.refl s
  match buffer with
  | none => exact iff_of_true hrefused fun h => h.message rfl
  | some [] => exact iff_of_true hrefused fun h => h.message rfl
  | some (b :: bs) =>
    by_cases hopen : s.inst.ioState = .ioStateOpen
    case neg =>
      rw [socketioSend_notOpen hopen]
      exact iff_of_true hrefused fun h => hopen h.isOpen
    by_cases hlist : s.inst.pendingIoList = []
    case neg =>
      rw [socketioSend_queued hopen hlist, addPendingIo_ends _ _ _ haccepted]
      exact iff_of_true (fun _ => hrefused) fun h => hlist h.noneQueued
    rw [socketioSend_ends hopen hlist]
    cases hsend : o.sendResult with
    | error =>
      refine iff_of_true hrefused fun h => ?_
      rcases h.part with ⟨n, hn, -⟩
      cases hsend.symm.trans hn
    | again =>
      dsimp only
      rw [addPendingIo_ends _ _ _ haccepted]
      refine iff_of_true (fun _ => hrefused) fun h => ?_
      rcases h.part with ⟨n, hn, -⟩
      cases hsend.symm.trans hn
    | taken n =>
      dsimp only
      by_cases hall : n = (b :: bs).length
      case pos =>
        rw [if_neg (not_not.2 hall)]
        refine iff_of_true (callBack_ends haccepted _ fun _ => rfl) fun h => ?_
        rcases h.part with ⟨m, hm, -, hne⟩
        obtain rfl : n = m := SendResult.taken.inj (hsend.symm.trans hm)
        exact hne hall
      case neg =>
        rw [if_pos hall, addPendingIo_ends _ _ _ haccepted]
        constructor
        · intro hsilent h
          rcases h.part with ⟨m, hm, hpos, -⟩
          obtain rfl : n = m := SendResult.taken.inj (hsend.symm.trans hm)
          exact not_silent_take hpos (hsilent h.noMemory failure_ne_zero)
        · intro hsplits hmemory _
          cases n with
          | zero =>
            rw [List.take_zero, take_nil]
            exact Silent.refl s
          | succ n =>
            exact absurd ⟨List.cons_ne_nil b bs, hopen, hlist,
              ⟨n + 1, hsend, Nat.succ_ne_zero n, hall⟩, hmemory⟩ hsplits

/-- An open connection, `send` takes one byte of two, and the first allocation fails. -/
def openSocket : ObservedSocket Nat where
  inst := { socket := some 0, ioState := .ioStateOpen }

def oneByteTaken : Outcomes where
  sendResult := .taken 1
  allocated := fun _ => false

/-- The call returns non-zero, and its first byte is on the wire. -/
theorem half_message_refused :
    ¬ Ends oneByteTaken (fun r s' => r ≠ 0 → Silent openSocket s') 0
        (socketioSend 0 (some [1, 2]) none openSocket) ∧
      Ends oneByteTaken (fun r s' => r ≠ 0 ∧ s'.taken = [1]) 0
        (socketioSend 0 (some [1, 2]) none openSocket) := by
  constructor
  · intro h
    rw [socketioSend_ends rfl rfl] at h
    exact not_silent_take Nat.one_ne_zero ((addPendingIo_ends _ _ _ fun _ hne => absurd rfl hne).1 h rfl
      failure_ne_zero)
  · exact ⟨failure_ne_zero, rfl⟩

end SharedUtility.SocketIo
