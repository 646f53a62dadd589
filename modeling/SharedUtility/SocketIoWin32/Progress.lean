import SharedUtility.Reentrant.Quiet
import SharedUtility.SocketIoWin32.SendLaw

/-!
# Progress — a `socketio_dowork` whose sends succeed completes what is queued

As in `SocketIo.Progress`: the loop sends and completes one list item after another
(`sendPending_drains`), so `socketio_dowork` comes back with nothing left to complete (`dowork_completes`).
-/

namespace SharedUtility.SocketIoWin32

open Reentrant RelyGuarantee SocketIo

variable {Cb : Type}

/-- `send` takes all that it is given, nothing is received, and no callback calls the instance. -/
def sendsSucceed : (c : Call Cb) → Ans c → Prop
  | .send _ bytes, r => r.taken = some bytes.length
  | .recv _, r => ∀ bytes, r ≠ .received bytes
  | _, _ => True

/-- The list items have been sent and completed, and nothing else has happened. -/
structure Drained (items : List (PendingSocketIo Cb)) (s s' : ObservedWin32 Cb) : Prop where
  list : s'.list = []
  completed : s'.completed = s.completed ++ callbackItems items
  taken : s'.taken = s.taken ++ bytesOf items
  owed : s'.owed = s.owed

/-! ## Rules -/

section

variable {s : ObservedWin32 Cb}

@[simp] theorem quiet_getInst (Q : SocketIoInstance Cb → ObservedWin32 Cb → Prop) :
    Quiet win32Code sendsSucceed getInst Q s ↔ Q s.inst s := by
  simp [getInst]

@[simp] theorem quiet_modifyInst (f : SocketIoInstance Cb → SocketIoInstance Cb)
    (Q : Unit → ObservedWin32 Cb → Prop) :
    Quiet win32Code sendsSucceed (modifyInst f) Q s ↔ Q () (s.setInst (f s.inst)) := by
  simp [modifyInst]

theorem quiet_ask {c : Call Cb} {Q : Ans c → ObservedWin32 Cb → Prop} (hsome : ∃ r, sendsSucceed c r)
    (hQ : ∀ r, sendsSucceed c r → Q r s) : Quiet win32Code sendsSucceed (ask c) Q s :=
  (quiet_call _ _).2 ⟨hsome, hQ⟩

theorem quiet_callProc {p : Proc Cb} {Q : Int → ObservedWin32 Cb → Prop}
    (h : Quiet win32Code sendsSucceed (win32Code p) Q s) : Quiet win32Code sendsSucceed (callProc p) Q s :=
  (quiet_proc _ _).2 h

theorem quiet_send {socket : Option Nat} {bytes : Bytes} {Q : Sent → ObservedWin32 Cb → Prop}
    (h : ∀ r, r.taken = some bytes.length → Q r (s.take bytes)) :
    Quiet win32Code sendsSucceed (send socket bytes) Q s := by
  simp only [send, quiet_bind]
  refine quiet_ask ⟨⟨some bytes.length, false⟩, rfl⟩ ?_
  intro r htaken
  simp only [quiet_bind, quiet_modify, quiet_pure]
  rw [show r.taken = some bytes.length from htaken, Option.getD_some, List.take_length]
  exact h r htaken

theorem quiet_indicateError {Q : Unit → ObservedWin32 Cb → Prop} (h : Q () s) :
    Quiet win32Code sendsSucceed indicateError Q s := by
  simp only [indicateError, quiet_bind, quiet_getInst]
  cases s.inst.onIoError with
  | none => exact (quiet_pure _ _).2 h
  | some cb =>
    simp only [callBack, quiet_bind]
    exact quiet_ask ⟨(), trivial⟩ fun _ _ => (quiet_pure _ _).2 h

theorem quiet_sendComplete {io : PendingSocketIo Cb} {Q : Unit → ObservedWin32 Cb → Prop}
    (h : Q () { s with completed := s.completed ++ if callsBack io then [io.item] else [] }) :
    Quiet win32Code sendsSucceed (sendComplete io.item io.onSendComplete) Q s := by
  unfold callsBack at h
  cases hcb : io.onSendComplete with
  | none =>
    rw [hcb, Option.isSome_none, if_neg Bool.false_ne_true, List.append_nil] at h
    exact (quiet_pure _ _).2 h
  | some cb =>
    rw [hcb, Option.isSome_some, if_pos rfl] at h
    simp only [sendComplete, quiet_bind, quiet_modify]
    exact quiet_ask ⟨(), trivial⟩ fun _ _ => (quiet_pure _ _).2 h

theorem quiet_removeHead {io : PendingSocketIo Cb} {rest : List (PendingSocketIo Cb)}
    {Q : Bool → ObservedWin32 Cb → Prop} (hlist : s.inst.pendingIoList = io :: rest)
    (hdistinct : ((io :: rest).map PendingSocketIo.item).Nodup) (hQ : Q true (s.setList rest)) :
    Quiet win32Code sendsSucceed (removePendingIo io.item) Q s := by
  simp only [removePendingIo, quiet_bind, quiet_getInst]
  rw [if_neg (by simp [hlist])]
  simp only [quiet_bind, quiet_modifyInst, quiet_pure, hlist, filter_first (item_ne_first hdistinct)]
  exact hQ

end

/-! ## The loops -/

section

variable {s : ObservedWin32 Cb}

theorem sendPending_drains {items : List (PendingSocketIo Cb)} (hlist : s.list = items)
    (hdistinct : (items.map PendingSocketIo.item).Nodup) :
    Quiet win32Code sendsSucceed sendPending (fun _ s' => Drained items s s') s := by
  induction items generalizing s with
  | nil =>
    simp only [sendPending, quiet_bind, quiet_getInst]
    rw [show s.inst.pendingIoList = [] from hlist]
    exact (quiet_pure _ _).2 ⟨hlist, (List.append_nil _).symm, (List.append_nil _).symm, rfl⟩
  | cons io rest ih =>
    simp only [sendPending, quiet_bind, quiet_getInst]
    rw [show s.inst.pendingIoList = io :: rest from hlist]
    simp only [quiet_bind]
    apply quiet_send
    intro r htaken
    rw [if_neg fun hne => hne htaken]
    simp only [quiet_bind, quiet_modify]
    apply quiet_sendComplete
    simp only [quiet_bind, quiet_modify]
    refine quiet_removeHead ?_ hdistinct ?_
    · exact hlist
    simp only [Bool.true_eq_false, if_false]
    apply quiet_callProc
    rw [List.map_cons, List.nodup_cons] at hdistinct
    refine (ih rfl hdistinct.2).mono ?_
    intro _ s' hdrained
    refine ⟨hdrained.list, ?_, ?_, hdrained.owed⟩
    · rw [callbackItems_cons, ← List.append_assoc]
      exact hdrained.completed
    · refine hdrained.taken.trans ?_
      rw [bytesOf, bytesOf, List.map_cons, List.flatten_cons, ← List.append_assoc]
      rfl

theorem receiveBytes_drains (hlist : s.list = []) :
    Quiet win32Code sendsSucceed receiveBytes (fun _ s' => Drained [] s s') s := by
  have hunchanged : Drained [] s s := ⟨hlist, (List.append_nil _).symm, (List.append_nil _).symm, rfl⟩
  simp only [receiveBytes, quiet_bind, quiet_getInst]
  refine quiet_ask ⟨.again, nofun⟩ ?_
  intro r hr
  cases r with
  | received bytes => exact absurd rfl (hr bytes)
  | again => exact (quiet_pure _ _).2 hunchanged
  | closed | error =>
    simp only [quiet_bind]
    exact quiet_indicateError ((quiet_pure _ _).2 hunchanged)

/-- `socketio_dowork` drains the list of an open instance, and then receives nothing; on any other it does
nothing. -/
theorem socketioDowork_drains (hidle : s.inst.ioState ≠ .ioStateOpen → s.list = [])
    (hdistinct : (s.list.map PendingSocketIo.item).Nodup) :
    Quiet win32Code sendsSucceed (win32Code .socketioDowork) (fun _ s' => Drained s.list s s') s := by
  have hbegun : ObservedWin32.list { s with working := s.working + 1 } = s.list := rfl
  simp only [win32Code, socketioDowork, quiet_bind, quiet_modify, quiet_getInst]
  split
  case isTrue =>
    simp only [quiet_bind]
    apply quiet_callProc
    refine (sendPending_drains hbegun hdistinct).mono ?_
    intro _ s₁ hdrained
    simp only [quiet_bind, quiet_getInst]
    -- A callback may have closed the instance, as far as the code knows.
    split
    case isTrue =>
      simp only [quiet_bind]
      apply quiet_callProc
      refine (receiveBytes_drains hdrained.list).mono ?_
      intro _ s₂ hreceived
      simp only [quiet_bind, quiet_modify, quiet_pure]
      refine ⟨hreceived.list, ?_, ?_, hreceived.owed.trans hdrained.owed⟩
      · exact hreceived.completed.trans ((List.append_nil _).trans hdrained.completed)
      · exact hreceived.taken.trans ((List.append_nil _).trans hdrained.taken)
    case isFalse =>
      simp only [quiet_bind, quiet_modify, quiet_pure]
      exact { hdrained with }
  case isFalse hclosed =>
    simp only [quiet_bind, quiet_modify, quiet_pure]
    rw [hidle hclosed]
    exact ⟨hidle hclosed, (List.append_nil _).symm, (List.append_nil _).symm, rfl⟩

end

/-- From wherever a run has left an instance, a `socketio_dowork` whose sends succeed completes every accepted
message that has a callback, and all accepted bytes are taken. -/
theorem dowork_completes {socket : Option Nat} {s : ObservedWin32 Cb}
    (h : Reachable win32Code wholeRun (created socket) (.env s [])) :
    Quiet win32Code sendsSucceed (win32Code .socketioDowork)
      (fun _ s' => s'.list = [] ∧ s'.taken = s.messages.flatten ∧ s'.owed = s.owed ∧
        ∀ item ∈ s.owed, s'.completed.count item = 1) s := by
  obtain ⟨hkept, hhead⟩ := sendLaw_sound.reachable_idle (created_kept socket) rfl h
  have hunsent : s.unsent = s.list := by
    rw [ObservedWin32.unsent, show s.headSent = false from hhead]
    rfl
  have hidle : s.inst.ioState ≠ .ioStateOpen → s.list = [] := by
    rw [← hunsent]
    exact hkept.idle
  refine (socketioDowork_drains hidle hkept.distinct).mono ?_
  intro _ s' hdrained
  have hperm : s'.completed.Perm s.owed := by
    rw [hdrained.completed, ← hunsent]
    exact hkept.accounts
  refine ⟨hdrained.list, ?_, hdrained.owed, ?_⟩
  · rw [hdrained.taken, hkept.whole, hunsent]
  · intro item hitem
    rw [hperm.count_eq]
    exact List.count_eq_one_of_mem hkept.once hitem

end SharedUtility.SocketIoWin32
