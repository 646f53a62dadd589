import SharedUtility.SocketIo.Completions

/-!
# Progress — a `socketio_dowork` whose sends succeed completes what is queued

Each list item is sent, completed with its callback and taken off the list, in order
(`sendPending_drains`). So an instance on which `socketio_dowork` has come back from such a round has
completed every accepted send (`dowork_completes`).
-/

namespace SharedUtility.SocketIo
namespace Completions

open Reentrant Observed Observer RelyGuarantee

variable {Cb : Type}

/-- `send` takes all that it is given, nothing is received, and no callback calls the instance. -/
def sendsSucceed : (c : Call Cb) → Ans c → Prop
  | .send _ bytes, r => r = .taken bytes.length
  | .recv _, r => ∀ bytes, r ≠ .received bytes
  | _, _ => True

/-- The calls of `on_send_complete` that the list items ask for. -/
def callbacksOf (items : List (PendingSocketIo Cb)) : List (Nat × Cb) :=
  items.filterMap fun io => io.onSendComplete.map fun cb => (io.item, cb)

theorem callbacksOf_cons (io : PendingSocketIo Cb) (rest : List (PendingSocketIo Cb)) :
    callbacksOf (io :: rest) =
      (io.onSendComplete.map fun cb => (io.item, cb)).toList ++ callbacksOf rest := by
  unfold callbacksOf
  cases hcb : io.onSendComplete <;> simp [hcb]

theorem callbacksOf_items (items : List (PendingSocketIo Cb)) :
    (callbacksOf items).map Prod.fst =
      (items.filter (·.onSendComplete.isSome)).map PendingSocketIo.item := by
  induction items with
  | nil => rfl
  | cons io rest ih =>
    rw [callbacksOf_cons, List.map_append, ih]
    cases hcb : io.onSendComplete <;> simp [hcb]

/-- The list items have been sent and completed, and nothing else has happened. -/
structure Drained (items : List (PendingSocketIo Cb)) (s s' : NotedSocket Cb) : Prop where
  pendingIoList : s'.state.inst.pendingIoList = []
  called : s'.notes.called = s.notes.called ++ callbacksOf items
  taken : s'.state.taken = s.state.taken ++ (items.map PendingSocketIo.bytes).flatten
  active : s'.notes.active = s.notes.active
  accepted : s'.notes.accepted = s.notes.accepted

section

variable {s : NotedSocket Cb}

@[simp] theorem quiet_getInst (Q : SocketIoInstance Cb → NotedSocket Cb → Prop) :
    Quiet notedCode sendsSucceed (sendObserver.observe getInst) Q s ↔ Q s.state.inst s := by
  simp [getInst]

@[simp] theorem quiet_modifyInst (f : SocketIoInstance Cb → SocketIoInstance Cb)
    (Q : Unit → NotedSocket Cb → Prop) :
    Quiet notedCode sendsSucceed (sendObserver.observe (modifyInst f)) Q s ↔
      Q () (s.setState (s.state.setInst (f s.state.inst))) := by
  simp [modifyInst]

theorem quiet_send {socket : Option Nat} {bytes : Bytes} {Q : SendResult → NotedSocket Cb → Prop}
    (h : Q (.taken bytes.length) (s.setState (s.state.take bytes))) :
    Quiet notedCode sendsSucceed (sendObserver.observe (send socket bytes)) Q s := by
  simp only [send, quiet_observe_bind]
  refine (quiet_observe_call _ _).2 ⟨⟨_, rfl⟩, ?_⟩
  rintro r rfl
  simp only [quiet_observe_bind, quiet_observe_modify, quiet_observe_pure, List.take_length]
  exact h

theorem quiet_indicateError {Q : Unit → NotedSocket Cb → Prop} (h : Q () s) :
    Quiet notedCode sendsSucceed (sendObserver.observe indicateError) Q s := by
  simp only [indicateError, quiet_observe_bind, quiet_getInst]
  cases s.state.inst.onIoError with
  | none => exact (quiet_observe_pure _ _).2 h
  | some cb =>
    simp only [callBack, quiet_observe_bind]
    exact (quiet_observe_call _ _).2 ⟨⟨(), trivial⟩, fun _ _ => (quiet_observe_pure _ _).2 h⟩

theorem quiet_removePendingIo {io : PendingSocketIo Cb} {rest : List (PendingSocketIo Cb)}
    {Q : Bool → NotedSocket Cb → Prop} (hlist : s.state.inst.pendingIoList = io :: rest)
    (hdistinct : ((io :: rest).map PendingSocketIo.item).Nodup)
    (hQ : Q true (s.setState (s.state.setInst { s.state.inst with pendingIoList := rest }))) :
    Quiet notedCode sendsSucceed (sendObserver.observe (removePendingIo io.item)) Q s := by
  simp only [removePendingIo, quiet_observe_bind, quiet_getInst]
  rw [if_neg (by simp [hlist])]
  simp only [quiet_observe_bind, quiet_modifyInst, quiet_observe_pure, hlist,
    filter_first (item_ne_first hdistinct)]
  exact hQ

theorem quiet_complete {slot : Option Cb} {Q : Unit → NotedSocket Cb → Prop} (sendId : Nat)
    (hcompleting : completing s.state s.notes.active = [sendId])
    (hQ : Q () (s.setNotes { s.notes with
      called := s.notes.called ++ (slot.map fun cb => (sendId, cb)).toList })) :
    Quiet notedCode sendsSucceed
      (sendObserver.observe (callBack slot fun cb => .onSendComplete cb .ioSendOk)) Q s := by
  cases slot with
  | none =>
    rw [Option.map_none, Option.toList_none, List.append_nil] at hQ
    exact (quiet_observe_pure _ _).2 hQ
  | some cb =>
    simp only [callBack, quiet_observe_bind]
    refine (quiet_observe_call _ _).2 ⟨⟨(), trivial⟩, fun _ _ => (quiet_observe_pure _ _).2 ?_⟩
    show Q () (s.setNotes { s.notes with
      called := s.notes.called ++ (completing s.state s.notes.active).map fun id => (id, cb) })
    rw [hcompleting]
    exact hQ

end

theorem sendPending_drains {items : List (PendingSocketIo Cb)} {s : NotedSocket Cb}
    (hlist : s.state.inst.pendingIoList = items)
    (hdistinct : (items.map PendingSocketIo.item).Nodup) :
    Quiet notedCode sendsSucceed (notedCode .sendPending) (fun _ s' => Drained items s s') s := by
  induction items generalizing s with
  | nil =>
    rw [notedCode, quiet_code]
    simp only [socketioCode, sendPending, quiet_observe_bind, quiet_getInst]
    have hnil : (s.setNotes (sendObserver.entered .sendPending s.state s.notes)).state.inst.pendingIoList
        = [] := hlist
    rw [hnil]
    exact (quiet_observe_pure _ _).2
      ⟨hlist, (List.append_nil _).symm, (List.append_nil _).symm, rfl, rfl⟩
  | cons io rest ih =>
    rw [notedCode, quiet_code]
    simp only [socketioCode, sendPending, quiet_observe_bind, quiet_getInst]
    have hcons : (s.setNotes (sendObserver.entered .sendPending s.state s.notes)).state.inst.pendingIoList
        = io :: rest := hlist
    rw [hcons]
    simp only [quiet_observe_bind]
    apply quiet_send
    simp only [ne_eq, not_true_eq_false, if_false, quiet_observe_bind, quiet_observe_modify]
    refine quiet_complete io.item ?_ ?_
    · show (s.state.inst.pendingIoList.head?.map PendingSocketIo.item).toList = [io.item]
      rw [hlist]
      rfl
    · simp only [quiet_observe_bind, quiet_observe_modify]
      refine quiet_removePendingIo hlist hdistinct ?_
      simp only [Bool.true_eq_false, if_false]
      refine (quiet_observe_proc _ _).2 ?_
      rw [List.map_cons, List.nodup_cons] at hdistinct
      refine (ih rfl hdistinct.2).mono ?_
      intro r s' hdrained
      refine ⟨hdrained.pendingIoList, ?_, ?_, ?_, hdrained.accepted⟩
      · refine hdrained.called.trans ?_
        rw [callbacksOf_cons, ← List.append_assoc]
        rfl
      · refine hdrained.taken.trans ?_
        rw [List.map_cons, List.flatten_cons, ← List.append_assoc]
        rfl
      · exact congrArg List.tail hdrained.active

theorem receiveBytes_drains {s : NotedSocket Cb} (hlist : s.state.inst.pendingIoList = []) :
    Quiet notedCode sendsSucceed (notedCode .receiveBytes) (fun _ s' => Drained [] s s') s := by
  have hunchanged : Drained [] s s :=
    ⟨hlist, (List.append_nil _).symm, (List.append_nil _).symm, rfl, rfl⟩
  rw [notedCode, quiet_code]
  simp only [socketioCode, receiveBytes, quiet_observe_bind, quiet_getInst]
  refine (quiet_observe_call _ _).2 ⟨⟨.again, by rintro _ ⟨⟩⟩, ?_⟩
  intro r hr
  cases r with
  | received bytes => exact absurd rfl (hr bytes)
  | again => exact (quiet_observe_pure _ _).2 { hunchanged with }
  | closed =>
    simp only [quiet_observe_bind]
    exact quiet_indicateError ((quiet_observe_pure _ _).2 { hunchanged with })
  | error =>
    simp only [quiet_observe_bind]
    exact quiet_indicateError ((quiet_observe_pure _ _).2 { hunchanged with })

/-- `socketio_dowork` drains the list, and then receives nothing. -/
theorem socketioDowork_drains {s : NotedSocket Cb}
    (hdistinct : (s.state.inst.pendingIoList.map PendingSocketIo.item).Nodup) :
    Quiet notedCode sendsSucceed (notedCode .socketioDowork)
      (fun _ s' => Drained s.state.inst.pendingIoList s s') s := by
  rw [notedCode, quiet_code]
  simp only [socketioCode, socketioDowork, quiet_observe_bind]
  refine (quiet_observe_proc _ _).2 ((sendPending_drains (s := s.setNotes
    (sendObserver.entered .socketioDowork s.state s.notes)) rfl hdistinct).mono ?_)
  intro _ s₁ hdrained
  refine (quiet_observe_bind _ _ _).2 ((quiet_getInst _).2 ?_)
  split
  · refine (quiet_observe_proc _ _).2 ((receiveBytes_drains hdrained.pendingIoList).mono ?_)
    intro _ s₂ hreceived
    refine ⟨hreceived.pendingIoList, ?_, ?_, ?_, hreceived.accepted.trans hdrained.accepted⟩
    · exact hreceived.called.trans ((List.append_nil _).trans hdrained.called)
    · exact hreceived.taken.trans ((List.append_nil _).trans hdrained.taken)
    · exact congrArg List.tail (hreceived.active.trans hdrained.active)
  · exact (quiet_observe_pure _ _).2
      { hdrained with active := congrArg List.tail hdrained.active }

/-- From wherever a run has left an instance, a `socketio_dowork` whose sends succeed completes every
accepted send that has not been completed. -/
theorem dowork_completes {s₀ s : NotedSocket Cb} (h₀ : Created s₀)
    (h : Reachable notedCode completingRun s₀ (.env s [])) :
    Quiet notedCode sendsSucceed (notedCode .socketioDowork)
      (fun _ s' => s'.state.inst.pendingIoList = [] ∧ s'.notes.accepted = s.notes.accepted ∧
        ∀ sendId ∈ s'.notes.accepted, s'.notes.completed.count sendId = 1) s := by
  obtain ⟨hkept, hhead⟩ := completions_sound.reachable_idle h₀.kept h₀.headSent h
  refine (socketioDowork_drains hkept.distinct).mono ?_
  intro _ s' hdrained
  refine ⟨hdrained.pendingIoList, hdrained.accepted, ?_⟩
  have hunsent : s.state.unsent = s.state.inst.pendingIoList := by
    rw [ObservedSocket.unsent, hhead]
    rfl
  have hcompleted : s'.notes.completed = s.notes.completed ++
      (s.state.inst.pendingIoList.filter (·.onSendComplete.isSome)).map PendingSocketIo.item := by
    rw [SendNotes.completed, hdrained.called, List.map_append, callbacksOf_items]
    rfl
  have honce : s'.notes.completed.Nodup := by
    rw [hcompleted]
    refine List.Nodup.append hkept.once ?_ ?_
    · exact hkept.distinct.sublist (List.filter_sublist.map PendingSocketIo.item)
    · intro sendId hold hnew
      obtain ⟨io, hio, rfl⟩ := List.mem_map.1 hnew
      exact hkept.unsent io (by rw [hunsent]; exact List.mem_of_mem_filter hio) hold
  intro sendId hid
  refine List.count_eq_one_of_mem honce ?_
  rw [hdrained.accepted] at hid
  rw [hcompleted]
  rcases hkept.accepted sendId hid with hold | ⟨io, hio, rfl, hcb⟩
  · exact List.mem_append_left _ hold
  · rw [hunsent] at hio
    exact List.mem_append_right _ (List.mem_map_of_mem (List.mem_filter.2 ⟨hio, hcb⟩))

end Completions
end SharedUtility.SocketIo
