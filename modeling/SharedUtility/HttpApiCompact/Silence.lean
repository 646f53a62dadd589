import Mathlib.Logic.Function.Iterate
import SharedUtility.HttpApiCompact.Exchange
import SharedUtility.HttpApiCompact.Segmentation

/-!
# Silence — how long a request waits for a peer that has fallen silent

Every loop but one counts down in each round in which the underlying io does nothing: then nothing
changes any more, and the loop ends by its counter (`waitLoop_ends`). `conn_receive` has no counter;
it returns if and only if the bytes it waits for, or an error, are still to come.
-/

namespace SharedUtility.HttpApiCompact

/-- What a call of `conn_receive` waits for is still to come: the bytes, or an error. -/
def Supplied (receive : Nat × Connection × List XioCall) : Prop :=
  ∃ calls : Nat,
    let e := Exchange.called^[calls + 1]
      { toConnection := receive.2.1, script := receive.2.2 }
    e.isIoError ∨ receive.1 ≤ e.receivedBytes.length

/-- All calls of `conn_receive` have been supplied. -/
def AllSupplied (e : Exchange) : Prop :=
  ∀ receive ∈ e.receives, Supplied receive

/-- The greatest number of rounds that a loop with a counter waits. -/
def retryBound : Nat :=
  max (maxOpenRetry + 1) (max maxSendRetry maxReceiveRetry)

/-- How a computation ends that begins before any silent round: if it succeeds there still has been
none, and it has taken `k` bytes; if it fails there have not been more than the bound; and if it
never returns then `conn_receive` has not been supplied. -/
inductive Ends {α : Type} (S : α → Prop) (k : Nat) (e : Exchange) : Option α × Exchange → Prop
  | succeeds {a : α} {e' : Exchange} : S a → e'.silentRounds = 0 →
      e'.streamLength + k ≤ e.streamLength → (AllSupplied e → AllSupplied e') →
      Ends S k e (some a, e')
  | fails {a : α} {e' : Exchange} : ¬ S a → e'.silentRounds ≤ retryBound →
      (AllSupplied e → AllSupplied e') → Ends S k e (some a, e')
  | waits {e' : Exchange} : ¬ AllSupplied e' → Ends S k e (none, e')

section

variable {α β : Type} {S : α → Prop} {T : β → Prop} {k l : Nat} {e e' : Exchange}

theorem run_bind (p : ExchangeM α) (f : α → ExchangeM β) (e : Exchange) :
    (p >>= f) e =
      match p e with
      | (some a, e') => f a e'
      | (none, e') => (none, e') := by
  change (match p e with
    | (a, e') =>
      (match a with
        | some a => f a
        | none => Pure.pure none : StateM Exchange (Option β)) e') = _
  rcases p e with ⟨a | a, e'⟩ <;> rfl

theorem Ends.after {r : Option α × Exchange} (h : Ends S k e' r)
    (hstream : e'.streamLength ≤ e.streamLength) (hsupplied : AllSupplied e → AllSupplied e') :
    Ends S k e r := by
  cases h with
  | succeeds ha hsilent htaken hrest =>
    exact .succeeds ha hsilent (Nat.le_trans htaken hstream) (hrest ∘ hsupplied)
  | fails ha hsilent hrest => exact .fails ha hsilent (hrest ∘ hsupplied)
  | waits hwaits => exact .waits hwaits

theorem Ends.pure {a : α} (ha : S a) (hsilent : e.silentRounds = 0) :
    Ends S 0 e ((pure a : ExchangeM α) e) :=
  .succeeds ha hsilent (Nat.le_refl _) id

theorem Ends.pureFailed {a : α} (hsilent : e.silentRounds = 0) (ha : ¬ S a) :
    Ends S k e ((Pure.pure a : ExchangeM α) e) :=
  .fails ha (hsilent ▸ Nat.zero_le _) id

/-- One computation after another: where the first fails, so does the whole, at once. -/
theorem Ends.bind {p : ExchangeM α} {f : α → ExchangeM β} (hp : Ends S k e (p e))
    (hok : ∀ a e', S a → e'.silentRounds = 0 → e'.streamLength + k ≤ e.streamLength →
      Ends T l e' (f a e'))
    (hfail : ∀ a, ¬ S a → ∃ b, f a = Pure.pure b ∧ ¬ T b) : Ends T l e ((p >>= f) e) := by
  rw [run_bind]
  generalize p e = r at hp
  cases hp with
  | succeeds ha hsilent htaken hsupplied =>
    exact (hok _ _ ha hsilent htaken).after (Nat.le_trans (Nat.le_add_right _ _) htaken) hsupplied
  | fails ha hsilent hsupplied =>
    obtain ⟨b, hb, hfailed⟩ := hfail _ ha
    simp only [hb]
    exact .fails hfailed hsilent hsupplied
  | waits hwaits => exact .waits hwaits

end

/-! ## The loops with a counter -/

section

variable {α β : Type} {S : α → Prop} {k : Nat} {round : β → Exchange → Wait α β × Exchange}
variable {Stuck : β → Exchange → Prop} {timeout : α} {e e' : Exchange} {b b' : β}

theorem slept_of_heard (h : e.silent = false) : e.slept = e := by
  obtain ⟨c, script, sent, silent⟩ := e
  cases h
  rfl

/-- Neither a silent round nor a receipt is noted between the two. -/
structure Noted (e e' : Exchange) : Prop where
  silentRounds : e'.silentRounds = e.silentRounds
  receives : e'.receives = e.receives
  streamLength : e'.streamLength ≤ e.streamLength

/-- The rounds of a loop: after one in which the underlying io was silent the loop is stuck, and goes
through the same round again. -/
structure CountsDown (S : α → Prop) (k : Nat) (round : β → Exchange → Wait α β × Exchange)
    (Stuck : β → Exchange → Prop) : Prop where
  noted : ∀ b e, Noted e (round b e).2
  takes : ∀ {b e a e'}, round b e = (.done a, e') → S a → e'.streamLength + k ≤ e.streamLength
  silent : ∀ {b e b' e'}, round b e = (.more b', e') → e'.silent = true → Stuck b' e'
  stuck : ∀ {b e}, Stuck b e → ∃ b' e', round b e.slept = (.more b', e') ∧ e'.silent = true

theorem waitLoop_stuck (timeout : α) (h : CountsDown S k round Stuck) (hstuck : Stuck b e)
    (hsilent : e.silent = true) (countRetry : Nat) :
    ∃ e', waitLoop round timeout countRetry b e.slept = (some timeout, e') ∧
      e'.silentRounds = e.silentRounds + countRetry + 1 ∧ e'.receives = e.receives := by
  have hslept : ∀ e : Exchange, e.silent = true → e.slept.silentRounds = e.silentRounds + 1 :=
    fun e he => if_pos he
  induction countRetry generalizing b e with
  | zero =>
    obtain ⟨b', e', hround, hsilent'⟩ := h.stuck hstuck
    have hnoted := h.noted b e.slept
    rw [hround] at hnoted
    refine ⟨e', ?_, hnoted.silentRounds.trans (hslept e hsilent), hnoted.receives⟩
    unfold waitLoop
    rw [hround]
  | succ countRetry ih =>
    obtain ⟨b', e', hround, hsilent'⟩ := h.stuck hstuck
    have hnoted := h.noted b e.slept
    rw [hround] at hnoted
    obtain ⟨e'', hloop, hrounds, hreceives⟩ := ih (h.silent hround hsilent') hsilent'
    refine ⟨e'', ?_, ?_, hreceives.trans hnoted.receives⟩
    · unfold waitLoop
      rw [hround]
      exact hloop
    · have hfirst := hnoted.silentRounds.trans (hslept e hsilent)
      simp only at hfirst
      omega

theorem AllSupplied.of_receives (h : e'.receives = e.receives) (hsupplied : AllSupplied e) :
    AllSupplied e' := by
  unfold AllSupplied
  rw [h]
  exact hsupplied

theorem CountsDown.done {a : α} (h : CountsDown S k round Stuck) (hround : round b e = (.done a, e'))
    (hnone : e.silentRounds = 0) : Ends S k e (some a, e') := by
  have hnoted := h.noted b e
  rw [hround] at hnoted
  have hsilent : e'.silentRounds = 0 := hnoted.silentRounds.trans hnone
  by_cases ha : S a
  case pos => exact .succeeds ha hsilent (h.takes hround ha) (.of_receives hnoted.receives)
  case neg => exact .fails ha (hsilent ▸ Nat.zero_le _) (.of_receives hnoted.receives)

theorem waitLoop_ends (h : CountsDown S k round Stuck) (htimeout : ¬ S timeout) {countRetry : Nat}
    (hcount : countRetry ≤ retryBound) (hnone : e.silentRounds = 0) :
    Ends S k e (waitLoop round timeout countRetry b e) := by
  induction countRetry generalizing b e with
  | zero =>
    unfold waitLoop
    have hnoted := h.noted b e
    rcases hround : round b e with ⟨a | b', e'⟩
    · exact h.done hround hnone
    · rw [hround] at hnoted
      have hsilent : e'.silentRounds = 0 := hnoted.silentRounds.trans hnone
      exact .fails htimeout (hsilent ▸ Nat.zero_le _) (.of_receives hnoted.receives)
  | succ countRetry ih =>
    unfold waitLoop
    have hnoted := h.noted b e
    rcases hround : round b e with ⟨a | b', e'⟩
    · exact h.done hround hnone
    · rw [hround] at hnoted
      have hsilent : e'.silentRounds = 0 := hnoted.silentRounds.trans hnone
      cases hquiet : e'.silent with
      | true =>
        obtain ⟨e'', hloop, hrounds, hreceives⟩ :=
          waitLoop_stuck timeout h (h.silent hround hquiet) hquiet countRetry
        simp only [hloop]
        refine .fails htimeout ?_ (.of_receives (hreceives.trans hnoted.receives))
        omega
      | false =>
        have hslept : e'.slept.silentRounds = 0 := by
          rw [slept_of_heard hquiet]
          exact hsilent
        exact (ih (Nat.le_of_succ_le hcount) hslept).after hnoted.streamLength
          (.of_receives hnoted.receives)

end

/-! ## The rounds -/

namespace Exchange

section

variable {e e' : Exchange}

theorem callback_receivedBytes (callbacks : List Callback) (c : Connection) :
    (callbacks.foldl Connection.callback c).receivedBytes =
      c.receivedBytes ++ callbackBytes callbacks := by
  induction callbacks generalizing c with
  | nil => exact (List.append_nil _).symm
  | cons callback callbacks ih =>
    rw [List.foldl_cons, ih]
    cases callback with
    | openComplete ok => cases ok <;> rfl
    | sendComplete ok => cases ok <;> rfl
    | bytes buffer => exact List.append_assoc _ _ _
    | error => rfl

theorem called_noted (e : Exchange) : Noted e e.called := by
  unfold called
  split
  case h_1 hscript => exact ⟨rfl, rfl, Nat.le_refl _⟩
  case h_2 call script hscript =>
    refine ⟨rfl, rfl, ?_⟩
    unfold streamLength
    simp only [callback_receivedBytes, hscript, List.length_append, List.map_cons, List.sum_cons]
    omega

/-- Only behind the end of the script the underlying io is silent, and nothing changes. -/
theorem called_of_silent (h : e.called.silent = true) :
    e.script = [] ∧ e.called = { e with silent := true } := by
  unfold called at h ⊢
  split at h
  case h_1 hscript => exact ⟨hscript, rfl⟩
  case h_2 call script hscript => cases h

theorem called_of_nil (h : e.script = []) : e.called = { e with silent := true } := by
  unfold called
  rw [h]

theorem called_of_quiet (hscript : e.script = []) (hfine : e.isIoError = false)
    (hnothing : e.receivedBytes = []) : e.called = { e with silent := true } ∧
      e.called.isIoError = false ∧ e.called.receivedBytes = [] := by
  rw [called_of_nil hscript]
  exact ⟨rfl, hfine, hnothing⟩

theorem length_drop_le (n : Nat) (bytes : Bytes) : (bytes.drop n).length ≤ bytes.length := by
  rw [List.length_drop]
  exact Nat.sub_le _ _

theorem openRound_countsDown :
    CountsDown (· = HttpApiResult.ok) 0 openRound fun _ e =>
      e.script = [] ∧ (e.isConnected || e.isIoError) = false where
  noted b e := by
    unfold openRound
    split
    · exact ⟨rfl, rfl, Nat.le_refl _⟩
    · exact called_noted e
  takes {b e a e'} hround ha := by
    unfold openRound at hround
    split at hround
    · cases hround
      exact Nat.le_refl _
    · cases hround
  silent {b e b' e'} hround hsilent := by
    unfold openRound at hround
    split at hround
    case isTrue hdone => cases hround
    case isFalse hopening =>
      cases hround
      obtain ⟨hscript, hcalled⟩ := called_of_silent hsilent
      rw [hcalled]
      exact ⟨hscript, Bool.not_eq_true _ ▸ hopening⟩
  stuck {b e} hstuck := by
    obtain ⟨hscript, hopening⟩ := hstuck
    have hcalled : e.slept.called = { e.slept with silent := true } := called_of_nil hscript
    refine ⟨(), e.slept.called, ?_, ?_⟩
    · unfold openRound
      rw [if_neg]
      exact Bool.not_eq_true _ ▸ hopening
    · rw [hcalled]

theorem sendRound_countsDown :
    CountsDown (· = HttpApiResult.ok) 0 sendRound fun _ e =>
      e.script = [] ∧ e.sendCompleted = false ∧ e.isIoError = false where
  noted b e := by
    unfold sendRound
    split
    · exact ⟨rfl, rfl, Nat.le_refl _⟩
    · simp only
      split <;> exact called_noted e
  takes {b e a e'} hround ha := by
    unfold sendRound at hround
    simp only at hround
    split at hround
    · cases hround
      exact Nat.le_refl _
    · split at hround
      · cases hround
        cases ha
      · cases hround
  silent {b e b' e'} hround hsilent := by
    unfold sendRound at hround
    simp only at hround
    split at hround
    case isTrue hdone => cases hround
    case isFalse hsending =>
      split at hround
      case isTrue herror => cases hround
      case isFalse hfine =>
        cases hround
        obtain ⟨hscript, hcalled⟩ := called_of_silent hsilent
        rw [hcalled] at hfine ⊢
        exact ⟨hscript, Bool.not_eq_true _ ▸ hsending, Bool.not_eq_true _ ▸ hfine⟩
  stuck {b e} hstuck := by
    obtain ⟨hscript, hsending, hfine⟩ := hstuck
    have hcalled : e.slept.called = { e.slept with silent := true } := called_of_nil hscript
    refine ⟨(), e.slept.called, ?_, ?_⟩
    · unfold sendRound
      have hsending' : e.slept.sendCompleted = false := hsending
      have hfine' : e.slept.called.isIoError = false := hcalled ▸ hfine
      simp only [hsending', hfine', Bool.false_eq_true, if_false]
    · rw [hcalled]

theorem readLineRound_countsDown (maxBufSize : Nat) :
    CountsDown (fun line : Option Bytes => line.isSome = true) 1 (readLineRound maxBufSize) fun _ e =>
      e.script = [] ∧ e.isIoError = false ∧ e.receivedBytes = [] where
  noted line e := by
    have hcalled := called_noted e
    unfold readLineRound
    simp only
    split
    · exact hcalled
    · have hless : ∀ rest : Bytes, rest.length ≤ e.called.receivedBytes.length →
          Noted e { e.called with receivedBytes := rest } := by
        intro rest hrest
        refine ⟨hcalled.silentRounds, hcalled.receives, Nat.le_trans ?_ hcalled.streamLength⟩
        exact Nat.add_le_add_right hrest _
      split
      case h_1 line rest hscan => exact hless rest (Nat.le_of_lt (scanLine_shorter hscan))
      case h_2 hscan => exact hless [] (Nat.zero_le _)
      case h_3 line hscan => exact hless [] (Nat.zero_le _)
  takes {line e a e'} hround ha := by
    have hcalled := called_noted e
    unfold readLineRound at hround
    simp only at hround
    split at hround
    · cases hround
      cases ha
    · split at hround
      case h_1 line rest hscan =>
        cases hround
        have hshorter := scanLine_shorter hscan
        refine Nat.le_trans ?_ hcalled.streamLength
        simp only [streamLength]
        omega
      case h_2 hscan =>
        cases hround
        cases ha
      case h_3 line hscan => cases hround
  silent {line e b' e'} hround hsilent := by
    unfold readLineRound at hround
    simp only at hround
    split at hround
    case isTrue herror => cases hround
    case isFalse hfine =>
      split at hround
      case h_1 line rest hscan => cases hround
      case h_2 hscan => cases hround
      case h_3 line hscan =>
        cases hround
        obtain ⟨hscript, hcalled⟩ := called_of_silent hsilent
        simp only [hcalled] at hfine ⊢
        exact ⟨hscript, Bool.not_eq_true _ ▸ hfine, trivial⟩
  stuck {line e} hstuck := by
    obtain ⟨hscript, hfine, hnothing⟩ := hstuck
    have hquiet := called_of_quiet (e := e.slept) hscript hfine hnothing
    obtain ⟨hcalled, hfine', hnothing'⟩ := hquiet
    refine ⟨line, { e.slept.called with receivedBytes := [] }, ?_, ?_⟩
    · unfold readLineRound
      simp only [hfine', hnothing', Bool.false_eq_true, if_false, scanLine]
    · rw [hcalled]

theorem skipRound_countsDown :
    CountsDown (· = true) 0 skipRound fun n e =>
      e.script = [] ∧ e.isIoError = false ∧ e.receivedBytes = [] ∧ 0 < n where
  noted n e := by
    have hcalled := called_noted e
    unfold skipRound
    simp only
    split
    · exact hcalled
    · have hless : Noted e { e.called with receivedBytes := e.called.receivedBytes.drop n } := by
        refine ⟨hcalled.silentRounds, hcalled.receives, Nat.le_trans ?_ hcalled.streamLength⟩
        exact Nat.add_le_add_right (length_drop_le n e.called.receivedBytes) _
      split <;> exact hless
  takes {n e a e'} hround ha := by
    have hcalled := called_noted e
    unfold skipRound at hround
    simp only at hround
    split at hround
    · cases hround
      cases ha
    · split at hround
      · cases hround
      · cases hround
        refine Nat.le_trans ?_ hcalled.streamLength
        exact Nat.add_le_add_right (length_drop_le n e.called.receivedBytes) _
  silent {n e n' e'} hround hsilent := by
    unfold skipRound at hround
    simp only at hround
    split at hround
    case isTrue herror => cases hround
    case isFalse hfine =>
      split at hround
      case isTrue hleft =>
        cases hround
        obtain ⟨hscript, hcalled⟩ := called_of_silent hsilent
        simp only [hcalled] at hfine hleft ⊢
        refine ⟨hscript, Bool.not_eq_true _ ▸ hfine, ?_, hleft⟩
        exact List.drop_eq_nil_of_le (by omega)
      case isFalse hdone => cases hround
  stuck {n e} hstuck := by
    obtain ⟨hscript, hfine, hnothing, hleft⟩ := hstuck
    have hquiet := called_of_quiet (e := e.slept) hscript hfine hnothing
    obtain ⟨hcalled, hfine', hnothing'⟩ := hquiet
    refine ⟨n, { e.slept.called with receivedBytes := [] }, ?_, ?_⟩
    · unfold skipRound
      simp only [hfine', hnothing', Bool.false_eq_true, if_false, List.length_nil, Nat.sub_zero,
        gt_iff_lt, hleft, if_true, List.drop_nil]
    · rw [hcalled]

end

/-! ## The loop without a counter -/

section

variable {e e' : Exchange} {count : Nat}

/-- The calls of the underlying io depend on the connection and the script alone. -/
def Alike (e e' : Exchange) : Prop :=
  e.toConnection = e'.toConnection ∧ e.script = e'.script

theorem Alike.called (h : Alike e e') : Alike e.called e'.called := by
  obtain ⟨c, script⟩ := e
  obtain ⟨c', script'⟩ := e'
  obtain ⟨hconnection, hscript⟩ := h
  cases hconnection
  cases hscript
  cases script with
  | nil => exact ⟨rfl, rfl⟩
  | cons call script => exact ⟨rfl, rfl⟩

theorem Alike.iterate (h : Alike e e') (calls : Nat) :
    Alike (Exchange.called^[calls] e) (Exchange.called^[calls] e') := by
  induction calls generalizing e e' with
  | zero => exact h
  | succ calls ih => exact ih h.called

/-- What `conn_receive` waits for has come. -/
def Come (count : Nat) (e : Exchange) : Prop :=
  e.isIoError ∨ count ≤ e.receivedBytes.length

theorem Alike.come (h : Alike e e') : Come count e ↔ Come count e' := by
  unfold Come
  rw [h.1]

/-- What `conn_receive` waits for has come after some calls. -/
def Comes (count : Nat) (e : Exchange) : Prop :=
  ∃ calls : Nat, Come count (Exchange.called^[calls + 1] e)

theorem Alike.comes (h : Alike e e') : Comes count e ↔ Comes count e' :=
  exists_congr fun calls => (h.iterate (calls + 1)).come

theorem comes_iff : Comes count e ↔ Come count e.called ∨ Comes count e.called := by
  constructor
  case mp =>
    rintro ⟨calls, hcome⟩
    cases calls with
    | zero => exact .inl hcome
    | succ calls => exact .inr ⟨calls, hcome⟩
  case mpr =>
    rintro (hcome | ⟨calls, hcome⟩)
    · exact ⟨0, hcome⟩
    · exact ⟨calls + 1, hcome⟩

theorem comes_of_nil (h : e.script = []) : Comes count e ↔ Come count e := by
  have hstays : ∀ calls, Alike (Exchange.called^[calls] e) e := by
    intro calls
    induction calls with
    | zero => exact ⟨rfl, rfl⟩
    | succ calls ih =>
      rw [Function.iterate_succ_apply']
      have hnil : (Exchange.called^[calls] e).script = [] := ih.2.trans h
      rw [called_of_nil hnil]
      exact ih
  constructor
  case mp =>
    rintro ⟨calls, hcome⟩
    exact (hstays (calls + 1)).come.mp hcome
  case mpr => exact fun hcome => ⟨0, (hstays 1).come.mpr hcome⟩

/-- How `conn_receive` ends. -/
inductive ReceiveEnds (count : Nat) (e : Exchange) : Option (Int × Bytes) × Exchange → Prop
  | returned {r : Int × Bytes} {e' : Exchange} : Noted e e' → Comes count e →
      ReceiveEnds count e (some r, e')
  | waits {e' : Exchange} : e'.receives = e.receives → ¬ Comes count e →
      ReceiveEnds count e (none, e')

theorem connReceiveRound_done {r : Int × Bytes}
    (h : connReceiveRound count e = (.done r, e')) : Noted e e' ∧ Come count e.called := by
  have hcalled := called_noted e
  unfold connReceiveRound at h
  simp only at h
  split at h
  case isTrue herror =>
    cases h
    exact ⟨hcalled, .inl herror⟩
  case isFalse hfine =>
    split at h
    case isTrue henough =>
      cases h
      refine ⟨⟨hcalled.silentRounds, hcalled.receives, ?_⟩, .inr henough⟩
      refine Nat.le_trans ?_ hcalled.streamLength
      exact Nat.add_le_add_right (length_drop_le count e.called.receivedBytes) _
    case isFalse hfew => cases h

theorem connReceiveRound_more {b : Unit} (h : connReceiveRound count e = (.more b, e')) :
    e' = e.called ∧ ¬ Come count e.called := by
  unfold connReceiveRound at h
  simp only at h
  split at h
  case isTrue herror => cases h
  case isFalse hfine =>
    split at h
    case isTrue henough => cases h
    case isFalse hfew =>
      cases h
      exact ⟨rfl, not_or_intro hfine hfew⟩

theorem connReceiveLoop_ends (script : List XioCall) (hscript : e.script = script) :
    ReceiveEnds count e (connReceiveLoop count script e) := by
  induction script generalizing e with
  | nil =>
    unfold connReceiveLoop
    rcases hround : connReceiveRound count e with ⟨r | b, e'⟩
    · obtain ⟨hnoted, hcome⟩ := connReceiveRound_done hround
      exact .returned hnoted (comes_iff.mpr (.inl hcome))
    · obtain ⟨rfl, hnot⟩ := connReceiveRound_more hround
      refine .waits (called_noted e).receives ?_
      rw [comes_of_nil hscript]
      intro hcome
      apply hnot
      rw [called_of_nil hscript]
      exact hcome
  | cons call script ih =>
    unfold connReceiveLoop
    rcases hround : connReceiveRound count e with ⟨r | b, e'⟩
    · obtain ⟨hnoted, hcome⟩ := connReceiveRound_done hround
      exact .returned hnoted (comes_iff.mpr (.inl hcome))
    · obtain ⟨rfl, hnot⟩ := connReceiveRound_more hround
      have hcalled := called_noted e
      have hquiet : e.called.silent = false ∧ e.called.script = script := by
        unfold Exchange.called
        rw [hscript]
        exact ⟨rfl, rfl⟩
      have hslept : e.called.slept = e.called := slept_of_heard hquiet.1
      have hcomes : Comes count e ↔ Comes count e.called := by
        rw [comes_iff]
        exact or_iff_right hnot
      simp only [hslept]
      have hends := ih hquiet.2
      generalize connReceiveLoop count script e.called = r at hends
      cases hends with
      | returned hnoted hcome =>
        refine .returned ⟨?_, ?_, ?_⟩ (hcomes.mpr hcome)
        · exact hnoted.silentRounds.trans hcalled.silentRounds
        · exact hnoted.receives.trans hcalled.receives
        · exact Nat.le_trans hnoted.streamLength hcalled.streamLength
      | waits hreceives hnever =>
        exact .waits (hreceives.trans hcalled.receives) (hnever ∘ hcomes.mp)

/-- `conn_receive` never returns if and only if it is not supplied, and without a silent round. -/
theorem connReceive_ends (count : Int) (hnone : e.silentRounds = 0) :
    Ends (fun _ => True) 0 e (connReceive count e) := by
  unfold connReceive
  split
  case isTrue hnegative => exact .pure trivial hnone
  case isFalse hcount =>
    split
    case isTrue hzero => exact .pure trivial hnone
    case isFalse hpos =>
      have hrecorded : ∀ e' : Exchange,
          e'.receives = e.receives ++ [(count.toNat, e.toConnection, e.script)] →
          (AllSupplied e' ↔ AllSupplied e ∧ Comes count.toNat e) := by
        intro e' hreceives
        unfold AllSupplied
        rw [hreceives, List.forall_mem_append, List.forall_mem_singleton]
        exact and_congr_right fun _ => Alike.comes ⟨rfl, rfl⟩
      have hcomes : Comes count.toNat
          { e with receives := e.receives ++ [(count.toNat, e.toConnection, e.script)] } ↔
          Comes count.toNat e := Alike.comes ⟨rfl, rfl⟩
      have hends : ReceiveEnds count.toNat
          { e with receives := e.receives ++ [(count.toNat, e.toConnection, e.script)] }
          (connReceiveLoop count.toNat e.script
            { e with receives := e.receives ++ [(count.toNat, e.toConnection, e.script)] }) :=
        connReceiveLoop_ends e.script rfl
      change Ends _ 0 e (connReceiveLoop count.toNat e.script
        { e with receives := e.receives ++ [(count.toNat, e.toConnection, e.script)] })
      generalize connReceiveLoop count.toNat e.script
        { e with receives := e.receives ++ [(count.toNat, e.toConnection, e.script)] } = r at hends
      cases hends with
      | returned hnoted hcome =>
        refine .succeeds trivial (hnoted.silentRounds.trans hnone) hnoted.streamLength ?_
        exact fun hall => (hrecorded _ hnoted.receives).mpr ⟨hall, hcomes.mp hcome⟩
      | waits hreceives hnever =>
        exact .waits fun hall => hnever (hcomes.mpr ((hrecorded _ hreceives).mp hall).2)

end

/-! ## Opening and sending -/

section

variable {α : Type} {S : α → Prop} {k : Nat} {e : Exchange}

theorem update_ends {f : Connection → Connection} {p : Unit → ExchangeM α}
    (hf : ∀ c, (f c).receivedBytes = c.receivedBytes) (hnone : e.silentRounds = 0)
    (h : ∀ e', e'.silentRounds = 0 → e'.streamLength = e.streamLength → Ends S k e' (p () e')) :
    Ends S k e ((update f >>= p) e) := by
  let e' : Exchange := { e with toConnection := f e.toConnection }
  have hstream : e'.streamLength = e.streamLength := congrArg (·.length + _) (hf e.toConnection)
  rw [run_bind]
  exact (h e' hnone hstream).after (Nat.le_of_eq hstream) id

theorem record_ends {buf : Bytes} {p : Unit → ExchangeM α} (hnone : e.silentRounds = 0)
    (h : ∀ e', e'.silentRounds = 0 → Ends S k e' (p () e')) :
    Ends S k e ((record buf >>= p) e) := by
  rw [run_bind]
  exact (h { e with sent := e.sent ++ [buf] } hnone).after (Nat.le_refl _) id

theorem xioCall_ends (hnone : e.silentRounds = 0) : Ends (fun _ => True) 0 e (xioCall e) :=
  .succeeds trivial ((called_noted e).silentRounds.trans hnone) (called_noted e).streamLength
    (.of_receives (called_noted e).receives)

theorem setOption_ends (given : Bool) (hnone : e.silentRounds = 0) :
    Ends (fun _ => True) 0 e (setOption given e) := by
  unfold setOption
  split
  · exact xioCall_ends hnone
  · exact .pure trivial hnone

theorem unless_ends {p : ExchangeM Bool} {failure : HttpApiResult} {rest : ExchangeM HttpApiResult}
    (hp : Ends (fun _ => True) 0 e (p e)) (hfailure : failure ≠ .ok)
    (hrest : ∀ e' : Exchange, e'.silentRounds = 0 → Ends (· = .ok) 0 e' (rest e')) :
    Ends (· = .ok) 0 e ((do if !(← p) then return failure else rest) e) := by
  refine hp.bind ?_ fun a ha => absurd trivial ha
  intro ok e' _ hnone _
  cases ok with
  | true => exact hrest e' hnone
  | false => exact .pureFailed hnone hfailure

theorem andThen_ends {p : ExchangeM HttpApiResult} {rest : ExchangeM α} {failed : HttpApiResult → α}
    (hp : Ends (· = .ok) 0 e (p e)) (hfailed : ∀ result, result ≠ .ok → ¬ S (failed result))
    (hrest : ∀ e' : Exchange, e'.silentRounds = 0 → Ends S k e' (rest e')) :
    Ends S k e ((p >>= fun result =>
      if (result != .ok) = true then pure (failed result) else rest) e) := by
  apply hp.bind
  case hok =>
    rintro result e' rfl hnone -
    exact hrest e' hnone
  case hfail =>
    intro result hresult
    refine ⟨failed result, ?_, hfailed result hresult⟩
    rw [if_pos (bne_iff_ne.mpr hresult)]

theorem openConnection_ends (c : Connection) (hnone : e.silentRounds = 0) :
    Ends (· = .ok) 0 e (openConnection c e) := by
  unfold openConnection
  refine update_ends (fun _ => rfl) hnone ?_
  intro e₀ hnone₀ _
  apply unless_ends (setOption_ends _ hnone₀) HttpApiResult.noConfusion
  intro e₁ hnone₁
  apply unless_ends (setOption_ends _ hnone₁) HttpApiResult.noConfusion
  intro e₂ hnone₂
  apply unless_ends (setOption_ends _ hnone₂) HttpApiResult.noConfusion
  intro e₃ hnone₃
  apply unless_ends (xioCall_ends hnone₃) HttpApiResult.noConfusion
  intro e₄ hnone₄
  exact waitLoop_ends openRound_countsDown (by nofun) (by decide) hnone₄

theorem openXioConnection_ends (hnone : e.silentRounds = 0) :
    Ends (· = .ok) 0 e (openXioConnection e) := by
  have hchecked : ∀ {p : ExchangeM HttpApiResult}, Ends (· = .ok) 0 e (p e) →
      Ends (· = .ok) 0 e ((p >>= fun result => do
        let c ← readConnection
        if c.isIoError && result == .ok then return .openRequestFailed
        return result) e) := by
    intro p hp
    apply hp.bind
    case hok =>
      rintro result e' rfl hnone' -
      rw [run_bind]
      simp only [readConnection]
      split
      · exact .pureFailed hnone' (by nofun)
      · exact .pure rfl hnone'
    case hfail =>
      intro result hresult
      refine ⟨result, ?_, hresult⟩
      funext e'
      rw [run_bind]
      simp only [readConnection, beq_eq_false_iff_ne.mpr hresult, Bool.and_false, Bool.false_eq_true,
        if_false]
  unfold openXioConnection
  rw [run_bind]
  change Ends _ 0 e ((ite (e.isConnected = true) _ _ : ExchangeM HttpApiResult) e)
  split
  · exact hchecked (.pure rfl hnone)
  · exact hchecked (openConnection_ends _ hnone)

theorem connSendAll_ends (buf : Bytes) (hnone : e.silentRounds = 0) :
    Ends (· = .ok) 0 e (connSendAll buf e) := by
  unfold connSendAll
  refine update_ends (fun _ => rfl) hnone ?_
  intro e₁ hnone₁ _
  refine record_ends hnone₁ ?_
  intro e₂ hnone₂
  apply unless_ends (xioCall_ends hnone₂) HttpApiResult.noConfusion
  intro e₃ hnone₃
  exact waitLoop_ends sendRound_countsDown (by nofun) (by decide) hnone₃

theorem sendHeaders_ends (headers : List (Option Bytes)) (hnone : e.silentRounds = 0) :
    Ends (· = .ok) 0 e (sendHeaders headers e) := by
  induction headers generalizing e with
  | nil => exact .pure rfl hnone
  | cons header headers ih =>
    cases header with
    | none => exact .pureFailed hnone (by nofun)
    | some header =>
      unfold sendHeaders
      refine andThen_ends (connSendAll_ends header hnone) (fun _ h => h) ?_
      intro e₁ hnone₁
      refine andThen_ends (connSendAll_ends _ hnone₁) (fun _ h => h) ?_
      exact fun e₂ hnone₂ => ih hnone₂

theorem sendHeadsToXio_ends (requestType : Nat) (relativePath : Bytes)
    (headers : List (Option Bytes)) (hnone : e.silentRounds = 0) :
    Ends (· = .ok) 0 e (sendHeadsToXio requestType relativePath headers e) := by
  unfold sendHeadsToXio
  split
  · exact .pureFailed hnone (by nofun)
  · refine andThen_ends (connSendAll_ends _ hnone) (fun _ h => h) ?_
    intro e₁ hnone₁
    refine andThen_ends (sendHeaders_ends headers hnone₁) (fun _ h => h) ?_
    exact fun e₂ hnone₂ => connSendAll_ends _ hnone₂

theorem sendContentToXio_ends (content : Option Bytes) (hnone : e.silentRounds = 0) :
    Ends (· = .ok) 0 e (sendContentToXio content e) := by
  unfold sendContentToXio
  split
  · exact connSendAll_ends _ hnone
  · exact .pure rfl hnone

end

/-! ## Receiving -/

section

variable {Headers : Type} {e : Exchange}

theorem readLine_ends (maxBufSize : Nat) (hnone : e.silentRounds = 0) :
    Ends (fun line => line.isSome = true) 1 e (readLine maxBufSize e) :=
  waitLoop_ends (readLineRound_countsDown maxBufSize) (by nofun) (by decide) hnone

theorem line_ends {α : Type} {S : α → Prop} {k : Nat} {failed : α} {f : Bytes → ExchangeM α}
    (hnone : e.silentRounds = 0) (hfailed : ¬ S failed)
    (hf : ∀ buf e', e'.silentRounds = 0 → e'.streamLength + 1 ≤ e.streamLength →
      Ends S k e' (f buf e')) :
    Ends S k e ((readLine tempBufferSize >>= fun line =>
      match line with
      | none => pure failed
      | some buf => f buf) e) := by
  apply (readLine_ends tempBufferSize hnone).bind
  case hok =>
    intro line e' hline hnone' htaken
    cases line with
    | none => cases hline
    | some buf => exact hf buf e' hnone' htaken
  case hfail =>
    intro line hline
    cases line with
    | none => exact ⟨failed, rfl, hfailed⟩
    | some buf => exact absurd rfl hline

theorem readChunkLoop_ends (rounds size : Nat) (hnone : e.silentRounds = 0) :
    Ends (fun _ => True) 0 e (readChunkLoop rounds size e) := by
  induction rounds generalizing size e with
  | zero => exact .pure trivial hnone
  | succ rounds ih =>
    unfold readChunkLoop
    split
    · exact .pure trivial hnone
    · refine (connReceive_ends _ hnone).bind ?_ fun a ha => absurd trivial ha
      rintro ⟨cur, bytes⟩ e₁ - hnone₁ -
      simp only
      split
      · exact .pure trivial hnone₁
      · refine (ih _ hnone₁).bind ?_ fun a ha => absurd trivial ha
        rintro ⟨offset, rest⟩ e₂ - hnone₂ -
        exact .pure trivial hnone₂

theorem readChunk_ends (size : Nat) (hnone : e.silentRounds = 0) :
    Ends (fun _ => True) 0 e (readChunk size e) :=
  readChunkLoop_ends _ size hnone

theorem skipN_ends (n : Nat) (hnone : e.silentRounds = 0) :
    Ends (fun result : Int => 0 ≤ result) 0 e (skipN n e) := by
  unfold skipN
  split
  · exact .pure (Int.le_refl 0) hnone
  · apply (waitLoop_ends skipRound_countsDown Bool.false_ne_true (by decide) hnone).bind
    case hok =>
      rintro skipped e' rfl hnone' -
      by_cases hfits : 0 ≤ intOfSizeT n
      case pos => exact .pure hfits hnone'
      case neg => exact .pureFailed hnone' hfits
    case hfail =>
      intro skipped hskipped
      exact ⟨-1, by rw [if_neg hskipped], by decide⟩

theorem readChunkEnd_ends (hnone : e.silentRounds = 0) :
    Ends (fun _ => True) 0 e (readChunkEnd e) := by
  unfold readChunkEnd
  refine (readChunk_ends 2 hnone).bind ?_ fun a ha => absurd trivial ha
  rintro ⟨result, buf⟩ e' - hnone' -
  exact .pure trivial hnone'

end

/-! ## The response -/

section

variable {Headers : Type} (addHeaderNameValuePair : Headers → Bytes → Bytes → Headers)
variable (uninitialised : Nat → UInt8) {e : Exchange}

theorem receiveHeaderFromXio_ends (maxReasonPhraseSize : Nat) (response : Response Headers)
    (hnone : e.silentRounds = 0) :
    Ends (fun r => r.1 = .ok) 0 e (receiveHeaderFromXio maxReasonPhraseSize response e) := by
  unfold receiveHeaderFromXio
  refine update_ends (fun _ => rfl) hnone ?_
  intro e₁ hnone₁ _
  apply line_ends hnone₁ (by nofun)
  intro buf e₂ hnone₂ _
  simp only
  cases (parseHttpResponse (cString buf) maxReasonPhraseSize).1 with
  | none => exact .pureFailed hnone₂ (by nofun)
  | some ret => exact .pure rfl hnone₂

theorem receiveContentInfoLoop_ends (rounds : Nat) (buf : Bytes) (info : ContentInfo)
    (response : Response Headers) (hnone : e.silentRounds = 0) (hrounds : e.streamLength < rounds) :
    Ends (fun r => r.1 = .ok) 0 e
      (receiveContentInfoLoop addHeaderNameValuePair rounds buf info response e) := by
  induction rounds generalizing buf info response e with
  | zero => exact absurd hrounds (Nat.not_lt_zero _)
  | succ rounds ih =>
    unfold receiveContentInfoLoop
    split
    · exact .pure rfl hnone
    · cases contentInfoOf buf info with
      | none => exact .pureFailed hnone (by nofun)
      | some info' =>
        apply line_ends hnone (by nofun)
        intro buf' e' hnone' htaken
        exact ih _ _ _ hnone' (by omega)

theorem receiveContentInfoFromXio_ends (response : Response Headers) (hnone : e.silentRounds = 0) :
    Ends (fun r => r.1 = .ok) 0 e
      (receiveContentInfoFromXio addHeaderNameValuePair response e) := by
  unfold receiveContentInfoFromXio
  refine update_ends (fun _ => rfl) hnone ?_
  intro e₁ hnone₁ _
  apply line_ends hnone₁ (by nofun)
  intro buf e₂ hnone₂ _
  rw [run_bind]
  exact receiveContentInfoLoop_ends _ _ _ _ _ hnone₂ (Nat.lt_succ_self _)

theorem readChunkData_ends (size chunkSize : Nat) (response : Response Headers)
    (hnone : e.silentRounds = 0) :
    Ends (fun r => r.1 = .ok) 0 e
      (readChunksLoop.readChunkData uninitialised size chunkSize response e) := by
  unfold readChunksLoop.readChunkData
  cases bufferEnlarge uninitialised response.content chunkSize with
  | none => exact .pureFailed hnone (by nofun)
  | some content =>
    refine (readChunk_ends chunkSize hnone).bind ?_ fun a ha => absurd trivial ha
    rintro ⟨result, bytes⟩ e' - hnone' -
    simp only
    split
    · exact .pureFailed hnone' (by nofun)
    · exact .pure rfl hnone'

theorem skipped_ends (n : Nat) (response : Response Headers) (hnone : e.silentRounds = 0) :
    Ends (fun r => r.1 = .ok) 0 e
      ((do
        let skipped ← skipN n
        return (if skipped < 0 then .readDataFailed else .ok, response) :
          ExchangeM (HttpApiResult × Response Headers)) e) := by
  apply (skipN_ends n hnone).bind
  case hok =>
    intro skipped e' hskipped hnone' _
    exact .pure (if_neg (Int.not_lt.mpr hskipped)) hnone'
  case hfail =>
    intro skipped hskipped
    refine ⟨_, rfl, ?_⟩
    rw [if_pos (Int.not_le.mp hskipped)]
    nofun

theorem readChunksLoop_ends (contentGiven : Bool) (rounds size : Nat) (response : Response Headers)
    (hnone : e.silentRounds = 0) (hrounds : e.streamLength < rounds) :
    Ends (fun r => r.1 = .ok) 0 e
      (readChunksLoop uninitialised contentGiven rounds size response e) := by
  induction rounds generalizing size response e with
  | zero => exact absurd hrounds (Nat.not_lt_zero _)
  | succ rounds ih =>
    unfold readChunksLoop
    apply line_ends hnone (by nofun)
    intro buf e₁ hnone₁ htaken
    cases parseStringToHexadecimal (cString buf) with
    | none => exact .pureFailed hnone₁ (by nofun)
    | some chunkSize =>
      simp only
      split
      · refine (readChunkEnd_ends hnone₁).bind ?_ fun a ha => absurd trivial ha
        intro ended e₂ _ hnone₂ _
        cases ended with
        | true => exact .pure rfl hnone₂
        | false => exact .pureFailed hnone₂ (by nofun)
      · have hgoOn : ∀ {p : ExchangeM (HttpApiResult × Response Headers)},
            Ends (fun r => r.1 = .ok) 0 e₁ (p e₁) →
            Ends (fun r => r.1 = .ok) 0 e₁ ((p >>= fun r => do
              if r.1 != .ok then return (r.1, r.2)
              if ← readChunkEnd then
                readChunksLoop uninitialised contentGiven rounds (size + chunkSize) r.2
              else return (.readDataFailed, r.2)) e₁) := by
          intro p hp
          apply hp.bind
          case hok =>
            rintro ⟨result, response'⟩ e₂ rfl hnone₂ htaken₂
            refine (readChunkEnd_ends hnone₂).bind ?_ fun a ha => absurd trivial ha
            intro ended e₃ _ hnone₃ htaken₃
            cases ended with
            | true => exact ih _ _ hnone₃ (by omega)
            | false => exact .pureFailed hnone₃ (by nofun)
          case hfail =>
            intro r hr
            exact ⟨r, if_pos (bne_iff_ne.mpr hr), hr⟩
        split
        · exact hgoOn (readChunkData_ends uninitialised size chunkSize response hnone₁)
        · rw [← bind_assoc]
          exact hgoOn (skipped_ends chunkSize response hnone₁)

theorem readHTTPResponseBodyFromXio_ends (contentGiven : Bool) (info : ContentInfo)
    (response : Response Headers) (hnone : e.silentRounds = 0) :
    Ends (fun r => r.1 = .ok) 0 e
      (readHTTPResponseBodyFromXio uninitialised contentGiven info response e) := by
  unfold readHTTPResponseBodyFromXio
  refine update_ends (fun _ => rfl) hnone ?_
  intro e₁ hnone₁ _
  split
  · rw [run_bind]
    exact readChunksLoop_ends uninitialised contentGiven _ 0 response hnone₁ (Nat.lt_succ_self _)
  · split
    · exact .pure rfl hnone₁
    · split
      · cases bufferPreBuild uninitialised response.content info.bodyLength with
        | none => exact .pureFailed hnone₁ (by nofun)
        | some content =>
          refine (readChunk_ends info.bodyLength hnone₁).bind ?_ fun a ha => absurd trivial ha
          rintro ⟨result, bytes⟩ e₂ - hnone₂ -
          simp only
          split
          · exact .pureFailed hnone₂ (by nofun)
          · exact .pure rfl hnone₂
      · exact skipped_ends info.bodyLength response hnone₁

theorem sendAndReceive_ends (request : Request) (relativePath : Bytes)
    (headers : List (Option Bytes)) (maxReasonPhraseSize : Nat) (contentGiven : Bool)
    (response : Response Headers) (hnone : e.silentRounds = 0) :
    Ends (fun r => r.1 = .ok) 0 e
      (sendAndReceive addHeaderNameValuePair uninitialised request relativePath headers
        maxReasonPhraseSize contentGiven response e) := by
  unfold sendAndReceive
  refine andThen_ends (openXioConnection_ends hnone) (fun _ h => h) ?_
  intro e₁ hnone₁
  refine andThen_ends (sendHeadsToXio_ends _ _ _ hnone₁) (fun _ h => h) ?_
  intro e₂ hnone₂
  refine andThen_ends (sendContentToXio_ends _ hnone₂) (fun _ h => h) ?_
  intro e₃ hnone₃
  apply (receiveHeaderFromXio_ends maxReasonPhraseSize response hnone₃).bind
  case hfail =>
    intro r hr
    exact ⟨r, if_pos (bne_iff_ne.mpr hr), hr⟩
  case hok =>
    rintro ⟨result, response₄⟩ e₄ rfl hnone₄ -
    apply (receiveContentInfoFromXio_ends addHeaderNameValuePair response₄ hnone₄).bind
    case hfail =>
      intro r hr
      exact ⟨(r.1, r.2.2), if_pos (bne_iff_ne.mpr hr), hr⟩
    case hok =>
      rintro ⟨result, info, response₅⟩ e₅ rfl hnone₅ -
      exact readHTTPResponseBodyFromXio_ends uninitialised contentGiven info response₅ hnone₅

theorem discarded_givesUp {α : Type} {S : α → Prop} {p : ExchangeM α} (h : Ends S 0 e (p e))
    (hreceives : e.receives = []) :
    let r := (do
      let a ← p
      update fun c => { c with receivedBytes := [] }
      return a : ExchangeM α) e
    (r.1.isSome ∧ r.2.silentRounds ≤ retryBound) ↔ ∀ receive ∈ r.2.receives, Supplied receive := by
  have hsupplied : AllSupplied e := by
    intro receive hreceive
    rw [hreceives] at hreceive
    cases hreceive
  simp only [run_bind, update]
  generalize p e = r at h
  cases h with
  | succeeds ha hsilent htaken hall =>
    exact iff_of_true ⟨rfl, hsilent ▸ Nat.zero_le _⟩ (hall hsupplied)
  | fails ha hsilent hall => exact iff_of_true ⟨rfl, hsilent⟩ (hall hsupplied)
  | waits hwaits => exact iff_of_false (fun hreturned => Bool.false_ne_true hreturned.1) hwaits

/-- The request returns in time if and only if each call of `conn_receive` is supplied. -/
theorem httpApiExecuteRequest_givesUp (request : Request) (maxReasonPhraseSize : Nat)
    (contentGiven : Bool) (response : Response Headers) (c : Connection) (script : List XioCall) :
    let r := httpApiExecuteRequest addHeaderNameValuePair uninitialised request maxReasonPhraseSize
      contentGiven response { toConnection := c, script := script }
    (r.1.isSome ∧ r.2.silentRounds ≤ retryBound) ↔ ∀ receive ∈ r.2.receives, Supplied receive := by
  have hinvalid : Ends (fun r => r.1 = .ok) 0 { toConnection := c, script := script }
      ((pure (.invalidArg, response) : ExchangeM (HttpApiResult × Response Headers))
        { toConnection := c, script := script }) := .pureFailed rfl (by nofun)
  obtain ⟨requestType, relativePath, headers, content⟩ := request
  unfold httpApiExecuteRequest
  cases relativePath with
  | none => exact discarded_givesUp hinvalid rfl
  | some relativePath =>
    cases headers with
    | none => exact discarded_givesUp hinvalid rfl
    | some headers =>
      simp only
      split
      · exact discarded_givesUp (sendAndReceive_ends addHeaderNameValuePair uninitialised _
          relativePath headers maxReasonPhraseSize contentGiven response rfl) rfl
      · exact discarded_givesUp hinvalid rfl

/-- The peer opens the connection, takes the request and falls silent behind the header lines. -/
def silentInBody : Exchange where
  script :=
    [{ callbacks := [.openComplete true] }, { callbacks := [.sendComplete true] },
      { callbacks := [.sendComplete true] },
      { callbacks := [.bytes (ascii "HTTP/1.1 200 OK\r\nContent-Length: 2\r\n\r\n")] }]

/-- In the body the request waits forever. -/
theorem httpApiExecuteRequest_silentInBody :
    let r := httpApiExecuteRequest (fun headers name value => headers ++ [(name, value)])
      (fun _ => 0) { requestType := 0, relativePath := some (ascii "/"), headers := some [] } 0 true
      { headers := some [], content := none } silentInBody
    ¬ (r.1.isSome ∧ r.2.silentRounds ≤ retryBound) := by
  decide +kernel

end

end Exchange

end SharedUtility.HttpApiCompact
