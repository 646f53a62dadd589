import SharedUtility.UwsClient.Receive

/-!
# Chunks — a server's bytes in whatever pieces they arrive

* `Receives`, `Session` — the calls of `on_underlying_io_bytes_received`, one for each chunk,
* `Handled`             — what the client has made of the bytes so far,
* `Receives.invariant`  — what every call preserves holds after all of them.

`Session.handledAll` holds for every way to cut the bytes: the frames among them have been handled, in
order.
-/

namespace SharedUtility.UwsClient

open Reentrant

/-- A client that is OPEN at a frame boundary. -/
structure Ready (c : UwsClientInstance) : Prop where
  uwsState : c.uwsState = .uwsStateOpen
  callbacks : c.callbacks.anyNull = false
  streamBuffer : c.streamBuffer = []

/-- The client of the concrete runs: OPEN, with all callbacks set, nothing received or sent. -/
def openClient : UwsClientInstance where
  hostname := []
  resourceName := []
  protocols := []
  port := 443
  requestHeaders := []
  uwsState := .uwsStateOpen
  callbacks := ⟨some 0, some 1, some 2, some 3⟩

theorem ready_openClient : Ready openClient :=
  ⟨rfl, rfl, rfl⟩

theorem answers_succeeds (c : Call) : answers {} c (succeeds c) := by
  cases c with
  | xioSend p bytes =>
    cases p
    all_goals first | rfl | trivial
  | _ => first | rfl | trivial

/-- The calls of `on_underlying_io_bytes_received` with the chunks, each of which meets `meets` when
its call is made. -/
inductive Receives (ok : (c : Call) → Ans c → Prop) (meets : Uws → Bytes → Prop) :
    Uws → List Bytes → Uws → Prop where
  | done (s : Uws) : Receives ok meets s [] s
  | chunk {s s₁ s' : Uws} {bytes : Bytes} {chunks : List Bytes} {r : Int} :
      bytes ≠ [] → meets s bytes →
        Eval uwsCode ok (uwsCode (.onUnderlyingIoBytesReceived (some bytes)) s) r s₁ →
          Receives ok meets s₁ chunks s' → Receives ok meets s (bytes :: chunks) s'

theorem eval_start {ok : (c : Call) → Ans c → Prop} (hok : ∀ c, ok c (succeeds c)) :
    Eval uwsCode ok (decodeStream { client := openClient }) 0 { client := openClient } :=
  Prog.eval_sound hok 9 rfl

/-- The session of a client that becomes OPEN with `retained` bytes behind the upgrade response in
its stream buffer, and then receives the chunks. -/
def Session (ok : (c : Call) → Ans c → Prop) (meets : Uws → Bytes → Prop) (s₀ : Uws)
    (retained : Bytes) (chunks : List Bytes) (s' : Uws) : Prop :=
  ∃ r s₁, meets s₀ retained ∧
    Eval uwsCode ok (decodeStream (s₀.setClient (s₀.client.withStream retained))) r s₁ ∧
      Receives ok meets s₁ chunks s'

/-- Of the frames in the bytes received so far the first `k` have been handled; an OPEN client still
has the others, and the partial frame behind them, in its stream buffer. -/
structure Handled (x : XioResults) (s₀ : Uws) (bs : Bytes) (k : Nat) (s : Uws) : Prop where
  le : k ≤ (splitFrames bs).1.length
  observations : s.observations =
    s₀.observations ++ (receiveFrames x s₀.client ((splitFrames bs).1.take k)).2
  client : s.client = (receiveFrames x s₀.client ((splitFrames bs).1.take k)).1.withStream
    s.client.streamBuffer
  buffered : s.client.uwsState = .uwsStateOpen →
    s.client.streamBuffer = wireBytes ((splitFrames bs).1.drop k) ++ (splitFrames bs).2

section

variable {x : XioResults} {s₀ s : Uws}

theorem receiveFrames_openOrStopped {c : UwsClientInstance} (fs : List WireFrame)
    (hst : c.uwsState.openOrStopped = true) :
    (receiveFrames x c fs).1.uwsState.openOrStopped = true := by
  induction fs generalizing c with
  | nil => exact hst
  | cons f fs ih =>
    by_cases hopen : c.uwsState = .uwsStateOpen
    · simpa [receiveFrames, hopen] using ih (receive_openOrStopped hst)
    · simpa [receiveFrames, hopen] using hst

theorem receiveFrames_callbacks {c : UwsClientInstance} (fs : List WireFrame) :
    (receiveFrames x c fs).1.callbacks = c.callbacks := by
  induction fs generalizing c with
  | nil => rfl
  | cons f fs ih =>
    by_cases hopen : c.uwsState = .uwsStateOpen
    · simp [receiveFrames, hopen, ih, receive_callbacks]
    · simp [receiveFrames, hopen]

theorem handledCount_le (c : UwsClientInstance) (fs : List WireFrame) :
    handledCount x c fs ≤ fs.length := by
  induction fs generalizing c with
  | nil => simp [handledCount]
  | cons f fs ih =>
    have hrest := ih (c.receive x f).1
    simp only [handledCount, List.length_cons]
    split
    · split
      · omega
      · omega
    · omega

/-- The code of a call with a chunk, when frames can be decoded and when they cannot. -/
theorem bytesReceived_meets {chunk : Bytes} (hne : chunk ≠ []) (fs : List WireFrame) {tail : Bytes}
    (hst : s.client.uwsState.openOrStopped = true) (hcb : s.client.callbacks.anyNull = false)
    (hbuf : s.client.uwsState = .uwsStateOpen →
      s.client.streamBuffer ++ chunk = wireBytes fs ++ tail)
    (hpart : PartialFrame tail) :
    Quiet uwsCode (answers x) (uwsCode (.onUnderlyingIoBytesReceived (some chunk)))
      (fun _ s' =>
        if s.client.uwsState = .uwsStateOpen then
          s'.client = (receiveFrames x s.client (fs.take (handledCount x s.client fs))).1.withStream
              (wireBytes (fs.drop (handledCount x s.client fs)) ++ tail) ∧
            s'.observations = s.observations ++
              (receiveFrames x s.client (fs.take (handledCount x s.client fs))).2
        else s' = s) s := by
  simp only [uwsCode, void, quiet_bind, onUnderlyingIoBytesReceived_nonempty hne, receiveBytes,
    quiet_getClient]
  by_cases hopen : s.client.uwsState = .uwsStateOpen
  · simp only [hopen, if_true, quiet_bind, answers_malloc_iff, Bool.true_eq_false, if_false,
      appendReceivedBytes, quiet_modifyClient, quiet_callProc, uwsCode]
    have hloop := decodeStream_frames (x := x)
      (s := s.setClient (s.client.withStream (s.client.streamBuffer ++ chunk))) fs
      (by simpa using hst) (by simpa using hcb) (by simpa using hbuf hopen) hpart
    refine Quiet.mono hloop ?_
    intro _ s' h
    simpa [receiveFrames_withStream, handledCount_withStream] using h
  · cases hcase : s.client.uwsState
    all_goals simp [hcase, UwsState.openOrStopped] at hst hopen ⊢

theorem Handled.start {retained : Bytes} (h₀ : Ready s₀.client)
    (hpart : PartialFrame (splitFrames retained).2) :
    Quiet uwsCode (answers x) decodeStream
      (fun _ s' => Handled x s₀ retained (handledCount x s₀.client (splitFrames retained).1) s')
      (s₀.setClient (s₀.client.withStream retained)) := by
  have hloop := decodeStream_frames (x := x) (s := s₀.setClient (s₀.client.withStream retained))
    (splitFrames retained).1 (by simp [h₀.uwsState, UwsState.openOrStopped])
    (by simpa using h₀.callbacks) (by simpa using (splitFrames_spec retained).1) hpart
  refine Quiet.mono hloop ?_
  intro _ s' h
  simp only [Uws.setClient_client, receiveFrames_withStream, handledCount_withStream,
    observations_setClient, UwsClientInstance.withStream_withStream] at h
  constructor
  case le => exact handledCount_le _ _
  case observations => exact h.2
  case client => simp [h.1]
  case buffered =>
    intro _
    simp [h.1]

theorem Handled.waiting {bs : Bytes} {k : Nat} (h : Handled x s₀ bs k s)
    (hopen : s.client.uwsState = .uwsStateOpen) (chunk : Bytes) :
    splitFrames (s.client.streamBuffer ++ chunk) =
      ((splitFrames bs).1.drop k ++ (splitFrames ((splitFrames bs).2 ++ chunk)).1,
        (splitFrames ((splitFrames bs).2 ++ chunk)).2) := by
  rw [h.buffered hopen, List.append_assoc, splitFrames_wireBytes]

/-- The frames handled when `n` of the frames at hand are handled too. -/
theorem Handled.take_append {bs : Bytes} {k : Nat} (h : Handled x s₀ bs k s)
    (hopen : s.client.uwsState = .uwsStateOpen) (chunk : Bytes) (n : Nat) :
    (splitFrames (bs ++ chunk)).1.take (k + n) =
      (splitFrames bs).1.take k ++ (splitFrames (s.client.streamBuffer ++ chunk)).1.take n := by
  rw [h.waiting hopen, splitFrames_append bs chunk, List.take_add,
    List.take_append_of_le_length h.le, List.drop_append_of_le_length h.le]

theorem Handled.drop_append {bs : Bytes} {k : Nat} (h : Handled x s₀ bs k s)
    (hopen : s.client.uwsState = .uwsStateOpen) (chunk : Bytes) (n : Nat) :
    (splitFrames (bs ++ chunk)).1.drop (k + n) =
      (splitFrames (s.client.streamBuffer ++ chunk)).1.drop n := by
  rw [h.waiting hopen, splitFrames_append bs chunk, ← List.drop_drop,
    List.drop_append_of_le_length h.le]

theorem Handled.take_stopped {bs : Bytes} {k : Nat} (h : Handled x s₀ bs k s) (chunk : Bytes) :
    (splitFrames (bs ++ chunk)).1.take k = (splitFrames bs).1.take k := by
  rw [splitFrames_append, List.take_append_of_le_length h.le]

theorem Handled.chunk {bs chunk : Bytes} {k : Nat} (hne : chunk ≠ []) (h₀ : Ready s₀.client)
    (h : Handled x s₀ bs k s) (hpart : PartialFrame (splitFrames (bs ++ chunk)).2) :
    Quiet uwsCode (answers x) (uwsCode (.onUnderlyingIoBytesReceived (some chunk)))
      (fun _ s' => Handled x s₀ (bs ++ chunk)
        (k + handledCount x s.client (splitFrames (s.client.streamBuffer ++ chunk)).1) s') s := by
  have hst : s.client.uwsState.openOrStopped = true := by
    rw [h.client, UwsClientInstance.withStream_uwsState]
    exact receiveFrames_openOrStopped _ (by simp [h₀.uwsState, UwsState.openOrStopped])
  have hcb : s.client.callbacks.anyNull = false := by
    rw [h.client, UwsClientInstance.withStream_callbacks, receiveFrames_callbacks, h₀.callbacks]
  by_cases hopen : s.client.uwsState = .uwsStateOpen
  · have hrest : (splitFrames (bs ++ chunk)).2 =
        (splitFrames (s.client.streamBuffer ++ chunk)).2 := by
      rw [h.waiting hopen, splitFrames_append bs chunk]
    rw [hrest] at hpart
    have hspec := (splitFrames_spec (s.client.streamBuffer ++ chunk)).1
    refine Quiet.mono (bytesReceived_meets hne _ hst hcb (fun _ => hspec) hpart) ?_
    intro _ s' h'
    rw [if_pos hopen] at h'
    have htake := h.take_append hopen chunk
    have hdrop := h.drop_append hopen chunk
    have hcount := handledCount_le (x := x) s.client (splitFrames (s.client.streamBuffer ++ chunk)).1
    generalize handledCount x s.client (splitFrames (s.client.streamBuffer ++ chunk)).1 = n at *
    have hfold := receiveFrames_withStream (x := x) (c := (receiveFrames x s₀.client
      ((splitFrames bs).1.take k)).1) s.client.streamBuffer
      ((splitFrames (s.client.streamBuffer ++ chunk)).1.take n)
    rw [← h.client] at hfold
    constructor
    case le =>
      have hlen := h.le
      rw [h.waiting hopen] at hcount
      rw [splitFrames_append]
      simp only [List.length_append, List.length_drop] at hcount ⊢
      omega
    case observations =>
      rw [h'.2, h.observations, htake, receiveFrames_append, List.append_assoc, hfold]
    case client =>
      rw [htake, receiveFrames_append, h'.1, hfold]
      simp
    case buffered =>
      intro _
      rw [hdrop, hrest, h'.1]
      simp
  · refine Quiet.mono (bytesReceived_meets hne [] hst hcb (fun ho => absurd ho hopen)
      partialFrame_nil) ?_
    intro _ s' h'
    rw [if_neg hopen] at h'
    subst h'
    rw [handledCount_stopped hopen, Nat.add_zero]
    constructor
    case le =>
      rw [splitFrames_append, List.length_append]
      exact Nat.le_trans h.le (Nat.le_add_right _ _)
    case observations => rw [h.take_stopped, h.observations]
    case client =>
      rw [h.take_stopped]
      exact h.client
    case buffered => exact fun ho => absurd ho hopen

theorem Receives.invariant {ok : (c : Call) → Ans c → Prop} {meets : Uws → Bytes → Prop}
    {I : Bytes → Uws → Prop} {wire : Bytes}
    (hcall : ∀ bs s chunk, chunk ≠ [] → meets s chunk → bs ++ chunk <+: wire → I bs s →
      Quiet uwsCode ok (uwsCode (.onUnderlyingIoBytesReceived (some chunk)))
        (fun _ s' => I (bs ++ chunk) s') s)
    {s s' : Uws} {chunks : List Bytes} (h : Receives ok meets s chunks s') :
    ∀ {bs : Bytes}, bs ++ chunks.flatten <+: wire → I bs s → I (bs ++ chunks.flatten) s' := by
  induction h with
  | done s =>
    intro bs _ hI
    simpa using hI
  | @chunk s s₁ s' bytes chunks r hne hmeets heval _ ih =>
    intro bs hwire hI
    have hflat : bs ++ (bytes :: chunks).flatten = (bs ++ bytes) ++ chunks.flatten := by simp
    rw [hflat] at hwire ⊢
    have hpre : bs ++ bytes <+: wire := (List.prefix_append _ _).trans hwire
    exact ih hwire (Returns.of_eval heval (hcall bs s bytes hne hmeets hpre hI))

/-! ### Nothing left behind -/

/-- One run of the decode loop gets through all the frames at hand, or leaves the state OPEN. -/
def GetsThrough (x : XioResults) (c : UwsClientInstance) (fs : List WireFrame) : Prop :=
  handledCount x c fs = fs.length ∨
    (receiveFrames x c (fs.take (handledCount x c fs))).1.uwsState ≠ .uwsStateOpen

theorem getsThrough_of_data (c : UwsClientInstance) {fs : List WireFrame}
    (hdata : ∀ f ∈ fs, f.endsRound = false) : GetsThrough x c fs := by
  induction fs generalizing c with
  | nil => exact .inl rfl
  | cons f fs ih =>
    have hround : f.endsRound = false := hdata f (by simp)
    by_cases hopen : c.uwsState = .uwsStateOpen
    · have hcount : handledCount x c (f :: fs) = handledCount x (c.receive x f).1 fs + 1 := by
        simp [handledCount, hopen, hround]
      rcases ih (c.receive x f).1 (fun g hg => hdata g (by simp [hg])) with hall | hstop
      · exact .inl (by rw [hcount, hall, List.length_cons])
      · refine .inr ?_
        rw [hcount, List.take_succ_cons]
        simpa [receiveFrames, hopen] using hstop
    · refine .inr ?_
      simpa [handledCount_stopped hopen, receiveFrames] using hopen

/-- All frames received so far have been handled, until one of them stopped the client. -/
structure HandledAll (x : XioResults) (s₀ : Uws) (bs : Bytes) (s : Uws) : Prop where
  observations : s.observations =
    s₀.observations ++ (receiveFrames x s₀.client (splitFrames bs).1).2
  client : s.client = (receiveFrames x s₀.client (splitFrames bs).1).1.withStream
    s.client.streamBuffer
  buffered : s.client.uwsState = .uwsStateOpen → s.client.streamBuffer = (splitFrames bs).2

theorem receiveFrames_take {c : UwsClientInstance} {fs : List WireFrame} {k : Nat}
    (hstop : (receiveFrames x c (fs.take k)).1.uwsState ≠ .uwsStateOpen) :
    receiveFrames x c (fs.take k) = receiveFrames x c fs := by
  have happend := receiveFrames_append (x := x) (c := c) (fs.take k) (fs.drop k)
  rw [List.take_append_drop, receiveFrames_stopped hstop] at happend
  simpa using happend.symm

theorem Handled.all {bs : Bytes} {k : Nat} {s : Uws} (h : Handled x s₀ bs k s)
    (hall : s.client.uwsState = .uwsStateOpen → k = (splitFrames bs).1.length) :
    HandledAll x s₀ bs s := by
  have htake : receiveFrames x s₀.client ((splitFrames bs).1.take k) =
      receiveFrames x s₀.client (splitFrames bs).1 := by
    by_cases hopen : s.client.uwsState = .uwsStateOpen
    · rw [hall hopen, List.take_length]
    · apply receiveFrames_take
      rwa [h.client, UwsClientInstance.withStream_uwsState] at hopen
  constructor
  case observations => rw [h.observations, htake]
  case client =>
    rw [← htake]
    exact h.client
  case buffered =>
    intro hopen
    have hbuf := h.buffered hopen
    rw [hall hopen, List.drop_length] at hbuf
    simpa using hbuf

theorem HandledAll.handled {bs : Bytes} {s : Uws} (h : HandledAll x s₀ bs s) :
    Handled x s₀ bs (splitFrames bs).1.length s := by
  constructor
  case le => exact Nat.le_refl _
  case observations =>
    rw [List.take_length]
    exact h.observations
  case client =>
    rw [List.take_length]
    exact h.client
  case buffered =>
    intro hopen
    rw [List.drop_length, h.buffered hopen]
    simp

theorem HandledAll.start {retained : Bytes} (h₀ : Ready s₀.client)
    (hpart : PartialFrame (splitFrames retained).2)
    (hthrough : GetsThrough x s₀.client (splitFrames retained).1) :
    Quiet uwsCode (answers x) decodeStream (fun _ s' => HandledAll x s₀ retained s')
      (s₀.setClient (s₀.client.withStream retained)) := by
  refine Quiet.mono (Handled.start h₀ hpart) ?_
  intro _ s' h
  apply h.all
  intro hopen
  rcases hthrough with hall | hstop
  · exact hall
  · rw [h.client, UwsClientInstance.withStream_uwsState] at hopen
    exact absurd hopen hstop

theorem HandledAll.chunk {bs chunk : Bytes} (hne : chunk ≠ []) (h₀ : Ready s₀.client)
    (h : HandledAll x s₀ bs s) (hpart : PartialFrame (splitFrames (bs ++ chunk)).2)
    (hthrough : s.client.uwsState = .uwsStateOpen →
      GetsThrough x s.client (splitFrames (s.client.streamBuffer ++ chunk)).1) :
    Quiet uwsCode (answers x) (uwsCode (.onUnderlyingIoBytesReceived (some chunk)))
      (fun _ s' => HandledAll x s₀ (bs ++ chunk) s') s := by
  refine Quiet.mono (h.handled.chunk hne h₀ hpart) ?_
  intro _ s' h'
  apply h'.all
  intro hopen'
  rw [h'.client, UwsClientInstance.withStream_uwsState] at hopen'
  by_cases hopen : s.client.uwsState = .uwsStateOpen
  · have hsplit := splitFrames_append bs chunk
    rw [h.buffered hopen] at hthrough hopen' ⊢
    generalize splitFrames ((splitFrames bs).2 ++ chunk) = more at hthrough hsplit hopen' ⊢
    rcases hthrough hopen with hall | hstop
    · rw [hall, hsplit, List.length_append]
    · refine absurd ?_ hstop
      rw [hsplit, List.take_length_add_append, receiveFrames_append, h.client,
        handledCount_withStream] at hopen'
      rw [h.client, receiveFrames_withStream, handledCount_withStream]
      simpa using hopen'
  · rw [handledCount_stopped hopen, splitFrames_append, Nat.add_zero, List.take_left] at hopen'
    rw [h.client, UwsClientInstance.withStream_uwsState] at hopen
    exact absurd hopen' hopen

theorem Handled.exists_receives {frames : List WireFrame} (h₀ : Ready s₀.client)
    (chunks : List Bytes) {bs : Bytes} {k : Nat} (hne : ∀ chunk ∈ chunks, chunk ≠ [])
    (hwire : bs ++ chunks.flatten <+: wireBytes frames) (h : Handled x s₀ bs k s) :
    ∃ s', Receives (answers x) (fun _ _ => True) s chunks s' := by
  induction chunks generalizing bs k s with
  | nil => exact ⟨s, .done s⟩
  | cons chunk chunks ih =>
    have hflat : bs ++ (chunk :: chunks).flatten = (bs ++ chunk) ++ chunks.flatten := by simp
    rw [hflat] at hwire
    have hpre : bs ++ chunk <+: wireBytes frames := (List.prefix_append _ _).trans hwire
    have hcall := h.chunk (hne chunk (by simp)) h₀ (splitFrames_of_isPrefix hpre).2
    rcases Returns.exists_eval hcall with ⟨r, s₁, heval, h'⟩
    rcases ih (fun c hc => hne c (by simp [hc])) hwire h' with ⟨s', hs'⟩
    exact ⟨s', .chunk (hne chunk (by simp)) trivial heval hs'⟩

theorem HandledAll.nil (h₀ : Ready s₀.client) : HandledAll x s₀ [] s₀ := by
  constructor
  case observations => simp [splitFrames_nil, receiveFrames]
  case client =>
    rw [splitFrames_nil]
    rfl
  case buffered =>
    intro _
    rw [splitFrames_nil, h₀.streamBuffer]

/-- If every run of the decode loop gets through the frames at hand, all frames are handled. -/
theorem Session.handledAll {meets : Uws → Bytes → Prop} {retained : Bytes} {chunks : List Bytes}
    {frames : List WireFrame} {s' : Uws} (h₀ : Ready s₀.client)
    (hwire : retained ++ chunks.flatten <+: wireBytes frames)
    (hstart : meets s₀ retained → GetsThrough x s₀.client (splitFrames retained).1)
    (hcall : ∀ bs s chunk, meets s chunk → bs ++ chunk <+: wireBytes frames →
      HandledAll x s₀ bs s → s.client.uwsState = .uwsStateOpen →
        GetsThrough x s.client (splitFrames (s.client.streamBuffer ++ chunk)).1)
    (h : Session (answers x) meets s₀ retained chunks s') :
    HandledAll x s₀ (retained ++ chunks.flatten) s' := by
  rcases h with ⟨r, s₁, hmeets, heval, hchunks⟩
  have hretained : retained <+: wireBytes frames := (List.prefix_append _ _).trans hwire
  have hfirst := Returns.of_eval heval
    (HandledAll.start h₀ (splitFrames_of_isPrefix hretained).2 (hstart hmeets))
  refine Receives.invariant (I := HandledAll x s₀) ?_ hchunks hwire hfirst
  intro bs s chunk hne hmeets hpre hI
  exact hI.chunk hne h₀ (splitFrames_of_isPrefix hpre).2 (hcall bs s chunk hmeets hpre hI)

end

end SharedUtility.UwsClient
