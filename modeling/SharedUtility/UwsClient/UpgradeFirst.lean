import SharedUtility.UwsClient.Runs
import SharedUtility.UwsClient.Watch

/-!
# UpgradeFirst — frames are read behind the upgrade response only

Noted are the bytes received behind an accepted upgrade response of the current connection, every
reading of the stream buffer as a frame, and every `uws_client_close_handshake_async` with the state
before and after it.

The decode loop reads frames in the states `UWS_STATE_OPEN` and `UWS_STATE_CLOSING_WAITING_FOR_CLOSE`.
The second one is entered by the close handshake from any state in which the client is opening, and it
is kept when the close frame cannot be sent; besides, a round that has reported a masked frame reads
on in a buffer that may belong to another connection by then.
-/

namespace SharedUtility.UwsClient
namespace UpgradeFirst

open Reentrant Observed Observer Watch

/-! ## What is noted -/

/-- A function under way, with the state at its start; `masked` is a decode round that starts with a
masked frame. -/
structure Activity where
  proc : Proc
  state : UwsState
  masked : Bool
  deriving DecidableEq

/-- A reading of the stream buffer as a frame; `behind` are the bytes received behind the upgrade
response until then, if there was one. -/
structure FrameRead where
  buffer : Bytes
  behind : Option Bytes
  deriving DecidableEq

structure Handshake where
  before : UwsState
  result : Int
  after : UwsState
  deriving DecidableEq

structure UpgradeNotes where
  active : List Activity := []
  behind : Option Bytes := none
  reads : List FrameRead := []
  handshakes : List Handshake := []
  deriving DecidableEq

/-- The stream buffer behind a complete response with status 101. -/
def behindUpgrade (streamBuffer : Bytes) (errnoSet : Bool) : Option Bytes :=
  match findResponseEnd streamBuffer with
  | none => none
  | some requestEnd =>
    if parseHttpResponse streamBuffer errnoSet = some 101 then
      some (streamBuffer.drop (requestEnd + 4))
    else none

namespace UpgradeNotes

def push (n : UpgradeNotes) (p : Proc) (c : UwsClientInstance) : UpgradeNotes :=
  { n with
    active :=
      { proc := p, state := c.uwsState,
        masked := p == .decodeStream && c.uwsState.decodesFrames && startsMasked c.streamBuffer } ::
      n.active }

def read (n : UpgradeNotes) (c : UwsClientInstance) : UpgradeNotes :=
  { n with reads := n.reads ++ [{ buffer := c.streamBuffer, behind := n.behind }] }

def receive (n : UpgradeNotes) (bytes : Bytes) : UpgradeNotes :=
  { n with behind := n.behind.map (· ++ bytes) }

def pop (n : UpgradeNotes) : UpgradeNotes :=
  { n with active := n.active.tail }

def current (n : UpgradeNotes) : Option Activity :=
  n.active.head?

def handshake (n : UpgradeNotes) (result : Int) (after : UwsState) : UpgradeNotes :=
  match n.current with
  | some a =>
    { n with handshakes := n.handshakes ++ [{ before := a.state, result := result, after := after }] }
  | none => n

end UpgradeNotes

def upgradeObserver : Observer Uws uwsSignature UpgradeNotes where
  entered p s n :=
    let n := n.push p s.client
    match p with
    | .onUnderlyingIoBytesReceived (some bytes) => n.receive bytes
    | .decodeStream => if s.client.uwsState.decodesFrames then n.read s.client else n
    | _ => n
  called c _ n :=
    match c with
    | .xioOpen => { n with behind := none }
    | _ => n
  answered c r s n :=
    match c, r with
    | .errno, errnoSet =>
      match behindUpgrade s.client.streamBuffer errnoSet with
      | some bytes => { n with behind := some bytes }
      | none => n
    | .onWsError _ _, _ =>
      -- A round that has reported a masked frame reads what the buffer holds by now.
      if n.current.any (·.masked) then n.read s.client else n
    | _, _ => n
  returned p r s n :=
    match p with
    | .uwsClientCloseHandshakeAsync _ _ => (n.handshake r s.client.uwsState).pop
    | _ => n.pop

abbrev NotedUws := Observed Uws UpgradeNotes

def notedCode (p : Proc) : Comp NotedUws uwsSignature Int :=
  upgradeObserver.code uwsCode p

/-! ## The property -/

/-- There is a frame to read only in bytes that came behind an accepted upgrade response. -/
def FrameRead.Proper (r : FrameRead) : Prop :=
  2 ≤ r.buffer.length → ∃ bytes, r.behind = some bytes ∧ r.buffer.Sublist bytes

/-- A refused close handshake has left the state alone. -/
def Handshake.Proper (h : Handshake) : Prop :=
  h.result ≠ 0 → h.after = h.before

structure FramesAfterUpgrade (s : NotedUws) : Prop where
  reads : ∀ r ∈ s.notes.reads, r.Proper
  handshakes : ∀ h ∈ s.notes.handshakes, h.Proper

/-! ## Runs -/

def anyNotedRun : Env NotedUws uwsSignature :=
  environment UpgradeNotes reentrantRun

/-- Whether the function under way is `uws_client_close_handshake_async`. -/
def UpgradeNotes.inHandshake (n : UpgradeNotes) : Bool :=
  match n.current with
  | some { proc := .uwsClientCloseHandshakeAsync _ _, .. } => true
  | _ => false

/-- The condition.  A close handshake that is not refused at once is started on an upgraded connection
only, and its close frame is encoded and sent; the client is not opened while a decode round that
started with a masked frame is under way. -/
def upgradeFirstRun : Env NotedUws uwsSignature where
  mayEnter top p s :=
    anyNotedRun.mayEnter top p s &&
    (match p with
      | .uwsClientCloseHandshakeAsync _ _ =>
        s.state.client.uwsState.refusesHandshake || s.notes.behind.isSome
      | .uwsClientOpenAsync callbacks =>
        !(s.state.startsOpen callbacks && s.notes.active.any (·.masked))
      | _ => true)
  mayAnswer c r s :=
    match c, r with
    | .encoderResources, res => !s.notes.inHandshake || res.available
    | .xioSend .closeFrame _, r => !s.notes.inHandshake || r == 0
    | _, _ => true

/-! ## The invariant -/

structure Kept (s : NotedUws) : Prop where
  proper : FramesAfterUpgrade s
  stream : ∀ bytes, s.notes.behind = some bytes → s.state.client.streamBuffer.Sublist bytes
  upgraded : s.state.client.uwsState.decodesFrames = true → s.notes.behind.isSome = true
  masked : s.notes.active.any (·.masked) = true → s.notes.behind.isSome = true

def upgradeFirst : Watch UpgradeNotes where
  observer := upgradeObserver
  env := upgradeFirstRun
  inv := Kept
  rely s s' := s'.notes.active = s.notes.active
  within s s' := s'.notes.active = s.notes.active
  entry p s :=
    match p with
    | .uwsClientCloseHandshakeAsync _ _ =>
      s.state.client.uwsState.refusesHandshake = true ∨ s.notes.behind.isSome = true
    | .uwsClientOpenAsync callbacks =>
      s.state.startsOpen callbacks = true → s.notes.active.any (·.masked) = false
    | _ => True
  decodes := Kept
  decoded s s' := Kept s' ∧ s'.notes.active = s.notes.active
  calm st := st.decodesFrames = false
  common c := c ≠ .xioOpen ∧ c ≠ .errno

section

variable {s : NotedUws}

theorem Kept.read (h : Kept s) (hbehind : s.notes.behind.isSome = true) :
    Kept (s.setNotes (s.notes.read s.state.client)) := by
  have hreads : ∀ r ∈ s.notes.reads ++
      [{ buffer := s.state.client.streamBuffer, behind := s.notes.behind }], r.Proper := by
    intro r hr
    rcases List.mem_append.1 hr with hr | hr
    · exact h.proper.reads r hr
    · rw [List.mem_singleton.1 hr]
      intro _
      rcases Option.isSome_iff_exists.1 hbehind with ⟨bytes, hbytes⟩
      exact ⟨bytes, hbytes, h.stream bytes hbytes⟩
  exact { h with proper := ⟨hreads, h.proper.handshakes⟩ }

theorem Kept.push (h : Kept s) (p : Proc) (hp : p ≠ .decodeStream) :
    Kept (s.setNotes (s.notes.push p s.state.client)) := by
  refine { h with proper := ⟨h.proper.reads, h.proper.handshakes⟩, masked := ?_ }
  intro hany
  have hproc : (p == .decodeStream) = false := by simpa using hp
  simp only [UpgradeNotes.push, hproc, Bool.false_and, setNotes_notes, List.any_cons,
    Bool.false_or] at hany
  exact h.masked hany

theorem Kept.receive (h : Kept s) (bytes : Bytes) : Kept (s.setNotes (s.notes.receive bytes)) := by
  have hsome : (s.notes.behind.map (· ++ bytes)).isSome = s.notes.behind.isSome :=
    Option.isSome_map
  refine ⟨⟨h.proper.reads, h.proper.handshakes⟩, ?_, ?_, ?_⟩
  · intro received hreceived
    rcases Option.map_eq_some_iff.1 hreceived with ⟨old, hold, rfl⟩
    exact (h.stream old hold).trans (List.sublist_append_left old bytes)
  · intro hstate
    exact hsome.trans (h.upgraded hstate)
  · intro hany
    exact hsome.trans (h.masked hany)

theorem Kept.pop (h : Kept s) : Kept (s.setNotes s.notes.pop) := by
  refine { h with proper := ⟨h.proper.reads, h.proper.handshakes⟩, masked := ?_ }
  intro hany
  rcases List.any_eq_true.1 hany with ⟨a, ha, hmasked⟩
  exact h.masked (List.any_eq_true.2 ⟨a, List.mem_of_mem_tail ha, hmasked⟩)

theorem Kept.consumed (h : Kept s) (n : Nat) : Kept (s.setState (s.state.consumed n)) := by
  refine ⟨⟨h.proper.reads, h.proper.handshakes⟩, ?_, h.upgraded, h.masked⟩
  intro bytes hbytes
  exact (List.drop_sublist n _).trans (h.stream bytes hbytes)

theorem tolerant : upgradeFirst.Closable where
  alike s₀ s t h ht := by
    refine ⟨⟨⟨h.inv.proper.reads, h.inv.proper.handshakes⟩, ?_, ?_, h.inv.masked⟩, h.within⟩
    · intro bytes hbytes
      show t.client.streamBuffer.Sublist bytes
      rw [ht.streamBuffer]
      exact h.inv.stream bytes hbytes
    · intro hstate
      apply h.inv.upgraded
      rw [← ht.uwsState]
      exact hstate
  state s₀ s st h hst := by
    refine ⟨⟨⟨h.inv.proper.reads, h.inv.proper.handshakes⟩, h.inv.stream, ?_, h.inv.masked⟩, h.within⟩
    intro hstate
    have hstate : st.decodesFrames = true := hstate
    have hst : st.decodesFrames = false := hst
    rw [hst] at hstate
    cases hstate
  called s₀ c s h hc := by
    have hsame : upgradeObserver.called c s.state s.notes = s.notes := by
      cases c with
      | xioOpen => exact absurd rfl hc.1
      | _ => rfl
    show upgradeFirst.At s₀ (s.setNotes (upgradeObserver.called c s.state s.notes))
    rw [hsame]
    exact h
  answered s₀ c r s h hc := by
    cases c with
    | errno => exact absurd rfl hc.2
    | onWsError cb error =>
      show upgradeFirst.At s₀ (s.setNotes
        (if s.notes.current.any (·.masked) then s.notes.read s.state.client else s.notes))
      split
      · rename_i hmasked
        have hany : s.notes.active.any (·.masked) = true := by
          cases hactive : s.notes.active with
          | nil => simp [UpgradeNotes.current, hactive] at hmasked
          | cons a rest =>
            simp only [UpgradeNotes.current, hactive, List.head?_cons, Option.any_some]
              at hmasked
            simp [hmasked]
        exact ⟨h.inv.read (h.inv.masked hany), h.within⟩
      · exact h
    | _ => exact h
  relied _ _ _ h hinv hactive := ⟨hinv, Eq.trans hactive h.within⟩
  ordinary c hc := by
    constructor
    · rintro rfl
      cases hc
    · rintro rfl
      cases hc
  closed := rfl
  error := rfl
  waiting := rfl
  closing := rfl
  sending := rfl
  slot _ _ _ h :=
    ⟨{ h.inv with proper := ⟨h.inv.proper.reads, h.inv.proper.handshakes⟩ }, h.within⟩

theorem reports {s₀ s : NotedUws} (h : upgradeFirst.At s₀ s) :
    upgradeFirst.Keeps s₀ indicateWsCloseComplete s :=
  tolerant.indicateWsCloseComplete (fun _ => ⟨nofun, nofun⟩) h fun _ _ => trivial

end

/-! ## The functions that a connection depends on -/

section

variable {s s₀ : NotedUws}

theorem callDecodeStream {Q : Int → NotedUws → Prop} (h : upgradeFirst.At s₀ s)
    (hQ : ∀ r s', upgradeFirst.At s₀ s' → Q r s') :
    wp upgradeFirst.interference.spec (upgradeFirst.observer.observe (callProc .decodeStream)) Q s := by
  show wp upgradeFirst.interference.spec (Comp.proc Proc.decodeStream) Q s
  apply Interference.wp_nested (F := upgradeFirst.interference)
  case hpre => exact h.inv
  case hQ =>
    rintro r s' ⟨hkept, hactive⟩
    exact hQ r s' ⟨hkept, hactive.trans h.within⟩

theorem decodeUpgradeResponse_keeps (h : upgradeFirst.At s₀ s) :
    upgradeFirst.Keeps s₀ decodeUpgradeResponse s := by
  simp only [Keeps, decodeUpgradeResponse, errno, wp_observe_bind, observe_getClient]
  cases hend : findResponseEnd s.state.client.streamBuffer with
  | none => exact h
  | some requestEnd =>
    simp only [wp_observe_bind]
    apply observe_askLocal rfl h.inv
    intro errnoSet _
    -- What is noted when `errno` has been asked.
    have hfailed : behindUpgrade s.state.client.streamBuffer errnoSet = none →
        upgradeFirst.At s₀ (s.setNotes
          (upgradeObserver.answered .errno errnoSet s.state s.notes)) := by
      intro hbehind
      have hnoted : upgradeObserver.answered .errno errnoSet s.state s.notes = s.notes := by
        simp only [upgradeObserver, hbehind]
      rw [hnoted]
      exact h
    cases hparse : parseHttpResponse s.state.client.streamBuffer errnoSet with
    | none =>
      simp only [wp_observe_bind]
      apply wp_mono _ (tolerant.indicateWsOpenCompleteErrorAndClose
        (hfailed (by simp [behindUpgrade, hend, hparse])) _)
      intro _ s' h'
      exact h'
    | some statusCode =>
      simp only [wp_observe_ite]
      split
      · rename_i hstatus
        simp only [wp_observe_bind]
        apply wp_mono _ (tolerant.indicateWsOpenCompleteErrorAndClose
          (hfailed (by simp [behindUpgrade, hend, hparse, hstatus])) _)
        intro _ s' h'
        exact h'
      · rename_i hstatus
        have hstatus : statusCode = 101 := not_not.1 hstatus
        have hbehind : behindUpgrade s.state.client.streamBuffer errnoSet =
            some (s.state.client.streamBuffer.drop (requestEnd + 4)) := by
          simp [behindUpgrade, hend, hparse, hstatus]
        have hnoted : upgradeFirst.observer.answered .errno errnoSet s.state
            (upgradeFirst.observer.called .errno s.state s.notes) =
              { s.notes with
                behind := some (s.state.client.streamBuffer.drop (requestEnd + 4)) } := by
          show upgradeObserver.answered .errno errnoSet s.state s.notes = _
          simp only [upgradeObserver, hbehind]
        simp only [wp_observe_bind, observe_consumeStreamBufferBytes, observe_setUwsState,
          observe_getClient, hnoted]
        have hopened : upgradeFirst.At s₀ ((s.setNotes { s.notes with
            behind := some (s.state.client.streamBuffer.drop (requestEnd + 4)) }).setState
              ((s.state.consumed (requestEnd + 4)).setState .uwsStateOpen)) := by
          refine ⟨⟨⟨h.inv.proper.reads, h.inv.proper.handshakes⟩, ?_, fun _ => rfl,
            fun _ => rfl⟩, h.within⟩
          intro bytes hbytes
          cases hbytes
          exact List.Sublist.refl _
        exact tolerant.callBack hopened (fun _ => rfl) (fun _ => tolerant.ordinary _ rfl)
          fun _ h' => h'

theorem decodeStream_keeps (h : upgradeFirst.At s₀ s) : upgradeFirst.Keeps s₀ decodeStream s := by
  apply tolerant.decodeStream h (decodeUpgradeResponse_keeps h)
  case hframe =>
    intro _
    apply tolerant.decodeFrame h fun _ _ h₁ => ⟨h₁.inv.consumed _, h₁.within⟩
    intro s₁ opcode fl isFinal h₁
    exact tolerant.receiveFrame h₁ opcode fl isFinal fun _ =>
      tolerant.receiveCloseFrame (fun _ => reports) h₁ fl isFinal
  case hnext => exact fun _ h₁ => callDecodeStream h₁ fun _ _ h' => h'

/-- The bytes are received behind the response, if there was one, before they are added. -/
theorem receiveBytes_keeps {bytes : Bytes} (h : upgradeFirst.At s₀ s)
    (hbytes : ∀ received, s.notes.behind = some received →
      (s.state.client.streamBuffer ++ bytes).Sublist received) :
    upgradeFirst.Keeps s₀ (receiveBytes bytes) s := by
  apply tolerant.receiveBytes (P := (s = ·)) h
  case hask => exact fun _ hQ => observe_askLocal rfl h.inv fun r _ => hQ r s rfl
  case hat =>
    rintro _ rfl
    exact h
  case hdecode =>
    rintro _ rfl
    exact callDecodeStream ⟨⟨⟨h.inv.proper.reads, h.inv.proper.handshakes⟩, hbytes, h.inv.upgraded,
      h.inv.masked⟩, h.within⟩ fun _ _ h' => h'

theorem openAsyncProc_keeps (h : upgradeFirst.At s₀ s) (callbacks : OpenCallbacks)
    (hmasked : s.state.startsOpen callbacks = true → s.notes.active.any (·.masked) = false) :
    upgradeFirst.Keeps s₀ (openAsyncProc callbacks) s := by
  apply tolerant.openAsyncProc h callbacks
  intro hstarts
  have hnone := hmasked hstarts
  apply observe_callOut rfl
  case hinv =>
    refine ⟨⟨h.inv.proper.reads, h.inv.proper.handshakes⟩, by rintro _ ⟨⟩, by rintro ⟨⟩, ?_⟩
    intro hany
    have hany : s.notes.active.any (·.masked) = true := hany
    rw [hnone] at hany
    cases hany
  case hQ =>
    intro r s₁ _ hinv hactive
    exact ⟨hinv, Eq.trans hactive h.within⟩

theorem uwsClientCloseHandshakeAsync_keeps (h : upgradeFirst.At s₀ s) {closeCode : UInt16}
    {cb : Option Callback} (hhandshake : s.notes.inHandshake = true)
    (hupgraded : s.state.client.uwsState.refusesHandshake = true ∨ s.notes.behind.isSome = true) :
    wp upgradeFirst.interference.spec
      (upgradeFirst.observer.observe (uwsClientCloseHandshakeAsync closeCode cb))
      (fun r s' => upgradeFirst.At s₀ s' ∧
        (r ≠ 0 → s'.state.client.uwsState = s.state.client.uwsState)) s := by
  have hbegin : s.notes.behind.isSome = true →
      wp upgradeFirst.interference.spec
        (upgradeFirst.observer.observe (do
          modifyClient fun c => { c with onWsCloseComplete := cb }
          setUwsState .uwsStateClosingWaitingForClose
          let r ← sendCloseFrame closeCode.toNat
          pure (if r ≠ 0 then failure else 0) : UwsComp Int))
        (fun r s' => upgradeFirst.At s₀ s' ∧
          (r ≠ 0 → s'.state.client.uwsState = s.state.client.uwsState)) s := by
    intro hbehind
    have hclosing : upgradeFirst.At s₀ (s.setState
        ((s.state.setClient { s.state.client with onWsCloseComplete := cb }).setState
          .uwsStateClosingWaitingForClose)) :=
      ⟨⟨⟨h.inv.proper.reads, h.inv.proper.handshakes⟩, h.inv.stream, fun _ => hbehind,
        h.inv.masked⟩, h.within⟩
    simp only [sendCloseFrame, encoderResources, wp_observe_bind, observe_modifyClient,
      observe_setUwsState]
    apply observe_askLocal rfl hclosing.inv
    intro res hres
    -- The close frame is encoded and sent.
    have hres : res.available = true := by
      have hres : (!s.notes.inHandshake || res.available) = true := hres
      simpa [hhandshake] using hres
    have hframe : ∀ a b : UInt8, uwsFrameEncoderEncode res wsCloseFrame (some [a, b]) 2 true true 0 =
        some (encodedFrame wsCloseFrame [a, b] true true 0 res.gbRand) :=
      fun a b => uwsFrameEncoderEncode_available hres (by decide) (by decide) [a, b] true true
    simp only [hframe, xioSend, wp_observe_bind]
    apply observe_callOut rfl
    case hinv => exact (tolerant.atCalling hclosing (tolerant.ordinary _ rfl)).inv
    case hQ =>
      intro r s₁ hr hinv hactive
      have hactive : s₁.notes.active = s.notes.active := hactive
      have hr : r = 0 := by
        have hin : s₁.notes.inHandshake = true := by
          rw [← hhandshake]
          simp only [UpgradeNotes.inHandshake, UpgradeNotes.current, hactive]
        have hr : (!s₁.notes.inHandshake || r == 0) = true := hr
        simpa [hin] using hr
      subst hr
      exact ⟨⟨hinv, hactive.trans h.within⟩, fun hne => absurd rfl hne⟩
  simp only [uwsClientCloseHandshakeAsync, wp_observe_bind, observe_getClient]
  split
  · exact ⟨h, fun _ => rfl⟩
  · exact ⟨h, fun _ => rfl⟩
  · exact ⟨h, fun _ => rfl⟩
  · exact ⟨h, fun _ => rfl⟩
  · rename_i hclosed hwaiting hsending hclosing
    rw [refusesHandshake_eq_false hclosed hwaiting hsending hclosing] at hupgraded
    exact hbegin (hupgraded.resolve_left (by rintro ⟨⟩))

end

/-! ## Every run -/

/-- The start of a function that is neither a decode round nor the indication of bytes. -/
theorem Kept.begin {s : NotedUws} (h : Kept s) (p : Proc) (hp : p ≠ .decodeStream)
    (hbytes : ∀ bytes, p ≠ .onUnderlyingIoBytesReceived (some bytes)) :
    Kept (upgradeFirst.beginProc p s) := by
  cases p with
  | decodeStream => exact absurd rfl hp
  | onUnderlyingIoBytesReceived buffer =>
    cases buffer with
    | none => exact h.push _ hp
    | some bytes => exact absurd rfl (hbytes bytes)
  | _ => exact h.push _ hp

theorem Kept.beginDecode {s : NotedUws} (h : Kept s) :
    Kept (upgradeFirst.beginProc .decodeStream s) := by
  have hpush : Kept (s.setNotes (s.notes.push .decodeStream s.state.client)) := by
    refine { h with proper := ⟨h.proper.reads, h.proper.handshakes⟩, masked := ?_ }
    intro hany
    simp only [UpgradeNotes.push, setNotes_notes, List.any_cons, beq_self_eq_true, Bool.true_and,
      Bool.or_eq_true, Bool.and_eq_true] at hany
    rcases hany with hthis | hothers
    · exact h.upgraded hthis.1
    · exact h.masked hothers
  show Kept (s.setNotes
    (if s.state.client.uwsState.decodesFrames then
      (s.notes.push .decodeStream s.state.client).read s.state.client
    else s.notes.push .decodeStream s.state.client))
  split
  · rename_i hstate
    exact hpush.read (h.upgraded hstate)
  · exact hpush

theorem beginProc_active (p : Proc) (s : NotedUws) :
    ∃ a : Activity, a.proc = p ∧ a.state = s.state.client.uwsState ∧
      (upgradeFirst.beginProc p s).notes.active = a :: s.notes.active := by
  have hreads : (upgradeFirst.beginProc p s).notes.active =
      (s.notes.push p s.state.client).active := by
    cases p with
    | onUnderlyingIoBytesReceived buffer =>
      cases buffer with
      | none => rfl
      | some bytes => rfl
    | decodeStream =>
      show (if s.state.client.uwsState.decodesFrames then
          (s.notes.push .decodeStream s.state.client).read s.state.client
        else s.notes.push .decodeStream s.state.client).active = _
      split
      · rfl
      · rfl
    | _ => rfl
  exact ⟨_, rfl, rfl, hreads⟩

theorem kept_pop {s s' : NotedUws} {p : Proc}
    (h : upgradeFirst.At (upgradeFirst.beginProc p s) s') :
    Kept (s'.setNotes s'.notes.pop) ∧ s'.notes.pop.active = s.notes.active := by
  refine ⟨h.inv.pop, ?_⟩
  rcases beginProc_active p s with ⟨a, -, -, hactive⟩
  have hwithin : s'.notes.active = (upgradeFirst.beginProc p s).notes.active := h.within
  show s'.notes.active.tail = s.notes.active
  rw [hwithin, hactive, List.tail_cons]

theorem kept_popHandshake {s s' : NotedUws} {p : Proc} {r : Int}
    (h : upgradeFirst.At (upgradeFirst.beginProc p s) s')
    (hr : r ≠ 0 → s'.state.client.uwsState = s.state.client.uwsState) :
    Kept (s'.setNotes (s'.notes.handshake r s'.state.client.uwsState).pop) ∧
      (s'.notes.handshake r s'.state.client.uwsState).pop.active = s.notes.active := by
  rcases beginProc_active p s with ⟨a, -, hstate, hactive⟩
  have hwithin : s'.notes.active = a :: s.notes.active := Eq.trans h.within hactive
  have hnote : s'.notes.handshake r s'.state.client.uwsState = { s'.notes with
      handshakes := s'.notes.handshakes ++
        [{ before := a.state, result := r, after := s'.state.client.uwsState }] } := by
    have hcurrent : s'.notes.current = some a := by
      rw [UpgradeNotes.current, hwithin, List.head?_cons]
    simp only [UpgradeNotes.handshake, hcurrent]
  rw [hnote]
  have hnoted : Kept (s'.setNotes { s'.notes with
      handshakes := s'.notes.handshakes ++
        [{ before := a.state, result := r, after := s'.state.client.uwsState }] }) := by
    refine { h.inv with proper := ⟨h.inv.proper.reads, ?_⟩ }
    intro hs hhs
    rcases List.mem_append.1 hhs with hhs | hhs
    · exact h.inv.proper.handshakes hs hhs
    · rw [List.mem_singleton.1 hhs]
      intro hne
      exact (hr hne).trans hstate.symm
  refine ⟨hnoted.pop, ?_⟩
  show s'.notes.active.tail = s.notes.active
  rw [hwithin, List.tail_cons]

theorem onUnderlyingIoBytesReceived_keeps {s : NotedUws} (h : Kept s) (buffer : Option Bytes) :
    upgradeFirst.Keeps (upgradeFirst.beginProc (.onUnderlyingIoBytesReceived buffer) s)
      (onUnderlyingIoBytesReceived buffer)
      (upgradeFirst.beginProc (.onUnderlyingIoBytesReceived buffer) s) := by
  rcases buffer with _ | (_ | ⟨b, bs⟩)
  · exact tolerant.indicateWsOpenCompleteErrorAndClose
      ⟨h.push (.onUnderlyingIoBytesReceived none) (by rintro ⟨⟩), rfl⟩ _
  · exact tolerant.indicateWsOpenCompleteErrorAndClose
      ⟨(h.push (.onUnderlyingIoBytesReceived (some [])) (by rintro ⟨⟩)).receive [], rfl⟩ _
  · apply receiveBytes_keeps
      ⟨(h.push (.onUnderlyingIoBytesReceived (some (b :: bs))) (by rintro ⟨⟩)).receive (b :: bs), rfl⟩
    intro received hreceived
    rcases Option.map_eq_some_iff.1 hreceived with ⟨old, hold, rfl⟩
    exact (h.stream old hold).append_right (b :: bs)

theorem upgradeFirst_obligations : upgradeFirst.Obligations where
  anyRun _ _ _ hmay := (Bool.and_eq_true_iff.1 hmay).1
  refl _ := rfl
  trans _ _ _ h h' := Eq.trans h' h
  entry top p s _ hmay := by
    have hcond := (Bool.and_eq_true_iff.1 hmay).2
    cases p with
    | uwsClientCloseHandshakeAsync closeCode cb =>
      show s.state.client.uwsState.refusesHandshake = true ∨ s.notes.behind.isSome = true
      simpa using hcond
    | uwsClientOpenAsync callbacks =>
      intro hstarts
      simpa [hstarts] using hcond
    | _ => trivial
  loop s hkept _ := by
    have hkept : Kept s := hkept
    rw [wp_code]
    apply wp_mono _ (decodeStream_keeps ⟨hkept.beginDecode, rfl⟩)
    intro r s' hs'
    exact kept_pop hs'
  procs p s hdecode hkept hentry := by
    have hkept : Kept s := hkept
    by_cases hp : ordinaryProc p = true
    · have hbytes : ∀ bytes, p ≠ .onUnderlyingIoBytesReceived (some bytes) := by
        rintro bytes rfl
        cases hp
      apply meets
      case hbody =>
        exact tolerant.ordinaryProc (fun _ => reports) (fun _ _ => trivial)
          ⟨hkept.begin p hdecode hbytes, rfl⟩ hp
      case hend =>
        intro r s' hs'
        have hpop := kept_pop hs'
        cases p with
        | uwsClientCloseHandshakeAsync closeCode cb => cases hp
        | _ => exact ⟨hpop.1, hpop.2, trivial⟩
    · cases p with
      | uwsClientOpenAsync callbacks =>
        apply meets
        case hbody =>
          refine openAsyncProc_keeps ⟨hkept.begin (.uwsClientOpenAsync callbacks) nofun nofun, rfl⟩
            callbacks ?_
          intro hstarts
          exact hentry hstarts
        case hend =>
          intro r s' hs'
          exact ⟨(kept_pop hs').1, (kept_pop hs').2, trivial⟩
      | uwsClientCloseHandshakeAsync closeCode cb =>
        rw [wp_code]
        apply wp_mono _ (uwsClientCloseHandshakeAsync_keeps
          ⟨hkept.begin (.uwsClientCloseHandshakeAsync closeCode cb) nofun nofun, rfl⟩ rfl hentry)
        rintro r s' ⟨hs', hr⟩
        exact ⟨(kept_popHandshake hs' hr).1, (kept_popHandshake hs' hr).2, trivial⟩
      | onUnderlyingIoBytesReceived buffer =>
        apply meets
        case hbody => exact keeps_void (onUnderlyingIoBytesReceived_keeps hkept buffer)
        case hend =>
          intro r s' hs'
          exact ⟨(kept_pop hs').1, (kept_pop hs').2, trivial⟩
      | decodeStream => exact absurd rfl hdecode
      | _ => exact absurd rfl hp

structure Created (s : NotedUws) : Prop where
  uwsState : s.state.client.uwsState = .uwsStateClosed
  notes : s.notes = {}

theorem Created.kept {s : NotedUws} (h : Created s) : Kept s where
  proper := ⟨by simp [h.notes], by simp [h.notes]⟩
  stream := by simp [h.notes]
  upgraded := by simp [h.uwsState, UwsState.decodesFrames]
  masked := by simp [h.notes]

def createdNoted : NotedUws :=
  ⟨createdClient, {}⟩

/-- `HTTP/1.1 101` and an empty line, with an empty binary frame behind. -/
def upgradeAndFrame : Bytes :=
  [0x48, 0x54, 0x54, 0x50, 0x2F, 0x31, 0x2E, 0x31, 0x20, 0x31, 0x30, 0x31, 0x0D, 0x0A, 0x0D, 0x0A,
    0x82, 0x00]

/-- A connection is upgraded, a frame is received, and the client closes with a handshake. -/
def upgradeThenClose : List (Input uwsSignature) :=
  [.enter (.uwsClientOpenAsync someCallbacks), .answer succeeds,
    .enter (.onUnderlyingIoOpenComplete .ioOpenOk 0), .answer succeeds, .answer succeeds,
    .answer succeeds, .answer succeeds, .answer succeeds,
    .enter (.onUnderlyingIoBytesReceived (some upgradeAndFrame)), .answer succeeds,
    .answer succeeds, .answer succeeds, .answer succeeds,
    .enter (.uwsClientCloseHandshakeAsync 1000 none), .answer succeeds, .answer succeeds]

/-- The client is closed with a handshake while the underlying io is opening; bytes come then. -/
def closeThenBytes : List (Input uwsSignature) :=
  [.enter (.uwsClientOpenAsync someCallbacks), .answer succeeds,
    .enter (.uwsClientCloseHandshakeAsync 1000 none), .answer succeeds, .answer succeeds,
    .enter (.onUnderlyingIoBytesReceived (some [0x82, 0x01])), .answer succeeds]

end UpgradeFirst
end SharedUtility.UwsClient
