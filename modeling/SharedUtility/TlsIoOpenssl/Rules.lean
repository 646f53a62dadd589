import SharedUtility.TlsIoOpenssl.Code

/-!
# Rules — weakest preconditions of the primitive steps of `tlsio_openssl.c`
-/

namespace SharedUtility.TlsIoOpenssl

open Reentrant

/-- The calls during which other code of the module may run. -/
def Call.reenters (c : Call) : Bool :=
  c.isXio || c.isCallback

theorem reenters_of_mayEnter {inCallback : Proc → Bool} {c : Call} {p : Proc} {s : TlsIo}
    (h : (runsWith inCallback).mayEnter (some c) p s = true) : c.reenters = true := by
  have htop := (Bool.and_eq_true_iff.1 h).2
  simp only [Bool.or_eq_true, Bool.and_eq_true] at htop
  simp only [Call.reenters, Bool.or_eq_true]
  rcases htop with ⟨hc, -⟩ | ⟨hc, -⟩
  · exact .inl hc
  · exact hc

section

variable {spec : Spec TlsIo tlsioOpensslSignature} {s : TlsIo}

@[simp] theorem wp_getInst (Q : TlsIoInstance → TlsIo → Prop) :
    wp spec getInst Q s ↔ Q s.inst s := Iff.rfl

@[simp] theorem wp_modifyInst (f : TlsIoInstance → TlsIoInstance) (Q : Unit → TlsIo → Prop) :
    wp spec (modifyInst f) Q s ↔ Q () (s.setInst (f s.inst)) := Iff.rfl

@[simp] theorem wp_setTlsioState (state : TlsioState) (Q : Unit → TlsIo → Prop) :
    wp spec (setTlsioState state) Q s ↔ Q () (s.setState state) := Iff.rfl

@[simp] theorem wp_closeOpensslInstance (Q : Unit → TlsIo → Prop) :
    wp spec closeOpensslInstance Q s ↔ Q () s.closeOpensslInstance := Iff.rfl

@[simp] theorem wp_failHandshake (Q : Unit → TlsIo → Prop) :
    wp spec failHandshake Q s ↔ Q () (s.endAttempt.setState .tlsioStateHandshakeFailed) := Iff.rfl

@[simp] theorem wp_freeSslContext (Q : Int → TlsIo → Prop) :
    wp spec freeSslContext Q s ↔
      Q failure (s.setInst { s.inst with sslContext := none }) := Iff.rfl

@[simp] theorem wp_freeSsl (Q : Int → TlsIo → Prop) :
    wp spec freeSsl Q s ↔ Q failure s.closeOpensslInstance := Iff.rfl

end

section

variable {G : RelyGuarantee TlsIo tlsioOpensslSignature} {s : TlsIo}

theorem wp_ask {c : Call} {Q : Ans c → TlsIo → Prop} (hc : G.reenters c = false)
    (halways : G.always s) (hQ : ∀ r, G.env.mayAnswer c r s = true → Q r s) :
    wp G.spec (ask c) Q s :=
  RelyGuarantee.wp_local hc halways hQ

theorem wp_callOut {c : Call} {Q : Ans c → TlsIo → Prop} (hc : G.reenters c = true)
    (hinv : G.inv (s.record (.call s.currentOpen c)))
    (hQ : ∀ r s', G.env.mayAnswer c r s' = true →
      G.Later (s.record (.call s.currentOpen c)) s' → Q r s') :
    wp G.spec (callOut c) Q s := by
  rw [callOut, wp_bind, wp_modify]
  exact RelyGuarantee.wp_reentrant hc hinv hQ

theorem wp_createStepIf {needed : Bool} {step : CreateStep} {Q : Bool → TlsIo → Prop}
    (hc : G.reenters (.create step) = false) (halways : G.always s)
    (hskipped : needed = false → Q true s)
    (hQ : ∀ r : Bool, G.env.mayAnswer (.create step) r s = true → Q r s) :
    wp G.spec (createStepIf needed step) Q s := by
  unfold createStepIf
  split
  case isTrue => exact wp_ask hc halways hQ
  case isFalse hneeded => exact hskipped (Bool.not_eq_true _ ▸ hneeded)

theorem wp_indicateError {Q : Unit → TlsIo → Prop}
    (hnull : s.inst.onIoError = none → Q () s)
    (hcall : ∀ cb, s.inst.onIoError = some cb → wp G.spec (callOut (.onIoError cb)) Q s) :
    wp G.spec indicateError Q s := by
  rw [indicateError, wp_bind, wp_getInst]
  cases hcb : s.inst.onIoError with
  | none => exact hnull hcb
  | some cb => exact hcall cb hcb

theorem wp_indicateOpenComplete {openResult : IoOpenResultDetailed} {site : ReportSite}
    {Q : Unit → TlsIo → Prop}
    (hnull : s.inst.onIoOpenComplete = none → Q () s)
    (hcall : ∀ cb, s.inst.onIoOpenComplete = some cb →
      wp G.spec (callOut (.onIoOpenComplete cb openResult site)) Q s) :
    wp G.spec (indicateOpenComplete openResult site) Q s := by
  rw [indicateOpenComplete, wp_bind, wp_getInst]
  cases hcb : s.inst.onIoOpenComplete with
  | none => exact hnull hcb
  | some cb => exact hcall cb hcb

end

/-! ## The making of the engine -/

/-- Only the fields of the engine have changed, and an object that was overwritten is noted. -/
structure EngineOnly (s s' : TlsIo) : Prop where
  rest : ∃ ssl context inBio outBio, s' = { s with
    inst := { s.inst with ssl := ssl, sslContext := context, inBio := inBio, outBio := outBio }
    log := s'.log }
  noted : ∃ n, s'.log = s.log ++ List.replicate n (.fault .overwritten)

/-- What has become of the engine: no object was lost if there was none, and it is there or not. -/
structure EngineMade (k : Nat) (s : TlsIo) (r : Int) (s' : TlsIo) : Prop
    extends EngineOnly s s' where
  noneLost : s.inst.ssl = none → s.inst.sslContext = none → s'.log = s.log
  made : r = 0 → s'.inst.ssl = some { openId := k } ∧ s'.inst.inBio = some k ∧
    s'.inst.outBio = some k
  notMade : r ≠ 0 → s.inst.ssl = none → s'.inst.ssl = none

/-- The engine before `SSL_new`. -/
structure Making (s s' : TlsIo) : Prop extends EngineOnly s s' where
  ssl : s'.inst.ssl = s.inst.ssl
  noneLost : s.inst.sslContext = none → s'.log = s.log

section

variable {s s' s'' : TlsIo} {k : Nat}

theorem EngineOnly.refl (s : TlsIo) : EngineOnly s s where
  rest := ⟨_, _, _, _, rfl⟩
  noted := ⟨0, by simp⟩

theorem EngineOnly.trans (h : EngineOnly s s') (h' : EngineOnly s' s'') : EngineOnly s s'' where
  rest := by
    rcases h.rest with ⟨_, _, _, _, hs'⟩
    rcases h'.rest with ⟨_, _, _, _, hs''⟩
    rw [hs'] at hs''
    exact ⟨_, _, _, _, hs''⟩
  noted := by
    rcases h.noted with ⟨n, hn⟩
    rcases h'.noted with ⟨m, hm⟩
    refine ⟨n + m, ?_⟩
    rw [hm, hn, List.append_assoc, List.replicate_append_replicate]

theorem EngineOnly.setInst (s : TlsIo) (ssl : Option Ssl) (context inBio outBio : Option Nat) :
    EngineOnly s (s.setInst { s.inst with
      ssl := ssl, sslContext := context, inBio := inBio, outBio := outBio }) where
  rest := ⟨_, _, _, _, rfl⟩
  noted := ⟨0, by simp [TlsIo.setInst]⟩

theorem EngineOnly.closeOpensslInstance (s : TlsIo) : EngineOnly s s.closeOpensslInstance :=
  .setInst s none none _ _

theorem EngineOnly.overwritten (s : TlsIo) : EngineOnly s (s.record (.fault .overwritten)) where
  rest := ⟨_, _, _, _, rfl⟩
  noted := ⟨1, rfl⟩

theorem EngineOnly.storeContext (s : TlsIo) (context : Option Nat) :
    EngineOnly s (s.storeContext context) := by
  unfold TlsIo.storeContext
  split
  · exact .setInst s _ _ _ _
  · exact (EngineOnly.overwritten s).trans (.setInst _ _ _ _ _)

theorem EngineOnly.storeSsl (s : TlsIo) (ssl : Option Ssl) : EngineOnly s (s.storeSsl ssl) := by
  unfold TlsIo.storeSsl
  split
  · exact .setInst s _ _ _ _
  · exact (EngineOnly.overwritten s).trans (.setInst _ _ _ _ _)

theorem Making.storeContext (s : TlsIo) (context : Option Nat) :
    Making s (s.storeContext context) where
  toEngineOnly := .storeContext s context
  ssl := by
    unfold TlsIo.storeContext
    rfl
  noneLost := by
    intro hcontext
    simp [TlsIo.storeContext, hcontext, TlsIo.setInst]

/-- Another field is set before `SSL_new`. -/
theorem Making.setInst (h : Making s s') (context inBio outBio : Option Nat) :
    Making s (s'.setInst { s'.inst with
      sslContext := context, inBio := inBio, outBio := outBio }) where
  toEngineOnly := h.toEngineOnly.trans (.setInst s' _ _ _ _)
  ssl := h.ssl
  noneLost := h.noneLost

/-- A step has failed before `SSL_new`. -/
theorem Making.notMade (h : Making s s') : EngineMade k s failure s' where
  toEngineOnly := h.toEngineOnly
  noneLost _ hcontext := h.noneLost hcontext
  made hr := absurd hr (by decide)
  notMade _ hssl := h.ssl.trans hssl

end

section

variable {G : RelyGuarantee TlsIo tlsioOpensslSignature} {s₀ s : TlsIo} {k : Nat}
variable {config : TlsioConfig} {Q : Int → TlsIo → Prop}

/-- What a failure leaves of the context: none, unless one of the two steps has failed that leave
it. -/
def ContextGone (G : RelyGuarantee TlsIo tlsioOpensslSignature) (r : Int) (s : TlsIo) : Prop :=
  r = 0 ∨ s.inst.sslContext = none ∨
    G.env.mayAnswer (.create .loadSystemStore) false s = true ∨
    G.env.mayAnswer (.create .setupCrlCheck) false s = true

section

variable (hlocal : ∀ step, G.reenters (.create step) = false)
variable (halways : ∀ s', EngineOnly s₀ s' →
  (s₀.inst.ssl = none → s₀.inst.sslContext = none → s'.log = s₀.log) → G.always s')
variable (hQ : ∀ r s', EngineMade k s₀ r s' → ContextGone G r s' → Q r s')

include hlocal halways hQ

theorem wp_createSsl (h : Making s₀ s) (hin : s.inst.inBio = some k) (hout : s.inst.outBio = some k) :
    wp G.spec (createSsl config k) Q s := by
  have hnoneLost : s₀.inst.ssl = none → s₀.inst.sslContext = none → s.log = s₀.log :=
    fun _ hcontext => h.noneLost hcontext
  have hstored : ∀ ssl, s₀.inst.ssl = none → s₀.inst.sslContext = none →
      (s.storeSsl ssl).log = s₀.log := by
    intro ssl hssl hcontext
    have hssl' : s.inst.ssl = none := h.ssl.trans hssl
    simp only [TlsIo.storeSsl, hssl', if_true]
    exact h.noneLost hcontext
  -- What is left when `ssl` is freed again.
  have hfreed : EngineMade k s₀ failure (s.storeSsl (some { openId := k })).closeOpensslInstance := {
    toEngineOnly := (h.toEngineOnly.trans (.storeSsl s _)).trans (.closeOpensslInstance _)
    noneLost := hstored (some { openId := k })
    made := fun hr => absurd hr (by decide)
    notMade := fun _ _ => rfl }
  have hfail : Q failure (s.storeSsl (some { openId := k })).closeOpensslInstance :=
    hQ _ _ hfreed (.inr (.inl rfl))
  have hmaking : G.always (s.storeSsl (some { openId := k })) :=
    halways _ (h.toEngineOnly.trans (.storeSsl s _)) (hstored _)
  have hmade : Q 0 (s.storeSsl (some { openId := k })) := by
    apply hQ _ _ _ (.inl rfl)
    exact {
      toEngineOnly := h.toEngineOnly.trans (.storeSsl s _)
      noneLost := hstored _
      made := fun _ => ⟨rfl, hin, hout⟩
      notMade := fun hr => absurd rfl hr }
  rw [createSsl, wp_bind]
  apply wp_createStepIf (hlocal _) (halways _ h.toEngineOnly hnoneLost) nofun
  intro created _
  rw [wp_bind, wp_modify, wp_ite]
  cases created with
  | false =>
    simp only [if_true, Bool.false_eq_true, if_false, wp_freeSslContext]
    apply hQ _ _ _ (.inr (.inl rfl))
    exact {
      toEngineOnly := (h.toEngineOnly.trans (.storeSsl s none)).trans (.setInst _ _ _ _ _)
      noneLost := hstored none
      made := fun hr => absurd hr (by decide)
      notMade := fun _ _ => rfl }
  | true =>
    simp only [if_true, Bool.true_eq_false, if_false, wp_bind]
    have hchecked : wp G.spec (do
        let i ← getInst
        let checked ← createStepIf (!i.ignoreHostNameCheck) .enableDomainCheck
        if checked = false then freeSsl else pure 0) Q (s.storeSsl (some { openId := k })) := by
      simp only [wp_bind, wp_getInst]
      apply wp_createStepIf (hlocal _) hmaking
      case hskipped => exact fun _ => hmade
      case hQ =>
        intro checked _
        cases checked with
        | false => exact hfail
        | true => exact hmade
    apply wp_createStepIf (hlocal _) hmaking
    case hskipped => exact fun _ => hchecked
    case hQ =>
      intro named _
      cases named with
      | false => exact hfail
      | true => exact hchecked

theorem wp_createBios (h : Making s₀ s) : wp G.spec (createBios config k) Q s := by
  have hmaking : ∀ {s'}, Making s₀ s' → G.always s' := by
    intro s' h'
    exact halways s' h'.toEngineOnly fun _ hcontext => h'.noneLost hcontext
  have hfail : ∀ {s'}, Making s₀ s' → wp G.spec freeSslContext Q s' := by
    intro s' h'
    exact hQ _ _ (h'.setInst _ _ _).notMade (.inr (.inl rfl))
  rw [createBios, wp_bind]
  apply wp_createStepIf (hlocal _) (hmaking h) nofun
  intro inBio _
  simp only [wp_bind, wp_modifyInst, wp_ite]
  cases inBio with
  | false => exact hfail (h.setInst _ none _)
  | true =>
    simp only [if_true, Bool.true_eq_false, if_false]
    have hin := h.setInst s.inst.sslContext (some k) s.inst.outBio
    apply wp_createStepIf (hlocal _) (hmaking hin) nofun
    intro outBio _
    cases outBio with
    | false => exact hfail (hin.setInst _ _ none)
    | true =>
      simp only [if_true, Bool.true_eq_false, if_false, wp_bind]
      have hboth := hin.setInst s.inst.sslContext (some k) (some k)
      apply wp_createStepIf (hlocal _) (hmaking hboth) nofun
      intro eof _
      cases eof with
      | false => exact hfail hboth
      | true => exact wp_createSsl hlocal halways hQ hboth rfl rfl

theorem wp_addCredentials (h : Making s₀ s) : wp G.spec (addCredentials config k) Q s := by
  have hmaking : G.always s :=
    halways s h.toEngineOnly fun _ hcontext => h.noneLost hcontext
  have hfail : wp G.spec freeSslContext Q s :=
    hQ _ _ (h.setInst none _ _).notMade (.inr (.inl rfl))
  have hbios : wp G.spec (createBios config k) Q s := wp_createBios hlocal halways hQ h
  have hauthenticated : wp G.spec (do
      let authenticated ← createStepIf (s.inst.x509Certificate.isSome && s.inst.x509PrivateKey.isSome)
        .x509OpensslAddCredentials
      if authenticated = false then freeSslContext else createBios config k) Q s := by
    rw [wp_bind]
    apply wp_createStepIf (hlocal _) hmaking
    case hskipped => exact fun _ => hbios
    case hQ =>
      intro authenticated _
      cases authenticated with
      | false => exact hfail
      | true => exact hbios
  rw [addCredentials, wp_bind, wp_getInst, wp_bind]
  apply wp_createStepIf (hlocal _) hmaking
  case hskipped => exact fun _ => hauthenticated
  case hQ =>
    intro trusted _
    cases trusted with
    | false => exact hfail
    | true => exact hauthenticated

end

theorem wp_createOpensslInstance (hlocal : ∀ step, G.reenters (.create step) = false)
    (halways : ∀ s', EngineOnly s s' →
      (s.inst.ssl = none → s.inst.sslContext = none → s'.log = s.log) → G.always s')
    (hQ : ∀ r s', EngineMade k s r s' → ContextGone G r s' → Q r s') :
    wp G.spec (createOpensslInstance config k) Q s := by
  have hmaking := fun context => Making.storeContext s context
  have hstored : G.always (s.storeContext (some k)) :=
    halways _ (hmaking _).toEngineOnly fun _ hcontext => (hmaking _).noneLost hcontext
  rw [createOpensslInstance, wp_bind]
  apply wp_createStepIf (hlocal _) (halways s (.refl s) fun _ _ => rfl) nofun
  intro created _
  simp only [wp_bind, wp_modify, wp_ite]
  cases created with
  | false => exact hQ _ _ (hmaking none).notMade (.inr (.inl rfl))
  | true =>
    simp only [if_true, Bool.true_eq_false, if_false]
    apply wp_createStepIf (hlocal _) hstored nofun
    intro loaded hloaded
    cases loaded with
    | false => exact hQ _ _ (hmaking _).notMade (.inr (.inr (.inl hloaded)))
    | true =>
      simp only [Bool.true_eq_false, if_false, wp_bind]
      apply wp_createStepIf (hlocal _) hstored nofun
      intro ready hready
      cases ready with
      | false => exact hQ _ _ (hmaking _).notMade (.inr (.inr (.inr hready)))
      | true => exact wp_addCredentials hlocal halways hQ (hmaking _)

end

/-! ## Outgoing bytes -/

section

variable {G : RelyGuarantee TlsIo tlsioOpensslSignature} {s : TlsIo}

theorem wp_xioSend {purpose : WritePurpose} {bytes : List OutgoingByte} {Q : Int → TlsIo → Prop}
    (hc : ∀ n, G.reenters (.xioSend n purpose bytes) = true)
    (hinv : G.inv (s.handOver purpose bytes))
    (hQ : ∀ (r : Int) s',
      G.env.mayAnswer (.xioSend s.handed.length purpose bytes) r s' = true →
      G.Later (s.handOver purpose bytes) s' → Q r (s'.sendReturned s.handed.length r)) :
    wp G.spec (xioSend purpose bytes) Q s := by
  simp only [xioSend, wp_bind, wp_get, wp_modify]
  exact RelyGuarantee.wp_reentrant (hc _) hinv hQ

theorem wp_writeOutgoingBytes {purpose : WritePurpose} {Q : Int → TlsIo → Prop} {s₁ : TlsIo}
    (hs₁ : s.useBio s.inst.outBio = s₁)
    (hmalloc : G.reenters (.malloc purpose) = false)
    (hread : ∀ n, G.reenters (.bioRead purpose n) = false)
    (hsend : ∀ n bytes, G.reenters (.xioSend n purpose bytes) = true)
    (halways : G.always s₁)
    (hempty : s₁.inst.pending = [] → Q 0 s₁)
    (hnoMemory : s₁.inst.pending ≠ [] → G.env.mayAnswer (.malloc purpose) false s₁ = true →
      Q failure s₁)
    (hnotRead : ∀ count : Int,
      G.env.mayAnswer (.bioRead purpose s₁.inst.pending.length) count s₁ = true →
      count ≠ s₁.inst.pending.length → Q failure (s₁.takeOutgoing count.toNat))
    (hsent : s₁.inst.pending ≠ [] → ∀ s₂,
      s₂ = s₁.takeOutgoing s₁.inst.pending.length →
        G.inv (s₂.handOver purpose s₁.inst.pending) ∧
        ∀ (r : Int) s',
          G.env.mayAnswer (.xioSend s₂.handed.length purpose s₁.inst.pending) r s' = true →
          G.Later (s₂.handOver purpose s₁.inst.pending) s' →
            Q (if r ≠ 0 then failure else 0) (s'.sendReturned s₂.handed.length r)) :
    wp G.spec (writeOutgoingBytes purpose) Q s := by
  simp only [writeOutgoingBytes, wp_bind, wp_modify, wp_getInst, wp_ite, hs₁]
  split
  case isTrue hpending => exact hempty hpending
  case isFalse hpending =>
    apply wp_ask hmalloc halways
    intro bytesToSend hallocated
    cases bytesToSend with
    | false => exact hnoMemory hpending hallocated
    | true =>
      simp only [Bool.true_eq_false, if_false, wp_bind]
      apply wp_ask (hread _) halways
      intro count hcount
      simp only [wp_modify, wp_ite, wp_bind]
      split
      case isTrue hshort => exact hnotRead count hcount hshort
      case isFalse hall =>
        have hall : count = s₁.inst.pending.length := Decidable.not_not.1 hall
        have htaken : count.toNat = s₁.inst.pending.length := by omega
        rw [htaken]
        have hs₂ := hsent hpending _ rfl
        exact wp_xioSend (fun n => hsend n _) hs₂.1 hs₂.2

end

/-! ## Options -/

/-- What the options are not: the callbacks, the engine, the state, and the observer's part. -/
structure OptionsOnly (s s' : TlsIo) : Prop where
  rest : s' = { s with inst := s'.inst, sslCrlMaxSizeInKb := s'.sslCrlMaxSizeInKb }
  onIoError : s'.inst.onIoError = s.inst.onIoError
  ssl : s'.inst.ssl = s.inst.ssl
  sslContext : s'.inst.sslContext = s.inst.sslContext
  inBio : s'.inst.inBio = s.inst.inBio
  outBio : s'.inst.outBio = s.inst.outBio
  state : s'.inst.tlsioState = s.inst.tlsioState

section

variable {G : RelyGuarantee TlsIo tlsioOpensslSignature} {s : TlsIo} {Q : Int → TlsIo → Prop}

theorem wp_setWhileDisconnected {f : TlsIo → TlsIo} (hrefused : Q failure s) (hset : Q 0 (f s)) :
    wp G.spec (setWhileDisconnected f) Q s := by
  simp only [setWhileDisconnected, wp_bind, wp_getInst, wp_ite, wp_modify, wp_pure]
  split
  · exact hrefused
  · exact hset

theorem wp_setOnce {stored : TlsIoInstance → Option Bytes} {store : TlsIoInstance → TlsIoInstance}
    (hc : G.reenters (.setoption .malloc) = false) (halways : G.always s)
    (hrefused : Q failure s) (hset : Q 0 (s.setInst (store s.inst))) :
    wp G.spec (setOnce stored store) Q s := by
  simp only [setOnce, wp_bind, wp_getInst, wp_ite]
  split
  · exact hrefused
  · apply wp_ask hc halways
    intro allocated _
    cases allocated with
    | false => exact hrefused
    | true => exact hset

theorem wp_tlsioOpensslSetoption (hlocal : ∀ step, G.reenters (.setoption step) = false)
    (halways : ∀ s', OptionsOnly s s' → G.always s')
    (hQ : ∀ r s', OptionsOnly s s' → Q r s') (option : TlsioOption) :
    wp G.spec (tlsioOpensslSetoption option) Q s := by
  have hsame : OptionsOnly s s := ⟨rfl, rfl, rfl, rfl, rfl, rfl, rfl⟩
  have hset : ∀ {f : TlsIo → TlsIo}, OptionsOnly s (f s) →
      wp G.spec (setWhileDisconnected f) Q s :=
    fun hf => wp_setWhileDisconnected (hQ _ s hsame) (hQ _ _ hf)
  have honce : ∀ {stored} {store : TlsIoInstance → TlsIoInstance},
      OptionsOnly s (s.setInst (store s.inst)) → wp G.spec (setOnce stored store) Q s :=
    fun hs => wp_setOnce (hlocal _) (halways s hsame) (hQ _ s hsame) (hQ _ _ hs)
  cases option with
  | trustedCerts certificate =>
    simp only [tlsioOpensslSetoption, setTrustedCerts, wp_bind]
    apply wp_ask (hlocal _) (halways s hsame)
    intro stored _
    let s₁ := s.setInst { s.inst with certificate := if stored then some certificate else none }
    have hs : OptionsOnly s s₁ := ⟨rfl, rfl, rfl, rfl, rfl, rfl, rfl⟩
    show wp _ (if s₁.inst.sslContext ≠ none then _ else _) _ s₁
    rw [wp_ite]
    split
    · rw [wp_bind]
      apply wp_ask (hlocal _) (halways s₁ hs)
      intro added _
      exact hQ _ s₁ hs
    · exact hQ _ s₁ hs
  | x509Certificate certificate => exact honce ⟨rfl, rfl, rfl, rfl, rfl, rfl, rfl⟩
  | x509PrivateKey key => exact honce ⟨rfl, rfl, rfl, rfl, rfl, rfl, rfl⟩
  | tlsVersion version => exact hset ⟨rfl, rfl, rfl, rfl, rfl, rfl, rfl⟩
  | disableCrlCheck value => exact hset ⟨rfl, rfl, rfl, rfl, rfl, rfl, rfl⟩
  | continueOnCrlDownloadFailure value => exact hset ⟨rfl, rfl, rfl, rfl, rfl, rfl, rfl⟩
  | sslCrlMaxSizeInKb value => exact hset ⟨rfl, rfl, rfl, rfl, rfl, rfl, rfl⟩
  | disableDefaultVerifyPaths value => exact hset ⟨rfl, rfl, rfl, rfl, rfl, rfl, rfl⟩
  | underlyingIoOptions => exact wp_ask (hlocal _) (halways s hsame) fun _ _ => hQ _ s hsame
  | other => exact wp_ask (hlocal _) (halways s hsame) fun _ _ => hQ _ s hsame
  | _ => exact hQ _ _ ⟨rfl, rfl, rfl, rfl, rfl, rfl, rfl⟩

end

end SharedUtility.TlsIoOpenssl
