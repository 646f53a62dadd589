import SharedUtility.Options.TlsioOptions

/-!
# Openssl — the options of `tlsio_openssl.c`

* `TlsIoInstance` — the fields of `TLS_IO_INSTANCE` that options are kept in,
* `tlsioOpensslSetoption`, `tlsioOpensslCloneOption`, `tlsioOpensslRetrieveoptions` — the code, without a
  connection: `ssl_context` is NULL,
* `retrieved_fed` — what a fresh instance holds that the retrieved options are fed into,
* `options_kept_iff` — when these are the options that were set,
* `socketio`, `socketio_survives` — the options of `socketio_berkeley.c`, over which an instance stands.

The retrieval is one chain of `else if`, and the arm for `tls_version` ends it: an instance always has a TLS
version, so no option behind this arm is ever saved.
-/

namespace SharedUtility.Options

open OptionHandler (OptionHandlerResult)

/-! ## The code -/

structure TlsIoInstance (υ : Type) where
  certificate : Option Bytes
  x509Certificate : Option Bytes
  x509PrivateKey : Option Bytes
  tlsVersion : Int
  disableCrlCheck : Bool
  continueOnCrlDownloadFailure : Bool
  disableDefaultVerifyPaths : Bool
  tlsValidationCallback : Option Nat
  tlsValidationCallbackData : Option Nat
  ignoreHostNameCheck : Bool
  underlyingIo : υ

def optionUnderlyingIoOptions : String := "underlying_io_options"
def optionTlsVersion : String := "tls_version"
def optionDisableCrlCheck : String := "DisableCrlCheck"
def optionContinueOnCrlDownloadFailure : String := "ContinueOnCrlDownloadFailure"
def optionDisableDefaultVerifyPaths : String := "DisableDefaultVerifyPath"
def optionSslCrlMaxSizeInKb : String := "SSLCRLMaxSizeInKB"
def optionTlsValidationCallback : String := "tls_validation_callback"
def optionTlsValidationCallbackData : String := "tls_validation_callback_data"
def optionIgnoreHostNameCheck : String := "ignore_host_name_check"

/-- `OPTION_TLS_VERSION_1_0`, `OPTION_TLS_VERSION_1_1`, `OPTION_TLS_VERSION_1_2`. -/
def optionTlsVersion10 : Int := 10
def optionTlsVersion11 : Int := 11
def optionTlsVersion12 : Int := 12

def isTlsVersion (version : Int) : Bool :=
  version == optionTlsVersion10 || version == optionTlsVersion11 || version == optionTlsVersion12

section

variable {υ : Type}

/-- The instance that `tlsio_openssl_create` makes over an underlying io. -/
def tlsioOpensslCreate (underlyingIo : υ) : TlsIoInstance υ where
  certificate := none
  x509Certificate := none
  x509PrivateKey := none
  tlsVersion := optionTlsVersion10
  disableCrlCheck := false
  continueOnCrlDownloadFailure := false
  disableDefaultVerifyPaths := false
  tlsValidationCallback := none
  tlsValidationCallbackData := none
  ignoreHostNameCheck := false
  underlyingIo := underlyingIo

/-- A value that is cast to a `bool*` and read. -/
def setBool (set : Bool → TlsIoInstance υ) : Option OptionValue → Option (Int × TlsIoInstance υ)
  | some (.bool value) => some (0, set value)
  | _ => none

/-- A value that is cast to an `int*` and read. -/
def setInt (set : Int → TlsIoInstance υ) : Option OptionValue → Option (Int × TlsIoInstance υ)
  | some (.int value) => some (0, set value)
  | _ => none

/-- A value that is kept as a pointer. -/
def setPointer (set : Option Nat → TlsIoInstance υ) : Option OptionValue → Option (Int × TlsIoInstance υ)
  | none => some (0, set none)
  | some (.pointer value) => some (0, set (some value))
  | _ => none

/-- An x509 option, which is set once; `mallocAndStrcpy_s` refuses NULL. -/
def setX509 (i : TlsIoInstance υ) (old : Option Bytes) (set : Bytes → TlsIoInstance υ) :
    Option OptionValue → Option (Int × TlsIoInstance υ)
  | none => some (failure, i)
  | some (.text chars) => if old ≠ none then some (failure, i) else some (0, set chars)
  | _ => if old ≠ none then some (failure, i) else none

def tlsioOpensslSetoption (underlying : Layer υ) : SetOption (TlsIoInstance υ) := fun optionName value i =>
  if optionName = optionTrustedCert then
    match value with
    | some (.text cert) => some (0, { i with certificate := some cert })
    | _ => none
  else if optionName = suOptionX509Cert ∨ optionName = optionX509EccCert then
    setX509 i i.x509Certificate (fun chars => { i with x509Certificate := some chars }) value
  else if optionName = suOptionX509PrivateKey ∨ optionName = optionX509EccKey then
    setX509 i i.x509PrivateKey (fun chars => { i with x509PrivateKey := some chars }) value
  else if optionName = optionTlsValidationCallback then
    setPointer (fun callback => { i with tlsValidationCallback := callback }) value
  else if optionName = optionTlsValidationCallbackData then
    setPointer (fun data => { i with tlsValidationCallbackData := data }) value
  else if optionName = optionTlsVersion then
    setInt (fun version =>
      { i with tlsVersion := if isTlsVersion version then version else optionTlsVersion12 }) value
  else if optionName = optionDisableCrlCheck then
    setBool (fun disable => { i with disableCrlCheck := disable }) value
  else if optionName = optionContinueOnCrlDownloadFailure then
    setBool (fun go => { i with continueOnCrlDownloadFailure := go }) value
  else if optionName = optionSslCrlMaxSizeInKb then
    setInt (fun _ => i) value -- `g_ssl_crl_max_size_in_kb` is not a field of the instance
  else if optionName = optionDisableDefaultVerifyPaths then
    setBool (fun disable => { i with disableDefaultVerifyPaths := disable }) value
  else if optionName = optionUnderlyingIoOptions then
    match underlying.feed value i.underlyingIo with
    | none => none
    | some (r, underlyingIo) =>
      some (if r = .optionHandlerOk then 0 else failure, { i with underlyingIo := underlyingIo })
  else if optionName = optionIgnoreHostNameCheck then
    setBool (fun ignore => { i with ignoreHostNameCheck := ignore }) value
  else
    match underlying.setOption optionName value i.underlyingIo with
    | none => none
    | some (r, underlyingIo) => some (r, { i with underlyingIo := underlyingIo })

/-- `tlsio_openssl_CloneOption`; a value that is not what its name says has no clone here. -/
def tlsioOpensslCloneOption : CloneOption := fun name value =>
  if name = optionUnderlyingIoOptions then some value
  else if isSupportedStringOption name then
    match value with
    | .text chars => some (.text chars)
    | _ => none
  else if name = optionTlsVersion then
    match value with
    | .int version => if isTlsVersion version then some (.int version) else none
    | _ => none
  else if name = optionDisableCrlCheck ∨ name = optionDisableDefaultVerifyPaths ∨
      name = optionContinueOnCrlDownloadFailure then
    match value with
    | .bool flag => some (.bool flag)
    | _ => none
  else if name = optionTlsValidationCallback ∨ name = optionTlsValidationCallbackData then some value
  else none

/-- An option is added; `none` when it cannot be. -/
def save (storage : List (String × OptionValue)) (name : String) (value : Option OptionValue) :
    Option (List (String × OptionValue)) :=
  match addOption tlsioOpensslCloneOption storage name value with
  | (.optionHandlerOk, storage) => some storage
  | _ => none

def tlsioOpensslRetrieveoptions (underlying : Layer υ) (i : TlsIoInstance υ) : Option OptionValue := do
  let underlyingIoOptions ← underlying.retrieveOptions i.underlyingIo
  let storage ← save [] optionUnderlyingIoOptions (some underlyingIoOptions)
  let storage ← saveText tlsioOpensslCloneOption storage optionTrustedCert i.certificate
  let storage ← saveText tlsioOpensslCloneOption storage suOptionX509Cert i.x509Certificate
  let storage ← saveText tlsioOpensslCloneOption storage suOptionX509PrivateKey i.x509PrivateKey
  let storage ←
    if i.tlsVersion ≠ 0 then save storage optionTlsVersion (some (.int i.tlsVersion))
    else if i.disableCrlCheck then save storage optionDisableCrlCheck (some (.bool i.disableCrlCheck))
    else if i.continueOnCrlDownloadFailure then
      save storage optionContinueOnCrlDownloadFailure (some (.bool i.continueOnCrlDownloadFailure))
    else if i.disableDefaultVerifyPaths then
      save storage optionDisableDefaultVerifyPaths (some (.bool i.disableDefaultVerifyPaths))
    else if i.tlsValidationCallback ≠ none then do
      let storage ← save storage optionTlsValidationCallback (i.tlsValidationCallback.map .pointer)
      save storage optionTlsValidationCallbackData (i.tlsValidationCallbackData.map .pointer)
    else some storage
  some (.handler .tlsioOpenssl storage)

def tlsioOpenssl (underlying : Layer υ) : Layer (TlsIoInstance υ) where
  component := .tlsioOpenssl
  setOption := tlsioOpensslSetoption underlying
  retrieveOptions := tlsioOpensslRetrieveoptions underlying

/-! ## The property -/

/-- A sequence of `tlsio_openssl_setoption` calls that all succeed. -/
def setAll (underlying : Layer υ) :
    (calls : List (String × Option OptionValue)) → TlsIoInstance υ → Option (TlsIoInstance υ)
  | [], i => some i
  | (optionName, value) :: calls, i =>
    match tlsioOpensslSetoption underlying optionName value i with
    | some (0, i') => setAll underlying calls i'
    | _ => none

/-- The options of two instances. -/
structure SameOptions (i i' : TlsIoInstance υ) : Prop where
  certificate : i.certificate = i'.certificate
  x509Certificate : i.x509Certificate = i'.x509Certificate
  x509PrivateKey : i.x509PrivateKey = i'.x509PrivateKey
  tlsVersion : i.tlsVersion = i'.tlsVersion
  disableCrlCheck : i.disableCrlCheck = i'.disableCrlCheck
  continueOnCrlDownloadFailure : i.continueOnCrlDownloadFailure = i'.continueOnCrlDownloadFailure
  disableDefaultVerifyPaths : i.disableDefaultVerifyPaths = i'.disableDefaultVerifyPaths
  tlsValidationCallback : i.tlsValidationCallback = i'.tlsValidationCallback
  tlsValidationCallbackData : i.tlsValidationCallbackData = i'.tlsValidationCallbackData

/-- The options are retrieved, fed into a fresh instance, and are the same there. -/
def OptionsKept (underlying : Layer υ) (fresh : υ) (i : TlsIoInstance υ) : Prop :=
  ∃ handler i', (tlsioOpenssl underlying).retrieveOptions i = some handler ∧
    (tlsioOpenssl underlying).feed (some handler) (tlsioOpensslCreate fresh) = some (.optionHandlerOk, i') ∧
    SameOptions i i'

/-- No option behind the TLS version is set to anything but its default. -/
structure BehindVersionDefault (i : TlsIoInstance υ) : Prop where
  disableCrlCheck : i.disableCrlCheck = false
  continueOnCrlDownloadFailure : i.continueOnCrlDownloadFailure = false
  disableDefaultVerifyPaths : i.disableDefaultVerifyPaths = false
  tlsValidationCallback : i.tlsValidationCallback = none
  tlsValidationCallbackData : i.tlsValidationCallbackData = none

end

/-! ## The chain -/

section

variable {υ : Type} {underlying : Layer υ} {fresh : υ} {i i' : TlsIoInstance υ}

theorem setBool_cases {set : Bool → TlsIoInstance υ} {value : Option OptionValue} {r : Int}
    (h : setBool set value = some (r, i')) : ∃ b, i' = set b := by
  unfold setBool at h
  split at h
  · exact ⟨_, (congrArg Prod.snd (Option.some.inj h)).symm⟩
  · cases h

theorem setInt_cases {set : Int → TlsIoInstance υ} {value : Option OptionValue} {r : Int}
    (h : setInt set value = some (r, i')) : ∃ n, i' = set n := by
  unfold setInt at h
  split at h
  · exact ⟨_, (congrArg Prod.snd (Option.some.inj h)).symm⟩
  · cases h

theorem setPointer_cases {set : Option Nat → TlsIoInstance υ} {value : Option OptionValue} {r : Int}
    (h : setPointer set value = some (r, i')) : ∃ p, i' = set p := by
  unfold setPointer at h
  split at h
  · exact ⟨_, (congrArg Prod.snd (Option.some.inj h)).symm⟩
  · exact ⟨_, (congrArg Prod.snd (Option.some.inj h)).symm⟩
  · cases h

theorem setX509_cases {old : Option Bytes} {set : Bytes → TlsIoInstance υ} {value : Option OptionValue}
    {r : Int}
    (h : setX509 i old set value = some (r, i')) : i' = i ∨ ∃ chars, i' = set chars := by
  unfold setX509 at h
  split at h
  · exact Or.inl (congrArg Prod.snd (Option.some.inj h)).symm
  · split_ifs at h
    · exact Or.inl (congrArg Prod.snd (Option.some.inj h)).symm
    · exact Or.inr ⟨_, (congrArg Prod.snd (Option.some.inj h)).symm⟩
  · split_ifs at h
    exact Or.inl (congrArg Prod.snd (Option.some.inj h)).symm

theorem of_ite_eq_some {α : Type} {p : Prop} [Decidable p] {a b : Option α} {r : α}
    (h : (if p then a else b) = some r) : a = some r ∨ b = some r := by
  split at h
  · exact Or.inl h
  · exact Or.inr h

/-- What a call may do to the TLS version and to the underlying io: the version becomes a known one, and the io is
only reached by calls of its own. -/
theorem setoption_cases {optionName : String} {value : Option OptionValue} {r : Int}
    (hset : tlsioOpensslSetoption underlying optionName value i = some (r, i')) :
    (i'.tlsVersion = i.tlsVersion ∨ isTlsVersion i'.tlsVersion = true) ∧
      (i'.underlyingIo = i.underlyingIo ∨
        (∃ result, underlying.feed value i.underlyingIo = some (result, i'.underlyingIo)) ∨
        ∃ result, underlying.setOption optionName value i.underlyingIo = some (result, i'.underlyingIo)) := by
  unfold tlsioOpensslSetoption at hset
  rcases of_ite_eq_some hset with htrusted | hset
  · split at htrusted
    · obtain rfl := congrArg Prod.snd (Option.some.inj htrusted)
      exact ⟨Or.inl rfl, Or.inl rfl⟩
    · cases htrusted
  rcases of_ite_eq_some hset with hcert | hset
  · rcases setX509_cases hcert with rfl | ⟨_, rfl⟩
    · exact ⟨Or.inl rfl, Or.inl rfl⟩
    · exact ⟨Or.inl rfl, Or.inl rfl⟩
  rcases of_ite_eq_some hset with hkey | hset
  · rcases setX509_cases hkey with rfl | ⟨_, rfl⟩
    · exact ⟨Or.inl rfl, Or.inl rfl⟩
    · exact ⟨Or.inl rfl, Or.inl rfl⟩
  rcases of_ite_eq_some hset with hcallback | hset
  · obtain ⟨_, rfl⟩ := setPointer_cases hcallback
    exact ⟨Or.inl rfl, Or.inl rfl⟩
  rcases of_ite_eq_some hset with hdata | hset
  · obtain ⟨_, rfl⟩ := setPointer_cases hdata
    exact ⟨Or.inl rfl, Or.inl rfl⟩
  rcases of_ite_eq_some hset with hversion | hset
  · -- the setter itself puts version 1.2 in the place of an unknown one
    obtain ⟨version, rfl⟩ := setInt_cases hversion
    refine ⟨Or.inr ?_, Or.inl rfl⟩
    dsimp only
    split_ifs with hknown
    · exact hknown
    · rfl
  rcases of_ite_eq_some hset with hcrl | hset
  · obtain ⟨_, rfl⟩ := setBool_cases hcrl
    exact ⟨Or.inl rfl, Or.inl rfl⟩
  rcases of_ite_eq_some hset with hcontinue | hset
  · obtain ⟨_, rfl⟩ := setBool_cases hcontinue
    exact ⟨Or.inl rfl, Or.inl rfl⟩
  rcases of_ite_eq_some hset with hsize | hset
  · obtain ⟨_, rfl⟩ := setInt_cases hsize
    exact ⟨Or.inl rfl, Or.inl rfl⟩
  rcases of_ite_eq_some hset with hpaths | hset
  · obtain ⟨_, rfl⟩ := setBool_cases hpaths
    exact ⟨Or.inl rfl, Or.inl rfl⟩
  rcases of_ite_eq_some hset with hunderlying | hset
  · split at hunderlying
    · cases hunderlying
    · rename_i result underlyingIo hfeed
      obtain rfl := congrArg Prod.snd (Option.some.inj hunderlying)
      exact ⟨Or.inl rfl, Or.inr (Or.inl ⟨result, hfeed⟩)⟩
  rcases of_ite_eq_some hset with hhost | hpassed
  · obtain ⟨_, rfl⟩ := setBool_cases hhost
    exact ⟨Or.inl rfl, Or.inl rfl⟩
  split at hpassed
  · cases hpassed
  · rename_i result underlyingIo heq
    obtain rfl := congrArg Prod.snd (Option.some.inj hpassed)
    exact ⟨Or.inl rfl, Or.inr (Or.inr ⟨result, heq⟩)⟩

/-- What the calls of the underlying io keep, and that the TLS version is known, is kept by every call. -/
theorem setoption_keeps {P : υ → Prop} (hunderlying : underlying.Keeps P) {optionName : String}
    {value : Option OptionValue} {r : Int} (h : isTlsVersion i.tlsVersion = true ∧ P i.underlyingIo)
    (hset : tlsioOpensslSetoption underlying optionName value i = some (r, i')) :
    isTlsVersion i'.tlsVersion = true ∧ P i'.underlyingIo := by
  obtain ⟨hversion, hio⟩ := setoption_cases hset
  constructor
  · rcases hversion with hsame | hknown
    · rw [hsame]
      exact h.1
    · exact hknown
  · rcases hio with hsame | ⟨result, hfeed⟩ | ⟨result, hpassed⟩
    · rw [hsame]
      exact h.2
    · exact hunderlying.feed h.2 hfeed
    · exact hunderlying _ _ _ _ _ h.2 hpassed

theorem setAll_keeps {P : υ → Prop} (hunderlying : underlying.Keeps P)
    {calls : List (String × Option OptionValue)} (h : isTlsVersion i.tlsVersion = true ∧ P i.underlyingIo)
    (hset : setAll underlying calls i = some i') : isTlsVersion i'.tlsVersion = true ∧ P i'.underlyingIo := by
  induction calls generalizing i with
  | nil =>
    obtain rfl := Option.some.inj hset
    exact h
  | cons call calls ih =>
    rcases call with ⟨optionName, value⟩
    rw [setAll] at hset
    split at hset
    · rename_i i₁ heq
      exact ih (setoption_keeps hunderlying h heq) hset
    · cases hset

theorem save_tlsVersion (h : isTlsVersion i.tlsVersion = true) (storage : List (String × OptionValue)) :
    i.tlsVersion ≠ 0 ∧ save storage optionTlsVersion (some (.int i.tlsVersion)) =
      some (storage ++ [(optionTlsVersion, .int i.tlsVersion)]) := by
  have hclone : tlsioOpensslCloneOption optionTlsVersion (.int i.tlsVersion) = some (.int i.tlsVersion) := by
    rw [tlsioOpensslCloneOption, if_neg (by decide), if_neg (by decide), if_pos rfl, if_pos h]
  constructor
  · intro hzero
    rw [hzero] at h
    cases h
  · rw [save, addOption, hclone]

theorem cloneOption_text {name : String} (hname : isSupportedStringOption name = true) (chars : Bytes) :
    tlsioOpensslCloneOption name (.text chars) = some (.text chars) := by
  have hne : name ≠ optionUnderlyingIoOptions := by
    rintro rfl
    cases hname
  rw [tlsioOpensslCloneOption, if_neg hne, if_pos hname]

theorem setoption_underlying (value : Option OptionValue) :
    tlsioOpensslSetoption underlying optionUnderlyingIoOptions value i =
      match underlying.feed value i.underlyingIo with
      | none => none
      | some (r, underlyingIo) =>
        some (if r = .optionHandlerOk then 0 else failure, { i with underlyingIo := underlyingIo }) := by
  unfold tlsioOpensslSetoption
  rw [if_neg (by decide), if_neg (by decide), if_neg (by decide), if_neg (by decide), if_neg (by decide),
    if_neg (by decide), if_neg (by decide), if_neg (by decide), if_neg (by decide), if_neg (by decide),
    if_pos rfl]

theorem setoption_tlsVersion {version : Int} (h : isTlsVersion version = true) :
    tlsioOpensslSetoption underlying optionTlsVersion (some (.int version)) i =
      some (0, { i with tlsVersion := version }) := by
  unfold tlsioOpensslSetoption
  rw [if_neg (by decide), if_neg (by decide), if_neg (by decide), if_neg (by decide), if_neg (by decide),
    if_pos rfl, setInt, if_pos h]

theorem setoption_x509Cert {chars : Bytes} (hnull : i.x509Certificate = none) :
    tlsioOpensslSetoption underlying suOptionX509Cert (some (.text chars)) i =
      some (0, { i with x509Certificate := some chars }) := by
  unfold tlsioOpensslSetoption
  rw [if_neg (by decide), if_pos (by decide), setX509, if_neg fun hne => hne hnull]

theorem setoption_x509PrivateKey {chars : Bytes} (hnull : i.x509PrivateKey = none) :
    tlsioOpensslSetoption underlying suOptionX509PrivateKey (some (.text chars)) i =
      some (0, { i with x509PrivateKey := some chars }) := by
  unfold tlsioOpensslSetoption
  rw [if_neg (by decide), if_neg (by decide), if_pos (by decide), setX509, if_neg fun hne => hne hnull]

theorem underlying_fed (hunderlying : underlying.Survives fresh i.underlyingIo) :
    ∃ options storage, underlying.retrieveOptions i.underlyingIo = some options ∧
      save [] optionUnderlyingIoOptions (some options) = some storage ∧
      feedOptions (tlsioOpensslSetoption underlying) storage (tlsioOpensslCreate fresh) =
        some (.optionHandlerOk, tlsioOpensslCreate i.underlyingIo) := by
  rcases hunderlying with ⟨options, hretrieve, hfeed⟩
  refine ⟨options, [(optionUnderlyingIoOptions, options)], hretrieve, rfl, ?_⟩
  refine (feedOptions_cons ?_ []).trans rfl
  rw [setoption_underlying]
  dsimp only [tlsioOpensslCreate]
  rw [hfeed]
  rfl

theorem saveSupported_fed {storage : List (String × OptionValue)} {start : TlsIoInstance υ} {name : String}
    (f : Option Bytes → TlsIoInstance υ) (hname : isSupportedStringOption name = true)
    (hset : ∀ chars, tlsioOpensslSetoption underlying name (some (.text chars)) (f none) = some (0, f (some chars)))
    (hfed : feedOptions (tlsioOpensslSetoption underlying) storage start = some (.optionHandlerOk, f none))
    (value : Option Bytes) :
    ∃ storage', saveText tlsioOpensslCloneOption storage name value = some storage' ∧
      feedOptions (tlsioOpensslSetoption underlying) storage' start = some (.optionHandlerOk, f value) := by
  apply saveText_fed (cloneOption_text hname) hfed
  · rintro rfl
    rfl
  · rintro chars rfl
    exact hset chars

theorem retrieved_fed (h : isTlsVersion i.tlsVersion = true)
    (hunderlying : underlying.Survives fresh i.underlyingIo) :
    ∃ handler, (tlsioOpenssl underlying).retrieveOptions i = some handler ∧
      (tlsioOpenssl underlying).feed (some handler) (tlsioOpensslCreate fresh) =
        some (.optionHandlerOk,
          { tlsioOpensslCreate i.underlyingIo with
            certificate := i.certificate
            x509Certificate := i.x509Certificate
            x509PrivateKey := i.x509PrivateKey
            tlsVersion := i.tlsVersion }) := by
  obtain ⟨options, storage, hretrieve, hsave, hfed⟩ := underlying_fed hunderlying
  obtain ⟨storage₁, hsave₁, hfed₁⟩ := saveSupported_fed
    (fun value => { tlsioOpensslCreate i.underlyingIo with certificate := value }) (by decide)
    (fun _ => if_pos rfl) hfed i.certificate
  obtain ⟨storage₂, hsave₂, hfed₂⟩ := saveSupported_fed
    (fun value => { tlsioOpensslCreate i.underlyingIo with
      certificate := i.certificate, x509Certificate := value }) (by decide)
    (fun _ => setoption_x509Cert rfl) hfed₁ i.x509Certificate
  obtain ⟨storage₃, hsave₃, hfed₃⟩ := saveSupported_fed
    (fun value => { tlsioOpensslCreate i.underlyingIo with
      certificate := i.certificate, x509Certificate := i.x509Certificate, x509PrivateKey := value }) (by decide)
    (fun _ => setoption_x509PrivateKey rfl) hfed₂ i.x509PrivateKey
  obtain ⟨hversion, hsave₄⟩ := save_tlsVersion h storage₃
  refine ⟨.handler .tlsioOpenssl (storage₃ ++ [(optionTlsVersion, .int i.tlsVersion)]), ?_, ?_⟩
  · change tlsioOpensslRetrieveoptions underlying i = _
    rw [tlsioOpensslRetrieveoptions, hretrieve]
    simp only [Option.bind_eq_bind, Option.bind_some, hsave, hsave₁, hsave₂, hsave₃, if_pos hversion, hsave₄]
  · change feedOptions (tlsioOpensslSetoption underlying) _ _ = _
    rw [feedOptions_append hfed₃, feedOptions_cons (setoption_tlsVersion h)]
    rfl

theorem optionsKept_iff (h : isTlsVersion i.tlsVersion = true)
    (hunderlying : underlying.Survives fresh i.underlyingIo) :
    OptionsKept underlying fresh i ↔ BehindVersionDefault i := by
  obtain ⟨handler, hretrieve, hfeed⟩ := retrieved_fed h hunderlying
  constructor
  · rintro ⟨handler', i', hretrieve', hfeed', hsame⟩
    obtain rfl := Option.some.inj (hretrieve.symm.trans hretrieve')
    obtain rfl := congrArg Prod.snd (Option.some.inj (hfeed.symm.trans hfeed'))
    exact
      { disableCrlCheck := hsame.disableCrlCheck
        continueOnCrlDownloadFailure := hsame.continueOnCrlDownloadFailure
        disableDefaultVerifyPaths := hsame.disableDefaultVerifyPaths
        tlsValidationCallback := hsame.tlsValidationCallback
        tlsValidationCallbackData := hsame.tlsValidationCallbackData }
  · intro hdefault
    exact ⟨handler, _, hretrieve, hfeed,
      { certificate := rfl
        x509Certificate := rfl
        x509PrivateKey := rfl
        tlsVersion := rfl
        disableCrlCheck := hdefault.disableCrlCheck
        continueOnCrlDownloadFailure := hdefault.continueOnCrlDownloadFailure
        disableDefaultVerifyPaths := hdefault.disableDefaultVerifyPaths
        tlsValidationCallback := hdefault.tlsValidationCallback
        tlsValidationCallbackData := hdefault.tlsValidationCallbackData }⟩

end

/-- The options of an instance that calls of `tlsio_openssl_setoption` have made are kept exactly when those
behind the TLS version are at their defaults.  The options of the underlying io are assumed to survive. -/
theorem options_kept_iff {υ : Type} (underlying : Layer υ) (created fresh : υ)
    (calls : List (String × Option OptionValue)) (i : TlsIoInstance υ)
    (hcalls : setAll underlying calls (tlsioOpensslCreate created) = some i)
    (hunderlying : underlying.Survives fresh i.underlyingIo) :
    OptionsKept underlying fresh i ↔ BehindVersionDefault i :=
  optionsKept_iff (setAll_keeps (P := fun _ => True) (i := tlsioOpensslCreate created)
    (fun _ _ _ _ _ _ _ => trivial) ⟨rfl, trivial⟩ hcalls).1 hunderlying

/-! ## Over a socket -/

def optionNetIntMacAddress : String := "net_interface_mac_address"

def strtoup (chars : Bytes) : Bytes :=
  chars.map fun c => if 0x61 ≤ c ∧ c ≤ 0x7A then c - 0x20 else c

/-- `socketio_setoption` of `socketio_berkeley.c`, where the state is `target_mac_address`. -/
def socketioSetoption (setsockopt : String → Int) : SetOption (Option Bytes) :=
  fun optionName value targetMacAddress =>
    match value with
    | none => some (failure, targetMacAddress)
    | some value =>
      if optionName ∈ ["tcp_keepalive", "tcp_keepalive_time", "tcp_keepalive_interval", "tcp_nodelay"] then
        some (setsockopt optionName, targetMacAddress)
      else if optionName = optionNetIntMacAddress then
        match value with
        | .text chars => if chars = [] then some (failure, targetMacAddress) else some (0, some (strtoup chars))
        | _ => none
      else some (failure, targetMacAddress)

def socketioCloneOption : CloneOption := fun name value =>
  if name = optionNetIntMacAddress then
    match value with
    | .text chars => some (.text chars)
    | _ => none
  else none

/-- `socketio_setoption` and `socketio_retrieveoptions`. -/
def socketio (setsockopt : String → Int) : Layer (Option Bytes) where
  component := .socketio
  setOption := socketioSetoption setsockopt
  retrieveOptions := fun targetMacAddress =>
    (saveText socketioCloneOption [] optionNetIntMacAddress targetMacAddress).map (.handler .socketio)

/-- What `socketio_setoption` leaves: no address, or one that has characters, in capitals. -/
def InCapitals (targetMacAddress : Option Bytes) : Prop :=
  ∀ chars, targetMacAddress = some chars → chars ≠ [] ∧ strtoup chars = chars

theorem inCapitals_none : InCapitals none :=
  nofun

theorem strtoup_strtoup (chars : Bytes) : strtoup (strtoup chars) = strtoup chars := by
  rw [strtoup, strtoup, List.map_map]
  apply List.map_congr_left
  intro c _
  -- the capital of a letter is not one of the letters that are changed
  dsimp only [Function.comp_apply]
  grind

/-- A call of `socketio_setoption`, whether it succeeds or not. -/
theorem socketio_keeps (setsockopt : String → Int) : (socketio setsockopt).Keeps InCapitals := by
  intro optionName value mac r mac' h hset
  change socketioSetoption setsockopt optionName value mac = some (r, mac') at hset
  unfold socketioSetoption at hset
  split at hset
  · obtain rfl := congrArg Prod.snd (Option.some.inj hset)
    exact h
  · split_ifs at hset with htcp haddress
    · obtain rfl := congrArg Prod.snd (Option.some.inj hset)
      exact h
    · split at hset
      · rename_i chars
        split_ifs at hset with hempty
        · obtain rfl := congrArg Prod.snd (Option.some.inj hset)
          exact h
        · obtain rfl := congrArg Prod.snd (Option.some.inj hset)
          rintro _ ⟨⟩
          exact ⟨fun hnil => hempty (List.map_eq_nil_iff.1 hnil), strtoup_strtoup chars⟩
      · cases hset
    · obtain rfl := congrArg Prod.snd (Option.some.inj hset)
      exact h

theorem socketio_survives (setsockopt : String → Int) {mac : Option Bytes} (h : InCapitals mac) :
    (socketio setsockopt).Survives none mac := by
  cases mac with
  | none => exact ⟨.handler .socketio [], rfl, rfl⟩
  | some chars =>
    obtain ⟨hne, hcapitals⟩ := h chars rfl
    refine ⟨.handler .socketio [(optionNetIntMacAddress, .text chars)], rfl, feedOptions_cons ?_ []⟩
    change socketioSetoption setsockopt optionNetIntMacAddress (some (.text chars)) none = _
    unfold socketioSetoption
    dsimp only
    rw [if_neg (by decide), if_pos rfl, if_neg hne, hcapitals]

theorem options_kept_iff_socketio (setsockopt : String → Int) (calls : List (String × Option OptionValue))
    (i : TlsIoInstance (Option Bytes))
    (hcalls : setAll (xio (socketio setsockopt)) calls (tlsioOpensslCreate none) = some i) :
    OptionsKept (xio (socketio setsockopt)) none i ↔ BehindVersionDefault i := by
  obtain ⟨hversion, hcapitals⟩ :=
    setAll_keeps (i := tlsioOpensslCreate none) (socketio_keeps setsockopt).xio ⟨rfl, inCapitals_none⟩ hcalls
  exact optionsKept_iff hversion (xio_survives (socketio_survives setsockopt hcapitals))

/-- An instance over a socket with a certificate. -/
theorem options_kept_iff_certificate :
    OptionsKept (xio (socketio fun _ => 0)) none
        { tlsioOpensslCreate (none : Option Bytes) with certificate := some (ascii "PEM") } ↔
      BehindVersionDefault { tlsioOpensslCreate (none : Option Bytes) with certificate := some (ascii "PEM") } :=
  options_kept_iff (xio (socketio fun _ => 0)) none none [(optionTrustedCert, some (.text (ascii "PEM")))] _ rfl
    (xio_survives (socketio_survives (fun _ => 0) inCapitals_none))

/-- An instance over a socket that does not check revocation lists: a copy that is made from its options does. -/
theorem disableCrlCheck_lost :
    ∃ i, setAll (xio (socketio fun _ => 0)) [(optionDisableCrlCheck, some (.bool true))]
        (tlsioOpensslCreate (none : Option Bytes)) = some i ∧
      i.disableCrlCheck = true ∧ ¬ OptionsKept (xio (socketio fun _ => 0)) none i := by
  refine ⟨{ tlsioOpensslCreate (none : Option Bytes) with disableCrlCheck := true }, rfl, rfl,
    fun hkept => ?_⟩
  have hdefault := (optionsKept_iff rfl (xio_survives (socketio_survives (fun _ => 0) inCapitals_none))).1 hkept
  cases hdefault.disableCrlCheck

end SharedUtility.Options
