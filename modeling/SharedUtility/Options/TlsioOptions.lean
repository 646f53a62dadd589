import SharedUtility.Options.Handler

/-!
# TlsioOptions — the option set of `tlsio_options.c`

* `TlsioOptions`, `tlsioOptionsSet`, `tlsioOptionsRetrieveOptions` — the code,
* `tlsio` — a concrete io with such an option set,
* `Valid` — the certificate and the key are of the type of the set, which is supported,
* `setOptions` — a sequence of calls, and those that were accepted; `OneType`,
* `options_survive` — what was set is retrieved and fed through every layering.
-/

namespace SharedUtility.Options

open OptionHandler (OptionHandlerResult)

/-! ## The code -/

/-- `TLSIO_OPTIONS_x509_TYPE`. -/
inductive X509Type
  | unspecified
  | rsa
  | ecc
  deriving DecidableEq

/-- `TLSIO_OPTION_BIT_x509_RSA_CERT`, `TLSIO_OPTION_BIT_x509_ECC_CERT`. -/
def X509Type.bit : X509Type → BitVec 32
  | .unspecified => 0x00
  | .rsa => 0x02
  | .ecc => 0x04

/-- `TLSIO_OPTION_BIT_TRUSTED_CERTS`. -/
def trustedCertsBit : BitVec 32 := 0x01

structure TlsioOptions where
  supportedOptions : BitVec 32
  trustedCerts : Option Bytes
  x509Type : X509Type
  x509Cert : Option Bytes
  x509Key : Option Bytes
  deriving DecidableEq

inductive TlsioOptionsResult
  | success
  | notHandled
  | error
  deriving DecidableEq

def optionTrustedCert : String := "TrustedCerts"
def suOptionX509Cert : String := "x509certificate"
def suOptionX509PrivateKey : String := "x509privatekey"
def optionX509EccCert : String := "x509EccCertificate"
def optionX509EccKey : String := "x509EccAliasKey"

def tlsioOptionsInitialize (supportedOptions : BitVec 32) : TlsioOptions where
  supportedOptions := supportedOptions
  trustedCerts := none
  x509Type := .unspecified
  x509Cert := none
  x509Key := none

def setAndValidateX509Type (options : TlsioOptions) (x509Type : X509Type) : Int × TlsioOptions :=
  if options.supportedOptions &&& x509Type.bit = 0 then (failure, options)
  else if options.x509Type = .unspecified then (0, { options with x509Type := x509Type })
  else if options.x509Type ≠ x509Type then (failure, options)
  else (0, options)

def isSupportedStringOption (name : String) : Bool :=
  name == optionTrustedCert || name == suOptionX509Cert || name == suOptionX509PrivateKey ||
    name == optionX509EccCert || name == optionX509EccKey

/-- `tlsio_options_set`; `copied` is whether `mallocAndStrcpy_s` succeeds. -/
def tlsioOptionsSet (options : TlsioOptions) (optionName : Option String) (value : Option Bytes) (copied : Bool) :
    TlsioOptionsResult × TlsioOptions :=
  match optionName, value with
  | some optionName, some copiedValue =>
    if isSupportedStringOption optionName = false then (.notHandled, options)
    else if copied = false then (.error, options)
    else if optionName = optionTrustedCert then
      if options.supportedOptions &&& trustedCertsBit = 0 then (.error, options)
      else if options.trustedCerts ≠ none then (.error, options)
      else (.success, { options with trustedCerts := some copiedValue })
    else if optionName = suOptionX509Cert ∨ optionName = optionX509EccCert then
      let thisType := if optionName = suOptionX509Cert then .rsa else .ecc
      if options.x509Cert ≠ none then (.error, options)
      else
        let r := setAndValidateX509Type options thisType
        if r.1 ≠ 0 then (.error, r.2) else (.success, { r.2 with x509Cert := some copiedValue })
    else if optionName = suOptionX509PrivateKey ∨ optionName = optionX509EccKey then
      let thisType := if optionName = suOptionX509PrivateKey then .rsa else .ecc
      if options.x509Key ≠ none then (.error, options)
      else
        let r := setAndValidateX509Type options thisType
        if r.1 ≠ 0 then (.error, r.2) else (.success, { r.2 with x509Key := some copiedValue })
    else (.error, options)
  | _, _ => (.error, options)

def localCloneOption : CloneOption := fun name value =>
  if isSupportedStringOption name then
    match value with
    | .text chars => some (.text chars)
    | _ => none
  else none

def x509CertOption (x509Type : X509Type) : String :=
  if x509Type = .ecc then optionX509EccCert else suOptionX509Cert

def x509KeyOption (x509Type : X509Type) : String :=
  if x509Type = .ecc then optionX509EccKey else suOptionX509PrivateKey

def tlsioOptionsRetrieveOptions (options : TlsioOptions) : Option OptionValue := do
  let storage ← saveText localCloneOption [] optionTrustedCert options.trustedCerts
  if options.x509Type ≠ .unspecified then do
    let storage ← saveText localCloneOption storage (x509CertOption options.x509Type) options.x509Cert
    let storage ← saveText localCloneOption storage (x509KeyOption options.x509Type) options.x509Key
    some (.handler .tlsioOptions storage)
  else some (.handler .tlsioOptions storage)

/-- The `concrete_io_setoption` of an io with such an option set, which does something of its own with other
options. -/
def tlsioSetoption (passThrough : String → Option OptionValue → Int) : SetOption TlsioOptions :=
  fun optionName value options =>
    if isSupportedStringOption optionName then
      match value with
      | none => some (failure, options)
      | some (.text chars) =>
        let r := tlsioOptionsSet options (some optionName) (some chars) true
        some (if r.1 = .success then 0 else failure, r.2)
      | some _ => none
    else some (passThrough optionName value, options)

def tlsio (passThrough : String → Option OptionValue → Int) : Layer TlsioOptions where
  component := .tlsioOptions
  setOption := tlsioSetoption passThrough
  retrieveOptions := tlsioOptionsRetrieveOptions

/-! ## What is set -/

/-- What calls can make of an option set. -/
structure Valid (options : TlsioOptions) : Prop where
  trusted : options.trustedCerts ≠ none → options.supportedOptions &&& trustedCertsBit ≠ 0
  x509 : options.x509Type ≠ .unspecified → options.supportedOptions &&& options.x509Type.bit ≠ 0
  /-- There is a type exactly when there is a certificate or a key. -/
  typed : options.x509Type = .unspecified ↔ options.x509Cert = none ∧ options.x509Key = none

/-- A call of `tlsio_options_set`. -/
structure SetCall where
  optionName : Option String
  value : Option Bytes
  copied : Bool

/-- The option set, and the names and values of the calls that succeeded. -/
structure SetRun where
  options : TlsioOptions
  accepted : List (String × Bytes)

def SetRun.call (run : SetRun) (c : SetCall) : SetRun :=
  match tlsioOptionsSet run.options c.optionName c.value c.copied with
  | (.success, options) =>
    { options := options, accepted := run.accepted ++ [(c.optionName.getD "", c.value.getD [])] }
  | (_, options) => { run with options := options }

/-- A sequence of calls. -/
def setOptions (supportedOptions : BitVec 32) (calls : List SetCall) : SetRun :=
  calls.foldl SetRun.call { options := tlsioOptionsInitialize supportedOptions, accepted := [] }

/-- The option set holds what was accepted, and all of that is for its own x509 type. -/
structure OneType (run : SetRun) : Prop where
  trusted : ∀ chars, run.options.trustedCerts = some chars ↔ (optionTrustedCert, chars) ∈ run.accepted
  cert : ∀ chars, run.options.x509Cert = some chars ↔
    (x509CertOption run.options.x509Type, chars) ∈ run.accepted
  key : ∀ chars, run.options.x509Key = some chars ↔
    (x509KeyOption run.options.x509Type, chars) ∈ run.accepted
  names : ∀ accepted ∈ run.accepted, accepted.1 = optionTrustedCert ∨
    accepted.1 = x509CertOption run.options.x509Type ∨ accepted.1 = x509KeyOption run.options.x509Type

/-- What a call that succeeds does. -/
inductive Accepts (options : TlsioOptions) : (name : String) → (chars : Bytes) → TlsioOptions → Prop
  | trusted (chars : Bytes) (hbit : options.supportedOptions &&& trustedCertsBit ≠ 0)
      (hnull : options.trustedCerts = none) :
      Accepts options optionTrustedCert chars { options with trustedCerts := some chars }
  | cert (x509Type : X509Type) (chars : Bytes) (hbit : options.supportedOptions &&& x509Type.bit ≠ 0)
      (htype : options.x509Type = .unspecified ∨ options.x509Type = x509Type)
      (hnull : options.x509Cert = none) :
      Accepts options (x509CertOption x509Type) chars
        { options with x509Type := x509Type, x509Cert := some chars }
  | key (x509Type : X509Type) (chars : Bytes) (hbit : options.supportedOptions &&& x509Type.bit ≠ 0)
      (htype : options.x509Type = .unspecified ∨ options.x509Type = x509Type) (hnull : options.x509Key = none) :
      Accepts options (x509KeyOption x509Type) chars
        { options with x509Type := x509Type, x509Key := some chars }

section

variable {options options' : TlsioOptions} {name : String} {chars : Bytes} {x509Type : X509Type}

theorem setAndValidateX509Type_cases (options : TlsioOptions) (x509Type : X509Type) :
    setAndValidateX509Type options x509Type = (failure, options) ∨
      options.supportedOptions &&& x509Type.bit ≠ 0 ∧
        (options.x509Type = .unspecified ∨ options.x509Type = x509Type) ∧
        setAndValidateX509Type options x509Type = (0, { options with x509Type := x509Type }) := by
  rw [setAndValidateX509Type]
  split_ifs with hbit hunspecified hother
  · exact Or.inl rfl
  · exact Or.inr ⟨hbit, Or.inl hunspecified, rfl⟩
  · exact Or.inl rfl
  · have hsame := not_not.1 hother
    subst hsame
    exact Or.inr ⟨hbit, Or.inr rfl, rfl⟩

theorem setAndValidateX509Type_ok (hbit : options.supportedOptions &&& x509Type.bit ≠ 0)
    (htype : options.x509Type = .unspecified ∨ options.x509Type = x509Type) :
    setAndValidateX509Type options x509Type = (0, { options with x509Type := x509Type }) := by
  rw [setAndValidateX509Type, if_neg hbit]
  rcases htype with hunspecified | rfl
  · rw [if_pos hunspecified]
  · by_cases hunspecified : options.x509Type = .unspecified
    · rw [if_pos hunspecified]
    · rw [if_neg hunspecified, if_neg fun hne => hne rfl]

theorem x509CertOption_of_name (h : name = suOptionX509Cert ∨ name = optionX509EccCert) :
    x509CertOption (if name = suOptionX509Cert then .rsa else .ecc) = name := by
  rcases h with rfl | rfl
  · rfl
  · rfl

theorem x509KeyOption_of_name (h : name = suOptionX509PrivateKey ∨ name = optionX509EccKey) :
    x509KeyOption (if name = suOptionX509PrivateKey then .rsa else .ecc) = name := by
  rcases h with rfl | rfl
  · rfl
  · rfl

theorem x509CertOption_name (h : x509Type ≠ .unspecified) :
    isSupportedStringOption (x509CertOption x509Type) = true ∧ x509CertOption x509Type ≠ optionTrustedCert ∧
      (x509CertOption x509Type = suOptionX509Cert ∨ x509CertOption x509Type = optionX509EccCert) ∧
      (if x509CertOption x509Type = suOptionX509Cert then X509Type.rsa else X509Type.ecc) = x509Type := by
  cases x509Type with
  | unspecified => exact absurd rfl h
  | rsa => decide
  | ecc => decide

theorem x509KeyOption_name (h : x509Type ≠ .unspecified) :
    isSupportedStringOption (x509KeyOption x509Type) = true ∧ x509KeyOption x509Type ≠ optionTrustedCert ∧
      ¬ (x509KeyOption x509Type = suOptionX509Cert ∨ x509KeyOption x509Type = optionX509EccCert) ∧
      (x509KeyOption x509Type = suOptionX509PrivateKey ∨ x509KeyOption x509Type = optionX509EccKey) ∧
      (if x509KeyOption x509Type = suOptionX509PrivateKey then X509Type.rsa else X509Type.ecc) = x509Type := by
  cases x509Type with
  | unspecified => exact absurd rfl h
  | rsa => decide
  | ecc => decide

theorem ne_unspecified (hbit : options.supportedOptions &&& x509Type.bit ≠ 0) : x509Type ≠ .unspecified := by
  rintro rfl
  exact hbit BitVec.and_zero

theorem tlsioOptionsSet_cases (options : TlsioOptions) (optionName : Option String) (value : Option Bytes)
    (copied : Bool) :
    ((tlsioOptionsSet options optionName value copied).1 ≠ .success ∧
      (tlsioOptionsSet options optionName value copied).2 = options) ∨
    ∃ name chars options', optionName = some name ∧ value = some chars ∧
      tlsioOptionsSet options optionName value copied = (.success, options') ∧
      Accepts options name chars options' := by
  generalize hr : tlsioOptionsSet options optionName value copied = r
  have hfails : ∀ {result : TlsioOptionsResult}, result ≠ .success → (result, options) = r →
      r.1 ≠ .success ∧ r.2 = options := by
    rintro result hne rfl
    exact ⟨hne, rfl⟩
  match optionName, value with
  | none, _ => exact Or.inl (hfails (by decide) hr)
  | some _, none => exact Or.inl (hfails (by decide) hr)
  | some name, some chars =>
    unfold tlsioOptionsSet at hr
    dsimp only at hr
    generalize hcertType : (if name = suOptionX509Cert then X509Type.rsa else X509Type.ecc) = certType at hr
    generalize hkeyType : (if name = suOptionX509PrivateKey then X509Type.rsa else X509Type.ecc) = keyType at hr
    split_ifs at hr with hunsupported hcopied htrusted hbit hset hcert hset hvalid hkey hset hvalid
    · exact Or.inl (hfails (by decide) hr)
    · exact Or.inl (hfails (by decide) hr)
    · exact Or.inl (hfails (by decide) hr)
    · exact Or.inl (hfails (by decide) hr)
    · subst htrusted
      exact Or.inr ⟨_, chars, _, rfl, rfl, hr.symm, .trusted chars hbit (not_not.1 hset)⟩
    · exact Or.inl (hfails (by decide) hr)
    · rcases setAndValidateX509Type_cases options certType with heq | ⟨hbit, htype, heq⟩
      · rw [heq] at hr
        exact Or.inl (hfails (by decide) hr)
      · rw [heq] at hvalid
        exact absurd rfl hvalid
    · rcases setAndValidateX509Type_cases options certType with heq | ⟨hbit, htype, heq⟩
      · rw [heq] at hvalid
        exact absurd failure_ne_zero hvalid
      · rw [heq] at hr
        have hname := x509CertOption_of_name hcert
        rw [hcertType] at hname
        subst hname
        exact Or.inr ⟨_, chars, _, rfl, rfl, hr.symm, .cert certType chars hbit htype (not_not.1 hset)⟩
    · exact Or.inl (hfails (by decide) hr)
    · rcases setAndValidateX509Type_cases options keyType with heq | ⟨hbit, htype, heq⟩
      · rw [heq] at hr
        exact Or.inl (hfails (by decide) hr)
      · rw [heq] at hvalid
        exact absurd rfl hvalid
    · rcases setAndValidateX509Type_cases options keyType with heq | ⟨hbit, htype, heq⟩
      · rw [heq] at hvalid
        exact absurd failure_ne_zero hvalid
      · rw [heq] at hr
        have hname := x509KeyOption_of_name hkey
        rw [hkeyType] at hname
        subst hname
        exact Or.inr ⟨_, chars, _, rfl, rfl, hr.symm, .key keyType chars hbit htype (not_not.1 hset)⟩
    · exact Or.inl (hfails (by decide) hr)

theorem tlsioOptionsSet_accepts (h : Accepts options name chars options') :
    tlsioOptionsSet options (some name) (some chars) true = (.success, options') := by
  cases h with
  | trusted chars hbit hnull =>
    rw [tlsioOptionsSet, if_neg (by decide), if_neg (by decide), if_pos rfl, if_neg hbit, hnull]
    rfl
  | cert x509Type chars hbit htype hnull =>
    rcases x509CertOption_name (ne_unspecified hbit) with ⟨hsupported, htrusted, hcert, hthis⟩
    have hvalid := setAndValidateX509Type_ok hbit htype
    rw [tlsioOptionsSet, if_neg (by rw [hsupported]; decide), if_neg (by decide), if_neg htrusted,
      if_pos hcert, hthis]
    dsimp only
    rw [hvalid, hnull]
    rfl
  | key x509Type chars hbit htype hnull =>
    rcases x509KeyOption_name (ne_unspecified hbit) with ⟨hsupported, htrusted, hcert, hkey, hthis⟩
    have hvalid := setAndValidateX509Type_ok hbit htype
    rw [tlsioOptionsSet, if_neg (by rw [hsupported]; decide), if_neg (by decide), if_neg htrusted,
      if_neg hcert, if_pos hkey, hthis]
    dsimp only
    rw [hvalid, hnull]
    rfl

/-! ## Sequences of calls -/

theorem valid_initialize (supportedOptions : BitVec 32) : Valid (tlsioOptionsInitialize supportedOptions) where
  trusted h := absurd rfl h
  x509 h := absurd rfl h
  typed := iff_of_true rfl ⟨rfl, rfl⟩

theorem Accepts.valid (haccepts : Accepts options name chars options') (h : Valid options) : Valid options' := by
  cases haccepts with
  | trusted chars hbit hnull => exact { trusted := fun _ => hbit, x509 := h.x509, typed := h.typed }
  | cert x509Type chars hbit htype hnull =>
    exact
      { trusted := h.trusted
        x509 := fun _ => hbit
        typed := iff_of_false (ne_unspecified hbit) fun hnone => nomatch hnone.1 }
  | key x509Type chars hbit htype hnull =>
    exact
      { trusted := h.trusted
        x509 := fun _ => hbit
        typed := iff_of_false (ne_unspecified hbit) fun hnone => nomatch hnone.2 }

/-- A run whose option set can have come from calls. -/
structure SetRun.Kept (supportedOptions : BitVec 32) (run : SetRun) : Prop where
  supported : run.options.supportedOptions = supportedOptions
  valid : Valid run.options
  oneType : OneType run

theorem certOption_ne :
    optionTrustedCert ≠ x509CertOption x509Type ∧ optionTrustedCert ≠ x509KeyOption x509Type ∧
    x509CertOption x509Type ≠ x509KeyOption x509Type := by
  cases x509Type <;> decide

theorem mem_concat_of_ne {accepted : List (String × Bytes)} {name' : String} {chars' : Bytes}
    (hne : name' ≠ name) :
    (name', chars') ∈ accepted ++ [(name, chars)] ↔ (name', chars') ∈ accepted := by
  rw [List.mem_append, List.mem_singleton, Prod.mk.injEq]
  exact or_iff_left fun h => hne h.1

theorem mem_concat_first {accepted : List (String × Bytes)} {old : Option Bytes} (hnull : old = none)
    (h : ∀ chars, old = some chars ↔ (name, chars) ∈ accepted) (chars' : Bytes) :
    some chars = some chars' ↔ (name, chars') ∈ accepted ++ [(name, chars)] := by
  rw [List.mem_append, List.mem_singleton, ← h chars', hnull, Option.some.injEq, Prod.mk.injEq]
  constructor
  · intro heq
    exact Or.inr ⟨rfl, heq.symm⟩
  · rintro (hnone | ⟨-, heq⟩)
    · cases hnone
    · exact heq.symm

/-- Without a type there is no certificate and no key, so the set may take any type. -/
theorem OneType.retype {run : SetRun} (h : OneType run) (hvalid : Valid run.options)
    (htype : run.options.x509Type = .unspecified ∨ run.options.x509Type = x509Type) :
    OneType { run with options := { run.options with x509Type := x509Type } } := by
  rcases htype with hunspecified | rfl
  case inr => exact h
  rcases hvalid.typed.1 hunspecified with ⟨hcert, hkey⟩
  have hnames : ∀ accepted ∈ run.accepted, accepted.1 = optionTrustedCert := by
    rintro ⟨name, chars⟩ haccepted
    rcases h.names _ haccepted with hname | hname | hname
    · exact hname
    · obtain rfl : name = _ := hname
      cases hcert.symm.trans ((h.cert chars).2 haccepted)
    · obtain rfl : name = _ := hname
      cases hkey.symm.trans ((h.key chars).2 haccepted)
  exact
    { trusted := h.trusted
      cert := fun chars => iff_of_false (fun hsome => nomatch hcert.symm.trans hsome) fun hmem =>
        certOption_ne.1 (hnames _ hmem).symm
      key := fun chars => iff_of_false (fun hsome => nomatch hkey.symm.trans hsome) fun hmem =>
        certOption_ne.2.1 (hnames _ hmem).symm
      names := fun accepted haccepted => Or.inl (hnames accepted haccepted) }

theorem SetRun.Kept.accept {supportedOptions : BitVec 32} {run : SetRun} (h : run.Kept supportedOptions)
    (haccepts : Accepts run.options name chars options') :
    SetRun.Kept supportedOptions { options := options', accepted := run.accepted ++ [(name, chars)] } := by
  have hvalid := haccepts.valid h.valid
  cases haccepts with
  | trusted chars hbit hnull =>
    have hold := h.oneType
    refine ⟨h.supported, hvalid, ?_⟩
    exact
      { trusted := mem_concat_first hnull hold.trusted
        cert := fun chars' => (hold.cert chars').trans (mem_concat_of_ne certOption_ne.1.symm).symm
        key := fun chars' => (hold.key chars').trans (mem_concat_of_ne certOption_ne.2.1.symm).symm
        names := List.forall_mem_append.2 ⟨hold.names, List.forall_mem_singleton.2 (Or.inl rfl)⟩ }
  | cert x509Type chars hbit htype hnull =>
    have hold := h.oneType.retype h.valid htype
    refine ⟨h.supported, hvalid, ?_⟩
    exact
      { trusted := fun chars' => (hold.trusted chars').trans (mem_concat_of_ne certOption_ne.1).symm
        cert := mem_concat_first hnull hold.cert
        key := fun chars' => (hold.key chars').trans (mem_concat_of_ne certOption_ne.2.2.symm).symm
        names := List.forall_mem_append.2 ⟨hold.names, List.forall_mem_singleton.2 (Or.inr (Or.inl rfl))⟩ }
  | key x509Type chars hbit htype hnull =>
    have hold := h.oneType.retype h.valid htype
    refine ⟨h.supported, hvalid, ?_⟩
    exact
      { trusted := fun chars' => (hold.trusted chars').trans (mem_concat_of_ne certOption_ne.2.1).symm
        cert := fun chars' => (hold.cert chars').trans (mem_concat_of_ne certOption_ne.2.2).symm
        key := mem_concat_first hnull hold.key
        names := List.forall_mem_append.2 ⟨hold.names, List.forall_mem_singleton.2 (Or.inr (Or.inr rfl))⟩ }

theorem SetRun.Kept.call {supportedOptions : BitVec 32} {run : SetRun} (h : run.Kept supportedOptions)
    (c : SetCall) : (run.call c).Kept supportedOptions := by
  rw [SetRun.call]
  rcases tlsioOptionsSet_cases run.options c.optionName c.value c.copied with
    ⟨hfails, hsame⟩ | ⟨name, chars, options', hname, hvalue, heq, haccepts⟩
  · split
    · rename_i heq
      rw [heq] at hfails
      exact absurd rfl hfails
    · rename_i heq
      rw [heq] at hsame
      subst hsame
      exact h
  · rw [heq, hname, hvalue]
    exact h.accept haccepts

theorem setOptions_kept (supportedOptions : BitVec 32) (calls : List SetCall) :
    (setOptions supportedOptions calls).Kept supportedOptions := by
  have hrun : ∀ (calls : List SetCall) (run : SetRun), run.Kept supportedOptions →
      (calls.foldl SetRun.call run).Kept supportedOptions := by
    intro calls
    induction calls with
    | nil => exact fun run h => h
    | cons c calls ih => exact fun run h => ih (run.call c) (h.call c)
  apply hrun
  exact
    { supported := rfl
      valid := valid_initialize supportedOptions
      oneType :=
        { trusted := fun _ => iff_of_false nofun nofun
          cert := fun _ => iff_of_false nofun nofun
          key := fun _ => iff_of_false nofun nofun
          names := nofun } }

end

/-! ## Retrieved options -/

section

variable {options options' : TlsioOptions} {name : String}

theorem localCloneOption_text (hname : isSupportedStringOption name = true) (chars : Bytes) :
    localCloneOption name (.text chars) = some (.text chars) := by
  rw [localCloneOption, if_pos hname]

theorem tlsioSetoption_accepts {passThrough : String → Option OptionValue → Int} {chars : Bytes}
    (hname : isSupportedStringOption name = true) (h : Accepts options name chars options') :
    tlsioSetoption passThrough name (some (.text chars)) options = some (0, options') := by
  rw [tlsioSetoption, if_pos hname]
  dsimp only
  rw [tlsioOptionsSet_accepts h]
  rfl

section

variable {passThrough : String → Option OptionValue → Int} {storage : List (String × OptionValue)}
variable {fresh : TlsioOptions} {value : Option Bytes} {x509Type : X509Type}

theorem saveTrusted_fed
    (hfed : feedOptions (tlsioSetoption passThrough) storage fresh = some (.optionHandlerOk, options))
    (hnull : options.trustedCerts = none)
    (hbit : value ≠ none → options.supportedOptions &&& trustedCertsBit ≠ 0) :
    ∃ storage', saveText localCloneOption storage optionTrustedCert value = some storage' ∧
      feedOptions (tlsioSetoption passThrough) storage' fresh =
        some (.optionHandlerOk, { options with trustedCerts := value }) := by
  apply saveText_fed (localCloneOption_text (by decide)) hfed
  · rintro rfl
    rw [← hnull]
  · rintro chars rfl
    exact tlsioSetoption_accepts (by decide) (.trusted chars (hbit nofun) hnull)

theorem saveCert_fed
    (hfed : feedOptions (tlsioSetoption passThrough) storage fresh = some (.optionHandlerOk, options))
    (hnull : options.x509Cert = none) (htype : options.x509Type = .unspecified)
    (hbit : options.supportedOptions &&& x509Type.bit ≠ 0) :
    ∃ storage', saveText localCloneOption storage (x509CertOption x509Type) value = some storage' ∧
      feedOptions (tlsioSetoption passThrough) storage' fresh =
        some (.optionHandlerOk, { options with
          x509Type := if value = none then .unspecified else x509Type
          x509Cert := value }) := by
  have hname := (x509CertOption_name (ne_unspecified hbit)).1
  apply saveText_fed (localCloneOption_text hname) hfed
  · rintro rfl
    rw [if_pos rfl, ← hnull, ← htype]
  · rintro chars rfl
    exact tlsioSetoption_accepts hname (.cert x509Type chars hbit (Or.inl htype) hnull)

theorem saveKey_fed
    (hfed : feedOptions (tlsioSetoption passThrough) storage fresh = some (.optionHandlerOk, options))
    (hnull : options.x509Key = none) (htype : options.x509Type = .unspecified ∨ options.x509Type = x509Type)
    (hbit : options.supportedOptions &&& x509Type.bit ≠ 0) :
    ∃ storage', saveText localCloneOption storage (x509KeyOption x509Type) value = some storage' ∧
      feedOptions (tlsioSetoption passThrough) storage' fresh =
        some (.optionHandlerOk, { options with
          x509Type := if value = none then options.x509Type else x509Type
          x509Key := value }) := by
  have hname := (x509KeyOption_name (ne_unspecified hbit)).1
  apply saveText_fed (localCloneOption_text hname) hfed
  · rintro rfl
    rw [if_pos rfl, ← hnull]
  · rintro chars rfl
    exact tlsioSetoption_accepts hname (.key x509Type chars hbit htype hnull)

end

/-- A set that can have come from calls is retrieved, and fed into one that supports the same options. -/
theorem tlsio_survives (passThrough : String → Option OptionValue → Int) (h : Valid options) :
    (tlsio passThrough).Survives (tlsioOptionsInitialize options.supportedOptions) options := by
  rcases options with ⟨supportedOptions, trustedCerts, x509Type, x509Cert, x509Key⟩
  obtain ⟨storage, hsave, hfed⟩ := @saveTrusted_fed (tlsioOptionsInitialize supportedOptions) passThrough []
    (tlsioOptionsInitialize supportedOptions) trustedCerts rfl rfl h.trusted
  by_cases htype : x509Type = .unspecified
  case pos =>
    obtain ⟨hcert, hkey⟩ := h.typed.1 htype
    dsimp only at hcert hkey
    subst htype hcert hkey
    refine ⟨.handler .tlsioOptions storage, ?_, hfed⟩
    change tlsioOptionsRetrieveOptions _ = _
    rw [tlsioOptionsRetrieveOptions, hsave]
    rfl
  case neg =>
    have hbit := h.x509 htype
    obtain ⟨storage₁, hsave₁, hfed₁⟩ :=
      @saveCert_fed _ passThrough storage _ x509Cert x509Type hfed rfl rfl hbit
    obtain ⟨storage₂, hsave₂, hfed₂⟩ := @saveKey_fed _ passThrough storage₁ _ x509Key x509Type hfed₁ rfl
      (by dsimp only; split_ifs; exacts [Or.inl rfl, Or.inr rfl]) hbit
    refine ⟨.handler .tlsioOptions storage₂, ?_, hfed₂.trans ?_⟩
    · change tlsioOptionsRetrieveOptions _ = _
      rw [tlsioOptionsRetrieveOptions, hsave]
      simp only [Option.bind_eq_bind, Option.bind_some]
      rw [if_pos htype, hsave₁, Option.bind_some, hsave₂, Option.bind_some]
    · -- the type is set with the certificate or with the key
      have hset : (if x509Key = none then (if x509Cert = none then X509Type.unspecified else x509Type)
          else x509Type) = x509Type := by
        split_ifs with hkey hcert
        · exact absurd (h.typed.2 ⟨hcert, hkey⟩) htype
        · rfl
        · rfl
      simp only [hset]
      rfl

/-- Whatever calls of `tlsio_options_set` are made: a call that fails changes nothing, the set holds what was
accepted and is of one x509 type, and what it holds is retrieved and fed through each layering of an io with
this set. -/
theorem options_survive (supportedOptions : BitVec 32) (calls : List SetCall)
    (passThrough : String → Option OptionValue → Int) :
    (∀ (options : TlsioOptions) (optionName : Option String) (value : Option Bytes) (copied : Bool),
      (tlsioOptionsSet options optionName value copied).1 = .success ∨
        (tlsioOptionsSet options optionName value copied).2 = options) ∧
    OneType (setOptions supportedOptions calls) ∧
    (xio (tlsio passThrough)).Survives (tlsioOptionsInitialize supportedOptions)
      (setOptions supportedOptions calls).options ∧
    (uwsClient (xio (tlsio passThrough))).Survives (tlsioOptionsInitialize supportedOptions)
      (setOptions supportedOptions calls).options ∧
    (wsio (uwsClient (xio (tlsio passThrough)))).Survives (tlsioOptionsInitialize supportedOptions)
      (setOptions supportedOptions calls).options := by
  have hkept := setOptions_kept supportedOptions calls
  have hsurvives := tlsio_survives passThrough hkept.valid
  rw [hkept.supported] at hsurvives
  refine ⟨?_, hkept.oneType, xio_survives hsurvives, uwsClient_survives (xio_survives hsurvives),
    wsio_survives (uwsClient_survives (xio_survives hsurvives))⟩
  intro options optionName value copied
  rcases tlsioOptionsSet_cases options optionName value copied with
    ⟨-, hsame⟩ | ⟨name, chars, options', -, -, heq, -⟩
  · exact Or.inr hsame
  · exact Or.inl (congrArg Prod.fst heq)

end

end SharedUtility.Options
