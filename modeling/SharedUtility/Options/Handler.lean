import SharedUtility.Bytes
import SharedUtility.OptionHandler.Code

/-!
# Handler — option handlers and what they hold

`OptionHandler.Code` follows the memory of option handlers; here all allocations succeed, and a handler is what it
holds.

* `OptionValue` — what the `void*` of an option points to,
* `addOption`, `feedOptions` — the functions of `optionhandler.c`,
* `Layer` — an io as its options see it, `Layer.Survives`, `Layer.Keeps`,
* `xio`, `uwsClient`, `wsio` — the layers whose only option is the handler of the layer below, and what
  survives in them.
-/

namespace SharedUtility.Options

open OptionHandler (OptionHandlerResult)

/-- The components that have option handlers: whose `pfCloneOption` and `pfSetOption` a handler has. -/
inductive Component
  | tlsioOptions
  | tlsioOpenssl
  | socketio
  | xio
  | uwsClient
  | wsio
  deriving DecidableEq

/-- What the `void*` of an option points to; a handler comes with its component. -/
inductive OptionValue where
  | text (chars : Bytes)
  | int (value : Int)
  | bool (value : Bool)
  | pointer (address : Nat)
  | handler (component : Component) (storage : List (String × OptionValue))

/-- `pfCloneOption`; `none` is NULL. -/
abbrev CloneOption := String → OptionValue → Option OptionValue

/-- `pfSetOption` on the state `σ` of an instance: the result and the new state, or `none` when the value is not
what it is cast to. -/
abbrev SetOption (σ : Type) := String → Option OptionValue → σ → Option (Int × σ)

/-- `OptionHandler_AddOption`: the result, and the options stored. -/
def addOption (cloneOption : CloneOption) (storage : List (String × OptionValue)) (name : String)
    (value : Option OptionValue) : OptionHandlerResult × List (String × OptionValue) :=
  match value with
  | none => (.optionHandlerInvalidarg, storage)
  | some value =>
    match cloneOption name value with
    | none => (.optionHandlerError, storage)
    | some clone => (.optionHandlerOk, storage ++ [(name, clone)])

/-- A string is added unless it is NULL; `none` when it cannot be added. -/
def saveText (cloneOption : CloneOption) (storage : List (String × OptionValue)) (name : String)
    (value : Option Bytes) : Option (List (String × OptionValue)) :=
  match value with
  | none => some storage
  | some chars =>
    match addOption cloneOption storage name (some (.text chars)) with
    | (.optionHandlerOk, storage) => some storage
    | _ => none

section

variable {σ : Type}

/-- The loop of `OptionHandler_FeedOptions`. -/
def feedOptions (setOption : SetOption σ) :
    (storage : List (String × OptionValue)) → σ → Option (OptionHandlerResult × σ)
  | [], s => some (.optionHandlerOk, s)
  | (name, value) :: storage, s =>
    match setOption name (some value) s with
    | none => none
    | some (r, s') => if r ≠ 0 then some (.optionHandlerError, s') else feedOptions setOption storage s'

theorem feedOptions_cons {setOption : SetOption σ} {name : String} {value : OptionValue} {s s' : σ}
    (h : setOption name (some value) s = some (0, s')) (storage : List (String × OptionValue)) :
    feedOptions setOption ((name, value) :: storage) s = feedOptions setOption storage s' := by
  rw [feedOptions, h]
  rfl

theorem feedOptions_append {setOption : SetOption σ} {storage : List (String × OptionValue)} {s s' : σ}
    (h : feedOptions setOption storage s = some (.optionHandlerOk, s')) (more : List (String × OptionValue)) :
    feedOptions setOption (storage ++ more) s = feedOptions setOption more s' := by
  induction storage generalizing s with
  | nil =>
    obtain rfl : s = s' := congrArg Prod.snd (Option.some.inj h)
    rfl
  | cons option storage ih =>
    rcases option with ⟨name, value⟩
    rw [feedOptions] at h
    rw [List.cons_append, feedOptions]
    cases hset : setOption name (some value) s with
    | none =>
      rw [hset] at h
      cases h
    | some r =>
      rw [hset] at h
      dsimp only at h ⊢
      split_ifs at h ⊢ with hfails
      · cases h
      · exact ih h

theorem saveText_fed {cloneOption : CloneOption} {setOption : SetOption σ}
    {storage : List (String × OptionValue)} {name : String} {value : Option Bytes} {fresh s s' : σ}
    (hclone : ∀ chars, cloneOption name (.text chars) = some (.text chars))
    (hfed : feedOptions setOption storage fresh = some (.optionHandlerOk, s)) (hnull : value = none → s' = s)
    (hset : ∀ chars, value = some chars → setOption name (some (.text chars)) s = some (0, s')) :
    ∃ storage', saveText cloneOption storage name value = some storage' ∧
      feedOptions setOption storage' fresh = some (.optionHandlerOk, s') := by
  cases value with
  | none =>
    rw [hnull rfl]
    exact ⟨storage, rfl, hfed⟩
  | some chars =>
    refine ⟨storage ++ [(name, .text chars)], ?_, ?_⟩
    · rw [saveText, addOption, hclone]
    · rw [feedOptions_append hfed]
      exact feedOptions_cons (hset chars rfl) []

end

/-! ## Layers -/

/-- An io as its options see it: the component that it is of, the `pfSetOption` that belongs to it, and the
function that retrieves its options.  `σ` is the state that options are kept in. -/
structure Layer (σ : Type) where
  component : Component
  setOption : SetOption σ
  retrieveOptions : σ → Option OptionValue

section

variable {σ : Type} {layer : Layer σ} {fresh s : σ}

/-- `OptionHandler_FeedOptions`.  The handler calls the `pfSetOption` of its own component, so it has to be fed
into an instance of it. -/
def Layer.feed (layer : Layer σ) (value : Option OptionValue) (s : σ) : Option (OptionHandlerResult × σ) :=
  match value with
  | none => some (.optionHandlerInvalidarg, s)
  | some (.handler component storage) =>
    if component = layer.component then feedOptions layer.setOption storage s else none
  | some _ => none

/-- The options `s` are retrieved, and fed into an instance with the options `fresh`. -/
def Layer.Survives (layer : Layer σ) (fresh s : σ) : Prop :=
  ∃ handler, layer.retrieveOptions s = some handler ∧
    layer.feed (some handler) fresh = some (.optionHandlerOk, s)

/-- Every call of `pfSetOption` keeps `P`, whatever its result. -/
def Layer.Keeps (layer : Layer σ) (P : σ → Prop) : Prop :=
  ∀ name value s r s', P s → layer.setOption name value s = some (r, s') → P s'

theorem Layer.Keeps.feedOptions {P : σ → Prop} (h : layer.Keeps P) {storage : List (String × OptionValue)}
    {result : OptionHandlerResult} {s' : σ} (hs : P s)
    (hfeed : Options.feedOptions layer.setOption storage s = some (result, s')) : P s' := by
  induction storage generalizing s with
  | nil =>
    obtain rfl : s = s' := congrArg Prod.snd (Option.some.inj hfeed)
    exact hs
  | cons option storage ih =>
    rcases option with ⟨name, value⟩
    rw [Options.feedOptions] at hfeed
    split at hfeed
    · cases hfeed
    · rename_i r s₁ hset
      have hs₁ := h name _ s r s₁ hs hset
      split_ifs at hfeed
      · obtain rfl := congrArg Prod.snd (Option.some.inj hfeed)
        exact hs₁
      · exact ih hs₁ hfeed

theorem Layer.Keeps.feed {P : σ → Prop} (h : layer.Keeps P) {value : Option OptionValue}
    {result : OptionHandlerResult} {s' : σ} (hs : P s) (hfeed : layer.feed value s = some (result, s')) :
    P s' := by
  unfold Layer.feed at hfeed
  split at hfeed
  · obtain rfl := congrArg Prod.snd (Option.some.inj hfeed)
    exact hs
  · split_ifs at hfeed
    exact h.feedOptions hs hfeed
  · cases hfeed

/-- The `pfCloneOption` of a component with one option, whose value is a handler: it is passed on as it is. -/
def cloneNested (options : String) : CloneOption := fun name value =>
  if name = options then some value else none

/-- The retrieval of the options of such a component, which has the layer `lower` below. -/
def retrieveNested (component : Component) (options : String) (lower : Layer σ) (s : σ) : Option OptionValue :=
  match lower.retrieveOptions s with
  | none => none
  | some lowerOptions =>
    match addOption (cloneNested options) [] options (some lowerOptions) with
    | (.optionHandlerOk, storage) => some (.handler component storage)
    | _ => none

/-- The value of the one option is fed into the layer below, other options are passed to it. -/
def setNested (options : String) (lower : Layer σ) : SetOption σ := fun name value s =>
  if name = options then
    match lower.feed value s with
    | none => none
    | some (r, s') => some (if r = .optionHandlerOk then 0 else failure, s')
  else lower.setOption name value s

/-- The result as it is, or as zero and failure. -/
def zeroOrFailure (setOption : SetOption σ) : SetOption σ := fun name value s =>
  (setOption name value s).map fun r => (if r.1 ≠ 0 then failure else 0, r.2)

theorem setNested_options {options : String} {handler : OptionValue}
    (h : layer.feed (some handler) fresh = some (.optionHandlerOk, s)) :
    setNested options layer options (some handler) fresh = some (0, s) := by
  rw [setNested, if_pos rfl, h]
  rfl

theorem retrieveNested_eq {component : Component} {options : String} {handler : OptionValue}
    (h : layer.retrieveOptions s = some handler) :
    retrieveNested component options layer s = some (.handler component [(options, handler)]) := by
  rw [retrieveNested, h]
  simp [addOption, cloneNested]

theorem Layer.Survives.above {upper : Layer σ} {options : String} (h : layer.Survives fresh s)
    (hretrieve : upper.retrieveOptions = retrieveNested upper.component options layer)
    (hset : ∀ handler, setNested options layer options (some handler) fresh = some (0, s) →
      upper.setOption options (some handler) fresh = some (0, s)) : upper.Survives fresh s := by
  rcases h with ⟨handler, hlower, hfeed⟩
  refine ⟨.handler upper.component [(options, handler)], ?_, ?_⟩
  · rw [hretrieve, retrieveNested_eq hlower]
  · rw [Layer.feed, if_pos rfl]
    exact feedOptions_cons (hset handler (setNested_options hfeed)) []

end

/-! ## The layers of the library -/

section

variable {σ : Type} {layer : Layer σ} {fresh s : σ}

/-- `xio_setoption` and `xio_retrieveoptions`. -/
def xio (concreteIo : Layer σ) : Layer σ where
  component := .xio
  setOption := setNested OptionHandler.concreteOptions concreteIo
  retrieveOptions := retrieveNested .xio OptionHandler.concreteOptions concreteIo

/-- `uws_client_set_option` and `uws_client_retrieve_options`. -/
def uwsClient (underlyingIo : Layer σ) : Layer σ where
  component := .uwsClient
  setOption := zeroOrFailure (setNested OptionHandler.uwsClientOptions underlyingIo)
  retrieveOptions := retrieveNested .uwsClient OptionHandler.uwsClientOptions underlyingIo

/-- `wsio_setoption` and `wsio_retrieveoptions`. -/
def wsio (uws : Layer σ) : Layer σ where
  component := .wsio
  setOption := zeroOrFailure (setNested OptionHandler.wsioOptions uws)
  retrieveOptions := retrieveNested .wsio OptionHandler.wsioOptions uws

theorem Layer.Keeps.xio {P : σ → Prop} (h : layer.Keeps P) : (xio layer).Keeps P := by
  intro name value s r s' hs hset
  change setNested OptionHandler.concreteOptions layer name value s = some (r, s') at hset
  unfold setNested at hset
  split_ifs at hset
  · split at hset
    · cases hset
    · rename_i result s₁ hfeed
      obtain rfl := congrArg Prod.snd (Option.some.inj hset)
      exact h.feed hs hfeed
  · exact h name value s r s' hs hset

theorem zeroOrFailure_zero {setOption : SetOption σ} {name : String} {value : Option OptionValue}
    (h : setOption name value fresh = some (0, s)) : zeroOrFailure setOption name value fresh = some (0, s) := by
  rw [zeroOrFailure, h]
  rfl

theorem xio_survives (h : layer.Survives fresh s) : (xio layer).Survives fresh s :=
  h.above rfl fun _ => id

theorem uwsClient_survives (h : layer.Survives fresh s) : (uwsClient layer).Survives fresh s :=
  h.above rfl fun _ => zeroOrFailure_zero

theorem wsio_survives (h : layer.Survives fresh s) : (wsio layer).Survives fresh s :=
  h.above rfl fun _ => zeroOrFailure_zero

end

end SharedUtility.Options
