import SharedUtility.Sha.Usha

/-!
# Hmac — `hmac.c`

* `hmacReset`, `hmacInput`, `hmacFinalBits`, `hmacResult`, `hmac` — the functions,
* `keyedHash` — the hash of a message under a key: the hash of the outer pad and the hash of the inner pad and the
  message,
* `HmacObject` — a key, and the hash object of the inner pad and the message so far,
* `hmac_run_refines` — every run of calls answers as the object,
* `hmac_eq` — all in one call.
-/

namespace SharedUtility.Sha

open BitStrings BlockStream

structure HmacContext where
  whichSha : SHAversion
  hashSize : Nat
  blockSize : Nat
  shaContext : UshaContext
  kOpad : Bytes

/-- An `int` as `unsigned int`. -/
def unsignedOfInt (n : Int) : Nat :=
  (n % 2 ^ 32).toNat

/-- `a || b`: the code is 0 or 1. -/
def orElse {S : Type} (a : Option (Int × S)) (b : S → Option (Int × S)) : Option (Int × S) := do
  let r ← a
  if r.1 ≠ 0 then some (1, r.2)
  else do
    let r ← b r.2
    some (if r.1 ≠ 0 then 1 else 0, r.2)

/-! ## The functions -/

section

/-- A function of `usha.c` gives the context back that it is given. -/
def HmacContext.withSha (ctx : HmacContext) (sha : Option UshaContext) : HmacContext :=
  { ctx with shaContext := sha.getD ctx.shaContext }

/-- A call on `ctx->shaContext`. -/
def HmacContext.onSha (ctx : HmacContext) (f : Option UshaContext → Option (Int × Option UshaContext)) :
    Option (Int × HmacContext) := do
  let r ← f (some ctx.shaContext)
  some (r.1, ctx.withSha r.2)

/-- `USHAResult(&ctx->shaContext, digest)`: what has been written to `digest` stands beside the context. -/
def HmacContext.shaResult (s : HmacContext × Option Bytes) (digest : Bool) :
    Option (Int × HmacContext × Option Bytes) := do
  let r ← ushaResult (some s.1.shaContext) digest
  some (r.1.1, s.1.withSha r.2, r.1.2.orElse fun _ => s.2)

end

/-- `tempkey = HASH(key)`. -/
def tempKey (whichSha : SHAversion) (key : Bytes) (keyLen : Int) (leftover : Nat → UInt8) :
    Option (Int × Option UshaContext × Option Bytes) :=
  let tctx := ushaReset (some .other) whichSha leftover
  orElse
    (orElse (some (tctx.1, tctx.2, none)) fun s => do
      let r ← ushaInput s.1 (some key) (unsignedOfInt keyLen)
      some (r.1, r.2, s.2))
    fun s => do
      let r ← ushaResult s.1 true
      some (r.1.1, r.2, r.1.2)

/-- The first bytes of the key in a pad; the remaining ones are those of an empty key. -/
def padBytes (blocksize : Nat) (key : Bytes) (pad : UInt8) : Bytes :=
  key.map (· ^^^ pad) ++ List.replicate (blocksize - key.length) pad

def hmacReset (ctx : Option HmacContext) (whichSha : SHAversion) (key : Bytes) (keyLen : Int)
    (leftover : Nat → UInt8) : Option (Int × Option HmacContext) :=
  match ctx with
  | none => some (shaNull, none)
  | some ctx => do
    let blocksize := ushaBlockSize whichSha
    let hashsize := ushaHashSize whichSha
    let ctx := { ctx with whichSha, hashSize := hashsize, blockSize := blocksize }
    let hashed ←
      if keyLen > blocksize then tempKey whichSha key keyLen leftover
      else some (shaSuccess, none, none)
    if hashed.1 ≠ shaSuccess then some (hashed.1, some ctx)
    else
      -- A negative length is the one of an empty key.
      let length := if keyLen > blocksize then hashsize else keyLen.toNat
      let key := if keyLen > blocksize then hashed.2.2.getD [] else key
      if length ≤ key.length then do
        let kIpad := padBytes blocksize (key.take length) 0x36
        let kOpad := padBytes blocksize (key.take length) 0x5c
        let ctx := { ctx with kOpad := kOpad ++ ctx.kOpad.drop blocksize }
        let r ← orElse (ctx.onSha fun sha => some (ushaReset sha whichSha leftover)) fun ctx =>
          ctx.onSha fun sha => ushaInput sha (some kIpad) blocksize
        some (r.1, some r.2)
      else none

def hmacInput (ctx : Option HmacContext) (text : Option Bytes) (textLen : Int) :
    Option (Int × Option HmacContext) :=
  match ctx with
  | none => some (shaNull, none)
  | some ctx => do
    let r ← ctx.onSha fun sha => ushaInput sha text (unsignedOfInt textLen)
    some (r.1, some r.2)

def hmacFinalBits (ctx : Option HmacContext) (bits : UInt8) (bitcount : Nat) :
    Option (Int × Option HmacContext) :=
  match ctx with
  | none => some (shaNull, none)
  | some ctx => do
    let r ← ctx.onSha fun sha => ushaFinalBits sha bits bitcount
    some (r.1, some r.2)

def hmacResult (ctx : Option HmacContext) (digest : Bool) (leftover : Nat → UInt8) :
    Option (Int × Option HmacContext × Option Bytes) :=
  match ctx with
  | none => some (shaNull, none, none)
  | some ctx => do
    let onSha (s : HmacContext × Option Bytes)
        (f : Option UshaContext → Option (Int × Option UshaContext)) :=
      (s.1.onSha f).map fun r => (r.1, r.2, s.2)
    let r ←
      orElse
        (orElse
          (orElse
            (orElse
              -- The first pass is finished, with the digest as a temporary buffer.
              (HmacContext.shaResult (ctx, none) digest)
              fun s => onSha s fun sha => some (ushaReset sha s.1.whichSha leftover))
            fun s => onSha s fun sha => ushaInput sha (some s.1.kOpad) s.1.blockSize)
          fun s => onSha s fun sha => ushaInput sha s.2 s.1.hashSize)
        fun s => HmacContext.shaResult s digest
    some (r.1, some r.2.1, r.2.2)

/-- `hmac`, with a context that holds anything. -/
def hmac (ctx : HmacContext) (whichSha : SHAversion) (text : Option Bytes) (textLen : Int) (key : Bytes)
    (keyLen : Int) (digest : Bool) (leftover : Nat → UInt8) : Option (Int × Option Bytes) := do
  let r ←
    orElse
      (orElse ((hmacReset (some ctx) whichSha key keyLen leftover).map fun r => (r.1, r.2, none))
        fun s => (hmacInput s.1 text textLen).map fun r => (r.1, r.2, s.2))
      fun s => (hmacResult s.1 digest leftover).map fun r => (r.1, r.2.1, r.2.2)
  some (r.1, r.2.2)

/-! ## The keyed hash -/

/-- A key as long as a block: a longer one is hashed first. -/
def blockKey (hash : List Bool → Bytes) (blockSize : Nat) (key : Bytes) : Bytes :=
  if key.length > blockSize then hash (bitsOf key) else key

def keyedHash (hash : List Bool → Bytes) (blockSize : Nat) (key : Bytes) (text : List Bool) : Bytes :=
  let pad (b : UInt8) : Bytes :=
    (blockKey hash blockSize key ++ List.replicate (blockSize - (blockKey hash blockSize key).length) 0).map (· ^^^ b)
  hash (bitsOf (pad 0x5c) ++ bitsOf (hash (bitsOf (pad 0x36) ++ text)))

/-! ## The object -/

/-- The key as long as a block at most, and the hash object that has been given the inner pad. -/
structure HmacObject where
  whichSha : SHAversion
  key : Bytes
  inner : HashObject

inductive HmacCall
  | reset (whichSha : SHAversion) (key : Bytes) (keyLen : Int) (leftover : Nat → UInt8)
  | input (text : Option Bytes) (textLen : Int)
  | finalBits (bits : UInt8) (bitcount : Nat)
  | result (digest : Bool) (leftover : Nat → UInt8)

/-- The hash function is one of the five, and key and text are as long as their length says. -/
def HmacCall.valid : HmacCall → Bool
  | .reset whichSha key keyLen _ => whichSha ≠ .other ∧ keyLen.toNat ≤ key.length ∧ keyLen < 2 ^ 31
  | .input (some text) textLen => unsignedOfInt textLen ≤ text.length
  | _ => true

def hmacCall (ctx : Option HmacContext) : HmacCall → Option (Answer × Option HmacContext)
  | .reset whichSha key keyLen leftover => do
    let r ← hmacReset ctx whichSha key keyLen leftover
    some ({ code := r.1 }, r.2)
  | .input text textLen => do
    let r ← hmacInput ctx text textLen
    some ({ code := r.1 }, r.2)
  | .finalBits bits bitcount => do
    let r ← hmacFinalBits ctx bits bitcount
    some ({ code := r.1 }, r.2)
  | .result digest leftover => do
    let r ← hmacResult ctx digest leftover
    some ({ code := r.1, digest := r.2.2 }, r.2.1)

def hmacRun : Option HmacContext → List HmacCall → Option (List Answer)
  | _, [] => some []
  | ctx, call :: calls => do
    let r ← hmacCall ctx call
    let answers ← hmacRun r.2 calls
    some (r.1 :: answers)

def HmacObject.new (whichSha : SHAversion) (key : Bytes) : HmacObject :=
  let key := blockKey whichSha.digest (ushaBlockSize whichSha) key
  { whichSha, key, inner := .absorbing (padBytes (ushaBlockSize whichSha) key 0x36) }

/-- The outer pad and the hash of the inner pad and the message. -/
def HmacObject.outer (o : HmacObject) (inner : Bytes) : Bytes :=
  padBytes (ushaBlockSize o.whichSha) o.key 0x5c ++ inner

/-- After a result the object holds the outer message: another result is the keyed hash of that one. -/
def HmacObject.step (o : HmacObject) : HmacCall → Answer × HmacObject
  | .reset whichSha key keyLen _ => ({ code := shaSuccess }, .new whichSha (key.take keyLen.toNat))
  | .input text textLen =>
    let r := o.inner.step o.whichSha.digest o.whichSha.limit (.input text (unsignedOfInt textLen))
    ({ code := r.1.code }, { o with inner := r.2 })
  | .finalBits bits bitcount =>
    let r := o.inner.step o.whichSha.digest o.whichSha.limit (.finalBits bits bitcount)
    ({ code := r.1.code }, { o with inner := r.2 })
  | .result digest _ =>
    let r := o.inner.step o.whichSha.digest o.whichSha.limit (.result digest)
    match r.1.digest with
    | none => ({ code := 1 }, { o with inner := r.2 })
    | some inner =>
      ({ code := shaSuccess, digest := some (o.whichSha.digest (bitsOf (o.outer inner))) },
        { o with inner := .finished (bitsOf (o.outer inner)) })

def HmacObject.run : HmacObject → List HmacCall → List Answer
  | _, [] => []
  | o, call :: calls => (o.step call).1 :: HmacObject.run (o.step call).2 calls

/-! ## The calls of `usha.c` -/

section

variable {s : UshaContext} {whichSha : SHAversion} {o : HashObject}

theorem usha_reset (s : UshaContext) (hwhich : whichSha ≠ .other) (leftover : Nat → UInt8) :
    ∃ s', ushaReset (some s) whichSha leftover = (shaSuccess, some s') ∧
      UshaRelated s' (.hash whichSha (.absorbing [])) := by
  rcases usha_reset_related s .unknown whichSha leftover with ⟨s', hcall, hrelated⟩
  rw [UshaObject.step, if_neg hwhich] at hcall hrelated
  injection hcall with hcall
  injection hcall with hcode hctx
  injection hcode with hcode
  exact ⟨s', Prod.ext hcode hctx, hrelated⟩

theorem exists_of_answer {X : Type} {r : Option (X × Option UshaContext)} {f : X → Answer} {answer : Answer}
    {ctx : Option UshaContext} (h : (r.bind fun r => some (f r.1, r.2)) = some (answer, ctx)) :
    ∃ x, r = some (x, ctx) ∧ f x = answer := by
  rcases Option.bind_eq_some_iff.1 h with ⟨⟨x, ctx'⟩, rfl, heq⟩
  cases heq
  exact ⟨x, rfl, rfl⟩

theorem usha_input (h : UshaRelated s (.hash whichSha o)) (bytes : Option Bytes) (bytecount : Nat)
    (hvalid : (Call.input bytes bytecount).valid = true) :
    ∃ s', ushaInput (some s) bytes bytecount =
        some ((o.step whichSha.digest whichSha.limit (.input bytes bytecount)).1.code, some s') ∧
      UshaRelated s' (.hash whichSha (o.step whichSha.digest whichSha.limit (.input bytes bytecount)).2) := by
  rcases usha_call_related h (.pass (.input bytes bytecount)) hvalid with ⟨s', hcall, hrelated⟩
  rcases exists_of_answer (f := fun code => { code }) hcall with ⟨code, hinput, hanswer⟩
  exact ⟨s', hinput.trans (congrArg (fun a : Answer => some (a.code, some s')) hanswer), hrelated⟩

theorem usha_finalBits (h : UshaRelated s (.hash whichSha o)) (bits : UInt8) (bitcount : Nat) :
    ∃ s', ushaFinalBits (some s) bits bitcount =
        some ((o.step whichSha.digest whichSha.limit (.finalBits bits bitcount)).1.code, some s') ∧
      UshaRelated s' (.hash whichSha (o.step whichSha.digest whichSha.limit (.finalBits bits bitcount)).2) := by
  rcases usha_call_related h (.pass (.finalBits bits bitcount)) rfl with ⟨s', hcall, hrelated⟩
  rcases exists_of_answer (f := fun code => { code }) hcall with ⟨code, hbits, hanswer⟩
  exact ⟨s', hbits.trans (congrArg (fun a : Answer => some (a.code, some s')) hanswer), hrelated⟩

theorem usha_result (h : UshaRelated s (.hash whichSha o)) (messageDigest : Bool) :
    ∃ s', ushaResult (some s) messageDigest =
        some (((o.step whichSha.digest whichSha.limit (.result messageDigest)).1.code,
          (o.step whichSha.digest whichSha.limit (.result messageDigest)).1.digest), some s') ∧
      UshaRelated s' (.hash whichSha (o.step whichSha.digest whichSha.limit (.result messageDigest)).2) := by
  rcases usha_call_related h (.pass (.result messageDigest)) rfl with ⟨s', hcall, hrelated⟩
  rcases exists_of_answer (f := fun r : Int × Option Bytes => { code := r.1, digest := r.2 }) hcall with
    ⟨⟨code, digest⟩, hresult, hanswer⟩
  exact ⟨s', hresult.trans (congrArg (fun a : Answer => some ((a.code, a.digest), some s')) hanswer), hrelated⟩

end

/-! ## The refinement -/

section

variable {whichSha : SHAversion}

theorem ushaHashSize_le (whichSha : SHAversion) : ushaHashSize whichSha ≤ ushaBlockSize whichSha := by
  cases whichSha <;> decide

theorem digest_length (hwhich : whichSha ≠ .other) (bits : List Bool) :
    (whichSha.digest bits).length = ushaHashSize whichSha := by
  cases whichSha with
  | other => exact absurd rfl hwhich
  | _ =>
    rw [SHAversion.digest, Algorithm.digest, List.length_map, List.length_range]
    rfl

/-- A length that is an `int`, behind a pad, is far below the limit. -/
theorem short_of_int (whichSha : SHAversion) {n : Nat} (hn : n < 2 ^ 32) :
    8 * (ushaBlockSize whichSha + n) < whichSha.limit := by
  have hblock : ushaBlockSize whichSha ≤ 128 := by cases whichSha <;> decide
  have hlimit : 2 ^ 64 ≤ whichSha.limit := by cases whichSha <;> decide
  omega

theorem padBytes_length {blocksize : Nat} {key : Bytes} (hkey : key.length ≤ blocksize) (pad : UInt8) :
    (padBytes blocksize key pad).length = blocksize := by
  rw [padBytes, List.length_append, List.length_map, List.length_replicate]
  omega

theorem blockKey_length (hwhich : whichSha ≠ .other) (key : Bytes) :
    (blockKey whichSha.digest (ushaBlockSize whichSha) key).length ≤ ushaBlockSize whichSha := by
  unfold blockKey
  split_ifs with hlong
  · rw [digest_length hwhich]
    exact ushaHashSize_le whichSha
  · exact not_lt.1 hlong

theorem unsignedOfInt_of_nonneg {n : Int} (hpos : 0 ≤ n) (hlimit : n < 2 ^ 31) : unsignedOfInt n = n.toNat := by
  rw [unsignedOfInt, Int.emod_eq_of_lt hpos (by omega)]

end

/-- The context stands for the object. -/
structure HmacRelated (ctx : HmacContext) (o : HmacObject) : Prop where
  known : o.whichSha ≠ .other
  whichSha : ctx.whichSha = o.whichSha
  hashSize : ctx.hashSize = ushaHashSize o.whichSha
  blockSize : ctx.blockSize = ushaBlockSize o.whichSha
  opadSize : ctx.blockSize ≤ ctx.kOpad.length
  opad : ctx.kOpad.take ctx.blockSize = padBytes (ushaBlockSize o.whichSha) o.key 0x5c
  short : o.key.length ≤ ushaBlockSize o.whichSha
  inner : UshaRelated ctx.shaContext (.hash o.whichSha o.inner)

section

variable {ctx : HmacContext} {o : HmacObject} {whichSha : SHAversion} {key : Bytes} {keyLen : Int}

@[simp] theorem orElse_ok {S : Type} (s : S) (b : S → Option (Int × S)) :
    orElse (some (shaSuccess, s)) b = (b s).bind fun r => some (if r.1 ≠ 0 then 1 else 0, r.2) :=
  rfl

theorem orElse_fails {S : Type} {code : Int} (hcode : code ≠ 0) (s : S) (b : S → Option (Int × S)) :
    orElse (some (code, s)) b = some (1, s) :=
  if_pos hcode

theorem HmacRelated.withSha (h : HmacRelated ctx o) {s' : UshaContext} {inner : HashObject}
    (hs : UshaRelated s' (.hash o.whichSha inner)) :
    HmacRelated (ctx.withSha (some s')) { o with inner } :=
  ⟨h.known, h.whichSha, h.hashSize, h.blockSize, h.opadSize, h.opad, h.short, hs⟩

theorem step_input_all (digest : List Bool → Bytes) {limit : Nat} (message bytes : Bytes) {length : Nat}
    (hless : 8 * (message.length + length) < limit) :
    (HashObject.absorbing message).step digest limit (.input (some bytes) length) =
      ({ code := shaSuccess }, .absorbing (message ++ bytes.take length)) := by
  by_cases hzero : length = 0
  · rw [hzero, List.take_zero, List.append_nil]
    rfl
  · simp only [HashObject.step, if_neg hzero, if_pos hless]

theorem step_result (digest : List Bool → Bytes) (limit : Nat) (message : Bytes) :
    (HashObject.absorbing message).step digest limit (.result true) =
      ({ code := shaSuccess, digest := some (digest (bitsOf message)) }, .finished (bitsOf message)) :=
  rfl

theorem tempKey_eq (hwhich : whichSha ≠ .other) (hlong : keyLen > ushaBlockSize whichSha)
    (hlimit : keyLen < 2 ^ 31) (hkey : keyLen.toNat ≤ key.length) (leftover : Nat → UInt8) :
    ∃ sha, tempKey whichSha key keyLen leftover =
      some (shaSuccess, sha, some (whichSha.digest (bitsOf (key.take keyLen.toNat)))) := by
  have hpos : 0 ≤ keyLen := by omega
  have hlength : unsignedOfInt keyLen = keyLen.toNat := unsignedOfInt_of_nonneg hpos hlimit
  have hshort : 8 * (([] : Bytes).length + keyLen.toNat) < whichSha.limit := by
    have hroom := short_of_int whichSha (n := keyLen.toNat) (by omega)
    rw [List.length_nil]
    omega
  have hstep := step_input_all whichSha.digest [] key hshort
  rcases usha_reset .other hwhich leftover with ⟨s₁, hreset, hrelated₁⟩
  rcases usha_input hrelated₁ (some key) keyLen.toNat (decide_eq_true hkey) with ⟨s₂, hinput, hrelated₂⟩
  rw [hstep] at hinput hrelated₂
  rcases usha_result hrelated₂ true with ⟨s₃, hresult, -⟩
  rw [step_result] at hresult
  refine ⟨some s₃, ?_⟩
  rw [tempKey, hreset, hlength]
  simp only [orElse_ok, hinput, Option.bind_eq_bind, Option.bind_some]
  -- The code of the first two calls is 0.
  change orElse (some (shaSuccess, _, _)) _ = _
  simp only [orElse_ok, hresult, Option.bind_some]
  rfl

/-- The context with the outer pad of a key. -/
def HmacContext.keyed (ctx : HmacContext) (whichSha : SHAversion) (key : Bytes) : HmacContext :=
  { ctx with
    whichSha
    hashSize := ushaHashSize whichSha
    blockSize := ushaBlockSize whichSha
    kOpad := padBytes (ushaBlockSize whichSha) key 0x5c ++ ctx.kOpad.drop (ushaBlockSize whichSha) }

/-- The first pass of a keyed context: a new hash takes the inner pad. -/
def innerPass (ctx : HmacContext) (whichSha : SHAversion) (key : Bytes) (leftover : Nat → UInt8) :
    Option (Int × HmacContext) :=
  orElse ((ctx.keyed whichSha key).onSha fun sha => some (ushaReset sha whichSha leftover)) fun ctx =>
    ctx.onSha fun sha =>
      ushaInput sha (some (padBytes (ushaBlockSize whichSha) key 0x36)) (ushaBlockSize whichSha)

theorem innerPass_related (ctx : HmacContext) (hwhich : whichSha ≠ .other)
    (hkey : key.length ≤ ushaBlockSize whichSha) (leftover : Nat → UInt8) :
    ∃ ctx', innerPass ctx whichSha key leftover = some (shaSuccess, ctx') ∧
      HmacRelated ctx'
        { whichSha, key, inner := .absorbing (padBytes (ushaBlockSize whichSha) key 0x36) } := by
  have hpad := padBytes_length hkey 0x36
  have hshort : 8 * (([] : Bytes).length + ushaBlockSize whichSha) < whichSha.limit := by
    have hroom := short_of_int whichSha (n := 0) (by decide)
    rw [List.length_nil]
    omega
  have hstep := step_input_all whichSha.digest [] (padBytes (ushaBlockSize whichSha) key 0x36) hshort
  rcases usha_reset ctx.shaContext hwhich leftover with ⟨s₁, hreset, hrelated₁⟩
  rcases usha_input hrelated₁ (some (padBytes (ushaBlockSize whichSha) key 0x36)) (ushaBlockSize whichSha)
    (decide_eq_true (le_of_eq hpad.symm)) with ⟨s₂, hinput, hrelated₂⟩
  rw [hstep, List.nil_append, List.take_of_length_le (le_of_eq hpad)] at hrelated₂
  rw [hstep] at hinput
  have hopad : (padBytes (ushaBlockSize whichSha) key 0x5c ++ ctx.kOpad.drop (ushaBlockSize whichSha)).take
      (ushaBlockSize whichSha) = padBytes (ushaBlockSize whichSha) key 0x5c :=
    List.take_left' (padBytes_length hkey 0x5c)
  have hopadSize : ushaBlockSize whichSha ≤
      (padBytes (ushaBlockSize whichSha) key 0x5c ++ ctx.kOpad.drop (ushaBlockSize whichSha)).length := by
    rw [List.length_append, padBytes_length hkey]
    exact Nat.le_add_right ..
  refine ⟨{ ctx.keyed whichSha key with shaContext := s₂ }, ?_,
    hwhich, rfl, rfl, rfl, hopadSize, hopad, hkey, hrelated₂⟩
  have hfirst : (ctx.keyed whichSha key).onSha (fun sha => some (ushaReset sha whichSha leftover)) =
      some (shaSuccess, (ctx.keyed whichSha key).withSha (some s₁)) := by
    rw [HmacContext.onSha]
    change (some (ushaReset (some ctx.shaContext) whichSha leftover)).bind _ = _
    rw [hreset]
    rfl
  rw [innerPass, hfirst, orElse_ok, HmacContext.onSha]
  change ((ushaInput (some s₁) _ _).bind _).bind _ = _
  rw [hinput]
  rfl

/-- `hmacReset` is the first pass, for a key as long as a block at most. -/
theorem hmacReset_eq (ctx : HmacContext) (hwhich : whichSha ≠ .other) (hlimit : keyLen < 2 ^ 31)
    (hkey : keyLen.toNat ≤ key.length) (leftover : Nat → UInt8) :
    hmacReset (some ctx) whichSha key keyLen leftover =
      (innerPass ctx whichSha (blockKey whichSha.digest (ushaBlockSize whichSha) (key.take keyLen.toNat))
        leftover).bind fun r => some (r.1, some r.2) := by
  have htake : (key.take keyLen.toNat).length = keyLen.toNat := List.length_take_of_le hkey
  by_cases hlong : keyLen > ushaBlockSize whichSha
  case pos =>
    rcases tempKey_eq hwhich hlong hlimit hkey leftover with ⟨sha, htemp⟩
    have hblock : blockKey whichSha.digest (ushaBlockSize whichSha) (key.take keyLen.toNat) =
        whichSha.digest (bitsOf (key.take keyLen.toNat)) := by
      rw [blockKey, if_pos]
      rw [htake]
      omega
    have hdigest := digest_length hwhich (bitsOf (key.take keyLen.toNat))
    have hwhole : (whichSha.digest (bitsOf (key.take keyLen.toNat))).take (ushaHashSize whichSha) =
        whichSha.digest (bitsOf (key.take keyLen.toNat)) :=
      List.take_of_length_le (le_of_eq hdigest)
    unfold hmacReset
    simp only [if_pos hlong, htemp, Option.bind_eq_bind, Option.bind_some, Option.getD_some, hdigest,
      Nat.le_refl, if_true, hwhole, hblock]
    rfl
  case neg =>
    have hblock : blockKey whichSha.digest (ushaBlockSize whichSha) (key.take keyLen.toNat) =
        key.take keyLen.toNat := by
      rw [blockKey, if_neg]
      rw [htake]
      omega
    unfold hmacReset
    simp only [if_neg hlong, Option.bind_eq_bind, Option.bind_some, if_pos hkey, hblock]
    rfl

theorem hmacReset_related (ctx : HmacContext) (hwhich : whichSha ≠ .other) (hlimit : keyLen < 2 ^ 31)
    (hkey : keyLen.toNat ≤ key.length) (leftover : Nat → UInt8) :
    ∃ ctx', hmacReset (some ctx) whichSha key keyLen leftover = some (shaSuccess, some ctx') ∧
      HmacRelated ctx' (.new whichSha (key.take keyLen.toNat)) := by
  rcases innerPass_related ctx hwhich (blockKey_length hwhich (key.take keyLen.toNat)) leftover with
    ⟨ctx', hpass, hrelated⟩
  refine ⟨ctx', ?_, hrelated⟩
  rw [hmacReset_eq ctx hwhich hlimit hkey, hpass]
  rfl

theorem hmacInput_related (h : HmacRelated ctx o) {text : Option Bytes} {textLen : Int}
    (hvalid : (HmacCall.input text textLen).valid = true) :
    ∃ ctx', hmacInput (some ctx) text textLen = some ((o.step (.input text textLen)).1.code, some ctx') ∧
      HmacRelated ctx' (o.step (.input text textLen)).2 := by
  have hlength : (Call.input text (unsignedOfInt textLen)).valid = true := by
    cases text with
    | none => rfl
    | some text => exact hvalid
  rcases usha_input h.inner text (unsignedOfInt textLen) hlength with ⟨s', hinput, hrelated⟩
  refine ⟨ctx.withSha (some s'), ?_, h.withSha hrelated⟩
  rw [hmacInput, HmacContext.onSha, hinput]
  rfl

theorem hmacFinalBits_related (h : HmacRelated ctx o) (bits : UInt8) (bitcount : Nat) :
    ∃ ctx', hmacFinalBits (some ctx) bits bitcount = some ((o.step (.finalBits bits bitcount)).1.code, some ctx') ∧
      HmacRelated ctx' (o.step (.finalBits bits bitcount)).2 := by
  rcases usha_finalBits h.inner bits bitcount with ⟨s', hbits, hrelated⟩
  refine ⟨ctx.withSha (some s'), ?_, h.withSha hrelated⟩
  rw [hmacFinalBits, HmacContext.onSha, hbits]
  rfl

theorem onSha_eq {f : Option UshaContext → Option (Int × Option UshaContext)} {code : Int} {s' : UshaContext}
    (hf : f (some ctx.shaContext) = some (code, some s')) :
    ctx.onSha f = some (code, { ctx with shaContext := s' }) := by
  rw [HmacContext.onSha, hf]
  rfl

/-- The second pass: a new hash takes the outer pad and the hash of the first one. -/
def outerPass (ctx : HmacContext) (inner : Bytes) (leftover : Nat → UInt8) :
    Option (Int × HmacContext × Option Bytes) :=
  let onSha (s : HmacContext × Option Bytes) (f : Option UshaContext → Option (Int × Option UshaContext)) :=
    (s.1.onSha f).map fun r => (r.1, r.2, s.2)
  orElse
    (orElse
      (orElse
        (orElse (some (shaSuccess, ctx, some inner))
          fun s => onSha s fun sha => some (ushaReset sha s.1.whichSha leftover))
        fun s => onSha s fun sha => ushaInput sha (some s.1.kOpad) s.1.blockSize)
      fun s => onSha s fun sha => ushaInput sha s.2 s.1.hashSize)
    fun s => HmacContext.shaResult s true

theorem outerPass_related (h : HmacRelated ctx o) {inner : Bytes} (hinner : inner.length = ushaHashSize o.whichSha)
    (leftover : Nat → UInt8) :
    ∃ ctx', outerPass ctx inner leftover =
        some (shaSuccess, ctx', some (o.whichSha.digest (bitsOf (o.outer inner)))) ∧
      HmacRelated ctx' { o with inner := .finished (bitsOf (o.outer inner)) } := by
  have hhash : ushaHashSize o.whichSha ≤ 64 := by cases o.whichSha <;> decide
  have hopad := padBytes_length h.short 0x5c
  have hshort : 8 * (([] : Bytes).length + ushaBlockSize o.whichSha) < o.whichSha.limit := by
    have hroom := short_of_int o.whichSha (n := 0) (by decide)
    rw [List.length_nil]
    omega
  have hshort' : 8 * ((padBytes (ushaBlockSize o.whichSha) o.key 0x5c).length + ushaHashSize o.whichSha) <
      o.whichSha.limit := by
    rw [hopad]
    exact short_of_int o.whichSha (by omega)
  -- The four calls, on a hash that is reset.
  rcases usha_reset ctx.shaContext h.known leftover with ⟨s₁, hreset, hrelated₁⟩
  have hstep₁ := step_input_all o.whichSha.digest [] ctx.kOpad hshort
  rcases usha_input hrelated₁ (some ctx.kOpad) (ushaBlockSize o.whichSha)
    (decide_eq_true (h.blockSize ▸ h.opadSize)) with ⟨s₂, hinput₁, hrelated₂⟩
  rw [hstep₁, List.nil_append, ← h.blockSize, h.opad] at hrelated₂
  rw [hstep₁] at hinput₁
  have hstep₂ := step_input_all o.whichSha.digest (padBytes (ushaBlockSize o.whichSha) o.key 0x5c) inner hshort'
  rcases usha_input hrelated₂ (some inner) (ushaHashSize o.whichSha)
    (decide_eq_true (le_of_eq hinner.symm)) with ⟨s₃, hinput₂, hrelated₃⟩
  rw [hstep₂, List.take_of_length_le (le_of_eq hinner)] at hrelated₃
  rw [hstep₂] at hinput₂
  rcases usha_result hrelated₃ true with ⟨s₄, hresult, hrelated₄⟩
  rw [step_result] at hresult hrelated₄
  refine ⟨{ ctx with shaContext := s₄ }, ?_, h.withSha hrelated₄⟩
  have hcall₁ : ctx.onSha (fun sha => some (ushaReset sha ctx.whichSha leftover)) =
      some (shaSuccess, { ctx with shaContext := s₁ }) :=
    onSha_eq (by rw [h.whichSha, hreset])
  have hcall₂ : HmacContext.onSha { ctx with shaContext := s₁ }
        (fun sha => ushaInput sha (some ctx.kOpad) ctx.blockSize) =
      some (shaSuccess, { ctx with shaContext := s₂ }) :=
    onSha_eq (by rw [h.blockSize]; exact hinput₁)
  have hcall₃ : HmacContext.onSha { ctx with shaContext := s₂ }
        (fun sha => ushaInput sha (some inner) ctx.hashSize) =
      some (shaSuccess, { ctx with shaContext := s₃ }) :=
    onSha_eq (by rw [h.hashSize]; exact hinput₂)
  have hcode : (if shaSuccess ≠ 0 then (1 : Int) else 0) = shaSuccess := rfl
  unfold outerPass
  simp only [orElse_ok, hcall₁, hcall₂, hcall₃, hcode, Option.map_some, Option.bind_some]
  rw [HmacContext.shaResult, hresult]
  rfl

theorem broken_code_ne {s : UshaContext} {code : Int} (h : UshaRelated s (.hash whichSha (.broken code))) :
    code ≠ 0 := by
  cases s with
  | other => exact h.elim
  | _ => cases whichSha <;> first | exact h.2.1 | exact h.elim

theorem step_result_cases {s : UshaContext} {inner : HashObject} (h : UshaRelated s (.hash whichSha inner))
    (digest : Bool) :
    (∃ code inner', code ≠ 0 ∧
      inner.step whichSha.digest whichSha.limit (.result digest) = ({ code }, inner')) ∨
    (digest = true ∧ ∃ bits, inner.step whichSha.digest whichSha.limit (.result digest) =
      ({ code := shaSuccess, digest := some (whichSha.digest bits) }, .finished bits)) := by
  cases digest with
  | false => exact .inl ⟨shaNull, inner, by decide, rfl⟩
  | true =>
    cases inner with
    | absorbing message => exact .inr ⟨rfl, bitsOf message, rfl⟩
    | finished bits => exact .inr ⟨rfl, bits, rfl⟩
    | broken code => exact .inl ⟨code, .broken code, broken_code_ne h, rfl⟩

theorem hmacResult_related (h : HmacRelated ctx o) (digest : Bool) (leftover : Nat → UInt8) :
    ∃ ctx', hmacResult (some ctx) digest leftover =
        some ((o.step (.result digest leftover)).1.code, some ctx',
          (o.step (.result digest leftover)).1.digest) ∧
      HmacRelated ctx' (o.step (.result digest leftover)).2 := by
  rcases usha_result h.inner digest with ⟨s', hresult, hrelated⟩
  rcases step_result_cases h.inner digest with ⟨code, inner', hcode, hstep⟩ | ⟨rfl, bits, hstep⟩
  · rw [hstep] at hresult hrelated
    have hfirst : HmacContext.shaResult (ctx, none) digest = some (code, ctx.withSha (some s'), none) := by
      rw [HmacContext.shaResult, hresult]
      rfl
    refine ⟨ctx.withSha (some s'), ?_, ?_⟩
    · rw [hmacResult, hfirst]
      simp only [orElse_fails hcode, orElse_fails one_ne_zero, Option.bind_eq_bind, Option.bind_some,
        HmacObject.step, hstep]
    · simp only [HmacObject.step, hstep]
      exact h.withSha hrelated
  · rw [hstep] at hresult hrelated
    have hfirst : HmacContext.shaResult (ctx, none) true =
        some (shaSuccess, ctx.withSha (some s'), some (o.whichSha.digest bits)) := by
      rw [HmacContext.shaResult, hresult]
      rfl
    rcases outerPass_related (h.withSha hrelated) (digest_length h.known bits) leftover with
      ⟨ctx', hpass, hrelated'⟩
    refine ⟨ctx', ?_, ?_⟩
    · rw [outerPass] at hpass
      rw [hmacResult, hfirst, hpass]
      simp only [HmacObject.step, hstep]
      rfl
    · simp only [HmacObject.step, hstep]
      exact hrelated'

theorem hmac_call_related (h : HmacRelated ctx o) (call : HmacCall) (hvalid : call.valid = true) :
    ∃ ctx', hmacCall (some ctx) call = some ((o.step call).1, some ctx') ∧ HmacRelated ctx' (o.step call).2 := by
  cases call with
  | reset whichSha key keyLen leftover =>
    rcases of_decide_eq_true hvalid with ⟨hwhich, hkey, hlimit⟩
    rcases hmacReset_related ctx hwhich hlimit hkey leftover with ⟨ctx', hreset, hrelated⟩
    exact ⟨ctx', by rw [hmacCall, hreset]; rfl, hrelated⟩
  | input text textLen =>
    rcases hmacInput_related h hvalid with ⟨ctx', hinput, hrelated⟩
    exact ⟨ctx', by rw [hmacCall, hinput]; rfl, hrelated⟩
  | finalBits bits bitcount =>
    rcases hmacFinalBits_related h bits bitcount with ⟨ctx', hbits, hrelated⟩
    exact ⟨ctx', by rw [hmacCall, hbits]; rfl, hrelated⟩
  | result digest leftover =>
    rcases hmacResult_related h digest leftover with ⟨ctx', hresult, hrelated⟩
    exact ⟨ctx', by rw [hmacCall, hresult]; rfl, hrelated⟩

theorem hmac_calls_related (h : HmacRelated ctx o) (calls : List HmacCall)
    (hvalid : ∀ call ∈ calls, call.valid = true) : hmacRun (some ctx) calls = some (o.run calls) := by
  induction calls generalizing ctx o with
  | nil => rfl
  | cons call calls ih =>
    rcases hmac_call_related h call (hvalid call List.mem_cons_self) with ⟨ctx', hcall, hrelated⟩
    have hrest := ih hrelated fun call hcall => hvalid call (List.mem_cons_of_mem _ hcall)
    rw [hmacRun, hcall, Option.bind_eq_bind, Option.bind_some, hrest]
    rfl

/-- Whatever the context holds at first: from the first reset on, every call answers as the keyed hash object. -/
theorem hmac_run_refines (ctx : HmacContext) (whichSha : SHAversion) (key : Bytes) (keyLen : Int)
    (leftover : Nat → UInt8) (calls : List HmacCall)
    (hreset : (HmacCall.reset whichSha key keyLen leftover).valid = true)
    (hvalid : ∀ call ∈ calls, call.valid = true) :
    hmacRun (some ctx) (.reset whichSha key keyLen leftover :: calls) =
      some ({ code := shaSuccess } :: (HmacObject.new whichSha (key.take keyLen.toNat)).run calls) := by
  rcases of_decide_eq_true hreset with ⟨hwhich, hkey, hlimit⟩
  rcases hmacReset_related ctx hwhich hlimit hkey leftover with ⟨ctx', hcall, hrelated⟩
  rw [hmacRun, hmacCall, hcall]
  simp only [Option.bind_eq_bind, Option.bind_some, hmac_calls_related hrelated calls hvalid]

/-- A context that no function has been called on. -/
def emptyContext : HmacContext where
  whichSha := .other
  hashSize := 0
  blockSize := 0
  shaContext := .other
  kOpad := []

/-- After a result more text is refused, and then there is no result any more. -/
theorem hmac_run_refines_again :
    (hmacRun (some emptyContext)
        [.reset .sha1 (ascii "key") 3 (fun _ => 0), .input (some (ascii "text")) 4, .result true (fun _ => 0),
          .input (some (ascii "more")) 4, .result true (fun _ => 0)]).map (fun answers => answers.map Answer.code) =
      some [shaSuccess, shaSuccess, shaSuccess, shaStateError, 1] :=
  (congrArg (fun run => run.map fun answers => answers.map Answer.code)
    (hmac_run_refines emptyContext .sha1
      (ascii "key") 3 (fun _ => 0)
      [.input (some (ascii "text")) 4, .result true (fun _ => 0), .input (some (ascii "more")) 4,
        .result true (fun _ => 0)]
      (by decide) (by decide))).trans (by decide +kernel)

/-! ## A message in pieces -/

theorem padBytes_eq (blocksize : Nat) (key : Bytes) (pad : UInt8) :
    (key ++ List.replicate (blocksize - key.length) 0).map (· ^^^ pad) = padBytes blocksize key pad := by
  rw [List.map_append, List.map_replicate, UInt8.zero_xor, padBytes]

theorem new_result (whichSha : SHAversion) (key : Bytes) (text : List Bool) :
    let o : HmacObject := .new whichSha key
    whichSha.digest (bitsOf (o.outer
        (whichSha.digest (bitsOf (padBytes (ushaBlockSize whichSha) o.key 0x36) ++ text)))) =
      keyedHash whichSha.digest (ushaBlockSize whichSha) key text := by
  intro o
  rw [HmacObject.outer, bitsOf_append, keyedHash]
  simp only [padBytes_eq]
  rfl

theorem step_inputs (o : HmacObject) {message : Bytes} (hmessage : o.inner = .absorbing message)
    (chunks : List Bytes) (calls : List HmacCall) (hchunks : ∀ chunk ∈ chunks, chunk.length < 2 ^ 31)
    (hless : 8 * (message.length + chunks.flatten.length) < o.whichSha.limit) :
    o.run (chunks.map (fun chunk => .input (some chunk) chunk.length) ++ calls) =
      List.replicate chunks.length { code := shaSuccess } ++
        HmacObject.run { o with inner := .absorbing (message ++ chunks.flatten) } calls := by
  induction chunks generalizing o message with
  | nil =>
    rw [List.map_nil, List.nil_append, List.length_nil, List.replicate_zero, List.nil_append, List.flatten_nil,
      List.append_nil, ← hmessage]
  | cons chunk chunks ih =>
    have hlength : unsignedOfInt chunk.length = chunk.length := by
      have hshort := hchunks chunk List.mem_cons_self
      rw [unsignedOfInt_of_nonneg (by omega) (by omega), Int.toNat_natCast]
    rw [List.flatten_cons, List.length_append] at hless
    have hchunk : 8 * (message.length + chunk.length) < o.whichSha.limit := by omega
    have hstep : o.step (.input (some chunk) chunk.length) =
        ({ code := shaSuccess }, { o with inner := .absorbing (message ++ chunk) }) := by
      simp only [HmacObject.step, hlength, hmessage, step_input_all o.whichSha.digest message chunk hchunk,
        List.take_length]
    have hrest := ih { o with inner := .absorbing (message ++ chunk) } rfl
      (fun chunk hchunk => hchunks chunk (List.mem_cons_of_mem _ hchunk))
      (by rw [List.length_append]; dsimp only; omega)
    rw [List.map_cons, List.cons_append, HmacObject.run, hstep, hrest, List.length_cons,
      List.replicate_succ, List.cons_append, List.flatten_cons, List.append_assoc]

theorem run_last (o : HmacObject) {message : Bytes} (hmessage : o.inner = .absorbing message) (bits : UInt8)
    {bitcount : Nat} (hbits : bitcount < 8) (leftover : Nat → UInt8) :
    o.run [.finalBits bits bitcount, .result true leftover] =
      [{ code := shaSuccess },
        { code := shaSuccess
          digest := some (o.whichSha.digest (bitsOf (o.outer (o.whichSha.digest
            (bitsOf message ++ (numberBits 8 bits.toNat).take bitcount))))) }] := by
  by_cases hzero : bitcount = 0
  · rw [hzero, List.take_zero, List.append_nil]
    simp only [HmacObject.run, HmacObject.step, HashObject.step, hmessage, if_true]
    rfl
  · simp only [HmacObject.run, HmacObject.step, HashObject.step, hmessage, if_neg hzero, if_neg (not_le.2 hbits)]
    rfl

/-- A key, a message in pieces, and a result: that is the keyed hash of the whole message. -/
theorem hmac_stream (ctx : HmacContext) (whichSha : SHAversion) (key : Bytes) (keyLen : Int)
    (leftover : Nat → UInt8) (chunks : List Bytes) (bits : UInt8) (bitcount : Nat)
    (hreset : (HmacCall.reset whichSha key keyLen leftover).valid = true)
    (hchunks : ∀ chunk ∈ chunks, chunk.length < 2 ^ 31) (hbits : bitcount < 8)
    (hless : 8 * (ushaBlockSize whichSha + chunks.flatten.length) < whichSha.limit) :
    hmacRun (some ctx) (.reset whichSha key keyLen leftover ::
        (chunks.map (fun chunk => .input (some chunk) chunk.length) ++
          [.finalBits bits bitcount, .result true leftover])) =
      some (List.replicate (chunks.length + 2) { code := shaSuccess } ++
        [{ code := shaSuccess
           digest := some (keyedHash whichSha.digest (ushaBlockSize whichSha) (key.take keyLen.toNat)
             (bitsOf chunks.flatten ++ (numberBits 8 bits.toNat).take bitcount)) }]) := by
  have hvalid : ∀ call ∈ chunks.map (fun chunk => HmacCall.input (some chunk) chunk.length) ++
      [.finalBits bits bitcount, .result true leftover], call.valid = true := by
    intro call hcall
    rcases List.mem_append.1 hcall with hinput | hlast
    · rcases List.mem_map.1 hinput with ⟨chunk, hchunk, rfl⟩
      have hshort := hchunks chunk hchunk
      refine decide_eq_true ?_
      rw [unsignedOfInt_of_nonneg (by omega) (by omega), Int.toNat_natCast]
    · rcases List.mem_pair.1 hlast with rfl | rfl <;> rfl
  rcases of_decide_eq_true hreset with ⟨hwhich, hkey, hlimit⟩
  have hpad := padBytes_length (blockKey_length hwhich (key.take keyLen.toNat)) 0x36
  rcases hmacReset_related ctx hwhich hlimit hkey leftover with ⟨ctx', hcall, hrelated⟩
  rw [hmacRun, hmacCall, hcall]
  simp only [Option.bind_eq_bind, Option.bind_some, hmac_calls_related hrelated _ hvalid]
  rw [step_inputs (.new whichSha (key.take keyLen.toNat)) rfl chunks _ hchunks (by rw [hpad]; exact hless)]
  have hlast : ({ code := shaSuccess } : Answer) :: (List.replicate chunks.length { code := shaSuccess } ++
      HmacObject.run { HmacObject.new whichSha (key.take keyLen.toNat) with
          inner := .absorbing (padBytes (ushaBlockSize whichSha)
            (HmacObject.new whichSha (key.take keyLen.toNat)).key 0x36 ++ chunks.flatten) }
        [.finalBits bits bitcount, .result true leftover]) =
      List.replicate (chunks.length + 2) { code := shaSuccess } ++
        [{ code := shaSuccess
           digest := some (keyedHash whichSha.digest (ushaBlockSize whichSha) (key.take keyLen.toNat)
             (bitsOf chunks.flatten ++ (numberBits 8 bits.toNat).take bitcount)) }] := by
    rw [run_last _ rfl bits hbits leftover, ← new_result whichSha, ← List.append_assoc, ← bitsOf_append,
      List.replicate_succ, List.replicate_succ', List.cons_append, List.append_assoc]
    rfl
  exact congrArg some hlast

/-- A test of the standard, with the message in two pieces. -/
theorem hmac_stream_test :
    hmacRun (some emptyContext)
        (.reset .sha256 (ascii "Jefe") 4 (fun _ => 0) ::
          ([ascii "what do ya want ", ascii "for nothing?"].map (fun chunk => .input (some chunk) chunk.length) ++
            [.finalBits 0 0, .result true fun _ => 0])) =
      some [{ code := shaSuccess }, { code := shaSuccess }, { code := shaSuccess }, { code := shaSuccess },
        { code := shaSuccess
          digest := some [0x5B, 0xDC, 0xC1, 0x46, 0xBF, 0x60, 0x75, 0x4E, 0x6A, 0x04, 0x24, 0x26, 0x08, 0x95, 0x75,
            0xC7, 0x5A, 0x00, 0x3F, 0x08, 0x9D, 0x27, 0x39, 0x83, 0x9D, 0xEC, 0x58, 0xB9, 0x64, 0xEC, 0x38,
            0x43] }] :=
  (hmac_stream emptyContext .sha256
    (ascii "Jefe") 4 (fun _ => 0) [ascii "what do ya want ", ascii "for nothing?"] 0 0 (by decide) (by decide)
    (by decide) (by decide)).trans (by decide +kernel)

/-- All in one call; a length below 0 is one from `2 ^ 31` on for the text, and 0 for the key. -/
theorem hmac_eq (ctx : HmacContext) (whichSha : SHAversion) (text : Bytes) (textLen : Int) (key : Bytes)
    (keyLen : Int) (leftover : Nat → UInt8)
    (hreset : (HmacCall.reset whichSha key keyLen leftover).valid = true)
    (htext : unsignedOfInt textLen ≤ text.length) :
    hmac ctx whichSha (some text) textLen key keyLen true leftover =
      some (shaSuccess, some (keyedHash whichSha.digest (ushaBlockSize whichSha) (key.take keyLen.toNat)
        (bitsOf (text.take (unsignedOfInt textLen))))) := by
  rcases of_decide_eq_true hreset with ⟨hwhich, hkey, hlimit⟩
  have hpad := padBytes_length (blockKey_length hwhich (key.take keyLen.toNat)) 0x36
  have hless : 8 * ((padBytes (ushaBlockSize whichSha) (HmacObject.new whichSha (key.take keyLen.toNat)).key
      0x36).length + unsignedOfInt textLen) < whichSha.limit := by
    rw [HmacObject.new, hpad]
    refine short_of_int whichSha ?_
    have hint := Int.emod_lt_of_pos textLen (show (0 : Int) < 2 ^ 32 by decide)
    rw [unsignedOfInt]
    omega
  have hstep : (HmacObject.new whichSha (key.take keyLen.toNat)).step (.input (some text) textLen) =
      ({ code := shaSuccess },
        { HmacObject.new whichSha (key.take keyLen.toNat) with
          inner := .absorbing (padBytes (ushaBlockSize whichSha)
            (HmacObject.new whichSha (key.take keyLen.toNat)).key 0x36 ++
              text.take (unsignedOfInt textLen)) }) := by
    have hinner := step_input_all whichSha.digest _ text hless
    rw [HmacObject.step]
    exact Prod.ext (congrArg (fun r => ({ code := r.1.code } : Answer)) hinner)
      (congrArg (fun r => { HmacObject.new whichSha (key.take keyLen.toNat) with inner := r.2 }) hinner)
  rcases hmacReset_related ctx hwhich hlimit hkey leftover with ⟨ctx₁, hcall₁, hrelated₁⟩
  have hvalid : (HmacCall.input (some text) textLen).valid = true := decide_eq_true htext
  rcases hmacInput_related hrelated₁ hvalid with ⟨ctx₂, hcall₂, hrelated₂⟩
  rw [hstep] at hcall₂ hrelated₂
  rcases hmacResult_related hrelated₂ true leftover with ⟨ctx₃, hcall₃, -⟩
  rw [hmac, hcall₁]
  simp only [Option.map_some, orElse_ok, hcall₂, Option.bind_eq_bind, Option.bind_some]
  change (orElse (some (shaSuccess, _, _)) _).bind _ = _
  simp only [Option.map_some, orElse_ok, hcall₃, Option.bind_some]
  rw [← new_result whichSha, ← bitsOf_append]
  rfl

end

end SharedUtility.Sha
