import Mathlib.Tactic.IntervalCases
import SharedUtility.Sha.Standard

/-!
# Streaming — a context refines the hash object

* `Lawful`  — what is asked of the length counter of an algorithm,
* `Filled`  — the state after the whole blocks and the start of `Message_Block`,
* `Related` — a context stands for an object,
* `call_related` — one call of the interface answers as the object, within `Message_Block`.
-/

namespace SharedUtility.Sha

open BitStrings BlockStream

variable {L H : Type}

/-- Lengths below the limit are counted; the byte that reaches it is noticed. -/
structure Algorithm.Lawful (A : Algorithm L H) (limit : Nat) where
  value : L → Nat
  value_zero : value A.zeroLength = 0
  value_add : ∀ l n, n ≤ 8 → value l + n < limit →
    value (A.addLength l n).1 = value l + n ∧ (A.addLength l n).2 = false
  overflow : ∀ l, value l + 8 = limit → (A.addLength l 8).2 = true
  lengthBytes_eq : ∀ l, value l < limit → A.lengthBytes l = numberBytes A.lengthSize (value l)
  lengthSize_pos : 0 < A.lengthSize
  lengthSize_lt : A.lengthSize < A.blockSize
  limit_dvd : 8 ∣ limit
  limit_pos : 0 < limit

/-- `Message_Block` starts with `rest`. -/
structure Filled (A : Algorithm L H) (c : ShaContext L H) (b : Buffered H UInt8) : Prop where
  hash : c.intermediateHash = b.state
  index : c.messageBlockIndex = b.rest.length
  size : c.messageBlock.length = A.blockSize
  rest : c.messageBlock.take b.rest.length = b.rest

/-- The functions for the message block leave the rest of the context alone. -/
structure SameNotes (c c' : ShaContext L H) : Prop where
  length : c'.length = c.length
  computed : c'.computed = c.computed
  corrupted : c'.corrupted = c.corrupted

theorem SameNotes.refl (c : ShaContext L H) : SameNotes c c :=
  ⟨rfl, rfl, rfl⟩

theorem SameNotes.trans {c c' c'' : ShaContext L H} (h : SameNotes c c') (h' : SameNotes c' c'') :
    SameNotes c c'' :=
  ⟨h'.length.trans h.length, h'.computed.trans h.computed, h'.corrupted.trans h.corrupted⟩

namespace Algorithm

variable {A : Algorithm L H} {c : ShaContext L H} {b : Buffered H UInt8} {h0 : H} {limit : Nat}

/-- The start of `Message_Block`, one byte longer. -/
def longer (b : Buffered H UInt8) (bytes : Bytes) : Buffered H UInt8 :=
  { b with rest := b.rest ++ bytes }

/-! ## The message block -/

theorem filled_store (h : Filled A c b) (hless : b.rest.length < A.blockSize) (x : UInt8) :
    ∃ c', A.store c x = some c' ∧ Filled A c' (longer b [x]) ∧ SameNotes c c' := by
  have hindex : c.messageBlockIndex < A.blockSize := by rw [h.index]; exact hless
  have hlength : (longer b [x]).rest.length = b.rest.length + 1 := by
    rw [longer, List.length_append, List.length_singleton]
  refine ⟨_, if_pos hindex, ?_, ⟨rfl, rfl, rfl⟩⟩
  exact
    { hash := h.hash
      index := by rw [hlength, ← h.index]
      size := by rw [List.length_set, h.size]
      rest := by
        have hset : (c.messageBlock.set b.rest.length x)[b.rest.length]? = some x :=
          List.getElem?_set_self (by rw [h.size]; exact hless)
        rw [hlength, h.index, List.take_add_one, List.take_set_of_le (Nat.le_refl _), h.rest, hset]
        rfl }

theorem filled_storeZeros (h : Filled A c b) {n : Nat} (hless : b.rest.length + n ≤ A.blockSize) :
    ∃ c', A.storeZeros n c = some c' ∧ Filled A c' (longer b (List.replicate n 0)) ∧ SameNotes c c' := by
  induction n generalizing c b with
  | zero =>
    refine ⟨c, rfl, ?_, SameNotes.refl c⟩
    rw [longer, List.replicate_zero, List.append_nil]
    exact h
  | succ n ih =>
    rcases filled_store h (by omega) 0 with ⟨c₁, hstore, hfilled₁, hsame₁⟩
    have hless₁ : (longer b [0]).rest.length + n ≤ A.blockSize := by
      rw [longer, List.length_append, List.length_singleton]
      omega
    rcases ih hfilled₁ hless₁ with ⟨c₂, hzeros, hfilled₂, hsame₂⟩
    refine ⟨c₂, ?_, ?_, hsame₁.trans hsame₂⟩
    · rw [storeZeros, hstore]
      exact hzeros
    · rw [longer, longer, List.append_assoc, List.singleton_append] at hfilled₂
      rw [longer, List.replicate_succ]
      exact hfilled₂

theorem filled_process (h : Filled A c b) (hfull : b.rest.length = A.blockSize) :
    Filled A (A.process c) { state := A.processMessageBlock b.state b.rest, rest := [] } ∧
      SameNotes c (A.process c) := by
  have hblock : c.messageBlock = b.rest := by
    rw [← h.rest, hfull, ← h.size, List.take_length]
  refine ⟨⟨?_, rfl, h.size, rfl⟩, ⟨rfl, rfl, rfl⟩⟩
  rw [process, h.hash, hblock]

/-- A byte is stored, and the block is processed when it is full, as `feed` says. -/
theorem filled_feed (h : Filled A c b) (hless : b.rest.length < A.blockSize) (x : UInt8) :
    ∃ c', A.store c x = some c' ∧ SameNotes c c' ∧ c'.messageBlockIndex = b.rest.length + 1 ∧
      Filled A (if c'.messageBlockIndex = A.blockSize then A.process c' else c')
        (feed A.blockSize A.processMessageBlock b x) := by
  rcases filled_store h hless x with ⟨c', hstore, hfilled, hsame⟩
  have hindex : c'.messageBlockIndex = b.rest.length + 1 := by
    rw [hfilled.index, longer, List.length_append, List.length_singleton]
  refine ⟨c', hstore, hsame, hindex, ?_⟩
  unfold feed
  rw [hindex]
  split_ifs with hfull
  · refine (filled_process hfilled ?_).1
    rw [longer, List.length_append, List.length_singleton]
    exact hfull
  · exact hfilled

/-! ## The padding -/

/-- What `SHA…PadMessage` puts behind the message. -/
def tail (A : Algorithm L H) (r : Nat) (padByte : UInt8) (length : L) : Bytes :=
  padByte :: (List.replicate (zeroBytes A.blockSize A.lengthSize r) 0 ++ A.lengthBytes length)

theorem filled_lengthBlock (h : Filled A c b) (hlength : (A.lengthBytes c.length).length = A.lengthSize)
    (hpos : 0 < A.lengthSize) (hsize : A.lengthSize < A.blockSize)
    (hless : b.rest.length ≤ A.blockSize - A.lengthSize) :
    ∃ c', A.padTo (A.blockSize - A.lengthSize) c = some c' ∧ SameNotes c c' ∧
      Filled A (A.process (A.storeLength c')) (feedAll A.blockSize A.processMessageBlock b
        (List.replicate (A.blockSize - A.lengthSize - b.rest.length) 0 ++ A.lengthBytes c.length)) := by
  have hindex := h.index
  have hroom : b.rest.length + (A.blockSize - A.lengthSize - c.messageBlockIndex) ≤ A.blockSize := by omega
  rcases filled_storeZeros h hroom with ⟨c', hzeros, hfilled, hsame⟩
  refine ⟨c', hzeros, hsame, ?_⟩
  rw [h.index] at hfilled
  have hrest := hfilled.rest
  have hzeroed : (b.rest ++ List.replicate (A.blockSize - A.lengthSize - b.rest.length) 0).length =
      A.blockSize - A.lengthSize := by
    rw [List.length_append, List.length_replicate]
    omega
  rw [longer, hzeroed] at hrest
  have hblock : (A.storeLength c').messageBlock = b.rest ++
      (List.replicate (A.blockSize - A.lengthSize - b.rest.length) 0 ++ A.lengthBytes c.length) := by
    rw [storeLength, hrest, hsame.length, List.append_assoc]
  have hfull : b.rest.length + (List.replicate (A.blockSize - A.lengthSize - b.rest.length) 0 ++
      A.lengthBytes c.length).length = A.blockSize := by
    rw [List.length_append, List.length_replicate, hlength]
    omega
  have hne : List.replicate (A.blockSize - A.lengthSize - b.rest.length) 0 ++ A.lengthBytes c.length ≠ [] := by
    intro hnil
    rw [hnil, List.length_nil] at hfull
    omega
  rw [feedAll_full hfull hne]
  refine ⟨?_, rfl, ?_, rfl⟩
  · rw [process, hblock, storeLength, hfilled.hash]
    rfl
  · rw [process, hblock, List.length_append, hfull]

theorem filled_padMessage (h : Filled A c b) (hlength : (A.lengthBytes c.length).length = A.lengthSize)
    (hpos : 0 < A.lengthSize) (hsize : A.lengthSize < A.blockSize) (hless : b.rest.length < A.blockSize)
    (padByte : UInt8) :
    ∃ c', A.padMessage padByte c = some c' ∧ SameNotes c c' ∧
      Filled A c' (feedAll A.blockSize A.processMessageBlock b (A.tail b.rest.length padByte c.length)) := by
  rcases filled_store h hless padByte with ⟨c₁, hstore, hfilled₁, hsame₁⟩
  have hone : (longer b [padByte]).rest.length = b.rest.length + 1 := by
    rw [longer, List.length_append, List.length_singleton]
  unfold padMessage tail zeroBytes
  rw [h.index]
  by_cases hlate : b.rest.length ≥ A.blockSize - A.lengthSize
  case pos =>
    -- The byte with the mark bit is in the last block but one.
    have hroom : (longer b [padByte]).rest.length + (A.blockSize - c₁.messageBlockIndex) ≤ A.blockSize := by
      rw [hfilled₁.index]
      omega
    rcases filled_storeZeros hfilled₁ hroom with ⟨c₂, hzeros, hfilled₂, hsame₂⟩
    rw [hfilled₁.index, hone] at hfilled₂
    have hfull : (longer (longer b [padByte]) (List.replicate (A.blockSize - (b.rest.length + 1)) 0)).rest.length =
        A.blockSize := by
      rw [longer, List.length_append, hone, List.length_replicate]
      omega
    rcases filled_process hfilled₂ hfull with ⟨hfilled₃, hsame₃⟩
    have hsame := (hsame₁.trans hsame₂).trans hsame₃
    rcases filled_lengthBlock hfilled₃ (hsame.length ▸ hlength) hpos hsize (Nat.zero_le _) with
      ⟨c₄, hpad, hsame₄, hfilled₄⟩
    have hfirst : feedAll A.blockSize A.processMessageBlock b
        (padByte :: List.replicate (A.blockSize - (b.rest.length + 1)) 0) =
        { state := A.processMessageBlock b.state
            (longer (longer b [padByte]) (List.replicate (A.blockSize - (b.rest.length + 1)) 0)).rest,
          rest := [] } := by
      rw [feedAll_full _ (List.cons_ne_nil _ _), longer, longer, List.append_assoc, List.singleton_append]
      rw [List.length_cons, List.length_replicate]
      omega
    refine ⟨A.process (A.storeLength c₄), ?_, (hsame.trans hsame₄).trans ⟨rfl, rfl, rfl⟩, ?_⟩
    · rw [if_pos hlate, hstore]
      have hfirst : A.padTo A.blockSize c₁ = some c₂ := hzeros
      simp only [Option.bind_eq_bind, Option.bind_some, Option.pure_def, hfirst, hpad]
    · rw [if_pos hlate, List.replicate_add, List.append_assoc, ← List.cons_append, feedAll_append, hfirst]
      rw [hsame.length] at hfilled₄
      exact hfilled₄
  case neg =>
    have hroom : (longer b [padByte]).rest.length ≤ A.blockSize - A.lengthSize := by
      rw [hone]
      exact not_le.1 hlate
    rcases filled_lengthBlock hfilled₁ (hsame₁.length ▸ hlength) hpos hsize hroom with
      ⟨c₂, hpad, hsame₂, hfilled₂⟩
    refine ⟨A.process (A.storeLength c₂), ?_, (hsame₁.trans hsame₂).trans ⟨rfl, rfl, rfl⟩, ?_⟩
    · rw [if_neg hlate, hstore]
      simp only [Option.bind_eq_bind, Option.bind_some, Option.pure_def, hpad]
    · have hshort : b.rest.length + [padByte].length < A.blockSize := by
        rw [List.length_singleton]
        omega
      have hfirst : feedAll A.blockSize A.processMessageBlock b [padByte] = longer b [padByte] :=
        feedAll_short hshort
      rw [if_neg hlate, ← List.singleton_append, feedAll_append, hfirst, ← hone]
      rw [hsame₁.length] at hfilled₂
      exact hfilled₂

/-! ## The loop of Input -/

/-- The blocks of a message that has been given. -/
def absorbed (A : Algorithm L H) (h0 : H) (message : Bytes) : Buffered H UInt8 :=
  feedAll A.blockSize A.processMessageBlock { state := h0, rest := [] } message

end Algorithm

open Algorithm

variable {A : Algorithm L H} {limit : Nat} {law : A.Lawful limit} {h0 : H} {c : ShaContext L H}

/-- A context that still takes bytes, after those of the message. -/
structure Absorbing (law : A.Lawful limit) (h0 : H) (c : ShaContext L H) (message : Bytes) : Prop where
  filled : Filled A c (A.absorbed h0 message)
  length : law.value c.length = 8 * message.length
  short : 8 * message.length < limit
  computed : c.computed = false
  corrupted : c.corrupted = 0

/-- The context stands for the object. -/
def Related (law : A.Lawful limit) (h0 : H) (c : ShaContext L H) : HashObject → Prop
  | .absorbing message => Absorbing law h0 c message
  | .finished bits => c.computed = true ∧ c.corrupted = 0 ∧ c.intermediateHash =
      compressAll A.blockSize A.processMessageBlock h0 (bytesOf (padded A.blockSize A.lengthSize bits))
  | .broken code => c.corrupted = code ∧ code ≠ 0 ∧ (c.computed = true → code = shaStateError)

theorem Filled.notes {b : Buffered H UInt8} (h : Filled A c b) (length : L) (corrupted : Int) :
    Filled A { c with length, corrupted } b :=
  ⟨h.hash, h.index, h.size, h.rest⟩

section

variable {message : Bytes}

theorem blockSize_pos (law : A.Lawful limit) : 0 < A.blockSize :=
  Nat.zero_lt_of_lt law.lengthSize_lt

theorem absorbed_rest_lt (law : A.Lawful limit) (h0 : H) (message : Bytes) :
    (A.absorbed h0 message).rest.length < A.blockSize :=
  feedAll_rest_lt (blockSize_pos law) (blockSize_pos law)

theorem absorbed_rest_length (law : A.Lawful limit) (h0 : H) (message : Bytes) :
    (A.absorbed h0 message).rest.length = message.length % A.blockSize := by
  have hrest : ([] : Bytes).length < A.blockSize := blockSize_pos law
  rw [absorbed, feedAll_rest_length (blockSize_pos law) hrest, List.length_nil, Nat.zero_add]

theorem absorbed_concat (b : UInt8) :
    A.absorbed h0 (message ++ [b]) = feed A.blockSize A.processMessageBlock (A.absorbed h0 message) b :=
  feedAll_append

theorem Absorbing.room (h : Absorbing law h0 c message) : 8 * message.length + 8 ≤ limit := by
  rcases law.limit_dvd with ⟨bytes, hbytes⟩
  have hshort := h.short
  omega

theorem addLengthTo_short {n : Nat} (hn : n ≤ 8) (hless : law.value c.length + n < limit) :
    (A.addLengthTo c n).corrupted = 0 ∧
      law.value (A.addLengthTo c n).length = law.value c.length + n := by
  rcases law.value_add c.length n hn hless with ⟨hvalue, hover⟩
  refine ⟨?_, hvalue⟩
  rw [addLengthTo]
  exact if_neg (Bool.eq_false_iff.1 hover)

theorem Absorbing.byte (h : Absorbing law h0 c message) (b : UInt8) (bytes : Bytes)
    (hless : 8 * (message.length + 1) < limit) :
    ∃ c', Absorbing law h0 c' (message ++ [b]) ∧ A.inputLoop (b :: bytes) c = A.inputLoop bytes c' := by
  rcases filled_feed h.filled (absorbed_rest_lt law h0 message) b with ⟨c₁, hstore, hsame, -, hfilled⟩
  have hvalue : law.value c₁.length = 8 * message.length := by rw [hsame.length, h.length]
  have hroom : law.value c₁.length + 8 < limit := by
    rw [hvalue]
    exact hless
  rcases addLengthTo_short (Nat.le_refl 8) hroom with ⟨hgood, hadded⟩
  have hlength : law.value (A.addLengthTo c₁ 8).length = 8 * (message ++ [b]).length := by
    rw [hadded, hvalue, List.length_append, List.length_singleton]
    rfl
  have hshort : 8 * (message ++ [b]).length < limit := by
    rw [List.length_append, List.length_singleton]
    exact hless
  have hcomputed : c₁.computed = false := hsame.computed.trans h.computed
  rw [← absorbed_concat] at hfilled
  rw [inputLoop, if_neg (not_not.2 h.corrupted), hstore]
  simp only [Option.bind_eq_bind, Option.bind_some]
  by_cases hfull : c₁.messageBlockIndex = A.blockSize
  case pos =>
    rw [if_pos hfull] at hfilled
    rw [if_pos ⟨hgood, hfull⟩]
    exact ⟨A.process (A.addLengthTo c₁ 8), ⟨hfilled.notes _ _, hlength, hshort, hcomputed, hgood⟩, rfl⟩
  case neg =>
    rw [if_neg hfull] at hfilled
    rw [if_neg fun hboth => hfull hboth.2]
    exact ⟨A.addLengthTo c₁ 8, ⟨hfilled.notes _ _, hlength, hshort, hcomputed, hgood⟩, rfl⟩

theorem Absorbing.lastByte (h : Absorbing law h0 c message) (b : UInt8) (bytes : Bytes)
    (hlimit : ¬8 * (message.length + 1) < limit) :
    ∃ c', A.inputLoop (b :: bytes) c = some c' ∧ c'.corrupted = shaNull ∧ c'.computed = false := by
  rcases filled_feed h.filled (absorbed_rest_lt law h0 message) b with ⟨c₁, hstore, hsame, -, -⟩
  have hover : (A.addLengthTo c₁ 8).corrupted = 1 := by
    have hreached : law.value c₁.length + 8 = limit := by
      have hroom := h.room
      rw [hsame.length, h.length]
      omega
    rw [addLengthTo]
    exact if_pos (law.overflow c₁.length hreached)
  have hstop : (A.addLengthTo c₁ 8).corrupted ≠ 0 := by
    rw [hover]
    decide
  refine ⟨A.addLengthTo c₁ 8, ?_, hover, hsame.computed.trans h.computed⟩
  rw [inputLoop, if_neg (not_not.2 h.corrupted), hstore]
  simp only [Option.bind_eq_bind, Option.bind_some]
  rw [if_neg fun hboth => hstop hboth.1]
  cases bytes with
  | nil => rfl
  | cons b bytes => rw [inputLoop, if_pos hstop]

theorem Absorbing.loop (h : Absorbing law h0 c message) (bytes : Bytes) :
    ∃ c', A.inputLoop bytes c = some c' ∧
      if 8 * (message.length + bytes.length) < limit then Absorbing law h0 c' (message ++ bytes)
      else c'.corrupted = shaNull ∧ c'.computed = false := by
  induction bytes generalizing c message with
  | nil =>
    refine ⟨c, rfl, ?_⟩
    rw [List.length_nil, Nat.add_zero, if_pos h.short, List.append_nil]
    exact h
  | cons b bytes ih =>
    by_cases hless : 8 * (message.length + 1) < limit
    case pos =>
      rcases h.byte b bytes hless with ⟨c₁, hnext, hloop⟩
      rcases ih hnext with ⟨c', hbytes, hend⟩
      refine ⟨c', hloop.trans hbytes, ?_⟩
      rw [List.length_append, List.length_singleton, List.append_assoc, List.singleton_append,
        Nat.add_assoc, Nat.add_comm 1, ← List.length_cons] at hend
      exact hend
    case neg =>
      rcases h.lastByte b bytes hless with ⟨c', hloop, hcorrupted, hcomputed⟩
      refine ⟨c', hloop, ?_⟩
      rw [if_neg]
      · exact ⟨hcorrupted, hcomputed⟩
      · rw [List.length_cons]
        omega

/-! ## The end of the message -/

theorem numberBits_padByte {messageBits : UInt8} {length : Nat} (hlength : length < 8) :
    numberBits 8 ((messageBits &&& masks.getD length 0) ||| markbit.getD length 0).toNat =
      (numberBits 8 messageBits.toNat).take length ++ true :: List.replicate (7 - length) false := by
  have hall : ∀ length < 8, ∀ n < 256,
      numberBits 8 ((UInt8.ofNat n &&& masks.getD length 0) ||| markbit.getD length 0).toNat =
        (numberBits 8 n).take length ++ true :: List.replicate (7 - length) false := by
    decide +kernel
  have hbyte := hall length hlength messageBits.toNat messageBits.toNat_lt
  rw [UInt8.ofNat_toNat] at hbyte
  exact hbyte

theorem filled_finalize (hfilled : Filled A c (A.absorbed h0 message)) {padByte : UInt8} {last : List Bool}
    (hlength : law.value c.length = 8 * message.length + last.length) (hshort : law.value c.length < limit)
    (hcorrupted : c.corrupted = 0) (hlast : last.length < 8)
    (hbyte : numberBits 8 padByte.toNat = last ++ true :: List.replicate (7 - last.length) false) :
    ∃ c', A.finalize padByte c = some c' ∧ Related law h0 c' (.finished (bitsOf message ++ last)) := by
  have hbytes : A.lengthBytes c.length = numberBytes A.lengthSize (8 * message.length + last.length) := by
    rw [law.lengthBytes_eq c.length hshort, hlength]
  have hsize : (A.lengthBytes c.length).length = A.lengthSize := by rw [hbytes, length_numberBytes]
  rcases filled_padMessage hfilled hsize law.lengthSize_pos law.lengthSize_lt
    (absorbed_rest_lt law h0 message) padByte with ⟨c', hpad, hsame, hend⟩
  have hblocks : bytesOf (padded A.blockSize A.lengthSize (bitsOf message ++ last)) =
      message ++ A.tail (A.absorbed h0 message).rest.length padByte c.length := by
    rw [bytesOf_padded law.lengthSize_lt hlast hbyte, tail, absorbed_rest_length law, hbytes]
  have hdvd : A.blockSize ∣ (message ++ A.tail (A.absorbed h0 message).rest.length padByte c.length).length := by
    have hwhole := padded_dvd law.lengthSize_lt message.length
    rw [tail, absorbed_rest_length law, List.length_append, List.length_cons, List.length_append,
      List.length_replicate, hsize]
    convert hwhole using 1
    omega
  have hfed : feedAll A.blockSize A.processMessageBlock (A.absorbed h0 message)
        (A.tail (A.absorbed h0 message).rest.length padByte c.length) =
      { state := compressAll A.blockSize A.processMessageBlock h0
          (message ++ A.tail (A.absorbed h0 message).rest.length padByte c.length),
        rest := [] } :=
    feedAll_append.symm.trans (feedAll_parts (blockSize_pos law) hdvd)
  rw [hfed, ← hblocks] at hend
  refine ⟨{ c' with messageBlock := List.replicate A.blockSize 0, length := A.zeroLength, computed := true }, ?_,
    rfl, hsame.corrupted.trans hcorrupted, hend.hash⟩
  rw [finalize, hpad]
  rfl

end

/-! ## The interface -/

def Algorithm.call (A : Algorithm L H) (hashSize : Nat) (context : Option (ShaContext L H)) :
    Call → Option (Answer × Option (ShaContext L H))
  | .input messageArray length => do
    let r ← A.input context messageArray length
    some ({ code := r.1 }, r.2)
  | .finalBits messageBits length => do
    let r ← A.finalBits context messageBits length
    some ({ code := r.1 }, r.2)
  | .result messageDigest => do
    let r ← A.result hashSize context messageDigest
    some ({ code := r.1, digest := r.2.1 }, r.2.2)

section

variable {o : HashObject} (digest : List Bool → Bytes)

theorem input_related (h : Related law h0 c o) {messageArray : Option Bytes} {length : Nat}
    (hvalid : (Call.input messageArray length).valid = true) :
    ∃ c', A.input (some c) messageArray length =
        some ((o.step digest limit (.input messageArray length)).1.code, some c') ∧
      Related law h0 c' (o.step digest limit (.input messageArray length)).2 := by
  unfold input HashObject.step
  by_cases hzero : length = 0
  · simp only [if_pos hzero]
    exact ⟨c, rfl, h⟩
  simp only [if_neg hzero]
  rcases messageArray with _ | bytes
  · exact ⟨c, rfl, h⟩
  have hlength : length ≤ bytes.length := of_decide_eq_true hvalid
  rcases o with message | bits | code
  case finished =>
    rcases h with ⟨hcomputed, -, -⟩
    simp only [hcomputed, if_true]
    exact ⟨_, rfl, rfl, by decide, fun _ => rfl⟩
  case broken =>
    rcases h with ⟨rfl, hcode, hstate⟩
    by_cases hcomputed : c.computed = true
    · have hcorrupted := hstate hcomputed
      simp only [if_pos hcomputed, hcorrupted]
      exact ⟨_, rfl, rfl, by decide, fun _ => rfl⟩
    · simp only [if_neg hcomputed, if_pos hcode]
      exact ⟨c, rfl, rfl, hcode, hstate⟩
  case absorbing =>
    have hnot : ¬c.computed = true := Bool.eq_false_iff.1 h.computed
    simp only [if_neg hnot, if_neg (not_not.2 h.corrupted), if_pos hlength]
    rcases Absorbing.loop h (bytes.take length) with ⟨c', hloop, hend⟩
    rw [List.length_take_of_le hlength] at hend
    simp only [hloop, Option.bind_eq_bind, Option.bind_some]
    by_cases hless : 8 * (message.length + length) < limit
    · rw [if_pos hless] at hend ⊢
      exact ⟨c', rfl, hend⟩
    · rw [if_neg hless] at hend ⊢
      rcases hend with ⟨hcorrupted, hcomputed⟩
      exact ⟨c', rfl, hcorrupted, by decide, fun h => absurd h (Bool.eq_false_iff.1 hcomputed)⟩

theorem finalBits_related (h : Related law h0 c o) (messageBits : UInt8) (length : Nat) :
    ∃ c', A.finalBits (some c) messageBits length =
        some ((o.step digest limit (.finalBits messageBits length)).1.code, some c') ∧
      Related law h0 c' (o.step digest limit (.finalBits messageBits length)).2 := by
  unfold finalBits HashObject.step
  by_cases hzero : length = 0
  · simp only [if_pos hzero]
    exact ⟨c, rfl, h⟩
  simp only [if_neg hzero]
  by_cases hlarge : length ≥ 8
  · simp only [hlarge, true_or, or_true, if_true]
    exact ⟨_, rfl, rfl, by decide, fun _ => rfl⟩
  have hlength : length < 8 := not_le.1 hlarge
  simp only [if_neg hlarge]
  rcases o with message | bits | code
  case finished =>
    rcases h with ⟨hcomputed, -, -⟩
    simp only [hcomputed, true_or, if_true]
    exact ⟨_, rfl, rfl, by decide, fun _ => rfl⟩
  case broken =>
    rcases h with ⟨rfl, hcode, hstate⟩
    by_cases hcomputed : c.computed = true
    · have hcorrupted := hstate hcomputed
      simp only [hcomputed, true_or, if_true, hcorrupted]
      exact ⟨_, rfl, rfl, by decide, fun _ => rfl⟩
    · simp only [hcomputed, hlarge, hzero, or_self, if_pos hcode]
      exact ⟨c, rfl, rfl, hcode, hstate⟩
  case absorbing =>
    have hnot : ¬c.computed = true := Bool.eq_false_iff.1 h.computed
    simp only [hnot, hlarge, hzero, Bool.false_eq_true, or_self, if_false, if_neg (not_not.2 h.corrupted)]
    -- Eight more bits would fit, so that fewer do.
    have hless : law.value c.length + length < limit := by
      have hroom := h.room
      rw [h.length]
      omega
    rcases addLengthTo_short (le_of_lt hlength) hless with ⟨hcorrupted, hvalue⟩
    have hlast : ((numberBits 8 messageBits.toNat).take length).length = length := by
      rw [List.length_take, length_numberBits]
      omega
    rw [h.length] at hvalue
    have hshort : law.value (A.addLengthTo c length).length < limit := by
      rw [hvalue, ← h.length]
      exact hless
    have hfilled : Filled A (A.addLengthTo c length) (A.absorbed h0 message) := h.filled.notes _ _
    rcases filled_finalize hfilled (hvalue.trans (by rw [hlast])) hshort hcorrupted
      (by rw [hlast]; exact hlength) (by rw [hlast]; exact numberBits_padByte hlength) with ⟨c', hend, hrelated⟩
    refine ⟨c', ?_, hrelated⟩
    simp only [hend, Option.bind_eq_bind, Option.bind_some]

theorem result_related (h : Related law h0 c o) (hashSize : Nat) (messageDigest : Bool) :
    ∃ c', A.result hashSize (some c) messageDigest =
        some ((o.step (A.digest h0 hashSize) limit (.result messageDigest)).1.code,
          (o.step (A.digest h0 hashSize) limit (.result messageDigest)).1.digest, some c') ∧
      Related law h0 c' (o.step (A.digest h0 hashSize) limit (.result messageDigest)).2 := by
  unfold result HashObject.step
  by_cases hnull : messageDigest = false
  · simp only [if_pos hnull]
    exact ⟨c, rfl, h⟩
  simp only [if_neg hnull]
  rcases o with message | bits | code
  case finished =>
    rcases h with ⟨hcomputed, hcorrupted, hhash⟩
    simp only [if_neg (not_not.2 hcorrupted), if_pos hcomputed, Option.pure_def, Option.bind_eq_bind,
      Option.bind_some, hhash]
    exact ⟨c, rfl, hcomputed, hcorrupted, hhash⟩
  case broken =>
    rcases h with ⟨rfl, hcode, hstate⟩
    simp only [if_pos hcode]
    exact ⟨c, rfl, rfl, hcode, hstate⟩
  case absorbing =>
    have hnot : ¬c.computed = true := Bool.eq_false_iff.1 h.computed
    have hmark : numberBits 8 (0x80 : UInt8).toNat =
        ([] : List Bool) ++ true :: List.replicate (7 - ([] : List Bool).length) false := by
      decide
    have hshort : law.value c.length < limit := by
      rw [h.length]
      exact h.short
    rcases filled_finalize h.filled h.length hshort h.corrupted (by decide) hmark with ⟨c', hend, hrelated⟩
    rw [List.append_nil] at hrelated
    simp only [if_neg (not_not.2 h.corrupted), if_neg hnot, hend, Option.bind_eq_bind, Option.bind_some,
      hrelated.2.2]
    exact ⟨c', rfl, hrelated⟩

theorem step_digest (o : HashObject) (call : Call) (hcall : ∀ messageDigest, call ≠ .result messageDigest) :
    { code := (o.step digest limit call).1.code } = (o.step digest limit call).1 := by
  cases call with
  | input messageArray length =>
    unfold HashObject.step
    rcases messageArray with _ | bytes <;> rcases o with message | bits | code <;> dsimp only <;>
      split_ifs <;> rfl
  | finalBits messageBits length =>
    unfold HashObject.step
    rcases o with message | bits | code <;> dsimp only <;> split_ifs <;> rfl
  | result messageDigest => exact absurd rfl (hcall messageDigest)

/-- One call answers as the object does, and nothing is stored outside of the message block. -/
theorem call_related (h : Related law h0 c o) (hashSize : Nat) (call : Call) (hvalid : call.valid = true) :
    ∃ c', A.call hashSize (some c) call = some ((o.step (A.digest h0 hashSize) limit call).1, some c') ∧
      Related law h0 c' (o.step (A.digest h0 hashSize) limit call).2 := by
  cases call with
  | input messageArray length =>
    rcases input_related (A.digest h0 hashSize) h hvalid with ⟨c', hcall, hrelated⟩
    refine ⟨c', ?_, hrelated⟩
    rw [call, hcall, Option.bind_eq_bind, Option.bind_some, step_digest _ _ _ fun _ => Call.noConfusion]
  | finalBits messageBits length =>
    rcases finalBits_related (A.digest h0 hashSize) h messageBits length with ⟨c', hcall, hrelated⟩
    refine ⟨c', ?_, hrelated⟩
    rw [call, hcall, Option.bind_eq_bind, Option.bind_some, step_digest _ _ _ fun _ => Call.noConfusion]
  | result messageDigest =>
    rcases result_related h hashSize messageDigest with ⟨c', hcall, hrelated⟩
    refine ⟨c', ?_, hrelated⟩
    rw [call, hcall]
    rfl

theorem reset_related (law : A.Lawful limit) (h0 : H) (hsize : c.messageBlock.length = A.blockSize) :
    ∃ c', A.reset h0 (some c) = (shaSuccess, some c') ∧ Related law h0 c' (.absorbing []) :=
  ⟨_, rfl, ⟨rfl, rfl, hsize, rfl⟩, law.value_zero, law.limit_pos, rfl, rfl⟩

end

end SharedUtility.Sha
