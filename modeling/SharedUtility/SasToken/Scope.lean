import SharedUtility.SasToken.Scan

/-!
# Scope — the scope of a created token, as the validator reads it

The scope stands between `sr=` and `&sig=`.  It is read as it was written unless a field name occurs
in it in one of the ways that `readsScope` excludes; then the token is rejected whatever follows.
-/

namespace SharedUtility.SasToken

/-- A blank or an ampersand. -/
def isSeparator (c : UInt8) : Bool :=
  c == 0x20 || c == 0x26

/-- What may stand behind a separator and `sig=` in a scope: neither `sr=`, nor `se=` behind a
separator.  `prev` is the character before. -/
def readsBehindSig : (prev : UInt8) → Bytes → Bool
  | _, [] => true
  | prev, c :: rest =>
    if (ascii "se=").isPrefixOf (c :: rest) && isSeparator prev then false
    else if (ascii "sr=").isPrefixOf (c :: rest) then false
    else readsBehindSig c rest

/-- What may stand behind `sr=`: no `se=` behind a separator, and at least two characters (one before
a blank) from the last `sr=` to the first separator with `sig=` behind it, or to the end.  `value`
counts these characters, the separator included. -/
def readsScopeFrom : (value : Int) → (prev : UInt8) → Bytes → Bool
  | value, _, [] => 2 ≤ value
  | value, prev, c :: rest =>
    if (ascii "se=").isPrefixOf (c :: rest) && isSeparator prev then false
    else if (ascii "sr=").isPrefixOf (c :: rest) then readsScopeFrom (-2) c rest
    else if (ascii "sig=").isPrefixOf (c :: rest) && isSeparator prev then
      (if prev = 0x20 then 2 else 3) ≤ value && readsBehindSig c rest
    else readsScopeFrom (value + 1) c rest

def readsScope (scope : Bytes) : Bool :=
  readsScopeFrom 0 0x3D scope

theorem isPrefixOf_name_of_no_equals {name text : Bytes} (hname : name ∈ fieldNames)
    (htext : 0x3D ∉ text) : name.isPrefixOf text = false := by
  have hnone := startsName_eq_false.1 (startsName_of_no_equals htext) name hname
  rw [← List.isPrefixOf_iff_prefix] at hnone
  exact Bool.eq_false_iff.2 hnone

theorem readsScopeFrom_of_no_equals {scope : Bytes} (h : 0x3D ∉ scope) (value : Int)
    (prev : UInt8) : readsScopeFrom value prev scope = decide (2 ≤ value + scope.length) := by
  induction scope generalizing value prev with
  | nil => simp [readsScopeFrom]
  | cons c rest ih =>
    have hse : (ascii "se=").isPrefixOf (c :: rest) = false :=
      isPrefixOf_name_of_no_equals (by decide) h
    have hsr : (ascii "sr=").isPrefixOf (c :: rest) = false :=
      isPrefixOf_name_of_no_equals (by decide) h
    have hsig : (ascii "sig=").isPrefixOf (c :: rest) = false :=
      isPrefixOf_name_of_no_equals (by decide) h
    have hrest := ih (fun hmem => h (List.mem_cons_of_mem c hmem)) (value + 1) c
    simp only [readsScopeFrom, hse, hsr, hsig, Bool.false_and, Bool.false_eq_true, if_false,
      hrest, List.length_cons]
    congr 1
    apply propext
    omega

theorem readsScope_of_no_equals {scope : Bytes} (h : 0x3D ∉ scope) (hlength : 2 ≤ scope.length) :
    readsScope scope = true := by
  rw [readsScope, readsScopeFrom_of_no_equals h]
  simp only [decide_eq_true_eq]
  omega

/-! ## Behind the scope -/

/-- The fields at `i`, behind the `sig=` that follows the scope. -/
def ScopeRead (i : Nat) (fields : Fields) : Bool → Prop
  | true => ∃ start stop : Int, 0 ≤ start ∧ start < stop ∧ stop < i ∧
      fields = { sr := ⟨start, stop⟩, sig := ⟨i, -1⟩ }
  | false => Doomed i fields

section

variable {i : Nat} {prev : UInt8} {text tail : Bytes} {fields : Fields}

/-- The text behind the scope, up to the signature. -/
def sigBegins (tail : Bytes) : Bytes :=
  0x26 :: 0x73 :: 0x69 :: 0x67 :: 0x3D :: tail

/-- What follows the scope takes no part in the rounds over it. -/
theorem scanText_scope_cons {c : UInt8} :
    scanText i prev (c :: text ++ sigBegins tail) fields =
      scanText (i + 1) c (text ++ sigBegins tail) (scanAt i prev (c :: text) fields) := by
  have hname : ∀ name ∈ fieldNames,
      name.isPrefixOf (c :: text ++ sigBegins tail) = name.isPrefixOf (c :: text) :=
    fun _ hname => isPrefixOf_append_separator hname (.inl rfl)
  have hscan : scanAt i prev (c :: text ++ sigBegins tail) fields =
      scanAt i prev (c :: text) fields := by
    simp only [scanAt, hname _ (show ascii "se=" ∈ fieldNames by decide),
      hname _ (show ascii "sr=" ∈ fieldNames by decide),
      hname _ (show ascii "sig=" ∈ fieldNames by decide)]
  rw [← hscan]
  exact scanText_cons

/-- The round at the `s` of `sig=`, and the three behind it. -/
theorem scanText_sigBegins :
    scanText i prev (sigBegins tail) fields =
      scanText (i + 5) 0x3D tail
        (scanAt (i + 1) 0x26 (0x73 :: 0x69 :: 0x67 :: 0x3D :: tail) fields) := by
  simp only [sigBegins, scanText_cons]
  simp (disch := decide) only [scanAt_of_ne]

/-- What has to be known before the `sig=` for the token to be rejected. -/
def Lost (i : Nat) (fields : Fields) : Prop :=
  2 ≤ i ∧ (SeOpen fields ∨ Doomed i fields)

theorem Lost.scanAt {rest : Bytes} (h : Lost i fields) :
    Lost (i + 1) (SasToken.scanAt i prev rest fields) := by
  refine ⟨Nat.le_succ_of_le h.1, ?_⟩
  rcases h.2 with hopen | hdoomed
  · exact hopen.scanAt h.1
  · exact .inr hdoomed.scanAt

theorem Doomed.later {n : Nat} (h : Doomed i fields) : Doomed (i + n) fields := by
  rcases h with ⟨hstopped, hbefore⟩ | h
  · exact .inl ⟨hstopped, by omega⟩
  · exact .inr ⟨h.stopped, by have := h.before; omega, h.order⟩

theorem Lost.scanText_scope (h : Lost i fields) :
    ∃ fields', ScopeRead (i + text.length + 5) fields' false ∧
      scanText i prev (text ++ sigBegins tail) fields =
        scanText (i + text.length + 5) 0x3D tail fields' := by
  rcases scanText_invariant (P := Lost) (p := prev) (t := text) (u := sigBegins tail)
    (fun _ _ _ _ h => h.scanAt) h with ⟨fields', h', hscan⟩
  rw [scanText_sigBegins] at hscan
  refine ⟨_, ?_, hscan⟩
  have hi : 2 ≤ i + text.length + 1 := Nat.le_succ_of_le h'.1
  have hdoomed : Doomed (i + text.length + 1 + 1) (SasToken.scanAt (i + text.length + 1) 0x26
      (0x73 :: 0x69 :: 0x67 :: 0x3D :: tail) fields') := by
    rcases h'.2 with hopen | hdoomed
    · exact hopen.doomed hi rfl rfl rfl
    · exact (hdoomed.later (n := 1)).scanAt
  exact hdoomed.later (n := 3)

theorem names_exclusive :
    ((ascii "se=").isPrefixOf text = true →
      (ascii "sr=").isPrefixOf text = false ∧ (ascii "sig=").isPrefixOf text = false) ∧
    ((ascii "sr=").isPrefixOf text = true → (ascii "sig=").isPrefixOf text = false) := by
  cases text with
  | nil => exact ⟨nofun, nofun⟩
  | cons c rest =>
    cases rest with
    | nil => exact ⟨by simp [ascii, List.isPrefixOf], by simp [ascii, List.isPrefixOf]⟩
    | cons c' rest =>
      simp only [show ascii "se=" = [0x73, 0x65, 0x3D] from rfl,
        show ascii "sr=" = [0x73, 0x72, 0x3D] from rfl,
        show ascii "sig=" = [0x73, 0x69, 0x67, 0x3D] from rfl, List.isPrefixOf,
        Bool.and_eq_true, beq_iff_eq]
      constructor
      · rintro ⟨-, rfl, -⟩
        simp
      · rintro ⟨-, rfl, -⟩
        simp

theorem stopBefore_of_separator (h : isSeparator prev = true) :
    stopBefore i prev = some (if prev = 0x20 then (i : Int) - 1 else i - 2) := by
  simp only [isSeparator, Bool.or_eq_true, beq_iff_eq] at h
  rcases h with rfl | rfl
  · rfl
  · rfl

theorem stopBefore_of_no_separator (h : isSeparator prev = false) : stopBefore i prev = none := by
  simp only [isSeparator, Bool.or_eq_false_iff, beq_eq_false_iff_ne] at h
  simp [stopBefore, h.1, h.2]

/-- Behind a separator and `sig=`: the value of `sr` has stopped, the one of `sig` has started. -/
theorem scanText_behindSig {start stop sigStart : Int} (hstart : 0 ≤ start) (horder : start < stop)
    (hstop : stop < i) (hsigStart : 0 < sigStart) :
    ∃ fields', ScopeRead (i + text.length + 5) fields' (readsBehindSig prev text) ∧
      scanText i prev (text ++ sigBegins tail) { sr := ⟨start, stop⟩, sig := ⟨sigStart, -1⟩ } =
        scanText (i + text.length + 5) 0x3D tail fields' := by
  have hsrClosed : (⟨start, stop⟩ : Field).isOpen = false :=
    isOpen_of_stopped (by dsimp only; omega)
  have hseClosed : ({} : Field).isOpen = false := rfl
  induction text generalizing i prev sigStart with
  | nil =>
    refine ⟨_, ?_, scanText_sigBegins⟩
    have hscan : scanAt (i + 1) 0x26 (0x73 :: 0x69 :: 0x67 :: 0x3D :: tail)
        { sr := ⟨start, stop⟩, sig := ⟨sigStart, -1⟩ } =
        { sr := ⟨start, stop⟩, sig := ⟨((i + 5 : Nat) : Int), -1⟩ } := by
      have hend : ((i + 1 : Nat) : Int) + 4 = (i + 5 : Nat) := by omega
      show Fields.mk _ _ _ = _
      simp only [startField, hsrClosed, hseClosed, Bool.false_eq_true, if_false, hend]
    rw [hscan]
    exact ⟨start, stop, hstart, horder, by simp only [List.length_nil]; omega, rfl⟩
  | cons c rest ih =>
    have hsigOpen : (⟨sigStart, -1⟩ : Field).isOpen = true := isOpen_of_started hsigStart
    have hlength : i + (c :: rest).length + 5 = i + 1 + rest.length + 5 := by
      simp only [List.length_cons]
      omega
    rw [scanText_scope_cons, hlength]
    by_cases hse : (ascii "se=").isPrefixOf (c :: rest) = true
    · have hothers := names_exclusive.1 hse
      cases hsep : isSeparator prev with
      | true =>
        -- The value of `sig` stops, and `se` is open before the real `sig=`.
        have hlost : Lost (i + 1) (scanAt i prev (c :: rest)
            { sr := ⟨start, stop⟩, sig := ⟨sigStart, -1⟩ }) := by
          refine ⟨by omega, .inl ?_⟩
          simp only [scanAt, hse, if_true, startField, hsrClosed, hsigOpen,
            stopBefore_of_separator hsep, Bool.false_eq_true, if_false]
          refine ⟨isOpen_of_started (by omega), hsrClosed, isOpen_of_stopped ?_⟩
          dsimp only
          split
          · omega
          · omega
        have hreads : readsBehindSig prev (c :: rest) = false := by
          simp [readsBehindSig, hse, hsep]
        rw [hreads]
        exact hlost.scanText_scope
      | false =>
        have hscan : scanAt i prev (c :: rest)
            { sr := ⟨start, stop⟩, sig := ⟨sigStart, -1⟩ } =
            { sr := ⟨start, stop⟩, sig := ⟨sigStart, -1⟩ } := by
          simp only [scanAt, hse, if_true, startField, hsrClosed, hsigOpen,
            stopBefore_of_no_separator hsep, Bool.false_eq_true, if_false]
        have hreads : readsBehindSig prev (c :: rest) = readsBehindSig c rest := by
          simp [readsBehindSig, hsep, hothers.1]
        rw [hscan, hreads]
        exact ih (by omega) hsigStart
    have hse := Bool.eq_false_iff.2 hse
    by_cases hsr : (ascii "sr=").isPrefixOf (c :: rest) = true
    · -- The value of `sr` starts again, behind its stop.
      have hbad : Bad (i + 1) (scanAt i prev (c :: rest)
          { sr := ⟨start, stop⟩, sig := ⟨sigStart, -1⟩ }).sr := by
        simp only [scanAt, hse, hsr, if_true, Bool.false_eq_true, if_false]
        exact bad_startField (by dsimp only; omega) hstop (by omega)
      have hreads : readsBehindSig prev (c :: rest) = false := by
        simp [readsBehindSig, hse, hsr]
      rw [hreads]
      exact Lost.scanText_scope ⟨by omega, .inr (.inr hbad)⟩
    have hsr := Bool.eq_false_iff.2 hsr
    have hreads : readsBehindSig prev (c :: rest) = readsBehindSig c rest := by
      simp [readsBehindSig, hse, hsr]
    rw [hreads]
    by_cases hsig : (ascii "sig=").isPrefixOf (c :: rest) = true
    · have hscan : scanAt i prev (c :: rest)
          { sr := ⟨start, stop⟩, sig := ⟨sigStart, -1⟩ } =
          { sr := ⟨start, stop⟩, sig := ⟨i + 4, -1⟩ } := by
        simp only [scanAt, hse, hsr, hsig, if_true, Bool.false_eq_true,
          if_false, startField, hsrClosed, hseClosed]
      rw [hscan]
      exact ih (by omega) (by omega)
    · have hsig := Bool.eq_false_iff.2 hsig
      have hscan : scanAt i prev (c :: rest)
          { sr := ⟨start, stop⟩, sig := ⟨sigStart, -1⟩ } =
          { sr := ⟨start, stop⟩, sig := ⟨sigStart, -1⟩ } := by
        simp only [scanAt, hse, hsr, hsig, Bool.false_eq_true, if_false]
      rw [hscan]
      exact ih (by omega) hsigStart

/-- Behind `sr=`: only the value of `sr` has started. -/
theorem scanText_scopeFrom {start : Int} (hi : 2 ≤ i) (hstart : 0 < start) :
    ∃ fields', ScopeRead (i + text.length + 5) fields' (readsScopeFrom (i - start) prev text) ∧
      scanText i prev (text ++ sigBegins tail) { sr := ⟨start, -1⟩ } =
        scanText (i + text.length + 5) 0x3D tail fields' := by
  have hseClosed : ({} : Field).isOpen = false := rfl
  induction text generalizing i prev start with
  | nil =>
    have hsrOpen : (⟨start, -1⟩ : Field).isOpen = true := isOpen_of_started hstart
    refine ⟨_, ?_, scanText_sigBegins⟩
    have hscan : scanAt (i + 1) 0x26 (0x73 :: 0x69 :: 0x67 :: 0x3D :: tail)
        { sr := ⟨start, -1⟩ } =
        { sr := ⟨start, i - 1⟩, sig := ⟨((i + 5 : Nat) : Int), -1⟩ } := by
      have hend : ((i + 1 : Nat) : Int) + 4 = (i + 5 : Nat) := by omega
      have hstop : ((i + 1 : Nat) : Int) - 2 = i - 1 := by omega
      show Fields.mk _ _ _ = _
      simp only [startField, hsrOpen, if_true, stopBefore_of_separator
        (show isSeparator 0x26 = true from rfl), hend]
      simp only [show ((0x26 : UInt8) = 0x20) = False by decide, if_false, hstop]
    rw [hscan, readsScopeFrom]
    by_cases hvalue : 2 ≤ (i : Int) - start
    · rw [decide_eq_true hvalue]
      exact ⟨start, i - 1, by omega, by omega, by simp only [List.length_nil]; omega, rfl⟩
    · rw [decide_eq_false hvalue]
      refine .inr ⟨?_, ?_, .inr ?_⟩
      · dsimp only
        omega
      · dsimp only [List.length_nil]
        omega
      · dsimp only
        omega
  | cons c rest ih =>
    have hsrOpen : (⟨start, -1⟩ : Field).isOpen = true := isOpen_of_started hstart
    have hlength : i + (c :: rest).length + 5 = i + 1 + rest.length + 5 := by
      simp only [List.length_cons]
      omega
    have hnext : ((i + 1 : Nat) : Int) - start = i - start + 1 := by omega
    rw [scanText_scope_cons, hlength]
    by_cases hse : (ascii "se=").isPrefixOf (c :: rest) = true
    · have hothers := names_exclusive.1 hse
      cases hsep : isSeparator prev with
      | true =>
        have hlost : Lost (i + 1) (scanAt i prev (c :: rest)
            { sr := ⟨start, -1⟩ }) := by
          refine ⟨by omega, .inl ?_⟩
          simp only [scanAt, hse, if_true, startField, hsrOpen,
            stopBefore_of_separator hsep]
          refine ⟨isOpen_of_started (by omega), isOpen_of_stopped ?_, hseClosed⟩
          dsimp only
          split
          · omega
          · omega
        have hreads : readsScopeFrom (i - start) prev (c :: rest) = false := by
          simp [readsScopeFrom, hse, hsep]
        rw [hreads]
        exact hlost.scanText_scope
      | false =>
        have hscan : scanAt i prev (c :: rest) { sr := ⟨start, -1⟩ } =
            { sr := ⟨start, -1⟩ } := by
          simp only [scanAt, hse, if_true, startField, hsrOpen,
            stopBefore_of_no_separator hsep]
        have hreads : readsScopeFrom (i - start) prev (c :: rest) =
            readsScopeFrom (i - start + 1) c rest := by
          simp [readsScopeFrom, hsep, hothers.1]
        rw [hscan, hreads, ← hnext]
        exact ih (by omega) hstart
    have hse := Bool.eq_false_iff.2 hse
    by_cases hsr : (ascii "sr=").isPrefixOf (c :: rest) = true
    · have hscan : scanAt i prev (c :: rest) { sr := ⟨start, -1⟩ } =
          { sr := ⟨i + 3, -1⟩ } := by
        simp only [scanAt, hse, hsr, if_true, Bool.false_eq_true, if_false,
          startField, hseClosed]
      have hrestart : ((i + 1 : Nat) : Int) - (i + 3) = -2 := by omega
      have hreads : readsScopeFrom (i - start) prev (c :: rest) = readsScopeFrom (-2) c rest := by
        simp [readsScopeFrom, hse, hsr]
      rw [hscan, hreads, ← hrestart]
      exact ih (by omega) (by omega)
    have hsr := Bool.eq_false_iff.2 hsr
    by_cases hsig : (ascii "sig=").isPrefixOf (c :: rest) = true
    · cases hsep : isSeparator prev with
      | true =>
        -- The value of `sr` stops before the separator.
        have hscan : scanAt i prev (c :: rest) { sr := ⟨start, -1⟩ } =
            { sr := ⟨start, if prev = 0x20 then (i : Int) - 1 else i - 2⟩,
              sig := ⟨i + 4, -1⟩ } := by
          simp only [scanAt, hse, hsr, hsig, if_true, Bool.false_eq_true,
            if_false, startField, hsrOpen, stopBefore_of_separator hsep]
        have hreads : readsScopeFrom (i - start) prev (c :: rest) =
            ((if prev = 0x20 then 2 else 3) ≤ (i : Int) - start && readsBehindSig c rest) := by
          simp [readsScopeFrom, hse, hsr, hsig, hsep]
        rw [hscan, hreads]
        generalize hstop : (if prev = 0x20 then (i : Int) - 1 else i - 2) = stop
        have hbefore : 0 ≤ stop ∧ stop < i := by
          rw [← hstop]
          split
          · omega
          · omega
        have hvalue : (if prev = 0x20 then (2 : Int) else 3) ≤ i - start ↔ start < stop := by
          rw [← hstop]
          split
          · omega
          · omega
        by_cases horder : start < stop
        · rw [decide_eq_true (hvalue.2 horder), Bool.true_and]
          exact scanText_behindSig (by omega) horder (by omega) (by omega)
        · rw [decide_eq_false (mt hvalue.1 horder), Bool.false_and]
          refine Lost.scanText_scope ⟨by omega, .inr (.inr ⟨hbefore.1, ?_, .inr ?_⟩)⟩
          · dsimp only
            omega
          · dsimp only
            omega
      | false =>
        have hscan : scanAt i prev (c :: rest) { sr := ⟨start, -1⟩ } =
            { sr := ⟨start, -1⟩ } := by
          simp only [scanAt, hse, hsr, hsig, if_true, Bool.false_eq_true,
            if_false, startField, hsrOpen, stopBefore_of_no_separator hsep]
        have hreads : readsScopeFrom (i - start) prev (c :: rest) =
            readsScopeFrom (i - start + 1) c rest := by
          simp [readsScopeFrom, hse, hsr, hsep]
        rw [hscan, hreads, ← hnext]
        exact ih (by omega) hstart
    · have hsig := Bool.eq_false_iff.2 hsig
      have hscan : scanAt i prev (c :: rest) { sr := ⟨start, -1⟩ } =
          { sr := ⟨start, -1⟩ } := by
        simp only [scanAt, hse, hsr, hsig, Bool.false_eq_true, if_false]
      have hreads : readsScopeFrom (i - start) prev (c :: rest) =
          readsScopeFrom (i - start + 1) c rest := by
        simp [readsScopeFrom, hse, hsr, hsig]
      rw [hscan, hreads, ← hnext]
      exact ih (by omega) hstart

theorem scanText_scope (i : Nat) (text tail : Bytes) (hi : 2 ≤ i) :
    ∃ fields', ScopeRead (i + text.length + 5) fields' (readsScope text) ∧
      scanText i 0x3D (text ++ sigBegins tail) { sr := ⟨i, -1⟩ } =
        scanText (i + text.length + 5) 0x3D tail fields' := by
  have hscan : ∃ fields', ScopeRead (i + text.length + 5) fields'
        (readsScopeFrom (i - i) 0x3D text) ∧
      scanText i 0x3D (text ++ sigBegins tail) { sr := ⟨i, -1⟩ } =
        scanText (i + text.length + 5) 0x3D tail fields' :=
    scanText_scopeFrom hi (by omega)
  rwa [Int.sub_self] at hscan

end

end SharedUtility.SasToken
