import Mathlib.Logic.Function.Basic
import SharedUtility.SasToken.Scan

/-!
# Layout — the tokens that the validator accepts

The loop of the validator is a fold over the places where a field name occurs.  It accepts a token
only if these places fall into three groups, one for each name: `accepted_iff_layout`.

* a group ends at the first separated occurrence of a name that has no group yet,
* the value of a name starts behind the last occurrence of the name in its group.
-/

namespace SharedUtility.SasToken

/-! ## Occurrences of the field names -/

inductive FieldName where
  | se
  | sr
  | sig
  deriving DecidableEq, Repr

def FieldName.text : FieldName → Bytes
  | .se => ascii "se="
  | .sr => ascii "sr="
  | .sig => ascii "sig="

/-- The field name that starts here. -/
def nameAt (rest : Bytes) : Option FieldName :=
  if (ascii "se=").isPrefixOf rest then some .se
  else if (ascii "sr=").isPrefixOf rest then some .sr
  else if (ascii "sig=").isPrefixOf rest then some .sig
  else none

/-- A field name in the token, and the character before it. -/
structure Occurrence where
  name : FieldName
  position : Nat
  prev : UInt8
  deriving DecidableEq, Repr

/-- A blank or an ampersand stands before the name. -/
def Occurrence.separated (occurrence : Occurrence) : Bool :=
  occurrence.prev == 0x20 || occurrence.prev == 0x26

/-- Where the value behind the name starts. -/
def Occurrence.valueStart (occurrence : Occurrence) : Nat :=
  occurrence.position + occurrence.name.text.length

/-- Where the value before a separated name stops: before the blank, or two characters before the
name if it is an ampersand. -/
def Occurrence.stopsAt (occurrence : Occurrence) : Int :=
  if occurrence.prev = 0x20 then occurrence.position - 1 else occurrence.position - 2

/-- The field names that start at the next `n` characters. -/
def occurrencesFrom : (n i : Nat) → (prev : UInt8) → (rest : Bytes) → List Occurrence
  | 0, _, _, _ => []
  | n + 1, i, prev, rest =>
    match nameAt rest with
    | some name => ⟨name, i, prev⟩ :: occurrencesFrom n (i + 1) (rest.getD 0 0) (rest.drop 1)
    | none => occurrencesFrom n (i + 1) (rest.getD 0 0) (rest.drop 1)

/-- The characters of the token that the loop looks at. -/
def scannedLength (token : Bytes) : Nat :=
  (intOfLength token.length).toNat

def occurrences (token : Bytes) : List Occurrence :=
  occurrencesFrom (scannedLength token) 0 0 token

theorem text_prefix_of_nameAt {rest : Bytes} {name : FieldName} (h : nameAt rest = some name) :
    name.text <+: rest := by
  unfold nameAt at h
  split at h
  · cases h
    exact List.isPrefixOf_iff_prefix.1 ‹_›
  split at h
  · cases h
    exact List.isPrefixOf_iff_prefix.1 ‹_›
  split at h
  · cases h
    exact List.isPrefixOf_iff_prefix.1 ‹_›
  · cases h

theorem nameAt_drop_one {rest : Bytes} {name : FieldName} (h : nameAt rest = some name) :
    nameAt (rest.drop 1) = none := by
  have hsecond : ∀ c tail, c ≠ 0x73 → nameAt (c :: tail) = none := by
    intro c tail hc
    have hnone := startsName_eq_false.1
      (show startsName (c :: tail) = false from startsName_cons_of_ne hc)
    simp only [nameAt, List.isPrefixOf_iff_prefix]
    rw [if_neg (hnone _ (by decide)), if_neg (hnone _ (by decide)), if_neg (hnone _ (by decide))]
  rcases text_prefix_of_nameAt h with ⟨tail, rfl⟩
  cases name with
  | se => exact hsecond 0x65 _ (by decide)
  | sr => exact hsecond 0x72 _ (by decide)
  | sig => exact hsecond 0x69 _ (by decide)

/-- The positions increase, by at least the two characters that a separator needs. -/
def Ascending : List Occurrence → Prop :=
  List.Pairwise fun first second => first.position + 2 ≤ second.position

theorem le_position_of_mem {n i : Nat} {prev : UInt8} {rest : Bytes} {o : Occurrence}
    (h : o ∈ occurrencesFrom n i prev rest) : i ≤ o.position := by
  induction n generalizing i prev rest with
  | zero => cases h
  | succ n ih =>
    rw [occurrencesFrom] at h
    split at h
    · rcases List.mem_cons.1 h with rfl | h
      · exact Nat.le_refl i
      · exact Nat.le_of_succ_le (ih h)
    · exact Nat.le_of_succ_le (ih h)

theorem lt_position_of_mem {n i : Nat} {prev : UInt8} {rest : Bytes} {o : Occurrence}
    (hnone : nameAt rest = none) (h : o ∈ occurrencesFrom n i prev rest) : i < o.position := by
  cases n with
  | zero => cases h
  | succ n =>
    rw [occurrencesFrom, hnone] at h
    exact le_position_of_mem h

theorem ascending_occurrencesFrom {n i : Nat} {prev : UInt8} {rest : Bytes} :
    Ascending (occurrencesFrom n i prev rest) := by
  induction n generalizing i prev rest with
  | zero => exact List.Pairwise.nil
  | succ n ih =>
    rw [occurrencesFrom]
    split
    case h_1 name hname =>
      exact List.Pairwise.cons (fun o ho => lt_position_of_mem (nameAt_drop_one hname) ho) ih
    case h_2 => exact ih

/-! ## The fold -/

/-- One record of fields from a function of the names. -/
def Fields.ofNames (field : FieldName → Field) : Fields :=
  ⟨field .se, field .sr, field .sig⟩

/-- The round of the loop at a field name. -/
def takeName (fields : Fields) (o : Occurrence) : Fields :=
  match o.name with
  | .se =>
    let r := startField o.position o.prev o.valueStart fields.se fields.sr fields.sig
    { se := r.1, sr := r.2.1, sig := r.2.2 }
  | .sr =>
    let r := startField o.position o.prev o.valueStart fields.sr fields.se fields.sig
    { sr := r.1, se := r.2.1, sig := r.2.2 }
  | .sig =>
    let r := startField o.position o.prev o.valueStart fields.sig fields.sr fields.se
    { sig := r.1, sr := r.2.1, se := r.2.2 }

theorem scanAt_of_name {i : Nat} {prev : UInt8} {rest : Bytes} {fields : Fields} {name : FieldName}
    (h : nameAt rest = some name) : scanAt i prev rest fields = takeName fields ⟨name, i, prev⟩ := by
  unfold nameAt at h
  unfold scanAt
  split at h
  · cases h
    rename_i hse
    rw [if_pos hse]
    rfl
  rename_i hse
  split at h
  · cases h
    rename_i hsr
    rw [if_neg hse, if_pos hsr]
    rfl
  rename_i hsr
  split at h
  · cases h
    rename_i hsig
    rw [if_neg hse, if_neg hsr, if_pos hsig]
    rfl
  · cases h

theorem scanAt_of_nameAt_none {i : Nat} {prev : UInt8} {rest : Bytes} {fields : Fields}
    (h : nameAt rest = none) : scanAt i prev rest fields = fields := by
  apply scanAt_of_no_name
  unfold nameAt at h
  split at h
  · cases h
  split at h
  · cases h
  split at h
  · cases h
  · rename_i hse hsr hsig
    simp only [startsName, fieldNames, List.any_cons, List.any_nil, Bool.eq_false_iff.2 hse,
      Bool.eq_false_iff.2 hsr, Bool.eq_false_iff.2 hsig, Bool.or_false]

theorem scanFrom_eq_foldl (n i : Nat) (prev : UInt8) (rest : Bytes) (fields : Fields) :
    scanFrom n i prev rest fields = (occurrencesFrom n i prev rest).foldl takeName fields := by
  induction n generalizing i prev rest fields with
  | zero => rfl
  | succ n ih =>
    rw [scanFrom, occurrencesFrom, ih]
    cases hname : nameAt rest with
    | some name => rw [scanAt_of_name hname, List.foldl_cons]
    | none => rw [scanAt_of_nameAt_none hname]

/-- What the loop of the validator leaves. -/
def scannedFields (token : Bytes) : Fields :=
  (occurrences token).foldl takeName {}

/-! ## One round -/

section

variable {field : FieldName → Field} {o : Occurrence}

theorem takeName_of_none_open (h : ∀ name, name ≠ o.name → (field name).isOpen = false) :
    takeName (.ofNames field) o =
      .ofNames (Function.update field o.name { field o.name with start := o.valueStart }) := by
  rcases o with ⟨name, position, prev⟩
  cases name with
  | se => simp [takeName, Fields.ofNames, startField, h .sr (by simp), h .sig (by simp)]
  | sr => simp [takeName, Fields.ofNames, startField, h .se (by simp), h .sig (by simp)]
  | sig => simp [takeName, Fields.ofNames, startField, h .sr (by simp), h .se (by simp)]

theorem stopBefore_eq (o : Occurrence) :
    stopBefore o.position o.prev = if o.separated then some o.stopsAt else none := by
  rcases o with ⟨name, position, prev⟩
  by_cases hblank : prev = 0x20
  · subst hblank
    rfl
  · by_cases hampersand : prev = 0x26
    · subst hampersand
      rfl
    · simp [stopBefore, Occurrence.separated, hblank, hampersand]

/-- The value of another name is open: it stops if a separator stands between, and otherwise the name
is not taken. -/
theorem takeName_of_open (other : FieldName) (hother : other ≠ o.name) (hopen : (field other).isOpen = true)
    (hclosed : ∀ name, name ≠ o.name → name ≠ other → (field name).isOpen = false) :
    takeName (.ofNames field) o = .ofNames
      (if o.separated then
        Function.update (Function.update field other { field other with stop := o.stopsAt })
          o.name { field o.name with start := o.valueStart }
      else Function.update field o.name { field o.name with start := -1 }) := by
  have hstop := stopBefore_eq o
  rcases o with ⟨name, position, prev⟩
  generalize hs : Occurrence.separated ⟨name, position, prev⟩ = separated at hstop ⊢
  cases name with
  | se =>
    cases other with
    | se => exact absurd rfl hother
    | sr => cases separated <;> simp [takeName, Fields.ofNames, startField, hopen, hstop]
    | sig =>
      have hsr := hclosed .sr (by simp) (by simp)
      cases separated <;> simp [takeName, Fields.ofNames, startField, hopen, hstop, hsr]
  | sr =>
    cases other with
    | se => cases separated <;> simp [takeName, Fields.ofNames, startField, hopen, hstop]
    | sr => exact absurd rfl hother
    | sig =>
      have hse := hclosed .se (by simp) (by simp)
      cases separated <;> simp [takeName, Fields.ofNames, startField, hopen, hstop, hse]
  | sig =>
    cases other with
    | se =>
      have hsr := hclosed .sr (by simp) (by simp)
      cases separated <;> simp [takeName, Fields.ofNames, startField, hopen, hstop, hsr]
    | sr => cases separated <;> simp [takeName, Fields.ofNames, startField, hopen, hstop]
    | sig => exact absurd rfl hother

end

/-! ## Groups -/

/-- The start of the value after the occurrences `rest`, of which those of `own` move it. -/
def lastStart (own : FieldName) : (start : Nat) → (rest : List Occurrence) → Nat
  | start, [] => start
  | start, o :: rest => lastStart own (if o.name = own then o.valueStart else start) rest

/-- A value is unknown, or it has stopped before `i`. -/
def Settled (i : Nat) (field : Field) : Prop :=
  field = {} ∨ (0 ≤ field.stop ∧ field.stop < i)

theorem Settled.isOpen {i : Nat} {field : Field} (h : Settled i field) : field.isOpen = false := by
  rcases h with rfl | ⟨hstop, -⟩
  · rfl
  · exact isOpen_of_stopped hstop

/-- What the group of `own` takes in: the name itself, and a name without a separator that has no
group yet. -/
def InGroup (closed : FieldName → Field) (own : FieldName) (o : Occurrence) : Prop :=
  o.name = own ∨ (closed o.name = {} ∧ o.separated = false)

section

variable {closed : FieldName → Field} {own : FieldName} {start : Nat} {o : Occurrence}
variable {fields : Fields} {i : Nat}

/-- The fields while the value of `own` is open. -/
def opened (closed : FieldName → Field) (own : FieldName) (start : Nat) : Fields :=
  .ofNames (Function.update closed own ⟨start, -1⟩)

theorem FieldName.text_length_pos (name : FieldName) : 0 < name.text.length := by
  cases name <;> decide

theorem isOpen_opened (hstart : 0 < start) :
    (Function.update closed own ⟨start, -1⟩ own).isOpen = true := by
  rw [Function.update_self]
  exact isOpen_of_started (by omega)

theorem takeName_of_inGroup (hclosed : ∀ name, (closed name).isOpen = false) (hstart : 0 < start)
    (hin : InGroup closed own o) :
    takeName (opened closed own start) o =
      opened closed own (if o.name = own then o.valueStart else start) := by
  by_cases hown : o.name = own
  · subst hown
    rw [opened, takeName_of_none_open, if_pos rfl]
    · simp [opened]
    · intro name hname
      rw [Function.update_of_ne hname]
      exact hclosed name
  · rcases hin with hin | ⟨hunknown, hseparated⟩
    · exact absurd hin hown
    rw [opened, takeName_of_open own (Ne.symm hown) (isOpen_opened hstart), if_neg hown,
      hseparated, if_neg Bool.false_ne_true]
    · rw [Function.update_of_ne hown, hunknown, opened, Function.update_eq_self_iff.2]
      rw [Function.update_of_ne hown, hunknown]
    · intro name _ hname
      rw [Function.update_of_ne hname]
      exact hclosed name

theorem takeName_of_next (hclosed : ∀ name, (closed name).isOpen = false) (hstart : 0 < start)
    (hown : o.name ≠ own) (hunknown : closed o.name = {}) (hseparated : o.separated = true) :
    takeName (opened closed own start) o =
      opened (Function.update closed own ⟨start, o.stopsAt⟩) o.name o.valueStart := by
  rw [opened, takeName_of_open own (Ne.symm hown) (isOpen_opened hstart), if_pos hseparated]
  · rw [Function.update_of_ne hown, hunknown, opened, Function.update_self, Function.update_idem]
  · intro name _ hname
    rw [Function.update_of_ne hname]
    exact hclosed name

theorem takeName_of_closed (hown : o.name ≠ own) (hstop : 0 ≤ (closed o.name).stop)
    (hbefore : (closed o.name).stop < o.position) :
    AnyBad (o.position + 1) (takeName (opened closed own start) o) := by
  have hvalue : (o.position : Int) ≤ o.valueStart := by
    unfold Occurrence.valueStart
    omega
  have hfield : Function.update closed own ⟨start, -1⟩ o.name = closed o.name :=
    Function.update_of_ne hown ..
  rcases o with ⟨name, position, prev⟩
  cases name
  case' se => left
  case' sr => right; left
  case' sig => right; right
  all_goals
    apply bad_startField _ _ hvalue
    · simpa only [opened, Fields.ofNames, hfield] using hstop
    · simpa only [opened, Fields.ofNames, hfield] using hbefore

theorem AnyBad.takeName (h : AnyBad i fields) (hi : i ≤ o.position) :
    AnyBad (o.position + 1) (SasToken.takeName fields o) := by
  have hname : nameAt o.name.text = some o.name := by
    cases o.name <;> rfl
  have hlater : AnyBad o.position fields := by
    rcases h with h | h | h
    · exact .inl ⟨h.stopped, by have := h.before; omega, h.order⟩
    · exact .inr (.inl ⟨h.stopped, by have := h.before; omega, h.order⟩)
    · exact .inr (.inr ⟨h.stopped, by have := h.before; omega, h.order⟩)
  have hround : SasToken.scanAt o.position o.prev o.name.text fields = SasToken.takeName fields o :=
    scanAt_of_name hname
  rw [← hround]
  exact hlater.scanAt

theorem AnyBad.foldl {rest : List Occurrence} (h : AnyBad i fields)
    (hi : ∀ o ∈ rest, i ≤ o.position) (hascending : Ascending rest) :
    ∃ n, AnyBad n (rest.foldl SasToken.takeName fields) := by
  induction rest generalizing i fields with
  | nil => exact ⟨i, h⟩
  | cons o rest ih =>
    have hpairs := List.pairwise_cons.1 hascending
    rw [List.foldl_cons]
    refine ih (h.takeName (hi o (List.mem_cons_self ..))) (fun o' ho' => ?_) hpairs.2
    have hgap := hpairs.1 o' ho'
    omega

theorem lastStart_pos {rest : List Occurrence} (hstart : 0 < start) :
    0 < lastStart own start rest := by
  induction rest generalizing start with
  | nil => exact hstart
  | cons o rest ih =>
    rw [lastStart]
    split
    · exact ih (Nat.add_pos_right _ o.name.text_length_pos)
    · exact ih hstart

theorem foldl_of_inGroup {group : List Occurrence} (hclosed : ∀ name, (closed name).isOpen = false)
    (hstart : 0 < start) (hin : ∀ o ∈ group, InGroup closed own o) :
    group.foldl SasToken.takeName (opened closed own start) =
      opened closed own (lastStart own start group) := by
  induction group generalizing start with
  | nil => rfl
  | cons o group ih =>
    rw [List.foldl_cons, takeName_of_inGroup hclosed hstart (hin o (List.mem_cons_self ..)),
      lastStart]
    apply ih
    · split
      · exact Nat.add_pos_right _ o.name.text_length_pos
      · exact hstart
    · exact fun o' ho' => hin o' (List.mem_cons_of_mem o ho')

/-- The occurrences from the start of a group on: they are in the group, or another group begins, or
a value that has stopped starts again. -/
theorem group_cases (own : FieldName) {rest : List Occurrence} (hclosed : ∀ name, Settled i (closed name))
    (hstart : 0 < start) (hi : ∀ o ∈ rest, i ≤ o.position) (hascending : Ascending rest) :
    (∀ o ∈ rest, InGroup closed own o) ∨
      (∃ group next behind, rest = group ++ next :: behind ∧ (∀ o ∈ group, InGroup closed own o) ∧
        next.name ≠ own ∧ closed next.name = {} ∧ next.separated = true) ∨
      ∃ n, AnyBad n (rest.foldl SasToken.takeName (opened closed own start)) := by
  induction rest generalizing start with
  | nil => exact .inl nofun
  | cons o rest ih =>
    have hpairs := List.pairwise_cons.1 hascending
    have hpos := hi o (List.mem_cons_self ..)
    by_cases hin : InGroup closed own o
    · have hround := takeName_of_inGroup (fun name => (hclosed name).isOpen) hstart hin
      have hmoved : 0 < (if o.name = own then o.valueStart else start) := by
        split
        · exact Nat.add_pos_right _ o.name.text_length_pos
        · exact hstart
      rcases ih hmoved (fun o' ho' => hi o' (List.mem_cons_of_mem o ho')) hpairs.2 with
        hall | ⟨group, next, behind, rfl, hgroup, hnext⟩ | ⟨n, hbad⟩
      · left
        intro o' ho'
        rcases List.mem_cons.1 ho' with rfl | ho'
        · exact hin
        · exact hall o' ho'
      · right
        left
        refine ⟨o :: group, next, behind, rfl, ?_, hnext⟩
        intro o' ho'
        rcases List.mem_cons.1 ho' with rfl | ho'
        · exact hin
        · exact hgroup o' ho'
      · right
        right
        exact ⟨n, by rwa [List.foldl_cons, hround]⟩
    · simp only [InGroup, not_or, not_and, Bool.not_eq_false] at hin
      rcases hclosed o.name with hunknown | ⟨hstop, hbefore⟩
      · right
        left
        exact ⟨[], o, rest, rfl, nofun, hin.1, hunknown, hin.2 hunknown⟩
      · right
        right
        rw [List.foldl_cons]
        refine (takeName_of_closed hin.1 hstop (by omega)).foldl (fun o' ho' => ?_) hpairs.2
        have hgap := hpairs.1 o' ho'
        omega

end

/-! ## Layouts -/

/-- The three groups of an accepted token. -/
structure Layout where
  first : Occurrence
  behindFirst : List Occurrence
  second : Occurrence
  behindSecond : List Occurrence
  third : Occurrence
  behindThird : List Occurrence
  second_ne_first : second.name ≠ first.name
  third_ne_first : third.name ≠ first.name
  third_ne_second : third.name ≠ second.name
  second_separated : second.separated = true
  third_separated : third.separated = true
  inFirst : ∀ o ∈ behindFirst, o.name = first.name ∨ o.separated = false
  inSecond : ∀ o ∈ behindSecond,
    o.name = second.name ∨ (o.name ≠ first.name ∧ o.separated = false)
  inThird : ∀ o ∈ behindThird, o.name = third.name

namespace Layout

def occurrences (layout : Layout) : List Occurrence :=
  layout.first :: (layout.behindFirst ++
    layout.second :: (layout.behindSecond ++ layout.third :: layout.behindThird))

/-- Where the value of a name starts. -/
def start (layout : Layout) (name : FieldName) : Nat :=
  if name = layout.first.name then
    lastStart name layout.first.valueStart layout.behindFirst
  else if name = layout.second.name then
    lastStart name layout.second.valueStart layout.behindSecond
  else lastStart name layout.third.valueStart layout.behindThird

/-- Where the value of a name stops, in a token of `tokenLength` characters. -/
def stop (layout : Layout) (tokenLength : Int) (name : FieldName) : Int :=
  if name = layout.first.name then layout.second.stopsAt
  else if name = layout.second.name then layout.third.stopsAt
  else tokenLength

def field (layout : Layout) (tokenLength : Int) (name : FieldName) : Field :=
  ⟨layout.start name, layout.stop tokenLength name⟩

/-- The names occur in the token in this layout, every value has a character, and the one of `se` is
not before `now`. -/
structure Accepted (layout : Layout) (token : Bytes) (now : Int) : Prop where
  occurrences : SasToken.occurrences token = layout.occurrences
  nonempty : ∀ name, layout.start name < layout.stop (intOfLength token.length) name
  positive : 0 < getExpiryValue (expiryASCII token (layout.field (intOfLength token.length) .se))
  unexpired : doubleOfTime now ≤
    getExpiryValue (expiryASCII token (layout.field (intOfLength token.length) .se))

end Layout

section

variable {layout : Layout}

theorem name_cases {a b c : FieldName} (hab : b ≠ a) (hac : c ≠ a) (hbc : c ≠ b)
    (name : FieldName) : name = a ∨ name = b ∨ name = c := by
  cases a <;> cases b <;> cases c <;> cases name <;> simp_all

theorem exists_other (a b : FieldName) : ∃ name : FieldName, name ≠ a ∧ name ≠ b := by
  by_contra hnone
  simp only [not_exists, not_and, not_not] at hnone
  have hse := hnone .se
  have hsr := hnone .sr
  have hsig := hnone .sig
  clear hnone
  cases a <;> cases b <;> simp at hse hsr hsig

theorem stopsAt_bounds {first next : Occurrence} (h : first.position + 2 ≤ next.position) :
    0 ≤ next.stopsAt ∧ next.stopsAt < next.position := by
  unfold Occurrence.stopsAt
  split
  · omega
  · omega

theorem settled_unknown (i : Nat) (name : FieldName) : Settled i ((fun _ => {}) name) :=
  .inl rfl

theorem settled_update {closed : FieldName → Field} {i : Nat} {first next : Occurrence}
    (own : FieldName) (start : Int) (hclosed : ∀ name, Settled i (closed name))
    (hi : i ≤ next.position) (h : first.position + 2 ≤ next.position) (name : FieldName) :
    Settled next.position (Function.update closed own ⟨start, next.stopsAt⟩ name) := by
  by_cases hown : name = own
  · subst hown
    rw [Function.update_self]
    exact .inr (stopsAt_bounds h)
  · rw [Function.update_of_ne hown]
    rcases hclosed name with hunknown | ⟨hstop, hbefore⟩
    · exact .inl hunknown
    · exact .inr ⟨hstop, by omega⟩

theorem update_eq_unknown {closed : FieldName → Field} {own name : FieldName} {start stop : Int}
    (hstop : 0 ≤ stop) :
    Function.update closed own ⟨start, stop⟩ name = {} ↔ name ≠ own ∧ closed name = {} := by
  by_cases hown : name = own
  · subst hown
    rw [Function.update_self]
    constructor
    · intro h
      have hminus : stop = -1 := congrArg Field.stop h
      omega
    · exact fun h => absurd rfl h.1
  · rw [Function.update_of_ne hown]
    exact ⟨fun h => ⟨hown, h⟩, fun h => h.2⟩

theorem takeName_of_first (o : Occurrence) :
    takeName {} o = opened (fun _ => {}) o.name o.valueStart := by
  have hround : takeName (.ofNames fun _ => {}) o = .ofNames (Function.update (fun _ => {}) o.name
      { ({} : Field) with start := o.valueStart }) := takeName_of_none_open fun _ _ => rfl
  exact hround

theorem foldl_layout (hascending : Ascending layout.occurrences) :
    layout.occurrences.foldl takeName {} = .ofNames (layout.field (-1)) := by
  rcases List.pairwise_cons.1 hascending with ⟨hfirst, hrest⟩
  rcases List.pairwise_append.1 hrest with ⟨-, hrest, -⟩
  rcases List.pairwise_cons.1 hrest with ⟨hsecond, -⟩
  have hgap₁ : layout.first.position + 2 ≤ layout.second.position := hfirst _ (by simp)
  have hgap₂ : layout.second.position + 2 ≤ layout.third.position := hsecond _ (by simp)
  have hclosed₁ := settled_update layout.first.name (layout.start layout.first.name)
    (settled_unknown 0) (Nat.zero_le _) hgap₁
  have hclosed₂ := settled_update layout.second.name (layout.start layout.second.name)
    hclosed₁ (by omega) hgap₂
  have hstart₁ : 0 < layout.first.valueStart :=
    Nat.add_pos_right _ layout.first.name.text_length_pos
  have hstart₂ : 0 < layout.second.valueStart :=
    Nat.add_pos_right _ layout.second.name.text_length_pos
  have hstart₃ : 0 < layout.third.valueStart :=
    Nat.add_pos_right _ layout.third.name.text_length_pos
  rw [Layout.occurrences, List.foldl_cons, takeName_of_first, List.foldl_append,
    foldl_of_inGroup (fun _ => rfl) hstart₁ fun o ho => (layout.inFirst o ho).imp_right
      fun h => ⟨rfl, h⟩,
    List.foldl_cons, takeName_of_next (fun _ => rfl) (lastStart_pos hstart₁) layout.second_ne_first
      rfl layout.second_separated]
  have hown₁ : (lastStart layout.first.name layout.first.valueStart layout.behindFirst : Int) =
      layout.start layout.first.name := by
    rw [Layout.start, if_pos rfl]
  have hown₂ : (lastStart layout.second.name layout.second.valueStart layout.behindSecond : Int) =
      layout.start layout.second.name := by
    rw [Layout.start, if_neg layout.second_ne_first, if_pos rfl]
  have hown₃ : (lastStart layout.third.name layout.third.valueStart layout.behindThird : Int) =
      layout.start layout.third.name := by
    rw [Layout.start, if_neg layout.third_ne_first, if_neg layout.third_ne_second]
  rw [hown₁, List.foldl_append, foldl_of_inGroup (fun name => (hclosed₁ name).isOpen) hstart₂,
    List.foldl_cons, takeName_of_next (fun name => (hclosed₁ name).isOpen) (lastStart_pos hstart₂)
      layout.third_ne_second _ layout.third_separated, hown₂,
    foldl_of_inGroup (fun name => (hclosed₂ name).isOpen) hstart₃, opened, hown₃]
  · congr 1
    funext name
    rcases name_cases layout.second_ne_first layout.third_ne_first layout.third_ne_second name with
      rfl | rfl | rfl
    · rw [Function.update_of_ne layout.third_ne_first.symm,
        Function.update_of_ne layout.second_ne_first.symm, Function.update_self]
      simp [Layout.field, Layout.stop]
    · rw [Function.update_of_ne layout.third_ne_second.symm, Function.update_self]
      simp [Layout.field, Layout.stop, layout.second_ne_first]
    · rw [Function.update_self]
      simp [Layout.field, Layout.stop, layout.third_ne_first, layout.third_ne_second]
  · exact fun o ho => .inl (layout.inThird o ho)
  · rw [update_eq_unknown (stopsAt_bounds hgap₁).1]
    exact ⟨layout.third_ne_first, rfl⟩
  · intro o ho
    rcases layout.inSecond o ho with hown | ⟨hname, hseparated⟩
    · exact .inl hown
    · exact .inr ⟨(update_eq_unknown (stopsAt_bounds hgap₁).1).2 ⟨hname, rfl⟩, hseparated⟩

/-- All three values have started. -/
def Started (fields : Fields) : Prop :=
  0 ≤ fields.se.start ∧ 0 ≤ fields.sr.start ∧ 0 ≤ fields.sig.start

theorem not_started {closed : FieldName → Field} {own name : FieldName} {start : Nat}
    (hname : name ≠ own) (hunknown : closed name = {}) : ¬ Started (opened closed own start) := by
  have hfield : Function.update closed own ⟨start, -1⟩ name = {} := by
    rw [Function.update_of_ne hname, hunknown]
  rintro ⟨hse, hsr, hsig⟩
  cases name with
  | se =>
    rw [opened, Fields.ofNames, hfield] at hse
    exact absurd hse (show ¬ (0 : Int) ≤ -1 by decide)
  | sr =>
    rw [opened, Fields.ofNames, hfield] at hsr
    exact absurd hsr (show ¬ (0 : Int) ≤ -1 by decide)
  | sig =>
    rw [opened, Fields.ofNames, hfield] at hsig
    exact absurd hsig (show ¬ (0 : Int) ≤ -1 by decide)

/-- If all values have started and none of them twice, the occurrences are a layout. -/
theorem exists_layout {all : List Occurrence} (hascending : Ascending all)
    (hstarted : Started (all.foldl takeName {})) (hgood : ¬ ∃ n, AnyBad n (all.foldl takeName {})) :
    ∃ layout : Layout, all = layout.occurrences := by
  cases all with
  | nil => exact absurd hstarted.1 (by decide)
  | cons first rest =>
    rcases List.pairwise_cons.1 hascending with ⟨hfirst, hrest⟩
    have hstart₁ : 0 < first.valueStart := Nat.add_pos_right _ first.name.text_length_pos
    rw [List.foldl_cons, takeName_of_first] at hstarted hgood
    rcases group_cases first.name (settled_unknown 0) hstart₁ (fun _ _ => Nat.zero_le _)
      hrest with hin₁ | ⟨behindFirst, second, rest, rfl, hin₁, hne₁, -, hsep₁⟩ | hbad
    · -- Only the name of the first group has started.
      rw [foldl_of_inGroup (fun _ => rfl) hstart₁ hin₁] at hstarted
      rcases exists_other first.name first.name with ⟨name, hname, -⟩
      exact absurd hstarted (not_started hname rfl)
    · rcases List.pairwise_append.1 hrest with ⟨-, hrest, -⟩
      rcases List.pairwise_cons.1 hrest with ⟨hsecond, hrest⟩
      have hgap₁ : first.position + 2 ≤ second.position := hfirst _ (by simp)
      have hstart₂ : 0 < second.valueStart := Nat.add_pos_right _ second.name.text_length_pos
      have hclosed₁ := settled_update first.name
        (lastStart first.name first.valueStart behindFirst : Nat)
        (settled_unknown 0) (Nat.zero_le _) hgap₁
      rw [List.foldl_append, foldl_of_inGroup (fun _ => rfl) hstart₁ hin₁, List.foldl_cons,
        takeName_of_next (fun _ => rfl) (lastStart_pos hstart₁) hne₁ rfl hsep₁] at hstarted hgood
      rcases group_cases second.name hclosed₁ hstart₂
        (fun o ho => by have := hsecond o ho; omega) hrest with
        hin₂ | ⟨behindSecond, third, behindThird, rfl, hin₂, hne₂, hunknown, hsep₂⟩ | hbad
      · rw [foldl_of_inGroup (fun name => (hclosed₁ name).isOpen) hstart₂ hin₂] at hstarted
        rcases exists_other first.name second.name with ⟨name, hname₁, hname₂⟩
        refine absurd hstarted (not_started hname₂ ?_)
        exact (update_eq_unknown (stopsAt_bounds hgap₁).1).2 ⟨hname₁, rfl⟩
      · rcases List.pairwise_append.1 hrest with ⟨-, hrest, -⟩
        rcases List.pairwise_cons.1 hrest with ⟨hthird, hrest⟩
        have hgap₂ : second.position + 2 ≤ third.position := hsecond _ (by simp)
        have hstart₃ : 0 < third.valueStart := Nat.add_pos_right _ third.name.text_length_pos
        have hclosed₂ := settled_update second.name
          (lastStart second.name second.valueStart behindSecond : Nat)
          hclosed₁ (by omega) hgap₂
        have hne₃ := (update_eq_unknown (stopsAt_bounds hgap₁).1).1 hunknown
        rw [List.foldl_append, foldl_of_inGroup (fun name => (hclosed₁ name).isOpen) hstart₂ hin₂,
          List.foldl_cons, takeName_of_next (fun name => (hclosed₁ name).isOpen)
            (lastStart_pos hstart₂) hne₂ hunknown hsep₂] at hgood
        -- Behind the third name the values of the other two have stopped.
        have hlast : ∀ name : FieldName, Function.update
            (Function.update (fun _ => ({} : Field)) first.name
              ⟨(lastStart first.name first.valueStart behindFirst : Nat), second.stopsAt⟩)
            second.name
              ⟨(lastStart second.name second.valueStart behindSecond : Nat), third.stopsAt⟩
            name = {} → name = third.name := by
          intro name hname
          rcases (update_eq_unknown (stopsAt_bounds hgap₂).1).1 hname with ⟨hname₂, hname⟩
          rcases (update_eq_unknown (stopsAt_bounds hgap₁).1).1 hname with ⟨hname₁, -⟩
          rcases name_cases hne₁ hne₃.1 hne₂ name with h | h | h
          · exact absurd h hname₁
          · exact absurd h hname₂
          · exact h
        rcases group_cases third.name hclosed₂ hstart₃
          (fun o ho => by have := hthird o ho; omega) hrest with
          hin₃ | ⟨_, fourth, _, -, -, hne₄, hunknown₄, -⟩ | hbad
        · refine ⟨⟨first, behindFirst, second, behindSecond, third, behindThird, hne₁, hne₃.1, hne₂,
            hsep₁, hsep₂, ?_, ?_, ?_⟩, rfl⟩
          · exact fun o ho => (hin₁ o ho).imp_right fun h => h.2
          · intro o ho
            rcases hin₂ o ho with hown | ⟨hname, hseparated⟩
            · exact .inl hown
            · exact .inr ⟨((update_eq_unknown (stopsAt_bounds hgap₁).1).1 hname).1, hseparated⟩
          · exact fun o ho => (hin₃ o ho).elim id fun h => hlast o.name h.1
        · exact absurd (hlast fourth.name hunknown₄) hne₄
        · exact absurd hbad hgood
      · exact absurd hbad hgood
    · exact absurd hbad hgood

end

/-! ## The verdict -/

section

variable {layout : Layout} {token : Bytes} {allocated : Bool} {now : Int}

theorem scanFrom_eq_scannedFields (token : Bytes) :
    scanFrom (intOfLength token.length).toNat 0 0 token {} = scannedFields token :=
  scanFrom_eq_foldl ..

theorem stopAtEnd_ofNames {field : FieldName → Field} {tokenLength : Int} (last : FieldName)
    (hlast : (field last).stop < 0) (hother : ∀ name, name ≠ last → 0 ≤ (field name).stop) :
    stopAtEnd tokenLength (.ofNames field) =
      .ofNames (Function.update field last { field last with stop := tokenLength }) := by
  cases last with
  | se => simp [stopAtEnd, Fields.ofNames, hlast]
  | sr =>
    have hse := not_lt.2 (hother .se (by simp))
    simp [stopAtEnd, Fields.ofNames, hlast, hse]
  | sig =>
    have hse := not_lt.2 (hother .se (by simp))
    have hsr := not_lt.2 (hother .sr (by simp))
    simp [stopAtEnd, Fields.ofNames, hlast, hse, hsr]

theorem stopAtEnd_layout {tokenLength : Int} (hascending : Ascending layout.occurrences) :
    stopAtEnd tokenLength (.ofNames (layout.field (-1))) =
      .ofNames (layout.field tokenLength) := by
  rcases List.pairwise_cons.1 hascending with ⟨hfirst, hrest⟩
  rcases List.pairwise_append.1 hrest with ⟨-, hrest, -⟩
  rcases List.pairwise_cons.1 hrest with ⟨hsecond, -⟩
  have hstop₁ := (stopsAt_bounds (hfirst layout.second (by simp))).1
  have hstop₂ := (stopsAt_bounds (hsecond layout.third (by simp))).1
  have hnames := name_cases layout.second_ne_first layout.third_ne_first layout.third_ne_second
  rw [stopAtEnd_ofNames layout.third.name]
  · congr 1
    funext name
    by_cases hname : name = layout.third.name
    · subst hname
      simp [Layout.field, Layout.stop, layout.third_ne_first, layout.third_ne_second]
    · rw [Function.update_of_ne hname]
      rcases hnames name with rfl | rfl | rfl
      · simp [Layout.field, Layout.stop]
      · simp [Layout.field, Layout.stop]
      · exact absurd rfl hname
  · simp [Layout.field, Layout.stop, layout.third_ne_first, layout.third_ne_second]
  · intro name hname
    rcases hnames name with rfl | rfl | rfl
    · simpa [Layout.field, Layout.stop] using hstop₁
    · simpa [Layout.field, Layout.stop, layout.second_ne_first] using hstop₂
    · exact absurd rfl hname

theorem sasTokenValidate_iff_checks {fields ended : Fields} (hscanned : scannedFields token = fields)
    (hended : stopAtEnd (intOfLength token.length) fields = ended) :
    sasTokenValidate token allocated now = true ↔ Started fields ∧ allocated = true ∧
      (ended.se.start < ended.se.stop ∧ ended.sr.start < ended.sr.stop ∧
        ended.sig.start < ended.sig.stop) ∧
      0 < getExpiryValue (expiryASCII token ended.se) ∧
        doubleOfTime now ≤ getExpiryValue (expiryASCII token ended.se) := by
  simp only [sasTokenValidate, scanFrom_eq_scannedFields, hscanned, hended, Started]
  split
  · rename_i hstarted
    simp only [Bool.or_eq_true, decide_eq_true_eq] at hstarted
    simp only [Bool.false_eq_true, false_iff]
    omega
  rename_i hstarted
  simp only [Bool.or_eq_true, decide_eq_true_eq, not_or, not_lt] at hstarted
  split
  · rename_i hordered
    simp only [Bool.or_eq_true, decide_eq_true_eq] at hordered
    simp only [Bool.false_eq_true, false_iff]
    omega
  rename_i hordered
  simp only [Bool.or_eq_true, decide_eq_true_eq, not_or, not_le] at hordered
  split
  · rename_i hallocated
    simp [hallocated]
  rename_i hallocated
  simp only [Bool.not_eq_false] at hallocated
  split
  · simp only [Bool.false_eq_true, false_iff]
    omega
  split
  · simp only [Bool.false_eq_true, false_iff]
    omega
  · simp only [true_iff]
    refine ⟨by omega, hallocated, by omega, by omega, by omega⟩

theorem started_layout : Started (.ofNames (layout.field (-1))) :=
  ⟨Int.natCast_nonneg _, Int.natCast_nonneg _, Int.natCast_nonneg _⟩

theorem sasTokenValidate_of_layout (h : occurrences token = layout.occurrences) :
    sasTokenValidate token allocated now = true ↔
      allocated = true ∧ layout.Accepted token now := by
  have hascending : Ascending layout.occurrences := h ▸ ascending_occurrencesFrom
  have hscanned : scannedFields token = .ofNames (layout.field (-1)) := by
    rw [scannedFields, h, foldl_layout hascending]
  rw [sasTokenValidate_iff_checks hscanned (stopAtEnd_layout hascending)]
  constructor
  · rintro ⟨-, hallocated, ⟨hse, hsr, hsig⟩, hpositive, hunexpired⟩
    refine ⟨hallocated, h, ?_, hpositive, hunexpired⟩
    intro name
    cases name with
    | se => exact hse
    | sr => exact hsr
    | sig => exact hsig
  · rintro ⟨hallocated, haccepted⟩
    exact ⟨started_layout, hallocated,
      ⟨haccepted.nonempty .se, haccepted.nonempty .sr, haccepted.nonempty .sig⟩,
      haccepted.positive, haccepted.unexpired⟩

/-- `SASToken_Validate` accepts exactly the tokens with an accepted layout. -/
theorem accepted_iff_layout :
    sasTokenValidate token allocated now = true ↔
      allocated = true ∧ ∃ layout : Layout, layout.Accepted token now := by
  constructor
  · intro hvalid
    have hgood : ¬ ∃ n, AnyBad n (scannedFields token) := by
      rintro ⟨n, hbad⟩
      rw [← scanFrom_eq_scannedFields] at hbad
      rw [sasTokenValidate_of_anyBad hbad] at hvalid
      cases hvalid
    have hstarted := ((sasTokenValidate_iff_checks rfl rfl).1 hvalid).1
    rcases exists_layout ascending_occurrencesFrom hstarted hgood with ⟨layout, hlayout⟩
    rcases (sasTokenValidate_of_layout hlayout).1 hvalid with ⟨hallocated, haccepted⟩
    exact ⟨hallocated, layout, haccepted⟩
  · rintro ⟨hallocated, layout, haccepted⟩
    exact (sasTokenValidate_of_layout haccepted.occurrences).2 ⟨hallocated, haccepted⟩

end

end SharedUtility.SasToken
