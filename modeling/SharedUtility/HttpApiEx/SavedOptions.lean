import Mathlib.Data.List.Forall2
import SharedUtility.HttpApiEx.Options
import SharedUtility.HttpApiEx.RetryMachine

/-!
# HttpApiEx.SavedOptions — every connection is given the latest value of every option

* `OptionCall.saves` — what a call has saved, by its result and the calls that it has made,
* `Latest` — a list of options with the values saved last and no name twice,
* `ConnectionsGiven` — whatever has been opened has been given the latest values, and nothing has come between,
* `retryLoop_meets` — the loop is the one of `Code` for who does not see the values,
* `savedOptions_kept` — every run of calls on a handle.
-/

namespace SharedUtility.HttpApiEx
namespace Options

open Memory

variable {V : Type}

/-! ## What has been saved -/

/-- What a call has saved, for who sees its result and the calls of the HTTPAPI layer that it has made: a value that
is answered with `ok`, or has been passed on to the open connection. If that refuses it, it has been saved by then. -/
def OptionCall.saves (result : HttpApiExResult) (made : List (Happening V)) : OptionCall V → List (String × V)
  | .setOption (some optionName) (some value) _ =>
    if result = .ok ∨ made.isEmpty = false then [(optionName, value)] else []
  | _ => []

/-- The value that has been saved last. -/
def lastSaved (saved : List (String × V)) (optionName : String) : Option V :=
  saved.reverse.lookup optionName

/-- The options have the names that have been saved, none of them twice, and the clones of the latest values. -/
structure Latest (clone : String → V → V) (saved options : List (String × V)) : Prop where
  distinct : (options.map Prod.fst).Nodup
  values : ∀ optionName, options.lookup optionName = (lastSaved saved optionName).map (clone optionName)

/-- The calls that give the options to a connection. -/
def giving (httpHandle : Option Nat) (options : List (String × V)) : List (Happening V) :=
  options.map fun option => .setOption httpHandle option.1 option.2

/-- What a connection is given when it is opened, in front of everything else: all options that have been saved
until then. -/
def ConnectionsGiven (clone : String → V → V) (saved : List (String × V)) (made : List (Happening V)) : Prop :=
  ∀ front httpHandle back, made = front ++ .call (.createConnection (some httpHandle)) :: back →
    ∃ options, Latest clone saved options ∧ giving (some httpHandle) options <+: back

section

variable {clone : String → V → V} {saved options : List (String × V)} {optionName : String} {value v : V}

theorem lastSaved_append (saved : List (String × V)) (optionName : String) (value : V) (name : String) :
    lastSaved (saved ++ [(optionName, value)]) name =
      if name = optionName then some value else lastSaved saved name := by
  rw [lastSaved, List.reverse_append, List.reverse_singleton, List.singleton_append, List.lookup_cons]
  by_cases hname : name = optionName
  · rw [if_pos hname, beq_iff_eq.2 hname]
  · rw [if_neg hname, beq_eq_false_iff_ne.2 hname]
    rfl

theorem Latest.add (hl : Latest clone saved options) (hnew : optionName ∉ options.map Prod.fst) (value : V) :
    Latest clone (saved ++ [(optionName, value)]) (options ++ [(optionName, clone optionName value)]) where
  distinct := by
    rw [List.map_append, List.map_singleton, List.nodup_append]
    refine ⟨hl.distinct, List.pairwise_singleton _ _, ?_⟩
    rintro name hname _ hlast rfl
    rw [List.mem_singleton.1 hlast] at hname
    exact hnew hname
  values name := by
    rw [lastSaved_append, List.lookup_append]
    by_cases hname : name = optionName
    · subst hname
      have hnone : options.lookup name = none := by
        rw [List.lookup_eq_none_iff]
        intro e he
        rw [bne_iff_ne]
        rintro rfl
        exact hnew (List.mem_map_of_mem he)
      rw [hnone, if_pos rfl, List.lookup_cons_self]
      rfl
    · have hlast : [(optionName, clone optionName value)].lookup name = none := by
        rw [List.lookup_cons, beq_eq_false_iff_ne.2 hname]
        rfl
      rw [hlast, if_neg hname, Option.or_none]
      exact hl.values name

theorem lookup_set {i : Nat} (hdistinct : (options.map Prod.fst).Nodup) (hi : options[i]? = some (optionName, v))
    (value : V) (name : String) :
    (options.set i (optionName, value)).lookup name =
      if name = optionName then some value else options.lookup name := by
  induction options generalizing i with
  | nil => cases hi
  | cons e options ih =>
    rw [List.map_cons, List.nodup_cons] at hdistinct
    cases i with
    | zero =>
      cases hi
      rw [List.set_cons_zero, List.lookup_cons, List.lookup_cons]
      by_cases hname : name = optionName
      · rw [if_pos hname, beq_iff_eq.2 hname]
      · rw [if_neg hname, beq_eq_false_iff_ne.2 hname]
    | succ i =>
      have hi' : options[i]? = some (optionName, v) := hi
      have hmem : optionName ∈ options.map Prod.fst := List.mem_map_of_mem (List.mem_of_getElem? hi')
      have hne : optionName ≠ e.1 := fun h => hdistinct.1 (h ▸ hmem)
      rw [List.set_cons_succ, List.lookup_cons, List.lookup_cons, ih hdistinct.2 hi]
      by_cases hname : name = optionName
      · subst hname
        rw [if_pos rfl, if_pos rfl, beq_eq_false_iff_ne.2 hne]
      · rw [if_neg hname, if_neg hname]

theorem Latest.update (hl : Latest clone saved options) {i : Nat} (hi : options[i]? = some (optionName, v))
    (value : V) :
    Latest clone (saved ++ [(optionName, value)]) (options.set i (optionName, clone optionName value)) where
  distinct := by
    obtain ⟨hlt, hget⟩ := List.getElem?_eq_some_iff.1 hi
    have hname : (options.map Prod.fst)[i]? = some optionName := by
      rw [List.getElem?_map, hi]
      rfl
    obtain ⟨hlt', hget'⟩ := List.getElem?_eq_some_iff.1 hname
    rw [List.map_set, ← hget', List.set_getElem_self]
    exact hl.distinct
  values name := by
    rw [lookup_set hl.distinct hi, lastSaved_append]
    by_cases hname : name = optionName
    · subst hname
      rw [if_pos rfl, if_pos rfl]
      rfl
    · rw [if_neg hname, if_neg hname]
      exact hl.values name

end

/-! ## What connections are given -/

section

variable {clone : String → V → V} {made more : List (Happening V)} {saved options : List (String × V)}

def Happening.opens : Happening V → Bool
  | .call (.createConnection (some _)) => true
  | _ => false

theorem ConnectionsGiven.nothing : ConnectionsGiven clone saved [] := by
  intro front httpHandle back hnothing
  cases front with
  | nil => cases hnothing
  | cons x front => cases hnothing

theorem ConnectionsGiven.quiet (hg : ConnectionsGiven clone saved made) (hmore : ∀ x ∈ more, x.opens = false) :
    ConnectionsGiven clone saved (made ++ more) := by
  intro front httpHandle back heq
  rcases List.append_eq_append_iff.1 heq with ⟨between, rfl, hbetween⟩ | ⟨between, hmade, hback⟩
  · -- The opening would be one of what has been appended.
    have hmem : Happening.call (Event.createConnection (some httpHandle)) ∈ more := by
      rw [hbetween]
      exact List.mem_append_right _ (List.mem_cons_self ..)
    cases hmore _ hmem
  · cases between with
    | nil =>
      have hmem : Happening.call (Event.createConnection (some httpHandle)) ∈ more := by
        rw [← List.nil_append more, ← hback]
        exact List.mem_cons_self ..
      cases hmore _ hmem
    | cons x between =>
      obtain ⟨rfl, hrest⟩ := List.cons.inj hback
      obtain ⟨options, hl, hgiven⟩ := hg front httpHandle between hmade
      refine ⟨options, hl, ?_⟩
      rw [hrest]
      exact hgiven.trans (List.prefix_append between more)

theorem ConnectionsGiven.opened (hg : ConnectionsGiven clone saved made) (hl : Latest clone saved options)
    (httpHandle : Nat) :
    ConnectionsGiven clone saved
      (made ++ .call (.createConnection (some httpHandle)) :: giving (some httpHandle) options) := by
  intro front handle back heq
  have hgiving : ∀ x ∈ giving (some httpHandle) options, x.opens = false := by
    intro x hx
    obtain ⟨option, -, rfl⟩ := List.mem_map.1 hx
    rfl
  rcases List.append_eq_append_iff.1 heq with ⟨between, rfl, hbetween⟩ | ⟨between, hmade, hback⟩
  · cases between with
    | nil =>
      obtain ⟨hopen, rfl⟩ := List.cons.inj hbetween
      cases hopen
      exact ⟨options, hl, List.prefix_refl _⟩
    | cons x between =>
      have hmem : Happening.call (Event.createConnection (some handle)) ∈ giving (some httpHandle) options := by
        rw [(List.cons.inj hbetween).2]
        exact List.mem_append_right _ (List.mem_cons_self ..)
      cases hgiving _ hmem
  · cases between with
    | nil =>
      obtain ⟨hopen, rfl⟩ := List.cons.inj hback
      cases hopen
      exact ⟨options, hl, List.prefix_refl _⟩
    | cons x between =>
      obtain ⟨rfl, hrest⟩ := List.cons.inj hback
      obtain ⟨earlier, hl', hgiven⟩ := hg front handle between hmade
      refine ⟨earlier, hl', ?_⟩
      rw [hrest]
      exact hgiven.trans (List.prefix_append between _)

end

/-! ## The loop -/

/-- An option and its value; it owns the cell of the value. -/
def optionView : View V SavedOption (String × V) where
  place option := option.value
  Holds h option c := option.optionName = c.1 ∧ h.cell option.value = some c.2
  frame := by
    intro h h' option c hholds hkept
    exact ⟨hholds.1, hkept _ hholds.2⟩
  live := by
    intro h option c hholds _
    exact ⟨_, hholds.2⟩

/-- The options of a handle are the latest ones of those saved; what it has opened since the trace was `start` has
been given them. -/
structure Kept (clone : String → V → V) (saved : List (String × V)) (start : List (Happening V)) (h : Heap V)
    (savedOptions : List SavedOption) (trace : List (Happening V)) : Prop where
  options : ∃ options, Represents optionView h savedOptions options ∧ Latest clone saved options
  given : ∃ made, trace = start ++ made ∧ ConnectionsGiven clone saved made

def OptionRetry.plain (s : OptionRetry V) : Retry where
  handleData := s.handleData.plain
  st := s.st
  received := s.received
  log := calls s.trace

section

variable {clone : String → V → V} {h : Heap V} {savedOptions : List SavedOption} {saved options : List (String × V)}
  {start trace : List (Happening V)} {api : HttpApi} {sent : Sent} {s : OptionRetry V}

theorem calls_append (trace more : List (Happening V)) : calls (trace ++ more) = calls trace ++ calls more :=
  List.filterMap_append

theorem plain_record (s : OptionRetry V) (e : Event) : (s.record e).plain = s.plain.record e := by
  simp only [OptionRetry.plain, OptionRetry.record, Retry.record, calls_append]
  rfl

theorem Kept.call (hk : Kept clone saved start h savedOptions trace) (e : Event)
    (hclosed : ∀ httpHandle, e ≠ .createConnection (some httpHandle)) :
    Kept clone saved start h savedOptions (trace ++ [.call e]) := by
  obtain ⟨hoptions, made, rfl, hg⟩ := hk
  refine ⟨hoptions, made ++ [.call e], List.append_assoc .., hg.quiet fun x hx => ?_⟩
  rw [List.mem_singleton.1 hx]
  cases e with
  | createConnection httpHandle =>
    cases httpHandle with
    | none => rfl
    | some httpHandle => exact absurd rfl (hclosed httpHandle)
  | _ => rfl

theorem forall₂_of_represents (hr : Represents optionView h savedOptions options) :
    List.Forall₂ (optionView.Holds h) savedOptions options := by
  rw [List.forall₂_iff_get]
  refine ⟨hr.length, fun i hi hi' => ?_⟩
  exact hr.holds i _ _ (List.getElem?_eq_getElem hi) (List.getElem?_eq_getElem hi')

theorem giveOptions_meets (hr : List.Forall₂ (optionView.Holds h) savedOptions options)
    (httpHandle : Option Nat) :
    Meets (giveOptions httpHandle savedOptions) h fun given h' => h' = h ∧ given = giving httpHandle options := by
  induction hr with
  | nil => exact meets_pure ⟨rfl, rfl⟩
  | cons hholds _ ih =>
    apply Meets.bind
    apply meets_read hholds.2
    apply Meets.bind
    refine ih.mono ?_
    rintro given h' ⟨rfl, rfl⟩
    refine meets_pure ⟨rfl, ?_⟩
    rw [hholds.1]
    rfl

theorem calls_giving (hr : List.Forall₂ (optionView.Holds h) savedOptions options) (httpHandle : Option Nat) :
    calls (giving httpHandle options) =
      (savedOptions.map SavedOption.optionName).map (Event.setOption httpHandle) := by
  induction hr with
  | nil => rfl
  | cons hholds _ ih =>
    rw [List.map_cons, List.map_cons, hholds.1, ← ih]
    rfl

theorem tryLevel_meets (hk : Kept clone saved start h s.handleData.savedOptions s.trace) :
    Meets (tryLevel api sent s) h fun r h' => h' = h ∧
      HttpApiEx.tryLevel api sent s.plain = (r.1, r.2.plain) ∧
        Kept clone saved start h r.2.handleData.savedOptions r.2.trace := by
  rw [tryLevel, HttpApiEx.tryLevel]
  have hlevel : s.plain.k = s.k := rfl
  rw [hlevel]
  split_ifs with hinit hcreate hexecute
  · exact meets_pure ⟨rfl, Prod.ext rfl (plain_record s _).symm, hk.call _ (by rintro _ ⟨⟩)⟩
  · have hname : s.plain.handleData.hostName = s.handleData.hostName := rfl
    have hlog : s.plain.log = calls s.trace := rfl
    rw [hname, hlog]
    generalize api.createConnection (calls s.trace) s.handleData.hostName = httpHandle
    cases httpHandle with
    | none =>
      refine meets_pure ⟨rfl, Prod.ext rfl ?_, hk.call _ (by rintro _ ⟨⟩)⟩
      exact (plain_record { s with handleData := { s.handleData with httpHandle := none } } _).symm
    | some httpHandle =>
      dsimp only
      rw [if_neg (by rintro ⟨⟩), if_neg (by rintro ⟨⟩)]
      obtain ⟨⟨options, hr, hl⟩, made, hmade, hg⟩ := hk
      have hr' := forall₂_of_represents hr
      apply Meets.bind
      refine (giveOptions_meets hr' (some httpHandle)).mono ?_
      rintro given h' ⟨rfl, rfl⟩
      refine meets_pure ⟨rfl, Prod.ext rfl ?_, ⟨options, hr, hl⟩, _, ?_, hg.opened hl httpHandle⟩
      · simp only [OptionRetry.plain, OptionRetry.record, Retry.record, Retry.setOptions, calls_append,
          calls_giving hr']
        rfl
      · simp only [OptionRetry.record, hmade, List.append_assoc, List.singleton_append]
  · refine meets_pure ⟨rfl, Prod.ext rfl ?_, hk.call _ (by rintro _ ⟨⟩)⟩
    exact (plain_record
      { s with received := (api.executeRequest (calls s.trace) sent s.received).2 } _).symm
  · exact meets_pure ⟨rfl, rfl, hk⟩

theorem plain_leave (s : OptionRetry V) (tried : Bool) (step : Int) :
    (s.leave tried step).plain = s.plain.leave tried step :=
  rfl

theorem undoLevel_kept (hk : Kept clone saved start h s.handleData.savedOptions s.trace) :
    (undoLevel s).plain = HttpApiEx.undoLevel s.plain ∧
      Kept clone saved start h (undoLevel s).handleData.savedOptions (undoLevel s).trace := by
  have hlevel : s.plain.k = s.k := rfl
  rw [undoLevel, HttpApiEx.undoLevel, hlevel]
  split_ifs with hinit hcreate
  · exact ⟨plain_record s _, hk.call _ (by rintro _ ⟨⟩)⟩
  · refine ⟨?_, hk.call _ (by rintro _ ⟨⟩)⟩
    exact plain_record { s with handleData := { s.handleData with httpHandle := none } } _
  · exact ⟨rfl, hk⟩

/-- A round has ended as without the values. -/
inductive SameRound (clone : String → V → V) (saved : List (String × V)) (start : List (Happening V)) (h : Heap V) :
    Round → OptionRound V → Prop
  | again {s : OptionRetry V} (hk : Kept clone saved start h s.handleData.savedOptions s.trace) :
      SameRound clone saved start h (.again s.plain) (.again s)
  | done {s : OptionRetry V} {result : HttpApiExResult} (hk : Kept clone saved start h s.handleData.savedOptions s.trace) :
      SameRound clone saved start h (.done result s.plain) (.done result s)

theorem retryRound_meets (hk : Kept clone saved start h s.handleData.savedOptions s.trace) :
    Meets (retryRound api sent s) h fun round h' =>
      h' = h ∧ SameRound clone saved start h (HttpApiEx.retryRound api sent s.plain) round := by
  have hlevel : s.plain.k = s.k := rfl
  have htried : s.plain.tried = s.tried := rfl
  rw [retryRound, HttpApiEx.retryRound, hlevel, htried]
  by_cases hover : s.k > 2
  · rw [if_pos hover, if_pos hover]
    exact meets_pure ⟨rfl, .done hk⟩
  · rw [if_neg hover, if_neg hover]
    apply Meets.bind
    have honce : Meets (tryOnce api sent s) h fun r h' => h' = h ∧
        (if s.tried then (false, s.plain) else HttpApiEx.tryLevel api sent s.plain) = (r.1, r.2.plain) ∧
          Kept clone saved start h r.2.handleData.savedOptions r.2.trace := by
      rw [tryOnce]
      split_ifs with hagain
      · exact meets_pure ⟨rfl, rfl, hk⟩
      · exact tryLevel_meets hk
    refine honce.mono ?_
    rintro ⟨goOn, s'⟩ h' ⟨rfl, hsame, hk'⟩
    rw [hsame]
    dsimp only
    have hlevel' : s'.plain.k = s'.k := rfl
    rw [hlevel']
    cases goOn with
    | true =>
      rw [if_pos rfl, if_pos rfl]
      by_cases hlast : s'.k = 2
      · rw [if_pos hlast, if_pos hlast]
        exact meets_pure ⟨rfl, .done hk'⟩
      · rw [if_neg hlast, if_neg hlast]
        exact meets_pure ⟨rfl, SameRound.again (s := (s'.leave true 1).clear) hk'⟩
    | false =>
      rw [if_neg Bool.false_ne_true, if_neg Bool.false_ne_true, ← plain_leave]
      obtain ⟨hundo, hk''⟩ := @undoLevel_kept _ clone h' saved start (s'.leave false (-1)) hk'
      rw [← hundo]
      have hlevel'' : (undoLevel (s'.leave false (-1))).plain.k = (undoLevel (s'.leave false (-1))).k := rfl
      rw [hlevel'']
      by_cases hback : (undoLevel (s'.leave false (-1))).k ≥ 0
      · rw [if_pos hback, if_pos hback]
        exact meets_pure ⟨rfl, .again hk''⟩
      · rw [if_neg hback, if_neg hback]
        exact meets_pure ⟨rfl, .done hk''⟩

theorem retryLoop_meets (rounds : Nat) (hk : Kept clone saved start h s.handleData.savedOptions s.trace) :
    Meets (retryLoop api sent rounds s) h fun r h' => h' = h ∧
      HttpApiEx.retryLoop api sent rounds s.plain = r.map (fun e => (e.1, e.2.plain)) ∧
        ∀ e, r = some e → Kept clone saved start h e.2.handleData.savedOptions e.2.trace := by
  induction rounds generalizing s with
  | zero => exact meets_pure ⟨rfl, rfl, nofun⟩
  | succ rounds ih =>
    rw [retryLoop, HttpApiEx.retryLoop]
    apply Meets.bind
    refine (retryRound_meets hk).mono ?_
    rintro round h' ⟨rfl, hsame⟩
    generalize HttpApiEx.retryRound api sent s.plain = plainRound at hsame
    cases hsame with
    | again hk' => exact ih hk'
    | done hk' =>
      refine meets_pure ⟨rfl, rfl, fun e he => ?_⟩
      cases he
      exact hk'

end

/-! ## The calls on a handle -/

def OptionSession.plain (s : OptionSession V) : Session where
  handle := some s.handle.plain
  log := calls s.trace

/-- The options of the handle are the latest ones of those saved, each under its own name. -/
def OptionSession.Kept (clone : String → V → V) (saved : List (String × V)) (h : Heap V) (s : OptionSession V) :
    Prop :=
  ∃ options, Represents optionView h s.handle.savedOptions options ∧ Latest clone saved options

section

variable {clone : String → V → V} {h : Heap V} {savedOptions : List SavedOption} {saved options : List (String × V)}
  {api : HttpApi} {s : OptionSession V} {handleData : OptionHandle} {optionName : String}

theorem executeRequest_meets (hk : s.Kept clone saved h) (rounds : Nat) (arguments : Arguments) (alloc : Allocations) :
    Meets (httpApiExExecuteRequest api rounds s arguments alloc) h fun r h' => h' = h ∧
      (HttpApiEx.httpApiExExecuteRequest api rounds s.plain arguments alloc).map (fun e => (e.1, e.2.2)) =
        r.map (fun e => (e.1, e.2.plain)) ∧
          ∀ e, r = some e → Options.Kept clone saved s.trace h e.2.handle.savedOptions e.2.trace := by
  have hhandle : s.plain.handle = some s.handle.plain := rfl
  have hk : Options.Kept clone saved s.trace h s.handle.savedOptions s.trace :=
    ⟨hk, [], (List.append_nil _).symm, ConnectionsGiven.nothing⟩
  rw [httpApiExExecuteRequest, HttpApiEx.httpApiExExecuteRequest, hhandle]
  dsimp only
  by_cases htype : arguments.requestType ≥ requestTypeCount
  case pos =>
    rw [if_pos htype, if_pos htype]
    refine meets_pure ⟨rfl, rfl, fun e he => ?_⟩
    cases he
    exact hk
  case neg =>
    rw [if_neg htype, if_neg htype]
    cases buildAllRequests s.handle.plain arguments alloc with
    | none =>
      refine meets_pure ⟨rfl, rfl, fun e he => ?_⟩
      cases he
      exact hk
    | some built =>
      obtain ⟨sent, received⟩ := built
      have hstart : (if s.handle.plain.k = -1 then { s.handle.plain with k := 0 } else s.handle.plain) =
          (if s.handle.k = -1 then { s.handle with k := 0 } else s.handle).plain := by
        have hlevel : s.handle.plain.k = s.handle.k := rfl
        rw [hlevel]
        split_ifs
        · rfl
        · rfl
      have hsame : (if s.handle.k = -1 then { s.handle with k := 0 } else s.handle).savedOptions =
          s.handle.savedOptions := by
        split_ifs
        · rfl
        · rfl
      dsimp only
      rw [hstart]
      generalize (if s.handle.k = -1 then { s.handle with k := 0 } else s.handle) = start at hsame
      apply Meets.bind
      have hk' : Options.Kept clone saved s.trace h start.savedOptions s.trace := by
        rw [hsame]
        exact hk
      refine (@retryLoop_meets V clone h saved s.trace api sent
        { handleData := start, received := received, trace := s.trace } rounds hk').mono ?_
      rintro r h' ⟨rfl, hloop, hkept⟩
      have hplain : ({ handleData := start, received := received, trace := s.trace } : OptionRetry V).plain =
          { handleData := start.plain, received := received, log := s.plain.log } := rfl
      rw [hplain] at hloop
      rw [hloop]
      cases r with
      | none => exact meets_pure ⟨rfl, rfl, by rintro _ ⟨⟩⟩
      | some e =>
        refine meets_pure ⟨rfl, rfl, fun e' he' => ?_⟩
        cases he'
        exact hkept e rfl

theorem findOption_eq_some (hr : Represents optionView h savedOptions options) {i : Nat} {whereIsIt : SavedOption}
    (hfound : findOption savedOptions optionName = some (i, whereIsIt)) :
    savedOptions[i]? = some whereIsIt ∧ whereIsIt.optionName = optionName ∧
      ∃ v, options[i]? = some (optionName, v) ∧ h.cell whereIsIt.value = some v := by
  obtain ⟨j, hj, hfound⟩ := Option.bind_eq_some_iff.1 hfound
  obtain ⟨option, hoption, heq⟩ := Option.map_eq_some_iff.1 hfound
  cases heq
  obtain ⟨hlt, hname, -⟩ := List.findIdx?_eq_some_iff_getElem.1 hj
  rw [List.getElem?_eq_getElem hlt] at hoption
  cases hoption
  obtain ⟨⟨name, v⟩, hc, hholds⟩ := hr.get (List.getElem?_eq_getElem hlt)
  have hname' := of_decide_eq_true hname
  refine ⟨List.getElem?_eq_getElem hlt, hname', v, ?_, hholds.2⟩
  rw [hc, ← hname', hholds.1]

theorem findOption_eq_none (hr : Represents optionView h savedOptions options)
    (hfound : findOption savedOptions optionName = none) : optionName ∉ options.map Prod.fst := by
  intro hmem
  obtain ⟨⟨name, v⟩, hc, rfl⟩ := List.mem_map.1 hmem
  obtain ⟨i, hi, hget⟩ := List.getElem_of_mem hc
  have hi' : i < savedOptions.length := hr.length ▸ hi
  have hholds := hr.holds i _ _ (List.getElem?_eq_getElem hi') (List.getElem?_eq_getElem hi)
  rw [hget] at hholds
  have hany : (savedOptions.findIdx? fun option => option.optionName = name).isSome = true := by
    rw [List.findIdx?_isSome, List.any_eq_true]
    exact ⟨_, List.getElem_mem hi', decide_eq_true hholds.1⟩
  obtain ⟨j, hj⟩ := Option.isSome_iff_exists.1 hany
  have hlt := (List.findIdx?_eq_some_iff_getElem.1 hj).1
  rw [findOption, hj, Option.bind_some, List.getElem?_eq_getElem hlt] at hfound
  cases hfound

theorem meets_free_fresh {h' : Heap V} {v : V} (hr : Represents optionView h savedOptions options)
    (hh : Replaces h h' none h.fresh) (hcell : h'.cell h.fresh = some v) {Q : Unit → Heap V → Prop}
    (hQ : ∀ h'', Represents optionView h'' savedOptions options → Q () h'') : Meets (free h.fresh) h' Q := by
  refine meets_free hcell (hQ _ (hr.kept (hh.trans ?_)))
  exact replaces_clear h' _

/-- The clone, whose cell is new, is kept in the place of the old value, or behind the others; or nothing is
changed, and it is freed. -/
theorem createOrUpdateOption_meets (hr : Represents optionView h handleData.savedOptions options)
    (hl : Latest clone saved options) (value : V) :
    Meets (createOrUpdateOption handleData optionName h.fresh) (h.push (clone optionName value)) fun r h' =>
      ∃ options', Represents optionView h' r.2.savedOptions options' ∧
        ((r.1 = 0 ∧ r.2.plain = { handleData.plain with
            savedOptions := if optionName ∈ handleData.plain.savedOptions then handleData.plain.savedOptions
              else handleData.plain.savedOptions ++ [optionName] } ∧
            Latest clone (saved ++ [(optionName, value)]) options') ∨
          (r.1 ≠ 0 ∧ r.2 = handleData ∧ options' = options ∧ optionName ∉ handleData.plain.savedOptions)) := by
  have hpush := replaces_push h (clone optionName value)
  have hcell := @Heap.cell_push_fresh _ h (clone optionName value)
  have hnames : handleData.plain.savedOptions = options.map Prod.fst := by
    have hr' := forall₂_of_represents hr
    change handleData.savedOptions.map SavedOption.optionName = _
    clear hr hl
    generalize handleData.savedOptions = savedOptions at hr'
    induction hr' with
    | nil => rfl
    | cons hholds _ ih => rw [List.map_cons, List.map_cons, hholds.1, ih]
  rw [createOrUpdateOption]
  cases hfound : findOption handleData.savedOptions optionName with
  | some found =>
    obtain ⟨i, whereIsIt⟩ := found
    obtain ⟨hi, hname, v, hoption, hold⟩ := findOption_eq_some hr hfound
    have hmem : optionName ∈ handleData.plain.savedOptions := by
      rw [hnames]
      exact List.mem_map_of_mem (List.mem_of_getElem? hoption)
    obtain ⟨⟨a, hplace⟩, hne⟩ : (∃ a, whereIsIt.value = some a) ∧ h.fresh ≠ whereIsIt.value := by
      constructor
      · cases hvalue : whereIsIt.value with
        | none =>
          rw [hvalue] at hold
          cases hold
        | some a => exact ⟨a, rfl⟩
      · intro heq
        rw [← heq, Heap.cell_fresh] at hold
        cases hold
    dsimp only
    apply Meets.bind
    rw [hplace] at hold hne ⊢
    refine meets_free (hpush.others _ _ nofun hold) ?_
    refine meets_pure ⟨options.set i (optionName, clone optionName value), ?_,
      .inl ⟨rfl, ?_, hl.update hoption value⟩⟩
    · have hclear := replaces_clear (h.push (clone optionName value)) a
      have hboth : Replaces h ((h.push (clone optionName value)).clear a) whereIsIt.value h.fresh :=
        hplace ▸ hpush.exchange hclear
      exact hr.set hi hboth ⟨hname, hclear.others _ _ hne hcell⟩
    · rw [if_pos hmem, OptionHandle.plain, OptionHandle.plain, HandleData.mk.injEq]
      refine ⟨rfl, rfl, rfl, ?_⟩
      have hget : (handleData.savedOptions.map SavedOption.optionName)[i]? = some whereIsIt.optionName := by
        rw [List.getElem?_map, hi]
        rfl
      obtain ⟨hlt, hget'⟩ := List.getElem?_eq_some_iff.1 hget
      rw [List.map_set, ← hget', List.set_getElem_self]
  | none =>
    have hnew := findOption_eq_none hr hfound
    have hnew' : optionName ∉ handleData.plain.savedOptions := by
      rw [hnames]
      exact hnew
    dsimp only
    apply Meets.bind
    apply meets_allocate
    case hno =>
      rw [if_pos rfl]
      apply Meets.bind
      refine meets_free_fresh hr (hpush.trans (replaces_refused _ _)) hcell fun h'' hr'' => ?_
      exact meets_pure ⟨options, hr'', .inr ⟨failure_ne_zero, rfl, rfl, hnew'⟩⟩
    case hyes =>
      rw [if_neg fun h => Bool.noConfusion h]
      have hcopied := hpush.trans (replaces_allocated _ h.fresh)
      apply Meets.bind
      apply meets_allocate
      case hno =>
        rw [if_pos rfl]
        apply Meets.bind
        refine meets_free_fresh hr (hcopied.trans (replaces_refused _ _)) hcell fun h'' hr'' => ?_
        exact meets_pure ⟨options, hr'', .inr ⟨failure_ne_zero, rfl, rfl, hnew'⟩⟩
      case hyes =>
        rw [if_neg fun h => Bool.noConfusion h]
        have hpushed := hcopied.trans (replaces_allocated _ h.fresh)
        refine meets_pure ⟨options ++ [(optionName, clone optionName value)], ?_,
          .inl ⟨rfl, ?_, hl.add hnew value⟩⟩
        · exact hr.append hpushed ⟨rfl, hcell⟩
        · rw [if_neg hnew', OptionHandle.plain, OptionHandle.plain, List.map_append]
          rfl

/-- An option is saved as `Code` does it. -/
theorem setOption_meets (hk : s.Kept clone saved h) (optionName : Option String) (value : Option V)
    (outcomes : SetOutcomes) :
    Meets (httpApiExSetOption clone s optionName value outcomes) h fun r h' =>
      (∃ stored, HttpApiEx.httpApiExSetOption s.plain optionName value.isSome
        { cloned := outcomes.cloned, saved := stored, set := outcomes.set } = (r.1, r.2.plain)) ∧
        ∃ made, r.2.trace = s.trace ++ made ∧ (∀ x ∈ made, x.opens = false) ∧
          r.2.Kept clone (saved ++ (OptionCall.setOption optionName value outcomes).saves r.1 made) h' := by
  have hnothing : s.trace = s.trace ++ [] := (List.append_nil _).symm
  have hkept : s.Kept clone (saved ++ []) h := by
    rw [List.append_nil]
    exact hk
  rcases optionName with _ | optionName
  case none => exact meets_pure ⟨⟨true, rfl⟩, [], hnothing, nofun, hkept⟩
  rcases value with _ | value
  case none => exact meets_pure ⟨⟨true, rfl⟩, [], hnothing, nofun, hkept⟩
  have hplain : ∀ stored, HttpApiEx.httpApiExSetOption s.plain (some optionName) (some value).isSome
      { cloned := outcomes.cloned, saved := stored, set := outcomes.set } =
      if outcomes.cloned = .invalidArg then (.invalidArg, s.plain)
      else if outcomes.cloned ≠ .ok then (.error, s.plain)
      else if optionName ∉ s.handle.plain.savedOptions && stored = false then (.error, s.plain)
      else
        let handleData :=
          if optionName ∈ s.handle.plain.savedOptions then s.handle.plain
          else { s.handle.plain with savedOptions := s.handle.plain.savedOptions ++ [optionName] }
        if handleData.httpHandle ≠ none then
          (if outcomes.set = .ok then .ok
            else if outcomes.set = .invalidArg then .invalidArg else .error,
           { handle := some handleData
             log := calls s.trace ++ [.setOption handleData.httpHandle optionName] })
        else (.ok, { handle := some handleData, log := calls s.trace }) := fun _ => rfl
  rw [httpApiExSetOption]
  by_cases hinvalid : outcomes.cloned = .invalidArg
  · rw [if_pos hinvalid]
    exact meets_pure ⟨⟨true, (hplain true).trans (if_pos hinvalid)⟩, [], hnothing, nofun, hkept⟩
  rw [if_neg hinvalid]
  by_cases herror : outcomes.cloned ≠ .ok
  · rw [if_pos herror]
    exact meets_pure ⟨⟨true, (hplain true).trans ((if_neg hinvalid).trans (if_pos herror))⟩, [], hnothing, nofun,
      hkept⟩
  rw [if_neg herror]
  obtain ⟨options, hr, hl⟩ := hk
  apply Meets.bind
  apply meets_new
  apply Meets.bind
  refine (createOrUpdateOption_meets hr hl value).mono ?_
  rintro ⟨code, handleData⟩ h' ⟨options', hr', ⟨hcode, hsame, hl'⟩ | ⟨hcode, rfl, rfl, hnew⟩⟩
  case inr =>
    rw [if_pos hcode]
    refine meets_pure ⟨⟨false, (hplain false).trans ?_⟩, [], hnothing, nofun, _, hr', ?_⟩
    · rw [if_neg hinvalid, if_neg herror, if_pos]
      case hc =>
        rw [Bool.and_eq_true, decide_eq_true_eq, decide_eq_true_eq]
        exact ⟨hnew, rfl⟩
    · rw [OptionCall.saves, if_neg (by rintro (⟨⟨⟩⟩ | ⟨⟨⟩⟩)), List.append_nil]
      exact hl
  case inl =>
    dsimp only at hcode hsame hr'
    have hsaved : (if optionName ∈ s.handle.plain.savedOptions then s.handle.plain
        else { s.handle.plain with savedOptions := s.handle.plain.savedOptions ++ [optionName] }) =
        handleData.plain := by
      rw [hsame]
      split_ifs with hmem
      · rfl
      · rfl
    have hstored : ¬(decide (optionName ∉ s.handle.plain.savedOptions) && decide (true = false)) = true := by
      rw [Bool.and_eq_true]
      rintro ⟨_, hrefused⟩
      cases hrefused
    have hplain' := hplain true
    rw [if_neg hinvalid, if_neg herror, if_neg hstored, hsaved] at hplain'
    rw [if_neg (not_not.2 hcode)]
    dsimp only at hplain' ⊢
    have hhandle : handleData.plain.httpHandle = handleData.httpHandle := rfl
    rw [hhandle] at hplain'
    by_cases hopen : handleData.httpHandle ≠ none
    · -- The value has been saved before it is passed on, and whatever the connection makes of it.
      rw [if_pos hopen] at hplain' ⊢
      refine meets_pure ⟨⟨true, hplain'.trans ?_⟩, [.setOption handleData.httpHandle optionName value], rfl,
        fun x hx => ?_, _, hr', ?_⟩
      · rw [OptionSession.plain, calls_append]
        rfl
      · rw [List.mem_singleton.1 hx]
        rfl
      · rw [OptionCall.saves, if_pos (.inr rfl)]
        exact hl'
    · rw [if_neg hopen] at hplain' ⊢
      refine meets_pure ⟨⟨true, hplain'⟩, [], hnothing, nofun, _, hr', ?_⟩
      rw [OptionCall.saves, if_pos (.inl rfl)]
      exact hl'

/-- A call on the handle ends; the options are as it has saved them, and what it opens has been given those of
before. -/
theorem call_kept (hk : s.Kept clone saved h) (hready : Ready s.plain) (rounds : Nat) (c : OptionCall V) :
    Meets (s.call api clone (rounds + 9) c) h fun r h' =>
      ∃ result s' made, r = some (result, s') ∧ s'.trace = s.trace ++ made ∧ ConnectionsGiven clone saved made ∧
        s'.Kept clone (saved ++ c.saves result made) h' ∧ Ready s'.plain := by
  cases c with
  | executeRequest arguments alloc =>
    refine (executeRequest_meets hk (rounds + 9) arguments alloc).mono ?_
    rintro r h' ⟨rfl, hsame, hkept⟩
    obtain ⟨result, s', hcall, -, hready'⟩ := @executeRequest_kept api _ hready arguments alloc rounds
    rw [Session.call] at hcall
    -- the loop of `Code` ends, so this one does
    cases r with
    | none =>
      rw [Option.map_none, Option.map_eq_none_iff] at hsame
      rw [hsame] at hcall
      cases hcall
    | some e =>
      obtain ⟨r, hr, hre⟩ := Option.map_eq_some_iff.1 hsame
      rw [hr, Option.map_some, Option.some.injEq, Prod.mk.injEq] at hcall
      obtain ⟨hoptions, made, hmade, hg⟩ := hkept e rfl
      refine ⟨e.1, e.2, made, rfl, hmade, hg, ?_, ?_⟩
      · have hnothing : saved ++ (OptionCall.executeRequest arguments alloc : OptionCall V).saves e.1 made = saved :=
          List.append_nil _
        rw [hnothing]
        exact hoptions
      · rw [← (Prod.mk.inj hre).2, hcall.2]
        exact hready'
  | setOption optionName value outcomes =>
    apply Meets.bind
    refine (setOption_meets hk optionName value outcomes).mono ?_
    rintro ⟨result, s'⟩ h' ⟨⟨stored, hsame⟩, made, hmade, hclosed, hkept⟩
    refine meets_pure ⟨result, s', made, rfl, hmade, ConnectionsGiven.nothing.quiet hclosed, hkept, ?_⟩
    have hready' := (setOption_ready hready optionName value.isSome
      { cloned := outcomes.cloned, saved := stored, set := outcomes.set }).1
    rw [hsame] at hready'
    exact hready'

/-- In every state of a run, where `saved` is what the calls have saved until then, the options are the latest ones,
each under its own name; every call ends, and whatever connection it opens is given those of that time. -/
def OptionsKept (api : HttpApi) (clone : String → V → V) (rounds : Nat) :
    List (String × V) → OptionSession V → Heap V → List (OptionCall V) → Prop
  | saved, s, h, [] => s.Kept clone saved h
  | saved, s, h, c :: calls => s.Kept clone saved h ∧
      Meets (s.call api clone rounds c) h fun r h' =>
        ∃ result s' made, r = some (result, s') ∧ s'.trace = s.trace ++ made ∧
          ConnectionsGiven clone saved made ∧
            OptionsKept api clone rounds (saved ++ c.saves result made) s' h' calls

theorem optionsKept_of_kept (hk : s.Kept clone saved h) (hready : Ready s.plain) (rounds : Nat)
    (calls : List (OptionCall V)) : OptionsKept api clone (rounds + 9) saved s h calls := by
  induction calls generalizing saved s h with
  | nil => exact hk
  | cons c calls ih =>
    refine ⟨hk, (call_kept hk hready rounds c).mono ?_⟩
    rintro r h' ⟨result, s', made, hr, hmade, hg, hk', hready'⟩
    exact ⟨result, s', made, hr, hmade, hg, ih hk' hready'⟩

/-- A handle from its creation on: whatever is saved and requested in whatever order, whatever the HTTPAPI layer
does and whichever allocations fail. -/
theorem savedOptions_kept (api : HttpApi) (clone : String → V → V) (hostName : Bytes)
    (calls : List (OptionCall V)) (h : Heap V) (rounds : Nat) :
    OptionsKept api clone (rounds + 9) [] (OptionSession.created hostName) h calls := by
  apply optionsKept_of_kept
  case hk => exact ⟨[], Represents.nil optionView h, List.nodup_nil, fun _ => rfl⟩
  case hready => exact .closed rfl rfl ⟨rfl, rfl⟩

end

end Options
end SharedUtility.HttpApiEx
