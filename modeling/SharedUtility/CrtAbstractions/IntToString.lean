import Mathlib.Data.Nat.Digits.Defs
import SharedUtility.CrtAbstractions
import SharedUtility.CrtAbstractions.StrToULL

/-!
# IntToString — `unsignedIntToString` and `size_tToString` of `crt_abstractions.c`

* `putDigits`, `swapDigits`, `intToString` — the code, on the memory that `destination` points to,
* `printedDigits`, `decimalText` — the decimal representation,
* `putDigits_eq`, `swapDigits_eq` — what the two loops do,
* `integers_printed` — both functions, for all values and sizes.
-/

namespace SharedUtility.CrtAbstractions

/-! ## The code -/

/-- `'0' + (value % 10)`. -/
def digitChar (digit : Nat) : UInt8 :=
  UInt8.ofNat (0x30 + digit)

/-- The `do … while` loop, with room for so many characters in front of the NUL: the memory, `pos` and `value`. -/
def putDigits (destination : Bytes) (pos value : Nat) : (room : Nat) → Bytes × Nat × Nat
  | 0 => (destination, pos, value)
  | room + 1 =>
    let destination := destination.set pos (digitChar (value % 10))
    if value / 10 > 0 ∧ room > 0 then putDigits destination (pos + 1) (value / 10) room
    else (destination, pos + 1, value / 10)

/-- One turn of the `for` loop. -/
def swapDigits (pos : Nat) (destination : Bytes) (w : Nat) : Bytes :=
  let temp := destination.getD w 0
  (destination.set w (destination.getD (pos - 1 - w) 0)).set (pos - 1 - w) temp

/-- The two functions, but for the width of `value`: the result, and the memory that `destination` points to. -/
def intToString (destination : Option Bytes) (destinationSize value : Nat) : Int × Option Bytes :=
  match destination with
  | none => (failure, none)
  | some destination =>
    if destinationSize < 2 then (failure, some destination)
    else
      let r := putDigits destination 0 value (destinationSize - 1)
      if r.2.2 = 0 then
        (0, some ((List.range ((r.2.1 - 1) / 2 + 1)).foldl (swapDigits r.2.1) (r.1.set r.2.1 0)))
      else (failure, some r.1)

def unsignedIntToString (destination : Option Bytes) (destinationSize : Nat) (value : UInt32) :
    Int × Option Bytes :=
  intToString destination destinationSize value.toNat

def sizeTToString (destination : Option Bytes) (destinationSize : Nat) (value : UInt64) : Int × Option Bytes :=
  intToString destination destinationSize value.toNat

/-! ## The decimal representation -/

/-- The digits, the last one first. -/
def printedDigits (value : Nat) : List Nat :=
  if value = 0 then [0] else Nat.digits 10 value

def decimalText (value : Nat) : Bytes :=
  ((printedDigits value).map digitChar).reverse

/-- Digits with the value, the first of them not zero where there are more. -/
structure IsDecimal (value : Nat) (text : Bytes) : Prop where
  isDigits : IsDigits 10 text
  value : valueOf 10 text = value
  noLeadingZero : 1 < text.length → text.head? ≠ some 0x30

section

variable {value : Nat}

theorem printedDigits_eq (value : Nat) :
    printedDigits value = value % 10 :: if value / 10 > 0 then printedDigits (value / 10) else [] := by
  rw [printedDigits]
  split_ifs with hzero hmore
  · subst hzero
    cases hmore
  · subst hzero
    rfl
  · rw [Nat.digits_def' (by decide) (Nat.pos_of_ne_zero hzero), printedDigits, if_neg (Nat.ne_of_gt ‹_›)]
  · have hlast : value / 10 = 0 := Nat.eq_zero_of_not_pos ‹_›
    rw [Nat.digits_def' (by decide) (Nat.pos_of_ne_zero hzero), hlast, Nat.digits_zero]

theorem printedDigits_ne_nil (value : Nat) : printedDigits value ≠ [] := by
  rw [printedDigits_eq]
  exact List.cons_ne_nil _ _

theorem printedDigits_lt : ∀ d ∈ printedDigits value, d < 10 := by
  intro d hd
  rw [printedDigits] at hd
  split_ifs at hd with hzero
  · rw [List.mem_singleton.1 hd]
    decide
  · exact Nat.digits_lt_base (by decide) hd

theorem digitChar_of_lt {d : Nat} (h : d < 10) :
    isDigitOf 10 (digitChar d) = true ∧ (digitValue (digitChar d)).getD 0 = d := by
  have hall : ∀ k : Fin 10, isDigitOf 10 (digitChar k) = true ∧ (digitValue (digitChar k)).getD 0 = k := by
    decide
  exact hall ⟨d, h⟩

theorem decimalText_step (h : value / 10 > 0) :
    decimalText value = decimalText (value / 10) ++ [digitChar (value % 10)] := by
  rw [decimalText, printedDigits_eq, if_pos h, List.map_cons, List.reverse_cons]
  rfl

theorem decimalText_last (h : ¬value / 10 > 0) : decimalText value = [digitChar value] := by
  have hsmall : value % 10 = value := Nat.mod_eq_of_lt (by omega)
  rw [decimalText, printedDigits_eq, if_neg h, hsmall]
  rfl

theorem length_decimalText (value : Nat) : (decimalText value).length = (printedDigits value).length := by
  rw [decimalText, List.length_reverse, List.length_map]

theorem decimalText_value (value : Nat) : valueOf 10 (decimalText value) = value := by
  induction value using Nat.strong_induction_on with
  | _ value ih =>
    have hdigit := (digitChar_of_lt (Nat.mod_lt value (by decide : 10 > 0))).2
    by_cases h : value / 10 > 0
    · rw [decimalText_step h, valueOf_append, ih (value / 10) (by omega), valueOf, valueFrom_cons, valueFrom_nil,
        hdigit, List.length_singleton]
      omega
    · have hsmall : value < 10 := by omega
      rw [decimalText_last h, valueOf, valueFrom_cons, valueFrom_nil, (digitChar_of_lt hsmall).2]
      omega

theorem decimalText_head (h : 0 < value) : (decimalText value).head? ≠ some 0x30 := by
  induction value using Nat.strong_induction_on with
  | _ value ih =>
    by_cases hmore : value / 10 > 0
    · have hhead := ih (value / 10) (by omega) hmore
      have hne : decimalText (value / 10) ≠ [] := by
        rw [decimalText, ne_eq, List.reverse_eq_nil_iff, List.map_eq_nil_iff]
        exact printedDigits_ne_nil _
      rw [decimalText_step hmore, List.head?_append_of_ne_nil _ hne]
      exact hhead
    · rw [decimalText_last hmore]
      intro hzero
      have hsmall : value < 10 := by omega
      have hvalue := (digitChar_of_lt hsmall).2
      rw [Option.some.inj hzero] at hvalue
      have hnot : (digitValue 0x30).getD 0 = 0 := by decide
      omega

theorem decimalText_isDecimal (value : Nat) : IsDecimal value (decimalText value) where
  isDigits := by
    constructor
    · rw [decimalText, ne_eq, List.reverse_eq_nil_iff, List.map_eq_nil_iff]
      exact printedDigits_ne_nil _
    · intro b hb
      rw [decimalText, List.mem_reverse, List.mem_map] at hb
      obtain ⟨d, hd, rfl⟩ := hb
      exact (digitChar_of_lt (printedDigits_lt d hd)).1
  value := decimalText_value value
  noLeadingZero := by
    intro hlong
    apply decimalText_head
    refine Nat.pos_of_ne_zero fun hzero => ?_
    subst hzero
    exact absurd hlong (by decide)

end

/-! ## The loops -/

section

variable {destination behind : Bytes} {pos value room : Nat}

theorem set_middle (front : Bytes) (old c : UInt8) (behind : Bytes) :
    (front ++ old :: behind).set front.length c = front ++ c :: behind := by
  rw [List.set_append_right _ _ (Nat.le_refl _), Nat.sub_self]
  rfl

/-- As many digits as there is room for are written, the last one first; the value is used up if these are all. -/
theorem putDigits_eq (front : Bytes) (value room : Nat) (old behind : Bytes) (hold : old.length = room + 1) :
    ∃ rest, putDigits (front ++ old ++ behind) front.length value (room + 1) =
        (front ++ ((printedDigits value).map digitChar).take (room + 1) ++
            old.drop (printedDigits value).length ++ behind,
          front.length + min (printedDigits value).length (room + 1), rest) ∧
      (rest = 0 ↔ (printedDigits value).length ≤ room + 1) := by
  induction room generalizing front value old with
  | zero =>
    obtain ⟨o, rfl⟩ := List.length_eq_one_iff.1 hold
    refine ⟨value / 10, ?_, ?_⟩
    · have hdrop : [o].drop (printedDigits value).length = [] := by
        apply List.drop_eq_nil_of_le
        rw [List.length_singleton]
        exact List.length_pos_iff.2 (printedDigits_ne_nil value)
      have hmin : min (printedDigits value).length (0 + 1) = 1 :=
        Nat.min_eq_right (List.length_pos_iff.2 (printedDigits_ne_nil value))
      rw [putDigits, if_neg (fun h => Nat.lt_irrefl _ h.2), hdrop, hmin, List.append_nil, List.append_assoc,
        List.singleton_append, set_middle, printedDigits_eq, List.map_cons, List.take_succ_cons, List.take_zero,
        List.append_assoc]
      rfl
    · rw [printedDigits_eq, List.length_cons]
      split_ifs with hmore
      · have hpos := List.length_pos_iff.2 (printedDigits_ne_nil (value / 10))
        omega
      · rw [List.length_nil]
        omega
  | succ room ih =>
    obtain ⟨o, old, rfl⟩ := List.exists_cons_of_length_eq_add_one hold
    rw [List.length_cons] at hold
    have hset : (front ++ o :: old ++ behind).set front.length (digitChar (value % 10)) =
        front ++ [digitChar (value % 10)] ++ old ++ behind := by
      rw [List.append_assoc, List.cons_append, set_middle, List.append_assoc, List.append_assoc]
      rfl
    rw [putDigits, hset, printedDigits_eq]
    by_cases hmore : value / 10 > 0
    case pos =>
      obtain ⟨rest, hrest, hzero⟩ := ih (front ++ [digitChar (value % 10)]) (value / 10) old (by omega)
      rw [List.length_append, List.length_singleton] at hrest
      refine ⟨rest, ?_, ?_⟩
      · rw [if_pos ⟨hmore, Nat.succ_pos _⟩, if_pos hmore, hrest, List.map_cons, List.take_succ_cons,
          List.length_cons, List.drop_succ_cons, Nat.add_min_add_right, ← List.append_cons,
          Nat.add_assoc, Nat.add_comm 1]
      · rw [if_pos hmore, List.length_cons, hzero]
        omega
    case neg =>
      refine ⟨value / 10, ?_, ?_⟩
      · rw [if_neg (fun h => hmore h.1), if_neg hmore, List.map_singleton, List.length_singleton,
          List.take_succ_cons, List.take_nil, List.drop_succ_cons, List.drop_zero,
          Nat.min_eq_left (by omega)]
      · rw [if_neg hmore, List.length_singleton]
        omega

theorem getElem?_swapDigits {w : Nat} (hw : w < pos) (hpos : pos ≤ destination.length) (i : Nat) :
    (swapDigits pos destination w)[i]? =
      if i = pos - 1 - w then destination[w]? else if i = w then destination[pos - 1 - w]? else destination[i]? := by
  have hvalue : ∀ k < pos, some (destination.getD k 0) = destination[k]? := by
    intro k hk
    rw [List.getD_eq_getElem?_getD, List.getElem?_eq_getElem (by omega)]
    rfl
  rw [swapDigits]
  by_cases hback : i = pos - 1 - w
  · subst hback
    rw [if_pos rfl, List.getElem?_set_self (by rw [List.length_set]; omega), hvalue w hw]
  · rw [if_neg hback, List.getElem?_set_ne (Ne.symm hback)]
    by_cases hfront : i = w
    · subst hfront
      rw [if_pos rfl, List.getElem?_set_self (by omega), hvalue _ (by omega)]
    · rw [if_neg hfront, List.getElem?_set_ne (Ne.symm hfront)]

theorem length_foldl_swapDigits (destination : Bytes) (places : List Nat) :
    (places.foldl (swapDigits pos) destination).length = destination.length := by
  induction places generalizing destination with
  | nil => rfl
  | cons w places ih =>
    rw [List.foldl_cons, ih, swapDigits, List.length_set, List.length_set]

/-- After some turns the characters that have been reached from the two ends have changed places. -/
theorem foldl_swapDigits (destination : Bytes) (hpos : pos ≤ destination.length) (turns : Nat)
    (hturns : turns ≤ (pos - 1) / 2 + 1) (hsome : 0 < pos) (i : Nat) :
    ((List.range turns).foldl (swapDigits pos) destination)[i]? =
      if i < pos ∧ (i < turns ∨ pos - 1 - i < turns) then destination[pos - 1 - i]? else destination[i]? := by
  induction turns generalizing i with
  | zero =>
    rw [if_neg (by omega)]
    rfl
  | succ turns ih =>
    have hlength : pos ≤ ((List.range turns).foldl (swapDigits pos) destination).length := by
      rw [length_foldl_swapDigits]
      exact hpos
    -- neither of the two characters has been reached before
    have hfront := ih (by omega) turns
    have hback := ih (by omega) (pos - 1 - turns)
    rw [if_neg (by omega)] at hfront hback
    rw [List.range_succ, List.foldl_append, List.foldl_cons, List.foldl_nil,
      getElem?_swapDigits (by omega) hlength, hfront, hback, ih (by omega) i]
    by_cases hlast : i = pos - 1 - turns
    · rw [if_pos hlast, if_pos (by omega)]
      congr 1
      omega
    · rw [if_neg hlast]
      by_cases hfirst : i = turns
      · rw [if_pos hfirst, if_pos (by omega)]
        congr 1
        omega
      · rw [if_neg hfirst]
        refine if_congr ?_ rfl rfl
        omega

theorem swapDigits_eq (text behind : Bytes) (hne : text ≠ []) :
    (List.range ((text.length - 1) / 2 + 1)).foldl (swapDigits text.length) (text ++ behind) =
      text.reverse ++ behind := by
  have hpos := List.length_pos_iff.2 hne
  apply List.ext_getElem?
  intro i
  have hlength : text.length ≤ (text ++ behind).length := by
    rw [List.length_append]
    exact Nat.le_add_right _ _
  rw [foldl_swapDigits _ hlength _ (Nat.le_refl _) hpos]
  by_cases hi : i < text.length
  · rw [if_pos (by omega), List.getElem?_append_left (by omega),
      List.getElem?_append_left (by rw [List.length_reverse]; exact hi), List.getElem?_reverse hi]
  · have hback : text.length ≤ i := Nat.le_of_not_lt hi
    rw [if_neg (fun h => hi h.1), List.getElem?_append_right hback,
      List.getElem?_append_right (by rw [List.length_reverse]; exact hback), List.length_reverse]

end

/-! ## The functions -/

section

variable {destination behind : Bytes} {value : Nat}

theorem intToString_fits (h : (decimalText value).length + 1 ≤ destination.length) :
    intToString (some (destination ++ behind)) destination.length value =
      (0, some (decimalText value ++ 0 :: destination.drop ((decimalText value).length + 1) ++ behind)) := by
  have hcount := length_decimalText value
  have hpos := List.length_pos_iff.2 (printedDigits_ne_nil value)
  obtain ⟨old, last, rfl⟩ := (List.eq_nil_or_concat' destination).resolve_left fun hnil => by
    rw [hnil] at h
    exact absurd h (by rw [List.length_nil]; omega)
  rw [List.length_append, List.length_singleton] at h
  obtain ⟨rest, hput, hrest⟩ := putDigits_eq [] value (old.length - 1) old ([last] ++ behind) (by omega)
  have hroom : old.length - 1 + 1 = old.length := by omega
  rw [hroom] at hput hrest
  have hfits : (printedDigits value).length ≤ old.length := by omega
  have hwritten : ((printedDigits value).map digitChar).take old.length = (printedDigits value).map digitChar :=
    List.take_of_length_le (by rw [List.length_map]; exact hfits)
  -- what is behind the digits: a place for the NUL, and the places that are left alone
  have hplace : ∃ o, old.drop (printedDigits value).length ++ [last] =
      o :: (old ++ [last]).drop ((decimalText value).length + 1) := by
    rw [← List.drop_append_of_le_length hfits, hcount]
    exact ⟨_, List.drop_eq_getElem_cons (by rw [List.length_append, List.length_singleton]; omega)⟩
  obtain ⟨o, hplace⟩ := hplace
  have hmemory : [] ++ (printedDigits value).map digitChar ++ old.drop (printedDigits value).length ++
      ([last] ++ behind) = (printedDigits value).map digitChar ++
        o :: ((old ++ [last]).drop ((decimalText value).length + 1) ++ behind) := by
    rw [List.nil_append, List.append_assoc, ← List.append_assoc _ [last], hplace]
    rfl
  rw [hwritten, hmemory, Nat.min_eq_left hfits, List.length_nil, Nat.zero_add] at hput
  have hsize : (old ++ [last]).length - 1 = old.length := by
    rw [List.length_append, List.length_singleton, Nat.add_sub_cancel]
  have hlarge : ¬(old ++ [last]).length < 2 := by
    rw [List.length_append, List.length_singleton]
    omega
  rw [List.nil_append, ← List.append_assoc] at hput
  unfold intToString
  dsimp only
  rw [if_neg hlarge, hsize, hput, if_pos (hrest.2 hfits)]
  dsimp only
  have hchars : ((printedDigits value).map digitChar).length = (printedDigits value).length := List.length_map _
  have hne : (printedDigits value).map digitChar ≠ [] := by
    rw [ne_eq, List.map_eq_nil_iff]
    exact printedDigits_ne_nil value
  rw [← hchars, set_middle, swapDigits_eq _ _ hne]
  rw [decimalText, List.append_assoc]
  rfl

theorem intToString_short (behind : Bytes) (h : ¬(decimalText value).length + 1 ≤ destination.length) :
    ∃ destination', destination'.length = destination.length ∧
      intToString (some (destination ++ behind)) destination.length value =
        (failure, some (destination' ++ behind)) := by
  have hcount := length_decimalText value
  unfold intToString
  dsimp only
  by_cases hsmall : destination.length < 2
  case pos =>
    rw [if_pos hsmall]
    exact ⟨destination, rfl, rfl⟩
  case neg =>
    obtain ⟨old, last, rfl⟩ := (List.eq_nil_or_concat' destination).resolve_left fun hnil => by
      rw [hnil] at hsmall
      exact hsmall (by decide)
    have hsize : (old ++ [last]).length - 1 = old.length := by
      rw [List.length_append, List.length_singleton, Nat.add_sub_cancel]
    rw [List.length_append, List.length_singleton] at h hsmall
    obtain ⟨rest, hput, hrest⟩ := putDigits_eq [] value (old.length - 1) old ([last] ++ behind) (by omega)
    have hroom : old.length - 1 + 1 = old.length := by omega
    have hlong : ¬(printedDigits value).length ≤ old.length := by omega
    have hempty : old.drop (printedDigits value).length = [] := List.drop_eq_nil_of_le (by omega)
    rw [hroom, hempty, List.append_nil, List.nil_append, List.length_nil, List.nil_append, ← List.append_assoc]
      at hput
    rw [hroom] at hrest
    rw [if_neg (by rw [List.length_append, List.length_singleton]; exact hsmall), hsize, hput,
      if_neg fun hzero => hlong (hrest.1 hzero)]
    refine ⟨((printedDigits value).map digitChar).take old.length ++ [last], ?_, ?_⟩
    · rw [List.length_append, List.length_append, List.length_take, List.length_map,
        Nat.min_eq_left (by omega)]
    · rw [List.append_assoc, ← List.append_assoc]

theorem strtoullS_decimalText (h : value ≤ ullongMax) (errno : Int) :
    strtoullS (decimalText value) 10 errno = { result := value, endptr := [], errno := 0 } := by
  have hdecimal := decimalText_isDecimal value
  have hhead : (decimalText value).head?.any (isDigitOf 10) = true := by
    obtain ⟨d, more, htext⟩ := List.exists_cons_of_ne_nil hdecimal.isDigits.1
    have hd := hdecimal.isDigits.2 d (by rw [htext]; exact List.mem_cons_self ..)
    rw [htext]
    exact hd
  obtain ⟨hbehind, hsign⟩ := behindSign_digit hhead
  have htake : (decimalText value).takeWhile (isDigitOf 10) = decimalText value :=
    List.takeWhile_eq_self_iff.2 hdecimal.isDigits.2
  have hdrop : (decimalText value).dropWhile (isDigitOf 10) = [] :=
    List.dropWhile_eq_nil_iff.2 hdecimal.isDigits.2
  rw [strtoullS_ten, hbehind, hsign, if_pos hhead, htake, hdrop, hdecimal.value]
  dsimp only
  rw [Nat.min_eq_left h, if_neg (Nat.not_lt.2 h)]
  rfl

end

/-- What is printed: a destination, with whatever is in memory behind it, gets the decimal representation and a
NUL exactly when there is room for both, and the rest of it is left alone; it is the number that `strtoull_s`
reads. In any case nothing is written behind the destination. -/
structure Printed (print : Option Bytes → Nat → Int × Option Bytes) (value : Nat) : Prop where
  succeeds : ∀ destination behind,
    (print (some (destination ++ behind)) destination.length).1 = 0 ↔
      (decimalText value).length + 1 ≤ destination.length
  prints : ∀ destination behind, (print (some (destination ++ behind)) destination.length).1 = 0 →
    (print (some (destination ++ behind)) destination.length).2 =
      some (decimalText value ++ 0 :: destination.drop ((decimalText value).length + 1) ++ behind)
  fails : ∀ destination behind, (print (some (destination ++ behind)) destination.length).1 ≠ 0 →
    ∃ destination', destination'.length = destination.length ∧
      (print (some (destination ++ behind)) destination.length).2 = some (destination' ++ behind)
  null : ∀ destinationSize, (print none destinationSize).1 ≠ 0
  decimal : IsDecimal value (decimalText value)
  readBack : ∀ errno, strtoullS (decimalText value) 10 errno = { result := value, endptr := [], errno := 0 }

theorem intToString_printed {value : Nat} (h : value ≤ ullongMax) :
    Printed (fun destination destinationSize => intToString destination destinationSize value) value := by
  constructor
  case succeeds =>
    intro destination behind
    by_cases hroom : (decimalText value).length + 1 ≤ destination.length
    · rw [intToString_fits hroom]
      exact iff_of_true rfl hroom
    · obtain ⟨_, -, hfails⟩ := intToString_short behind hroom
      rw [hfails]
      exact iff_of_false failure_ne_zero hroom
  case prints =>
    intro destination behind hzero
    by_cases hroom : (decimalText value).length + 1 ≤ destination.length
    · rw [intToString_fits hroom]
    · obtain ⟨_, -, hfails⟩ := intToString_short behind hroom
      rw [hfails] at hzero
      exact absurd hzero failure_ne_zero
  case fails =>
    intro destination behind hnot
    by_cases hroom : (decimalText value).length + 1 ≤ destination.length
    · rw [intToString_fits hroom] at hnot
      exact absurd rfl hnot
    · obtain ⟨destination', hlength, hfails⟩ := intToString_short behind hroom
      rw [hfails]
      exact ⟨destination', hlength, rfl⟩
  case null => exact fun _ => failure_ne_zero
  case decimal => exact decimalText_isDecimal value
  case readBack => exact strtoullS_decimalText h

/-- Every `unsigned int` and every `size_t`, and every destination. -/
theorem integers_printed (n : UInt32) (size : UInt64) :
    Printed (fun destination destinationSize => unsignedIntToString destination destinationSize n) n.toNat ∧
      Printed (fun destination destinationSize => sizeTToString destination destinationSize size) size.toNat := by
  have hn : n.toNat ≤ ullongMax := by
    have hlt := n.toNat_lt
    rw [ullongMax]
    omega
  have hsize : size.toNat ≤ ullongMax := by
    have hlt := size.toNat_lt
    rw [ullongMax]
    omega
  exact ⟨intToString_printed hn, intToString_printed hsize⟩

example : unsignedIntToString (some (List.replicate 6 0xCC)) 5 4096 =
    (0, some [0x34, 0x30, 0x39, 0x36, 0, 0xCC]) := by
  decide

end SharedUtility.CrtAbstractions
