import SharedUtility.TlsIoOpenssl.CrlCache

/-!
# CrlMap — the CRL cache is a map from URLs to CRLs (`tlsio_openssl.c`)

* `World`, `perform`, `after` — histories of calls, with the references that callers hold,
* `latest`, `StaysValid` — what a history says about a URL,
* `Refines` — how the array stands to them, kept by each of the functions,
* `crlCache_refines`: what every history of calls leaves behind, and what a load then finds.
-/

namespace SharedUtility.CrlCache

variable {Crl : Type} [DecidableEq Crl]

/-! ## Histories -/

/-- The calls, and what the callers do with references of their own. -/
inductive Call (Crl : Type)
  | load (dpUrl : Option Bytes)
  | save (dpUrl : Option Bytes) (crl : Crl)
  | clear
  | take (crl : Crl)
  | drop (crl : Crl)

structure Step (Crl : Type) where
  call : Call Crl
  answers : Answers Crl

/-- The store, and the references that callers hold. -/
structure World (Crl : Type) where
  store : Store Crl
  callers : Crl → Int

def perform (step : Step Crl) (w : World Crl) : World Crl :=
  match step.call with
  | .load dpUrl =>
    let r := loadCertCrlMemory dpUrl step.answers w.store
    { store := r.2
      callers := match r.1 with
        | none => w.callers
        | some crl => x509CrlUpRef w.callers crl }
  | .save dpUrl crl => { w with store := (saveCertCrlMemory dpUrl (some crl) step.answers w.store).2 }
  | .clear => { w with store := clearCrlCache w.store }
  | .take crl =>
    { store := { w.store with references := x509CrlUpRef w.store.references crl }
      callers := x509CrlUpRef w.callers crl }
  | .drop crl =>
    { store := { w.store with references := x509CrlFree w.store.references (some crl) }
      callers := x509CrlFree w.callers (some crl) }

/-- After these steps, the last one first, where the callers held these references. -/
def after (held : Crl → Int) : List (Step Crl) → World Crl
  | [] => { store := { references := held }, callers := held }
  | step :: earlier => perform step (after held earlier)

/-- The CRL that a step saves for a URL. -/
def savedBy (step : Step Crl) (w : World Crl) (url : Bytes) : Option Crl :=
  match step.call with
  | .save (some dpUrl) crl =>
    if (saveCertCrlMemory (some dpUrl) (some crl) step.answers w.store).1 ≠ 0 ∧ dpUrl = url then some crl
    else none
  | _ => none

/-- The CRL that was saved last for a URL, since the cache was cleared. -/
def latest (held : Crl → Int) : List (Step Crl) → Bytes → Option Crl
  | [], _ => none
  | step :: earlier, url =>
    match step.call with
    | .clear => none
    | _ => (savedBy step (after held earlier) url).or (latest held earlier url)

/-- It has been valid at all times since then. -/
def StaysValid (held : Crl → Int) : List (Step Crl) → Bytes → Prop
  | [], _ => True
  | step :: earlier, url =>
    savedBy step (after held earlier) url ≠ none ∨
      StaysValid held earlier url ∧
        ∀ crl, latest held earlier url = some crl → ∀ n, step.answers.valid n crl = true

/-! ## The invariant -/

/-- How many entries hold a reference to a CRL. -/
def holders (crl : Crl) (cache : List (CrlCacheEntry Crl)) : Nat :=
  cache.countP fun e => e.crl = some crl

theorem holders_split (crl : Crl) (front : List (CrlCacheEntry Crl)) (e : CrlCacheEntry Crl)
    (back : List (CrlCacheEntry Crl)) :
    holders crl (front ++ e :: back) =
      holders crl front + (holders crl back + if e.crl = some crl then 1 else 0) := by
  rw [holders, List.countP_append, List.countP_cons]
  simp only [decide_eq_true_eq]
  rfl

/-- The array, where these CRLs were saved last for their URLs, some of them valid ever since. -/
structure Refines (latest : Bytes → Option Crl) (stays : Bytes → Prop) (callers : Crl → Int)
    (s : Store Crl) : Prop where
  null : ∀ e ∈ s.crlCache, e.crl = none ↔ e.dpUrl = none
  unique : (urls s.crlCache).Nodup
  saved : ∀ url crl, ⟨some crl, some url⟩ ∈ s.crlCache → latest url = some crl
  found : ∀ url crl, latest url = some crl → stays url → ⟨some crl, some url⟩ ∈ s.crlCache
  counted : ∀ crl, s.references crl = callers crl + holders crl s.crlCache

namespace Refines

variable {latest latest' : Bytes → Option Crl} {stays stays' : Bytes → Prop}
  {callers callers' references references' : Crl → Int} {s : Store Crl}
  {cache front back : List (CrlCacheEntry Crl)} {e new : CrlCacheEntry Crl}

theorem same (h : Refines latest stays callers ⟨cache, references⟩)
    (hlatest : ∀ url, latest' url = latest url) (hstays : ∀ url, stays' url → stays url)
    (hcounted : ∀ crl, references' crl - callers' crl = references crl - callers crl) :
    Refines latest' stays' callers' ⟨cache, references'⟩ where
  null := h.null
  unique := h.unique
  saved := by
    intro url crl hmem
    rw [hlatest]
    exact h.saved url crl hmem
  found := by
    intro url crl hcrl hstay
    rw [hlatest] at hcrl
    exact h.found url crl hcrl (hstays url hstay)
  counted := by
    intro crl
    have hcrl := h.counted crl
    have hdiff := hcounted crl
    dsimp only at hcrl ⊢
    omega

/-- An entry may be written over when its URL is not elsewhere in the array, and what was there is no CRL that
has to be found. -/
theorem replace (h : Refines latest stays callers ⟨front ++ e :: back, references⟩)
    (hnull : new.crl = none ↔ new.dpUrl = none)
    (hfresh : ∀ url, new.dpUrl = some url → url ∉ urls front ∧ url ∉ urls back)
    (hlatest : ∀ url, latest' url = if new.dpUrl = some url then new.crl else latest url)
    (hkeep : ∀ url crl, new.dpUrl ≠ some url → stays' url → latest url = some crl →
      stays url ∧ e ≠ ⟨some crl, some url⟩)
    (hreferences : ∀ crl, references' crl + (if e.crl = some crl then 1 else 0) =
      references crl + if new.crl = some crl then 1 else 0) :
    Refines latest' stays' callers ⟨front ++ new :: back, references'⟩ where
  null := by
    intro e' hmem
    rcases List.mem_append.1 hmem with hfront | hmem
    · exact h.null e' (List.mem_append_left _ hfront)
    · rcases List.mem_cons.1 hmem with rfl | hback
      · exact hnull
      · exact h.null e' (List.mem_append_right _ (List.mem_cons_of_mem _ hback))
  unique := by
    have hunique := h.unique
    dsimp only at hunique ⊢
    rw [urls_split] at hunique ⊢
    -- the URL of the old entry goes, the new one is in neither of the other parts
    have hrest : (urls front ++ urls back).Nodup := by
      refine hunique.sublist (List.Sublist.append_left ?_ _)
      exact List.sublist_append_right _ _
    cases hurl : new.dpUrl with
    | none => exact hrest
    | some url =>
      obtain ⟨hfront, hback⟩ := hfresh url hurl
      refine List.nodup_middle.2 (List.nodup_cons.2 ⟨?_, hrest⟩)
      rw [List.mem_append]
      exact not_or.2 ⟨hfront, hback⟩
  saved := by
    intro url crl hmem
    rw [hlatest]
    rcases List.mem_append.1 hmem with hfront | hmem
    · rw [if_neg fun hurl => (hfresh url hurl).1 (mem_urls.2 ⟨_, hfront, rfl⟩)]
      exact h.saved url crl (List.mem_append_left _ hfront)
    · rcases List.mem_cons.1 hmem with heq | hback
      · rw [← heq]
        exact if_pos rfl
      · rw [if_neg fun hurl => (hfresh url hurl).2 (mem_urls.2 ⟨_, hback, rfl⟩)]
        exact h.saved url crl (List.mem_append_right _ (List.mem_cons_of_mem _ hback))
  found := by
    intro url crl hcrl hstay
    rw [hlatest] at hcrl
    by_cases hurl : new.dpUrl = some url
    case pos =>
      rw [if_pos hurl] at hcrl
      obtain ⟨newCrl, newUrl⟩ := new
      dsimp only at hurl hcrl
      rw [hurl, hcrl]
      exact List.mem_append_right _ (List.mem_cons_self ..)
    case neg =>
      rw [if_neg hurl] at hcrl
      obtain ⟨hstayed, hother⟩ := hkeep url crl hurl hstay hcrl
      rcases List.mem_append.1 (h.found url crl hcrl hstayed) with hfront | hmem
      · exact List.mem_append_left _ hfront
      · rcases List.mem_cons.1 hmem with heq | hback
        · exact absurd heq.symm hother
        · exact List.mem_append_right _ (List.mem_cons_of_mem _ hback)
  counted := by
    intro crl
    have hcrl := h.counted crl
    have hdiff := hreferences crl
    dsimp only at hcrl ⊢
    rw [holders_split] at hcrl ⊢
    split_ifs at hcrl hdiff ⊢ <;> omega

theorem grow (h : Refines latest stays callers ⟨cache, references⟩) (n : Nat) :
    Refines latest stays callers ⟨cache ++ (List.replicate n {} : List (CrlCacheEntry Crl)), references⟩ where
  null := by
    intro e hmem
    rcases List.mem_append.1 hmem with hcache | hnew
    · exact h.null e hcache
    · rw [List.eq_of_mem_replicate hnew]
      exact iff_of_true rfl rfl
  unique := by
    have hnew : urls (List.replicate n ({} : CrlCacheEntry Crl)) = [] := by
      rw [urls, List.filterMap_replicate_of_none rfl]
    dsimp only
    rw [urls, List.filterMap_append]
    change (urls cache ++ urls _).Nodup
    rw [hnew, List.append_nil]
    exact h.unique
  saved := by
    intro url crl hmem
    rcases List.mem_append.1 hmem with hcache | hnew
    · exact h.saved url crl hcache
    · cases List.eq_of_mem_replicate hnew
  found := fun url crl hcrl hstay => List.mem_append_left _ (h.found url crl hcrl hstay)
  counted := by
    intro crl
    have hnew : holders crl (List.replicate n ({} : CrlCacheEntry Crl)) = 0 := by
      refine List.countP_eq_zero.2 fun e hmem => ?_
      rw [List.eq_of_mem_replicate hmem]
      exact of_decide_eq_false rfl
    dsimp only
    rw [holders, List.countP_append]
    change references crl = callers crl + ((holders crl cache + holders crl _ : Nat) : Int)
    rw [hnew]
    exact h.counted crl

/-! ## The functions keep it -/

theorem load (h : Refines latest stays callers s) (dpUrl : Option Bytes) (answers : Answers Crl)
    (hstays : ∀ url, stays' url → stays url ∧
      ∀ crl, latest url = some crl → ∀ n, answers.valid n crl = true) :
    Refines latest stays'
      (match (loadCertCrlMemory dpUrl answers s).1 with
        | none => callers
        | some crl => x509CrlUpRef callers crl)
      (loadCertCrlMemory dpUrl answers s).2 := by
  have hunchanged : Refines latest stays' callers s :=
    h.same (fun _ => rfl) (fun url hstay => (hstays url hstay).1) fun _ => rfl
  cases dpUrl with
  | none => exact hunchanged
  | some url =>
    rw [loadCertCrlMemory]
    dsimp only
    split_ifs with hlocked
    · exact hunchanged
    · rcases loadLoop_cases answers.valid url h.unique 0 s.references with
        ⟨hload, -⟩ | ⟨front, crl, back, m, hcache, ⟨hvalid, hload⟩ | ⟨hvalid, hload⟩⟩
      · rw [hload]
        exact hunchanged
      · -- the caller of the load gets the new reference
        rw [hload]
        refine hunchanged.same (fun _ => rfl) (fun _ hstay => hstay) fun crl' => ?_
        dsimp only
        rw [x509CrlUpRef_apply, x509CrlUpRef_apply]
        omega
      · rw [hload]
        dsimp only
        have hold : Refines latest stays callers ⟨front ++ ⟨some crl, some url⟩ :: back, s.references⟩ := by
          rw [← hcache]
          exact h
        refine hold.replace (iff_of_true rfl rfl) (by rintro _ ⟨⟩) (fun _ => rfl) ?_ ?_
        · rintro url' crl' - hstay hcrl
          obtain ⟨hstayed, hvalid'⟩ := hstays url' hstay
          refine ⟨hstayed, ?_⟩
          -- a CRL that is removed was outdated when the load looked at it
          rintro heq
          cases heq
          exact Bool.noConfusion ((hvalid' crl hcrl m).symm.trans hvalid)
        · intro crl'
          have hempty : (none : Option Crl) ≠ some crl' := by rintro ⟨⟩
          dsimp only
          rw [x509CrlFree_apply, if_neg hempty]
          omega

/-- A save returns 0 and leaves everything as it was, or the entry for its URL is the only one. -/
theorem save (h : Refines latest stays callers s) (dpUrl : Option Bytes) (crl : Crl) (answers : Answers Crl)
    (hlatest : ∀ url, latest' url =
      if (saveCertCrlMemory dpUrl (some crl) answers s).1 ≠ 0 ∧ dpUrl = some url then some crl
      else latest url)
    (hstays : ∀ url, stays' url →
      ((saveCertCrlMemory dpUrl (some crl) answers s).1 ≠ 0 ∧ dpUrl = some url) ∨
        stays url ∧ ∀ crl, latest url = some crl → ∀ n, answers.valid n crl = true) :
    Refines latest' stays' callers (saveCertCrlMemory dpUrl (some crl) answers s).2 := by
  cases dpUrl with
  | none =>
    refine h.same (fun url => ?_) (fun url hstay => ?_) fun _ => rfl
    · rw [hlatest, if_neg fun hsaved => hsaved.1 rfl]
    · exact ((hstays url hstay).resolve_left fun hsaved => hsaved.1 rfl).1
  | some url =>
    rcases saveCertCrlMemory_cases url crl answers s with
      ⟨hzero, hcache, hreferences⟩ | ⟨grown, front, e, back, hcache, hsuccess, hstore, hwhich⟩
    · generalize saveCertCrlMemory (some url) (some crl) answers s = r at *
      obtain ⟨result, cache', references'⟩ := r
      dsimp only at hzero hcache hreferences hlatest hstays ⊢
      rw [hcache]
      refine h.same (fun url' => ?_) (fun url' hstay => ?_) fun crl' => ?_
      · rw [hlatest, if_neg fun hsaved => hsaved.1 hzero]
      · exact ((hstays url' hstay).resolve_left fun hsaved => hsaved.1 hzero).1
      · rw [hreferences]
    · have hgrown : Refines latest stays callers ⟨front ++ e :: back, s.references⟩ := by
        rw [← hcache]
        exact h.grow grown
      rw [hstore]
      refine hgrown.replace (iff_of_false nofun nofun) ?fresh ?latest ?keep ?references
      case fresh =>
        rintro url' heq
        cases heq
        rcases hwhich with ⟨crl', rfl⟩ | ⟨hnone, -⟩
        · have hunique := hgrown.unique
          dsimp only at hunique
          rw [urls_split] at hunique
          have hother := List.nodup_cons.1 (List.nodup_middle.1 hunique)
          exact not_or.1 (List.mem_append.not.1 hother.1)
        · -- an entry with the URL would have a CRL as well
          have hwhole : url ∉ urls (front ++ e :: back) := by
            intro hmem
            obtain ⟨⟨crl', dpUrl⟩, hmem, hurl⟩ := mem_urls.1 hmem
            dsimp only at hurl
            subst hurl
            cases crl' with
            | none => cases (hgrown.null _ hmem).1 rfl
            | some crl' =>
              rw [← hcache] at hmem
              rcases List.mem_append.1 hmem with hmem | hmem
              · exact hnone crl' hmem
              · cases List.eq_of_mem_replicate hmem
          rw [urls_split, List.mem_append, List.mem_append, not_or, not_or] at hwhole
          exact ⟨hwhole.1, hwhole.2.2⟩
      case latest =>
        intro url'
        rw [hlatest]
        by_cases hurl : some url = some url'
        · rw [if_pos ⟨hsuccess, hurl⟩, if_pos hurl]
        · rw [if_neg fun hsaved => hurl hsaved.2, if_neg hurl]
      case keep =>
        intro url' crl' hurl hstay hcrl
        obtain ⟨hstayed, hvalid⟩ := (hstays url' hstay).resolve_left fun hsaved => hurl hsaved.2
        refine ⟨hstayed, ?_⟩
        rcases hwhich with ⟨crl'', rfl⟩ | ⟨-, hstale⟩
        · intro heq
          exact hurl (congrArg CrlCacheEntry.dpUrl heq)
        · rintro rfl
          obtain ⟨m, hinvalid⟩ := hstale crl' rfl
          exact Bool.noConfusion ((hvalid crl' hcrl m).symm.trans hinvalid)
      case references =>
        intro crl'
        rw [x509CrlFree_apply, x509CrlUpRef_apply]
        dsimp only
        omega

theorem clear (h : Refines latest stays callers s) (hlatest : ∀ url, latest' url = none) :
    Refines latest' stays' callers (clearCrlCache s) where
  null := nofun
  unique := List.nodup_nil
  saved := nofun
  found := by
    intro url crl hcrl
    rw [hlatest] at hcrl
    cases hcrl
  counted := by
    have hfree : ∀ (cache : List (CrlCacheEntry Crl)) (references : Crl → Int) (crl : Crl),
        cache.foldl (fun references entry => x509CrlFree references entry.crl) references crl =
          references crl - holders crl cache := by
      intro cache references crl
      induction cache generalizing references with
      | nil => exact (Int.sub_zero _).symm
      | cons e entries ih =>
        have hsplit := holders_split crl [] e entries
        rw [List.nil_append] at hsplit
        rw [List.foldl_cons, ih, hsplit, x509CrlFree_apply]
        change _ = references crl - ((0 + (holders crl entries + _) : Nat) : Int)
        split_ifs <;> omega
    intro crl
    rw [clearCrlCache]
    dsimp only
    rw [hfree, h.counted]
    exact (Int.add_sub_cancel _ _).trans (Int.add_zero _).symm

end Refines

/-! ## Every history -/

section

variable {held : Crl → Int} {earlier : List (Step Crl)} {step : Step Crl}

theorem latest_other (hclear : step.call ≠ .clear) (hsaved : ∀ url, savedBy step (after held earlier) url = none)
    (url : Bytes) : latest held (step :: earlier) url = latest held earlier url := by
  have hlatest : latest held (step :: earlier) url =
      (savedBy step (after held earlier) url).or (latest held earlier url) := by
    rw [latest]
    split
    case h_1 heq => exact absurd heq hclear
    case h_2 => rfl
  rw [hlatest, hsaved]
  rfl

theorem staysValid_other (hsaved : ∀ url, savedBy step (after held earlier) url = none) (url : Bytes)
    (h : StaysValid held (step :: earlier) url) :
    StaysValid held earlier url ∧
      ∀ crl, latest held earlier url = some crl → ∀ n, step.answers.valid n crl = true := by
  rw [StaysValid] at h
  exact h.resolve_left (not_not_intro (hsaved url))

theorem perform_refines
    (h : Refines (latest held earlier) (StaysValid held earlier) (after held earlier).callers
      (after held earlier).store) :
    Refines (latest held (step :: earlier)) (StaysValid held (step :: earlier))
      (after held (step :: earlier)).callers (after held (step :: earlier)).store := by
  obtain ⟨call, answers⟩ := step
  cases call with
  | load dpUrl =>
    have hsaved : ∀ url, savedBy ⟨.load dpUrl, answers⟩ (after held earlier) url = none := fun _ => rfl
    have hload := h.load dpUrl answers fun url => staysValid_other hsaved url
    exact hload.same (latest_other nofun hsaved) (fun _ hstay => hstay) fun _ => rfl
  | save dpUrl crl =>
    have hsaved : ∀ url, savedBy ⟨.save dpUrl crl, answers⟩ (after held earlier) url =
        if (saveCertCrlMemory dpUrl (some crl) answers (after held earlier).store).1 ≠ 0 ∧ dpUrl = some url then
          some crl
        else none := by
      intro url
      cases dpUrl with
      | none => exact (if_neg fun hsaved => nomatch hsaved.2).symm
      | some dpUrl =>
        rw [savedBy]
        simp only [Option.some.injEq]
    refine h.save dpUrl crl answers (fun url => ?_) fun url hstay => ?_
    · rw [latest, hsaved]
      split_ifs with hsuccess
      · rfl
      · rfl
    · rw [StaysValid, hsaved] at hstay
      refine hstay.imp_left fun hsome => ?_
      by_contra hfailed
      exact hsome (if_neg hfailed)
  | clear => exact h.clear fun _ => rfl
  | take crl =>
    have hsaved : ∀ url, savedBy ⟨.take crl, answers⟩ (after held earlier) url = none := fun _ => rfl
    refine h.same (latest_other nofun hsaved) (fun url hstay => (staysValid_other hsaved url hstay).1)
      fun crl' => ?_
    change x509CrlUpRef _ crl crl' - x509CrlUpRef _ crl crl' = _
    rw [x509CrlUpRef_apply, x509CrlUpRef_apply]
    exact Int.add_sub_add_right _ _ _
  | drop crl =>
    have hsaved : ∀ url, savedBy ⟨.drop crl, answers⟩ (after held earlier) url = none := fun _ => rfl
    refine h.same (latest_other nofun hsaved) (fun url hstay => (staysValid_other hsaved url hstay).1)
      fun crl' => ?_
    have hcancel : ∀ a b c : Int, a - c - (b - c) = a - b := by
      intro a b c
      omega
    change x509CrlFree _ (some crl) crl' - x509CrlFree _ (some crl) crl' = _
    rw [x509CrlFree_apply, x509CrlFree_apply]
    exact hcancel _ _ _

theorem after_refines (held : Crl → Int) (history : List (Step Crl)) :
    Refines (latest held history) (StaysValid held history) (after held history).callers
      (after held history).store := by
  induction history with
  | nil =>
    exact {
      null := nofun
      unique := List.nodup_nil
      saved := nofun
      found := nofun
      counted := fun crl => (Int.add_zero _).symm }
  | cons step earlier ih => exact perform_refines ih

end

/-- After any calls, whatever the lock, the allocator and the clock answered: there is one entry at most for a
URL, it has a CRL exactly when it has a URL, and each CRL is referenced by its callers and by the entries that
hold it.  What a load returns was saved last for its URL and is valid, and what was saved last and stayed valid is
what a load returns that gets the lock. -/
theorem crlCache_refines (held : Crl → Int) (history : List (Step Crl)) :
    (∀ url, (after held history).store.crlCache.countP (fun e => e.dpUrl = some url) ≤ 1) ∧
    (∀ e ∈ (after held history).store.crlCache, e.crl = none ↔ e.dpUrl = none) ∧
    (∀ dpUrl answers crl,
      (loadCertCrlMemory dpUrl answers (after held history).store).1 = some crl →
        ∃ url, dpUrl = some url ∧ latest held history url = some crl ∧ ∃ n, answers.valid n crl = true) ∧
    (∀ url crl answers, latest held history url = some crl → StaysValid held history url →
      (∀ n, answers.valid n crl = true) → answers.locked = true →
        (loadCertCrlMemory (some url) answers (after held history).store).1 = some crl) ∧
    ∀ crl, (after held history).store.references crl =
      (after held history).callers crl +
        (after held history).store.crlCache.countP (fun e => e.crl = some crl) := by
  have h := after_refines held history
  generalize (after held history).store = s at h ⊢
  refine ⟨fun url => ?one, h.null, ?only, ?finds, h.counted⟩
  case one =>
    have hcount := List.nodup_iff_count_le_one.1 h.unique url
    rw [urls, List.count_filterMap] at hcount
    refine Nat.le_trans (Nat.le_of_eq ?_) hcount
    refine List.countP_congr fun e _ => ?_
    rw [decide_eq_true_eq, beq_iff_eq]
  case only =>
    intro dpUrl answers crl hload
    cases dpUrl with
    | none => cases hload
    | some url =>
      rw [loadCertCrlMemory] at hload
      dsimp only at hload
      split_ifs at hload with hlocked
      rcases loadLoop_cases answers.valid url h.unique 0 s.references with
        ⟨heq, -⟩ | ⟨front, crl', back, m, hcache, ⟨hvalid, heq⟩ | ⟨hvalid, heq⟩⟩
      · rw [heq] at hload
        cases hload
      · rw [heq] at hload
        cases hload
        refine ⟨url, rfl, h.saved url crl ?_, m, hvalid⟩
        rw [hcache]
        exact List.mem_append_right _ (List.mem_cons_self ..)
      · rw [heq] at hload
        cases hload
  case finds =>
    intro url crl answers hcrl hstay hvalid hlocked
    have hmem := h.found url crl hcrl hstay
    rw [loadCertCrlMemory, hlocked]
    dsimp only
    rw [if_neg (by rintro ⟨⟩)]
    rcases loadLoop_cases answers.valid url h.unique 0 s.references with
      ⟨-, hnone⟩ | ⟨front, crl', back, m, hcache, hfound⟩
    · exact absurd hmem (hnone crl)
    · -- the entry that the load stops at is the only one for the URL
      have hcrl' : latest held history url = some crl' := by
        refine h.saved url crl' ?_
        rw [hcache]
        exact List.mem_append_right _ (List.mem_cons_self ..)
      cases hcrl.symm.trans hcrl'
      rcases hfound with ⟨-, heq⟩ | ⟨hinvalid, -⟩
      · rw [heq]
      · exact Bool.noConfusion ((hvalid m).symm.trans hinvalid)

/-- A load whose lock fails finds nothing, whatever was saved. -/
theorem crlCache_not_locked :
    let history : List (Step Unit) := [⟨.save (some [104]) (), {}⟩]
    latest (fun _ => 1) history [104] = some () ∧ StaysValid (fun _ => 1) history [104] ∧
      (loadCertCrlMemory (some [104]) { locked := false } (after (fun _ => 1) history).store).1 = none := by
  refine ⟨rfl, .inl nofun, rfl⟩

end SharedUtility.CrlCache
