import Mathlib.Data.List.Nodup
import Mathlib.Logic.Function.Basic
import SharedUtility.Bytes

/-!
# CrlCache — the CRLs that are kept in memory (`tlsio_openssl.c`)

* `CrlCacheEntry`, `Store` — the array with its entries, and the reference counts of OpenSSL,
* `loadCertCrlMemory`, `saveCertCrlMemory`, `clearCrlCache` — the functions, with what the lock, the allocator
  and the clock answer,
* `loadLoop_cases`, `updateLoop_cases`, `slotLoop_cases` — which entry each loop stops at,
* `saveCertCrlMemory_cases` — which entry a save writes over.

A CRL is what its pointer denotes.  The index `crl_cache_size` is the length of the array.
-/

namespace SharedUtility.CrlCache

variable {Crl : Type} [DecidableEq Crl]

/-! ## The code -/

structure CrlCacheEntry (Crl : Type) where
  crl : Option Crl := none
  /-- The distribution point URL this CRL came from. -/
  dpUrl : Option Bytes := none
  deriving DecidableEq

/-- The array, and how many references there are to each CRL. -/
structure Store (Crl : Type) where
  crlCache : List (CrlCacheEntry Crl) := []
  references : Crl → Int

/-- What a call is told: whether the lock is taken, the URL copied, the array allocated, and whether the CRL in
a slot is valid when it is looked at. -/
structure Answers (Crl : Type) where
  locked : Bool := true
  copied : Bool := true
  expanded : Bool := true
  valid : Nat → Crl → Bool := fun _ _ => true

def x509CrlUpRef (references : Crl → Int) (crl : Crl) : Crl → Int :=
  Function.update references crl (references crl + 1)

/-- A NULL is not freed. -/
def x509CrlFree (references : Crl → Int) : Option Crl → Crl → Int
  | none => references
  | some crl => Function.update references crl (references crl - 1)

/-- The loop of `load_cert_crl_memory`, from slot `n` on. -/
def loadLoop (valid : Nat → Crl → Bool) (dpUrl : Bytes) :
    (n : Nat) → List (CrlCacheEntry Crl) → (Crl → Int) →
      Option Crl × List (CrlCacheEntry Crl) × (Crl → Int)
  | _, [], references => (none, [], references)
  | n, entry :: entries, references =>
    let next := fun (entry : CrlCacheEntry Crl) references =>
      let r := loadLoop valid dpUrl (n + 1) entries references
      (r.1, entry :: r.2.1, r.2.2)
    match entry.crl, entry.dpUrl with
    | some crl, some entryUrl =>
      if dpUrl ≠ entryUrl then next entry references
      else if valid n crl = false then next {} (x509CrlFree references (some crl))
      else (some crl, entry :: entries, x509CrlUpRef references crl)
    | _, _ => next entry references

/-- `load_cert_crl_memory`: what it writes to `pCrl`; it returns 1 when that is not NULL. -/
def loadCertCrlMemory (dpUrl : Option Bytes) (answers : Answers Crl) (s : Store Crl) :
    Option Crl × Store Crl :=
  match dpUrl with
  | none => (none, s)
  | some dpUrl =>
    if answers.locked = false then (none, s)
    else
      let r := loadLoop answers.valid dpUrl 0 s.crlCache s.references
      (r.1, { crlCache := r.2.1, references := r.2.2 })

/-- The loop that updates an existing entry with the URL; `none` if there is none. -/
def updateLoop (dpUrl : Bytes) (crlp : Option Crl) :
    List (CrlCacheEntry Crl) → (Crl → Int) → Option (List (CrlCacheEntry Crl) × (Crl → Int))
  | [], _ => none
  | entry :: entries, references =>
    let next := (updateLoop dpUrl crlp entries references).map fun r => (entry :: r.1, r.2)
    match entry.crl, entry.dpUrl with
    | some crl, some entryUrl =>
      if dpUrl ≠ entryUrl then next
      else some ({ crl := crlp, dpUrl := some dpUrl } :: entries, x509CrlFree references (some crl))
    | _, _ => next

/-- The loop that looks for an empty or an outdated slot; `none` if there is none. -/
def slotLoop (valid : Nat → Crl → Bool) (dpUrl : Bytes) (crlp : Option Crl) :
    (n : Nat) → List (CrlCacheEntry Crl) → (Crl → Int) →
      Option (List (CrlCacheEntry Crl) × (Crl → Int))
  | _, [], _ => none
  | n, entry :: entries, references =>
    match entry.crl with
    | none => some ({ crl := crlp, dpUrl := some dpUrl } :: entries, references)
    | some crl =>
      if valid n crl = false then
        some ({ crl := crlp, dpUrl := some dpUrl } :: entries, x509CrlFree references (some crl))
      else
        (slotLoop valid dpUrl crlp (n + 1) entries references).map fun r => (entry :: r.1, r.2)

/-- `save_cert_crl_memory`: what it returns, 0 for a failure. -/
def saveCertCrlMemory (dpUrl : Option Bytes) (crlp : Option Crl) (answers : Answers Crl) (s : Store Crl) :
    Int × Store Crl :=
  match dpUrl with
  | none => (0, s)
  | some dpUrl =>
    if answers.locked = false then (0, s)
    else
      let references := match crlp with
        | none => s.references
        | some crl => x509CrlUpRef s.references crl
      if answers.copied = false then (0, { s with references := x509CrlFree references crlp })
      else
        match updateLoop dpUrl crlp s.crlCache references with
        | some r => (2, { crlCache := r.1, references := r.2 })
        | none =>
          match slotLoop answers.valid dpUrl crlp 0 s.crlCache references with
          | some r => (1, { crlCache := r.1, references := r.2 })
          | none =>
            if answers.expanded = false then
              (0, { s with references := x509CrlFree references crlp })
            else
              (1, { crlCache := s.crlCache ++
                      { crl := crlp, dpUrl := some dpUrl } :: List.replicate 9 {}
                    references := references })

/-- `clear_crl_cache`, which takes no lock. -/
def clearCrlCache (s : Store Crl) : Store Crl :=
  { crlCache := []
    references := s.crlCache.foldl (fun references entry => x509CrlFree references entry.crl) s.references }

/-! ## The loops -/

/-- The URLs of the entries that have one. -/
def urls (cache : List (CrlCacheEntry Crl)) : List Bytes :=
  cache.filterMap (·.dpUrl)

omit [DecidableEq Crl] in
theorem mem_urls {url : Bytes} {cache : List (CrlCacheEntry Crl)} :
    url ∈ urls cache ↔ ∃ e ∈ cache, e.dpUrl = some url :=
  List.mem_filterMap

omit [DecidableEq Crl] in
theorem urls_split (front : List (CrlCacheEntry Crl)) (e : CrlCacheEntry Crl) (back : List (CrlCacheEntry Crl)) :
    urls (front ++ e :: back) = urls front ++ (e.dpUrl.toList ++ urls back) := by
  rw [urls, List.filterMap_append, List.filterMap_cons]
  cases e.dpUrl with
  | none => rfl
  | some _ => rfl

theorem x509CrlUpRef_apply (references : Crl → Int) (crl crl' : Crl) :
    x509CrlUpRef references crl crl' = references crl' + if some crl = some crl' then 1 else 0 := by
  rw [x509CrlUpRef, Function.update_apply]
  split_ifs with heq hsome hsome
  · rw [heq]
  · exact absurd (congrArg some heq.symm) hsome
  · exact absurd (Option.some.inj hsome).symm heq
  · exact (Int.add_zero _).symm

theorem x509CrlFree_apply (references : Crl → Int) (crlp : Option Crl) (crl : Crl) :
    x509CrlFree references crlp crl = references crl - if crlp = some crl then 1 else 0 := by
  cases crlp with
  | none => exact (Int.sub_zero _).symm
  | some crl' =>
    rw [x509CrlFree, Function.update_apply]
    split_ifs with heq hsome hsome
    · rw [heq]
    · exact absurd (congrArg some heq.symm) hsome
    · exact absurd (Option.some.inj hsome).symm heq
    · exact (Int.sub_zero _).symm

section

variable {valid : Nat → Crl → Bool} {url : Bytes} {crlp : Option Crl}
  {entry : CrlCacheEntry Crl} {cache entries : List (CrlCacheEntry Crl)}

theorem loadLoop_skip (h : ∀ crl, entry ≠ ⟨some crl, some url⟩) (n : Nat) (references : Crl → Int) :
    loadLoop valid url n (entry :: entries) references =
      ((loadLoop valid url (n + 1) entries references).1,
        entry :: (loadLoop valid url (n + 1) entries references).2.1,
        (loadLoop valid url (n + 1) entries references).2.2) := by
  obtain ⟨crl, dpUrl⟩ := entry
  rw [loadLoop]
  split
  case h_1 crl entryUrl hcrl hurl =>
    have hne : url ≠ entryUrl := by
      rintro rfl
      dsimp only at hcrl hurl
      exact h crl (by rw [hcrl, hurl])
    rw [if_pos hne]
  case h_2 => rfl

theorem loadLoop_match (crl : Crl) (n : Nat) (references : Crl → Int) :
    loadLoop valid url n (⟨some crl, some url⟩ :: entries) references =
      if valid n crl = false then
        ((loadLoop valid url (n + 1) entries (x509CrlFree references (some crl))).1,
          {} :: (loadLoop valid url (n + 1) entries (x509CrlFree references (some crl))).2.1,
          (loadLoop valid url (n + 1) entries (x509CrlFree references (some crl))).2.2)
      else (some crl, ⟨some crl, some url⟩ :: entries, x509CrlUpRef references crl) := by
  rw [loadLoop]
  dsimp only
  rw [if_neg (not_not_intro rfl)]

theorem loadLoop_other (h : ∀ crl, ⟨some crl, some url⟩ ∉ cache) (n : Nat) (references : Crl → Int) :
    loadLoop valid url n cache references = (none, cache, references) := by
  induction cache generalizing n references with
  | nil => rfl
  | cons entry entries ih =>
    have hentry : ∀ crl, entry ≠ ⟨some crl, some url⟩ := fun crl heq => h crl (heq ▸ List.mem_cons_self ..)
    rw [loadLoop_skip hentry, ih fun crl hmem => h crl (List.mem_cons_of_mem _ hmem)]

/-- What a load finds: nothing, the CRL of the entry with the URL, or an outdated one, which is removed. -/
theorem loadLoop_cases (valid : Nat → Crl → Bool) (url : Bytes) (hunique : (urls cache).Nodup) (n : Nat)
    (references : Crl → Int) :
    (loadLoop valid url n cache references = (none, cache, references) ∧
      ∀ crl, ⟨some crl, some url⟩ ∉ cache) ∨
    ∃ front crl back m, cache = front ++ ⟨some crl, some url⟩ :: back ∧
      (valid m crl = true ∧
          loadLoop valid url n cache references = (some crl, cache, x509CrlUpRef references crl) ∨
        valid m crl = false ∧
          loadLoop valid url n cache references =
            (none, front ++ {} :: back, x509CrlFree references (some crl))) := by
  induction cache generalizing n references with
  | nil => exact .inl ⟨rfl, fun _ => List.not_mem_nil⟩
  | cons entry entries ih =>
    have hsplit := urls_split [] entry entries
    rw [List.nil_append] at hsplit
    rw [hsplit] at hunique
    by_cases hmatch : ∃ crl, entry = ⟨some crl, some url⟩
    case pos =>
      obtain ⟨crl, rfl⟩ := hmatch
      refine .inr ⟨[], crl, entries, n, rfl, ?_⟩
      rw [loadLoop_match]
      cases hvalid : valid n crl with
      | true => exact .inl ⟨rfl, if_neg nofun⟩
      | false =>
        refine .inr ⟨rfl, ?_⟩
        -- the other entries have other URLs, so the loop ends without another find
        have hrest : ∀ crl', ⟨some crl', some url⟩ ∉ entries := by
          intro crl' hmem
          exact (List.nodup_cons.1 hunique).1 (List.mem_append_right _ (mem_urls.2 ⟨_, hmem, rfl⟩))
        rw [if_pos rfl, loadLoop_other hrest]
        rfl
    case neg =>
      have hentry : ∀ crl, entry ≠ ⟨some crl, some url⟩ := fun crl heq => hmatch ⟨crl, heq⟩
      rw [loadLoop_skip hentry]
      rcases ih (List.nodup_append.1 (List.nodup_append.1 hunique).2.1).2.1 (n + 1) references with
        ⟨hload, hnone⟩ | ⟨front, crl, back, m, hcache, ⟨hvalid, hload⟩ | ⟨hvalid, hload⟩⟩
      · refine .inl ⟨by rw [hload], fun crl hmem => ?_⟩
        rcases List.mem_cons.1 hmem with heq | hmem
        · exact hentry crl heq.symm
        · exact hnone crl hmem
      · exact .inr ⟨entry :: front, crl, back, m, by rw [hcache]; rfl, .inl ⟨hvalid, by rw [hload]⟩⟩
      · exact .inr ⟨entry :: front, crl, back, m, by rw [hcache]; rfl, .inr ⟨hvalid, by rw [hload]; rfl⟩⟩

theorem updateLoop_skip (h : ∀ crl, entry ≠ ⟨some crl, some url⟩) (references : Crl → Int) :
    updateLoop url crlp (entry :: entries) references =
      (updateLoop url crlp entries references).map fun r => (entry :: r.1, r.2) := by
  obtain ⟨crl, dpUrl⟩ := entry
  rw [updateLoop]
  split
  case h_1 crl entryUrl hcrl hurl =>
    have hne : url ≠ entryUrl := by
      rintro rfl
      dsimp only at hcrl hurl
      exact h crl (by rw [hcrl, hurl])
    rw [if_pos hne]
  case h_2 => rfl

theorem updateLoop_cases (url : Bytes) (crlp : Option Crl) (references : Crl → Int) :
    (updateLoop url crlp cache references = none ∧ ∀ crl, ⟨some crl, some url⟩ ∉ cache) ∨
    ∃ front crl back, cache = front ++ ⟨some crl, some url⟩ :: back ∧
      updateLoop url crlp cache references =
        some (front ++ ⟨crlp, some url⟩ :: back, x509CrlFree references (some crl)) := by
  induction cache with
  | nil => exact .inl ⟨rfl, fun _ => List.not_mem_nil⟩
  | cons entry entries ih =>
    by_cases hmatch : ∃ crl, entry = ⟨some crl, some url⟩
    case pos =>
      obtain ⟨crl, rfl⟩ := hmatch
      exact .inr ⟨[], crl, entries, rfl, if_neg (not_not_intro rfl)⟩
    case neg =>
      have hentry : ∀ crl, entry ≠ ⟨some crl, some url⟩ := fun crl heq => hmatch ⟨crl, heq⟩
      rw [updateLoop_skip hentry]
      rcases ih with ⟨hupdate, hnone⟩ | ⟨front, crl, back, hcache, hupdate⟩
      · refine .inl ⟨by rw [hupdate]; rfl, fun crl hmem => ?_⟩
        rcases List.mem_cons.1 hmem with heq | hmem
        · exact hentry crl heq.symm
        · exact hnone crl hmem
      · exact .inr ⟨entry :: front, crl, back, by rw [hcache]; rfl, by rw [hupdate]; rfl⟩

/-- The slot that is taken is empty or outdated; when there is none, every entry has a CRL. -/
theorem slotLoop_cases (valid : Nat → Crl → Bool) (url : Bytes) (crlp : Option Crl) (n : Nat)
    (references : Crl → Int) :
    slotLoop valid url crlp n cache references = none ∨
    ∃ front e back, cache = front ++ e :: back ∧ (∀ crl, e.crl = some crl → ∃ m, valid m crl = false) ∧
      slotLoop valid url crlp n cache references =
        some (front ++ ⟨crlp, some url⟩ :: back, x509CrlFree references e.crl) := by
  induction cache generalizing n with
  | nil => exact .inl rfl
  | cons entry entries ih =>
    obtain ⟨crl, dpUrl⟩ := entry
    cases crl with
    | none => exact .inr ⟨[], ⟨none, dpUrl⟩, entries, rfl, nofun, rfl⟩
    | some crl =>
      rw [slotLoop]
      dsimp only
      cases hvalid : valid n crl with
      | false =>
        refine .inr ⟨[], ⟨some crl, dpUrl⟩, entries, rfl, ?_, if_pos rfl⟩
        rintro crl' heq
        cases heq
        exact ⟨n, hvalid⟩
      | true =>
        rw [if_neg nofun]
        rcases ih (n + 1) with hslot | ⟨front, e, back, hcache, hstale, hslot⟩
        · exact .inl (by rw [hslot]; rfl)
        · exact .inr ⟨⟨some crl, dpUrl⟩ :: front, e, back, by rw [hcache]; rfl, hstale, by rw [hslot]; rfl⟩

end

/-! ## The save -/

section

variable (url : Bytes) (crl : Crl) (answers : Answers Crl) (s : Store Crl)

/-- A save that fails leaves everything as it was.  Otherwise the entry that is written over is the one with the
URL, or there is none and it is an empty, an outdated or a new slot. -/
theorem saveCertCrlMemory_cases :
    ((saveCertCrlMemory (some url) (some crl) answers s).1 = 0 ∧
      (saveCertCrlMemory (some url) (some crl) answers s).2.crlCache = s.crlCache ∧
      ∀ crl', (saveCertCrlMemory (some url) (some crl) answers s).2.references crl' = s.references crl') ∨
    ∃ grown front e back,
      s.crlCache ++ (List.replicate grown {} : List (CrlCacheEntry Crl)) = front ++ e :: back ∧
      (saveCertCrlMemory (some url) (some crl) answers s).1 ≠ 0 ∧
      (saveCertCrlMemory (some url) (some crl) answers s).2 =
        ⟨front ++ ⟨some crl, some url⟩ :: back, x509CrlFree (x509CrlUpRef s.references crl) e.crl⟩ ∧
      ((∃ crl', e = ⟨some crl', some url⟩) ∨
        (∀ crl', ⟨some crl', some url⟩ ∉ s.crlCache) ∧
          ∀ crl', e.crl = some crl' → ∃ m, answers.valid m crl' = false) := by
  have hback : ∀ crl', x509CrlFree (x509CrlUpRef s.references crl) (some crl) crl' = s.references crl' := by
    intro crl'
    rw [x509CrlFree_apply, x509CrlUpRef_apply]
    omega
  rw [saveCertCrlMemory]
  dsimp only
  by_cases hlocked : answers.locked = false
  · rw [if_pos hlocked]
    exact .inl ⟨rfl, rfl, fun _ => rfl⟩
  rw [if_neg hlocked]
  by_cases hcopied : answers.copied = false
  · rw [if_pos hcopied]
    exact .inl ⟨rfl, rfl, hback⟩
  rw [if_neg hcopied]
  rcases updateLoop_cases url (some crl) (x509CrlUpRef s.references crl) with
    ⟨hupdate, hnone⟩ | ⟨front, crl', back, hcache, hupdate⟩
  · rw [hupdate]
    rcases slotLoop_cases answers.valid url (some crl) 0
        (x509CrlUpRef s.references crl) with hslot | ⟨front, e, back, hcache, hstale, hslot⟩
    · rw [hslot]
      dsimp only
      by_cases hexpanded : answers.expanded = false
      · rw [if_pos hexpanded]
        exact .inl ⟨rfl, rfl, hback⟩
      · -- the first of ten new slots is taken
        rw [if_neg hexpanded]
        exact .inr ⟨10, s.crlCache, {}, List.replicate 9 {}, rfl, Int.one_ne_zero, rfl, .inr ⟨hnone, nofun⟩⟩
    · rw [hslot]
      exact .inr ⟨0, front, e, back, (List.append_nil _).trans hcache, Int.one_ne_zero, rfl, .inr ⟨hnone, hstale⟩⟩
  · rw [hupdate]
    exact .inr ⟨0, front, ⟨some crl', some url⟩, back, (List.append_nil _).trans hcache, nofun, rfl,
      .inl ⟨crl', rfl⟩⟩

end

end SharedUtility.CrlCache
