/-
The size of the embeddings cache.

A put that finds the cache full drops the entry with the least time before it
inserts.  With a cap of at least one there is such an entry whenever one is needed;
with a cap of zero or less an empty cache counts as full, and nothing can be
dropped from it.

* `oldest_spec` — the entry that is dropped has the least time;
* `put_kept` — what a put does to a cache within its cap;
* `cache_bounded_iff` — puts behave in every run exactly when the cap is at least one.
-/
import SzlRouter.BudgetedCalls
import SzlRouter.JsonStable

open Py Transition

namespace SzlRouter

/-! ### Puts and gets -/

/-- A value that `json.dumps` writes, as every answer that was parsed from JSON is. -/
structure Writable where
  value : Json
  writes : dumpable plainDumps value = true

/-- A use of the cache, for a provider and the identity of a request. -/
inductive CacheUse
  | put (provider : Provider) (identity : Identity) (key : Str) (value : Writable)
  | get (provider : Provider) (identity : Identity) (key : Str)

def CacheUse.isPut : CacheUse → Bool
  | .put _ _ _ _ => true
  | .get _ _ _ => false

section

variable (S : Surroundings) (cfg : EmbedConfig)

/-- One use of the cache; a get does not raise. -/
def useCache (s : EmbedState) : CacheUse → EmbedState × Except Failure (Option Addr)
  | .put provider identity key value =>
    let (r, s) := cachePut S cfg provider identity key value.value s
    (s, r.map fun _ => none)
  | .get provider identity key =>
    let (a, s) := cacheGet S cfg provider identity key s
    (s, .ok a)

end

/-- What is asked of a put under a key: it returns, the cache stays within its cap, a key
that was in costs nothing, and another one costs at most the oldest entry. -/
structure PutKept (cacheMax : ℤ) (key : Str) (s : EmbedState)
    (r : EmbedState × Except Failure (Option Addr)) : Prop where
  returns : ∃ a, r.2 = .ok a
  bound : (r.1.cache.length : ℤ) ≤ max cacheMax 0
  restores : Dict.get s.cache key ≠ none →
    ∀ k, k ≠ key → Dict.get r.1.cache k = Dict.get s.cache k
  evicts : Dict.get s.cache key = none →
    (∀ k, k ≠ key → Dict.get r.1.cache k = Dict.get s.cache k) ∨
    ∃ old ts a, Dict.get s.cache old = some (ts, a) ∧
      (∀ k ts' a', Dict.get s.cache k = some (ts', a') → ts ≤ ts') ∧
      ∀ k, k ≠ key → k ≠ old → Dict.get r.1.cache k = Dict.get s.cache k

/-! ### The oldest entry -/

/-- The entry that is kept while the entries are gone through is the least of them. -/
theorem foldl_oldest {best : Str × Binary64 × Addr} {es : Cache} (hbest : best.2.1.isNaN = false)
    (hes : ∀ e ∈ es, e.2.1.isNaN = false) :
    let found := es.foldl (fun best e => if e.2.1 < best.2.1 then e else best) best
    found ∈ best :: es ∧ ∀ e ∈ best :: es, found.2.1 ≤ e.2.1 := by
  induction es generalizing best with
  | nil => simpa using Binary64.le_refl hbest
  | cons e es ih =>
    obtain ⟨he, hes⟩ := List.forall_mem_cons.mp hes
    rw [List.foldl_cons]
    by_cases hlt : e.2.1 < best.2.1
    -- the new entry is older than the best one so far
    · rw [if_pos hlt]
      obtain ⟨hmem, hle⟩ := ih he hes
      refine ⟨List.mem_cons_of_mem _ hmem, ?_⟩
      intro x hx
      rcases List.mem_cons.mp hx with rfl | hx
      · exact Binary64.le_trans (hle e List.mem_cons_self) (Binary64.le_of_lt hlt)
      · exact hle x hx
    -- the best one stays, and it is no later than the new entry
    · rw [if_neg hlt]
      obtain ⟨hmem, hle⟩ := ih hbest hes
      refine ⟨?_, ?_⟩
      · rcases List.mem_cons.mp hmem with heq | hmem
        · rw [heq]
          exact List.mem_cons_self
        · exact List.mem_cons_of_mem _ (List.mem_cons_of_mem _ hmem)
      · intro x hx
        rcases List.mem_cons.mp hx with rfl | hx
        · exact hle x List.mem_cons_self
        rcases List.mem_cons.mp hx with rfl | hx
        · have hbe := (Binary64.lt_or_le he hbest).resolve_left hlt
          exact Binary64.le_trans (hle best List.mem_cons_self) hbe
        · exact hle x (List.mem_cons_of_mem _ hx)

/-- The key that is dropped is that of an entry with the least time; only an empty cache
has none. -/
theorem oldest_spec {cache : Cache} (hnodup : (Dict.keys cache).Nodup)
    (htimes : ∀ e ∈ cache, e.2.1.isNaN = false) (hne : cache ≠ []) :
    ∃ old ts a, oldest cache = some old ∧ Dict.get cache old = some (ts, a) ∧
      ∀ k ts' a', Dict.get cache k = some (ts', a') → ts ≤ ts' := by
  cases cache with
  | nil => exact absurd rfl hne
  | cons e es =>
    obtain ⟨he, hes⟩ := List.forall_mem_cons.mp htimes
    obtain ⟨hmem, hle⟩ := foldl_oldest he hes
    refine ⟨_, _, _, rfl, (Dict.get_eq_some hnodup).mpr hmem, ?_⟩
    intro k ts' a' hk
    exact hle _ (Dict.mem_of_get hk)

/-! ### A put within the cap -/

/-- What every run keeps of the cache: the keys are distinct, the times can be compared, and
there are no more entries than the cap. -/
structure Within (cacheMax : ℤ) (s : EmbedState) : Prop where
  nodup : (Dict.keys s.cache).Nodup
  times : ∀ e ∈ s.cache, e.2.1.isNaN = false
  bound : (s.cache.length : ℤ) ≤ cacheMax

theorem length_set (d : Cache) (k : Str) (v : Binary64 × Addr) :
    (Dict.set d k v).length = if Dict.get d k = none then d.length + 1 else d.length := by
  induction d with
  | nil => rfl
  | cons p d ih =>
    rw [Dict.set, Dict.get_cons]
    by_cases hk : p.1 = k
    · rw [if_pos hk, if_pos hk, if_neg (by simp)]
      rfl
    · rw [if_neg hk, if_neg hk, List.length_cons, ih]
      split_ifs <;> rfl

theorem length_without {d : Cache} (hnodup : (Dict.keys d).Nodup) {k : Str} {v : Binary64 × Addr}
    (h : Dict.get d k = some v) : (Dict.without d [k]).length + 1 = d.length := by
  rw [(Dict.perm_cons_without hnodup h).length_eq, List.length_cons]

theorem jsonCopy_of_writes {v : Json} (h : dumpable plainDumps v = true) :
    jsonCopy v = .ok (Py.norm plainDumps v) := by
  have hdumps : dumps plainDumps v = some (render plainDumps v) := if_pos h
  rw [jsonCopy, hdumps, Option.bind_some,
    @loads_dumps plainDumps plainLoads (fun _ => rfl) _ _ (fun h => nomatch h) hdumps]

section

variable {S : Surroundings} {cfg : EmbedConfig} {s : EmbedState}

/-- There is room for a key: the cache has no more entries than before, and it has fewer
than the cap or the key already. -/
theorem makeRoom_spec (hcap : 1 ≤ cfg.cacheMax) (h : Within cfg.cacheMax s) (key : Str) :
    ∃ t, makeRoom cfg key s = .ok t ∧ Within cfg.cacheMax t ∧
      (Dict.get t.cache key = none → (t.cache.length : ℤ) < cfg.cacheMax) ∧
      (t.cache = s.cache ∨
        Dict.get s.cache key = none ∧ ∃ old ts a, Dict.get s.cache old = some (ts, a) ∧
          (∀ k ts' a', Dict.get s.cache k = some (ts', a') → ts ≤ ts') ∧
          t.cache = Dict.without s.cache [old]) := by
  rw [makeRoom]
  by_cases hfull : cfg.cacheMax ≤ s.cache.length ∧ (Dict.get s.cache key).isNone = true
  · rw [if_pos hfull]
    -- a cap of one or more: a full cache is not empty, so there is an entry to drop
    have hne : s.cache ≠ [] := by
      intro hnil
      have hlength := hfull.1
      rw [hnil] at hlength
      simp at hlength
      omega
    obtain ⟨old, ts, a, hold, hget, hleast⟩ := oldest_spec h.nodup h.times hne
    have hlength := length_without h.nodup hget
    rw [hold]
    refine ⟨_, rfl, ⟨Dict.nodup_keys_without h.nodup _, ?_, ?_⟩, ?_,
      .inr ⟨Option.isNone_iff_eq_none.mp hfull.2, old, ts, a, hget, hleast, rfl⟩⟩
    · intro e he
      exact h.times e (List.mem_of_mem_filter he)
    · have hbound := h.bound
      show ((Dict.without s.cache [old]).length : ℤ) ≤ _
      omega
    · intro _
      have hbound := h.bound
      show ((Dict.without s.cache [old]).length : ℤ) < _
      omega
  · rw [if_neg hfull]
    refine ⟨s, rfl, h, ?_, .inl rfl⟩
    intro hnone
    by_contra hge
    exact hfull ⟨by omega, Option.isNone_iff_eq_none.mpr hnone⟩

/-- A put that has room stores a fresh copy of the value under the time it began at. -/
theorem cachePut_room {key : Str} {t : EmbedState}
    (hroom : makeRoom cfg key { s with toCallState := s.toCallState.next } = .ok t)
    (provider : Provider) (identity : Identity) (value : Writable) :
    cachePut S cfg provider identity key value.value s = (.ok (),
      (t.alloc (Py.norm plainDumps value.value)).2.withCache
        (.stored provider ⟨identity, key, S.time s.tick, value.value, t.budget.isSome⟩)
        (Dict.set t.cache key
          (S.time s.tick, (t.alloc (Py.norm plainDumps value.value)).1))) := by
  rw [cachePut, hroom, jsonCopy_of_writes value.writes]
  rfl

/-- **What a put does to a cache within its cap.** It returns, the cache stays within the cap,
and no entry but the one under its key and the oldest one changes. The keys stay distinct and the
times comparable, which is what the next put relies on. -/
theorem put_kept (hcap : 1 ≤ cfg.cacheMax) (htime : ∀ t, (S.time t).isNaN = false)
    (h : Within cfg.cacheMax s) (provider : Provider) (identity : Identity) (key : Str)
    (value : Writable) :
    PutKept cfg.cacheMax key s (useCache S cfg s (.put provider identity key value)) ∧
      Within cfg.cacheMax (useCache S cfg s (.put provider identity key value)).1 := by
  obtain ⟨t, hroom, ht, hfree, hdropped⟩ := @makeRoom_spec cfg
    { s with toCallState := s.toCallState.next } hcap ⟨h.nodup, h.times, h.bound⟩ key
  rw [useCache, cachePut_room hroom]
  set a := (t.alloc (Py.norm plainDumps value.value)).1
  have hlength : ((Dict.set t.cache key (S.time s.tick, a)).length : ℤ) ≤ cfg.cacheMax := by
    rw [length_set]
    split_ifs with hnone
    · have hlt := hfree hnone
      push_cast
      omega
    · exact ht.bound
  -- a key that is not the one written is as it was after the room was made
  have hother : ∀ k, k ≠ key →
      Dict.get (Dict.set t.cache key (S.time s.tick, a)) k = Dict.get t.cache k :=
    fun k hk => Dict.get_set_of_ne hk
  refine ⟨⟨⟨none, rfl⟩, le_max_of_le_left hlength, ?_, ?_⟩,
    ⟨Dict.nodup_keys_set ht.nodup, ?_, hlength⟩⟩
  · intro hsome k hk
    rcases hdropped with hcache | ⟨hnone, _⟩
    · exact (hother k hk).trans (congrArg (Dict.get · k) hcache)
    · exact absurd hnone hsome
  · intro _
    rcases hdropped with hcache | ⟨_, old, ts, a', hold, hleast, hcache⟩
    · exact .inl fun k hk => (hother k hk).trans (congrArg (Dict.get · k) hcache)
    · refine .inr ⟨old, ts, a', hold, hleast, fun k hk hne => (hother k hk).trans ?_⟩
      rw [hcache, Dict.get_without, if_neg (by simpa using hne)]
  · intro e he
    rcases Dict.mem_set he with he | rfl
    · exact ht.times e he
    · exact htime _

/-- A get only drops the entry that it looked for. -/
theorem get_within {cacheMax : ℤ} (h : Within cacheMax s) (provider : Provider)
    (identity : Identity) (key : Str) :
    Within cacheMax (useCache S cfg s (.get provider identity key)).1 := by
  rw [useCache]
  rcases cacheGet_cases S cfg provider identity key s with ⟨ts, a, _, _, heq⟩ | heq | heq
  · rw [heq]
    exact ⟨h.nodup, h.times, h.bound⟩
  · rw [heq]
    exact ⟨h.nodup, h.times, h.bound⟩
  · rw [heq]
    refine ⟨Dict.nodup_keys_without h.nodup _,
      fun e he => h.times e (List.mem_of_mem_filter he), ?_⟩
    have hle : (Dict.without s.cache [key]).length ≤ s.cache.length := List.length_filter_le _ _
    have hbound := h.bound
    show ((Dict.without s.cache [key]).length : ℤ) ≤ cacheMax
    omega

/-! ### Answers -/

/-! ### Runs -/

/-- Gets leave an empty cache empty. -/
theorem gets_empty {uses : List CacheUse} (hgets : ∀ u ∈ uses, u.isPut = false)
    (h : s.cache = []) : (runs (useCache S cfg) s uses).1.cache = [] := by
  induction uses generalizing s with
  | nil => exact h
  | cons u uses ih =>
    obtain ⟨hu, hgets⟩ := List.forall_mem_cons.mp hgets
    rw [runs_cons]
    refine ih hgets ?_
    cases u with
    | put _ _ _ _ => exact nomatch hu
    | get provider identity key =>
      rw [useCache, cacheGet, h]
      rfl

/-- A put into an empty cache without room for an entry raises. -/
theorem put_raises (hcap : cfg.cacheMax ≤ 0) (h : s.cache = []) (provider : Provider)
    (identity : Identity) (key : Str) (value : Writable) :
    ∃ e, (useCache S cfg s (.put provider identity key value)).2 = .error e := by
  have hroom : makeRoom cfg key { s with toCallState := s.toCallState.next } =
      .error (valueError "min() iterable argument is empty") := by
    rw [makeRoom, h, if_pos ⟨hcap, rfl⟩]
    rfl
  rw [useCache, cachePut, hroom]
  exact ⟨_, rfl⟩

/-- A run within the cap stays within it. -/
theorem runs_within (hcap : 1 ≤ cfg.cacheMax) (htime : ∀ t, (S.time t).isNaN = false)
    (h : Within cfg.cacheMax s) (uses : List CacheUse) :
    Within cfg.cacheMax (runs (useCache S cfg) s uses).1 := by
  refine runs_invariant ?_ h uses
  intro s u hs
  cases u with
  | put provider identity key value => exact (put_kept hcap htime hs provider identity key value).2
  | get provider identity key => exact get_within hs provider identity key

end

/-- **The cache is bounded, and puts return**, in a run of puts and gets exactly when the cap is
at least one or nothing is put. With a cap of zero or less the first put looks for the oldest
entry of an empty cache and raises. The times are those of a clock that gives no NaN. -/
theorem cache_bounded_iff (S : Surroundings) (cfg : EmbedConfig)
    (htime : ∀ t, (S.time t).isNaN = false) (s : EmbedState) (hempty : s.cache = [])
    (uses : List CacheUse) :
    (∀ before provider identity key value after,
      uses = before ++ .put provider identity key value :: after →
      PutKept cfg.cacheMax key (runs (useCache S cfg) s before).1
        (useCache S cfg (runs (useCache S cfg) s before).1 (.put provider identity key value))) ↔
    1 ≤ cfg.cacheMax ∨ ∀ u ∈ uses, u.isPut = false := by
  constructor
  · intro h
    by_contra hnot
    rw [not_or, not_forall] at hnot
    obtain ⟨hcap, hput⟩ := hnot
    -- the first put of the run finds an empty cache
    obtain ⟨before, u, after, rfl, hgets, hu⟩ : ∃ before u after, uses = before ++ u :: after ∧
        (∀ v ∈ before, v.isPut = false) ∧ u.isPut = true := by
      obtain ⟨w, hw⟩ := hput
      rw [Classical.not_imp, Bool.not_eq_false] at hw
      obtain ⟨u, hu⟩ := Option.isSome_iff_exists.mp (List.find?_isSome.mpr ⟨w, hw.1, hw.2⟩)
      obtain ⟨hu, before, after, heq, hbefore⟩ := List.find?_eq_some_iff_append.mp hu
      exact ⟨before, u, after, heq, fun v hv => by simpa using hbefore v hv, hu⟩
    cases u with
    | get _ _ _ => exact nomatch hu
    | put provider identity key value =>
      obtain ⟨a, hreturns⟩ := (h before provider identity key value after rfl).returns
      obtain ⟨e, hraises⟩ := @put_raises S cfg _ (by omega) (gets_empty hgets hempty) provider
        identity key value
      exact nomatch hreturns.symm.trans hraises
  · rintro (hcap | hgets) before provider identity key value after rfl
    · have hstart : Within cfg.cacheMax s := by
        refine ⟨?_, ?_, ?_⟩
        · rw [hempty]
          exact List.nodup_nil
        · rw [hempty]
          exact List.forall_mem_nil _
        · rw [hempty]
          simp
          omega
      exact (put_kept hcap htime (runs_within hcap htime hstart before) _ _ _ _).1
    · exact nomatch hgets _ (List.mem_append_right _ List.mem_cons_self)

/-! ### A cap of two that evicts, and a cap of zero -/

def usePut (key : Str) : CacheUse :=
  .put (selfHosted (lit "local_ollama") [] []) (identityOf (lit "m") []
    (selfHosted (lit "local_ollama") [] []) localEnv [] [] (lit "local_ollama")) key
    ⟨.obj [(lit "data", .arr [])], by decide⟩

/-- A clock that is set back while the second of the puts below reads it. -/
def setBack (tick : ℕ) : Binary64 :=
  if tick = 2 then 0 else 1

/-- Three keys under a cap of two: the third put drops the second key, which is the one with
the least time although it came in later. -/
theorem cache_bounded_iff_evicting :
    let S := { Surroundings.still localEnv busyReply with time := setBack }
    let cfg : EmbedConfig := { localCache with cacheMax := 2 }
    let s : EmbedState := ⟨⟨0, none, [], []⟩, [], [], []⟩
    let uses := [usePut (lit "a"), usePut (lit "b"), usePut (lit "c")]
    Dict.keys (runs (useCache S cfg) s uses).1.cache = [lit "a", lit "c"] ∧
    ((∀ before provider identity key value after,
      uses = before ++ .put provider identity key value :: after →
      PutKept 2 key (runs (useCache S cfg) s before).1
        (useCache S cfg (runs (useCache S cfg) s before).1 (.put provider identity key value))) ↔
    1 ≤ (2 : ℤ) ∨ ∀ u ∈ uses, u.isPut = false) := by
  intro S cfg s uses
  have htime : ∀ t, (setBack t).isNaN = false := by
    intro t
    rw [setBack]
    split_ifs <;> decide +kernel
  -- each put finds room or makes it, and the third one does
  have hput := fun (s t : EmbedState) (key : Str) hroom =>
    @cachePut_room S cfg s key t hroom (selfHosted (lit "local_ollama") [] [])
      (identityOf (lit "m") [] (selfHosted (lit "local_ollama") [] []) localEnv [] []
        (lit "local_ollama")) ⟨.obj [(lit "data", .arr [])], by decide⟩
  refine ⟨?_, cache_bounded_iff S cfg htime s rfl uses⟩
  simp only [uses, runs, usePut, useCache]
  rw [hput s _ _ rfl, hput _ _ _ rfl, hput _ _ _ rfl]
  decide +kernel

/-- With a cap of zero the first answer is not stored: the put raises. -/
theorem cache_not_bounded :
    let S := Surroundings.still localEnv busyReply
    let cfg : EmbedConfig := { localCache with cacheMax := 0 }
    let s : EmbedState := ⟨⟨0, none, [], []⟩, [], [], []⟩
    ¬PutKept 0 (lit "k") s (useCache S cfg s (usePut (lit "k"))) := by
  intro S cfg s hkept
  obtain ⟨a, hreturns⟩ := hkept.returns
  obtain ⟨e, hraises⟩ := @put_raises S cfg s (le_refl 0) rfl
    (selfHosted (lit "local_ollama") [] []) (identityOf (lit "m") []
      (selfHosted (lit "local_ollama") [] []) localEnv [] [] (lit "local_ollama")) (lit "k")
    ⟨.obj [(lit "data", .arr [])], by decide⟩
  exact nomatch hreturns.symm.trans hraises

end SzlRouter
