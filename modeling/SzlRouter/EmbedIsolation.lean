/-
Whose vectors an answer from the cache has.

A hit is found under a digest of the identity of the request, on a route whose earlier
routes gave no answer.  The record it replays is the last one that was stored for this
identity, and what was stored is a body that passed the check.

* `tryRoute_noneServed` — a route that gives no answer reports no success;
* `replayed_body` — a replayed answer has the members of the body that was stored;
* `Replay.last_stored` — the record is the last one of its identity in the history;
* `cache_isolated` — whole runs: what the cache shares, and what a hit shows.
-/
import SzlRouter.EmbedBudget
import SzlRouter.BlockedCalls

open Py Transition KeyedHistory

namespace SzlRouter

/-! ### Rows of routes that gave no answer -/

/-- No row reports a success. On such a trail the answer of a call can only be one that was
stored before. -/
def NoneServed (rows : List Attempt) : Prop := ∀ a ∈ rows, a.ok = false

namespace NoneServed

variable {rows : List Attempt}

theorem nil : NoneServed [] := by simp [NoneServed]

theorem snoc (h : NoneServed rows) {a : Attempt} (ha : a.ok = false) :
    NoneServed (rows ++ [a]) := by
  intro a' ha'
  rcases List.mem_append.mp ha' with ha' | ha'
  · exact h a' ha'
  · rw [List.mem_singleton.mp ha']
    exact ha

theorem dropLast (h : NoneServed rows) : NoneServed rows.dropLast :=
  fun a ha => h a (List.mem_of_mem_dropLast ha)

/-- The last row is rewritten into one that reports no success. -/
theorem modifyLast (h : NoneServed rows.dropLast) {f : Attempt → Attempt}
    (hf : ∀ a, (f a).ok = false) : NoneServed (modifyLast f rows) := by
  rcases rows.eq_nil_or_concat with rfl | ⟨front, a, rfl⟩
  · exact nil
  · rw [List.concat_eq_append] at h ⊢
    rw [List.dropLast_concat] at h
    rw [modifyLast_append]
    exact h.snoc (hf a)

end NoneServed

/-- A reply that is no JSON leaves a row without success. -/
theorem transportAttempt_ok (p : Provider) (payload : Dict) (e : Failure) (latency : ℤ) :
    (transportAttempt p payload (.failed e) latency).ok = false := by
  cases e <;> rfl

/-- Only a JSON reply returns. -/
theorem failed_turn (e : Failure) (v : Parsed) : (Reply.failed e).turn ≠ .returns v := by
  intro h
  cases Reply.turn_returns h

section

variable (S : Surroundings) (cfg : RetryConfig) (poster : Poster) (provider : Provider)
  (payload : Dict) (timeout : Binary64)

/-- Only the row of a dispatch that returns may report a success. -/
theorem dispatch_noneServed (attempt : ℕ) (sendTimeout : Binary64) (b : RequestBudget)
    {s : CallState} (h : NoneServed s.attempts) :
    match dispatch S poster provider payload attempt sendTimeout b s with
    | (.ok (.returns _), _, s') => NoneServed s'.attempts.dropLast
    | (_, _, s') => NoneServed s'.attempts := by
  have hclock : NoneServed (S.readClock s).2.attempts := h
  rw [dispatch]
  revert hclock
  rcases S.readClock s with ⟨e | started, s₁⟩
  · exact id
  · intro hclock
    have hsent : NoneServed (S.send poster provider payload sendTimeout s₁).2.next.attempts :=
        hclock
    dsimp only
    revert hsent
    generalize S.send poster provider payload sendTimeout s₁ = sent
    obtain ⟨reply, s₂⟩ := sent
    intro hsent
    dsimp only [noteReply]
    rcases (S.budgetAt b s₂.tick).noteOutcome attempt reply.outcome with ⟨b', _ | _⟩
    · exact hsent
    · have hread : NoneServed (S.readClock s₂.next).2.attempts := hsent
      dsimp only
      revert hread
      rcases S.readClock s₂.next with ⟨e | now, s₃⟩
      · exact id
      · intro hread
        cases reply with
        | json v =>
          -- the row of the reply is the last one
          dsimp only [Reply.turn, CallState.row]
          rw [List.dropLast_concat]
          exact hread
        | failed e =>
          have hrow : NoneServed
              (s₃.row (transportAttempt provider payload (.failed e)
                (latencyMs now started))).attempts :=
            hread.snoc (transportAttempt_ok provider payload e _)
          have hturn := failed_turn e
          dsimp only
          revert hturn
          cases (Reply.failed e).turn with
          | returns v => exact fun hturn => absurd rfl (hturn v)
          | raises e' => exact fun _ => hrow
          | again e' => exact fun _ => hrow

/-- The retries report no success, but in the last row of a result that a budget paid for. -/
theorem postWithRetry_noneServed {s : CallState} (h : NoneServed s.attempts) :
    match postWithRetry S cfg poster provider payload timeout s with
    | (.ok _, s') => NoneServed s'.attempts.dropLast ∧ (s'.budget = none → NoneServed s'.attempts)
    | (.error _, s') => NoneServed s'.attempts := by
  rw [postWithRetry]
  cases s.budget with
  | none =>
    -- without a budget no row is written before the result is in
    have hloop := unbudgetedLoop_invariant S cfg poster provider payload timeout
      (P := fun t => NoneServed t.attempts) (R := fun _ t => NoneServed t.attempts)
      (fun t ht => by
        have hsent : NoneServed (S.send poster provider payload timeout t).2.attempts := ht
        revert hsent
        rcases S.send poster provider payload timeout t with ⟨_ | _, _⟩ <;> exact id)
      (fun t delay ht => ht) cfg.maxAttempts.toNat 0 s h
    revert hloop
    dsimp only
    rcases unbudgetedLoop S cfg poster provider payload timeout cfg.maxAttempts.toNat 0 s with
      ⟨_ | _, t⟩
    · exact id
    · exact fun ht => ⟨NoneServed.dropLast ht, fun _ => ht⟩
  | some b =>
    -- under a budget a dispatch writes its row first, so the row of the result is the last one
    have hloop := budgetedLoop_invariant S cfg poster provider payload timeout
      (P := fun _ t => NoneServed t.attempts) (R := fun _ _ t => NoneServed t.attempts.dropLast)
      (fun b t reason ht => ht)
      (fun b t sendTimeout ht _ => by
        have hlogged : NoneServed (t.log (.reserved ⟨(S.budgetAt b t.tick).reserved + 1,
          (S.budgetAt b t.tick).terminal, S.clock t.tick, sendTimeout⟩)).attempts := ht
        exact dispatch_noneServed S poster provider payload _ sendTimeout _ hlogged)
      (fun n e b t ht => by
        have hrows := (backoff_same S cfg n e b t).1
        exact hrows ▸ ht)
      budgetFuel none b s h
    revert hloop
    dsimp only
    rcases budgetedLoop S cfg poster provider payload timeout budgetFuel none b s with
      ⟨_ | _, b', t⟩
    · exact id
    · exact fun ht => ⟨ht, fun hnone => by cases hnone⟩

/-- A route that gives no answer reports no success. Under a budget the row of a reply is written
before the reply is checked, and a reply that is refused has its row rewritten. -/
theorem tryRoute_noneServed (route : Route) (check : Json → Option String) {s : CallState}
    (h : NoneServed s.attempts) :
    match tryRoute S cfg poster route provider payload timeout check s with
    | (.served _, _) => True
    | (_, s') => NoneServed s'.attempts := by
  have hretry := postWithRetry_noneServed S cfg poster provider payload timeout (s := s.next) h
  rw [tryRoute]
  revert hretry
  rcases postWithRetry S cfg poster provider payload timeout s.next with ⟨(_ | e | _) | v, s'⟩
  · exact id
  · intro hretry
    dsimp only
    split_ifs
    · exact NoneServed.snoc hretry (by cases e <;> rfl)
    · exact hretry
  · exact id
  · rintro ⟨hfront, hall⟩
    dsimp only
    -- a response that the check refuses gets a row of its own, or has its last row rewritten
    cases check v.val with
    | some detail =>
      dsimp only [rejectRow]
      split_ifs with hbudget
      · exact NoneServed.snoc (hall (Option.isNone_iff_eq_none.mp hbudget)) rfl
      · exact NoneServed.modifyLast hfront fun _ => rfl
    | none => trivial

end

/-- What a walk reports before it is served. -/
theorem embed_noneServed_rule (S : Surroundings) (cfg : EmbedConfig) (req : EmbedRequest)
    (prep : Prepared) (start : ℕ) :
    EmbedState.TryRule S cfg req prep start
      (fun _ _ s => start ≤ s.tick ∧ NoneServed s.attempts) (fun _ _ _ _ _ => True) where
  quiet := fun _ _ _ => (quiet_later S start).and {
    same := fun hsame h => hsame.attempts ▸ h
    skip := fun _ hok h => NoneServed.snoc h hok
    onBudget := fun _ h => by
      rw [CallState.onBudget_attempts]
      exact h }
  later := And.left
  enter := id
  pass := id
  lookup := by
    intro seen route provider identity key s _ _ ⟨hlater, hrows⟩
    have hsame := cacheGet_same S cfg provider identity key s
    exact ⟨hlater.trans hsame.tick_le, hsame.attempts ▸ hrows⟩
  tries := by
    intro seen route provider s _ ⟨hlater, hrows⟩
    have htick := hlater.trans (tick_le_tryRoute S cfg.retry .embeddings route provider
      (embedPayload prep route.2) req.timeout
      (embeddingResponseError (embedPayload prep route.2)) s.toCallState)
    have htry := tryRoute_noneServed S cfg.retry .embeddings provider (embedPayload prep route.2)
      req.timeout route (embeddingResponseError (embedPayload prep route.2)) hrows
    revert htick htry
    dsimp only [EmbedState.tryEmbed]
    generalize tryRoute S cfg.retry .embeddings route provider _ _ _ _ = r
    obtain ⟨_ | _ | _ | result | _, c⟩ := r
    · exact fun htick htry => ⟨htick, htry⟩
    · exact fun htick htry => ⟨htick, htry⟩
    · exact fun htick htry => ⟨htick, htry⟩
    -- a served answer has its row, and the walk ends
    · exact fun _ _ => trivial
    · exact fun htick htry => ⟨htick, htry⟩

/-- No row of a call that is answered from the cache reports a success. -/
theorem embed_cached_noneServed {S : Surroundings} {cfg : EmbedConfig} {req : EmbedRequest}
    {s s' : EmbedState} {a : Addr} (hrows : NoneServed s.attempts)
    (h : embed S cfg req s = (.cached a, s')) : NoneServed s'.attempts := by
  rcases embed_cases S cfg req s with ⟨e, heq⟩ | ⟨prep, slots, c, _, _, hsame, _, heq⟩
  · cases (Prod.mk.inj (heq.symm.trans h)).1
  · have rule := embed_noneServed_rule S cfg req prep c.tick
    have hends := rule.walk slots (s := { s with toCallState := c })
      ⟨Nat.le_refl _, (congrArg NoneServed hsame.attempts).mpr hrows⟩
    rw [heq] at h
    revert hends h
    generalize EmbedState.walk S cfg req prep slots { s with toCallState := c } = v
    obtain ⟨_ | _ | _ | b | e | _, t⟩ := v
    · exact fun h => by cases (Prod.mk.inj h).1
    · exact fun h => by cases (Prod.mk.inj h).1
    · exact fun h => by cases (Prod.mk.inj h).1
    -- the walk ends at a hit, which writes no row
    · intro h
      obtain ⟨-, rfl⟩ := Prod.mk.inj h
      rintro ⟨before, slot, _, provider, _, identity, key, u, entry, out, _, _, ⟨_, hu⟩, _, _,
        halloc⟩
      obtain ⟨-, rfl⟩ := Prod.mk.inj halloc
      have hsame := cacheGet_same S cfg provider identity key u
      exact hsame.attempts ▸ hu
    · exact fun h => by cases (Prod.mk.inj h).1
    · exact fun h => by cases (Prod.mk.inj h).1

/-! ### The body of a replayed answer -/

/-- The marker of the cache touches two members. -/
theorem get_markHit {attempts : List Attempt} {out : Dict} {k : Str}
    (hprov : k ≠ lit "x_szl_provenance") (hcache : k ≠ lit "x_szl_cache") :
    Dict.get (markHit attempts out) k = Dict.get out k := by
  rw [markHit]
  split
  · rw [Dict.get_set_of_ne hcache, Dict.get_set_of_ne hprov]
  · exact Dict.get_set_of_ne hcache

/-- A copy of a checked body under its provenance has the members of the body. -/
theorem get_copied_body {body : Parsed} {d prov : Dict} (hbody : body.val = .obj d) {k : Str}
    (hprov : k ≠ lit "x_szl_provenance") :
    (Py.norm plainDumps (.obj (Dict.set d (lit "x_szl_provenance") (.obj prov)))).get k =
      Dict.get d k := by
  have hkeys := @nodup_answer_keys body d prov hbody
  obtain ⟨w, bytes, text, hutf8, hloads⟩ := body
  have hstable := loads_stable plainDumps (decodeUtf8_clean hutf8) hloads
  rw [show w = .obj d from hbody, Stable, stableFields_iff] at hstable
  cases hget : Dict.get d k with
  | none =>
    refine get_norm_none hkeys fun p hp => ?_
    rcases Dict.mem_set hp with hp | rfl
    · -- the keys of a body are shown as they are
      rw [(hstable.2 p hp).1]
      rintro rfl
      exact Dict.get_eq_none.mp hget (List.mem_map_of_mem hp)
    · rw [show plainDumps.text (lit "x_szl_provenance") = lit "x_szl_provenance" by decide +kernel]
      exact hprov.symm
  | some v =>
    have hmem := hstable.2 (k, v) (Dict.mem_of_get hget)
    have hset : Dict.get (Dict.set d (lit "x_szl_provenance") (.obj prov)) k = some v :=
      (Dict.get_set_of_ne hprov).trans hget
    rw [get_norm hkeys hmem.1 hset, norm_of_stable rfl hmem.2]

/-- **A replayed answer has the members of the checked body that was stored**, but the two
members that tell where it comes from. -/
theorem replayed_body {scopeKey : Bytes} {r : StoreRecord} (h : r.Served scopeKey)
    {copy answer : Json} {attempts : List Attempt} (hcopy : jsonCopy r.value = .ok copy)
    (hhit : asCacheHit copy attempts = .ok answer) :
    ∃ body : Parsed, embeddingResponseError r.identity.payload body.val = none ∧
      ∀ k, k ≠ lit "x_szl_provenance" → k ≠ lit "x_szl_cache" → answer.get k = body.val.get k := by
  obtain ⟨body, d, prov, hbody, hcheck, hvalue, -⟩ := h.value
  refine ⟨body, hcheck, fun k hprov hcache => ?_⟩
  -- storing and copying change neither key
  have hcopied : copy.get k = Dict.get d k := by
    rw [(jsonCopy_eq_ok hcopy).1, hvalue]
    exact get_copied_body hbody hprov
  -- and so does marking the hit
  rw [asCacheHit] at hhit
  cases hagain : jsonCopy copy with
  | error e => rw [hagain] at hhit; cases hhit
  | ok w =>
    rw [hagain, jsonCopy_copy hcopy hagain] at hhit
    obtain rfl := Except.ok.inj hhit
    rw [hbody]
    calc (Json.obj (markHit attempts (fields copy))).get k
        = Dict.get (markHit attempts (fields copy)) k := rfl
      _ = Dict.get (fields copy) k := get_markHit hprov hcache
      _ = copy.get k := by
        cases copy with
        | obj d => rfl
        | null | bool _ | num _ | str _ | arr _ => rfl
      _ = Dict.get d k := hcopied

/-! ### The record of an identity -/

/-- The last value under a key, in the events of the history. -/
theorem last_changes {history : List CacheEvent} {r : StoreRecord}
    (h : last (changes history) r.key = some r) :
    ∃ past provider later, history = past ++ .stored provider r :: later ∧
      ∀ e ∈ later, ∀ c, e.change? = some c → c.key ≠ r.key := by
  obtain ⟨puts, drops, heq, hdrops⟩ := last_eq_some_iff.mp h
  obtain ⟨past, rest, rfl, hpast, hrest⟩ := List.filterMap_eq_append_iff.mp heq
  obtain ⟨between, e, later, rfl, hbetween, he, hlater⟩ := List.filterMap_eq_cons_iff.mp hrest
  cases e with
  | consulted _ _ _ _ => cases he
  | dropped key => cases he
  | stored provider r' =>
    obtain ⟨_, rfl⟩ := Change.put.inj (Option.some.inj he)
    refine ⟨past ++ between, provider, later, by simp, fun e he c hc => ?_⟩
    refine hdrops c ?_
    rw [← hlater]
    exact List.mem_filterMap.mpr ⟨e, he, hc⟩

/-- What is stored in a history is the last record of an identity: it was stored, and after
it no record of this identity was stored and its entry was not dropped. -/
def LastStored (history : List CacheEvent) (identity : Identity) (r : StoreRecord) : Prop :=
  ∃ past provider later, history = past ++ .stored provider r :: later ∧
    .dropped r.key ∉ later ∧
    ∀ r' ∈ storedRecords later, r'.identity.canon ≠ identity.canon

/-- The identities of the records of a history. -/
def storedIdentities (history : List CacheEvent) : List Identity :=
  (storedRecords history).map (·.identity)

section

variable {S : Surroundings} {cfg : EmbedConfig} {req : EmbedRequest} {s s' : EmbedState}
  {held : List Addr} {a : Addr} {prep : Prepared} {route : Route} {provider : Provider}
  {identity : Identity} {record : StoreRecord}

/-- The record under the key of an identity is the last one that was stored for it. -/
theorem last_stored (hserved : ∀ r ∈ storedRecords s'.history, r.Served cfg.scopeKey)
    (hprep : (prepare S req s.toCallState).1 = .ok prep)
    (hkey : EmbedState.KeyOf S cfg req prep route provider identity record.key)
    (hlast : last (changes s'.history) record.key = some record) :
    LastStored s'.history identity record := by
  obtain ⟨past, filler, later, heq, hlater⟩ := last_changes hlast
  refine ⟨past, filler, later, heq, fun hdrop => hlater _ hdrop _ rfl rfl, ?_⟩
  intro r hr hsame
  obtain ⟨e, he, hrecord⟩ := List.mem_filterMap.mp hr
  cases e with
  | consulted _ _ _ _ | dropped _ => cases hrecord
  | stored filler' r' =>
    obtain rfl := Option.some.inj hrecord
    have hmem : r' ∈ storedRecords s'.history := by
      rw [heq, storedRecords_append]
      refine List.mem_append_right _ (List.mem_filterMap.mpr ⟨_, List.mem_cons_of_mem _ he, rfl⟩)
    -- one canonical identity has one key, and the key was not filled again
    obtain ⟨⟨tick, rfl⟩, hdigest⟩ := hkey
    have hkeys := embedCacheKey_congr (hserved r' hmem).sound
      (embedPayload_sound hprep route.2) (hserved r' hmem).key hdigest hsame
    exact hlater _ he _ rfl hkeys

end

/-- **What a hit shows**: the members of the body that was stored last for the identity of
the request, less than the time to live ago, on an open sovereign route, and no earlier
route of the call gave an answer. -/
structure IsolatedHit (K : CacheSettings) (c : EmbedCall) (store : CacheStore) (a : Addr)
    (s' : EmbedState) (route : Route) (identity : Identity) (record : StoreRecord) : Prop where
  replay : Replay c.surroundings (c.config K) c.request (c.start store) route identity record a s'
  stored : LastStored s'.history identity record
  same : CollisionFree K.scopeKey (identity :: storedIdentities s'.history) →
    record.identity.canon = identity.canon
  body : ∃ body : Parsed, embeddingResponseError record.identity.payload body.val = none ∧
    ∀ k, k ≠ lit "x_szl_provenance" → k ≠ lit "x_szl_cache" →
      (s'.read a).get k = body.val.get k
  unserved : NoneServed s'.attempts

/-- **Isolation of the cache**, over every run of calls and of changes that callers make to
what they were returned: no entry is an object that a caller holds, and a call that is
answered from the cache gets what was stored last for its own identity. -/
theorem cache_isolated (K : CacheSettings) (steps : List ProcessStep) (c : EmbedCall) :
    let p := (runs (Process.step K) Process.start steps).1
    let r := c.perform K p.store
    (∀ key ts a, Dict.get r.2.cache key = some (ts, a) → a ∉ p.held ∧ a ∉ r.1.returned) ∧
    ∀ a, r.1 = .cached a → ∃ route identity record,
      IsolatedHit K c p.store a r.2 route identity record := by
  intro p r
  have hok : p.store.Ok K.scopeKey p.held := Process.ok K steps
  -- the call is one more step of the process, after which nothing in the cache is held by a caller
  have hkept : r.2.toCacheStore.Ok K.scopeKey (p.held ++ r.1.returned) :=
    @embed_ok c.surroundings (c.config K) p.held (c.start p.store) c.request hok
  constructor
  · intro key ts a hget
    simpa [not_or] using hkept.apart key ts a hget
  · intro a ha
    have hcall : embed c.surroundings (c.config K) c.request (c.start p.store) = (.cached a, r.2) :=
      Prod.ext ha rfl
    obtain ⟨route, identity, record, hreplay⟩ :=
      @embed_cached c.surroundings (c.config K) c.request (c.start p.store) r.2 p.held hok a hcall
    obtain ⟨copy, hcopy, hhit⟩ := hreplay.marked
    obtain ⟨prep, slots, stop, before, provider, hprep, -, -, -, hkey⟩ := hreplay.slot
    have hstored := last_stored hkept.served hprep hkey hreplay.stored
    refine ⟨route, identity, record, hreplay, hstored, ?_, replayed_body hreplay.served hcopy hhit,
      embed_cached_noneServed NoneServed.nil hcall⟩
    -- two identities under one key would be a collision of the keyed hash
    intro hcoll
    obtain ⟨past, filler, later, heq, -, -⟩ := hstored
    have hmem : record.identity ∈ storedIdentities r.2.history := by
      refine List.mem_map_of_mem (List.mem_filterMap.mpr ⟨.stored filler record, ?_, rfl⟩)
      rw [heq]
      simp
    exact embedCacheKey_injective hcoll (List.mem_cons_of_mem _ hmem) (List.mem_cons_self ..)
      hreplay.served.key hkey.2

end SzlRouter
