/-
Runs of `embed` over one process.

Between two calls the environment and the tables may change, and callers may
change the objects they were returned in any way.  The cache holds copies of its
own, so that every entry is still the copy of the answer that was stored last
under its key.

* `CacheStore.Ok` — what every run keeps of the cache, the objects and the history;
* `embed_ok`, `Process.ok` — calls and runs keep it;
* `embed_cached` — an answer from the cache marks a copy of what was stored last.
-/
import SzlRouter.Attribution
import SzlRouter.EmbedIdentity
import SzlRouter.KeyedHistory

open Py Transition KeyedHistory

namespace SzlRouter

/-! ### Calls and changes -/

/-- What is fixed when the module is loaded. -/
structure CacheSettings where
  ttl : Binary64
  cacheMax : ℤ
  scopeKey : Bytes

/-- A call with everything it meets. -/
structure EmbedCall where
  surroundings : Surroundings
  registry : Registry
  retry : RetryConfig
  request : EmbedRequest
  budget : Option RequestBudget

def EmbedCall.config (K : CacheSettings) (c : EmbedCall) : EmbedConfig :=
  ⟨c.registry, c.retry, K.ttl, K.cacheMax, K.scopeKey⟩

/-- The state a call starts in. -/
def EmbedCall.start (c : EmbedCall) (s : CacheStore) : EmbedState :=
  { tick := 0, budget := c.budget, attempts := [], events := [], toCacheStore := s }

def EmbedCall.perform (K : CacheSettings) (c : EmbedCall) (s : CacheStore) :
    EmbedEnd × EmbedState :=
  embed c.surroundings (c.config K) c.request (c.start s)

/-- The object that a call returns. -/
def EmbedEnd.returned : EmbedEnd → List Addr
  | .fresh a => [a]
  | .cached a => [a]
  | _ => []

/-- The cache with the objects, and the objects that callers hold. -/
structure Process where
  store : CacheStore
  held : List Addr

/-- A call, or a change that a caller makes to an object it was returned. -/
inductive ProcessStep
  | call (c : EmbedCall)
  | change (a : Addr) (v : Json)

/-- The process before its first call. -/
def Process.start : Process := ⟨⟨[], [], []⟩, []⟩

def Process.step (K : CacheSettings) (p : Process) : ProcessStep → Process × Option EmbedEnd
  | .call c =>
    let (e, s) := c.perform K p.store
    (⟨s.toCacheStore, p.held ++ e.returned⟩, some e)
  | .change a v =>
    if a ∈ p.held then
      ({ p with store := { p.store with heap := p.store.heap.set a v } }, none)
    else (p, none)

/-! ### What the cache holds -/

/-- What an event changes in the cache. -/
def CacheEvent.change? : CacheEvent → Option (Change Str StoreRecord)
  | .consulted _ _ _ _ => none
  | .stored _ record => some (.put record.key record)
  | .dropped key => some (.drop key)

def changes (history : List CacheEvent) : List (Change Str StoreRecord) :=
  history.filterMap CacheEvent.change?

/-- The answers that were stored. -/
def CacheEvent.record? : CacheEvent → Option StoreRecord
  | .stored _ record => some record
  | _ => none

def storedRecords (history : List CacheEvent) : List StoreRecord :=
  history.filterMap CacheEvent.record?

/-- The name of the computation that a record stores. -/
def StoreRecord.name (r : StoreRecord) : Str :=
  r.identity.slot ++ lit ":" ++ payloadModel r.identity.payload

/-- A stored value is a checked body under the provenance of its route, and its key is
that of its identity. -/
structure StoreRecord.Served (scopeKey : Bytes) (r : StoreRecord) : Prop where
  key : embedCacheKey scopeKey r.identity = .ok r.key
  sound : Sound identityDumps (.obj r.identity.payload)
  value : ∃ (body : Parsed) (d : Dict) (prov : Provenance), body.val = .obj d ∧
    embeddingResponseError r.identity.payload body.val = none ∧
    r.value = .obj (Dict.set d (lit "x_szl_provenance") (.obj prov.toDict)) ∧
    prov.servedBy = some r.name ∧ prov.routing = none ∧ prov.cost = none ∧
    prov.requestId.isSome = r.budgeted

/-- An entry is the copy of the record under its key. -/
def Holds (heap : List Json) (key : Str) (entry : Binary64 × Addr) (r : StoreRecord) : Prop :=
  r.key = key ∧ r.time = entry.1 ∧ entry.2 < heap.length ∧
    jsonCopy r.value = .ok (heap.getD entry.2 .null)

/-- What every run keeps: the cache holds copies of what was stored last, and no caller
holds one of them. -/
structure CacheStore.Ok (scopeKey : Bytes) (held : List Addr) (s : CacheStore) : Prop where
  tracks : Tracks (Holds s.heap) s.cache (changes s.history)
  apart : ∀ key ts a, Dict.get s.cache key = some (ts, a) → a ∉ held
  served : ∀ r ∈ storedRecords s.history, r.Served scopeKey
  held_lt : ∀ a ∈ held, a < s.heap.length

theorem changes_append (h h' : List CacheEvent) : changes (h ++ h') = changes h ++ changes h' :=
  List.filterMap_append ..

theorem storedRecords_append (h h' : List CacheEvent) :
    storedRecords (h ++ h') = storedRecords h ++ storedRecords h' :=
  List.filterMap_append ..

namespace CacheStore.Ok

variable {scopeKey : Bytes} {held : List Addr} {s : CacheStore} (h : s.Ok scopeKey held)

include h

/-- An entry is the copy of the record that was stored last under its key. -/
theorem get {key : Str} {ts : Binary64} {a : Addr} (hget : Dict.get s.cache key = some (ts, a)) :
    ∃ r, last (changes s.history) key = some r ∧ r.Served scopeKey ∧ r.key = key ∧ r.time = ts ∧
      jsonCopy r.value = .ok (s.read a) := by
  obtain ⟨r, hlast, hkey, htime, _, hcopy⟩ := h.tracks.get hget
  obtain ⟨past, later, heq, _⟩ := last_eq_some_iff.mp hlast
  have hmem : Change.put key r ∈ changes s.history := by
    rw [heq]
    simp
  obtain ⟨e, he, hchange⟩ := List.mem_filterMap.mp hmem
  cases e with
  | stored provider record =>
    obtain ⟨_, rfl⟩ := Change.put.inj (Option.some.inj hchange)
    exact ⟨record, hlast, h.served _ (List.mem_filterMap.mpr ⟨_, he, rfl⟩), hkey, htime, hcopy⟩
  | consulted _ _ _ _ | dropped _ => exact nomatch hchange

/-- A new object changes no entry. -/
theorem alloc (v : Json) :
    CacheStore.Ok scopeKey held ⟨s.cache, s.heap ++ [v], s.history⟩ where
  tracks := h.tracks.mono fun key entry r ⟨hkey, htime, hlt, hcopy⟩ => by
    refine ⟨hkey, htime, ?_, ?_⟩
    · rw [List.length_append]
      exact Nat.lt_add_right _ hlt
    · rw [List.getD_eq_getElem?_getD, List.getElem?_append_left hlt,
        ← List.getD_eq_getElem?_getD]
      exact hcopy
  apart := h.apart
  served := h.served
  held_lt a ha := by
    rw [List.length_append]
    exact Nat.lt_add_right _ (h.held_lt a ha)

/-- A caller holds more objects, none of which is an entry. -/
theorem hold {as : List Addr} (has : ∀ a ∈ as, a < s.heap.length ∧
    ∀ key ts, Dict.get s.cache key ≠ some (ts, a)) : s.Ok scopeKey (held ++ as) where
  tracks := h.tracks
  apart key ts a hget hmem := by
    rcases List.mem_append.mp hmem with hmem | hmem
    · exact h.apart key ts a hget hmem
    · exact (has a hmem).2 key ts hget
  served := h.served
  held_lt a ha := by
    rcases List.mem_append.mp ha with ha | ha
    · exact h.held_lt a ha
    · exact (has a ha).1

theorem of_subset {held' : List Addr} (hsub : held' ⊆ held) : s.Ok scopeKey held' where
  tracks := h.tracks
  apart key ts a hget hmem := h.apart key ts a hget (hsub hmem)
  served := h.served
  held_lt a ha := h.held_lt a (hsub ha)

/-- A caller gets an object that is new. -/
theorem give (v : Json) :
    CacheStore.Ok scopeKey (held ++ [s.heap.length]) ⟨s.cache, s.heap ++ [v], s.history⟩ := by
  refine (h.alloc v).hold ?_
  intro a ha
  rw [List.mem_singleton.mp ha]
  refine ⟨by simp, ?_⟩
  intro key ts hget
  obtain ⟨_, _, _, _, hlt, _⟩ := h.tracks.get hget
  exact lt_irrefl _ hlt

/-- A caller changes an object that it holds. -/
theorem change {a : Addr} (ha : a ∈ held) (v : Json) :
    CacheStore.Ok scopeKey held ⟨s.cache, s.heap.set a v, s.history⟩ where
  tracks key := by
    have hrel := h.tracks key
    dsimp only
    cases hget : Dict.get s.cache key with
    | none =>
      rw [hget] at hrel
      generalize last (changes s.history) key = o at hrel
      cases hrel
      exact .none
    | some entry =>
      rw [hget] at hrel
      -- the object of an entry is not the one that changed
      have hne : a ≠ entry.2 := by
        rintro rfl
        exact h.apart key entry.1 entry.2 hget ha
      generalize last (changes s.history) key = o at hrel
      cases hrel with
      | some hholds =>
        obtain ⟨hkey, htime, hlt, hcopy⟩ := hholds
        refine .some ⟨hkey, htime, ?_, ?_⟩
        · rw [List.length_set]
          exact hlt
        · rw [List.getD_eq_getElem?_getD, List.getElem?_set_ne hne,
            ← List.getD_eq_getElem?_getD]
          exact hcopy
  apart := h.apart
  served := h.served
  held_lt b hb := by
    have hlt := h.held_lt b hb
    simpa using hlt

/-- A look that changes nothing. -/
theorem consult (provider : Provider) (identity : Identity) (key : Str) (hit : Bool) :
    CacheStore.Ok scopeKey held
      ⟨s.cache, s.heap, s.history ++ [.consulted provider identity key hit]⟩ where
  tracks := by
    rw [changes_append, show changes [.consulted provider identity key hit] = [] from rfl,
      List.append_nil]
    exact h.tracks
  apart := h.apart
  served := by
    rw [storedRecords_append]
    simpa [storedRecords, CacheEvent.record?] using h.served
  held_lt := h.held_lt

/-- An entry that is dropped. -/
theorem drop (key : Str) :
    CacheStore.Ok scopeKey held
      ⟨Dict.without s.cache [key], s.heap, s.history ++ [.dropped key]⟩ where
  tracks := by
    rw [changes_append]
    exact h.tracks.drop key
  apart k ts a hget := by
    rw [Dict.get_without] at hget
    split_ifs at hget
    exact h.apart k ts a hget
  served := by
    rw [storedRecords_append]
    simpa [storedRecords, CacheEvent.record?] using h.served
  held_lt := h.held_lt

/-- A copy that is stored in a new object. -/
theorem store (provider : Provider) {r : StoreRecord} (hr : r.Served scopeKey) {copy : Json}
    (hcopy : jsonCopy r.value = .ok copy) :
    CacheStore.Ok scopeKey held ⟨Dict.set s.cache r.key (r.time, s.heap.length), s.heap ++ [copy],
      s.history ++ [.stored provider r]⟩ where
  tracks := by
    rw [changes_append]
    have hholds : Holds (s.heap ++ [copy]) r.key (r.time, s.heap.length) r := by
      refine ⟨rfl, rfl, ?_, ?_⟩
      · simp
      · simpa using hcopy
    exact (h.alloc copy).tracks.put hholds
  apart k ts a hget := by
    by_cases hk : k = r.key
    -- the new object is fresh, so nobody holds it
    · rw [hk, Dict.get_set_self] at hget
      obtain ⟨_, rfl⟩ := Prod.mk.inj (Option.some.inj hget)
      intro hheld
      exact absurd (h.held_lt _ hheld) (lt_irrefl _)
    · rw [Dict.get_set_of_ne hk] at hget
      exact h.apart k ts a hget
  served := by
    rw [storedRecords_append]
    intro r' hr'
    rcases List.mem_append.mp hr' with hr' | hr'
    · exact h.served r' hr'
    · have heq : r' = r := by simpa [storedRecords, CacheEvent.record?] using hr'
      rw [heq]
      exact hr
  held_lt := (h.alloc copy).held_lt

end CacheStore.Ok

/-! ### What a call keeps -/

section

variable {S : Surroundings} {cfg : EmbedConfig} {held : List Addr} {s : EmbedState}

theorem cacheGet_ok (h : s.toCacheStore.Ok cfg.scopeKey held) (provider : Provider)
    (identity : Identity) (key : Str) :
    (cacheGet S cfg provider identity key s).2.toCacheStore.Ok cfg.scopeKey held := by
  rcases cacheGet_cases S cfg provider identity key s with ⟨ts, a, _, _, heq⟩ | heq | heq
  · rw [heq]
    exact h.consult provider identity key true
  · rw [heq]
    exact h.consult provider identity key false
  · rw [heq]
    exact (h.consult provider identity key false).drop key

theorem makeRoom_ok (h : s.toCacheStore.Ok cfg.scopeKey held) {key : Str} {t : EmbedState}
    (hroom : makeRoom cfg key s = .ok t) : t.toCacheStore.Ok cfg.scopeKey held := by
  rw [makeRoom] at hroom
  split_ifs at hroom
  · cases hold : oldest s.cache with
    | none => rw [hold] at hroom; cases hroom
    | some old =>
      rw [hold] at hroom
      obtain rfl := Except.ok.inj hroom
      exact h.drop old
  · obtain rfl := Except.ok.inj hroom
    exact h

/-- A checked answer may be stored. -/
theorem cachePut_ok (h : s.toCacheStore.Ok cfg.scopeKey held) (provider : Provider)
    {identity : Identity} {key : Str} {value : Json}
    (hr : StoreRecord.Served cfg.scopeKey
      ⟨identity, key, S.time s.tick, value, s.budget.isSome⟩) :
    (cachePut S cfg provider identity key value s).2.toCacheStore.Ok cfg.scopeKey held := by
  rw [cachePut]
  cases hroom : makeRoom cfg key { s with toCallState := s.toCallState.next } with
  | error e => exact h
  | ok t =>
    have ht := makeRoom_ok (s := { s with toCallState := s.toCallState.next }) h hroom
    have hbudget : t.budget = s.budget := (makeRoom_frame cfg hroom).1.budget
    dsimp only
    cases hcopy : jsonCopy value with
    | error e => exact ht
    | ok copy =>
      dsimp only
      rw [← hbudget] at hr
      exact ht.store provider hr hcopy

/-- The provenance that an answer gets. -/
theorem serve_provenance (S : Surroundings) (route : Route) (provider : Provider) (result : Dict)
    (s : EmbedState) :
    ∃ prov c, s.serve S route provider result =
        (.obj (Dict.set result (lit "x_szl_provenance") (.obj (Provenance.toDict prov))),
          { s with toCallState := c }) ∧
      prov.servedBy = some (route.1 ++ lit ":" ++ route.2) ∧ prov.routing = none ∧
      prov.cost = none ∧ prov.requestId.isSome = c.budget.isSome := by
  refine ⟨_, _, rfl, rfl, rfl, rfl, ?_⟩
  show (Option.map _ (s.toCallState.markSuccess S).budget).isSome = _
  rw [Option.isSome_map]
  cases hbudget : (s.toCallState.markSuccess S).budget with
  | none => simp [CallState.onBudget, hbudget]
  | some b => simp [CallState.onBudget, hbudget]

/-- What the tries of a call establish: the result is a checked body. -/
def Checked (prep : Prepared) (route : Route) (result : Dict) : Prop :=
  ∃ body : Parsed, body.val = .obj result ∧
    embeddingResponseError (embedPayload prep route.2) body.val = none

theorem embed_store_rule (S : Surroundings) (cfg : EmbedConfig) (req : EmbedRequest)
    (prep : Prepared) (start : ℕ) (held : List Addr) :
    EmbedState.TryRule S cfg req prep start
      (fun _ _ s => start ≤ s.tick ∧ s.toCacheStore.Ok cfg.scopeKey held)
      (fun _ route _ result s => s.toCacheStore.Ok cfg.scopeKey held ∧
        Checked prep route result) where
  quiet := fun _ _ _ => (quiet_later S start).and ⟨fun _ h => h, fun _ _ h => h, fun _ h => h⟩
  later := And.left
  enter := id
  pass := id
  lookup := by
    intro seen route provider identity key s _ _ ⟨hlater, hok⟩
    exact ⟨hlater.trans (cacheGet_same S cfg provider identity key s).tick_le,
      cacheGet_ok hok provider identity key⟩
  tries := by
    intro seen route provider s _ ⟨hlater, hok⟩
    have htick := hlater.trans (tick_le_tryRoute S cfg.retry .embeddings route provider
      (embedPayload prep route.2) req.timeout
      (embeddingResponseError (embedPayload prep route.2)) s.toCallState)
    obtain ⟨_, hserved⟩ := tryRoute_posts S .embeddings provider (embedPayload prep route.2)
      cfg.retry route req.timeout (embeddingResponseError (embedPayload prep route.2))
      s.toCallState
    revert hserved htick
    dsimp only [EmbedState.tryEmbed]
    generalize tryRoute S cfg.retry .embeddings route provider _ _ _ _ = r
    obtain ⟨_ | _ | _ | result | _, c⟩ := r
    · exact fun htick _ => ⟨htick, hok⟩
    · exact fun htick _ => ⟨htick, hok⟩
    · exact fun htick _ => ⟨htick, hok⟩
    -- an answer has passed the check of its response
    · intro _ hserved
      obtain ⟨v, hcheck, rfl, _⟩ := hserved result rfl
      exact ⟨hok, v, embeddingResponseError_none hcheck, hcheck⟩
    · exact fun htick _ => ⟨htick, hok⟩

variable {req : EmbedRequest}

/-- An answer of a try is stored, and returned in an object of its own. -/
theorem deliver_ok (h : s.toCacheStore.Ok cfg.scopeKey held) {prep : Prepared} {c : CallState}
    (hrefusal : embedRefusal req c.budget = none) (hprep : (prepare S req c).1 = .ok prep)
    {route : Route} {provider : Provider} {result : Dict} {key : Option (Identity × Str)}
    (hkey : ∀ identity k, key = some (identity, k) →
      EmbedState.KeyOf S cfg req prep route provider identity k)
    (hresult : Checked prep route result) :
    ∃ a, (EmbedState.deliver S cfg route provider key result s).2.toCacheStore.Ok cfg.scopeKey
        (held ++ [a]) ∧
      ∀ b, (EmbedState.deliver S cfg route provider key result s).1 = .fresh b → b = a := by
  obtain ⟨prov, c', hserve, hname, hrouting, hcost, hbudget⟩ :=
    serve_provenance S route provider result s
  refine ⟨s.heap.length, ?_⟩
  -- the answer goes to the caller, and the cache gets a copy of it
  have hgive := h.give (.obj (Dict.set result (lit "x_szl_provenance") (.obj prov.toDict)))
  rw [EmbedState.deliver, hserve]
  rcases key with _ | ⟨identity, key⟩
  · exact ⟨hgive, fun b hb => (EmbedVisit.fresh.inj hb).symm⟩
  · obtain ⟨⟨tick, rfl⟩, hdigest⟩ := hkey identity key rfl
    obtain ⟨body, hbody, hcheck⟩ := hresult
    -- what is stored was served under the identity of its key
    have hr : StoreRecord.Served cfg.scopeKey
        ⟨identityOf req.model (embedPayload prep route.2) provider (S.env tick) prep.scope
          prep.callerScope route.1, key, S.time c'.tick,
          .obj (Dict.set result (lit "x_szl_provenance") (.obj prov.toDict)),
          c'.budget.isSome⟩ := by
      refine ⟨hdigest, embedPayload_sound hprep route.2,
        body, result, prov, hbody, hcheck, rfl, ?_, hrouting, hcost, hbudget⟩
      rw [hname, StoreRecord.name]
      show some _ = some (route.1 ++ lit ":" ++ payloadModel (embedPayload prep route.2))
      rw [payloadModel_embed hrefusal hprep]
    have hput := @cachePut_ok S cfg _
      (EmbedState.alloc (.obj (Dict.set result (lit "x_szl_provenance") (.obj prov.toDict)))
        { s with toCallState := c' }).2 hgive provider _ _ _ hr
    dsimp only
    revert hput
    rcases cachePut S cfg provider _ key _ _ with ⟨_ | _, t⟩
    · exact fun hput => ⟨hput, fun b hb => by cases hb⟩
    · exact fun hput => ⟨hput, fun b hb => (EmbedVisit.fresh.inj hb).symm⟩

/-- **A call keeps what the cache holds.** Each entry is the last record put under its key, as a
copy that no caller holds, and the objects that the call returned are added to those that callers
hold. -/
theorem embed_ok (h : s.toCacheStore.Ok cfg.scopeKey held) :
    (embed S cfg req s).2.toCacheStore.Ok cfg.scopeKey
      (held ++ (embed S cfg req s).1.returned) := by
  rcases embed_cases S cfg req s with ⟨e, heq⟩ |
    ⟨prep, slots, c, hrefusal, hprep, hsame, hcaptured, heq⟩
  · rw [heq]
    exact h.of_subset (by simp [EmbedEnd.returned])
  · rw [heq]
    have rule := embed_store_rule S cfg req prep c.tick held
    have hends := rule.walk slots (s := { s with toCallState := c }) ⟨Nat.le_refl _, h⟩
    -- an end that returns nothing hands nothing over
    have hquiet : ∀ {t : EmbedState}, t.toCacheStore.Ok cfg.scopeKey held →
        t.toCacheStore.Ok cfg.scopeKey (held ++ []) :=
      fun ht => ht.of_subset (by simp)
    revert hends
    generalize EmbedState.walk S cfg req prep slots { s with toCallState := c } = v
    obtain ⟨_ | _ | a | a | e | _, s'⟩ := v
    · rintro ⟨before, hbefore, _, hok⟩
      exact hquiet hok
    · rintro ⟨before, hbefore, _, hok⟩
      exact hquiet hok
    · rintro ⟨before, ⟨route, _⟩, hbefore, provider, rfl, result, t, key, _, ⟨hok, hresult⟩, hkey,
        hdeliver⟩
      obtain ⟨b, hdelivered, hb⟩ := deliver_ok hok hrefusal hprep hkey hresult
      rw [← hdeliver] at hdelivered hb
      rw [← hb a rfl] at hdelivered
      exact hdelivered
    · rintro ⟨before, ⟨route, _⟩, hbefore, provider, rfl, identity, key, t, entry, out, _, _,
        ⟨_, hok⟩, _, _, hcached⟩
      obtain ⟨rfl, rfl⟩ := Prod.mk.inj hcached
      exact (cacheGet_ok hok provider identity key).give out
    · rintro ⟨before, ⟨route, _⟩, hbefore, ⟨_, hok⟩ |
        ⟨provider, rfl, result, t, key, _, ⟨hok, hresult⟩, hkey, hdeliver⟩⟩
      · exact hquiet hok
      · obtain ⟨b, hdelivered, _⟩ := deliver_ok hok hrefusal hprep hkey hresult
        rw [← hdeliver] at hdelivered
        exact hdelivered.of_subset (by simp [embedFinish, EmbedEnd.returned])
    · exact False.elim

end

/-! ### Answers from the cache -/

/-- An answer is the marked copy of the record that was stored last under the key of a
route, and not too long ago. -/
structure Replay (S : Surroundings) (cfg : EmbedConfig) (req : EmbedRequest) (s : EmbedState)
    (route : Route) (identity : Identity) (record : StoreRecord) (a : Addr) (s' : EmbedState) :
    Prop where
  slot : ∃ prep slots stop before provider, (prepare S req s.toCallState).1 = .ok prep ∧
    Captured S cfg s.tick stop (cfg.registry.resolveEmbedRoutes req.model) slots ∧
    before ++ [(route, some provider)] <+: slots ∧
    EmbedState.Admits S stop s'.tick provider ∧
    EmbedState.KeyOf S cfg req prep route provider identity record.key
  stored : last (changes s'.history) record.key = some record
  served : record.Served cfg.scopeKey
  young : ∃ tick, s.tick ≤ tick ∧ tick < s'.tick ∧ ¬ cfg.ttl ≤ (S.time tick).sub record.time
  marked : ∃ copy, jsonCopy record.value = .ok copy ∧
    asCacheHit copy s'.attempts = .ok (s'.read a)

/-- An answer from the cache replays the record under its key. The record is the one that was put
last for the identity of the call, young enough at the lookup, and the answer is a marked copy of
it. -/
theorem embed_cached {S : Surroundings} {cfg : EmbedConfig} {req : EmbedRequest}
    {s s' : EmbedState} {held : List Addr} (h : s.toCacheStore.Ok cfg.scopeKey held) {a : Addr}
    (hcached : embed S cfg req s = (.cached a, s')) :
    ∃ route identity record, Replay S cfg req s route identity record a s' := by
  rcases embed_cases S cfg req s with ⟨e, heq⟩ |
    ⟨prep, slots, c, hrefusal, hprep, hsame, hcaptured, heq⟩
  · exact nomatch hcached.symm.trans heq
  · rw [heq] at hcached
    have rule := embed_store_rule S cfg req prep c.tick held
    have hends := rule.walk slots (s := { s with toCallState := c }) ⟨Nat.le_refl _, h⟩
    revert hends hcached
    generalize EmbedState.walk S cfg req prep slots { s with toCallState := c } = v
    obtain ⟨_ | _ | _ | b | e | _, t⟩ := v
    · exact fun hcached => nomatch hcached
    · exact fun hcached => nomatch hcached
    · exact fun hcached => nomatch hcached
    · intro hcached
      obtain ⟨hb, rfl⟩ := Prod.mk.inj hcached
      obtain rfl := EmbedEnd.cached.inj hb
      rintro ⟨before, ⟨route, _⟩, hbefore, provider, rfl, identity, key, u, entry, out, hadmits,
        hkey, ⟨hlater, hok⟩, hget, hhit, halloc⟩
      obtain ⟨rfl, rfl⟩ := Prod.mk.inj halloc
      -- only a young entry is looked up with success; the other lookups find nothing
      rcases cacheGet_cases S cfg provider identity key u with
        ⟨ts, entry', hentry, hyoung, hlooked⟩ | hlooked | hlooked
      · rw [hlooked] at hget hhit ⊢
        obtain rfl := Option.some.inj hget
        -- the entry is the last put under its key
        obtain ⟨record, hlast, hserved, rfl, rfl, hcopy⟩ := hok.get hentry
        refine ⟨route, identity, record, ⟨prep, slots, c.tick, before, provider, hprep, hcaptured,
          hbefore, hadmits.mono (Nat.le_succ _), hkey⟩, ?_, hserved,
          ⟨u.tick, hsame.tick_le.trans hlater, Nat.lt_succ_self _, hyoung⟩, _, hcopy, ?_⟩
        · show last (changes (u.history ++ _)) _ = _
          rw [changes_append]
          exact (congrArg (last · record.key) (List.append_nil _)).trans hlast
        · exact hhit.trans (congrArg Except.ok (read_alloc out _).symm)
      · rw [hlooked] at hget
        exact nomatch hget
      · rw [hlooked] at hget
        exact nomatch hget
    · exact fun hcached => nomatch hcached
    · exact fun hcached => nomatch hcached

/-! ### Runs -/

/-- What every run keeps: the cache is what its history says, each record was served under its
key, and no entry is an object that a caller holds. -/
abbrev Process.Ok (K : CacheSettings) (p : Process) : Prop := p.store.Ok K.scopeKey p.held

theorem Process.start_ok (K : CacheSettings) : Process.start.Ok K where
  tracks := .nil
  apart _ _ _ hget := nomatch hget
  served := List.forall_mem_nil _
  held_lt := List.forall_mem_nil _

theorem Process.step_ok {K : CacheSettings} {p : Process} (h : p.Ok K) (step : ProcessStep) :
    (p.step K step).1.Ok K := by
  cases step with
  | call c => exact @embed_ok c.surroundings (c.config K) p.held (c.start p.store) c.request h
  | change a v =>
    rw [Process.step]
    split_ifs with ha
    · exact h.change ha v
    · exact h

/-- **In every run the cache holds what was stored last**, and no caller has a hold on it. A run
is any sequence of calls and of changes that callers make to the objects they were returned. -/
theorem Process.ok (K : CacheSettings) (steps : List ProcessStep) :
    (runs (Process.step K) Process.start steps).1.Ok K :=
  @runs_invariant _ _ _ (Process.step K) (Process.Ok K) (fun _ step hp => Process.step_ok hp step)
    _ (Process.start_ok K) steps

end SzlRouter
