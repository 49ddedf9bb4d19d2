/-
The embeddings cache (`szl_router/core.py`).

Responses are objects that callers may change after they got them, so the cache
and the callers hold addresses of a heap.  `json.loads(json.dumps(value))` makes
an object that shares nothing with the old one.
-/
import SzlRouter.RouteWalk
import SzlRouter.Sha256

open Py

namespace SzlRouter

/-! ### The identity of a request -/

/-- What an answer may depend on. -/
@[ext]
structure Identity where
  logicalModel : Str
  payload : Dict
  /-- `SZL_EMBED_CACHE_NAMESPACE`. -/
  scope : Str
  /-- `provider.api_key()`. -/
  credential : Option Str
  callerScope : Str
  slot : Str
  provider : Str
  baseUrl : Str
  keyEnv : Str
  sovereign : Bool
  energySource : Str
  deriving DecidableEq

/-- The identity of a payload for a resolved provider. -/
def identityOf (model : Str) (payload : Dict) (p : Provider) (env : Env) (scope callerScope : Str)
    (slot : Str) : Identity where
  logicalModel := model
  payload := payload
  scope := scope
  credential := p.apiKey env
  callerScope := callerScope
  slot := slot
  provider := p.name
  baseUrl := p.baseUrl env
  keyEnv := p.keyEnv
  sovereign := p.sovereign
  energySource := p.energySource

mutual

/-- Whether every number is finite. -/
def allFinite : Json → Bool
  | .num (.float x) => x.isFinite
  | .arr xs => allFiniteList xs
  | .obj kvs => allFiniteFields kvs
  | _ => true

def allFiniteList : List Json → Bool
  | [] => true
  | x :: xs => allFinite x && allFiniteList xs

def allFiniteFields : List (Str × Json) → Bool
  | [] => true
  | (_, v) :: kvs => allFinite v && allFiniteFields kvs

end

/-- The options of `_embedding_json`. -/
def identityDumps : DumpOpts := ⟨true, true, false, true⟩

/-- `_embedding_json`. -/
def embeddingJson (v : Json) : Except Failure Str :=
  if allFinite v = false then
    .error (valueError
      "embeddings request must contain only finite JSON values and string object keys")
  else
    match dumps identityDumps v with
    | none => .error digitsError
    | some text => .ok text

namespace Identity

/-- The message whose HMAC stands for the credentials. -/
def authJson (i : Identity) : Json := .arr [optStr i.credential, .str i.callerScope]

/-- The value whose digest is the cache key. -/
def toJson (i : Identity) (authScope : Str) : Json :=
  .obj [(lit "schema", .str (lit "szl-embedding-cache/v2")),
    (lit "logical_model", .str i.logicalModel), (lit "payload", .obj i.payload),
    (lit "namespace", .str i.scope), (lit "auth_scope", .str authScope),
    (lit "route", .obj [(lit "slot", .str i.slot), (lit "provider", .str i.provider),
      (lit "base_url", .str i.baseUrl), (lit "key_env", .str i.keyEnv),
      (lit "sovereign", .bool i.sovereign), (lit "energy_source", .str i.energySource)])]

end Identity

/-- `text.encode("utf-8")` of a JSON text, which is ASCII. -/
def encodeAscii (text : Str) : Bytes := text.flatMap utf8Char

/-- `_embed_cache_key`. -/
def embedCacheKey (scopeKey : Bytes) (i : Identity) : Except Failure Str :=
  match embeddingJson i.authJson with
  | .error e => .error e
  | .ok auth =>
    match embeddingJson (i.toJson (hmacSha256Hex scopeKey (encodeAscii auth))) with
    | .error e => .error e
    | .ok blob => .ok (sha256Hex (encodeAscii blob))

/-! ### The store -/

/-- The address of an object. -/
abbrev Addr := ℕ

/-- `_EMBED_CACHE`: a time and an object for each key, in insertion order. -/
abbrev Cache := List (Str × Binary64 × Addr)

/-- The settings of the cache and the tables. -/
structure EmbedConfig where
  registry : Registry
  retry : RetryConfig
  ttl : Binary64
  cacheMax : ℤ
  /-- `_EMBED_CACHE_SCOPE_KEY`. -/
  scopeKey : Bytes

/-- One fill of the cache, and whether the call that made it had a budget. -/
structure StoreRecord where
  identity : Identity
  key : Str
  time : Binary64
  value : Json
  budgeted : Bool
  deriving DecidableEq

/-- What happens to the cache, in order. -/
inductive CacheEvent
  /-- The cache is consulted for a provider's route, and has an answer or not. -/
  | consulted (provider : Provider) (identity : Identity) (key : Str) (hit : Bool)
  /-- The answer of a provider is stored. -/
  | stored (provider : Provider) (record : StoreRecord)
  /-- An entry expires or makes room. -/
  | dropped (key : Str)
  deriving DecidableEq

/-- The provider that an event concerns. -/
def CacheEvent.provider? : CacheEvent → Option Provider
  | .consulted provider _ _ _ => some provider
  | .stored provider _ => some provider
  | .dropped _ => none

/-- The providers for which the cache was consulted or filled. -/
def cacheUsers (history : List CacheEvent) : List Provider :=
  history.filterMap CacheEvent.provider?

/-- The cache, the objects, and what happened to the cache. -/
structure CacheStore where
  cache : Cache
  heap : List Json
  history : List CacheEvent

/-- The object at an address. -/
def CacheStore.read (s : CacheStore) (a : Addr) : Json := s.heap.getD a .null

structure EmbedState extends CallState, CacheStore

namespace EmbedState

/-- A new object. -/
def alloc (v : Json) (s : EmbedState) : Addr × EmbedState :=
  (s.heap.length, { s with heap := s.heap ++ [v] })

/-- A step on the cache. -/
def withCache (s : EmbedState) (e : CacheEvent) (cache : Cache) : EmbedState :=
  { s with toCallState := s.toCallState.next, cache := cache, history := s.history ++ [e] }

end EmbedState

/-- `json.loads(json.dumps(value))`; the error is that of an integer with too many
digits. -/
def jsonCopy (v : Json) : Except Failure Json :=
  match (dumps plainDumps v).bind (loads plainLoads) with
  | none => .error digitsError
  | some w => .ok w

/-- The key of the entry with the least time, the first of several. -/
def oldest : Cache → Option Str
  | [] => none
  | e :: es => some (es.foldl (fun best e => if e.2.1 < best.2.1 then e else best) e).1

section

variable (S : Surroundings) (cfg : EmbedConfig)

/-- `_embed_cache_get`: an entry that is too old is dropped. -/
def cacheGet (provider : Provider) (identity : Identity) (key : Str) (s : EmbedState) :
    Option Addr × EmbedState :=
  let now := S.time s.tick
  let looked := fun hit => s.withCache (.consulted provider identity key hit) s.cache
  match Dict.get s.cache key with
  | none => (none, looked false)
  | some (ts, a) =>
    if cfg.ttl ≤ now.sub ts then
      (none, (looked false).withCache (.dropped key) (Dict.without s.cache [key]))
    else (some a, looked true)

/-- The room for a key: a full cache loses its oldest entry, unless the key is in. -/
def makeRoom (key : Str) (s : EmbedState) : Except Failure EmbedState :=
  if cfg.cacheMax ≤ s.cache.length ∧ (Dict.get s.cache key).isNone then
    match oldest s.cache with
    | none => .error (valueError "min() iterable argument is empty")
    | some old => .ok (s.withCache (.dropped old) (Dict.without s.cache [old]))
  else .ok s

/-- `_embed_cache_put`. -/
def cachePut (provider : Provider) (identity : Identity) (key : Str) (value : Json)
    (s : EmbedState) : Except Failure Unit × EmbedState :=
  let now := S.time s.tick
  match makeRoom cfg key { s with toCallState := s.toCallState.next } with
  | .error e => (.error e, { s with toCallState := s.toCallState.next })
  | .ok s =>
    match jsonCopy value with
    | .error e => (.error e, s)
    | .ok copy =>
      let (a, s) := s.alloc copy
      (.ok (), s.withCache (.stored provider ⟨identity, key, now, value, s.budget.isSome⟩)
        (Dict.set s.cache key (now, a)))

/-! ### Frames -/

theorem read_alloc (v : Json) (s : EmbedState) : (s.alloc v).2.read (s.alloc v).1 = v := by
  simp [EmbedState.alloc, CacheStore.read]

/-- An object that exists stays as it is when objects are only added. -/
theorem read_old {s s' : CacheStore} (h : s.heap <+: s'.heap) {a : Addr}
    (ha : a < s.heap.length) : s'.read a = s.read a := by
  obtain ⟨new, hnew⟩ := h
  rw [CacheStore.read, CacheStore.read, ← hnew, List.getD_eq_getElem?_getD,
    List.getD_eq_getElem?_getD, List.getElem?_append_left ha]

theorem withCache_same (s : EmbedState) (e : CacheEvent) (cache : Cache) :
    s.toCallState.Same (s.withCache e cache).toCallState :=
  .next _

/-- A look into the cache finds an entry that is not too old, or it finds nothing and may
drop the entry of the key. -/
theorem cacheGet_cases (provider : Provider) (identity : Identity) (key : Str) (s : EmbedState) :
    (∃ ts a, Dict.get s.cache key = some (ts, a) ∧ ¬ cfg.ttl ≤ (S.time s.tick).sub ts ∧
      cacheGet S cfg provider identity key s =
        (some a, s.withCache (.consulted provider identity key true) s.cache)) ∨
    cacheGet S cfg provider identity key s =
      (none, s.withCache (.consulted provider identity key false) s.cache) ∨
    cacheGet S cfg provider identity key s =
      (none, (s.withCache (.consulted provider identity key false) s.cache).withCache
        (.dropped key) (Dict.without s.cache [key])) := by
  rw [cacheGet]
  cases Dict.get s.cache key with
  | none => exact .inr (.inl rfl)
  | some entry =>
    obtain ⟨ts, a⟩ := entry
    dsimp only
    by_cases hold : cfg.ttl ≤ (S.time s.tick).sub ts
    · rw [if_pos hold]
      exact .inr (.inr rfl)
    · rw [if_neg hold]
      exact .inl ⟨ts, a, rfl, hold, rfl⟩

theorem cacheGet_same (provider : Provider) (identity : Identity) (key : Str) (s : EmbedState) :
    s.toCallState.Same (cacheGet S cfg provider identity key s).2.toCallState := by
  rcases cacheGet_cases S cfg provider identity key s with ⟨ts, a, _, _, heq⟩ | heq | heq
  · rw [heq]
    exact withCache_same s _ _
  · rw [heq]
    exact withCache_same s _ _
  · rw [heq]
    exact (withCache_same s _ _).trans (withCache_same _ _ _)

theorem cacheUsers_append (history history' : List CacheEvent) :
    cacheUsers (history ++ history') = cacheUsers history ++ cacheUsers history' :=
  List.filterMap_append ..

theorem cacheUsers_withCache (s : EmbedState) (e : CacheEvent) (cache : Cache) :
    cacheUsers (s.withCache e cache).history = cacheUsers s.history ++ cacheUsers [e] :=
  cacheUsers_append _ _

/-- A look into the cache is for one provider. -/
theorem cacheGet_users (provider : Provider) (identity : Identity) (key : Str) (s : EmbedState) :
    cacheUsers (cacheGet S cfg provider identity key s).2.history =
      cacheUsers s.history ++ [provider] := by
  rcases cacheGet_cases S cfg provider identity key s with ⟨ts, a, _, _, heq⟩ | heq | heq
  · rw [heq]
    exact cacheUsers_withCache s _ _
  · rw [heq]
    exact cacheUsers_withCache s _ _
  · rw [heq, cacheUsers_withCache, cacheUsers_withCache]
    exact List.append_nil _

theorem makeRoom_users {key : Str} {s s' : EmbedState} (h : makeRoom cfg key s = .ok s') :
    cacheUsers s'.history = cacheUsers s.history := by
  rw [makeRoom] at h
  split_ifs at h
  · cases hold : oldest s.cache with
    | none => rw [hold] at h; cases h
    | some old =>
      rw [hold] at h
      obtain rfl := Except.ok.inj h
      rw [cacheUsers_withCache]
      exact List.append_nil _
  · obtain rfl := Except.ok.inj h
    rfl

/-- A fill of the cache is for one provider. -/
theorem cachePut_users (provider : Provider) (identity : Identity) (key : Str) (value : Json)
    (s : EmbedState) :
    ∃ used, cacheUsers (cachePut S cfg provider identity key value s).2.history =
      cacheUsers s.history ++ used ∧ ∀ p ∈ used, p = provider := by
  rw [cachePut]
  cases hroom : makeRoom cfg key { s with toCallState := s.toCallState.next } with
  | error e => exact ⟨[], (List.append_nil _).symm, by simp⟩
  | ok s' =>
    have husers := makeRoom_users cfg hroom
    dsimp only
    cases jsonCopy value with
    | error e => exact ⟨[], by rw [husers, List.append_nil], by simp⟩
    | ok copy =>
      refine ⟨[provider], ?_, by simp⟩
      dsimp only
      rw [cacheUsers_withCache]
      exact congrArg (· ++ [provider]) husers

theorem makeRoom_frame {key : Str} {s s' : EmbedState} (h : makeRoom cfg key s = .ok s') :
    s.toCallState.Same s'.toCallState ∧ s'.heap = s.heap := by
  rw [makeRoom] at h
  split_ifs at h
  · cases hold : oldest s.cache with
    | none => rw [hold] at h; cases h
    | some old =>
      rw [hold] at h
      obtain rfl := Except.ok.inj h
      exact ⟨withCache_same s _ _, rfl⟩
  · obtain rfl := Except.ok.inj h
    exact ⟨.refl _, rfl⟩

/-- A fill of the cache adds at most an object. -/
theorem cachePut_frame (provider : Provider) (identity : Identity) (key : Str) (value : Json)
    (s : EmbedState) :
    s.toCallState.Same (cachePut S cfg provider identity key value s).2.toCallState ∧
      s.heap <+: (cachePut S cfg provider identity key value s).2.heap := by
  rw [cachePut]
  cases hroom : makeRoom cfg key { s with toCallState := s.toCallState.next } with
  | error e => exact ⟨.next _, List.prefix_refl _⟩
  | ok s' =>
    obtain ⟨hsame, hheap⟩ := makeRoom_frame cfg hroom
    have hsame : s.toCallState.Same s'.toCallState := (CallState.Same.next _).trans hsame
    dsimp only
    cases jsonCopy value with
    | error e => exact ⟨hsame, hheap ▸ List.prefix_refl _⟩
    | ok copy => exact ⟨hsame.trans (.next _), hheap ▸ List.prefix_append _ _⟩

end

/-! ### Answers from the cache -/

/-- The block that marks an answer from the cache. -/
def cacheBlock (origin : Json) (attempts : List Attempt) : Json :=
  .obj [(lit "served_by", .str (lit "cache")), (lit "hit", .bool true),
    (lit "origin_served_by", origin), (lit "lookup_attempts", .arr (attempts.map Attempt.toJson)),
    (lit "note", .str (lit ("exact-hash embeddings cache hit; vectors byte-identical to the " ++
      "upstream result; no recompute, no fabrication.")))]

/-- `served_by` with the marker of the cache; `embed` only stores strings there. -/
def markCached (prov : Dict) : Dict :=
  match Dict.get prov (lit "served_by") with
  | some (.str o) =>
    if o ≠ [] ∧ Str.endsWith o (lit ":cache") = false then
      Dict.set prov (lit "served_by") (.str (o ++ lit ":cache"))
    else prov
  | _ => prov

/-- `_as_cache_hit`, on the copy of the stored object. -/
def markHit (attempts : List Attempt) (out : Dict) : Dict :=
  match Dict.get out (lit "x_szl_provenance") with
  | some (.obj prov) =>
    Dict.set (Dict.set out (lit "x_szl_provenance") (.obj (markCached prov))) (lit "x_szl_cache")
      (cacheBlock ((Dict.get prov (lit "served_by")).getD .null) attempts)
  | _ => Dict.set out (lit "x_szl_cache") (cacheBlock .null attempts)

/-- `_as_cache_hit`. -/
def asCacheHit (cached : Json) (attempts : List Attempt) : Except Failure Json :=
  (jsonCopy cached).map fun out => .obj (markHit attempts (fields out))

/-- The block of an answer from the cache lists the rows of the call that got it. -/
theorem asCacheHit_block {cached out : Json} {attempts : List Attempt}
    (h : asCacheHit cached attempts = .ok out) :
    ∃ origin, out.get (lit "x_szl_cache") = some (cacheBlock origin attempts) := by
  rw [asCacheHit] at h
  cases hcopy : jsonCopy cached with
  | error e => rw [hcopy] at h; cases h
  | ok w =>
    rw [hcopy] at h
    obtain rfl := Except.ok.inj h
    rw [Json.get, markHit]
    split
    · exact ⟨_, Dict.get_set_self⟩
    · exact ⟨_, Dict.get_set_self⟩

end SzlRouter
