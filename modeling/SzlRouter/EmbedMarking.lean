/-
Which answers of `embed` are marked as coming from the cache.

An answer of a dispatch is the body of the upstream under a provenance block, with
every other member that the upstream sent.  An answer from the cache is a copy of a
stored one, whose `served_by` gets a suffix unless the name ends with it already.

* `fresh_marked_iff` — an answer of a dispatch has no mark when the body has none;
* `cached_marked_iff` — a replayed answer is marked when the suffix is added to its name;
* `marking_iff` — both, for every answer of every run.
-/
import SzlRouter.EmbedRuns
import SzlRouter.BudgetedCalls

open Py Transition

namespace SzlRouter

/-- An answer that says it was replayed, from the computation of this name: in its cache block,
and in the suffix of the name it was served under. -/
structure MarkedCached (name : Str) (answer : Json) : Prop where
  origin : ∃ block, answer.get (lit "x_szl_cache") = some block ∧
    block.get (lit "origin_served_by") = some (.str name)
  served_by : ∃ prov, answer.get (lit "x_szl_provenance") = some prov ∧
    prov.get (lit "served_by") = some (.str (name ++ lit ":cache"))

/-- An answer that says it was computed under this name, and has no cache block. -/
structure MarkedFresh (name : Str) (answer : Json) : Prop where
  block : answer.get (lit "x_szl_cache") = none
  served_by : ∃ prov, answer.get (lit "x_szl_provenance") = some prov ∧
    prov.get (lit "served_by") = some (.str name)

/-- A name that a copy shows as it is, and that does not look marked. -/
def Plain (name : Str) : Prop := joinPairs name = name ∧ Str.endsWith name (lit ":cache") = false

/-- `provider:upstream_model`. -/
def Route.name (route : Route) : Str := route.1 ++ lit ":" ++ route.2

/-! ### Answers of a dispatch -/

theorem fresh_marked_iff {env : Env} {route : Route} {provider : Provider} {p : Post}
    {answer : Json} (h : Attributed env route provider p answer) :
    ∃ (v : Parsed) (body : Dict), p.reply = .json v ∧ v.val = .obj body ∧
      (MarkedFresh (Route.name route) answer ↔ Dict.get body (lit "x_szl_cache") = none) := by
  obtain ⟨v, body, prov, hreply, hbody, rfl, hnames⟩ := h
  have hne : lit "x_szl_cache" ≠ lit "x_szl_provenance" := by decide
  have hblock : (Json.obj (Dict.set body (lit "x_szl_provenance") (.obj prov))).get
      (lit "x_szl_cache") = Dict.get body (lit "x_szl_cache") :=
    Dict.get_set_of_ne hne
  refine ⟨v, body, hreply, hbody, ?_⟩
  constructor
  · intro hmarked
    rw [← hblock]
    exact hmarked.block
  · intro hnone
    exact ⟨hblock.trans hnone, .obj prov, Dict.get_set_self, hnames.served_by⟩

/-! ### Copies -/

/-- A copy is the normal form of the value, and it has no pairs left. -/
theorem jsonCopy_eq_ok {v w : Json} (h : jsonCopy v = .ok w) :
    w = Py.norm plainDumps v ∧ Stable plainDumps w := by
  rw [jsonCopy] at h
  cases hdumps : dumps plainDumps v with
  | none => rw [hdumps] at h; cases h
  | some t =>
    have hloads := @loads_dumps plainDumps plainLoads (fun _ => rfl) _ _ (fun h => nomatch h) hdumps
    rw [hdumps, Option.bind_some, hloads] at h
    obtain rfl := Except.ok.inj h
    exact ⟨rfl, loads_stable _ (dumps_ascii rfl hdumps).clean hloads⟩

/-- A copy of a copy is the same. -/
theorem jsonCopy_copy {v w u : Json} (h : jsonCopy v = .ok w) (h' : jsonCopy w = .ok u) : u = w :=
  (jsonCopy_eq_ok h').1.trans (norm_of_stable rfl (jsonCopy_eq_ok h).2)

/-- A member of an object is read back under its key. -/
theorem get_norm {o : DumpOpts} {kvs : Dict} (hnodup : (kvs.map fun p => o.text p.1).Nodup)
    {k : Str} {v : Json} (hk : o.text k = k) (hget : Dict.get kvs k = some v) :
    (Py.norm o (.obj kvs)).get k = some (Py.norm o v) := by
  rw [norm_obj_of_nodup hnodup, Json.get, Dict.get_eq_some (nodup_rereadMembers hnodup)]
  refine List.mem_map.mpr ⟨(k, v), ?_, ?_⟩
  · exact (o.order_perm kvs).mem_iff.mpr (Dict.mem_of_get hget)
  · rw [hk]

/-! ### Answers from the cache -/

/-- The keys of a checked body and of its provenance are read back as they are. -/
theorem nodup_answer_keys {v : Parsed} {d prov : Dict} (hbody : v.val = .obj d) :
    ((Dict.set d (lit "x_szl_provenance") (.obj prov)).map
      fun p => plainDumps.text p.1).Nodup := by
  obtain ⟨w, body, text, hutf8, hloads⟩ := v
  have hstable := loads_stable plainDumps (decodeUtf8_clean hutf8) hloads
  rw [show w = .obj d from hbody, Stable, stableFields_iff] at hstable
  have hown : plainDumps.text (lit "x_szl_provenance") = lit "x_szl_provenance" := by
    decide +kernel
  have hmap : (Dict.set d (lit "x_szl_provenance") (.obj prov)).map
      (fun p => plainDumps.text p.1) =
      Dict.keys (Dict.set d (lit "x_szl_provenance") (.obj prov)) := by
    refine List.map_congr_left fun p hp => ?_
    rcases Dict.mem_set hp with hp | rfl
    · exact (hstable.2 p hp).1
    · exact hown
  rw [hmap]
  exact Dict.nodup_keys_set hstable.1

theorem nodup_provenance_keys {prov : Provenance} (hrouting : prov.routing = none)
    (hcost : prov.cost = none) : (prov.toDict.map fun p => plainDumps.text p.1).Nodup := by
  rw [Provenance.toDict, hrouting, hcost, Provenance.budgetMembers]
  split_ifs
  · show ([lit "served_by", lit "provider", lit "upstream_model", lit "base_url",
      lit "sovereign", lit "energy_source", lit "tier", lit "attempts", lit "request_id",
      lit "policy_revision", lit "terminal_reason", lit "attempt_ceiling",
      lit "attempts_reserved"].map plainDumps.text).Nodup
    decide +kernel
  · show ([lit "served_by", lit "provider", lit "upstream_model", lit "base_url",
      lit "sovereign", lit "energy_source", lit "tier", lit "attempts"].map
        plainDumps.text).Nodup
    decide +kernel

/-- The copy of a stored answer shows the name of its computation. -/
theorem served_copy {scopeKey : Bytes} {r : StoreRecord} (h : r.Served scopeKey) {copy : Json}
    (hcopy : jsonCopy r.value = .ok copy) :
    ∃ prov, copy.get (lit "x_szl_provenance") = some (.obj prov) ∧
      Dict.get prov (lit "served_by") = some (.str (joinPairs r.name)) := by
  obtain ⟨v, d, prov, hbody, _, hvalue, hname, hrouting, hcost, _⟩ := h.value
  obtain ⟨rfl, _⟩ := jsonCopy_eq_ok hcopy
  rw [hvalue]
  have hprov := nodup_provenance_keys hrouting hcost
  have hkeys := @nodup_answer_keys v d prov.toDict hbody
  have hget := get_norm (k := lit "x_szl_provenance") hkeys (by decide +kernel) Dict.get_set_self
  rw [norm_obj_of_nodup hprov] at hget
  refine ⟨_, hget, ?_⟩
  have hserved := get_norm (k := lit "served_by") (v := .str r.name) hprov (by decide +kernel)
    (congrArg (some ∘ optStr) hname)
  rw [norm_obj_of_nodup hprov] at hserved
  exact hserved

/-- What `_as_cache_hit` makes of an answer under a name. -/
theorem markHit_get {attempts : List Attempt} {out prov : Dict} {name : Str}
    (hprov : Dict.get out (lit "x_szl_provenance") = some (.obj prov))
    (hname : Dict.get prov (lit "served_by") = some (.str name)) :
    Dict.get (markHit attempts out) (lit "x_szl_cache") =
        some (cacheBlock (.str name) attempts) ∧
      Dict.get (markHit attempts out) (lit "x_szl_provenance") =
        some (.obj (markCached prov)) := by
  have hne : lit "x_szl_provenance" ≠ lit "x_szl_cache" := by decide
  rw [markHit, hprov]
  dsimp only
  rw [hname]
  exact ⟨Dict.get_set_self, (Dict.get_set_of_ne hne).trans Dict.get_set_self⟩

theorem markCached_get {prov : Dict} {name : Str}
    (hname : Dict.get prov (lit "served_by") = some (.str name)) (hne : name ≠ []) :
    Dict.get (markCached prov) (lit "served_by") =
      some (.str (if Str.endsWith name (lit ":cache") then name else name ++ lit ":cache")) := by
  rw [markCached, hname]
  dsimp only
  by_cases hends : Str.endsWith name (lit ":cache") = true
  · rw [if_neg (fun h => by simp [h.2] at hends), if_pos hends]
    exact hname
  · rw [if_pos ⟨hne, by simpa using hends⟩, if_neg hends]
    exact Dict.get_set_self

/-- **A replayed answer is marked exactly when its name is plain.** A plain name does not end in
the mark itself: one that does is taken for a marked name, and is left as it is. -/
theorem cached_marked_iff {scopeKey : Bytes} {r : StoreRecord} (h : r.Served scopeKey)
    {copy answer : Json} {attempts : List Attempt} (hcopy : jsonCopy r.value = .ok copy)
    (hhit : asCacheHit copy attempts = .ok answer) :
    MarkedCached r.name answer ↔ Plain r.name := by
  obtain ⟨prov, hprov, hname⟩ := served_copy h hcopy
  -- the hit is the marked copy, since a copy of a copy is the copy
  have hanswer : answer = .obj (markHit attempts (fields copy)) := by
    rw [asCacheHit] at hhit
    cases hagain : jsonCopy copy with
    | error e => rw [hagain] at hhit; cases hhit
    | ok w =>
      rw [hagain, jsonCopy_copy hcopy hagain] at hhit
      exact (Except.ok.inj hhit).symm
  have hfields : Dict.get (fields copy) (lit "x_szl_provenance") = some (.obj prov) := by
    cases copy with
    | obj d => exact hprov
    | null | bool _ | num _ | str _ | arr _ => cases hprov
  -- the name of a route has its colon, so it is never empty
  have hne : joinPairs r.name ≠ [] := by
    intro hnil
    have hsame := @joinPairs_of_small r.name (by simp [hnil])
    rw [hnil] at hsame
    have hname : r.name ≠ [] := by simp [StoreRecord.name, lit]
    exact hname hsame.symm
  obtain ⟨hblock, hmarked⟩ := @markHit_get attempts _ _ _ hfields hname
  have hserved := markCached_get hname hne
  have horigin : (cacheBlock (.str (joinPairs r.name)) attempts).get (lit "origin_served_by") =
      some (.str (joinPairs r.name)) := rfl
  rw [hanswer]
  constructor
  -- a name that ends in the mark is not marked again, so the answer shows the name itself
  · rintro ⟨⟨block, hget, hshown⟩, prov', hget', hshown'⟩
    obtain rfl := Option.some.inj (hblock.symm.trans hget)
    obtain rfl := Option.some.inj (hmarked.symm.trans hget')
    have hjoin : joinPairs r.name = r.name :=
      Json.str.inj (Option.some.inj (horigin.symm.trans hshown))
    refine ⟨hjoin, ?_⟩
    by_contra hends
    rw [Bool.not_eq_false] at hends
    rw [hjoin, if_pos hends] at hserved
    have hsame := Json.str.inj (Option.some.inj (hserved.symm.trans hshown'))
    have hlength := congrArg List.length hsame
    simp [lit] at hlength
  · rintro ⟨hjoin, hends⟩
    rw [hjoin] at hblock hserved horigin
    rw [hends] at hserved
    exact ⟨⟨_, hblock, horigin⟩, _, hmarked, hserved⟩

/-! ### Runs -/

/-- A fresh answer of a call: the last post of the call went to a known provider of the
route, and was answered with the body. -/
def AnswerOf (c : EmbedCall) (r : EmbedEnd × EmbedState) (a : Addr) (route : Route)
    (body : Dict) : Prop :=
  ∃ (p : Post) (v : Parsed) (provider : Provider) (tick : ℕ),
    (posts r.2.events).getLast? = some p ∧ p.reply = .json v ∧ v.val = .obj body ∧
    c.registry.provider route.1 = some provider ∧ payloadModel p.payload = route.2 ∧
    p.request = Poster.embeddings.requestTo (provider.baseUrl (c.surroundings.env tick))
      (provider.apiKey (c.surroundings.env (tick + 1))) p.payload ∧
    Attributed (c.surroundings.env tick) route provider p (r.2.read a)

/-- **Cache marking**, after any run: an answer of a dispatch has no mark exactly when the
body of the upstream has no `x_szl_cache` of its own, and an answer from the cache is marked
exactly when the name of the stored computation is plain. -/
theorem marking_iff (K : CacheSettings) (steps : List ProcessStep) (c : EmbedCall) :
    let store := (runs (Process.step K) Process.start steps).1.store
    let r := c.perform K store
    (∀ a, r.1 = .fresh a → ∃ route body, AnswerOf c r a route body ∧
      (MarkedFresh (Route.name route) (r.2.read a) ↔
        Dict.get body (lit "x_szl_cache") = none)) ∧
    ∀ a, r.1 = .cached a → ∃ route identity record,
      Replay c.surroundings (c.config K) c.request (c.start store) route identity record a r.2 ∧
      (MarkedCached record.name (r.2.read a) ↔ Plain record.name) := by
  intro store r
  constructor
  · intro a ha
    obtain ⟨slots, stop, new, used, _, hnew, _, _, _, hfresh⟩ :=
      embed_conforms c.surroundings (c.config K) c.request (c.start store)
    obtain ⟨route, provider, p, tick, hknown, _, _, _, hlast, hmodel, hrequest, hattributed⟩ :=
      hfresh a ha
    -- the answer is that of the last post of the call
    have hposts : (posts r.2.events).getLast? = some p := by
      rw [show posts r.2.events = new from hnew]
      exact hlast
    obtain ⟨v, body, hreply, hbody, hiff⟩ := fresh_marked_iff hattributed
    exact ⟨route, body, ⟨p, v, provider, tick, hposts, hreply, hbody, hknown, hmodel, hrequest,
      hattributed⟩, hiff⟩
  · intro a ha
    have hok : (c.start store).toCacheStore.Ok (c.config K).scopeKey _ := Process.ok K steps
    obtain ⟨route, identity, record, hreplay⟩ :=
      @embed_cached c.surroundings _ c.request _ _ _ hok a
        (show embed _ _ _ _ = (.cached a, r.2) from Prod.ext ha rfl)
    obtain ⟨copy, hcopy, hhit⟩ := hreplay.marked
    exact ⟨route, identity, record, hreplay, cached_marked_iff hreplay.served hcopy hhit⟩

/-! ### An upstream with a block of its own -/

deriving instance DecidableEq for EmbedEnd

def markedBody : Json :=
  .obj [(lit "data", .arr [.obj [(lit "index", .int 0), (lit "embedding", .arr [.int 1])]]),
    (lit "x_szl_cache", .obj [])]

def markedReply : Parsed :=
  ⟨markedBody, encodeAscii (render plainDumps markedBody), render plainDumps markedBody,
    by decide +kernel, by decide +kernel⟩

def markedCall : EmbedCall where
  surroundings := .still localEnv (.json markedReply)
  registry := registry
  retry := ⟨3, 0, 0⟩
  request := localEmbed
  budget := none

/-- The first call of a process is answered by a dispatch, and the answer has the block of
the upstream. -/
theorem not_marking :
    let r := markedCall.perform ⟨60, 4, []⟩ Process.start.store
    r.1 = .fresh 0 ∧ ¬MarkedFresh (lit "local_ollama:m") (r.2.read 0) := by
  intro r
  have hblock : (r.2.read 0).get (lit "x_szl_cache") = some (.obj []) := by decide +kernel
  refine ⟨by decide +kernel, ?_⟩
  intro hmarked
  exact nomatch hblock.symm.trans hmarked.block

end SzlRouter
