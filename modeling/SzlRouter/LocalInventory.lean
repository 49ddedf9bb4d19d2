/-
Evidence about the local daemon's models, and the requests that probe for it.

A request reads the configuration, and then either answers at once, from the
configuration or from the last observation, or takes the lock and asks the daemon
twice.  It is suspended while the daemon answers, and other requests take their
turns; a turn itself is not interrupted.

* `localModelsResult_answered` — what a probe observed can be hashed, and is answered.
-/
import SzlRouter.GatewayPlan
import SzlRouter.Procedure
import SzlRouter.Transition

namespace SzlRouter

namespace Gateway

open Py Transition

/-! ### What is observed -/

/-- The manifest digests of the daemon's models, by name. -/
structure Inventory where
  entries : List (Str × Str)
  names : ∀ e ∈ entries, OLLAMA_MODEL_NAME e.1 = true
  digests : ∀ e ∈ entries, isHexDigest e.2 = true

inductive InventoryState
  | reachable
  | unavailable
  | unavailableNotConfigured
  | egressDisabled
  | providerDisabled
  | busy
  deriving DecidableEq

def InventoryState.text : InventoryState → Str
  | .reachable => lit "REACHABLE"
  | .unavailable => lit "UNAVAILABLE"
  | .unavailableNotConfigured => lit "UNAVAILABLE_NOT_CONFIGURED"
  | .egressDisabled => lit "EGRESS_DISABLED"
  | .providerDisabled => lit "PROVIDER_DISABLED"
  | .busy => lit "BUSY"

inductive ModelState
  | unavailable
  | absent
  | notLoaded
  | matches
  | digestMismatch
  deriving DecidableEq

def ModelState.text : ModelState → Str
  | .unavailable => lit "UNAVAILABLE"
  | .absent => lit "ABSENT"
  | .notLoaded => lit "NOT_LOADED"
  | .matches => lit "MATCH"
  | .digestMismatch => lit "DIGEST_MISMATCH"

/-- A row of a provider's `models`. -/
structure ModelRow where
  publicModel : Str
  upstreamModel : Str
  expectedDigest : Str
  observedDigest : Option Str
  residentDigest : Option Str
  state : ModelState
  residentState : ModelState
  weightPinned : Bool
  deriving DecidableEq

/-- A row of `providers`. -/
structure ProviderRow where
  providerId : Str
  inventoryState : InventoryState
  models : List ModelRow
  deriving DecidableEq

/-- The body of `local_models_body`; its constants are in `fields`. -/
structure LocalModels where
  observed : Bool
  providers : List ProviderRow
  deriving DecidableEq

def ModelRow.json (r : ModelRow) : Json :=
  .obj [(lit "public_model", .str r.publicModel), (lit "upstream_model", .str r.upstreamModel),
    (lit "expected_digest", .str r.expectedDigest),
    (lit "observed_digest", jsonOr .str r.observedDigest),
    (lit "resident_digest", jsonOr .str r.residentDigest),
    (lit "state", .str r.state.text), (lit "resident_state", .str r.residentState.text),
    (lit "store_byte_state",
      .str (if r.weightPinned then lit "PIN_CONFIGURED_NOT_PROBED" else lit "NOT_CONFIGURED")),
    (lit "license_state", "NOT_VERIFIED")]

def ProviderRow.json (r : ProviderRow) : Json :=
  .obj [(lit "provider_id", .str r.providerId),
    (lit "provider_type", .str ProviderType.ollamaLoopback.text),
    (lit "inventory_state", .str r.inventoryState.text),
    (lit "models", .arr (r.models.map ModelRow.json))]

def LocalModels.fields (b : LocalModels) : Dict :=
  [(lit "schema", "szl.router-local-models/v1"),
    (lit "status", .str (if b.observed then lit "observed" else lit "unavailable")),
    (lit "basis", "LOCAL_DAEMON_REPORTED"),
    (lit "providers", .arr (b.providers.map ProviderRow.json))]

/-- The loopback providers of a registry. -/
def loopbackProviders (settings : Settings) : List ProviderRecord :=
  settings.registry.providers.filter (·.providerType = .ollamaLoopback)

/-- The state of a digest that was found, or not, at a daemon that was reached. -/
def digestState (found : Option Str) (expected : Str) (missing : ModelState) : ModelState :=
  match found with
  | none => missing
  | some d => if d = expected then .matches else .digestMismatch

/-- The row of a model; a model without a digest raises `KeyError`. -/
def modelRow (p : ProviderRecord) (state : InventoryState) (tags running : List (Str × Str))
    (model : Str × Str) : Except Str ModelRow :=
  match Dict.get p.modelDigests model.1 with
  | none => .error (lit "KeyError")
  | some expected =>
    let reached := state = .reachable
    let observed := if reached then Dict.get tags model.2 else none
    let resident := if reached then Dict.get running model.2 else none
    .ok {
      publicModel := model.1
      upstreamModel := model.2
      expectedDigest := expected
      observedDigest := observed
      residentDigest := resident
      state := if reached then digestState observed expected .absent else .unavailable
      residentState := if reached then digestState resident expected .notLoaded else .unavailable
      weightPinned := (Dict.get p.modelWeightDigests model.1).isSome }

/-- The row of a provider. -/
def providerRow (state : InventoryState) (tags running : List (Str × Str)) (p : ProviderRecord) :
    Except Str ProviderRow := do
  let state := if p.enabled then state else .providerDisabled
  return ⟨p.id, state, ← p.models.mapM (modelRow p state tags running)⟩

/-- `local_models_body`. -/
def localModelsBody (settings : Settings) (state : InventoryState)
    (tags running : List (Str × Str)) : Except Str LocalModels := do
  return ⟨decide (state = .reachable),
    ← (loopbackProviders settings).mapM (providerRow state tags running)⟩

inductive Observation
  | noProbe
  | busy
  | cachedRecent
  | liveProbe
  deriving DecidableEq

def Observation.text : Observation → Str
  | .noProbe => lit "NO_PROBE"
  | .busy => lit "BUSY"
  | .cachedRecent => lit "CACHED_RECENT"
  | .liveProbe => lit "LIVE_PROBE"

/-- The body of `local_models_result`, which its receipt digests. -/
def resultBody (body : LocalModels) (observation : Observation) (observedAt : Option Str)
    (ageMs : Option Binary64) : Json :=
  .obj (body.fields ++ [(lit "observation_state", .str observation.text),
    (lit "observed_at", jsonOr .str observedAt),
    (lit "observation_age_ms", jsonOr (fun x => .num (.float x)) ageMs)])

/-- An answer of `local_models`, with the settings it was made under and the time. -/
structure Answer where
  body : LocalModels
  observation : Observation
  observedAt : Option Str
  ageMs : Option Binary64
  digest : Str
  settings : Settings
  time : Binary64

/-! ### Requests -/

/-- A JSON object of texts. -/
def textsObj (d : List (Str × Str)) : Json := .obj (d.map fun p => (p.1, .str p.2))

/-- `provider.model_dump(mode="json")`. -/
def ProviderRecord.modelDump (p : ProviderRecord) : Dict :=
  [(lit "id", .str p.id), (lit "provider_type", .str p.providerType.text),
    (lit "base_url", jsonOr .str p.baseUrl), (lit "models", textsObj p.models),
    (lit "model_digests", textsObj p.modelDigests),
    (lit "model_weight_digests", textsObj p.modelWeightDigests),
    (lit "token_env", jsonOr .str p.tokenEnv), (lit "priority", .int p.priority),
    (lit "sovereignty", .int p.sovereignty), (lit "cost_tier", .int p.costTier),
    (lit "classifications", .arr (p.classifications.map .str)), (lit "enabled", .bool p.enabled)]

/-- `settings.registry.model_dump(mode="json")`. -/
def Registry.modelDump (r : Registry) : Dict :=
  [(lit "providers", .arr (r.providers.map fun p => .obj p.modelDump))]

/-- `sorted(settings.allowed_hosts)`. -/
def sortedHosts (settings : Settings) : List Str :=
  settings.allowedHosts.insertionSort fun a b => a ≤ b

/-- What the key of the cache digests. -/
def configBody (settings : Settings) : Dict :=
  [(lit "registry_state", .str settings.configState.text),
    (lit "egress_enabled", .bool settings.egressEnabled),
    (lit "allowed_hosts", .arr ((sortedHosts settings).map .str)),
    (lit "providers", .obj settings.registry.modelDump)]

/-- `config_key`; an error is the name of the exception. -/
def configKey (settings : Settings) : Except Str Str := sha256 (.obj (configBody settings))

/-- A text of `datetime.isoformat()`. -/
structure Stamp where
  text : Str
  ascii : Ascii text

/-- `_local_probe_cache`. -/
structure Cached where
  key : Str
  completed : Binary64
  observedAt : Stamp
  body : LocalModels

def LOCAL_MODEL_CACHE_SECONDS : Binary64 := Binary64.ofInt 2

/-- What the requests share, with the environment's settings and the last clock reading. -/
structure Shared where
  settings : Settings
  locked : Bool
  cache : Option Cached
  clock : Binary64

/-- A request that asks the daemon: for the tags first, and then for what is running. -/
structure Probe where
  settings : Settings
  key : Str
  tags : Option Inventory

inductive Request
  | arrived
  | probing (probe : Probe)
  | answered (answer : Answer)
  | failed (error : Str)

/-- What the daemon's inventory ends in: the inventory, an exception that the request
handles, or any other one. -/
inductive InventoryReply
  | inventory (inventory : Inventory)
  | unavailable
  | raised (error : Str)

/-- `local_models_result`. -/
def localModelsResult (body : LocalModels) (observation : Observation) (observedAt : Option Str)
    (ageMs : Option Binary64) (settings : Settings) (time : Binary64) : Request :=
  match sha256 (resultBody body observation observedAt ageMs) with
  | .error e => .failed e
  | .ok digest => .answered ⟨body, observation, observedAt, ageMs, digest, settings, time⟩

/-- An answer from the configuration alone. -/
def unprobed (settings : Settings) (state : InventoryState) (observation : Observation)
    (time : Binary64) : Request :=
  match localModelsBody settings state [] [] with
  | .error e => .failed e
  | .ok body => localModelsResult body observation none none settings time

/-- The cached observation, when it is of this configuration and recent enough. -/
def recent (cache : Option Cached) (key : Str) (now : Binary64) : Option Cached :=
  cache.filter fun c => c.key = key ∧ now.sub c.completed < LOCAL_MODEL_CACHE_SECONDS

def cachedAnswer (c : Cached) (settings : Settings) (now : Binary64) : Request :=
  localModelsResult c.body .cachedRecent (some c.observedAt.text)
    (some (((now.sub c.completed).mul (Binary64.ofInt 1000)).roundTo 3)) settings now

/-- The first turn of `local_models`; the clock is read before and after the lock is taken. -/
def Shared.begin (s : Shared) (now later : Binary64) : Shared × Request :=
  let settings := s.settings
  let s := { s with clock := later }
  if (loopbackProviders settings).isEmpty then
    (s, unprobed settings .unavailableNotConfigured .noProbe now)
  else if settings.egressEnabled = false then (s, unprobed settings .egressDisabled .noProbe now)
  else if (loopbackProviders settings).any (·.enabled) = false then
    (s, unprobed settings .providerDisabled .noProbe now)
  else
    match configKey settings with
    | .error e => (s, .failed e)
    | .ok key =>
      match recent s.cache key now with
      | some c => (s, cachedAnswer c settings now)
      | none =>
        if s.locked then (s, unprobed settings .busy .busy now)
        else
          match recent s.cache key later with
          -- the lock is taken and given back in one turn
          | some c => (s, cachedAnswer c settings later)
          | none => ({ s with locked := true }, .probing ⟨settings, key, none⟩)

/-- The end of a probe: the observation is kept, and the lock is given back. -/
def Shared.finish (s : Shared) (probe : Probe) (body : Except Str LocalModels)
    (completed : Binary64) (observedAt : Stamp) : Shared × Request :=
  let s := { s with locked := false, clock := completed }
  match body with
  | .error e => (s, .failed e)
  | .ok body =>
    ({ s with cache := some ⟨probe.key, completed, observedAt, body⟩ },
      localModelsResult body .liveProbe (some observedAt.text) (some 0) probe.settings completed)

/-- A turn of `local_models` after the daemon's inventory has ended. -/
def Shared.resume (s : Shared) (probe : Probe) (reply : InventoryReply) (completed : Binary64)
    (observedAt : Stamp) : Shared × Request :=
  match probe.tags, reply with
  | none, .inventory tags =>
    ({ s with clock := completed }, .probing { probe with tags := some tags })
  | some tags, .inventory running =>
    s.finish probe (localModelsBody probe.settings .reachable tags.entries running.entries)
      completed observedAt
  | _, .unavailable =>
    s.finish probe (localModelsBody probe.settings .unavailable [] []) completed observedAt
  | _, .raised e => ({ s with locked := false, clock := completed }, .failed e)

/-- A reading of the monotonic clock after another one. -/
def After (t u : Binary64) : Prop := u.isFinite = true ∧ t.units ≤ u.units

inductive Event
  | begins
  | resumes
  deriving DecidableEq

/-- A turn of a request, from one suspension to the next. -/
inductive RequestTurn : Shared → Request → Event → Shared → Request → Prop
  | begins {s : Shared} {now later : Binary64} : After s.clock now → After now later →
      RequestTurn s .arrived .begins (s.begin now later).1 (s.begin now later).2
  | resumes {s : Shared} {probe : Probe} {reply : InventoryReply} {completed : Binary64}
      {observedAt : Stamp} : After s.clock completed →
      RequestTurn s (.probing probe) .resumes (s.resume probe reply completed observedAt).1
        (s.resume probe reply completed observedAt).2

/-- A change of the configuration. -/
def Configures (s s' : Shared) : Prop := ∃ settings, s' = { s with settings := settings }

/-- Requests arrive at any time, the configuration changes at any time, and requests take
their turns in any order. -/
abbrev Probing : Threads Shared Request → Option Event → Threads Shared Request → Prop :=
  Interleave (· = .arrived) Configures RequestTurn

section body

variable {tags running : List (Str × Str)} {state : InventoryState}

/-- Digests that were read from the daemon are texts of hexadecimal digits. -/
def HexDigests (d : List (Str × Str)) : Prop := ∀ e ∈ d, isHexDigest e.2 = true

theorem InventoryState.text_clean (state : InventoryState) : Clean state.text := by
  cases state <;> exact clean_lit (by decide)

theorem ModelState.text_clean (state : ModelState) : Clean state.text := by
  cases state <;> exact clean_lit (by decide)

theorem modelRow_hashable {p : ProviderRecord} (hp : p.Valid) (htags : HexDigests tags)
    (hrunning : HexDigests running) {model : Str × Str} (hmodel : model ∈ p.models) {row : ModelRow}
    (h : modelRow p state tags running model = .ok row) : Hashable row.json := by
  rw [modelRow] at h
  cases hexpected : Dict.get p.modelDigests model.1 with
  | none =>
    rw [hexpected] at h
    exact nomatch h
  | some expected =>
    rw [hexpected] at h
    obtain rfl := Except.ok.inj h
    -- a digest that is shown comes out of the daemon's inventory
    have hshown : ∀ d : List (Str × Str), HexDigests d →
        Hashable (jsonOr .str (if state = .reachable then Dict.get d model.2 else none)) := by
      intro d hd
      refine hashable_jsonOr fun x hx => hashable_str (isHexDigest_ascii ?_).clean
      split_ifs at hx
      · exact hd _ (Dict.mem_of_get hx)
      · exact nomatch hx
    have hpinned : Hashable (.str (if (Dict.get p.modelWeightDigests model.1).isSome
        then lit "PIN_CONFIGURED_NOT_PROBED" else lit "NOT_CONFIGURED")) := by
      split_ifs <;> exact hashable_str (clean_lit (by decide))
    refine hashable_obj ?_
    simp only [List.forall_mem_cons]
    exact ⟨⟨clean_lit (by decide), hashable_str (IDENTIFIER_ascii (hp.aliases _ hmodel)).clean⟩,
      ⟨clean_lit (by decide), hashable_str (hp.upstream _ hmodel).2.clean⟩,
      ⟨clean_lit (by decide),
        hashable_str (isHexDigest_ascii (hp.digests _ (Dict.mem_of_get hexpected))).clean⟩,
      ⟨clean_lit (by decide), hshown tags htags⟩, ⟨clean_lit (by decide), hshown running hrunning⟩,
      ⟨clean_lit (by decide), hashable_str (ModelState.text_clean _)⟩,
      ⟨clean_lit (by decide), hashable_str (ModelState.text_clean _)⟩,
      ⟨clean_lit (by decide), hpinned⟩,
      ⟨clean_lit (by decide), hashable_str (clean_lit (by decide))⟩, List.forall_mem_nil _⟩

theorem providerRow_eq_ok {p : ProviderRecord} {row : ProviderRow}
    (h : providerRow state tags running p = .ok row) :
    ∃ models, p.models.mapM
        (modelRow p (if p.enabled then state else .providerDisabled) tags running) = .ok models ∧
      row = ⟨p.id, if p.enabled then state else .providerDisabled, models⟩ := by
  obtain ⟨models, hmodels, h⟩ := Procedure.except_bind_eq_ok.mp h
  exact ⟨models, hmodels, (Except.ok.inj h).symm⟩

theorem localModelsBody_eq_ok {settings : Settings} {body : LocalModels}
    (h : localModelsBody settings state tags running = .ok body) :
    body.observed = decide (state = .reachable) ∧
      (loopbackProviders settings).mapM (providerRow state tags running) = .ok body.providers := by
  obtain ⟨rows, hrows, h⟩ := Procedure.except_bind_eq_ok.mp h
  obtain rfl := Except.ok.inj h
  exact ⟨rfl, hrows⟩

theorem localModelsBody_hashable {settings : Settings} (htags : HexDigests tags)
    (hrunning : HexDigests running) {body : LocalModels}
    (h : localModelsBody settings state tags running = .ok body) :
    ∀ row ∈ body.providers, Hashable row.json := by
  intro row hrow
  obtain ⟨p, hmem, hp⟩ := Procedure.mem_of_mapM_eq_ok (localModelsBody_eq_ok h).2 hrow
  obtain ⟨models, hmodels, rfl⟩ := providerRow_eq_ok hp
  have hvalid : p.Valid := settings.registry.valid p (List.mem_of_mem_filter hmem)
  refine hashable_obj ?_
  simp only [List.forall_mem_cons]
  refine ⟨⟨clean_lit (by decide), hashable_str (IDENTIFIER_ascii hvalid.id).clean⟩,
    ⟨clean_lit (by decide), hashable_str (clean_lit (by decide))⟩,
    ⟨clean_lit (by decide), hashable_str (InventoryState.text_clean _)⟩,
    ⟨clean_lit (by decide), hashable_arr ?_⟩, List.forall_mem_nil _⟩
  intro v hv
  obtain ⟨r, hr, rfl⟩ := List.mem_map.mp hv
  obtain ⟨model, hmodel, hr⟩ := Procedure.mem_of_mapM_eq_ok hmodels hr
  exact modelRow_hashable hvalid htags hrunning hmodel hr

/-- **What a probe observed can be hashed**, so that it is answered. The names in it come from
the configuration and the digests from the daemons, of which only hexadecimal ones are reported.
-/
theorem localModelsResult_answered {settings : Settings} (htags : HexDigests tags)
    (hrunning : HexDigests running) {body : LocalModels}
    (h : localModelsBody settings state tags running = .ok body) (observation : Observation)
    (stamp : Stamp) {age : Binary64} (hage : age.isFinite = true) (under : Settings)
    (time : Binary64) :
    ∃ digest, localModelsResult body observation (some stamp.text) (some age) under time =
      .answered ⟨body, observation, some stamp.text, some age, digest, under, time⟩ := by
  have hfields : Hashable (resultBody body observation (some stamp.text) (some age)) := by
    -- the rows are hashable because the digests that were reported are hexadecimal
    have hrows : Hashable (.arr (body.providers.map ProviderRow.json)) := by
      refine hashable_arr fun v hv => ?_
      obtain ⟨row, hrow, rfl⟩ := List.mem_map.mp hv
      exact localModelsBody_hashable htags hrunning h row hrow
    have hstatus :
        Hashable (.str (if body.observed then lit "observed" else lit "unavailable")) := by
      split_ifs <;> exact hashable_str (clean_lit (by decide))
    have hobservation : Clean observation.text := by
      cases observation <;> exact clean_lit (by decide)
    -- member by member, in the order of the body
    refine hashable_obj ?_
    simp only [LocalModels.fields, List.cons_append, List.nil_append, List.forall_mem_cons]
    exact ⟨⟨clean_lit (by decide), hashable_str (clean_lit (by decide))⟩,
      ⟨clean_lit (by decide), hstatus⟩,
      ⟨clean_lit (by decide), hashable_str (clean_lit (by decide))⟩,
      ⟨clean_lit (by decide), hrows⟩,
      ⟨clean_lit (by decide), hashable_str hobservation⟩,
      ⟨clean_lit (by decide), hashable_str stamp.ascii.clean⟩,
      ⟨clean_lit (by decide), texts_num, hage⟩, List.forall_mem_nil _⟩
  obtain ⟨digest, hdigest⟩ := hfields.sha256_ok
  refine ⟨digest, ?_⟩
  rw [localModelsResult, hdigest]

end body

end Gateway

end SzlRouter
