/-
An attempt of the gateway on one provider.

What goes over the wire is a parameter over any state; each request is kept with what
came of it.  Around the completion of a local model its daemon is asked twice what it
holds, and the answers are held against the digests of the configuration.
-/
import SzlRouter.GatewayReceipts
import SzlRouter.LocalInventory
import SzlRouter.LocalStore

namespace SzlRouter

namespace Gateway

open Py

def MAX_RESPONSE_BYTES : ℕ := 2000000
def MAX_OLLAMA_TAGS_BYTES : ℕ := 262144
def OLLAMA_LOOPBACK_ORIGIN : Str := lit "http://127.0.0.1:11434"

/-! ### The wire -/

inductive Method
  | get
  | post
  deriving DecidableEq

/-- A request as it leaves the process. -/
structure Outbound where
  method : Method
  url : Str
  authorization : Option Str
  payload : Option Dict

/-- What the wire can raise. -/
inductive NetError
  /-- `httpx.TimeoutException`. -/
  | timeout
  /-- Another `httpx.HTTPError`. -/
  | http (name : Str)
  /-- A `RuntimeError` or a `ValueError`. -/
  | ordinary (name : Str)
  /-- The wait for the inventory ended. -/
  | elapsed
  /-- The wait for the whole attempt ended. -/
  | cancelled
  | other (name : Str)

/-- What comes of a request: an exception, or a response whose body may break off. -/
inductive Delivery
  | raised (e : NetError)
  | response (status : ℤ) (chunks : List Bytes) (broken : Option NetError)

/-- A request, and what came of it. -/
structure Exchange where
  sent : Outbound
  got : Delivery

/-- What an attempt meets. -/
structure Wire (W : Type) where
  monotonic : W → Binary64 × W
  stream : Outbound → W → Delivery × W
  /-- The thread of `verify_store_bytes`: what it finds, or how the wait for it ended. -/
  store : W → Except NetError (LocalStore.World × LocalStore.Reader) × W

/-- The state of the wire, and the exchanges so far. -/
structure Net (W : Type) where
  world : W
  exchanges : List Exchange

/-- What an attempt raises. -/
inductive Raised
  | net (e : NetError)
  /-- `ModelIdentityError`. -/
  | identity (state : Str)
  /-- `httpx.HTTPStatusError`. -/
  | status (code : ℤ)

abbrev Attempting (W α : Type) := EStateM Raised (Net W) α

/-- `raise RuntimeError`. -/
def runtimeError : Raised := .net (.ordinary (lit "RuntimeError"))

section

variable {W : Type} {α : Type} (N : Wire W)

def modelIdentity (state : String) : Attempting W α := throw (.identity (lit state))

/-- `client.stream`. -/
def stream (o : Outbound) : Attempting W (ℤ × List Bytes × Option NetError) := do
  let s ← get
  let (got, world) := N.stream o s.world
  set ({ world, exchanges := s.exchanges ++ [⟨o, got⟩] } : Net W)
  match got with
  | .raised e => throw (.net e)
  | .response status chunks broken => return (status, chunks, broken)

/-- The chunks of a body together; `none` is one too many. -/
def collect (limit : ℕ) : (size : ℕ) → List Bytes → Option Bytes
  | _, [] => some []
  | size, chunk :: chunks =>
    if limit < size + chunk.length then none
    else (collect limit (size + chunk.length) chunks).map (chunk ++ ·)

/-! ### The inventories of the daemon -/

/-- One more model, of a name that is not there yet. -/
def Inventory.add (inventory : Inventory) (name digest : Str)
    (h : OLLAMA_MODEL_NAME name = true ∧ isHexDigest digest = true) : Inventory where
  entries := inventory.entries ++ [(name, digest)]
  names := by
    intro e he
    rcases List.mem_append.mp he with he | he
    · exact inventory.names e he
    · rw [List.mem_singleton.mp he]
      exact h.1
  digests := by
    intro e he
    rcases List.mem_append.mp he with he | he
    · exact inventory.digests e he
    · rw [List.mem_singleton.mp he]
      exact h.2

/-- The loop over `models`. -/
def readModels : List Json → Inventory → Option Inventory
  | [], inventory => some inventory
  | .obj model :: models, inventory =>
    match Dict.get model (lit "name"), Dict.get model (lit "digest") with
    | some (.str name), some (.str digest) =>
      if h : OLLAMA_MODEL_NAME name = true ∧ isHexDigest digest = true then
        if name ∈ Dict.keys inventory.entries then none
        else readModels models (inventory.add name digest h)
      else none
    | _, _ => none
  | _ :: _, _ => none

theorem no_names : ∀ e ∈ ([] : List (Str × Str)), OLLAMA_MODEL_NAME e.1 = true :=
  List.forall_mem_nil _

theorem no_digests : ∀ e ∈ ([] : List (Str × Str)), isHexDigest e.2 = true :=
  List.forall_mem_nil _

def Inventory.empty : Inventory := ⟨[], no_names, no_digests⟩

/-- The body of an inventory; `none` is `DAEMON_INVENTORY_INVALID`. -/
def parseInventory (raw : Bytes) : Option Inventory := do
  let text ← decodeUtf8 raw
  let value ← loads ⟨true, false⟩ text
  if enforceJsonStructureLimit value = false then none
  else match value.get (lit "models") with
    | some (.arr models) => if 512 < models.length then none else readModels models .empty
    | _ => none

/-- The URL of an inventory. -/
def inventoryUrl (kind : Str) : Str := OLLAMA_LOOPBACK_ORIGIN ++ lit "/api/" ++ kind

/-- `_read_ollama_inventory`. -/
def readOllamaInventory (kind : Str) : Attempting W Inventory := do
  let (status, chunks, broken) ← stream N ⟨.get, inventoryUrl kind, none, none⟩
  if status ≠ 200 then modelIdentity "DAEMON_INVENTORY_UNAVAILABLE"
  else match collect MAX_OLLAMA_TAGS_BYTES 0 chunks, broken with
    | none, _ => modelIdentity "DAEMON_INVENTORY_INVALID"
    | some _, some e => throw (.net e)
    | some raw, none =>
      match parseInventory raw with
      | none => modelIdentity "DAEMON_INVENTORY_INVALID"
      | some inventory => return inventory

/-- `except (httpx.HTTPError, asyncio.TimeoutError)`. -/
def NetError.unavailable : NetError → Bool
  | .timeout | .http _ | .elapsed => true
  | _ => false

/-- The handler around the two inventories. -/
def reachingDaemon (x : Attempting W α) : Attempting W α := fun s =>
  match x s with
  | .error (.net e) t =>
    if e.unavailable then .error (.identity (lit "DAEMON_INVENTORY_UNAVAILABLE")) t
    else .error (.net e) t
  | r => r

/-- `d[k]`. -/
def item (d : List (Str × Str)) (k : Str) : Attempting W Str :=
  match Dict.get d k with
  | none => throw (.net (.other (lit "KeyError")))
  | some v => return v

/-- What the daemon reported of a model; the constants of the report are in `identityJson`. -/
structure LocalIdentity where
  expected : Str
  observed : Str
  resident : Option Str

/-- `assert_ollama_identity`. -/
def assertOllamaIdentity (p : ProviderRecord) (publicModel : Str) (afterCompletion : Bool) :
    Attempting W LocalIdentity := do
  let upstreamModel ← item p.models publicModel
  let expected ← item p.modelDigests publicModel
  let (tags, running) ← reachingDaemon do
    let tags ← readOllamaInventory N (lit "tags")
    let running ← readOllamaInventory N (lit "ps")
    return (tags, running)
  let resident := Dict.get running.entries upstreamModel
  match Dict.get tags.entries upstreamModel with
  | none => modelIdentity "MODEL_ABSENT"
  | some observed =>
    if observed ≠ expected then modelIdentity "MODEL_DIGEST_MISMATCH"
    else if resident ≠ none ∧ resident ≠ some expected then
      modelIdentity "RESIDENT_DIGEST_MISMATCH"
    else if afterCompletion = true ∧ resident = none then
      modelIdentity "RESIDENT_MODEL_UNAVAILABLE"
    else return ⟨expected, observed, resident⟩

/-- What is answered for what the thread found. -/
def storeAnswer (env : Env) (upstreamModel manifestPin weightPin : Str) :
    Except NetError (LocalStore.World × LocalStore.Reader) → Attempting W LocalStore.Report
  | .error .elapsed => modelIdentity "LOCAL_STORE_CHECK_TIMEOUT"
  | .error e => throw (.net e)
  | .ok (disk, reader) =>
    match LocalStore.verifyStoreBytes disk upstreamModel manifestPin weightPin
        (env.getD (lit "SZL_ROUTER_OLLAMA_MODELS_DIR")) reader with
    | .ok report _ => return report
    | .error (.localStore state) _ => throw (.identity state)
    | .error .valueError _ => throw (.net (.ordinary (lit "ValueError")))

/-- `observe_store_bytes`. -/
def observeStoreBytes (env : Env) (p : ProviderRecord) (publicModel : Str) :
    Attempting W LocalStore.Report := do
  let upstreamModel ← item p.models publicModel
  let manifestPin ← item p.modelDigests publicModel
  let weightPin ← item p.modelWeightDigests publicModel
  let s ← get
  let (found, world) := N.store s.world
  set ({ s with world } : Net W)
  storeAnswer env upstreamModel manifestPin weightPin found

/-! ### The completion -/

/-- `message.model_dump(mode="json", exclude_none=True)`. -/
def Message.upstream (m : Message) : Json :=
  .obj ([(lit "role", .str m.role.text), (lit "content", .str m.content)] ++
    (m.name.map fun name => (lit "name", Json.str name)).toList)

/-- `upstream_payload`. -/
def upstreamPayload (r : ChatRequest) (upstreamModel : Str) : Dict :=
  [(lit "model", .str upstreamModel), (lit "messages", .arr (r.messages.map Message.upstream)),
    (lit "stream", .bool false)] ++
  (r.temperature.map fun x => (lit "temperature", Json.num (.float x))).toList ++
  (r.topP.map fun x => (lit "top_p", Json.num (.float x))).toList ++
  (r.maxTokens.map fun n => (lit "max_tokens", Json.int n)).toList ++
  (r.stop.map fun s => (lit "stop", s.json)).toList ++
  (r.user.map fun s => (lit "user", Json.str s)).toList

/-- The token that a provider's own variable holds. -/
def providerToken (env : Env) (p : ProviderRecord) : Str :=
  match p.tokenEnv with
  | some name => if name = [] then [] else env.getD name
  | none => []

/-- The URL of a provider's completions. -/
def completionsUrl (p : ProviderRecord) : Str :=
  let baseUrl := match p.providerType with
    | .ollamaLoopback => OLLAMA_LOOPBACK_ORIGIN ++ lit "/v1"
    | .openaiHttps => p.baseUrl.getD []
  Str.rstrip baseUrl (chr '/') ++ lit "/chat/completions"

/-- The request for a completion. -/
def completionRequest (env : Env) (p : ProviderRecord) (payload : Dict) : Outbound :=
  let token := providerToken env p
  ⟨.post, completionsUrl p, if token = [] then none else some (lit "Bearer " ++ token),
    some payload⟩

/-- The body of a completion: bounded JSON, and an object. -/
def parseCompletion (raw : Bytes) : Option Dict := do
  let text ← decodeUtf8 raw
  let value ← loads ⟨false, true⟩ text
  if enforceJsonStructureLimit value = false then none
  else match value with
    | .obj d => some d
    | _ => none

/-- `call_provider`. -/
def callProvider (env : Env) (p : ProviderRecord) (payload : Dict) : Attempting W (Dict × ℤ) :=
  if p.providerType = .openaiHttps ∧ providerToken env p = [] then throw runtimeError
  else do
    let (status, chunks, broken) ← stream N (completionRequest env p payload)
    match collect MAX_RESPONSE_BYTES 0 chunks, broken with
    | none, _ => throw runtimeError
    | some _, some e => throw (.net e)
    | some raw, none =>
      if status ≠ 200 then throw (.status status)
      else match parseCompletion raw with
        | none => throw runtimeError
        | some value => return (value, status)

/-- The identity that goes into a receipt. -/
def identityJson (expected : Str) (before after : LocalIdentity)
    (store : Option LocalStore.Report) : Json :=
  .obj ([(lit "state", .str (lit "LOCAL_DAEMON_REPORTED_MATCH")),
    (lit "basis", .str (lit "OLLAMA_TAGS_AND_RUNNING_MODELS_PRE_POST")),
    (lit "expected_digest", .str expected),
    (lit "pre_request_manifest_digest", .str before.observed),
    (lit "pre_request_resident_digest", jsonOr .str before.resident),
    (lit "post_request_manifest_digest", .str after.observed),
    (lit "post_request_resident_digest", jsonOr .str after.resident),
    (lit "independent_attestation", .str (lit "UNAVAILABLE")),
    (lit "license_state", .str (lit "NOT_VERIFIED"))] ++
    (store.map fun r => (lit "local_store_bytes", r.json)).toList)

/-- The store is read when the model has a weight pin. -/
def storeCheck (env : Env) (p : ProviderRecord) (publicModel : Str) :
    Attempting W (Option LocalStore.Report) :=
  if publicModel ∈ Dict.keys p.modelWeightDigests then do
    return some (← observeStoreBytes N env p publicModel)
  else return none

/-- The completion, and the check of what came back. -/
def completion (env : Env) (p : ProviderRecord) (r : ChatRequest) (upstreamModel : Str) :
    Attempting W (Dict × ℤ) := do
  let (upstream, status) ← callProvider N env p (upstreamPayload r upstreamModel)
  match validateCompletion (.obj upstream) with
  | .ok () => return (upstream, status)
  | .error _ => throw runtimeError

/-- `attempt_candidate`. -/
def attemptCandidate (env : Env) (p : ProviderRecord) (r : ChatRequest) (upstreamModel : Str) :
    Attempting W (Dict × ℤ × Option Json) :=
  match p.providerType with
  | .openaiHttps => do
    let (upstream, status) ← completion N env p r upstreamModel
    return (upstream, status, none)
  | .ollamaLoopback => do
    let before ← assertOllamaIdentity N p r.model false
    let store ← storeCheck N env p r.model
    let (upstream, status) ← completion N env p r upstreamModel
    if Dict.get upstream (lit "model") ≠ some (.str upstreamModel) then
      modelIdentity "COMPLETION_MODEL_MISMATCH"
    else do
      let after ← assertOllamaIdentity N p r.model true
      let expected ← item p.modelDigests r.model
      return (upstream, status, some (identityJson expected before after store))

/-! ### The runtime of the gateway -/

/-- What the handlers of `chat` see. -/
def Raised.outcome : Raised → Outcome
  | .identity state => .modelIdentity state
  | .status code => .httpStatus code
  | .net .timeout => .httpTimeout
  | .net .elapsed | .net .cancelled => .wallTimeout
  | .net (.http name) | .net (.ordinary name) => .failed name
  | .net (.other name) => .crashed name

/-- The clock and the attempts of a gateway on a wire; the end of the wait for an attempt
comes over the wire. -/
def Wire.runtime (env : Env) : Runtime (Net W) where
  monotonic s := ((N.monotonic s.world).1, { s with world := (N.monotonic s.world).2 })
  attempt p r upstreamModel _ s :=
    match attemptCandidate N env p r upstreamModel s with
    | .ok (upstream, status, identity) t => (.success upstream status identity, t)
    | .error e t => (e.outcome, t)

end

end Gateway

end SzlRouter
