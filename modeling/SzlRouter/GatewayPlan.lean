/-
Chat requests and route plans.

Requests carry what their validators established.  A plan filters the providers
of the registry, sorts what is left and hashes the outcome.

* `mem_routeCandidates` — the candidates are the providers that pass every filter;
* `plan_total` — a plan can always be hashed.
-/
import Mathlib.Data.Prod.Lex
import SzlRouter.GatewaySettings
import SzlRouter.Verification

namespace SzlRouter

namespace Gateway

open Py

def PLAN_SCHEMA : String := "szl.router-plan/v1"
def MAX_MESSAGES : ℕ := 64
def MAX_CONTENT_CHARS : ℕ := 32000
def MAX_TOTAL_CONTENT_CHARS : ℕ := 96000

/-! ### Requests -/

inductive Role
  | system
  | user
  | assistant
  | tool
  deriving DecidableEq

def Role.text : Role → Str
  | .system => lit "system"
  | .user => lit "user"
  | .assistant => lit "assistant"
  | .tool => lit "tool"

/-- `Message`. -/
structure Message where
  role : Role
  content : Str
  name : Option Str

/-- `str | list[str]`. -/
inductive Stop
  | one (s : Str)
  | many (ss : List Str)

def Stop.values : Stop → List Str
  | .one s => [s]
  | .many ss => ss

def Stop.json : Stop → Json
  | .one s => .str s
  | .many ss => .arr (ss.map .str)

def jsonOr {α : Type} (f : α → Json) : Option α → Json
  | none => .null
  | some a => f a

/-- The fields a plan is made for, once their validators passed. -/
structure PolicyOk (model : Str) (requiredProviderId : Option Str) (dataClassification : Str)
    (maxCostTier : ℤ) : Prop where
  model : IDENTIFIER model = true
  requiredProviderId : ∀ id ∈ requiredProviderId, IDENTIFIER id = true
  dataClassification : dataClassification ∈ CLASSIFICATIONS
  maxCostTier : 0 ≤ maxCostTier ∧ maxCostTier ≤ 10

/-- `PlanRequest`. -/
structure PlanRequest where
  model : Str
  requiredProviderId : Option Str
  dataClassification : Str
  maxCostTier : ℤ
  valid : PolicyOk model requiredProviderId dataClassification maxCostTier

def messageOk (m : Message) : Prop :=
  Clean m.content ∧ (1 ≤ m.content.length ∧ m.content.length ≤ MAX_CONTENT_CHARS) ∧
    ∀ name ∈ m.name, IDENTIFIER name = true

/-- `bounded_stop`. -/
def stopOk (stop : Stop) : Prop :=
  stop.values.length ≤ 8 ∧ ∀ s ∈ stop.values, Clean s ∧ s.length ≤ 256

/-- `ChatRequest`.  A temperature that is no number is not refused by a bound. -/
structure ChatRequest where
  model : Str
  requiredProviderId : Option Str
  messages : List Message
  temperature : Option Binary64
  topP : Option Binary64
  maxTokens : Option ℤ
  stream : Bool
  stop : Option Stop
  user : Option Str
  dataClassification : Str
  maxCostTier : ℤ
  policy : PolicyOk model requiredProviderId dataClassification maxCostTier
  messages_length : 1 ≤ messages.length ∧ messages.length ≤ MAX_MESSAGES
  messages_ok : ∀ m ∈ messages, messageOk m
  temperature_ok : ∀ x ∈ temperature, ¬x < 0 ∧ ¬(2 : Binary64) < x
  topP_ok : ∀ x ∈ topP, ¬x ≤ 0 ∧ ¬(1 : Binary64) < x
  maxTokens_ok : ∀ n ∈ maxTokens, 1 ≤ n ∧ n ≤ 131072
  stop_ok : ∀ s ∈ stop, stopOk s
  user_ok : ∀ s ∈ user, Clean s ∧ s.length ≤ 128
  total_content : (messages.map fun m => m.content.length).sum ≤ MAX_TOTAL_CONTENT_CHARS
  no_stream : stream = false

/-- `model_dump(mode="json")` of a message. -/
def Message.dump (m : Message) : Json :=
  .obj [(lit "role", .str m.role.text), (lit "content", .str m.content),
    (lit "name", jsonOr .str m.name)]

namespace ChatRequest

/-- `request.model_dump(mode="json")`. -/
def modelDump (r : ChatRequest) : Dict :=
  [(lit "model", .str r.model), (lit "required_provider_id", jsonOr .str r.requiredProviderId),
    (lit "messages", .arr (r.messages.map Message.dump)),
    (lit "temperature", jsonOr (fun x => .num (.float x)) r.temperature),
    (lit "top_p", jsonOr (fun x => .num (.float x)) r.topP),
    (lit "max_tokens", jsonOr .int r.maxTokens), (lit "stream", .bool r.stream),
    (lit "stop", jsonOr Stop.json r.stop), (lit "user", jsonOr .str r.user),
    (lit "data_classification", .str r.dataClassification),
    (lit "max_cost_tier", .int r.maxCostTier)]

/-- `PlanRequest(...)`: what the request's validators established is enough. -/
def planRequest (r : ChatRequest) : PlanRequest :=
  ⟨r.model, r.requiredProviderId, r.dataClassification, r.maxCostTier, r.policy⟩

end ChatRequest

/-! ### Candidates -/

/-- A row of `route_candidates`. -/
structure Candidate where
  providerId : Str
  publicModel : Str
  upstreamModel : Str
  priority : ℤ
  sovereignty : ℤ
  costTier : ℤ
  classification : Str
  providerType : ProviderType
  modelDigest : Option Str
  credentialState : CredentialState
  deriving DecidableEq

namespace Candidate

def modelIdentityState (c : Candidate) : Str :=
  match c.providerType with
  | .ollamaLoopback => lit "PIN_CONFIGURED_UNVERIFIED"
  | .openaiHttps => lit "UNAVAILABLE_MUTABLE_MODEL_ALIAS"

def json (c : Candidate) : Json :=
  .obj [(lit "provider_id", .str c.providerId), (lit "public_model", .str c.publicModel),
    (lit "upstream_model", .str c.upstreamModel), (lit "priority", .int c.priority),
    (lit "sovereignty", .int c.sovereignty), (lit "cost_tier", .int c.costTier),
    (lit "classification", .str c.classification),
    (lit "provider_type", .str c.providerType.text),
    (lit "model_digest", jsonOr .str c.modelDigest),
    (lit "model_identity_state", .str c.modelIdentityState),
    (lit "credential_state", .str c.credentialState.text)]

/-- The sort key. -/
def key (c : Candidate) : ℤ ×ₗ ℤ ×ₗ ℤ ×ₗ Str :=
  toLex (-c.sovereignty, toLex (c.priority, toLex (c.costTier, c.providerId)))

/-- The order of `candidates.sort`. -/
def LE (a b : Candidate) : Prop := a.key ≤ b.key

instance : DecidableRel LE := fun a b => inferInstanceAs (Decidable (a.key ≤ b.key))

end Candidate

/-- The upstream name of a model, `none` when it has none or an empty one. -/
def upstreamModel (p : ProviderRecord) (model : Str) : Option Str :=
  (Dict.get p.models model).filter (· ≠ [])

/-- The filters of `route_candidates`. -/
def eligible (request : PlanRequest) (p : ProviderRecord) : Bool :=
  (∀ id ∈ request.requiredProviderId, p.id = id) ∧ p.enabled = true ∧
    upstreamModel p request.model ≠ none ∧ request.dataClassification ∈ p.classifications ∧
    p.costTier ≤ request.maxCostTier

/-- The row of a provider. -/
def candidate (env : Env) (request : PlanRequest) (p : ProviderRecord) : Candidate where
  providerId := p.id
  publicModel := request.model
  upstreamModel := (upstreamModel p request.model).getD []
  priority := p.priority
  sovereignty := p.sovereignty
  costTier := p.costTier
  classification := request.dataClassification
  providerType := p.providerType
  modelDigest := Dict.get p.modelDigests request.model
  credentialState := credentialState env p

/-- `route_candidates`. -/
def routeCandidates (settings : Settings) (env : Env) (request : PlanRequest) : List Candidate :=
  ((settings.registry.providers.filter (eligible request)).map
    (candidate env request)).insertionSort Candidate.LE

/-! ### Plans -/

/-- The body of a plan, which its receipt digests. -/
def planBody (settings : Settings) (request : PlanRequest) (candidates : List Candidate) : Json :=
  .obj [(lit "schema", PLAN_SCHEMA), (lit "model", .str request.model),
    (lit "required_provider_id", jsonOr .str request.requiredProviderId),
    (lit "classification", .str request.dataClassification),
    (lit "max_cost_tier", .int request.maxCostTier),
    (lit "registry_state", .str settings.configState.text),
    (lit "egress_enabled", .bool settings.egressEnabled),
    (lit "candidates", .arr (candidates.map Candidate.json)),
    (lit "selected", jsonOr (fun c : Candidate => .str c.providerId) candidates.head?),
    (lit "selection_algorithm", "sovereignty-desc_priority-asc_cost-asc_id-asc/v1")]

/-- What a plan is made of; its `body` and the size of its canonical form follow. -/
structure Plan where
  body : Json
  candidates : List Candidate
  digest : Str
  canonicalBytes : ℕ

/-- `plan`; an error is the name of the exception. -/
def plan (settings : Settings) (env : Env) (request : PlanRequest) : Except Str Plan := do
  let candidates := routeCandidates settings env request
  let body := planBody settings request candidates
  return ⟨body, candidates, ← sha256 body, (← canonical body).length⟩

/-- `provider_by_id`. -/
def providerById (settings : Settings) (id : Str) : Option ProviderRecord :=
  settings.registry.providers.find? (·.id = id)

/-- The candidates are the providers that pass every filter. Sorting neither adds one nor drops
one. -/
theorem mem_routeCandidates {settings : Settings} {env : Env} {request : PlanRequest}
    {c : Candidate} : c ∈ routeCandidates settings env request ↔
      ∃ p ∈ settings.registry.providers, eligible request p = true ∧
        candidate env request p = c := by
  rw [routeCandidates, List.mem_insertionSort, List.mem_map]
  simp only [List.mem_filter, and_assoc]

/-! ### What can be hashed -/

theorem dumpable_int_of_small {o : DumpOpts} {n : ℤ} (h : 0 ≤ n ∧ n ≤ 10000) :
    dumpable o (.int n) = true := by
  rw [Json.int, dumpable, decide_eq_true_eq, natDigits]
  split_ifs
  · simp [maxIntDigits]
  · rw [List.length_map, List.length_reverse]
    have hlen : (Nat.digits 10 n.natAbs).length ≤ 5 :=
      (Nat.digits_length_le_iff (by decide) _).mpr (by omega)
    exact hlen.trans (by decide)

theorem texts_jsonOr {α : Type} {P : Str → Prop} {f : α → Json} {a : Option α}
    (h : ∀ x ∈ a, Texts P (f x)) : Texts P (jsonOr f a) := by
  cases a with
  | none => exact texts_null
  | some x => exact h x rfl

theorem dumpable_jsonOr {α : Type} {o : DumpOpts} {f : α → Json} {a : Option α}
    (h : ∀ x ∈ a, dumpable o (f x) = true) : dumpable o (jsonOr f a) = true := by
  cases a with
  | none => rfl
  | some x => exact h x rfl

theorem clean_lit {s : String} (h : (lit s).all (fun c => c.val < 128) = true) : Clean (lit s) :=
  (ascii_of_all h).clean

/-- Neither a surrogate nor an odd number keeps the value from being hashed. NaN and the
infinities are odd here, and so are integers that the interpreter does not write. -/
def Hashable (v : Json) : Prop := Texts Clean v ∧ dumpable canonicalDumps v = true

theorem hashable_str {s : Str} (h : Clean s) : Hashable (.str s) := ⟨h, rfl⟩

theorem hashable_jsonOr {α : Type} {f : α → Json} {a : Option α} (h : ∀ x ∈ a, Hashable (f x)) :
    Hashable (jsonOr f a) :=
  ⟨texts_jsonOr fun x hx => (h x hx).1, dumpable_jsonOr fun x hx => (h x hx).2⟩

theorem hashable_arr {vs : List Json} (h : ∀ v ∈ vs, Hashable v) : Hashable (.arr vs) := by
  constructor
  · rw [texts_arr]
    exact fun v hv => (h v hv).1
  · rw [dumpable, dumpableList_iff]
    exact fun v hv => (h v hv).2

theorem hashable_obj {d : Dict} (h : ∀ p ∈ d, Clean p.1 ∧ Hashable p.2) : Hashable (.obj d) := by
  constructor
  · rw [texts_obj]
    exact fun p hp => ⟨(h p hp).1, (h p hp).2.1⟩
  · rw [dumpable, dumpableFields_iff]
    exact fun p hp => (h p hp).2.2

theorem Hashable.sha256_ok {v : Json} (h : Hashable v) : ∃ digest, sha256 v = .ok digest := by
  rw [sha256, canonical_of_clean h.1 h.2]
  exact ⟨_, rfl⟩

theorem hashable_int_of_small {n : ℤ} (h : 0 ≤ n ∧ n ≤ 10000) : Hashable (.int n) :=
  ⟨trivial, dumpable_int_of_small h⟩

theorem hashable_bool (b : Bool) : Hashable (.bool b) := ⟨trivial, rfl⟩

theorem CLASSIFICATIONS_clean {c : Str} (h : c ∈ CLASSIFICATIONS) : Clean c := by
  simp only [CLASSIFICATIONS, List.mem_cons, List.not_mem_nil, or_false] at h
  rcases h with h | h | h | h <;> rw [h] <;> exact clean_lit (by decide)

theorem isHexDigest_ascii {s : Str} (h : isHexDigest s = true) : Ascii s := isHexDigest_lt h

theorem upstreamModel_eq_some {p : ProviderRecord} {model name : Str}
    (h : upstreamModel p model = some name) : (∃ m ∈ p.models, m.2 = name) ∧ name ≠ [] := by
  rw [upstreamModel, Option.filter_eq_some_iff] at h
  exact ⟨⟨_, Dict.mem_of_get h.1, rfl⟩, by simpa using h.2⟩

variable {settings : Settings} {env : Env} {request : PlanRequest}

/-- The row of an eligible provider can be hashed. -/
theorem candidate_hashable {p : ProviderRecord} (hp : p.Valid) (he : eligible request p = true) :
    Hashable (candidate env request p).json := by
  simp only [eligible, decide_eq_true_eq] at he
  -- a candidate that is eligible has a model name
  obtain ⟨name, hname⟩ := Option.ne_none_iff_exists'.mp he.2.2.1
  obtain ⟨⟨m, hm, rfl⟩, _⟩ := upstreamModel_eq_some hname
  have hsov := hp.sovereignty
  have hcost := hp.costTier
  have htype : Clean p.providerType.text := by
    cases p.providerType <;> exact clean_lit (by decide)
  have hstate : Clean (candidate env request p).modelIdentityState := by
    rw [Candidate.modelIdentityState]
    split <;> exact clean_lit (by decide)
  have hcredential : Clean (credentialState env p).text := by
    cases credentialState env p <;> exact clean_lit (by decide)
  have hdigest : Hashable (jsonOr .str (Dict.get p.modelDigests request.model)) :=
    hashable_jsonOr fun d hd =>
      hashable_str (isHexDigest_ascii (hp.digests _ (Dict.mem_of_get hd))).clean
  have hupstream : Clean (candidate env request p).upstreamModel := by
    rw [candidate, hname]
    exact (hp.upstream m hm).2.clean
  -- member by member, in the order of the candidate's row
  refine hashable_obj ?_
  simp only [List.forall_mem_cons]
  exact ⟨⟨clean_lit (by decide), hashable_str (IDENTIFIER_ascii hp.id).clean⟩,
    ⟨clean_lit (by decide), hashable_str (IDENTIFIER_ascii request.valid.model).clean⟩,
    ⟨clean_lit (by decide), hashable_str hupstream⟩,
    ⟨clean_lit (by decide), hashable_int_of_small hp.priority⟩,
    ⟨clean_lit (by decide),
      hashable_int_of_small ⟨hsov.1, by simp only [candidate]; omega⟩⟩,
    ⟨clean_lit (by decide),
      hashable_int_of_small ⟨hcost.1, by simp only [candidate]; omega⟩⟩,
    ⟨clean_lit (by decide),
      hashable_str (CLASSIFICATIONS_clean request.valid.dataClassification)⟩,
    ⟨clean_lit (by decide), hashable_str htype⟩, ⟨clean_lit (by decide), hdigest⟩,
    ⟨clean_lit (by decide), hashable_str hstate⟩,
    ⟨clean_lit (by decide), hashable_str hcredential⟩, List.forall_mem_nil _⟩

/-- The body of a plan can be hashed. -/
theorem planBody_hashable (settings : Settings) (env : Env) (request : PlanRequest) :
    Hashable (planBody settings request (routeCandidates settings env request)) := by
  have hcost := request.valid.maxCostTier
  have hconfig : Clean settings.configState.text := by
    cases settings.configState <;> exact clean_lit (by decide)
  -- each row is that of an eligible provider of the registry, which is valid
  have hrows : Hashable (.arr ((routeCandidates settings env request).map Candidate.json)) := by
    refine hashable_arr fun v hv => ?_
    obtain ⟨c, hc, rfl⟩ := List.mem_map.mp hv
    obtain ⟨p, hp, he, rfl⟩ := mem_routeCandidates.mp hc
    exact candidate_hashable (settings.registry.valid p hp) he
  have hselected : Hashable (jsonOr (fun c : Candidate => .str c.providerId)
      (routeCandidates settings env request).head?) := by
    refine hashable_jsonOr fun c hc => ?_
    obtain ⟨p, hp, _, rfl⟩ := mem_routeCandidates.mp (List.mem_of_mem_head? hc)
    exact hashable_str (IDENTIFIER_ascii (settings.registry.valid p hp).id).clean
  -- member by member, in the order of the plan
  refine hashable_obj ?_
  simp only [List.forall_mem_cons]
  exact ⟨⟨clean_lit (by decide), hashable_str (clean_lit (by decide))⟩,
    ⟨clean_lit (by decide), hashable_str (IDENTIFIER_ascii request.valid.model).clean⟩,
    ⟨clean_lit (by decide), hashable_jsonOr fun id hid =>
      hashable_str (IDENTIFIER_ascii (request.valid.requiredProviderId id hid)).clean⟩,
    ⟨clean_lit (by decide),
      hashable_str (CLASSIFICATIONS_clean request.valid.dataClassification)⟩,
    ⟨clean_lit (by decide), hashable_int_of_small ⟨hcost.1, by omega⟩⟩,
    ⟨clean_lit (by decide), hashable_str hconfig⟩,
    ⟨clean_lit (by decide), hashable_bool _⟩, ⟨clean_lit (by decide), hrows⟩,
    ⟨clean_lit (by decide), hselected⟩,
    ⟨clean_lit (by decide), hashable_str (clean_lit (by decide))⟩, List.forall_mem_nil _⟩

/-- A plan can always be hashed. Every text in it is a literal or was validated on its way in, so
none of them has a surrogate, and its numbers are small. -/
theorem plan_total (settings : Settings) (env : Env) (request : PlanRequest) :
    ∃ p, plan settings env request = .ok p ∧
      p.candidates = routeCandidates settings env request := by
  obtain ⟨htexts, hdump⟩ := planBody_hashable settings env request
  rw [plan, sha256, canonical_of_clean htexts hdump]
  exact ⟨_, rfl, rfl⟩

/-- The provider of an id is the only one that has it. -/
theorem providerById_eq_some {id : Str} {p : ProviderRecord} :
    providerById settings id = some p ↔ p ∈ settings.registry.providers ∧ p.id = id := by
  constructor
  · intro h
    exact ⟨List.mem_of_find?_eq_some h, by simpa using List.find?_some h⟩
  · rintro ⟨hmem, rfl⟩
    obtain ⟨q, hq⟩ : ∃ q, providerById settings p.id = some q := by
      refine Option.isSome_iff_exists.mp ?_
      rw [providerById, List.find?_isSome]
      exact ⟨p, hmem, by simp⟩
    have hqmem := List.mem_of_find?_eq_some hq
    have hqid : q.id = p.id := by simpa using List.find?_some hq
    rw [hq, List.inj_on_of_nodup_map settings.registry.unique hqmem hmem hqid]

end Gateway

end SzlRouter
