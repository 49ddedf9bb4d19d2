/-
The gateway's configuration: the provider registry and the settings read from
the environment.

The conversions that pydantic makes between JSON values and numbers are a
parameter; every bound, pattern and validator of the source is here.  A refused
registry leaves no provider behind, and a `Registry` carries what its validators
established.

* `ProviderRecord.validate_valid` — what an accepted record satisfies;
* `loadSettings_cases` — the three ways the configuration is read.
-/
import SzlRouter.CanonicalJson
import SzlRouter.Providers
import SzlRouter.Sha256
import SzlRouter.UrlSplit

namespace SzlRouter

namespace Gateway

open Py

def MAX_PROVIDERS : ℕ := 16
def MAX_MODELS_PER_PROVIDER : ℕ := 128

/-! ### Names -/

/-- `[A-Za-z0-9._:-]`. -/
def nameChar (c : CodePoint) : Bool :=
  Str.isAlnum c ∨ c = chr '.' ∨ c = chr '_' ∨ c = chr ':' ∨ c = chr '-'

/-- A letter or digit and then characters of a class. -/
def namePattern (rest : CodePoint → Bool) : Str → Bool
  | [] => false
  | c :: s => Str.isAlnum c && s.all rest

/-- `IDENTIFIER`. -/
def IDENTIFIER (s : Str) : Bool := namePattern nameChar s ∧ s.length ≤ 96

/-- `OLLAMA_MODEL_NAME`. -/
def OLLAMA_MODEL_NAME (s : Str) : Bool :=
  namePattern (fun c => nameChar c || c = chr '/') s ∧ s.length ≤ 192

/-- `HTTPS_MODEL_NAME`. -/
def HTTPS_MODEL_NAME (s : Str) : Bool := (Str.split (chr '/') s).all (namePattern nameChar)

/-- `[A-Z]`. -/
def isUpper (c : CodePoint) : Bool := 65 ≤ c.val ∧ c.val ≤ 90

/-- `TOKEN_ENV`. -/
def TOKEN_ENV : Str → Bool
  | [] => false
  | c :: s => isUpper c && s.all (fun c => isUpper c || Str.isDigit c || c = chr '_') &&
      (2 ≤ s.length && s.length ≤ 95)

def CLASSIFICATIONS : List Str :=
  [lit "public", lit "internal", lit "confidential", lit "restricted"]

/-- `valid_https_model_name`. -/
def validHttpsModelName (value : Str) : Bool :=
  value.length ≤ 192 ∧
    (Str.startsWith (Str.lower value) (lit "http:") = false ∧
      Str.startsWith (Str.lower value) (lit "https:") = false) ∧
    HTTPS_MODEL_NAME value

/-- `[A-Za-z0-9._-]` after a letter or digit, at most 192 characters. -/
def SEGMENT (s : Str) : Bool :=
  namePattern (fun c => Str.isAlnum c || c = chr '.' || c = chr '_' || c = chr '-') s ∧
    s.length ≤ 192

/-- `_REGISTRY`. -/
def REGISTRY (s : Str) : Bool :=
  namePattern (fun c => Str.isAlnum c || c = chr '.' || c = chr '-') s ∧ s.length ≤ 192

/-- `manifest_relative_path`: the parts of the path. -/
def manifestRelativePath (model : Str) : Option (List Str) :=
  if model = [] ∨ chr '\\' ∈ model ∨ 1 < model.count (chr ':') then none
  else
    let parts := Str.split (chr '/') model
    if parts.any fun part => part = [] ∨ part = lit "." ∨ part = lit ".." then none
    else
      let named := chr '.' ∈ parts.headD [] ∧ 1 < parts.length
      if named ∧ (REGISTRY (parts.headD []) = false ∨
          Str.contains (lit "..") (parts.headD []) = true) then none
      else
        let registry := if named then parts.headD [] else lit "registry.ollama.ai"
        let repository :=
          if named then parts.tail
          else if 1 < parts.length then parts else [lit "library", parts.headD []]
        if repository.length < 2 ∨ 8 < repository.length then none
        else
          let (name, found, tag) := Str.partition (chr ':') (repository.getLastD [])
          let tag := if found then tag else lit "latest"
          let segments := repository.dropLast ++ [name, tag]
          if segments.any fun part => SEGMENT part = false ∨ part = lit "." ∨ part = lit ".." then
            none
          else some (lit "manifests" :: registry :: segments)

theorem ascii_nameChar {c : CodePoint} (h : nameChar c = true) : c.val < 128 := by
  simp only [nameChar, Str.isAlnum, Str.isDigit, decide_eq_true_eq] at h
  rcases h with h | rfl | rfl | rfl | rfl
  · omega
  all_goals decide

theorem namePattern_ascii {rest : CodePoint → Bool} (hrest : ∀ c, rest c = true → c.val < 128)
    {s : Str} (h : namePattern rest s = true) : s ≠ [] ∧ Ascii s := by
  cases s with
  | nil => simp [namePattern] at h
  | cons c s =>
    rw [namePattern, Bool.and_eq_true, List.all_eq_true] at h
    refine ⟨by simp, fun x hx => ?_⟩
    rcases List.mem_cons.mp hx with rfl | hx
    · have hc := h.1
      simp only [Str.isAlnum, Str.isDigit, decide_eq_true_eq] at hc
      omega
    · exact hrest x (h.2 x hx)

theorem IDENTIFIER_ascii {s : Str} (h : IDENTIFIER s = true) : Ascii s := by
  simp only [IDENTIFIER, decide_eq_true_eq] at h
  exact (namePattern_ascii (fun _ => ascii_nameChar) h.1).2

theorem OLLAMA_MODEL_NAME_ascii {s : Str} (h : OLLAMA_MODEL_NAME s = true) :
    s ≠ [] ∧ Ascii s := by
  simp only [OLLAMA_MODEL_NAME, decide_eq_true_eq] at h
  refine namePattern_ascii (fun c hc => ?_) h.1
  simp only [Bool.or_eq_true, decide_eq_true_eq] at hc
  rcases hc with hc | rfl
  · exact ascii_nameChar hc
  · decide

/-- The segments between slashes are not empty, so neither is the name. -/
theorem validHttpsModelName_ascii {s : Str} (h : validHttpsModelName s = true) :
    s ≠ [] ∧ Ascii s := by
  have hsegments := List.all_eq_true.mp (of_decide_eq_true h).2.2
  constructor
  · rintro rfl
    have hnil := hsegments [] (by simp [Str.split])
    simp [namePattern] at hnil
  · intro c hc
    rcases @Str.mem_of_split (chr '/') c s hc with rfl | ⟨w, hw, hcw⟩
    · decide
    · exact (namePattern_ascii (fun _ => ascii_nameChar) (hsegments w hw)).2 c hcw

/-! ### Hosts -/

/-- `normalize_host`. -/
def normalizeHost (T : UrlTables) (value : Str) : Str :=
  Str.rstrip (T.lower (Str.strip value)) (chr '.')

/-- `parse_allowed_hosts`. -/
def parseAllowedHosts (T : UrlTables) (env : Env) : List Str :=
  ((Str.split (chr ',') (env.getD (lit "SZL_ROUTER_ALLOWED_HOSTS"))).map
    (normalizeHost T)).filter (· ≠ [])

/-- `enabled`. -/
def enabled (env : Env) (name : Str) : Bool :=
  Str.lower (Str.strip (env.getD name)) ∈ [lit "1", lit "true", lit "yes", lit "on"]

/-- `validate_base_url`; `none` is a `ValueError`. -/
def validateBaseUrl (T : UrlTables) (value : Str) (allowedHosts : List Str) : Option Str := do
  let parsed ← SplitUrl.urlsplit T (Str.strip value)
  let host := normalizeHost T (parsed.hostname T)
  if parsed.scheme ≠ lit "https" then none
  else if host = [] ∨ host ∉ allowedHosts then none
  else if parsed.username ≠ [] ∨ parsed.password ≠ [] ∨ parsed.query ≠ [] ∨
      parsed.fragment ≠ [] then none
  else
    let port ← parsed.port
    if port ≠ none ∧ port ≠ some 443 then none
    else if (IpAddress.ipAddress host).isSome then none
    else if host = lit "localhost" ∨ Str.endsWith host (lit ".localhost") then none
    else
      let path := Str.rstrip parsed.path (chr '/')
      if path ≠ [] ∧ ¬Str.startsWith path (lit "/") then none
      else some (SplitUrl.unsplit ⟨lit "https", host, path, [], []⟩)

/-! ### Providers -/

inductive ProviderType
  | openaiHttps
  | ollamaLoopback
  deriving DecidableEq

def ProviderType.text : ProviderType → Str
  | .openaiHttps => lit "openai_https"
  | .ollamaLoopback => lit "ollama_loopback"

/-- `ProviderRecord`. -/
structure ProviderRecord where
  id : Str
  providerType : ProviderType
  baseUrl : Option Str
  models : List (Str × Str)
  modelDigests : List (Str × Str)
  modelWeightDigests : List (Str × Str)
  tokenEnv : Option Str
  priority : ℤ
  sovereignty : ℤ
  costTier : ℤ
  classifications : List Str
  enabled : Bool

/-- The conversions of pydantic that accept more than one JSON type. -/
structure Lax where
  int : Json → Option ℤ
  bool : Json → Option Bool

/-- A `str` field: pydantic refuses a lone surrogate. -/
def strField : Json → Option Str
  | .str s => if s.any Str.isSurrogate then none else some s
  | _ => none

/-- A `str | None` field. -/
def optStrField : Json → Option (Option Str)
  | .null => some none
  | v => (strField v).map some

/-- A `dict[str, str]` field. -/
def strDictField : Json → Option (List (Str × Str))
  | .obj d => d.mapM fun p => do return (← strField (.str p.1), ← strField p.2)
  | _ => none

/-- A `list[str]` field. -/
def strListField : Json → Option (List Str)
  | .arr vs => vs.mapM strField
  | _ => none

/-- A `Literal` field. -/
def providerTypeField : Json → Option ProviderType
  | .str s =>
    if s = lit "openai_https" then some .openaiHttps
    else if s = lit "ollama_loopback" then some .ollamaLoopback
    else none
  | _ => none

/-- A field and its default; without one the field is required. -/
def fieldOr {α : Type} (d : Dict) (name : String) (read : Json → Option α)
    (default : Option α) : Option α :=
  match Dict.get d (lit name) with
  | none => default
  | some v => read v

namespace ProviderRecord

/-- `extra="forbid"`: the fields a record may have. -/
def fields : List Str :=
  [lit "id", lit "provider_type", lit "base_url", lit "models", lit "model_digests",
    lit "model_weight_digests", lit "token_env", lit "priority", lit "sovereignty",
    lit "cost_tier", lit "classifications", lit "enabled"]

/-- The types and defaults of the fields. -/
def ofJson (L : Lax) : Json → Option ProviderRecord
  | .obj d =>
    if ∃ k ∈ Dict.keys d, k ∉ fields then none
    else do
      return {
        id := ← fieldOr d "id" strField none
        providerType := ← fieldOr d "provider_type" providerTypeField (some .openaiHttps)
        baseUrl := ← fieldOr d "base_url" optStrField (some none)
        models := ← fieldOr d "models" strDictField none
        modelDigests := ← fieldOr d "model_digests" strDictField (some [])
        modelWeightDigests := ← fieldOr d "model_weight_digests" strDictField (some [])
        tokenEnv := ← fieldOr d "token_env" optStrField (some none)
        priority := ← fieldOr d "priority" L.int (some 100)
        sovereignty := ← fieldOr d "sovereignty" L.int (some 0)
        costTier := ← fieldOr d "cost_tier" L.int (some 1)
        classifications := ← fieldOr d "classifications" strListField (some [lit "public"])
        enabled := ← fieldOr d "enabled" L.bool (some false) }
  | _ => none

/-- The bounds and patterns of the fields. -/
def bounded (p : ProviderRecord) : Bool :=
  IDENTIFIER p.id ∧
    (∀ url ∈ p.baseUrl, 9 ≤ url.length ∧ url.length ≤ 512) ∧
    (1 ≤ p.models.length ∧ p.models.length ≤ MAX_MODELS_PER_PROVIDER) ∧
    p.modelDigests.length ≤ MAX_MODELS_PER_PROVIDER ∧
    p.modelWeightDigests.length ≤ MAX_MODELS_PER_PROVIDER ∧
    (∀ name ∈ p.tokenEnv, TOKEN_ENV name) ∧
    (0 ≤ p.priority ∧ p.priority ≤ 10000) ∧
    (0 ≤ p.sovereignty ∧ p.sovereignty ≤ 100) ∧
    (0 ≤ p.costTier ∧ p.costTier ≤ 10) ∧
    (1 ≤ p.classifications.length ∧ p.classifications.length ≤ 4)

/-- `valid_models`. -/
def validModels (models : List (Str × Str)) : Option (List (Str × Str)) :=
  if models.all fun m => IDENTIFIER m.1 then some (sortByKey models) else none

/-- `valid_classifications`. -/
def validClassifications (values : List Str) : Option (List Str) :=
  let normalized := values.map Str.lower
  if ∃ c ∈ normalized, c ∉ CLASSIFICATIONS then none
  else if ¬normalized.Nodup then none
  else some (normalized.insertionSort (· ≤ ·))

/-- `valid_provider_binding`. -/
def validProviderBinding (p : ProviderRecord) : Bool :=
  match p.providerType with
  | .ollamaLoopback =>
    (p.models.all fun m => OLLAMA_MODEL_NAME m.2) ∧
      (p.baseUrl = none ∧ p.tokenEnv = none) ∧
      ((∀ k ∈ Dict.keys p.modelDigests, k ∈ Dict.keys p.models) ∧
        ∀ k ∈ Dict.keys p.models, k ∈ Dict.keys p.modelDigests) ∧
      (p.modelDigests.all fun m => isHexDigest m.2) ∧
      (∀ k ∈ Dict.keys p.modelWeightDigests, k ∈ Dict.keys p.models) ∧
      (p.modelWeightDigests.all fun m => isHexDigest m.2) ∧
      ∀ k ∈ Dict.keys p.modelWeightDigests,
        (manifestRelativePath ((Dict.get p.models k).getD [])).isSome
  | .openaiHttps =>
    p.baseUrl ≠ none ∧ p.tokenEnv ≠ none ∧ p.modelDigests = [] ∧ p.modelWeightDigests = [] ∧
      p.models.all fun m => validHttpsModelName m.2

/-- `ProviderRecord.model_validate`. -/
def validate (L : Lax) (v : Json) : Option ProviderRecord := do
  let p ← ofJson L v
  if p.bounded = false then none
  else
    let models ← validModels p.models
    let classifications ← validClassifications p.classifications
    let p := { p with models, classifications }
    if p.validProviderBinding then some p else none

end ProviderRecord

namespace ProviderRecord

/-- What the validators establish, and the router relies on: identifiers and names of known
alphabets, numbers in their ranges, and a provider that has what its type needs. -/
structure Valid (p : ProviderRecord) : Prop where
  id : IDENTIFIER p.id = true
  models : p.models ≠ []
  aliases : ∀ m ∈ p.models, IDENTIFIER m.1 = true
  upstream : ∀ m ∈ p.models, m.2 ≠ [] ∧ Ascii m.2
  digests : ∀ m ∈ p.modelDigests, isHexDigest m.2 = true
  priority : 0 ≤ p.priority ∧ p.priority ≤ 10000
  sovereignty : 0 ≤ p.sovereignty ∧ p.sovereignty ≤ 100
  costTier : 0 ≤ p.costTier ∧ p.costTier ≤ 10
  classifications : p.classifications ≠ []
  known : ∀ c ∈ p.classifications, c ∈ CLASSIFICATIONS
  loopback : p.providerType = .ollamaLoopback → p.baseUrl = none ∧ p.tokenEnv = none
  https : p.providerType = .openaiHttps → p.baseUrl ≠ none ∧ p.tokenEnv ≠ none

theorem validModels_eq_some {models models' : List (Str × Str)}
    (h : validModels models = some models') :
    (∀ m ∈ models, IDENTIFIER m.1 = true) ∧ models' = sortByKey models := by
  rw [validModels] at h
  split_ifs at h with hall
  exact ⟨List.all_eq_true.mp hall, (Option.some.inj h).symm⟩

theorem validClassifications_eq_some {values classes : List Str}
    (h : validClassifications values = some classes) :
    (∀ c ∈ classes, c ∈ CLASSIFICATIONS) ∧ classes.length = values.length := by
  rw [validClassifications] at h
  split_ifs at h with hknown hnodup
  obtain rfl := Option.some.inj h
  simp only [List.mem_insertionSort, List.length_insertionSort, List.length_map]
  exact ⟨by simpa using hknown, trivial⟩

/-- The two shapes of a provider's binding. -/
theorem validProviderBinding_cases {p : ProviderRecord} (h : p.validProviderBinding = true) :
    (p.providerType = .ollamaLoopback ∧ (p.baseUrl = none ∧ p.tokenEnv = none) ∧
      (∀ m ∈ p.models, OLLAMA_MODEL_NAME m.2 = true) ∧
      ∀ m ∈ p.modelDigests, isHexDigest m.2 = true) ∨
    (p.providerType = .openaiHttps ∧ (p.baseUrl ≠ none ∧ p.tokenEnv ≠ none) ∧
      (∀ m ∈ p.models, validHttpsModelName m.2 = true) ∧ p.modelDigests = []) := by
  rw [validProviderBinding] at h
  cases htype : p.providerType with
  | ollamaLoopback =>
    rw [htype] at h
    simp only [decide_eq_true_eq] at h
    exact .inl ⟨rfl, h.2.1, List.all_eq_true.mp h.1, List.all_eq_true.mp h.2.2.2.1⟩
  | openaiHttps =>
    rw [htype] at h
    simp only [decide_eq_true_eq] at h
    exact .inr ⟨rfl, ⟨h.1, h.2.1⟩, List.all_eq_true.mp h.2.2.2.2, h.2.2.1⟩

/-- What an accepted record satisfies. -/
theorem validate_valid {L : Lax} {v : Json} {p : ProviderRecord} (h : validate L v = some p) :
    p.Valid := by
  rw [validate] at h
  obtain ⟨q, _, h⟩ := Option.bind_eq_some_iff.mp h
  split_ifs at h with hbounds
  obtain ⟨models, hmodels, h⟩ := Option.bind_eq_some_iff.mp h
  obtain ⟨classes, hclasses, h⟩ := Option.bind_eq_some_iff.mp h
  dsimp only at h
  split_ifs at h with hbinding
  obtain rfl := Option.some.inj h
  obtain ⟨haliases, rfl⟩ := validModels_eq_some hmodels
  obtain ⟨hknown, hlength⟩ := validClassifications_eq_some hclasses
  rw [Bool.not_eq_false] at hbounds
  simp only [bounded, decide_eq_true_eq] at hbounds
  obtain ⟨hid, _, ⟨hsome, _⟩, _, _, _, hpriority, hsovereignty, hcost, hclass, _⟩ := hbounds
  -- the models are sorted by name, and are the same models
  have hmem : ∀ {m : Str × Str}, m ∈ sortByKey q.models → m ∈ q.models := fun hm =>
    (sortByKey_perm q.models).mem_iff.mp hm
  -- an Ollama provider pins every model by digest, and any other one has no digests
  have hbinding := validProviderBinding_cases hbinding
  refine ⟨hid, ?_, fun m hm => haliases m (hmem hm), fun m hm => ?_, fun m hm => ?_, hpriority,
    hsovereignty, hcost, ?_, hknown, ?_, ?_⟩
  · intro hnil
    have hperm := (sortByKey_perm q.models).length_eq
    simp only at hnil
    rw [hnil, List.length_nil] at hperm
    omega
  · rcases hbinding with ⟨_, _, hnames, _⟩ | ⟨_, _, hnames, _⟩
    · exact OLLAMA_MODEL_NAME_ascii (hnames m hm)
    · exact validHttpsModelName_ascii (hnames m hm)
  · rcases hbinding with ⟨_, _, _, hhex⟩ | ⟨_, _, _, hnil⟩
    · exact hhex m hm
    · dsimp only at hnil hm
      rw [hnil] at hm
      exact absurd hm List.not_mem_nil
  · rintro rfl
    rw [List.length_nil] at hlength
    omega
  · intro htype
    rcases hbinding with ⟨_, hnone, _⟩ | ⟨hother, _⟩
    · exact hnone
    · exact nomatch htype.symm.trans hother
  · intro htype
    rcases hbinding with ⟨hother, _⟩ | ⟨_, hsome, _⟩
    · exact nomatch htype.symm.trans hother
    · exact hsome

end ProviderRecord

/-! ### The registry -/

/-- `Registry`: its providers, and what `unique_ids` and their own validators
established. -/
structure Registry where
  providers : List ProviderRecord
  bounded : providers.length ≤ MAX_PROVIDERS
  unique : (providers.map ProviderRecord.id).Nodup
  valid : ∀ p ∈ providers, p.Valid

namespace Registry

/-- `Registry()`. -/
def empty : Registry := ⟨[], Nat.zero_le _, List.nodup_nil, by simp⟩

/-- `Registry(providers=...)`. -/
def ofProviders (providers : List ProviderRecord) (valid : ∀ p ∈ providers, p.Valid) :
    Option Registry :=
  if h : providers.length ≤ MAX_PROVIDERS ∧ (providers.map ProviderRecord.id).Nodup then
    some ⟨providers, h.1, h.2, valid⟩
  else none

/-- The `providers` field. -/
def providersOfJson (L : Lax) : Json → Option (List ProviderRecord)
  | .obj d =>
    if ∃ k ∈ Dict.keys d, k ≠ lit "providers" then none
    else fieldOr d "providers" (fun
      | .arr vs => vs.mapM (ProviderRecord.validate L)
      | _ => none) (some [])
  | _ => none

theorem mapM_validate_valid {L : Lax} {vs : List Json} {ps : List ProviderRecord}
    (h : vs.mapM (ProviderRecord.validate L) = some ps) : ∀ p ∈ ps, p.Valid := by
  induction vs generalizing ps with
  | nil =>
    obtain rfl := Option.some.inj h
    simp
  | cons v vs ih =>
    rw [List.mapM_cons] at h
    obtain ⟨p, hp, h⟩ := Option.bind_eq_some_iff.mp h
    obtain ⟨qs, hqs, h⟩ := Option.bind_eq_some_iff.mp h
    obtain rfl := Option.some.inj h
    intro q hq
    rcases List.mem_cons.mp hq with rfl | hq
    · exact ProviderRecord.validate_valid hp
    · exact ih hqs q hq

theorem providersOfJson_valid {L : Lax} {v : Json} {ps : List ProviderRecord}
    (h : providersOfJson L v = some ps) : ∀ p ∈ ps, p.Valid := by
  cases v with
  | obj d =>
    rw [providersOfJson] at h
    split_ifs at h
    rw [fieldOr] at h
    cases hget : Dict.get d (lit "providers") with
    | none =>
      rw [hget] at h
      obtain rfl := Option.some.inj h
      simp
    | some w =>
      rw [hget] at h
      cases w with
      | arr vs => exact mapM_validate_valid h
      | _ => exact nomatch h
  | _ => exact nomatch h

/-- `Registry.model_validate`. -/
def modelValidate (L : Lax) (v : Json) : Option Registry :=
  match h : providersOfJson L v with
  | none => none
  | some ps => ofProviders ps (providersOfJson_valid h)

end Registry

/-! ### Settings -/

inductive ConfigState
  | unavailableNotConfigured
  | validated
  | invalidFailClosed
  deriving DecidableEq

def ConfigState.text : ConfigState → Str
  | .unavailableNotConfigured => lit "UNAVAILABLE_NOT_CONFIGURED"
  | .validated => lit "VALIDATED"
  | .invalidFailClosed => lit "INVALID_FAIL_CLOSED"

/-- `Settings`. -/
structure Settings where
  registry : Registry
  allowedHosts : List Str
  egressEnabled : Bool
  configState : ConfigState
  configError : Option Str

/-- One turn of the loop of `load_settings`: the store root of a provider with
weight pins, and the base URL of one that is not local. -/
def normalizeProvider (T : UrlTables) (env : Env) (allowedHosts : List Str)
    (p : ProviderRecord) : Option ProviderRecord :=
  let storeRoot := Str.strip (env.getD (lit "SZL_ROUTER_OLLAMA_MODELS_DIR"))
  if p.modelWeightDigests ≠ [] ∧ ¬Str.startsWith storeRoot (lit "/") then none
  else match p.providerType with
    | .ollamaLoopback => some p
    | .openaiHttps => do
      let url ← validateBaseUrl T (p.baseUrl.getD []) allowedHosts
      return { p with baseUrl := some url }

/-- A normalised provider differs in its base URL alone. -/
theorem normalizeProvider_eq_some {T : UrlTables} {env : Env} {hosts : List Str}
    {p q : ProviderRecord} (h : normalizeProvider T env hosts p = some q) :
    (p.providerType = .ollamaLoopback ∧ q = p) ∨
    (p.providerType = .openaiHttps ∧ ∃ url, validateBaseUrl T (p.baseUrl.getD []) hosts = some url ∧
      q = { p with baseUrl := some url }) := by
  rw [normalizeProvider] at h
  split_ifs at h
  cases htype : p.providerType with
  | ollamaLoopback =>
    rw [htype] at h
    exact .inl ⟨rfl, (Option.some.inj h).symm⟩
  | openaiHttps =>
    rw [htype] at h
    obtain ⟨url, hurl, h⟩ := Option.bind_eq_some_iff.mp h
    exact .inr ⟨rfl, url, hurl, (Option.some.inj h).symm⟩

theorem normalizeProvider_valid {T : UrlTables} {env : Env} {hosts : List Str}
    {p q : ProviderRecord} (hp : p.Valid) (h : normalizeProvider T env hosts p = some q) :
    q.Valid := by
  rcases normalizeProvider_eq_some h with ⟨_, rfl⟩ | ⟨htype, url, _, rfl⟩
  · exact hp
  · refine { hp with loopback := fun hother => ?_, https := fun _ => ⟨?_, (hp.https htype).2⟩ }
    · exact nomatch htype.symm.trans hother
    · simp

theorem mapM_normalizeProvider_valid {T : UrlTables} {env : Env} {hosts : List Str}
    {ps qs : List ProviderRecord} (hps : ∀ p ∈ ps, p.Valid)
    (h : ps.mapM (normalizeProvider T env hosts) = some qs) : ∀ q ∈ qs, q.Valid := by
  induction ps generalizing qs with
  | nil =>
    obtain rfl := Option.some.inj h
    simp
  | cons p ps ih =>
    rw [List.mapM_cons] at h
    obtain ⟨q, hq, h⟩ := Option.bind_eq_some_iff.mp h
    obtain ⟨rs, hrs, h⟩ := Option.bind_eq_some_iff.mp h
    obtain rfl := Option.some.inj h
    intro r hr
    rcases List.mem_cons.mp hr with rfl | hr
    · exact normalizeProvider_valid (hps p List.mem_cons_self) hq
    · exact ih (fun p hp => hps p (List.mem_cons_of_mem _ hp)) hrs r hr

/-- The `try` block of `load_settings`. -/
def loadRegistry (L : Lax) (T : UrlTables) (env : Env) (allowedHosts : List Str) (raw : Str) :
    Option Registry := do
  let parsed ← loads ⟨false, true⟩ raw
  let registry ← Registry.modelValidate L parsed
  match h : registry.providers.mapM (normalizeProvider T env allowedHosts) with
  | none => none
  | some normalized =>
    Registry.ofProviders normalized (mapM_normalizeProvider_valid registry.valid h)

/-- `load_settings`. -/
def loadSettings (L : Lax) (T : UrlTables) (env : Env) : Settings :=
  let allowedHosts := parseAllowedHosts T env
  let egress := enabled env (lit "SZL_ROUTER_ENABLE_EGRESS")
  let raw := Str.strip (env.getD (lit "SZL_ROUTER_PROVIDERS_JSON"))
  if raw = [] then ⟨.empty, allowedHosts, egress, .unavailableNotConfigured, none⟩
  else match loadRegistry L T env allowedHosts raw with
    | some registry => ⟨registry, allowedHosts, egress, .validated, none⟩
    | none =>
      ⟨.empty, allowedHosts, false, .invalidFailClosed, some (lit ("Provider configuration is " ++
        "invalid; check the registry schema and hostname allowlist."))⟩

/-- The three ways the configuration is read: only a validated one has providers, and an
invalid one has no egress. -/
theorem loadSettings_cases (L : Lax) (T : UrlTables) (env : Env) :
    let settings := loadSettings L T env
    (settings.configState = .unavailableNotConfigured ∧ settings.registry = .empty) ∨
    (settings.configState = .validated ∧
      loadRegistry L T env (parseAllowedHosts T env)
        (Str.strip (env.getD (lit "SZL_ROUTER_PROVIDERS_JSON"))) = some settings.registry) ∨
    (settings.configState = .invalidFailClosed ∧ settings.registry = .empty ∧
      settings.egressEnabled = false) := by
  dsimp only
  rw [loadSettings]
  split_ifs with hraw
  · exact .inl ⟨rfl, rfl⟩
  · rcases hload : loadRegistry L T env _ _ with _ | registry
    · exact .inr (.inr ⟨rfl, rfl, rfl⟩)
    · exact .inr (.inl ⟨rfl, rfl⟩)

inductive CredentialState
  | notRequiredLoopback
  | available
  | unavailable
  deriving DecidableEq

def CredentialState.text : CredentialState → Str
  | .notRequiredLoopback => lit "NOT_REQUIRED_LOOPBACK"
  | .available => lit "AVAILABLE"
  | .unavailable => lit "UNAVAILABLE"

/-- `credential_state`. -/
def credentialState (env : Env) (p : ProviderRecord) : CredentialState :=
  match p.providerType with
  | .ollamaLoopback => .notRequiredLoopback
  | .openaiHttps =>
    match p.tokenEnv with
    | some name => if name ≠ [] ∧ env.getD name ≠ [] then .available else .unavailable
    | none => .unavailable

end Gateway

end SzlRouter
