/-
Providers and logical routes (`szl_router/core.py`).

A provider reads its URL and its key from the environment each time it is asked.
`_ResolvedEmbeddingProvider` is the subclass that answers with what was captured
when it was made; here it is a provider with the field `frozen` set.
-/
import SzlRouter.PyStr
import Mathlib.Data.List.Basic

open Py

namespace SzlRouter

/-- `os.environ`. -/
abbrev Env := Str → Option Str

/-- `os.environ.get(name, "")`. -/
def Env.getD (env : Env) (name : Str) : Str := (env name).getD []

/-- `_normalize_base`: a bare host gets `/v1`. -/
def normalizeBase (url : Str) : Str :=
  let u := Str.rstrip (Str.strip url) (chr '/')
  if u = [] then []
  else if chr '/' ∈ (Str.after (lit "://") u).getD u then u
  else u ++ lit "/v1"

/-- The endpoint and the credential that a resolved provider answers with. -/
structure Resolved where
  url : Str
  key : Option Str
  deriving DecidableEq

structure Provider where
  name : Str
  /-- Environment variable with the base URL, or `""`. -/
  baseUrlEnv : Str
  baseUrlDefault : Str
  /-- Environment variable with the key; `""` when none is needed. -/
  keyEnv : Str
  sovereign : Bool
  energySource : Str
  /-- Opt-in variable; `""` when the provider needs none. -/
  enableEnv : Str := []
  frozen : Option Resolved := none
  deriving DecidableEq

namespace Provider

def baseUrl (p : Provider) (env : Env) : Str :=
  match p.frozen with
  | some r => r.url
  | none =>
    let v := Str.strip (env.getD p.baseUrlEnv)
    if p.baseUrlEnv ≠ [] ∧ v ≠ [] then normalizeBase v
    else if p.baseUrlDefault ≠ [] then normalizeBase p.baseUrlDefault
    else []

def apiKey (p : Provider) (env : Env) : Option Str :=
  match p.frozen with
  | some r => r.key
  | none =>
    if p.keyEnv = [] then none
    else
      let v := Str.strip (env.getD p.keyEnv)
      if v = [] then none else some v

/-- `.lower()` on the ASCII letters: no other character lowers into an opt-in word. -/
def lowerChar (c : CodePoint) : CodePoint :=
  if h : 65 ≤ c.val ∧ c.val ≤ 90 then ⟨c.val + 32, by omega⟩ else c

/-- The values of the opt-in variable that turn a provider on. -/
def optIn : List Str := [lit "1", lit "true", lit "yes", lit "on"]

def available (p : Provider) (env : Env) : Bool :=
  if p.enableEnv ≠ [] ∧ (env.getD p.enableEnv).map lowerChar ∉ optIn then false
  else if p.baseUrl env = [] then false
  else if p.keyEnv ≠ [] then (p.apiKey env).isSome
  else true

/-- `_ResolvedEmbeddingProvider.capture`: the URL is read first, then the key. -/
def capture (p : Provider) (envUrl envKey : Env) : Provider :=
  { p with frozen := some ⟨p.baseUrl envUrl, p.apiKey envKey⟩ }

end Provider

/-- The tier labels of `_tier_of`. -/
inductive Tier
  | sovereign
  | paidGrid
  | unqualifiedGrid
  deriving DecidableEq

def Tier.text : Tier → Str
  | .sovereign => lit "sovereign"
  | .paidGrid => lit "paid-grid"
  | .unqualifiedGrid => lit "unqualified-grid"

/-- `_tier_of`. -/
def tierOf (p : Provider) : Tier :=
  if p.sovereign then .sovereign
  else if p.name = lit "moonshot" then .paidGrid
  else .unqualifiedGrid

theorem tierOf_eq_sovereign {p : Provider} : tierOf p = .sovereign ↔ p.sovereign = true := by
  rw [tierOf]
  split_ifs with h₁ h₂ <;> simp [h₁]

/-! ### The registry -/

def localOllama : Provider where
  name := lit "local_ollama"
  baseUrlEnv := []
  baseUrlDefault := lit "http://127.0.0.1:11434/v1"
  keyEnv := []
  sovereign := true
  energySource := lit "self-hosted"
  enableEnv := lit "SZL_LOCAL_OLLAMA_ENABLE"

/-- A GPU node of our own: both its URL and its token come from the environment. -/
def selfHosted (name urlEnv keyEnv : Str) : Provider where
  name := name
  baseUrlEnv := urlEnv
  baseUrlDefault := []
  keyEnv := keyEnv
  sovereign := true
  energySource := lit "self-hosted"

/-- A third-party cloud candidate. -/
def gridCandidate (name urlEnv urlDefault keyEnv : Str) : Provider where
  name := name
  baseUrlEnv := urlEnv
  baseUrlDefault := urlDefault
  keyEnv := keyEnv
  sovereign := false
  energySource := lit "grid"

/-- `PROVIDERS`. -/
def PROVIDERS : List (Str × Provider) :=
  [localOllama,
    selfHosted (lit "box_gpu") (lit "A11OY_MODEL_BASE_URL") (lit "A11OY_GPU_TOKEN"),
    selfHosted (lit "nvidia_gpu") (lit "NVIDIA_GPU_BASE_URL") (lit "NVIDIA_GPU_TOKEN"),
    selfHosted (lit "omen_gpu") (lit "OMEN_GPU_BASE_URL") (lit "OMEN_GPU_TOKEN"),
    gridCandidate (lit "groq") (lit "GROQ_BASE_URL") (lit "https://api.groq.com/openai/v1")
      (lit "GROQ_API_KEY"),
    gridCandidate (lit "nvidia_nim") (lit "NVIDIA_NIM_BASE_URL")
      (lit "https://integrate.api.nvidia.com/v1") (lit "NVIDIA_NIM_API_KEY"),
    gridCandidate (lit "zhipu") (lit "ZHIPU_BASE_URL")
      (lit "https://open.bigmodel.cn/api/paas/v4") (lit "ZHIPU_API_KEY"),
    gridCandidate (lit "siliconflow") (lit "SILICONFLOW_BASE_URL")
      (lit "https://api.siliconflow.com/v1") (lit "SILICONFLOW_API_KEY"),
    gridCandidate (lit "cerebras") (lit "CEREBRAS_BASE_URL") (lit "https://api.cerebras.ai/v1")
      (lit "CEREBRAS_API_KEY"),
    gridCandidate (lit "openrouter") (lit "OPENROUTER_BASE_URL")
      (lit "https://openrouter.ai/api/v1") (lit "OPENROUTER_API_KEY"),
    gridCandidate (lit "google") (lit "GEMINI_BASE_URL")
      (lit "https://generativelanguage.googleapis.com/v1beta/openai") (lit "GEMINI_API_KEY"),
    gridCandidate (lit "moonshot") (lit "MOONSHOT_BASE_URL") (lit "https://api.moonshot.ai/v1")
      (lit "KIMI_API_KEY")].map fun p => (p.name, p)

/-- `Route`: a provider name and an upstream model. -/
abbrev Route := Str × Str

def route (provider model : String) : Route := (lit provider, lit model)

/-- `MODEL_ROUTES`. -/
def MODEL_ROUTES : List (Str × List Route) :=
  [(lit "szl-large",
      [route "box_gpu" "llama3.1:8b", route "nvidia_gpu" "llama3.1:8b",
        route "omen_gpu" "llama3.1:8b", route "groq" "deepseek-r1-distill-llama-70b",
        route "nvidia_nim" "deepseek-ai/deepseek-r1", route "cerebras" "gpt-oss-120b",
        route "openrouter" "qwen/qwen3-next-80b-a3b-instruct:free",
        route "google" "gemini-2.5-flash", route "groq" "llama-3.3-70b-versatile",
        route "nvidia_nim" "meta/llama-3.3-70b-instruct", route "moonshot" "kimi-k2.5"]),
    (lit "szl-fast",
      [route "omen_gpu" "llama3.1:8b", route "box_gpu" "llama3.1:8b",
        route "nvidia_gpu" "llama3.1:8b", route "cerebras" "gpt-oss-120b",
        route "groq" "llama-3.1-8b-instant", route "nvidia_nim" "meta/llama-3.1-8b-instruct",
        route "openrouter" "meta-llama/llama-3.3-70b-instruct:free"]),
    (lit "szl-coder",
      [route "box_gpu" "qwen2.5-coder:7b", route "nvidia_gpu" "qwen2.5-coder:7b",
        route "omen_gpu" "qwen2.5-coder:7b", route "groq" "deepseek-r1-distill-llama-70b",
        route "openrouter" "qwen/qwen3-next-80b-a3b-instruct:free",
        route "nvidia_nim" "deepseek-ai/deepseek-coder-6.7b-instruct",
        route "groq" "llama-3.3-70b-versatile"])]

/-- `EMBED_ROUTES`. -/
def EMBED_ROUTES : List (Str × List Route) :=
  [(lit "bge-large",
      [route "omen_gpu" "bge-large", route "box_gpu" "bge-large",
        route "nvidia_gpu" "bge-large"])]

def DEFAULT_MODEL : Str := lit "szl-large"

/-- The default of `resolve_embed_routes`. -/
def DEFAULT_EMBED_MODEL : Str := lit "bge-large"

/-- The tables that a call resolves its routes in; the default names are listed. -/
structure Registry where
  providers : List (Str × Provider)
  modelRoutes : List (Str × List Route)
  embedRoutes : List (Str × List Route)
  default_known : (modelRoutes.lookup DEFAULT_MODEL).isSome = true
  embed_default_known : (embedRoutes.lookup DEFAULT_EMBED_MODEL).isSome = true

/-- The tables of the source. -/
def registry : Registry :=
  ⟨PROVIDERS, MODEL_ROUTES, EMBED_ROUTES, by decide, by decide⟩

namespace Registry

/-- `PROVIDERS.get(name)`. -/
def provider (reg : Registry) (name : Str) : Option Provider := reg.providers.lookup name

/-- The routes of a name in a table, of a `provider:model` override, or of the
default name. -/
def resolve (reg : Registry) (table : List (Str × List Route)) (fallback : List Route)
    (model : Str) : List Route :=
  match table.lookup model with
  | some routes => routes
  | none =>
    let (prov, found, up) := Str.partition (chr ':') model
    if found ∧ (reg.provider prov).isSome then [(prov, up)] else fallback

/-- `resolve_routes`. -/
def resolveRoutes (reg : Registry) (model : Str) : List Route :=
  reg.resolve reg.modelRoutes ((reg.modelRoutes.lookup DEFAULT_MODEL).get reg.default_known) model

/-- `resolve_embed_routes`. -/
def resolveEmbedRoutes (reg : Registry) (model : Str) : List Route :=
  reg.resolve reg.embedRoutes
    ((reg.embedRoutes.lookup DEFAULT_EMBED_MODEL).get reg.embed_default_known) model

end Registry

example : registry.resolveRoutes (lit "local_ollama:qwen2.5:7b") =
    [route "local_ollama" "qwen2.5:7b"] := by decide

end SzlRouter
