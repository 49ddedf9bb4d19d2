/-
Plans do not depend on the order of the registry.

No two providers have one id, so no two candidates have one sort key: the
candidates are sorted without ties, and their order says nothing about the order
of the providers.

* `keys_nodup` — the ids of the registry make the keys unique;
* `plan_order` — plans of permuted registries, and of lower cost tiers.
-/
import SzlRouter.GatewayPlan

namespace SzlRouter

namespace Gateway

open Py

variable {settings : Settings} {env : Env} {request : PlanRequest}

/-- The keys are unique, since each ends in the id of its provider and no two providers of a
registry share one. So the order of the candidates has no ties. -/
theorem keys_nodup (settings : Settings) (env : Env) (request : PlanRequest) :
    (((settings.registry.providers.filter (eligible request)).map
      (candidate env request)).map Candidate.key).Nodup := by
  have hids := settings.registry.unique.sublist
    ((List.filter_sublist (p := eligible request)).map ProviderRecord.id)
  rw [List.map_map]
  refine List.Nodup.of_map (fun key => (ofLex (ofLex (ofLex key).2).2).2) ?_
  rw [List.map_map]
  exact hids

theorem LE_iff (a b : Candidate) : Candidate.LE a b ↔ a.key ≤ b.key := Iff.rfl

/-- The candidates are sorted without ties. -/
theorem routeCandidates_sorted (settings : Settings) (env : Env) (request : PlanRequest) :
    (routeCandidates settings env request).Pairwise fun a b => a.key < b.key :=
  KeySort.pairwise_lt_insertionSort LE_iff (keys_nodup settings env request)

/-- The order of the registry is forgotten. -/
theorem routeCandidates_of_perm {registry : Registry}
    (h : settings.registry.providers.Perm registry.providers) :
    routeCandidates { settings with registry } env request =
      routeCandidates settings env request :=
  (KeySort.insertionSort_eq_of_perm LE_iff (keys_nodup settings env request)
    ((h.filter _).map _)).symm

/-- The request with another bound on the cost tier. -/
def PlanRequest.withTier (request : PlanRequest) (tier : ℤ) (htier : 0 ≤ tier ∧ tier ≤ 10) :
    PlanRequest :=
  { request with maxCostTier := tier, valid := { request.valid with maxCostTier := htier } }

/-- A provider passes every filter of a request. -/
structure Passes (request : PlanRequest) (p : ProviderRecord) : Prop where
  required : request.requiredProviderId = none ∨ request.requiredProviderId = some p.id
  enabled : p.enabled = true
  model : ∃ upstream, Dict.get p.models request.model = some upstream ∧ upstream ≠ []
  classification : request.dataClassification ∈ p.classifications
  cost : p.costTier ≤ request.maxCostTier

theorem eligible_iff {p : ProviderRecord} : eligible request p = true ↔ Passes request p := by
  have hrequired : (∀ id ∈ request.requiredProviderId, p.id = id) ↔
      request.requiredProviderId = none ∨ request.requiredProviderId = some p.id := by
    cases request.requiredProviderId with
    | none => simp
    | some id => simp [eq_comm]
  have hmodel : upstreamModel p request.model ≠ none ↔
      ∃ upstream, Dict.get p.models request.model = some upstream ∧ upstream ≠ [] := by
    simp only [Option.ne_none_iff_exists', upstreamModel, Option.filter_eq_some_iff,
      decide_eq_true_eq]
  rw [eligible, decide_eq_true_eq, hrequired, hmodel]
  constructor
  · rintro ⟨hid, henabled, hupstream, hclass, hcost⟩
    exact ⟨hid, henabled, hupstream, hclass, hcost⟩
  · rintro ⟨hid, henabled, hupstream, hclass, hcost⟩
    exact ⟨hid, henabled, hupstream, hclass, hcost⟩

/-- A lower bound on the cost tier only drops candidates. -/
theorem routeCandidates_withTier {tier : ℤ} (htier : 0 ≤ tier ∧ tier ≤ 10)
    (hle : tier ≤ request.maxCostTier) :
    routeCandidates settings env (request.withTier tier htier) =
      (routeCandidates settings env request).filter (·.costTier ≤ tier) := by
  have hfilter : (settings.registry.providers.filter (eligible request)).filter
      (fun p => decide ((candidate env request p).costTier ≤ tier)) =
        settings.registry.providers.filter (eligible (request.withTier tier htier)) := by
    rw [List.filter_filter]
    refine List.filter_congr fun p _ => ?_
    rw [Bool.eq_iff_iff, Bool.and_eq_true, decide_eq_true_eq, eligible_iff, eligible_iff]
    constructor
    · rintro ⟨hcost, hpasses⟩
      exact { hpasses with cost := hcost }
    · intro hpasses
      exact ⟨hpasses.cost, { hpasses with cost := hpasses.cost.trans hle }⟩
  rw [routeCandidates, routeCandidates,
    ← KeySort.insertionSort_filter LE_iff (keys_nodup settings env request), List.filter_map,
    ← hfilter]
  rfl

/-- The order of candidates: sovereignty first and descending, then priority, cost and id. The id
is unique, so the order is strict. -/
def Candidate.Before (a b : Candidate) : Prop :=
  b.sovereignty < a.sovereignty ∨ a.sovereignty = b.sovereignty ∧
    (a.priority < b.priority ∨ a.priority = b.priority ∧
      (a.costTier < b.costTier ∨ a.costTier = b.costTier ∧ a.providerId < b.providerId))

theorem Candidate.key_lt_iff (a b : Candidate) : a.key < b.key ↔ a.Before b := by
  rw [Candidate.key, Candidate.key, Candidate.Before, Prod.Lex.toLex_lt_toLex,
    Prod.Lex.toLex_lt_toLex, Prod.Lex.toLex_lt_toLex, neg_lt_neg_iff, neg_inj]

/-- A plan is the same for every order of the registry; its candidates are exactly the providers
that pass every filter, in strict order, and a lower bound on the cost tier only drops some. -/
theorem plan_order (settings : Settings) (env : Env) (request : PlanRequest) :
    (∀ registry : Registry, settings.registry.providers.Perm registry.providers →
      plan { settings with registry } env request = plan settings env request) ∧
    ∃ candidates, candidates = routeCandidates settings env request ∧
      (∃ p, plan settings env request = .ok p ∧ p.candidates = candidates) ∧
      candidates.Pairwise Candidate.Before ∧
      (∀ c, c ∈ candidates ↔
        ∃ p ∈ settings.registry.providers, Passes request p ∧ candidate env request p = c) ∧
      ∀ tier htier, tier ≤ request.maxCostTier →
        routeCandidates settings env (request.withTier tier htier) =
          candidates.filter (·.costTier ≤ tier) := by
  refine ⟨fun registry h => ?_, _, rfl, plan_total settings env request, ?_, fun c => ?_, ?_⟩
  · rw [plan, plan, routeCandidates_of_perm h]
    rfl
  · exact (routeCandidates_sorted settings env request).imp fun {a b} =>
      (Candidate.key_lt_iff a b).mp
  · simp only [mem_routeCandidates, eligible_iff]
  · exact fun tier htier hle => routeCandidates_withTier htier hle

/-! Two providers that differ in their ids alone. -/

def localProvider (id : Str) : ProviderRecord where
  id := id
  providerType := .ollamaLoopback
  baseUrl := none
  models := [(lit "chat", lit "llama3:8b")]
  modelDigests := []
  modelWeightDigests := []
  tokenEnv := none
  priority := 0
  sovereignty := 0
  costTier := 0
  classifications := [lit "public"]
  enabled := true

theorem localProvider_valid {id : Str} (h : IDENTIFIER id = true) : (localProvider id).Valid where
  id := h
  models := List.cons_ne_nil _ _
  aliases := by
    rw [localProvider, List.forall_mem_singleton]
    decide
  upstream := by
    rw [localProvider, List.forall_mem_singleton]
    exact ⟨by decide, ascii_of_all (by decide)⟩
  digests := by simp [localProvider]
  priority := by simp [localProvider]
  sovereignty := by simp [localProvider]
  costTier := by simp [localProvider]
  classifications := List.cons_ne_nil _ _
  known := by
    rw [localProvider, List.forall_mem_singleton]
    decide
  loopback _ := ⟨rfl, rfl⟩
  https h := nomatch h

def twoProviders : Registry where
  providers := [localProvider (lit "a"), localProvider (lit "b")]
  bounded := by decide
  unique := by decide
  valid := by
    rw [List.forall_mem_cons, List.forall_mem_singleton]
    exact ⟨localProvider_valid (by decide), localProvider_valid (by decide)⟩

/-- The same providers, listed the other way. -/
def twoProvidersReversed : Registry where
  providers := [localProvider (lit "b"), localProvider (lit "a")]
  bounded := by decide
  unique := by decide
  valid := by
    rw [List.forall_mem_cons, List.forall_mem_singleton]
    exact ⟨localProvider_valid (by decide), localProvider_valid (by decide)⟩

def twoProviderSettings : Settings := ⟨twoProviders, [], false, .validated, none⟩

theorem plan_order_two (env : Env) (request : PlanRequest) :
    plan { twoProviderSettings with registry := twoProvidersReversed } env request =
      plan twoProviderSettings env request :=
  (plan_order twoProviderSettings env request).1 twoProvidersReversed (List.Perm.swap _ _ _)

end Gateway

end SzlRouter
