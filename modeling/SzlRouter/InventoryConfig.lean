/-
The configuration behind the key of an observation.

The key is the SHA-256 of a canonical text.  The text determines the value it was
written from, up to the order of the members, and the value determines the egress
state, the allowed hosts and every field of the registry.

* `sameConfiguration_of_key` — two configurations with one key are the same, unless
  their texts collide.
-/
import SzlRouter.CanonicalValues
import SzlRouter.LocalInventory

namespace SzlRouter

namespace Gateway

open Py

/-! ### Configurations with one key -/

theorem jsonOr_of_norm_eq {a b : Option Str}
    (h : norm canonicalDumps (jsonOr .str a) = norm canonicalDumps (jsonOr .str b)) : a = b := by
  cases a with
  | none =>
    cases b with
    | none => rfl
    | some t => exact nomatch h
  | some s =>
    cases b with
    | none => exact nomatch h
    | some t => rw [str_of_norm_eq h]

/-- Two dicts with the same members, in whatever order; a dict has each key once. -/
def SameDict (d e : List (Str × Str)) : Prop :=
  (d.map Prod.fst).Nodup → (e.map Prod.fst).Nodup → d.Perm e

/-- Two providers that agree in every field. -/
structure SameProvider (p q : ProviderRecord) : Prop where
  id : p.id = q.id
  providerType : p.providerType = q.providerType
  baseUrl : p.baseUrl = q.baseUrl
  models : SameDict p.models q.models
  modelDigests : SameDict p.modelDigests q.modelDigests
  modelWeightDigests : SameDict p.modelWeightDigests q.modelWeightDigests
  tokenEnv : p.tokenEnv = q.tokenEnv
  priority : p.priority = q.priority
  sovereignty : p.sovereignty = q.sovereignty
  costTier : p.costTier = q.costTier
  classifications : p.classifications = q.classifications
  enabled : p.enabled = q.enabled

/-- The same registry, egress state and allowed hosts: all that an observation depends on. The
hosts may stand in another order. -/
structure SameConfiguration (s t : Settings) : Prop where
  configState : s.configState = t.configState
  egressEnabled : s.egressEnabled = t.egressEnabled
  allowedHosts : s.allowedHosts.Perm t.allowedHosts
  providers : List.Forall₂ SameProvider s.registry.providers t.registry.providers

/-- The texts of two configurations differ and have one SHA-256 digest. -/
def Collide (s t : Settings) : Prop :=
  ∃ x y, canonical (.obj (configBody s)) = .ok x ∧ canonical (.obj (configBody t)) = .ok y ∧
    x ≠ y ∧ sha256Hex x = sha256Hex y

theorem sameDict_of_norm_eq {d e : List (Str × Str)}
    (h : norm canonicalDumps (textsObj d) = norm canonicalDumps (textsObj e)) : SameDict d e := by
  intro hd he
  have hkeys : ∀ c : List (Str × Str), Dict.keys (c.map fun p => (p.1, Json.str p.2)) =
      c.map Prod.fst := fun c => List.map_map
  have hperm := members_perm_of_norm_eq ((hkeys d).symm ▸ hd) ((hkeys e).symm ▸ he) h
  rw [List.map_map, List.map_map] at hperm
  refine (List.map_perm_map_iff ?_).mp hperm
  rintro ⟨k, s⟩ ⟨l, t⟩ heq
  obtain ⟨hkey, hvalue⟩ := Prod.mk.inj heq
  exact Prod.ext hkey (Json.str.inj hvalue)

theorem sameProvider_of_norm_eq {p q : ProviderRecord}
    (h : norm canonicalDumps (.obj p.modelDump) = norm canonicalDumps (.obj q.modelDump)) :
    SameProvider p q := by
  -- a field is compared by what it is read back as
  have hfields : ProviderRecord.fields.Nodup := by decide
  have hnodup (r : ProviderRecord) : (Dict.keys r.modelDump).Nodup := hfields
  have hfield {k : Str} {v w : Json} (hv : Dict.get p.modelDump k = some v)
      (hw : Dict.get q.modelDump k = some w) : norm canonicalDumps v = norm canonicalDumps w :=
    field_of_norm_eq (hnodup _) (hnodup _) h hv hw
  -- the two types have different texts
  have htype : p.providerType = q.providerType := by
    have htext := str_of_norm_eq (hfield (k := lit "provider_type") rfl rfl)
    revert htext
    cases p.providerType <;> cases q.providerType <;> decide
  exact {
    id := str_of_norm_eq (hfield (k := lit "id") rfl rfl)
    providerType := htype
    baseUrl := jsonOr_of_norm_eq (hfield (k := lit "base_url") rfl rfl)
    models := sameDict_of_norm_eq (hfield (k := lit "models") rfl rfl)
    modelDigests := sameDict_of_norm_eq (hfield (k := lit "model_digests") rfl rfl)
    modelWeightDigests := sameDict_of_norm_eq (hfield (k := lit "model_weight_digests") rfl rfl)
    tokenEnv := jsonOr_of_norm_eq (hfield (k := lit "token_env") rfl rfl)
    priority := int_of_norm_eq (hfield (k := lit "priority") rfl rfl)
    sovereignty := int_of_norm_eq (hfield (k := lit "sovereignty") rfl rfl)
    costTier := int_of_norm_eq (hfield (k := lit "cost_tier") rfl rfl)
    classifications := strs_of_norm_eq (hfield (k := lit "classifications") rfl rfl)
    enabled := bool_of_norm_eq (hfield (k := lit "enabled") rfl rfl) }

theorem sameConfiguration_of_norm_eq {s t : Settings}
    (h : norm canonicalDumps (.obj (configBody s)) = norm canonicalDumps (.obj (configBody t))) :
    SameConfiguration s t := by
  have hfields : [lit "registry_state", lit "egress_enabled", lit "allowed_hosts",
      lit "providers"].Nodup := by decide
  have hnodup (u : Settings) : (Dict.keys (configBody u)).Nodup := hfields
  have hfield {k : Str} {v w : Json} (hv : Dict.get (configBody s) k = some v)
      (hw : Dict.get (configBody t) k = some w) : norm canonicalDumps v = norm canonicalDumps w :=
    field_of_norm_eq (hnodup _) (hnodup _) h hv hw
  have hstate : s.configState = t.configState := by
    have htext := str_of_norm_eq (hfield (k := lit "registry_state") rfl rfl)
    revert htext
    cases s.configState <;> cases t.configState <;> decide
  have hhosts : sortedHosts s = sortedHosts t :=
    strs_of_norm_eq (hfield (k := lit "allowed_hosts") rfl rfl)
  have hregistry : norm canonicalDumps (.obj s.registry.modelDump) =
      norm canonicalDumps (.obj t.registry.modelDump) := hfield (k := lit "providers") rfl rfl
  have hsingle (u : Settings) : (Dict.keys u.registry.modelDump).Nodup := List.nodup_singleton _
  -- the providers are compared in their order, the hosts up to it
  have hproviders := arr_of_norm_eq
    (field_of_norm_eq (hsingle s) (hsingle t) hregistry (k := lit "providers") rfl rfl)
  rw [List.map_map, List.map_map] at hproviders
  refine ⟨hstate, bool_of_norm_eq (hfield (k := lit "egress_enabled") rfl rfl), ?_, ?_⟩
  -- the hosts are written in sorted order
  · have hs : (sortedHosts s).Perm s.allowedHosts := List.perm_insertionSort _ _
    have ht : (sortedHosts t).Perm t.allowedHosts := List.perm_insertionSort _ _
    exact hs.symm.trans (hhosts ▸ ht)
  · have hpairs := List.forall₂_eq_eq_eq.symm ▸ hproviders
    refine (List.forall₂_map_right_iff.mp (List.forall₂_map_left_iff.mp hpairs)).imp ?_
    exact fun _ _ heq => sameProvider_of_norm_eq heq

/-- **One key, one configuration**, unless SHA-256 collides. The key is a digest of canonical
JSON, from which every field that the observation depends on is read back. -/
theorem sameConfiguration_of_key {s t : Settings} {key : Str}
    (hs : configKey s = .ok key) (ht : configKey t = .ok key)
    (hcollide : ¬Collide s t) : SameConfiguration s t := by
  have hbytes : ∀ {u : Settings}, configKey u = .ok key →
      ∃ b, canonical (.obj (configBody u)) = .ok b ∧ sha256Hex b = key := by
    intro u hu
    rw [configKey, sha256] at hu
    cases hb : canonical (.obj (configBody u)) with
    | error e =>
      rw [hb] at hu
      cases hu
    | ok b =>
      rw [hb] at hu
      exact ⟨b, rfl, Except.ok.inj hu⟩
  obtain ⟨x, hx, hxkey⟩ := hbytes hs
  obtain ⟨y, hy, hykey⟩ := hbytes ht
  by_cases hxy : x = y
  · exact sameConfiguration_of_norm_eq (canonical_injective hx (hxy ▸ hy))
  · exact absurd ⟨x, y, hx, hy, hxy, hxkey.trans hykey.symm⟩ hcollide

end Gateway

end SzlRouter
