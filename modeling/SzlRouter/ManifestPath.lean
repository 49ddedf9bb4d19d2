/-
Manifest paths of the local model store.

A model name has an optional registry, an optional namespace and an optional tag.
The path of an accepted name has safe segments only, and it is the name with its
defaults filled in, cut at the slashes and at the colon.

* `manifestRelativePath_spec` — what an accepted name is cut into;
* `pathText_injective` — safe segments are determined by their text;
* `manifest_path_confined` — confinement, and equality of paths.
-/
import SzlRouter.GatewaySettings
import SzlRouter.SplitJoin

namespace SzlRouter

namespace Gateway

open Py

/-! ### Safe segments -/

/-- A segment that stays where it is put: it is not empty, not a dot or two, and has neither a
separator nor a colon. -/
structure SafeSegment (s : Str) : Prop where
  pattern : SEGMENT s = true
  ne_nil : s ≠ []
  ne_dot : s ≠ lit "."
  ne_dotdot : s ≠ lit ".."
  chars : chr '/' ∉ s ∧ chr '\\' ∉ s ∧ chr ':' ∉ s

theorem namePattern_not_mem {rest : CodePoint → Bool} {s : Str} {c : CodePoint}
    (h : namePattern rest s = true) (hc : Str.isAlnum c = false) (hrest : rest c = false) :
    c ∉ s := by
  cases s with
  | nil => exact List.not_mem_nil
  | cons x s =>
    rw [namePattern, Bool.and_eq_true, List.all_eq_true] at h
    intro hmem
    rcases List.mem_cons.mp hmem with rfl | hmem
    · cases hc.symm.trans h.1
    · cases hrest.symm.trans (h.2 c hmem)

theorem namePattern_head {rest : CodePoint → Bool} {c : CodePoint} {s : Str}
    (h : namePattern rest (c :: s) = true) : Str.isAlnum c = true := by
  rw [namePattern, Bool.and_eq_true] at h
  exact h.1

theorem safeSegment_of_SEGMENT {s : Str} (h : SEGMENT s = true) : SafeSegment s := by
  have hpattern := (of_decide_eq_true h).1
  refine ⟨h, ?_, ?_, ?_, ?_, ?_, ?_⟩
  · rintro rfl
    simp [namePattern] at hpattern
  · rintro rfl
    exact absurd (namePattern_head hpattern) (by decide)
  · rintro rfl
    exact absurd (namePattern_head hpattern) (by decide)
  all_goals exact namePattern_not_mem hpattern (by decide) (by decide)

theorem SEGMENT_of_REGISTRY {s : Str} (h : REGISTRY s = true) : SEGMENT s = true := by
  obtain ⟨hpattern, hlength⟩ := of_decide_eq_true h
  refine decide_eq_true ⟨?_, hlength⟩
  cases s with
  | nil => exact hpattern
  | cons c s =>
    rw [namePattern, Bool.and_eq_true, List.all_eq_true] at hpattern ⊢
    refine ⟨hpattern.1, fun x hx => ?_⟩
    have hchar := hpattern.2 x hx
    simp only [Bool.or_eq_true, decide_eq_true_eq] at hchar ⊢
    tauto

/-! ### The name with its defaults -/

/-- A name with the default registry and namespace filled in. -/
def located (model : Str) : Str :=
  let parts := Str.split (chr '/') model
  if parts.length = 1 then lit "registry.ollama.ai/library/" ++ model
  else if chr '.' ∈ parts.headD [] then model
  else lit "registry.ollama.ai/" ++ model

/-- A name with all its defaults filled in. -/
def fillDefaults (model : Str) : Str :=
  if chr ':' ∈ model then located model else located model ++ lit ":latest"

/-- A registry and a repository that make up a located name. -/
structure Locates (model registry : Str) (repository : List Str) : Prop where
  safe : SEGMENT registry = true
  text : Str.join [chr '/'] (registry :: repository) = located model
  colon : chr ':' ∈ model → ∃ part ∈ registry :: repository, chr ':' ∈ part
  parts : ∀ part ∈ repository, chr ':' ∈ part → chr ':' ∈ model

/-- The text of a path: slashes between the segments, a colon before the last. -/
def pathText (segments : List Str) : Str :=
  Str.join [chr '/'] segments.dropLast ++ chr ':' :: segments.getLastD []

theorem mem_of_mem_join {sep : Str} {ws : List Str} {w : Str} {c : CodePoint} (hw : w ∈ ws)
    (hc : c ∈ w) : c ∈ Str.join sep ws := by
  induction ws with
  | nil => exact absurd hw List.not_mem_nil
  | cons v ws ih =>
    cases ws with
    | nil =>
      rw [List.mem_singleton.mp hw] at hc
      exact hc
    | cons u ws =>
      rw [Str.join_cons (by simp), List.mem_append]
      rcases List.mem_cons.mp hw with rfl | hw
      · exact .inl (List.mem_append_left _ hc)
      · exact .inr (ih hw)

theorem mem_of_mem_split {c d : CodePoint} {s w : Str} (hw : w ∈ Str.split d s) (hc : c ∈ w) :
    c ∈ s := by
  rw [← Str.join_split d s]
  exact mem_of_mem_join hw hc

/-- Cutting the last part of the repository at its colon fills in the tag. -/
theorem pathText_of_locates {model registry : Str} {repository : List Str}
    (h : Locates model registry repository) (hne : repository ≠ [])
    (hsafe : ∀ part ∈ repository.dropLast, chr ':' ∉ part) :
    let cut := Str.partition (chr ':') (repository.getLastD [])
    pathText (registry :: (repository.dropLast ++
      [cut.1, if cut.2.1 then cut.2.2 else lit "latest"])) = fillDefaults model := by
  -- the last part is the one that is cut at its colon
  have hlast : repository.getLastD [] = repository.getLast hne := by
    rw [List.getLastD_eq_getLast?, List.getLast?_eq_getLast_of_ne_nil hne, Option.getD_some]
  have hsplit : registry :: repository =
      (registry :: repository.dropLast) ++ [repository.getLast hne] := by
    rw [List.cons_append, List.dropLast_concat_getLast hne]
  have htext := h.text
  rw [hsplit] at htext
  rw [hlast]
  dsimp only
  -- the text of a path joins all but the tag with slashes
  have hpath : ∀ name tag : Str, pathText (registry :: (repository.dropLast ++ [name, tag])) =
      Str.join [chr '/'] ((registry :: repository.dropLast) ++ [name]) ++ chr ':' :: tag := by
    intro name tag
    have hsegments : registry :: (repository.dropLast ++ [name, tag]) =
        ((registry :: repository.dropLast) ++ [name]) ++ [tag] := by simp
    rw [pathText, hsegments, List.dropLast_concat, List.getLastD_concat]
  rw [hpath, fillDefaults]
  -- with a colon the tag is the model's own
  by_cases hcolon : chr ':' ∈ repository.getLast hne
  · have hfound := Str.partition_found.mpr hcolon
    have hmodel := h.parts _ (List.getLast_mem hne) hcolon
    rw [if_pos hfound, if_pos hmodel, ← htext, ← Str.join_concat, ← Str.partition_eq_append hfound]
  -- without one the tag is the default, and no other part has a colon
  · have hmodel : chr ':' ∉ model := by
      intro hm
      obtain ⟨part, hpart, hc⟩ := h.colon hm
      rw [hsplit, List.mem_append, List.mem_cons] at hpart
      rcases hpart with (rfl | hpart) | hpart
      · exact (safeSegment_of_SEGMENT h.safe).chars.2.2 hc
      · exact hsafe part hpart hc
      · rw [List.mem_singleton.mp hpart] at hc
        exact hcolon hc
    rw [Str.partition_of_not_mem hcolon, if_neg hmodel, ← htext]
    rfl

/-- The first of several parts names a registry. -/
def Named (model : Str) : Prop :=
  chr '.' ∈ (Str.split (chr '/') model).headD [] ∧ 1 < (Str.split (chr '/') model).length

instance (model : Str) : Decidable (Named model) := inferInstanceAs (Decidable (_ ∧ _))

def registryOf (model : Str) : Str :=
  if Named model then (Str.split (chr '/') model).headD [] else lit "registry.ollama.ai"

def repositoryOf (model : Str) : List Str :=
  if Named model then (Str.split (chr '/') model).tail
  else if 1 < (Str.split (chr '/') model).length then Str.split (chr '/') model
  else [lit "library", (Str.split (chr '/') model).headD []]

/-- The segments behind the registry. -/
def segmentsOf (model : Str) : List Str :=
  let cut := Str.partition (chr ':') ((repositoryOf model).getLastD [])
  (repositoryOf model).dropLast ++ [cut.1, if cut.2.1 then cut.2.2 else lit "latest"]

/-- The checks that an accepted name passed. -/
theorem manifestRelativePath_eq_some {model : Str} {path : List Str}
    (h : manifestRelativePath model = some path) :
    (Named model → REGISTRY (registryOf model) = true) ∧ 2 ≤ (repositoryOf model).length ∧
      (∀ s ∈ segmentsOf model, SEGMENT s = true) ∧
      path = lit "manifests" :: registryOf model :: segmentsOf model := by
  rw [manifestRelativePath] at h
  obtain ⟨_, h⟩ := Option.ite_none_left_eq_some.mp h
  obtain ⟨_, h⟩ := Option.ite_none_left_eq_some.mp h
  obtain ⟨hregistry, h⟩ := Option.ite_none_left_eq_some.mp h
  obtain ⟨hlength, h⟩ := Option.ite_none_left_eq_some.mp h
  obtain ⟨hsegments, h⟩ := Option.ite_none_left_eq_some.mp h
  refine ⟨fun hnamed => ?_, ?_, ?_, (Option.some.inj h).symm⟩
  · rw [registryOf, if_pos hnamed]
    by_contra hbad
    exact hregistry ⟨hnamed, .inl (by simpa using hbad)⟩
  · exact not_lt.mp fun hshort => hlength (.inl hshort)
  · intro s hs
    by_contra hbad
    refine hsegments (List.any_eq_true.mpr ⟨s, hs, decide_eq_true (.inl ?_)⟩)
    exact Bool.not_eq_true _ ▸ hbad

/-- The registry and the repository of an accepted name make up the located name. -/
theorem locates (model : Str) (hregistry : Named model → REGISTRY (registryOf model) = true) :
    Locates model (registryOf model) (repositoryOf model) := by
  have hjoin := Str.join_split (chr '/') model
  have hin : ∀ part ∈ Str.split (chr '/') model, chr ':' ∈ part → chr ':' ∈ model :=
    fun part hpart hc => mem_of_mem_split hpart hc
  have hout : chr ':' ∈ model → ∃ part ∈ Str.split (chr '/') model, chr ':' ∈ part := fun hc =>
    (Str.mem_of_split hc).resolve_left (by decide)
  have hsafe : SEGMENT (lit "registry.ollama.ai") = true := by decide
  cases hparts : Str.split (chr '/') model with
  | nil => exact absurd hparts (Str.split_ne_nil _ _)
  | cons first rest =>
    rw [hparts] at hjoin hin hout
    cases rest with
    | nil =>
      -- a single part: registry and namespace are the default ones
      have hnamed : ¬Named model := by simp [Named, hparts]
      have hregistryOf : registryOf model = lit "registry.ollama.ai" := if_neg hnamed
      have hrepository : repositoryOf model = [lit "library", first] := by
        rw [repositoryOf, if_neg hnamed, hparts]
        rfl
      have hfirst : first = model := hjoin
      rw [hregistryOf, hrepository]
      refine ⟨hsafe, ?_, fun hc => ?_, fun part hpart hc => ?_⟩
      · rw [located, hparts, hfirst]
        rfl
      · obtain ⟨part, hpart, hc⟩ := hout hc
        rw [List.mem_singleton.mp hpart] at hc
        exact ⟨first, by simp, hc⟩
      · rcases List.mem_cons.mp hpart with rfl | hpart
        · exact absurd hc (by decide)
        · exact hin part hpart hc
    | cons second rest =>
      by_cases hdot : chr '.' ∈ first
      · have hnamed : Named model := by
          rw [Named, hparts]
          exact ⟨hdot, by simp⟩
        have hregistryOf : registryOf model = first := by
          rw [registryOf, if_pos hnamed, hparts]
          rfl
        have hrepository : repositoryOf model = second :: rest := by
          rw [repositoryOf, if_pos hnamed, hparts]
          rfl
        have hchecked := SEGMENT_of_REGISTRY (hregistry hnamed)
        rw [hregistryOf] at hchecked ⊢
        rw [hrepository]
        refine ⟨hchecked, ?_, hout, fun part hpart hc => hin part (List.mem_cons_of_mem _ hpart) hc⟩
        rw [located, hparts, hjoin]
        rw [if_neg (by simp), List.headD_cons, if_pos hdot]
      · have hnamed : ¬Named model := by
          rw [Named, hparts]
          exact fun h => hdot h.1
        have hregistryOf : registryOf model = lit "registry.ollama.ai" := if_neg hnamed
        have hrepository : repositoryOf model = first :: second :: rest := by
          rw [repositoryOf, if_neg hnamed, hparts, if_pos (by simp)]
        rw [hregistryOf, hrepository]
        refine ⟨hsafe, ?_, fun hc => ?_, hin⟩
        · rw [Str.join_cons (by simp), hjoin, located, hparts]
          rw [if_neg (by simp), List.headD_cons, if_neg hdot]
          rfl
        · obtain ⟨part, hpart, hc⟩ := hout hc
          exact ⟨part, List.mem_cons_of_mem _ hpart, hc⟩

/-- What an accepted name is cut into: `manifests` and two safe segments or more, which spell the
name with its defaults filled in. -/
theorem manifestRelativePath_spec {model : Str} {path : List Str}
    (h : manifestRelativePath model = some path) :
    ∃ segments, path = lit "manifests" :: segments ∧ 2 ≤ segments.length ∧
      (∀ s ∈ segments, SEGMENT s = true) ∧ pathText segments = fillDefaults model := by
  obtain ⟨hregistry, hlength, hsegments, rfl⟩ := manifestRelativePath_eq_some h
  have hlocates := locates model hregistry
  refine ⟨registryOf model :: segmentsOf model, rfl, ?_, ?_, ?_⟩
  · simp [segmentsOf]
  · intro s hs
    rcases List.mem_cons.mp hs with rfl | hs
    · exact hlocates.safe
    · exact hsegments s hs
  · refine pathText_of_locates hlocates (List.ne_nil_of_length_pos (by omega)) fun part hpart => ?_
    have hmem : part ∈ segmentsOf model := List.mem_append_left _ hpart
    exact (safeSegment_of_SEGMENT (hsegments part hmem)).chars.2.2

/-! ### Paths and names -/

/-- Safe segments are determined by their text. No safe segment has a slash or a colon in it, so
the text can be cut in one way only. -/
theorem pathText_injective {p q : List Str} (hp : 2 ≤ p.length) (hq : 2 ≤ q.length)
    (hps : ∀ s ∈ p, SEGMENT s = true) (hqs : ∀ s ∈ q, SEGMENT s = true)
    (h : pathText p = pathText q) : p = q := by
  -- the text is cut at its only colon, and the front at its slashes
  have hcut : ∀ {r : List Str}, 2 ≤ r.length → (∀ s ∈ r, SEGMENT s = true) →
      Str.partition (chr ':') (pathText r) =
        (Str.join [chr '/'] r.dropLast, true, r.getLastD []) ∧
      Str.split (chr '/') (Str.join [chr '/'] r.dropLast) = r.dropLast ∧
      r = r.dropLast ++ [r.getLastD []] := by
    intro r hr hrs
    have hsafe : ∀ s ∈ r.dropLast, SafeSegment s := fun s hs =>
      safeSegment_of_SEGMENT (hrs s (List.dropLast_subset r hs))
    have hne : r ≠ [] := List.ne_nil_of_length_pos (by omega)
    refine ⟨Str.partition_append ?_ _, Str.split_join ?_ fun s hs => (hsafe s hs).chars.1, ?_⟩
    · intro hc
      rcases @Str.mem_of_split (chr '/') _ _ hc with hslash | ⟨w, hw, hcw⟩
      · exact absurd hslash (by decide)
      · rw [Str.split_join ?_ fun s hs => (hsafe s hs).chars.1] at hw
        · exact (hsafe w hw).chars.2.2 hcw
        · exact List.ne_nil_of_length_pos (by rw [List.length_dropLast]; omega)
    · exact List.ne_nil_of_length_pos (by rw [List.length_dropLast]; omega)
    · rw [List.getLastD_eq_getLast?, List.getLast?_eq_getLast_of_ne_nil hne, Option.getD_some,
        List.dropLast_concat_getLast hne]
  obtain ⟨hpcut, hpsplit, hpeq⟩ := hcut hp hps
  obtain ⟨hqcut, hqsplit, hqeq⟩ := hcut hq hqs
  rw [h, hqcut, Prod.mk.injEq, Prod.mk.injEq] at hpcut
  rw [hpeq, hqeq, ← hpsplit, ← hqsplit, hpcut.1, hpcut.2.2]

/-- The path of an accepted name lies below `manifests` and has safe segments only, and two
accepted names have one path exactly when they are the same with their defaults filled in. -/
theorem manifest_path_confined :
    (∀ model path, manifestRelativePath model = some path →
      ∃ segments, path = lit "manifests" :: segments ∧ segments ≠ [] ∧
        ∀ s ∈ segments, SafeSegment s) ∧
    ∀ a b p q, manifestRelativePath a = some p → manifestRelativePath b = some q →
      (p = q ↔ fillDefaults a = fillDefaults b) := by
  refine ⟨fun model path h => ?_, fun a b p q ha hb => ?_⟩
  · obtain ⟨segments, rfl, hlength, hsegments, _⟩ := manifestRelativePath_spec h
    exact ⟨segments, rfl, List.ne_nil_of_length_pos (by omega), fun s hs =>
      safeSegment_of_SEGMENT (hsegments s hs)⟩
  · obtain ⟨ps, rfl, hplength, hps, hptext⟩ := manifestRelativePath_spec ha
    obtain ⟨qs, rfl, hqlength, hqs, hqtext⟩ := manifestRelativePath_spec hb
    rw [← hptext, ← hqtext, List.cons_inj_right]
    exact ⟨fun h => h ▸ rfl, pathText_injective hplength hqlength hps hqs⟩

/-- A bare name and its full form have one path. -/
theorem manifest_path_confined_llama :
    manifestRelativePath (lit "llama3") =
      manifestRelativePath (lit "registry.ollama.ai/library/llama3:latest") := by
  have hbare : manifestRelativePath (lit "llama3") = some [lit "manifests",
      lit "registry.ollama.ai", lit "library", lit "llama3", lit "latest"] := by decide
  have hfull : manifestRelativePath (lit "registry.ollama.ai/library/llama3:latest") =
      some [lit "manifests", lit "registry.ollama.ai", lit "library", lit "llama3",
        lit "latest"] := by
    decide
  rw [hbare, hfull, (manifest_path_confined.2 _ _ _ _ hbare hfull).mpr (by decide)]

end Gateway

end SzlRouter
