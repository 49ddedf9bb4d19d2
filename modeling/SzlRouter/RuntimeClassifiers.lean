/-
The two classifiers of the status Space's runtime.

`RuntimeContract.classify` and `RuntimeWait.classifyObservation` read the same
two provider answers.  The first looks for a terminal stage before it asks for a
revision; the second asks for both revisions first, and does not know the stage
`METADATA_PENDING`.

* `classifiers_agree_iff` — the answers on which they agree, exactly.
-/
import SzlRouter.Revision

namespace SzlRouter

open Py

def canonicalRepoId : Str := lit "SZLHOLDINGS/llm-router-live"

/-- A failure with retry semantics: `ContractError` and `RuntimeWaitError`. -/
structure ClassifierError where
  code : Str
  message : Str
  retryable : Bool
  details : Dict := []

/-! ### hf_runtime_contract.py -/

namespace RuntimeContract

def transitionStages : List Str :=
  [lit "APP_STARTING", lit "BUILDING", lit "PENDING", lit "QUEUED", lit "RESTARTING",
    lit "RUNNING_APP_STARTING", lit "RUNNING_BUILDING", lit "STARTING", lit "METADATA_PENDING"]

def terminalStages : List Str :=
  [lit "BUILD_ERROR", lit "RUNTIME_ERROR", lit "CONFIG_ERROR", lit "PAUSED", lit "STOPPED",
    lit "ERROR"]

def rejectAlternateTarget (repoId : Str) : Except ClassifierError Unit :=
  if repoId ≠ canonicalRepoId then
    .error ⟨lit "TARGET_REJECTED", lit "Only SZLHOLDINGS/llm-router-live is admitted.", false,
      [(lit "repo_id", .str repoId)]⟩
  else .ok ()

def shaOrNone (value : Json) : Except ClassifierError (Option Str) :=
  if unset value then .ok none
  else match shaText value with
    | none => .error ⟨lit "INVALID_RESPONSE",
        lit "Non-empty revision is not an exact 40-character Git SHA.", false, []⟩
    | some candidate => .ok (some candidate)

/-- `str(info.get("id") or info.get("name") or expected_repo_id)`. -/
def identityOf (info : Dict) (expectedRepoId : Str) : Option Str :=
  if (field info (lit "id")).truthy then textOf (field info (lit "id"))
  else if (field info (lit "name")).truthy then textOf (field info (lit "name"))
  else some expectedRepoId

def pending (state : String) (publication : List (Option Str)) : Dict :=
  [(lit "state", .str (lit state)), (lit "retryable", .bool true)] ++
    publication.map fun p => (lit "publication_revision", (p.map Json.str).getD .null)

def withRevisions (state : Str) (retryable : Bool) (publication runtime : Option Str) : Dict :=
  [(lit "state", .str state), (lit "retryable", .bool retryable),
    (lit "publication_revision", (publication.map Json.str).getD .null),
    (lit "runtime_revision", (runtime.map Json.str).getD .null)]

/-- The code of a terminal stage's failure. -/
def terminalCode (stage : Str) : Str :=
  if stage ∈ [lit "BUILD_ERROR", lit "RUNTIME_ERROR", lit "CONFIG_ERROR"] then stage
  else lit "RUNTIME_ERROR"

/-- The stage checks of `classify`, once the stage is a well-formed string. -/
def classifyStage (stage : Str) (publication : Option Str) (runtimeSha : Json) :
    Except ClassifierError Dict :=
  if stage ∈ terminalStages then
    .error ⟨terminalCode stage, lit "Terminal provider stage " ++ stage ++ lit ".", false,
      [(lit "stage", .str stage), (lit "runtime_sha", runtimeSha)]⟩
  else match shaOrNone runtimeSha with
    | .error e => .error e
    | .ok runtime =>
      if stage ∈ transitionStages then
        .ok (withRevisions (if stage ≠ lit "METADATA_PENDING" then stage else lit "BUILDING") true
          publication runtime)
      else match publication with
        | none => .ok (pending "METADATA_PENDING" [])
        | some p =>
          if stage ≠ lit "RUNNING" then
            .error ⟨lit "INVALID_RESPONSE", lit "Unknown non-empty stage " ++ stage ++ lit ".",
              false, [(lit "stage", .str stage)]⟩
          else match runtime with
            | none => .ok (pending "METADATA_PENDING" [some p])
            | some r =>
              if r ≠ p then .ok (withRevisions (lit "RUNNING_STALE") true (some p) (some r))
              else .ok (withRevisions (lit "RUNNING_ALIGNED") false (some p) (some r) ++
                [(lit "stage", .str (lit "RUNNING")), (lit "private", .bool false)])

/-- The checks of `classify` on a Space that is reported public. -/
def classifyPublic (info runtime : Dict) : Except ClassifierError Dict :=
  match shaOrNone (field info (lit "sha")) with
  | .error e => .error e
  | .ok publication =>
    if unset (field runtime (lit "stage")) then .ok (pending "METADATA_PENDING" [publication])
    else match field runtime (lit "stage") with
      | .str value =>
        if isStage (Str.upper (Str.strip value)) then
          classifyStage (Str.upper (Str.strip value)) publication (field runtime (lit "sha"))
        else .error ⟨lit "INVALID_RESPONSE", lit "Stage is malformed.", false, []⟩
      | _ => .error ⟨lit "INVALID_RESPONSE", lit "Stage is not a string.", false, []⟩

def classify (info runtime : Dict) (expectedRepoId : Str) : Except ClassifierError Dict :=
  match rejectAlternateTarget expectedRepoId with
  | .error e => .error e
  | .ok () =>
    if identityOf info expectedRepoId ≠ some [] ∧
        identityOf info expectedRepoId ≠ some canonicalRepoId ∧
        (field info (lit "id")).truthy then
      .error ⟨lit "INVALID_RESPONSE",
        lit "Provider identity does not match the canonical Router Space.", false, []⟩
    else match field info (lit "private") with
      | .null => .ok (pending "VISIBILITY_PENDING" [])
      | .bool true => .ok (pending "VISIBILITY_PENDING" [])
      | .bool false => classifyPublic info runtime
      | _ => .error ⟨lit "INVALID_RESPONSE", lit "Visibility is not boolean.", false, []⟩

end RuntimeContract

/-! ### wait_hf_space_runtime.py -/

namespace RuntimeWait

def transientStages : List Str :=
  [lit "APP_STARTING", lit "BUILDING", lit "PENDING", lit "QUEUED", lit "RESTARTING",
    lit "RUNNING_APP_STARTING", lit "RUNNING_BUILDING", lit "STARTING"]

def exactShaOrPending (value : Json) (fieldName : Str) : Except ClassifierError Str :=
  if unset value then
    .error ⟨lit "RUNTIME_METADATA_PENDING", fieldName ++ lit " is not populated yet.", true,
      [(lit "field", .str fieldName)]⟩
  else match shaText value with
    | none => .error ⟨lit "MALFORMED_PROVIDER_RESPONSE",
        fieldName ++ lit " is non-empty but is not an exact 40-character Git SHA.", false,
        [(lit "field", .str fieldName)]⟩
    | some candidate => .ok candidate

def revisionDetails (stage publication runtime : Str) : Dict :=
  [(lit "stage", .str stage), (lit "publication_revision", .str publication),
    (lit "runtime_revision", .str runtime)]

/-- The stage checks of `classify_observation`, once both revisions are exact. -/
def classifyExact (stage publication runtime : Str) : Except ClassifierError Dict :=
  if stage ∈ transientStages then
    .error ⟨lit "PROVIDER_RUNTIME_TRANSITION",
      lit "Provider runtime stage is " ++ stage ++ lit ".", true,
      revisionDetails stage publication runtime⟩
  else if stage ≠ lit "RUNNING" then
    .error ⟨lit "PROVIDER_RUNTIME_TERMINAL_STATE",
      lit "Provider runtime stage is " ++ stage ++ lit "; exact RUNNING is required.", false,
      revisionDetails stage publication runtime⟩
  else if runtime ≠ publication then
    .error ⟨lit "RUNTIME_REVISION_PENDING",
      lit "Provider runtime has not converged to the current repository revision.", true,
      revisionDetails stage publication runtime⟩
  else .ok (revisionDetails stage publication runtime ++ [(lit "private", .bool false)])

/-- The checks of `classify_observation` on a Space that is reported public. -/
def classifyPublic (info runtime : Dict) : Except ClassifierError Dict :=
  match exactShaOrPending (field info (lit "sha")) (lit "Provider repository revision") with
  | .error e => .error e
  | .ok publication =>
    if unset (field runtime (lit "stage")) then
      .error ⟨lit "RUNTIME_METADATA_PENDING", lit "Provider runtime stage is not populated yet.",
        true, [(lit "publication_revision", .str publication)]⟩
    else match field runtime (lit "stage") with
      | .str value =>
        if isStage (Str.upper (Str.strip value)) then
          match exactShaOrPending (field runtime (lit "sha")) (lit "Provider runtime revision") with
          | .error e => .error e
          | .ok runtimeRevision =>
            classifyExact (Str.upper (Str.strip value)) publication runtimeRevision
        else .error ⟨lit "MALFORMED_PROVIDER_RESPONSE",
          lit "Provider runtime stage is non-empty but malformed.", false,
          [(lit "stage", .str (Str.upper (Str.strip value)))]⟩
      | _ => .error ⟨lit "MALFORMED_PROVIDER_RESPONSE",
          lit "Provider runtime stage is non-empty but not a string.", false, []⟩

def classifyObservation (info runtime : Dict) : Except ClassifierError Dict :=
  match field info (lit "private") with
  | .null => .error ⟨lit "VISIBILITY_METADATA_PENDING",
      lit "Provider visibility metadata is not populated yet.", true, []⟩
  | .bool true => .error ⟨lit "SPACE_VISIBILITY_PENDING",
      lit "Provider still reports the Router Space as private.", true, []⟩
  | .bool false => classifyPublic info runtime
  | _ => .error ⟨lit "MALFORMED_PROVIDER_RESPONSE",
      lit "Provider visibility metadata is not boolean.", false, []⟩

end RuntimeWait

/-! ### What a field says -/

/-- A revision field: not populated, populated with something else, or exact. -/
inductive Reading
  | missing
  | malformed
  | exact (sha : Str)
  deriving DecidableEq

def readSha (value : Json) : Reading :=
  if unset value then .missing
  else match shaText value with
    | none => .malformed
    | some s => .exact s

/-- The stage field. -/
inductive StageReading
  | missing
  | malformed
  | stage (s : Str)

def readStage (value : Json) : StageReading :=
  if unset value then .missing
  else match value with
    | .str s => if isStage (Str.upper (Str.strip s)) then .stage (Str.upper (Str.strip s))
      else .malformed
    | _ => .malformed

/-- What a caller of either classifier acts on. -/
inductive Verdict
  | aligned (publication runtime : Json)
  | retry
  | refuse
  deriving DecidableEq

def Verdict.ofRetryable (retryable : Bool) : Verdict := if retryable then .retry else .refuse

namespace RuntimeContract

/-- `classify` on the readings of a public Space. -/
def judge : Reading → StageReading → Reading → Verdict
  | .malformed, _, _ => .refuse
  | _, .missing, _ => .retry
  | _, .malformed, _ => .refuse
  | publication, .stage s, runtime =>
    if s ∈ terminalStages then .refuse
    else match runtime with
      | .malformed => .refuse
      | .missing =>
        if s ∈ transitionStages ∨ publication = .missing ∨ s = lit "RUNNING" then .retry
        else .refuse
      | .exact r =>
        if s ∈ transitionStages then .retry
        else match publication with
          | .exact p => if s ≠ lit "RUNNING" then .refuse else if r ≠ p then .retry
            else .aligned (.str p) (.str r)
          | _ => .retry

end RuntimeContract

namespace RuntimeWait

/-- `classifyObservation` on the readings of a public Space. -/
def judge : Reading → StageReading → Reading → Verdict
  | .malformed, _, _ => .refuse
  | .missing, _, _ => .retry
  | _, .missing, _ => .retry
  | _, .malformed, _ => .refuse
  | .exact _, .stage _, .missing => .retry
  | .exact _, .stage _, .malformed => .refuse
  | .exact p, .stage s, .exact r =>
    if s ∈ transientStages then .retry
    else if s ≠ lit "RUNNING" then .refuse
    else if r ≠ p then .retry
    else .aligned (.str p) (.str r)

end RuntimeWait

section verdicts

variable {value : Json}

theorem shaOrNone_eq : RuntimeContract.shaOrNone value = match readSha value with
    | .missing => .ok none
    | .malformed => .error ⟨lit "INVALID_RESPONSE",
        lit "Non-empty revision is not an exact 40-character Git SHA.", false, []⟩
    | .exact s => .ok (some s) := by
  rw [RuntimeContract.shaOrNone, readSha]
  cases unset value <;> cases shaText value <;> rfl

theorem exactShaOrPending_eq (fieldName : Str) :
    RuntimeWait.exactShaOrPending value fieldName = match readSha value with
    | .missing => .error ⟨lit "RUNTIME_METADATA_PENDING",
        fieldName ++ lit " is not populated yet.", true, [(lit "field", .str fieldName)]⟩
    | .malformed => .error ⟨lit "MALFORMED_PROVIDER_RESPONSE",
        fieldName ++ lit " is non-empty but is not an exact 40-character Git SHA.", false,
        [(lit "field", .str fieldName)]⟩
    | .exact s => .ok s := by
  rw [RuntimeWait.exactShaOrPending, readSha]
  cases unset value <;> cases shaText value <;> rfl

/-- The verdict a result of `classify` stands for. -/
def RuntimeContract.verdict : Except ClassifierError Dict → Verdict
  | .error e => .ofRetryable e.retryable
  | .ok d =>
    if field d (lit "state") = .str (lit "RUNNING_ALIGNED") then
      .aligned (field d (lit "publication_revision")) (field d (lit "runtime_revision"))
    else .ofRetryable (field d (lit "retryable")).truthy

/-- The verdict a result of `classifyObservation` stands for. -/
def RuntimeWait.verdict : Except ClassifierError Dict → Verdict
  | .error e => .ofRetryable e.retryable
  | .ok d => .aligned (field d (lit "publication_revision")) (field d (lit "runtime_revision"))

theorem RuntimeContract.verdict_retry {state : Str} (hstate : state ≠ lit "RUNNING_ALIGNED")
    (publication runtime : Option Str) :
    verdict (.ok (withRevisions state true publication runtime)) = .retry := by
  have hs : field (withRevisions state true publication runtime) (lit "state") = .str state := rfl
  have hr : field (withRevisions state true publication runtime) (lit "retryable") = .bool true :=
    rfl
  rw [verdict, hs, if_neg (by simpa using hstate), hr]
  rfl

theorem RuntimeContract.verdict_pending {state : String}
    (hstate : lit state ≠ lit "RUNNING_ALIGNED")
    (publication : List (Option Str)) : verdict (.ok (pending state publication)) = .retry := by
  have hs : field (pending state publication) (lit "state") = .str (lit state) := rfl
  have hr : field (pending state publication) (lit "retryable") = .bool true := rfl
  rw [verdict, hs, if_neg (by simpa using hstate), hr]
  rfl

theorem RuntimeContract.transition_ne_aligned {s : Str} (h : s ∈ transitionStages) :
    s ≠ lit "RUNNING_ALIGNED" ∧ s ≠ lit "RUNNING" := by
  revert s
  decide

theorem RuntimeContract.verdict_classifyStage (s : Str) (publication : Option Str) :
    verdict (classifyStage s publication value) =
      judge (publication.elim .missing .exact) (.stage s) (readSha value) := by
  rw [classifyStage, shaOrNone_eq]
  -- the tests of the source in their order: terminal stages, stages of transition, the rest
  by_cases hterminal : s ∈ terminalStages
  · rw [if_pos hterminal]
    cases publication <;> simp [judge, hterminal] <;> rfl
  rw [if_neg hterminal]
  by_cases htransition : s ∈ transitionStages
  · have hstate : (if s ≠ lit "METADATA_PENDING" then s else lit "BUILDING") ≠
        lit "RUNNING_ALIGNED" := by
      by_cases h : s = lit "METADATA_PENDING"
      · rw [if_neg (not_not.mpr h)]
        decide
      · rw [if_pos h]
        exact (transition_ne_aligned htransition).1
    cases hread : readSha value with
    | missing =>
      dsimp only
      rw [if_pos htransition, verdict_retry hstate]
      cases publication <;> simp [judge, hterminal, htransition]
    | malformed => cases publication <;> simp [judge, hterminal] <;> rfl
    | exact r =>
      dsimp only
      rw [if_pos htransition, verdict_retry hstate]
      cases publication <;> simp [judge, hterminal, htransition]
  cases hread : readSha value with
  | malformed => cases publication <;> simp [judge, hterminal] <;> rfl
  | missing =>
    dsimp only
    rw [if_neg htransition]
    cases publication with
    | none =>
      rw [verdict_pending (by decide)]
      simp [judge, hterminal]
    | some p =>
      by_cases hrunning : s = lit "RUNNING"
      · dsimp only
        rw [if_neg (not_not.mpr hrunning), verdict_pending (by decide), hrunning]
        rfl
      · dsimp only
        rw [if_pos hrunning]
        simp [judge, hterminal, htransition, hrunning]
        rfl
  | exact r =>
    dsimp only
    rw [if_neg htransition]
    cases publication with
    | none =>
      rw [verdict_pending (by decide)]
      simp [judge, hterminal, htransition]
    | some p =>
      by_cases hrunning : s = lit "RUNNING"
      · dsimp only
        rw [if_neg (not_not.mpr hrunning)]
        subst hrunning
        by_cases hsame : r = p
        · rw [if_neg (not_not.mpr hsame)]
          simp [judge, hterminal, htransition, hsame]
          rfl
        · rw [if_pos hsame, verdict_retry (by decide)]
          simp [judge, hterminal, htransition, hsame]
      · dsimp only
        rw [if_pos hrunning]
        simp [judge, hterminal, htransition, hrunning]
        rfl

theorem RuntimeContract.judge_malformed (publication : Option Str) (runtime : Reading) :
    judge (publication.elim .missing .exact) .malformed runtime = .refuse := by
  cases publication <;> rfl

theorem RuntimeContract.judge_missing (publication : Option Str) (runtime : Reading) :
    judge (publication.elim .missing .exact) .missing runtime = .retry := by
  cases publication <;> rfl

theorem readStage_str (t : Str) : readStage (.str t) =
    if t = [] then .missing
    else if isStage (Str.upper (Str.strip t)) then .stage (Str.upper (Str.strip t))
    else .malformed := by
  by_cases h : t = []
  · subst h
    rfl
  · simp [readStage, unset, h]

theorem RuntimeContract.verdict_classifyPublic (info runtime : Dict) :
    verdict (classifyPublic info runtime) = judge (readSha (field info (lit "sha")))
      (readStage (field runtime (lit "stage"))) (readSha (field runtime (lit "sha"))) := by
  rw [classifyPublic, shaOrNone_eq]
  -- past the repository revision both sides are about the stage field
  have hstage : ∀ publication : Option Str,
      verdict (if unset (field runtime (lit "stage")) then
          .ok (pending "METADATA_PENDING" [publication])
        else match field runtime (lit "stage") with
          | .str value =>
            if isStage (Str.upper (Str.strip value)) then
              classifyStage (Str.upper (Str.strip value)) publication (field runtime (lit "sha"))
            else .error ⟨lit "INVALID_RESPONSE", lit "Stage is malformed.", false, []⟩
          | _ => .error ⟨lit "INVALID_RESPONSE", lit "Stage is not a string.", false, []⟩) =
        judge (publication.elim .missing .exact) (readStage (field runtime (lit "stage")))
          (readSha (field runtime (lit "sha"))) := by
    intro publication
    cases field runtime (lit "stage") with
    | null =>
      refine (verdict_pending (by decide) _).trans ?_
      exact (judge_missing publication _).symm
    | str t =>
      rw [readStage_str]
      by_cases hempty : t = []
      · rw [if_pos hempty, judge_missing, if_pos (by simp [unset, hempty])]
        exact verdict_pending (by decide) _
      rw [if_neg hempty, if_neg (by simp [unset, hempty])]
      by_cases hwell : isStage (Str.upper (Str.strip t)) = true
      · rw [if_pos hwell]
        dsimp only
        rw [if_pos hwell, verdict_classifyStage]
      · rw [if_neg hwell, judge_malformed]
        dsimp only
        rw [if_neg hwell]
        rfl
    | _ => exact (judge_malformed publication _).symm
  cases readSha (field info (lit "sha")) with
  | malformed => rfl
  | missing => exact hstage none
  | exact p => exact hstage (some p)

theorem RuntimeWait.verdict_classifyExact (s p r : Str) :
    verdict (classifyExact s p r) = judge (.exact p) (.stage s) (.exact r) := by
  rw [classifyExact, judge]
  split_ifs <;> rfl

theorem RuntimeWait.verdict_classifyPublic (info runtime : Dict) :
    verdict (classifyPublic info runtime) = judge (readSha (field info (lit "sha")))
      (readStage (field runtime (lit "stage"))) (readSha (field runtime (lit "sha"))) := by
  rw [classifyPublic, exactShaOrPending_eq]
  cases readSha (field info (lit "sha")) with
  | malformed => rfl
  | missing => rfl
  | exact p =>
    dsimp only
    cases field runtime (lit "stage") with
    | null => rfl
    | str t =>
      rw [readStage_str]
      -- an empty stage counts as a missing one, and a malformed one is an error
      by_cases hempty : t = []
      · rw [if_pos hempty, if_pos (by simp [unset, hempty])]
        rfl
      rw [if_neg hempty, if_neg (by simp [unset, hempty])]
      by_cases hwell : isStage (Str.upper (Str.strip t)) = true
      · rw [if_pos hwell]
        dsimp only
        rw [if_pos hwell, exactShaOrPending_eq]
        cases readSha (field runtime (lit "sha")) with
        | exact r => exact verdict_classifyExact _ p r
        | _ => rfl
      · rw [if_neg hwell]
        dsimp only
        rw [if_neg hwell]
        rfl
    | _ => rfl

/-- The readings of a public Space's fields on which the two orders of checks
come to the same verdict. -/
def SameVerdict : Reading → StageReading → Reading → Prop
  | .malformed, _, _ => True
  | _, .missing, _ => True
  | .missing, .malformed, _ => False
  | .missing, .stage s, runtime => s ∉ RuntimeContract.terminalStages ∧ runtime ≠ .malformed
  | .exact _, .malformed, _ => True
  | .exact _, .stage _, .malformed => True
  | .exact _, .stage s, .missing => s ∈ RuntimeContract.transitionStages ∨ s = lit "RUNNING"
  | .exact _, .stage s, .exact _ => s ≠ lit "METADATA_PENDING"

theorem mem_transitionStages {s : Str} : s ∈ RuntimeContract.transitionStages ↔
    s ∈ RuntimeWait.transientStages ∨ s = lit "METADATA_PENDING" := by
  rw [show RuntimeContract.transitionStages =
    RuntimeWait.transientStages ++ [lit "METADATA_PENDING"] from rfl, List.mem_append,
    List.mem_singleton]

theorem terminal_not_transition {s : Str} (h : s ∈ RuntimeContract.terminalStages) :
    s ∉ RuntimeContract.transitionStages ∧ s ≠ lit "RUNNING" := by
  revert s
  decide

/-- The two decision tables differ off `SameVerdict` and nowhere else. -/
theorem judge_eq_iff (publication : Reading) (stage : StageReading) (runtime : Reading) :
    RuntimeContract.judge publication stage runtime = RuntimeWait.judge publication stage runtime ↔
      SameVerdict publication stage runtime := by
  cases publication with
  | malformed => exact iff_of_true rfl trivial
  | missing =>
    cases stage with
    | missing => exact iff_of_true rfl trivial
    | malformed => simp [RuntimeContract.judge, RuntimeWait.judge, SameVerdict]
    | stage s =>
      -- the two differ on a terminal stage that one of them does not get to see
      by_cases hterminal : s ∈ RuntimeContract.terminalStages
      · simp [RuntimeContract.judge, RuntimeWait.judge, SameVerdict, hterminal]
      · cases runtime <;>
          simp [RuntimeContract.judge, RuntimeWait.judge, SameVerdict, hterminal]
  | exact p =>
    cases stage with
    | missing => exact iff_of_true rfl trivial
    | malformed => exact iff_of_true rfl trivial
    | stage s =>
      by_cases hterminal : s ∈ RuntimeContract.terminalStages
      · obtain ⟨hnot, hrunning⟩ := terminal_not_transition hterminal
        rw [mem_transitionStages, not_or] at hnot
        cases runtime <;> simp [RuntimeContract.judge, RuntimeWait.judge, SameVerdict, hterminal,
          mem_transitionStages, hnot, hrunning]
      · cases runtime with
        | malformed => simp [RuntimeContract.judge, RuntimeWait.judge, SameVerdict, hterminal]
        | missing =>
          simp [RuntimeContract.judge, RuntimeWait.judge, SameVerdict, hterminal,
            Classical.or_iff_not_imp_left]
        | exact r =>
          -- in transition both wait; the one stage they disagree on is that of pending metadata
          by_cases htransient : s ∈ RuntimeWait.transientStages
          · have hne : s ≠ lit "METADATA_PENDING" := by
              rintro rfl
              exact absurd htransient (by decide)
            simp [RuntimeContract.judge, RuntimeWait.judge, SameVerdict, hterminal, htransient, hne,
              mem_transitionStages]
          · by_cases hpending : s = lit "METADATA_PENDING"
            · subst hpending
              exact iff_of_false (by simp [RuntimeContract.judge, RuntimeWait.judge, hterminal,
                htransient, mem_transitionStages, show lit "METADATA_PENDING" ≠ lit "RUNNING" by
                decide]) (fun h => h rfl)
            · simp [RuntimeContract.judge, RuntimeWait.judge, SameVerdict, hterminal, htransient,
                hpending, mem_transitionStages]

end verdicts

/-! ### Agreement -/

/-- `classify` reports `RUNNING_ALIGNED` at these revisions. -/
def RuntimeContract.Aligned (info runtime : Dict) (publication revision : Json) : Prop :=
  ∃ d, classify info runtime canonicalRepoId = .ok d ∧
    field d (lit "state") = .str (lit "RUNNING_ALIGNED") ∧
    field d (lit "publication_revision") = publication ∧
    field d (lit "runtime_revision") = revision

/-- `classifyObservation` returns an observation of these revisions. -/
def RuntimeWait.Observed (info runtime : Dict) (publication revision : Json) : Prop :=
  ∃ d, classifyObservation info runtime = .ok d ∧
    field d (lit "publication_revision") = publication ∧
    field d (lit "runtime_revision") = revision

/-- Whether a result, or the failure raised in its place, asks for another poll. -/
def retries : Except ClassifierError Dict → Bool
  | .ok d => (field d (lit "retryable")).truthy
  | .error e => e.retryable

/-- A failure that ends the polling. -/
def FailsClosed (r : Except ClassifierError Dict) : Prop :=
  ∃ e, r = .error e ∧ e.retryable = false

/-- The two classifiers agree on a pair of provider answers: on the revisions they report, on
whether to poll again, and on failing closed where the stage is terminal. -/
structure ClassifiersAgree (info runtime : Dict) : Prop where
  aligned : ∀ publication revision, RuntimeContract.Aligned info runtime publication revision ↔
    RuntimeWait.Observed info runtime publication revision
  retry : (¬∃ publication revision, RuntimeContract.Aligned info runtime publication revision) →
    (¬∃ publication revision, RuntimeWait.Observed info runtime publication revision) →
    (retries (RuntimeContract.classify info runtime canonicalRepoId) =
      retries (RuntimeWait.classifyObservation info runtime))
  terminal : ∀ t, field info (lit "private") = .bool false →
    field runtime (lit "stage") = .str t →
    Str.upper (Str.strip t) ∈ RuntimeContract.terminalStages →
    FailsClosed (RuntimeContract.classify info runtime canonicalRepoId) ∧
      FailsClosed (RuntimeWait.classifyObservation info runtime)

section agreement

variable {info runtime : Dict} {publication revision : Json}

theorem Verdict.ofRetryable_ne_aligned (retryable : Bool) :
    Verdict.ofRetryable retryable ≠ .aligned publication revision := by
  cases retryable <;> simp [Verdict.ofRetryable]

theorem Verdict.ofRetryable_injective {a b : Bool}
    (h : Verdict.ofRetryable a = Verdict.ofRetryable b) : a = b := by
  revert a b
  decide

theorem RuntimeContract.aligned_iff : Aligned info runtime publication revision ↔
    verdict (classify info runtime canonicalRepoId) = .aligned publication revision := by
  rw [Aligned]
  cases classify info runtime canonicalRepoId with
  | error e =>
    refine iff_of_false ?_ (Verdict.ofRetryable_ne_aligned _)
    rintro ⟨d, hd, _⟩
    exact absurd hd (by simp)
  | ok d =>
    rw [verdict]
    by_cases hstate : field d (lit "state") = .str (lit "RUNNING_ALIGNED")
    · rw [if_pos hstate]
      constructor
      · rintro ⟨_, heq, _, hp, hr⟩
        obtain rfl := Except.ok.inj heq
        rw [hp, hr]
      · intro h
        obtain ⟨hp, hr⟩ := Verdict.aligned.inj h
        exact ⟨d, rfl, hstate, hp, hr⟩
    · rw [if_neg hstate]
      refine iff_of_false ?_ (Verdict.ofRetryable_ne_aligned _)
      rintro ⟨_, heq, h, _⟩
      obtain rfl := Except.ok.inj heq
      exact hstate h

theorem RuntimeContract.verdict_of_not_aligned (h : ¬∃ p r, Aligned info runtime p r) :
    verdict (classify info runtime canonicalRepoId) =
      .ofRetryable (retries (classify info runtime canonicalRepoId)) := by
  simp only [aligned_iff] at h
  revert h
  cases classify info runtime canonicalRepoId with
  | error e => exact fun _ => rfl
  | ok d =>
    intro h
    rw [verdict] at h ⊢
    by_cases hstate : field d (lit "state") = .str (lit "RUNNING_ALIGNED")
    · rw [if_pos hstate] at h
      exact absurd ⟨_, _, rfl⟩ h
    · rw [if_neg hstate, retries]

theorem RuntimeWait.observed_iff : Observed info runtime publication revision ↔
    verdict (classifyObservation info runtime) = .aligned publication revision := by
  rw [Observed]
  cases classifyObservation info runtime with
  | error e =>
    refine iff_of_false ?_ (Verdict.ofRetryable_ne_aligned _)
    rintro ⟨d, hd, _⟩
    exact absurd hd (by simp)
  | ok d =>
    constructor
    · rintro ⟨_, heq, hp, hr⟩
      obtain rfl := Except.ok.inj heq
      rw [verdict, hp, hr]
    · intro h
      obtain ⟨hp, hr⟩ := Verdict.aligned.inj h
      exact ⟨d, rfl, hp, hr⟩

theorem RuntimeWait.verdict_of_not_observed (h : ¬∃ p r, Observed info runtime p r) :
    verdict (classifyObservation info runtime) =
      .ofRetryable (retries (classifyObservation info runtime)) := by
  revert h
  simp only [Observed]
  cases classifyObservation info runtime with
  | error e => exact fun _ => rfl
  | ok d => exact fun h => absurd ⟨_, _, d, rfl, rfl, rfl⟩ h

/-- Agreement on the revisions and on the retries is agreement of the verdicts. -/
theorem verdict_eq_iff :
    RuntimeContract.verdict (RuntimeContract.classify info runtime canonicalRepoId) =
        RuntimeWait.verdict (RuntimeWait.classifyObservation info runtime) ↔
      (∀ p r, RuntimeContract.Aligned info runtime p r ↔ RuntimeWait.Observed info runtime p r) ∧
      ((¬∃ p r, RuntimeContract.Aligned info runtime p r) →
        (¬∃ p r, RuntimeWait.Observed info runtime p r) →
        retries (RuntimeContract.classify info runtime canonicalRepoId) =
          retries (RuntimeWait.classifyObservation info runtime)) := by
  constructor
  · intro h
    refine ⟨fun p r => ?_, fun hnot hnot' => ?_⟩
    · rw [RuntimeContract.aligned_iff, RuntimeWait.observed_iff, h]
    · rw [RuntimeContract.verdict_of_not_aligned hnot,
        RuntimeWait.verdict_of_not_observed hnot'] at h
      exact Verdict.ofRetryable_injective h
  · rintro ⟨hsame, hretry⟩
    -- either both observe the same pair of revisions, or neither observes one
    by_cases hsome : ∃ p r, RuntimeContract.Aligned info runtime p r
    · obtain ⟨p, r, h⟩ := hsome
      rw [RuntimeContract.aligned_iff.mp h, RuntimeWait.observed_iff.mp ((hsame p r).mp h)]
    · have hnone : ¬∃ p r, RuntimeWait.Observed info runtime p r := by
        rintro ⟨p, r, h⟩
        exact hsome ⟨p, r, (hsame p r).mpr h⟩
      rw [RuntimeContract.verdict_of_not_aligned hsome, RuntimeWait.verdict_of_not_observed hnone,
        hretry hsome hnone]

/-- An identity that is absent or canonical passes the identity check. -/
theorem RuntimeContract.classify_canonical
    (hid : field info (lit "id") = .null ∨ field info (lit "id") = .str canonicalRepoId) :
    classify info runtime canonicalRepoId =
      match field info (lit "private") with
      | .null => .ok (pending "VISIBILITY_PENDING" [])
      | .bool true => .ok (pending "VISIBILITY_PENDING" [])
      | .bool false => classifyPublic info runtime
      | _ => .error ⟨lit "INVALID_RESPONSE", lit "Visibility is not boolean.", false, []⟩ := by
  have hreject : rejectAlternateTarget canonicalRepoId = .ok () := if_neg (not_not.mpr rfl)
  rw [classify, hreject]
  dsimp only
  refine if_neg ?_
  rintro ⟨_, hne, htruthy⟩
  rcases hid with hid | hid
  · rw [hid] at htruthy
    exact absurd htruthy (by simp [Json.truthy])
  · rw [identityOf, if_pos htruthy, hid] at hne
    exact hne rfl

/-- `classify` fails closed on a terminal stage of a public Space, whatever the
revision fields hold. -/
theorem RuntimeContract.classifyPublic_terminal {t : Str}
    (hstage : field runtime (lit "stage") = .str t)
    (hterminal : Str.upper (Str.strip t) ∈ terminalStages) :
    FailsClosed (classifyPublic info runtime) := by
  -- a terminal stage is well formed, and is none that counts as missing
  have hwell : isStage (Str.upper (Str.strip t)) = true := by
    revert hterminal
    generalize Str.upper (Str.strip t) = s
    revert s
    decide
  have hunset : ¬unset (field runtime (lit "stage")) = true := by
    rw [hstage]
    intro h
    rw [show t = [] by simpa [unset] using h] at hwell
    exact absurd hwell (by decide)
  rw [classifyPublic, shaOrNone_eq]
  cases readSha (field info (lit "sha")) with
  | malformed => exact ⟨_, rfl, rfl⟩
  | _ =>
    dsimp only
    rw [if_neg hunset, hstage]
    dsimp only
    rw [if_pos hwell, classifyStage, if_pos hterminal]
    exact ⟨_, rfl, rfl⟩

theorem RuntimeWait.failsClosed_of_verdict {x : Except ClassifierError Dict}
    (h : verdict x = .refuse) : FailsClosed x := by
  cases x with
  | ok d => exact absurd h (by simp [verdict])
  | error e =>
    refine ⟨e, rfl, ?_⟩
    rw [verdict, Verdict.ofRetryable] at h
    by_cases hr : e.retryable = true
    · rw [if_pos hr] at h
      exact absurd h (by simp)
    · simpa using hr

theorem RuntimeContract.verdict_of_failsClosed {x : Except ClassifierError Dict}
    (h : FailsClosed x) : verdict x = .refuse := by
  obtain ⟨e, rfl, he⟩ := h
  rw [verdict, he]
  rfl

/-- **Agreement.** On the answers about the canonical Space the two classifiers
agree except where one of them settles a stage before it misses a revision, or
does not know the stage `METADATA_PENDING`. -/
theorem classifiers_agree_iff (info runtime : Dict)
    (hid : field info (lit "id") = .null ∨ field info (lit "id") = .str canonicalRepoId) :
    ClassifiersAgree info runtime ↔ (field info (lit "private") = .bool false →
      SameVerdict (readSha (field info (lit "sha"))) (readStage (field runtime (lit "stage")))
        (readSha (field runtime (lit "sha")))) := by
  -- a public Space is judged by its revisions and its stage
  have hpublic : field info (lit "private") = .bool false →
      RuntimeContract.classify info runtime canonicalRepoId =
          RuntimeContract.classifyPublic info runtime ∧
        RuntimeWait.classifyObservation info runtime = RuntimeWait.classifyPublic info runtime := by
    intro h
    rw [RuntimeContract.classify_canonical hid, RuntimeWait.classifyObservation, h]
    exact ⟨rfl, rfl⟩
  constructor
  · intro hagree h
    obtain ⟨hcontract, hwait⟩ := hpublic h
    have hverdict := verdict_eq_iff.mpr ⟨hagree.aligned, hagree.retry⟩
    rw [hcontract, hwait, RuntimeContract.verdict_classifyPublic,
      RuntimeWait.verdict_classifyPublic] at hverdict
    exact (judge_eq_iff _ _ _).mp hverdict
  · intro hsame
    -- any other one is pending, or an error, for both
    have hverdict :
        RuntimeContract.verdict (RuntimeContract.classify info runtime canonicalRepoId) =
        RuntimeWait.verdict (RuntimeWait.classifyObservation info runtime) := by
      by_cases h : field info (lit "private") = .bool false
      · obtain ⟨hcontract, hwait⟩ := hpublic h
        rw [hcontract, hwait, RuntimeContract.verdict_classifyPublic,
          RuntimeWait.verdict_classifyPublic]
        exact (judge_eq_iff _ _ _).mpr (hsame h)
      · rw [RuntimeContract.classify_canonical hid, RuntimeWait.classifyObservation]
        revert h
        cases field info (lit "private") with
        | bool b =>
          cases b with
          | false => exact fun h => absurd rfl h
          | true => exact fun _ => RuntimeContract.verdict_pending (by decide) _
        | null => exact fun _ => RuntimeContract.verdict_pending (by decide) _
        | _ => exact fun _ => rfl
    obtain ⟨haligned, hretry⟩ := verdict_eq_iff.mp hverdict
    refine ⟨haligned, hretry, ?_⟩
    intro t hprivate hstage hterminal
    obtain ⟨hcontract, hwait⟩ := hpublic hprivate
    -- where they agree, what one of them fails on both fail on
    have hfails : FailsClosed (RuntimeContract.classifyPublic info runtime) :=
      RuntimeContract.classifyPublic_terminal hstage hterminal
    refine ⟨hcontract ▸ hfails, RuntimeWait.failsClosed_of_verdict ?_⟩
    rw [← hverdict, hcontract]
    exact RuntimeContract.verdict_of_failsClosed hfails

/-- The answers of a Space that is building: both classifiers poll again. -/
theorem classifiers_agree_iff_building :
    ClassifiersAgree
        [(lit "private", .bool false), (lit "sha", .str (List.replicate 40 (chr 'a')))]
        [(lit "stage", .str (lit "BUILDING")), (lit "sha", .null)] ↔
      (Json.bool false = .bool false → SameVerdict (.exact (List.replicate 40 (chr 'a')))
        (.stage (lit "BUILDING")) .missing) :=
  classifiers_agree_iff _ _ (.inl rfl)

/-- A build error whose runtime revision is still missing: `classify` fails
closed, `classifyObservation` polls on. -/
theorem classifiers_agree_not :
    ¬ ClassifiersAgree
        [(lit "private", .bool false), (lit "sha", .str (List.replicate 40 (chr 'a')))]
        [(lit "stage", .str (lit "BUILD_ERROR")), (lit "sha", .null)] := by
  intro hagree
  obtain ⟨_, e, he, hretry⟩ := hagree.terminal (lit "BUILD_ERROR") rfl rfl (by decide)
  have hpolls : retries (RuntimeWait.classifyObservation
      [(lit "private", .bool false), (lit "sha", .str (List.replicate 40 (chr 'a')))]
      [(lit "stage", .str (lit "BUILD_ERROR")), (lit "sha", .null)]) = true := by
    rfl
  rw [he, retries, hretry] at hpolls
  exact absurd hpolls (by simp)

end agreement

end SzlRouter
