/-
What an accepted Space has shown.

An attempt that returns has read the revision, the stage, the tree, every file,
the binding, the two witnesses, and revision and stage again, in this order and
all at one revision; `Accepting` lists these reads and what each shows.  An
error exit leaves the verdict rejected, so the verdict can only come from the
reads of the last attempt.

* `verifyOnce_ok` — an attempt that returns is `Accepting`;
* `acceptance_sound` — the verdict, and the end of the polling.
-/
import SzlRouter.SpacePolling

namespace SzlRouter

namespace Drift

open Py Procedure
open EStateM (Result)

variable {W : World} {cfg : Config} {deadline : Binary64} {s t : State} {hfRevision : Str}

/-! ### What each read of an attempt shows -/

/-- The Space is at the revision. -/
def ShowsRevision (cfg : Config) (hfRevision : Str) (x : Read) : Prop :=
  x.get.url = providerInfoUrl cfg.repoId ∧
    ∃ d, x.Object d ∧ exactSha (field d (lit "sha")) = some hfRevision

/-- The runtime is RUNNING at the revision. -/
def ShowsRunning (cfg : Config) (hfRevision : Str) (x : Read) : Prop :=
  x.get.url = providerRuntimeUrl cfg.repoId ∧
    ∃ d, x.Object d ∧ field d (lit "stage") = .str (lit "RUNNING") ∧
      exactSha (field d (lit "sha")) = some hfRevision

/-- The files published at the revision are the expected ones, and every directory
is one of theirs. -/
def ShowsTree (cfg : Config) (hfRevision : Str) (expected : List Str) (x : Read) : Prop :=
  x.get.url = treeUrl cfg.repoId hfRevision ∧
    ∃ entries files dirs, x.Array entries ∧ readTree entries = .ok (files, dirs) ∧
      (∀ path, path ∈ files ↔ path ∈ expected) ∧
      ∀ dir ∈ dirs, ∃ path ∈ expected, Str.startsWith path (dir ++ lit "/") = true

/-- The bytes are equal, or the two are a collision of SHA-256. -/
def SameBytes (a b : Bytes) : Prop := a = b ∨ (a ≠ b ∧ sha256Hex a = sha256Hex b)

/-- The file published at the revision has the expected bytes. -/
def ShowsFile (cfg : Config) (hfRevision : Str) (file : Str × Bytes) (x : Read) : Prop :=
  x.get.url = resolveUrl cfg.repoId hfRevision file.1 ∧
    ∃ remote, x.Bytes remote ∧ SameBytes file.2 remote

/-- The binding published at the revision is the generated one, byte for byte. -/
def ShowsBinding (cfg : Config) (hfRevision : Str) (x : Read) : Prop :=
  x.get.url = resolveUrl cfg.repoId hfRevision sourceBindingFilename ∧
    ∃ binding body, sourceBinding sourceRepository cfg.sourceRevision = some binding ∧
      jsonBytes binding = some body ∧ x.Bytes body

def ShowsReady (cfg : Config) (nonce : Str) (x : Read) : Prop :=
  x.get.url = readinessUrl cfg.endpoint nonce ∧
    ∃ d, x.Object d ∧ ∀ p ∈ readinessFields, field d p.1 = .str p.2

/-- The witness binds the source commit and the revision. -/
def ShowsAttested (cfg : Config) (hfRevision nonce : Str) (x : Read) : Prop :=
  x.get.url = attestationUrl cfg.endpoint nonce ∧
    ∃ d source deployment, x.Object d ∧ field d (lit "source") = .obj source ∧
      field d (lit "deployment") = .obj deployment ∧
      (∀ p ∈ attestedSourceFields cfg, field source p.1 = .str p.2) ∧
      ∀ p ∈ attestedDeploymentFields cfg hfRevision, field deployment p.1 = .str p.2

/-- The reads of an accepting attempt, in their order: the revision, the stage, the listing, the
files, the binding, the two of the witness, and the revision and the stage once more. -/
structure Accepting (cfg : Config) (snapshot : Snapshot) (hfRevision : Str) (reads : List Read) :
    Prop where
  shows : ∃ info stage tree files binding ready attested info' stage', reads =
      info :: stage :: tree :: files ++ [binding, ready, attested, info', stage'] ∧
    ShowsRevision cfg hfRevision info ∧ ShowsRunning cfg hfRevision stage ∧
    ShowsTree cfg hfRevision (Dict.keys snapshot ++ [sourceBindingFilename]) tree ∧
    List.Forall₂ (ShowsFile cfg hfRevision) snapshot files ∧
    ShowsBinding cfg hfRevision binding ∧
    (∃ nonce, ShowsReady cfg nonce ready ∧ ShowsAttested cfg hfRevision nonce attested) ∧
    ShowsRevision cfg hfRevision info' ∧ ShowsRunning cfg hfRevision stage'

/-! ### The calls of an attempt -/

theorem record_ok {f : Evidence → Evidence} (h : record f s = .ok () t) : t.reads = s.reads := by
  rw [← (Result.ok.inj h).2]

theorem record_fail_ne_ok {α β : Type} {f : Evidence → Evidence} {failure : VerificationFailure}
    {g : α → Verify β} {b : β} : (record f >>= fun _ => fail failure >>= g) s ≠ .ok b t := by
  intro h
  obtain ⟨_, _, _, h⟩ := bind_eq_ok.mp h
  exact throw_bind_ne_ok h

theorem establish_ok {ms : List Mark} {f : Evidence → Evidence}
    (h : establish ms hfRevision f s = .ok () t) : t.reads = s.reads := by
  rw [← (Result.ok.inj h).2]

theorem ask_ok {α : Type} {question : ℕ → α} {a : α} (h : ask question s = .ok a t) :
    t.reads = s.reads ∧ ∃ n, question n = a := by
  rw [ask] at h
  obtain ⟨u, _, hu, h⟩ := bind_eq_ok.mp h
  obtain ⟨rfl, rfl⟩ := Result.ok.inj hu
  obtain ⟨_, v, hv, h⟩ := bind_eq_ok.mp h
  obtain ⟨_, rfl⟩ := Result.ok.inj hv
  obtain ⟨rfl, rfl⟩ := pure_eq_ok.mp h
  exact ⟨rfl, _, rfl⟩

theorem judgeInfo_ok {payload : Dict} (h : judgeInfo cfg payload = .ok hfRevision) :
    exactSha (field payload (lit "sha")) = some hfRevision := by
  rw [judgeInfo] at h
  cases hsha : exactSha (field payload (lit "sha")) with
  | none => rw [hsha] at h; exact absurd h (by simp)
  | some revision =>
    rw [hsha] at h
    dsimp only at h
    split at h
    · split_ifs at h
      exact congrArg some (Except.ok.inj h)
    · exact absurd h (by simp)

theorem providerInfo_ok (h : providerInfo W cfg deadline s = .ok hfRevision t) :
    ∃ x, OneRead s t x ∧ ShowsRevision cfg hfRevision x := by
  rw [providerInfo] at h
  obtain ⟨payload, u, hu, h⟩ := bind_eq_ok.mp h
  obtain ⟨x, hx, hurl, hobject⟩ := getJson_ok hu
  obtain ⟨hjudge, rfl⟩ := orFail_ok h
  exact ⟨x, hx, hurl, payload, hobject, judgeInfo_ok hjudge⟩

theorem judgeStage_ok {payload : Dict} {stage revision : Str}
    (h : judgeStage payload = .ok (stage, revision)) :
    field payload (lit "stage") = .str stage ∧
      exactSha (field payload (lit "sha")) = some revision := by
  rw [judgeStage] at h
  split at h
  · rename_i stage' hstage
    split_ifs at h
    cases hsha : exactSha (field payload (lit "sha")) with
    | none => rw [hsha] at h; exact absurd h (by simp)
    | some revision' =>
      rw [hsha] at h
      obtain ⟨rfl, rfl⟩ := Prod.mk.inj (Except.ok.inj h)
      exact ⟨hstage, rfl⟩
  · exact absurd h (by simp)

theorem providerStage_ok {expectedRevision : Str}
    (h : providerStage W cfg deadline expectedRevision s = .ok () t) :
    ∃ x, t.reads = s.reads ++ [x] ∧ ShowsRunning cfg expectedRevision x := by
  rw [providerStage] at h
  obtain ⟨payload, u, hu, h⟩ := bind_eq_ok.mp h
  obtain ⟨x, hx, hurl, hobject⟩ := getJson_ok hu
  obtain ⟨⟨stage, revision⟩, v, hv, h⟩ := bind_eq_ok.mp h
  obtain ⟨hjudge, rfl⟩ := orFail_ok hv
  obtain ⟨hstage, hsha⟩ := judgeStage_ok hjudge
  obtain ⟨_, w, hw, h⟩ := bind_eq_ok.mp h
  dsimp only at h
  by_cases hrunning : stage = lit "RUNNING"
  · rw [if_neg (not_not.mpr hrunning)] at h
    by_cases hrev : revision = expectedRevision
    · rw [if_neg (not_not.mpr hrev)] at h
      refine ⟨x, ?_, hurl, payload, hobject, hrunning ▸ hstage, hrev ▸ hsha⟩
      rw [record_ok h, record_ok hw, hx.reads]
    · rw [if_pos hrev] at h
      exact absurd h record_fail_ne_ok
  · rw [if_pos hrunning] at h
    exact absurd h record_fail_ne_ok

/-- A path is kept by the filter exactly when it fails the test of the other side. -/
theorem mem_missingPaths {expected files : List Str} {path : Str} :
    path ∈ missingPaths expected files ↔ path ∈ expected ∧ path ∉ files := by
  rw [missingPaths, sortedPaths, (List.perm_insertionSort _ _).mem_iff, List.mem_filter,
    decide_eq_true_iff]

theorem mem_unexpectedPaths {expected files : List Str} {path : Str} :
    path ∈ unexpectedPaths expected files ↔ path ∈ files ∧ path ∉ expected := by
  rw [unexpectedPaths, sortedPaths, (List.perm_insertionSort _ _).mem_iff, List.mem_filter,
    decide_eq_true_iff]

theorem mem_unexpectedDirectories {expected dirs : List Str} {dir : Str} :
    dir ∈ unexpectedDirectories expected dirs ↔
      dir ∈ dirs ∧ ∀ path ∈ expected, Str.startsWith path (dir ++ lit "/") = false := by
  rw [unexpectedDirectories, sortedPaths, (List.perm_insertionSort _ _).mem_iff, List.mem_filter,
    Bool.not_eq_true', List.any_eq_false]
  simp

theorem verifyOutputSet_ok {expected : List Str}
    (h : verifyOutputSet W cfg deadline hfRevision expected s = .ok () t) :
    ∃ x, t.reads = s.reads ++ [x] ∧ ShowsTree cfg hfRevision expected x := by
  rw [verifyOutputSet] at h
  obtain ⟨tree, u, hu, h⟩ := bind_eq_ok.mp h
  obtain ⟨x, hx, hurl, harray⟩ := getJsonArray_ok hu
  obtain ⟨⟨files, dirs⟩, v, hv, h⟩ := bind_eq_ok.mp h
  obtain ⟨hread, rfl⟩ := orFail_ok hv
  obtain ⟨_, w, hw, h⟩ := bind_eq_ok.mp h
  dsimp only at h
  -- three differences, none of which there is
  by_cases hset : missingPaths expected files ≠ [] ∨ unexpectedPaths expected files ≠ [] ∨
      unexpectedDirectories expected dirs ≠ []
  · rw [if_pos hset] at h
    exact absurd h record_fail_ne_ok
  rw [if_neg hset] at h
  obtain ⟨hmissing, hunexpected, hdirs⟩ : missingPaths expected files = [] ∧
      unexpectedPaths expected files = [] ∧ unexpectedDirectories expected dirs = [] := by
    simpa only [not_or, not_not, ne_eq] using hset
  refine ⟨x, ?_, hurl, tree, files, dirs, harray, hread, ?_, ?_⟩
  · rw [establish_ok h, record_ok hw, hx.reads]
  · intro path
    constructor
    · intro hpath
      by_contra hnot
      exact List.not_mem_nil (hunexpected ▸ mem_unexpectedPaths.mpr ⟨hpath, hnot⟩)
    · intro hpath
      by_contra hnot
      exact List.not_mem_nil (hmissing ▸ mem_missingPaths.mpr ⟨hpath, hnot⟩)
  · intro dir hdir
    by_contra hnot
    push Not at hnot
    exact List.not_mem_nil (hdirs ▸ mem_unexpectedDirectories.mpr
      ⟨hdir, fun path hpath => Bool.eq_false_iff.mpr (hnot path hpath)⟩)

theorem verifyFiles_ok {snapshot : Snapshot}
    (h : verifyFiles W cfg deadline hfRevision snapshot s = .ok () t) :
    ∃ xs, t.reads = s.reads ++ xs ∧ List.Forall₂ (ShowsFile cfg hfRevision) snapshot xs := by
  induction snapshot generalizing s with
  | nil =>
    obtain ⟨_, rfl⟩ := pure_eq_ok.mp h
    exact ⟨[], (List.append_nil _).symm, .nil⟩
  | cons file rest ih =>
    rw [verifyFiles] at h
    obtain ⟨remote, u, hu, h⟩ := bind_eq_ok.mp h
    obtain ⟨x, hx, hurl, hbytes⟩ := getBytes_ok hu
    obtain ⟨_, v, hv, h⟩ := bind_eq_ok.mp h
    -- bytes are compared by their digests, which may be the same for others
    by_cases hsha : sha256Hex file.2 = sha256Hex remote
    · rw [if_neg (by simp [hsha])] at h
      obtain ⟨xs, hxs, hall⟩ := ih h
      refine ⟨x :: xs, ?_, .cons ⟨hurl, remote, hbytes, ?_⟩ hall⟩
      · rw [hxs, record_ok hv, hx.reads, List.append_assoc]
        rfl
      · by_cases heq : file.2 = remote
        · exact .inl heq
        · exact .inr ⟨heq, hsha⟩
    · rw [if_pos (by simp [hsha])] at h
      exact absurd h record_fail_ne_ok

theorem verifyBinding_ok (h : verifyBinding W cfg deadline hfRevision s = .ok () t) :
    ∃ x, t.reads = s.reads ++ [x] ∧ ShowsBinding cfg hfRevision x := by
  rw [verifyBinding] at h
  obtain ⟨body, u, hu, h⟩ := bind_eq_ok.mp h
  obtain ⟨x, hx, hurl, hbytes⟩ := getBytes_ok hu
  obtain ⟨binding, v, hv, h⟩ := bind_eq_ok.mp h
  obtain ⟨_, rfl⟩ := orStop_ok hv
  cases hbinding : sourceBinding sourceRepository cfg.sourceRevision with
  | none =>
    rw [hbinding] at h
    exact absurd h throw_ne_ok
  | some expected =>
    rw [hbinding] at h
    dsimp only at h
    by_cases hsame : ¬ sameMembers binding expected ∨ some body ≠ jsonBytes expected
    · rw [if_pos hsame] at h
      exact absurd h record_fail_ne_ok
    · rw [if_neg hsame] at h
      obtain ⟨-, hbody⟩ := not_or.mp hsame
      refine ⟨x, ?_, hurl, expected, body, hbinding, (not_not.mp hbody).symm, hbytes⟩
      rw [establish_ok h, hx.reads]

theorem takeSnapshot_ok {snapshot : Snapshot} (h : takeSnapshot W cfg s = .ok snapshot t) :
    t.reads = s.reads ∧ ∃ n, sourceSnapshot (W.checkout n) cfg.sourceRevision = .ok snapshot := by
  rw [takeSnapshot] at h
  obtain ⟨checkout, u, hu, h⟩ := bind_eq_ok.mp h
  obtain ⟨hreads, n, rfl⟩ := ask_ok hu
  cases hsource : sourceSnapshot (W.checkout n) cfg.sourceRevision with
  | error e =>
    rw [hsource] at h
    exact absurd h throw_ne_ok
  | ok found =>
    rw [hsource] at h
    obtain ⟨rfl, rfl⟩ := pure_eq_ok.mp h
    exact ⟨hreads, n, hsource⟩

theorem requireFields_ok {payload : Dict} {code context : Str} {fields : List (Str × Str)}
    (h : requireFields payload code context fields = .ok ()) :
    ∀ p ∈ fields, field payload p.1 = .str p.2 := by
  induction fields with
  | nil => simp
  | cons p rest ih =>
    rw [requireFields] at h
    by_cases hfield : field payload p.1 = .str p.2
    · rw [if_neg (not_not.mpr hfield)] at h
      exact List.forall_mem_cons.mpr ⟨hfield, ih h⟩
    · rw [if_pos hfield] at h
      exact absurd h (by simp)

theorem judgeAttestation_ok {payload source deployment : Dict}
    (h : judgeAttestation cfg hfRevision payload = .ok (source, deployment)) :
    field payload (lit "source") = .obj source ∧
      field payload (lit "deployment") = .obj deployment ∧
      (∀ p ∈ attestedSourceFields cfg, field source p.1 = .str p.2) ∧
      ∀ p ∈ attestedDeploymentFields cfg hfRevision, field deployment p.1 = .str p.2 := by
  rw [judgeAttestation] at h
  obtain ⟨_, _, h⟩ := except_bind_eq_ok.mp h
  split at h
  · rename_i source' deployment' hsource hdeployment
    obtain ⟨_, hsourceFields, h⟩ := except_bind_eq_ok.mp h
    obtain ⟨_, hdeploymentFields, h⟩ := except_bind_eq_ok.mp h
    split_ifs at h
    · exact nomatch h
    · obtain ⟨rfl, rfl⟩ := Prod.mk.inj (Except.ok.inj h)
      exact ⟨hsource, hdeployment, requireFields_ok hsourceFields,
        requireFields_ok hdeploymentFields⟩
  · exact nomatch h

theorem verifyRuntimeWitness_ok (h : verifyRuntimeWitness W cfg deadline hfRevision s = .ok () t) :
    ∃ nonce x y, t.reads = s.reads ++ [x, y] ∧ ShowsReady cfg nonce x ∧
      ShowsAttested cfg hfRevision nonce y := by
  rw [verifyRuntimeWitness] at h
  -- a nonce, two reads, and the checks on each before the next step
  obtain ⟨nonce, s₁, h₁, h⟩ := bind_eq_ok.mp h
  obtain ⟨⟨readiness, status, readinessHeaders⟩, s₂, h₂, h⟩ := bind_eq_ok.mp h
  obtain ⟨x, hx, hxurl, hready⟩ := getWitnessJson_ok h₂
  obtain ⟨_, s₃, h₃, h⟩ := bind_eq_ok.mp h
  obtain ⟨_, rfl⟩ := orFail_ok h₃
  obtain ⟨_, s₄, h₄, h⟩ := bind_eq_ok.mp h
  obtain ⟨hfields, rfl⟩ := orFail_ok h₄
  obtain ⟨⟨attestation, _, attestationHeaders⟩, s₅, h₅, h⟩ := bind_eq_ok.mp h
  obtain ⟨y, hy, hyurl, hattestation⟩ := getWitnessJson_ok h₅
  obtain ⟨_, s₆, h₆, h⟩ := bind_eq_ok.mp h
  obtain ⟨_, rfl⟩ := orFail_ok h₆
  obtain ⟨now, s₇, h₇, h⟩ := bind_eq_ok.mp h
  obtain ⟨_, s₈, h₈, h⟩ := bind_eq_ok.mp h
  obtain ⟨_, rfl⟩ := orFail_ok h₈
  obtain ⟨⟨source, deployment⟩, s₉, h₉, h⟩ := bind_eq_ok.mp h
  obtain ⟨hjudge, rfl⟩ := orFail_ok h₉
  obtain ⟨hsource, hdeployment, hsourceFields, hdeploymentFields⟩ := judgeAttestation_ok hjudge
  refine ⟨nonce, x, y, ?_, ⟨hxurl, readiness, hready, requireFields_ok hfields⟩, hyurl, attestation,
    source, deployment, hattestation, hsource, hdeployment, hsourceFields, hdeploymentFields⟩
  rw [establish_ok h, (ask_ok h₇).1, hy.reads, hx.reads, (ask_ok h₁).1, List.append_assoc]
  rfl

theorem observeRevision_ok (h : observeRevision W cfg deadline s = .ok hfRevision t) :
    ∃ x, t.reads = s.reads ++ [x] ∧ ShowsRevision cfg hfRevision x ∧
      t.evidence = s.evidence.observe hfRevision := by
  rw [observeRevision] at h
  obtain ⟨revision, u, hu, h⟩ := bind_eq_ok.mp h
  obtain ⟨x, hx, hshows⟩ := providerInfo_ok hu
  obtain ⟨_, v, hv, h⟩ := bind_eq_ok.mp h
  obtain ⟨rfl, rfl⟩ := pure_eq_ok.mp h
  refine ⟨x, ?_, hshows, ?_⟩
  · rw [record_ok hv, hx.reads]
  · rw [← (Result.ok.inj hv).2, ← hx.evidence]

theorem confirmRevision_ok (h : confirmRevision W cfg deadline hfRevision s = .ok () t) :
    ∃ x y, t.reads = s.reads ++ [x, y] ∧ ShowsRevision cfg hfRevision x ∧
      ShowsRunning cfg hfRevision y := by
  rw [confirmRevision] at h
  obtain ⟨finalRevision, u, hu, h⟩ := bind_eq_ok.mp h
  obtain ⟨x, hx, hshows⟩ := providerInfo_ok hu
  by_cases hrev : finalRevision = hfRevision
  · rw [if_neg (not_not.mpr hrev)] at h
    obtain ⟨y, hy, hrunning⟩ := providerStage_ok h
    refine ⟨x, y, ?_, hrev ▸ hshows, hrunning⟩
    rw [hy, hx.reads, List.append_assoc]
    rfl
  · rw [if_pos hrev] at h
    exact absurd h record_fail_ne_ok

theorem verifySourcePublication_ok
    (h : verifySourcePublication W cfg deadline hfRevision s = .ok () t) :
    ∃ snapshot n tree files binding, t.reads = s.reads ++ tree :: files ++ [binding] ∧
      sourceSnapshot (W.checkout n) cfg.sourceRevision = .ok snapshot ∧
      ShowsTree cfg hfRevision (Dict.keys snapshot ++ [sourceBindingFilename]) tree ∧
      List.Forall₂ (ShowsFile cfg hfRevision) snapshot files ∧
      ShowsBinding cfg hfRevision binding := by
  rw [verifySourcePublication] at h
  obtain ⟨snapshot, s₁, h₁, h⟩ := bind_eq_ok.mp h
  obtain ⟨hreads, n, hsnapshot⟩ := takeSnapshot_ok h₁
  obtain ⟨_, s₂, h₂, h⟩ := bind_eq_ok.mp h
  obtain ⟨_, s₃, h₃, h⟩ := bind_eq_ok.mp h
  obtain ⟨tree, htree, hshows⟩ := verifyOutputSet_ok h₃
  obtain ⟨_, s₄, h₄, h⟩ := bind_eq_ok.mp h
  obtain ⟨files, hfiles, hall⟩ := verifyFiles_ok h₄
  obtain ⟨binding, hbinding, hbound⟩ := verifyBinding_ok h
  refine ⟨snapshot, n, tree, files, binding, ?_, hsnapshot, hshows, hall, hbound⟩
  rw [hbinding, hfiles, htree, record_ok h₂, hreads]
  simp

/-- An attempt that returns has made the reads of an acceptance, at one revision. The revision is
asked for at its start and at its end, and the two answers agree. -/
theorem verifyOnce_ok (h : verifyOnce W cfg deadline s = .ok () t) :
    ∃ reads snapshot hfRevision n, t.reads = s.reads ++ reads ∧
      sourceSnapshot (W.checkout n) cfg.sourceRevision = .ok snapshot ∧
      Accepting cfg snapshot hfRevision reads ∧
      t.evidence.publication.revision = some hfRevision := by
  rw [verifyOnce] at h
  obtain ⟨hfRevision, s₁, h₁, h⟩ := bind_eq_ok.mp h
  -- the publication, the stage, the source, the witness, and the publication once more
  obtain ⟨info, hinfo, hshows, hobserve⟩ := observeRevision_ok h₁
  obtain ⟨_, s₂, h₂, h⟩ := bind_eq_ok.mp h
  obtain rfl := (Result.ok.inj h).2
  have hrevision := (attempted_verifyAt.of_ok h₂).revision
  rw [verifyAt] at h₂
  obtain ⟨_, s₃, h₃, h₂⟩ := bind_eq_ok.mp h₂
  obtain ⟨stage, hstage, hrunning⟩ := providerStage_ok h₃
  obtain ⟨_, s₄, h₄, h₂⟩ := bind_eq_ok.mp h₂
  obtain ⟨snapshot, n, tree, files, binding, hpublication, hsnapshot, htree, hfiles, hbinding⟩ :=
    verifySourcePublication_ok h₄
  obtain ⟨_, s₅, h₅, h₂⟩ := bind_eq_ok.mp h₂
  obtain ⟨nonce, ready, attested, hwitness, hready, hattested⟩ := verifyRuntimeWitness_ok h₅
  obtain ⟨info', stage', hconfirm, hshows', hrunning'⟩ := confirmRevision_ok h₂
  refine ⟨info :: stage :: tree :: files ++ [binding, ready, attested, info', stage'], snapshot,
    hfRevision, n, ?_, hsnapshot,
      ⟨info, stage, tree, files, binding, ready, attested, info', stage',
      rfl, hshows, hrunning, htree, hfiles, hbinding, ⟨nonce, hready, hattested⟩, hshows',
      hrunning'⟩, ?_⟩
  · show s₂.reads = _
    rw [hconfirm, hwitness, hpublication, hstage, hinfo]
    simp
  · show s₂.evidence.publication.revision = _
    rw [hrevision, hobserve]
    rfl

/-! ### The verdict -/

/-- Only an attempt that returned leaves the verdict accepted. -/
theorem Ends.of_accepted {x : Except Stop Unit} {number : ℕ} {u : State}
    (h : Ends W cfg deadline number s x u) (hs : s.evidence.verdict = .rejected)
    (haccepted : (handle x u.evidence).verdict = .accepted) :
    ∃ v, verifyOnce W cfg deadline s = .ok () v ∧ u = appendAttempt (acceptedAttempt number v) v ∧
      handle x u.evidence = u.evidence := by
  cases h with
  | accepted honce => exact ⟨_, honce, rfl, rfl⟩
  | failed _ => exact nomatch haccepted
  | @crashed _ name honce =>
    rw [handle] at haccepted
    split_ifs at haccepted
    · rw [verdict_of_error honce, hs] at haccepted
      exact nomatch haccepted
    · exact nomatch haccepted

/-- An accepting verdict comes from the reads of one attempt, the last one, and the polling ends
by its deadline. Each read of it was answered by the Space, and shows what the verdict says of
one revision. -/
theorem acceptance_sound (W : World) (cfg : Config) (clock : Binary64) :
    (∀ fuel t, verifierMain W cfg fuel clock = some t → t.evidence.verdict = .accepted →
      ∃ number s reads snapshot hfRevision n,
        Begun W cfg (runDeadline W cfg clock) (firstState W cfg clock) number s ∧
        t.reads = s.reads ++ reads ∧ (∀ x ∈ t.reads, Answered W x) ∧
        sourceSnapshot (W.checkout n) cfg.sourceRevision = .ok snapshot ∧
        Accepting cfg snapshot hfRevision reads ∧
        t.evidence.publication.revision = some hfRevision) ∧
    (Clockwork W (runDeadline W cfg clock) → clock.isFinite = true →
      ∃ fuel t, verifierMain W cfg fuel clock = some t ∧
        ∀ x ∈ t.reads, Timely (runDeadline W cfg clock) x) := by
  constructor
  · intro fuel t h haccepted
    obtain ⟨number, s, x, u, hbegun, hends, rfl⟩ := verifierMain_ends h
    -- the verdict is set by the last attempt alone, so that one returned
    obtain ⟨v, honce, rfl, hhandle⟩ := hends.of_accepted hbegun.verdict haccepted
    obtain ⟨reads, snapshot, hfRevision, n, hreads, hsnapshot, haccepting, hrevision⟩ :=
      verifyOnce_ok honce
    refine ⟨number, s, reads, snapshot, hfRevision, n, hbegun, hreads, verifierMain_answered h,
      hsnapshot, haccepting, ?_⟩
    show (handle x _).publication.revision = some hfRevision
    rw [hhandle]
    exact hrevision
  · intro hW hfinite
    obtain ⟨fuel, t, h⟩ := verifierMain_stops hW hfinite
    exact ⟨fuel, t, h, verifierMain_timely hW hfinite h⟩

/-! ### A Space that is accepted -/

def sampleRevision (c : Char) : Str := List.replicate 40 (chr c)

def sampleConfig : Config where
  repoId := lit "SZLHOLDINGS/llm-router-live"
  endpoint := lit "https://szlholdings-llm-router-live.hf.space"
  endpointHostname := lit "szlholdings-llm-router-live.hf.space"
  sourceRevision := sampleRevision 'c'
  token := lit "t"
  witnessTimeout := Binary64.ofInt 60
  pollInterval := Binary64.ofInt 1
  requestTimeout := Binary64.ofInt 5
  exact := by decide
  timeout_range := by decide +kernel
  poll_range := by decide +kernel
  request_range := by decide +kernel

/-- The record of `ls-tree` of one file. -/
def sampleRecord : Bytes :=
  (utf8 (lit "100644 blob " ++ sampleRevision 'd' ++ lit "\tspace/app.py")).getD []

/-- A checkout with one file. -/
def sampleCheckout (body : Bytes) : Checkout where
  rootIsSymlink := false
  rootIsDir := true
  spaceName := lit "space"
  parent := lit "/checkout"
  topLevel := some (lit "/checkout")
  head := some (sampleRevision 'c')
  status := some []
  entries := [(lit "app.py", .file)]
  bindingExists := false
  lsTree := some sampleRecord
  blob := fun _ => some body
  localFile := fun _ => some body

def jsonAnswer (url : Str) (v : Json) : Answer :=
  .response 200 url (lit "application/json") [(lit "Cache-Control", lit "no-store")]
    (((dumps indentDumps v).bind utf8).getD [])

def strings (fields : List (Str × Str)) : Dict := fields.map fun p => (p.1, .str p.2)

def reportedInfo (hfRevision : Str) : Json :=
  .obj (strings [(lit "sha", hfRevision), (lit "subdomain", lit "szlholdings-llm-router-live")])

def reportedStage (stage hfRevision : Str) : Json :=
  .obj (strings [(lit "stage", stage), (lit "sha", hfRevision)])

def reportedTree (paths : List Str) : Json :=
  .arr (paths.map fun path => .obj (strings [(lit "type", lit "file"), (lit "path", path)]))

def attestation (hfRevision : Str) : Json :=
  .obj (strings attestationFields ++ [(lit "observed_at", .str (lit "now")),
    (lit "source", .obj (strings (attestedSourceFields sampleConfig))),
    (lit "deployment", .obj (strings (attestedDeploymentFields sampleConfig hfRevision ++
      [(lit "measurement_method", lit "HUGGINGFACE_API")])))])

/-- A Space that runs the sample checkout at a revision. -/
def healthy (body : Bytes) (hfRevision : Str) : World where
  answer _ g :=
    if g.url = providerInfoUrl sampleConfig.repoId then jsonAnswer g.url (reportedInfo hfRevision)
    else if g.url = providerRuntimeUrl sampleConfig.repoId then
      jsonAnswer g.url (reportedStage (lit "RUNNING") hfRevision)
    else if g.url = treeUrl sampleConfig.repoId hfRevision then
      jsonAnswer g.url (reportedTree [lit "app.py", sourceBindingFilename])
    else if g.url = resolveUrl sampleConfig.repoId hfRevision (lit "app.py") then
      .response 200 g.url [] [] body
    else if g.url = resolveUrl sampleConfig.repoId hfRevision sourceBindingFilename then
      .response 200 g.url [] []
        (((sourceBinding sourceRepository sampleConfig.sourceRevision).bind jsonBytes).getD [])
    else if g.url = readinessUrl sampleConfig.endpoint (lit "n") then
      jsonAnswer g.url (.obj (strings readinessFields))
    else jsonAnswer g.url (attestation hfRevision)
  checkout _ := sampleCheckout body
  tokenHex _ := lit "n"
  utcNow _ := 0
  fromIsoFormat _ := .aware 0
  elapse _ clock := clock
  wake _ _ _ := Binary64.ofInt 100
  limitError _ := none
  limitError_flat _ _ _ _ := rfl

theorem clockwork_healthy (body : Bytes) (hfRevision : Str) :
    Clockwork (healthy body hfRevision) ((0 : Binary64).add (Binary64.ofInt 60)) where
  elapse _ c := .refl c
  wake_finite _ _ _ := (by decide +kernel : (Binary64.ofInt 100).isFinite = true)
  wake_advances _ c d hc hd := by
    show c.units + d.units ≤ (Binary64.ofInt 100).units
    have hd' := (Binary64.le_def.mp hd).2.2
    have hsum : ((0 : Binary64).add (Binary64.ofInt 60)).units + (Binary64.ofInt 30).units ≤
        (Binary64.ofInt 100).units := by decide +kernel
    omega
  deadline_finite := by decide +kernel

set_option maxRecDepth 100000 in
/-- The verifier accepts it, in one attempt. -/
theorem accepted_healthy :
    (verifierMain (healthy [] (sampleRevision 'a')) sampleConfig 1 0).map (·.evidence.verdict) =
      some .accepted := by
  decide +kernel

theorem acceptance_sound_healthy :
    (∃ t, verifierMain (healthy [] (sampleRevision 'a')) sampleConfig 1 0 = some t ∧
      ∃ number s reads snapshot hfRevision n,
        Begun (healthy [] (sampleRevision 'a')) sampleConfig
          (runDeadline (healthy [] (sampleRevision 'a')) sampleConfig 0)
          (firstState (healthy [] (sampleRevision 'a')) sampleConfig 0) number s ∧
        t.reads = s.reads ++ reads ∧ (∀ x ∈ t.reads, Answered (healthy [] (sampleRevision 'a')) x) ∧
        sourceSnapshot ((healthy [] (sampleRevision 'a')).checkout n) sampleConfig.sourceRevision =
          .ok snapshot ∧
        Accepting sampleConfig snapshot hfRevision reads ∧
        t.evidence.publication.revision = some hfRevision) ∧
    ∃ fuel t, verifierMain (healthy [] (sampleRevision 'a')) sampleConfig fuel 0 = some t ∧
      ∀ x ∈ t.reads, Timely (runDeadline (healthy [] (sampleRevision 'a')) sampleConfig 0) x := by
  obtain ⟨t, ht, hverdict⟩ := Option.map_eq_some_iff.mp accepted_healthy
  refine ⟨⟨t, ht,
    (acceptance_sound (healthy [] (sampleRevision 'a')) sampleConfig 0).1 1 t ht hverdict⟩,
    ?_⟩
  exact (acceptance_sound (healthy [] (sampleRevision 'a')) sampleConfig 0).2
    (clockwork_healthy _ _) (by decide +kernel)

end Drift

end SzlRouter
