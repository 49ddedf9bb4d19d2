/-
What a publish of the control Space can do, and what its receipt says of it.

The receipt on disk is read where the publisher ended, and it may have ended anywhere: at
an exception, or killed between two steps.

* `disk_honest` — what is on disk at any moment fits what was done until then: nothing was
  attempted where it says so, and what it calls measured had happened;
* `effects_guarded` — there is one upload, over the revision that was admitted, after the
  source was found protected, and after the receipt on disk said that it may happen;
* `main_exact` — what is published with exit code zero is what is rendered, and what every
  later publish admits.
-/
import SzlRouter.ControlSpaceAdmission
import SzlRouter.ControlSpacePublish
import SzlRouter.EventLog

namespace SzlRouter

namespace ControlSpace

open Py Procedure EventLog

/-! ### What a receipt tells -/

def blocked : Json := .str (lit "BLOCKED")
def notAttempted : Json := .str (lit "NOT_ATTEMPTED")
def unknown : Json := .str (lit "UNKNOWN")
def measured : Json := .str (lit "MEASURED")

/-- The outcomes that a receipt tells of. -/
structure Outcomes where
  status : Json
  write : Json
  creation : Json
  readback : Json
  published : Json
  card : Json
  control : Json

def outcomes (d : Dict) : Outcomes :=
  ⟨field d (lit "status"), field d (lit "write_outcome"), field d (lit "creation_outcome"),
    field d (lit "file_readback"), field d (lit "published_revision"),
    field d (lit "card_validation"), field d (lit "control_readiness")⟩

/-- The card among the files. -/
def cardOf (files : Tree) : Bytes := (Dict.get files readmeName).getD []

/-- The outcomes fit what was done: an outcome that was not attempted has no invocation, and one
that is measured has its check. -/
structure Told (revision : Str) (files : Tree) (log : List Effect) (o : Outcomes) : Prop where
  write : (o.write = notAttempted ∧ ∀ u, .uploadInvoked u ∉ log) ∨ o.write = unknown ∨
    (o.write = measured ∧ ∃ r, o.published = .str r ∧ .uploaded r ∈ log)
  creation : (o.creation = notAttempted ∧ .createInvoked ∉ log) ∨ o.creation = unknown ∨
    (o.creation = measured ∧ .created ∈ log)
  card : o.card = measured → .cardValidated (cardOf files) ∈ log
  readback : o.readback = measured → ∃ r, o.published = .str r ∧ .filesVerified r ∈ log
  control : o.control = measured → ∃ r, o.published = .str r ∧
    [.runtimeAligned r, .witnessed revision].Sublist log
  status : o.status = measured → ∃ r, o.published = .str r ∧
    [.uploaded r, .filesVerified r, .runtimeAligned r, .witnessed revision,
      .protectedMain revision].Sublist log

/-- The receipt that an effect puts on disk. -/
def written : Effect → Option Dict
  | .written d => some d
  | _ => none

/-- What may come after what was done. An upload has its admission, its protection and a receipt
on disk before it, and a creation comes before any upload. -/
def Allowed (revision : Str) (files : Tree) (done : List Effect) : Effect → Prop
  | .written d => Told revision files done (outcomes d)
  | .createInvoked => .createInvoked ∉ done ∧ (∀ u, .uploadInvoked u ∉ done) ∧
      ∃ before d, done = before ++ [.written d] ∧ (outcomes d).creation = unknown
  | .uploadInvoked u => (∀ u', .uploadInvoked u' ∉ done) ∧ u.files = files ∧
      ∃ before metadata d, (outcomes d).write = unknown ∧
        done = before ++ [.admitted u.parent metadata, .protectedMain revision, .written d]
  | _ => True

section told

variable {revision : Str} {files : Tree} {log : List Effect} {o : Outcomes} {e : Effect} {d : Dict}

/-- Only an invocation can belie a receipt, and only one that tells of no attempt. -/
theorem Told.concat (h : Told revision files log o)
    (hupload : ∀ u, e = .uploadInvoked u → o.write = unknown)
    (hcreate : e = .createInvoked → o.creation = unknown) : Told revision files (log ++ [e]) o := by
  have hmem : ∀ {x : Effect}, x ∈ log → x ∈ log ++ [e] := fun hx => List.mem_append_left _ hx
  refine ⟨?_, ?_, fun hm => hmem (h.card hm), ?_, ?_, ?_⟩
  -- of the upload, only its invocation can make the receipt wrong
  · rcases h.write with ⟨hna, hnone⟩ | hunknown | ⟨hm, r, hr, hdone⟩
    · by_cases hu : ∃ u, e = .uploadInvoked u
      · obtain ⟨u, hu⟩ := hu
        exact .inr (.inl (hupload u hu))
      · refine .inl ⟨hna, fun u hmem => ?_⟩
        rcases List.mem_append.mp hmem with hmem | hmem
        · exact hnone u hmem
        · exact hu ⟨u, (List.mem_singleton.mp hmem).symm⟩
    · exact .inr (.inl hunknown)
    · exact .inr (.inr ⟨hm, r, hr, hmem hdone⟩)
  -- and of the creation likewise
  · rcases h.creation with ⟨hna, hnone⟩ | hunknown | ⟨hm, hdone⟩
    · by_cases hc : e = .createInvoked
      · exact .inr (.inl (hcreate hc))
      · refine .inl ⟨hna, fun hmem => ?_⟩
        rcases List.mem_append.mp hmem with hmem | hmem
        · exact hnone hmem
        · exact hc (List.mem_singleton.mp hmem).symm
    · exact .inr (.inl hunknown)
    · exact .inr (.inr ⟨hm, hmem hdone⟩)
  · intro hm
    -- what was seen stays seen
    obtain ⟨r, hr, hdone⟩ := h.readback hm
    exact ⟨r, hr, hmem hdone⟩
  · intro hm
    obtain ⟨r, hr, hdone⟩ := h.control hm
    exact ⟨r, hr, hdone.trans (List.sublist_append_left _ _)⟩
  · intro hm
    obtain ⟨r, hr, hdone⟩ := h.status hm
    exact ⟨r, hr, hdone.trans (List.sublist_append_left _ _)⟩

/-- What is found on disk fits what was done, wherever the log ends. -/
theorem told_of_found (h : Always (Allowed revision files) log)
    (hfound : found written log = some d) : Told revision files log (outcomes d) := by
  refine h.honest (F := fun log d => Told revision files log (outcomes d)) ?_ ?_ hfound
  -- a receipt when it is written
  · intro log e d _ hallowed hrecord
    cases e with
    | written d' =>
      obtain rfl := Option.some.inj hrecord
      exact Told.concat hallowed (by simp) (by simp)
    | _ => cases hrecord
  -- and after every event since, of which only an invocation could make it wrong
  · intro log e d _ hallowed hrecord hfound htold
    refine htold.concat ?_ ?_
    · rintro u rfl
      obtain ⟨_, _, before, metadata, d', hunknown, rfl⟩ := hallowed
      have hlast : found written (before ++
          [.admitted u.parent metadata, .protectedMain revision] ++ [.written d']) = some d' :=
        found_record rfl
      rw [List.append_assoc] at hlast
      obtain rfl := Option.some.inj (hfound.symm.trans hlast)
      exact hunknown
    · rintro rfl
      obtain ⟨_, _, before, d', rfl, hunknown⟩ := hallowed
      obtain rfl := Option.some.inj (hfound.symm.trans (found_record rfl))
      exact hunknown

end told

/-! ### Receipts that change -/

theorem field_update {d e : Dict} {k : Str} (he : (Dict.keys e).Nodup) :
    field (Dict.update d e) k = (Dict.get e k).getD (field d k) := by
  cases h : Dict.get e k with
  | none =>
    rw [field, Dict.get_update_of_not_mem (Dict.get_eq_none.mp h)]
    rfl
  | some v =>
    rw [field, Dict.get_update_of_mem he ((Dict.get_eq_some he).mp h)]
    rfl

/-- The outcomes after a change, by the names of its members. -/
theorem outcomes_update {d e : Dict} (names : List String) (hkeys : Dict.keys e = names.map lit)
    (hnodup : (names.map lit).Nodup) :
    outcomes (Dict.update d e) = ⟨(Dict.get e (lit "status")).getD (outcomes d).status,
      (Dict.get e (lit "write_outcome")).getD (outcomes d).write,
      (Dict.get e (lit "creation_outcome")).getD (outcomes d).creation,
      (Dict.get e (lit "file_readback")).getD (outcomes d).readback,
      (Dict.get e (lit "published_revision")).getD (outcomes d).published,
      (Dict.get e (lit "card_validation")).getD (outcomes d).card,
      (Dict.get e (lit "control_readiness")).getD (outcomes d).control⟩ := by
  have he : (Dict.keys e).Nodup := hkeys ▸ hnodup
  simp only [outcomes, field_update he]

section updates

variable (d : Dict)

theorem outcomes_preflight (revision digest : Str) :
    outcomes (Dict.update d (preflightRecord revision digest)) =
      { outcomes d with status := blocked, write := notAttempted, creation := notAttempted } := by
  rw [outcomes_update ["schema", "status", "target", "endpoint", "source_repository",
    "source_revision", "image_digest", "image_reference", "phase", "write_outcome",
    "creation_outcome", "credential_value_recorded"] rfl (by decide)]
  rfl

theorem outcomes_card : outcomes (Dict.update d [text "card_validation" "MEASURED"]) =
    { outcomes d with card := measured } := by
  rw [outcomes_update ["card_validation"] rfl (by decide)]
  rfl

theorem outcomes_createRequested : outcomes (Dict.update d createRequested) =
    { outcomes d with creation := unknown } := by
  rw [outcomes_update ["phase", "creation_outcome"] rfl (by decide)]
  rfl

theorem outcomes_created : outcomes (Dict.update d createdRecord) =
    { outcomes d with creation := measured } := by
  rw [outcomes_update ["phase", "space_created", "creation_outcome"] rfl (by decide)]
  rfl

theorem outcomes_parent (parent : Str) (created : Bool) : outcomes (Dict.update d
    [(lit "parent_revision", .str parent), (lit "space_created", .bool created)]) = outcomes d := by
  rw [outcomes_update ["parent_revision", "space_created"] rfl (by decide)]
  rfl

theorem outcomes_uploadRequested : outcomes (Dict.update d uploadRequested) =
    { outcomes d with write := unknown } := by
  rw [outcomes_update ["phase", "write_outcome"] rfl (by decide)]
  rfl

theorem outcomes_uploaded (published : Str) (metadata : Bytes) :
    outcomes (Dict.update d (uploadedRecord published metadata)) =
      { outcomes d with write := measured, published := .str published } := by
  rw [outcomes_update ["phase", "published_revision", "write_outcome",
    "provider_metadata_sha256"] rfl (by decide)]
  rfl

theorem outcomes_files : outcomes (Dict.update d filesRecord) =
    { outcomes d with readback := measured } := by
  rw [outcomes_update ["phase", "file_readback"] rfl (by decide)]
  rfl

theorem outcomes_measured : outcomes (Dict.update d measuredRecord) =
    { outcomes d with status := measured, control := measured } := by
  rw [outcomes_update ["status", "phase", "provider_stage", "control_readiness", "inference",
    "inference_reason"] rfl (by decide)]
  rfl

theorem outcomes_failed (status : String) (code : Str) : outcomes (Dict.update d
    [text "status" status, (lit "failure_code", .str code)]) =
      { outcomes d with status := .str (lit status) } := by
  rw [outcomes_update ["status", "failure_code"] rfl (by decide)]
  rfl

end updates

/-! ### Steps that do nothing -/

/-- Nothing was done and the receipt is as it was. -/
def Still (s t : State) : Prop := t.log = s.log ∧ t.receipt = s.receipt

instance : IsPreorder State Still where
  refl _ := ⟨rfl, rfl⟩
  trans _ _ _ h h' := ⟨h'.1.trans h.1, h'.2.trans h.2⟩

section still

variable (W : World)

theorem still_ask {α : Type} (question : ℕ → α) : Moves Still (ask question) := fun _ => ⟨rfl, rfl⟩

theorem still_orRaise {α : Type} (x : Except Raised α) : Moves Still (orRaise x) := by
  cases x with
  | ok a => exact Moves.pure a
  | error e => exact Moves.throw e

theorem still_call {α : Type} (outcome : ℕ → Except Raised α) : Moves Still (call outcome) :=
  (still_ask outcome).bind still_orRaise

theorem still_unless {c : Prop} [Decidable c] {code : Str} {α β : Type} {f : β → Publisher α}
    {x : Publisher α} (h : Moves Still x) :
    Moves Still (if c then (fail code >>= f) else x) :=
  Moves.ite (fun _ => Moves.throw_bind _) fun _ => h

theorem still_git (args : List Str) : Moves Still (git W args) :=
  (still_ask _).bind fun _ => (still_orRaise _).bind fun _ => Moves.pure _

theorem still_requestJson (url : Str) (token : Option Str) (status : ℤ) (noStore : Bool) :
    Moves Still (requestJson W url token status noStore) :=
  (still_ask _).bind fun _ => (still_orRaise _).bind fun _ => still_orRaise _

theorem still_anonymousImageManifest (digest : Str) :
    Moves Still (anonymousImageManifest W digest) :=
  (still_orRaise _).bind fun _ => (still_requestJson W _ _ _ _).bind fun _ =>
    (still_orRaise _).bind fun _ => (still_ask _).bind fun _ => (still_orRaise _).bind fun _ =>
      still_orRaise _

theorem still_downloadBytes (name revision : Str) : Moves Still (downloadBytes W name revision) :=
  (still_call _).bind fun _ => still_unless (Moves.pure _)

theorem still_compareFiles (revision code : Str) (files : List (Str × List Bytes)) :
    Moves Still (compareFiles W revision code files) := by
  induction files with
  | nil => exact Moves.pure ()
  | cons p files ih => exact (still_downloadBytes W _ _).bind fun _ => still_unless ih

theorem still_verifyFiles (revision : Str) (expected : Tree) (metadata : Bytes) :
    Moves Still (verifyFiles W revision expected metadata) :=
  (still_call _).bind fun _ => still_unless
    ((still_compareFiles W _ _ _).bind fun _ => still_compareFiles W _ _ _)

theorem still_rejecting {α : Type} {catches : ProviderError → Bool} {code : Str}
    {x : Publisher α} (h : Moves Still x) : Moves Still (rejecting catches code x) := by
  intro s
  have hs := h s
  rw [Ensures] at hs ⊢
  rw [rejecting]
  cases hx : x s with
  | ok a t =>
    rw [hx] at hs
    exact hs
  | error e t =>
    rw [hx] at hs
    cases e with
    | provider e =>
      dsimp only
      split_ifs <;> exact hs
    | _ => exact hs

theorem still_downloadAll (revision : Str) (names : List Str) :
    Moves Still (downloadAll W revision names) := by
  induction names with
  | nil => exact Moves.pure []
  | cons name names ih =>
    exact (still_downloadBytes W _ _).bind fun _ => ih.bind fun _ => Moves.pure _

theorem still_compareDigests (digest : Str → Except Raised Json) (files : Tree) :
    Moves Still (compareDigests digest files) := by
  induction files with
  | nil => exact Moves.pure ()
  | cons p files ih =>
    exact (still_orRaise _).bind fun _ => Moves.ite (fun _ => Moves.throw_bind _) fun _ => ih

theorem still_recoverBootstrapMetadata (revision : Str) (observed : List Str) :
    Moves Still (recoverBootstrapMetadata W revision observed) :=
  (still_rejecting ((still_call _).bind fun _ => (still_orRaise _).bind fun _ =>
    (still_downloadAll W _ _).bind fun _ => (still_compareDigests _ _).bind fun _ =>
      Moves.pure _)).bind fun _ => Moves.pure _

theorem still_existingTargetAdmitted (artwork : Artwork) (revision : Str) :
    Moves Still (existingTargetAdmitted W artwork revision) :=
  (still_call _).bind fun _ => Moves.ite (fun _ => still_recoverBootstrapMetadata W _ _) fun _ =>
    still_unless ((still_rejecting (still_downloadBytes W _ _)).bind fun _ =>
      (still_orRaise _).bind fun _ => (still_orRaise _).bind fun _ =>
      (still_orRaise _).bind fun _ =>
        (still_compareFiles W _ _ _).bind fun _ => still_downloadBytes W _ _)

theorem still_newTargetMetadata (revision : Str) : Moves Still (newTargetMetadata W revision) :=
  (still_call _).bind fun _ => still_unless (still_downloadBytes W _ _)

theorem still_stillAt (published : Str) : Moves Still (stillAt W published) :=
  (still_call _).bind fun _ => (still_orRaise _).bind fun _ =>
    Moves.ite (fun _ => Moves.throw _) fun _ => Moves.pure _

theorem still_runtimeAligned (token published : Str) :
    Moves Still (runtimeAligned W token published) :=
  (still_requestJson W _ _ _ _).bind fun _ => still_orRaise _

theorem still_witness (source : Str) : Moves Still (witness W source) :=
  (still_ask _).bind fun _ => (still_requestJson W _ _ _ _).bind fun _ =>
    (still_requestJson W _ _ _ _).bind fun _ => (still_requestJson W _ _ _ _).bind fun _ =>
      Moves.ite (fun _ => Moves.throw _) fun _ => Moves.pure _

theorem still_writeFiles (files : Tree) : Moves Still (writeFiles W files) := by
  induction files with
  | nil => exact Moves.pure ()
  | cons p files ih => exact (still_call _).bind fun _ => ih

end still

/-! ### Steps that do something -/

/-- The log is one that may be, and the receipt in memory fits it. The receipt on disk is an
earlier one, which fits what was done until it was written and since. -/
structure Sound (revision : Str) (files : Tree) (s : State) : Prop where
  always : Always (Allowed revision files) s.log
  told : Told revision files s.log (outcomes s.receipt)

/-- A sound state, with the outcomes that its receipt tells of. -/
structure Phase (revision : Str) (files : Tree) (s : State) (o : Outcomes) : Prop where
  sound : Sound revision files s
  told : outcomes s.receipt = o

def NoUpload (log : List Effect) : Prop := ∀ u, .uploadInvoked u ∉ log

/-- Nothing that cannot be taken back was invoked. -/
def Untouched (log : List Effect) : Prop := .createInvoked ∉ log ∧ NoUpload log

section steps

variable {W : World} {revision : Str} {files : Tree} {s t : State} {o o' : Outcomes} {e : Effect}

theorem Sound.still (h : Sound revision files s) (hst : Still s t) : Sound revision files t :=
  ⟨hst.1.symm ▸ h.always, by rw [hst.1, hst.2]; exact h.told⟩

theorem Phase.still (h : Phase revision files s o) (hst : Still s t) : Phase revision files t o :=
  ⟨h.sound.still hst, hst.2.symm ▸ h.told⟩

theorem Phase.fits (h : Phase revision files s o) : Told revision files s.log o :=
  h.told ▸ h.sound.told

/-- A step that does nothing, in front of the rest. -/
theorem still_bind {α β : Type} {x : Publisher α} {f : α → Publisher β} {Q : β → State → Prop}
    (hx : Moves Still x) (hs : Sound revision files s)
    (hf : ∀ a t, x s = .ok a t → Still s t →
      Ensures (f a) t Q fun _ t => Sound revision files t) :
    Ensures (x >>= f) s Q fun _ t => Sound revision files t :=
  ((hx s).returns.mono_error fun _ _ h => hs.still h).bind fun a t h => hf a t h.2 h.1

theorem unless_ensures {c : Prop} [Decidable c] {code : Str} {α β : Type} {f : β → Publisher α}
    {x : Publisher α} {Q : α → State → Prop} (hs : Sound revision files s)
    (hx : ¬c → Ensures x s Q fun _ t => Sound revision files t) :
    Ensures (if c then (fail code >>= f) else x) s Q fun _ t => Sound revision files t := by
  by_cases hc : c
  · rw [if_pos hc]
    exact hs
  · rw [if_neg hc]
    exact hx hc

/-- An effect that is no invocation is noted. -/
theorem note_phase (h : Phase revision files s o) (hallowed : Allowed revision files s.log e)
    (hupload : ∀ u, e = .uploadInvoked u → o.write = unknown)
    (hcreate : e = .createInvoked → o.creation = unknown) {E : Raised → State → Prop} :
    Ensures (note e) s (fun _ t => Phase revision files t o ∧ t.log = s.log ++ [e] ∧
      t.receipt = s.receipt) E := by
  refine ⟨⟨⟨always_concat.mpr ⟨h.sound.always, hallowed⟩, ?_⟩, h.told⟩, rfl, rfl⟩
  show Told revision files (s.log ++ [e]) (outcomes s.receipt)
  rw [h.told]
  exact h.fits.concat hupload hcreate

/-- The receipt changes in memory, which is sound already, and then on disk. -/
theorem record_phase {changes : Dict} (hs : Sound revision files s)
    (ho : outcomes (Dict.update s.receipt changes) = o) (htold : Told revision files s.log o) :
    Ensures (record W changes) s
      (fun _ t => Phase revision files t o ∧ t.log = s.log ++ [.written t.receipt])
      fun _ t => Sound revision files t := by
  have hchanged : Sound revision files { s with receipt := Dict.update s.receipt changes } :=
    ⟨hs.always, by rw [ho]; exact htold⟩
  show Ensures (call _ >>= _) { s with receipt := Dict.update s.receipt changes } _ _
  refine still_bind (still_call _) hchanged fun _ t _ hst => ?_
  have ht : Phase revision files t o := ⟨hchanged.still hst, by rw [hst.2]; exact ho⟩
  show Ensures (note (.written (Dict.update s.receipt changes))) t _ _
  have hallowed : Allowed revision files t.log (.written (Dict.update s.receipt changes)) := by
    show Told revision files t.log _
    rw [ho]
    exact ht.fits
  refine (note_phase ht hallowed (by simp) (by simp)).mono (fun _ u hu => ?_) fun _ _ h => h
  obtain ⟨hphase, hlog, hreceipt⟩ := hu
  rw [hst.1] at hlog
  rw [hst.2] at hreceipt
  exact ⟨hphase, by rw [hlog, hreceipt]⟩

/-- Notes of facts, which are always allowed. -/
theorem fact_phase (h : Phase revision files s o) (hallowed : Allowed revision files s.log e)
    (hupload : ∀ u, e ≠ .uploadInvoked u) (hcreate : e ≠ .createInvoked)
    {E : Raised → State → Prop} : Ensures (note e) s (fun _ t => Phase revision files t o ∧
      t.log = s.log ++ [e] ∧ t.receipt = s.receipt) E :=
  note_phase h hallowed (fun u he => absurd he (hupload u)) fun he => absurd he hcreate

theorem requireProtectedMain_ensures (h : Phase revision files s o) (source : Str) :
    Ensures (requireProtectedMain W source) s
      (fun _ t => Phase revision files t o ∧ t.log = s.log ++ [.protectedMain source] ∧
        t.receipt = s.receipt)
      fun _ t => Sound revision files t := by
  have hlater : ∀ {t u : State}, Still s t → Still t u → Still s u :=
    fun h h' => trans_of Still h h'
  rw [requireProtectedMain]
  refine still_bind (still_orRaise _) h.sound fun _ t₁ _ h₁ => ?_
  refine still_bind (still_ask _) (h.sound.still h₁) fun _ t₂ _ h₂ => ?_
  have h₂ := hlater h₁ h₂
  refine unless_ensures (h.sound.still h₂) fun _ => ?_
  refine still_bind (still_git W _) (h.sound.still h₂) fun _ t₃ _ h₃ => ?_
  have h₃ := hlater h₂ h₃
  refine unless_ensures (h.sound.still h₃) fun _ => ?_
  refine still_bind (still_git W _) (h.sound.still h₃) fun _ t₄ _ h₄ => ?_
  have h₄ := hlater h₃ h₄
  refine unless_ensures (h.sound.still h₄) fun _ => ?_
  refine still_bind (still_git W _) (h.sound.still h₄) fun _ t₅ _ h₅ => ?_
  have h₅ := hlater h₄ h₅
  refine unless_ensures (h.sound.still h₅) fun _ => ?_
  -- all five questions were answered as they should be, and only then it is noted
  refine (fact_phase (e := .protectedMain source) (h.still h₅) trivial (by simp)
    (by simp)).mono (fun _ u hu => ?_) fun _ _ h => h
  exact ⟨hu.1, h₅.1 ▸ hu.2.1, h₅.2 ▸ hu.2.2⟩

/-! ### The parts of a publish -/

theorem NoUpload.concat {log : List Effect} (h : NoUpload log)
    (hupload : ∀ u, e ≠ .uploadInvoked u) :
    NoUpload (log ++ [e]) := by
  intro u
  rw [List.mem_append, List.mem_singleton, not_or]
  exact ⟨h u, (hupload u).symm⟩

theorem Untouched.concat {log : List Effect} (h : Untouched log)
    (hupload : ∀ u, e ≠ .uploadInvoked u)
    (hcreate : e ≠ .createInvoked) : Untouched (log ++ [e]) := by
  refine ⟨?_, NoUpload.concat h.2 hupload⟩
  rw [List.mem_append, List.mem_singleton, not_or]
  exact ⟨h.1, hcreate.symm⟩

/-- The outcomes before anything was checked. -/
def atFirst : Outcomes := ⟨blocked, notAttempted, notAttempted, .null, .null, .null, .null⟩

/-- The outcomes before the upload was asked for. -/
def idle (creation : Json) : Outcomes :=
  ⟨blocked, notAttempted, creation, .null, .null, measured, .null⟩

theorem told_atFirst {log : List Effect} (h : Untouched log) :
    Told revision files log atFirst where
  write := .inl ⟨rfl, h.2⟩
  creation := .inl ⟨rfl, h.1⟩
  card hm := absurd hm (by simp [atFirst, measured])
  readback hm := absurd hm (by simp [atFirst, measured])
  control hm := absurd hm (by simp [atFirst, measured])
  status hm := absurd hm (by show blocked ≠ measured; decide)

theorem told_idle {log : List Effect} {creation : Json} (hupload : NoUpload log)
    (hcard : .cardValidated (cardOf files) ∈ log)
    (hcreation : (creation = notAttempted ∧ .createInvoked ∉ log) ∨ creation = unknown ∨
      (creation = measured ∧ .created ∈ log)) : Told revision files log (idle creation) where
  write := .inl ⟨rfl, hupload⟩
  creation := hcreation
  card _ := hcard
  readback hm := absurd hm (by simp [idle, measured])
  control hm := absurd hm (by simp [idle, measured])
  status hm := absurd hm (by show blocked ≠ measured; decide)

theorem validateCard_ensures {readme : Bytes} (h : Phase revision files s o) :
    Ensures (validateCard W readme) s
      (fun _ t => Phase revision files t o ∧ t.log = s.log ++ [.cardValidated readme])
      fun _ t => Sound revision files t := by
  rw [validateCard]
  refine still_bind (still_call _) h.sound fun _ t₁ _ h₁ => ?_
  refine still_bind (still_orRaise _) (h.sound.still h₁) fun _ t₂ _ h₂ => ?_
  have h₂ : Still s t₂ := trans_of Still h₁ h₂
  refine still_bind (still_ask _) (h.sound.still h₂) fun _ t₃ _ h₃ => ?_
  have h₃ : Still s t₃ := trans_of Still h₂ h₃
  refine still_bind (still_orRaise _) (h.sound.still h₃) fun _ t₄ _ h₄ => ?_
  have h₄ : Still s t₄ := trans_of Still h₃ h₄
  refine (fact_phase (e := .cardValidated readme) (h.still h₄) trivial (by simp)
    (by simp)).mono (fun _ u hu => ?_) fun _ _ h => h
  exact ⟨hu.1, h₄.1 ▸ hu.2.1⟩

/-- Before the Hub is asked: the files are those that are rendered, and their card was
validated. -/
theorem preflight_ensures {artwork : Artwork} {token digest : Str}
    (hfiles : files = rendered (card artwork revision digest) revision digest)
    (h : Phase revision files s atFirst) (huntouched : Untouched s.log) :
    Ensures (preflight W artwork token revision digest) s
      (fun expected t => Phase revision files t (idle notAttempted) ∧ Untouched t.log ∧
        isSha revision = true ∧ isDigest digest = true ∧ expected = files)
      fun _ t => Sound revision files t := by
  rw [preflight]
  have hfirst : outcomes (Dict.update s.receipt (preflightRecord revision digest)) = atFirst := by
    rw [outcomes_preflight, h.told]
    rfl
  refine (record_phase h.sound hfirst (told_atFirst huntouched)).bind fun _ t₁ h₁ => ?_
  obtain ⟨hphase₁, hlog₁⟩ := h₁
  have hun₁ : Untouched t₁.log := hlog₁ ▸ huntouched.concat (by simp) (by simp)
  refine unless_ensures hphase₁.sound fun _ => ?_
  refine still_bind (still_orRaise _) hphase₁.sound fun expected t₂ hexpected h₂ => ?_
  obtain ⟨r, d, hr, hd, hsha, hdigest, hrendered⟩ :=
    spaceFiles_eq_ok.mp (((orRaise_answers _) t₁ expected).mp ⟨t₂, hexpected⟩)
  obtain rfl := Json.str.inj hr
  obtain rfl := Json.str.inj hd
  obtain rfl : expected = files := hrendered.trans hfiles.symm
  refine (requireProtectedMain_ensures (hphase₁.still h₂) revision).bind fun _ t₃ h₃ => ?_
  obtain ⟨hphase₃, hlog₃, _⟩ := h₃
  have hun₃ : Untouched t₃.log := by
    rw [hlog₃, h₂.1]
    exact hun₁.concat (by simp) (by simp)
  refine still_bind (still_anonymousImageManifest W _) hphase₃.sound fun _ t₄ _ h₄ => ?_
  have hun₄ : Untouched t₄.log := h₄.1 ▸ hun₃
  refine (validateCard_ensures (hphase₃.still h₄)).bind fun _ t₅ h₅ => ?_
  obtain ⟨hphase₅, hlog₅⟩ := h₅
  have hun₅ : Untouched t₅.log := hlog₅ ▸ hun₄.concat (by simp) (by simp)
  have hvalid : .cardValidated (cardOf expected) ∈ t₅.log :=
    hlog₅ ▸ List.mem_append_right _ (List.mem_singleton_self _)
  -- the receipt calls the card measured after the library has seen it
  have hcard : outcomes (Dict.update t₅.receipt [text "card_validation" "MEASURED"]) =
      idle notAttempted := by
    rw [outcomes_card, hphase₅.told]
    rfl
  refine (record_phase hphase₅.sound hcard
    (told_idle hun₅.2 hvalid (.inl ⟨rfl, hun₅.1⟩))).bind fun _ t₆ h₆ => ?_
  obtain ⟨hphase₆, hlog₆⟩ := h₆
  refine still_bind (still_call _) hphase₆.sound fun _ t₇ _ h₇ => Ensures.pure ?_
  refine ⟨hphase₆.still h₇, ?_, hsha, hdigest, rfl⟩
  rw [h₇.1, hlog₆]
  exact hun₅.concat (by simp) (by simp)

theorem findOrCreate_ensures (h : Phase revision files s (idle notAttempted))
    (huntouched : Untouched s.log) :
    Ensures (findOrCreate W) s
      (fun _ t => NoUpload t.log ∧ ∃ creation, Phase revision files t (idle creation))
      fun _ t => Sound revision files t := by
  rw [findOrCreate]
  refine still_bind (still_ask _) h.sound fun answer t₁ _ h₁ => ?_
  have hphase₁ := h.still h₁
  have hun₁ : Untouched t₁.log := h₁.1 ▸ huntouched
  cases answer with
  | ok before => exact Ensures.pure ⟨hun₁.2, _, hphase₁⟩
  | error e =>
    cases e with
    | provider e =>
      cases hstatus : e.notFound with
      | none =>
        simp only [hstatus]
        exact Ensures.throw hphase₁.sound
      | some status =>
        simp only [hstatus]
        refine unless_ensures hphase₁.sound fun _ => ?_
        -- the receipt on disk tells of the creation before it is asked for
        have hrequested : outcomes (Dict.update t₁.receipt createRequested) = idle unknown := by
          rw [outcomes_createRequested, hphase₁.told]
          rfl
        refine (record_phase hphase₁.sound hrequested
          (told_idle hun₁.2 (hphase₁.fits.card rfl) (.inr (.inl rfl)))).bind fun _ t₂ h₂ => ?_
        obtain ⟨hphase₂, hlog₂⟩ := h₂
        have hun₂ : Untouched t₂.log := hlog₂ ▸ hun₁.concat (by simp) (by simp)
        refine (note_phase (e := .createInvoked) hphase₂ ⟨hun₂.1, hun₂.2, _, _, hlog₂,
          by rw [hphase₂.told]; rfl⟩ (by simp) fun _ => rfl).bind fun _ t₃ h₃ => ?_
        obtain ⟨hphase₃, hlog₃, _⟩ := h₃
        have hnone₃ : NoUpload t₃.log := hlog₃ ▸ hun₂.2.concat (by simp)
        refine still_bind (still_call _) hphase₃.sound fun _ t₄ _ h₄ => ?_
        have hphase₄ := hphase₃.still h₄
        refine (fact_phase (e := .created) hphase₄ trivial (by simp) (by simp)).bind
          fun _ t₅ h₅ => ?_
        obtain ⟨hphase₅, hlog₅, _⟩ := h₅
        have hnone₅ : NoUpload t₅.log := hlog₅ ▸ h₄.1 ▸ hnone₃.concat (by simp)
        have hcreated : outcomes (Dict.update t₅.receipt createdRecord) = idle measured := by
          rw [outcomes_created, hphase₅.told]
          rfl
        have hmem : .created ∈ t₅.log := hlog₅ ▸ List.mem_append_right _ (List.mem_singleton_self _)
        refine (record_phase hphase₅.sound hcreated
          (told_idle hnone₅ (hphase₅.fits.card rfl) (.inr (.inr ⟨rfl, hmem⟩)))).bind
            fun _ t₆ h₆ => ?_
        obtain ⟨hphase₆, hlog₆⟩ := h₆
        refine still_bind (still_call _) hphase₆.sound fun _ t₇ _ h₇ => Ensures.pure ?_
        refine ⟨?_, _, hphase₆.still h₇⟩
        rw [h₇.1, hlog₆]
        exact hnone₅.concat (by simp)
    | _ => exact Ensures.throw hphase₁.sound

/-- The metadata is what was read of the parent when it was admitted. -/
def MetadataOf (W : World) (artwork : Artwork) (parent : Str) (metadata : Bytes) : Prop :=
  ∃ s t, existingTargetAdmitted W artwork parent s = .ok metadata t ∨
    newTargetMetadata W parent s = .ok metadata t

/-- The files at the revision were compared with those that were rendered. -/
def Verified (W : World) (files : Tree) (metadata : Bytes) (published : Str) : Prop :=
  ∃ s t, verifyFiles W published files metadata s = .ok () t

theorem admit_ensures {artwork : Artwork} {before : RepoInfo} {created : Bool} {creation : Json}
    (h : Phase revision files s (idle creation)) (hnone : NoUpload s.log) :
    Ensures (admitTarget W artwork before created) s
      (fun target t => Phase revision files t (idle creation) ∧ NoUpload t.log ∧
        MetadataOf W artwork target.1 target.2 ∧ ∃ q, t.log = q ++ [.admitted target.1 target.2])
      fun _ t => Sound revision files t := by
  rw [admitTarget]
  refine still_bind (still_orRaise _) h.sound fun parent t₁ _ h₁ => ?_
  have hphase₁ := h.still h₁
  have hnone₁ : NoUpload t₁.log := h₁.1 ▸ hnone
  have hparent : outcomes (Dict.update t₁.receipt
      [(lit "parent_revision", .str parent), (lit "space_created", .bool created)]) =
        idle creation := by
    rw [outcomes_parent, hphase₁.told]
  refine (record_phase hphase₁.sound hparent hphase₁.fits).bind fun _ t₂ h₂ => ?_
  obtain ⟨hphase₂, hlog₂⟩ := h₂
  have hnone₂ : NoUpload t₂.log := hlog₂ ▸ hnone₁.concat (by simp)
  refine unless_ensures hphase₂.sound fun _ => ?_
  refine still_bind (still_call _) hphase₂.sound fun _ t₃ _ h₃ => ?_
  have hphase₃ := hphase₂.still h₃
  have hnone₃ : NoUpload t₃.log := h₃.1 ▸ hnone₂
  -- either way the target is noted as admitted, with the metadata that was found
  have hnoted : ∀ metadata t₄, Still t₃ t₄ → MetadataOf W artwork parent metadata → Ensures (do
      note (.admitted parent metadata)
      return (parent, metadata)) t₄
      (fun target t => Phase revision files t (idle creation) ∧ NoUpload t.log ∧
        MetadataOf W artwork target.1 target.2 ∧ ∃ q, t.log = q ++ [.admitted target.1 target.2])
      fun _ t => Sound revision files t := by
    intro metadata t₄ h₄ hof
    refine (fact_phase (e := .admitted parent metadata) (hphase₃.still h₄) trivial (by simp)
      (by simp)).bind fun _ t₅ h₅ => Ensures.pure ?_
    obtain ⟨hphase₅, hlog₅, _⟩ := h₅
    exact ⟨hphase₅, hlog₅ ▸ NoUpload.concat (h₄.1 ▸ hnone₃) (by simp), hof, _, hlog₅⟩
  -- a new Space has the metadata of its creation, an existing one is compared with what is rendered
  cases created with
  | true =>
    exact still_bind (still_newTargetMetadata W _) hphase₃.sound fun metadata t₄ hmeta h₄ =>
      hnoted metadata t₄ h₄ ⟨t₃, t₄, .inr hmeta⟩
  | false =>
    exact still_bind (still_existingTargetAdmitted W _ _) hphase₃.sound fun metadata t₄ hmeta h₄ =>
      hnoted metadata t₄ h₄ ⟨t₃, t₄, .inl hmeta⟩

/-- The outcomes after the upload was asked for. -/
def asked (creation : Json) : Outcomes :=
  ⟨blocked, unknown, creation, .null, .null, measured, .null⟩

/-- The outcomes after the upload. -/
def sent (creation : Json) (published : Str) : Outcomes :=
  ⟨blocked, measured, creation, .null, .str published, measured, .null⟩

/-- The outcomes after the files were read back. -/
def checked (creation : Json) (published : Str) : Outcomes :=
  ⟨blocked, measured, creation, measured, .str published, measured, .null⟩

/-- The cleanup of a block leaves what was done and recorded in it. -/
theorem leaving_ensures {α : Type} {cleanup : Publisher Unit} {x : Publisher α}
    {Q : α → State → Prop} (hcleanup : Moves Still cleanup)
    (hx : Ensures x s Q fun _ t => Sound revision files t)
    (hQ : ∀ a t u, Q a t → Still t u → Q a u) (hsound : ∀ a t, Q a t → Sound revision files t) :
    Ensures (leaving cleanup x) s Q fun _ t => Sound revision files t := by
  rw [Ensures, leaving]
  rw [Ensures] at hx
  cases hxs : x s with
  | ok a t =>
    rw [hxs] at hx
    have hfinal : Ensures (cleanup >>= fun _ => pure a) t Q fun _ u => Sound revision files u :=
      still_bind hcleanup (hsound a t hx) fun _ u _ hu => Ensures.pure (hQ a t u hx hu)
    exact hfinal
  | error e t =>
    rw [hxs] at hx
    have hfinal : Ensures (cleanup >>= fun _ => throw e) t Q fun _ u => Sound revision files u :=
      still_bind hcleanup hx fun _ u _ hu => Ensures.throw (hx.still hu)
    exact hfinal

theorem upload_ensures {u : Upload} {creation : Json} {metadata : Bytes}
    (h : Phase revision files s (idle creation)) (hnone : NoUpload s.log) (hfiles : u.files = files)
    (hlog : ∃ q, s.log = q ++ [.admitted u.parent metadata, .protectedMain revision]) :
    Ensures (upload W u) s
      (fun published t => Phase revision files t (asked creation) ∧
        .uploaded published ∈ t.log ∧ s.log ⊆ t.log)
      fun _ t => Sound revision files t := by
  obtain ⟨q, hlog⟩ := hlog
  rw [upload]
  refine still_bind (still_call _) h.sound fun _ t₁ _ h₁ => ?_
  refine (leaving_ensures (Q := fun _ t => Phase revision files t (asked creation) ∧ s.log ⊆ t.log)
    (still_call _) ?_ (fun _ _ _ hQ hst => ⟨hQ.1.still hst, hst.1.symm ▸ hQ.2⟩)
    fun _ _ hQ => hQ.1.sound).bind ?_
  · refine still_bind (still_writeFiles W _) (h.sound.still h₁) fun _ t₂ _ h₂ => ?_
    have h₂ : Still s t₂ := trans_of Still h₁ h₂
    have hphase₂ := h.still h₂
    have hnone₂ : NoUpload t₂.log := h₂.1 ▸ hnone
    -- the receipt says that the write may have happened before it is invoked
    have hrequested : outcomes (Dict.update t₂.receipt uploadRequested) = asked creation := by
      rw [outcomes_uploadRequested, hphase₂.told]
      rfl
    refine (record_phase hphase₂.sound hrequested
      { hphase₂.fits with write := .inr (.inl rfl) }).bind fun _ t₃ h₃ => ?_
    obtain ⟨hphase₃, hlog₃⟩ := h₃
    have hnone₃ : NoUpload t₃.log := hlog₃ ▸ hnone₂.concat (by simp)
    -- what stands right before the invocation in the log
    have hbefore : t₃.log =
        q ++ [.admitted u.parent metadata, .protectedMain revision, .written t₃.receipt] := by
      rw [hlog₃, h₂.1, hlog, List.append_assoc]
      rfl
    refine (note_phase (e := .uploadInvoked u) hphase₃ ⟨hnone₃, hfiles, q, metadata, _,
      by rw [hphase₃.told]; rfl, hbefore⟩ (fun _ _ => rfl) (by simp)).bind fun _ t₄ h₄ => ?_
    obtain ⟨hphase₄, hlog₄, _⟩ := h₄
    have hsub : s.log ⊆ t₄.log := by
      rw [hlog₄, hlog₃, h₂.1, List.append_assoc]
      exact List.subset_append_left _ _
    exact (still_call _ t₄).mono (fun _ _ hst => ⟨hphase₄.still hst, hst.1.symm ▸ hsub⟩)
      fun _ _ hst => hphase₄.sound.still hst
  -- the upload returned, and the revision it made is noted
  · rintro oid t₅ ⟨hphase₅, hsub₅⟩
    refine still_bind (still_orRaise _) hphase₅.sound fun published t₆ _ h₆ => ?_
    refine (fact_phase (e := .uploaded published) (hphase₅.still h₆) trivial (by simp)
      (by simp)).bind fun _ t₇ h₇ => Ensures.pure ?_
    obtain ⟨hphase₇, hlog₇, _⟩ := h₇
    rw [h₆.1] at hlog₇
    refine ⟨hphase₇, hlog₇ ▸ List.mem_append_right _ (List.mem_singleton_self _), ?_⟩
    exact hlog₇ ▸ List.subset_append_of_subset_left _ hsub₅

/-- A failure that is tolerated leaves the state it left. -/
theorem tolerating_ensures {α : Type} {a : α} {x : Publisher α} {Q : α → State → Prop}
    (hx : Ensures x s Q fun _ t => Q a t) (hsound : ∀ t, Q a t → Sound revision files t) :
    Ensures (tolerating a x) s Q fun _ t => Sound revision files t := by
  rw [Ensures, tolerating]
  rw [Ensures] at hx
  cases hxs : x s with
  | ok b t =>
    rw [hxs] at hx
    exact hx
  | error e t =>
    rw [hxs] at hx
    cases e with
    | control code =>
      dsimp only
      split_ifs
      · exact hx
      · exact hsound t hx
    | _ => exact hsound t hx

/-- A round adds to what was done; one that returns `true` has just seen the runtime. -/
def Round (revision : Str) (files : Tree) (o : Outcomes) (published : Str) (s : State)
    (aligned : Bool) (t : State) : Prop :=
  Phase revision files t o ∧ s.log.Sublist t.log ∧ (aligned = true →
    (s.log ++ [Effect.runtimeAligned published, .witnessed revision]).Sublist t.log)

theorem round_ensures {token published : Str} (h : Phase revision files s o) :
    Ensures (round W token revision published) s (Round revision files o published s)
      fun _ t => Sound revision files t := by
  rw [round]
  refine still_bind (still_stillAt W _) h.sound fun _ t₁ _ h₁ => ?_
  have hphase₁ := h.still h₁
  refine (tolerating_ensures (Q := fun _ t => Still t₁ t)
      (still_runtimeAligned W token published t₁)
    fun t ht => hphase₁.sound.still ht).bind fun aligned t₂ h₂ => ?_
  have h₂ : Still s t₂ := trans_of Still h₁ h₂
  have hphase₂ := h.still h₂
  -- a round that finds the runtime unaligned adds nothing
  cases aligned with
  | false =>
    exact Ensures.pure
      ⟨hphase₂, h₂.1 ▸ List.Sublist.refl _, fun hfalse => absurd hfalse (by decide)⟩
  | true =>
    refine (fact_phase (e := .runtimeAligned published) hphase₂ trivial (by simp)
      (by simp)).bind fun _ t₃ h₃ => ?_
    obtain ⟨hphase₃, hlog₃, _⟩ := h₃
    rw [h₂.1] at hlog₃
    refine tolerating_ensures ?_ fun t ht => ht.1.sound
    -- a witness that fails is tolerated, and the round ends without one
    have hstill : ∀ {t : State}, Still t₃ t → Round revision files o published s false t := by
      intro t ht
      refine ⟨hphase₃.still ht, ?_, fun hfalse => absurd hfalse (by decide)⟩
      rw [ht.1, hlog₃]
      exact List.sublist_append_left _ _
    refine ((still_witness W revision t₃).mono_error fun _ _ ht => hstill ht).bind
      fun _ t₄ h₄ => ?_
    refine (fact_phase (e := .witnessed revision) (hphase₃.still h₄) trivial (by simp)
      (by simp)).bind fun _ t₅ h₅ => Ensures.pure ?_
    obtain ⟨hphase₅, hlog₅, _⟩ := h₅
    have hlog : t₅.log = s.log ++ [.runtimeAligned published, .witnessed revision] := by
      rw [hlog₅, h₄.1, hlog₃, List.append_assoc]
      rfl
    exact ⟨hphase₅, hlog ▸ List.sublist_append_left _ _, fun _ => hlog ▸ List.Sublist.refl _⟩

theorem awaitRuntime_ensures {token published : Str} {deadline : Binary64} {fuel : ℕ}
    (h : Phase revision files s o) :
    Ensures (awaitRuntime W token revision published deadline fuel) s
      (fun _ t => Round revision files o published s true t) fun _ t => Sound revision files t := by
  -- by induction on the fuel, one round after another
  induction fuel generalizing s with
  | zero => exact Ensures.throw h.sound
  | succ fuel ih =>
    rw [awaitRuntime]
    refine (round_ensures h).bind fun aligned t₁ h₁ => ?_
    obtain ⟨hphase₁, hlog₁, haligned⟩ := h₁
    cases aligned with
    | true => exact Ensures.pure ⟨hphase₁, hlog₁, haligned⟩
    | false =>
      refine still_bind (still_ask _) hphase₁.sound fun now t₂ _ h₂ => ?_
      refine unless_ensures (hphase₁.sound.still h₂) fun _ => ?_
      refine still_bind (still_ask _) (hphase₁.sound.still h₂) fun now t₃ _ h₃ => ?_
      have h₃ : Still t₁ t₃ := trans_of Still h₂ h₃
      refine still_bind (still_call _) (hphase₁.sound.still h₃) fun _ t₄ _ h₄ => ?_
      have h₄ : Still t₁ t₄ := trans_of Still h₃ h₄
      refine (ih (hphase₁.still h₄)).mono (fun _ u hu => ?_) fun _ _ h => h
      obtain ⟨hphase, hlog, hlast⟩ := hu
      rw [h₄.1] at hlog hlast
      exact ⟨hphase, hlog₁.trans hlog, fun htrue =>
        (hlog₁.append_right _).trans (hlast htrue)⟩

/-- What was published: the source is a revision, its image a digest, and the files at the
published revision were compared with what is rendered for them. -/
def Published (W : World) (artwork : Artwork) (revision digest : Str) (files : Tree) (t : State) :
    Prop :=
  isSha revision = true ∧ isDigest digest = true ∧ ∃ parent metadata published,
    .admitted parent metadata ∈ t.log ∧ (outcomes t.receipt).published = .str published ∧
      MetadataOf W artwork parent metadata ∧ Verified W files metadata published

/-- After the readback, the upload and the check of its files are in the log, in this order. -/
theorem confirmFiles_ensures {published : Str} {metadata : Bytes} {creation : Json}
    (h : Phase revision files s (asked creation)) (hmem : .uploaded published ∈ s.log) :
    Ensures (confirmFiles W published files metadata) s
      (fun _ t => Phase revision files t (checked creation published) ∧ s.log.Sublist t.log ∧
        [Effect.uploaded published, .filesVerified published].Sublist t.log ∧
        Verified W files metadata published)
      fun _ t => Sound revision files t := by
  rw [confirmFiles]
  -- the receipt names the published revision once the upload has returned
  have hsent : outcomes (Dict.update s.receipt (uploadedRecord published metadata)) =
      sent creation published := by
    rw [outcomes_uploaded, h.told]
    rfl
  have hfits := h.fits
  refine (record_phase h.sound hsent ⟨.inr (.inr ⟨rfl, published, rfl, hmem⟩), hfits.creation,
    hfits.card, fun hm => absurd hm (by simp [sent, measured]),
    fun hm => absurd hm (by simp [sent, measured]),
    fun hm => absurd hm (by show blocked ≠ measured; decide)⟩).bind fun _ t₁ h₁ => ?_
  obtain ⟨hphase₁, hlog₁⟩ := h₁
  refine still_bind (still_stillAt W _) hphase₁.sound fun _ t₂ _ h₂ => ?_
  refine still_bind (still_verifyFiles W _ _ _) (hphase₁.sound.still h₂) fun _ t₃ hverified h₃ => ?_
  have h₃ : Still t₁ t₃ := trans_of Still h₂ h₃
  refine (fact_phase (e := .filesVerified published) (hphase₁.still h₃) trivial (by simp)
    (by simp)).bind fun _ t₄ h₄ => ?_
  obtain ⟨hphase₄, hlog₄, _⟩ := h₄
  have hsub₃ : s.log.Sublist t₃.log := by
    rw [h₃.1, hlog₁]
    exact List.sublist_append_left _ _
  have hpair : [Effect.uploaded published, .filesVerified published].Sublist t₄.log := by
    rw [hlog₄]
    exact (List.singleton_sublist.mpr (hsub₃.subset hmem)).append_right _
  -- the readback is recorded after the files were compared
  have hchecked : outcomes (Dict.update t₄.receipt filesRecord) = checked creation published := by
    rw [outcomes_files, hphase₄.told]
    rfl
  refine (record_phase hphase₄.sound hchecked { hphase₄.fits with
    readback := fun _ => ⟨published, rfl, hpair.subset (by simp)⟩ }).mono
      (fun _ t ht => ?_) fun _ _ h => h
  obtain ⟨hphase, hlog⟩ := ht
  have hsub : t₄.log.Sublist t.log := hlog ▸ List.sublist_append_left _ _
  refine ⟨hphase, (hsub₃.trans ?_).trans hsub, hpair.trans hsub, t₂, t₃, hverified⟩
  rw [hlog₄]
  exact List.sublist_append_left _ _

/-- After the witness of the runtime, every check that the status rests on is in the log. -/
theorem confirmRuntime_ensures {fuel : ℕ} {token published : Str} {timeout : Binary64}
    {creation : Json} (h : Phase revision files s (checked creation published))
    (hpair : [Effect.uploaded published, .filesVerified published].Sublist s.log) :
    Ensures (confirmRuntime W fuel token revision published timeout) s
      (fun _ t => Sound revision files t ∧ s.log.Sublist t.log ∧
        (outcomes t.receipt).published = .str published)
      fun _ t => Sound revision files t := by
  rw [confirmRuntime]
  refine still_bind (still_ask _) h.sound fun _ t₁ _ h₁ => ?_
  refine (awaitRuntime_ensures (h.still h₁)).bind fun _ t₂ h₂ => ?_
  obtain ⟨hphase₂, hsub₂, hround⟩ := h₂
  have hround := hround rfl
  rw [h₁.1] at hsub₂ hround
  refine (requireProtectedMain_ensures hphase₂ revision).bind fun _ t₃ h₃ => ?_
  obtain ⟨hphase₃, hlog₃, _⟩ := h₃
  -- the whole run in order, with the protection found once more at its end
  have hall : [Effect.uploaded published, .filesVerified published, .runtimeAligned published,
      .witnessed revision, .protectedMain revision].Sublist t₃.log := by
    rw [hlog₃]
    exact ((hpair.append_right [.runtimeAligned published, .witnessed revision]).trans
      hround).append_right [.protectedMain revision]
  have hseen : [Effect.runtimeAligned published, .witnessed revision].Sublist t₃.log := by
    rw [hlog₃]
    exact ((List.sublist_append_right _ _).trans hround).trans (List.sublist_append_left _ _)
  have hmeasured : outcomes (Dict.update t₃.receipt measuredRecord) =
      { checked creation published with status := measured, control := measured } := by
    rw [outcomes_measured, hphase₃.told]
  refine (record_phase hphase₃.sound hmeasured { hphase₃.fits with
    control := fun _ => ⟨published, rfl, hseen⟩
    status := fun _ => ⟨published, rfl, hall⟩ }).mono (fun _ t ht => ?_) fun _ _ h => h
  obtain ⟨hphase, hlog⟩ := ht
  refine ⟨hphase.sound, ?_, by rw [hphase.told]; rfl⟩
  rw [hlog, hlog₃, List.append_assoc]
  exact hsub₂.trans (List.sublist_append_left _ _)

theorem publish_ensures {artwork : Artwork} {fuel : ℕ} {token digest : Str} {timeout : Binary64}
    (hfiles : files = rendered (card artwork revision digest) revision digest)
    (h : Phase revision files s atFirst) (huntouched : Untouched s.log) :
    Ensures (publish W artwork fuel token revision digest timeout) s
      (fun _ t => Sound revision files t ∧ Published W artwork revision digest files t)
      fun _ t => Sound revision files t := by
  rw [publish]
  refine (preflight_ensures hfiles h huntouched).bind fun expected t₁ h₁ => ?_
  obtain ⟨hphase₁, hun₁, hsha, hdigest, rfl⟩ := h₁
  refine (findOrCreate_ensures hphase₁ hun₁).bind fun target t₂ h₂ => ?_
  obtain ⟨hnone₂, creation, hphase₂⟩ := h₂
  refine (admit_ensures hphase₂ hnone₂).bind fun admitted t₃ h₃ => ?_
  obtain ⟨hphase₃, hnone₃, hof, q, hlog₃⟩ := h₃
  -- the source is found protected between the admission and the upload
  refine (requireProtectedMain_ensures hphase₃ revision).bind fun _ t₄ h₄ => ?_
  obtain ⟨hphase₄, hlog₄, _⟩ := h₄
  have hnone₄ : NoUpload t₄.log := hlog₄ ▸ hnone₃.concat (by simp)
  refine (upload_ensures (u := uploadOf revision digest admitted.1 expected)
    hphase₄ hnone₄ rfl
    ⟨q, by rw [hlog₄, hlog₃, List.append_assoc]; rfl⟩).bind fun published t₅ h₅ => ?_
  obtain ⟨hphase₅, hmem₅, hsub₅⟩ := h₅
  have hadmitted : .admitted admitted.1 admitted.2 ∈ t₅.log := by
    refine hsub₅ ?_
    rw [hlog₄, hlog₃]
    simp
  refine (confirmFiles_ensures hphase₅ hmem₅).bind fun _ t₆ h₆ => ?_
  obtain ⟨hphase₆, hsub₆, hpair, hverified⟩ := h₆
  refine (confirmRuntime_ensures hphase₆ hpair).mono (fun _ t ht => ?_) fun _ _ h => h
  obtain ⟨hsound, hsub, hpublished⟩ := ht
  exact ⟨hsound, hsha, hdigest, admitted.1, admitted.2, published,
    (hsub₆.trans hsub).subset hadmitted, hpublished, hof, hverified⟩

/-- Only what returned is measured after the handlers. -/
theorem concluding_ensures {x : Publisher Unit} {Q : State → Prop}
    (hx : Ensures x s (fun _ t => Sound revision files t ∧ Q t) fun _ t => Sound revision files t) :
    Ensures (concluding x) s
      (fun _ t => Sound revision files t ∧ ((outcomes t.receipt).status = measured → Q t))
      fun _ t => Sound revision files t := by
  -- a failure that is caught changes the status alone, and never to measured
  have hfailed : ∀ {t : State} (status : String) (code : Str), lit status ≠ lit "MEASURED" →
      Sound revision files t → ∀ u, u = { t with
        receipt := Dict.update t.receipt [text "status" status, (lit "failure_code", .str code)] } →
      Sound revision files u ∧ ((outcomes u.receipt).status = measured → Q u) := by
    rintro t status code hstatus ht _ rfl
    dsimp only
    rw [outcomes_failed]
    refine ⟨⟨ht.always, ?_⟩, fun hm => absurd (Json.str.inj hm) hstatus⟩
    rw [outcomes_failed]
    exact { ht.told with status := fun hm => absurd (Json.str.inj hm) hstatus }
  rw [Ensures, concluding]
  rw [Ensures] at hx
  cases hxs : x s with
  | ok a t =>
    rw [hxs] at hx
    exact ⟨hx.1, fun _ => hx.2⟩
  | error e t =>
    rw [hxs] at hx
    cases e with
    | control code => exact hfailed "BLOCKED" code (by decide) hx _ rfl
    | provider e => exact hfailed "UNKNOWN" e.name (by decide) hx _ rfl
    | _ => exact hx

theorem checkpoint_ensures (h : Sound revision files s) :
    Ensures (checkpoint W) s (fun _ t => Sound revision files t ∧ t.receipt = s.receipt ∧
      t.log = s.log ++ [.written s.receipt]) fun _ t => Sound revision files t := by
  show Ensures (call _ >>= _) s _ _
  refine still_bind (still_call _) h fun _ t _ hst => ?_
  have ht : Phase revision files t (outcomes s.receipt) := ⟨h.still hst, by rw [hst.2]⟩
  refine (note_phase (e := .written s.receipt) ht ht.fits (by simp) (by simp)).mono
    (fun _ u hu => ?_) fun _ _ h => h
  exact ⟨hu.1.sound, hu.2.2.trans hst.2, hst.1 ▸ hu.2.1⟩

end steps

section run

variable {W : World} {artwork : Artwork} {fuel : ℕ} {revision digest : Str}

theorem Published.mono {t u : State} {files : Tree}
    (h : Published W artwork revision digest files t)
    (hlog : t.log ⊆ u.log) (hreceipt : u.receipt = t.receipt) :
    Published W artwork revision digest files u := by
  obtain ⟨hsha, hdigest, parent, metadata, published, hmem, htold, hof, hverified⟩ := h
  exact ⟨hsha, hdigest, parent, metadata, published, hlog hmem, hreceipt ▸ htold, hof, hverified⟩

/-- A run is sound at either exit, and where it exits with zero the files were published. -/
theorem main_ensures {files : Tree}
    (hfiles : files = rendered (card artwork revision digest) revision digest) :
    Ensures (main W artwork fuel revision digest) State.start
      (fun code t => Sound revision files t ∧
        (code = 0 → Published W artwork revision digest files t))
      fun _ t => Sound revision files t := by
  have huntouched : Untouched [] := ⟨List.not_mem_nil, fun _ => List.not_mem_nil⟩
  have hfirst : Sound revision files ⟨0, firstReceipt revision digest, []⟩ :=
    ⟨always_nil, told_atFirst huntouched⟩
  show Ensures (checkpoint W >>= _) ⟨0, firstReceipt revision digest, []⟩ _ _
  refine (checkpoint_ensures hfirst).bind fun _ t₁ h₁ => ?_
  obtain ⟨hsound₁, hreceipt₁, hlog₁⟩ := h₁
  have hphase₁ : Phase revision files t₁ atFirst := ⟨hsound₁, by rw [hreceipt₁]; rfl⟩
  have hun₁ : Untouched t₁.log := hlog₁ ▸ huntouched.concat (by simp) (by simp)
  -- the publication, whatever it ends with
  refine (concluding_ensures (Q := Published W artwork revision digest files) ?_).bind
    fun _ t₂ h₂ => ?_
  · refine still_bind (still_call _) hsound₁ fun _ t₃ _ h₃ => ?_
    refine still_bind (still_ask _) (hsound₁.still h₃) fun _ t₄ _ h₄ => ?_
    have h₄ : Still t₁ t₄ := trans_of Still h₃ h₄
    exact publish_ensures hfiles (hphase₁.still h₄) (h₄.1 ▸ hun₁)
  · refine (checkpoint_ensures h₂.1).bind fun _ t₃ h₃ => ?_
    obtain ⟨hsound₃, hreceipt₃, hlog₃⟩ := h₃
    show Sound revision files t₃ ∧ _
    refine ⟨hsound₃, fun hcode => ?_⟩
    -- exit code zero is that of the status
    have hstatus : (outcomes t₃.receipt).status = measured := by
      by_contra hne
      exact absurd ((if_neg hne).symm.trans hcode) (by decide)
    exact (h₂.2 (hreceipt₃ ▸ hstatus)).mono (hlog₃ ▸ List.subset_append_left _ _) hreceipt₃

/-- What a run has done, stopped where it stopped. -/
def runLog (W : World) (artwork : Artwork) (fuel : ℕ) (revision digest : Str) : List Effect :=
  (final (main W artwork fuel revision digest State.start)).log

theorem runLog_always :
    Always (Allowed revision (rendered (card artwork revision digest) revision digest))
    (runLog W artwork fuel revision digest) :=
  ((main_ensures rfl).mono (fun _ _ h => h.1.always) fun _ _ h => h.always).final

/-- Wherever the log is cut, the receipt that is found on disk fits what was done. The cut is
where the process was killed, or where it ended. -/
def HonestOnDisk (revision : Str) (files : Tree) (log : List Effect) : Prop :=
  ∀ done, done <+: log → ∀ d, found written done = some d → Told revision files done (outcomes d)

/-- **The receipt on disk.**  Stopped anywhere, a run leaves a receipt that fits what it did:
where it tells of no upload or creation there was none, and what it calls measured had been
seen.  That is so of each of its members that can be measured: the card, the creation, the
upload, the files, the readiness of the control interface, and the status over all of them. -/
theorem disk_honest (W : World) (artwork : Artwork) (fuel : ℕ) (revision digest : Str) :
    HonestOnDisk revision (rendered (card artwork revision digest) revision digest)
      (runLog W artwork fuel revision digest) :=
  fun _ hdone _ hfound => told_of_found (runLog_always.of_prefix hdone) hfound

/-- The upload comes once; it replaces a revision that was admitted, by the rendered files;
the source was found protected right before it, and the receipt on disk already said that it
may have happened.  A creation comes once, and never after an upload. -/
structure Guarded (revision : Str) (files : Tree) (log : List Effect) : Prop where
  upload : ∀ done u, done ++ [.uploadInvoked u] <+: log → NoUpload done ∧ u.files = files ∧
    ∃ before metadata d, (outcomes d).write = unknown ∧
      done = before ++ [.admitted u.parent metadata, .protectedMain revision, .written d]
  creation : ∀ done, done ++ [.createInvoked] <+: log → Untouched done ∧
    ∃ before d, done = before ++ [.written d] ∧ (outcomes d).creation = unknown

/-- **What cannot be taken back** is guarded, in every run, also in one that is stopped in the
middle: the upload comes once, over an admitted parent and by the rendered files, and the receipt
on disk already said that it may have happened; the creation comes once and before any upload. -/
theorem effects_guarded (W : World) (artwork : Artwork) (fuel : ℕ) (revision digest : Str) :
    Guarded revision (rendered (card artwork revision digest) revision digest)
      (runLog W artwork fuel revision digest) := by
  refine ⟨fun done u hdone => runLog_always done _ hdone, fun done hdone => ?_⟩
  obtain ⟨hnone, hupload, hdisk⟩ := runLog_always done _ hdone
  exact ⟨⟨hnone, hupload⟩, hdisk⟩

/-- The published revision serves just the files that are rendered for the revision and the image,
with the current card, and the metadata of the parent; every later publish admits it. -/
def PublishedExactly (W : World) (artwork : Artwork) (revision digest : Str) (t : State) : Prop :=
  ∃ parent metadata published, .admitted parent metadata ∈ t.log ∧
    field t.receipt (lit "published_revision") = .str published ∧
    (∀ T, W.Serves parent T → Dict.get T providerMetadata = some metadata) ∧
    ∀ T, W.Serves published T →
      (∀ p, p ∈ T ↔ p ∈ rendered (card artwork revision digest) revision digest ++
        [(providerMetadata, metadata)]) ∧
      ∀ W' s, World.Serves W' published T →
        ∃ s', existingTargetAdmitted W' artwork published s = .ok metadata s'

/-- **Exit code zero** is returned only for an exact publication: the published revision serves
the rendered files with the current card, beside the metadata of the parent, and a later run
would admit it. -/
theorem main_exact (W : World) (artwork : Artwork) (fuel : ℕ) (revision digest : Str) :
    Ensures (main W artwork fuel revision digest) State.start
      (fun code t => code = 0 → PublishedExactly W artwork revision digest t) fun _ _ => True := by
  refine (main_ensures rfl).mono (fun code t h hcode => ?_) fun _ _ _ => trivial
  obtain ⟨hsha, hdigest, parent, metadata, published, hmem, htold, hof, hverified⟩ := h.2 hcode
  refine ⟨parent, metadata, published, hmem, htold, fun T hT => ?_, fun T hT => ?_⟩
  · obtain ⟨u, v, hof | hof⟩ := hof
    · exact metadata_of_admitted hT hof
    · exact metadata_of_new hT hof
  · obtain ⟨u, v, hverified⟩ := hverified
    obtain ⟨hfiles, hsmall⟩ := files_of_verified hT rfl hverified
    have hadmissible := admissible_of_files hT.nodup hsha hdigest hfiles hsmall
    have hmeta : Dict.get T providerMetadata = some metadata :=
      (Dict.get_eq_some hT.nodup).mpr ((hfiles _).mpr (by simp))
    exact ⟨hfiles, fun W' s hW' => hadmissible.admitted hW' hmeta s⟩

end run

end ControlSpace

end SzlRouter
