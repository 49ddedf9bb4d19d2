/-
Which revision the verifier's evidence speaks of.

All attempts of a run write into one evidence record.  The first read of an
attempt overwrites the revision and leaves the positive states of the attempts
before; they then stand beside a revision they were not established at.

* `current_verifyOnce` — an attempt keeps the evidence current when its first read
  meets no such state;
* `evidence_current_iff` — the evidence of a run is current throughout exactly when
  this is so for each of its attempts.
-/
import SzlRouter.SpaceAcceptance

namespace SzlRouter

namespace Drift

open Py Procedure
open EStateM (Result)

variable {W : World} {cfg : Config} {deadline : Binary64} {s₀ s t : State} {number : ℕ}

/-- Where the first read of an attempt reports another revision than the recorded
one, no positive state stands in the evidence. -/
def Fresh (W : World) (cfg : Config) (deadline : Binary64) (s : State) : Prop :=
  ∀ hfRevision u, providerInfo W cfg deadline s = .ok hfRevision u →
    s.evidence.publication.revision = some hfRevision ∨ ∀ m, ¬ Mark.Stands m s.evidence

/-- What is current depends on the revision, the positive states and their marks. -/
theorem Current.of_same (h : Current s)
    (hrevision : t.evidence.publication.revision = s.evidence.publication.revision)
    (hstands : ∀ m, Mark.Stands m t.evidence → Mark.Stands m s.evidence)
    (hmarks : t.marks = s.marks) : Current t := by
  intro m hm
  rw [hrevision, hmarks]
  exact h m (hstands m hm)

/-- The first read of an attempt. -/
theorem observeRevision_iff {hfRevision : Str} :
    observeRevision W cfg deadline s = .ok hfRevision t ↔
      ∃ u, providerInfo W cfg deadline s = .ok hfRevision u ∧
        t = { u with evidence := u.evidence.observe hfRevision } := by
  rw [observeRevision, bind_eq_ok]
  constructor
  · rintro ⟨revision, u, hu, h⟩
    obtain ⟨_, v, hv, h⟩ := bind_eq_ok.mp h
    obtain ⟨rfl, rfl⟩ := pure_eq_ok.mp h
    exact ⟨u, hu, (Result.ok.inj hv).2.symm⟩
  · rintro ⟨u, hu, rfl⟩
    exact ⟨hfRevision, u, hu, rfl⟩

/-- After the first read, what stands stood before, at the same marks. -/
theorem current_observe_iff {hfRevision : Str} {u : State}
    (h : providerInfo W cfg deadline s = .ok hfRevision u) :
    Current { u with evidence := u.evidence.observe hfRevision } ↔
      ∀ m, Mark.Stands m s.evidence → KeyedHistory.last s.marks m = some hfRevision := by
  obtain ⟨x, hx, _⟩ := providerInfo_ok h
  rw [Current, ← hx.evidence, ← hx.marks]
  refine forall_congr' fun m => ?_
  cases m <;> rfl

theorem current_observeRevision {hfRevision : Str} (hfresh : Fresh W cfg deadline s)
    (hcurrent : Current s) (h : observeRevision W cfg deadline s = .ok hfRevision t) :
    Current t := by
  obtain ⟨u, hu, rfl⟩ := observeRevision_iff.mp h
  refine (current_observe_iff hu).mpr ?_
  intro m hm
  rcases hfresh hfRevision u hu with hsame | hnone
  · rw [← hsame]
    exact hcurrent m hm
  · exact absurd hm (hnone m)

/-- An attempt whose first read meets no stale state keeps the evidence current. After that read
the revision stands, and each state is established for it. -/
theorem current_verifyOnce (hfresh : Fresh W cfg deadline s) (hcurrent : Current s) :
    Ensures (verifyOnce W cfg deadline) s (fun _ t => Current t) (fun _ t => Current t) := by
  have hafter : ∀ {hfRevision : Str} {u v : State},
      observeRevision W cfg deadline s = .ok hfRevision u →
      Attempted W deadline (some hfRevision) u v → Current v := by
    intro hfRevision u v hu hv
    obtain ⟨w, _, rfl⟩ := observeRevision_iff.mp hu
    exact hv.current rfl (current_observeRevision hfresh hcurrent hu)
  refine (verifyOnce_spec s).mono ?_ ?_
  · rintro _ _ ⟨hfRevision, u, v, hu, hv, rfl⟩
    refine (hafter hu hv).of_same rfl ?_ rfl
    intro m hm
    cases m <;> exact hm
  · rintro _ t (ht | ⟨hfRevision, u, hu, ht⟩)
    · exact (ht _).current rfl hcurrent
    · exact hafter hu ht

theorem current_failed {f : VerificationFailure} (h : Current t) :
    Current (failed W number f t) := by
  refine h.of_same rfl ?_ rfl
  intro m hm
  cases m <;> exact hm

theorem Begun.current
    (hfresh : ∀ number s, Begun W cfg deadline s₀ number s → Fresh W cfg deadline s)
    (hs₀ : Current s₀) (h : Begun W cfg deadline s₀ number s) : Current s := by
  induction h with
  | first => exact hs₀
  | @again number s t f hbegun honce _ ih =>
    have hfailed : Current (failed W number f t) :=
      current_failed ((current_verifyOnce (hfresh _ _ hbegun) ih).of_error honce)
    exact hfailed.of_same rfl (fun _ hm => hm) rfl

theorem Ends.current {x : Except Stop Unit} (hfresh : Fresh W cfg deadline s) (hs : Current s)
    (h : Ends W cfg deadline number s x t) : Current t := by
  cases h with
  | accepted honce =>
    refine ((current_verifyOnce hfresh hs).of_ok honce).of_same rfl ?_ rfl
    intro m hm
    cases m <;> exact hm
  | crashed honce => exact (current_verifyOnce hfresh hs).of_error honce
  | failed honce => exact current_failed ((current_verifyOnce hfresh hs).of_error honce)

theorem current_handle {x : Except Stop Unit} (h : Current t) :
    Current { t with evidence := handle x t.evidence } := by
  have hrecord : ∀ f, Current { t with evidence := recordFailure f t.evidence } := by
    intro f
    refine h.of_same rfl ?_ rfl
    intro m hm
    cases m <;> exact hm
  rcases x with (f | name) | _
  · exact hrecord f
  · show Current { t with evidence := if name = lit "SystemExit" then t.evidence else _ }
    split_ifs
    · exact h
    · exact hrecord _
  · exact h

theorem current_start (W : World) (cfg : Config) (clock : Binary64) :
    Current (firstState W cfg clock) := by
  intro m hm
  cases m <;> exact nomatch hm

/-- The states of a run whose evidence can be looked at: where an attempt begins,
after its first read, and at the end. -/
inductive Reached (W : World) (cfg : Config) (clock : Binary64) : State → Prop
  | begun {number : ℕ} {s : State} :
      Begun W cfg (runDeadline W cfg clock) (firstState W cfg clock) number s →
      Reached W cfg clock s
  | observed {number : ℕ} {s t : State} {hfRevision : Str} :
      Begun W cfg (runDeadline W cfg clock) (firstState W cfg clock) number s →
      observeRevision W cfg (runDeadline W cfg clock) s = .ok hfRevision t →
      Reached W cfg clock t
  | written {fuel : ℕ} {t : State} : verifierMain W cfg fuel clock = some t →
      Reached W cfg clock t

/-- The evidence of a run is current, to the end, exactly when no attempt of the run meets
positive states of another revision at its first read. The states of an attempt are kept for the
next one, and the first read puts its own revision beside them. -/
theorem evidence_current_iff (W : World) (cfg : Config) (clock : Binary64) :
    (∀ t, Reached W cfg clock t → Current t) ↔
      ∀ number s, Begun W cfg (runDeadline W cfg clock) (firstState W cfg clock) number s →
        Fresh W cfg (runDeadline W cfg clock) s := by
  constructor
  · intro hcurrent number s hbegun hfRevision u hu
    by_contra hnot
    push Not at hnot
    obtain ⟨hne, m, hm⟩ := hnot
    -- the state right after the first read has the new revision beside the old states
    have hobserved := hcurrent _ (.observed hbegun (observeRevision_iff.mpr ⟨u, hu, rfl⟩))
    apply hne
    rw [← hcurrent s (.begun hbegun) m hm]
    exact (current_observe_iff hu).mp hobserved m hm
  · intro hfresh t ht
    have hbegin := fun {number s} (hs : Begun W cfg (runDeadline W cfg clock)
        (firstState W cfg clock) number s) => hs.current hfresh (current_start W cfg clock)
    cases ht with
    | begun hbegun => exact hbegin hbegun
    | observed hbegun h => exact current_observeRevision (hfresh _ _ hbegun) (hbegin hbegun) h
    | written h =>
      obtain ⟨number, s, x, u, hbegun, hends, rfl⟩ := verifierMain_ends h
      exact current_handle (hends.current (hfresh _ _ hbegun) (hbegin hbegun))

/-- The file set at the first revision is right and its files cannot be read; at the
second attempt the Space has moved on and is paused. -/
def movedOn : World :=
  { healthy [] (sampleRevision 'a') with
    answer := fun n g =>
      if g.url = providerInfoUrl sampleConfig.repoId ∧ 8 ≤ n then
        jsonAnswer g.url (reportedInfo (sampleRevision 'b'))
      else if g.url = providerRuntimeUrl sampleConfig.repoId ∧ 8 ≤ n then
        jsonAnswer g.url (reportedStage (lit "PAUSED") (sampleRevision 'b'))
      else if g.url = resolveUrl sampleConfig.repoId (sampleRevision 'a') (lit "app.py") then
        .httpError 503 none
      else (healthy [] (sampleRevision 'a')).answer n g
    wake := fun _ clock d => clock.add d }

set_option maxRecDepth 100000 in
/-- The written evidence says EXACT of the first revision beside the second. -/
theorem evidence_stale :
    ¬ ∀ W cfg fuel clock t, verifierMain W cfg fuel clock = some t → Current t := by
  intro hcurrent
  have hrun : (verifierMain movedOn sampleConfig 2 0).map (fun t =>
      (t.evidence.publication.revision, t.evidence.publication.outputSetState,
        KeyedHistory.last t.marks .outputSetExact)) =
      some (some (sampleRevision 'b'), .exact, some (sampleRevision 'a')) := by decide +kernel
  obtain ⟨t, ht, h⟩ := Option.map_eq_some_iff.mp hrun
  obtain ⟨hrevision, hrest⟩ := Prod.mk.inj h
  obtain ⟨hexact, hlast⟩ := Prod.mk.inj hrest
  have hsame := hcurrent movedOn sampleConfig 2 0 t ht .outputSetExact hexact
  rw [hlast, hrevision] at hsame
  exact absurd (Option.some.inj hsame) (by decide)

end Drift

end SzlRouter
