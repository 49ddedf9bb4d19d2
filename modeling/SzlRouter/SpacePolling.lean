/-
The polling loop of the drift verifier.

`Begun` collects the states at which the attempts of a run begin, and `Ends` the
ways the last attempt ends it.  Every attempt but the last costs clock time, so
the loop stops.

* `pollLoop_ends` — a run that stops ends at a begun attempt;
* `Begun.worked`, `Begun.verdict` — what holds where an attempt begins;
* `pollLoop_stops` — under a monotonic clock the loop stops.
-/
import SzlRouter.SpaceAttempt

namespace SzlRouter

namespace Drift

open Py Procedure
open EStateM (Result)

variable {W : World} {cfg : Config} {deadline : Binary64} {s₀ s t : State} {number : ℕ}

/-- The states at which the attempts of a run from `s₀` can begin: the first one, and those after
a failure and a sleep before the deadline. -/
inductive Begun (W : World) (cfg : Config) (deadline : Binary64) (s₀ : State) : ℕ → State → Prop
  | first : Begun W cfg deadline s₀ 1 s₀
  | again {number : ℕ} {s t : State} {f : VerificationFailure} :
      Begun W cfg deadline s₀ number s →
      verifyOnce W cfg deadline s = .error (.failure f) t →
      ¬ deadline.sub (failed W number f t).clock ≤ 0 →
      Begun W cfg deadline s₀ (number + 1)
        ((failed W number f t).sleep W cfg (deadline.sub (failed W number f t).clock))

/-- How an attempt begun at `s` ends the run. -/
inductive Ends (W : World) (cfg : Config) (deadline : Binary64) (number : ℕ) (s : State) :
    Except Stop Unit → State → Prop
  | accepted {t : State} : verifyOnce W cfg deadline s = .ok () t →
      Ends W cfg deadline number s (.ok ()) (appendAttempt (acceptedAttempt number t) t)
  | crashed {t : State} {name : Str} : verifyOnce W cfg deadline s = .error (.crash name) t →
      Ends W cfg deadline number s (.error (.crash name)) t
  | failed {t : State} {f g : VerificationFailure} :
      verifyOnce W cfg deadline s = .error (.failure f) t →
      Ends W cfg deadline number s (.error (.failure g)) (failed W number f t)

/-- One iteration: the run ends, or another attempt begins. -/
theorem pollLoop_succ (fuel number : ℕ) (s : State) :
    (∃ x t, Ends W cfg deadline number s x t ∧
      pollLoop W cfg deadline (fuel + 1) number s = some (x, t)) ∨
    ∃ f t, verifyOnce W cfg deadline s = .error (.failure f) t ∧
      ¬ deadline.sub (failed W number f t).clock ≤ 0 ∧
      pollLoop W cfg deadline (fuel + 1) number s = pollLoop W cfg deadline fuel (number + 1)
        ((failed W number f t).sleep W cfg (deadline.sub (failed W number f t).clock)) := by
  rw [pollLoop]
  -- a return, a crash, a final failure and the deadline end the run
  cases honce : verifyOnce W cfg deadline s with
  | ok _ t => exact .inl ⟨_, _, .accepted honce, rfl⟩
  | error e t =>
    cases e with
    | crash name => exact .inl ⟨_, _, .crashed honce, rfl⟩
    | failure f =>
      dsimp only
      by_cases hfinal : (!f.retryable) = true
      · rw [if_pos hfinal]
        exact .inl ⟨_, _, .failed honce, rfl⟩
      rw [if_neg hfinal]
      by_cases htime : deadline.sub (failed W number f t).clock ≤ 0
      · rw [if_pos htime]
        exact .inl ⟨_, _, .failed honce, rfl⟩
      · rw [if_neg htime]
        exact .inr ⟨f, t, rfl, htime, rfl⟩

/-- By induction on the fuel: a run that stops ends at an attempt that was begun. It stops by a
return, by an error that is not tried again, or at the deadline. -/
theorem pollLoop_ends {fuel : ℕ} {x : Except Stop Unit} (hbegun : Begun W cfg deadline s₀ number s)
    (h : pollLoop W cfg deadline fuel number s = some (x, t)) :
    ∃ number' s', Begun W cfg deadline s₀ number' s' ∧ Ends W cfg deadline number' s' x t := by
  induction fuel generalizing number s with
  | zero => exact nomatch h
  | succ fuel ih =>
    rcases pollLoop_succ fuel number s with ⟨x', t', hends, hrun⟩ | ⟨f, u, honce, htime, hrun⟩
    · obtain ⟨rfl, rfl⟩ := Prod.mk.inj (Option.some.inj (hrun.symm.trans h))
      exact ⟨number, s, hbegun, hends⟩
    · exact ih (hbegun.again honce htime) (hrun ▸ h)

/-! ### What holds where an attempt begins -/

/-- An attempt, whatever its exit, only works. -/
theorem worked_verifyOnce : Moves (Worked W deadline) (verifyOnce W cfg deadline) := by
  intro s
  refine (verifyOnce_spec s).mono ?_ ?_
  · rintro _ _ ⟨hfRevision, u, v, hu, hv, rfl⟩
    obtain ⟨w, hw, rfl⟩ := (observeRevision_spec s).of_ok hu
    exact (hw none).toWorked.trans ⟨hv.reads, hv.clock⟩
  · rintro _ t (ht | ⟨hfRevision, u, hu, ht⟩)
    · exact (ht none).toWorked
    · obtain ⟨w, hw, rfl⟩ := (observeRevision_spec s).of_ok hu
      exact (hw none).toWorked.trans ⟨ht.reads, ht.clock⟩

/-- An attempt that raises leaves the verdict. -/
theorem verdict_of_error {e : Stop} (h : verifyOnce W cfg deadline s = .error e t) :
    t.evidence.verdict = s.evidence.verdict := by
  rcases (verifyOnce_spec s).of_error h with ht | ⟨hfRevision, u, hu, ht⟩
  · exact (ht none).verdict
  · obtain ⟨w, hw, rfl⟩ := (observeRevision_spec s).of_ok hu
    exact ht.verdict.trans (hw none).verdict

theorem worked_failed (number : ℕ) (f : VerificationFailure) (t : State) :
    Worked W deadline t (failed W number f t) :=
  .of_reads rfl fun hW => hW.elapse _ _

theorem one_le_units_of_pos {x : Binary64} (h : 0 < x) : 1 ≤ x.units := by
  have hunits := (Binary64.lt_def.mp h).2.2
  rw [Binary64.units_zero] at hunits
  omega

theorem Config.pollInterval_pos (cfg : Config) : 0 < cfg.pollInterval := by
  have htenth : (0 : Binary64) < Binary64.ofDecimal false 1 (-1) := by decide +kernel
  obtain ⟨hzero, _, hlt⟩ := Binary64.lt_def.mp htenth
  obtain ⟨_, hnan, hle⟩ := Binary64.le_def.mp cfg.poll_range.1
  exact Binary64.lt_def.mpr ⟨hzero, hnan, hlt.trans_le hle⟩

/-- The sleep after a failed attempt moves the clock. -/
theorem sleep_advances (cfg : Config) (hW : Clockwork W deadline) {u : State}
    (hfinite : u.clock.isFinite = true)
    (htime : ¬ deadline.sub u.clock ≤ 0) :
    u.clock.units + 1 ≤ (u.sleep W cfg (deadline.sub u.clock)).clock.units := by
  have hbefore : u.clock.units < deadline.units :=
    Binary64.lt_of_sub_pos hW.deadline_finite hfinite htime
  have hnan : (deadline.sub u.clock).isNaN = false := Binary64.isNaN_sub hW.deadline_finite hfinite
  have hpoll : cfg.pollInterval.isNaN = false := (Binary64.le_def.mp cfg.poll_range.1).2.1
  have hsleep : (1 : ℤ) ≤ (Binary64.min cfg.pollInterval (deadline.sub u.clock)).units := by
    rw [Binary64.min]
    split_ifs
    · exact one_le_units_of_pos (Binary64.lt_of_not_le Binary64.isNaN_zero hnan htime)
    · exact one_le_units_of_pos cfg.pollInterval_pos
  have hbound : Binary64.min cfg.pollInterval (deadline.sub u.clock) ≤ Binary64.ofInt 30 :=
    Binary64.le_trans (Binary64.min_le_left hpoll) cfg.poll_range.2
  have hwake := hW.wake_advances u.moment u.clock _ hbefore hbound
  show u.clock.units + 1 ≤ (W.wake u.moment u.clock _).units
  omega

/-- The state at which the next attempt begins. -/
theorem worked_again (f : VerificationFailure)
    (htime : ¬ deadline.sub (failed W number f t).clock ≤ 0) :
    Worked W deadline t
      ((failed W number f t).sleep W cfg (deadline.sub (failed W number f t).clock)) := by
  refine (worked_failed number f t).trans (.of_reads rfl ?_)
  intro hW hfinite
  have hsleep := sleep_advances cfg hW hfinite htime
  exact ⟨hW.wake_finite _ _ _, (Int.lt_of_add_one_le hsleep).le⟩

theorem Begun.worked (h : Begun W cfg deadline s₀ number s) : Worked W deadline s₀ s := by
  induction h with
  | first => exact .refl s₀
  | again _ honce htime ih =>
    exact (ih.trans (worked_verifyOnce.of_error honce)).trans (worked_again _ htime)

theorem Begun.verdict (h : Begun W cfg deadline s₀ number s) :
    s.evidence.verdict = s₀.evidence.verdict := by
  induction h with
  | first => rfl
  | again _ honce _ ih => exact (verdict_of_error honce).trans ih

theorem Ends.worked {x : Except Stop Unit} (h : Ends W cfg deadline number s x t) :
    Worked W deadline s t := by
  cases h with
  | accepted honce =>
    have hworked := worked_verifyOnce.of_ok honce
    exact ⟨hworked.reads, hworked.clock⟩
  | crashed honce => exact worked_verifyOnce.of_error honce
  | failed honce => exact (worked_verifyOnce.of_error honce).trans (worked_failed _ _ _)

/-! ### The end of the polling -/

/-- By induction on the clock units that are left before the deadline. The clock of the
hypothesis goes forward with each wait, so the fuel is a bound on the attempts that can be begun.
-/
theorem pollLoop_stops (hW : Clockwork W deadline) {fuel : ℕ} (hfinite : s.clock.isFinite = true)
    (hfuel : deadline.units - s.clock.units < fuel) (hpos : 0 < fuel) :
    ∃ r, pollLoop W cfg deadline fuel number s = some r := by
  induction fuel generalizing number s with
  | zero => exact absurd hpos (lt_irrefl 0)
  | succ fuel ih =>
    rcases pollLoop_succ fuel number s with ⟨x, t, _, hrun⟩ | ⟨f, t, honce, htime, hrun⟩
    · exact ⟨_, hrun⟩
    · obtain ⟨hfailed, hclock⟩ : (failed W number f t).clock.isFinite = true ∧
          s.clock.units ≤ (failed W number f t).clock.units :=
        ((worked_verifyOnce.of_error honce).trans (worked_failed number f t)).clock hW hfinite
      have hbefore : (failed W number f t).clock.units < deadline.units :=
        Binary64.lt_of_sub_pos hW.deadline_finite hfailed htime
      have hsleep := sleep_advances cfg hW hfailed htime
      rw [hrun]
      exact ih (hW.wake_finite _ _ _) (by omega) (by omega)

/-! ### A whole run -/

/-- The state at which the first attempt begins. -/
def firstState (W : World) (cfg : Config) (clock : Binary64) : State :=
  (State.start cfg clock).tickClock W

def runDeadline (W : World) (cfg : Config) (clock : Binary64) : Binary64 :=
  (firstState W cfg clock).clock.add cfg.witnessTimeout

theorem verifierMain_ends {fuel : ℕ} {clock : Binary64}
    (h : verifierMain W cfg fuel clock = some t) :
    ∃ number s x u, Begun W cfg (runDeadline W cfg clock) (firstState W cfg clock) number s ∧
      Ends W cfg (runDeadline W cfg clock) number s x u ∧
      t = { u with evidence := handle x u.evidence } := by
  rw [verifierMain] at h
  obtain ⟨⟨x, u⟩, hrun, rfl⟩ := Option.map_eq_some_iff.mp h
  obtain ⟨number, s, hbegun, hends⟩ := pollLoop_ends .first hrun
  exact ⟨number, s, x, u, hbegun, hends, rfl⟩

theorem verifierMain_stops {clock : Binary64} (hW : Clockwork W (runDeadline W cfg clock))
    (hfinite : clock.isFinite = true) : ∃ fuel t, verifierMain W cfg fuel clock = some t := by
  have hfuel : (runDeadline W cfg clock).units - (firstState W cfg clock).clock.units <
      (((runDeadline W cfg clock).units - (firstState W cfg clock).clock.units).toNat + 1 : ℕ) := by
    omega
  obtain ⟨r, hr⟩ := pollLoop_stops hW (hW.elapse _ _ hfinite).1 hfuel (Nat.succ_pos _)
  exact ⟨_, _, Option.map_eq_some_iff.mpr ⟨r, hr, rfl⟩⟩

/-- Every request of a run goes out before the deadline, and waits no longer. -/
theorem verifierMain_timely {fuel : ℕ} {clock : Binary64}
    (hW : Clockwork W (runDeadline W cfg clock)) (hfinite : clock.isFinite = true)
    (h : verifierMain W cfg fuel clock = some t) :
    ∀ x ∈ t.reads, Timely (runDeadline W cfg clock) x := by
  obtain ⟨number, s, x, u, hbegun, hends, rfl⟩ := verifierMain_ends h
  obtain ⟨new, hnew, _, htimely⟩ := (hbegun.worked.trans hends.worked).reads
  intro r hr
  have hreads : u.reads = new := hnew
  exact htimely hW (hW.elapse _ _ hfinite).1 r (hreads ▸ hr)

/-- What a run reads is what the world answered. -/
theorem verifierMain_answered {fuel : ℕ} {clock : Binary64}
    (h : verifierMain W cfg fuel clock = some t) : ∀ x ∈ t.reads, Answered W x := by
  obtain ⟨number, s, x, u, hbegun, hends, rfl⟩ := verifierMain_ends h
  obtain ⟨new, hnew, hanswered, _⟩ := (hbegun.worked.trans hends.worked).reads
  intro r hr
  have hreads : u.reads = new := hnew
  exact hanswered r (hreads ▸ hr)

end Drift

end SzlRouter
