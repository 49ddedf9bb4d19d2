/-
What the retry without a budget promises.

The calls of the poster take every second step and the sleeps the steps between,
so the answer to each call is fixed before the run.  `Contract` says what a run
owes in terms of these answers; the loop pays it unless its cap leaves no call to
make, or a wait of its own raises.

* `contract_iff` — when `_post_with_retry` meets its contract.
-/
import SzlRouter.Retry

open Py

namespace SzlRouter

section

variable (S : Surroundings) (cfg : RetryConfig) (poster : Poster) (provider : Provider)
  (payload : Dict) (timeout : Binary64)

/-- The answer to a call made at a step. -/
def answerAt (tick : ℕ) : Reply :=
  (S.send poster provider payload timeout ⟨tick, none, [], []⟩).1

/-- The event of a call made at a step. -/
def postAt (tick : ℕ) : Event :=
  .post ⟨provider, payload, timeout, poster.request provider (S.env tick) payload,
    answerAt S poster provider payload timeout tick⟩

/-- The sleep after the call of number `attempt`. -/
def sleepAt (attempt tick : ℕ) : Event :=
  .slept (match backoffSleepSeconds cfg attempt (S.uniform tick) with
    | .ok delay => delay
    | .error _ => 0)

/-- `n` calls, a sleep after each, and one call more, the first of them number
`attempt`. -/
def callsAndSleeps (attempt : ℕ) : ℕ → ℕ → List Event
  | tick, 0 => [postAt S poster provider payload timeout tick]
  | tick, n + 1 =>
    postAt S poster provider payload timeout tick :: sleepAt S cfg attempt (tick + 1) ::
      callsAndSleeps (attempt + 1) (tick + 2) n

/-- A failure the retry takes for transient. -/
def Transient (tick : ℕ) : Prop :=
  ∃ e, (answerAt S poster provider payload timeout tick).turn = .again e

/-- What the last of at most `cap` calls leads to. -/
def Last (cap n tick : ℕ) (result : Except Failure Parsed) : Prop :=
  match (answerAt S poster provider payload timeout (tick + 2 * n)).turn with
  | .returns v => result = .ok v
  | .raises e => result = .error e
  | .again e => result = .error e ∧ n + 1 = cap

/-- The contract of a run with at most `cap` calls: some calls that all fail
transiently, a sleep after each, and a last one, whose result the run has. -/
def Contract (cap attempt : ℕ) (s : CallState) (run : Except Failure Parsed × CallState) : Prop :=
  ∃ n < cap, (∀ k < n, Transient S poster provider payload timeout (s.tick + 2 * k)) ∧
    run.2.events =
      s.events ++ callsAndSleeps S cfg poster provider payload timeout attempt s.tick n ∧
    Last S poster provider payload timeout cap n s.tick run.1

/-- No wait of the run raises: each follows a call that leaves another one to make. -/
def WaitsReturn (cap attempt tick : ℕ) : Prop :=
  ∀ k, k + 1 < cap → (∀ j ≤ k, Transient S poster provider payload timeout (tick + 2 * j)) →
    attempt + k < 1024 ∧ S.sleepError (tick + 2 * k + 1) = none

theorem backoffSleepSeconds_ok {attempt : ℕ} (h : attempt < 1024) (uniform : Binary64 → Binary64) :
    ∃ delay, backoffSleepSeconds cfg attempt uniform = .ok delay := by
  rw [backoffSleepSeconds, if_neg (by omega)]
  dsimp only
  split_ifs <;> exact ⟨_, rfl⟩

theorem length_callsAndSleeps (attempt tick n : ℕ) :
    (callsAndSleeps S cfg poster provider payload timeout attempt tick n).length = 2 * n + 1 := by
  induction n generalizing attempt tick with
  | zero => rfl
  | succ n ih =>
    rw [callsAndSleeps, List.length_cons, List.length_cons, ih]
    omega

theorem send_eq (s : CallState) :
    S.send poster provider payload timeout s =
      (answerAt S poster provider payload timeout s.tick,
        s.log (postAt S poster provider payload timeout s.tick)) := rfl

/-- One turn of the loop, by the answer to its call. -/
theorem unbudgetedLoop_succ (left attempt : ℕ) (s : CallState) :
    unbudgetedLoop S cfg poster provider payload timeout (left + 1) attempt s =
      match (answerAt S poster provider payload timeout s.tick).turn with
      | .returns result => (.ok result, s.log (postAt S poster provider payload timeout s.tick))
      | .raises e => (.error e, s.log (postAt S poster provider payload timeout s.tick))
      | .again e =>
        if left = 0 then (.error e, s.log (postAt S poster provider payload timeout s.tick))
        else
          match backoffSleepSeconds cfg attempt (S.uniform (s.tick + 1)) with
          | .error e' => (.error e', s.log (postAt S poster provider payload timeout s.tick))
          | .ok delay =>
            match S.sleepError (s.tick + 1) with
            | some e' => (.error e',
                (s.log (postAt S poster provider payload timeout s.tick)).log (.slept delay))
            | none => unbudgetedLoop S cfg poster provider payload timeout left (attempt + 1)
                ((s.log (postAt S poster provider payload timeout s.tick)).log (.slept delay)) := by
  rw [unbudgetedLoop, send_eq]
  rfl

/-- The first call settles a run when its answer is final. -/
theorem contract_settled {left attempt : ℕ} {s : CallState} {result : Except Failure Parsed}
    (hfinal : ¬Transient S poster provider payload timeout s.tick)
    (hlast : ∀ cap, Last S poster provider payload timeout cap 0 s.tick result) :
    (Contract S cfg poster provider payload timeout (left + 1) attempt s
      (result, s.log (postAt S poster provider payload timeout s.tick)) ↔
        0 < left + 1 ∧
          WaitsReturn S poster provider payload timeout (left + 1) attempt s.tick) := by
  refine iff_of_true ?_ ⟨left.succ_pos, ?_⟩
  · exact ⟨0, left.succ_pos, fun k hk => absurd hk (Nat.not_lt_zero k), rfl, hlast _⟩
  · intro k _ htransient
    exact absurd (htransient 0 (Nat.zero_le k)) hfinal

/-- A run that stops before the call that is still to be made breaks the contract. -/
theorem not_contract {cap attempt : ℕ} {s s' : CallState} {result : Except Failure Parsed}
    {e : Failure} (hagain : (answerAt S poster provider payload timeout s.tick).turn = .again e)
    (hcap : 1 < cap) (hevents : s'.events.length < s.events.length + 3) :
    ¬Contract S cfg poster provider payload timeout cap attempt s (result, s') := by
  rintro ⟨n, _, _, hrun, hlast⟩
  cases n with
  | zero =>
    rw [Last, Nat.mul_zero, Nat.add_zero, hagain] at hlast
    exact absurd hlast.2 (by omega)
  | succ n =>
    have hlength := congrArg List.length hrun
    rw [List.length_append, length_callsAndSleeps] at hlength
    dsimp only at hlength
    omega

/-- After a transient failure and a sleep, the contract is that of the run that is left. -/
theorem contract_again {left attempt : ℕ} {s : CallState} {e : Failure}
    {run : Except Failure Parsed × CallState}
    (hagain : (answerAt S poster provider payload timeout s.tick).turn = .again e)
    (hleft : left ≠ 0) :
    Contract S cfg poster provider payload timeout (left + 1) attempt s run ↔
      Contract S cfg poster provider payload timeout left (attempt + 1)
        ((s.log (postAt S poster provider payload timeout s.tick)).log
          (sleepAt S cfg attempt (s.tick + 1))) run := by
  constructor
  · rintro ⟨n, hn, htransient, hrun, hlast⟩
    -- the last call of the run is a later one, as this one is transient and attempts are left
    cases n with
    | zero =>
      rw [Last, Nat.mul_zero, Nat.add_zero, hagain] at hlast
      exact absurd hlast.2 (by omega)
    | succ n =>
      refine ⟨n, by omega, ?_, ?_, ?_⟩
      · intro k hk
        have := htransient (k + 1) (by omega)
        rwa [show s.tick + 2 * (k + 1) = s.tick + 1 + 1 + 2 * k by omega] at this
      · rw [hrun, callsAndSleeps]
        simp [CallState.log]
      · rw [Last, show s.tick + 2 * (n + 1) = s.tick + 1 + 1 + 2 * n by omega] at hlast
        rw [Last]
        revert hlast
        dsimp only [CallState.log]
        split
        · exact id
        · exact id
        · exact fun hlast => ⟨hlast.1, Nat.succ.inj hlast.2⟩
  · rintro ⟨n, hn, htransient, hrun, hlast⟩
    -- with this call and its wait in front of the run
    refine ⟨n + 1, by omega, ?_, ?_, ?_⟩
    · intro k hk
      cases k with
      | zero => exact ⟨e, hagain⟩
      | succ k =>
        have := htransient k (by omega)
        rwa [show (CallState.log _ _).tick + 2 * k = s.tick + 2 * (k + 1) by
          simp only [CallState.log]; omega] at this
    · rw [hrun, callsAndSleeps]
      simp [CallState.log]
    · rw [Last, show (CallState.log _ _).tick + 2 * n = s.tick + 2 * (n + 1) by
        simp only [CallState.log]; omega] at hlast
      rw [Last]
      revert hlast
      split
      · exact id
      · exact id
      · exact fun hlast => ⟨hlast.1, congrArg Nat.succ hlast.2⟩

theorem waitsReturn_again {left attempt tick : ℕ}
    (hagain : Transient S poster provider payload timeout tick) (hleft : left ≠ 0) :
    WaitsReturn S poster provider payload timeout (left + 1) attempt tick ↔
      (attempt < 1024 ∧ S.sleepError (tick + 1) = none) ∧
        WaitsReturn S poster provider payload timeout left (attempt + 1) (tick + 2) := by
  constructor
  · intro h
    constructor
    -- the wait after this call
    · exact h 0 (by omega) fun j hj => by rwa [Nat.le_zero.mp hj]
    -- and those after the later ones, two ticks for each call and its wait
    · intro k hk htransient
      have := h (k + 1) (by omega) fun j hj => by
        cases j with
        | zero => exact hagain
        | succ j =>
          rw [show tick + 2 * (j + 1) = tick + 2 + 2 * j by omega]
          exact htransient j (by omega)
      rwa [show attempt + (k + 1) = attempt + 1 + k by omega,
        show tick + 2 * (k + 1) + 1 = tick + 2 + 2 * k + 1 by omega] at this
  · rintro ⟨hfirst, h⟩ k hk htransient
    cases k with
    | zero => exact hfirst
    | succ k =>
      have := h k (by omega) fun j hj => by
        have := htransient (j + 1) (by omega)
        rwa [show tick + 2 * (j + 1) = tick + 2 + 2 * j by omega] at this
      rwa [show attempt + (k + 1) = attempt + 1 + k by omega,
        show tick + 2 * (k + 1) + 1 = tick + 2 + 2 * k + 1 by omega]

/-- The loop keeps its contract exactly when it may call at all and no wait raises. -/
theorem loop_contract_iff (left attempt : ℕ) (s : CallState) :
    Contract S cfg poster provider payload timeout left attempt s
        (unbudgetedLoop S cfg poster provider payload timeout left attempt s) ↔
      0 < left ∧ WaitsReturn S poster provider payload timeout left attempt s.tick := by
  -- by induction on the attempts that are left
  induction left generalizing attempt s with
  | zero =>
    refine iff_of_false ?_ fun h => absurd h.1 (Nat.lt_irrefl 0)
    rintro ⟨n, hn, _⟩
    exact absurd hn (Nat.not_lt_zero n)
  | succ left ih =>
    rw [unbudgetedLoop_succ]
    cases hturn : (answerAt S poster provider payload timeout s.tick).turn with
    | returns v =>
      refine contract_settled S cfg poster provider payload timeout ?_ ?_
      · rintro ⟨e, he⟩
        exact absurd (hturn.symm.trans he) (by simp)
      · intro cap
        rw [Last, Nat.mul_zero, Nat.add_zero, hturn]
    | raises e =>
      refine contract_settled S cfg poster provider payload timeout ?_ ?_
      · rintro ⟨e', he⟩
        exact absurd (hturn.symm.trans he) (by simp)
      · intro cap
        rw [Last, Nat.mul_zero, Nat.add_zero, hturn]
    | again e =>
      dsimp only
      -- the last attempt is followed by no wait
      by_cases hleft : left = 0
      · subst hleft
        rw [if_pos rfl]
        refine iff_of_true ?_ ⟨Nat.one_pos, ?_⟩
        · refine ⟨0, Nat.one_pos, fun k hk => absurd hk (Nat.not_lt_zero k), rfl, ?_⟩
          rw [Last, Nat.mul_zero, Nat.add_zero, hturn]
          exact ⟨rfl, rfl⟩
        · intro k hk
          omega
      · rw [if_neg hleft, waitsReturn_again S poster provider payload timeout ⟨e, hturn⟩ hleft]
        -- the power of two of the delay is no float from this attempt on
        by_cases hattempt : attempt < 1024
        · obtain ⟨delay, hdelay⟩ := backoffSleepSeconds_ok cfg hattempt (S.uniform (s.tick + 1))
          have hslept : .slept delay = sleepAt S cfg attempt (s.tick + 1) := by
            rw [sleepAt, hdelay]
          rw [hdelay]
          dsimp only
          cases hsleep : S.sleepError (s.tick + 1) with
          | some e' =>
            refine iff_of_false ?_ fun h => absurd h.2.1.2 (by simp)
            refine not_contract S cfg poster provider payload timeout hturn (by omega) ?_
            simp [CallState.log]
          | none =>
            dsimp only
            rw [contract_again S cfg poster provider payload timeout hturn hleft, ← hslept, ih]
            have hpos : 0 < left := Nat.pos_of_ne_zero hleft
            constructor
            · exact fun h => ⟨left.succ_pos, ⟨hattempt, rfl⟩, h.2⟩
            · exact fun h => ⟨hpos, h.2.2⟩
        · rw [backoffSleepSeconds, if_pos (Nat.le_of_not_lt hattempt)]
          refine iff_of_false ?_ fun h => absurd h.2.1.1 hattempt
          refine not_contract S cfg poster provider payload timeout hturn (by omega) ?_
          simp [CallState.log]

/-! ### The retry helper -/

/-- What `_post_with_retry` owes without a budget: calls until the first success, the first
failure that is not transient or the cap, a wait between two calls, and the end that the last
call has. -/
def MeetsContract (s : CallState) : Prop :=
  ∃ result,
    (postWithRetry S cfg poster provider payload timeout { s with budget := none }).1 =
      result.mapError RetryError.raised ∧
    Contract S cfg poster provider payload timeout cfg.maxAttempts.toNat 0
      { s with budget := none }
      (result, (postWithRetry S cfg poster provider payload timeout { s with budget := none }).2)

theorem mapError_injective :
    Function.Injective fun r : Except Failure Parsed => r.mapError RetryError.raised := by
  rintro (e | v) (e' | v') h
  · exact congrArg Except.error (RetryError.raised.inj (Except.error.inj h))
  · exact nomatch h
  · exact nomatch h
  · exact congrArg Except.ok (Except.ok.inj h)

/-- **Retry contract.** Without a budget `_post_with_retry` calls the poster until the
first success, the first failure that is not transient or the cap, at least once,
sleeps once between two calls and never after the last, and returns or raises what
the last call did, if and only if the cap is positive and no wait raises. -/
theorem contract_iff (s : CallState) :
    MeetsContract S cfg poster provider payload timeout s ↔
      1 ≤ cfg.maxAttempts ∧
        WaitsReturn S poster provider payload timeout cfg.maxAttempts.toNat 0 s.tick := by
  have hcap : 1 ≤ cfg.maxAttempts ↔ 0 < cfg.maxAttempts.toNat := by omega
  rw [hcap, MeetsContract]
  rw [← loop_contract_iff S cfg poster provider payload timeout cfg.maxAttempts.toNat 0
    { s with budget := none }]
  constructor
  · rintro ⟨result, hresult, hcontract⟩
    have hsame := mapError_injective hresult
    rw [← hsame] at hcontract
    exact hcontract
  · intro hcontract
    exact ⟨_, rfl, hcontract⟩

end

/-- A cap of zero, which the environment parser lets through: the poster is not called. -/
theorem cap_zero_raises : ¬∀ (S : Surroundings) (cfg : RetryConfig) (poster : Poster)
    (provider : Provider) (payload : Dict) (timeout : Binary64) (s : CallState),
    MeetsContract S cfg poster provider payload timeout s := by
  intro h
  let S : Surroundings := ⟨fun _ _ => none, fun _ => .failed (.transport (lit "OSError") []),
    fun _ => 0, fun _ => 0, fun _ x => x, fun _ => none, fun _ => [], fun _ c => c⟩
  obtain ⟨_, _, n, hn, _⟩ := h S ⟨0, 0, 0⟩ .chat
    ⟨lit "box_gpu", [], [], [], true, lit "self-hosted", [], none⟩ [] 0 ⟨0, none, [], []⟩
  exact absurd hn (Nat.not_lt_zero n)

end SzlRouter
