/-
Same-provider retry (`_post_with_retry` of `szl_router/core.py`).

Without a budget each call has its own cap.  With one, every dispatch reserves an
attempt first, and the loop ends because attempts run out.

* `budgetedLoop_terminates` — the fuel of the budgeted loop is never used up.
-/
import SzlRouter.Dispatch

open Py

namespace SzlRouter

/-- The module constants of the retry, as read from the environment. -/
structure RetryConfig where
  maxAttempts : ℤ
  baseDelay : Binary64
  maxDelay : Binary64

/-- `_is_retryable_http`. -/
def isRetryableHttp (status : ℤ) : Bool := status ∈ [(429 : ℤ), 500, 502, 503, 504]

/-- `_backoff_sleep_seconds`; `2 ** attempt` has to fit a double. -/
def backoffSleepSeconds (cfg : RetryConfig) (attempt : ℕ) (uniform : Binary64 → Binary64) :
    Except Failure Binary64 :=
  if 1024 ≤ attempt then
    .error (.other (lit "OverflowError") (lit "int too large to convert to float"))
  else
    let ceiling := Binary64.min cfg.maxDelay (cfg.baseDelay.mul (Binary64.ofInt (2 ^ attempt)))
    if (0 : Binary64) < ceiling then .ok (uniform ceiling) else .ok 0

/-- What follows a reply. -/
inductive Turn
  | returns (result : Parsed)
  | raises (e : Failure)
  /-- The failure is transient. -/
  | again (e : Failure)

def Reply.turn : Reply → Turn
  | .json result => .returns result
  | .failed (.http code body message) =>
    if isRetryableHttp code then .again (.http code body message)
    else .raises (.http code body message)
  | .failed (.transport kind message) => .again (.transport kind message)
  | .failed (.other kind message) => .raises (.other kind message)

/-- What is known of the remote outcome after a reply. -/
def Reply.outcome : Reply → Outcome
  | .json _ => .known
  | .failed (.http _ _ _) => .known
  | .failed _ => .unknown

/-- How `_post_with_retry` ends without a result. -/
inductive RetryError
  | stop (reason : TerminalReason) (inFlight : InFlight)
  | raised (e : Failure)
  /-- The fuel of the loop ran out; `budgetedLoop_terminates` excludes it. -/
  | outOfFuel

section

variable (S : Surroundings) (cfg : RetryConfig) (poster : Poster) (provider : Provider)
  (payload : Dict) (timeout : Binary64)

/-! ### Without a budget -/

/-- The loop over `range(_RETRY_MAX_ATTEMPTS)`, with the tries left and the number of
the next one. -/
def unbudgetedLoop : ℕ → ℕ → CallState → Except Failure Parsed × CallState
  | 0, _, s =>
    -- no try at all: `last_exc` was never assigned
    (.error (.other (lit "UnboundLocalError")
      (lit "cannot access local variable 'last_exc' where it is not associated with a value")), s)
  | left + 1, attempt, s =>
    let (reply, s) := S.send poster provider payload timeout s
    match reply.turn with
    | .returns result => (.ok result, s)
    | .raises e => (.error e, s)
    | .again e =>
      if left = 0 then (.error e, s)
      else
        match backoffSleepSeconds cfg attempt (S.uniform s.tick) with
        | .error e' => (.error e', s)
        | .ok delay =>
          match S.sleepError s.tick with
          | some e' => (.error e', s.log (.slept delay))
          | none => unbudgetedLoop left (attempt + 1) (s.log (.slept delay))

/-! ### With a budget -/

/-- The bookkeeping of one reply: its outcome is noted and its row is written. -/
def noteReply (attempt : ℕ) (started : Binary64) (reply : Reply) (b : RequestBudget)
    (s : CallState) : Except Failure Turn × RequestBudget × CallState :=
  match (S.budgetAt b s.tick).noteOutcome attempt reply.outcome with
  | (b, .error message) => (.error (valueError message), b, s.next)
  | (b, .ok ()) =>
    match S.readClock s.next with
    | (.error e, s) => (.error e, b, s)
    | (.ok now, s) =>
      (.ok reply.turn, b, s.row (transportAttempt provider payload reply (latencyMs now started)))

/-- One dispatch, from the reading of its start to its row. -/
def dispatch (attempt : ℕ) (sendTimeout : Binary64) (b : RequestBudget) (s : CallState) :
    Except Failure Turn × RequestBudget × CallState :=
  match S.readClock s with
  | (.error e, s) => (.error e, b, s)
  | (.ok started, s) =>
    let (reply, s) := S.send poster provider payload sendTimeout s
    noteReply S provider payload attempt started reply b s

/-- The wait between two dispatches; `none` when the loop goes on. -/
def backoff (attempt : ℕ) (e : Failure) (b : RequestBudget) (s : CallState) :
    Option Failure × RequestBudget × CallState :=
  match backoffSleepSeconds cfg (attempt - 1) (S.uniform s.tick) with
  | .error e' => (some e', b, s)
  | .ok delay =>
    match (S.budgetAt b s.tick).allowBackoff delay (S.clock s.tick) with
    | (b, .error message) => (some (valueError message), b, s.next)
    | (b, .ok false) => (some e, b, s.next)
    | (b, .ok true) =>
      let s := s.next
      (S.sleepError s.tick, b, s.log (.slept delay))

/-- The exception of the loop when no attempt is granted: the one of the last
dispatch, if there was one. -/
def refusal (last : Option Failure) : BudgetError → RetryError
  | .stop reason inFlight => (last.map RetryError.raised).getD (.stop reason inFlight)
  | .valueError message => .raised (valueError message)

/-- The `while True` loop, with the exception of the last dispatch. -/
def budgetedLoop : ℕ → Option Failure → RequestBudget → CallState →
    Except RetryError Parsed × RequestBudget × CallState
  | 0, _, b, s => (.error .outOfFuel, b, s)
  | fuel + 1, last, b, s =>
    let found := S.budgetAt b s.tick
    match found.reserve timeout (S.clock s.tick) with
    | (b, .error e) => (.error (refusal last e), b, s.next)
    | (b, .ok (attempt, sendTimeout)) =>
      let s := s.log (.reserved ⟨attempt, found.terminal, S.clock s.tick, sendTimeout⟩)
      match dispatch S poster provider payload attempt sendTimeout b s with
      | (.error e, b, s) => (.error (.raised e), b, s)
      | (.ok (.returns result), b, s) => (.ok result, b, s)
      | (.ok (.raises e), b, s) => (.error (.raised e), b, s)
      | (.ok (.again e), b, s) =>
        match backoff S cfg attempt e b s with
        | (some e', b, s) => (.error (.raised e'), b, s)
        | (none, b, s) => budgetedLoop fuel (some e) b s

/-- Enough fuel for every budget. -/
def budgetFuel : ℕ := MAX_ATTEMPT_CEILING + 1

/-- `_post_with_retry`. -/
def postWithRetry (s : CallState) : Except RetryError Parsed × CallState :=
  match s.budget with
  | none =>
    let (r, s) := unbudgetedLoop S cfg poster provider payload timeout cfg.maxAttempts.toNat 0 s
    (r.mapError RetryError.raised, s)
  | some b =>
    let (r, b, s) := budgetedLoop S cfg poster provider payload timeout budgetFuel none b s
    (r, { s with budget := some b })

/-! ### The budgeted loop ends -/

theorem grows_budgetAt (b : RequestBudget) (tick : ℕ) : b.Grows (S.budgetAt b tick) :=
  b.grows_runs _

theorem grows_noteOutcome (b : RequestBudget) (attempt : ℤ) (outcome : Outcome) :
    b.Grows (b.noteOutcome attempt outcome).1 :=
  (b.step_effect (.noteOutcome attempt outcome)).grows

theorem grows_allowBackoff (b : RequestBudget) (delay now : Binary64) :
    b.Grows (b.allowBackoff delay now).1 :=
  (b.step_effect (.allowBackoff delay now)).grows

theorem grows_noteReply (attempt : ℕ) (started : Binary64) (reply : Reply) (b : RequestBudget)
    (s : CallState) : b.Grows (noteReply S provider payload attempt started reply b s).2.1 := by
  have h := (grows_budgetAt S b s.tick).trans
    (grows_noteOutcome (S.budgetAt b s.tick) attempt reply.outcome)
  rw [noteReply]
  revert h
  rcases (S.budgetAt b s.tick).noteOutcome attempt reply.outcome with ⟨b', _ | _⟩
  · exact id
  · rcases S.readClock s.next with ⟨_ | _, s'⟩ <;> exact id

theorem grows_dispatch (attempt : ℕ) (sendTimeout : Binary64) (b : RequestBudget)
    (s : CallState) :
    b.Grows (dispatch S poster provider payload attempt sendTimeout b s).2.1 := by
  rw [dispatch]
  rcases S.readClock s with ⟨_ | started, s'⟩
  · exact .refl b
  · exact grows_noteReply S provider payload attempt started _ b _

theorem grows_backoff (attempt : ℕ) (e : Failure) (b : RequestBudget) (s : CallState) :
    b.Grows (backoff S cfg attempt e b s).2.1 := by
  rw [backoff]
  rcases backoffSleepSeconds cfg (attempt - 1) (S.uniform s.tick) with _ | delay
  · exact .refl b
  · have h := (grows_budgetAt S b s.tick).trans
      (grows_allowBackoff (S.budgetAt b s.tick) delay (S.clock s.tick))
    dsimp only
    revert h
    rcases (S.budgetAt b s.tick).allowBackoff delay (S.clock s.tick) with ⟨b', _ | _ | _⟩ <;>
      exact id

/-- The dispatch of one turn of the loop, once `sendTimeout` has been granted. -/
def turn (b : RequestBudget) (s : CallState) (sendTimeout : Binary64) :
    Except Failure Turn × RequestBudget × CallState :=
  let found := S.budgetAt b s.tick
  dispatch S poster provider payload (found.reserved + 1) sendTimeout (found.commit sendTimeout).1
    (s.log (.reserved ⟨found.reserved + 1, found.terminal, S.clock s.tick, sendTimeout⟩))

/-- A turn adds an attempt to the counter. -/
theorem grows_turn (b : RequestBudget) (s : CallState) (t : Binary64) :
    b.Grows (turn S poster provider payload b s t).2.1 ∧
      (S.budgetAt b s.tick).reserved < (turn S poster provider payload b s t).2.1.reserved := by
  have hfound := grows_budgetAt S b s.tick
  have hturn := grows_dispatch S poster provider payload ((S.budgetAt b s.tick).reserved + 1) t
    ((S.budgetAt b s.tick).commit t).1
    (s.log (.reserved ⟨(S.budgetAt b s.tick).reserved + 1, (S.budgetAt b s.tick).terminal,
      S.clock s.tick, t⟩))
  have hlimits : ((S.budgetAt b s.tick).commit t).1.toBudgetLimits = b.toBudgetLimits :=
    hfound.limits
  have hreserved : ((S.budgetAt b s.tick).commit t).1.reserved = _ := rfl
  have hle := hturn.reserved_le
  rw [hreserved] at hle
  exact ⟨⟨hturn.limits.trans hlimits, hfound.reserved_le.trans (Nat.le_of_succ_le hle)⟩, hle⟩

/-- One turn of the loop: the reservation is refused, or a dispatch ends the loop, or
the wait after it does, or the loop goes on. -/
theorem budgetedLoop_succ (fuel : ℕ) (last : Option Failure) (b : RequestBudget)
    (s : CallState) :
    (∃ reason e, e ≠ .outOfFuel ∧
      budgetedLoop S cfg poster provider payload timeout (fuel + 1) last b s =
        (.error e, { S.budgetAt b s.tick with terminal := reason }, s.next)) ∨
    ∃ t, (S.budgetAt b s.tick).Granted timeout (S.clock s.tick) t ∧
      ((∃ r, r ≠ .error .outOfFuel ∧
          (∀ v, r = .ok v ↔ (turn S poster provider payload b s t).1 = .ok (.returns v)) ∧
          budgetedLoop S cfg poster provider payload timeout (fuel + 1) last b s =
            (r, (turn S poster provider payload b s t).2)) ∨
        ∃ n e w, (turn S poster provider payload b s t).1 = .ok (.again e) ∧
          w = backoff S cfg n e (turn S poster provider payload b s t).2.1
            (turn S poster provider payload b s t).2.2 ∧
          ((∃ e', budgetedLoop S cfg poster provider payload timeout (fuel + 1) last b s =
              (.error (.raised e'), w.2)) ∨
            budgetedLoop S cfg poster provider payload timeout (fuel + 1) last b s =
              budgetedLoop S cfg poster provider payload timeout fuel (some e) w.2.1 w.2.2)) := by
  rw [budgetedLoop]
  rcases (S.budgetAt b s.tick).reserve_cases timeout (S.clock s.tick) with
    ⟨t, ht, heq⟩ | ⟨reason, e, _, heq⟩
  -- the attempt is granted: three outcomes end the loop, and a transient failure waits
  · refine .inr ⟨t, ht, ?_⟩
    simp only [heq, RequestBudget.commit, turn]
    generalize dispatch S poster provider payload _ t _ _ = d
    obtain ⟨_ | result | e | e, b', s'⟩ := d
    · exact .inl ⟨_, by simp, by simp, rfl⟩
    · exact .inl ⟨_, by simp, by simp, rfl⟩
    · exact .inl ⟨_, by simp, by simp, rfl⟩
    · refine .inr ⟨(S.budgetAt b s.tick).reserved + 1, e, _, rfl, rfl, ?_⟩
      dsimp only
      generalize backoff S cfg _ e b' s' = w
      obtain ⟨_ | e', b'', s''⟩ := w
      · exact .inr rfl
      · exact .inl ⟨e', rfl⟩
  -- the attempt is refused: the last failure is what the loop ends with
  · refine .inl ⟨reason, refusal last e, ?_, by rw [heq]⟩
    cases e with
    | stop reason inFlight => cases last <;> simp [refusal]
    | valueError message => simp [refusal]

/-- Each turn of the loop uses up an attempt, so the loop ends before its fuel does. The fuel of
the model is thus no bound that the source would not have. -/
theorem budgetedLoop_terminates (fuel : ℕ) (last : Option Failure) (b : RequestBudget)
    (s : CallState) (hfuel : b.maxAttempts - b.reserved < fuel) :
    (budgetedLoop S cfg poster provider payload timeout fuel last b s).1 ≠ .error .outOfFuel := by
  induction fuel generalizing last b s with
  | zero => omega
  | succ fuel ih =>
    rcases budgetedLoop_succ S cfg poster provider payload timeout fuel last b s with
      ⟨_, e, he, heq⟩ | ⟨t, ht, ⟨r, hr, _, heq⟩ | ⟨n, e, w, _, rfl, ⟨e', heq⟩ | heq⟩⟩
    · rw [heq]
      simpa using he
    · rw [heq]
      exact hr
    · rw [heq]
      simp
    · rw [heq]
      -- the turn took one attempt, and nothing that others do gives one back
      obtain ⟨hturn, hlt⟩ := grows_turn S poster provider payload b s t
      have hback := grows_backoff S cfg n e (turn S poster provider payload b s t).2.1
        (turn S poster provider payload b s t).2.2
      have hmax := congrArg BudgetLimits.maxAttempts (hturn.trans hback).limits
      have hmax' := congrArg BudgetLimits.maxAttempts (grows_budgetAt S b s.tick).limits
      have hbelow := ht.below
      have hle := hback.reserved_le
      have hle' := (grows_budgetAt S b s.tick).reserved_le
      exact ih _ _ _ (by omega)

/-- The retries end: the fuel is enough for every budget. -/
theorem postWithRetry_terminates (s : CallState) :
    (postWithRetry S cfg poster provider payload timeout s).1 ≠ .error .outOfFuel := by
  rw [postWithRetry]
  cases s.budget with
  | none =>
    dsimp only
    cases (unbudgetedLoop S cfg poster provider payload timeout cfg.maxAttempts.toNat 0 s).1 <;>
      simp [Except.mapError]
  | some b =>
    refine budgetedLoop_terminates S cfg poster provider payload timeout budgetFuel none b s ?_
    have hceiling := b.le_ceiling
    rw [budgetFuel]
    omega

/-! ### Invariants of the two loops -/

/-- What the dispatch of a turn and the waits keep holds after the budgeted loop, and what
a turn that returns establishes holds after a loop that returns. -/
theorem budgetedLoop_invariant {P : RequestBudget → CallState → Prop}
    {R : Parsed → RequestBudget → CallState → Prop}
    (hrefuse : ∀ b s reason, P b s → P { S.budgetAt b s.tick with terminal := reason } s.next)
    (hturn : ∀ b s t, P b s → (S.budgetAt b s.tick).Granted timeout (S.clock s.tick) t →
      match turn S poster provider payload b s t with
      | (.ok (.returns v), b', s') => R v b' s'
      | (_, b', s') => P b' s')
    (hbackoff : ∀ n e b s, P b s →
      P (backoff S cfg n e b s).2.1 (backoff S cfg n e b s).2.2)
    (fuel : ℕ) (last : Option Failure) (b : RequestBudget) (s : CallState) (h : P b s) :
    match budgetedLoop S cfg poster provider payload timeout fuel last b s with
    | (.ok v, b', s') => R v b' s'
    | (.error _, b', s') => P b' s' := by
  -- by induction on the fuel, over the cases of one turn
  induction fuel generalizing last b s with
  | zero => exact h
  | succ fuel ih =>
    rcases budgetedLoop_succ S cfg poster provider payload timeout fuel last b s with
      ⟨reason, e, _, heq⟩ | ⟨t, ht, ⟨r, _, hr, heq⟩ | ⟨n, e, w, hagain, rfl, ⟨e', heq⟩ | heq⟩⟩
    · rw [heq]
      exact hrefuse b s reason h
    · have hstep := hturn b s t h ht
      rw [heq]
      revert hr hstep
      generalize turn S poster provider payload b s t = d
      obtain ⟨d, b', s'⟩ := d
      intro hr hstep
      cases r with
      | ok v =>
        obtain rfl : d = .ok (.returns v) := (hr v).mp rfl
        exact hstep
      | error e =>
        rcases d with _ | v | _ | _
        · exact hstep
        · exact absurd ((hr v).mpr rfl) (by simp)
        · exact hstep
        · exact hstep
    -- a transient failure, where the wait ends the loop or the next turn follows
    all_goals
      have hstep := hturn b s t h ht
      have hback := hbackoff n e (turn S poster provider payload b s t).2.1
        (turn S poster provider payload b s t).2.2
      rw [heq]
      revert hagain hstep hback
      generalize turn S poster provider payload b s t = d
      obtain ⟨d, b', s'⟩ := d
      intro hagain hstep hback
      obtain rfl : d = .ok (.again e) := hagain
    · exact hback hstep
    · exact ih _ _ _ (hback hstep)

/-- What sending and sleeping keep holds after the loop without a budget, and what a send
that returns establishes holds after a loop that returns. -/
theorem unbudgetedLoop_invariant {P : CallState → Prop} {R : Parsed → CallState → Prop}
    (hsend : ∀ s, P s →
      match S.send poster provider payload timeout s with
      | (.json v, s') => R v s'
      | (_, s') => P s')
    (hslept : ∀ s delay, P s → P (s.log (.slept delay)))
    (left attempt : ℕ) (s : CallState) (h : P s) :
    match unbudgetedLoop S cfg poster provider payload timeout left attempt s with
    | (.ok v, s') => R v s'
    | (.error _, s') => P s' := by
  induction left generalizing attempt s with
  | zero => exact h
  | succ left ih =>
    have hsent := hsend s h
    rw [unbudgetedLoop]
    revert hsent
    generalize S.send poster provider payload timeout s = sent
    obtain ⟨reply, s'⟩ := sent
    intro hsent
    -- what a transient failure leads to
    have hagain : ∀ e, P s' →
        match (if left = 0 then (Except.error e, s')
          else
            match backoffSleepSeconds cfg attempt (S.uniform s'.tick) with
            | .error e' => (.error e', s')
            | .ok delay =>
              match S.sleepError s'.tick with
              | some e' => (.error e', s'.log (.slept delay))
              | none => unbudgetedLoop S cfg poster provider payload timeout left (attempt + 1)
                  (s'.log (.slept delay))) with
        | (.ok v, s') => R v s'
        | (.error _, s') => P s' := by
      intro e hP
      by_cases hleft : left = 0
      · rw [if_pos hleft]
        exact hP
      · rw [if_neg hleft]
        cases backoffSleepSeconds cfg attempt (S.uniform s'.tick) with
        | error e' => exact hP
        | ok delay =>
          dsimp only
          cases S.sleepError s'.tick with
          | some e' => exact hslept s' delay hP
          | none => exact ih (attempt + 1) _ (hslept s' delay hP)
    rcases reply with v | (⟨code, body, message⟩ | ⟨kind, message⟩ | ⟨kind, message⟩)
    · exact hsent
    · dsimp only [Reply.turn]
      by_cases hcode : isRetryableHttp code = true
      · rw [if_pos hcode]
        exact hagain _ hsent
      · rw [if_neg hcode]
        exact hsent
    · exact hagain _ hsent
    · exact hsent

/-! ### Time passes -/

theorem tick_le_readClock (s : CallState) : s.tick ≤ (S.readClock s).2.tick := Nat.le_succ _

theorem tick_le_send (sendTimeout : Binary64) (s : CallState) :
    s.tick ≤ (S.send poster provider payload sendTimeout s).2.tick := Nat.le_succ _

theorem tick_le_noteReply (attempt : ℕ) (started : Binary64) (reply : Reply) (b : RequestBudget)
    (s : CallState) :
    s.tick ≤ (noteReply S provider payload attempt started reply b s).2.2.tick := by
  have hclock : s.tick ≤ (S.readClock s.next).2.tick :=
    (Nat.le_succ _).trans (tick_le_readClock S s.next)
  rw [noteReply]
  rcases (S.budgetAt b s.tick).noteOutcome attempt reply.outcome with ⟨b', _ | _⟩
  · exact Nat.le_succ _
  · revert hclock
    rcases S.readClock s.next with ⟨_ | _, s'⟩ <;> exact id

theorem tick_le_dispatch (attempt : ℕ) (sendTimeout : Binary64) (b : RequestBudget)
    (s : CallState) :
    s.tick ≤ (dispatch S poster provider payload attempt sendTimeout b s).2.2.tick := by
  have hclock := tick_le_readClock S s
  rw [dispatch]
  revert hclock
  rcases S.readClock s with ⟨_ | started, s'⟩
  · exact id
  · exact fun hclock => hclock.trans
      ((tick_le_send S poster provider payload sendTimeout s').trans
        (tick_le_noteReply S provider payload attempt started _ b _))

theorem tick_le_turn (b : RequestBudget) (s : CallState) (t : Binary64) :
    s.tick ≤ (turn S poster provider payload b s t).2.2.tick := by
  rw [turn]
  exact (Nat.le_succ s.tick).trans (tick_le_dispatch S poster provider payload _ t _
    (s.log (.reserved ⟨_, _, S.clock s.tick, t⟩)))

theorem tick_le_backoff (attempt : ℕ) (e : Failure) (b : RequestBudget) (s : CallState) :
    s.tick ≤ (backoff S cfg attempt e b s).2.2.tick := by
  rw [backoff]
  rcases backoffSleepSeconds cfg (attempt - 1) (S.uniform s.tick) with _ | delay
  · exact Nat.le_refl _
  · dsimp only
    rcases (S.budgetAt b s.tick).allowBackoff delay (S.clock s.tick) with ⟨b', _ | _ | _⟩
    · exact Nat.le_succ _
    · exact Nat.le_succ _
    · exact (Nat.le_succ _).trans (Nat.le_succ _)

theorem tick_le_postWithRetry (s : CallState) :
    s.tick ≤ (postWithRetry S cfg poster provider payload timeout s).2.tick := by
  rw [postWithRetry]
  cases s.budget with
  | none =>
    -- the invariant of either loop is that the clock was not set back
    have hloop := unbudgetedLoop_invariant S cfg poster provider payload timeout
      (P := fun s' => s.tick ≤ s'.tick) (R := fun _ s' => s.tick ≤ s'.tick)
      (fun s' h => by
        have hsend := h.trans (tick_le_send S poster provider payload timeout s')
        revert hsend
        rcases S.send poster provider payload timeout s' with ⟨_ | _, s''⟩ <;> exact id)
      (fun s' delay h => h.trans (Nat.le_succ _)) cfg.maxAttempts.toNat 0 s (Nat.le_refl _)
    revert hloop
    rcases unbudgetedLoop S cfg poster provider payload timeout cfg.maxAttempts.toNat 0 s with
      ⟨_ | _, s'⟩ <;> exact id
  | some b =>
    have hloop := budgetedLoop_invariant S cfg poster provider payload timeout
      (P := fun _ s' => s.tick ≤ s'.tick) (R := fun _ _ s' => s.tick ≤ s'.tick)
      (fun _ _ _ h => h.trans (Nat.le_succ _))
      (fun b s' t h _ => by
        have hturn := h.trans (tick_le_turn S poster provider payload b s' t)
        revert hturn
        rcases turn S poster provider payload b s' t with ⟨_ | _ | _ | _, b', s''⟩ <;> exact id)
      (fun n e b s' h => h.trans (tick_le_backoff S cfg n e b s')) budgetFuel none b s
      (Nat.le_refl _)
    dsimp only
    revert hloop
    rcases budgetedLoop S cfg poster provider payload timeout budgetFuel none b s with
      ⟨_ | _, b', s'⟩ <;> exact id

end

end SzlRouter
