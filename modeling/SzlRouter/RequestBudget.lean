/-
The request-wide attempt and deadline budget (`szl_router/request_budget.py`).

A `RequestBudget` is one logical request's attempt counter and absolute
deadline, shared by every retry and fallback of the request.  Every method body
runs under the budget lock, so a method is one step: a function of the budget,
its arguments and the clock reading it takes.
-/
import SzlRouter.Binary64
import SzlRouter.PyStr

open Py

namespace SzlRouter

def MAX_ATTEMPT_CEILING : ℕ := 16

/-- `TERMINAL_REASONS`. -/
inductive TerminalReason
  | success
  | testsFailed
  | attemptExhausted
  | deadlineExhausted
  | providerUnavailable
  | policyBlocked
  | costUnknown
  | cancellation
  deriving DecidableEq

def TerminalReason.text : TerminalReason → String
  | .success => "success"
  | .testsFailed => "tests_failed"
  | .attemptExhausted => "attempt_exhausted"
  | .deadlineExhausted => "deadline_exhausted"
  | .providerUnavailable => "provider_unavailable"
  | .policyBlocked => "policy_blocked"
  | .costUnknown => "cost_unknown"
  | .cancellation => "cancellation"

/-- `_IN_FLIGHT`. -/
inductive InFlight
  | none
  | known
  | unknown
  deriving DecidableEq

/-- What is known of the remote outcome of one dispatch. -/
inductive Outcome
  | known
  | unknown
  deriving DecidableEq

/-- The exceptions of the budget. -/
inductive BudgetError
  /-- `BudgetStop`: no further dispatch is allowed. -/
  | stop (reason : TerminalReason) (inFlight : InFlight)
  | valueError (message : String)
  deriving DecidableEq

/-- One row of `_dispatches`. -/
structure DispatchRow where
  attempt : ℕ
  outcome : Outcome
  deriving DecidableEq

/-- `_label`. -/
def validLabel (value : Str) : Bool :=
  !value.isEmpty && decide (value.length ≤ 128) && decide (Str.strip value = value) &&
    value.all fun ch => !(decide (ch.val < 32) || decide (ch.val = 127))

/-- The complaint of `_label` about a value it refuses. -/
def labelError (value : Str) (name : String) : BudgetError :=
  .valueError (name ++
    if value.isEmpty || decide (128 < value.length) || decide (Str.strip value ≠ value) then
      " must be a non-empty string of at most 128 characters"
    else " must not contain control characters")

/-- The arguments a budget is made of, with what the constructor has checked. -/
structure BudgetLimits where
  requestId : Str
  policyRevision : Str
  maxAttempts : ℕ
  deadline : Binary64
  requestId_valid : validLabel requestId = true
  policyRevision_valid : validLabel policyRevision = true
  one_le : 1 ≤ maxAttempts
  le_ceiling : maxAttempts ≤ MAX_ATTEMPT_CEILING
  deadline_finite : deadline.isFinite = true

structure RequestBudget extends BudgetLimits where
  reserved : ℕ
  cancelled : Bool
  terminal : Option TerminalReason
  inFlight : InFlight
  dispatches : List DispatchRow

namespace RequestBudget

/-- A budget whose limits passed the constructor. -/
def ofLimits (limits : BudgetLimits) : RequestBudget :=
  { limits with
    reserved := 0, cancelled := false, terminal := none, inFlight := .none, dispatches := [] }

/-- `RequestBudget(...)`; the clock is read once to reject a broken one. -/
def new (requestId policyRevision : Str) (maxAttempts : ℤ) (deadline now : Binary64) :
    Except BudgetError RequestBudget :=
  if h₁ : validLabel requestId = true then
    if h₂ : validLabel policyRevision = true then
      if h₃ : 1 ≤ maxAttempts ∧ maxAttempts ≤ MAX_ATTEMPT_CEILING then
        if h₄ : deadline.isFinite = true then
          if now.isFinite then
            .ok (ofLimits ⟨requestId, policyRevision, maxAttempts.toNat, deadline, h₁, h₂,
              by omega, by omega, h₄⟩)
          else .error (.valueError "clock must return a finite monotonic time")
        else .error (.valueError "deadline must be a finite number")
      else .error (.valueError "max_attempts must be an int from 1 to 16")
    else .error (labelError policyRevision "policy_revision")
  else .error (labelError requestId "request_id")

/-- `validate_caller_timeout`. -/
def validateCallerTimeout (callerTimeout : Binary64) : Except BudgetError Binary64 :=
  if callerTimeout.isFinite = false then .error (.valueError "timeout must be a finite number")
  else if callerTimeout ≤ 0 then
    .error (.valueError "timeout must be a finite positive number of seconds")
  else .ok callerTimeout

/-- The stop that ends the request for `reason`. -/
def stopFor (b : RequestBudget) (reason : TerminalReason) :
    RequestBudget × Except BudgetError (ℕ × Binary64) :=
  ({ b with terminal := some reason }, .error (.stop reason b.inFlight))

/-- The tail of `reserve`, once nothing refuses the attempt. -/
def commit (b : RequestBudget) (sendTimeout : Binary64) :
    RequestBudget × Except BudgetError (ℕ × Binary64) :=
  ({ b with
      reserved := b.reserved + 1
      inFlight := .unknown
      dispatches := b.dispatches ++ [⟨b.reserved + 1, .unknown⟩] },
    .ok (b.reserved + 1, sendTimeout))

/-- `reserve`: the attempt number and the socket timeout of a new attempt. -/
def reserve (b : RequestBudget) (callerTimeout now : Binary64) :
    RequestBudget × Except BudgetError (ℕ × Binary64) :=
  match validateCallerTimeout callerTimeout with
  | .error e => (b, .error e)
  | .ok timeout =>
    -- `_refuse_unlocked`
    match b.terminal with
    | some reason => (b, .error (.stop reason b.inFlight))
    | none =>
      if b.cancelled then b.stopFor .cancellation
      else if now.isFinite = false then
        (b, .error (.valueError "clock must return a finite monotonic time"))
      else if b.deadline ≤ now then b.stopFor .deadlineExhausted
      else if b.maxAttempts ≤ b.reserved then b.stopFor .attemptExhausted
      else
        let sendTimeout := Binary64.min timeout (b.deadline.sub now)
        if sendTimeout ≤ 0 then b.stopFor .deadlineExhausted
        else b.commit sendTimeout

/-- The rows with the outcome of one attempt replaced; `none` when the attempt was
not reserved. -/
def setOutcome (attempt : ℤ) (outcome : Outcome) : List DispatchRow → Option (List DispatchRow)
  | [] => none
  | row :: rows =>
    if (row.attempt : ℤ) = attempt then some (⟨row.attempt, outcome⟩ :: rows)
    else (setOutcome attempt outcome rows).map (row :: ·)

/-- `note_outcome`; an error is the message of its `ValueError`. -/
def noteOutcome (b : RequestBudget) (attempt : ℤ) (outcome : Outcome) :
    RequestBudget × Except String Unit :=
  if attempt < 1 then (b, .error "attempt must be a positive int")
  else
    match setOutcome attempt outcome b.dispatches with
    | none => (b, .error "attempt was not reserved")
    | some rows =>
      ({ b with
          dispatches := rows
          inFlight := if rows.any (·.outcome = .unknown) then .unknown else .known },
        .ok ())

/-- `allow_backoff`: whether a later attempt can still start after `delay`; an error
is the message of its `ValueError`. -/
def allowBackoff (b : RequestBudget) (delay now : Binary64) :
    RequestBudget × Except String Bool :=
  if delay.isFinite = false then (b, .error "backoff must be a finite number")
  else if delay < 0 then (b, .error "backoff must be nonnegative")
  else if b.cancelled then
    ({ b with terminal := some (b.terminal.getD .cancellation) }, .ok false)
  else
    match b.terminal with
    | some _ => (b, .ok false)
    | none =>
      if b.maxAttempts ≤ b.reserved then
        ({ b with terminal := some .attemptExhausted }, .ok false)
      else if now.isFinite = false then
        (b, .error "clock must return a finite monotonic time")
      else if (b.deadline.sub now).isFinite = false ∨ b.deadline.sub now ≤ delay then
        ({ b with terminal := some .deadlineExhausted }, .ok false)
      else (b, .ok true)

/-- `cancel`: a send in flight is not aborted, and leaves the reason open. -/
def cancel (b : RequestBudget) : RequestBudget :=
  { b with
    cancelled := true
    terminal := if b.terminal = none ∧ b.inFlight = .none then some .cancellation else b.terminal }

/-- `close`: the first reason stands; an error is the message of its `ValueError`. -/
def close (b : RequestBudget) (reason : TerminalReason) :
    RequestBudget × Except String Unit :=
  if reason = .success then (b, .error "close() requires a non-success terminal reason")
  else ({ b with terminal := some (b.terminal.getD reason) }, .ok ())

/-- `mark_success`. -/
def markSuccess (b : RequestBudget) : RequestBudget :=
  { b with terminal := some (b.terminal.getD .success) }

/-! ### What each method can do -/

theorem validateCallerTimeout_ok {t t' : Binary64} (h : validateCallerTimeout t = .ok t') :
    t' = t ∧ t.isFinite = true ∧ 0 < t := by
  unfold validateCallerTimeout at h
  split_ifs at h with hfin hpos
  have hfin : t.isFinite = true := by simpa using hfin
  exact ⟨(Except.ok.inj h).symm, hfin,
    Binary64.lt_of_not_le Binary64.isNaN_zero (Binary64.isNaN_of_isFinite hfin) hpos⟩

/-- The circumstances in which `reserve` grants an attempt with `sendTimeout`: no reason and no
cancellation, an attempt left, a deadline that has not passed, and a timeout that fits before it.
-/
structure Granted (b : RequestBudget) (callerTimeout now sendTimeout : Binary64) : Prop where
  open_ : b.terminal = none
  active : b.cancelled = false
  below : b.reserved < b.maxAttempts
  now_finite : now.isFinite = true
  in_time : now < b.deadline
  pos : 0 < sendTimeout
  le_caller : sendTimeout ≤ callerTimeout
  le_remain : sendTimeout ≤ b.deadline.sub now

/-- `reserve` either grants one attempt or refuses, and a refusal touches at most
the terminal reason. -/
theorem reserve_cases (b : RequestBudget) (callerTimeout now : Binary64) :
    (∃ sendTimeout, b.Granted callerTimeout now sendTimeout ∧
      b.reserve callerTimeout now = b.commit sendTimeout) ∨
    (∃ reason e, (b.terminal = none ∨ reason = b.terminal) ∧
      b.reserve callerTimeout now = ({ b with terminal := reason }, .error e)) := by
  unfold reserve
  cases hval : validateCallerTimeout callerTimeout with
  | error e => exact .inr ⟨b.terminal, e, .inr rfl, rfl⟩
  | ok timeout =>
    obtain ⟨rfl, htfin, htpos⟩ := validateCallerTimeout_ok hval
    dsimp only
    cases hterm : b.terminal with
    | some reason => exact .inr ⟨b.terminal, _, .inr hterm, rfl⟩
    | none =>
      dsimp only
      split_ifs with hcancel hnow hdead hmax hsend
      · exact .inr ⟨_, _, .inl rfl, rfl⟩
      · exact .inr ⟨b.terminal, _, .inl rfl, rfl⟩
      · exact .inr ⟨_, _, .inl rfl, rfl⟩
      · exact .inr ⟨_, _, .inl rfl, rfl⟩
      · exact .inr ⟨_, _, .inl rfl, rfl⟩
      · -- nothing refuses: the send timeout is a positive number
        have hnowfin : now.isFinite = true := by simpa using hnow
        have htnan := Binary64.isNaN_of_isFinite htfin
        have hrnan := Binary64.isNaN_sub b.deadline_finite hnowfin
        have hlt : now < b.deadline :=
          Binary64.lt_of_not_le (Binary64.isNaN_of_isFinite hnowfin)
            (Binary64.isNaN_of_isFinite b.deadline_finite) hdead
        have hpos :=
          Binary64.lt_of_not_le Binary64.isNaN_zero (Binary64.isNaN_min htnan hrnan) hsend
        exact .inl ⟨_, ⟨hterm, by simpa using hcancel, by omega, hnowfin, hlt, hpos,
          Binary64.min_le_left htnan, Binary64.min_le_right htnan hrnan⟩, rfl⟩

theorem setOutcome_attempts {attempt : ℤ} {outcome : Outcome} {rows rows' : List DispatchRow}
    (h : setOutcome attempt outcome rows = some rows') :
    rows'.map (·.attempt) = rows.map (·.attempt) := by
  induction rows generalizing rows' with
  | nil => cases h
  | cons row rows ih =>
    rw [setOutcome] at h
    split_ifs at h
    · cases h
      rfl
    · obtain ⟨tail, htail, rfl⟩ := Option.map_eq_some_iff.mp h
      simp only [List.map_cons, ih htail]

/-- `note_outcome` of a reserved attempt rewrites rows; otherwise it does nothing. -/
theorem noteOutcome_cases (b : RequestBudget) (attempt : ℤ) (outcome : Outcome) :
    (∃ rows, setOutcome attempt outcome b.dispatches = some rows ∧
      b.noteOutcome attempt outcome =
        ({ b with
            dispatches := rows
            inFlight := if rows.any (·.outcome = .unknown) then .unknown else .known }, .ok ())) ∨
    ∃ e, b.noteOutcome attempt outcome = (b, .error e) := by
  unfold noteOutcome
  split_ifs
  · exact .inr ⟨_, rfl⟩
  · cases hset : setOutcome attempt outcome b.dispatches with
    | none => exact .inr ⟨_, rfl⟩
    | some rows => exact .inl ⟨rows, rfl, rfl⟩

/-- `allow_backoff` touches at most an open terminal reason. -/
theorem allowBackoff_cases (b : RequestBudget) (delay now : Binary64) :
    ∃ reason r, (b.terminal = none ∨ reason = b.terminal) ∧
      b.allowBackoff delay now = ({ b with terminal := reason }, r) := by
  unfold allowBackoff
  cases hterm : b.terminal with
  | some reason =>
    simp only [Option.getD_some]
    split_ifs
    · exact ⟨b.terminal, _, .inr hterm, rfl⟩
    · exact ⟨b.terminal, _, .inr hterm, rfl⟩
    · exact ⟨some reason, _, .inr rfl, rfl⟩
    · exact ⟨b.terminal, _, .inr hterm, rfl⟩
  | none =>
    dsimp only
    split_ifs
    · exact ⟨b.terminal, _, .inl rfl, rfl⟩
    · exact ⟨b.terminal, _, .inl rfl, rfl⟩
    · exact ⟨_, _, .inl rfl, rfl⟩
    · exact ⟨_, _, .inl rfl, rfl⟩
    · exact ⟨b.terminal, _, .inl rfl, rfl⟩
    · exact ⟨_, _, .inl rfl, rfl⟩
    · exact ⟨b.terminal, _, .inl rfl, rfl⟩

end RequestBudget

end SzlRouter
