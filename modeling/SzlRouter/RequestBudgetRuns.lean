/-
Every interleaving of calls on one request budget.

Each method body runs under the budget lock, so whatever the callers do, what
the budget sees is one list of calls, in the order in which the lock was taken.

* `step_effect` — what one call can do;
* `Consistent.step` — the joint invariant of the counter, the rows and the flag;
* `budget_runs` — the counter, the numbers handed out, the rows, the terminal
  reason and the in-flight flag, for every list of calls.
-/
import SzlRouter.RequestBudget
import SzlRouter.Transition

open Py Transition

namespace SzlRouter

namespace RequestBudget

/-- One call on a budget, with the clock reading it takes. -/
inductive Call
  | reserve (callerTimeout now : Binary64)
  | noteOutcome (attempt : ℤ) (outcome : Outcome)
  | allowBackoff (delay now : Binary64)
  | cancel
  | close (reason : TerminalReason)
  | markSuccess
  deriving DecidableEq

/-- What the caller gets back. -/
inductive Response
  | reserved (result : Except BudgetError (ℕ × Binary64))
  | backoff (result : Except String Bool)
  | done (result : Except String Unit)

def step (b : RequestBudget) : Call → RequestBudget × Response
  | .reserve callerTimeout now =>
    let (b, r) := b.reserve callerTimeout now
    (b, .reserved r)
  | .noteOutcome attempt outcome =>
    let (b, r) := b.noteOutcome attempt outcome
    (b, .done r)
  | .allowBackoff delay now =>
    let (b, r) := b.allowBackoff delay now
    (b, .backoff r)
  | .cancel => (b.cancel, .done (.ok ()))
  | .close reason =>
    let (b, r) := b.close reason
    (b, .done r)
  | .markSuccess => (b.markSuccess, .done (.ok ()))

/-- The attempt number a response hands out. -/
def Response.attempt? : Response → Option ℕ
  | .reserved (.ok (attempt, _)) => some attempt
  | _ => none

/-- The attempt numbers handed out, in order. -/
def granted (responses : List Response) : List ℕ := responses.filterMap Response.attempt?

/-- The flag that the rows justify. -/
def inFlightOf (rows : List DispatchRow) : InFlight :=
  if rows = [] then .none
  else if rows.any (·.outcome = .unknown) then .unknown else .known

/-- The three ways a call can change a budget. -/
inductive Effect (b : RequestBudget) : RequestBudget → Response → Prop
  /-- An attempt is reserved. -/
  | grant {callerTimeout now sendTimeout : Binary64}
      (h : b.Granted callerTimeout now sendTimeout) :
      Effect b (b.commit sendTimeout).1 (.reserved (b.commit sendTimeout).2)
  /-- The outcome of a reserved attempt is written. -/
  | note {attempt : ℤ} {outcome : Outcome} {rows : List DispatchRow} {response : Response}
      (h : setOutcome attempt outcome b.dispatches = some rows)
      (hresponse : response.attempt? = none) :
      Effect b
        { b with
          dispatches := rows
          inFlight := if rows.any (·.outcome = .unknown) then .unknown else .known }
        response
  /-- At most the flags that stop the request are raised. -/
  | flag {reason : Option TerminalReason} {cancelled : Bool} {response : Response}
      (hreason : b.terminal = none ∨ reason = b.terminal)
      (hcancelled : b.cancelled = true → cancelled = true)
      (hresponse : response.attempt? = none) :
      Effect b { b with terminal := reason, cancelled := cancelled } response

theorem step_effect (b : RequestBudget) (c : Call) : Effect b (b.step c).1 (b.step c).2 := by
  -- the first reason stands
  have hgetD : ∀ reason : TerminalReason,
      b.terminal = none ∨ some (b.terminal.getD reason) = b.terminal := by
    intro reason
    cases b.terminal with
    | none => exact .inl rfl
    | some _ => exact .inr rfl
  cases c with
  | reserve callerTimeout now =>
    rcases b.reserve_cases callerTimeout now with ⟨t, hgranted, heq⟩ | ⟨reason, e, hreason, heq⟩
    · rw [step, heq]
      exact .grant hgranted
    · rw [step, heq]
      exact .flag hreason id rfl
  | noteOutcome attempt outcome =>
    rcases b.noteOutcome_cases attempt outcome with ⟨rows, hrows, heq⟩ | ⟨e, heq⟩
    · rw [step, heq]
      exact .note hrows rfl
    · rw [step, heq]
      exact .flag (.inr rfl) id rfl
  | allowBackoff delay now =>
    obtain ⟨reason, r, hreason, heq⟩ := b.allowBackoff_cases delay now
    rw [step, heq]
    exact .flag hreason id rfl
  | cancel =>
    refine .flag ?_ (fun _ => rfl) rfl
    split_ifs with h
    · exact .inl h.1
    · exact .inr rfl
  | close reason =>
    rw [step, close]
    split_ifs
    · exact .flag (.inr rfl) id rfl
    · exact .flag (hgetD reason) id rfl
  | markSuccess => exact .flag (hgetD .success) id rfl

/-! ### The joint invariant -/

/-- The counter, the rows, the flag and the numbers handed out agree. It is what a lock around
each call keeps, whatever the order of the calls. -/
structure Consistent (limits : BudgetLimits) (b : RequestBudget) (responses : List Response) :
    Prop where
  limits_eq : b.toBudgetLimits = limits
  reserved_le : b.reserved ≤ limits.maxAttempts
  granted_eq : granted responses = List.range' 1 b.reserved
  attempts_eq : b.dispatches.map (·.attempt) = List.range' 1 b.reserved
  inFlight_eq : b.inFlight = inFlightOf b.dispatches

theorem Consistent.ofLimits (limits : BudgetLimits) :
    Consistent limits (ofLimits limits) [] :=
  ⟨rfl, Nat.zero_le _, rfl, rfl, rfl⟩

private theorem granted_snoc (responses : List Response) (response : Response) :
    granted (responses ++ [response]) = granted responses ++ response.attempt?.toList := by
  rw [granted, List.filterMap_append]
  cases h : response.attempt? <;> simp [granted, h]

theorem Consistent.effect {limits : BudgetLimits} {b b' : RequestBudget}
    {responses : List Response} {response : Response} (hb : Consistent limits b responses)
    (h : Effect b b' response) : Consistent limits b' (responses ++ [response]) := by
  cases h with
  | grant hgranted =>
    have hlt : b.reserved < limits.maxAttempts := hb.limits_eq ▸ hgranted.below
    refine ⟨hb.limits_eq, hlt, ?_, ?_, ?_⟩
    · rw [granted_snoc, hb.granted_eq]
      exact (List.range'_1_concat ..).symm ▸ by simp [commit, Response.attempt?, Nat.add_comm]
    · simp only [commit, List.map_append, hb.attempts_eq, List.map_cons, List.map_nil]
      rw [List.range'_1_concat, Nat.add_comm 1]
    · simp [commit, inFlightOf]
  | note hrows hresponse =>
    have hattempts := setOutcome_attempts hrows
    refine ⟨hb.limits_eq, hb.reserved_le, ?_, hattempts.trans hb.attempts_eq, ?_⟩
    · rw [granted_snoc, hresponse]
      simpa using hb.granted_eq
    · -- some row was rewritten, so there is one
      rename_i attempt outcome rows
      have hne : rows ≠ [] := by
        rintro rfl
        cases hd : b.dispatches with
        | nil => simp [hd, setOutcome] at hrows
        | cons row rest => simp [hd] at hattempts
      rw [inFlightOf, if_neg hne]
  | flag hreason hcancelled hresponse =>
    refine ⟨hb.limits_eq, hb.reserved_le, ?_, hb.attempts_eq, hb.inFlight_eq⟩
    rw [granted_snoc, hresponse]
    simpa using hb.granted_eq

theorem Consistent.run {limits : BudgetLimits} (calls : List Call) :
    Consistent limits (runs step (RequestBudget.ofLimits limits) calls).1
      (runs step (RequestBudget.ofLimits limits) calls).2 := by
  have h := runs_history (P := Consistent limits)
    (fun b _ c hb => hb.effect (b.step_effect c)) (Consistent.ofLimits limits) calls
  rwa [List.nil_append] at h

/-! ### What stays as it is -/

/-- The limits stay, and the counter never falls. -/
structure Grows (b b' : RequestBudget) : Prop where
  limits : b'.toBudgetLimits = b.toBudgetLimits
  reserved_le : b.reserved ≤ b'.reserved

theorem Grows.refl (b : RequestBudget) : Grows b b := ⟨rfl, Nat.le_refl _⟩

theorem Grows.trans {b b' b'' : RequestBudget} (h : Grows b b') (h' : Grows b' b'') :
    Grows b b'' :=
  ⟨h'.limits.trans h.limits, h.reserved_le.trans h'.reserved_le⟩

theorem Effect.grows {b b' : RequestBudget} {response : Response} (h : Effect b b' response) :
    Grows b b' := by
  cases h with
  | grant => exact ⟨rfl, Nat.le_succ _⟩
  | note => exact ⟨rfl, Nat.le_refl _⟩
  | flag => exact ⟨rfl, Nat.le_refl _⟩

theorem grows_runs (b : RequestBudget) (calls : List Call) : Grows b (runs step b calls).1 :=
  runs_invariant (P := Grows b) (fun b c hb => hb.trans (b.step_effect c).grows) (.refl b) calls

theorem Effect.terminal {b b' : RequestBudget} {response : Response} (h : Effect b b' response)
    {reason : TerminalReason} (hb : b.terminal = some reason) : b'.terminal = some reason := by
  cases h with
  | grant hgranted => exact absurd (hgranted.open_.symm.trans hb) (by simp)
  | note => exact hb
  | flag hreason =>
    rcases hreason with hnone | hsame
    · exact absurd (hnone.symm.trans hb) (by simp)
    · exact hsame.trans hb

/-- A terminal reason that is set never changes. -/
theorem terminal_runs {b : RequestBudget} {reason : TerminalReason}
    (h : b.terminal = some reason) (calls : List Call) :
    (runs step b calls).1.terminal = some reason :=
  runs_invariant (P := fun b : RequestBudget => b.terminal = some reason)
    (fun b c hb => (b.step_effect c).terminal hb) h calls

/-- The request has been stopped: no attempt can be granted. -/
def Stopped (b : RequestBudget) : Prop := b.terminal ≠ none ∨ b.cancelled = true

theorem Effect.stopped {b b' : RequestBudget} {response : Response} (h : Effect b b' response)
    (hb : b.Stopped) : b'.Stopped ∧ response.attempt? = none := by
  cases h with
  | grant hgranted =>
    rcases hb with hterm | hcancel
    · exact absurd hgranted.open_ hterm
    · exact absurd (hgranted.active.symm.trans hcancel) (by simp)
  | note _ hresponse => exact ⟨hb, hresponse⟩
  | flag hreason hcancelled hresponse =>
    refine ⟨?_, hresponse⟩
    rcases hb with hterm | hcancel
    · exact .inl (hreason.resolve_left hterm ▸ hterm)
    · exact .inr (hcancelled hcancel)

/-- Once stopped, a budget hands out no attempt. -/
theorem granted_of_stopped {b : RequestBudget} (h : b.Stopped) (calls : List Call) :
    granted (runs step b calls).2 = [] := by
  have hstep : ∀ (b : RequestBudget) rs c, b.Stopped ∧ granted rs = [] →
      (b.step c).1.Stopped ∧ granted (rs ++ [(b.step c).2]) = [] := by
    intro b rs c hb
    have heffect := (b.step_effect c).stopped hb.1
    exact ⟨heffect.1, by rw [granted_snoc, hb.2, heffect.2]; rfl⟩
  have hstart : b.Stopped ∧ granted [] = [] := ⟨h, rfl⟩
  exact (runs_history hstep hstart calls).2

theorem Effect.cancelled {b b' : RequestBudget} {response : Response} (h : Effect b b' response)
    (hb : b.cancelled = true) : b'.cancelled = true := by
  cases h with
  | grant => exact hb
  | note => exact hb
  | flag _ hcancelled => exact hcancelled hb

/-- `cancel` is remembered. -/
theorem cancelled_of_mem {b : RequestBudget} {calls : List Call} (h : Call.cancel ∈ calls) :
    (runs step b calls).1.cancelled = true := by
  obtain ⟨pre, post, rfl⟩ := List.append_of_mem h
  rw [runs_append, runs_cons]
  exact runs_invariant (P := fun b : RequestBudget => b.cancelled = true)
    (fun b c hb => (b.step_effect c).cancelled hb) rfl post

/-- A refused `reserve` leaves the counter, the rows and the flag as they were. -/
theorem reserve_refused {b : RequestBudget} {callerTimeout now : Binary64} {e : BudgetError}
    (h : (b.reserve callerTimeout now).2 = .error e) :
    (b.reserve callerTimeout now).1.reserved = b.reserved ∧
      (b.reserve callerTimeout now).1.dispatches = b.dispatches ∧
      (b.reserve callerTimeout now).1.inFlight = b.inFlight := by
  rcases b.reserve_cases callerTimeout now with ⟨t, _, heq⟩ | ⟨reason, e', _, heq⟩
  · rw [heq] at h
    cases h
  · rw [heq]
    exact ⟨rfl, rfl, rfl⟩

/-! ### Every interleaving -/

private theorem inFlightOf_none {rows : List DispatchRow} {n : ℕ}
    (h : rows.map (·.attempt) = List.range' 1 n) : inFlightOf rows = .none ↔ n = 0 := by
  have hlen : rows.length = n := by simpa using congrArg List.length h
  rw [inFlightOf, ← hlen, List.length_eq_zero_iff]
  split_ifs <;> simp_all

private theorem inFlightOf_unknown (rows : List DispatchRow) :
    inFlightOf rows = .unknown ↔ ∃ row ∈ rows, row.outcome = .unknown := by
  rw [inFlightOf]
  split_ifs with hnil hany
  · simp [hnil]
  · simpa using hany
  · simpa using hany

/-- **The budget over every interleaving of calls.** However the threads take turns, attempts are
numbered as they are granted and never exceed the limit, the in-flight flag tells what the rows
know, the first reason stands, and once there is one, or a cancellation, nothing more is granted.
-/
theorem budget_runs (limits : BudgetLimits) (calls : List Call) :
    let b := (runs step (ofLimits limits) calls).1
    let responses := (runs step (ofLimits limits) calls).2
    -- the numbers handed out and the rows count the reserved attempts
    b.reserved ≤ limits.maxAttempts ∧
    granted responses = List.range' 1 b.reserved ∧
    b.dispatches.map (·.attempt) = List.range' 1 b.reserved ∧
    -- the in-flight flag tells what the rows know
    (b.inFlight = .none ↔ b.reserved = 0) ∧
    (b.inFlight = .unknown ↔ ∃ row ∈ b.dispatches, row.outcome = .unknown) ∧
    -- whatever was called before, and whatever is called after
    (∀ pre post, calls = pre ++ post →
      let mid := (runs step (ofLimits limits) pre).1
      (∀ reason, mid.terminal = some reason → b.terminal = some reason) ∧
      (mid.terminal ≠ none ∨ Call.cancel ∈ pre → granted (runs step mid post).2 = []) ∧
      ∀ callerTimeout now e, (mid.reserve callerTimeout now).2 = .error e →
        (mid.reserve callerTimeout now).1.reserved = mid.reserved ∧
        (mid.reserve callerTimeout now).1.dispatches = mid.dispatches ∧
        (mid.reserve callerTimeout now).1.inFlight = mid.inFlight) := by
  have hrun := @Consistent.run limits calls
  refine ⟨hrun.reserved_le, hrun.granted_eq, hrun.attempts_eq, ?_, ?_, ?_⟩
  · rw [hrun.inFlight_eq]
    exact inFlightOf_none hrun.attempts_eq
  · rw [hrun.inFlight_eq]
    exact inFlightOf_unknown _
  · rintro pre post rfl
    refine ⟨fun reason hreason => ?_, fun hstop => ?_, fun _ _ _ => reserve_refused⟩
    · rw [runs_append]
      exact terminal_runs hreason post
    · exact granted_of_stopped (hstop.imp id cancelled_of_mem) post

end RequestBudget

end SzlRouter
