/-
What `chat` and `embed` share (`szl_router/core.py`): provenance, the try of one
route, and the end of a walk without an answer.

`tryRoute` is the body that both route loops have in common, from `t0` to the row
of the answer; what each loop does next is its own.
-/
import SzlRouter.Retry

open Py

namespace SzlRouter

/-! ### Provenance -/

/-- `Provenance`. -/
structure Provenance where
  servedBy : Option Str := none
  provider : Option Str := none
  upstreamModel : Option Str := none
  baseUrl : Option Str := none
  sovereign : Bool := false
  energySource : Option Str := none
  tier : Option Str := none
  attempts : List Attempt := []
  routing : Option Json := none
  cost : Option Json := none
  requestId : Option Str := none
  policyRevision : Option Str := none
  terminalReason : Option TerminalReason := none
  attemptCeiling : Option ℕ := none
  attemptsReserved : Option ℕ := none

/-- A string or `None`. -/
def optStr (s : Option Str) : Json := (s.map Json.str).getD .null

def optNat (n : Option ℕ) : Json := (n.map fun n => Json.int n).getD .null

/-- The names of the members that tell of a budget. -/
def budgetKeys : List Str :=
  [lit "request_id", lit "policy_revision", lit "terminal_reason", lit "attempt_ceiling",
    lit "attempts_reserved"]

namespace Provenance

/-- The members of the budget, when the call had one. -/
def budgetMembers (p : Provenance) : Dict :=
  if p.requestId.isSome then
    [(lit "request_id", optStr p.requestId), (lit "policy_revision", optStr p.policyRevision),
      (lit "terminal_reason", optStr (p.terminalReason.map fun r => lit r.text)),
      (lit "attempt_ceiling", optNat p.attemptCeiling),
      (lit "attempts_reserved", optNat p.attemptsReserved)]
  else []

/-- `to_dict`. -/
def toDict (p : Provenance) : Dict :=
  [(lit "served_by", optStr p.servedBy), (lit "provider", optStr p.provider),
    (lit "upstream_model", optStr p.upstreamModel), (lit "base_url", optStr p.baseUrl),
    (lit "sovereign", .bool p.sovereign), (lit "energy_source", optStr p.energySource),
    (lit "tier", optStr p.tier), (lit "attempts", .arr (p.attempts.map Attempt.toJson))] ++
  (p.routing.map fun r => (lit "routing", r)).toList ++
  (p.cost.map fun c => (lit "cost", c)).toList ++ p.budgetMembers

end Provenance

/-- The provenance of an answer that a route of `provider` served. -/
def servedProvenance (route : Route) (provider : Provider) (env : Env)
    (attempts : List Attempt) : Provenance where
  servedBy := some (route.1 ++ lit ":" ++ route.2)
  provider := some route.1
  upstreamModel := some route.2
  baseUrl := some (provider.baseUrl env)
  sovereign := provider.sovereign
  energySource := some provider.energySource
  tier := some (tierOf provider).text
  attempts := attempts

/-! ### Budgets during a walk -/

namespace CallState

/-- A step under the lock of the budget, if the call has one. -/
def onBudget {α : Type} (S : Surroundings) (s : CallState)
    (f : RequestBudget → RequestBudget × α) : Option α × CallState :=
  match s.budget with
  | none => (none, s)
  | some b =>
    let r := f (S.budgetAt b s.tick)
    (some r.2, { s.next with budget := some r.1 })

/-- `request_budget.terminal`; `none` without a budget. -/
def readTerminal (S : Surroundings) (s : CallState) : Option TerminalReason × CallState :=
  let r := s.onBudget S fun b => (b, b.terminal)
  (r.1.join, r.2)

/-- `request_budget.reserved`. -/
def readReserved (S : Surroundings) (s : CallState) : Option ℕ × CallState :=
  s.onBudget S fun b => (b, b.reserved)

/-- `request_budget.mark_success()`. -/
def markSuccess (S : Surroundings) (s : CallState) : CallState :=
  (s.onBudget S fun b => (b.markSuccess, ())).2

/-- `request_budget.close(reason)`. -/
def close (S : Surroundings) (reason : TerminalReason) (s : CallState) : CallState :=
  (s.onBudget S fun b => b.close reason).2

/-- `_budget_fields`. -/
def budgetFields (S : Surroundings) (p : Provenance) (s : CallState) : Provenance × CallState :=
  let (terminal, s') := s.readTerminal S
  let (reserved, s') := s'.readReserved S
  ({ p with
      requestId := s.budget.map (·.requestId)
      policyRevision := s.budget.map (·.policyRevision)
      terminalReason := terminal
      attemptCeiling := s.budget.map (·.maxAttempts)
      attemptsReserved := reserved }, s')

end CallState

/-- `_closed_reason`. -/
def closedReason (attempts : List Attempt) (dispatched : ℕ) : TerminalReason :=
  if dispatched ≠ 0 then .providerUnavailable
  else if attempts ≠ [] ∧
      attempts.all fun a => Str.startsWith (a.error.getD []) (lit "pricing/") then .policyBlocked
  else .providerUnavailable

/-- The end of a walk that served nothing: a budget is closed with the reason, unless
it already has one. -/
def closeWalk (S : Surroundings) (s : CallState) : Option TerminalReason × CallState :=
  let (terminal, s) := s.readTerminal S
  match terminal with
  | some _ => s.readTerminal S
  | none =>
    let (reserved, s) := s.readReserved S
    let s := s.close S (closedReason s.attempts (reserved.getD 0))
    s.readTerminal S

/-! ### What the bookkeeping of a walk keeps -/

namespace CallState

variable (S : Surroundings) (s : CallState)

@[simp]
theorem onBudget_attempts {α : Type} (f : RequestBudget → RequestBudget × α) :
    (s.onBudget S f).2.attempts = s.attempts := by
  rw [onBudget]
  cases s.budget <;> rfl

@[simp]
theorem onBudget_events {α : Type} (f : RequestBudget → RequestBudget × α) :
    (s.onBudget S f).2.events = s.events := by
  rw [onBudget]
  cases s.budget <;> rfl

theorem markSuccess_attempts : (s.markSuccess S).attempts = s.attempts := by simp [markSuccess]

theorem markSuccess_events : (s.markSuccess S).events = s.events := by simp [markSuccess]

theorem budgetFields_attempts (p : Provenance) :
    (s.budgetFields S p).2.attempts = s.attempts := by
  simp [budgetFields, readTerminal, readReserved]

theorem budgetFields_events (p : Provenance) : (s.budgetFields S p).2.events = s.events := by
  simp [budgetFields, readTerminal, readReserved]

end CallState

/-- The provenance names the route that was served, its provider and the rows. -/
structure Provenance.Names (p : Provenance) (route : Route) (provider : Provider) (env : Env)
    (rows : List Attempt) : Prop where
  servedBy_eq : p.servedBy = some (route.1 ++ lit ":" ++ route.2)
  provider_eq : p.provider = some route.1
  upstreamModel_eq : p.upstreamModel = some route.2
  baseUrl_eq : p.baseUrl = some (provider.baseUrl env)
  sovereign_eq : p.sovereign = provider.sovereign
  energySource_eq : p.energySource = some provider.energySource
  tier_eq : p.tier = some (tierOf provider).text
  attempts_eq : p.attempts = rows

theorem Provenance.Names.budgetFields {p : Provenance} {route : Route} {provider : Provider}
    {env : Env} {rows : List Attempt} (h : p.Names route provider env rows) (S : Surroundings)
    (s : CallState) : (s.budgetFields S p).1.Names route provider env rows :=
  ⟨h.servedBy_eq, h.provider_eq, h.upstreamModel_eq, h.baseUrl_eq, h.sovereign_eq,
    h.energySource_eq, h.tier_eq, h.attempts_eq⟩

/-- Time passed; the budget, the rows and the events are the same. -/
structure CallState.Same (s s' : CallState) : Prop where
  tick_le : s.tick ≤ s'.tick
  budget : s'.budget = s.budget
  attempts : s'.attempts = s.attempts
  events : s'.events = s.events

theorem CallState.Same.refl (s : CallState) : s.Same s := ⟨Nat.le_refl _, rfl, rfl, rfl⟩

theorem CallState.Same.next (s : CallState) : s.Same s.next := ⟨Nat.le_succ _, rfl, rfl, rfl⟩

theorem CallState.Same.trans {s s' s'' : CallState} (h : s.Same s') (h' : s'.Same s'') :
    s.Same s'' :=
  ⟨h.tick_le.trans h'.tick_le, h'.budget.trans h.budget, h'.attempts.trans h.attempts,
    h'.events.trans h.events⟩

/-- A step on a budget that reserves nothing. -/
def ReservesNothing {α : Type} (f : RequestBudget → RequestBudget × α) : Prop :=
  ∀ b, (f b).1.toBudgetLimits = b.toBudgetLimits ∧ (f b).1.reserved = b.reserved

/-- A property that only dispatches can break: readings, skip rows and steps on the
budget that reserve nothing keep it. -/
structure Quiet (S : Surroundings) (P : CallState → Prop) : Prop where
  same : ∀ {s s' : CallState}, s.Same s' → P s → P s'
  skip : ∀ {s : CallState} {a : Attempt}, a.isSkip = true → a.ok = false → P s → P (s.row a)
  onBudget : ∀ {s : CallState} {α : Type} {f : RequestBudget → RequestBudget × α},
    ReservesNothing f → P s → P (s.onBudget S f).2

/-- That a tick is not before `start` can only become true. -/
theorem quiet_later (S : Surroundings) (start : ℕ) : Quiet S fun s => start ≤ s.tick where
  same := fun hs h => Nat.le_trans h hs.tick_le
  skip := fun _ _ h => h
  onBudget := fun {s α f} _ h => by
    rw [CallState.onBudget]
    cases s.budget with
    | none => exact h
    | some b => exact Nat.le_succ_of_le h

theorem Quiet.and {S : Surroundings} {P Q : CallState → Prop} (hP : Quiet S P) (hQ : Quiet S Q) :
    Quiet S fun s => P s ∧ Q s where
  same := fun hs h => ⟨hP.same hs h.1, hQ.same hs h.2⟩
  skip := fun ha hok h => ⟨hP.skip ha hok h.1, hQ.skip ha hok h.2⟩
  onBudget := fun hf h => ⟨hP.onBudget hf h.1, hQ.onBudget hf h.2⟩

namespace Quiet

variable {S : Surroundings} {P : CallState → Prop} (hP : Quiet S P) {s : CallState}

include hP

theorem readTerminal (h : P s) : P (s.readTerminal S).2 :=
  hP.onBudget (f := fun b => (b, b.terminal)) (fun _ => ⟨rfl, rfl⟩) h

theorem readReserved (h : P s) : P (s.readReserved S).2 :=
  hP.onBudget (f := fun b => (b, b.reserved)) (fun _ => ⟨rfl, rfl⟩) h

theorem markSuccess (h : P s) : P (s.markSuccess S) :=
  hP.onBudget (f := fun b => (b.markSuccess, ())) (fun _ => ⟨rfl, rfl⟩) h

theorem close (reason : TerminalReason) (h : P s) : P (s.close S reason) := by
  refine hP.onBudget (f := fun b => b.close reason) (fun b => ?_) h
  simp only [RequestBudget.close]
  split_ifs <;> exact ⟨rfl, rfl⟩

theorem budgetFields (p : Provenance) (h : P s) : P (s.budgetFields S p).2 :=
  hP.readReserved (hP.readTerminal h)

theorem closeWalk (h : P s) : P (closeWalk S s).2 := by
  have hterm := hP.readTerminal h
  rw [SzlRouter.closeWalk]
  revert hterm
  rcases s.readTerminal S with ⟨_ | reason, s'⟩
  · exact fun hterm => hP.readTerminal (hP.close _ (hP.readReserved hterm))
  · exact fun hterm => hP.readTerminal hterm

end Quiet

/-! ### One route -/

/-- `attempts[-1]` rewritten; the list has a row, because the retry helper has just
appended one. -/
def modifyLast (f : Attempt → Attempt) : List Attempt → List Attempt
  | [] => []
  | [a] => [f a]
  | a :: as => a :: modifyLast f as

theorem modifyLast_append (f : Attempt → Attempt) (as : List Attempt) (a : Attempt) :
    modifyLast f (as ++ [a]) = as ++ [f a] := by
  induction as with
  | nil => rfl
  | cons x as ih =>
    cases as with
    | nil => rfl
    | cons y as => exact congrArg (x :: ·) ih

/-- The row of a route whose retries failed without a budget. -/
def failureRow (route : Route) (e : Failure) (dt : ℤ) : Attempt :=
  match e with
  | .http code body message =>
    ⟨route.1, route.2, false, some code, some (((decodeUtf8 body).map (·.take 200)).getD message),
      some dt⟩
  | e => ⟨route.1, route.2, false, none, some e.describe, some dt⟩

/-- What became of a route that was tried. -/
inductive RouteEnd
  /-- `BudgetStop`: no dispatch is left. -/
  | stopped
  /-- The retries failed. -/
  | failed
  /-- The body was not what was asked for. -/
  | rejected
  | served (result : Dict)
  /-- The retry loop ran out of fuel, which does not happen. -/
  | diverged
  deriving DecidableEq

/-- Whether `d.get(k) is not None`. -/
def present (d : Dict) (k : Str) : Bool :=
  match Dict.get d k with
  | none => false
  | some .null => false
  | some _ => true

/-- The members of an object. -/
def fields : Json → Dict
  | .obj d => d
  | _ => []

/-- The rows of a body that does not pass, and of one that does. -/
def rejectRow (route : Route) (detail : String) (dt : ℤ) (s : CallState) : CallState :=
  if s.budget.isNone then
    s.row ⟨route.1, route.2, false, some 200, some (lit detail), some dt⟩
  else
    { s with
      attempts := modifyLast (fun a =>
        { a with ok := false, status := some 200, error := some (lit detail),
                 latencyMs := some dt }) s.attempts }

def acceptRow (route : Route) (dt : ℤ) (s : CallState) : CallState :=
  if s.budget.isNone then s.row ⟨route.1, route.2, true, some 200, none, some dt⟩
  else { s with attempts := modifyLast (fun a => { a with latencyMs := some dt }) s.attempts }

/-- Try one route: the retries, and the check of the body that came back. -/
def tryRoute (S : Surroundings) (cfg : RetryConfig) (poster : Poster) (route : Route)
    (provider : Provider) (payload : Dict) (timeout : Binary64) (check : Json → Option String)
    (s : CallState) : RouteEnd × CallState :=
  let t0 := S.time s.tick
  let (r, s) := postWithRetry S cfg poster provider payload timeout s.next
  let dt := elapsedMs (S.time s.tick) t0
  match r with
  | .error (.stop _ _) => (.stopped, s)
  | .error .outOfFuel => (.diverged, s)
  | .error (.raised e) =>
    (.failed, if s.budget.isNone then s.next.row (failureRow route e dt) else s.next)
  | .ok result =>
    match check result.val with
    | some detail => (.rejected, rejectRow route detail dt s.next)
    | none => (.served (fields result.val), acceptRow route dt s.next)

theorem tryRoute_terminates (S : Surroundings) (cfg : RetryConfig) (poster : Poster)
    (route : Route) (provider : Provider) (payload : Dict) (timeout : Binary64)
    (check : Json → Option String) (s : CallState) :
    (tryRoute S cfg poster route provider payload timeout check s).1 ≠ .diverged := by
  have hends := postWithRetry_terminates S cfg poster provider payload timeout s.next
  rw [tryRoute]
  revert hends
  rcases postWithRetry S cfg poster provider payload timeout s.next with ⟨(_ | _ | _) | result, s'⟩
  · simp
  · simp
  · simp
  · intro _
    dsimp only
    cases check result.val <;> simp

theorem tick_le_tryRoute (S : Surroundings) (cfg : RetryConfig) (poster : Poster)
    (route : Route) (provider : Provider) (payload : Dict) (timeout : Binary64)
    (check : Json → Option String) (s : CallState) :
    s.tick ≤ (tryRoute S cfg poster route provider payload timeout check s).2.tick := by
  have htick := (Nat.le_succ s.tick).trans
    (tick_le_postWithRetry S cfg poster provider payload timeout s.next)
  rw [tryRoute]
  revert htick
  rcases postWithRetry S cfg poster provider payload timeout s.next with ⟨(_ | _ | _) | result, s'⟩
  · exact id
  · intro htick
    dsimp only
    split_ifs <;> exact htick.trans (Nat.le_succ _)
  · exact id
  · intro htick
    dsimp only
    cases check result.val with
    | some detail =>
      dsimp only [rejectRow]
      split_ifs <;> exact htick.trans (Nat.le_succ _)
    | none =>
      dsimp only [acceptRow]
      split_ifs <;> exact htick.trans (Nat.le_succ _)

end SzlRouter
