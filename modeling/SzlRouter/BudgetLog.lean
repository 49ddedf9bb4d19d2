/-
The calls that reach the budget of one `chat` or `embed` call.

A call of `chat` or `embed` takes the lock of its budget at known points, and before
each of them other users may have had it.  The log lists all these calls in the order
of the lock, so that the budget at the end is the budget at the start after the log.

* `tryRoute_replays` — the log of a try;
* `chat_replays`, `embed_replays` — the logs of whole calls;
* `chat_ends`, `embed_ends` — the log of a call that ends without an answer: what its
  tries asked of the budget, and then the closing.
-/
import SzlRouter.Chat
import SzlRouter.Embed

open Py Transition

namespace SzlRouter

open RequestBudget (Call)

/-! ### Logs -/

/-- The budget after the calls of a log. -/
def RequestBudget.after (b : RequestBudget) (log : List Call) : RequestBudget :=
  (runs RequestBudget.step b log).1

namespace RequestBudget

@[simp]
theorem after_nil (b : RequestBudget) : b.after [] = b := rfl

@[simp]
theorem after_cons (b : RequestBudget) (c : Call) (log : List Call) :
    b.after (c :: log) = (b.step c).1.after log := rfl

theorem after_append (b : RequestBudget) (log log' : List Call) :
    b.after (log ++ log') = (b.after log).after log' := by
  rw [after, runs_append]
  rfl

theorem reserved_le_after (b : RequestBudget) (log : List Call) :
    b.reserved ≤ (b.after log).reserved :=
  (b.grows_runs log).reserved_le

end RequestBudget

/-- The budget of `s'` is that of `s` after the log. -/
def Replays (s s' : CallState) (log : List Call) : Prop := s'.budget = s.budget.map (·.after log)

section

variable {s s' s'' : CallState} {log log' : List Call}

theorem Replays.of_budget_eq (h : s'.budget = s.budget) : Replays s s' [] := by
  rw [Replays, h]
  exact Option.map_id'.symm

theorem CallState.Same.replays (h : s.Same s') : Replays s s' [] := .of_budget_eq h.budget

theorem Replays.trans (h : Replays s s' log) (h' : Replays s' s'' log') :
    Replays s s'' (log ++ log') := by
  rw [Replays, h', h, Option.map_map]
  congr 1
  funext b
  exact (b.after_append log log').symm

/-- What leaves the budget alone adds nothing to a log. -/
theorem Replays.of_eq (h : Replays s s' log) (heq : s''.budget = s'.budget) :
    Replays s s'' log :=
  heq.trans h

end

section

variable (S : Surroundings)

/-- The calls at one taking of the lock: those of other users, and `own`. -/
def Surroundings.locked (own : List Call) (tick : ℕ) : List Call := S.others tick ++ own

theorem after_locked (own : List Call) (b : RequestBudget) (tick : ℕ) :
    b.after (S.locked own tick) = (S.budgetAt b tick).after own :=
  b.after_append _ _

theorem replays_onBudget {α : Type} {f : RequestBudget → RequestBudget × α} {own : List Call}
    (h : ∀ b, (f b).1 = b.after own) (s : CallState) :
    Replays s (s.onBudget S f).2 (S.locked own s.tick) := by
  rw [Replays, CallState.onBudget]
  cases hb : s.budget with
  | none => exact hb
  | some b =>
    dsimp only
    rw [Option.map_some, after_locked, h]

theorem replays_readTerminal (s : CallState) :
    Replays s (s.readTerminal S).2 (S.locked [] s.tick) :=
  replays_onBudget S (f := fun b => (b, b.terminal)) (fun _ => rfl) s

theorem replays_readReserved (s : CallState) :
    Replays s (s.readReserved S).2 (S.locked [] s.tick) :=
  replays_onBudget S (f := fun b => (b, b.reserved)) (fun _ => rfl) s

theorem replays_markSuccess (s : CallState) :
    Replays s (s.markSuccess S) (S.locked [.markSuccess] s.tick) :=
  replays_onBudget S (f := fun b => (b.markSuccess, ())) (fun _ => rfl) s

theorem replays_close (reason : TerminalReason) (s : CallState) :
    Replays s (s.close S reason) (S.locked [.close reason] s.tick) :=
  replays_onBudget S (f := fun b => b.close reason) (fun _ => rfl) s

end

/-! ### The log of a try -/

section

variable (S : Surroundings) (cfg : RetryConfig) (poster : Poster) (provider : Provider)
  (payload : Dict) (timeout : Binary64)

/-- The note of the outcome of a dispatch. -/
def noteLog (attempt : ℕ) (sendTimeout : Binary64) (s : CallState) : List Call :=
  match S.readClock s with
  | (.error _, _) => []
  | (.ok _, s) =>
    let (reply, s) := S.send poster provider payload sendTimeout s
    S.locked [.noteOutcome attempt reply.outcome] s.tick

/-- The question for a wait. -/
def backoffLog (attempt : ℕ) (s : CallState) : List Call :=
  match backoffSleepSeconds cfg (attempt - 1) (S.uniform s.tick) with
  | .error _ => []
  | .ok delay => S.locked [.allowBackoff delay (S.clock s.tick)] s.tick

/-- The log of the budgeted loop. -/
def loopLog : ℕ → RequestBudget → CallState → List Call
  | 0, _, _ => []
  | fuel + 1, b, s =>
    let found := S.budgetAt b s.tick
    S.locked [.reserve timeout (S.clock s.tick)] s.tick ++
    match found.reserve timeout (S.clock s.tick) with
    | (_, .error _) => []
    | (b, .ok (attempt, sendTimeout)) =>
      let s := s.log (.reserved ⟨attempt, found.terminal, S.clock s.tick, sendTimeout⟩)
      noteLog S poster provider payload attempt sendTimeout s ++
      match dispatch S poster provider payload attempt sendTimeout b s with
      | (.ok (.again e), b, s) =>
        backoffLog S cfg attempt s ++
        match backoff S cfg attempt e b s with
        | (none, b, s) => loopLog fuel b s
        | _ => []
      | _ => []

/-- The log of a try. -/
def tryLog (s : CallState) : List Call :=
  match s.budget with
  | none => []
  | some b => loopLog S cfg poster provider payload timeout budgetFuel b s.next

theorem dispatch_after (attempt : ℕ) (sendTimeout : Binary64) (b : RequestBudget)
    (s : CallState) :
    (dispatch S poster provider payload attempt sendTimeout b s).2.1 =
      b.after (noteLog S poster provider payload attempt sendTimeout s) := by
  rw [dispatch, noteLog]
  rcases S.readClock s with ⟨e | started, s'⟩
  · rfl
  · dsimp only
    generalize S.send poster provider payload sendTimeout s' = sent
    obtain ⟨reply, t⟩ := sent
    have hafter : b.after (S.locked [.noteOutcome attempt reply.outcome] t.tick) =
        ((S.budgetAt b t.tick).noteOutcome attempt reply.outcome).1 := after_locked S _ b t.tick
    dsimp only
    rw [hafter, noteReply]
    rcases (S.budgetAt b t.tick).noteOutcome attempt reply.outcome with ⟨b', _ | _⟩
    · rfl
    · dsimp only
      rcases S.readClock t.next with ⟨_ | _, _⟩ <;> rfl

theorem backoff_after (attempt : ℕ) (e : Failure) (b : RequestBudget) (s : CallState) :
    (backoff S cfg attempt e b s).2.1 = b.after (backoffLog S cfg attempt s) := by
  rw [backoff, backoffLog]
  cases backoffSleepSeconds cfg (attempt - 1) (S.uniform s.tick) with
  | error e' => rfl
  | ok delay =>
    have hafter : b.after (S.locked [.allowBackoff delay (S.clock s.tick)] s.tick) =
        ((S.budgetAt b s.tick).allowBackoff delay (S.clock s.tick)).1 := after_locked S _ b s.tick
    dsimp only
    rw [hafter]
    rcases (S.budgetAt b s.tick).allowBackoff delay (S.clock s.tick) with ⟨b', _ | _ | _⟩ <;> rfl

/-- The budget after the loop is the budget before it after the log. -/
theorem budgetedLoop_after (fuel : ℕ) (last : Option Failure) (b : RequestBudget)
    (s : CallState) :
    (budgetedLoop S cfg poster provider payload timeout fuel last b s).2.1 =
      b.after (loopLog S cfg poster provider payload timeout fuel b s) := by
  induction fuel generalizing last b s with
  | zero => rfl
  | succ fuel ih =>
    have hafter : b.after (S.locked [.reserve timeout (S.clock s.tick)] s.tick) =
        ((S.budgetAt b s.tick).reserve timeout (S.clock s.tick)).1 := after_locked S _ b s.tick
    rw [budgetedLoop, loopLog]
    dsimp only
    rw [RequestBudget.after_append, hafter]
    rcases (S.budgetAt b s.tick).reserve timeout (S.clock s.tick) with
      ⟨b₁, e | ⟨attempt, sendTimeout⟩⟩
    · rfl
    · dsimp only
      generalize s.log (.reserved ⟨attempt, (S.budgetAt b s.tick).terminal, S.clock s.tick,
        sendTimeout⟩) = s₁
      rw [RequestBudget.after_append, ← dispatch_after]
      rcases dispatch S poster provider payload attempt sendTimeout b₁ s₁ with
        ⟨e | (v | e | e), b₂, s₂⟩
      · rfl
      · rfl
      · rfl
      · -- the wait, and the rest of the loop
        dsimp only
        rw [RequestBudget.after_append, ← backoff_after S cfg attempt e]
        rcases backoff S cfg attempt e b₂ s₂ with ⟨_ | e', b₃, s₃⟩
        · exact ih (some e) b₃ s₃
        · rfl

/-- Without a budget there is none after the retries. -/
theorem unbudgetedLoop_budget (left attempt : ℕ) (s : CallState) :
    (unbudgetedLoop S cfg poster provider payload timeout left attempt s).2.budget = s.budget := by
  have hloop := unbudgetedLoop_invariant S cfg poster provider payload timeout
    (P := fun t => t.budget = s.budget) (R := fun _ t => t.budget = s.budget)
    (fun t h => by
      have hsent : (S.send poster provider payload timeout t).2.budget = s.budget := h
      revert hsent
      rcases S.send poster provider payload timeout t with ⟨_ | _, _⟩ <;> exact id)
    (fun t delay h => h) left attempt s rfl
  revert hloop
  rcases unbudgetedLoop S cfg poster provider payload timeout left attempt s with ⟨_ | _, _⟩ <;>
    exact id

theorem postWithRetry_replays (s : CallState) :
    Replays s (postWithRetry S cfg poster provider payload timeout s.next).2
      (tryLog S cfg poster provider payload timeout s) := by
  rw [postWithRetry, tryLog, Replays, show s.next.budget = s.budget from rfl]
  cases hb : s.budget with
  | none =>
    exact (unbudgetedLoop_budget S cfg poster provider payload timeout _ 0 s.next).trans hb
  | some b =>
    exact congrArg some
      (budgetedLoop_after S cfg poster provider payload timeout budgetFuel none b s.next)

theorem tryRoute_replays (route : Route) (check : Json → Option String) (s : CallState) :
    Replays s (tryRoute S cfg poster route provider payload timeout check s).2
      (tryLog S cfg poster provider payload timeout s) := by
  have hretry := postWithRetry_replays S cfg poster provider payload timeout s
  rw [tryRoute]
  revert hretry
  rcases postWithRetry S cfg poster provider payload timeout s.next with ⟨(_ | e | _) | v, s'⟩
  · exact id
  · intro hretry
    dsimp only
    -- no row that is written afterwards touches the budget
    split_ifs
    · exact hretry
    · exact hretry
  · exact id
  · intro hretry
    dsimp only
    cases check v.val with
    | some detail =>
      dsimp only [rejectRow]
      split_ifs
      · exact hretry
      · exact hretry
    | none =>
      dsimp only [acceptRow]
      split_ifs
      · exact hretry
      · exact hretry

end

/-! ### Who made the calls of a log -/

/-- A call that the tries of a request with this timeout make. -/
inductive OfTry (S : Surroundings) (timeout : Binary64) : Call → Prop
  | reserve (tick : ℕ) : OfTry S timeout (.reserve timeout (S.clock tick))
  | noteOutcome (attempt : ℤ) (outcome : Outcome) : OfTry S timeout (.noteOutcome attempt outcome)
  | allowBackoff (delay now : Binary64) : OfTry S timeout (.allowBackoff delay now)

/-- Every call of the log was made by another user of the budget, or by a try. -/
def FromTries (S : Surroundings) (timeout : Binary64) (log : List Call) : Prop :=
  ∀ c ∈ log, (∃ tick, c ∈ S.others tick) ∨ OfTry S timeout c

namespace FromTries

variable {S : Surroundings} {timeout : Binary64} {log log' : List Call}

theorem nil : FromTries S timeout [] := by simp [FromTries]

theorem append (h : FromTries S timeout log) (h' : FromTries S timeout log') :
    FromTries S timeout (log ++ log') := by
  intro c hc
  rcases List.mem_append.mp hc with hc | hc
  · exact h c hc
  · exact h' c hc

theorem locked {own : List Call} (h : ∀ c ∈ own, OfTry S timeout c) (tick : ℕ) :
    FromTries S timeout (S.locked own tick) := by
  intro c hc
  rcases List.mem_append.mp hc with hc | hc
  · exact .inl ⟨tick, hc⟩
  · exact .inr (h c hc)

theorem read (tick : ℕ) : FromTries S timeout (S.locked [] tick) :=
  locked (by simp) tick

theorem one {c : Call} (h : OfTry S timeout c) (tick : ℕ) :
    FromTries S timeout (S.locked [c] tick) :=
  locked (by simpa using h) tick

end FromTries

/-- Every call of the log was made by another user of the budget, or asks for an attempt. -/
def AsksOnly (S : Surroundings) (timeout : Binary64) (log : List Call) : Prop :=
  ∀ c ∈ log, (∃ tick, c ∈ S.others tick) ∨ ∃ tick, c = .reserve timeout (S.clock tick)

namespace AsksOnly

variable {S : Surroundings} {timeout : Binary64} {log log' : List Call}

theorem nil : AsksOnly S timeout [] := by simp [AsksOnly]

theorem append (h : AsksOnly S timeout log) (h' : AsksOnly S timeout log') :
    AsksOnly S timeout (log ++ log') := by
  intro c hc
  rcases List.mem_append.mp hc with hc | hc
  · exact h c hc
  · exact h' c hc

theorem read (tick : ℕ) : AsksOnly S timeout (S.locked [] tick) := by
  intro c hc
  rw [Surroundings.locked, List.append_nil] at hc
  exact .inl ⟨tick, hc⟩

theorem ask (tick : ℕ) :
    AsksOnly S timeout (S.locked [.reserve timeout (S.clock tick)] tick) := by
  intro c hc
  rcases List.mem_append.mp hc with hc | hc
  · exact .inl ⟨tick, hc⟩
  · exact .inr ⟨tick, List.mem_singleton.mp hc⟩

end AsksOnly

/-- What the tries of a call asked of the budget of `s`: as long as no attempt was granted
to anyone, they only asked for one. -/
structure Tried (S : Surroundings) (timeout : Binary64) (s : CallState) (log : List Call) :
    Prop where
  fromTries : FromTries S timeout log
  unsent : ∀ b, s.budget = some b → (b.after log).reserved = 0 → AsksOnly S timeout log

namespace Tried

variable {S : Surroundings} {timeout : Binary64} {s s' : CallState} {log log' : List Call}

theorem nil (s : CallState) : Tried S timeout s [] := ⟨.nil, fun _ _ _ => .nil⟩

theorem read (s : CallState) (tick : ℕ) : Tried S timeout s (S.locked [] tick) :=
  ⟨.read tick, fun _ _ _ => .read tick⟩

theorem append (h : Tried S timeout s log) (hreplays : Replays s s' log)
    (h' : Tried S timeout s' log') : Tried S timeout s (log ++ log') := by
  refine ⟨h.fromTries.append h'.fromTries, fun b hb hunsent => ?_⟩
  have hb' : s'.budget = some (b.after log) := by
    rw [hreplays, hb]
    rfl
  rw [RequestBudget.after_append] at hunsent
  have hle := (b.after log).reserved_le_after log'
  rw [hunsent] at hle
  exact (h.unsent b hb (Nat.le_zero.mp hle)).append (h'.unsent _ hb' hunsent)

theorem of_eq_left (h : Tried S timeout s' log) (heq : s'.budget = s.budget) :
    Tried S timeout s log :=
  ⟨h.fromTries, fun b hb => h.unsent b (heq.trans hb)⟩

end Tried

section

variable (S : Surroundings) (cfg : RetryConfig) (poster : Poster) (provider : Provider)
  (payload : Dict) (timeout : Binary64)

theorem fromTries_noteLog (attempt : ℕ) (sendTimeout : Binary64) (s : CallState) :
    FromTries S timeout (noteLog S poster provider payload attempt sendTimeout s) := by
  rw [noteLog]
  rcases S.readClock s with ⟨e | started, s'⟩
  · exact .nil
  · exact .one (.noteOutcome _ _) _

theorem fromTries_backoffLog (attempt : ℕ) (s : CallState) :
    FromTries S timeout (backoffLog S cfg attempt s) := by
  rw [backoffLog]
  cases backoffSleepSeconds cfg (attempt - 1) (S.uniform s.tick) with
  | error e => exact .nil
  | ok delay => exact .one (.allowBackoff _ _) _

theorem fromTries_loopLog (fuel : ℕ) (b : RequestBudget) (s : CallState) :
    FromTries S timeout (loopLog S cfg poster provider payload timeout fuel b s) := by
  induction fuel generalizing b s with
  | zero => exact .nil
  | succ fuel ih =>
    rw [loopLog]
    refine .append (.one (.reserve s.tick) _) ?_
    rcases (S.budgetAt b s.tick).reserve timeout (S.clock s.tick) with
      ⟨b₁, e | ⟨attempt, sendTimeout⟩⟩
    · exact .nil
    · dsimp only
      refine .append (fromTries_noteLog S poster provider payload timeout _ _ _) ?_
      generalize dispatch S poster provider payload attempt sendTimeout b₁ _ = d
      obtain ⟨e | (v | e | e), b₂, s₂⟩ := d
      · exact .nil
      · exact .nil
      · exact .nil
      · refine .append (fromTries_backoffLog S cfg timeout _ _) ?_
        rcases backoff S cfg attempt e b₂ s₂ with ⟨_ | e', b₃, s₃⟩
        · exact ih b₃ s₃
        · exact .nil

/-- When no attempt was granted, the loop asked for one and no more. -/
theorem loopLog_unsent (fuel : ℕ) (b : RequestBudget) (s : CallState)
    (h : (b.after (loopLog S cfg poster provider payload timeout fuel b s)).reserved = 0) :
    AsksOnly S timeout (loopLog S cfg poster provider payload timeout fuel b s) := by
  cases fuel with
  | zero => exact .nil
  | succ fuel =>
    rw [loopLog] at h ⊢
    dsimp only at h ⊢
    rw [RequestBudget.after_append, after_locked] at h
    rcases (S.budgetAt b s.tick).reserve_cases timeout (S.clock s.tick) with
      ⟨t, _, heq⟩ | ⟨reason, e, _, heq⟩
    · -- a granted attempt counts from here on
      have hgranted : ((S.budgetAt b s.tick).after [.reserve timeout (S.clock s.tick)]).reserved =
          (S.budgetAt b s.tick).reserved + 1 := by
        rw [RequestBudget.after_cons, RequestBudget.step, heq]
        rfl
      have hle := ((S.budgetAt b s.tick).after
          [.reserve timeout (S.clock s.tick)]).reserved_le_after
      rw [hgranted] at hle
      exact absurd (Nat.le_zero.mp (h ▸ hle _)) (Nat.succ_ne_zero _)
    · rw [heq]
      exact AsksOnly.append (.ask s.tick) .nil

theorem tryLog_tried (s : CallState) :
    Tried S timeout s (tryLog S cfg poster provider payload timeout s) := by
  rw [tryLog]
  cases hb : s.budget with
  | none => exact .nil s
  | some b =>
    refine ⟨fromTries_loopLog S cfg poster provider payload timeout budgetFuel b s.next, ?_⟩
    intro b' hb' hunsent
    obtain rfl := Option.some.inj (hb.symm.trans hb')
    exact loopLog_unsent S cfg poster provider payload timeout budgetFuel b s.next hunsent

end

/-! ### The closing -/

section

variable (S : Surroundings)

/-- The log of the end of a walk that served nothing. -/
def closeLog (s : CallState) : List Call :=
  let (terminal, s₁) := s.readTerminal S
  S.locked [] s.tick ++
  match terminal with
  | some _ => S.locked [] s₁.tick
  | none =>
    let (reserved, s₂) := s₁.readReserved S
    let reason := closedReason s₂.attempts (reserved.getD 0)
    S.locked [] s₁.tick ++ (S.locked [.close reason] s₂.tick ++
      S.locked [] (s₂.close S reason).tick)

theorem closeWalk_replays (s : CallState) :
    Replays s (closeWalk S s).2 (closeLog S s) := by
  have hread := replays_readTerminal S s
  rw [closeWalk, closeLog]
  revert hread
  rcases s.readTerminal S with ⟨_ | reason, s₁⟩
  · intro hread
    dsimp only
    exact hread.trans ((replays_readReserved S s₁).trans
      ((replays_close S _ _).trans (replays_readTerminal S _)))
  · exact fun hread => hread.trans (replays_readTerminal S s₁)

/-- A log of a call that ended without an answer: what the tries asked of the budget up to
some state, and then the closing. -/
def Closed (timeout : Binary64) (s : CallState) (log : List Call)
    (ended : Option TerminalReason × CallState) : Prop :=
  ∃ t work, Replays s t work ∧ Tried S timeout s work ∧ log = work ++ closeLog S t ∧
    closeWalk S t = ended

theorem Closed.replays {S : Surroundings} {timeout : Binary64} {s : CallState} {log : List Call}
    {ended : Option TerminalReason × CallState} (h : Closed S timeout s log ended) :
    Replays s ended.2 log := by
  obtain ⟨t, work, hwork, _, rfl, rfl⟩ := h
  exact hwork.trans (closeWalk_replays S t)

end

/-! ### The log of a chat call -/

section

variable (S : Surroundings) (cfg : RouterConfig) (req : ChatRequest) (routing : Option Json)

/-- The log of settling the budget of an answer. -/
def settleLog (s : CallState) : List Call :=
  let s₁ := s.markSuccess S
  S.locked [.markSuccess] s.tick ++
    (S.locked [] s₁.tick ++ S.locked [] (s₁.readTerminal S).2.tick)

theorem settle_replays (p : Provenance) (s : CallState) :
    Replays s ((s.markSuccess S).budgetFields S p).2 (settleLog S s) :=
  (replays_markSuccess S s).trans ((replays_readTerminal S _).trans (replays_readReserved S _))

namespace ChatState

def tryLog (route : Route) (provider : Provider) (s : ChatState) : List Call :=
  SzlRouter.tryLog S cfg.retry .chat provider (chatPayload req route.2) req.timeout s.toCallState

def qualifiedLog (route : Route) (provider : Provider) (s : ChatState) : List Call :=
  s.tryLog S cfg req route provider ++
  match s.try S cfg req route provider with
  | (.failed, s) => S.locked [] (s.setCooldown S cfg route.1).tick
  | (.served _, s) => settleLog S s.toCallState
  | _ => []

def cooledLog (route : Route) (later : List Route) (provider : Provider) (s : ChatState) :
    List Call :=
  let (left, s) := s.cooldownRemaining S route.1
  if (0 : Binary64) < left then
    let (warm, s) := s.warmCandidateLater S cfg later
    if warm then [] else s.qualifiedLog S cfg req route provider
  else s.qualifiedLog S cfg req route provider

def visitLog (route : Route) (later : List Route) (s : ChatState) : List Call :=
  match cfg.registry.provider route.1 with
  | none => []
  | some provider =>
    if provider.available (S.env s.tick) = false then []
    else
      match tierOf provider with
      | .unqualifiedGrid => []
      | .paidGrid => []
      | .sovereign => s.cooledLog S cfg req route later provider

/-- The log of the route loop. -/
def walkLog : List Route → ChatState → List Call
  | [], _ => []
  | route :: later, s =>
    let (terminal, c) := s.toCallState.readTerminal S
    S.locked [] s.tick ++
    let s := { s with toCallState := c }
    if terminal.isSome then []
    else
      s.visitLog S cfg req route later ++
      match s.visit S cfg req routing route later with
      | (.goOn, s) => walkLog later s
      | _ => []

end ChatState

/-- The log of a chat call. -/
def chatLog (s : ChatState) : List Call :=
  match chatRefusal req s.budget with
  | some _ => []
  | none =>
    let (routing, routes) := chatRoutes cfg req
    s.walkLog S cfg req routing routes ++
    match s.walk S cfg req routing routes with
    | (.served _, _) => []
    | (.diverged, _) => []
    | (_, s) => closeLog S s.toCallState

namespace ChatState

/-- The log of a visit or of a walk: it leads to the budget that was left, and only a
settled answer has calls that no try makes. -/
def Logged (s : ChatState) (log : List Call) : Visit × ChatState → Prop
  | (.served _, s') => Replays s.toCallState s'.toCallState log
  | (_, s') => Replays s.toCallState s'.toCallState log ∧ Tried S req.timeout s.toCallState log

/-- What comes before with calls of tries only. -/
theorem Logged.after {s t : ChatState} {log log' : List Call} {v : Visit × ChatState}
    (h : t.Logged S req log' v) (hstart : Replays s.toCallState t.toCallState log)
    (htried : Tried S req.timeout s.toCallState log) : s.Logged S req (log ++ log') v := by
  revert h
  obtain ⟨_ | _ | response | _, s'⟩ := v
  · exact fun h => ⟨hstart.trans h.1, htried.append hstart h.2⟩
  · exact fun h => ⟨hstart.trans h.1, htried.append hstart h.2⟩
  · exact fun h => hstart.trans h
  · exact fun h => ⟨hstart.trans h.1, htried.append hstart h.2⟩

/-- A state that differs from the start in nothing the budget sees. -/
theorem Logged.of_same {s t : ChatState} {log : List Call} {v : Visit × ChatState}
    (h : t.Logged S req log v) (hsame : s.toCallState.Same t.toCallState) :
    s.Logged S req log v :=
  Logged.after S req h hsame.replays (.nil _)

theorem qualified_logged (route : Route) (provider : Provider) (s : ChatState) :
    s.Logged S req (s.qualifiedLog S cfg req route provider)
      (s.qualified S cfg req routing route provider) := by
  have htry := tryRoute_replays S cfg.retry .chat provider (chatPayload req route.2) req.timeout
    route chatResponseError s.toCallState
  have htried := tryLog_tried S cfg.retry .chat provider (chatPayload req route.2) req.timeout
    s.toCallState
  rw [qualified, qualifiedLog, ChatState.try, tryLog]
  revert htry
  generalize tryRoute S cfg.retry .chat route provider _ _ _ _ = r
  obtain ⟨_ | _ | _ | result | _, c⟩ := r
  -- the budget had refused, and the route asks no more
  · intro htry
    rw [List.append_nil]
    exact ⟨htry, htried⟩
  · intro htry
    -- a failed route cools down, and the terminal reason is read once more
    have hcool := setCooldown_same S cfg route.1 { s with toCallState := c }
    have hread := replays_readTerminal S
      (setCooldown S cfg route.1 { s with toCallState := c }).toCallState
    have hlog := (htry.of_eq hcool.budget).trans hread
    have hlogged := htried.append (htry.of_eq hcool.budget)
      (.read _ (setCooldown S cfg route.1 { s with toCallState := c }).tick)
    dsimp only
    split_ifs
    · exact ⟨hlog, hlogged⟩
    · exact ⟨hlog, hlogged⟩
  · intro htry
    rw [List.append_nil]
    exact ⟨htry.of_eq (setCooldown_same S cfg route.1 { s with toCallState := c }).budget, htried⟩
  · exact fun htry => htry.trans (settle_replays S {} c)
  · intro htry
    rw [List.append_nil]
    exact ⟨htry, htried⟩

theorem skip_logged (route : Route) (error : Str) (s : ChatState) :
    s.Logged S req [] (.goOn, s.skip route error) :=
  ⟨.of_budget_eq rfl, .nil _⟩

theorem cooled_logged (route : Route) (later : List Route) (provider : Provider)
    (s : ChatState) :
    s.Logged S req (s.cooledLog S cfg req route later provider)
      (s.cooled S cfg req routing route later provider) := by
  have hcool : s.toCallState.Same (s.cooldownRemaining S route.1).2.toCallState :=
    s.withCooldown_same (s.found S)
  have hwarm := hcool.trans
    (warmCandidateLater_same S cfg later (s.cooldownRemaining S route.1).2)
  rw [cooled, cooledLog]
  dsimp only
  split_ifs
  · exact (skip_logged S req _ _ _).of_same S req hwarm
  · exact (qualified_logged S cfg req routing route provider _).of_same S req hwarm
  · exact (qualified_logged S cfg req routing route provider _).of_same S req hcool

theorem visit_logged (route : Route) (later : List Route) (s : ChatState) :
    s.Logged S req (s.visitLog S cfg req route later)
      (s.visit S cfg req routing route later) := by
  rw [visit, visitLog]
  cases cfg.registry.provider route.1 with
  | none => exact skip_logged S req route _ s
  | some provider =>
    dsimp only
    split_ifs
    · exact skip_logged S req route _ s
    · cases tierOf provider with
      | unqualifiedGrid => exact skip_logged S req route _ s
      | paidGrid => exact skip_logged S req route _ s
      | sovereign => exact cooled_logged S cfg req routing route later provider s

theorem walk_logged (routes : List Route) (s : ChatState) :
    s.Logged S req (s.walkLog S cfg req routing routes) (s.walk S cfg req routing routes) := by
  induction routes generalizing s with
  | nil => exact ⟨.of_budget_eq rfl, .nil _⟩
  | cons route later ih =>
    have hread := replays_readTerminal S s.toCallState
    have htried : Tried S req.timeout s.toCallState (S.locked [] s.tick) := .read _ _
    -- a visit begins with a look at the terminal reason, and the walk stops at one
    rw [walk, walkLog]
    dsimp only
    by_cases hterm : (s.toCallState.readTerminal S).1.isSome = true
    · rw [if_pos hterm, if_pos hterm, List.append_nil]
      exact ⟨hread, htried⟩
    · rw [if_neg hterm, if_neg hterm]
      refine Logged.after S req (t := { s with toCallState := (s.toCallState.readTerminal S).2 })
        ?_ hread htried
      have hvisit := visit_logged S cfg req routing route later
        { s with toCallState := (s.toCallState.readTerminal S).2 }
      revert hvisit
      generalize visit S cfg req routing route later _ = v
      obtain ⟨_ | _ | response | _, s'⟩ := v
      · exact fun h => Logged.after S req (ih s') h.1 h.2
      · dsimp only
        rw [List.append_nil]
        exact id
      · dsimp only
        rw [List.append_nil]
        exact id
      · dsimp only
        rw [List.append_nil]
        exact id

end ChatState

/-- A chat call leaves the budget as its log says. So whatever is asked about the budget after a
call is asked about its log, which says in what order the questions and the cancellations came.
-/
theorem chat_replays (s : ChatState) :
    Replays s.toCallState (chat S cfg req s).2.toCallState (chatLog S cfg req s) := by
  rw [chat, chatLog]
  cases chatRefusal req s.budget with
  | some e => exact .of_budget_eq rfl
  | none =>
    have hwalk := ChatState.walk_logged S cfg req (chatRoutes cfg req).1 (chatRoutes cfg req).2 s
    dsimp only
    revert hwalk
    generalize s.walk S cfg req (chatRoutes cfg req).1 (chatRoutes cfg req).2 = v
    obtain ⟨_ | _ | response | _, t⟩ := v
    · exact fun h => h.1.trans (closeWalk_replays S t.toCallState)
    · exact fun h => h.1.trans (closeWalk_replays S t.toCallState)
    · dsimp only
      rw [List.append_nil]
      exact id
    · dsimp only
      rw [List.append_nil]
      exact fun h => h.1

/-- A chat call that raises `RouterError` closed its budget, with the last entry of its log, and
reports the reason that the closed budget has. -/
theorem chat_ends {s s' : ChatState} {message : Str} {attempts : List Attempt}
    {reason : Option TerminalReason}
    (h : chat S cfg req s = (.routerError message attempts reason, s')) :
    Closed S req.timeout s.toCallState (chatLog S cfg req s) (reason, s'.toCallState) := by
  rw [chat] at h
  rw [chatLog]
  cases hrefusal : chatRefusal req s.budget with
  | some e =>
    rw [hrefusal] at h
    cases (Prod.mk.inj h).1
  | none =>
    rw [hrefusal] at h
    have hwalk := ChatState.walk_logged S cfg req (chatRoutes cfg req).1 (chatRoutes cfg req).2 s
    dsimp only at h ⊢
    revert h hwalk
    generalize s.walk S cfg req (chatRoutes cfg req).1 (chatRoutes cfg req).2 = v
    -- only a walk that served nothing closes the budget and raises
    obtain ⟨_ | _ | response | _, t⟩ := v
    · rintro h ⟨hreplays, htried⟩
      obtain ⟨hend, rfl⟩ := Prod.mk.inj h
      obtain ⟨-, -, rfl⟩ := CallEnd.routerError.inj hend
      exact ⟨t.toCallState, _, hreplays, htried, rfl, rfl⟩
    · rintro h ⟨hreplays, htried⟩
      obtain ⟨hend, rfl⟩ := Prod.mk.inj h
      obtain ⟨-, -, rfl⟩ := CallEnd.routerError.inj hend
      exact ⟨t.toCallState, _, hreplays, htried, rfl, rfl⟩
    · exact fun h => by cases (Prod.mk.inj h).1
    · exact fun h => by cases (Prod.mk.inj h).1

end

/-! ### The log of an embeddings call -/

section

variable (S : Surroundings) (cfg : EmbedConfig) (req : EmbedRequest) (prep : Prepared)

namespace EmbedState

def dispatchLog (route : Route) (provider : Provider) (s : EmbedState) : List Call :=
  SzlRouter.tryLog S cfg.retry .embeddings provider (embedPayload prep route.2) req.timeout
    s.toCallState ++
  match s.try S cfg req prep route provider with
  | (.failed, s) => S.locked [] s.tick
  | (.served _, s) => settleLog S s.toCallState
  | _ => []

/-- An answer from the cache asks nothing of the budget. -/
def qualifiedLog (route : Route) (provider : Provider) (s : EmbedState) : List Call :=
  if req.useCache = false then s.dispatchLog S cfg req prep route provider
  else
    let identity := identityOf req.model (embedPayload prep route.2) provider (S.env s.tick)
      prep.scope prep.callerScope route.1
    match embedCacheKey cfg.scopeKey identity with
    | .error _ => []
    | .ok key =>
      match cacheGet S cfg provider identity key s with
      | (some _, _) => []
      | (none, s) => s.dispatchLog S cfg req prep route provider

def visitLog (route : Route) (provider : Option Provider) (s : EmbedState) : List Call :=
  match provider with
  | none => []
  | some p =>
    let open_ := p.available (S.env s.tick)
    let s := { s with toCallState := s.toCallState.next }
    if open_ = false then []
    else if tierOf p ≠ .sovereign then []
    else s.qualifiedLog S cfg req prep route p

/-- The log of the route loop. -/
def walkLog : List Slot → EmbedState → List Call
  | [], _ => []
  | (route, provider) :: later, s =>
    let (terminal, c) := s.toCallState.readTerminal S
    S.locked [] s.tick ++
    let s := { s with toCallState := c }
    if terminal.isSome then []
    else
      s.visitLog S cfg req prep route provider ++
      match s.visit S cfg req prep route provider with
      | (.goOn, s) => walkLog later s
      | _ => []

/-- The log of a visit or of a walk. -/
def Logged (s : EmbedState) (log : List Call) : EmbedVisit × EmbedState → Prop
  | (.goOn, s') => Replays s.toCallState s'.toCallState log ∧ Tried S req.timeout s.toCallState log
  | (.stop, s') => Replays s.toCallState s'.toCallState log ∧ Tried S req.timeout s.toCallState log
  | (_, s') => Replays s.toCallState s'.toCallState log

/-- What comes before with calls of tries only. -/
theorem Logged.after {s t : EmbedState} {log log' : List Call} {v : EmbedVisit × EmbedState}
    (h : t.Logged S req log' v) (hstart : Replays s.toCallState t.toCallState log)
    (htried : Tried S req.timeout s.toCallState log) : s.Logged S req (log ++ log') v := by
  revert h
  obtain ⟨_ | _ | a | a | e | _, s'⟩ := v
  · exact fun h => ⟨hstart.trans h.1, htried.append hstart h.2⟩
  · exact fun h => ⟨hstart.trans h.1, htried.append hstart h.2⟩
  · exact fun h => hstart.trans h
  · exact fun h => hstart.trans h
  · exact fun h => hstart.trans h
  · exact fun h => hstart.trans h

theorem Logged.of_same {s t : EmbedState} {log : List Call} {v : EmbedVisit × EmbedState}
    (h : t.Logged S req log v) (hsame : s.toCallState.Same t.toCallState) :
    s.Logged S req log v :=
  Logged.after S req h hsame.replays (.nil _)

theorem dispatch_logged (route : Route) (provider : Provider) (key : Option (Identity × Str))
    (s : EmbedState) :
    s.Logged S req (s.dispatchLog S cfg req prep route provider)
      (s.dispatch S cfg req prep route provider key) := by
  have htry := tryRoute_replays S cfg.retry .embeddings provider (embedPayload prep route.2)
    req.timeout route (embeddingResponseError (embedPayload prep route.2)) s.toCallState
  have htried := tryLog_tried S cfg.retry .embeddings provider (embedPayload prep route.2)
    req.timeout s.toCallState
  rw [EmbedState.dispatch, dispatchLog, EmbedState.try]
  revert htry
  dsimp only
  generalize tryRoute S cfg.retry .embeddings route provider _ _ _ _ = r
  -- the ends of a try; after a failure the reason of the budget is read, and an answer closes it
  obtain ⟨_ | _ | _ | result | _, c⟩ := r
  · intro htry
    rw [List.append_nil]
    exact ⟨htry, htried⟩
  · intro htry
    have hlog := htry.trans (replays_readTerminal S c)
    have hlogged := htried.append htry (.read c c.tick)
    dsimp only
    split_ifs
    · exact ⟨hlog, hlogged⟩
    · exact ⟨hlog, hlogged⟩
  · intro htry
    rw [List.append_nil]
    exact ⟨htry, htried⟩
  · intro htry
    have hsettled := (htry.trans (settle_replays S {} c)).of_eq
      (deliver_same S cfg route provider key result { s with toCallState := c }).budget
    dsimp only
    rcases deliver_cases S cfg route provider key result { s with toCallState := c } with
      ⟨a, heq⟩ | ⟨e, heq⟩
    · rw [show deliver S cfg route provider key result { s with toCallState := c } =
        (.fresh a, (deliver S cfg route provider key result { s with toCallState := c }).2) from
          Prod.ext heq rfl]
      exact hsettled
    · rw [show deliver S cfg route provider key result { s with toCallState := c } =
        (.raised e, (deliver S cfg route provider key result { s with toCallState := c }).2) from
          Prod.ext heq rfl]
      exact hsettled
  · intro htry
    rw [List.append_nil]
    exact htry

theorem qualified_logged (route : Route) (provider : Provider) (s : EmbedState) :
    s.Logged S req (s.qualifiedLog S cfg req prep route provider)
      (s.qualified S cfg req prep route provider) := by
  rw [qualified, qualifiedLog]
  split_ifs
  · exact dispatch_logged S cfg req prep route provider none s
  · dsimp only
    generalize identityOf req.model (embedPayload prep route.2) provider (S.env s.tick)
      prep.scope prep.callerScope route.1 = identity
    cases embedCacheKey cfg.scopeKey identity with
    | error e => exact .of_budget_eq rfl
    | ok key =>
      have hget := cacheGet_same S cfg provider identity key s
      dsimp only
      revert hget
      rcases cacheGet S cfg provider identity key s with ⟨_ | a, s'⟩
      · exact fun hget => (dispatch_logged S cfg req prep route provider _ s').of_same S req hget
      · intro hget
        dsimp only
        cases asCacheHit (s'.read a) s'.attempts with
        | error e => exact hget.replays
        | ok out => exact hget.replays

theorem skip_logged (route : Route) (error : Str) {s t : EmbedState}
    (hsame : s.toCallState.Same t.toCallState) :
    s.Logged S req [] (.goOn, t.skip route error) :=
  ⟨hsame.replays.of_eq rfl, .nil _⟩

theorem visit_logged (route : Route) (provider : Option Provider) (s : EmbedState) :
    s.Logged S req (s.visitLog S cfg req prep route provider)
      (s.visit S cfg req prep route provider) := by
  rcases provider with _ | p
  · exact skip_logged S req route _ (.refl _)
  · have hnext := CallState.Same.next s.toCallState
    rw [visit, visitLog]
    dsimp only
    split_ifs
    · exact skip_logged S req route _ hnext
    · exact skip_logged S req route _ hnext
    · exact (qualified_logged S cfg req prep route p _).of_same S req hnext

theorem walk_logged (slots : List Slot) (s : EmbedState) :
    s.Logged S req (s.walkLog S cfg req prep slots) (s.walk S cfg req prep slots) := by
  induction slots generalizing s with
  | nil => exact ⟨.of_budget_eq rfl, .nil _⟩
  | cons slot later ih =>
    obtain ⟨route, provider⟩ := slot
    have hread := replays_readTerminal S s.toCallState
    have htried : Tried S req.timeout s.toCallState (S.locked [] s.tick) := .read _ _
    -- a visit begins with a look at the terminal reason, and the walk stops at one
    rw [walk, walkLog]
    dsimp only
    by_cases hterm : (s.toCallState.readTerminal S).1.isSome = true
    · rw [if_pos hterm, if_pos hterm, List.append_nil]
      exact ⟨hread, htried⟩
    · rw [if_neg hterm, if_neg hterm]
      refine Logged.after S req (t := { s with toCallState := (s.toCallState.readTerminal S).2 })
        ?_ hread htried
      have hvisit := visit_logged S cfg req prep route provider
        { s with toCallState := (s.toCallState.readTerminal S).2 }
      revert hvisit
      generalize visit S cfg req prep route provider _ = v
      obtain ⟨_ | _ | a | a | e | _, s'⟩ := v
      · exact fun h => Logged.after S req (ih s') h.1 h.2
      · dsimp only
        rw [List.append_nil]
        exact id
      · dsimp only
        rw [List.append_nil]
        exact id
      · dsimp only
        rw [List.append_nil]
        exact id
      · dsimp only
        rw [List.append_nil]
        exact id
      · dsimp only
        rw [List.append_nil]
        exact id

end EmbedState

/-- The log of an embeddings call. -/
def embedLog (s : EmbedState) : List Call :=
  match embedRefusal req s.budget with
  | some _ => []
  | none =>
    match prepare S req s.toCallState with
    | (.error _, _) => []
    | (.ok prep, c) =>
      let (slots, c) := captureRoutes S cfg (cfg.registry.resolveEmbedRoutes req.model) c
      let s := { s with toCallState := c }
      s.walkLog S cfg req prep slots ++
      match s.walk S cfg req prep slots with
      | (.goOn, s) => closeLog S s.toCallState
      | (.stop, s) => closeLog S s.toCallState
      | _ => []

/-- An embeddings call leaves the budget as its log says. The log is that of the walk over the
captured routes; what the cache does is none of its entries. -/
theorem embed_replays (s : EmbedState) :
    Replays s.toCallState (embed S cfg req s).2.toCallState (embedLog S cfg req s) := by
  rw [embed, embedLog]
  cases embedRefusal req s.budget with
  | some e => exact .of_budget_eq rfl
  | none =>
    dsimp only
    -- neither the preparation nor the capture of the routes asks the budget
    rcases prepare_cases S req s.toCallState with ⟨e, heq⟩ | ⟨prep, heq⟩
    · rw [heq]
      exact .of_budget_eq rfl
    · rw [heq]
      have hsame := (captureRoutes_captured S cfg (cfg.registry.resolveEmbedRoutes req.model)
        s.toCallState.next.next).1
      dsimp only
      generalize captureRoutes S cfg (cfg.registry.resolveEmbedRoutes req.model)
        s.toCallState.next.next = captured at hsame
      obtain ⟨slots, c⟩ := captured
      have hwalk := EmbedState.walk_logged S cfg req prep slots { s with toCallState := c }
      dsimp only
      revert hwalk
      generalize EmbedState.walk S cfg req prep slots { s with toCallState := c } = v
      intro hwalk
      have hstart : Replays s.toCallState c [] := .of_budget_eq hsame.budget
      obtain ⟨_ | _ | a | a | e | _, t⟩ := v
      · exact hstart.trans (hwalk.1.trans (closeWalk_replays S t.toCallState))
      · exact hstart.trans (hwalk.1.trans (closeWalk_replays S t.toCallState))
      · dsimp only
        rw [List.append_nil]
        exact hstart.trans hwalk
      · dsimp only
        rw [List.append_nil]
        exact hstart.trans hwalk
      · dsimp only
        rw [List.append_nil]
        exact hstart.trans hwalk
      · dsimp only
        rw [List.append_nil]
        exact hstart.trans hwalk

/-- An embeddings call that raises `RouterError` closed its budget, and raises with the reason
that the close returned. -/
theorem embed_ends {s s' : EmbedState} {message : Str} {attempts : List Attempt}
    {reason : Option TerminalReason}
    (h : embed S cfg req s = (.routerError message attempts reason, s')) :
    Closed S req.timeout s.toCallState (embedLog S cfg req s) (reason, s'.toCallState) := by
  rw [embed] at h
  rw [embedLog]
  cases hrefusal : embedRefusal req s.budget with
  | some e =>
    rw [hrefusal] at h
    cases (Prod.mk.inj h).1
  | none =>
    rw [hrefusal] at h
    dsimp only at h ⊢
    rcases prepare_cases S req s.toCallState with ⟨e, heq⟩ | ⟨prep, heq⟩
    · rw [heq] at h
      cases (Prod.mk.inj h).1
    · rw [heq] at h ⊢
      have hsame := (captureRoutes_captured S cfg (cfg.registry.resolveEmbedRoutes req.model)
        s.toCallState.next.next).1
      dsimp only at h ⊢
      generalize captureRoutes S cfg (cfg.registry.resolveEmbedRoutes req.model)
        s.toCallState.next.next = captured at hsame h
      obtain ⟨slots, c⟩ := captured
      have hwalk := EmbedState.walk_logged S cfg req prep slots { s with toCallState := c }
      dsimp only at h ⊢
      revert h hwalk
      generalize EmbedState.walk S cfg req prep slots { s with toCallState := c } = v
      have hstart : Replays s.toCallState c [] := .of_budget_eq hsame.budget
      -- only a walk that served nothing closes the budget and raises
      obtain ⟨_ | _ | a | a | e | _, t⟩ := v
      · rintro h ⟨hreplays, htried⟩
        obtain ⟨hend, rfl⟩ := Prod.mk.inj h
        obtain ⟨-, -, rfl⟩ := EmbedEnd.routerError.inj hend
        exact ⟨t.toCallState, _, hstart.trans hreplays, htried.of_eq_left hsame.budget, rfl, rfl⟩
      · rintro h ⟨hreplays, htried⟩
        obtain ⟨hend, rfl⟩ := Prod.mk.inj h
        obtain ⟨-, -, rfl⟩ := EmbedEnd.routerError.inj hend
        exact ⟨t.toCallState, _, hstart.trans hreplays, htried.of_eq_left hsame.budget, rfl, rfl⟩
      · exact fun h => by cases (Prod.mk.inj h).1
      · exact fun h => by cases (Prod.mk.inj h).1
      · exact fun h => by cases (Prod.mk.inj h).1
      · exact fun h => by cases (Prod.mk.inj h).1

end

end SzlRouter
