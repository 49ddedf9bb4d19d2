/-
Cancelling a call of `chat` or `embed`.

`cancel` sets the terminal reason only while nothing was dispatched.  Afterwards the
budget remembers it, and turns it into a reason when it is next asked for an attempt
or for a wait; closing the budget does not look at it.

* `Pending.asked`, `Pending.run` — what becomes of a cancellation that is remembered;
* `cancellation_iff_of_log` — when the end of a log reports the cancellation;
* `cancellation_iff` — the same for whole calls.
-/
import SzlRouter.BudgetLog
import SzlRouter.BudgetedCalls

open Py Transition

namespace SzlRouter

namespace RequestBudget

/-- The call asks for an attempt or for a wait, with arguments that are not refused. -/
def Call.asks : Call → Bool
  | .reserve callerTimeout _ => callerTimeout.isFinite && !decide (callerTimeout ≤ 0)
  | .allowBackoff delay _ => delay.isFinite && !decide (delay < 0)
  | _ => false

/-- The call may set a terminal reason of its own. -/
def Call.ends : Call → Bool
  | .close _ => true
  | .markSuccess => true
  | _ => false

/-- A cancellation is remembered, an attempt was handed out, and no reason is set. It is the next
question to the budget that turns the cancellation into the reason. -/
structure Pending (b : RequestBudget) : Prop where
  open_ : b.terminal = none
  cancelled : b.cancelled = true
  sent : b.inFlight ≠ .none

/-- The next question turns the cancellation into the terminal reason: a reservation is refused
for it, a pause ends with it, and a close keeps it. -/
theorem Pending.asked {b : RequestBudget} (h : b.Pending) {c : Call} (hc : c.asks = true) :
    (b.step c).1.terminal = some .cancellation := by
  cases c with
  | reserve callerTimeout now =>
    simp only [Call.asks, Bool.and_eq_true, Bool.not_eq_true', decide_eq_false_iff_not] at hc
    have hvalid : validateCallerTimeout callerTimeout = .ok callerTimeout := by
      rw [validateCallerTimeout, if_neg (by simp [hc.1]), if_neg hc.2]
    simp only [step, reserve, hvalid, h.open_, h.cancelled, if_true, stopFor]
  | allowBackoff delay now =>
    simp only [Call.asks, Bool.and_eq_true, Bool.not_eq_true', decide_eq_false_iff_not] at hc
    rw [step, allowBackoff, if_neg (by simp [hc.1]), if_neg hc.2, if_pos h.cancelled]
    exact congrArg (fun r => some (r.getD .cancellation)) h.open_
  | noteOutcome attempt outcome => cases hc
  | cancel => cases hc
  | close reason => cases hc
  | markSuccess => cases hc

/-- Nothing else that a try or another user does changes it. -/
theorem Pending.step {b : RequestBudget} (h : b.Pending) {c : Call} (hc : c.asks = false)
    (hends : c.ends = false) : (b.step c).1.Pending := by
  cases c with
  | reserve callerTimeout now =>
    -- the timeout is refused
    have hvalid : ∃ e, validateCallerTimeout callerTimeout = .error e := by
      rw [validateCallerTimeout]
      split_ifs with hfin hpos
      · exact ⟨_, rfl⟩
      · exact ⟨_, rfl⟩
      · simp [Call.asks, hpos] at hc
        exact absurd hc hfin
    obtain ⟨e, he⟩ := hvalid
    rw [RequestBudget.step, reserve, he]
    exact h
  | allowBackoff delay now =>
    have hrefused : ∃ message, b.allowBackoff delay now = (b, .error message) := by
      rw [allowBackoff]
      by_cases hfin : delay.isFinite = false
      · exact ⟨_, by rw [if_pos hfin]⟩
      · by_cases hneg : delay < 0
        · exact ⟨_, by rw [if_neg hfin, if_pos hneg]⟩
        · simp [Call.asks, hneg] at hc
          exact absurd hc hfin
    obtain ⟨message, heq⟩ := hrefused
    rw [RequestBudget.step, heq]
    exact h
  | noteOutcome attempt outcome =>
    rcases b.noteOutcome_cases attempt outcome with ⟨rows, _, heq⟩ | ⟨e, heq⟩
    · rw [RequestBudget.step, heq]
      refine ⟨h.open_, h.cancelled, ?_⟩
      dsimp only
      split_ifs <;> simp
    · rw [RequestBudget.step, heq]
      exact h
  | cancel =>
    refine ⟨?_, rfl, h.sent⟩
    rw [RequestBudget.step, cancel, if_neg (by simp [h.sent])]
    exact h.open_
  | close reason => cases hends
  | markSuccess => cases hends

/-- A cancellation that is remembered is reported exactly when a question comes. Until then it is
only a flag, and notes of outcomes leave it alone. -/
theorem Pending.run {b : RequestBudget} (h : b.Pending) {log : List Call}
    (hends : ∀ c ∈ log, c.ends = false) :
    if ∃ c ∈ log, c.asks = true then (b.after log).terminal = some .cancellation
    else (b.after log).Pending := by
  induction log generalizing b with
  | nil => simpa using h
  | cons c log ih =>
    obtain ⟨hc, hlog⟩ := List.forall_mem_cons.mp hends
    rw [after_cons]
    by_cases hasks : c.asks = true
    · rw [if_pos ⟨c, List.mem_cons_self, hasks⟩]
      exact terminal_runs (h.asked hasks) log
    · have hstep := ih (h.step (by simpa using hasks) hc) hlog
      have hiff : (∃ d ∈ c :: log, d.asks = true) ↔ ∃ d ∈ log, d.asks = true := by
        simp [hasks]
      rw [if_congr hiff rfl rfl]
      exact hstep

/-- The log of a call that ends without an answer: no reason is set but by refusing, or
the budget is closed once and only cancelled after that. -/
def EndsOnce (log : List Call) : Prop :=
  (∀ c ∈ log, c.ends = false) ∨
  ∃ work reason rest, log = work ++ .close reason :: rest ∧ reason ≠ .success ∧
    reason ≠ .cancellation ∧ (∀ c ∈ work, c.ends = false) ∧ ∀ c ∈ rest, c = .cancel

/-- The cancellation does something at once, or a question comes after it. At once it does
something only before the first dispatch. -/
def Noticed (b : RequestBudget) (pre post : List Call) : Prop :=
  (b.after pre).inFlight = .none ∨ ∃ c ∈ post, c.asks = true

theorem after_cancel_terminal {b : RequestBudget} (hopen : b.terminal = none)
    (hnone : b.inFlight = .none) : b.cancel.terminal = some .cancellation :=
  if_pos ⟨hopen, hnone⟩

theorem pending_cancel {b : RequestBudget} (hopen : b.terminal = none)
    (hsent : b.inFlight ≠ .none) : b.cancel.Pending :=
  ⟨(if_neg (by simp [hsent])).trans hopen, rfl, hsent⟩

/-- Closing an open budget sets the reason. -/
theorem step_close_terminal {b : RequestBudget} (hopen : b.terminal = none)
    {reason : TerminalReason} (hne : reason ≠ .success) :
    (b.step (.close reason)).1.terminal = some reason := by
  simp only [step, close, if_neg hne, hopen, Option.getD_none]

/-- A cancellation at an open reason is what the end reports, exactly when a later call of the
log notices it. -/
theorem cancellation_iff_of_log {b : RequestBudget} {log pre post : List Call}
    (hshape : EndsOnce log) (hfinal : (b.after log).terminal ≠ none)
    (hsplit : log = pre ++ .cancel :: post) (hopen : (b.after pre).terminal = none) :
    (b.after log).terminal = some .cancellation ↔ b.Noticed pre post := by
  have hafter : b.after log = (b.after pre).cancel.after post := by
    rw [hsplit, after_append]
    rfl
  by_cases hnone : (b.after pre).inFlight = .none
  · rw [hafter]
    exact iff_of_true (terminal_runs (after_cancel_terminal hopen hnone) post) (.inl hnone)
  · have hpending := pending_cancel hopen hnone
    have hiff : b.Noticed pre post ↔ ∃ c ∈ post, c.asks = true :=
      or_iff_right hnone
    rw [hiff]
    rcases hshape with hends | ⟨work, reason, rest, hlog, hsuccess, hreason, hends, hrest⟩
    · -- nobody closed the budget, so a question set the reason
      have hrun := @Pending.run _ hpending post fun c hc => hends c (by simp [hsplit, hc])
      rw [hafter] at hfinal ⊢
      split_ifs at hrun with hasks
      · exact iff_of_true hrun hasks
      · exact absurd hrun.open_ hfinal
    · -- the cancellation is before the closing
      have hwork : ∃ mid, work = pre ++ .cancel :: mid ∧ post = mid ++ .close reason :: rest := by
        rcases List.append_eq_append_iff.mp (hlog.symm.trans hsplit) with
          ⟨mid, hpre, hmid⟩ | ⟨mid, hwork, hmid⟩
        · rcases mid with _ | ⟨c, mid⟩
          · cases (List.cons.inj hmid).1
          · -- otherwise the reason would have been set before
            obtain ⟨rfl, -⟩ := List.cons.inj hmid
            have hset : (b.after pre).terminal ≠ none := by
              rw [hpre, after_append, after_cons]
              cases hw : (b.after work).terminal with
              | none =>
                rw [after, terminal_runs (step_close_terminal hw hsuccess)]
                simp
              | some r =>
                rw [after, terminal_runs (((b.after work).step_effect _).terminal hw)]
                simp
            exact absurd hopen hset
        · rcases mid with _ | ⟨c, mid⟩
          · cases (List.cons.inj hmid).1
          · obtain ⟨rfl, hpost⟩ := List.cons.inj hmid
            exact ⟨mid, hwork, hpost⟩
      obtain ⟨mid, hwork, rfl⟩ := hwork
      have hrun := @Pending.run _ hpending mid fun c hc => hends c (by simp [hwork, hc])
      have hquiet : ∀ c ∈ Call.close reason :: rest, c.asks = false := by
        intro c hc
        rcases List.mem_cons.mp hc with rfl | hc
        · rfl
        · rw [hrest c hc]
          rfl
      have hasks : (∃ c ∈ mid ++ .close reason :: rest, c.asks = true) ↔
          ∃ c ∈ mid, c.asks = true := by
        constructor
        · rintro ⟨c, hc, hask⟩
          rcases List.mem_append.mp hc with hc | hc
          · exact ⟨c, hc, hask⟩
          · exact absurd hask (by simp [hquiet c hc])
        · rintro ⟨c, hc, hask⟩
          exact ⟨c, List.mem_append_left _ hc, hask⟩
      rw [hasks, hafter, after_append, after_cons]
      split_ifs at hrun with hmid
      · refine iff_of_true (terminal_runs ?_ rest) hmid
        exact (((b.after pre).cancel.after mid).step_effect _).terminal hrun
      · refine iff_of_false ?_ hmid
        rw [after, terminal_runs (step_close_terminal hrun.open_ hsuccess)]
        simpa using hreason

end RequestBudget

/-! ### Whole calls -/

/-- Other users of the budget only cancel it. -/
def Surroundings.OnlyCancels (S : Surroundings) : Prop := ∀ tick, ∀ c ∈ S.others tick, c = .cancel

open RequestBudget (Call EndsOnce Noticed)

section

variable {S : Surroundings}

theorem OfTry.ends {timeout : Binary64} {c : Call} (h : OfTry S timeout c) : c.ends = false := by
  cases h <;> rfl

theorem FromTries.ends (hcancels : S.OnlyCancels) {timeout : Binary64} {log : List Call}
    (h : FromTries S timeout log) : ∀ c ∈ log, c.ends = false := by
  intro c hc
  rcases h c hc with ⟨tick, hother⟩ | htry
  · rw [hcancels tick c hother]
    rfl
  · exact htry.ends

/-- A walk is closed for a reason that is neither a success nor a cancellation. -/
theorem closedReason_ne (attempts : List Attempt) (dispatched : ℕ) :
    closedReason attempts dispatched ≠ .success ∧
      closedReason attempts dispatched ≠ .cancellation := by
  rw [closedReason]
  split_ifs <;> simp

/-- A closed budget has a terminal reason. -/
theorem close_terminal_ne_none (b : RequestBudget) {reason : TerminalReason}
    (hne : reason ≠ .success) : (b.close reason).1.terminal ≠ none := by
  rw [RequestBudget.close, if_neg hne]
  simp

theorem readTerminal_of_budget {s : CallState} {b : RequestBudget} (hb : s.budget = some b) :
    s.readTerminal S =
      ((S.budgetAt b s.tick).terminal, { s.next with budget := some (S.budgetAt b s.tick) }) := by
  rw [CallState.readTerminal, CallState.onBudget, hb]
  rfl

theorem readReserved_of_budget {s : CallState} {b : RequestBudget} (hb : s.budget = some b) :
    s.readReserved S = (some (S.budgetAt b s.tick).reserved,
      { s.next with budget := some (S.budgetAt b s.tick) }) := by
  rw [CallState.readReserved, CallState.onBudget, hb]

theorem onBudget_of_budget {α : Type} {f : RequestBudget → RequestBudget × α} {s : CallState}
    {b : RequestBudget} (hb : s.budget = some b) :
    (s.onBudget S f).2.budget = some (f (S.budgetAt b s.tick)).1 := by
  rw [CallState.onBudget, hb]

/-- The calls of other users alone. -/
theorem locked_nil (tick : ℕ) : S.locked [] tick = S.others tick := List.append_nil _

/-- The end of a walk with a budget: either the reason was there, or the budget is closed with
the reason of its rows and of the attempts counted a little before. -/
theorem closeWalk_cases {s : CallState} {b : RequestBudget} (hb : s.budget = some b) :
    ∃ b', (closeWalk S s).2.budget = some b' ∧ (closeWalk S s).1 = b'.terminal ∧
      b'.terminal ≠ none ∧
      ((∀ c ∈ closeLog S s, ∃ tick, c ∈ S.others tick) ∨
        ∃ before log rest, closeLog S s = log ++
            .close (closedReason s.attempts (b.after before).reserved) :: rest ∧
          before <+: log ∧ (∀ c ∈ log, ∃ tick, c ∈ S.others tick) ∧
          ∀ c ∈ rest, ∃ tick, c ∈ S.others tick) := by
  have hothers : ∀ {tick tick' : ℕ} {c : Call}, c ∈ S.others tick ++ S.others tick' →
      ∃ tick, c ∈ S.others tick := by
    intro tick tick' c hc
    rcases List.mem_append.mp hc with hc | hc
    · exact ⟨tick, hc⟩
    · exact ⟨tick', hc⟩
  rw [closeWalk, closeLog, readTerminal_of_budget hb]
  cases hterm : (S.budgetAt b s.tick).terminal with
  | some reason =>
    dsimp only
    rw [readTerminal_of_budget rfl, locked_nil, locked_nil]
    refine ⟨_, rfl, rfl, ?_, .inl fun c => hothers⟩
    dsimp only
    rw [Surroundings.budgetAt, RequestBudget.terminal_runs hterm]
    simp
  | none =>
    dsimp only
    obtain ⟨s₁, hs₁⟩ : ∃ s₁ : CallState,
      { s.next with budget := some (S.budgetAt b s.tick) } = s₁ := ⟨_, rfl⟩
    have hbudget₁ : s₁.budget = some (S.budgetAt b s.tick) := by rw [← hs₁]
    have hattempts : s₁.next.attempts = s.attempts := by rw [← hs₁]; rfl
    have htick₁ : s.next.tick = s₁.tick := by rw [← hs₁]
    -- the attempts are counted, and then the budget is closed
    rw [hs₁, readReserved_of_budget hbudget₁]
    obtain ⟨s₂, hs₂⟩ : ∃ s₂ : CallState,
      { s₁.next with budget := some (S.budgetAt (S.budgetAt b s.tick) s₁.tick) } = s₂ := ⟨_, rfl⟩
    have hbudget₂ : s₂.budget = some (b.after (S.others s.tick ++ S.others s₁.tick)) := by
      rw [← hs₂, RequestBudget.after_append]
      rfl
    have hcount : (S.budgetAt (S.budgetAt b s.tick) s₁.tick).reserved =
        (b.after (S.others s.tick ++ S.others s₁.tick)).reserved := by
      rw [RequestBudget.after_append]
      rfl
    have htick₂ : s₁.next.tick = s₂.tick := by rw [← hs₂]
    dsimp only
    rw [hs₂, hattempts, hcount, Option.getD_some, htick₁, htick₂]
    obtain ⟨hsuccess, -⟩ :=
      closedReason_ne s.attempts (b.after (S.others s.tick ++ S.others s₁.tick)).reserved
    generalize hreason : closedReason s.attempts
      (b.after (S.others s.tick ++ S.others s₁.tick)).reserved = reason at hsuccess ⊢
    have hclosed := onBudget_of_budget (S := S) (f := fun b => b.close reason) hbudget₂
    rw [show s₂.close S reason = (s₂.onBudget S fun b => b.close reason).2 from rfl]
    revert hclosed
    generalize (s₂.onBudget S fun b => b.close reason).2 = s₃
    intro hclosed
    rw [readTerminal_of_budget hclosed]
    simp only [locked_nil]
    refine ⟨_, rfl, rfl, ?_, .inr ⟨S.others s.tick ++ S.others s₁.tick,
      S.others s.tick ++ (S.others s₁.tick ++ S.others s₂.tick), S.others s₃.tick, ?_,
      ⟨S.others s₂.tick, List.append_assoc _ _ _⟩, ?_, fun c hc => ⟨_, hc⟩⟩⟩
    · obtain ⟨r, hr⟩ := Option.ne_none_iff_exists'.mp (close_terminal_ne_none
        (S.budgetAt _ s₂.tick) hsuccess)
      rw [Surroundings.budgetAt, RequestBudget.terminal_runs hr]
      simp
    · rw [hreason]
      simp only [Surroundings.locked, List.append_assoc, List.cons_append, List.nil_append]
    · intro c hc
      rcases List.mem_append.mp hc with hc | hc
      · exact ⟨_, hc⟩
      · exact hothers hc

/-- A call that closed its budget is a log that ends once, and its reason is the terminal
reason of the budget. -/
theorem Closed.reason {timeout : Binary64} (hcancels : S.OnlyCancels) {s s' : CallState}
    {b : RequestBudget} (hb : s.budget = some b) {log : List Call}
    {reason : Option TerminalReason} (h : Closed S timeout s log (reason, s')) :
    EndsOnce log ∧ reason = (b.after log).terminal ∧ (b.after log).terminal ≠ none := by
  have hcancel : ∀ c, (∃ tick, c ∈ S.others tick) → c = .cancel :=
    fun c ⟨tick, hc⟩ => hcancels tick c hc
  have hquiet : ∀ c, (∃ tick, c ∈ S.others tick) → c.ends = false := by
    intro c hc
    rw [hcancel c hc]
    rfl
  have hreplays := h.replays
  obtain ⟨t, work, hwork, htried, rfl, hclose⟩ := h
  have hbt : t.budget = some (b.after work) := by
    rw [hwork, hb]
    rfl
  -- either others have closed the budget before, or the close of the walk does it
  obtain ⟨b', hb', hreason, hset, hshape⟩ := closeWalk_cases (S := S) hbt
  rw [hclose] at hb' hreason
  have hafter : b' = b.after (work ++ closeLog S t) := by
    rw [Replays, hb] at hreplays
    exact Option.some.inj (hb'.symm.trans hreplays)
  -- the budget that is left is the one that the log replays
  rw [← hafter]
  refine ⟨?_, hreason, hset⟩
  rcases hshape with hothers | ⟨before, log, rest, heq, -, hlog, hrest⟩
  · refine .inl fun c hc => ?_
    rcases List.mem_append.mp hc with hc | hc
    · exact htried.fromTries.ends hcancels c hc
    · exact hquiet c (hothers c hc)
  · obtain ⟨hsuccess, hcancellation⟩ :=
      closedReason_ne t.attempts ((b.after work).after before).reserved
    refine .inr ⟨work ++ log, _, rest, ?_, hsuccess, hcancellation, fun c hc => ?_,
      fun c hc => hcancel c (hrest c hc)⟩
    · rw [heq, List.append_assoc]
    · rcases List.mem_append.mp hc with hc | hc
      · exact htried.fromTries.ends hcancels c hc
      · exact hquiet c (hlog c hc)

/-- The end of a call reports a cancellation at an open reason exactly when it is noticed: in the
error that is raised, and in the budget that is left. -/
def ReportsCancellation (b₀ : RequestBudget) (log : List Call) (reason : Option TerminalReason) :
    Prop :=
  ∀ pre post, log = pre ++ .cancel :: post → (b₀.after pre).terminal = none →
    ((reason = some .cancellation ∧ (b₀.after log).terminal = some .cancellation) ↔
      b₀.Noticed pre post)

theorem Closed.reportsCancellation {timeout : Binary64} (hcancels : S.OnlyCancels)
    {s s' : CallState} {b : RequestBudget} (hb : s.budget = some b) {log : List Call}
    {reason : Option TerminalReason} (h : Closed S timeout s log (reason, s')) :
    ReportsCancellation b log reason := by
  obtain ⟨hshape, hreason, hfinal⟩ := h.reason hcancels hb
  intro pre post hsplit hopen
  rw [hreason, and_self]
  exact RequestBudget.cancellation_iff_of_log hshape hfinal hsplit hopen

end

/-- **Cancelling a call.**  The log of a budgeted call leads from its budget to the one it
leaves.  When the call raises `RouterError`, a cancellation that came while no reason was
set is the reason it reports and the one of the budget, exactly when it came before any
dispatch or the budget was asked for an attempt or a wait after it. -/
theorem cancellation_iff (S : Surroundings) (hcancels : S.OnlyCancels) (b₀ : RequestBudget)
    (tick : ℕ) :
    (∀ (cfg : RouterConfig) (req : ChatRequest) (table : Cooldowns),
      let s : ChatState := ⟨.start tick b₀, table⟩
      let log := chatLog S cfg req s
      (chat S cfg req s).2.budget = some (b₀.after log) ∧
      ∀ message attempts reason s', chat S cfg req s = (.routerError message attempts reason, s') →
        ReportsCancellation b₀ log reason) ∧
    ∀ (cfg : EmbedConfig) (req : EmbedRequest) (cache : Cache) (heap : List Json)
      (history : List CacheEvent),
      let s : EmbedState := ⟨.start tick b₀, cache, heap, history⟩
      let log := embedLog S cfg req s
      (embed S cfg req s).2.budget = some (b₀.after log) ∧
      ∀ message attempts reason s', embed S cfg req s = (.routerError message attempts reason, s') →
        ReportsCancellation b₀ log reason :=
  ⟨fun cfg req _ => ⟨chat_replays S cfg req _, fun _ _ _ _ h =>
      (chat_ends S cfg req h).reportsCancellation hcancels rfl⟩,
    fun cfg req _ _ _ => ⟨embed_replays S cfg req _, fun _ _ _ _ h =>
      (embed_ends S cfg req h).reportsCancellation hcancels rfl⟩⟩

/-! ### A cancellation during the only dispatch -/

/-- The local worker answers `reply`, and the budget is cancelled while it does. -/
def Surroundings.cancelling (reply : Reply) : Surroundings :=
  { Surroundings.still localEnv reply with
    others := fun tick => if tick = 6 then [.cancel] else [] }

theorem onlyCancels_cancelling (reply : Reply) : (Surroundings.cancelling reply).OnlyCancels := by
  intro tick c hc
  simp only [Surroundings.cancelling] at hc
  split_ifs at hc
  · exact List.mem_singleton.mp hc
  · cases hc

/-- The terminal reason of a `RouterError`. -/
def CallEnd.reason? : CallEnd → Option (Option TerminalReason)
  | .routerError _ _ reason => some reason
  | _ => none

theorem CallEnd.reason?_eq_some {e : CallEnd} {reason : Option TerminalReason}
    (h : e.reason? = some reason) :
    ∃ message attempts, e = .routerError message attempts reason := by
  cases e with
  | routerError message attempts r => exact ⟨message, attempts, by rw [Option.some.inj h]⟩
  | response body => cases h
  | raised e => cases h
  | diverged => cases h

open RequestBudget in
theorem cancellation_iff_busy :
    let S := Surroundings.cancelling busyReply
    let s : ChatState := ⟨.start 0 twoAttempts, fun _ => none⟩
    let log := chatLog S localRouter localChat s
    ∃ reason, (chat S localRouter localChat s).1.reason? = some reason ∧
      log = [.reserve 5 0] ++ .cancel :: [.noteOutcome 1 .known, .allowBackoff 0 0] ∧
      reason = some .cancellation ∧ (twoAttempts.after log).terminal = some .cancellation := by
  intro S s log
  have hreason : (chat S localRouter localChat s).1.reason? = some (some .cancellation) := by
    decide +kernel
  have hlog : log = [.reserve 5 0] ++ .cancel :: [.noteOutcome 1 .known, .allowBackoff 0 0] := by
    decide +kernel
  obtain ⟨message, attempts, hend⟩ := CallEnd.reason?_eq_some hreason
  have h := ((cancellation_iff S (onlyCancels_cancelling busyReply) twoAttempts 0).1 localRouter
    localChat fun _ => none).2 message attempts _ _ (Prod.ext hend rfl)
  exact ⟨_, hreason, hlog, (h _ _ hlog (by decide +kernel)).mpr
    (.inr ⟨.allowBackoff 0 0, by simp, by decide +kernel⟩)⟩

/-- The only dispatch is refused for good while the call is cancelled: nobody asks the budget
again, and the call reports that no provider was available. -/
theorem cancellation_lost :
    let S := Surroundings.cancelling (.failed (.http 400 [] (lit "bad request")))
    let s : ChatState := ⟨.start 0 twoAttempts, fun _ => none⟩
    let r := chat S localRouter localChat s
    chatLog S localRouter localChat s = [.reserve 5 0] ++ .cancel ::
      [.noteOutcome 1 .known, .close .providerUnavailable] ∧
    (twoAttempts.after [.reserve 5 0]).terminal = none ∧
    r.1.reason? = some (some .providerUnavailable) ∧
    r.2.budget.map (·.terminal) = some (some .providerUnavailable) := by
  decide +kernel

end SzlRouter
