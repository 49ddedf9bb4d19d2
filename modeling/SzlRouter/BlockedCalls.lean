/-
Calls that policy leaves without a route.

A walk that ends without an answer closes its budget with a reason that it reads off the
rows of the trail.  What the rows can say is settled first, for both route loops, then
what is in the trail and in the budget as long as no attempt was granted.

* `tryRoute_skips`, `ChatState.walk_skips`, `EmbedState.walk_skips` — the rows of skips;
* `Unsent` — nothing was dispatched before the first attempt was granted;
* `RequestBudget.as_new_iff` — what leaves a new budget as it was;
* `Closed.policyBlocked_iff` — when the end of a call is put down to policy;
* `policy_blocked` — what `chat` and `embed` report.
-/
import SzlRouter.CancelledCalls
import SzlRouter.Attribution

open Py Transition

namespace SzlRouter

open RequestBudget (Call)

/-! ### Rows of skips -/

/-- The texts of the rows that pricing, quota and reservation policy leave. -/
def policyErrors : List Str :=
  [lit "pricing/quota unqualified; grid route disabled",
    lit "pricing/reservation unqualified; paid route disabled",
    lit "cloud embeddings pricing/quota unqualified; route disabled"]

/-- A skip because policy does not qualify the route. -/
def Attempt.isPolicySkip (a : Attempt) : Bool :=
  a.isSkip && a.error.any fun e => decide (e ∈ policyErrors)

/-- What the route loop of `chat` writes about a route that it skips. -/
inductive ChatSkip : Str → Prop
  | unavailable : ChatSkip unavailableError
  | cooldown (left : Binary64) : ChatSkip (cooldownError left)
  | grid : ChatSkip (lit "pricing/quota unqualified; grid route disabled")
  | paid : ChatSkip (lit "pricing/reservation unqualified; paid route disabled")

/-- What the route loop of `embed` writes about a route that it skips. -/
inductive EmbedSkip : Str → Prop
  | unavailable : EmbedSkip unavailableError
  | cloud : EmbedSkip (lit "cloud embeddings pricing/quota unqualified; route disabled")

/-- The rows of skips have such errors. -/
def SkipsAre (K : Str → Prop) (rows : List Attempt) : Prop :=
  ∀ a ∈ rows, a.isSkip = true → ∃ e, a.error = some e ∧ K e

namespace SkipsAre

variable {K : Str → Prop} {rows : List Attempt}

theorem nil : SkipsAre K [] := by simp [SkipsAre]

theorem snoc (h : SkipsAre K rows) {a : Attempt}
    (ha : a.isSkip = true → ∃ e, a.error = some e ∧ K e) : SkipsAre K (rows ++ [a]) := by
  intro a' ha'
  rcases List.mem_append.mp ha' with ha' | ha'
  · exact h a' ha'
  · rw [List.mem_singleton.mp ha']
    exact ha

theorem dispatched (h : SkipsAre K rows) {a : Attempt} (ha : a.isSkip = false) :
    SkipsAre K (rows ++ [a]) :=
  h.snoc fun hskip => absurd (ha.symm.trans hskip) (by simp)

theorem modifyLast (h : SkipsAre K rows) {f : Attempt → Attempt}
    (hf : ∀ a, (f a).isSkip = false) : SkipsAre K (modifyLast f rows) := by
  rcases rows.eq_nil_or_concat with rfl | ⟨front, a, rfl⟩
  · exact h
  · rw [List.concat_eq_append] at h ⊢
    rw [modifyLast_append]
    exact dispatched (fun a' ha' => h a' (List.mem_append_left _ ha')) (hf a)

end SkipsAre

section

variable {K : Str → Prop} (S : Surroundings) (cfg : RetryConfig) (poster : Poster)
  (provider : Provider) (payload : Dict) (timeout : Binary64)

/-- A dispatch writes at most the row of its reply. -/
theorem dispatch_skips (attempt : ℕ) (sendTimeout : Binary64) (b : RequestBudget)
    {s : CallState} (h : SkipsAre K s.attempts) :
    SkipsAre K (dispatch S poster provider payload attempt sendTimeout b s).2.2.attempts := by
  have hclock : SkipsAre K (S.readClock s).2.attempts := h
  rw [dispatch]
  revert hclock
  rcases S.readClock s with ⟨e | started, s₁⟩
  · exact id
  -- a clock that raises ends the dispatch before its row; otherwise the row is one of transport
  · intro hclock
    have hsent : SkipsAre K
        (S.send poster provider payload sendTimeout s₁).2.next.attempts := hclock
    dsimp only
    revert hsent
    generalize S.send poster provider payload sendTimeout s₁ = sent
    obtain ⟨reply, s₂⟩ := sent
    intro hsent
    dsimp only [noteReply]
    -- the outcome may be refused, and then no row is written
    rcases (S.budgetAt b s₂.tick).noteOutcome attempt reply.outcome with ⟨b', _ | _⟩
    · exact hsent
    · have hread : SkipsAre K (S.readClock s₂.next).2.attempts := hsent
      dsimp only
      revert hread
      rcases S.readClock s₂.next with ⟨e | now, s₃⟩
      · exact id
      · exact fun hread => hread.dispatched (transportAttempt_isSkip _ _ _ _)

theorem backoff_same (attempt : ℕ) (e : Failure) (b : RequestBudget) (s : CallState) :
    (backoff S cfg attempt e b s).2.2.attempts = s.attempts ∧
      posts (backoff S cfg attempt e b s).2.2.events = posts s.events := by
  rw [backoff]
  rcases backoffSleepSeconds cfg (attempt - 1) (S.uniform s.tick) with _ | delay
  · exact ⟨rfl, rfl⟩
  · dsimp only
    rcases (S.budgetAt b s.tick).allowBackoff delay (S.clock s.tick) with ⟨b', _ | _ | _⟩
    · exact ⟨rfl, rfl⟩
    · exact ⟨rfl, rfl⟩
    · refine ⟨rfl, ?_⟩
      simp only [CallState.log, CallState.next, posts_append]
      exact List.append_nil _

/-- The retries only write rows of dispatches. -/
theorem postWithRetry_skips {s : CallState} (h : SkipsAre K s.attempts) :
    SkipsAre K (postWithRetry S cfg poster provider payload timeout s).2.attempts := by
  rw [postWithRetry]
  cases s.budget with
  | none =>
    -- without a budget the retries write no row
    have hloop := unbudgetedLoop_invariant S cfg poster provider payload timeout
      (P := fun t => SkipsAre K t.attempts) (R := fun _ t => SkipsAre K t.attempts)
      (fun t ht => by
        have hsent : SkipsAre K (S.send poster provider payload timeout t).2.attempts := ht
        revert hsent
        rcases S.send poster provider payload timeout t with ⟨_ | _, _⟩ <;> exact id)
      (fun t delay ht => ht) cfg.maxAttempts.toNat 0 s h
    revert hloop
    dsimp only
    rcases unbudgetedLoop S cfg poster provider payload timeout cfg.maxAttempts.toNat 0 s with
      ⟨_ | _, _⟩ <;> exact id
  | some b =>
    -- with one, each turn writes the row of its dispatch
    have hloop := budgetedLoop_invariant S cfg poster provider payload timeout
      (P := fun _ t => SkipsAre K t.attempts) (R := fun _ _ t => SkipsAre K t.attempts)
      (fun b t reason ht => ht)
      (fun b t sendTimeout ht _ => by
        have hturn : SkipsAre K
            (turn S poster provider payload b t sendTimeout).2.2.attempts :=
          dispatch_skips S poster provider payload _ sendTimeout _
            (s := t.log (.reserved ⟨_, _, S.clock t.tick, sendTimeout⟩)) ht
        revert hturn
        rcases turn S poster provider payload b t sendTimeout with ⟨_ | _ | _ | _, _, _⟩ <;>
          exact id)
      (fun n e b t ht => by
        rw [(backoff_same S cfg n e b t).1]
        exact ht)
      budgetFuel none b s h
    revert hloop
    dsimp only
    rcases budgetedLoop S cfg poster provider payload timeout budgetFuel none b s with
      ⟨_ | _, _, _⟩ <;> exact id

theorem tryRoute_skips (route : Route) (check : Json → Option String) {s : CallState}
    (h : SkipsAre K s.attempts) :
    SkipsAre K (tryRoute S cfg poster route provider payload timeout check s).2.attempts := by
  have hretry := postWithRetry_skips S cfg poster provider payload timeout (s := s.next) h
  rw [tryRoute]
  revert hretry
  rcases postWithRetry S cfg poster provider payload timeout s.next with ⟨(_ | e | _) | v, s'⟩
  · exact id
  · intro hretry
    dsimp only
    -- a row of its own is written only where the retries left none
    split_ifs
    · refine SkipsAre.dispatched hretry ?_
      cases e <;> rfl
    · exact hretry
  · exact id
  · intro hretry
    dsimp only
    -- the row of the last post is corrected, or a new one stands for it
    cases check v.val with
    | some detail =>
      dsimp only [rejectRow]
      split_ifs
      · exact SkipsAre.dispatched hretry rfl
      · exact SkipsAre.modifyLast hretry fun _ => rfl
    | none =>
      dsimp only [acceptRow]
      split_ifs
      · exact SkipsAre.dispatched hretry rfl
      · exact SkipsAre.modifyLast hretry fun _ => rfl

end

theorem readTerminal_attempts (S : Surroundings) (s : CallState) :
    (s.readTerminal S).2.attempts = s.attempts :=
  s.onBudget_attempts S _

theorem closeWalk_attempts (S : Surroundings) (s : CallState) :
    (closeWalk S s).2.attempts = s.attempts := by
  rw [closeWalk]
  rcases hread : s.readTerminal S with ⟨_ | reason, s₁⟩
  · have hs₁ : s₁.attempts = s.attempts := by rw [← readTerminal_attempts S s, hread]
    dsimp only [CallState.readTerminal, CallState.readReserved, CallState.close]
    rw [CallState.onBudget_attempts, CallState.onBudget_attempts, CallState.onBudget_attempts, hs₁]
  · have hs₁ : s₁.attempts = s.attempts := by rw [← readTerminal_attempts S s, hread]
    exact (readTerminal_attempts S s₁).trans hs₁

theorem SkipsAre.closeWalk {K : Str → Prop} (S : Surroundings) {s : CallState}
    (h : SkipsAre K s.attempts) : SkipsAre K (closeWalk S s).2.attempts := by
  rw [closeWalk_attempts]
  exact h

namespace ChatState

section

variable (S : Surroundings) (cfg : RouterConfig) (req : ChatRequest) (routing : Option Json)

theorem qualified_skips (route : Route) (provider : Provider) {s : ChatState}
    (h : SkipsAre ChatSkip s.attempts) :
    SkipsAre ChatSkip (s.qualified S cfg req routing route provider).2.attempts := by
  have htry := tryRoute_skips S cfg.retry .chat provider (chatPayload req route.2) req.timeout
    route chatResponseError h
  rw [qualified, ChatState.try]
  revert htry
  generalize tryRoute S cfg.retry .chat route provider _ _ _ _ = r
  -- whatever the try ends with, only cooldowns and the provenance come after it
  obtain ⟨_ | _ | _ | result | _, c⟩ := r
  · exact id
  · intro htry
    dsimp only
    rw [readTerminal_attempts,
      (setCooldown_same S cfg route.1 { s with toCallState := c }).attempts]
    exact htry
  · intro htry
    dsimp only
    rw [(setCooldown_same S cfg route.1 { s with toCallState := c }).attempts]
    exact htry
  · intro htry
    obtain ⟨prov, tick, s', hserve, -, hattempts, -⟩ :=
      serve_cases S routing route provider result { s with toCallState := c }
    dsimp only
    rw [hserve, hattempts]
    exact htry
  · exact id

theorem skip_skips (route : Route) {error : Str} (herror : ChatSkip error) {s : ChatState}
    (h : SkipsAre ChatSkip s.attempts) : SkipsAre ChatSkip (s.skip route error).attempts :=
  h.snoc fun _ => ⟨error, rfl, herror⟩

theorem visit_skips (route : Route) (later : List Route) {s : ChatState}
    (h : SkipsAre ChatSkip s.attempts) :
    SkipsAre ChatSkip (s.visit S cfg req routing route later).2.attempts := by
  rw [visit]
  cases cfg.registry.provider route.1 with
  | none => exact skip_skips route .unavailable h
  | some provider =>
    dsimp only
    split_ifs
    · exact skip_skips route .unavailable h
    · cases tierOf provider with
      | unqualifiedGrid => exact skip_skips route .grid h
      | paidGrid => exact skip_skips route .paid h
      | sovereign =>
        have hcool : SkipsAre ChatSkip (s.cooldownRemaining S route.1).2.attempts := h
        have hwarm : SkipsAre ChatSkip
            ((s.cooldownRemaining S route.1).2.warmCandidateLater S cfg later).2.attempts := by
          rw [(warmCandidateLater_same S cfg later _).attempts]
          exact hcool
        dsimp only [cooled]
        split_ifs
        · exact skip_skips route (.cooldown _) hwarm
        · exact qualified_skips S cfg req routing route provider hwarm
        · exact qualified_skips S cfg req routing route provider hcool

/-- The skips of a walk. -/
theorem walk_skips (routes : List Route) {s : ChatState} (h : SkipsAre ChatSkip s.attempts) :
    SkipsAre ChatSkip (s.walk S cfg req routing routes).2.attempts := by
  induction routes generalizing s with
  | nil => exact h
  | cons route later ih =>
    have hread : SkipsAre ChatSkip (s.toCallState.readTerminal S).2.attempts := by
      rw [readTerminal_attempts]
      exact h
    have hvisit := visit_skips S cfg req routing route later
      (s := { s with toCallState := (s.toCallState.readTerminal S).2 }) hread
    rw [walk]
    dsimp only
    split_ifs
    · exact hread
    · revert hvisit
      generalize visit S cfg req routing route later _ = v
      obtain ⟨_ | _ | response | _, s'⟩ := v
      · exact ih
      · exact id
      · exact id
      · exact id

end

end ChatState

namespace EmbedState

section

variable (S : Surroundings) (cfg : EmbedConfig) (req : EmbedRequest) (prep : Prepared)

theorem dispatch_skips (route : Route) (provider : Provider) (key : Option (Identity × Str))
    {s : EmbedState} (h : SkipsAre EmbedSkip s.attempts) :
    SkipsAre EmbedSkip (s.dispatch S cfg req prep route provider key).2.attempts := by
  have htry := tryRoute_skips S cfg.retry .embeddings provider (embedPayload prep route.2)
    req.timeout route (embeddingResponseError (embedPayload prep route.2)) h
  rw [EmbedState.dispatch, EmbedState.try]
  revert htry
  dsimp only
  generalize tryRoute S cfg.retry .embeddings route provider _ _ _ _ = r
  -- as for `chat`, with the store of the answer in the place of the cooldowns
  obtain ⟨_ | _ | _ | result | _, c⟩ := r
  · exact id
  · intro htry
    dsimp only
    rw [readTerminal_attempts]
    exact htry
  · exact id
  · intro htry
    obtain ⟨prov, tick, c', hserve, -, hattempts, -⟩ :=
      serve_cases S route provider result { s with toCallState := c }
    dsimp only
    rw [(deliver_same S cfg route provider key result { s with toCallState := c }).attempts,
      hserve]
    dsimp only
    rw [hattempts]
    exact htry
  · exact id

theorem skip_skips (route : Route) {error : Str} (herror : EmbedSkip error) {s : EmbedState}
    (h : SkipsAre EmbedSkip s.attempts) : SkipsAre EmbedSkip (s.skip route error).attempts :=
  h.snoc fun _ => ⟨error, rfl, herror⟩

theorem visit_skips (route : Route) (provider : Option Provider) {s : EmbedState}
    (h : SkipsAre EmbedSkip s.attempts) :
    SkipsAre EmbedSkip (s.visit S cfg req prep route provider).2.attempts := by
  rcases provider with _ | p
  · exact skip_skips route .unavailable h
  · rw [visit]
    dsimp only
    split_ifs
    · exact skip_skips route .unavailable h
    · exact skip_skips route .cloud h
    · -- a qualified route: a row only comes from its dispatch
      rw [qualified]
      split_ifs
      · exact dispatch_skips S cfg req prep route p none h
      · dsimp only
        generalize identityOf req.model (embedPayload prep route.2) p _ prep.scope
          prep.callerScope route.1 = identity
        cases embedCacheKey cfg.scopeKey identity with
        | error e => exact h
        | ok key =>
          have hget : SkipsAre EmbedSkip (cacheGet S cfg p identity key
              { s with toCallState := s.toCallState.next }).2.attempts := by
            rw [(cacheGet_same S cfg p identity key _).attempts]
            exact h
          dsimp only
          revert hget
          rcases cacheGet S cfg p identity key { s with toCallState := s.toCallState.next } with
            ⟨_ | a, s'⟩
          · exact dispatch_skips S cfg req prep route p _
          · intro hget
            dsimp only
            cases asCacheHit (s'.read a) s'.attempts with
            | error e => exact hget
            | ok out => exact hget

/-- The skips of a walk. -/
theorem walk_skips (slots : List Slot) {s : EmbedState} (h : SkipsAre EmbedSkip s.attempts) :
    SkipsAre EmbedSkip (s.walk S cfg req prep slots).2.attempts := by
  induction slots generalizing s with
  | nil => exact h
  | cons slot later ih =>
    obtain ⟨route, provider⟩ := slot
    have hread : SkipsAre EmbedSkip (s.toCallState.readTerminal S).2.attempts := by
      rw [readTerminal_attempts]
      exact h
    have hvisit := visit_skips S cfg req prep route provider
      (s := { s with toCallState := (s.toCallState.readTerminal S).2 }) hread
    rw [walk]
    dsimp only
    split_ifs
    · exact hread
    · revert hvisit
      generalize visit S cfg req prep route provider _ = v
      obtain ⟨_ | _ | a | a | e | _, s'⟩ := v
      · exact ih
      · exact id
      · exact id
      · exact id
      · exact id
      · exact id

end

end EmbedState

/-! ### Before the first attempt -/

/-- Before an attempt is granted there are no rows but those of skips, and nothing was
posted. -/
def Unsent (s : CallState) : Prop :=
  ∀ b, s.budget = some b → b.reserved = 0 →
    (∀ a ∈ s.attempts, a.isSkip = true) ∧ posts s.events = []

theorem quiet_unsent (S : Surroundings) : Quiet S Unsent where
  same := fun {s s'} hs h b hb hzero => by
    rw [hs.attempts, hs.events]
    exact h b (hs.budget.symm.trans hb) hzero
  skip := fun {s a} ha _ h b hb hzero => by
    obtain ⟨hrows, hposts⟩ := h b hb hzero
    refine ⟨fun a' ha' => ?_, hposts⟩
    rcases List.mem_append.mp ha' with ha' | ha'
    · exact hrows a' ha'
    · rw [List.mem_singleton.mp ha']
      exact ha
  onBudget := fun {s α f} hf h b hb hzero => by
    rw [CallState.onBudget] at hb ⊢
    cases hs : s.budget with
    | none =>
      rw [hs] at hb
      cases hs.symm.trans hb
    | some b₁ =>
      rw [hs] at hb
      obtain rfl := Option.some.inj hb
      -- what others do to the budget takes no attempt back, so none was granted before
      refine h b₁ hs ?_
      have hle := (grows_budgetAt S b₁ s.tick).reserved_le
      rw [show (S.budgetAt b₁ s.tick).reserved = 0 from (hf _).2.symm.trans hzero] at hle
      exact Nat.le_zero.mp hle

section

variable (S : Surroundings) (cfg : RetryConfig) (poster : Poster) (provider : Provider)
  (payload : Dict) (timeout : Binary64)

/-- The retries keep it, and a result means that an attempt was granted. -/
theorem postWithRetry_unsent {s : CallState} (h : Unsent s) :
    match postWithRetry S cfg poster provider payload timeout s with
    | (.ok _, s') => ∀ b, s'.budget = some b → b.reserved ≠ 0
    | (.error _, s') => Unsent s' := by
  rw [postWithRetry]
  cases hb : s.budget with
  | none =>
    have hloop := unbudgetedLoop_budget S cfg poster provider payload timeout
      cfg.maxAttempts.toNat 0 s
    rw [hb] at hloop
    revert hloop
    dsimp only
    rcases unbudgetedLoop S cfg poster provider payload timeout cfg.maxAttempts.toNat 0 s with
      ⟨_ | _, s'⟩
    · intro hnone b hb'
      cases hnone.symm.trans hb'
    · intro hnone b hb'
      cases hnone.symm.trans hb'
  | some b =>
    have hloop := budgetedLoop_invariant S cfg poster provider payload timeout
      (P := fun b s => b.reserved = 0 →
        (∀ a ∈ s.attempts, a.isSkip = true) ∧ posts s.events = [])
      (R := fun _ b _ => b.reserved ≠ 0)
      (fun b t reason ht hzero => by
        have hle := (grows_budgetAt S b t.tick).reserved_le
        rw [show (S.budgetAt b t.tick).reserved = 0 from hzero] at hle
        exact ht (Nat.le_zero.mp hle))
      (fun b t sendTimeout _ _ => by
        -- a turn counts an attempt
        have hlt := (grows_turn S poster provider payload b t sendTimeout).2
        revert hlt
        rcases turn S poster provider payload b t sendTimeout with ⟨_ | _ | _ | _, b', s'⟩
        · exact fun hlt hzero => absurd hzero (Nat.ne_of_gt (Nat.zero_lt_of_lt hlt))
        · exact fun hlt => Nat.ne_of_gt (Nat.zero_lt_of_lt hlt)
        · exact fun hlt hzero => absurd hzero (Nat.ne_of_gt (Nat.zero_lt_of_lt hlt))
        · exact fun hlt hzero => absurd hzero (Nat.ne_of_gt (Nat.zero_lt_of_lt hlt)))
      (fun n e b t ht hzero => by
        obtain ⟨hrows, hposts⟩ := backoff_same S cfg n e b t
        have hle := (grows_backoff S cfg n e b t).reserved_le
        rw [hzero] at hle
        rw [hrows, hposts]
        exact ht (Nat.le_zero.mp hle))
      budgetFuel none b s (h b hb)
    revert hloop
    dsimp only
    rcases budgetedLoop S cfg poster provider payload timeout budgetFuel none b s with
      ⟨_ | _, b', s'⟩
    · intro hloop b'' hb''
      obtain rfl := Option.some.inj hb''
      exact hloop
    · intro hloop b'' hb''
      obtain rfl := Option.some.inj hb''
      exact hloop

theorem tryRoute_unsent (route : Route) (check : Json → Option String) {s : CallState}
    (h : Unsent s) :
    Unsent (tryRoute S cfg poster route provider payload timeout check s).2 := by
  have hretry := postWithRetry_unsent S cfg poster provider payload timeout
    ((quiet_unsent S).same (.next s) h)
  rw [tryRoute]
  revert hretry
  rcases postWithRetry S cfg poster provider payload timeout s.next with ⟨(_ | e | _) | v, s'⟩
  · exact id
  · intro hretry
    have hnext := (quiet_unsent S).same (.next s') hretry
    dsimp only
    split_ifs with hnone
    · intro b hb
      rw [Option.isNone_iff_eq_none] at hnone
      cases hnone.symm.trans hb
    · exact hnext
  · exact id
  · -- a result: an attempt was granted
    intro hretry
    dsimp only
    cases check v.val with
    | some detail =>
      dsimp only [rejectRow]
      split_ifs
      · exact fun b hb hzero => absurd hzero (hretry b hb)
      · exact fun b hb hzero => absurd hzero (hretry b hb)
    | none =>
      dsimp only [acceptRow]
      split_ifs
      · exact fun b hb hzero => absurd hzero (hretry b hb)
      · exact fun b hb hzero => absurd hzero (hretry b hb)

end

theorem unsent_chat_rule (S : Surroundings) (cfg : RouterConfig) (req : ChatRequest) :
    ChatState.TryRule S cfg req (fun _ => Unsent) (fun _ _ _ _ => Unsent) where
  quiet := fun _ => quiet_unsent S
  pass := id
  tries := fun {seen route provider s} _ h => by
    have htry := tryRoute_unsent S cfg.retry .chat provider (chatPayload req route.2) req.timeout
      route chatResponseError h
    revert htry
    dsimp only [ChatState.tryChat]
    generalize tryRoute S cfg.retry .chat route provider _ _ _ _ = r
    obtain ⟨_ | _ | _ | _ | _, c⟩ := r <;> exact id

theorem unsent_embed_rule (S : Surroundings) (cfg : EmbedConfig) (req : EmbedRequest)
    (prep : Prepared) (start : ℕ) :
    EmbedState.TryRule S cfg req prep start (fun _ _ s => start ≤ s.tick ∧ Unsent s.toCallState)
      (fun _ _ _ _ s => Unsent s.toCallState) where
  quiet := fun _ _ s => (quiet_later S start).and (quiet_unsent S)
  later := And.left
  enter := id
  pass := id
  lookup := fun _ _ h => ⟨h.1.trans (cacheGet_same S cfg _ _ _ _).tick_le,
    (quiet_unsent S).same (cacheGet_same S cfg _ _ _ _) h.2⟩
  tries := fun {seen route provider s} _ h => by
    have htry := tryRoute_unsent S cfg.retry .embeddings provider (embedPayload prep route.2)
      req.timeout route (embeddingResponseError (embedPayload prep route.2)) h.2
    have htick := h.1.trans (tick_le_tryRoute S cfg.retry .embeddings route provider
      (embedPayload prep route.2) req.timeout
      (embeddingResponseError (embedPayload prep route.2)) s.toCallState)
    -- a try that serves, or is broken off, leaves the rule; the others go on
    revert htry htick
    dsimp only [EmbedState.tryEmbed]
    generalize tryRoute S cfg.retry .embeddings route provider _ _ _ _ = r
    obtain ⟨_ | _ | _ | _ | _, c⟩ := r
    · exact fun htry htick => ⟨htick, htry⟩
    · exact fun htry htick => ⟨htick, htry⟩
    · exact fun htry htick => ⟨htick, htry⟩
    · exact fun htry _ => htry
    · exact fun htry htick => ⟨htick, htry⟩

/-! ### The reason -/

namespace RequestBudget

/-- The tries never set the reason that policy has. -/
theorem step_ofTry_terminal {S : Surroundings} {timeout : Binary64} {b : RequestBudget}
    {c : Call} (hc : OfTry S timeout c) (h : b.terminal ≠ some .policyBlocked) :
    (b.step c).1.terminal ≠ some .policyBlocked := by
  cases hc with
  | reserve tick =>
    rw [step, reserve]
    cases validateCallerTimeout timeout with
    | error e => exact h
    | ok t =>
      dsimp only
      cases hterm : b.terminal with
      | some reason => exact h
      | none =>
        dsimp only
        -- a refused reservation closes the budget for another reason
        split_ifs <;> simp [stopFor, commit, hterm]
  | noteOutcome attempt outcome =>
    rcases b.noteOutcome_cases attempt outcome with ⟨rows, _, heq⟩ | ⟨e, heq⟩
    · rw [step, heq]
      exact h
    · rw [step, heq]
      exact h
  | allowBackoff delay now =>
    rw [step, allowBackoff]
    cases hterm : b.terminal with
    | some reason =>
      rw [hterm] at h
      split_ifs <;> simpa [hterm] using h
    | none =>
      dsimp only
      split_ifs <;> simp [hterm]

/-- The call was asked for an attempt when the clock gave no finite reading. -/
def Call.undated : Call → Bool
  | .reserve _ now => !now.isFinite
  | _ => false

/-- A new budget that is asked for an attempt at a time of the clock refuses it for the deadline
or grants it. -/
theorem step_reserve_new (limits : BudgetLimits) {timeout now : Binary64}
    (htimeout : validateCallerTimeout timeout = .ok timeout) (hnow : now.isFinite = true) :
    ((ofLimits limits).step (.reserve timeout now)).1.terminal ≠ none ∨
      ((ofLimits limits).step (.reserve timeout now)).1.reserved ≠ 0 := by
  have hmax : ¬(ofLimits limits).maxAttempts ≤ (ofLimits limits).reserved :=
    Nat.not_le.mpr limits.one_le
  rw [step, reserve, htimeout]
  dsimp only
  rw [show (ofLimits limits).terminal = none from rfl]
  dsimp only
  rw [if_neg (by simp [ofLimits]), if_neg hmax, if_neg (by simp [hnow])]
  split_ifs
  · exact .inl (by simp [stopFor])
  · exact .inl (by simp [stopFor])
  · exact .inr (by simp [commit])

/-- Without a time of the clock the question fails, and the budget is as it was. -/
theorem step_reserve_undated (limits : BudgetLimits) {timeout now : Binary64}
    (htimeout : validateCallerTimeout timeout = .ok timeout) (hnow : now.isFinite = false) :
    ((ofLimits limits).step (.reserve timeout now)).1 = ofLimits limits := by
  have hmax : ¬(ofLimits limits).maxAttempts ≤ (ofLimits limits).reserved :=
    Nat.not_le.mpr limits.one_le
  rw [step, reserve, htimeout]
  dsimp only
  rw [show (ofLimits limits).terminal = none from rfl]
  dsimp only
  rw [if_neg (by simp [ofLimits]), if_neg hmax, if_pos (by simp [hnow])]

/-- A cancellation ends a new budget. -/
theorem step_cancel_new (limits : BudgetLimits) :
    ((ofLimits limits).step .cancel).1.terminal = some .cancellation := rfl

/-- **What leaves a new budget as it was.**  After cancellations and questions for an attempt
it has no reason and granted no attempt exactly when all of them were questions that the
clock could not date. -/
theorem as_new_iff {limits : BudgetLimits} {timeout : Binary64}
    (htimeout : validateCallerTimeout timeout = .ok timeout) {log : List Call}
    (hlog : ∀ c ∈ log, c = .cancel ∨ ∃ now, c = .reserve timeout now) :
    ((ofLimits limits).after log).terminal = none ∧ ((ofLimits limits).after log).reserved = 0 ↔
      ∀ c ∈ log, c.undated = true := by
  induction log with
  | nil => exact iff_of_true ⟨rfl, rfl⟩ (by simp)
  | cons c log ih =>
    obtain ⟨hc, hrest⟩ := List.forall_mem_cons.mp hlog
    rw [after_cons, List.forall_mem_cons]
    rcases hc with rfl | ⟨now, rfl⟩
    · -- the reason that a cancellation sets stands
      refine iff_of_false (fun h => ?_) fun h => nomatch h.1
      exact absurd (h.1.symm.trans (terminal_runs (step_cancel_new limits) log)) (by simp)
    · cases hnow : now.isFinite with
      | true =>
        refine iff_of_false (fun h => ?_) fun h => absurd h.1 (by simp [Call.undated, hnow])
        rcases step_reserve_new limits htimeout hnow with hterm | hgranted
        · obtain ⟨reason, hreason⟩ := Option.ne_none_iff_exists'.mp hterm
          exact absurd (h.1.symm.trans (terminal_runs hreason log)) (by simp)
        · have hle := reserved_le_after ((ofLimits limits).step (.reserve timeout now)).1 log
          rw [h.2] at hle
          exact hgranted (Nat.le_zero.mp hle)
      | false =>
        rw [step_reserve_undated limits htimeout hnow, ih hrest]
        exact (and_iff_right (by simp [Call.undated, hnow])).symm

end RequestBudget

section

variable {S : Surroundings}

/-- The texts that a closing takes for policy are those of policy. -/
theorem ChatSkip.policy {e : Str} (h : ChatSkip e)
    (hstarts : Str.startsWith e (lit "pricing/") = true) : e ∈ policyErrors := by
  cases h with
  | unavailable => exact absurd hstarts (by decide)
  | cooldown left =>
    have hno : Str.startsWith (cooldownError left) (lit "pricing/") = false := rfl
    exact absurd (hno.symm.trans hstarts) (by simp)
  | grid => simp [policyErrors]
  | paid => simp [policyErrors]

/-- The closing takes no text of the route loop of `embed` for policy. -/
theorem EmbedSkip.not_startsWith {e : Str} (h : EmbedSkip e) :
    Str.startsWith e (lit "pricing/") = false := by
  cases h with
  | unavailable => decide
  | cloud => decide

/-- A text of policy in the route loop of `chat` is one that a closing takes for it. -/
theorem ChatSkip.startsWith {e : Str} (h : ChatSkip e) (hpolicy : e ∈ policyErrors) :
    Str.startsWith e (lit "pricing/") = true := by
  cases h with
  | unavailable => exact absurd hpolicy (by decide)
  | cooldown left =>
    have hno : ∀ e ∈ policyErrors, e.take 2 ≠ lit "co" := by decide
    exact absurd rfl (hno _ hpolicy)
  | grid => decide
  | paid => decide

/-- What a closing takes for policy, before anything was dispatched. -/
theorem closedReason_eq_policyBlocked {rows : List Attempt} {dispatched : ℕ} :
    closedReason rows dispatched = .policyBlocked ↔ dispatched = 0 ∧ rows ≠ [] ∧
      ∀ a ∈ rows, Str.startsWith (a.error.getD []) (lit "pricing/") = true := by
  rw [closedReason]
  by_cases hzero : dispatched = 0
  · rw [if_neg (by simpa using hzero)]
    split_ifs with hrows
    · simpa [hzero] using hrows
    · simpa [hzero] using hrows
  · rw [if_pos hzero]
    simp [hzero]

/-- The calls before the budget is closed. -/
def beforeClose (log : List Call) : List Call := log.takeWhile fun c => !c.ends

/-- Until the budget is closed nobody cancels it, and it is asked for no attempt, unless the
clock gives no finite reading. -/
def Untouched (log : List Call) : Prop := ∀ c ∈ beforeClose log, c.undated = true

instance (log : List Call) : Decidable (Untouched log) :=
  inferInstanceAs (Decidable (∀ c ∈ beforeClose log, c.undated = true))

theorem beforeClose_of_quiet {log : List Call} (h : ∀ c ∈ log, c.ends = false) :
    beforeClose log = log :=
  List.takeWhile_eq_self_iff.mpr fun c hc => by simp [h c hc]

theorem beforeClose_append {log : List Call} (h : ∀ c ∈ log, c.ends = false)
    (reason : TerminalReason) (rest : List Call) :
    beforeClose (log ++ .close reason :: rest) = log := by
  rw [beforeClose, List.takeWhile_append_of_pos fun c hc => by simp [h c hc]]
  exact List.append_nil log

theorem after_cancels_reserved {b : RequestBudget} {log : List Call}
    (hlog : ∀ c ∈ log, c = .cancel) : (b.after log).reserved = b.reserved := by
  induction log generalizing b with
  | nil => rfl
  | cons c log ih =>
    obtain ⟨rfl, hrest⟩ := List.forall_mem_cons.mp hlog
    exact ih hrest

/-- Tries and cancellations never set the reason that policy has. -/
theorem after_quiet_terminal {timeout : Binary64} {log : List Call} {b : RequestBudget}
    (hlog : ∀ c ∈ log, c = .cancel ∨ OfTry S timeout c) (h : b.terminal ≠ some .policyBlocked) :
    (b.after log).terminal ≠ some .policyBlocked := by
  induction log generalizing b with
  | nil => exact h
  | cons c log ih =>
    obtain ⟨hc, hrest⟩ := List.forall_mem_cons.mp hlog
    refine ih hrest ?_
    rcases hc with rfl | htry
    · simp only [RequestBudget.cancel]
      split_ifs
      · simp
      · exact h
    · exact RequestBudget.step_ofTry_terminal htry h

/-- A closing gives the reason of a budget that has none. -/
theorem after_close_terminal (b : RequestBudget) (log : List Call) {reason : TerminalReason}
    (hsuccess : reason ≠ .success) (rest : List Call) :
    (b.after (log ++ .close reason :: rest)).terminal =
      some ((b.after log).terminal.getD reason) := by
  rw [RequestBudget.after_append, RequestBudget.after_cons]
  refine RequestBudget.terminal_runs ?_ rest
  rw [RequestBudget.step, RequestBudget.close, if_neg hsuccess]

theorem after_close_reserved (b : RequestBudget) (log : List Call) (reason : TerminalReason)
    {rest : List Call} (hrest : ∀ c ∈ rest, c = .cancel) :
    (b.after (log ++ .close reason :: rest)).reserved = (b.after log).reserved := by
  rw [RequestBudget.after_append, RequestBudget.after_cons, after_cancels_reserved hrest,
    RequestBudget.step, RequestBudget.close]
  split_ifs <;> rfl

/-- A try that found the budget as it was asked for an attempt that the clock could not date. -/
theorem OfTry.reserve_of_undated {timeout : Binary64} {c : Call} (h : OfTry S timeout c)
    (hundated : c.undated = true) : ∃ now, c = .reserve timeout now := by
  cases h with
  | reserve tick => exact ⟨_, rfl⟩
  | noteOutcome attempt outcome => exact absurd hundated (by simp [RequestBudget.Call.undated])
  | allowBackoff delay now => exact absurd hundated (by simp [RequestBudget.Call.undated])

/-- After the tries of a call and cancellations, a new budget has no reason and granted no
attempt exactly when the clock dated none of the questions for one, and nobody cancelled. -/
theorem Tried.as_new_iff (hcancels : S.OnlyCancels) {limits : BudgetLimits} {timeout : Binary64}
    (htimeout : RequestBudget.validateCallerTimeout timeout = .ok timeout) {s : CallState}
    (hb : s.budget = some (.ofLimits limits)) {work pre : List Call} (h : Tried S timeout s work)
    (hpre : ∀ c ∈ pre, c = .cancel) :
    ((RequestBudget.ofLimits limits).after (work ++ pre)).terminal = none ∧
        ((RequestBudget.ofLimits limits).after (work ++ pre)).reserved = 0 ↔
      ∀ c ∈ work ++ pre, c.undated = true := by
  constructor
  · rintro ⟨hterm, hzero⟩
    refine (RequestBudget.as_new_iff htimeout fun c hc => ?_).mp ⟨hterm, hzero⟩
    rcases List.mem_append.mp hc with hc | hc
    · -- without a granted attempt the tries only asked for one
      have hle := ((RequestBudget.ofLimits limits).after work).reserved_le_after pre
      rw [← RequestBudget.after_append, hzero] at hle
      rcases h.unsent _ hb (Nat.le_zero.mp hle) c hc with ⟨tick, hother⟩ | ⟨tick, rfl⟩
      · exact .inl (hcancels tick c hother)
      · exact .inr ⟨_, rfl⟩
    · exact .inl (hpre c hc)
  · intro hundated
    refine (RequestBudget.as_new_iff htimeout fun c hc => ?_).mpr hundated
    rcases List.mem_append.mp hc with hwork | hpost
    · rcases h.fromTries c hwork with ⟨tick, hother⟩ | htry
      · exact .inl (hcancels tick c hother)
      · exact .inr (htry.reserve_of_undated (hundated c hc))
    · exact .inl (hpre c hpost)

/-- **The end that is put down to policy.**  A call on a new budget that others only cancel
ends with the reason of policy exactly when every row has a text that the closing takes for
policy, and the budget was untouched until then.  No attempt was granted in such a call. -/
theorem Closed.policyBlocked_iff (hcancels : S.OnlyCancels) {limits : BudgetLimits}
    {timeout : Binary64} (htimeout : RequestBudget.validateCallerTimeout timeout = .ok timeout)
    {s s' : CallState} (hb : s.budget = some (.ofLimits limits)) {log : List Call}
    {reason : Option TerminalReason} (h : Closed S timeout s log (reason, s')) :
    (reason = some .policyBlocked ↔ Untouched log ∧ s'.attempts ≠ [] ∧
        ∀ a ∈ s'.attempts, Str.startsWith (a.error.getD []) (lit "pricing/") = true) ∧
      (reason = some .policyBlocked →
      ((RequestBudget.ofLimits limits).after log).reserved = 0) := by
  obtain ⟨-, hreason, hset⟩ := h.reason hcancels hb
  rw [hreason]
  obtain ⟨t, work, hwork, htried, rfl, hclose⟩ := h
  have hcancel : ∀ {c : Call}, (∃ tick, c ∈ S.others tick) → c = .cancel :=
    fun ⟨tick, hc⟩ => hcancels tick _ hc
  have hbt : t.budget = some ((RequestBudget.ofLimits limits).after work) := by
    rw [hwork, hb]
    rfl
  have hattempts : t.attempts = s'.attempts := by
    rw [← closeWalk_attempts S t, hclose]
  have hquiet : ∀ {pre : List Call}, (∀ c ∈ pre, c = .cancel) →
      ∀ c ∈ work ++ pre, c = .cancel ∨ OfTry S timeout c := fun hpre =>
    List.forall_mem_append.mpr ⟨fun c hc => (htried.fromTries c hc).imp_left hcancel,
      fun c hc => .inl (hpre c hc)⟩
  have hends : ∀ {pre : List Call}, (∀ c ∈ pre, c = .cancel) →
      ∀ c ∈ work ++ pre, c.ends = false := by
    intro pre hpre c hc
    rcases hquiet hpre c hc with rfl | htry
    · rfl
    · exact htry.ends
  obtain ⟨-, -, -, -, hshape⟩ := closeWalk_cases (S := S) hbt
  rcases hshape with hothers | ⟨before, pre, rest, heq, hbefore, hpre, hrest⟩
  · -- a try or a cancellation gave the reason
    have hothers : ∀ c ∈ closeLog S t, c = .cancel := fun c hc => hcancel (hothers c hc)
    have hother := after_quiet_terminal (hquiet hothers)
      (b := .ofLimits limits) (by simp [RequestBudget.ofLimits])
    refine ⟨iff_of_false hother ?_, fun hpolicy => absurd hpolicy hother⟩
    rintro ⟨huntouched, -⟩
    rw [Untouched, beforeClose_of_quiet (hends hothers)] at huntouched
    exact hset ((htried.as_new_iff hcancels htimeout hb hothers).mpr huntouched).1
  · -- the call closed the budget, and the first reason stands
    have hpre : ∀ c ∈ pre, c = .cancel := fun c hc => hcancel (hpre c hc)
    have hrest : ∀ c ∈ rest, c = .cancel := fun c hc => hcancel (hrest c hc)
    have hcount : (((RequestBudget.ofLimits limits).after work).after before).reserved =
        ((RequestBudget.ofLimits limits).after (work ++ pre)).reserved := by
      rw [RequestBudget.after_append, after_cancels_reserved hpre,
        after_cancels_reserved fun c hc => hpre c (hbefore.subset hc)]
    have hopen := after_quiet_terminal (hquiet hpre)
      (b := .ofLimits limits) (by simp [RequestBudget.ofLimits])
    have hnew := htried.as_new_iff hcancels htimeout hb hpre
    rw [hattempts, hcount] at heq
    rw [heq, ← List.append_assoc, Untouched, beforeClose_append (hends hpre), ← hnew,
      after_close_terminal _ _ (closedReason_ne _ _).1, after_close_reserved _ _ _ hrest]
    generalize (RequestBudget.ofLimits limits).after (work ++ pre) = b at hopen
    cases hterm : b.terminal with
    | some r =>
      rw [hterm] at hopen
      exact ⟨iff_of_false hopen fun h => absurd h.1.1 (by simp), fun h => absurd h hopen⟩
    | none =>
      rw [Option.getD_none, Option.some_inj, closedReason_eq_policyBlocked]
      exact ⟨⟨fun ⟨hzero, hrows⟩ => ⟨⟨rfl, hzero⟩, hrows⟩, fun h => ⟨h.1.2, h.2⟩⟩, And.left⟩

end

/-! ### Whole calls -/

theorem chat_skips (S : Surroundings) (cfg : RouterConfig) (req : ChatRequest) {s : ChatState}
    (h : SkipsAre ChatSkip s.attempts) :
    SkipsAre ChatSkip (chat S cfg req s).2.attempts := by
  rw [chat]
  cases chatRefusal req s.budget with
  | some e => exact h
  | none =>
    have hwalk := ChatState.walk_skips S cfg req (chatRoutes cfg req).1 (chatRoutes cfg req).2 h
    dsimp only
    revert hwalk
    generalize s.walk S cfg req (chatRoutes cfg req).1 (chatRoutes cfg req).2 = v
    obtain ⟨_ | _ | response | _, t⟩ := v
    · exact SkipsAre.closeWalk S
    · exact SkipsAre.closeWalk S
    · exact id
    · exact id

theorem embed_skips (S : Surroundings) (cfg : EmbedConfig) (req : EmbedRequest) {s : EmbedState}
    (h : SkipsAre EmbedSkip s.attempts) :
    SkipsAre EmbedSkip (embed S cfg req s).2.attempts := by
  rcases embed_cases S cfg req s with ⟨e, heq⟩ | ⟨prep, slots, c, _, _, hsame, _, heq⟩
  · rw [heq]
    exact h
  · have hwalk := EmbedState.walk_skips S cfg req prep slots (s := { s with toCallState := c })
      (hsame.attempts.symm ▸ h)
    rw [heq]
    revert hwalk
    generalize EmbedState.walk S cfg req prep slots { s with toCallState := c } = v
    obtain ⟨_ | _ | a | a | e | _, t⟩ := v
    · exact SkipsAre.closeWalk S
    · exact SkipsAre.closeWalk S
    · exact id
    · exact id
    · exact id
    · exact id

theorem unsent_start (tick : ℕ) (b : RequestBudget) : Unsent (.start tick b) :=
  fun _ _ _ => ⟨fun _ h => (nomatch h), rfl⟩

/-- A call that raises `RouterError` shows its rows, and dispatched nothing before an attempt
was granted. -/
theorem chat_unsent {S : Surroundings} {cfg : RouterConfig} {req : ChatRequest}
    {s s' : ChatState} (hs : Unsent s.toCallState) {message : Str} {rows : List Attempt}
    {reason : Option TerminalReason}
    (h : chat S cfg req s = (.routerError message rows reason, s')) :
    rows = s'.attempts ∧ Unsent s'.toCallState := by
  have hends := ChatState.TryRule.chat (fun _ => unsent_chat_rule S cfg req) hs
  rw [h] at hends
  obtain ⟨hrows, before, -, hunsent⟩ := hends
  exact ⟨hrows, hunsent⟩

theorem embed_unsent {S : Surroundings} {cfg : EmbedConfig} {req : EmbedRequest}
    {s s' : EmbedState} (hs : Unsent s.toCallState) {message : Str} {rows : List Attempt}
    {reason : Option TerminalReason}
    (h : embed S cfg req s = (.routerError message rows reason, s')) :
    rows = s'.attempts ∧ Unsent s'.toCallState := by
  rcases embed_cases S cfg req s with ⟨e, heq⟩ | ⟨prep, slots, c, _, _, hsame, _, heq⟩
  · rw [heq] at h
    cases (Prod.mk.inj h).1
  · have hwalk := (unsent_embed_rule S cfg req prep c.tick).walk slots
      (s := { s with toCallState := c }) ⟨Nat.le_refl _, (quiet_unsent S).same hsame hs⟩
    rw [heq] at h
    -- the walk stops, before a route or after the last one, and the closing adds no row
    revert h hwalk
    generalize EmbedState.walk S cfg req prep slots { s with toCallState := c } = v
    obtain ⟨_ | _ | a | a | e | _, t⟩ := v
    · rintro h ⟨before, -, -, hunsent⟩
      obtain ⟨hend, rfl⟩ := Prod.mk.inj h
      exact ⟨(EmbedEnd.routerError.inj hend).2.1.symm, (quiet_unsent S).closeWalk hunsent⟩
    · rintro h ⟨before, -, -, hunsent⟩
      obtain ⟨hend, rfl⟩ := Prod.mk.inj h
      exact ⟨(EmbedEnd.routerError.inj hend).2.1.symm, (quiet_unsent S).closeWalk hunsent⟩
    · exact fun h => nomatch (Prod.mk.inj h).1
    · exact fun h => nomatch (Prod.mk.inj h).1
    · exact fun h => nomatch (Prod.mk.inj h).1
    · exact fun h => nomatch (Prod.mk.inj h).1

/-- A timeout is taken as it is or refused with a `ValueError`. -/
theorem validateCallerTimeout_cases (timeout : Binary64) :
    RequestBudget.validateCallerTimeout timeout = .ok timeout ∨
      ∃ message, RequestBudget.validateCallerTimeout timeout = .error (.valueError message) := by
  rw [RequestBudget.validateCallerTimeout]
  split_ifs
  · exact .inr ⟨_, rfl⟩
  · exact .inr ⟨_, rfl⟩
  · exact .inl rfl

/-- A budgeted call that raises `RouterError` has a timeout that its budget takes. -/
theorem chat_validTimeout {S : Surroundings} {cfg : RouterConfig} {req : ChatRequest}
    {s s' : ChatState} {b : RequestBudget} (hb : s.budget = some b) {message : Str}
    {rows : List Attempt} {reason : Option TerminalReason}
    (h : chat S cfg req s = (.routerError message rows reason, s')) :
    RequestBudget.validateCallerTimeout req.timeout = .ok req.timeout := by
  rcases validateCallerTimeout_cases req.timeout with hvalid | ⟨text, herror⟩
  · exact hvalid
  · have hrefusal : ∃ e, chatRefusal req s.budget = some e := by
      rw [hb, chatRefusal, herror]
      split_ifs
      · exact ⟨_, rfl⟩
      · exact ⟨_, rfl⟩
    obtain ⟨e, hrefusal⟩ := hrefusal
    rw [chat, hrefusal] at h
    cases (Prod.mk.inj h).1

theorem embed_validTimeout {S : Surroundings} {cfg : EmbedConfig} {req : EmbedRequest}
    {s s' : EmbedState} {b : RequestBudget} (hb : s.budget = some b) {message : Str}
    {rows : List Attempt} {reason : Option TerminalReason}
    (h : embed S cfg req s = (.routerError message rows reason, s')) :
    RequestBudget.validateCallerTimeout req.timeout = .ok req.timeout := by
  rcases validateCallerTimeout_cases req.timeout with hvalid | ⟨text, herror⟩
  · exact hvalid
  · have hrefusal : embedRefusal req s.budget = some (valueError text) := by
      rw [hb, embedRefusal, herror]
      rfl
    rw [embed, hrefusal] at h
    cases (Prod.mk.inj h).1

/-- A row of a call that was granted no attempt has the text of a skip. -/
theorem Unsent.skip {K : Str → Prop} {s : CallState} {b : RequestBudget} (hunsent : Unsent s)
    (hb : s.budget = some b) (hzero : b.reserved = 0) (hskips : SkipsAre K s.attempts)
    {a : Attempt} (ha : a ∈ s.attempts) : a.isSkip = true ∧ ∃ e, a.error = some e ∧ K e := by
  have hskip := (hunsent b hb hzero).1 a ha
  exact ⟨hskip, hskips a ha hskip⟩

/-- The call made no dispatch, it has rows, and every one of them is a skip for policy: a grid
route, a paid one or cloud embeddings that pricing does not qualify. -/
structure Blocked (rows : List Attempt) (events : List Event) : Prop where
  unsent : posts events = []
  rows_ne_nil : rows ≠ []
  skips : ∀ a ∈ rows, a.isPolicySkip = true

/-- **Reporting policy.**  Take a call on a new budget that others only cancel, and let it raise
`RouterError`.

When policy blocked a call of `chat`, the error and the budget say so exactly if the budget was
untouched until its closing: the first reason stands, so a cancellation comes before policy, and
so does a deadline that refuses an attempt.  With a row that is no skip for policy neither of
them says so.

A call of `embed` never says so, also when policy blocked it: its rows do not start as the
closing expects. -/
theorem policy_blocked (S : Surroundings) (hcancels : S.OnlyCancels) (limits : BudgetLimits)
    (tick : ℕ) :
    (∀ (cfg : RouterConfig) (req : ChatRequest) (table : Cooldowns) message rows reason s',
      let s : ChatState := ⟨.start tick (.ofLimits limits), table⟩
      chat S cfg req s = (.routerError message rows reason, s') →
      ∃ b, s'.budget = some b ∧
        (Blocked rows s'.events →
          ((reason = some .policyBlocked ∧ b.terminal = some .policyBlocked) ↔
            Untouched (chatLog S cfg req s))) ∧
        ((∃ a ∈ rows, a.isPolicySkip = false) →
          reason ≠ some .policyBlocked ∧ b.terminal ≠ some .policyBlocked)) ∧
    ∀ (cfg : EmbedConfig) (req : EmbedRequest) (cache : Cache) (heap : List Json)
      (history : List CacheEvent) message rows reason s',
      embed S cfg req ⟨.start tick (.ofLimits limits), cache, heap, history⟩ =
        (.routerError message rows reason, s') →
      ∃ b, s'.budget = some b ∧
        reason ≠ some .policyBlocked ∧ b.terminal ≠ some .policyBlocked := by
  constructor
  · intro cfg req table message rows reason s' s h
    obtain ⟨rfl, hunsent⟩ := chat_unsent (unsent_start tick _) h
    have hends := chat_ends S cfg req h
    have hskips := chat_skips S cfg req (s := s) .nil
    have hb := chat_replays S cfg req s
    rw [h] at hskips hb
    obtain ⟨hiff, hzero⟩ := hends.policyBlocked_iff hcancels
      (chat_validTimeout (b := .ofLimits limits) rfl h) rfl
    refine ⟨_, hb, ?_⟩
    rw [← (hends.reason hcancels rfl).2.1, and_self, and_self]
    refine ⟨fun hblocked => hiff.trans (and_iff_left ⟨hblocked.rows_ne_nil, fun a ha => ?_⟩), ?_⟩
    · -- a skip for policy has a text that the closing takes for it
      have hskip := hblocked.skips a ha
      rw [Attempt.isPolicySkip, Bool.and_eq_true] at hskip
      obtain ⟨e, herror, hK⟩ := hskips a ha hskip.1
      rw [herror] at hskip ⊢
      exact hK.startsWith (by simpa using hskip.2)
    · -- no attempt was granted, so what the closing takes for policy is a skip for policy
      rintro ⟨a, ha, hother⟩ hpolicy
      have hstarts := (hiff.mp hpolicy).2.2 a ha
      obtain ⟨hskip, e, herror, hK⟩ := hunsent.skip hb (hzero hpolicy) hskips ha
      rw [herror] at hstarts
      rw [Attempt.isPolicySkip, hskip, herror] at hother
      exact absurd (hK.policy hstarts) (by simpa using hother)
  · intro cfg req cache heap history message rows reason s' h
    obtain ⟨-, hunsent⟩ := embed_unsent (unsent_start tick _) h
    have hends := embed_ends S cfg req h
    have hskips := embed_skips S cfg req
      (s := ⟨.start tick (.ofLimits limits), cache, heap, history⟩) .nil
    have hb := embed_replays S cfg req
      ⟨.start tick (.ofLimits limits), cache, heap, history⟩
    rw [h] at hskips hb
    obtain ⟨hiff, hzero⟩ := hends.policyBlocked_iff hcancels
      (embed_validTimeout (b := .ofLimits limits) rfl h) rfl
    refine ⟨_, hb, ?_⟩
    rw [← (hends.reason hcancels rfl).2.1, and_self]
    intro hpolicy
    obtain ⟨-, hne, hstarts⟩ := hiff.mp hpolicy
    obtain ⟨a, ha⟩ := List.exists_mem_of_ne_nil _ hne
    obtain ⟨-, e, herror, hK⟩ := hunsent.skip hb (hzero hpolicy) hskips ha
    have hstart := hstarts a ha
    rw [herror] at hstart
    exact absurd (hK.not_startsWith.symm.trans hstart) (by simp)

/-! ### A route that policy blocks -/

/-- The local worker and one cloud candidate have what they need. -/
def blockedEnv : Env := fun name =>
  if name = lit "GROQ_API_KEY" then some (lit "key") else localEnv name

def blockedChat (model : Str) : ChatRequest where
  model := model
  messages := .arr []
  timeout := 5

/-- A cloud candidate before the local worker. -/
def cloudFirst : RouterConfig :=
  { localRouter with
    registry :=
      { registry with
        modelRoutes := [(DEFAULT_MODEL, [route "groq" "m", route "local_ollama" "m"])]
        default_known := by decide } }

theorem policy_blocked_groq :
    let S := Surroundings.still blockedEnv busyReply
    let limits := twoAttemptsBy 10 (by decide +kernel)
    let r := chat S localRouter (blockedChat (lit "groq:m"))
      ⟨.start 0 (.ofLimits limits), fun _ => none⟩
    Blocked r.2.attempts r.2.events ∧ r.1.reason? = some (some .policyBlocked) ∧
      r.2.budget.map (·.terminal) = some (some .policyBlocked) := by
  intro S limits r
  have hblocked : Blocked r.2.attempts r.2.events :=
    ⟨by decide +kernel, by decide +kernel, by decide +kernel⟩
  have hsome : r.1.reason?.isSome = true := by decide +kernel
  obtain ⟨reason, hreason⟩ := Option.isSome_iff_exists.mp hsome
  obtain ⟨message, rows, hend⟩ := CallEnd.reason?_eq_some hreason
  have hcall : chat S localRouter (blockedChat (lit "groq:m"))
      ⟨.start 0 (.ofLimits limits), fun _ => none⟩ = (.routerError message rows reason, r.2) :=
    Prod.ext hend rfl
  obtain ⟨rfl, -⟩ := chat_unsent (unsent_start 0 _) hcall
  have hcancels : S.OnlyCancels := fun _ c hc => absurd hc (by simp [S, Surroundings.still])
  obtain ⟨b, hb, hpolicy, -⟩ := (policy_blocked S hcancels limits 0).1 localRouter
    (blockedChat (lit "groq:m")) (fun _ => none) message _ reason r.2 hcall
  obtain ⟨hsaid, hterm⟩ := (hpolicy hblocked).mpr (by decide +kernel)
  exact ⟨hblocked, hreason.trans (congrArg some hsaid), by rw [hb, Option.map_some, hterm]⟩

/-- The terminal reason of a `RouterError` of `embed`. -/
def EmbedEnd.reason? : EmbedEnd → Option (Option TerminalReason)
  | .routerError _ _ reason => some reason
  | _ => none

/-- The deadline has passed when the walk comes to the local worker: the only row is a skip
for policy, nothing was dispatched, and the call reports the deadline.  An embeddings call
whose only route policy skips reports that no provider was available. -/
theorem policy_blocked_not :
    let S := Surroundings.still blockedEnv busyReply
    let r := chat S cloudFirst (blockedChat DEFAULT_MODEL)
      ⟨.start 0 (.ofLimits (twoAttemptsBy 0 (by decide +kernel))), fun _ => none⟩
    let q := embed S localCache { localEmbed with model := lit "groq:m" }
      ⟨.start 0 (.ofLimits (twoAttemptsBy 10 (by decide +kernel))), [], [], []⟩
    (r.2.attempts ≠ [] ∧ (∀ a ∈ r.2.attempts, a.isPolicySkip = true) ∧ posts r.2.events = [] ∧
      r.2.budget.map (·.reserved) = some 0 ∧
      r.1.reason? = some (some .deadlineExhausted)) ∧
    q.2.attempts ≠ [] ∧ (∀ a ∈ q.2.attempts, a.isPolicySkip = true) ∧ posts q.2.events = [] ∧
      q.2.budget.map (·.reserved) = some 0 ∧
      q.1.reason? = some (some .providerUnavailable) := by
  decide +kernel

end SzlRouter
