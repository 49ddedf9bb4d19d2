/-
A budgeted call and its account.

A call that is the only user of its budget keeps an account: the dispatches it
made, each with the reservation before it.  The account agrees with the events,
with the counter of the budget and with the rows of the attempt trail, after any
mix of skips, retries, failures and bad bodies.

* `postWithRetry_accounted` — the retries keep the account;
* `accounted_tryRoute` — so does the try of a route;
* `budgeted_calls` — so do whole calls of `chat` and `embed`, and the trail they
  show has the rows of the account.
-/
import SzlRouter.Chat
import SzlRouter.Embed

open Py

namespace SzlRouter

/-- No one else uses the budget. Others that do would take attempts that the trail of this call
has no rows for. -/
def Surroundings.OnlyUser (S : Surroundings) : Prop := ∀ tick, S.others tick = []

/-- Every reading of the budget clock is finite. A budget that is asked at any other reading
raises instead of taking a decision. -/
def Surroundings.FiniteClock (S : Surroundings) : Prop := ∀ tick, (S.clock tick).isFinite = true

/-- A dispatch: the reservation and the post. -/
abbrev Dispatched := Grant × Post

/-- The events of dispatches, each reservation right before its post. -/
def dispatchEvents (ds : List Dispatched) : List Event :=
  ds.flatMap fun d => [.reserved d.1, .post d.2]

/-- The rows that were written for a dispatch. -/
def dispatchRows (rows : List Attempt) : List Attempt := rows.filter fun a => !a.isSkip

/-- A dispatch that a budget with this deadline may grant for the caller's timeout. -/
structure Lawful (timeout deadline : Binary64) (d : Dispatched) : Prop where
  timeout_eq : d.2.timeout = d.1.sendTimeout
  open_ : d.1.terminal = none
  in_time : d.1.now < deadline
  pos : 0 < d.1.sendTimeout
  le_caller : d.1.sendTimeout ≤ timeout
  le_remain : d.1.sendTimeout ≤ deadline.sub d.1.now

/-- The dispatches `ds` account for the events, the rows and the budget `b` of a call
that started with the budget `b₀`. -/
structure Account (timeout : Binary64) (b₀ b : RequestBudget) (s : CallState)
    (ds : List Dispatched) : Prop where
  limits : b.toBudgetLimits = b₀.toBudgetLimits
  events : s.events.filter Event.isDispatch = dispatchEvents ds
  numbers : ds.map (·.1.attempt) = List.range' (b₀.reserved + 1) ds.length
  reserved : b.reserved = b₀.reserved + ds.length
  rows : (dispatchRows s.attempts).map Attempt.label = ds.map (·.2.label)
  lawful : ∀ d ∈ ds, Lawful timeout b₀.deadline d
  within : ds ≠ [] → b.reserved ≤ b.maxAttempts

/-- A call whose budget has an account: the list of its dispatches, from which its events, the
counter of the budget and the rows that are no skips can all be written down. -/
def Accounted (timeout : Binary64) (b₀ : RequestBudget) (s : CallState) : Prop :=
  ∃ b ds, s.budget = some b ∧ Account timeout b₀ b s ds

section

variable {timeout : Binary64} {b₀ b b' : RequestBudget} {s s' : CallState}
  {ds : List Dispatched}

/-- What leaves the counter, the events and the labels of the rows alone keeps the
account. -/
theorem Account.of_eq (h : Account timeout b₀ b s ds)
    (hlimits : b'.toBudgetLimits = b.toBudgetLimits)
    (hreserved : b'.reserved = b.reserved)
    (hevents : s'.events.filter Event.isDispatch = s.events.filter Event.isDispatch)
    (hrows : (dispatchRows s'.attempts).map Attempt.label =
      (dispatchRows s.attempts).map Attempt.label) : Account timeout b₀ b' s' ds where
  limits := hlimits.trans h.limits
  events := hevents.trans h.events
  numbers := h.numbers
  reserved := hreserved.trans h.reserved
  rows := hrows.trans h.rows
  lawful := h.lawful
  within := fun hne => by
    rw [hreserved, hlimits]
    exact h.within hne

/-! ### One dispatch -/

theorem dispatchRows_append (rows rows' : List Attempt) :
    dispatchRows (rows ++ rows') = dispatchRows rows ++ dispatchRows rows' :=
  List.filter_append ..

theorem setOutcome_of_mem {attempt : ℕ} {outcome : Outcome} {rows : List DispatchRow}
    (h : ∃ row ∈ rows, row.attempt = attempt) :
    ∃ rows', RequestBudget.setOutcome attempt outcome rows = some rows' := by
  induction rows with
  | nil => simp at h
  | cons row rows ih =>
    rw [RequestBudget.setOutcome]
    split_ifs with hrow
    · exact ⟨_, rfl⟩
    · obtain ⟨row', hmem, hattempt⟩ := h
      rcases List.mem_cons.mp hmem with rfl | hmem
      · exact absurd (by rw [hattempt]) hrow
      · obtain ⟨rows', hrows'⟩ := ih ⟨row', hmem, hattempt⟩
        exact ⟨row :: rows', by rw [hrows', Option.map_some]⟩

theorem budgetAt_of_onlyUser {S : Surroundings} (h : S.OnlyUser) (b : RequestBudget)
    (tick : ℕ) : S.budgetAt b tick = b := by
  rw [Surroundings.budgetAt, h tick, Transition.runs_nil]

theorem readClock_of_finite {S : Surroundings} (h : S.FiniteClock) (s : CallState) :
    S.readClock s = (.ok (S.clock s.tick), s.next) := by
  rw [Surroundings.readClock, if_pos (h s.tick)]

/-- The outcome of the attempt that was just reserved can be noted. -/
theorem noteOutcome_commit (b : RequestBudget) (t : Binary64) (outcome : Outcome) :
    ∃ b', (b.commit t).1.noteOutcome (b.reserved + 1 : ℕ) outcome = (b', .ok ()) ∧
      b'.toBudgetLimits = b.toBudgetLimits ∧ b'.reserved = b.reserved + 1 := by
  obtain ⟨rows, hrows⟩ := @setOutcome_of_mem (b.reserved + 1) outcome (b.commit t).1.dispatches
    ⟨⟨b.reserved + 1, .unknown⟩, by simp [RequestBudget.commit], rfl⟩
  rw [RequestBudget.noteOutcome, if_neg (by omega), hrows]
  exact ⟨_, rfl, rfl, rfl⟩

/-- A dispatch whose outcome can be noted posts once and writes one row. -/
theorem dispatch_of_noted {S : Surroundings} (hclock : S.FiniteClock) {poster : Poster}
    {provider : Provider} {payload : Dict} {attempt : ℕ} {t : Binary64}
    (hnote : ∀ tick outcome, ∃ b', (S.budgetAt b tick).noteOutcome attempt outcome = (b', .ok ()) ∧
      b'.toBudgetLimits = b.toBudgetLimits ∧ b'.reserved = b.reserved) :
    ∃ reply post row b' s', dispatch S poster provider payload attempt t b s =
        (.ok (Reply.turn reply), b', s') ∧
      b'.toBudgetLimits = b.toBudgetLimits ∧ b'.reserved = b.reserved ∧
      s'.events = s.events ++ [.post post] ∧ s'.attempts = s.attempts ++ [row] ∧
      post.timeout = t ∧ row.isSkip = false ∧ row.label = post.label := by
  simp only [dispatch, readClock_of_finite hclock, Surroundings.send]
  generalize poster.request provider _ payload = request
  generalize (if request.isSome then _ else _) = reply
  rw [noteReply]
  obtain ⟨b', heq, hlimits, hreserved⟩ := hnote (s.next.log
    (.post ⟨provider, payload, t, request, reply⟩)).tick reply.outcome
  rw [heq]
  simp only [readClock_of_finite hclock]
  exact ⟨reply, ⟨provider, payload, t, request, reply⟩, transportAttempt provider payload reply _,
    b', _, rfl, hlimits, hreserved, rfl, rfl, rfl, transportAttempt_isSkip _ _ _ _,
    transportAttempt_label _ _ _ _⟩

/-- A turn of the loop makes one dispatch and writes its row. -/
theorem Account.turn {S : Surroundings} (honly : S.OnlyUser) (hclock : S.FiniteClock)
    (poster : Poster) (provider : Provider) (payload : Dict) {t : Binary64}
    (h : Account timeout b₀ b s ds) (hgranted : b.Granted timeout (S.clock s.tick) t) :
    ∃ reply b' s' d row, SzlRouter.turn S poster provider payload b s t =
        (.ok (Reply.turn reply), b', s') ∧
      s'.attempts = s.attempts ++ [row] ∧ row.isSkip = false ∧
      Account timeout b₀ b' s' (ds ++ [d]) := by
  rw [SzlRouter.turn, budgetAt_of_onlyUser honly]
  -- the outcome of a reserved attempt can be noted, and changes neither limits nor count
  have hnote : ∀ tick outcome, ∃ b',
      (S.budgetAt (b.commit t).1 tick).noteOutcome (b.reserved + 1 : ℕ) outcome = (b', .ok ()) ∧
      b'.toBudgetLimits = (b.commit t).1.toBudgetLimits ∧
        b'.reserved = (b.commit t).1.reserved := by
    intro tick outcome
    rw [budgetAt_of_onlyUser honly]
    exact noteOutcome_commit b t outcome
  obtain ⟨reply, post, row, b', s', heq, hlimits, hreserved, hevents, hattempts, htimeout, hskip,
    hlabel⟩ := dispatch_of_noted hclock hnote
  refine ⟨reply, b', s', (⟨b.reserved + 1, b.terminal, S.clock s.tick, t⟩, post), row, heq,
    hattempts, hskip, ?_⟩
  have hdeadline : b.deadline = b₀.deadline := congrArg BudgetLimits.deadline h.limits
  -- the dispatch is added to the account: its events, its number, the count, its row, and the law
  -- that its reservation obeyed
  refine ⟨hlimits.trans h.limits, ?_, ?_, ?_, ?_, ?_, fun _ => ?_⟩
  · rw [hevents, List.filter_append, CallState.log]
    simp only [List.filter_append, h.events, dispatchEvents, List.flatMap_append,
      List.append_assoc]
    rfl
  · rw [List.map_append, h.numbers, List.length_append, List.length_singleton,
      List.range'_1_concat, h.reserved]
    simp only [List.map_cons, List.map_nil]
    rw [Nat.add_right_comm]
  · rw [hreserved, List.length_append, List.length_singleton, ← Nat.add_assoc, ← h.reserved]
    rfl
  · rw [hattempts, dispatchRows_append, List.map_append, List.map_append, CallState.log, h.rows,
      dispatchRows, List.filter_cons_of_pos (by simp [hskip])]
    simp [hlabel]
  · intro d hd
    rcases List.mem_append.mp hd with hd | hd
    · exact h.lawful d hd
    · obtain rfl := List.mem_singleton.mp hd
      exact ⟨htimeout, hgranted.open_, hdeadline ▸ hgranted.in_time, hgranted.pos,
        hgranted.le_caller, hdeadline ▸ hgranted.le_remain⟩
  · rw [hreserved, hlimits]
    exact hgranted.below

/-- The wait between two dispatches keeps the account. -/
theorem Account.backoff {S : Surroundings} (honly : S.OnlyUser) (cfg : RetryConfig) (n : ℕ)
    (e : Failure) (h : Account timeout b₀ b s ds) :
    Account timeout b₀ (backoff S cfg n e b s).2.1 (backoff S cfg n e b s).2.2 ds := by
  rw [SzlRouter.backoff, budgetAt_of_onlyUser honly]
  cases backoffSleepSeconds cfg (n - 1) (S.uniform s.tick) with
  | error e' => exact h
  | ok delay =>
    obtain ⟨reason, r, _, heq⟩ := b.allowBackoff_cases delay (S.clock s.tick)
    dsimp only
    rw [heq]
    rcases r with _ | _ | _
    · exact h.of_eq rfl rfl rfl rfl
    · exact h.of_eq rfl rfl rfl rfl
    · refine h.of_eq rfl rfl ?_ rfl
      simp only [CallState.log, CallState.next, List.filter_append]
      exact List.append_nil _

/-- The last row is the one of the last dispatch. -/
def EndsDispatched (s : CallState) : Prop :=
  ∃ rows row, s.attempts = rows ++ [row] ∧ row.isSkip = false

/-- The retries keep the account, and the row of a result is the last one. Each turn of the loop
reserves an attempt, dispatches it and writes its row, or ends before it reserves. -/
theorem postWithRetry_accounted {S : Surroundings} (honly : S.OnlyUser)
    (hclock : S.FiniteClock) (cfg : RetryConfig) (poster : Poster) (provider : Provider)
    (payload : Dict) (h : Accounted timeout b₀ s) :
    match postWithRetry S cfg poster provider payload timeout s with
    | (.ok _, s') => Accounted timeout b₀ s' ∧ EndsDispatched s'
    | (.error _, s') => Accounted timeout b₀ s' := by
  obtain ⟨b, ds, hb, hds⟩ := h
  -- the account is the invariant of the loop, and a result comes right after a dispatch
  have hloop := budgetedLoop_invariant S cfg poster provider payload timeout
    (P := fun b s => ∃ ds, Account timeout b₀ b s ds)
    (R := fun _ b s => (∃ ds, Account timeout b₀ b s ds) ∧ EndsDispatched s)
    (fun b s reason ⟨ds, h⟩ => ⟨ds, by
      rw [budgetAt_of_onlyUser honly]
      exact h.of_eq rfl rfl rfl rfl⟩)
    (fun b s t ⟨ds, h⟩ hgranted => by
      rw [budgetAt_of_onlyUser honly] at hgranted
      obtain ⟨reply, b', s', d, row, heq, hrows, hskip, hds⟩ :=
        h.turn honly hclock poster provider payload hgranted
      rw [heq]
      rcases reply.turn with v | e | e
      · exact ⟨⟨_, hds⟩, _, row, hrows, hskip⟩
      · exact ⟨_, hds⟩
      · exact ⟨_, hds⟩)
    (fun n e b s ⟨ds, h⟩ => ⟨ds, h.backoff honly cfg n e⟩)
    budgetFuel none b s ⟨ds, hds⟩
  rw [postWithRetry, hb]
  dsimp only
  revert hloop
  rcases budgetedLoop S cfg poster provider payload timeout budgetFuel none b s with
    ⟨e | v, b', s'⟩
  · rintro ⟨ds', h'⟩
    exact ⟨b', ds', rfl, h'.of_eq rfl rfl rfl rfl⟩
  · rintro ⟨⟨ds', h'⟩, hends⟩
    exact ⟨⟨b', ds', rfl, h'.of_eq rfl rfl rfl rfl⟩, hends⟩

/-! ### Steps of a walk -/

/-- What reserves nothing keeps the account. -/
theorem quiet_accounted {S : Surroundings} (honly : S.OnlyUser) (timeout : Binary64)
    (b₀ : RequestBudget) : Quiet S (Accounted timeout b₀) where
  same := fun {s s'} hs ⟨b, ds, hb, hds⟩ => ⟨b, ds, hs.budget.trans hb,
    hds.of_eq rfl rfl (by rw [hs.events]) (by rw [hs.attempts])⟩
  skip := fun {s a} ha _ ⟨b, ds, hb, hds⟩ => by
    refine ⟨b, ds, hb, hds.of_eq rfl rfl rfl ?_⟩
    rw [CallState.row, dispatchRows_append, dispatchRows, dispatchRows,
      List.filter_cons_of_neg (by simp [ha]), List.filter_nil, List.append_nil]
  onBudget := fun {s α f} hf ⟨b, ds, hb, hds⟩ => by
    simp only [CallState.onBudget, hb, budgetAt_of_onlyUser honly]
    exact ⟨(f b).1, ds, rfl, hds.of_eq (hf b).1 (hf b).2 rfl rfl⟩

/-- A rewrite of the last row keeps the account, when that row was dispatched. -/
theorem Accounted.modifyLast (h : Accounted timeout b₀ s) (hends : EndsDispatched s)
    {f : Attempt → Attempt} (hlabel : ∀ a, (f a).label = a.label)
    (hskip : ∀ a, (f a).isSkip = false) :
    Accounted timeout b₀ { s with attempts := SzlRouter.modifyLast f s.attempts } := by
  obtain ⟨b, ds, hb, hds⟩ := h
  obtain ⟨rows, row, hrows, hrow⟩ := hends
  refine ⟨b, ds, hb, hds.of_eq rfl rfl rfl ?_⟩
  rw [hrows, modifyLast_append, dispatchRows_append, dispatchRows_append, List.map_append,
    List.map_append]
  congr 1
  rw [dispatchRows, dispatchRows, List.filter_cons_of_pos (by simp [hskip]),
    List.filter_cons_of_pos (by simp [hrow])]
  simp [hlabel]

/-- The try of a route keeps the account. A reply that the check refuses does not add a row under
a budget: the row of its dispatch is rewritten. -/
theorem accounted_tryRoute {S : Surroundings} (honly : S.OnlyUser) (hclock : S.FiniteClock)
    (cfg : RetryConfig) (poster : Poster) (route : Route) (provider : Provider) (payload : Dict)
    (check : Json → Option String) (h : Accounted timeout b₀ s) :
    Accounted timeout b₀ (tryRoute S cfg poster route provider payload timeout check s).2 := by
  have hquiet := quiet_accounted honly timeout b₀
  have hretry := postWithRetry_accounted honly hclock cfg poster provider payload
    (hquiet.same (.next s) h)
  -- a call with a budget writes no row of its own, but corrects the last one
  have hbudget : ∀ {s}, Accounted timeout b₀ s → s.budget.isNone = false := by
    rintro s ⟨b, ds, hb, _⟩
    rw [hb]
    rfl
  rw [tryRoute]
  revert hretry
  rcases postWithRetry S cfg poster provider payload timeout s.next with ⟨(_ | e | _) | result, s'⟩
  · exact id
  · intro hs'
    dsimp only
    rw [hbudget hs']
    exact hquiet.same (.next s') hs'
  · exact id
  · rintro ⟨hs', hlast⟩
    have hnext : Accounted timeout b₀ s'.next := hquiet.same (.next s') hs'
    dsimp only
    cases check result.val with
    | some detail =>
      dsimp only
      rw [rejectRow, hbudget hnext]
      exact hnext.modifyLast hlast (fun _ => rfl) fun _ => rfl
    | none =>
      dsimp only
      rw [acceptRow, hbudget hnext]
      exact hnext.modifyLast hlast (fun _ => rfl) fun _ => rfl

/-- The looks into the cache keep the account. -/
theorem accounted_cacheGet {S : Surroundings} (honly : S.OnlyUser) (cfg : EmbedConfig)
    (provider : Provider) (identity : Identity) (key : Str) {s : EmbedState}
    (h : Accounted timeout b₀ s.toCallState) :
    Accounted timeout b₀ (cacheGet S cfg provider identity key s).2.toCallState :=
  (quiet_accounted honly timeout b₀).same (cacheGet_same S cfg provider identity key s) h

end

/-! ### Whole calls -/

theorem accounted_serve {S : Surroundings} (honly : S.OnlyUser) (timeout : Binary64)
    (b₀ : RequestBudget) (routing : Option Json) (route : Route) (provider : Provider)
    (result : Dict) {s : ChatState} (h : Accounted timeout b₀ s.toCallState) :
    Accounted timeout b₀ (s.serve S routing route provider result).2.toCallState :=
  have hquiet := quiet_accounted honly timeout b₀
  hquiet.same (.next _) (hquiet.budgetFields {} (hquiet.markSuccess h))

theorem accounted_deliver {S : Surroundings} (honly : S.OnlyUser) {timeout : Binary64}
    {b₀ : RequestBudget} (cfg : EmbedConfig) (route : Route) (provider : Provider)
    (key : Option (Identity × Str)) (result : Dict) {s : EmbedState}
    (h : Accounted timeout b₀ s.toCallState) :
    Accounted timeout b₀ (s.deliver S cfg route provider key result).2.toCallState := by
  have hquiet := quiet_accounted honly timeout b₀
  have hserved : Accounted timeout b₀ (s.serve S route provider result).2.toCallState :=
    hquiet.budgetFields {} (hquiet.markSuccess h)
  exact hquiet.same (EmbedState.deliver_same S cfg route provider key result s) hserved

section

variable {S : Surroundings} (honly : S.OnlyUser) (hclock : S.FiniteClock)

include honly hclock

theorem accounted_chat_rule (cfg : RouterConfig) (req : ChatRequest) (b₀ : RequestBudget) :
    ChatState.TryRule S cfg req (fun _ => Accounted req.timeout b₀)
      (fun _ _ _ _ => Accounted req.timeout b₀) where
  quiet := fun _ => quiet_accounted honly req.timeout b₀
  pass := id
  tries := fun {seen route provider s} _ h => by
    have htry := accounted_tryRoute honly hclock cfg.retry .chat route provider
      (chatPayload req route.2) chatResponseError h
    revert htry
    dsimp only [ChatState.tryChat]
    generalize tryRoute S cfg.retry .chat route provider _ _ _ _ = r
    obtain ⟨_ | _ | _ | _ | _, c⟩ := r <;> exact id

theorem accounted_embed_rule (cfg : EmbedConfig) (req : EmbedRequest) (prep : Prepared)
    (start : ℕ) (b₀ : RequestBudget) :
    EmbedState.TryRule S cfg req prep start
      (fun _ _ s => start ≤ s.tick ∧ Accounted req.timeout b₀ s.toCallState)
      (fun _ _ _ _ s => Accounted req.timeout b₀ s.toCallState) where
  quiet := fun _ _ s => (quiet_later S start).and (quiet_accounted honly req.timeout b₀)
  later := And.left
  enter := id
  pass := id
  lookup := fun _ _ h => ⟨h.1.trans (cacheGet_same S cfg _ _ _ _).tick_le,
    accounted_cacheGet honly cfg _ _ _ h.2⟩
  -- a try keeps the account, and the clock only goes on
  tries := fun {seen route provider s} _ h => by
    have htry := accounted_tryRoute honly hclock cfg.retry .embeddings route provider
      (embedPayload prep route.2) (embeddingResponseError (embedPayload prep route.2)) h.2
    have htick := h.1.trans (tick_le_tryRoute S cfg.retry .embeddings route provider
      (embedPayload prep route.2) req.timeout
      (embeddingResponseError (embedPayload prep route.2)) s.toCallState)
    revert htry htick
    dsimp only [EmbedState.tryEmbed]
    generalize tryRoute S cfg.retry .embeddings route provider _ _ _ _ = r
    obtain ⟨_ | _ | _ | _ | _, c⟩ := r
    · exact fun htry htick => ⟨htick, htry⟩
    · exact fun htry htick => ⟨htick, htry⟩
    · exact fun htry htick => ⟨htick, htry⟩
    · exact fun htry _ => htry
    · exact fun htry htick => ⟨htick, htry⟩

end

/-- The attempt trail in the provenance of an answer. -/
def trailOf (answer : Json) : Option Json :=
  (answer.get (lit "x_szl_provenance")).bind fun prov => prov.get (lit "attempts")

/-- The rows of the lookup in an answer from the cache. -/
def lookupTrailOf (answer : Json) : Option Json :=
  (answer.get (lit "x_szl_cache")).bind fun block => block.get (lit "lookup_attempts")

/-- A JSON list of rows. -/
def rowsJson (rows : List Attempt) : Json := .arr (rows.map Attempt.toJson)

theorem trailOf_answer {result : Dict} {prov : Provenance} {route : Route} {provider : Provider}
    {env : Env} {rows : List Attempt} (h : prov.Names route provider env rows) :
    trailOf (.obj (Dict.set result (lit "x_szl_provenance") (.obj prov.toDict))) =
      some (rowsJson rows) := by
  have hget : Dict.get prov.toDict (lit "attempts") = some (rowsJson prov.attempts) := rfl
  rw [trailOf, Json.get, Dict.get_set_self, Option.bind_some, Json.get, hget, h.attempts_eq]

/-- The end of a chat call shows these rows; an exception that is no `RouterError` shows
none. -/
def CallEnd.Shows : CallEnd → List Attempt → Prop
  | .response body, rows => trailOf (.obj body) = some (rowsJson rows)
  | .routerError _ attempts _, rows => attempts = rows
  | .raised _, _ => True
  | .diverged, _ => False

/-- The end of an embeddings call shows these rows. -/
def EmbedEnd.Shows (s : EmbedState) : EmbedEnd → List Attempt → Prop
  | .fresh a, rows => trailOf (s.read a) = some (rowsJson rows)
  | .cached a, rows => lookupTrailOf (s.read a) = some (rowsJson rows)
  | .routerError _ attempts _, rows => attempts = rows
  | .raised _, _ => True
  | .diverged, _ => False

/-- The dispatches of a call are accounted for, and are no more than were left. -/
def Settled (timeout : Binary64) (b₀ : RequestBudget) (s : CallState) : Prop :=
  ∃ b ds, s.budget = some b ∧ Account timeout b₀ b s ds ∧
    ds.length ≤ b₀.maxAttempts - b₀.reserved

theorem Accounted.settled {timeout : Binary64} {b₀ : RequestBudget} {s : CallState}
    (h : Accounted timeout b₀ s) : Settled timeout b₀ s := by
  obtain ⟨b, ds, hb, hds⟩ := h
  refine ⟨b, ds, hb, hds, ?_⟩
  rcases ds.eq_nil_or_concat with rfl | ⟨ds', d, rfl⟩
  · exact Nat.zero_le _
  · have hwithin := hds.within (by simp)
    have hreserved := hds.reserved
    have hmax : b.maxAttempts = b₀.maxAttempts := congrArg BudgetLimits.maxAttempts hds.limits
    omega

/-- A call that starts with a budget and has done nothing. -/
def CallState.start (tick : ℕ) (b₀ : RequestBudget) : CallState := ⟨tick, some b₀, [], []⟩

theorem accounted_start (timeout : Binary64) (b₀ : RequestBudget) (tick : ℕ) :
    Accounted timeout b₀ (.start tick b₀) :=
  ⟨b₀, [], rfl, rfl, rfl, rfl, rfl, rfl, by simp, fun h => absurd rfl h⟩

section

variable {S : Surroundings} (honly : S.OnlyUser) (hclock : S.FiniteClock)

include honly hclock

theorem chat_settled (cfg : RouterConfig) (req : ChatRequest) (b₀ : RequestBudget) (s : ChatState)
    (h : Accounted req.timeout b₀ s.toCallState) :
    Settled req.timeout b₀ (chat S cfg req s).2.toCallState ∧
      (chat S cfg req s).1.Shows (chat S cfg req s).2.attempts := by
  have hends := ChatState.TryRule.chat
    (fun _ => accounted_chat_rule honly hclock cfg req b₀) h
  revert hends
  generalize chat S cfg req s = r
  obtain ⟨response | _ | _ | _, s'⟩ := r
  -- served: the provenance shows the rows as they are at the end
  · rintro ⟨before, route, _, provider, result, t, _, ht, heq⟩
    obtain ⟨prov, tick, t', hserve, hnames, hattempts, -⟩ :=
      t.serve_cases S (chatRoutes cfg req).1 route provider result
    have hquiet := quiet_accounted honly req.timeout b₀
    have ht' : Accounted req.timeout b₀ t'.toCallState := by
      have hserved := accounted_serve honly req.timeout b₀ (chatRoutes cfg req).1 route provider
        result ht
      rwa [hserve] at hserved
    obtain ⟨rfl, rfl⟩ := Prod.mk.inj (heq.trans hserve)
    refine ⟨ht'.settled, ?_⟩
    rw [CallEnd.Shows, hattempts]
    exact trailOf_answer hnames
  · rintro ⟨rfl, before, _, hP⟩
    exact ⟨hP.settled, rfl⟩
  · exact fun hP => ⟨Accounted.settled hP, trivial⟩
  · exact False.elim

theorem embed_settled (cfg : EmbedConfig) (req : EmbedRequest) (b₀ : RequestBudget)
    (s : EmbedState) (h : Accounted req.timeout b₀ s.toCallState) :
    Settled req.timeout b₀ (embed S cfg req s).2.toCallState ∧
      (embed S cfg req s).1.Shows (embed S cfg req s).2 (embed S cfg req s).2.attempts := by
  have hquiet := quiet_accounted honly req.timeout b₀
  rcases embed_cases S cfg req s with ⟨e, heq⟩ | ⟨prep, slots, c, _, _, hsame, _, heq⟩
  · rw [heq]
    exact ⟨h.settled, trivial⟩
  · rw [heq]
    have hends := (accounted_embed_rule honly hclock cfg req prep c.tick b₀).walk slots
      (s := { s with toCallState := c }) ⟨Nat.le_refl _, hquiet.same hsame h⟩
    revert hends
    generalize EmbedState.walk S cfg req prep slots { s with toCallState := c } = v
    obtain ⟨_ | _ | a | a | e | _, s'⟩ := v
    · exact fun ⟨_, _, _, hP⟩ => ⟨(hquiet.closeWalk hP).settled, rfl⟩
    · exact fun ⟨_, _, _, hP⟩ => ⟨(hquiet.closeWalk hP).settled, rfl⟩
    -- a fresh answer shows the rows of the call
    · rintro ⟨before, slot, _, provider, _, result, t, key, _, ht, _, hdeliver⟩
      obtain ⟨prov, tick, hread, hnames, hattempts, -⟩ := EmbedState.deliver_fresh hdeliver
      refine ⟨?_, ?_⟩
      · have hdelivered := accounted_deliver honly cfg slot.1 provider key result ht
        rw [← hdeliver] at hdelivered
        exact hdelivered.settled
      · dsimp only [embedFinish]
        rw [EmbedEnd.Shows, hread, hattempts]
        exact trailOf_answer hnames
    -- an answer from the cache shows those of its lookup
    · rintro ⟨before, slot, _, provider, _, identity, key, t, entry, out, _, _, ht, _, hhit, heq⟩
      obtain ⟨rfl, rfl⟩ := Prod.mk.inj heq
      have hget := accounted_cacheGet honly cfg provider identity key ht.2
      refine ⟨hget.settled, ?_⟩
      obtain ⟨origin, hblock⟩ := asCacheHit_block hhit
      refine (congrArg lookupTrailOf (read_alloc out _)).trans ?_
      rw [lookupTrailOf, hblock]
      rfl
    · rintro ⟨before, slot, _, ⟨_, hP⟩ | ⟨provider, _, result, t, key, _, ht, _, hdeliver⟩⟩
      · exact ⟨hP.settled, trivial⟩
      · have hdelivered := accounted_deliver honly cfg slot.1 provider key result ht
        rw [← hdeliver] at hdelivered
        exact ⟨hdelivered.settled, trivial⟩
    · exact False.elim

end

/-- A budgeted call that is the only user of its budget ends, and its dispatches, the
attempts it reserves and the rows of its trail that are no skip rows correspond in order. -/
theorem budgeted_calls (S : Surroundings) (honly : S.OnlyUser) (hclock : S.FiniteClock)
    (b₀ : RequestBudget) (tick : ℕ) :
    (∀ (cfg : RouterConfig) (req : ChatRequest) (table : Cooldowns),
      let r := chat S cfg req ⟨.start tick b₀, table⟩
      Settled req.timeout b₀ r.2.toCallState ∧ r.1.Shows r.2.attempts) ∧
    ∀ (cfg : EmbedConfig) (req : EmbedRequest) (cache : Cache) (heap : List Json)
      (history : List CacheEvent),
      let r := embed S cfg req ⟨.start tick b₀, cache, heap, history⟩
      Settled req.timeout b₀ r.2.toCallState ∧ r.1.Shows r.2 r.2.attempts :=
  ⟨fun cfg req _ => chat_settled honly hclock cfg req b₀ _ (accounted_start _ b₀ tick),
    fun cfg req _ _ _ =>
      embed_settled honly hclock cfg req b₀ _ (accounted_start _ b₀ tick)⟩

/-! ### Two attempts at a busy local worker -/

/-- Surroundings in which nothing changes: one environment, one reply, clocks at zero. -/
def Surroundings.still (env : Env) (reply : Reply) : Surroundings where
  env := fun _ => env
  reply := fun _ => reply
  clock := fun _ => 0
  time := fun _ => 0
  uniform := fun _ _ => 0
  sleepError := fun _ => none
  others := fun _ => []
  cooldowns := fun _ table => table

/-- The local worker is enabled. -/
def localEnv : Env := fun name =>
  if name = lit "SZL_LOCAL_OLLAMA_ENABLE" then some (lit "1") else none

def busyReply : Reply := .failed (.http 503 [] (lit "busy"))

/-- Two attempts, with a deadline that passes at this reading. -/
def twoAttemptsBy (deadline : Binary64) (h : deadline.isFinite = true) : BudgetLimits :=
  ⟨lit "request", lit "policy", 2, deadline, by decide, by decide, by decide, by decide, h⟩

theorem isFinite_ten : (10 : Binary64).isFinite = true := by decide +kernel

def twoAttempts : RequestBudget := .ofLimits (twoAttemptsBy 10 isFinite_ten)

def localRouter : RouterConfig := ⟨registry, ⟨3, 0, 0⟩, 0, 0, ⟨fun _ => [], id⟩⟩

def localChat : ChatRequest where
  model := lit "local_ollama:m"
  messages := .arr []
  timeout := 5

def localCache : EmbedConfig := ⟨registry, ⟨3, 0, 0⟩, 60, 4, []⟩

def localEmbed : EmbedRequest where
  model := lit "local_ollama:m"
  input := .str (lit "x")
  timeout := 5
  useCache := false

theorem budgeted_calls_busy :
    let S := Surroundings.still localEnv busyReply
    let r := chat S localRouter localChat ⟨.start 0 twoAttempts, fun _ => none⟩
    let q := embed S localCache localEmbed ⟨.start 0 twoAttempts, [], [], []⟩
    (posts r.2.events).length = 2 ∧ (posts q.2.events).length = 2 ∧
      (Settled 5 twoAttempts r.2.toCallState ∧ r.1.Shows r.2.attempts) ∧
      Settled 5 twoAttempts q.2.toCallState ∧ q.1.Shows q.2 q.2.attempts := by
  intro S r q
  have hzero : (0 : Binary64).isFinite = true := by decide +kernel
  have h := budgeted_calls S (fun _ => rfl) (fun _ => hzero) twoAttempts 0
  exact ⟨by decide +kernel, by decide +kernel, h.1 localRouter localChat (fun _ => none),
    h.2 localCache localEmbed [] [] []⟩

end SzlRouter
