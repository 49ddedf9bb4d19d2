/-
Whose budget the provenance of an answer of `embed` shows.

An answer of a dispatch shows the budget of its call, as the call last read it.  An
answer from the cache shows what was stored with it: the budget of the call that stored
it, which had a terminal reason by then, while a call that asks the cache has none yet.

* `deliver_shows` — an answer of a dispatch shows the budget of its call;
* `embed_ended` — a call stores no budget that is still open;
* `cached_shows_iff` — an answer from the cache;
* `budget_shown_iff` — both, for every answer of every run.
-/
import SzlRouter.EmbedMarking
import SzlRouter.BudgetLog

open Py Transition

namespace SzlRouter

/-- The members that tell of a budget, with its own values. -/
def RequestBudget.members (b : RequestBudget) : Dict :=
  [(lit "request_id", .str b.requestId), (lit "policy_revision", .str b.policyRevision),
    (lit "terminal_reason", optStr (b.terminal.map fun r => lit r.text)),
    (lit "attempt_ceiling", .int b.maxAttempts), (lit "attempts_reserved", .int b.reserved)]

/-- The value of a member of the budget; there is none without a budget. -/
def budgetMember (budget : Option RequestBudget) (key : Str) : Option Json :=
  budget.bind fun b => Dict.get b.members key

/-- The provenance shows this budget with its own values, or no budget when there is none. The
values are those of the request, the limits, the attempts and the terminal reason. -/
def ShowsBudget (budget : Option RequestBudget) (answer : Json) : Prop :=
  ∃ prov, answer.get (lit "x_szl_provenance") = some (.obj prov) ∧
    ∀ key ∈ budgetKeys, Dict.get prov key = budgetMember budget key

/-- A budget that has a terminal reason, if there is one. -/
def BudgetEnded (budget : Option RequestBudget) : Prop :=
  ∀ b, budget = some b → ∃ reason, b.terminal = some reason

/-! ### What a provenance has -/

/-- A provenance that tells of this budget, and of no more than an embeddings call does. -/
structure Provenance.Of (p : Provenance) (budget : Option RequestBudget) : Prop where
  requestId : p.requestId = budget.map (·.requestId)
  policyRevision : p.policyRevision = budget.map (·.policyRevision)
  terminalReason : p.terminalReason = budget.bind (·.terminal)
  attemptCeiling : p.attemptCeiling = budget.map (·.maxAttempts)
  attemptsReserved : p.attemptsReserved = budget.map (·.reserved)

/-- The members of the budget come after those of the answer. -/
theorem get_toDict {p : Provenance} (hrouting : p.routing = none) (hcost : p.cost = none)
    {key : Str} (hkey : key ∈ budgetKeys) :
    Dict.get p.toDict key = Dict.get p.budgetMembers key := by
  rw [Provenance.toDict, hrouting, hcost]
  simp only [budgetKeys, List.mem_cons, List.not_mem_nil, or_false] at hkey
  rcases hkey with rfl | rfl | rfl | rfl | rfl <;> rfl

theorem Provenance.Of.get {p : Provenance} {budget : Option RequestBudget} (h : p.Of budget)
    (hrouting : p.routing = none) (hcost : p.cost = none) {key : Str} (hkey : key ∈ budgetKeys) :
    Dict.get p.toDict key = budgetMember budget key := by
  rw [get_toDict hrouting hcost hkey, Provenance.budgetMembers, h.requestId, h.policyRevision,
    h.terminalReason, h.attemptCeiling, h.attemptsReserved]
  cases budget with
  | none => rfl
  | some b => rfl

/-! ### What a call reads of its budget -/

section

variable (S : Surroundings)

/-- A terminal reason that is set stays, whoever else uses the budget. -/
theorem terminal_budgetAt {b : RequestBudget} {reason : TerminalReason}
    (h : b.terminal = some reason) (tick : ℕ) :
    (S.budgetAt b tick).terminal = some reason :=
  RequestBudget.terminal_runs h (S.others tick)

/-- `mark_success` leaves no budget open. -/
theorem ended_markSuccess (s : CallState) : BudgetEnded (s.markSuccess S).budget := by
  intro b h
  rw [CallState.markSuccess, CallState.onBudget] at h
  cases hb : s.budget with
  | none =>
    rw [hb] at h
    exact absurd (hb.symm.trans h) (by simp)
  | some b' =>
    rw [hb] at h
    obtain rfl := Option.some.inj h
    exact ⟨_, rfl⟩

/-- What `_budget_fields` reads of a settled budget is what the budget has afterwards: the
limits and the terminal reason never change, and the count is read last. -/
theorem budgetFields_of (p : Provenance) {s : CallState} (hended : BudgetEnded s.budget) :
    (s.budgetFields S p).1.Of (s.budgetFields S p).2.budget ∧
      BudgetEnded (s.budgetFields S p).2.budget := by
  simp only [CallState.budgetFields, CallState.readTerminal, CallState.readReserved]
  cases hb : s.budget with
  | none =>
    simp only [CallState.onBudget, hb]
    exact ⟨⟨rfl, rfl, rfl, rfl, rfl⟩, fun b h => by cases h⟩
  | some b =>
    obtain ⟨reason, hreason⟩ := hended b hb
    -- the reason is read twice, and is the same both times as it stands
    have hread := terminal_budgetAt S hreason s.tick
    have hlater := terminal_budgetAt S hread s.next.tick
    have hlimits : (S.budgetAt (S.budgetAt b s.tick) s.next.tick).toBudgetLimits =
        b.toBudgetLimits :=
      ((grows_budgetAt S b s.tick).trans (grows_budgetAt S _ s.next.tick)).limits
    simp only [CallState.onBudget, hb]
    refine ⟨⟨?_, ?_, ?_, ?_, rfl⟩, ?_⟩
    · exact congrArg (fun l : BudgetLimits => some l.requestId) hlimits.symm
    · exact congrArg (fun l : BudgetLimits => some l.policyRevision) hlimits.symm
    · exact hread.trans hlater.symm
    · exact congrArg (fun l : BudgetLimits => some l.maxAttempts) hlimits.symm
    · intro b' h
      obtain rfl := Option.some.inj h
      exact ⟨reason, hlater⟩

/-- The provenance of an answer tells of the budget that is left, which is settled. -/
theorem serve_of (route : Route) (provider : Provider) (result : Dict) (s : EmbedState) :
    ∃ p c, s.serve S route provider result =
        (.obj (Dict.set result (lit "x_szl_provenance") (.obj (Provenance.toDict p))),
          { s with toCallState := c }) ∧
      p.routing = none ∧ p.cost = none ∧ p.Of c.budget ∧ BudgetEnded c.budget := by
  obtain ⟨hof, hended⟩ := budgetFields_of S (servedProvenance route provider
    (S.env (s.toCallState.markSuccess S).tick) (s.toCallState.markSuccess S).attempts)
    (ended_markSuccess S s.toCallState)
  exact ⟨_, _, rfl, rfl, rfl, hof, hended⟩

end

/-! ### What is stored of a budget -/

/-- The stored provenance of a call with a budget gives a terminal reason. -/
def StoreRecord.Ended (r : StoreRecord) : Prop :=
  r.budgeted = true → ∃ d prov reason, r.value =
    .obj (Dict.set d (lit "x_szl_provenance") (.obj prov)) ∧
      Dict.get prov (lit "terminal_reason") = some (.str reason)

/-- No open budget was stored. -/
def CacheStore.Ended (s : CacheStore) : Prop := ∀ r ∈ storedRecords s.history, r.Ended

section

variable {S : Surroundings} {cfg : EmbedConfig}

theorem storedRecords_cacheGet (provider : Provider) (identity : Identity) (key : Str)
    (s : EmbedState) :
    storedRecords (cacheGet S cfg provider identity key s).2.history =
      storedRecords s.history := by
  rcases cacheGet_cases S cfg provider identity key s with ⟨ts, a, _, _, heq⟩ | heq | heq
  · rw [heq]
    exact (storedRecords_append _ _).trans (List.append_nil _)
  · rw [heq]
    exact (storedRecords_append _ _).trans (List.append_nil _)
  · rw [heq, EmbedState.withCache, storedRecords_append, EmbedState.withCache,
      storedRecords_append]
    simp [storedRecords, CacheEvent.record?]

theorem storedRecords_makeRoom {key : Str} {s t : EmbedState} (h : makeRoom cfg key s = .ok t) :
    storedRecords t.history = storedRecords s.history := by
  rw [makeRoom] at h
  split_ifs at h
  · cases hold : oldest s.cache with
    | none => rw [hold] at h; cases h
    | some old =>
      rw [hold] at h
      obtain rfl := Except.ok.inj h
      exact (storedRecords_append _ _).trans (List.append_nil _)
  · obtain rfl := Except.ok.inj h
    rfl

/-- A fill of the cache stores the value of the call, and whether it had a budget. -/
theorem storedRecords_cachePut (provider : Provider) (identity : Identity) (key : Str)
    (value : Json) (s : EmbedState) {r : StoreRecord}
    (hr : r ∈ storedRecords (cachePut S cfg provider identity key value s).2.history) :
    r ∈ storedRecords s.history ∨ r.value = value ∧ r.budgeted = s.budget.isSome := by
  rw [cachePut] at hr
  -- a put that finds no room, or no copy, stores nothing
  cases hroom : makeRoom cfg key { s with toCallState := s.toCallState.next } with
  | error e =>
    rw [hroom] at hr
    exact .inl hr
  | ok t =>
    have hrecords := storedRecords_makeRoom hroom
    have hbudget := (makeRoom_frame cfg hroom).1.budget
    rw [hroom] at hr
    dsimp only at hr
    cases hcopy : jsonCopy value with
    | error e =>
      rw [hcopy] at hr
      exact .inl (hrecords ▸ hr)
    | ok copy =>
      rw [hcopy] at hr
      dsimp only [EmbedState.withCache, EmbedState.alloc] at hr
      rw [storedRecords_append, hrecords] at hr
      rcases List.mem_append.mp hr with hr | hr
      · exact .inl hr
      · have heq : r = ⟨identity, key, S.time s.tick, value, t.budget.isSome⟩ := by
          simpa [storedRecords, CacheEvent.record?] using hr
        rw [heq]
        exact .inr ⟨rfl, congrArg Option.isSome hbudget⟩

/-- An answer shows the budget of its call. The provenance is built from the budget as it is
after the last attempt, and the delivery changes neither. -/
theorem deliver_shows {route : Route} {provider : Provider} {key : Option (Identity × Str)}
    {result : Dict} {s s' : EmbedState} {a : Addr}
    (h : (.fresh a, s') = EmbedState.deliver S cfg route provider key result s) :
    ShowsBudget s'.budget (s'.read a) := by
  obtain ⟨p, c, hserve, hrouting, hcost, hof, _⟩ := serve_of S route provider result s
  have hbudget : s'.budget = c.budget := by
    have hsame := EmbedState.deliver_same S cfg route provider key result s
    rw [← h, hserve] at hsame
    exact hsame.budget
  -- the caller's object is the one that was built; the cache has a copy
  have hread : s'.read a = .obj (Dict.set result (lit "x_szl_provenance") (.obj p.toDict)) := by
    obtain ⟨value, s₁, hserve', rfl, hput⟩ := EmbedState.deliver_eq_fresh h
    obtain ⟨rfl, rfl⟩ := Prod.mk.inj (hserve'.symm.trans hserve)
    rcases hput with ⟨_, rfl⟩ | ⟨identity, k, _, hput⟩
    · exact read_alloc _ _
    · have hframe := (cachePut_frame S cfg provider identity k
        (.obj (Dict.set result (lit "x_szl_provenance") (.obj p.toDict)))
        (EmbedState.alloc (.obj (Dict.set result (lit "x_szl_provenance") (.obj p.toDict)))
          { s with toCallState := c }).2).2
      rw [hput] at hframe
      exact (read_old hframe (by simp [EmbedState.alloc])).trans (read_alloc _ _)
  rw [hread, hbudget]
  exact ⟨_, Dict.get_set_self, fun k hk => hof.get hrouting hcost hk⟩

/-- A delivered answer is stored with a settled budget. -/
theorem deliver_ended {route : Route} {provider : Provider} {key : Option (Identity × Str)}
    {result : Dict} {s : EmbedState} (h : s.toCacheStore.Ended) :
    (EmbedState.deliver S cfg route provider key result s).2.toCacheStore.Ended := by
  obtain ⟨p, c, hserve, hrouting, hcost, hof, hended⟩ := serve_of S route provider result s
  rw [EmbedState.deliver, hserve]
  rcases key with _ | ⟨identity, k⟩
  · exact h
  · dsimp only
    have hput : (cachePut S cfg provider identity k
        (.obj (Dict.set result (lit "x_szl_provenance") (.obj p.toDict)))
        (EmbedState.alloc (.obj (Dict.set result (lit "x_szl_provenance") (.obj p.toDict)))
          { s with toCallState := c }).2).2.toCacheStore.Ended := by
      intro r hr
      -- only the record that is put is new; it has its reason from the provenance
      rcases storedRecords_cachePut provider identity k _ _ hr with hr | ⟨hvalue, hbudgeted⟩
      · exact h r hr
      · intro htrue
        have hsome : c.budget.isSome = true := hbudgeted.symm.trans htrue
        obtain ⟨b, hb⟩ := Option.isSome_iff_exists.mp hsome
        obtain ⟨reason, hreason⟩ := hended b hb
        refine ⟨result, p.toDict, lit reason.text, hvalue, ?_⟩
        rw [hof.get hrouting hcost (by simp [budgetKeys]), hb]
        show some (optStr (b.terminal.map fun r => lit r.text)) = _
        rw [hreason]
        rfl
    -- the put may end in a crash, and its record stays either way
    revert hput
    rcases cachePut S cfg provider identity k _ _ with ⟨_ | _, t⟩
    · exact id
    · exact id

/-- The lookups and the tries of a call store nothing. -/
theorem embed_ended_rule (S : Surroundings) (cfg : EmbedConfig) (req : EmbedRequest)
    (prep : Prepared) (start : ℕ) :
    EmbedState.TryRule S cfg req prep start
      (fun _ _ s => start ≤ s.tick ∧ s.toCacheStore.Ended)
      (fun _ _ _ _ s => s.toCacheStore.Ended) where
  quiet := fun _ _ _ => (quiet_later S start).and ⟨fun _ h => h, fun _ _ h => h, fun _ h => h⟩
  later := And.left
  enter := id
  pass := id
  lookup := by
    intro seen route provider identity key s _ _ h
    refine ⟨h.1.trans (cacheGet_same S cfg provider identity key s).tick_le, ?_⟩
    intro r hr
    rw [storedRecords_cacheGet] at hr
    exact h.2 r hr
  tries := by
    intro seen route provider s _ h
    have htick := h.1.trans (tick_le_tryRoute S cfg.retry .embeddings route provider
      (embedPayload prep route.2) req.timeout
      (embeddingResponseError (embedPayload prep route.2)) s.toCallState)
    revert htick
    dsimp only [EmbedState.tryEmbed]
    generalize tryRoute S cfg.retry .embeddings route provider _ _ _ _ = r
    obtain ⟨_ | _ | _ | result | _, c⟩ := r
    · exact fun htick => ⟨htick, h.2⟩
    · exact fun htick => ⟨htick, h.2⟩
    · exact fun htick => ⟨htick, h.2⟩
    -- an answer ends the walk, so the ticks are no longer asked for
    · exact fun _ => h.2
    · exact fun htick => ⟨htick, h.2⟩

variable {req : EmbedRequest} {s : EmbedState}

/-- **A call stores no open budget**, and its own answer shows its own budget. A call that was
served marked its budget before the answer was stored, so the copy in the cache tells of a budget
that had its reason. -/
theorem embed_ended (h : s.toCacheStore.Ended) :
    (embed S cfg req s).2.toCacheStore.Ended ∧
      ∀ a, (embed S cfg req s).1 = .fresh a →
        ShowsBudget (embed S cfg req s).2.budget ((embed S cfg req s).2.read a) := by
  rcases embed_cases S cfg req s with ⟨e, heq⟩ | ⟨prep, slots, c, _, _, _, _, heq⟩
  · rw [heq]
    exact ⟨h, fun a ha => by cases ha⟩
  · rw [heq]
    have rule := embed_ended_rule S cfg req prep c.tick
    have hends := rule.walk slots (s := { s with toCallState := c }) ⟨Nat.le_refl _, h⟩
    revert hends
    generalize EmbedState.walk S cfg req prep slots { s with toCallState := c } = v
    obtain ⟨_ | _ | a | a | e | _, s'⟩ := v
    · rintro ⟨before, _, _, hended⟩
      exact ⟨hended, fun a ha => by cases ha⟩
    · rintro ⟨before, _, _, hended⟩
      exact ⟨hended, fun a ha => by cases ha⟩
    -- a fresh answer, which the delivery stores and shows
    · rintro ⟨before, slot, _, provider, _, result, t, key, _, hended, _, hdeliver⟩
      have hstored : (EmbedState.deliver S cfg slot.1 provider key result t).2.toCacheStore.Ended :=
        deliver_ended hended
      rw [← hdeliver] at hstored
      refine ⟨hstored, fun b hb => ?_⟩
      obtain rfl := EmbedEnd.fresh.inj hb
      exact deliver_shows hdeliver
    -- a replay stores nothing
    · rintro ⟨before, slot, _, provider, _, identity, key, t, entry, out, _, _, hP, _, _, hcached⟩
      obtain ⟨rfl, rfl⟩ := Prod.mk.inj hcached
      refine ⟨fun r hr => ?_, fun b hb => by cases hb⟩
      have hrecords : storedRecords (cacheGet S cfg provider identity key t).2.history =
        storedRecords t.history := storedRecords_cacheGet provider identity key t
      exact hP.2 r (hrecords ▸ hr)
    -- an exception, before or within the delivery
    · rintro ⟨before, slot, _, ⟨_, hended⟩ | ⟨provider, _, result, t, key, _, hended, _, hdeliver⟩⟩
      · exact ⟨hended, fun a ha => by cases ha⟩
      · have hstored :
            (EmbedState.deliver S cfg slot.1 provider key result t).2.toCacheStore.Ended :=
          deliver_ended hended
        rw [← hdeliver] at hstored
        exact ⟨hstored, fun a ha => by cases ha⟩
    · exact False.elim

end

/-- **No run stores an open budget.** By the step lemma along the calls of a process; what
callers do to their own answers does not reach the records. -/
theorem Process.ended (K : CacheSettings) (steps : List ProcessStep) :
    (runs (Process.step K) Process.start steps).1.store.Ended := by
  refine @runs_invariant _ _ _ (Process.step K) (fun p => p.store.Ended) ?_ Process.start
    (List.forall_mem_nil _) steps
  intro p step hp
  cases step with
  | call c => exact (@embed_ended c.surroundings (c.config K) c.request (c.start p.store) hp).1
  | change a v =>
    rw [Process.step]
    split_ifs
    · exact hp
    · exact hp

/-! ### Answers from the cache -/

/-- A member that is missing is missing from what is read back. -/
theorem get_norm_none {o : DumpOpts} {kvs : Dict} (hnodup : (kvs.map fun p => o.text p.1).Nodup)
    {k : Str} (hk : ∀ p ∈ kvs, o.text p.1 ≠ k) : (Py.norm o (.obj kvs)).get k = none := by
  rw [norm_obj_of_nodup hnodup, Json.get, Dict.get_eq_none]
  intro hmem
  obtain ⟨p, hp, rfl⟩ := List.mem_map.mp hmem
  obtain ⟨q, hq, rfl⟩ := List.mem_map.mp hp
  exact hk q ((o.order_perm kvs).mem_iff.mp hq) rfl

/-- No member of an answer itself has the name of a member of the budget. -/
theorem text_toDict_ne {p : Provenance} (hrouting : p.routing = none) (hcost : p.cost = none)
    (hnone : p.requestId = none) {key : Str} (hkey : key ∈ budgetKeys) :
    ∀ q ∈ p.toDict, plainDumps.text q.1 ≠ key := by
  have hkeys : ∀ k ∈ Dict.keys p.toDict, plainDumps.text k ≠ key := by
    rw [Provenance.toDict, hrouting, hcost, Provenance.budgetMembers, hnone]
    show ∀ k ∈ [lit "served_by", lit "provider", lit "upstream_model", lit "base_url",
      lit "sovereign", lit "energy_source", lit "tier", lit "attempts"],
        plainDumps.text k ≠ key
    revert key
    decide +kernel
  exact fun q hq => hkeys q.1 (List.mem_map_of_mem hq)

/-- A copy shows a budget exactly when the stored answer came from a call with one, and
then with a terminal reason. -/
theorem copy_budget {scopeKey : Bytes} {r : StoreRecord} (h : r.Served scopeKey) (hended : r.Ended)
    {copy : Json} (hcopy : jsonCopy r.value = .ok copy) :
    ∃ prov, copy.get (lit "x_szl_provenance") = some (.obj prov) ∧
      (r.budgeted = false → ∀ key ∈ budgetKeys, Dict.get prov key = none) ∧
      (r.budgeted = true → ∃ reason,
        Dict.get prov (lit "terminal_reason") = some (.str reason)) := by
  obtain ⟨v, d, p, hbody, _, hvalue, _, hrouting, hcost, hbudgeted⟩ := h.value
  obtain ⟨rfl, _⟩ := jsonCopy_eq_ok hcopy
  have hkeys := @nodup_answer_keys v d p.toDict hbody
  have hprov := nodup_provenance_keys hrouting hcost
  -- the provenance of the copy is the one that was stored, since its keys are distinct
  have hget := get_norm (k := lit "x_szl_provenance") hkeys (by decide +kernel) Dict.get_set_self
  rw [norm_obj_of_nodup hprov, ← hvalue] at hget
  refine ⟨_, hget, ?_, ?_⟩
  · intro hfalse key hkey
    rw [hfalse, Option.isSome_eq_false_iff, Option.isNone_iff_eq_none] at hbudgeted
    have hnone := get_norm_none hprov (text_toDict_ne hrouting hcost hbudgeted hkey)
    rw [norm_obj_of_nodup hprov] at hnone
    exact hnone
  · intro htrue
    obtain ⟨d', prov, reason, hvalue', hreason⟩ := hended htrue
    -- the record names its provenance twice, by what was served and by what has a reason
    have hsame : p.toDict = prov := by
      have hset := congrArg (Json.get · (lit "x_szl_provenance")) (hvalue.symm.trans hvalue')
      dsimp only [Json.get] at hset
      rw [Dict.get_set_self, Dict.get_set_self] at hset
      exact Json.obj.inj (Option.some.inj hset)
    have hread := get_norm hprov (by decide +kernel) (hsame ▸ hreason)
    rw [norm_obj_of_nodup hprov] at hread
    exact ⟨_, hread⟩

/-- The marker of the cache changes no member of the budget. -/
theorem get_markCached {prov : Dict} {key : Str} (hkey : key ∈ budgetKeys) :
    Dict.get (markCached prov) key = Dict.get prov key := by
  have hne : key ≠ lit "served_by" := by
    revert hkey
    simp only [budgetKeys, List.mem_cons, List.not_mem_nil, or_false]
    rintro (rfl | rfl | rfl | rfl | rfl) <;> decide
  rw [markCached]
  split
  · split_ifs
    · exact Dict.get_set_of_ne hne
    · rfl
  · rfl

/-- **An answer from the cache shows the budget of its call exactly when there is none**,
neither now nor when it was stored: a budget that is shown is no longer open. -/
theorem cached_shows_iff {scopeKey : Bytes} {r : StoreRecord} (h : r.Served scopeKey)
    (hended : r.Ended) {copy answer : Json} {attempts : List Attempt}
    (hcopy : jsonCopy r.value = .ok copy) (hhit : asCacheHit copy attempts = .ok answer)
    {budget : Option RequestBudget} (hopen : ∀ b, budget = some b → b.terminal = none) :
    ShowsBudget budget answer ↔ budget = none ∧ r.budgeted = false := by
  obtain ⟨prov, hprov, hnone, hsome⟩ := copy_budget h hended hcopy
  have hanswer : answer.get (lit "x_szl_provenance") = some (.obj (markCached prov)) := by
    rw [asCacheHit] at hhit
    cases hagain : jsonCopy copy with
    | error e => rw [hagain] at hhit; cases hhit
    | ok w =>
      rw [hagain, jsonCopy_copy hcopy hagain] at hhit
      obtain rfl := Except.ok.inj hhit
      have hfields : Dict.get (fields copy) (lit "x_szl_provenance") = some (.obj prov) := by
        cases copy with
        | obj d => exact hprov
        | null | bool _ | num _ | str _ | arr _ => cases hprov
      show Dict.get (markHit attempts (fields copy)) _ = _
      rw [markHit, hfields]
      exact (Dict.get_set_of_ne (by decide)).trans Dict.get_set_self
  have hreason : lit "terminal_reason" ∈ budgetKeys := by simp [budgetKeys]
  constructor
  · rintro ⟨prov', hget, hshows⟩
    obtain rfl := Json.obj.inj (Option.some.inj (hanswer.symm.trans hget))
    have hterminal := hshows _ hreason
    rw [get_markCached hreason] at hterminal
    cases hbudgeted : r.budgeted with
    | true =>
      -- what was stored has a reason, and this budget has none
      obtain ⟨reason, hstored⟩ := hsome hbudgeted
      rw [hstored] at hterminal
      cases budget with
      | none => cases hterminal
      | some b =>
        have hshown : budgetMember (some b) (lit "terminal_reason") =
          some (optStr (b.terminal.map fun r => lit r.text)) := rfl
        rw [hshown, hopen b rfl] at hterminal
        cases hterminal
    | false =>
      rw [hnone hbudgeted _ hreason] at hterminal
      cases budget with
      | none => exact ⟨rfl, rfl⟩
      | some b => cases hterminal
  · rintro ⟨rfl, hbudgeted⟩
    refine ⟨_, hanswer, fun key hkey => ?_⟩
    rw [get_markCached hkey]
    exact hnone hbudgeted key hkey

/-! ### Runs -/

section

variable (S : Surroundings) (cfg : EmbedConfig) (req : EmbedRequest) (prep : Prepared)

namespace EmbedState

/-- A dispatch does not answer from the cache. -/
theorem dispatch_ne_cached (route : Route) (provider : Provider) (key : Option (Identity × Str))
    (s : EmbedState) (a : Addr) : (s.dispatch S cfg req prep route provider key).1 ≠ .cached a := by
  rw [dispatch]
  generalize s.try S cfg req prep route provider = r
  obtain ⟨_ | _ | _ | result | _, t⟩ := r
  · exact fun h => by cases h
  · dsimp only
    split_ifs <;> exact fun h => by cases h
  · exact fun h => by cases h
  · dsimp only
    rcases deliver_cases S cfg route provider key result t with ⟨b, heq⟩ | ⟨e, heq⟩
    · exact fun h => by cases heq.symm.trans h
    · exact fun h => by cases heq.symm.trans h
  · exact fun h => by cases h

theorem qualified_cached {route : Route} {provider : Provider} {s s' : EmbedState} {a : Addr}
    (h : s.qualified S cfg req prep route provider = (.cached a, s')) : s'.budget = s.budget := by
  have hne := fun key t => dispatch_ne_cached S cfg req prep route provider key t a
  rw [qualified] at h
  -- without the cache the route is dispatched, and a dispatch replays nothing
  split_ifs at h
  · exact absurd (congrArg Prod.fst h) (hne _ _)
  · dsimp only at h
    generalize identityOf req.model (embedPayload prep route.2) provider (S.env s.tick)
      prep.scope prep.callerScope route.1 = identity at h
    cases hkey : embedCacheKey cfg.scopeKey identity with
    | error e =>
      rw [hkey] at h
      cases (Prod.mk.inj h).1
    | ok key =>
      rw [hkey] at h
      have hsame := cacheGet_same S cfg provider identity key s
      dsimp only at h
      generalize cacheGet S cfg provider identity key s = looked at h hsame
      obtain ⟨_ | entry, t⟩ := looked
      · exact absurd (congrArg Prod.fst h) (hne _ _)
      · dsimp only at h
        -- a hit touches the heap alone, so the budget is that of the state before
        cases hhit : asCacheHit (t.read entry) t.attempts with
        | error e =>
          rw [hhit] at h
          cases (Prod.mk.inj h).1
        | ok out =>
          rw [hhit] at h
          obtain ⟨_, rfl⟩ := Prod.mk.inj h
          exact hsame.budget

/-- A visit that is answered from the cache does not ask the budget. -/
theorem visit_cached {slot : Slot} {s s' : EmbedState} {a : Addr}
    (h : s.visit S cfg req prep slot.1 slot.2 = (.cached a, s')) : s'.budget = s.budget := by
  obtain ⟨route, _ | provider⟩ := slot
  · cases (Prod.mk.inj h).1
  · rw [visit] at h
    dsimp only at h
    split_ifs at h
    · cases (Prod.mk.inj h).1
    · cases (Prod.mk.inj h).1
    · exact @qualified_cached S cfg req prep route provider
        { s with toCallState := s.toCallState.next } _ _ h

/-- A walk that is answered from the cache has just found its budget open. -/
theorem walk_cached (slots : List Slot) {s s' : EmbedState} {a : Addr}
    (h : s.walk S cfg req prep slots = (.cached a, s')) :
    ∀ b, s'.budget = some b → b.terminal = none := by
  induction slots generalizing s with
  | nil => cases (Prod.mk.inj h).1
  | cons slot later ih =>
    rw [walk] at h
    dsimp only at h
    split_ifs at h with hterminal
    · cases (Prod.mk.inj h).1
    · generalize hvisit : visit S cfg req prep slot.1 slot.2
        { s with toCallState := (s.toCallState.readTerminal S).2 } = v at h
      obtain ⟨_ | _ | b | b | e | _, t⟩ := v
      · exact ih h
      · cases (Prod.mk.inj h).1
      · cases (Prod.mk.inj h).1
      · obtain ⟨hb, rfl⟩ := Prod.mk.inj h
        have hbudget : t.budget = (s.toCallState.readTerminal S).2.budget :=
          visit_cached S cfg req prep hvisit
        -- what was read was the reason of this budget
        intro b' hb'
        rw [hbudget, CallState.readTerminal, CallState.onBudget] at hb'
        rw [CallState.readTerminal, CallState.onBudget] at hterminal
        cases hs : s.budget with
        | none =>
          rw [hs] at hb'
          exact absurd (hs.symm.trans hb') (by simp)
        | some b₀ =>
          rw [hs] at hb' hterminal
          obtain rfl := Option.some.inj hb'
          simpa using hterminal
      · cases (Prod.mk.inj h).1
      · cases (Prod.mk.inj h).1

end EmbedState

/-- A call that is answered from the cache leaves its budget open. -/
theorem embed_cached_open {s s' : EmbedState} {a : Addr}
    (h : embed S cfg req s = (.cached a, s')) : ∀ b, s'.budget = some b → b.terminal = none := by
  rcases embed_cases S cfg req s with ⟨e, heq⟩ | ⟨prep, slots, c, _, _, _, _, heq⟩
  · cases (Prod.mk.inj (heq.symm.trans h)).1
  · rw [heq] at h
    have hwalk := fun t b => @EmbedState.walk_cached S cfg req prep slots
      { s with toCallState := c } t b
    revert h
    generalize EmbedState.walk S cfg req prep slots { s with toCallState := c } = v at hwalk
    obtain ⟨_ | _ | b | b | e | _, t⟩ := v
    · exact fun h => by cases (Prod.mk.inj h).1
    · exact fun h => by cases (Prod.mk.inj h).1
    · exact fun h => by cases (Prod.mk.inj h).1
    · intro h
      obtain ⟨hb, rfl⟩ := Prod.mk.inj h
      exact hwalk _ b rfl
    · exact fun h => by cases (Prod.mk.inj h).1
    · exact fun h => by cases (Prod.mk.inj h).1

end

/-- **Whose budget an answer shows**, after any run: an answer of a dispatch shows the budget
of its call with its own values, or none when the call had none; an answer from the cache
does so exactly when neither the call nor the one that stored it had a budget. -/
theorem budget_shown_iff (K : CacheSettings) (steps : List ProcessStep) (c : EmbedCall) :
    let store := (runs (Process.step K) Process.start steps).1.store
    let r := c.perform K store
    r.2.budget = c.budget.map
        (·.after (embedLog c.surroundings (c.config K) c.request (c.start store))) ∧
    (∀ a, r.1 = .fresh a → ShowsBudget r.2.budget (r.2.read a)) ∧
    ∀ a, r.1 = .cached a → ∃ route identity record,
      Replay c.surroundings (c.config K) c.request (c.start store) route identity record a r.2 ∧
      (ShowsBudget r.2.budget (r.2.read a) ↔ c.budget = none ∧ record.budgeted = false) := by
  intro store r
  have hended : store.Ended := Process.ended K steps
  have hreplays : r.2.budget = c.budget.map
      (·.after (embedLog c.surroundings (c.config K) c.request (c.start store))) :=
    embed_replays c.surroundings (c.config K) c.request (c.start store)
  obtain ⟨hkept, hfresh⟩ :=
    @embed_ended c.surroundings (c.config K) c.request (c.start store) hended
  refine ⟨hreplays, hfresh, fun a ha => ?_⟩
  have hcall : embed c.surroundings (c.config K) c.request (c.start store) = (.cached a, r.2) :=
    Prod.ext ha rfl
  have hok : (c.start store).toCacheStore.Ok (c.config K).scopeKey _ := Process.ok K steps
  obtain ⟨route, identity, record, hreplay⟩ :=
    @embed_cached c.surroundings _ c.request _ _ _ hok a hcall
  obtain ⟨copy, hcopy, hhit⟩ := hreplay.marked
  -- the record that is replayed was put by an earlier call of the process, or by this one
  have hstored : record.Ended := by
    obtain ⟨past, later, heq, _⟩ := KeyedHistory.last_eq_some_iff.mp hreplay.stored
    have hmem : KeyedHistory.Change.put record.key record ∈ changes r.2.history := by
      rw [heq]
      simp
    obtain ⟨e, he, hchange⟩ := List.mem_filterMap.mp hmem
    cases e with
    | stored provider stored =>
      obtain ⟨_, rfl⟩ := KeyedHistory.Change.put.inj (Option.some.inj hchange)
      exact hkept _ (List.mem_filterMap.mpr ⟨_, he, rfl⟩)
    | consulted _ _ _ _ | dropped _ => cases hchange
  refine ⟨route, identity, record, hreplay, ?_⟩
  -- a replay shows the provenance of the call that stored it, so not the budget of this one
  rw [cached_shows_iff hreplay.served hstored hcopy hhit (embed_cached_open _ _ _ hcall), hreplays]
  cases c.budget with
  | none => simp
  | some b => simp

end SzlRouter
