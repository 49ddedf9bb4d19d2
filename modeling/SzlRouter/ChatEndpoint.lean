/-
`POST /v1/chat/completions` (`szl_router/app.py`).

The body is only checked to be an object.  Its fields go to `chat` as they are, and
what `chat` returns or raises goes into a response, whose constructor writes and
encodes it.

* `chat_outcome` — how an unbudgeted call ends, with everything its answer holds;
* `encodes_provenance`, `encodes_failure` — what of an answer can keep it from being encoded;
* `chatCompletions_iff` — the requests that get a status that the handler chose.
-/
import SzlRouter.JsonEncoding
import SzlRouter.RouteTrail

open Py

namespace SzlRouter

/-! ### The handler -/

/-- What `json.loads` with the finite hooks returns. -/
structure RequestBody where
  value : Json
  finite : allFinite value = true
  /-- An integer of a JSON text has no more digits than `json.dumps` writes. -/
  writes : dumpable plainDumps value = true

structure HttpRequest where
  authorization : Option Str
  /-- `none` when the body is not finite JSON within the limits of the parser. -/
  body : Option RequestBody

/-- The options of `JSONResponse.render`. -/
def responseDumps : DumpOpts := ⟨false, false, false, true⟩

/-- The options of the canonical JSON that receipts are signed over. -/
def canonicalDumps : DumpOpts := ⟨false, true, false, true⟩

/-- The packages that the endpoint calls. -/
structure Packages where
  /-- `JSONResponse(content=…)`. -/
  render : Json → Except Failure Bytes
  /-- `szl_receipt` can be imported. -/
  signs : Bool
  /-- `sign_receipt(Receipt(…), …)`; no envelope without the package. -/
  sign : Json → Except Failure (Option Json)

/-- What the packages promise: of the response that the framework writes, and of the library that
signs. Neither promises bytes for a text that UTF-8 cannot write. -/
structure Packages.Documented (L : Packages) : Prop where
  /-- `json.dumps(content, ensure_ascii=False, allow_nan=False, …).encode("utf-8")`. -/
  render : ∀ v, (∃ body, L.render v = .ok body) ↔
    ((dumps responseDumps v).bind utf8).isSome = true
  /-- `json.dumps(body, sort_keys=True, ensure_ascii=False, …).encode("utf-8")`: of what strict
  JSON can hold, that is signed which UTF-8 can write. -/
  sign : ∀ v, dumpable responseDumps v = true → ((∃ envelope, L.sign v = .ok envelope) ↔
    (L.signs = true → ((dumps canonicalDumps v).bind utf8).isSome = true))

/-- How a request ends. -/
inductive HttpEnd
  /-- `HTTPException`. -/
  | refused (status : ℕ) (detail : Str)
  /-- `JSONResponse`, with the envelope of the receipt header. -/
  | sent (status : ℕ) (body : Bytes) (receipt : Option Json)
  /-- Another exception leaves the handler. -/
  | raised (e : Failure)
  | diverged

def HttpEnd.status? : HttpEnd → Option ℕ
  | .refused status _ => some status
  | .sent status _ _ => some status
  | _ => none

/-- The settings of the process, and what `current_grid_context` returns if it is
enabled. -/
structure EndpointSettings where
  retry : RetryConfig
  cooldownSeconds : Binary64
  autoLargeThreshold : Binary64
  ops : TextOps
  gridContext : Option Json
  /-- `sanitize_grid_context` keeps finite numbers only. -/
  grid_finite : ∀ v, gridContext = some v → dumpable responseDumps v = true

def EndpointSettings.config (settings : EndpointSettings) : RouterConfig :=
  ⟨registry, settings.retry, settings.cooldownSeconds, settings.autoLargeThreshold, settings.ops⟩

/-- `SZL_ROUTER_TOKEN`. -/
def routerToken (env : Env) : Str := Str.strip (env.getD (lit "SZL_ROUTER_TOKEN"))

/-- `_check_auth`. -/
def checkAuth (env : Env) (request : HttpRequest) : Bool :=
  routerToken env = [] ∨ request.authorization.getD [] = lit "Bearer " ++ routerToken env

/-- `_json_object`. -/
def jsonObject (request : HttpRequest) : Except HttpEnd Dict :=
  match request.body with
  | none => .error (.refused 400 (lit "request body must be finite JSON within parser limits"))
  | some body =>
    match body.value with
    | .obj d => .ok d
    | _ => .error (.refused 400 (lit "request body must be a JSON object"))

/-- `body.get(key)`. -/
def getMember (body : Dict) (key : String) : Json := (Dict.get body (lit key)).getD .null

/-- `body.get("model") or core.DEFAULT_MODEL`. -/
def requestedModel (body : Dict) : Json :=
  if (getMember body "model").truthy then getMember body "model" else .str DEFAULT_MODEL

/-- What `resolve_routes` needs of a model: a string, or looking it up in the table and
in itself raises. -/
def modelName : Json → Except Failure Str
  | .str s => .ok s
  | .arr _ => .error (.other (lit "TypeError") (lit "unhashable type: 'list'"))
  | .obj _ => .error (.other (lit "TypeError") (lit "unhashable type: 'dict'"))
  | .num (.int _) => .error (.other (lit "TypeError")
      (lit "argument of type 'int' is not iterable"))
  | .num (.float _) => .error (.other (lit "TypeError")
      (lit "argument of type 'float' is not iterable"))
  | .bool _ => .error (.other (lit "TypeError") (lit "argument of type 'bool' is not iterable"))
  | .null => .error (.other (lit "TypeError")
      (lit "argument of type 'NoneType' is not iterable"))

/-- The members that are not passed on as they are. -/
def ownKeys : List Str :=
  [lit "model", lit "messages", lit "temperature", lit "max_tokens", lit "stream"]

/-- A member that is not `None`. -/
def given (body : Dict) (key : String) : Option Json :=
  match getMember body key with
  | .null => none
  | v => some v

/-- The call of `chat` for a body. -/
def chatRequestOf (body : Dict) (name : Str) : ChatRequest where
  model := name
  messages := getMember body "messages"
  temperature := given body "temperature"
  maxTokens := given body "max_tokens"
  timeout := 60
  extra := Dict.without body ownKeys

/-- The options of `request_digest`. -/
def digestDumps : DumpOpts := ⟨true, true, true, true⟩

/-- `request_digest`. -/
def requestDigest (model : Str) (messages : Json) : Except Failure Str :=
  match dumps digestDumps (.obj [(lit "model", .str model), (lit "messages", messages)]) with
  | none => .error digitsError
  | some text => .ok (sha256Hex (encodeAscii text))

/-- The frame of the observer. -/
def observer (env : Env) (model : Str) : Json :=
  .obj [(lit "endpoint", .str (lit "/v1/chat/completions")),
    (lit "auth_mode", .str (if routerToken env = [] then lit "open" else lit "bearer")),
    (lit "requested_model", .str model),
    (lit "note", .str (lit ("observer frame: what this caller asked for and how they were " ++
      "authenticated — the receipt verdict is relative to this frame")))]

/-- A member of a receipt that is left out when it is `None`. -/
def additive (key : String) (v : Json) : Dict :=
  match v with
  | .null => []
  | v => [(lit key, v)]

/-- `build_body`. -/
def buildBody (prov : Dict) (model : Str) (usage : Json) (digest : Str)
    (routing cost observer gridContext : Json) : Json :=
  .obj ([(lit "served_by", getMember prov "served_by"),
    (lit "sovereign", getMember prov "sovereign"),
    (lit "tier", getMember prov "tier"), (lit "energy_source", getMember prov "energy_source"),
    (lit "energy", .str (lit "UNAVAILABLE")), (lit "model", .str model),
    (lit "attempts", getMember prov "attempts"), (lit "usage", usage),
    (lit "request_digest", .str digest)] ++ additive "routing" routing ++ additive "cost" cost ++
    additive "observer" observer ++ additive "grid_context" gridContext)

/-- The body of the answer when every route failed. -/
def failureContent (message : Str) (attempts : List Attempt) : Json :=
  .obj [(lit "error", .obj [(lit "message", .str message),
      (lit "type", .str (lit "router_all_routes_failed"))]),
    (lit "x_szl_provenance", .obj [(lit "attempts", .arr (attempts.map Attempt.toJson))])]

section

variable (L : Packages) (S : Surroundings) (settings : EndpointSettings)

/-- `JSONResponse(status_code=status, content=content)`. -/
def respond (status : ℕ) (content : Json) (receipt : Option Json) : HttpEnd :=
  match L.render content with
  | .error e => .raised e
  | .ok body => .sent status body receipt

/-- The response with a receipt for what `chat` returned. -/
def respondServed (env : Env) (model : Str) (messages : Json) (result : Dict) : HttpEnd :=
  let prov := fields ((Dict.get result (lit "x_szl_provenance")).getD .null)
  match requestDigest model messages with
  | .error e => .raised e
  | .ok digest =>
    match L.sign (buildBody prov model (getMember result "usage") digest (getMember prov "routing")
        (getMember prov "cost") (observer env model) (settings.gridContext.getD .null)) with
    | .error e => .raised e
    | .ok envelope => respond L 200 (.obj result) envelope

/-- What follows the call of `chat`. -/
def respondChat (model : Str) (messages : Json) : CallEnd × ChatState → HttpEnd
  | (.response result, s) => respondServed L settings (S.env s.tick) model messages result
  | (.routerError message attempts _, _) => respond L 502 (failureContent message attempts) none
  | (.raised e, _) => .raised e
  | (.diverged, _) => .diverged

/-- The state of a request that has read its token. -/
def chatStart (cooldown : Cooldowns) : ChatState := ⟨.unbudgeted 1, cooldown⟩

/-- `chat_completions`. -/
def chatCompletions (request : HttpRequest) (cooldown : Cooldowns) : HttpEnd :=
  if checkAuth (S.env 0) request = false then .refused 401 (lit "invalid SZL_ROUTER_TOKEN")
  else
    match jsonObject request with
    | .error e => e
    | .ok body =>
      if (getMember body "messages").truthy = false then .refused 400 (lit "messages is required")
      else
        match modelName (requestedModel body) with
        | .error e => .raised e
        | .ok name =>
          respondChat L S settings name (getMember body "messages")
            (chat S settings.config (chatRequestOf body name) (chatStart cooldown))

end

/-! ### How an unbudgeted call ends -/

/-- The post was answered with a completion. -/
def Post.Answers (p : Post) (v : Parsed) : Prop :=
  p.reply = .json v ∧ chatResponseError v.val = none

/-- The latencies are integer parts of doubles. -/
def Timed (rows : List Attempt) : Prop :=
  ∀ row ∈ rows, ∀ n, row.latencyMs = some n → ∃ x : Binary64, n = x.trunc

/-- What holds of an unbudgeted call as long as no route served. -/
structure Unserved (s : CallState) : Prop where
  budget : s.budget = none
  unanswered : ∀ p ∈ posts s.events, ∀ v, ¬p.Answers v
  timed : Timed s.attempts

/-- What holds when a route has served. -/
structure ServedBy (route : Route) (provider : Provider) (result : Dict) (s : CallState) :
    Prop where
  budget : s.budget = none
  answered : ∃ p v, (posts s.events).getLast? = some p ∧ p.Answers v ∧ fields v.val = result ∧
    p.provider = provider ∧ payloadModel p.payload = route.2
  timed : Timed s.attempts

theorem quiet_unserved (S : Surroundings) : Quiet S Unserved where
  same hs h := by
    refine ⟨hs.budget.trans h.budget, ?_, ?_⟩
    · rw [hs.events]
      exact h.unanswered
    · rw [hs.attempts]
      exact h.timed
  skip ha _ h := by
    refine ⟨h.budget, h.unanswered, ?_⟩
    intro row hrow n hn
    rcases List.mem_append.mp hrow with hrow | hrow
    · exact h.timed row hrow n hn
    · rw [List.mem_singleton.mp hrow] at hn
      rw [Attempt.isSkip, hn] at ha
      cases ha
  onBudget _ h := by
    rw [CallState.onBudget, h.budget]
    exact h

theorem Timed.append {rows : List Attempt} {row : Attempt} (h : Timed rows)
    (hrow : ∀ n, row.latencyMs = some n → ∃ x : Binary64, n = x.trunc) :
    Timed (rows ++ [row]) := by
  intro r hr
  rcases List.mem_append.mp hr with hr | hr
  · exact h r hr
  · rw [List.mem_singleton.mp hr]
    exact hrow

/-- The row of a try is timed. -/
theorem tryRoute_timed (S : Surroundings) (cfg : RetryConfig) (poster : Poster) (route : Route)
    (provider : Provider) (payload : Dict) (timeout : Binary64) (check : Json → Option String)
    {s : CallState} (hb : s.budget = none) (h : Timed s.attempts) :
    Timed (tryRoute S cfg poster route provider payload timeout check s).2.attempts := by
  have hreplies := unbudgetedLoop_replies S poster provider payload timeout cfg
    cfg.maxAttempts.toNat 0 s.next
  rw [tryRoute, postWithRetry, show s.next.budget = none from hb]
  dsimp only
  revert hreplies
  generalize unbudgetedLoop S cfg poster provider payload timeout cfg.maxAttempts.toNat 0 s.next = r
  -- the latency of a row is a truncated reading, so it has a number of milliseconds
  have hsome : ∀ (x : Binary64) n, some x.trunc = some n → ∃ y : Binary64, n = y.trunc :=
    fun x n hn => ⟨x, (Option.some.inj hn).symm⟩
  obtain ⟨e | v, c⟩ := r
  · rintro ⟨hbudget, hrows, _⟩
    have hbudget : c.budget = none := hbudget.trans hb
    have hc : Timed c.attempts := by
      rw [hrows]
      exact h
    simp only [Except.mapError, hbudget, Option.isNone_none, if_true]
    -- no reply was accepted: one row with the failure
    refine hc.append ?_
    cases e <;> exact hsome _
  · rintro ⟨hbudget, hrows, _⟩
    have hbudget : c.next.budget = none := hbudget.trans hb
    have hc : Timed c.attempts := by
      rw [hrows]
      exact h
    simp only [Except.mapError]
    cases hcheck : check v.val with
    | some detail =>
      simp only [rejectRow, hbudget, Option.isNone_none, if_true]
      exact hc.append (hsome _)
    | none =>
      simp only [acceptRow, hbudget, Option.isNone_none, if_true]
      exact hc.append (hsome _)

theorem unserved_rule (S : Surroundings) (cfg : RouterConfig) {req : ChatRequest}
    (hrefusal : chatRefusal req none = none) :
    ChatState.TryRule S cfg req (fun _ => Unserved)
      (fun _ route provider result => ServedBy route provider result) where
  quiet _ := quiet_unserved S
  pass := id
  tries := by
    intro seen route provider s hq h
    obtain ⟨row, new, facts⟩ := tryRoute_facts S cfg.retry .chat route provider
      (chatPayload req route.2) req.timeout chatResponseError h.budget
    have htimed := tryRoute_timed S cfg.retry .chat route provider (chatPayload req route.2)
      req.timeout chatResponseError h.budget h.timed
    obtain ⟨_, hserved⟩ := tryRoute_posts S .chat provider (chatPayload req route.2) cfg.retry
      route req.timeout chatResponseError s
    -- a try that did not serve was not answered
    have hfailed : (∀ result, (ChatState.tryChat S cfg req route provider s).1 ≠ .served result) →
        Unserved (ChatState.tryChat S cfg req route provider s).2 := by
      intro hnot
      refine ⟨facts.budget, ?_, htimed⟩
      rw [show posts (ChatState.tryChat S cfg req route provider s).2.events = _ from
        facts.posts_eq]
      intro p hp v hv
      rcases List.mem_append.mp hp with hp | hp
      · exact h.unanswered p hp v hv
      · obtain ⟨result, hresult⟩ := facts.served_iff.mpr (facts.answered_iff.mpr ⟨p, hp, v, hv⟩)
        exact hnot result hresult
    have hbudget := facts.budget
    revert hfailed hserved htimed hbudget
    dsimp only [ChatState.tryChat]
    generalize tryRoute S cfg.retry .chat route provider _ _ _ _ = r
    obtain ⟨_ | _ | _ | result | _, c⟩ := r
    · exact fun _ _ hfailed _ => hfailed fun _ h => nomatch h
    · exact fun _ _ hfailed _ => hfailed fun _ h => nomatch h
    · exact fun _ _ hfailed _ => hfailed fun _ h => nomatch h
    · intro htimed hserved _ hbudget
      obtain ⟨v, hcheck, rfl, front, p, hposts, hby, hreply⟩ := hserved result rfl
      have hp := hby p (List.mem_append_right _ (List.mem_singleton.mpr rfl))
      refine ⟨hbudget, ⟨p, v, ?_, ⟨hreply, hcheck⟩, rfl, hp.provider_eq, ?_⟩, htimed⟩
      · rw [hposts, ← List.append_assoc]
        exact List.getLast?_concat
      · rw [hp.payload_eq]
        exact payloadModel_chat hrefusal route.2
    · exact fun _ _ hfailed _ => hfailed fun _ h => nomatch h

/-- The provenance of an answer without a budget. -/
def chatProvenance (S : Surroundings) (routing : Option Json) (route : Route)
    (provider : Provider) (tick : ℕ) (rows : List Attempt) : Provenance :=
  { servedProvenance route provider (S.env tick) rows with
    routing := routing, cost := some (sovereignCost route.2) }

theorem serve_unbudgeted (S : Surroundings) (routing : Option Json) (route : Route)
    (provider : Provider) (result : Dict) {s : ChatState} (hb : s.budget = none) :
    s.serve S routing route provider result =
      (Dict.set result (lit "x_szl_provenance")
        (.obj (chatProvenance S routing route provider s.tick s.attempts).toDict),
        s.clearCooldown S route.1) := by
  have hmark : s.toCallState.markSuccess S = s.toCallState := by
    rw [CallState.markSuccess, CallState.onBudget, hb]
  rw [ChatState.serve]
  dsimp only
  rw [hmark]
  simp only [CallState.budgetFields, CallState.readTerminal, CallState.readReserved,
    CallState.onBudget, hb, Option.map_none, Option.join_none]
  rfl

/-- The rows are timed and for routes of the request. -/
structure RowsOf (routes : List Route) (rows : List Attempt) : Prop where
  timed : Timed rows
  label : ∀ row ∈ rows, row.label ∈ routes

/-- How an unbudgeted call of an accepted request ends: the last post was answered with a
completion, which is returned under its provenance, or no post was. -/
inductive ChatOutcome (S : Surroundings) (cfg : RouterConfig) (req : ChatRequest) :
    CallEnd × ChatState → Prop
  | served {s : ChatState} {p : Post} {v : Parsed} {route : Route} {tick : ℕ}
      (rows : RowsOf (chatRoutes cfg req).2 s.attempts)
      (last : (posts s.events).getLast? = some p) (answers : p.Answers v)
      (mem : route ∈ (chatRoutes cfg req).2) (model : payloadModel p.payload = route.2)
      (known : cfg.registry.provider route.1 = some p.provider) (tick_eq : s.tick = tick + 1) :
      ChatOutcome S cfg req (.response (Dict.set (fields v.val) (lit "x_szl_provenance")
        (.obj (chatProvenance S (chatRoutes cfg req).1 route p.provider tick
          s.attempts).toDict)), s)
  | failed {s : ChatState} {reason : Option TerminalReason}
      (rows : RowsOf (chatRoutes cfg req).2 s.attempts)
      (unanswered : ∀ p ∈ posts s.events, ∀ v, ¬p.Answers v) :
      ChatOutcome S cfg req (.routerError
        (lit "all routes failed for model '" ++ req.model ++ lit "'") s.attempts reason, s)

/-- The message of a call that failed. -/
theorem chat_message {S : Surroundings} {cfg : RouterConfig} {req : ChatRequest} {s s' : ChatState}
    {message : Str} {rows : List Attempt} {reason : Option TerminalReason}
    (h : chat S cfg req s = (.routerError message rows reason, s')) :
    message = lit "all routes failed for model '" ++ req.model ++ lit "'" := by
  rw [chat] at h
  cases hrefusal : chatRefusal req s.budget with
  | some e => rw [hrefusal] at h; cases h
  | none =>
    rw [hrefusal] at h
    dsimp only at h
    revert h
    generalize s.walk S cfg req (chatRoutes cfg req).1 (chatRoutes cfg req).2 = v
    obtain ⟨_ | _ | response | _, t⟩ := v
    · intro h
      cases h
      rfl
    · intro h
      cases h
      rfl
    · exact fun h => by cases h
    · exact fun h => by cases h

/-- Every row of an unbudgeted call is for one of its routes. -/
theorem chat_labels (S : Surroundings) (cfg : RouterConfig) (req : ChatRequest) (tick : ℕ)
    (cooldown : Cooldowns) :
    ∀ row ∈ (chat S cfg req ⟨.unbudgeted tick, cooldown⟩).2.attempts,
      row.label ∈ (chatRoutes cfg req).2 := by
  obtain ⟨trail, facts⟩ := chat_facts S cfg req (s := ⟨.unbudgeted tick, cooldown⟩) rfl
  intro row hrow
  rw [facts.rows] at hrow
  obtain ⟨r, hr, rfl⟩ := List.mem_map.mp hrow
  have hflip : List.Forall₂ (fun r v => VisitFacts S cfg req v r.1 r.2) trail
      (chatVisits S cfg req ⟨.unbudgeted tick, cooldown⟩) := facts.each.flip
  obtain ⟨v, hv, hvisit⟩ := exists_mem_right hflip hr
  obtain ⟨pre, post, hsplit⟩ := List.append_of_mem hv
  rw [hvisit.label, facts.inOrder pre v post hsplit]
  simp

/-- A request that is accepted raises nothing else. -/
theorem chat_ne_raised {S : Surroundings} {cfg : RouterConfig} {req : ChatRequest} {s : ChatState}
    (hrefusal : chatRefusal req s.budget = none) (e : Failure) :
    (chat S cfg req s).1 ≠ .raised e := by
  rw [chat, hrefusal]
  dsimp only
  generalize s.walk S cfg req (chatRoutes cfg req).1 (chatRoutes cfg req).2 = v
  obtain ⟨_ | _ | response | _, t⟩ := v <;> exact fun h => by cases h

/-- **How an unbudgeted call of an accepted request ends.** The last post was answered with a
completion, which is returned under its provenance, or no post was and the call raises
`RouterError`; no exception of a route gets through. -/
theorem chat_outcome (S : Surroundings) (cfg : RouterConfig) {req : ChatRequest}
    (hrefusal : chatRefusal req none = none) (tick : ℕ) (cooldown : Cooldowns) :
    ChatOutcome S cfg req (chat S cfg req ⟨.unbudgeted tick, cooldown⟩) := by
  have hends := ChatState.TryRule.chat (s := ⟨.unbudgeted tick, cooldown⟩)
    (fun _ => unserved_rule S cfg hrefusal)
    ⟨rfl, fun p hp => absurd hp List.not_mem_nil, fun row hrow => absurd hrow List.not_mem_nil⟩
  have hlabels := chat_labels S cfg req tick cooldown
  have hmessage := @chat_message S cfg req ⟨.unbudgeted tick, cooldown⟩
  have hraised := @chat_ne_raised S cfg req ⟨.unbudgeted tick, cooldown⟩ hrefusal
  revert hends hlabels hmessage hraised
  generalize chat S cfg req ⟨.unbudgeted tick, cooldown⟩ = r
  obtain ⟨response | ⟨message, rows, reason⟩ | e | _, s'⟩ := r
  -- an answer: what was posted last was answered, by the provider of the route
  · rintro ⟨before, route, hbefore, provider, result, s, hq, ⟨hbudget, hanswered, htimed⟩, heq⟩
      hlabels _ _
    obtain ⟨p, v, hlast, hanswers, rfl, rfl, hmodel⟩ := hanswered
    rw [serve_unbudgeted S _ route p.provider _ hbudget] at heq
    obtain ⟨rfl, rfl⟩ := Prod.mk.inj heq
    exact @ChatOutcome.served S cfg req (s.clearCooldown S route.1) p v route s.tick
      ⟨htimed, hlabels⟩ hlast hanswers (hbefore.subset (by simp)) hmodel hq.known rfl
  · rintro ⟨rfl, before, hbefore, hunserved⟩ hlabels hmessage _
    obtain rfl := hmessage rfl
    exact .failed ⟨hunserved.timed, hlabels⟩ hunserved.unanswered
  · exact fun _ _ _ hraised => absurd rfl (hraised e)
  · exact False.elim

/-! ### What an answer holds -/

theorem responseDumps_ascii : responseDumps.ensureAscii = false := rfl

/-- A row that can be written: its status is no longer than an integer that the
interpreter prints, and its text has no surrogate. -/
structure Attempt.Reports (row : Attempt) : Prop where
  status : ∀ n, row.status = some n → (natDigits n.natAbs).length ≤ maxIntDigits
  error : ∀ e, row.error = some e → Clean e

theorem encodes_option {α : Type} {o : DumpOpts} {f : α → Json} {x : Option α} :
    Encodes o ((x.map f).getD .null) ↔ ∀ a, x = some a → Encodes o (f a) := by
  cases x with
  | none => exact iff_of_true encodes_null fun _ h => nomatch h
  | some a => simp

theorem encodes_row {row : Attempt}
    (h : ∀ n, row.latencyMs = some n → ∃ x : Binary64, n = x.trunc) :
    Encodes responseDumps row.toJson ↔
      (Clean row.provider ∧ Clean row.upstreamModel) ∧ row.Reports := by
  have hstatus : ∀ n, Encodes responseDumps (Json.int n) ↔
      (natDigits n.natAbs).length ≤ maxIntDigits := fun n => encodes_int
  have hlatency : ∀ n, row.latencyMs = some n →
      (natDigits n.natAbs).length ≤ maxIntDigits := by
    intro n hn
    obtain ⟨x, rfl⟩ := h n hn
    exact encodes_int.mp (@encodes_trunc responseDumps x)
  rw [Attempt.toJson]
  simp (disch := decide) only [encodes_field responseDumps_ascii, encodes_str responseDumps_ascii,
    encodes_option, hstatus]
  constructor
  · rintro ⟨hprovider, hmodel, _, hcode, herror, _⟩
    exact ⟨⟨hprovider, hmodel⟩, hcode, herror⟩
  · rintro ⟨⟨hprovider, hmodel⟩, hcode, herror⟩
    exact ⟨hprovider, hmodel, encodes_bool _, hcode, herror, hlatency,
      encodes_empty responseDumps_ascii⟩

/-- The names of the table of providers, and where they say their energy is from. -/
theorem providers_clean {name : Str} {provider : Provider}
    (h : registry.provider name = some provider) : Clean name ∧ Clean provider.energySource := by
  have htable : (PROVIDERS.all fun p => (p.1.all fun c => c.val < 128) &&
      p.2.energySource.all fun c => c.val < 128) = true := by decide +kernel
  obtain ⟨before, after, hsplit, _⟩ := List.lookup_eq_some_iff.mp h
  have hmem : (name, provider) ∈ PROVIDERS := by
    rw [show PROVIDERS = _ from hsplit]
    simp
  obtain ⟨hname, hsource⟩ := Bool.and_eq_true_iff.mp (List.all_eq_true.mp htable _ hmem)
  exact ⟨clean_of_ascii hname, clean_of_ascii hsource⟩

/-- A route whose names can be encoded. -/
def CleanRoute (route : Route) : Prop := Clean route.1 ∧ Clean route.2

theorem modelRoutes_clean {model : Str} {routes : List Route}
    (h : MODEL_ROUTES.lookup model = some routes) : ∀ r ∈ routes, CleanRoute r := by
  have htable : (MODEL_ROUTES.all fun p => p.2.all fun r =>
      (r.1.all fun c => c.val < 128) && r.2.all fun c => c.val < 128) = true := by decide +kernel
  obtain ⟨before, after, hsplit, _⟩ := List.lookup_eq_some_iff.mp h
  have hmem : (model, routes) ∈ MODEL_ROUTES := by
    rw [hsplit]
    simp
  intro r hr
  obtain ⟨hprov, hup⟩ := Bool.and_eq_true_iff.mp
    (List.all_eq_true.mp (List.all_eq_true.mp htable _ hmem) r hr)
  exact ⟨clean_of_ascii hprov, clean_of_ascii hup⟩

/-- The routes of a name are those of the tables, or the one that the name spells. -/
theorem resolveRoutes_clean (model : Str) :
    (∀ r ∈ registry.resolveRoutes model, CleanRoute r) ∨
      ∃ r, registry.resolveRoutes model = [r] ∧ Clean r.1 ∧ (Clean model → Clean r.2) := by
  have hdefault : ∀ r ∈ (MODEL_ROUTES.lookup DEFAULT_MODEL).get registry.default_known,
      CleanRoute r := modelRoutes_clean (Option.some_get _).symm
  rw [Registry.resolveRoutes, Registry.resolve]
  cases hlookup : registry.modelRoutes.lookup model with
  | some routes => exact .inl (modelRoutes_clean hlookup)
  | none =>
    dsimp only
    split_ifs with hnamed
    · obtain ⟨hfound, hknown⟩ := hnamed
      obtain ⟨provider, hprovider⟩ := Option.isSome_iff_exists.mp hknown
      refine .inr ⟨_, rfl, (providers_clean hprovider).1, ?_⟩
      intro hmodel
      rw [Str.partition_eq_append hfound, clean_append, clean_cons] at hmodel
      exact hmodel.2.2
    · exact .inl hdefault

theorem resolveRoutes_of_clean {model : Str} (h : Clean model) :
    ∀ r ∈ registry.resolveRoutes model, CleanRoute r := by
  rcases resolveRoutes_clean model with hclean | ⟨r, hroutes, hname, hmodel⟩
  · exact hclean
  · rw [hroutes]
    exact List.forall_mem_singleton.mpr ⟨hname, hmodel h⟩

/-- The routes of a call for a model with a clean name, and all the routes of a call when
one of them has a clean model. -/
theorem chatRoutes_clean {settings : EndpointSettings} {req : ChatRequest}
    (h : Clean req.model ∨ ∃ r ∈ (chatRoutes settings.config req).2, Clean r.2) :
    ∀ r ∈ (chatRoutes settings.config req).2, CleanRoute r := by
  revert h
  rw [chatRoutes]
  split_ifs with hauto
  · -- the scorer chooses a name of the table
    intro _
    have hlogical : ([lit "szl-coder", lit "szl-large", lit "szl-fast"].all fun name =>
        name.all fun c => c.val < 128) = true := by decide +kernel
    exact resolveRoutes_of_clean (clean_of_ascii (List.all_eq_true.mp hlogical _
      (settings.ops.scoreComplexity_chosen settings.autoLargeThreshold req.messages)))
  · rintro (h | ⟨r', hr', h⟩)
    · exact resolveRoutes_of_clean h
    · rcases resolveRoutes_clean req.model with hclean | ⟨r, hroutes, hname, _⟩
      · exact hclean
      · have hr' : r' ∈ registry.resolveRoutes req.model := hr'
        show ∀ r ∈ registry.resolveRoutes req.model, CleanRoute r
        rw [hroutes] at hr' ⊢
        obtain rfl := List.mem_singleton.mp hr'
        exact List.forall_mem_singleton.mpr ⟨hname, h⟩

/-! ### The routing block -/

theorem markers_clean {markers : List Str}
    (h : (markers.all fun m => m.all fun c => c.val < 128) = true) {found : List Str}
    (hfound : found ⊆ markers) {label : String}
    (hlabel : ((lit label).all fun c => c.val < 128) = true) :
    Clean (lit label ++ Str.join (lit ",") (found.take 3)) := by
  rw [clean_append, clean_join_iff (clean_of_ascii (by decide))]
  refine ⟨clean_of_ascii hlabel, fun m hm => clean_of_ascii ?_⟩
  exact List.all_eq_true.mp h m (hfound (List.mem_of_mem_take hm))

/-- The signals that name a step, and those before it. -/
theorem clean_signals {c : Prop} [Decidable c] {x y : Binary64} {signals more : List Str}
    (h : ∀ s ∈ signals, Clean s) (hmore : ∀ s ∈ more, Clean s) :
    ∀ s ∈ (if c then (x, signals ++ more) else (y, signals)).2, Clean s := by
  split_ifs
  · exact List.forall_mem_append.mpr ⟨h, hmore⟩
  · exact h

theorem weigh_clean (text : Str) (msgCount : ℕ) {reasoning : List Str}
    (h : reasoning ⊆ reasoningMarkers) :
    ∀ s ∈ (TextOps.weigh text msgCount reasoning).2, Clean s := by
  have hone : ∀ {s : Str}, (s.all fun c => c.val < 128) = true → ∀ t ∈ [s], Clean t :=
    fun hs => List.forall_mem_singleton.mpr (clean_of_ascii hs)
  rw [TextOps.weigh]
  -- the signals of the length, of the depth and of the reasoning words are added in turn
  have hlength : ∀ s ∈ (if 1200 < text.length then
        ((TextOps.cents 30).add (TextOps.cents 35), [lit "very-long-prompt"])
      else if 400 < text.length then
        ((TextOps.cents 30).add (TextOps.cents 20), [lit "long-prompt"])
      else if text.length < 120 then
        ((TextOps.cents 30).sub (TextOps.cents 12), [lit "short-prompt"])
      else (TextOps.cents 30, [])).2, Clean s := by
    split_ifs
    · exact hone (by decide)
    · exact hone (by decide)
    · exact hone (by decide)
    · exact List.forall_mem_nil _
  revert hlength
  generalize (if 1200 < text.length then _ else _ : Binary64 × List Str) = p
  obtain ⟨score, signals⟩ := p
  intro hlength
  dsimp only
  have hdeep := @clean_signals (6 ≤ msgCount) _ (score.add (TextOps.cents 15)) score signals
    [lit "deep-conversation"] hlength (hone (by decide))
  revert hdeep
  generalize (if 6 ≤ msgCount then _ else _ : Binary64 × List Str) = p
  obtain ⟨score, signals⟩ := p
  intro hdeep
  dsimp only
  have hreasons := @clean_signals (reasoning ≠ []) _
    (score.add (Binary64.min (TextOps.cents 30)
      ((TextOps.cents 10).mul (Binary64.ofInt reasoning.length)))) score signals
    [lit "reasoning:" ++ Str.join (lit ",") (reasoning.take 3)] hdeep
    (List.forall_mem_singleton.mpr (markers_clean (by decide) h (by decide)))
  revert hreasons
  generalize (if reasoning ≠ [] then _ else _ : Binary64 × List Str) = p
  obtain ⟨score, signals⟩ := p
  intro hreasons
  exact clean_signals hreasons (hone (by decide))

theorem choose_clean (largeThreshold : Binary64) (isCode : Bool) {codeHits signals : List Str}
    (score : Binary64) (hcode : codeHits ⊆ codeMarkers) (h : ∀ s ∈ signals, Clean s) :
    ∀ s ∈ (TextOps.choose largeThreshold isCode codeHits score signals).2.1, Clean s := by
  rw [TextOps.choose]
  split_ifs
  · exact List.forall_mem_cons.mpr ⟨markers_clean (by decide) hcode (by decide), h⟩
  · exact List.forall_mem_cons.mpr ⟨clean_of_ascii (by decide), h⟩
  · exact h
  · exact h

theorem choose_score (largeThreshold : Binary64) (isCode : Bool) (codeHits : List Str)
    (score : Binary64) (signals : List Str) :
    (TextOps.choose largeThreshold isCode codeHits score signals).1 = score := by
  rw [TextOps.choose]
  split_ifs <;> rfl

/-- The routing block of a call can be encoded. -/
theorem encodes_routing {settings : EndpointSettings} {req : ChatRequest} {block : Json}
    (h : (chatRoutes settings.config req).1 = some block) : Encodes responseDumps block := by
  rw [chatRoutes] at h
  split_ifs at h
  · obtain rfl := Option.some.inj h
    have hchosen := settings.ops.scoreComplexity_chosen settings.autoLargeThreshold req.messages
    -- the block names one of the three logical models
    have hlogical : ([lit "szl-coder", lit "szl-large", lit "szl-fast"].all fun name =>
        name.all fun c => c.val < 128) = true := by decide +kernel
    have hname := clean_of_ascii (List.all_eq_true.mp hlogical _ hchosen)
    -- and a score that was clamped to the unit interval
    have hfinite : (settings.ops.scoreComplexity settings.autoLargeThreshold
        req.messages).1.isFinite = true := by
      show (TextOps.choose _ _ _ (Binary64.max 0 (Binary64.min 1 _)) _).1.isFinite = true
      rw [choose_score]
      exact isFinite_clamp _
    have hsignals : ∀ s ∈ (settings.ops.scoreComplexity settings.autoLargeThreshold
        req.messages).2.1, Clean s :=
      choose_clean _ _ _ (List.filter_subset_self _)
        (weigh_clean _ _ (List.filter_subset_self _))
    simp (disch := decide) only [autoRoutingBlock, encodes_field responseDumps_ascii,
      encodes_str responseDumps_ascii, encodes_arr, List.forall_mem_map]
    exact ⟨clean_of_ascii (by decide), clean_of_ascii (by decide), encodes_float hfinite, hsignals,
      hname, clean_of_all (by decide +kernel), encodes_empty responseDumps_ascii⟩

/-! ### The encoding of an answer -/

/-- Rows that can be written and encoded. The status and the texts of an attempt come from its
provider, and a lone surrogate in one of them cannot be encoded. -/
def Recorded (rows : List Attempt) : Prop := ∀ row ∈ rows, row.Reports

theorem encodes_rows {rows : List Attempt} {routes : List Route} (h : RowsOf routes rows)
    (hroutes : ∀ r ∈ routes, CleanRoute r) :
    Encodes responseDumps (.arr (rows.map Attempt.toJson)) ↔ Recorded rows := by
  rw [encodes_arr, List.forall_mem_map]
  refine forall₂_congr fun row hrow => ?_
  rw [encodes_row (h.timed row hrow)]
  exact and_iff_right (hroutes _ (h.label row hrow))

theorem encodes_cost {model : Str} (h : Clean model) :
    Encodes responseDumps (sovereignCost model) := by
  simp (disch := decide) only [sovereignCost, encodes_field responseDumps_ascii,
    encodes_str responseDumps_ascii]
  exact ⟨encodes_float (by decide +kernel), encodes_bool _, clean_of_ascii (by decide), h,
    clean_of_ascii (by decide), encodes_empty responseDumps_ascii⟩

/-- The provenance of a served call can be encoded when its names can, and its rows. The names
are those of the model and the address of the provider; the other routes are clean if the model
is, as they are named after it. -/
theorem encodes_provenance {S : Surroundings} {routing : Option Json} {route : Route}
    {provider : Provider} {tick : ℕ} {rows : List Attempt} {routes : List Route}
    (hrouting : ∀ r, routing = some r → Encodes responseDumps r)
    (hknown : registry.provider route.1 = some provider)
    (hroutes : Clean route.2 → ∀ r ∈ routes, CleanRoute r) (h : RowsOf routes rows) :
    Encodes responseDumps (.obj (chatProvenance S routing route provider tick rows).toDict) ↔
      Clean route.2 ∧ Clean (provider.baseUrl (S.env tick)) ∧ Recorded rows := by
  obtain ⟨hname, hsource⟩ := providers_clean hknown
  have htail : Clean route.2 → Encodes responseDumps (.obj ((routing.map fun r =>
      (lit "routing", r)).toList ++ [(lit "cost", sovereignCost route.2)])) := by
    intro hmodel
    have hcost : Encodes responseDumps (.obj [(lit "cost", sovereignCost route.2)]) :=
      (encodes_field responseDumps_ascii (by decide)).mpr
        ⟨encodes_cost hmodel, encodes_empty responseDumps_ascii⟩
    cases routing with
    | none => exact hcost
    | some r =>
      exact (encodes_field responseDumps_ascii (by decide)).mpr ⟨hrouting r rfl, hcost⟩
  have htier : Clean (tierOf provider).text := by
    cases tierOf provider <;> exact clean_of_ascii (by decide)
  -- the name of the route is the provider's, which is clean, and that of the model
  have hserved : Clean (route.1 ++ lit ":" ++ route.2) ↔ Clean route.2 := by
    rw [clean_append, clean_append, and_iff_right ⟨hname, clean_of_ascii (by decide)⟩]
  -- the members in the order of the source; only the model, the address and the rows may be unclean
  have hdict : (chatProvenance S routing route provider tick rows).toDict =
      (lit "served_by", .str (route.1 ++ lit ":" ++ route.2)) :: (lit "provider", .str route.1) ::
      (lit "upstream_model", .str route.2) ::
      (lit "base_url", .str (provider.baseUrl (S.env tick))) ::
      (lit "sovereign", .bool provider.sovereign) ::
      (lit "energy_source", .str provider.energySource) ::
      (lit "tier", .str (tierOf provider).text) ::
      (lit "attempts", .arr (rows.map Attempt.toJson)) ::
      ((routing.map fun r => (lit "routing", r)).toList ++
        [(lit "cost", sovereignCost route.2)]) := by
    cases routing <;> rfl
  rw [hdict]
  simp (disch := decide) only [encodes_field responseDumps_ascii, encodes_str responseDumps_ascii,
    hserved]
  constructor
  · rintro ⟨hmodel, _, _, hurl, _, _, _, hrows, _⟩
    exact ⟨hmodel, hurl, (encodes_rows h (hroutes hmodel)).mp hrows⟩
  · rintro ⟨hmodel, hurl, hrows⟩
    exact ⟨hmodel, hname, hmodel, hurl, encodes_bool _, hsource, htier,
      (encodes_rows h (hroutes hmodel)).mpr hrows, htail hmodel⟩

/-- The body of an answer that no route served: it can be encoded when the model that was asked
for can, and the rows that tell of the failures. -/
theorem encodes_failure {model : Str} {rows : List Attempt} {routes : List Route}
    (hroutes : Clean model → ∀ r ∈ routes, CleanRoute r) (h : RowsOf routes rows) :
    Encodes responseDumps (failureContent
      (lit "all routes failed for model '" ++ model ++ lit "'") rows) ↔
      Clean model ∧ Recorded rows := by
  have hmessage : Clean (lit "all routes failed for model '" ++ model ++ lit "'") ↔
      Clean model := by
    rw [clean_append, clean_append, and_iff_right (clean_of_ascii (by decide)),
      and_iff_left (clean_of_ascii (by decide))]
  simp (disch := decide) only [failureContent, encodes_field responseDumps_ascii,
    encodes_str responseDumps_ascii, hmessage]
  constructor
  · rintro ⟨⟨hmodel, _⟩, ⟨hrows, _⟩, _⟩
    exact ⟨hmodel, (encodes_rows h (hroutes hmodel)).mp hrows⟩
  · rintro ⟨hmodel, hrows⟩
    have hempty := encodes_empty responseDumps_ascii
    exact ⟨⟨hmodel, clean_of_ascii (by decide), hempty⟩,
      ⟨(encodes_rows h (hroutes hmodel)).mpr hrows, hempty⟩, hempty⟩

/-! ### The statuses -/

/-- The request ends in a status that the handler chose. -/
def HttpEnd.Chosen (e : HttpEnd) : Prop := ∃ status ∈ [200, 400, 401, 502], e.status? = some status

/-- What a receipt says about the request and the grid can be signed: the model that was asked
for has bytes, and so has what the grid answered. -/
structure Signable (settings : EndpointSettings) (name : Str) : Prop where
  model : Clean name
  grid : ∀ v, settings.gridContext = some v → Encodes canonicalDumps v

/-- What a call leaves can be sent: its rows, and either the answer that the last post got, under
the names of its route and with its receipt, or else the name of the model. -/
def Sends (L : Packages) (S : Surroundings) (settings : EndpointSettings) (name : Str)
    (s : ChatState) : Prop :=
  Recorded s.attempts ∧
    ((∃ p v, (posts s.events).getLast? = some p ∧ p.Answers v ∧
        Encodes responseDumps (.obj (Dict.set (fields v.val) (lit "x_szl_provenance") .null)) ∧
        Clean (payloadModel p.payload) ∧ Clean (p.provider.baseUrl (S.env (s.tick - 1))) ∧
        (L.signs = true → Signable settings name)) ∨
      (∀ p ∈ posts s.events, ∀ v, ¬p.Answers v) ∧ Clean name)

/-- What a request must be like: a call that is let through names its model by a string, and
what the call leaves can be sent. -/
def Answerable (L : Packages) (S : Surroundings) (settings : EndpointSettings)
    (request : HttpRequest) (cooldown : Cooldowns) : Prop :=
  checkAuth (S.env 0) request = true → ∀ body, jsonObject request = .ok body →
    (getMember body "messages").truthy = true →
    ∃ name, requestedModel body = .str name ∧ Sends L S settings name
      (chat S settings.config (chatRequestOf body name) (chatStart cooldown)).2

/-- The members that are passed on do not name the model or the messages. -/
theorem chatRequestOf_refusal (body : Dict) (name : Str) :
    chatRefusal (chatRequestOf body name) none = none := by
  have hown : ∀ key ∈ ownKeys, Dict.get (chatRequestOf body name).extra key = none := by
    intro key hkey
    rw [chatRequestOf, Dict.get_without, if_pos hkey]
  rw [chatRefusal, hown _ (by decide), hown _ (by decide)]
  rfl

/-- A body is accepted, or refused with a chosen status. -/
theorem jsonObject_cases (request : HttpRequest) :
    (∃ body, jsonObject request = .ok body ∧ dumpable plainDumps (.obj body) = true) ∨
      ∃ e, jsonObject request = .error e ∧ e.Chosen := by
  have hrefused : ∀ detail, (HttpEnd.refused 400 detail).Chosen :=
    fun detail => ⟨400, by decide, rfl⟩
  rw [jsonObject]
  cases request.body with
  | none => exact .inr ⟨_, rfl, hrefused _⟩
  | some body =>
    obtain ⟨value, finite, writes⟩ := body
    cases value with
    | obj d => exact .inl ⟨d, rfl, writes⟩
    | _ => exact .inr ⟨_, rfl, hrefused _⟩

/-! ### The encoding of a receipt -/

theorem requestDigest_clean {model digest : Str} {messages : Json}
    (h : requestDigest model messages = .ok digest) : Clean digest := by
  rw [requestDigest] at h
  cases hdump :
    dumps digestDumps (.obj [(lit "model", .str model), (lit "messages", messages)]) with
  | none =>
    rw [hdump] at h
    cases h
  | some text =>
    rw [hdump] at h
    obtain rfl := Except.ok.inj h
    exact Ascii.clean (isHexDigest_lt (sha256Hex_hex _))

theorem encodes_additive {o : DumpOpts} {key : String}
    (hkey : ((lit key).all fun c => c.val < 128) = true) (v : Json) :
    (∀ p ∈ additive key v, Clean p.1 ∧ Encodes o p.2) ↔ Encodes o v := by
  have hone : ∀ w : Json, (∀ p ∈ [(lit key, w)], Clean p.1 ∧ Encodes o p.2) ↔ Encodes o w := by
    intro w
    rw [List.forall_mem_singleton]
    exact and_iff_right (clean_of_ascii hkey)
  cases v with
  | null => exact iff_of_true (List.forall_mem_nil _) encodes_null
  | _ => exact hone _

theorem encodes_observer {o : DumpOpts} (hascii : o.ensureAscii = false) (env : Env)
    (name : Str) : Encodes o (observer env name) ↔ Clean name := by
  have hmode : Clean (if routerToken env = [] then lit "open" else lit "bearer") := by
    split_ifs <;> exact clean_of_ascii (by decide)
  simp (disch := decide) only [observer, encodes_field hascii, encodes_str hascii]
  constructor
  · exact fun h => h.2.2.1
  · exact fun h => ⟨clean_of_ascii (by decide), hmode, h, clean_of_all (by decide +kernel),
      encodes_empty hascii⟩

/-- The body of a receipt can be encoded when its parts can. -/
theorem encodes_buildBody {o : DumpOpts} (hascii : o.ensureAscii = false) {env : Env}
    {prov : Dict} {name digest : Str} {usage grid : Json} (hdigest : Clean digest)
    (husage : Encodes o usage) (hprov : Encodes o (.obj prov)) :
    Encodes o (buildBody prov name usage digest (getMember prov "routing")
      (getMember prov "cost") (observer env name) grid) ↔ Clean name ∧ Encodes o grid := by
  have hmember : ∀ key, Encodes o (getMember prov key) := fun key => encodes_get hascii hprov _
  rw [buildBody, encodes_obj hascii, List.forall_mem_append, List.forall_mem_append,
    List.forall_mem_append, List.forall_mem_append, encodes_additive (by decide),
    encodes_additive (by decide), encodes_additive (by decide), encodes_additive (by decide),
    encodes_observer hascii, ← encodes_obj hascii]
  simp (disch := decide) only [encodes_field hascii, encodes_str hascii]
  constructor
  · exact fun h => ⟨h.1.2, h.2⟩
  · rintro ⟨hname, hgrid⟩
    exact ⟨⟨⟨⟨⟨hmember _, hmember _, hmember _, hmember _, clean_of_ascii (by decide), hname,
      hmember _, husage, hdigest, encodes_empty hascii⟩, hmember _⟩, hmember _⟩, hname⟩, hgrid⟩

/-- The body of a receipt can be written when the answer can be. -/
theorem dumpable_buildBody {settings : EndpointSettings} {env : Env} {name digest : Str}
    {result prov : Dict} (hresult : dumpable responseDumps (.obj result) = true)
    (hprov : dumpable responseDumps (.obj prov) = true) :
    dumpable responseDumps (buildBody prov name (getMember result "usage") digest
      (getMember prov "routing") (getMember prov "cost") (observer env name)
      (settings.gridContext.getD .null)) = true := by
  -- a member that is left out where it is null
  have hadditive : ∀ key v, dumpable responseDumps v = true →
      ∀ p ∈ additive key v, dumpable responseDumps p.2 = true := by
    intro key v hv
    cases v with
    | null => exact List.forall_mem_nil _
    | _ => exact List.forall_mem_singleton.mpr hv
  have hgrid : dumpable responseDumps (settings.gridContext.getD .null) = true := by
    cases hcontext : settings.gridContext with
    | none => rfl
    | some v => exact settings.grid_finite v hcontext
  have hmember : ∀ key, dumpable responseDumps (getMember prov key) = true :=
    fun key => dumpable_get hprov _
  rw [buildBody, dumpable_obj, List.forall_mem_append, List.forall_mem_append,
    List.forall_mem_append, List.forall_mem_append]
  refine ⟨⟨⟨⟨?_, hadditive _ _ (hmember _)⟩, hadditive _ _ (hmember _)⟩, ?_⟩,
    hadditive _ _ hgrid⟩
  · simp only [List.forall_mem_cons]
    exact ⟨hmember _, hmember _, hmember _, hmember _, rfl, rfl, hmember _, dumpable_get hresult _,
      rfl, List.forall_mem_nil _⟩
  · exact hadditive _ _ rfl

section

variable {L : Packages} (hL : L.Documented)

include hL

theorem respond_iff {status : ℕ} (hstatus : status ∈ [200, 400, 401, 502]) {content : Json}
    {receipt : Option Json} :
    (respond L status content receipt).Chosen ↔ Encodes responseDumps content := by
  rw [← encodes_iff, ← hL.render, respond]
  cases hrender : L.render content with
  | error e => exact iff_of_false (fun ⟨_, _, h⟩ => nomatch h) fun ⟨_, h⟩ => nomatch h
  | ok body => exact iff_of_true ⟨status, hstatus, rfl⟩ ⟨body, rfl⟩

/-- The receipt of an answer that can be sent is signed when what it says about the request and
the grid can be. -/
theorem sign_iff (settings : EndpointSettings) (env : Env) (name : Str) {digest : Str}
    {result prov : Dict} (hdigest : Clean digest)
    (hresult : Encodes responseDumps (.obj result)) (hprov : Encodes responseDumps (.obj prov)) :
    (∃ envelope, L.sign (buildBody prov name (getMember result "usage") digest
      (getMember prov "routing") (getMember prov "cost") (observer env name)
      (settings.gridContext.getD .null)) = .ok envelope) ↔
      (L.signs = true → Signable settings name) := by
  have hcongr : ∀ v, Encodes responseDumps v ↔ Encodes canonicalDumps v :=
    encodes_congr rfl rfl rfl
  have husage : Encodes responseDumps (getMember result "usage") :=
    encodes_get responseDumps_ascii hresult _
  have hgrid : Encodes canonicalDumps (settings.gridContext.getD .null) ↔
      ∀ v, settings.gridContext = some v → Encodes canonicalDumps v := by
    cases settings.gridContext with
    | none => simp [encodes_null]
    | some v => simp
  rw [hL.sign _ (dumpable_buildBody hresult.1 hprov.1), encodes_iff,
    encodes_buildBody rfl hdigest ((hcongr _).mp husage) ((hcongr _).mp hprov), hgrid]
  exact imp_congr_right fun _ => ⟨fun h => ⟨h.1, h.2⟩, fun h => ⟨h.model, h.grid⟩⟩

theorem respondServed_iff {settings : EndpointSettings} {env : Env} {name : Str} {messages : Json}
    (hmessages : dumpable plainDumps messages = true) {d prov : Dict} :
    (respondServed L settings env name messages
      (Dict.set d (lit "x_szl_provenance") (.obj prov))).Chosen ↔
      Encodes responseDumps (.obj (Dict.set d (lit "x_szl_provenance") (.obj prov))) ∧
        (L.signs = true → Signable settings name) := by
  have hdigest : dumpable digestDumps (.obj [(lit "model", .str name), (lit "messages", messages)])
      = true := by
    rw [dumpable_obj, List.forall_mem_cons, List.forall_mem_singleton]
    have hnan : digestDumps.allowNaN = plainDumps.allowNaN := rfl
    exact ⟨rfl, (dumpable_congr hnan messages).trans hmessages⟩
  have hprov : fields ((Dict.get (Dict.set d (lit "x_szl_provenance") (.obj prov))
      (lit "x_szl_provenance")).getD .null) = prov := by
    rw [Dict.get_set_self]
    rfl
  -- the envelope is there exactly where the body can be encoded as canonical JSON
  have hsigned {digest : Str} (hdigest : requestDigest name messages = .ok digest)
      (hresult : Encodes responseDumps
        (.obj (Dict.set d (lit "x_szl_provenance") (.obj prov)))) :=
    sign_iff hL settings env name (requestDigest_clean hdigest) hresult
      ((encodes_set responseDumps_ascii).mp hresult).2
  obtain ⟨digest, hdigest⟩ : ∃ digest, requestDigest name messages = .ok digest := by
    rw [requestDigest, dumps, if_pos hdigest]
    exact ⟨_, rfl⟩
  rw [respondServed, hdigest, hprov]
  dsimp only
  constructor
  -- signing comes first, and what it raises leaves the handler
  · cases hsign : L.sign _ with
    | error e =>
      rintro ⟨_, _, h⟩
      cases h
    | ok envelope =>
      intro h
      have hresult := (respond_iff hL (by decide)).mp h
      exact ⟨hresult, (hsigned hdigest hresult).mp ⟨envelope, hsign⟩⟩
  · rintro ⟨hresult, hsignable⟩
    obtain ⟨envelope, hsign⟩ := (hsigned hdigest hresult).mpr hsignable
    rw [hsign]
    exact (respond_iff hL (by decide)).mpr hresult

/-- A call of the endpoint ends in a chosen status when what the call leaves can be sent. -/
theorem sends_iff {S : Surroundings} {settings : EndpointSettings} {req : ChatRequest}
    {messages : Json} {r : CallEnd × ChatState} (hmessages : dumpable plainDumps messages = true)
    (h : ChatOutcome S settings.config req r) :
    (respondChat L S settings req.model messages r).Chosen ↔
      Sends L S settings req.model r.2 := by
  cases h with
  -- the answer of the last post is what is written, and signed if the library is there
  | @served s p v route tick rows last answers mem model known tick_eq =>
    have hroutes : Clean route.2 → ∀ r ∈ (chatRoutes settings.config req).2, CleanRoute r :=
      fun hmodel => chatRoutes_clean (.inr ⟨route, mem, hmodel⟩)
    rw [respondChat, respondServed_iff hL hmessages, encodes_set responseDumps_ascii,
      encodes_provenance (fun _ => encodes_routing) known hroutes rows, ← model, Sends, tick_eq]
    constructor
    · rintro ⟨⟨hbody, hmodel, hurl, hrows⟩, hsignable⟩
      exact ⟨hrows, .inl ⟨p, v, last, answers, hbody, hmodel, hurl, hsignable⟩⟩
    · rintro ⟨hrows, hsent⟩
      have hmem : p ∈ posts s.events := List.mem_of_getLast? last
      rcases hsent with ⟨p', v', hlast', hanswers', hbody, hmodel, hurl, hsignable⟩ | ⟨hnone, _⟩
      · obtain rfl := Option.some.inj (last.symm.trans hlast')
        obtain rfl := Reply.json.inj (answers.1.symm.trans hanswers'.1)
        exact ⟨⟨hbody, hmodel, hurl, hrows⟩, hsignable⟩
      · exact absurd answers (hnone p hmem v)
  -- without an answer the body names the model and shows the rows
  | @failed s reason rows unanswered =>
    rw [respondChat, respond_iff hL (by decide),
      encodes_failure (fun h => chatRoutes_clean (.inl h)) rows, Sends]
    constructor
    · rintro ⟨hname, hrows⟩
      exact ⟨hrows, .inr ⟨unanswered, hname⟩⟩
    · rintro ⟨hrows, ⟨p, v, hlast, hanswers, _⟩ | ⟨_, hname⟩⟩
      · exact absurd hanswers (unanswered p (List.mem_of_getLast? hlast) v)
      · exact ⟨hname, hrows⟩

end

/-- The packages, without signatures. -/
def unsigned : Packages where
  render v :=
    match (dumps responseDumps v).bind utf8 with
    | some body => .ok body
    | none => .error (valueError "Out of range float values are not JSON compliant")
  signs := false
  sign _ := .ok none

theorem unsigned_documented : unsigned.Documented where
  render v := by
    show (∃ body, (match (dumps responseDumps v).bind utf8 with
      | some body => .ok body
      | none => .error (valueError "Out of range float values are not JSON compliant")) =
      Except.ok body) ↔ _
    cases (dumps responseDumps v).bind utf8 with
    | none => exact iff_of_false (fun ⟨_, h⟩ => nomatch h) fun h => nomatch h
    | some body => exact iff_of_true ⟨body, rfl⟩ rfl
  sign _ _ := iff_of_true ⟨none, rfl⟩ fun h => nomatch h

def plainSettings : EndpointSettings :=
  ⟨⟨3, 0, 0⟩, 0, 0, ⟨fun _ => [], id⟩, none, fun _ h => nomatch h⟩

/-- A request for a model. -/
def asks (model : Json) (hfinite : allFinite model = true)
    (hwrites : dumpable plainDumps model = true) : HttpRequest where
  authorization := none
  body := some
    { value := .obj [(lit "model", model), (lit "messages", .str (lit "hi"))]
      finite := by
        show (allFinite model && _) = true
        rw [hfinite]
        rfl
      writes := by
        rw [dumpable_obj, List.forall_mem_cons, List.forall_mem_singleton]
        exact ⟨hwrites, rfl⟩ }

end SzlRouter
