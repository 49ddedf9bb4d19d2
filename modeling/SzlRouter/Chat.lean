/-
Chat completions (`chat` of `szl_router/core.py`).

The walk visits the routes in order.  A route is skipped, or it is tried and then
serves, fails, or ends the walk.
-/
import SzlRouter.RouteWalk
import SzlRouter.AutoScorer

open Py

namespace SzlRouter

/-! ### The shape of an answer -/

/-- Whether `d.get(k)` is not `None` and fails the test `p`. -/
def presentBut (d : Dict) (k : Str) (p : Json → Bool) : Bool :=
  present d k && !p ((Dict.get d k).getD .null)

def isStr : Json → Bool
  | .str _ => true
  | _ => false

/-- A call object: a non-empty object. -/
def isCall : Json → Bool
  | .obj d => !d.isEmpty
  | _ => false

def isCallList : Json → Bool
  | .arr calls => calls.all isCall
  | _ => false

/-- The output fields of an assistant message. -/
def outputFields : List Str :=
  [lit "content", lit "tool_calls", lit "function_call", lit "refusal", lit "audio"]

/-- What is wrong with one choice. -/
def choiceError (choice : Json) : Option String :=
  match choice.get (lit "message") with
  | some (.obj message) =>
    if Dict.get message (lit "role") ≠ some (.str (lit "assistant")) then
      some "invalid chat response: every choice must contain an assistant message"
    else if presentBut message (lit "content") isStr then
      some "invalid chat response: message content must be a string or null"
    else if outputFields.all fun key => (Dict.get message key).isNone then
      some "invalid chat response: assistant message has no output field"
    else if presentBut message (lit "tool_calls") isCallList then
      some "invalid chat response: tool_calls must contain call objects"
    else if presentBut message (lit "refusal") isStr then
      some "invalid chat response: refusal must be a string or null"
    else if presentBut message (lit "function_call") Json.isObj ||
        presentBut message (lit "audio") Json.isObj then
      some "invalid chat response: function_call and audio must be objects"
    else none
  | _ => some "invalid chat response: every choice must contain an assistant message"

/-- `_chat_response_error`. -/
def chatResponseError : Json → Option String
  | .obj d =>
    if present d (lit "error") then some "invalid chat response: upstream returned an error"
    else
      match Dict.get d (lit "choices") with
      | some (.arr (c :: cs)) => (c :: cs).findSome? choiceError
      | _ => some "invalid chat response: choices must be a non-empty array"
  | _ => some "invalid chat response: expected an object"

/-! ### The call -/

/-- The settings a call reads from the environment, and the tables. -/
structure RouterConfig where
  registry : Registry
  retry : RetryConfig
  /-- `_cooldown_seconds()`. -/
  cooldownSeconds : Binary64
  /-- `SZL_AUTO_LARGE_THRESHOLD`. -/
  autoLargeThreshold : Binary64
  ops : TextOps

structure ChatRequest where
  model : Str
  messages : Json
  temperature : Option Json := none
  maxTokens : Option Json := none
  timeout : Binary64
  extra : Dict := []

structure ChatState extends CallState where
  cooldown : Cooldowns

namespace ChatState

variable (S : Surroundings)

/-- The cooldown table as the next holder of its lock finds it. -/
def found (s : ChatState) : Cooldowns := S.cooldowns s.tick s.cooldown

/-- One step later, with a cooldown table. -/
def withCooldown (s : ChatState) (table : Cooldowns) : ChatState :=
  { s with toCallState := s.toCallState.next, cooldown := table }

/-- `_cooldown_remaining`. -/
def cooldownRemaining (name : Str) (s : ChatState) : Binary64 × ChatState :=
  let table := s.found S
  (Binary64.max 0 (((table name).getD 0).sub (S.time s.tick)), s.withCooldown table)

/-- `_set_cooldown`. -/
def setCooldown (cfg : RouterConfig) (name : Str) (s : ChatState) : ChatState :=
  if cfg.cooldownSeconds ≤ 0 then s
  else
    s.withCooldown
      (Function.update (s.found S) name (some ((S.time s.tick).add cfg.cooldownSeconds)))

/-- `_clear_cooldown`. -/
def clearCooldown (name : Str) (s : ChatState) : ChatState :=
  s.withCooldown (Function.update (s.found S) name none)

/-- `_warm_candidate_later`. -/
def warmCandidateLater (cfg : RouterConfig) : List Route → ChatState → Bool × ChatState
  | [], s => (false, s)
  | r :: routes, s =>
    match cfg.registry.provider r.1 with
    | none => warmCandidateLater cfg routes s
    | some p =>
      if p.available (S.env s.tick) ∧ tierOf p = .sovereign then
        let (left, s) := s.cooldownRemaining S r.1
        if left ≤ 0 then (true, s) else warmCandidateLater cfg routes s
      else warmCandidateLater cfg routes s

end ChatState

/-- `"%.0f" % x` of a finite number that is not negative. -/
def fixed0 : Binary64 → Str
  | .fin _ x => natDigits (Binary64.divHalfEven x.val Binary64.one)
  | .inf _ => lit "inf"
  | .nan => lit "nan"

/-- A row for a route that is not dispatched to. -/
def skipRow (route : Route) (error : Str) : Attempt :=
  ⟨route.1, route.2, false, none, some error, none⟩

def unavailableError : Str := lit "provider unavailable (no key/url)"

def cooldownError (left : Binary64) : Str :=
  lit "cooldown-skip (" ++ fixed0 left ++
    lit "s left after recent failure; warm fallback available)"

/-- The payload of a chat request for an upstream model. -/
def chatPayload (req : ChatRequest) (model : Str) : Dict :=
  let payload : Dict := [(lit "model", .str model), (lit "messages", req.messages)]
  let payload := (req.temperature.map (Dict.set payload (lit "temperature"))).getD payload
  let payload := (req.maxTokens.map (Dict.set payload (lit "max_tokens"))).getD payload
  Dict.update payload req.extra

/-- `_cost_detail` of a sovereign provider. -/
def sovereignCost (model : Str) : Json :=
  .obj [(lit "amount_usd", .num (.float 0)), (lit "estimated", .bool false),
    (lit "basis", .str (lit
      "sovereign-owned-metal; no vendor charge; electricity not metered here")),
    (lit "model", .str model), (lit "tier", .str Tier.sovereign.text)]

/-- Where a visit of a route leaves the walk. -/
inductive Visit
  | goOn
  | stop
  | served (response : Dict)
  | diverged

section

variable (S : Surroundings) (cfg : RouterConfig) (req : ChatRequest) (routing : Option Json)

/-- The retries and the check of a route, with the cooldown table as it is. -/
def ChatState.try (route : Route) (provider : Provider) (s : ChatState) : RouteEnd × ChatState :=
  let (r, c) := tryRoute S cfg.retry .chat route provider (chatPayload req route.2) req.timeout
    chatResponseError s.toCallState
  (r, { s with toCallState := c })

/-- The end of a try that served: the budget and the cooldown are settled, and the
answer gets its provenance. -/
def ChatState.serve (route : Route) (provider : Provider) (result : Dict) (s : ChatState) :
    Dict × ChatState :=
  let s := { s with toCallState := s.toCallState.markSuccess S }
  let prov := { servedProvenance route provider (S.env s.tick) s.attempts with
    routing := routing, cost := some (sovereignCost route.2) }
  let (prov, c) := s.toCallState.budgetFields S prov
  let s := ({ s with toCallState := c } : ChatState).clearCooldown S route.1
  (Dict.set result (lit "x_szl_provenance") (.obj prov.toDict), s)

/-- A route that is qualified and not cooling is tried. -/
def ChatState.qualified (route : Route) (provider : Provider) (s : ChatState) :
    Visit × ChatState :=
  match s.try S cfg req route provider with
  | (.stopped, s) => (.stop, s)
  | (.diverged, s) => (.diverged, s)
  | (.failed, s) =>
    let s := s.setCooldown S cfg route.1
    let (terminal, c) := s.toCallState.readTerminal S
    (if terminal.isSome then .stop else .goOn, { s with toCallState := c })
  | (.rejected, s) => (.goOn, s.setCooldown S cfg route.1)
  | (.served result, s) =>
    let (response, s) := s.serve S routing route provider result
    (.served response, s)

/-- A skipped route leaves a row. -/
def ChatState.skip (route : Route) (error : Str) (s : ChatState) : ChatState :=
  { s with toCallState := s.toCallState.row (skipRow route error) }

/-- A qualified route that is cooling is skipped while a warm one remains. -/
def ChatState.cooled (route : Route) (later : List Route) (provider : Provider)
    (s : ChatState) : Visit × ChatState :=
  let (left, s) := s.cooldownRemaining S route.1
  if (0 : Binary64) < left then
    let (warm, s) := s.warmCandidateLater S cfg later
    if warm then (.goOn, s.skip route (cooldownError left))
    else s.qualified S cfg req routing route provider
  else s.qualified S cfg req routing route provider

/-- One turn of the route loop, with the routes that are left after it. -/
def ChatState.visit (route : Route) (later : List Route) (s : ChatState) : Visit × ChatState :=
  match cfg.registry.provider route.1 with
  | none => (.goOn, s.skip route unavailableError)
  | some provider =>
    if provider.available (S.env s.tick) = false then (.goOn, s.skip route unavailableError)
    else
      match tierOf provider with
      | .unqualifiedGrid =>
        (.goOn, s.skip route (lit "pricing/quota unqualified; grid route disabled"))
      | .paidGrid =>
        (.goOn, s.skip route (lit "pricing/reservation unqualified; paid route disabled"))
      | .sovereign => s.cooled S cfg req routing route later provider

/-- The route loop. -/
def ChatState.walk : List Route → ChatState → Visit × ChatState
  | [], s => (.stop, s)
  | route :: later, s =>
    let (terminal, c) := s.toCallState.readTerminal S
    let s := { s with toCallState := c }
    if terminal.isSome then (.stop, s)
    else
      match s.visit S cfg req routing route later with
      | (.goOn, s) => walk later s
      | (.stop, s) => (.stop, s)
      | (.served response, s) => (.served response, s)
      | (.diverged, s) => (.diverged, s)

end

/-- How `chat` ends. -/
inductive CallEnd
  | response (body : Dict)
  /-- `RouterError`. -/
  | routerError (message : Str) (attempts : List Attempt) (reason : Option TerminalReason)
  /-- Another exception. -/
  | raised (e : Failure)
  | diverged

/-- The routing block and the routes of a model. -/
def chatRoutes (cfg : RouterConfig) (req : ChatRequest) : Option Json × List Route :=
  if req.model = AUTO_MODEL then
    let (score, signals, chosen) := cfg.ops.scoreComplexity cfg.autoLargeThreshold req.messages
    (some (autoRoutingBlock score signals chosen), cfg.registry.resolveRoutes chosen)
  else (none, cfg.registry.resolveRoutes req.model)

/-- What is checked before the routes. -/
def chatRefusal (req : ChatRequest) (budget : Option RequestBudget) : Option Failure :=
  if (Dict.get req.extra (lit "model")).isSome ∨ (Dict.get req.extra (lit "messages")).isSome then
    some (valueError "chat extra cannot override model or messages")
  else
    match budget with
    | none => none
    | some _ =>
      match RequestBudget.validateCallerTimeout req.timeout with
      | .error (.valueError message) => some (valueError message)
      | _ => none

/-- `chat`. -/
def chat (S : Surroundings) (cfg : RouterConfig) (req : ChatRequest) (s : ChatState) :
    CallEnd × ChatState :=
  match chatRefusal req s.budget with
  | some e => (.raised e, s)
  | none =>
    let (routing, routes) := chatRoutes cfg req
    match s.walk S cfg req routing routes with
    | (.served response, s) => (.response response, s)
    | (.diverged, s) => (.diverged, s)
    | (_, s) =>
      let (reason, c) := closeWalk S s.toCallState
      (.routerError (lit "all routes failed for model '" ++ req.model ++ lit "'") c.attempts reason,
        { s with toCallState := c })

/-! ### What a walk keeps -/

namespace ChatState

section

variable (S : Surroundings) (cfg : RouterConfig)

theorem withCooldown_same (s : ChatState) (table : Cooldowns) :
    s.toCallState.Same (s.withCooldown table).toCallState :=
  ⟨Nat.le_succ _, rfl, rfl, rfl⟩

theorem setCooldown_same (name : Str) (s : ChatState) :
    s.toCallState.Same (s.setCooldown S cfg name).toCallState := by
  rw [setCooldown]
  split_ifs
  · exact .refl _
  · exact s.withCooldown_same _

theorem warmCandidateLater_same (routes : List Route) (s : ChatState) :
    s.toCallState.Same (s.warmCandidateLater S cfg routes).2.toCallState := by
  induction routes generalizing s with
  | nil => exact .refl _
  | cons r routes ih =>
    rw [warmCandidateLater]
    cases cfg.registry.provider r.1 with
    | none => exact ih s
    | some p =>
      dsimp only
      have hcool := s.withCooldown_same (s.found S)
      split_ifs
      · exact hcool
      · exact hcool.trans (ih _)
      · exact ih s

end

/-- An answer is the body of the try under the provenance of its route. -/
theorem serve_cases (S : Surroundings) (routing : Option Json) (route : Route)
    (provider : Provider) (result : Dict) (s : ChatState) :
    ∃ prov tick s', s.serve S routing route provider result =
        (Dict.set result (lit "x_szl_provenance") (.obj (Provenance.toDict prov)), s') ∧
      prov.Names route provider (S.env tick) s.attempts ∧ s'.attempts = s.attempts ∧
      s'.events = s.events := by
  have hattempts := s.toCallState.markSuccess_attempts S
  refine ⟨_, (s.toCallState.markSuccess S).tick, _, rfl, Provenance.Names.budgetFields
    ⟨rfl, rfl, rfl, rfl, rfl, rfl, rfl, hattempts⟩ S _, ?_, ?_⟩
  · exact (CallState.budgetFields_attempts S _ {}).trans hattempts
  · exact (CallState.budgetFields_events S _ {}).trans (s.toCallState.markSuccess_events S)

/-- A route that the walk may try: its provider is known, available and sovereign. -/
structure Qualifies (S : Surroundings) (cfg : RouterConfig) (route : Route)
    (provider : Provider) : Prop where
  known : cfg.registry.provider route.1 = some provider
  available : ∃ tick, provider.available (S.env tick) = true
  sovereign : provider.sovereign = true

/-- The try of a route for a chat request. -/
abbrev tryChat (S : Surroundings) (cfg : RouterConfig) (req : ChatRequest) (route : Route)
    (provider : Provider) (s : CallState) : RouteEnd × CallState :=
  tryRoute S cfg.retry .chat route provider (chatPayload req route.2) req.timeout
    chatResponseError s

/-- The tries keep `P`, which may depend on the routes seen so far, or serve and
establish `R`. -/
structure TryRule (S : Surroundings) (cfg : RouterConfig) (req : ChatRequest)
    (P : List Route → CallState → Prop)
    (R : List Route → Route → Provider → Dict → CallState → Prop) : Prop where
  quiet : ∀ seen, Quiet S (P seen)
  pass : ∀ {seen : List Route} {route : Route} {s : CallState}, P seen s → P (seen ++ [route]) s
  tries : ∀ {seen : List Route} {route : Route} {provider : Provider} {s : CallState},
    Qualifies S cfg route provider → P seen s →
    match tryChat S cfg req route provider s with
    | (.served result, s') => R seen route provider result s'
    | (_, s') => P (seen ++ [route]) s'

/-- A response that came out of a served try of the route. -/
def Served (S : Surroundings) (cfg : RouterConfig) (routing : Option Json)
    (R : List Route → Route → Provider → Dict → CallState → Prop) (seen : List Route)
    (route : Route) (response : Dict) (s' : ChatState) : Prop :=
  ∃ provider result, ∃ s : ChatState, Qualifies S cfg route provider ∧
    R seen route provider result s.toCallState ∧
    (response, s') = s.serve S routing route provider result

/-- What is known at the end of the visit of a route. -/
def VisitEnds (S : Surroundings) (cfg : RouterConfig) (routing : Option Json)
    (P : List Route → CallState → Prop)
    (R : List Route → Route → Provider → Dict → CallState → Prop) (seen : List Route)
    (route : Route) : Visit × ChatState → Prop
  | (.served response, s') => Served S cfg routing R seen route response s'
  | (.diverged, _) => False
  | (_, s') => P (seen ++ [route]) s'.toCallState

/-- What is known at the end of a walk: either `P` holds of the routes that were seen, or
a route after them served. -/
def WalkEnds (S : Surroundings) (cfg : RouterConfig) (routing : Option Json)
    (P : List Route → CallState → Prop)
    (R : List Route → Route → Provider → Dict → CallState → Prop) (routes : List Route) :
    Visit × ChatState → Prop
  | (.served response, s') => ∃ before route, before ++ [route] <+: routes ∧
      Served S cfg routing R before route response s'
  | (.diverged, _) => False
  | (_, s') => ∃ before, before <+: routes ∧ P before s'.toCallState

section

variable {S : Surroundings} {cfg : RouterConfig} {req : ChatRequest} {routing : Option Json}
  {P : List Route → CallState → Prop}
  {R : List Route → Route → Provider → Dict → CallState → Prop}
  (rule : TryRule S cfg req P R)

include rule

theorem TryRule.qualified {seen : List Route} {route : Route} {provider : Provider}
    (hq : Qualifies S cfg route provider) {s : ChatState} (h : P seen s.toCallState) :
    VisitEnds S cfg routing P R seen route (s.qualified S cfg req routing route provider) := by
  have htry := rule.tries hq h
  have hends := tryRoute_terminates S cfg.retry .chat route provider (chatPayload req route.2)
    req.timeout chatResponseError s.toCallState
  rw [ChatState.qualified, ChatState.try]
  revert htry hends
  dsimp only [tryChat]
  generalize tryRoute S cfg.retry .chat route provider _ _ _ _ = r
  obtain ⟨_ | _ | _ | result | _, c⟩ := r
  · exact fun htry _ => htry
  · intro htry _
    have hterm := (rule.quiet _).readTerminal
      ((rule.quiet _).same (setCooldown_same S cfg route.1 { s with toCallState := c }) htry)
    dsimp only
    split_ifs <;> exact hterm
  · exact fun htry _ =>
      (rule.quiet _).same (setCooldown_same S cfg route.1 { s with toCallState := c }) htry
  · exact fun htry _ => ⟨provider, result, { s with toCallState := c }, hq, htry, rfl⟩
  · exact fun _ hends => absurd rfl hends

theorem TryRule.skip {seen : List Route} {route : Route} {error : Str} {s : ChatState}
    (h : P seen s.toCallState) :
    VisitEnds S cfg routing P R seen route (.goOn, s.skip route error) :=
  rule.pass ((rule.quiet seen).skip rfl rfl h)

theorem TryRule.cooled {seen : List Route} {route : Route} {provider : Provider}
    (hq : Qualifies S cfg route provider) (later : List Route) {s : ChatState}
    (h : P seen s.toCallState) :
    VisitEnds S cfg routing P R seen route
      (s.cooled S cfg req routing route later provider) := by
  have hcool : P seen (s.cooldownRemaining S route.1).2.toCallState :=
    (rule.quiet seen).same (s.withCooldown_same (s.found S)) h
  have hwarm := (rule.quiet seen).same (warmCandidateLater_same S cfg later _) hcool
  rw [ChatState.cooled]
  dsimp only
  split_ifs
  · exact rule.skip hwarm
  · exact rule.qualified hq hwarm
  · exact rule.qualified hq hcool

theorem TryRule.visit {seen : List Route} (route : Route) (later : List Route) {s : ChatState}
    (h : P seen s.toCallState) :
    VisitEnds S cfg routing P R seen route (s.visit S cfg req routing route later) := by
  rw [ChatState.visit]
  cases hknown : cfg.registry.provider route.1 with
  | none => exact rule.skip h
  | some provider =>
    dsimp only
    split_ifs with havailable
    · exact rule.skip h
    · cases htier : tierOf provider with
      | unqualifiedGrid => exact rule.skip h
      | paidGrid => exact rule.skip h
      | sovereign =>
        exact rule.cooled ⟨hknown, ⟨s.tick, by simpa using havailable⟩,
          tierOf_eq_sovereign.mp htier⟩ later h

/-- The walk from a point where some routes were seen. -/
theorem TryRule.walk_from (seen routes : List Route) {s : ChatState}
    (h : P seen s.toCallState) :
    WalkEnds S cfg routing P R (seen ++ routes) (s.walk S cfg req routing routes) := by
  induction routes generalizing seen s with
  | nil => exact ⟨seen, List.prefix_append _ _, h⟩
  | cons route later ih =>
    have hterm : P seen (s.toCallState.readTerminal S).2 := (rule.quiet seen).readTerminal h
    -- the routes that were seen grow by one from visit to visit
    have hsplit : seen ++ route :: later = (seen ++ [route]) ++ later := by simp
    have hseen : seen ++ [route] <+: seen ++ route :: later := ⟨later, hsplit.symm⟩
    rw [ChatState.walk]
    dsimp only
    split_ifs
    · exact ⟨seen, List.prefix_append _ _, hterm⟩
    · have hvisit : VisitEnds S cfg routing P R seen route _ := rule.visit route later
        (s := { s with toCallState := (s.toCallState.readTerminal S).2 }) hterm
      revert hvisit
      generalize ChatState.visit S cfg req routing route later _ = v
      obtain ⟨_ | _ | response | _, s'⟩ := v
      · exact fun hP => hsplit ▸ ih (seen ++ [route]) hP
      · exact fun hP => ⟨_, hseen, hP⟩
      · exact fun hserved => ⟨seen, route, hseen, hserved⟩
      · exact id

/-- What the tries keep holds after the walk, and a served response comes from a try. -/
theorem TryRule.walk (routing : Option Json) (routes : List Route) {s : ChatState}
    (h : P [] s.toCallState) :
    WalkEnds S cfg routing P R routes (s.walk S cfg req routing routes) :=
  rule.walk_from [] routes h

end

end ChatState

/-! ### How a call ends -/

/-- What is known at the end of a call whose tries follow a rule. -/
def ChatEnds (S : Surroundings) (cfg : RouterConfig) (req : ChatRequest)
    (P : List Route → CallState → Prop)
    (R : List Route → Route → Provider → Dict → CallState → Prop) : CallEnd × ChatState → Prop
  | (.response response, s') => ∃ before route,
      before ++ [route] <+: (chatRoutes cfg req).2 ∧
      ChatState.Served S cfg (chatRoutes cfg req).1 R before route response s'
  | (.routerError _ attempts _, s') => attempts = s'.attempts ∧
      ∃ before, before <+: (chatRoutes cfg req).2 ∧ P before s'.toCallState
  | (.raised _, s') => P [] s'.toCallState
  | (.diverged, _) => False

/-- A chat call follows the rule of its tries. -/
theorem ChatState.TryRule.chat {S : Surroundings} {cfg : RouterConfig} {req : ChatRequest}
    {P : List Route → CallState → Prop}
    {R : List Route → Route → Provider → Dict → CallState → Prop}
    {s : ChatState}
    (rule : chatRefusal req s.budget = none → TryRule S cfg req P R) (h : P [] s.toCallState) :
    ChatEnds S cfg req P R (chat S cfg req s) := by
  rw [SzlRouter.chat]
  cases hrefusal : chatRefusal req s.budget with
  | some e => exact h
  | none =>
    have hwalk := (rule hrefusal).walk (chatRoutes cfg req).1 (chatRoutes cfg req).2 h
    dsimp only
    revert hwalk
    generalize s.walk S cfg req (chatRoutes cfg req).1 (chatRoutes cfg req).2 = v
    have hclose : ∀ {before s}, P before s → P before (closeWalk S s).2 :=
      fun hP => ((rule hrefusal).quiet _).closeWalk hP
    obtain ⟨_ | _ | response | _, s'⟩ := v
    · exact fun ⟨before, hbefore, hP⟩ => ⟨rfl, before, hbefore, hclose hP⟩
    · exact fun ⟨before, hbefore, hP⟩ => ⟨rfl, before, hbefore, hclose hP⟩
    · exact id
    · exact id

end SzlRouter
