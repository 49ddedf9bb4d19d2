/-
Embeddings (`embed` of `szl_router/core.py`).

The URL and the key of every route are captured before the walk, and both the
identity of the request and its transport use what was captured.
-/
import SzlRouter.EmbedCache
import SzlRouter.Base64

open Py

namespace SzlRouter

/-! ### The shape of an answer -/

/-- The number of inputs of a payload: a token array is one input. -/
def expectedCount (payload : Dict) : ℕ :=
  match Dict.get payload (lit "input") with
  | some (.arr (x :: xs)) =>
    match x with
    | .str _ => (x :: xs).length
    | .arr _ => (x :: xs).length
    | _ => 1
  | _ => 1

/-- A finite number; an integer too large for a double is not. -/
def finiteNumber : Json → Bool
  | .num (.int n) => (Binary64.ofInt n).isFinite
  | .num (.float x) => x.isFinite
  | _ => false

/-- The dimension of a base64 vector. -/
def base64Size : Option Json → Except String ℕ
  | some (.str (c :: cs)) =>
    match base64Decode (c :: cs) with
    | none => .error "invalid embeddings response: invalid base64 vector"
    | some raw =>
      if raw = [] ∨ raw.length % 4 ≠ 0 then
        .error "invalid embeddings response: invalid float32 vector length"
      else if float32Finite raw then .ok (raw.length / 4)
      else .error "invalid embeddings response: vector values must be finite numbers"
  | _ => .error "invalid embeddings response: expected a base64 vector"

/-- The dimension of a numeric vector. -/
def numericSize : Option Json → Except String ℕ
  | some (.arr (x :: xs)) =>
    if (x :: xs).all finiteNumber then .ok (x :: xs).length
    else .error "invalid embeddings response: vector values must be finite numbers"
  | _ => .error "invalid embeddings response: expected a non-empty numeric vector"

/-- The dimension of the vector of a row. -/
def vectorSize (payload row : Dict) : Except String ℕ :=
  if Dict.get payload (lit "encoding_format") = some (.str (lit "base64")) then
    base64Size (Dict.get row (lit "embedding"))
  else numericSize (Dict.get row (lit "embedding"))

/-- The index of a row, when it is one of `0 .. count - 1` that was not seen before. -/
def freshIndex (count : ℕ) (seen : List ℤ) (row : Dict) : Option ℤ :=
  match Dict.get row (lit "index") with
  | some (.num (.int i)) => if i < 0 ∨ (count : ℤ) ≤ i ∨ i ∈ seen then none else some i
  | _ => none

/-- Whether a vector of this size is not the one that was asked for. -/
def wrongDimensions (payload : Dict) (size : ℕ) : Bool :=
  match Dict.get payload (lit "dimensions") with
  | some (.num (.int n)) => 0 < n ∧ (size : ℤ) ≠ n
  | _ => false

/-- The loop over the rows, with the indices seen and the size of the vectors. -/
def rowsError (payload : Dict) (count : ℕ) : List ℤ → Option ℕ → List Json → Option String
  | _, _, [] => none
  | seen, size, .obj row :: rows =>
    match freshIndex count seen row with
    | none => some "invalid embeddings response: indices must cover each input exactly once"
    | some i =>
      match vectorSize payload row with
      | .error e => some e
      | .ok n =>
        if size.any (· ≠ n) then
          some "invalid embeddings response: vector dimensions differ within the batch"
        else if wrongDimensions payload n then
          some "invalid embeddings response: vector dimensions do not match the request"
        else rowsError payload count (i :: seen) (some n) rows
  | _, _, _ :: _ => some "invalid embeddings response: every vector must be an object"

/-- `_embedding_response_error`. -/
def embeddingResponseError (payload : Dict) : Json → Option String
  | .obj d =>
    if present d (lit "error") then
      some "invalid embeddings response: upstream returned an error"
    else
      match Dict.get d (lit "data") with
      | some (.arr (row :: rows)) =>
        if (row :: rows).length ≠ expectedCount payload then
          some "invalid embeddings response: vector count does not match input count"
        else rowsError payload (expectedCount payload) [] none (row :: rows)
      | _ => some "invalid embeddings response: data must be a non-empty array"
  | _ => some "invalid embeddings response: expected an object"

/-! ### The call -/

structure EmbedRequest where
  model : Str
  input : Json
  timeout : Binary64
  extra : Dict := []
  useCache : Bool := true

/-- What the request became before the walk: detached from the caller's objects. -/
structure Prepared where
  input : Json
  extra : Dict
  scope : Str
  callerScope : Str

/-- A route and its captured provider; `none` when the table has no such provider. -/
abbrev Slot := Route × Option Provider

/-- Where a visit of a route leaves the walk. -/
inductive EmbedVisit
  | goOn
  | stop
  | fresh (a : Addr)
  | cached (a : Addr)
  | raised (e : Failure)
  | diverged

section

variable (S : Surroundings) (cfg : EmbedConfig) (req : EmbedRequest)

/-- The payload of an embeddings request for an upstream model. -/
def embedPayload (prep : Prepared) (model : Str) : Dict :=
  Dict.update [(lit "model", .str model), (lit "input", prep.input)] prep.extra

/-- The provenance of an answer of a resolved provider; `frozen` answers for the
environment. -/
def EmbedState.serve (route : Route) (provider : Provider) (result : Dict) (s : EmbedState) :
    Json × EmbedState :=
  let s := { s with toCallState := s.toCallState.markSuccess S }
  let (prov, c) := s.toCallState.budgetFields S
    (servedProvenance route provider (S.env s.tick) s.attempts)
  (.obj (Dict.set result (lit "x_szl_provenance") (.obj prov.toDict)),
    { s with toCallState := c })

/-- The retries and the check of a route, with the cache as it is. -/
def EmbedState.try (prep : Prepared) (route : Route) (provider : Provider) (s : EmbedState) :
    RouteEnd × EmbedState :=
  let payload := embedPayload prep route.2
  let (r, c) := tryRoute S cfg.retry .embeddings route provider payload req.timeout
    (embeddingResponseError payload) s.toCallState
  (r, { s with toCallState := c })

/-- An answer: it gets its provenance and its object, and the cache gets a copy. -/
def EmbedState.deliver (route : Route) (provider : Provider) (key : Option (Identity × Str))
    (result : Dict) (s : EmbedState) : EmbedVisit × EmbedState :=
  let (value, s) := s.serve S route provider result
  let (a, s) := s.alloc value
  match key with
  | none => (.fresh a, s)
  | some (identity, key) =>
    match cachePut S cfg provider identity key value s with
    | (.error e, s) => (.raised e, s)
    | (.ok (), s) => (.fresh a, s)

/-- A try of a route, and the fill of the cache when it serves. -/
def EmbedState.dispatch (prep : Prepared) (route : Route) (provider : Provider)
    (key : Option (Identity × Str)) (s : EmbedState) : EmbedVisit × EmbedState :=
  match s.try S cfg req prep route provider with
  | (.stopped, s) => (.stop, s)
  | (.diverged, s) => (.diverged, s)
  | (.failed, s) =>
    let (terminal, c) := s.toCallState.readTerminal S
    (if terminal.isSome then .stop else .goOn, { s with toCallState := c })
  | (.rejected, s) => (.goOn, s)
  | (.served result, s) => s.deliver S cfg route provider key result

/-- A sovereign route: the cache is asked first. -/
def EmbedState.qualified (prep : Prepared) (route : Route) (provider : Provider)
    (s : EmbedState) : EmbedVisit × EmbedState :=
  if req.useCache = false then s.dispatch S cfg req prep route provider none
  else
    let identity := identityOf req.model (embedPayload prep route.2) provider (S.env s.tick)
      prep.scope prep.callerScope route.1
    match embedCacheKey cfg.scopeKey identity with
    | .error e => (.raised e, s)
    | .ok key =>
      match cacheGet S cfg provider identity key s with
      | (some a, s) =>
        match asCacheHit (s.read a) s.attempts with
        | .error e => (.raised e, s)
        | .ok out =>
          let (a, s) := s.alloc out
          (.cached a, s)
      | (none, s) => s.dispatch S cfg req prep route provider (some (identity, key))

/-- A skipped route leaves a row. -/
def EmbedState.skip (route : Route) (error : Str) (s : EmbedState) : EmbedState :=
  { s with
    toCallState := s.toCallState.row ⟨route.1, route.2, false, none, some error, none⟩ }

/-- One turn of the route loop. -/
def EmbedState.visit (prep : Prepared) (route : Route) (provider : Option Provider)
    (s : EmbedState) : EmbedVisit × EmbedState :=
  match provider with
  | none => (.goOn, s.skip route (lit "provider unavailable (no key/url)"))
  | some p =>
    let open_ := p.available (S.env s.tick)
    let s := { s with toCallState := s.toCallState.next }
    if open_ = false then (.goOn, s.skip route (lit "provider unavailable (no key/url)"))
    else if tierOf p ≠ .sovereign then
      (.goOn, s.skip route
        (lit "cloud embeddings pricing/quota unqualified; route disabled"))
    else s.qualified S cfg req prep route p

/-- The route loop, over the captured providers. -/
def EmbedState.walk (prep : Prepared) : List Slot → EmbedState → EmbedVisit × EmbedState
  | [], s => (.stop, s)
  | (route, provider) :: later, s =>
    let (terminal, c) := s.toCallState.readTerminal S
    let s := { s with toCallState := c }
    if terminal.isSome then (.stop, s)
    else
      match s.visit S cfg req prep route provider with
      | (.goOn, s) => walk prep later s
      | (v, s) => (v, s)

/-- The captured providers of the routes: each URL is read, then each key. -/
def captureRoutes : List Route → CallState → List Slot × CallState
  | [], s => ([], s)
  | route :: later, s =>
    match cfg.registry.provider route.1 with
    | none =>
      let (slots, s) := captureRoutes later s
      ((route, none) :: slots, s)
    | some p =>
      let provider := p.capture (S.env s.tick) (S.env (s.tick + 1))
      let (slots, s) := captureRoutes later s.next.next
      ((route, some provider) :: slots, s)

/-- What is checked before the walk. -/
def embedRefusal (budget : Option RequestBudget) : Option Failure :=
  let timeoutError := match budget with
    | none => none
    | some _ =>
      match RequestBudget.validateCallerTimeout req.timeout with
      | .error (.valueError message) => some (valueError message)
      | _ => none
  if timeoutError.isSome then timeoutError
  else if req.model = [] then some (valueError "embeddings model must be a non-empty string")
  else if (Dict.get req.extra (lit "model")).isSome ∨ (Dict.get req.extra (lit "input")).isSome then
    some (valueError "embeddings extra cannot override model or input")
  else none

/-- The request through its JSON text, and the two scopes. -/
def prepare (s : CallState) : Except Failure Prepared × CallState :=
  match embeddingJson (.obj [(lit "input", req.input), (lit "extra", .obj req.extra)]) with
  | .error e => (.error e, s)
  | .ok text =>
    match loads plainLoads text with
    | none => (.error (.other (lit "JSONDecodeError") []), s)
    | some request =>
      (.ok {
        input := (request.get (lit "input")).getD .null
        extra := fields ((request.get (lit "extra")).getD .null)
        scope := (S.env s.tick).getD (lit "SZL_EMBED_CACHE_NAMESPACE")
        callerScope := Str.strip ((S.env (s.tick + 1)).getD (lit "SZL_ROUTER_TOKEN")) },
        s.next.next)

/-- The request goes through, or nothing happened. -/
theorem prepare_cases (s : CallState) :
    (∃ e, prepare S req s = (.error e, s)) ∨ ∃ prep, prepare S req s = (.ok prep, s.next.next) := by
  rw [prepare]
  cases embeddingJson (.obj [(lit "input", req.input), (lit "extra", .obj req.extra)]) with
  | error e => exact .inl ⟨e, rfl⟩
  | ok text =>
    dsimp only
    cases loads plainLoads text with
    | none => exact .inl ⟨_, rfl⟩
    | some request => exact .inr ⟨_, rfl⟩

end

/-- How `embed` ends. -/
inductive EmbedEnd
  /-- The answer of a dispatch in this call. -/
  | fresh (a : Addr)
  /-- An answer from the cache. -/
  | cached (a : Addr)
  /-- `RouterError`. -/
  | routerError (message : Str) (attempts : List Attempt) (reason : Option TerminalReason)
  /-- Another exception. -/
  | raised (e : Failure)
  | diverged

/-- What `embed` does after its loop. -/
def embedFinish (S : Surroundings) (model : Str) : EmbedVisit × EmbedState → EmbedEnd × EmbedState
  | (.fresh a, s) => (.fresh a, s)
  | (.cached a, s) => (.cached a, s)
  | (.raised e, s) => (.raised e, s)
  | (.diverged, s) => (.diverged, s)
  | (_, s) =>
    let (reason, c) := closeWalk S s.toCallState
    (.routerError (lit "all embed routes failed for model '" ++ model ++ lit "'") c.attempts reason,
      { s with toCallState := c })

/-- `embed`. -/
def embed (S : Surroundings) (cfg : EmbedConfig) (req : EmbedRequest) (s : EmbedState) :
    EmbedEnd × EmbedState :=
  match embedRefusal req s.budget with
  | some e => (.raised e, s)
  | none =>
    match prepare S req s.toCallState with
    | (.error e, c) => (.raised e, { s with toCallState := c })
    | (.ok prep, c) =>
      let (slots, c) := captureRoutes S cfg (cfg.registry.resolveEmbedRoutes req.model) c
      embedFinish S req.model (EmbedState.walk S cfg req prep slots { s with toCallState := c })

/-! ### What a walk keeps -/

namespace EmbedState

/-- The try of a route for an embeddings request. -/
abbrev tryEmbed (S : Surroundings) (cfg : EmbedConfig) (req : EmbedRequest) (prep : Prepared)
    (route : Route) (provider : Provider) (s : CallState) : RouteEnd × CallState :=
  tryRoute S cfg.retry .embeddings route provider (embedPayload prep route.2) req.timeout
    (embeddingResponseError (embedPayload prep route.2)) s

/-- A captured provider that the walk may use: it is sovereign, and it was available
at a tick from `start` to `now`. -/
structure Admits (S : Surroundings) (start now : ℕ) (provider : Provider) : Prop where
  available : ∃ tick, start ≤ tick ∧ tick < now ∧ provider.available (S.env tick) = true
  sovereign : provider.sovereign = true

theorem Admits.mono {S : Surroundings} {start now now' : ℕ} {provider : Provider}
    (h : Admits S start now provider) (hle : now ≤ now') : Admits S start now' provider := by
  obtain ⟨⟨tick, hstart, hnow, htick⟩, hsovereign⟩ := h
  exact ⟨⟨tick, hstart, hnow.trans_le hle, htick⟩, hsovereign⟩

/-- The identity and the key that a request has for a route. -/
def KeyOf (S : Surroundings) (cfg : EmbedConfig) (req : EmbedRequest) (prep : Prepared)
    (route : Route) (provider : Provider) (identity : Identity) (key : Str) : Prop :=
  (∃ tick, identity = identityOf req.model (embedPayload prep route.2) provider (S.env tick)
    prep.scope prep.callerScope route.1) ∧ embedCacheKey cfg.scopeKey identity = .ok key

/-- The lookups and the tries keep `P`, or a try serves and establishes `R`.  `P` may
depend on the slots that were tried so far and on those that were entered, which are the
same between two visits. -/
structure TryRule (S : Surroundings) (cfg : EmbedConfig) (req : EmbedRequest) (prep : Prepared)
    (start : ℕ) (P : List Slot → List Slot → EmbedState → Prop)
    (R : List Slot → Route → Provider → Dict → EmbedState → Prop) : Prop where
  quiet : ∀ seen entered (s : EmbedState),
    Quiet S fun c => P seen entered { s with toCallState := c }
  later : ∀ {seen entered : List Slot} {s : EmbedState}, P seen entered s → start ≤ s.tick
  enter : ∀ {seen : List Slot} {slot : Slot} {s : EmbedState},
    P seen seen s → P seen (seen ++ [slot]) s
  pass : ∀ {seen : List Slot} {slot : Slot} {s : EmbedState},
    P seen seen s → P (seen ++ [slot]) (seen ++ [slot]) s
  lookup : ∀ {seen : List Slot} {route : Route} {provider : Provider} {identity : Identity}
    {key : Str} {s : EmbedState}, Admits S start s.tick provider →
    KeyOf S cfg req prep route provider identity key → P seen seen s →
    P seen (seen ++ [(route, some provider)]) (cacheGet S cfg provider identity key s).2
  tries : ∀ {seen : List Slot} {route : Route} {provider : Provider} {s : EmbedState},
    Admits S start s.tick provider → P seen (seen ++ [(route, some provider)]) s →
    match tryEmbed S cfg req prep route provider s.toCallState with
    | (.served result, c) => R seen route provider result { s with toCallState := c }
    | (_, c) => P (seen ++ [(route, some provider)]) (seen ++ [(route, some provider)])
        { s with toCallState := c }

/-- An answer or an exception that came out of a served try of a slot. -/
def Delivered (S : Surroundings) (cfg : EmbedConfig) (req : EmbedRequest) (prep : Prepared)
    (start : ℕ) (R : List Slot → Route → Provider → Dict → EmbedState → Prop)
    (seen : List Slot) (slot : Slot) (v : EmbedVisit × EmbedState) : Prop :=
  ∃ provider, slot.2 = some provider ∧ ∃ result s key, Admits S start s.tick provider ∧
    R seen slot.1 provider result s ∧
    (∀ identity k, key = some (identity, k) → KeyOf S cfg req prep slot.1 provider identity k) ∧
    v = deliver S cfg slot.1 provider key result s

/-- An answer from the cache, for a slot. -/
def Replayed (S : Surroundings) (cfg : EmbedConfig) (req : EmbedRequest) (prep : Prepared)
    (start : ℕ) (P : List Slot → List Slot → EmbedState → Prop) (seen : List Slot) (slot : Slot)
    (a : Addr)
    (s' : EmbedState) : Prop :=
  ∃ provider, slot.2 = some provider ∧ ∃ identity key s entry out,
    Admits S start s.tick provider ∧ KeyOf S cfg req prep slot.1 provider identity key ∧
    P seen seen s ∧ (cacheGet S cfg provider identity key s).1 = some entry ∧
    asCacheHit ((cacheGet S cfg provider identity key s).2.read entry)
      (cacheGet S cfg provider identity key s).2.attempts = .ok out ∧
    (a, s') = (cacheGet S cfg provider identity key s).2.alloc out

/-- What is known at the end of the visit of a slot. -/
def VisitEnds (S : Surroundings) (cfg : EmbedConfig) (req : EmbedRequest) (prep : Prepared)
    (start : ℕ) (P : List Slot → List Slot → EmbedState → Prop)
    (R : List Slot → Route → Provider → Dict → EmbedState → Prop) (seen : List Slot)
    (slot : Slot) : EmbedVisit × EmbedState → Prop
  | (.goOn, s) => P (seen ++ [slot]) (seen ++ [slot]) s
  | (.stop, s) => P (seen ++ [slot]) (seen ++ [slot]) s
  | (.diverged, _) => False
  | (.cached a, s) => Replayed S cfg req prep start P seen slot a s
  | (.fresh a, s) => Delivered S cfg req prep start R seen slot (.fresh a, s)
  | (.raised e, s) => P seen (seen ++ [slot]) s ∨
      Delivered S cfg req prep start R seen slot (.raised e, s)

/-- What is known at the end of a walk over `slots`. -/
def WalkEnds (S : Surroundings) (cfg : EmbedConfig) (req : EmbedRequest) (prep : Prepared)
    (start : ℕ) (P : List Slot → List Slot → EmbedState → Prop)
    (R : List Slot → Route → Provider → Dict → EmbedState → Prop) (slots : List Slot) :
    EmbedVisit × EmbedState → Prop
  | (.goOn, s) => ∃ before, before <+: slots ∧ P before before s
  | (.stop, s) => ∃ before, before <+: slots ∧ P before before s
  | (.diverged, _) => False
  | (.cached a, s) => ∃ before slot, before ++ [slot] <+: slots ∧
      Replayed S cfg req prep start P before slot a s
  | (.fresh a, s) => ∃ before slot, before ++ [slot] <+: slots ∧
      Delivered S cfg req prep start R before slot (.fresh a, s)
  | (.raised e, s) => ∃ before slot, before ++ [slot] <+: slots ∧
      (P before (before ++ [slot]) s ∨
        Delivered S cfg req prep start R before slot (.raised e, s))

/-- An answer is the body of the try under the provenance of its route. -/
theorem serve_cases (S : Surroundings) (route : Route) (provider : Provider) (result : Dict)
    (s : EmbedState) :
    ∃ prov tick c, s.serve S route provider result =
        (.obj (Dict.set result (lit "x_szl_provenance") (.obj (Provenance.toDict prov))),
          { s with toCallState := c }) ∧
      prov.Names route provider (S.env tick) s.attempts ∧ c.attempts = s.attempts ∧
      c.events = s.events := by
  have hattempts := s.toCallState.markSuccess_attempts S
  refine ⟨_, (s.toCallState.markSuccess S).tick, _, rfl, Provenance.Names.budgetFields
    ⟨rfl, rfl, rfl, rfl, rfl, rfl, rfl, hattempts⟩ S _, ?_, ?_⟩
  · exact (CallState.budgetFields_attempts S _ {}).trans hattempts
  · exact (CallState.budgetFields_events S _ {}).trans (s.toCallState.markSuccess_events S)

/-- A delivered answer is a new object, and the cache was filled if there is a key. -/
theorem deliver_eq_fresh {S : Surroundings} {cfg : EmbedConfig} {route : Route}
    {provider : Provider} {key : Option (Identity × Str)} {result : Dict} {s s' : EmbedState}
    {a : Addr} (h : (.fresh a, s') = deliver S cfg route provider key result s) :
    ∃ value s₁, s.serve S route provider result = (value, s₁) ∧ a = s₁.heap.length ∧
      (key = none ∧ s' = (s₁.alloc value).2 ∨
        ∃ identity k, key = some (identity, k) ∧
          cachePut S cfg provider identity k value (s₁.alloc value).2 = (.ok (), s')) := by
  rw [deliver] at h
  refine ⟨_, _, rfl, ?_⟩
  rcases key with _ | ⟨identity, k⟩
  · obtain ⟨ha, rfl⟩ := Prod.mk.inj h
    exact ⟨EmbedVisit.fresh.inj ha, .inl ⟨rfl, rfl⟩⟩
  · dsimp only at h
    revert h
    rcases hput : cachePut S cfg provider identity k _ _ with ⟨_ | _, s₂⟩
    · exact fun h => nomatch (Prod.mk.inj h).1
    · intro h
      obtain ⟨ha, rfl⟩ := Prod.mk.inj h
      exact ⟨EmbedVisit.fresh.inj ha, .inr ⟨identity, k, rfl, hput⟩⟩

/-- The object of an answer holds the body of the try under the provenance of its route;
filling the cache does not touch it. -/
theorem deliver_fresh {S : Surroundings} {cfg : EmbedConfig} {route : Route}
    {provider : Provider} {key : Option (Identity × Str)} {result : Dict} {s s' : EmbedState}
    {a : Addr} (h : (.fresh a, s') = deliver S cfg route provider key result s) :
    ∃ prov tick, s'.read a =
        .obj (Dict.set result (lit "x_szl_provenance") (.obj (Provenance.toDict prov))) ∧
      prov.Names route provider (S.env tick) s.attempts ∧ s'.attempts = s.attempts ∧
      s'.events = s.events := by
  obtain ⟨prov, tick, c, hserve, hnames, hattempts, hevents⟩ :=
    serve_cases S route provider result s
  obtain ⟨value, s₁, hserve', rfl, hput⟩ := deliver_eq_fresh h
  obtain ⟨rfl, rfl⟩ := Prod.mk.inj (hserve'.symm.trans hserve)
  refine ⟨prov, tick, ?_⟩
  rcases hput with ⟨_, rfl⟩ | ⟨identity, k, _, hput⟩
  · exact ⟨read_alloc _ _, hnames, hattempts, hevents⟩
  · obtain ⟨hsame, hheap⟩ := cachePut_frame S cfg provider identity k
      (.obj (Dict.set result (lit "x_szl_provenance") (.obj prov.toDict)))
      (alloc (.obj (Dict.set result (lit "x_szl_provenance") (.obj prov.toDict)))
        { s with toCallState := c }).2
    rw [hput] at hsame hheap
    refine ⟨?_, hnames, hsame.attempts.trans hattempts, hsame.events.trans hevents⟩
    exact (read_old hheap (by simp [alloc])).trans (read_alloc _ _)

/-- After an answer has its provenance, only objects and the cache change. -/
theorem deliver_same (S : Surroundings) (cfg : EmbedConfig) (route : Route) (provider : Provider)
    (key : Option (Identity × Str)) (result : Dict) (s : EmbedState) :
    (s.serve S route provider result).2.toCallState.Same
      (deliver S cfg route provider key result s).2.toCallState := by
  rw [deliver]
  rcases key with _ | ⟨identity, key⟩
  · exact .refl _
  · have hput := (cachePut_frame S cfg provider identity key (s.serve S route provider result).1
      ((s.serve S route provider result).2.alloc (s.serve S route provider result).1).2).1
    dsimp only
    revert hput
    rcases cachePut S cfg provider identity key _ _ with ⟨_ | _, _⟩ <;> exact id

theorem deliver_events (S : Surroundings) (cfg : EmbedConfig) (route : Route)
    (provider : Provider) (key : Option (Identity × Str)) (result : Dict) (s : EmbedState) :
    (deliver S cfg route provider key result s).2.events = s.events := by
  obtain ⟨prov, tick, c, hserve, _, _, hevents⟩ := serve_cases S route provider result s
  rw [(deliver_same S cfg route provider key result s).events, hserve]
  exact hevents

/-- The cache is filled for the provider of the answer. -/
theorem deliver_users (S : Surroundings) (cfg : EmbedConfig) (route : Route) (provider : Provider)
    (key : Option (Identity × Str)) (result : Dict) (s : EmbedState) :
    ∃ used, cacheUsers (deliver S cfg route provider key result s).2.history =
      cacheUsers s.history ++ used ∧ ∀ p ∈ used, p = provider := by
  obtain ⟨prov, tick, c, hserve, _, _, _⟩ := serve_cases S route provider result s
  rw [deliver, hserve]
  rcases key with _ | ⟨identity, key⟩
  · exact ⟨[], (List.append_nil _).symm, by simp⟩
  · obtain ⟨used, hused, hfor⟩ := cachePut_users S cfg provider identity key
      (.obj (Dict.set result (lit "x_szl_provenance") (.obj prov.toDict)))
      (alloc (.obj (Dict.set result (lit "x_szl_provenance") (.obj prov.toDict)))
        { s with toCallState := c }).2
    dsimp only
    revert hused
    rcases cachePut S cfg provider identity key _ _ with ⟨_ | _, s'⟩
    · exact fun hused => ⟨used, hused, hfor⟩
    · exact fun hused => ⟨used, hused, hfor⟩

theorem deliver_cases (S : Surroundings) (cfg : EmbedConfig) (route : Route) (provider : Provider)
    (key : Option (Identity × Str)) (result : Dict) (s : EmbedState) :
    (∃ a, (deliver S cfg route provider key result s).1 = .fresh a) ∨
      ∃ e, (deliver S cfg route provider key result s).1 = .raised e := by
  rw [deliver]
  rcases key with _ | ⟨identity, key⟩
  · exact .inl ⟨_, rfl⟩
  · dsimp only
    rcases cachePut S cfg provider identity key _ _ with ⟨_ | _, _⟩
    · exact .inr ⟨_, rfl⟩
    · exact .inl ⟨_, rfl⟩

section

variable {S : Surroundings} {cfg : EmbedConfig} {req : EmbedRequest} {prep : Prepared}
  {start : ℕ} {P : List Slot → List Slot → EmbedState → Prop}
  {R : List Slot → Route → Provider → Dict → EmbedState → Prop}
  (rule : TryRule S cfg req prep start P R)

include rule

theorem TryRule.dispatch {seen : List Slot} {route : Route} {provider : Provider}
    {s : EmbedState} (hadmits : Admits S start s.tick provider) {key : Option (Identity × Str)}
    (hkey : ∀ identity k, key = some (identity, k) →
      KeyOf S cfg req prep route provider identity k)
    (h : P seen (seen ++ [(route, some provider)]) s) :
    VisitEnds S cfg req prep start P R seen (route, some provider)
      (s.dispatch S cfg req prep route provider key) := by
  have htry := @rule.tries seen route provider s hadmits h
  have hends := tryRoute_terminates S cfg.retry .embeddings route provider
    (embedPayload prep route.2) req.timeout
    (embeddingResponseError (embedPayload prep route.2)) s.toCallState
  have htick := tick_le_tryRoute S cfg.retry .embeddings route provider
    (embedPayload prep route.2) req.timeout
    (embeddingResponseError (embedPayload prep route.2)) s.toCallState
  rw [EmbedState.dispatch, EmbedState.try]
  revert htry hends htick
  dsimp only [tryEmbed]
  generalize tryRoute S cfg.retry .embeddings route provider _ _ _ _ = r
  obtain ⟨_ | _ | _ | result | _, c⟩ := r
  · exact fun htry _ _ => htry
  · intro htry _ _
    have hterm := (rule.quiet _ _ s).readTerminal htry
    dsimp only
    split_ifs <;> exact hterm
  · exact fun htry _ _ => htry
  · intro htry _ htick
    -- a result is delivered: stored, where there is a key, and returned
    have hdelivered : Delivered S cfg req prep start R seen (route, some provider)
        (deliver S cfg route provider key result { s with toCallState := c }) :=
      ⟨provider, rfl, result, { s with toCallState := c }, key, hadmits.mono htick, htry, hkey, rfl⟩
    dsimp only
    revert hdelivered
    rcases deliver_cases S cfg route provider key result { s with toCallState := c } with
      ⟨a, heq⟩ | ⟨e, heq⟩
    · generalize deliver S cfg route provider key result _ = v at heq
      obtain ⟨v, s'⟩ := v
      obtain rfl : v = .fresh a := heq
      exact id
    · generalize deliver S cfg route provider key result _ = v at heq
      obtain ⟨v, s'⟩ := v
      obtain rfl : v = .raised e := heq
      exact .inr
  · exact fun _ hends _ => absurd rfl hends

theorem TryRule.qualified {seen : List Slot} {route : Route} {provider : Provider}
    {s : EmbedState} (hadmits : Admits S start s.tick provider) (h : P seen seen s) :
    VisitEnds S cfg req prep start P R seen (route, some provider)
      (s.qualified S cfg req prep route provider) := by
  rw [EmbedState.qualified]
  split_ifs
  · exact rule.dispatch hadmits (by simp) (rule.enter h)
  · dsimp only
    generalize hidentity : identityOf req.model (embedPayload prep route.2) provider
      (S.env s.tick) prep.scope prep.callerScope route.1 = identity
    -- an identity that cannot be hashed ends the call
    cases hkey : embedCacheKey cfg.scopeKey identity with
    | error e => exact .inl (rule.enter h)
    | ok key =>
      have hkeyOf : KeyOf S cfg req prep route provider identity key :=
        ⟨⟨s.tick, hidentity.symm⟩, hkey⟩
      have hlooked := rule.lookup hadmits hkeyOf h
      have htick := (cacheGet_same S cfg provider identity key s).tick_le
      dsimp only
      -- a miss goes on to the provider, under the key that was looked up
      cases hget : (cacheGet S cfg provider identity key s).1 with
      | none =>
        rw [show cacheGet S cfg provider identity key s =
          (none, (cacheGet S cfg provider identity key s).2) from Prod.ext hget rfl]
        refine rule.dispatch (hadmits.mono htick) (fun identity' k heq => ?_) hlooked
        obtain ⟨rfl, rfl⟩ := Prod.mk.inj (Option.some.inj heq)
        exact hkeyOf
      | some entry =>
        rw [show cacheGet S cfg provider identity key s =
          (some entry, (cacheGet S cfg provider identity key s).2) from Prod.ext hget rfl]
        dsimp only
        -- a hit is marked and returned, unless the stored object has no provenance to mark
        cases hhit : asCacheHit ((cacheGet S cfg provider identity key s).2.read entry)
            (cacheGet S cfg provider identity key s).2.attempts with
        | error e => exact .inl hlooked
        | ok out =>
          exact ⟨provider, rfl, identity, key, s, entry, out, hadmits, hkeyOf, h, hget, hhit, rfl⟩

theorem TryRule.skip {seen : List Slot} {slot : Slot} {route : Route} {error : Str}
    {s : EmbedState} (h : P seen seen s) :
    VisitEnds S cfg req prep start P R seen slot (.goOn, s.skip route error) :=
  rule.pass ((rule.quiet seen seen s).skip rfl rfl h)

theorem TryRule.visit {seen : List Slot} (slot : Slot) {s : EmbedState} (h : P seen seen s) :
    VisitEnds S cfg req prep start P R seen slot (s.visit S cfg req prep slot.1 slot.2) := by
  obtain ⟨route, _ | provider⟩ := slot
  · exact rule.skip h
  · have hnext : P seen seen { s with toCallState := s.toCallState.next } :=
      (rule.quiet seen seen s).same (CallState.Same.next _) h
    rw [EmbedState.visit]
    dsimp only
    split_ifs with havailable htier
    · exact rule.skip hnext
    · exact rule.skip hnext
    · have htier : tierOf provider = .sovereign := by simpa using htier
      exact rule.qualified ⟨⟨s.tick, rule.later h, Nat.lt_succ_self _, by simpa using havailable⟩,
        tierOf_eq_sovereign.mp htier⟩ hnext

/-- The walk from a point where some slots were seen. -/
theorem TryRule.walk_from (seen slots : List Slot) {s : EmbedState} (h : P seen seen s) :
    WalkEnds S cfg req prep start P R (seen ++ slots) (s.walk S cfg req prep slots) := by
  induction slots generalizing seen s with
  | nil => exact ⟨seen, List.prefix_append _ _, h⟩
  | cons slot later ih =>
    have hterm : P seen seen { s with toCallState := (s.toCallState.readTerminal S).2 } :=
      (rule.quiet seen seen s).readTerminal h
    have hsplit : seen ++ slot :: later = (seen ++ [slot]) ++ later := by simp
    have hseen : seen ++ [slot] <+: seen ++ slot :: later := ⟨later, hsplit.symm⟩
    rw [EmbedState.walk]
    dsimp only
    split_ifs
    · exact ⟨seen, List.prefix_append _ _, hterm⟩
    · have hvisit := rule.visit slot hterm
      revert hvisit
      generalize EmbedState.visit S cfg req prep slot.1 slot.2 _ = v
      obtain ⟨_ | _ | a | a | e | _, s'⟩ := v
      · exact fun hP => hsplit ▸ ih (seen ++ [slot]) hP
      · exact fun hP => ⟨_, hseen, hP⟩
      · exact fun hfresh => ⟨seen, slot, hseen, hfresh⟩
      · exact fun hcached => ⟨seen, slot, hseen, hcached⟩
      · exact fun hraised => ⟨seen, slot, hseen, hraised⟩
      · exact id

/-- What the lookups and the tries keep holds after the walk, and an answer comes from a
try or from the cache. -/
theorem TryRule.walk (slots : List Slot) {s : EmbedState} (h : P [] [] s) :
    WalkEnds S cfg req prep start P R slots (s.walk S cfg req prep slots) :=
  rule.walk_from [] slots h

end

end EmbedState

/-! ### How a call ends -/

/-- The slots are the routes with what their providers answered at ticks between `start`
and `stop`. -/
def Captured (S : Surroundings) (cfg : EmbedConfig) (start stop : ℕ) (routes : List Route)
    (slots : List Slot) : Prop :=
  slots.map (·.1) = routes ∧ ∀ slot ∈ slots, ∀ provider, slot.2 = some provider →
    ∃ p tick, cfg.registry.provider slot.1.1 = some p ∧ start ≤ tick ∧ tick + 1 < stop ∧
      provider = p.capture (S.env tick) (S.env (tick + 1))

theorem captureRoutes_captured (S : Surroundings) (cfg : EmbedConfig) (routes : List Route)
    (s : CallState) :
    s.Same (captureRoutes S cfg routes s).2 ∧
      Captured S cfg s.tick (captureRoutes S cfg routes s).2.tick routes
        (captureRoutes S cfg routes s).1 := by
  induction routes generalizing s with
  | nil => exact ⟨.refl s, rfl, by simp [captureRoutes]⟩
  | cons route later ih =>
    rw [captureRoutes]
    -- a route of an unknown provider takes no reading of the environment
    cases hknown : cfg.registry.provider route.1 with
    | none =>
      obtain ⟨hsame, hmap, hslots⟩ := ih s
      refine ⟨hsame, congrArg (route :: ·) hmap, fun slot hslot provider hprovider => ?_⟩
      rcases List.mem_cons.mp hslot with rfl | hslot
      · cases hprovider
      · exact hslots slot hslot provider hprovider
    | some p =>
      obtain ⟨hsame, hmap, hslots⟩ := ih s.next.next
      have htick : s.tick + 2 ≤ _ := hsame.tick_le
      refine ⟨((CallState.Same.next s).trans (.next _)).trans hsame, congrArg (route :: ·) hmap,
        fun slot hslot provider hprovider => ?_⟩
      rcases List.mem_cons.mp hslot with rfl | hslot
      · exact ⟨p, s.tick, hknown, Nat.le_refl _, htick, (Option.some.inj hprovider).symm⟩
      · obtain ⟨p', tick, hknown', hle, hlt, heq⟩ := hslots slot hslot provider hprovider
        have hle : s.tick + 2 ≤ tick := hle
        exact ⟨p', tick, hknown', by omega, hlt, heq⟩

/-- A call raises before it does anything, or it prepares the request, captures the
providers, and walks. -/
theorem embed_cases (S : Surroundings) (cfg : EmbedConfig) (req : EmbedRequest) (s : EmbedState) :
    (∃ e, embed S cfg req s = (.raised e, s)) ∨
    ∃ prep slots c, embedRefusal req s.budget = none ∧
      (prepare S req s.toCallState).1 = .ok prep ∧ s.toCallState.Same c ∧
      Captured S cfg s.tick c.tick (cfg.registry.resolveEmbedRoutes req.model) slots ∧
      embed S cfg req s = embedFinish S req.model
        (EmbedState.walk S cfg req prep slots { s with toCallState := c }) := by
  rw [embed]
  cases hrefusal : embedRefusal req s.budget with
  | some e => exact .inl ⟨e, rfl⟩
  | none =>
    dsimp only
    rcases prepare_cases S req s.toCallState with ⟨e, heq⟩ | ⟨prep, heq⟩
    · rw [heq]
      exact .inl ⟨e, rfl⟩
    · rw [heq]
      -- the providers are captured once, and each of them at its own reading of the environment
      obtain ⟨hsame, hmap, hslots⟩ := captureRoutes_captured S cfg
        (cfg.registry.resolveEmbedRoutes req.model) s.toCallState.next.next
      refine .inr ⟨prep, _, _, rfl, rfl,
        ((CallState.Same.next _).trans (.next _)).trans hsame, ⟨hmap, ?_⟩, rfl⟩
      intro slot hslot provider hprovider
      obtain ⟨p, tick, hknown, hle, hlt, heq⟩ := hslots slot hslot provider hprovider
      have hle : s.tick + 2 ≤ tick := hle
      exact ⟨p, tick, hknown, by omega, hlt, heq⟩

end SzlRouter
