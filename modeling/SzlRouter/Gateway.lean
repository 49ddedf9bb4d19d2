/-
The gateway's chat endpoint, and its readiness report.

What the process reads from outside, the clock and the outcome of one attempt on a
provider, is a `Runtime` over any state.  `turn` is one pass of the candidate
loop; a run records the candidates it visited and the attempts it made.

* `turn_dispatched` — when one pass makes an attempt;
* `routeLoop_dispatched` — every attempt of a run is for a candidate of its plan;
* `chatWith_cases` — a call reaches the loop or tries nothing.
-/
import SzlRouter.GatewayPlan
import SzlRouter.Procedure

namespace SzlRouter

namespace Gateway

open Py

def RECEIPT_SCHEMA : String := "szl.router-receipt/v1"
def MAX_TIMEOUT_SECONDS : Binary64 := 45
def MAX_ROUTE_SECONDS : Binary64 := 660

/-! ### Readiness -/

/-- The checks of `inference_readiness`. -/
structure Readiness where
  registryValid : Bool
  egressEnabled : Bool
  callerAuthConfigured : Bool
  providerConfigured : Bool
  remoteCredentialedProvider : Bool

/-- `SZL_ROUTER_TOKEN`, as it is compared. -/
def callerToken (env : Env) : Str := Str.strip (env.getD (lit "SZL_ROUTER_TOKEN"))

/-- `inference_readiness`. -/
def inferenceReadiness (settings : Settings) (env : Env) : Readiness where
  registryValid := settings.configState = .validated
  egressEnabled := settings.egressEnabled
  callerAuthConfigured := callerToken env ≠ []
  providerConfigured := settings.registry.providers.any fun p =>
    p.enabled && credentialState env p ∈ [.available, .notRequiredLoopback]
  remoteCredentialedProvider := settings.registry.providers.any fun p =>
    p.enabled && credentialState env p = .available

namespace Readiness

/-- `ready_for_requests`. -/
def readyForRequests (r : Readiness) : Bool :=
  r.registryValid && r.egressEnabled && r.callerAuthConfigured && r.providerConfigured

/-- The report. -/
def report (r : Readiness) : Json :=
  .obj [(lit "status", .str (if r.readyForRequests then lit "configured" else lit "unavailable")),
    (lit "checks", .obj [(lit "registry_valid", .bool r.registryValid),
      (lit "egress_enabled", .bool r.egressEnabled),
      (lit "caller_auth_configured", .bool r.callerAuthConfigured),
      (lit "provider_configured", .bool r.providerConfigured)]),
    (lit "remote_credentialed_provider", .bool r.remoteCredentialedProvider),
    (lit "ready_for_requests", .bool r.readyForRequests),
    (lit "basis", "LOCAL_CONFIGURATION_ONLY"), (lit "provider_reachability", "UNVERIFIED"),
    (lit "inference_witness", "UNAVAILABLE"), (lit "model_identity", "UNVERIFIED")]

end Readiness

/-! ### Replies -/

/-- How a call ends: a completion with its receipt header, an `HTTPException`, or an
exception that no handler of the endpoint names. -/
inductive Reply
  | completed (body : Dict) (receipt : Str)
  | refused (status : ℕ) (detail : Dict)
  | crashed (name : Str)

/-- `check_caller_auth`: `none` lets the call through. -/
def checkCallerAuth (env : Env) (received : Str) : Option Reply :=
  if callerToken env = [] then
    some (.refused 503 [(lit "code", "CALLER_AUTH_NOT_CONFIGURED")])
  else
    match utf8 received, utf8 (lit "Bearer " ++ callerToken env) with
    | some sent, some expected =>
      if sent = expected then none
      else some (.refused 401 [(lit "code", "INVALID_ROUTER_CREDENTIAL")])
    | _, _ => some (.crashed (lit "UnicodeEncodeError"))

/-! ### Attempts -/

/-- What `attempt_candidate` under `asyncio.wait_for` comes to: the upstream answer, or the
exception it raises.  `failed` is an `httpx.HTTPError`, `RuntimeError` or `ValueError` of the
given name, and `crashed` any other. -/
inductive Outcome
  | success (upstream : Dict) (status : ℤ) (identity : Option Json)
  | modelIdentity (state : Str)
  | wallTimeout
  | httpTimeout
  | httpStatus (status : ℤ)
  | failed (name : Str)
  | crashed (name : Str)

/-- A row of `attempts`. -/
structure Row where
  providerId : Str
  state : Str
  statusCode : Option ℤ
  outcomeUnknown : Bool
  errorType : Option Str
  deriving DecidableEq

namespace Row

/-- A row with a state alone. -/
def plain (providerId : Str) (state : String) : Row := ⟨providerId, lit state, none, false, none⟩

/-- A row that leaves open whether the provider did the work. -/
def unknown (providerId : Str) (state : String) : Row := ⟨providerId, lit state, none, true, none⟩

def json (r : Row) : Json :=
  .obj ([(lit "provider_id", .str r.providerId), (lit "state", .str r.state)] ++
    (r.statusCode.map fun n => (lit "status_code", Json.int n)).toList ++
    (if r.outcomeUnknown then [(lit "outcome", .str (lit "UNKNOWN"))] else []) ++
    (r.errorType.map fun e => (lit "error_type", Json.str e)).toList)

end Row

/-- What the process reads from outside. -/
structure Runtime (W : Type) where
  /-- `time.monotonic()`. -/
  monotonic : W → Binary64 × W
  /-- `attempt_candidate(provider, request, upstream_model)`, at most `timeout` seconds. -/
  attempt : ProviderRecord → ChatRequest → Str → Binary64 → W → Outcome × W

/-- A call of `attempt_candidate`, and what it came to. -/
structure Dispatch where
  candidate : Candidate
  provider : ProviderRecord
  timeout : Binary64
  outcome : Outcome

/-- What the candidate loop of a call works with. -/
structure Call where
  settings : Settings
  env : Env
  request : ChatRequest
  requestDigest : Str
  planDigest : Str
  started : Binary64

namespace Call

/-- `deadline`. -/
def deadline (C : Call) : Binary64 := C.started.add MAX_ROUTE_SECONDS

/-- A failure body without its digest. -/
def failure (C : Call) (rows : List Row) (state : String) (ambiguous : Bool) : Dict :=
  [(lit "schema", .str (lit RECEIPT_SCHEMA)), (lit "request_digest", .str C.requestDigest),
    (lit "plan_digest", .str C.planDigest), (lit "attempts", .arr (rows.map Row.json)),
    (lit "secret_material_recorded", .bool false), (lit "state", .str (lit state))] ++
  (if ambiguous then
    [(lit "automatic_retry_safe", .bool false),
    (lit "reconciliation", .str (lit "REQUIRED_BEFORE_RETRY"))]
  else [])

/-- `failure["digest"] = sha256(failure)`, raised with a status. -/
def fail (status : ℕ) (body : Dict) : Reply :=
  match sha256 (.obj body) with
  | .ok digest => .refused status (body ++ [(lit "digest", .str digest)])
  | .error name => .crashed name

/-- The end of the loop without an answer. -/
def exhausted (C : Call) (rows : List Row) : Reply :=
  if rows.any (·.outcomeUnknown) then fail 504 (C.failure rows "ATTEMPT_OUTCOME_UNKNOWN" true)
  else fail 502 (C.failure rows "ALL_ELIGIBLE_PROVIDERS_FAILED" false)

/-- The row of an attempt that answered. -/
def successRow (providerId : Str) (status : ℤ) : Row :=
  ⟨providerId, lit "SUCCESS", some status, false, none⟩

/-- The receipt without its digest. -/
def receiptBody (C : Call) (rows : List Row) (candidate : Candidate) (status : ℤ)
    (elapsed : Binary64) (responseDigest : Str) (identity : Option Json) : Dict :=
  [(lit "schema", .str (lit RECEIPT_SCHEMA)), (lit "request_digest", .str C.requestDigest),
    (lit "plan_digest", .str C.planDigest), (lit "provider_id", .str candidate.providerId),
    (lit "public_model", .str C.request.model),
    (lit "upstream_model", .str candidate.upstreamModel),
    (lit "classification", .str C.request.dataClassification),
    (lit "attempts", .arr ((rows ++ [successRow candidate.providerId status]).map Row.json)),
    (lit "elapsed_ms", .num (.float elapsed)), (lit "response_digest", .str responseDigest),
    (lit "secret_material_recorded", .bool false)] ++
  (identity.map fun v => (lit "model_identity", v)).toList

/-- The completion with its receipt, checked as the verifier does; an error is the name of
the exception. -/
def complete (C : Call) (rows : List Row) (candidate : Candidate) (upstream : Dict) (status : ℤ)
    (identity : Option Json) (elapsed : Binary64) : Except Str Reply := do
  let responseDigest ← sha256 (.obj upstream)
  let body := C.receiptBody rows candidate status elapsed responseDigest identity
  let digest ← sha256 (.obj body)
  let receipt := body ++ [(lit "digest", .str digest), (lit "algorithm", .str (lit "sha256"))]
  let result := Dict.set upstream (lit "szl_receipt") (.obj receipt)
  let raw ← canonical (.obj [(lit "completion", .obj result),
    (lit "request", .obj C.request.modelDump)])
  match parseBundle raw with
  | none => .error (lit "VerificationInputError")
  | some (completion, request) =>
    match verifyCompletion completion request none with
    | none => .error (lit "VerificationInputError")
    | some checks =>
      if checks.consistent then .ok (.completed result digest) else .error (lit "RuntimeError")

/-- What a completion with a receipt went through. -/
theorem complete_eq_ok {C : Call} {rows : List Row} {candidate : Candidate} {upstream : Dict}
    {status : ℤ} {identity : Option Json} {elapsed : Binary64} {reply : Reply}
    (h : C.complete rows candidate upstream status identity elapsed = .ok reply) :
    ∃ responseDigest digest raw completion request checks,
      sha256 (.obj upstream) = .ok responseDigest ∧
      sha256 (.obj (C.receiptBody rows candidate status elapsed responseDigest identity)) =
        .ok digest ∧
      canonical (.obj [(lit "completion", .obj (Dict.set upstream (lit "szl_receipt") (.obj
        (C.receiptBody rows candidate status elapsed responseDigest identity ++
          [(lit "digest", .str digest), (lit "algorithm", .str (lit "sha256"))])))),
        (lit "request", .obj C.request.modelDump)]) = .ok raw ∧
      parseBundle raw = some (completion, request) ∧
      verifyCompletion completion request none = some checks ∧ checks.consistent = true ∧
      reply = .completed (Dict.set upstream (lit "szl_receipt") (.obj
        (C.receiptBody rows candidate status elapsed responseDigest identity ++
          [(lit "digest", .str digest), (lit "algorithm", .str (lit "sha256"))]))) digest := by
  rw [complete] at h
  -- the three digests of the receipt, each of which may fail on a text that has no bytes
  obtain ⟨responseDigest, hresponse, h⟩ := Procedure.except_bind_eq_ok.mp h
  obtain ⟨digest, hdigest, h⟩ := Procedure.except_bind_eq_ok.mp h
  obtain ⟨raw, hraw, h⟩ := Procedure.except_bind_eq_ok.mp h
  -- then the gateway reads its own receipt back, and sends nothing that its verifier refuses
  cases hparse : parseBundle raw with
  | none =>
    rw [hparse] at h
    exact nomatch h
  | some bundle =>
    obtain ⟨completion, request⟩ := bundle
    rw [hparse] at h
    dsimp only at h
    cases hverify : verifyCompletion completion request none with
    | none =>
      rw [hverify] at h
      exact nomatch h
    | some checks =>
      rw [hverify] at h
      dsimp only at h
      split_ifs at h with hconsistent
      exact ⟨responseDigest, digest, raw, completion, request, checks, hresponse, hdigest, hraw,
        hparse, hverify, hconsistent, (Except.ok.inj h).symm⟩

/-- How a pass of the loop ends. -/
inductive Next
  | again
  | stop
  | finish (reply : Reply)

/-- A pass of the loop: the rows and the state it leaves, and the attempt it made. -/
structure Turn (W : Type) where
  world : W
  rows : List Row
  dispatched : Option Dispatch
  next : Next

variable {W : Type}

/-- `round((time.monotonic() - started) * 1000, 3)`. -/
def elapsedMs (C : Call) (now : Binary64) : Binary64 :=
  ((now.sub C.started).mul 1000).roundTo 3

/-- The handlers around an attempt: the rows, how the pass ends, and the state. -/
def settle (C : Call) (R : Runtime W) (rows : List Row) (candidate : Candidate)
    (provider : ProviderRecord) (remaining : Binary64) :
    Outcome → W → List Row × Next × W
  | .success upstream status identity, w =>
    let (now, w) := R.monotonic w
    match C.complete rows candidate upstream status identity (C.elapsedMs now) with
    | .ok reply => (rows, .finish reply, w)
    | .error name =>
      (rows ++ [⟨provider.id, lit "TRANSPORT_OR_CONTRACT_ERROR", none, false, some name⟩],
        .again, w)
  | .modelIdentity state, w =>
    let rows := rows ++ [⟨provider.id, state, none, false, none⟩]
    (rows, .finish (fail 503 (C.failure rows "LOCAL_MODEL_IDENTITY_UNAVAILABLE" false)), w)
  | .wallTimeout, w =>
    -- the clock is read again only when the route did not limit the attempt
    let (expired, w) :=
      if remaining ≤ MAX_TIMEOUT_SECONDS then (true, w)
      else
        let (now, w) := R.monotonic w
        (decide (C.deadline ≤ now), w)
    if provider.providerType = .ollamaLoopback ∧
        C.request.model ∈ Dict.keys provider.modelWeightDigests then
      let rows := rows ++ [Row.unknown provider.id "LOCAL_ROUTE_DEADLINE_EXCEEDED"]
      (rows, .finish (fail 503 (C.failure rows "LOCAL_ROUTE_UNAVAILABLE" true)), w)
    else
      (rows ++ [Row.unknown provider.id
        (if expired then "ROUTE_DEADLINE_EXCEEDED" else "UPSTREAM_DEADLINE_EXCEEDED")], .stop, w)
  | .httpTimeout, w =>
    (rows ++ [Row.unknown provider.id "UPSTREAM_DEADLINE_EXCEEDED"], .stop, w)
  | .httpStatus status, w =>
    (rows ++ [⟨provider.id, lit "UPSTREAM_HTTP_ERROR", some status, false, none⟩],
      if 400 ≤ status ∧ status < 500 ∧ status ≠ 429 then .stop else .again, w)
  | .failed name, w =>
    (rows ++ [⟨provider.id, lit "TRANSPORT_OR_CONTRACT_ERROR", none, false, some name⟩], .again, w)
  | .crashed name, w => (rows, .finish (.crashed name), w)

/-- One pass of the loop. -/
def turn (C : Call) (R : Runtime W) (candidate : Candidate) (rows : List Row) (w : W) : Turn W :=
  match providerById C.settings candidate.providerId with
  | none => ⟨w, rows, none, .finish (.crashed (lit "LookupError"))⟩
  | some provider =>
    let (now, w) := R.monotonic w
    let remaining := C.deadline.sub now
    if remaining ≤ 0 then
      ⟨w, rows ++ [Row.plain provider.id "ROUTE_DEADLINE_EXCEEDED"], none, .stop⟩
    else if credentialState C.env provider = .unavailable then
      ⟨w, rows ++ [Row.plain provider.id "SKIPPED_CREDENTIAL_UNAVAILABLE"], none, .again⟩
    else
      let timeout := Binary64.min MAX_TIMEOUT_SECONDS remaining
      let (outcome, w) := R.attempt provider C.request candidate.upstreamModel timeout w
      let (rows, next, w) := C.settle R rows candidate provider remaining outcome w
      ⟨w, rows, some ⟨candidate, provider, timeout, outcome⟩, next⟩

/-- A run of the loop: the reply, the candidates visited and the attempts made. -/
structure Run (W : Type) where
  world : W
  reply : Reply
  rows : List Row
  visited : List Candidate
  dispatched : List Dispatch

/-- The candidate loop. -/
def routeLoop (C : Call) (R : Runtime W) : List Candidate → List Row → W → Run W
  | [], rows, w => ⟨w, C.exhausted rows, rows, [], []⟩
  | candidate :: rest, rows, w =>
    let t := C.turn R candidate rows w
    match t.next with
    | .again =>
      let run := routeLoop C R rest t.rows t.world
      { run with
        visited := candidate :: run.visited
        dispatched := t.dispatched.toList ++ run.dispatched }
    | .stop => ⟨t.world, C.exhausted t.rows, t.rows, [candidate], t.dispatched.toList⟩
    | .finish reply => ⟨t.world, reply, t.rows, [candidate], t.dispatched.toList⟩

/-- A run that tries nothing. -/
def Run.idle (reply : Reply) (w : W) : Run W := ⟨w, reply, [], [], []⟩

/-- The attempt of a pass: the provider is the candidate's, its credential is there, and
the deadline has not passed. -/
theorem turn_dispatched {C : Call} {R : Runtime W} {c : Candidate} {rows : List Row} {w : W}
    {d : Dispatch} : (C.turn R c rows w).dispatched = some d ↔
      ∃ p, providerById C.settings c.providerId = some p ∧
        credentialState C.env p ≠ .unavailable ∧
        ¬C.deadline.sub (R.monotonic w).1 ≤ 0 ∧
        d = ⟨c, p, Binary64.min MAX_TIMEOUT_SECONDS
          (C.deadline.sub (R.monotonic w).1), (R.attempt p C.request c.upstreamModel
            (Binary64.min MAX_TIMEOUT_SECONDS (C.deadline.sub (R.monotonic w).1))
            (R.monotonic w).2).1⟩ := by
  rw [turn]
  cases hp : providerById C.settings c.providerId with
  | none => simp
  | some p =>
    dsimp only
    split_ifs with hlate hcredential
    · simp [hlate]
    · simp [hcredential]
    · constructor
      · intro h
        exact ⟨p, rfl, hcredential, hlate, (Option.some.inj h).symm⟩
      · rintro ⟨q, hq, _, _, rfl⟩
        obtain rfl := Option.some.inj hq
        rfl

/-- A run makes the attempt of its first pass. -/
theorem routeLoop_first {C : Call} {R : Runtime W} {c : Candidate} {cs : List Candidate}
    {rows : List Row} {w : W} {d : Dispatch} (h : (C.turn R c rows w).dispatched = some d) :
    d ∈ (C.routeLoop R (c :: cs) rows w).dispatched := by
  rw [routeLoop]
  dsimp only
  split <;> simp [h]

/-- By induction on the candidates: every attempt is for a candidate whose credential is
there. -/
theorem routeLoop_dispatched {C : Call} {R : Runtime W} {cs : List Candidate} {rows : List Row}
    {w : W} {d : Dispatch} (h : d ∈ (C.routeLoop R cs rows w).dispatched) :
    d.candidate ∈ cs ∧ providerById C.settings d.candidate.providerId = some d.provider ∧
      credentialState C.env d.provider ≠ .unavailable := by
  induction cs generalizing rows w with
  | nil => exact absurd h List.not_mem_nil
  | cons c cs ih =>
    rw [routeLoop] at h
    have hfirst : d ∈ (C.turn R c rows w).dispatched.toList →
        d.candidate ∈ c :: cs ∧ providerById C.settings d.candidate.providerId = some d.provider ∧
          credentialState C.env d.provider ≠ .unavailable := by
      intro hd
      obtain ⟨p, hp, hcredential, _, rfl⟩ := turn_dispatched.mp (Option.mem_toList.mp hd)
      exact ⟨List.mem_cons_self, hp, hcredential⟩
    dsimp only at h
    split at h
    · rcases List.mem_append.mp h with h | h
      · exact hfirst h
      · exact ⟨List.mem_cons_of_mem _ (ih h).1, (ih h).2⟩
    · exact hfirst h
    · exact hfirst h

end Call

/-- `chat`, with the settings it reads and the `Authorization` header it receives. -/
def chatWith {W : Type} (R : Runtime W) (settings : Settings) (env : Env) (request : ChatRequest)
    (received : Str) (w : W) : Call.Run W :=
  if settings.configState = .invalidFailClosed then
    .idle (.refused 503 [(lit "code", "INVALID_ROUTER_CONFIGURATION"),
      (lit "message", jsonOr .str settings.configError)]) w
  else if settings.egressEnabled = false then
    .idle (.refused 503 [(lit "code", "EGRESS_DISABLED"), (lit "message", .str (lit (
      "Set an allowlisted registry and SZL_ROUTER_ENABLE_EGRESS=1.")))]) w
  else match checkCallerAuth env received with
  | some reply => .idle reply w
  | none =>
    match plan settings env request.planRequest with
    | .error name => .idle (.crashed name) w
    | .ok plan =>
      if plan.candidates = [] then
        .idle (.refused 503 [(lit "code", "NO_ELIGIBLE_PROVIDER"), (lit "message", .str (lit (
          "No configured provider satisfies model, classification, and cost policy.")))]) w
      else
        match sha256 (.obj request.modelDump) with
        | .error name => .idle (.crashed name) w
        | .ok requestDigest =>
          let (started, w) := R.monotonic w
          Call.routeLoop ⟨settings, env, request, requestDigest, plan.digest, started⟩ R
            plan.candidates [] w

/-- A call that reaches the loop: the configuration is not invalid, egress is on, the caller
is authorised, and the plan has candidates. -/
structure Admitted (settings : Settings) (env : Env) (request : ChatRequest) (received : Str)
    (plan : Plan) (requestDigest : Str) : Prop where
  config : settings.configState ≠ .invalidFailClosed
  egress : settings.egressEnabled = true
  auth : checkCallerAuth env received = none
  planned : Gateway.plan settings env request.planRequest = .ok plan
  candidates : plan.candidates ≠ []
  digest : sha256 (.obj request.modelDump) = .ok requestDigest

/-- The run of an admitted call is that of the loop. -/
theorem Admitted.chatWith_eq {W : Type} {R : Runtime W} {settings : Settings} {env : Env}
    {request : ChatRequest} {received : Str} {w : W} {p : Plan} {digest : Str}
    (h : Admitted settings env request received p digest) :
    chatWith R settings env request received w =
      Call.routeLoop ⟨settings, env, request, digest, p.digest, (R.monotonic w).1⟩ R p.candidates []
        (R.monotonic w).2 := by
  rw [chatWith, if_neg h.config, if_neg (by simp [h.egress]), h.auth]
  dsimp only
  rw [h.planned]
  dsimp only
  rw [if_neg h.candidates, h.digest]

/-- A call is admitted, or it tries nothing. The guards that refuse are those of the
configuration, of the egress, of the caller's token, of an empty plan, and of a request that
cannot be hashed. -/
theorem chatWith_cases {W : Type} (R : Runtime W) (settings : Settings) (env : Env)
    (request : ChatRequest) (received : Str) (w : W) :
    (∃ p digest, Admitted settings env request received p digest) ∨
      ∃ reply, chatWith R settings env request received w = .idle reply w := by
  rw [chatWith]
  split_ifs with hconfig hegress
  · exact .inr ⟨_, rfl⟩
  · exact .inr ⟨_, rfl⟩
  rw [Bool.not_eq_false] at hegress
  cases hauth : checkCallerAuth env received with
  | some reply => exact .inr ⟨reply, rfl⟩
  | none =>
    dsimp only
    cases hplan : plan settings env request.planRequest with
    | error name => exact .inr ⟨_, rfl⟩
    | ok p =>
      dsimp only
      split_ifs with hcandidates
      · exact .inr ⟨_, rfl⟩
      cases hdigest : sha256 (.obj request.modelDump) with
      | error name => exact .inr ⟨_, rfl⟩
      | ok digest => exact .inl ⟨p, digest, hconfig, hegress, hauth, hplan, hcandidates, hdigest⟩

/-- `chat`. -/
def chat {W : Type} (L : Lax) (T : UrlTables) (R : Runtime W) (env : Env) (request : ChatRequest)
    (received : Str) (w : W) : Call.Run W :=
  chatWith R (loadSettings L T env) env request received w

end Gateway

end SzlRouter
