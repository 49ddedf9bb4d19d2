/-
What one call does to the outside: reading clocks, posting to a provider,
writing attempt rows.

The surroundings of a call are arbitrary.  Every reading the call takes, every
answer it is given and everything other requests do meanwhile is a function of
the number of steps the call has made, so any sequence of them occurs.
-/
import SzlRouter.Providers
import SzlRouter.RequestBudgetRuns
import SzlRouter.JsonLoads

open Py

namespace SzlRouter

/-- An exception other than `BudgetStop`. -/
inductive Failure
  /-- `urllib.error.HTTPError`, with its status, its body and `str(e)`. -/
  | http (code : ℤ) (body : Bytes) (message : Str)
  /-- `http.client.HTTPException` or `OSError`. -/
  | transport (kind message : Str)
  /-- Any other exception. -/
  | other (kind message : Str)
  deriving DecidableEq

def valueError (message : String) : Failure := .other (lit "ValueError") (lit message)

/-- `f"{type(e).__name__}: {e}"[:200]`. -/
def Failure.describe : Failure → Str
  | .http _ _ message => (lit "HTTPError: " ++ message).take 200
  | .transport kind message => (kind ++ lit ": " ++ message).take 200
  | .other kind message => (kind ++ lit ": " ++ message).take 200

/-- `Attempt`, one row of the attempt trail. -/
structure Attempt where
  provider : Str
  upstreamModel : Str
  ok : Bool
  status : Option ℤ := none
  error : Option Str := none
  latencyMs : Option ℤ := none
  deriving DecidableEq

namespace Attempt

/-- A row written without a dispatch: only such rows have no latency. -/
def isSkip (a : Attempt) : Bool := a.latencyMs.isNone

/-- The provider and the model a row is about. -/
def label (a : Attempt) : Str × Str := (a.provider, a.upstreamModel)

/-- `a.__dict__`. -/
def toJson (a : Attempt) : Json :=
  .obj [(lit "provider", .str a.provider), (lit "upstream_model", .str a.upstreamModel),
    (lit "ok", .bool a.ok), (lit "status", (a.status.map Json.int).getD .null),
    (lit "error", (a.error.map Json.str).getD .null),
    (lit "latency_ms", (a.latencyMs.map Json.int).getD .null)]

end Attempt

/-- The request that reaches `request_json`. -/
structure Request where
  url : Str
  data : Str
  headers : List (Str × Str)
  deriving DecidableEq

/-- The hooks of a plain `json.loads(text)`. -/
def plainLoads : LoadOpts := ⟨false, true⟩

/-- What `json.loads(body.decode("utf-8"))` can return. -/
def Parsed : Type :=
  {v : Json // ∃ body text, decodeUtf8 body = some text ∧ loads plainLoads text = some v}

instance : DecidableEq Parsed := inferInstanceAs (DecidableEq (Subtype _))

/-- What a poster answers or raises. -/
inductive Reply
  | json (result : Parsed)
  | failed (e : Failure)
  deriving DecidableEq

/-- One invocation of a poster and its answer; `request` is `none` when the payload
has no JSON text, and then nothing reaches the transport. -/
structure Post where
  provider : Provider
  payload : Dict
  timeout : Binary64
  request : Option Request
  reply : Reply
  deriving DecidableEq

/-- `payload["model"]`, when that is a string. -/
def payloadModel (payload : Dict) : Str :=
  match Dict.get payload (lit "model") with
  | some (.str model) => model
  | _ => []

/-- The provider and the model a post is about. -/
def Post.label (p : Post) : Str × Str := (p.provider.name, payloadModel p.payload)

/-- A reservation: what the budget lock holder saw, and what was handed out. -/
structure Grant where
  attempt : ℕ
  terminal : Option TerminalReason
  now : Binary64
  sendTimeout : Binary64
  deriving DecidableEq

/-- What a call has done, in order. -/
inductive Event
  | reserved (grant : Grant)
  | post (post : Post)
  | slept (delay : Binary64)
  deriving DecidableEq

/-- The events of reserving and posting. -/
def Event.isDispatch : Event → Bool
  | .reserved _ => true
  | .post _ => true
  | _ => false

def Event.post? : Event → Option Post
  | .post p => some p
  | _ => none

/-- The poster invocations among the events. -/
def posts (events : List Event) : List Post := events.filterMap Event.post?

/-- The cooldown table: the time until which a provider is cooling. -/
abbrev Cooldowns := Str → Option Binary64

/-- Everything a call does not decide itself, by the step at which it happens. -/
structure Surroundings where
  env : ℕ → Env
  /-- What a provider's endpoint answers. -/
  reply : ℕ → Reply
  /-- The budget clock. -/
  clock : ℕ → Binary64
  /-- `time.time()`. -/
  time : ℕ → Binary64
  /-- `random.uniform(0, ceiling)`. -/
  uniform : ℕ → Binary64 → Binary64
  /-- The exception of a sleep, when it raises one. -/
  sleepError : ℕ → Option Failure
  /-- The calls that other users of the budget make before the step. -/
  others : ℕ → List RequestBudget.Call
  /-- What other requests do to the cooldown table before the step. -/
  cooldowns : ℕ → Cooldowns → Cooldowns

/-- The state of a call that the retry helper works on. -/
structure CallState where
  tick : ℕ
  budget : Option RequestBudget
  attempts : List Attempt
  events : List Event

namespace CallState

/-- One step later. -/
def next (s : CallState) : CallState := { s with tick := s.tick + 1 }

/-- One step later, with an event. -/
def log (s : CallState) (e : Event) : CallState :=
  { s with tick := s.tick + 1, events := s.events ++ [e] }

/-- `attempts.append(row)`. -/
def row (s : CallState) (a : Attempt) : CallState := { s with attempts := s.attempts ++ [a] }

end CallState

namespace Surroundings

variable (S : Surroundings)

/-- The budget as the next holder of its lock finds it. -/
def budgetAt (b : RequestBudget) (tick : ℕ) : RequestBudget :=
  (Transition.runs RequestBudget.step b (S.others tick)).1

/-- `budget.clock()`. -/
def readClock (s : CallState) : Except Failure Binary64 × CallState :=
  (if (S.clock s.tick).isFinite then .ok (S.clock s.tick)
    else .error (valueError "clock must return a finite monotonic time"), s.next)

end Surroundings

/-! ### Posting -/

/-- The options of a plain `json.dumps(value)`. -/
def plainDumps : DumpOpts := ⟨true, false, true, false⟩

/-- `_upstream_headers` of a provider with this key. -/
def upstreamHeaders (key : Option Str) : List (Str × Str) :=
  [(lit "Content-Type", lit "application/json"), (lit "User-Agent", lit "szl-router/1.0"),
    (lit "Accept", lit "application/json")] ++
  match key with
  | some key => if key = [] then [] else [(lit "Authorization", lit "Bearer " ++ key)]
  | none => []

/-- `_post_chat` and `_post_embeddings`, which differ in the path. -/
inductive Poster
  | chat
  | embeddings
  deriving DecidableEq

def Poster.path : Poster → Str
  | .chat => lit "/chat/completions"
  | .embeddings => lit "/embeddings"

/-- The request for a URL and a key. -/
def Poster.requestTo (poster : Poster) (url : Str) (key : Option Str) (payload : Dict) :
    Option Request :=
  (dumps plainDumps (.obj payload)).map fun data =>
    { url := url ++ poster.path, data := data, headers := upstreamHeaders key }

/-- The request a poster hands to the connection pool. -/
def Poster.request (poster : Poster) (p : Provider) (env : Env) (payload : Dict) :
    Option Request :=
  poster.requestTo (p.baseUrl env) (p.apiKey env) payload

/-- An integer of a payload has too many digits for a JSON text. -/
def digitsError : Failure :=
  valueError ("Exceeds the limit (4300 digits) for integer string conversion; " ++
    "use sys.set_int_max_str_digits() to increase the limit")

/-- `poster(provider, payload, timeout)`. -/
def Surroundings.send (S : Surroundings) (poster : Poster) (p : Provider) (payload : Dict)
    (timeout : Binary64) (s : CallState) : Reply × CallState :=
  let request := poster.request p (S.env s.tick) payload
  -- a payload without a JSON text raises before the pool is asked
  let reply := if request.isSome then S.reply s.tick else .failed digitsError
  (reply, s.log (.post ⟨p, payload, timeout, request, reply⟩))

/-! ### Rows -/

/-- `_latency_ms`: a difference without an integer part counts as zero. -/
def latencyMs (now started : Binary64) : ℤ :=
  max 0 ((now.sub started).mul 1000).trunc

/-- `int((time.time() - t0) * 1000)`. -/
def elapsedMs (now t0 : Binary64) : ℤ := ((now.sub t0).mul 1000).trunc

/-- `_http_error_text`. -/
def httpErrorText (body : Bytes) (message : Str) : Str :=
  ((decodeUtf8 body).getD message).take 200

/-- `_transport_attempt` for a reply. -/
def transportAttempt (p : Provider) (payload : Dict) (reply : Reply) (latency : ℤ) : Attempt :=
  match reply with
  | .json _ => ⟨p.name, payloadModel payload, true, some 200, none, some latency⟩
  | .failed (.http code body message) =>
    ⟨p.name, payloadModel payload, false, some code, some (httpErrorText body message),
      some latency⟩
  | .failed e => ⟨p.name, payloadModel payload, false, none, some e.describe, some latency⟩

theorem transportAttempt_label (p : Provider) (payload : Dict) (reply : Reply) (latency : ℤ) :
    (transportAttempt p payload reply latency).label = (p.name, payloadModel payload) := by
  unfold transportAttempt
  split <;> rfl

theorem transportAttempt_isSkip (p : Provider) (payload : Dict) (reply : Reply) (latency : ℤ) :
    (transportAttempt p payload reply latency).isSkip = false := by
  unfold transportAttempt
  split <;> rfl

end SzlRouter
