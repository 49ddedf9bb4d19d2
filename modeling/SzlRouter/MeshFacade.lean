/-
The HTTP facade of the mesh coordinator.

A request passes the caller gate and the body checks before it reaches `proxy`,
and `proxy` makes a worker's request headers from the caller's and an answer's
headers from the worker's.  Header names are compared without regard to case;
the dictionaries they travel in compare them as they are spelled.

* `honest_iff` — when an answer carries each provenance header once;
* `credentials_isolated` — who reaches `proxy`, which credentials a worker is
  sent, and which addresses are bound.
-/
import SzlRouter.IpAddress
import SzlRouter.MeshCoordinator

namespace SzlRouter

namespace Mesh

open Py

/-! ### Headers -/

abbrev Headers := List (Str × Str)

/-- The headers of a name, in the order they were received. -/
def named (name : Str) (headers : Headers) : Headers :=
  headers.filter fun p => Str.lower p.1 = Str.lower name

/-- `headers.get_all(name)`, empty where it is `None`. -/
def getAll (headers : Headers) (name : Str) : List Str := (named name headers).map Prod.snd

/-- `headers.get(name)`. -/
def getFirst (headers : Headers) (name : Str) : Option Str := (getAll headers name).head?

theorem named_append (name : Str) (h k : Headers) :
    named name (h ++ k) = named name h ++ named name k :=
  List.filter_append _ _

/-! ### The caller gate -/

def callerTokenEnv : Str := lit "SZL_MESH_CALLER_TOKEN"
def allowNonLoopbackEnv : Str := lit "SZL_MESH_ALLOW_NON_LOOPBACK"

section gate

-- whether this interpreter's `is_loopback` looks inside IPv4-mapped addresses
variable (mapped : Bool)

def isBracket (c : CodePoint) : Bool := c = chr '[' ∨ c = chr ']'

/-- `host.strip().strip("[]")`. -/
def bareHost (host : Str) : Str :=
  Str.rstripWhile isBracket ((Str.strip host).dropWhile isBracket)

def isLoopbackHost (host : Str) : Bool :=
  if Str.lower (bareHost host) = lit "localhost" then true
  else match IpAddress.ipAddress (bareHost host) with
    | some ip => ip.isLoopback mapped
    | none => false

/-- `caller_authorized`; `none` where a credential cannot be encoded. -/
def callerAuthorized (headerValue token : Option Str) : Option Bool :=
  if token.getD [] = [] ∨ headerValue.getD [] = [] then some false
  else
    let parts := Str.partition (chr ' ') (Str.strip (headerValue.getD []))
    if Str.lower parts.1 ≠ lit "bearer" then some false
    else do
      let given ← utf8 (Str.strip parts.2.2)
      let wanted ← utf8 (token.getD [])
      return given = wanted

/-- What a handler is made with. -/
structure Handler where
  token : Option Str
  maxBodyBytes : ℤ

/-- `(token or "").strip() or None`. -/
def cleanToken (token : Option Str) : Option Str :=
  if Str.strip (token.getD []) = [] then none else some (Str.strip (token.getD []))

def makeHandler (callerToken : Option Str) (maxBodyBytes : ℤ) : Handler :=
  ⟨cleanToken callerToken, maxBodyBytes⟩

/-- What a read from the connection gives. -/
inductive Received
  | bytes (body : Bytes)
  | timedOut
  | broken

/-- A request.  `read` is what the connection gives to a read of so many bytes; a read for
which there is no memory is `broken`. -/
structure Incoming where
  method : Str
  path : Str
  headers : Headers
  peer : Option Str
  read : ℕ → Received

/-- `sys.maxsize` of a 64-bit interpreter. -/
def maxsize : ℕ := 9223372036854775807

/-- `rfile.read(n)`; `none` is the `OverflowError` of a number that is no index, which is
raised before anything is read. -/
def Incoming.rfileRead (q : Incoming) (n : ℕ) : Option Received :=
  if maxsize < n then none else some (q.read n)

/-- An answer that the facade makes itself. -/
structure Own where
  code : ℤ
  body : Json
  extra : Headers := []

def err (code : ℤ) (kind msg : Str) (extra : Headers) : Own :=
  ⟨code, .obj [(lit "error", .obj [(lit "message", .str msg), (lit "type", .str kind)])], extra⟩

/-- What `_authorize` does. -/
inductive Gate
  | passes
  | rejects (answer : Own)
  | raises

def authorize (h : Handler) (q : Incoming) : Gate :=
  match h.token with
  | some token =>
    match callerAuthorized (getFirst q.headers (lit "Authorization")) (some token) with
    | some true => .passes
    | some false => .rejects (err 401 (lit "unauthorized") (lit "caller bearer token required")
        [(lit "WWW-Authenticate", lit "Bearer")])
    | none => .raises
  | none =>
    if isLoopbackHost mapped (q.peer.getD []) then .passes
    else .rejects (err 403 (lit "forbidden")
      (lit "no caller token configured; loopback peers only") [])

end gate

/-! ### The body -/

/-- What `_read_body` does, and how many bytes it asked the connection for. -/
inductive Body
  | accepted (asked : Option ℕ) (body : Option Bytes)
  | rejected (asked : Option ℕ) (answer : Own)
  | raises (asked : Option ℕ)

/-- A space or a tab. -/
def isOws (c : CodePoint) : Bool := c = chr ' ' ∨ c.val = 9

/-- `str(n)`. -/
def intText (n : ℤ) : Str := (Numeral.ofInt n).print

/-- `raw.lstrip("0") or "0"`. -/
def significant (raw : Str) : Str :=
  if raw.dropWhile (· = chr '0') = [] then lit "0" else raw.dropWhile (· = chr '0')

def readBody (h : Handler) (q : Incoming) : Body :=
  if getAll q.headers (lit "Transfer-Encoding") ≠ [] then
    .rejected none (err 411 (lit "length_required")
      (lit "Transfer-Encoding not supported; send Content-Length") [])
  else match getAll q.headers (lit "Content-Length") with
  | [] =>
    if q.method = lit "POST" then
      .rejected none (err 411 (lit "length_required") (lit "Content-Length required") [])
    else .accepted none none
  | [length] =>
    let raw := Str.rstripWhile isOws (length.dropWhile isOws)
    let digits := significant raw
    let limit := intText h.maxBodyBytes
    if raw = [] ∨ raw.all Str.isDigit = false then
      .rejected none (err 400 (lit "bad_content_length")
        (lit "malformed or negative Content-Length") [])
    -- `str` refuses an integer past the interpreter's limit on digits
    else if maxIntDigits < (natDigits h.maxBodyBytes.natAbs).length then .raises none
    else if h.maxBodyBytes < 0 ∨ limit.length < digits.length ∨
        (digits.length = limit.length ∧ limit < digits) then
      .rejected none (err 413 (lit "payload_too_large")
        (lit "body exceeds " ++ limit ++ lit " bytes") [])
    else if digitsVal digits = 0 then .accepted none none
    else match q.rfileRead (digitsVal digits) with
      | none => .raises none
      | some .timedOut => .rejected (some (digitsVal digits))
          (err 408 (lit "request_timeout") (lit "body read timed out") [])
      | some .broken => .raises (some (digitsVal digits))
      | some (.bytes body) =>
        if body.length ≠ digitsVal digits then
          .rejected (some (digitsVal digits))
            (err 400 (lit "short_body") (lit "body shorter than Content-Length") [])
        else .accepted (some (digitsVal digits)) (some body)
  | _ => .rejected none (err 400 (lit "bad_content_length")
      (lit "multiple Content-Length headers") [])

/-! ### Routes -/

/-- What `_route` does with a request. -/
inductive Route
  | answers (own : Own)
  | status
  | proxies (subPath : Str) (body : Option Bytes) (inHeaders : Headers)
  | raises

section route

variable (mapped : Bool)

/-- The caller's headers that are handed to `proxy`. -/
def inHeaders (h : Handler) (q : Incoming) : Headers :=
  match h.token with
  | some _ => (Dict.update [] q.headers).filter fun p => Str.lower p.1 ≠ lit "authorization"
  | none => Dict.update [] q.headers

/-- `_route`; `now` is the time in seconds. -/
def route (h : Handler) (q : Incoming) (now : ℤ) : Route :=
  let path := (Str.partition (chr '?') q.path).1
  if path = lit "/healthz" then
    .answers ⟨200, .obj [(lit "ok", .bool true), (lit "service", .str (lit "szl-mesh-coordinator")),
      (lit "ts", .int now)], []⟩
  else if path ∉ [lit "/coordinator/status", lit "/status"] ∧
      Str.startsWith path (lit "/v1/") = false then
    .answers ⟨404, .obj [(lit "error", .str (lit "not found")), (lit "path", .str path)], []⟩
  else match authorize mapped h q with
  | .raises => .raises
  | .rejects own => .answers own
  | .passes =>
    if path ∈ [lit "/coordinator/status", lit "/status"] then .status
    else match readBody h q with
    | .raises _ => .raises
    | .rejected _ own => .answers own
    | .accepted _ body => .proxies (path.drop 3) body (inHeaders h q)

end route

/-! ### A worker's request -/

section request

-- `str.isalnum` and `str.upper` of one character, over all of Unicode
variable (isalnum : CodePoint → Bool) (upper : CodePoint → Str)

/-- The environment variable that holds a worker's key. -/
def workerKeyEnv (w : Worker) : Str :=
  lit "SZL_MESH_" ++ w.name.flatMap (fun c => if isalnum c then upper c else lit "_") ++
    lit "_TOKEN"

def workerKey (environ : Str → Option Str) (w : Worker) : Option Str :=
  cleanToken (environ (workerKeyEnv isalnum upper w))

/-- `hdrs` of one dispatch. -/
def workerHeaders (environ : Str → Option Str) (w : Worker) (host : Str) (port : ℕ)
    (inHeaders : Headers) : Headers :=
  let hdrs := inHeaders.filter fun p => Str.lower p.1 ∉ hopByHop ∧ Str.lower p.1 ≠ lit "host"
  let hdrs := Dict.set hdrs (lit "Host") (host ++ chr ':' :: natDigits port)
  match workerKey isalnum upper environ w with
  | some key => Dict.set hdrs (lit "Authorization") (lit "Bearer " ++ key)
  | none => hdrs

/-- `_get_content_length` of a body that is bytes or absent. -/
def contentLength (method : Str) : Option Bytes → Option ℕ
  | some body => some body.length
  | none => if Str.upper method ∈ [lit "PATCH", lit "POST", lit "PUT"] then some 0 else none

/-- `Accept-Encoding`, which `putrequest` adds where it is not given. -/
def encodingHeader (hdrs : Headers) : Headers :=
  if named (lit "accept-encoding") hdrs = [] then [(lit "Accept-Encoding", lit "identity")] else []

/-- `Content-Length`, which `_send_request` adds where no framing is given. -/
def lengthHeader (method : Str) (body : Option Bytes) (hdrs : Headers) : Headers :=
  if named (lit "content-length") hdrs = [] ∧ named (lit "transfer-encoding") hdrs = [] then
    (contentLength method body).toList.map fun n => (lit "Content-Length", natDigits n)
  else []

/-- The header lines that `conn.request` writes, where the given ones name the host. -/
def requestHeaders (method : Str) (body : Option Bytes) (hdrs : Headers) : Headers :=
  encodingHeader hdrs ++ lengthHeader method body hdrs ++ hdrs

end request

/-! ### The answer -/

/-- The header lines of an answer that is passed on.  `server` and `date` are
what `send_response` writes first. -/
def answerHeaders (server date : Str) (headers : Headers) (raw : Bytes) : Headers :=
  (lit "Server", server) :: (lit "Date", date) ::
    (headers ++ [(lit "Content-Length", natDigits raw.length), (lit "Connection", lit "close")])

/-! ### Starting the server -/

def envTruthy (environ : Str → Option Str) (name : Str) : Bool :=
  Str.lower (Str.strip ((environ name).getD [])) ∈ [lit "1", lit "true", lit "yes", lit "on"]

/-- The address a server listens on and its handler's token. -/
structure Listening where
  host : Str
  token : Option Str

section serve

-- `repr` of a string
variable (mapped : Bool) (repr : Str → Str)

/-- `check_bind`, with the message of the refusal. -/
def checkBind (host : Str) (callerToken : Option Str) (allowNonLoopback : Bool) :
    Except Str Unit :=
  if isLoopbackHost mapped host then .ok ()
  else if allowNonLoopback = false then
    .error (lit "refusing non-loopback bind " ++ repr host ++
      lit ": pass --allow-non-loopback or set " ++ allowNonLoopbackEnv ++
      lit "=1 (and configure " ++ callerTokenEnv ++ lit ")")
  else if callerToken.getD [] = [] then
    .error (lit "refusing non-loopback bind " ++ repr host ++ lit ": " ++ callerTokenEnv ++
      lit " is not configured")
  else .ok ()

/-- `serve` as far as its refusals: what it goes on to listen on. -/
def serve (host : Str) (allowNonLoopback : Option Bool) (callerToken : Option Str)
    (environ : Str → Option Str) : Except Str Listening := do
  let token := cleanToken (callerToken <|> environ callerTokenEnv)
  let allow := allowNonLoopback.getD (envTruthy environ allowNonLoopbackEnv)
  checkBind mapped repr host token allow
  return ⟨host, token⟩

end serve

end Mesh

end SzlRouter
