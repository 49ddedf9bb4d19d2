/-
The drift verifier of the status Space.

An attempt reads the Space's revision and stage, compares the published tree
with the source snapshot, reads the two runtime witnesses, and reads revision
and stage again.  All attempts write into one evidence record.  `World` is what
the provider, the checkout and the clock answer.  The marks of a state are kept for
the statements: which positive state was written, and the revision of the attempt
that wrote it.
-/
import SzlRouter.KeyedHistory
import SzlRouter.Procedure
import SzlRouter.Sha256
import SzlRouter.SpaceSource
import SzlRouter.Dispatch

namespace SzlRouter

namespace Drift

open Py

/-! ### Failures and configuration -/

structure VerificationFailure where
  code : Str
  message : Str
  retryable : Bool := false
  details : Dict := []

/-- What ends an attempt: a classified failure, or another exception. -/
inductive Stop
  | failure (f : VerificationFailure)
  | crash (name : Str)

def hubOrigin : Str := lit "https://huggingface.co"
def sourceRepository : Str := lit "szl-holdings/szl-router"
def maxResponseBytes : ℕ := 1024 * 1024
def maxTreeEntries : ℕ := 1000
def maxWitnessAgeSeconds : ℤ := 120

def transientStages : List Str :=
  [lit "BUILDING", lit "RUNNING_BUILDING", lit "STARTING", lit "APP_STARTING",
    lit "RUNNING_APP_STARTING"]

/-- A validated configuration. -/
structure Config where
  repoId : Str
  endpoint : Str
  endpointHostname : Str
  sourceRevision : Str
  token : Str
  witnessTimeout : Binary64
  pollInterval : Binary64
  requestTimeout : Binary64
  exact : isSha sourceRevision = true
  timeout_range : (1 : Binary64) ≤ witnessTimeout ∧ witnessTimeout ≤ Binary64.ofInt 900
  poll_range : Binary64.ofDecimal false 1 (-1) ≤ pollInterval ∧ pollInterval ≤ Binary64.ofInt 30
  request_range : Binary64.ofDecimal false 5 (-1) ≤ requestTimeout ∧
    requestTimeout ≤ Binary64.ofInt 60

/-! ### URLs -/

/-- `%XX`. -/
def percent (b : Byte) : Str := chr '%' :: Str.upper [hexChar (b.val / 16), hexChar b.val]

/-- `urllib.parse.quote(s, safe=safe)`. -/
def quoteUrl (safe s : Str) : Str :=
  s.flatMap fun c =>
    if Str.isAlnum c ∨ c ∈ lit "_.-~" ∨ c ∈ safe then [c] else (utf8Char c).flatMap percent

def repoPath (repoId : Str) : Str :=
  quoteUrl [] (Str.partition (chr '/') repoId).1 ++ lit "/" ++
    quoteUrl [] (Str.partition (chr '/') repoId).2.2

def providerInfoUrl (repoId : Str) : Str :=
  hubOrigin ++ lit "/api/spaces/" ++ repoPath repoId ++ lit "?expand[]=sha&expand[]=subdomain"

def providerRuntimeUrl (repoId : Str) : Str :=
  hubOrigin ++ lit "/api/spaces/" ++ repoPath repoId ++ lit "/runtime"

def treeUrl (repoId hfRevision : Str) : Str :=
  hubOrigin ++ lit "/api/spaces/" ++ repoPath repoId ++ lit "/tree/" ++ hfRevision ++
    lit "?recursive=true&expand=false&limit=1000"

def resolveUrl (repoId hfRevision path : Str) : Str :=
  hubOrigin ++ lit "/spaces/" ++ repoPath repoId ++ lit "/resolve/" ++ hfRevision ++ lit "/" ++
    quoteUrl (lit "/") path

def readinessUrl (endpoint nonce : Str) : Str := endpoint ++ lit "/readyz?nonce=" ++ nonce

def attestationUrl (endpoint nonce : Str) : Str :=
  endpoint ++ lit "/.well-known/szl-source.json?refresh=1&nonce=" ++ nonce

/-! ### HTTP -/

/-- What a request is answered with. -/
inductive Answer
  | response (status : ℤ) (finalUrl contentType : Str) (headers : List (Str × Str)) (body : Bytes)
  | httpError (code : ℤ) (location : Option Str)
  | unavailable (exception : Str)
  | crash (exception : Str)

structure Get where
  url : Str
  authenticated : Bool
  redirects : Bool
  timeout : Binary64

/-- One request, its answer, and the last reading of the clock before it. -/
structure Read where
  get : Get
  answer : Answer
  sentAt : Binary64

structure Response where
  body : Bytes
  status : ℤ
  contentType : Str
  headers : List (Str × Str)

def retryableStatus (status : ℤ) : Bool := status ∈ [408, 425, 429, 500, 502, 503, 504]

def httpStatus (status : ℤ) : VerificationFailure :=
  ⟨lit "HTTP_STATUS",
    lit "HTTP request returned status " ++ (Numeral.ofInt status).print ++ lit ", expected 200.",
    retryableStatus status, [(lit "status", Json.int status)]⟩

def responseTooLarge : VerificationFailure :=
  ⟨lit "HTTP_RESPONSE_TOO_LARGE",
    lit "HTTP response exceeded the bounded evidence size.", false, []⟩

/-- `HttpClient._request`, once the answer is there. -/
def readAnswer (r : Read) : Except Stop Response :=
  match r.answer with
  | .crash exception => .error (.crash exception)
  | .unavailable exception => .error (.failure ⟨lit "HTTP_UNAVAILABLE",
      lit "HTTP observation failed with " ++ exception ++ lit ".", true, []⟩)
  | .httpError code location =>
    if 300 ≤ code ∧ code < 400 then .error (.failure ⟨lit "HTTP_REDIRECT",
      lit "HTTP redirect rejected by witness policy.", retryableStatus code,
      [(lit "status", Json.int code), (lit "location", (location.map Json.str).getD .null)]⟩)
    else .error (.failure { httpStatus code with
      details := [(lit "status", Json.int code), (lit "location", .null)] })
  | .response status finalUrl contentType headers body =>
    if status ≠ 200 then .error (.failure (httpStatus status))
    else if !r.get.redirects ∧ finalUrl ≠ r.get.url then .error (.failure ⟨lit "HTTP_REDIRECT",
      lit "HTTP redirect rejected by witness policy.", false, [(lit "final_url", .str finalUrl)]⟩)
    else if maxResponseBytes < body.length then .error (.failure responseTooLarge)
    else .ok ⟨body, status, contentType,
      Dict.update [] (headers.map fun h => (Str.lower h.1, h.2))⟩

/-- `content_type.split(";", 1)[0].strip().lower()`. -/
def mediaType (contentType : Str) : Str :=
  Str.lower (Str.strip (Str.partition (chr ';') contentType).1)

/-- `json.loads(body.decode("utf-8"))` under the handler of `UnicodeError` and `JSONDecodeError`.
The exception that a limit of the interpreter raises is neither of them: a plain `ValueError`
for an integer of too many digits, a `RecursionError` for arrays or objects too deep. -/
def loadsBody (limitError : Str → Option Str) (malformed : VerificationFailure) (body : Bytes) :
    Except Stop Json :=
  match decodeUtf8 body with
  | none => .error (.failure malformed)
  | some text =>
    match limitError text with
    | some exception => .error (.crash exception)
    | none =>
      match loads plainLoads text with
      | none => .error (.failure malformed)
      | some v => .ok v

/-- The media type is one of JSON. -/
def isJsonType (contentType : Str) : Bool :=
  mediaType contentType = lit "application/json" ∨
    Str.endsWith (mediaType contentType) (lit "+json")

/-- `HttpClient._decode_json`. -/
def decodeJson (limitError : Str → Option Str) (r : Response) : Except Stop Json :=
  if !isJsonType r.contentType then
    .error (.failure ⟨lit "MALFORMED_HTTP_RESPONSE",
      lit "Expected a JSON response; auth and error pages are not accepted.", false,
      [(lit "content_type", if mediaType r.contentType = [] then .null
        else .str (mediaType r.contentType))]⟩)
  else loadsBody limitError ⟨lit "MALFORMED_HTTP_RESPONSE",
    lit "HTTP response was not valid UTF-8 JSON.", false, []⟩ r.body

def objectRoot (limitError : Str → Option Str) (r : Response) : Except Stop Dict :=
  match decodeJson limitError r with
  | .error e => .error e
  | .ok (.obj d) => .ok d
  | .ok _ => .error (.failure ⟨lit "MALFORMED_HTTP_RESPONSE",
      lit "JSON response root must be an object.", false, []⟩)

def arrayRoot (limitError : Str → Option Str) (r : Response) : Except Stop (List Json) :=
  match decodeJson limitError r with
  | .error e => .error e
  | .ok (.arr xs) => .ok xs
  | .ok _ => .error (.failure ⟨lit "MALFORMED_HTTP_RESPONSE",
      lit "JSON response root must be an array.", false, []⟩)

/-! ### Evidence -/

inductive RevisionState
  | unverified
  | observed
  | changedDuringWitness
  | exactStable
  deriving DecidableEq

inductive BindingState
  | unverified
  | mismatch
  | aligned
  deriving DecidableEq

inductive BytesState
  | unverified
  | drift
  | aligned
  deriving DecidableEq

inductive OutputSetState
  | unverified
  | drift
  | exact
  deriving DecidableEq

structure FileEvidence where
  path : Str
  sourceSha256 : Str
  publicationSha256 : Str
  aligned : Bool
  deriving DecidableEq

structure Publication where
  revision : Option Str := none
  revisionState : RevisionState := .unverified
  sourceBindingState : BindingState := .unverified
  bytesState : BytesState := .unverified
  outputSetState : OutputSetState := .unverified
  expectedFiles : ℕ := 0
  observedFiles : ℕ := 0
  missingFiles : List Str := []
  unexpectedFiles : List Str := []
  filesChecked : ℕ := 0
  files : List FileEvidence := []
  deriving DecidableEq

inductive StageState
  | unverified
  | rejected
  | revisionMismatch
  | accepted
  deriving DecidableEq

structure Deployment where
  endpointMatched : Bool := false
  providerStage : Option Str := none
  runtimeRevision : Option Str := none
  stageState : StageState := .unverified
  deriving DecidableEq

inductive WitnessState
  | unverified
  | sourceAndHfRevisionBound
  deriving DecidableEq

structure Runtime where
  readinessUrl : Str
  readinessHttpStatus : Option ℤ := none
  ready : Bool := false
  sourceAttestationUrl : Str
  attestedSourceRevision : Option Json := none
  attestedHfRevision : Option Json := none
  attestationObservedAt : Option Json := none
  noStoreFresh : Bool := false
  witnessNonce : Option Str := none
  witnessState : WitnessState := .unverified

inductive PublicationState
  | unverified
  | outputSetDrift
  | byteDrift
  | sourceBindingMismatch
  | exactRevisionAligned
  | staleOrRacingRevision
  deriving DecidableEq

inductive DeploymentState
  | unverified
  | stage (s : Str)
  | runningStaleRevision
  | providerRunning
  deriving DecidableEq

inductive RuntimeState
  | unverified
  | readyWitnessed
  deriving DecidableEq

inductive Verdict
  | rejected
  | accepted
  deriving DecidableEq

structure Truth where
  sourceExact : Bool := false
  publicationState : PublicationState := .unverified
  deploymentState : DeploymentState := .unverified
  runtimeState : RuntimeState := .unverified
  acceptanceState : Verdict := .rejected
  deriving DecidableEq

structure Attempt where
  attempt : ℕ
  state : Verdict
  code : Option Str
  retryable : Bool
  providerStage : Option Str
  hfRevision : Option Str

structure Evidence where
  verdict : Verdict := .rejected
  sourceExact : Bool := false
  publication : Publication := {}
  deployment : Deployment := {}
  runtime : Runtime
  sourceToPublication : Bool := false
  publicationToRuntime : Bool := false
  truth : Truth := {}
  attempts : List Attempt := []
  failure : Option VerificationFailure := none

def newEvidence (cfg : Config) : Evidence where
  runtime := {
    readinessUrl := cfg.endpoint ++ lit "/readyz"
    sourceAttestationUrl := cfg.endpoint ++ lit "/.well-known/szl-source.json?refresh=1" }

/-! ### The world and the state of a run -/

inductive Timestamp
  | invalid
  | naive
  | aware (microseconds : ℤ)

/-- What the surroundings answer; each is asked at a moment of its own.  Between
two moments the clock moves by `elapse`, and over a sleep by `wake`. -/
structure World where
  answer : ℕ → Get → Answer
  checkout : ℕ → Checkout
  tokenHex : ℕ → Str
  utcNow : ℕ → ℤ
  fromIsoFormat : Str → Timestamp
  elapse : ℕ → Binary64 → Binary64
  wake : ℕ → Binary64 → Binary64 → Binary64
  /-- the exception that `json.loads` raises on a text at a limit of the interpreter -/
  limitError : Str → Option Str
  /-- An object of scalars that was written is read back without meeting one. -/
  limitError_flat : ∀ d text, (∀ p ∈ d, Scalar p.2) →
    dumpsIndent indentDumps (.obj d) = some text → limitError (text ++ [10]) = none

/-- The states of the evidence that say something good about a revision. -/
inductive Mark
  | outputSetExact
  | bytesAligned
  | sourceBindingAligned
  | publicationAligned
  | witnessBound
  | readyWitnessed
  deriving DecidableEq

structure State where
  moment : ℕ
  clock : Binary64
  reads : List Read
  evidence : Evidence
  marks : List (KeyedHistory.Change Mark Str)

abbrev Verify := EStateM Stop State

def fail {α : Type} (f : VerificationFailure) : Verify α := throw (.failure f)

/-- Change the evidence. -/
def record (f : Evidence → Evidence) : Verify Unit :=
  modify fun s => { s with evidence := f s.evidence }

/-- Change the evidence to positive states of this revision. -/
def establish (ms : List Mark) (hfRevision : Str) (f : Evidence → Evidence) : Verify Unit :=
  modify fun s => { s with
    evidence := f s.evidence
    marks := s.marks ++ ms.map fun m => .put m hfRevision }

/-- The answer to a question, or the failure it names. -/
def orFail {α : Type} : Except VerificationFailure α → Verify α
  | .error f => fail f
  | .ok a => pure a

/-- The answer to a question, or what it raises. -/
def orStop {α : Type} : Except Stop α → Verify α
  | .error e => throw e
  | .ok a => pure a

/-- A question to the surroundings at a moment of its own. -/
def ask {α : Type} (question : ℕ → α) : Verify α := do
  let s ← get
  set { s with moment := s.moment + 1 }
  return question s.moment

section attempt

variable (W : World) (cfg : Config) (deadline : Binary64)

/-- `time.monotonic()`. -/
def monotonic : Verify Binary64 := do
  modify fun s => { s with clock := W.elapse s.moment s.clock, moment := s.moment + 1 }
  return (← get).clock

def timedOut : VerificationFailure :=
  ⟨lit "WITNESS_TIMEOUT", lit "Bounded provider/runtime witness timed out before acceptance.",
    false, []⟩

def timeoutForCall : Verify Binary64 := do
  let now ← monotonic W
  if deadline.sub now ≤ 0 then
    fail timedOut
  return Binary64.min cfg.requestTimeout (deadline.sub now)

/-- The request, with the credential when there is one, and its answer. -/
def State.read (s : State) (url : Str) (timeout : Binary64) (authenticate redirects : Bool) :
    Read :=
  let g : Get := ⟨url, authenticate && cfg.token ≠ [], redirects, timeout⟩
  ⟨g, W.answer s.moment g, s.clock⟩

def State.addRead (s : State) (r : Read) : State :=
  { s with moment := s.moment + 1, reads := s.reads ++ [r] }

/-- `HttpClient._request`. -/
def request (url : Str) (timeout : Binary64) (authenticate redirects : Bool) : Verify Response :=
  fun s =>
    match readAnswer (s.read W cfg url timeout authenticate redirects) with
    | .error e => .error e (s.addRead (s.read W cfg url timeout authenticate redirects))
    | .ok r => .ok r (s.addRead (s.read W cfg url timeout authenticate redirects))

/-- A request under `timeout=timeout_for_call()`. -/
def fetch (url : Str) (authenticate redirects : Bool) : Verify Response := do
  let timeout ← timeoutForCall W cfg deadline
  request W cfg url timeout authenticate redirects

def getJson (url : Str) : Verify Dict := do
  let r ← fetch W cfg deadline url true false
  orStop (objectRoot W.limitError r)

def getJsonArray (url : Str) : Verify (List Json) := do
  let r ← fetch W cfg deadline url true false
  orStop (arrayRoot W.limitError r)

def getWitnessJson (url : Str) : Verify (Dict × ℤ × List (Str × Str)) := do
  let r ← fetch W cfg deadline url false false
  let payload ← orStop (objectRoot W.limitError r)
  return (payload, r.status, r.headers)

def getBytes (url : Str) : Verify Bytes := do
  let r ← fetch W cfg deadline url false true
  return r.body

/-! ### The provider -/

/-- `_exact_sha`: the revision spelled by `str(value or "")`. -/
def exactSha (value : Json) : Option Str := if value.truthy then shaText value else none

/-- `subdomain.strip().lower()` with the provider's domain. -/
def reportedHostname (subdomain : Str) : Str :=
  if chr '.' ∈ Str.lower (Str.strip subdomain) then Str.lower (Str.strip subdomain)
  else Str.lower (Str.strip subdomain) ++ lit ".hf.space"

/-- The checks of `_provider_info` on the payload. -/
def judgeInfo (payload : Dict) : Except VerificationFailure Str :=
  match exactSha (field payload (lit "sha")) with
  | none => .error ⟨lit "MALFORMED_PROVIDER_RESPONSE",
      lit "Provider-reported Space revision is not an exact 40-character Git SHA.", false, []⟩
  | some revision =>
    match field payload (lit "subdomain") with
    | .str subdomain =>
      if Str.strip subdomain = [] then .error ⟨lit "MALFORMED_PROVIDER_RESPONSE",
        lit "Provider Space response omitted a valid subdomain.", false, []⟩
      else if reportedHostname subdomain ≠ cfg.endpointHostname then
        .error ⟨lit "ENDPOINT_CONFIG_MISMATCH",
          lit "Configured witness endpoint does not match the provider-reported Space subdomain.",
          false, [(lit "configured_hostname", .str cfg.endpointHostname),
            (lit "provider_hostname", .str (reportedHostname subdomain))]⟩
      else .ok revision
    | _ => .error ⟨lit "MALFORMED_PROVIDER_RESPONSE",
        lit "Provider Space response omitted a valid subdomain.", false, []⟩

def providerInfo : Verify Str := do
  let payload ← getJson W cfg deadline (providerInfoUrl cfg.repoId)
  orFail (judgeInfo cfg payload)

/-- The stage and the revision a runtime payload reports. -/
def judgeStage (payload : Dict) : Except VerificationFailure (Str × Str) :=
  match field payload (lit "stage") with
  | .str stage =>
    if !isStage stage then .error ⟨lit "MALFORMED_PROVIDER_RESPONSE",
      lit "Provider runtime response omitted a valid stage.", false, []⟩
    else match exactSha (field payload (lit "sha")) with
      | none => .error ⟨lit "MALFORMED_PROVIDER_RESPONSE",
          lit "Provider runtime revision is not an exact 40-character Git SHA.", false, []⟩
      | some revision => .ok (stage, revision)
  | _ => .error ⟨lit "MALFORMED_PROVIDER_RESPONSE",
      lit "Provider runtime response omitted a valid stage.", false, []⟩

def providerStage (expectedRevision : Str) : Verify Unit := do
  let payload ← getJson W cfg deadline (providerRuntimeUrl cfg.repoId)
  let (stage, runtimeRevision) ← orFail (judgeStage payload)
  record fun e => { e with deployment := { e.deployment with
    providerStage := some stage, runtimeRevision := some runtimeRevision } }
  if stage ≠ lit "RUNNING" then
    record fun e => { e with
      deployment := { e.deployment with stageState := .rejected }
      truth := { e.truth with deploymentState := .stage stage } }
    fail ⟨lit "PROVIDER_STAGE_NOT_RUNNING",
      lit "Provider runtime stage is " ++ stage ++ lit "; exact RUNNING is required.",
      stage ∈ transientStages, [(lit "stage", .str stage)]⟩
  if runtimeRevision ≠ expectedRevision then
    record fun e => { e with
      deployment := { e.deployment with stageState := .revisionMismatch }
      truth := { e.truth with deploymentState := .runningStaleRevision } }
    fail ⟨lit "PROVIDER_RUNTIME_REVISION_MISMATCH",
      lit "Provider runtime is RUNNING at a different Space revision.", true,
      [(lit "expected_revision", .str expectedRevision),
        (lit "runtime_revision", .str runtimeRevision)]⟩
  record fun e => { e with
    deployment := { e.deployment with stageState := .accepted }
    truth := { e.truth with deploymentState := .providerRunning } }

/-! ### The published tree -/

/-- The characters and parts the verifier rejects in a published path. -/
def unsafeTreePath (path : Str) : Bool :=
  path = [] ∨ Str.startsWith path (lit "/") ∨ chr '\\' ∈ path ∨ chr ':' ∈ path ∨
    path.any isControl ∨ (Str.split (chr '/') path).any (· ∈ [[], lit ".", lit ".."])

/-- One entry of the tree: whether it is a directory, and its path. -/
def readEntry (entry : Json) : Except VerificationFailure (Bool × Str) :=
  match entry with
  | .obj d =>
    if field d (lit "type") ≠ .str (lit "file") ∧ field d (lit "type") ≠ .str (lit "directory") then
      .error ⟨lit "MALFORMED_PROVIDER_RESPONSE", lit "Published tree contained an invalid entry.",
        false, []⟩
    else match field d (lit "path") with
      | .str path =>
        if unsafeTreePath path then .error ⟨lit "MALFORMED_PROVIDER_RESPONSE",
          lit "Published tree contained an unsafe file path.", false, []⟩
        else .ok (field d (lit "type") = .str (lit "directory"), path)
      | _ => .error ⟨lit "MALFORMED_PROVIDER_RESPONSE",
          lit "Published tree contained an unsafe file path.", false, []⟩
  | _ => .error ⟨lit "MALFORMED_PROVIDER_RESPONSE",
      lit "Published tree contained an invalid entry.", false, []⟩

/-- The files and the directories of a tree, in its order. -/
def readTree (tree : List Json) : Except VerificationFailure (List Str × List Str) :=
  if maxTreeEntries ≤ tree.length then .error ⟨lit "PUBLICATION_TREE_LIMIT",
    lit "Published tree reached the verifier entry limit; exact output set is unavailable.", false,
    []⟩
  else match tree.mapM readEntry with
    | .error f => .error f
    | .ok entries =>
      let files := (entries.filter fun e => !e.1).map Prod.snd
      let dirs := (entries.filter fun e => e.1).map Prod.snd
      if ¬ (files ++ dirs).Nodup then .error ⟨lit "MALFORMED_PROVIDER_RESPONSE",
        lit "Published tree contained duplicate file paths.", false, []⟩
      else .ok (files, dirs)

/-- `sorted(set)`. -/
def sortedPaths (paths : List Str) : List Str := paths.insertionSort (· ≤ ·)

def missingPaths (expected files : List Str) : List Str :=
  sortedPaths (expected.filter (· ∉ files))

def unexpectedPaths (expected files : List Str) : List Str :=
  sortedPaths (files.filter (· ∉ expected))

def unexpectedDirectories (expected dirs : List Str) : List Str :=
  sortedPaths (dirs.filter fun d => !expected.any fun path => Str.startsWith path (d ++ lit "/"))

/-- The file loop of `_verify_source_publication`. -/
def verifyFiles (hfRevision : Str) : Snapshot → Verify Unit
  | [] => pure ()
  | (relative, body) :: rest => do
    let remote ← getBytes W cfg deadline (resolveUrl cfg.repoId hfRevision relative)
    let aligned : Bool := sha256Hex body = sha256Hex remote
    record fun e => { e with publication := { e.publication with
      files := e.publication.files ++ [⟨relative, sha256Hex body, sha256Hex remote, aligned⟩]
      filesChecked := e.publication.filesChecked + 1 } }
    if !aligned then
      record fun e => { e with
        publication := { e.publication with bytesState := .drift }
        truth := { e.truth with publicationState := .byteDrift } }
      fail ⟨lit "PUBLICATION_BYTE_DRIFT", lit "Published bytes differ for " ++ relative ++ lit ".",
        false, [(lit "path", .str relative)]⟩
    verifyFiles hfRevision rest

/-- `_json_document`. -/
def jsonDocument (limitError : Str → Option Str) (body : Bytes) : Except Stop Dict :=
  match loadsBody limitError ⟨lit "MALFORMED_PUBLICATION",
    lit "Published SOURCE_BINDING.json is not valid UTF-8 JSON.", false, []⟩ body with
  | .error e => .error e
  | .ok (.obj d) => .ok d
  | .ok _ => .error (.failure ⟨lit "MALFORMED_PUBLICATION",
      lit "Published SOURCE_BINDING.json root must be an object.", false, []⟩)

/-- `d == e` for dictionaries, `e` one of strings. -/
def sameMembers (d e : Dict) : Bool :=
  d.length = e.length ∧ e.all fun p => Dict.get d p.1 = some p.2

/-- Compare the tree with the expected paths, and say so in the evidence. -/
def verifyOutputSet (hfRevision : Str) (expected : List Str) : Verify Unit := do
  let tree ← getJsonArray W cfg deadline (treeUrl cfg.repoId hfRevision)
  let (files, dirs) ← orFail (readTree tree)
  record fun e => { e with publication := { e.publication with
    expectedFiles := expected.length
    observedFiles := files.length
    missingFiles := missingPaths expected files
    unexpectedFiles := unexpectedPaths expected files } }
  if missingPaths expected files ≠ [] ∨ unexpectedPaths expected files ≠ [] ∨
      unexpectedDirectories expected dirs ≠ [] then
    record fun e => { e with
      publication := { e.publication with outputSetState := .drift }
      truth := { e.truth with publicationState := .outputSetDrift } }
    fail ⟨lit "PUBLICATION_OUTPUT_SET_MISMATCH",
      lit "Published immutable revision does not match the exact source output set.", false,
      [(lit "missing_files", .arr ((missingPaths expected files).map Json.str)),
        (lit "unexpected_files", .arr ((unexpectedPaths expected files).map Json.str)),
        (lit "unexpected_directories", .arr ((unexpectedDirectories expected dirs).map Json.str))]⟩
  establish [.outputSetExact] hfRevision fun e => { e with
    publication := { e.publication with outputSetState := .exact } }

/-- Compare the published binding with the generated one. -/
def verifyBinding (hfRevision : Str) : Verify Unit := do
  let body ← getBytes W cfg deadline (resolveUrl cfg.repoId hfRevision sourceBindingFilename)
  let binding ← orStop (jsonDocument W.limitError body)
  match sourceBinding sourceRepository cfg.sourceRevision with
  | none => throw (.crash (lit "SystemExit"))
  | some expected =>
    if ¬ sameMembers binding expected ∨ some body ≠ jsonBytes expected then
      record fun e => { e with
        publication := { e.publication with sourceBindingState := .mismatch }
        truth := { e.truth with publicationState := .sourceBindingMismatch } }
      fail ⟨lit "SOURCE_BINDING_MISMATCH", lit
        "Published source binding differs from the complete generated contract or its bytes.",
        false, []⟩
    establish [.bytesAligned, .sourceBindingAligned, .publicationAligned] hfRevision fun e =>
      { e with
      sourceExact := true
      publication := { e.publication with bytesState := .aligned, sourceBindingState := .aligned }
      truth := { e.truth with sourceExact := true, publicationState := .exactRevisionAligned } }

/-- `_source_snapshot` of the checkout as this attempt finds it. -/
def takeSnapshot : Verify Snapshot := do
  let checkout ← ask W.checkout
  match sourceSnapshot checkout cfg.sourceRevision with
  | .error e => fail ⟨e.code, e.message, false, []⟩
  | .ok snapshot => return snapshot

def verifySourcePublication (hfRevision : Str) : Verify Unit := do
  let snapshot ← takeSnapshot W cfg
  record fun e => { e with publication := { e.publication with files := [], filesChecked := 0 } }
  verifyOutputSet W cfg deadline hfRevision (Dict.keys snapshot ++ [sourceBindingFilename])
  verifyFiles W cfg deadline hfRevision snapshot
  verifyBinding W cfg deadline hfRevision

/-! ### The runtime witness -/

/-- `_require_fields`, the expected values all strings. -/
def requireFields (payload : Dict) (code context : Str) :
    List (Str × Str) → Except VerificationFailure Unit
  | [] => .ok ()
  | (key, value) :: rest =>
    if field payload key ≠ .str value then
      .error ⟨code, context ++ lit " mismatch for " ++ key ++ lit ".", true,
        [(lit "field", .str key), (lit "expected", .str value),
        (lit "observed", field payload key)]⟩
    else requireFields payload code context rest

/-- `int(s)` of an ASCII text. -/
def parseInt (s : Str) : Option ℤ :=
  let (sign, digits) := match Str.strip s with
    | c :: t => if c = chr '-' then ((-1 : ℤ), t) else if c = chr '+' then (1, t) else (1, c :: t)
    | [] => (1, [])
  if (Str.split (chr '_') digits).all fun w => w ≠ [] ∧ w.all Str.isDigit then
    some (sign * digitsVal (digits.filter (· ≠ chr '_')))
  else none

/-- `observed_at.replace("Z", "+00:00")`. -/
def replaceZ (s : Str) : Str := s.flatMap fun c => if c = chr 'Z' then lit "+00:00" else [c]

def rejected (code : String) (context : Str) (message : String) (details : Dict) :
    Except VerificationFailure Unit :=
  .error ⟨lit code, context ++ lit message, true, details⟩

/-- The cache policy half of `_require_fresh_witness`. -/
def requireNoStore (headers : List (Str × Str)) (context : Str) :
    Except VerificationFailure Unit :=
  if lit "no-store" ∉ (Str.split (chr ',') ((Dict.get headers (lit "cache-control")).getD [])).map
      fun directive => Str.lower (Str.strip directive) then
    rejected "WITNESS_CACHE_POLICY_REJECTED" context " did not require no-store caching." []
  else match Dict.get headers (lit "age") with
    | none => .ok ()
    | some age =>
      match parseInt age with
      | none => rejected "WITNESS_CACHE_POLICY_REJECTED" context
          " returned an invalid Age header." []
      | some seconds =>
        if seconds ≠ 0 then
          rejected "WITNESS_CACHE_POLICY_REJECTED" context " was served from a cache." []
        else .ok ()

/-- The timestamp half of `_require_fresh_witness`, at `now`. -/
def requireRecent (fromIsoFormat : Str → Timestamp) (now : ℤ) (payload : Dict) (context : Str) :
    Except VerificationFailure Unit :=
  match field payload (lit "observed_at") with
  | .str observedAt =>
    match fromIsoFormat (replaceZ observedAt) with
    | .invalid => rejected "WITNESS_FRESHNESS_REJECTED" context
        " returned an invalid observed_at." []
    | .naive => rejected "WITNESS_FRESHNESS_REJECTED" context " observed_at lacked a timezone." []
    | .aware observed =>
      if now - observed < -30 * 1000000 ∨ maxWitnessAgeSeconds * 1000000 < now - observed then
        rejected "WITNESS_FRESHNESS_REJECTED" context
          " was not observed within the freshness bound."
          [(lit "age_seconds", .num (.float (Binary64.roundTo 3
            (Binary64.ofRatio (now - observed < 0) (now - observed).natAbs 1000000))))]
      else .ok ()
  | _ => rejected "WITNESS_FRESHNESS_REJECTED" context " omitted observed_at." []

def readinessContext : Str := lit "Readiness witness"
def attestationContext : Str := lit "Runtime source attestation"

def readinessFields : List (Str × Str) :=
  [(lit "transport_state", lit "REACHABLE"), (lit "evidence_state", lit "OBSERVED"),
    (lit "verification_state", lit "SOURCE_BOUND"), (lit "authority_state", lit "READ_ONLY"),
    (lit "status", lit "ready"), (lit "service", lit "llm-router-live"),
    (lit "source_binding", lit "SOURCE_BOUND")]

def attestationFields : List (Str × Str) :=
  [(lit "schema", lit "szl.deployment-source/v1"), (lit "transport_state", lit "REACHABLE"),
    (lit "verification_state", lit "SOURCE_BOUND"), (lit "authority_state", lit "READ_ONLY"),
    (lit "alignment_state", lit "SOURCE_BOUND_DEPLOYMENT")]

def attestedSourceFields : List (Str × Str) :=
  [(lit "repository", sourceRepository), (lit "commit", cfg.sourceRevision),
    (lit "path", lit "space"), (lit "relation", lit "exact-deployed-subtree"),
    (lit "state", lit "SOURCE_BOUND")]

def attestedDeploymentFields (hfRevision : Str) : List (Str × Str) :=
  [(lit "hf_space", cfg.repoId), (lit "hf_revision", hfRevision),
    (lit "revision_state", lit "MEASURED")]

/-- The checks on the attestation's payload after the freshness checks. -/
def judgeAttestation (hfRevision : Str) (payload : Dict) :
    Except VerificationFailure (Dict × Dict) := do
  requireFields payload (lit "RUNTIME_ATTESTATION_REJECTED") attestationContext attestationFields
  match field payload (lit "source"), field payload (lit "deployment") with
  | .obj source, .obj deployment =>
    requireFields source (lit "STALE_SOURCE_REVISION") (lit "Runtime source binding")
      (attestedSourceFields cfg)
    requireFields deployment (lit "STALE_RUNTIME_REVISION")
      (lit "Runtime Hugging Face revision") (attestedDeploymentFields cfg hfRevision)
    if field deployment (lit "measurement_method") ≠ .str (lit "SPACE_REPOSITORY_COMMIT") ∧
        field deployment (lit "measurement_method") ≠ .str (lit "HUGGINGFACE_API") then
      throw ⟨lit "RUNTIME_ATTESTATION_REJECTED", lit
        "Runtime Hugging Face revision measurement method is unavailable or unknown.", false, []⟩
    return (source, deployment)
  | _, _ => throw ⟨lit "RUNTIME_ATTESTATION_REJECTED",
      lit "Runtime source attestation omitted source or deployment objects.", false, []⟩

def verifyRuntimeWitness (hfRevision : Str) : Verify Unit := do
  let nonce ← ask W.tokenHex
  let (readiness, status, readinessHeaders) ←
    getWitnessJson W cfg deadline (readinessUrl cfg.endpoint nonce)
  orFail (requireNoStore readinessHeaders readinessContext)
  orFail (requireFields readiness (lit "READINESS_CONTRACT_REJECTED") readinessContext
    readinessFields)
  let (attestation, _, attestationHeaders) ←
    getWitnessJson W cfg deadline (attestationUrl cfg.endpoint nonce)
  orFail (requireNoStore attestationHeaders attestationContext)
  let now ← ask W.utcNow
  orFail (requireRecent W.fromIsoFormat now attestation attestationContext)
  let (source, deployment) ← orFail (judgeAttestation cfg hfRevision attestation)
  establish [.witnessBound, .readyWitnessed] hfRevision fun e => { e with
    runtime := {
      readinessUrl := readinessUrl cfg.endpoint nonce
      sourceAttestationUrl := attestationUrl cfg.endpoint nonce
      readinessHttpStatus := some status
      ready := true
      attestedSourceRevision := some (field source (lit "commit"))
      attestedHfRevision := some (field deployment (lit "hf_revision"))
      attestationObservedAt := some (field attestation (lit "observed_at"))
      noStoreFresh := true
      witnessNonce := some nonce
      witnessState := .sourceAndHfRevisionBound }
    truth := { e.truth with runtimeState := .readyWitnessed } }

/-! ### One attempt -/

/-- What the first read of an attempt records. -/
def Evidence.observe (hfRevision : Str) (e : Evidence) : Evidence :=
  { e with
    publication := { e.publication with revision := some hfRevision, revisionState := .observed }
    deployment := { e.deployment with endpointMatched := true } }

/-- The first read of an attempt, and its record. -/
def observeRevision : Verify Str := do
  let hfRevision ← providerInfo W cfg deadline
  record (Evidence.observe hfRevision)
  return hfRevision

/-- The last two reads of an attempt, after the witness. -/
def confirmRevision (hfRevision : Str) : Verify Unit := do
  let finalRevision ← providerInfo W cfg deadline
  if finalRevision ≠ hfRevision then
    record fun e => { e with
      publication := { e.publication with revisionState := .changedDuringWitness }
      truth := { e.truth with publicationState := .staleOrRacingRevision } }
    fail ⟨lit "STALE_OR_RACING_REVISION",
      lit "Provider Space revision changed during the runtime witness.", true,
      [(lit "initial_hf_revision", .str hfRevision), (lit "final_hf_revision", .str finalRevision)]⟩
  providerStage W cfg deadline hfRevision

/-- The part of `verify_once` between the record of the revision and the verdict. -/
def verifyAt (hfRevision : Str) : Verify Unit := do
  providerStage W cfg deadline hfRevision
  verifySourcePublication W cfg deadline hfRevision
  verifyRuntimeWitness W cfg deadline hfRevision
  confirmRevision W cfg deadline hfRevision

/-- What an attempt records at its end. -/
def Evidence.accept (e : Evidence) : Evidence :=
  { e with
    publication := { e.publication with revisionState := .exactStable }
    sourceToPublication := true
    publicationToRuntime := true
    truth := { e.truth with acceptanceState := .accepted }
    verdict := .accepted }

def verifyOnce : Verify Unit := do
  let hfRevision ← observeRevision W cfg deadline
  verifyAt W cfg deadline hfRevision
  record Evidence.accept

end attempt

/-! ### Polling -/

section polling

variable (W : World) (cfg : Config)

def appendAttempt (a : Attempt) (s : State) : State :=
  { s with evidence := { s.evidence with attempts := s.evidence.attempts ++ [a] } }

/-- The entry of a failed attempt. -/
def failedAttempt (number : ℕ) (f : VerificationFailure) (s : State) : Attempt :=
  ⟨number, .rejected, some f.code, f.retryable, s.evidence.deployment.providerStage,
    s.evidence.publication.revision⟩

def acceptedAttempt (number : ℕ) (s : State) : Attempt :=
  ⟨number, .accepted, none, false, some (lit "RUNNING"), s.evidence.publication.revision⟩

def witnessTimeout (f : VerificationFailure) : VerificationFailure :=
  ⟨lit "WITNESS_TIMEOUT", lit "Bounded provider/runtime witness timed out without acceptance.",
    false, [(lit "last_failure", .str f.code)]⟩

/-- The clock is read. -/
def State.tickClock (s : State) : State :=
  { s with clock := W.elapse s.moment s.clock, moment := s.moment + 1 }

/-- A failed attempt is entered and the clock read. -/
def failed (number : ℕ) (f : VerificationFailure) (t : State) : State :=
  (appendAttempt (failedAttempt number f t) t).tickClock W

/-- `time.sleep(min(poll_interval, remaining))`. -/
def State.sleep (s : State) (remaining : Binary64) : State :=
  { s with
    clock := W.wake s.moment s.clock (Binary64.min cfg.pollInterval remaining)
    moment := s.moment + 1 }

/-- The loop of `verify_with_polling`, `none` when the fuel runs out. -/
def pollLoop (deadline : Binary64) : ℕ → ℕ → State → Option (Except Stop Unit × State)
  | 0, _, _ => none
  | fuel + 1, number, s =>
    match verifyOnce W cfg deadline s with
    | .ok _ t => some (.ok (), appendAttempt (acceptedAttempt number t) t)
    | .error (.crash name) t => some (.error (.crash name), t)
    | .error (.failure f) t =>
      if !f.retryable then some (.error (.failure f), failed W number f t)
      else if deadline.sub (failed W number f t).clock ≤ 0 then
        some (.error (.failure (witnessTimeout f)), failed W number f t)
      else pollLoop deadline fuel (number + 1)
        ((failed W number f t).sleep W cfg (deadline.sub (failed W number f t).clock))

def verifyWithPolling (fuel : ℕ) (s : State) : Option (Except Stop Unit × State) :=
  pollLoop W cfg ((s.tickClock W).clock.add cfg.witnessTimeout) fuel 1 (s.tickClock W)

/-- `_record_failure`. -/
def recordFailure (f : VerificationFailure) (e : Evidence) : Evidence :=
  { e with
    verdict := .rejected
    truth := { e.truth with acceptanceState := .rejected }
    failure := some f }

/-- What the handlers of `main` make of an exception; `SystemExit` passes them. -/
def handle : Except Stop Unit → Evidence → Evidence
  | .ok (), e => e
  | .error (.failure f), e => recordFailure f e
  | .error (.crash name), e =>
    if name = lit "SystemExit" then e
    else recordFailure ⟨lit "INTERNAL_VERIFIER_ERROR",
      lit "Verifier failed closed with " ++ name ++ lit ".", false, []⟩ e

/-- The state of a run before its first attempt. -/
def State.start (cfg : Config) (clock : Binary64) : State := ⟨0, clock, [], newEvidence cfg, []⟩

/-- `main` on a validated configuration: the last state, its evidence as written. -/
def verifierMain (fuel : ℕ) (clock : Binary64) : Option State :=
  (verifyWithPolling W cfg fuel (State.start cfg clock)).map fun r =>
    { r.2 with evidence := handle r.1 r.2.evidence }

end polling

end Drift

end SzlRouter
