/-
The control Space: what its publisher renders and what it admits
(`scripts/router_control_space.py`).

`World` is what Git, the network, the Hub and the file system answer, each at a moment
of its own.  The publisher's steps are procedures over `State`, which keeps the receipt
and, for the statements, the log of what was done.
-/
import SzlRouter.Dispatch
import SzlRouter.JsonBytes
import SzlRouter.Procedure
import SzlRouter.Sha256
import SzlRouter.SpaceSource
import SzlRouter.Providers

namespace SzlRouter

namespace ControlSpace

open Py

/-! ### Names -/

def target : Str := lit "SZLHOLDINGS/szl-router-control"
def sourceRepository : Str := lit "szl-holdings/szl-router"
def image : Str := lit "ghcr.io/szl-holdings/szl-router-control"
def endpoint : Str := lit "https://szlholdings-szl-router-control.hf.space"
def schema : Str := lit "szl.router-control-space/v1"
def providerMetadata : Str := lit ".gitattributes"
def readmeName : Str := lit "README.md"
def dockerfileName : Str := lit "Dockerfile"

/-- `FILES`. -/
def fileNames : List Str := [readmeName, dockerfileName, sourceBindingFilename]

/-- The bound on what is read. -/
def maxBytes : ℕ := 131072

/-- `DIGEST.fullmatch(s)`. -/
def isDigest (s : Str) : Bool :=
  Str.startsWith s (lit "sha256:") ∧ (s.drop 7).length = 64 ∧ (s.drop 7).all Str.isHex

/-! ### Exceptions -/

/-- An exception of a library: its name, and the handlers that catch it. -/
structure ProviderError where
  name : Str
  osError : Bool := false
  subprocessError : Bool := false
  valueError : Bool := false
  typeError : Bool := false
  attributeError : Bool := false
  /-- The status of the response, for a `RepositoryNotFoundError`. -/
  notFound : Option (Option ℤ) := none

/-- What a step raises. -/
inductive Raised
  /-- `ControlSpaceError`. -/
  | control (code : Str)
  | provider (e : ProviderError)
  /-- An exception that `except Exception` lets through. -/
  | exit
  /-- No exception: the last of the rounds that are looked at is over. -/
  | unfinished

def valueError (name : Str) : ProviderError := { name, valueError := true }
def typeError : ProviderError := { name := lit "TypeError", typeError := true }
def attributeError : ProviderError := { name := lit "AttributeError", attributeError := true }

/-- A handler that turns some exceptions into a code. -/
def handled {α : Type} (catches : ProviderError → Bool) (code : Str) :
    Except Raised α → Except Raised α
  | .error (.provider e) => if catches e then .error (.control code) else .error (.provider e)
  | r => r

/-! ### The rendered files -/

/-- The artwork of the card: a text that can be encoded. -/
structure Artwork where
  text : Str
  clean : Clean text

/-- The YAML of the card. -/
def cardHead : Str :=
  lit "---\ntitle: SZL Router Control\nsdk: docker\napp_port: 7860\nlicense: apache-2.0\n" ++
    lit "short_description: Source-bound control interface with inference disabled.\n---\n"

/-- `f"{IMAGE}@{digest}"`. -/
def imageReference (digest : Str) : Str := image ++ lit "@" ++ digest

/-- The body of the card. -/
def cardBody (revision digest : Str) : Str :=
  lit "\n# SZL Router Control\n\nThis is the public control-interface canary for\n" ++
    lit "[`szl-holdings/szl-router`](https://github.com/szl-holdings/szl-router).\n" ++
    lit "It uses the published image `" ++ imageReference digest ++ lit "` from source `" ++
    revision ++
    lit "`.\nThis publisher supplies no provider credentials and forces inference egress off.\n" ++
    lit "It verifies that no provider registry is configured at runtime. `/readyz`\n" ++
    lit "measures only control-interface readiness; `/readyz/inference` must return 503.\n" ++
    lit "The separate `SZLHOLDINGS/llm-router-live` status Space is independently owned.\n"

def dockerfile (digest : Str) : Str :=
  lit "FROM " ++ imageReference digest ++
    lit "\nENV SZL_ROUTER_ENABLE_EGRESS=0\nCMD [\"sh\", \"-c\", \"exec env " ++
    lit "SZL_ROUTER_ENABLE_EGRESS=0 uvicorn router_control.app:app --host 0.0.0.0 --port 7860 " ++
    lit "--workers 1 --no-access-log\"]\n"

def binding (revision digest : Str) : Dict :=
  [(lit "schema", .str schema), (lit "target", .str target),
    (lit "source_repository", .str sourceRepository), (lit "source_revision", .str revision),
    (lit "image_reference", .str (imageReference digest)), (lit "image_digest", .str digest),
    (lit "egress_policy", .str (lit "DENIED")),
    (lit "inference_state", .str (lit "UNAVAILABLE_UNCONFIGURED"))]

/-- `text.encode("utf-8")`. -/
def encode (text : Str) : Except Raised Bytes :=
  match utf8 text with
  | none => .error (.provider (valueError (lit "UnicodeEncodeError")))
  | some b => .ok b

/-- `_json_bytes`. -/
def bindingBytes (value : Dict) : Except Raised Bytes :=
  match jsonBytes value with
  | none => .error (.provider (valueError (lit "ValueError")))
  | some b => .ok b

/-- `exact_sha`. -/
def exactSha (value : Json) (code : Str) : Except Raised Str :=
  match value with
  | .str s => if isSha s then .ok s else .error (.control code)
  | _ => .error (.control code)

/-- `exact_digest`. -/
def exactDigest (value : Json) : Except Raised Str :=
  match value with
  | .str s => if isDigest s then .ok s else .error (.control (lit "IMAGE_DIGEST_INVALID"))
  | _ => .error (.control (lit "IMAGE_DIGEST_INVALID"))

/-- `_legacy_space_files`. -/
def legacySpaceFiles (revision digest : Json) : Except Raised (List (Str × Bytes)) := do
  let revision ← exactSha revision (lit "SOURCE_REVISION_INVALID")
  let digest ← exactDigest digest
  let readme ← encode (cardHead ++ cardBody revision digest)
  let dockerfile ← encode (dockerfile digest)
  let binding ← bindingBytes (binding revision digest)
  return [(readmeName, readme), (dockerfileName, dockerfile), (sourceBindingFilename, binding)]

/-- `text.index(w, start)`. -/
def indexFrom (w text : Str) (start : ℕ) : Option ℕ :=
  (List.range' start (text.length + 1 - start)).find? fun i => w.isPrefixOf (text.drop i)

/-- The card with the artwork after its YAML. -/
def withArtwork (artwork : Artwork) (readme : Str) : Except Raised Str :=
  match indexFrom (lit "\n---\n") readme 4 with
  | none => .error (.provider (valueError (lit "ValueError")))
  | some i =>
    let boundary := i + (lit "\n---\n").length
    .ok (readme.take boundary ++ artwork.text ++ readme.drop boundary)

/-- `space_files`. -/
def spaceFiles (artwork : Artwork) (revision digest : Json) :
    Except Raised (List (Str × Bytes)) := do
  let files ← legacySpaceFiles revision digest
  let readme ← match decodeUtf8 ((Dict.get files readmeName).getD []) with
    | none => .error (.provider (valueError (lit "UnicodeDecodeError")))
    | some readme => .ok readme
  let card ← withArtwork artwork readme
  let card ← encode card
  return Dict.set files readmeName card

/-! ### The surroundings -/

/-- A request, and whether it carries a credential. -/
structure HttpRequest where
  url : Str
  head : Bool := false
  bearer : Option Str

/-- A response, of any status. -/
structure HttpResponse where
  status : ℤ
  finalUrl : Str
  cacheControl : Option Str
  contentDigest : Option Str
  /-- What reading the body answers. -/
  body : Except Raised Bytes

/-- What the publisher hands to the Hub. -/
structure Upload where
  parent : Str
  message : Str
  files : List (Str × Bytes)
  deriving DecidableEq

/-- `api.repo_info(...)`; an attribute that is missing is `null`. -/
structure RepoInfo where
  id : Json
  sdk : Json
  sha : Json
  isPrivate : Json

structure World where
  env : ℕ → Env
  git : ℕ → List Str → Except Raised Str
  http : ℕ → HttpRequest → Except Raised HttpResponse
  nonce : ℕ → Str
  /-- The import of the Hub's library. -/
  hub : ℕ → Except Raised Unit
  /-- `SpaceCard(readme).validate()`. -/
  card : ℕ → Str → Except Raised Unit
  repoInfo : ℕ → Except Raised RepoInfo
  createRepo : ℕ → Except Raised Unit
  authCheck : ℕ → Except Raised Unit
  listRepoFiles : ℕ → Str → Except Raised (List Str)
  download : ℕ → Str → Str → Except Raised Bytes
  bootstrapBinding : ℕ → Except Raised Bytes
  makeFolder : ℕ → Except Raised Unit
  writeFile : ℕ → Str → Bytes → Except Raised Unit
  removeFolder : ℕ → Except Raised Unit
  /-- `getattr(commit, "oid", None)`. -/
  upload : ℕ → Upload → Except Raised Json
  writeReceipt : ℕ → Dict → Except Raised Unit
  monotonic : ℕ → Binary64
  sleep : ℕ → Binary64 → Except Raised Unit

/-- What was done, in order. -/
inductive Effect
  | protectedMain (revision : Str)
  /-- The Hub's library took the card for a valid one. -/
  | cardValidated (readme : Bytes)
  | createInvoked
  | created
  /-- A tree of the Space was admitted, with its metadata. -/
  | admitted (revision : Str) (metadata : Bytes)
  | uploadInvoked (upload : Upload)
  | uploaded (revision : Str)
  | filesVerified (revision : Str)
  | runtimeAligned (revision : Str)
  | witnessed (revision : Str)
  /-- A receipt was written. -/
  | written (receipt : Dict)
  deriving DecidableEq

structure State where
  moment : ℕ
  receipt : Dict
  log : List Effect

/-- Before anything was done. -/
def State.start : State := ⟨0, [], []⟩

abbrev Publisher := EStateM Raised State

def fail {α : Type} (code : Str) : Publisher α := throw (.control code)

def orRaise {α : Type} : Except Raised α → Publisher α
  | .error e => throw e
  | .ok a => pure a

/-- A question to the surroundings, at a moment of its own. -/
def ask {α : Type} (question : ℕ → α) : Publisher α := fun s =>
  .ok (question s.moment) { s with moment := s.moment + 1 }

def note (e : Effect) : Publisher Unit := modify fun s => { s with log := s.log ++ [e] }

/-- A call that may raise. -/
def call {α : Type} (outcome : ℕ → Except Raised α) : Publisher α := do
  let a ← ask outcome
  orRaise a

variable (W : World)

/-- `git`. -/
def git (args : List Str) : Publisher Str := do
  let stdout ← ask (W.git · args)
  let stdout ← orRaise (handled (fun e => e.osError || e.subprocessError)
    (lit "SOURCE_GIT_UNAVAILABLE") stdout)
  return Str.strip stdout

/-- `require_protected_main`. -/
def requireProtectedMain (revision : Str) : Publisher Unit := do
  let _ ← orRaise (exactSha (.str revision) (lit "SOURCE_REVISION_INVALID"))
  let env ← ask W.env
  if env (lit "GITHUB_REPOSITORY") ≠ some sourceRepository ∨
      env (lit "GITHUB_REF") ≠ some (lit "refs/heads/main") ∨
      env (lit "GITHUB_SHA") ≠ some revision then
    fail (lit "SOURCE_CONTEXT_REJECTED")
  let head ← git W [lit "rev-parse", lit "HEAD"]
  if head ≠ revision then
    fail (lit "SOURCE_CHECKOUT_MISMATCH")
  let status ← git W [lit "status", lit "--porcelain=v1"]
  if status ≠ [] then
    fail (lit "SOURCE_CHECKOUT_MISMATCH")
  let remote ← git W [lit "ls-remote", lit "https://github.com/szl-holdings/szl-router.git",
    lit "refs/heads/main"]
  if (Str.partition (chr '\t') remote).1 ≠ revision then
    fail (lit "SOURCE_MAIN_SUPERSEDED")
  note (.protectedMain revision)

/-- `url.split("?", 1)[0]`. -/
def beforeQuery (url : Str) : Str := (Str.partition (chr '?') url).1

/-- What `_request_json` makes of a response. -/
def readResponse (url : Str) (status : ℤ) (noStore : Bool) (r : HttpResponse) :
    Except Raised Dict :=
  if r.status = 401 ∨ r.status = 403 then .error (.control (lit "HTTP_AUTH_REJECTED"))
  else if r.status ≠ status ∨ beforeQuery r.finalUrl ≠ beforeQuery url then
    .error (.control (lit "HTTP_WITNESS_REJECTED"))
  else if noStore ∧ ¬ Str.contains (lit "no-store") (Str.lower (r.cacheControl.getD [])) then
    .error (.control (lit "HTTP_CACHE_CONTRACT_REJECTED"))
  else
    match handled (fun e => e.osError || e.valueError) (lit "HTTP_WITNESS_UNAVAILABLE") r.body with
    | .error e => .error e
    | .ok body =>
      let data := body.take (maxBytes + 1)
      if maxBytes < data.length then .error (.control (lit "HTTP_WITNESS_TOO_LARGE"))
      else match loadsBytes plainLoads data with
        | none => .error (.control (lit "HTTP_WITNESS_UNAVAILABLE"))
        | some (.obj payload) => .ok payload
        | some _ => .error (.control (lit "HTTP_WITNESS_MALFORMED"))

/-- `_request_json`. -/
def requestJson (url : Str) (token : Option Str) (status : ℤ) (noStore : Bool) :
    Publisher Dict := do
  let answer ← ask (W.http · ⟨url, false, token⟩)
  let response ← orRaise (handled (·.osError) (lit "HTTP_WITNESS_UNAVAILABLE") answer)
  orRaise (readResponse url status noStore response)

/-- What is made of the answer to the request for a manifest; only a status of 2xx is
answered, and not raised. -/
def readManifest (digest : Str) (r : HttpResponse) : Except Raised Unit :=
  if r.status < 200 ∨ 300 ≤ r.status then .error (.control (lit "IMAGE_NOT_PUBLIC"))
  else if r.status ≠ 200 ∨ r.contentDigest ≠ some digest then
    .error (.control (lit "IMAGE_PUBLIC_DIGEST_MISMATCH"))
  else .ok ()

/-- `anonymous_image_manifest`. -/
def anonymousImageManifest (digest : Str) : Publisher Unit := do
  let _ ← orRaise (exactDigest (.str digest))
  let payload ← requestJson W (lit ("https://ghcr.io/token?service=ghcr.io&scope=" ++
    "repository%3Aszl-holdings%2Fszl-router-control%3Apull")) none 200 false
  let token ← orRaise (match field payload (lit "token") with
    | .str (c :: token) => .ok (c :: token)
    | _ => .error (.control (lit "IMAGE_NOT_PUBLIC")))
  let answer ← ask (W.http · ⟨lit "https://ghcr.io/v2/szl-holdings/szl-router-control/manifests/" ++
    digest, true, some token⟩)
  let response ← orRaise (handled (·.osError) (lit "IMAGE_NOT_PUBLIC") answer)
  orRaise (readManifest digest response)

/-- `_repo_identity`. -/
def repoIdentity (info : RepoInfo) : Except Raised Str :=
  if info.id ≠ .str target then .error (.control (lit "SPACE_IDENTITY_MISMATCH"))
  else if info.sdk ≠ .str (lit "docker") then .error (.control (lit "SPACE_SDK_MISMATCH"))
  else exactSha info.sha (lit "SPACE_REVISION_INVALID")

/-- `_download_bytes`. -/
def downloadBytes (filename revision : Str) : Publisher Bytes := do
  let data ← call (W.download · revision filename)
  if maxBytes < data.length then
    fail (lit "SPACE_FILE_TOO_LARGE")
  return data

/-- `set(api.list_repo_files(...)) == set(names)`, for both lists. -/
def sameNames (observed names : List Str) : Bool :=
  observed.all (· ∈ names) && names.all (· ∈ observed)

def listFiles (revision : Str) : Publisher (List Str) := call (W.listRepoFiles · revision)

/-- The downloads of some files, each compared with what it may be. -/
def compareFiles (revision code : Str) : List (Str × List Bytes) → Publisher Unit
  | [] => pure ()
  | (name, accepted) :: rest => do
    let body ← downloadBytes W name revision
    if body ∉ accepted then
      fail code
    compareFiles revision code rest

/-- `_verify_files`. -/
def verifyFiles (revision : Str) (expected : List (Str × Bytes)) (metadata : Bytes) :
    Publisher Unit := do
  let observed ← listFiles W revision
  if !sameNames observed (fileNames ++ [providerMetadata]) then
    fail (lit "SPACE_FILE_SET_MISMATCH")
  compareFiles W revision (lit "SPACE_FILE_BYTE_MISMATCH")
    (expected.map fun p => (p.1, [p.2]))
  compareFiles W revision (lit "SPACE_PROVIDER_METADATA_DRIFT") [(providerMetadata, [metadata])]

/-! ### Admission -/

/-- A handler around a block. -/
def rejecting {α : Type} (catches : ProviderError → Bool) (code : Str) (x : Publisher α) :
    Publisher α := fun s =>
  match x s with
  | .error (.provider e) t =>
    if catches e then .error (.control code) t else .error (.provider e) t
  | r => r

/-- The names of `binding.get("files_sha256", {})`, when it is something with names. -/
def namesOf : Json → Option (List Str)
  | .null => none
  | .obj d => some (Dict.keys d)
  | .arr xs => xs.mapM fun x => match x with
    | .str s => some s
    | _ => none
  | .str s => some (s.map ([·]))
  | _ => none

/-- The checks of the recorded bootstrap binding; the digests are those of its files. -/
def bootstrapDigests (bytes : Bytes) (revision : Str) (observed : List Str) :
    Except Raised (Str → Except Raised Json) :=
  let mismatch := Except.error (.provider (valueError (lit "ValueError")))
  match loadsBytes plainLoads bytes with
  | none => mismatch
  | some (.obj d) =>
    if field d (lit "schema") ≠ .str (lit "szl.router-control-bootstrap/v1") ∨
        field d (lit "target") ≠ .str target ∨
        field d (lit "source_repository") ≠ .str sourceRepository ∨
        field d (lit "parent_revision") ≠ .str revision then mismatch
    else match Dict.get d (lit "files_sha256") with
      | none => mismatch
      | some files =>
        match namesOf files with
        | none => .error (.provider typeError)
        | some names =>
          if !sameNames names observed then mismatch
          else .ok fun name => match files with
            | .obj digests => .ok (field digests name)
            | _ => .error (.provider typeError)
  | some _ => .error (.provider attributeError)

/-- The digests of the downloaded files, compared one by one. -/
def compareDigests (digest : Str → Except Raised Json) : List (Str × Bytes) → Publisher Unit
  | [] => pure ()
  | (name, body) :: rest => do
    let expected ← orRaise (digest name)
    if Json.str (sha256Hex body) ≠ expected then
      throw (.provider (valueError (lit "ValueError")))
    compareDigests digest rest

def downloadAll (revision : Str) : List Str → Publisher (List (Str × Bytes))
  | [] => pure []
  | name :: rest => do
    let body ← downloadBytes W name revision
    let files ← downloadAll revision rest
    return (name, body) :: files

/-- `_recover_bootstrap_metadata`. -/
def recoverBootstrapMetadata (revision : Str) (observed : List Str) : Publisher Bytes := do
  let files ← rejecting
    (fun e => e.osError || e.valueError || e.typeError || e.attributeError)
    (lit "EXISTING_SPACE_BOOTSTRAP_REJECTED") do
      let bytes ← call W.bootstrapBinding
      let digest ← orRaise (bootstrapDigests bytes revision observed)
      let files ← downloadAll W revision observed.dedup
      compareDigests digest files
      return files
  return (Dict.get files providerMetadata).getD []

/-- The revision and the digest that a binding names. -/
def readBinding (body : Bytes) : Except Raised (Json × Json) :=
  let rejected := Except.error (.control (lit "EXISTING_SPACE_BINDING_REJECTED"))
  match loadsBytes plainLoads body with
  | some (.obj d) =>
    if field d (lit "schema") ≠ .str schema ∨ field d (lit "target") ≠ .str target ∨
        field d (lit "source_repository") ≠ .str sourceRepository ∨
        field d (lit "egress_policy") ≠ .str (lit "DENIED") then rejected
    else .ok (field d (lit "source_revision"), field d (lit "image_digest"))
  | _ => rejected

/-- `space_files` of a binding that was read; what it refuses is refused as a binding. -/
def boundFiles (artwork : Artwork) (revision digest : Json) :
    Except Raised (List (Str × Bytes)) :=
  match spaceFiles artwork revision digest with
  | .error (.control _) => .error (.control (lit "EXISTING_SPACE_BINDING_REJECTED"))
  | r => r

/-- What each file of the Space may be: the card may be the legacy one. -/
def acceptedFiles (current legacy : List (Str × Bytes)) : List (Str × List Bytes) :=
  current.map fun p =>
    (p.1, if p.1 = readmeName then [p.2, (Dict.get legacy readmeName).getD []] else [p.2])

/-- `_existing_target_admitted`. -/
def existingTargetAdmitted (artwork : Artwork) (revision : Str) : Publisher Bytes := do
  let observed ← listFiles W revision
  if sameNames observed [providerMetadata, readmeName] then
    recoverBootstrapMetadata W revision observed
  else do
    if !sameNames observed (fileNames ++ [providerMetadata]) then
      fail (lit "EXISTING_SPACE_FILE_SET_REJECTED")
    let body ← rejecting (fun e => e.osError || e.valueError)
      (lit "EXISTING_SPACE_BINDING_REJECTED") (downloadBytes W sourceBindingFilename revision)
    let (sourceRevision, imageDigest) ← orRaise (readBinding body)
    let current ← orRaise (boundFiles artwork sourceRevision imageDigest)
    let legacy ← orRaise (legacySpaceFiles sourceRevision imageDigest)
    compareFiles W revision (lit "EXISTING_SPACE_BYTES_REJECTED") (acceptedFiles current legacy)
    downloadBytes W providerMetadata revision

/-- `_new_target_metadata`. -/
def newTargetMetadata (revision : Str) : Publisher Bytes := do
  let observed ← listFiles W revision
  if !sameNames observed [providerMetadata] ∧
      !sameNames observed [providerMetadata, readmeName] then
    fail (lit "NEW_SPACE_SYSTEM_FILES_REJECTED")
  downloadBytes W providerMetadata revision

end ControlSpace

end SzlRouter
