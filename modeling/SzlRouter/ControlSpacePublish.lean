/-
The publish of the control Space.

A publish writes what it is about to do into its receipt, and the receipt to disk, before
it does it; what came of it is written after.  The two steps that cannot be taken back are
the creation of the Space and the upload.
-/
import SzlRouter.ControlSpace

namespace SzlRouter

namespace ControlSpace

open Py

/-- `time.sleep` waits at most ten seconds. -/
def pause (remaining : Binary64) : Binary64 :=
  Binary64.min (Binary64.ofInt 10) (Binary64.max (Binary64.ofInt 0) remaining)

/-! ### Receipts -/

def text (key value : String) : Str × Json := (lit key, .str (lit value))

/-- The receipt that `main` starts from. -/
def firstReceipt (revision digest : Str) : Dict :=
  [(lit "schema", .str schema), text "status" "BLOCKED", (lit "target", .str target),
    (lit "endpoint", .str endpoint), (lit "source_repository", .str sourceRepository),
    (lit "source_revision", .str revision), (lit "image_digest", .str digest),
    text "phase" "PREFLIGHT", text "write_outcome" "NOT_ATTEMPTED",
    text "creation_outcome" "NOT_ATTEMPTED", (lit "credential_value_recorded", .bool false)]

/-- The first record of `publish`. -/
def preflightRecord (revision digest : Str) : Dict :=
  [(lit "schema", .str schema), text "status" "BLOCKED", (lit "target", .str target),
    (lit "endpoint", .str endpoint), (lit "source_repository", .str sourceRepository),
    (lit "source_revision", .str revision), (lit "image_digest", .str digest),
    (lit "image_reference", .str (imageReference digest)), text "phase" "PREFLIGHT",
    text "write_outcome" "NOT_ATTEMPTED", text "creation_outcome" "NOT_ATTEMPTED",
    (lit "credential_value_recorded", .bool false)]

def createRequested : Dict := [text "phase" "CREATE_REQUESTED", text "creation_outcome" "UNKNOWN"]

def createdRecord : Dict :=
  [text "phase" "CREATED", (lit "space_created", .bool true), text "creation_outcome" "MEASURED"]

def uploadRequested : Dict := [text "phase" "UPLOAD_REQUESTED", text "write_outcome" "UNKNOWN"]

def uploadedRecord (published : Str) (metadata : Bytes) : Dict :=
  [text "phase" "UPLOADED", (lit "published_revision", .str published),
    text "write_outcome" "MEASURED",
    (lit "provider_metadata_sha256", .str (sha256Hex metadata))]

def filesRecord : Dict := [text "phase" "FILES_VERIFIED", text "file_readback" "MEASURED"]

def measuredRecord : Dict :=
  [text "status" "MEASURED", text "phase" "RUNTIME_VERIFIED", text "provider_stage" "RUNNING",
    text "control_readiness" "MEASURED", text "inference" "UNAVAILABLE",
    text "inference_reason" "UNCONFIGURED_EGRESS_DENIED"]

section

variable (W : World)

/-- The checkpoint: the receipt goes to disk as it is. -/
def checkpoint : Publisher Unit := do
  let s ← get
  call (W.writeReceipt · s.receipt)
  note (.written s.receipt)

/-- `record(**changes)`. -/
def record (changes : Dict) : Publisher Unit := do
  modify fun s => { s with receipt := Dict.update s.receipt changes }
  checkpoint W

/-! ### Runtime -/

def transientStages : List Str :=
  [lit "BUILDING", lit "APP_STARTING", lit "STARTING", lit "QUEUED", lit "PENDING",
    lit "RESTARTING", lit "RUNNING_BUILDING", lit "RUNNING_APP_STARTING"]

def terminalStages : List Str :=
  [lit "BUILD_ERROR", lit "RUNTIME_ERROR", lit "CONFIG_ERROR", lit "ERROR", lit "STOPPED"]

/-- What `_runtime_aligned` makes of the runtime's object. -/
def readRuntime (runtime : Dict) (revision : Str) : Except Raised Bool :=
  let observed := field runtime (lit "sha")
  if observed = .null then .ok false
  else match exactSha observed (lit "SPACE_RUNTIME_SHA_INVALID") with
    | .error e => .error e
    | .ok sha =>
      if sha ≠ revision then .ok false
      else match field runtime (lit "stage") with
        -- a stage that cannot be hashed is in no set
        | .arr _ | .obj _ => .error (.provider typeError)
        | .null => .ok false
        | .str stage =>
          if stage ∈ terminalStages ∨ stage = lit "NO_APP_FILE" then
            .error (.control (lit "SPACE_RUNTIME_TERMINAL"))
          else if stage ∈ transientStages ∨ stage = lit "PAUSED" then .ok false
          else if stage ≠ lit "RUNNING" then .error (.control (lit "SPACE_RUNTIME_UNKNOWN"))
          else .ok true
        | _ => .error (.control (lit "SPACE_RUNTIME_UNKNOWN"))

/-- `_runtime_aligned`. -/
def runtimeAligned (token revision : Str) : Publisher Bool := do
  let runtime ← requestJson W
    (lit "https://huggingface.co/api/spaces/SZLHOLDINGS/szl-router-control/runtime")
    (some token) 200 false
  orRaise (readRuntime runtime revision)

/-- The witnesses tell of the revision, of a gateway without egress, and of no inference. -/
def contractHolds (revision : Str) (deployment ready inference : Dict) : Bool :=
  field deployment (lit "schema") = .str (lit "szl.router-deployment/v1") ∧
    field deployment (lit "source_revision") = .str revision ∧
    field deployment (lit "egress_enabled") = .bool false ∧
    field deployment (lit "registry_state") = .str (lit "UNAVAILABLE_NOT_CONFIGURED") ∧
    field ready (lit "status") = .str (lit "ready") ∧
    field ready (lit "scope") = .str (lit "CONTROL_PLANE") ∧
    field ready (lit "egress_enabled") = .bool false ∧
    field inference (lit "ready_for_requests") = .bool false ∧
    field inference (lit "inference_witness") = .str (lit "UNAVAILABLE")

/-- `_witness`. -/
def witness (revision : Str) : Publisher Unit := do
  let nonce ← ask W.nonce
  let deployment ← requestJson W (endpoint ++ lit "/deployment.json?nonce=" ++ nonce) none 200 true
  let ready ← requestJson W (endpoint ++ lit "/readyz?nonce=" ++ nonce) none 200 true
  let inference ← requestJson W (endpoint ++ lit "/readyz/inference?nonce=" ++ nonce) none 503 true
  if !contractHolds revision deployment ready inference then
    fail (lit "SPACE_RUNTIME_CONTRACT_MISMATCH")

/-- A witness that was not to be had is asked for again: the procedure returns `a`. -/
def tolerating {α : Type} (a : α) (x : Publisher α) : Publisher α := fun s =>
  match x s with
  | .error (.control code) t =>
    if code ∈ [lit "HTTP_WITNESS_REJECTED", lit "HTTP_WITNESS_UNAVAILABLE"] then .ok a t
    else .error (.control code) t
  | r => r

/-- The Space is still at the revision, and public. -/
def stillAt (published : Str) : Publisher Unit := do
  let after ← call W.repoInfo
  let revision ← orRaise (repoIdentity after)
  if revision ≠ published ∨ after.isPrivate ≠ .bool false then
    fail (lit "SPACE_PUBLISH_READBACK_MISMATCH")

/-- One round of the loop: whether the runtime was aligned and witnessed. -/
def round (token source published : Str) : Publisher Bool := do
  stillAt W published
  let aligned ← tolerating false (runtimeAligned W token published)
  if aligned then
    note (.runtimeAligned published)
    tolerating false do
      witness W source
      note (.witnessed source)
      return true
  else return false

/-- The loop; `fuel` is the number of rounds that are looked at. -/
def awaitRuntime (token source published : Str) (deadline : Binary64) : ℕ → Publisher Unit
  | 0 => throw .unfinished
  | fuel + 1 => do
    if ← round W token source published then
      return ()
    let now ← ask W.monotonic
    if deadline ≤ now then
      fail (lit "SPACE_RUNTIME_TIMEOUT")
    let now ← ask W.monotonic
    call (W.sleep · (pause (deadline.sub now)))
    awaitRuntime token source published deadline fuel

/-! ### Publish -/

variable (artwork : Artwork)

/-- `validate_card`. -/
def validateCard (readme : Bytes) : Publisher Unit := do
  call W.hub
  let invalid := handled (·.valueError) (lit "SPACE_CARD_METADATA_INVALID")
  let card ← orRaise (α := Str) <| match decodeUtf8 readme with
    | none => .error (.control (lit "SPACE_CARD_METADATA_INVALID"))
    | some card => .ok card
  let answer ← ask (W.card · card)
  orRaise (invalid answer)
  note (.cardValidated readme)

/-- Before the Hub is asked: the files are rendered, and the source, the image and the card
are checked. -/
def preflight (token revision digest : Str) : Publisher (List (Str × Bytes)) := do
  record W (preflightRecord revision digest)
  if Str.strip token = [] then
    fail (lit "HF_TOKEN_MISSING")
  let expected ← orRaise (spaceFiles artwork (.str revision) (.str digest))
  requireProtectedMain W revision
  anonymousImageManifest W digest
  validateCard W ((Dict.get expected readmeName).getD [])
  record W [text "card_validation" "MEASURED"]
  call W.hub
  return expected

/-- The Space as it is; where the Hub knows none, a new one. -/
def findOrCreate : Publisher (RepoInfo × Bool) := do
  match ← ask W.repoInfo with
  | .ok before => return (before, false)
  | .error (.provider e) =>
    match e.notFound with
    | none => throw (.provider e)
    | some status =>
      if status ≠ some 404 then
        fail (lit "SPACE_ACCESS_REJECTED")
      record W createRequested
      note .createInvoked
      call W.createRepo
      note .created
      record W createdRecord
      let before ← call W.repoInfo
      return (before, true)
  | .error e => throw e

/-- The revision that is written over, and its metadata. -/
def admitTarget (before : RepoInfo) (created : Bool) : Publisher (Str × Bytes) := do
  let parent ← orRaise (repoIdentity before)
  record W [(lit "parent_revision", .str parent), (lit "space_created", .bool created)]
  if before.isPrivate ≠ .bool false then
    fail (lit "SPACE_VISIBILITY_REJECTED")
  call W.authCheck
  let metadata ← if created then newTargetMetadata W parent
    else existingTargetAdmitted W artwork parent
  note (.admitted parent metadata)
  return (parent, metadata)

/-- A block that is left by its cleanup, whose exception takes precedence. -/
def leaving {α : Type} (cleanup : Publisher Unit) (x : Publisher α) : Publisher α := fun s =>
  match x s with
  | .ok a t => (cleanup *> pure a : Publisher α) t
  | .error e t => (cleanup *> throw e : Publisher α) t

def writeFiles : List (Str × Bytes) → Publisher Unit
  | [] => pure ()
  | (name, body) :: rest => do
    call (W.writeFile · name body)
    writeFiles rest

/-- The upload, out of a temporary folder, and the commit's revision. -/
def upload (u : Upload) : Publisher Str := do
  call W.makeFolder
  let oid ← leaving (call W.removeFolder) do
    writeFiles W u.files
    record W uploadRequested
    note (.uploadInvoked u)
    call (W.upload · u)
  let published ← orRaise (exactSha oid (lit "SPACE_PUBLISH_SHA_INVALID"))
  note (.uploaded published)
  return published

/-- The upload of the rendered files over the parent. -/
def uploadOf (revision digest parent : Str) (expected : List (Str × Bytes)) : Upload :=
  ⟨parent, lit "deploy: router control " ++ revision ++ lit " " ++ digest, expected⟩

/-- The commit is recorded, and its files are read back. -/
def confirmFiles (published : Str) (expected : List (Str × Bytes)) (metadata : Bytes) :
    Publisher Unit := do
  record W (uploadedRecord published metadata)
  stillAt W published
  verifyFiles W published expected metadata
  note (.filesVerified published)
  record W filesRecord

/-- The runtime is awaited, and the source is looked at once more. -/
def confirmRuntime (fuel : ℕ) (token revision published : Str) (timeout : Binary64) :
    Publisher Unit := do
  let start ← ask W.monotonic
  awaitRuntime W token revision published (start.add timeout) fuel
  requireProtectedMain W revision
  record W measuredRecord

/-- `publish`. -/
def publish (fuel : ℕ) (token revision digest : Str) (timeout : Binary64) : Publisher Unit := do
  let expected ← preflight W artwork token revision digest
  let (before, created) ← findOrCreate W
  let (parent, metadata) ← admitTarget W artwork before created
  requireProtectedMain W revision
  let published ← upload W (uploadOf revision digest parent expected)
  confirmFiles W published expected metadata
  confirmRuntime W fuel token revision published timeout

/-! ### Main -/

/-- The handlers of `main`. -/
def concluding (x : Publisher Unit) : Publisher Unit := fun s =>
  match x s with
  | .error (.control code) t => .ok () { t with
      receipt := Dict.update t.receipt [text "status" "BLOCKED", (lit "failure_code", .str code)] }
  | .error (.provider e) t => .ok () { t with
      receipt := Dict.update t.receipt
        [text "status" "UNKNOWN", (lit "failure_code", .str e.name)] }
  | r => r

/-- `main`, on parsed arguments; the exit code. -/
def main (fuel : ℕ) (revision digest : Str) : Publisher ℕ := do
  modify fun s => { s with receipt := firstReceipt revision digest }
  checkpoint W
  concluding do
    call W.hub
    let env ← ask W.env
    publish W artwork fuel ((env (lit "HF_TOKEN")).getD []) revision digest (Binary64.ofInt 900)
  checkpoint W
  let s ← get
  return if field s.receipt (lit "status") = .str (lit "MEASURED") then 0 else 1

end

end ControlSpace

end SzlRouter
