/-
The byte check of the local model store.

One reader at a time hashes a manifest and every blob the manifest names.  The
files do not change while it reads; a stop request or the end of the time budget
can still end it at every turn of the read loop.
-/
import SzlRouter.GatewaySettings
import SzlRouter.Procedure
import SzlRouter.Verification

namespace SzlRouter

namespace LocalStore

open Py Gateway Procedure

def MAX_MANIFEST_BYTES : ℕ := 65536
def MAX_BLOB_BYTES : ℕ := 16000000000
def MAX_TOTAL_BLOB_BYTES : ℕ := 20000000000
def MAX_LAYERS : ℕ := 32
def MAX_MANIFEST_NODES : ℕ := 512
def MAX_MANIFEST_DEPTH : ℕ := 12
def HASH_CHUNK_BYTES : ℕ := 1048576

/-! ### The file tree -/

/-- What a name in a directory stands for; a link has what it leads to, if anything. -/
inductive Node
  | file (contents : Bytes)
  | directory (entries : List (Str × Node))
  | link (target : Option Node)
  | special

namespace Node

/-- What is found after all links are followed. -/
def follow : Node → Option Node
  | .link none => none
  | .link (some target) => follow target
  | node => some node

/-- The entry with a name, in the directory that the node is or leads to. -/
def entry (node : Node) (name : Str) : Option Node :=
  match follow node with
  | some (.directory entries) => Dict.get entries name
  | _ => none

/-- `lstat` of a path below the node; only the last part is not followed. -/
def lstat (node : Node) (path : List Str) : Option Node := path.foldlM entry node

end Node

/-- An exception: a `LocalStoreError` with its state, or a `ValueError`. -/
inductive Failure
  | localStore (state : Str)
  | valueError
  deriving DecidableEq

/-- A store root as the environment can hold it, which no null character ends. -/
structure StoreRoot where
  text : Str
  absolute : text.head? = some (chr '/')
  encodable : ∀ c ∈ text, c.val ≠ 0 ∧ (c.val < 0xD800 ∨ 0xDC80 ≤ c.val ∧ c.val ≤ 0xDCFF ∨
    0xE000 ≤ c.val)

/-- What a check meets: the files, the clock as text, and the interruptions. -/
structure World where
  /-- What `lstat` finds at the root, `none` when it raises `OSError`. -/
  root : Str → Option Node
  startedAt : Str
  observedAt : Str
  /-- Whether a stop request or the deadline is seen, at each turn of the read loop. -/
  interrupted : ℕ → Bool

/-- The state: the free slots of `_scan_capacity`, and the turns of the read loop so far. -/
structure Reader where
  slots : ℕ
  turns : ℕ

abbrev Reading (α : Type) := EStateM Failure Reader α

/-- `raise LocalStoreError(state)`. -/
def refuse {α : Type} (state : String) : Reading α := throw (.localStore (lit state))

/-! ### Reading files -/

/-- The loop of `_check_regular_path`: `current` is checked, `info` is its `lstat`. -/
def checkParts (root : Node) (current : List Str) (info : Node) : List Str → Reading Node
  | [] => return info
  | part :: parts =>
    match root.lstat (current ++ [part]) with
    | none => refuse "LOCAL_STORE_FILE_UNAVAILABLE"
    | some (.link _) => refuse "LOCAL_STORE_PATH_INVALID"
    | some info => checkParts root (current ++ [part]) info parts

/-- `_check_regular_path`. -/
def checkRegularPath (root : Option Node) (relative : List Str) : Reading Node :=
  match root with
  | none => refuse "LOCAL_STORE_FILE_UNAVAILABLE"
  | some (.directory entries) => do
    match ← checkParts (.directory entries) [] (.directory entries) relative with
    | .file _ => return .directory entries
    | _ => refuse "LOCAL_STORE_PATH_INVALID"
  | some _ => refuse "LOCAL_STORE_PATH_INVALID"

/-- The read loop of `_hash_file`; the bytes `fed` to the digest are those read so far. -/
def readLoop (W : World) (maxBytes : ℕ) : (fuel : ℕ) → (rest fed : Bytes) → Reading Bytes
  | 0, _, fed => return fed
  | fuel + 1, rest, fed => do
    let reader ← get
    set { reader with turns := reader.turns + 1 }
    if W.interrupted reader.turns = true then refuse "LOCAL_STORE_CHECK_TIMEOUT"
    else
      let wanted := min HASH_CHUNK_BYTES (maxBytes - fed.length + 1)
      let chunk := rest.take wanted
      if chunk = [] then return fed
      else if maxBytes < fed.length + chunk.length then refuse "LOCAL_STORE_SIZE_INVALID"
      else readLoop W maxBytes fuel (rest.drop wanted) (fed ++ chunk)

/-- `_hash_file`: the digest, the bytes of a manifest, and the count. -/
def hashFile (W : World) (root : Option Node) (relative : List Str) (maxBytes : ℕ)
    (expectedSize : Option ℕ) : Reading (Str × Option Bytes × ℕ) := do
  let root ← checkRegularPath root relative
  -- the path is opened anew, and a link is not followed
  match root.lstat relative with
  | none | some (.link _) => refuse "LOCAL_STORE_FILE_UNAVAILABLE"
  | some (.file contents) =>
    if contents = [] ∨ maxBytes < contents.length then refuse "LOCAL_STORE_SIZE_INVALID"
    else if expectedSize.any (· ≠ contents.length) = true then
      refuse "LOCAL_STORE_SIZE_MISMATCH"
    else do
      let fed ← readLoop W maxBytes (contents.length + 1) contents []
      if fed.length ≠ contents.length then refuse "LOCAL_STORE_CHANGED_DURING_READ"
      else if expectedSize.any (· ≠ fed.length) = true then refuse "LOCAL_STORE_SIZE_MISMATCH"
      else return (sha256Hex fed, if maxBytes = MAX_MANIFEST_BYTES then some fed else none,
        fed.length)
  | some _ => refuse "LOCAL_STORE_SIZE_INVALID"

/-! ### The manifest -/

/-- The structure bound of a manifest. -/
def withinManifest (value : Json) : Bool :=
  TreeWalk.walk Json.children MAX_MANIFEST_DEPTH MAX_MANIFEST_NODES (MAX_MANIFEST_NODES + 1)
    [(value, 0)] 0

/-- `v == 2`, which the float 2.0 is too. -/
def isTwo : Json → Bool
  | .num (.int n) => n = 2
  | .num (.float x) => !x.isNaN && x.units = 2 * Binary64.one
  | _ => false

/-- The value, when it is an object. -/
def asObject : Json → Option Dict
  | .obj d => some d
  | _ => none

/-- `_parse_manifest`: the config and the layers. -/
def parseManifest (raw : Bytes) : Option (Dict × List Dict) := do
  let text ← decodeUtf8 raw
  let value ← loads ⟨true, false⟩ text
  if withinManifest value = false then none
  else
    let manifest ← asObject value
    if (Dict.get manifest (lit "schemaVersion")).any isTwo = false then none
    else match Dict.get manifest (lit "config"), Dict.get manifest (lit "layers") with
      | some (.obj config), some (.arr layers) =>
        if layers.length < 1 ∨ MAX_LAYERS < layers.length then none
        else (layers.mapM asObject).map fun layers => (config, layers)
      | _, _ => none

/-- A descriptor of a blob that may be read. -/
@[ext] structure Descriptor where
  digest : Str
  size : ℕ
  mediaType : Str
  isDigest : isHexDigest digest = true
  pos : 0 < size
  bounded : size ≤ MAX_BLOB_BYTES
  vendor : Str.startsWith mediaType (lit "application/vnd.") = true

/-- `_descriptor`. -/
def descriptor (record : Dict) : Option Descriptor :=
  match Dict.get record (lit "digest"), Dict.get record (lit "size"),
      Dict.get record (lit "mediaType") with
  | some (.str digest), some (.num (.int size)), some (.str mediaType) =>
    if h : Str.startsWith digest (lit "sha256:") = true ∧ isHexDigest (digest.drop 7) = true ∧
        0 < size ∧ size ≤ MAX_BLOB_BYTES ∧
        Str.startsWith mediaType (lit "application/vnd.") = true then
      some ⟨digest.drop 7, size.toNat, mediaType, h.2.1, Int.lt_toNat.mpr h.2.2.1,
        Int.toNat_le.mpr h.2.2.2.1, h.2.2.2.2⟩
    else none
  | _, _, _ => none

/-! ### The check -/

/-- `record.get("mediaType") == "application/vnd.ollama.image.model"`. -/
def isModelLayer (record : Dict) : Bool :=
  Dict.get record (lit "mediaType") = some (.str (lit "application/vnd.ollama.image.model"))

/-- The path of a blob. -/
def blobPath (digest : Str) : List Str := [lit "blobs", lit "sha256-" ++ digest]

/-- The loop over the records; the bytes hashed. -/
def hashBlobs (W : World) (root : Option Node) :
    List Dict → (totalDeclared totalHashed : ℕ) → Reading ℕ
  | [], _, totalHashed => return totalHashed
  | record :: records, totalDeclared, totalHashed =>
    match descriptor record with
    | none => refuse "LOCAL_STORE_MANIFEST_INVALID"
    | some d =>
      if MAX_TOTAL_BLOB_BYTES < totalDeclared + d.size then refuse "LOCAL_STORE_SIZE_INVALID"
      else do
        let (observed, _, count) ←
          hashFile W root (blobPath d.digest) MAX_BLOB_BYTES (some d.size)
        if observed ≠ d.digest then refuse "LOCAL_STORE_BLOB_MISMATCH"
        else hashBlobs W root records (totalDeclared + d.size) (totalHashed + count)

/-- What a match reports, its constants left out. -/
structure Report where
  startedAt : Str
  observedAt : Str
  manifestSha256 : Str
  weightSha256 : Str
  verifiedBlobCount : ℕ
  bytesHashed : ℕ

/-- The report as it is returned. -/
def Report.json (r : Report) : Json :=
  .obj [(lit "state", "LOCAL_STORE_BYTES_PRE_REQUEST_MATCH"),
    (lit "basis", "READ_ONLY_LOCAL_STORE_FILES"),
    (lit "observation_scope", "SEQUENTIAL_PRE_REQUEST_READS"),
    (lit "observation_started_at", .str r.startedAt),
    (lit "observed_at", .str r.observedAt),
    (lit "manifest_sha256", .str r.manifestSha256),
    (lit "weight_sha256", .str r.weightSha256),
    (lit "verified_blob_count", .int r.verifiedBlobCount),
    (lit "bytes_hashed", .int r.bytesHashed),
    (lit "loaded_weight_attestation", "UNAVAILABLE"),
    (lit "post_completion_store_check", "NOT_PERFORMED")]

/-- `Path(store_root)`, and what is found there. -/
def openRoot (W : World) (storeRoot : Str) : Reading (Option Node) :=
  -- `lstat` raises `ValueError` for a path that the system cannot be asked about
  if storeRoot.any fun c => c.val = 0 ∨ (0xD800 ≤ c.val ∧ c.val < 0xDC80) ∨
      (0xDCFF < c.val ∧ c.val < 0xE000) then throw .valueError
  else return W.root storeRoot

/-- `_verify_store_bytes`. -/
def verifyStoreBytes' (W : World) (model expectedManifest expectedWeight storeRoot : Str) :
    Reading Report :=
  if storeRoot.head? ≠ some (chr '/') then refuse "LOCAL_STORE_NOT_CONFIGURED"
  else
    match manifestRelativePath model with
    | none => refuse "LOCAL_STORE_MODEL_NAME_INVALID"
    | some relative => do
      let root ← openRoot W storeRoot
      let (manifestDigest, manifestData, manifestSize) ←
        hashFile W root relative MAX_MANIFEST_BYTES none
      if manifestDigest ≠ expectedManifest then refuse "LOCAL_STORE_MANIFEST_MISMATCH"
      else match parseManifest (manifestData.getD []) with
        | none => refuse "LOCAL_STORE_MANIFEST_INVALID"
        | some (config, layers) =>
          match layers.filter isModelLayer with
          | [weight] =>
            match descriptor weight with
            | none => refuse "LOCAL_STORE_MANIFEST_INVALID"
            | some d =>
              if d.digest ≠ expectedWeight then refuse "LOCAL_STORE_WEIGHT_PIN_MISMATCH"
              else do
                let totalHashed ← hashBlobs W root (config :: layers) 0 manifestSize
                return {
                  startedAt := W.startedAt
                  observedAt := W.observedAt
                  manifestSha256 := manifestDigest
                  weightSha256 := d.digest
                  verifiedBlobCount := (config :: layers).length
                  bytesHashed := totalHashed }
          | _ => refuse "LOCAL_STORE_MANIFEST_INVALID"

/-- The slot is taken if it is free, and given back at either exit. -/
def withSlot {α : Type} (x : Reading α) : Reading α := fun reader =>
  if reader.slots = 0 then .error (.localStore (lit "LOCAL_STORE_CHECK_BUSY")) reader
  else
    match x { reader with slots := reader.slots - 1 } with
    | .ok a reader => .ok a { reader with slots := reader.slots + 1 }
    | .error e reader => .error e { reader with slots := reader.slots + 1 }

/-- `verify_store_bytes`. -/
def verifyStoreBytes (W : World) (model expectedManifest expectedWeight storeRoot : Str) :
    Reading Report :=
  withSlot (verifyStoreBytes' W model expectedManifest expectedWeight storeRoot)

end LocalStore

end SzlRouter
