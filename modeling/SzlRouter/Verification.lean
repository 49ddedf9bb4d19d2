/-
Offline verification of a completion: the digests a receipt binds.

`canonical` is the one encoding that the gateway hashes and the verifier hashes
again.

* `canonical_of_clean` — what has no surrogate and no odd number can be hashed.
-/
import SzlRouter.CanonicalJson
import SzlRouter.JsonStructure
import SzlRouter.Sha256

namespace SzlRouter

namespace Gateway

open Py

def MAX_VERIFICATION_BYTES : ℕ := 3000000
def MAX_COMPLETION_BYTES : ℕ := 2032768
def MAX_JSON_DEPTH : ℕ := 64
def MAX_JSON_NODES : ℕ := 100000

/-- `json.dumps(ensure_ascii=False, sort_keys=True, separators=(",", ":"), allow_nan=False)`. -/
def canonicalDumps : DumpOpts := ⟨false, true, false, true⟩

/-- `canonical`; an error is the name of the exception. -/
def canonical (value : Json) : Except Str Bytes :=
  match dumps canonicalDumps value with
  | none => .error (lit "ValueError")
  | some text =>
    match utf8 text with
    | none => .error (lit "UnicodeEncodeError")
    | some raw => .ok raw

/-- `sha256` of a value. -/
def sha256 (value : Json) : Except Str Str := (canonical value).map sha256Hex

/-- A value without surrogates, that `json.dumps` accepts, can be hashed: its text is encoded
character by character. -/
theorem canonical_of_clean {v : Json} (htexts : Texts Clean v)
    (hdump : dumpable canonicalDumps v = true) :
    canonical v = .ok ((render canonicalDumps v).flatMap utf8Char) := by
  rw [canonical, dumps, if_pos hdump]
  dsimp only
  rw [utf8_of_clean (render_clean canonicalDumps htexts)]

/-- `enforce_json_structure_limit`: whether the value passes. -/
def enforceJsonStructureLimit (value : Json) : Bool :=
  TreeWalk.walk Json.children MAX_JSON_DEPTH MAX_JSON_NODES (MAX_JSON_NODES + 1) [(value, 0)] 0

/-- The structure bound of `parse_bundle`; the turn after the last admitted node is refused. -/
def withinStructure (value : Json) : Bool :=
  TreeWalk.walk Json.children MAX_JSON_DEPTH MAX_JSON_NODES (MAX_JSON_NODES + 1) [(value, 0)] 0

/-- `parse_bundle`: the completion and the request; `none` is a `VerificationInputError`. -/
def parseBundle (raw : Bytes) : Option (Dict × Dict) :=
  if MAX_VERIFICATION_BYTES < raw.length then none
  else do
    let text ← decodeUtf8 raw
    let bundle ← loads ⟨true, false⟩ text
    if withinStructure bundle = false then none
    else match bundle with
      | .obj d =>
        if d.length = 2 then
          match Dict.get d (lit "completion"), Dict.get d (lit "request") with
          | some (.obj completion), some (.obj request) => some (completion, request)
          | _, _ => none
        else none
      | _ => none

/-- The checks of `verify_completion`. -/
structure Checks where
  receiptDigest : Bool
  responseDigest : Bool
  requestDigest : Bool
  headerDigest : Option Bool
  deriving DecidableEq

/-- `all(checks.values())`. -/
def Checks.consistent (c : Checks) : Bool :=
  c.receiptDigest && c.responseDigest && c.requestDigest && c.headerDigest.getD true

/-- The result of `verify_completion`. -/
def Checks.report (c : Checks) : Json :=
  .obj [(lit "schema", "szl.router-verification/v1"),
    (lit "status", .str (if c.consistent then lit "CONSISTENT" else lit "DIVERGENT")),
    (lit "checks", .obj ([(lit "receipt_digest", .bool c.receiptDigest),
      (lit "response_digest", .bool c.responseDigest),
      (lit "request_digest", .bool c.requestDigest)] ++
      (c.headerDigest.map fun b => (lit "header_digest", Json.bool b)).toList)),
    (lit "trust", "UNSIGNED_HONEST"), (lit "identity_verified", .bool false)]

/-- `receipt if isinstance(receipt, dict) else {}`. -/
def receiptOf (completion : Dict) : Dict :=
  match Dict.get completion (lit "szl_receipt") with
  | some (.obj receipt) => receipt
  | _ => []

/-- `verify_completion`; `none` is a `VerificationInputError`. -/
def verifyCompletion (completion request : Dict) (receiptHeader : Option Str) : Option Checks := do
  let raw ← (canonical (.obj completion)).toOption
  if MAX_COMPLETION_BYTES < raw.length then none
  else
    let receipt := receiptOf completion
    let body := Dict.without receipt [lit "digest", lit "algorithm"]
    let upstream := Dict.without completion [lit "szl_receipt"]
    let receiptDigest ←
      if Dict.get receipt (lit "schema") = some (.str (lit "szl.router-receipt/v1")) ∧
          Dict.get receipt (lit "algorithm") = some (.str (lit "sha256")) then
        ((sha256 (.obj body)).toOption).map fun d =>
          decide (Dict.get receipt (lit "digest") = some (.str d))
      else some false
    let response ← (sha256 (.obj upstream)).toOption
    let requested ← (sha256 (.obj request)).toOption
    return {
      receiptDigest
      responseDigest := Dict.get receipt (lit "response_digest") = some (.str response)
      requestDigest := Dict.get receipt (lit "request_digest") = some (.str requested)
      headerDigest := receiptHeader.map fun header =>
        isHexDigest header && decide (Dict.get receipt (lit "digest") = some (.str header)) }

end Gateway

end SzlRouter
