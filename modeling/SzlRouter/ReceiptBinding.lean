/-
A receipt header binds one exchange.

The header is the digest of the receipt body, and the body has the digests of the upstream
completion and of the request.  Two exchanges that are consistent with one header have the
same receipt body, then the same digests, then the same upstream completion and request;
and the two fields that the body leaves out are the header and a constant.

* `Consistent.parts` — what a consistent verification says of the digests;
* `norm_obj_of_without` — objects that agree at a key and without it;
* `receipt_binds_exchange` — one header, one completion and one request.
-/
import SzlRouter.CanonicalValues
import Mathlib.Data.Set.Function

namespace Py

namespace Dict

variable {α : Type} {d : List (Str × α)} {k l : Str}

theorem get_append {e : List (Str × α)} : get (d ++ e) k = (get d k).or (get e k) := by
  induction d with
  | nil => rfl
  | cons p d ih =>
    obtain ⟨l, v⟩ := p
    rw [List.cons_append, get_cons, get_cons, ih]
    split_ifs <;> rfl

theorem without_without : without (without d [k]) [l] = without d [k, l] := by
  rw [without, without, without, List.filter_filter]
  refine List.filter_congr fun p _ => ?_
  simp [Bool.and_comm]

end Dict

end Py

namespace SzlRouter

namespace Gateway

open Py

/-! ### What is hashed -/

/-- The receipt without `digest` and `algorithm`. -/
def receiptBodyOf (completion : Dict) : Dict :=
  Dict.without (receiptOf completion) [lit "digest", lit "algorithm"]

/-- The completion without its receipt. -/
def upstreamOf (completion : Dict) : Dict := Dict.without completion [lit "szl_receipt"]

/-- The bytes that `verify_completion` hashes. -/
def hashedBytes (completion request : Dict) : List Bytes :=
  [Json.obj (receiptBodyOf completion), .obj (upstreamOf completion), .obj request].filterMap
    fun value => (canonical value).toOption

/-- `verify_completion` reports `CONSISTENT` with this expected digest. -/
def Consistent (header : Str) (completion request : Dict) : Prop :=
  ∃ checks, verifyCompletion completion request (some header) = some checks ∧
    checks.consistent = true

/-- SHA-256 has no collision among what is hashed for these exchanges. The texts are the receipts
without their digests, the responses and the requests, and no others. -/
def NoCollision (exchanges : List (Dict × Dict)) : Prop :=
  Set.InjOn sha256Hex {x | ∃ e ∈ exchanges, x ∈ hashedBytes e.1 e.2}

/-- The receipt names the schema and the algorithm that the verifier knows. -/
def NamesSchema (receipt : Dict) : Prop :=
  Dict.get receipt (lit "schema") = some (.str (lit "szl.router-receipt/v1")) ∧
    Dict.get receipt (lit "algorithm") = some (.str (lit "sha256"))

/-- What a verification that returns has compared. -/
structure Compared (completion request : Dict) (header : Option Str) (checks : Checks)
    (upstream requested : Bytes) : Prop where
  encodes : ∃ raw, canonical (.obj completion) = .ok raw
  hasUpstream : canonical (.obj (upstreamOf completion)) = .ok upstream
  hasRequest : canonical (.obj request) = .ok requested
  receiptDigest : (¬NamesSchema (receiptOf completion) ∧ checks.receiptDigest = false) ∨
    (NamesSchema (receiptOf completion) ∧
    ∃ body, canonical (.obj (receiptBodyOf completion)) = .ok body ∧
      checks.receiptDigest =
        decide (Dict.get (receiptOf completion) (lit "digest") = some (.str (sha256Hex body))))
  responseDigest : checks.responseDigest =
    decide (Dict.get (receiptOf completion) (lit "response_digest") =
      some (.str (sha256Hex upstream)))
  requestDigest : checks.requestDigest =
    decide (Dict.get (receiptOf completion) (lit "request_digest") =
      some (.str (sha256Hex requested)))
  headerDigest : checks.headerDigest = header.map fun h =>
    isHexDigest h && decide (Dict.get (receiptOf completion) (lit "digest") = some (.str h))

theorem eq_ok_of_toOption {ε α : Type} {x : Except ε α} {a : α} (h : x.toOption = some a) :
    x = .ok a := by
  cases x with
  | error e => cases h
  | ok b => rw [Option.some.inj h]

theorem bytes_of_sha256 {v : Json} {d : Str} (h : sha256 v = .ok d) :
    ∃ b, canonical v = .ok b ∧ sha256Hex b = d := by
  rw [sha256] at h
  cases hb : canonical v with
  | error e =>
    rw [hb] at h
    cases h
  | ok b =>
    rw [hb] at h
    exact ⟨b, rfl, Except.ok.inj h⟩

/-- What `verify_completion` compares when it returns. -/
theorem verifyCompletion_spec {completion request : Dict} {header : Option Str} {checks : Checks}
    (h : verifyCompletion completion request header = some checks) :
    ∃ upstream requested, Compared completion request header checks upstream requested := by
  rw [verifyCompletion] at h
  obtain ⟨raw, hraw, h⟩ := Option.bind_eq_some_iff.mp h
  split_ifs at h with hsize
  dsimp only at h
  -- the two comparisons after that of the receipt are made either way
  have hrest : ∀ {matched : Bool} {last : Option Checks},
      last = some checks → (last = do
        let response ← (sha256 (.obj (upstreamOf completion))).toOption
        let requested ← (sha256 (.obj request)).toOption
        return {
          receiptDigest := matched
          responseDigest := Dict.get (receiptOf completion) (lit "response_digest") =
            some (.str response)
          requestDigest := Dict.get (receiptOf completion) (lit "request_digest") =
            some (.str requested)
          headerDigest := header.map fun header => isHexDigest header &&
            decide (Dict.get (receiptOf completion) (lit "digest") = some (.str header)) }) →
      ((¬NamesSchema (receiptOf completion) ∧ matched = false) ∨
        (NamesSchema (receiptOf completion) ∧ ∃ body,
          canonical (.obj (receiptBodyOf completion)) = .ok body ∧ matched =
            decide (Dict.get (receiptOf completion) (lit "digest") =
              some (.str (sha256Hex body))))) →
      ∃ upstream requested, Compared completion request header checks upstream requested := by
    intro matched last hlast heq hmatched
    rw [hlast] at heq
    obtain ⟨response, hresponse, heq⟩ := Option.bind_eq_some_iff.mp heq.symm
    obtain ⟨requested, hrequested, heq⟩ := Option.bind_eq_some_iff.mp heq
    obtain ⟨upstream, hupstream, rfl⟩ := bytes_of_sha256 (eq_ok_of_toOption hresponse)
    obtain ⟨asked, hasked, rfl⟩ := bytes_of_sha256 (eq_ok_of_toOption hrequested)
    rw [← Option.some.inj heq]
    exact ⟨upstream, asked, {
      encodes := ⟨raw, eq_ok_of_toOption hraw⟩
      hasUpstream := hupstream
      hasRequest := hasked
      receiptDigest := hmatched
      responseDigest := rfl
      requestDigest := rfl
      headerDigest := rfl }⟩
  split_ifs at h with hnamed
  · obtain ⟨matched, hmatched, h⟩ := Option.bind_eq_some_iff.mp h
    obtain ⟨digest, hdigest, rfl⟩ := Option.map_eq_some_iff.mp hmatched
    obtain ⟨body, hbody, rfl⟩ := bytes_of_sha256 (eq_ok_of_toOption hdigest)
    exact hrest h rfl (.inr ⟨hnamed, body, hbody, rfl⟩)
  · obtain ⟨matched, hmatched, h⟩ := Option.bind_eq_some_iff.mp h
    obtain rfl := Option.some.inj hmatched
    exact hrest h rfl (.inl ⟨hnamed, rfl⟩)

/-- A consistent exchange: its receipt, and the bytes behind its three digests. -/
structure Parts (header : Str) (completion request receipt : Dict)
    (body upstream requested : Bytes) : Prop where
  hasReceipt : Dict.get completion (lit "szl_receipt") = some (.obj receipt)
  algorithm : Dict.get receipt (lit "algorithm") = some (.str (lit "sha256"))
  digest : Dict.get receipt (lit "digest") = some (.str header)
  hasBody : canonical (.obj (receiptBodyOf completion)) = .ok body
  bodyDigest : sha256Hex body = header
  hasUpstream : canonical (.obj (upstreamOf completion)) = .ok upstream
  responseDigest : Dict.get receipt (lit "response_digest") = some (.str (sha256Hex upstream))
  hasRequest : canonical (.obj request) = .ok requested
  requestDigest : Dict.get receipt (lit "request_digest") = some (.str (sha256Hex requested))

/-- Without a receipt object there is no schema. -/
theorem receipt_of_schema {completion : Dict} {schema : Json}
    (h : Dict.get (receiptOf completion) (lit "schema") = some schema) :
    Dict.get completion (lit "szl_receipt") = some (.obj (receiptOf completion)) := by
  rw [receiptOf] at h ⊢
  split at h
  · rename_i receipt hreceipt
    rw [hreceipt]
  · cases h

/-- What a consistent verification says of the digests: the header is the digest of the receipt,
and the receipt has those of the response and of the request. -/
theorem Consistent.parts {header : Str} {completion request : Dict}
    (h : Consistent header completion request) :
    ∃ body upstream requested,
      Parts header completion request (receiptOf completion) body upstream requested := by
  obtain ⟨checks, hverify, hconsistent⟩ := h
  obtain ⟨upstream, requested, hcompared⟩ := verifyCompletion_spec hverify
  rw [Checks.consistent, hcompared.responseDigest, hcompared.requestDigest,
    hcompared.headerDigest] at hconsistent
  simp only [Option.map_some, Option.getD_some, Bool.and_eq_true,
    decide_eq_true_eq] at hconsistent
  -- a consistent receipt passed every comparison that was made
  obtain ⟨⟨⟨hreceiptDigest, hresponseDigest⟩, hrequestDigest⟩, _, hheader⟩ := hconsistent
  rcases hcompared.receiptDigest with ⟨_, hfalse⟩ | ⟨hnamed, body, hbody, hdigest⟩
  · rw [hfalse] at hreceiptDigest
    cases hreceiptDigest
  · rw [hdigest, decide_eq_true_eq] at hreceiptDigest
    have hsame : sha256Hex body = header :=
      Json.str.inj (Option.some.inj (hreceiptDigest.symm.trans hheader))
    exact ⟨body, upstream, requested, {
      hasReceipt := receipt_of_schema hnamed.1
      algorithm := hnamed.2
      digest := hheader
      hasBody := hbody
      bodyDigest := hsame
      hasUpstream := hcompared.hasUpstream
      responseDigest := hresponseDigest
      hasRequest := hcompared.hasRequest
      requestDigest := hrequestDigest }⟩

theorem mem_hashedBytes {completion request : Dict} {v : Json} {b : Bytes}
    (hv : v ∈ [Json.obj (receiptBodyOf completion), .obj (upstreamOf completion), .obj request])
    (hb : canonical v = .ok b) : b ∈ hashedBytes completion request :=
  List.mem_filterMap.mpr ⟨v, hv, by rw [hb]; rfl⟩

/-! ### From the header to the exchange -/

/-- Objects that agree at a key and without it are read back alike. The receipt is the one key,
and the response is what is left without it. -/
theorem norm_obj_of_without {d e : Dict} {k : Str} {v w : Json} (hd : (Dict.keys d).Nodup)
    (he : (Dict.keys e).Nodup) (hv : Dict.get d k = some v) (hw : Dict.get e k = some w)
    (hvw : norm canonicalDumps v = norm canonicalDumps w)
    (hrest : norm canonicalDumps (.obj (Dict.without d [k])) =
      norm canonicalDumps (.obj (Dict.without e [k]))) :
    norm canonicalDumps (.obj d) = norm canonicalDumps (.obj e) := by
  have hmembers := members_perm_of_norm_eq (Dict.nodup_keys_without hd [k])
    (Dict.nodup_keys_without he [k]) hrest
  have hleft := (Dict.perm_cons_without hd hv).map fun p => (p.1, norm canonicalDumps p.2)
  have hright := (Dict.perm_cons_without he hw).map fun p => (p.1, norm canonicalDumps p.2)
  rw [List.map_cons] at hleft hright
  dsimp only at hleft hright
  rw [hvw] at hleft
  exact norm_obj_of_perm hd he (hleft.trans ((hmembers.cons _).trans hright.symm))

section

variable {header : Str} {completion completion' request request' receipt receipt' : Dict}
  {body body' upstream upstream' requested requested' : Bytes}
  (h : Parts header completion request receipt body upstream requested)
  (h' : Parts header completion' request' receipt' body' upstream' requested')

include h in
theorem Parts.receiptOf_eq : receiptOf completion = receipt := by
  rw [receiptOf, h.hasReceipt]

include h in
/-- A field that the receipt body has. -/
theorem Parts.body_get {k : Str} (hk : k ∉ [lit "digest", lit "algorithm"]) :
    Dict.get (receiptBodyOf completion) k = Dict.get receipt k := by
  rw [receiptBodyOf, h.receiptOf_eq, Dict.get_without, if_neg hk]

include h in
theorem Parts.nodup_receipt (hkeys : Stable canonicalDumps (.obj completion)) :
    (Dict.keys receipt).Nodup :=
  (hkeys.get h.hasReceipt).1

include h h'

/-- What the two receipts say under a key of the body is the same digest. -/
theorem Parts.digest_eq {k d d' : Str} (hk : k ∉ [lit "digest", lit "algorithm"])
    (hkeys : Stable canonicalDumps (.obj completion))
    (hkeys' : Stable canonicalDumps (.obj completion'))
    (hbody : norm canonicalDumps (.obj (receiptBodyOf completion)) =
      norm canonicalDumps (.obj (receiptBodyOf completion')))
    (hd : Dict.get receipt k = some (.str d)) (hd' : Dict.get receipt' k = some (.str d')) :
    d = d' := by
  have hnodup : (Dict.keys (receiptBodyOf completion)).Nodup := by
    rw [receiptBodyOf, h.receiptOf_eq]
    exact Dict.nodup_keys_without (h.nodup_receipt hkeys) _
  have hnodup' : (Dict.keys (receiptBodyOf completion')).Nodup := by
    rw [receiptBodyOf, h'.receiptOf_eq]
    exact Dict.nodup_keys_without (h'.nodup_receipt hkeys') _
  exact str_of_norm_eq (field_of_norm_eq hnodup hnodup' hbody ((h.body_get hk).trans hd)
    ((h'.body_get hk).trans hd'))

/-- Receipts with one body and one digest are read back alike. -/
theorem Parts.norm_receipt_eq (hkeys : Stable canonicalDumps (.obj completion))
    (hkeys' : Stable canonicalDumps (.obj completion'))
    (hbody : norm canonicalDumps (.obj (receiptBodyOf completion)) =
      norm canonicalDumps (.obj (receiptBodyOf completion'))) :
    norm canonicalDumps (.obj receipt) = norm canonicalDumps (.obj receipt') := by
  have hnodup := h.nodup_receipt hkeys
  have hnodup' := h'.nodup_receipt hkeys'
  refine norm_obj_of_without hnodup hnodup' h.digest h'.digest rfl ?_
  -- what is left has the algorithm and the body
  refine norm_obj_of_without (k := lit "algorithm") (v := .str (lit "sha256"))
    (w := .str (lit "sha256")) (Dict.nodup_keys_without hnodup _)
    (Dict.nodup_keys_without hnodup' _) ?_ ?_ rfl ?_
  · rw [Dict.get_without, if_neg (by decide)]
    exact h.algorithm
  · rw [Dict.get_without, if_neg (by decide)]
    exact h'.algorithm
  · rw [Dict.without_without, Dict.without_without]
    rw [receiptBodyOf, receiptBodyOf, h.receiptOf_eq, h'.receiptOf_eq] at hbody
    exact hbody

end

/-- **The receipt header binds the whole exchange.** Two exchanges that are consistent with one
expected digest have the same completion and the same request, up to the order in which members
were written, unless two of the texts that were hashed collide. -/
theorem receipt_binds_exchange {header : Str} {completion completion' request request' : Dict}
    (hkeys : Stable canonicalDumps (.obj completion))
    (hkeys' : Stable canonicalDumps (.obj completion'))
    (hcollision : NoCollision [(completion, request), (completion', request')])
    (h : Consistent header completion request) (h' : Consistent header completion' request') :
    canonical (.obj completion) = canonical (.obj completion') ∧
      canonical (.obj request) = canonical (.obj request') := by
  obtain ⟨body, upstream, requested, hparts⟩ := h.parts
  obtain ⟨body', upstream', requested', hparts'⟩ := h'.parts
  have hmem : ∀ {b}, b ∈ hashedBytes completion request →
      b ∈ {x | ∃ e ∈ [(completion, request), (completion', request')], x ∈ hashedBytes e.1 e.2} :=
    fun hb => ⟨_, List.mem_cons_self, hb⟩
  have hmem' : ∀ {b}, b ∈ hashedBytes completion' request' →
      b ∈ {x | ∃ e ∈ [(completion, request), (completion', request')], x ∈ hashedBytes e.1 e.2} :=
    fun hb => ⟨_, List.mem_cons_of_mem _ List.mem_cons_self, hb⟩
  -- the header gives the receipt body
  have hbody : body = body' :=
    hcollision (hmem (mem_hashedBytes (by simp) hparts.hasBody))
      (hmem' (mem_hashedBytes (by simp) hparts'.hasBody))
      (hparts.bodyDigest.trans hparts'.bodyDigest.symm)
  have hnorm : norm canonicalDumps (.obj (receiptBodyOf completion)) =
      norm canonicalDumps (.obj (receiptBodyOf completion')) :=
    canonical_injective hparts.hasBody (hbody ▸ hparts'.hasBody)
  -- the body gives the other two digests
  have hupstream : upstream = upstream' :=
    hcollision (hmem (mem_hashedBytes (by simp) hparts.hasUpstream))
      (hmem' (mem_hashedBytes (by simp) hparts'.hasUpstream))
      (hparts.digest_eq hparts' (by decide) hkeys hkeys' hnorm hparts.responseDigest
        hparts'.responseDigest)
  have hrequested : requested = requested' :=
    hcollision (hmem (mem_hashedBytes (by simp) hparts.hasRequest))
      (hmem' (mem_hashedBytes (by simp) hparts'.hasRequest))
      (hparts.digest_eq hparts' (by decide) hkeys hkeys' hnorm hparts.requestDigest
        hparts'.requestDigest)
  -- the completion is the upstream one and the receipt
  have hcompletion :
      norm canonicalDumps (.obj completion) = norm canonicalDumps (.obj completion') :=
    norm_obj_of_without hkeys.1 hkeys'.1 hparts.hasReceipt hparts'.hasReceipt
      (hparts.norm_receipt_eq hparts' hkeys hkeys' hnorm)
      (canonical_injective hparts.hasUpstream (hupstream ▸ hparts'.hasUpstream))
  have hcanonical : ∀ {c r : Dict}, Consistent header c r →
      ∃ raw, canonical (.obj c) = .ok raw := by
    rintro c r ⟨checks, hverify, _⟩
    obtain ⟨_, _, hcompared⟩ := verifyCompletion_spec hverify
    exact hcompared.encodes
  obtain ⟨raw, hraw⟩ := hcanonical h
  obtain ⟨raw', hraw'⟩ := hcanonical h'
  constructor
  · rw [hraw, hraw', canonical_of_norm_eq hkeys hkeys' hcompletion hraw hraw']
  · rw [hparts.hasRequest, hparts'.hasRequest, hrequested]

/-! ### One exchange with its members in two orders -/

def sampleRequest : Dict := [(lit "model", .str (lit "szl-local")), (lit "max_tokens", .int 8)]

def sampleUpstream : Dict := [(lit "id", .str (lit "c1")), (lit "choices", .arr [])]

def sampleReceipt : Dict :=
  [(lit "schema", .str (lit "szl.router-receipt/v1")),
    (lit "response_digest",
      .str (lit "bc43570d5bb6d490a240a351559373ae0565d55a0acae015fe7a5c7669facd40")),
    (lit "request_digest",
      .str (lit "5ab7f363ce5e7d9a17337e83ea048519e68411ff79e9ea4728fce0db90280a6a"))]

def sampleHeader : Str :=
  lit "e6c3e35a52e8de20bed53490718f6e7916851a92e94dc2ad88d386e7af1c823f"

def sampleBound : Json :=
  .obj (sampleReceipt ++
    [(lit "algorithm", .str (lit "sha256")), (lit "digest", .str sampleHeader)])

def sampleCompletion : Dict := sampleUpstream ++ [(lit "szl_receipt", sampleBound)]

/-- The receipt before the upstream members. -/
def sampleReordered : Dict := (lit "szl_receipt", sampleBound) :: sampleUpstream

set_option maxRecDepth 100000 in
theorem sample_exchange :
    ((verifyCompletion sampleCompletion sampleRequest (some sampleHeader)).map Checks.consistent =
        some true ∧
      (verifyCompletion sampleReordered sampleRequest (some sampleHeader)).map Checks.consistent =
        some true) ∧
    ((hashedBytes sampleCompletion sampleRequest).map sha256Hex).Nodup ∧
      hashedBytes sampleReordered sampleRequest =
        hashedBytes sampleCompletion sampleRequest := by
  decide +kernel

/-- The order of the members is all that one header leaves open. -/
theorem receipt_binds_reordered :
    sampleCompletion ≠ sampleReordered ∧
      canonical (.obj sampleCompletion) = canonical (.obj sampleReordered) := by
  obtain ⟨⟨hconsistent, hreordered⟩, hnodup, hsame⟩ := sample_exchange
  have hof : ∀ {c : Dict}, (verifyCompletion c sampleRequest (some sampleHeader)).map
      Checks.consistent = some true → Consistent sampleHeader c sampleRequest :=
    fun h => Option.map_eq_some_iff.mp h
  have hcollision : NoCollision
      [(sampleCompletion, sampleRequest), (sampleReordered, sampleRequest)] := by
    -- the two completions have the same hashed texts, so one list holds them all
    have hmem : ∀ {x}, (∃ e ∈ [(sampleCompletion, sampleRequest),
        (sampleReordered, sampleRequest)], x ∈ hashedBytes e.1 e.2) →
        x ∈ hashedBytes sampleCompletion sampleRequest := by
      rintro x ⟨e, he, hx⟩
      rcases List.mem_pair.mp he with rfl | rfl
      · exact hx
      · exact hsame ▸ hx
    intro x hx y hy
    exact List.inj_on_of_nodup_map hnodup (hmem hx) (hmem hy)
  have hbound : Stable canonicalDumps sampleBound :=
    ⟨by decide, ⟨rfl, rfl⟩, ⟨rfl, rfl⟩, ⟨rfl, rfl⟩, ⟨rfl, rfl⟩, ⟨rfl, rfl⟩, trivial⟩
  have hkeys : Stable canonicalDumps (.obj sampleCompletion) :=
    ⟨by decide, ⟨rfl, rfl⟩, ⟨rfl, trivial⟩, ⟨rfl, hbound⟩, trivial⟩
  have hkeys' : Stable canonicalDumps (.obj sampleReordered) :=
    ⟨by decide, ⟨rfl, hbound⟩, ⟨rfl, rfl⟩, ⟨rfl, trivial⟩, trivial⟩
  exact ⟨by decide, (receipt_binds_exchange hkeys hkeys' hcollision (hof hconsistent)
    (hof hreordered)).1⟩

end Gateway

end SzlRouter
