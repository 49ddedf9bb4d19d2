/-
Every completion of the gateway verifies.

The gateway hashes the values it holds, and the verifier hashes what it reads back from
their canonical bytes.  What is read back has the members of the value in another order, so
it has the same canonical bytes, with or without some of its members.

* `bundle_readBack` — the bundle is read back as the completion and the request;
* `norm_obj_without` — removing members commutes with reading back;
* `Compared.consistent` — the verifier finds the digests that the gateway wrote;
* `receipts_verify` — what a call returns is consistent with its header, and a validated
  completion is never found inconsistent.
-/
import SzlRouter.GatewayFailover
import SzlRouter.ReceiptBinding

namespace SzlRouter

namespace Gateway

open Py

/-! ### What an upstream completion is -/

def textField (message : Dict) (key : Str) : Bool :=
  match Dict.get message key with
  | none | some .null | some (.str _) => true
  | _ => false

/-- The loop body of `validate_completion`. -/
def validateChoice (choice : Json) : Except Str Unit :=
  match choice.get (lit "message") with
  | some (.obj message) =>
    if Dict.get message (lit "role") ≠ some (.str (lit "assistant")) then
      .error (lit "upstream completion requires assistant messages")
    else if ["content", "refusal", "tool_calls", "function_call", "audio"].all fun key =>
        (Dict.get message (lit key)).isNone then
      .error (lit "upstream assistant message has no output")
    else if ["content", "refusal"].any fun key => !textField message (lit key) then
      .error (lit "upstream output has invalid text fields")
    else match Dict.get message (lit "tool_calls") with
    | none | some .null => .ok ()
    | some (.arr calls) =>
      if calls.any fun call => !(call.isObj && call.truthy) then
        .error (lit "upstream output has invalid tool calls")
      else .ok ()
    | _ => .error (lit "upstream output has invalid tool calls")
  | _ => .error (lit "upstream completion requires assistant messages")

/-- `validate_completion`; an error is the text of the `RuntimeError`. -/
def validateCompletion (value : Json) : Except Str Unit :=
  match value with
  | .obj d =>
    if (Dict.get d (lit "error")).getD .null ≠ .null then
      .error (lit "upstream completion must be an answer object")
    else if (Dict.get d (lit "szl_receipt")).isSome then
      .error (lit "upstream completion uses a reserved receipt field")
    else match Dict.get d (lit "choices") with
    | some (.arr (choice :: choices)) => (choice :: choices).forM validateChoice
    | _ => .error (lit "upstream completion requires nonempty choices")
  | _ => .error (lit "upstream completion must be an answer object")

theorem get_receipt_of_validated {upstream : Dict}
    (h : validateCompletion (.obj upstream) = .ok ()) :
    Dict.get upstream (lit "szl_receipt") = none := by
  rw [validateCompletion] at h
  split_ifs at h with herror hreceipt
  exact Option.not_isSome_iff_eq_none.mp hreceipt

/-! ### Keys that occur once -/

theorem stable_str (s : Str) : Stable canonicalDumps (.str s) := rfl

theorem stable_obj {d : Dict} (hkeys : (Dict.keys d).Nodup)
    (h : ∀ p ∈ d, Stable canonicalDumps p.2) : Stable canonicalDumps (.obj d) := by
  rw [Stable, stableFields_iff]
  exact ⟨hkeys, fun p hp => ⟨rfl, h p hp⟩⟩

theorem stable_arr {vs : List Json} (h : ∀ v ∈ vs, Stable canonicalDumps v) :
    Stable canonicalDumps (.arr vs) := by
  rw [Stable, stableList_iff]
  exact h

theorem stable_jsonOr {α : Type} {f : α → Json} {a : Option α}
    (h : ∀ x, Stable canonicalDumps (f x)) : Stable canonicalDumps (jsonOr f a) := by
  cases a with
  | none => trivial
  | some x => exact h x

theorem stable_set {d : Dict} {k : Str} {v : Json} (hd : Stable canonicalDumps (.obj d))
    (hv : Stable canonicalDumps v) : Stable canonicalDumps (.obj (Dict.set d k v)) := by
  rw [Stable, stableFields_iff] at hd
  refine stable_obj (Dict.nodup_keys_set hd.1) fun p hp => ?_
  have hget := (Dict.get_eq_some (Dict.nodup_keys_set hd.1)).mpr hp
  by_cases hk : p.1 = k
  · rw [hk, Dict.get_set_self] at hget
    rw [← Option.some.inj hget]
    exact hv
  · rw [Dict.get_set_of_ne hk] at hget
    exact (hd.2 p ((Dict.get_eq_some hd.1).mp hget)).2

theorem stable_without {d : Dict} (hd : Stable canonicalDumps (.obj d)) (ks : List Str) :
    Stable canonicalDumps (.obj (Dict.without d ks)) := by
  rw [Stable, stableFields_iff] at hd
  exact stable_obj (Dict.nodup_keys_without hd.1 ks) fun p hp =>
    (hd.2 p (List.mem_of_mem_filter hp)).2

theorem Row.stable (r : Row) : Stable canonicalDumps r.json := by
  obtain ⟨id, state, status, unknown, error⟩ := r
  have hfull :
      (["provider_id", "state", "status_code", "outcome", "error_type"].map lit).Nodup := by
    decide
  refine stable_obj (hfull.sublist ?_) ?_
  · -- the three members after the first two may be missing
    have hstatus : (Dict.keys (status.map fun n => (lit "status_code", Json.int n)).toList).Sublist
        [lit "status_code"] := by
      cases status <;> simp [Dict.keys]
    have hunknown : (Dict.keys (if unknown then [(lit "outcome", Json.str (lit "UNKNOWN"))]
        else [])).Sublist [lit "outcome"] := by
      cases unknown <;> simp [Dict.keys]
    have herror : (Dict.keys (error.map fun e => (lit "error_type", Json.str e)).toList).Sublist
        [lit "error_type"] := by
      cases error <;> simp [Dict.keys]
    have hall := (((List.Sublist.refl [lit "provider_id", lit "state"]).append hstatus).append
      hunknown).append herror
    simpa [Dict.keys] using hall
  · simp only [List.forall_mem_append, List.forall_mem_cons]
    refine ⟨⟨⟨⟨stable_str _, stable_str _, List.forall_mem_nil _⟩, ?_⟩, ?_⟩, ?_⟩
    · intro p hp
      obtain ⟨n, _, rfl⟩ := Option.map_eq_some_iff.mp (Option.mem_toList.mp hp)
      trivial
    · intro p hp
      split_ifs at hp
      · rw [List.mem_singleton.mp hp]
        exact stable_str _
      · cases hp
    · intro p hp
      obtain ⟨e, _, rfl⟩ := Option.map_eq_some_iff.mp (Option.mem_toList.mp hp)
      exact stable_str e

theorem Message.stable_dump (m : Message) : Stable canonicalDumps m.dump := by
  have hkeys : (["role", "content", "name"].map lit).Nodup := by decide
  refine stable_obj hkeys ?_
  simp only [List.forall_mem_cons]
  exact ⟨stable_str _, stable_str _, stable_jsonOr stable_str, List.forall_mem_nil _⟩

theorem Stop.stable (s : Stop) : Stable canonicalDumps s.json := by
  cases s with
  | one s => exact stable_str s
  | many ss =>
    refine stable_arr fun v hv => ?_
    obtain ⟨s, _, rfl⟩ := List.mem_map.mp hv
    exact stable_str s

/-- A dumped request has each key once. -/
theorem ChatRequest.stable_modelDump (r : ChatRequest) :
    Stable canonicalDumps (.obj r.modelDump) := by
  have hmessages : Stable canonicalDumps (.arr (r.messages.map Message.dump)) := by
    refine stable_arr fun v hv => ?_
    obtain ⟨m, _, rfl⟩ := List.mem_map.mp hv
    exact m.stable_dump
  have hkeys : (["model", "required_provider_id", "messages", "temperature", "top_p", "max_tokens",
      "stream", "stop", "user", "data_classification", "max_cost_tier"].map lit).Nodup := by decide
  refine stable_obj hkeys ?_
  simp only [ChatRequest.modelDump, List.forall_mem_cons]
  exact ⟨stable_str _, stable_jsonOr stable_str, hmessages, stable_jsonOr fun _ => trivial,
    stable_jsonOr fun _ => trivial, stable_jsonOr fun _ => trivial, trivial,
    stable_jsonOr Stop.stable, stable_jsonOr stable_str, stable_str _, trivial,
    List.forall_mem_nil _⟩

/-- A receipt body has each key once. -/
theorem Call.stable_receiptBody (C : Call) (rows : List Row) (candidate : Candidate) (status : ℤ)
    (elapsed : Binary64) (responseDigest : Str) {identity : Option Json}
    (hidentity : ∀ v ∈ identity, Stable canonicalDumps v) :
    Stable canonicalDumps
      (.obj (C.receiptBody rows candidate status elapsed responseDigest identity)) := by
  have hrows : Stable canonicalDumps
      (.arr ((rows ++ [successRow candidate.providerId status]).map Row.json)) := by
    refine stable_arr fun v hv => ?_
    obtain ⟨r, _, rfl⟩ := List.mem_map.mp hv
    exact r.stable
  -- the identity of the model is left out for a remote provider
  have hkeys : (["schema", "request_digest", "plan_digest", "provider_id", "public_model",
      "upstream_model", "classification", "attempts", "elapsed_ms", "response_digest",
      "secret_material_recorded", "model_identity"].map lit).Nodup := by decide
  refine stable_obj ?_ ?_
  · cases identity with
    | none => exact hkeys.sublist (List.sublist_append_left _ [lit "model_identity"])
    | some v => exact hkeys
  · simp only [Call.receiptBody, List.forall_mem_append, List.forall_mem_cons]
    refine ⟨⟨stable_str _, stable_str _, stable_str _, stable_str _, stable_str _, stable_str _,
      stable_str _, hrows, trivial, stable_str _, trivial, List.forall_mem_nil _⟩, ?_⟩
    intro p hp
    obtain ⟨v, hv, rfl⟩ := Option.map_eq_some_iff.mp (Option.mem_toList.mp hp)
    exact hidentity v hv

/-! ### Reading back -/

theorem norm_norm {v : Json} (h : Stable canonicalDumps v) :
    norm canonicalDumps (norm canonicalDumps v) = norm canonicalDumps v := by
  rw [norm_eq_unordered rfl h]
  rw [norm_eq_unordered rfl ((stable_unordered v).mpr h), unordered_idem]

theorem stable_norm {v : Json} (h : Stable canonicalDumps v) :
    Stable canonicalDumps (norm canonicalDumps v) := by
  rw [norm_eq_unordered rfl h]
  exact (stable_unordered v).mpr h

theorem eq_str_of_norm_eq {v : Json} {s : Str}
    (h : norm canonicalDumps v = norm canonicalDumps (.str s)) : v = .str s := by
  have hstr : norm canonicalDumps (.str s) = .str s := rfl
  rw [hstr] at h
  cases v with
  | str t => exact h
  | null | bool _ | num _ =>
    rw [norm.eq_def] at h
    cases h
  | arr vs =>
    rw [norm_arr] at h
    cases h
  | obj d =>
    rw [norm_obj] at h
    cases h

theorem eq_obj_of_norm_eq {v : Json} {d : Dict}
    (h : norm canonicalDumps v = norm canonicalDumps (.obj d)) : ∃ e, v = .obj e := by
  rw [norm_obj] at h
  cases v with
  | obj e => exact ⟨e, rfl⟩
  | null | bool _ | num _ | str _ =>
    rw [norm.eq_def] at h
    cases h
  | arr vs =>
    rw [norm_arr] at h
    cases h

section members

variable {d e : Dict} (hd : (Dict.keys d).Nodup) (he : (Dict.keys e).Nodup)
  (h : norm canonicalDumps (.obj d) = norm canonicalDumps (.obj e))

include hd he h

/-- A field of one is a field of the other. -/
theorem exists_field_of_norm_eq {k : Str} {w : Json} (hw : Dict.get e k = some w) :
    ∃ v, Dict.get d k = some v ∧ norm canonicalDumps v = norm canonicalDumps w := by
  have hmem : (k, norm canonicalDumps w) ∈ d.map fun p => (p.1, norm canonicalDumps p.2) :=
    (members_perm_of_norm_eq hd he h).mem_iff.mpr
      (List.mem_map.mpr ⟨(k, w), Dict.mem_of_get hw, rfl⟩)
  obtain ⟨⟨l, v⟩, hv, heq⟩ := List.mem_map.mp hmem
  obtain ⟨rfl, hnorm⟩ := Prod.mk.inj heq
  exact ⟨v, (Dict.get_eq_some hd).mpr hv, hnorm⟩

theorem str_field_of_norm_eq {k s : Str} (hw : Dict.get e k = some (.str s)) :
    Dict.get d k = some (.str s) := by
  obtain ⟨v, hv, hnorm⟩ := exists_field_of_norm_eq hd he h hw
  rw [hv, eq_str_of_norm_eq hnorm]

theorem obj_field_of_norm_eq {k : Str} {c : Dict} (hw : Dict.get e k = some (.obj c)) :
    ∃ b, Dict.get d k = some (.obj b) ∧
      norm canonicalDumps (.obj b) = norm canonicalDumps (.obj c) := by
  obtain ⟨v, hv, hnorm⟩ := exists_field_of_norm_eq hd he h hw
  obtain ⟨b, rfl⟩ := eq_obj_of_norm_eq hnorm
  exact ⟨b, hv, hnorm⟩

/-- Removing members commutes with reading back. The verifier takes the receipt out of a
completion that was read back, and the digest is over the object before the receipt was put in.
-/
theorem norm_obj_without (ks : List Str) : norm canonicalDumps (.obj (Dict.without d ks)) =
    norm canonicalDumps (.obj (Dict.without e ks)) := by
  have hfilter : ∀ c : Dict, (Dict.without c ks).map (fun p => (p.1, norm canonicalDumps p.2)) =
      (c.map fun p => (p.1, norm canonicalDumps p.2)).filter fun p => p.1 ∉ ks := by
    intro c
    rw [Dict.without, List.filter_map]
    rfl
  refine norm_obj_of_perm (Dict.nodup_keys_without hd ks) (Dict.nodup_keys_without he ks) ?_
  rw [hfilter, hfilter]
  exact (members_perm_of_norm_eq hd he h).filter _

end members

/-! ### The bundle -/

/-- The bundle that the gateway reads back before it answers. -/
def bundle (completion request : Dict) : Json :=
  .obj [(lit "completion", .obj completion), (lit "request", .obj request)]

/-- The bundle is read back as the completion and the request. The gateway verifies the two as a
client would find them, after their way through canonical JSON and back. -/
theorem bundle_readBack {result dump completion request : Dict} {raw : Bytes}
    (hresult : Stable canonicalDumps (.obj result)) (hdump : Stable canonicalDumps (.obj dump))
    (hraw : canonical (bundle result dump) = .ok raw)
    (hparse : parseBundle raw = some (completion, request)) :
    (norm canonicalDumps (.obj completion) = norm canonicalDumps (.obj result) ∧
      Stable canonicalDumps (.obj completion)) ∧
    norm canonicalDumps (.obj request) = norm canonicalDumps (.obj dump) ∧
      Stable canonicalDumps (.obj request) := by
  have hliterals : (["completion", "request"].map lit).Nodup := by decide
  have hkeys :
      (Dict.keys [(lit "completion", Json.obj result), (lit "request", .obj dump)]).Nodup :=
    hliterals
  have hbundle : Stable canonicalDumps (bundle result dump) := by
    refine stable_obj hkeys ?_
    simp only [List.forall_mem_cons]
    exact ⟨hresult, hdump, List.forall_mem_nil _⟩
  obtain ⟨t, ht, hutf⟩ := text_of_canonical hraw
  -- what the canonical text is read back as
  have hread : loads ⟨true, false⟩ t = some (norm canonicalDumps (bundle result dump)) :=
    loads_dumps (fun h => by cases h) (fun _ => hbundle.sound) ht
  rw [parseBundle] at hparse
  split_ifs at hparse
  rw [decodeUtf8_utf8 hutf, Option.bind_eq_bind, Option.bind_some, hread] at hparse
  rw [Option.bind_eq_bind, Option.bind_some] at hparse
  split_ifs at hparse
  have hnorm := norm_norm hbundle
  have hstable := stable_norm hbundle
  -- a normal form of an object is an object, whose two members are those of the bundle
  generalize hd : norm canonicalDumps (bundle result dump) = read at hparse hnorm hstable
  cases read with
  | obj d =>
    dsimp only at hparse
    split_ifs at hparse
    have hsame : norm canonicalDumps (.obj d) = norm canonicalDumps (bundle result dump) :=
      hnorm.trans hd.symm
    obtain ⟨c, hc, hcnorm⟩ := obj_field_of_norm_eq hstable.1 hkeys hsame
      (k := lit "completion") (c := result) rfl
    obtain ⟨r, hr, hrnorm⟩ := obj_field_of_norm_eq hstable.1 hkeys hsame
      (k := lit "request") (c := dump) rfl
    rw [hc, hr] at hparse
    obtain ⟨rfl, rfl⟩ := Prod.mk.inj (Option.some.inj hparse)
    exact ⟨⟨hcnorm, hstable.get hc⟩, hrnorm, hstable.get hr⟩
  | null | bool _ | num _ | str _ | arr _ => cases hparse

/-! ### The digests that the verifier finds -/

/-- A receipt as the gateway writes it. -/
def receiptWith (body : Dict) (digest : Str) : Dict :=
  body ++ [(lit "digest", .str digest), (lit "algorithm", .str (lit "sha256"))]

/-- A receipt body, before the digest and the algorithm are added. -/
structure Unsigned (body : Dict) : Prop where
  stable : Stable canonicalDumps (.obj body)
  noDigest : Dict.get body (lit "digest") = none
  noAlgorithm : Dict.get body (lit "algorithm") = none

/-- What the gateway hashed for a receipt of this body: the request, the response and the body
itself, each in canonical form. -/
structure Written (upstream body dump : Dict) (digest : Str) : Prop extends Unsigned body where
  bodyDigest : sha256 (.obj body) = .ok digest
  schema : Dict.get body (lit "schema") = some (.str (lit "szl.router-receipt/v1"))
  response : ∃ d, sha256 (.obj upstream) = .ok d ∧
    Dict.get body (lit "response_digest") = some (.str d)
  request : ∃ d, sha256 (.obj dump) = .ok d ∧
    Dict.get body (lit "request_digest") = some (.str d)

/-- What is read back alike has one digest. -/
theorem digest_of_norm_eq {v w : Json} {b : Bytes} {d : Str} (hv : Stable canonicalDumps v)
    (hw : Stable canonicalDumps w) (h : norm canonicalDumps v = norm canonicalDumps w)
    (hb : canonical v = .ok b) (hd : sha256 w = .ok d) : sha256Hex b = d := by
  obtain ⟨c, hc, rfl⟩ := bytes_of_sha256 hd
  rw [canonical_of_norm_eq hv hw h hb hc]

section

variable {upstream body dump completion request : Dict} {digest : Str}

theorem receiptWith_get {k : Str} {v : Json} (h : Dict.get body k = some v) :
    Dict.get (receiptWith body digest) k = some v := by
  rw [receiptWith, Dict.get_append, h]
  rfl

theorem Unsigned.get_digest (h : Unsigned body) :
    Dict.get (receiptWith body digest) (lit "digest") = some (.str digest) := by
  rw [receiptWith, Dict.get_append, h.noDigest]
  rfl

theorem Unsigned.get_algorithm (h : Unsigned body) :
    Dict.get (receiptWith body digest) (lit "algorithm") = some (.str (lit "sha256")) := by
  rw [receiptWith, Dict.get_append, h.noAlgorithm]
  rfl

/-- The verifier drops what the gateway added to the body. -/
theorem Unsigned.without_receiptWith (h : Unsigned body) :
    Dict.without (receiptWith body digest) [lit "digest", lit "algorithm"] = body := by
  have hdigest := Dict.get_eq_none.mp h.noDigest
  have halgorithm := Dict.get_eq_none.mp h.noAlgorithm
  rw [receiptWith, Dict.without, List.filter_append, List.filter_eq_self.mpr]
  · simp
  · intro p hp
    have hmem : p.1 ∈ Dict.keys body := List.mem_map_of_mem hp
    have hne : p.1 ≠ lit "digest" := fun he => hdigest (he ▸ hmem)
    have hne' : p.1 ≠ lit "algorithm" := fun he => halgorithm (he ▸ hmem)
    simp [hne, hne']

theorem Unsigned.stable_receiptWith (h : Unsigned body) (digest : Str) :
    Stable canonicalDumps (.obj (receiptWith body digest)) := by
  have hdigest := Dict.get_eq_none.mp h.noDigest
  have halgorithm := Dict.get_eq_none.mp h.noAlgorithm
  have hset : receiptWith body digest = Dict.set (Dict.set body (lit "digest") (.str digest))
      (lit "algorithm") (.str (lit "sha256")) := by
    rw [Dict.set_of_not_mem hdigest, Dict.set_of_not_mem, List.append_assoc]
    · rfl
    · rw [← Dict.get_eq_none, Dict.get_append, h.noAlgorithm]
      rfl
  rw [hset]
  exact stable_set (stable_set h.stable (stable_str _)) (stable_str _)

/-- The receipt of what is read back is the receipt, read back. -/
theorem receiptOf_readBack {result receipt : Dict}
    (hresult : Stable canonicalDumps (.obj result))
    (hcompletion : Stable canonicalDumps (.obj completion))
    (h : norm canonicalDumps (.obj completion) = norm canonicalDumps (.obj result))
    (hget : Dict.get result (lit "szl_receipt") = some (.obj receipt)) :
    norm canonicalDumps (.obj (receiptOf completion)) = norm canonicalDumps (.obj receipt) ∧
      Stable canonicalDumps (.obj (receiptOf completion)) := by
  obtain ⟨r, hr, hnorm⟩ := obj_field_of_norm_eq hcompletion.1 hresult.1 h hget
  have hsame : receiptOf completion = r := by rw [receiptOf, hr]
  rw [hsame]
  exact ⟨hnorm, hcompletion.get hr⟩

/-- The receipt that the verifier reads has the header's digest. -/
theorem Unsigned.header (h : Unsigned body)
    (hupstream : Stable canonicalDumps (.obj upstream))
    (hcompletion : Stable canonicalDumps (.obj completion))
    (hnorm : norm canonicalDumps (.obj completion) = norm canonicalDumps
      (.obj (Dict.set upstream (lit "szl_receipt") (.obj (receiptWith body digest))))) :
    Dict.get (receiptOf completion) (lit "digest") = some (.str digest) := by
  have hreceipt := h.stable_receiptWith digest
  obtain ⟨hback, hstable⟩ := receiptOf_readBack (stable_set hupstream hreceipt) hcompletion hnorm
    Dict.get_set_self
  exact str_field_of_norm_eq hstable.1 hreceipt.1 hback h.get_digest

/-- **The verifier finds the digests that the gateway wrote.** Each digest is over a value in
canonical form, and that form is the same before and after reading back. -/
theorem Compared.consistent {header : Option Str} {checks : Checks} {ub rb : Bytes}
    (hcompared : Compared completion request header checks ub rb)
    (h : Written upstream body dump digest)
    (hreserved : Dict.get upstream (lit "szl_receipt") = none)
    (hupstream : Stable canonicalDumps (.obj upstream))
    (hdump : Stable canonicalDumps (.obj dump))
    (hcompletion : norm canonicalDumps (.obj completion) = norm canonicalDumps
        (.obj (Dict.set upstream (lit "szl_receipt") (.obj (receiptWith body digest)))) ∧
      Stable canonicalDumps (.obj completion))
    (hrequest : norm canonicalDumps (.obj request) = norm canonicalDumps (.obj dump) ∧
      Stable canonicalDumps (.obj request)) :
    checks.receiptDigest = true ∧ checks.responseDigest = true ∧ checks.requestDigest = true := by
  have hreceipt := h.stable_receiptWith digest
  have hresult := stable_set (k := lit "szl_receipt") hupstream hreceipt
  obtain ⟨hback, hstable⟩ := receiptOf_readBack hresult hcompletion.2 hcompletion.1
    Dict.get_set_self
  -- a text of the receipt is read back as itself
  have hfield : ∀ {k s : Str}, Dict.get (receiptWith body digest) k = some (.str s) →
      Dict.get (receiptOf completion) k = some (.str s) :=
    fun hk => str_field_of_norm_eq hstable.1 hreceipt.1 hback hk
  refine ⟨?_, ?_, ?_⟩
  -- the digest of the receipt is over everything but the digest and its algorithm
  · have hnamed : NamesSchema (receiptOf completion) :=
      ⟨hfield (receiptWith_get h.schema), hfield h.get_algorithm⟩
    rcases hcompared.receiptDigest with ⟨hnot, _⟩ | ⟨_, b, hb, hdigest⟩
    · exact absurd hnamed hnot
    · have hbody := norm_obj_without hstable.1 hreceipt.1 hback [lit "digest", lit "algorithm"]
      rw [h.without_receiptWith] at hbody
      rw [hdigest, decide_eq_true_eq,
        digest_of_norm_eq (stable_without hstable _) h.stable hbody hb h.bodyDigest]
      exact hfield h.get_digest
  -- that of the response over everything but the receipt
  · obtain ⟨d, hd, hget⟩ := h.response
    have hrest := norm_obj_without hcompletion.2.1 hresult.1 hcompletion.1 [lit "szl_receipt"]
    rw [Dict.without_set (Dict.get_eq_none.mp hreserved)] at hrest
    rw [hcompared.responseDigest, decide_eq_true_eq,
      digest_of_norm_eq (stable_without hcompletion.2 _) hupstream hrest hcompared.hasUpstream hd]
    exact hfield (receiptWith_get hget)
  -- and that of the request over the request as it was validated
  · obtain ⟨d, hd, hget⟩ := h.request
    rw [hcompared.requestDigest, decide_eq_true_eq,
      digest_of_norm_eq hrequest.2 hdump hrequest.1 hcompared.hasRequest hd]
    exact hfield (receiptWith_get hget)

end

/-! ### What the gateway answers -/

/-- The verifier accepts the bundle of this completion and request, and finds it consistent
with this header. -/
def Verifies (completion : Dict) (request : ChatRequest) (header : Str) : Prop :=
  ∃ raw parsed asked checks, canonical (bundle completion request.modelDump) = .ok raw ∧
    parseBundle raw = some (parsed, asked) ∧
    verifyCompletion parsed asked (some header) = some checks ∧ checks.consistent = true

/-- A header adds its own check. -/
theorem verifyCompletion_header {completion request : Dict} {checks : Checks} (header : Str)
    (h : verifyCompletion completion request none = some checks) :
    verifyCompletion completion request (some header) = some { checks with
      headerDigest := some (isHexDigest header &&
        decide (Dict.get (receiptOf completion) (lit "digest") = some (.str header))) } := by
  rw [verifyCompletion] at h ⊢
  obtain ⟨raw, hraw, h⟩ := Option.bind_eq_some_iff.mp h
  rw [hraw, Option.bind_eq_bind, Option.bind_some]
  split_ifs at h ⊢ with hsize
  dsimp only at h ⊢
  split_ifs at h ⊢
  all_goals
    obtain ⟨matched, hmatched, h⟩ := Option.bind_eq_some_iff.mp h
    obtain ⟨response, hresponse, h⟩ := Option.bind_eq_some_iff.mp h
    obtain ⟨requested, hrequested, h⟩ := Option.bind_eq_some_iff.mp h
    rw [hmatched, hresponse, hrequested, ← Option.some.inj h]
    rfl

namespace Call

variable {C : Call} {rows : List Row} {candidate : Candidate} {upstream : Dict} {status : ℤ}
  {identity : Option Json} {elapsed : Binary64}

theorem unsigned_receiptBody (responseDigest : Str)
    (hidentity : ∀ v ∈ identity, Stable canonicalDumps v) :
    Unsigned (C.receiptBody rows candidate status elapsed responseDigest identity) where
  stable := C.stable_receiptBody rows candidate status elapsed responseDigest hidentity
  noDigest := by cases identity <;> rfl
  noAlgorithm := by cases identity <;> rfl

/-- A completion that is answered verifies. -/
theorem verifies_of_complete {body : Dict} {header : Str}
    (hupstream : Stable canonicalDumps (.obj upstream))
    (hidentity : ∀ v ∈ identity, Stable canonicalDumps v)
    (h : C.complete rows candidate upstream status identity elapsed =
      .ok (.completed body header)) : Verifies body C.request header := by
  obtain ⟨responseDigest, digest, raw, completion, request, checks, _, hdigest, hraw, hparse,
    hverify, hconsistent, heq⟩ := complete_eq_ok h
  obtain ⟨rfl, rfl⟩ := Reply.completed.inj heq
  have hunsigned : Unsigned (C.receiptBody rows candidate status elapsed responseDigest identity) :=
    unsigned_receiptBody responseDigest hidentity
  have hresult := stable_set (k := lit "szl_receipt") hupstream
    (hunsigned.stable_receiptWith header)
  obtain ⟨⟨hnorm, hstable⟩, _⟩ :=
    bundle_readBack hresult C.request.stable_modelDump hraw hparse
  refine ⟨raw, completion, request, _, hraw, hparse, verifyCompletion_header header hverify, ?_⟩
  -- the other checks were made before the answer
  have hheader := hunsigned.header hupstream hstable hnorm
  obtain ⟨b, _, hhex⟩ := bytes_of_sha256 hdigest
  have hdigits : isHexDigest header = true := hhex ▸ sha256Hex_hex b
  rw [Checks.consistent, Bool.and_eq_true] at hconsistent ⊢
  refine ⟨hconsistent.1, ?_⟩
  simp [hheader, hdigits]

theorem canonical_error_ne {v : Json} : canonical v ≠ .error (lit "RuntimeError") := by
  intro h
  rw [canonical] at h
  split at h
  · exact absurd (Except.error.inj h) (by decide)
  · split at h
    · exact absurd (Except.error.inj h) (by decide)
    · cases h

theorem sha256_error_ne {v : Json} : sha256 v ≠ .error (lit "RuntimeError") := by
  intro h
  rw [sha256] at h
  cases hv : canonical v with
  | error e =>
    rw [hv] at h
    exact canonical_error_ne (hv.trans (congrArg Except.error (Except.error.inj h)))
  | ok b =>
    rw [hv] at h
    cases h

/-- A validated completion is never found inconsistent. -/
theorem complete_ne_runtimeError
    (hrequest : sha256 (.obj C.request.modelDump) = .ok C.requestDigest)
    (hvalid : validateCompletion (.obj upstream) = .ok ())
    (hupstream : Stable canonicalDumps (.obj upstream))
    (hidentity : ∀ v ∈ identity, Stable canonicalDumps v) :
    C.complete rows candidate upstream status identity elapsed ≠ .error (lit "RuntimeError") := by
  intro h
  rw [complete] at h
  rcases Procedure.except_bind_eq_error.mp h with h | ⟨responseDigest, hresponse, h⟩
  · exact sha256_error_ne h
  rcases Procedure.except_bind_eq_error.mp h with h | ⟨digest, hdigest, h⟩
  · exact sha256_error_ne h
  rcases Procedure.except_bind_eq_error.mp h with h | ⟨raw, hraw, h⟩
  · exact canonical_error_ne h
  have hunsigned : Unsigned (C.receiptBody rows candidate status elapsed responseDigest identity) :=
    unsigned_receiptBody responseDigest hidentity
  -- no text failed to encode, so the receipt is written; it is left to see that it verifies
  have hwritten : Written upstream
      (C.receiptBody rows candidate status elapsed responseDigest identity) C.request.modelDump
      digest :=
    { hunsigned with
      bodyDigest := hdigest
      schema := rfl
      response := ⟨responseDigest, hresponse, rfl⟩
      request := ⟨C.requestDigest, hrequest, rfl⟩ }
  have hresult := stable_set (k := lit "szl_receipt") hupstream
    (hunsigned.stable_receiptWith digest)
  cases hparse : parseBundle raw with
  | none =>
    rw [hparse] at h
    exact absurd (Except.error.inj h) (by decide)
  | some parsed =>
    obtain ⟨completion, request⟩ := parsed
    rw [hparse] at h
    dsimp only at h
    cases hverify : verifyCompletion completion request none with
    | none =>
      rw [hverify] at h
      exact absurd (Except.error.inj h) (by decide)
    | some checks =>
      -- the comparisons hold of what was read back, since reading back changes no digest
      obtain ⟨hback, hasked⟩ :=
        bundle_readBack hresult C.request.stable_modelDump hraw hparse
      obtain ⟨_, _, hcompared⟩ := verifyCompletion_spec hverify
      obtain ⟨h₁, h₂, h₃⟩ := hcompared.consistent hwritten (get_receipt_of_validated hvalid)
        hupstream C.request.stable_modelDump hback hasked
      have hconsistent : checks.consistent = true := by
        rw [Checks.consistent, h₁, h₂, h₃, hcompared.headerDigest]
        rfl
      rw [hverify] at h
      dsimp only at h
      rw [if_pos hconsistent] at h
      cases h

end Call

/-! ### Whole calls -/

/-- The objects of an answer have each key once. -/
def Outcome.Keyed : Outcome → Prop
  | .success upstream _ identity =>
    Stable canonicalDumps (.obj upstream) ∧ ∀ v ∈ identity, Stable canonicalDumps v
  | _ => True

theorem checkCallerAuth_ne_completed {env : Env} {received : Str} {body : Dict} {header : Str} :
    checkCallerAuth env received ≠ some (.completed body header) := by
  intro h
  rw [checkCallerAuth] at h
  split_ifs at h
  · cases Option.some.inj h
  · split at h
    · split_ifs at h
      cases Option.some.inj h
    · cases Option.some.inj h

/-- Only an admitted call is answered with a completion. -/
theorem admitted_of_completed {W : Type} {R : Runtime W} {settings : Settings} {env : Env}
    {request : ChatRequest} {received : Str} {w : W} {body : Dict} {header : Str}
    (h : (chatWith R settings env request received w).reply = .completed body header) :
    ∃ p digest, Admitted settings env request received p digest := by
  rw [chatWith] at h
  -- the guards of the handler in its order; each of them would have refused
  split_ifs at h with hconfig hegress
  · cases h
  · cases h
  rw [Bool.not_eq_false] at hegress
  cases hauth : checkCallerAuth env received with
  | some reply =>
    rw [hauth] at h
    exact absurd (hauth.trans (congrArg some h)) checkCallerAuth_ne_completed
  | none =>
    rw [hauth] at h
    dsimp only at h
    cases hplan : plan settings env request.planRequest with
    | error name =>
      rw [hplan] at h
      cases h
    | ok p =>
      rw [hplan] at h
      dsimp only at h
      split_ifs at h with hcandidates
      · cases h
      cases hdigest : sha256 (.obj request.modelDump) with
      | error name =>
        rw [hdigest] at h
        cases h
      | ok digest => exact ⟨p, digest, hconfig, hegress, hauth, hplan, hcandidates, hdigest⟩

/-- A completion of a call is that of its last attempt. -/
theorem complete_of_chat {W : Type} {R : Runtime W} {settings : Settings} {env : Env}
    {request : ChatRequest} {received : Str} {w : W} {body : Dict} {header : Str}
    (h : (chatWith R settings env request received w).reply = .completed body header) :
    ∃ (C : Call) (before : List Row) (d : Dispatch) (upstream : Dict) (status : ℤ)
      (identity : Option Json) (elapsed : Binary64), C.request = request ∧
      d ∈ (chatWith R settings env request received w).dispatched ∧
      d.outcome = .success upstream status identity ∧
      C.complete before d.candidate upstream status identity elapsed =
        .ok (.completed body header) := by
  obtain ⟨p, digest, hadmitted⟩ := admitted_of_completed h
  rw [hadmitted.chatWith_eq] at h ⊢
  have hsettled : Call.Settled [] := fun _ hr => (by cases hr)
  have hran := Call.routeLoop_ran
    ⟨settings, env, request, digest, p.digest, (R.monotonic w).1⟩ R p.candidates hsettled
    (R.monotonic w).2
  have hends := hran.ends
  rw [h] at hends
  -- only a dispatch that completes ends a run with a completion
  cases hends with
  | closed _ _ hcloses =>
    obtain ⟨before, d, upstream, status, identity, elapsed, hlast, houtcome, hcomplete⟩ :=
      hcloses.completed_inv
    exact ⟨_, before, d, upstream, status, identity, elapsed, rfl,
      List.mem_of_getLast? hlast, houtcome, hcomplete⟩

/-- **Every completion verifies.**  Whatever the plan, the rows before and the upstream
object, a completion that is answered is consistent with its header, as what the verifier
reads back; so is that of every chat call.  And a validated upstream object is never found
inconsistent. -/
theorem receipts_verify :
    (∀ (C : Call) (rows : List Row) (candidate : Candidate) (upstream : Dict) (status : ℤ)
      (identity : Option Json) (elapsed : Binary64),
      (Outcome.success upstream status identity).Keyed →
        (∀ body header, C.complete rows candidate upstream status identity elapsed =
          .ok (.completed body header) → Verifies body C.request header) ∧
        (sha256 (.obj C.request.modelDump) = .ok C.requestDigest →
          validateCompletion (.obj upstream) = .ok () →
          C.complete rows candidate upstream status identity elapsed ≠
            .error (lit "RuntimeError"))) ∧
    ∀ (L : Lax) (T : UrlTables) (W : Type) (R : Runtime W) (env : Env) (request : ChatRequest)
      (received : Str) (w : W),
      (∀ d ∈ (chat L T R env request received w).dispatched, d.outcome.Keyed) →
      ∀ body header, (chat L T R env request received w).reply = .completed body header →
        Verifies body request header := by
  constructor
  · intro C rows candidate upstream status identity elapsed hkeyed
    exact ⟨fun body header h => Call.verifies_of_complete hkeyed.1 hkeyed.2 h,
      fun hrequest hvalid => Call.complete_ne_runtimeError hrequest hvalid hkeyed.1 hkeyed.2⟩
  · intro L T W R env request received w hkeyed body header h
    -- a completed reply is that of the last dispatch, whose outcome was a success
    obtain ⟨C, before, d, upstream, status, identity, elapsed, rfl, hmem, houtcome, hcomplete⟩ :=
      complete_of_chat h
    have hd := hkeyed d hmem
    rw [houtcome] at hd
    exact Call.verifies_of_complete hd.1 hd.2 hcomplete

/-! ### A greeting -/

theorem forall_mem_none {α : Type} {p : α → Prop} : ∀ x ∈ (none : Option α), p x := by
  intro x hx
  cases hx

theorem hello_policy : PolicyOk (lit "chat") none (lit "public") 10 where
  model := by decide
  requiredProviderId := forall_mem_none
  dataClassification := by decide
  maxCostTier := by decide

theorem hello_message : ∀ m ∈ [(⟨.user, lit "hi", none⟩ : Message)], messageOk m := by
  intro m hm
  rw [List.mem_singleton.mp hm, messageOk]
  exact ⟨clean_lit (by decide), by decide, forall_mem_none⟩

theorem hello_length : 1 ≤ [(⟨.user, lit "hi", none⟩ : Message)].length ∧
    [(⟨.user, lit "hi", none⟩ : Message)].length ≤ MAX_MESSAGES := by
  decide

theorem hello_total : ([(⟨.user, lit "hi", none⟩ : Message)].map fun m => m.content.length).sum ≤
    MAX_TOTAL_CONTENT_CHARS := by
  decide

theorem hello_temperature : ∀ x ∈ (none : Option Binary64), ¬x < 0 ∧ ¬(2 : Binary64) < x :=
  forall_mem_none

theorem hello_topP : ∀ x ∈ (none : Option Binary64), ¬x ≤ 0 ∧ ¬(1 : Binary64) < x :=
  forall_mem_none

theorem hello_maxTokens : ∀ n ∈ (none : Option ℤ), 1 ≤ n ∧ n ≤ 131072 := forall_mem_none

theorem hello_stop : ∀ s ∈ (none : Option Stop), stopOk s := forall_mem_none

theorem hello_user : ∀ s ∈ (none : Option Str), Clean s ∧ s.length ≤ 128 := forall_mem_none

def hello : ChatRequest where
  model := lit "chat"
  requiredProviderId := none
  messages := [⟨.user, lit "hi", none⟩]
  temperature := none
  topP := none
  maxTokens := none
  stream := false
  stop := none
  user := none
  dataClassification := lit "public"
  maxCostTier := 10
  policy := hello_policy
  messages_length := hello_length
  messages_ok := hello_message
  temperature_ok := hello_temperature
  topP_ok := hello_topP
  maxTokens_ok := hello_maxTokens
  stop_ok := hello_stop
  user_ok := hello_user
  total_content := hello_total
  no_stream := rfl

def helloCall : Call where
  settings := ⟨.empty, [], true, .validated, none⟩
  env := fun _ => none
  request := hello
  requestDigest := lit "6d5d16380bbf54b979260de4b562a08314739818f4712e3fed4f99106bf37dbb"
  planDigest := []
  started := 0

def helloCandidate : Candidate where
  providerId := lit "local"
  publicModel := lit "chat"
  upstreamModel := lit "llama"
  priority := 100
  sovereignty := 100
  costTier := 0
  classification := lit "public"
  providerType := .ollamaLoopback
  modelDigest := none
  credentialState := .notRequiredLoopback

def greeting : Dict :=
  [(lit "choices", .arr [.obj [(lit "message",
    .obj [(lit "role", .str (lit "assistant")), (lit "content", .str (lit "hello"))])]])]

def completedOf : Except Str Reply → Option (Dict × Str)
  | .ok (.completed body header) => some (body, header)
  | _ => none

theorem eq_completed {e : Except Str Reply} {body : Dict} {header : Str}
    (h : completedOf e = some (body, header)) : e = .ok (.completed body header) := by
  rw [completedOf.eq_def] at h
  split at h
  · obtain ⟨rfl, rfl⟩ := Prod.mk.inj (Option.some.inj h)
    rfl
  · cases h

set_option maxRecDepth 100000 in
theorem greeting_completed :
    (completedOf (helloCall.complete [] helloCandidate greeting 200 none 0)).isSome = true ∧
      (validateCompletion (.obj greeting)).toOption = some () ∧
      (sha256 (.obj hello.modelDump)).toOption = some helloCall.requestDigest := by
  decide +kernel

theorem greeting_keyed : (Outcome.success greeting 200 none).Keyed := by
  refine ⟨⟨by decide, ⟨rfl, ⟨⟨by decide, ⟨rfl, ?_⟩, trivial⟩, trivial⟩⟩, trivial⟩,
    fun v hv => by cases hv⟩
  exact ⟨by decide, ⟨rfl, rfl⟩, ⟨rfl, rfl⟩, trivial⟩

/-- A greeting is answered, and verifies. -/
theorem receipts_verify_greeting :
    (∃ body header, helloCall.complete [] helloCandidate greeting 200 none 0 =
      .ok (.completed body header) ∧ Verifies body hello header) ∧
    helloCall.complete [] helloCandidate greeting 200 none 0 ≠ .error (lit "RuntimeError") := by
  obtain ⟨hsome, hvalid, hdigest⟩ := greeting_completed
  obtain ⟨hverifies, hreachable⟩ :=
    receipts_verify.1 helloCall [] helloCandidate greeting 200 none 0 greeting_keyed
  obtain ⟨⟨body, header⟩, hcompleted⟩ := Option.isSome_iff_exists.mp hsome
  have hcomplete := eq_completed hcompleted
  refine ⟨⟨body, header, hcomplete, hverifies body header hcomplete⟩, ?_⟩
  exact hreachable (eq_ok_of_toOption hdigest) (eq_ok_of_toOption hvalid)

end Gateway

end SzlRouter
