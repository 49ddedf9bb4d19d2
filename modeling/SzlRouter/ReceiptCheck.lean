/-
A receipt on its way to a buyer, and what the buyer's checks make of it
(`encode_header` to `verify_envelope` of `szl_router/receipts.py`, `szl_router/verify.py`,
`/v1/receipt/verify`).

* `loads_header` — a header is not taken for a JSON text;
* `carries` — every reader gets the envelope out of its header;
* `receipt_carried` — the receipt of an answer is of that answer;
* `receipts_checkable` — what the checks make of the receipts of a process with its published key.
-/
import SzlRouter.Base64Text
import SzlRouter.ChatEndpoint
import SzlRouter.SigningKey

namespace SzlRouter

namespace Receipts

open Py Procedure Transition

/-! ### The header -/

/-- The options of `encode_header`. -/
def headerDumps : DumpOpts := ⟨true, false, true, true⟩

/-- `encode_header`; `none` is its `ValueError`. -/
def encodeHeader (envelope : Dict) : Option Str := do
  let text ← dumps headerDumps (.obj envelope)
  let raw ← utf8 text
  return base64Encode raw

/-- `decode_header`; `none` is its `ValueError`. -/
def decodeHeader (value : Str) : Option Json := do
  let raw ← base64DecodeLax value
  let text ← decodeUtf8 raw
  loads plainLoads text

/-! ### The checks -/

section

variable (lib : Option Library)

/-- `verify_envelope`. -/
def verifyEnvelope (envelope : Json) (key : PublicKey) : Except Failure (Bool × Str) :=
  match lib with
  | none => .ok (false, lit "szl-receipt not installed")
  | some sr => sr.verifyReceipt envelope key

/-- `bool(envelope.get("signed", False))`. -/
def saysSigned (envelope : Dict) : Bool :=
  ((Dict.get envelope (lit "signed")).getD (.bool false)).truthy

/-- What is answered for an envelope. -/
def verdict (envelope : Json) (key : PublicKey) : Except HttpEnd Dict :=
  match envelope with
  | .obj d =>
    match verifyEnvelope lib (.obj d) key with
    | .error e => .error (.raised e)
    | .ok (valid, detail) => .ok [(lit "valid", .bool valid), (lit "detail", .str detail),
        (lit "signed", .bool (saysSigned d))]
  | _ => .error (.refused 400 (lit "envelope must be an object or base64 string"))

/-- `receipt_verify`. -/
def receiptVerify (request : HttpRequest) : Except HttpEnd Dict :=
  match jsonObject request with
  | .error e => .error e
  | .ok body =>
    let key := PublicKey.json (getMember body "public_key_pem")
    match getMember body "envelope" with
    | .null => .error (.refused 400 (lit "envelope is required"))
    | .str header =>
      match decodeHeader header with
      | none => .error (.refused 400 (lit "envelope is not valid base64-JSON"))
      | some envelope => verdict lib envelope key
    | envelope => verdict lib envelope key

/-- How a file is not read as text. -/
inductive ReadError
  | os
  | value

/-- What the offline check is run in. -/
structure Shell where
  stdin : Option Str
  readText : Str → Except ReadError Str
  readBytes : Str → Option Bytes

/-- `_read_file_or_literal`. -/
def readFileOrLiteral (sh : Shell) (value : Str) : Option Str :=
  match sh.readText value with
  | .ok text => some text
  | .error .os => some value
  | .error .value => none

/-- The text that `--envelope` stands for. -/
def envelopeText (sh : Shell) (value : Str) : Option Str :=
  if value = lit "-" then sh.stdin else readFileOrLiteral sh value

/-- A JSON text, or else a header. -/
def readEnvelope (raw : Str) : Option Json :=
  match loads plainLoads raw with
  | some envelope => some envelope
  | none => decodeHeader raw

/-- `_load_envelope`. -/
def loadEnvelope (sh : Shell) (value : Str) : Option Json := do
  let raw ← envelopeText sh value
  readEnvelope (Str.strip raw)

/-- What the offline check prints. -/
structure Report where
  valid : Bool
  detail : Str
  signed : Bool
  organ : Option Json
  digest : Option Json

/-- The key that `--pubkey` stands for. -/
def keyFile (sh : Shell) (pubkey : Option Str) : Option PublicKey :=
  match pubkey with
  | none => some (.json .null)
  | some [] => some (.json .null)
  | some path => (sh.readBytes path).map .pem

/-- `main` of `szl_router.verify`: the report and the exit code; `none` is an exception. -/
def verifyMain (sh : Shell) (envelope : Str) (pubkey : Option Str) : Option (Report × ℕ) := do
  let v ← loadEnvelope sh envelope
  let key ← keyFile sh pubkey
  let (valid, detail) ← (verifyEnvelope lib v key).toOption
  match v with
  | .obj d =>
    return (⟨valid, detail, saysSigned d, Dict.get d (lit "organ"), Dict.get d (lit "digest")⟩,
      if valid then 0 else 1)
  | _ => none

end

/-! ### The round trip -/

/-- No JSON text starts with the letter that every header starts with. The offline check takes
its argument for JSON first, so a header has to fail there. -/
theorem loads_header (lo : LoadOpts) (s : Str) : loads lo (chr 'e' :: s) = none := by
  -- no literal, no number and no bracket starts with this letter
  have hname : ∀ names ∈ [literals, constantNames], scanName names (chr 'e' :: s) = none := by
    intro names hnames
    rw [scanName, List.findSome?_eq_none_iff]
    intro p hp
    rw [if_neg]
    intro hstart
    have hpre : p.1 <+: chr 'e' :: s := List.isPrefixOf_iff_prefix.mp hstart
    have hhead : ∀ names ∈ [literals, constantNames], ∀ p ∈ names, p.1.head? ≠ some (chr 'e') ∧
        p.1 ≠ [] := by decide
    obtain ⟨hne, hnil⟩ := hhead names hnames p hp
    obtain ⟨c, w, hw⟩ := List.exists_cons_of_ne_nil hnil
    rw [hw, List.cons_prefix_cons] at hpre
    rw [hw, hpre.1] at hne
    exact hne rfl
  have hnum : scanNum (chr 'e' :: s) = none := by
    have hscan : Numeral.scan (chr 'e' :: s) = none := by
      simp only [Numeral.scan]
      rw [if_neg (by simp [chr]), Numeral.scanInt, if_neg (by decide), if_neg (by decide)]
    rw [scanNum, hscan]
  have hatom : scanAtom lo (chr 'e' :: s) = none := by
    rw [scanAtom, hname literals (by simp), hname constantNames (by simp)]
    exact hnum
  rw [loads, skipWs_cons s (by decide), scanValue, if_neg (by decide), if_neg (by decide),
    if_neg (by decide), hatom]

/-- The text of a header. -/
theorem encodeHeader_eq_some {envelope : Dict} {header : Str}
    (h : encodeHeader envelope = some header) :
    ∃ text raw, dumps headerDumps (.obj envelope) = some text ∧ utf8 text = some raw ∧
      header = base64Encode raw := by
  obtain ⟨text, htext, h⟩ := Option.bind_eq_some_iff.mp h
  obtain ⟨raw, hraw, h⟩ := Option.bind_eq_some_iff.mp h
  exact ⟨text, raw, htext, hraw, (Option.some.inj h).symm⟩

/-- A header starts with the letter of an opening brace. -/
theorem header_head {envelope : Dict} {header : Str} (h : encodeHeader envelope = some header) :
    ∃ s, header = chr 'e' :: s := by
  obtain ⟨text, raw, htext, hraw, rfl⟩ := encodeHeader_eq_some h
  rw [dumps] at htext
  split_ifs at htext
  obtain rfl := Option.some.inj htext
  rw [(render_ascii rfl (.obj envelope)).utf8_eq, render_obj, List.flatMap_cons] at hraw
  obtain rfl := Option.some.inj hraw
  have hbrace : utf8Char (chr '{') = [⟨123, by decide⟩] := by decide
  have hletter : base64Char (123 / 4) = chr 'e' := by decide
  rw [hbrace]
  obtain ⟨s, hs⟩ := List.head?_eq_some_iff.mp (base64Encode_head (a := ⟨123, by decide⟩) _)
  exact ⟨s, hletter ▸ hs⟩

/-- The envelope as it is read out of its header. -/
def carried (envelope : Dict) : Json := norm headerDumps (.obj envelope)

theorem decodeHeader_encodeHeader {envelope : Dict} {header : Str}
    (h : encodeHeader envelope = some header) : decodeHeader header = some (carried envelope) := by
  obtain ⟨text, raw, htext, hraw, rfl⟩ := encodeHeader_eq_some h
  have hloads : loads plainLoads text = some (carried envelope) :=
    loads_dumps (fun _ => rfl) (fun h => by cases h) htext
  rw [decodeHeader, base64DecodeLax_base64Encode]
  show (decodeUtf8 raw).bind (loads plainLoads) = _
  rw [decodeUtf8_utf8 hraw, Option.bind_some, hloads]

/-- Every reader gets `v` out of the header: the service that is sent it, the command line that
is given it as text or in a file, and the check of a whole request. -/
structure Carries (header : Str) (v : Json) : Prop where
  decoded : decodeHeader header = some v
  /-- From a file, from the standard input or as an argument, with blanks around it. -/
  offline : ∀ sh value text, envelopeText sh value = some text → Str.strip text = header →
    loadEnvelope sh value = some v
  /-- As an argument that names no file. -/
  argument : ∀ sh, sh.readText header = .error .os → loadEnvelope sh header = some v
  endpoint : ∀ lib request body, jsonObject request = .ok body →
    getMember body "envelope" = .str header →
      receiptVerify lib request = verdict lib v (.json (getMember body "public_key_pem"))

theorem carries {envelope : Dict} {header : Str} (h : encodeHeader envelope = some header) :
    Carries header (carried envelope) := by
  have hdecoded := decodeHeader_encodeHeader h
  -- what starts with that letter is no JSON document, so the text is decoded as a header
  have hoffline : ∀ sh value text, envelopeText sh value = some text → Str.strip text = header →
      loadEnvelope sh value = some (carried envelope) := by
    intro sh value text htext hstrip
    obtain ⟨s, hs⟩ := header_head h
    rw [loadEnvelope, htext]
    show readEnvelope (Str.strip text) = _
    rw [readEnvelope, hstrip, hs, loads_header, ← hs]
    exact hdecoded
  refine ⟨hdecoded, hoffline, fun sh hos => ?_, fun lib request body hbody hheader => ?_⟩
  · obtain ⟨s, hs⟩ := header_head h
    obtain ⟨text, raw, -, -, hraw⟩ := encodeHeader_eq_some h
    -- the header given as an argument is no path and not the standard input
    refine hoffline sh header header ?_ ?_
    · have hdash : header ≠ lit "-" := by
        rw [hs]
        intro heq
        exact absurd (List.cons.inj heq).1 (by decide)
      rw [envelopeText, if_neg hdash, readFileOrLiteral, hos]
    · rw [hraw]
      exact Str.strip_of_plain fun c hc => (base64Encode_plain raw c hc).2
  · rw [receiptVerify, hbody]
    dsimp only
    rw [hheader]
    dsimp only
    rw [hdecoded]

/-! ### Answers -/

/-- The packages of the endpoint, in a process with this state of its key. -/
def packages (render : Json → Except Failure Bytes) (lib : Option Library) (host : Host)
    (s : Signing) : Packages where
  render := render
  signs := lib.isSome
  sign body :=
    match buildEnvelope lib host body s with
    | .ok signed _ => .ok (signed.map fun r => .obj r.envelope)
    | .error e _ => .error e

/-- The body of the receipt that comes with an answer. -/
def receiptBody (env : Env) (model : Str) (settings : EndpointSettings) (result : Dict)
    (digest : Str) : Json :=
  let prov := fields ((Dict.get result (lit "x_szl_provenance")).getD .null)
  buildBody prov model (getMember result "usage") digest (getMember prov "routing")
    (getMember prov "cost") (observer env model) (settings.gridContext.getD .null)

section

variable {render : Json → Except Failure Bytes} {lib : Option Library} {host : Host} {s t : Signing}

theorem buildEnvelope_body {body : Json} {r : Signed}
    (h : buildEnvelope lib host body s = .ok (some r) t) : r.body = body := by
  rw [buildEnvelope.eq_def] at h
  cases lib with
  | none => exact absurd (pure_eq_ok.mp h).1 (by simp)
  | some sr =>
    obtain ⟨k, u, -, h⟩ := bind_eq_ok.mp h
    obtain ⟨n, v, -, h⟩ := bind_eq_ok.mp h
    cases hsign : sr.signReceipt RECEIPT_KIND body k.privatePem ORGAN n with
    | error e =>
      rw [hsign] at h
      exact absurd h throw_ne_ok
    | ok envelope =>
      rw [hsign] at h
      obtain ⟨heq, -⟩ := pure_eq_ok.mp h
      obtain rfl := Option.some.inj heq
      rfl

theorem buildEnvelope_none {body : Json} (h : buildEnvelope lib host body s = .ok none t) :
    lib = none := by
  rw [buildEnvelope.eq_def] at h
  cases lib with
  | none => rfl
  | some sr =>
    obtain ⟨k, u, -, h⟩ := bind_eq_ok.mp h
    obtain ⟨n, v, -, h⟩ := bind_eq_ok.mp h
    cases hsign : sr.signReceipt RECEIPT_KIND body k.privatePem ORGAN n with
    | error e =>
      rw [hsign] at h
      exact absurd h throw_ne_ok
    | ok envelope =>
      rw [hsign] at h
      exact absurd (pure_eq_ok.mp h).1 (by simp)

theorem respond_eq_sent {L : Packages} {code status : ℕ} {content : Json} {body : Bytes}
    {receipt receipt' : Option Json}
    (h : respond L code content receipt = .sent status body receipt') :
    code = status ∧ receipt = receipt' ∧ L.render content = .ok body := by
  rw [respond] at h
  cases hrender : L.render content with
  | error e =>
    rw [hrender] at h
    cases h
  | ok b =>
    rw [hrender] at h
    obtain ⟨rfl, rfl, rfl⟩ := HttpEnd.sent.inj h
    exact ⟨rfl, rfl, rfl⟩

/-- The receipt of a response is what was signed for its answer. -/
theorem respondServed_receipt {settings : EndpointSettings} {env : Env} {model : Str}
    {messages : Json} {receipt : Option Json} {result : Dict} {status : ℕ} {content : Bytes}
    (h : respondServed (packages render lib host s) settings env model messages result =
      .sent status content receipt) :
    status = 200 ∧ render (.obj result) = .ok content ∧ ∃ digest signed t,
      requestDigest model messages = .ok digest ∧
      buildEnvelope lib host (receiptBody env model settings result digest) s = .ok signed t ∧
      receipt = signed.map fun r => .obj r.envelope := by
  rw [respondServed] at h
  cases hdigest : requestDigest model messages with
  | error e =>
    rw [hdigest] at h
    cases h
  | ok digest =>
    rw [hdigest] at h
    dsimp only [packages] at h
    -- an envelope that cannot be built raises, and nothing is sent
    rcases hbuild : buildEnvelope lib host (receiptBody env model settings result digest) s with
      ⟨signed, t⟩ | ⟨e, t⟩
    · rw [receiptBody] at hbuild
      rw [hbuild] at h
      obtain ⟨rfl, hreceipt, hrender⟩ := respond_eq_sent h
      exact ⟨rfl, hrender, digest, signed, t, rfl, hbuild, hreceipt.symm⟩
    · rw [receiptBody] at hbuild
      rw [hbuild] at h
      cases h

/-- A response is that of an answer, or of a failure and without a receipt. -/
theorem respondChat_receipt {S : Surroundings} {settings : EndpointSettings} {model : Str}
    {messages : Json} {receipt : Option Json} {e : CallEnd × ChatState} {status : ℕ}
    {content : Bytes}
    (h : respondChat (packages render lib host s) S settings model messages e =
      .sent status content receipt) :
    (status = 502 ∧ receipt = none) ∨ ∃ result, e.1 = .response result ∧
      respondServed (packages render lib host s) settings (S.env e.2.tick) model messages result =
        .sent status content receipt := by
  obtain ⟨c, u⟩ := e
  cases c with
  | response result => exact .inr ⟨result, rfl, h⟩
  | routerError message attempts reason =>
    obtain ⟨rfl, rfl, -⟩ := respond_eq_sent h
    exact .inl ⟨rfl, rfl⟩
  | raised e => cases h
  | diverged => cases h

theorem jsonObject_refused {request : HttpRequest} {e : HttpEnd}
    (h : jsonObject request = .error e) :
    ∃ detail, e = .refused 400 detail := by
  rw [jsonObject] at h
  split at h
  · exact ⟨_, (Except.error.inj h).symm⟩
  · split at h
    · cases h
    · exact ⟨_, (Except.error.inj h).symm⟩

/-- The call behind a response. -/
theorem chatCompletions_sent {S : Surroundings} {settings : EndpointSettings}
    {request : HttpRequest} {cooldown : Cooldowns} {L : Packages} {status : ℕ} {content : Bytes}
    {receipt : Option Json}
    (h : chatCompletions L S settings request cooldown = .sent status content receipt) :
    ∃ body name, jsonObject request = .ok body ∧ modelName (requestedModel body) = .ok name ∧
      respondChat L S settings name (getMember body "messages")
        (chat S settings.config (chatRequestOf body name) (chatStart cooldown)) =
          .sent status content receipt := by
  rw [chatCompletions] at h
  split_ifs at h
  -- a body that is no object is refused, and the model has to be a text
  cases hbody : jsonObject request with
  | error e =>
    rw [hbody] at h
    obtain ⟨detail, rfl⟩ := jsonObject_refused hbody
    cases h
  | ok body =>
    rw [hbody] at h
    dsimp only at h
    split_ifs at h
    cases hname : modelName (requestedModel body) with
    | error e =>
      rw [hname] at h
      cases h
    | ok name =>
      rw [hname] at h
      exact ⟨body, name, rfl, hname, h⟩

end

/-- The receipt of an answer: it is signed for what was asked and what is answered, and every
reader of its header gets the envelope. -/
structure ReceiptOf (render : Json → Except Failure Bytes) (lib : Option Library) (host : Host)
    (s : Signing) (S : Surroundings) (settings : EndpointSettings) (request : HttpRequest)
    (cooldown : Cooldowns) (content : Bytes) (receipt : Json) : Prop where
  signed : ∃ body name result u digest r t, jsonObject request = .ok body ∧
    modelName (requestedModel body) = .ok name ∧
    chat S settings.config (chatRequestOf body name) (chatStart cooldown) = (.response result, u) ∧
    render (.obj result) = .ok content ∧
    requestDigest name (getMember body "messages") = .ok digest ∧
    r.body = receiptBody (S.env u.tick) name settings result digest ∧
    buildEnvelope lib host r.body s = .ok (some r) t ∧ receipt = .obj r.envelope
  carried : ∀ envelope header, receipt = .obj envelope → encodeHeader envelope = some header →
    Carries header (carried envelope)

/-- **What a receipt is of.** A JSON response with a receipt is an answer, and the receipt is of
that answer; an answer without one comes from a process without the library. -/
theorem receipt_carried (render : Json → Except Failure Bytes) (lib : Option Library) (host : Host)
    (s : Signing) (S : Surroundings) (settings : EndpointSettings) (request : HttpRequest)
    (cooldown : Cooldowns) :
    (∀ status content v, chatCompletions (packages render lib host s) S settings request cooldown =
        .sent status content (some v) →
      status = 200 ∧ ReceiptOf render lib host s S settings request cooldown content v) ∧
    ∀ status content, chatCompletions (packages render lib host s) S settings request cooldown =
        .sent status content none → status = 502 ∨ lib = none := by
  have hsent : ∀ status content receipt,
      chatCompletions (packages render lib host s) S settings request cooldown =
        .sent status content receipt →
      (∀ v, receipt = some v → status = 200 ∧
        ReceiptOf render lib host s S settings request cooldown content v) ∧
      (receipt = none → status = 502 ∨ lib = none) := by
    intro status content receipt h
    obtain ⟨body, name, hbody, hname, h⟩ := chatCompletions_sent h
    -- a failure is sent with status 502 and without a receipt
    rcases respondChat_receipt h with ⟨rfl, rfl⟩ | ⟨result, hresult, h⟩
    · exact ⟨fun v hv => (by cases hv), fun _ => .inl rfl⟩
    obtain ⟨rfl, hrender, digest, signed, t, hdigest, hbuild, rfl⟩ := respondServed_receipt h
    constructor
    · intro v hv
      obtain ⟨r, rfl, rfl⟩ := Option.map_eq_some_iff.mp hv
      have hbodyOf := buildEnvelope_body hbuild
      exact ⟨rfl, ⟨body, name, result, _, digest, r, t, hbody, hname, Prod.ext hresult rfl, hrender,
        hdigest, hbodyOf, hbodyOf ▸ hbuild, rfl⟩,
        fun envelope header heq hheader => carries hheader⟩
    · intro hnone
      rw [Option.map_eq_none_iff] at hnone
      subst hnone
      exact .inr (buildEnvelope_none hbuild)
  exact ⟨fun status content v h => (hsent status content _ h).1 v rfl,
    fun status content h => (hsent status content _ h).2 rfl⟩

/-! ### Verdicts -/

/-- Both checks of a header come to this: that of the service with the key in the request, and
the offline one with the key in a file, or without one. -/
structure Judged (lib : Option Library) (header : Str) (key : Json) (file : PublicKey)
    (valid : Bool) (detail : Str) (signed : Bool) : Prop where
  endpoint : ∀ request body, jsonObject request = .ok body →
    getMember body "envelope" = .str header →
    getMember body "public_key_pem" = key →
    receiptVerify lib request =
      .ok [(lit "valid", .bool valid), (lit "detail", .str detail), (lit "signed", .bool signed)]
  offline : ∀ sh value text pubkey, envelopeText sh value = some text → Str.strip text = header →
    keyFile sh pubkey = some file →
    ∃ organ digest, verifyMain lib sh value pubkey =
      some (⟨valid, detail, signed, organ, digest⟩, if valid then 0 else 1)

theorem Carries.judged {lib : Option Library} {header : Str} {d : Dict}
    (h : Carries header (.obj d))
    {key : Json} {file : PublicKey} {valid : Bool} {detail : Str}
    (hkey : verifyEnvelope lib (.obj d) (.json key) = .ok (valid, detail))
    (hfile : verifyEnvelope lib (.obj d) file = .ok (valid, detail)) :
    Judged lib header key file valid detail (saysSigned d) := by
  constructor
  · rintro request body hbody hheader rfl
    rw [h.endpoint lib request body hbody hheader, verdict, hkey]
  · intro sh value text pubkey htext hstrip hread
    refine ⟨Dict.get d (lit "organ"), Dict.get d (lit "digest"), ?_⟩
    rw [verifyMain, h.offline sh value text htext hstrip]
    simp only [hread, hfile, Except.toOption, Option.bind_eq_bind, Option.bind_some]
    rfl

/-- A key that is published as text is a file with the bytes that it was made of. -/
theorem utf8_decodeAscii {pub : Bytes} {text : Str} (h : decodeAscii pub = .ok text) :
    utf8 text = some pub := by
  rw [decodeAscii] at h
  split_ifs at h with hascii
  obtain rfl := Except.ok.inj h
  rw [List.all_eq_true] at hascii
  have hbytes : ∀ b ∈ pub, b.val < 128 := fun b hb => of_decide_eq_true (hascii b hb)
  have hchars : Ascii (pub.map fun b => ⟨b.val, byte_lt b⟩) := by
    intro c hc
    obtain ⟨b, hb, rfl⟩ := List.mem_map.mp hc
    exact hbytes b hb
  have hbyte : ∀ b ∈ pub, utf8Char ⟨b.val, byte_lt b⟩ = [b] := by
    intro b hb
    rw [utf8Char, if_pos (show b.val < 0x80 from hbytes b hb), byte]
    exact congrArg (fun x => [x]) (Fin.ext (Nat.mod_eq_of_lt b.isLt))
  rw [hchars.utf8_eq, List.flatMap_map, List.flatMap_congr hbyte, List.flatMap_singleton']

/-- What the library promises: what it signs with a key is found valid with the public half of
that key, also as text, and what is unsigned is told to be so. -/
structure Library.Documented (sr : Library) : Prop where
  /-- A signature verifies with the public half of its key, as bytes or as text. -/
  verifies : ∀ priv pub, Paired (some sr) priv pub → ∀ kind body organ n envelope,
    sr.signReceipt kind body (some priv) organ n = .ok envelope →
      sr.verifyReceipt (.obj envelope) (.pem pub) = .ok (true, lit "ok") ∧
      ∀ text, decodeAscii pub = .ok text →
        sr.verifyReceipt (.obj envelope) (.json (.str text)) = .ok (true, lit "ok")
  /-- Without a key an envelope says so. -/
  unsigned : ∀ kind body organ n envelope, sr.signReceipt kind body none organ n = .ok envelope →
    saysSigned envelope = false ∧
      ∀ key, sr.verifyReceipt (.obj envelope) key = .ok (false, lit "unsigned-honest")

/-- **What a buyer can check.**  In every run of a process, the header of a receipt is found
valid with the key that the process publishes: by the service, which is sent the text of the key,
and offline, where a file has its bytes.  Where the process has no key, either check finds that
the receipt is unsigned, whatever the key.  The envelope is one that its JSON text gives back. -/
theorem receipts_checkable (sr : Library) (hdoc : sr.Documented) (steps : List (Host × Request)) :
    ∀ r header, .receipt (some r) ∈ (runs (step (some sr)) Signing.start steps).2 →
      encodeHeader r.envelope = some header → Stable headerDumps (.obj r.envelope) →
      (∀ p pem, .published p ∈ (runs (step (some sr)) Signing.start steps).2 →
        p.publicKeyPem = some pem → ∃ raw, utf8 pem = some raw ∧
          Judged (some sr) header (.str pem) (.pem raw) true (lit "ok") (saysSigned r.envelope)) ∧
      (r.key = none → ∀ key file,
        Judged (some sr) header key file false (lit "unsigned-honest") false) := by
  intro r header hr hheader hstable
  have hcarries := carries hheader
  rw [carried, norm_of_stable rfl hstable] at hcarries
  have hran : Ran (some sr) Signing.start [] :=
    ⟨inv_start, List.forall_mem_nil _, fun _ => List.forall_mem_nil _⟩
  have hall := runs_history (P := Ran (some sr)) (fun s os i h => h.step i) hran steps
  obtain ⟨hkey, sr', n, hlib, hsign⟩ : SignedWith (some sr) _ r := hall.fits _ hr
  obtain rfl := Option.some.inj hlib
  constructor
  · intro p pem hp hpem
    obtain ⟨hshows, -, -⟩ : Shows _ p := hall.fits _ hp
    rcases hshows with ⟨-, hnone⟩ | ⟨pub, text, hpub, hascii, htext⟩
    · rw [hpem] at hnone
      cases hnone
    obtain rfl := Option.some.inj (hpem.symm.trans htext)
    -- what is published is the public half of the key that signed
    obtain ⟨priv, hpriv, hpaired⟩ := hall.inv.consistent.paired pub hpub
    rw [hkey, hpriv] at hsign
    obtain ⟨hbytes, htexts⟩ := hdoc.verifies priv pub hpaired _ _ _ _ _ hsign
    exact ⟨pub, utf8_decodeAscii hascii, hcarries.judged (htexts pem hascii) hbytes⟩
  · intro hnone key file
    rw [hnone] at hsign
    obtain ⟨hmarked, hverify⟩ := hdoc.unsigned _ _ _ _ _ hsign
    have hjudged : Judged (some sr) header key file false (lit "unsigned-honest")
        (saysSigned r.envelope) := hcarries.judged (hverify _) (hverify _)
    rwa [hmarked] at hjudged

/-! ### A session -/

/-- The bytes of a key as text. -/
def PublicKey.text : PublicKey → Json
  | .json v => v
  | .pem b => .str (b.map fun b => ⟨b.val, byte_lt b⟩)

/-- A library whose signatures name their key. -/
def namingLibrary : Library where
  generateKeypair _ := .ok ([75], [75])
  derivePublicPem priv := some priv
  signReceipt _ body key _ _ := .ok ([(lit "signed", .bool key.isSome), (lit "body", body)] ++
    (key.map fun k => (lit "key", (PublicKey.pem k).text)).toList)
  verifyReceipt envelope key :=
    match envelope.get (lit "key") with
    | none => .ok (false, lit "unsigned-honest")
    | some k =>
      if k = key.text then .ok (true, lit "ok") else .ok (false, lit "signature mismatch")

theorem namingLibrary_documented : namingLibrary.Documented where
  verifies priv pub hpaired kind body organ n envelope hsign := by
    have hpub : priv = pub := by
      obtain ⟨sr, hsr, hpair⟩ := hpaired
      obtain rfl := Option.some.inj hsr
      rcases hpair with hderive | ⟨n, hgenerate⟩
      · exact Option.some.inj hderive
      · obtain ⟨rfl, rfl⟩ := Prod.mk.inj (Except.ok.inj hgenerate)
        rfl
    obtain rfl := Except.ok.inj hsign
    have hverify : ∀ key : PublicKey, key.text = (PublicKey.pem priv).text →
        namingLibrary.verifyReceipt (.obj ([(lit "signed", .bool true), (lit "body", body)] ++
          [(lit "key", (PublicKey.pem priv).text)])) key = .ok (true, lit "ok") :=
      fun key hkey => if_pos hkey.symm
    refine ⟨hverify _ (hpub ▸ rfl), fun text htext => hverify _ ?_⟩
    rw [decodeAscii] at htext
    split_ifs at htext
    rw [← Except.ok.inj htext, hpub]
    rfl
  unsigned kind body organ n envelope hsign := by
    obtain rfl := Except.ok.inj hsign
    exact ⟨rfl, fun _ => rfl⟩

/-- Nothing is configured, so that a session key is generated. -/
def bareHost : Host := ⟨fun _ => none, fun _ => none⟩

def sessionEnvelope : Dict :=
  [(lit "signed", .bool true), (lit "body", .str (lit "x")), (lit "key", .str (lit "K"))]

theorem receipts_checkable_session : ∃ header, encodeHeader sessionEnvelope = some header ∧
    ∃ raw, utf8 (lit "K") = some raw ∧
      Judged (some namingLibrary) header (.str (lit "K")) (.pem raw) true (lit "ok") true := by
  obtain ⟨header, hheader⟩ : ∃ header, encodeHeader sessionEnvelope = some header := ⟨_, rfl⟩
  have hstable : Stable headerDumps (.obj sessionEnvelope) :=
    ⟨by decide, ⟨rfl, trivial⟩, ⟨rfl, rfl⟩, ⟨rfl, rfl⟩, trivial⟩
  refine ⟨header, hheader, (receipts_checkable namingLibrary namingLibrary_documented
    [(bareHost, .start), (bareHost, .receipt (.str (lit "x"))), (bareHost, .publicKey)]
    ⟨.str (lit "x"), some [75], sessionEnvelope⟩ header ?_ hheader hstable).1
      ⟨some (lit "K"), lit "ephemeral-session-key", true, true, lit
        "ephemeral session key — verifies THIS session's receipts only; not a persistent identity"⟩
      (lit "K") ?_ rfl⟩
  · exact List.mem_of_getElem? (i := 1) rfl
  · exact List.mem_of_getElem? (i := 2) rfl

end Receipts

end SzlRouter
