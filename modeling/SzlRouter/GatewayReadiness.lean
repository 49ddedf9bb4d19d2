/-
The readiness report agrees with what the chat endpoint admits.

A ready gateway has an enabled provider whose credential is there; `probe` is a
request that this provider alone can serve, so a call with it reaches an attempt
unless the route deadline passes before the first candidate is looked at.  In
the other direction every gate of the call is one of the report's checks.

* `probe_dispatched` — the probe of a provider reaches an attempt;
* `ready_of_dispatched` — a call that reaches an attempt finds the gateway ready;
* `readiness_agrees` — both together.
-/
import SzlRouter.Gateway

namespace SzlRouter

namespace Gateway

open Py

variable {settings : Settings} {env : Env} {p : ProviderRecord}

theorem ready_iff : (inferenceReadiness settings env).readyForRequests = true ↔
    settings.configState = .validated ∧ settings.egressEnabled = true ∧ callerToken env ≠ [] ∧
      ∃ p ∈ settings.registry.providers, p.enabled = true ∧
        credentialState env p ≠ .unavailable := by
  have hcredential : ∀ c : CredentialState, c ∈ [.available, .notRequiredLoopback] ↔
      c ≠ .unavailable := by
    intro c
    cases c <;> decide
  simp [Readiness.readyForRequests, inferenceReadiness, ← hcredential, and_assoc]

/-! ### A request that one provider serves -/

/-- The first model of a provider, under its first classification, for that provider only. -/
def probe (p : ProviderRecord) (hp : p.Valid) : ChatRequest where
  model := (p.models.head hp.models).1
  requiredProviderId := some p.id
  messages := [⟨.user, lit "hi", none⟩]
  temperature := none
  topP := none
  maxTokens := none
  stream := false
  stop := none
  user := none
  dataClassification := p.classifications.head hp.classifications
  maxCostTier := 10
  policy := {
    model := hp.aliases _ (List.head_mem _)
    requiredProviderId := by simpa using hp.id
    dataClassification := hp.known _ (List.head_mem _)
    maxCostTier := by decide }
  messages_length := by decide
  messages_ok := by
    simp only [List.mem_singleton, forall_eq, messageOk]
    exact ⟨clean_lit (by decide), by decide, by simp⟩
  temperature_ok := by simp
  topP_ok := by simp
  maxTokens_ok := by simp
  stop_ok := by simp
  user_ok := by simp
  total_content := by decide
  no_stream := rfl

theorem get_head {d : List (Str × Str)} (h : d ≠ []) :
    Dict.get d (d.head h).1 = some (d.head h).2 := by
  cases d with
  | nil => exact absurd rfl h
  | cons m rest =>
    obtain ⟨l, w⟩ := m
    simp

/-- The first model of a provider has an upstream name. -/
theorem upstreamModel_head (hp : p.Valid) :
    upstreamModel p (p.models.head hp.models).1 ≠ none := by
  have hne := (hp.upstream _ (List.head_mem hp.models)).1
  rw [upstreamModel, get_head hp.models]
  simp [hne]

theorem eligible_probe (hp : p.Valid) (henabled : p.enabled = true) :
    eligible (probe p hp).planRequest p = true := by
  simp only [eligible, decide_eq_true_eq]
  refine ⟨?_, henabled, upstreamModel_head hp, List.head_mem hp.classifications, hp.costTier.2⟩
  intro id hid
  exact Option.some.inj hid

/-- Every candidate for the probe is the row of its provider. -/
theorem mem_routeCandidates_probe (hmem : p ∈ settings.registry.providers) (hp : p.Valid)
    {c : Candidate} (hc : c ∈ routeCandidates settings env (probe p hp).planRequest) :
    c = candidate env (probe p hp).planRequest p := by
  obtain ⟨q, hq, hel, rfl⟩ := mem_routeCandidates.mp hc
  simp only [eligible, decide_eq_true_eq] at hel
  have hid : q.id = p.id := hel.1 p.id rfl
  rw [List.inj_on_of_nodup_map settings.registry.unique hq hmem hid]

/-- The probe can be hashed. -/
theorem sha256_probe (hp : p.Valid) :
    ∃ digest, sha256 (.obj (probe p hp).modelDump) = .ok digest := by
  have hmodel := (IDENTIFIER_ascii (probe p hp).policy.model).clean
  have hid := (IDENTIFIER_ascii hp.id).clean
  have hclass := CLASSIFICATIONS_clean (probe p hp).policy.dataClassification
  -- member by member: the model and the provider are identifiers, the message is a literal
  have htexts : Texts Clean (.obj (probe p hp).modelDump) := by
    rw [texts_obj, ChatRequest.modelDump]
    simp only [List.forall_mem_cons]
    refine ⟨⟨clean_lit (by decide), hmodel⟩, ⟨clean_lit (by decide), hid⟩,
      ⟨clean_lit (by decide), ?_⟩, ⟨clean_lit (by decide), trivial⟩,
      ⟨clean_lit (by decide), trivial⟩, ⟨clean_lit (by decide), trivial⟩,
      ⟨clean_lit (by decide), trivial⟩, ⟨clean_lit (by decide), trivial⟩,
      ⟨clean_lit (by decide), trivial⟩, ⟨clean_lit (by decide), hclass⟩,
      ⟨clean_lit (by decide), trivial⟩, List.forall_mem_nil _⟩
    rw [texts_arr]
    intro v hv
    obtain rfl := List.mem_singleton.mp hv
    rw [Message.dump, texts_obj]
    simp only [List.forall_mem_cons]
    exact ⟨⟨clean_lit (by decide), clean_lit (by decide)⟩,
      ⟨clean_lit (by decide), clean_lit (by decide)⟩, ⟨clean_lit (by decide), trivial⟩,
      List.forall_mem_nil _⟩
  rw [sha256, canonical_of_clean htexts rfl]
  exact ⟨_, rfl⟩

/-! ### The header -/

/-- A text that a header can carry: one byte for each character. -/
def HeaderValue (s : Str) : Prop := ∀ c ∈ s, c.val < 256

theorem HeaderValue.clean {s : Str} (h : HeaderValue s) : Clean s := by
  intro c hc
  have hlt := h c hc
  exact decide_eq_false (by omega)

/-- The header of a caller who has the token. -/
def bearer (env : Env) : Str := lit "Bearer " ++ callerToken env

theorem checkCallerAuth_bearer (htoken : callerToken env ≠ [])
    (hheader : HeaderValue (callerToken env)) : checkCallerAuth env (bearer env) = none := by
  have hclean : Clean (bearer env) := (clean_lit (by decide)).append hheader.clean
  have hbytes := utf8_of_clean hclean
  rw [checkCallerAuth, if_neg htoken]
  rw [bearer] at hbytes ⊢
  rw [hbytes]
  dsimp only
  rw [if_pos rfl]

theorem callerToken_ne_nil {received : Str} (h : checkCallerAuth env received = none) :
    callerToken env ≠ [] := by
  intro hnil
  rw [checkCallerAuth, if_pos hnil] at h
  exact nomatch h

/-! ### Agreement -/

/-- The deadline of the route has not passed when the first candidate is looked at. A clock that
jumps at the start of a call would refuse every candidate. -/
def Runtime.OnTime {W : Type} (R : Runtime W) (w : W) : Prop :=
  ¬((R.monotonic w).1.add MAX_ROUTE_SECONDS).sub (R.monotonic (R.monotonic w).2).1 ≤ 0

/-- The probe of a provider reaches an attempt. The probe asks for a model of that provider and
requires the provider by its id, so its plan has the one candidate, whose credential is there. -/
theorem probe_dispatched {W : Type} {R : Runtime W} {w : W}
    (hconfig : settings.configState = .validated) (hegress : settings.egressEnabled = true)
    (htoken : callerToken env ≠ []) (hheader : HeaderValue (callerToken env))
    (hmem : p ∈ settings.registry.providers) (hp : p.Valid) (henabled : p.enabled = true)
    (hcredential : credentialState env p ≠ .unavailable) (htime : R.OnTime w) :
    (chatWith R settings env (probe p hp) (bearer env) w).dispatched ≠ [] := by
  obtain ⟨plan, hplan, hcandidates⟩ := plan_total settings env (probe p hp).planRequest
  obtain ⟨digest, hdigest⟩ := sha256_probe hp
  have hcandidate : candidate env (probe p hp).planRequest p ∈
      routeCandidates settings env (probe p hp).planRequest :=
    mem_routeCandidates.mpr ⟨p, hmem, eligible_probe hp henabled, rfl⟩
  cases hrows : routeCandidates settings env (probe p hp).planRequest with
  | nil =>
    rw [hrows] at hcandidate
    exact absurd hcandidate List.not_mem_nil
  | cons c rest =>
    -- the first candidate is the provider's own row, as all of them are
    have hfirst : c = candidate env (probe p hp).planRequest p := by
      refine mem_routeCandidates_probe hmem hp ?_
      rw [hrows]
      exact List.mem_cons_self
    rw [hrows] at hcandidates
    have hadmitted : Admitted settings env (probe p hp) (bearer env) plan digest :=
      { config := by rw [hconfig]; decide
        egress := hegress
        auth := checkCallerAuth_bearer htoken hheader
        planned := hplan
        candidates := by rw [hcandidates]; simp
        digest := hdigest }
    rw [hadmitted.chatWith_eq, hcandidates]
    have hprovider : providerById settings c.providerId = some p :=
      providerById_eq_some.mpr ⟨hmem, by rw [hfirst]; rfl⟩
    let C : Call := ⟨settings, env, probe p hp, digest, plan.digest, (R.monotonic w).1⟩
    have hturn : (C.turn R c [] (R.monotonic w).2).dispatched = some _ :=
      Call.turn_dispatched.mpr ⟨p, hprovider, hcredential, htime, rfl⟩
    exact List.ne_nil_of_mem (Call.routeLoop_first hturn)

/-- A call that reaches an attempt finds the gateway ready. Every test of readiness is one that
the call has passed on its way to the attempt. -/
theorem ready_of_dispatched {W : Type} {L : Lax} {T : UrlTables} {R : Runtime W}
    {request : ChatRequest} {received : Str} {w : W}
    (h : (chat L T R env request received w).dispatched ≠ []) :
    (inferenceReadiness (loadSettings L T env) env).readyForRequests = true := by
  rw [chat] at h
  rcases chatWith_cases R (loadSettings L T env) env request received w with
    ⟨plan, digest, hadmitted⟩ | ⟨reply, hidle⟩
  · rw [hadmitted.chatWith_eq] at h
    obtain ⟨d, hd⟩ := List.exists_mem_of_ne_nil _ h
    obtain ⟨hc, hprovider, hcredential⟩ := Call.routeLoop_dispatched hd
    obtain ⟨plan', hplan', hcandidates⟩ :=
      plan_total (loadSettings L T env) env request.planRequest
    obtain rfl := Except.ok.inj (hadmitted.planned.symm.trans hplan')
    rw [hcandidates] at hc
    obtain ⟨p, hmem, hel, hrow⟩ := mem_routeCandidates.mp hc
    simp only [eligible, decide_eq_true_eq] at hel
    -- the provider looked up by its id is the one whose row this is
    have hsame : d.provider = p := by
      have hp : providerById (loadSettings L T env) d.candidate.providerId = some p :=
        providerById_eq_some.mpr ⟨hmem, by rw [← hrow]; rfl⟩
      exact Option.some.inj (hprovider.symm.trans hp)
    rw [hsame] at hcredential
    refine ready_iff.mpr ⟨?_, hadmitted.egress, callerToken_ne_nil hadmitted.auth, p, hmem,
      hel.2.1, hcredential⟩
    rcases loadSettings_cases L T env with ⟨_, hempty⟩ | ⟨hvalid, _⟩ | ⟨_, hempty, _⟩
    · rw [hempty] at hmem
      exact absurd hmem List.not_mem_nil
    · exact hvalid
    · rw [hempty] at hmem
      exact absurd hmem List.not_mem_nil
  · rw [hidle] at h
    exact absurd rfl h

/-- A process whose clock stands still and whose attempts time out. -/
def Runtime.still : Runtime Unit := ⟨fun w => (0, w), fun _ _ _ _ w => (.httpTimeout, w)⟩

/-- The gateway is ready exactly when some request reaches an attempt: one that does so
whenever the route deadline has not passed at the first candidate, and none that does so
under any clock when the gateway is not ready. -/
theorem readiness_agrees (L : Lax) (T : UrlTables) (env : Env)
    (hheader : HeaderValue (callerToken env)) :
    ((inferenceReadiness (loadSettings L T env) env).readyForRequests = true ↔
      ∃ request : ChatRequest, ∀ (W : Type) (R : Runtime W) (w : W), R.OnTime w →
        (chat L T R env request (bearer env) w).dispatched ≠ []) ∧
    ∀ (request : ChatRequest) (W : Type) (R : Runtime W) (w : W),
      (chat L T R env request (bearer env) w).dispatched ≠ [] →
        (inferenceReadiness (loadSettings L T env) env).readyForRequests = true := by
  refine ⟨⟨fun hready => ?_, fun ⟨request, hreach⟩ => ?_⟩, fun _ _ _ _ => ready_of_dispatched⟩
  · obtain ⟨hconfig, hegress, htoken, p, hmem, henabled, hcredential⟩ := ready_iff.mp hready
    have hp := (loadSettings L T env).registry.valid p hmem
    refine ⟨probe p hp, fun W R w htime => ?_⟩
    exact probe_dispatched hconfig hegress htoken hheader hmem hp henabled hcredential htime
  · have htime : Runtime.still.OnTime () := by
      rw [Runtime.OnTime]
      decide +kernel
    exact ready_of_dispatched (hreach Unit Runtime.still () htime)

/-- The conversions of plain JSON integers and booleans. -/
def Lax.plain : Lax where
  int
    | .num (.int n) => some n
    | _ => none
  bool
    | .bool b => some b
    | _ => none

/-- Unicode tables for ASCII text. -/
def asciiTables : UrlTables := ⟨Str.lower, id⟩

/-- One local provider, a caller token and egress. -/
def loopbackEnv : Env := fun name =>
  if name = lit "SZL_ROUTER_PROVIDERS_JSON" then
    some (lit ("\x7b\"providers\": [\x7b\"id\": \"local\", \"enabled\": true, " ++
      "\"provider_type\": \"ollama_loopback\", \"models\": \x7b\"chat\": \"llama3:8b\"\x7d, " ++
      "\"model_digests\": \x7b\"chat\": " ++
      "\"ba7816bf8f01cfea414140de5dae2223b00361a396177a9cb410ff61f20015ad\"\x7d\x7d]\x7d"))
  else if name = lit "SZL_ROUTER_ENABLE_EGRESS" then some (lit "1")
  else if name = lit "SZL_ROUTER_TOKEN" then some (lit "secret")
  else none

/-- With one local provider some request reaches an attempt. -/
theorem readiness_agrees_loopback :
    ∃ request : ChatRequest, ∀ (W : Type) (R : Runtime W) (w : W), R.OnTime w →
      (chat Lax.plain asciiTables R loopbackEnv request (bearer loopbackEnv) w).dispatched ≠
      [] := by
  have hall : (callerToken loopbackEnv).all (fun c => c.val < 256) = true := by decide +kernel
  have hheader : HeaderValue (callerToken loopbackEnv) := fun c hc => by
    simpa using List.all_eq_true.mp hall c hc
  exact (readiness_agrees Lax.plain asciiTables loopbackEnv hheader).1.mp (by decide +kernel)

end Gateway

end SzlRouter
