/-
Where the gateway sends anything.

A URL of the configuration is taken apart and put together again when it is read; the
requests of an attempt go to it or to the local daemon.  Nothing leaves the process before
every gate of the call is passed.

* `validateBaseUrl_eq_some` — what a base URL is after it was checked;
* `attempt_sends` — the requests of an attempt are for its provider;
* `routeLoop_moves` — what the attempts keep, a run of the candidate loop keeps;
* `egress_confined` — every request of every call.
-/
import SzlRouter.EventLog
import SzlRouter.GatewayAttempt
import SzlRouter.GatewayReadiness

namespace SzlRouter

namespace Gateway

open Py Procedure EventLog

/-! ### Base URLs -/

/-- The parts of a base URL that was checked: a host that is listed, no address and no local
name, and a path that is empty or rooted. -/
structure Approved (hosts : List Str) (host path : Str) : Prop where
  listed : host ∈ hosts
  nonempty : host ≠ []
  no_address : IpAddress.ipAddress host = none
  no_localhost : host ≠ lit "localhost" ∧ Str.endsWith host (lit ".localhost") = false
  rooted : path = [] ∨ path.head? = some (chr '/')
  trimmed : path.getLast? ≠ some (chr '/')
  plain : ∀ c ∈ path, c ∉ SplitUrl.pathDelimiters

theorem rstrip_extends (s : Str) (c : CodePoint) : Str.rstrip s c <+: s :=
  List.rdropWhile_prefix (fun x => decide (x = c)) s

theorem getLast?_rstrip (s : Str) (c : CodePoint) : (Str.rstrip s c).getLast? ≠ some c := by
  rw [Str.rstrip, Str.rstripWhile, List.getLast?_reverse]
  intro h
  have hhead := List.head?_dropWhile_not (fun x => decide (x = c)) s.reverse
  rw [h] at hhead
  simp at hhead

theorem rstrip_of_getLast? {s : Str} {c : CodePoint} (h : s.getLast? ≠ some c) :
    Str.rstrip s c = s := by
  rw [Str.rstrip, Str.rstripWhile]
  cases hs : s.reverse with
  | nil => simp [List.reverse_eq_nil_iff.mp hs]
  | cons x t =>
    have hx : x ≠ c := by
      rintro rfl
      rw [List.getLast?_eq_head?_reverse, hs] at h
      exact h rfl
    rw [List.dropWhile_cons, if_neg (by simpa using hx), ← hs, List.reverse_reverse]

/-- A base URL that was checked is `https`, an approved host and a path. So no user, no port and
no query of the configured text is left in the address that requests are made from. -/
theorem validateBaseUrl_eq_some {T : UrlTables} {value url : Str} {hosts : List Str}
    (h : validateBaseUrl T value hosts = some url) :
    ∃ host path, Approved hosts host path ∧ url = lit "https://" ++ host ++ path := by
  rw [validateBaseUrl] at h
  obtain ⟨parsed, hparsed, h⟩ := Option.bind_eq_some_iff.mp h
  dsimp only at h
  generalize hhost : normalizeHost T (parsed.hostname T) = host at h
  generalize hpath : Str.rstrip parsed.path (chr '/') = path at h
  -- the guards of the source in its order, each taken on the side that goes on
  obtain ⟨hscheme, h⟩ := Option.ite_none_left_eq_some.mp h
  obtain ⟨hlisted, h⟩ := Option.ite_none_left_eq_some.mp h
  obtain ⟨hparts, h⟩ := Option.ite_none_left_eq_some.mp h
  obtain ⟨port, hport, h⟩ := Option.bind_eq_some_iff.mp h
  obtain ⟨hdefault, h⟩ := Option.ite_none_left_eq_some.mp h
  obtain ⟨haddress, h⟩ := Option.ite_none_left_eq_some.mp h
  obtain ⟨hlocal, h⟩ := Option.ite_none_left_eq_some.mp h
  obtain ⟨hrooted, h⟩ := Option.ite_none_left_eq_some.mp h
  rw [not_or, not_not] at hlisted
  rw [Option.not_isSome_iff_eq_none] at haddress
  rw [not_or, Bool.not_eq_true] at hlocal
  -- the last guard, on the path that is left without its trailing slashes
  have hpathRooted : path = [] ∨ path.head? = some (chr '/') := by
    by_contra hnot
    rw [not_or] at hnot
    refine hrooted ⟨hnot.1, fun hstart => hnot.2 ?_⟩
    obtain ⟨rest, hrest⟩ := List.isPrefixOf_iff_prefix.mp hstart
    rw [← hrest]
    rfl
  refine ⟨host, path, ⟨hlisted.2, hlisted.1, haddress, hlocal, hpathRooted, ?_, ?_⟩, ?_⟩
  · rw [← hpath]
    exact getLast?_rstrip _ _
  · rw [← hpath]
    exact fun c hc => SplitUrl.urlsplit_path hparsed c ((rstrip_extends _ _).subset hc)
  -- what is put together again from an approved host and path is the address
  · obtain rfl := Option.some.inj h
    rw [SplitUrl.unsplit]
    dsimp only
    have hscheme : lit "https" ≠ [] := by decide
    rw [if_pos (Or.inl hlisted.1), if_neg hrooted, if_neg hscheme, if_pos rfl, if_pos rfl,
      List.append_nil, List.append_assoc (lit "//"), List.append_assoc (lit "https://")]
    rfl

/-- The completions of an approved base URL: what is asked is read as the approved host. -/
theorem Approved.completions {hosts : List Str} {host path : Str} (h : Approved hosts host path)
    (hplain : SplitUrl.PlainNetloc host) (T : UrlTables) :
    ∃ path', SplitUrl.urlsplit T (Str.rstrip (lit "https://" ++ host ++ path) (chr '/') ++
      lit "/chat/completions") = some ⟨lit "https", host, path', [], []⟩ := by
  -- neither a trimmed path nor a plain host ends in a slash, so the strip does nothing
  have hlast : (lit "https://" ++ host ++ path).getLast? ≠ some (chr '/') := by
    rw [List.getLast?_append]
    cases hpath : path.getLast? with
    | some c =>
      have htrimmed := h.trimmed
      rw [hpath] at htrimmed
      exact htrimmed
    | none =>
      rw [Option.none_or, List.getLast?_append]
      cases hhost : host.getLast? with
      | none => exact absurd (List.getLast?_eq_none_iff.mp hhost) h.nonempty
      | some c =>
        rw [Option.some_or]
        intro heq
        obtain rfl := Option.some.inj heq
        exact (hplain _ (List.mem_of_getLast? hhost)).2 (by decide)
  refine ⟨path ++ lit "/chat/completions", ?_⟩
  rw [rstrip_of_getLast? hlast, List.append_assoc]
  refine SplitUrl.urlsplit_plain T hplain ⟨?_, ?_⟩
  · rcases h.rooted with rfl | hrooted
    · rfl
    · rw [List.head?_append, hrooted]
      rfl
  · intro c hc
    rcases List.mem_append.mp hc with hc | hc
    · exact h.plain c hc
    · have hall : (lit "/chat/completions").all
          (fun c => decide (c ∉ SplitUrl.pathDelimiters)) = true := by decide
      exact of_decide_eq_true (List.all_eq_true.mp hall c hc)

/-! ### The requests of an attempt -/

section

variable {W : Type}

/-- Only requests that satisfy `A` were made. -/
def Sends (A : Outbound → Prop) (s t : Net W) : Prop :=
  Adds (fun x => A x.sent) s.exchanges t.exchanges

instance (A : Outbound → Prop) : IsPreorder (Net W) (Sends A) where
  refl _ := Adds.refl _ _
  trans _ _ _ := Adds.trans

variable (N : Wire W) {A : Outbound → Prop}

/-- A request is kept with what came of it. -/
theorem stream_eq (o : Outbound) (s : Net W) : stream N o s =
    match (N.stream o s.world).1 with
    | .raised e => .error (.net e) ⟨(N.stream o s.world).2, s.exchanges ++ [⟨o, .raised e⟩]⟩
    | .response status chunks broken => .ok (status, chunks, broken)
        ⟨(N.stream o s.world).2, s.exchanges ++ [⟨o, .response status chunks broken⟩]⟩ := by
  show (match (N.stream o s.world).1 with
    | .raised e => throw (Raised.net e)
    | .response status chunks broken => return (status, chunks, broken) :
      Attempting W (ℤ × List Bytes × Option NetError))
      ⟨(N.stream o s.world).2, s.exchanges ++ [⟨o, (N.stream o s.world).1⟩]⟩ = _
  cases (N.stream o s.world).1 <;> rfl

theorem stream_sends {o : Outbound} (h : A o) : Moves (Sends A) (stream N o) := by
  intro s
  have hsent : ∀ got, Sends A s ⟨(N.stream o s.world).2, s.exchanges ++ [⟨o, got⟩]⟩ :=
    fun got => Adds.concat h
  rw [Ensures, stream_eq]
  cases (N.stream o s.world).1 with
  | raised e => exact hsent _
  | response status chunks broken => exact hsent _

theorem item_sends (d : List (Str × Str)) (k : Str) :
    Moves (Sends A) (item d k : Attempting W Str) := by
  rw [item]
  cases Dict.get d k with
  | none => exact Moves.throw _
  | some v => exact Moves.pure v

theorem readOllamaInventory_sends {kind : Str} (h : A ⟨.get, inventoryUrl kind, none, none⟩) :
    Moves (Sends A) (readOllamaInventory N kind) := by
  refine (stream_sends N h).bind ?_
  rintro ⟨status, chunks, broken⟩
  refine Moves.ite (fun _ => Moves.throw _) fun _ => ?_
  cases collect MAX_OLLAMA_TAGS_BYTES 0 chunks with
  | none => exact Moves.throw _
  | some raw =>
    cases broken with
    | some e => exact Moves.throw _
    | none =>
      dsimp only
      cases parseInventory raw with
      | none => exact Moves.throw _
      | some inventory => exact Moves.pure _

theorem reachingDaemon_sends {α : Type} {x : Attempting W α} (h : Moves (Sends A) x) :
    Moves (Sends A) (reachingDaemon x) := by
  intro s
  have hs := h s
  rw [Ensures] at hs ⊢
  rw [reachingDaemon]
  cases hx : x s with
  | ok a t =>
    rw [hx] at hs
    exact hs
  | error e t =>
    rw [hx] at hs
    cases e with
    | net e =>
      dsimp only
      split_ifs <;> exact hs
    | identity state => exact hs
    | status code => exact hs

theorem assertOllamaIdentity_sends (p : ProviderRecord) (publicModel : Str) (after : Bool)
    (htags : A ⟨.get, inventoryUrl (lit "tags"), none, none⟩)
    (hps : A ⟨.get, inventoryUrl (lit "ps"), none, none⟩) :
    Moves (Sends A) (assertOllamaIdentity N p publicModel after) := by
  refine (item_sends _ _).bind fun upstreamModel => (item_sends _ _).bind fun expected => ?_
  refine (reachingDaemon_sends ((readOllamaInventory_sends N htags).bind fun _ =>
    (readOllamaInventory_sends N hps).bind fun _ => Moves.pure _)).bind ?_
  rintro ⟨tags, running⟩
  dsimp only
  cases Dict.get tags.entries upstreamModel with
  | none => exact Moves.throw _
  | some observed =>
    exact Moves.ite (fun _ => Moves.throw _) fun _ => Moves.ite (fun _ => Moves.throw _) fun _ =>
      Moves.ite (fun _ => Moves.throw _) fun _ => Moves.pure _

/-- The store is read without a request. -/
theorem storeAnswer_sends (env : Env) (upstreamModel manifestPin weightPin : Str)
    (found : Except NetError (LocalStore.World × LocalStore.Reader)) :
    Moves (Sends A) (storeAnswer (W := W) env upstreamModel manifestPin weightPin found) := by
  rcases found with e | ⟨disk, reader⟩
  · cases e <;> exact Moves.throw _
  · rw [storeAnswer]
    rcases LocalStore.verifyStoreBytes disk upstreamModel manifestPin weightPin _ reader with
      ⟨report, _⟩ | ⟨_ | _, _⟩
    · exact Moves.pure _
    · exact Moves.throw _
    · exact Moves.throw _

theorem observeStoreBytes_sends (env : Env) (p : ProviderRecord) (publicModel : Str) :
    Moves (Sends A) (observeStoreBytes N env p publicModel) := by
  refine (item_sends _ _).bind fun upstreamModel => (item_sends _ _).bind fun manifestPin =>
    (item_sends _ _).bind fun weightPin => ?_
  intro s
  -- the read itself sends nothing
  have hstill : Sends A s { s with world := (N.store s.world).2 } := Adds.refl _ _
  exact (storeAnswer_sends env upstreamModel manifestPin weightPin (N.store s.world).1 _).mono
    (fun _ _ h => trans_of (Sends A) hstill h) fun _ _ h => trans_of (Sends A) hstill h

theorem storeCheck_sends (env : Env) (p : ProviderRecord) (publicModel : Str) :
    Moves (Sends A) (storeCheck N env p publicModel) :=
  Moves.ite (fun _ => (observeStoreBytes_sends N env p publicModel).bind fun _ => Moves.pure _)
    fun _ => Moves.pure _

/-- The requests that an attempt may make. -/
inductive Addressed (env : Env) (p : ProviderRecord) (payload : Dict) : Outbound → Prop
  | inventory (kind : Str) (loopback : p.providerType = .ollamaLoopback)
      (known : kind ∈ [lit "tags", lit "ps"]) :
      Addressed env p payload ⟨.get, inventoryUrl kind, none, none⟩
  | completion (token : p.providerType = .openaiHttps → providerToken env p ≠ []) :
      Addressed env p payload (completionRequest env p payload)

theorem callProvider_sends (env : Env) (p : ProviderRecord) (payload : Dict) :
    Moves (Sends (Addressed env p payload)) (callProvider N env p payload) := by
  refine Moves.ite (fun _ => Moves.throw _) fun htoken => ?_
  refine (stream_sends N (.completion fun htype hnil => htoken ⟨htype, hnil⟩)).bind ?_
  rintro ⟨status, chunks, broken⟩
  dsimp only
  cases collect MAX_RESPONSE_BYTES 0 chunks with
  | none => exact Moves.throw _
  | some raw =>
    cases broken with
    | some e => exact Moves.throw _
    | none =>
      refine Moves.ite (fun _ => Moves.throw _) fun _ => ?_
      cases parseCompletion raw with
      | none => exact Moves.throw _
      | some value => exact Moves.pure _

theorem completion_sends (env : Env) (p : ProviderRecord) (r : ChatRequest) (upstreamModel : Str) :
    Moves (Sends (Addressed env p (upstreamPayload r upstreamModel)))
      (completion N env p r upstreamModel) := by
  refine (callProvider_sends N env p _).bind ?_
  rintro ⟨upstream, status⟩
  dsimp only
  cases validateCompletion (.obj upstream) with
  | ok u => exact Moves.pure _
  | error message => exact Moves.throw _

/-- **The requests of an attempt are for its provider**, however it ends. They are the exchange
with the model and, for a local daemon, those that witness its identity before and after. -/
theorem attempt_sends (env : Env) (p : ProviderRecord) (r : ChatRequest) (upstreamModel : Str) :
    Moves (Sends (Addressed env p (upstreamPayload r upstreamModel)))
      (attemptCandidate N env p r upstreamModel) := by
  rw [attemptCandidate]
  cases htype : p.providerType with
  | openaiHttps => exact (completion_sends N env p r upstreamModel).bind fun _ => Moves.pure _
  | ollamaLoopback =>
    have hinventory : ∀ kind ∈ [lit "tags", lit "ps"],
        Addressed env p (upstreamPayload r upstreamModel) ⟨.get, inventoryUrl kind, none, none⟩ :=
      fun kind hkind => .inventory kind htype hkind
    have hassert := fun after => assertOllamaIdentity_sends N p r.model after
      (hinventory _ (by simp)) (hinventory _ (by simp))
    exact (hassert false).bind fun _ => (storeCheck_sends N env p r.model).bind fun _ =>
      (completion_sends N env p r upstreamModel).bind fun _ =>
        Moves.ite (fun _ => Moves.throw _) fun _ => (hassert true).bind fun _ =>
          (item_sends _ _).bind fun _ => Moves.pure _

/-- An attempt as the loop sees it: its outcome, and what its procedure left. -/
theorem runtime_attempt (env : Env) (p : ProviderRecord) (r : ChatRequest) (model : Str)
    (timeout : Binary64) (s : Net W) :
    ((N.runtime env).attempt p r model timeout s).2 = final (attemptCandidate N env p r model s) ∧
      ∀ upstream status identity,
        ((N.runtime env).attempt p r model timeout s).1 = .success upstream status identity →
        ∃ t, attemptCandidate N env p r model s = .ok (upstream, status, identity) t := by
  simp only [Wire.runtime]
  rcases attemptCandidate N env p r model s with ⟨⟨upstream, status, identity⟩, t⟩ | ⟨e, t⟩
  · refine ⟨rfl, fun upstream' status' identity' h => ?_⟩
    obtain ⟨rfl, rfl, rfl⟩ := Outcome.success.inj h
    exact ⟨t, rfl⟩
  · refine ⟨rfl, fun upstream' status' identity' h => ?_⟩
    -- no exception of the attempt is an answer
    cases e with
    | net e => cases e <;> cases h
    | identity state => cases h
    | status code => cases h

end

/-! ### Runs -/

namespace Call

section

variable {W : Type} {T : W → W → Prop} [IsPreorder W T] {C : Call} {R : Runtime W}

theorem settle_moves (hclock : ∀ w, T w (R.monotonic w).2) (rows : List Row) (c : Candidate)
    (p : ProviderRecord) (remaining : Binary64) (outcome : Outcome) (w : W) :
    T w (C.settle R rows c p remaining outcome w).2.2 := by
  cases outcome with
  | success upstream status identity =>
    rw [settle]
    dsimp only
    cases C.complete rows c upstream status identity (C.elapsedMs (R.monotonic w).1) with
    | error name => exact hclock w
    | ok reply => exact hclock w
  | wallTimeout =>
    -- the clock is read once more at most
    have hread : T w (if remaining ≤ MAX_TIMEOUT_SECONDS then (true, w)
        else (decide (C.deadline ≤ (R.monotonic w).1), (R.monotonic w).2)).2 := by
      split_ifs
      · exact refl_of T w
      · exact hclock w
    rw [settle]
    dsimp only
    revert hread
    generalize (if remaining ≤ MAX_TIMEOUT_SECONDS then (true, w)
      else (decide (C.deadline ≤ (R.monotonic w).1), (R.monotonic w).2)) = read
    intro hread
    split_ifs <;> exact hread
  | modelIdentity state | httpTimeout | httpStatus status | failed name | crashed name =>
    exact refl_of T w

theorem turn_moves (hclock : ∀ w, T w (R.monotonic w).2) {c : Candidate}
    (hattempt : ∀ p, providerById C.settings c.providerId = some p → ∀ timeout w,
      T w (R.attempt p C.request c.upstreamModel timeout w).2) (rows : List Row) (w : W) :
    T w (C.turn R c rows w).world := by
  rw [turn]
  cases hp : providerById C.settings c.providerId with
  | none => exact refl_of T w
  | some p =>
    dsimp only
    split_ifs
    · exact hclock w
    · exact hclock w
    · exact trans_of T (trans_of T (hclock w) (hattempt p hp _ _))
        (settle_moves hclock rows c p _ _ _)

/-- What the clock and the attempts keep, a run keeps: by induction on the candidates. The
attempts of the hypothesis are those for a candidate of the list under the provider of its id. -/
theorem routeLoop_moves (hclock : ∀ w, T w (R.monotonic w).2) {cs : List Candidate}
    (hattempt : ∀ c ∈ cs, ∀ p, providerById C.settings c.providerId = some p → ∀ timeout w,
      T w (R.attempt p C.request c.upstreamModel timeout w).2) (rows : List Row) (w : W) :
    T w (C.routeLoop R cs rows w).world := by
  induction cs generalizing rows w with
  | nil => exact refl_of T w
  | cons c cs ih =>
    have hturn := turn_moves hclock (hattempt c List.mem_cons_self) rows w
    rw [routeLoop]
    dsimp only
    split
    · exact trans_of T hturn (ih (fun c' hc' => hattempt c' (List.mem_cons_of_mem _ hc')) _ _)
    · exact hturn
    · exact hturn

end

end Call

/-! ### Calls -/

/-- A request to the local daemon: one of its inventories, or this completion. -/
def ToDaemon (payload : Dict) (o : Outbound) : Prop :=
  o ∈ [⟨.get, lit "http://127.0.0.1:11434/api/tags", none, none⟩,
    ⟨.get, lit "http://127.0.0.1:11434/api/ps", none, none⟩,
    ⟨.post, lit "http://127.0.0.1:11434/v1/chat/completions", none, some payload⟩]

/-- A request for this completion to an approved host, with the token of the provider's own
variable; a host without delimiters is the host that is read in the URL. -/
structure ToHost (T : UrlTables) (hosts : List Str) (env : Env) (p : ProviderRecord)
    (payload : Dict) (o : Outbound) : Prop where
  method : o.method = .post
  payload : o.payload = some payload
  token : ∃ name, p.tokenEnv = some name ∧ env.getD name ≠ [] ∧
    o.authorization = some (lit "Bearer " ++ env.getD name)
  url : ∃ host path, Approved hosts host path ∧
    o.url = Str.rstrip (lit "https://" ++ host ++ path) (chr '/') ++ lit "/chat/completions" ∧
    (SplitUrl.PlainNetloc host →
      ∃ path', SplitUrl.urlsplit T o.url = some ⟨lit "https", host, path', [], []⟩)

/-- A request that every gate let through: the configuration was validated, egress was enabled,
the caller was authorized, and the provider is one of the registry that serves the request. -/
structure Confined (L : Lax) (T : UrlTables) (env : Env) (request : ChatRequest) (received : Str)
    (o : Outbound) : Prop where
  validated : (loadSettings L T env).configState = .validated
  egress : enabled env (lit "SZL_ROUTER_ENABLE_EGRESS") = true
  caller : callerToken env ≠ [] ∧ received = lit "Bearer " ++ callerToken env
  provider : ∃ p ∈ (loadSettings L T env).registry.providers, p.enabled = true ∧
    request.dataClassification ∈ p.classifications ∧ p.costTier ≤ request.maxCostTier ∧
    (∀ id ∈ request.requiredProviderId, p.id = id) ∧
    ∃ m, Dict.get p.models request.model = some m ∧ m ≠ [] ∧
      match p.providerType with
      | .ollamaLoopback => ToDaemon (upstreamPayload request m) o
      | .openaiHttps => ToHost T (parseAllowedHosts T env) env p (upstreamPayload request m) o

/-- What a list is mapped to comes from its elements. -/
theorem mem_of_mapM {α β : Type} {f : α → Option β} {xs : List α} {ys : List β}
    (h : xs.mapM f = some ys) {y : β} (hy : y ∈ ys) : ∃ x ∈ xs, f x = some y := by
  induction xs generalizing ys with
  | nil =>
    obtain rfl := Option.some.inj h
    exact absurd hy List.not_mem_nil
  | cons x xs ih =>
    rw [List.mapM_cons] at h
    obtain ⟨z, hz, h⟩ := Option.bind_eq_some_iff.mp h
    obtain ⟨zs, hzs, h⟩ := Option.bind_eq_some_iff.mp h
    obtain rfl := Option.some.inj h
    rcases List.mem_cons.mp hy with rfl | hmem
    · exact ⟨x, List.mem_cons_self, hz⟩
    · obtain ⟨x', hx', heq⟩ := ih hzs hmem
      exact ⟨x', List.mem_cons_of_mem _ hx', heq⟩

/-- A provider of the settings is local, or its base URL was checked. -/
theorem baseUrl_of_mem {L : Lax} {T : UrlTables} {env : Env} {p : ProviderRecord}
    (hmem : p ∈ (loadSettings L T env).registry.providers) :
    (loadSettings L T env).configState = .validated ∧
      (p.providerType = .openaiHttps → ∃ host path, Approved (parseAllowedHosts T env) host path ∧
        p.baseUrl = some (lit "https://" ++ host ++ path)) := by
  rcases loadSettings_cases L T env with ⟨_, hempty⟩ | ⟨hvalid, hload⟩ | ⟨_, hempty, _⟩
  · rw [hempty] at hmem
    exact absurd hmem List.not_mem_nil
  · refine ⟨hvalid, fun htype => ?_⟩
    rw [loadRegistry] at hload
    obtain ⟨parsed, -, hload⟩ := Option.bind_eq_some_iff.mp hload
    obtain ⟨registry, -, hload⟩ := Option.bind_eq_some_iff.mp hload
    split at hload
    · cases hload
    · rename_i normalized hnormalized
      rw [Registry.ofProviders] at hload
      split_ifs at hload
      rw [← Option.some.inj hload] at hmem
      -- each provider of the registry is a normalised one
      obtain ⟨q, -, hq⟩ := mem_of_mapM hnormalized hmem
      rcases normalizeProvider_eq_some hq with ⟨hlocal, rfl⟩ | ⟨_, url, hurl, rfl⟩
      · cases hlocal.symm.trans htype
      · obtain ⟨host, path, happroved, rfl⟩ := validateBaseUrl_eq_some hurl
        exact ⟨host, path, happroved, rfl⟩
  · rw [hempty] at hmem
    exact absurd hmem List.not_mem_nil

/-- Egress is on when the environment says so. -/
theorem enabled_of_egressEnabled {L : Lax} {T : UrlTables} {env : Env}
    (h : (loadSettings L T env).egressEnabled = true) :
    enabled env (lit "SZL_ROUTER_ENABLE_EGRESS") = true := by
  rw [loadSettings] at h
  split_ifs at h
  · exact h
  · cases hload : loadRegistry L T env (parseAllowedHosts T env)
        (Str.strip (env.getD (lit "SZL_ROUTER_PROVIDERS_JSON"))) with
    | none => rw [hload] at h; cases h
    | some registry => rw [hload] at h; exact h

/-- The token of an authorised caller is the configured one. -/
theorem received_eq {env : Env} {received : Str} (h : checkCallerAuth env received = none) :
    callerToken env ≠ [] ∧ received = lit "Bearer " ++ callerToken env := by
  rw [checkCallerAuth] at h
  split_ifs at h with htoken
  refine ⟨htoken, ?_⟩
  cases hsent : utf8 received with
  | none => rw [hsent] at h; cases h
  | some sent =>
    cases hexpected : utf8 (lit "Bearer " ++ callerToken env) with
    | none => rw [hsent, hexpected] at h; cases h
    | some expected =>
      rw [hsent, hexpected] at h
      dsimp only at h
      split_ifs at h with heq
      exact utf8_injective (hsent.trans (congrArg some heq)) hexpected

/-- What an attempt may send to its provider is confined. -/
theorem Addressed.provider {L : Lax} {T : UrlTables} {env : Env} {p : ProviderRecord}
    {payload : Dict} {o : Outbound} (h : Addressed env p payload o)
    (hmem : p ∈ (loadSettings L T env).registry.providers) :
    match p.providerType with
    | .ollamaLoopback => ToDaemon payload o
    | .openaiHttps => ToHost T (parseAllowedHosts T env) env p payload o := by
  have hvalid := (loadSettings L T env).registry.valid p hmem
  cases htype : p.providerType with
  | ollamaLoopback =>
    cases h with
    | inventory kind _ hkind =>
      rcases List.mem_pair.mp hkind with rfl | rfl
      · exact List.mem_cons_self
      · exact List.mem_cons_of_mem _ List.mem_cons_self
    | completion _ =>
      -- a local provider names no variable, so there is no token
      have htoken : providerToken env p = [] := by rw [providerToken, (hvalid.loopback htype).2]
      have hrequest : completionRequest env p payload =
          ⟨.post, lit "http://127.0.0.1:11434/v1/chat/completions", none, some payload⟩ := by
        rw [completionRequest, htoken, if_pos rfl, completionsUrl, htype]
        rfl
      rw [hrequest]
      simp [ToDaemon]
  | openaiHttps =>
    cases h with
    | inventory _ hlocal _ => cases hlocal.symm.trans htype
    | completion htoken =>
      have htoken := htoken htype
      obtain ⟨host, path, happroved, hbase⟩ := (baseUrl_of_mem hmem).2 htype
      have hurl : completionsUrl p =
          Str.rstrip (lit "https://" ++ host ++ path) (chr '/') ++ lit "/chat/completions" := by
        rw [completionsUrl, htype, hbase]
        rfl
      refine ⟨rfl, rfl, ?_, host, path, happroved, hurl, fun hplain => ?_⟩
      · rw [providerToken] at htoken
        cases hname : p.tokenEnv with
        | none => rw [hname] at htoken; exact absurd rfl htoken
        | some name =>
          rw [hname] at htoken
          dsimp only at htoken
          split_ifs at htoken with hnil
          · exact absurd rfl htoken
          · have hread : providerToken env p = env.getD name := by
              rw [providerToken, hname]
              exact if_neg hnil
            refine ⟨name, rfl, htoken, ?_⟩
            rw [completionRequest, hread]
            exact if_neg htoken
      · obtain ⟨path', hpath'⟩ := happroved.completions hplain T
        exact ⟨path', (congrArg (SplitUrl.urlsplit T) hurl).trans hpath'⟩

/-- **Egress is confined**: every request that a call makes, whatever the wire answers, is one
that the configuration and the caller allow, to the local daemon without a credential or to an
approved host with the credential of its provider. -/
theorem egress_confined {W : Type} (N : Wire W) (L : Lax) (T : UrlTables) (env : Env)
    (request : ChatRequest) (received : Str) (w : W) :
    ∀ x ∈ (chat L T (N.runtime env) env request received ⟨w, []⟩).world.exchanges,
      Confined L T env request received x.sent := by
  rw [chat]
  rcases chatWith_cases (N.runtime env) (loadSettings L T env) env request received ⟨w, []⟩ with
    ⟨plan, digest, hadmitted⟩ | ⟨reply, hidle⟩
  · rw [hadmitted.chatWith_eq]
    have hclock : ∀ s : Net W, Sends (Confined L T env request received) s
        ((N.runtime env).monotonic s).2 := fun s => Adds.refl _ _
    refine Adds.forall (Call.routeLoop_moves (T := Sends (Confined L T env request received))
      (C := ⟨loadSettings L T env, env, request, digest, plan.digest,
        ((N.runtime env).monotonic ⟨w, []⟩).1⟩) hclock ?_ [] ((N.runtime env).monotonic ⟨w, []⟩).2)
    · intro c hc p hp timeout s
      obtain ⟨plan', hplan', hcandidates⟩ :=
        plan_total (loadSettings L T env) env request.planRequest
      obtain rfl := Except.ok.inj (hadmitted.planned.symm.trans hplan')
      rw [hcandidates] at hc
      obtain ⟨q, hmem, heligible, rfl⟩ := mem_routeCandidates.mp hc
      -- the provider looked up by its id is the one whose row this is
      obtain rfl : q = p := Option.some.inj
        ((providerById_eq_some.mpr ⟨hmem, rfl⟩ : providerById _ q.id = some q).symm.trans hp)
      simp only [eligible, decide_eq_true_eq] at heligible
      obtain ⟨hid, henabled, hmodel, hclass, hcost⟩ := heligible
      obtain ⟨m, hm⟩ := Option.ne_none_iff_exists'.mp hmodel
      have hupstream : (candidate env request.planRequest q).upstreamModel = m :=
        congrArg (Option.getD · []) hm
      rw [upstreamModel, Option.filter_eq_some_iff] at hm
      have hsends := (attempt_sends N env q request
        (candidate env request.planRequest q).upstreamModel).final s
      rw [(runtime_attempt N env q request _ timeout s).1]
      refine Adds.mono hsends fun x hx => ?_
      rw [hupstream] at hx
      exact ⟨(baseUrl_of_mem hmem).1, enabled_of_egressEnabled hadmitted.egress,
        received_eq hadmitted.auth, q, hmem, henabled, hclass, hcost, hid, m, hm.1,
        by simpa using hm.2, hx.provider hmem⟩
  · rw [hidle]
    exact List.forall_mem_nil _

/-- A wire on which no connection is made. -/
def Wire.silent : Wire Unit where
  monotonic w := (0, w)
  stream _ w := (.raised (.http (lit "ConnectError")), w)
  store w := (.error .elapsed, w)

/-- One local provider, a caller token and egress. -/
def daemonEnv : Env := fun name =>
  if name = lit "SZL_ROUTER_PROVIDERS_JSON" then
    some (lit "\x7b\"providers\": [\x7b\"id\": \"local\", \"enabled\": true, " ++
      lit "\"provider_type\": \"ollama_loopback\", " ++
      lit "\"models\": \x7b\"chat\": \"llama3:8b\"\x7d, \"model_digests\": \x7b\"chat\": " ++
      lit "\"ba7816bf8f01cfea414140de5dae2223" ++
      lit "b00361a396177a9cb410ff61f20015ad\"\x7d\x7d]\x7d")
  else if name = lit "SZL_ROUTER_ENABLE_EGRESS" then some (lit "1")
  else if name = lit "SZL_ROUTER_TOKEN" then some (lit "secret")
  else none

set_option maxRecDepth 100000 in
theorem asked_silent :
    (chat Lax.plain asciiTables (Wire.silent.runtime daemonEnv) daemonEnv hello
      (bearer daemonEnv) ⟨(), []⟩).world.exchanges.map (fun x => x.sent.url) =
    [lit "http://127.0.0.1:11434/api/tags"] := by
  decide +kernel

/-- With one local provider the daemon is asked for its models. -/
theorem egress_confined_daemon : ∃ o : Outbound, o.url = lit "http://127.0.0.1:11434/api/tags" ∧
    Confined Lax.plain asciiTables daemonEnv hello (bearer daemonEnv) o := by
  obtain ⟨x, hx, hurl⟩ : ∃ x ∈ (chat Lax.plain asciiTables (Wire.silent.runtime daemonEnv)
      daemonEnv hello (bearer daemonEnv) ⟨(), []⟩).world.exchanges,
      x.sent.url = lit "http://127.0.0.1:11434/api/tags" :=
    List.mem_map.mp (asked_silent ▸ List.mem_singleton_self _)
  exact ⟨x.sent, hurl, egress_confined Wire.silent Lax.plain asciiTables daemonEnv hello
    (bearer daemonEnv) () x hx⟩

end Gateway

end SzlRouter
