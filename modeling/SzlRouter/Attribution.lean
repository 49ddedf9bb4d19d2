/-
Whom a call talks to, and what its answer says about them.

A walk posts only to sovereign providers of its routes, in their order, and an
answer names the route of the post that its body came from.

* `postWithRetry_posts`, `tryRoute_posts` — the retries post one payload to one
  provider, and a body that is returned is the reply to the last post;
* `InOrder.extend` — a trace that follows a list of routes can go on at its end;
* `qualified_and_attributed` — the posts, the uses of the cache and the
  provenance of whole calls.
-/
import SzlRouter.Chat
import SzlRouter.Embed
import SzlRouter.JsonRoundTrip

open Py

namespace SzlRouter

/-! ### The posts of a try -/

theorem posts_append (events events' : List Event) :
    posts (events ++ events') = posts events ++ posts events' :=
  List.filterMap_append ..

/-- A post of the payload to the provider, under an environment of the call. -/
structure PostedBy (S : Surroundings) (poster : Poster) (provider : Provider) (payload : Dict)
    (p : Post) : Prop where
  provider_eq : p.provider = provider
  payload_eq : p.payload = payload
  request_eq : ∃ tick, p.request = poster.request provider (S.env tick) payload

/-- Between two states only such posts were made. What a call posts is read off its events, so
nothing that goes to a provider is missed. -/
def Posted (S : Surroundings) (poster : Poster) (provider : Provider) (payload : Dict)
    (s s' : CallState) : Prop :=
  ∃ new, posts s'.events = posts s.events ++ new ∧ ∀ p ∈ new, PostedBy S poster provider payload p

/-- Between two states only such posts were made, and the last one was answered with `v`. An
answer is thus told apart from the failures before it by its place alone. -/
def Answered (S : Surroundings) (poster : Poster) (provider : Provider) (payload : Dict)
    (v : Parsed) (s s' : CallState) : Prop :=
  ∃ new p, posts s'.events = posts s.events ++ (new ++ [p]) ∧
    (∀ q ∈ new ++ [p], PostedBy S poster provider payload q) ∧ p.reply = .json v

section

variable {S : Surroundings} {poster : Poster} {provider : Provider} {payload : Dict}
  {v : Parsed} {s s' s'' : CallState}

theorem Posted.of_events (h : posts s'.events = posts s.events) :
    Posted S poster provider payload s s' :=
  ⟨[], by rw [h, List.append_nil], by simp⟩

theorem Posted.trans (h : Posted S poster provider payload s s')
    (h' : Posted S poster provider payload s' s'') : Posted S poster provider payload s s'' := by
  obtain ⟨new, hnew, hby⟩ := h
  obtain ⟨new', hnew', hby'⟩ := h'
  refine ⟨new ++ new', by rw [hnew', hnew, List.append_assoc], ?_⟩
  intro p hp
  rcases List.mem_append.mp hp with hp | hp
  · exact hby p hp
  · exact hby' p hp

theorem Answered.posted (h : Answered S poster provider payload v s s') :
    Posted S poster provider payload s s' := by
  obtain ⟨new, p, hnew, hby, _⟩ := h
  exact ⟨new ++ [p], hnew, hby⟩

theorem Posted.answered (h : Posted S poster provider payload s s')
    (h' : Answered S poster provider payload v s' s'') :
    Answered S poster provider payload v s s'' := by
  obtain ⟨new, hnew, hby⟩ := h
  obtain ⟨new', p, hnew', hby', hreply⟩ := h'
  refine ⟨new ++ new', p, by rw [hnew', hnew, List.append_assoc, List.append_assoc], ?_, hreply⟩
  intro q hq
  rw [List.append_assoc] at hq
  rcases List.mem_append.mp hq with hq | hq
  · exact hby q hq
  · exact hby' q hq

theorem Answered.of_events (h : Answered S poster provider payload v s s')
    (he : posts s''.events = posts s'.events) : Answered S poster provider payload v s s'' := by
  obtain ⟨new, p, hnew, hrest⟩ := h
  exact ⟨new, p, he.trans hnew, hrest⟩

/-- Only a JSON reply ends the retries with a result. -/
theorem Reply.turn_returns {reply : Reply} (h : reply.turn = .returns v) : reply = .json v := by
  unfold Reply.turn at h
  split at h
  · rw [Turn.returns.inj h]
  · split_ifs at h
  · cases h
  · cases h

variable (S poster provider payload)

/-- Sending is one post, with the reply that came back. -/
theorem send_posts (timeout : Binary64) (s : CallState) :
    match S.send poster provider payload timeout s with
    | (.json v, s') => Answered S poster provider payload v s s'
    | (_, s') => Posted S poster provider payload s s' := by
  have hby : ∀ reply : Reply, PostedBy S poster provider payload
      ⟨provider, payload, timeout, poster.request provider (S.env s.tick) payload, reply⟩ :=
    fun _ => ⟨rfl, rfl, s.tick, rfl⟩
  have hposts : ∀ p : Post, posts (s.log (.post p)).events = posts s.events ++ [p] := by
    intro p
    rw [CallState.log, posts_append]
    rfl
  rw [Surroundings.send]
  generalize hreply : (if (poster.request provider (S.env s.tick) payload).isSome then
    S.reply s.tick else .failed digitsError) = reply
  -- the one post carries the payload, whatever it is answered
  cases reply with
  | json v =>
    refine ⟨[], _, hposts _, ?_, rfl⟩
    intro p hp
    rw [List.nil_append, List.mem_singleton] at hp
    rw [hp]
    exact hby _
  | failed e =>
    refine ⟨_, hposts _, ?_⟩
    intro p hp
    rw [List.mem_singleton.mp hp]
    exact hby _

/-- Noting a reply posts nothing, and keeps what the reply says. -/
theorem noteReply_events (attempt : ℕ) (started : Binary64) (reply : Reply) (b : RequestBudget)
    (s : CallState) :
    (noteReply S provider payload attempt started reply b s).2.2.events = s.events ∧
      ∀ t, (noteReply S provider payload attempt started reply b s).1 = .ok t → t = reply.turn := by
  rw [noteReply]
  rcases (S.budgetAt b s.tick).noteOutcome attempt reply.outcome with ⟨b', _ | _⟩
  · exact ⟨rfl, by simp⟩
  · dsimp only [Surroundings.readClock]
    split_ifs
    · constructor
      · rfl
      · intro t ht
        exact (Except.ok.inj ht).symm
    · exact ⟨rfl, by simp⟩

/-- A dispatch posts at most once. -/
theorem dispatch_posts (attempt : ℕ) (t : Binary64) (b : RequestBudget) (s : CallState) :
    match dispatch S poster provider payload attempt t b s with
    | (.ok (.returns v), _, s') => Answered S poster provider payload v s s'
    | (_, _, s') => Posted S poster provider payload s s' := by
  rw [dispatch, Surroundings.readClock]
  split_ifs
  · have hsend := send_posts S poster provider payload t s.next
    dsimp only
    revert hsend
    generalize S.send poster provider payload t s.next = sent
    obtain ⟨reply, s'⟩ := sent
    intro hsend
    -- what is noted of the reply adds no post
    obtain ⟨hevents, hturn⟩ := noteReply_events S provider payload attempt (S.clock s.tick) reply
      b s'
    revert hevents hturn
    generalize noteReply S provider payload attempt (S.clock s.tick) reply b s' = noted
    obtain ⟨r, b', s''⟩ := noted
    intro hevents hturn
    have hposts := congrArg posts hevents
    have hposted : Posted S poster provider payload s s'' := by
      cases reply with
      | json v => exact (Answered.posted hsend).trans (.of_events hposts)
      | failed e => exact Posted.trans hsend (.of_events hposts)
    rcases r with e | v | e | e
    · exact hposted
    · obtain rfl := Reply.turn_returns (hturn _ rfl).symm
      exact Answered.of_events hsend hposts
    · exact hposted
    · exact hposted
  -- the budget refused, and nothing was posted
  · exact .of_events rfl

theorem turn_posts (b : RequestBudget) (s : CallState) (t : Binary64) :
    match turn S poster provider payload b s t with
    | (.ok (.returns v), _, s') => Answered S poster provider payload v s s'
    | (_, _, s') => Posted S poster provider payload s s' := by
  rw [turn]
  generalize hs' : s.log (.reserved _) = s'
  have hposts : posts s'.events = posts s.events := by
    rw [← hs', CallState.log, posts_append]
    exact List.append_nil _
  have hstart : Posted S poster provider payload s s' := .of_events hposts
  have hdispatch := dispatch_posts S poster provider payload
    ((S.budgetAt b s.tick).reserved + 1) t ((S.budgetAt b s.tick).commit t).1 s'
  revert hdispatch
  rcases dispatch S poster provider payload _ t _ s' with ⟨e | v | e | e, b', s''⟩
  · exact hstart.trans
  · exact hstart.answered
  · exact hstart.trans
  · exact hstart.trans

theorem backoff_posts (cfg : RetryConfig) (n : ℕ) (e : Failure) (b : RequestBudget)
    (s : CallState) : posts (backoff S cfg n e b s).2.2.events = posts s.events := by
  rw [backoff]
  rcases backoffSleepSeconds cfg (n - 1) (S.uniform s.tick) with _ | delay
  · rfl
  · dsimp only
    rcases (S.budgetAt b s.tick).allowBackoff delay (S.clock s.tick) with ⟨b', _ | _ | _⟩
    · rfl
    · rfl
    · show posts (s.next.events ++ _) = posts s.events
      rw [posts_append]
      exact List.append_nil _

/-- The retries post one payload to one provider, and return the reply to the last post. This is
where an answer gets its origin: nothing between here and the caller replaces the reply. -/
theorem postWithRetry_posts (cfg : RetryConfig) (timeout : Binary64) (s : CallState) :
    match postWithRetry S cfg poster provider payload timeout s with
    | (.ok v, s') => Answered S poster provider payload v s s'
    | (.error _, s') => Posted S poster provider payload s s' := by
  rw [postWithRetry]
  cases s.budget with
  | none =>
    -- without a budget a turn is one post, and a pause posts nothing
    have hloop := unbudgetedLoop_invariant S cfg poster provider payload timeout
      (P := Posted S poster provider payload s)
      (R := fun v => Answered S poster provider payload v s)
      (fun s' h => by
        have hsend := send_posts S poster provider payload timeout s'
        revert hsend
        rcases S.send poster provider payload timeout s' with ⟨v | e, s''⟩
        · exact h.answered
        · exact h.trans)
      (fun s' delay h => h.trans (.of_events (by
        rw [CallState.log, posts_append]
        exact List.append_nil _)))
      cfg.maxAttempts.toNat 0 s (.of_events rfl)
    dsimp only
    revert hloop
    rcases unbudgetedLoop S cfg poster provider payload timeout cfg.maxAttempts.toNat 0 s with
      ⟨_ | _, s'⟩ <;> exact id
  | some b =>
    -- with a budget the posts go on from those of the turns before
    have hloop := budgetedLoop_invariant S cfg poster provider payload timeout
      (P := fun _ => Posted S poster provider payload s)
      (R := fun v _ => Answered S poster provider payload v s)
      (fun b s' reason h => h)
      (fun b s' t h _ => by
        have hturn := turn_posts S poster provider payload b s' t
        revert hturn
        rcases turn S poster provider payload b s' t with ⟨e | v | e | e, b', s''⟩
        · exact h.trans
        · exact h.answered
        · exact h.trans
        · exact h.trans)
      (fun n e b s' h => h.trans (.of_events (backoff_posts S cfg n e b s')))
      budgetFuel none b s (.of_events rfl)
    dsimp only
    revert hloop
    rcases budgetedLoop S cfg poster provider payload timeout budgetFuel none b s with
      ⟨_ | _, b', s'⟩ <;> exact id

/-- A try posts one payload to one provider, and serves the reply to the last post. What is
served has passed the check of its endpoint, and is the object that was parsed from that reply.
-/
theorem tryRoute_posts (cfg : RetryConfig) (route : Route) (timeout : Binary64)
    (check : Json → Option String) (s : CallState) :
    Posted S poster provider payload s
        (tryRoute S cfg poster route provider payload timeout check s).2 ∧
      ∀ result, (tryRoute S cfg poster route provider payload timeout check s).1 = .served result →
        ∃ v : Parsed, check v.val = none ∧ result = fields v.val ∧
          Answered S poster provider payload v s
            (tryRoute S cfg poster route provider payload timeout check s).2 := by
  have hpost := postWithRetry_posts S poster provider payload cfg timeout s.next
  rw [tryRoute]
  revert hpost
  generalize postWithRetry S cfg poster provider payload timeout s.next = r
  obtain ⟨(_ | e | _) | v, s'⟩ := r
  · exact fun hposted => ⟨hposted, by simp⟩
  · intro hposted
    dsimp only
    split_ifs
    · exact ⟨hposted.trans (.of_events rfl), by simp⟩
    · exact ⟨hposted.trans (.of_events rfl), by simp⟩
  · exact fun hposted => ⟨hposted, by simp⟩
  · intro hanswered
    have hposted : Posted S poster provider payload s s' := Answered.posted hanswered
    dsimp only
    -- a result that parsed is checked, and only one that passes is served
    cases hcheck : check v.val with
    | some detail =>
      have hevents : (rejectRow route detail (elapsedMs (S.time s'.tick) (S.time s.tick))
          s'.next).events = s'.events := by
        rw [rejectRow]
        split_ifs <;> rfl
      exact ⟨hposted.trans (.of_events (congrArg posts hevents)), by simp⟩
    | none =>
      have hevents : (acceptRow route (elapsedMs (S.time s'.tick) (S.time s.tick))
          s'.next).events = s'.events := by
        rw [acceptRow]
        split_ifs <;> rfl
      refine ⟨hposted.trans (.of_events (congrArg posts hevents)), ?_⟩
      intro result hresult
      obtain rfl := RouteEnd.served.inj hresult
      exact ⟨v, hcheck, rfl, Answered.of_events hanswered (congrArg posts hevents)⟩

end

/-! ### Traces that follow a list of routes -/

/-- The elements come in groups, one for each of some members of `seen`, in its order. A member
may have no group, as a route that is skipped has no posts. -/
def InOrder {α β : Type} (allowed : α → β → Prop) (seen : List α) (bs : List β) : Prop :=
  ∃ groups : List (α × List β), (groups.map Prod.fst).Sublist seen ∧
    bs = groups.flatMap Prod.snd ∧ ∀ g ∈ groups, ∀ b ∈ g.2, allowed g.1 b

namespace InOrder

variable {α β : Type} {allowed : α → β → Prop} {seen seen' : List α} {bs : List β}

theorem nil : InOrder allowed seen [] := ⟨[], List.nil_sublist _, rfl, by simp⟩

theorem mono (h : InOrder allowed seen bs) (hseen : seen.Sublist seen') :
    InOrder allowed seen' bs := by
  obtain ⟨groups, hsub, hrest⟩ := h
  exact ⟨groups, hsub.trans hseen, hrest⟩

/-- A trace can go on at the last member that was seen, whether or not it has a group. -/
theorem extend {a : α} {new : List β} (h : InOrder allowed (seen ++ [a]) bs)
    (hnew : ∀ b ∈ new, allowed a b) : InOrder allowed (seen ++ [a]) (bs ++ new) := by
  obtain ⟨groups, hsub, rfl, hallowed⟩ := h
  obtain ⟨front, back, hsplit, hfront, hback⟩ := List.sublist_append_iff.mp hsub
  obtain ⟨gs, hs, rfl, rfl, rfl⟩ := List.map_eq_append_iff.mp hsplit
  -- the group of `a`, if there is one, is among `hs`
  refine ⟨gs ++ [(a, hs.flatMap Prod.snd ++ new)], ?_, by simp, ?_⟩
  · rw [List.map_append]
    exact hfront.append (List.Sublist.refl _)
  · intro g hg b hb
    rcases List.mem_append.mp hg with hg | hg
    · exact hallowed g (List.mem_append_left _ hg) b hb
    · obtain rfl := List.mem_singleton.mp hg
      rcases List.mem_append.mp hb with hb | hb
      · obtain ⟨g, hg, hb⟩ := List.mem_flatMap.mp hb
        have hga : g.1 = a := List.mem_singleton.mp (hback.subset (List.mem_map_of_mem hg))
        exact hga ▸ hallowed g (List.mem_append_right _ hg) b hb
      · exact hnew b hb

/-- A new member of the list may have a group. -/
theorem snoc {a : α} {new : List β} (h : InOrder allowed seen bs)
    (hnew : ∀ b ∈ new, allowed a b) : InOrder allowed (seen ++ [a]) (bs ++ new) :=
  (h.mono (List.sublist_append_left _ _)).extend hnew

end InOrder

/-! ### What the posts and the answer of a route are -/

/-- A post for a route: its provider is sovereign and was available, and the payload and
the request are those of the route. -/
structure PostFor (S : Surroundings) (poster : Poster) (route : Route) (provider : Provider)
    (p : Post) : Prop where
  provider_eq : p.provider = provider
  model_eq : payloadModel p.payload = route.2
  request_eq : ∃ tick, p.request = poster.request provider (S.env tick) p.payload
  sovereign : provider.sovereign = true
  available : ∃ tick, provider.available (S.env tick) = true

theorem PostedBy.postFor {S : Surroundings} {poster : Poster} {provider : Provider}
    {payload : Dict} {p : Post} (h : PostedBy S poster provider payload p) {route : Route}
    (hmodel : payloadModel payload = route.2) (hsovereign : provider.sovereign = true)
    (havailable : ∃ tick, provider.available (S.env tick) = true) :
    PostFor S poster route provider p where
  provider_eq := h.provider_eq
  model_eq := h.payload_eq ▸ hmodel
  request_eq := h.payload_eq ▸ h.request_eq
  sovereign := hsovereign
  available := havailable

/-- The provenance block names the route and its provider: the name of the computation, the
provider, the model that was sent, and the address that was configured for it. -/
structure NamesRoute (prov : Dict) (route : Route) (provider : Provider) (env : Env) : Prop where
  served_by : Dict.get prov (lit "served_by") = some (.str (route.1 ++ lit ":" ++ route.2))
  provider_eq : Dict.get prov (lit "provider") = some (.str route.1)
  upstream_model : Dict.get prov (lit "upstream_model") = some (.str route.2)
  base_url : Dict.get prov (lit "base_url") = some (.str (provider.baseUrl env))
  sovereign : Dict.get prov (lit "sovereign") = some (.bool provider.sovereign)
  energy_source : Dict.get prov (lit "energy_source") = some (.str provider.energySource)
  tier : Dict.get prov (lit "tier") = some (.str (tierOf provider).text)

theorem Provenance.Names.namesRoute {p : Provenance} {route : Route} {provider : Provider}
    {env : Env} {rows : List Attempt} (h : p.Names route provider env rows) :
    NamesRoute p.toDict route provider env where
  served_by := congrArg (some ∘ optStr) h.servedBy_eq
  provider_eq := congrArg (some ∘ optStr) h.provider_eq
  upstream_model := congrArg (some ∘ optStr) h.upstreamModel_eq
  base_url := congrArg (some ∘ optStr) h.baseUrl_eq
  sovereign := congrArg (some ∘ Json.bool) h.sovereign_eq
  energy_source := congrArg (some ∘ optStr) h.energySource_eq
  tier := congrArg (some ∘ optStr) h.tier_eq

/-- The answer is the body of the reply to the post, under a provenance block that names
the route and its provider. -/
def Attributed (env : Env) (route : Route) (provider : Provider) (p : Post) (answer : Json) :
    Prop :=
  ∃ (v : Parsed) (body prov : Dict), p.reply = .json v ∧ v.val = .obj body ∧
    answer = .obj (Dict.set body (lit "x_szl_provenance") (.obj prov)) ∧
    NamesRoute prov route provider env

/-- A body that passes the check is an object. -/
theorem chatResponseError_none {v : Json} (h : chatResponseError v = none) :
    v = .obj (fields v) := by
  unfold chatResponseError at h
  split at h
  · rfl
  · cases h

theorem embeddingResponseError_none {payload : Dict} {v : Json}
    (h : embeddingResponseError payload v = none) : v = .obj (fields v) := by
  unfold embeddingResponseError at h
  split at h
  · rfl
  · cases h

/-! ### The model of a payload -/

theorem payloadModel_update {model : Str} {d e : Dict}
    (h : (Dict.get e (lit "model")).isSome = false)
    (hd : Dict.get d (lit "model") = some (.str model)) :
    payloadModel (Dict.update d e) = model := by
  have hget : Dict.get e (lit "model") = none := by simpa using h
  rw [payloadModel, Dict.get_update_of_not_mem (Dict.get_eq_none.mp hget), hd]

/-- The extra members of a request that is not refused do not name another model. -/
theorem payloadModel_chat {req : ChatRequest} {budget : Option RequestBudget}
    (h : chatRefusal req budget = none) (model : Str) :
    payloadModel (chatPayload req model) = model := by
  have hextra : (Dict.get req.extra (lit "model")).isSome = false := by
    unfold chatRefusal at h
    split_ifs at h with hmodel
    rw [not_or] at hmodel
    simpa using hmodel.1
  refine payloadModel_update hextra ?_
  cases req.temperature with
  | none =>
    cases req.maxTokens with
    | none => rfl
    | some n => rfl
  | some t =>
    cases req.maxTokens with
    | none => rfl
    | some n => rfl

/-- The request that `prepare` makes is the normal form of the one that came in. -/
theorem prepare_extra {S : Surroundings} {req : EmbedRequest} {s : CallState} {prep : Prepared}
    (h : (prepare S req s).1 = .ok prep) :
    prep.extra = Dict.update [] (rereadMembers identityDumps req.extra) := by
  rw [prepare] at h
  cases htext : embeddingJson (.obj [(lit "input", req.input), (lit "extra", .obj req.extra)]) with
  | error e => rw [htext] at h; cases h
  | ok text =>
    have hdumps : dumps identityDumps
        (.obj [(lit "input", req.input), (lit "extra", .obj req.extra)]) = some text := by
      rw [embeddingJson] at htext
      split_ifs at htext
      revert htext
      cases dumps identityDumps _ with
      | none => intro htext; cases htext
      | some t => intro htext; rw [Except.ok.inj htext]
    -- the request goes through its JSON text, so the extras are those that are read back
    have hloads :=
        @loads_dumps identityDumps plainLoads (fun _ => rfl) _ _ (fun h => by cases h) hdumps
    rw [htext] at h
    dsimp only at h
    rw [hloads] at h
    rw [← Except.ok.inj h, norm_obj]
    show fields (norm identityDumps (.obj req.extra)) = _
    rw [norm_obj]
    rfl

theorem payloadModel_embed {S : Surroundings} {req : EmbedRequest} {s : CallState}
    {prep : Prepared} (hrefusal : embedRefusal req s.budget = none)
    (h : (prepare S req s).1 = .ok prep) (model : Str) :
    payloadModel (embedPayload prep model) = model := by
  refine payloadModel_update ?_ rfl
  have hextra : (Dict.get req.extra (lit "model")).isSome = false := by
    unfold embedRefusal at hrefusal
    dsimp only at hrefusal
    split_ifs at hrefusal with _ _ hmodel
    · simp_all
    · rw [not_or] at hmodel
      simpa using hmodel.1
  rw [prepare_extra h]
  by_contra hsome
  rw [Bool.not_eq_false, Option.isSome_iff_ne_none, Ne, Dict.get_eq_none, not_not] at hsome
  obtain ⟨k, hk, htext⟩ := mem_keys_norm hsome
  -- a key that is read as `model` was written as `model`
  obtain rfl := text_eq_of_small (by decide +kernel) htext
  have hnone : Dict.get req.extra (lit "model") = none := by simpa using hextra
  exact Dict.get_eq_none.mp hnone hk

/-! ### Chat -/

/-- A post for a route of a chat request. -/
def ChatPost (S : Surroundings) (cfg : RouterConfig) (route : Route) (p : Post) : Prop :=
  ∃ provider, cfg.registry.provider route.1 = some provider ∧ PostFor S .chat route provider p

/-- The posts since `s` are for the routes that were seen. -/
def ChatTrace (S : Surroundings) (cfg : RouterConfig) (s : CallState) (seen : List Route)
    (s' : CallState) : Prop :=
  ∃ new, posts s'.events = posts s.events ++ new ∧ InOrder (ChatPost S cfg) seen new

/-- The posts since `s` are for the routes that were seen and for `route`, and the last
one was answered with `result`. -/
def ChatServed (S : Surroundings) (cfg : RouterConfig) (s : CallState) (seen : List Route)
    (route : Route) (provider : Provider) (result : Dict) (s' : CallState) : Prop :=
  ∃ new p, posts s'.events = posts s.events ++ (new ++ [p]) ∧
    InOrder (ChatPost S cfg) (seen ++ [route]) (new ++ [p]) ∧
    PostFor S .chat route provider p ∧ ∃ v : Parsed, p.reply = .json v ∧ v.val = .obj result

theorem quiet_posts (S : Surroundings) {P : List Post → Prop} :
    Quiet S fun s => P (posts s.events) where
  same := fun hs h => by
    rw [hs.events]
    exact h
  skip := fun _ _ h => h
  onBudget := fun _ h => by
    rw [CallState.onBudget_events]
    exact h

theorem chat_trace_rule (S : Surroundings) (cfg : RouterConfig) {req : ChatRequest}
    {budget : Option RequestBudget} (hrefusal : chatRefusal req budget = none) (s : CallState) :
    ChatState.TryRule S cfg req (ChatTrace S cfg s) (ChatServed S cfg s) where
  quiet := fun seen => quiet_posts S
    (P := fun ps => ∃ new, ps = posts s.events ++ new ∧ InOrder (ChatPost S cfg) seen new)
  pass := by
    intro seen route s' ⟨new, hnew, horder⟩
    exact ⟨new, hnew, horder.mono (List.sublist_append_left _ _)⟩
  tries := by
    intro seen route provider s' hq ⟨new, hnew, horder⟩
    obtain ⟨hposted, hserved⟩ := tryRoute_posts S .chat provider (chatPayload req route.2) cfg.retry
      route req.timeout chatResponseError s'
    have hfor : ∀ p, PostedBy S .chat provider (chatPayload req route.2) p →
        PostFor S .chat route provider p :=
      fun p hp => hp.postFor (payloadModel_chat hrefusal route.2) hq.sovereign hq.available
    -- the posts of the try come after those of the routes before it
    have htrace : ChatTrace S cfg s (seen ++ [route])
        (tryRoute S cfg.retry .chat route provider (chatPayload req route.2) req.timeout
          chatResponseError s').2 := by
      obtain ⟨new', hnew', hby⟩ := hposted
      refine ⟨new ++ new', by rw [hnew', hnew, List.append_assoc], horder.snoc ?_⟩
      intro p hp
      exact ⟨provider, hq.known, hfor p (hby p hp)⟩
    revert hserved htrace
    dsimp only [ChatState.tryChat]
    generalize tryRoute S cfg.retry .chat route provider _ _ _ _ = r
    obtain ⟨_ | _ | _ | result | _, c⟩ := r
    · exact fun _ htrace => htrace
    · exact fun _ htrace => htrace
    · exact fun _ htrace => htrace
    · intro hserved _
      -- the answer is the reply to the last post of the try
      obtain ⟨v, hcheck, rfl, new', p, hnew', hby, hreply⟩ := hserved result rfl
      have hlast := hby p (List.mem_append_right _ (List.mem_singleton.mpr rfl))
      refine ⟨new ++ new', p, ?_, ?_, hfor p hlast, v, hreply, chatResponseError_none hcheck⟩
      · rw [hnew', hnew, List.append_assoc, List.append_assoc]
      · rw [List.append_assoc]
        refine horder.snoc ?_
        intro q hq'
        exact ⟨provider, hq.known, hfor q (hby q hq')⟩
    · exact fun _ htrace => htrace

/-- The posts of a chat call are for its routes, in their order, and an answer is that of
the last post. -/
def ChatConforms (S : Surroundings) (cfg : RouterConfig) (req : ChatRequest) (s : ChatState)
    (r : CallEnd × ChatState) : Prop :=
  ∃ new, posts r.2.events = posts s.events ++ new ∧
    InOrder (ChatPost S cfg) (chatRoutes cfg req).2 new ∧
    ∀ body, r.1 = .response body →
      ∃ route ∈ (chatRoutes cfg req).2, ∃ provider p tick, new.getLast? = some p ∧
        cfg.registry.provider route.1 = some provider ∧ PostFor S .chat route provider p ∧
        Attributed (S.env tick) route provider p (.obj body)

theorem chat_conforms (S : Surroundings) (cfg : RouterConfig) (req : ChatRequest)
    (s : ChatState) : ChatConforms S cfg req s (chat S cfg req s) := by
  have hends := ChatState.TryRule.chat (s := s)
    (fun hrefusal : chatRefusal req s.budget = none =>
      chat_trace_rule S cfg hrefusal s.toCallState)
    ⟨[], (List.append_nil _).symm, .nil⟩
  revert hends
  generalize chat S cfg req s = r
  obtain ⟨body | _ | _ | _, s'⟩ := r
  -- served: the provenance names the route and the provider of the last post
  · rintro ⟨before, route, hprefix, provider, result, t, hq, hserved, heq⟩
    obtain ⟨new, p, hnew, horder, hfor, v, hreply, hv⟩ := hserved
    obtain ⟨prov, tick, t', hserve, hnames, _, hevents⟩ :=
      t.serve_cases S (chatRoutes cfg req).1 route provider result
    obtain ⟨rfl, rfl⟩ := Prod.mk.inj (heq.trans hserve)
    refine ⟨new ++ [p], ?_, horder.mono hprefix.sublist, ?_⟩
    · show posts s'.events = _
      rw [hevents, hnew]
    · intro body hbody
      obtain rfl := CallEnd.response.inj hbody
      have hmem : route ∈ (chatRoutes cfg req).2 := hprefix.subset (by simp)
      refine ⟨route, hmem, provider, p, tick, by simp, hq.known, hfor, v, result, prov.toDict,
        hreply, hv, rfl, hnames.namesRoute⟩
  -- refused: there is no answer, so only the order of the posts is left
  · rintro ⟨_, before, hprefix, new, hnew, horder⟩
    exact ⟨new, hnew, horder.mono hprefix.sublist, by simp⟩
  · rintro ⟨new, hnew, horder⟩
    exact ⟨new, hnew, horder.mono (List.nil_sublist _), by simp⟩
  · exact False.elim

/-! ### Embeddings -/

/-- A post for a slot of an embeddings request. -/
def EmbedPost (S : Surroundings) (slot : Slot) (p : Post) : Prop :=
  ∃ provider, slot.2 = some provider ∧ PostFor S .embeddings slot.1 provider p

/-- A provider for which the cache may be used at a slot. -/
def MayUseCache (S : Surroundings) (slot : Slot) (provider : Provider) : Prop :=
  slot.2 = some provider ∧ provider.sovereign = true ∧
    ∃ tick, provider.available (S.env tick) = true

/-- The posts since `s` are for the slots that were seen, and the cache was used for the
slots that were entered. -/
def EmbedTrace (S : Surroundings) (start : ℕ) (s : EmbedState) (seen entered : List Slot)
    (s' : EmbedState) : Prop :=
  start ≤ s'.tick ∧
    (∃ new, posts s'.events = posts s.events ++ new ∧ InOrder (EmbedPost S) seen new) ∧
    ∃ used, cacheUsers s'.history = cacheUsers s.history ++ used ∧
      InOrder (MayUseCache S) entered used

/-- The posts since `s` are for the slots that were seen and for one more, and the last
one was answered with `result`. -/
def EmbedServed (S : Surroundings) (s : EmbedState) (seen : List Slot) (route : Route)
    (provider : Provider) (result : Dict) (s' : EmbedState) : Prop :=
  (∃ new p, posts s'.events = posts s.events ++ (new ++ [p]) ∧
    InOrder (EmbedPost S) (seen ++ [(route, some provider)]) (new ++ [p]) ∧
    PostFor S .embeddings route provider p ∧
    ∃ v : Parsed, p.reply = .json v ∧ v.val = .obj result) ∧
  MayUseCache S (route, some provider) provider ∧
  ∃ used, cacheUsers s'.history = cacheUsers s.history ++ used ∧
    InOrder (MayUseCache S) (seen ++ [(route, some provider)]) used

theorem embed_trace_rule (S : Surroundings) (cfg : EmbedConfig) {req : EmbedRequest}
    {prep : Prepared} (hmodel : ∀ model, payloadModel (embedPayload prep model) = model)
    (start : ℕ) (s : EmbedState) :
    EmbedState.TryRule S cfg req prep start (EmbedTrace S start s) (EmbedServed S s) where
  quiet := fun seen entered s' => by
    have hposts := quiet_posts S
      (P := fun ps => ∃ new, ps = posts s.events ++ new ∧ InOrder (EmbedPost S) seen new)
    have hused : Quiet S fun _ => ∃ used, cacheUsers s'.history = cacheUsers s.history ++ used ∧
        InOrder (MayUseCache S) entered used := ⟨fun _ h => h, fun _ _ h => h, fun _ h => h⟩
    exact (quiet_later S start).and (hposts.and hused)
  -- a slot that is passed by neither posts nor reads the cache
  later := And.left
  enter := by
    intro seen slot s' ⟨hlater, hposts, used, hused, horder⟩
    exact ⟨hlater, hposts, used, hused, horder.mono (List.sublist_append_left _ _)⟩
  pass := by
    intro seen slot s' ⟨hlater, ⟨new, hnew, hposts⟩, used, hused, horder⟩
    exact ⟨hlater, ⟨new, hnew, hposts.mono (List.sublist_append_left _ _)⟩, used, hused,
      horder.mono (List.sublist_append_left _ _)⟩
  lookup := by
    intro seen route provider identity key s' hadmits _ ⟨hlater, ⟨new, hnew, hposts⟩, used, hused,
      horder⟩
    have hsame := cacheGet_same S cfg provider identity key s'
    obtain ⟨⟨tick, _, _, hopen⟩, hsovereign⟩ := hadmits
    refine ⟨hlater.trans hsame.tick_le, ⟨new, by rw [hsame.events, hnew], hposts⟩,
      used ++ [provider], ?_, horder.snoc ?_⟩
    -- looking up counts as a use of the cache, and not as a post
    · rw [cacheGet_users, hused, List.append_assoc]
    · intro p hp
      rw [List.mem_singleton.mp hp]
      exact ⟨rfl, hsovereign, tick, hopen⟩
  tries := by
    intro seen route provider s' hadmits ⟨hlater, ⟨new, hnew, hposts⟩, hused⟩
    have htick := hlater.trans (tick_le_tryRoute S cfg.retry .embeddings route provider
      (embedPayload prep route.2) req.timeout
      (embeddingResponseError (embedPayload prep route.2)) s'.toCallState)
    obtain ⟨hposted, hserved⟩ := tryRoute_posts S .embeddings provider (embedPayload prep route.2)
      cfg.retry route req.timeout (embeddingResponseError (embedPayload prep route.2))
      s'.toCallState
    obtain ⟨⟨tick, _, _, hopen⟩, hsovereign⟩ := hadmits
    have hfor : ∀ p, PostedBy S .embeddings provider (embedPayload prep route.2) p →
        PostFor S .embeddings route provider p :=
      fun p hp => hp.postFor (hmodel route.2) hsovereign ⟨tick, hopen⟩
    -- the posts of the try come after those of the slots before it
    have htrace : EmbedTrace S start s (seen ++ [(route, some provider)])
        (seen ++ [(route, some provider)]) { s' with
          toCallState := (tryRoute S cfg.retry .embeddings route provider
            (embedPayload prep route.2) req.timeout
            (embeddingResponseError (embedPayload prep route.2)) s'.toCallState).2 } := by
      obtain ⟨new', hnew', hby⟩ := hposted
      refine ⟨htick, ⟨new ++ new', ?_, hposts.snoc ?_⟩, hused⟩
      · show posts (tryRoute _ _ _ _ _ _ _ _ _).2.events = _
        rw [hnew', hnew, List.append_assoc]
      · intro p hp
        exact ⟨provider, rfl, hfor p (hby p hp)⟩
    revert hserved htrace
    dsimp only [EmbedState.tryEmbed]
    generalize tryRoute S cfg.retry .embeddings route provider _ _ _ _ = r
    obtain ⟨_ | _ | _ | result | _, c⟩ := r
    · exact fun _ htrace => htrace
    · exact fun _ htrace => htrace
    · exact fun _ htrace => htrace
    · intro hserved _
      -- the answer is the reply to the last post of the try
      obtain ⟨v, hcheck, rfl, new', p, hnew', hby, hreply⟩ := hserved result rfl
      have hlast := hby p (List.mem_append_right _ (List.mem_singleton.mpr rfl))
      refine ⟨⟨new ++ new', p, ?_, ?_, hfor p hlast, v, hreply,
        embeddingResponseError_none hcheck⟩, ⟨rfl, hsovereign, tick, hopen⟩, hused⟩
      · rw [hnew', hnew, List.append_assoc, List.append_assoc]
      · rw [List.append_assoc]
        refine hposts.snoc ?_
        intro q hq
        exact ⟨provider, rfl, hfor q (hby q hq)⟩
    · exact fun _ htrace => htrace

/-- The posts of an embeddings call and its uses of the cache are for the slots that were
captured at its start, in their order, and a fresh answer is that of the last post.  That
post and the provenance have the URL and the key that were captured. -/
def EmbedConforms (S : Surroundings) (cfg : EmbedConfig) (req : EmbedRequest) (s : EmbedState)
    (r : EmbedEnd × EmbedState) : Prop :=
  ∃ slots stop new used,
    Captured S cfg s.tick stop (cfg.registry.resolveEmbedRoutes req.model) slots ∧
    posts r.2.events = posts s.events ++ new ∧ InOrder (EmbedPost S) slots new ∧
    cacheUsers r.2.history = cacheUsers s.history ++ used ∧ InOrder (MayUseCache S) slots used ∧
    ∀ a, r.1 = .fresh a →
      ∃ route provider p tick, cfg.registry.provider route.1 = some provider ∧
        s.tick ≤ tick ∧ tick + 1 < stop ∧ provider.sovereign = true ∧ new.getLast? = some p ∧
        payloadModel p.payload = route.2 ∧
        p.request = Poster.embeddings.requestTo (provider.baseUrl (S.env tick))
          (provider.apiKey (S.env (tick + 1))) p.payload ∧
        Attributed (S.env tick) route provider p (r.2.read a)

/-- What a served try left holds after the answer was delivered. -/
theorem EmbedServed.deliver {S : Surroundings} {cfg : EmbedConfig} {s t : EmbedState}
    {seen : List Slot} {route : Route} {provider : Provider} {result : Dict}
    (h : EmbedServed S s seen route provider result t) (key : Option (Identity × Str)) :
    EmbedServed S s seen route provider result
      (EmbedState.deliver S cfg route provider key result t).2 := by
  obtain ⟨⟨new, p, hnew, hrest⟩, hmay, used, hused, horder⟩ := h
  have hevents := EmbedState.deliver_events S cfg route provider key result t
  obtain ⟨used', hused', hfor⟩ := EmbedState.deliver_users S cfg route provider key result t
  refine ⟨⟨new, p, by rw [hevents, hnew], hrest⟩, hmay, used ++ used', ?_, horder.extend ?_⟩
  · rw [hused', hused, List.append_assoc]
  · intro q hq
    rw [hfor q hq]
    exact hmay

theorem embed_conforms (S : Surroundings) (cfg : EmbedConfig) (req : EmbedRequest)
    (s : EmbedState) : EmbedConforms S cfg req s (embed S cfg req s) := by
  rcases embed_cases S cfg req s with ⟨e, heq⟩ |
    ⟨prep, slots, c, hrefusal, hprep, hsame, hcaptured, heq⟩
  · rw [heq]
    obtain ⟨_, hcaptured⟩ := captureRoutes_captured S cfg
      (cfg.registry.resolveEmbedRoutes req.model) s.toCallState
    exact ⟨_, _, [], [], hcaptured, (List.append_nil _).symm, .nil, (List.append_nil _).symm, .nil,
      by simp⟩
  · rw [heq]
    have hmodel := payloadModel_embed hrefusal hprep
    have rule : EmbedState.TryRule S cfg req prep c.tick (EmbedTrace S c.tick s)
        (EmbedServed S s) := embed_trace_rule S cfg hmodel c.tick s
    have hends := rule.walk slots
      (s := { s with toCallState := c })
      ⟨Nat.le_refl _, ⟨[], by rw [hsame.events, List.append_nil], .nil⟩, [],
        (List.append_nil _).symm, .nil⟩
    have hdone : ∀ {s'} {before entered : List Slot}, before.Sublist slots →
        entered.Sublist slots → EmbedTrace S c.tick s before entered s' →
        ∃ new used, posts s'.events = posts s.events ++ new ∧ InOrder (EmbedPost S) slots new ∧
          cacheUsers s'.history = cacheUsers s.history ++ used ∧
          InOrder (MayUseCache S) slots used := by
      rintro s' before entered hbefore hentered ⟨_, ⟨new, hnew, hposts⟩, used, hused, horder⟩
      exact ⟨new, used, hnew, hposts.mono hbefore, hused, horder.mono hentered⟩
    have hclose : ∀ {before s'}, EmbedTrace S c.tick s before before s' →
        EmbedTrace S c.tick s before before
          { s' with toCallState := (closeWalk S s'.toCallState).2 } := by
      intro before s' h
      exact (rule.quiet before before s').closeWalk h
    revert hends
    generalize EmbedState.walk S cfg req prep slots { s with toCallState := c } = v
    obtain ⟨_ | _ | a | a | e | _, s'⟩ := v
    · rintro ⟨before, hbefore, hP⟩
      obtain ⟨new, used, hnew, hposts, hused, horder⟩ :=
        hdone hbefore.sublist hbefore.sublist (hclose hP)
      exact ⟨slots, c.tick, new, used, hcaptured, hnew, hposts, hused,
        horder, by simp [embedFinish]⟩
    · rintro ⟨before, hbefore, hP⟩
      obtain ⟨new, used, hnew, hposts, hused, horder⟩ :=
        hdone hbefore.sublist hbefore.sublist (hclose hP)
      exact ⟨slots, c.tick, new, used, hcaptured, hnew, hposts, hused,
        horder, by simp [embedFinish]⟩
    · rintro ⟨before, ⟨route, _⟩, hbefore, provider, rfl, result, t, key, _, ht, _, hdeliver⟩
      obtain ⟨prov, tick, hread, hnames, _, _⟩ := EmbedState.deliver_fresh hdeliver
      have hserved : EmbedServed S _ _ _ _ _ (EmbedState.deliver S cfg _ _ key _ _).2 :=
        ht.deliver key
      rw [← hdeliver] at hserved
      obtain ⟨⟨new, p, hnew, hposts, hfor, v, hreply, hv⟩, _, used, hused, horder⟩ := hserved
      refine ⟨slots, c.tick, new ++ [p], used, hcaptured, hnew, hposts.mono hbefore.sublist, hused,
        horder.mono hbefore.sublist, ?_⟩
      intro a' ha'
      obtain rfl := EmbedEnd.fresh.inj ha'
      obtain ⟨p₀, tick₀, hknown, hstart, hstop, rfl⟩ :=
        hcaptured.2 (route, some provider) (hbefore.subset (by simp)) provider rfl
      obtain ⟨_, hrequest⟩ := hfor.request_eq
      have hroute := hnames.namesRoute
      -- what was captured answers for every environment
      exact ⟨route, p₀, p, tick₀, hknown, hstart, hstop, hfor.sovereign, by simp, hfor.model_eq,
        hrequest, v, result, prov.toDict, hreply, hv, hread,
        ⟨hroute.served_by, hroute.provider_eq, hroute.upstream_model, hroute.base_url,
          hroute.sovereign, hroute.energy_source, hroute.tier⟩⟩
    · rintro ⟨before, ⟨route, _⟩, hbefore, provider, rfl, identity, key, t, entry, out, hadmits,
        hkey, ht, _, _, hcached⟩
      obtain ⟨rfl, rfl⟩ := Prod.mk.inj hcached
      have hlooked := rule.lookup hadmits hkey ht
      obtain ⟨new, used, hnew, hposts, hused, horder⟩ :=
        hdone ((List.sublist_append_left _ _).trans hbefore.sublist) hbefore.sublist hlooked
      exact ⟨slots, c.tick, new, used, hcaptured, hnew, hposts, hused,
        horder, by simp [embedFinish]⟩
    · rintro ⟨before, ⟨route, _⟩, hbefore, hP | ⟨provider, rfl, result, t, key, _, ht, _, hdeliver⟩⟩
      · obtain ⟨new, used, hnew, hposts, hused, horder⟩ :=
          hdone ((List.sublist_append_left _ _).trans hbefore.sublist) hbefore.sublist hP
        exact ⟨slots, c.tick, new, used, hcaptured, hnew, hposts, hused, horder,
          by simp [embedFinish]⟩
      · have hserved : EmbedServed S _ _ _ _ _ (EmbedState.deliver S cfg _ _ key _ _).2 :=
        ht.deliver key
        rw [← hdeliver] at hserved
        obtain ⟨⟨new, p, hnew, hposts, _⟩, _, used, hused, horder⟩ := hserved
        exact ⟨slots, c.tick, new ++ [p], used, hcaptured, hnew, hposts.mono hbefore.sublist, hused,
          horder.mono hbefore.sublist, by simp [embedFinish]⟩
    · exact False.elim

/-- Surroundings with one environment. -/
def Surroundings.withEnv (S : Surroundings) (env : Env) : Surroundings :=
  { S with env := fun _ => env }

end SzlRouter
