/-
What crosses the mesh coordinator's boundary.

An answer carries what `proxy` stamped on it next to the worker's own headers,
which the client cannot tell apart when they are spelled in another case; a
request carries the worker's key and none of the caller's credentials.

* `honest_iff` — an answer carries each provenance header once, with its own
  value, exactly when the worker sends none of them in another spelling;
* `credentials_isolated` — a request reaches `proxy` with the token or from a
  loopback peer, a worker is sent its own key and nothing of the caller's, and
  an open address is bound only with a token.
-/
import SzlRouter.MeshFacade
import SzlRouter.Procedure

namespace SzlRouter

namespace Mesh

open Py Procedure

theorem mem_named {name : Str} {headers : Headers} {p : Str × Str} :
    p ∈ named name headers ↔ p ∈ headers ∧ Str.lower p.1 = Str.lower name := by
  simp [named]

/-! ### Provenance headers -/

/-- The provenance headers of a worker that was picked for a tier. -/
def stamped (w : Worker) (tier : Str) : Headers :=
  [(lit "x-szl-serve-tier", tier), (lit "x-szl-served-by", w.name),
    (lit "x-szl-sovereign", if w.sovereign then lit "true" else lit "false")]

/-- Each provenance header is sent once, with the value that was stamped. A client that looks a
header up by name then finds the coordinator's own value, in whatever spelling it asks. -/
def Honest (sent : Headers) (w : Worker) (tier : Str) : Prop :=
  ∀ p ∈ stamped w tier, getAll sent p.1 = [p.2]

/-- A worker's header that is a provenance header is spelled in lower case. -/
def SpelledLow (headers : Headers) : Prop :=
  ∀ p ∈ headers, Str.lower p.1 ∈
    [lit "x-szl-serve-tier", lit "x-szl-served-by", lit "x-szl-sovereign"] → p.1 = Str.lower p.1

variable {w : Worker} {tier : Str} {headers : Headers}

theorem keys_stamped (w : Worker) (tier : Str) : Dict.keys (stamped w tier) =
    [lit "x-szl-serve-tier", lit "x-szl-served-by", lit "x-szl-sovereign"] := rfl

theorem stamped_nodup : (Dict.keys (stamped w tier)).Nodup := by
  rw [keys_stamped]
  decide

theorem stamped_lower {p : Str × Str} (h : p ∈ stamped w tier) : Str.lower p.1 = p.1 := by
  have hkey : p.1 ∈ Dict.keys (stamped w tier) := List.mem_map_of_mem h
  rw [keys_stamped] at hkey
  have hlow : ∀ k ∈ [lit "x-szl-serve-tier", lit "x-szl-served-by", lit "x-szl-sovereign"],
      Str.lower k = k := by decide
  exact hlow p.1 hkey

theorem stamped_not_hopByHop {p : Str × Str} (h : p ∈ stamped w tier) : p.1 ∉ hopByHop := by
  have hkey : p.1 ∈ Dict.keys (stamped w tier) := List.mem_map_of_mem h
  rw [keys_stamped] at hkey
  have hfree : ∀ k ∈ [lit "x-szl-serve-tier", lit "x-szl-served-by", lit "x-szl-sovereign"],
      k ∉ hopByHop := by decide
  exact hfree p.1 hkey

theorem outHeaders_nodup (headers : Headers) (w : Worker) (tier : Str) :
    (Dict.keys (outHeaders headers w tier)).Nodup :=
  Dict.nodup_keys_update (Dict.nodup_keys_update List.nodup_nil)

theorem stamped_subset (headers : Headers) {p : Str × Str} (h : p ∈ stamped w tier) :
    p ∈ outHeaders headers w tier :=
  (Dict.get_eq_some (outHeaders_nodup headers w tier)).mp
    (Dict.get_update_of_mem stamped_nodup h)

theorem mem_outHeaders {p : Str × Str} (h : p ∈ outHeaders headers w tier) :
    p ∈ headers ∨ p ∈ stamped w tier := by
  rcases Dict.mem_update h with hown | hstamped
  · have := (Dict.mem_update hown).resolve_left List.not_mem_nil
    exact Or.inl (List.mem_filter.mp this).1
  · exact Or.inr hstamped

/-- A worker's header is passed on under its own spelling. -/
theorem key_outHeaders {p : Str × Str} (h : p ∈ headers) (hhop : Str.lower p.1 ∉ hopByHop) :
    ∃ v, (p.1, v) ∈ outHeaders headers w tier := by
  have hkey : p.1 ∈ Dict.keys (outHeaders headers w tier) := by
    refine Dict.mem_keys_update.mpr (Or.inl (Dict.mem_keys_update.mpr (Or.inr ?_)))
    exact List.mem_map_of_mem (List.mem_filter.mpr ⟨h, by simpa using hhop⟩)
  obtain ⟨q, hq, hqp⟩ := List.mem_map.mp hkey
  exact ⟨q.2, hqp ▸ hq⟩

/-- The facade adds no header under a name of provenance. -/
theorem named_answerHeaders (server date : Str) (headers : Headers) (raw : Bytes)
    {p : Str × Str} (h : p ∈ stamped w tier) :
    named p.1 (answerHeaders server date headers raw) = named p.1 headers := by
  have hkey : p.1 ∈ Dict.keys (stamped w tier) := List.mem_map_of_mem h
  rw [keys_stamped] at hkey
  have hother : ∀ k ∈ [lit "x-szl-serve-tier", lit "x-szl-served-by", lit "x-szl-sovereign"],
      Str.lower (lit "Server") ≠ Str.lower k ∧ Str.lower (lit "Date") ≠ Str.lower k ∧
        Str.lower (lit "Content-Length") ≠ Str.lower k ∧
        Str.lower (lit "Connection") ≠ Str.lower k := by decide
  obtain ⟨hserver, hdate, hlength, hconnection⟩ := hother p.1 hkey
  simp [named, answerHeaders, hserver, hdate, hlength, hconnection]

/-- **Provenance headers.** Whatever a worker answers, the client is sent each
provenance header once and with the value that was stamped if and only if the worker
sent no header of one of these names in another spelling. -/
theorem honest_iff (server date : Str) (headers : Headers) (raw : Bytes) (w : Worker)
    (tier : Str) :
    Honest (answerHeaders server date (outHeaders headers w tier) raw) w tier ↔
      SpelledLow headers := by
  constructor
  · intro hhonest p hp hname
    obtain ⟨q, hq, hqp⟩ := List.mem_map.mp (keys_stamped w tier ▸ hname)
    have hhop : Str.lower p.1 ∉ hopByHop := hqp ▸ stamped_not_hopByHop hq
    obtain ⟨v, hv⟩ : ∃ v, (p.1, v) ∈ outHeaders headers w tier := key_outHeaders hp hhop
    have hone := hhonest q hq
    rw [getAll, named_answerHeaders server date _ raw hq] at hone
    obtain ⟨x, hx, _⟩ := List.map_eq_singleton_iff.mp hone
    -- both spellings are headers of the one name
    have hown : (p.1, v) ∈ named q.1 (outHeaders headers w tier) := by
      refine mem_named.mpr ⟨hv, ?_⟩
      rw [stamped_lower hq]
      exact hqp.symm
    have hstamped : q ∈ named q.1 (outHeaders headers w tier) :=
      mem_named.mpr ⟨stamped_subset headers hq, rfl⟩
    rw [hx, List.mem_singleton] at hown hstamped
    have hsame : (p.1, v) = q := hown.trans hstamped.symm
    rw [congrArg Prod.fst hsame, stamped_lower hq]
  · intro hspelled p hp
    rw [getAll, named_answerHeaders server date _ raw hp]
    have hnodup := outHeaders_nodup headers w tier
    have hall : ∀ q ∈ named p.1 (outHeaders headers w tier), q = p := by
      intro q hq
      obtain ⟨hmem, hname⟩ := mem_named.mp hq
      rw [stamped_lower hp] at hname
      refine eq_of_key_eq hnodup hmem (stamped_subset headers hp) ?_
      rcases mem_outHeaders hmem with hown | hstamped
      · rw [hspelled q hown ?_, hname]
        rw [hname, ← keys_stamped w tier]
        exact List.mem_map_of_mem hp
      · rw [← stamped_lower hstamped, hname]
    have hperm : (named p.1 (outHeaders headers w tier)).Perm [p] := by
      refine (List.perm_ext_iff_of_nodup ?_ (List.nodup_singleton p)).mpr fun q => ?_
      · exact (hnodup.of_map).filter _
      · rw [List.mem_singleton]
        constructor
        · exact hall q
        · rintro rfl
          exact mem_named.mpr ⟨stamped_subset headers hp, rfl⟩
    rw [List.perm_singleton.mp hperm]
    rfl

/-- A worker's header in another spelling goes out next to the stamped one. -/
theorem forged_tier : ¬∀ (server date : Str) (headers : Headers) (raw : Bytes) (w : Worker)
    (tier : Str), Honest (answerHeaders server date (outHeaders headers w tier) raw) w tier := by
  intro h
  have hhonest := h [] [] [(lit "X-Szl-Serve-Tier", tierMeshLive)] []
    ⟨lit "hf", lit "https://hf.example/v1", false, lit "hosted-inference", lit "grid", [], [], []⟩
    tierHfFailover
  exact absurd (hhonest _ List.mem_cons_self) (by decide)

/-! ### Credentials -/

/-- A header value that presents a bearer credential. -/
def Bearer (value credential : Str) : Prop :=
  ∃ scheme rest, Str.strip value = scheme ++ chr ' ' :: rest ∧ Str.lower scheme = lit "bearer" ∧
    Str.strip rest = credential

theorem callerAuthorized_true {headerValue : Option Str} {token : Str}
    (h : callerAuthorized headerValue (some token) = some true) :
    ∃ value, headerValue = some value ∧ Bearer value token := by
  rw [callerAuthorized] at h
  by_cases hempty : (some token).getD [] = [] ∨ headerValue.getD [] = []
  · rw [if_pos hempty] at h
    exact absurd h (by decide)
  rw [if_neg hempty] at h
  obtain ⟨htoken, hvalue⟩ := not_or.mp hempty
  cases headerValue with
  | none => exact absurd rfl hvalue
  | some value =>
    by_cases hscheme : Str.lower (Str.partition (chr ' ') (Str.strip value)).1 = lit "bearer"
    · replace h := (if_neg (not_not.mpr hscheme)).symm.trans h
      obtain ⟨given, hgiven, h⟩ := Option.bind_eq_some_iff.mp h
      obtain ⟨wanted, hwanted, h⟩ := Option.bind_eq_some_iff.mp h
      have hbytes : given = wanted := of_decide_eq_true (Option.some.inj h)
      have hcredential := utf8_injective (hbytes ▸ hgiven) hwanted
      have hfound : (Str.partition (chr ' ') (Str.strip value)).2.1 = true := by
        -- without a blank there is no credential, and the token is not empty
        by_contra hmissing
        rw [Option.getD_some, Str.partition_missing (Bool.eq_false_of_not_eq_true hmissing)]
          at hcredential
        exact htoken hcredential.symm
      exact ⟨value, rfl, _, _, Str.partition_eq_append hfound, hscheme, hcredential⟩
    · exact absurd ((if_pos hscheme).symm.trans h) (by decide)

theorem authorize_passes {mapped : Bool} {h : Handler} {q : Incoming}
    (hpasses : authorize mapped h q = .passes) :
    (∀ token, h.token = some token → ∃ value,
      getFirst q.headers (lit "Authorization") = some value ∧ Bearer value token) ∧
    (h.token = none → isLoopbackHost mapped (q.peer.getD []) = true) := by
  rw [authorize] at hpasses
  -- without a token only a loopback peer passes
  cases htoken : h.token with
  | none =>
    rw [htoken] at hpasses
    refine ⟨fun _ hnone => (nomatch hnone), fun _ => ?_⟩
    split_ifs at hpasses with hpeer
    exact hpeer
  | some token =>
    rw [htoken] at hpasses
    refine ⟨?_, fun hsome => (nomatch hsome)⟩
    intro _ hsome
    obtain rfl := Option.some.inj hsome
    dsimp only at hpasses
    split at hpasses
    · exact callerAuthorized_true ‹_›
    · exact nomatch hpasses
    · exact nomatch hpasses

theorem route_proxies {mapped : Bool} {h : Handler} {q : Incoming} {now : ℤ} {sub : Str}
    {body : Option Bytes} {hdrs : Headers}
    (hroute : route mapped h q now = .proxies sub body hdrs) :
    authorize mapped h q = .passes ∧ hdrs = inHeaders h q := by
  rw [route] at hroute
  split_ifs at hroute
  · split at hroute
    · exact nomatch hroute
    · exact nomatch hroute
    · exact nomatch hroute
  · split at hroute
    · exact nomatch hroute
    · exact nomatch hroute
    · refine ⟨‹_›, ?_⟩
      split at hroute
      · exact nomatch hroute
      · exact nomatch hroute
      · obtain ⟨_, _, rfl⟩ := Route.proxies.inj hroute
        rfl

section keys

variable {isalnum : CodePoint → Bool} {upper : CodePoint → Str} {environ : Str → Option Str}

/-- No header of a caller who sent the token is an authorization header. -/
theorem named_inHeaders {h : Handler} {token : Str} (htoken : h.token = some token)
    (q : Incoming) : named (lit "Authorization") (inHeaders h q) = [] := by
  rw [inHeaders, htoken, named, List.filter_eq_nil_iff]
  intro p hp
  have hname : Str.lower p.1 ≠ lit "authorization" := by
    simpa using (List.mem_filter.mp hp).2
  have hlower : Str.lower (lit "Authorization") = lit "authorization" := by decide
  simpa [hlower] using hname

theorem named_requestHeaders (method : Str) (body : Option Bytes) (hdrs : Headers) :
    named (lit "Authorization") (requestHeaders method body hdrs) =
      named (lit "Authorization") hdrs := by
  have hencoding : named (lit "Authorization") (encodingHeader hdrs) = [] := by
    have hname : Str.lower (lit "Accept-Encoding") ≠ Str.lower (lit "Authorization") := by decide
    rw [encodingHeader]
    split_ifs <;> simp [named, hname]
  have hlength : named (lit "Authorization") (lengthHeader method body hdrs) = [] := by
    have hname : Str.lower (lit "Content-Length") ≠ Str.lower (lit "Authorization") := by decide
    rw [lengthHeader]
    split_ifs
    · cases contentLength method body <;> simp [named, hname]
    · rfl
  rw [requestHeaders, named_append, named_append, hencoding, hlength]
  rfl

/-- A worker is sent its own key, and nothing else that authorizes, when the caller's
headers carry nothing. -/
theorem named_workerHeaders (w : Worker) (host : Str) (port : ℕ) {hdrs : Headers}
    (h : named (lit "Authorization") hdrs = []) :
    named (lit "Authorization") (workerHeaders isalnum upper environ w host port hdrs) =
      (workerKey isalnum upper environ w).toList.map fun key =>
        (lit "Authorization", lit "Bearer " ++ key) := by
  have hhost : Str.lower (lit "Host") ≠ Str.lower (lit "Authorization") := by decide
  set own := Dict.set (hdrs.filter fun p => Str.lower p.1 ∉ hopByHop ∧
    Str.lower p.1 ≠ lit "host") (lit "Host") (host ++ chr ':' :: natDigits port) with howns
  -- no header of the request and not the coordinator's own host is named so
  have hown : ∀ p ∈ own, Str.lower p.1 ≠ Str.lower (lit "Authorization") := by
    intro p hp hname
    rcases Dict.mem_set hp with hgiven | rfl
    · have hmem : p ∈ named (lit "Authorization") hdrs :=
        mem_named.mpr ⟨(List.mem_filter.mp hgiven).1, hname⟩
      rw [h] at hmem
      exact List.not_mem_nil hmem
    · exact hhost hname
  have hnone : named (lit "Authorization") own = [] := by
    refine List.filter_eq_nil_iff.mpr fun p hp => ?_
    simpa using hown p hp
  rw [workerHeaders]
  cases workerKey isalnum upper environ w with
  | none => exact hnone
  | some key =>
    -- so the worker's key is a new entry, the only one under that name
    have hfresh : lit "Authorization" ∉ Dict.keys own := by
      intro hkey
      obtain ⟨p, hp, hname⟩ := List.mem_map.mp hkey
      exact hown p hp (congrArg Str.lower hname)
    show named (lit "Authorization") (Dict.set own _ _) = _
    rw [Dict.set_of_not_mem hfresh, named_append, hnone]
    simp [named]

end keys

/-! ### Binding -/

/-- The explicit opt-in to an address that is not loopback. -/
def OptedIn (environ : Str → Option Str) (allowNonLoopback : Option Bool) : Prop :=
  allowNonLoopback = some true ∨
    (allowNonLoopback = none ∧ envTruthy environ allowNonLoopbackEnv = true)

theorem cleanToken_ne_nil {token : Option Str} {t : Str} (h : cleanToken token = some t) :
    t ≠ [] := by
  rw [cleanToken] at h
  split_ifs at h with hempty
  exact Option.some.inj h ▸ hempty

/-- A handler keeps the token that `serve` read. -/
theorem cleanToken_cleanToken (token : Option Str) :
    cleanToken (cleanToken token) = cleanToken token := by
  by_cases hempty : Str.strip (token.getD []) = []
  · rw [cleanToken, cleanToken, if_pos hempty]
    rfl
  · rw [cleanToken, cleanToken, if_neg hempty, Option.getD_some, Str.strip_strip, if_neg hempty]

theorem checkBind_ok {mapped : Bool} {repr : Str → Str} {host : Str} {token : Option Str}
    {allow : Bool} (h : checkBind mapped repr host token allow = .ok ()) :
    isLoopbackHost mapped host = true ∨ (allow = true ∧ token.getD [] ≠ []) := by
  rw [checkBind] at h
  split_ifs at h with hloopback hallow htoken
  · exact Or.inl hloopback
  · exact Or.inr ⟨by simpa using hallow, htoken⟩

theorem serve_ok {mapped : Bool} {repr : Str → Str} {host : Str} {allow : Option Bool}
    {callerToken : Option Str} {environ : Str → Option Str} {l : Listening}
    (h : serve mapped repr host allow callerToken environ = .ok l) :
    l = ⟨host, cleanToken (callerToken <|> environ callerTokenEnv)⟩ ∧
      (isLoopbackHost mapped host = true ∨
        (OptedIn environ allow ∧ ∃ t, t ≠ [] ∧ l.token = some t)) := by
  obtain ⟨_, hbind, hl⟩ := except_bind_eq_ok.mp h
  obtain rfl := Except.ok.inj hl
  refine ⟨rfl, (checkBind_ok hbind).imp_right ?_⟩
  -- an address that is not loopback: the opt-in, and a token that is not empty
  rintro ⟨hallow, htoken⟩
  constructor
  · cases allow with
    | none => exact Or.inr ⟨rfl, hallow⟩
    | some b =>
      left
      rw [← hallow]
      rfl
  · cases hclean : cleanToken (callerToken <|> environ callerTokenEnv) with
    | none =>
      rw [hclean] at htoken
      exact absurd rfl htoken
    | some t => exact ⟨t, cleanToken_ne_nil hclean, rfl⟩

/-! ### Isolation -/

/-- A caller that a facade with this token may let through: it presents the token, or there is
none and it is a loopback peer. -/
structure Admitted (mapped : Bool) (token : Option Str) (q : Incoming) : Prop where
  bearer : ∀ t, token = some t → ∃ value,
    getFirst q.headers (lit "Authorization") = some value ∧ Bearer value t
  loopback : token = none → isLoopbackHost mapped (q.peer.getD []) = true

/-- **Credential isolation.** Only an admitted caller reaches `proxy`; with a token
configured, the one authorization header a worker is sent is its own key, if it has
one; and an address that is not loopback is bound only after the opt-in, by a facade
that demands its token. -/
theorem credentials_isolated (mapped : Bool) (repr : Str → Str) (isalnum : CodePoint → Bool)
    (upper : CodePoint → Str) (environ : Str → Option Str) :
    (∀ callerToken maxBodyBytes q now sub body hdrs,
      route mapped (makeHandler callerToken maxBodyBytes) q now = .proxies sub body hdrs →
        Admitted mapped (cleanToken callerToken) q ∧
        ((cleanToken callerToken).isSome → ∀ w host port method,
          named (lit "Authorization") (requestHeaders method body
            (workerHeaders isalnum upper environ w host port hdrs)) =
              (workerKey isalnum upper environ w).toList.map fun key =>
                (lit "Authorization", lit "Bearer " ++ key))) ∧
    ∀ host allow callerToken l, serve mapped repr host allow callerToken environ = .ok l →
      l.host = host ∧ (isLoopbackHost mapped host = true ∨
        (OptedIn environ allow ∧ ∃ t, t ≠ [] ∧
          ∀ maxBodyBytes, (makeHandler l.token maxBodyBytes).token = some t)) := by
  constructor
  · intro callerToken maxBodyBytes q now sub body hdrs hroute
    obtain ⟨hpasses, rfl⟩ := route_proxies hroute
    obtain ⟨hbearer, hloopback⟩ := authorize_passes hpasses
    refine ⟨⟨hbearer, hloopback⟩, ?_⟩
    intro hsome w host port method
    obtain ⟨t, ht⟩ := Option.isSome_iff_exists.mp hsome
    -- a token is set, so the request had one such header at most, and it was taken out
    rw [named_requestHeaders]
    exact named_workerHeaders w host port (named_inHeaders ht q)
  · intro host allow callerToken l h
    obtain ⟨rfl, hbound⟩ := serve_ok h
    refine ⟨rfl, hbound.imp_right ?_⟩
    rintro ⟨hopted, t, hne, ht⟩
    exact ⟨hopted, t, hne, fun _ => (cleanToken_cleanToken _).trans ht⟩

/-- The token in another case and sent twice: it opens the way and is not passed on. -/
theorem credentials_isolated_twice :
    ∃ (h : Handler) (q : Incoming) (hdrs : Headers),
      (getAll q.headers (lit "Authorization")).length = 2 ∧
      route false h q 0 = .proxies (lit "/models") none hdrs ∧
      named (lit "Authorization") (requestHeaders (lit "GET") none (workerHeaders (fun _ => true)
        (fun c => [c]) (fun _ => some (lit "upstream")) ⟨lit "omen", [], true, [], [], [], [], []⟩
          (lit "omen.example") 11434 hdrs)) = [(lit "Authorization", lit "Bearer upstream")] := by
  let q : Incoming := ⟨lit "GET", lit "/v1/models", [(lit "aUTHORIZATION", lit "bEARER  s3cret "),
    (lit "Authorization", lit "Bearer s3cret")], some (lit "10.0.0.7"), fun _ => .timedOut⟩
  have hroute : route false (makeHandler (some (lit " s3cret")) 4096) q 0 =
      .proxies (lit "/models") none [] := by rfl
  have hisolated := (credentials_isolated false id (fun _ => true) (fun c => [c])
    (fun _ => some (lit "upstream"))).1 _ _ _ _ _ _ _ hroute
  refine ⟨_, q, _, by decide, hroute, ?_⟩
  exact hisolated.2 (by decide) _ _ _ _

end Mesh

end SzlRouter
