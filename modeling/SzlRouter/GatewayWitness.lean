/-
What stands behind a completion of the gateway.

An attempt that succeeds leaves the exchanges it is made of: one completion, and around the
completion of a local model two inventories before it and two after it, each of which
reports the digest of the configuration.

* `attempt_witnessed` — the exchanges of an attempt that succeeds;
* `routeLoop_attempted` — every attempt of a run is made in a state of the run;
* `completions_witnessed` — every attempt and every answer of every call.
-/
import SzlRouter.GatewayEgress

namespace SzlRouter

namespace Gateway

open Py Procedure EventLog

/-! ### Exchanges -/

/-- The daemon reported an inventory. -/
def Reported (kind : Str) (x : Exchange) (inventory : Inventory) : Prop :=
  ∃ chunks, x = ⟨⟨.get, inventoryUrl kind, none, none⟩, .response 200 chunks none⟩ ∧
    chunks.flatten.length ≤ MAX_OLLAMA_TAGS_BYTES ∧
    parseInventory chunks.flatten = some inventory

/-- The provider answered with a completion. -/
def Completed (env : Env) (p : ProviderRecord) (payload upstream : Dict) (x : Exchange) : Prop :=
  ∃ chunks, x = ⟨completionRequest env p payload, .response 200 chunks none⟩ ∧
    chunks.flatten.length ≤ MAX_RESPONSE_BYTES ∧
    parseCompletion chunks.flatten = some upstream ∧ validateCompletion (.obj upstream) = .ok ()

/-- Two inventories in which a model has the digest; it need not be resident where
`resident` says none. -/
def Pinned (model digest : Str) (resident : Option Str) (tags running : Exchange) : Prop :=
  ∃ i j, Reported (lit "tags") tags i ∧ Reported (lit "ps") running j ∧
    Dict.get i.entries model = some digest ∧ Dict.get j.entries model = resident ∧
    ∀ d ∈ resident, d = digest

/-- The store was read and found to hold the pinned files. -/
def StoreHeld (env : Env) (p : ProviderRecord) (publicModel model : Str)
    (report : LocalStore.Report) : Prop :=
  ∃ manifestPin weightPin disk reader after,
    Dict.get p.modelDigests publicModel = some manifestPin ∧
    Dict.get p.modelWeightDigests publicModel = some weightPin ∧
    LocalStore.verifyStoreBytes disk model manifestPin weightPin
      (env.getD (lit "SZL_ROUTER_OLLAMA_MODELS_DIR")) reader = .ok report after

/-- The exchanges of an attempt that succeeds, and the identity it reports. A remote provider has
the one exchange; a daemon is asked for its inventory before and after. -/
inductive Witnessed (env : Env) (p : ProviderRecord) (r : ChatRequest) (upstreamModel : Str)
    (upstream : Dict) : List Exchange → Option Json → Prop
  | remote {x : Exchange} (provider : p.providerType = .openaiHttps)
      (completed : Completed env p (upstreamPayload r upstreamModel) upstream x) :
      Witnessed env p r upstreamModel upstream [x] none
  | loopback {model digest : Str} {resident : Option Str} {store : Option LocalStore.Report}
      {tags running x tags' running' : Exchange} (provider : p.providerType = .ollamaLoopback)
      (known : Dict.get p.models r.model = some model)
      (pin : Dict.get p.modelDigests r.model = some digest)
      (before : Pinned model digest resident tags running)
      (held : r.model ∈ Dict.keys p.modelWeightDigests →
        ∃ report, store = some report ∧ StoreHeld env p r.model model report)
      (unheld : r.model ∉ Dict.keys p.modelWeightDigests → store = none)
      (completed : Completed env p (upstreamPayload r upstreamModel) upstream x)
      (named : Dict.get upstream (lit "model") = some (.str upstreamModel))
      (after : Pinned model digest (some digest) tags' running') :
      Witnessed env p r upstreamModel upstream [tags, running, x, tags', running']
        (some (identityJson digest ⟨digest, digest, resident⟩ ⟨digest, digest, some digest⟩ store))

section

variable {W : Type} {N : Wire W} {s t : Net W}

theorem stream_eq_ok {o : Outbound} {status : ℤ} {chunks : List Bytes} {broken : Option NetError}
    (h : stream N o s = .ok (status, chunks, broken) t) :
    t.exchanges = s.exchanges ++ [⟨o, .response status chunks broken⟩] := by
  rw [stream_eq] at h
  cases hgot : (N.stream o s.world).1 with
  | raised e => rw [hgot] at h; cases h
  | response status' chunks' broken' =>
    rw [hgot] at h
    cases h
    rfl

/-- The chunks fit exactly when they fit together. -/
theorem collect_eq_some {limit size : ℕ} (hsize : size ≤ limit) {chunks : List Bytes}
    {raw : Bytes} :
    collect limit size chunks = some raw ↔
      raw = chunks.flatten ∧ size + chunks.flatten.length ≤ limit := by
  -- by induction on the chunks, with what was collected before
  induction chunks generalizing size raw with
  | nil =>
    rw [collect, Option.some.injEq, List.flatten_nil, List.length_nil]
    constructor
    · rintro rfl
      exact ⟨rfl, hsize⟩
    · rintro ⟨rfl, -⟩
      rfl
  | cons chunk chunks ih =>
    rw [collect, List.flatten_cons, List.length_append]
    split_ifs with hover
    · simp only [false_iff, not_and]
      omega
    · rw [Option.map_eq_some_iff]
      constructor
      · rintro ⟨rest, hrest, rfl⟩
        obtain ⟨rfl, hfits⟩ := (ih (by omega)).mp hrest
        exact ⟨rfl, by omega⟩
      · rintro ⟨rfl, hfits⟩
        exact ⟨_, (ih (by omega)).mpr ⟨rfl, by omega⟩, rfl⟩

/-- What a bounded body that did not break off is. -/
theorem collect_zero {limit : ℕ} {chunks : List Bytes} {raw : Bytes}
    (h : collect limit 0 chunks = some raw) :
    raw = chunks.flatten ∧ chunks.flatten.length ≤ limit := by
  obtain ⟨heq, hfits⟩ := (collect_eq_some (Nat.zero_le _)).mp h
  exact ⟨heq, by omega⟩

theorem item_eq_ok {d : List (Str × Str)} {k v : Str}
    (h : (item d k : Attempting W Str) s = .ok v t) : Dict.get d k = some v ∧ s = t := by
  rw [item] at h
  cases hget : Dict.get d k with
  | none => rw [hget] at h; exact absurd h throw_ne_ok
  | some w =>
    rw [hget] at h
    obtain ⟨rfl, rfl⟩ := pure_eq_ok.mp h
    exact ⟨rfl, rfl⟩

theorem readOllamaInventory_eq_ok {kind : Str} {inventory : Inventory}
    (h : readOllamaInventory N kind s = .ok inventory t) :
    ∃ x, t.exchanges = s.exchanges ++ [x] ∧ Reported kind x inventory := by
  rw [readOllamaInventory] at h
  obtain ⟨⟨status, chunks, broken⟩, u, hstream, h⟩ := bind_eq_ok.mp h
  have hexchanges := stream_eq_ok hstream
  dsimp only at h
  by_cases hstatus : status ≠ 200
  · rw [if_pos hstatus] at h
    exact absurd h throw_ne_ok
  · rw [if_neg hstatus] at h
    rw [not_not] at hstatus
    -- within the bound, not broken off, and an inventory
    cases hraw : collect MAX_OLLAMA_TAGS_BYTES 0 chunks with
    | none => rw [hraw] at h; exact absurd h throw_ne_ok
    | some raw =>
      cases broken with
      | some e => rw [hraw] at h; exact absurd h throw_ne_ok
      | none =>
        rw [hraw] at h
        dsimp only at h
        obtain ⟨rfl, hfits⟩ := collect_zero hraw
        cases hparse : parseInventory chunks.flatten with
        | none => rw [hparse] at h; exact absurd h throw_ne_ok
        | some i =>
          rw [hparse] at h
          obtain ⟨rfl, rfl⟩ := pure_eq_ok.mp h
          exact ⟨_, hexchanges, chunks, by rw [hstatus], hfits, hparse⟩

theorem reachingDaemon_eq_ok {α : Type} {x : Attempting W α} {a : α}
    (h : reachingDaemon x s = .ok a t) : x s = .ok a t := by
  rw [reachingDaemon] at h
  cases hx : x s with
  | ok b u =>
    rw [hx] at h
    exact h
  | error e u =>
    rw [hx] at h
    cases e with
    | net e =>
      dsimp only at h
      split_ifs at h
    | identity state => cases h
    | status code => cases h

/-- The identity of a model was asserted: both inventories report its digest. -/
theorem assertOllamaIdentity_eq_ok {p : ProviderRecord} {publicModel : Str} {after : Bool}
    {identity : LocalIdentity} (h : assertOllamaIdentity N p publicModel after s = .ok identity t) :
    ∃ model digest resident tags running, Dict.get p.models publicModel = some model ∧
      Dict.get p.modelDigests publicModel = some digest ∧ identity = ⟨digest, digest, resident⟩ ∧
      t.exchanges = s.exchanges ++ [tags, running] ∧
      Pinned model digest resident tags running ∧ (after = true → resident = some digest) := by
  rw [assertOllamaIdentity] at h
  obtain ⟨model, _, hitem, h⟩ := bind_eq_ok.mp h
  obtain ⟨hmodel, rfl⟩ := item_eq_ok hitem
  obtain ⟨digest, _, hitem, h⟩ := bind_eq_ok.mp h
  obtain ⟨hdigest, rfl⟩ := item_eq_ok hitem
  obtain ⟨⟨i, j⟩, u, hread, h⟩ := bind_eq_ok.mp h
  have hread := reachingDaemon_eq_ok hread
  obtain ⟨i', v, htags, hread⟩ := bind_eq_ok.mp hread
  obtain ⟨j', v', hps, hread⟩ := bind_eq_ok.mp hread
  obtain ⟨hpair, hstate⟩ := pure_eq_ok.mp hread
  obtain ⟨hi, hj⟩ := Prod.mk.inj hpair
  rw [hi] at htags
  rw [hj, hstate] at hps
  -- the two exchanges: the tags, and what is running
  obtain ⟨x, hx, htags⟩ := readOllamaInventory_eq_ok htags
  obtain ⟨y, hy, hps⟩ := readOllamaInventory_eq_ok hps
  have hexchanges : u.exchanges = s.exchanges ++ [x, y] := by
    rw [hy, hx, List.append_assoc]
    rfl
  dsimp only at h
  -- the checks on the digests: installed, the pinned one, and resident after the call
  cases hobserved : Dict.get i.entries model with
  | none => rw [hobserved] at h; exact absurd h throw_ne_ok
  | some observed =>
    rw [hobserved] at h
    dsimp only at h
    by_cases hmatch : observed ≠ digest
    · rw [if_pos hmatch] at h
      exact absurd h throw_ne_ok
    rw [if_neg hmatch] at h
    by_cases hresident : Dict.get j.entries model ≠ none ∧ Dict.get j.entries model ≠ some digest
    · rw [if_pos hresident] at h
      exact absurd h throw_ne_ok
    rw [if_neg hresident] at h
    by_cases hmissing : after = true ∧ Dict.get j.entries model = none
    · rw [if_pos hmissing] at h
      exact absurd h throw_ne_ok
    rw [if_neg hmissing] at h
    obtain ⟨rfl, rfl⟩ := pure_eq_ok.mp h
    rw [not_not] at hmatch
    rw [not_and, not_not] at hresident
    refine ⟨model, digest, Dict.get j.entries model, x, y, hmodel, hdigest, by rw [hmatch],
      hexchanges, ⟨i, j, htags, hps, hobserved.trans (congrArg some hmatch), rfl, ?_⟩, ?_⟩
    · intro d hd
      have hsome : Dict.get j.entries model = some d := hd
      exact Option.some.inj (hsome.symm.trans (hresident (by simp [hsome])))
    · intro hafter
      exact hresident fun hnone => hmissing ⟨hafter, hnone⟩

theorem observeStoreBytes_eq_ok {env : Env} {p : ProviderRecord} {publicModel : Str}
    {report : LocalStore.Report} (h : observeStoreBytes N env p publicModel s = .ok report t) :
    t.exchanges = s.exchanges ∧
      ∃ model, Dict.get p.models publicModel = some model ∧
        StoreHeld env p publicModel model report := by
  rw [observeStoreBytes] at h
  -- the name and the two pins of the provider, then one visit to the store, which is no exchange
  obtain ⟨model, _, hitem, h⟩ := bind_eq_ok.mp h
  obtain ⟨hmodel, rfl⟩ := item_eq_ok hitem
  obtain ⟨manifestPin, _, hitem, h⟩ := bind_eq_ok.mp h
  obtain ⟨hmanifest, rfl⟩ := item_eq_ok hitem
  obtain ⟨weightPin, _, hitem, h⟩ := bind_eq_ok.mp h
  obtain ⟨hweight, rfl⟩ := item_eq_ok hitem
  obtain ⟨s', _, hget, h⟩ := bind_eq_ok.mp h
  obtain ⟨_, u, hset, h⟩ := bind_eq_ok.mp h
  cases hget
  cases hset
  rw [storeAnswer.eq_def] at h
  rcases hfound : (N.store s.world).1 with e | ⟨disk, reader⟩
  · rw [hfound] at h
    cases e <;> exact absurd h throw_ne_ok
  · rw [hfound] at h
    dsimp only at h
    rcases hverify : LocalStore.verifyStoreBytes disk model manifestPin weightPin
      (env.getD (lit "SZL_ROUTER_OLLAMA_MODELS_DIR")) reader with ⟨found, after⟩ | ⟨_ | _, _⟩
    · rw [hverify] at h
      obtain ⟨rfl, rfl⟩ := pure_eq_ok.mp h
      exact ⟨rfl, model, hmodel, manifestPin, weightPin, disk, reader, after, hmanifest, hweight,
        hverify⟩
    · rw [hverify] at h
      exact absurd h throw_ne_ok
    · rw [hverify] at h
      exact absurd h throw_ne_ok

theorem storeCheck_eq_ok {env : Env} {p : ProviderRecord} {publicModel : Str}
    {store : Option LocalStore.Report} (h : storeCheck N env p publicModel s = .ok store t) :
    t.exchanges = s.exchanges ∧
      (publicModel ∈ Dict.keys p.modelWeightDigests → ∃ model report,
        Dict.get p.models publicModel = some model ∧ store = some report ∧
          StoreHeld env p publicModel model report) ∧
      (publicModel ∉ Dict.keys p.modelWeightDigests → store = none) := by
  rw [storeCheck] at h
  split_ifs at h with hpinned
  · obtain ⟨report, u, hreport, h⟩ := bind_eq_ok.mp h
    obtain ⟨rfl, rfl⟩ := pure_eq_ok.mp h
    obtain ⟨hexchanges, model, hmodel, hheld⟩ := observeStoreBytes_eq_ok hreport
    exact ⟨hexchanges, fun _ => ⟨model, report, hmodel, rfl, hheld⟩,
      fun hnot => absurd hpinned hnot⟩
  · obtain ⟨rfl, rfl⟩ := pure_eq_ok.mp h
    exact ⟨rfl, fun hmem => absurd hmem hpinned, fun _ => rfl⟩

theorem completion_eq_ok {env : Env} {p : ProviderRecord} {r : ChatRequest} {model : Str}
    {upstream : Dict} {status : ℤ} (h : completion N env p r model s = .ok (upstream, status) t) :
    ∃ x, t.exchanges = s.exchanges ++ [x] ∧ status = 200 ∧
      Completed env p (upstreamPayload r model) upstream x := by
  rw [completion] at h
  obtain ⟨⟨value, code⟩, u, hcall, h⟩ := bind_eq_ok.mp h
  dsimp only at h
  -- the shape of the completion, and before it the one exchange
  cases hvalid : validateCompletion (.obj value) with
  | error message => rw [hvalid] at h; exact absurd h throw_ne_ok
  | ok _ =>
    rw [hvalid] at h
    obtain ⟨hpair, rfl⟩ := pure_eq_ok.mp h
    obtain ⟨rfl, rfl⟩ := Prod.mk.inj hpair
    rw [callProvider] at hcall
    split_ifs at hcall
    · exact absurd hcall throw_ne_ok
    obtain ⟨⟨code', chunks, broken⟩, v, hstream, hcall⟩ := bind_eq_ok.mp hcall
    have hexchanges := stream_eq_ok hstream
    dsimp only at hcall
    -- within the bound, not broken off, status 200 and a completion
    cases hraw : collect MAX_RESPONSE_BYTES 0 chunks with
    | none => rw [hraw] at hcall; exact absurd hcall throw_ne_ok
    | some raw =>
      cases broken with
      | some e => rw [hraw] at hcall; exact absurd hcall throw_ne_ok
      | none =>
        rw [hraw] at hcall
        dsimp only at hcall
        obtain ⟨rfl, hfits⟩ := collect_zero hraw
        by_cases hstatus : code' ≠ 200
        · rw [if_pos hstatus] at hcall
          exact absurd hcall throw_ne_ok
        rw [if_neg hstatus] at hcall
        rw [not_not] at hstatus
        cases hparse : parseCompletion chunks.flatten with
        | none => rw [hparse] at hcall; exact absurd hcall throw_ne_ok
        | some d =>
          rw [hparse] at hcall
          obtain ⟨hpair, rfl⟩ := pure_eq_ok.mp hcall
          obtain ⟨rfl, rfl⟩ := Prod.mk.inj hpair
          exact ⟨_, hexchanges, hstatus, chunks, by rw [hstatus], hfits, hparse, hvalid⟩

/-- **What stands behind an attempt that succeeds.** For any provider there is the exchange whose
body is the completion; for a local daemon, its inventory before and after as well, and the bytes
of the store where the weights are pinned. -/
theorem attempt_witnessed {env : Env} {p : ProviderRecord} {r : ChatRequest} {model : Str}
    {upstream : Dict} {status : ℤ} {identity : Option Json}
    (h : attemptCandidate N env p r model s = .ok (upstream, status, identity) t) :
    ∃ new, t.exchanges = s.exchanges ++ new ∧ status = 200 ∧
      Witnessed env p r model upstream new identity := by
  rw [attemptCandidate] at h
  cases htype : p.providerType with
  | openaiHttps =>
    rw [htype] at h
    obtain ⟨⟨value, code⟩, u, hcompletion, h⟩ := bind_eq_ok.mp h
    obtain ⟨heq, rfl⟩ := pure_eq_ok.mp h
    obtain ⟨rfl, rfl, rfl⟩ : value = upstream ∧ code = status ∧ none = identity := by
      simpa using heq
    obtain ⟨x, hexchanges, rfl, hcompleted⟩ := completion_eq_ok hcompletion
    exact ⟨[x], hexchanges, rfl, .remote htype hcompleted⟩
  | ollamaLoopback =>
    rw [htype] at h
    obtain ⟨before, s₁, hbefore, h⟩ := bind_eq_ok.mp h
    obtain ⟨store, s₂, hstore, h⟩ := bind_eq_ok.mp h
    obtain ⟨⟨value, code⟩, s₃, hcompletion, h⟩ := bind_eq_ok.mp h
    dsimp only at h
    by_cases hnamed : Dict.get value (lit "model") ≠ some (.str model)
    · rw [if_pos hnamed] at h
      exact absurd h throw_ne_ok
    rw [if_neg hnamed] at h
    obtain ⟨after, s₄, hafter, h⟩ := bind_eq_ok.mp h
    obtain ⟨expected, s₅, hitem, h⟩ := bind_eq_ok.mp h
    obtain ⟨heq, rfl⟩ := pure_eq_ok.mp h
    obtain ⟨rfl, rfl, rfl⟩ : value = upstream ∧ code = status ∧
      some (identityJson expected before after store) = identity := by simpa using heq
    obtain ⟨hpin, rfl⟩ := item_eq_ok hitem
    rw [not_not] at hnamed
    -- the two assertions look up the same name and the same digest
    obtain ⟨upstreamModel, digest, resident, tags, running, hknown, hdigest, rfl, hx, hpinned, -⟩ :=
      assertOllamaIdentity_eq_ok hbefore
    obtain ⟨upstreamModel', digest', resident', tags', running', hknown', hdigest', rfl, hy,
      hpinned', hresident⟩ := assertOllamaIdentity_eq_ok hafter
    obtain rfl := Option.some.inj (hknown.symm.trans hknown')
    obtain rfl := Option.some.inj (hdigest.symm.trans hdigest')
    obtain rfl := Option.some.inj (hdigest.symm.trans hpin)
    obtain rfl := hresident rfl
    obtain ⟨hs₂, hheld, hunheld⟩ := storeCheck_eq_ok hstore
    obtain ⟨x, hs₃, rfl, hcompleted⟩ := completion_eq_ok hcompletion
    refine ⟨[tags, running, x, tags', running'], ?_, rfl, .loopback htype hknown hdigest hpinned ?_
      hunheld hcompleted hnamed hpinned'⟩
    · rw [hy, hs₃, hs₂, hx]
      simp
    · intro hmem
      obtain ⟨model', report, hmodel', hreport, hstoreHeld⟩ := hheld hmem
      obtain rfl := Option.some.inj (hknown.symm.trans hmodel')
      exact ⟨report, hreport, hstoreHeld⟩

end

/-! ### Runs -/

namespace Call

section

variable {W : Type} {T : W → W → Prop} [IsPreorder W T] {C : Call} {R : Runtime W}

/-- An attempt is made in a state of the run, and the run goes on from the state it leaves. -/
def Attempted (T : W → W → Prop) (C : Call) (R : Runtime W) (w w' : W) (d : Dispatch) : Prop :=
  ∃ v, T w v ∧
    d.outcome = (R.attempt d.provider C.request d.candidate.upstreamModel d.timeout v).1 ∧
    T (R.attempt d.provider C.request d.candidate.upstreamModel d.timeout v).2 w'

theorem turn_attempted (hclock : ∀ w, T w (R.monotonic w).2) {c : Candidate} {rows : List Row}
    {w : W} {d : Dispatch} (h : (C.turn R c rows w).dispatched = some d) :
    Attempted T C R w (C.turn R c rows w).world d := by
  rw [turn] at h ⊢
  cases hp : providerById C.settings c.providerId with
  | none => rw [hp] at h; cases h
  | some p =>
    rw [hp] at h
    dsimp only at h ⊢
    split_ifs at h ⊢
    obtain rfl := Option.some.inj h
    exact ⟨_, hclock w, rfl, settle_moves hclock rows c p _ _ _⟩

/-- By induction on the candidates: every attempt of a run is made in a state of the run, and
what the clock and the attempts do from there is a stretch of the run's own. -/
theorem routeLoop_attempted (hclock : ∀ w, T w (R.monotonic w).2)
    (hattempt : ∀ p model timeout w, T w (R.attempt p C.request model timeout w).2)
    {cs : List Candidate} {rows : List Row} {w : W} {d : Dispatch}
    (h : d ∈ (C.routeLoop R cs rows w).dispatched) :
    Attempted T C R w (C.routeLoop R cs rows w).world d := by
  induction cs generalizing rows w with
  | nil => exact absurd h List.not_mem_nil
  | cons c cs ih =>
    have hmoves := turn_moves (C := C) (c := c) hclock (fun p _ => hattempt p _) rows w
    have hfirst : (C.turn R c rows w).dispatched = some d →
        Attempted T C R w (C.turn R c rows w).world d := turn_attempted hclock
    rw [routeLoop] at h ⊢
    dsimp only at h ⊢
    split at h
    · have hrest : T (C.turn R c rows w).world
          (C.routeLoop R cs (C.turn R c rows w).rows (C.turn R c rows w).world).world :=
        routeLoop_moves hclock (fun c _ p _ => hattempt p _) _ _
      -- the attempt is that of this pass, or one of the passes after it
      rcases List.mem_append.mp h with h | h
      · obtain ⟨v, hv, houtcome, hafter⟩ := hfirst (Option.mem_toList.mp h)
        exact ⟨v, hv, houtcome, trans_of T hafter hrest⟩
      · obtain ⟨v, hv, houtcome, hafter⟩ := ih h
        exact ⟨v, trans_of T hmoves hv, houtcome, hafter⟩
    · exact hfirst (Option.mem_toList.mp h)
    · exact hfirst (Option.mem_toList.mp h)

end

end Call

/-! ### Calls -/

/-- The answer of a provider has each key once. -/
theorem stable_of_parseCompletion {raw : Bytes} {d : Dict} (h : parseCompletion raw = some d) :
    Stable canonicalDumps (.obj d) := by
  rw [parseCompletion] at h
  obtain ⟨text, htext, h⟩ := Option.bind_eq_some_iff.mp h
  obtain ⟨value, hvalue, h⟩ := Option.bind_eq_some_iff.mp h
  split_ifs at h
  cases value with
  | obj d' =>
    obtain rfl := Option.some.inj h
    exact loads_stable canonicalDumps (decodeUtf8_clean htext) hvalue
  | null | bool _ | num _ | str _ | arr _ => cases h

theorem stable_report (r : LocalStore.Report) : Stable canonicalDumps r.json := by
  refine stable_obj ?_ ?_
  · show (["state", "basis", "observation_scope", "observation_started_at", "observed_at",
      "manifest_sha256", "weight_sha256", "verified_blob_count", "bytes_hashed",
      "loaded_weight_attestation", "post_completion_store_check"].map lit).Nodup
    decide
  · simp only [List.forall_mem_cons]
    exact ⟨rfl, rfl, rfl, rfl, rfl, rfl, rfl, trivial, trivial, rfl, rfl, List.forall_mem_nil _⟩

theorem stable_identityJson (expected : Str) (before after : LocalIdentity)
    (store : Option LocalStore.Report) :
    Stable canonicalDumps (identityJson expected before after store) := by
  have hkeys : (["state", "basis", "expected_digest", "pre_request_manifest_digest",
      "pre_request_resident_digest", "post_request_manifest_digest",
      "post_request_resident_digest", "independent_attestation", "license_state",
      "local_store_bytes"].map lit).Nodup := by decide
  refine stable_obj ?_ ?_
  · cases store with
    | none => exact hkeys.sublist (List.sublist_append_left _ [lit "local_store_bytes"])
    | some r => exact hkeys
  · rw [List.forall_mem_append]
    constructor
    · simp only [List.forall_mem_cons]
      exact ⟨rfl, rfl, rfl, rfl, stable_jsonOr stable_str, rfl, stable_jsonOr stable_str, rfl, rfl,
        List.forall_mem_nil _⟩
    · intro q hq
      obtain ⟨r, -, rfl⟩ := Option.map_eq_some_iff.mp (Option.mem_toList.mp hq)
      exact stable_report r

/-- What an attempt is witnessed by can be read back. -/
theorem Witnessed.keyed {env : Env} {p : ProviderRecord} {r : ChatRequest} {model : Str}
    {upstream : Dict} {new : List Exchange} {identity : Option Json}
    (h : Witnessed env p r model upstream new identity) :
    Stable canonicalDumps (.obj upstream) ∧ ∀ v ∈ identity, Stable canonicalDumps v := by
  cases h with
  | remote provider completed =>
    obtain ⟨chunks, -, -, hparse, -⟩ := completed
    exact ⟨stable_of_parseCompletion hparse, fun v hv => by cases hv⟩
  | loopback provider known pin before held unheld completed named after =>
    obtain ⟨chunks, -, -, hparse, -⟩ := completed
    refine ⟨stable_of_parseCompletion hparse, fun v hv => ?_⟩
    obtain rfl := Option.some.inj hv
    exact stable_identityJson _ _ _ _

/-- The exchanges only grow. -/
def Grows {W : Type} (s t : Net W) : Prop := s.exchanges <+: t.exchanges

instance {W : Type} : IsPreorder (Net W) Grows where
  refl _ := List.prefix_rfl
  trans _ _ _ := List.IsPrefix.trans

section

variable {W : Type} (N : Wire W)

theorem clock_grows (env : Env) (s : Net W) : Grows s ((N.runtime env).monotonic s).2 :=
  List.prefix_rfl

theorem attempt_grows (env : Env) (p : ProviderRecord) (r : ChatRequest) (model : Str)
    (timeout : Binary64) (s : Net W) :
    Grows s ((N.runtime env).attempt p r model timeout s).2 := by
  rw [(runtime_attempt N env p r model timeout s).1]
  exact Adds.isPrefix ((attempt_sends N env p r model).final s)

end

/-- The exchanges of an attempt that succeeds are among those of the call, in one piece. -/
theorem dispatched_witnessed {W : Type} (N : Wire W) {settings : Settings} {env : Env}
    {request : ChatRequest} {received : Str} {w : W} {d : Dispatch}
    (hd : d ∈ (chatWith (N.runtime env) settings env request received ⟨w, []⟩).dispatched)
    {upstream : Dict} {status : ℤ} {identity : Option Json}
    (houtcome : d.outcome = .success upstream status identity) :
    status = 200 ∧ ∃ before new after,
      (chatWith (N.runtime env) settings env request received ⟨w, []⟩).world.exchanges =
        before ++ new ++ after ∧
      Witnessed env d.provider request d.candidate.upstreamModel upstream new identity := by
  rcases chatWith_cases (N.runtime env) settings env request received ⟨w, []⟩ with
    ⟨plan, digest, hadmitted⟩ | ⟨reply, hidle⟩
  · rw [hadmitted.chatWith_eq] at hd ⊢
    have hgrows := fun p model timeout s => attempt_grows N env p request model timeout s
    -- the world only grows, so what the dispatch did is a stretch of the exchanges
    obtain ⟨v, -, hattempt, hafter⟩ := Call.routeLoop_attempted (T := Grows)
      (C := ⟨settings, env, request, digest, plan.digest, ((N.runtime env).monotonic ⟨w, []⟩).1⟩)
      (clock_grows N env) hgrows hd
    obtain ⟨hstate, hsuccess⟩ := runtime_attempt N env d.provider request
      d.candidate.upstreamModel d.timeout v
    obtain ⟨t, ht⟩ := hsuccess _ _ _ (hattempt.symm.trans houtcome)
    obtain ⟨new, hnew, hstatus, hwitnessed⟩ := attempt_witnessed ht
    rw [hstate, ht] at hafter
    obtain ⟨after, hafter⟩ := hafter
    refine ⟨hstatus, v.exchanges, new, after, ?_, hwitnessed⟩
    rw [← hafter]
    exact congrArg (· ++ after) hnew
  · rw [hidle] at hd
    exact absurd hd List.not_mem_nil

/-- **What stands behind the answers of a call**: an attempt that succeeds has its exchanges
among those of the call, in one piece; and a completion that is answered is that of such an
attempt, and verifies. -/
theorem completions_witnessed {W : Type} (N : Wire W) (L : Lax) (T : UrlTables) (env : Env)
    (request : ChatRequest) (received : Str) (w : W) :
    (∀ d ∈ (chat L T (N.runtime env) env request received ⟨w, []⟩).dispatched,
      ∀ upstream status identity, d.outcome = .success upstream status identity →
        status = 200 ∧ ∃ before new after,
          (chat L T (N.runtime env) env request received ⟨w, []⟩).world.exchanges =
            before ++ new ++ after ∧
          Witnessed env d.provider request d.candidate.upstreamModel upstream new identity) ∧
    ∀ body receipt,
      (chat L T (N.runtime env) env request received ⟨w, []⟩).reply = .completed body receipt →
        Verifies body request receipt ∧
        ∃ d ∈ (chat L T (N.runtime env) env request received ⟨w, []⟩).dispatched,
          ∃ upstream identity, d.outcome = .success upstream 200 identity ∧
            body = Dict.set upstream (lit "szl_receipt")
              ((Dict.get body (lit "szl_receipt")).getD .null)
    := by
  rw [chat]
  refine ⟨fun d hd upstream status identity => dispatched_witnessed N hd, ?_⟩
  intro body receipt hreply
  obtain ⟨C, before, d, upstream, status, identity, elapsed, rfl, hd, houtcome, hcomplete⟩ :=
    complete_of_chat hreply
  -- a completed reply is that of a dispatch, which was witnessed
  obtain ⟨rfl, _, new, _, -, hwitnessed⟩ := dispatched_witnessed N hd houtcome
  obtain ⟨hupstream, hidentity⟩ := hwitnessed.keyed
  refine ⟨Call.verifies_of_complete hupstream hidentity hcomplete, d, hd, upstream, identity,
    houtcome, ?_⟩
  obtain ⟨_, _, _, _, _, _, -, -, -, -, -, -, heq⟩ := Call.complete_eq_ok hcomplete
  obtain ⟨rfl, -⟩ := Reply.completed.inj heq
  rw [Dict.get_set_self]
  rfl

end Gateway

end SzlRouter
