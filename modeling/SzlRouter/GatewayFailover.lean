/-
Failover of one chat call.

Each pass of the candidate loop leaves one row; only the last row can leave open whether
the provider did the work, and it is there exactly when the failure says that a retry is
not safe.

* `turn_pass` — what one pass can do;
* `routeLoop_ran` — what a run does, by induction on the candidates;
* `Closes.accounts` — what the caller is told of a run;
* `failover_safe` — the contract of a call, for any list of candidates and for the plan of
  a chat request.
-/
import SzlRouter.Gateway

namespace SzlRouter

namespace Gateway

open Py

/-! ### Outcomes -/

/-- The outcomes after which nothing else is tried; a success that is returned ends the
route as well. -/
def Outcome.final : Outcome → Bool
  | .modelIdentity _ | .wallTimeout | .httpTimeout | .crashed _ => true
  | .httpStatus status => 400 ≤ status ∧ status < 500 ∧ status ≠ 429
  | .success _ _ _ | .failed _ => false

/-- An outcome of `attempt_candidate` that the loop has a handler for, with a status and
names that can be written down. -/
def Outcome.Reportable : Outcome → Prop
  | .success _ status _ | .httpStatus status => dumpable canonicalDumps (.int status) = true
  | .modelIdentity state => Clean state
  | .failed name => Clean name
  | .wallTimeout | .httpTimeout => True
  | .crashed _ => False

/-- What a row is written with can be hashed. -/
structure Row.Plain (r : Row) : Prop where
  state : Clean r.state
  status : ∀ n ∈ r.statusCode, dumpable canonicalDumps (.int n) = true
  error : ∀ e ∈ r.errorType, Clean e

theorem Row.plain_state {id state : Str} {unknown : Bool} (h : Clean state) :
    Row.Plain ⟨id, state, none, unknown, none⟩ :=
  ⟨h, fun _ hn => (by cases hn), fun _ he => (by cases he)⟩

theorem Row.plain_status {id state : Str} {n : ℤ} (h : Clean state)
    (hn : dumpable canonicalDumps (.int n) = true) : Row.Plain ⟨id, state, some n, false, none⟩ :=
  ⟨h, fun _ hm => Option.some.inj hm ▸ hn, fun _ he => (by cases he)⟩

theorem Row.plain_error {id state e : Str} (h : Clean state) (he : Clean e) :
    Row.Plain ⟨id, state, none, false, some e⟩ :=
  ⟨h, fun _ hn => (by cases hn), fun _ hf => Option.some.inj hf ▸ he⟩

theorem Row.Plain.hashable {r : Row} (h : r.Plain) (hid : Clean r.providerId) :
    Hashable r.json := by
  refine hashable_obj ?_
  simp only [List.forall_mem_append, List.forall_mem_cons]
  refine ⟨⟨⟨⟨⟨clean_lit (by decide), hashable_str hid⟩,
    ⟨clean_lit (by decide), hashable_str h.state⟩, List.forall_mem_nil _⟩, ?_⟩, ?_⟩, ?_⟩
  · intro p hp
    obtain ⟨n, hn, rfl⟩ := Option.map_eq_some_iff.mp (Option.mem_toList.mp hp)
    exact ⟨clean_lit (by decide), trivial, h.status n hn⟩
  · intro p hp
    split_ifs at hp
    · obtain rfl := List.mem_singleton.mp hp
      exact ⟨clean_lit (by decide), hashable_str (clean_lit (by decide))⟩
    · cases hp
  · intro p hp
    obtain ⟨e, he, rfl⟩ := Option.map_eq_some_iff.mp (Option.mem_toList.mp hp)
    exact ⟨clean_lit (by decide), hashable_str (h.error e he)⟩

/-! ### The names of exceptions -/

theorem clean_of_canonical_error {v : Json} {name : Str} (h : canonical v = .error name) :
    Clean name := by
  rw [canonical] at h
  split at h
  · rw [← Except.error.inj h]
    exact clean_lit (by decide)
  · split at h
    · rw [← Except.error.inj h]
      exact clean_lit (by decide)
    · cases h

theorem clean_of_sha256_error {v : Json} {name : Str} (h : sha256 v = .error name) :
    Clean name := by
  rw [sha256] at h
  cases hv : canonical v with
  | error e =>
    rw [hv] at h
    exact Except.error.inj h ▸ clean_of_canonical_error hv
  | ok b =>
    rw [hv] at h
    cases h

theorem clean_of_sha256 {v : Json} {digest : Str} (h : sha256 v = .ok digest) : Clean digest := by
  rw [sha256] at h
  cases hv : canonical v with
  | error e =>
    rw [hv] at h
    cases h
  | ok b =>
    rw [hv] at h
    rw [← Except.ok.inj h]
    exact (isHexDigest_ascii (sha256Hex_hex b)).clean

namespace Call

variable {W : Type} {C : Call} {R : Runtime W} {c : Candidate} {rows : List Row} {w : W}

theorem clean_of_complete_error {upstream : Dict} {status : ℤ} {identity : Option Json}
    {elapsed : Binary64} {name : Str}
    (h : C.complete rows c upstream status identity elapsed = .error name) : Clean name := by
  rw [complete] at h
  rcases Procedure.except_bind_eq_error.mp h with h | ⟨_, _, h⟩
  · exact clean_of_sha256_error h
  rcases Procedure.except_bind_eq_error.mp h with h | ⟨_, _, h⟩
  · exact clean_of_sha256_error h
  rcases Procedure.except_bind_eq_error.mp h with h | ⟨_, _, h⟩
  · exact clean_of_canonical_error h
  -- what is left raises an exception of its own
  split at h
  · rw [← Except.error.inj h]
    exact clean_lit (by decide)
  · split at h
    · rw [← Except.error.inj h]
      exact clean_lit (by decide)
    · split_ifs at h
      rw [← Except.error.inj h]
      exact clean_lit (by decide)

/-! ### One pass -/

/-- The row that a candidate leaves, given the attempt on it. -/
structure Leaves (c : Candidate) (d : Option Dispatch) (row : Row) : Prop where
  provider : row.providerId = c.providerId
  candidate : ∀ e ∈ d, e.candidate = c
  plain : (∀ e ∈ d, e.outcome.Reportable) → row.Plain

/-- What one pass can do: the rows it leaves, the attempt it makes, and how it ends. The cases
are the outcomes that the source tells apart. -/
inductive Pass (C : Call) (c : Candidate) (rows : List Row) :
    List Row → Option Dispatch → Next → Prop
  /-- A skip, or an outcome after which the next candidate is tried. -/
  | again {row : Row} {d : Option Dispatch} : Leaves c d row → row.outcomeUnknown = false →
      (∀ e ∈ d, e.outcome.final = false) → Pass C c rows (rows ++ [row]) d .again
  /-- The deadline, a timeout or a refusal of the request. -/
  | stop {row : Row} {d : Option Dispatch} : Leaves c d row →
      Pass C c rows (rows ++ [row]) d .stop
  | identity {row : Row} {d : Option Dispatch} : Leaves c d row → row.outcomeUnknown = false →
      Pass C c rows (rows ++ [row]) d
        (.finish (fail 503 (C.failure (rows ++ [row]) "LOCAL_MODEL_IDENTITY_UNAVAILABLE" false)))
  | unavailable {row : Row} {d : Option Dispatch} : Leaves c d row → row.outcomeUnknown = true →
      Pass C c rows (rows ++ [row]) d
        (.finish (fail 503 (C.failure (rows ++ [row]) "LOCAL_ROUTE_UNAVAILABLE" true)))
  | completed {d : Dispatch} {upstream : Dict} {status : ℤ} {identity : Option Json}
      {elapsed : Binary64} {reply : Reply} : d.candidate = c →
      d.outcome = .success upstream status identity →
      C.complete rows c upstream status identity elapsed = .ok reply →
      Pass C c rows rows (some d) (.finish reply)
  | crashed {d : Dispatch} {name : Str} : d.candidate = c → d.outcome = .crashed name →
      Pass C c rows rows (some d) (.finish (.crashed name))
  | unlisted : providerById C.settings c.providerId = none →
      Pass C c rows rows none (.finish (.crashed (lit "LookupError")))

theorem providerId_of_providerById {settings : Settings} {id : Str} {p : ProviderRecord}
    (h : providerById settings id = some p) : p.id = id := (providerById_eq_some.mp h).2

/-- The handlers around an attempt. -/
theorem settle_pass {provider : ProviderRecord} (hid : provider.id = c.providerId)
    (timeout remaining : Binary64) (outcome : Outcome) (w : W) :
    Pass C c rows (C.settle R rows c provider remaining outcome w).1
      (some ⟨c, provider, timeout, outcome⟩)
      (C.settle R rows c provider remaining outcome w).2.1 := by
  -- every row names the provider and comes from this dispatch; only its text differs
  have hleaves : ∀ {row : Row}, row.providerId = provider.id → (outcome.Reportable → row.Plain) →
      Leaves c (some ⟨c, provider, timeout, outcome⟩) row := by
    intro row hrow hplain
    refine ⟨hrow.trans hid, fun e he => Option.some.inj he ▸ rfl, fun h => hplain (h _ rfl)⟩
  -- whether the outcome ends the loop is decided by the outcome alone
  have hfinal : ∀ {b : Bool}, outcome.final = b →
      ∀ e ∈ some (⟨c, provider, timeout, outcome⟩ : Dispatch), e.outcome.final = b := by
    intro b hb e he
    rw [← Option.some.inj he]
    exact hb
  cases outcome with
  -- a receipt that cannot be made is an error of the candidate, and the next one is tried
  | success upstream status identity =>
    rw [settle]
    dsimp only
    cases hcomplete : C.complete rows c upstream status identity
        (C.elapsedMs (R.monotonic w).1) with
    | ok reply => exact .completed rfl rfl hcomplete
    | error name =>
      have hclean := clean_of_complete_error hcomplete
      exact .again (hleaves rfl fun _ => Row.plain_error (clean_lit (by decide)) hclean) rfl
        (hfinal rfl)
  | modelIdentity state =>
    exact .identity (hleaves rfl fun h => Row.plain_state h) rfl
  -- the wall clock of the candidate, or that of the whole call
  | wallTimeout =>
    rw [settle]
    dsimp only
    split
    · exact .unavailable (hleaves rfl fun _ => Row.plain_state (clean_lit (by decide))) rfl
    · refine .stop (hleaves rfl fun _ => Row.plain_state ?_)
      split_ifs <;> exact clean_lit (by decide)
  | httpTimeout => exact .stop (hleaves rfl fun _ => Row.plain_state (clean_lit (by decide)))
  | httpStatus status =>
    rw [settle]
    dsimp only
    have hrow : Leaves c _ ⟨provider.id, lit "UPSTREAM_HTTP_ERROR", some status, false, none⟩ :=
      hleaves rfl fun h => Row.plain_status (clean_lit (by decide)) h
    split_ifs with hrefused
    · exact .stop hrow
    · exact .again hrow rfl (hfinal (decide_eq_false hrefused))
  | failed name =>
    exact .again (hleaves rfl fun h => Row.plain_error (clean_lit (by decide)) h) rfl (hfinal rfl)
  | crashed name => exact .crashed rfl rfl

/-- What one pass can do: try the next candidate with one row more, or end the loop with a reply.
Its dispatch, if it makes one, is to the candidate of the pass. -/
theorem turn_pass (C : Call) (R : Runtime W) (c : Candidate) (rows : List Row) (w : W) :
    Pass C c rows (C.turn R c rows w).rows (C.turn R c rows w).dispatched
      (C.turn R c rows w).next := by
  rw [turn]
  cases hp : providerById C.settings c.providerId with
  | none => exact .unlisted hp
  | some p =>
    have hid := providerId_of_providerById hp
    have hskip : ∀ {state : String}, Clean (lit state) → Leaves c none (Row.plain p.id state) :=
      fun hstate => ⟨hid, fun _ he => (by cases he), fun _ => Row.plain_state hstate⟩
    dsimp only
    split_ifs
    · exact .stop (hskip (clean_lit (by decide)))
    · exact .again (hskip (clean_lit (by decide))) rfl fun _ he => (by cases he)
    · exact settle_pass hid _ _ _ _

/-! ### A run -/

/-- No row leaves the outcome open. As long as that is so a further candidate cannot complete a
request for the second time. -/
def Settled (rows : List Row) : Prop := ∀ row ∈ rows, row.outcomeUnknown = false

theorem Settled.append {row : Row} (h : Settled rows) (hrow : row.outcomeUnknown = false) :
    Settled (rows ++ [row]) := by
  intro r hr
  rcases List.mem_append.mp hr with hr | hr
  · exact h r hr
  · rw [List.mem_singleton.mp hr]
    exact hrow

/-- The ways a call that tries its candidates can end, with the rows that it reports and
the attempts that it made. -/
inductive Closes (C : Call) (dispatched : List Dispatch) : List Row → Reply → Prop
  | exhausted {rows : List Row} : Settled rows.dropLast →
      Closes C dispatched rows (C.exhausted rows)
  | identity {rows : List Row} : Settled rows →
      Closes C dispatched rows (fail 503 (C.failure rows "LOCAL_MODEL_IDENTITY_UNAVAILABLE" false))
  | unavailable {rows : List Row} {row : Row} : Settled rows → row.outcomeUnknown = true →
      Closes C dispatched (rows ++ [row])
        (fail 503 (C.failure (rows ++ [row]) "LOCAL_ROUTE_UNAVAILABLE" true))
  | completed {rows : List Row} {d : Dispatch} {upstream : Dict} {status : ℤ}
      {identity : Option Json} {elapsed : Binary64} {reply : Reply} : Settled rows →
      dispatched.getLast? = some d → d.outcome = .success upstream status identity →
      C.complete rows d.candidate upstream status identity elapsed = .ok reply →
      Closes C dispatched (rows ++ [successRow d.candidate.providerId status]) reply

/-- How a run ends: with the rows that it adds, one for each candidate visited, or by an
exception without a handler. -/
inductive Ends (C : Call) (rows : List Row) (visited : List Candidate)
    (dispatched : List Dispatch) : Reply → Prop
  | closed {added : List Row} {reply : Reply} :
      added.map Row.providerId = visited.map Candidate.providerId →
      ((∀ d ∈ dispatched, d.outcome.Reportable) → ∀ row ∈ added, row.Plain) →
      Closes C dispatched (rows ++ added) reply → Ends C rows visited dispatched reply
  | crashed {d : Dispatch} {name : Str} : d ∈ dispatched → d.outcome = .crashed name →
      Ends C rows visited dispatched (.crashed name)
  | unlisted {c : Candidate} {name : Str} : c ∈ visited →
      providerById C.settings c.providerId = none → Ends C rows visited dispatched (.crashed name)

/-- What a run over these candidates does, after these rows: whom it visits, whom it attempts and
in what order, after which outcomes it goes on, and how it ends. -/
structure Ran (C : Call) (cs : List Candidate) (rows : List Row) (run : Run W) : Prop where
  visited : run.visited <+: cs
  order : (run.dispatched.map Dispatch.candidate).Sublist run.visited
  goesOn : ∀ d ∈ run.dispatched.dropLast, d.outcome.final = false
  ends : Ends C rows run.visited run.dispatched run.reply

/-- More attempts before the others change nothing in how a call ends. -/
theorem Closes.after {dispatched : List Dispatch} {reply : Reply} (before : List Dispatch)
    (h : Closes C dispatched rows reply) : Closes C (before ++ dispatched) rows reply := by
  cases h with
  | exhausted hrows => exact .exhausted hrows
  | identity hrows => exact .identity hrows
  | unavailable hrows hrow => exact .unavailable hrows hrow
  | completed hrows hlast houtcome hcomplete =>
    refine .completed hrows ?_ houtcome hcomplete
    rw [List.getLast?_append, hlast]
    rfl

/-- A run of one pass. -/
theorem Ran.single {d : Option Dispatch} {cs : List Candidate} {w : W} {rows' : List Row}
    {reply : Reply} (hd : ∀ e ∈ d, e.candidate = c)
    (hends : Ends C rows [c] d.toList reply) :
    Ran C (c :: cs) rows ⟨w, reply, rows', [c], d.toList⟩ where
  visited := ⟨cs, rfl⟩
  order := by
    cases d with
    | none => exact List.nil_sublist _
    | some e =>
      obtain rfl := hd e rfl
      exact List.Sublist.refl _
  goesOn := by
    intro e he
    cases d with
    | none => cases he
    | some e' => cases he
  ends := hends

/-- A pass that goes on, and the run after it. -/
theorem Ran.cons {row : Row} {d : Option Dispatch} {cs : List Candidate} {run : Run W}
    (hrow : Leaves c d row) (hd : ∀ e ∈ d, e.outcome.final = false)
    (h : Ran C cs (rows ++ [row]) run) :
    Ran C (c :: cs) rows { run with
      visited := c :: run.visited
      dispatched := d.toList ++ run.dispatched } where
  visited := List.cons_prefix_cons.mpr ⟨rfl, h.visited⟩
  order := by
    cases d with
    | none => exact h.order.cons c
    -- a dispatch is to the candidate that is visited
    | some e =>
      obtain rfl := hrow.candidate e rfl
      exact h.order.cons_cons _
  goesOn := by
    intro e he
    cases d with
    | none => exact h.goesOn e he
    | some e' =>
      cases hrest : run.dispatched with
      | nil =>
        rw [hrest] at he
        cases he
      | cons f fs =>
        rw [hrest] at he
        rcases List.mem_cons.mp he with rfl | he
        · exact hd _ rfl
        · exact h.goesOn e (hrest ▸ he)
  ends := by
    -- the end of the rest is that of the whole, with one row and one dispatch more in front
    show Ends C rows (c :: run.visited) (d.toList ++ run.dispatched) run.reply
    have hends := h.ends
    generalize run.reply = reply at hends ⊢
    cases hends with
    | closed hadded hplain hcloses =>
      rename_i added
      refine @Ends.closed _ _ _ _ (row :: added) _ ?_ ?_ ?_
      · rw [List.map_cons, List.map_cons, hrow.provider, hadded]
      · intro hreportable r hr
        rcases List.mem_cons.mp hr with rfl | hr
        · exact hrow.plain fun e he =>
            hreportable e (List.mem_append_left _ (Option.mem_toList.mpr he))
        · exact hplain (fun e he => hreportable e (List.mem_append_right _ he)) r hr
      · rw [List.append_cons]
        exact hcloses.after d.toList
    | crashed hmem hcrashed => exact .crashed (List.mem_append_right _ hmem) hcrashed
    | unlisted hmem hnone => exact .unlisted (List.mem_cons_of_mem _ hmem) hnone

/-- What a run does, by induction on the candidates. The rows before it are settled, so that what
ends the run can be told from the last row alone. -/
theorem routeLoop_ran (C : Call) (R : Runtime W) (cs : List Candidate) (hrows : Settled rows)
    (w : W) : Ran C cs rows (C.routeLoop R cs rows w) := by
  induction cs generalizing rows w with
  | nil =>
    rw [routeLoop]
    refine ⟨List.prefix_rfl, List.Sublist.refl _, fun _ he => (by cases he), ?_⟩
    refine @Ends.closed _ _ _ _ [] _ rfl (fun _ _ hr => (by cases hr)) ?_
    rw [List.append_nil]
    exact .exhausted fun r hr => hrows r (List.mem_of_mem_dropLast hr)
  | cons c cs ih =>
    have hlast : ∀ {row : Row}, Settled (rows ++ [row]).dropLast := by
      intro row
      rw [List.dropLast_concat]
      exact hrows
    rw [routeLoop]
    dsimp only
    have hpass := turn_pass C R c rows w
    generalize C.turn R c rows w = t at hpass ⊢
    obtain ⟨world, rows', d, next⟩ := t
    dsimp only at hpass ⊢
    -- the rows that a pass adds are the whole trail when it is the last one
    have hone : ∀ {row : Row} {reply : Reply}, Leaves c d row →
        Closes C d.toList (rows ++ [row]) reply → Ends C rows [c] d.toList reply := by
      intro row reply hrow hcloses
      refine @Ends.closed _ _ _ _ [row] _ (congrArg (fun id => [id]) hrow.provider) ?_ hcloses
      intro hreportable r hr
      rw [List.mem_singleton.mp hr]
      exact hrow.plain fun e he => hreportable e (Option.mem_toList.mpr he)
    cases hpass with
    | again hrow hunknown hfinal => exact (ih (hrows.append hunknown) world).cons hrow hfinal
    | stop hrow => exact Ran.single hrow.candidate (hone hrow (.exhausted hlast))
    | identity hrow hunknown =>
      exact Ran.single hrow.candidate (hone hrow (.identity (hrows.append hunknown)))
    | unavailable hrow hunknown =>
      exact Ran.single hrow.candidate (hone hrow (.unavailable hrows hunknown))
    | completed hcandidate houtcome hcomplete =>
      rename_i e upstream status identity elapsed reply
      have hd : ∀ e' ∈ some e, e'.candidate = c := fun e' he => Option.some.inj he ▸ hcandidate
      refine Ran.single hd (@Ends.closed _ _ _ _ [successRow c.providerId status] _ rfl ?_ ?_)
      · intro hreportable r hr
        rw [List.mem_singleton.mp hr]
        have hstatus := hreportable e List.mem_cons_self
        rw [houtcome] at hstatus
        exact Row.plain_status (clean_lit (by decide)) hstatus
      · rw [← hcandidate] at hcomplete ⊢
        exact .completed hrows rfl houtcome hcomplete
    | crashed hcandidate hcrashed =>
      exact Ran.single (fun e he => Option.some.inj he ▸ hcandidate)
        (.crashed List.mem_cons_self hcrashed)
    | unlisted hnone =>
      exact Ran.single (fun _ he => (by cases he)) (.unlisted List.mem_cons_self hnone)

end Call

/-! ### What the caller is told -/

/-- The attempts that a reply reports, in the receipt of a completion or in a failure body. -/
def Reply.attempts : Reply → Option (List Json)
  | .completed body _ =>
    match (Dict.get body (lit "szl_receipt")).bind (·.get (lit "attempts")) with
    | some (.arr rows) => some rows
    | _ => none
  | .refused _ detail =>
    match Dict.get detail (lit "attempts") with
    | some (.arr rows) => some rows
    | _ => none
  | .crashed _ => none

/-- A failure of this status whose body has this state. -/
def Reply.Failed (reply : Reply) (status : ℕ) (state : Str) : Prop :=
  ∃ detail, reply = .refused status detail ∧ Dict.get detail (lit "state") = some (.str state)

/-- A failure that carries `automatic_retry_safe = false`. -/
def Reply.NoRetry (reply : Reply) : Prop :=
  ∃ status detail, reply = .refused status detail ∧
    Dict.get detail (lit "automatic_retry_safe") = some (.bool false)

/-- A row with the outcome `UNKNOWN`. -/
def OpenRow (row : Json) : Prop := row.get (lit "outcome") = some (.str (lit "UNKNOWN"))

/-- The attempts that a reply reports are one row for each candidate visited; only the last
can leave the outcome open, and it does so exactly when the failure forbids a retry. -/
structure Accounts (visited : List Candidate) (reply : Reply) (rows : List Json) : Prop where
  one : rows.map (·.get (lit "provider_id")) = visited.map fun c => some (.str c.providerId)
  last : ∀ row ∈ rows.dropLast, ¬OpenRow row
  unknown : (∃ row ∈ rows, OpenRow row) ↔
    reply.Failed 504 (lit "ATTEMPT_OUTCOME_UNKNOWN") ∨
      reply.Failed 503 (lit "LOCAL_ROUTE_UNAVAILABLE")
  retry : (∃ row ∈ rows, OpenRow row) ↔ reply.NoRetry

theorem openRow_json {r : Row} : OpenRow r.json ↔ r.outcomeUnknown = true := by
  obtain ⟨id, state, status, unknown, error⟩ := r
  have hlast : ∀ e : Option Str, Dict.get (e.map fun e => (lit "error_type", Json.str e)).toList
      (lit "outcome") = none := by
    intro e
    cases e <;> rfl
  have hopen : Json.get (Row.json ⟨id, state, status, unknown, error⟩) (lit "outcome") =
      if unknown then some (.str (lit "UNKNOWN")) else none := by
    cases status <;> cases unknown
    · exact hlast error
    · rfl
    · exact hlast error
    · rfl
  rw [OpenRow, hopen]
  cases unknown <;> simp

theorem exists_openRow {rows : List Row} :
    (∃ row ∈ rows.map Row.json, OpenRow row) ↔ rows.any (·.outcomeUnknown) = true := by
  simp [openRow_json]

namespace Call

variable {W : Type} {C : Call} {rows : List Row}

theorem not_openRow_of_settled (h : Settled rows) : ¬∃ row ∈ rows.map Row.json, OpenRow row := by
  rw [exists_openRow, Bool.not_eq_true, List.any_eq_false]
  intro row hrow
  simp [h row hrow]

theorem fail_cases (status : ℕ) (body : Dict) :
    (∃ digest, fail status body = .refused status (body ++ [(lit "digest", .str digest)])) ∨
      ∃ name, fail status body = .crashed name ∧ ¬Hashable (.obj body) := by
  rw [fail]
  cases hdigest : sha256 (.obj body) with
  | ok digest => exact .inl ⟨digest, rfl⟩
  | error name =>
    refine .inr ⟨name, rfl, fun h => ?_⟩
    obtain ⟨digest, hok⟩ := h.sha256_ok
    rw [hok] at hdigest
    cases hdigest

/-- A failure body with clean rows can be hashed. -/
theorem failure_hashable (hrequest : Clean C.requestDigest) (hplan : Clean C.planDigest)
    (hrows : ∀ row ∈ rows, Hashable row.json) {state : String} (hstate : Clean (lit state))
    (ambiguous : Bool) : Hashable (.obj (C.failure rows state ambiguous)) := by
  have htrail : Hashable (.arr (rows.map Row.json)) := by
    refine hashable_arr fun v hv => ?_
    obtain ⟨row, hrow, rfl⟩ := List.mem_map.mp hv
    exact hrows row hrow
  refine hashable_obj ?_
  simp only [failure, List.forall_mem_append, List.forall_mem_cons]
  refine ⟨⟨⟨clean_lit (by decide), hashable_str (clean_lit (by decide))⟩,
    ⟨clean_lit (by decide), hashable_str hrequest⟩, ⟨clean_lit (by decide), hashable_str hplan⟩,
    ⟨clean_lit (by decide), htrail⟩, ⟨clean_lit (by decide), trivial, rfl⟩,
    ⟨clean_lit (by decide), hashable_str hstate⟩, List.forall_mem_nil _⟩, ?_⟩
  intro p hp
  split_ifs at hp
  · rcases List.mem_pair.mp hp with rfl | rfl
    · exact ⟨clean_lit (by decide), trivial, rfl⟩
    · exact ⟨clean_lit (by decide), hashable_str (clean_lit (by decide))⟩
  · cases hp

theorem providers_of_rows {visited : List Candidate}
    (hone : rows.map Row.providerId = visited.map Candidate.providerId) :
    (rows.map Row.json).map (·.get (lit "provider_id")) =
    visited.map fun c => some (.str c.providerId) := by
  have hsame := congrArg (List.map fun id => some (Json.str id)) hone
  rw [List.map_map, List.map_map] at hsame
  rw [List.map_map]
  exact hsame

section

variable {status : ℕ} {state : String} {ambiguous : Bool} {digest : Str}

/-- The detail of a failure. -/
theorem failed_iff {n : ℕ} {s : Str} :
    Reply.Failed (.refused status (C.failure rows state ambiguous ++ [(lit "digest", .str digest)]))
      n s ↔ status = n ∧ lit state = s := by
  have hstate : Dict.get (C.failure rows state ambiguous ++ [(lit "digest", .str digest)])
      (lit "state") = some (.str (lit state)) := rfl
  constructor
  · rintro ⟨detail, hreply, hget⟩
    obtain ⟨rfl, rfl⟩ := Reply.refused.inj hreply
    exact ⟨rfl, Json.str.inj (Option.some.inj (hstate.symm.trans hget))⟩
  · rintro ⟨rfl, rfl⟩
    exact ⟨_, rfl, hstate⟩

theorem noRetry_iff :
    Reply.NoRetry
      (.refused status (C.failure rows state ambiguous ++ [(lit "digest", .str digest)]))
      ↔ ambiguous = true := by
  have hsafe : Dict.get (C.failure rows state ambiguous ++ [(lit "digest", .str digest)])
      (lit "automatic_retry_safe") = if ambiguous then some (.bool false) else none := by
    cases ambiguous <;> rfl
  constructor
  · rintro ⟨n, detail, hreply, hget⟩
    obtain ⟨rfl, rfl⟩ := Reply.refused.inj hreply
    rw [hsafe] at hget
    by_contra hnot
    rw [if_neg hnot] at hget
    cases hget
  · intro h
    exact ⟨_, _, rfl, hsafe.trans (if_pos h)⟩

/-- What a failure tells, when its status and state say whether a row is open. -/
theorem accounts_of_fail {visited : List Candidate} {reply : Reply}
    (hone : rows.map Row.providerId = visited.map Candidate.providerId)
    (hlast : Settled rows.dropLast) (hopen : rows.any (·.outcomeUnknown) = true ↔ ambiguous = true)
    (hnamed : ambiguous = true ↔ (status = 504 ∧ lit state = lit "ATTEMPT_OUTCOME_UNKNOWN") ∨
      (status = 503 ∧ lit state = lit "LOCAL_ROUTE_UNAVAILABLE"))
    (hreply : reply = .refused status
      (C.failure rows state ambiguous ++ [(lit "digest", .str digest)])) :
    ∃ trail, reply.attempts = some trail ∧ Accounts visited reply trail := by
  refine ⟨rows.map Row.json, hreply ▸ rfl, providers_of_rows hone, ?_, ?_, ?_⟩
  · intro row hrow hrowOpen
    rw [← List.map_dropLast] at hrow
    exact not_openRow_of_settled hlast ⟨row, hrow, hrowOpen⟩
  · rw [exists_openRow, hopen, hnamed, hreply, failed_iff, failed_iff]
  · rw [exists_openRow, hopen, hreply, noRetry_iff]

end

/-- What a completion tells. -/
theorem accounts_of_complete {candidate : Candidate} {upstream : Dict} {status : ℤ}
    {identity : Option Json} {elapsed : Binary64} {visited : List Candidate} {reply : Reply}
    (hone : (rows ++ [successRow candidate.providerId status]).map Row.providerId =
      visited.map Candidate.providerId) (hrows : Settled rows)
    (h : C.complete rows candidate upstream status identity elapsed = .ok reply) :
    ∃ trail, reply.attempts = some trail ∧ Accounts visited reply trail := by
  obtain ⟨responseDigest, digest, _, _, _, _, _, _, _, _, _, _, rfl⟩ := complete_eq_ok h
  have hsettled : Settled (rows ++ [successRow candidate.providerId status]) := hrows.append rfl
  have hnone := not_openRow_of_settled hsettled
  refine ⟨(rows ++ [successRow candidate.providerId status]).map Row.json, ?_,
    providers_of_rows hone, ?_, ?_, ?_⟩
  · rw [Reply.attempts, Dict.get_set_self]
    rfl
  · exact fun row hrow hopen => hnone ⟨row, List.mem_of_mem_dropLast hrow, hopen⟩
  · refine iff_of_false hnone ?_
    rintro (⟨_, hreply, _⟩ | ⟨_, hreply, _⟩) <;> cases hreply
  · refine iff_of_false hnone ?_
    rintro ⟨_, _, hreply, _⟩
    cases hreply

/-- What the caller is told of a call that ends with a body: one row for each candidate that was
visited, in order, and whether one of them may have completed after all. -/
theorem Closes.accounts {dispatched : List Dispatch} {visited : List Candidate} {reply : Reply}
    (h : Closes C dispatched rows reply)
    (hone : rows.map Row.providerId = visited.map Candidate.providerId)
    (hbody : ∀ name, reply ≠ .crashed name) :
    ∃ trail, reply.attempts = some trail ∧ Accounts visited reply trail := by
  -- a failure has its digest, unless the call crashed, and then no body is sent
  have hfail : ∀ {status state ambiguous}, reply = fail status (C.failure rows state ambiguous) →
      ∃ digest, reply = .refused status
        (C.failure rows state ambiguous ++ [(lit "digest", .str digest)]) := by
    intro status state ambiguous hreply
    rcases fail_cases status (C.failure rows state ambiguous) with ⟨digest, hd⟩ | ⟨name, hname, _⟩
    · exact ⟨digest, hreply.trans hd⟩
    · exact absurd (hreply.trans hname) (hbody name)
  cases h with
  | exhausted hlast =>
    rw [Call.exhausted] at hfail ⊢
    split_ifs at hfail ⊢ with hopen
    -- some row may stand for a completion that was made, and the reply says so
    · obtain ⟨digest, hreply⟩ := hfail rfl
      exact accounts_of_fail hone hlast (iff_of_true hopen rfl) (by decide) hreply
    · obtain ⟨digest, hreply⟩ := hfail rfl
      exact accounts_of_fail hone hlast (iff_of_false hopen (by decide)) (by decide) hreply
  | identity hrows =>
    obtain ⟨digest, hreply⟩ := hfail rfl
    have hopen : ¬rows.any (·.outcomeUnknown) = true := by
      simpa [Settled] using hrows
    exact accounts_of_fail hone (fun r hr => hrows r (List.mem_of_mem_dropLast hr))
      (iff_of_false hopen (by decide)) (by decide) hreply
  | unavailable hrows hrow =>
    obtain ⟨digest, hreply⟩ := hfail rfl
    refine accounts_of_fail hone ?_ (iff_of_true ?_ rfl) (by decide) hreply
    · rw [List.dropLast_concat]
      exact hrows
    · simp [hrow]
  | completed hrows _ _ hcomplete => exact accounts_of_complete hone hrows hcomplete

theorem fail_ne_completed (status : ℕ) (detail body : Dict) (receipt : Str) :
    fail status detail ≠ .completed body receipt := by
  rcases fail_cases status detail with ⟨digest, hd⟩ | ⟨name, hname, _⟩
  · rw [hd]
    exact fun h => by cases h
  · rw [hname]
    exact fun h => by cases h

/-- A completion is the answer of the last attempt. -/
theorem Closes.completed_inv {dispatched : List Dispatch} {body : Dict} {receipt : Str}
    (h : Closes C dispatched rows (.completed body receipt)) :
    ∃ before d upstream status identity elapsed, dispatched.getLast? = some d ∧
      d.outcome = .success upstream status identity ∧
      C.complete before d.candidate upstream status identity elapsed =
        .ok (.completed body receipt) := by
  generalize hr : Reply.completed body receipt = reply at h
  cases h with
  | exhausted _ =>
    rw [Call.exhausted] at hr
    split_ifs at hr
    · exact absurd hr.symm (fail_ne_completed _ _ _ _)
    · exact absurd hr.symm (fail_ne_completed _ _ _ _)
  | identity _ => exact absurd hr.symm (fail_ne_completed _ _ _ _)
  | unavailable _ _ => exact absurd hr.symm (fail_ne_completed _ _ _ _)
  | completed _ hlast houtcome hcomplete => exact ⟨_, _, _, _, _, _, hlast, houtcome, hcomplete⟩

/-- A call with clean rows ends with a body. -/
theorem Closes.ne_crashed {dispatched : List Dispatch} {reply : Reply}
    (h : Closes C dispatched rows reply) (hrequest : Clean C.requestDigest)
    (hplan : Clean C.planDigest) (hrows : ∀ row ∈ rows, Hashable row.json) (name : Str) :
    reply ≠ .crashed name := by
  have hfail : ∀ {status : ℕ} {state : String} {ambiguous}, Clean (lit state) →
      fail status (C.failure rows state ambiguous) ≠ .crashed name := by
    intro status state ambiguous hstate heq
    rcases fail_cases status (C.failure rows state ambiguous) with ⟨digest, hd⟩ | ⟨_, _, hnot⟩
    · cases hd.symm.trans heq
    · exact hnot (failure_hashable hrequest hplan hrows hstate ambiguous)
  cases h with
  | exhausted _ =>
    rw [Call.exhausted]
    split_ifs
    · exact hfail (clean_lit (by decide))
    · exact hfail (clean_lit (by decide))
  | identity _ => exact hfail (clean_lit (by decide))
  | unavailable _ _ => exact hfail (clean_lit (by decide))
  | completed _ _ _ hcomplete =>
    obtain ⟨_, _, _, _, _, _, _, _, _, _, _, _, rfl⟩ := complete_eq_ok hcomplete
    exact fun heq => (by cases heq)

/-! ### The contract -/

/-- Failover over these candidates: they are visited from the first on, and attempted in
their order, none twice; nothing is attempted after an outcome that ends the route or after
the answer that is returned; and a reply with a body accounts for what was visited. -/
structure Failover (cs : List Candidate) (run : Run W) : Prop where
  visited : run.visited <+: cs
  order : (run.dispatched.map Dispatch.candidate).Sublist run.visited
  goesOn : ∀ d ∈ run.dispatched.dropLast, d.outcome.final = false
  answer : ∀ body receipt, run.reply = .completed body receipt →
    ∃ d upstream status identity, run.dispatched.getLast? = some d ∧
      d.outcome = .success upstream status identity ∧
      ∃ r, body = Dict.set upstream (lit "szl_receipt") r
  accounts : (∀ name, run.reply ≠ .crashed name) →
    ∃ rows, run.reply.attempts = some rows ∧ Accounts run.visited run.reply rows

theorem Ran.failover {cs : List Candidate} {run : Run W} (h : Ran C cs [] run) :
    Failover cs run where
  visited := h.visited
  order := h.order
  goesOn := h.goesOn
  answer := by
    intro body receipt hreply
    have hends := h.ends
    rw [hreply] at hends
    cases hends with
    | closed hone _ hcloses =>
      -- a completed reply is that of the last dispatch
      obtain ⟨_, d, upstream, status, identity, elapsed, hlast, houtcome, hcomplete⟩ :=
        hcloses.completed_inv
      obtain ⟨_, _, _, _, _, _, _, _, _, _, _, _, heq⟩ := complete_eq_ok hcomplete
      obtain ⟨rfl, rfl⟩ := Reply.completed.inj heq
      exact ⟨_, _, _, _, hlast, houtcome, _, rfl⟩
  accounts := by
    intro hbody
    have hends := h.ends
    generalize run.reply = reply at hends hbody ⊢
    cases hends with
    | closed hone _ hcloses => exact hcloses.accounts hone hbody
    | crashed _ _ => exact absurd rfl (hbody _)
    | unlisted _ _ => exact absurd rfl (hbody _)

/-- A run over listed candidates ends with a body, unless an attempt raises what is not
reported. -/
theorem Ran.ne_crashed {cs : List Candidate} {run : Run W} (h : Ran C cs [] run)
    (hrequest : Clean C.requestDigest) (hplan : Clean C.planDigest)
    (hlisted : ∀ c ∈ cs, ∃ p ∈ C.settings.registry.providers, p.id = c.providerId)
    (hreportable : ∀ d ∈ run.dispatched, d.outcome.Reportable) (name : Str) :
    run.reply ≠ .crashed name := by
  have hends := h.ends
  generalize run.reply = reply at hends ⊢
  cases hends with
  | closed hone hplain hcloses =>
    rename_i added
    refine hcloses.ne_crashed hrequest hplan ?_ name
    intro row hrow
    rw [List.nil_append] at hrow
    refine (hplain hreportable row hrow).hashable ?_
    -- a row has the id of a listed provider
    have hid : row.providerId ∈ run.visited.map Candidate.providerId :=
      hone ▸ List.mem_map_of_mem hrow
    obtain ⟨c, hc, hrow'⟩ := List.mem_map.mp hid
    obtain ⟨p, hp, hpid⟩ := hlisted c (h.visited.subset hc)
    rw [← hrow', ← hpid]
    exact (IDENTIFIER_ascii (C.settings.registry.valid p hp).id).clean
  | crashed hmem hcrashed =>
    have hnot := hreportable _ hmem
    rw [hcrashed] at hnot
    exact hnot.elim
  | unlisted hmem hnone =>
    obtain ⟨p, hp, hpid⟩ := hlisted _ (h.visited.subset hmem)
    rw [providerById_eq_some.mpr ⟨hp, hpid⟩] at hnone
    cases hnone

end Call

/-! ### The chat endpoint -/

section

variable {settings : Settings} {env : Env} {request : PlanRequest}

theorem clean_digest_of_plan {p : Plan} (h : plan settings env request = .ok p) :
    Clean p.digest := by
  rw [plan] at h
  obtain ⟨digest, hdigest, h⟩ := Procedure.except_bind_eq_ok.mp h
  obtain ⟨bytes, _, h⟩ := Procedure.except_bind_eq_ok.mp h
  rw [← Except.ok.inj h]
  exact clean_of_sha256 hdigest

theorem nodup_candidates (settings : Settings) (env : Env) (request : PlanRequest) :
    ((routeCandidates settings env request).map Candidate.providerId).Nodup := by
  have hperm := (List.perm_insertionSort Candidate.LE
    ((settings.registry.providers.filter (eligible request)).map (candidate env request))).map
      Candidate.providerId
  rw [routeCandidates, hperm.nodup_iff, List.map_map]
  exact settings.registry.unique.sublist (List.filter_sublist.map ProviderRecord.id)

end

/-- **Failover safety.**  Over any candidates a call is safe, under any clock and whatever
the attempts come to.  A chat request tries nothing, or it is such a call over the candidates
of its plan; then no provider is attempted twice, and it ends with a body unless an attempt
raised what the loop has no handler for, or cannot write down. -/
theorem failover_safe {W : Type} (R : Runtime W) :
    (∀ (C : Call) (cs : List Candidate) (w : W), Call.Failover cs (C.routeLoop R cs [] w)) ∧
    ∀ (L : Lax) (T : UrlTables) (env : Env) (request : ChatRequest) (received : Str) (w : W),
      (∃ reply, chat L T R env request received w = .idle reply w) ∨
      ∃ p, plan (loadSettings L T env) env request.planRequest = .ok p ∧
        Call.Failover p.candidates (chat L T R env request received w) ∧
        ((chat L T R env request received w).dispatched.map
          fun d => d.candidate.providerId).Nodup ∧
        ((∀ d ∈ (chat L T R env request received w).dispatched, d.outcome.Reportable) →
          ∀ name, (chat L T R env request received w).reply ≠ .crashed name) := by
  refine ⟨fun C cs w => (Call.routeLoop_ran C R cs (fun _ hr => (by cases hr)) w).failover, ?_⟩
  intro L T env request received w
  -- a request that is not admitted sends nothing
  rcases chatWith_cases R (loadSettings L T env) env request received w with
    ⟨p, digest, hadmitted⟩ | hidle
  · obtain ⟨p', hp', hcandidates⟩ := plan_total (loadSettings L T env) env request.planRequest
    obtain rfl := Except.ok.inj (hadmitted.planned.symm.trans hp')
    refine .inr ⟨p, hp', ?_⟩
    rw [chat, hadmitted.chatWith_eq]
    let C : Call :=
      ⟨loadSettings L T env, env, request, digest, p.digest, (R.monotonic w).1⟩
    -- an admitted one is a run of the loop over the candidates of its plan
    have hran : C.Ran p.candidates [] (C.routeLoop R p.candidates [] (R.monotonic w).2) :=
      Call.routeLoop_ran C R p.candidates (fun _ hr => (by cases hr)) _
    refine ⟨hran.failover, ?_, hran.ne_crashed ?_ ?_ ?_⟩
    -- a plan names each provider once
    · have hsub := (hran.order.trans hran.visited.sublist).map Candidate.providerId
      rw [List.map_map] at hsub
      exact (hcandidates ▸ nodup_candidates _ _ _).sublist hsub
    · exact clean_of_sha256 hadmitted.digest
    · exact clean_digest_of_plan hp'
    · intro c hc
      rw [hcandidates] at hc
      obtain ⟨provider, hprovider, _, rfl⟩ := mem_routeCandidates.mp hc
      exact ⟨provider, hprovider, rfl⟩
  · exact .inl hidle

end Gateway

end SzlRouter
