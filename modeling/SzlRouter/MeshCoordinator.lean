/-
The mesh coordinator: a load balancer over separate workers.

Any number of `proxy` calls run at once.  They share the workers' `inflight`
counters, which the picker reads and each dispatch moves under one lock.  A
call's local state says where in `proxy` it stands; the network's answers, the
probes and what a picker reads of counters that others move meanwhile are open.

* `inflight_conserved` — each counter stands at the number of calls that are
  dispatching on its worker.
-/
import SzlRouter.Dispatch
import SzlRouter.Transition

namespace SzlRouter

namespace Mesh

open Py Transition

/-! ### Workers -/

/-- What a worker's descriptor says; its live state is in `Load`. -/
structure Worker where
  name : Str
  baseUrl : Str
  sovereign : Bool
  kind : Str := lit "sovereign-gpu"
  energySource : Str := lit "self-hosted"
  genModel : Str := []
  serveRole : Str := []
  jouleLabelHint : Str := []
  deriving DecidableEq

structure Attempt where
  worker : Str
  baseUrl : Str
  ok : Bool
  status : Option ℤ := none
  error : Option Str := none
  latencyMs : Option ℤ := none

/-- `a.__dict__`. -/
def Attempt.toJson (a : Attempt) : Json :=
  .obj [(lit "worker", .str a.worker), (lit "base_url", .str a.baseUrl), (lit "ok", .bool a.ok),
    (lit "status", (a.status.map Json.int).getD .null),
    (lit "error", (a.error.map Json.str).getD .null),
    (lit "latency_ms", (a.latencyMs.map Json.int).getD .null)]

/-- The coordinator's registry.  Workers are told apart by identity; `address` is
`host_port_path`, `none` where `urlsplit` or the port of the base URL raises. -/
structure Coordinator (W : Type) where
  worker : W → Worker
  workers : List W
  failover : Option W
  address : W → Option (Str × ℕ × Bool × Str)

/-- The live state: `reachable`, `inflight` and `_rr`. -/
structure Load (W : Type) where
  reachable : W → Bool
  inflight : W → ℤ
  rr : ℕ

section picker

variable {W : Type}

def tierMeshLive : Str := lit "mesh-live"
def tierMeshDegraded : Str := lit "mesh-degraded"
def tierMeshTailnet : Str := lit "mesh-tailnet"
def tierHfFailover : Str := lit "hf-failover"

/-- What a picker reads, one field at a time and without the lock. -/
structure Reading (W : Type) where
  reachable : W → Bool
  inflight : W → ℤ
  detail : W → Str

variable (M : Coordinator W) (r : Reading W)

def reachableSovereign : List W :=
  M.workers.filter fun w => (M.worker w).sovereign && r.reachable w

def reachableTailnetNonsovereign : List W :=
  M.workers.filter fun w => !(M.worker w).sovereign && r.reachable w &&
    (M.worker w).kind = lit "tailnet-gpu"

/-- `v == w`: the fields of the two workers agree. -/
def sameFields (v w : W) : Bool :=
  M.worker v = M.worker w ∧ r.inflight v = r.inflight w ∧ r.reachable v = r.reachable w ∧
    r.detail v = r.detail w

/-- `self.workers.index(w)`, the first worker equal to `w`. -/
def index (w : W) : ℕ := M.workers.findIdx fun v => sameFields M r v w

/-- `(self.workers.index(w) + rr) % max(len(pool), 1)`. -/
def rotation (rr : ℕ) (pool : List W) (w : W) : ℕ := (index M r w + rr) % max pool.length 1

/-- The order of the key: least inflight first, exact ties by rotation. The rotation is taken
modulo the number of the live workers, over their places in the registry. -/
def Ahead (rr : ℕ) (pool : List W) (v w : W) : Prop :=
  r.inflight v < r.inflight w ∨
    (r.inflight v = r.inflight w ∧ rotation M r rr pool v ≤ rotation M r rr pool w)

instance (rr : ℕ) (pool : List W) : DecidableRel (Ahead M r rr pool) := fun _ _ =>
  inferInstanceAs (Decidable (_ ∨ _))

/-- `sorted(pool, key=...)`. -/
def leastConnections (rr : ℕ) (pool : List W) : List W := pool.insertionSort (Ahead M r rr pool)

/-- `pick_order`: the candidates, the serve tier, and `_rr` after. -/
def pickOrder (rr : ℕ) : List W × Str × ℕ :=
  if reachableSovereign M r ≠ [] then
    (leastConnections M r (rr + 1) (reachableSovereign M r),
      if 2 ≤ (reachableSovereign M r).length then tierMeshLive else tierMeshDegraded, rr + 1)
  else if reachableTailnetNonsovereign M r ≠ [] then
    (leastConnections M r (rr + 1) (reachableTailnetNonsovereign M r), tierMeshTailnet, rr + 1)
  else match M.failover with
    | some w => if r.reachable w then ([w], tierHfFailover, rr) else ([], tierHfFailover, rr)
    | none => ([], tierHfFailover, rr)

end picker

/-! ### Answers -/

def hopByHop : List Str :=
  [lit "connection", lit "keep-alive", lit "proxy-authenticate", lit "proxy-authorization",
    lit "te", lit "trailers", lit "transfer-encoding", lit "upgrade", lit "content-length"]

/-- The `x_szl_provenance` block. -/
def provenance (w : Worker) (tier : Str) (attempts : List Attempt) : Json :=
  .obj [(lit "served_by", .str w.name), (lit "base_url", .str w.baseUrl),
    (lit "sovereign", .bool w.sovereign), (lit "energy_source", .str w.energySource),
    (lit "serve_tier", .str tier),
    (lit "node_gen_model", if w.genModel = [] then .null else .str w.genModel),
    (lit "serve_role", if w.serveRole = [] then .null else .str w.serveRole),
    (lit "joule_label_hint", if w.jouleLabelHint = [] then .null else .str w.jouleLabelHint),
    (lit "placement", .str (lit "horizontal-load-balance (separate worker; VRAM not fused)")),
    (lit "attempts", .arr (attempts.map Attempt.toJson))]

/-- `_inject_provenance`; `none` where writing the decorated body raises. -/
def injectProvenance (raw : Bytes) (w : Worker) (tier : Str) (attempts : List Attempt) :
    Option Bytes :=
  match (decodeUtf8 raw).bind (loads plainLoads) with
  | some (.obj d) =>
    (dumps plainDumps
      (.obj (Dict.set d (lit "x_szl_provenance") (provenance w tier attempts)))).bind
      utf8
  | _ => some raw

/-- The headers of the answer that is passed on. -/
def outHeaders (headers : List (Str × Str)) (w : Worker) (tier : Str) : List (Str × Str) :=
  Dict.update (Dict.update [] (headers.filter fun p => Str.lower p.1 ∉ hopByHop))
    [(lit "x-szl-serve-tier", tier), (lit "x-szl-served-by", w.name),
      (lit "x-szl-sovereign", if w.sovereign then lit "true" else lit "false")]

/-- A worker's answer. -/
structure Reply where
  status : ℤ
  headers : List (Str × Str)
  raw : Bytes

/-! ### Concurrent calls -/

/-- Where a `proxy` call stands.  It is `dispatching` from the increment of a
worker's counter to the decrement on either branch. -/
inductive Call (W : Type)
  | begun
  | walking (tier : Str) (order : List W) (attempts : List Attempt)
  | dispatching (tier : Str) (w : W) (later : List W) (attempts : List Attempt)
  | answered (tier : Str) (w : W) (later : List W) (attempts : List Attempt) (reply : Reply)
  | returned (status : ℤ) (headers : List (Str × Str)) (body : Bytes) (attempts : List Attempt)
  | raised (message : Str) (attempts : List Attempt)

/-- What a call does in one step. -/
inductive Event
  | refreshRaises
  | picks
  | addressRaises
  | dispatches
  | exhausted
  | fails
  | refused
  | answers
  | delivers
  | decorationRaises
  deriving DecidableEq

section calls

variable {W : Type} [DecidableEq W]

/-- `w.inflight += d`. -/
def Load.move (m : Load W) (w : W) (d : ℤ) : Load W :=
  { m with inflight := Function.update m.inflight w (m.inflight w + d) }

@[simp] theorem Load.move_self (m : Load W) (w : W) (d : ℤ) :
    (m.move w d).inflight w = m.inflight w + d :=
  Function.update_self w _ _

theorem Load.move_of_ne (m : Load W) {v w : W} (d : ℤ) (h : v ≠ w) :
    (m.move w d).inflight v = m.inflight v :=
  Function.update_of_ne h _ _

/-- The call once the picker has answered. -/
def afterPick (picked : List W × Str × ℕ) : Call W :=
  if picked.1 = [] then
    .raised (lit "no reachable worker (sovereign mesh down and no cloud failover armed)") []
  else .walking picked.2.1 picked.1 []

variable (M : Coordinator W)

/-- One step of a `proxy` call.  The error texts and the latencies of attempts are
left to the network. -/
inductive Turn : Load W → Call W → Event → Load W → Call W → Prop
  | refreshRaises {m : Load W} (message : Str) : Turn m .begun .refreshRaises m (.raised message [])
  | picks {m : Load W} (r : Reading W) :
    Turn m .begun .picks { m with rr := (pickOrder M r m.rr).2.2 } (afterPick (pickOrder M r m.rr))
  | addressRaises {m : Load W} {tier : Str} {w : W} {later : List W} {attempts : List Attempt}
    (message : Str) : M.address w = none →
    Turn m (.walking tier (w :: later) attempts) .addressRaises m (.raised message attempts)
  | dispatches {m : Load W} {tier : Str} {w : W} {later : List W} {attempts : List Attempt} :
    (M.address w).isSome →
    Turn m (.walking tier (w :: later) attempts) .dispatches (m.move w 1)
      (.dispatching tier w later attempts)
  | exhausted {m : Load W} {tier : Str} {attempts : List Attempt} :
    Turn m (.walking tier [] attempts) .exhausted m
      (.raised (lit "all reachable workers failed") attempts)
  -- an exception before the answer has been read
  | fails {m : Load W} {tier : Str} {w : W} {later : List W} {attempts : List Attempt} (error : Str)
    (ms : ℤ) :
    Turn m (.dispatching tier w later attempts) .fails (m.move w (-1))
      (.walking tier later (attempts ++
        [⟨(M.worker w).name, (M.worker w).baseUrl, false, none, some error, some ms⟩]))
  | refused {m : Load W} {tier : Str} {w : W} {later : List W} {attempts : List Attempt}
    {reply : Reply} (error : Str) (ms : ℤ) : 500 ≤ reply.status →
    Turn m (.dispatching tier w later attempts) .refused (m.move w (-1))
      (.walking tier later (attempts ++ [⟨(M.worker w).name, (M.worker w).baseUrl, false,
        some reply.status, some error, some ms⟩]))
  | answers {m : Load W} {tier : Str} {w : W} {later : List W} {attempts : List Attempt}
    {reply : Reply} (ms : ℤ) : reply.status < 500 →
    Turn m (.dispatching tier w later attempts) .answers (m.move w (-1))
      (.answered tier w later (attempts ++ [⟨(M.worker w).name, (M.worker w).baseUrl, true,
        some reply.status, none, some ms⟩]) reply)
  | delivers {m : Load W} {tier : Str} {w : W} {later : List W} {attempts : List Attempt}
    {reply : Reply} {body : Bytes} :
    injectProvenance reply.raw (M.worker w) tier attempts = some body →
    Turn m (.answered tier w later attempts reply) .delivers m
      (.returned reply.status (outHeaders reply.headers (M.worker w) tier) body attempts)
  -- the `except` branch decrements once more
  | decorationRaises {m : Load W} {tier : Str} {w : W} {later : List W} {attempts : List Attempt}
    {reply : Reply} (error : Str) (ms : ℤ) :
    Turn m (.answered tier w later attempts reply) .decorationRaises (m.move w (-1))
      (.walking tier later (attempts ++
        [⟨(M.worker w).name, (M.worker w).baseUrl, false, none, some error, some ms⟩]))

/-- Probes and status requests move `reachable` and `_rr`. -/
def Surroundings (m m' : Load W) : Prop := m'.inflight = m.inflight

/-- The coordinator with any number of concurrent calls. -/
abbrev System : Threads (Load W) (Call W) → Option Event → Threads (Load W) (Call W) → Prop :=
  Interleave (· = .begun) Surroundings (Turn M)

def Call.dispatchingOn (w : W) : Call W → Bool
  | .dispatching _ v _ _ => v = w
  | _ => false

def Call.finished : Call W → Bool
  | .returned .. | .raised .. => true
  | _ => false

theorem afterPick_dispatchingOn (w : W) (picked : List W × Str × ℕ) :
    (afterPick picked).dispatchingOn w = false := by
  rw [afterPick]
  split_ifs <;> rfl

/-- A step moves the counter of a worker by the call's own arrival or departure. -/
theorem turn_balance (w : W) {m m' : Load W} {c c' : Call W} {e : Event}
    (hdecorate : e ≠ .decorationRaises) (h : Turn M m c e m' c') :
    m'.inflight w - (if c'.dispatchingOn w then 1 else 0 : ℤ) =
      m.inflight w - (if c.dispatchingOn w then 1 else 0 : ℤ) := by
  -- a move changes the counter of its worker and of no other
  have hmove : ∀ (v : W) (d : ℤ), (m.move v d).inflight w =
      m.inflight w + if v = w then d else 0 := by
    intro v d
    by_cases hv : v = w
    · subst hv
      rw [if_pos rfl, Load.move_self]
    · rw [if_neg hv, Load.move_of_ne m d (Ne.symm hv), add_zero]
  cases h with
  | picks r => rw [afterPick_dispatchingOn]; rfl
  | dispatches =>
    rw [hmove]
    simp only [Call.dispatchingOn, decide_eq_true_eq, Bool.false_eq_true, if_false]
    split_ifs <;> omega
  | fails | refused | answers =>
    rw [hmove]
    simp only [Call.dispatchingOn, decide_eq_true_eq, Bool.false_eq_true, if_false]
    split_ifs <;> omega
  | decorationRaises => exact absurd rfl hdecorate
  | _ => rfl

/-- **Inflight conservation.** In every state of every run of concurrent calls
each counter stands, off its first value, at the number of calls dispatching on
its worker; once all calls have finished it is back at its first value. -/
theorem inflight_conserved {m : Load W} {s : Threads (Load W) (Call W)}
    {events : List (Option Event)} (h : Exec (System M) ⟨m, []⟩ events s)
    (hdecorate : some .decorationRaises ∉ events) :
    (∀ w, s.shared.inflight w = m.inflight w + (s.locals.countP (Call.dispatchingOn w) : ℤ)) ∧
    ((∀ w, m.inflight w = 0) → ∀ w,
      s.shared.inflight w = s.locals.countP (Call.dispatchingOn w) ∧ 0 ≤ s.shared.inflight w) ∧
    ((∀ c ∈ s.locals, c.finished = true) → ∀ w, s.shared.inflight w = m.inflight w) := by
  have hcount : ∀ w, s.shared.inflight w =
      m.inflight w + (s.locals.countP (Call.dispatchingOn w) : ℤ) := by
    intro w
    have hallowed : ∀ l ∈ events, l ≠ some Event.decorationRaises :=
      fun l hl he => hdecorate (he ▸ hl)
    -- one counter, one kind of call that it counts, and each turn changes both alike
    have hbalance := Interleave.balance (fun m : Load W => m.inflight w) (Call.dispatchingOn w)
      (by rintro c rfl; rfl) (fun a b hab => congrFun hab w)
      (fun a c l a' c' hl hturn => turn_balance M w (fun he => hl (congrArg some he)) hturn) h
      hallowed
    simp only [List.countP_nil, Nat.cast_zero] at hbalance
    omega
  refine ⟨hcount, ?_, ?_⟩
  · intro hzero w
    have hw := hcount w
    rw [hzero w] at hw
    omega
  · intro hfinished w
    -- a finished call is on no worker
    have hnone : s.locals.countP (Call.dispatchingOn w) = 0 := by
      rw [List.countP_eq_zero]
      intro c hc
      have := hfinished c hc
      cases c <;> simp_all [Call.finished, Call.dispatchingOn]
    rw [hcount w, hnone]
    simp

/-- One worker and two calls: the first has failed while the second is still
dispatching. -/
theorem inflight_conserved_two :
    ∃ (M : Coordinator Unit) (s : Threads (Load Unit) (Call Unit)) (events : List (Option Event)),
      Exec (System M) ⟨⟨fun _ => true, fun _ => 0, 0⟩, []⟩ events s ∧
        s.locals.countP (Call.dispatchingOn ()) = 1 ∧ s.shared.inflight () = 1 := by
  let M : Coordinator Unit := ⟨fun _ => ⟨lit "omen", lit "http://omen.example/v1", true,
    lit "sovereign-gpu", lit "self-hosted", [], [], []⟩, [()], none,
    fun _ => some (lit "omen.example", 80, false, lit "/v1")⟩
  let r : Reading Unit := ⟨fun _ => true, fun _ => 0, fun _ => []⟩
  let walking : Call Unit := .walking tierMeshDegraded [()] []
  let busy : Call Unit := .dispatching tierMeshDegraded () [] []
  let gone : Call Unit := .walking tierMeshDegraded []
    [⟨lit "omen", lit "http://omen.example/v1", false, none, some (lit "timed out"), some 7⟩]
  let m (n : ℤ) (rr : ℕ) : Load Unit := ⟨fun _ => true, fun _ => n, rr⟩
  have hmove : ∀ n d rr, (m n rr).move () d = m (n + d) rr := by
    intro n d rr
    simp only [m, Load.move, Load.mk.injEq, true_and, and_true]
    funext _
    simp
  have hpick : ∀ rr, Turn M (m 0 rr) .begun .picks (m 0 (rr + 1)) walking := fun rr => .picks r
  have hdispatch : ∀ n, Turn M (m n 2) walking .dispatches (m (n + 1) 2) busy :=
    fun n => hmove n 1 2 ▸ .dispatches rfl
  have hfail : Turn M (m 2 2) busy .fails (m 1 2) gone :=
    hmove 2 (-1) 2 ▸ .fails (lit "timed out") 7
  have hspawn : ∀ x cs, System M ⟨x, cs⟩ none ⟨x, cs ++ [.begun]⟩ := fun _ _ => .spawn rfl
  have hturn : ∀ before after : List (Call Unit), ∀ {x c e y c'}, Turn M x c e y c' →
      System M ⟨x, before ++ c :: after⟩ (some e) ⟨y, before ++ c' :: after⟩ :=
    fun _ _ _ _ _ _ _ h => .turn h
  -- both calls are picked and dispatched, and one of them fails
  have hrun : Exec (System M) ⟨m 0 0, []⟩ [none, none, some .picks, some .picks, some .dispatches,
      some .dispatches, some .fails] ⟨m 1 2, [gone, busy]⟩ := by
    refine .cons (hspawn _ []) (.cons (hspawn _ [.begun]) ?_)
    refine .cons (hturn [] [.begun] (hpick 0)) (.cons (hturn [walking] [] (hpick 1)) ?_)
    refine .cons (hturn [] [walking] (hdispatch 0)) (.cons (hturn [busy] [] (hdispatch 1)) ?_)
    exact .cons (hturn [] [busy] hfail) (.nil _)
  refine ⟨M, ⟨m 1 2, [gone, busy]⟩, _, hrun, rfl, ?_⟩
  obtain ⟨hcount, _, _⟩ := inflight_conserved M hrun (by decide)
  exact hcount ()

end calls

end Mesh

end SzlRouter
