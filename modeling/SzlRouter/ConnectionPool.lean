/-
The pool of upstream connections.

Any number of `request_json` calls run at once on one pool.  They share its idle
buckets; a connection is a number, drawn in order, and the transport answers as it
likes.  A call's local state says where in `request_json` it stands, and its `wire`
what it has done on the wire.  A call starts once its URL has been split.

* `request_contract_iff` — when a call keeps its contract.
-/
import SzlRouter.Dispatch
import SzlRouter.JsonNesting
import SzlRouter.Transition

open Py

namespace SzlRouter

namespace Upstream

open Transition

/-- `(scheme, host, port)`. -/
abbrev Key := Str × Str × ℕ

/-- The pool, the number of the next connection, and which connections have been closed
since they were last connected. -/
structure Pool where
  idle : List (Key × List ℕ)
  fresh : ℕ
  closed : ℕ → Bool

/-- `self._idle.get(key)`, empty where it is `None`. -/
def bucketOf : List (Key × List ℕ) → Key → List ℕ
  | [], _ => []
  | (k, b) :: idle, key => if k = key then b else bucketOf idle key

/-- `self._idle[key] = bucket`. -/
def setBucket : List (Key × List ℕ) → Key → List ℕ → List (Key × List ℕ)
  | [], key, bucket => [(key, bucket)]
  | (k, b) :: idle, key, bucket =>
    if k = key then (k, bucket) :: idle else (k, b) :: setBucket idle key bucket

/-- `conn.close()`. -/
def Pool.close (p : Pool) (c : ℕ) : Pool :=
  { p with closed := Function.update p.closed c true }

/-- What `conn.request` does first: it opens the socket of a connection that has none. -/
def Pool.connect (p : Pool) (c : ℕ) : Pool :=
  { p with closed := Function.update p.closed c false }

/-- `_new_conn`. -/
def Pool.newConn (p : Pool) : ℕ × Pool := (p.fresh, { p with fresh := p.fresh + 1 })

/-- `_checkout`: the connection, whether it is a new one, and the pool after. -/
def Pool.checkout (p : Pool) (key : Key) : ℕ × Bool × Pool :=
  match (bucketOf p.idle key).getLast? with
  | some c =>
    (c, false, { p with idle := setBucket p.idle key (bucketOf p.idle key).dropLast })
  | none => (p.newConn.1, true, p.newConn.2)

/-- `_release`, and whether the pool keeps the connection. -/
def Pool.release (maxPerHost maxHosts : ℕ) (p : Pool) (key : Key) (c : ℕ) : Bool × Pool :=
  if key ∉ p.idle.map Prod.fst ∧ maxHosts ≤ p.idle.length then (false, p.close c)
  else if maxPerHost ≤ (bucketOf p.idle key).length then
    (false, { p.close c with idle := setBucket p.idle key (bucketOf p.idle key) })
  else (true, { p with idle := setBucket p.idle key (bucketOf p.idle key ++ [c]) })

/-! ### Responses -/

/-- A response.  `willClose` is the `will_close` that `http.client` reads off its head: a
response over HTTP/1.1 that is not chunked and declares no length ends with its
connection, whatever its `Connection` header says. -/
structure Response where
  status : ℤ
  reason : Str
  version : ℕ
  headers : List (Str × Str)
  body : Bytes
  willClose : Bool

/-- `resp.getheader("Connection") or ""`: the values of the header, joined. -/
def Response.connection (r : Response) : Str :=
  Str.join (lit ", ") ((r.headers.filter fun p => Str.lower p.1 = lit "connection").map Prod.snd)

/-- `_can_keep_alive`. -/
def canKeepAlive (r : Response) : Bool :=
  if Str.contains (lit "close") (Str.lower r.connection) then false
  else if r.version = 10 ∧ Str.contains (lit "keep-alive") (Str.lower r.connection) = false then
    false
  else true

/-- The `HTTPError` of a response. -/
def httpError (r : Response) : Failure :=
  .http r.status r.body
    (lit "HTTP Error " ++ (Numeral.ofInt r.status).print ++ lit ": " ++ r.reason)

/-- `json.loads(body.decode("utf-8"))`, `none` where it raises, as it does where arrays and
objects are nested deeper than the interpreter's recursion limit leaves room for. -/
def parse (room : ℕ) (body : Bytes) : Option Json :=
  (decodeUtf8 body).bind (loadsWithin plainLoads room)

/-! ### Calls -/

/-- What a call does on the wire. -/
inductive Wire
  | send (c : ℕ) (new : Bool)
  /-- No response was obtained. -/
  | fails (e : Failure)
  /-- The body of a response could not be read. -/
  | breaks (e : Failure)
  | response (r : Response)

def Wire.isSend : Wire → Bool
  | .send _ _ => true
  | _ => false

/-- What became of a connection that a call no longer holds. -/
inductive Fate
  | pooled
  | closed
  deriving DecidableEq

/-- What `http.client` has made of a connection, which the call holds unless it is closed. -/
def fateOf (closed : Bool) : Option Fate := if closed then some .closed else none

/-- Where a `request_json` call stands.  `again` says whether it sends for the second
time, `new` whether its connection is one that it opened. -/
inductive Progress
  | begun
  | checked (c : ℕ) (new again : Bool)
  | requested (c : ℕ) (again : Bool)
  | responded (c : ℕ) (r : Response)
  /-- The first send failed; its connection is about to be closed, for the second time if
  it is closed already. -/
  | failed (c : ℕ) (closed : Bool) (e : Failure)
  | refusing (c : ℕ) (r : Response)
  | settled (c : ℕ) (r : Response)
  | parsing (c : ℕ) (fate : Fate) (r : Response)
  /-- The outermost handler is about to close the connection; `fate` is `none` while the
  call holds it. -/
  | discarding (c : ℕ) (fate : Option Fate) (e : Failure)
  | done (reply : Reply)

structure Call where
  key : Key
  budgeted : Bool
  wire : List Wire
  progress : Progress

/-- The call one step on. -/
def Call.to (k : Call) (progress : Progress) : Call := { k with progress := progress }

/-- The call one step on, after something on the wire. -/
def Call.log (k : Call) (ws : List Wire) (progress : Progress) : Call :=
  { k with wire := k.wire ++ ws, progress := progress }

/-- What a call does in one step.  `releases` says whether the connection was closed when
the call released it, and both it and `parseFails` what the pool has made of it. -/
inductive Event
  | checksOut
  | requests
  | requestFails
  | receives
  | receiveFails
  | resends
  | gives
  | reads
  | readFails
  | refuses
  | releases (closed : Bool) (fate : Fate)
  | closes
  | parses
  | parseFails (fate : Fate)
  | discards
  deriving DecidableEq

/-- Where a failed send or receive leads: to the resend, or to the outermost handler. -/
def afterFailure (c : ℕ) (again closed : Bool) (e : Failure) : Progress :=
  match again, e with
  | false, .transport _ _ => .failed c closed e
  | _, _ => .discarding c (fateOf closed) e

/-- `conn.close()`, where `http.client` makes it. -/
def Pool.closeIf (p : Pool) (closing : Bool) (c : ℕ) : Pool := if closing then p.close c else p

variable (maxPerHost maxHosts : ℕ)

/-- What `_release` makes of a connection. -/
def Pool.releaseFate (p : Pool) (key : Key) (c : ℕ) : Fate :=
  if (p.release maxPerHost maxHosts key c).1 then .pooled else .closed

/-- One step of a call. -/
inductive Turn : Pool → Call → Event → Pool → Call → Prop
  | checksOut {p : Pool} {k : Call} : k.progress = .begun →
    Turn p k .checksOut (p.checkout k.key).2.2
      (k.to (.checked (p.checkout k.key).1 (p.checkout k.key).2.1 false))
  | requests {p : Pool} {k : Call} {c : ℕ} {new again : Bool} :
    k.progress = .checked c new again →
    Turn p k .requests (p.connect c) (k.log [.send c new] (.requested c again))
  -- a send fails before or after it has opened the socket
  | requestFails {p : Pool} {k : Call} {c : ℕ} {new again : Bool} (e : Failure)
    (connected : Bool) : k.progress = .checked c new again →
    Turn p k .requestFails (if connected then p.connect c else p)
      (k.log [.send c new, .fails e] (afterFailure c again false e))
  -- `getresponse` itself closes the connection of a response that ends with it
  | receives {p : Pool} {k : Call} {c : ℕ} {again : Bool} (r : Response) :
    k.progress = .requested c again →
    Turn p k .receives (p.closeIf r.willClose c) (k.to (.responded c r))
  -- and that of a peer that has gone, before it raises
  | receiveFails {p : Pool} {k : Call} {c : ℕ} {again : Bool} (e : Failure) (gone : Bool) :
    k.progress = .requested c again →
    Turn p k .receiveFails (p.closeIf gone c) (k.log [.fails e] (afterFailure c again gone e))
  -- with a budget the first failure is raised; without one a new connection is opened
  | gives {p : Pool} {k : Call} {c : ℕ} {closed : Bool} {e : Failure} :
    k.progress = .failed c closed e → k.budgeted = true →
    Turn p k .gives (p.close c) (k.to (.discarding c (some .closed) e))
  | resends {p : Pool} {k : Call} {c : ℕ} {closed : Bool} {e : Failure} :
    k.progress = .failed c closed e → k.budgeted = false →
    Turn p k .resends (p.close c).newConn.2 (k.to (.checked (p.close c).newConn.1 true true))
  | reads {p : Pool} {k : Call} {c : ℕ} {r : Response} :
    k.progress = .responded c r →
    Turn p k .reads p
      (k.log [.response r] (if 400 ≤ r.status then .refusing c r else .settled c r))
  | readFails {p : Pool} {k : Call} {c : ℕ} {r : Response} (e : Failure) :
    k.progress = .responded c r →
    Turn p k .readFails p (k.log [.breaks e] (.discarding c (fateOf r.willClose) e))
  | refuses {p : Pool} {k : Call} {c : ℕ} {r : Response} :
    k.progress = .refusing c r →
    Turn p k .refuses (p.close c) (k.to (.done (.failed (httpError r))))
  | releases {p : Pool} {k : Call} {c : ℕ} {r : Response} :
    k.progress = .settled c r → canKeepAlive r = true →
    Turn p k (.releases r.willClose (p.releaseFate maxPerHost maxHosts k.key c))
      (p.release maxPerHost maxHosts k.key c).2
      (k.to (.parsing c (p.releaseFate maxPerHost maxHosts k.key c) r))
  | closes {p : Pool} {k : Call} {c : ℕ} {r : Response} :
    k.progress = .settled c r → canKeepAlive r = false →
    Turn p k .closes (p.close c) (k.to (.parsing c .closed r))
  | parses {p : Pool} {k : Call} {c : ℕ} {fate : Fate} {r : Response} (v : Parsed) (room : ℕ) :
    k.progress = .parsing c fate r → parse room r.body = some v.1 →
    Turn p k .parses p (k.to (.done (.json v)))
  | parseFails {p : Pool} {k : Call} {c : ℕ} {fate : Fate} {r : Response} (kind message : Str)
    (room : ℕ) : k.progress = .parsing c fate r → parse room r.body = none →
    Turn p k (.parseFails fate) p (k.to (.discarding c (some fate) (.other kind message)))
  | discards {p : Pool} {k : Call} {c : ℕ} {fate : Option Fate} {e : Failure} :
    k.progress = .discarding c fate e →
    Turn p k .discards (p.close c) (k.to (.done (.failed e)))

/-- A call that has not begun. -/
def Starts (k : Call) : Prop := k.wire = [] ∧ k.progress = .begun

/-- A pool with any number of concurrent calls. -/
abbrev System : Threads Pool Call → Option Event → Threads Pool Call → Prop :=
  Interleave Starts (fun p p' => p = p') (Turn maxPerHost maxHosts)

/-! ### The contract -/

/-- What has gone over the wire before the last send: nothing, or one send that failed
in transport without a budget. -/
inductive Opening (budgeted : Bool) : Bool → List Wire → Prop
  | first : Opening budgeted false []
  | again {c : ℕ} {new : Bool} {kind message : Str} : budgeted = false →
    Opening budgeted true [.send c new, .fails (.transport kind message)]

/-- The last send, on a connection of the call's own if it is the second, and what has
followed it. -/
def LastSend (budgeted again : Bool) (wire later : List Wire) : Prop :=
  ∃ before c new, Opening budgeted again before ∧ (again = true → new = true) ∧
    wire = before ++ .send c new :: later

/-- How a call ends, by what went over the wire. -/
inductive Ended (budgeted : Bool) (wire : List Wire) : Reply → Prop
  | lost {again : Bool} {e : Failure} : LastSend budgeted again wire [.fails e] →
    Ended budgeted wire (.failed e)
  | broken {again : Bool} {e : Failure} : LastSend budgeted again wire [.breaks e] →
    Ended budgeted wire (.failed e)
  | refused {again : Bool} {r : Response} : LastSend budgeted again wire [.response r] →
    400 ≤ r.status → Ended budgeted wire (.failed (httpError r))
  | parsed {again : Bool} {r : Response} {v : Parsed} {room : ℕ} :
    LastSend budgeted again wire [.response r] → r.status < 400 → parse room r.body = some v.1 →
    Ended budgeted wire (.json v)
  | unparsed {again : Bool} {r : Response} {kind message : Str} {room : ℕ} :
    LastSend budgeted again wire [.response r] → r.status < 400 → parse room r.body = none →
    Ended budgeted wire (.failed (.other kind message))

/-- What has gone over the wire, by where the call stands. It is the invariant behind the
contract: a call that is done has the wire that its reply needs. -/
def Call.Traced (k : Call) : Prop :=
  match k.progress with
  | .begun => k.wire = []
  | .checked _ new again => Opening k.budgeted again k.wire ∧ (again = true → new = true)
  | .requested _ again => LastSend k.budgeted again k.wire []
  | .responded _ _ => ∃ again, LastSend k.budgeted again k.wire []
  | .failed _ _ e => (∃ kind message, e = .transport kind message) ∧
      ∃ c new, k.wire = [.send c new, .fails e]
  | .refusing _ r => 400 ≤ r.status ∧ ∃ again, LastSend k.budgeted again k.wire [.response r]
  | .settled _ r | .parsing _ _ r =>
      r.status < 400 ∧ ∃ again, LastSend k.budgeted again k.wire [.response r]
  | .discarding _ _ e => Ended k.budgeted k.wire (.failed e)
  | .done reply => Ended k.budgeted k.wire reply

variable {maxPerHost maxHosts}

theorem LastSend.append {budgeted again : Bool} {wire later : List Wire}
    (h : LastSend budgeted again wire later) (ws : List Wire) :
    LastSend budgeted again (wire ++ ws) (later ++ ws) := by
  obtain ⟨before, c, new, hopening, hnew, rfl⟩ := h
  exact ⟨before, c, new, hopening, hnew, by simp⟩

/-- After a failure the call resends only what it sent first. -/
theorem afterFailure_traced {k : Call} {c : ℕ} {again closed : Bool} {e : Failure}
    {ws : List Wire} (h : LastSend k.budgeted again (k.wire ++ ws) [.fails e]) :
    (k.log ws (afterFailure c again closed e)).Traced := by
  have hended : Ended k.budgeted (k.wire ++ ws) (.failed e) := .lost h
  cases again with
  | true => exact hended
  | false =>
    cases e with
    | transport kind message =>
      obtain ⟨_, c', new, hopening, _, hwire⟩ := h
      cases hopening
      exact ⟨⟨kind, message, rfl⟩, c', new, hwire⟩
    | http _ _ _ => exact hended
    | other _ _ => exact hended

/-- A turn extends what went over the wire as the call's new place says. -/
theorem turn_traced {p p' : Pool} {k k' : Call} {e : Event}
    (h : Turn maxPerHost maxHosts p k e p' k') (hk : k.Traced) : k'.Traced := by
  cases h with
  | checksOut hp =>
    rw [Call.Traced, hp] at hk
    exact ⟨hk ▸ .first, fun h => (nomatch h)⟩
  | requests hp =>
    rw [Call.Traced, hp] at hk
    exact ⟨k.wire, _, _, hk.1, hk.2, rfl⟩
  -- the connection is dropped, and the call sends again or gives up
  | requestFails e _ hp =>
    rw [Call.Traced, hp] at hk
    exact afterFailure_traced ⟨k.wire, _, _, hk.1, hk.2, rfl⟩
  | receives r hp =>
    rw [Call.Traced, hp] at hk
    exact ⟨_, hk⟩
  | receiveFails e _ hp =>
    rw [Call.Traced, hp] at hk
    exact afterFailure_traced (hk.append [.fails e])
  -- nothing is sent again under a budget
  | gives hp hbudget =>
    rw [Call.Traced, hp] at hk
    obtain ⟨_, c, new, hwire⟩ := hk
    exact .lost ⟨[], _, new, .first, fun h => (nomatch h), hwire⟩
  | resends hp hbudget =>
    rw [Call.Traced, hp] at hk
    obtain ⟨⟨kind, message, rfl⟩, c, new, hwire⟩ := hk
    refine ⟨?_, fun _ => rfl⟩
    show Opening k.budgeted true k.wire
    rw [hwire]
    exact .again hbudget
  -- the status parts what is raised from what is parsed
  | @reads c r hp =>
    rw [Call.Traced, hp] at hk
    obtain ⟨again, hlast⟩ := hk
    by_cases hstatus : 400 ≤ r.status
    · rw [if_pos hstatus]
      exact ⟨hstatus, again, hlast.append [.response r]⟩
    · rw [if_neg hstatus]
      exact ⟨not_le.mp hstatus, again, hlast.append [.response r]⟩
  | readFails e hp =>
    rw [Call.Traced, hp] at hk
    obtain ⟨again, hlast⟩ := hk
    exact .broken (hlast.append [.breaks e])
  | refuses hp =>
    rw [Call.Traced, hp] at hk
    obtain ⟨hstatus, again, hlast⟩ := hk
    exact .refused hlast hstatus
  -- the connection goes back while the reply waits to be parsed
  | releases hp _ =>
    rw [Call.Traced, hp] at hk
    exact hk
  | closes hp _ =>
    rw [Call.Traced, hp] at hk
    exact hk
  | parses v _ hp hparse =>
    rw [Call.Traced, hp] at hk
    obtain ⟨hstatus, again, hlast⟩ := hk
    exact .parsed hlast hstatus hparse
  | parseFails kind message _ hp hparse =>
    rw [Call.Traced, hp] at hk
    obtain ⟨hstatus, again, hlast⟩ := hk
    exact .unparsed hlast hstatus hparse
  | discards hp =>
    rw [Call.Traced, hp] at hk
    exact hk

/-- A status for which the body is to be returned. -/
def Success (status : ℤ) : Prop := 200 ≤ status ∧ status ≤ 299

instance (status : ℤ) : Decidable (Success status) := inferInstanceAs (Decidable (_ ∧ _))

/-- What a finished call owes: at most two sends, the second one on a new connection after the
first failed and under no budget, and a reply that is what the last of them came to. -/
structure Contract (budgeted : Bool) (wire : List Wire) (reply : Reply) : Prop where
  parsed : ∀ v, reply = .json v →
    ∃ r room, .response r ∈ wire ∧ Success r.status ∧ parse room r.body = some v.1
  refused : ∀ r, .response r ∈ wire → ¬Success r.status →
    ∃ body message, reply = .failed (.http r.status body message)
  sends : 1 ≤ wire.countP Wire.isSend ∧ wire.countP Wire.isSend ≤ 2
  once : budgeted = true → wire.countP Wire.isSend = 1
  resend : wire.countP Wire.isSend = 2 →
    ∃ c new e c' later, wire = .send c new :: .fails e :: .send c' true :: later
  failures : ∀ e, wire.getLast? = some (.fails e) ∨ wire.getLast? = some (.breaks e) →
    reply = .failed e

theorem Opening.no_response {budgeted again : Bool} {wire : List Wire}
    (h : Opening budgeted again wire) (r : Response) : .response r ∉ wire := by
  cases h <;> simp

theorem Opening.sends {budgeted again : Bool} {wire : List Wire}
    (h : Opening budgeted again wire) : wire.countP Wire.isSend = if again then 1 else 0 := by
  cases h <;> rfl

namespace LastSend

variable {budgeted again : Bool} {wire later : List Wire}

theorem response_mem (h : LastSend budgeted again wire later) (r : Response) :
    .response r ∈ wire ↔ .response r ∈ later := by
  obtain ⟨before, c, new, hopening, _, rfl⟩ := h
  simp [hopening.no_response r]

theorem sends (h : LastSend budgeted again wire later) :
    wire.countP Wire.isSend = (if again then 2 else 1) + later.countP Wire.isSend := by
  obtain ⟨before, c, new, hopening, _, rfl⟩ := h
  rw [List.countP_append, hopening.sends, List.countP_cons]
  cases again <;> simp only [Wire.isSend] <;> simp <;> omega

theorem last {w : Wire} (h : LastSend budgeted again wire [w]) : wire.getLast? = some w := by
  obtain ⟨before, c, new, _, _, rfl⟩ := h
  simp

theorem resend (h : LastSend budgeted true wire later) :
    ∃ c new e c', wire = .send c new :: .fails e :: .send c' true :: later := by
  obtain ⟨before, c', new', hopening, hnew, rfl⟩ := h
  obtain rfl := hnew rfl
  cases hopening with
  | @again c new kind message _ => exact ⟨c, new, .transport kind message, c', rfl⟩

/-- What the last event on the wire leaves to show of the contract. -/
theorem contract {w : Wire} {reply : Reply} (h : LastSend budgeted again wire [w])
    (hw : w.isSend = false)
    (hparsed : ∀ v, reply = .json v → ∃ r room, w = .response r ∧ Success r.status ∧
      parse room r.body = some v.1)
    (hrefused : ∀ r, w = .response r → ¬Success r.status →
      ∃ body message, reply = .failed (.http r.status body message))
    (hfailures : ∀ e, w = .fails e ∨ w = .breaks e → reply = .failed e) :
    Contract budgeted wire reply := by
  -- one send, or two when the first was on a stale connection
  have hsends : wire.countP Wire.isSend = if again then 2 else 1 := by
    rw [h.sends, List.countP_singleton, hw]
    rfl
  constructor
  · intro v hv
    obtain ⟨r, room, hr, hsuccess, hparse⟩ := hparsed v hv
    exact ⟨r, room, (h.response_mem r).mpr (List.mem_singleton.mpr hr.symm), hsuccess, hparse⟩
  · intro r hr hsuccess
    exact hrefused r (List.mem_singleton.mp ((h.response_mem r).mp hr)).symm hsuccess
  · rw [hsends]
    cases again <;> simp
  · intro hbudget
    rw [hsends]
    cases again with
    | false => rfl
    | true =>
      obtain ⟨_, _, _, hopening, _, _⟩ := h
      cases hopening with
      -- a second send is made without a budget alone
      | again hfree => exact absurd hbudget (by simp [hfree])
  · intro htwo
    cases again with
    | false =>
      rw [hsends] at htwo
      exact absurd htwo (by decide)
    | true =>
      obtain ⟨c, new, e, c', hwire⟩ := h.resend
      exact ⟨c, new, e, c', _, hwire⟩
  · intro e he
    rw [h.last, Option.some_inj, Option.some_inj] at he
    exact hfailures e he

end LastSend

/-- A call that read a response below 400 keeps its contract only on a success. -/
theorem LastSend.below_iff {budgeted again : Bool} {wire : List Wire} {r : Response}
    {reply : Reply} (h : LastSend budgeted again wire [.response r]) (hstatus : r.status < 400)
    (hparsed : ∀ v, reply = .json v → ∃ room, parse room r.body = some v.1)
    (hreply : ∀ code body message, reply ≠ .failed (.http code body message)) :
    Contract budgeted wire reply ↔
      ∀ r, .response r ∈ wire → Success r.status ∨ 400 ≤ r.status := by
  have hmem : .response r ∈ wire := (h.response_mem r).mpr (List.mem_singleton.mpr rfl)
  constructor
  · intro hcontract r' hr
    -- there is one response on the wire, the last thing that was received
    obtain rfl := Wire.response.inj (List.mem_singleton.mp ((h.response_mem r').mp hr))
    by_contra hbad
    obtain ⟨body, message, hfailed⟩ := hcontract.refused r' hmem fun h => hbad (Or.inl h)
    exact hreply _ _ _ hfailed
  · intro hstatuses
    have hsuccess := (hstatuses r hmem).resolve_right (not_le.mpr hstatus)
    refine h.contract rfl ?_ ?_ ?_
    · intro v hv
      obtain ⟨room, hparse⟩ := hparsed v hv
      exact ⟨r, room, rfl, hsuccess, hparse⟩
    · intro r' hr hbad
      exact absurd (Wire.response.inj hr ▸ hsuccess) hbad
    · rintro e (he | he)
      · exact nomatch he
      · exact nomatch he

/-- How a call ended decides whether it kept its contract. -/
theorem Ended.kept_iff {budgeted : Bool} {wire : List Wire} {reply : Reply}
    (h : Ended budgeted wire reply) :
    Contract budgeted wire reply ↔
      ∀ r, .response r ∈ wire → Success r.status ∨ 400 ≤ r.status := by
  cases h with
  -- no response came: the failure is the one of the wire
  | lost hlast =>
    refine iff_of_true (hlast.contract rfl ?_ ?_ ?_) ?_
    · intro v hv
      exact nomatch hv
    · intro r hr
      exact nomatch hr
    · rintro e (he | he)
      · exact congrArg Reply.failed (Wire.fails.inj he)
      · exact nomatch he
    · intro r hr
      exact nomatch List.mem_singleton.mp ((hlast.response_mem r).mp hr)
  | broken hlast =>
    refine iff_of_true (hlast.contract rfl ?_ ?_ ?_) ?_
    · intro v hv
      exact nomatch hv
    · intro r hr
      exact nomatch hr
    · rintro e (he | he)
      · exact nomatch he
      · exact congrArg Reply.failed (Wire.breaks.inj he)
    · intro r hr
      exact nomatch List.mem_singleton.mp ((hlast.response_mem r).mp hr)
  -- a status of an error raises, as the contract asks
  | refused hlast hstatus =>
    refine iff_of_true (hlast.contract rfl ?_ ?_ ?_) ?_
    · intro v hv
      exact nomatch hv
    · intro r hr _
      obtain rfl := Wire.response.inj hr
      exact ⟨_, _, rfl⟩
    · rintro e (he | he)
      · exact nomatch he
      · exact nomatch he
    · intro r hr
      obtain rfl := Wire.response.inj (List.mem_singleton.mp ((hlast.response_mem r).mp hr))
      exact Or.inr hstatus
  -- below 400 the body is returned, so the status has to be one of success
  | parsed hlast hstatus hparse =>
    refine hlast.below_iff hstatus ?_ ?_
    · intro v hv
      exact ⟨_, Reply.json.inj hv ▸ hparse⟩
    · intro code body message hreply
      exact nomatch hreply
  | unparsed hlast hstatus hparse =>
    refine hlast.below_iff hstatus ?_ ?_
    · intro v hv
      exact nomatch hv
    · intro code body message hreply
      exact nomatch Reply.failed.inj hreply

/-- **The contract of a request.** In every run of concurrent calls on a pool in any
state, a finished call has sent at most twice, the second time on a new connection
after the first send failed, once under a budget, and answers with the parsed body
of a success, the status of any other response, or its last failure, if and only if
the response it read, if any, has the status of a success or one from 400 on. -/
theorem request_contract_iff {p : Pool} {s : Threads Pool Call} {events : List (Option Event)}
    (h : Exec (System maxPerHost maxHosts) ⟨p, []⟩ events s) {k : Call} (hk : k ∈ s.locals)
    {reply : Reply} (hdone : k.progress = .done reply) :
    Contract k.budgeted k.wire reply ↔
      ∀ r, .response r ∈ k.wire → Success r.status ∨ 400 ≤ r.status := by
  have htraced : k.Traced := by
    refine Interleave.forall_locals (P := Call.Traced) ?_ ?_ h (by simp) k hk
    · rintro t ⟨hwire, hbegun⟩
      rw [Call.Traced, hbegun]
      exact hwire
    · intro p k e p' k' hturn hk
      exact turn_traced hturn hk
  rw [Call.Traced, hdone] at htraced
  exact htraced.kept_iff

/-- A redirect with a JSON body: the body is returned. -/
theorem redirect_returned : ¬∀ (p : Pool) (s : Threads Pool Call) (events : List (Option Event)),
    Exec (System 4 16) ⟨p, []⟩ events s → ∀ k ∈ s.locals, ∀ reply, k.progress = .done reply →
      Contract k.budgeted k.wire reply := by
  intro h
  let key : Key := (lit "https", lit "box.example", 443)
  let r : Response := ⟨302, lit "Found", 11, [(lit "Connection", lit "close")], [123, 125], true⟩
  let v : Parsed := ⟨.obj [], [123, 125], [123, 125], by decide, by decide⟩
  let p (n : ℕ) : Pool := ⟨[], n, fun _ => false⟩
  let k (wire : List Wire) (progress : Progress) : Call := ⟨key, false, wire, progress⟩
  have hrun : Exec (System 4 16) ⟨p 0, []⟩ [none, some .checksOut, some .requests, some .receives,
      some .reads, some .closes, some .parses]
      ⟨(((p 1).connect 0).close 0).close 0, [k [.send 0 true, .response r] (.done (.json v))]⟩ := by
    refine .cons (Interleave.first (t := k [] .begun) ⟨rfl, rfl⟩) ?_
    refine .cons (Interleave.alone (.checksOut rfl)) (.cons (Interleave.alone (.requests rfl)) ?_)
    refine .cons (Interleave.alone (.receives r rfl)) (.cons (Interleave.alone (.reads rfl)) ?_)
    refine .cons (Interleave.alone (.closes rfl (by decide))) ?_
    exact .cons (Interleave.alone (.parses v 900 rfl (by decide))) (.nil _)
  have hcontract := h _ _ _ hrun _ List.mem_cons_self _ rfl
  obtain ⟨_, _, hreply⟩ := hcontract.refused r (by simp [k]) (by decide)
  exact nomatch hreply

/-- A connection that has gone stale, and the resend on a new one. -/
theorem request_contract_iff_resent : ∃ (p : Pool) (s : Threads Pool Call)
    (events : List (Option Event)) (k : Call) (reply : Reply),
    Exec (System 4 16) ⟨p, []⟩ events s ∧ k ∈ s.locals ∧ k.progress = .done reply ∧
      k.wire.countP Wire.isSend = 2 ∧ Contract k.budgeted k.wire reply := by
  let key : Key := (lit "https", lit "box.example", 443)
  let stale : Failure := .transport (lit "RemoteDisconnected") []
  let r : Response :=
    ⟨200, lit "OK", 11, [(lit "Content-Length", lit "2")], [123, 125], false⟩
  let v : Parsed := ⟨.obj [], [123, 125], [123, 125], by decide, by decide⟩
  let p : Pool := ⟨[(key, [0])], 1, fun _ => false⟩
  let k (wire : List Wire) (progress : Progress) : Call := ⟨key, false, wire, progress⟩
  let wire : List Wire := [.send 0 false, .fails stale, .send 1 true, .response r]
  let q : Pool := (((p.checkout key).2.2.close 0).newConn.2.connect 1 |>.release 4 16 key 1).2
  -- the pooled connection is stale, and the call sends once more on a new one
  have hrun : Exec (System 4 16) ⟨p, []⟩ [none, some .checksOut, some .requestFails,
      some .resends, some .requests, some .receives, some .reads, some (.releases false .pooled),
        some .parses]
      ⟨q, [k wire (.done (.json v))]⟩ := by
    refine .cons (Interleave.first (t := k [] .begun) ⟨rfl, rfl⟩) ?_
    refine .cons (Interleave.alone (.checksOut rfl)) ?_
    refine .cons (Interleave.alone (.requestFails stale false rfl)) ?_
    refine .cons (Interleave.alone (.resends rfl rfl)) (.cons (Interleave.alone (.requests rfl)) ?_)
    refine .cons (Interleave.alone (.receives r rfl)) (.cons (Interleave.alone (.reads rfl)) ?_)
    refine .cons (Interleave.alone (.releases (r := r) rfl (by decide))) ?_
    exact .cons (Interleave.alone (.parses v 900 rfl (by decide))) (.nil _)
  refine ⟨p, _, _, k wire (.done (.json v)), .json v, hrun, List.mem_cons_self, rfl, rfl, ?_⟩
  refine (request_contract_iff hrun List.mem_cons_self rfl).mpr ?_
  intro r' hr
  obtain rfl : r' = r := by simpa [k, wire] using hr
  exact Or.inl (by decide)

end Upstream

end SzlRouter
