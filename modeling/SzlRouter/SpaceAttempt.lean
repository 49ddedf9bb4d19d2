/-
What one attempt of the drift verifier does to the state.

A call that returns is described by the read it made (`fetch_ok` and its kin).
At either exit, whatever the answers, an attempt moves the state by `Attempted`:
requests go out in time, the clock does not run back, the verdict and the
recorded revision stay, and no positive state appears without its mark.

* `attempted_verifyAt` — this, for the part of an attempt after its first read;
* `verifyOnce_spec` — an attempt, at both of its exits.
-/
import SzlRouter.SpaceVerifier

namespace SzlRouter

namespace Drift

open Py Procedure
open EStateM (Result)

/-! ### What a read shows -/

/-- The body of a response, where it is declared and parses as JSON. -/
def Response.json (r : Response) : Option Json :=
  if isJsonType r.contentType then (decodeUtf8 r.body).bind (loads plainLoads) else none

theorem loadsBody_ok {limitError : Str → Option Str} {malformed : VerificationFailure}
    {body : Bytes} {v : Json} (h : loadsBody limitError malformed body = .ok v) :
    (decodeUtf8 body).bind (loads plainLoads) = some v := by
  rw [loadsBody] at h
  cases htext : decodeUtf8 body with
  | none =>
    rw [htext] at h
    exact nomatch h
  | some text =>
    rw [htext] at h
    dsimp only at h
    split at h
    · exact nomatch h
    · rw [Option.bind_some]
      cases hv : loads plainLoads text with
      | none =>
        rw [hv] at h
        exact nomatch h
      | some w =>
        rw [hv] at h
        exact congrArg some (Except.ok.inj h)

theorem decodeJson_ok {limitError : Str → Option Str} {r : Response} {v : Json}
    (h : decodeJson limitError r = .ok v) : r.json = some v := by
  rw [decodeJson] at h
  split_ifs at h with hother
  rw [Response.json, if_pos (by simpa using hother)]
  exact loadsBody_ok h

theorem objectRoot_ok {limitError : Str → Option Str} {r : Response} {d : Dict}
    (h : objectRoot limitError r = .ok d) : r.json = some (.obj d) := by
  rw [objectRoot] at h
  split at h
  · exact nomatch h
  · rename_i d' hjson
    rw [← Except.ok.inj h]
    exact decodeJson_ok hjson
  · exact nomatch h

theorem arrayRoot_ok {limitError : Str → Option Str} {r : Response} {xs : List Json}
    (h : arrayRoot limitError r = .ok xs) : r.json = some (.arr xs) := by
  rw [arrayRoot] at h
  split at h
  · exact nomatch h
  · rename_i xs' hjson
    rw [← Except.ok.inj h]
    exact decodeJson_ok hjson
  · exact nomatch h

/-- The read was answered with this JSON object. -/
def Read.Object (r : Read) (d : Dict) : Prop :=
  ∃ response, readAnswer r = .ok response ∧ response.json = some (.obj d)

/-- The read was answered with this JSON array. -/
def Read.Array (r : Read) (xs : List Json) : Prop :=
  ∃ response, readAnswer r = .ok response ∧ response.json = some (.arr xs)

/-- The read was answered with these bytes. -/
def Read.Bytes (r : Read) (body : Bytes) : Prop :=
  ∃ response, readAnswer r = .ok response ∧ response.body = body

variable {W : World} {cfg : Config} {deadline : Binary64} {s t : State}

/-- The evidence and the marks are left alone and one read is added. -/
structure OneRead (s t : State) (r : Read) : Prop where
  reads : t.reads = s.reads ++ [r]
  evidence : t.evidence = s.evidence
  marks : t.marks = s.marks

theorem orFail_ok {α : Type} {x : Except VerificationFailure α} {a : α}
    (h : orFail x s = .ok a t) : x = .ok a ∧ s = t := by
  cases x with
  | error f => exact absurd h throw_ne_ok
  | ok b =>
    obtain ⟨rfl, rfl⟩ := pure_eq_ok.mp h
    exact ⟨rfl, rfl⟩

theorem orStop_ok {α : Type} {x : Except Stop α} {a : α}
    (h : orStop x s = .ok a t) : x = .ok a ∧ s = t := by
  cases x with
  | error e => exact absurd h throw_ne_ok
  | ok b =>
    obtain ⟨rfl, rfl⟩ := pure_eq_ok.mp h
    exact ⟨rfl, rfl⟩

theorem timeoutForCall_ok {timeout : Binary64}
    (h : timeoutForCall W cfg deadline s = .ok timeout t) :
    t = s.tickClock W ∧ ¬ deadline.sub t.clock ≤ 0 ∧
      timeout = Binary64.min cfg.requestTimeout (deadline.sub t.clock) := by
  rw [timeoutForCall] at h
  obtain ⟨now, u, hnow, h⟩ := bind_eq_ok.mp h
  obtain ⟨rfl, rfl⟩ : (s.tickClock W).clock = now ∧ s.tickClock W = u := by
    exact Result.ok.inj hnow
  by_cases hle : deadline.sub (s.tickClock W).clock ≤ 0
  · rw [if_pos hle] at h
    obtain ⟨_, _, h, _⟩ := bind_eq_ok.mp h
    exact absurd h throw_ne_ok
  · rw [if_neg hle] at h
    obtain ⟨rfl, rfl⟩ := pure_eq_ok.mp h
    exact ⟨rfl, hle, rfl⟩

theorem fetch_ok {url : Str} {authenticate redirects : Bool} {response : Response}
    (h : fetch W cfg deadline url authenticate redirects s = .ok response t) :
    ∃ r, OneRead s t r ∧ r.get.url = url ∧ readAnswer r = .ok response := by
  rw [fetch] at h
  obtain ⟨timeout, u, hu, h⟩ := bind_eq_ok.mp h
  obtain rfl := (timeoutForCall_ok hu).1
  rw [request] at h
  cases hread : readAnswer ((s.tickClock W).read W cfg url timeout authenticate redirects) with
  | error e => rw [hread] at h; exact absurd h (by simp)
  | ok r =>
    rw [hread] at h
    obtain ⟨rfl, rfl⟩ := Result.ok.inj h
    exact ⟨_, ⟨rfl, rfl, rfl⟩, rfl, hread⟩

theorem getJson_ok {url : Str} {d : Dict} (h : getJson W cfg deadline url s = .ok d t) :
    ∃ r, OneRead s t r ∧ r.get.url = url ∧ r.Object d := by
  rw [getJson] at h
  obtain ⟨response, u, hu, h⟩ := bind_eq_ok.mp h
  obtain ⟨r, hr, hurl, hread⟩ := fetch_ok hu
  obtain ⟨hroot, rfl⟩ := orStop_ok h
  exact ⟨r, hr, hurl, response, hread, objectRoot_ok hroot⟩

theorem getJsonArray_ok {url : Str} {xs : List Json}
    (h : getJsonArray W cfg deadline url s = .ok xs t) :
    ∃ r, OneRead s t r ∧ r.get.url = url ∧ r.Array xs := by
  rw [getJsonArray] at h
  obtain ⟨response, u, hu, h⟩ := bind_eq_ok.mp h
  obtain ⟨r, hr, hurl, hread⟩ := fetch_ok hu
  obtain ⟨hroot, rfl⟩ := orStop_ok h
  exact ⟨r, hr, hurl, response, hread, arrayRoot_ok hroot⟩

theorem getWitnessJson_ok {url : Str} {p : Dict × ℤ × List (Str × Str)}
    (h : getWitnessJson W cfg deadline url s = .ok p t) :
    ∃ r, OneRead s t r ∧ r.get.url = url ∧ r.Object p.1 := by
  rw [getWitnessJson] at h
  obtain ⟨response, u, hu, h⟩ := bind_eq_ok.mp h
  obtain ⟨r, hr, hurl, hread⟩ := fetch_ok hu
  obtain ⟨payload, v, hv, h⟩ := bind_eq_ok.mp h
  obtain ⟨hroot, rfl⟩ := orStop_ok hv
  obtain ⟨rfl, rfl⟩ := pure_eq_ok.mp h
  exact ⟨r, hr, hurl, response, hread, objectRoot_ok hroot⟩

theorem getBytes_ok {url : Str} {body : Bytes} (h : getBytes W cfg deadline url s = .ok body t) :
    ∃ r, OneRead s t r ∧ r.get.url = url ∧ r.Bytes body := by
  rw [getBytes] at h
  obtain ⟨response, u, hu, h⟩ := bind_eq_ok.mp h
  obtain ⟨r, hr, hurl, hread⟩ := fetch_ok hu
  obtain ⟨rfl, rfl⟩ := pure_eq_ok.mp h
  exact ⟨r, hr, hurl, response, hread, rfl⟩

/-! ### What an attempt does at either exit -/

/-- From a finite reading the clock goes to a finite one, and not back. -/
def Forward (c d : Binary64) : Prop := c.isFinite = true → d.isFinite = true ∧ c.units ≤ d.units

theorem Forward.refl (c : Binary64) : Forward c c := fun h => ⟨h, le_rfl⟩

theorem Forward.trans {c d e : Binary64} (h : Forward c d) (h' : Forward d e) : Forward c e := by
  intro hc
  obtain ⟨hd, hcd⟩ := h hc
  obtain ⟨he, hde⟩ := h' hd
  exact ⟨he, hcd.trans hde⟩

/-- The clock is monotonic and finite, and a sleep begun before the deadline takes
at least its time. -/
structure Clockwork (W : World) (deadline : Binary64) : Prop where
  elapse : ∀ n c, Forward c (W.elapse n c)
  wake_finite : ∀ n c d, (W.wake n c d).isFinite = true
  wake_advances : ∀ n c d, c.units < deadline.units → d ≤ Binary64.ofInt 30 →
    c.units + d.units ≤ (W.wake n c d).units
  deadline_finite : deadline.isFinite = true

/-- A request that goes out before the deadline and may take no longer. -/
def Timely (deadline : Binary64) (r : Read) : Prop :=
  r.sentAt.units < deadline.units ∧ r.get.timeout ≤ deadline.sub r.sentAt

/-- The positive state stands in the evidence. -/
def Mark.Stands : Mark → Evidence → Prop
  | .outputSetExact, e => e.publication.outputSetState = .exact
  | .bytesAligned, e => e.publication.bytesState = .aligned
  | .sourceBindingAligned, e => e.publication.sourceBindingState = .aligned
  | .publicationAligned, e => e.truth.publicationState = .exactRevisionAligned
  | .witnessBound, e => e.runtime.witnessState = .sourceAndHfRevisionBound
  | .readyWitnessed, e => e.truth.runtimeState = .readyWitnessed

/-- Every positive state was last written at the recorded revision. A state that was carried over
from another one would say of this revision what was seen of that. -/
def Current (s : State) : Prop :=
  ∀ m, Mark.Stands m s.evidence →
    KeyedHistory.last s.marks m = s.evidence.publication.revision

/-- The answer is one the world gave to the request. -/
def Answered (W : World) (r : Read) : Prop := ∃ n, r.answer = W.answer n r.get

/-- Reads are added, answered and in time, and the clock does not run back. -/
structure Worked (W : World) (deadline : Binary64) (s t : State) : Prop where
  reads : ∃ new, t.reads = s.reads ++ new ∧ (∀ x ∈ new, Answered W x) ∧
    (Clockwork W deadline → s.clock.isFinite = true → ∀ x ∈ new, Timely deadline x)
  clock : Clockwork W deadline → Forward s.clock t.clock

/-- No read is added. -/
theorem Worked.of_reads (hreads : t.reads = s.reads)
    (hclock : Clockwork W deadline → Forward s.clock t.clock) : Worked W deadline s t :=
  ⟨⟨[], by rw [hreads, List.append_nil], by simp, by simp⟩, hclock⟩

theorem Worked.refl (s : State) : Worked W deadline s s := .of_reads rfl fun _ => .refl _

theorem Worked.trans {u : State} (h : Worked W deadline s t) (h' : Worked W deadline t u) :
    Worked W deadline s u := by
  obtain ⟨new, hnew, hanswered, htimely⟩ := h.reads
  obtain ⟨new', hnew', hanswered', htimely'⟩ := h'.reads
  refine ⟨⟨new ++ new', ?_, ?_, ?_⟩, ?_⟩
  · rw [hnew', hnew, List.append_assoc]
  · exact List.forall_mem_append.mpr ⟨hanswered, hanswered'⟩
  · intro hW hfinite x hx
    rcases List.mem_append.mp hx with hx | hx
    · exact htimely hW hfinite x hx
    · exact htimely' hW (h.clock hW hfinite).1 x hx
  · intro hW
    exact (h.clock hW).trans (h'.clock hW)

/-- What the calls of an attempt do while `r` is the recorded revision. -/
structure Attempted (W : World) (deadline : Binary64) (r : Option Str) (s t : State) : Prop extends
    Worked W deadline s t where
  verdict : t.evidence.verdict = s.evidence.verdict
  revision : t.evidence.publication.revision = s.evidence.publication.revision
  current : s.evidence.publication.revision = r → Current s → Current t

instance (r : Option Str) : IsPreorder State (Attempted W deadline r) where
  refl s := ⟨.refl s, rfl, rfl, fun _ h => h⟩
  trans a b c h h' := by
    refine ⟨h.toWorked.trans h'.toWorked, h'.verdict.trans h.verdict,
      h'.revision.trans h.revision, ?_⟩
    intro hr hcurrent
    exact h'.current (h.revision.trans hr) (h.current hr hcurrent)

section attempted

variable {r : Option Str} {hfRevision : Str} {α : Type}

theorem attempted_orFail (x : Except VerificationFailure α) :
    Moves (Attempted W deadline r) (orFail x) := by
  cases x with
  | error f => exact Moves.throw _
  | ok a => exact Moves.pure a

theorem attempted_orStop (x : Except Stop α) : Moves (Attempted W deadline r) (orStop x) := by
  cases x with
  | error e => exact Moves.throw _
  | ok a => exact Moves.pure a

/-- A change of the evidence that keeps the verdict and the revision, and makes no
positive state but these. -/
structure Writes (ms : List Mark) (f : Evidence → Evidence) : Prop where
  verdict : ∀ e, (f e).verdict = e.verdict
  revision : ∀ e, (f e).publication.revision = e.publication.revision
  stands : ∀ e m, Mark.Stands m (f e) → m ∈ ms ∨ Mark.Stands m e

theorem attempted_establish {ms : List Mark} {f : Evidence → Evidence} (hf : Writes ms f) :
    Moves (Attempted W deadline (some hfRevision)) (establish ms hfRevision f) := by
  refine Moves.modify fun s => ⟨.of_reads rfl fun _ => .refl _, hf.verdict _, hf.revision _, ?_⟩
  intro hr hcurrent m hm
  show KeyedHistory.last (s.marks ++ _) m = (f s.evidence).publication.revision
  rw [KeyedHistory.last_append_puts, hf.revision]
  by_cases hmem : m ∈ ms
  · rw [if_pos hmem, hr]
  · rw [if_neg hmem]
    exact hcurrent m ((hf.stands _ m hm).resolve_left hmem)

theorem attempted_record {f : Evidence → Evidence} (hf : Writes [] f) :
    Moves (Attempted W deadline r) (record f) := by
  refine Moves.modify fun s => ⟨.of_reads rfl fun _ => .refl _, hf.verdict _, hf.revision _, ?_⟩
  intro _ hcurrent m hm
  show KeyedHistory.last s.marks m = (f s.evidence).publication.revision
  rw [hf.revision]
  exact hcurrent m ((hf.stands _ m hm).resolve_left List.not_mem_nil)

/-- Only the clock and the count of moments change. -/
theorem Attempted.of_clock {s t : State} (hevidence : t.evidence = s.evidence)
    (hmarks : t.marks = s.marks) (hreads : t.reads = s.reads)
    (hclock : Clockwork W deadline → Forward s.clock t.clock) : Attempted W deadline r s t := by
  refine ⟨.of_reads hreads hclock, by rw [hevidence], by rw [hevidence], ?_⟩
  intro _ hcurrent
  rw [Current, hevidence, hmarks]
  exact hcurrent

theorem attempted_ask (question : ℕ → α) : Moves (Attempted W deadline r) (ask question) :=
  fun _ => .of_clock rfl rfl rfl fun _ => .refl _

theorem attempted_tickClock (s : State) : Attempted W deadline r s (s.tickClock W) :=
  .of_clock rfl rfl rfl fun hW => hW.elapse _ _

theorem attempted_timeoutForCall :
    Moves (Attempted W deadline r) (timeoutForCall W cfg deadline) := by
  rw [timeoutForCall]
  refine Moves.bind (fun s => attempted_tickClock s) fun now => ?_
  exact Moves.ite (fun _ => Moves.throw_bind _) fun _ => Moves.pure _

/-- A request that goes out is in time. -/
theorem attempted_addRead (cfg : Config) (url : Str) (timeout : Binary64)
    (authenticate redirects : Bool)
    (htime : Clockwork W deadline → s.clock.isFinite = true →
      Timely deadline (s.read W cfg url timeout authenticate redirects)) :
    Attempted W deadline r s (s.addRead (s.read W cfg url timeout authenticate redirects)) := by
  refine ⟨⟨⟨[_], rfl, ?_, ?_⟩, fun _ => .refl _⟩, rfl, rfl, fun _ h => h⟩
  · intro x hx
    rw [List.mem_singleton.mp hx]
    exact ⟨s.moment, rfl⟩
  · intro hW hfinite x hx
    rw [List.mem_singleton.mp hx]
    exact htime hW hfinite

theorem Config.requestTimeout_notNaN (cfg : Config) : cfg.requestTimeout.isNaN = false :=
  (Binary64.le_def.mp cfg.request_range.1).2.1

theorem timely_of_timeoutForCall {timeout : Binary64} {url : Str} {authenticate redirects : Bool}
    (h : timeoutForCall W cfg deadline s = .ok timeout t) (hW : Clockwork W deadline)
    (hfinite : t.clock.isFinite = true) :
    Timely deadline (t.read W cfg url timeout authenticate redirects) := by
  obtain ⟨rfl, hpos, rfl⟩ := timeoutForCall_ok h
  exact ⟨Binary64.lt_of_sub_pos hW.deadline_finite hfinite hpos,
    Binary64.min_le_right cfg.requestTimeout_notNaN (Binary64.isNaN_sub hW.deadline_finite hfinite)⟩

theorem attempted_fetch (url : Str) (authenticate redirects : Bool) :
    Moves (Attempted W deadline r) (fetch W cfg deadline url authenticate redirects) := by
  intro s
  rw [fetch]
  have htimeout : Moves (Attempted W deadline r) (timeoutForCall W cfg deadline) :=
    attempted_timeoutForCall
  refine (htimeout s).returns.bind ?_
  rintro timeout t ⟨hst, hx⟩
  have hread := trans_of (Attempted W deadline r) hst
    (attempted_addRead cfg url timeout authenticate redirects (timely_of_timeoutForCall hx))
  rw [Ensures, request]
  cases readAnswer (t.read W cfg url timeout authenticate redirects) <;> exact hread

theorem attempted_getJson (url : Str) :
    Moves (Attempted W deadline r) (getJson W cfg deadline url) := by
  rw [getJson]
  exact Moves.bind (attempted_fetch url true false) fun _ => attempted_orStop _

theorem attempted_getJsonArray (url : Str) :
    Moves (Attempted W deadline r) (getJsonArray W cfg deadline url) := by
  rw [getJsonArray]
  exact Moves.bind (attempted_fetch url true false) fun _ => attempted_orStop _

theorem attempted_getWitnessJson (url : Str) :
    Moves (Attempted W deadline r) (getWitnessJson W cfg deadline url) := by
  rw [getWitnessJson]
  refine Moves.bind (attempted_fetch url false false) fun _ => ?_
  exact Moves.bind (attempted_orStop _) fun _ => Moves.pure _

theorem attempted_getBytes (url : Str) :
    Moves (Attempted W deadline r) (getBytes W cfg deadline url) := by
  rw [getBytes]
  exact Moves.bind (attempted_fetch url false true) fun _ => Moves.pure _

theorem attempted_providerInfo : Moves (Attempted W deadline r) (providerInfo W cfg deadline) := by
  rw [providerInfo]
  exact Moves.bind (attempted_getJson _) fun _ => attempted_orFail _

/-- A record of the deployment alone. -/
theorem writes_deployment (f : Evidence → Deployment) (g : Evidence → DeploymentState) :
    Writes [] fun e => { e with
      deployment := f e
      truth := { e.truth with deploymentState := g e } } := by
  refine ⟨fun _ => rfl, fun _ => rfl, ?_⟩
  intro e m h
  cases m <;> exact .inr h

theorem attempted_providerStage (expectedRevision : Str) :
    Moves (Attempted W deadline r) (providerStage W cfg deadline expectedRevision) := by
  rw [providerStage]
  refine Moves.bind (attempted_getJson _) fun _ => ?_
  refine Moves.bind (attempted_orFail _) fun _ => ?_
  refine Moves.bind (attempted_record (writes_deployment _ fun e => e.truth.deploymentState))
    fun _ => ?_
  refine Moves.ite (fun _ => ?_) fun _ => Moves.ite (fun _ => ?_) fun _ => ?_
  · exact Moves.bind (attempted_record (writes_deployment _ _)) fun _ => Moves.throw_bind _
  · exact Moves.bind (attempted_record (writes_deployment _ _)) fun _ => Moves.throw_bind _
  · exact attempted_record (writes_deployment _ _)

theorem attempted_verifyOutputSet (expected : List Str) :
    Moves (Attempted W deadline (some hfRevision))
      (verifyOutputSet W cfg deadline hfRevision expected) := by
  rw [verifyOutputSet]
  refine Moves.bind (attempted_getJsonArray _) fun _ => ?_
  refine Moves.bind (attempted_orFail _) fun _ => ?_
  refine Moves.bind (attempted_record ⟨fun _ => rfl, fun _ => rfl, ?_⟩) fun _ => ?_
  · intro e m h
    cases m <;> exact .inr h
  refine Moves.ite (fun _ => ?_) fun _ => ?_
  · refine Moves.bind (attempted_record ⟨fun _ => rfl, fun _ => rfl, ?_⟩)
      fun _ => Moves.throw_bind _
    intro e m h
    cases m <;> first | exact .inr h | nomatch h
  · refine attempted_establish ⟨fun _ => rfl, fun _ => rfl, ?_⟩
    intro e m h
    cases m <;> first | exact .inr h | exact .inl (by decide)

theorem attempted_verifyFiles (snapshot : Snapshot) :
    Moves (Attempted W deadline (some hfRevision))
      (verifyFiles W cfg deadline hfRevision snapshot) := by
  induction snapshot with
  | nil => exact Moves.pure ()
  | cons p rest ih =>
    rw [verifyFiles]
    refine Moves.bind (attempted_getBytes _) fun _ => ?_
    refine Moves.bind (attempted_record ⟨fun _ => rfl, fun _ => rfl, ?_⟩) fun _ => ?_
    · intro e m h
      cases m <;> exact .inr h
    refine Moves.ite (fun _ => ?_) fun _ => ih
    refine Moves.bind (attempted_record ⟨fun _ => rfl, fun _ => rfl, ?_⟩)
      fun _ => Moves.throw_bind _
    intro e m h
    cases m <;> first | exact .inr h | nomatch h

theorem attempted_verifyBinding :
    Moves (Attempted W deadline (some hfRevision)) (verifyBinding W cfg deadline hfRevision) := by
  rw [verifyBinding]
  refine Moves.bind (attempted_getBytes _) fun body => ?_
  refine Moves.bind (attempted_orStop _) fun binding => ?_
  cases sourceBinding sourceRepository cfg.sourceRevision with
  | none => exact Moves.throw _
  | some expected =>
    refine Moves.ite (fun _ => ?_) fun _ => ?_
    · refine Moves.bind (attempted_record ⟨fun _ => rfl, fun _ => rfl, ?_⟩)
        fun _ => Moves.throw_bind _
      intro e m h
      cases m <;> first | exact .inr h | nomatch h
    · refine attempted_establish ⟨fun _ => rfl, fun _ => rfl, ?_⟩
      intro e m h
      cases m <;> first | exact .inr h | exact .inl (by decide)

theorem attempted_takeSnapshot : Moves (Attempted W deadline r) (takeSnapshot W cfg) := by
  rw [takeSnapshot]
  refine Moves.bind (attempted_ask _) fun checkout => ?_
  cases sourceSnapshot checkout cfg.sourceRevision with
  | error e => exact Moves.throw _
  | ok snapshot => exact Moves.pure _

theorem attempted_verifySourcePublication :
    Moves (Attempted W deadline (some hfRevision))
      (verifySourcePublication W cfg deadline hfRevision) := by
  rw [verifySourcePublication]
  refine Moves.bind attempted_takeSnapshot fun snapshot => ?_
  refine Moves.bind (attempted_record ⟨fun _ => rfl, fun _ => rfl, ?_⟩) fun _ => ?_
  · intro e m h
    cases m <;> exact .inr h
  refine Moves.bind (attempted_verifyOutputSet _) fun _ => ?_
  exact Moves.bind (attempted_verifyFiles _) fun _ => attempted_verifyBinding

theorem attempted_verifyRuntimeWitness :
    Moves (Attempted W deadline (some hfRevision))
      (verifyRuntimeWitness W cfg deadline hfRevision) := by
  rw [verifyRuntimeWitness]
  refine Moves.bind (attempted_ask _) fun _ => ?_
  refine Moves.bind (attempted_getWitnessJson _) fun _ => ?_
  refine Moves.bind (attempted_orFail _) fun _ => ?_
  refine Moves.bind (attempted_orFail _) fun _ => ?_
  refine Moves.bind (attempted_getWitnessJson _) fun _ => ?_
  refine Moves.bind (attempted_orFail _) fun _ => ?_
  refine Moves.bind (attempted_ask _) fun _ => ?_
  refine Moves.bind (attempted_orFail _) fun _ => ?_
  refine Moves.bind (attempted_orFail _) fun _ => ?_
  refine attempted_establish ⟨fun _ => rfl, fun _ => rfl, ?_⟩
  intro e m h
  cases m <;> first | exact .inr h | exact .inl (by decide)

theorem attempted_confirmRevision :
    Moves (Attempted W deadline r) (confirmRevision W cfg deadline hfRevision) := by
  rw [confirmRevision]
  refine Moves.bind attempted_providerInfo fun _ => Moves.ite (fun _ => ?_) fun _ => ?_
  · refine Moves.bind (attempted_record ⟨fun _ => rfl, fun _ => rfl, ?_⟩)
      fun _ => Moves.throw_bind _
    intro e m h
    cases m <;> first | exact .inr h | nomatch h
  · exact attempted_providerStage hfRevision

theorem attempted_verifyAt :
    Moves (Attempted W deadline (some hfRevision)) (verifyAt W cfg deadline hfRevision) := by
  rw [verifyAt]
  refine Moves.bind (attempted_providerStage _) fun _ => ?_
  refine Moves.bind attempted_verifySourcePublication fun _ => ?_
  exact Moves.bind attempted_verifyRuntimeWitness fun _ => attempted_confirmRevision

end attempted

/-- What the first read of an attempt does, at either exit. -/
theorem observeRevision_spec (s : State) :
    Ensures (observeRevision W cfg deadline) s
      (fun hfRevision t => ∃ u, (∀ r, Attempted W deadline r s u) ∧
        t = { u with evidence := u.evidence.observe hfRevision })
      (fun _ t => ∀ r, Attempted W deadline r s t) := by
  rw [observeRevision]
  have hinfo : Ensures (providerInfo W cfg deadline) s (fun _ t => ∀ r, Attempted W deadline r s t)
      (fun _ t => ∀ r, Attempted W deadline r s t) := by
    rw [Ensures]
    cases hx : providerInfo W cfg deadline s with
    | ok hfRevision t => exact fun r => attempted_providerInfo.of_ok hx
    | error e t => exact fun r => attempted_providerInfo.of_error hx
  exact hinfo.bind fun hfRevision u hu => ⟨u, hu, rfl⟩

/-- What an attempt does, at either exit: it observes a revision, and whatever it establishes
from there is of that revision. Only a return accepts. -/
theorem verifyOnce_spec (s : State) :
    Ensures (verifyOnce W cfg deadline) s
      (fun _ t => ∃ hfRevision u v, observeRevision W cfg deadline s = .ok hfRevision u ∧
        Attempted W deadline (some hfRevision) u v ∧
        t = { v with evidence := v.evidence.accept })
      (fun _ t => (∀ r, Attempted W deadline r s t) ∨
        ∃ hfRevision u, observeRevision W cfg deadline s = .ok hfRevision u ∧
          Attempted W deadline (some hfRevision) u t) := by
  rw [verifyOnce]
  have hobserve : Ensures (observeRevision W cfg deadline) s _ _ := (observeRevision_spec s).returns
  refine Ensures.bind (hobserve.mono (fun _ _ h => h) fun _ _ h => .inl h) ?_
  rintro hfRevision u ⟨_, hu⟩
  have hat : Moves (Attempted W deadline (some hfRevision)) (verifyAt W cfg deadline hfRevision) :=
    attempted_verifyAt
  refine Ensures.bind ((hat u).mono (fun _ _ h => h) fun _ _ h => .inr ⟨hfRevision, u, hu, h⟩) ?_
  intro _ v hv
  exact ⟨hfRevision, u, v, hu, hv, rfl⟩

end Drift

end SzlRouter
