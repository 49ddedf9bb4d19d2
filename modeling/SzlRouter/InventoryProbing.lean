/-
Every interleaving of the requests for local evidence.

What a turn does is read off once (`RequestTurn.moved`).  The invariant says what the lock
counts, what the key of a probe digests, where the kept observation came from and
where every answer that repeats it came from; a step keeps it (`Kept.step`).

* `Kept.run` — it holds after every run from a start;
* `local_inventory` — at most one probe, no stale or foreign observation, nothing
  reported without one, and a lock that is held exactly while a probe runs.
-/
import SzlRouter.InventoryConfig

namespace SzlRouter

namespace Gateway

open Py Transition

/-! ### What a turn does -/

def Request.isProbing : Request → Bool
  | .probing _ => true
  | _ => false

/-- Neither a provider is reported reachable nor a digest observed. What was not probed is not
passed off as an observation. -/
def NothingReported (body : LocalModels) : Prop :=
  body.observed = false ∧ ∀ row ∈ body.providers, row.inventoryState ≠ .reachable ∧
    ∀ m ∈ row.models, m.observedDigest = none ∧ m.residentDigest = none

/-- The answer repeats the kept observation, which is recent, under its key. -/
structure Recalls (c : Cached) (a : Answer) : Prop where
  observation : a.observation = .cachedRecent
  body : a.body = c.body
  observedAt : a.observedAt = some c.observedAt.text
  key : configKey a.settings = .ok c.key
  finite : a.time.isFinite = true
  recent : a.time.sub c.completed < LOCAL_MODEL_CACHE_SECONDS

/-- The answer is the observation that is kept. -/
structure Publishes (c : Cached) (b : Answer) : Prop where
  observation : b.observation = .liveProbe
  body : b.body = c.body
  observedAt : b.observedAt = some c.observedAt.text
  key : configKey b.settings = .ok c.key
  time : b.time = c.completed

/-- What a turn that ends at a time does to its request and to what is shared. -/
inductive Moved (s : Shared) (t : Binary64) : Request → Shared → Request → Prop
  | fails (e : Str) : Moved s t .arrived { s with clock := t } (.failed e)
  | reports {a : Answer} : a.observation = .noProbe ∨ a.observation = .busy →
      NothingReported a.body → Moved s t .arrived { s with clock := t } (.answered a)
  | recalls {c : Cached} {a : Answer} : s.cache = some c → s.clock.units ≤ a.time.units →
      Recalls c a → Moved s t .arrived { s with clock := t } (.answered a)
  | starts {probe : Probe} : s.locked = false → configKey probe.settings = .ok probe.key →
      Moved s t .arrived { s with clock := t, locked := true } (.probing probe)
  | waits (probe : Probe) (tags : Inventory) :
      Moved s t (.probing probe) { s with clock := t } (.probing { probe with tags := some tags })
  | breaks (probe : Probe) (e : Str) :
      Moved s t (.probing probe) { s with locked := false, clock := t } (.failed e)
  | publishes {probe : Probe} {c : Cached} {b : Answer} : c.key = probe.key → c.completed = t →
      b.settings = probe.settings → (configKey probe.settings = .ok probe.key → Publishes c b) →
      Moved s t (.probing probe) { s with locked := false, clock := t, cache := some c }
        (.answered b)

theorem modelRow_unobserved {p : ProviderRecord} {state : InventoryState} (h : state ≠ .reachable)
    {tags running : List (Str × Str)} {model : Str × Str} {row : ModelRow}
    (hrow : modelRow p state tags running model = .ok row) :
    row.observedDigest = none ∧ row.residentDigest = none := by
  rw [modelRow] at hrow
  cases hexpected : Dict.get p.modelDigests model.1 with
  | none =>
    rw [hexpected] at hrow
    cases hrow
  | some expected =>
    rw [hexpected] at hrow
    obtain rfl := Except.ok.inj hrow
    exact ⟨if_neg h, if_neg h⟩

theorem localModelsBody_unobserved {settings : Settings} {state : InventoryState}
    (h : state ≠ .reachable) {tags running : List (Str × Str)} {body : LocalModels}
    (hbody : localModelsBody settings state tags running = .ok body) : NothingReported body := by
  obtain ⟨hobserved, hrows⟩ := localModelsBody_eq_ok hbody
  refine ⟨hobserved.trans (decide_eq_false h), fun row hrow => ?_⟩
  obtain ⟨p, _, hp⟩ := Procedure.mem_of_mapM_eq_ok hrows hrow
  obtain ⟨models, hmodels, rfl⟩ := providerRow_eq_ok hp
  -- a disabled provider has a state of its own
  have hstate : (if p.enabled then state else .providerDisabled) ≠ InventoryState.reachable := by
    split_ifs
    · exact h
    · decide
  refine ⟨hstate, fun m hm => ?_⟩
  obtain ⟨model, _, hmodel⟩ := Procedure.mem_of_mapM_eq_ok hmodels hm
  exact modelRow_unobserved hstate hmodel

theorem localModelsResult_cases (body : LocalModels) (observation : Observation)
    (observedAt : Option Str) (ageMs : Option Binary64) (settings : Settings) (time : Binary64) :
    (∃ e, localModelsResult body observation observedAt ageMs settings time = .failed e) ∨
      ∃ digest, localModelsResult body observation observedAt ageMs settings time =
        .answered ⟨body, observation, observedAt, ageMs, digest, settings, time⟩ := by
  rw [localModelsResult]
  cases sha256 (resultBody body observation observedAt ageMs) with
  | error e => exact .inl ⟨e, rfl⟩
  | ok digest => exact .inr ⟨digest, rfl⟩

section turns

variable {s : Shared} {t now : Binary64}

theorem moved_unprobed (settings : Settings) {state : InventoryState} (hstate : state ≠ .reachable)
    {observation : Observation} (hobs : observation = .noProbe ∨ observation = .busy) :
    Moved s t .arrived { s with clock := t } (unprobed settings state observation now) := by
  rw [unprobed]
  cases hbody : localModelsBody settings state [] [] with
  | error e => exact .fails e
  | ok body =>
    dsimp only
    rcases localModelsResult_cases body observation none none settings now with
      ⟨e, he⟩ | ⟨digest, ha⟩
    · rw [he]
      exact .fails e
    · rw [ha]
      exact .reports hobs (localModelsBody_unobserved hstate hbody)

theorem moved_recent {settings : Settings} {key : Str} (hkey : configKey settings = .ok key)
    (hnow : After s.clock now) {c : Cached} (hc : recent s.cache key now = some c) :
    Moved s t .arrived { s with clock := t } (cachedAnswer c settings now) := by
  rw [recent, Option.filter_eq_some_iff, decide_eq_true_eq] at hc
  obtain ⟨hcache, hckey, hrecent⟩ := hc
  rw [cachedAnswer]
  rcases localModelsResult_cases c.body .cachedRecent (some c.observedAt.text)
    (some (((now.sub c.completed).mul (Binary64.ofInt 1000)).roundTo 3)) settings now with
    ⟨e, he⟩ | ⟨digest, ha⟩
  · rw [he]
    exact .fails e
  · rw [ha]
    exact .recalls hcache hnow.2 ⟨rfl, rfl, rfl, hckey ▸ hkey, hnow.1, hrecent⟩

/-- What the first turn of a request does. -/
theorem begin_moved (hnow : After s.clock now) (hlater : After now t) :
    Moved s t .arrived (s.begin now t).1 (s.begin now t).2 := by
  rw [Shared.begin]
  dsimp only
  -- three configurations for which no daemon is asked
  by_cases hnone : (loopbackProviders s.settings).isEmpty = true
  · rw [if_pos hnone]
    exact moved_unprobed s.settings (by decide) (.inl rfl)
  rw [if_neg hnone]
  by_cases hegress : s.settings.egressEnabled = false
  · rw [if_pos hegress]
    exact moved_unprobed s.settings (by decide) (.inl rfl)
  rw [if_neg hegress]
  by_cases hdisabled : (loopbackProviders s.settings).any (·.enabled) = false
  · rw [if_pos hdisabled]
    exact moved_unprobed s.settings (by decide) (.inl rfl)
  rw [if_neg hdisabled]
  cases hkey : configKey s.settings with
  | error e => exact .fails e
  | ok key =>
    dsimp only
    -- the cache is asked before the lock, and once more when the lock is held
    cases hfirst : recent s.cache key now with
    | some c => exact moved_recent hkey hnow hfirst
    | none =>
      dsimp only
      by_cases hlocked : s.locked = true
      · rw [if_pos hlocked]
        exact moved_unprobed s.settings (by decide) (.inr rfl)
      rw [if_neg hlocked]
      cases hsecond : recent s.cache key t with
      | some c => exact moved_recent hkey ⟨hlater.1, hnow.2.trans hlater.2⟩ hsecond
      | none => exact .starts (by simpa using hlocked) hkey

/-- What the end of a probe does. -/
theorem finish_moved (probe : Probe) {state : InventoryState} {tags running : List (Str × Str)}
    (htags : HexDigests tags) (hrunning : HexDigests running) (stamp : Stamp) :
    Moved s t (.probing probe)
      (s.finish probe (localModelsBody probe.settings state tags running) t stamp).1
      (s.finish probe (localModelsBody probe.settings state tags running) t stamp).2 := by
  rw [Shared.finish.eq_def]
  cases hbody : localModelsBody probe.settings state tags running with
  | error e => exact .breaks probe e
  | ok body =>
    obtain ⟨digest, ha⟩ := localModelsResult_answered htags hrunning hbody .liveProbe stamp
      (show (0 : Binary64).isFinite = true by decide +kernel) probe.settings t
    dsimp only
    rw [ha]
    exact .publishes rfl rfl rfl fun hkey => ⟨rfl, rfl, rfl, hkey, rfl⟩

/-- What a turn after the daemon's inventory does. -/
theorem resume_moved (probe : Probe) (reply : InventoryReply) (stamp : Stamp) :
    Moved s t (.probing probe) (s.resume probe reply t stamp).1
      (s.resume probe reply t stamp).2 := by
  have hnil : HexDigests [] := List.forall_mem_nil _
  rw [Shared.resume.eq_def]
  cases reply with
  | inventory inventory =>
    cases probe.tags with
    | none => exact .waits probe inventory
    | some tags => exact finish_moved probe tags.digests inventory.digests stamp
  | unavailable => cases probe.tags <;> exact finish_moved probe hnil hnil stamp
  | raised e => cases probe.tags <;> exact .breaks probe e

/-- **What a turn does**, at some time after the last one: it ends in an exception, reports
without a probe, recalls the cached answer, or starts, continues or ends a probe under the lock.
-/
theorem RequestTurn.moved {r r' : Request} {s' : Shared} {e : Event} (h : RequestTurn s r e s' r') :
    ∃ t, After s.clock t ∧ Moved s t r s' r' := by
  cases h with
  | begins hnow hlater =>
    exact ⟨_, ⟨hlater.1, hnow.2.trans hlater.2⟩, begin_moved hnow hlater⟩
  | resumes hcompleted => exact ⟨_, hcompleted, resume_moved _ _ _⟩

end turns

/-! ### What every run keeps -/

/-- The answer repeats a live one of the same key, from less than the window before. -/
structure Repeats (a b : Answer) : Prop where
  live : b.observation = .liveProbe
  body : b.body = a.body
  observedAt : b.observedAt = a.observedAt
  earlier : b.time.units ≤ a.time.units
  recent : a.time.units - b.time.units < LOCAL_MODEL_CACHE_SECONDS.units
  key : ∃ key, configKey b.settings = .ok key ∧ configKey a.settings = .ok key

/-- What every run keeps: one holder of the lock, a cache that repeats a live answer, and answers
that fit what was probed. -/
structure Kept (y : Threads Shared Request) : Prop where
  clock : y.shared.clock.isFinite = true
  lock : y.locals.countP Request.isProbing = if y.shared.locked then 1 else 0
  probes : ∀ probe, .probing probe ∈ y.locals → configKey probe.settings = .ok probe.key
  cache : ∀ c ∈ y.shared.cache, c.completed.isFinite = true ∧
    c.completed.units ≤ y.shared.clock.units ∧ ∃ b, .answered b ∈ y.locals ∧ Publishes c b
  repeats : ∀ a, .answered a ∈ y.locals → a.observation = .cachedRecent →
    ∃ b, .answered b ∈ y.locals ∧ Repeats a b
  reports : ∀ a, .answered a ∈ y.locals → a.observation = .noProbe ∨ a.observation = .busy →
    NothingReported a.body

theorem units_window : LOCAL_MODEL_CACHE_SECONDS.units = 2 ^ (1 + Binary64.fracBits) := by
  decide +kernel

/-- A recalled observation repeats the answer it was published with. -/
theorem Recalls.repeats {c : Cached} {a b : Answer} (h : Recalls c a) (hb : Publishes c b)
    (hc : c.completed.isFinite = true) (hle : c.completed.units ≤ a.time.units) : Repeats a b := by
  refine ⟨hb.observation, hb.body.trans h.body.symm, hb.observedAt.trans h.observedAt.symm,
    hb.time ▸ hle, ?_, c.key, hb.key, h.key⟩
  have hunits := (Binary64.lt_def.mp h.recent).2.2
  rw [units_window] at hunits ⊢
  rw [hb.time]
  exact Binary64.lt_two_pow_of_sub_lt h.finite hc (by omega) hunits

section step

variable {s s' : Shared} {before after : List Request} {r r' : Request} {t : Binary64}

/-- An answer is not taken back. -/
theorem Moved.answered (h : Moved s t r s' r') {a : Answer}
    (ha : .answered a ∈ before ++ r :: after) : .answered a ∈ before ++ r' :: after := by
  have hne : Request.answered a ≠ r := by cases h <;> simp
  rcases List.mem_append.mp ha with hb | ha
  · exact List.mem_append_left _ hb
  · rcases List.mem_cons.mp ha with heq | ha
    · exact absurd heq hne
    · exact List.mem_append_right _ (List.mem_cons_of_mem _ ha)

/-- A request after the turn is the one that took it, or was there before. -/
theorem mem_turned {q : Request} (h : q ∈ before ++ r' :: after) :
    q = r' ∨ q ∈ before ++ r :: after := by
  rcases List.mem_append.mp h with hb | ha
  · exact .inr (List.mem_append_left _ hb)
  · rcases List.mem_cons.mp ha with rfl | ha
    · exact .inl rfl
    · exact .inr (List.mem_append_right _ (List.mem_cons_of_mem _ ha))

theorem countP_turned (p : Request → Bool) : (before ++ r :: after).countP p =
    before.countP p + after.countP p + if p r then 1 else 0 := by
  rw [List.countP_append, List.countP_cons]
  omega

/-- The lock counts the probes. -/
theorem Moved.lock (h : Moved s t r s' r')
    (hlock : (before ++ r :: after).countP Request.isProbing = if s.locked then 1 else 0) :
    (before ++ r' :: after).countP Request.isProbing = if s'.locked then 1 else 0 := by
  rw [countP_turned] at hlock ⊢
  have halone (hr : r.isProbing = true) :
      before.countP Request.isProbing + after.countP Request.isProbing = 0 := by
    rw [if_pos hr] at hlock
    split_ifs at hlock
    omega
  cases h with
  | fails e => simpa [Request.isProbing] using hlock
  | reports _ _ => simpa [Request.isProbing] using hlock
  | recalls _ _ _ => simpa [Request.isProbing] using hlock
  | starts hfree _ =>
    rw [hfree] at hlock
    simp only [Request.isProbing] at hlock ⊢
    simpa using hlock
  | waits probe tags => simpa [Request.isProbing] using hlock
  -- the one that ends is the one that holds the lock, so nobody else is probing
  | breaks probe e => simpa [Request.isProbing] using halone rfl
  | publishes _ _ _ _ => simpa [Request.isProbing] using halone rfl

/-- A turn keeps what every run keeps. -/
theorem Kept.turn (h : Kept ⟨s, before ++ r :: after⟩) (ht : After s.clock t)
    (hm : Moved s t r s' r') : Kept ⟨s', before ++ r' :: after⟩ := by
  have hclock : s'.clock = t := by cases hm <;> rfl
  have hkeep : ∀ b, .answered b ∈ before ++ r :: after → .answered b ∈ before ++ r' :: after :=
    fun _ => hm.answered
  have hself : r' ∈ before ++ r' :: after := List.mem_append_right _ List.mem_cons_self
  have hprobe : ∀ probe, r = .probing probe → configKey probe.settings = .ok probe.key := by
    rintro probe rfl
    exact h.probes probe (List.mem_append_right _ List.mem_cons_self)
  constructor
  · exact hclock ▸ ht.1
  · exact hm.lock h.lock
  · intro probe hmem
    rcases mem_turned hmem with heq | hmem
    · cases hm with
      | starts _ hkey =>
        obtain rfl := Request.probing.inj heq
        exact hkey
      | waits old tags =>
        obtain rfl := Request.probing.inj heq
        exact hprobe old rfl
      | fails _ | reports _ _ | recalls _ _ _ | breaks _ _ | publishes _ _ _ _ => exact nomatch heq
    · exact h.probes probe hmem
  · -- the kept observation is the old one, or the one this turn published
    have hold : ∀ c ∈ s.cache, c.completed.isFinite = true ∧ c.completed.units ≤ t.units ∧
        ∃ b, .answered b ∈ before ++ r' :: after ∧ Publishes c b := by
      intro c hc
      obtain ⟨hfinite, hle, b, hb, hpublishes⟩ := h.cache c hc
      exact ⟨hfinite, hle.trans ht.2, b, hkeep b hb, hpublishes⟩
    intro c hc
    dsimp only at hc ⊢
    rw [hclock]
    cases hm with
    | publishes hkey htime _ hpublishes =>
      obtain rfl := Option.some.inj hc
      refine ⟨htime ▸ ht.1, htime ▸ le_rfl, _, hself, hpublishes (hprobe _ rfl)⟩
    | fails _ | reports _ _ | recalls _ _ _ | starts _ _ | waits _ _ | breaks _ _ => exact hold c hc
  · intro a hmem hrecent
    rcases mem_turned hmem with heq | hmem
    · cases hm with
      | recalls hcache htime hrecalls =>
        obtain rfl := Request.answered.inj heq
        obtain ⟨hfinite, hle, b, hb, hpublishes⟩ := h.cache _ hcache
        exact ⟨b, hkeep b hb,
          hrecalls.repeats hpublishes hfinite (hle.trans htime)⟩
      | reports hobs _ =>
        obtain rfl := Request.answered.inj heq
        rcases hobs with hobs | hobs <;> exact nomatch hobs.symm.trans hrecent
      | publishes _ _ _ hpublishes =>
        obtain rfl := Request.answered.inj heq
        exact nomatch (hpublishes (hprobe _ rfl)).observation.symm.trans hrecent
      | fails _ | starts _ _ | waits _ _ | breaks _ _ => exact nomatch heq
    · obtain ⟨b, hb, hrepeats⟩ := h.repeats a hmem hrecent
      exact ⟨b, hkeep b hb, hrepeats⟩
  · intro a hmem hobs
    rcases mem_turned hmem with heq | hmem
    · cases hm with
      | reports _ hnothing =>
        obtain rfl := Request.answered.inj heq
        exact hnothing
      | recalls _ _ hrecalls =>
        obtain rfl := Request.answered.inj heq
        rcases hobs with hobs | hobs <;> exact nomatch hobs.symm.trans hrecalls.observation
      | publishes _ _ _ hpublishes =>
        obtain rfl := Request.answered.inj heq
        rcases hobs with hobs | hobs <;>
          exact nomatch hobs.symm.trans (hpublishes (hprobe _ rfl)).observation
      | fails _ | starts _ _ | waits _ _ | breaks _ _ => exact nomatch heq
    · exact h.reports a hmem hobs

end step

/-- A request that has not begun changes nothing. -/
theorem Kept.spawn {s : Shared} {rs : List Request} (h : Kept ⟨s, rs⟩) :
    Kept ⟨s, rs ++ [.arrived]⟩ := by
  have hmem : ∀ q : Request, q ≠ .arrived → (q ∈ rs ++ [.arrived] ↔ q ∈ rs) := by
    intro q hq
    simp [hq]
  constructor
  · exact h.clock
  · rw [List.countP_append]
    exact h.lock
  · intro probe hp
    exact h.probes probe ((hmem _ (by simp)).mp hp)
  · intro c hc
    obtain ⟨hfinite, hle, b, hb, hpublishes⟩ := h.cache c hc
    exact ⟨hfinite, hle, b, List.mem_append_left _ hb, hpublishes⟩
  · intro a ha hrecent
    obtain ⟨b, hb, hrepeats⟩ := h.repeats a ((hmem _ (by simp)).mp ha) hrecent
    exact ⟨b, List.mem_append_left _ hb, hrepeats⟩
  · intro a ha
    exact h.reports a ((hmem _ (by simp)).mp ha)

/-- One step keeps it: the turn of a request, or the arrival of a new one, which holds nothing.
-/
theorem Kept.step {x y : Threads Shared Request} {l : Option Event} (hx : Kept x)
    (h : Probing x l y) : Kept y := by
  cases h with
  | spawn hstart =>
    obtain rfl := hstart
    exact hx.spawn
  | env hs =>
    obtain ⟨settings, rfl⟩ := hs
    exact ⟨hx.clock, hx.lock, hx.probes, hx.cache, hx.repeats, hx.reports⟩
  | turn hturn =>
    obtain ⟨t, ht, hm⟩ := hturn.moved
    exact hx.turn ht hm

/-- **What every run from a start keeps.** At the start the lock is free and the cache is empty,
and the clock reads a finite time. -/
theorem Kept.run {settings : Settings} {clock : Binary64} (hclock : clock.isFinite = true)
    {ls : List (Option Event)} {y : Threads Shared Request}
    (h : Exec Probing ⟨⟨settings, false, none, clock⟩, []⟩ ls y) : Kept y := by
  refine @Exec.invariant _ _ _ Kept (fun _ => True) ?_ _ _ _ h (fun _ _ => trivial) ?_
  · exact fun _ _ _ _ hstep hx => hx.step hstep
  · exact ⟨hclock, rfl, fun _ hp => absurd hp List.not_mem_nil, fun _ hc => (nomatch hc),
      fun _ ha => absurd ha List.not_mem_nil, fun _ ha => absurd ha List.not_mem_nil⟩

/-- **Local inventory probing.**  In every run there is at most one probe, the lock is
held exactly while there is one, a repeated answer has the body of a live one that
completed less than the window before under the same configuration, and what was not
probed reports nothing. -/
theorem local_inventory {settings : Settings} {clock : Binary64} (hclock : clock.isFinite = true)
    {ls : List (Option Event)} {y : Threads Shared Request}
    (h : Exec Probing ⟨⟨settings, false, none, clock⟩, []⟩ ls y)
    (hcollide : ∀ a b, .answered a ∈ y.locals → .answered b ∈ y.locals →
      ¬Collide b.settings a.settings) :
    y.locals.countP Request.isProbing ≤ 1 ∧
      (y.shared.locked = true ↔ ∃ probe, .probing probe ∈ y.locals) ∧
      (∀ a, .answered a ∈ y.locals → a.observation = .cachedRecent →
        ∃ b, .answered b ∈ y.locals ∧ b.observation = .liveProbe ∧ b.body = a.body ∧
          b.time.units ≤ a.time.units ∧
          a.time.units - b.time.units < LOCAL_MODEL_CACHE_SECONDS.units ∧
          SameConfiguration b.settings a.settings) ∧
      ∀ a, .answered a ∈ y.locals → a.observation = .noProbe ∨ a.observation = .busy →
        NothingReported a.body := by
  -- the invariant of the run: one holder of the lock, and recalled answers that repeat a live one
  have hkept := Kept.run hclock h
  refine ⟨?_, ?_, ?_, hkept.reports⟩
  · rw [hkept.lock]
    split_ifs <;> omega
  · have hpos : y.shared.locked = true ↔ 0 < y.locals.countP Request.isProbing := by
      rw [hkept.lock]
      split_ifs with hlocked <;> simp [hlocked]
    rw [hpos, List.countP_pos_iff]
    constructor
    · rintro ⟨r, hr, hprobing⟩
      cases r with
      | probing probe => exact ⟨probe, hr⟩
      | arrived | answered _ | failed _ => exact nomatch hprobing
    · rintro ⟨probe, hmem⟩
      exact ⟨_, hmem, rfl⟩
  · intro a ha hrecent
    obtain ⟨b, hb, hrepeats⟩ := hkept.repeats a ha hrecent
    obtain ⟨key, hbkey, hakey⟩ := hrepeats.key
    exact ⟨b, hb, hrepeats.live, hrepeats.body, hrepeats.earlier, hrepeats.recent,
      sameConfiguration_of_key hbkey hakey (hcollide a b ha hb)⟩

/-! ### A probe, and an answer that repeats it -/

/-- One local provider with one pinned model. -/
def pinnedProvider : ProviderRecord where
  id := lit "local"
  providerType := .ollamaLoopback
  baseUrl := none
  models := [(lit "m", lit "m:1b")]
  modelDigests := [(lit "m", List.replicate 64 (chr 'a'))]
  modelWeightDigests := []
  tokenEnv := none
  priority := 0
  sovereignty := 0
  costTier := 0
  classifications := [lit "public"]
  enabled := true

def pinnedSettings : Settings where
  registry := {
    providers := [pinnedProvider]
    bounded := by decide
    unique := List.nodup_singleton _
    valid := by
      rw [List.forall_mem_singleton]
      exact {
        id := by decide
        models := List.cons_ne_nil _ _
        aliases := by rw [pinnedProvider, List.forall_mem_singleton]; decide
        upstream := by
          rw [pinnedProvider, List.forall_mem_singleton]
          exact ⟨by decide, ascii_of_all (by decide)⟩
        digests := by rw [pinnedProvider, List.forall_mem_singleton]; decide
        priority := by decide
        sovereignty := by decide
        costTier := by decide
        classifications := List.cons_ne_nil _ _
        known := by rw [pinnedProvider, List.forall_mem_singleton]; decide
        loopback := fun _ => ⟨rfl, rfl⟩
        https := fun h => nomatch h } }
  allowedHosts := []
  egressEnabled := true
  configState := .validated
  configError := none

def noModels : Inventory := ⟨[], List.forall_mem_nil _, List.forall_mem_nil _⟩

theorem not_collide_self (s : Settings) : ¬Collide s s := by
  rintro ⟨x, y, hx, hy, hne, _⟩
  exact hne (Except.ok.inj (hx.symm.trans hy))

theorem pinned_key : ∃ key, configKey pinnedSettings = .ok key := by
  rw [configKey, sha256]
  cases h : canonical (.obj (configBody pinnedSettings)) with
  | ok b => exact ⟨_, rfl⟩
  | error e =>
    have hok : (canonical (.obj (configBody pinnedSettings))).isOk = true := by decide +kernel
    rw [h] at hok
    cases hok

def pinnedStamp : Stamp := ⟨lit "2026-01-01T00:00:00+00:00", ascii_of_all (by decide)⟩

/-- A request probes, and a second after it has ended another one repeats its answer. -/
theorem pinned_run : ∃ (y : Threads Shared Request) (a b : Answer),
    Exec Probing ⟨⟨pinnedSettings, false, none, 0⟩, []⟩
      [none, some .begins, some .resumes, some .resumes, none, some .begins] y ∧
    y.locals = [.answered b, .answered a] ∧ a.observation = .cachedRecent ∧
    a.settings = pinnedSettings ∧ b.settings = pinnedSettings := by
  obtain ⟨key, hkey⟩ := pinned_key
  have hnil : HexDigests [] := List.forall_mem_nil _
  obtain ⟨body, hbody⟩ : ∃ body, localModelsBody pinnedSettings .reachable [] [] = .ok body :=
    ⟨_, rfl⟩
  obtain ⟨d, hlive⟩ := localModelsResult_answered hnil hnil hbody .liveProbe pinnedStamp
    (show (0 : Binary64).isFinite = true by decide +kernel) pinnedSettings 1
  obtain ⟨age, hage⟩ : ∃ age, (((2 : Binary64).sub 1).mul (Binary64.ofInt 1000)).roundTo 3 = age :=
    ⟨_, rfl⟩
  obtain ⟨d', hrecent⟩ := localModelsResult_answered hnil hnil hbody .cachedRecent pinnedStamp
    (show age.isFinite = true by rw [← hage]; decide +kernel) pinnedSettings 2
  have hnone : ¬(loopbackProviders pinnedSettings).isEmpty = true := by decide
  have hegress : ¬pinnedSettings.egressEnabled = false := by decide
  have henabled : ¬(loopbackProviders pinnedSettings).any (·.enabled) = false := by decide
  -- the first request starts to probe
  have hbegins : RequestTurn ⟨pinnedSettings, false, none, 0⟩ .arrived .begins
      ⟨pinnedSettings, true, none, 0⟩ (.probing ⟨pinnedSettings, key, none⟩) := by
    have hturn : RequestTurn ⟨pinnedSettings, false, none, 0⟩ .arrived .begins _ _ :=
      @RequestTurn.begins _ 0 0 ⟨by decide +kernel, le_rfl⟩ ⟨by decide +kernel, le_rfl⟩
    rw [Shared.begin] at hturn
    dsimp only at hturn
    rw [if_neg hnone, if_neg hegress, if_neg henabled, hkey] at hturn
    exact hturn
  -- the daemon answers for the tags, and then for what is running
  have htags : RequestTurn ⟨pinnedSettings, true, none, 0⟩ (.probing ⟨pinnedSettings, key, none⟩)
      .resumes ⟨pinnedSettings, true, none, 1⟩
      (.probing ⟨pinnedSettings, key, some noModels⟩) :=
    @RequestTurn.resumes _ ⟨pinnedSettings, key, none⟩ (.inventory noModels) 1 pinnedStamp
      ⟨by decide +kernel, by decide +kernel⟩
  have hrunning : RequestTurn ⟨pinnedSettings, true, none, 1⟩
      (.probing ⟨pinnedSettings, key, some noModels⟩) .resumes
      ⟨pinnedSettings, false, some ⟨key, 1, pinnedStamp, body⟩, 1⟩
      (.answered ⟨body, .liveProbe, some pinnedStamp.text, some 0, d, pinnedSettings, 1⟩) := by
    have hturn : RequestTurn ⟨pinnedSettings, true, none, 1⟩
        (.probing ⟨pinnedSettings, key, some noModels⟩) .resumes _ _ :=
      @RequestTurn.resumes _ _ (.inventory noModels) 1 pinnedStamp ⟨by decide +kernel, le_rfl⟩
    rw [Shared.resume.eq_def] at hturn
    dsimp only [noModels] at hturn
    rw [hbody, Shared.finish.eq_def] at hturn
    dsimp only at hturn
    rw [hlive] at hturn
    exact hturn
  -- the second request finds the observation
  have hsecond :
      RequestTurn ⟨pinnedSettings, false, some ⟨key, 1, pinnedStamp, body⟩, 1⟩ .arrived .begins
      ⟨pinnedSettings, false, some ⟨key, 1, pinnedStamp, body⟩, 2⟩
      (.answered
        ⟨body, .cachedRecent, some pinnedStamp.text, some age, d', pinnedSettings, 2⟩) := by
    have hturn : RequestTurn ⟨pinnedSettings, false, some ⟨key, 1, pinnedStamp, body⟩, 1⟩ .arrived
        .begins _ _ :=
      @RequestTurn.begins _ 2 2 ⟨by decide +kernel,
        show (1 : Binary64).units ≤ (2 : Binary64).units by decide +kernel⟩
        ⟨by decide +kernel, le_rfl⟩
    have hwithin : recent (some ⟨key, 1, pinnedStamp, body⟩) key 2 =
        some ⟨key, 1, pinnedStamp, body⟩ := by
      rw [recent, Option.filter_some, if_pos]
      exact decide_eq_true ⟨rfl,
        show (2 : Binary64).sub 1 < LOCAL_MODEL_CACHE_SECONDS by decide +kernel⟩
    rw [Shared.begin] at hturn
    dsimp only at hturn
    rw [if_neg hnone, if_neg hegress, if_neg henabled, hkey] at hturn
    dsimp only at hturn
    rw [hwithin] at hturn
    dsimp only at hturn
    rw [cachedAnswer, hage, hrecent] at hturn
    exact hturn
  have hrun : Exec Probing ⟨⟨pinnedSettings, false, none, 0⟩, []⟩
      [none, some .begins, some .resumes, some .resumes, none, some .begins] ⟨_, [_, _]⟩ :=
    .cons (.first rfl) <| .cons (.alone hbegins) <| .cons (.alone htags) <|
      .cons (.alone hrunning) <| .cons (.spawn rfl) <|
      .cons (@Interleave.turn _ _ _ _ _ _ _ _ _ [_] [] _ _ hsecond) (.nil _)
  exact ⟨_, _, _, hrun, rfl, rfl, rfl, rfl⟩

theorem local_inventory_pinned : ∃ (y : Threads Shared Request) (a b : Answer),
    .answered a ∈ y.locals ∧ .answered b ∈ y.locals ∧ b.body = a.body ∧
      SameConfiguration b.settings a.settings ∧ y.shared.locked = false := by
  obtain ⟨y, a, b, hrun, hlocals, hrecent, ha, hb⟩ := pinned_run
  have hmem : Request.answered a ∈ y.locals := by
    rw [hlocals]
    simp
  obtain ⟨_, hlock, hrepeats, _⟩ := local_inventory (by decide +kernel) hrun (by
    intro a' b' ha' hb'
    have hall : ∀ c, .answered c ∈ y.locals → c.settings = pinnedSettings := by
      rw [hlocals]
      simp only [List.mem_cons, List.not_mem_nil, or_false, Request.answered.injEq]
      rintro c (rfl | rfl)
      · exact hb
      · exact ha
    rw [hall a' ha', hall b' hb']
    exact not_collide_self pinnedSettings)
  obtain ⟨b', hb', _, hbody, _, _, hsame⟩ := hrepeats a hmem hrecent
  refine ⟨y, a, b', hmem, hb', hbody, hsame, ?_⟩
  rw [Bool.eq_false_iff, ne_eq, hlock, hlocals]
  simp

end Gateway

end SzlRouter
