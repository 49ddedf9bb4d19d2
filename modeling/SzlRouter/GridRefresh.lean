/-
The background refresh of the grid context (`current_grid_context` and `_spawn_refresh` of
`szl_router/grid.py`).

Any number of calls run at once over one cache and one flag.  A call is followed together
with the refresh thread that it starts: the call sets the flag, the thread clears it.

* `Guarded` — what is to hold in every state;
* `inFlight_step` — the flag counts the refreshes that are being started or run;
* `refresh_guarded_iff` — the runs in whose states it holds.
-/
import SzlRouter.GridContext
import SzlRouter.Transition

open Py

namespace SzlRouter

namespace Grid

open Transition

/-! ### Calls and their refreshes -/

/-- `_CACHE`. -/
structure Cache where
  ts : Binary64
  block : Option Dict

/-- `_CACHE` and `_REFRESH_INFLIGHT`. -/
structure Shared where
  cache : Cache
  inflight : Bool

/-- Where a call of `current_grid_context` stands. -/
inductive Caller
  | begun
  /-- About to fetch inline (`_sync`). -/
  | fetching
  | storing (block : Dict)
  /-- About to take the refresh lock. -/
  | spawning (block : Option Dict)
  /-- The flag is set, and the thread is about to be started. -/
  | starting (block : Option Dict)
  | returned (block : Option Dict)
  | raised (e : Str)

/-- Where the refresh thread of a call stands. -/
inductive Refresh
  | unstarted
  | running
  | storing (block : Dict)
  /-- In the `finally`. -/
  | clearing
  | finished

structure Call where
  provider : Str
  region : Option Str
  maxAge : Binary64
  sync : Bool
  caller : Caller
  refresh : Refresh

/-- `_cached`: the block, and whether it is fresh. -/
def cached (cache : Cache) (maxAge now : Binary64) : Option Dict × Bool :=
  (cache.block, cache.block.isSome && decide (now.sub cache.ts < maxAge))

/-- What a call does with the cache that it has read. -/
def Call.onCached (c : Call) (read : Option Dict × Bool) : Caller :=
  if read.2 then .returned read.1
  else if c.sync then .fetching
  else .spawning read.1

/-- What an inline fetch leads to. -/
def onFetched : Except Str Dict → Caller
  | .ok block => .storing block
  | .error e => .raised e

/-- The steps that can go wrong, and the others. -/
inductive Event
  | startRaises
  | fetchesInline (provider : Str) (transport : Except Str Json)
  | goesOn

/-- One step of a call or of its refresh thread. -/
inductive Turn (repr : Json → Str) : Shared → Call → Event → Shared → Call → Prop
  | reads {s : Shared} {c : Call} (now : Binary64) : c.caller = .begun →
      Turn repr s c .goesOn s { c with caller := c.onCached (cached s.cache c.maxAge now) }
  | fetches {s : Shared} {c : Call} (now : FullText) (transport : Except Str Json) :
      c.caller = .fetching → Turn repr s c (.fetchesInline c.provider transport) s
        { c with caller := onFetched (fetchGridContext repr now c.provider c.region transport) }
  | stores {s : Shared} {c : Call} {block : Dict} (ts : Binary64) : c.caller = .storing block →
      Turn repr s c .goesOn { s with cache := ⟨ts, some block⟩ }
        { c with caller := .returned (some block) }
  | leaves {s : Shared} {c : Call} {block : Option Dict} : c.caller = .spawning block →
      s.inflight = true → Turn repr s c .goesOn s { c with caller := .returned block }
  | marks {s : Shared} {c : Call} {block : Option Dict} : c.caller = .spawning block →
      s.inflight = false →
      Turn repr s c .goesOn { s with inflight := true } { c with caller := .starting block }
  | starts {s : Shared} {c : Call} {block : Option Dict} : c.caller = .starting block →
      Turn repr s c .goesOn s { c with caller := .returned block, refresh := .running }
  | startRaises {s : Shared} {c : Call} {block : Option Dict} (e : Str) :
      c.caller = .starting block → Turn repr s c .startRaises s { c with caller := .raised e }
  | refreshes {s : Shared} {c : Call} {block : Dict} (now : FullText)
      (transport : Except Str Json) : c.refresh = .running →
      fetchGridContext repr now c.provider c.region transport = .ok block →
      Turn repr s c .goesOn s { c with refresh := .storing block }
  /-- Whatever the fetch raises is dropped. -/
  | refreshRaises {s : Shared} {c : Call} : c.refresh = .running →
      Turn repr s c .goesOn s { c with refresh := .clearing }
  | refreshStores {s : Shared} {c : Call} {block : Dict} (ts : Binary64) :
      c.refresh = .storing block →
      Turn repr s c .goesOn { s with cache := ⟨ts, some block⟩ } { c with refresh := .clearing }
  | clears {s : Shared} {c : Call} : c.refresh = .clearing →
      Turn repr s c .goesOn { s with inflight := false } { c with refresh := .finished }

/-- A call begins. -/
def Start (c : Call) : Prop := c.caller = .begun ∧ c.refresh = .unstarted

/-- Any number of calls and refreshes; nothing else touches the module. -/
abbrev System (repr : Json → Str) := Interleave Start (fun _ _ => False) (Turn repr)

/-- The module as it is loaded. -/
def loaded : Threads Shared Call := ⟨⟨⟨0, none⟩, false⟩, []⟩

/-! ### The guard -/

/-- The thread fetches, stores or is about to clear the flag. -/
def Refresh.isRunning : Refresh → Bool
  | .running | .storing _ | .clearing => true
  | .unstarted | .finished => false

/-- The call is about to start its refresh. -/
def Caller.isStarting : Caller → Bool
  | .starting _ => true
  | _ => false

/-- The refresh of the call runs or is being started. -/
def Call.active (c : Call) : Bool := c.refresh.isRunning || c.caller.isStarting

/-- One refresh at a time runs, the flag is set only while one runs or is being started, and
no call raises. -/
structure Guarded (z : Threads Shared Call) : Prop where
  one : (z.locals.countP fun c => c.refresh.isRunning) ≤ 1
  flag : z.shared.inflight = true → ∃ c ∈ z.locals, c.active = true
  total : ∀ c ∈ z.locals, ∀ e, c.caller ≠ .raised e

/-- A step that does not go wrong: no start of a thread raises, and no inline fetch meets an
answer that it raises on. -/
def Proceeds : Option Event → Prop
  | some .startRaises => False
  | some (.fetchesInline provider transport) => Answerable provider transport
  | some .goesOn => True
  | none => True

/-! ### What a turn can do -/

/-- A call whose refresh was started has returned. -/
def Call.Ordered (c : Call) : Prop := c.refresh = .unstarted ∨ ∃ b, c.caller = .returned b

theorem isStarting_onCached (c : Call) (read : Option Dict × Bool) :
    (c.onCached read).isStarting = false := by
  rw [Call.onCached]
  split_ifs <;> rfl

theorem isStarting_onFetched (result : Except Str Dict) :
    (onFetched result).isStarting = false := by
  cases result <;> rfl

theorem active_caller {c : Call} {k : Caller} (h : c.caller.isStarting = false)
    (hk : k.isStarting = false) : ({ c with caller := k } : Call).active = c.active := by
  rw [Call.active, Call.active, h, hk]

/-- How a turn moves the flag and its own call. -/
inductive Moves (s : Shared) (c : Call) (l : Event) (s' : Shared) (c' : Call) : Prop
  | keeps : s'.inflight = s.inflight → c'.active = c.active → Moves s c l s' c'
  | marks : s.inflight = false → s'.inflight = true → c.active = false → c'.active = true →
      Moves s c l s' c'
  | clears : s'.inflight = false → c.active = true → c'.active = false → Moves s c l s' c'
  | loses : l = .startRaises → s'.inflight = s.inflight → c.active = true → c'.active = false →
      Moves s c l s' c'

section turns

variable {repr : Json → Str} {s s' : Shared} {c c' : Call} {l : Event}

/-- A call that has not returned has no refresh. -/
theorem Call.Ordered.unstarted (h : c.Ordered) (hcaller : ∀ b, c.caller ≠ .returned b) :
    c.refresh = .unstarted :=
  h.resolve_right fun ⟨b, hb⟩ => hcaller b hb

/-- A call with a refresh has returned. -/
theorem Call.Ordered.returned (h : c.Ordered) (hrefresh : c.refresh ≠ .unstarted) :
    ∃ b, c.caller = .returned b :=
  h.resolve_left hrefresh

theorem turn_ordered (h : Turn repr s c l s' c') (hc : c.Ordered) : c'.Ordered := by
  cases h with
  | reads now hcaller =>
    exact .inl (hc.unstarted (by simp [hcaller]))
  | fetches now transport hcaller =>
    exact .inl (hc.unstarted (by simp [hcaller]))
  | stores ts hcaller => exact .inr ⟨_, rfl⟩
  | leaves hcaller hflag => exact .inr ⟨_, rfl⟩
  | marks hcaller hflag => exact .inl (hc.unstarted (by simp [hcaller]))
  | starts hcaller => exact .inr ⟨_, rfl⟩
  | startRaises e hcaller => exact .inl (hc.unstarted (by simp [hcaller]))
  | refreshes now transport hrefresh hfetch => exact .inr (hc.returned (by simp [hrefresh]))
  | refreshRaises hrefresh => exact .inr (hc.returned (by simp [hrefresh]))
  | refreshStores ts hrefresh => exact .inr (hc.returned (by simp [hrefresh]))
  | clears hrefresh => exact .inr (hc.returned (by simp [hrefresh]))

theorem turn_moves (h : Turn repr s c l s' c') (hc : c.Ordered) : Moves s c l s' c' := by
  cases h with
  | reads now hcaller =>
    exact .keeps rfl (active_caller (by rw [hcaller]; rfl) (isStarting_onCached c _))
  | fetches now transport hcaller =>
    exact .keeps rfl (active_caller (by rw [hcaller]; rfl) (isStarting_onFetched _))
  | stores ts hcaller => exact .keeps rfl (active_caller (by rw [hcaller]; rfl) rfl)
  | leaves hcaller hflag => exact .keeps rfl (active_caller (by rw [hcaller]; rfl) rfl)
  -- the flag is taken before the thread is started, and the call is counted from there
  | marks hcaller hflag =>
    have hrefresh := hc.unstarted (by simp [hcaller])
    exact .marks hflag rfl (by simp [Call.active, hcaller, hrefresh, Caller.isStarting,
      Refresh.isRunning]) (by simp [Call.active, Caller.isStarting])
  | starts hcaller =>
    exact .keeps rfl (by simp [Call.active, hcaller, Caller.isStarting, Refresh.isRunning])
  -- the exception leaves the flag behind with nobody running
  | startRaises e hcaller =>
    have hrefresh := hc.unstarted (by simp [hcaller])
    exact .loses rfl rfl (by simp [Call.active, hcaller, Caller.isStarting])
      (by simp [Call.active, hrefresh, Caller.isStarting, Refresh.isRunning])
  | refreshes now transport hrefresh hfetch =>
    exact .keeps rfl (by simp [Call.active, hrefresh, Refresh.isRunning])
  | refreshRaises hrefresh =>
    exact .keeps rfl (by simp [Call.active, hrefresh, Refresh.isRunning])
  | refreshStores ts hrefresh =>
    exact .keeps rfl (by simp [Call.active, hrefresh, Refresh.isRunning])
  -- the thread clears the flag, and its caller has returned before that
  | clears hrefresh =>
    obtain ⟨b, hb⟩ := hc.returned (by simp [hrefresh])
    exact .clears rfl (by simp [Call.active, hrefresh, Refresh.isRunning])
      (by simp [Call.active, hb, Caller.isStarting, Refresh.isRunning])

/-- Only what goes wrong raises. -/
theorem turn_total (h : Turn repr s c l s' c') (hl : Proceeds (some l))
    (hc : ∀ e, c.caller ≠ .raised e) : ∀ e, c'.caller ≠ .raised e := by
  cases h with
  | reads now hcaller =>
    intro e
    show c.onCached _ ≠ _
    rw [Call.onCached]
    split_ifs <;> simp
  | fetches now transport hcaller =>
    rcases fetch_cases repr now c.provider c.region transport with ⟨-, b, hb, -⟩ | ⟨hno, -⟩
    · rw [hb]
      exact fun e he => nomatch he
    · exact absurd hl hno
  | startRaises e hcaller => exact hl.elim
  | stores ts hcaller | leaves hcaller hflag | marks hcaller hflag | starts hcaller =>
    exact fun e he => nomatch he
  | refreshes now transport hrefresh hfetch => exact hc
  | refreshRaises hrefresh | refreshStores ts hrefresh | clears hrefresh => exact hc

/-- What goes wrong raises. -/
theorem turn_raises (h : Turn repr s c l s' c') (hl : ¬Proceeds (some l)) :
    ∃ e, c'.caller = .raised e := by
  cases h with
  | fetches now transport hcaller =>
    rcases fetch_cases repr now c.provider c.region transport with ⟨hanswer, -⟩ | ⟨-, e, he⟩
    · exact absurd hanswer hl
    · exact ⟨e, by rw [he]; rfl⟩
  | startRaises e hcaller => exact ⟨e, rfl⟩
  | reads _ _ | stores _ _ | leaves _ _ | marks _ _ | starts _ | refreshes _ _ _ _
  | refreshRaises _ | refreshStores _ _ | clears _ => exact absurd trivial hl

end turns

/-! ### What holds along runs -/

/-- The flag as a number. -/
def Shared.flag (s : Shared) : ℕ := if s.inflight then 1 else 0

/-- The active calls before and after a turn. -/
theorem countP_turn (before after : List Call) (c c' : Call) :
    (before ++ c' :: after).countP Call.active + (if c.active then 1 else 0) =
      (before ++ c :: after).countP Call.active + (if c'.active then 1 else 0) := by
  simp only [List.countP_append, List.countP_cons]
  omega

/-- The flag counts the active calls, as long as no start goes wrong: it is set while one is
active, and at most one is. -/
structure InFlight (z : Threads Shared Call) : Prop where
  ordered : ∀ c ∈ z.locals, c.Ordered
  count : z.locals.countP Call.active = z.shared.flag
  total : ∀ c ∈ z.locals, ∀ e, c.caller ≠ .raised e

theorem inFlight_step {repr : Json → Str} {y z : Threads Shared Call} {l : Option Event}
    (hl : Proceeds l) (h : System repr y l z) (hy : InFlight y) : InFlight z := by
  cases h with
  | @spawn s ts c hstart =>
    have hinactive : c.active = false := by
      rw [Call.active, hstart.1, hstart.2]
      rfl
    constructor
    · refine List.forall_mem_append.mpr ⟨hy.ordered, ?_⟩
      intro c' hc'
      rw [List.mem_singleton.mp hc']
      exact .inl hstart.2
    · rw [List.countP_append, hy.count]
      simp [hinactive]
    · refine List.forall_mem_append.mpr ⟨hy.total, ?_⟩
      intro c' hc' e
      rw [List.mem_singleton.mp hc', hstart.1]
      exact fun he => nomatch he
  | env hfalse => exact hfalse.elim
  | @turn s s' l before after c c' hturn =>
    obtain ⟨hbefore, hrest⟩ := List.forall_mem_append.mp hy.ordered
    obtain ⟨hc, hafter⟩ := List.forall_mem_cons.mp hrest
    obtain ⟨htotalBefore, htotalRest⟩ := List.forall_mem_append.mp hy.total
    obtain ⟨htotal, htotalAfter⟩ := List.forall_mem_cons.mp htotalRest
    have hcount : (before ++ c :: after).countP Call.active = s.flag := hy.count
    have hmove := countP_turn before after c c'
    constructor
    · exact List.forall_mem_append.mpr
        ⟨hbefore, List.forall_mem_cons.mpr ⟨turn_ordered hturn hc, hafter⟩⟩
    · show (before ++ c' :: after).countP Call.active = s'.flag
      rw [Shared.flag] at hcount ⊢
      cases turn_moves hturn hc with
      | keeps hflag hactive =>
        rw [hactive] at hmove
        rw [hflag]
        omega
      | marks hclear hset hactive hactive' =>
        rw [hclear, if_neg Bool.false_ne_true] at hcount
        rw [hactive, hactive', if_neg Bool.false_ne_true, if_pos rfl] at hmove
        rw [hset, if_pos rfl]
        omega
      | clears hclear hactive hactive' =>
        rw [hactive, hactive', if_neg Bool.false_ne_true, if_pos rfl] at hmove
        rw [hclear, if_neg Bool.false_ne_true]
        -- the call was active, so that the flag was set
        split_ifs at hcount <;> omega
      | loses hstart =>
        rw [hstart] at hl
        exact hl.elim
    · exact List.forall_mem_append.mpr
        ⟨htotalBefore, List.forall_mem_cons.mpr ⟨turn_total hturn hl htotal, htotalAfter⟩⟩

theorem inFlight_loaded : InFlight loaded :=
  ⟨List.forall_mem_nil _, rfl, List.forall_mem_nil _⟩

theorem InFlight.guarded {z : Threads Shared Call} (h : InFlight z) : Guarded z where
  one := by
    have hle : (z.locals.countP fun c => c.refresh.isRunning) ≤ z.locals.countP Call.active := by
      refine List.countP_mono_left fun c _ hrunning => ?_
      rw [Call.active, hrunning]
      rfl
    have hcount := h.count
    rw [Shared.flag] at hcount
    split_ifs at hcount <;> omega
  flag := by
    intro hflag
    have hcount := h.count
    rw [Shared.flag, if_pos hflag] at hcount
    obtain ⟨c, hc, hactive⟩ := List.countP_pos_iff.mp (by omega : 0 < z.locals.countP Call.active)
    exact ⟨c, hc, hactive⟩
  total := h.total

/-- What goes wrong leaves a call that has raised. -/
theorem not_guarded_of_step {repr : Json → Str} {y z : Threads Shared Call} {l : Option Event}
    (hl : ¬Proceeds l) (h : System repr y l z) : ¬Guarded z := by
  intro hguarded
  cases h with
  | spawn hstart => exact hl trivial
  | env hfalse => exact hfalse
  | turn hturn =>
    obtain ⟨e, he⟩ := turn_raises hturn hl
    exact hguarded.total _ (List.mem_append_right _ List.mem_cons_self) e he

/-- **The guard holds in every state of a run exactly when no step goes wrong**: no start of a
thread raises, and no inline fetch meets an answer that it raises on. The guard is that at most
one refresh is under way, and that the flag is set exactly while there is one. -/
theorem refresh_guarded_iff (repr : Json → Str) {ls : List (Option Event)}
    {z : Threads Shared Call} (h : Exec (System repr) loaded ls z) :
    (∀ ls₁ ls₂ y, ls = ls₁ ++ ls₂ → Exec (System repr) loaded ls₁ y →
      Exec (System repr) y ls₂ z → Guarded y) ↔ ∀ l ∈ ls, Proceeds l := by
  constructor
  · intro hguarded l hmem
    by_contra hl
    obtain ⟨ls₁, ls₂, rfl⟩ := List.append_of_mem hmem
    obtain ⟨x, hbefore, hrest⟩ := h.split
    cases hrest with
    | @cons _ y _ _ _ hstep hafter =>
      have hreached := hbefore.append (.cons hstep (.nil y))
      refine not_guarded_of_step hl hstep (hguarded (ls₁ ++ [l]) ls₂ y ?_ hreached hafter)
      rw [List.append_assoc, List.singleton_append]
  · rintro hproceeds ls₁ ls₂ y rfl hreached -
    have hprefix := (List.forall_mem_append.mp hproceeds).1
    exact (hreached.invariant (P := InFlight) (fun _ _ _ hl hstep hy => inFlight_step hl hstep hy)
      hprefix inFlight_loaded).guarded

/-! ### A thread that cannot be started -/

/-- A call for the default provider. -/
def plainCall (caller : Caller) (refresh : Refresh) : Call :=
  ⟨PROVIDER_UK_CARBON_INTENSITY, none, 300, false, caller, refresh⟩

def noText (_ : Json) : Str := []

/-- The first call marks its refresh and starts it. -/
theorem started_run : Exec (System noText) loaded
    [none, some .goesOn, some .goesOn, some .goesOn]
    ⟨⟨⟨0, none⟩, true⟩, [plainCall (.returned none) .running]⟩ := by
  refine .cons (Interleave.first (t := plainCall .begun .unstarted) ⟨rfl, rfl⟩) ?_
  refine .cons (Interleave.alone (.reads 0 rfl)) (.cons (Interleave.alone (.marks rfl rfl)) ?_)
  exact .cons (Interleave.alone (.starts rfl)) (.nil _)

/-- The first call marks its refresh, and its thread cannot be started. -/
theorem lost_run (e : Str) : Exec (System noText) loaded
    [none, some .goesOn, some .goesOn, some .startRaises]
    ⟨⟨⟨0, none⟩, true⟩, [plainCall (.raised e) .unstarted]⟩ := by
  refine .cons (Interleave.first (t := plainCall .begun .unstarted) ⟨rfl, rfl⟩) ?_
  refine .cons (Interleave.alone (.reads 0 rfl)) (.cons (Interleave.alone (.marks rfl rfl)) ?_)
  exact .cons (Interleave.alone (.startRaises e rfl)) (.nil _)

/-- The call that has marked and started a refresh of an empty cache. -/
def refreshing : Call := plainCall (.returned none) .running

/-- A second call finds the flag set, and leaves without a refresh of its own. -/
theorem deduplicated_run : Exec (System noText) loaded
    ([none, some .goesOn, some .goesOn, some .goesOn] ++ [none, some .goesOn, some .goesOn])
    ⟨⟨⟨0, none⟩, true⟩, [refreshing, plainCall (.returned none) .unstarted]⟩ := by
  have hspawn : System noText ⟨⟨⟨0, none⟩, true⟩, [refreshing]⟩ none
      ⟨⟨⟨0, none⟩, true⟩, [refreshing, plainCall .begun .unstarted]⟩ :=
    .spawn ⟨rfl, rfl⟩
  have hsecond : ∀ c c', Turn noText ⟨⟨0, none⟩, true⟩ c .goesOn ⟨⟨0, none⟩, true⟩ c' →
      System noText ⟨⟨⟨0, none⟩, true⟩, [refreshing, c]⟩ (some .goesOn)
        ⟨⟨⟨0, none⟩, true⟩, [refreshing, c']⟩ := by
    intro c c' h
    show System noText ⟨_, [refreshing] ++ c :: []⟩ _ ⟨_, [refreshing] ++ c' :: []⟩
    exact .turn h
  refine started_run.append (.cons hspawn ?_)
  exact .cons (hsecond _ _ (.reads 0 rfl)) (.cons (hsecond _ _ (.leaves rfl rfl)) (.nil _))

/-- Two calls, and one refresh between them. -/
theorem refresh_guarded_deduplicated :
    Guarded ⟨⟨⟨0, none⟩, true⟩, [refreshing, plainCall (.returned none) .unstarted]⟩ :=
  (refresh_guarded_iff noText deduplicated_run).mpr (by simp [Proceeds]) _ [] _ rfl
    deduplicated_run (.nil _)

/-- The flag stays set without a refresh, and the call raises. -/
theorem not_guarded_lost : ¬∀ (repr : Json → Str) ls z, Exec (System repr) loaded ls z →
    Guarded z := by
  intro hall
  have hguarded := hall noText _ _ (lost_run (lit "can't start new thread"))
  obtain ⟨c, hc, hactive⟩ := hguarded.flag rfl
  rw [List.mem_singleton.mp hc] at hactive
  exact nomatch hactive

end Grid

end SzlRouter
