/-
The attempt trail of an unbudgeted chat call, and what cooldown does to it.

The walk is cut into its visits.  Each visit leaves one row: its route is not
eligible, or it is skipped because its provider is cooling while a later eligible
one is warm, or it is tried.  Other requests may change the cooldown table between
any two steps.

* `tryRoute_facts` — what a try leaves: one row, and posts of which only the last one
  can be answered;
* `visit_facts`, `visits_trail` — what one visit does, and what a walk does;
* `unbudgeted_trail` — the trail of a call, whatever other requests do;
* `every_route_tried_iff` — when a call that fails has tried every eligible route.
-/
import SzlRouter.Attribution
import SzlRouter.BudgetedCalls

open Py

namespace SzlRouter

/-! ### The posts of a try without a budget -/

/-- A post whose reply is no JSON result. -/
def Post.failed (p : Post) : Prop := ∀ v, p.reply ≠ .json v

/-- The call is the same but for posts to one provider, none of them answered. -/
def FailedOnly (S : Surroundings) (poster : Poster) (provider : Provider) (payload : Dict)
    (s s' : CallState) : Prop :=
  s'.budget = s.budget ∧ s'.attempts = s.attempts ∧
    ∃ new, posts s'.events = posts s.events ++ new ∧
      ∀ p ∈ new, PostedBy S poster provider payload p ∧ p.failed

/-- The same, but for a last post that was answered with `v`. -/
def AnsweredLast (S : Surroundings) (poster : Poster) (provider : Provider) (payload : Dict)
    (v : Parsed) (s s' : CallState) : Prop :=
  s'.budget = s.budget ∧ s'.attempts = s.attempts ∧
    ∃ front p, posts s'.events = posts s.events ++ (front ++ [p]) ∧
      (∀ q ∈ front, PostedBy S poster provider payload q ∧ q.failed) ∧
      PostedBy S poster provider payload p ∧ p.reply = .json v

section

variable (S : Surroundings) (poster : Poster) (provider : Provider) (payload : Dict)
  (timeout : Binary64)

/-- Sending is one post. -/
theorem send_replies (s : CallState) :
    match S.send poster provider payload timeout s with
    | (.json v, s') => AnsweredLast S poster provider payload v s s'
    | (_, s') => FailedOnly S poster provider payload s s' := by
  have hby : ∀ reply : Reply, PostedBy S poster provider payload
      ⟨provider, payload, timeout, poster.request provider (S.env s.tick) payload, reply⟩ :=
    fun _ => ⟨rfl, rfl, s.tick, rfl⟩
  have hposts : ∀ p : Post, posts (s.log (.post p)).events = posts s.events ++ [p] := by
    intro p
    rw [CallState.log, posts_append]
    rfl
  rw [Surroundings.send]
  generalize (if (poster.request provider (S.env s.tick) payload).isSome then
    S.reply s.tick else .failed digitsError) = reply
  cases reply with
  | json v => exact ⟨rfl, rfl, [], _, hposts _, by simp, hby _, rfl⟩
  | failed e =>
    refine ⟨rfl, rfl, _, hposts _, ?_⟩
    intro p hp
    rw [List.mem_singleton.mp hp]
    exact ⟨hby _, by simp [Post.failed]⟩

variable {S poster provider payload} {s s' s'' : CallState} {v : Parsed}

theorem FailedOnly.refl (s : CallState) : FailedOnly S poster provider payload s s :=
  ⟨rfl, rfl, [], (List.append_nil _).symm, by simp⟩

theorem FailedOnly.trans (h : FailedOnly S poster provider payload s s')
    (h' : FailedOnly S poster provider payload s' s'') :
    FailedOnly S poster provider payload s s'' := by
  obtain ⟨hbudget, hrows, new, hnew, hby⟩ := h
  obtain ⟨hbudget', hrows', new', hnew', hby'⟩ := h'
  refine ⟨hbudget'.trans hbudget, hrows'.trans hrows, new ++ new',
    by rw [hnew', hnew, List.append_assoc], ?_⟩
  intro p hp
  rcases List.mem_append.mp hp with hp | hp
  · exact hby p hp
  · exact hby' p hp

theorem FailedOnly.answered (h : FailedOnly S poster provider payload s s')
    (h' : AnsweredLast S poster provider payload v s' s'') :
    AnsweredLast S poster provider payload v s s'' := by
  obtain ⟨hbudget, hrows, new, hnew, hby⟩ := h
  obtain ⟨hbudget', hrows', front, p, hnew', hby', hlast⟩ := h'
  refine ⟨hbudget'.trans hbudget, hrows'.trans hrows, new ++ front, p,
    by rw [hnew', hnew, List.append_assoc, List.append_assoc], ?_, hlast⟩
  intro q hq
  rcases List.mem_append.mp hq with hq | hq
  · exact hby q hq
  · exact hby' q hq

theorem FailedOnly.slept (h : FailedOnly S poster provider payload s s') (delay : Binary64) :
    FailedOnly S poster provider payload s (s'.log (.slept delay)) := by
  refine h.trans ⟨rfl, rfl, [], ?_, by simp⟩
  rw [CallState.log, posts_append]
  rfl

variable (S poster provider payload)

/-- Without a budget only the last post can be answered, and the answer is the result. -/
theorem unbudgetedLoop_replies (cfg : RetryConfig) (left attempt : ℕ) (s : CallState) :
    match unbudgetedLoop S cfg poster provider payload timeout left attempt s with
    | (.ok v, s') => AnsweredLast S poster provider payload v s s'
    | (.error _, s') => FailedOnly S poster provider payload s s' := by
  refine unbudgetedLoop_invariant S cfg poster provider payload timeout
    (P := FailedOnly S poster provider payload s)
    (R := fun v => AnsweredLast S poster provider payload v s) ?_ ?_ left attempt s (.refl s)
  · intro s' h
    have hsend := send_replies S poster provider payload timeout s'
    revert hsend
    rcases S.send poster provider payload timeout s' with ⟨v | e, s''⟩
    · exact h.answered
    · exact h.trans
  · intro s' delay h
    exact h.slept delay

/-- A loop that may try posts at least once. -/
theorem posts_lt_unbudgetedLoop (cfg : RetryConfig) (left attempt : ℕ) (s : CallState) :
    (posts s.events).length <
      (posts (unbudgetedLoop S cfg poster provider payload timeout (left + 1) attempt
        s).2.events).length := by
  -- every state after the first post has more posts than `s`
  have hsend : ∀ t, (posts s.events).length ≤ (posts t.events).length →
      (posts s.events).length <
      (posts (S.send poster provider payload timeout t).2.events).length := by
    intro t ht
    rw [Surroundings.send, CallState.log, posts_append, List.length_append]
    exact Nat.lt_succ_of_le ht
  have hslept : ∀ (t : CallState) delay, (posts s.events).length < (posts t.events).length →
      (posts s.events).length < (posts (t.log (.slept delay)).events).length := by
    intro t delay ht
    rw [CallState.log, posts_append, List.length_append]
    exact ht.trans_le (Nat.le_add_right _ _)
  have hloop : ∀ n t, (posts s.events).length < (posts t.events).length →
      (posts s.events).length <
        (posts (unbudgetedLoop S cfg poster provider payload timeout left n
          t).2.events).length := by
    intro n t ht
    have h := unbudgetedLoop_invariant S cfg poster provider payload timeout
      (P := fun t => (posts s.events).length < (posts t.events).length)
      (R := fun _ t => (posts s.events).length < (posts t.events).length)
      (fun t ht => by
        have h := hsend t ht.le
        revert h
        rcases S.send poster provider payload timeout t with ⟨_ | _, _⟩ <;> exact id)
      (fun t delay ht => hslept t delay ht) left n t ht
    revert h
    rcases unbudgetedLoop S cfg poster provider payload timeout left n t with ⟨_ | _, _⟩ <;>
      exact id
  have hfirst := hsend s (Nat.le_refl _)
  rw [unbudgetedLoop]
  revert hfirst
  generalize S.send poster provider payload timeout s = sent
  obtain ⟨reply, t⟩ := sent
  intro hfirst
  dsimp only
  rcases reply.turn with v | e | e
  · exact hfirst
  · exact hfirst
  · dsimp only
    split_ifs
    · exact hfirst
    · cases backoffSleepSeconds cfg attempt (S.uniform t.tick) with
      | error e' => exact hfirst
      | ok delay =>
        dsimp only
        cases S.sleepError t.tick with
        | some e' => exact hslept t delay hfirst
        | none => exact hloop _ _ (hslept t delay hfirst)

/-- The loop posts exactly when it may try at all. -/
theorem unbudgetedLoop_posted_iff {cfg : RetryConfig} {s : CallState} {new : List Post}
    (h : posts (unbudgetedLoop S cfg poster provider payload timeout cfg.maxAttempts.toNat 0
      s).2.events =
      posts s.events ++ new) : new ≠ [] ↔ 0 < cfg.maxAttempts := by
  constructor
  · intro hne
    by_contra hle
    rw [Int.toNat_of_nonpos (by omega)] at h
    exact hne (List.self_eq_append_right.mp h)
  · intro hpos hnil
    obtain ⟨n, hn⟩ := Nat.exists_eq_add_one_of_ne_zero (n := cfg.maxAttempts.toNat) (by omega)
    have hlt := posts_lt_unbudgetedLoop S poster provider payload timeout cfg n 0 s
    rw [← hn, h, hnil, List.append_nil] at hlt
    exact Nat.lt_irrefl _ hlt

end

/-- What the try of a route does without a budget: it leaves one row, and serves exactly
when its last post was answered with a body that passes the check. -/
structure TryFacts (S : Surroundings) (cfg : RetryConfig) (poster : Poster) (route : Route)
    (provider : Provider) (payload : Dict) (check : Json → Option String) (s : CallState)
    (r : RouteEnd × CallState) (row : Attempt) (new : List Post) : Prop where
  budget : r.2.budget = none
  rows : r.2.attempts = s.attempts ++ [row]
  label : row.label = route
  dispatched : row.isSkip = false
  posts_eq : posts r.2.events = posts s.events ++ new
  posted : ∀ p ∈ new, PostedBy S poster provider payload p
  posted_iff : new ≠ [] ↔ 0 < cfg.maxAttempts
  served_iff : (∃ result, r.1 = .served result) ↔ row.ok = true
  ends : row.ok = false → r.1 = .failed ∨ r.1 = .rejected
  answered_iff : row.ok = true ↔ ∃ p ∈ new, ∃ v, p.reply = .json v ∧ check v.val = none

theorem tryRoute_facts (S : Surroundings) (cfg : RetryConfig) (poster : Poster) (route : Route)
    (provider : Provider) (payload : Dict) (timeout : Binary64) (check : Json → Option String)
    {s : CallState} (hb : s.budget = none) :
    ∃ row new, TryFacts S cfg poster route provider payload check s
      (tryRoute S cfg poster route provider payload timeout check s) row new := by
  have hreplies := unbudgetedLoop_replies S poster provider payload timeout cfg
    cfg.maxAttempts.toNat 0 s.next
  have hiff := fun new =>
      @unbudgetedLoop_posted_iff S poster provider payload timeout cfg s.next new
  rw [tryRoute, postWithRetry, show s.next.budget = none from hb]
  dsimp only
  revert hreplies hiff
  generalize unbudgetedLoop S cfg poster provider payload timeout cfg.maxAttempts.toNat 0 s.next = r
  obtain ⟨e | v, c⟩ := r
  · rintro ⟨hbudget, hrows, new, hnew, hby⟩ hiff
    have hbudget : c.budget = none := hbudget.trans hb
    have hok : (failureRow route e (elapsedMs (S.time c.tick) (S.time s.tick))).ok = false := by
      cases e <;> rfl
    simp only [Except.mapError, hbudget, Option.isNone_none, if_true]
    refine ⟨_, new, hbudget, congrArg (· ++ _) hrows, ?_, ?_, hnew, fun p hp => (hby p hp).1,
      hiff new hnew, ?_, fun _ => .inl rfl, ?_⟩
    · cases e <;> rfl
    · cases e <;> rfl
    · simp [hok]
    · constructor
      · intro h
        exact absurd (h.symm.trans hok) (by simp)
      · rintro ⟨p, hp, v, hv, _⟩
        exact absurd hv ((hby p hp).2 v)
  · rintro ⟨hbudget, hrows, front, p, hnew, hby, hlast, hreply⟩ hiff
    have hbudget : c.next.budget = none := hbudget.trans hb
    have hposted : ∀ q ∈ front ++ [p], PostedBy S poster provider payload q := by
      intro q hq
      rcases List.mem_append.mp hq with hq | hq
      · exact (hby q hq).1
      · rw [List.mem_singleton.mp hq]
        exact hlast
    simp only [Except.mapError]
    cases hcheck : check v.val with
    | some detail =>
      simp only [rejectRow, hbudget, Option.isNone_none, if_true]
      refine ⟨_, front ++ [p], hbudget, congrArg (· ++ _) hrows, rfl, rfl, hnew, hposted,
        hiff _ hnew, by simp, fun _ => .inr rfl, ?_⟩
      constructor
      · simp
      · rintro ⟨q, hq, w, hw, hpass⟩
        -- only the last post has a JSON reply, and its body did not pass
        rcases List.mem_append.mp hq with hq | hq
        · exact absurd hw ((hby q hq).2 w)
        · rw [List.mem_singleton.mp hq, hreply] at hw
          rw [Reply.json.inj hw, hpass] at hcheck
          cases hcheck
    | none =>
      simp only [acceptRow, hbudget, Option.isNone_none, if_true]
      refine ⟨_, front ++ [p], hbudget, congrArg (· ++ _) hrows, rfl, rfl, hnew, hposted,
        hiff _ hnew, by simp, by simp, ?_⟩
      simp only [true_iff]
      exact ⟨p, by simp, v, hreply, hcheck⟩

/-! ### The visits of a walk -/

/-- One visit of a walk: the route, those after it, and where the visit starts and leaves. -/
structure VisitRecord where
  route : Route
  later : List Route
  before : ChatState
  ended : Visit
  after : ChatState

namespace ChatState

/-- The visits of a walk, in order. -/
def visits (S : Surroundings) (cfg : RouterConfig) (req : ChatRequest) (routing : Option Json) :
    List Route → ChatState → List VisitRecord
  | [], _ => []
  | route :: later, s =>
    let (terminal, c) := s.toCallState.readTerminal S
    let s := { s with toCallState := c }
    if terminal.isSome then []
    else
      match s.visit S cfg req routing route later with
      | (.goOn, s') => ⟨route, later, s, .goOn, s'⟩ :: visits S cfg req routing later s'
      | (ended, s') => [⟨route, later, s, ended, s'⟩]

end ChatState

/-- A route that is available and qualified. -/
def Eligible (S : Surroundings) (cfg : RouterConfig) (tick : ℕ) (route : Route) : Prop :=
  ∃ provider, cfg.registry.provider route.1 = some provider ∧
    provider.available (S.env tick) = true ∧ provider.sovereign = true

/-- The look-ahead from a state finds an eligible route that is not cooling when it is
reached. -/
def WarmLater (S : Surroundings) (cfg : RouterConfig) (later : List Route) (s : ChatState) : Prop :=
  ∃ pre route post, later = pre ++ route :: post ∧
    Eligible S cfg (s.warmCandidateLater S cfg pre).2.tick route ∧
    ((s.warmCandidateLater S cfg pre).2.cooldownRemaining S route.1).1 ≤ 0

theorem warmLater_of_warmCandidateLater {S : Surroundings} {cfg : RouterConfig}
    {later : List Route} {s : ChatState} (h : (s.warmCandidateLater S cfg later).1 = true) :
    WarmLater S cfg later s := by
  induction later generalizing s with
  | nil => cases h
  | cons r later ih =>
    -- a later route that is found stays found when the look-ahead starts earlier
    have hback : ∀ t,
        (∀ pre, s.warmCandidateLater S cfg (r :: pre) = t.warmCandidateLater S cfg pre) →
        WarmLater S cfg later t → WarmLater S cfg (r :: later) s := by
      rintro t heq ⟨pre, route, post, rfl, hwarm⟩
      refine ⟨r :: pre, route, post, rfl, ?_⟩
      rw [heq pre]
      exact hwarm
    rw [ChatState.warmCandidateLater] at h
    cases hknown : cfg.registry.provider r.1 with
    | none =>
      rw [hknown] at h
      refine hback s (fun pre => ?_) (ih h)
      rw [ChatState.warmCandidateLater, hknown]
    | some p =>
      rw [hknown] at h
      dsimp only at h
      by_cases hopen : p.available (S.env s.tick) = true ∧ tierOf p = .sovereign
      · rw [if_pos hopen] at h
        by_cases hcool : (s.cooldownRemaining S r.1).1 ≤ 0
        · exact ⟨[], r, later, rfl, ⟨p, hknown, hopen.1, tierOf_eq_sovereign.mp hopen.2⟩, hcool⟩
        · rw [if_neg hcool] at h
          refine hback (s.cooldownRemaining S r.1).2 (fun pre => ?_) (ih h)
          rw [ChatState.warmCandidateLater, hknown]
          dsimp only
          rw [if_pos hopen, if_neg hcool]
      · rw [if_neg hopen] at h
        refine hback s (fun pre => ?_) (ih h)
        rw [ChatState.warmCandidateLater, hknown]
        dsimp only
        rw [if_neg hopen]

/-- At the visit the provider is cooling, and a later route is found warm. Only then the route is
passed over; a cooling provider without an alternative is tried. -/
def SkipsCooling (S : Surroundings) (cfg : RouterConfig) (v : VisitRecord) : Prop :=
  (0 : Binary64) < (v.before.cooldownRemaining S v.route.1).1 ∧
    ((v.before.cooldownRemaining S v.route.1).2.warmCandidateLater S cfg v.later).1 = true

/-- A row that was written for a route skipped because its provider was cooling. -/
def CooldownRow (row : Attempt) : Prop :=
  row.isSkip = true ∧ Str.startsWith (row.error.getD []) (lit "cooldown-skip") = true

/-- What one visit of an unbudgeted walk does: it writes a row, and it tries the route
exactly when the route is eligible and not skipped as cooling. -/
structure VisitFacts (S : Surroundings) (cfg : RouterConfig) (req : ChatRequest) (v : VisitRecord)
    (row : Attempt) (new : List Post) : Prop where
  budget : v.after.budget = none
  rows : v.after.attempts = v.before.attempts ++ [row]
  label : row.label = v.route
  posts_eq : posts v.after.events = posts v.before.events ++ new
  posted : ∀ p ∈ new, cfg.registry.provider v.route.1 = some p.provider ∧
    p.payload = chatPayload req v.route.2
  tried_iff : row.isSkip = false ↔ Eligible S cfg v.before.tick v.route ∧ ¬ SkipsCooling S cfg v
  cooldown_iff : CooldownRow row ↔ Eligible S cfg v.before.tick v.route ∧ SkipsCooling S cfg v
  posted_iff : new ≠ [] ↔ row.isSkip = false ∧ 0 < cfg.retry.maxAttempts
  answered_iff : row.ok = true ↔
    ∃ p ∈ new, ∃ body, p.reply = .json body ∧ chatResponseError body.val = none
  ended : row.ok = true ∧ (∃ response, v.ended = .served response) ∨
    row.ok = false ∧ v.ended = .goOn

section

variable {S : Surroundings} {cfg : RouterConfig} {req : ChatRequest} {routing : Option Json}

/-- Without a budget there is no terminal reason. -/
theorem readTerminal_of_none {s : CallState} (hb : s.budget = none) :
    s.readTerminal S = (none, s) := by
  rw [CallState.readTerminal, CallState.onBudget, hb]
  rfl

/-- The visit of a route that leaves a skip row. -/
theorem VisitFacts.of_skip {v : VisitRecord} {s : ChatState} {error : Str}
    (hb : s.budget = none) (hsame : v.before.toCallState.Same s.toCallState)
    (hended : v.ended = .goOn) (hafter : v.after = s.skip v.route error)
    (htried : ¬ (Eligible S cfg v.before.tick v.route ∧ ¬ SkipsCooling S cfg v))
    (hcooldown : Str.startsWith error (lit "cooldown-skip") = true ↔
      Eligible S cfg v.before.tick v.route ∧ SkipsCooling S cfg v) :
    VisitFacts S cfg req v (skipRow v.route error) [] where
  budget := by
    rw [hafter]
    exact hb
  rows := by
    rw [hafter, ← hsame.attempts]
    rfl
  label := rfl
  -- a skip logs nothing
  posts_eq := by
    rw [hafter, List.append_nil, ← hsame.events]
    rfl
  posted := by simp
  tried_iff := by
    constructor
    · intro h
      cases h
    · exact fun h => absurd h htried
  cooldown_iff := by
    rw [← hcooldown, CooldownRow]
    exact and_iff_right rfl
  posted_iff := by simp [skipRow, Attempt.isSkip]
  answered_iff := by simp [skipRow]
  ended := .inr ⟨rfl, hended⟩

/-- The visit of a route that is tried. -/
theorem VisitFacts.of_qualified {v : VisitRecord} {provider : Provider} {s : ChatState}
    (hb : s.budget = none) (hsame : v.before.toCallState.Same s.toCallState)
    (hknown : cfg.registry.provider v.route.1 = some provider)
    (hvisit : (v.ended, v.after) = s.qualified S cfg req routing v.route provider)
    (heligible : Eligible S cfg v.before.tick v.route) (hcooling : ¬ SkipsCooling S cfg v) :
    ∃ row new, VisitFacts S cfg req v row new := by
  obtain ⟨row, new, facts⟩ := tryRoute_facts S cfg.retry .chat v.route provider
    (chatPayload req v.route.2) req.timeout chatResponseError (s := s.toCallState) hb
  have hends := tryRoute_terminates S cfg.retry .chat v.route provider (chatPayload req v.route.2)
    req.timeout chatResponseError s.toCallState
  rw [ChatState.qualified, ChatState.try] at hvisit
  revert hvisit facts hends
  generalize tryRoute S cfg.retry .chat v.route provider _ _ _ _ = r
  obtain ⟨ended, c⟩ := r
  intro hvisit facts hends
  refine ⟨row, new, ?_⟩
  -- what is left to show is about the state after the try
  have hrest : ∀ {after : ChatState}, v.after = after → c.Same after.toCallState →
      (row.ok = true ∧ (∃ response, v.ended = .served response) ∨
        row.ok = false ∧ v.ended = .goOn) →
      VisitFacts S cfg req v row new := by
    intro after hafter hcsame hended
    subst hafter
    exact {
      budget := hcsame.budget.trans facts.budget
      rows := by rw [hcsame.attempts, facts.rows, hsame.attempts]
      label := facts.label
      posts_eq := by rw [hcsame.events, facts.posts_eq, hsame.events]
      posted := fun p hp => ⟨by rw [hknown, (facts.posted p hp).provider_eq],
        (facts.posted p hp).payload_eq⟩
      tried_iff := iff_of_true facts.dispatched ⟨heligible, hcooling⟩
      cooldown_iff := by
        refine iff_of_false ?_ fun h => hcooling h.2
        rw [CooldownRow, facts.dispatched]
        simp
      posted_iff := by rw [facts.posted_iff, facts.dispatched, eq_self, true_and]
      answered_iff := facts.answered_iff
      ended := hended }
  have hcool := ChatState.setCooldown_same S cfg v.route.1 { s with toCallState := c }
  have hgoOn : ∀ {after : ChatState}, (v.ended, v.after) = (.goOn, after) →
      c.Same after.toCallState → row.ok = false → VisitFacts S cfg req v row new := by
    intro after hvisit hcsame hok
    obtain ⟨hended, hafter⟩ := Prod.mk.inj hvisit
    exact hrest hafter hcsame (.inr ⟨hok, hended⟩)
  cases ended with
  | stopped =>
    rcases hok : row.ok with _ | _
    · rcases facts.ends hok with h | h <;> cases h
    · obtain ⟨result, h⟩ := facts.served_iff.mpr hok
      cases h
  | diverged => exact absurd rfl hends
  | failed =>
    have hok : row.ok = false := by
      by_contra h
      obtain ⟨result, h⟩ := facts.served_iff.mpr (by simpa using h)
      cases h
    dsimp only at hvisit
    rw [readTerminal_of_none (hcool.budget.trans facts.budget)] at hvisit
    exact hgoOn hvisit hcool hok
  | rejected =>
    have hok : row.ok = false := by
      by_contra h
      obtain ⟨result, h⟩ := facts.served_iff.mpr (by simpa using h)
      cases h
    exact hgoOn hvisit hcool hok
  | served result =>
    have hok : row.ok = true := facts.served_iff.mp ⟨result, rfl⟩
    obtain ⟨hended, hafter⟩ := Prod.mk.inj hvisit
    refine hrest hafter ?_ (.inl ⟨hok, _, hended⟩)
    -- without a budget, serving only clears the cooldown
    have hbudget : c.budget = none := facts.budget
    simp only [CallState.markSuccess, CallState.onBudget, hbudget]
    exact ChatState.withCooldown_same { s with toCallState := c } _

/-- A route that is available goes by its tier. -/
theorem visit_open {route : Route} {later : List Route} {s : ChatState} {provider : Provider}
    (hknown : cfg.registry.provider route.1 = some provider)
    (havailable : ¬provider.available (S.env s.tick) = false) :
    s.visit S cfg req routing route later = match tierOf provider with
      | .unqualifiedGrid =>
        (.goOn, s.skip route (lit "pricing/quota unqualified; grid route disabled"))
      | .paidGrid =>
        (.goOn, s.skip route (lit "pricing/reservation unqualified; paid route disabled"))
      | .sovereign => s.cooled S cfg req routing route later provider := by
  rw [ChatState.visit, hknown]
  exact if_neg havailable

/-- A route that is not eligible is skipped at once, and its row names another cause than a
cooldown. -/
theorem visit_ineligible {route : Route} {later : List Route} {s : ChatState} (error : Str)
    (hb : s.budget = none)
    (hvisit : s.visit S cfg req routing route later = (.goOn, s.skip route error))
    (hnot : ¬ Eligible S cfg s.tick route)
    (herror : Str.startsWith error (lit "cooldown-skip") = false) :
    ∃ row new, VisitFacts S cfg req ⟨route, later, s, (s.visit S cfg req routing route later).1,
      (s.visit S cfg req routing route later).2⟩ row new := by
  rw [hvisit]
  refine ⟨_, _, VisitFacts.of_skip hb (.refl _) rfl rfl (fun h => hnot h.1) ?_⟩
  rw [herror]
  exact iff_of_false (by simp) fun h => hnot h.1

/-- A route that is eligible is skipped if its provider is cooling and the look-ahead finds a
warm one; if not, it is tried. -/
theorem visit_eligible {route : Route} {later : List Route} {s : ChatState} {provider : Provider}
    (hb : s.budget = none) (hknown : cfg.registry.provider route.1 = some provider)
    (heligible : Eligible S cfg s.tick route)
    (hvisit : s.visit S cfg req routing route later =
      s.cooled S cfg req routing route later provider) :
    ∃ row new, VisitFacts S cfg req ⟨route, later, s, (s.visit S cfg req routing route later).1,
      (s.visit S cfg req routing route later).2⟩ row new := by
  have hcool := s.withCooldown_same (s.found S)
  have hwarm := ChatState.warmCandidateLater_same S cfg later (s.cooldownRemaining S route.1).2
  rw [hvisit, ChatState.cooled]
  dsimp only
  by_cases hleft : (0 : Binary64) < (s.cooldownRemaining S route.1).1
  · rw [if_pos hleft]
    by_cases hfound : ((s.cooldownRemaining S route.1).2.warmCandidateLater S cfg later).1 = true
    · -- skipped as cooling
      rw [if_pos hfound]
      refine ⟨_, _, VisitFacts.of_skip (hwarm.budget.trans (hcool.budget.trans hb))
        (hcool.trans hwarm) rfl rfl (fun h => h.2 ⟨hleft, hfound⟩) ?_⟩
      refine iff_of_true ?_ ⟨heligible, hleft, hfound⟩
      rw [cooldownError, List.append_assoc]
      rfl
    · rw [if_neg hfound]
      exact VisitFacts.of_qualified (hwarm.budget.trans (hcool.budget.trans hb))
        (hcool.trans hwarm) hknown rfl heligible fun h => hfound h.2
  · rw [if_neg hleft]
    exact VisitFacts.of_qualified (hcool.budget.trans hb) hcool hknown rfl heligible
      fun h => hleft h.1

/-- What a visit does: it writes one row, skips or tries its route, posts what the retry cap
allows, and serves or lets the walk go on. -/
theorem visit_facts (route : Route) (later : List Route) {s : ChatState} (hb : s.budget = none) :
    ∃ row new, VisitFacts S cfg req ⟨route, later, s, (s.visit S cfg req routing route later).1,
      (s.visit S cfg req routing route later).2⟩ row new := by
  cases hknown : cfg.registry.provider route.1 with
  | none =>
    refine visit_ineligible unavailableError hb ?_ ?_ (by decide)
    · rw [ChatState.visit, hknown]
    · rintro ⟨provider, hprovider, _⟩
      exact absurd (hknown.symm.trans hprovider) (by simp)
  | some provider =>
    have hnot : provider.available (S.env s.tick) = false ∨ provider.sovereign = false →
        ¬ Eligible S cfg s.tick route := by
      rintro hor ⟨p, hp, havailable, hsovereign⟩
      obtain rfl := Option.some.inj (hknown.symm.trans hp)
      rcases hor with h | h
      · exact absurd (h.symm.trans havailable) (by simp)
      · exact absurd (h.symm.trans hsovereign) (by simp)
    by_cases havailable : provider.available (S.env s.tick) = false
    · refine visit_ineligible unavailableError hb ?_ (hnot (.inl havailable)) (by decide)
      rw [ChatState.visit, hknown]
      exact if_pos havailable
    · have hopen : s.visit S cfg req routing route later = _ := visit_open hknown havailable
      have hgrid : tierOf provider ≠ .sovereign → provider.sovereign = false := by
        intro htier
        by_contra h
        exact htier (tierOf_eq_sovereign.mpr (by simpa using h))
      cases htier : tierOf provider with
      | unqualifiedGrid =>
        rw [htier] at hopen
        exact visit_ineligible _ hb hopen (hnot (.inr (hgrid (by simp [htier])))) (by decide)
      | paidGrid =>
        rw [htier] at hopen
        exact visit_ineligible _ hb hopen (hnot (.inr (hgrid (by simp [htier])))) (by decide)
      | sovereign =>
        rw [htier] at hopen
        exact visit_eligible hb hknown
          ⟨provider, hknown, by simpa using havailable, tierOf_eq_sovereign.mp htier⟩ hopen

/-- The rows and the posts of a walk, one pair for each visit. -/
structure WalkFacts (S : Surroundings) (cfg : RouterConfig) (req : ChatRequest)
    (routes : List Route) (s : ChatState) (vs : List VisitRecord) (w : Visit × ChatState)
    (trail : List (Attempt × List Post)) : Prop where
  each : List.Forall₂ (fun v r => VisitFacts S cfg req v r.1 r.2) vs trail
  budget : w.2.budget = none
  rows : w.2.attempts = s.attempts ++ trail.map Prod.fst
  posts_eq : posts w.2.events = posts s.events ++ trail.flatMap Prod.snd
  inOrder : ∀ pre v post, vs = pre ++ v :: post → routes = pre.map (·.route) ++ v.route :: v.later
  ends : (w.1 = .stop ∧ (∀ v ∈ vs, v.ended = .goOn) ∧ vs.map (·.route) = routes) ∨
    ∃ front last response, vs = front ++ [last] ∧ (∀ v ∈ front, v.ended = .goOn) ∧
      last.ended = .served response ∧ w.1 = .served response

theorem visits_cons {route : Route} {later : List Route} {s : ChatState} (hb : s.budget = none) :
    s.visits S cfg req routing (route :: later) =
      match s.visit S cfg req routing route later with
      | (.goOn, s') => ⟨route, later, s, .goOn, s'⟩ :: s'.visits S cfg req routing later
      | (ended, s') => [⟨route, later, s, ended, s'⟩] := by
  rw [ChatState.visits, readTerminal_of_none hb]
  exact if_neg (by simp)

theorem walk_cons {route : Route} {later : List Route} {s : ChatState} (hb : s.budget = none) :
    s.walk S cfg req routing (route :: later) =
      match s.visit S cfg req routing route later with
      | (.goOn, s) => s.walk S cfg req routing later
      | (.stop, s) => (.stop, s)
      | (.served response, s) => (.served response, s)
      | (.diverged, s) => (.diverged, s) := by
  rw [ChatState.walk, readTerminal_of_none hb]
  exact if_neg (by simp)

/-- A walk, visit by visit: the trail has a row for each visit in order, and only the last visit
may serve. By induction on the routes that are left. -/
theorem visits_trail (routes : List Route) {s : ChatState} (hb : s.budget = none) :
    ∃ trail, WalkFacts S cfg req routes s (s.visits S cfg req routing routes)
      (s.walk S cfg req routing routes) trail := by
  -- by induction on the routes that are left; a visit serves, or the walk goes on
  induction routes generalizing s with
  | nil =>
    exact ⟨[], .nil, hb, (List.append_nil _).symm, (List.append_nil _).symm,
      fun pre v post h => absurd h (by simp [ChatState.visits]),
        .inl ⟨rfl, by simp [ChatState.visits],
        rfl⟩⟩
  | cons route later ih =>
    obtain ⟨row, new, facts⟩ := @visit_facts S cfg req routing route later _ hb
    rw [visits_cons hb, walk_cons hb]
    revert facts
    generalize s.visit S cfg req routing route later = visit
    obtain ⟨ended, t⟩ := visit
    intro facts
    rcases facts.ended with ⟨_, response, rfl⟩ | ⟨_, rfl⟩
    · refine ⟨[(row, new)], .cons facts .nil, facts.budget, facts.rows, ?_, ?_,
        .inr ⟨[], _, response, rfl, by simp, rfl, rfl⟩⟩
      · simpa using facts.posts_eq
      · intro pre v post h
        cases pre with
        | nil => rw [← (List.cons.inj h).1]; rfl
        | cons u pre => exact absurd (List.cons.inj h).2 (by simp)
    · obtain ⟨trail, rest⟩ := ih facts.budget
      -- the visit goes on, and stands in front of the rest of the walk
      refine ⟨(row, new) :: trail, .cons facts rest.each, rest.budget, ?_, ?_, ?_, ?_⟩
      · rw [rest.rows, facts.rows]
        simp
      · rw [rest.posts_eq, facts.posts_eq]
        simp
      · intro pre v post h
        cases pre with
        | nil => rw [← (List.cons.inj h).1]; rfl
        | cons u pre =>
          have htail := rest.inOrder pre v post (List.cons.inj h).2
          rw [← (List.cons.inj h).1]
          exact congrArg (route :: ·) htail
      · rcases rest.ends with ⟨hstop, hgoOn, hmap⟩ | ⟨front, last, response, heq, hgoOn, hlast⟩
        · refine .inl ⟨hstop, ?_, congrArg (route :: ·) hmap⟩
          intro v hv
          rcases List.mem_cons.mp hv with rfl | hv
          · rfl
          · exact hgoOn v hv
        · refine .inr ⟨⟨route, later, s, .goOn, t⟩ :: front, last, response, ?_, ?_, hlast⟩
          · exact congrArg (VisitRecord.mk route later s .goOn t :: ·) heq
          · intro v hv
            rcases List.mem_cons.mp hv with rfl | hv
            · rfl
            · exact hgoOn v hv

end

/-! ### Whole calls -/

/-- The visits of a call; a request that is refused has none. -/
def chatVisits (S : Surroundings) (cfg : RouterConfig) (req : ChatRequest) (s : ChatState) :
    List VisitRecord :=
  match chatRefusal req s.budget with
  | some _ => []
  | none => s.visits S cfg req (chatRoutes cfg req).1 (chatRoutes cfg req).2

/-- What the end of a call shows are the rows of its trail. -/
theorem chat_shows (S : Surroundings) (cfg : RouterConfig) (req : ChatRequest) (s : ChatState) :
    (chat S cfg req s).1.Shows (chat S cfg req s).2.attempts := by
  have rule : ChatState.TryRule S cfg req (fun _ _ => True) (fun _ _ _ _ _ => True) := by
    refine ⟨fun _ => ⟨fun _ h => h, fun _ _ h => h, fun _ h => h⟩, fun h => h, ?_⟩
    intro seen route provider t _ _
    rcases ChatState.tryChat S cfg req route provider t with ⟨_ | _ | _ | _ | _, _⟩ <;> trivial
  have hends := ChatState.TryRule.chat (s := s) (fun _ => rule) trivial
  revert hends
  generalize chat S cfg req s = r
  obtain ⟨response | _ | _ | _, s'⟩ := r
  · rintro ⟨before, route, _, provider, result, t, _, _, heq⟩
    obtain ⟨prov, tick, t', hserve, hnames, hattempts, -⟩ :=
      t.serve_cases S (chatRoutes cfg req).1 route provider result
    obtain ⟨rfl, rfl⟩ := Prod.mk.inj (heq.trans hserve)
    show trailOf _ = some (rowsJson s'.attempts)
    rw [hattempts]
    exact trailOf_answer hnames
  · exact fun h => h.1
  · exact fun _ => trivial
  · exact id

/-- How an unbudgeted call ends, and what it leaves. -/
structure ChatFacts (S : Surroundings) (cfg : RouterConfig) (req : ChatRequest) (s : ChatState)
    (r : CallEnd × ChatState) (vs : List VisitRecord) (trail : List (Attempt × List Post)) :
    Prop where
  each : List.Forall₂ (fun v r => VisitFacts S cfg req v r.1 r.2) vs trail
  rows : r.2.attempts = s.attempts ++ trail.map Prod.fst
  posts_eq : posts r.2.events = posts s.events ++ trail.flatMap Prod.snd
  inOrder : ∀ pre v post, vs = pre ++ v :: post →
    (chatRoutes cfg req).2 = pre.map (·.route) ++ v.route :: v.later
  ends : (∃ e, chatRefusal req none = some e ∧ r = (.raised e, s) ∧ vs = []) ∨
    (∃ message reason, chatRefusal req none = none ∧
    r.1 = .routerError message r.2.attempts reason ∧
      (∀ v ∈ vs, v.ended = .goOn) ∧ vs.map (·.route) = (chatRoutes cfg req).2) ∨
    ∃ front last response, chatRefusal req none = none ∧ vs = front ++ [last] ∧
      (∀ v ∈ front, v.ended = .goOn) ∧ last.ended = .served response ∧ r.1 = .response response

theorem closeWalk_of_none {S : Surroundings} {s : CallState} (hb : s.budget = none) :
    closeWalk S s = (none, s) := by
  have hclose : ∀ reason, s.close S reason = s := by
    intro reason
    rw [CallState.close, CallState.onBudget, hb]
  have hreserved : s.readReserved S = (none, s) := by
    rw [CallState.readReserved, CallState.onBudget, hb]
  rw [closeWalk, readTerminal_of_none hb]
  dsimp only
  rw [hreserved]
  dsimp only
  rw [hclose, readTerminal_of_none hb]

theorem chat_facts (S : Surroundings) (cfg : RouterConfig) (req : ChatRequest) {s : ChatState}
    (hb : s.budget = none) :
    ∃ trail, ChatFacts S cfg req s (chat S cfg req s) (chatVisits S cfg req s) trail := by
  rw [chat, chatVisits, hb]
  -- a request that is refused visits nothing
  cases hrefusal : chatRefusal req none with
  | some e =>
    exact ⟨[], .nil, (List.append_nil _).symm, (List.append_nil _).symm,
      fun pre v post h => absurd h (by simp), .inl ⟨e, hrefusal, rfl, rfl⟩⟩
  | none =>
    obtain ⟨trail, facts⟩ :=
      @visits_trail S cfg req (chatRoutes cfg req).1 (chatRoutes cfg req).2 _ hb
    refine ⟨trail, ?_⟩
    dsimp only
    revert facts
    generalize s.walk S cfg req (chatRoutes cfg req).1 (chatRoutes cfg req).2 = w
    obtain ⟨ended, t⟩ := w
    intro facts
    -- no route served, and the call raises; or the last one did
    rcases facts.ends with ⟨hstop, hgoOn, hmap⟩ | ⟨front, last, response, heq, hgoOn, hlast, hw⟩
    · obtain rfl : ended = .stop := hstop
      dsimp only
      rw [closeWalk_of_none facts.budget]
      exact ⟨facts.each, facts.rows, facts.posts_eq, facts.inOrder,
        .inr (.inl ⟨_, _, hrefusal, rfl, hgoOn, hmap⟩)⟩
    · obtain rfl : ended = .served response := hw
      exact ⟨facts.each, facts.rows, facts.posts_eq, facts.inOrder,
        .inr (.inr ⟨front, last, response, hrefusal, heq, hgoOn, hlast, rfl⟩)⟩

/-- A call without a budget that has done nothing. -/
def CallState.unbudgeted (tick : ℕ) : CallState := ⟨tick, none, [], []⟩

/-- What is available does not change. -/
def Surroundings.FixedAvailability (S : Surroundings) : Prop :=
  ∀ (p : Provider) tick tick', p.available (S.env tick) = p.available (S.env tick')

theorem Eligible.of_fixed {S : Surroundings} (hfixed : S.FixedAvailability) {cfg : RouterConfig}
    {tick tick' : ℕ} {route : Route} (h : Eligible S cfg tick route) :
    Eligible S cfg tick' route := by
  obtain ⟨provider, hknown, havailable, hsovereign⟩ := h
  exact ⟨provider, hknown, (hfixed provider tick' tick).trans havailable, hsovereign⟩

theorem exists_mem_right {α β : Type} {R : α → β → Prop} {as : List α} {bs : List β}
    (h : List.Forall₂ R as bs) {a : α} (ha : a ∈ as) : ∃ b ∈ bs, R a b := by
  induction h with
  | nil => cases ha
  | @cons x y xs ys hxy _ ih =>
    rcases List.mem_cons.mp ha with rfl | ha
    · exact ⟨y, List.mem_cons_self, hxy⟩
    · obtain ⟨b, hb, hR⟩ := ih ha
      exact ⟨b, List.mem_cons_of_mem _ hb, hR⟩

/-- The last member of a list with a property. -/
theorem exists_last {α : Type} {P : α → Prop} {l : List α} (h : ∃ a ∈ l, P a) :
    ∃ pre a post, l = pre ++ a :: post ∧ P a ∧ ∀ b ∈ post, ¬ P b := by
  induction l with
  | nil => simp at h
  | cons x l ih =>
    by_cases hl : ∃ a ∈ l, P a
    · obtain ⟨pre, a, post, rfl, ha⟩ := ih hl
      exact ⟨x :: pre, a, post, rfl, ha⟩
    · obtain ⟨a, ha, hP⟩ := h
      rcases List.mem_cons.mp ha with rfl | ha
      · exact ⟨[], a, l, rfl, hP, fun b hb hPb => hl ⟨b, hb, hPb⟩⟩
      · exact absurd ⟨a, ha, hP⟩ hl

theorem map_eq_of_forall₂ {α β γ : Type} {R : α → β → Prop} {f : α → γ} {g : β → γ}
    {as : List α} {bs : List β} (h : List.Forall₂ R as bs) (hR : ∀ a b, R a b → g b = f a) :
    bs.map g = as.map f := by
  induction h with
  | nil => rfl
  | cons hab _ ih => rw [List.map_cons, List.map_cons, hR _ _ hab, ih]

/-- Whether a visit ends with an answer. -/
def Visit.isServed : Visit → Bool
  | .served _ => true
  | _ => false

section

variable {S : Surroundings} {cfg : RouterConfig} {req : ChatRequest} {s : ChatState}
  {r : CallEnd × ChatState} {vs : List VisitRecord} {trail : List (Attempt × List Post)}

theorem VisitFacts.tried_of_ok {v : VisitRecord} {row : Attempt} {new : List Post}
    (h : VisitFacts S cfg req v row new) (hok : row.ok = true) : row.isSkip = false := by
  obtain ⟨p, hp, _⟩ := h.answered_iff.mp hok
  exact (h.posted_iff.mp (List.ne_nil_of_mem hp)).1

theorem VisitFacts.ok_eq {v : VisitRecord} {row : Attempt} {new : List Post}
    (h : VisitFacts S cfg req v row new) : row.ok = v.ended.isServed := by
  rcases h.ended with ⟨hok, response, hended⟩ | ⟨hok, hended⟩
  · rw [hok, hended]
    rfl
  · rw [hok, hended]
    rfl

/-- When a route is eligible, some route is tried: the last eligible one, if the walk gets
that far. -/
theorem ChatFacts.some_tried (hfixed : S.FixedAvailability) (h : ChatFacts S cfg req s r vs trail)
    (hrefusal : chatRefusal req none = none) {tick : ℕ}
    (heligible : ∃ route ∈ (chatRoutes cfg req).2, Eligible S cfg tick route) :
    ∃ t ∈ trail, t.1.isSkip = false := by
  rcases h.ends with
    ⟨e, he, _⟩ | ⟨_, _, _, _, _, hmap⟩ | ⟨front, last, response, _, heq, _, hlast, _⟩
  · exact absurd (he.symm.trans hrefusal) (by simp)
  · obtain ⟨pre, route, post, hsplit, hroute, hpost⟩ := exists_last heligible
    obtain ⟨us, ws, rfl, hus, hws⟩ := List.map_eq_append_iff.mp (hmap.trans hsplit)
    obtain ⟨v, ws, rfl, hv, hws⟩ := List.map_eq_cons_iff.mp hws
    have hlater : v.later = post := by
      have horder := h.inOrder us v ws rfl
      rw [hsplit, hus, hv] at horder
      exact (List.cons.inj (List.append_cancel_left horder)).2.symm
    obtain ⟨t, ht, facts⟩ := exists_mem_right h.each (a := v) (by simp)
    refine ⟨t, ht, facts.tried_iff.mpr ⟨(hv ▸ hroute).of_fixed hfixed, ?_⟩⟩
    -- a skip needs a later route that is eligible
    rintro ⟨_, hwarm⟩
    obtain ⟨front, other, back, hback, hother, _⟩ := warmLater_of_warmCandidateLater hwarm
    exact hpost other (by rw [← hlater, hback]; simp) (hother.of_fixed hfixed)
  · obtain ⟨t, ht, facts⟩ := exists_mem_right h.each (a := last) (by rw [heq]; simp)
    refine ⟨t, ht, facts.tried_of_ok ?_⟩
    rw [facts.ok_eq, hlast]
    rfl

/-- A row that is tried has an eligible route. -/
theorem ChatFacts.eligible_of_tried (hfixed : S.FixedAvailability)
    (h : ChatFacts S cfg req s r vs trail) (tick : ℕ) {t : Attempt × List Post} (ht : t ∈ trail)
    (htried : t.1.isSkip = false) :
    ∃ route ∈ (chatRoutes cfg req).2, Eligible S cfg tick route := by
  obtain ⟨v, hv, facts⟩ := exists_mem_right h.each.flip ht
  obtain ⟨pre, post, hsplit⟩ := List.append_of_mem hv
  refine ⟨v.route, ?_, (facts.tried_iff.mp htried).1.of_fixed hfixed⟩
  rw [h.inOrder pre v post hsplit]
  simp

/-- A cooldown skip was written for a visit that looked ahead to a warm route. -/
theorem ChatFacts.warmLater (h : ChatFacts S cfg req s r vs trail) {v : VisitRecord}
    {row : Attempt} (hvr : (v, row) ∈ vs.zip (trail.map Prod.fst)) (hcooldown : CooldownRow row) :
    WarmLater S cfg v.later (v.before.cooldownRemaining S v.route.1).2 := by
  rw [List.zip_map_right, List.mem_map] at hvr
  obtain ⟨⟨u, t⟩, hut, heq⟩ := hvr
  obtain ⟨rfl, rfl⟩ := Prod.mk.inj heq
  have hfacts := (List.forall₂_iff_zip.mp h.each).2 hut
  exact warmLater_of_warmCandidateLater (hfacts.cooldown_iff.mp hcooldown).2.2

/-- Every row is a skip exactly when no route of the list is eligible. -/
theorem ChatFacts.allSkipped_iff (hfixed : S.FixedAvailability)
    (h : ChatFacts S cfg req s r vs trail) (hrefusal : chatRefusal req none = none) (tick : ℕ) :
    (∀ t ∈ trail, t.1.isSkip = true) ↔
      ∀ route ∈ (chatRoutes cfg req).2, ¬ Eligible S cfg tick route := by
  constructor
  · intro hall route hroute heligible
    obtain ⟨t, ht, hskip⟩ := h.some_tried hfixed hrefusal ⟨route, hroute, heligible⟩
    exact absurd (hskip.symm.trans (hall t ht)) (by simp)
  · intro hnone t ht
    by_contra hskip
    obtain ⟨route, hroute, heligible⟩ := h.eligible_of_tried hfixed tick ht (by simpa using hskip)
    exact hnone route hroute heligible

/-- Nothing is posted exactly when every row is a skip, or the retry cap allows no post. -/
theorem ChatFacts.noPost_iff (h : ChatFacts S cfg req s r vs trail) :
    (∀ t ∈ trail, t.2 = []) ↔
      cfg.retry.maxAttempts ≤ 0 ∨ ∀ t ∈ trail, t.1.isSkip = true := by
  constructor
  · intro hnil
    by_cases hmax : cfg.retry.maxAttempts ≤ 0
    · exact .inl hmax
    · refine .inr fun t ht => ?_
      obtain ⟨v, _, hv⟩ := exists_mem_right h.each.flip ht
      by_contra hskip
      exact hv.posted_iff.mpr ⟨by simpa using hskip, by omega⟩ (hnil t ht)
  · intro hor t ht
    obtain ⟨v, _, hv⟩ := exists_mem_right h.each.flip ht
    by_contra hne
    obtain ⟨hskip, hmax⟩ := hv.posted_iff.mp hne
    rcases hor with hle | hall
    · omega
    · exact absurd (hskip.symm.trans (hall t ht)) (by simp)

/-- Where no visit served, no row is ok. -/
theorem ChatFacts.none_ok (h : ChatFacts S cfg req s r vs trail)
    (hgoOn : ∀ v ∈ vs, v.ended = .goOn) : ∀ row ∈ trail.map Prod.fst, row.ok = false := by
  intro row hrow
  obtain ⟨t, ht, rfl⟩ := List.mem_map.mp hrow
  obtain ⟨v, hv, hfacts⟩ := exists_mem_right h.each.flip ht
  rw [hfacts.ok_eq, hgoOn v hv]
  rfl

/-- Where the last visit served, only the last row is ok. -/
theorem ChatFacts.oks_of_served (h : ChatFacts S cfg req s r vs trail) {front : List VisitRecord}
    {last : VisitRecord} {response : Dict} (heq : vs = front ++ [last])
    (hgoOn : ∀ v ∈ front, v.ended = .goOn) (hlast : last.ended = .served response) :
    (trail.map Prod.fst).map (·.ok) = front.map (fun _ => false) ++ [true] := by
  have hok : (trail.map Prod.fst).map (·.ok) = vs.map (·.ended.isServed) := by
    rw [List.map_map]
    exact map_eq_of_forall₂ h.each fun v t ht => ht.ok_eq
  rw [hok, heq, List.map_append, List.map_singleton, hlast]
  congr 1
  exact List.map_congr_left fun v hv => by rw [hgoOn v hv]; rfl

end

/-- The attempt trail of a call without a budget: a row for each visit in order, rows of tries
for the routes that were tried, and the answer of the last of them. -/
structure UnbudgetedTrail (S : Surroundings) (cfg : RouterConfig) (req : ChatRequest) (tick : ℕ)
    (r : CallEnd × ChatState) (vs : List VisitRecord) : Prop where
  /-- The visits follow the list of routes. -/
  inOrder : ∀ pre v post, vs = pre ++ v :: post →
    (chatRoutes cfg req).2 = pre.map (·.route) ++ v.route :: v.later
  /-- There is a row for each visit, and the end of the call shows the rows. -/
  rows : r.2.attempts.map Attempt.label = vs.map (·.route)
  shown : r.1.Shows r.2.attempts
  /-- The last visit serves, or every route is visited. -/
  ends : (∃ response v, r.1 = .response response ∧ vs.getLast? = some v ∧
      v.ended = .served response) ∨
    ∃ message reason, r.1 = .routerError message r.2.attempts reason ∧
      vs.map (·.route) = (chatRoutes cfg req).2
  last_ok : (∃ response, r.1 = .response response) ↔
    r.2.attempts.getLast?.map (·.ok) = some true
  earlier_ok : ∀ row ∈ r.2.attempts.dropLast, row.ok = false
  /-- A cooldown skip has a later route that is eligible and not cooling. -/
  skips : ∀ vr ∈ vs.zip r.2.attempts, CooldownRow vr.2 →
    WarmLater S cfg vr.1.later (vr.1.before.cooldownRemaining S vr.1.route.1).2
  /-- No route is tried exactly when none is eligible, and a try posts if it may at all. -/
  tried : (∀ row ∈ r.2.attempts, row.isSkip = true) ↔
    ∀ route ∈ (chatRoutes cfg req).2, ¬ Eligible S cfg tick route
  posted : posts r.2.events = [] ↔
    cfg.retry.maxAttempts ≤ 0 ∨ ∀ route ∈ (chatRoutes cfg req).2, ¬ Eligible S cfg tick route

/-- **The trail of a call without a budget.**  The call visits the routes in order, writes a row
for each visit, and tries some route unless none is eligible, whatever others do to the cooldown
table.  A route is tried when its provider is handed to the transport; what is posted there is
what the retry cap allows, and with a cap of 0 or less that is nothing. -/
theorem unbudgeted_trail (S : Surroundings) (hfixed : S.FixedAvailability) (cfg : RouterConfig)
    (req : ChatRequest) (tick : ℕ) (table : Cooldowns) :
    let s : ChatState := ⟨.unbudgeted tick, table⟩
    (∃ e, chatRefusal req none = some e ∧ chat S cfg req s = (.raised e, s)) ∨
      UnbudgetedTrail S cfg req tick (chat S cfg req s) (chatVisits S cfg req s) := by
  intro s
  obtain ⟨trail, facts⟩ := chat_facts S cfg req (s := s) rfl
  have hshows := chat_shows S cfg req s
  revert facts hshows
  generalize chat S cfg req s = r
  generalize chatVisits S cfg req s = vs
  intro facts hshows
  -- the call started without rows and without posts
  have hrows : r.2.attempts = trail.map Prod.fst := facts.rows
  have hposts : posts r.2.events = trail.flatMap Prod.snd := facts.posts_eq
  have hlabels : r.2.attempts.map Attempt.label = vs.map (·.route) := by
    rw [hrows, List.map_map]
    exact map_eq_of_forall₂ facts.each fun v t ht => ht.label
  have hskips : ∀ vr ∈ vs.zip r.2.attempts, CooldownRow vr.2 →
      WarmLater S cfg vr.1.later (vr.1.before.cooldownRemaining S vr.1.route.1).2 :=
    fun vr hvr => facts.warmLater (hrows ▸ hvr)
  have htried : chatRefusal req none = none → ((∀ row ∈ r.2.attempts, row.isSkip = true) ↔
      ∀ route ∈ (chatRoutes cfg req).2, ¬ Eligible S cfg tick route) := by
    intro hrefusal
    rw [hrows, List.forall_mem_map]
    exact facts.allSkipped_iff hfixed hrefusal tick
  have hposted : chatRefusal req none = none → (posts r.2.events = [] ↔
      cfg.retry.maxAttempts ≤ 0 ∨
        ∀ route ∈ (chatRoutes cfg req).2, ¬ Eligible S cfg tick route) := by
    intro hrefusal
    rw [hposts, List.flatMap_eq_nil_iff, facts.noPost_iff,
      facts.allSkipped_iff hfixed hrefusal tick]
  rcases facts.ends with ⟨e, he, hr, _⟩ | ⟨message, reason, hrefusal, hr, hgoOn, hmap⟩ |
    ⟨front, last, response, hrefusal, heq, hgoOn, hlast, hr⟩
  · exact .inl ⟨e, he, hr⟩
  · -- every route failed or was skipped
    have hnone : ∀ row ∈ r.2.attempts, row.ok = false := hrows ▸ facts.none_ok hgoOn
    refine .inr ⟨facts.inOrder, hlabels, hshows, .inr ⟨message, reason, hr, hmap⟩, ?_,
      fun row hrow => hnone row (List.dropLast_subset _ hrow), hskips, htried hrefusal,
      hposted hrefusal⟩
    constructor
    · rintro ⟨response, hresponse⟩
      rw [hr] at hresponse
      cases hresponse
    · intro hlast
      obtain ⟨row, hrow, hrowok⟩ := Option.map_eq_some_iff.mp hlast
      exact absurd (hrowok.symm.trans (hnone row (List.mem_of_getLast? hrow))) (by simp)
  · -- the last visit served, and the visits before it did not
    have hserved : r.2.attempts.map (·.ok) = front.map (fun _ => false) ++ [true] :=
      hrows ▸ facts.oks_of_served heq hgoOn hlast
    refine .inr ⟨facts.inOrder, hlabels, hshows,
      .inl ⟨response, last, hr, by rw [heq]; simp, hlast⟩,
      ?_, ?_, hskips, htried hrefusal, hposted hrefusal⟩
    · refine iff_of_true ⟨response, hr⟩ ?_
      rw [← List.getLast?_map, hserved]
      simp
    · intro row hrow
      have hmem : row.ok ∈ (r.2.attempts.map (·.ok)).dropLast := by
        rw [← List.map_dropLast]
        exact List.mem_map_of_mem hrow
      rw [hserved, List.dropLast_concat] at hmem
      obtain ⟨_, _, h⟩ := List.mem_map.mp hmem
      exact h.symm

/-- Two of our GPU nodes are set up. -/
def twoNodesEnv : Env := fun name =>
  if name = lit "A11OY_MODEL_BASE_URL" then some (lit "http://box.local/v1")
  else if name = lit "A11OY_GPU_TOKEN" then some (lit "a")
  else if name = lit "NVIDIA_GPU_BASE_URL" then some (lit "http://nvidia.local/v1")
  else if name = lit "NVIDIA_GPU_TOKEN" then some (lit "b")
  else none

def coderChat : ChatRequest where
  model := lit "szl-coder"
  messages := .arr []
  timeout := 5

/-- The first node is cooling. -/
def boxCooling : Cooldowns := fun name => if name = lit "box_gpu" then some 100 else none

/-- The first node is skipped, and the second one is asked three times. -/
theorem unbudgeted_trail_busy :
    let S := Surroundings.still twoNodesEnv busyReply
    let s : ChatState := ⟨.unbudgeted 0, boxCooling⟩
    let r := chat S localRouter coderChat s
    (posts r.2.events).map (·.provider.name) = List.replicate 3 (lit "nvidia_gpu") ∧
      ((∃ e, chatRefusal coderChat none = some e ∧ r = (.raised e, s)) ∨
        UnbudgetedTrail S localRouter coderChat 0 r (chatVisits S localRouter coderChat s)) := by
  intro S s r
  have hfixed : S.FixedAvailability := fun _ _ _ => rfl
  exact ⟨by decide +kernel, unbudgeted_trail S hfixed localRouter coderChat 0 boxCooling⟩

/-! ### What a cooldown costs -/

/-- The visit posts its route. -/
def VisitRecord.Dispatched (cfg : RouterConfig) (req : ChatRequest) (v : VisitRecord) : Prop :=
  ∃ p new, posts v.after.events = posts v.before.events ++ p :: new ∧
    cfg.registry.provider v.route.1 = some p.provider ∧ p.payload = chatPayload req v.route.2

/-- If every route failed, each available and qualified route of the list was dispatched to
at its turn: something was posted to its provider.  With a retry cap of 0 or less a route is
tried, that is handed to the transport, but nothing is posted. -/
def EveryRouteTried (S : Surroundings) (cfg : RouterConfig) (req : ChatRequest) (tick : ℕ)
    (r : CallEnd × ChatState) (vs : List VisitRecord) : Prop :=
  (∃ message attempts reason, r.1 = .routerError message attempts reason) →
    vs.map (·.route) = (chatRoutes cfg req).2 ∧
      ∀ v ∈ vs, Eligible S cfg tick v.route → v.Dispatched cfg req

/-- **What a cooldown costs.**  A call that fails has dispatched to every eligible route exactly
when some post was answered after all, or none of these routes was skipped as cooling and the
retry cap allows a post.  A skip needs a warm route later in the list, but that route may fail
too, and the walk does not come back. -/
theorem every_route_tried_iff (S : Surroundings) (hfixed : S.FixedAvailability)
    (cfg : RouterConfig) (req : ChatRequest) (tick : ℕ) (table : Cooldowns) :
    let s : ChatState := ⟨.unbudgeted tick, table⟩
    let r := chat S cfg req s
    let vs := chatVisits S cfg req s
    EveryRouteTried S cfg req tick r vs ↔
      (∃ p ∈ posts r.2.events, ∃ body, p.reply = .json body ∧ chatResponseError body.val = none) ∨
        ∀ v ∈ vs, Eligible S cfg tick v.route →
          0 < cfg.retry.maxAttempts ∧ ¬ SkipsCooling S cfg v := by
  intro s r vs
  obtain ⟨trail, facts⟩ := chat_facts S cfg req (s := s) rfl
  have hposts : posts r.2.events = trail.flatMap Prod.snd := facts.posts_eq
  have htried : ∀ {v : VisitRecord} {row : Attempt} {new : List Post},
      VisitFacts S cfg req v row new → Eligible S cfg tick v.route →
      (new ≠ [] ↔ 0 < cfg.retry.maxAttempts ∧ ¬ SkipsCooling S cfg v) := by
    intro v row new hv heligible
    rw [hv.posted_iff, hv.tried_iff, and_comm (a := 0 < _)]
    exact and_congr_left fun _ => and_iff_right (heligible.of_fixed hfixed)
  constructor
  · intro hevery
    rcases facts.ends with ⟨e, _, _, hvs⟩ | ⟨message, reason, _, hr, _, _⟩ |
      ⟨front, last, response, _, heq, _, hlast, _⟩
    · refine .inr fun v hv => ?_
      rw [show vs = [] from hvs] at hv
      cases hv
    · refine .inr fun v hv heligible => ?_
      obtain ⟨t, _, hfacts⟩ := exists_mem_right facts.each hv
      obtain ⟨p, new, hnew, _⟩ := (hevery ⟨message, _, reason, hr⟩).2 v hv heligible
      refine (htried hfacts heligible).mp ?_
      rw [List.append_cancel_left (hfacts.posts_eq.symm.trans hnew)]
      exact List.cons_ne_nil _ _
    · obtain ⟨t, ht, hfacts⟩ := exists_mem_right facts.each (a := last) (by rw [heq]; simp)
      have hok : t.1.ok = true := by
        rw [hfacts.ok_eq, hlast]
        rfl
      obtain ⟨p, hp, hpass⟩ := hfacts.answered_iff.mp hok
      exact .inl ⟨p, hposts ▸ List.mem_flatMap.mpr ⟨t, ht, hp⟩, hpass⟩
  · rintro hor ⟨message, attempts, reason, hr⟩
    rcases facts.ends with ⟨e, _, hraised, _⟩ | ⟨_, _, _, _, hgoOn, hmap⟩ |
      ⟨_, _, response, _, _, _, _, hresponse⟩
    · rw [show r = _ from hraised] at hr
      cases hr
    · refine ⟨hmap, fun v hv heligible => ?_⟩
      obtain ⟨t, ht, hfacts⟩ := exists_mem_right facts.each hv
      rcases hor with ⟨p, hp, hpass⟩ | hnever
      · -- a body that passes would have been served
        rw [hposts] at hp
        obtain ⟨u, hu, hpu⟩ := List.mem_flatMap.mp hp
        obtain ⟨w, hw, hwfacts⟩ := exists_mem_right facts.each.flip hu
        have hok := hwfacts.answered_iff.mpr ⟨p, hpu, hpass⟩
        rw [hwfacts.ok_eq, hgoOn w hw] at hok
        cases hok
      · have hne := (htried hfacts heligible).mpr (hnever v hv heligible)
        obtain ⟨p, new, hnew⟩ := List.exists_cons_of_ne_nil hne
        exact ⟨p, new, by rw [hfacts.posts_eq, hnew], hfacts.posted p (by rw [hnew]; simp)⟩
    · rw [show r.1 = _ from hresponse] at hr
      cases hr

/-- One node is cooling and the other one is busy. -/
theorem every_route_tried_iff_busy :
    let S := Surroundings.still twoNodesEnv busyReply
    let s : ChatState := ⟨.unbudgeted 0, boxCooling⟩
    let r := chat S localRouter coderChat s
    let vs := chatVisits S localRouter coderChat s
    EveryRouteTried S localRouter coderChat 0 r vs ↔
      (∃ p ∈ posts r.2.events, ∃ body, p.reply = .json body ∧ chatResponseError body.val = none) ∨
        ∀ v ∈ vs, Eligible S localRouter 0 v.route →
          0 < localRouter.retry.maxAttempts ∧ ¬ SkipsCooling S localRouter v := by
  intro S
  have hfixed : S.FixedAvailability := fun _ _ _ => rfl
  exact every_route_tried_iff S hfixed localRouter coderChat 0 boxCooling

def CallEnd.isRouterError : CallEnd → Bool
  | .routerError _ _ _ => true
  | _ => false

/-- The second node answers 400, and the first one is never asked. -/
theorem every_route_tried_not :
    let S := Surroundings.still twoNodesEnv (.failed (.http 400 [] (lit "bad request")))
    let s : ChatState := ⟨.unbudgeted 0, boxCooling⟩
    ¬ EveryRouteTried S localRouter coderChat 0 (chat S localRouter coderChat s)
      (chatVisits S localRouter coderChat s) := by
  intro S s hevery
  have hfails : (chat S localRouter coderChat s).1.isRouterError = true := by decide +kernel
  have hraises : ∃ message attempts reason,
      (chat S localRouter coderChat s).1 = .routerError message attempts reason := by
    revert hfails
    cases (chat S localRouter coderChat s).1 with
    | routerError message attempts reason => exact fun _ => ⟨message, attempts, reason, rfl⟩
    | response _ | raised _ | diverged => exact fun h => by cases h
  -- the route that cools down is skipped and posts nothing, though it is eligible
  have hskipped : ((chatVisits S localRouter coderChat s).any fun v =>
      v.route = route "box_gpu" "qwen2.5-coder:7b" && (posts v.after.events).isEmpty) = true := by
    decide +kernel
  obtain ⟨v, hv, hroute⟩ := List.any_eq_true.mp hskipped
  rw [Bool.and_eq_true, decide_eq_true_iff, List.isEmpty_iff] at hroute
  have heligible : Eligible S localRouter 0 v.route := by
    rw [hroute.1]
    exact ⟨selfHosted (lit "box_gpu") (lit "A11OY_MODEL_BASE_URL") (lit "A11OY_GPU_TOKEN"),
      by decide, by decide +kernel, rfl⟩
  obtain ⟨p, new, hposts, _⟩ := (hevery hraises).2 v hv heligible
  rw [hroute.2] at hposts
  exact absurd hposts.symm (by simp)

end SzlRouter
