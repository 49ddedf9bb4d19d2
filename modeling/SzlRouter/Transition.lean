/-
Runs of transition systems.

Two shapes of system occur.  A *machine* is a function from a state and an input
to the next state and an output; its run feeds it a list of inputs.  A
*transition relation* allows several next states, and its runs are lists of
labelled steps.  Each induction over runs is done once here.

* `runs_append` — a run splits at every point;
* `runs_invariant` — what a step preserves holds along a run;
* `runs_history` — the same for a property of the state and the outputs so far;
* `Exec.invariant` — what the allowed steps of a relation preserve holds along
  its runs;
* `Exec.append`, `Exec.split` — runs are put together and taken apart;
* `Interleave.balance` — a counter in the state that threads share, which moves
  with the threads that are at some place, counts them;
* `Interleave.forall_locals` — what every turn keeps for its own thread holds of
  all threads.
-/
import Mathlib.Algebra.Group.Int.Defs
import Mathlib.Data.Int.Cast.Basic
import Mathlib.Data.List.Count
import Mathlib.Tactic.SplitIfs

namespace Transition

section machine

variable {σ ι ο : Type} (step : σ → ι → σ × ο)

/-- Feed a machine a list of inputs, and collect the outputs. -/
def runs : σ → List ι → σ × List ο
  | s, [] => (s, [])
  | s, i :: is =>
    let (s, o) := step s i
    let (s, os) := runs s is
    (s, o :: os)

theorem runs_nil (s : σ) : runs step s [] = (s, []) := rfl

theorem runs_cons (s : σ) (i : ι) (is : List ι) :
    runs step s (i :: is) =
      ((runs step (step s i).1 is).1, (step s i).2 :: (runs step (step s i).1 is).2) := rfl

/-- A run splits at every point: the second part starts where the first one ended, and its
outputs come after. -/
theorem runs_append (s : σ) (is js : List ι) :
    runs step s (is ++ js) =
      ((runs step (runs step s is).1 js).1,
        (runs step s is).2 ++ (runs step (runs step s is).1 js).2) := by
  induction is generalizing s with
  | nil => rfl
  | cons i is ih => rw [List.cons_append, runs_cons, ih, runs_cons, List.cons_append]

variable {step}

/-- What a step preserves holds along a run. The inputs are any, so this is for invariants that
no input can break. -/
theorem runs_invariant {P : σ → Prop} (hstep : ∀ s i, P s → P (step s i).1) {s : σ} (hs : P s)
    (is : List ι) : P (runs step s is).1 := by
  induction is generalizing s with
  | nil => exact hs
  | cons i is ih => exact ih (hstep s i hs)

/-- A property of the state and of the outputs so far, by induction on the run: each step is
given the outputs before it and adds its own. -/
theorem runs_history {P : σ → List ο → Prop}
    (hstep : ∀ s os i, P s os → P (step s i).1 (os ++ [(step s i).2])) {s : σ} {os : List ο}
    (hs : P s os) (is : List ι) : P (runs step s is).1 (os ++ (runs step s is).2) := by
  induction is generalizing s os with
  | nil => simpa [runs_nil] using hs
  | cons i is ih =>
    rw [runs_cons, ← List.singleton_append, ← List.append_assoc]
    exact ih (hstep s os i hs)

end machine

section relation

variable {σ ℓ : Type} (Step : σ → ℓ → σ → Prop)

/-- A run of a labelled transition relation. -/
inductive Exec : σ → List ℓ → σ → Prop
  | nil (s : σ) : Exec s [] s
  | cons {s t u : σ} {l : ℓ} {ls : List ℓ} : Step s l t → Exec t ls u → Exec s (l :: ls) u

variable {Step}

/-- What the allowed steps preserve holds along a run of such steps. The labels tell which steps
are allowed, so a run can be kept to those that meet a condition. -/
theorem Exec.invariant {P : σ → Prop} {Allowed : ℓ → Prop}
    (hstep : ∀ s l t, Allowed l → Step s l t → P s → P t) {s t : σ} {ls : List ℓ}
    (h : Exec Step s ls t) (hls : ∀ l ∈ ls, Allowed l) (hs : P s) : P t := by
  induction h with
  | nil => exact hs
  | cons hl _ ih =>
    obtain ⟨hallowed, hrest⟩ := List.forall_mem_cons.mp hls
    exact ih hrest (hstep _ _ _ hallowed hl hs)

/-- Runs are put together. -/
theorem Exec.append {s t u : σ} {ls ms : List ℓ} (h : Exec Step s ls t) (h' : Exec Step t ms u) :
    Exec Step s (ls ++ ms) u := by
  induction h with
  | nil => exact h'
  | cons hl _ ih => exact .cons hl (ih h')

/-- A run splits at every point. -/
theorem Exec.split {s u : σ} {ls ms : List ℓ} (h : Exec Step s (ls ++ ms) u) :
    ∃ t, Exec Step s ls t ∧ Exec Step t ms u := by
  induction ls generalizing s with
  | nil => exact ⟨s, .nil s, h⟩
  | cons l ls ih =>
    cases h with
    | cons hl hrest =>
      obtain ⟨t, hls, hms⟩ := ih hrest
      exact ⟨t, .cons hl hls, hms⟩

end relation

section threads

/-- Threads over a state they share. -/
structure Threads (σ τ : Type) where
  shared : σ
  locals : List τ

variable {σ τ ℓ : Type} (Start : τ → Prop) (Env : σ → σ → Prop) (Turn : σ → τ → ℓ → σ → τ → Prop)

/-- One step of a system of threads: a new thread, a step of the surroundings, or
a labelled step of one thread. -/
inductive Interleave : Threads σ τ → Option ℓ → Threads σ τ → Prop
  | spawn {s : σ} {ts : List τ} {t : τ} : Start t → Interleave ⟨s, ts⟩ none ⟨s, ts ++ [t]⟩
  | env {s s' : σ} {ts : List τ} : Env s s' → Interleave ⟨s, ts⟩ none ⟨s', ts⟩
  | turn {s s' : σ} {l : ℓ} {before after : List τ} {t t' : τ} : Turn s t l s' t' →
      Interleave ⟨s, before ++ t :: after⟩ (some l) ⟨s', before ++ t' :: after⟩

variable {Start Env Turn}

/-- The first thread. -/
theorem Interleave.first {s : σ} {t : τ} (h : Start t) :
    Interleave Start Env Turn ⟨s, []⟩ none ⟨s, [t]⟩ := by
  show Interleave Start Env Turn ⟨s, []⟩ none ⟨s, [] ++ [t]⟩
  exact .spawn h

/-- A turn of the only thread. -/
theorem Interleave.alone {s s' : σ} {t t' : τ} {l : ℓ} (h : Turn s t l s' t') :
    Interleave Start Env Turn ⟨s, [t]⟩ (some l) ⟨s', [t']⟩ := by
  show Interleave Start Env Turn ⟨s, [] ++ t :: []⟩ (some l) ⟨s', [] ++ t' :: []⟩
  exact .turn h

/-- A counter that every allowed turn moves by the thread's own change of place
counts, off its first value, the threads at that place. -/
theorem Interleave.balance (counter : σ → ℤ) (at_ : τ → Bool) {Allowed : Option ℓ → Prop}
    (hstart : ∀ t, Start t → at_ t = false) (henv : ∀ s s', Env s s' → counter s' = counter s)
    (hturn : ∀ s t l s' t', Allowed (some l) → Turn s t l s' t' →
      counter s' - (if at_ t' then 1 else 0 : ℤ) = counter s - (if at_ t then 1 else 0 : ℤ))
    {x y : Threads σ τ} {ls : List (Option ℓ)} (h : Exec (Interleave Start Env Turn) x ls y)
    (hls : ∀ l ∈ ls, Allowed l) :
    counter y.shared - (y.locals.countP at_ : ℤ) =
      counter x.shared - (x.locals.countP at_ : ℤ) := by
  refine h.invariant (P := fun z => counter z.shared - (z.locals.countP at_ : ℤ) =
    counter x.shared - (x.locals.countP at_ : ℤ)) ?_ hls rfl
  intro u l v hallowed hstep hu
  -- a new thread stands elsewhere, the surroundings keep the counter, and a turn is balanced
  cases hstep with
  | spawn ht =>
    rw [← hu]
    simp [List.countP_append, hstart _ ht]
  | env hs => rw [← hu, henv _ _ hs]
  | turn ht =>
    have hbalance := hturn _ _ _ _ _ hallowed ht
    rw [← hu]
    dsimp only
    rw [List.countP_append, List.countP_append, List.countP_cons, List.countP_cons]
    split_ifs at hbalance ⊢ <;> omega

/-- What every new thread satisfies and every turn keeps for its own thread holds of
all threads. -/
theorem Interleave.forall_locals {P : τ → Prop} (hstart : ∀ t, Start t → P t)
    (hturn : ∀ s t l s' t', Turn s t l s' t' → P t → P t') {x y : Threads σ τ}
    {ls : List (Option ℓ)} (h : Exec (Interleave Start Env Turn) x ls y)
    (hx : ∀ t ∈ x.locals, P t) : ∀ t ∈ y.locals, P t := by
  refine @Exec.invariant _ _ _ (fun z => ∀ t ∈ z.locals, P t) (fun _ => True) ?_ _ _ _ h
    (fun _ _ => trivial) hx
  intro u l v _ hstep hu
  cases hstep with
  | spawn ht =>
    refine List.forall_mem_append.mpr ⟨hu, ?_⟩
    intro t ht'
    rw [List.mem_singleton.mp ht']
    exact hstart _ ht
  | env _ => exact hu
  | turn ht =>
    obtain ⟨hbefore, hrest⟩ := List.forall_mem_append.mp hu
    obtain ⟨hself, hafter⟩ := List.forall_mem_cons.mp hrest
    exact List.forall_mem_append.mpr
      ⟨hbefore, List.forall_mem_cons.mpr ⟨hturn _ _ _ _ _ ht hself, hafter⟩⟩

end threads

end Transition
