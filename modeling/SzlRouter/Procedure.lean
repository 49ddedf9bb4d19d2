/-
Procedures that change a state and may raise.

A procedure is an `EStateM`: the changes made before an exception stay.  Two
ways of reasoning about one are given.  A run that returns is taken apart, call
by call; and what holds at either exit of a procedure is put together from its
calls.

* `bind_eq_ok` — a sequence returns exactly when both of its parts do;
* `Ensures.bind` — the rule for a sequence, at both exits;
* `Moves.bind` — a relation between the states before and after, kept by
  sequences;
* `Computes.bind` — the value of a sequence that does not depend on the state;
* `Answers.bind` — the values that a sequence can return.
-/
import Mathlib.Order.Defs.Unbundled

namespace Procedure

open EStateM (Result)

variable {ε σ α β : Type}

/-- The state at the exit. -/
def final : Result ε σ α → σ
  | .ok _ t => t
  | .error _ t => t

theorem bind_eq_ok {x : EStateM ε σ α} {f : α → EStateM ε σ β} {s u : σ} {b : β} :
    (x >>= f) s = .ok b u ↔ ∃ a t, x s = .ok a t ∧ f a t = .ok b u := by
  show (EStateM.bind x f) s = _ ↔ _
  rw [EStateM.bind]
  cases x s with
  | ok a t =>
    constructor
    · intro h
      exact ⟨a, t, rfl, h⟩
    · rintro ⟨a', t', heq, h⟩
      obtain ⟨rfl, rfl⟩ := Result.ok.inj heq
      exact h
  | error e t =>
    refine iff_of_false (by simp) ?_
    rintro ⟨a, t', heq, _⟩
    exact absurd heq (by simp)

theorem pure_eq_ok {a b : α} {s t : σ} :
    (pure a : EStateM ε σ α) s = .ok b t ↔ a = b ∧ s = t := by
  show Result.ok a s = .ok b t ↔ _
  exact Result.ok.injEq a s b t ▸ Iff.rfl

theorem throw_ne_ok {e : ε} {b : α} {s t : σ} : (throw e : EStateM ε σ α) s ≠ .ok b t := by
  show Result.error e s ≠ .ok b t
  simp

/-- A sequence without a state. -/
theorem except_bind_eq_ok {x : Except ε α} {f : α → Except ε β} {b : β} :
    x >>= f = .ok b ↔ ∃ a, x = .ok a ∧ f a = .ok b := by
  cases x with
  | ok a =>
    constructor
    · intro h
      exact ⟨a, rfl, h⟩
    · rintro ⟨a', heq, h⟩
      obtain rfl := Except.ok.inj heq
      exact h
  | error e =>
    refine iff_of_false (fun h => nomatch h) ?_
    rintro ⟨a, heq, _⟩
    exact nomatch heq

/-- A sequence without a state raises what one of its steps raises. -/
theorem except_bind_eq_error {x : Except ε α} {f : α → Except ε β} {e : ε} :
    x >>= f = .error e ↔ x = .error e ∨ ∃ a, x = .ok a ∧ f a = .error e := by
  cases x with
  | ok a =>
    constructor
    · intro h
      exact .inr ⟨a, rfl, h⟩
    · rintro (h | ⟨a', heq, h⟩)
      · cases h
      · obtain rfl := Except.ok.inj heq
        exact h
  | error e' =>
    constructor
    · intro h
      exact .inl (congrArg Except.error (Except.error.inj h))
    · rintro (h | ⟨a, heq, _⟩)
      · exact congrArg Except.error (Except.error.inj h)
      · cases heq

/-- What a list is mapped to comes from its elements. -/
theorem mem_of_mapM_eq_ok {f : α → Except ε β} {xs : List α} {ys : List β}
    (h : xs.mapM f = .ok ys) {y : β} (hy : y ∈ ys) : ∃ x ∈ xs, f x = .ok y := by
  induction xs generalizing ys with
  | nil =>
    obtain rfl := Except.ok.inj h
    exact absurd hy List.not_mem_nil
  | cons x xs ih =>
    rw [List.mapM_cons] at h
    obtain ⟨z, hz, h⟩ := except_bind_eq_ok.mp h
    obtain ⟨zs, hzs, h⟩ := except_bind_eq_ok.mp h
    obtain rfl := Except.ok.inj h
    rcases List.mem_cons.mp hy with rfl | hmem
    · exact ⟨x, List.mem_cons_self, hz⟩
    · obtain ⟨x', hx', heq⟩ := ih hzs hmem
      exact ⟨x', List.mem_cons_of_mem _ hx', heq⟩

/-- Nothing returns after an exception. -/
theorem throw_bind_ne_ok {e : ε} {f : α → EStateM ε σ β} {b : β} {s t : σ} :
    (throw e >>= f) s ≠ .ok b t := by
  intro h
  obtain ⟨_, _, h, _⟩ := bind_eq_ok.mp h
  exact throw_ne_ok h

/-- A procedure returns to `Q` or raises to `E`. -/
def Ensures (x : EStateM ε σ α) (s : σ) (Q : α → σ → Prop) (E : ε → σ → Prop) : Prop :=
  match x s with
  | .ok a t => Q a t
  | .error e t => E e t

variable {x : EStateM ε σ α} {f : α → EStateM ε σ β} {s : σ} {Q Q' : α → σ → Prop}
  {E E' : ε → σ → Prop} {R : β → σ → Prop}

theorem Ensures.pure {a : α} (h : Q a s) : Ensures (pure a) s Q E := h

theorem Ensures.throw {e : ε} (h : E e s) : Ensures (throw e) s Q E := h

/-- A procedure that reads its state first. -/
theorem Ensures.get {g : σ → EStateM ε σ α} (h : Ensures (g s) s Q E) : Ensures (get >>= g) s Q E :=
  h

/-- A procedure that changes its state first. -/
theorem Ensures.modify {g : σ → σ} {y : EStateM ε σ α} (h : Ensures y (g s) Q E) :
    Ensures (modify g >>= fun _ => y) s Q E := h

theorem Ensures.mono (h : Ensures x s Q E) (hQ : ∀ a t, Q a t → Q' a t)
    (hE : ∀ e t, E e t → E' e t) : Ensures x s Q' E' := by
  rw [Ensures] at h ⊢
  revert h
  cases x s with
  | ok a t => exact hQ a t
  | error e t => exact hE e t

theorem Ensures.mono_error (h : Ensures x s Q E) (hE : ∀ e t, E e t → E' e t) : Ensures x s Q E' :=
  h.mono (fun _ _ hQ => hQ) hE

/-- A sequence: what the first part returns to is where the second starts. What both raise is
under one condition, so an exception of the first part ends the sequence. -/
theorem Ensures.bind (h : Ensures x s Q E) (hf : ∀ a t, Q a t → Ensures (f a) t R E) :
    Ensures (x >>= f) s R E := by
  rw [Ensures] at h ⊢
  show match (EStateM.bind x f) s with | .ok b u => R b u | .error e u => E e u
  rw [EStateM.bind]
  revert h
  cases x s with
  | ok a t => exact fun h => hf a t h
  | error e t => exact id

/-- Both exits at once. -/
theorem Ensures.final {I : σ → Prop} (h : Ensures x s (fun _ t => I t) (fun _ t => I t)) :
    I (Procedure.final (x s)) := by
  rw [Ensures] at h
  revert h
  cases x s <;> exact id

theorem Ensures.of_ok {a : α} {t : σ} (h : Ensures x s Q E) (hx : x s = .ok a t) : Q a t := by
  rw [Ensures, hx] at h
  exact h

theorem Ensures.of_error {e : ε} {t : σ} (h : Ensures x s Q E) (hx : x s = .error e t) : E e t := by
  rw [Ensures, hx] at h
  exact h

/-- What is returned is what the procedure returned. -/
theorem Ensures.returns (h : Ensures x s Q E) :
    Ensures x s (fun a t => Q a t ∧ x s = .ok a t) E := by
  rw [Ensures] at h ⊢
  cases hx : x s with
  | ok a t =>
    rw [hx] at h
    exact ⟨h, rfl⟩
  | error e t =>
    rw [hx] at h
    exact h

/-! ### Relations between the states before and after -/

/-- At either exit the state is related to the one the procedure started in. -/
def Moves (T : σ → σ → Prop) (x : EStateM ε σ α) : Prop :=
  ∀ s, Ensures x s (fun _ t => T s t) (fun _ t => T s t)

variable {T : σ → σ → Prop}

theorem Moves.final (h : Moves T x) (s : σ) : T s (Procedure.final (x s)) := (h s).final

theorem Moves.of_ok (h : Moves T x) {a : α} {s t : σ} (hx : x s = .ok a t) : T s t :=
  (h s).of_ok hx

theorem Moves.of_error (h : Moves T x) {e : ε} {s t : σ} (hx : x s = .error e t) : T s t :=
  (h s).of_error hx

theorem Moves.modify {g : σ → σ} (h : ∀ s, T s (g s)) : Moves T (modify g : EStateM ε σ Unit) :=
  fun s => h s

section preorder

variable [IsPreorder σ T]

theorem Moves.pure (a : α) : Moves T (pure a : EStateM ε σ α) := fun s => Ensures.pure (refl_of T s)

theorem Moves.throw (e : ε) : Moves T (throw e : EStateM ε σ α) :=
  fun s => Ensures.throw (refl_of T s)

theorem Moves.bind (h : Moves T x) (hf : ∀ a, Moves T (f a)) : Moves T (x >>= f) := by
  intro s
  refine (h s).bind ?_
  intro a t hst
  exact (hf a t).mono (fun _ u htu => trans_of T hst htu) (fun _ u htu => trans_of T hst htu)

/-- Nothing runs after an exception. -/
theorem Moves.throw_bind (e : ε) : Moves T ((MonadExcept.throw e : EStateM ε σ α) >>= f) :=
  fun s => Ensures.throw (refl_of T s)

end preorder

theorem Moves.ite {c : Prop} [Decidable c] {y z : EStateM ε σ α} (hy : c → Moves T y)
    (hz : ¬c → Moves T z) : Moves T (if c then y else z) := by
  by_cases hc : c
  · rw [if_pos hc]
    exact hy hc
  · rw [if_neg hc]
    exact hz hc

/-! ### Procedures that compute -/

/-- From every state the procedure returns what is given, and where nothing is given it
raises to `E`. -/
def Computes (E : ε → Prop) (x : EStateM ε σ α) (o : Option α) : Prop :=
  ∀ s, Ensures x s (fun a _ => o = some a) (fun e _ => o = none ∧ E e)

section computes

variable {P : ε → Prop} {o : Option α} {g : α → Option β}

theorem Computes.pure (a : α) : Computes P (pure a : EStateM ε σ α) (some a) :=
  fun _ => Ensures.pure rfl

theorem Computes.throw {e : ε} (h : P e) : Computes P (throw e : EStateM ε σ α) none :=
  fun _ => Ensures.throw ⟨rfl, h⟩

/-- A sequence computes what its parts compute, one after the other. Where the first part has no
result the sequence has none, and the second part is not asked. -/
theorem Computes.bind (h : Computes P x o) (hf : ∀ a, o = some a → Computes P (f a) (g a)) :
    Computes P (x >>= f) (o.bind g) := by
  intro s
  refine ((h s).mono_error ?_).bind ?_
  · rintro e t ⟨rfl, he⟩
    exact ⟨rfl, he⟩
  · intro a t ho
    refine (hf a ho t).mono ?_ ?_
    · intro b u hb
      rw [ho, Option.bind_some, hb]
    · rintro e u ⟨hb, he⟩
      exact ⟨by rw [ho, Option.bind_some, hb], he⟩

end computes

/-! ### Procedures that answer -/

/-- From every state the values returned are those of `A`. -/
def Answers (x : EStateM ε σ α) (A : α → Prop) : Prop := ∀ s a, (∃ t, x s = .ok a t) ↔ A a

section answers

variable {A A' : α → Prop} {B : α → β → Prop}

theorem Answers.pure (a : α) : Answers (pure a : EStateM ε σ α) (· = a) := by
  intro s b
  constructor
  · rintro ⟨t, h⟩
    exact (pure_eq_ok.mp h).1.symm
  · rintro rfl
    exact ⟨s, rfl⟩

theorem Answers.throw (e : ε) : Answers (throw e : EStateM ε σ α) fun _ => False := by
  intro s b
  refine iff_of_false ?_ id
  rintro ⟨t, h⟩
  exact throw_ne_ok h

theorem Answers.congr (h : Answers x A) (hA : ∀ a, A a ↔ A' a) : Answers x A' :=
  fun s a => (h s a).trans (hA a)

/-- A sequence answers what its second part answers to an answer of the first. Nothing is said of
the state, for procedures whose answers are all that counts. -/
theorem Answers.bind (h : Answers x A) (hf : ∀ a, A a → Answers (f a) (B a)) :
    Answers (x >>= f) fun b => ∃ a, A a ∧ B a b := by
  intro s b
  constructor
  · rintro ⟨u, hu⟩
    obtain ⟨a, t, hx, hu⟩ := bind_eq_ok.mp hu
    have ha : A a := (h s a).mp ⟨t, hx⟩
    exact ⟨a, ha, (hf a ha t b).mp ⟨u, hu⟩⟩
  · rintro ⟨a, ha, hb⟩
    obtain ⟨t, hx⟩ := (h s a).mpr ha
    obtain ⟨u, hu⟩ := (hf a ha t b).mpr hb
    exact ⟨u, bind_eq_ok.mpr ⟨a, t, hx, hu⟩⟩

/-- A refusal in front of a procedure. -/
theorem Answers.unless {c : Prop} [Decidable c] {e : ε} {g : β → EStateM ε σ α}
    (h : ¬c → Answers x A) :
    Answers (if c then (MonadExcept.throw e >>= g) else x) fun a => ¬c ∧ A a := by
  intro s a
  by_cases hc : c
  · rw [if_pos hc]
    refine iff_of_false ?_ fun h => h.1 hc
    rintro ⟨t, ht⟩
    exact throw_bind_ne_ok ht
  · rw [if_neg hc, h hc s a]
    exact (and_iff_right hc).symm

end answers

end Procedure
