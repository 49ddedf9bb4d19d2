/-
Logs of events, and the records among them.

Each event of a log is judged by what is before it.  Some events are records; the last one
is what a reader finds, also where the process that wrote the log is stopped at any point.

* `always_concat` — an event that is allowed keeps the log;
* `Adds` — a log that only grew, by events of one kind;
* `Always.honest` — where records fit when they are written, and nothing that is allowed
  after a record belies it, what a reader finds fits whatever was done.
-/
import Mathlib.Data.List.Infix

namespace EventLog

variable {ε δ : Type}

/-- Every event of the log was allowed after the events before it. -/
def Always (Allowed : List ε → ε → Prop) (log : List ε) : Prop :=
  ∀ before e, before ++ [e] <+: log → Allowed before e

section always

variable {Allowed Allowed' : List ε → ε → Prop} {log p : List ε} {e : ε}

theorem always_nil : Always Allowed [] := by
  intro before e h
  exact absurd (List.prefix_nil.mp h) (by simp)

theorem Always.of_prefix (h : Always Allowed log) (hp : p <+: log) : Always Allowed p :=
  fun before e he => h before e (he.trans hp)

theorem always_concat : Always Allowed (log ++ [e]) ↔ Always Allowed log ∧ Allowed log e := by
  constructor
  · intro h
    exact ⟨h.of_prefix (List.prefix_append _ _), h log e List.prefix_rfl⟩
  · rintro ⟨hlog, he⟩ before e' hprefix
    rcases List.prefix_concat_iff.mp hprefix with heq | hprefix
    · obtain ⟨rfl, hlast⟩ := List.append_inj' heq rfl
      obtain rfl := List.singleton_inj.mp hlast
      exact he
    · exact hlog before e' hprefix

end always

/-! ### Logs that grow -/

/-- The second log is the first with events that satisfy `A`. -/
def Adds (A : ε → Prop) (log log' : List ε) : Prop := ∃ new, log' = log ++ new ∧ ∀ e ∈ new, A e

section adds

variable {A A' : ε → Prop} {log log' log'' : List ε} {e : ε}

theorem Adds.refl (A : ε → Prop) (log : List ε) : Adds A log log := ⟨[], by simp, by simp⟩

theorem Adds.concat (h : A e) : Adds A log (log ++ [e]) := ⟨[e], rfl, by simpa using h⟩

theorem Adds.trans (h : Adds A log log') (h' : Adds A log' log'') : Adds A log log'' := by
  obtain ⟨new, rfl, hnew⟩ := h
  obtain ⟨new', rfl, hnew'⟩ := h'
  refine ⟨new ++ new', List.append_assoc .., fun e he => ?_⟩
  rcases List.mem_append.mp he with he | he
  · exact hnew e he
  · exact hnew' e he

theorem Adds.mono (h : Adds A log log') (hA : ∀ e, A e → A' e) : Adds A' log log' := by
  obtain ⟨new, heq, hnew⟩ := h
  exact ⟨new, heq, fun e he => hA e (hnew e he)⟩

/-- What is in a log that started empty satisfies `A`. -/
theorem Adds.forall (h : Adds A [] log) : ∀ e ∈ log, A e := by
  obtain ⟨new, rfl, hnew⟩ := h
  exact hnew

theorem Adds.isPrefix (h : Adds A log log') : log <+: log' := by
  obtain ⟨new, rfl, -⟩ := h
  exact List.prefix_append log new

end adds

/-! ### Records -/

/-- The record that a reader finds after the log. -/
def found (record : ε → Option δ) (log : List ε) : Option δ := (log.filterMap record).getLast?

section found

variable {record : ε → Option δ} {log : List ε} {e : ε} {d : δ}

theorem found_record (h : record e = some d) : found record (log ++ [e]) = some d := by
  rw [found, List.filterMap_append, List.filterMap_cons_some h, List.filterMap_nil,
    List.getLast?_concat]

theorem found_event (h : record e = none) : found record (log ++ [e]) = found record log := by
  rw [found, found, List.filterMap_append, List.filterMap_cons_none h, List.filterMap_nil,
    List.append_nil]

/-- What is found fits what was done: by induction over the log, each record when it is
written and then through the events after it. -/
theorem Always.honest {Allowed : List ε → ε → Prop} {F : List ε → δ → Prop}
    (hrecord : ∀ log e d, Always Allowed log → Allowed log e → record e = some d →
      F (log ++ [e]) d)
    (hevent : ∀ log e d, Always Allowed log → Allowed log e → record e = none →
      found record log = some d → F log d → F (log ++ [e]) d)
    (h : Always Allowed log) (hfound : found record log = some d) : F log d := by
  induction log using List.reverseRecOn generalizing d with
  | nil => cases hfound
  | append_singleton log e ih =>
    obtain ⟨hlog, he⟩ := always_concat.mp h
    cases hd : record e with
    | some d' =>
      rw [found_record hd] at hfound
      exact Option.some.inj hfound ▸ hrecord log e d' hlog he hd
    | none =>
      rw [found_event hd] at hfound
      exact hevent log e d hlog he hd hfound (ih hlog hfound)

end found

end EventLog
