/-
Splitting a text at a separator and joining the parts.

* `join_split` — the parts join to the text;
* `split_join` — parts without the separator are read back;
* `join_concat` — the last part can be taken out of a join.
-/
import SzlRouter.PyStr

namespace Py

namespace Str

theorem join_cons {sep w : Str} {ws : List Str} (h : ws ≠ []) :
    join sep (w :: ws) = w ++ sep ++ join sep ws := by
  cases ws with
  | nil => exact absurd rfl h
  | cons v ws => rfl

/-- The parts join to the text: the separator stood between any two of them, and nowhere else. -/
theorem join_split (c : CodePoint) (s : Str) : join [c] (split c s) = s := by
  induction s with
  | nil => rfl
  | cons x s ih =>
    by_cases hx : x = c
    · rw [hx, split_cons_self, join_cons (split_ne_nil c s), ih]
      rfl
    · obtain ⟨w, ws, hs⟩ := List.exists_cons_of_ne_nil (split_ne_nil c s)
      rw [split_cons_of_ne hx hs]
      rw [hs] at ih
      cases ws with
      | nil => exact congrArg (x :: ·) ih
      | cons v ws => exact congrArg (x :: ·) ih

theorem split_of_not_mem {c : CodePoint} {s : Str} (h : c ∉ s) : split c s = [s] := by
  induction s with
  | nil => rfl
  | cons x s ih =>
    obtain ⟨hne, hrest⟩ := List.ne_and_not_mem_of_not_mem_cons h
    exact split_cons_of_ne (Ne.symm hne) (ih hrest)

/-- Parts without the separator are read back. There has to be one at least, as the empty text
has one part. -/
theorem split_join {c : CodePoint} {ws : List Str} (hne : ws ≠ []) (h : ∀ w ∈ ws, c ∉ w) :
    split c (join [c] ws) = ws := by
  induction ws with
  | nil => exact absurd rfl hne
  | cons w ws ih =>
    have hw := split_of_not_mem (h w List.mem_cons_self)
    cases ws with
    | nil => exact hw
    | cons v ws =>
      have hrest := ih (by simp) fun x hx => h x (List.mem_cons_of_mem _ hx)
      rw [join_cons (by simp), List.append_assoc, List.singleton_append, split_append, hw, hrest]
      rfl

/-- What follows the last part follows the join. -/
theorem join_concat (sep : Str) (ws : List Str) (w t : Str) :
    join sep (ws ++ [w ++ t]) = join sep (ws ++ [w]) ++ t := by
  induction ws with
  | nil => rfl
  | cons v ws ih =>
    rw [List.cons_append, List.cons_append, join_cons (by simp), join_cons (by simp), ih,
      List.append_assoc, List.append_assoc, List.append_assoc]

theorem partition_of_not_mem {c : CodePoint} {s : Str} (h : c ∉ s) :
    partition c s = (s, false, []) := by
  induction s with
  | nil => rfl
  | cons x s ih =>
    obtain ⟨hne, hrest⟩ := List.ne_and_not_mem_of_not_mem_cons h
    rw [partition, if_neg (Ne.symm hne), ih hrest]

theorem partition_append {c : CodePoint} {s : Str} (h : c ∉ s) (t : Str) :
    partition c (s ++ c :: t) = (s, true, t) := by
  induction s with
  | nil => simp [partition]
  | cons x s ih =>
    obtain ⟨hne, hrest⟩ := List.ne_and_not_mem_of_not_mem_cons h
    rw [List.cons_append, partition, if_neg (Ne.symm hne), ih hrest]

theorem not_mem_partition_fst {c : CodePoint} (s : Str) : c ∉ (partition c s).1 := by
  induction s with
  | nil => exact List.not_mem_nil
  | cons x s ih =>
    by_cases hx : x = c
    · simp [partition, hx]
    · rw [partition, if_neg hx, List.mem_cons, not_or]
      exact ⟨Ne.symm hx, ih⟩

/-- The separator occurs exactly when the text is cut. -/
theorem partition_found {c : CodePoint} {s : Str} : (partition c s).2.1 = true ↔ c ∈ s := by
  constructor
  · intro h
    rw [partition_eq_append h]
    simp
  · intro h
    by_contra hnot
    have hmiss : ∀ t : Str, (partition c t).2.1 = false → c ∉ t := by
      intro t
      induction t with
      | nil => intro _; exact List.not_mem_nil
      | cons x t ih =>
        intro ht
        by_cases hx : x = c
        · simp [partition, hx] at ht
        · rw [partition, if_neg hx] at ht
          rw [List.mem_cons, not_or]
          exact ⟨Ne.symm hx, ih ht⟩
    exact hmiss s (by simpa using hnot) h

end Str

end Py
