/-
Sorting by a key that no two elements share.

Without ties a sort has one possible outcome: the order of the input is
forgotten, and dropping elements commutes with sorting.

* `insertionSort_eq_of_perm` — the order of the input does not matter;
* `insertionSort_filter` — filters commute with sorting.
-/
import Mathlib.Data.List.Sort

namespace KeySort

variable {α β : Type} [LinearOrder β] {key : α → β} {r : α → α → Prop} {l m : List α}

theorem total_of_key (hr : ∀ a b, r a b ↔ key a ≤ key b) : Std.Total r :=
  ⟨fun a b => (le_total (key a) (key b)).imp (hr a b).mpr (hr b a).mpr⟩

theorem trans_of_key (hr : ∀ a b, r a b ↔ key a ≤ key b) : IsTrans α r :=
  ⟨fun a b c hab hbc => (hr a c).mpr (((hr a b).mp hab).trans ((hr b c).mp hbc))⟩

variable [DecidableRel r]

theorem pairwise_insertionSort (hr : ∀ a b, r a b ↔ key a ≤ key b) (l : List α) :
    (l.insertionSort r).Pairwise r := by
  have := total_of_key hr
  have := trans_of_key hr
  exact List.pairwise_insertionSort r l

/-- Sorting forgets the order and nothing else. The order is that of the keys, and the keys are
distinct. -/
theorem insertionSort_eq_of_perm (hr : ∀ a b, r a b ↔ key a ≤ key b) (hl : (l.map key).Nodup)
    (h : l.Perm m) : l.insertionSort r = m.insertionSort r := by
  have hl' := List.perm_insertionSort r l
  have hm' := List.perm_insertionSort r m
  refine (hl'.trans (h.trans hm'.symm)).eq_of_pairwise ?_ (pairwise_insertionSort hr l)
    (pairwise_insertionSort hr m)
  intro a b ha hb hab hba
  have hb' := h.mem_iff.mpr (hm'.mem_iff.mp hb)
  have hkey := le_antisymm ((hr a b).mp hab) ((hr b a).mp hba)
  exact List.inj_on_of_nodup_map hl (hl'.mem_iff.mp ha) hb' hkey

/-- Dropping elements commutes with sorting, as there are no ties to break. -/
theorem insertionSort_filter (hr : ∀ a b, r a b ↔ key a ≤ key b) (hl : (l.map key).Nodup)
    (p : α → Bool) : (l.filter p).insertionSort r = (l.insertionSort r).filter p := by
  have := total_of_key hr
  have := trans_of_key hr
  have hsorted := (pairwise_insertionSort hr l).sublist (List.filter_sublist (p := p))
  rw [← hsorted.insertionSort_eq]
  exact insertionSort_eq_of_perm hr (hl.sublist (List.filter_sublist.map key))
    ((List.perm_insertionSort r l).symm.filter p)

/-- The keys of the outcome grow strictly. -/
theorem pairwise_lt_insertionSort (hr : ∀ a b, r a b ↔ key a ≤ key b) (hl : (l.map key).Nodup) :
    (l.insertionSort r).Pairwise fun a b => key a < key b := by
  have hperm := (List.perm_insertionSort r l).map key
  have hnodup : (l.insertionSort r).Pairwise fun a b => key a ≠ key b :=
    List.pairwise_map.mp (hperm.nodup_iff.mpr hl)
  refine ((pairwise_insertionSort hr l).and hnodup).imp ?_
  rintro a b ⟨hab, hne⟩
  exact lt_of_le_of_ne ((hr a b).mp hab) hne

end KeySort
