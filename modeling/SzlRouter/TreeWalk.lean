/-
Bounded walks over trees with an explicit stack.

A turn takes one pending tree out.  It refuses a tree that lies too deep, and it
refuses when the trees taken and the trees pending are already too many;
otherwise the children become pending.  `Walk` may take any pending tree and put
the children anywhere; `walk` works at the top of a stack.

* `Walk.accepts_iff` — every walk accepts exactly what is within both bounds;
* `walk_walks` — the stack is one of the walks, and it has turns enough;
* `walk_root_iff` — the verdict does not depend on the order.
-/
import Mathlib.Algebra.BigOperators.Group.List.Basic
import Mathlib.Algebra.Order.Ring.Nat
import Mathlib.Data.List.Basic

namespace TreeWalk

variable {α : Type}

/-- The sizes and the depths of trees with the given children; a leaf has depth 0. -/
structure Measure (children : α → List α) where
  size : α → ℕ
  depth : α → ℕ
  size_eq : ∀ v, size v = ((children v).map size).sum + 1
  depth_le : ∀ v d, depth v ≤ d ↔ ∀ c ∈ children v, depth c + 1 ≤ d

variable (children : α → List α) (maxDepth maxNodes : ℕ)

/-- The children of a tree, with their depth. -/
def offspring (value : α) (depth : ℕ) : List (α × ℕ) :=
  (children value).map fun child => (child, depth + 1)

/-- The loop of a walk; the first entry is the top of the stack. -/
def walk (fuel : ℕ) (stack : List (α × ℕ)) (nodes : ℕ) : Bool :=
  match fuel, stack with
  | _, [] => true
  | 0, _ :: _ => false
  | fuel + 1, (value, depth) :: stack =>
    if maxDepth < depth ∨ maxNodes < nodes + 1 + stack.length then false
    else walk fuel ((offspring children value depth).reverse ++ stack) (nodes + 1)

/-- A walk in any order, and its verdict. Which of the pending trees is taken next is left open,
as for a stack, a queue or a set. -/
inductive Walk : List (α × ℕ) → ℕ → Bool → Prop
  | done {nodes : ℕ} : Walk [] nodes true
  | refuse {stack rest : List (α × ℕ)} {value : α} {depth nodes : ℕ}
      (taken : stack.Perm ((value, depth) :: rest))
      (excess : maxDepth < depth ∨ maxNodes < nodes + 1 + rest.length) : Walk stack nodes false
  | visit {stack rest next : List (α × ℕ)} {value : α} {depth nodes : ℕ} {verdict : Bool}
      (taken : stack.Perm ((value, depth) :: rest))
      (under : ¬(maxDepth < depth ∨ maxNodes < nodes + 1 + rest.length))
      (pushed : next.Perm (offspring children value depth ++ rest))
      (walk : Walk next (nodes + 1) verdict) : Walk stack nodes verdict

variable {children} {maxDepth maxNodes}

/-- The trees taken and all that is still to be taken are within the bounds. -/
structure Fits (m : Measure children) (maxDepth maxNodes : ℕ) (stack : List (α × ℕ))
    (nodes : ℕ) : Prop where
  size : nodes + (stack.map fun e => m.size e.1).sum ≤ maxNodes
  depth : ∀ e ∈ stack, e.2 + m.depth e.1 ≤ maxDepth

theorem Measure.size_pos (m : Measure children) (v : α) : 0 < m.size v := by
  rw [m.size_eq]
  exact Nat.succ_pos _

/-- There are at least as many trees to take as there are pending. -/
theorem length_le_size (m : Measure children) (stack : List (α × ℕ)) :
    stack.length ≤ (stack.map fun e => m.size e.1).sum := by
  induction stack with
  | nil => exact Nat.le_refl _
  | cons e stack ih =>
    have := m.size_pos e.1
    simp only [List.length_cons, List.map_cons, List.sum_cons]
    omega

theorem offspring_size (m : Measure children) (value : α) (depth : ℕ) :
    ((offspring children value depth).map fun e => m.size e.1).sum + 1 = m.size value := by
  rw [m.size_eq, offspring, List.map_map]
  rfl

theorem offspring_depth (m : Measure children) {value : α} {depth : ℕ}
    (hdepth : depth ≤ maxDepth) :
    (∀ e ∈ offspring children value depth, e.2 + m.depth e.1 ≤ maxDepth) ↔
      depth + m.depth value ≤ maxDepth := by
  have hvalue := m.depth_le value (maxDepth - depth)
  simp only [offspring, List.forall_mem_map]
  constructor
  · intro h
    have hle := hvalue.mpr fun c hc => by
      have := h c hc
      omega
    omega
  · intro h c hc
    have := hvalue.mp (by omega) c hc
    omega

/-- Taking a tree that is not too deep and pushing its children changes nothing. -/
theorem fits_visit (m : Measure children) {stack rest next : List (α × ℕ)} {value : α}
    {depth nodes : ℕ} (taken : stack.Perm ((value, depth) :: rest)) (hdepth : depth ≤ maxDepth)
    (pushed : next.Perm (offspring children value depth ++ rest)) :
    Fits m maxDepth maxNodes next (nodes + 1) ↔ Fits m maxDepth maxNodes stack nodes := by
  have hsize := offspring_size m value depth
  have htaken := (taken.map fun e => m.size e.1).sum_eq
  have hpushed := (pushed.map fun e => m.size e.1).sum_eq
  simp only [List.map_cons, List.sum_cons] at htaken
  rw [List.map_append, List.sum_append] at hpushed
  -- the depth of a node bounds that of its children by one less
  have hoffspring := @offspring_depth _ _ _ m value depth hdepth
  constructor
  · intro h
    refine ⟨?_, fun e he => ?_⟩
    · have := h.size
      omega
    · rcases List.mem_cons.mp (taken.mem_iff.mp he) with rfl | he
      · exact hoffspring.mp fun c hc => h.depth c (pushed.mem_iff.mpr (List.mem_append_left _ hc))
      · exact h.depth e (pushed.mem_iff.mpr (List.mem_append_right _ he))
  · intro h
    refine ⟨?_, fun e he => ?_⟩
    · have := h.size
      omega
    · rcases List.mem_append.mp (pushed.mem_iff.mp he) with he | he
      · exact hoffspring.mpr (h.depth (value, depth) (taken.mem_iff.mpr List.mem_cons_self)) e he
      · exact h.depth e (taken.mem_iff.mpr (List.mem_cons_of_mem _ he))

/-- The early test refuses nothing that is within the bounds. -/
theorem not_fits_of_over (m : Measure children) {stack rest : List (α × ℕ)} {value : α}
    {depth nodes : ℕ} (taken : stack.Perm ((value, depth) :: rest))
    (excess : maxDepth < depth ∨ maxNodes < nodes + 1 + rest.length) :
    ¬Fits m maxDepth maxNodes stack nodes := by
  intro h
  rcases excess with hdeep | hmany
  · have := h.depth (value, depth) (taken.mem_iff.mpr List.mem_cons_self)
    omega
  · have := h.size
    have := length_le_size m stack
    have := taken.length_eq
    rw [List.length_cons] at this
    omega

/-- Every walk accepts exactly what is within both bounds, in whatever order it takes the pending
trees. By induction on the walk, where each step keeps what fits. -/
theorem Walk.accepts_iff (m : Measure children) {stack : List (α × ℕ)} {nodes : ℕ}
    {verdict : Bool} (h : Walk children maxDepth maxNodes stack nodes verdict)
    (hnodes : nodes ≤ maxNodes) : verdict = true ↔ Fits m maxDepth maxNodes stack nodes := by
  induction h with
  | done => exact iff_of_true rfl ⟨by simpa using hnodes, by simp⟩
  | refuse taken excess => exact iff_of_false (by simp) (not_fits_of_over m taken excess)
  | visit taken under pushed _ ih =>
    rw [ih (by omega), fits_visit m taken (by omega) pushed]

/-- The stack is one of the walks: every turn takes one tree, so there are turns enough. A queue
would be another one. -/
theorem walk_walks {fuel nodes : ℕ} (stack : List (α × ℕ)) (hfuel : maxNodes < nodes + fuel) :
    Walk children maxDepth maxNodes stack nodes
      (walk children maxDepth maxNodes fuel stack nodes) := by
  induction fuel generalizing stack nodes with
  | zero =>
    cases stack with
    | nil => exact .done
    | cons e stack => exact .refuse (.refl _) (.inr (by omega))
  | succ fuel ih =>
    match stack with
    | [] => exact .done
    | (value, depth) :: stack =>
      rw [walk]
      split
      · next excess => exact .refuse (.refl _) excess
      · next under =>
        exact .visit (.refl _) under ((List.reverse_perm _).append_right stack)
          (ih _ (by omega))

/-- A walk from a root accepts exactly the trees within both bounds. -/
theorem Walk.root (m : Measure children) {value : α} {verdict : Bool}
    (h : Walk children maxDepth maxNodes [(value, 0)] 0 verdict) :
    verdict = true ↔ m.depth value ≤ maxDepth ∧ m.size value ≤ maxNodes := by
  rw [h.accepts_iff m (Nat.zero_le _)]
  constructor
  · intro hfits
    have := hfits.size
    have := hfits.depth (value, 0) List.mem_cons_self
    simp only [List.map_cons, List.map_nil, List.sum_cons, List.sum_nil] at *
    omega
  · rintro ⟨hdepth, hsize⟩
    exact ⟨by simpa using hsize, by simpa using hdepth⟩

/-- The verdict of a walk does not depend on its order, since it is that of the bounds on the
tree itself. -/
theorem walk_root_iff (m : Measure children) {value : α} {verdict : Bool} :
    Walk children maxDepth maxNodes [(value, 0)] 0 verdict ↔
      verdict = decide (m.depth value ≤ maxDepth ∧ m.size value ≤ maxNodes) := by
  constructor
  · intro h
    rw [Bool.eq_iff_iff, decide_eq_true_iff]
    exact h.root m
  · rintro rfl
    have hstack := @walk_walks _ children maxDepth maxNodes (maxNodes + 1) 0 [(value, 0)] (by omega)
    rwa [show walk children maxDepth maxNodes (maxNodes + 1) [(value, 0)] 0 = _ from
      Bool.eq_iff_iff.mpr ((hstack.root m).trans decide_eq_true_iff.symm)] at hstack

end TreeWalk
