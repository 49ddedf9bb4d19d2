/-
The structure of JSON values: how many values one has inside, and how deep.

* `structureMeasure` — the count and the depth are those of the values inside;
* `walk_iff` — what a bounded walk over a value accepts.
-/
import SzlRouter.Json
import SzlRouter.TreeWalk

namespace Py

namespace Json

/-- The values inside an array or an object. -/
def children : Json → List Json
  | .arr xs => xs
  | .obj kvs => kvs.map Prod.snd
  | _ => []

mutual

/-- The number of values, the value itself included. -/
def size : Json → ℕ
  | .arr xs => sizeList xs + 1
  | .obj kvs => sizeFields kvs + 1
  | _ => 1

def sizeList : List Json → ℕ
  | [] => 0
  | x :: xs => size x + sizeList xs

def sizeFields : List (Str × Json) → ℕ
  | [] => 0
  | (_, v) :: kvs => size v + sizeFields kvs

end

mutual

/-- The greatest depth of a value inside; the value itself is at depth 0. -/
def depth : Json → ℕ
  | .arr xs => depthList xs
  | .obj kvs => depthFields kvs
  | _ => 0

def depthList : List Json → ℕ
  | [] => 0
  | x :: xs => max (depth x + 1) (depthList xs)

def depthFields : List (Str × Json) → ℕ
  | [] => 0
  | (_, v) :: kvs => max (depth v + 1) (depthFields kvs)

end

theorem sizeList_eq (xs : List Json) : sizeList xs = (xs.map size).sum := by
  induction xs with
  | nil => rfl
  | cons x xs ih => rw [sizeList, ih, List.map_cons, List.sum_cons]

theorem sizeFields_eq (kvs : List (Str × Json)) :
    sizeFields kvs = ((kvs.map Prod.snd).map size).sum := by
  induction kvs with
  | nil => rfl
  | cons p kvs ih =>
    obtain ⟨k, v⟩ := p
    rw [sizeFields, ih, List.map_cons, List.map_cons, List.sum_cons]

theorem depthList_le (xs : List Json) (d : ℕ) :
    depthList xs ≤ d ↔ ∀ x ∈ xs, depth x + 1 ≤ d := by
  induction xs with
  | nil => simp [depthList]
  | cons x xs ih => rw [depthList, Nat.max_le, ih, List.forall_mem_cons]

theorem depthFields_le (kvs : List (Str × Json)) (d : ℕ) :
    depthFields kvs ≤ d ↔ ∀ x ∈ kvs.map Prod.snd, depth x + 1 ≤ d := by
  induction kvs with
  | nil => simp [depthFields]
  | cons p kvs ih =>
    obtain ⟨k, v⟩ := p
    rw [depthFields, Nat.max_le, ih, List.map_cons, List.forall_mem_cons]

/-- The count and the depth of a value are those of the values inside. -/
def structureMeasure : TreeWalk.Measure children where
  size := size
  depth := depth
  size_eq v := by
    cases v with
    | arr xs => rw [size, sizeList_eq, children]
    | obj kvs => rw [size, sizeFields_eq, children]
    | null | bool | num | str => rfl
  depth_le v d := by
    cases v with
    | arr xs => rw [depth, depthList_le, children]
    | obj kvs => rw [depth, depthFields_le, children]
    | null | bool | num | str => simp [depth, children]

/-- A walk with turns enough for its bound on the nodes accepts what is within both bounds. Each
turn counts one node, so the walk is over before its turns are. -/
theorem walk_iff (maxDepth maxNodes : ℕ) (value : Json) :
    TreeWalk.walk children maxDepth maxNodes (maxNodes + 1) [(value, 0)] 0 = true ↔
      value.depth ≤ maxDepth ∧ value.size ≤ maxNodes :=
  (TreeWalk.walk_walks [(value, 0)] (by omega)).root structureMeasure

end Json

end Py
