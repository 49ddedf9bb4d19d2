/-
Hash chains.

A record carries the digest of its body under the digest of the record before
it.  When none of the hashed inputs collide and none hashes to the start, the
last digest determines every record.

* `linked_append` — a chain is a chain and a chain that goes on from its tip;
* `commit` — chains with one tip are one chain;
* `prefix_of_tip_mem` — a chain whose tip occurs in another is its beginning.
-/
import Mathlib.Data.List.Infix

namespace HashChain

variable {D B : Type} (hash : D × B → D)

/-- Every record carries the digest of its body under the digest before it, the first one under
the digest that the chain starts from. -/
def Linked : D → List (B × D) → Prop
  | _, [] => True
  | prev, r :: rs => hash (prev, r.1) = r.2 ∧ Linked r.2 rs

/-- What is hashed for the records. -/
def inputs : D → List (B × D) → List (D × B)
  | _, [] => []
  | prev, r :: rs => (prev, r.1) :: inputs r.2 rs

/-- The last digest, or the start. -/
def tip : D → List (B × D) → D
  | prev, [] => prev
  | _, r :: rs => tip r.2 rs

variable {hash} {start prev : D} {rs ts : List (B × D)} {r : B × D}

theorem tip_append : tip prev (rs ++ ts) = tip (tip prev rs) ts := by
  induction rs generalizing prev with
  | nil => rfl
  | cons r rs ih => exact ih

theorem inputs_append : inputs prev (rs ++ ts) = inputs prev rs ++ inputs (tip prev rs) ts := by
  induction rs generalizing prev with
  | nil => rfl
  | cons r rs ih => exact congrArg _ ih

theorem linked_append :
    Linked hash prev (rs ++ ts) ↔ Linked hash prev rs ∧ Linked hash (tip prev rs) ts := by
  induction rs generalizing prev with
  | nil => exact (true_and _).symm.to_iff
  | cons r rs ih =>
    show _ ∧ Linked hash r.2 (rs ++ ts) ↔ (_ ∧ Linked hash r.2 rs) ∧ _
    rw [ih, and_assoc]
    rfl

theorem tip_concat : tip prev (rs ++ [r]) = r.2 := by
  rw [tip_append]
  rfl

theorem linked_concat :
    Linked hash prev (rs ++ [r]) ↔ Linked hash prev rs ∧ hash (tip prev rs, r.1) = r.2 := by
  rw [linked_append]
  exact and_congr_right fun _ => (and_true _).to_iff

theorem mem_inputs_concat {x : D × B} :
    x ∈ inputs prev (rs ++ [r]) ↔ x ∈ inputs prev rs ∨ x = (tip prev rs, r.1) := by
  rw [inputs_append, List.mem_append]
  exact or_congr_right List.mem_singleton

variable (hash start)

/-- Among the inputs of the two chains there is no collision, and none is hashed to
the start. -/
structure NoCollision (rs ts : List (B × D)) : Prop where
  inj : ∀ x ∈ inputs start rs, ∀ y ∈ inputs start ts, hash x = hash y → x = y
  left : ∀ x ∈ inputs start rs, hash x ≠ start
  right : ∀ y ∈ inputs start ts, hash y ≠ start

variable {hash start}

/-- **Commitment.** The tip determines the chain. By induction from the end: equal tips have
equal bodies and equal predecessors, and in a chain that goes on longer than the other some input
would be hashed to the start. -/
theorem commit (hrs : Linked hash start rs) (hts : Linked hash start ts)
    (h : NoCollision hash start rs ts) (htip : tip start rs = tip start ts) : rs = ts := by
  -- from the last record to the first: equal digests have equal inputs, and these hold the
  -- digest before
  induction rs using List.reverseRecOn generalizing ts with
  | nil =>
    rcases ts.eq_nil_or_concat' with rfl | ⟨ts, r, rfl⟩
    · rfl
    · rw [tip_concat, ← (linked_concat.mp hts).2] at htip
      exact absurd htip.symm (h.right _ (mem_inputs_concat.mpr (.inr rfl)))
  | append_singleton rs r ih =>
    obtain ⟨hrs, hr⟩ := linked_concat.mp hrs
    rcases ts.eq_nil_or_concat' with rfl | ⟨ts, r', rfl⟩
    · rw [tip_concat, ← hr] at htip
      exact absurd htip (h.left _ (mem_inputs_concat.mpr (.inr rfl)))
    · obtain ⟨hts, hr'⟩ := linked_concat.mp hts
      rw [tip_concat, tip_concat] at htip
      have hinput : (tip start rs, r.1) = (tip start ts, r'.1) :=
        h.inj _ (mem_inputs_concat.mpr (.inr rfl)) _ (mem_inputs_concat.mpr (.inr rfl))
          (by rw [hr, hr', htip])
      obtain ⟨hbefore, hbody⟩ := Prod.mk.inj hinput
      have hless : NoCollision hash start rs ts := by
        constructor
        · intro x hx y hy
          exact h.inj x (mem_inputs_concat.mpr (.inl hx)) y (mem_inputs_concat.mpr (.inl hy))
        · intro x hx
          exact h.left x (mem_inputs_concat.mpr (.inl hx))
        · intro y hy
          exact h.right y (mem_inputs_concat.mpr (.inl hy))
      rw [ih hrs hts hless hbefore, Prod.ext hbody htip]

/-- A chain that ends in a digest of another is the beginning of that one. What was cut off stood
at its end, and nothing before that was changed. -/
theorem prefix_of_tip_mem (hrs : Linked hash start rs) (hts : Linked hash start ts)
    (h : NoCollision hash start rs ts) (hr : r ∈ rs) (htip : tip start ts = r.2) : ts <+: rs := by
  obtain ⟨before, after, rfl⟩ := List.append_of_mem hr
  rw [List.append_cons] at hrs h ⊢
  have hbefore : NoCollision hash start (before ++ [r]) ts := by
    have hsub : ∀ x ∈ inputs start (before ++ [r]), x ∈ inputs start (before ++ [r] ++ after) := by
      intro x hx
      rw [inputs_append]
      exact List.mem_append_left _ hx
    exact ⟨fun x hx => h.inj x (hsub x hx), fun x hx => h.left x (hsub x hx), h.right⟩
  rw [← commit (linked_append.mp hrs).1 hts hbefore (by rw [tip_concat, htip])]
  exact List.prefix_append _ _

end HashChain
