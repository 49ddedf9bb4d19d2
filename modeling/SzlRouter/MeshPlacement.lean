/-
Where the mesh coordinator places a call.

The picker sorts one class of workers: the reachable sovereign ones, else the
reachable tailnet GPUs, else it answers with the failover.  A `proxy` call walks
what one picker answered, so whichever worker serves it in the end, the tier it
reports is one of that worker's class.

* `placement` — what `pick_order` returns;
* `placement_sound` — this, and what holds of every call in every run;
* `fair_iff` — when equally loaded workers come first in turn.
-/
import SzlRouter.MeshCoordinator

namespace SzlRouter

namespace Mesh

open Py Transition

variable {W : Type} (M : Coordinator W) (r : Reading W)

/-! ### The picker -/

instance (rr : ℕ) (pool : List W) : Std.Total (Ahead M r rr pool) := by
  constructor
  intro v w
  simp only [Ahead]
  omega

instance (rr : ℕ) (pool : List W) : IsTrans W (Ahead M r rr pool) := by
  constructor
  intro u v w
  simp only [Ahead]
  omega

theorem perm_leastConnections (rr : ℕ) (pool : List W) : (leastConnections M r rr pool).Perm pool :=
  List.perm_insertionSort _ _

theorem pairwise_leastConnections (rr : ℕ) (pool : List W) :
    (leastConnections M r rr pool).Pairwise fun v w => r.inflight v ≤ r.inflight w := by
  refine (List.pairwise_insertionSort (Ahead M r rr pool) pool).imp ?_
  intro v w h
  rcases h with hlt | ⟨heq, _⟩
  · exact hlt.le
  · exact heq.le

/-- A sovereign worker that can be reached. -/
def Sovereign (w : W) : Prop := (M.worker w).sovereign = true ∧ r.reachable w = true

/-- A tailnet GPU that is not sovereign and can be reached. -/
def Tailnet (w : W) : Prop :=
  (M.worker w).sovereign = false ∧ (M.worker w).kind = lit "tailnet-gpu" ∧ r.reachable w = true

instance : DecidablePred (Sovereign M r) := fun _ => inferInstanceAs (Decidable (_ ∧ _))

instance : DecidablePred (Tailnet M r) := fun _ => inferInstanceAs (Decidable (_ ∧ _))

/-- The failover, when it can be reached. -/
def reachableFailover : List W := M.failover.toList.filter r.reachable

/-- The workers of the registry in a class, each as often as it is registered, by
nondecreasing load. -/
structure Ranked (P : W → Prop) [DecidablePred P] (order : List W) : Prop where
  exact : order.Perm (M.workers.filter fun w => P w)
  sorted : order.Pairwise fun v w => r.inflight v ≤ r.inflight w

/-- What a picker answers: the first class that has a member, and the tier that the number
of sovereign workers calls for. -/
structure Placement (order : List W) (tier : Str) : Prop where
  sovereign : (∃ w ∈ M.workers, Sovereign M r w) → Ranked M r (Sovereign M r) order
  tailnet : (∀ w ∈ M.workers, ¬Sovereign M r w) → (∃ w ∈ M.workers, Tailnet M r w) →
    Ranked M r (Tailnet M r) order
  failover : (∀ w ∈ M.workers, ¬Sovereign M r w) → (∀ w ∈ M.workers, ¬Tailnet M r w) →
    order = reachableFailover M r
  reachable : ∀ w ∈ order, r.reachable w = true
  live : tier = tierMeshLive ↔ 2 ≤ M.workers.countP fun w => Sovereign M r w
  degraded : tier = tierMeshDegraded ↔ (M.workers.countP fun w => Sovereign M r w) = 1
  fallback : tier = tierMeshTailnet ∨ tier = tierHfFailover →
    ∀ w ∈ M.workers, ¬Sovereign M r w

/-- The lists that the picker reads are the classes. -/
theorem reachableSovereign_eq :
    reachableSovereign M r = M.workers.filter fun w => Sovereign M r w := by
  refine List.filter_congr fun w _ => ?_
  rw [Bool.eq_iff_iff, Bool.and_eq_true, decide_eq_true_iff, Sovereign]

theorem reachableTailnetNonsovereign_eq :
    reachableTailnetNonsovereign M r = M.workers.filter fun w => Tailnet M r w := by
  refine List.filter_congr fun w _ => ?_
  rw [Bool.eq_iff_iff, decide_eq_true_iff, Tailnet]
  simp only [Bool.and_eq_true, Bool.not_eq_true', decide_eq_true_iff]
  tauto

theorem reachableSovereign_eq_nil :
    reachableSovereign M r = [] ↔ ∀ w ∈ M.workers, ¬Sovereign M r w := by
  rw [reachableSovereign_eq, List.filter_eq_nil_iff]
  simp

theorem reachableTailnetNonsovereign_eq_nil :
    reachableTailnetNonsovereign M r = [] ↔ ∀ w ∈ M.workers, ¬Tailnet M r w := by
  rw [reachableTailnetNonsovereign_eq, List.filter_eq_nil_iff]
  simp

theorem length_reachableSovereign :
    (reachableSovereign M r).length = M.workers.countP fun w => Sovereign M r w := by
  rw [reachableSovereign_eq, List.countP_eq_length_filter]

theorem sovereign_of_mem {w : W} (h : w ∈ reachableSovereign M r) : Sovereign M r w := by
  rw [reachableSovereign_eq] at h
  simpa using (List.mem_filter.mp h).2

theorem tailnet_of_mem {w : W} (h : w ∈ reachableTailnetNonsovereign M r) : Tailnet M r w := by
  rw [reachableTailnetNonsovereign_eq] at h
  simpa using (List.mem_filter.mp h).2

/-- `pick_order` while a sovereign worker is reachable. -/
theorem pickOrder_sovereign (rr : ℕ) (h : reachableSovereign M r ≠ []) :
    pickOrder M r rr = (leastConnections M r (rr + 1) (reachableSovereign M r),
      if 2 ≤ (reachableSovereign M r).length then tierMeshLive else tierMeshDegraded, rr + 1) := by
  rw [pickOrder, if_pos h]

/-- `pick_order` while only tailnet GPUs are reachable. -/
theorem pickOrder_tailnet (rr : ℕ) (h : reachableSovereign M r = [])
    (ht : reachableTailnetNonsovereign M r ≠ []) :
    pickOrder M r rr = (leastConnections M r (rr + 1) (reachableTailnetNonsovereign M r),
      tierMeshTailnet, rr + 1) := by
  rw [pickOrder, if_neg (not_not.mpr h), if_pos ht]

/-- `pick_order` while neither class is reachable. -/
theorem pickOrder_failover (rr : ℕ) (h : reachableSovereign M r = [])
    (ht : reachableTailnetNonsovereign M r = []) :
    pickOrder M r rr = (reachableFailover M r, tierHfFailover, rr) := by
  rw [pickOrder, if_neg (not_not.mpr h), if_neg (not_not.mpr ht), reachableFailover]
  cases M.failover with
  | none => rfl
  | some w => by_cases hw : r.reachable w = true <;> simp [hw]

theorem tailnet_ne : tierMeshTailnet ≠ tierMeshLive ∧ tierMeshTailnet ≠ tierMeshDegraded := by
  decide

theorem failover_ne : tierHfFailover ≠ tierMeshLive ∧ tierHfFailover ≠ tierMeshDegraded ∧
    tierHfFailover ≠ tierMeshTailnet := by
  decide

theorem live_ne : tierMeshLive ≠ tierMeshDegraded ∧ tierMeshLive ≠ tierMeshTailnet ∧
    tierMeshLive ≠ tierHfFailover := by
  decide

theorem degraded_ne : tierMeshDegraded ≠ tierMeshLive ∧ tierMeshDegraded ≠ tierMeshTailnet ∧
    tierMeshDegraded ≠ tierHfFailover := by
  decide

/-- The sort keeps the class and orders it by load. -/
theorem ranked_leastConnections {P : W → Prop} [DecidablePred P] (rr : ℕ) {pool : List W}
    (hpool : pool = M.workers.filter fun w => P w) :
    Ranked M r P (leastConnections M r rr pool) :=
  ⟨hpool ▸ perm_leastConnections M r rr pool, pairwise_leastConnections M r rr pool⟩

theorem placement (rr : ℕ) :
    Placement M r (pickOrder M r rr).1 (pickOrder M r rr).2.1 := by
  have hlength := length_reachableSovereign M r
  -- the three tiers in the order of the source: sovereign, tailnet, failover
  by_cases h : reachableSovereign M r = []
  · have hnone := (reachableSovereign_eq_nil M r).mp h
    have hzero : (M.workers.countP fun w => Sovereign M r w) = 0 := by
      rw [← hlength, h]
      rfl
    by_cases ht : reachableTailnetNonsovereign M r = []
    · rw [pickOrder_failover M r rr h ht]
      constructor
      · rintro ⟨w, hw, hsovereign⟩
        exact absurd hsovereign (hnone w hw)
      · rintro _ ⟨w, hw, htailnet⟩
        exact absurd htailnet ((reachableTailnetNonsovereign_eq_nil M r).mp ht w hw)
      · intro _ _
        rfl
      · intro w hw
        exact (List.mem_filter.mp hw).2
      · simp [hzero, failover_ne]
      · simp [hzero, failover_ne]
      · intro _
        exact hnone
    · rw [pickOrder_tailnet M r rr h ht]
      constructor
      · rintro ⟨w, hw, hsovereign⟩
        exact absurd hsovereign (hnone w hw)
      · intro _ _
        exact ranked_leastConnections M r _ (reachableTailnetNonsovereign_eq M r)
      · intro _ hnil
        exact absurd ((reachableTailnetNonsovereign_eq_nil M r).mpr hnil) ht
      · intro w hw
        exact (tailnet_of_mem M r ((perm_leastConnections M r _ _).subset hw)).2.2
      · simp [hzero, tailnet_ne]
      · simp [hzero, tailnet_ne]
      · intro _
        exact hnone
  · rw [pickOrder_sovereign M r rr h]
    have hpos : 0 < (reachableSovereign M r).length := List.length_pos_iff.mpr h
    have hsome : ¬∀ w ∈ M.workers, ¬Sovereign M r w :=
      fun hnone => h ((reachableSovereign_eq_nil M r).mpr hnone)
    constructor
    · intro _
      exact ranked_leastConnections M r _ (reachableSovereign_eq M r)
    · intro hnone
      exact absurd hnone hsome
    · intro hnone
      exact absurd hnone hsome
    · intro w hw
      exact (sovereign_of_mem M r ((perm_leastConnections M r _ _).subset hw)).2
    -- two reachable ones make the tier live
    · rw [← hlength]
      split_ifs with htwo
      · simpa using htwo
      · simpa [degraded_ne] using htwo
    · rw [← hlength]
      split_ifs with htwo
      · simp only [live_ne, false_iff]
        omega
      · simp only [true_iff]
        omega
    · split_ifs <;> simp [live_ne, degraded_ne]

/-! ### What a call is placed on -/

/-- A worker of the class its tier names: a sovereign one for the sovereign tiers, and one that
is not sovereign for the tailnet tier. The failover names no class. -/
structure Placed (tier : Str) (w : W) : Prop where
  sovereign : tier = tierMeshLive ∨ tier = tierMeshDegraded → (M.worker w).sovereign = true
  tailnet : tier = tierMeshTailnet → (M.worker w).sovereign = false

theorem pickOrder_placed (rr : ℕ) :
    ∀ w ∈ (pickOrder M r rr).1, Placed M (pickOrder M r rr).2.1 w := by
  intro w hw
  by_cases h : reachableSovereign M r = []
  · by_cases ht : reachableTailnetNonsovereign M r = []
    · rw [pickOrder_failover M r rr h ht]
      exact ⟨by simp [failover_ne], by simp [failover_ne]⟩
    · rw [pickOrder_tailnet M r rr h ht] at hw ⊢
      exact ⟨by simp [tailnet_ne], fun _ =>
        (tailnet_of_mem M r ((perm_leastConnections M r _ _).subset hw)).1⟩
  · rw [pickOrder_sovereign M r rr h] at hw ⊢
    have hsovereign := (sovereign_of_mem M r ((perm_leastConnections M r _ _).subset hw)).1
    constructor
    · intro _
      exact hsovereign
    · dsimp only
      split_ifs <;> simp [live_ne, degraded_ne]

/-- What holds of a call that was placed: it walks, dispatches on and is served by
workers of the class its tier names, and an answer reports the worker that served it. -/
def Call.Placed : Call W → Prop
  | .begun | .raised .. => True
  | .walking tier order _ => ∀ w ∈ order, Mesh.Placed M tier w
  | .dispatching tier w later _ => ∀ v ∈ w :: later, Mesh.Placed M tier v
  | .answered tier w later attempts reply => (∀ v ∈ w :: later, Mesh.Placed M tier v) ∧
      ∃ earlier a, attempts = earlier ++ [a] ∧ a.ok = true ∧ a.worker = (M.worker w).name ∧
        a.status = some reply.status
  | .returned status headers body attempts => ∃ (tier : Str) (w : W) (reply : Reply),
      Mesh.Placed M tier w ∧ status = reply.status ∧
      headers = outHeaders reply.headers (M.worker w) tier ∧
      injectProvenance reply.raw (M.worker w) tier attempts = some body ∧
      ∃ earlier a, attempts = earlier ++ [a] ∧ a.ok = true ∧ a.worker = (M.worker w).name ∧
        a.status = some status

section runs

variable [DecidableEq W]

/-- A turn of a call keeps what holds of it. -/
theorem turn_placed {m m' : Load W} {c c' : Call W} {e : Event} (h : Turn M m c e m' c')
    (hc : c.Placed M) : c'.Placed M := by
  cases h with
  | refreshRaises | addressRaises | exhausted => exact True.intro
  | picks r =>
    rw [afterPick]
    split_ifs
    · trivial
    · exact pickOrder_placed M r m.rr
  | dispatches => exact hc
  | fails | refused =>
    intro v hv
    exact hc v (List.mem_cons_of_mem _ hv)
  | answers ms hstatus => exact ⟨hc, _, _, rfl, rfl, rfl, rfl⟩
  | delivers hbody =>
    obtain ⟨hplaced, hlast⟩ := hc
    exact ⟨_, _, _, hplaced _ List.mem_cons_self, rfl, rfl, hbody, hlast⟩
  | decorationRaises error ms =>
    intro v hv
    exact hc.1 v (List.mem_cons_of_mem _ hv)

/-- **Placement order.** A picker answers with the first class of workers that is
reachable, sorted by load; in every run of concurrent calls, over every sequence of
failures, the worker that serves a call is of the class its tier names. -/
theorem placement_sound :
    (∀ (r : Reading W) (rr : ℕ), Placement M r (pickOrder M r rr).1 (pickOrder M r rr).2.1) ∧
    ∀ (m : Load W) (s : Threads (Load W) (Call W)) (events : List (Option Event)),
      Exec (System M) ⟨m, []⟩ events s → ∀ c ∈ s.locals, c.Placed M := by
  constructor
  · intro r rr
    exact placement M r rr
  · intro m s events h
    refine Interleave.forall_locals ?_ ?_ h ?_
    · rintro c rfl
      trivial
    · intro m c e m' c' hturn hc
      exact turn_placed M hturn hc
    · simp

end runs

/-- Of two tailnet GPUs the first fails, and the call is served by the second. -/
theorem placement_sound_failover :
    ∃ (M : Coordinator Bool) (s : Threads (Load Bool) (Call Bool)) (events : List (Option Event)),
      Exec (System M) ⟨⟨fun _ => true, fun _ => 0, 0⟩, []⟩ events s ∧
        ∃ headers attempts, s.locals = [.returned 200 headers [] attempts] ∧
          attempts.map Attempt.ok = [false, true] ∧ ∀ c ∈ s.locals, c.Placed M := by
  let M : Coordinator Bool := ⟨fun b => ⟨if b then lit "chaski" else lit "wasi",
    lit "http://box.example/v1", false, lit "tailnet-gpu", lit "self-hosted", [], [], []⟩,
    [true, false], none, fun _ => some (lit "box.example", 80, false, lit "/v1")⟩
  let r : Reading Bool := ⟨fun _ => true, fun _ => 0, fun _ => []⟩
  let m : Load Bool := ⟨fun _ => true, fun _ => 0, 1⟩
  let lost : Attempt := ⟨lit "wasi", lit "http://box.example/v1", false, none,
    some (lit "timed out"), some 7⟩
  let served : Attempt := ⟨lit "chaski", lit "http://box.example/v1", true, some 200, none, some 9⟩
  have hpick : pickOrder M r 0 = ([false, true], tierMeshTailnet, 1) := by decide
  have hpicks : Turn M ⟨fun _ => true, fun _ => 0, 0⟩ .begun .picks m
      (.walking tierMeshTailnet [false, true] []) := by
    have := Turn.picks (M := M) (m := ⟨fun _ => true, fun _ => 0, 0⟩) r
    rw [hpick] at this
    exact this
  have hbody : injectProvenance [] (M.worker true) tierMeshTailnet [lost, served] = some [] := by
    decide
  -- the first worker fails, and the second one answers
  have hrun : Exec (System M) ⟨⟨fun _ => true, fun _ => 0, 0⟩, []⟩
      [none, some .picks, some .dispatches, some .fails, some .dispatches, some .answers,
        some .delivers] ⟨(((m.move false 1).move false (-1)).move true 1).move true (-1),
          [.returned 200 (outHeaders [] (M.worker true) tierMeshTailnet) [] [lost, served]]⟩ := by
    have hanswers : ∀ x, Turn M x (.dispatching tierMeshTailnet true [] [lost]) .answers
        (x.move true (-1)) (.answered tierMeshTailnet true [] [lost, served] ⟨200, [], []⟩) :=
      fun x => @Turn.answers Bool _ M x tierMeshTailnet true [] [lost] ⟨200, [], []⟩ 9 (by decide)
    refine .cons (Interleave.first rfl) (.cons (Interleave.alone hpicks) ?_)
    refine .cons (Interleave.alone (.dispatches rfl)) ?_
    refine .cons (Interleave.alone (.fails (lit "timed out") 7)) ?_
    refine .cons (Interleave.alone (.dispatches rfl)) (.cons (Interleave.alone (hanswers _)) ?_)
    exact .cons (Interleave.alone (.delivers hbody)) (.nil _)
  refine ⟨M, _, _, hrun, _, _, rfl, rfl, ?_⟩
  exact (placement_sound M).2 _ _ _ hrun

/-! ### Turns of equally loaded workers -/

/-- `n` calls of `pick_order` in a row. -/
def picks (rr : ℕ) : ℕ → List (List W)
  | 0 => []
  | n + 1 => (pickOrder M r rr).1 :: picks (pickOrder M r rr).2.2 n

/-- The places of workers in the registry, as the rotation over `live` tells them apart. -/
def residues (live : List W) : List ℕ := live.map fun w => index M r w % live.length

/-- Each worker of `live` comes first exactly once in `live.length` calls, wherever
the rotation starts. -/
def Fair [DecidableEq W] (live : List W) : Prop :=
  ∀ rr, ∀ w ∈ live, (picks M r rr live.length).countP (fun order => order.head? = some w) = 1

theorem picks_eq (h : reachableSovereign M r ≠ []) (rr n : ℕ) :
    picks M r rr n =
      (List.range n).map fun j => leastConnections M r (rr + 1 + j) (reachableSovereign M r) := by
  induction n generalizing rr with
  | zero => rfl
  | succ n ih =>
    rw [picks, pickOrder_sovereign M r rr h, ih, List.range_succ_eq_map, List.map_cons,
      List.map_map]
    congr 1
    refine List.map_congr_left fun j _ => ?_
    rw [Function.comp_apply, Nat.succ_eq_add_one, add_right_comm rr 1 1, add_assoc (rr + 1) 1 j,
      add_comm 1 j]

/-- When as many turns are taken as there are workers, each has one turn if and only if
no turn repeats. -/
theorem one_turn_each {α : Type} [BEq α] [LawfulBEq α] {turns live : List α}
    (hlength : turns.length = live.length) (hsubset : turns ⊆ live) :
    (∀ w ∈ live, turns.count w = 1) ↔ turns.Nodup := by
  constructor
  · intro hone
    rw [List.nodup_iff_count_le_one]
    intro w
    by_cases hw : w ∈ turns
    · exact (hone w (hsubset hw)).le
    · rw [List.count_eq_zero_of_not_mem hw]
      exact zero_le_one
  · intro hnodup w hw
    have hperm : turns.Perm live :=
      (List.subperm_of_subset hnodup hsubset).perm_of_length_le hlength.ge
    exact List.count_eq_one_of_mem hnodup (hperm.symm.subset hw)

variable {M r}

/-- The worker that comes first among equally loaded ones is one of the least rotation. -/
theorem head_least {rr : ℕ} {live : List W} {v w : W}
    (hload : ∀ v ∈ live, ∀ w ∈ live, r.inflight v = r.inflight w)
    (hv : (leastConnections M r rr live).head? = some v) (hw : w ∈ live) :
    rotation M r rr live v ≤ rotation M r rr live w := by
  obtain ⟨rest, hrest⟩ := List.head?_eq_some_iff.mp hv
  have hperm := perm_leastConnections M r rr live
  have hmem : v ∈ live := hperm.subset (hrest ▸ List.mem_cons_self)
  have hsorted : (leastConnections M r rr live).Pairwise (Ahead M r rr live) :=
    List.pairwise_insertionSort _ _
  rw [hrest] at hsorted hperm
  rcases List.mem_cons.mp (hperm.symm.subset hw) with rfl | hlater
  · exact le_rfl
  · rcases (List.pairwise_cons.mp hsorted).1 w hlater with hlt | ⟨_, hle⟩
    · exact absurd (hload v hmem w hw) hlt.ne
    · exact hle

/-- With the residues distinct, the worker that comes first is the one of rotation 0. -/
theorem head_rotation {rr : ℕ} {live : List W} {v : W}
    (hload : ∀ v ∈ live, ∀ w ∈ live, r.inflight v = r.inflight w)
    (hresidues : (residues M r live).Nodup)
    (hv : (leastConnections M r rr live).head? = some v) : rotation M r rr live v = 0 := by
  have hmem : v ∈ live :=
    (perm_leastConnections M r rr live).subset (List.mem_of_mem_head? (Option.mem_def.mpr hv))
  have hpos : 0 < live.length := List.length_pos_of_mem hmem
  -- the rotation moves the residues injectively, so it takes every value below the length
  have hrotations : (live.map (rotation M r rr live)).Nodup := by
    have hmap : live.map (rotation M r rr live) =
        (residues M r live).map fun x => (x + rr) % live.length := by
      rw [residues, List.map_map]
      refine List.map_congr_left fun w _ => ?_
      rw [rotation, max_eq_left hpos, Function.comp_apply, Nat.mod_add_mod]
    rw [hmap]
    refine hresidues.map_on ?_
    intro x hx y hy hxy
    have hlt : ∀ z ∈ residues M r live, z < live.length := by
      intro z hz
      obtain ⟨w, _, rfl⟩ := List.mem_map.mp hz
      exact Nat.mod_lt _ hpos
    have hmod : x ≡ y [MOD live.length] := Nat.ModEq.add_right_cancel' rr hxy
    exact hmod.eq_of_lt_of_lt (hlt x hx) (hlt y hy)
  have hsubset : live.map (rotation M r rr live) ⊆ List.range live.length := by
    intro z hz
    obtain ⟨w, _, rfl⟩ := List.mem_map.mp hz
    rw [List.mem_range, rotation, max_eq_left hpos]
    exact Nat.mod_lt _ hpos
  have hperm := (List.subperm_of_subset hrotations hsubset).perm_of_length_le (by simp)
  obtain ⟨w, hw, hzero⟩ := List.mem_map.mp (hperm.symm.subset (List.mem_range.mpr hpos))
  have hle := head_least hload hv hw
  omega

theorem turns_nodup {rr : ℕ} {live : List W} (hne : live ≠ [])
    (hload : ∀ v ∈ live, ∀ w ∈ live, r.inflight v = r.inflight w)
    (hresidues : (residues M r live).Nodup) :
    ((List.range live.length).map fun j =>
      (leastConnections M r (rr + 1 + j) live).head?).Nodup := by
  refine List.nodup_range.map_on ?_
  intro i hi j hj hij
  rw [List.mem_range] at hi hj
  have hpos : 0 < live.length := List.length_pos_iff.mpr hne
  have hcons : leastConnections M r (rr + 1 + i) live ≠ [] := by
    intro hnil
    have hlength := (perm_leastConnections M r (rr + 1 + i) live).length_eq
    rw [hnil] at hlength
    exact absurd hlength hpos.ne
  obtain ⟨v, rest, hrest⟩ := List.exists_cons_of_ne_nil hcons
  have hv : (leastConnections M r (rr + 1 + i) live).head? = some v := by
    rw [hrest]
    rfl
  -- the first in turn has residue zero, so its index tells the turn
  have hfirst := head_rotation hload hresidues hv
  have hsecond := head_rotation hload hresidues (hij ▸ hv)
  rw [rotation, max_eq_left hpos] at hfirst hsecond
  have hmod : i ≡ j [MOD live.length] := by
    have hsame : index M r v + (rr + 1 + i) ≡ index M r v + (rr + 1 + j) [MOD live.length] :=
      hfirst.trans hsecond.symm
    exact Nat.ModEq.add_left_cancel' (rr + 1) (Nat.ModEq.add_left_cancel' _ hsame)
  exact hmod.eq_of_lt_of_lt hi hj

/-- A worker behind an equally loaded one of its residue never comes first: the sort
is stable. -/
theorem head_ne_of_residue {rr : ℕ} {live : List W} {v w : W} (hnodup : live.Nodup)
    (hload : ∀ v ∈ live, ∀ w ∈ live, r.inflight v = r.inflight w)
    (hbefore : [v, w].Sublist live)
    (hresidue : index M r v % live.length = index M r w % live.length) :
    (leastConnections M r rr live).head? ≠ some w := by
  intro hw
  have hpos : 0 < live.length := by
    have := hbefore.length_le
    simp at this
    omega
  have hahead : Ahead M r rr live v w := by
    refine Or.inr ⟨hload v (hbefore.subset List.mem_cons_self) w (hbefore.subset (by simp)), ?_⟩
    rw [rotation, rotation, max_eq_left hpos]
    exact (Nat.ModEq.add_right rr hresidue).le
  -- sorting is stable, so the one before it stays before it
  have hsorted : [v, w].Sublist (leastConnections M r rr live) :=
    List.pair_sublist_insertionSort hahead hbefore
  obtain ⟨rest, hrest⟩ := List.head?_eq_some_iff.mp hw
  have hsortednodup : (leastConnections M r rr live).Nodup :=
    (perm_leastConnections M r rr live).nodup_iff.mpr hnodup
  rw [hrest] at hsorted hsortednodup
  obtain ⟨hnot, _⟩ := List.nodup_cons.mp hsortednodup
  rcases List.sublist_cons_iff.mp hsorted with hlater | ⟨rest', heq, hlater⟩
  · exact hnot (hlater.subset (by simp))
  · obtain ⟨_, rfl⟩ := List.cons.inj heq
    exact hnot (hlater.subset (by simp))

section fairness

variable [DecidableEq W] (M : Coordinator W) (r : Reading W)

/-- The workers that come first in as many calls as there are workers of `live`. -/
def turns (rr : ℕ) (live : List W) : List (Option W) :=
  (List.range live.length).map fun j => (leastConnections M r (rr + 1 + j) live).head?

omit [DecidableEq W] in
theorem turns_subset (rr : ℕ) {live : List W} (h : live ≠ []) :
    turns M r rr live ⊆ live.map some := by
  intro o ho
  obtain ⟨j, _, rfl⟩ := List.mem_map.mp ho
  have hperm := perm_leastConnections M r (rr + 1 + j) live
  cases hhead : (leastConnections M r (rr + 1 + j) live).head? with
  | none =>
    have hlength := hperm.length_eq
    rw [List.head?_eq_none_iff.mp hhead] at hlength
    exact absurd (List.length_eq_zero_iff.mp hlength.symm) h
  | some v =>
    exact List.mem_map_of_mem
      (hperm.subset (List.mem_of_mem_head? (Option.mem_def.mpr hhead)))

/-- A fair picker gives as many turns as there are workers, one to each. -/
theorem fair_iff_nodup (h : reachableSovereign M r ≠ []) :
    Fair M r (reachableSovereign M r) ↔ ∀ rr, (turns M r rr (reachableSovereign M r)).Nodup := by
  refine forall_congr' fun rr => ?_
  have hcount : ∀ w, (picks M r rr (reachableSovereign M r).length).countP
      (fun order => order.head? = some w) =
        (turns M r rr (reachableSovereign M r)).count (some w) := by
    intro w
    rw [picks_eq M r h, turns, List.countP_map, List.count, List.countP_map]
    refine List.countP_congr fun j _ => ?_
    simp
  rw [← one_turn_each (by simp [turns]) (turns_subset M r rr h), List.forall_mem_map]
  simp only [hcount]

/-- **Round-robin fairness, and where it ends.** When all reachable sovereign workers
carry the same load, each of these `k` workers comes first exactly once in any `k`
calls if and only if their places in the registry differ modulo `k`. -/
theorem fair_iff (h : reachableSovereign M r ≠ [])
    (hload : ∀ v ∈ reachableSovereign M r, ∀ w ∈ reachableSovereign M r,
      r.inflight v = r.inflight w) :
    Fair M r (reachableSovereign M r) ↔ (residues M r (reachableSovereign M r)).Nodup := by
  have hiff := fair_iff_nodup M r h
  set live := reachableSovereign M r with hlive
  constructor
  · intro hfair
    have hturns := hiff.mp hfair
    -- a worker that is listed twice would leave a turn to nobody
    have hnodup : live.Nodup := by
      have hperm : (turns M r 0 live).Perm (live.map some) :=
        (List.subperm_of_subset (hturns 0) (turns_subset M r 0 h)).perm_of_length_le
          (by simp [turns])
      exact (hperm.nodup_iff.mp (hturns 0)).of_map
    rw [residues, List.Nodup, List.pairwise_map, List.pairwise_iff_forall_sublist]
    intro v w hbefore hresidue
    have hone := hfair 0 w (hbefore.subset (by simp))
    have hzero : (picks M r 0 live.length).countP (fun order => order.head? = some w) = 0 := by
      rw [List.countP_eq_zero, picks_eq M r h]
      intro order horder
      obtain ⟨j, _, rfl⟩ := List.mem_map.mp horder
      simpa using head_ne_of_residue hnodup hload hbefore hresidue
    omega
  · intro hresidues
    exact hiff.mpr fun rr => turns_nodup h hload hresidues

end fairness

/-- The rotation over the places of a registry with a gap: the two live workers of
four stand at places of one residue, and the one behind never comes first. -/
theorem gap_unfair : ¬∀ (W : Type) (_ : DecidableEq W) (M : Coordinator W) (r : Reading W),
    reachableSovereign M r ≠ [] →
    (∀ v ∈ reachableSovereign M r, ∀ w ∈ reachableSovereign M r, r.inflight v = r.inflight w) →
    Fair M r (reachableSovereign M r) := by
  intro h
  let M : Coordinator (Fin 4) := ⟨fun w => ⟨[lit "a", lit "b", lit "c", lit "d"].getD w [],
    lit "http://node/v1", true, lit "sovereign-gpu", lit "self-hosted", [], [], []⟩,
    [0, 1, 2, 3], none, fun _ => none⟩
  let r : Reading (Fin 4) := ⟨fun w => w = 0 ∨ w = 2, fun _ => 0, fun _ => []⟩
  have hlive : reachableSovereign M r = [0, 2] := by decide
  have hfair : Fair M r (reachableSovereign M r) :=
    h (Fin 4) inferInstance M r (by rw [hlive]; simp) (by intro _ _ _ _; rfl)
  have hsecond := hfair 0 2 (by rw [hlive]; simp)
  rw [hlive] at hsecond
  revert hsecond
  decide

/-- With the live workers side by side each has its turn. -/
theorem fair_iff_side_by_side :
    ∃ (M : Coordinator (Fin 4)) (r : Reading (Fin 4)), reachableSovereign M r = [0, 1] ∧
      Fair M r (reachableSovereign M r) := by
  let M : Coordinator (Fin 4) := ⟨fun w => ⟨[lit "a", lit "b", lit "c", lit "d"].getD w [],
    lit "http://node/v1", true, lit "sovereign-gpu", lit "self-hosted", [], [], []⟩,
    [0, 1, 2, 3], none, fun _ => none⟩
  let r : Reading (Fin 4) := ⟨fun w => w = 0 ∨ w = 1, fun _ => 0, fun _ => []⟩
  have hlive : reachableSovereign M r = [0, 1] := by decide
  refine ⟨M, r, hlive, ?_⟩
  refine (fair_iff M r (by rw [hlive]; simp) (by intro _ _ _ _; rfl)).mpr ?_
  rw [hlive]
  decide

end Mesh

end SzlRouter
