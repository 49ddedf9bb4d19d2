/-
JSON values as Python holds them.

Objects keep their members in insertion order, as a `dict` does; `Json.Sound`
says that no object repeats a key.  Two values are the same JSON value when they
differ only in the order of members, that is when `sorted` takes them to the
same value.

* `sortByKey_eq_of_perm` — sorting forgets the order and nothing else.
-/
import SzlRouter.KeySort
import SzlRouter.Numeral

namespace Py

/-- A JSON value. -/
inductive Json
  | null
  | bool (b : Bool)
  | num (n : Num)
  | str (s : Str)
  | arr (xs : List Json)
  | obj (kvs : List (Str × Json))

/-- The members of an object, in insertion order. -/
abbrev Dict := List (Str × Json)

instance : Coe String Json := ⟨fun s => .str s⟩

namespace Json

/-- An integer value. -/
def int (n : ℤ) : Json := .num (.int n)

mutual

def decEq : (v w : Json) → Decidable (v = w)
  | .null, .null => isTrue rfl
  | .bool a, .bool b => decidable_of_iff (a = b) (by simp)
  | .num a, .num b => decidable_of_iff (a = b) (by simp)
  | .str a, .str b => decidable_of_iff (a = b) (by simp)
  | .arr a, .arr b =>
    have := decEqList a b
    decidable_of_iff (a = b) (by simp)
  | .obj a, .obj b =>
    have := decEqFields a b
    decidable_of_iff (a = b) (by simp)
  | .null, .bool _ | .null, .num _ | .null, .str _ | .null, .arr _ | .null, .obj _
  | .bool _, .null | .bool _, .num _ | .bool _, .str _ | .bool _, .arr _ | .bool _, .obj _
  | .num _, .null | .num _, .bool _ | .num _, .str _ | .num _, .arr _ | .num _, .obj _
  | .str _, .null | .str _, .bool _ | .str _, .num _ | .str _, .arr _ | .str _, .obj _
  | .arr _, .null | .arr _, .bool _ | .arr _, .num _ | .arr _, .str _ | .arr _, .obj _
  | .obj _, .null | .obj _, .bool _ | .obj _, .num _ | .obj _, .str _ | .obj _, .arr _ =>
    isFalse nofun

def decEqList : (v w : List Json) → Decidable (v = w)
  | [], [] => isTrue rfl
  | v :: vs, w :: ws =>
    have := decEq v w
    have := decEqList vs ws
    decidable_of_iff (v = w ∧ vs = ws) (by simp)
  | [], _ :: _ | _ :: _, [] => isFalse nofun

def decEqFields : (v w : List (Str × Json)) → Decidable (v = w)
  | [], [] => isTrue rfl
  | (k, v) :: vs, (l, w) :: ws =>
    have := decEq v w
    have := decEqFields vs ws
    decidable_of_iff (k = l ∧ v = w ∧ vs = ws) (by simp [and_assoc])
  | [], _ :: _ | _ :: _, [] => isFalse nofun

end

instance : DecidableEq Json := decEq

end Json

/-! ### Objects

The operations are those of any `dict` with string keys. -/

namespace Dict

variable {α : Type}

/-- `d.get(k)`. -/
def get : List (Str × α) → Str → Option α
  | [], _ => none
  | (l, w) :: d, k => if l = k then some w else get d k

/-- `d[k] = v`: an existing key keeps its place. -/
def set : List (Str × α) → Str → α → List (Str × α)
  | [], k, v => [(k, v)]
  | (l, w) :: d, k, v => if l = k then (k, v) :: d else (l, w) :: set d k v

/-- `{**d, **e}`. -/
def update (d e : List (Str × α)) : List (Str × α) := e.foldl (fun d p => set d p.1 p.2) d

/-- `{k: v for k, v in d.items() if k not in ks}`. -/
def without (d : List (Str × α)) (ks : List Str) : List (Str × α) := d.filter fun p => p.1 ∉ ks

def keys (d : List (Str × α)) : List Str := d.map Prod.fst

end Dict

namespace Json

/-- `v.get(k)`, `none` when `v` is no object. -/
def get : Json → Str → Option Json
  | .obj d, k => Dict.get d k
  | _, _ => none

/-- Whether the value is an object. -/
def isObj : Json → Bool
  | .obj _ => true
  | _ => false

/-- `bool(v)`. -/
def truthy : Json → Bool
  | .null => false
  | .bool b => b
  | .num (.int n) => n ≠ 0
  | .num (.float x) => x.isNaN ∨ x.units ≠ 0
  | .str s => s ≠ []
  | .arr xs => !xs.isEmpty
  | .obj kvs => !kvs.isEmpty

end Json

/-! ### Sorting members by key -/

/-- The order of `sort_keys`. -/
def KeyLE {α : Type} (a b : Str × α) : Prop := a.1 ≤ b.1

instance {α : Type} : DecidableRel (KeyLE (α := α)) := fun a b =>
  inferInstanceAs (Decidable (a.1 ≤ b.1))

instance {α : Type} : Std.Total (KeyLE (α := α)) := ⟨fun a b => le_total a.1 b.1⟩

instance {α : Type} : IsTrans (Str × α) KeyLE := ⟨fun _ _ _ h₁ h₂ => le_trans h₁ h₂⟩

/-- Members in the order of their keys. -/
def sortByKey {α : Type} (d : List (Str × α)) : List (Str × α) := d.insertionSort KeyLE

section sortByKey

variable {α β : Type} {d e : List (Str × α)}

theorem sortByKey_perm (d : List (Str × α)) : (sortByKey d).Perm d := List.perm_insertionSort _ d

theorem sortByKey_pairwise (d : List (Str × α)) : (sortByKey d).Pairwise KeyLE :=
  List.pairwise_insertionSort _ d

theorem sortByKey_of_pairwise (h : d.Pairwise KeyLE) : sortByKey d = d :=
  h.insertionSort_eq

theorem sortByKey_idem (d : List (Str × α)) : sortByKey (sortByKey d) = sortByKey d :=
  sortByKey_of_pairwise (sortByKey_pairwise d)

/-- Two members with one key are the same member. -/
theorem eq_of_key_eq (hd : (d.map Prod.fst).Nodup) {p q : Str × α} (hp : p ∈ d) (hq : q ∈ d)
    (h : p.1 = q.1) : p = q :=
  List.inj_on_of_nodup_map hd hp hq h

/-- Sorting forgets the order and nothing else. The keys are distinct, so no two members are
tied. -/
theorem sortByKey_eq_of_perm (hd : (d.map Prod.fst).Nodup) (h : d.Perm e) :
    sortByKey d = sortByKey e :=
  KeySort.insertionSort_eq_of_perm (fun _ _ => Iff.rfl) hd h

/-- The member with the least key comes first. -/
theorem sortByKey_head (hd : (d.map Prod.fst).Nodup) {p : Str × α} (hp : p ∈ d)
    (hle : ∀ q ∈ d, p.1 ≤ q.1) : ∃ rest, sortByKey d = p :: rest := by
  have hperm := sortByKey_perm d
  have hsorted := sortByKey_pairwise d
  cases h : sortByKey d with
  | nil =>
    rw [h] at hperm
    rw [hperm.symm.eq_nil] at hp
    exact absurd hp List.not_mem_nil
  | cons x rest =>
    rw [h] at hperm hsorted
    have hx : x ∈ d := hperm.mem_iff.mp List.mem_cons_self
    have hxp : x.1 ≤ p.1 := by
      rcases List.mem_cons.mp (hperm.mem_iff.mpr hp) with rfl | hrest
      · exact le_rfl
      · exact (List.pairwise_cons.mp hsorted).1 p hrest
    exact ⟨rest, by rw [eq_of_key_eq hd hx hp (le_antisymm hxp (hle x hx))]⟩

/-- A change of the values alone commutes with sorting. -/
theorem sortByKey_map (f : Str × α → Str × β) (hf : ∀ p, (f p).1 = p.1) :
    sortByKey (d.map f) = (sortByKey d).map f :=
  (List.map_insertionSort _ _ f d fun a _ b _ => by rw [KeyLE, KeyLE, hf a, hf b]).symm

theorem keys_sortByKey_perm (d : List (Str × α)) :
    ((sortByKey d).map Prod.fst).Perm (d.map Prod.fst) :=
  (sortByKey_perm d).map Prod.fst

end sortByKey

/-! ### Lookups -/

namespace Dict

variable {α : Type} {d e : List (Str × α)} {k : Str} {v : α}

@[simp] theorem get_nil : get ([] : List (Str × α)) k = none := rfl

@[simp] theorem get_cons {l : Str} {w : α} :
    get ((l, w) :: d) k = if l = k then some w else get d k := rfl

theorem get_eq_some (hd : (keys d).Nodup) : get d k = some v ↔ (k, v) ∈ d := by
  induction d with
  | nil => simp
  | cons p d ih =>
    obtain ⟨l, w⟩ := p
    simp only [keys, List.map_cons, List.nodup_cons] at hd
    rw [get_cons, List.mem_cons, Prod.mk.injEq]
    by_cases hk : l = k
    · subst hk
      have hnot : (l, v) ∉ d := fun h => hd.1 (List.mem_map.mpr ⟨_, h, rfl⟩)
      simp [hnot, eq_comm]
    · rw [if_neg hk, ih hd.2]
      simp [Ne.symm hk]

/-- What is read is a member, repeated keys or not. -/
theorem mem_of_get (h : get d k = some v) : (k, v) ∈ d := by
  induction d with
  | nil => exact nomatch h
  | cons p d ih =>
    rw [get_cons] at h
    split_ifs at h with hk
    · rw [← hk, ← Option.some.inj h]
      exact List.mem_cons_self
    · exact List.mem_cons_of_mem _ (ih h)

theorem get_eq_none : get d k = none ↔ k ∉ keys d := by
  induction d with
  | nil => simp [keys]
  | cons p d ih =>
    obtain ⟨l, w⟩ := p
    rw [get_cons, keys, List.map_cons, List.mem_cons]
    by_cases hk : l = k
    · simp [hk]
    · rw [if_neg hk, ih]
      simp [keys, Ne.symm hk]

/-- A lookup does not depend on the order of the members. -/
theorem get_perm (hd : (keys d).Nodup) (h : d.Perm e) : get d k = get e k := by
  have he : (keys e).Nodup := (h.map Prod.fst).nodup_iff.mp hd
  ext v
  rw [get_eq_some hd, get_eq_some he, h.mem_iff]

theorem get_sortByKey (hd : (keys d).Nodup) : get (sortByKey d) k = get d k :=
  get_perm ((keys_sortByKey_perm d).nodup_iff.mpr hd) (sortByKey_perm d)

/-- What was just written is what is read. -/
@[simp] theorem get_set_self : get (set d k v) k = some v := by
  induction d with
  | nil => simp [set]
  | cons p d ih =>
    rw [set]
    split_ifs with hl
    · simp
    · rw [get_cons, if_neg hl, ih]

/-- A write leaves the other keys alone. -/
theorem get_set_of_ne {l : Str} (h : l ≠ k) : get (set d k v) l = get d l := by
  induction d with
  | nil => simp [set, Ne.symm h]
  | cons p d ih =>
    rw [set]
    split_ifs with hl
    · rw [get_cons, if_neg (Ne.symm h), get_cons, if_neg (by rw [hl]; exact Ne.symm h)]
    · rw [get_cons, ih, get_cons]

theorem set_of_not_mem (h : k ∉ keys d) : set d k v = d ++ [(k, v)] := by
  induction d with
  | nil => rfl
  | cons p d ih =>
    simp only [keys, List.map_cons, List.mem_cons, not_or] at h
    rw [set, if_neg (Ne.symm h.1), ih h.2, List.cons_append]

theorem update_append (d e : List (Str × α)) (h : (keys (d ++ e)).Nodup) :
    update d e = d ++ e := by
  induction e generalizing d with
  | nil => simp [update]
  | cons p e ih =>
    have hp : p.1 ∉ keys d := by
      simp only [keys, List.map_append, List.map_cons, List.nodup_append] at h
      exact fun hp => h.2.2 _ hp _ List.mem_cons_self rfl
    rw [update, List.foldl_cons, set_of_not_mem hp, ← update, ih]
    · simp
    · simpa using h

/-- Members with distinct keys are kept as they are. -/
theorem update_nil {e : List (Str × α)} (h : (keys e).Nodup) : update [] e = e := by
  rw [update_append [] e h, List.nil_append]

theorem get_update_of_not_mem {e : List (Str × α)} (h : k ∉ keys e) :
    get (update d e) k = get d k := by
  induction e generalizing d with
  | nil => rfl
  | cons p e ih =>
    simp only [keys, List.map_cons, List.mem_cons, not_or] at h
    rw [update, List.foldl_cons, ← update, ih h.2, get_set_of_ne h.1]

theorem mem_keys_set {l : Str} : l ∈ keys (set d k v) ↔ l ∈ keys d ∨ l = k := by
  rw [← not_iff_not, not_or, ← get_eq_none, ← get_eq_none]
  by_cases hl : l = k
  · subst hl
    simp
  · simp [get_set_of_ne hl, hl]

theorem mem_keys_update {l : Str} {e : List (Str × α)} :
    l ∈ keys (update d e) ↔ l ∈ keys d ∨ l ∈ keys e := by
  induction e generalizing d with
  | nil => simp [update, keys]
  | cons p e ih =>
    rw [update, List.foldl_cons, ← update, ih, mem_keys_set]
    simp [keys, or_assoc]

/-- The members of an updated object are members of the old one or of the update. -/
theorem mem_set {p : Str × α} (h : p ∈ set d k v) : p ∈ d ∨ p = (k, v) := by
  induction d with
  | nil => exact .inr (List.mem_singleton.mp h)
  | cons q d ih =>
    rw [set] at h
    split_ifs at h with hk
    · rcases List.mem_cons.mp h with rfl | h
      · exact .inr rfl
      · exact .inl (List.mem_cons_of_mem _ h)
    · rcases List.mem_cons.mp h with rfl | h
      · exact .inl List.mem_cons_self
      · exact (ih h).imp_left (List.mem_cons_of_mem _)

theorem mem_update {p : Str × α} {e : List (Str × α)} (h : p ∈ update d e) : p ∈ d ∨ p ∈ e := by
  induction e generalizing d with
  | nil => exact .inl h
  | cons q e ih =>
    rw [update, List.foldl_cons, ← update] at h
    rcases ih h with h | h
    · rcases mem_set h with h | rfl
      · exact .inl h
      · exact .inr List.mem_cons_self
    · exact .inr (List.mem_cons_of_mem _ h)

theorem nodup_keys_set (hd : (keys d).Nodup) : (keys (set d k v)).Nodup := by
  induction d with
  | nil => exact List.nodup_singleton k
  | cons p d ih =>
    simp only [keys, List.map_cons, List.nodup_cons] at hd
    rw [set]
    split_ifs with hl
    · rw [keys, List.map_cons, List.nodup_cons, ← hl]
      exact hd
    · rw [keys, List.map_cons, List.nodup_cons]
      exact ⟨fun h => (mem_keys_set.mp h).elim hd.1 hl, ih hd.2⟩

theorem nodup_keys_update {e : List (Str × α)} (hd : (keys d).Nodup) :
    (keys (update d e)).Nodup := by
  induction e generalizing d with
  | nil => exact hd
  | cons p e ih => exact ih (nodup_keys_set hd)

theorem get_update_of_mem {e : List (Str × α)} (he : (keys e).Nodup) (h : (k, v) ∈ e) :
    get (update d e) k = some v := by
  induction e generalizing d with
  | nil => exact absurd h List.not_mem_nil
  | cons p e ih =>
    obtain ⟨hfresh, he⟩ := List.nodup_cons.mp he
    rw [update, List.foldl_cons, ← update]
    rcases List.mem_cons.mp h with rfl | h
    · rw [get_update_of_not_mem hfresh, get_set_self]
    · exact ih he h

theorem nodup_keys_without (hd : (keys d).Nodup) (ks : List Str) : (keys (without d ks)).Nodup :=
  hd.sublist (List.filter_sublist.map Prod.fst)

theorem get_without {ks : List Str} :
    get (without d ks) k = if k ∈ ks then none else get d k := by
  induction d with
  | nil => simp [without]
  | cons p d ih =>
    obtain ⟨l, w⟩ := p
    rw [without, List.filter_cons]
    by_cases hl : l ∈ ks
    · rw [if_neg (by simpa using hl), ← without, ih, get_cons]
      by_cases hk : k ∈ ks
      · rw [if_pos hk, if_pos hk]
      · rw [if_neg hk, if_neg hk, if_neg fun h : l = k => hk (h ▸ hl)]
    · rw [if_pos (by simpa using hl), get_cons, ← without, ih, get_cons]
      by_cases hk : l = k
      · rw [if_pos hk, if_pos hk, if_neg (hk ▸ hl)]
      · rw [if_neg hk, if_neg hk]

/-- An object is one of its members and the rest. -/
theorem perm_cons_without (hd : (keys d).Nodup) (h : get d k = some v) :
    d.Perm ((k, v) :: without d [k]) := by
  induction d with
  | nil => exact nomatch h
  | cons p d ih =>
    obtain ⟨l, w⟩ := p
    rw [keys, List.map_cons, List.nodup_cons] at hd
    rw [get_cons] at h
    rw [without, List.filter_cons]
    by_cases hl : l = k
    · subst hl
      rw [if_pos rfl] at h
      obtain rfl := Option.some.inj h
      have hrest : d.filter (fun p => p.1 ∉ [l]) = d := by
        refine List.filter_eq_self.mpr fun p hp => ?_
        have hne : p.1 ≠ l := fun he => hd.1 (List.mem_map.mpr ⟨p, hp, he⟩)
        simpa using hne
      rw [if_neg (by simp), hrest]
    · rw [if_neg hl] at h
      rw [if_pos (by simpa using hl)]
      exact ((ih hd.2 h).cons _).trans (.swap _ _ _)

/-- Removing the key that was appended gives the object back. -/
theorem without_set (h : k ∉ keys d) : without (set d k v) [k] = d := by
  rw [set_of_not_mem h, without, List.filter_append, List.filter_eq_self.mpr]
  · simp
  · intro p hp
    have hpk : p.1 ≠ k := fun he => h (he ▸ List.mem_map.mpr ⟨p, hp, rfl⟩)
    simpa using hpk

end Dict

end Py
