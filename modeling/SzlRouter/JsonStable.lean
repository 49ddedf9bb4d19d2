/-
What `json.loads` returns is stable: read back from its own text it is the same.

A value is stable when every string of it is read back as it was written and no
object repeats a key.  Text with escapes joins surrogate pairs; but UTF-8 text has
no surrogates, and escaped pairs are joined when they are read.

* `decodeUtf8_clean` — decoded text has no surrogates;
* `ScanRule.loads` — what holds of atoms and is kept by arrays and objects holds of
  every value that is read;
* `loads_stable` — a value read from such a text is stable;
* `loads_dumpable` — it can be written again;
* `norm_of_stable` — a stable value is its own normal form;
* `render_norm` — a sorted text of a stable value is that of its normal form;
* `dumps_ascii` — text with escapes is ASCII.
-/
import SzlRouter.DecimalOrder
import SzlRouter.JsonRoundTrip

namespace Py

/-! ### Text without surrogates -/

/-- A text without surrogates. These are the texts that have bytes, and the texts that decoded
bytes can be. -/
def Clean (s : Str) : Prop := ∀ c ∈ s, Str.isSurrogate c = false

theorem Clean.mono {s t : Str} (h : Clean s) (hsub : t ⊆ s) : Clean t :=
  fun c hc => h c (hsub hc)

theorem isSurrogate_of_isHigh {c : CodePoint} (h : isHigh c = true) :
    Str.isSurrogate c = true := by
  rw [isHigh_iff] at h
  exact decide_eq_true ⟨h.1, by omega⟩

theorem isSurrogate_of_isLow {c : CodePoint} (h : isLow c = true) :
    Str.isSurrogate c = true := by
  rw [isLow_iff] at h
  exact decide_eq_true ⟨by omega, h.2⟩

/-- A decoded text has no surrogates, since the strict decoder rejects the three bytes that would
stand for one. -/
theorem decodeUtf8_clean {b : Bytes} {t : Str} (h : decodeUtf8 b = some t) : Clean t := by
  have hcons : ∀ {c : CodePoint} {bs : Bytes} {t : Str}, Str.isSurrogate c = false →
      (∀ t, decodeUtf8 bs = some t → Clean t) → (decodeUtf8 bs).map (c :: ·) = some t →
      Clean t := by
    intro c bs t hc ih ht
    obtain ⟨t', ht', rfl⟩ := Option.map_eq_some_iff.mp ht
    intro x hx
    rcases List.mem_cons.mp hx with rfl | hx
    · exact hc
    · exact ih t' ht' x hx
  have hval : ∀ {v : ℕ} (hv : v < 0x110000), ¬(0xD800 ≤ v ∧ v < 0xE000) →
      Str.isSurrogate ⟨v, hv⟩ = false := by
    intro v hv hnot
    exact decide_eq_false hnot
  -- by the length of each sequence; that of three bytes tests for a surrogate
  fun_induction decodeUtf8 b generalizing t with
  | case1 =>
    rw [← Option.some.inj h]
    simp [Clean]
  | case2 a bs ha ih => exact hcons (hval _ (by omega)) (fun _ => ih) h
  | case5 a ha b bs hb hab ih => exact hcons (hval _ (by omega)) (fun _ => ih) h
  | case8 =>
    rename_i hv ih
    exact hcons (hval _ hv.2) (fun _ => ih) h
  | case12 =>
    rename_i hw ih
    exact hcons (hval _ (by omega)) (fun _ => ih) h
  | _ => cases h

/-! ### Strings without adjacent pairs -/

theorem joinPairs_cons {c : CodePoint} {s : Str}
    (h : ∀ l ∈ s.head?, (isHigh c && isLow l) = false) : joinPairs (c :: s) = c :: joinPairs s := by
  cases s with
  | nil => rfl
  | cons l s => rw [joinPairs, if_neg (by rw [h l rfl]; simp)]

/-- The first character of a joined string is its first unit, or no low surrogate. -/
theorem head_joinUnits {us : List Unit16} {c : CodePoint} (hc : c ∈ (joinUnits us).head?)
    (hlow : isLow c = true) : ∃ u ∈ us.head?, u.2 = c := by
  cases us with
  | nil => cases hc
  | cons u us =>
    cases us with
    | nil => exact ⟨u, rfl, Option.some.inj hc⟩
    | cons v us =>
      rw [joinUnits] at hc
      split_ifs at hc
      · rw [← Option.some.inj hc, isLow_iff] at hlow
        simp only [combine] at hlow
        omega
      · exact ⟨u, rfl, Option.some.inj hc⟩

/-- A string that was read has no adjacent pair, when surrogates only come from escapes. -/
theorem joinPairs_joinUnits {us : List Unit16}
    (h : ∀ u ∈ us, u.1 = false → Str.isSurrogate u.2 = false) :
    joinPairs (joinUnits us) = joinUnits us := by
  induction us using joinUnits.induct with
  | case1 => rfl
  | case2 u => rfl
  | case3 u v us hpair ih =>
    rw [joinUnits, if_pos hpair, joinPairs_cons]
    · rw [ih fun w hw => h w (List.mem_cons_of_mem _ (List.mem_cons_of_mem _ hw))]
    · intro l _
      -- the character of a pair is past `0xFFFF`
      have hhigh : isHigh (combine u.2 v.2) = false := by
        by_contra hhigh
        rw [Bool.not_eq_false, isHigh_iff] at hhigh
        simp only [combine] at hhigh
        omega
      rw [hhigh, Bool.false_and]
  | case4 u v us hpair ih =>
    rw [joinUnits, if_neg hpair, joinPairs_cons]
    · rw [ih fun w hw => h w (List.mem_cons_of_mem _ hw)]
    · intro l hl
      by_contra hboth
      rw [Bool.not_eq_false, Bool.and_eq_true] at hboth
      obtain ⟨w, hw, hwl⟩ := head_joinUnits hl hboth.2
      obtain rfl : v = w := Option.some.inj hw
      -- both characters are surrogates, so both were escapes
      have hu : u.1 = true := by
        by_contra hu
        rw [Bool.not_eq_true] at hu
        have hclean := h u List.mem_cons_self hu
        rw [isSurrogate_of_isHigh hboth.1] at hclean
        cases hclean
      have hv : v.1 = true := by
        by_contra hv
        rw [Bool.not_eq_true] at hv
        have hclean := h v (List.mem_cons_of_mem _ List.mem_cons_self) hv
        rw [hwl, isSurrogate_of_isLow hboth.2] at hclean
        cases hclean
      rw [hu, hv, hwl, hboth.1, hboth.2] at hpair
      exact hpair rfl

/-! ### Stable values -/

mutual

/-- Every string and key is read back as it was written, and no object repeats a key. Such a
value is its own normal form, up to the order of members. -/
def Stable (o : DumpOpts) : Json → Prop
  | .str s => o.text s = s
  | .arr xs => StableList o xs
  | .obj kvs => (kvs.map Prod.fst).Nodup ∧ StableFields o kvs
  | _ => True

def StableList (o : DumpOpts) : List Json → Prop
  | [] => True
  | x :: xs => Stable o x ∧ StableList o xs

def StableFields (o : DumpOpts) : List (Str × Json) → Prop
  | [] => True
  | (k, v) :: kvs => (o.text k = k ∧ Stable o v) ∧ StableFields o kvs

end

theorem stableList_iff {o : DumpOpts} {xs : List Json} :
    StableList o xs ↔ ∀ x ∈ xs, Stable o x := by
  induction xs with
  | nil => simp [StableList]
  | cons x xs ih => simp [StableList, ih]

theorem stableFields_iff {o : DumpOpts} {kvs : List (Str × Json)} :
    StableFields o kvs ↔ ∀ p ∈ kvs, o.text p.1 = p.1 ∧ Stable o p.2 := by
  induction kvs with
  | nil => simp [StableFields]
  | cons p kvs ih => simp [StableFields, ih]

theorem text_of_joinPairs {o : DumpOpts} {s : Str} (h : joinPairs s = s) : o.text s = s := by
  rw [DumpOpts.text]
  split_ifs
  · exact h
  · rfl

theorem Stable.sound {o : DumpOpts} {v : Json} (h : Stable o v) : Sound o v := by
  induction v using Json.ind with
  | null | bool b | num x | str s => trivial
  | arr xs ih =>
    rw [Stable, stableList_iff] at h
    rw [Sound, soundList_iff]
    intro x hx
    exact ih x hx (h x hx)
  | obj kvs ih =>
    rw [Stable, stableFields_iff] at h
    rw [Sound, soundFields_iff]
    have hmap : kvs.map (fun p => o.text p.1) = kvs.map Prod.fst :=
      List.map_congr_left fun p hp => (h.2 p hp).1
    constructor
    · rw [hmap]
      exact h.1
    · intro p hp
      exact ih p hp (h.2 p hp).2

/-- The members of a stable object are stable. -/
theorem Stable.get {o : DumpOpts} {v w : Json} {k : Str} (h : Stable o v)
    (hget : v.get k = some w) : Stable o w := by
  cases v with
  | obj kvs =>
    rw [Stable, stableFields_iff] at h
    exact (h.2 (k, w) ((Dict.get_eq_some h.1).mp hget)).2
  | null | bool _ | num _ | str _ | arr _ => cases hget

/-- A stable value is its own normal form, when members stay in their order: its keys are
distinct and its texts have no pairs to join. -/
theorem norm_of_stable {o : DumpOpts} (hsort : o.sortKeys = false) {v : Json} (h : Stable o v) :
    norm o v = v := by
  induction v using Json.ind with
  | null | bool b | num x => rw [norm.eq_def]
  | str s =>
    rw [norm.eq_def]
    exact congrArg Json.str h
  | arr xs ih =>
    rw [Stable, stableList_iff] at h
    rw [norm_arr]
    have hmap : xs.map (norm o) = xs.map id :=
      List.map_congr_left fun x hx => ih x hx (h x hx)
    rw [hmap, List.map_id]
  | obj kvs ih =>
    rw [Stable, stableFields_iff] at h
    have horder : o.order kvs = kvs := by rw [DumpOpts.order, hsort]; rfl
    have hreread : rereadMembers o kvs = kvs := by
      have hmap : kvs.map (fun p => (o.text p.1, norm o p.2)) = kvs.map id := by
        refine List.map_congr_left fun p hp => ?_
        rw [(h.2 p hp).1, ih p hp (h.2 p hp).2]
        rfl
      rw [rereadMembers, horder, hmap, List.map_id]
    rw [norm_obj, hreread, Dict.update_nil h.1]

/-- A sorted text of a stable value is also the text of its normal form, so that writing what was
read back gives the same bytes. -/
theorem render_norm {o : DumpOpts} (hsort : o.sortKeys = true) {v : Json} (h : Stable o v) :
    render o (norm o v) = render o v := by
  induction v using Json.ind with
  | null | bool b | num x => rw [norm.eq_def]
  | str s =>
    rw [norm.eq_def]
    exact congrArg (fun s => render o (.str s)) h
  | arr xs ih =>
    rw [Stable, stableList_iff] at h
    have hmap : xs.map (render o ∘ norm o) = xs.map (render o) :=
      List.map_congr_left fun x hx => ih x hx (h x hx)
    rw [norm_arr, render_arr, render_arr, List.map_map, hmap]
  | obj kvs ih =>
    rw [Stable, stableFields_iff] at h
    have horder : ∀ d : List (Str × Json), o.order d = sortByKey d := fun d => if_pos hsort
    -- the members are sorted on the way out and stay so, and their keys are read back as they are
    have hreread : rereadMembers o kvs = (sortByKey kvs).map fun p => (p.1, norm o p.2) := by
      rw [rereadMembers, horder]
      refine List.map_congr_left fun p hp => ?_
      rw [(h.2 p ((sortByKey_perm kvs).mem_iff.mp hp)).1]
    have hmap : (sortByKey kvs).map
        ((fun p => member o (p.1, render o p.2)) ∘ fun p => (p.1, norm o p.2))
        = (sortByKey kvs).map fun p => member o (p.1, render o p.2) := by
      refine List.map_congr_left fun p hp => ?_
      have hp := (sortByKey_perm kvs).mem_iff.mp hp
      simp only [Function.comp, ih p hp (h.2 p hp).2]
    -- distinct keys are all kept
    have hkeys : ((rereadMembers o kvs).map Prod.fst).Nodup := by
      rw [hreread, List.map_map]
      exact ((sortByKey_perm kvs).map Prod.fst).nodup_iff.mpr h.1
    rw [norm_obj, Dict.update_nil hkeys, hreread, render_obj, render_obj, horder, horder,
      sortByKey_map (fun p => (p.1, norm o p.2)) fun _ => rfl, sortByKey_idem, List.map_map, hmap]

/-! ### Members without an order -/

mutual

/-- The value with the members of every object in the order of their keys.  Python
compares objects without regard to the order of their members. -/
def unordered : Json → Json
  | .arr xs => .arr (unorderedList xs)
  | .obj kvs => .obj (sortByKey (unorderedFields kvs))
  | v => v

def unorderedList : List Json → List Json
  | [] => []
  | x :: xs => unordered x :: unorderedList xs

def unorderedFields : List (Str × Json) → List (Str × Json)
  | [] => []
  | (k, v) :: kvs => (k, unordered v) :: unorderedFields kvs

end

theorem unordered_arr (xs : List Json) : unordered (.arr xs) = .arr (xs.map unordered) := by
  have hlist : unorderedList xs = xs.map unordered := by
    induction xs with
    | nil => rfl
    | cons x xs ih => rw [unorderedList, ih, List.map_cons]
  rw [unordered, hlist]

theorem unordered_obj (kvs : List (Str × Json)) :
    unordered (.obj kvs) = .obj (sortByKey (kvs.map fun p => (p.1, unordered p.2))) := by
  have hfields : unorderedFields kvs = kvs.map fun p => (p.1, unordered p.2) := by
    induction kvs with
    | nil => rfl
    | cons p kvs ih => rw [unorderedFields, ih, List.map_cons]
  rw [unordered, hfields]

/-- The sorted normal form of a stable value. -/
theorem norm_eq_unordered {o : DumpOpts} (hsort : o.sortKeys = true) {v : Json} (h : Stable o v) :
    norm o v = unordered v := by
  induction v using Json.ind with
  | null | bool b | num x => rw [norm.eq_def, unordered.eq_def]
  | str s =>
    rw [norm.eq_def, unordered.eq_def]
    exact congrArg Json.str h
  | arr xs ih =>
    rw [Stable, stableList_iff] at h
    have hmap : xs.map (norm o) = xs.map unordered :=
      List.map_congr_left fun x hx => ih x hx (h x hx)
    rw [norm_arr, unordered_arr, hmap]
  | obj kvs ih =>
    rw [Stable, stableFields_iff] at h
    have hkeys : (kvs.map fun p => o.text p.1) = kvs.map Prod.fst :=
      List.map_congr_left fun p hp => (h.2 p hp).1
    have hreread : rereadMembers o kvs = (sortByKey kvs).map fun p => (p.1, unordered p.2) := by
      rw [rereadMembers, DumpOpts.order, if_pos hsort]
      refine List.map_congr_left fun p hp => ?_
      have hmem := (sortByKey_perm kvs).mem_iff.mp hp
      rw [(h.2 p hmem).1, ih p hmem (h.2 p hmem).2]
    rw [norm_obj_of_nodup (hkeys ▸ h.1), hreread, unordered_obj,
      sortByKey_map (fun p => (p.1, unordered p.2)) fun _ => rfl]

/-- Ordering the members again changes nothing. -/
theorem unordered_idem (v : Json) : unordered (unordered v) = unordered v := by
  induction v using Json.ind with
  | null | bool b | num x | str s => rw [unordered.eq_def, unordered.eq_def]
  | arr xs ih =>
    rw [unordered_arr, unordered_arr, List.map_map]
    exact congrArg Json.arr (List.map_congr_left ih)
  | obj kvs ih =>
    have hmap : (kvs.map fun p => (p.1, unordered p.2)).map (fun p => (p.1, unordered p.2)) =
        kvs.map fun p => (p.1, unordered p.2) := by
      rw [List.map_map]
      exact List.map_congr_left fun p hp => congrArg (Prod.mk p.1) (ih p hp)
    rw [unordered_obj, unordered_obj, sortByKey_map (fun p => (p.1, unordered p.2)) fun _ => rfl,
      sortByKey_idem, ← sortByKey_map (fun p => (p.1, unordered p.2)) fun _ => rfl, hmap]

/-- Stability does not depend on the order of members. -/
theorem stable_unordered {o : DumpOpts} (v : Json) : Stable o (unordered v) ↔ Stable o v := by
  induction v using Json.ind with
  | null | bool b | num x | str s => rw [unordered.eq_def]
  | arr xs ih =>
    rw [unordered_arr, Stable, Stable, stableList_iff, stableList_iff, List.forall_mem_map]
    exact forall₂_congr ih
  | obj kvs ih =>
    rw [unordered_obj, Stable, Stable, stableFields_iff, stableFields_iff,
      (keys_sortByKey_perm _).nodup_iff, List.map_map]
    refine and_congr Iff.rfl ?_
    simp only [(sortByKey_perm _).mem_iff, List.forall_mem_map]
    exact forall₂_congr fun p hp => and_congr_right fun _ => ih p hp

/-- A value that is read back as it was is stable. -/
theorem stable_of_unordered_eq {o : DumpOpts} {v w : Json} (hw : Stable o w)
    (h : unordered w = unordered v) : Stable o v := by
  rw [← stable_unordered v, ← h, stable_unordered w]
  exact hw

/-! ### Reading gives stable values -/

theorem skipWs_subset (s : Str) : skipWs s ⊆ s := (List.dropWhile_sublist _).subset

theorem scanHex_subset {s r : Str} {u : Unit16} (h : scanHex s = some (u, r)) :
    r ⊆ s ∧ u.1 = true := by
  unfold scanHex at h
  split at h
  · split at h
    · obtain ⟨rfl, rfl⟩ := Prod.mk.inj (Option.some.inj h)
      refine ⟨?_, rfl⟩
      intro x hx
      simp [hx]
    · cases h
  · cases h

/-- A unit that is no escape is a character of the text or an escaped ASCII one. -/
theorem scanUnit_clean {s r : Str} {u : Unit16} (hs : Clean s) (h : scanUnit s = some (u, r)) :
    r ⊆ s ∧ (u.1 = false → Str.isSurrogate u.2 = false) := by
  cases s with
  | nil => cases h
  | cons c s =>
    rw [scanUnit.eq_def] at h
    dsimp only at h
    by_cases hc : c = chr '\\'
    · rw [if_pos hc] at h
      cases s with
      | nil => cases h
      | cons e s =>
        dsimp only at h
        -- a numbered escape may be a surrogate, but then it is marked as one that was escaped
        by_cases he : e = chr 'u'
        · rw [if_pos he] at h
          obtain ⟨hsub, hu⟩ := scanHex_subset h
          refine ⟨fun x hx => List.mem_cons_of_mem _ (List.mem_cons_of_mem _ (hsub hx)), ?_⟩
          rw [hu]
          intro hfalse
          cases hfalse
        · rw [if_neg he] at h
          obtain ⟨d, hd, heq⟩ := Option.map_eq_some_iff.mp h
          obtain ⟨rfl, rfl⟩ := Prod.mk.inj heq
          refine ⟨fun x hx => List.mem_cons_of_mem _ (List.mem_cons_of_mem _ hx), fun _ => ?_⟩
          unfold unescape at hd
          split_ifs at hd <;> obtain rfl := Option.some.inj hd <;> rfl
    · rw [if_neg hc] at h
      split_ifs at h
      obtain ⟨rfl, rfl⟩ := Prod.mk.inj (Option.some.inj h)
      exact ⟨List.subset_cons_self _ _, fun _ => hs c List.mem_cons_self⟩

theorem scanStr_clean {n : ℕ} {s r : Str} {us : List Unit16} (hs : Clean s)
    (h : scanStr n s = some (us, r)) :
    r ⊆ s ∧ ∀ u ∈ us, u.1 = false → Str.isSurrogate u.2 = false := by
  -- by induction on the fuel, one unit at a time
  induction n generalizing s us with
  | zero => cases h
  | succ n ih =>
    cases s with
    | nil => cases h
    | cons c s =>
      rw [scanStr] at h
      by_cases hc : c = chr '"'
      · rw [if_pos hc] at h
        obtain ⟨rfl, rfl⟩ := Prod.mk.inj (Option.some.inj h)
        exact ⟨List.subset_cons_self _ _, by simp⟩
      · rw [if_neg hc] at h
        cases hunit : scanUnit (c :: s) with
        | none => rw [hunit] at h; cases h
        | some p =>
          obtain ⟨u, s'⟩ := p
          rw [hunit] at h
          obtain ⟨q, hq, heq⟩ := Option.map_eq_some_iff.mp h
          obtain ⟨rfl, rfl⟩ := Prod.mk.inj heq
          obtain ⟨hsub, hu⟩ := scanUnit_clean hs hunit
          obtain ⟨hsub', hus⟩ := ih (hs.mono hsub) hq
          refine ⟨List.Subset.trans hsub' hsub, ?_⟩
          intro w hw
          rcases List.mem_cons.mp hw with rfl | hw
          · exact hu
          · exact hus w hw

theorem scan_subset {s r : Str} {m : Numeral} (h : Numeral.scan s = some (m, r)) : r ⊆ s := by
  -- each part of a numeral leaves a rest of the text it was given
  have hint : ∀ {s i r}, Numeral.scanInt s = some (i, r) → r ⊆ s := by
    intro s i r h
    unfold Numeral.scanInt at h
    split at h
    · cases h
    · split_ifs at h
      · obtain ⟨_, rfl⟩ := Prod.mk.inj (Option.some.inj h)
        exact List.subset_cons_self _ _
      · obtain ⟨_, rfl⟩ := Prod.mk.inj (Option.some.inj h)
        exact (List.dropWhile_sublist _).subset
  have hfrac : ∀ s, (Numeral.scanFrac s).2 ⊆ s := by
    intro s
    unfold Numeral.scanFrac
    split
    · exact List.Subset.refl _
    · split_ifs
      · exact List.subset_cons_of_subset _ (List.dropWhile_sublist _).subset
      · exact List.Subset.refl _
  have hsign : ∀ s, (Numeral.scanSign s).2 ⊆ s := by
    intro s
    unfold Numeral.scanSign
    split
    · exact List.Subset.refl _
    · split_ifs
      · exact List.subset_cons_self _ _
      · exact List.subset_cons_self _ _
      · exact List.Subset.refl _
  have hexp : ∀ s, (Numeral.scanExp s).2 ⊆ s := by
    intro s
    unfold Numeral.scanExp
    split
    · exact List.Subset.refl _
    · split_ifs
      · exact List.subset_cons_of_subset _
          (List.Subset.trans (List.dropWhile_sublist _).subset (hsign _))
      · exact List.Subset.refl _
  unfold Numeral.scan at h
  dsimp only at h
  split at h
  · cases h
  · rename_i hscan
    obtain ⟨_, rfl⟩ := Prod.mk.inj (Option.some.inj h)
    have htail : (if s.head? = some (chr '-') then s.tail else s) ⊆ s := by
      split_ifs
      · exact List.tail_subset s
      · exact List.Subset.refl s
    exact List.Subset.trans (hexp _) (List.Subset.trans (hfrac _)
      (List.Subset.trans (hint hscan) htail))

theorem scanName_subset {names : List (Str × Json)} {s r : Str} {v : Json}
    (h : scanName names s = some (v, r)) : r ⊆ s ∧ ∃ p ∈ names, p.2 = v := by
  obtain ⟨p, hp, heq⟩ := List.exists_of_findSome?_eq_some h
  split_ifs at heq
  obtain ⟨rfl, rfl⟩ := Prod.mk.inj (Option.some.inj heq)
  exact ⟨(List.drop_sublist _ _).subset, p, hp, rfl⟩

/-- What is read of an atom: a name with its value, or a number. -/
theorem scanAtom_cases {lo : LoadOpts} {s r : Str} {v : Json} (h : scanAtom lo s = some (v, r)) :
    r ⊆ s ∧ ((∃ p ∈ literals, v = p.2) ∨ (lo.constants = true ∧ ∃ p ∈ constantNames, v = p.2) ∨
      scanNum s = some (v, r)) := by
  unfold scanAtom at h
  split at h
  · rename_i p hp
    obtain rfl := Option.some.inj h
    obtain ⟨hsub, q, hq, heq⟩ := scanName_subset hp
    exact ⟨hsub, .inl ⟨q, hq, heq.symm⟩⟩
  -- the names of all readers, then those of the lenient one, then a number
  · split at h
    · rename_i p hp
      split_ifs at h with hconstants
      obtain rfl := Option.some.inj h
      obtain ⟨hsub, q, hq, heq⟩ := scanName_subset hp
      exact ⟨hsub, .inr (.inl ⟨hconstants, q, hq, heq.symm⟩)⟩
    · refine ⟨?_, .inr (.inr h)⟩
      unfold scanNum at h
      split at h
      · cases h
      · rename_i m r' hscan
        split at h
        · split_ifs at h
          obtain ⟨rfl, rfl⟩ := Prod.mk.inj (Option.some.inj h)
          exact scan_subset hscan
        · obtain ⟨rfl, rfl⟩ := Prod.mk.inj (Option.some.inj h)
          exact scan_subset hscan

/-- A property of strings and one of values that the scanner establishes, read from a
text without surrogates. -/
structure ScanRule (lo : LoadOpts) (Key : Str → Prop) (P : Json → Prop) : Prop where
  text : ∀ {us : List Unit16}, (∀ u ∈ us, u.1 = false → Str.isSurrogate u.2 = false) →
    Key (joinUnits us)
  str : ∀ {s}, Key s → P (.str s)
  atom : ∀ {s r v}, scanAtom lo s = some (v, r) → P v
  arr : ∀ {xs}, (∀ x ∈ xs, P x) → P (.arr xs)
  obj : ∀ {kvs d}, lo.build kvs = some d → (∀ p ∈ kvs, Key p.1 ∧ P p.2) → P (.obj d)

/-- What the three scanners do with fuel `n` on a text without surrogates. -/
structure Scans (lo : LoadOpts) (Key : Str → Prop) (P : Json → Prop) (n : ℕ) : Prop where
  value : ∀ {s r v}, Clean s → scanValue lo n s = some (v, r) → r ⊆ s ∧ P v
  elems : ∀ {s r xs}, Clean s → scanElems lo n s = some (xs, r) → r ⊆ s ∧ ∀ x ∈ xs, P x
  members : ∀ {s r kvs}, Clean s → scanMembers lo n s = some (kvs, r) →
    r ⊆ s ∧ ∀ p ∈ kvs, Key p.1 ∧ P p.2

section

variable {lo : LoadOpts} {Key : Str → Prop} {P : Json → Prop} (rule : ScanRule lo Key P) {n : ℕ}
  (ih : Scans lo Key P n) {s r : Str}

include rule ih

theorem scanValue_step {v : Json} (hs : Clean s) (h : scanValue lo (n + 1) s = some (v, r)) :
    r ⊆ s ∧ P v := by
  cases s with
  | nil => cases h
  | cons c s =>
    have hs' : Clean s := hs.mono (List.subset_cons_self _ _)
    have hws : Clean (skipWs s) := hs'.mono (skipWs_subset s)
    have hback : ∀ {r : Str}, r ⊆ skipWs s → r ⊆ c :: s := by
      intro r hr
      exact List.subset_cons_of_subset _ (List.Subset.trans hr (skipWs_subset s))
    rw [scanValue] at h
    -- by the first character: a text, a list, an object or an atom
    by_cases hquote : c = chr '"'
    · rw [if_pos hquote] at h
      obtain ⟨p, hp, heq⟩ := Option.map_eq_some_iff.mp h
      obtain ⟨rfl, rfl⟩ := Prod.mk.inj heq
      obtain ⟨hsub, hunits⟩ := scanStr_clean hs' hp
      exact ⟨List.subset_cons_of_subset _ hsub, rule.str (rule.text hunits)⟩
    rw [if_neg hquote] at h
    by_cases harr : c = chr '['
    · rw [if_pos harr] at h
      split_ifs at h with hempty
      · obtain ⟨rfl, rfl⟩ := Prod.mk.inj (Option.some.inj h)
        exact ⟨hback (List.tail_subset _), rule.arr (List.forall_mem_nil _)⟩
      · obtain ⟨p, hp, heq⟩ := Option.map_eq_some_iff.mp h
        obtain ⟨rfl, rfl⟩ := Prod.mk.inj heq
        obtain ⟨hsub, hxs⟩ := ih.elems hws hp
        exact ⟨hback hsub, rule.arr hxs⟩
    rw [if_neg harr] at h
    by_cases hobj : c = chr '\x7b'
    · rw [if_pos hobj] at h
      split_ifs at h with hempty
      · obtain ⟨rfl, rfl⟩ := Prod.mk.inj (Option.some.inj h)
        -- the empty object is built by every reader
        have hbuild : lo.build [] = some [] := by
          rw [LoadOpts.build]
          split_ifs with _ hnodup
          · rfl
          · exact absurd List.nodup_nil hnodup
          · rfl
        exact ⟨hback (List.tail_subset _), rule.obj hbuild (List.forall_mem_nil _)⟩
      · cases hmembers : scanMembers lo n (skipWs s) with
        | none => rw [hmembers] at h; cases h
        | some p =>
          rw [hmembers] at h
          obtain ⟨d, hd, heq⟩ := Option.map_eq_some_iff.mp h
          obtain ⟨rfl, rfl⟩ := Prod.mk.inj heq
          obtain ⟨hsub, hkvs⟩ := ih.members hws hmembers
          exact ⟨hback hsub, rule.obj hd hkvs⟩
    rw [if_neg hobj] at h
    exact ⟨(scanAtom_cases h).1, rule.atom h⟩

omit rule in
theorem scanElems_step {xs : List Json} (hs : Clean s)
    (h : scanElems lo (n + 1) s = some (xs, r)) : r ⊆ s ∧ ∀ x ∈ xs, P x := by
  rw [scanElems] at h
  cases hvalue : scanValue lo n s with
  | none => rw [hvalue] at h; cases h
  | some p =>
    obtain ⟨v, s'⟩ := p
    obtain ⟨hsub, hv⟩ := ih.value hs hvalue
    rw [hvalue] at h
    dsimp only at h
    have hws := List.Subset.trans (skipWs_subset s') hsub
    revert h hws
    cases skipWs s' with
    | nil => intro h; cases h
    | cons c t =>
      intro h hws
      -- a bracket ends the list, and a comma goes on with it
      have ht : t ⊆ s := List.Subset.trans (List.subset_cons_self _ _) hws
      dsimp only at h
      split_ifs at h
      · obtain ⟨rfl, rfl⟩ := Prod.mk.inj (Option.some.inj h)
        exact ⟨ht, by simpa using hv⟩
      · obtain ⟨q, hq, heq⟩ := Option.map_eq_some_iff.mp h
        obtain ⟨rfl, rfl⟩ := Prod.mk.inj heq
        have hsub' := List.Subset.trans (skipWs_subset t) ht
        obtain ⟨hr, hxs⟩ := ih.elems (hs.mono hsub') hq
        refine ⟨List.Subset.trans hr hsub', ?_⟩
        intro x hx
        rcases List.mem_cons.mp hx with rfl | hx
        · exact hv
        · exact hxs x hx

theorem scanMembers_step {kvs : List (Str × Json)} (hs : Clean s)
    (h : scanMembers lo (n + 1) s = some (kvs, r)) :
    r ⊆ s ∧ ∀ p ∈ kvs, Key p.1 ∧ P p.2 := by
  cases s with
  | nil => cases h
  | cons c s =>
    rw [scanMembers] at h
    split_ifs at h
    cases hkey : scanStr n s with
    | none => rw [hkey] at h; cases h
    | some p =>
      obtain ⟨us, s₁⟩ := p
      have hs' : Clean s := hs.mono (List.subset_cons_self _ _)
      obtain ⟨hsub₁, hunits⟩ := scanStr_clean hs' hkey
      rw [hkey] at h
      dsimp only at h
      have hws₁ := List.Subset.trans (skipWs_subset s₁) hsub₁
      revert h hws₁
      cases skipWs s₁ with
      | nil => intro h; cases h
      | cons c₁ t₁ =>
        intro h hws₁
        -- the colon after the key
        have ht₁ : t₁ ⊆ s := List.Subset.trans (List.subset_cons_self _ _) hws₁
        dsimp only at h
        split_ifs at h
        have hsub₂ := List.Subset.trans (skipWs_subset t₁) ht₁
        cases hvalue : scanValue lo n (skipWs t₁) with
        | none => rw [hvalue] at h; cases h
        | some p =>
          obtain ⟨v, s₂⟩ := p
          obtain ⟨hsub₃, hv⟩ := ih.value (hs'.mono hsub₂) hvalue
          rw [hvalue] at h
          dsimp only at h
          have hws₂ := List.Subset.trans (skipWs_subset s₂) (List.Subset.trans hsub₃ hsub₂)
          revert h hws₂
          cases skipWs s₂ with
          | nil => intro h; cases h
          | cons c₂ t₂ =>
            intro h hws₂
            have ht₂ : t₂ ⊆ s := List.Subset.trans (List.subset_cons_self _ _) hws₂
            -- the member is what the rule asks for, and then the members after it
            have hmember : Key (joinUnits us) ∧ P v := ⟨rule.text hunits, hv⟩
            dsimp only at h
            split_ifs at h
            · obtain ⟨rfl, rfl⟩ := Prod.mk.inj (Option.some.inj h)
              exact ⟨List.subset_cons_of_subset _ ht₂, by simpa using hmember⟩
            · obtain ⟨q, hq, heq⟩ := Option.map_eq_some_iff.mp h
              obtain ⟨rfl, rfl⟩ := Prod.mk.inj heq
              have hsub₄ := List.Subset.trans (skipWs_subset t₂) ht₂
              obtain ⟨hr, hkvs⟩ := ih.members (hs'.mono hsub₄) hq
              refine ⟨List.subset_cons_of_subset _ (List.Subset.trans hr hsub₄), ?_⟩
              intro p hp
              rcases List.mem_cons.mp hp with rfl | hp
              · exact hmember
              · exact hkvs p hp

omit ih in
theorem ScanRule.scans (n : ℕ) : Scans lo Key P n := by
  induction n with
  | zero =>
    constructor
    · intro s r v _ h
      cases h
    · intro s r xs _ h
      cases h
    · intro s r kvs _ h
      cases h
  | succ n ih => exact ⟨fun hs h => scanValue_step rule ih hs h,
      fun hs h => scanElems_step ih hs h, fun hs h => scanMembers_step rule ih hs h⟩

omit ih in
/-- What the scanner establishes holds of a value read from a text without surrogates. The rule
asks for one case per production of the grammar, and is used for stability and for what can be
written. -/
theorem ScanRule.loads {t : Str} {v : Json} (ht : Clean t) (h : Py.loads lo t = some v) : P v := by
  unfold Py.loads at h
  split at h
  · cases h
  · rename_i hvalue
    split_ifs at h
    obtain rfl := Option.some.inj h
    exact ((rule.scans _).value (ht.mono (skipWs_subset t)) hvalue).2

end

theorem build_stable {lo : LoadOpts} {kvs d : List (Str × Json)} (h : lo.build kvs = some d)
    {o : DumpOpts} (hkvs : ∀ p ∈ kvs, o.text p.1 = p.1 ∧ Stable o p.2) : Stable o (.obj d) := by
  rw [Stable, stableFields_iff]
  unfold LoadOpts.build at h
  split_ifs at h with hunique hnodup
  · obtain rfl := Option.some.inj h
    exact ⟨hnodup, hkvs⟩
  · obtain rfl := Option.some.inj h
    refine ⟨Dict.nodup_keys_update List.nodup_nil, ?_⟩
    intro p hp
    exact hkvs p ((Dict.mem_update hp).resolve_left (List.not_mem_nil))

theorem scanNum_eq_some {s r : Str} {v : Json} (h : scanNum s = some (v, r)) :
    ∃ m, Numeral.scan s = some (m, r) ∧ v = .num m.value ∧
      ∀ i, m.value = .int i → m.int.length ≤ maxIntDigits := by
  unfold scanNum at h
  split at h
  · cases h
  · rename_i m r' hscan
    split at h
    · rename_i i hvalue
      split_ifs at h with hdigits
      obtain ⟨rfl, rfl⟩ := Prod.mk.inj (Option.some.inj h)
      exact ⟨m, hscan, by rw [hvalue], fun _ _ => hdigits⟩
    · rename_i x hvalue
      obtain ⟨rfl, rfl⟩ := Prod.mk.inj (Option.some.inj h)
      exact ⟨m, hscan, by rw [hvalue], fun i hi => nomatch hvalue.symm.trans hi⟩

/-- A value read from a text without surrogates is stable: the reader keeps the last of several
members with one key, and leaves no pair unjoined. -/
theorem loads_stable {lo : LoadOpts} (o : DumpOpts) {t : Str} {v : Json} (ht : Clean t)
    (h : loads lo t = some v) : Stable o v := by
  have hnames : ∀ p ∈ literals ++ constantNames, Stable o p.2 := by
    simp [literals, constantNames, Stable]
  have rule : ScanRule lo (fun k => o.text k = k) (Stable o) := {
    text := fun hus => text_of_joinPairs (joinPairs_joinUnits hus)
    str := id
    atom := by
      intro s r v hatom
      obtain ⟨p, hp, rfl⟩ | ⟨_, p, hp, rfl⟩ | hnum := (scanAtom_cases hatom).2
      · exact hnames p (List.mem_append_left _ hp)
      · exact hnames p (List.mem_append_right _ hp)
      · obtain ⟨m, _, rfl, _⟩ := scanNum_eq_some hnum
        trivial
    arr := stableList_iff.mpr
    obj := fun hd hkvs => build_stable hd hkvs }
  exact rule.loads ht h

/-- The digits of the integer part of a numeral that was read. -/
theorem scan_int_digits {s r : Str} {m : Numeral} (h : Numeral.scan s = some (m, r)) :
    Digits m.int := by
  unfold Numeral.scan at h
  dsimp only at h
  split at h
  · cases h
  · rename_i ds rest hint
    obtain ⟨rfl, _⟩ := Prod.mk.inj (Option.some.inj h)
    unfold Numeral.scanInt at hint
    split at hint
    · cases hint
    · rename_i c s' _
      split_ifs at hint with hzero hdigit
      · obtain ⟨rfl, _⟩ := Prod.mk.inj (Option.some.inj hint)
        intro x hx
        rw [List.mem_singleton.mp hx, hzero]
        exact isDigit_digitChar 0
      · obtain ⟨rfl, _⟩ := Prod.mk.inj (Option.some.inj hint)
        exact fun x hx => List.mem_takeWhile_imp hx

/-- **What was read can be written**, where `NaN` and the infinities can be. Reading makes no
other value that the writer rejects. -/
theorem loads_dumpable {lo : LoadOpts} {o : DumpOpts} (hnan : o.allowNaN = true) {t : Str}
    {v : Json} (ht : Clean t) (h : loads lo t = some v) : dumpable o v = true := by
  have hnames : ∀ p ∈ literals ++ constantNames, dumpable o p.2 = true := by
    simp [literals, constantNames, dumpable, hnan]
  have rule : ScanRule lo (fun _ => True) (fun v => dumpable o v = true) := {
    text := fun _ => trivial
    str := fun _ => rfl
    atom := by
      intro s r v hatom
      obtain ⟨p, hp, rfl⟩ | ⟨_, p, hp, rfl⟩ | hnum := (scanAtom_cases hatom).2
      · exact hnames p (List.mem_append_left _ hp)
      · exact hnames p (List.mem_append_right _ hp)
      · obtain ⟨m, hscan, rfl, hdigits⟩ := scanNum_eq_some hnum
        cases hvalue : m.value with
        | float x => simp [dumpable, hnan]
        | int i =>
          -- the integer has no more digits than its text
          have hsmall : i.natAbs < 10 ^ m.int.length := by
            have hlt := digitsVal_lt (scan_int_digits hscan)
            rw [Numeral.value] at hvalue
            split_ifs at hvalue <;> obtain rfl := Num.int.inj hvalue <;> omega
          rw [dumpable, decide_eq_true_eq]
          exact (length_natDigits_le hsmall).trans (max_le (hdigits i hvalue) (by decide))
    arr := fun hxs => by
      rw [dumpable, dumpableList_iff]
      exact hxs
    obj := by
      intro kvs d hd hkvs
      rw [dumpable, dumpableFields_iff]
      unfold LoadOpts.build at hd
      split_ifs at hd
      · obtain rfl := Option.some.inj hd
        exact fun p hp => (hkvs p hp).2
      · obtain rfl := Option.some.inj hd
        exact fun p hp => (hkvs p ((Dict.mem_update hp).resolve_left List.not_mem_nil)).2 }
  exact rule.loads ht h

/-! ### Escaped text is ASCII -/

/-- A text of ASCII characters. -/
def Ascii (s : Str) : Prop := ∀ c ∈ s, c.val < 128

theorem Ascii.append {s t : Str} (hs : Ascii s) (ht : Ascii t) : Ascii (s ++ t) := by
  intro c hc
  rcases List.mem_append.mp hc with hc | hc
  · exact hs c hc
  · exact ht c hc

theorem ascii_nil : Ascii [] := fun _ hc => absurd hc List.not_mem_nil

theorem Ascii.clean {s : Str} (h : Ascii s) : Clean s := by
  intro c hc
  have hlt := h c hc
  exact decide_eq_false (by omega)

theorem ascii_of_all {s : Str} (h : s.all (fun c => c.val < 128) = true) : Ascii s := by
  intro c hc
  simpa using List.all_eq_true.mp h c hc

theorem joinPairs_of_ascii {s : Str} (h : Ascii s) : joinPairs s = s := by
  refine joinPairs_of_no_surrogate (List.any_eq_false.mpr fun c hc => ?_)
  rw [h.clean c hc]
  simp

/-- A text of ASCII characters that are no control characters. -/
def Printable (s : Str) : Prop := ∀ c ∈ s, 32 ≤ c.val ∧ c.val < 128

theorem Printable.ascii {s : Str} (h : Printable s) : Ascii s := fun c hc => (h c hc).2

theorem Printable.append {s t : Str} (hs : Printable s) (ht : Printable t) :
    Printable (s ++ t) := by
  intro c hc
  rcases List.mem_append.mp hc with hc | hc
  · exact hs c hc
  · exact ht c hc

theorem Printable.cons {c : CodePoint} {s : Str} (hc : 32 ≤ c.val ∧ c.val < 128)
    (hs : Printable s) :
    Printable (c :: s) := by
  intro x hx
  rcases List.mem_cons.mp hx with rfl | hx
  · exact hc
  · exact hs x hx

theorem printable_nil : Printable [] := fun _ hc => absurd hc List.not_mem_nil

theorem printable_flatMap {α : Type} {f : α → Str} {xs : List α} (h : ∀ x ∈ xs, Printable (f x)) :
    Printable (xs.flatMap f) := by
  intro c hc
  obtain ⟨x, hx, hc⟩ := List.mem_flatMap.mp hc
  exact h x hx c hc

theorem printable_join {sep : Str} {ws : List Str} (hsep : Printable sep)
    (h : ∀ w ∈ ws, Printable w) :
    Printable (Str.join sep ws) := by
  induction ws with
  | nil => exact printable_nil
  | cons w ws ih =>
    cases ws with
    | nil => exact h w List.mem_cons_self
    | cons w' ws =>
      exact ((h w List.mem_cons_self).append hsep).append
        (ih fun x hx => h x (List.mem_cons_of_mem _ hx))

theorem printable_uEscape (n : ℕ) : Printable (uEscape n) := by
  have hhex : ∀ d, 32 ≤ (hexChar d).val ∧ (hexChar d).val < 128 := by
    intro d
    rw [hexChar]
    dsimp only
    split_ifs <;> omega
  exact .cons (by decide) (.cons (by decide) (.cons (hhex _) (.cons (hhex _)
    (.cons (hhex _) (.cons (hhex _) printable_nil)))))

theorem printable_digits {ds : Str} (h : ∀ c ∈ ds, Str.isDigit c = true) : Printable ds := by
  intro c hc
  have hdigit : 48 ≤ c.val ∧ c.val ≤ 57 := of_decide_eq_true (h c hc)
  omega

theorem Numeral.WF.printable {n : Numeral} (h : n.WF) : Printable n.print := by
  have hsign : Printable (if n.neg then [chr '-'] else []) := by
    split_ifs
    · exact .cons (by decide) printable_nil
    · exact printable_nil
  have hfrac : Printable (printFrac n.frac) := by
    rw [printFrac]
    split_ifs
    · exact printable_nil
    · exact .cons (by decide) (printable_digits h.frac_digits)
  have hexp : Printable (printExp n.exp) := by
    cases he : n.exp with
    | none => exact printable_nil
    | some e =>
      refine .cons (by decide) (.cons ?_ (printable_digits (h.exp_digits e he)))
      split_ifs <;> decide
  exact ((hsign.append (printable_digits h.int_digits)).append hfrac).append hexp

section

variable {o : DumpOpts} (hascii : o.ensureAscii = true)

include hascii

theorem printable_escape (c : CodePoint) : Printable (escape o c) := by
  unfold escape
  split
  · rename_i e he
    refine .cons (by decide) (.cons ?_ printable_nil)
    unfold shortEscape at he
    split_ifs at he <;> obtain rfl := Option.some.inj he <;> decide
  · split_ifs with hesc
    · exact printable_uEscape _
    · exact (printable_uEscape _).append (printable_uEscape _)
    · rw [DumpOpts.escapes_iff, not_or, not_and] at hesc
      have hlt := hesc.2 hascii
      exact .cons (by omega) printable_nil

theorem printable_quote (s : Str) : Printable (quote o s) :=
  .cons (by decide) ((printable_flatMap fun c _ => printable_escape hascii c).append
    (.cons (by decide) printable_nil))

/-- Text written with escapes is printable. -/
theorem render_printable (v : Json) : Printable (render o v) := by
  have hlit : ∀ {s : Str}, (s.all fun c => 32 ≤ c.val ∧ c.val < 128) = true → Printable s := by
    intro s hs c hc
    exact of_decide_eq_true (List.all_eq_true.mp hs c hc)
  have hcomma : Printable o.comma := by
    rw [DumpOpts.comma]
    split_ifs <;> exact hlit (by decide)
  have hcolon : Printable o.colon := by
    rw [DumpOpts.colon]
    split_ifs <;> exact hlit (by decide)
  induction v using Json.ind with
  | null =>
    rw [render]
    exact hlit (by decide)
  | bool b =>
    cases b <;> rw [render] <;> exact hlit (by decide)
  | num x =>
    cases x with
    | int n => exact (Numeral.wf_ofInt n).printable
    | float x =>
      rw [render]
      cases x with
      | nan => exact hlit (by decide)
      | inf neg => cases neg <;> exact hlit (by decide)
      | fin neg m => exact (Numeral.wf_ofFloat neg m).printable
  | str s => exact printable_quote hascii s
  -- the separators are printable, so a join of printable texts is
  | arr xs ih =>
    rw [render_arr]
    refine .cons (by decide) ((printable_join hcomma ?_).append (.cons (by decide) printable_nil))
    intro w hw
    obtain ⟨x, hx, rfl⟩ := List.mem_map.mp hw
    exact ih x hx
  | obj kvs ih =>
    rw [render_obj]
    refine .cons (by decide) ((printable_join hcomma ?_).append (.cons (by decide) printable_nil))
    intro w hw
    obtain ⟨p, hp, rfl⟩ := List.mem_map.mp hw
    have hp := (o.order_perm kvs).mem_iff.mp hp
    exact ((printable_quote hascii p.1).append hcolon).append (ih p hp)

/-- Text written with escapes is ASCII. -/
theorem render_ascii (v : Json) : Ascii (render o v) := (render_printable hascii v).ascii

theorem dumps_ascii {v : Json} {t : Str} (h : dumps o v = some t) : Ascii t := by
  rw [dumps] at h
  split_ifs at h
  obtain rfl := Option.some.inj h
  exact render_ascii hascii v

end

theorem Ascii.utf8_eq {s : Str} (hs : Ascii s) : utf8 s = some (s.flatMap utf8Char) := by
  rw [utf8, if_neg]
  rw [Bool.not_eq_true, List.any_eq_false]
  intro c hc
  rw [hs.clean c hc]
  simp

/-- The UTF-8 bytes of an ASCII text determine it. -/
theorem Ascii.flatMap_utf8Char_injective {s t : Str} (hs : Ascii s) (ht : Ascii t)
    (h : s.flatMap utf8Char = t.flatMap utf8Char) : s = t :=
  utf8_injective hs.utf8_eq (h ▸ ht.utf8_eq)

end Py
