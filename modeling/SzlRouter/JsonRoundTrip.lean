/-
`json.loads` reads back what `json.dumps` wrote.

What comes back is the value in normal form: members in the order they were
written, and, under `ensure_ascii`, surrogate pairs joined (`norm`).  Hence the
text determines the normal form.

* `loads_dumps` — the round trip;
* `dumps_injective` — values with one text have one normal form;
* `mem_keys_norm` — a key that is read back was written;
* `render_congr` — values with one normal form have one text.
-/
import SzlRouter.JsonLoads

namespace Py

/-! ### Strings -/

/-- Adjacent surrogates joined to the code point they encode. -/
def joinPairs : Str → Str
  | [] => []
  | [c] => [c]
  | h :: l :: s =>
    if isHigh h && isLow l then combine h l :: joinPairs s else h :: joinPairs (l :: s)

/-- The string that reading back an encoded string gives. -/
def DumpOpts.text (o : DumpOpts) (s : Str) : Str := if o.ensureAscii then joinPairs s else s

theorem highOf_lt (c : CodePoint) : highOf c < 0x110000 := by
  unfold highOf
  omega

theorem lowOf_lt (c : CodePoint) : lowOf c < 0x110000 := by
  unfold lowOf
  omega

/-- The units a character is written as. -/
def unitsOf (o : DumpOpts) (c : CodePoint) : List Unit16 :=
  match shortEscape c with
  | some _ => [(false, c)]
  | none =>
    if o.escapes c then
      if c.val < 0x10000 then [(true, c)]
      else [(true, ⟨highOf c, highOf_lt c⟩), (true, ⟨lowOf c, lowOf_lt c⟩)]
    else [(false, c)]

theorem hexVal_hexChar (d : ℕ) : hexVal (hexChar d) = some (d % 16) := by
  have h : ∀ d < 16, hexVal (hexChar d) = some d := by decide
  have hmod : hexChar d = hexChar (d % 16) := by simp [hexChar]
  rw [hmod, h _ (Nat.mod_lt d (by decide))]

theorem scanUnit_uEscape {n : ℕ} (h : n < 65536) (s : Str) :
    scanUnit (uEscape n ++ s) = some ((true, ⟨n, by omega⟩), s) := by
  have hval : 4096 * (n / 4096 % 16) + 256 * (n / 256 % 16) + 16 * (n / 16 % 16) + n % 16 = n := by
    omega
  simp only [uEscape, List.cons_append, List.nil_append, scanUnit, if_true, scanHex, hexVal_hexChar,
    hval, Nat.mod_eq_of_lt h]

theorem unescape_shortEscape {c e : CodePoint} (h : shortEscape c = some e) :
    unescape e = some c ∧ e ≠ chr 'u' := by
  rw [shortEscape] at h
  split_ifs at h with h1 h2 h3 h4 h5 h6 h7 <;> rw [← Option.some_inj.mp h]
  · exact ⟨by rw [h1]; rfl, by decide⟩
  · exact ⟨by rw [h2]; rfl, by decide⟩
  · exact ⟨by rw [show c = 10 from Fin.ext h3]; rfl, by decide⟩
  · exact ⟨by rw [show c = 13 from Fin.ext h4]; rfl, by decide⟩
  · exact ⟨by rw [show c = 9 from Fin.ext h5]; rfl, by decide⟩
  · exact ⟨by rw [show c = 12 from Fin.ext h6]; rfl, by decide⟩
  · exact ⟨by rw [show c = 8 from Fin.ext h7]; rfl, by decide⟩

theorem shortEscape_none {c : CodePoint} (h : shortEscape c = none) :
    c ≠ chr '"' ∧ c ≠ chr '\\' := by
  rw [shortEscape] at h
  split_ifs at h with h1 h2
  exact ⟨h1, h2⟩

/-- With more than `k` steps the string body `t` is read as `us`, up to `r`. -/
def ReadsAs (k : ℕ) (t : Str) (us : List Unit16) (r : Str) : Prop :=
  ∀ n, k < n → scanStr n t = some (us, r)

theorem ReadsAs.mono {k l : ℕ} {t r : Str} {us : List Unit16} (h : ReadsAs k t us r)
    (hkl : k ≤ l) : ReadsAs l t us r :=
  fun n hn => h n (by omega)

theorem ReadsAs.quote (r : Str) : ReadsAs 0 (chr '"' :: r) [] r := by
  intro n hn
  rcases n with _ | n
  · omega
  · rfl

theorem ReadsAs.unit {c : CodePoint} {s t r : Str} {u : Unit16} {us : List Unit16} {k : ℕ}
    (h : ReadsAs k t us r) (hc : c ≠ chr '"') (hu : scanUnit (c :: s) = some (u, t)) :
    ReadsAs (k + 1) (c :: s) (u :: us) r := by
  intro n hn
  rcases n with _ | n
  · omega
  · rw [scanStr, if_neg hc, hu]
    simp only [h n (by omega), Option.map_some]

theorem ReadsAs.uEscape {n : ℕ} (hn : n < 65536) {t r : Str} {us : List Unit16} {k : ℕ}
    (h : ReadsAs k t us r) :
    ReadsAs (k + 1) (uEscape n ++ t) ((true, ⟨n, by omega⟩) :: us) r :=
  h.unit (by decide) (scanUnit_uEscape hn t)

/-- A written character is read as its units. -/
theorem ReadsAs.escape (o : DumpOpts) (c : CodePoint) {t r : Str} {us : List Unit16} {k : ℕ}
    (h : ReadsAs k t us r) :
    ReadsAs (k + (escape o c).length) (escape o c ++ t) (unitsOf o c ++ us) r := by
  rw [Py.escape, unitsOf]
  -- three ways to write a code point: a short escape, one or two numbered ones, and itself
  cases hs : shortEscape c with
  | some e =>
    obtain ⟨hun, hu⟩ := unescape_shortEscape hs
    refine (h.unit (by decide) ?_).mono (by simp)
    show scanUnit (chr '\\' :: e :: t) = _
    rw [scanUnit, if_pos rfl]
    simp only [if_neg hu, hun, Option.map_some]
  | none =>
    obtain ⟨hq, hb⟩ := shortEscape_none hs
    simp only
    split_ifs with he hlt
    · exact (h.uEscape (n := c.val) hlt).mono (by simp [Py.uEscape])
    · have hhigh : highOf c < 65536 := by rw [highOf]; omega
      have hlow : lowOf c < 65536 := by rw [lowOf]; omega
      rw [List.append_assoc]
      exact ((h.uEscape hlow).uEscape hhigh).mono (by simp [Py.uEscape])
    · have hc : ¬ c.val < 0x20 := fun hc => he (DumpOpts.escapes_iff.mpr (.inl hc))
      refine h.unit hq ?_
      rw [scanUnit.eq_def]
      simp only [if_neg hb, if_neg hc]
      rfl

theorem readsAs_flatMap (o : DumpOpts) (s r : Str) :
    ReadsAs (s.flatMap (escape o)).length (s.flatMap (escape o) ++ chr '"' :: r)
      (s.flatMap (unitsOf o)) r := by
  induction s with
  | nil => exact ReadsAs.quote r
  | cons c s ih =>
    rw [List.flatMap_cons, List.flatMap_cons, List.append_assoc, List.length_append, Nat.add_comm]
    exact ih.escape o c

theorem combine_highOf_lowOf {c : CodePoint} (h : ¬ c.val < 0x10000)
    (hh : highOf c < 0x110000) (hl : lowOf c < 0x110000) :
    combine ⟨highOf c, hh⟩ ⟨lowOf c, hl⟩ = c := by
  have hc := c.isLt
  apply Fin.ext
  simp only [combine, highOf, lowOf]
  omega

/-- The units that can follow an escaped high surrogate without joining it. -/
def Apart (c : CodePoint) (us : List Unit16) : Prop :=
  isHigh c = true → ∀ u ∈ us.head?, u.1 = true → isLow u.2 = false

theorem joinUnits_cons {c : CodePoint} {us : List Unit16} (b : Bool)
    (h : b = true → Apart c us) : joinUnits ((b, c) :: us) = c :: joinUnits us := by
  cases us with
  | nil => rfl
  | cons u us =>
    rw [joinUnits, if_neg]
    simp only [Bool.and_eq_true, not_and]
    rintro ⟨⟨hb, hu⟩, hc⟩ hl
    simp [h hb hc u rfl hu] at hl

theorem joinUnits_unitsOf (o : DumpOpts) (c : CodePoint) {us : List Unit16}
    (h : o.ensureAscii = true → Apart c us) :
    joinUnits (unitsOf o c ++ us) = c :: joinUnits us := by
  rw [unitsOf]
  cases hs : shortEscape c with
  | some e => exact joinUnits_cons false nofun
  | none =>
    simp only
    split_ifs with he hlt
    · refine joinUnits_cons true fun _ hhigh => ?_
      by_cases ha : o.ensureAscii = true
      · exact h ha hhigh
      · -- only control characters are escaped
        rw [DumpOpts.escapes_iff, isHigh_iff] at *
        simp only [ha, false_and, or_false, Bool.false_eq_true] at he
        omega
    · have hhigh : isHigh ⟨highOf c, highOf_lt c⟩ = true := by
        have := c.isLt
        rw [isHigh_iff]
        simp only [highOf]
        omega
      have hlow : isLow ⟨lowOf c, lowOf_lt c⟩ = true := by
        rw [isLow_iff]
        simp only [lowOf]
        omega
      rw [List.cons_append, List.singleton_append, joinUnits]
      simp only [hhigh, hlow, Bool.and_self, if_true]
      rw [combine_highOf_lowOf hlt]
    · exact joinUnits_cons false nofun

/-- The first unit of a character is a low surrogate only if the character is. -/
theorem isLow_head_unitsOf (o : DumpOpts) (c : CodePoint) (us : List Unit16) :
    ∀ u ∈ (unitsOf o c ++ us).head?, isLow u.2 = true → isLow c = true := by
  rw [unitsOf]
  intro u hu hl
  cases hs : shortEscape c with
  | some e =>
    rw [hs] at hu
    rwa [← Option.some_inj.mp hu] at hl
  | none =>
    rw [hs] at hu
    simp only at hu
    split_ifs at hu with he hlt
    · rwa [← Option.some_inj.mp hu] at hl
    · rw [← Option.some_inj.mp hu] at hl
      have := c.isLt
      rw [isLow_iff] at hl
      simp only [highOf] at hl
      omega
    · rwa [← Option.some_inj.mp hu] at hl

/-- The units of a string join to its text. -/
theorem joinUnits_flatMap (o : DumpOpts) (s : Str) :
    joinUnits (s.flatMap (unitsOf o)) = o.text s := by
  rw [DumpOpts.text]
  by_cases ha : o.ensureAscii = true
  · rw [if_pos ha]
    induction s using joinPairs.induct with
    | case1 => rfl
    | case2 c =>
      have h := @joinUnits_unitsOf o c [] fun _ _ u hu => by simp at hu
      simpa [joinPairs, joinUnits] using h
    | case3 h l s hp ih =>
      -- a pair: both are escaped, and read back as one
      have hp' := hp
      rw [Bool.and_eq_true, isHigh_iff, isLow_iff] at hp
      have hunits : ∀ c : CodePoint, 0xD800 ≤ c.val → c.val < 0xE000 →
          unitsOf o c = [(true, c)] := by
        intro c h1 h2
        have hs : shortEscape c = none := by
          rw [shortEscape]
          have hq : c ≠ chr '"' := fun hc => by simp [hc, chr] at h1
          have hb : c ≠ chr '\\' := fun hc => by simp [hc, chr] at h1
          rw [if_neg hq, if_neg hb, if_neg (by omega), if_neg (by omega), if_neg (by omega),
            if_neg (by omega), if_neg (by omega)]
        have he : o.escapes c = true := DumpOpts.escapes_iff.mpr (.inr ⟨ha, by omega⟩)
        rw [unitsOf, hs]
        simp only [he, if_true, if_pos (show c.val < 0x10000 by omega)]
      rw [List.flatMap_cons, List.flatMap_cons, hunits h (by omega) (by omega),
        hunits l (by omega) (by omega), List.singleton_append, List.singleton_append, joinUnits,
        joinPairs]
      simp only [Bool.true_and, hp', if_true, ih]
    | case4 h l s hp ih =>
      rw [List.flatMap_cons, joinUnits_unitsOf o h, ih, joinPairs, if_neg hp]
      intro _ hhigh u hu _
      by_contra hl
      rw [List.flatMap_cons] at hu
      have hlow := isLow_head_unitsOf o l _ u hu (by simpa using hl)
      exact hp (by simp [hhigh, hlow])
  · rw [if_neg ha]
    induction s with
    | nil => rfl
    | cons c s ih =>
      rw [List.flatMap_cons, joinUnits_unitsOf o c fun h => absurd h ha, ih]

/-! ### Numbers and names -/

theorem isDigit_head_print {n : Numeral} (hn : n.WF) (r : Str) :
    ∃ c t, n.print ++ r = c :: t ∧ (Str.isDigit c = true ∨
      c = chr '-' ∧ ∃ d u, t = d :: u ∧ Str.isDigit d = true) := by
  obtain ⟨neg, int, frac, exp⟩ := n
  have hint : ∃ c t, int = c :: t ∧ Str.isDigit c = true := by
    cases int with
    | nil => exact absurd rfl hn.int_ne
    | cons c t => exact ⟨c, t, rfl, hn.int_digits c List.mem_cons_self⟩
  obtain ⟨c, t, rfl, hc⟩ := hint
  cases neg with
  | false => exact ⟨c, _, rfl, .inl hc⟩
  | true => exact ⟨chr '-', _, rfl, .inr ⟨rfl, c, _, rfl, hc⟩⟩

theorem isDigit_iff {c : CodePoint} : Str.isDigit c = true ↔ 48 ≤ c.val ∧ c.val ≤ 57 :=
  decide_eq_true_iff

/-- No name starts like a number, `-Infinity` differing at its second character. -/
theorem scanName_number {names : List (Str × Json)}
    (hnames : names = literals ∨ names = constantNames) {c : CodePoint} {t : Str}
    (h : Str.isDigit c = true ∨ c = chr '-' ∧ ∃ d u, t = d :: u ∧ Str.isDigit d = true) :
    scanName names (c :: t) = none := by
  rw [scanName, List.findSome?_eq_none_iff]
  intro p hp
  rw [if_neg]
  intro hstart
  have hpre : p.1 <+: c :: t := List.isPrefixOf_iff_prefix.mp hstart
  -- a name starts with its first letter
  have hhead : ∀ d w, p.1 = d :: w → c = d := by
    rintro d w hw
    rw [hw, List.cons_prefix_cons] at hpre
    exact hpre.1.symm
  -- no name starts with a digit, and only one starts with the sign
  have hnames' : p.1 = lit "-Infinity" ∨ ∃ d w, p.1 = d :: w ∧ 57 < d.val := by
    rcases hnames with rfl | rfl <;> simp only [literals, constantNames, List.mem_cons,
      List.not_mem_nil, or_false] at hp <;> rcases hp with rfl | rfl | rfl
    · exact .inr ⟨_, _, rfl, by decide⟩
    · exact .inr ⟨_, _, rfl, by decide⟩
    · exact .inr ⟨_, _, rfl, by decide⟩
    · exact .inr ⟨_, _, rfl, by decide⟩
    · exact .inr ⟨_, _, rfl, by decide⟩
    · exact .inl rfl
  rcases hnames' with hinf | ⟨d, w, hw, hd⟩
  · rw [hinf] at hpre
    have hcons : lit "-Infinity" = chr '-' :: chr 'I' :: lit "nfinity" := by decide
    rw [hcons, List.cons_prefix_cons] at hpre
    rcases h with h | ⟨-, d, u, rfl, hd⟩
    · rw [← hpre.1] at h
      exact absurd h (by decide)
    · rw [List.cons_prefix_cons] at hpre
      rw [← hpre.2.1] at hd
      exact absurd hd (by decide)
  · have hc := hhead d w hw
    rcases h with h | ⟨rfl, -⟩
    · rw [isDigit_iff, hc] at h
      omega
    · rw [← hc] at hd
      exact absurd hd (by decide)

theorem scanAtom_number {lo : LoadOpts} {n : Numeral} (hn : n.WF) {r : Str} :
    scanAtom lo (n.print ++ r) = scanNum (n.print ++ r) := by
  obtain ⟨c, t, ht, hc⟩ := isDigit_head_print hn r
  rw [ht, scanAtom, scanName_number (.inl rfl) hc, scanName_number (.inr rfl) hc]

theorem scanNum_int {n : ℤ} (h : (natDigits n.natAbs).length ≤ maxIntDigits) {r : Str}
    (hr : Numeral.Ends r) :
    scanNum ((Numeral.ofInt n).print ++ r) = some (.num (.int n), r) := by
  rw [scanNum, Numeral.scan_print (Numeral.wf_ofInt n) hr]
  simp only [Numeral.value_ofInt]
  exact if_pos h

theorem scanNum_float (neg : Bool) (m : Binary64.Mag) {r : Str} (hr : Numeral.Ends r) :
    scanNum ((Numeral.ofFloat neg m).print ++ r) = some (.num (.float (.fin neg m)), r) := by
  rw [scanNum, Numeral.scan_print (Numeral.wf_ofFloat neg m) hr]
  simp only [Numeral.value_ofFloat]

/-! ### Normal form -/

mutual

/-- The value that comes back: members in written order, the last of each key; strings
joined. -/
def norm (o : DumpOpts) : Json → Json
  | .str s => .str (o.text s)
  | .arr xs => .arr (normList o xs)
  | .obj kvs => .obj (Dict.update [] ((o.order (normFields o kvs)).map fun p => (o.text p.1, p.2)))
  | v => v

def normList (o : DumpOpts) : List Json → List Json
  | [] => []
  | x :: xs => norm o x :: normList o xs

def normFields (o : DumpOpts) : List (Str × Json) → List (Str × Json)
  | [] => []
  | (k, v) :: kvs => (k, norm o v) :: normFields o kvs

end

mutual

/-- No object repeats a key, as keys are read back. Two keys may differ as they stand and be read
back as one, where surrogate pairs are joined. -/
def Sound (o : DumpOpts) : Json → Prop
  | .arr xs => SoundList o xs
  | .obj kvs => (kvs.map fun p => o.text p.1).Nodup ∧ SoundFields o kvs
  | _ => True

def SoundList (o : DumpOpts) : List Json → Prop
  | [] => True
  | x :: xs => Sound o x ∧ SoundList o xs

def SoundFields (o : DumpOpts) : List (Str × Json) → Prop
  | [] => True
  | (_, v) :: kvs => Sound o v ∧ SoundFields o kvs

end

theorem normList_eq (o : DumpOpts) (xs : List Json) : normList o xs = xs.map (norm o) := by
  induction xs with
  | nil => rfl
  | cons x xs ih => rw [normList, ih, List.map_cons]

theorem normFields_eq (o : DumpOpts) (kvs : List (Str × Json)) :
    normFields o kvs = kvs.map fun p => (p.1, norm o p.2) := by
  induction kvs with
  | nil => rfl
  | cons p kvs ih => rw [normFields, ih, List.map_cons]

theorem soundList_iff {o : DumpOpts} {xs : List Json} :
    SoundList o xs ↔ ∀ x ∈ xs, Sound o x := by
  induction xs with
  | nil => simp [SoundList]
  | cons x xs ih => simp [SoundList, ih]

theorem soundFields_iff {o : DumpOpts} {kvs : List (Str × Json)} :
    SoundFields o kvs ↔ ∀ p ∈ kvs, Sound o p.2 := by
  induction kvs with
  | nil => simp [SoundFields]
  | cons p kvs ih => simp [SoundFields, ih]

/-- The members of an object as they are read back, in the order of the text. -/
def rereadMembers (o : DumpOpts) (kvs : List (Str × Json)) : List (Str × Json) :=
  (o.order kvs).map fun p => (o.text p.1, norm o p.2)

theorem norm_obj (o : DumpOpts) (kvs : List (Str × Json)) :
    norm o (.obj kvs) = .obj (Dict.update [] (rereadMembers o kvs)) := by
  rw [norm, normFields_eq, o.order_map kvs (fun p => (p.1, norm o p.2)) fun _ => rfl, List.map_map]
  rfl

theorem nodup_rereadMembers {o : DumpOpts} {kvs : List (Str × Json)}
    (h : (kvs.map fun p => o.text p.1).Nodup) : ((rereadMembers o kvs).map Prod.fst).Nodup := by
  rw [rereadMembers, List.map_map]
  exact (((o.order_perm kvs).map fun p => o.text p.1).nodup_iff).mpr h

theorem norm_obj_of_nodup {o : DumpOpts} {kvs : List (Str × Json)}
    (h : (kvs.map fun p => o.text p.1).Nodup) :
    norm o (.obj kvs) = .obj (rereadMembers o kvs) := by
  rw [norm_obj, Dict.update_nil (nodup_rereadMembers h)]

theorem norm_arr (o : DumpOpts) (xs : List Json) : norm o (.arr xs) = .arr (xs.map (norm o)) := by
  rw [norm, normList_eq]

/-! ### The round trip -/

/-- A text that starts a value: no blank and no closing bracket. -/
def Starts (t : Str) : Prop :=
  ∃ c u, t = c :: u ∧ isWs c = false ∧ c ≠ chr ']' ∧ c ≠ chr '}'

theorem Starts.append {t : Str} (h : Starts t) (r : Str) : Starts (t ++ r) := by
  obtain ⟨c, u, rfl, hc⟩ := h
  exact ⟨c, u ++ r, rfl, hc⟩

theorem Starts.skipWs {t : Str} (h : Starts t) : skipWs t = t := by
  obtain ⟨c, u, rfl, hc, -⟩ := h
  rw [Py.skipWs, List.dropWhile_cons, if_neg (by simp [hc])]

theorem starts_print {n : Numeral} (hn : n.WF) : Starts n.print := by
  obtain ⟨c, t, ht, hc⟩ := isDigit_head_print hn []
  rw [List.append_nil] at ht
  refine ⟨c, t, ht, ?_⟩
  rcases hc with hc | ⟨rfl, -⟩
  · rw [isDigit_iff] at hc
    have hb : c ≠ chr ']' := fun h => by simp [h, chr] at hc
    have hB : c ≠ chr '}' := fun h => by simp [h, chr] at hc
    refine ⟨decide_eq_false ?_, hb, hB⟩
    omega
  · decide

theorem starts_render (o : DumpOpts) (v : Json) : Starts (render o v) := by
  cases v with
  | null => exact ⟨_, _, rfl, by decide⟩
  | bool b => cases b <;> exact ⟨_, _, rfl, by decide⟩
  | num n =>
    cases n with
    | int n => exact starts_print (Numeral.wf_ofInt n)
    | float x =>
      cases x with
      | nan => exact ⟨_, _, rfl, by decide⟩
      | inf neg => cases neg <;> exact ⟨_, _, rfl, by decide⟩
      | fin neg m => exact starts_print (Numeral.wf_ofFloat neg m)
  | str s => exact ⟨_, _, rfl, by decide⟩
  | arr xs => exact ⟨_, _, rfl, by decide⟩
  | obj kvs => exact ⟨_, _, rfl, by decide⟩

theorem comma_append (o : DumpOpts) : ∃ b : Str, (∀ t, o.comma ++ t = chr ',' :: (b ++ t)) ∧
    0 < o.comma.length ∧ ∀ t, Starts t → skipWs (b ++ t) = t := by
  rw [DumpOpts.comma]
  split_ifs
  · exact ⟨[], fun _ => rfl, by decide, fun t h => h.skipWs⟩
  · exact ⟨[chr ' '], fun _ => rfl, by decide, fun t h => h.skipWs⟩

theorem colon_eq (o : DumpOpts) : ∃ b : Str, o.colon = chr ':' :: b ∧ ∀ t, Starts t →
    skipWs (b ++ t) = t := by
  rw [DumpOpts.colon]
  split_ifs
  · exact ⟨[], rfl, fun t h => h.skipWs⟩
  · exact ⟨[chr ' '], rfl, fun t h => h.skipWs⟩

/-- Reading `render o v` gives the normal form of `v`, whatever follows. The fuel has to exceed
the length of the text, which the reader starts with. -/
def ReadsBack (o : DumpOpts) (lo : LoadOpts) (v : Json) : Prop :=
  ∀ n r, (render o v).length < n → Numeral.Ends r →
    scanValue lo n (render o v ++ r) = some (norm o v, r)

theorem ends_cons {c : CodePoint} (r : Str)
    (hc : Str.isDigit c = false ∧ c ≠ chr '.' ∧ c ≠ chr 'e' ∧ c ≠ chr 'E') :
    Numeral.Ends (c :: r) := by
  intro d hd
  rw [← Option.some_inj.mp hd]
  exact hc

theorem skipWs_cons {c : CodePoint} (r : Str) (h : isWs c = false) : skipWs (c :: r) = c :: r := by
  rw [skipWs, List.dropWhile_cons, if_neg (by simp [h])]

theorem join_cons_cons (sep w x : Str) (ws : List Str) (r : Str) :
    Str.join sep (w :: x :: ws) ++ r = w ++ (sep ++ (Str.join sep (x :: ws) ++ r)) := by
  simp [Str.join]

theorem length_join_cons_cons (sep w x : Str) (ws : List Str) :
    (Str.join sep (w :: x :: ws)).length
      = w.length + (sep.length + (Str.join sep (x :: ws)).length) := by
  simp [Str.join]

theorem starts_join {o : DumpOpts} {w : Str} (ws : List Str) (h : Starts w) (r : Str) :
    Starts (Str.join o.comma (w :: ws) ++ r) := by
  cases ws with
  | nil => exact h.append r
  | cons x ws => exact ((h.append _).append _).append r

theorem scanElems_render (o : DumpOpts) (lo : LoadOpts) {xs : List Json} (hne : xs ≠ [])
    (h : ∀ x ∈ xs, ReadsBack o lo x) (n : ℕ) (r : Str)
    (hn : (Str.join o.comma (xs.map (render o))).length + 1 < n) :
    scanElems lo n (Str.join o.comma (xs.map (render o)) ++ chr ']' :: r)
      = some (xs.map (norm o), r) := by
  -- by induction on the elements; the fuel is the length of the text that is left
  induction xs generalizing n with
  | nil => exact absurd rfl hne
  | cons x xs ih =>
    rcases n with _ | n
    · omega
    have hx := h x List.mem_cons_self
    cases xs with
    | nil =>
      simp only [List.map_cons, List.map_nil, Str.join] at hn ⊢
      rw [scanElems, hx n _ (by omega) (ends_cons r (by decide))]
      simp only [skipWs_cons r (show isWs (chr ']') = false by decide), if_true]
    | cons y ys =>
      obtain ⟨b, hb, hpos, hskip⟩ := comma_append o
      have hstart := starts_join (o := o) (ys.map (render o)) (starts_render o y) (chr ']' :: r)
      have hcomma : chr ',' ≠ chr ']' := by decide
      rw [List.map_cons, List.map_cons, length_join_cons_cons] at hn
      have htail := ih (List.cons_ne_nil _ _) (fun z hz => h z (List.mem_cons_of_mem _ hz)) n
        (by rw [List.map_cons]; omega)
      rw [List.map_cons] at htail
      rw [List.map_cons, List.map_cons, join_cons_cons, hb, scanElems,
        hx n _ (by omega) (ends_cons _ (by decide))]
      simp only [skipWs_cons _ (show isWs (chr ',') = false by decide), if_neg hcomma, if_true,
        hskip _ hstart, htail, Option.map_some]
      rfl

/-- One member is read up to the comma or brace after it, blanks skipped. -/
theorem scanMembers_member (o : DumpOpts) (lo : LoadOpts) {k : Str} {v : Json}
    (hv : ReadsBack o lo v) {n : ℕ} {c : CodePoint} {s t : Str}
    (hn : (member o (k, render o v)).length < n + 1) (ht : skipWs t = c :: s)
    (hends : Numeral.Ends t) (hc : c = chr '}' ∨ c = chr ',') :
    scanMembers lo (n + 1) (member o (k, render o v) ++ t)
      = if c = chr '}' then some ([(o.text k, norm o v)], s)
        else (scanMembers lo n (skipWs s)).map fun p => ((o.text k, norm o v) :: p.1, p.2) := by
  obtain ⟨b, hb, hskip⟩ := colon_eq o
  have htext : member o (k, render o v) ++ t
      = chr '"' :: (k.flatMap (escape o) ++ chr '"' :: (chr ':' :: (b ++ (render o v ++ t)))) := by
    simp [member, quote, hb]
  have hlen : (member o (k, render o v)).length
      = (k.flatMap (escape o)).length + b.length + (render o v).length + 3 := by
    simp only [member, quote, hb, List.length_append, List.length_cons, List.length_nil]
    omega
  -- the key up to its closing quote, then the value up to the delimiter
  have hkey := readsAs_flatMap o k (chr ':' :: (b ++ (render o v ++ t))) n (by omega)
  have hval := hv n t (by omega) hends
  have hstart : Starts (render o v ++ t) := (starts_render o v).append _
  rw [htext, scanMembers]
  simp only [ne_eq, not_true_eq_false, if_false, hkey,
    skipWs_cons _ (show isWs (chr ':') = false by decide), hskip _ hstart, hval, ht,
    joinUnits_flatMap]
  rcases hc with rfl | rfl
  · rfl
  · rw [if_neg (by decide), if_pos rfl, if_neg (by decide)]

theorem starts_member (o : DumpOpts) (p : Str × Str) : Starts (member o p) :=
  ⟨chr '"', _, rfl, by decide⟩

theorem scanMembers_render (o : DumpOpts) (lo : LoadOpts) {kvs : List (Str × Json)}
    (hne : kvs ≠ []) (h : ∀ p ∈ kvs, ReadsBack o lo p.2) (n : ℕ) (r : Str)
    (hn : (Str.join o.comma (kvs.map fun p => member o (p.1, render o p.2))).length + 1 < n) :
    scanMembers lo n (Str.join o.comma (kvs.map fun p => member o (p.1, render o p.2))
        ++ chr '}' :: r)
      = some (kvs.map fun p => (o.text p.1, norm o p.2), r) := by
  -- by induction on the members; the fuel is the length of the text that is left
  induction kvs generalizing n with
  | nil => exact absurd rfl hne
  | cons p kvs ih =>
    rcases n with _ | n
    · omega
    have hv := h p List.mem_cons_self
    cases kvs with
    | nil =>
      simp only [List.map_cons, List.map_nil, Str.join] at hn ⊢
      rw [scanMembers_member o lo hv (by omega) (skipWs_cons r (by decide))
        (ends_cons r (by decide))
        (.inl rfl), if_pos rfl]
    | cons q kvs =>
      obtain ⟨b, hb, hpos, hskip⟩ := comma_append o
      have hstart := starts_join (o := o) (kvs.map fun p => member o (p.1, render o p.2))
        (starts_member o (q.1, render o q.2)) (chr '}' :: r)
      rw [List.map_cons, List.map_cons, length_join_cons_cons] at hn
      have htail := ih (List.cons_ne_nil _ _) (fun z hz => h z (List.mem_cons_of_mem _ hz)) n
        (by rw [List.map_cons]; omega)
      rw [List.map_cons] at htail
      rw [List.map_cons, List.map_cons, join_cons_cons, hb,
        scanMembers_member o lo hv (by omega) (skipWs_cons _ (by decide)) (ends_cons _ (by decide))
          (.inr rfl), if_neg (by decide), hskip _ hstart, htail]
      rfl

/-- The object of members whose keys are distinct, if they have to be. -/
theorem build_eq (lo : LoadOpts) {kvs : List (Str × Json)}
    (h : lo.uniqueKeys = true → (kvs.map Prod.fst).Nodup) :
    lo.build kvs = some (Dict.update [] kvs) := by
  rw [LoadOpts.build]
  split_ifs with hunique hnodup
  · rw [Dict.update_nil hnodup]
  · exact absurd (h hunique) hnodup
  · rfl

theorem scanValue_atom {lo : LoadOpts} {n : ℕ} (hn : 0 < n) {c : CodePoint} (t : Str)
    (hc : c ≠ chr '"' ∧ c ≠ chr '[' ∧ c ≠ chr '{') :
    scanValue lo n (c :: t) = scanAtom lo (c :: t) := by
  rcases n with _ | n
  · omega
  · rw [scanValue, if_neg hc.1, if_neg hc.2.1, if_neg hc.2.2]

theorem scanValue_number {lo : LoadOpts} {m : Numeral} (hm : m.WF) {n : ℕ} (hn : 0 < n)
    (r : Str) : scanValue lo n (m.print ++ r) = scanNum (m.print ++ r) := by
  obtain ⟨c, t, ht, hc⟩ := isDigit_head_print hm r
  have hc' : c ≠ chr '"' ∧ c ≠ chr '[' ∧ c ≠ chr '{' := by
    refine ⟨?_, ?_, ?_⟩ <;> rintro rfl <;> revert hc <;> simp [isDigit_iff, chr]
  rw [← @scanAtom_number lo m hm r, ht, scanValue_atom hn t hc']

theorem scanAtom_constant {lo : LoadOpts} (hlo : lo.constants = true) {s : Str} {p : Json × Str}
    (h : scanName literals s = none) (h' : scanName constantNames s = some p) :
    scanAtom lo s = some p := by
  rw [scanAtom, h, h']
  exact if_pos hlo

/-! #### One lemma for each kind of value -/

section kinds

variable (o : DumpOpts) (lo : LoadOpts)

theorem readsBack_null : ReadsBack o lo .null := by
  intro n r hn _
  refine (scanValue_atom (c := chr 'n') (by omega) (lit "ull" ++ r) (by decide)).trans ?_
  rfl

theorem readsBack_bool (b : Bool) : ReadsBack o lo (.bool b) := by
  intro n r hn _
  cases b with
  | false =>
    refine (scanValue_atom (c := chr 'f') (by omega) (lit "alse" ++ r) (by decide)).trans ?_
    rfl
  | true =>
    refine (scanValue_atom (c := chr 't') (by omega) (lit "rue" ++ r) (by decide)).trans ?_
    rfl

theorem readsBack_int {i : ℤ} (h : (natDigits i.natAbs).length ≤ maxIntDigits) :
    ReadsBack o lo (.num (.int i)) := by
  intro n r hn hr
  rw [render, scanValue_number (Numeral.wf_ofInt i) (by omega), scanNum_int h hr, norm.eq_def]

theorem readsBack_float {x : Binary64} (h : lo.constants = true ∨ x.isFinite = true) :
    ReadsBack o lo (.num (.float x)) := by
  intro n r hn hr
  rw [norm.eq_def]
  cases x with
  | fin neg m =>
    rw [render, floatText, scanValue_number (Numeral.wf_ofFloat neg m) (by omega),
      scanNum_float neg m hr]
  | nan =>
    have hlo := h.resolve_right (by simp [Binary64.isFinite])
    refine (scanValue_atom (c := chr 'N') (by omega) (lit "aN" ++ r) (by decide)).trans ?_
    exact scanAtom_constant hlo rfl rfl
  | inf neg =>
    have hlo := h.resolve_right (by simp [Binary64.isFinite])
    cases neg with
    | false =>
      refine (scanValue_atom (c := chr 'I') (by omega) (lit "nfinity" ++ r) (by decide)).trans ?_
      exact scanAtom_constant hlo rfl rfl
    | true =>
      refine (scanValue_atom (c := chr '-') (by omega) (lit "Infinity" ++ r) (by decide)).trans ?_
      exact scanAtom_constant hlo rfl rfl

theorem readsBack_str (s : Str) : ReadsBack o lo (.str s) := by
  rintro (_ | n) r hn _
  · omega
  · rw [render, quote, List.length_cons, List.length_append] at hn
    have hread := readsAs_flatMap o s r n (by rw [List.length_singleton] at hn; omega)
    rw [render, quote, List.cons_append, List.append_assoc, List.singleton_append, scanValue,
      if_pos rfl, hread]
    simp only [Option.map_some, joinUnits_flatMap, norm.eq_def]

theorem readsBack_arr {xs : List Json} (h : ∀ x ∈ xs, ReadsBack o lo x) :
    ReadsBack o lo (.arr xs) := by
  rintro (_ | n) r hn _
  · omega
  rw [render_arr, List.length_cons, List.length_append, List.length_singleton] at hn
  rw [render_arr, List.cons_append, List.append_assoc, List.singleton_append, scanValue,
    if_neg (by decide), if_pos rfl, norm_arr]
  cases xs with
  | nil => rfl
  | cons x xs =>
    have hstart := starts_join (o := o) (xs.map (render o)) (starts_render o x) (chr ']' :: r)
    have helems := scanElems_render o lo (List.cons_ne_nil x xs) h n r (by omega)
    have hhead : (Str.join o.comma (render o x :: xs.map (render o)) ++ chr ']' :: r).head?
        ≠ some (chr ']') := by
      obtain ⟨c, u, hcu, -, hc, -⟩ := hstart
      rw [hcu]
      exact fun h => hc (Option.some_inj.mp h)
    rw [List.map_cons] at helems ⊢
    rw [hstart.skipWs, if_neg hhead, helems]
    rfl

theorem readsBack_obj {kvs : List (Str × Json)}
    (hkeys : lo.uniqueKeys = true → (kvs.map fun p => o.text p.1).Nodup)
    (h : ∀ p ∈ kvs, ReadsBack o lo p.2) : ReadsBack o lo (.obj kvs) := by
  -- the members are read one by one, and the object is built from them
  have hbuild := build_eq lo fun hunique => nodup_rereadMembers (hkeys hunique)
  have hmem : ∀ p ∈ o.order kvs, ReadsBack o lo p.2 :=
    fun p hp => h p ((o.order_perm kvs).mem_iff.mp hp)
  rintro (_ | n) r hn _
  · omega
  rw [render_obj, List.length_cons, List.length_append, List.length_singleton] at hn
  rw [render_obj, List.cons_append, List.append_assoc, List.singleton_append, scanValue,
    if_neg (by decide), if_neg (by decide), if_pos rfl, norm_obj]
  rw [rereadMembers] at hbuild ⊢
  cases hord : o.order kvs with
  | nil => rfl
  | cons p ps =>
    rw [hord] at hn hmem hbuild
    have hstart := starts_join (o := o) (ps.map fun p => member o (p.1, render o p.2))
      (starts_member o (p.1, render o p.2)) (chr '}' :: r)
    have hmembers := scanMembers_render o lo (List.cons_ne_nil p ps) hmem n r (by omega)
    have hhead : (Str.join o.comma (member o (p.1, render o p.2)
        :: ps.map fun p => member o (p.1, render o p.2)) ++ chr '}' :: r).head?
        ≠ some (chr '}') := by
      obtain ⟨c, u, hcu, -, -, hc⟩ := hstart
      rw [hcu]
      exact fun h => hc (Option.some_inj.mp h)
    rw [List.map_cons] at hmembers
    rw [List.map_cons, hstart.skipWs, if_neg hhead, hmembers]
    simp only
    rw [hbuild]
    rfl

end kinds

/-- Reading gives back the normal form of every value that can be written. -/
theorem readsBack (o : DumpOpts) (lo : LoadOpts) (hlo : o.allowNaN = true → lo.constants = true)
    (v : Json) (hd : dumpable o v = true) (hs : lo.uniqueKeys = true → Sound o v) :
    ReadsBack o lo v := by
  induction v using Json.ind with
  | null => exact readsBack_null o lo
  | bool b => exact readsBack_bool o lo b
  | num x =>
    cases x with
    | int i =>
      rw [dumpable, decide_eq_true_iff] at hd
      exact readsBack_int o lo hd
    | float x =>
      rw [dumpable, Bool.or_eq_true] at hd
      exact readsBack_float o lo (hd.imp_left hlo)
  | str s => exact readsBack_str o lo s
  | arr xs ih =>
    rw [dumpable, dumpableList_iff] at hd
    rw [Sound, soundList_iff] at hs
    exact readsBack_arr o lo fun x hx => ih x hx (hd x hx) fun hunique => hs hunique x hx
  | obj kvs ih =>
    rw [dumpable, dumpableFields_iff] at hd
    rw [Sound, soundFields_iff] at hs
    exact readsBack_obj o lo (fun hunique => (hs hunique).1) fun p hp =>
      ih p hp (hd p hp) fun hunique => (hs hunique).2 p hp

/-- **The round trip.** A text that was written is read back as the normal form of the value:
numbers as they print, texts with their surrogate pairs joined, and the last of several members
with one key. A reader that refuses doubled keys has to be given none. -/
theorem loads_dumps {o : DumpOpts} {lo : LoadOpts} (hlo : o.allowNaN = true → lo.constants = true)
    {v : Json} {t : Str} (hs : lo.uniqueKeys = true → Sound o v) (h : dumps o v = some t) :
    loads lo t = some (norm o v) := by
  rw [dumps] at h
  split_ifs at h with hd
  rw [← Option.some_inj.mp h]
  have hread := readsBack o lo hlo v hd hs ((render o v).length + 1) [] (by omega) Numeral.ends_nil
  rw [List.append_nil] at hread
  rw [loads, (starts_render o v).skipWs, hread]
  rfl

/-- Values with one text have one normal form, since the one text is read back as either. -/
theorem dumps_injective {o : DumpOpts} {v w : Json} {t : Str} (h : dumps o v = some t)
    (h' : dumps o w = some t) : norm o v = norm o w := by
  have hv' := @loads_dumps o ⟨false, true⟩ (fun _ => rfl) v t (fun h => nomatch h) h
  have hw' := @loads_dumps o ⟨false, true⟩ (fun _ => rfl) w t (fun h => nomatch h) h'
  exact Option.some_inj.mp (hv'.symm.trans hw')

/-! ### Strings that are left alone -/

theorem joinPairs_of_no_surrogate {s : Str} (h : s.any Str.isSurrogate = false) :
    joinPairs s = s := by
  induction s using joinPairs.induct with
  | case1 => rfl
  | case2 c => rfl
  | case3 a b s hp _ =>
    rw [List.any_cons, Bool.or_eq_false_iff] at h
    rw [Bool.and_eq_true, isHigh_iff] at hp
    have hs : Str.isSurrogate a = true := decide_eq_true ⟨hp.1.1, by omega⟩
    rw [hs] at h
    exact absurd h.1 (by decide)
  | case4 a b s hp ih =>
    rw [List.any_cons, Bool.or_eq_false_iff] at h
    rw [joinPairs, if_neg hp, ih h.2]

/-- Joining leaves a string alone unless it makes a code point past `0xFFFF`. -/
theorem joinPairs_of_small {s : Str} (h : ∀ c ∈ joinPairs s, c.val < 0x10000) :
    joinPairs s = s := by
  induction s using joinPairs.induct with
  | case1 => rfl
  | case2 c => rfl
  | case3 a b s hp _ =>
    rw [joinPairs, if_pos hp] at h
    have hc := h (combine a b) List.mem_cons_self
    simp only [combine] at hc
    omega
  | case4 a b s hp ih =>
    rw [joinPairs, if_neg hp] at h ⊢
    rw [ih fun c hc => h c (List.mem_cons_of_mem _ hc)]

theorem text_eq_of_small {o : DumpOpts} {s t : Str}
    (ht : (t.all fun c => c.val < 0x10000) = true) (h : o.text s = t) : s = t := by
  rw [DumpOpts.text] at h
  split_ifs at h
  · rw [← h, List.all_eq_true] at ht
    rw [← joinPairs_of_small fun c hc => of_decide_eq_true (ht c hc), h]
  · exact h

/-- A key that is read back was written, if not as it stands: a surrogate pair comes back as one
code point. -/
theorem mem_keys_norm {o : DumpOpts} {kvs : List (Str × Json)} {k : Str}
    (h : k ∈ Dict.keys (Dict.update [] (rereadMembers o kvs))) :
    ∃ l ∈ Dict.keys kvs, o.text l = k := by
  rcases Dict.mem_keys_update.mp h with h | h
  · cases h
  · obtain ⟨p, hp, rfl⟩ := List.mem_map.mp h
    obtain ⟨q, hq, rfl⟩ := List.mem_map.mp hp
    exact ⟨q.1, List.mem_map.mpr ⟨q, (o.order_perm kvs).mem_iff.mp hq, rfl⟩, rfl⟩

/-! ### The text of a normal form -/

theorem shortEscape_of_le {c : CodePoint} (h : 0x7F ≤ c.val) : shortEscape c = none := by
  cases hs : shortEscape c with
  | none => rfl
  | some e =>
    rw [shortEscape] at hs
    split_ifs at hs with h1 h2 h3 h4 h5 h6 h7
    · rw [h1] at h
      exact absurd h (by decide)
    · rw [h2] at h
      exact absurd h (by decide)
    all_goals omega

/-- The character of a surrogate pair is written as the pair. -/
theorem escape_combine {o : DumpOpts} (ha : o.ensureAscii = true) {h l : CodePoint}
    (hh : isHigh h = true) (hl : isLow l = true) :
    escape o (combine h l) = escape o h ++ escape o l := by
  have hwritten : ∀ c : CodePoint, 0x7F ≤ c.val →
      escape o c =
        if c.val < 0x10000 then uEscape c else uEscape (highOf c) ++ uEscape (lowOf c) := by
    intro c hc
    rw [escape, shortEscape_of_le hc]
    exact if_pos (DumpOpts.escapes_iff.mpr (.inr ⟨ha, hc⟩))
  rw [isHigh_iff] at hh
  rw [isLow_iff] at hl
  -- the pair that is written for the joined code point is the pair it was joined from
  have hval : (combine h l).val = 0x10000 + (h.val - 0xD800) * 1024 + (l.val - 0xDC00) := by
    simp only [combine]
    omega
  have hhigh : highOf (combine h l) = h.val := by
    rw [highOf, hval]
    omega
  have hlow : lowOf (combine h l) = l.val := by
    rw [lowOf, hval]
    omega
  rw [hwritten h (by omega), hwritten l (by omega), hwritten (combine h l) (by omega),
    if_pos (show h.val < 0x10000 by omega), if_pos (show l.val < 0x10000 by omega),
    if_neg (by omega), hhigh, hlow]

/-- A string and what is read back from it have one text. -/
theorem quote_text (o : DumpOpts) (s : Str) : quote o (o.text s) = quote o s := by
  have hjoin : o.ensureAscii = true → (joinPairs s).flatMap (escape o) = s.flatMap (escape o) := by
    intro ha
    induction s using joinPairs.induct with
    | case1 => rfl
    | case2 c => rfl
    | case3 h l s hp ih =>
      rw [joinPairs, if_pos hp]
      rw [Bool.and_eq_true] at hp
      rw [List.flatMap_cons, List.flatMap_cons, List.flatMap_cons, ih,
        escape_combine ha hp.1 hp.2, List.append_assoc]
    | case4 h l s hp ih =>
      rw [joinPairs, if_neg hp, List.flatMap_cons, List.flatMap_cons, ih]
  rw [DumpOpts.text]
  split_ifs with ha
  · rw [quote, quote, hjoin ha]
  · rfl

/-- The same options, with the members in their own order. -/
def DumpOpts.unsorted (o : DumpOpts) : DumpOpts := { o with sortKeys := false }

/-- The text of a value is that of its normal form, whose members have the written order. -/
theorem render_unsorted (o : DumpOpts) {v : Json} (hs : Sound o v) :
    render o.unsorted (norm o v) = render o v := by
  induction v using Json.ind with
  | null => rfl
  | bool b => cases b <;> rfl
  | num x => cases x <;> rfl
  | str s =>
    rw [norm.eq_def]
    exact quote_text o s
  | arr xs ih =>
    rw [Sound, soundList_iff] at hs
    -- the members were put in order on the way out, and are left there
    have hmap : xs.map (render o.unsorted ∘ norm o) = xs.map (render o) :=
      List.map_congr_left fun x hx => ih x hx (hs x hx)
    rw [norm_arr, render_arr, render_arr, List.map_map, hmap]
    rfl
  | obj kvs ih =>
    rw [Sound, soundFields_iff] at hs
    have hmap : (rereadMembers o kvs).map
        (fun p => member o.unsorted (p.1, render o.unsorted p.2))
        = (o.order kvs).map fun p => member o (p.1, render o p.2) := by
      rw [rereadMembers, List.map_map]
      refine List.map_congr_left fun p hp => ?_
      have hp := (o.order_perm kvs).mem_iff.mp hp
      show quote o (o.text p.1) ++ o.colon ++ _ = quote o p.1 ++ o.colon ++ _
      rw [quote_text, ih p hp (hs.2 p hp)]
    rw [norm_obj_of_nodup hs.1, render_obj, render_obj]
    show _ :: (Str.join o.comma ((rereadMembers o kvs).map _) ++ _) = _
    rw [hmap]

/-- Values with one normal form have one text, where no two keys are written alike. The other
direction needs no such hypothesis. -/
theorem render_congr {o : DumpOpts} {v w : Json} (hv : Sound o v) (hw : Sound o w)
    (h : norm o v = norm o w) : render o v = render o w := by
  rw [← render_unsorted o hv, ← render_unsorted o hw, h]

end Py
