/-
Which values have a JSON text that can be encoded.

A text that keeps characters as they are has the surrogates of its strings, and
UTF-8 has no encoding for a surrogate.

* `encodes_str`, `encodes_arr`, `encodes_obj` — a value can be written and encoded
  when its parts can;
* `encodes_set` — the same for an object that gets a member;
* `dumpable_congr`, `encodes_congr` — which options matter.
-/
import SzlRouter.JsonStable

namespace Py

/-! ### Clean texts -/

theorem utf8_isSome {s : Str} : (utf8 s).isSome = true ↔ Clean s := by
  rw [utf8]
  split_ifs with h
  · obtain ⟨c, hc, hsurrogate⟩ := List.any_eq_true.mp h
    simp only [Option.isSome_none, Bool.false_eq_true, false_iff]
    intro hclean
    exact Bool.false_ne_true ((hclean c hc).symm.trans hsurrogate)
  · rw [Bool.not_eq_true, List.any_eq_false] at h
    simp only [Option.isSome_some, true_iff]
    intro c hc
    simpa using h c hc

theorem clean_nil : Clean [] := fun _ hc => absurd hc List.not_mem_nil

theorem clean_cons {c : CodePoint} {s : Str} :
    Clean (c :: s) ↔ Str.isSurrogate c = false ∧ Clean s :=
  List.forall_mem_cons

theorem clean_append {s t : Str} : Clean (s ++ t) ↔ Clean s ∧ Clean t :=
  List.forall_mem_append

theorem clean_flatMap {α : Type} {f : α → Str} {xs : List α} :
    Clean (xs.flatMap f) ↔ ∀ x ∈ xs, Clean (f x) := by
  constructor
  · intro h x hx c hc
    exact h c (List.mem_flatMap.mpr ⟨x, hx, hc⟩)
  · intro h c hc
    obtain ⟨x, hx, hc⟩ := List.mem_flatMap.mp hc
    exact h x hx c hc

theorem clean_join_iff {sep : Str} (hsep : Clean sep) {ws : List Str} :
    Clean (Str.join sep ws) ↔ ∀ w ∈ ws, Clean w := by
  induction ws with
  | nil => simp [Str.join, clean_nil]
  | cons w ws ih =>
    cases ws with
    | nil => simp [Str.join]
    | cons w' ws =>
      show Clean (w ++ sep ++ Str.join sep (w' :: ws)) ↔ _
      rw [clean_append, clean_append, ih, and_iff_left hsep]
      exact List.forall_mem_cons.symm

/-- A text of ASCII characters, which can be checked by evaluation. -/
theorem clean_of_ascii {s : Str} (h : (s.all fun c => c.val < 128) = true) : Clean s :=
  (ascii_of_all h).clean

/-- A text without surrogates, which can be checked by evaluation. -/
theorem clean_of_all {s : Str} (h : (s.all fun c => !Str.isSurrogate c) = true) : Clean s := by
  intro c hc
  simpa using List.all_eq_true.mp h c hc

/-! ### Values -/

/-- A number cut off at 0 and at 1 is finite. -/
theorem isFinite_clamp (x : Binary64) : (Binary64.max 0 (Binary64.min 1 x)).isFinite = true := by
  have hzero : (0 : Binary64).isFinite = true := by decide +kernel
  have hone : (1 : Binary64).isFinite = true := by decide +kernel
  have hlimit : ¬(Binary64.inf false) < 1 := by decide +kernel
  have hneg : ¬(0 : Binary64) < .inf true := by decide +kernel
  rw [Binary64.max, Binary64.min]
  split_ifs with hlow hpos hpos
  · cases x with
    | fin neg m => rfl
    | nan => cases (Binary64.lt_def.mp hlow).1
    | inf neg =>
      cases neg with
      | false => exact absurd hlow hlimit
      | true => exact absurd hpos hneg
  · exact hzero
  · exact hone
  · exact hzero

/-- The value has a JSON text, and the text can be encoded. -/
def Encodes (o : DumpOpts) (v : Json) : Prop := dumpable o v = true ∧ Clean (render o v)

theorem encodes_iff {o : DumpOpts} {v : Json} :
    ((dumps o v).bind utf8).isSome = true ↔ Encodes o v := by
  rw [dumps, Encodes]
  split_ifs with h
  · rw [Option.bind_some, utf8_isSome, h, eq_self, true_and]
  · simp [h]

/-- What can be written depends on whether NaN and the infinities may be, and on no other option:
a text can always be written, though not always be encoded. -/
theorem dumpable_congr {o o' : DumpOpts} (h : o.allowNaN = o'.allowNaN) (v : Json) :
    dumpable o v = dumpable o' v := by
  induction v using Json.ind with
  | null => rfl
  | bool => rfl
  | num n =>
    cases n with
    | int n => rfl
    | float x => simp only [dumpable, h]
  | str => rfl
  | arr xs ih =>
    rw [Bool.eq_iff_iff, dumpable, dumpable, dumpableList_iff, dumpableList_iff]
    exact forall₂_congr fun x hx => by rw [ih x hx]
  | obj kvs ih =>
    rw [Bool.eq_iff_iff, dumpable, dumpable, dumpableFields_iff, dumpableFields_iff]
    exact forall₂_congr fun p hp => by rw [ih p hp]

theorem dumpable_obj {o : DumpOpts} {kvs : List (Str × Json)} :
    dumpable o (.obj kvs) = true ↔ ∀ p ∈ kvs, dumpable o p.2 = true := by
  rw [dumpable, dumpableFields_iff]

/-- A member of an object that can be written can be. -/
theorem dumpable_get {o : DumpOpts} {d : Dict} (h : dumpable o (.obj d) = true) (k : Str) :
    dumpable o ((Dict.get d k).getD .null) = true := by
  rw [dumpable_obj] at h
  cases hget : Dict.get d k with
  | none => rfl
  | some v => exact h _ (Dict.mem_of_get hget)

section

variable {o : DumpOpts} (hascii : o.ensureAscii = false)

include hascii

/-- A character that is written as itself is the only one that can be a surrogate. -/
theorem clean_escape {c : CodePoint} : Clean (escape o c) ↔ Str.isSurrogate c = false := by
  have hsmall : ∀ {d : CodePoint}, d.val < 128 → Str.isSurrogate d = false := by
    intro d hd
    exact decide_eq_false (by omega)
  rw [escape]
  split
  · rename_i e he
    have hc : c.val < 128 := by
      by_contra hge
      rw [shortEscape_of_le (by omega)] at he
      cases he
    have hascii : ([chr '\\', e].all fun c => c.val < 128) = true := by
      unfold shortEscape at he
      split_ifs at he <;> obtain rfl := Option.some.inj he <;> decide
    exact iff_of_true (clean_of_ascii hascii) (hsmall hc)
  -- a control character is escaped, and any other one is written as it stands
  · split_ifs with hesc
    · rw [DumpOpts.escapes_iff, hascii] at hesc
      have hc : c.val < 0x20 := by simpa using hesc
      exact iff_of_true (printable_uEscape _).ascii.clean (hsmall (by omega))
    · rw [DumpOpts.escapes_iff, hascii] at hesc
      have hc : c.val < 0x20 := by simpa using hesc
      omega
    · rw [clean_cons, and_iff_left clean_nil]

theorem clean_quote_iff {s : Str} : Clean (quote o s) ↔ Clean s := by
  have hquote : Str.isSurrogate (chr '"') = false := by decide
  rw [quote, clean_cons, clean_append, clean_cons, clean_flatMap]
  simp only [clean_escape hascii, hquote, clean_nil, true_and, and_true]
  rfl

theorem encodes_str {s : Str} : Encodes o (.str s) ↔ Clean s := by
  have hdumpable : dumpable o (.str s) = true := rfl
  rw [Encodes, render, clean_quote_iff hascii, and_iff_right hdumpable]

omit hascii in
theorem encodes_null : Encodes o .null := by
  refine ⟨rfl, ?_⟩
  rw [render]
  exact clean_of_ascii (by decide)

omit hascii in
theorem encodes_bool (b : Bool) : Encodes o (.bool b) := by
  refine ⟨rfl, ?_⟩
  cases b <;> rw [render] <;> exact clean_of_ascii (by decide)

omit hascii in
theorem encodes_int {n : ℤ} : Encodes o (.num (.int n)) ↔
    (natDigits n.natAbs).length ≤ maxIntDigits := by
  rw [Encodes, dumpable, decide_eq_true_eq]
  exact and_iff_left (Numeral.wf_ofInt n).printable.ascii.clean

omit hascii in
/-- The integer part of a double has at most 1024 digits. -/
theorem encodes_trunc (x : Binary64) : Encodes o (.num (.int x.trunc)) := by
  rw [encodes_int]
  -- the exponent stays a variable, so that no power of it is evaluated
  obtain ⟨k, hk⟩ : ∃ k, k = 1024 := ⟨1024, rfl⟩
  have hmag : ∀ m : Binary64.Mag, m.val / Binary64.one < 2 ^ k := by
    intro m
    have hlt : m.val < 2 ^ k * Binary64.one := by
      rw [Binary64.one, ← pow_add, hk]
      exact m.property.2
    exact Nat.div_lt_of_lt_mul (by rwa [Nat.mul_comm])
  have hsmall : x.trunc.natAbs < 2 ^ k := by
    cases x with
    | nan => exact Nat.two_pow_pos k
    | inf neg => exact Nat.two_pow_pos k
    | fin neg m =>
      rw [Binary64.trunc]
      split_ifs
      · rw [Int.natAbs_neg, Int.natAbs_natCast]
        exact hmag m
      · rw [Int.natAbs_natCast]
        exact hmag m
  have hten : 2 ^ k ≤ 10 ^ k := Nat.pow_le_pow_left (by omega) k
  exact (length_natDigits_le (hsmall.trans_le hten)).trans (by subst hk; decide)

omit hascii in
theorem encodes_float {x : Binary64} (h : x.isFinite = true) : Encodes o (.num (.float x)) := by
  cases x with
  | fin neg m =>
    refine ⟨?_, (Numeral.wf_ofFloat neg m).printable.ascii.clean⟩
    rw [dumpable, h, Bool.or_true]
  | nan => cases h
  | inf neg => cases h

omit hascii in
theorem clean_comma : Clean o.comma := by
  rw [DumpOpts.comma]
  split_ifs <;> exact clean_of_ascii (by decide)

omit hascii in
theorem encodes_arr {xs : List Json} : Encodes o (.arr xs) ↔ ∀ x ∈ xs, Encodes o x := by
  have hopen : Str.isSurrogate (chr '[') = false := by decide
  have hclose : Clean [chr ']'] := clean_of_ascii (by decide)
  rw [Encodes, dumpable, dumpableList_iff, render_arr, clean_cons, clean_append,
    clean_join_iff clean_comma, and_iff_right hopen, and_iff_left hclose, List.forall_mem_map]
  exact forall₂_and.symm

theorem encodes_obj {kvs : List (Str × Json)} :
    Encodes o (.obj kvs) ↔ ∀ p ∈ kvs, Clean p.1 ∧ Encodes o p.2 := by
  have hopen : Str.isSurrogate (chr '\x7b') = false := by decide
  have hclose : Clean [chr '\x7d'] := clean_of_ascii (by decide)
  have hcolon : Clean o.colon := by
    rw [DumpOpts.colon]
    split_ifs <;> exact clean_of_ascii (by decide)
  rw [Encodes, dumpable, dumpableFields_iff, render_obj, clean_cons, clean_append,
    clean_join_iff clean_comma, and_iff_right hopen, and_iff_left hclose, List.forall_mem_map]
  have hmember : ∀ p : Str × Json,
      Clean (member o (p.1, render o p.2)) ↔ Clean p.1 ∧ Clean (render o p.2) := by
    intro p
    rw [member, clean_append, clean_append, clean_quote_iff hascii, and_iff_left hcolon]
  constructor
  · rintro ⟨hdump, hclean⟩ p hp
    obtain ⟨hkey, hvalue⟩ := (hmember p).mp (hclean p ((o.order_perm kvs).mem_iff.mpr hp))
    exact ⟨hkey, hdump p hp, hvalue⟩
  · intro h
    refine ⟨fun p hp => (h p hp).2.1, fun p hp => (hmember p).mpr ?_⟩
    obtain ⟨hkey, _, hvalue⟩ := h p ((o.order_perm kvs).mem_iff.mp hp)
    exact ⟨hkey, hvalue⟩

/-- A member under a key of ASCII characters. -/
theorem encodes_field {k : Str} {v : Json} {d : List (Str × Json)}
    (hk : (k.all fun c => c.val < 128) = true) :
    Encodes o (.obj ((k, v) :: d)) ↔ Encodes o v ∧ Encodes o (.obj d) := by
  rw [encodes_obj hascii, encodes_obj hascii, List.forall_mem_cons,
    and_iff_right (clean_of_ascii hk)]

theorem encodes_empty : Encodes o (.obj []) := (encodes_obj hascii).mpr (List.forall_mem_nil _)

/-- An object that gets a member: the member counts, and what was under its key does
not. -/
theorem encodes_set {d : List (Str × Json)} {k : Str} {v : Json} :
    Encodes o (.obj (Dict.set d k v)) ↔
      Encodes o (.obj (Dict.set d k .null)) ∧ Encodes o v := by
  simp only [encodes_obj hascii]
  induction d with
  | nil =>
    simp only [Dict.set, List.forall_mem_cons]
    have hnull := @encodes_null o
    tauto
  | cons p d ih =>
    by_cases hk : p.1 = k
    · simp only [Dict.set, if_pos hk, List.forall_mem_cons]
      have hnull := @encodes_null o
      tauto
    · simp only [Dict.set, if_neg hk, List.forall_mem_cons]
      rw [ih]
      tauto

end

/-- What can be encoded does not depend on the order of members and on the blanks. A surrogate
that is written as itself stops the encoding wherever it stands. -/
theorem encodes_congr {o o' : DumpOpts} (hascii : o.ensureAscii = false)
    (hascii' : o'.ensureAscii = false) (hnan : o.allowNaN = o'.allowNaN) (v : Json) :
    Encodes o v ↔ Encodes o' v := by
  induction v using Json.ind with
  | null => exact iff_of_true encodes_null encodes_null
  | bool b => exact iff_of_true (encodes_bool b) (encodes_bool b)
  | num n =>
    rw [Encodes, Encodes, dumpable_congr hnan]
    cases n <;> simp only [render]
  | str s => rw [encodes_str hascii, encodes_str hascii']
  | arr xs ih =>
    rw [encodes_arr, encodes_arr]
    exact forall₂_congr ih
  | obj kvs ih =>
    rw [encodes_obj hascii, encodes_obj hascii']
    exact forall₂_congr fun p hp => and_congr_right' (ih p hp)

/-- A member of an object that can be encoded can be. -/
theorem encodes_get {o : DumpOpts} (hascii : o.ensureAscii = false) {d : Dict}
    (h : Encodes o (.obj d)) (k : Str) : Encodes o ((Dict.get d k).getD .null) := by
  rw [encodes_obj hascii] at h
  cases hget : Dict.get d k with
  | none => exact encodes_null
  | some v => exact (h _ (Dict.mem_of_get hget)).2

end Py
