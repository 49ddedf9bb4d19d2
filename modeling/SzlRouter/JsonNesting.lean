/-
How deep the arrays and objects of a JSON text stand inside one another.

The scanner and the writer of the interpreter recurse once for each array or object
that stands in another, and raise `RecursionError` past a limit that depends on the
stack they are called from.  The brackets that are open at once, outside of strings,
are what the scanner has entered.

* `openBrackets_render` — the brackets of a written value are those of the value;
* `loadsWithin_dumps` — what was written is read back within the limit, and only then.
-/
import SzlRouter.JsonRoundTrip

namespace Py

/-! ### Values -/

namespace Json

mutual

/-- How many arrays and objects stand inside one another, the value itself included. -/
def nesting : Json → ℕ
  | .arr xs => nestingList xs + 1
  | .obj kvs => nestingFields kvs + 1
  | _ => 0

def nestingList : List Json → ℕ
  | [] => 0
  | x :: xs => max (nesting x) (nestingList xs)

def nestingFields : List (Str × Json) → ℕ
  | [] => 0
  | (_, v) :: kvs => max (nesting v) (nestingFields kvs)

end

theorem nestingList_le {xs : List Json} {n : ℕ} :
    nestingList xs ≤ n ↔ ∀ x ∈ xs, nesting x ≤ n := by
  induction xs with
  | nil => simp [nestingList]
  | cons x xs ih => rw [nestingList, Nat.max_le, ih, List.forall_mem_cons]

theorem nestingFields_le {kvs : List (Str × Json)} {n : ℕ} :
    nestingFields kvs ≤ n ↔ ∀ p ∈ kvs, nesting p.2 ≤ n := by
  induction kvs with
  | nil => simp [nestingFields]
  | cons p kvs ih => rw [nestingFields, Nat.max_le, ih, List.forall_mem_cons]

end Json

/-! ### Texts -/

/-- Where a text stands: outside of strings, in one, or after a backslash in one. -/
inductive Quoting
  | outside
  | inside
  | escaped

/-- The greatest number of brackets that are open at once, when `d` are open already. -/
def openBrackets : Quoting → ℕ → Str → ℕ
  | _, d, [] => d
  | .outside, d, c :: s =>
    if c = chr '[' ∨ c = chr '{' then openBrackets .outside (d + 1) s
    else if c = chr ']' ∨ c = chr '}' then max d (openBrackets .outside (d - 1) s)
    else openBrackets (if c = chr '"' then .inside else .outside) d s
  | .inside, d, c :: s =>
    openBrackets (if c = chr '"' then .outside else if c = chr '\\' then .escaped else .inside) d s
  | .escaped, d, _ :: s => openBrackets .inside d s

/-- `json.loads` where arrays and objects may be nested up to a limit; `none` also where it
raises `RecursionError`. -/
def loadsWithin (o : LoadOpts) (limit : ℕ) (s : Str) : Option Json :=
  if openBrackets .outside 0 s ≤ limit then loads o s else none

/-- `json.dumps` where arrays and objects may be nested up to a limit; `none` also where it
raises `RecursionError`. -/
def dumpsWithin (o : DumpOpts) (limit : ℕ) (v : Json) : Option Str :=
  if v.nesting ≤ limit then dumps o v else none

theorem loads_of_within {o : LoadOpts} {limit : ℕ} {s : Str} {v : Json}
    (h : loadsWithin o limit s = some v) : loads o s = some v := by
  rw [loadsWithin] at h
  split_ifs at h
  exact h

theorem dumps_of_within {o : DumpOpts} {limit : ℕ} {v : Json} {s : Str}
    (h : dumpsWithin o limit v = some s) : v.nesting ≤ limit ∧ dumps o v = some s := by
  rw [dumpsWithin] at h
  split_ifs at h with hlimit
  exact ⟨hlimit, h⟩

theorem le_openBrackets (q : Quoting) (d : ℕ) (s : Str) : d ≤ openBrackets q d s := by
  induction s generalizing q d with
  | nil => cases q <;> exact le_rfl
  | cons c s ih =>
    cases q with
    | outside =>
      rw [openBrackets]
      split_ifs
      · exact (Nat.le_succ d).trans (ih _ _)
      · exact le_max_left _ _
      · exact ih _ _
      · exact ih _ _
    | inside => exact ih _ _
    | escaped => exact ih _ _

/-! ### What is written -/

/-- The text opens no bracket and no string. -/
def Unnested (w : Str) : Prop := ∀ d t, openBrackets .outside d (w ++ t) = openBrackets .outside d t

/-- A character that is neither a bracket nor a quote. -/
def isPlain (c : CodePoint) : Bool :=
  c ≠ chr '[' ∧ c ≠ chr '{' ∧ c ≠ chr ']' ∧ c ≠ chr '}' ∧ c ≠ chr '"'

theorem unnested_of_plain {w : Str} (h : ∀ c ∈ w, isPlain c = true) : Unnested w := by
  intro d t
  induction w with
  | nil => rfl
  | cons c w ih =>
    obtain ⟨hc, hw⟩ := List.forall_mem_cons.mp h
    obtain ⟨h1, h2, h3, h4, h5⟩ := of_decide_eq_true hc
    rw [List.cons_append, openBrackets, if_neg (not_or.mpr ⟨h1, h2⟩),
      if_neg (not_or.mpr ⟨h3, h4⟩), if_neg h5]
    exact ih hw

theorem unnested_number {n : Numeral} (h : n.WF) : Unnested n.print := by
  have hplain : ∀ {c : CodePoint}, 43 ≤ c.val ∧ c.val ≤ 57 ∨ c.val = 101 → isPlain c = true := by
    intro c hc
    refine decide_eq_true ⟨?_, ?_, ?_, ?_, ?_⟩ <;> rintro rfl <;> revert hc <;> decide
  have hdigits : ∀ {ds : Str}, (∀ c ∈ ds, Str.isDigit c = true) → ∀ c ∈ ds, isPlain c = true := by
    intro ds hds c hc
    obtain ⟨hlow, hhigh⟩ := isDigit_iff.mp (hds c hc)
    exact hplain (Or.inl ⟨by omega, hhigh⟩)
  refine unnested_of_plain ?_
  simp only [Numeral.print, Numeral.printFrac, Numeral.printExp, List.forall_mem_append]
  refine ⟨⟨⟨?_, hdigits h.int_digits⟩, ?_⟩, ?_⟩
  · split_ifs
    · exact List.forall_mem_singleton.mpr (by decide)
    · exact fun _ hc => absurd hc List.not_mem_nil
  · split_ifs
    · exact fun _ hc => absurd hc List.not_mem_nil
    · exact List.forall_mem_cons.mpr ⟨by decide, hdigits h.frac_digits⟩
  · cases he : n.exp with
    | none => exact fun _ hc => absurd hc List.not_mem_nil
    | some e =>
      refine List.forall_mem_cons.mpr ⟨by decide, List.forall_mem_cons.mpr ⟨?_, ?_⟩⟩
      · split_ifs <;> decide
      · exact hdigits (h.exp_digits e he)

/-- A string is over where its quote is, whatever it says. -/
theorem openBrackets_escape (o : DumpOpts) (c : CodePoint) (d : ℕ) (t : Str) :
    openBrackets .inside d (escape o c ++ t) = openBrackets .inside d t := by
  -- no digit of an escape is a quote or a backslash, so none of them ends the string
  have hhex : ∀ n, hexChar n ≠ chr '"' ∧ hexChar n ≠ chr '\\' := by
    intro n
    have hval : (hexChar n).val ≠ 34 ∧ (hexChar n).val ≠ 92 := by
      rw [hexChar]
      dsimp only
      split_ifs <;> omega
    exact ⟨fun h => hval.1 (congrArg Fin.val h), fun h => hval.2 (congrArg Fin.val h)⟩
  have hunicode : ∀ n t, openBrackets .inside d (uEscape n ++ t) = openBrackets .inside d t := by
    intro n t
    simp [uEscape, openBrackets, hhex, show chr '\\' ≠ chr '"' by decide]
  rw [escape]
  cases hshort : shortEscape c with
  | some e => simp [openBrackets, show chr '\\' ≠ chr '"' by decide]
  | none =>
    obtain ⟨hquote, hbackslash⟩ : c ≠ chr '"' ∧ c ≠ chr '\\' := by
      constructor <;> rintro rfl <;> exact absurd hshort (by decide)
    dsimp only
    split_ifs
    · exact hunicode _ _
    · rw [List.append_assoc, hunicode, hunicode]
    · rw [List.singleton_append, openBrackets, if_neg hquote, if_neg hbackslash]

theorem unnested_quote (o : DumpOpts) (s : Str) : Unnested (quote o s) := by
  intro d t
  have hinside : ∀ s : Str, openBrackets .inside d (s.flatMap (escape o) ++ ([chr '"'] ++ t)) =
      openBrackets .outside d t := by
    intro s
    induction s with
    | nil => simp [openBrackets]
    | cons c s ih => rw [List.flatMap_cons, List.append_assoc, openBrackets_escape, ih]
  rw [quote, List.cons_append, List.append_assoc, openBrackets, if_neg (by decide),
    if_neg (by decide), if_pos rfl, hinside]

/-- The text is nested `m` deep, and closes what it opens. So the depth of what follows is not
changed, and the depth of a whole is the greatest of its parts. -/
def Nests (w : Str) (m : ℕ) : Prop := ∀ d n t, openBrackets .outside d (w ++ t) ≤ n ↔
  d + m ≤ n ∧ openBrackets .outside d t ≤ n

theorem Unnested.nests {w : Str} (h : Unnested w) : Nests w 0 := by
  intro d n t
  rw [h]
  exact ⟨fun hle => ⟨(le_openBrackets _ d t).trans hle, hle⟩, And.right⟩

/-- What stands in brackets, with no bracket between, is nested one less. -/
theorem nests_bracketed {opening closing : CodePoint}
    (hopening : opening = chr '[' ∨ opening = chr '{')
    (hclosing : closing = chr ']' ∨ closing = chr '}')
    {sep : Str} (hsep : Unnested sep) {α : Type} {f : α → Str} {g : α → ℕ} {xs : List α}
    (h : ∀ x ∈ xs, Nests (f x) (g x)) {m : ℕ} (hm : ∀ n, m ≤ n ↔ ∀ x ∈ xs, g x ≤ n) :
    Nests (opening :: (Str.join sep (xs.map f) ++ [closing])) (m + 1) := by
  -- the elements stand one after another, each at the depth of the bracket
  have hjoin : ∀ (xs : List α), (∀ x ∈ xs, Nests (f x) (g x)) → ∀ d n t,
      openBrackets .outside d (Str.join sep (xs.map f) ++ t) ≤ n ↔
        (∀ x ∈ xs, d + g x ≤ n) ∧ openBrackets .outside d t ≤ n := by
    intro xs
    induction xs with
    | nil => simp [Str.join]
    | cons x xs ih =>
      intro h d n t
      obtain ⟨hx, hxs⟩ := List.forall_mem_cons.mp h
      cases xs with
      | nil => simpa [Str.join] using hx d n t
      | cons y ys =>
        rw [List.map_cons, List.map_cons, join_cons_cons, hx, hsep, ← List.map_cons, ih hxs]
        simp only [List.mem_cons, forall_eq_or_imp, and_assoc]
  intro d n t
  -- the closing bracket is outside a string, so it ends the level
  have hclose : openBrackets .outside (d + 1) (closing :: t) =
      max (d + 1) (openBrackets .outside d t) := by
    rw [openBrackets, if_neg, if_pos hclosing, Nat.add_sub_cancel]
    rcases hclosing with rfl | rfl <;> decide
  rw [List.cons_append, openBrackets, if_pos hopening, List.append_assoc, hjoin xs h,
    List.singleton_append, hclose, Nat.max_le]
  -- the bound on every element is one on the deepest of them
  have hinner : (∀ x ∈ xs, d + 1 + g x ≤ n) ↔ xs = [] ∨ d + (m + 1) ≤ n := by
    cases xs with
    | nil => simp
    | cons x xs =>
      have hall := hm (n - (d + 1))
      have hg := fun y => show d + 1 + g y ≤ n ↔ d + 1 ≤ n ∧ g y ≤ n - (d + 1) by omega
      simp only [hg, List.forall_mem_cons] at hall ⊢
      simp only [reduceCtorEq, false_or]
      constructor
      · rintro ⟨⟨hd, hx⟩, hrest⟩
        have := hall.mpr ⟨hx, fun y hy => (hrest y hy).2⟩
        omega
      · intro hle
        obtain ⟨hx, hrest⟩ := hall.mp (by omega)
        exact ⟨⟨by omega, hx⟩, fun y hy => ⟨by omega, hrest y hy⟩⟩
  rw [hinner]
  have hnil : xs = [] → m = 0 := by
    rintro rfl
    exact Nat.le_zero.mp ((hm 0).mpr (by simp))
  constructor
  · rintro ⟨hempty | hle, hd, ht⟩
    · exact ⟨by rw [hnil hempty]; omega, ht⟩
    · exact ⟨hle, ht⟩
  · rintro ⟨hle, ht⟩
    exact ⟨Or.inr hle, by omega, ht⟩

/-- **The brackets of a written value are those of the value.** Brackets within its texts stand
in quotes and are not counted, so the depth of the text is that of the value. -/
theorem openBrackets_render (o : DumpOpts) (v : Json) : Nests (render o v) v.nesting := by
  have hplain : ∀ {w : Str}, w.all isPlain = true → Unnested w :=
    fun h => unnested_of_plain (List.all_eq_true.mp h)
  have hcomma : Unnested o.comma := by
    rw [DumpOpts.comma]
    split_ifs <;> exact hplain (by decide)
  have hcolon : Unnested o.colon := by
    rw [DumpOpts.colon]
    split_ifs <;> exact hplain (by decide)
  induction v using Json.ind with
  | null => exact (hplain (w := lit "null") (by decide)).nests
  | bool b =>
    cases b with
    | true => exact (hplain (w := lit "true") (by decide)).nests
    | false => exact (hplain (w := lit "false") (by decide)).nests
  | num x =>
    cases x with
    | int n => exact (unnested_number (Numeral.wf_ofInt n)).nests
    | float x =>
      cases x with
      | nan => exact (hplain (w := lit "NaN") (by decide)).nests
      | inf neg =>
        cases neg with
        | true => exact (hplain (w := lit "-Infinity") (by decide)).nests
        | false => exact (hplain (w := lit "Infinity") (by decide)).nests
      | fin neg m => exact (unnested_number (Numeral.wf_ofFloat neg m)).nests
  | str s => exact (unnested_quote o s).nests
  | arr xs ih =>
    rw [render_arr]
    exact nests_bracketed (Or.inl rfl) (Or.inl rfl) hcomma ih fun _ => Json.nestingList_le
  | obj kvs ih =>
    rw [render_obj]
    -- the members are written in another order
    have hmember : ∀ p ∈ o.order kvs, Nests (member o (p.1, render o p.2)) p.2.nesting := by
      intro p hp d n t
      rw [member, List.append_assoc, List.append_assoc, unnested_quote, hcolon]
      exact ih p ((o.order_perm kvs).mem_iff.mp hp) d n t
    refine nests_bracketed (Or.inr rfl) (Or.inr rfl) hcomma hmember fun n => ?_
    rw [Json.nestingFields_le]
    exact forall_congr' fun p => imp_congr_left (o.order_perm kvs).mem_iff.symm

/-- **What was written is read back within the limit**, and only then. The reader follows the
text bracket by bracket, so its limit is one on the nesting of the value. -/
theorem loadsWithin_dumps {o : DumpOpts} {lo : LoadOpts}
    (hlo : o.allowNaN = true → lo.constants = true) {v : Json} {t : Str}
    (hunique : lo.uniqueKeys = true → Sound o v) (h : dumps o v = some t) (limit : ℕ) :
    loadsWithin lo limit t = if v.nesting ≤ limit then some (norm o v) else none := by
  have hloads := loads_dumps hlo hunique h
  rw [dumps] at h
  split_ifs at h
  obtain rfl := Option.some.inj h
  have hnests := openBrackets_render o v 0 limit []
  have hempty : openBrackets .outside 0 [] ≤ limit := Nat.zero_le _
  rw [List.append_nil, Nat.zero_add, and_iff_left hempty] at hnests
  rw [loadsWithin]
  simp only [hnests, hloads]

end Py
