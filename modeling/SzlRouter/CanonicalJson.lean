/-
JSON text that keeps characters outside ASCII.

Such a text has an encoding exactly when no string in it has a lone surrogate.

* `render_clean` — a value whose strings have no surrogate has a text without one;
* `utf8_of_clean` — such a text has an encoding.
-/
import SzlRouter.JsonStable

namespace Py

mutual

/-- A property of every string and key of a value. -/
def Texts (P : Str → Prop) : Json → Prop
  | .str s => P s
  | .arr xs => TextsList P xs
  | .obj kvs => TextsFields P kvs
  | _ => True

def TextsList (P : Str → Prop) : List Json → Prop
  | [] => True
  | x :: xs => Texts P x ∧ TextsList P xs

def TextsFields (P : Str → Prop) : List (Str × Json) → Prop
  | [] => True
  | (k, v) :: kvs => (P k ∧ Texts P v) ∧ TextsFields P kvs

end

theorem textsList_iff {P : Str → Prop} {xs : List Json} :
    TextsList P xs ↔ ∀ x ∈ xs, Texts P x := by
  induction xs with
  | nil => simp [TextsList]
  | cons x xs ih => simp [TextsList, ih]

theorem textsFields_iff {P : Str → Prop} {kvs : List (Str × Json)} :
    TextsFields P kvs ↔ ∀ p ∈ kvs, P p.1 ∧ Texts P p.2 := by
  induction kvs with
  | nil => simp [TextsFields]
  | cons p kvs ih => simp [TextsFields, ih]

@[simp] theorem texts_obj {P : Str → Prop} {kvs : List (Str × Json)} :
    Texts P (.obj kvs) ↔ ∀ p ∈ kvs, P p.1 ∧ Texts P p.2 := by
  rw [Texts, textsFields_iff]

@[simp] theorem texts_arr {P : Str → Prop} {xs : List Json} :
    Texts P (.arr xs) ↔ ∀ x ∈ xs, Texts P x := by
  rw [Texts, textsList_iff]

@[simp] theorem texts_str {P : Str → Prop} {s : Str} : Texts P (.str s) ↔ P s := Iff.rfl

@[simp] theorem texts_null {P : Str → Prop} : Texts P .null := trivial

@[simp] theorem texts_bool {P : Str → Prop} {b : Bool} : Texts P (.bool b) := trivial

@[simp] theorem texts_num {P : Str → Prop} {n : Num} : Texts P (.num n) := trivial

/-! ### Text without surrogates -/

theorem Clean.append {s t : Str} (hs : Clean s) (ht : Clean t) : Clean (s ++ t) := by
  intro c hc
  rcases List.mem_append.mp hc with hc | hc
  · exact hs c hc
  · exact ht c hc

theorem clean_join {sep : Str} {ws : List Str} (hsep : Clean sep) (h : ∀ w ∈ ws, Clean w) :
    Clean (Str.join sep ws) := by
  induction ws with
  | nil => exact ascii_nil.clean
  | cons w ws ih =>
    cases ws with
    | nil => exact h w List.mem_cons_self
    | cons w' ws =>
      exact ((h w List.mem_cons_self).append hsep).append
        (ih fun x hx => h x (List.mem_cons_of_mem _ hx))

/-- A character is kept, or what stands for it is printable. -/
theorem escape_cases (o : DumpOpts) (c : CodePoint) :
    escape o c = [c] ∨ Printable (escape o c) := by
  unfold escape
  split
  · rename_i e he
    refine .inr (.cons (by decide) (.cons ?_ printable_nil))
    unfold shortEscape at he
    split_ifs at he <;> obtain rfl := Option.some.inj he <;> decide
  · split_ifs
    · exact .inr (printable_uEscape _)
    · exact .inr ((printable_uEscape _).append (printable_uEscape _))
    · exact .inl rfl

theorem clean_quote (o : DumpOpts) {s : Str} (h : Clean s) : Clean (quote o s) := by
  have hquote : Clean [chr '"'] := (ascii_of_all (by decide)).clean
  have hbody : Clean (s.flatMap (escape o)) := by
    intro x hx
    obtain ⟨c, hc, hx⟩ := List.mem_flatMap.mp hx
    rcases escape_cases o c with hkept | hprint
    · rw [hkept] at hx
      rw [List.mem_singleton.mp hx]
      exact h c hc
    · exact hprint.ascii.clean x hx
  exact hquote.append (hbody.append hquote)

/-- A value whose strings have no surrogate has a text without one. -/
theorem render_clean (o : DumpOpts) {v : Json} (h : Texts Clean v) : Clean (render o v) := by
  have hlit : ∀ {s : Str}, s.all (fun c => c.val < 128) = true → Clean s := fun hs =>
    (ascii_of_all hs).clean
  have hcomma : Clean o.comma := by
    rw [DumpOpts.comma]
    split_ifs <;> exact hlit (by decide)
  have hcolon : Clean o.colon := by
    rw [DumpOpts.colon]
    split_ifs <;> exact hlit (by decide)
  -- brackets and separators are ASCII; the parts are clean by induction
  have hwrap : ∀ {a b : CodePoint} {ws : List Str}, a.val < 128 → b.val < 128 →
      (∀ w ∈ ws, Clean w) → Clean (a :: (Str.join o.comma ws ++ [b])) := by
    intro a b ws ha hb hws
    refine @Clean.append [a] _ (hlit (by simp [ha])) ((clean_join hcomma hws).append ?_)
    exact hlit (by simp [hb])
  induction v using Json.ind with
  | null =>
    rw [render]
    exact hlit (by decide)
  | bool b =>
    cases b <;> rw [render] <;> exact hlit (by decide)
  | num x =>
    cases x with
    | int n => exact (Numeral.wf_ofInt n).printable.ascii.clean
    | float x =>
      rw [render]
      cases x with
      | nan => exact hlit (by decide)
      | inf neg => cases neg <;> exact hlit (by decide)
      | fin neg m => exact (Numeral.wf_ofFloat neg m).printable.ascii.clean
  | str s => exact clean_quote o h
  | arr xs ih =>
    rw [texts_arr] at h
    rw [render_arr]
    refine hwrap (by decide) (by decide) fun w hw => ?_
    obtain ⟨x, hx, rfl⟩ := List.mem_map.mp hw
    exact ih x hx (h x hx)
  | obj kvs ih =>
    rw [texts_obj] at h
    rw [render_obj]
    refine hwrap (by decide) (by decide) fun w hw => ?_
    obtain ⟨p, hp, rfl⟩ := List.mem_map.mp hw
    have hp := (o.order_perm kvs).mem_iff.mp hp
    obtain ⟨hkey, hvalue⟩ := h p hp
    exact ((clean_quote o hkey).append hcolon).append (ih p hp hvalue)

theorem utf8_of_clean {s : Str} (h : Clean s) : utf8 s = some (s.flatMap utf8Char) := by
  rw [utf8, if_neg]
  rw [Bool.not_eq_true, List.any_eq_false]
  intro c hc
  rw [h c hc]
  simp

end Py
