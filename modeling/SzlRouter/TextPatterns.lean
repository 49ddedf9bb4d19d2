/-
Shortest prefixes, runs and lower case.

* `shortest_eq_some_iff` — what a lazy repetition takes before a pattern;
* `squeeze_append`, `squeeze_prefix` — a text whose runs are single stays so in its
  prefixes;
* `CaseTable` — the lower case of the runtime, with what Unicode says of every table;
* `CaseTable.squeeze_lower` — lower case makes no runs.
-/
import SzlRouter.PyStr
import Mathlib.Data.List.Basic

namespace Py

/-! ### Lazy repetition -/

section

variable {α : Type} (ok : α → Bool) (stop : List α → Bool)

/-- `x*?` before the pattern `stop`, where `ok` says what `x` matches. -/
def shortest : List α → Option (List α)
  | [] => if stop [] then some [] else none
  | c :: s =>
    if stop (c :: s) then some []
    else if ok c then (shortest s).map (c :: ·)
    else none

/-- The taken part matches `x`, the pattern follows, and it does not occur earlier. -/
theorem shortest_eq_some_iff {s m : List α} :
    shortest ok stop s = some m ↔ ∃ t, s = m ++ t ∧ stop t = true ∧ (∀ c ∈ m, ok c = true) ∧
      ∀ a b, m = a ++ b → b ≠ [] → stop (b ++ t) = false := by
  -- by induction on the text; the first place where the rest may stop is taken
  induction s generalizing m with
  | nil =>
    rw [shortest]
    constructor
    · intro h
      split_ifs at h with hstop
      obtain rfl := Option.some.inj h
      exact ⟨[], rfl, hstop, List.forall_mem_nil _,
        fun a b hab hb => absurd (List.append_eq_nil_iff.mp hab.symm).2 hb⟩
    · rintro ⟨t, hs, hstop, -, -⟩
      obtain ⟨rfl, rfl⟩ := List.append_eq_nil_iff.mp hs.symm
      rw [if_pos hstop]
  | cons c s ih =>
    rw [shortest]
    -- here it may stop, so nothing longer is the shortest
    by_cases hstop : stop (c :: s) = true
    · rw [if_pos hstop]
      constructor
      · intro h
        obtain rfl := Option.some.inj h
        exact ⟨c :: s, rfl, hstop, List.forall_mem_nil _,
          fun a b hab hb => absurd (List.append_eq_nil_iff.mp hab.symm).2 hb⟩
      · rintro ⟨t, hs, -, -, hfirst⟩
        cases m with
        | nil => rfl
        | cons d m =>
          have hearly := hfirst [] (d :: m) rfl (List.cons_ne_nil _ _)
          rw [← hs, hstop] at hearly
          exact nomatch hearly
    · rw [if_neg hstop]
      constructor
      · intro h
        split_ifs at h with hok
        obtain ⟨m', hm', rfl⟩ := Option.map_eq_some_iff.mp h
        obtain ⟨t, rfl, ht, hall, hfirst⟩ := ih.mp hm'
        refine ⟨t, rfl, ht, List.forall_mem_cons.mpr ⟨hok, hall⟩, ?_⟩
        intro a b hab hb
        cases a with
        | nil =>
          rw [List.nil_append] at hab
          rw [← hab]
          simpa using hstop
        | cons d a =>
          obtain ⟨rfl, rfl⟩ := List.cons.inj hab
          exact hfirst a b rfl hb
      · rintro ⟨t, hs, ht, hall, hfirst⟩
        cases m with
        | nil =>
          rw [List.nil_append] at hs
          rw [hs] at hstop
          exact absurd ht hstop
        | cons d m =>
          obtain ⟨rfl, rfl⟩ := List.cons.inj hs
          obtain ⟨hok, hall⟩ := List.forall_mem_cons.mp hall
          rw [if_pos hok, ih.mpr ⟨t, rfl, ht, hall, fun a b hab hb => hfirst (c :: a) b
            (congrArg (c :: ·) hab) hb⟩]
          rfl

end

/-! ### Runs -/

section

variable {α : Type} (sep : α → Bool) (one : α)

/-- `re.sub("[…]+", one, s)`, where the first argument says whether a run is going on. -/
def squeeze : Bool → List α → List α
  | _, [] => []
  | run, c :: s =>
    if sep c then if run then squeeze true s else one :: squeeze true s
    else c :: squeeze false s

theorem length_squeeze_le (run : Bool) (s : List α) :
    (squeeze sep one run s).length ≤ s.length := by
  induction s generalizing run with
  | nil => exact Nat.le_refl _
  | cons c s ih =>
    have htrue := ih true
    have hfalse := ih false
    rw [squeeze]
    split_ifs <;> simp only [List.length_cons] <;> omega

theorem squeeze_append (run : Bool) (s t : List α) :
    ∃ run', squeeze sep one run (s ++ t) = squeeze sep one run s ++ squeeze sep one run' t := by
  induction s generalizing run with
  | nil => exact ⟨run, rfl⟩
  | cons c s ih =>
    rw [List.cons_append, squeeze, squeeze]
    split_ifs
    · exact ih true
    · obtain ⟨run', h⟩ := ih true
      exact ⟨run', congrArg (one :: ·) h⟩
    · obtain ⟨run', h⟩ := ih false
      exact ⟨run', congrArg (c :: ·) h⟩

/-- A prefix of a text without runs has none. -/
theorem squeeze_prefix {run : Bool} {s t : List α}
    (h : squeeze sep one run (s ++ t) = s ++ t) : squeeze sep one run s = s := by
  obtain ⟨run', happend⟩ := squeeze_append sep one run s t
  rw [happend] at h
  have hs := length_squeeze_le sep one run s
  have ht := length_squeeze_le sep one run' t
  have hlength := congrArg List.length h
  simp only [List.length_append] at hlength
  exact (List.append_inj h (by omega)).1

/-- Squeezing twice is squeezing once. -/
theorem squeeze_squeeze (hone : sep one = true) (run : Bool) (s : List α) :
    squeeze sep one run (squeeze sep one run s) = squeeze sep one run s := by
  induction s generalizing run with
  | nil => rfl
  | cons c s ih =>
    cases hsep : sep c with
    | true =>
      cases run with
      | true =>
        rw [squeeze, if_pos hsep, if_pos rfl]
        exact ih true
      | false =>
        rw [squeeze, if_pos hsep, if_neg Bool.false_ne_true, squeeze, if_pos hone,
          if_neg Bool.false_ne_true, ih true]
    | false =>
      rw [squeeze, if_neg (by simp [hsep]), squeeze, if_neg (by simp [hsep]), ih false]

end

/-! ### Lower case -/

/-- The separators of a distribution name. -/
def Str.isPunctuation (c : CodePoint) : Bool := c = chr '-' ∨ c = chr '_' ∨ c = chr '.'

namespace Str

theorem isPunctuation_iff {c : CodePoint} :
    isPunctuation c = true ↔ c = chr '-' ∨ c = chr '_' ∨ c = chr '.' :=
  decide_eq_true_iff

theorem isPunctuation_val {c : CodePoint} (h : isPunctuation c = true) :
    c.val = 45 ∨ c.val = 95 ∨ c.val = 46 := by
  rcases isPunctuation_iff.mp h with rfl | rfl | rfl <;> decide

theorem lowerChar_cases (c : CodePoint) :
    (65 ≤ c.val ∧ c.val ≤ 90 ∧ (lowerChar c).val = c.val + 32) ∨
      (c.val = 0x212A ∧ lowerChar c = chr 'k') ∨ lowerChar c = c := by
  rw [lowerChar]
  split_ifs with hupper hkelvin
  · exact .inl ⟨hupper.1, hupper.2, Nat.mod_eq_of_lt (by omega)⟩
  · exact .inr (.inl ⟨hkelvin, rfl⟩)
  · exact .inr (.inr rfl)

theorem lowerChar_lowerChar (c : CodePoint) : lowerChar (lowerChar c) = lowerChar c := by
  rcases lowerChar_cases c with ⟨hlow, hhigh, hval⟩ | ⟨-, hk⟩ | hself
  · rw [lowerChar, if_neg (by omega), if_neg (by omega)]
  · rw [hk]
    decide
  · rw [hself, hself]

theorem lowerChar_of_isPunctuation {c : CodePoint} (h : isPunctuation c = true) :
    lowerChar c = c := by
  rcases isPunctuation_iff.mp h with rfl | rfl | rfl <;> decide

theorem isPunctuation_lowerChar (c : CodePoint) :
    isPunctuation (lowerChar c) = isPunctuation c := by
  rcases lowerChar_cases c with ⟨hlow, hhigh, hval⟩ | ⟨hkelvin, hk⟩ | hself
  · have hlower : isPunctuation (lowerChar c) ≠ true := fun h => by
      have := isPunctuation_val h
      omega
    have hupper : isPunctuation c ≠ true := fun h => by
      have := isPunctuation_val h
      omega
    rw [Bool.eq_false_iff.mpr hlower, Bool.eq_false_iff.mpr hupper]
  · have hc : isPunctuation c ≠ true := fun h => by
      have := isPunctuation_val h
      omega
    rw [hk, Bool.eq_false_iff.mpr hc]
    decide
  · rw [hself]

end Str

/-- The lower case of the runtime: the mapping of a character, which depends on the text
around it for a sigma alone (the first argument), and what is a decimal digit. -/
structure CaseTable where
  lowerChar : Bool → CodePoint → Str
  finalSigma : Str → Str → Bool
  isDecimal : CodePoint → Bool
  nonempty : ∀ final c, lowerChar final c ≠ []
  /-- A lower case letter is its own lower case. -/
  fixed : ∀ final final' c, ∀ d ∈ lowerChar final c, lowerChar final' d = [d]
  /-- A separator has no case. -/
  separator : ∀ final c, Str.isPunctuation c = true → lowerChar final c = [c]
  /-- No letter becomes a separator. -/
  letter : ∀ final c, Str.isPunctuation c = false →
    ∀ d ∈ lowerChar final c, Str.isPunctuation d = false
  not_decimal : ∀ c, Str.isPunctuation c = true → isDecimal c = false

namespace CaseTable

variable (T : CaseTable)

/-- The lower case of a text that stands after another. -/
def lowerFrom : Str → Str → Str
  | _, [] => []
  | before, c :: s =>
    T.lowerChar (T.finalSigma before s) c ++ lowerFrom (before ++ [c]) s

/-- `s.lower()`. -/
def lower (s : Str) : Str := T.lowerFrom [] s

/-- The characters that are their own lower case. -/
def Fixed (c : CodePoint) : Prop := ∀ final, T.lowerChar final c = [c]

theorem lowerFrom_of_fixed {s : Str} (before : Str) (h : ∀ c ∈ s, T.Fixed c) :
    T.lowerFrom before s = s := by
  induction s generalizing before with
  | nil => rfl
  | cons c s ih =>
    obtain ⟨hc, hs⟩ := List.forall_mem_cons.mp h
    rw [lowerFrom, hc, ih _ hs]
    rfl

theorem lower_of_fixed {s : Str} (h : ∀ c ∈ s, T.Fixed c) : T.lower s = s :=
  T.lowerFrom_of_fixed [] h

theorem fixed_lowerFrom (before s : Str) : ∀ d ∈ T.lowerFrom before s, T.Fixed d := by
  induction s generalizing before with
  | nil => exact List.forall_mem_nil _
  | cons c s ih =>
    intro d hd
    rcases List.mem_append.mp hd with hd | hd
    · exact fun final => T.fixed _ final c d hd
    · exact ih _ d hd

theorem lower_eq_nil {s : Str} : T.lower s = [] ↔ s = [] := by
  cases s with
  | nil => exact ⟨fun _ => rfl, fun _ => rfl⟩
  | cons c s => simp [lower, lowerFrom, T.nonempty]

/-- Text without separators is taken as it is, and ends a run. -/
theorem squeeze_letters {one : CodePoint} {run : Bool} {s : Str} (t : Str) (hs : s ≠ [])
    (h : ∀ c ∈ s, Str.isPunctuation c = false) :
    squeeze Str.isPunctuation one run (s ++ t) =
      s ++ squeeze Str.isPunctuation one false t := by
  induction s generalizing run with
  | nil => exact absurd rfl hs
  | cons c s ih =>
    obtain ⟨hc, hall⟩ := List.forall_mem_cons.mp h
    rw [List.cons_append, squeeze, if_neg (by simp [hc])]
    cases s with
    | nil => rfl
    | cons d s => exact congrArg (c :: ·) (ih (List.cons_ne_nil d s) hall)

/-- **Lower case makes no runs of separators.** A character that is no separator becomes one or
more that are none, and a separator stays as it is. -/
theorem squeeze_lowerFrom {one : CodePoint} {run : Bool} {s : Str} (before : Str)
    (h : squeeze Str.isPunctuation one run s = s) :
    squeeze Str.isPunctuation one run (T.lowerFrom before s) = T.lowerFrom before s := by
  induction s generalizing run before with
  | nil => rfl
  | cons c s ih =>
    rw [lowerFrom]
    cases hsep : Str.isPunctuation c with
    | false =>
      rw [squeeze, if_neg (by simp [hsep])] at h
      have hrest := ih (before ++ [c]) (List.cons.inj h).2
      rw [squeeze_letters _ (T.nonempty _ c) (T.letter _ c hsep), hrest]
    | true =>
      rw [T.separator _ c hsep]
      rw [squeeze, if_pos hsep] at h
      cases run with
      | true =>
        -- a second separator of a run would have been dropped
        rw [if_pos rfl] at h
        have hlength := length_squeeze_le Str.isPunctuation one true s
        rw [h, List.length_cons] at hlength
        omega
      | false =>
        rw [if_neg Bool.false_ne_true] at h
        obtain ⟨rfl, hs⟩ := List.cons.inj h
        rw [List.singleton_append, squeeze, if_pos hsep, if_neg Bool.false_ne_true, ih _ hs]

theorem squeeze_lower {one : CodePoint} {s : Str}
    (h : squeeze Str.isPunctuation one false s = s) :
    squeeze Str.isPunctuation one false (T.lower s) = T.lower s :=
  T.squeeze_lowerFrom [] h

end CaseTable

end Py
