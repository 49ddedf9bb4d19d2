/-
The package that a release tag names (`.github/scripts/szl_pypi_release_gate.py`).

`main` splits the tag by a lazy pattern and looks the name up; `gate_package` compares
the whole tag with `norm(name)-v{version}`.

* `Normal` — the names that `norm` leaves alone; their prefixes are such names;
* `tagName_of_separable`, `separable_of_tagName` — when the pattern takes the name off a tag of
  the expected form;
* `selected_multi_iff` — the tag of a package selects it when no `-v` and digit stand
  inside its name.
-/
import SzlRouter.TextPatterns

open Py

namespace SzlRouter

namespace ReleaseGate

/-- One entry of `SZL_PACKAGES`. -/
structure Package where
  name : Str
  dir : Str
  environment : Str
  deriving DecidableEq

/-- What `main` ends a release run with. -/
inductive Refusal
  | tagForm (refName : Str)
  | noPackage (refName : Str) (declared : List Str)
  deriving DecidableEq

variable (T : CaseTable)

/-- `norm`. -/
def norm (name : Str) : Str := T.lower (squeeze Str.isPunctuation (chr '-') false name)

/-- `tag_expect_single`. -/
def tagExpectSingle (version : Str) : Str := chr 'v' :: version

/-- `tag_expect_multi`. -/
def tagExpectMulti (pkg : Package) (version : Str) : Str :=
  norm T pkg.name ++ chr '-' :: chr 'v' :: version

/-- The tag binding of `gate_package`. -/
def bindsTag (pkg : Package) (version refName : Str) : Bool :=
  refName = tagExpectSingle version ∨ refName = tagExpectMulti T pkg version

/-- `-v\d`, with anything after it. -/
def startsRelease : Str → Bool
  | d :: v :: x :: _ => d = chr '-' ∧ v = chr 'v' ∧ T.isDecimal x
  | _ => false

/-- `-v(?P<ver>\d.*)$`: the end is before a last line feed, too. -/
def restOfTag (s : Str) : Bool :=
  startsRelease T s ∧ chr '\n' ∉ (s.drop 3).dropLast

/-- The group `name` of `^(?P<name>.+?)-v(?P<ver>\d.*)$`. -/
def tagName : Str → Option Str
  | [] => none
  | c :: s =>
    if c = chr '\n' then none
    else (shortest (· ≠ chr '\n') (restOfTag T) s).map (c :: ·)

/-- The packages that a release run of `main` gates. -/
def selected (pkgs : List Package) (refName : Str) : Except Refusal (List Package) :=
  if pkgs.length = 1 then .ok pkgs
  else match tagName T refName with
    | none => .error (.tagForm refName)
    | some name =>
      let sel := pkgs.filter fun p => norm T p.name = norm T name
      if sel.length ≠ 1 then .error (.noPackage refName (pkgs.map (·.name)))
      else .ok sel

/-! ### Names -/

/-- A name that `norm` leaves as it is. -/
structure Normal (n : Str) : Prop where
  single : squeeze Str.isPunctuation (chr '-') false n = n
  fixed : ∀ c ∈ n, T.Fixed c

variable {T}

theorem Normal.norm_eq {n : Str} (h : Normal T n) : norm T n = n := by
  rw [norm, h.single, T.lower_of_fixed h.fixed]

theorem normal_norm (name : Str) : Normal T (norm T name) where
  single := T.squeeze_lower (squeeze_squeeze _ _ (by decide) _ _)
  fixed := T.fixed_lowerFrom [] _

theorem Normal.of_append {a b : Str} (h : Normal T (a ++ b)) : Normal T a where
  single := squeeze_prefix _ _ h.single
  fixed := fun c hc => h.fixed c (List.mem_append_left b hc)

theorem norm_eq_nil {name : Str} : norm T name = [] ↔ name = [] := by
  rw [norm, T.lower_eq_nil]
  cases name with
  | nil => exact ⟨fun _ => rfl, fun _ => rfl⟩
  | cons c s =>
    rw [squeeze, if_neg Bool.false_ne_true]
    cases Str.isPunctuation c <;> simp

/-! ### Splitting a tag -/

/-- The pattern does not begin before a dash, unless it is all there before it. -/
theorem startsRelease_of_append {b r : Str} (hb : b ≠ [])
    (h : startsRelease T (b ++ chr '-' :: r) = true) : startsRelease T b = true := by
  match b with
  | [] => exact absurd rfl hb
  | [x] =>
    cases r with
    | nil => exact nomatch h
    | cons y r => simp [startsRelease, show chr '-' ≠ chr 'v' by decide] at h
  | [x, y] =>
    have hdash : T.isDecimal (chr '-') = false := T.not_decimal _ (by decide)
    simp [startsRelease, hdash] at h
  | x :: y :: z :: b => exact h

theorem startsRelease_append {b : Str} (r : Str) (h : startsRelease T b = true) :
    startsRelease T (b ++ r) = true := by
  match b with
  | [] | [_] | [_, _] => exact nomatch h
  | x :: y :: z :: b => exact h

/-- A name that a tag can be read back to: no dash within it is followed by what looks like a
version, as the pattern stops at the first such place. -/
def Separable (T : CaseTable) (n : Str) : Prop :=
  n ≠ [] ∧ chr '\n' ∉ n ∧ ∀ a b, n = a ++ b → a ≠ [] → startsRelease T b = false

theorem separable_of_no_dash {n : Str} (hne : n ≠ []) (hline : chr '\n' ∉ n)
    (hdash : chr '-' ∉ n) : Separable T n := by
  refine ⟨hne, hline, fun a b hab _ => ?_⟩
  match b with
  | [] | [_] | [_, _] => rfl
  | x :: y :: z :: b =>
    have hx : x ≠ chr '-' := fun h => hdash (by simp [hab, h])
    simp [startsRelease, hx]

/-- A version as the pattern takes it. -/
structure Version (T : CaseTable) (version : Str) : Prop where
  digit : ∃ d w, version = d :: w ∧ T.isDecimal d = true
  line : chr '\n' ∉ version

theorem Version.startsRelease {version : Str} (h : Version T version) :
    startsRelease T (chr '-' :: chr 'v' :: version) = true := by
  obtain ⟨d, w, rfl, hd⟩ := h.digit
  simp [ReleaseGate.startsRelease, hd]

/-- After a text without line feeds the pattern asks for its beginning alone. -/
theorem restOfTag_eq {s : Str} (h : chr '\n' ∉ s) : restOfTag T s = startsRelease T s := by
  have hrest : chr '\n' ∉ (s.drop 3).dropLast := fun hmem =>
    h (List.mem_of_mem_drop ((List.dropLast_sublist _).subset hmem))
  simp [restOfTag, hrest]

theorem Version.line_rest {version : Str} (h : Version T version) :
    chr '\n' ∉ chr '-' :: chr 'v' :: version := by
  simpa [show chr '\n' ≠ chr '-' by decide, show chr '\n' ≠ chr 'v' by decide] using h.line

theorem Version.restOfTag {version : Str} (h : Version T version) :
    restOfTag T (chr '-' :: chr 'v' :: version) = true := by
  rw [restOfTag_eq h.line_rest]
  exact h.startsRelease

/-- **The name of a tag is taken off it, where it is separable.** The pattern is lazy, so it
stops at the first place that looks like a version, and in a separable name there is none. -/
theorem tagName_of_separable {n version : Str} (hn : Separable T n) (hv : Version T version) :
    tagName T (n ++ chr '-' :: chr 'v' :: version) = some n := by
  obtain ⟨hne, hline, hinside⟩ := hn
  obtain ⟨c, n', rfl⟩ := List.exists_cons_of_ne_nil hne
  obtain ⟨hc, hline⟩ := not_or.mp (fun h => hline (List.mem_cons.mpr h))
  have hshortest : shortest (· ≠ chr '\n') (ReleaseGate.restOfTag T)
      (n' ++ chr '-' :: chr 'v' :: version) = some n' := by
    rw [shortest_eq_some_iff]
    refine ⟨_, rfl, hv.restOfTag, ?_, ?_⟩
    · intro x hx
      simpa using fun h : x = chr '\n' => hline (h ▸ hx)
    · intro a b hab hb
      cases hstop : ReleaseGate.restOfTag T (b ++ chr '-' :: chr 'v' :: version) with
      | false => rfl
      | true =>
        -- the pattern would begin inside the name
        simp only [ReleaseGate.restOfTag, decide_eq_true_eq] at hstop
        have hearly := startsRelease_of_append hb hstop.1
        rw [hinside (c :: a) b (congrArg (c :: ·) hab) (List.cons_ne_nil _ _)] at hearly
        exact nomatch hearly
  show (if c = chr '\n' then none else
    (shortest (· ≠ chr '\n') (ReleaseGate.restOfTag T) (n' ++ chr '-' :: chr 'v' :: version)).map
      (c :: ·)) = some (c :: n')
  rw [if_neg (Ne.symm hc), hshortest]
  rfl

/-- **What is taken off a tag is the normal name before the version, if it has that norm.** A
name that was cut short is shorter in its norm as well, so it cannot be that of the package. -/
theorem separable_of_tagName {n m version : Str} (hn : Normal T n) (hv : Version T version)
    (htag : tagName T (n ++ chr '-' :: chr 'v' :: version) = some m)
    (hm : norm T m = n) : Separable T n := by
  cases htext : n ++ chr '-' :: chr 'v' :: version with
  | nil => exact absurd (List.append_eq_nil_iff.mp htext).2 (List.cons_ne_nil _ _)
  | cons c s =>
    rw [htext, tagName] at htag
    split_ifs at htag with hc
    obtain ⟨m', hm', rfl⟩ := Option.map_eq_some_iff.mp htag
    obtain ⟨t, hs, hstop, hall, hfirst⟩ := (shortest_eq_some_iff _ _).mp hm'
    have hparts : n ++ chr '-' :: chr 'v' :: version = (c :: m') ++ t := by
      rw [htext, hs]
      rfl
    have hprefix : ∃ b, n = (c :: m') ++ b := by
      rcases List.append_eq_append_iff.mp hparts with ⟨b, hmb, hrest⟩ | ⟨b, hnb, -⟩
      · cases n with
        | nil => exact absurd (norm_eq_nil.mp hm) (List.cons_ne_nil _ _)
        | cons x n =>
          obtain ⟨rfl, rfl⟩ := List.cons.inj hmb
          by_cases hb : b = []
          · exact ⟨[], by simp [hb]⟩
          · -- the pattern would have ended before the version's dash
            have hearly := hfirst n b rfl hb
            rw [← hrest, hv.restOfTag] at hearly
            exact nomatch hearly
      · exact ⟨b, hnb⟩
    obtain ⟨b, hb⟩ := hprefix
    have hnormal : Normal T (c :: m') := Normal.of_append (hb ▸ hn)
    obtain rfl : n = c :: m' := by rw [← hm, hnormal.norm_eq]
    have hline : chr '\n' ∉ c :: m' := by
      intro hmem
      rcases List.mem_cons.mp hmem with h | h
      · exact hc h.symm
      · simpa using hall _ h
    refine ⟨List.cons_ne_nil _ _, hline, fun a b' hab ha => ?_⟩
    cases hstart : startsRelease T b' with
    | false => rfl
    | true =>
      cases a with
      | nil => exact absurd rfl ha
      | cons x a =>
        -- the pattern would have ended there
        obtain ⟨rfl, rfl⟩ := List.cons.inj hab
        have hb' : b' ≠ [] := fun h => by rw [h] at hstart; exact nomatch hstart
        have ht : chr '-' :: chr 'v' :: version = t := List.append_cancel_left hparts
        have hfree : chr '\n' ∉ b' ++ t := by
          intro hmem
          rcases List.mem_append.mp hmem with h | h
          · exact hline (List.mem_cons_of_mem _ (List.mem_append_right a h))
          · rw [← ht] at h
            exact hv.line_rest h
        have hearly := hfirst a b' rfl hb'
        rw [restOfTag_eq hfree, startsRelease_append t hstart] at hearly
        exact nomatch hearly

/-! ### Selecting -/

theorem filter_eq_singleton {α β : Type} [DecidableEq β] {f : α → β} {l : List α} {a : α}
    (hnodup : (l.map f).Nodup) (ha : a ∈ l) : (l.filter fun x => f x = f a) = [a] := by
  induction l with
  | nil => exact nomatch ha
  | cons x l ih =>
    obtain ⟨hx, hl⟩ := List.nodup_cons.mp hnodup
    rcases List.mem_cons.mp ha with rfl | hmem
    · have hrest : (l.filter fun x => f x = f a) = [] :=
        List.filter_eq_nil_iff.mpr fun y hy h =>
          hx (of_decide_eq_true h ▸ List.mem_map_of_mem hy)
      rw [List.filter_cons_of_pos (by simp), hrest]
    · have hne : f x ≠ f a := fun h => hx (h ▸ List.mem_map_of_mem hmem)
      rw [List.filter_cons_of_neg (by simpa using hne), ih hl hmem]

/-- **The tag of a package selects it, and it alone, exactly when its name is
separable.** -/
theorem selected_multi_iff (T : CaseTable) (pkgs : List Package) (p : Package) (version : Str)
    (hpkgs : 2 ≤ pkgs.length) (hnodup : (pkgs.map fun q => norm T q.name).Nodup)
    (hp : p ∈ pkgs) (hv : Version T version) :
    selected T pkgs (tagExpectMulti T p version) = .ok [p] ↔ Separable T (norm T p.name) := by
  have hmany : pkgs.length ≠ 1 := by omega
  constructor
  · intro h
    rw [selected, if_neg hmany] at h
    split at h
    · exact nomatch h
    case h_2 name htag =>
      simp only at h
      split_ifs at h with hlength
      -- the only package that was selected is among those of the tag's name
      have hmem : p ∈ pkgs.filter fun q => norm T q.name = norm T name := by
        rw [Except.ok.inj h]
        exact List.mem_singleton_self p
      have hname : norm T p.name = norm T name := by
        simpa using (List.mem_filter.mp hmem).2
      exact separable_of_tagName (normal_norm _) hv htag hname.symm
  · intro h
    rw [selected, if_neg hmany, tagExpectMulti, tagName_of_separable h hv]
    -- the names are distinct, so its own name selects it alone
    have hsel : (pkgs.filter fun q => norm T q.name = norm T (norm T p.name)) = [p] := by
      rw [(normal_norm p.name).norm_eq]
      exact filter_eq_singleton hnodup hp
    simp only [hsel]
    rfl

/-! ### A name with a version in it -/

/-- The tables of a runtime, on ASCII. -/
def asciiTable : CaseTable where
  lowerChar _ c := [Str.lowerChar c]
  finalSigma _ _ := false
  isDecimal := Str.isDigit
  nonempty _ _ := List.cons_ne_nil _ _
  fixed _ _ c d hd := by
    rw [List.mem_singleton.mp hd, Str.lowerChar_lowerChar]
  separator _ c hc := by
    rw [Str.lowerChar_of_isPunctuation hc]
  letter _ c hc d hd := by
    rw [List.mem_singleton.mp hd, Str.isPunctuation_lowerChar, hc]
  not_decimal c hc := by
    rcases Str.isPunctuation_iff.mp hc with rfl | rfl | rfl <;> decide

def fooTwo : Package := ⟨lit "foo-v2", lit "foo2", lit "pypi"⟩

def bar : Package := ⟨lit "bar", lit "bar", lit "pypi"⟩

/-- `foo-v2` at `1.0`: the pattern takes `foo` off its tag, and no package has that
name. -/
theorem selected_versioned_name :
    bindsTag asciiTable fooTwo (lit "1.0") (lit "foo-v2-v1.0") = true ∧
    ([fooTwo, bar].map fun q => norm asciiTable q.name).Nodup ∧
    selected asciiTable [fooTwo, bar] (tagExpectMulti asciiTable fooTwo (lit "1.0")) =
      .error (.noPackage (lit "foo-v2-v1.0") [lit "foo-v2", lit "bar"]) := by
  decide +kernel

/-- `bar` at `1.0`. -/
theorem selected_bar :
    selected asciiTable [fooTwo, bar] (tagExpectMulti asciiTable bar (lit "1.0")) = .ok [bar] := by
  refine (selected_multi_iff asciiTable [fooTwo, bar] bar (lit "1.0") (by decide)
    (by decide +kernel) (by decide) ⟨⟨chr '1', lit ".0", by decide, by decide⟩, by decide⟩).mpr ?_
  exact separable_of_no_dash (by decide +kernel) (by decide +kernel) (by decide +kernel)

end ReleaseGate

end SzlRouter
