/-
Decimal numerals: how numbers are written and read.

A `Numeral` is the token of one number, split into sign, integer digits,
fraction digits and exponent.  Integers print their digits; a double prints the
fewest digits that read back as the same double (`shortest`), laid out as
`repr` does, in positional notation for moderate exponents and in scientific
notation otherwise.

* `scan_print` — the scanner reads back the numeral that was printed;
* `value_ofInt`, `value_ofFloat` — a printed number has the value it came from.
-/
import Mathlib.Algebra.Order.Ring.Nat
import Mathlib.Data.Nat.Digits.Lemmas
import SzlRouter.Binary64
import SzlRouter.PyStr

namespace Py

/-! ### Digits -/

/-- The character of a digit below ten. -/
def digitChar (d : ℕ) : CodePoint := ⟨48 + d % 10, by omega⟩

/-- The decimal digits of a natural number, most significant first. -/
def natDigits (n : ℕ) : Str :=
  if n = 0 then [digitChar 0] else (Nat.digits 10 n).reverse.map digitChar

/-- The number a digit string denotes. -/
def digitsVal (s : Str) : ℕ := s.foldl (fun acc c => 10 * acc + (c.val - 48)) 0

theorem foldl_digits (s : Str) (a : ℕ) :
    s.foldl (fun acc c => 10 * acc + (c.val - 48)) a = a * 10 ^ s.length + digitsVal s := by
  induction s generalizing a with
  | nil => simp [digitsVal]
  | cons c s ih =>
    rw [digitsVal, List.foldl_cons, List.foldl_cons, ih, ih (10 * 0 + _), List.length_cons]
    ring

theorem digitsVal_append (s t : Str) :
    digitsVal (s ++ t) = digitsVal s * 10 ^ t.length + digitsVal t := by
  rw [digitsVal, List.foldl_append, foldl_digits]
  rfl

theorem digitsVal_replicate (k : ℕ) : digitsVal (List.replicate k (digitChar 0)) = 0 := by
  induction k with
  | zero => rfl
  | succ k ih =>
    have h0 : digitsVal [digitChar 0] = 0 := rfl
    rw [List.replicate_succ, ← List.singleton_append, digitsVal_append, ih, h0, Nat.zero_mul]

theorem digitsVal_map_digitChar (l : List ℕ) (h : ∀ d ∈ l, d < 10) :
    digitsVal (l.reverse.map digitChar) = Nat.ofDigits 10 l := by
  induction l with
  | nil => rfl
  | cons d l ih =>
    rw [List.reverse_cons, List.map_append, digitsVal_append]
    rw [ih fun x hx => h x (List.mem_cons_of_mem d hx), Nat.ofDigits_cons]
    have hd : d % 10 = d := Nat.mod_eq_of_lt (h d List.mem_cons_self)
    simp only [List.map_cons, List.map_nil, List.length_singleton, digitsVal, List.foldl_cons,
      List.foldl_nil, digitChar, hd]
    omega

theorem digitsVal_natDigits (n : ℕ) : digitsVal (natDigits n) = n := by
  rw [natDigits]
  split_ifs with h
  · rw [h]
    rfl
  · rw [digitsVal_map_digitChar _ fun d hd => Nat.digits_lt_base (by omega) hd]
    exact Nat.ofDigits_digits 10 n

theorem isDigit_digitChar (d : ℕ) : Str.isDigit (digitChar d) = true := by
  refine decide_eq_true ⟨?_, ?_⟩ <;> simp only [digitChar] <;> omega

theorem isDigit_natDigits {n : ℕ} {c : CodePoint} (h : c ∈ natDigits n) :
    Str.isDigit c = true := by
  rw [natDigits] at h
  split_ifs at h
  · rw [List.mem_singleton.mp h]
    exact isDigit_digitChar 0
  · obtain ⟨d, -, rfl⟩ := List.mem_map.mp h
    exact isDigit_digitChar d

theorem natDigits_ne_nil (n : ℕ) : natDigits n ≠ [] := by
  rw [natDigits]
  split_ifs with h
  · simp
  · simpa using Nat.digits_ne_nil_iff_ne_zero.mpr h

theorem digitChar_eq_zero {d : ℕ} (hd : d < 10) (h : digitChar d = digitChar 0) : d = 0 := by
  have := congrArg Fin.val h
  simp only [digitChar] at this
  omega

/-- Only zero is written with a leading zero. -/
theorem head_natDigits {n : ℕ} (hn : n ≠ 0) : (natDigits n).head? ≠ some (digitChar 0) := by
  rw [natDigits, if_neg hn, List.head?_map, List.head?_reverse]
  have hne : Nat.digits 10 n ≠ [] := Nat.digits_ne_nil_iff_ne_zero.mpr hn
  rw [List.getLast?_eq_getLast_of_ne_nil hne, Option.map_some]
  intro h
  have hmem : (Nat.digits 10 n).getLast hne < 10 :=
    Nat.digits_lt_base (by omega) (List.getLast_mem hne)
  exact Nat.getLast_digit_ne_zero 10 hn (digitChar_eq_zero hmem (Option.some_inj.mp h))

/-! ### Numerals -/

/-- The token of one number. -/
structure Numeral where
  neg : Bool
  int : Str
  frac : Str
  /-- The sign and the digits of the exponent. -/
  exp : Option (Bool × Str)
  deriving DecidableEq

/-- A number: an integer of any size, or a double. -/
inductive Num
  | int (n : ℤ)
  | float (x : Binary64)
  deriving DecidableEq

namespace Numeral

/-- The digits stand where the grammar wants them, and none is missing. -/
structure WF (n : Numeral) : Prop where
  int_ne : n.int ≠ []
  int_digits : ∀ c ∈ n.int, Str.isDigit c = true
  int_lead : n.int.head? = some (digitChar 0) → n.int = [digitChar 0]
  frac_digits : ∀ c ∈ n.frac, Str.isDigit c = true
  exp_ne : ∀ e ∈ n.exp, e.2 ≠ []
  exp_digits : ∀ e ∈ n.exp, ∀ c ∈ e.2, Str.isDigit c = true

def printFrac (frac : Str) : Str := if frac = [] then [] else chr '.' :: frac

def printExp : Option (Bool × Str) → Str
  | none => []
  | some (neg, ds) => chr 'e' :: chr (if neg then '-' else '+') :: ds

def print (n : Numeral) : Str :=
  (if n.neg then [chr '-'] else []) ++ n.int ++ printFrac n.frac ++ printExp n.exp

/-- The integer digits: a lone zero, or digits that do not start with one. -/
def scanInt : Str → Option (Str × Str)
  | [] => none
  | c :: s =>
    if c = digitChar 0 then some ([c], s)
    else if Str.isDigit c then
      some ((c :: s).takeWhile Str.isDigit, (c :: s).dropWhile Str.isDigit)
    else none

/-- A fraction needs a digit after the point. -/
def scanFrac : Str → Str × Str
  | [] => ([], [])
  | c :: s =>
    if c = chr '.' ∧ s.takeWhile Str.isDigit ≠ [] then
      (s.takeWhile Str.isDigit, s.dropWhile Str.isDigit)
    else ([], c :: s)

def scanSign : Str → Bool × Str
  | [] => (false, [])
  | c :: s => if c = chr '-' then (true, s) else if c = chr '+' then (false, s) else (false, c :: s)

/-- An exponent needs a digit after the optional sign. -/
def scanExp : Str → Option (Bool × Str) × Str
  | [] => (none, [])
  | c :: s =>
    if (c = chr 'e' ∨ c = chr 'E') ∧ (scanSign s).2.takeWhile Str.isDigit ≠ [] then
      (some ((scanSign s).1, (scanSign s).2.takeWhile Str.isDigit),
        (scanSign s).2.dropWhile Str.isDigit)
    else (none, c :: s)

/-- Read the longest numeral at the front of `s`. -/
def scan (s : Str) : Option (Numeral × Str) :=
  let neg := s.head? = some (chr '-')
  match scanInt (if neg then s.tail else s) with
  | none => none
  | some (int, s) =>
    let (frac, s) := scanFrac s
    let (exp, s) := scanExp s
    some (⟨decide neg, int, frac, exp⟩, s)

/-- The value of the exponent part. -/
def expVal : Option (Bool × Str) → ℤ
  | none => 0
  | some (neg, ds) => if neg then -(digitsVal ds : ℤ) else digitsVal ds

/-- A numeral without fraction and exponent is an integer. -/
def value (n : Numeral) : Num :=
  if n.frac = [] ∧ n.exp = none then
    .int (if n.neg then -(digitsVal n.int : ℤ) else digitsVal n.int)
  else
    .float (Binary64.ofDecimal n.neg (digitsVal (n.int ++ n.frac)) (expVal n.exp - n.frac.length))

/-- A text that cannot continue a number. -/
def Ends (r : Str) : Prop :=
  ∀ c ∈ r.head?, Str.isDigit c = false ∧ c ≠ chr '.' ∧ c ≠ chr 'e' ∧ c ≠ chr 'E'

theorem ends_nil : Ends [] := by simp [Ends]

theorem takeWhile_digits {ds r : Str} (hd : ∀ c ∈ ds, Str.isDigit c = true)
    (hr : ∀ c ∈ r.head?, Str.isDigit c = false) : (ds ++ r).takeWhile Str.isDigit = ds := by
  rw [List.takeWhile_append_of_pos hd]
  cases r with
  | nil => simp
  | cons c r => simp [hr c (by simp)]

theorem dropWhile_digits {ds r : Str} (hd : ∀ c ∈ ds, Str.isDigit c = true)
    (hr : ∀ c ∈ r.head?, Str.isDigit c = false) : (ds ++ r).dropWhile Str.isDigit = r := by
  rw [List.dropWhile_append_of_pos hd]
  cases r with
  | nil => simp
  | cons c r => simp [hr c (by simp)]

theorem scanInt_append {ds r : Str} (hne : ds ≠ []) (hd : ∀ c ∈ ds, Str.isDigit c = true)
    (hlead : ds.head? = some (digitChar 0) → ds = [digitChar 0])
    (hr : ∀ c ∈ r.head?, Str.isDigit c = false) : scanInt (ds ++ r) = some (ds, r) := by
  have htake := takeWhile_digits hd hr
  have hdrop := dropWhile_digits hd hr
  cases ds with
  | nil => exact absurd rfl hne
  | cons c ds =>
    simp only [List.cons_append, scanInt] at *
    by_cases hc : c = digitChar 0
    · have hds : ds = [] := List.tail_eq_of_cons_eq (hlead (by rw [hc]; rfl))
      rw [if_pos hc, hds]
      rfl
    · rw [if_neg hc, if_pos (hd c List.mem_cons_self), htake, hdrop]

theorem scanFrac_append {ds r : Str} (hd : ∀ c ∈ ds, Str.isDigit c = true)
    (hr : ∀ c ∈ r.head?, Str.isDigit c = false ∧ c ≠ chr '.') :
    scanFrac (printFrac ds ++ r) = (ds, r) := by
  have hr' : ∀ c ∈ r.head?, Str.isDigit c = false := fun c hc => (hr c hc).1
  rw [printFrac]
  split_ifs with hds
  · cases r with
    | nil => rw [hds]; rfl
    | cons c r =>
      rw [List.nil_append, scanFrac, if_neg fun h => (hr c rfl).2 h.1, hds]
  · rw [List.cons_append, scanFrac, takeWhile_digits hd hr', dropWhile_digits hd hr',
      if_pos ⟨rfl, hds⟩]

theorem scanExp_append {e : Option (Bool × Str)} {r : Str} (hne : ∀ p ∈ e, p.2 ≠ [])
    (hd : ∀ p ∈ e, ∀ c ∈ p.2, Str.isDigit c = true) (hr : Ends r) :
    scanExp (printExp e ++ r) = (e, r) := by
  have hr' : ∀ c ∈ r.head?, Str.isDigit c = false := fun c hc => (hr c hc).1
  cases e with
  | none =>
    cases r with
    | nil => rfl
    | cons c r =>
      obtain ⟨-, -, he, hE⟩ := hr c rfl
      rw [printExp, List.nil_append, scanExp, if_neg fun h => h.1.elim he hE]
  | some p =>
    obtain ⟨neg, ds⟩ := p
    have hsign : scanSign (chr (if neg then '-' else '+') :: (ds ++ r)) = (neg, ds ++ r) := by
      cases neg <;> rfl
    have htake := takeWhile_digits (hd _ rfl) hr'
    have hdrop := dropWhile_digits (hd _ rfl) hr'
    rw [printExp, List.cons_append, List.cons_append, scanExp, hsign]
    rw [if_pos ⟨.inl rfl, by rw [htake]; exact hne _ rfl⟩, htake, hdrop]

theorem head_printExp {e : Option (Bool × Str)} {r : Str} (hr : Ends r) :
    ∀ c ∈ (printExp e ++ r).head?, Str.isDigit c = false ∧ c ≠ chr '.' := by
  cases e with
  | none => exact fun c hc => ⟨(hr c hc).1, (hr c hc).2.1⟩
  | some p =>
    intro c hc
    rw [← Option.some_inj.mp hc]
    decide

theorem head_printFrac {f r : Str} (hr : ∀ c ∈ r.head?, Str.isDigit c = false) :
    ∀ c ∈ (printFrac f ++ r).head?, Str.isDigit c = false := by
  rw [printFrac]
  split_ifs
  · exact hr
  · intro c hc
    rw [← Option.some_inj.mp hc]
    decide

/-- The scanner reads back the numeral that was printed, up to whatever comes after it that
cannot go on a numeral. -/
theorem scan_print {n : Numeral} (hn : n.WF) {r : Str} (hr : Ends r) :
    scan (n.print ++ r) = some (n, r) := by
  obtain ⟨neg, int, frac, exp⟩ := n
  -- each part is scanned up to the head of what follows it, which is no digit
  have hE := head_printExp (e := exp) hr
  have hint : scanInt (int ++ (printFrac frac ++ (printExp exp ++ r)))
      = some (int, printFrac frac ++ (printExp exp ++ r)) :=
    scanInt_append hn.int_ne hn.int_digits hn.int_lead (head_printFrac fun c hc => (hE c hc).1)
  have hfrac := @scanFrac_append frac _ hn.frac_digits hE
  have hexp := scanExp_append (e := exp) hn.exp_ne hn.exp_digits hr
  cases neg with
  | true =>
    have hp : (⟨true, int, frac, exp⟩ : Numeral).print ++ r
        = chr '-' :: (int ++ (printFrac frac ++ (printExp exp ++ r))) := by
      simp [print]
    rw [hp, scan]
    simp only [List.head?_cons, List.tail_cons, if_true, hint, hfrac, hexp, decide_true]
  | false =>
    have hhead : (int ++ (printFrac frac ++ (printExp exp ++ r))).head? ≠ some (chr '-') := by
      cases int with
      | nil => exact absurd rfl hn.int_ne
      | cons c int =>
        intro h
        have hc := hn.int_digits c List.mem_cons_self
        rw [Option.some_inj.mp h] at hc
        exact absurd hc (by decide)
    have hp : (⟨false, int, frac, exp⟩ : Numeral).print ++ r
        = int ++ (printFrac frac ++ (printExp exp ++ r)) := by
      simp [print]
    rw [hp, scan]
    simp only [hhead, if_false, hint, hfrac, hexp, decide_false]

end Numeral

/-! ### Integers -/

/-- `repr(n)`. -/
def Numeral.ofInt (n : ℤ) : Numeral := ⟨decide (n < 0), natDigits n.natAbs, [], none⟩

theorem Numeral.wf_ofInt (n : ℤ) : (Numeral.ofInt n).WF where
  int_ne := natDigits_ne_nil _
  int_digits _ h := isDigit_natDigits h
  int_lead h := by
    simp only [Numeral.ofInt] at h ⊢
    by_cases hn : n.natAbs = 0
    · rw [hn]
      rfl
    · exact absurd h (head_natDigits hn)
  frac_digits c h := by simp [Numeral.ofInt] at h
  exp_ne e h := by simp [Numeral.ofInt] at h
  exp_digits e h := by simp [Numeral.ofInt] at h

theorem Numeral.value_ofInt (n : ℤ) : (Numeral.ofInt n).value = .int n := by
  rw [Numeral.value, Numeral.ofInt, if_pos ⟨rfl, rfl⟩]
  simp only [digitsVal_natDigits, decide_eq_true_eq]
  split_ifs <;> congr 1 <;> omega

/-! ### Doubles -/

namespace Binary64

/-- A decimal `d · 10ᵉ` without the trailing zero that rounding up can leave. -/
def trimZero (d : ℕ) (e : ℤ) : ℕ × ℤ := if d % 10 = 0 then (d / 10, e + 1) else (d, e)

/-- The decimal reads back as this magnitude. -/
def readsBack (m : Mag) (d : ℕ × ℤ) : Bool := ofDecimal false d.1 d.2 = .fin false m

/-- Among the two `k`-digit decimals around `m = N · 10⁻ᶠ`, with `f = fracBits`, the nearer one that
reads back as `m`. -/
def candidate (m : Mag) (N len k : ℕ) : Option (ℕ × ℤ) :=
  let d := 10 ^ (len - k)
  let e : ℤ := len - k - fracBits
  let below := trimZero (N / d) e
  let above := trimZero (N / d + 1) e
  let (near, far) :=
    if 2 * (N % d) < d ∨ 2 * (N % d) = d ∧ N / d % 2 = 0 then (below, above) else (above, below)
  if readsBack m near then some near else if readsBack m far then some far else none

/-- The exact expansion of a magnitude: all its decimal digits. -/
def exactDecimal (m : Mag) : ℕ × ℤ := (m.val * 5 ^ fracBits, -fracBits)

/-- The shortest decimal of at most seventeen digits that reads back. -/
def searchShortest (m : Mag) : Option (ℕ × ℤ) :=
  let N := (exactDecimal m).1
  let len := (natDigits N).length
  (List.range 17).findSome? fun k => candidate m N len (k + 1)

/-- The shortest decimal that reads back as the magnitude.  Seventeen digits are
always enough; the exact expansion stands behind them. -/
def shortest (m : Mag) : ℕ × ℤ :=
  if m.val = 0 then (0, 0) else (searchShortest m).getD (exactDecimal m)

theorem candidate_readsBack {m : Mag} {N len k : ℕ} {d : ℕ × ℤ}
    (h : candidate m N len k = some d) : ofDecimal false d.1 d.2 = .fin false m := by
  simp only [candidate] at h
  refine of_decide_eq_true (p := ofDecimal false d.1 d.2 = .fin false m) ?_
  change readsBack m d = true
  split_ifs at h with _ h1 h2 <;> rw [← Option.some_inj.mp h] <;> assumption

theorem ofDecimal_exact (m : Mag) :
    ofDecimal false (exactDecimal m).1 (exactDecimal m).2 = .fin false m := by
  have hten : (10 : ℕ) ^ fracBits = 5 ^ fracBits * 2 ^ fracBits := Nat.mul_pow 5 2 fracBits
  rw [exactDecimal, ofDecimal, show (-(fracBits : ℤ)).toNat = 0 by omega,
    show (- -(fracBits : ℤ)).toNat = fracBits by omega, ← ofRatio_mag,
    ← ofRatio_scale false m.val 1 (c := 10 ^ fracBits) (by positivity)]
  congr 1
  · rw [one, hten]
    ring
  · ring

theorem shortest_spec (m : Mag) :
    ofDecimal false (shortest m).1 (shortest m).2 = .fin false m := by
  rw [shortest]
  split_ifs with hm
  · rw [ofDecimal, Nat.zero_mul, Nat.zero_mul, ofRatio_zero]
    exact congrArg (Binary64.fin false) (Subtype.ext hm.symm)
  · cases h : searchShortest m with
    | none => exact ofDecimal_exact m
    | some d =>
      obtain ⟨k, -, hk⟩ := List.exists_of_findSome?_eq_some h
      exact candidate_readsBack hk

/-- A decimal reads back with its sign. -/
theorem ofDecimal_neg {d : ℕ} {e : ℤ} {m : Mag} (h : ofDecimal false d e = .fin false m)
    (neg : Bool) : ofDecimal neg d e = .fin neg m := by
  rw [ofDecimal, ofRatio] at h ⊢
  split_ifs at h ⊢ with hlim
  injection h with _ hm
  rw [hm]

/-- Only zero has the decimal zero. -/
theorem shortest_zero {m : Mag} (h : (shortest m).1 = 0) : shortest m = (0, 0) := by
  have hspec := shortest_spec m
  rw [h, ofDecimal, Nat.zero_mul, Nat.zero_mul, ofRatio_zero] at hspec
  injection hspec with _ hval
  rw [shortest, if_pos (by rw [← hval]; rfl)]

end Binary64

/-- Exponents are written with at least two digits. -/
def padTwo (s : Str) : Str := if s.length < 2 then digitChar 0 :: s else s

/-- The layout of `d · 10ᵉ` in `repr`: positional when the point falls at most
three places before the digits or sixteen after their start. -/
def Numeral.ofDecimal (neg : Bool) (d : ℕ) (e : ℤ) : Numeral :=
  let ds := natDigits d
  let point : ℤ := e + ds.length
  if -4 < point ∧ point ≤ 0 then
    ⟨neg, [digitChar 0], List.replicate (-point).toNat (digitChar 0) ++ ds, none⟩
  else if 0 < point ∧ point < ds.length then
    ⟨neg, ds.take point.toNat, ds.drop point.toNat, none⟩
  else if 0 < point ∧ point ≤ 16 then
    ⟨neg, ds ++ List.replicate (point - ds.length).toNat (digitChar 0), [digitChar 0], none⟩
  else
    ⟨neg, ds.take 1, ds.drop 1,
      some (decide (point - 1 < 0), padTwo (natDigits (point - 1).natAbs))⟩

/-- `repr(x)` of a finite double. -/
def Numeral.ofFloat (neg : Bool) (m : Binary64.Mag) : Numeral :=
  Numeral.ofDecimal neg (Binary64.shortest m).1 (Binary64.shortest m).2

theorem length_natDigits_pos (d : ℕ) : 0 < (natDigits d).length :=
  List.length_pos_of_ne_nil (natDigits_ne_nil d)

private theorem digits_pad {ds : Str} (h : ∀ c ∈ ds, Str.isDigit c = true) (k : ℕ) :
    ∀ c ∈ List.replicate k (digitChar 0) ++ ds, Str.isDigit c = true := by
  intro c hc
  rcases List.mem_append.mp hc with hc | hc
  · rw [List.eq_of_mem_replicate hc]
    exact isDigit_digitChar 0
  · exact h c hc

theorem digitsVal_padTwo (s : Str) : digitsVal (padTwo s) = digitsVal s := by
  rw [padTwo]
  split_ifs
  · have h0 : digitsVal [digitChar 0] = 0 := rfl
    rw [← List.singleton_append, digitsVal_append, h0, Nat.zero_mul, Nat.zero_add]
  · rfl

theorem padTwo_ne_nil {s : Str} (h : s ≠ []) : padTwo s ≠ [] := by
  rw [padTwo]
  split_ifs
  · exact List.cons_ne_nil _ _
  · exact h

private theorem digits_padTwo {s : Str} (h : ∀ c ∈ s, Str.isDigit c = true) :
    ∀ c ∈ padTwo s, Str.isDigit c = true := by
  rw [padTwo]
  split_ifs
  · exact digits_pad h 1
  · exact h

private theorem isDigit_zero : ∀ c ∈ [digitChar 0], Str.isDigit c = true := by
  intro c hc
  rw [List.mem_singleton.mp hc]
  exact isDigit_digitChar 0

namespace Numeral

/-- The layout only moves the point: the numeral has the value of the decimal. -/
theorem value_ofDecimal (neg : Bool) (d : ℕ) (e : ℤ) :
    (ofDecimal neg d e).value = .float (Binary64.ofDecimal neg d e) := by
  have hlen := length_natDigits_pos d
  have hval := digitsVal_natDigits d
  simp only [ofDecimal]
  -- the four layouts of the printer: leading zeros, a point inside, trailing zeros, an exponent
  split_ifs with h1 h2 h3
  · rw [value, if_neg (fun h => by simpa [natDigits_ne_nil] using h.1)]
    simp only [expVal, List.length_append, List.length_replicate, digitsVal_append,
      digitsVal_replicate, hval]
    congr 2
    · rw [show digitsVal [digitChar 0] = 0 from rfl]
      ring
    · omega
  · rw [value, if_neg (fun h => by
      have := congrArg List.length h.1
      simp only [List.length_drop, List.length_nil] at this
      omega)]
    simp only [expVal, List.take_append_drop, hval, List.length_drop]
    congr 2
    omega
  · rw [value, if_neg (fun h => by simp at h)]
    have hz := digitsVal_replicate ((e + (natDigits d).length - (natDigits d).length).toNat + 1)
    rw [List.replicate_succ'] at hz
    simp only [expVal, List.append_assoc, digitsVal_append (natDigits d), hval, hz,
      List.length_append, List.length_replicate, List.length_singleton, Nat.add_zero]
    rw [Binary64.ofDecimal_shift]
    congr 2
    omega
  · rw [value, if_neg (fun h => by simp at h)]
    simp only [expVal, List.take_append_drop, hval, digitsVal_padTwo, digitsVal_natDigits,
      List.length_drop, decide_eq_true_eq]
    congr 2
    split_ifs <;> omega

theorem wf_ofDecimal (neg : Bool) {d : ℕ} {e : ℤ} (h0 : d = 0 → e = 0) :
    (ofDecimal neg d e).WF := by
  have hlen := length_natDigits_pos d
  have hdig : ∀ c ∈ natDigits d, Str.isDigit c = true := fun c hc => isDigit_natDigits hc
  have hzero : d = 0 → (natDigits d).length = 1 := by
    rintro rfl
    rfl
  -- only zero itself starts with a zero
  have hlead : ∀ t : Str, (natDigits d ++ t).head? = some (digitChar 0) → d = 0 := by
    intro t ht
    by_contra hd
    rw [List.head?_append_of_ne_nil _ (natDigits_ne_nil d)] at ht
    exact head_natDigits hd ht
  have htake : ∀ k, 0 < k → (natDigits d).take k ≠ [] ∧
      (((natDigits d).take k).head? = some (digitChar 0) → d = 0) := by
    intro k hk
    rw [List.head?_take, if_neg (by omega)]
    exact ⟨fun h => by simp [natDigits_ne_nil] at h; omega,
      fun h => hlead [] (by rwa [List.append_nil])⟩
  simp only [ofDecimal]
  -- the four layouts of the printer again
  split_ifs with h1 h2 h3
  · exact ⟨by simp, isDigit_zero, fun _ => rfl, digits_pad hdig _, nofun, nofun⟩
  · have hk : 0 < (e + (natDigits d).length).toNat := by omega
    refine ⟨(htake _ hk).1, fun c hc => hdig c (List.mem_of_mem_take hc), fun h => ?_,
      fun c hc => hdig c (List.mem_of_mem_drop hc), nofun, nofun⟩
    have hd := (htake _ hk).2 h
    have := h0 hd
    have := hzero hd
    omega
  · refine ⟨by simp [natDigits_ne_nil], fun c hc => ?_, fun h => ?_, isDigit_zero, nofun, nofun⟩
    · rcases List.mem_append.mp hc with hc | hc
      · exact hdig c hc
      · rw [List.eq_of_mem_replicate hc]
        exact isDigit_digitChar 0
    · have hd := hlead _ h
      rw [h0 hd, hd]
      rfl
  · refine ⟨(htake 1 (by omega)).1, fun c hc => hdig c (List.mem_of_mem_take hc), fun h => ?_,
      fun c hc => hdig c (List.mem_of_mem_drop hc), ?_, ?_⟩
    · have hd := (htake 1 (by omega)).2 h
      rw [hd]
      rfl
    · intro p hp
      rw [← Option.some_inj.mp hp]
      exact padTwo_ne_nil (natDigits_ne_nil _)
    · intro p hp
      rw [← Option.some_inj.mp hp]
      exact digits_padTwo fun c hc => isDigit_natDigits hc

theorem wf_ofFloat (neg : Bool) (m : Binary64.Mag) : (ofFloat neg m).WF :=
  wf_ofDecimal neg fun h => by rw [Binary64.shortest_zero h]

/-- The printed double reads back as itself. The shortest digits are found by trying them against
the double, and a layout with a point or an exponent does not change the value. -/
theorem value_ofFloat (neg : Bool) (m : Binary64.Mag) :
    (ofFloat neg m).value = .float (.fin neg m) := by
  rw [ofFloat, value_ofDecimal, Binary64.ofDecimal_neg (Binary64.shortest_spec m)]

end Numeral

example : (Numeral.ofInt (-120)).print = lit "-120" := by decide
example : (Numeral.ofDecimal false 15 (-1)).print = lit "1.5" := by decide
example : (Numeral.ofDecimal true 1 22).print = lit "-1e+22" := by decide

end Py
