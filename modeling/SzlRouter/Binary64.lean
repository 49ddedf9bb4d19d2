/-
Binary64 floating point, as far as a program that reads clocks and JSON needs it.

Every finite double is an integer multiple of `2⁻¹⁰⁷⁴`, so a finite value is a
sign and a magnitude counted in that unit; the subtype `Mag` keeps only the
magnitudes a double can hold.  Arithmetic computes the exact result and rounds
it once, to nearest with ties to even (`roundMag`).

* `representable_roundMag` — rounding lands on a representable magnitude;
* `roundMag_of_representable` — a representable magnitude is its own rounding;
* `ofRatio_scale` — the rounding of a fraction depends on its value alone;
* `lt_or_le` — two values that are not NaN compare.
-/
import Mathlib.Data.Nat.Log
import Mathlib.Tactic.Ring
import Mathlib.Tactic.Linarith

namespace Py

namespace Binary64

/-- `p / q` rounded to the nearest integer, ties to even. -/
def divHalfEven (p q : ℕ) : ℕ :=
  if 2 * (p % q) < q then p / q
  else if q < 2 * (p % q) then p / q + 1
  else if p / q % 2 = 0 then p / q
  else p / q + 1

theorem divHalfEven_le (p q : ℕ) : divHalfEven p q ≤ p / q + 1 := by
  rw [divHalfEven]
  split_ifs <;> omega

theorem divHalfEven_mul_self (n : ℕ) {q : ℕ} (hq : 0 < q) : divHalfEven (n * q) q = n := by
  rw [divHalfEven, Nat.mul_mod_left, Nat.mul_div_cancel n hq, if_pos (by omega)]

theorem divHalfEven_scale (p q : ℕ) {c : ℕ} (hc : 0 < c) :
    divHalfEven (p * c) (q * c) = divHalfEven p q := by
  have hmod : 2 * (p * c % (q * c)) = 2 * (p % q) * c := by
    rw [Nat.mul_mod_mul_right, Nat.mul_assoc]
  rw [divHalfEven, divHalfEven, hmod, Nat.mul_div_mul_right p q hc]
  simp only [Nat.mul_lt_mul_right hc]

/-- How many low bits a magnitude of this size loses to the 53-bit significand. -/
def shift (n : ℕ) : ℕ := Nat.log2 n - 52

/-- The magnitude nearest to `p / q`, with 53 significant bits. -/
def roundMag (p q : ℕ) : ℕ :=
  divHalfEven p (q * 2 ^ shift (p / q)) * 2 ^ shift (p / q)

/-- The binary places after the point of the smallest unit. -/
@[irreducible] def fracBits : ℕ := 1074

/-- Units per one: `1.0` has this magnitude. -/
def one : ℕ := 2 ^ fracBits

/-- The first magnitude out of range, `2¹⁰²⁴` in units. -/
def limit : ℕ := 2 ^ (1024 + fracBits)

theorem limit_pos : 0 < limit := by
  rw [limit]
  positivity

/-- The magnitudes below `limit` that fit a 53-bit significand. -/
def Representable (m : ℕ) : Prop := 2 ^ shift m ∣ m ∧ m < limit

instance (m : ℕ) : Decidable (Representable m) :=
  inferInstanceAs (Decidable (_ ∧ _))

theorem div_shift_lt (n : ℕ) : n / 2 ^ shift n < 2 ^ 53 := by
  rw [Nat.div_lt_iff_lt_mul (by positivity), ← pow_add]
  rcases Nat.eq_zero_or_pos n with rfl | hn
  · positivity
  · calc n < 2 ^ (Nat.log2 n + 1) := Nat.lt_log2_self
      _ ≤ 2 ^ (53 + shift n) := Nat.pow_le_pow_right (by omega) (by rw [shift]; omega)

theorem dvd_of_significand {d s : ℕ} (hd : d ≤ 2 ^ 53) : 2 ^ shift (d * 2 ^ s) ∣ d * 2 ^ s := by
  rcases Nat.eq_zero_or_pos d with rfl | hpos
  · simp
  rcases Nat.lt_or_ge d (2 ^ 53) with hlt | hge
  · have hlog : Nat.log2 (d * 2 ^ s) < 53 + s := by
      rw [Nat.log2_lt (by positivity), pow_add]
      exact Nat.mul_lt_mul_of_pos_right hlt (by positivity)
    exact (pow_dvd_pow 2 (by rw [shift]; omega)).trans (Dvd.intro_left d rfl)
  · -- the significand rounded up to the next power of two
    have heq : d * 2 ^ s = 2 ^ (53 + s) := by rw [pow_add, Nat.le_antisymm hd hge]
    rw [heq, shift, Nat.log2_two_pow]
    exact pow_dvd_pow 2 (by omega)

/-- Rounding lands on a representable magnitude, unless it overflows: the significand that is
left fits, also where the rounding carries into a new bit. -/
theorem representable_roundMag {p q : ℕ} (h : roundMag p q < limit) :
    Representable (roundMag p q) := by
  refine ⟨dvd_of_significand ?_, h⟩
  have hdiv : p / (q * 2 ^ shift (p / q)) < 2 ^ 53 := by
    rw [← Nat.div_div_eq_div_mul]
    exact div_shift_lt (p / q)
  have hle := divHalfEven_le p (q * 2 ^ shift (p / q))
  omega

theorem roundMag_of_representable {m : ℕ} (h : Representable m) : roundMag m 1 = m := by
  obtain ⟨⟨t, ht⟩, -⟩ := h
  have ht' : m = t * 2 ^ shift m := by rw [Nat.mul_comm]; exact ht
  have hdiv : divHalfEven m (2 ^ shift m) = t :=
    (congrArg (divHalfEven · (2 ^ shift m)) ht').trans
      (divHalfEven_mul_self t (by positivity))
  rw [roundMag, Nat.div_one, Nat.one_mul, hdiv, ← ht']

theorem roundMag_scale (p q : ℕ) {c : ℕ} (hc : 0 < c) :
    roundMag (p * c) (q * c) = roundMag p q := by
  rw [roundMag, roundMag, Nat.mul_div_mul_right p q hc]
  rw [show q * c * 2 ^ shift (p / q) = q * 2 ^ shift (p / q) * c by ring]
  rw [divHalfEven_scale _ _ hc]

/-- The magnitude of a finite double, in units of `2⁻¹⁰⁷⁴`. -/
def Mag : Type := {m : ℕ // Representable m}

instance : DecidableEq Mag := inferInstanceAs (DecidableEq {m : ℕ // Representable m})

/-- The magnitude zero. -/
def Mag.zero : Mag := ⟨0, dvd_zero _, limit_pos⟩

end Binary64

/-- A binary64 value. -/
inductive Binary64
  | nan
  | inf (neg : Bool)
  | fin (neg : Bool) (mag : Binary64.Mag)
  deriving DecidableEq

namespace Binary64

/-- The double nearest to `p / q` units, with the given sign. -/
def ofRatio (neg : Bool) (p q : ℕ) : Binary64 :=
  if h : roundMag p q < limit then .fin neg ⟨roundMag p q, representable_roundMag h⟩
  else .inf neg

/-- The rounding of a fraction depends on its value alone. A decimal literal and the fraction it
is printed from are therefore the same double. -/
theorem ofRatio_scale (neg : Bool) (p q : ℕ) {c : ℕ} (hc : 0 < c) :
    ofRatio neg (p * c) (q * c) = ofRatio neg p q := by
  simp only [ofRatio, roundMag_scale p q hc]

theorem ofRatio_zero (neg : Bool) (q : ℕ) : ofRatio neg 0 q = .fin neg Mag.zero := by
  have h0 : roundMag 0 q = 0 := by
    rw [roundMag, divHalfEven]
    simp
  simp only [ofRatio, h0, dif_pos limit_pos]
  rfl

theorem ofRatio_mag (neg : Bool) (m : Mag) : ofRatio neg m.val 1 = .fin neg m := by
  have hm : roundMag m.val 1 = m.val := roundMag_of_representable m.property
  simp only [ofRatio, hm, dif_pos m.property.2]
  rfl

/-- The double nearest to the decimal `d · 10ᵉ`. -/
def ofDecimal (neg : Bool) (d : ℕ) (e : ℤ) : Binary64 :=
  ofRatio neg (d * 10 ^ e.toNat * one) (10 ^ (-e).toNat)

/-- Trailing zeros of the digits move into the exponent. -/
theorem ofDecimal_shift (neg : Bool) (d k : ℕ) (e : ℤ) :
    ofDecimal neg (d * 10 ^ k) e = ofDecimal neg d (e + k) := by
  rw [ofDecimal, ofDecimal]
  rcases le_or_gt 0 e with he | he
  · rw [show (e + k).toNat = k + e.toNat by omega, show (-(e + k)).toNat = 0 by omega,
      show (-e).toNat = 0 by omega, pow_add, ← Nat.mul_assoc]
  · rcases le_or_gt 0 (e + k) with hk | hk
    · -- the exponent changes sign: cancel `10 ^ -e`
      have hpow : 10 ^ k = 10 ^ (e + k).toNat * 10 ^ (-e).toNat := by
        rw [← pow_add]
        congr 1
        omega
      rw [show e.toNat = 0 by omega, show (-(e + k)).toNat = 0 by omega, hpow]
      rw [← ofRatio_scale neg (d * 10 ^ (e + k).toNat * one) (10 ^ 0)
        (c := 10 ^ (-e).toNat) (by positivity)]
      congr 1 <;> ring
    · have hpow : 10 ^ (-e).toNat = 10 ^ (-(e + k)).toNat * 10 ^ k := by
        rw [← pow_add]
        congr 1
        omega
      rw [show e.toNat = 0 by omega, show (e + k).toNat = 0 by omega, hpow]
      rw [← ofRatio_scale neg (d * 10 ^ 0 * one) (10 ^ (-(e + k)).toNat)
        (c := 10 ^ k) (by positivity)]
      congr 1
      ring

/-- `float(n)`, which rounds an integer to a double. -/
def ofInt (n : ℤ) : Binary64 :=
  ofRatio (decide (n < 0)) (n.natAbs * one) 1

/-- The finite values, in units; the infinities lie beyond all of them. -/
def units : Binary64 → ℤ
  | .nan => 0
  | .inf neg => if neg then -(limit : ℤ) else limit
  | .fin neg mag => if neg then -(mag.val : ℤ) else mag.val

def isFinite : Binary64 → Bool
  | .fin _ _ => true
  | _ => false

def isNaN : Binary64 → Bool
  | .nan => true
  | _ => false

theorem isNaN_of_isFinite {x : Binary64} (h : x.isFinite) : x.isNaN = false := by
  cases x with
  | nan => simp [isFinite] at h
  | inf neg => rfl
  | fin neg mag => rfl

/-- `x < y`; every comparison with NaN is false. -/
protected def lt (x y : Binary64) : Bool :=
  !x.isNaN && !y.isNaN && decide (x.units < y.units)

/-- `x <= y`; every comparison with NaN is false. -/
protected def le (x y : Binary64) : Bool :=
  !x.isNaN && !y.isNaN && decide (x.units ≤ y.units)

instance : LT Binary64 := ⟨fun x y => x.lt y⟩
instance : LE Binary64 := ⟨fun x y => x.le y⟩

instance (x y : Binary64) : Decidable (x < y) := inferInstanceAs (Decidable (x.lt y = true))
instance (x y : Binary64) : Decidable (x ≤ y) := inferInstanceAs (Decidable (x.le y = true))

theorem lt_def {x y : Binary64} :
    x < y ↔ x.isNaN = false ∧ y.isNaN = false ∧ x.units < y.units := by
  show x.lt y = true ↔ _
  simp [Binary64.lt, and_assoc]

theorem le_def {x y : Binary64} :
    x ≤ y ↔ x.isNaN = false ∧ y.isNaN = false ∧ x.units ≤ y.units := by
  show x.le y = true ↔ _
  simp [Binary64.le, and_assoc]

theorem le_refl {x : Binary64} (h : x.isNaN = false) : x ≤ x :=
  le_def.mpr ⟨h, h, Int.le_refl _⟩

theorem le_of_lt {x y : Binary64} (h : x < y) : x ≤ y := by
  rw [lt_def] at h
  exact le_def.mpr ⟨h.1, h.2.1, Int.le_of_lt h.2.2⟩

theorem le_trans {x y z : Binary64} (hxy : x ≤ y) (hyz : y ≤ z) : x ≤ z := by
  rw [le_def] at *
  exact ⟨hxy.1, hyz.2.1, Int.le_trans hxy.2.2 hyz.2.2⟩

theorem lt_of_not_le {x y : Binary64} (hx : x.isNaN = false) (hy : y.isNaN = false)
    (h : ¬ y ≤ x) : x < y := by
  rw [le_def] at h
  rw [lt_def]
  exact ⟨hx, hy, by by_contra hc; exact h ⟨hy, hx, by omega⟩⟩

/-- Two values that are not NaN compare. -/
theorem lt_or_le {x y : Binary64} (hx : x.isNaN = false) (hy : y.isNaN = false) :
    x < y ∨ y ≤ x := by
  rw [lt_def, le_def]
  rcases lt_or_ge x.units y.units with h | h
  · exact .inl ⟨hx, hy, h⟩
  · exact .inr ⟨hy, hx, h⟩

/-- The double nearest to a whole number of units; `neg` signs a zero result. -/
def ofUnits (neg : Bool) (n : ℤ) : Binary64 :=
  if n = 0 then .fin neg Mag.zero else ofRatio (decide (n < 0)) n.natAbs 1

/-- `x - y`. -/
def sub : Binary64 → Binary64 → Binary64
  | .nan, _ => .nan
  | _, .nan => .nan
  | .inf s, .inf t => if s = t then .nan else .inf s
  | .inf s, .fin _ _ => .inf s
  | .fin _ _, .inf t => .inf !t
  | .fin s x, .fin t y =>
    -- only `-0.0 - 0.0` is a negative zero
    ofUnits (s && !t && x.val == 0 && y.val == 0) (units (.fin s x) - units (.fin t y))

/-- `-x`. -/
def neg : Binary64 → Binary64
  | .nan => .nan
  | .inf s => .inf !s
  | .fin s x => .fin (!s) x

/-- `x + y`. -/
def add (x y : Binary64) : Binary64 := sub x (neg y)

/-- `x * y`. -/
def mul : Binary64 → Binary64 → Binary64
  | .nan, _ => .nan
  | _, .nan => .nan
  | .inf s, .inf t => .inf (s != t)
  | .inf s, .fin t y => if y.val = 0 then .nan else .inf (s != t)
  | .fin s x, .inf t => if x.val = 0 then .nan else .inf (s != t)
  | .fin s x, .fin t y => ofRatio (s != t) (x.val * y.val) one

/-- `x / y`; the source never divides by zero. -/
def div : Binary64 → Binary64 → Binary64
  | .nan, _ => .nan
  | _, .nan => .nan
  | .inf _, .inf _ => .nan
  | .inf s, .fin t _ => .inf (s != t)
  | .fin s _, .inf t => .fin (s != t) Mag.zero
  | .fin s x, .fin t y => ofRatio (s != t) (x.val * one) y.val

theorem isNaN_ofRatio (neg : Bool) (p q : ℕ) : (ofRatio neg p q).isNaN = false := by
  rw [ofRatio]
  split_ifs <;> rfl

/-- Finite values have a difference, though it may overflow. -/
theorem isNaN_sub {x y : Binary64} (hx : x.isFinite) (hy : y.isFinite) :
    (sub x y).isNaN = false := by
  cases x with
  | nan => simp [isFinite] at hx
  | inf s => simp [isFinite] at hx
  | fin s x =>
    cases y with
    | nan => simp [isFinite] at hy
    | inf t => simp [isFinite] at hy
    | fin t y =>
      rw [sub, ofUnits]
      split_ifs
      · rfl
      · exact isNaN_ofRatio _ _ _

theorem units_ofRatio_neg (p q : ℕ) : (ofRatio true p q).units ≤ 0 := by
  rw [ofRatio]
  split_ifs with h
  · show -(roundMag p q : ℤ) ≤ 0
    omega
  · show -(limit : ℤ) ≤ 0
    omega

/-- A difference that is not above zero, by the order of its terms. -/
theorem units_sub_nonpos {x y : Binary64} (hx : x.isFinite) (hy : y.isFinite)
    (h : x.units ≤ y.units) : (sub x y).units ≤ 0 := by
  cases x with
  | nan => simp [isFinite] at hx
  | inf s => simp [isFinite] at hx
  | fin s x =>
    cases y with
    | nan => simp [isFinite] at hy
    | inf t => simp [isFinite] at hy
    | fin t y =>
      rw [sub, ofUnits]
      by_cases hzero : units (.fin s x) - units (.fin t y) = 0
      · rw [if_pos hzero]
        generalize (s && !t && x.val == 0 && y.val == 0) = b
        cases b <;> exact Int.le_refl 0
      · rw [if_neg hzero, decide_eq_true (show units (.fin s x) - units (.fin t y) < 0 by omega)]
        exact units_ofRatio_neg _ _

theorem le_divHalfEven (p q : ℕ) : p / q ≤ divHalfEven p q := by
  rw [divHalfEven]
  split_ifs <;> omega

/-- Rounding does not cross a power of two. -/
theorem two_pow_log2_le_roundMag {n : ℕ} (hn : n ≠ 0) : 2 ^ Nat.log2 n ≤ roundMag n 1 := by
  have hshift : shift n ≤ Nat.log2 n := by
    rw [shift]
    omega
  have hsplit : 2 ^ Nat.log2 n = 2 ^ (Nat.log2 n - shift n) * 2 ^ shift n := by
    rw [← pow_add]
    congr 1
    omega
  rw [roundMag, Nat.div_one, Nat.one_mul, hsplit]
  refine Nat.mul_le_mul_right _ (Nat.le_trans ?_ (le_divHalfEven n _))
  rw [Nat.le_div_iff_mul_le (by positivity), ← hsplit]
  exact Nat.log2_self_le hn

/-- A difference that is rounded to less than a power of two is less. -/
theorem lt_two_pow_of_sub_lt {x y : Binary64} (hx : x.isFinite) (hy : y.isFinite) {k : ℕ}
    (hk : k ≤ 1024 + fracBits) (h : (sub x y).units < 2 ^ k) : x.units - y.units < 2 ^ k := by
  cases x with
  | nan => simp [isFinite] at hx
  | inf s => simp [isFinite] at hx
  | fin s x =>
    cases y with
    | nan => simp [isFinite] at hy
    | inf t => simp [isFinite] at hy
    | fin t y =>
      -- a difference of at least `2 ^ k` units is rounded to at least that, since it has a bit
      -- there
      by_contra hge
      rw [not_lt] at hge
      have hpos : (0 : ℤ) < 2 ^ k := by positivity
      rw [sub, ofUnits, if_neg (by omega), decide_eq_false (by omega), ofRatio] at h
      revert h
      generalize hn : (units (.fin s x) - units (.fin t y)).natAbs = n
      have hkn : 2 ^ k ≤ n := by
        zify
        omega
      rw [imp_false, not_lt]
      split_ifs with hlimit
      · show (2 : ℤ) ^ k ≤ (roundMag n 1 : ℕ)
        have hlog : k ≤ Nat.log2 n := (Nat.le_log2 (by omega)).mpr hkn
        -- rounding keeps the leading bit
        have hround := two_pow_log2_le_roundMag (show n ≠ 0 by omega)
        exact_mod_cast (Nat.pow_le_pow_right (by omega) hlog).trans hround
      · show (2 : ℤ) ^ k ≤ (limit : ℕ)
        rw [limit]
        exact_mod_cast Nat.pow_le_pow_right (by omega) hk

/-- `min(x, y)`: the second only when it is strictly smaller. -/
def min (x y : Binary64) : Binary64 := if y < x then y else x

theorem min_le_left {x y : Binary64} (hx : x.isNaN = false) : min x y ≤ x := by
  rw [min]
  split_ifs with h
  · exact le_of_lt h
  · exact le_refl hx

theorem min_le_right {x y : Binary64} (hx : x.isNaN = false) (hy : y.isNaN = false) :
    min x y ≤ y := by
  rw [min]
  split_ifs with h
  · exact le_refl hy
  · exact (lt_or_le hy hx).resolve_left h

theorem isNaN_min {x y : Binary64} (hx : x.isNaN = false) (hy : y.isNaN = false) :
    (min x y).isNaN = false := by
  rw [min]
  split_ifs
  · exact hy
  · exact hx

/-- `max(x, y)`: the second only when it is strictly greater. -/
def max (x y : Binary64) : Binary64 := if x < y then y else x

/-- `round(x, digits)`. -/
def roundTo (digits : ℕ) : Binary64 → Binary64
  | .fin s x => ofDecimal s (divHalfEven (x.val * 10 ^ digits) one) (-digits)
  | x => x

/-- `int(x)`, which drops the fraction; the source never asks for the integer
part of an infinity or of NaN. -/
def trunc : Binary64 → ℤ
  | .fin neg mag => if neg then -((mag.val / one : ℕ) : ℤ) else (mag.val / one : ℕ)
  | _ => 0

end Binary64

instance : OfNat Binary64 n := ⟨Binary64.ofInt n⟩

theorem Binary64.isNaN_zero : (0 : Binary64).isNaN = false := isNaN_ofRatio _ _ _

theorem Binary64.units_zero : (0 : Binary64).units = 0 := by
  show (ofRatio (decide ((0 : ℤ) < 0)) ((0 : ℤ).natAbs * one) 1).units = 0
  rw [Int.natAbs_zero, Nat.zero_mul, ofRatio_zero]
  rfl

/-- `x - y <= 0` fails only when `y` comes before `x`. -/
theorem Binary64.lt_of_sub_pos {x y : Binary64} (hx : x.isFinite) (hy : y.isFinite)
    (h : ¬ x.sub y ≤ 0) : y.units < x.units := by
  by_contra hge
  exact h (le_def.mpr ⟨isNaN_sub hx hy, isNaN_zero, by
    rw [units_zero]
    exact units_sub_nonpos hx hy (by omega)⟩)

example : Binary64.sub 3 1 = 2 := by decide +kernel
example : Binary64.roundTo 1 (Binary64.ofDecimal false 25 (-2)) =
    Binary64.ofDecimal false 2 (-1) := by
  decide +kernel
example : Binary64.ofDecimal false 1 400 = .inf false := by decide +kernel

end Py
