/-
Rounding to decimal places.

`roundTo` takes the nearest decimal and then the nearest double.  Where the doubles are
closer together than the decimals the second step stays near the decimal, and where they
are farther apart the double itself is nearest to its decimal; so rounding again changes
nothing.

* `divHalfEven_near`, `divHalfEven_eq_of_near` — the nearest integer;
* `roundMag_near`, `roundMag_of_near` — the nearest magnitude;
* `roundTo_roundTo` — a rounded value is its own rounding.
-/
import SzlRouter.Binary64

namespace Py

namespace Binary64

/-! ### Nearest integers -/

theorem divHalfEven_near (p : ℕ) {q : ℕ} (hq : 0 < q) :
    2 * (divHalfEven p q * q) ≤ 2 * p + q ∧ 2 * p ≤ 2 * (divHalfEven p q * q) + q := by
  have hp : p = p / q * q + p % q := (Nat.div_add_mod' p q).symm
  have hr : p % q < q := Nat.mod_lt p hq
  have hsucc : (p / q + 1) * q = p / q * q + q := Nat.succ_mul _ _
  rw [divHalfEven]
  split_ifs
  · omega
  · rw [hsucc]
    omega
  · omega
  · rw [hsucc]
    omega

/-- Nothing else is nearer than half. The two bounds are strict, so the rule for ties is not
asked. -/
theorem divHalfEven_eq_of_near {p q n : ℕ} (hlow : 2 * (n * q) < 2 * p + q)
    (hhigh : 2 * p < 2 * (n * q) + q) : divHalfEven p q = n := by
  have hq : 0 < q := by omega
  have hp : p = p / q * q + p % q := (Nat.div_add_mod' p q).symm
  have hr : p % q < q := Nat.mod_lt p hq
  have hsucc : (p / q + 1) * q = p / q * q + q := Nat.succ_mul _ _
  have hle : n ≤ p / q + 1 := by
    by_contra hgt
    have hmul := Nat.mul_le_mul_right q (show p / q + 1 + 1 ≤ n by omega)
    rw [Nat.succ_mul] at hmul
    omega
  have hge : p / q ≤ n := by
    by_contra hlt
    have hmul := Nat.mul_le_mul_right q (show n + 1 ≤ p / q by omega)
    rw [Nat.succ_mul] at hmul
    omega
  rcases Nat.eq_or_lt_of_le hge with heq | hlt
  · subst heq
    rw [divHalfEven, if_pos (by omega)]
  · obtain rfl : n = p / q + 1 := by omega
    rw [divHalfEven, if_neg (by omega), if_pos (by omega)]

/-! ### Nearest magnitudes -/

theorem roundMag_near (p : ℕ) {q : ℕ} (hq : 0 < q) :
    2 * (roundMag p q * q) ≤ 2 * p + q * 2 ^ shift (p / q) ∧
      2 * p ≤ 2 * (roundMag p q * q) + q * 2 ^ shift (p / q) := by
  have hnear := divHalfEven_near p (q := q * 2 ^ shift (p / q)) (by positivity)
  have hmul : roundMag p q * q =
      divHalfEven p (q * 2 ^ shift (p / q)) * (q * 2 ^ shift (p / q)) := by
    rw [roundMag]
    ring
  rw [hmul]
  exact hnear

theorem roundMag_le (p q : ℕ) : roundMag p q ≤ 2 ^ 53 * 2 ^ shift (p / q) := by
  have hle := divHalfEven_le p (q * 2 ^ shift (p / q))
  have hlt := div_shift_lt (p / q)
  rw [Nat.div_div_eq_div_mul] at hlt
  exact Nat.mul_le_mul_right _ (by omega)

theorem two_pow_le_of_shift {n s : ℕ} (hs : s ≠ 0) (h : shift n = s) : 2 ^ (52 + s) ≤ n := by
  have hlog : Nat.log2 n = 52 + s := by
    rw [shift] at h
    omega
  rw [← hlog]
  refine Nat.log2_self_le ?_
  rintro rfl
  rw [Nat.log2_zero] at hlog
  omega

theorem le_shift_of_two_pow {n s : ℕ} (h : 2 ^ (52 + s) ≤ n) : s ≤ shift n := by
  have hne : n ≠ 0 := by
    have hpos : 0 < 2 ^ (52 + s) := by positivity
    omega
  have hlog := (Nat.le_log2 hne).mpr h
  rw [shift]
  omega

/-- A magnitude that is nearer than half a step is on the grid of that step. -/
theorem dvd_of_near {p q m s : ℕ} (hm : Representable m) (hq : 0 < q) (hs : shift (p / q) = s)
    (hhigh : 2 * p < 2 * (m * q) + q * 2 ^ s) : 2 ^ s ∣ m := by
  rcases Nat.eq_zero_or_pos s with rfl | hpos
  · exact one_dvd m
  obtain ⟨k, rfl⟩ := Nat.exists_eq_add_of_le' hpos
  have hfloor : 2 ^ (52 + (k + 1)) * q ≤ p :=
    (Nat.le_div_iff_mul_le hq).mp (two_pow_le_of_shift (by omega) hs)
  have hstep : 2 * 2 ^ (52 + (k + 1)) < 2 * m + 2 ^ (k + 1) := by
    have hmul : q * (2 * 2 ^ (52 + (k + 1))) < q * (2 * m + 2 ^ (k + 1)) := by
      calc q * (2 * 2 ^ (52 + (k + 1))) = 2 * (2 ^ (52 + (k + 1)) * q) := by ring
        _ ≤ 2 * p := by omega
        _ < 2 * (m * q) + q * 2 ^ (k + 1) := hhigh
        _ = q * (2 * m + 2 ^ (k + 1)) := by ring
    exact Nat.lt_of_mul_lt_mul_left hmul
  have hk : (2 : ℕ) ^ (k + 1) = 2 * 2 ^ k := by ring
  have hbig : (2 : ℕ) ^ (52 + (k + 1)) = 2 ^ 53 * 2 ^ k := by ring
  have hm' : 2 ^ (52 + (k + 1)) ≤ m := by
    -- on the finer grid below there is nothing nearer than half a step
    have hcoarse : 2 ^ (52 + k) ≤ m := by
      have : (2 : ℕ) ^ (52 + k) = 2 ^ 52 * 2 ^ k := by ring
      omega
    obtain ⟨t, rfl⟩ := (pow_dvd_pow 2 (le_shift_of_two_pow hcoarse)).trans hm.1
    have ht : 2 ^ 53 ≤ t := by
      by_contra hlt
      have hmul := Nat.mul_le_mul_left (2 ^ k) (show t + 1 ≤ 2 ^ 53 by omega)
      rw [Nat.mul_succ] at hmul
      omega
    rw [hbig, Nat.mul_comm]
    exact Nat.mul_le_mul_left _ ht
  exact (pow_dvd_pow 2 (le_shift_of_two_pow hm')).trans hm.1

/-- **A magnitude that is nearer than half a step is what is rounded to.** The step is that of
the fraction's own binade, so a magnitude at the upper end of the binade is compared with the
finer one. -/
theorem roundMag_of_near {p q m s : ℕ} (hm : Representable m) (hq : 0 < q)
    (hs : shift (p / q) = s) (hlow : 2 * (m * q) < 2 * p + q * 2 ^ s)
    (hhigh : 2 * p < 2 * (m * q) + q * 2 ^ s) : roundMag p q = m := by
  obtain ⟨t, rfl⟩ := dvd_of_near hm hq hs hhigh
  have hmul : 2 ^ s * t * q = t * (q * 2 ^ s) := by ring
  rw [hmul] at hlow hhigh
  rw [roundMag, hs, divHalfEven_eq_of_near hlow hhigh, Nat.mul_comm]

/-! ### Decimal places -/

/-- A step of doubles is never a step of decimals. -/
theorem ten_pow_mul_ne_one {digits : ℕ} (hd : 0 < digits) (s : ℕ) : 10 ^ digits * 2 ^ s ≠ one := by
  intro h
  have hfive : 5 ∣ one := by
    rw [← h]
    exact ((show 5 ∣ 10 by decide).trans (dvd_pow_self 10 (by omega))).mul_right _
  have hcoprime : Nat.Coprime 5 one := Nat.Coprime.pow_right fracBits (by decide)
  exact absurd (hcoprime.eq_one_of_dvd hfive) (by decide)

/-- What rounding a magnitude to decimal places gives. -/
def decimalMag (digits m : ℕ) : ℕ :=
  roundMag (divHalfEven (m * 10 ^ digits) one * one) (10 ^ digits)

theorem one_pos : 0 < one := by
  rw [one]
  positivity

/-- Either the decimal can be read off the double next to it, or the double is next to its
own decimal. -/
theorem decimalMag_cases {digits m : ℕ} (hd : 0 < digits) (hm : Representable m) :
    (divHalfEven (decimalMag digits m * 10 ^ digits) one = divHalfEven (m * 10 ^ digits) one ∧
      decimalMag digits m < limit) ∨ decimalMag digits m = m := by
  have hq : 0 < 10 ^ digits := by positivity
  obtain ⟨hlow, hhigh⟩ := divHalfEven_near (m * 10 ^ digits) one_pos
  rw [decimalMag]
  generalize divHalfEven (m * 10 ^ digits) one = N at hlow hhigh
  generalize hs : shift (N * one / 10 ^ digits) = s
  rcases Nat.lt_or_gt_of_ne (ten_pow_mul_ne_one hd s) with hfine | hcoarse
  · left
    obtain ⟨hlow', hhigh'⟩ := roundMag_near (N * one) hq
    rw [hs] at hlow' hhigh'
    refine ⟨divHalfEven_eq_of_near (by omega) (by omega), ?_⟩
    have hstep : 2 ^ s ≤ one := (Nat.le_mul_of_pos_left _ hq).trans hfine.le
    calc roundMag (N * one) (10 ^ digits) ≤ 2 ^ 53 * 2 ^ s := hs ▸ roundMag_le _ _
      _ ≤ 2 ^ 53 * one := Nat.mul_le_mul_left _ hstep
      _ = 2 ^ (53 + fracBits) := by rw [one, pow_add]
      _ < limit := Nat.pow_lt_pow_right (by decide) (by omega)
  · exact .inr (roundMag_of_near hm hq hs (by omega) (by omega))

theorem roundTo_fin (digits : ℕ) (neg : Bool) (x : Mag) :
    roundTo digits (.fin neg x) =
      ofRatio neg (divHalfEven (x.val * 10 ^ digits) one * one) (10 ^ digits) := by
  rw [roundTo, ofDecimal]
  simp

theorem decimalMag_lt {digits : ℕ} (hd : 0 < digits) (x : Mag) :
    decimalMag digits x.val < limit := by
  rcases decimalMag_cases hd x.property with ⟨-, hlt⟩ | heq
  · exact hlt
  · rw [heq]
    exact x.property.2

/-- A magnitude rounded to decimal places. -/
def Mag.rounded {digits : ℕ} (hd : 0 < digits) (x : Mag) : Mag :=
  ⟨decimalMag digits x.val, representable_roundMag (decimalMag_lt hd x)⟩

theorem roundTo_eq {digits : ℕ} (hd : 0 < digits) (neg : Bool) (x : Mag) :
    roundTo digits (.fin neg x) = .fin neg (x.rounded hd) := by
  rw [roundTo_fin, ofRatio]
  exact dif_pos (decimalMag_lt hd x)

theorem Mag.rounded_rounded {digits : ℕ} (hd : 0 < digits) (x : Mag) :
    (x.rounded hd).rounded hd = x.rounded hd := by
  refine Subtype.ext ?_
  show decimalMag digits (decimalMag digits x.val) = decimalMag digits x.val
  rcases decimalMag_cases hd x.property with ⟨hsame, -⟩ | heq
  · rw [decimalMag, hsame, ← decimalMag]
  · rw [heq, heq]

theorem isFinite_roundTo {digits : ℕ} (hd : 0 < digits) {x : Binary64} (hx : x.isFinite = true) :
    (roundTo digits x).isFinite = true := by
  cases x with
  | fin neg x =>
    rw [roundTo_eq hd]
    rfl
  | nan | inf _ => exact nomatch hx

/-- **A rounded value is its own rounding.** Either rounding leaves the value as it is, or it
leads to a decimal of that many digits, which is what the double it is stored as is rounded to
again. -/
theorem roundTo_roundTo {digits : ℕ} (hd : 0 < digits) (x : Binary64) :
    roundTo digits (roundTo digits x) = roundTo digits x := by
  cases x with
  | nan | inf _ => rfl
  | fin neg x => rw [roundTo_eq hd, roundTo_eq hd, Mag.rounded_rounded hd]

end Binary64

end Py
