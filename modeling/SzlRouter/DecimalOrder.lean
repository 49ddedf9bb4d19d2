/-
Decimal texts in the order of their values.

A decimal text without leading zeros is shorter than another, or of its length
and before it, exactly when it denotes a smaller number.  Leading zeros can be
dropped first.

* `Decimal.lt_iff` — the order of texts is the order of values;
* `decimal_withoutZeros` — what is left without leading zeros.
-/
import SzlRouter.Numeral

namespace Py

/-- Digits only. -/
def Digits (s : Str) : Prop := ∀ c ∈ s, Str.isDigit c = true

theorem digitsVal_cons (c : CodePoint) (s : Str) :
    digitsVal (c :: s) = (c.val - 48) * 10 ^ s.length + digitsVal s := by
  rw [← List.singleton_append, digitsVal_append]
  simp [digitsVal]

theorem Digits.tail {c : CodePoint} {s : Str} (h : Digits (c :: s)) : Digits s :=
  fun x hx => h x (List.mem_cons_of_mem _ hx)

theorem Digits.head {c : CodePoint} {s : Str} (h : Digits (c :: s)) :
    48 ≤ c.val ∧ c.val ≤ 57 :=
  of_decide_eq_true (h c List.mem_cons_self)

theorem digitsVal_lt {s : Str} (h : Digits s) : digitsVal s < 10 ^ s.length := by
  induction s with
  | nil => decide
  | cons c s ih =>
    have hs := ih h.tail
    have hc := h.head
    rw [digitsVal_cons, List.length_cons, Nat.pow_succ]
    have hle : (c.val - 48) * 10 ^ s.length ≤ 9 * 10 ^ s.length :=
      Nat.mul_le_mul_right _ (by omega)
    omega

/-- Among texts of one length the order is that of the values. -/
theorem lt_iff_digitsVal_lt {s t : Str} (hs : Digits s) (ht : Digits t)
    (hlen : s.length = t.length) : s < t ↔ digitsVal s < digitsVal t := by
  induction s generalizing t with
  | nil =>
    obtain rfl := List.length_eq_zero_iff.mp hlen.symm
    simp
  | cons a s ih =>
    cases t with
    | nil => exact absurd hlen (by simp)
    | cons b t =>
      have hlen' : s.length = t.length := by simpa using hlen
      have ha := hs.head
      have hb := ht.head
      have hsmall := digitsVal_lt hs.tail
      have htmall := digitsVal_lt ht.tail
      rw [List.cons_lt_cons_iff, ih hs.tail ht.tail hlen', digitsVal_cons, digitsVal_cons, hlen',
        Fin.lt_def, Fin.ext_iff]
      rw [hlen'] at hsmall
      -- a smaller first digit leaves at least one whole power of ten
      rcases lt_trichotomy a.val b.val with h | h | h
      · have hpow :
          (a.val - 48) * 10 ^ t.length + 10 ^ t.length ≤ (b.val - 48) * 10 ^ t.length := by
          rw [← Nat.succ_mul]
          exact Nat.mul_le_mul_right _ (by omega)
        exact iff_of_true (.inl h) (by omega)
      · rw [h]
        simp
      · have hpow :
          (b.val - 48) * 10 ^ t.length + 10 ^ t.length ≤ (a.val - 48) * 10 ^ t.length := by
          rw [← Nat.succ_mul]
          exact Nat.mul_le_mul_right _ (by omega)
        exact iff_of_false (by omega) (by omega)

/-- A decimal text as it is printed: no leading zero, zero itself apart. -/
structure Decimal (s : Str) : Prop where
  ne : s ≠ []
  digits : Digits s
  lead : s.head? = some (chr '0') → s = [chr '0']

theorem decimal_natDigits (n : ℕ) : Decimal (natDigits n) where
  ne := natDigits_ne_nil n
  digits _ hc := isDigit_natDigits hc
  lead h := by
    by_cases hn : n = 0
    · rw [hn]
      rfl
    · exact absurd h (head_natDigits hn)

/-- A power of ten has more digits than its exponent. -/
theorem lt_length_natDigits {k n : ℕ} (h : 10 ^ k ≤ n) : k < (natDigits n).length := by
  by_contra hshort
  have hlt := digitsVal_lt (decimal_natDigits n).digits
  rw [digitsVal_natDigits] at hlt
  have hmono : 10 ^ (natDigits n).length ≤ 10 ^ k :=
    Nat.pow_le_pow_right (by decide) (not_lt.mp hshort)
  omega

/-- A longer text without leading zeros denotes a number with more digits. -/
theorem Decimal.pow_le {s : Str} (h : Decimal s) (hlen : 1 < s.length) :
    10 ^ (s.length - 1) ≤ digitsVal s := by
  cases s with
  | nil => exact absurd rfl h.ne
  | cons c s =>
    have hc := h.digits.head
    have hne : c.val ≠ 48 := by
      intro h0
      have hzero : c = chr '0' := Fin.ext h0
      have hone := h.lead (by rw [hzero]; rfl)
      rw [hone] at hlen
      exact absurd hlen (by simp)
    rw [digitsVal_cons, List.length_cons, Nat.add_sub_cancel]
    have hle : 1 * 10 ^ s.length ≤ (c.val - 48) * 10 ^ s.length :=
      Nat.mul_le_mul_right _ (by omega)
    omega

/-- A number below a power of ten has no more digits than its exponent, or it is zero. -/
theorem length_natDigits_le {k n : ℕ} (h : n < 10 ^ k) : (natDigits n).length ≤ max k 1 := by
  by_contra hlong
  have hle := (decimal_natDigits n).pow_le (by omega)
  rw [digitsVal_natDigits] at hle
  have hmono : 10 ^ k ≤ 10 ^ ((natDigits n).length - 1) :=
    Nat.pow_le_pow_right (by decide) (by omega)
  omega

theorem Decimal.lt_of_length {s t : Str} (hs : Decimal s) (ht : Decimal t)
    (h : s.length < t.length) : digitsVal s < digitsVal t := by
  have hpos := List.length_pos_of_ne_nil hs.ne
  have hle := ht.pow_le (by omega)
  have hlt := digitsVal_lt hs.digits
  have hmono : 10 ^ s.length ≤ 10 ^ (t.length - 1) := Nat.pow_le_pow_right (by omega) (by omega)
  omega

/-- The order of texts, by length and then by characters, is the order of values. -/
theorem Decimal.lt_iff {s t : Str} (hs : Decimal s) (ht : Decimal t) :
    s.length < t.length ∨ (t.length = s.length ∧ s < t) ↔ digitsVal s < digitsVal t := by
  rcases lt_trichotomy s.length t.length with h | h | h
  · exact iff_of_true (.inl h) (hs.lt_of_length ht h)
  · rw [lt_iff_digitsVal_lt hs.digits ht.digits h]
    omega
  · have hlt := ht.lt_of_length hs h
    omega

/-! ### Leading zeros -/

theorem digitsVal_dropZeros (s : Str) :
    digitsVal (s.dropWhile (· = chr '0')) = digitsVal s := by
  induction s with
  | nil => rfl
  | cons c s ih =>
    by_cases hc : c = chr '0'
    · have hzero : (chr '0').val - 48 = 0 := rfl
      rw [List.dropWhile_cons_of_pos (by simpa using hc), ih, digitsVal_cons, hc, hzero]
      omega
    · rw [List.dropWhile_cons_of_neg (by simpa using hc)]

/-- `s.lstrip("0") or "0"`. -/
def withoutZeros (s : Str) : Str :=
  if s.dropWhile (· = chr '0') = [] then lit "0" else s.dropWhile (· = chr '0')

theorem digitsVal_withoutZeros (s : Str) : digitsVal (withoutZeros s) = digitsVal s := by
  rw [withoutZeros, ← digitsVal_dropZeros s]
  split_ifs with h
  · rw [h]
    rfl
  · rfl

theorem decimal_withoutZeros {s : Str} (h : Digits s) : Decimal (withoutZeros s) := by
  rw [withoutZeros]
  split_ifs with hnil
  · exact decimal_natDigits 0
  · refine ⟨hnil, fun c hc => h c ((List.dropWhile_sublist _).subset hc), fun hhead => ?_⟩
    have hfirst := List.head?_dropWhile_not (· = chr '0') s
    rw [hhead] at hfirst
    exact absurd hfirst (by decide)

end Py
