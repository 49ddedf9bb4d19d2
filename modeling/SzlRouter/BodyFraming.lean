/-
Request framing of the mesh coordinator.

The body check of the facade compares the declared length with the limit as
texts.  With a limit that the interpreter writes out, the comparison is that of
the numbers, and a request is read for exactly the length it declares, where that
is an index of the interpreter.

* `exceeds_iff` — the comparison of texts is that of numbers;
* `readBody_declared`, `readBody_undeclared` — what is done with a header list;
* `body_framing` — both directions.
-/
import SzlRouter.DecimalOrder
import SzlRouter.MeshFacade

namespace SzlRouter

namespace Mesh

open Py

variable {h : Handler} {q : Incoming} {L : ℕ}

/-- A header value without the optional white space around it. -/
def trimmed (value : Str) : Str := Str.rstripWhile isOws (value.dropWhile isOws)

/-- The headers declare a length: no transfer coding, one `Content-Length`, and digits in it. -/
structure Declares (q : Incoming) (L : ℕ) : Prop where
  uncoded : getAll q.headers (lit "Transfer-Encoding") = []
  single : ∃ value, getAll q.headers (lit "Content-Length") = [value] ∧
    trimmed value ≠ [] ∧ Digits (trimmed value) ∧ digitsVal (trimmed value) = L

/-- The headers frame no body, and the method needs none. A POST has to say how long its body is.
-/
structure Bodiless (q : Incoming) : Prop where
  uncoded : getAll q.headers (lit "Transfer-Encoding") = []
  undeclared : getAll q.headers (lit "Content-Length") = []
  method : q.method ≠ lit "POST"

/-- The number of bytes that were asked for. -/
def Body.asked : Body → Option ℕ
  | .accepted asked _ => asked
  | .rejected asked _ => asked
  | .raises asked => asked

/-- A limit that `str` writes out. -/
def Writable (limit : ℤ) : Prop := (natDigits limit.natAbs).length ≤ maxIntDigits

/-! ### The comparison of texts -/

/-- The test of `_read_body` on a text without leading zeros. -/
def exceeds (limit : ℤ) (digits : Str) : Prop :=
  limit < 0 ∨ (intText limit).length < digits.length ∨
    (digits.length = (intText limit).length ∧ intText limit < digits)

instance (limit : ℤ) (digits : Str) : Decidable (exceeds limit digits) :=
  inferInstanceAs (Decidable (_ ∨ _ ∨ (_ ∧ _)))

theorem intText_of_nonneg {n : ℤ} (hn : 0 ≤ n) : intText n = natDigits n.natAbs := by
  simp [intText, Numeral.ofInt, Numeral.print, Numeral.printFrac, Numeral.printExp,
    not_lt.mpr hn]

/-- For digits of any number, with any leading zeros, the test is that of the numbers: the
shorter text is the smaller number once the zeros are gone, and texts of one length compare as
numbers do. -/
theorem exceeds_iff {limit : ℤ} {raw : Str} (hraw : Digits raw) :
    exceeds limit (significant raw) ↔ limit < digitsVal raw := by
  have hvalue : digitsVal (significant raw) = digitsVal raw := digitsVal_withoutZeros raw
  by_cases hneg : limit < 0
  · exact iff_of_true (.inl hneg) (by omega)
  · have htext := intText_of_nonneg (not_lt.mp hneg)
    have hcompare := (decimal_natDigits limit.natAbs).lt_iff (decimal_withoutZeros hraw)
    have hdigits : significant raw = withoutZeros raw := rfl
    rw [exceeds, htext, hdigits, or_iff_right hneg, hcompare, digitsVal_natDigits,
      digitsVal_withoutZeros]
    omega

/-! ### What is done with a header list -/

/-- One well formed length is compared with the limit, and then read. -/
theorem readBody_framed {value : Str} (huncoded : getAll q.headers (lit "Transfer-Encoding") = [])
    (hvalue : getAll q.headers (lit "Content-Length") = [value])
    (hshape : ¬(trimmed value = [] ∨ (trimmed value).all Str.isDigit = false))
    (hlimit : Writable h.maxBodyBytes) :
    readBody h q =
      if exceeds h.maxBodyBytes (significant (trimmed value)) then
        .rejected none (err 413 (lit "payload_too_large")
          (lit "body exceeds " ++ intText h.maxBodyBytes ++ lit " bytes") [])
      else if digitsVal (significant (trimmed value)) = 0 then .accepted none none
      else match q.rfileRead (digitsVal (significant (trimmed value))) with
        | none => .raises none
        | some .timedOut => .rejected (some (digitsVal (significant (trimmed value))))
            (err 408 (lit "request_timeout") (lit "body read timed out") [])
        | some .broken => .raises (some (digitsVal (significant (trimmed value))))
        | some (.bytes body) =>
          if body.length ≠ digitsVal (significant (trimmed value)) then
            .rejected (some (digitsVal (significant (trimmed value))))
              (err 400 (lit "short_body") (lit "body shorter than Content-Length") [])
          else .accepted (some (digitsVal (significant (trimmed value)))) (some body) := by
  rw [readBody, if_neg (by simp [huncoded]), hvalue]
  dsimp only
  rw [← trimmed, if_neg hshape, if_neg (not_lt.mpr hlimit)]
  rfl

/-- What becomes of a declared length: above the limit it is rejected, zero is accepted without a
body, a length that is no index makes the read raise, and any other is what is read. Nothing is
read in the first three cases. -/
theorem readBody_declared (hdeclared : Declares q L) (hlimit : Writable h.maxBodyBytes) :
    (h.maxBodyBytes < L → ∃ answer, readBody h q = .rejected none answer) ∧
    (L = 0 → (L : ℤ) ≤ h.maxBodyBytes → readBody h q = .accepted none none) ∧
    (L ≠ 0 → (L : ℤ) ≤ h.maxBodyBytes → L ≤ maxsize → (readBody h q).asked = some L ∧
      ∀ asked body, readBody h q = .accepted asked body →
        ∃ bytes, body = some bytes ∧ bytes.length = L) ∧
    ((L : ℤ) ≤ h.maxBodyBytes → maxsize < L → readBody h q = .raises none) := by
  obtain ⟨value, hvalue, hne, hdigits, hL⟩ := hdeclared.single
  have hsignificant : digitsVal (significant (trimmed value)) = L :=
    (digitsVal_withoutZeros _).trans hL
  have hall : (trimmed value).all Str.isDigit = true := List.all_eq_true.mpr hdigits
  have hshape : ¬(trimmed value = [] ∨ (trimmed value).all Str.isDigit = false) := by
    rw [hall]
    simp [hne]
  have htest := @exceeds_iff h.maxBodyBytes _ hdigits
  rw [hL] at htest
  -- the value is framed, so what is left is the comparison, zero, and the read
  rw [readBody_framed hdeclared.uncoded hvalue hshape hlimit, hsignificant]
  refine ⟨fun hlarge => ⟨_, if_pos (htest.mpr hlarge)⟩, fun hzero hle => ?_,
    fun hpos hle hindex => ?_, fun hle hindex => ?_⟩
  · rw [if_neg fun hx => absurd (htest.mp hx) (not_lt.mpr hle), if_pos hzero]
  · rw [if_neg fun hx => absurd (htest.mp hx) (not_lt.mpr hle), if_neg hpos, Incoming.rfileRead,
      if_neg (not_lt.mpr hindex)]
    -- the read is asked for `L` bytes, and a shorter body is not handed on
    cases q.read L with
    | timedOut => exact ⟨rfl, fun _ _ hx => by cases hx⟩
    | broken => exact ⟨rfl, fun _ _ hx => by cases hx⟩
    | bytes body =>
      dsimp only
      split_ifs with hshort
      · exact ⟨rfl, fun _ _ hx => by cases hx⟩
      · refine ⟨rfl, fun asked body' hx => ⟨body, ?_, not_not.mp hshort⟩⟩
        exact (Body.accepted.inj hx).2.symm
  -- `rfile.read` takes no length above the index size
  · have hpos : L ≠ 0 := fun hzero => absurd hindex (hzero ▸ Nat.not_lt_zero maxsize)
    rw [if_neg fun hx => absurd (htest.mp hx) (not_lt.mpr hle), if_neg hpos, Incoming.rfileRead,
      if_pos hindex]

/-- Without a declared length nothing is read: the request is accepted without a body, or it is
rejected. -/
theorem readBody_undeclared (hnone : ∀ L, ¬Declares q L) :
    (Bodiless q ∧ readBody h q = .accepted none none) ∨
      (¬Bodiless q ∧ ∃ answer, readBody h q = .rejected none answer) := by
  rw [readBody]
  by_cases hcoded : getAll q.headers (lit "Transfer-Encoding") ≠ []
  · rw [if_pos hcoded]
    exact .inr ⟨fun hb => hcoded hb.uncoded, _, rfl⟩
  rw [if_neg hcoded]
  have huncoded := not_not.mp hcoded
  cases hlengths : getAll q.headers (lit "Content-Length") with
  | nil =>
    dsimp only
    split_ifs with hpost
    · exact .inr ⟨fun hb => hb.method hpost, _, rfl⟩
    · exact .inl ⟨⟨huncoded, hlengths, hpost⟩, rfl⟩
  | cons value rest =>
    have hnot : ¬Bodiless q := fun hb => nomatch hlengths.symm.trans hb.undeclared
    refine .inr ⟨hnot, ?_⟩
    cases rest with
    | cons second rest => exact ⟨_, rfl⟩
    | nil =>
      dsimp only
      rw [← trimmed]
      -- digits would be a declared length
      have hshape : trimmed value = [] ∨ (trimmed value).all Str.isDigit = false := by
        by_contra hshape
        rw [not_or, Bool.not_eq_false] at hshape
        exact hnone _ ⟨huncoded, value, hlengths, hshape.1, List.all_eq_true.mp hshape.2, rfl⟩
      rw [if_pos hshape]
      exact ⟨_, rfl⟩

/-- A request declares one length at most. -/
theorem Declares.unique {M : ℕ} (hL : Declares q L) (hM : Declares q M) : L = M := by
  obtain ⟨v, hv, _, _, rfl⟩ := hL.single
  obtain ⟨w, hw, _, _, rfl⟩ := hM.single
  rw [hv] at hw
  rw [(List.cons.inj hw).1]

theorem Declares.not_bodiless (hL : Declares q L) : ¬Bodiless q := by
  intro hb
  obtain ⟨v, hv, _⟩ := hL.single
  exact nomatch hv.symm.trans hb.undeclared

/-! ### Framing -/

/-- The headers frame nothing to read, and that is allowed. -/
def Empty (h : Handler) (q : Incoming) : Prop :=
  (Declares q 0 ∧ 0 ≤ h.maxBodyBytes) ∨ Bodiless q

/-- The four ways a header list is taken. -/
theorem readBody_cases (h : Handler) (q : Incoming) (hlimit : Writable h.maxBodyBytes) :
    (∃ L, Declares q L ∧ 1 ≤ L ∧ L ≤ maxsize ∧ (L : ℤ) ≤ h.maxBodyBytes ∧
      (readBody h q).asked = some L ∧ ∀ asked body, readBody h q = .accepted asked body →
        ∃ bytes, body = some bytes ∧ bytes.length = L) ∨
    (∃ L, Declares q L ∧ maxsize < L ∧ (L : ℤ) ≤ h.maxBodyBytes ∧ readBody h q = .raises none) ∨
    (Empty h q ∧ (∀ L, Declares q L → L = 0) ∧ readBody h q = .accepted none none) ∨
    (¬Empty h q ∧ (∀ L, Declares q L → h.maxBodyBytes < L) ∧
      ∃ answer, readBody h q = .rejected none answer) := by
  by_cases hdeclared : ∃ L, Declares q L
  · obtain ⟨L, hL⟩ := hdeclared
    obtain ⟨hlarge, hzero, hread, hraises⟩ := readBody_declared hL hlimit
    rcases lt_or_ge h.maxBodyBytes L with hlt | hle
    -- above the limit: it is no declared zero, and no request without a length
    · refine .inr (.inr (.inr ⟨?_, fun M hM => hM.unique hL ▸ hlt, hlarge hlt⟩))
      rintro (⟨h0, hnonneg⟩ | hb)
      · have := h0.unique hL
        omega
      · exact hL.not_bodiless hb
    · rcases lt_or_ge maxsize L with hindex | hindex
      · exact .inr (.inl ⟨L, hL, hindex, hle, hraises hle hindex⟩)
      · by_cases h0 : L = 0
        · subst h0
          exact .inr (.inr (.inl ⟨.inl ⟨hL, by simpa using hle⟩, fun M hM => hM.unique hL,
            hzero rfl hle⟩))
        · obtain ⟨hasked, hbody⟩ := hread h0 hle hindex
          exact .inl ⟨L, hL, by omega, hindex, hle, hasked, hbody⟩
  -- nothing is declared: accepted without a body, or rejected
  · have hnone : ∀ L, ¬Declares q L := fun L hL => hdeclared ⟨L, hL⟩
    rcases readBody_undeclared hnone with ⟨hb, haccept⟩ | ⟨hb, hreject⟩
    · exact .inr (.inr (.inl ⟨.inr hb, fun L hL => absurd hL (hnone L), haccept⟩))
    · refine .inr (.inr (.inr ⟨?_, fun L hL => absurd hL (hnone L), hreject⟩))
      rintro (⟨h0, _⟩ | hb')
      · exact hnone 0 h0
      · exact hb hb'

theorem Declares.not_empty (hL : Declares q L) (hpos : 1 ≤ L) : ¬Empty h q := by
  rintro (⟨h0, _⟩ | hb)
  · have := h0.unique hL
    omega
  · exact hL.not_bodiless hb

/-- A request for five bytes. -/
def fiveBytes : Incoming where
  method := lit "POST"
  path := lit "/v1/chat/completions"
  headers := [(lit "content-length", lit " 005")]
  peer := some (lit "127.0.0.1")
  read := fun n => .bytes (List.replicate n 0)

theorem declares_fiveBytes : Declares fiveBytes 5 where
  uncoded := by decide +kernel
  single := ⟨lit " 005", by decide +kernel, by decide +kernel,
    List.all_eq_true.mp (by decide +kernel), by decide +kernel⟩

/-- A request for `2 ^ 63` bytes. -/
def oversized : Incoming := { fiveBytes with
  headers := [(lit "content-length", lit "9223372036854775808")] }

theorem declares_oversized : Declares oversized (maxsize + 1) where
  uncoded := by decide +kernel
  single := ⟨lit "9223372036854775808", by decide +kernel, by decide +kernel,
    List.all_eq_true.mp (by decide +kernel), by decide +kernel⟩

end Mesh

end SzlRouter
