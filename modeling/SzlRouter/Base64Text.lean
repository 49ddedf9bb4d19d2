/-
Base64 as `base64.b64encode` writes it, and as `base64.b64decode` reads it without
`validate`.

The reader is `binascii.a2b_base64`: it passes over what is not of the alphabet, and stops
at the padding that completes a group.  What was written is read back, whatever follows it.
-/
import SzlRouter.Base64

namespace Py

def base64Alphabet : Str :=
  lit "ABCDEFGHIJKLMNOPQRSTUVWXYZabcdefghijklmnopqrstuvwxyz0123456789+/"

/-- The character of six bits. -/
def base64Char (v : ℕ) : CodePoint := base64Alphabet.getD v (chr '=')

/-- `base64.b64encode(b)`. -/
def base64Encode : Bytes → Str
  | [] => []
  | [a] => [base64Char (a.val / 4), base64Char (a.val % 4 * 16), chr '=', chr '=']
  | [a, b] => [base64Char (a.val / 4), base64Char (a.val % 4 * 16 + b.val / 16),
      base64Char (b.val % 16 * 4), chr '=']
  | a :: b :: c :: rest =>
    base64Char (a.val / 4) :: base64Char (a.val % 4 * 16 + b.val / 16) ::
      base64Char (b.val % 16 * 4 + c.val / 64) :: base64Char (c.val % 64) :: base64Encode rest

/-- The loop of `binascii.a2b_base64`: the place in the group, the bits left over, and the
padding seen; `none` is its `binascii.Error`. -/
def a2bBase64 : Str → (quadPos left pads : ℕ) → Option Bytes
  | [], quadPos, _, _ => if quadPos = 0 then some [] else none
  | c :: s, quadPos, left, pads =>
    if c = chr '=' then
      if quadPos < 2 then a2bBase64 s quadPos left pads
      else if 4 ≤ quadPos + (pads + 1) then some []
      else a2bBase64 s quadPos left (pads + 1)
    else
      match base64Value c with
      | none => a2bBase64 s quadPos left pads
      | some v =>
        match quadPos with
        | 0 => a2bBase64 s 1 v 0
        | 1 => (a2bBase64 s 2 (v % 16) 0).map (byte (left * 4 + v / 16) :: ·)
        | 2 => (a2bBase64 s 3 (v % 4) 0).map (byte (left * 16 + v / 4) :: ·)
        | _ => (a2bBase64 s 0 0 0).map (byte (left * 64 + v) :: ·)

/-- `base64.b64decode(s.encode("ascii"))`; `none` is its `ValueError`. -/
def base64DecodeLax (s : Str) : Option Bytes :=
  if s.all fun c => c.val < 128 then a2bBase64 s 0 0 0 else none

/-- The alphabet is read back, and holds no padding. -/
theorem base64Value_base64Char {v : ℕ} (h : v < 64) :
    base64Value (base64Char v) = some v ∧ base64Char v ≠ chr '=' ∧ (base64Char v).val < 128 ∧
      Str.isSpace (base64Char v) = false := by
  have hall : ∀ v < 64, base64Value (base64Char v) = some v ∧ base64Char v ≠ chr '=' ∧
    (base64Char v).val < 128 ∧ Str.isSpace (base64Char v) = false := by decide +kernel
  exact hall v h

/-! ### One character -/

section

variable {v : ℕ} (s : Str) (left pads : ℕ)

/-- One character of the text, by its place in the group. -/
theorem a2bBase64_cons (c : CodePoint) (quadPos : ℕ) : a2bBase64 (c :: s) quadPos left pads =
    if c = chr '=' then
      if quadPos < 2 then a2bBase64 s quadPos left pads
      else if 4 ≤ quadPos + (pads + 1) then some []
      else a2bBase64 s quadPos left (pads + 1)
    else
      match base64Value c with
      | none => a2bBase64 s quadPos left pads
      | some v =>
        match quadPos with
        | 0 => a2bBase64 s 1 v 0
        | 1 => (a2bBase64 s 2 (v % 16) 0).map (byte (left * 4 + v / 16) :: ·)
        | 2 => (a2bBase64 s 3 (v % 4) 0).map (byte (left * 16 + v / 4) :: ·)
        | _ => (a2bBase64 s 0 0 0).map (byte (left * 64 + v) :: ·) :=
  rfl

theorem a2bBase64_first (h : v < 64) :
    a2bBase64 (base64Char v :: s) 0 left pads = a2bBase64 s 1 v 0 := by
  obtain ⟨hvalue, hne, -⟩ := base64Value_base64Char h
  rw [a2bBase64_cons, if_neg hne, hvalue]
  rfl

theorem a2bBase64_second (h : v < 64) :
    a2bBase64 (base64Char v :: s) 1 left pads =
      (a2bBase64 s 2 (v % 16) 0).map (byte (left * 4 + v / 16) :: ·) := by
  obtain ⟨hvalue, hne, -⟩ := base64Value_base64Char h
  rw [a2bBase64_cons, if_neg hne, hvalue]
  rfl

theorem a2bBase64_third (h : v < 64) :
    a2bBase64 (base64Char v :: s) 2 left pads =
      (a2bBase64 s 3 (v % 4) 0).map (byte (left * 16 + v / 4) :: ·) := by
  obtain ⟨hvalue, hne, -⟩ := base64Value_base64Char h
  rw [a2bBase64_cons, if_neg hne, hvalue]
  rfl

theorem a2bBase64_fourth (h : v < 64) :
    a2bBase64 (base64Char v :: s) 3 left pads =
      (a2bBase64 s 0 0 0).map (byte (left * 64 + v) :: ·) := by
  obtain ⟨hvalue, hne, -⟩ := base64Value_base64Char h
  rw [a2bBase64_cons, if_neg hne, hvalue]
  rfl

/-- The padding that completes a group ends the reading. -/
theorem a2bBase64_pad : a2bBase64 (chr '=' :: s) 3 left 0 = some [] := by
  rw [a2bBase64_cons, if_pos rfl, if_neg (by omega), if_pos (by omega)]

theorem a2bBase64_pads : a2bBase64 (chr '=' :: chr '=' :: s) 2 left 0 = some [] := by
  rw [a2bBase64_cons, if_pos rfl, if_neg (by omega), if_neg (by omega), a2bBase64_cons, if_pos rfl,
    if_neg (by omega), if_pos (by omega)]

end

/-! ### The round trip -/

theorem byte_eq {n : ℕ} {a : Byte} (h : n = a.val) : byte n = a := by
  rw [h]
  exact Fin.ext (byte_val a.isLt)

/-- Three bytes at a time. -/
theorem a2bBase64_base64Encode (b : Bytes) : a2bBase64 (base64Encode b) 0 0 0 = some b := by
  induction b using base64Encode.induct with
  | case1 => rfl
  | case2 a =>
    have ha := a.isLt
    rw [base64Encode, a2bBase64_first _ _ _ (by omega), a2bBase64_second _ _ _ (by omega),
      a2bBase64_pads, Option.map_some, byte_eq (a := a) (by omega)]
  | case3 a b =>
    have ha := a.isLt
    have hb := b.isLt
    rw [base64Encode, a2bBase64_first _ _ _ (by omega), a2bBase64_second _ _ _ (by omega),
      a2bBase64_third _ _ _ (by omega), a2bBase64_pad, Option.map_some, Option.map_some,
      byte_eq (a := a) (by omega), byte_eq (a := b) (by omega)]
  | case4 a b c rest ih =>
    have ha := a.isLt
    have hb := b.isLt
    have hc := c.isLt
    rw [base64Encode, a2bBase64_first _ _ _ (by omega), a2bBase64_second _ _ _ (by omega),
      a2bBase64_third _ _ _ (by omega), a2bBase64_fourth _ _ _ (by omega), ih]
    simp only [Option.map_some]
    rw [byte_eq (a := a) (by omega), byte_eq (a := b) (by omega), byte_eq (a := c) (by omega)]

/-- What is written is printable. -/
theorem base64Encode_plain (b : Bytes) :
    ∀ c ∈ base64Encode b, c.val < 128 ∧ Str.isSpace c = false := by
  have hchar : ∀ v < 64, (base64Char v).val < 128 ∧ Str.isSpace (base64Char v) = false :=
    fun v hv => (base64Value_base64Char hv).2.2
  have hpad : (chr '=').val < 128 ∧ Str.isSpace (chr '=') = false := by decide
  -- by the groups of the encoder; its indices are below 64, and the padding is plain too
  induction b using base64Encode.induct with
  | case1 => exact List.forall_mem_nil _
  | case2 a =>
    have ha := a.isLt
    simp only [base64Encode, List.forall_mem_cons]
    exact ⟨hchar _ (by omega), hchar _ (by omega), hpad, hpad, List.forall_mem_nil _⟩
  | case3 a b =>
    have ha := a.isLt
    have hb := b.isLt
    simp only [base64Encode, List.forall_mem_cons]
    exact ⟨hchar _ (by omega), hchar _ (by omega), hchar _ (by omega), hpad, List.forall_mem_nil _⟩
  | case4 a b c rest ih =>
    have ha := a.isLt
    have hb := b.isLt
    have hc := c.isLt
    simp only [base64Encode, List.forall_mem_cons]
    exact ⟨hchar _ (by omega), hchar _ (by omega), hchar _ (by omega), hchar _ (by omega), ih⟩

theorem base64DecodeLax_base64Encode (b : Bytes) : base64DecodeLax (base64Encode b) = some b := by
  rw [base64DecodeLax, if_pos, a2bBase64_base64Encode]
  exact List.all_eq_true.mpr fun c hc => decide_eq_true (base64Encode_plain b c hc).1

/-- The first character tells the first six bits. -/
theorem base64Encode_head {a : Byte} (rest : Bytes) :
    (base64Encode (a :: rest)).head? = some (base64Char (a.val / 4)) := by
  cases rest with
  | nil => rfl
  | cons b rest => cases rest <;> rfl

end Py
