/-
Python strings and their UTF-8 encoding.

A Python `str` is a sequence of code points, lone surrogates included, so `Str`
is a list of numbers below `0x110000` rather than a Lean `String`.  Encoding to
UTF-8 fails exactly on a surrogate, and decoding is strict.

* `utf8_injective` — two encodable strings with the same bytes are equal;
* `decodeUtf8_utf8` — decoding inverts encoding.
-/
import Mathlib.Data.List.DropRight
import Mathlib.Data.List.Lex
import Mathlib.Data.Nat.Digits.Defs
import Mathlib.Tactic.SplitIfs

namespace Py

/-- A code point, surrogates included. -/
abbrev CodePoint := Fin 0x110000

/-- A Python `str`. -/
abbrev Str := List CodePoint

abbrev Byte := Fin 256

/-- A Python `bytes`. -/
abbrev Bytes := List Byte

instance neZero_codePoint : NeZero 0x110000 := ⟨by decide⟩

instance neZero_byte : NeZero 256 := ⟨by decide⟩

instance lawfulBEq_codePoint : LawfulBEq CodePoint := inferInstance

instance lawfulBEq_str : LawfulBEq Str := inferInstance

theorem Char.toNat_lt (c : Char) : c.toNat < 0x110000 := by
  have h := c.valid
  simp only [UInt32.isValidChar, Nat.isValidChar] at h
  show c.val.toNat < _
  omega

/-- The code point of a character. -/
def chr (c : Char) : CodePoint := ⟨c.toNat, Char.toNat_lt c⟩

/-- A string literal of the source. -/
def lit (s : String) : Str := s.toList.map chr

instance : Coe String Str := ⟨lit⟩
instance : Coe Char CodePoint := ⟨chr⟩

namespace Str

/-- `c.isspace()`. -/
def isSpace (c : CodePoint) : Bool :=
  (9 ≤ c.val ∧ c.val ≤ 13) ∨ (28 ≤ c.val ∧ c.val ≤ 32) ∨ c.val = 0x85 ∨ c.val = 0xA0 ∨
    c.val = 0x1680 ∨ (0x2000 ≤ c.val ∧ c.val ≤ 0x200A) ∨ c.val = 0x2028 ∨ c.val = 0x2029 ∨
    c.val = 0x202F ∨ c.val = 0x205F ∨ c.val = 0x3000

/-- `s.rstrip()` for the characters that satisfy `p`. -/
def rstripWhile (p : CodePoint → Bool) (s : Str) : Str := (s.reverse.dropWhile p).reverse

/-- `s.strip()`. -/
def strip (s : Str) : Str := rstripWhile isSpace (s.dropWhile isSpace)

/-- `s.rstrip(c)`. -/
def rstrip (s : Str) (c : CodePoint) : Str := rstripWhile (· = c) s

/-- `s.partition(c)`: the part before the first `c`, whether `c` occurs, and the
part after it. -/
def partition (c : CodePoint) : Str → Str × Bool × Str
  | [] => ([], false, [])
  | x :: s =>
    if x = c then ([], true, s)
    else (x :: (partition c s).1, (partition c s).2)

/-- `s.split(c)`. -/
def split (c : CodePoint) : Str → List Str
  | [] => [[]]
  | x :: s =>
    if x = c then [] :: split c s
    else match split c s with
      | [] => [[x]]
      | w :: ws => (x :: w) :: ws

/-- `s.startswith(w)`. -/
def startsWith (s w : Str) : Bool := w.isPrefixOf s

/-- `s.endswith(w)`. -/
def endsWith (s w : Str) : Bool := w.isSuffixOf s

/-- `w in s`. -/
def contains (w : Str) : Str → Bool
  | [] => w.isEmpty
  | x :: s => startsWith (x :: s) w || contains w s

/-- `s.split(w, 1)[1]`: the part after the first `w`, when `w` occurs. -/
def after (w : Str) : Str → Option Str
  | [] => if w.isEmpty then some [] else none
  | x :: s => if startsWith (x :: s) w then some ((x :: s).drop w.length) else after w s

/-- `"".join` with a separator. -/
def join (sep : Str) : List Str → Str
  | [] => []
  | [w] => w
  | w :: ws => w ++ sep ++ join sep ws

/-- `0 <= c - "0" <= 9`. -/
def isDigit (c : CodePoint) : Bool := 48 ≤ c.val ∧ c.val ≤ 57

/-- ASCII letters and digits. -/
def isAlnum (c : CodePoint) : Bool :=
  isDigit c ∨ (65 ≤ c.val ∧ c.val ≤ 90) ∨ (97 ≤ c.val ∧ c.val ≤ 122)

/-- A surrogate, which UTF-8 cannot encode. -/
def isSurrogate (c : CodePoint) : Bool := 0xD800 ≤ c.val ∧ c.val < 0xE000

/-- `[0-9a-f]`. -/
def isHex (c : CodePoint) : Bool := isDigit c ∨ (97 ≤ c.val ∧ c.val ≤ 102)

/-- The lower case of a character, where it is ASCII. -/
def lowerChar (c : CodePoint) : CodePoint :=
  if 65 ≤ c.val ∧ c.val ≤ 90 then ⟨(c.val + 32) % 0x110000, Nat.mod_lt _ (by decide)⟩
  else if c.val = 0x212A then chr 'k'
  else c

/-- `s.lower()`, where the result is ASCII: a character whose lower case is not
ASCII is kept. -/
def lower (s : Str) : Str := s.map lowerChar

/-- The characters outside ASCII with an ASCII upper case. -/
def upperSpecial : List (ℕ × Str) :=
  [(0xDF, lit "SS"), (0x131, lit "I"), (0x17F, lit "S"), (0xFB00, lit "FF"), (0xFB01, lit "FI"),
    (0xFB02, lit "FL"), (0xFB03, lit "FFI"), (0xFB04, lit "FFL"), (0xFB05, lit "ST"),
    (0xFB06, lit "ST")]

def upperChar (c : CodePoint) : Str :=
  if 97 ≤ c.val ∧ c.val ≤ 122 then [⟨c.val - 32, by omega⟩]
  else match upperSpecial.find? fun p => p.1 = c.val with
    | some p => p.2
    | none => [c]

/-- `s.upper()`, where the result is ASCII. -/
def upper (s : Str) : Str := s.flatMap upperChar

theorem split_ne_nil (c : CodePoint) (s : Str) : split c s ≠ [] := by
  cases s with
  | nil => exact List.cons_ne_nil _ _
  | cons x s =>
    rw [split]
    split_ifs
    · exact List.cons_ne_nil _ _
    · cases split c s <;> exact List.cons_ne_nil _ _

theorem split_cons_of_ne {c x : CodePoint} (h : x ≠ c) {s w : Str} {ws : List Str}
    (hs : split c s = w :: ws) : split c (x :: s) = (x :: w) :: ws := by
  rw [split, if_neg h, hs]

theorem split_cons_self (c : CodePoint) (s : Str) : split c (c :: s) = [] :: split c s := by
  rw [split, if_pos rfl]

/-- A separator splits. -/
theorem split_append (c : CodePoint) (s t : Str) :
    split c (s ++ c :: t) = split c s ++ split c t := by
  induction s with
  | nil => exact split_cons_self c t
  | cons x s ih =>
    by_cases hx : x = c
    · rw [hx, List.cons_append, split_cons_self, ih, split_cons_self, List.cons_append]
    · obtain ⟨w, ws, hs⟩ := List.exists_cons_of_ne_nil (split_ne_nil c s)
      rw [hs, List.cons_append] at ih
      rw [List.cons_append, split_cons_of_ne hx ih, split_cons_of_ne hx hs, List.cons_append]

/-- A character is the separator or in a part. -/
theorem mem_of_split {c x : CodePoint} {s : Str} (h : x ∈ s) : x = c ∨ ∃ w ∈ split c s, x ∈ w := by
  induction s with
  | nil => exact absurd h List.not_mem_nil
  | cons y s ih =>
    by_cases hy : y = c
    · rcases List.mem_cons.mp h with rfl | h
      · exact .inl hy
      · refine (ih h).imp id ?_
        rintro ⟨w, hw, hx⟩
        rw [hy, split_cons_self]
        exact ⟨w, List.mem_cons_of_mem _ hw, hx⟩
    · obtain ⟨w, ws, hs⟩ := List.exists_cons_of_ne_nil (split_ne_nil c s)
      rw [split_cons_of_ne hy hs]
      rcases List.mem_cons.mp h with rfl | h
      · exact .inr ⟨x :: w, List.mem_cons_self, List.mem_cons_self⟩
      · refine (ih h).imp id ?_
        rintro ⟨v, hv, hx⟩
        rw [hs] at hv
        rcases List.mem_cons.mp hv with rfl | hv
        · exact ⟨y :: v, List.mem_cons_self, List.mem_cons_of_mem _ hx⟩
        · exact ⟨v, List.mem_cons_of_mem _ hv, hx⟩

theorem partition_eq_append {c : CodePoint} :
    ∀ {s : Str}, (partition c s).2.1 = true →
      s = (partition c s).1 ++ c :: (partition c s).2.2 := by
  intro s
  induction s with
  | nil => intro h; simp [partition] at h
  | cons x s ih =>
    intro h
    by_cases hx : x = c
    · subst hx
      simp [partition]
    · simp only [partition, if_neg hx] at h ⊢
      rw [List.cons_append, ← ih h]

theorem partition_missing {c : CodePoint} :
    ∀ {s : Str}, (partition c s).2.1 = false → (partition c s).2.2 = [] := by
  intro s
  induction s with
  | nil => intro _; rfl
  | cons x s ih =>
    intro h
    by_cases hx : x = c
    · subst hx
      simp [partition] at h
    · simp only [partition, if_neg hx] at h ⊢
      exact ih h

/-- Nothing is left to strip. -/
theorem strip_strip (s : Str) : strip (strip s) = strip s := by
  have hstart : strip s <+: s.dropWhile isSpace := List.rdropWhile_prefix isSpace _
  have hfront : (strip s).dropWhile isSpace = strip s := by
    refine List.dropWhile_eq_self_iff.mpr fun hpos => ?_
    have hhead : ∀ hs : 0 < (s.dropWhile isSpace).length,
        ¬isSpace ((s.dropWhile isSpace)[0]) = true := by
      intro hs
      exact List.dropWhile_get_zero_not isSpace s hs
    rw [hstart.getElem hpos]
    exact hhead (hpos.trans_le hstart.length_le)
  rw [strip, hfront]
  exact List.rdropWhile_idempotent isSpace _

/-- A text without white space is as it is after stripping. -/
theorem strip_of_plain {s : Str} (h : ∀ c ∈ s, isSpace c = false) : strip s = s := by
  have hfront : ∀ w : Str, (∀ c ∈ w, isSpace c = false) → w.dropWhile isSpace = w := by
    intro w hw
    cases w with
    | nil => rfl
    | cons c w => exact List.dropWhile_cons_of_neg (by simp [hw c List.mem_cons_self])
  rw [strip, hfront s h, rstripWhile, hfront s.reverse fun c hc => h c (List.mem_reverse.mp hc),
    List.reverse_reverse]

end Str

/-! ### UTF-8 -/

/-- A byte from a number below 256. -/
def byte (n : ℕ) : Byte := ⟨n % 256, Nat.mod_lt _ (by decide)⟩

theorem byte_val {n : ℕ} (h : n < 256) : (byte n).val = n := Nat.mod_eq_of_lt h

/-- The UTF-8 bytes of one code point. -/
def utf8Char (c : CodePoint) : Bytes :=
  if c.val < 0x80 then [byte c]
  else if c.val < 0x800 then [byte (0xC0 + c / 64), byte (0x80 + c % 64)]
  else if c.val < 0x10000 then
    [byte (0xE0 + c / 4096), byte (0x80 + c / 64 % 64), byte (0x80 + c % 64)]
  else
    [byte (0xF0 + c / 262144), byte (0x80 + c / 4096 % 64), byte (0x80 + c / 64 % 64),
      byte (0x80 + c % 64)]

/-- `s.encode("utf-8")`; `none` is the `UnicodeEncodeError` of a surrogate. -/
def utf8 (s : Str) : Option Bytes :=
  if s.any Str.isSurrogate then none else some (s.flatMap utf8Char)

/-- A continuation byte. -/
def isTail (b : Byte) : Bool := 0x80 ≤ b.val ∧ b.val < 0xC0

/-- `b.decode("utf-8")`: no overlong form, no surrogate, nothing past `0x10FFFF`. -/
def decodeUtf8 : Bytes → Option Str
  | [] => some []
  | a :: bs =>
    if a.val < 0x80 then (decodeUtf8 bs).map (⟨a.val, by omega⟩ :: ·)
    else match bs with
      | [] => none
      | b :: bs =>
        if isTail b = false then none
        else if 0xC2 ≤ a.val ∧ a.val < 0xE0 then
          (decodeUtf8 bs).map (⟨(a.val - 0xC0) % 32 * 64 + b.val % 64, by omega⟩ :: ·)
        else match bs with
          | [] => none
          | c :: bs =>
            let v := (a.val - 0xE0) % 16 * 4096 + b.val % 64 * 64 + c.val % 64
            if isTail c = false then none
            else if 0xE0 ≤ a.val ∧ a.val < 0xF0 then
              if 0x800 ≤ v ∧ ¬ (0xD800 ≤ v ∧ v < 0xE000) then
                (decodeUtf8 bs).map (⟨v, by omega⟩ :: ·)
              else none
            else match bs with
              | [] => none
              | d :: bs =>
                let w := (a.val - 0xF0) * 262144 + b.val % 64 * 4096 + c.val % 64 * 64 + d.val % 64
                if isTail d = false then none
                else if h : 0xF0 ≤ a.val ∧ 0x10000 ≤ w ∧ w < 0x110000 then
                  (decodeUtf8 bs).map (⟨w, h.2.2⟩ :: ·)
                else none

private theorem decodeUtf8_two {a b : Byte} (bs : Bytes) (hb : isTail b = true)
    (ha : 0xC2 ≤ a.val ∧ a.val < 0xE0) {v : ℕ} (hlt : v < 0x110000)
    (hv : (a.val - 0xC0) % 32 * 64 + b.val % 64 = v) :
    decodeUtf8 (a :: b :: bs) = (decodeUtf8 bs).map (⟨v, hlt⟩ :: ·) := by
  subst hv
  rw [decodeUtf8.eq_def]
  simp only [hb, Bool.true_eq_false, if_false]
  rw [if_neg (by omega), if_pos ha]

private theorem decodeUtf8_three {a b c : Byte} (bs : Bytes) (hb : isTail b = true)
    (hc : isTail c = true) (ha : 0xE0 ≤ a.val ∧ a.val < 0xF0) {v : ℕ} (hlt : v < 0x110000)
    (hv : (a.val - 0xE0) % 16 * 4096 + b.val % 64 * 64 + c.val % 64 = v)
    (hok : 0x800 ≤ v ∧ ¬ (0xD800 ≤ v ∧ v < 0xE000)) :
    decodeUtf8 (a :: b :: c :: bs) = (decodeUtf8 bs).map (⟨v, hlt⟩ :: ·) := by
  subst hv
  rw [decodeUtf8.eq_def]
  simp only [hb, hc, Bool.true_eq_false, if_false]
  rw [if_neg (by omega), if_neg (by omega), if_pos ha, if_pos hok]

private theorem decodeUtf8_four {a b c d : Byte} (bs : Bytes) (hb : isTail b = true)
    (hc : isTail c = true) (hd : isTail d = true) (ha : 0xF0 ≤ a.val) {v : ℕ}
    (hv : (a.val - 0xF0) * 262144 + b.val % 64 * 4096 + c.val % 64 * 64 + d.val % 64 = v)
    (hok : 0x10000 ≤ v ∧ v < 0x110000) :
    decodeUtf8 (a :: b :: c :: d :: bs) = (decodeUtf8 bs).map (⟨v, hok.2⟩ :: ·) := by
  subst hv
  rw [decodeUtf8.eq_def]
  simp only [hb, hc, hd, Bool.true_eq_false, if_false]
  rw [if_neg (by omega), if_neg (by omega), if_neg (by omega), dif_pos ⟨ha, hok⟩]

private theorem isTail_byte {n : ℕ} (h : n < 64) : isTail (byte (0x80 + n)) = true := by
  simp only [isTail, decide_eq_true_eq]
  rw [byte_val (by omega)]
  omega

/-- Text is decoded from the front. -/
theorem decodeUtf8_append {b rest : Bytes} {s : Str} (h : decodeUtf8 b = some s) :
    decodeUtf8 (b ++ rest) = (decodeUtf8 rest).map (s ++ ·) := by
  -- a code point in front of both sides
  have hcons : ∀ {bs : Bytes} {t : Str} (c : CodePoint),
      decodeUtf8 (bs ++ rest) = (decodeUtf8 rest).map (t ++ ·) →
      (decodeUtf8 (bs ++ rest)).map (c :: ·) = (decodeUtf8 rest).map (c :: t ++ ·) := by
    intro bs t c hbs
    rw [hbs, Option.map_map]
    rfl
  fun_induction decodeUtf8 b generalizing s with
  | case1 =>
    obtain rfl := Option.some.inj h
    show decodeUtf8 rest = (decodeUtf8 rest).map id
    rw [Option.map_id]
    rfl
  | case2 a bs ha ih =>
    obtain ⟨t, ht, rfl⟩ := Option.map_eq_some_iff.mp h
    rw [List.cons_append, decodeUtf8.eq_def]
    simp only [ha, if_true]
    exact hcons _ (ih ht)
  | case5 a ha b bs hb hab ih =>
    obtain ⟨t, ht, rfl⟩ := Option.map_eq_some_iff.mp h
    rw [List.cons_append, List.cons_append,
      decodeUtf8_two (bs ++ rest) (by simpa using hb) hab (by omega) rfl]
    exact hcons _ (ih ht)
  | case8 =>
    rename_i a ha b hb hab c bs v hc hac hv ih
    obtain ⟨t, ht, rfl⟩ := Option.map_eq_some_iff.mp h
    show decodeUtf8 (a :: b :: c :: (bs ++ rest)) = _
    rw [decodeUtf8_three (bs ++ rest) (by simpa using hb) (by simpa using hc) hac (by omega) rfl hv]
    exact hcons _ (ih ht)
  | case12 =>
    rename_i a ha b hb hab c hc hac d bs w hd hw ih
    obtain ⟨t, ht, rfl⟩ := Option.map_eq_some_iff.mp h
    show decodeUtf8 (a :: b :: c :: d :: (bs ++ rest)) = _
    rw [decodeUtf8_four (bs ++ rest) (by simpa using hb) (by simpa using hc)
      (by simpa using hd) hw.1
      rfl hw.2]
    exact hcons _ (ih ht)
  | _ => exact nomatch h

/-- One encoded code point decodes to itself. -/
theorem decodeUtf8_utf8Char {c : CodePoint} (hc : Str.isSurrogate c = false) (bs : Bytes) :
    decodeUtf8 (utf8Char c ++ bs) = (decodeUtf8 bs).map (c :: ·) := by
  have hlt := c.isLt
  have hs : ¬ (0xD800 ≤ c.val ∧ c.val < 0xE000) := by simpa [Str.isSurrogate] using hc
  rw [utf8Char]
  -- by the number of bytes, one to four
  by_cases h1 : c.val < 0x80
  · have hb : (byte c.val).val = c.val := byte_val (by omega)
    rw [if_pos h1, List.singleton_append, decodeUtf8.eq_def]
    simp only [hb, if_pos h1]
  rw [if_neg h1]
  by_cases h2 : c.val < 0x800
  · rw [if_pos h2]
    refine decodeUtf8_two bs (isTail_byte (by omega)) ?_ hlt ?_
    · rw [byte_val (by omega)]
      omega
    · rw [byte_val (by omega), byte_val (by omega)]
      omega
  rw [if_neg h2]
  by_cases h3 : c.val < 0x10000
  · rw [if_pos h3]
    refine decodeUtf8_three bs (isTail_byte (by omega)) (isTail_byte (by omega)) ?_ hlt ?_
      ⟨by omega, hs⟩
    · rw [byte_val (by omega)]
      omega
    · rw [byte_val (by omega), byte_val (by omega), byte_val (by omega)]
      omega
  · rw [if_neg h3]
    refine decodeUtf8_four bs (isTail_byte (by omega)) (isTail_byte (by omega))
      (isTail_byte (by omega)) ?_ ?_ ⟨by omega, hlt⟩
    · rw [byte_val (by omega)]
      omega
    · rw [byte_val (by omega), byte_val (by omega), byte_val (by omega), byte_val (by omega)]
      omega

/-- Decoding inverts encoding. A text that can be encoded has no surrogates, and the decoder
finds the length of each sequence from its first byte. -/
theorem decodeUtf8_utf8 {s : Str} {b : Bytes} (h : utf8 s = some b) : decodeUtf8 b = some s := by
  rw [utf8] at h
  split_ifs at h with hs
  rw [← Option.some_inj.mp h]
  clear h
  induction s with
  | nil => rfl
  | cons c s ih =>
    simp only [List.any_cons, Bool.or_eq_true, not_or, Bool.not_eq_true] at hs
    rw [List.flatMap_cons, decodeUtf8_utf8Char hs.1, ih (by simp [hs.2])]
    rfl

/-- Two encodable strings with the same bytes are equal, since the bytes are decoded to either.
-/
theorem utf8_injective {s t : Str} {b : Bytes} (hs : utf8 s = some b) (ht : utf8 t = some b) :
    s = t :=
  Option.some_inj.mp ((decodeUtf8_utf8 hs).symm.trans (decodeUtf8_utf8 ht))

end Py
