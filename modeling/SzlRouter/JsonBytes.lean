/-
`json.loads` of `bytes`.

The encoding is guessed from the first four bytes, and surrogates pass the decoder.

* `decodePass_of_decodeUtf8` — what strict UTF-8 accepts is read the same;
* `loadsBytes_of_utf8` — a text whose first two bytes are not zero and whose first is
  ASCII is read as UTF-8.
-/
import SzlRouter.JsonRoundTrip

namespace Py

inductive Encoding
  | utf8
  | utf8Sig
  | utf16 (big : Bool)
  | utf32 (big : Bool)
  deriving DecidableEq

/-- The byte order marks. -/
def bomUtf32 (big : Bool) : Bytes := if big then [0, 0, 0xFE, 0xFF] else [0xFF, 0xFE, 0, 0]

def bomUtf16 (big : Bool) : Bytes := if big then [0xFE, 0xFF] else [0xFF, 0xFE]

def bomUtf8 : Bytes := [0xEF, 0xBB, 0xBF]

/-- The guess from the zeros at the front, without a byte order mark. -/
def guessEncoding : Bytes → Encoding
  | w :: x :: y :: z :: _ =>
    if w = 0 then if x ≠ 0 then .utf16 true else .utf32 true
    else if x = 0 then if y ≠ 0 ∨ z ≠ 0 then .utf16 false else .utf32 false
    else .utf8
  | [w, x] => if w = 0 then .utf16 true else if x = 0 then .utf16 false else .utf8
  | _ => .utf8

/-- `json.detect_encoding`, with the bytes after the byte order mark. -/
def detectEncoding (b : Bytes) : Encoding × Bytes :=
  if bomUtf32 true <+: b then (.utf32 true, b.drop 4)
  else if bomUtf32 false <+: b then (.utf32 false, b.drop 4)
  else if bomUtf16 true <+: b then (.utf16 true, b.drop 2)
  else if bomUtf16 false <+: b then (.utf16 false, b.drop 2)
  else if bomUtf8 <+: b then (.utf8Sig, b.drop 3)
  else (guessEncoding b, b)

theorem one_lt (a : Byte) : a.val < 0x110000 := by omega

theorem two_lt (a b : Byte) : (a.val - 0xC0) % 32 * 64 + b.val % 64 < 0x110000 := by omega

theorem three_lt (a b c : Byte) :
    (a.val - 0xE0) % 16 * 4096 + b.val % 64 * 64 + c.val % 64 < 0x110000 := by
  omega

/-- The code point of four bytes. -/
def fourBytes (a b c d : Byte) : ℕ :=
  (a.val - 0xF0) * 262144 + b.val % 64 * 4096 + c.val % 64 * 64 + d.val % 64

theorem four_lt {a b c d : Byte}
    (h : 0xF0 ≤ a.val ∧ 0x10000 ≤ fourBytes a b c d ∧ fourBytes a b c d < 0x110000) :
    fourBytes a b c d < 0x110000 :=
  h.2.2

theorem unit_lt (a b : Byte) : a.val * 256 + b.val < 0x110000 := by omega

/-- `b.decode("utf-8", "surrogatepass")`. -/
def decodePass : Bytes → Option Str
  | [] => some []
  | a :: bs =>
    if a.val < 0x80 then (decodePass bs).map (⟨a.val, one_lt a⟩ :: ·)
    else match bs with
      | [] => none
      | b :: bs =>
        if isTail b = false then none
        else if 0xC2 ≤ a.val ∧ a.val < 0xE0 then (decodePass bs).map (⟨_, two_lt a b⟩ :: ·)
        else match bs with
          | [] => none
          | c :: bs =>
            if isTail c = false then none
            else if 0xE0 ≤ a.val ∧ a.val < 0xF0 then
              if 0x800 ≤ (a.val - 0xE0) % 16 * 4096 + b.val % 64 * 64 + c.val % 64 then
                (decodePass bs).map (⟨_, three_lt a b c⟩ :: ·)
              else none
            else match bs with
              | [] => none
              | d :: bs =>
                if isTail d = false then none
                else if h : 0xF0 ≤ a.val ∧ 0x10000 ≤ fourBytes a b c d ∧
                    fourBytes a b c d < 0x110000 then
                  (decodePass bs).map (⟨_, four_lt h⟩ :: ·)
                else none

/-- The units of UTF-16. -/
def units16 (big : Bool) : Bytes → Option Str
  | [] => some []
  | [_] => none
  | a :: b :: bs =>
    (units16 big bs).map ((if big then ⟨_, unit_lt a b⟩ else ⟨_, unit_lt b a⟩) :: ·)

/-- `b.decode("utf-16", "surrogatepass")` after the byte order mark. -/
def decodeUtf16 (big : Bool) (b : Bytes) : Option Str := (units16 big b).map joinPairs

/-- `b.decode("utf-32", "surrogatepass")` after the byte order mark. -/
def decodeUtf32 (big : Bool) : Bytes → Option Str
  | [] => some []
  | a :: b :: c :: d :: bs =>
    let v := if big then ((a.val * 256 + b.val) * 256 + c.val) * 256 + d.val
      else ((d.val * 256 + c.val) * 256 + b.val) * 256 + a.val
    if h : v < 0x110000 then (decodeUtf32 big bs).map (⟨v, h⟩ :: ·) else none
  | _ => none

/-- `s.decode(detect_encoding(s), "surrogatepass")`. -/
def decodeJson (b : Bytes) : Option Str :=
  match detectEncoding b with
  | (.utf8, rest) | (.utf8Sig, rest) => decodePass rest
  | (.utf16 big, rest) => decodeUtf16 big rest
  | (.utf32 big, rest) => decodeUtf32 big rest

/-- `json.loads(b)`. -/
def loadsBytes (lo : LoadOpts) (b : Bytes) : Option Json := (decodeJson b).bind (loads lo)

/-- Where no surrogate comes up, the decoders agree. The lenient decoder differs from the strict
one only in letting through the three bytes of a lone surrogate. -/
theorem decodePass_of_decodeUtf8 {b : Bytes} {s : Str} (h : decodeUtf8 b = some s) :
    decodePass b = some s := by
  -- by induction on the strict decoding; each length of a sequence is read in the same way by both
  fun_induction decodeUtf8 b generalizing s with
  | case1 => exact h
  | case2 a bs ha ih =>
    obtain ⟨t, ht, rfl⟩ := Option.map_eq_some_iff.mp h
    rw [decodePass.eq_def]
    simp only [ha, if_true, ih ht]
    rfl
  | case5 a ha b bs hb hab ih =>
    obtain ⟨t, ht, rfl⟩ := Option.map_eq_some_iff.mp h
    rw [decodePass.eq_def]
    simp only [ha, hb, hab, if_false, ih ht]
    rfl
  | case8 =>
    rename_i a ha b hb hab c bs v hc hac hv ih
    obtain ⟨t, ht, rfl⟩ := Option.map_eq_some_iff.mp h
    rw [decodePass.eq_def]
    have hlow : 0x800 ≤ (a.val - 0xE0) % 16 * 4096 + b.val % 64 * 64 + c.val % 64 := hv.1
    simp only [ha, hb, hab, hc, hac, hlow, if_true, if_false, ih ht]
    rfl
  | case12 =>
    rename_i a ha b hb hab c hc hac d bs w hd hw ih
    obtain ⟨t, ht, rfl⟩ := Option.map_eq_some_iff.mp h
    rw [decodePass.eq_def]
    simp only [ha, hb, hab, hc, hac, hd, if_false]
    have hfour : 0xF0 ≤ a.val ∧ 0x10000 ≤ fourBytes a b c d ∧ fourBytes a b c d < 0x110000 := hw
    simp only [Bool.true_eq_false, if_false]
    rw [dif_pos hfour, ih ht]
    rfl
  | _ => cases h

/-- No mark and no zero at the front: the encoding is UTF-8. -/
theorem detectEncoding_utf8 {w x : Byte} (hw : 0 < w.val ∧ w.val < 0x80) (hx : x ≠ 0)
    (rest : Bytes) : detectEncoding (w :: x :: rest) = (.utf8, w :: x :: rest) := by
  have hzero : w ≠ 0 := by
    rintro rfl
    exact absurd hw.1 (by decide)
  -- every mark starts with a zero or with a byte that is not ASCII
  have hmark : ∀ {m : Byte} {ms : Bytes}, m.val = 0 ∨ 0x80 ≤ m.val →
      ¬ m :: ms <+: w :: x :: rest := by
    intro m ms hm hprefix
    have heq : m.val = w.val := congrArg Fin.val (List.cons_prefix_cons.mp hprefix).1
    omega
  have h₁ : ¬ bomUtf32 true <+: w :: x :: rest := hmark (.inl rfl)
  have h₂ : ¬ bomUtf32 false <+: w :: x :: rest := hmark (.inr (by decide))
  have h₃ : ¬ bomUtf16 true <+: w :: x :: rest := hmark (.inr (by decide))
  have h₄ : ¬ bomUtf16 false <+: w :: x :: rest := hmark (.inr (by decide))
  have h₅ : ¬ bomUtf8 <+: w :: x :: rest := hmark (.inr (by decide))
  rw [detectEncoding, if_neg h₁, if_neg h₂, if_neg h₃, if_neg h₄, if_neg h₅]
  obtain _ | ⟨y, _ | ⟨z, rest⟩⟩ := rest
  · rw [guessEncoding, if_neg hzero, if_neg hx]
  · rfl
  · rw [guessEncoding, if_neg hzero, if_neg hx]

theorem loadsBytes_of_utf8 (lo : LoadOpts) {w x : Byte} (hw : 0 < w.val ∧ w.val < 0x80) (hx : x ≠ 0)
    {rest : Bytes} {text : Str} (h : decodeUtf8 (w :: x :: rest) = some text) :
    loadsBytes lo (w :: x :: rest) = loads lo text := by
  rw [loadsBytes, decodeJson, detectEncoding_utf8 hw hx]
  dsimp only
  rw [decodePass_of_decodeUtf8 h, Option.bind_some]

end Py
