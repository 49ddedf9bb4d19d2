/-
Base64 as `base64.b64decode(s, validate=True)` reads it, and single-precision
floats as `struct` unpacks them.

Groups of four characters of the alphabet come first.  A last group of two or
three is completed by exactly the padding it needs; after complete groups any
number of padding characters is let through.
-/
import SzlRouter.PyStr

namespace Py

/-- The six bits of a character of the alphabet. -/
def base64Value (c : CodePoint) : Option ℕ :=
  if 65 ≤ c.val ∧ c.val ≤ 90 then some (c.val - 65)
  else if 97 ≤ c.val ∧ c.val ≤ 122 then some (c.val - 71)
  else if 48 ≤ c.val ∧ c.val ≤ 57 then some (c.val + 4)
  else if c.val = 43 then some 62
  else if c.val = 47 then some 63
  else none

/-- The bytes of the six-bit groups; a last group of one is refused. -/
def base64Bytes : List ℕ → Option Bytes
  | [] => some []
  | [_] => none
  | [a, b] => some [byte (a * 4 + b / 16)]
  | [a, b, c] => some [byte (a * 4 + b / 16), byte (b % 16 * 16 + c / 4)]
  | a :: b :: c :: d :: rest =>
    (base64Bytes rest).map fun bs =>
      byte (a * 4 + b / 16) :: byte (b % 16 * 16 + c / 4) :: byte (c % 4 * 64 + d) :: bs

/-- `base64.b64decode(s, validate=True)`; `none` is its `ValueError`. -/
def base64Decode (s : Str) : Option Bytes :=
  let data := s.takeWhile fun c => c ≠ chr '='
  let pad := s.dropWhile fun c => c ≠ chr '='
  if pad.any fun c => c ≠ chr '=' then none
  else
    match data.mapM base64Value with
    | none => none
    | some values =>
      let padded := match values.length % 4 with
        | 0 => decide (pad = [] ∨ data ≠ [])
        | 2 => decide (pad.length = 2)
        | 3 => decide (pad.length = 1)
        | _ => false
      if padded then base64Bytes values else none

/-- Whether every group of four bytes is a finite little-endian binary32: its
exponent bits are not all ones. -/
def float32Finite : Bytes → Bool
  | _ :: _ :: b₂ :: b₃ :: rest =>
    decide (b₃.val % 128 * 2 + b₂.val / 128 ≠ 255) && float32Finite rest
  | _ => true

example : base64Decode (lit "AACAPw==") = some [0, 0, 128, 63] := by decide

end Py
