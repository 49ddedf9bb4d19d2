/-
Git revisions and provider stages.

The scripts that publish and watch the Spaces read both from JSON answers: a
revision is the text of a value, stripped and in lower case, and a stage is a
string in upper case.
-/
import SzlRouter.JsonDumps

namespace SzlRouter

open Py

/-- `_SHA.fullmatch(s)`. -/
def isSha (s : Str) : Bool := s.length = 40 ∧ s.all Str.isHex

def isUpper (c : CodePoint) : Bool := 65 ≤ c.val ∧ c.val ≤ 90

/-- `_STAGE.fullmatch(s)`. -/
def isStage : Str → Bool
  | [] => false
  | c :: s => isUpper c && s.all fun c => isUpper c || Str.isDigit c || c = chr '_'

/-- `str(v)`.  The text of an array or an object starts with a bracket; nothing
that reads a revision or a name accepts it, so it is left out. -/
def textOf : Json → Option Str
  | .null => some (lit "None")
  | .bool true => some (lit "True")
  | .bool false => some (lit "False")
  | .num (.int n) => some (Numeral.ofInt n).print
  | .num (.float .nan) => some (lit "nan")
  | .num (.float (.inf false)) => some (lit "inf")
  | .num (.float (.inf true)) => some (lit "-inf")
  | .num (.float x) => some (floatText x)
  | .str s => some s
  | .arr _ | .obj _ => none

/-- The revision a value spells: `str(value).strip().lower()` when it matches
`_SHA`. -/
def shaText (v : Json) : Option Str :=
  (textOf v).bind fun s => if isSha (Str.lower (Str.strip s)) then some (Str.lower (Str.strip s))
    else none

/-- `d.get(k)`, with Python's `None` for `null` and for an absent key. -/
def field (d : Dict) (k : Str) : Json := (Dict.get d k).getD .null

/-- `value is None or value == ""`. -/
def unset : Json → Bool
  | .null => true
  | .str s => s = []
  | _ => false

end SzlRouter
