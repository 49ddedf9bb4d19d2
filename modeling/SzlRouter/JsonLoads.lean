/-
`json.loads`.

The scanner reads one value at the front of a text and returns the rest.  It
recurses on fuel; the length of the text is always enough.  A `\u` escape of a
high surrogate followed by one of a low surrogate is one code point, so a string
is read as a list of units first (`scanStr`) and joined after (`joinUnits`).
-/
import SzlRouter.JsonDumps

namespace Py

/-- The hooks of `json.loads`: `uniqueKeys` is an `object_pairs_hook` that
refuses a repeated key, and without `constants` the `parse_constant` hook
refuses `NaN` and the infinities. -/
structure LoadOpts where
  uniqueKeys : Bool
  constants : Bool

/-! ### Strings -/

/-- One character of a string, and whether it was a `\u` escape. -/
abbrev Unit16 := Bool × CodePoint

def hexVal (c : CodePoint) : Option ℕ :=
  if 48 ≤ c.val ∧ c.val ≤ 57 then some (c.val - 48)
  else if 97 ≤ c.val ∧ c.val ≤ 102 then some (c.val - 87)
  else if 65 ≤ c.val ∧ c.val ≤ 70 then some (c.val - 55)
  else none

/-- The four digits of a `\u` escape. -/
def scanHex : Str → Option (Unit16 × Str)
  | a :: b :: c :: d :: s =>
    match hexVal a, hexVal b, hexVal c, hexVal d with
    | some a, some b, some c, some d =>
      some ((true, ⟨(4096 * a + 256 * b + 16 * c + d) % 65536, by omega⟩), s)
    | _, _, _, _ => none
  | _ => none

/-- The character of a two-character escape. -/
def unescape (e : CodePoint) : Option CodePoint :=
  if e = chr '"' then some (chr '"')
  else if e = chr '\\' then some (chr '\\')
  else if e = chr '/' then some (chr '/')
  else if e = chr 'n' then some 10
  else if e = chr 'r' then some 13
  else if e = chr 't' then some 9
  else if e = chr 'f' then some 12
  else if e = chr 'b' then some 8
  else none

def scanUnit : Str → Option (Unit16 × Str)
  | [] => none
  | c :: s =>
    if c = chr '\\' then
      match s with
      | [] => none
      | e :: s => if e = chr 'u' then scanHex s else (unescape e).map fun c => ((false, c), s)
    else if c.val < 0x20 then none
    else some ((false, c), s)

/-- The units up to the closing quote. -/
def scanStr : ℕ → Str → Option (List Unit16 × Str)
  | 0, _ => none
  | _ + 1, [] => none
  | n + 1, c :: s =>
    if c = chr '"' then some ([], s)
    else
      match scanUnit (c :: s) with
      | none => none
      | some (u, s) => (scanStr n s).map fun p => (u :: p.1, p.2)

def isHigh (c : CodePoint) : Bool := 0xD800 ≤ c.val ∧ c.val < 0xDC00

def isLow (c : CodePoint) : Bool := 0xDC00 ≤ c.val ∧ c.val < 0xE000

theorem isHigh_iff {c : CodePoint} : isHigh c = true ↔ 0xD800 ≤ c.val ∧ c.val < 0xDC00 :=
  decide_eq_true_iff

theorem isLow_iff {c : CodePoint} : isLow c = true ↔ 0xDC00 ≤ c.val ∧ c.val < 0xE000 :=
  decide_eq_true_iff

/-- The code point of a surrogate pair. -/
def combine (h l : CodePoint) : CodePoint :=
  ⟨0x10000 + (h.val - 0xD800) % 1024 * 1024 + (l.val - 0xDC00) % 1024, by omega⟩

/-- The string of its units: escaped surrogate pairs are joined. -/
def joinUnits : List Unit16 → Str
  | [] => []
  | [u] => [u.2]
  | u :: v :: us =>
    if u.1 && v.1 && isHigh u.2 && isLow v.2 then combine u.2 v.2 :: joinUnits us
    else u.2 :: joinUnits (v :: us)

/-! ### Values -/

def isWs (c : CodePoint) : Bool := c.val = 32 ∨ c.val = 10 ∨ c.val = 13 ∨ c.val = 9

def skipWs (s : Str) : Str := s.dropWhile isWs

/-- The object of its members in order of appearance. -/
def LoadOpts.build (o : LoadOpts) (kvs : List (Str × Json)) : Option Dict :=
  if o.uniqueKeys then if (kvs.map Prod.fst).Nodup then some kvs else none
  else some (Dict.update [] kvs)

def scanNum (s : Str) : Option (Json × Str) :=
  match Numeral.scan s with
  | none => none
  | some (n, r) =>
    match n.value with
    | .int i => if n.int.length ≤ maxIntDigits then some (.num (.int i), r) else none
    | .float x => some (.num (.float x), r)

/-- The names a value may have, with the value each stands for. -/
def literals : List (Str × Json) :=
  [(lit "null", .null), (lit "true", .bool true), (lit "false", .bool false)]

def constantNames : List (Str × Json) :=
  [(lit "NaN", .num (.float .nan)), (lit "Infinity", .num (.float (.inf false))),
    (lit "-Infinity", .num (.float (.inf true)))]

/-- The entry whose name stands at the front of `s`. -/
def scanName (names : List (Str × Json)) (s : Str) : Option (Json × Str) :=
  names.findSome? fun p => if Str.startsWith s p.1 then some (p.2, s.drop p.1.length) else none

/-- A value that is no string, array or object. -/
def scanAtom (o : LoadOpts) (s : Str) : Option (Json × Str) :=
  match scanName literals s with
  | some p => some p
  | none =>
    match scanName constantNames s with
    | some p => if o.constants then some p else none
    | none => scanNum s

mutual

def scanValue (o : LoadOpts) : ℕ → Str → Option (Json × Str)
  | 0, _ => none
  | _ + 1, [] => none
  | n + 1, c :: s =>
    if c = chr '"' then (scanStr n s).map fun p => (.str (joinUnits p.1), p.2)
    else if c = chr '[' then
      if (skipWs s).head? = some (chr ']') then some (.arr [], (skipWs s).tail)
      else (scanElems o n (skipWs s)).map fun p => (.arr p.1, p.2)
    else if c = chr '{' then
      if (skipWs s).head? = some (chr '}') then some (.obj [], (skipWs s).tail)
      else
        match scanMembers o n (skipWs s) with
        | none => none
        | some (kvs, s) => (o.build kvs).map fun d => (.obj d, s)
    else scanAtom o (c :: s)

/-- The elements up to the closing bracket. -/
def scanElems (o : LoadOpts) : ℕ → Str → Option (List Json × Str)
  | 0, _ => none
  | n + 1, s =>
    match scanValue o n s with
    | none => none
    | some (v, s) =>
      match skipWs s with
      | [] => none
      | c :: s =>
        if c = chr ']' then some ([v], s)
        else if c = chr ',' then (scanElems o n (skipWs s)).map fun p => (v :: p.1, p.2)
        else none

/-- The members up to the closing brace. -/
def scanMembers (o : LoadOpts) : ℕ → Str → Option (List (Str × Json) × Str)
  | 0, _ => none
  | n + 1, s =>
    match s with
    | [] => none
    | c :: s =>
      if c ≠ chr '"' then none
      else
        match scanStr n s with
        | none => none
        | some (k, s) =>
          match skipWs s with
          | [] => none
          | c :: s =>
            if c ≠ chr ':' then none
            else
              match scanValue o n (skipWs s) with
              | none => none
              | some (v, s) =>
                match skipWs s with
                | [] => none
                | c :: s =>
                  if c = chr '}' then some ([(joinUnits k, v)], s)
                  else if c = chr ',' then
                    (scanMembers o n (skipWs s)).map fun p => ((joinUnits k, v) :: p.1, p.2)
                  else none

end

/-- `json.loads(s)`; `none` is its `ValueError`. -/
def loads (o : LoadOpts) (s : Str) : Option Json :=
  match scanValue o (s.length + 1) (skipWs s) with
  | none => none
  | some (v, s) => if skipWs s = [] then some v else none

end Py
