/-
`json.dumps`.

Rendering is total; `dumpable` holds of the values `json.dumps` accepts: no
non-finite double when `allow_nan` is off, no integer past the interpreter's
limit on decimal digits.  Members are rendered first and sorted by key after,
so the recursion follows the value.
-/
import SzlRouter.Json

namespace Py

/-- The options of `json.dumps` that matter here; `compact` drops the blank
after each separator. -/
structure DumpOpts where
  ensureAscii : Bool
  sortKeys : Bool
  allowNaN : Bool
  compact : Bool

/-! ### Strings -/

/-- A lowercase hexadecimal digit. -/
def hexChar (d : ℕ) : CodePoint :=
  ⟨if d % 16 < 10 then 48 + d % 16 else 87 + d % 16, by split_ifs <;> omega⟩

/-- `\uXXXX`. -/
def uEscape (n : ℕ) : Str :=
  [chr '\\', chr 'u', hexChar (n / 4096), hexChar (n / 256), hexChar (n / 16), hexChar n]

/-- The letter of the two-character escape of `c`, if it has one. -/
def shortEscape (c : CodePoint) : Option CodePoint :=
  if c = chr '"' then some (chr '"')
  else if c = chr '\\' then some (chr '\\')
  else if c.val = 10 then some (chr 'n')
  else if c.val = 13 then some (chr 'r')
  else if c.val = 9 then some (chr 't')
  else if c.val = 12 then some (chr 'f')
  else if c.val = 8 then some (chr 'b')
  else none

/-- Whether `c` is written as `\uXXXX`. -/
def DumpOpts.escapes (o : DumpOpts) (c : CodePoint) : Bool :=
  c.val < 0x20 ∨ (o.ensureAscii ∧ 0x7F ≤ c.val)

theorem DumpOpts.escapes_iff {o : DumpOpts} {c : CodePoint} :
    o.escapes c = true ↔ c.val < 0x20 ∨ (o.ensureAscii = true ∧ 0x7F ≤ c.val) :=
  decide_eq_true_iff

/-- The surrogates of a code point past `0xFFFF`. -/
def highOf (c : CodePoint) : ℕ := 0xD800 + (c.val - 0x10000) / 1024

def lowOf (c : CodePoint) : ℕ := 0xDC00 + (c.val - 0x10000) % 1024

def escape (o : DumpOpts) (c : CodePoint) : Str :=
  match shortEscape c with
  | some e => [chr '\\', e]
  | none =>
    if o.escapes c then
      if c.val < 0x10000 then uEscape c else uEscape (highOf c) ++ uEscape (lowOf c)
    else [c]

/-- A string in quotes. -/
def quote (o : DumpOpts) (s : Str) : Str := chr '"' :: (s.flatMap (escape o) ++ [chr '"'])

/-! ### Values -/

def floatText : Binary64 → Str
  | .nan => lit "NaN"
  | .inf false => lit "Infinity"
  | .inf true => lit "-Infinity"
  | .fin neg m => (Numeral.ofFloat neg m).print

namespace DumpOpts

def comma (o : DumpOpts) : Str := if o.compact then lit "," else lit ", "

def colon (o : DumpOpts) : Str := if o.compact then lit ":" else lit ": "

/-- The order in which members are written. -/
def order {α : Type} (o : DumpOpts) (d : List (Str × α)) : List (Str × α) :=
  if o.sortKeys then sortByKey d else d

end DumpOpts

/-- `key: value`, the value already rendered. -/
def member (o : DumpOpts) (p : Str × Str) : Str := quote o p.1 ++ o.colon ++ p.2

mutual

def render (o : DumpOpts) : Json → Str
  | .null => lit "null"
  | .bool true => lit "true"
  | .bool false => lit "false"
  | .num (.int n) => (Numeral.ofInt n).print
  | .num (.float x) => floatText x
  | .str s => quote o s
  | .arr xs => chr '[' :: (Str.join o.comma (renderList o xs) ++ [chr ']'])
  | .obj kvs =>
    chr '{' :: (Str.join o.comma ((o.order (renderFields o kvs)).map (member o)) ++ [chr '}'])

def renderList (o : DumpOpts) : List Json → List Str
  | [] => []
  | x :: xs => render o x :: renderList o xs

def renderFields (o : DumpOpts) : List (Str × Json) → List (Str × Str)
  | [] => []
  | (k, v) :: kvs => (k, render o v) :: renderFields o kvs

end

/-- `sys.int_info.default_max_str_digits`. -/
def maxIntDigits : ℕ := 4300

mutual

/-- The values `json.dumps` accepts. -/
def dumpable (o : DumpOpts) : Json → Bool
  | .num (.int n) => (natDigits n.natAbs).length ≤ maxIntDigits
  | .num (.float x) => o.allowNaN || x.isFinite
  | .arr xs => dumpableList o xs
  | .obj kvs => dumpableFields o kvs
  | _ => true

def dumpableList (o : DumpOpts) : List Json → Bool
  | [] => true
  | x :: xs => dumpable o x && dumpableList o xs

def dumpableFields (o : DumpOpts) : List (Str × Json) → Bool
  | [] => true
  | (_, v) :: kvs => dumpable o v && dumpableFields o kvs

end

/-- `json.dumps(v)`; `none` is its `ValueError`. -/
def dumps (o : DumpOpts) (v : Json) : Option Str :=
  if dumpable o v then some (render o v) else none

/-- Induction over a value: an array or object may assume the property of its
elements. -/
@[elab_as_elim]
theorem Json.ind {P : Json → Prop} (null : P .null) (bool : ∀ b, P (.bool b))
    (num : ∀ n, P (.num n)) (str : ∀ s, P (.str s))
    (arr : ∀ xs : List Json, (∀ x ∈ xs, P x) → P (.arr xs))
    (obj : ∀ kvs : List (Str × Json), (∀ p ∈ kvs, P p.2) → P (.obj kvs)) (v : Json) : P v :=
  @Json.rec P (fun xs => ∀ x ∈ xs, P x) (fun kvs => ∀ p ∈ kvs, P p.2)
    (fun p => P p.2) null bool num str arr obj (by simp)
    (fun x xs hx hxs => by simpa using ⟨hx, hxs⟩) (by simp)
    (fun p kvs hp hkvs => by simpa using ⟨hp, fun k v h => hkvs (k, v) h⟩) (fun _ _ h => h) v

theorem renderList_eq (o : DumpOpts) (xs : List Json) : renderList o xs = xs.map (render o) := by
  induction xs with
  | nil => rfl
  | cons x xs ih => rw [renderList, ih, List.map_cons]

theorem renderFields_eq (o : DumpOpts) (kvs : List (Str × Json)) :
    renderFields o kvs = kvs.map fun p => (p.1, render o p.2) := by
  induction kvs with
  | nil => rfl
  | cons p kvs ih => rw [renderFields, ih, List.map_cons]

theorem dumpableList_iff {o : DumpOpts} {xs : List Json} :
    dumpableList o xs = true ↔ ∀ x ∈ xs, dumpable o x = true := by
  induction xs with
  | nil => simp [dumpableList]
  | cons x xs ih => simp [dumpableList, ih]

theorem dumpableFields_iff {o : DumpOpts} {kvs : List (Str × Json)} :
    dumpableFields o kvs = true ↔ ∀ p ∈ kvs, dumpable o p.2 = true := by
  induction kvs with
  | nil => simp [dumpableFields]
  | cons p kvs ih => simp [dumpableFields, ih]

theorem DumpOpts.order_map {α β : Type} (o : DumpOpts) (d : List (Str × α))
    (f : Str × α → Str × β) (hf : ∀ p, (f p).1 = p.1) : o.order (d.map f) = (o.order d).map f := by
  rw [order, order]
  split_ifs
  · exact sortByKey_map f hf
  · rfl

theorem DumpOpts.order_perm {α : Type} (o : DumpOpts) (d : List (Str × α)) :
    (o.order d).Perm d := by
  rw [order]
  split_ifs
  · exact sortByKey_perm d
  · exact List.Perm.refl d

/-- The text of an object: its members in order. -/
theorem render_obj (o : DumpOpts) (kvs : List (Str × Json)) :
    render o (.obj kvs) = chr '{' ::
      (Str.join o.comma ((o.order kvs).map fun p => member o (p.1, render o p.2)) ++
      [chr '}']) := by
  rw [render, renderFields_eq, o.order_map kvs (fun p => (p.1, render o p.2)) fun _ => rfl,
    List.map_map]
  rfl

theorem render_arr (o : DumpOpts) (xs : List Json) :
    render o (.arr xs) = chr '[' :: (Str.join o.comma (xs.map (render o)) ++ [chr ']']) := by
  rw [render, renderList_eq]

end Py
