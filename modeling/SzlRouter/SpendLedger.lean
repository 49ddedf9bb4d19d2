/-
The spend ledger: a file of JSON lines, each with a digest of its row under the
digest of the row before it.

`_chain_intact` walks the rows, `record` appends one.  Lines are read and rows are
digested up to the interpreter's recursion limit.  An intact ledger is a hash
chain over the texts of its rows, so the library's commitment carries over; and a
ledger that is not intact stays so, because a row is only ever appended, or run
into an unfinished last line that is then no row any more.

* `linked_of_intact` — an intact ledger is a hash chain;
* `ledger_commits` — what the last digest says about the rows, and what `record`
  can do to a ledger that is not intact.
-/
import SzlRouter.Dispatch
import SzlRouter.HashChain
import SzlRouter.JsonNesting
import SzlRouter.JsonSeam
import SzlRouter.JsonStable
import SzlRouter.Revision
import SzlRouter.Sha256

namespace SzlRouter

namespace SpendGuard

open Py

def genesis : Str := List.replicate 64 (chr '0')

/-- How deep arrays and objects may be nested where a line is read, and where a row is
written.  The interpreter counts from the stack that the call is made on, so both are a
matter of the caller. -/
structure Limits where
  loads : ℕ
  dumps : ℕ

variable (L : Limits)

/-! ### Reading -/

/-- The row that stands for a line that cannot be read. -/
def corruptRow : Json :=
  .obj [(lit "amount_usd", .int 0), (lit "digest", .str (lit "CORRUPT")),
    (lit "corrupt", .bool true)]

/-- The lines of a text file.  Between `\r` and `\n` there is one more, which is blank. -/
def lines : Str → List Str
  | [] => [[]]
  | c :: s =>
    if c = 10 ∨ c = 13 then [] :: lines s
    else match lines s with
      | [] => [[c]]
      | w :: ws => (c :: w) :: ws

/-- The row of a line; a blank line has none. -/
def readLine (line : Str) : Option Json :=
  if Str.strip line = [] then none
  else some ((loadsWithin plainLoads L.loads (Str.strip line)).getD corruptRow)

/-- `_read_entries`, `none` where the file is no UTF-8.  Without a file there are no rows. -/
def readEntries : Option Bytes → Option (List Json)
  | none => some []
  | some b => (decodeUtf8 b).map fun text => (lines text).filterMap (readLine L)

/-! ### The chain -/

def bodyDumps : DumpOpts := ⟨true, true, true, true⟩

def rowDumps : DumpOpts := ⟨true, true, true, false⟩

/-- `_digest`, `none` where the encoding raises. -/
def digest (prev : Str) (body : Dict) : Option Str :=
  (utf8 prev).bind fun p =>
    ((dumpsWithin bodyDumps L.dumps (.obj body)).bind utf8).map fun b => sha256Hex (p ++ b)

/-- `{k: v for k, v in e.items() if k != "digest"}`. -/
def bodyOf (e : Dict) : Dict := Dict.without e [lit "digest"]

/-- What ends `_digest` where it raises. -/
def digestError (body : Dict) : Str :=
  if L.dumps < (Json.obj body).nesting then lit "RecursionError" else lit "ValueError"

/-- The loop of `_chain_intact`, or the exception it ends with.  A row that is no
object has no `get`. -/
def chainFrom (prev : Str) : List Json → Except Str Bool
  | [] => .ok true
  | .obj e :: entries =>
    if (field e (lit "corrupt")).truthy then .ok false
    else match digest L prev (bodyOf e) with
      | none => .error (digestError L (bodyOf e))
      | some h => if field e (lit "digest") ≠ .str h then .ok false else chainFrom h entries
  | _ :: _ => .error (lit "AttributeError")

def chainIntact (entries : List Json) : Except Str Bool := chainFrom L genesis entries

/-- The chain check reports the ledger intact. It reads what is there, so a row that was dropped
from the end is not missed. -/
def Intact (ledger : Option Bytes) : Prop :=
  ∃ entries, readEntries L ledger = some entries ∧ chainIntact L entries = .ok true

/-! ### Recording -/

/-- The arguments of `record`, the clock, whether the file can be opened, and the limits
of the call. -/
structure Call where
  amountUsd : Binary64
  source : Str
  metadata : Option Dict
  time : Binary64
  opens : Bool
  limits : Limits

/-- `round(float(amount_usd or 0), 6)`. -/
def Call.amount (c : Call) : Binary64 :=
  Binary64.roundTo 6 (if (Json.num (.float c.amountUsd)).truthy then c.amountUsd else 0)

def Call.body (c : Call) : Dict :=
  [(lit "ts", .num (.float (Binary64.roundTo 3 c.time))),
  (lit "amount_usd", .num (.float c.amount)),
    (lit "source", .str c.source), (lit "estimated", .bool true)] ++
  match c.metadata with
  | none | some [] => []
  | some d => [(lit "meta", .obj d)]

/-- The digest a new row goes on from, `none` where it has no `get` or no `encode`. -/
def previous (entries : List Json) : Option Str :=
  match entries.getLast? with
  | none => some genesis
  | some (.obj e) =>
    if !(field e (lit "digest")).truthy then some genesis
    else match field e (lit "digest") with
      | .str d => if d = lit "CORRUPT" then some genesis else some d
      | _ => none
  | some _ => none

/-- The line of a row, with its end. -/
def rowLine (row : Dict) : Option Bytes :=
  (dumpsWithin rowDumps L.dumps (.obj row)).bind fun text => utf8 (text ++ [10])

/-- `record`: the row and the file after; `none` where it raises, and then nothing is
written. -/
def record (c : Call) (ledger : Option Bytes) : Option (Dict × Bytes) := do
  let entries ← readEntries c.limits ledger
  let prev ← previous entries
  let d ← digest c.limits prev c.body
  let row := c.body ++ [(lit "digest", .str d)]
  let line ← rowLine c.limits row
  if c.opens then some (row, ledger.getD [] ++ line) else none

/-- The file after a sequence of calls. -/
def recordAll (calls : List Call) (ledger : Option Bytes) : Option Bytes :=
  calls.foldl (fun ledger c => match record c ledger with
    | none => ledger
    | some (_, b) => some b) ledger

variable {L}

/-! ### The hash chain of an intact ledger -/

def bytesOf (s : Str) : Bytes := (utf8 s).getD []

/-- What is hashed for a text under the digest before it. -/
def hashed (x : Str × Str) : Bytes := bytesOf x.1 ++ bytesOf x.2

def hashLink (x : Str × Str) : Str := sha256Hex (hashed x)

/-- The digest a row carries. -/
def digestOf : Json → Str
  | .obj e =>
    match field e (lit "digest") with
    | .str d => d
    | _ => []
  | _ => []

/-- The text of a row without its digest, and the digest. -/
def link : Json → Str × Str
  | .obj e => (render bodyDumps (.obj (bodyOf e)), digestOf (.obj e))
  | row => ([], digestOf row)

/-- What is hashed for the rows of a ledger. -/
def hashedInputs (entries : List Json) : List Bytes :=
  (HashChain.inputs genesis (entries.map link)).map hashed

/-- SHA-256 has no collision among what is hashed for the two ledgers, and none of it
is hashed to the genesis value. -/
structure NoCollision (entries entries' : List Json) : Prop where
  inj : ∀ x ∈ hashedInputs entries, ∀ y ∈ hashedInputs entries', sha256Hex x = sha256Hex y → x = y
  left : ∀ x ∈ hashedInputs entries, sha256Hex x ≠ genesis
  right : ∀ y ∈ hashedInputs entries', sha256Hex y ≠ genesis

/-- A row that carries a digest and whose other members can be written. These are the rows that
the chain is made of. -/
def Carries (row : Json) (e : Dict) (h : Str) : Prop :=
  row = .obj e ∧ field e (lit "digest") = .str h ∧ dumpable bodyDumps (.obj (bodyOf e)) = true

theorem digest_eq {prev h : Str} {body : Dict} (hd : digest L prev body = some h) :
    dumpable bodyDumps (.obj body) = true ∧ h = hashLink (prev, render bodyDumps (.obj body)) := by
  obtain ⟨p, hp, hd⟩ := Option.bind_eq_some_iff.mp hd
  obtain ⟨b, hb, rfl⟩ := Option.map_eq_some_iff.mp hd
  obtain ⟨text, htext, hb⟩ := Option.bind_eq_some_iff.mp hb
  have htext := (dumps_of_within htext).2
  rw [dumps] at htext
  split_ifs at htext with hdump
  obtain rfl := Option.some.inj htext
  refine ⟨hdump, ?_⟩
  rw [hashLink, hashed, bytesOf, bytesOf, hp, hb]
  rfl

/-- What the check has seen of a row when it goes on. -/
theorem chainFrom_cons {prev : Str} {row : Json} {entries : List Json}
    (h : chainFrom L prev (row :: entries) = .ok true) :
    ∃ e, Carries row e (hashLink (prev, (link row).1)) ∧
      (field e (lit "corrupt")).truthy = false ∧
      chainFrom L (hashLink (prev, (link row).1)) entries = .ok true := by
  cases row with
  | obj e =>
    rw [chainFrom] at h
    -- a marked row, or one with another digest, ends the check with false
    split_ifs at h with hcorrupt
    · exact absurd h (by simp)
    cases hd : digest L prev (bodyOf e) with
    | none =>
      rw [hd] at h
      cases h
    | some d =>
      rw [hd] at h
      dsimp only at h
      split_ifs at h with hdigest
      · exact absurd h (by simp)
      obtain ⟨hdump, rfl⟩ := digest_eq hd
      exact ⟨e, ⟨rfl, not_not.mp hdigest, hdump⟩, by simpa using hcorrupt, h⟩
  | null | bool _ | num _ | str _ | arr _ =>
    rw [chainFrom] at h
    · cases h
    · exact fun _ he => by cases he

theorem digestOf_carries {row : Json} {e : Dict} {h : Str} (hc : Carries row e h) :
    digestOf row = h := by
  obtain ⟨rfl, hd, _⟩ := hc
  rw [digestOf, hd]

/-- **An intact ledger is a hash chain**, and each of its rows carries its digest. The digest of
a row is over the digest before it and the text of its other members. -/
theorem linked_of_intact {prev : Str} {entries : List Json}
    (h : chainFrom L prev entries = .ok true) :
    HashChain.Linked hashLink prev (entries.map link) ∧
      ∀ row ∈ entries, ∃ e d, Carries row e d := by
  induction entries generalizing prev with
  | nil => exact ⟨trivial, by simp⟩
  | cons row entries ih =>
    obtain ⟨e, hcarries, _, hrest⟩ := chainFrom_cons h
    obtain ⟨hlinked, hall⟩ := ih hrest
    have hdigest : (link row).2 = hashLink (prev, (link row).1) := by
      rw [← digestOf_carries hcarries, hcarries.1]
      rfl
    constructor
    · rw [List.map_cons]
      exact ⟨hdigest.symm, hdigest ▸ hlinked⟩
    · intro x hx
      rcases List.mem_cons.mp hx with rfl | hx
      · exact ⟨e, _, hcarries⟩
      · exact hall x hx

/-! ### Equal digests -/

/-- A digest of full length and an ASCII text. -/
def Framed (x : Str × Str) : Prop := (x.1.length = 64 ∧ Ascii x.1) ∧ Ascii x.2

theorem ascii_link (row : Json) : Ascii (link row).1 := by
  cases row with
  | obj e => exact render_ascii rfl _
  | null | bool _ | num _ | str _ | arr _ => exact ascii_nil

theorem full_sha256Hex (b : Bytes) : (sha256Hex b).length = 64 ∧ Ascii (sha256Hex b) := by
  have hhex := sha256Hex_hex b
  rw [isHexDigest, Bool.and_eq_true, decide_eq_true_iff, List.all_eq_true] at hhex
  refine ⟨hhex.1, ?_⟩
  intro c hc
  have hchar := hhex.2 c hc
  simp only [Bool.or_eq_true, Bool.and_eq_true, decide_eq_true_eq] at hchar
  omega

theorem framed_inputs {prev : Str} {entries : List Json} (hprev : prev.length = 64 ∧ Ascii prev)
    (h : HashChain.Linked hashLink prev (entries.map link)) :
    ∀ x ∈ HashChain.inputs prev (entries.map link), Framed x := by
  induction entries generalizing prev with
  | nil => exact fun _ hx => absurd hx List.not_mem_nil
  | cons row entries ih =>
    obtain ⟨hdigest, hrest⟩ := h
    intro x hx
    rcases List.mem_cons.mp hx with rfl | hx
    · exact ⟨hprev, ascii_link row⟩
    · refine ih ?_ hrest x hx
      rw [← hdigest]
      exact full_sha256Hex _

/-- The digest before and the text can be read off what is hashed. -/
theorem hashed_injective {x y : Str × Str} (hx : Framed x) (hy : Framed y)
    (h : hashed x = hashed y) : x = y := by
  have hbytes : ∀ {x : Str × Str}, Framed x → hashed x = (x.1 ++ x.2).flatMap utf8Char := by
    intro x hx
    rw [hashed, bytesOf, bytesOf, hx.1.2.utf8_eq, hx.2.utf8_eq, List.flatMap_append]
    rfl
  rw [hbytes hx, hbytes hy] at h
  have htext := (hx.1.2.append hx.2).flatMap_utf8Char_injective (hy.1.2.append hy.2) h
  obtain ⟨hdigest, hbody⟩ := List.append_inj htext (hx.1.1.trans hy.1.1.symm)
  exact Prod.ext hdigest hbody

theorem full_genesis : genesis.length = 64 ∧ Ascii genesis := by
  refine ⟨List.length_replicate, ?_⟩
  intro c hc
  rw [List.eq_of_mem_replicate hc]
  decide

theorem NoCollision.chain {entries entries' : List Json} (h : NoCollision entries entries')
    (hlinked : HashChain.Linked hashLink genesis (entries.map link))
    (hlinked' : HashChain.Linked hashLink genesis (entries'.map link)) :
    HashChain.NoCollision hashLink genesis (entries.map link) (entries'.map link) := by
  constructor
  · intro x hx y hy hxy
    exact hashed_injective (framed_inputs full_genesis hlinked x hx)
      (framed_inputs full_genesis hlinked' y hy)
      (h.inj _ (List.mem_map_of_mem hx) _ (List.mem_map_of_mem hy) hxy)
  · intro x hx
    exact h.left _ (List.mem_map_of_mem hx)
  · intro y hy
    exact h.right _ (List.mem_map_of_mem hy)

/-! ### Equal rows -/

theorem mem_of_mem_lines {s w : Str} (hw : w ∈ lines s) : w ⊆ s := by
  induction s generalizing w with
  | nil =>
    rw [lines, List.mem_singleton] at hw
    rw [hw]
    exact List.nil_subset _
  | cons c s ih =>
    rw [lines] at hw
    split_ifs at hw with hc
    · rcases List.mem_cons.mp hw with rfl | hw
      · exact List.nil_subset _
      · exact List.subset_cons_of_subset _ (ih hw)
    · cases hs : lines s with
      | nil =>
        rw [hs, List.mem_singleton] at hw
        rw [hw]
        exact List.cons_subset_cons c (List.nil_subset _)
      | cons v vs =>
        rw [hs] at hw ih
        rcases List.mem_cons.mp hw with rfl | hw
        · exact List.cons_subset_cons c (ih List.mem_cons_self)
        · exact List.subset_cons_of_subset _ (ih (List.mem_cons_of_mem _ hw))

theorem strip_subset (s : Str) : Str.strip s ⊆ s := by
  intro c hc
  rw [Str.strip, Str.rstripWhile, List.mem_reverse] at hc
  have hdrop := (List.dropWhile_sublist _).subset hc
  rw [List.mem_reverse] at hdrop
  exact (List.dropWhile_sublist _).subset hdrop

theorem stable_corruptRow : Stable bodyDumps corruptRow := by
  have htext : ∀ {k : String}, (lit k).all (fun c => c.val < 128) = true →
      bodyDumps.text (lit k) = lit k :=
    fun hk => text_of_joinPairs (joinPairs_of_ascii (ascii_of_all hk))
  have hnodup : (["amount_usd", "digest", "corrupt"].map lit).Nodup := by decide
  rw [corruptRow, Stable, stableFields_iff]
  refine ⟨hnodup, ?_⟩
  simp only [List.forall_mem_cons]
  exact ⟨⟨htext (by decide), trivial⟩, ⟨htext (by decide), htext (by decide)⟩,
    ⟨htext (by decide), trivial⟩, by simp⟩

/-- The rows of a ledger are stable. -/
theorem stable_of_readEntries {ledger : Option Bytes} {entries : List Json}
    (h : readEntries L ledger = some entries) : ∀ row ∈ entries, Stable bodyDumps row := by
  cases ledger with
  | none =>
    obtain rfl := Option.some.inj h
    exact fun _ hrow => absurd hrow List.not_mem_nil
  | some b =>
    obtain ⟨text, htext, rfl⟩ := Option.map_eq_some_iff.mp h
    intro row hrow
    obtain ⟨line, hline, hread⟩ := List.mem_filterMap.mp hrow
    have hclean : Clean (Str.strip line) :=
      (decodeUtf8_clean htext).mono (List.Subset.trans (strip_subset line) (mem_of_mem_lines hline))
    rw [readLine] at hread
    split_ifs at hread
    obtain rfl := Option.some.inj hread
    cases hloads : loadsWithin plainLoads L.loads (Str.strip line) with
    | none => exact stable_corruptRow
    | some row => exact loads_stable bodyDumps hclean (loads_of_within hloads)

theorem stable_bodyOf {e : Dict} (h : Stable bodyDumps (.obj e)) :
    Stable bodyDumps (.obj (bodyOf e)) := by
  rw [Stable, stableFields_iff] at h ⊢
  exact ⟨Dict.nodup_keys_without h.1 _, fun p hp => h.2 p (List.mem_of_mem_filter hp)⟩

/-- The members of a row that carries a digest, their values without an order. -/
theorem perm_carries {e : Dict} {d : Str} (hs : Stable bodyDumps (.obj e))
    (hfield : field e (lit "digest") = .str d) :
    (e.map fun p => (p.1, unordered p.2)).Perm
      ((lit "digest", .str d) :: (bodyOf e).map fun p => (p.1, unordered p.2)) := by
  rw [Stable] at hs
  have hget : Dict.get e (lit "digest") = some (.str d) := by
    rw [field] at hfield
    cases hget : Dict.get e (lit "digest") with
    | none =>
      rw [hget] at hfield
      cases hfield
    | some v =>
      rw [hget] at hfield
      exact congrArg some hfield
  exact (Dict.perm_cons_without hs.1 hget).map _

/-- Rows with one text and one digest have the same members. -/
theorem unordered_eq_of_link {row row' : Json} {e e' : Dict} {d d' : Str} (hc : Carries row e d)
    (hc' : Carries row' e' d') (hs : Stable bodyDumps row) (hs' : Stable bodyDumps row')
    (h : link row = link row') : unordered row = unordered row' := by
  obtain ⟨htext, hdigest⟩ := Prod.mk.inj h
  -- equal links have equal digests and equal body texts
  have hd : d = d' := by
    rw [← digestOf_carries hc, ← digestOf_carries hc']
    have hsame : (link row).2 = (link row').2 := congrArg Prod.snd h
    rwa [hc.1, hc'.1] at hsame ⊢
  obtain ⟨rfl, hfield, hdump⟩ := hc
  obtain ⟨rfl, hfield', hdump'⟩ := hc'
  subst hd
  have hnorm : norm bodyDumps (.obj (bodyOf e)) = norm bodyDumps (.obj (bodyOf e')) :=
    dumps_injective (if_pos hdump) ((if_pos hdump').trans (congrArg some htext.symm))
  rw [norm_eq_unordered rfl (stable_bodyOf hs), norm_eq_unordered rfl (stable_bodyOf hs'),
    unordered_obj, unordered_obj] at hnorm
  have hbody : ((bodyOf e).map fun p => (p.1, unordered p.2)).Perm
      ((bodyOf e').map fun p => (p.1, unordered p.2)) :=
    (sortByKey_perm _).symm.trans (Json.obj.inj hnorm ▸ sortByKey_perm _)
  -- the members but for their order, the digest among them
  have hperm :=
      ((perm_carries hs hfield).trans (hbody.cons _)).trans (perm_carries hs' hfield').symm
  have hnodup : ((e.map fun p => (p.1, unordered p.2)).map Prod.fst).Nodup := by
    rw [Stable] at hs
    rw [List.map_map]
    exact hs.1
  rw [unordered_obj, unordered_obj, sortByKey_eq_of_perm hnodup hperm]

/-- Ledgers of one chain have the same rows. -/
theorem unordered_of_links {entries entries' : List Json}
    (hc : ∀ row ∈ entries, Stable bodyDumps row ∧ ∃ e d, Carries row e d)
    (hc' : ∀ row ∈ entries', Stable bodyDumps row ∧ ∃ e d, Carries row e d)
    (h : entries.map link = entries'.map link) :
    entries.map unordered = entries'.map unordered := by
  induction entries generalizing entries' with
  | nil =>
    obtain rfl := List.map_eq_nil_iff.mp h.symm
    rfl
  | cons row entries ih =>
    cases entries' with
    | nil => exact nomatch h
    | cons row' entries' =>
      obtain ⟨hlink, hlinks⟩ := List.cons.inj h
      obtain ⟨hs, e, d, hcarries⟩ := hc row List.mem_cons_self
      obtain ⟨hs', e', d', hcarries'⟩ := hc' row' List.mem_cons_self
      have hrest := ih (fun x hx => hc x (List.mem_cons_of_mem _ hx))
        (fun x hx => hc' x (List.mem_cons_of_mem _ hx)) hlinks
      rw [List.map_cons, List.map_cons, hrest, unordered_eq_of_link hcarries hcarries' hs hs' hlink]

/-- The digest of the last row. -/
def lastDigest (entries : List Json) : Option Str := entries.getLast?.map digestOf

theorem tip_links {prev : Str} {entries : List Json} (hc : ∀ row ∈ entries, ∃ e d, Carries row e d)
    {d : Str} (h : lastDigest entries = some d) : HashChain.tip prev (entries.map link) = d := by
  obtain ⟨row, hlast, rfl⟩ := Option.map_eq_some_iff.mp h
  obtain ⟨before, rfl⟩ := List.getLast?_eq_some_iff.mp hlast
  obtain ⟨e, d, hcarries⟩ := hc row (by simp)
  rw [List.map_append, List.map_singleton, HashChain.tip_concat, hcarries.1]
  rfl

/-- **Commitment.**  An intact ledger whose last digest occurs in another intact one has
the rows of the beginning of that one. -/
theorem prefix_of_lastDigest {L' : Limits} {ledger ledger' : Option Bytes}
    {entries entries' : List Json}
    (hread : readEntries L ledger = some entries) (hread' : readEntries L' ledger' = some entries')
    (hintact : chainIntact L entries = .ok true) (hintact' : chainIntact L' entries' = .ok true)
    (hcollision : NoCollision entries entries') {row : Json} (hrow : row ∈ entries)
    (hdigest : lastDigest entries' = some (digestOf row)) :
    entries'.map unordered <+: entries.map unordered := by
  obtain ⟨hlinked, hcarries⟩ := linked_of_intact hintact
  obtain ⟨hlinked', hcarries'⟩ := linked_of_intact hintact'
  have hmem : link row ∈ entries.map link := List.mem_map_of_mem hrow
  have htip : HashChain.tip genesis (entries'.map link) = (link row).2 := by
    obtain ⟨e, d, hc⟩ := hcarries row hrow
    rw [tip_links hcarries' hdigest, hc.1]
    rfl
  -- as chains of links the one is the beginning of the other, and so as rows
  obtain ⟨rest, hrest⟩ := HashChain.prefix_of_tip_mem hlinked hlinked'
    (hcollision.chain hlinked hlinked') hmem htip
  obtain ⟨before, after, rfl, hbefore, -⟩ := List.map_eq_append_iff.mp hrest.symm
  have hall : ∀ row ∈ before ++ after, Stable bodyDumps row ∧ ∃ e d, Carries row e d :=
    fun row h => ⟨stable_of_readEntries hread row h, hcarries row h⟩
  have hsame := unordered_of_links (fun row h => hall row (List.mem_append_left _ h))
    (fun row h => ⟨stable_of_readEntries hread' row h, hcarries' row h⟩) hbefore
  rw [List.map_append, ← hsame]
  exact List.prefix_append _ _

/-! ### Appending -/

theorem lines_ne_nil (s : Str) : lines s ≠ [] := by
  cases s with
  | nil => exact List.cons_ne_nil _ _
  | cons c s =>
    rw [lines]
    split_ifs
    · exact List.cons_ne_nil _ _
    · cases lines s <;> exact List.cons_ne_nil _ _

theorem lines_cons {c : CodePoint} (hc : ¬(c = 10 ∨ c = 13)) {s w : Str} {ws : List Str}
    (h : lines s = w :: ws) : lines (c :: s) = (c :: w) :: ws := by
  rw [lines, if_neg hc, h]

/-- The first line of a text goes into the last line of the text before it. -/
theorem lines_append (s : Str) : ∃ before last, lines s = before ++ [last] ∧
    ∀ t : Str, lines (s ++ t) = before ++ (last ++ (lines t).headD []) :: (lines t).tail := by
  induction s with
  | nil =>
    refine ⟨[], [], rfl, fun t => ?_⟩
    obtain ⟨w, ws, ht⟩ := List.exists_cons_of_ne_nil (lines_ne_nil t)
    rw [List.nil_append, ht]
    rfl
  | cons c s ih =>
    obtain ⟨before, last, hs, happend⟩ := ih
    by_cases hc : c = 10 ∨ c = 13
    -- a line break ends a line, whatever comes after the text
    · refine ⟨[] :: before, last, ?_, fun t => ?_⟩
      · rw [lines, if_pos hc, hs]
        rfl
      · rw [List.cons_append, lines, if_pos hc, happend t]
        rfl
    · cases before with
      | nil =>
        refine ⟨[], c :: last, lines_cons hc hs, fun t => ?_⟩
        exact lines_cons hc (happend t)
      | cons w before =>
        refine ⟨(c :: w) :: before, last, lines_cons hc hs, fun t => ?_⟩
        exact lines_cons hc (happend t)

/-- A text without a line break is one line. -/
theorem lines_unbroken {t : Str} (h : ∀ c ∈ t, ¬(c = 10 ∨ c = 13)) :
    lines t = [t] ∧ lines (t ++ [10]) = [t, []] := by
  induction t with
  | nil => exact ⟨rfl, rfl⟩
  | cons c t ih =>
    obtain ⟨hline, hended⟩ := ih fun x hx => h x (List.mem_cons_of_mem _ hx)
    exact ⟨lines_cons (h c List.mem_cons_self) hline, lines_cons (h c List.mem_cons_self) hended⟩

theorem keys_row (c : Call) (d : Str) :
    (Dict.keys (c.body ++ [(lit "digest", .str d)])).Nodup ∧
      ∀ p ∈ c.body ++ [(lit "digest", .str d)], lit "amount_usd" ≤ p.1 := by
  -- with metadata and without, and empty metadata is left out
  have hkeys : Dict.keys (c.body ++ [(lit "digest", .str d)]) =
        ["ts", "amount_usd", "source", "estimated", "digest"].map lit ∨
      Dict.keys (c.body ++ [(lit "digest", .str d)]) =
        ["ts", "amount_usd", "source", "estimated", "meta", "digest"].map lit := by
    rw [Call.body]
    match c.metadata with
    | none | some [] => exact .inl rfl
    | some (_ :: _) => exact .inr rfl
  have hle : ∀ k ∈ Dict.keys (c.body ++ [(lit "digest", .str d)]), lit "amount_usd" ≤ k := by
    rcases hkeys with h | h
    · rw [h]
      decide
    · rw [h]
      decide
  constructor
  · rcases hkeys with h | h
    · rw [h]
      decide
    · rw [h]
      decide
  · intro p hp
    exact hle p.1 (List.mem_map_of_mem hp)

/-- The first key of a recorded row, and the end of its text. -/
theorem render_row (c : Call) (d : Str) : ∃ rest front,
    render rowDumps (.obj (c.body ++ [(lit "digest", .str d)])) =
      chr '{' :: chr '"' :: chr 'a' :: rest ∧
    render rowDumps (.obj (c.body ++ [(lit "digest", .str d)])) = front ++ [chr '}'] := by
  obtain ⟨hnodup, hle⟩ := keys_row c d
  have hmem : (lit "amount_usd", .num (.float c.amount)) ∈ c.body ++ [(lit "digest", .str d)] := by
    simp [Call.body]
  obtain ⟨later, hsort⟩ := sortByKey_head hnodup hmem hle
  have hkey : ∃ rest, quote rowDumps (lit "amount_usd") = chr '"' :: chr 'a' :: rest := ⟨_, rfl⟩
  obtain ⟨rest, hrest⟩ := hkey
  -- the amount is the first member in the order of keys
  have hrender : ∃ members, render rowDumps (.obj (c.body ++ [(lit "digest", .str d)])) =
      chr '{' :: (chr '"' :: chr 'a' :: members ++ [chr '}']) := by
    have horder : rowDumps.order (c.body ++ [(lit "digest", .str d)]) =
        (lit "amount_usd", .num (.float c.amount)) :: later := (if_pos rfl).trans hsort
    rw [render_obj, horder, List.map_cons]
    cases later with
    | nil => exact ⟨_, by rw [List.map_nil, Str.join, member, hrest]; rfl⟩
    | cons q later =>
      have hjoin : ∀ w x ws, Str.join rowDumps.comma (w :: x :: ws) =
          w ++ rowDumps.comma ++ Str.join rowDumps.comma (x :: ws) := fun _ _ _ => rfl
      exact ⟨_, by rw [List.map_cons, hjoin, member, hrest]; rfl⟩
  obtain ⟨members, hmembers⟩ := hrender
  exact ⟨members ++ [chr '}'], chr '{' :: chr '"' :: chr 'a' :: members, hmembers, hmembers⟩

theorem strip_unfinished {last front : Str} (hlast : Str.strip last ≠ []) :
    Str.strip (last ++ (front ++ [chr '}'])) = last.dropWhile Str.isSpace ++ (front ++ [chr '}']) ∧
      skipWs (last.dropWhile Str.isSpace) ≠ [] := by
  have hdrop : last.dropWhile Str.isSpace ≠ [] := by
    intro hnil
    rw [Str.strip, hnil] at hlast
    exact hlast rfl
  constructor
  · rw [Str.strip, List.dropWhile_append, if_neg (by simpa using hdrop), Str.rstripWhile,
      ← List.append_assoc, List.reverse_append, List.reverse_singleton, List.singleton_append,
      List.dropWhile_cons, if_neg (by decide), List.reverse_cons, List.reverse_reverse]
  · obtain ⟨x, rest, hx⟩ := List.exists_cons_of_ne_nil hdrop
    have hspace : Str.isSpace x = false := by
      have hhead := List.head_dropWhile_not Str.isSpace hdrop
      simpa [hx] using hhead
    have hws : isWs x = false := by
      rw [Str.isSpace, decide_eq_false_iff_not] at hspace
      rw [isWs, decide_eq_false_iff_not]
      omega
    rw [hx, skipWs_cons rest hws]
    simp

/-- A line that was left unfinished and a row after it are no row. -/
theorem readLine_unfinished {last : Str} (hlast : Str.strip last ≠ []) {c : Call} {d : Str}
    (hdump : dumpable rowDumps (.obj (c.body ++ [(lit "digest", .str d)])) = true) :
    readLine L (last ++ render rowDumps (.obj (c.body ++ [(lit "digest", .str d)]))) =
      some corruptRow := by
  obtain ⟨rest, front, hstart, hend⟩ := render_row c d
  have hunsound : plainLoads.uniqueKeys = true →
      Sound rowDumps (.obj (c.body ++ [(lit "digest", .str d)])) := fun h => nomatch h
  have hopens : Opens plainLoads _ _ _ :=
    opens_render (fun _ => rfl) hdump hunsound hstart (by decide) (by decide)
  obtain ⟨hstrip, hskip⟩ : Str.strip (last ++ (front ++ [chr '}'])) = _ ∧ skipWs _ ≠ [] :=
    strip_unfinished hlast
  rw [← hend] at hstrip
  have hne :
      Str.strip (last ++ render rowDumps (.obj (c.body ++ [(lit "digest", .str d)]))) ≠ [] := by
    rw [hstrip, hstart]
    simp
  rw [readLine, if_neg hne, hstrip, loadsWithin, loads_seam hopens hskip, ite_self]
  rfl

/-- Rows before others decide first. -/
theorem chainFrom_append {prev : Str} {entries later : List Json}
    (h : chainFrom L prev (entries ++ later) = .ok true) :
    chainFrom L prev entries = .ok true ∧ ∃ prev', chainFrom L prev' later = .ok true := by
  induction entries generalizing prev with
  | nil => exact ⟨rfl, prev, h⟩
  | cons row entries ih =>
    obtain ⟨e, ⟨rfl, hfield, hdump⟩, hcorrupt, hrest⟩ := chainFrom_cons h
    obtain ⟨hentries, hlater⟩ := ih hrest
    refine ⟨?_, hlater⟩
    rw [List.cons_append, chainFrom, if_neg (by simp [hcorrupt])] at h
    rw [chainFrom, if_neg (by simp [hcorrupt])]
    cases hd : digest L prev (bodyOf e) with
    | none =>
      rw [hd] at h
      exact nomatch h
    | some h' =>
      rw [hd] at h
      dsimp only at h ⊢
      obtain ⟨_, rfl⟩ := digest_eq hd
      exact (if_neg fun hne => hne hfield).trans hentries

/-- The line of a recorded row has no break within. -/
theorem rowLine_eq {row : Dict} {line : Bytes} (h : rowLine L row = some line) :
    dumpable rowDumps (.obj row) = true ∧
      decodeUtf8 line = some (render rowDumps (.obj row) ++ [10]) := by
  obtain ⟨text, htext, hline⟩ := Option.bind_eq_some_iff.mp h
  have htext := (dumps_of_within htext).2
  rw [dumps] at htext
  split_ifs at htext with hdump
  obtain rfl := Option.some.inj htext
  exact ⟨hdump, decodeUtf8_utf8 hline⟩

/-- The rows of a ledger are those of its text; without a file there is none of either. -/
theorem readEntries_eq {ledger : Option Bytes} {text : Str}
    (h : decodeUtf8 (ledger.getD []) = some text) :
    readEntries L ledger = some ((lines text).filterMap (readLine L)) := by
  cases ledger with
  | none =>
    obtain rfl := Option.some.inj h
    rfl
  | some b =>
    rw [readEntries, show decodeUtf8 b = some text from h]
    rfl

/-- What `record` has done when it returns. -/
theorem record_eq_some {c : Call} {ledger : Option Bytes} {row : Dict} {b : Bytes}
    (h : record c ledger = some (row, b)) :
    ∃ text d line, decodeUtf8 (ledger.getD []) = some text ∧
      Ascii d ∧ row = c.body ++ [(lit "digest", .str d)] ∧ rowLine c.limits row = some line ∧
      b = ledger.getD [] ++ line := by
  obtain ⟨entries, hread, h⟩ := Option.bind_eq_some_iff.mp h
  obtain ⟨prev, _, h⟩ := Option.bind_eq_some_iff.mp h
  obtain ⟨d, hd, h⟩ := Option.bind_eq_some_iff.mp h
  obtain ⟨line, hline, h⟩ := Option.bind_eq_some_iff.mp h
  split_ifs at h
  obtain ⟨rfl, rfl⟩ := Prod.mk.inj (Option.some.inj h)
  have hascii : Ascii d := by
    obtain ⟨_, rfl⟩ := digest_eq hd
    exact (full_sha256Hex _).2
  cases ledger with
  | none => exact ⟨[], d, line, rfl, hascii, rfl, hline, rfl⟩
  | some b =>
    obtain ⟨text, htext, rfl⟩ := Option.map_eq_some_iff.mp hread
    exact ⟨text, d, line, htext, hascii, rfl, hline, rfl⟩

theorem render_unbroken (row : Dict) : ∀ x ∈ render rowDumps (.obj row), ¬(x = 10 ∨ x = 13) := by
  intro x hx
  have hprintable := (render_printable (o := rowDumps) rfl _ x hx).1
  rintro (rfl | rfl)
  · exact absurd hprintable (by decide)
  · exact absurd hprintable (by decide)

/-- What is read after a row was written at the end of a text. -/
theorem readEntries_append_row {b line : Bytes} {text : Str} {row : Dict} {before : List Str}
    {last : Str} (htext : decodeUtf8 b = some text) (hline : rowLine L row = some line)
    (happend : ∀ t : Str, lines (text ++ t) =
      before ++ (last ++ (lines t).headD []) :: (lines t).tail) (L' : Limits) :
    readEntries L' (some (b ++ line)) = some (before.filterMap (readLine L') ++
      (readLine L' (last ++ render rowDumps (.obj row))).toList) := by
  rw [readEntries, decodeUtf8_append htext, (rowLine_eq hline).2, Option.map_some, Option.map_some,
    happend, (lines_unbroken (render_unbroken row)).2, List.filterMap_append]
  dsimp only [List.headD_cons, List.tail_cons]
  have hblank : readLine L' [] = none := rfl
  cases hrow : readLine L' (last ++ render rowDumps (.obj row)) with
  | none => rw [List.filterMap_cons_none hrow, List.filterMap_cons_none hblank]; rfl
  | some row => rw [List.filterMap_cons_some hrow, List.filterMap_cons_none hblank]; rfl

/-- **A recorded row makes no ledger intact that was not.** It is linked to the last digest in
the file and appended behind all rows, and the check still comes to the row that failed before.
-/
theorem intact_of_record {c : Call} {ledger : Option Bytes} {row : Dict} {b : Bytes}
    (h : record c ledger = some (row, b)) (hintact : Intact L (some b)) : Intact L ledger := by
  obtain ⟨text, d, line, htext, _, rfl, hline, rfl⟩ := record_eq_some h
  obtain ⟨before, last, hlines, happend⟩ := lines_append text
  obtain ⟨entries', hread', hchain⟩ := hintact
  rw [readEntries_append_row htext hline happend] at hread'
  have hentries' := (Option.some.inj hread').symm
  have hbefore : chainIntact L (before.filterMap (readLine L)) = .ok true :=
    (chainFrom_append (hentries' ▸ hchain)).1
  by_cases hlast : Str.strip last = []
  · refine ⟨_, readEntries_eq htext, ?_⟩
    rw [hlines, List.filterMap_append, List.filterMap_cons, readLine, if_pos hlast]
    simpa using hbefore
  · rw [readLine_unfinished hlast (rowLine_eq hline).1] at hentries'
    obtain ⟨prev', hcorrupt⟩ := (chainFrom_append (hentries' ▸ hchain)).2
    obtain ⟨e, hcarries, hfield, _⟩ := chainFrom_cons hcorrupt
    rw [← Json.obj.inj hcarries.1] at hfield
    exact absurd hfield (by decide)

theorem not_intact_recordAll {ledger : Option Bytes} (calls : List Call) (h : ¬Intact L ledger) :
    ¬Intact L (recordAll calls ledger) := by
  induction calls generalizing ledger with
  | nil => exact h
  | cons c calls ih =>
    rw [recordAll, List.foldl_cons, ← recordAll]
    refine ih ?_
    cases hrecord : record c ledger with
    | none => exact h
    | some p => exact fun hintact => h (intact_of_record hrecord hintact)

theorem NoCollision.symm {entries entries' : List Json} (h : NoCollision entries entries') :
    NoCollision entries' entries :=
  ⟨fun x hx y hy hxy => (h.inj y hy x hx hxy.symm).symm, h.right, h.left⟩

/-- **Tamper evidence.**  Without collisions, intact ledgers with one last digest have
the same rows; an intact ledger that ends in a digest of another one has the rows of its
beginning, so that rows were only dropped from its end.  And whatever is recorded
afterwards, a ledger that is not intact never becomes so.  The ledgers may be read, and
the calls be made, from any depth of the stack. -/
theorem ledger_commits :
    (∀ L L' ledger ledger' entries entries', readEntries L ledger = some entries →
      readEntries L' ledger' = some entries' → chainIntact L entries = .ok true →
      chainIntact L' entries' = .ok true → NoCollision entries entries' →
      (entries ≠ [] → lastDigest entries = lastDigest entries' →
        entries.map unordered = entries'.map unordered) ∧
      ∀ row ∈ entries, lastDigest entries' = some (digestOf row) →
        entries'.map unordered <+: entries.map unordered) ∧
    ∀ L ledger calls, ¬Intact L ledger → ¬Intact L (recordAll calls ledger) := by
  refine ⟨?_, fun L ledger calls h => not_intact_recordAll calls h⟩
  intro L L' ledger ledger' entries entries' hread hread' hintact hintact' hcollision
  refine ⟨?_, fun row hrow => prefix_of_lastDigest hread hread' hintact hintact' hcollision hrow⟩
  intro hne hlast
  obtain ⟨row, hrow⟩ := List.getLast?_isSome.mpr hne |> Option.isSome_iff_exists.mp
  have hdigest : lastDigest entries = some (digestOf row) := by
    rw [lastDigest, hrow]
    rfl
  obtain ⟨row', hrow', hdigest'⟩ := Option.map_eq_some_iff.mp (hlast ▸ hdigest)
  -- each ledger is the beginning of the other, so they have one length
  have hle := prefix_of_lastDigest hread hread' hintact hintact' hcollision
    (List.mem_of_getLast? hrow) (hlast ▸ hdigest)
  have hge := prefix_of_lastDigest hread' hread hintact' hintact hcollision.symm
    (List.mem_of_getLast? hrow') (hdigest.trans (congrArg some hdigest'.symm))
  exact hge.eq_of_length_le hle.length_le

/-! ### A row that is rewritten with its digest -/

def plainLimits : Limits := ⟨900, 900⟩

/-- Rows of amounts, chained after a digest. -/
def sampleRows (prev : Str) : List ℤ → List Dict
  | [] => []
  | amountUsd :: amounts =>
    let body : Dict := [(lit "amount_usd", .int amountUsd)]
    let d := (digest plainLimits prev body).getD []
    (body ++ [(lit "digest", .str d)]) :: sampleRows d amounts

def sampleEntries (amounts : List ℤ) : List Json := (sampleRows genesis amounts).map Json.obj

/-- The ledger of the rows, with a blank line before each. -/
def sampleLedger (blank : Str) (amounts : List ℤ) : Option Bytes :=
  some ((sampleRows genesis amounts).flatMap fun row =>
    bytesOf blank ++ (rowLine plainLimits row).getD [])

set_option maxRecDepth 100000 in
theorem sample_reads :
    readEntries plainLimits (sampleLedger [] [1, 2, 3]) = some (sampleEntries [1, 2, 3]) ∧
      readEntries plainLimits (sampleLedger [10] [1, 2]) = some (sampleEntries [1, 2]) ∧
      readEntries plainLimits (sampleLedger [] [1, 5]) = some (sampleEntries [1, 5]) := by
  decide +kernel

set_option maxRecDepth 100000 in
theorem sample_intact :
    chainIntact plainLimits (sampleEntries [1, 2, 3]) = .ok true ∧
      chainIntact plainLimits (sampleEntries [1, 2]) = .ok true ∧
      chainIntact plainLimits (sampleEntries [1, 5]) = .ok true ∧
      ¬(sampleEntries [1, 5]).map unordered <+: (sampleEntries [1, 2, 3]).map unordered := by
  decide +kernel

/-- What is hashed for the three ledgers: four texts, with four digests. -/
def sampleInputs : List Bytes :=
  hashedInputs (sampleEntries [1, 2, 3]) ++ (hashedInputs (sampleEntries [1, 5])).drop 1

set_option maxRecDepth 100000 in
theorem sample_hashes :
    (sampleInputs.map sha256Hex).Nodup ∧ (∀ h ∈ sampleInputs.map sha256Hex, h ≠ genesis) ∧
      hashedInputs (sampleEntries [1, 2]) ⊆ sampleInputs ∧
      hashedInputs (sampleEntries [1, 5]) ⊆ sampleInputs := by
  decide +kernel

theorem sample_noCollision {entries entries' : List Json}
    (h : hashedInputs entries ⊆ sampleInputs) (h' : hashedInputs entries' ⊆ sampleInputs) :
    NoCollision entries entries' := by
  have hgenesis : ∀ x ∈ sampleInputs, sha256Hex x ≠ genesis :=
    fun x hx => sample_hashes.2.1 _ (List.mem_map_of_mem hx)
  refine ⟨?_, fun x hx => hgenesis x (h hx), fun y hy => hgenesis y (h' hy)⟩
  intro x hx y hy hxy
  exact List.inj_on_of_nodup_map sample_hashes.1 (h hx) (h' hy) hxy

theorem sample_sub : hashedInputs (sampleEntries [1, 2, 3]) ⊆ sampleInputs :=
  List.subset_append_left _ _

/-- The second row of an intact ledger is rewritten, its digest with it, and the third is
dropped; the ledger is reported intact. -/
theorem rewritten_row_intact :
    ¬ ∀ L ledger ledger' entries entries', readEntries L ledger = some entries →
      readEntries L ledger' = some entries' → chainIntact L entries = .ok true → entries ≠ [] →
      NoCollision entries entries' → ¬entries'.map unordered <+: entries.map unordered →
      chainIntact L entries' = .ok false := by
  intro hclaim
  obtain ⟨hread, _, hread'⟩ := sample_reads
  obtain ⟨hintact, _, hintact', hprefix⟩ := sample_intact
  have hbroken := hclaim _ _ _ _ _ hread hread' hintact (List.cons_ne_nil _ _)
    (sample_noCollision sample_sub sample_hashes.2.2.2) hprefix
  rw [hintact'] at hbroken
  exact nomatch hbroken

/-- A ledger whose last row was dropped and to which blank lines were added keeps the other
rows as they are in the longer one. -/
theorem ledger_commits_blank : ∃ entries entries', entries.length = 3 ∧ entries'.length = 2 ∧
    readEntries plainLimits (sampleLedger [] [1, 2, 3]) = some entries ∧
    readEntries plainLimits (sampleLedger [10] [1, 2]) = some entries' ∧
    entries'.map unordered <+: entries.map unordered := by
  obtain ⟨hread, hread', _⟩ := sample_reads
  obtain ⟨hintact, hintact', _⟩ := sample_intact
  have hcollision := sample_noCollision sample_sub sample_hashes.2.2.1
  refine ⟨_, _, rfl, rfl, hread, hread', ?_⟩
  have hcommits := (ledger_commits.1 _ _ _ _ _ _ hread hread' hintact hintact' hcollision).2
  -- the second row carries the last digest that is left
  exact hcommits _ (List.mem_cons_of_mem _ List.mem_cons_self) rfl

end SpendGuard

end SzlRouter
