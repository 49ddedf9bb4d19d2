/-
Inspecting the spend ledger: `state`, `spent_usd` and the chain check on any file.

* `amountOf_ok_iff` — the rows whose amount can be summed;
* `chainFrom_returns_iff` — the chain check returns on objects, unless it reaches one that
  nests too deep to be written;
* `not_intact_of_malformed` — a line that is no row breaks the chain;
* `inspects_iff` — the ledgers that can be inspected.
-/
import SzlRouter.SpendRecovery

namespace SzlRouter

namespace SpendGuard

open Py

/-! ### The snapshot -/

/-- What `state` reads besides the ledger. -/
structure Host where
  /-- `SZL_SPEND_CAP_USD`, empty where it is not set. -/
  capText : Str
  killFile : Str
  killEngaged : Bool
  ledgerFile : Str
  generated : Str

/-- `_envf`. -/
def envf (F : Floats) (text : Str) (default : Binary64) : Binary64 :=
  if Str.strip text = [] then default else (F.ofText (Str.strip text)).getD default

/-- `cap_usd`. -/
def capUsd (F : Floats) (host : Host) : Binary64 := envf F host.capText (Binary64.ofInt 25)

/-- A sum as a number of JSON: that of no rows is an integer. -/
def sumJson (entries : List Json) (spent : Binary64) : Json :=
  if entries = [] then .int 0 else .num (.float spent)

/-- The dictionary of `state`. -/
def snapshot (F : Floats) (host : Host) (entries : List Json) (spent : Binary64)
    (intact : Bool) : Dict :=
  let cap := capUsd F host
  [(lit "schema", .str (lit "szl.router_spend/v1")),
    (lit "cap_usd", .num (.float cap)),
    (lit "spent_usd", sumJson entries spent),
    (lit "remaining_usd", .num (.float (Binary64.roundTo 6 (cap.sub spent)))),
    (lit "pct_used", if (0 : Binary64) < cap then
      .num (.float (Binary64.roundTo 2 (((Binary64.ofInt 100).mul spent).div cap))) else .null),
    (lit "armed", .bool false),
    (lit "tripped", .bool (cap ≤ spent)),
    (lit "kill_file_engaged", .bool host.killEngaged),
    (lit "kill_file", .str host.killFile),
    (lit "entries", .int entries.length),
    (lit "chain", .obj [(lit "intact", .bool intact), (lit "entries", .int entries.length)]),
    (lit "tail", .arr (entries.drop (entries.length - 8))),
    (lit "ledger_file", .str host.ledgerFile),
    (lit "generated", .str host.generated)]

/-- `state`, or the exception it raises. -/
def state (F : Floats) (L : Limits) (host : Host) (ledger : Option Bytes) : Except Str Dict :=
  match readEntries L ledger with
  | none => .error (lit "UnicodeDecodeError")
  | some entries => do
    let amounts ← entries.mapM (amountOf F)
    let intact ← chainIntact L entries
    pure (snapshot F host entries (Binary64.roundTo 6 (F.sum amounts)) intact)

/-! ### The shape of a row -/

/-- A value that counts as an amount: nothing, a boolean, a number in the range of a double,
or a text that says a number. -/
inductive Amount (F : Floats) : Json → Prop
  | nothing {v : Json} (falsy : v.truthy = false) : Amount F v
  | bool (b : Bool) : Amount F (.bool b)
  | int {n : ℤ} (finite : (Binary64.ofInt n).isFinite = true) : Amount F (.num (.int n))
  | float (x : Binary64) : Amount F (.num (.float x))
  | text {s : Str} {x : Binary64} (number : F.ofText s = some x) : Amount F (.str s)

variable (F : Floats) (L : Limits)

/-- The line is a row in the shape that the readers assume: an object with a digest and an
amount. -/
def WellFormed (line : Str) : Prop :=
  ∃ e d, loadsWithin plainLoads L.loads (Str.strip line) = some (.obj e) ∧
    field e (lit "digest") = .str d ∧ Amount F (field e (lit "amount_usd"))

/-- A row is nested too deep to be written, and the rows before it are a hash chain that goes
on from a digest; none of them is marked as corrupt, and neither is the row. -/
def TooDeep (prev : Str) (entries : List Json) : Prop :=
  ∃ before e after, entries = before ++ .obj e :: after ∧
    HashChain.Linked hashLink prev (before.map link) ∧
    (∀ e', .obj e' ∈ before ++ [.obj e] → (field e' (lit "corrupt")).truthy = false) ∧
    L.dumps < (Json.obj (bodyOf e)).nesting

/-- The bytes are UTF-8, a line that can be read as JSON is an object with an amount, and the
rows that begin a hash chain are followed by none that is nested too deep to be written. -/
def Readable (ledger : Option Bytes) : Prop :=
  ∀ b ∈ ledger, ∃ text, decodeUtf8 b = some text ∧
    (∀ line ∈ lines text, ∀ row, loadsWithin plainLoads L.loads (Str.strip line) = some row →
      ∃ e, row = .obj e ∧ Amount F (field e (lit "amount_usd"))) ∧
    ¬TooDeep L genesis ((lines text).filterMap (readLine L))

/-- The rows, their sum, the check of the chain and the report on all of them return, and a line
that is not blank and no row breaks the chain. -/
def Inspects (host : Host) (ledger : Option Bytes) : Prop :=
  ∃ entries spent intact, readEntries L ledger = some entries ∧
    spentUsd F L ledger = .ok spent ∧ chainIntact L entries = .ok intact ∧
    state F L host ledger = .ok (snapshot F host entries spent intact) ∧
    ∀ b ∈ ledger, ∀ text, decodeUtf8 b = some text → ∀ line ∈ lines text,
      Str.strip line ≠ [] → ¬WellFormed F L line → intact = false

variable {F L}

/-! ### Amounts -/

theorem amountOf_ok_iff (row : Json) :
    Counted F row ↔ ∃ e, row = .obj e ∧ Amount F (field e (lit "amount_usd")) := by
  constructor
  -- which conversions of the amount return
  · rintro ⟨x, hx⟩
    cases row with
    | obj e =>
      refine ⟨e, rfl, ?_⟩
      rw [amountOf] at hx
      -- a falsy amount counts as zero before any conversion is tried
      by_cases hfalsy : (field e (lit "amount_usd")).truthy = false
      · exact .nothing hfalsy
      rw [if_neg hfalsy] at hx
      cases hv : field e (lit "amount_usd") with
      | bool b => exact .bool b
      | num n =>
        cases n with
        | int n =>
          rw [hv] at hx
          dsimp only at hx
          split_ifs at hx with hfinite
          exact .int hfinite
        | float x => exact .float x
      | str s =>
        rw [hv] at hx
        dsimp only at hx
        cases hs : F.ofText s with
        | some x => exact .text hs
        | none =>
          rw [hs] at hx
          cases hx
      | null | arr _ | obj _ =>
        rw [hv] at hx
        cases hx
    | null | bool _ | num _ | str _ | arr _ => cases hx
  · rintro ⟨e, rfl, hamount⟩
    rw [Counted, amountOf]
    by_cases hfalsy : (field e (lit "amount_usd")).truthy = false
    · exact ⟨0, if_pos hfalsy⟩
    rw [if_neg hfalsy]
    generalize field e (lit "amount_usd") = v at hamount hfalsy
    cases hamount with
    | nothing h => exact absurd h hfalsy
    | bool b => exact ⟨_, rfl⟩
    | int finite => exact ⟨_, if_pos finite⟩
    | float x => exact ⟨x, rfl⟩
    | @text s x number => exact ⟨x, by simp only [number]⟩

/-- What the rows of a text are. -/
theorem mem_rows_iff {text : Str} {row : Json} :
    row ∈ (lines text).filterMap (readLine L) ↔ ∃ line ∈ lines text, Str.strip line ≠ [] ∧
      (loadsWithin plainLoads L.loads (Str.strip line) = some row ∨
        loadsWithin plainLoads L.loads (Str.strip line) = none ∧ row = corruptRow) := by
  rw [List.mem_filterMap]
  refine exists_congr fun line => and_congr_right fun _ => ?_
  rw [readLine]
  by_cases hblank : Str.strip line = []
  · simp [hblank]
  · rw [if_neg hblank]
    cases loadsWithin plainLoads L.loads (Str.strip line) with
    | none => simp [hblank, eq_comm]
    | some v => simp [hblank]

theorem counted_rows_iff (text : Str) :
    (∀ row ∈ (lines text).filterMap (readLine L), Counted F row) ↔
      ∀ line ∈ lines text, ∀ row, loadsWithin plainLoads L.loads (Str.strip line) = some row →
        ∃ e, row = .obj e ∧ Amount F (field e (lit "amount_usd")) := by
  constructor
  · intro h line hline row hrow
    have hblank : Str.strip line ≠ [] := fun hnil => by
      have hloads := loads_of_within hrow
      rw [hnil] at hloads
      exact nomatch hloads
    exact (amountOf_ok_iff row).mp (h row (mem_rows_iff.mpr ⟨line, hline, hblank, .inl hrow⟩))
  · intro h row hrow
    obtain ⟨line, hline, -, hloads | ⟨-, rfl⟩⟩ := mem_rows_iff.mp hrow
    · exact (amountOf_ok_iff row).mpr (h line hline row hloads)
    · exact counted_corruptRow F

theorem counted_of_mapM {entries : List Json} {amounts : List Binary64}
    (h : entries.mapM (amountOf F) = .ok amounts) : ∀ row ∈ entries, Counted F row := by
  induction entries generalizing amounts with
  | nil => exact fun _ hrow => absurd hrow List.not_mem_nil
  | cons row entries ih =>
    rw [List.mapM_cons] at h
    cases hrow : amountOf F row with
    | error e =>
      rw [hrow] at h
      exact nomatch h
    | ok x =>
      rw [hrow] at h
      cases hrest : entries.mapM (amountOf F) with
      | error e =>
        rw [hrest] at h
        exact nomatch h
      | ok xs => exact List.forall_mem_cons.mpr ⟨⟨x, hrow⟩, ih hrest⟩

/-! ### The chain check -/

/-- An object that was read has a digest under a text that can be encoded, within the limit. -/
theorem digest_returns {prev : Str} (hprev : Ascii prev) {e : Dict}
    (hdump : dumpable bodyDumps (.obj e) = true)
    (hlimit : (Json.obj (bodyOf e)).nesting ≤ L.dumps) :
    ∃ h, digest L prev (bodyOf e) = some h ∧ Ascii h := by
  have hbody : dumpable bodyDumps (.obj (bodyOf e)) = true := by
    rw [dumpable, dumpableFields_iff] at hdump ⊢
    exact fun p hp => hdump p (List.mem_of_mem_filter hp)
  rw [digest, hprev.utf8_eq, dumpsWithin, if_pos hlimit, dumps, if_pos hbody]
  simp only [Option.bind_some, (render_ascii (o := bodyDumps) rfl _).utf8_eq, Option.map_some]
  exact ⟨_, rfl, (full_sha256Hex _).2⟩

/-- Past the limit it raises. -/
theorem digest_tooDeep {prev : Str} {e : Dict}
    (hlimit : L.dumps < (Json.obj (bodyOf e)).nesting) : digest L prev (bodyOf e) = none := by
  rw [digest, dumpsWithin, if_neg (not_le.mpr hlimit)]
  exact Option.bind_eq_none_iff.mpr fun _ _ => rfl

/-- The row that is too deep is the first one, or comes after it in the chain. -/
theorem tooDeep_cons {prev : Str} {e : Dict} {entries : List Json} :
    TooDeep L prev (.obj e :: entries) ↔ (field e (lit "corrupt")).truthy = false ∧
      (L.dumps < (Json.obj (bodyOf e)).nesting ∨
        hashLink (prev, render bodyDumps (.obj (bodyOf e))) = digestOf (.obj e) ∧
          TooDeep L (digestOf (.obj e)) entries) := by
  constructor
  · rintro ⟨before, e', after, hsplit, hlinked, hunmarked, hdeep⟩
    -- the row that is too deep is this one, or it comes later and this one is linked
    cases before with
    | nil =>
      obtain rfl := Json.obj.inj (List.cons.inj hsplit).1
      exact ⟨hunmarked _ List.mem_cons_self, .inl hdeep⟩
    | cons row before =>
      obtain ⟨rfl, rfl⟩ := List.cons.inj hsplit
      exact ⟨hunmarked _ List.mem_cons_self, .inr ⟨hlinked.1, before, e', after, rfl, hlinked.2,
        fun e'' h => hunmarked e'' (List.mem_cons_of_mem _ h), hdeep⟩⟩
  · rintro ⟨hunmarked, hdeep | ⟨hlink, before, e', after, rfl, hlinked, hrest, hdeep⟩⟩
    · refine ⟨[], e, entries, rfl, trivial, fun e' h => ?_, hdeep⟩
      rwa [Json.obj.inj (List.mem_singleton.mp h)]
    · refine ⟨.obj e :: before, e', after, rfl, ⟨hlink, hlinked⟩, fun e'' h => ?_, hdeep⟩
      rcases List.mem_cons.mp h with h | h
      · rwa [Json.obj.inj h]
      · exact hrest e'' h

/-- A row carries the digest that a link of the chain has. -/
theorem field_of_digestOf {e : Dict} {x : Str × Str} (h : hashLink x = digestOf (.obj e)) :
    field e (lit "digest") = .str (hashLink x) := by
  have hne : hashLink x ≠ [] := by
    intro hnil
    have hlength := (full_sha256Hex (hashed x)).1
    rw [hashLink] at hnil
    rw [hnil] at hlength
    exact absurd hlength (by decide)
  rw [digestOf] at h
  split at h
  · rename_i d hd
    rw [h, hd]
  · exact absurd h hne

/-- **The chain check returns** on objects that were read, unless it comes to one that is
nested too deep to be written. -/
theorem chainFrom_returns_iff {prev : Str} {entries : List Json} (hprev : Ascii prev)
    (h : ∀ row ∈ entries, ∃ e, row = .obj e ∧ dumpable bodyDumps (.obj e) = true) :
    (∃ intact, chainFrom L prev entries = .ok intact) ↔ ¬TooDeep L prev entries := by
  induction entries generalizing prev with
  | nil =>
    refine iff_of_true ⟨true, rfl⟩ ?_
    rintro ⟨before, e, after, hsplit, -⟩
    exact absurd hsplit (by simp)
  | cons row entries ih =>
    obtain ⟨⟨e, rfl, hdump⟩, hrest⟩ := List.forall_mem_cons.mp h
    rw [tooDeep_cons]
    by_cases hcorrupt : (field e (lit "corrupt")).truthy = true
    · -- a marked row ends the check
      refine iff_of_true ⟨false, ?_⟩ fun hdeep => Bool.false_ne_true (hdeep.1.symm.trans hcorrupt)
      rw [chainFrom, if_pos hcorrupt]
    have hunmarked := Bool.eq_false_of_not_eq_true hcorrupt
    by_cases hlimit : (Json.obj (bodyOf e)).nesting ≤ L.dumps
    · obtain ⟨d, hd, hascii⟩ := digest_returns hprev hdump hlimit
      obtain rfl := (digest_eq hd).2
      rw [chainFrom, if_neg hcorrupt, hd]
      dsimp only
      clear hd
      set d := hashLink (prev, render bodyDumps (.obj (bodyOf e))) with hd
      by_cases hdigest : field e (lit "digest") = .str d
      · -- the row carries its digest, and the check goes on from there
        have hlink : digestOf (.obj e) = d := by rw [digestOf, hdigest]
        rw [if_neg fun hne => hne hdigest, hlink]
        refine (ih hascii hrest).trans (not_congr ⟨fun hdeep => ⟨hunmarked, .inr ⟨rfl, hdeep⟩⟩, ?_⟩)
        rintro ⟨_, hdeep | ⟨_, hdeep⟩⟩
        · exact absurd hdeep (not_lt.mpr hlimit)
        · exact hdeep
      · -- the chain is broken here, so nothing after it is reached
        rw [if_pos hdigest]
        refine iff_of_true ⟨false, rfl⟩ ?_
        rintro ⟨_, hdeep | ⟨hlink, _⟩⟩
        · exact hdeep.not_ge hlimit
        · exact hdigest (field_of_digestOf hlink)
    · -- the row raises, and it is the first that does
      have hdeep := not_le.mp hlimit
      refine iff_of_false ?_ (not_not.mpr ⟨hunmarked, .inl hdeep⟩)
      rintro ⟨intact, hintact⟩
      rw [chainFrom, if_neg hcorrupt, digest_tooDeep hdeep] at hintact
      cases hintact

/-- The rows of an intact chain carry a digest and are not marked. -/
theorem rows_of_intact {prev : Str} {entries : List Json}
    (h : chainFrom L prev entries = .ok true) :
    ∀ row ∈ entries, ∃ e d, Carries row e d ∧ (field e (lit "corrupt")).truthy = false := by
  induction entries generalizing prev with
  | nil => exact fun _ hrow => absurd hrow List.not_mem_nil
  | cons row entries ih =>
    obtain ⟨e, hcarries, hcorrupt, hrest⟩ := chainFrom_cons h
    exact List.forall_mem_cons.mpr ⟨⟨e, _, hcarries, hcorrupt⟩, ih hrest⟩

/-- **A line that is no row breaks the chain**, if its amount can be summed. It is read as a row
that is marked as corrupt, and the check of the chain stops at the mark. -/
theorem not_intact_of_malformed {text line : Str}
    (hcounted : ∀ row ∈ (lines text).filterMap (readLine L), Counted F row)
    (hline : line ∈ lines text) (hblank : Str.strip line ≠ [])
    (hmalformed : ¬WellFormed F L line) :
    chainIntact L ((lines text).filterMap (readLine L)) ≠ .ok true := by
  intro hintact
  have hrows := rows_of_intact hintact
  cases hloads : loadsWithin plainLoads L.loads (Str.strip line) with
  | none =>
    have hmem : corruptRow ∈ (lines text).filterMap (readLine L) :=
      mem_rows_iff.mpr ⟨line, hline, hblank, .inr ⟨hloads, rfl⟩⟩
    obtain ⟨e, d, hcarries, hcorrupt⟩ := hrows _ hmem
    rw [← Json.obj.inj hcarries.1] at hcorrupt
    exact absurd hcorrupt (by decide)
  | some row =>
    have hmem : row ∈ (lines text).filterMap (readLine L) :=
      mem_rows_iff.mpr ⟨line, hline, hblank, .inl hloads⟩
    obtain ⟨e, d, ⟨rfl, hdigest, _⟩, _⟩ := hrows _ hmem
    obtain ⟨e', he', hamount⟩ := (amountOf_ok_iff _).mp (hcounted _ hmem)
    obtain rfl := Json.obj.inj he'
    exact hmalformed ⟨e, d, hloads, hdigest, hamount⟩

/-! ### Inspection -/

theorem dumpable_corruptRow : dumpable bodyDumps corruptRow = true := by decide +kernel

/-- The rows of a ledger can be written again. -/
theorem dumpable_rows {b : Bytes} {text : Str} (h : decodeUtf8 b = some text) :
    ∀ row ∈ (lines text).filterMap (readLine L), dumpable bodyDumps row = true := by
  intro row hrow
  obtain ⟨line, hline, -, hloads | ⟨-, rfl⟩⟩ := mem_rows_iff.mp hrow
  · have hclean : Clean (Str.strip line) :=
      (decodeUtf8_clean h).mono (List.Subset.trans (strip_subset line) (mem_of_mem_lines hline))
    exact loads_dumpable rfl hclean (loads_of_within hloads)
  · exact dumpable_corruptRow

/-- What is inspected when the amounts can be summed and the chain check returns. -/
theorem inspects_of_rows (host : Host) {ledger : Option Bytes} {entries : List Json}
    {amounts : List Binary64} {intact : Bool} (hread : readEntries L ledger = some entries)
    (hamounts : entries.mapM (amountOf F) = .ok amounts)
    (hchain : chainIntact L entries = .ok intact) :
    spentUsd F L ledger = .ok (Binary64.roundTo 6 (F.sum amounts)) ∧
      state F L host ledger =
        .ok (snapshot F host entries (Binary64.roundTo 6 (F.sum amounts)) intact) := by
  constructor
  · rw [spentUsd, hread]
    simp only [hamounts]
    rfl
  · rw [state, hread]
    simp only [hamounts, hchain]
    rfl

/-- The rows of a text whose amounts can be summed are objects that can be written again. -/
theorem objects_of_counted {b : Bytes} {text : Str} (htext : decodeUtf8 b = some text)
    (hcounted : ∀ row ∈ (lines text).filterMap (readLine L), Counted F row) :
    ∀ row ∈ (lines text).filterMap (readLine L),
      ∃ e, row = .obj e ∧ dumpable bodyDumps (.obj e) = true := by
  intro row hrow
  obtain ⟨e, rfl, -⟩ := (amountOf_ok_iff row).mp (hcounted row hrow)
  exact ⟨e, rfl, dumpable_rows htext _ hrow⟩

/-- **The ledgers that can be inspected**: their bytes are UTF-8, each line that can be read
as JSON is an object whose amount can be summed, and the chain check comes to no row that is
nested too deep to be written. -/
theorem inspects_iff (F : Floats) (L : Limits) (host : Host) (ledger : Option Bytes) :
    Inspects F L host ledger ↔ Readable F L ledger := by
  constructor
  · rintro ⟨entries, spent, intact, hread, hspent, hchain, -, -⟩ b rfl
    obtain ⟨text, htext, rfl⟩ := Option.map_eq_some_iff.mp hread
    -- what was spent is a sum over all rows, so each of them has an amount
    have hcounted : ∀ row ∈ (lines text).filterMap (readLine L), Counted F row := by
      rw [spentUsd, hread] at hspent
      cases hamounts : ((lines text).filterMap (readLine L)).mapM (amountOf F) with
      | error e =>
        simp only [hamounts] at hspent
        cases hspent
      | ok amounts => exact counted_of_mapM hamounts
    refine ⟨text, htext, (counted_rows_iff text).mp hcounted, ?_⟩
    -- and is an object, as a row without an amount to read raises
    have hobjects := objects_of_counted htext hcounted
    exact (chainFrom_returns_iff full_genesis.2 hobjects).mp ⟨intact, hchain⟩
  · intro hreadable
    cases ledger with
    | none =>
      have hrows : spentUsd F L none = _ ∧ _ := inspects_of_rows host rfl rfl rfl
      exact ⟨[], _, true, rfl, hrows.1, rfl, hrows.2, fun b hb => by cases hb⟩
    | some b =>
      obtain ⟨text, htext, hlines, hdeep⟩ := hreadable b rfl
      have hcounted := (counted_rows_iff text).mpr hlines
      obtain ⟨amounts, hamounts⟩ := mapM_ok hcounted
      have hread : readEntries L (some b) = some _ := readEntries_eq htext
      have hobjects := objects_of_counted htext hcounted
      obtain ⟨intact, hchain⟩ := (chainFrom_returns_iff full_genesis.2 hobjects).mpr hdeep
      have hrows := inspects_of_rows host hread hamounts hchain
      refine ⟨_, _, intact, hread, hrows.1, hchain, hrows.2, ?_⟩
      rintro b' ⟨⟩ text' htext' line hline hblank hmalformed
      obtain rfl := Option.some.inj (htext.symm.trans htext')
      -- a malformed line is marked, and a marked row breaks the chain
      have hbroken := not_intact_of_malformed hcounted hline hblank hmalformed
      rw [chainIntact, hchain] at hbroken
      cases intact with
      | false => rfl
      | true => exact absurd rfl hbroken

/-! ### A row that is an array -/

def plainHost : Host := ⟨[], [], false, [], []⟩

/-- A ledger whose only line is `[1]`. -/
def arrayLedger : Option Bytes := utf8 (lit "[1]" ++ [10])

theorem not_inspects_arrayLedger : ¬∀ F L host ledger, Inspects F L host ledger := by
  intro h
  obtain ⟨entries, spent, intact, -, hspent, -⟩ := h plainFloats plainLimits plainHost arrayLedger
  have herror : spentUsd plainFloats plainLimits arrayLedger = .error (lit "AttributeError") := by
    decide +kernel
  exact nomatch herror.symm.trans hspent

end SpendGuard

end SzlRouter
