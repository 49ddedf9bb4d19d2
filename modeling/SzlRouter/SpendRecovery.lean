/-
Recording a spend after a crash.

An append that a crash cuts off leaves an unfinished last line.  The next row is
written on that line, which is then no row any more, and its amount counts as zero.

* `shape_of_left` — what appends can leave behind, the last one cut off or not;
* `record_kept` — a recorded spend is read back exactly when the last line is ended, and
  JSON gives the row back.
-/
import SzlRouter.SpendLedger

namespace SzlRouter

namespace SpendGuard

open Py

/-! ### The amount spent -/

/-- `float` of a text, and `sum`, whose rounding is that of the interpreter. -/
structure Floats where
  ofText : Str → Option Binary64
  sum : List Binary64 → Binary64

/-- `float(e.get("amount_usd", 0) or 0)`, or the exception it raises. -/
def amountOf (F : Floats) : Json → Except Str Binary64
  | .obj e =>
    let v := field e (lit "amount_usd")
    if v.truthy = false then .ok 0
    else match v with
      | .bool _ => .ok (Binary64.ofInt 1)
      | .num (.int n) =>
        if (Binary64.ofInt n).isFinite then .ok (Binary64.ofInt n) else .error (lit "OverflowError")
      | .num (.float x) => .ok x
      | .str s =>
        match F.ofText s with
        | some x => .ok x
        | none => .error (lit "ValueError")
      | _ => .error (lit "TypeError")
  | _ => .error (lit "AttributeError")

/-- `spent_usd`. -/
def spentUsd (F : Floats) (L : Limits) (ledger : Option Bytes) : Except Str Binary64 :=
  match readEntries L ledger with
  | none => .error (lit "UnicodeDecodeError")
  | some entries => (entries.mapM (amountOf F)).map fun xs => Binary64.roundTo 6 (F.sum xs)

/-! ### Crashes -/

/-- What appends can leave behind: each of them is finished, or cut off at any byte. The process
may be killed within any append, and go on with another one. -/
inductive Left : Option Bytes → Prop
  | absent : Left none
  | append {ledger : Option Bytes} {c : Call} {row : Dict} {b written : Bytes}
      (left : Left ledger) (recorded : record c ledger = some (row, b))
      (start : ledger.getD [] <+: written) (cut : written <+: b) : Left (some written)

/-- The rows of the lines that are ended. -/
def completeEntries (L : Limits) (ledger : Option Bytes) : List Json :=
  match decodeUtf8 (ledger.getD []) with
  | none => []
  | some text => (lines text).dropLast.filterMap (readLine L)

/-- The amount that a call adds to the sum. -/
def Call.charged (c : Call) : Binary64 :=
  if (Json.num (.float c.amount)).truthy = false then 0 else c.amount

/-- The row is read back as the last one, its amount is in the sum, and the earlier rows are
still read. -/
def Kept (F : Floats) (L : Limits) (c : Call) (ledger : Option Bytes) (row : Dict)
    (b : Bytes) : Prop :=
  ∃ before last amounts, readEntries L (some b) = some (before ++ [last]) ∧
    unordered last = unordered (.obj row) ∧ completeEntries L ledger <+: before ∧
    before.mapM (amountOf F) = .ok amounts ∧
    spentUsd F L (some b) = .ok (Binary64.roundTo 6 (F.sum (amounts ++ [c.charged])))

/-- The file is missing or empty, or it ends with a line break. -/
def Ended (ledger : Option Bytes) : Prop := ∀ x ∈ (ledger.getD []).getLast?, x = 10

/-- JSON gives the texts of the call back: no high surrogate stands before a low one, and no
metadata object repeats a key. -/
def Call.Faithful (c : Call) : Prop :=
  rowDumps.text c.source = c.source ∧ ∀ d ∈ c.metadata, Stable rowDumps (.obj d)

/-! ### What is left behind -/

/-- A row that can be summed. -/
def Counted (F : Floats) (row : Json) : Prop := ∃ x, amountOf F row = .ok x

theorem counted_corruptRow (F : Floats) : Counted F corruptRow := ⟨0, rfl⟩

/-- The members of a recorded row. -/
abbrev Call.recorded (c : Call) (d : Str) : Dict := c.body ++ [(lit "digest", .str d)]

/-- The digest nests nothing. -/
theorem nesting_recorded (c : Call) (d : Str) :
    (Json.obj (c.recorded d)).nesting = (Json.obj c.body).nesting := by
  refine eq_of_forall_ge_iff fun n => ?_
  cases n with
  | zero => simp [Json.nesting]
  | succ n =>
    rw [Json.nesting, Json.nesting, Nat.succ_le_succ_iff, Nat.succ_le_succ_iff,
      Json.nestingFields_le, Json.nestingFields_le, List.forall_mem_append]
    exact and_iff_left (List.forall_mem_singleton.mpr (Nat.zero_le n))

/-- The keys of a recorded row are read back as they are. -/
theorem text_keys_row (c : Call) (d : Str) : ∀ p ∈ c.recorded d, rowDumps.text p.1 = p.1 := by
  have hkeys : ∀ k ∈ ["ts", "amount_usd", "source", "estimated", "meta", "digest"],
      rowDumps.text (lit k) = lit k := by decide
  have hsub : Dict.keys (c.recorded d) ⊆
      ["ts", "amount_usd", "source", "estimated", "meta", "digest"].map lit := by
    rw [Call.recorded, Call.body]
    rcases c.metadata with _ | (_ | ⟨_, _⟩) <;> simp [Dict.keys]
  intro p hp
  obtain ⟨k, hk, heq⟩ := List.mem_map.mp (hsub (List.mem_map_of_mem hp))
  exact heq ▸ hkeys k hk

theorem nodup_text_row (c : Call) (d : Str) :
    ((c.recorded d).map fun p => rowDumps.text p.1).Nodup := by
  rw [List.map_congr_left (text_keys_row c d)]
  exact (keys_row c d).1

/-- What a member of a recorded row is read back as. -/
theorem get_norm_row {c : Call} {d : Str} {p : Str × Json} (hp : p ∈ c.recorded d) :
    ∃ e, norm rowDumps (.obj (c.recorded d)) = .obj e ∧
      Dict.get e p.1 = some (norm rowDumps p.2) := by
  refine ⟨_, norm_obj_of_nodup (nodup_text_row c d), ?_⟩
  refine (Dict.get_eq_some (nodup_rereadMembers (nodup_text_row c d))).mpr ?_
  rw [rereadMembers]
  refine List.mem_map.mpr ⟨p, (rowDumps.order_perm _).mem_iff.mpr hp, ?_⟩
  rw [text_keys_row c d p hp]

theorem amountOf_norm (F : Floats) (c : Call) (d : Str) :
    amountOf F (norm rowDumps (.obj (c.recorded d))) = .ok c.charged := by
  have hmem : (lit "amount_usd", .num (.float c.amount)) ∈ c.recorded d := by
    simp [Call.recorded, Call.body]
  obtain ⟨e, he, hget⟩ := get_norm_row hmem
  have hfield : field e (lit "amount_usd") = .num (.float c.amount) := by
    rw [field, hget, Option.getD_some, norm.eq_def]
  rw [he, amountOf, hfield, Call.charged]
  dsimp only
  split_ifs <;> rfl

/-- A row alone on its line is read back, within the limit. -/
theorem readLine_row (L : Limits) {c : Call} {d : Str}
    (hdump : dumpable rowDumps (.obj (c.recorded d)) = true) :
    readLine L (render rowDumps (.obj (c.recorded d))) =
      some (if (Json.obj c.body).nesting ≤ L.loads then norm rowDumps (.obj (c.recorded d))
        else corruptRow) := by
  obtain ⟨rest, front, hstart, hend⟩ := render_row c d
  have hstrip : Str.strip (render rowDumps (.obj (c.recorded d))) =
      render rowDumps (.obj (c.recorded d)) := by
    rw [Str.strip, hstart, List.dropWhile_cons, if_neg (by decide), ← hstart, hend, Str.rstripWhile,
      List.reverse_append, List.reverse_singleton, List.singleton_append, List.dropWhile_cons,
      if_neg (by decide), List.reverse_cons, List.reverse_reverse]
  have hloads : loadsWithin plainLoads L.loads (render rowDumps (.obj (c.recorded d))) = _ :=
    loadsWithin_dumps (o := rowDumps) (fun _ => rfl) (fun h => by cases h) (if_pos hdump) L.loads
  rw [readLine, hstrip, if_neg (by rw [hstart]; simp), hloads, nesting_recorded]
  split_ifs <;> rfl

/-- The bytes of an ASCII text. -/
theorem flatMap_ascii {s : Str} (h : Ascii s) :
    s.flatMap utf8Char = s.map fun c : CodePoint => byte c.val := by
  induction s with
  | nil => rfl
  | cons c s ih =>
    have hc : utf8Char c = [byte c.val] := if_pos (h c List.mem_cons_self)
    rw [List.flatMap_cons, hc, ih fun x hx => h x (List.mem_cons_of_mem _ hx)]
    rfl

theorem rowLine_bytes {L : Limits} {row : Dict} {line : Bytes} (h : rowLine L row = some line) :
    line = (render rowDumps (.obj row)).flatMap utf8Char ++ [10] := by
  obtain ⟨text, htext, hline⟩ := Option.bind_eq_some_iff.mp h
  have htext := (dumps_of_within htext).2
  rw [dumps] at htext
  split_ifs at htext
  obtain rfl := Option.some.inj htext
  have hascii : Ascii (render rowDumps (.obj row) ++ [10]) :=
    (render_printable (o := rowDumps) rfl _).ascii.append (by simp [Ascii])
  rw [hascii.utf8_eq, List.flatMap_append] at hline
  exact (Option.some.inj hline).symm

theorem strip_ne_nil {s : Str} {c : CodePoint} (hc : Str.isSpace c = false) :
    Str.strip (c :: s) ≠ [] := by
  rw [Str.strip, List.dropWhile_cons, if_neg (by simp [hc]), Str.rstripWhile]
  intro h
  have hall := List.dropWhile_eq_nil_iff.mp (List.reverse_eq_nil_iff.mp h) c (by simp)
  cases hc.symm.trans hall

/-- A file that appends have left behind: ASCII text, whose lines that are ended can be summed
and whose last line, if it has been started, starts with a brace. -/
structure Shape (F : Floats) (ledger : Option Bytes) (text : Str) (before : List Str)
    (last : Str) : Prop where
  bytes : ledger.getD [] = text.flatMap utf8Char
  ascii : Ascii text
  split : lines text = before ++ [last]
  counted : ∀ L, ∀ w ∈ before, ∀ row ∈ readLine L w, Counted F row
  started : last ≠ [] → last.head? = some (chr '\x7b')
  ended : last = [] ↔ Ended ledger

theorem Shape.decode {F : Floats} {ledger : Option Bytes} {text last : Str} {before : List Str}
    (h : Shape F ledger text before last) : decodeUtf8 (ledger.getD []) = some text := by
  rw [h.bytes]
  exact decodeUtf8_utf8 h.ascii.utf8_eq

theorem Shape.strip {F : Floats} {ledger : Option Bytes} {text last : Str} {before : List Str}
    (h : Shape F ledger text before last) (hne : last ≠ []) : Str.strip last ≠ [] := by
  obtain ⟨c, rest, rfl⟩ := List.exists_cons_of_ne_nil hne
  obtain rfl := Option.some.inj (h.started hne)
  exact strip_ne_nil (by decide)

/-- The line that a row is written on can be summed. -/
theorem Shape.counted_line {F : Floats} {ledger : Option Bytes} {text last : Str}
    {before : List Str} (h : Shape F ledger text before last) {c : Call} {d : Str}
    (hdump : dumpable rowDumps (.obj (c.recorded d)) = true) (L : Limits) :
    readLine L (last ++ render rowDumps (.obj (c.recorded d))) =
      some (if last = [] ∧ (Json.obj c.body).nesting ≤ L.loads then
        norm rowDumps (.obj (c.recorded d)) else corruptRow) := by
  by_cases hlast : last = []
  · rw [hlast, List.nil_append, readLine_row L hdump]
    simp only [true_and]
  · rw [if_neg fun h => hlast h.1, readLine_unfinished (h.strip hlast) hdump]

/-- An append, finished or not, leaves a file of the same shape. -/
theorem Shape.append {F : Floats} {ledger : Option Bytes} {text last : Str}
    {before : List Str} (h : Shape F ledger text before last) {c : Call} {d : Str}
    {line part : Bytes} (hline : rowLine c.limits (c.recorded d) = some line)
    (hpart : part <+: line) :
    ∃ text before last, Shape F (some (ledger.getD [] ++ part)) text before last := by
  obtain ⟨rest, front, hstart, -⟩ := render_row c d
  have hdump := (rowLine_eq hline).1
  have hascii : Ascii (render rowDumps (.obj (c.recorded d))) :=
    (render_printable (o := rowDumps) rfl _).ascii
  obtain ⟨before', last', hlines, happend⟩ := lines_append text
  obtain ⟨rfl, hlast⟩ := List.append_inj' (hlines.symm.trans h.split) rfl
  obtain rfl := List.singleton_inj.mp hlast
  rw [rowLine_bytes hline] at hpart
  rcases List.prefix_concat_iff.mp hpart with rfl | hcut
  · -- the whole line is written
    refine ⟨text ++ (render rowDumps (.obj (c.recorded d)) ++ [10]),
      before' ++ [last' ++ render rowDumps (.obj (c.recorded d))], [], ?_, ?_, ?_, ?_, ?_, ?_⟩
    · rw [Option.getD_some, h.bytes, List.flatMap_append, List.flatMap_append]
      rfl
    · exact h.ascii.append (hascii.append (by simp [Ascii]))
    · rw [happend, (lines_unbroken (render_unbroken _)).2]
      simp
    · intro L w hw row hrow
      rcases List.mem_append.mp hw with hw | hw
      · exact h.counted L w hw row hrow
      · rw [List.mem_singleton.mp hw, h.counted_line hdump] at hrow
        obtain rfl := Option.some.inj hrow
        split_ifs
        · exact ⟨_, amountOf_norm F c d⟩
        · exact counted_corruptRow F
    · exact fun hne => absurd rfl hne
    · refine iff_of_true rfl ?_
      intro x hx
      rw [Option.getD_some, ← List.append_assoc, List.getLast?_concat] at hx
      exact (Option.some.inj hx).symm
  · -- the line is cut off before its end
    obtain ⟨cut, hstarts, rfl⟩ : ∃ cut, cut <+: render rowDumps (.obj (c.recorded d)) ∧
        part = cut.flatMap utf8Char := by
      refine ⟨_, List.take_prefix part.length _, ?_⟩
      rw [flatMap_ascii hascii] at hcut
      rw [flatMap_ascii fun x hx => hascii x (List.mem_of_mem_take hx), List.map_take]
      exact List.prefix_iff_eq_take.mp hcut
    have hprintable : Printable cut := fun x hx =>
      render_printable (o := rowDumps) rfl _ x (hstarts.subset hx)
    have hunbroken : lines cut = [cut] :=
      (lines_unbroken fun x hx => render_unbroken _ x (hstarts.subset hx)).1
    refine ⟨text ++ cut, before', last' ++ cut, ?_, ?_, ?_, h.counted, ?_, ?_⟩
    · rw [Option.getD_some, h.bytes, List.flatMap_append]
    · exact h.ascii.append hprintable.ascii
    · rw [happend, hunbroken]
      rfl
    · intro hne
      by_cases hnil : last' = []
      · obtain ⟨x, cut, rfl⟩ := List.exists_cons_of_ne_nil (by simpa [hnil] using hne)
        rw [hstart] at hstarts
        rw [hnil, (List.cons_prefix_cons.mp hstarts).1]
        rfl
      · rw [List.head?_append_of_ne_nil _ hnil]
        exact h.started hnil
    · by_cases hnil : cut = []
      · rw [hnil, List.append_nil, h.ended, List.flatMap_nil, Ended, Ended, Option.getD_some,
          List.append_nil]
      · refine iff_of_false (by simp [hnil]) fun hended => ?_
        obtain ⟨x, hx⟩ := List.getLast?_isSome.mpr hnil |> Option.isSome_iff_exists.mp
        have hrange := hprintable x (List.mem_of_getLast? hx)
        rw [Ended, Option.getD_some, flatMap_ascii hprintable.ascii, List.getLast?_append,
          List.getLast?_map, hx] at hended
        have hbyte := hended (byte x.val) rfl
        have hval := congrArg Fin.val hbyte
        rw [byte_val (by omega)] at hval
        exact absurd hval (by show x.val ≠ 10; omega)

theorem shape_of_left (F : Floats) {ledger : Option Bytes} (h : Left ledger) :
    ∃ text before last, Shape F ledger text before last := by
  induction h with
  | absent =>
    refine ⟨[], [], [], rfl, ascii_nil, rfl, by simp, fun hne => absurd rfl hne, ?_⟩
    exact iff_of_true rfl nofun
  | append left recorded start cut ih =>
    obtain ⟨text, before, last, hshape⟩ := ih
    obtain ⟨_, d, line, _, _, rfl, hline, rfl⟩ := record_eq_some recorded
    obtain ⟨part, rfl⟩ := start
    exact hshape.append hline ((List.prefix_append_right_inj _).mp cut)

/-! ### The recorded row -/

theorem mapM_ok {α β ε : Type} {f : α → Except ε β} {xs : List α}
    (h : ∀ x ∈ xs, ∃ y, f x = .ok y) : ∃ ys, xs.mapM f = .ok ys := by
  induction xs with
  | nil => exact ⟨[], rfl⟩
  | cons x xs ih =>
    obtain ⟨y, hy⟩ := h x List.mem_cons_self
    obtain ⟨ys, hys⟩ := ih fun x hx => h x (List.mem_cons_of_mem _ hx)
    exact ⟨y :: ys, by rw [List.mapM_cons, hy, hys]; rfl⟩

/-- JSON gives the row back when it gives the texts of the call back. -/
theorem stable_recorded {c : Call} {d : Str} (hd : Ascii d) :
    Stable rowDumps (.obj (c.recorded d)) ↔ c.Faithful := by
  have htext : rowDumps.text d = d := joinPairs_of_ascii hd
  rw [Stable, stableFields_iff]
  constructor
  · rintro ⟨-, hmembers⟩
    refine ⟨(hmembers (lit "source", .str c.source) (by simp [Call.recorded, Call.body])).2, ?_⟩
    intro metadata hmetadata
    cases metadata with
    | nil => exact ⟨List.nodup_nil, trivial⟩
    | cons p ps =>
      refine (hmembers (lit "meta", .obj (p :: ps)) ?_).2
      rw [Call.recorded, Call.body, Option.mem_def.mp hmetadata]
      simp
  -- the source and the metadata are the caller's; all other members are stable as they are
  · rintro ⟨hsource, hmetadata⟩
    refine ⟨(keys_row c d).1, fun p hp => ⟨text_keys_row c d p hp, ?_⟩⟩
    rw [Call.recorded, Call.body] at hp
    cases hc : c.metadata with
    | none =>
      rw [hc] at hp
      simp only [List.append_nil, List.mem_append, List.mem_cons, List.not_mem_nil, or_false] at hp
      rcases hp with (rfl | rfl | rfl | rfl) | rfl
      · trivial
      · trivial
      · exact hsource
      · trivial
      · exact htext
    | some metadata =>
      rw [hc] at hp
      cases metadata with
      | nil =>
        simp only [List.append_nil, List.mem_append, List.mem_cons, List.not_mem_nil,
          or_false] at hp
        rcases hp with (rfl | rfl | rfl | rfl) | rfl
        · trivial
        · trivial
        · exact hsource
        · trivial
        · exact htext
      | cons q qs =>
        simp only [List.mem_append, List.mem_cons, List.not_mem_nil, or_false] at hp
        rcases hp with ((rfl | rfl | rfl | rfl) | rfl) | rfl
        · trivial
        · trivial
        · exact hsource
        · trivial
        · exact hmetadata _ hc
        · exact htext

/-- What is read back of a row that was written is stable. -/
theorem stable_norm_recorded {c : Call} {d : Str}
    (hdump : dumpable rowDumps (.obj (c.recorded d)) = true) :
    Stable rowDumps (norm rowDumps (.obj (c.recorded d))) := by
  have hascii : Ascii (render rowDumps (.obj (c.recorded d))) :=
    (render_printable (o := rowDumps) rfl _).ascii
  exact loads_stable rowDumps hascii.clean
    (@loads_dumps _ plainLoads (fun _ => rfl) _ _ (fun h => nomatch h) (if_pos hdump))

/-- The row that stands for an unreadable line is no recorded row. -/
theorem unordered_corruptRow_ne (c : Call) (d : Str) :
    unordered corruptRow ≠ unordered (.obj (c.recorded d)) := by
  rw [corruptRow, unordered_obj, unordered_obj]
  intro h
  have hlength := congrArg List.length (Json.obj.inj h)
  rw [(sortByKey_perm _).length_eq, (sortByKey_perm _).length_eq] at hlength
  simp [Call.recorded, Call.body] at hlength

/-- What is read after a row was recorded: it, when the file was ended and the row is within
the limit, and else no row. -/
theorem Shape.record {F : Floats} {ledger : Option Bytes} {text last : Str} {before : List Str}
    (hshape : Shape F ledger text before last) {c : Call} {row : Dict} {b : Bytes}
    (h : record c ledger = some (row, b)) (L : Limits) :
    ∃ d, Ascii d ∧ row = c.recorded d ∧ dumpable rowDumps (.obj row) = true ∧
      readEntries L (some b) = some (before.filterMap (readLine L) ++
        [if last = [] ∧ (Json.obj c.body).nesting ≤ L.loads then norm rowDumps (.obj row)
          else corruptRow]) := by
  obtain ⟨text', d, line, htext', hascii, rfl, hline, rfl⟩ := record_eq_some h
  obtain rfl := Option.some.inj (hshape.decode.symm.trans htext')
  have hdump : dumpable rowDumps (.obj (c.recorded d)) = true := (rowLine_eq hline).1
  obtain ⟨before', last', hlines, happend⟩ := lines_append text
  obtain ⟨rfl, hlast⟩ := List.append_inj' (hlines.symm.trans hshape.split) rfl
  obtain rfl := List.singleton_inj.mp hlast
  have hread := readEntries_append_row hshape.decode hline happend L
  rw [hshape.counted_line hdump, Option.toList_some] at hread
  exact ⟨d, hascii, rfl, hdump, hread⟩

/-- On an unfinished line, or past the limit, the row is lost. -/
theorem Shape.not_kept {F : Floats} {L : Limits} {ledger : Option Bytes} {text last : Str}
    {before : List Str} (hshape : Shape F ledger text before last) {c : Call} {row : Dict}
    {b : Bytes} (h : SpendGuard.record c ledger = some (row, b))
    (hlost : ¬(last = [] ∧ (Json.obj c.body).nesting ≤ L.loads)) : ¬Kept F L c ledger row b := by
  obtain ⟨d, -, rfl, -, hread⟩ := hshape.record h L
  rw [if_neg hlost] at hread
  rintro ⟨earlier, final, _, hentries, hsame, _⟩
  have hfinal := (List.append_inj' (Option.some.inj (hread.symm.trans hentries)) rfl).2
  obtain rfl := List.singleton_inj.mp hfinal
  exact unordered_corruptRow_ne c d hsame

/-- On a line of its own the row is kept, as far as JSON gives it back. -/
theorem Shape.kept_iff {F : Floats} {L : Limits} {ledger : Option Bytes} {text : Str}
    {before : List Str} (hshape : Shape F ledger text before []) {c : Call} {row : Dict}
    {b : Bytes} (h : SpendGuard.record c ledger = some (row, b))
    (hlimit : (Json.obj c.body).nesting ≤ L.loads) : Kept F L c ledger row b ↔ c.Faithful := by
  obtain ⟨d, hascii, rfl, hdump, hread⟩ := hshape.record h L
  rw [if_pos ⟨rfl, hlimit⟩] at hread
  rw [← stable_recorded hascii]
  constructor
  -- the new row is the last one that is read
  · rintro ⟨earlier, final, _, hentries, hsame, _⟩
    have hfinal := (List.append_inj' (Option.some.inj (hread.symm.trans hentries)) rfl).2
    obtain rfl := List.singleton_inj.mp hfinal
    exact stable_of_unordered_eq (stable_norm_recorded hdump) hsame
  · intro hstable
    obtain ⟨amounts, hamounts⟩ : ∃ amounts,
        (before.filterMap (readLine L)).mapM (amountOf F) = .ok amounts := by
      refine mapM_ok fun row hrow => ?_
      obtain ⟨w, hw, hreadline⟩ := List.mem_filterMap.mp hrow
      exact hshape.counted L w hw row hreadline
    -- the rows before it are those of the complete lines
    have hcomplete : completeEntries L ledger = before.filterMap (readLine L) := by
      rw [completeEntries, hshape.decode]
      dsimp only
      rw [hshape.split, List.dropLast_concat]
    refine ⟨_, _, amounts, hread, ?_, hcomplete ▸ List.prefix_rfl, hamounts, ?_⟩
    · rw [norm_eq_unordered rfl hstable, unordered_idem]
    · rw [spentUsd, hread]
      dsimp only
      rw [List.mapM_append, hamounts, List.mapM_cons, amountOf_norm]
      rfl

/-- **A recorded spend is kept** exactly when the file before it is missing, empty or ended
by a line break, JSON gives the texts of the call back, and the row is nested no deeper than
its reader can follow.  The file is whatever earlier appends have left, any of them cut off;
the reader may stand at any depth of the stack. -/
theorem record_kept (F : Floats) (L : Limits) {ledger : Option Bytes} (hleft : Left ledger)
    {c : Call} {row : Dict} {b : Bytes} (h : record c ledger = some (row, b)) :
    Kept F L c ledger row b ↔
      Ended ledger ∧ c.Faithful ∧ (Json.obj c.body).nesting ≤ L.loads := by
  obtain ⟨text, before, last, hshape⟩ := shape_of_left F hleft
  rw [← hshape.ended]
  by_cases hkept : last = [] ∧ (Json.obj c.body).nesting ≤ L.loads
  · obtain ⟨rfl, hlimit⟩ := hkept
    rw [hshape.kept_iff h hlimit]
    exact ⟨fun hfaithful => ⟨rfl, hfaithful, hlimit⟩, fun h => h.2.1⟩
  · exact iff_of_false (hshape.not_kept h hkept) fun h => hkept ⟨h.1, h.2.2⟩

/-! One dollar, recorded again and again; a crash cuts an append off after its first byte. -/

def oneDollar : Call := ⟨Binary64.ofInt 1, [], none, 0, true, plainLimits⟩

def plainFloats : Floats := ⟨fun _ => none, fun xs => xs.foldl Binary64.add 0⟩

/-- The file after so many recorded dollars. -/
def dollars (n : ℕ) : Option Bytes := recordAll (List.replicate n oneDollar) none

theorem left_recordAll {ledger : Option Bytes} (h : Left ledger) (calls : List Call) :
    Left (recordAll calls ledger) := by
  induction calls generalizing ledger with
  | nil => exact h
  | cons c calls ih =>
    rw [recordAll, List.foldl_cons, ← recordAll]
    refine ih ?_
    cases hrecord : record c ledger with
    | none => exact h
    | some p =>
      obtain ⟨_, _, line, _, _, _, _, hb⟩ := record_eq_some hrecord
      exact .append h hrecord (hb ▸ List.prefix_append _ _) List.prefix_rfl

set_option maxRecDepth 100000 in
theorem record_oneDollar :
    (record oneDollar none).any (fun p => [123].isPrefixOf p.2) = true ∧
      (record oneDollar (some [123])).isSome = true ∧
      (record oneDollar (dollars 2)).isSome = true ∧ ((dollars 2).getD []).getLast? = some 10 := by
  decide +kernel

/-- A third spend after two others is kept. -/
theorem record_kept_oneDollar : ∃ row b, record oneDollar (dollars 2) = some (row, b) ∧
    Kept plainFloats plainLimits oneDollar (dollars 2) row b := by
  obtain ⟨_, _, hrecord, hlast⟩ := record_oneDollar
  obtain ⟨⟨row, b⟩, hrow⟩ := Option.isSome_iff_exists.mp hrecord
  have hended : Ended (dollars 2) := fun x hx => (Option.some.inj (hlast.symm.trans hx)).symm
  refine ⟨row, b, hrow, (record_kept plainFloats plainLimits ?_ hrow).mpr
    ⟨hended, ⟨rfl, nofun⟩, by decide⟩⟩
  exact left_recordAll .absent _

/-- The spend after the crash is lost. -/
theorem record_not_kept : ¬∀ F L ledger, Left ledger → ∀ c row b,
    record c ledger = some (row, b) → Kept F L c ledger row b := by
  intro hall
  obtain ⟨hfirst, hsecond, _⟩ := record_oneDollar
  obtain ⟨⟨row, b⟩, hfirst, hcut⟩ := (Option.any_eq_true _ _).mp hfirst
  obtain ⟨⟨row', b'⟩, hsecond⟩ := Option.isSome_iff_exists.mp hsecond
  have hleft : Left (some [123]) :=
    .append .absent hfirst List.nil_prefix (List.isPrefixOf_iff_prefix.mp hcut)
  obtain ⟨text, before, last, hshape⟩ := shape_of_left plainFloats hleft
  refine hshape.not_kept hsecond ?_ (hall plainFloats plainLimits _ hleft _ _ _ hsecond)
  rw [hshape.ended]
  exact fun hlast => absurd (hlast.1 123 rfl) (by decide)

end SpendGuard

end SzlRouter
