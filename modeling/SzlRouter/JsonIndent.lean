/-
`json.dumps` with an indent of two.

Each member stands on a line of its own, with a comma and no blank at its end.

* `loads_renderIndent` — reading an object of scalars gives back its normal form,
  whatever blanks follow.
-/
import SzlRouter.JsonRoundTrip

namespace Py

/-- A line break and the indent after it. -/
def newline (depth : ℕ) : Str := 10 :: List.replicate (2 * depth) (chr ' ')

mutual

def renderIndent (o : DumpOpts) : Json → ℕ → Str
  | .arr xs, d =>
    if xs.isEmpty then lit "[]"
    else chr '[' :: (newline (d + 1) ++
      Str.join (chr ',' :: newline (d + 1)) (renderIndentList o xs (d + 1)) ++
      (newline d ++ [chr ']']))
  | .obj kvs, d =>
    if kvs.isEmpty then lit "{}"
    else chr '{' :: (newline (d + 1) ++
      Str.join (chr ',' :: newline (d + 1))
        ((o.order (renderIndentFields o kvs (d + 1))).map (member o)) ++
      (newline d ++ [chr '}']))
  | v, _ => render o v

def renderIndentList (o : DumpOpts) : List Json → ℕ → List Str
  | [], _ => []
  | x :: xs, d => renderIndent o x d :: renderIndentList o xs d

def renderIndentFields (o : DumpOpts) : List (Str × Json) → ℕ → List (Str × Str)
  | [], _ => []
  | (k, v) :: kvs, d => (k, renderIndent o v d) :: renderIndentFields o kvs d

end

/-- `json.dumps(value, indent=2)`. -/
def dumpsIndent (o : DumpOpts) (v : Json) : Option Str :=
  if dumpable o v then some (renderIndent o v 0) else none

/-- A value with no members. -/
def Scalar : Json → Prop
  | .arr _ | .obj _ => False
  | _ => True

theorem renderIndent_scalar (o : DumpOpts) {v : Json} (h : Scalar v) (d : ℕ) :
    renderIndent o v d = render o v := by
  cases v with
  | arr xs => exact absurd h id
  | obj kvs => exact absurd h id
  | _ => rfl

theorem renderIndentFields_eq (o : DumpOpts) {kvs : List (Str × Json)}
    (h : ∀ p ∈ kvs, Scalar p.2) (d : ℕ) :
    renderIndentFields o kvs d = kvs.map fun p => (p.1, render o p.2) := by
  induction kvs with
  | nil => rfl
  | cons p kvs ih =>
    obtain ⟨hp, hkvs⟩ := List.forall_mem_cons.mp h
    rw [renderIndentFields, renderIndent_scalar o hp, ih hkvs, List.map_cons]

theorem skipWs_blanks {b : Str} (hb : ∀ c ∈ b, isWs c = true) (t : Str) :
    skipWs (b ++ t) = skipWs t := by
  induction b with
  | nil => rfl
  | cons c b ih =>
    obtain ⟨hc, hrest⟩ := List.forall_mem_cons.mp hb
    rw [List.cons_append, skipWs, List.dropWhile_cons, if_pos hc]
    exact ih hrest

theorem isWs_newline (d : ℕ) : ∀ c ∈ newline d, isWs c = true := by
  intro c hc
  rcases List.mem_cons.mp hc with rfl | hc
  · decide
  · rw [(List.mem_replicate.mp hc).2]
    decide

theorem ends_blanks {b : Str} (hb : ∀ c ∈ b, isWs c = true) {c : CodePoint} (t : Str)
    (hc : Str.isDigit c = false ∧ c ≠ chr '.' ∧ c ≠ chr 'e' ∧ c ≠ chr 'E') :
    Numeral.Ends (b ++ c :: t) := by
  cases b with
  | nil => exact ends_cons t hc
  | cons d b =>
    refine ends_cons _ ?_
    have hd := (List.forall_mem_cons.mp hb).1
    rw [isWs, decide_eq_true_iff] at hd
    refine ⟨?_, ?_, ?_, ?_⟩
    · refine decide_eq_false ?_
      omega
    all_goals
      rintro rfl
      revert hd
      decide

/-- The members are read one line after the other. -/
theorem scanMembers_indent (o : DumpOpts) (lo : LoadOpts) {kvs : List (Str × Json)}
    (hne : kvs ≠ []) (h : ∀ p ∈ kvs, ReadsBack o lo p.2) (d e n : ℕ) (r : Str)
    (hn : (Str.join (chr ',' :: newline d)
      (kvs.map fun p => member o (p.1, render o p.2))).length + 1 < n) :
    scanMembers lo n (Str.join (chr ',' :: newline d)
        (kvs.map fun p => member o (p.1, render o p.2)) ++ (newline e ++ chr '}' :: r))
      = some (kvs.map fun p => (o.text p.1, norm o p.2), r) := by
  -- by induction on the members; the last one is followed by the closing brace
  induction kvs generalizing n with
  | nil => exact absurd rfl hne
  | cons p kvs ih =>
    rcases n with _ | n
    · omega
    have hv := h p List.mem_cons_self
    cases kvs with
    | nil =>
      simp only [List.map_cons, List.map_nil, Str.join] at hn ⊢
      have hskip : skipWs (newline e ++ chr '}' :: r) = chr '}' :: r := by
        rw [skipWs_blanks (isWs_newline e), skipWs_cons r (by decide)]
      rw [scanMembers_member o lo hv (by omega) hskip (ends_blanks (isWs_newline e) r (by decide))
        (.inl rfl), if_pos rfl]
    | cons q kvs =>
      have hlen : (chr ',' :: newline d).length = 2 * d + 2 := by
        simp [newline]
      rw [List.map_cons, List.map_cons, length_join_cons_cons, hlen] at hn
      have htail := ih (List.cons_ne_nil _ _) (fun z hz => h z (List.mem_cons_of_mem _ hz)) n
        (by rw [List.map_cons]; omega)
      rw [List.map_cons] at htail
      rw [List.map_cons, List.map_cons, join_cons_cons, List.cons_append,
        scanMembers_member o lo hv (by omega) (skipWs_cons _ (by decide)) (ends_cons _ (by decide))
          (.inr rfl), if_neg (by decide), skipWs_blanks (isWs_newline d)]
      -- the next member starts with its quote, after the blanks of the line break
      have hstart : Starts (Str.join (chr ',' :: newline d) (member o (q.1, render o q.2) ::
          kvs.map fun p => member o (p.1, render o p.2)) ++ (newline e ++ chr '}' :: r)) := by
        cases kvs with
        | nil => exact (starts_member o _).append _
        | cons q' kvs => exact (((starts_member o _).append _).append _).append _
      rw [hstart.skipWs, htail]
      rfl

theorem renderIndent_obj (o : DumpOpts) {kvs : List (Str × Json)} (hne : kvs ≠ [])
    (hscalar : ∀ p ∈ kvs, Scalar p.2) (d : ℕ) :
    renderIndent o (.obj kvs) d = chr '{' :: (newline (d + 1) ++
      Str.join (chr ',' :: newline (d + 1))
        ((o.order kvs).map fun p => member o (p.1, render o p.2)) ++
      (newline d ++ [chr '}'])) := by
  rw [renderIndent, if_neg (by simpa using hne), renderIndentFields_eq o hscalar,
    o.order_map kvs (fun p => (p.1, render o p.2)) fun _ => rfl, List.map_map]
  rfl

/-- **The round trip**, for an object of scalars and whatever blanks follow it. Indenting puts in
line breaks and blanks between the tokens, which the scanner skips. -/
theorem loads_renderIndent {o : DumpOpts} {lo : LoadOpts}
    (hlo : o.allowNaN = true → lo.constants = true) {kvs : List (Str × Json)} (hne : kvs ≠ [])
    (hscalar : ∀ p ∈ kvs, Scalar p.2) (hkeys : (kvs.map fun p => o.text p.1).Nodup)
    (hdump : dumpable o (.obj kvs) = true) {b : Str} (hb : ∀ c ∈ b, isWs c = true) :
    loads lo (renderIndent o (.obj kvs) 0 ++ b) = some (norm o (.obj kvs)) := by
  -- the members are scalars, so each of them is read back
  have hback : ∀ p ∈ o.order kvs, ReadsBack o lo p.2 := by
    intro p hp
    have hmem := (o.order_perm kvs).mem_iff.mp hp
    rw [dumpable, dumpableFields_iff] at hdump
    refine readsBack o lo hlo p.2 (hdump p hmem) ?_
    intro _
    have := hscalar p hmem
    cases hp2 : p.2 with
    | arr xs => rw [hp2] at this; exact absurd this id
    | obj kvs => rw [hp2] at this; exact absurd this id
    | _ => trivial
  have hnodup : ((rereadMembers o kvs).map Prod.fst).Nodup := nodup_rereadMembers hkeys
  have hbuild := build_eq lo fun _ => hnodup
  rw [rereadMembers] at hbuild
  -- writing orders the members, and drops none
  have hne' : o.order kvs ≠ [] := by
    intro h
    have := (o.order_perm kvs).length_eq
    rw [h] at this
    exact hne (List.length_eq_zero_iff.mp this.symm)
  rw [renderIndent_obj o hne hscalar, norm_obj, rereadMembers, loads]
  generalize o.order kvs = ms at *
  obtain ⟨p, ps, rfl⟩ := List.exists_cons_of_ne_nil hne'
  have hstart : Starts (Str.join (chr ',' :: newline (0 + 1))
      ((p :: ps).map fun p => member o (p.1, render o p.2)) ++ (newline 0 ++ chr '}' :: b)) := by
    cases ps with
    | nil => exact (starts_member o _).append _
    | cons q ps => exact (((starts_member o _).append _).append _).append _
  -- the text bracketed as the scanner takes it apart
  have htext : chr '{' :: (newline (0 + 1) ++ Str.join (chr ',' :: newline (0 + 1))
        ((p :: ps).map fun p => member o (p.1, render o p.2)) ++ (newline 0 ++ [chr '}'])) ++ b =
      chr '{' :: (newline (0 + 1) ++ (Str.join (chr ',' :: newline (0 + 1))
        ((p :: ps).map fun p => member o (p.1, render o p.2)) ++ (newline 0 ++ chr '}' :: b))) := by
    simp
  rw [htext, skipWs_cons _ (by decide), scanValue, if_neg (by decide), if_neg (by decide),
    if_pos rfl, skipWs_blanks (isWs_newline _), hstart.skipWs]
  have hhead : (Str.join (chr ',' :: newline (0 + 1))
      ((p :: ps).map fun p => member o (p.1, render o p.2)) ++ (newline 0 ++ chr '}' :: b)).head? ≠
      some (chr '}') := by
    obtain ⟨c, u, hcu, -, -, hc⟩ := hstart
    rw [hcu]
    exact fun h => hc (Option.some_inj.mp h)
  -- the members and the closing brace; blanks are all that is left
  have hmembers := scanMembers_indent o lo (List.cons_ne_nil p ps) hback (0 + 1) 0
    ((chr '{' :: (newline (0 + 1) ++ (Str.join (chr ',' :: newline (0 + 1))
      ((p :: ps).map fun p => member o (p.1, render o p.2)) ++
        (newline 0 ++ chr '}' :: b)))).length) b
    (by simp only [List.length_cons, List.length_append]; omega)
  rw [if_neg hhead, hmembers]
  dsimp only
  rw [hbuild, Option.map_some]
  dsimp only
  rw [← List.append_nil b, skipWs_blanks hb]
  exact if_pos rfl

end Py
