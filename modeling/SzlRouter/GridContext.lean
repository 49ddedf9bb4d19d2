/-
The grid context of a receipt (`szl_router/grid.py`): a block parsed from the answer of a
public carbon intensity service.

* `Block` — a context in its canonical shape, with its numbers rounded and its labels
  following them;
* `sanitize_sanitize` — sanitizing an accepted block again changes nothing;
* `parse_cases` — what is made of a payload, or the exception that is not caught;
* `fetch_cases`, `fetch_honest_iff` — the payloads of which an honest block is made.
-/
import SzlRouter.DecimalRound
import SzlRouter.Revision

open Py

namespace SzlRouter

namespace Grid

def GRID_LABEL_REPORTED : Str := lit "REPORTED"

def GRID_LABEL_UNAVAILABLE : Str := lit "UNAVAILABLE"

def PROVIDER_UK_CARBON_INTENSITY : Str := lit "uk_carbon_intensity"

def UK_CI_NATIONAL_URL : Str := lit "https://api.carbonintensity.org.uk/intensity"

def CI_KIND_GRID_AVERAGE : Str := lit "grid_average"

/-- A text that is not empty. -/
abbrev FullText : Type := {s : Str // s ≠ []}

/-- `text or default`. -/
def orText : Option Str → FullText → FullText
  | some (c :: s), _ => ⟨c :: s, List.cons_ne_nil c s⟩
  | _, default => default

/-! ### Numbers and texts -/

/-- A finite number. -/
abbrev Finite : Type := {x : Binary64 // x.isFinite = true}

/-- `_finite`; the conversion of an integer out of range raises. -/
def finite : Json → Except Str (Option Finite)
  | .num (.int n) =>
    if h : (Binary64.ofInt n).isFinite = true then .ok (some ⟨_, h⟩)
    else .error (lit "OverflowError")
  | .num (.float x) => if h : x.isFinite = true then .ok (some ⟨x, h⟩) else .ok none
  | _ => .ok none

def strDumps : DumpOpts := ⟨true, false, true, false⟩

/-- No integer in the value has more digits than the interpreter writes. -/
def Writable (v : Json) : Prop := dumpable strDumps v = true

instance (v : Json) : Decidable (Writable v) := inferInstanceAs (Decidable (_ = true))

/-- `str(v)`, where the argument says what the text of an array or an object is. -/
def str (repr : Json → Str) (v : Json) : Except Str Str :=
  if Writable v then .ok ((textOf v).getD (repr v)) else .error (lit "ValueError")

/-- `str(v) if v is not None else None`. -/
def textOr (repr : Json → Str) : Json → Except Str (Option Str)
  | .null => .ok none
  | v => (str repr v).map some

/-! ### Blocks -/

/-- A number as a block carries it, to six decimal places. -/
abbrev Reading : Type := {x : Binary64 // x.isFinite = true ∧ Binary64.roundTo 6 x = x}

def Finite.rounded (x : Finite) : Reading :=
  ⟨Binary64.roundTo 6 x.val, Binary64.isFinite_roundTo (by decide) x.property,
    Binary64.roundTo_roundTo (by decide) x.val⟩

/-- A context in its canonical shape. -/
structure Block where
  provider : Str
  source : FullText
  region : Option Str
  observedAt : Option Str
  fetchedAt : FullText
  carbonIntensity : Option Reading
  carbonIntensityKind : Option Str
  carbonIntensityIndex : Option Str
  price : Option Reading
  note : Str

def optText : Option Str → Json
  | none => .null
  | some s => .str s

def optReading : Option Reading → Json
  | none => .null
  | some x => .num (.float x.val)

def labelOf : Option Reading → Json
  | none => .str GRID_LABEL_UNAVAILABLE
  | some _ => .str GRID_LABEL_REPORTED

def Block.toDict (b : Block) : Dict :=
  [(lit "provider", .str b.provider),
    (lit "source", .str b.source.val),
    (lit "region", optText b.region),
    (lit "observed_at", optText b.observedAt),
    (lit "fetched_at", .str b.fetchedAt.val),
    (lit "carbon_intensity_gco2_per_kwh", optReading b.carbonIntensity),
    (lit "carbon_intensity_kind", optText b.carbonIntensityKind),
    (lit "carbon_intensity_index", optText b.carbonIntensityIndex),
    (lit "carbon_intensity_label", labelOf b.carbonIntensity),
    (lit "price_per_mwh", optReading b.price),
    (lit "price_label", labelOf b.price),
    (lit "note", .str b.note)]

def defaultNote : Str :=
  lit ("REPORTED pass-through grid signal; not a MEASURED joule. This does " ++
    "not create or measure energy.")

/-- The block that `sanitize_grid_context` makes of a dictionary at the time `now`. -/
def Block.ofDict (repr : Json → Str) (now : FullText) (d : Dict) : Except Str Block := do
  let ci ← finite (field d (lit "carbon_intensity_gco2_per_kwh"))
  let price ← finite (field d (lit "price_per_mwh"))
  let provider ← str repr ((Dict.get d (lit "provider")).getD (.str (lit "unspecified")))
  let source ← textOr repr (field d (lit "source"))
  let region ← textOr repr (field d (lit "region"))
  let observedAt ← textOr repr (field d (lit "observed_at"))
  let fetchedAt ← textOr repr (field d (lit "fetched_at"))
  let kind ← textOr repr (field d (lit "carbon_intensity_kind"))
  let index ← textOr repr (field d (lit "carbon_intensity_index"))
  let note ← str repr ((Dict.get d (lit "note")).getD (.str defaultNote))
  pure ⟨provider, orText source ⟨GRID_LABEL_UNAVAILABLE, by decide⟩, region, observedAt,
    orText fetchedAt now, ci.map Finite.rounded, kind, index, price.map Finite.rounded, note⟩

/-- `sanitize_grid_context`. -/
def sanitizeGridContext (repr : Json → Str) (now : FullText) : Json → Except Str Json
  | .null => .ok .null
  | .obj d => (Block.ofDict repr now d).map fun b => .obj b.toDict
  | _ => .error (lit "TypeError")

/-- `unavailable_grid_context`. -/
def unavailableGridContext (provider source : Str) (region : Option Str) (reason : Str)
    (now : FullText) : Dict :=
  let note := lit ("REPORTED grid signal UNAVAILABLE — no value fetched; nothing " ++
    "invented. This does not create or measure energy.")
  [(lit "provider", .str provider),
    (lit "source", .str source),
    (lit "region", optText region),
    (lit "observed_at", .null),
    (lit "fetched_at", .str now.val),
    (lit "carbon_intensity_gco2_per_kwh", .null),
    (lit "carbon_intensity_kind", .null),
    (lit "carbon_intensity_index", .null),
    (lit "carbon_intensity_label", .str GRID_LABEL_UNAVAILABLE),
    (lit "price_per_mwh", .null),
    (lit "price_label", .str GRID_LABEL_UNAVAILABLE),
    (lit "note", .str (if reason = [] then note else note ++ lit " (" ++ reason ++ lit ")"))]

/-! ### Parsing -/

/-- `payload[key]`. -/
def item : Json → Str → Except Str Json
  | .obj d, key =>
    match Dict.get d key with
    | some v => .ok v
    | none => .error (lit "KeyError")
  | _, _ => .error (lit "TypeError")

/-- `data[0]`. -/
def first : Json → Except Str Json
  | .arr (x :: _) => .ok x
  | .arr [] => .error (lit "IndexError")
  | .str (c :: _) => .ok (.str [c])
  | .str [] => .error (lit "IndexError")
  | .obj _ => .error (lit "KeyError")
  | _ => .error (lit "TypeError")

/-- `v.get(key)`. -/
def get : Json → Str → Except Str Json
  | .obj d, key => .ok (field d key)
  | _, _ => .error (lit "AttributeError")

/-- The dictionary that `_parse_uk_carbon_intensity` sanitizes. -/
def parsed (now : FullText) (observedAt index : Json) (value : Finite) (which : Str) : Dict :=
  [(lit "provider", .str PROVIDER_UK_CARBON_INTENSITY),
    (lit "source", .str UK_CI_NATIONAL_URL),
    (lit "region", .str (lit "GB")),
    (lit "observed_at", observedAt),
    (lit "fetched_at", .str now.val),
    (lit "carbon_intensity_gco2_per_kwh", .num (.float value.val)),
    (lit "carbon_intensity_kind", .str CI_KIND_GRID_AVERAGE),
    (lit "carbon_intensity_index", index),
    (lit "price_per_mwh", .null),
    (lit "note", .str (lit "REPORTED grid-average carbon intensity (" ++ which ++
      lit (") from the UK Carbon Intensity API, carried verbatim; NOT marginal, NOT " ++
        "a MEASURED joule. This does not create or measure energy.")))]

/-- `rec.get("intensity", {}) or {}`. -/
def orObject (found : Json) : Json := if found.truthy then found else .obj []

/-- What is made of the first record. -/
def parseRecord (repr : Json → Str) (now : FullText) (record : Json) : Except Str Dict := do
  let intensity := orObject (← get record (lit "intensity"))
  let actual ← finite (← get intensity (lit "actual"))
  let forecast ← finite (← get intensity (lit "forecast"))
  match actual.or forecast with
  | none =>
    pure (unavailableGridContext PROVIDER_UK_CARBON_INTENSITY UK_CI_NATIONAL_URL (some (lit "GB"))
      (lit "no actual/forecast intensity in response") now)
  | some value =>
    let observedAt ← get record (lit "from")
    let index ← get intensity (lit "index")
    let which := if actual.isSome then lit "actual" else lit "forecast"
    let block ← Block.ofDict repr now (parsed now observedAt index value which)
    pure block.toDict

/-- The body of the `try` of `_parse_uk_carbon_intensity`. -/
def tryParse (repr : Json → Str) (now : FullText) (payload : Json) : Except Str Dict := do
  let record ← first (← item payload (lit "data"))
  parseRecord repr now record

/-- What `_parse_uk_carbon_intensity` catches. -/
def shapeErrors : List Str := [lit "KeyError", lit "IndexError", lit "TypeError"]

/-- `_parse_uk_carbon_intensity`. -/
def parseUkCarbonIntensity (repr : Json → Str) (now : FullText) (payload : Json) :
    Except Str Dict :=
  match tryParse repr now payload with
  | .ok block => .ok block
  | .error e =>
    if e ∈ shapeErrors then
      .ok (unavailableGridContext PROVIDER_UK_CARBON_INTENSITY UK_CI_NATIONAL_URL
        (some (lit "GB")) (lit "unexpected response shape") now)
    else .error e

/-- `fetch_grid_context`, on what the transport returns or the name of what it raises. -/
def fetchGridContext (repr : Json → Str) (now : FullText) (provider : Str) (region : Option Str)
    (transport : Except Str Json) : Except Str Dict :=
  if provider ≠ PROVIDER_UK_CARBON_INTENSITY then
    .ok (unavailableGridContext provider (lit "UNAVAILABLE") region
      (lit "unknown/keyless-only provider") now)
  else match transport with
    | .error e =>
      .ok (unavailableGridContext PROVIDER_UK_CARBON_INTENSITY UK_CI_NATIONAL_URL
        (some (lit "GB")) (lit "fetch failed: " ++ e) now)
    | .ok payload => parseUkCarbonIntensity repr now payload

/-! ### Sanitizing twice -/

theorem textOr_optText (repr : Json → Str) (s : Option Str) : textOr repr (optText s) = .ok s := by
  cases s with
  | none => rfl
  | some s => rfl

theorem orText_full (s default : FullText) : orText (some s.val) default = s := by
  obtain ⟨s, hs⟩ := s
  cases s with
  | nil => exact absurd rfl hs
  | cons c s => rfl

/-- A number of a block is read back, and rounded to itself. -/
theorem finite_optReading (x : Option Reading) :
    ∃ r, finite (optReading x) = .ok r ∧ r.map Finite.rounded = x := by
  cases x with
  | none => exact ⟨none, rfl, rfl⟩
  | some x =>
    refine ⟨some ⟨x.val, x.property.1⟩, dif_pos x.property.1, ?_⟩
    exact congrArg some (Subtype.ext x.property.2)

/-- **A block is read back from its dictionary.** Each field of a block is the text or the number
that its own conversion returns, so converting it again changes nothing. -/
theorem Block.ofDict_toDict (repr : Json → Str) (now : FullText) (b : Block) :
    Block.ofDict repr now b.toDict = .ok b := by
  obtain ⟨ci, hci, hreading⟩ := finite_optReading b.carbonIntensity
  obtain ⟨price, hprice, hpriced⟩ := finite_optReading b.price
  have hsource : textOr repr (field b.toDict (lit "source")) = .ok (some b.source.val) := rfl
  have hfetched : textOr repr (field b.toDict (lit "fetched_at")) = .ok (some b.fetchedAt.val) :=
    rfl
  have hprovider : str repr ((Dict.get b.toDict (lit "provider")).getD (.str (lit "unspecified"))) =
      .ok b.provider := rfl
  have hnote : str repr ((Dict.get b.toDict (lit "note")).getD (.str defaultNote)) = .ok b.note :=
    rfl
  rw [Block.ofDict, show field b.toDict (lit "carbon_intensity_gco2_per_kwh") =
      optReading b.carbonIntensity from
      rfl, hci,
    show field b.toDict (lit "price_per_mwh") = optReading b.price from rfl, hprice,
    show field b.toDict (lit "region") = optText b.region from rfl,
    show field b.toDict (lit "observed_at") = optText b.observedAt from rfl,
    show field b.toDict (lit "carbon_intensity_kind") = optText b.carbonIntensityKind from rfl,
    show field b.toDict (lit "carbon_intensity_index") = optText b.carbonIntensityIndex from rfl,
    hsource, hfetched, hprovider, hnote]
  simp only [textOr_optText, bind, Except.bind, pure, Except.pure, orText_full, hreading, hpriced]

/-- **Sanitizing an accepted block again changes nothing**, at whatever time. The time of
fetching is taken from the block, where the first sanitizing has put one. -/
theorem sanitize_sanitize (repr : Json → Str) (now now' : FullText) {block out : Json}
    (h : sanitizeGridContext repr now block = .ok out) :
    sanitizeGridContext repr now' out = .ok out := by
  cases block with
  | null =>
    obtain rfl := Except.ok.inj h
    rfl
  | obj d =>
    rw [sanitizeGridContext] at h
    cases hb : Block.ofDict repr now d with
    | error e =>
      rw [hb] at h
      exact nomatch h
    | ok b =>
      rw [hb] at h
      obtain rfl := Except.ok.inj h
      rw [sanitizeGridContext, Block.ofDict_toDict]
      rfl
  | bool _ | num _ | str _ | arr _ => exact nomatch h

/-! ### What a payload carries -/

/-- The first record of a payload; that of a text is its first character. -/
def firstRecord : Json → Option Json
  | .obj d =>
    match field d (lit "data") with
    | .arr (x :: _) => some x
    | .str (c :: _) => some (.str [c])
    | _ => none
  | _ => none

/-- A finite number. -/
def number (v : Json) : Option Finite := (finite v).toOption.join

/-- An integer in the range of a double, or no integer. -/
def InRange (v : Json) : Prop := ∀ n, v = .num (.int n) → (Binary64.ofInt n).isFinite = true

/-- The intensity of a record: `actual` before `forecast`. -/
def intensityOf (i : Dict) : Option Finite :=
  (number (field i (lit "actual"))).or (number (field i (lit "forecast")))

/-- The intensity that the first record of a payload carries. -/
def carried (payload : Json) : Option Finite :=
  match firstRecord payload with
  | some (.obj d) =>
    match field d (lit "intensity") with
    | .obj i => intensityOf i
    | _ => none
  | _ => none

/-- The block says the intensity, rounded and labelled, or that there is none. -/
def Tells (block : Dict) (intensity : Option Finite) : Prop :=
  field block (lit "carbon_intensity_label") = labelOf (intensity.map Finite.rounded) ∧
    field block (lit "carbon_intensity_gco2_per_kwh") = optReading (intensity.map Finite.rounded)

/-- An intensity that can be read, and texts beside it that can be written. -/
structure RegularIntensity (d i : Dict) : Prop where
  actual : InRange (field i (lit "actual"))
  forecast : InRange (field i (lit "forecast"))
  texts : (intensityOf i).isSome = true →
    Writable (field d (lit "from")) ∧ Writable (field i (lit "index"))

/-- If there is a first record, it is an object, and its intensity is nothing or a regular
object. -/
def Regular (payload : Json) : Prop :=
  ∀ record, firstRecord payload = some record → ∃ d, record = .obj d ∧
    ((field d (lit "intensity")).truthy = false ∨
      ∃ i, field d (lit "intensity") = .obj i ∧ RegularIntensity d i)

theorem finite_of_inRange {v : Json} (h : InRange v) : finite v = .ok (number v) := by
  cases v with
  | num n =>
    cases n with
    | int n =>
      have hfinite := h n rfl
      rw [number, finite, dif_pos hfinite]
      rfl
    | float x =>
      rw [number, finite]
      split_ifs <;> rfl
  | null | bool _ | str _ | arr _ | obj _ => rfl

theorem finite_of_not_inRange {v : Json} (h : ¬InRange v) :
    finite v = .error (lit "OverflowError") := by
  rw [InRange] at h
  push Not at h
  obtain ⟨n, rfl, hn⟩ := h
  exact dif_neg hn

theorem textOr_of_ne (repr : Json → Str) {v : Json} (h : v ≠ .null) :
    textOr repr v = (str repr v).map some := textOr.eq_2 repr v h

theorem textOr_of_writable (repr : Json → Str) {v : Json} (h : Writable v) :
    ∃ s, textOr repr v = .ok s := by
  by_cases hnull : v = .null
  · rw [hnull]
    exact ⟨none, rfl⟩
  · rw [textOr_of_ne repr hnull, str, if_pos h]
    exact ⟨_, rfl⟩

theorem textOr_of_not_writable (repr : Json → Str) {v : Json} (h : ¬Writable v) :
    textOr repr v = .error (lit "ValueError") := by
  have hnull : v ≠ .null := by
    rintro rfl
    exact h rfl
  rw [textOr_of_ne repr hnull, str, if_neg h]
  rfl

/-- The block of a payload, its two texts aside. -/
def parsedBlock (now : FullText) (value : Finite) (which : Str) (observedAt index : Option Str) :
    Block where
  provider := PROVIDER_UK_CARBON_INTENSITY
  source := ⟨UK_CI_NATIONAL_URL, by decide⟩
  region := some (lit "GB")
  observedAt := observedAt
  fetchedAt := now
  carbonIntensity := some value.rounded
  carbonIntensityKind := some CI_KIND_GRID_AVERAGE
  carbonIntensityIndex := index
  price := none
  note := lit "REPORTED grid-average carbon intensity (" ++ which ++
    lit (") from the UK Carbon Intensity API, carried verbatim; NOT marginal, NOT " ++
      "a MEASURED joule. This does not create or measure energy.")

theorem ofDict_parsed (repr : Json → Str) (now : FullText) (observedAt index : Json)
    (value : Finite) (which : Str) :
    Block.ofDict repr now (parsed now observedAt index value which) =
      (textOr repr observedAt).bind fun o => (textOr repr index).bind fun i =>
        .ok (parsedBlock now value which o i) := by
  -- each field of the block is read back from the record that was written for it
  have hvalue : finite (field (parsed now observedAt index value which)
      (lit "carbon_intensity_gco2_per_kwh")) = .ok (some value) := dif_pos value.property
  have hfetched : textOr repr (field (parsed now observedAt index value which)
      (lit "fetched_at")) = .ok (some now.val) := rfl
  have hsource : textOr repr (field (parsed now observedAt index value which)
      (lit "source")) = .ok (some UK_CI_NATIONAL_URL) := rfl
  have hregion : textOr repr (field (parsed now observedAt index value which)
      (lit "region")) = .ok (some (lit "GB")) := rfl
  have hprovider : str repr ((Dict.get (parsed now observedAt index value which)
      (lit "provider")).getD (.str (lit "unspecified"))) = .ok PROVIDER_UK_CARBON_INTENSITY := rfl
  have hkind : textOr repr (field (parsed now observedAt index value which)
      (lit "carbon_intensity_kind")) = .ok (some CI_KIND_GRID_AVERAGE) := rfl
  rw [Block.ofDict, hvalue, hfetched, hsource, hregion, hprovider, hkind,
    show finite (field (parsed now observedAt index value which) (lit "price_per_mwh")) = .ok none
      from rfl,
    show field (parsed now observedAt index value which) (lit "observed_at") = observedAt from rfl,
    show field (parsed now observedAt index value which) (lit "carbon_intensity_index") = index
      from rfl,
    show str repr ((Dict.get (parsed now observedAt index value which) (lit "note")).getD
      (.str defaultNote)) = .ok (parsedBlock now value which none none).note from rfl]
  simp only [bind, Except.bind, pure, Except.pure, orText_full]
  rfl

/-- What is made of a payload whose intensity is an object. -/
theorem ofDict_parsed_cases (repr : Json → Str) (now : FullText) (observedAt index : Json)
    (value : Finite) (which : Str) :
    ((Writable observedAt ∧ Writable index) ∧
      ∃ b, Block.ofDict repr now (parsed now observedAt index value which) = .ok b ∧
        b.carbonIntensity = some value.rounded) ∨
    (¬(Writable observedAt ∧ Writable index) ∧
      Block.ofDict repr now (parsed now observedAt index value which) =
        .error (lit "ValueError")) := by
  rw [ofDict_parsed]
  by_cases hobserved : Writable observedAt
  · obtain ⟨o, ho⟩ := textOr_of_writable repr hobserved
    rw [ho]
    by_cases hindex : Writable index
    · obtain ⟨i, hi⟩ := textOr_of_writable repr hindex
      rw [hi]
      exact .inl ⟨⟨hobserved, hindex⟩, _, rfl, rfl⟩
    · rw [textOr_of_not_writable repr hindex]
      exact .inr ⟨fun h => hindex h.2, rfl⟩
  · rw [textOr_of_not_writable repr hobserved]
    exact .inr ⟨fun h => hobserved h.1, rfl⟩

/-! ### What is made of a payload -/

theorem tells_unavailable (provider source : Str) (region : Option Str) (reason : Str)
    (now : FullText) : Tells (unavailableGridContext provider source region reason now) none :=
  ⟨rfl, rfl⟩

theorem tells_toDict {b : Block} {x : Finite} (h : b.carbonIntensity = some x.rounded) :
    Tells b.toDict (some x) := by
  have hlabel : field b.toDict (lit "carbon_intensity_label") = labelOf b.carbonIntensity := rfl
  have hvalue : field b.toDict (lit "carbon_intensity_gco2_per_kwh") =
      optReading b.carbonIntensity := rfl
  rw [Tells, hlabel, hvalue, h]
  exact ⟨rfl, rfl⟩

theorem overflow_not_caught : lit "OverflowError" ∉ shapeErrors := by decide

theorem value_not_caught : lit "ValueError" ∉ shapeErrors := by decide

theorem attribute_not_caught : lit "AttributeError" ∉ shapeErrors := by decide

/-- A record with an object for its intensity. -/
theorem parseRecord_obj (repr : Json → Str) (now : FullText) {d i : Dict}
    (hi : orObject (field d (lit "intensity")) = .obj i) :
    (RegularIntensity d i ∧
      ∃ b, parseRecord repr now (.obj d) = .ok b ∧ Tells b (intensityOf i)) ∨
    (¬RegularIntensity d i ∧
      ∃ e, e ∉ shapeErrors ∧ parseRecord repr now (.obj d) = .error e) := by
  -- the body of the source, with the intensity object put in
  have hrecord : parseRecord repr now (.obj d) = (do
      let actual ← finite (field i (lit "actual"))
      let forecast ← finite (field i (lit "forecast"))
      match actual.or forecast with
      | none =>
        pure (unavailableGridContext PROVIDER_UK_CARBON_INTENSITY UK_CI_NATIONAL_URL
          (some (lit "GB")) (lit "no actual/forecast intensity in response") now)
      | some value =>
        let which := if actual.isSome then lit "actual" else lit "forecast"
        let block ← Block.ofDict repr now
          (parsed now (field d (lit "from")) (field i (lit "index")) value which)
        pure block.toDict) := by
    rw [parseRecord]
    simp only [get, bind, Except.bind, hi]
  rw [hrecord]
  by_cases hactual : InRange (field i (lit "actual"))
  · rw [finite_of_inRange hactual]
    by_cases hforecast : InRange (field i (lit "forecast"))
    · rw [finite_of_inRange hforecast]
      simp only [bind, Except.bind]
      rw [← intensityOf]
      -- neither reading gives an unavailable block; the actual one goes before the forecast
      cases hvalue : intensityOf i with
      | none =>
        exact .inl ⟨⟨hactual, hforecast, fun h => by rw [hvalue] at h; exact nomatch h⟩, _, rfl,
          tells_unavailable _ _ _ _ _⟩
      | some value =>
        dsimp only
        rcases ofDict_parsed_cases repr now (field d (lit "from")) (field i (lit "index")) value
            (if (number (field i (lit "actual"))).isSome then lit "actual" else lit "forecast")
          with ⟨htexts, b, hb, hci⟩ | ⟨htexts, herror⟩
        · rw [hb]
          exact .inl ⟨⟨hactual, hforecast, fun _ => htexts⟩, _, rfl, tells_toDict hci⟩
        · rw [herror]
          exact .inr ⟨fun h => htexts (h.texts (by rw [hvalue]; rfl)), _, value_not_caught, rfl⟩
    · rw [finite_of_not_inRange hforecast]
      exact .inr ⟨fun h => hforecast h.forecast, _, overflow_not_caught, rfl⟩
  · rw [finite_of_not_inRange hactual]
    exact .inr ⟨fun h => hactual h.actual, _, overflow_not_caught, rfl⟩

/-- The first record of a payload, or the exception on the way to it, which is caught. -/
theorem record_cases (payload : Json) :
    (∃ record, firstRecord payload = some record ∧
      (item payload (lit "data")).bind first = .ok record) ∨
    (firstRecord payload = none ∧
      ∃ e ∈ shapeErrors, (item payload (lit "data")).bind first = .error e) := by
  -- the two subscripts of the source, on every kind of value; a text is subscripted as well
  cases payload with
  | obj d =>
    rw [firstRecord, field, item]
    cases Dict.get d (lit "data") with
    | none => exact .inr ⟨rfl, lit "KeyError", by decide, rfl⟩
    | some data =>
      rw [Option.getD_some]
      cases data with
      | arr xs =>
        cases xs with
        | nil => exact .inr ⟨rfl, lit "IndexError", by decide, rfl⟩
        | cons x xs => exact .inl ⟨x, rfl, rfl⟩
      | str s =>
        cases s with
        | nil => exact .inr ⟨rfl, lit "IndexError", by decide, rfl⟩
        | cons c s => exact .inl ⟨.str [c], rfl, rfl⟩
      | obj _ => exact .inr ⟨rfl, lit "KeyError", by decide, rfl⟩
      | null | bool _ | num _ => exact .inr ⟨rfl, lit "TypeError", by decide, rfl⟩
  | null | bool _ | num _ | str _ | arr _ => exact .inr ⟨rfl, lit "TypeError", by decide, rfl⟩

theorem regular_obj_iff {payload : Json} {d i : Dict}
    (hrecord : firstRecord payload = some (.obj d))
    (hi : field d (lit "intensity") = .obj i) : Regular payload ↔ RegularIntensity d i := by
  constructor
  · intro h
    obtain ⟨d', heq, hregular⟩ := h _ hrecord
    obtain rfl := Json.obj.inj heq
    rcases hregular with hfalsy | ⟨i', hi', hregular⟩
    · -- an empty object has no intensity to read
      have hnil : i = [] := by
        rw [hi] at hfalsy
        simpa [Json.truthy] using hfalsy
      subst hnil
      exact ⟨fun _ h => (nomatch h), fun _ h => (nomatch h), fun h => (nomatch h)⟩
    · obtain rfl := Json.obj.inj (hi.symm.trans hi')
      exact hregular
  · intro h record hrecord'
    obtain rfl := Option.some.inj (hrecord.symm.trans hrecord')
    exact ⟨d, rfl, .inr ⟨i, hi, h⟩⟩

theorem carried_obj {payload : Json} {d i : Dict} (hrecord : firstRecord payload = some (.obj d))
    (hi : field d (lit "intensity") = .obj i) : carried payload = intensityOf i := by
  rw [carried, hrecord]
  simp only [hi]

/-- The intensity of a record that has none. -/
theorem falsy_intensity {payload : Json} {d : Dict} (hrecord : firstRecord payload = some (.obj d))
    (hfalsy : (field d (lit "intensity")).truthy = false) :
    carried payload = none ∧ Regular payload := by
  constructor
  · rw [carried, hrecord]
    dsimp only
    cases hfound : field d (lit "intensity") with
    | obj i =>
      have hnil : i = [] := by
        rw [hfound] at hfalsy
        simpa [Json.truthy] using hfalsy
      rw [hnil]
      rfl
    | null | bool _ | num _ | str _ | arr _ => rfl
  · intro record hrecord'
    obtain rfl := Option.some.inj (hrecord.symm.trans hrecord')
    exact ⟨d, rfl, .inl hfalsy⟩

/-- **What is made of a payload**: a block that tells its intensity, or an exception. The shapes
that the source catches give a block without an intensity; others escape as an exception, a
record that is no object among them. -/
theorem parse_cases (repr : Json → Str) (now : FullText) (payload : Json) :
    (Regular payload ∧ ∃ b, parseUkCarbonIntensity repr now payload = .ok b ∧
      Tells b (carried payload)) ∨
    (¬Regular payload ∧ ∃ e, parseUkCarbonIntensity repr now payload = .error e) := by
  have hparse : tryParse repr now payload =
      ((item payload (lit "data")).bind first).bind (parseRecord repr now) := by
    rw [tryParse]
    cases item payload (lit "data") <;> rfl
  have hok : ∀ {b}, tryParse repr now payload = .ok b →
      parseUkCarbonIntensity repr now payload = .ok b := by
    intro b hb
    rw [parseUkCarbonIntensity, hb]
  have herror : ∀ {e}, e ∉ shapeErrors → tryParse repr now payload = .error e →
      parseUkCarbonIntensity repr now payload = .error e := by
    intro e he hraises
    rw [parseUkCarbonIntensity, hraises]
    exact if_neg he
  rcases record_cases payload with ⟨record, hrecord, hfirst⟩ | ⟨hnone, e, he, hfirst⟩
  · rw [hfirst] at hparse
    have hstep : tryParse repr now payload = parseRecord repr now record := hparse
    cases record with
    | obj d =>
      cases htruthy : (field d (lit "intensity")).truthy with
      | false =>
        obtain ⟨hcarried, hregular⟩ := falsy_intensity hrecord htruthy
        have hempty : orObject (field d (lit "intensity")) = .obj [] := if_neg (by simp [htruthy])
        rcases parseRecord_obj repr now hempty with ⟨-, b, hb, htells⟩ | ⟨hno, -⟩
        · rw [hcarried]
          exact .inl ⟨hregular, b, hok (hstep.trans hb), htells⟩
        · exact absurd ⟨fun _ h => (by cases h), fun _ h => (by cases h), fun h => (by cases h)⟩ hno
      | true =>
        have hsame : orObject (field d (lit "intensity")) = field d (lit "intensity") :=
          if_pos htruthy
        cases hfound : field d (lit "intensity") with
        | obj i =>
          rw [regular_obj_iff hrecord hfound, carried_obj hrecord hfound]
          rcases parseRecord_obj repr now (hsame.trans hfound) with
            ⟨hregular, b, hb, htells⟩ | ⟨hno, e, he, hraises⟩
          · exact .inl ⟨hregular, b, hok (hstep.trans hb), htells⟩
          · exact .inr ⟨hno, e, herror he (hstep.trans hraises)⟩
        | null | bool _ | num _ | str _ | arr _ =>
          -- `intensity.get` of a value that is no object
          rw [hfound] at hsame htruthy
          have hraises : parseRecord repr now (.obj d) = .error (lit "AttributeError") := by
            rw [parseRecord]
            simp only [get, bind, Except.bind, hfound, hsame]
          refine .inr ⟨fun h => ?_, _, herror attribute_not_caught (hstep.trans hraises)⟩
          obtain ⟨d', heq, hregular⟩ := h _ hrecord
          obtain rfl := Json.obj.inj heq
          rw [hfound] at hregular
          rcases hregular with hfalsy | ⟨i, hi, -⟩
          · cases htruthy.symm.trans hfalsy
          · cases hi
    | null | bool _ | num _ | str _ | arr _ =>
      -- `rec.get` of a value that is no object
      refine .inr ⟨fun h => ?_, lit "AttributeError", herror attribute_not_caught hstep⟩
      obtain ⟨d, heq, -⟩ := h _ hrecord
      cases heq
  · rw [hfirst] at hparse
    refine .inl ⟨fun record h => (by cases hnone.symm.trans h), ?_, ?_, ?_⟩
    · exact unavailableGridContext PROVIDER_UK_CARBON_INTENSITY UK_CI_NATIONAL_URL
        (some (lit "GB")) (lit "unexpected response shape") now
    · rw [parseUkCarbonIntensity, hparse]
      exact if_pos he
    · rw [carried, hnone]
      exact tells_unavailable _ _ _ _ _

/-! ### Fetching -/

/-- The intensity that an answer reports. -/
def reported (provider : Str) : Except Str Json → Option Finite
  | .ok payload => if provider = PROVIDER_UK_CARBON_INTENSITY then carried payload else none
  | .error _ => none

/-- A block is returned, and it tells what the answer reports. A block that says an intensity
where there is none, or none where there is one, would not be honest. -/
def Honest (repr : Json → Str) (now : FullText) (provider : Str) (region : Option Str)
    (transport : Except Str Json) : Prop :=
  ∃ block, fetchGridContext repr now provider region transport = .ok block ∧
    Tells block (reported provider transport)

/-- What the transport gives for the provider, if it is a payload, is regular. An error of the
transport is answerable too, by a block that says so. -/
def Answerable (provider : Str) (transport : Except Str Json) : Prop :=
  ∀ payload, provider = PROVIDER_UK_CARBON_INTENSITY → transport = .ok payload → Regular payload

/-- **What is made of an answer**: a block that tells what it reports, or an exception. Only a
payload of the provider that is known is parsed, so all else has a block. -/
theorem fetch_cases (repr : Json → Str) (now : FullText) (provider : Str) (region : Option Str)
    (transport : Except Str Json) :
    (Answerable provider transport ∧ ∃ b,
      fetchGridContext repr now provider region transport = .ok b ∧
        Tells b (reported provider transport)) ∨
    (¬Answerable provider transport ∧ ∃ e,
      fetchGridContext repr now provider region transport = .error e) := by
  rw [fetchGridContext.eq_def]
  -- only one provider is fetched, and any other one has an unavailable block
  by_cases hprovider : provider = PROVIDER_UK_CARBON_INTENSITY
  · rw [if_neg (not_not.mpr hprovider)]
    cases transport with
    | error e => exact .inl ⟨fun _ _ h => (nomatch h), _, rfl, tells_unavailable _ _ _ _ _⟩
    | ok payload =>
      rw [reported, if_pos hprovider]
      rcases parse_cases repr now payload with ⟨hregular, b, hb, htells⟩ | ⟨hno, e, herror⟩
      · refine .inl ⟨?_, b, hb, htells⟩
        rintro _ - ⟨⟩
        exact hregular
      · exact .inr ⟨fun h => hno (h payload hprovider rfl), e, herror⟩
  · rw [if_pos hprovider]
    have hnone : reported provider transport = none := by
      cases transport with
      | error e => rfl
      | ok payload => exact if_neg hprovider
    rw [hnone]
    exact .inl ⟨fun _ h => absurd h hprovider, _, rfl, tells_unavailable _ _ _ _ _⟩

/-- **An honest block is made of every payload that is regular**, and of no other; and sanitizing
is idempotent. An honest block tells the intensity of the payload, or none where the payload has
none, and no exception leaves the fetch. -/
theorem fetch_honest_iff (repr : Json → Str) (now now' : FullText) (provider : Str)
    (region : Option Str) (transport : Except Str Json) :
    (Honest repr now provider region transport ↔ Answerable provider transport) ∧
    ∀ block out, sanitizeGridContext repr now block = .ok out →
      sanitizeGridContext repr now' out = .ok out := by
  refine ⟨?_, fun block out h => sanitize_sanitize repr now now' h⟩
  rcases fetch_cases repr now provider region transport with ⟨hanswer, hblock⟩ | ⟨hno, e, herror⟩
  · exact iff_of_true hblock hanswer
  · refine iff_of_false ?_ hno
    rintro ⟨b, hb, -⟩
    exact nomatch herror.symm.trans hb

/-! ### A record that is `null` -/

def nullRecord : Json := .obj [(lit "data", .arr [.null])]

theorem not_honest_nullRecord :
    ¬∀ repr now provider region transport, Honest repr now provider region transport := by
  intro h
  obtain ⟨block, hblock, -⟩ := h (fun _ => []) ⟨lit "2026-07-09T19:05:00Z", by decide⟩
    PROVIDER_UK_CARBON_INTENSITY none (.ok nullRecord)
  have herror : parseUkCarbonIntensity (fun _ => []) ⟨lit "2026-07-09T19:05:00Z", by decide⟩
      nullRecord = .error (lit "AttributeError") := by rfl
  exact nomatch herror.symm.trans hblock

end Grid

end SzlRouter
