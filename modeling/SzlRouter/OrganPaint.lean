/-
Painting the organ from a published cycle, by the server (`space/paint.py`) and by
the browser (`space/assets/paint.js`).

Both walk the same tests.  They differ in what their languages do with a value of an
unexpected type: Python hashes the verdict before it looks it up in a set, and
JavaScript reads a member of any value but `null` and `undefined`.

* `gate` — what a cycle is to be painted;
* `browser_paint` — the browser paints it;
* `server_paint` — the server does, unless it is asked to hash a verdict that is an
  array or an object;
* `paints_agree_iff` — when the two agree.
-/
import SzlRouter.Revision

open Py

namespace SzlRouter

namespace Organ

inductive Paint
  | allow
  | deny
  | unavailable
  deriving DecidableEq

def CYCLE_SCHEMA : Str := lit "szl.frontier.ouroboros-cycle.v1"

def DENY_VERDICTS : List Str :=
  [lit "HARD_DENY", lit "LAMBDA_VETO", lit "DENY_DEFAULT", lit "ESCALATE"]

/-! ### What a cycle is to be painted -/

/-- A shadow that could be executed. -/
def executable : Json → Bool
  | .obj shadow => field shadow (lit "executable") = .bool true
  | _ => false

/-- A cycle under which a verdict counts: it only proposes, it is no promotion, it states its
conjecture as one, and its shadow is not executable. -/
structure Posture (cycle : Dict) : Prop where
  schema : field cycle (lit "schema") = .str CYCLE_SCHEMA
  promotion : field cycle (lit "productionPromotion") ≠ .bool true
  conjecture : field cycle (lit "lambda") = .str (lit "CONJECTURE_1")
  neverATheorem : field cycle (lit "lambdaNeverATheorem") = .bool true
  authority : field cycle (lit "authority") = .str (lit "PROPOSAL_ONLY")
  invariants : field cycle (lit "invariantsOk") = .bool true
  shadow : executable (field cycle (lit "shadow")) = false

theorem posture_iff {cycle : Dict} : Posture cycle ↔
    field cycle (lit "schema") = .str CYCLE_SCHEMA ∧
    field cycle (lit "productionPromotion") ≠ .bool true ∧
    (field cycle (lit "lambda") = .str (lit "CONJECTURE_1") ∧
      field cycle (lit "lambdaNeverATheorem") = .bool true) ∧
    field cycle (lit "authority") = .str (lit "PROPOSAL_ONLY") ∧
    field cycle (lit "invariantsOk") = .bool true ∧
    executable (field cycle (lit "shadow")) = false :=
  ⟨fun h => ⟨h.1, h.2, ⟨h.3, h.4⟩, h.5, h.6, h.7⟩,
    fun ⟨h₁, h₂, ⟨h₃, h₄⟩, h₅, h₆, h₇⟩ => ⟨h₁, h₂, h₃, h₄, h₅, h₆, h₇⟩⟩

instance (cycle : Dict) : Decidable (Posture cycle) := decidable_of_iff' _ posture_iff

/-- The verdict is one of the set that denies. -/
def Denies (verdict : Json) : Prop := ∃ v ∈ DENY_VERDICTS, verdict = .str v

instance (verdict : Json) : Decidable (Denies verdict) :=
  inferInstanceAs (Decidable (∃ v ∈ DENY_VERDICTS, verdict = .str v))

/-- What a cycle is to be painted. -/
def gate : Json → Paint
  | .obj cycle =>
    if field cycle (lit "schema") ≠ .str CYCLE_SCHEMA then .unavailable
    else if ¬Posture cycle then .deny
    else if field cycle (lit "verdict") = .str (lit "ALLOW") then .allow
    else if Denies (field cycle (lit "verdict")) then .deny
    else .unavailable
  | _ => .unavailable

/-- **Nothing is painted as allowed but an allowing verdict under the posture.** A cycle of
another schema is unavailable and one without the posture is denied, whatever its verdict. -/
theorem gate_allow {cycle : Json} (h : gate cycle = .allow) :
    ∃ d, cycle = .obj d ∧ Posture d ∧ field d (lit "verdict") = .str (lit "ALLOW") := by
  cases cycle with
  | obj d =>
    rw [gate] at h
    split_ifs at h with _ hposture hverdict
    exact ⟨d, rfl, hposture, hverdict⟩
  | null | bool _ | num _ | str _ | arr _ => exact nomatch h

/-- The tests of both programs, before they look at the verdict. -/
theorem tests_eq (d : Dict) (rest : Except Str Paint) :
    (if field d (lit "schema") ≠ .str CYCLE_SCHEMA then .ok .unavailable
      else if field d (lit "productionPromotion") = .bool true then .ok .deny
      else if field d (lit "lambda") ≠ .str (lit "CONJECTURE_1") ∨
          field d (lit "lambdaNeverATheorem") ≠ .bool true then .ok .deny
      else if field d (lit "authority") ≠ .str (lit "PROPOSAL_ONLY") then .ok .deny
      else if field d (lit "invariantsOk") ≠ .bool true then .ok .deny
      else if executable (field d (lit "shadow")) then .ok .deny
      else rest) =
    if field d (lit "schema") ≠ .str CYCLE_SCHEMA then .ok .unavailable
      else if ¬Posture d then .ok .deny
      else rest := by
  by_cases hposture : Posture d
  · obtain ⟨h₁, h₂, ⟨h₃, h₄⟩, h₅, h₆, h₇⟩ := posture_iff.mp hposture
    simp [h₁, h₂, h₃, h₄, h₅, h₆, h₇, hposture]
  · rw [if_pos hposture]
    by_cases h₁ : field d (lit "schema") ≠ .str CYCLE_SCHEMA
    · rw [if_pos h₁, if_pos h₁]
    rw [if_neg h₁, if_neg h₁]
    by_cases h₂ : field d (lit "productionPromotion") = .bool true
    · rw [if_pos h₂]
    rw [if_neg h₂]
    by_cases h₃ : field d (lit "lambda") ≠ .str (lit "CONJECTURE_1") ∨
        field d (lit "lambdaNeverATheorem") ≠ .bool true
    · rw [if_pos h₃]
    rw [if_neg h₃]
    by_cases h₄ : field d (lit "authority") ≠ .str (lit "PROPOSAL_ONLY")
    · rw [if_pos h₄]
    rw [if_neg h₄]
    by_cases h₅ : field d (lit "invariantsOk") ≠ .bool true
    · rw [if_pos h₅]
    rw [if_neg h₅]
    by_cases h₆ : executable (field d (lit "shadow")) = true
    · rw [if_pos h₆]
    -- with every test passed the posture would hold
    rw [not_or, not_not, not_not] at h₃
    rw [posture_iff] at hposture
    exact absurd ⟨not_not.mp h₁, h₂, h₃, not_not.mp h₄, not_not.mp h₅,
      Bool.eq_false_iff.mpr h₆⟩ hposture

/-! ### The server -/

namespace Server

/-- `verdict in DENY_VERDICTS`: an array or an object has no hash. -/
def inDenyVerdicts : Json → Except Str Bool
  | .arr _ | .obj _ => .error (lit "TypeError")
  | verdict => .ok (Denies verdict)

/-- `paint_from_cycle`. -/
def paintFromCycle : Json → Except Str Paint
  | .obj cycle =>
    if field cycle (lit "schema") ≠ .str CYCLE_SCHEMA then .ok .unavailable
    else if field cycle (lit "productionPromotion") = .bool true then .ok .deny
    else if field cycle (lit "lambda") ≠ .str (lit "CONJECTURE_1") ∨
        field cycle (lit "lambdaNeverATheorem") ≠ .bool true then .ok .deny
    else if field cycle (lit "authority") ≠ .str (lit "PROPOSAL_ONLY") then .ok .deny
    else if field cycle (lit "invariantsOk") ≠ .bool true then .ok .deny
    else if executable (field cycle (lit "shadow")) then .ok .deny
    else if field cycle (lit "verdict") = .str (lit "ALLOW") then .ok .allow
    else do
      let denies ← inDenyVerdicts (field cycle (lit "verdict"))
      if denies then .ok .deny else .ok .unavailable
  | _ => .ok .unavailable

end Server

/-- A value that has no hash. -/
def Hashless (v : Json) : Prop := (∃ xs, v = .arr xs) ∨ ∃ kvs, v = .obj kvs

/-- The verdict is reached and has no hash. It is reached under the posture alone, and not if it
allows. -/
def Unhashable (cycle : Json) : Prop :=
  ∃ d, cycle = .obj d ∧ Posture d ∧ Hashless (field d (lit "verdict"))

theorem inDenyVerdicts_cases (verdict : Json) :
    (Hashless verdict ∧ Server.inDenyVerdicts verdict = .error (lit "TypeError") ∧
      verdict ≠ .str (lit "ALLOW")) ∨
    (¬Hashless verdict ∧ Server.inDenyVerdicts verdict = .ok (Denies verdict)) := by
  cases verdict with
  | arr xs => exact .inl ⟨.inl ⟨xs, rfl⟩, rfl, by simp⟩
  | obj kvs => exact .inl ⟨.inr ⟨kvs, rfl⟩, rfl, by simp⟩
  | null | bool _ | num _ | str _ => exact .inr ⟨by simp [Hashless], rfl⟩

theorem unhashable_obj {d : Dict} :
    Unhashable (.obj d) ↔ Posture d ∧ Hashless (field d (lit "verdict")) := by
  constructor
  · rintro ⟨d', heq, h⟩
    obtain rfl := Json.obj.inj heq
    exact h
  · exact fun h => ⟨d, rfl, h⟩

/-- The server paints the gate, unless it has to hash what has no hash. The verdict is looked up
in a set of texts, and a list or an object has no place in a set. -/
theorem server_paint (cycle : Json) :
    (Unhashable cycle ∧ Server.paintFromCycle cycle = .error (lit "TypeError")) ∨
      (¬Unhashable cycle ∧ Server.paintFromCycle cycle = .ok (gate cycle)) := by
  cases cycle with
  | obj d =>
    rw [unhashable_obj, Server.paintFromCycle, tests_eq, gate]
    by_cases hposture : Posture d
    · rw [if_neg (not_not.mpr hposture.schema), if_neg (not_not.mpr hposture),
        if_neg (not_not.mpr hposture.schema), if_neg (not_not.mpr hposture)]
      -- the verdict is looked up in a set, which a value without a hash ends in an exception
      rcases inDenyVerdicts_cases (field d (lit "verdict")) with
        ⟨hno, herror, hallow⟩ | ⟨hhash, hok⟩
      · refine .inl ⟨⟨hposture, hno⟩, ?_⟩
        rw [if_neg hallow, herror]
        rfl
      · refine .inr ⟨fun h => hhash h.2, ?_⟩
        rw [hok]
        split_ifs with hallow hdenies
        · rfl
        · simp [bind, Except.bind, hdenies]
        · simp [bind, Except.bind, hdenies]
    · refine .inr ⟨fun h => hposture h.1, ?_⟩
      split_ifs <;> rfl
  | null | bool _ | num _ | str _ | arr _ =>
    refine .inr ⟨?_, rfl⟩
    rintro ⟨_, heq, _⟩
    cases heq

/-! ### The browser -/

namespace Browser

/-- A value of JavaScript that comes from JSON, or a member that is not there. -/
inductive Value
  | undefined
  | json (v : Json)
  deriving DecidableEq

namespace Value

/-- `!!value`. -/
def truthy : Value → Bool
  | .undefined => false
  | .json .null => false
  | .json (.bool b) => b
  | .json (.num (.int n)) => n ≠ 0
  | .json (.num (.float x)) => !x.isNaN && x.units ≠ 0
  | .json (.str s) => s ≠ []
  | .json (.arr _) => true
  | .json (.obj _) => true

/-- `value.key`, for a key that is no member of a prototype, no index and not `length`. -/
def member (key : String) : Value → Except Str Value
  | .undefined => .error (lit "TypeError")
  | .json .null => .error (lit "TypeError")
  | .json (.obj d) => .ok (((Dict.get d (lit key)).map .json).getD .undefined)
  | .json _ => .ok .undefined

end Value

/-- `cycle.shadow && cycle.shadow.executable === true`. -/
def executable (shadow : Value) : Except Str Bool :=
  if shadow.truthy then (shadow.member "executable").map fun v => v = .json (.bool true)
  else .ok false

/-- `paintFromCycle`. -/
def paintFromCycle (cycle : Value) : Except Str Paint :=
  if !cycle.truthy then .ok .unavailable
  else do
    if (← cycle.member "schema") ≠ .json (.str CYCLE_SCHEMA) then .ok .unavailable
    else if (← cycle.member "productionPromotion") = .json (.bool true) then .ok .deny
    else if (← cycle.member "lambda") ≠ .json (.str (lit "CONJECTURE_1")) ∨
        (← cycle.member "lambdaNeverATheorem") ≠ .json (.bool true) then .ok .deny
    else if (← cycle.member "authority") ≠ .json (.str (lit "PROPOSAL_ONLY")) then .ok .deny
    else if (← cycle.member "invariantsOk") ≠ .json (.bool true) then .ok .deny
    else if (← executable (← cycle.member "shadow")) then .ok .deny
    else if (← cycle.member "verdict") = .json (.str (lit "ALLOW")) then .ok .allow
    else if ∃ v ∈ DENY_VERDICTS, (← cycle.member "verdict") = .json (.str v) then .ok .deny
    else .ok .unavailable

theorem member_obj (d : Dict) (key : String) :
    (Value.json (.obj d)).member key =
      .ok (((Dict.get d (lit key)).map .json).getD .undefined) := rfl

/-- A member that is not there is no other value than `null`. -/
theorem member_eq {d : Dict} {key : String} {v : Json} (hv : v ≠ .null) :
    ((Dict.get d (lit key)).map Value.json).getD .undefined = .json v ↔
      field d (lit key) = v := by
  rw [field]
  cases Dict.get d (lit key) with
  | none => simp [hv.symm]
  | some w => simp

theorem executable_eq (d : Dict) :
    executable (((Dict.get d (lit "shadow")).map Value.json).getD .undefined) =
      .ok (Organ.executable (field d (lit "shadow"))) := by
  rw [field]
  cases Dict.get d (lit "shadow") with
  | none => rfl
  | some shadow =>
    cases shadow with
    | obj kvs =>
      show Except.ok (decide _) = Except.ok (decide _)
      simp only [Except.ok.injEq, decide_eq_decide]
      exact member_eq (by simp)
    | null => rfl
    | bool b | num n | str s | arr xs =>
      rw [Option.map_some, Option.getD_some, executable]
      split_ifs <;> rfl

/-- A primitive and an array have no schema. -/
theorem paint_of_no_schema {cycle : Value} (h : cycle.member "schema" = .ok .undefined) :
    paintFromCycle cycle = .ok .unavailable := by
  rw [paintFromCycle, h]
  by_cases htruthy : (!cycle.truthy) = true
  · rw [if_pos htruthy]
  · rw [if_neg htruthy]
    rfl

end Browser

/-- The browser paints the gate, for every cycle that JSON can carry: it compares the verdict
with strict equality, which raises on nothing. -/
theorem browser_paint (cycle : Json) : Browser.paintFromCycle (.json cycle) = .ok (gate cycle) := by
  cases cycle with
  | obj d =>
    rw [Browser.paintFromCycle]
    simp only [Browser.member_obj, Browser.executable_eq, bind, Except.bind]
    have hstr : ∀ (key : String) (t : Str),
        ((Dict.get d (lit key)).map Browser.Value.json).getD .undefined = .json (.str t) ↔
          field d (lit key) = .str t := fun _ _ => Browser.member_eq (by simp)
    have hbool : ∀ (key : String) (b : Bool),
        ((Dict.get d (lit key)).map Browser.Value.json).getD .undefined = .json (.bool b) ↔
          field d (lit key) = .bool b := fun _ _ => Browser.member_eq (by simp)
    have hdenies : (∃ v ∈ DENY_VERDICTS, field d (lit "verdict") = .str v) ↔
        Denies (field d (lit "verdict")) := Iff.rfl
    simp only [ne_eq, hstr, hbool, hdenies]
    refine (tests_eq d _).trans ?_
    rw [gate]
    split_ifs <;> rfl
  | null => rfl
  | bool b | num n | str s | arr xs => exact Browser.paint_of_no_schema rfl

/-- The two programs paint the cycle the same, and what they paint is allowed only under the
posture. -/
def Agree (cycle : Json) : Prop :=
  ∃ paint, Server.paintFromCycle cycle = .ok paint ∧
    Browser.paintFromCycle (.json cycle) = .ok paint ∧
    (paint = .allow →
      ∃ d, cycle = .obj d ∧ Posture d ∧ field d (lit "verdict") = .str (lit "ALLOW"))

/-- **The two agree exactly on the cycles whose verdict, if they come to it, has a hash.** On any
other one the server raises, where the browser paints. -/
theorem paints_agree_iff (cycle : Json) : Agree cycle ↔ ¬Unhashable cycle := by
  rcases server_paint cycle with ⟨hno, herror⟩ | ⟨hhash, hok⟩
  · refine iff_of_false ?_ (not_not.mpr hno)
    rintro ⟨paint, hserver, _⟩
    exact nomatch herror.symm.trans hserver
  · exact iff_of_true ⟨gate cycle, hok, browser_paint cycle, gate_allow⟩ hhash

/-- A cycle under the posture, with an array for a verdict. -/
def arrayCycle : Json :=
  .obj [(lit "schema", .str CYCLE_SCHEMA), (lit "verdict", .arr []),
    (lit "invariantsOk", .bool true),
    (lit "productionPromotion", .bool false), (lit "authority", .str (lit "PROPOSAL_ONLY")),
    (lit "lambda", .str (lit "CONJECTURE_1")), (lit "lambdaNeverATheorem", .bool true),
    (lit "shadow", .null)]

/-- The browser paints such a cycle, and the server raises. -/
theorem paints_disagree : ¬∀ cycle, Agree cycle := by
  intro hall
  obtain ⟨paint, hserver, _⟩ := hall arrayCycle
  have herror : Server.paintFromCycle arrayCycle = .error (lit "TypeError") := by decide +kernel
  exact nomatch herror.symm.trans hserver

end Organ

end SzlRouter
