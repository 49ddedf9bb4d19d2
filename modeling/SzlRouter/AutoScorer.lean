/-
The complexity scorer behind `szl-auto` (`score_complexity` of
`szl_router/core.py`).

The scorer reads the prompt and the threshold, and nothing else.  `str()` of a
value that is no string and `str.lower()` come from the runtime's own tables.
-/
import SzlRouter.Json

open Py

namespace SzlRouter

/-- The string operations whose tables belong to the runtime. -/
structure TextOps where
  /-- `str(value)` for a value that is no string. -/
  repr : Json → Str
  /-- `text.lower()`. -/
  lower : Str → Str

def AUTO_MODEL : Str := lit "szl-auto"

def AUTO_SCORER_VERSION : String := "heuristic-v1"

/-- `_CODE_MARKERS`. -/
def codeMarkers : List Str :=
  ["```", "def ", "return ", "import ", "function", "class ", "();", "\x7d);", "const ", "let ",
    " var ", "select ", "#include", "public static", "console.log", "print(", "</", "/>",
    "traceback", "stack trace", "npm ", "pip install", "regex"].map lit

/-- `_REASONING_MARKERS`. -/
def reasoningMarkers : List Str :=
  ["why", "explain", "compare", "analyze", "analyse", "step by step", "prove", "derive",
    "trade-off", "tradeoff", "design", "architect", "evaluate", "reason", "implications",
    "pros and cons", "in detail", "comprehensive", "strategy", "optimize", "refactor",
    "debug"].map lit

namespace TextOps

variable (ops : TextOps)

/-- `str(value)`. -/
def str : Json → Str
  | .str s => s
  | v => ops.repr v

/-- One part of a list-valued content. -/
def coercePart : Json → Str
  | .obj kvs =>
    let text := (Dict.get kvs (lit "text")).getD .null
    if text.truthy then ops.str text else []
  | v => ops.str v

/-- `_coerce_text`. -/
def coerceText : Json → Str
  | .null => []
  | .str s => s
  | .arr parts => Str.join (lit " ") (parts.map ops.coercePart)
  | v => ops.str v

/-- `_coerce_text(m.get("content"))` of a message. -/
def contentText (m : Json) : Str := ops.coerceText ((m.get (lit "content")).getD .null)

/-- The message that is scored: the last one of the user, or else the last one. -/
def scoredMessage (msgs : List Json) : Json :=
  let userMsgs := msgs.filter fun m => m.get (lit "role") = some (.str (lit "user"))
  (userMsgs.getLast?.or msgs.getLast?).getD (.obj [])

/-- A number of hundredths. -/
def cents (n : ℕ) : Binary64 := Binary64.ofDecimal false n (-2)

/-- The weights of the scorer, from the baseline on: each step adds to the score and
names its signal. -/
def weigh (text : Str) (msgCount : ℕ) (reasoning : List Str) : Binary64 × List Str :=
  let score := cents 30
  let (score, signals) :=
    if 1200 < text.length then (score.add (cents 35), [lit "very-long-prompt"])
    else if 400 < text.length then (score.add (cents 20), [lit "long-prompt"])
    else if text.length < 120 then (score.sub (cents 12), [lit "short-prompt"])
    else (score, [])
  let (score, signals) :=
    if 6 ≤ msgCount then (score.add (cents 15), signals ++ [lit "deep-conversation"])
    else (score, signals)
  let (score, signals) :=
    if reasoning ≠ [] then
      (score.add (Binary64.min (cents 30) ((cents 10).mul (Binary64.ofInt reasoning.length))),
        signals ++ [lit "reasoning:" ++ Str.join (lit ",") (reasoning.take 3)])
    else (score, signals)
  if 3 ≤ text.count (chr '?') then (score.add (cents 10), signals ++ [lit "multi-question"])
  else (score, signals)

/-- The logical model for a score; code goes to the coder whatever the score is. -/
def choose (largeThreshold : Binary64) (isCode : Bool) (codeHits : List Str) (score : Binary64)
    (signals : List Str) : Binary64 × List Str × Str :=
  if isCode then
    let signal := if codeHits ≠ [] then lit "code:" ++ Str.join (lit ",") (codeHits.take 3)
      else lit "code-fence"
    (score, signal :: signals, lit "szl-coder")
  else if largeThreshold ≤ score then (score, signals, lit "szl-large")
  else (score, signals, lit "szl-fast")

/-- `score_complexity`: the score, the signals and the chosen logical model. -/
def scoreComplexity (largeThreshold : Binary64) (messages : Json) :
    Binary64 × List Str × Str :=
  let msgs := match messages with
    | .arr msgs => msgs
    | _ => []
  let last := scoredMessage msgs
  let text := if last.isObj then ops.contentText last else ops.coerceText last
  let allText := Str.join (lit " ") ((msgs.filter Json.isObj).map ops.contentText)
  let lower := ops.lower text
  let allLower := ops.lower allText
  let codeHits := codeMarkers.filter fun mk => Str.contains mk allLower
  let isCode := Str.contains (lit "```") allText ∨ 2 ≤ codeHits.length
  let reasoning := reasoningMarkers.filter fun w => Str.contains w lower
  let (score, signals) := weigh text msgs.length reasoning
  choose largeThreshold isCode codeHits
    (Binary64.max 0 (Binary64.min 1 (score.roundTo 3))) signals

/-- The scorer only picks logical models. -/
theorem scoreComplexity_chosen (largeThreshold : Binary64) (messages : Json) :
    (ops.scoreComplexity largeThreshold messages).2.2 ∈
      [lit "szl-coder", lit "szl-large", lit "szl-fast"] := by
  have hchoose : ∀ isCode codeHits score signals,
      (choose largeThreshold isCode codeHits score signals).2.2 ∈
        [lit "szl-coder", lit "szl-large", lit "szl-fast"] := by
    intro isCode codeHits score signals
    rw [choose]
    split_ifs <;> simp only [List.mem_cons, true_or, or_true]
  exact hchoose _ _ _ _

end TextOps

/-- `_auto_routing_block`. -/
def autoRoutingBlock (score : Binary64) (signals : List Str) (chosen : Str) : Json :=
  .obj [(lit "router", .str AUTO_MODEL),
    (lit "method",
      .str (lit (AUTO_SCORER_VERSION ++ ": deterministic lexical scorer, no LLM call"))),
    (lit "complexity_score", .num (.float score)),
    (lit "signals", .arr (signals.map Json.str)),
    (lit "chosen_logical", .str chosen),
    (lit "note", .str (lit ("heuristic ESTIMATE of prompt complexity to pick a " ++
      "sovereign-first route — a routing choice, not a quality guarantee")))]

end SzlRouter
