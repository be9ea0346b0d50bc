import AtlasCore.Evidence.ClaimCheck
import AtlasCore.Lib.JsonDecode

/-!
# Which claims an output makes

Prose and structure are read separately: the bullets under a findings heading, and the fenced
`atlas-findings` block.  A block that cannot be read is reported, never skipped.

What is in the block is converted as Python converts it, by `str` and `int`, before the constructors
look at it, so a value of another type may pass and a number may raise what nobody catches.
`Runtime` holds what these conversions and the scanner depend on in the interpreter: the texts of
floats, how they are cut to integers, the case of letters, and how deep a text may be nested.
-/

set_option autoImplicit false

namespace AtlasCore

open Py

/-- What Python does that rests on tables this development does not carry: the Unicode case table,
the texts of floats and containers, and the rounding of a ratio of two lengths. -/
structure Runtime where
  /-- `str.lower`. -/
  lower : Str → Str
  lowerNil : lower [] = []
  /-- `str(value)` of a float, a list or a dict. -/
  strOf : Json → Str
  /-- `int(text)`, or `none` where it raises `ValueError`. -/
  intOfStr : Str → Option ℤ
  /-- `int(x)` of a finite JSON number, or `none` where the number reads as an infinity. -/
  intOfFloat : Decimal → Option ℤ
  /-- Whether a JSON number with a fraction or an exponent reads as zero. -/
  isZero : Decimal → Bool
  /-- The hundredths of `round(a / b, 2)`. -/
  hundredths : ℤ → ℕ → ℤ
  /-- How many containers `json.loads` opens inside each other. -/
  nesting : ℕ
  /-- How many containers `json.dumps` writes inside each other, with an indentation. -/
  rendering : ℕ
  /-- How many values `str` writes inside each other, where the id of a record is made. -/
  printing : ℕ

/-- The runtime on ASCII text, on numerals without a sign, and on blocks without floats. -/
def asciiRuntime : Runtime where
  lower := List.map fun c ↦ if 65 ≤ c.val ∧ c.val ≤ 90 then c + 32 else c
  lowerNil := rfl
  strOf := fun _ ↦ []
  intOfStr := fun s ↦ (s.mapM digitOf).map fun ds ↦ ofDigits 0 ds
  intOfFloat := fun _ ↦ none
  isZero := fun _ ↦ false
  hundredths := fun a b ↦ (200 * a + b) / (2 * b)
  nesting := 1000
  rendering := 1000
  printing := 1000

/-- `FINDINGS_FENCE`: the word after the fence that opens a block of findings. -/
def FINDINGS_FENCE : Str := str "atlas-findings"

/-- `FINDINGS_FENCE_V2`: the word of the second version, whose typed claims can compare two sources.
-/
def FINDINGS_FENCE_V2 : Str := str "atlas-findings.v2"

/-! ## Prose

What is read of an answer that has no block: its bullets, and whether it names a source at all. -/

/-- `_looks_like_a_path`: a word with a slash or a point in it. -/
def looksLikeAPath (candidate : Str) : Bool :=
  candidate != [] && ch ' ' ∉ candidate && (ch '/' ∈ candidate || ch '.' ∈ candidate)

/-- `_source_label`: the first line of an observation that ends in a colon and looks like a path
before it. -/
def sourceLabel (observation : Str) : Option Str :=
  (splitlines observation).findSome? fun line ↦
    let line := strip line
    let candidate := strip line.dropLast
    if endsWith line [ch ':'] && looksLikeAPath candidate then some candidate else none

/-- `observed_sources`: the labels of the observations, each once; what memory told is no source. -/
def observedSources (observations : List Str) : List Str :=
  observations.foldl (fun sources observation ↦
    if startsWith observation (str "Durable memory") then sources
    else
      match sourceLabel observation with
      | none => sources
      | some label => if label ∈ sources then sources else sources ++ [label]) []

/-- The loop of `findings_in`; `collecting` says whether a findings heading was the last one. -/
def findingsFrom (headings : List Str) : Bool → List Str → List Str
  | _, [] => []
  | collecting, line :: rest =>
    let stripped := strip line
    if startsWith stripped [ch '#'] then
      findingsFrom headings (headings.any (startsWith stripped)) rest
    else if collecting && startsWith stripped (str "- ") then
      strip (stripped.drop 2) :: findingsFrom headings collecting rest
    else findingsFrom headings collecting rest

/-- `findings_in`: the bullets under the headings of findings, up to the next heading. -/
def findingsIn (output : Str) (headings : List Str) : List Str :=
  findingsFrom headings false (splitlines output)

/-- `cites_a_source`: the label of some source is in the text of the finding. -/
def citesASource (finding : Str) (sources : List Str) : Bool := sources.any (contains · finding)

/-! ## The fenced block

The search for the block.  The first fence that opens one decides which version it is, and a fence
that is never closed opens none. -/

/-- The fence that opens a block, and closes it. -/
def fence : Str := str "```"

/-- The text up to the first line that starts with a fence: the lazy `(.*?)\n^```. -/
def bodyOf (s : Str) : Option Str :=
  if (lf :: fence).isPrefixOf s then some []
  else
    match s with
    | [] => none
    | c :: rest => (bodyOf rest).map (c :: ·)

/-- `\s*\n(.*?)\n^```, right after the name of the fence.  The white space is greedy: the last line
feed of it that leaves a body to be found is the one that is taken. -/
def afterFence : Str → Option Str
  | [] => none
  | c :: rest =>
    if isSpace c then
      (afterFence rest).orElse fun _ ↦ if c = lf then bodyOf rest else none
    else none

/-- `_FINDINGS_BLOCK` at the start of a line: whether the fence is the second version's, and the
body. -/
def blockHere (s : Str) : Option (Bool × Str) :=
  let body (name : Str) : Option Str :=
    if (fence ++ name).isPrefixOf s then afterFence (s.drop (fence ++ name).length) else none
  ((body FINDINGS_FENCE).map (false, ·)).orElse fun _ ↦ (body FINDINGS_FENCE_V2).map (true, ·)

/-- `_FINDINGS_BLOCK.search`; `atLine` says whether a line starts here. -/
def searchBlock : Bool → Str → Option (Bool × Str)
  | atLine, [] => if atLine then blockHere [] else none
  | atLine, c :: rest =>
    (if atLine then blockHere (c :: rest) else none).orElse fun _ ↦ searchBlock (c = lf) rest

/-! ## Reading the items

What is asked of the values of an item, with the exceptions that Python raises where the shape is
another one. -/

/-- `str(value)`: a text as it is, the words of Python for what has one, and for the rest what the
runtime writes. -/
def strValue (rt : Runtime) : Json → Str
  | .str s => s
  | .null => str "None"
  | .bool true => str "True"
  | .bool false => str "False"
  | .int z => decimalInt z
  | v => rt.strOf v

/-- `int(value)`: a number without its fraction, a boolean as 0 or 1, and a text that is written
like an integer. -/
def intValue (rt : Runtime) : Json → Except Exc ℤ
  | .int z => .ok z
  | .bool b => .ok (if b then 1 else 0)
  | .str s => match rt.intOfStr s with
    | some z => .ok z
    | none => .error .valueError
  | .float (.decimal d) => match rt.intOfFloat d with
    | some z => .ok z
    | none => .error .overflowError
  | .float .nan => .error .valueError
  | .float (.infinity _) => .error .overflowError
  | .null | .arr _ | .obj _ => .error .typeError

/-- `payload[key]`, as `str` reads it; a missing key raises. -/
def requiredStr (rt : Runtime) (payload : Fields) (key : String) : Except Exc Str :=
  match Json.lookup (str key) payload with
  | some v => .ok (strValue rt v)
  | none => .error .keyError

/-- `payload[key]`, as `int` reads it; a missing key raises. -/
def requiredInt (rt : Runtime) (payload : Fields) (key : String) : Except Exc ℤ :=
  match Json.lookup (str key) payload with
  | some v => intValue rt v
  | none => .error .keyError

/-- `str(payload.get(key, default))`: the default stands only for a missing key, not for a `null`.
-/
def strOr (rt : Runtime) (payload : Fields) (key : String) (default : Str) : Str :=
  match Json.lookup (str key) payload with
  | some v => strValue rt v
  | none => default

/-- `payload.get(key)`, with `null` for a key that is not there. -/
def getOrNull (payload : Fields) (key : String) : Json :=
  (Json.lookup (str key) payload).getD .null

theorem getOrNull_of_lookup {payload : Fields} {key : String} {v : Json}
    (h : Json.lookup (str key) payload = some v) : getOrNull payload key = v := by
  rw [getOrNull, h]
  rfl

/-- What is no `null` is there. -/
theorem lookup_of_getOrNull {payload : Fields} {key : String} {v : Json}
    (h : getOrNull payload key = v) (hv : v ≠ .null) : Json.lookup (str key) payload = some v := by
  rw [getOrNull] at h
  cases hlookup : Json.lookup (str key) payload with
  | none =>
    rw [hlookup] at h
    exact absurd h.symm hv
  | some w =>
    rw [hlookup] at h
    exact congrArg some h

/-- `_string_tuple`: a list of texts none of which is empty, and nothing else. -/
def stringTuple : Json → Except Exc (List Str)
  | .arr items => items.mapM fun
    | .str [] => .error .valueError
    | .str s => .ok s
    | _ => .error .valueError
  | _ => .error .typeError

/-- `TypedClaim(...)` of a literal claim: a source contains a text, or lacks it. -/
def TypedClaim.literal (kind : ClaimKind) (sourceId text : Str) : Except Exc TypedClaim :=
  if h : kind ≠ .commandTargetsDiffer ∧ text ≠ [] ∧ sourceId ≠ [] then
    .ok { kind, sourceId, text, namesText := h.2.1, namesSource := h.2.2
          fits := by rw [if_neg h.1]; exact ⟨rfl, rfl, rfl⟩ }
  else .error .valueError

/-- `TypedClaim(...)` of a comparison: a command has other targets in one source than in another. -/
def TypedClaim.comparison (sourceId text other : Str) (sourceTargets otherTargets : List Str) :
    Except Exc TypedClaim :=
  if h : text ≠ [] ∧ sourceId ≠ [] ∧ other ≠ [] ∧ other ≠ sourceId then
    .ok { kind := .commandTargetsDiffer, sourceId, text, sourceTargets, otherTargets
          otherSourceId := some other
          namesText := h.1
          namesSource := h.2.1
          fits := by rw [if_pos rfl]; exact ⟨other, rfl, h.2.2.1, h.2.2.2⟩ }
  else .error .valueError

/-- `build_typed_claim`: `null` is no claim, a kind that is unknown is refused, and so is a field
that the kind does not have. -/
def buildTypedClaim (rt : Runtime) : Json → Except Exc (Option TypedClaim)
  | .null => .ok none
  | .obj payload =>
    match ClaimKind.ofStr (strOr rt payload "kind" []) with
    | none => .error .valueError
    | some .commandTargetsDiffer => do
      let sourceId ← requiredStr rt payload "source_id"
      let text ← requiredStr rt payload "text"
      let other ← requiredStr rt payload "other_source_id"
      let sourceTargets ← stringTuple (getOrNull payload "source_targets")
      let otherTargets ← stringTuple (getOrNull payload "other_targets")
      return some (← TypedClaim.comparison sourceId text other sourceTargets otherTargets)
    | some kind => do
      let sourceId ← requiredStr rt payload "source_id"
      let text ← requiredStr rt payload "text"
      return some (← TypedClaim.literal kind sourceId text)
  | _ => .error .typeError

/-- `ClaimCondition(...)`: it names a source and a text. -/
def ClaimCondition.build (kind : ConditionKind) (sourceId text : Str) : Except Exc ClaimCondition :=
  if h : text ≠ [] ∧ sourceId ≠ [] then .ok ⟨kind, sourceId, text, h.1, h.2⟩
  else .error .valueError

/-- `build_condition`: `null` is no condition, and a kind that is unknown is refused. -/
def buildCondition (rt : Runtime) : Json → Except Exc (Option ClaimCondition)
  | .null => .ok none
  | .obj payload =>
    match ConditionKind.ofStr (strOr rt payload "kind" []) with
    | none => .error .valueError
    | some kind => do
      let sourceId ← requiredStr rt payload "source_id"
      let text ← requiredStr rt payload "text"
      return some (← ClaimCondition.build kind sourceId text)
  | _ => .error .typeError

/-- `_build_typed`, of an item that is a dict. -/
def buildTyped (rt : Runtime) (item : Fields) : Except Exc (Option TypedClaim) := do
  let typed ← buildTypedClaim rt (getOrNull item "typed_claim")
  match typed, getOrNull item "claim_check" with
  | none, _ => return none
  | some claim, .null => return some claim
  | some _, _ => .error .valueError

/-- `_PRODUCER_KEYS`: what a producer may say of a finding; the rest is computed. -/
def producerKeys : List Str :=
  [str "claim", str "scope", str "severity", str "severity_rationale", str "evidence",
    str "typed_claim", str "claim_check", str "limitations", str "reproducible_command"]

/-- `_build_reference`: a citation with every field converted, as `EvidenceRef` then checks it. -/
def buildReference (rt : Runtime) : Json → Except Exc EvidenceRef
  | .obj reference => do
    let sourceId ← requiredStr rt reference "source_id"
    let contentSha256 ← requiredStr rt reference "content_sha256"
    let lineStart ← requiredInt rt reference "line_start"
    let lineEnd ← requiredInt rt reference "line_end"
    let quoted ← requiredStr rt reference "quoted"
    EvidenceRef.build sourceId contentSha256 lineStart lineEnd quoted
  | _ => .error .typeError

/-- `[str(limit) for limit in item.get("limitations") or []]`, which raises where the value is
neither false nor a sequence. -/
def checkLimitations (rt : Runtime) : Json → Except Exc Unit
  | .bool true => .error .typeError
  | .int z => if z = 0 then .ok () else .error .typeError
  | .float (.decimal d) => if rt.isZero d then .ok () else .error .typeError
  | .float _ => .error .typeError
  | _ => .ok ()

/-- `_build_finding`, of an item that is a dict. -/
def buildFinding (rt : Runtime) (item : Fields) : Except Exc Finding := do
  if item.any fun p ↦ p.1 ∉ producerKeys then .error .valueError
  else
    match getOrNull item "evidence" with
    | .arr references =>
      let claim ← requiredStr rt item "claim"
      let scope ← requiredStr rt item "scope"
      let evidence ← references.mapM (buildReference rt)
      checkLimitations rt (getOrNull item "limitations")
      Finding.create claim scope (strOr rt item "severity" UNKNOWN)
        (strOr rt item "severity_rationale" []) evidence
        (strOr rt item "reproducible_command" UNKNOWN)
    | _ => .error .typeError

/-- A finding with what it declared about itself. -/
structure Entry where
  finding : Finding
  typed : Option TypedClaim
  condition : Option ClaimCondition

/-- One pass of the loop of `structured_findings`; `v2` is the version of the fence. -/
def buildEntry (rt : Runtime) (v2 : Bool) : Json → Except Exc Entry
  | .obj item => do
    let typed ← buildTyped rt item
    if (typed.map (·.kind)) = some .commandTargetsDiffer ∧ v2 = false then .error .valueError
    else
      let finding ← buildFinding rt item
      let condition ← buildCondition rt (getOrNull item "claim_check")
      return ⟨finding, typed, condition⟩
  | _ => .error .typeError

/-- The structured half of an output: the findings of its block, and whether there was a block that
could be read. -/
structure ParsedFindings where
  entries : List Entry := []
  /-- Present but unreadable. -/
  malformed : Bool := false
  present : Bool := false

/-- `structured_findings`: the first block is read whole or not at all, so one bad entry makes all
of it malformed. -/
def structuredFindings (rt : Runtime) (output : Str) : Except Exc ParsedFindings :=
  match searchBlock true output with
  | none => .ok {}
  | some (v2, body) =>
    match Json.decode rt.nesting body with
    | .ok (.arr payload) =>
      match payload.mapM (buildEntry rt v2) with
      | .ok entries => .ok { entries, present := true }
      | .error e => if e.isUnusable then .ok { malformed := true, present := true } else .error e
    | .ok _ | .error .malformed => .ok { malformed := true, present := true }
    -- only `JSONDecodeError` is caught, and this is a plain `ValueError`
    | .error (.gaveUp .tooLong) => .error .valueError
    | .error (.gaveUp .tooDeep) => .error .recursionError

/-- `ParsedFindings.claims`: the claims of the entries, in their order. -/
def ParsedFindings.claims (p : ParsedFindings) : List Str := p.entries.map (·.finding.claim)

end AtlasCore
