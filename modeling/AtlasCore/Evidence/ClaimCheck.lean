import AtlasCore.Evidence.Finding
import AtlasCore.Lib.Json

/-!
# Deciding whether the source supports the claim

Only a *typed claim* can be settled: literal presence or absence over the observed lines of one
cited source, or the narrow relation between the command lines cited from two.  The sentence a
reader sees must be the one derived from the typed claim.  A free condition beside a free-text
finding is settled too, and its outcome is never decisive.
-/

set_option autoImplicit false

namespace AtlasCore

open Py

/-- `ClaimKind`: what a typed claim can say of its source. -/
inductive ClaimKind where
  | contains | lacks | commandTargetsDiffer
  deriving DecidableEq

/-- The text of a `ClaimKind`, as a block of findings has it. -/
def ClaimKind.text : ClaimKind → Str
  | contains => str "source_contains_literal"
  | lacks => str "source_lacks_literal"
  | commandTargetsDiffer => str "command_targets_differ"

/-- `ClaimKind(kind)`, if it is in `CLAIM_KINDS`; the texts of the kinds are distinct. -/
def ClaimKind.ofStr (s : Str) : Option ClaimKind :=
  [contains, lacks, commandTargetsDiffer].find? fun k ↦ k.text = s

/-- `ConditionKind`: what a condition can ask of its source. -/
inductive ConditionKind where
  | absent | present
  deriving DecidableEq

/-- The text of a `ConditionKind`, as a block of findings has it. -/
def ConditionKind.text : ConditionKind → Str
  | absent => str "absent"
  | present => str "present"

/-- `ConditionKind(kind)`, if it is in `SUPPORTED_KINDS`; the texts of the kinds are distinct. -/
def ConditionKind.ofStr (s : Str) : Option ConditionKind :=
  [absent, present].find? fun k ↦ k.text = s

/-- `ClaimResult`: what checking a claim can come to, most of which is not a decision about the
claim. -/
inductive ClaimResult where
  | verified
  | contradicted
  | conditionSupported
  | conditionRefuted
  | notDeclared
  | claimTextMismatch
  | unsupportedKind
  | sourceNotCited
  | sourceUnavailable
  deriving DecidableEq

/-- `DECISIVE`: the claim itself was found to be true, or to be false. -/
def ClaimResult.isDecisive : ClaimResult → Bool
  | verified | contradicted => true
  | _ => false

/-- A claim stated so that settling it settles the claim. -/
structure TypedClaim where
  kind : ClaimKind
  sourceId : Str
  text : Str
  otherSourceId : Option Str := none
  sourceTargets : List Str := []
  otherTargets : List Str := []
  namesText : text ≠ []
  namesSource : sourceId ≠ []
  /-- A comparison names a second source, another one; a literal claim has none of its fields. -/
  fits : if kind = .commandTargetsDiffer then
      (∃ other, otherSourceId = some other ∧ other ≠ [] ∧ other ≠ sourceId)
    else otherSourceId = none ∧ sourceTargets = [] ∧ otherTargets = []

/-- A free-standing test a producer declares about a free-text claim. -/
structure ClaimCondition where
  kind : ConditionKind
  sourceId : Str
  text : Str
  namesText : text ≠ []
  namesSource : sourceId ≠ []

/-- A text as `json.dumps` quotes it, so that the sentence shows where it begins and ends. -/
def quoted (s : Str) : Str := Json.renderString s

/-- A list of texts as `json.dumps` writes it. -/
def quotedList (ss : List Str) : Str := Json.render (.arr (ss.map .str))

/-- `TypedClaim.render` of a literal claim: the one sentence that says exactly what is checked. -/
def TypedClaim.render (c : TypedClaim) (path : Str) (lineStart lineEnd : ℤ) : Str :=
  let verb := if c.kind = .contains then str "contain" else str "do not contain"
  path ++ str " lines " ++ decimalInt lineStart ++ [ch '-'] ++ decimalInt lineEnd ++ [ch ' '] ++
    verb ++ [ch ' '] ++ quoted c.text

/-- `TypedClaim.render` of a comparison: the command, and the targets it has in either source. -/
def TypedClaim.renderCommands (c : TypedClaim) (path otherPath : Str) : Str :=
  str "command " ++ quoted c.text ++ str " targets differ: " ++ path ++ [ch '='] ++
    quotedList c.sourceTargets ++ str "; " ++ otherPath ++ [ch '='] ++ quotedList c.otherTargets

/-- What was evaluated, as far as it was: the keys of the `checked` dict that are there. -/
structure Checked where
  kind : Option Str := none
  sourceId : Option Str := none
  otherSourceId : Option Str := none
  text : Option Str := none
  path : Option Str := none
  otherPath : Option Str := none
  lineStart : Option ℤ := none
  lineEnd : Option ℤ := none
  readInFull : Option Bool := none
  totalLines : Option ℤ := none
  sourceTargets : List Str := []
  otherTargets : List Str := []
  expectedClaim : Option Str := none
  deriving DecidableEq

/-- Why a verdict is what it is: which sentence, and what it is about. -/
inductive Reason where
  | notCited (sourceId : Str)
  | notRead (sourceId : Str)
  | noReader (sourceType : SourceType)
  | outsideRoot (path : Str)
  | unreadable (path : Str)
  | changed (path : Str)
  | excerptMoved (path : Str)
  | freeText
  | noTest
  | otherText (expected : Str)
  /-- `extent` is there where only a part of the source was searched for something absent. -/
  | held (expected : Str) (extent : Option (ℤ × ℤ × Option ℤ))
  | refuted (expected : Str)
  | noSecondSource
  | noSingleCommand (command : Str)
  | targetsHeld (expected : Str)
  | targetsRefuted (path otherPath : Str) (targets otherTargets : List Str)
  | condition (kind : ConditionKind) (text path : Str) (lineStart lineEnd : ℤ) (held : Bool)
  deriving DecidableEq

/-- The outcome of checking a claim, with its reason and with what it was checked against. -/
structure ClaimVerdict where
  result : ClaimResult
  reason : Reason
  checked : Option Checked := none
  deriving DecidableEq

/-- `ClaimVerdict.is_decisive`: only such a verdict may become the verdict of a finding. -/
def ClaimVerdict.isDecisive (v : ClaimVerdict) : Bool := v.result.isDecisive

/-- `Observation.read_in_full`: whether the excerpt is the whole file; nobody knows where the lines
were not counted. -/
def ObservationFields.readInFull (o : ObservationFields) : Option Bool :=
  match o.totalLines with
  | none => none
  | some 0 => some (o.lineEnd = 0)
  | some total => some (o.lineStart = 1 ∧ o.lineEnd ≥ total)

/-! ## The command lines of a citation

How a line that was quoted from a file is taken for a command and its targets. -/

/-- `PurePosixPath(token).name`: the last part of a path. -/
def baseName (token : Str) : Str := (posix.parts token).getLast?.getD []

/-- `token.strip("'\"")`: the quotes around a word of a shell line. -/
def stripQuotes (token : Str) : Str := stripBy (fun c ↦ c == ch '\'' || c == ch '"') token

/-- `token.lstrip("./")`: every point and slash at the beginning, not only one `./`. -/
def lstripDotSlash (token : Str) : Str := lstripBy (fun c ↦ c == ch '.' || c == ch '/') token

/-- `token.replace("$ROOT/", "")`: the checkout, by the name that the scripts have for it. -/
def dropRoot (token : Str) : Str := replace (str "$ROOT/") [] token

/-- `_quote_names_command`: some word of the quoted line is the command, by whatever path it is
called. -/
def quoteNamesCommand (quote command : Str) : Bool :=
  (words quote).any fun token ↦ baseName (dropRoot (lstripDotSlash (stripQuotes token))) = command

/-- What follows the last item that satisfies `p`, if any does. -/
def afterLast {α : Type*} (p : α → Bool) (xs : List α) : Option (List α) :=
  if xs.any p then some (xs.reverse.takeWhile fun x ↦ !p x).reverse else none

/-- `_command_targets`, sorted and without repetitions: the words after the command that look like
paths and not like options. -/
def commandTargets (quote command : Str) : List Str :=
  let tokens := (words quote).map fun token ↦ dropRoot (stripQuotes token)
  match afterLast (fun token ↦ baseName (lstripDotSlash token) = command) tokens with
  | none => []
  | some tokens =>
    let targets := (tokens.filter fun t ↦ ch '/' ∈ t && !startsWith t [ch '-']).map fun t ↦
      rstripBy (· == ch '/') (lstripDotSlash t)
    targets.dedup.insertionSort (Json.keyLe · ·)

/-- `_targets_from_cited_command`: the targets of the one citation that names the command; with none
or several there is nothing to compare. -/
def targetsFromCitedCommand (finding : Finding) (sourceId command : Str) : Option (List Str) :=
  match (finding.evidence.filter fun ref ↦
      ref.sourceId = sourceId && quoteNamesCommand ref.quoted command) with
  | [ref] => some (commandTargets ref.quoted command)
  | _ => none

/-! ## Settling

Every check takes a list of observations, and for each of them the reader of its source type.  A
base gives both. -/

variable {W : Type} (reader : Observation → Option (Eff Exc W Str))
  (observations : List Observation)

/-- `_observed_text`: the observation and its lines, read again, or a verdict where nothing can
be settled. -/
def observedTextOf (finding : Finding) (sourceId : Str) :
    Eff Exc W (Except ClaimVerdict (Observation × Str)) :=
  if sourceId ∉ finding.evidence.map (·.sourceId) then
    return .error ⟨.sourceNotCited, .notCited sourceId, none⟩
  else
    match byId observations sourceId with
    | none => return .error ⟨.sourceUnavailable, .notRead sourceId, none⟩
    | some o =>
      match reader o with
      | none => return .error ⟨.unsupportedKind, .noReader o.sourceType, none⟩
      | some read => do
        match ← tryRead read (⟨.sourceUnavailable, .outsideRoot o.path, none⟩ : ClaimVerdict)
            ⟨.sourceUnavailable, .unreadable o.path, none⟩ with
        | .error verdict => return .error verdict
        | .ok content =>
          let digest ← sha256OrRaise content
          if digest ≠ o.contentSha256 then
            return .error ⟨.sourceUnavailable, .changed o.path, none⟩
          else
            let observed := linesOf content o.lineStart o.lineEnd
            if observed ≠ o.excerpt then
              return .error ⟨.sourceUnavailable, .excerptMoved o.path, none⟩
            else return .ok (o, observed)

/-- `TypedClaim.holds_for` of a literal claim: whether the text is in what was observed. -/
def TypedClaim.holdsFor (c : TypedClaim) (observed : Str) : Bool :=
  if c.kind = .contains then contains c.text observed else !contains c.text observed

/-- `check_typed_claim` of a literal claim, once its lines are known. -/
def settleLiteral (finding : Finding) (claim : TypedClaim) (o : Observation)
    (observed : Str) : ClaimVerdict :=
  let expected := claim.render o.path o.lineStart o.lineEnd
  if strip finding.claim ≠ expected then
    ⟨.claimTextMismatch, .otherText expected, some { expectedClaim := some expected }⟩
  else
    let checked : Checked :=
      { kind := some claim.kind.text
        sourceId := some claim.sourceId
        text := some claim.text
        path := some o.path
        lineStart := some o.lineStart
        lineEnd := some o.lineEnd
        readInFull := o.readInFull
        totalLines := o.totalLines }
    if claim.holdsFor observed then
      let extent := if claim.kind = .lacks ∧ o.readInFull ≠ some true then
        some (o.lineStart, o.lineEnd, o.totalLines) else none
      ⟨.verified, .held expected extent, some checked⟩
    else ⟨.contradicted, .refuted expected, some checked⟩

/-- `_check_command_targets_differ`, once both sources are known: both sets of targets are derived
again and compared with those that are claimed. -/
def settleCommands (finding : Finding) (claim : TypedClaim) (other : Str)
    (left right : Observation) : ClaimVerdict :=
  match targetsFromCitedCommand finding claim.sourceId claim.text,
      targetsFromCitedCommand finding other claim.text with
  | some leftTargets, some rightTargets =>
    let expected := claim.renderCommands left.path right.path
    let checked : Checked :=
      { kind := some claim.kind.text
        sourceId := some claim.sourceId
        otherSourceId := some other
        text := some claim.text
        path := some left.path
        otherPath := some right.path
        sourceTargets := leftTargets
        otherTargets := rightTargets }
    if strip finding.claim ≠ expected then
      ⟨.claimTextMismatch, .otherText expected,
        some { checked with expectedClaim := some expected }⟩
    else
      let declaredLeft := claim.sourceTargets.insertionSort (Json.keyLe · ·)
      let declaredRight := claim.otherTargets.insertionSort (Json.keyLe · ·)
      if leftTargets = declaredLeft ∧ rightTargets = declaredRight ∧ leftTargets ≠ rightTargets then
        ⟨.verified, .targetsHeld expected, some checked⟩
      else
        ⟨.contradicted, .targetsRefuted left.path right.path leftTargets rightTargets, some checked⟩
  | _, _ => ⟨.unsupportedKind, .noSingleCommand claim.text, none⟩

/-- `_check_command_targets_differ`: both sources are read, the second only if the first can be. -/
def checkCommandTargetsDiffer (finding : Finding) (claim : TypedClaim) : Eff Exc W ClaimVerdict :=
  match claim.otherSourceId with
  | none => return ⟨.unsupportedKind, .noSecondSource, none⟩
  | some other => do
    match ← observedTextOf reader observations finding claim.sourceId with
    | .error verdict => return verdict
    | .ok (left, _) =>
      match ← observedTextOf reader observations finding other with
      | .error verdict => return verdict
      | .ok (right, _) => return settleCommands finding claim other left right

/-- `check_typed_claim`: a literal claim rests on one source, a comparison on two. -/
def checkTypedClaim (finding : Finding) (claim : TypedClaim) : Eff Exc W ClaimVerdict :=
  if claim.kind = .commandTargetsDiffer then
    checkCommandTargetsDiffer reader observations finding claim
  else do
    match ← observedTextOf reader observations finding claim.sourceId with
    | .error verdict => return verdict
    | .ok (o, observed) => return settleLiteral finding claim o observed

/-- `ClaimCondition.holds_for`: whether the text is in what was observed, or is not, as the
condition asks. -/
def ClaimCondition.holdsFor (c : ClaimCondition) (observed : Str) : Bool :=
  if c.kind = .absent then !contains c.text observed else contains c.text observed

/-- `check_condition`: it is supported or refuted by the lines that were observed, which decides
nothing about the claim. -/
def checkCondition (finding : Finding) : Option ClaimCondition → Eff Exc W ClaimVerdict
  | none => return ⟨.notDeclared, .noTest, none⟩
  | some condition => do
    match ← observedTextOf reader observations finding condition.sourceId with
    | .error verdict => return verdict
    | .ok (o, observed) =>
      let held := condition.holdsFor observed
      return {
        result := if held then .conditionSupported else .conditionRefuted
        reason := .condition condition.kind condition.text o.path o.lineStart o.lineEnd held
        checked := some
          { kind := some condition.kind.text
            sourceId := some condition.sourceId
            text := some condition.text
            path := some o.path
            lineStart := some o.lineStart
            lineEnd := some o.lineEnd } }

/-- `check_claim`: a typed claim is settled as the claim, a condition as a condition. -/
def checkClaimOf (finding : Finding) (typed : Option TypedClaim)
    (condition : Option ClaimCondition) :
    Eff Exc W ClaimVerdict :=
  match typed with
  | some claim => checkTypedClaim reader observations finding claim
  | none => checkCondition reader observations finding condition

/-- `_observed_text` of the observations of a base, with the readers it has for their types. -/
def observedText (src : Sources W) (base : EvidenceBase) (finding : Finding) (sourceId : Str) :
    Eff Exc W (Except ClaimVerdict (Observation × Str)) :=
  observedTextOf (readerFor src base) base.observations finding sourceId

/-- `check_claim` of a finding that is graded against a base. -/
def checkClaim (src : Sources W) (base : EvidenceBase) (finding : Finding)
    (typed : Option TypedClaim) (condition : Option ClaimCondition) : Eff Exc W ClaimVerdict :=
  checkClaimOf (readerFor src base) base.observations finding typed condition

/-! ## Recording the outcome on the finding

What was decided of a claim is written down on its finding, which is what a grade then reads. -/

/-- The verdict of a `ClaimResult` that may move a finding. -/
def ClaimResult.verdict : ClaimResult → Verdict
  | verified => .verified
  | contradicted => .contradicted
  | _ => .insufficientEvidence

/-- A finding with the outcome of a check; its severity survives only `verified`. -/
def Finding.decided (f : Finding) (verdict : Verdict) (method : VerificationMethod) : Finding :=
  { f with
    verdict := verdict
    verificationMethod := method
    severity := severityAfter verdict f }

/-- `EvidenceCheck.apply_to`: sound citations alone are not sufficient evidence. -/
def EvidenceCheck.applyTo (_ : EvidenceCheck) (f : Finding) : Finding :=
  f.decided .insufficientEvidence .deterministicEvidenceCheck

/-- `apply_verdict`: a decisive verdict counts where the citations hold, and nothing else does. -/
def applyVerdict (f : Finding) (evidence : EvidenceCheck) (claim : ClaimVerdict) : Finding :=
  if evidence.citationsAreSound && claim.isDecisive then f.decided claim.result.verdict .semantic
  else f.decided .insufficientEvidence .deterministicEvidenceCheck

/-- A record says `verified` exactly of sound citations and a claim that was settled in its
favour. -/
theorem applyVerdict_verified {f : Finding} {evidence : EvidenceCheck} {claim : ClaimVerdict} :
    (applyVerdict f evidence claim).verdict = .verified ↔
      evidence.citationsAreSound = true ∧ claim.result = .verified := by
  rw [applyVerdict]
  cases hs : evidence.citationsAreSound
  · simp [Finding.decided]
  · cases hr : claim.result <;>
      simp [Finding.decided, ClaimVerdict.isDecisive, ClaimResult.isDecisive, hr,
        ClaimResult.verdict]

end AtlasCore
