import AtlasCore.Review.Plan

/-!
# Grading one output

`evaluate` grades an output against the exit criteria of its route.  With an evidence base the
findings are checked against the observations, and every gap that is found fails the criteria it is
listed for; what is not failed counts as met.

The gaps come in a fixed order, and one of them may cut the rest of the checks short: without
observations nothing is parsed, and without a block nothing is checked.  Every finding that is
checked leaves a record, with the status of each of its citations, so that the grade can be traced
to what it rests on.
-/

set_option autoImplicit false

namespace AtlasCore

open Py

/-! ## Criteria and gaps

The vocabulary of a grade.  A gap blames a criterion, and which criteria there are depends on the
route and on whether there is a base. -/

/-- `REQUIRED_SECTIONS`: the parts that every output has to have. -/
inductive Section where
  | recommendation | nextStep | confidence
  deriving DecidableEq

/-- The codes of the exit criteria: what a route asks of an output before it passes. -/
inductive Criterion where
  | planTargetsRead
  | sourcesDocumented
  | findingsAreCheckable
  | citationsHold
  | claimsAreSettled
  | required (s : Section)
  | substance
  | findingsAreOnTopic
  | findingsAnswerTheQuestion
  deriving DecidableEq

/-- The text of a section code, as a grade has it. -/
def Section.code : Section → Str
  | recommendation => str "recommendation"
  | nextStep => str "next_step"
  | confidence => str "confidence"

/-- The text of a criterion, as a grade has it. -/
def Criterion.code : Criterion → Str
  | planTargetsRead => str "plan_targets_read"
  | sourcesDocumented => str "sources_documented"
  | findingsAreCheckable => str "findings_are_checkable"
  | citationsHold => str "citations_hold"
  | claimsAreSettled => str "claims_are_settled"
  | required s => s.code
  | substance => str "substance"
  | findingsAreOnTopic => str "findings_are_on_topic"
  | findingsAnswerTheQuestion => str "findings_answer_the_question"

/-- The gap codes of the evidence grading: what is wrong with the sources, the citations or the
claims. -/
inductive Gap where
  | noSourcesObserved
  | sourcesNotDocumented
  | uncitedFindings
  | uncheckableFindings
  | malformedFindings
  | unsoundCitations
  | contradictedFindings
  | unverifiedFindings
  | claimTextMismatch
  | planTargetsUnread
  | noOnTopicFinding
  | noAnsweringFinding
  | claimsNotChecked
  deriving DecidableEq

/-- The text of a gap code, as a grade has it. -/
def Gap.code : Gap → Str
  | noSourcesObserved => str "no_sources_observed"
  | sourcesNotDocumented => str "sources_not_documented"
  | uncitedFindings => str "uncited_findings"
  | uncheckableFindings => str "uncheckable_findings"
  | malformedFindings => str "malformed_findings"
  | unsoundCitations => str "unsound_citations"
  | contradictedFindings => str "contradicted_findings"
  | unverifiedFindings => str "unverified_findings"
  | claimTextMismatch => str "claim_text_mismatch"
  | planTargetsUnread => str "plan_targets_unread"
  | noOnTopicFinding => str "no_on_topic_finding"
  | noAnsweringFinding => str "no_answering_finding"
  | claimsNotChecked => str "claims_not_checked"

/-- `_CRITERION_FOR_GAP`: the criteria that a gap leaves unmet. -/
def criterionForGap : Gap → List Criterion
  | .noSourcesObserved => [.sourcesDocumented]
  | .sourcesNotDocumented => [.sourcesDocumented]
  | .uncitedFindings => [.findingsAreCheckable]
  | .uncheckableFindings => [.findingsAreCheckable]
  | .malformedFindings => [.findingsAreCheckable, .citationsHold, .claimsAreSettled]
  | .unsoundCitations => [.citationsHold]
  | .contradictedFindings => [.claimsAreSettled]
  | .unverifiedFindings => [.claimsAreSettled]
  | .claimTextMismatch => [.claimsAreSettled]
  | .planTargetsUnread => [.planTargetsRead]
  | .noOnTopicFinding => [.findingsAreOnTopic, .findingsAnswerTheQuestion]
  | .noAnsweringFinding => [.findingsAnswerTheQuestion]
  | .claimsNotChecked => [.claimsAreSettled, .citationsHold, .findingsAreCheckable]

/-- `EXIT_CRITERIA.get(route_name, EXIT_CRITERIA["__generic__"])`: what has to be met on a route;
all but one share the generic list. -/
def exitCriteria : Option RouteName → List Criterion
  | some .repoReview =>
    [.planTargetsRead, .sourcesDocumented, .findingsAreCheckable, .citationsHold,
      .claimsAreSettled, .required .recommendation, .required .nextStep, .required .confidence]
  | _ => [.substance, .required .recommendation, .required .nextStep, .required .confidence]

/-- `criteria_for`: the criteria of the route, and those of a question that narrowed. -/
def criteriaFor (route : Option RouteName) : Option ReviewPlan → List Criterion
  | none => exitCriteria route
  | some review =>
    if review.narrowed then
      exitCriteria route ++ [.findingsAreOnTopic] ++
        (if review.answering.isEmpty then [] else [.findingsAnswerTheQuestion])
    else exitCriteria route

/-- `MIN_SUBSTANCE`: how many characters an output has at least on a route that asks for no
evidence. -/
def MIN_SUBSTANCE : ℕ := 300

/-- `REQUIRED_SECTIONS[code]`: the headings that are accepted for a section. -/
def Section.markers : Section → List Str
  | recommendation => [str "## Recommendation", str "## Recommended", str "## Rekommendation"]
  | nextStep => [str "## Next step", str "## Recommended next step", str "## Nästa steg"]
  | confidence => [str "## Confidence", str "## Konfidens"]

/-- `missing_sections`: a section is there if one of its headings is in the text, wherever that is.
-/
def missingSections (output : Str) : List Section :=
  [Section.recommendation, .nextStep, .confidence].filter fun s ↦
    !s.markers.any (contains · output)

/-- What it takes for one kind of task to count as done. -/
structure RouteEvaluator where
  evidenceHeading : Str
  findingHeadings : List Str
  requiresSources : Bool
  /-- `min_coverage`, in hundredths. -/
  minCoverage : ℤ := 100
  requiresClaimCheck : Bool := false

/-- `ROUTE_EVALUATORS.get(route_name)`: how the evidence of a route is graded; most routes have no
such contract. -/
def routeEvaluator : Option RouteName → Option RouteEvaluator
  | some .repoReview =>
    some
      { evidenceHeading := str "## Observed sources"
        findingHeadings := [str "## Findings", str "## Verified findings"]
        requiresSources := true
        requiresClaimCheck := true }
  | _ => none

/-! ## The record of a finding

What a grade keeps of a finding that it has checked. -/

/-- One citation of a record: the span it relied on and what became of it. -/
structure CitationStatus where
  sourceId : Str
  status : EvidenceStatus
  lineStart : ℤ
  lineEnd : ℤ
  quoted : Str
  deriving DecidableEq

/-- One finding's full record: the pointer, the claim and the verdict. -/
structure CitationRecord where
  findingId : Str
  claim : Str
  verdict : Verdict
  verificationMethod : VerificationMethod
  severity : Severity
  declaredSeverity : Severity
  severityRationale : Str
  citationsAreSound : Bool
  statuses : List CitationStatus
  claimCheck : Option ClaimVerdict
  deriving DecidableEq

/-- `_citation_record`.  The source raises where the numbers of statuses and citations differ;
`checkFinding` returns one status for each citation. -/
def citationRecord (finding : Finding) (check : EvidenceCheck)
    (claim : Option ClaimVerdict) : CitationRecord :=
  let decided := match claim with
    | some verdict => applyVerdict finding check verdict
    | none => check.applyTo finding
  { findingId := finding.findingId
    claim := finding.claim
    verdict := decided.verdict
    verificationMethod := decided.verificationMethod
    severity := decided.severity
    declaredSeverity := decided.declaredSeverity
    severityRationale := decided.severityRationale
    citationsAreSound := check.citationsAreSound
    statuses := (check.statuses.zip finding.evidence).map fun p ↦
      ⟨p.1.1, p.1.2, p.2.lineStart, p.2.lineEnd, p.2.quoted⟩
    claimCheck := claim }

/-! ## Grading against the evidence base

The checks of the findings, one after the other, and what is counted of them. -/

/-- `_Evidence`, without its sentences for a reader: the gaps, the coverage, and the record of every
citation. -/
structure Evidence where
  gaps : List Gap
  unverified : List Str := []
  /-- In hundredths. -/
  coverage : Option ℤ := none
  actionable : Bool := false
  citationChecks : List CitationRecord := []
  blockedBy : List Str := []

/-- `EvidenceStatus.value`: the text of a status, as a record has it. -/
def EvidenceStatus.value : EvidenceStatus → Str
  | unknownSource => str "unknown_source"
  | digestMismatch => str "digest_mismatch"
  | quoteMismatch => str "quote_mismatch"
  | staleSource => str "stale_source"
  | unsupportedSourceType => str "unsupported_source_type"
  | pathRefused => str "path_refused"
  | excerptMismatch => str "excerpt_mismatch"
  | quoteOutsideExcerpt => str "quote_outside_excerpt"
  | intact => str "intact"

/-- `_REQUOTABLE`: the citation itself is wrong, and another one could be right. -/
def EvidenceStatus.isRequotable : EvidenceStatus → Bool
  | unknownSource | digestMismatch | quoteMismatch | quoteOutsideExcerpt => true
  | _ => false

/-- What a call established about one finding, each finding on its own. -/
structure CheckedFinding where
  entry : Entry
  check : EvidenceCheck
  /-- The verdict of its own claim check, where its citations were sound. -/
  own : Option ClaimVerdict

/-- The finding of a checked entry, without what was found out about it. -/
def CheckedFinding.finding (c : CheckedFinding) : Finding := c.entry.finding

/-- Its citations hold: each of them reads now as it was quoted. -/
def CheckedFinding.isSound (c : CheckedFinding) : Bool := c.check.citationsAreSound

variable {W : Type} (src : Sources W) (base : EvidenceBase)

/-- The checks of a block: the citations of every finding first, and then the claims of those whose
citations hold. -/
def checkEntries (contract : RouteEvaluator) (entries : List Entry) :
    Eff Exc W (List CheckedFinding) := do
  let checks ← entries.mapM fun entry ↦ do
    return (entry, ← checkFinding src base entry.finding)
  checks.mapM fun (entry, check) ↦ do
    if contract.requiresClaimCheck && check.citationsAreSound then
      return ⟨entry, check, some (← checkClaim src base entry.finding entry.typed entry.condition)⟩
    else return ⟨entry, check, none⟩

/-- `claim_verdicts`: a dict with the finding ids as keys, so that a later finding replaces the
verdict of an earlier one with its id. -/
def claimVerdicts (checks : List CheckedFinding) : Str → Option ClaimVerdict :=
  checks.foldl (fun verdicts c ↦
    match c.own with
    | some verdict => fun id ↦ if id = c.finding.findingId then some verdict else verdicts id
    | none => verdicts) fun _ ↦ none

/-- The verdict that is recorded for a finding. -/
def recordedVerdict (checks : List CheckedFinding) (c : CheckedFinding) : Option ClaimVerdict :=
  claimVerdicts checks c.finding.findingId

/-- The findings whose recorded verdict has one result. -/
def withResult (checks : List CheckedFinding) (result : ClaimResult) : List CheckedFinding :=
  checks.filter fun c ↦ (recordedVerdict checks c).any (·.result = result)

/-- `unchecked`: sound, with a recorded verdict that decides nothing. -/
def uncheckedOf (checks : List CheckedFinding) : List CheckedFinding :=
  checks.filter fun c ↦ c.isSound &&
    (recordedVerdict checks c).any fun v ↦ !v.isDecisive && v.result ≠ .claimTextMismatch

/-- `_blocking_statuses`: what stands in the way of the unsound findings and no other quotation
would change. -/
def blockingStatuses (unsound : List CheckedFinding) : List EvidenceStatus :=
  unsound.flatMap fun c ↦
    (c.check.statuses.map (·.2)).filter fun s ↦ s ≠ .intact && !s.isRequotable

/-- The claims of some findings, in their order. -/
def claimsOf (checks : List CheckedFinding) : List Str := checks.map (·.finding.claim)

/-- `_missing_block`: there should be a block of findings, and there is none that can be read. -/
def missingBlock : Evidence := { gaps := [.malformedFindings], actionable := true }

/-- The second half of `_grade_against_evidence`: what follows from the checks.  `uncheckable` are
the bullets that no claim of the block equals. -/
def gradeChecks (rt : Runtime) (contract : RouteEvaluator) (output : Str) (uncheckable : List Str)
    (checks : List CheckedFinding) : Evidence :=
  let unsound := checks.filter fun c ↦ !c.isSound
  if checks.isEmpty && uncheckable.isEmpty then
    if !contains contract.evidenceHeading output then
      { gaps := [.sourcesNotDocumented], actionable := true }
    else { gaps := [] }
  else
    let records := checks.map fun c ↦ citationRecord c.finding c.check (recordedVerdict checks c)
    let refuted := withResult checks .contradicted
    let mismatched := withResult checks .claimTextMismatch
    let unchecked := uncheckedOf checks
    let considered := checks.length + uncheckable.length
    let supported : ℤ := considered - unsound.length - uncheckable.length - refuted.length -
      mismatched.length - unchecked.length
    let coverage := some (rt.hundredths supported considered)
    let gaps :=
      (if uncheckable.isEmpty then [] else [Gap.uncheckableFindings]) ++
      (if unsound.isEmpty then [] else [.unsoundCitations]) ++
      (if refuted.isEmpty then [] else [.contradictedFindings]) ++
      (if mismatched.isEmpty then [] else [.claimTextMismatch]) ++
      (if unchecked.isEmpty then [] else [.unverifiedFindings])
    if gaps.isEmpty then { gaps := [], coverage, citationChecks := records }
    else
      let blocking := (blockingStatuses unsound).map (·.value)
      { gaps
        coverage
        unverified := uncheckable ++ claimsOf unsound ++ claimsOf refuted ++ claimsOf mismatched ++
          claimsOf unchecked
        -- `_is_requotable`: one blocking status decides for the whole output
        actionable := blocking.isEmpty && (!uncheckable.isEmpty || !unsound.isEmpty ||
          !refuted.isEmpty || !(unchecked ++ mismatched).isEmpty)
        citationChecks := records
        blockedBy := blocking.dedup.insertionSort (Json.keyLe · ·) }

/-- The bullets under a findings heading that no claim of the block equals. -/
def uncheckableBullets (contract : RouteEvaluator) (output : Str)
    (parsed : ParsedFindings) : List Str :=
  (findingsIn output contract.findingHeadings).filter (· ∉ parsed.claims)

/-- `_grade_against_evidence`: every finding of the block is checked against the base, and the gaps
are what fails. -/
def gradeAgainstEvidence (rt : Runtime) (contract : RouteEvaluator) (output : Str)
    (structuredOutputRequired : Bool) (findingsSource : Str) : Eff Exc W Evidence :=
  if base.isEmpty then return { gaps := [.noSourcesObserved] }
  else do
    let parsed ← Eff.ofExcept (structuredFindings rt findingsSource)
    if parsed.malformed || (structuredOutputRequired && !parsed.present) then return missingBlock
    else
      let checks ← checkEntries src base contract parsed.entries
      return gradeChecks rt contract output (uncheckableBullets contract output parsed) checks

/-- The citation-only half of `_grade_evidence`, for an output that has no base to be checked
against. -/
def gradeCitations (rt : Runtime) (contract : RouteEvaluator) (output : Str) (sources : List Str)
    (structuredOutputRequired : Bool) (findingsSource : Str) : Except Exc Evidence := do
  if contract.requiresSources && sources.isEmpty then return { gaps := [.noSourcesObserved] }
  else
    let absent ← if structuredOutputRequired then
        (fun parsed ↦ !parsed.present) <$> structuredFindings rt findingsSource
      else pure false
    let findings := findingsIn output contract.findingHeadings
    if absent then return missingBlock
    else if findings.isEmpty then
      if !contains contract.evidenceHeading output then
        return { gaps := [.sourcesNotDocumented], actionable := true }
      else return { gaps := [] }
    else
      let unverified := findings.filter fun f ↦ !citesASource f sources
      let coverage := rt.hundredths (findings.length - unverified.length) findings.length
      if coverage < contract.minCoverage then
        return { gaps := [.uncitedFindings], unverified, coverage := some coverage
                 actionable := true }
      else
        -- every finding names a source, and nothing compared any of them against it
        return { gaps := [.claimsNotChecked], unverified := findings, coverage := some coverage }

/-- `_grade_evidence`: against the base where there is one, by the citations alone where there is
none, and not at all on a route without a contract. -/
def gradeEvidence (rt : Runtime) (contract : Option RouteEvaluator) (output : Str)
    (sources : List Str) (base : Option EvidenceBase) (structuredOutputRequired : Bool)
    (findingsSource : Str) : Eff Exc W Evidence :=
  match contract, base with
  | none, _ => return { gaps := [] }
  | some contract, some base =>
    gradeAgainstEvidence src base rt contract output structuredOutputRequired findingsSource
  | some contract, none => Eff.ofExcept
      (gradeCitations rt contract output sources structuredOutputRequired findingsSource)

end AtlasCore
