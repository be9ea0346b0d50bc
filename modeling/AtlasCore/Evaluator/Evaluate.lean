import AtlasCore.Evaluator.Grade

/-!
# `evaluate`

What the gaps of the evidence grading mean for the criteria, whether the output passes, and the one
thing that has to happen first where it does not.

`evaluate` first grades the evidence, which reads sources again and may raise, and computes
everything else from that: which criteria are unmet, whether all that the route declares is met, and
by the first gap that applies the action that comes next and who is to take it.  What a reader is
told in sentences is left out.
-/

set_option autoImplicit false

namespace AtlasCore

open Py

/-! ## The next action

What a grade asks for: an action, who is to take it, and what it needs to know. -/

/-- `NextActionKind`: what is to be done before the next pass. -/
inductive NextActionKind where
  | observeAgain
  | repairFindingsBlock
  | dropRefutedClaim
  | restateClaim
  | reciteFromSource
  | citeSources
  | answerTheQuestion
  | addSections
  deriving DecidableEq

/-- The text of an action, as a grade in a log has it. -/
def NextActionKind.text : NextActionKind → Str
  | observeAgain => str "observe_again"
  | repairFindingsBlock => str "repair_findings_block"
  | dropRefutedClaim => str "drop_refuted_claim"
  | restateClaim => str "restate_claim"
  | reciteFromSource => str "recite_from_source"
  | citeSources => str "cite_sources"
  | answerTheQuestion => str "answer_the_question"
  | addSections => str "add_sections"

/-- `RETRY_CLASSES[kind] == "investigation"`: the action asks for something to be read, and not for
other words. -/
def NextActionKind.isInvestigation : NextActionKind → Bool
  | observeAgain => true
  | _ => false

/-- `NEXT_ACTION_ACTORS`: who can carry an action out, the one who wrote the output or the host that
reads. -/
inductive Actor where
  | producer | host
  deriving DecidableEq

/-- What a gap code can be: a gap of the evidence, or a missing section. -/
inductive GapCode where
  | gap (g : Gap)
  | missing (s : Section)
  deriving DecidableEq

/-- One bounded excerpt that is asked for: the lines of a path, and what the line before them begins
with. -/
structure WindowRequest where
  path : Str
  lineStart : ℤ
  maxLines : ℤ
  anchorPrefix : Option Str := none
  deriving DecidableEq

/-- What the actor needs, per kind: the patterns, claims or windows that the action is about. -/
inductive ActionDetails where
  | planTargets (patterns : List Str) (question : Str)
  | noEvidenceBase (sourcesNamed : List Str)
  | blocked (blockedBy : List Str) (claims : List Str)
  | block
  | refuted (claims : List (Str × Reason))
  | expected (claims : List Str)
  | broken (citations : List (Str × List EvidenceStatus))
  | windows (windows : List WindowRequest) (question : Str)
  | available (sourceIds sources : List Str)
  | question (question : Str) (patterns sourceIds : List Str)
  | sections (codes : List Section)
  deriving DecidableEq

/-- `details.get("patterns", [])`: which files an action asks for; most actions ask for none. -/
def ActionDetails.patterns : ActionDetails → List Str
  | planTargets patterns _ => patterns
  | question _ patterns _ => patterns
  | _ => []

/-- `details.get("line_windows", [])`: which windows an action asks for; only reading on asks for
any. -/
def ActionDetails.lineWindows : ActionDetails → List WindowRequest
  | windows ws _ => ws
  | _ => []

/-- `details.get("blocked_by", [])`: the statuses that no other wording would change. -/
def ActionDetails.blockedBy : ActionDetails → List Str
  | blocked codes _ => codes
  | _ => []

/-- `details.get("claims", [])`, of an action that asks for an observation. -/
def ActionDetails.claims : ActionDetails → List Str
  | blocked _ claims => claims
  | _ => []

/-- What has to happen before the answer could be different. -/
structure NextAction where
  kind : NextActionKind
  gapCodes : List GapCode
  actor : Actor := .producer
  details : ActionDetails
  /-- An action addresses at least one gap. -/
  addresses : gapCodes ≠ []
  deriving DecidableEq

/-- `AtlasEvaluation`, without its sentences for a reader: the verdict, what it rests on, and what
is to be done next. -/
structure AtlasEvaluation where
  /-- In hundredths. -/
  qualityScore : ℤ
  passed : Bool
  metCriteria : List Criterion
  unmetCriteria : List Criterion
  missingSections : List Section
  requiresUserApproval : Bool
  shouldRetry : Bool
  retryIsPossible : Bool
  nextAction : Option NextAction
  evidenceGaps : List Gap
  unverifiedClaims : List Str
  evidenceCoverage : Option ℤ
  citationChecks : List CitationRecord
  blockedBy : List Str
  deriving DecidableEq

/-! ## The question's criteria

A review that narrowed to a question has two criteria more.  They are read off the records of the
findings, which is why a record that hides another decides them. -/

/-- The paths of the observations whose source a claim was checked on. -/
def checkedPath (base : EvidenceBase) (record : CitationRecord) : Option Str := do
  let verdict ← record.claimCheck
  let sourceId ← (← verdict.checked).sourceId
  return (← byId base.observations sourceId).path

/-- A record counts when its claim was settled in its favour, on a source the plan named. -/
def recordOnTopic (review : ReviewPlan) (base : EvidenceBase) (record : CitationRecord) : Bool :=
  record.verdict = .verified &&
    (checkedPath base record).any fun path ↦ path != [] && review.patterns.any (fnmatch path)

/-- The literal the claim of a record was checked for. -/
def checkedText (record : CitationRecord) : Str :=
  ((record.claimCheck.bind (·.checked)).bind (·.text)).getD []

/-- `_on_topic_finding`: some finding cites a source that the review asks about.  A review that asks
about everything is met by any. -/
def onTopicFinding (review : Option ReviewPlan) (evidence : Evidence)
    (base : Option EvidenceBase) : Bool :=
  match review, base with
  | some review, some base =>
    !review.narrowed || evidence.citationChecks.any (recordOnTopic review base)
  | _, _ => true

/-- `_answering_finding`: some finding on the topic also answers the question, where the review says
what an answer is. -/
def answeringFinding (rt : Runtime) (review : Option ReviewPlan) (evidence : Evidence)
    (base : Option EvidenceBase) : Bool :=
  match review, base with
  | some review, some base =>
    !review.narrowed || review.answering.isEmpty || evidence.citationChecks.any fun record ↦
      recordOnTopic review base record && answersQuestion rt review (checkedText record)
  | _, _ => true

/-! ## Choosing the action

The first thing that is outstanding decides what is asked for next. -/

/-- `DEFAULT_MAX_LINES`: how many lines of a file are read where nothing else is asked for. -/
def DEFAULT_MAX_LINES : ℤ := 80

/-- The next window over one observation, where the review named it and lines are left. -/
def nextWindow (review : ReviewPlan) (o : Observation) : Option WindowRequest :=
  match o.totalLines with
  | none => none
  | some total =>
    if o.sourceType ≠ .localFile ∨ total = 0 ∨ o.lineEnd ≥ total ∨
        !review.patterns.any (fnmatch o.path) then none
    else if review.topic = str "release_changelog" ∧ o.path = str "CHANGELOG.md" then
      some ⟨o.path, 1, DEFAULT_MAX_LINES, some (str "## v")⟩
    else some ⟨o.path, o.lineEnd + 1, min DEFAULT_MAX_LINES (total - o.lineEnd), none⟩

/-- `_next_partial_windows`: for every source that was read in part, the window that follows, if the
review still asks for it. -/
def nextPartialWindows (base : Option EvidenceBase) (review : ReviewPlan) : List WindowRequest :=
  match base with
  | none => []
  | some base => base.observations.filterMap (nextWindow review)

/-- The claims of the records whose recorded verdict has one result, each with what `get` reads
from the verdict. -/
def recordsWithResult {α : Type} (evidence : Evidence) (result : ClaimResult)
    (get : CitationRecord → ClaimVerdict → α) : List α :=
  evidence.citationChecks.filterMap fun record ↦
    record.claimCheck.bind fun verdict ↦
      if verdict.result = result then some (get record verdict) else none

/-- The kind, the actor and the details of the next action, once something is outstanding. -/
def chooseAction (gaps : List Section) (evidence : Evidence) (sources : List Str)
    (base : Option EvidenceBase) (review : Option ReviewPlan) (waitingOn : List Str)
    (offTopic : Bool) : NextActionKind × Actor × ActionDetails :=
  let question := match review with
    | some review => review.question
    | none => []
  let ids := (base.map (·.sourceIds)).getD []
  let refuted := recordsWithResult evidence .contradicted fun record verdict ↦
    (record.claim, verdict.reason)
  let expected := recordsWithResult evidence .claimTextMismatch fun _ verdict ↦
    (verdict.checked.bind (·.expectedClaim)).getD []
  let unsound := evidence.citationChecks.filter fun record ↦ !record.citationsAreSound
  let broken := unsound.map fun record ↦
    (record.claim, (record.statuses.map (·.status)).filter (· ≠ .intact))
  let windows := match review with
    | some review => if offTopic then nextPartialWindows base review else []
    | none => []
  if waitingOn ≠ [] then (.observeAgain, .host, .planTargets waitingOn question)
  else if .claimsNotChecked ∈ evidence.gaps then (.observeAgain, .host, .noEvidenceBase sources)
  else if evidence.blockedBy ≠ [] then
    (.observeAgain, .host, .blocked evidence.blockedBy (unsound.map (·.claim)))
  else if .malformedFindings ∈ evidence.gaps then (.repairFindingsBlock, .producer, .block)
  else if refuted ≠ [] then (.dropRefutedClaim, .producer, .refuted refuted)
  else if expected ≠ [] then (.restateClaim, .producer, .expected expected)
  else if broken ≠ [] then (.reciteFromSource, .producer, .broken broken)
  else if windows ≠ [] ∧ evidence.gaps.all (· = .sourcesNotDocumented) then
    (.observeAgain, .host, .windows windows question)
  else if evidence.gaps ≠ [] then
    (.citeSources, .producer, .available ids ((base.map (·.paths)).getD sources))
  else
    match review, offTopic with
    | some review, true =>
      (.answerTheQuestion, .producer, .question review.question review.patterns ids)
    | _, _ => (.addSections, .producer, .sections gaps)

/-- `_next_action`: the gaps are gone through in the order of their urgency, and the first that
applies names the action. -/
def nextActionOf (gaps : List Section) (evidence : Evidence) (sources : List Str)
    (base : Option EvidenceBase) (review : Option ReviewPlan) (waitingOn : List Str)
    (offTopic : Bool) : Option NextAction :=
  let codes :=
    (if waitingOn ≠ [] then [GapCode.gap .planTargetsUnread] else []) ++
    evidence.gaps.map .gap ++ gaps.map .missing ++
    (if offTopic then [.gap .noOnTopicFinding] else [])
  if h : codes = [] then none
  else
    let action := chooseAction gaps evidence sources base review waitingOn offTopic
    some
      { kind := action.1
        gapCodes := codes
        actor := action.2.1
        details := action.2.2
        addresses := h }

/-! ## The grade

The grade as a whole: the evidence, the gaps, the criteria that are met and those that are not,
and whether the call may pass. -/

/-- The arguments of one call of `evaluate`: the output, the base it is checked against, and the
review it is to answer. -/
structure Call where
  task : Str
  output : Str
  iteration : ℕ
  maxIterations : ℕ
  route : Option RouteName
  observations : List Str
  evidenceBase : Option EvidenceBase
  review : Option ReviewPlan
  resolvedPatterns : List Str
  structuredOutputRequired : Bool
  findingsSource : Str

/-- `waiting_on`: the patterns of the plan that nothing has answered. -/
def Call.waitingOn (c : Call) : List Str :=
  match c.review with
  | none => []
  | some review =>
    unreadPatterns review ((c.evidenceBase.map (·.paths)).getD []) c.resolvedPatterns

/-- `declared`: the criteria the call is graded against. -/
def Call.declared (c : Call) : List Criterion := criteriaFor c.route c.review

/-- `gap_codes`, from the gaps of the evidence: before them what the plan still waits for, after
them what the findings miss of the question. -/
def Call.gapCodes (rt : Runtime) (c : Call) (evidence : Evidence) : List Gap :=
  (if c.waitingOn ≠ [] then [Gap.planTargetsUnread] else []) ++ evidence.gaps ++
    (if .findingsAreOnTopic ∈ c.declared ∧ c.waitingOn = [] ∧
        onTopicFinding c.review evidence c.evidenceBase = false then [.noOnTopicFinding]
      else if .findingsAnswerTheQuestion ∈ c.declared ∧ c.waitingOn = [] ∧
        answeringFinding rt c.review evidence c.evidenceBase = false then [.noAnsweringFinding]
      else [])

/-- `unmet`, before it is cut down to what is declared. -/
def Call.blamed (rt : Runtime) (c : Call) (evidence : Evidence) : List Criterion :=
  (if (strip c.output).length ≤ MIN_SUBSTANCE then [.substance] else []) ++
    (missingSections c.output).map .required ++
    (c.gapCodes rt evidence).flatMap criterionForGap

/-- `sorted(codes)`: criteria in the order of their texts. -/
def sortCriteria (criteria : List Criterion) : List Criterion :=
  criteria.insertionSort fun a b ↦ Json.keyLe a.code b.code

/-- What `evaluate` makes of the grade of the evidence. -/
def Call.assess (rt : Runtime) (c : Call) (evidence : Evidence) : AtlasEvaluation :=
  let sources := observedSources c.observations
  let gaps := missingSections c.output
  let approval := requiresWriteApproval rt c.task
  let gapCodes := c.gapCodes rt evidence
  let unmet := c.declared.filter (· ∈ c.blamed rt evidence)
  let met := c.declared.filter (· ∉ c.blamed rt evidence)
  let passed := unmet.isEmpty && !approval
  let offTopic := .noOnTopicFinding ∈ gapCodes || .noAnsweringFinding ∈ gapCodes
  let actionable :=
    offTopic || if !evidence.gaps.isEmpty then evidence.actionable else !gaps.isEmpty
  let retryIsPossible := !passed && !approval && actionable
  { qualityScore := rt.hundredths met.length c.declared.length
    passed
    metCriteria := sortCriteria met
    unmetCriteria := sortCriteria unmet
    missingSections := gaps
    requiresUserApproval := approval
    shouldRetry := retryIsPossible && c.iteration < c.maxIterations
    retryIsPossible
    nextAction := if passed then none else
      nextActionOf gaps evidence sources c.evidenceBase c.review c.waitingOn offTopic
    evidenceGaps := gapCodes
    unverifiedClaims := evidence.unverified
    evidenceCoverage := evidence.coverage
    citationChecks := evidence.citationChecks
    blockedBy := evidence.blockedBy }

variable {W : Type} (src : Sources W)

/-- The grade of the evidence in a call. -/
def Call.evidence (rt : Runtime) (c : Call) : Eff Exc W Evidence :=
  gradeEvidence src rt (routeEvaluator c.route) c.output (observedSources c.observations)
    c.evidenceBase c.structuredOutputRequired c.findingsSource

/-- `evaluate`: the evidence is graded first, which reads the sources again, and the rest is
computed from it. -/
def evaluate (rt : Runtime) (c : Call) : Eff Exc W AtlasEvaluation :=
  c.assess rt <$> c.evidence src rt

end AtlasCore
