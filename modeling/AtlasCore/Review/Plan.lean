import AtlasCore.Evidence.Block
import AtlasCore.Lib.Fnmatch

/-!
# What a review asks, and what it needs to read

The topic of a task is chosen by keyword, and with it the question, the patterns of the sources to
read, and the literals a settled claim must name to bear on the question.  A task that matches no
topic gets the topic `unknown`, no patterns, and itself as the question.
-/

set_option autoImplicit false

namespace AtlasCore

open Py

/-- `UNKNOWN_TOPIC`: the topic of a review that asks about everything. -/
def UNKNOWN_TOPIC : Str := str "unknown"

/-- `MAX_PATTERNS`: how many files a review can ask for by pattern. -/
def MAX_PATTERNS : ℕ := 6

/-- One kind of question a review can ask. -/
structure ReviewTopic where
  code : Str
  question : Str
  keywords : List Str
  patterns : List Str
  answering : List Str := []

/-- `GATE_PARITY_PATHS`: the files that a question about the gates is answered from. -/
def GATE_PARITY_PATHS : List Str :=
  [str "release-check.sh", str ".github/workflows/tests.yml",
    str ".github/workflows/markdownlint.yml", str ".github/workflows/mq-stack-gate.yml",
    str "scripts/check-gate-parity.py"]

/-- `TOPICS`: the first topic with a keyword in the task wins. -/
def TOPICS : List ReviewTopic :=
  [{ code := str "secrets"
     question :=
       str "Does this repository commit a credential, a default password or a token in " ++
       str "plain text?"
     keywords := [str "secret", str "hemlig", str "lösenord", str "losenord", str "password",
       str "token", str "credential", str "nyckel"]
     patterns := [str "*.env", str "settings*", str "config*", str ".env*"]
     answering := [str "password=", str "passwd=", str "pwd=", str "lösenord=", str "secret=",
       str "token=", str "api_key=", str "apikey=", str "access_key=", str "private key"] },
   { code := str "ci_gate_parity"
     question :=
       str "Do the local release gate and the in-scope GitHub Actions workflows declare " ++
       str "the same checks and targets, apart from explicit exceptions?"
     keywords := [str "release-check", str "gate parity", str "gate-parity"]
     patterns := GATE_PARITY_PATHS },
   { code := str "ci"
     question := str "Does the CI configuration run the checks it claims to run?"
     keywords := [str "ci", str "workflow", str "actions", str "pipeline", str "bygge", str "build"]
     patterns := [str ".github/workflows/*", str "Makefile", str "*.yml", str "*.sh",
       str "scripts/*"] },
   { code := str "tests"
     question := str "Is there a test suite, and does the project say how to run it?"
     keywords := [str "test", str "tester", str "täckning", str "tackning", str "coverage",
       str "suite"]
     patterns := [str "tests/*", str "test_*", str "pyproject.toml", str "README.md"] },
   { code := str "release_changelog"
     question := str "Does the first semver release heading in CHANGELOG.md match the package " ++
       str "version in pyproject.toml?"
     keywords := [str "changelog-version", str "changelog version", str "release-heading",
       str "release heading", str "release-rubrik", str "release rubrik"]
     patterns := [str "CHANGELOG.md", str "pyproject.toml"] },
   { code := str "release_metadata"
     question :=
       str "Do VERSION, pyproject.toml and MANIFEST.json declare the same package version?"
     keywords := [str "manifest.json", str "pyproject.toml", str "version metadata",
       str "versionsmetadata", str "package version metadata"]
     patterns := [str "VERSION", str "pyproject.toml", str "MANIFEST.json"] },
   { code := str "release"
     question := str "Do the version, the changelog and the release process agree with each other?"
     keywords := [str "release", str "släpp", str "slapp", str "version", str "changelog",
       str "tag"]
     patterns := [str "CHANGELOG.md", str "pyproject.toml", str "README.md"] },
   { code := str "documentation"
     question :=
       str "Does the documentation say what this project is, how to install it and how " ++
       str "to run it?"
     keywords := [str "dokumentation", str "docs", str "readme", str "installation",
       str "installera", str "install", str "komma igång", str "onboarding", str "instruktion"]
     patterns := [str "README.md", str "docs/*", str "CONTRIBUTING.md"] }]

/-- What this review is about, and what it needs to read to find out. -/
structure ReviewPlan where
  snapshotId : Str
  topic : Str
  question : Str
  patterns : List Str
  answering : List Str
  hasQuestion : isBlank question = false
  hasSnapshot : isBlank snapshotId = false
  bounded : patterns.length ≤ MAX_PATTERNS

instance : DecidableEq ReviewPlan := fun a b ↦
  decidable_of_iff (a.snapshotId = b.snapshotId ∧ a.topic = b.topic ∧ a.question = b.question ∧
    a.patterns = b.patterns ∧ a.answering = b.answering) <| by
    cases a
    cases b
    simp

/-- `ReviewPlan(...)`: a question, a snapshot, and no more patterns than a round can read. -/
def ReviewPlan.build (snapshotId topic question : Str) (patterns answering : List Str) :
    Except Exc ReviewPlan :=
  if h : isBlank question = false ∧ isBlank snapshotId = false ∧ patterns.length ≤ MAX_PATTERNS then
    .ok ⟨snapshotId, topic, question, patterns, answering, h.1, h.2.1, h.2.2⟩
  else .error .valueError

/-- `ReviewPlan.narrowed`: the review asks about one topic. -/
def ReviewPlan.narrowed (r : ReviewPlan) : Bool := r.topic != UNKNOWN_TOPIC

/-- `detect_topic`: the first topic with a keyword in the task, whatever the case of its letters. -/
def detectTopic (rt : Runtime) (task : Str) : Option ReviewTopic :=
  let text := rt.lower task
  TOPICS.find? fun topic ↦ topic.keywords.any (contains · text)

/-- `build_review_plan`: the question of the topic, or the task itself where it has none. -/
def buildReviewPlan (rt : Runtime) (task snapshotId : Str) : Except Exc ReviewPlan :=
  match detectTopic rt task with
  | some topic =>
    ReviewPlan.build snapshotId topic.code topic.question topic.patterns topic.answering
  | none => ReviewPlan.build snapshotId UNKNOWN_TOPIC (strip task) [] []

/-- `answers_question`: the claim has one of the words that an answer needs, if the plan names any.
-/
def answersQuestion (rt : Runtime) (plan : ReviewPlan) (claimText : Str) : Bool :=
  plan.answering.isEmpty || plan.answering.any fun literal ↦
    contains (rt.lower literal) (rt.lower claimText)

/-- `unread_patterns`: the patterns that neither an observation nor a completed round answers. -/
def unreadPatterns (plan : ReviewPlan) (readPaths resolved : List Str) : List Str :=
  plan.patterns.filter fun pattern ↦
    pattern ∉ resolved && !readPaths.any fun path ↦ fnmatch path pattern

/-! ## Routes

A task is routed by its words, and the route decides what its plan is. -/

/-- The names of `ROUTES`, each a way to go about a task. -/
inductive RouteName where
  | repoReview
  | architectureDecision
  | rootCause
  | decisionTradeoff
  | learning
  | promptImprovement
  | general
  deriving DecidableEq

/-- The name of a route, as plans and logs have it. -/
def RouteName.text : RouteName → Str
  | repoReview => str "repo_review"
  | architectureDecision => str "architecture_decision"
  | rootCause => str "root_cause"
  | decisionTradeoff => str "decision_tradeoff"
  | learning => str "learning"
  | promptImprovement => str "prompt_improvement"
  | general => str "general"

/-- `REVIEW_VERBS`: the words that ask for a review, in both languages. -/
def REVIEW_VERBS : List Str :=
  [str "granska", str "review", str "revidera", str "gå igenom", str "ga igenom", str "audit",
    str "kontrollera", str "inspektera", str "check"]

/-- `ROUTES`, as far as a route is chosen by them: the keywords of each. -/
def ROUTES : List (RouteName × List Str) :=
  [(.repoReview, [str "repo", str "repository", str "github", str "kodbas", str "granska repo",
      str "förbättringar", str "p0", str "p1", str "p2", str "docs-gap"]),
    (.architectureDecision, [str "arkitektur", str "målarkitektur", str "zero trust", str "hybrid",
      str "plattform", str "integration", str "risk", str "ai-assistent"]),
    (.rootCause, [str "grundorsak", str "root cause", str "varför", str "fastnar", str "fel",
      str "incident", str "problem", str "återkommer"]),
    (.decisionTradeoff, [str "jämför", str "beslut", str "trade-off", str "alternativ",
      str "ska jag", str "vilken väg", str "rekommendera"]),
    (.learning, [str "förklara", str "lär mig", str "som nybörjare", str "feynman",
      str "vad betyder", str "hur funkar"]),
    (.promptImprovement, [str "prompt", str "förbättra prompt", str "router", str "skill",
      str "system prompt"]),
    (.general, [])]

/-- The first route with the highest score, as the stable sort leaves it in front. -/
def bestRoute : List (RouteName × ℕ) → RouteName × ℕ
  | [] => (.general, 0)
  | [r] => r
  | r :: rest => if (bestRoute rest).2 ≤ r.2 then r else bestRoute rest

/-- `select_route(task).name`: the route with the most keywords in the task, the first of equals;
without any, a task that asks for a review of a known topic is one. -/
def selectRoute (rt : Runtime) (task : Str) : RouteName :=
  let text := rt.lower task
  let best := bestRoute (ROUTES.map fun r ↦ (r.1, (r.2.filter (contains · text)).length))
  if best.2 = 0 then
    -- no keyword matched: a task that asks for a review and names a topic is still a review
    if (detectTopic rt task).isSome && REVIEW_VERBS.any (contains · text) then .repoReview
    else .general
  else best.1

/-- What a run intends to do: the goal, the route, and the review where it is one. -/
structure AtlasPlan where
  goal : Str
  routeName : RouteName
  review : Option ReviewPlan

/-- `build_plan`: only a route that reviews a repository asks a question, and only of a snapshot. -/
def buildPlan (rt : Runtime) (task : Str) (route : RouteName) (snapshotId : Option Str) :
    Except Exc AtlasPlan :=
  match snapshotId with
  | some id =>
    if route = .repoReview ∧ id ≠ [] then do
      return ⟨task, route, some (← buildReviewPlan rt task id)⟩
    else return ⟨task, route, none⟩
  | none => return ⟨task, route, none⟩

/-! ## Write-like tasks

Whether a task asks for something to be changed, which a person then has to approve. -/

/-- `WRITE_KEYWORDS`: the words that ask for something to be changed. -/
def WRITE_KEYWORDS : List Str :=
  [str "commit", str "push", str "merge", str "delete", str "remove file", str "radera",
    str "ta bort", str "skapa issue", str "create issue", str "open pr", str "öppna pr",
    str "create pull request", str "ändra fil", str "edit file", str "write file",
    str "skriv till", str "publicera"]

/-- `requires_write_approval`: one of these words is in the task, whatever the case of its letters.
-/
def requiresWriteApproval (rt : Runtime) (task : Str) : Bool :=
  WRITE_KEYWORDS.any (contains · (rt.lower task))

end AtlasCore
