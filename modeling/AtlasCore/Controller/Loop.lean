import AtlasCore.Controller.Round

/-!
# The loop of a run

`AtlasController._run`: read, then plan, execute and grade until something ends the run.  A pass of
the loop says whether there is another one.

The definitions below are the stages of a pass in their order, each under the name it has in the
source or after what it does there.  What a stage raises is caught where the source has its
`except`, and stops the run there; everything else passes through.  That the loop ends is plain from
its counter, which every pass moves on.
-/

set_option autoImplicit false

namespace AtlasCore

open Py RunM

variable {W : Type} (env : Setting W)

/-! ## The gates

What is asked before a grade is looked at: whether the time is over, and whether what was read
still holds. -/

/-- `expired`: whether the run was cancelled or ran out of budget just now, and so has stopped. -/
def expired : RunM W Bool := do
  let r ← Eff.read
  let check : RunM W Unit :=
    if r.budget.isNone then do
      if ← outside env.meter.isCancelled then Eff.raise .runCancelled else pure ()
    else metered (RunBudget.check env.meter)
  match ← Eff.attempt check with
  | .ok _ => return false
  | .error .runCancelled => do
    stopCancelled
    return true
  | .error (.budgetExceeded limit) => do
    stopBudget limit
    return true
  | .error e => Eff.raise e

/-- `drift_report`: whether the state this run read has moved. -/
def driftReport : RunM W (Option DriftReport) := do
  let s ← state
  match s.evidenceBase with
  | none => do
    note (.drift none)
    return none
  | some base =>
    if base.isEmpty then do
      note (.drift none)
      return none
    else do
      let report ← outside (detectDrift env.sources env.checkout base.snapshot base.observations)
      let found := if report.isConsistent then none else some report
      note (.drift found)
      return found

/-- `stop_for_drift`: the report and the paths it is about are noted, and the run is blocked.
Nothing is graded on sources that have moved. -/
def stopForDrift (report : DriftReport) : RunM W Unit := do
  let s ← state
  let observations := (s.evidenceBase.map (·.observations)).getD []
  let paths := (report.notEvidence.filterMap fun p ↦ (byId observations p.1).map (·.path))
  let drift := ⟨report, paths.insertionSort fun a b ↦ Json.keyLe a b = true⟩
  setMetadata fun m ↦ { m with drift := some drift }
  stop .blocked

/-! ## What a pass compares with the one before

Two passes that had the same material and were refused for the same reasons are not worth a
third. -/

/-- `_material_signature`.  The sources of a base are distinct, so they sort by their id. -/
def materialSignature (s : AtlasRunState) : MaterialSignature where
  observations :=
    (((s.evidenceBase.map (·.observations)).getD []).map fun o ↦
      (o.sourceId, o.contentSha256, o.lineStart, o.lineEnd)).insertionSort
        fun a b ↦ Json.keyLe a.1 b.1 = true
  plan := (s.plan.bind (·.review)).map fun review ↦
    (review.snapshotId, review.topic, review.patterns)

/-- `_same_failure`.  Sorted lists are equal when one is a permutation of the other. -/
def sameFailure (current previous : AtlasEvaluation) : Bool :=
  (current.nextAction.map (·.kind) = previous.nextAction.map (·.kind) ∧
    (((current.nextAction.map (·.gapCodes)).getD []).isPerm
      ((previous.nextAction.map (·.gapCodes)).getD []) &&
    current.missingSections.isPerm previous.missingSections &&
    current.evidenceGaps.isPerm previous.evidenceGaps &&
    current.unverifiedClaims.isPerm previous.unverifiedClaims)) ∧
  current.nextAction.isSome

/-- The last item of a list and the one before it. -/
def lastTwo {α : Type*} (xs : List α) : Option (α × α) :=
  match xs.reverse with
  | last :: previous :: _ => some (last, previous)
  | _ => none

/-! ## Executing

One pass produces an output, with a model or without.  The call of the model is in the log, with
both of its halves where nothing stops the run in between, and the budget is charged for what came
back. -/

/-- What a pass hands to the grade: the output, the text that findings are read from, and where that
text came from. -/
structure Produced where
  output : Str
  findingsSource : Str
  origin : FindingsOrigin

/-- `_check_model_result`: a reply that is no result, or has no output, is refused before anything
of it is used. -/
def checkModelResult (rt : Runtime) (result : Option ModelResult) :
    Except Exc (ModelResult × Str) :=
  match result with
  | none => .error .typeError
  | some result =>
    match result.output with
    | none => .error .valueError
    | some output =>
      if strip output = [] then .error .valueError
      else if result.get "format" = some (str "json") then
        match Json.decode rt.nesting output with
        | .ok _ => .ok (result, output)
        | .error .malformed | .error (.gaveUp .tooLong) => .error .valueError
        | .error (.gaveUp .tooDeep) => .error .recursionError
      else .ok (result, output)

/-- The record of the tool calls that went through the gateway. -/
def recordToolCalls : List ToolCall → RunM W Unit
  | [] => pure ()
  | call :: rest => do
    let started ← startCall env .toolCall 0 (some call.target) call.idempotent
    match call.outcome with
    | some outcome => finishCall env started outcome 0 none
    | none => pure ()
    recordToolCalls rest

/-- `self.model_adapter.execute(**kwargs)`: what the adapter spends comes off the budget of the run.
-/
def executeAdapter (adapter : ModelAdapter W) (input : ModelInput) :
    RunM W (Option ModelResult) := do
  let r ← Eff.read
  let answer := adapter.execute input ⟨r.world, r.budget, []⟩
  -- an adapter spends from the budget it was handed; it cannot hand one over or take one away
  let budget := r.budget.map fun b ↦ answer.2.budget.getD b
  Eff.update fun r ↦ { r with world := answer.2.world, budget }
  if env.tools && r.budget.isSome then recordToolCalls env answer.2.toolCalls
  else pure ()
  Eff.ofExcept answer.1

/-- `int(raw_usage) if isinstance(raw_usage, str) and raw_usage.isdecimal() else None`. -/
def usageTokens (result : ModelResult) : Except Exc (Option ℕ) :=
  match result.get "usage_tokens" with
  | none => .ok none
  | some raw =>
    if env.isDecimal raw then
      match env.rt.intOfStr raw with
      | some n => .ok (some n.toNat)
      | none => .error .valueError
    else .ok none

/-- The `try` around the model call, up to the start of the call. -/
def startModelCall (adapter : ModelAdapter W) (iteration : ℕ) : RunM W (Option Str) := do
  if (← Eff.read).budget.isSome then metered (RunBudget.reserveModel env.meter)
  else pure ()
  startCall env .modelCall iteration (some adapter.name) adapter.idempotent

/-- The call itself, up to the record that it ended. -/
def runModelCall (adapter : ModelAdapter W) (input : ModelInput) (iteration : ℕ)
    (call : Option Str) : RunM W (ModelResult × Str) := do
  let result ← Eff.ofExcept (checkModelResult env.rt (← executeAdapter env adapter input))
  finishCall env call .ok iteration none
  return result

/-- What the reply costs: the tokens it reports and the length of its output, if the run has a
budget. -/
def chargeModel (result : ModelResult) (output : Str) : RunM W Unit := do
  if (← Eff.read).budget.isSome then do
    let usage ← Eff.ofExcept (usageTokens env result)
    metered (RunBudget.chargeTokens env.meter usage)
    metered (RunBudget.chargeOutput env.meter output)
  else pure ()

/-- The clauses after the `try` around the model call; `call` is the call that is still open. -/
def modelFailed (iteration : ℕ) (call : Option Str) : Exc → RunM W (Option Produced)
  | .runCancelled => do
    stopCancelled
    return none
  | .budgetExceeded limit => do
    stopBudget limit
    return none
  | e =>
    if e.isException then do
      finishCall env call .failed iteration (some e)
      stopToolError "model_adapter" e
      return none
    else Eff.raise e

/-- What is kept of a reply: the result, whether the run is still determined, and which text its
findings are read from. -/
def keepReply (result : ModelResult) (output : Str) : RunM W (Option Produced) := do
  setMetadata fun m ↦
    { m with
      modelResult := some result
      nonDeterministic :=
        m.nonDeterministic || result.get "determinism" = some (str "non_deterministic") }
  match result.findingsBlock with
  | some block => return some ⟨output, block, .findingsBlock⟩
  | none => return some ⟨output, output, .adapterOutput⟩

/-- The branch with a model adapter; `none` says that the run has stopped. -/
def askModel (adapter : ModelAdapter W) (route : RouteName) (plan : AtlasPlan) :
    RunM W (Option Produced) := do
  let s ← state
  let input := ⟨s.task, route, plan, s.observations, s.evaluations.getLast?⟩
  match ← Eff.attempt (startModelCall env adapter s.iteration) with
  | .error e => modelFailed env s.iteration none e
  | .ok call =>
    match ← Eff.attempt (runModelCall env adapter input s.iteration call) with
    | .error e => modelFailed env s.iteration call e
    | .ok (result, output) =>
      match ← Eff.attempt (chargeModel env result output) with
      | .error e => modelFailed env s.iteration none e
      | .ok _ => keepReply result output

/-- The branch without a model adapter: the output is put together from the plan and what was
observed. -/
def askExecutor (plan : AtlasPlan) : RunM W (Option Produced) := do
  let s ← state
  let (output, produced) ← outside
    (env.executePlanParts s.task plan s.observations s.evaluations.getLast? s.evidenceBase)
  if (← Eff.read).budget.isSome then
    match ← Eff.attempt (metered (RunBudget.chargeOutput env.meter output)) with
    | .ok _ => return some ⟨output, produced, .producerSection⟩
    | .error .runCancelled => do
      stopCancelled
      return none
    | .error (.budgetExceeded limit) => do
      stopBudget limit
      return none
    | .error e => Eff.raise e
  else return some ⟨output, produced, .producerSection⟩

/-- What stands for the output of this pass. -/
def produce (route : RouteName) (plan : AtlasPlan) : RunM W (Option Produced) :=
  match env.modelAdapter with
  | some adapter => askModel env adapter route plan
  | none => askExecutor env plan

/-! ## Grading

The output is graded, and the grade is recorded before anything is decided about it. -/

/-- The call of `evaluate` in this pass, with everything the grade may look at. -/
def gradingCall (s : AtlasRunState) (route : RouteName) (plan : AtlasPlan)
    (p : Produced) : Call where
  task := s.task
  output := p.output
  iteration := s.iteration
  maxIterations := s.maxIterations
  route := some route
  observations := s.observations
  evidenceBase := s.evidenceBase
  review := plan.review
  resolvedPatterns := resolvedPatterns s.metadata.observationRounds
  structuredOutputRequired :=
    (s.metadata.modelResult.bind (·.get "output_schema_sent")) = some (str "true")
  findingsSource := p.findingsSource

/-- The payload of `decision_recorded`, without the counts that are for a reader. -/
def decisionPayload (e : AtlasEvaluation) : Fields :=
  [(str "passed", .bool e.passed),
    (str "unmet_criteria", .arr (e.unmetCriteria.map fun c ↦ .str c.code)),
    (str "evidence_gaps", .arr (e.evidenceGaps.map fun g ↦ .str g.code)),
    (str "next_action", EventLog.textOrNull (e.nextAction.map (·.kind.text))),
    (str "requires_user_approval", .bool e.requiresUserApproval)]

/-- Grade the output of this pass.  The grade is kept, logged, and noted, in this order. -/
def grade (route : RouteName) (plan : AtlasPlan) (p : Produced) : RunM W AtlasEvaluation := do
  let s ← state
  let evaluation ← outside (evaluate env.sources env.rt (gradingCall s route plan p))
  setState fun s ↦ { s with evaluations := s.evaluations ++ [evaluation] }
  note (.graded evaluation)
  append env .decisionRecorded s.iteration (decisionPayload evaluation)
  let s ← state
  Eff.update fun r ↦
    { r with inside := { r.inside with materials := r.inside.materials ++ [materialSignature s] } }
  return evaluation

/-! ## What follows from a grade

A grade ends the run, asks for a reading, or leaves another pass to be made; the rules are tried
in the order of the source. -/

/-- Whether the loop goes on: a pass either leaves it or is followed by another. -/
inductive Flow where
  | leave | again
  deriving DecidableEq

/-- What is recorded when nothing the run may do for itself is left. -/
def blockedRecord (s : AtlasRunState) (action : NextAction) : BlockedRecord where
  action := action.kind
  gapCodes := action.gapCodes
  actor := action.actor
  iteration := s.iteration
  observerAttached := env.observer.isSome

/-- Whether the action asks for material that the run does not hold. -/
def isInvestigation (e : AtlasEvaluation) : Bool :=
  e.nextAction.any fun action ↦ action.kind.isInvestigation

/-- Whether the model said the same thing twice, in a run that is charged for it. -/
def repeatedOutput (s : AtlasRunState) (budgeted : Bool) (e : AtlasEvaluation) : Bool :=
  budgeted && env.modelAdapter.isSome && (lastTwo s.outputs).any (fun p ↦ p.1 = p.2) &&
    e.retryIsPossible && e.blockedBy.isEmpty

/-- Whether the last two passes failed in the same way. -/
def repeatedFailure (s : AtlasRunState) (e : AtlasEvaluation) : Bool :=
  (lastTwo s.evaluations).any (fun p ↦ sameFailure p.1 p.2) && e.retryIsPossible &&
    e.blockedBy.isEmpty

/-- The tests after the drift gate, in their order. -/
def settle (evaluation : AtlasEvaluation) : RunM W Flow := do
  let r ← Eff.read
  let s := r.inside.state
  let iterations := (s.iteration - 1, s.iteration)
  if isInvestigation evaluation && !evaluation.passed && !evaluation.requiresUserApproval then do
    setMetadata fun m ↦
      { m with blocked := evaluation.nextAction.map (blockedRecord env s) }
    stop .blocked
    return .leave
  else if repeatedOutput env s r.budget.isSome evaluation then do
    setMetadata fun m ↦ { m with noProgress := some (.identicalModelOutput iterations) }
    stop .noProgress
    return .leave
  else if repeatedFailure s evaluation then do
    let unchanged := (lastTwo r.inside.materials).any fun p ↦ p.1 = p.2
    let noProgress :=
      NoProgressRecord.unchangedFeedback iterations (evaluation.nextAction.map (·.kind)) unchanged
    setMetadata fun m ↦ { m with noProgress := some noProgress }
    stop .noProgress
    return .leave
  else if evaluation.requiresUserApproval || evaluation.passed || !evaluation.shouldRetry then do
    stop (classifyStop evaluation.passed evaluation.requiresUserApproval
      (!evaluation.blockedBy.isEmpty) (!evaluation.evidenceGaps.isEmpty)
      evaluation.retryIsPossible (s.iteration < s.maxIterations))
    return .leave
  else do
    enter .replanning
    return .again

/-- Whether the host is asked to read again. -/
def wantsReading (s : AtlasRunState) (evaluation : AtlasEvaluation)
    (report : Option DriftReport) : Bool :=
  env.observer.isSome && s.evidenceBase.isSome && !evaluation.passed &&
    !evaluation.requiresUserApproval && s.iteration < s.maxIterations &&
    (report.isSome || evaluation.nextAction.any fun action ↦ action.kind = .observeAgain)

/-- The stop for drift, or the tests after it. -/
def settleDrift (evaluation : AtlasEvaluation) : Option DriftReport → RunM W Flow
  | some report => do
    stopForDrift report
    return .leave
  | none => settle env evaluation

/-- The part of a pass after its grade: the drift gate, and what it leads to. -/
def judge (recorded : List Material) (plan : AtlasPlan) (evaluation : AtlasEvaluation) :
    RunM W Flow := do
  let report ← driftReport env
  let s ← state
  if wantsReading env s evaluation report then do
    match ← readAgain env recorded evaluation report plan.review with
    | .stopped => return .leave
    | .new => do
      enter .replanning
      return .again
    | .nothing => settleDrift env evaluation report
  else settleDrift env evaluation report

/-! ## The loop

One pass, and as many as there are iterations. -/

/-- A pass from its output on: it is graded, and the run stops, passes, or reads more before the
next pass. -/
def gradeAndJudge (recorded : List Material) (route : RouteName) (plan : AtlasPlan) (p : Produced) :
    RunM W Flow := do
  let s ← state
  let source := (s.iteration, p.origin)
  setState fun s ↦ { s with outputs := s.outputs ++ [p.output] }
  setMetadata fun m ↦ { m with findingsSources := m.findingsSources ++ [source] }
  enter .evaluating
  if ← expired env then return .leave
  else do
    let evaluation ← grade env route plan p
    if ← expired env then return .leave
    else judge env recorded plan evaluation

/-- The payload of `plan_selected`, without the steps, which are for a reader. -/
def planPayload (route : RouteName) (plan : AtlasPlan) : Fields :=
  [(str "route", .str route.text),
    (str "question", EventLog.textOrNull (plan.review.map (·.question)))]

/-- Route and plan this pass, from the task and the snapshot; the plan is logged before it is
carried out. -/
def routeAndPlan : RunM W (RouteName × AtlasPlan) := do
  let s ← state
  enter .routing
  let route := selectRoute env.rt s.task
  setState fun s ↦ { s with route := some route }
  enter .planning
  let plan ← Eff.ofExcept
    (buildPlan env.rt s.task route (s.evidenceBase.map (·.snapshot.snapshotId)))
  setState fun s ↦ { s with plan := some plan }
  append env .planSelected s.iteration (planPayload route plan)
  enter .executing
  return (route, plan)

/-- One pass of the loop: a plan is made, an output is produced, and it is graded.  Whether the run
has expired is asked before the pass, and again before the output. -/
def onePass (recorded : List Material) : RunM W Flow := do
  if ← expired env then return .leave
  else do
    setState fun s ↦ { s with iteration := s.iteration + 1 }
    let (route, plan) ← routeAndPlan env
    if ← expired env then return .leave
    else
      match ← produce env route plan with
      | none => return .leave
      | some p => gradeAndJudge env recorded route plan p

/-- `while state.iteration < state.max_iterations`.  Every pass counts, so `max_iterations` of them
are enough. -/
def loop (recorded : List Material) : ℕ → RunM W Unit
  | 0 => pure ()
  | fuel + 1 => do
    let s ← state
    if s.iteration < s.maxIterations then
      match ← onePass env recorded with
      | .leave => pure ()
      | .again => loop recorded fuel
    else pure ()

end AtlasCore
