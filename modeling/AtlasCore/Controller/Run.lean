import AtlasCore.Controller.Loop

/-!
# A run, from its arguments to its last event

What comes before the loop of `_run`, what comes after it, and the whole.

Where a stage can be stopped, by a cancellation, a limit or a failure, the handler stands around
that stage, as in the source; every way out then comes to `stopped`, which logs the stop, and that
is the last thing a run does (`run_eq`).  `untilStop` is the run without it, for what has to be said
of the state just before.
-/

set_option autoImplicit false

namespace AtlasCore

open Py RunM

variable {W : Type} (env : Setting W)

/-! ## The log is opened

What a run does before its first step. -/

/-- A value that cannot be encoded raises: `digest` needs UTF-8, which lone surrogates do not have.
-/
def orUnencodable {α : Type} : Option α → Except Exc α
  | some a => .ok a
  | none => .error .unicodeEncodeError

/-- The payload of `run_started`: digests of what the run was given, so that a later resume can tell
whether it is given the same. -/
def startedPayload : Except Exc Fields := do
  let task ← orUnencodable (digest (.str env.task))
  let observations ← orUnencodable (digest (.arr (env.initial.map .str)))
  let identity ← orUnencodable (evidenceIdentity env.evidence)
  return [(str "task_sha256", .str task), (str "max_iterations", .int env.maxIterations),
    (str "observations_sha256", .str observations),
    (str "snapshot_id", EventLog.textOrNull identity.1),
    (str "evidence_sha256", EventLog.textOrNull identity.2)]

/-- The log of this run: with `run_started` for a fresh run, with `interrupted` and `resumed` for
one that goes on. -/
def openLog : RunM W Unit := do
  match env.events with
  | none => pure ()
  | some _ => do
    let log ← Eff.ofExcept (EventLog.build env.runId (env.resumeRecords.getD []))
    Eff.update fun r ↦ { r with inside := { r.inside with log := some log } }
    match env.resumeRecords with
    | none => do
      let payload ← Eff.ofExcept (startedPayload env)
      append env .runStarted 0 payload
    | some records => do
      append env .interrupted 0
        [(str "unfinished_calls", .arr ((unfinishedCalls records).map .str)),
          (str "detected_after_sequence", .int (records.length - 1))]
      let identity ← Eff.ofExcept (orUnencodable (evidenceIdentity env.evidence))
      append env .resumed 0
        [(str "replay", .str (str "read_only_from_start")),
          (str "snapshot_id", EventLog.textOrNull identity.1)]

/-- Refuse what would not be metered, open the log and start the budget; the result is
`recorded_rounds`. -/
def setUp : RunM W (List Material) := do
  if env.limits.isNone && (env.tools || !env.readers.isEmpty || env.observer.isSome) then
    Eff.raise .valueError
  else do
    openLog env
    match env.limits with
    | none => pure ()
    | some limits => do
      let budget ← outside (RunBudget.start env.meter limits)
      Eff.update fun r ↦ { r with budget := some budget }
    Eff.ofExcept (recordedRounds env.rt (env.resumeRecords.getD []))

/-! ## What is read before the loop

The readers of the host, the memory, and a first round where a review has nothing to begin with. -/

/-- One of the `readers`: what it gathers is charged to the budget and becomes part of what was
observed. -/
def readSource (reader : SourceReader W) : RunM W Unit := do
  metered (RunBudget.check env.meter)
  match ← metered (reader env.task) with
  | none => Eff.raise .typeError
  | some gathered => do
    metered (RunBudget.chargeOutput env.meter (join [lf] gathered))
    setState fun s ↦ { s with observations := s.observations ++ gathered }

/-- The loop over the `readers`; whether it stopped the run. -/
def gather : RunM W Bool := do
  match ← Eff.attempt (env.readers.forM (readSource env)) with
  | .ok _ => return false
  | .error .runCancelled => do
    stopCancelled
    return true
  | .error (.budgetExceeded limit) => do
    stopBudget limit
    return true
  | .error e =>
    if e.isException then do
      stopToolError "observer" e
      return true
    else Eff.raise e

/-- The memory adapter is not metered, so a run with a budget does not read from it. -/
def readMemory : RunM W Unit := do
  let budgeted := (← Eff.read).budget.isSome
  match env.memoryAdapter with
  | none => pure ()
  | some memory =>
    if budgeted then setMetadata fun m ↦ { m with memoryReadSkipped := true }
    else do
      let remembered ← outside (memory.read env.task)
      setState fun s ↦ { s with observations := s.observations ++ remembered }

/-- The first read, which asks for what the plan will ask for. -/
def firstRead (recorded : List Material) : RunM W RoundOutcome := do
  let s ← state
  match s.evidenceBase with
  | some base =>
    if env.readFirst && env.observer.isSome && base.isEmpty then do
      let plan ← Eff.ofExcept
        (buildPlan env.rt s.task (selectRoute env.rt s.task) (some base.snapshot.snapshotId))
      let patterns := (plan.review.map (·.patterns)).getD []
      let request ← Eff.ofExcept
        (requestFrom base.snapshot [] [] [] 0 patterns [] true
          ((plan.review.map (·.question)).getD []))
      observeRound env recorded request patterns
    else return .nothing
  | none => return .nothing

/-! ## The end of a run

The event that ends the log, and what is remembered of the run. -/

/-- The text of a stop reason, as the log and the document of the run have it. -/
def StopReason.text : StopReason → Str
  | passed => str "passed"
  | insufficientEvidence => str "insufficient_evidence"
  | blocked => str "blocked"
  | approvalRequired => str "approval_required"
  | budgetExhausted => str "budget_exhausted"
  | maxIterations => str "max_iterations"
  | noProgress => str "no_progress"
  | toolError => str "tool_error"
  | cancelled => str "cancelled"

/-- The text of a status, as the log and the document of the run have it. -/
def Status.text : Status → Str
  | new => str "new"
  | observing => str "observing"
  | routing => str "routing"
  | planning => str "planning"
  | executing => str "executing"
  | evaluating => str "evaluating"
  | replanning => str "replanning"
  | needUserApproval => str "need_user_approval"
  | done => str "done"
  | failed => str "failed"
  | cancelled => str "cancelled"

/-- `budget.usage()`, without the deadline: the four counters. -/
def RunBudget.usage (b : RunBudget) : Json :=
  .obj [(str "model_calls", .int b.modelCalls), (str "tool_calls", .int b.toolCalls),
    (str "tokens", .int b.tokens), (str "output_bytes", .int b.outputBytes)]

/-- The payload of `run_stopped`: why and where the run ended, and what it used. -/
def stoppedPayload (s : AtlasRunState) (budget : Option RunBudget) : Fields :=
  [(str "stop_reason", EventLog.textOrNull (s.stopReason.map (·.text))),
    (str "stop_class", EventLog.textOrNull (s.stopReason.map (·.stopClass.text))),
    (str "status", .str s.status.text),
    (str "usage", (budget.map (·.usage)).getD .null)]

/-- `stopped`, up to the rendering of the document. -/
def stopped : RunM W Unit := do
  let r ← Eff.read
  append env .runStopped r.inside.state.iteration (stoppedPayload r.inside.state r.budget)

/-- The candidate of a run that passed: the beginning of its last output, with the task, the route
and the score. -/
def memoryCandidate (s : AtlasRunState) (last : AtlasEvaluation) : MemoryCandidate where
  task := s.task
  route := s.route
  summary := (strip (s.outputs.getLast?.getD [])).take 800
  qualityScore := last.qualityScore

/-- Only a passing run without a budget may promote a memory candidate. -/
def remember : RunM W Unit := do
  let r ← Eff.read
  let s := r.inside.state
  match s.evaluations.getLast? with
  | some last =>
    if r.budget.isNone && s.stopReason = some .passed then do
      let candidate := memoryCandidate s last
      let saved ← match env.memoryAdapter with
        | some memory => outside (memory.write candidate)
        | none => outside (env.saveLocalMemory env.memoryDir candidate)
      let kept := { candidate with savedPath := saved }
      setState fun s ↦ { s with memoryCandidates := s.memoryCandidates ++ [kept] }
    else pure ()
  | none => pure ()

/-- What follows the loop: a run that was not stopped in it has used up its passes, and one that
passed is remembered. -/
def conclude : RunM W Unit := do
  let s ← state
  if s.stopReason.isNone then stop .maxIterations else pure ()
  remember env

/-! ## The whole

The parts of `_run`, one after the other; every way to stop ends in `stopped`. -/

/-- The loop and its end, for a run that was set up. -/
def work (recorded : List Material) : RunM W Unit := do
  loop env recorded env.maxIterations
  conclude env

/-- `AtlasController._run`, up to the rendering of the document. -/
def run : RunM W Unit := do
  let recorded ← setUp env
  enter .observing
  setState fun s ↦
    { s with observations := s.observations ++ env.initial, evidenceBase := env.evidence }
  if ← gather env then stopped env
  else do
    readMemory env
    if requiresWriteApproval env.rt env.task then
      setMetadata fun m ↦ { m with safetyNotice := true }
    else pure ()
    if ← expired env then stopped env
    else
      match ← firstRead env recorded with
      | .stopped => stopped env
      | _ => do
        work env recorded
        stopped env

/-- A run, up to the record that it stopped. -/
def untilStop : RunM W Unit := do
  let recorded ← setUp env
  enter .observing
  setState fun s ↦
    { s with observations := s.observations ++ env.initial, evidenceBase := env.evidence }
  if ← gather env then pure ()
  else do
    readMemory env
    if requiresWriteApproval env.rt env.task then
      setMetadata fun m ↦ { m with safetyNotice := true }
    else pure ()
    if ← expired env then pure ()
    else
      match ← firstRead env recorded with
      | .stopped => pure ()
      | _ => work env recorded

/-- Every way out of a run leads to the record that it stopped. -/
theorem run_eq : run env = untilStop env >>= fun _ ↦ stopped env := by
  simp only [run, untilStop, bind_assoc]
  congr 1
  funext recorded
  congr 1
  funext _
  congr 1
  funext _
  congr 1
  funext late
  cases late with
  | true => rfl
  | false =>
    simp only [Bool.false_eq_true, if_false, bind_assoc]
    congr 1
    funext _
    -- what follows the notice, on both sides
    have hrest : (do
          if ← expired env then stopped env
          else
            match ← firstRead env recorded with
            | .stopped => stopped env
            | _ => do
              work env recorded
              stopped env) =
        (do
          if ← expired env then pure ()
          else
            match ← firstRead env recorded with
            | .stopped => pure ()
            | _ => work env recorded) >>= fun _ ↦ stopped env := by
      rw [bind_assoc]
      congr 1
      funext late
      cases late with
      | true => rfl
      | false =>
        simp only [Bool.false_eq_true, if_false, bind_assoc]
        congr 1
        funext outcome
        cases outcome <;> rfl
    split
    · rw [hrest]
      simp only [bind_assoc]
    · exact hrest

end AtlasCore
