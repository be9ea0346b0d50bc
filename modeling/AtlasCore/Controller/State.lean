import AtlasCore.Controller.Budget
import AtlasCore.Controller.Machine
import AtlasCore.EventLog.Log
import AtlasCore.Evidence.Drift
import AtlasCore.Evidence.Observer
import Mathlib.Data.Finset.SymmDiff

/-!
# The state of a run

What a run carries, and what it is surrounded by.  The surroundings are a world of which nothing is
assumed: the clock, the disk, git, the model, the host that reads, the sink of the log.  What the
run itself holds is kept apart from them, in `Inside`, so that whatever the surroundings do leaves
it alone by definition.

`Inside.trace` is for the statements about a run: it lists the statuses that were entered, the
grades, the drift reports and the rounds of observation, and nothing reads it.
-/

set_option autoImplicit false

namespace AtlasCore

open Py

/-! ## The run record

What a run holds that its loop reads or its end reports. -/

/-- Where a failure happened, and what it was. -/
structure Failure where
  stage : Str
  error : Exc

/-- One entry of `metadata["observation_rounds"]`: a round, in which pass it was, and what it was
asked for. -/
structure RoundRecord where
  round : ObservationRound
  iteration : ℕ
  patterns : List Str
  lineWindows : List LineWindow

/-- `metadata["resume_evidence_changed"]`: the first round in which a resumed run read something
else than before, and the sources it is about. -/
structure ResumeEvidenceChanged where
  round : ℕ
  /-- Sorted, in the source. -/
  sourceIds : Finset Str

/-- `metadata["drift"]`: what the verification said, and the paths that no longer stand. -/
structure DriftRecord where
  report : DriftReport
  paths : List Str

/-- `metadata["blocked"]`: what the run would have needed, and from whom. -/
structure BlockedRecord where
  action : NextActionKind
  gapCodes : List GapCode
  actor : Actor
  iteration : ℕ
  observerAttached : Bool

/-- `metadata["no_progress"]`: which two passes came to the same, and in which of the two ways. -/
inductive NoProgressRecord where
  | identicalModelOutput (iterations : ℕ × ℕ)
  | unchangedFeedback (iterations : ℕ × ℕ) (action : Option NextActionKind)
      (materialUnchanged : Bool)

/-- `ModelResult`; an `output` that is not text is `none`. -/
structure ModelResult where
  output : Option Str
  model : Option Str
  provider : Option Str
  metadata : List (Str × Str)
  findingsBlock : Option Str

/-- `result.metadata.get(key)`: the first entry under the key, if there is one. -/
def ModelResult.get (r : ModelResult) (key : String) : Option Str :=
  (r.metadata.find? fun p ↦ p.1 = str key).map (·.2)

/-- Where the findings of an output were read from. -/
inductive FindingsOrigin where
  | findingsBlock | adapterOutput | producerSection
  deriving DecidableEq

/-- `AtlasRunState.metadata`: what a run notes besides its state, each entry with the type of what
the source puts there. -/
structure Metadata where
  observationRounds : List RoundRecord := []
  resumeEvidenceChanged : Option ResumeEvidenceChanged := none
  budgetExhausted : Option Str := none
  failure : Option Failure := none
  drift : Option DriftRecord := none
  blocked : Option BlockedRecord := none
  noProgress : Option NoProgressRecord := none
  modelResult : Option ModelResult := none
  nonDeterministic : Bool := false
  findingsSources : List (ℕ × FindingsOrigin) := []
  safetyNotice : Bool := false
  memoryReadSkipped : Bool := false

/-- `build_memory_candidate`, without its time of creation: what a run that passed would have
remembered. -/
structure MemoryCandidate where
  task : Str
  route : Option RouteName
  summary : Str
  /-- In hundredths. -/
  qualityScore : ℤ
  savedPath : Option Str := none

/-- `AtlasRunState`: the status of a run, its grades, its outputs and what it has observed. -/
structure AtlasRunState where
  task : Str
  runId : Str
  status : Status := .new
  stopReason : Option StopReason := none
  iteration : ℕ := 0
  maxIterations : ℕ
  route : Option RouteName := none
  plan : Option AtlasPlan := none
  observations : List Str := []
  evidenceBase : Option EvidenceBase := none
  outputs : List Str := []
  evaluations : List AtlasEvaluation := []
  memoryCandidates : List MemoryCandidate := []
  metadata : Metadata := {}

/-- Material of one round of observation, as `_round_material` collects it. -/
abbrev Material := Finset (Str × Str)

/-- `_material_signature`: the sources with their windows, and what the plan asks. -/
structure MaterialSignature where
  observations : List (Str × Str × ℤ × ℤ)
  plan : Option (Str × Str × List Str)
  deriving DecidableEq

/-- What the statements about a run speak of. -/
inductive Mark where
  /-- `state.status = s`. -/
  | entered (s : Status)
  /-- `InvalidTransition` was raised by `enter` or `stop`. -/
  | refused (source target : Status)
  /-- A round of observation began. -/
  | asked
  /-- The host answered in this round, and the answer was merged; `held` is what the run held. -/
  | answered (round : ℕ) (got : Material) (held : EvidenceBase)
  /-- An output was graded. -/
  | graded (e : AtlasEvaluation)
  /-- The gate looked for drift; `none` says that it found none. -/
  | drift (report : Option DriftReport)

/-- What the run itself holds: its state, the materials of its passes, its log, and the marks that
theorems read. -/
structure Inside where
  state : AtlasRunState
  materials : List MaterialSignature := []
  log : Option EventLog := none
  trace : List Mark := []

/-- A run and its surroundings: what it holds, what it may still use, and the world its adapters
work in. -/
structure Run (W : Type) where
  inside : Inside
  /-- The counters; `None` for a run without limits. -/
  budget : Option RunBudget
  world : W

variable {W : Type}

/-- A computation of the controller.  What was done before an exception stays done. -/
abbrev RunM (W : Type) := Eff Exc (Run W)

namespace RunM

variable {α : Type}

/-- What the surroundings do, as a step of the controller: the state of the run is out of their
reach. -/
def outside (m : Eff Exc W α) : RunM W α := m.zoom (·.world) fun w r ↦ { r with world := w }

/-- What is done with the budget at hand: `assert budget is not None`. -/
def metered (m : Eff Exc (W × RunBudget) α) : RunM W α := fun r ↦
  match r.budget with
  | none => (.error .assertionError, r)
  | some budget =>
    ((m (r.world, budget)).1,
      { r with world := (m (r.world, budget)).2.1, budget := some (m (r.world, budget)).2.2 })

/-- What the log does; without a log it is not asked. -/
def logged (m : Eff Exc (W × EventLog) α) : RunM W (Option α) := fun r ↦
  match r.inside.log with
  | none => (.ok none, r)
  | some log =>
    ((m (r.world, log)).1.map some,
      { r with
        world := (m (r.world, log)).2.1
        inside := { r.inside with log := some (m (r.world, log)).2.2 } })

/-- `state`: the state of the run as it is now. -/
def state : RunM W AtlasRunState := fun r ↦ (.ok r.inside.state, r)

/-- Change the state; the log, the marks, the budget and the world stay. -/
def setState (f : AtlasRunState → AtlasRunState) : RunM W Unit :=
  Eff.update fun r ↦ { r with inside := { r.inside with state := f r.inside.state } }

/-- Change the metadata; the rest of the state stays. -/
def setMetadata (f : Metadata → Metadata) : RunM W Unit :=
  setState fun s ↦ { s with metadata := f s.metadata }

/-- Leave a mark.  No step reads one; they tell a theorem in which order things happened. -/
def note (m : Mark) : RunM W Unit :=
  Eff.update fun r ↦ { r with inside := { r.inside with trace := r.inside.trace ++ [m] } }

/-- `self.status = status`, which leaves a mark of the status that is entered. -/
def become (s : Status) : RunM W Unit := do
  setState fun st ↦ { st with status := s }
  note (.entered s)

/-- `raise InvalidTransition`, which leaves a mark of the transition that was refused. -/
def refuse (source target : Status) : RunM W Unit := do
  note (.refused source target)
  Eff.raise .invalidTransition

/-- `AtlasRunState.enter`: the table is asked, and only what it has is entered. -/
def enter (target : Status) : RunM W Unit := do
  let s ← state
  if s.status.isLegal target then become target else refuse s.status target

/-- `AtlasRunState.stop`: the terminal status of the reason is entered, and the reason is kept. -/
def stop (reason : StopReason) : RunM W Unit := do
  -- a quota may trip at any stage, so this reason does not ask the table
  if reason = .budgetExhausted then
    let s ← state
    if s.status.isTerminal then refuse s.status reason.status else become reason.status
  else enter reason.status
  setState fun s ↦ { s with stopReason := some reason }

end RunM

end AtlasCore
