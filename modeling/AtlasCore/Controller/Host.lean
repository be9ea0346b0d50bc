import AtlasCore.Controller.Identity
import AtlasCore.Controller.State

/-!
# What a run is given

The host, the adapters and the arguments of one run.  Whatever is called here may change the world
as it likes and raise what it likes; where it is handed the budget it may spend from it.

`Setting` is all of it together, and it is what the theorems about runs quantify over.  A host that
lies, raises or changes its mind is a setting like any other.  Only what the types of the source
promise is promised here: that a list is a list, and a text a text.
-/

set_option autoImplicit false

namespace AtlasCore

open Py

/-- What `execute` is called with: the task, the plan of this pass, what was observed, and the grade
of the pass before. -/
structure ModelInput where
  task : Str
  route : RouteName
  plan : AtlasPlan
  observations : List Str
  feedback : Option AtlasEvaluation

/-- One attempt of a tool call that went through the gateway. -/
structure ToolCall where
  target : Str
  idempotent : Bool
  /-- `none` where the attempt was not finished. -/
  outcome : Option CallOutcome

/-- What a model adapter can reach: the world, the budget, and the tools of the gateway, of which
the log keeps the calls. -/
structure Reach (W : Type) where
  world : W
  budget : Option RunBudget
  toolCalls : List ToolCall

/-- `ModelAdapter`: what produces an output.  It may do anything with the world and spend from the
budget, and it may raise. -/
structure ModelAdapter (W : Type) where
  /-- `execute`; `none` is something that is not a `ModelResult`. -/
  execute : ModelInput → Eff Exc (Reach W) (Option ModelResult)
  /-- `getattr(adapter, "provider", None) or type(adapter).__name__`. -/
  name : Str
  idempotent : Bool

/-- `MemoryAdapter`: what a run is told at its start and tells at its end. -/
structure MemoryAdapter (W : Type) where
  read : Str → Eff Exc W (List Str)
  write : MemoryCandidate → Eff Exc W (Option Str)

/-- `Observer.observe`; `none` in the answer is something that is not an `Observation`. -/
abbrev Observer (W : Type) :=
  ObservationRequest → Eff Exc (W × RunBudget) (List (Option Observation))

/-- A source reader; `none` is something that is not a `list[str]`. -/
abbrev SourceReader (W : Type) := Str → Eff Exc (W × RunBudget) (Option (List Str))

/-- The machine a run is on, and the code it calls that is not the controller's. -/
structure Host (W : Type) where
  rt : Runtime
  mask : Masking
  /-- `str.isdecimal`. -/
  isDecimal : Str → Bool
  /-- `type(exc).__name__`. -/
  typeName : Exc → Str
  clock : Eff Exc W ℚ
  sources : Sources W
  checkout : Checkout W
  /-- `digest` of what a call was given. -/
  callDigest : Eff Exc W (Option Str)
  executePlanParts : Str → AtlasPlan → List Str → Option AtlasEvaluation → Option EvidenceBase →
    Eff Exc W (Str × Str)
  saveLocalMemory : Option Str → MemoryCandidate → Eff Exc W (Option Str)

/-- `AtlasController`: the number of passes it makes at most, and the adapters it works with. -/
structure AtlasController (W : Type) where
  maxIterations : ℕ
  /-- `max_iterations must be a positive integer`. -/
  positive : 1 ≤ maxIterations
  memoryDir : Option Str
  modelAdapter : Option (ModelAdapter W)
  memoryAdapter : Option (MemoryAdapter W)
  /-- Whether tools are registered. -/
  tools : Bool
  events : Option (Sink W)

/-- The arguments of `_run`: everything that belongs to one run and not to the controller. -/
structure RunArgs (W : Type) where
  task : Str
  runId : Str
  initial : List Str
  evidence : Option EvidenceBase
  limits : Option RunLimits
  cancelled : Option (Eff Exc W Bool)
  readers : List (SourceReader W)
  observer : Option (Observer W)
  readFirst : Bool
  /-- `_resume_records`. -/
  resumeRecords : Option (List Event)

/-- Everything a run is given: the machine, the controller and the arguments of the call.  It does
not change while the run goes on. -/
structure Setting (W : Type) extends Host W, AtlasController W, RunArgs W

variable {W : Type} (env : Setting W)

/-- What the budget is measured with: the clock of the machine, and the question whether the run was
cancelled. -/
def Setting.meter : Meter W := ⟨env.clock, env.cancelled⟩

/-- The state `_run` begins with: the task and its id, no pass yet, and no budget before the limits
are looked at. -/
def Setting.start (w : W) : Run W where
  inside :=
    { state := { task := env.task, runId := env.runId, maxIterations := env.maxIterations } }
  budget := none
  world := w

namespace RunM

/-- `log.append(...)`, if there is a log.  A run without one does the same and tells nobody. -/
def append (kind : EventKind) (iteration : ℕ) (payload : Fields) : RunM W Unit := do
  match env.events with
  | none => pure ()
  | some sink =>
    let _ ← logged (EventLog.append env.mask sink kind iteration none payload)
    pure ()

/-- `log.start_call(...)`, if there is a log: the id that comes back is what the end of the call
will name. -/
def startCall (callKind : CallKind) (iteration : ℕ) (target : Option Str) (idempotent : Bool) :
    RunM W (Option Str) := do
  match env.events with
  | none => return none
  | some sink =>
    logged (EventLog.startCall env.mask sink callKind iteration target env.callDigest
      [(str "idempotent", .bool idempotent)])

/-- `log.finish_call(...)`, if a call was started: its outcome, and the name of the error where it
failed. -/
def finishCall (call : Option Str) (outcome : CallOutcome) (iteration : ℕ) (error : Option Exc) :
    RunM W Unit := do
  match env.events, call with
  | some sink, some callId =>
    let _ ← logged (EventLog.finishCall env.mask sink callId outcome iteration
      (error.map env.typeName))
    pure ()
  | _, _ => pure ()

/-- `except RunCancelled: state.stop("cancelled")`: there is nothing to note but the reason. -/
def stopCancelled : RunM W Unit := stop .cancelled

/-- `except BudgetExceeded as exc: ...`: which limit was reached is noted, and the run stops. -/
def stopBudget (limit : Str) : RunM W Unit := do
  setMetadata fun m ↦ { m with budgetExhausted := some limit }
  stop .budgetExhausted

/-- `except Exception as exc: ...`: the run stops, and the stage and the error are noted. -/
def stopToolError (stage : String) (e : Exc) : RunM W Unit := do
  stop .toolError
  setMetadata fun m ↦ { m with failure := some ⟨str stage, e⟩ }

end RunM

end AtlasCore
