import AtlasCore.Controller.Resumed
import AtlasCore.HostApi.Seal

/-!
# Metrics

`run_metrics` reads the records of a run and counts.  A metric is built from an allowlist: a payload
is read under a few keys, and of what is read a text passes only if it belongs to one of the closed
vocabularies (`enum`).

The records are whatever the file has, so a payload may be no object; then the reading of it raises
`AttributeError`.  The seconds between two times and the rounded ratio of two numbers are
parameters.
-/

set_option autoImplicit false

namespace AtlasCore

open Py

namespace Telemetry

open Inspect (payloadGet isKind)

/-! ## The vocabularies

What a text may be to be counted.  What is in no vocabulary gets into no metric. -/

/-- The call kind a text names; any other text is none. -/
def callKind (s : Str) : Option CallKind :=
  [CallKind.observe, .modelCall, .toolCall, .memoryRead, .memoryWrite].find? fun k ↦ k.text = s

/-- The texts of `VERDICTS`, as a grade in a log has them. -/
def verdictText : Verdict → Str
  | .verified => str "verified"
  | .contradicted => str "contradicted"
  | .insufficientEvidence => str "insufficient_evidence"

/-- The verdict a text names; any other text is none. -/
def verdict (s : Str) : Option Verdict :=
  [Verdict.verified, .contradicted, .insufficientEvidence].find? fun v ↦ verdictText v = s

/-- The decision a text is; any other text is none. -/
def decision (s : Str) : Option Str := APPROVAL_DECISIONS.find? fun d ↦ d = s

/-- The stop reason a text names; any other text is none. -/
def stopReason (s : Str) : Option StopReason := HostApi.STOP_REASONS.find? fun r ↦ r.text = s

/-- The stop class a text names; any other text is none. -/
def stopClass (s : Str) : Option StopClass :=
  [StopClass.evaluation, .runtime, .control].find? fun c ↦ c.text = s

/-- `USAGE_KEYS`: the counters of a budget that a metric takes over. -/
def USAGE_KEYS : List Str :=
  [str "model_calls", str "tool_calls", str "tokens", str "output_bytes"]

/-- `_enum`: what a text names in a vocabulary. -/
def enum {α : Type} (named : Str → Option α) : Json → Option α
  | .str s => named s
  | _ => none

/-- `_count`: a number that is not negative; a boolean is none. -/
def count : Json → Option ℕ
  | .int z => if 0 ≤ z then some z.toNat else none
  | _ => none

/-- `_ISSUED_RUN_ID.fullmatch`: the form of the ids that are drawn at random, which say nothing. -/
def isIssued (s : Str) : Bool :=
  s.length == 36 && s.zipIdx.all fun p ↦
    if p.2 ∈ [8, 13, 18, 23] then p.1 == ch '-' else isHex p.1

/-! ## The parts of the metrics

The tables that a run is folded into. -/

/-- The outcomes of the calls of one kind. -/
structure CallCounts where
  ok : ℤ := 0
  denied : ℤ := 0
  failed : ℤ := 0
  unfinished : ℤ := 0
  deriving DecidableEq

/-- The number of calls in a state; `none` is `unfinished`. -/
def CallCounts.get (counts : CallCounts) : Option CallOutcome → ℤ
  | some .ok => counts.ok
  | some .denied => counts.denied
  | some .failed => counts.failed
  | none => counts.unfinished

/-- `counts[state] += by`: one of the four counters. -/
def CallCounts.add (counts : CallCounts) (state : Option CallOutcome) (n : ℤ) : CallCounts :=
  match state with
  | some .ok => { counts with ok := counts.ok + n }
  | some .denied => { counts with denied := counts.denied + n }
  | some .failed => { counts with failed := counts.failed + n }
  | none => { counts with unfinished := counts.unfinished + n }

/-- `calls`, in the order in which the kinds first occur. -/
abbrev CallTable := List (CallKind × CallCounts)

/-- `calls.setdefault(kind, dict.fromkeys((*CALL_OUTCOMES, "unfinished"), 0))`: a kind that was not
met before starts at nothing. -/
def CallTable.ensure (calls : CallTable) (kind : CallKind) : CallTable :=
  if calls.any fun p ↦ p.1 = kind then calls else calls ++ [(kind, ⟨0, 0, 0, 0⟩)]

/-- `calls[kind][state] += n`, for a kind that is in the table. -/
def CallTable.add (calls : CallTable) (kind : CallKind) (state : Option CallOutcome)
    (n : ℤ) : CallTable :=
  calls.map fun p ↦ if p.1 = kind then (p.1, p.2.add state n) else p

/-- `calls` and `started_calls`, the newest call first. -/
structure CallFold where
  calls : CallTable := []
  started : List (Str × CallKind) := []

/-- The counters of the writes: verified, not verified, and taken back. -/
structure Writes where
  verified : ℕ := 0
  failedVerification : ℕ := 0
  rolledBack : ℕ := 0
  deriving DecidableEq

/-- `run_metrics(records)`: numbers and words of closed vocabularies, and an id. -/
structure RunMetrics where
  runId : Option Str
  /-- `"run"`, and otherwise `"audit"`. -/
  isRun : Bool
  finished : Bool
  stopReason : Option StopReason
  stopClass : Option StopClass
  latency : Option Py.Float
  iterations : Option ℕ
  events : ℕ
  usage : Option (List (Str × Option ℕ))
  calls : CallTable
  toolErrors : ℤ
  checked : ℕ
  verdicts : Verdict → ℕ
  verificationRate : Option Py.Float
  approvals : List (Str × ℕ)
  userRefusals : ℕ
  writes : Writes

section
variable (rt : Runtime)
  -- `_seconds(start, end)`
  (seconds : Str → Str → Option Py.Float)
  -- `round(a / b, 4)`
  (ratio : ℕ → ℕ → Py.Float)

/-! ## One record

What one record adds to the tables. -/

/-- `record.get("payload", {})`, which may be anything. -/
def payload (record : Fields) : Json := (Json.lookup (str "payload") record).getD (.obj [])

/-- `payload.get(key)`, which raises where the payload is no mapping. -/
def get (payload : Json) (key : String) : Except Exc Json := do
  return (← payloadGet payload key).getD .null

/-- One record of the loop over the calls. -/
def countCall (fold : CallFold) (record : Fields) : Except Exc CallFold := do
  if isKind .callStarted record then
    match enum callKind (← get (payload record) "call_kind"), getOrNull record "call_id" with
    | some kind, .str id =>
      return ⟨(fold.calls.ensure kind).add kind none 1, (id, kind) :: fold.started⟩
    | _, _ => return fold
  else if isKind .callFinished record then
    let outcome := enum CallOutcome.ofText (← get (payload record) "outcome")
    match fold.started.lookup (strValue rt (getOrNull record "call_id")), outcome with
    | some kind, some outcome =>
      return { fold with calls := (fold.calls.add kind none (-1)).add kind (some outcome) 1 }
    | _, _ => return fold
  else return fold

/-- `verdicts[verdict] += number`, where both are what they should be. -/
def countVerdict (counter : Verdict → ℕ) (counted : Str × Json) : Verdict → ℕ :=
  match verdict counted.1, count counted.2 with
  | some v, some n => fun w ↦ if w = v then counter w + n else counter w
  | _, _ => counter

/-- One record of the loop over the verdicts. -/
def countVerdicts (counter : Verdict → ℕ) (record : Fields) : Except Exc (Verdict → ℕ) := do
  if isKind .decisionRecorded record then
    match ← get (payload record) "citation_verdicts" with
    | .obj counted => return counted.foldl countVerdict counter
    | _ => return counter
  else return counter

/-- One record of the loop over approvals and writes. -/
def countApproval (fold : List (Str × ℕ) × Writes) (record : Fields) :
    Except Exc (List (Str × ℕ) × Writes) := do
  if isKind .approvalRecorded record then
    match enum decision (← get (payload record) "decision") with
    | some d => return (fold.1.map fun p ↦ if p.1 = d then (p.1, p.2 + 1) else p, fold.2)
    | none => return fold
  else if isKind .writeVerified record then
    let verified := isTrue (← get (payload record) "verified")
    let rolledBack := isTrue (← get (payload record) "rolled_back")
    return (fold.1, {
      verified := fold.2.verified + if verified then 1 else 0
      failedVerification := fold.2.failedVerification + if verified then 0 else 1
      rolledBack := fold.2.rolledBack + if rolledBack then 1 else 0 })
  else return fold

/-! ## All records

The metrics of a run. -/

/-- `_run_id`: an id that was drawn at random stays, any other is replaced by its digest. -/
def runId : Json → Except Exc (Option Str)
  | .null => .ok none
  | v =>
    let text := strValue rt v
    if isIssued text then .ok (some text)
    else
      match sha256Text text with
      | some d => .ok (some (str "sha256:" ++ d.take 16))
      | none => .error .unicodeEncodeError

/-- `_run_id(records[0].get("run_id")) if records else None`: the id of the first record stands for
all. -/
def firstId : List Fields → Except Exc (Option Str)
  | [] => .ok none
  | first :: _ => runId rt (getOrNull first "run_id")

/-- The time from the first record to the stop. -/
def latency (records : List Fields) (stopped : Option Fields) : Option Py.Float :=
  match records, stopped with
  | first :: _, some stop =>
    seconds (strValue rt (getOrNull first "recorded_at"))
      (strValue rt (getOrNull stop "recorded_at"))
  | _, _ => none

/-- `{key: _count(usage.get(key)) for key in USAGE_KEYS}`, of a dict. -/
def usageOf : Json → Option (List (Str × Option ℕ))
  | .obj usage =>
    some (USAGE_KEYS.map fun key ↦ (key, count ((Json.lookup key usage).getD .null)))
  | _ => none

/-- The tool calls that failed or were denied. -/
def toolErrors (calls : CallTable) : ℤ :=
  match calls.find? fun p ↦ p.1 = .toolCall with
  | some (_, counts) => counts.failed + counts.denied
  | none => 0

/-- The iterations of the records that have one. -/
def iterations (records : List Fields) : List ℕ :=
  records.filterMap fun r ↦ count (getOrNull r "iteration")

/-- `sum(verdicts.values())`: how many claims were checked. -/
def checked (verdicts : Verdict → ℕ) : ℕ :=
  verdicts .verified + verdicts .contradicted + verdicts .insufficientEvidence

/-- The payload of the stop; a run that has not stopped has an empty one. -/
def stopPayload (stopped : Option Fields) : Json := (stopped.map payload).getD (.obj [])

/-- `run_metrics`: the records are gone through for calls, verdicts, approvals and writes, and
nothing else of them is kept. -/
def runMetrics (records : List Fields) : Except Exc RunMetrics := do
  let isRun := records.any (isKind .runStarted)
  let stopped := records.find? (isKind .runStopped)
  let stop := stopPayload stopped
  let calls ← records.foldlM (countCall rt) {}
  let verdicts ← records.foldlM countVerdicts fun _ ↦ 0
  let (approvals, writes) ←
    records.foldlM countApproval (APPROVAL_DECISIONS.map fun d ↦ (d, 0), {})
  let usage ← get stop "usage"
  let id ← firstId rt records
  let reason ← get stop "stop_reason"
  let cls ← get stop "stop_class"
  return {
    runId := id
    isRun := isRun
    finished := stopped.isSome
    stopReason := enum stopReason reason
    stopClass := enum stopClass cls
    latency := latency rt seconds records stopped
    iterations := if isRun then (iterations records).max? else none
    events := records.length
    usage := usageOf usage
    calls := calls.calls
    toolErrors := toolErrors calls.calls
    checked := checked verdicts
    verdicts := verdicts
    verificationRate :=
      if checked verdicts = 0 then none else some (ratio (verdicts .verified) (checked verdicts))
    approvals := approvals
    userRefusals := ((approvals.lookup (str "refused")).getD 0)
    writes := writes }

end

end Telemetry

end AtlasCore
