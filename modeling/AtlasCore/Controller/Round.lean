import AtlasCore.Controller.Host

/-!
# One round of observation

The host is asked, its answer is merged, and what came of it is recorded before it is adopted.  A
run that resumes another compares each round with what the log has recorded for it, and refuses to
go on from other bytes.

The order matters: the budget is charged before the answer is merged, and the merge is refused or
accepted as a whole, so a round that stops has adopted nothing.  The material of a round, by which
two rounds are compared, is what the round added or superseded by digest, and what it only reframed
by its window.
-/

set_option autoImplicit false

namespace AtlasCore

open Py

/-! ## The material of a round, and of its record

What a round adopted, computed from the round and, for a resumed run, from the record it left. -/

/-- `f"{sha256}@{line_start}:{line_end}"`: a window of a content, which tells a reading of other
lines from the one before. -/
def windowText (sha256 lineStart lineEnd : Str) : Str :=
  sha256 ++ str "@" ++ lineStart ++ str ":" ++ lineEnd

/-- `_round_material`: what a round brought, by source and digest, and for what was only reframed by
its new window. -/
def ObservationRound.material (r : ObservationRound) : Material :=
  (r.added.map fun o ↦ (o.sourceId, o.contentSha256)).toFinset ∪
    (r.superseded.map fun s ↦ (s.sourceId, s.newSha256)).toFinset ∪
    (r.reframed.map fun f ↦
      (f.sourceId, windowText f.sha256 (decimalInt f.newLineStart)
        (decimalInt f.newLineEnd))).toFinset

/-- The entry of `added` in the payload of `observation_recorded`. -/
def Observation.recorded (o : Observation) : Fields :=
  [(str "source_id", .str o.sourceId), (str "path", .str o.path),
    (str "sha256", .str o.contentSha256)]

/-- The entry of `superseded`: the source, and its digests before and after. -/
def Supersession.recorded (s : Supersession) : Fields :=
  [(str "source_id", .str s.sourceId), (str "path", .str s.path),
    (str "previous_sha256", .str s.previousSha256), (str "new_sha256", .str s.newSha256)]

/-- The entry of `reframed`: the source, whose bytes stayed, and its window before and after. -/
def Reframing.recorded (f : Reframing) : Fields :=
  [(str "source_id", .str f.sourceId), (str "path", .str f.path), (str "sha256", .str f.sha256),
    (str "previous_line_start", .int f.previousLineStart),
    (str "previous_line_end", .int f.previousLineEnd),
    (str "new_line_start", .int f.newLineStart), (str "new_line_end", .int f.newLineEnd)]

/-- `LineWindow.to_dict`: the anchor is only there where one was asked for. -/
def LineWindow.toDict (w : LineWindow) : Fields :=
  [(str "path", .str w.path), (str "line_start", .int w.lineStart),
    (str "max_lines", .int w.maxLines)] ++
    match w.anchorPrefix with
    | some anchor => [(str "anchor_prefix", .str anchor)]
    | none => []

/-- The payload of `observation_recorded`: what was asked for, what the round did to each source,
and the windows it was asked to read. -/
def RoundRecord.payload (r : RoundRecord) : Fields :=
  [(str "patterns", .arr (r.patterns.map .str)),
    (str "requested", .int r.round.requested),
    (str "added", .arr (r.round.added.map fun o ↦ .obj o.recorded)),
    (str "superseded", .arr (r.round.superseded.map fun s ↦ .obj s.recorded)),
    (str "reframed", .arr (r.round.reframed.map fun f ↦ .obj f.recorded)),
    (str "line_windows", .arr (r.lineWindows.map fun w ↦ .obj w.toDict)),
    (str "unchanged", .arr (r.round.unchanged.map .str)),
    (str "has_new_material", .bool r.round.hasNewMaterial)]

/-- `payload.get(key, [])`, each item of which has to have a `get`. -/
def payloadItems (payload : Fields) (key : String) : Except Exc (List Fields) :=
  match Json.lookup (str key) payload with
  | none => .ok []
  | some (.arr items) => items.mapM fun
    | .obj fields => .ok fields
    | _ => .error (.other (str "AttributeError"))
  | some (.str []) => .ok []
  | some (.obj []) => .ok []
  | some (.str _) => .error (.other (str "AttributeError"))
  | some (.obj _) => .error (.other (str "AttributeError"))
  | some _ => .error .typeError

/-- `str(item.get(key))`: what is missing becomes the text `None`, and what is no text is written as
one. -/
def itemText (rt : Runtime) (item : Fields) (key : String) : Str := strValue rt (getOrNull item key)

/-- `_logged_round_material`: the material of a round, read from its payload in a log. -/
def loggedRoundMaterial (rt : Runtime) (payload : Fields) : Except Exc Material := do
  let added ← payloadItems payload "added"
  let superseded ← payloadItems payload "superseded"
  let reframed ← payloadItems payload "reframed"
  return (added.map fun i ↦ (itemText rt i "source_id", itemText rt i "sha256")).toFinset ∪
    (superseded.map fun i ↦ (itemText rt i "source_id", itemText rt i "new_sha256")).toFinset ∪
    (reframed.map fun i ↦
      (itemText rt i "source_id", windowText (itemText rt i "sha256")
        (itemText rt i "new_line_start") (itemText rt i "new_line_end"))).toFinset

/-- `recorded_rounds`: what the observation rounds in the records adopted, in order. -/
def recordedRounds (rt : Runtime) (records : List Event) : Except Exc (List Material) :=
  (records.filter fun e ↦ e.kind = .observationRecorded).mapM fun e ↦
    loggedRoundMaterial rt e.payload

/-! ## The round

One question to the host.  Nothing is adopted before the budget has paid for all of it, and what
stops the run in between closes the call first. -/

variable {W : Type} (env : Setting W)

open RunM

/-- What a round came to: the run stopped in it, it brought nothing, or it brought something new. -/
inductive RoundOutcome where
  | stopped | nothing | new
  deriving DecidableEq

/-- The host's answer, merged: the `try` around `observer.observe`. -/
def askHost (base : EvidenceBase) (observer : Observer W) (request : ObservationRequest) :
    RunM W (List Observation × ObservationRound) := do
  metered (RunBudget.check env.meter)
  let incoming ← metered (observer request)
  Eff.ofExcept (mergeObservations base.snapshot base.observations incoming)

/-- `fresh`: what was added, and what now stands for a source that changed. -/
def freshObservations (merged : List Observation) (round : ObservationRound) : List Observation :=
  round.added ++ merged.filter fun o ↦
    o.sourceId ∈ round.superseded.map (·.sourceId) || o.sourceId ∈ round.reframed.map (·.sourceId)

/-- The prose an observation becomes in the list of what was observed: its path and its excerpt. -/
def Observation.context (o : Observation) : Str := o.path ++ str ":\n" ++ o.excerpt

/-- `already_resolved`: the patterns of the rounds that were committed. -/
def resolvedPatterns (rounds : List RoundRecord) : List Str := rounds.flatMap (·.patterns)

/-- The second half of a round, once the budget has paid for it: record it, then adopt it. -/
def commitRound (base : EvidenceBase) (merged : List Observation) (record : RoundRecord)
    (contexts : List Str) (newlyResolved : List Str) : RunM W RoundOutcome := do
  setMetadata fun m ↦ { m with observationRounds := m.observationRounds ++ [record] }
  append env .observationRecorded record.iteration record.payload
  if !record.round.hasNewMaterial && newlyResolved.isEmpty then return .nothing
  else
    match base.withObservations merged with
    | none => Eff.raise .valueError
    | some adopted =>
      setState fun s ↦
        { s with evidenceBase := some adopted, observations := s.observations ++ contexts }
      return .new

/-- The end of a round, once its material has been compared with what was recorded. -/
def payRound (base : EvidenceBase) (request : ObservationRequest) (patterns : List Str)
    (read : Option Str) (merged : List Observation) (round : ObservationRound) :
    RunM W RoundOutcome := do
  let s ← state
  let contexts := (freshObservations merged round).map (·.context)
  let newlyResolved := patterns.filter (· ∉ resolvedPatterns s.metadata.observationRounds)
  match ← Eff.attempt (contexts.forM fun c ↦ metered (RunBudget.chargeOutput env.meter c)) with
  | .error .runCancelled => do
    finishCall env read .failed s.iteration (some .runCancelled)
    stopCancelled
    return .stopped
  | .error (.budgetExceeded limit) => do
    finishCall env read .denied s.iteration (some (.budgetExceeded limit))
    stopBudget limit
    return .stopped
  | .error e => Eff.raise e
  | .ok _ => do
    finishCall env read .ok s.iteration none
    commitRound env base merged ⟨round, s.iteration, patterns, request.lineWindows⟩ contexts
      newlyResolved

/-- `observe_round`, where there is a base and an observer. -/
def observeRoundOf (recorded : List Material) (request : ObservationRequest) (patterns : List Str)
    (base : EvidenceBase) (observer : Observer W) : RunM W RoundOutcome := do
  let s ← state
  note .asked
  let target := join (str ",")
    (if request.paths ≠ [] then request.paths else request.lineWindows.map (·.path))
  let read ← startCall env .observe s.iteration (if target = [] then none else some target) true
  match ← Eff.attempt (askHost env base observer request) with
  | .error .runCancelled => do
    finishCall env read .failed s.iteration (some .runCancelled)
    stopCancelled
    return .stopped
  | .error (.budgetExceeded limit) => do
    finishCall env read .denied s.iteration (some (.budgetExceeded limit))
    stopBudget limit
    return .stopped
  | .error e =>
    if e.isException then do
      finishCall env read .failed s.iteration (some e)
      stopToolError "observer" e
      return .stopped
    else Eff.raise e
  | .ok (merged, round) => do
    let committed := s.metadata.observationRounds.length
    note (.answered committed round.material base)
    match recorded[committed]? with
    | some expected =>
      if round.material ≠ expected then do
        finishCall env read .ok s.iteration none
        let changed := ⟨committed, (symmDiff expected round.material).image Prod.fst⟩
        setMetadata fun m ↦ { m with resumeEvidenceChanged := some changed }
        stop .blocked
        return .stopped
      else payRound env base request patterns read merged round
    | none => payRound env base request patterns read merged round

/-- `observe_round`: it takes a base to merge into and an observer to ask, and without either it
should not have been called. -/
def observeRound (recorded : List Material) (request : ObservationRequest) (patterns : List Str) :
    RunM W RoundOutcome := do
  let s ← state
  match s.evidenceBase, env.observer with
  | some base, some observer => observeRoundOf env recorded request patterns base observer
  | _, _ => Eff.raise .assertionError

/-! ## Asking for a round

What a grade asks to be read again, and why. -/

/-- The text of a verification result, as reports and records have it. -/
def VerificationResult.text : VerificationResult → Str
  | fresh => str "fresh"
  | stale => str "stale"
  | missing => str "missing"
  | refused => str "refused"
  | unverifiable => str "unverifiable"

/-- Why the run cannot stand behind its sources, where no finding said so: what drift found. -/
def driftCodes (report : Option DriftReport) : List Str :=
  match report with
  | none => []
  | some report =>
    (report.notEvidence.map (·.2.result.text)).dedup.insertionSort fun a b ↦ Json.keyLe a b = true

/-- `read_again`, up to the round: what is asked for. -/
def readAgainRequest (base : EvidenceBase) (iteration : ℕ) (evaluation : AtlasEvaluation)
    (report : Option DriftReport) (review : Option ReviewPlan) :
    Except Exc (ObservationRequest × List Str) := do
  let asked := evaluation.nextAction.filter (·.kind = .observeAgain)
  let blockedBy := match asked with
    | some action => action.details.blockedBy
    | none => driftCodes report
  let claims := match asked with
    | some action => action.details.claims
    | none => []
  let patterns := (evaluation.nextAction.map (·.details.patterns)).getD []
  let windows ←
    ((evaluation.nextAction.map (·.details.lineWindows)).getD []).mapM WindowRequest.build
  let request ← requestFrom base.snapshot base.observations blockedBy claims iteration patterns
    windows windows.isEmpty ((review.map (·.question)).getD [])
  return (request, patterns)

/-- `read_again`: what is read depends on why the pass was refused, and on which sources have
drifted. -/
def readAgain (recorded : List Material) (evaluation : AtlasEvaluation)
    (report : Option DriftReport) (review : Option ReviewPlan) : RunM W RoundOutcome := do
  let s ← state
  match s.evidenceBase with
  | none => Eff.raise .assertionError
  | some base => do
    let (request, patterns) ←
      Eff.ofExcept (readAgainRequest base s.iteration evaluation report review)
    enter .observing
    observeRound env recorded request patterns

end AtlasCore
