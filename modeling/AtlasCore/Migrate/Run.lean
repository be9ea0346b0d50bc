import AtlasCore.Evidence.Observation
import AtlasCore.Evidence.Values
import AtlasCore.Review.Plan

/-!
# `migrate_run`

A document of the first version as one of the second, with a report of what that cost.  A document
is whatever JSON object an archive holds, so a field of it may be absent or of any type.

The report is returned and is also written into the result, under `migration`.
-/

set_option autoImplicit false

namespace AtlasCore

open Py

namespace Migrate

/-- `UnknownSourceSchema`, a `ValueError`: the document is of another format. -/
def unknownSourceSchema : Exc := .other (str "UnknownSourceSchema")

/-- `SOURCE_SCHEMA`: the only format that is migrated. -/
def SOURCE_SCHEMA : Str := str "atlas-run.v1"

/-- `TARGET_SCHEMA`: the format of what comes out. -/
def TARGET_SCHEMA : Str := str "atlas-run.v2"

/-- `EVALUATION_SCHEMA`: the format of an evaluation in what comes out. -/
def EVALUATION_SCHEMA : Str := str "atlas-evaluation.v2"

/-- `APPROVAL_SCHEMA`: the format of an approval in what comes out. -/
def APPROVAL_SCHEMA : Str := str "atlas-approval.v1"

/-- `V1_REQUIRED`: what a document of the source format should have; what it lacks is reported as
missing. -/
def V1_REQUIRED : List Str :=
  [str "schema", str "task", str "run_id", str "created_at", str "status", str "stop_reason",
    str "iteration", str "max_iterations", str "route", str "plan", str "observations",
    str "outputs", str "evaluations", str "memory_candidates", str "metadata"]

/-- `V2_REQUIRED`: what a document of the target format should have; what it lacks is reported as
unfilled. -/
def V2_REQUIRED : List Str :=
  [str "schema", str "contracts", str "task", str "run_id", str "created_at", str "status",
    str "stop_reason", str "iteration", str "max_iterations", str "route", str "plan",
    str "observations", str "outputs", str "evaluations", str "actions", str "approvals",
    str "memory_candidates", str "metadata"]

/-- `CARRIED`: the keys that mean the same in both formats, and are taken over. -/
def CARRIED : List Str :=
  [str "run_id", str "task", str "created_at", str "status", str "stop_reason", str "stop_class",
    str "state_machine", str "iteration", str "max_iterations", str "route", str "plan",
    str "observations", str "evidence_manifest", str "outputs", str "memory_candidates",
    str "metadata"]

/-- `NOT_RECORDED_IN_V1`: what nobody wrote down at the time, which is something else than what is
missing. -/
def NOT_RECORDED_IN_V1 : List Str := [str "actions"]

/-- `RUN_V2_CONTRACTS`: the formats that a document of the target format refers to. -/
def RUN_V2_CONTRACTS : Fields :=
  [(str "observation", .str (str "atlas-observation.v1")),
    (str "finding", .str (str "atlas-finding.v1")),
    (str "evaluation", .str (str "atlas-evaluation.v2")),
    (str "action", .str (str "atlas-action.v1")),
    (str "approval", .str (str "atlas-approval.v1")),
    (str "event", .str (str "atlas-event.v1")), (str "route", .str (str "atlas-route.v1")),
    (str "memory_candidate", .str (str "atlas-memory-candidate.v1"))]

/-- `MigrationReport`: what was taken over, what was parked, and what is lacking on either side. -/
structure MigrationReport where
  mapped : List Str
  unmapped : Fields
  missing : List Str
  unfilled : List Str
  notRecorded : List Str
  inconsistent : List Str

/-- `MigrationReport.is_complete`: the target has everything it should have. -/
def MigrationReport.isComplete (r : MigrationReport) : Bool := r.unfilled.isEmpty

/-- `MigrationReport.is_lossless`: nothing had to be parked. -/
def MigrationReport.isLossless (r : MigrationReport) : Bool := r.unmapped.isEmpty

/-- `MigrationReport.to_dict`, which is part of the migrated document. -/
def MigrationReport.toDict (r : MigrationReport) (sourceSchema migratedAt : Str) : Fields :=
  [(str "from", .str sourceSchema), (str "to", .str TARGET_SCHEMA),
    (str "migrated_at", .str migratedAt), (str "unmapped", .obj r.unmapped),
    (str "missing", .arr (r.missing.map .str)), (str "unfilled", .arr (r.unfilled.map .str)),
    (str "not_recorded", .arr (r.notRecorded.map .str))]

/-! ## Identity

The ids that a migration makes up where the source has none.  They are digests of what was there,
so the same document gives the same ids. -/

/-- `\uXXXX`, of a number of sixteen bits. -/
def unicodeEscape (n : ℕ) : Str :=
  [Json.backslash, ch 'u', hexDigit (Fin.ofNat 16 (n / 4096)), hexDigit (Fin.ofNat 16 (n / 256)),
    hexDigit (Fin.ofNat 16 (n / 16)), hexDigit (Fin.ofNat 16 n)]

/-- What stands for a character with `ensure_ascii`; one beyond `\uFFFF` is a pair of surrogates. -/
def escapeAscii (c : CodePoint) : Str :=
  if c.val < 127 then Json.escapeChar c
  else if c.val < 0x10000 then unicodeEscape c.val
  else unicodeEscape (0xD800 + (c.val - 0x10000) / 1024) ++
    unicodeEscape (0xDC00 + (c.val - 0x10000) % 1024)

/-- `json.dumps(texts)`, in ASCII. -/
def dumpsTexts (texts : List Str) : Str :=
  ch '[' :: join (str ", ") (texts.map fun s ↦
    Json.quote :: s.flatMap escapeAscii ++ [Json.quote]) ++ [ch ']']

/-- `_stable_id`, of the parts as texts: the digest of their list, cut to 16 digits. -/
def stableId (parts : List Str) : Str := (sha256 (utf8 (dumpsTexts parts))).take 16

mutual
/-- What `repr` raises of a value, with this many levels left: every value takes one, and an integer
that is too long has no text. -/
def reprTrouble : ℕ → Json → Option Exc
  | 0, _ => some .recursionError
  | _ + 1, .int z => if Json.intFits z then none else some .valueError
  | n + 1, .arr items => reprTroubleItems n items
  | n + 1, .obj fields => reprTroubleFields n fields
  | _ + 1, _ => none

/-- `reprTrouble` of the items of a list: the first that cannot be written. -/
def reprTroubleItems : ℕ → List Json → Option Exc
  | _, [] => none
  | n, v :: rest => (reprTrouble n v).or (reprTroubleItems n rest)

/-- `reprTrouble` of the fields of a dict; a key takes the level that its value takes. -/
def reprTroubleFields : ℕ → Fields → Option Exc
  | _, [] => none
  | n, (_, v) :: rest => (reprTrouble n v).or (reprTroubleFields n rest)
end

section
variable (rt : Runtime)

/-- What `str(v)` raises: a text nothing, and any other value what `repr` raises of it. -/
def textTrouble : Json → Option Exc
  | .str _ => none
  | v => reprTrouble rt.printing v

/-- `str(v)`; a text is its own, and what is nested too deep or has too many digits raises. -/
def textOf (v : Json) : Except Exc Str :=
  (textTrouble rt v).elim (.ok (strValue rt v)) .error

/-- `_migrate_evaluation`; `number` is `iteration`, as a count and not as a field. -/
def migrateEvaluation (runId : Json) (number : ℕ) (item : Json) : Except Exc Fields := do
  let source ← dictValue item
  let record := Json.setField (str "schema") (.str EVALUATION_SCHEMA) source
  let record := Json.setField (str "run_id") runId record
  let record := Json.setField (str "iteration") (.int number) record
  let id ← textOf rt runId
  let record := Json.setField (str "evaluation_id") (.str (stableId [id, decimal number])) record
  return if isFalsy rt (getOrNull record "score_method") then
    Json.setField (str "score_method") (.str (str "unknown")) record else record

/-- One of the approvals of `_approvals_from`, of an evaluation that asked for a person. -/
def approvalFor (runId : Json) (id : Str) (task : Option Json) (number : ℕ) : Fields :=
  let derived := match task with
    | some (.str task) => requiresWriteApproval rt task
    | _ => false
  [(str "schema", .str APPROVAL_SCHEMA),
    (str "approval_id", .str (stableId [id, decimal number, str "approval"])),
    (str "run_id", runId), (str "iteration", .int number), (str "required", .bool true),
    (str "reason", .str (if derived then str "task_matches_write_keyword" else str "not_recorded")),
    (str "granted", .null), (str "granted_by", .null), (str "granted_at", .null),
    (str "binds_to", .null)]

/-- Whether an evaluation asked for a person; one that is no object did not. -/
def asksForApproval : Json → Bool
  | .obj fields => !isFalsy rt (getOrNull fields "requires_user_approval")
  | _ => false

/-- `_approvals_from`, from the item with the number on. -/
def approvalsFrom (runId : Json) (task : Option Json) : ℕ → List Json → Except Exc (List Json)
  | _, [] => .ok []
  | number, item :: rest =>
    if asksForApproval rt item then do
      let id ← textOf rt runId
      return .obj (approvalFor rt runId id task number) ::
        (← approvalsFrom runId task (number + 1) rest)
    else approvalsFrom runId task (number + 1) rest

/-- The evaluations of the result, from the item with the number on. -/
def migrateEvaluations (runId : Json) : ℕ → List Json → Except Exc (List Json)
  | _, [] => .ok []
  | number, item :: rest => do
    let record ← migrateEvaluation rt runId number item
    return .obj record :: (← migrateEvaluations runId (number + 1) rest)

/-! ## The document

The migration itself: what is renamed, what is carried as it is, and what is filled in. -/

/-- `isinstance(iterations, int) and count > iterations`; a boolean is an integer too. -/
def outnumber (count : ℕ) : Json → Bool
  | .int z => z < count
  | .bool b => (if b then 1 else 0) < count
  | _ => false

/-- The fields that move across under the same name. -/
def carried (document : Fields) : Fields :=
  CARRIED.filterMap fun key ↦ (Json.lookup key document).map (key, ·)

/-- `mapped`, with the evaluations if they are a list. -/
def mappedKeys (document : Fields) (graded : Bool) : List Str :=
  str "schema" :: (carried document).map (·.1) ++ if graded then [str "evaluations"] else []

/-- What becomes of the evaluations: the fields of the result, and what contradicts itself. -/
def evaluationFields (document : Fields) (items : List Json) : Except Exc (Fields × List Str) := do
  let runId := (Json.lookup (str "run_id") document).getD (.str [])
  let evaluations ← migrateEvaluations rt runId 1 items
  let approvals ← approvalsFrom rt runId (Json.lookup (str "task") document) 1 items
  let inconsistent := if outnumber items.length (getOrNull document "iteration") then
    [str "evaluations longer than iteration count"] else []
  return ([(str "evaluations", .arr evaluations), (str "approvals", .arr approvals)], inconsistent)

/-- The end of `migrate_run`: what was not mapped, what is not filled, and the report. -/
def finish (document : Fields) (migratedAt : Str) (mapped : List Str) (graded : Fields)
    (inconsistent : List Str) : Fields × MigrationReport :=
  let target := (str "schema", .str TARGET_SCHEMA) :: (str "contracts", .obj RUN_V2_CONTRACTS) ::
    carried document ++ graded ++ NOT_RECORDED_IN_V1.map (·, .null)
  let report : MigrationReport :=
    { mapped := mapped
      unmapped := document.filter fun p ↦ p.1 ∉ mapped
      missing := V1_REQUIRED.filter fun key ↦ (Json.lookup key document).isNone
      unfilled := V2_REQUIRED.filter fun key ↦ (Json.lookup key target).isNone
      notRecorded := NOT_RECORDED_IN_V1
      inconsistent := inconsistent }
  (target ++ [(str "migration", .obj (report.toDict SOURCE_SCHEMA migratedAt))], report)

/-- `migrate_run`; `migratedAt` is the clock.  The schema is the only thing that is refused on
purpose. -/
def migrateRun (migratedAt : Str) (document : Fields) : Except Exc (Fields × MigrationReport) :=
  if isText (getOrNull document "schema") SOURCE_SCHEMA = false then .error unknownSourceSchema
  else
    match Json.lookup (str "evaluations") document with
    | some (.arr items) => do
      let (graded, inconsistent) ← evaluationFields rt document items
      return finish document migratedAt (mappedKeys document true) graded inconsistent
    | _ =>
      .ok (finish document migratedAt (mappedKeys document false) [(str "approvals", .null)] [])

end

end Migrate

end AtlasCore
