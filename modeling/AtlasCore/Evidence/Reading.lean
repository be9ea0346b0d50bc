import AtlasCore.Evidence.Base
import AtlasCore.Lib.Effect
import AtlasCore.Lib.Lines

/-!
# Reading a source again

What a run reads lies outside of it: files, and whatever the readers of the host reach.  It is
part of a world of which nothing is assumed, and reading is a computation over that world.  Two
reads of one source may answer differently.

The same holds of exceptions: a read may raise anything, and which of that is caught, and where, is
decided by the `except` clauses of the source, each of which is a predicate on `Exc` here.
`Sources` holds the readers; `linesOf` and `byId` are what is done with what they return.
-/

set_option autoImplicit false

namespace AtlasCore

open Py

/-- The exceptions a run can meet, as far as its handlers tell them apart. -/
inductive Exc where
  | runCancelled
  | budgetExceeded (limit : Str)
  | unmeteredUsage
  | invalidTransition
  | pathRefused
  /-- `FileNotFoundError`, `NotADirectoryError` and `IsADirectoryError`. -/
  | notAFile
  /-- Any other `OSError`. -/
  | osError
  | observationRefused
  | resumeRefused
  | typeError
  | keyError
  | assertionError
  | appendOnlyViolation
  | valueError
  | unicodeEncodeError
  | unicodeDecodeError
  /-- `ProposalRefused`, a `ValueError`. -/
  | proposalRefused
  | overflowError
  | recursionError
  /-- `ApprovalRejected`, a `PermissionError`. -/
  | approvalRejected (reason : Str)
  /-- `ToolDenied`, a `PermissionError`. -/
  | toolDenied
  /-- `ToolSchemaError`, a `ValueError`. -/
  | toolSchemaError
  /-- `ToolTimeout`, a `TimeoutError`. -/
  | toolTimeout
  /-- `_RemoteToolError`, a `RuntimeError`. -/
  | remoteToolError (retryable : Bool)
  /-- An exception of code outside this repository. -/
  | other (name : Str)
  /-- `KeyboardInterrupt` and what else is not an `Exception`. -/
  | interrupt
  deriving DecidableEq

/-- `except Exception` catches it: everything but an interrupt of the process. -/
def Exc.isException : Exc → Bool
  | interrupt => false
  | _ => true

/-- `except (TypeError, KeyError, ValueError)` catches it, with the errors derived from these. -/
def Exc.isUnusable : Exc → Bool
  | typeError | keyError | valueError | unicodeEncodeError | unicodeDecodeError | proposalRefused
  | toolSchemaError => true
  | _ => false

/-- `except OSError` catches it, with the errors derived from it. -/
def Exc.isOSError : Exc → Bool
  | notAFile | osError | approvalRejected _ | toolDenied | toolTimeout => true
  | _ => false

/-- How sources are read: the disk, and the readers the host supplied for other source types. -/
structure Sources (W : Type) where
  /-- `read_within(root, path)`. -/
  readWithin : Str → Str → Eff Exc W Str
  /-- `reader.read(observation)` of the host's reader for its source type. -/
  reader : Observation → Eff Exc W Str

variable {W : Type}

/-- `resolve_readers(root, readers).get(observation.source_type)`: local files always have the
reader that stays inside the root. -/
def readerFor (src : Sources W) (base : EvidenceBase) (o : Observation) : Option (Eff Exc W Str) :=
  if o.sourceType = .localFile then some (src.readWithin base.snapshot.root o.path)
  else if o.sourceType.text ∈ base.readers then some (src.reader o)
  else none

/-- `try: reader.read(..) except PathRefused: .. except OSError: ..`, with what is reported in the
two cases. -/
def tryRead {β : Type} (read : Eff Exc W Str) (refused gone : β) : Eff Exc W (Except β Str) :=
  Eff.handle (do return .ok (← read)) fun
    | .pathRefused => return .error refused
    | e => if e.isOSError then return .error gone else Eff.raise e

/-- `sha256_text`, with what `encode` raises of a text that has no UTF-8. -/
def sha256OrRaise (content : Str) : Eff Exc W Str :=
  match sha256Text content with
  | some d => return d
  | none => Eff.raise .unicodeEncodeError

/-- `{o.source_id: o for o in observations}.get(source_id)`: of several observations of one source,
the last. -/
def byId (observations : List Observation) (sourceId : Str) : Option Observation :=
  (observations.filter fun o ↦ o.sourceId = sourceId).getLast?

/-- Within one base a source id finds its observation. -/
theorem byId_self (base : EvidenceBase) {o : Observation} (ho : o ∈ base.observations) :
    byId base.observations o.sourceId = some o := by
  have hall : ∀ p ∈ base.observations.filter fun p ↦ p.sourceId = o.sourceId, p = o := by
    intro p hp
    rw [List.mem_filter, decide_eq_true_eq] at hp
    exact base.eq_of_sourceId hp.1 ho hp.2
  have hmem : o ∈ base.observations.filter fun p ↦ p.sourceId = o.sourceId :=
    List.mem_filter.mpr ⟨ho, decide_eq_true rfl⟩
  obtain ⟨p, hp⟩ := Option.isSome_iff_exists.mp
    (List.getLast?_isSome.mpr (List.ne_nil_of_mem hmem))
  rw [byId, hp, hall p (List.mem_of_getLast? hp)]

/-- The lines `line_start` to `line_end`, joined, as far as the content has them. -/
def linesOf (content : Str) (lineStart lineEnd : ℤ) : Str :=
  join [lf] (slice (splitlines content) (lineStart - 1) lineEnd)

/-- A disk on which every file has the two lines `x` and `y`, and a host without readers. -/
def twoLineDisk : Sources Unit where
  readWithin := fun _ _ ↦ return str "x\ny\n"
  reader := fun _ ↦ Eff.raise .osError

end AtlasCore
