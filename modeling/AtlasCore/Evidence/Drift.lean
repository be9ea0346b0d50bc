import AtlasCore.Evidence.Reading

/-!
# Whether the state a run read has moved

HEAD and the cleanliness of the worktree on one side, every single source on the other: neither
sees what the other sees, so the report holds both.

A snapshot is identified by a digest of the root, the commit and whether the worktree was clean, and
it has moved when taking it again gives another.  A source is verified by reading it through the
same containment as before and comparing digests; what cannot be read again is no evidence, whatever
the reason.
-/

set_option autoImplicit false

namespace AtlasCore

open Py

/-- `VerificationResult`: what reading a source again can show. -/
inductive VerificationResult where
  | fresh | stale | missing | refused | unverifiable
  deriving DecidableEq

/-- `Verification`, without its sentence for a reader: the result, and the digest that was found. -/
structure Verification where
  result : VerificationResult
  observedSha256 : Str
  deriving DecidableEq

/-- `Verification.is_evidence`: only a source that reads as it did is evidence. -/
def Verification.isEvidence (v : Verification) : Bool := v.result = .fresh

/-- `DriftReport`: whether the checkout has moved, and what in it is no longer fresh. -/
structure DriftReport where
  headMoved : Bool
  /-- Everything that is no longer fresh, by source id. -/
  notEvidence : List (Str × Verification)
  deriving DecidableEq

/-- `DriftReport.is_consistent`: the checkout stands where it stood, and everything that was read is
fresh. -/
def DriftReport.isConsistent (r : DriftReport) : Bool := !r.headMoved && r.notEvidence.isEmpty

/-- How a checkout is asked about its state. -/
structure Checkout (W : Type) where
  /-- `Path(root).expanduser().resolve()`. -/
  resolve : Str → Eff Exc W Str
  /-- `_git`: what git answers, or `unknown` where it cannot say. -/
  git : Str → List Str → Eff Exc W Str

variable {W : Type} (src : Sources W) (checkout : Checkout W)

/-- The text of a `worktree_state`, which is part of the id of a snapshot. -/
def WorktreeState.text : WorktreeState → Str
  | clean => str "clean"
  | dirty => str "dirty"
  | unknown => UNKNOWN

/-- `_worktree_state`: clean where git has nothing to report, and unknown where it cannot be asked.
-/
def worktreeState (root commit : Str) : Eff Exc W WorktreeState := do
  if commit = UNKNOWN then return .unknown
  else
    let status ← checkout.git root [str "status", str "--porcelain"]
    return if status = UNKNOWN then .unknown else if status ≠ [] then .dirty else .clean

/-- `_derive_snapshot_id`: the digest of the root, the commit and the state, cut to 16 digits. -/
def deriveSnapshotId (root commit : Str) (state : WorktreeState) : Option Str :=
  (sha256Text (join [0] [root, commit, state.text])).map (List.take 16)

/-- The state of a checkout as `take_snapshot` records it. -/
structure TakenSnapshot extends Snapshot where
  commit : Str
  ref : Str
  worktreeState : WorktreeState

/-- `take_snapshot`: git is asked for the commit, the ref and the state of the worktree, in this
order. -/
def takeSnapshot (root : Str) : Eff Exc W TakenSnapshot := do
  let resolved ← checkout.resolve root
  let commit ← checkout.git resolved [str "rev-parse", str "HEAD"]
  let ref ← checkout.git resolved [str "rev-parse", str "--abbrev-ref", str "HEAD"]
  let state ← worktreeState checkout resolved commit
  match deriveSnapshotId resolved commit state with
  | none => Eff.raise .unicodeEncodeError
  | some snapshotId => return ⟨⟨snapshotId, resolved⟩, commit, ref, state⟩

/-- `Snapshot.has_moved`: a snapshot that is taken now has another id. -/
def Snapshot.hasMoved (snapshot : Snapshot) : Eff Exc W Bool := do
  let current ← takeSnapshot checkout snapshot.root
  return current.snapshotId ≠ snapshot.snapshotId

/-- `try: content = read_within(..)` of `verify_observation`: a path that leads outside, or to no
file, is a result; anything else is raised. -/
def rereadWithin (root path : Str) : Eff Exc W (Except VerificationResult Str) :=
  Eff.handle (do return .ok (← src.readWithin root path)) fun
    | .pathRefused => return .error .refused
    | .notAFile => return .error .missing
    | e => Eff.raise e

/-- `verify_observation`: the file is read again, and its digest is compared with the one that was
recorded. -/
def verifyObservation (o : Observation) (root : Str) : Eff Exc W Verification := do
  if !o.isVerifiable then return ⟨.unverifiable, UNKNOWN⟩
  else if o.sourceType ≠ .localFile then return ⟨.unverifiable, UNKNOWN⟩
  else
    match ← rereadWithin src root o.path with
    | .error result => return ⟨result, UNKNOWN⟩
    | .ok content =>
      let observed ← sha256OrRaise content
      if observed ≠ o.contentSha256 then return ⟨.stale, observed⟩
      else if linesOf content o.lineStart o.lineEnd ≠ o.excerpt then return ⟨.stale, observed⟩
      else return ⟨.fresh, observed⟩

/-- `verify_all`: every observation is verified, in its turn, each with its id. -/
def verifyAll (observations : List Observation) (root : Str) :
    Eff Exc W (List (Str × Verification)) :=
  observations.mapM fun o ↦ do return (o.sourceId, ← verifyObservation src o root)

/-- `detect_drift`: the sources are verified first, and then the checkout is asked whether it has
moved. -/
def detectDrift (snapshot : Snapshot) (observations : List Observation) :
    Eff Exc W DriftReport := do
  let verifications ← verifyAll src observations snapshot.root
  let headMoved ← snapshot.hasMoved checkout
  return ⟨headMoved, verifications.filter fun p ↦ !p.2.isEvidence⟩

end AtlasCore
