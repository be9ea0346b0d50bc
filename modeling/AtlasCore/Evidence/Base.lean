import AtlasCore.Evidence.Observation
import Mathlib.Data.List.Nodup

/-!
# The evidence base

A snapshot and the observations taken against it.  An `EvidenceBase` carries what its
`__post_init__` checks: one snapshot for all observations, and no source twice.

Both are fields of the structure, so no proof has to ask for them again, and an answer that would
break one of them is refused where the base would be built.  The ids of the sources tell the
observations apart (`eq_of_sourceId`), which is what every lookup by id rests on.
-/

set_option autoImplicit false

namespace AtlasCore

open Py

/-- The state a run read from: its id, and the root of the checkout. -/
structure Snapshot where
  snapshotId : Str
  root : Str
  deriving DecidableEq

/-- One snapshot, and the observations taken against it. -/
structure EvidenceBase where
  snapshot : Snapshot
  observations : List Observation
  /-- The source types the host gave a reader for. -/
  readers : List Str
  sameSnapshot : ∀ o ∈ observations, o.snapshotId = snapshot.snapshotId
  /-- Otherwise a citation would not say which observation it means. -/
  distinct : (observations.map (·.sourceId)).Nodup

namespace EvidenceBase

/-- `EvidenceBase(...)`, or `none` where `__post_init__` refuses: observations of another snapshot,
or two of one source. -/
def build (snapshot : Snapshot) (observations : List Observation)
    (readers : List Str) : Option EvidenceBase :=
  if h : (∀ o ∈ observations, o.snapshotId = snapshot.snapshotId) ∧
      (observations.map (·.sourceId)).Nodup then
    some ⟨snapshot, observations, readers, h.1, h.2⟩
  else none

/-- `EvidenceBase.is_empty`: nothing was observed, so nothing can be cited. -/
def isEmpty (e : EvidenceBase) : Bool := e.observations.isEmpty

/-- `EvidenceBase.source_ids`, in the order of the observations. -/
def sourceIds (e : EvidenceBase) : List Str := e.observations.map (·.sourceId)

/-- `EvidenceBase.paths`, in the order of the observations. -/
def paths (e : EvidenceBase) : List Str := e.observations.map (·.path)

/-- `EvidenceBase.with_observations`: the same snapshot and readers with other observations, under
the same rules. -/
def withObservations (e : EvidenceBase) (observations : List Observation) : Option EvidenceBase :=
  build e.snapshot observations e.readers

/-- Within one base a source id names one observation. -/
theorem eq_of_sourceId (e : EvidenceBase) {o p : Observation} (ho : o ∈ e.observations)
    (hp : p ∈ e.observations) (h : o.sourceId = p.sourceId) : o = p :=
  List.inj_on_of_nodup_map e.distinct ho hp h

end EvidenceBase

/-! ## A file of two lines

The concrete observations of this development are windows over it. -/

/-- One line of the file `a.txt` with the two lines `x` and `y`. -/
def lineOfFile (line : ℤ) (excerpt : Str) : ObservationFields where
  sourceId := ((deriveSourceId (str "s1") .localFile (str "a.txt"))).getD []
  sourceType := .localFile
  path := str "a.txt"
  collectedAt := str "2024-01-01T00:00:00+00:00"
  contentSha256 := (sha256Text (str "x\ny\n")).getD []
  excerpt := excerpt
  lineStart := line
  lineEnd := line
  snapshotId := str "s1"
  totalLines := some 2

theorem nodup_singleId (o : Observation) : ([o].map (·.sourceId)).Nodup := List.nodup_singleton _

/-- A base that holds one observation, of the snapshot that observation is bound to. -/
def oneObservation (o : Observation) : EvidenceBase where
  snapshot := ⟨o.snapshotId, str "/repo"⟩
  observations := [o]
  readers := []
  sameSnapshot := by simp
  distinct := nodup_singleId o

theorem lineOfFile_x : (lineOfFile 1 (str "x")).postInit = .ok () := by decide +kernel

/-- A base that holds the first line of a file of two. -/
def firstLine : EvidenceBase := oneObservation ⟨lineOfFile 1 (str "x"), lineOfFile_x⟩

/-- A base that holds the second line of the same file, and so the same digest. -/
def secondLine : EvidenceBase := oneObservation ⟨lineOfFile 2 (str "y"), by decide +kernel⟩

end AtlasCore
