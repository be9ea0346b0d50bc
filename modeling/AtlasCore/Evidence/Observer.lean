import AtlasCore.Evaluator.Evaluate

/-!
# Reading again, in the middle of a run

The request that goes to the host, and how its answer is folded into what the run already holds.
Every source keeps one observation: new bytes under a known id supersede the old ones, a new window
over the same bytes reframes them, and nothing is swapped in without being recorded as one or the
other.
-/

set_option autoImplicit false

namespace AtlasCore

open Py

/-! ## Requests

What the host is asked: paths, patterns and windows, with the reason. -/

/-- What `LineWindow.__post_init__` asks for: a path, lines within the bounds, and an anchor only at
the start of a file. -/
def WindowRequest.isLineWindow (w : WindowRequest) : Bool :=
  !isBlank w.path && 1 ≤ w.lineStart && 1 ≤ w.maxLines && w.maxLines ≤ DEFAULT_MAX_LINES &&
    match w.anchorPrefix with
    | none => true
    | some anchor =>
      w.lineStart = 1 && anchor != [] && lf ∉ anchor && cr ∉ anchor && anchor.length ≤ 128

/-- `LineWindow`: one bounded excerpt of a source whose path is known. -/
structure LineWindow extends WindowRequest where
  /-- `__post_init__` let it through. -/
  accepted : toWindowRequest.isLineWindow = true
  deriving DecidableEq

/-- `LineWindow(...)`, which raises where the request is none. -/
def WindowRequest.build (w : WindowRequest) : Except Exc LineWindow :=
  if h : w.isLineWindow = true then .ok ⟨w, h⟩ else .error .valueError

/-- `ObservationRequest`: what the run needs read again, and why. -/
structure ObservationRequest where
  snapshot : Snapshot
  sourceIds : List Str
  paths : List Str
  blockedBy : List Str
  claims : List Str
  patterns : List Str
  lineWindows : List LineWindow
  question : Str
  iteration : ℕ
  /-- At most one window per path. -/
  onePerPath : (lineWindows.map (·.path)).Nodup

/-- `request_from`: what the next round is to read, and why; two windows on one path are refused. -/
def requestFrom (snapshot : Snapshot) (observations : List Observation)
    (blockedBy claims : List Str) (iteration : ℕ) (patterns : List Str)
    (lineWindows : List LineWindow) (includeExistingPaths : Bool) (question : Str) :
    Except Exc ObservationRequest :=
  let selected := if includeExistingPaths then observations else []
  if h : (lineWindows.map (·.path)).Nodup then
    .ok
      { snapshot
        sourceIds := selected.map (·.sourceId)
        paths := selected.map (·.path)
        blockedBy, claims, patterns, lineWindows, question, iteration
        onePerPath := h }
  else .error .valueError

/-! ## Rounds

What the host's answer changed: what is new, what superseded an observation that was there, and
what frames the same bytes in another way. -/

deriving instance DecidableEq for Observation

/-- `Supersession`: one source that came back carrying different bytes. -/
structure Supersession where
  sourceId : Str
  path : Str
  previousSha256 : Str
  newSha256 : Str
  deriving DecidableEq

/-- `Reframing`: the same bytes, and another excerpt of them. -/
structure Reframing where
  sourceId : Str
  path : Str
  sha256 : Str
  previousLineStart : ℤ
  previousLineEnd : ℤ
  newLineStart : ℤ
  newLineEnd : ℤ
  deriving DecidableEq

/-- `ObservationRound`: what one round of reading produced, each source in one of four lists. -/
structure ObservationRound where
  added : List Observation := []
  superseded : List Supersession := []
  reframed : List Reframing := []
  unchanged : List Str := []
  requested : ℕ
  deriving DecidableEq

/-- `ObservationRound.has_new_material`: something was added, superseded, or seen through another
window. -/
def ObservationRound.hasNewMaterial (r : ObservationRound) : Bool :=
  !(r.added.isEmpty && r.superseded.isEmpty && r.reframed.isEmpty)

/-! ## Merging

The answer is merged item by item into what was there, and the round is what that changed. -/

/-- What `merge_observations` has at hand between two items of the answer. -/
structure Merging where
  merged : List Observation
  round : ObservationRound
  seen : List Str

/-- `merged[merged.index(previous)] = item`: the new observation takes the place of the old one. -/
def replaceFirst (merged : List Observation) (previous item : Observation) :
    Except Exc (List Observation) :=
  if previous ∈ merged then .ok (merged.set (merged.idxOf previous) item) else .error .valueError

/-- One item of the answer; `none` is something that is not an observation. -/
def Merging.step (snapshot : Snapshot) (existing : List Observation) (m : Merging) :
    Option Observation → Except Exc Merging
  | none => .error .observationRefused
  | some item =>
    if item.snapshotId ≠ snapshot.snapshotId then .error .observationRefused
    else if item.sourceId ∈ m.seen then .error .observationRefused
    else
      let seen := item.sourceId :: m.seen
      match byId existing item.sourceId with
      | none =>
        .ok
          { merged := m.merged ++ [item]
            round := { m.round with added := m.round.added ++ [item] }
            seen }
      | some previous =>
        if previous.contentSha256 = item.contentSha256 then
          if previous.lineStart = item.lineStart ∧ previous.lineEnd = item.lineEnd ∧
              previous.excerpt = item.excerpt then
            .ok
              { m with
                round := { m.round with unchanged := m.round.unchanged ++ [item.sourceId] }
                seen }
          else do
            let merged ← replaceFirst m.merged previous item
            return {
              merged
              round :=
                { m.round with
                  reframed := m.round.reframed ++
                    [{ sourceId := item.sourceId
                       path := item.path
                       sha256 := item.contentSha256
                       previousLineStart := previous.lineStart
                       previousLineEnd := previous.lineEnd
                       newLineStart := item.lineStart
                       newLineEnd := item.lineEnd }] }
              seen }
        else do
          let merged ← replaceFirst m.merged previous item
          return {
            merged
            round :=
              { m.round with
                superseded := m.round.superseded ++
                  [{ sourceId := item.sourceId
                     path := item.path
                     previousSha256 := previous.contentSha256
                     newSha256 := item.contentSha256 }] }
            seen }

/-- The loop of `merge_observations`: one item after the other, and the first that is refused ends
it. -/
def Merging.run (snapshot : Snapshot) (existing : List Observation) (m : Merging) :
    List (Option Observation) → Except Exc Merging
  | [] => .ok m
  | item :: rest => do
    let next ← m.step snapshot existing item
    next.run snapshot existing rest

/-- `merge_observations`: the observations of the base with what came in, and what became of each.
-/
def mergeObservations (snapshot : Snapshot) (existing : List Observation)
    (incoming : List (Option Observation)) :
    Except Exc (List Observation × ObservationRound) := do
  let m ← Merging.run snapshot existing ⟨existing, { requested := incoming.length }, []⟩ incoming
  return (m.merged, m.round)

end AtlasCore
