import AtlasCore.Lib.Sha256

/-!
# `Observation.v1`

One thing that was read, with its provenance.  The constructor refuses what a guess tends to look
like, so an `Observation` here is its fields together with the proof that `__post_init__` let them
through, and everything the checks establish can be read off the value.

A `source_type`, a `worktree_state` and a `confidentiality` are types of their own: what
`_check_enum` refuses cannot be written down.
-/

set_option autoImplicit false

namespace AtlasCore

open Py

/-- The only permitted stand-in for a field that could not be verified. -/
def UNKNOWN : Str := str "unknown"

/-- `source_type`: where a source was read, which decides who can read it again. -/
inductive SourceType where
  | localFile | githubFile | ci | memory
  deriving DecidableEq

/-- The text of a `source_type`, which is part of the id of a source. -/
def SourceType.text : SourceType → Str
  | localFile => str "local_file"
  | githubFile => str "github_file"
  | ci => str "ci"
  | memory => str "memory"

/-- `worktree_state`: whether the checkout held anything that was not committed. -/
inductive WorktreeState where
  | clean | dirty | unknown
  deriving DecidableEq

/-- `confidentiality`: how sensitive the content of a source is. -/
inductive Confidentiality where
  | pub | internal | secret | unknown
  deriving DecidableEq

/-- Text as UTF-8, hashed; `none` where `encode` raises. -/
def sha256Text (content : Str) : Option Str := (encode content).map sha256

/-- A digest is 64 hexadecimal digits. -/
theorem sha256Text_spec {s d : Str} (h : sha256Text s = some d) :
    d.length = 64 ∧ d.all isHex = true := by
  rw [sha256Text, Option.map_eq_some_iff] at h
  obtain ⟨bytes, -, rfl⟩ := h
  exact ⟨sha256_length bytes, sha256_isHex bytes⟩

/-- `derive_source_id`: the digest of the snapshot, the type and the path, cut to 16 digits; the
content is not part of it. -/
def deriveSourceId (snapshotId : Str) (sourceType : SourceType) (path : Str) : Option Str :=
  (sha256Text (join [0] [snapshotId, sourceType.text, path])).map (List.take 16)

/-! ## Paths

Both spellings of a path are checked, so the refusal does not depend on the host. -/

/-- A spelling of paths: what separates components, and whether a drive can be named. -/
structure Flavour where
  isSep : CodePoint → Bool
  hasDrive : Bool

/-- `PurePosixPath`: one separator, and no drives. -/
def posix : Flavour := ⟨(· == ch '/'), false⟩

/-- `PureWindowsPath`: two separators, and a drive in front. -/
def windows : Flavour := ⟨fun c ↦ c == ch '/' || c == ch '\\', true⟩

/-- Whether `anchor` is not empty: a leading separator, or a drive. -/
def Flavour.anchored (f : Flavour) : Str → Bool
  | [] => false
  | [c] => f.isSep c
  | c :: d :: _ => f.isSep c || (f.hasDrive && d == ch ':')

/-- `parts` of a path without an anchor: neither empty components nor `.`. -/
def Flavour.parts (f : Flavour) (path : Str) : List Str :=
  (path.splitOnP f.isSep).filter fun p ↦ p != [] && p != str "."

/-! ## The checks

What `Observation` checks when it is made, in the order of the source, with the field that each of
its errors names. -/

/-- The provenance fields that hold a value or say `unknown`. -/
inductive ProvenanceField where
  | repo | ref | commit | snapshotId
  deriving DecidableEq

/-- What `__post_init__` refuses an observation for, one case for each check. -/
inductive ObservationError where
  | pathBlank
  | pathAbsolute
  | pathOutside
  | collectedAtBlank
  | provenanceBlank (field : ProvenanceField)
  | provenancePadded (field : ProvenanceField)
  | digestMalformed
  | lineNegative
  | excerptUndeclared
  | rangeBackwards
  | emptyExcerptCovers
  | totalNegative
  | totalExceeded
  | notEncodable
  | sourceIdMismatch
  deriving DecidableEq

/-- `raise error` where the condition holds; the checks follow one another, so the first that fails
is the one that is named. -/
def refuseIf (condition : Bool) (error : ObservationError) : Except ObservationError Unit :=
  if condition then .error error else .ok ()

/-- One spelling in `_check_contained_path`: the path is relative and does not climb. -/
def Flavour.check (f : Flavour) (path : Str) : Except ObservationError Unit := do
  refuseIf (f.anchored path) .pathAbsolute
  refuseIf ((f.parts path).contains (str "..")) .pathOutside

/-- `_check_contained_path`: the path stays below the root in both spellings, whatever system the
run is on. -/
def checkContainedPath (path : Str) : Except ObservationError Unit := do
  posix.check path
  windows.check path

/-- `_check_known_or_unknown`: a value that is known is neither blank nor padded. -/
def checkKnownOrUnknown (field : ProvenanceField) (value : Str) : Except ObservationError Unit :=
  if value = UNKNOWN then .ok ()
  else do
    refuseIf (isBlank value) (.provenanceBlank field)
    refuseIf (value != strip value) (.provenancePadded field)

/-- `^[0-9a-f]{64}$` as `re.match` reads it: the `$` also stands before a final line feed. -/
def matchesSha256 (s : Str) : Bool :=
  let digits := if s.getLast? = some lf then s.dropLast else s
  digits.length == 64 && digits.all isHex

/-- `_check_digest`: 64 hexadecimal digits, or the word for not knowing. -/
def checkDigest (contentSha256 : Str) : Except ObservationError Unit :=
  refuseIf (contentSha256 != UNKNOWN && !matchesSha256 contentSha256) .digestMalformed

/-- `_check_line_range`: an excerpt says which lines it is, and an empty one covers none. -/
def checkLineRange (excerpt : Str) (lineStart lineEnd : ℤ) : Except ObservationError Unit := do
  refuseIf (lineStart < 0 || lineEnd < 0) .lineNegative
  if excerpt ≠ [] then
    refuseIf (lineStart < 1) .excerptUndeclared
    refuseIf (lineEnd < lineStart) .rangeBackwards
  else
    refuseIf (lineStart != 0 || lineEnd != 0) .emptyExcerptCovers

/-- The check of `total_lines`, where somebody counted: the excerpt does not reach beyond the last
line. -/
def checkTotalLines (lineEnd : ℤ) : Option ℤ → Except ObservationError Unit
  | none => .ok ()
  | some total => do
    refuseIf (total < 0) .totalNegative
    refuseIf (lineEnd > total) .totalExceeded

/-- The fields of an observation, before anything is checked. -/
structure ObservationFields where
  sourceId : Str
  sourceType : SourceType
  path : Str
  collectedAt : Str
  contentSha256 : Str
  excerpt : Str
  lineStart : ℤ
  lineEnd : ℤ
  snapshotId : Str := UNKNOWN
  repo : Str := UNKNOWN
  ref : Str := UNKNOWN
  commit : Str := UNKNOWN
  worktreeState : WorktreeState := .unknown
  confidentiality : Confidentiality := .unknown
  totalLines : Option ℤ := none
  deriving DecidableEq

/-- The source id must be the one its snapshot, type and path derive. -/
def ObservationFields.checkSourceId (o : ObservationFields) : Except ObservationError Unit :=
  match deriveSourceId o.snapshotId o.sourceType o.path with
  | none => .error .notEncodable
  | some expected => refuseIf (o.sourceId != expected) .sourceIdMismatch

/-- `Observation.__post_init__`, with its checks in the order of the source. -/
def ObservationFields.postInit (o : ObservationFields) : Except ObservationError Unit := do
  refuseIf (isBlank o.path) .pathBlank
  checkContainedPath o.path
  refuseIf (isBlank o.collectedAt) .collectedAtBlank
  checkKnownOrUnknown .repo o.repo
  checkKnownOrUnknown .ref o.ref
  checkKnownOrUnknown .commit o.commit
  checkKnownOrUnknown .snapshotId o.snapshotId
  checkDigest o.contentSha256
  checkLineRange o.excerpt o.lineStart o.lineEnd
  checkTotalLines o.lineEnd o.totalLines
  o.checkSourceId

/-- One thing that was read: fields that `__post_init__` accepts. -/
structure Observation extends ObservationFields where
  /-- Every construction path is checked, `dataclasses.replace` included. -/
  accepted : toObservationFields.postInit = .ok ()

/-- `Observation(...)`: the fields, with the proof that nothing was refused. -/
def ObservationFields.build (o : ObservationFields) : Except ObservationError Observation :=
  match h : o.postInit with
  | .ok () => .ok ⟨o, h⟩
  | .error e => .error e

/-- `Observation.create`: the source id is derived, whatever the fields have in its place. -/
def Observation.create (o : ObservationFields) : Except ObservationError Observation :=
  match deriveSourceId o.snapshotId o.sourceType o.path with
  | none => .error .notEncodable
  | some sourceId => ObservationFields.build { o with sourceId := sourceId }

/-- `Observation.is_verifiable`: there is a digest to compare with. -/
def ObservationFields.isVerifiable (o : ObservationFields) : Bool := o.contentSha256 != UNKNOWN

/-! ## What an accepted observation satisfies

Each check of the constructor, as a fact about an observation that was not refused. -/

@[simp] theorem refuseIf_eq_ok {c : Bool} {e : ObservationError} :
    refuseIf c e = .ok () ↔ c = false := by
  cases c <;> simp [refuseIf]

/-- A sequence of checks passes when each of them does. -/
@[simp] theorem andThen_eq_ok {x y : Except ObservationError Unit} :
    (do x; y) = .ok () ↔ x = .ok () ∧ y = .ok () := by
  cases x with
  | error e => simp [bind, Except.bind]
  | ok u => cases u; simp [bind, Except.bind]

theorem Flavour.check_eq_ok {f : Flavour} {path : Str} :
    f.check path = .ok () ↔ f.anchored path = false ∧ str ".." ∉ f.parts path := by
  rw [Flavour.check, andThen_eq_ok, refuseIf_eq_ok, refuseIf_eq_ok]
  simp

theorem checkDigest_eq_ok {d : Str} :
    checkDigest d = .ok () ↔ d = UNKNOWN ∨ matchesSha256 d = true := by
  rw [checkDigest, refuseIf_eq_ok]
  by_cases h : d = UNKNOWN <;> simp [h]

/-- An excerpt covers a forward range of lines, no excerpt covers none. -/
theorem checkLineRange_eq_ok {excerpt : Str} {a b : ℤ} :
    checkLineRange excerpt a b = .ok () ↔
      (excerpt ≠ [] ∧ 1 ≤ a ∧ a ≤ b) ∨ (excerpt = [] ∧ a = 0 ∧ b = 0) := by
  rw [checkLineRange, andThen_eq_ok, refuseIf_eq_ok]
  by_cases h : excerpt = []
  · simp only [h, ne_eq, not_true_eq_false, ↓reduceIte, refuseIf_eq_ok, Bool.or_eq_false_iff,
      decide_eq_false_iff_not, bne_eq_false_iff_eq, false_and, true_and, false_or]
    omega
  · simp only [h, ne_eq, not_false_eq_true, ↓reduceIte, andThen_eq_ok, refuseIf_eq_ok,
      Bool.or_eq_false_iff, decide_eq_false_iff_not, true_and, false_and, or_false]
    omega

theorem ObservationFields.checkSourceId_eq_ok {o : ObservationFields} :
    o.checkSourceId = .ok () ↔ deriveSourceId o.snapshotId o.sourceType o.path =
      some o.sourceId := by
  rw [checkSourceId]
  cases deriveSourceId o.snapshotId o.sourceType o.path with
  | none => simp
  | some expected =>
    show refuseIf (o.sourceId != expected) .sourceIdMismatch = .ok () ↔ _
    rw [refuseIf_eq_ok, bne_eq_false_iff_eq, Option.some.injEq, eq_comm]

namespace Observation

variable (o : Observation)

/-- The source id names the snapshot, the type and the path it was derived from. -/
theorem deriveSourceId_eq : deriveSourceId o.snapshotId o.sourceType o.path = some o.sourceId := by
  have h := o.accepted
  simp only [ObservationFields.postInit, andThen_eq_ok] at h
  exact ObservationFields.checkSourceId_eq_ok.mp h.2.2.2.2.2.2.2.2.2.2

theorem isBlank_path : isBlank o.path = false := by
  have h := o.accepted
  simp only [ObservationFields.postInit, andThen_eq_ok] at h
  exact refuseIf_eq_ok.mp h.1

theorem digest_ok : o.contentSha256 = UNKNOWN ∨ matchesSha256 o.contentSha256 = true := by
  have h := o.accepted
  simp only [ObservationFields.postInit, andThen_eq_ok] at h
  exact checkDigest_eq_ok.mp h.2.2.2.2.2.2.2.1

theorem lineRange_ok : (o.excerpt ≠ [] ∧ 1 ≤ o.lineStart ∧ o.lineStart ≤ o.lineEnd) ∨
    (o.excerpt = [] ∧ o.lineStart = 0 ∧ o.lineEnd = 0) := by
  have h := o.accepted
  simp only [ObservationFields.postInit, andThen_eq_ok] at h
  exact checkLineRange_eq_ok.mp h.2.2.2.2.2.2.2.2.1

/-- The path stays inside the snapshot in both spellings. -/
theorem path_contained :
    (posix.anchored o.path = false ∧ str ".." ∉ posix.parts o.path) ∧
      windows.anchored o.path = false ∧ str ".." ∉ windows.parts o.path := by
  have h := o.accepted
  simp only [ObservationFields.postInit, andThen_eq_ok, checkContainedPath,
    Flavour.check_eq_ok] at h
  exact h.2.1

end Observation

end AtlasCore
