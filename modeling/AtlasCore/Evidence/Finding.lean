import AtlasCore.Evidence.Reading

/-!
# `Finding.v1`

A claim, what it points at, and how far that has been checked.  `checkFinding` decides whether the
citations of a finding are sound: the source was read in this run, the digest is the observed one,
and the quote sits at its lines inside the observed excerpt.  It never decides the claim.
-/

set_option autoImplicit false

namespace AtlasCore

open Py

/-- `Verdict`: what is decided about a finding. -/
inductive Verdict where
  | verified | contradicted | insufficientEvidence
  deriving DecidableEq

/-- `Severity`, which a finding that is not verified does not have. -/
inductive Severity where
  | p0 | p1 | p2 | unknown
  deriving DecidableEq

/-- The severity a text names, if it is in `SEVERITIES`. -/
def Severity.ofStr (s : Str) : Option Severity :=
  if s = str "P0" then some p0
  else if s = str "P1" then some p1
  else if s = str "P2" then some p2
  else if s = UNKNOWN then some unknown
  else none

/-- `VerificationMethod`, as far as a checker assigns it. -/
inductive VerificationMethod where
  | none | deterministicEvidenceCheck | semantic
  deriving DecidableEq

/-- What a deterministic check could establish about one citation. -/
inductive EvidenceStatus where
  | unknownSource
  | digestMismatch
  | quoteMismatch
  | staleSource
  | unsupportedSourceType
  | pathRefused
  | excerptMismatch
  | quoteOutsideExcerpt
  | intact
  deriving DecidableEq

/-- What a finding claims about the source it cites. -/
structure EvidenceRef where
  sourceId : Str
  contentSha256 : Str
  lineStart : ℤ
  lineEnd : ℤ
  quoted : Str
  digestOk : matchesSha256 contentSha256 = true
  oneBased : 1 ≤ lineStart
  forwards : lineStart ≤ lineEnd
  quotes : quoted ≠ []
  deriving DecidableEq

/-- `EvidenceRef(...)`: a digest that is one, a range of lines, and a quotation that is not empty.
-/
def EvidenceRef.build (sourceId contentSha256 : Str) (lineStart lineEnd : ℤ) (quoted : Str) :
    Except Exc EvidenceRef :=
  if h : matchesSha256 contentSha256 = true ∧ 1 ≤ lineStart ∧ lineStart ≤ lineEnd ∧ quoted ≠ [] then
    .ok ⟨sourceId, contentSha256, lineStart, lineEnd, quoted, h.1, h.2.1, h.2.2.1, h.2.2.2⟩
  else .error .valueError

/-- One claim, its citations, and how far it has been checked. -/
structure Finding where
  findingId : Str
  claim : Str
  scope : Str
  severity : Severity
  severityRationale : Str
  evidence : List EvidenceRef
  verificationMethod : VerificationMethod := .none
  verdict : Verdict := .insufficientEvidence
  declaredSeverity : Severity := .unknown
  reproducibleCommand : Str := UNKNOWN
  hasClaim : isBlank claim = false
  hasScope : isBlank scope = false
  hasRationale : isBlank severityRationale = false
  hasCommand : isBlank reproducibleCommand = false
  deriving DecidableEq

/-- `_derive_finding_id`: the digest of claim and scope, cut to 16 digits; the citations are not
part of it. -/
def deriveFindingId (claim scope : Str) : Option Str :=
  (sha256Text (join [0] [claim, scope])).map (List.take 16)

/-- `Finding.create`: the id is derived, and the finding begins without a verdict. -/
def Finding.create (claim scope severity severityRationale : Str) (evidence : List EvidenceRef)
    (reproducibleCommand : Str) : Except Exc Finding :=
  match deriveFindingId claim scope, Severity.ofStr severity with
  | none, _ => .error .unicodeEncodeError
  | some _, none => .error .valueError
  | some findingId, some s =>
    if h : isBlank claim = false ∧ isBlank scope = false ∧ isBlank severityRationale = false ∧
        isBlank reproducibleCommand = false then
      .ok
        { findingId, claim, scope, severityRationale, evidence, reproducibleCommand
          severity := s
          declaredSeverity := s
          hasClaim := h.1
          hasScope := h.2.1
          hasRationale := h.2.2.1
          hasCommand := h.2.2.2 }
    else .error .valueError

/-- The id of a created finding is the one its claim and scope derive. -/
theorem Finding.create_findingId {claim scope severity rationale command : Str}
    {evidence : List EvidenceRef} {f : Finding}
    (h : create claim scope severity rationale evidence command = .ok f) :
    f.claim = claim ∧ f.scope = scope ∧ f.evidence = evidence ∧
      deriveFindingId claim scope = some f.findingId := by
  rw [create] at h
  split at h
  · exact absurd h (by simp)
  · exact absurd h (by simp)
  · rename_i id s hid hs
    split at h
    · obtain rfl := Except.ok.inj h
      exact ⟨rfl, rfl, rfl, hid⟩
    · exact absurd h (by simp)

/-! ## Checking the citations

A citation is checked against the observation it names, and a finding by all its citations. -/

/-- The outcome of checking a finding's citations.  Its `verdict` is always
`insufficient_evidence`, and its `reason` is a rendering of the statuses. -/
structure EvidenceCheck where
  statuses : List (Str × EvidenceStatus)
  deriving DecidableEq

/-- `EvidenceCheck.citations_are_sound`: there are citations, and each is intact. -/
def EvidenceCheck.citationsAreSound (c : EvidenceCheck) : Bool :=
  !c.statuses.isEmpty && c.statuses.all fun p ↦ p.2 = .intact

variable {W : Type} (src : Sources W) (base : EvidenceBase)

/-- `_check_reference`: the source is found in the base, read again, and compared with what is
cited, one thing after another. -/
def checkReference (ref : EvidenceRef) : Eff Exc W EvidenceStatus :=
  match byId base.observations ref.sourceId with
  | none => return .unknownSource
  | some o =>
    match readerFor src base o with
    | none => return .unsupportedSourceType
    | some read =>
      if ref.contentSha256 ≠ o.contentSha256 then return .digestMismatch
      else if ref.lineStart < o.lineStart ∨ ref.lineEnd > o.lineEnd then
        return .quoteOutsideExcerpt
      else do
        -- one read feeds every check below
        match ← tryRead read EvidenceStatus.pathRefused .staleSource with
        | .error status => return status
        | .ok content =>
          let observed ← sha256OrRaise content
          if observed ≠ o.contentSha256 then return .staleSource
          else if linesOf content o.lineStart o.lineEnd ≠ o.excerpt then return .excerptMismatch
          else if linesOf content ref.lineStart ref.lineEnd ≠ ref.quoted then return .quoteMismatch
          else return .intact

/-- `check_finding`: every citation is checked, also after one has failed. -/
def checkFinding (finding : Finding) : Eff Exc W EvidenceCheck := do
  let statuses ← finding.evidence.mapM fun ref ↦ do
    return (ref.sourceId, ← checkReference src base ref)
  return ⟨statuses⟩

/-- `severity_after`: what is not verified is of unknown severity, whatever was declared. -/
def severityAfter (verdict : Verdict) (finding : Finding) : Severity :=
  if verdict = .verified then finding.declaredSeverity else .unknown

end AtlasCore
