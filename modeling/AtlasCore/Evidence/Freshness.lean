import AtlasCore.Evidence.ClaimCheck
import AtlasCore.Evidence.Drift

/-!
# The three freshness checks

The drift gate, a claim check and a citation check each read a local file again and compare it with
what was observed.  The rule is written three times: the digest of the whole content, then the
lines of the excerpt.  Here the three are reduced to that rule, one equation for each.

They differ in what they do with a read that fails.  `verify_observation` catches a refused path
and a missing file, the other two catch every `OSError`.
-/

set_option autoImplicit false

namespace AtlasCore

open Py

/-- The outcomes of reading a local file again. -/
inductive Reread where
  /-- What was read: `errors="replace"` leaves nothing that has no encoding. -/
  | content (text : Str) (bytes : Bytes) (encodes : encode text = some bytes)
  /-- `PathRefused`. -/
  | refused
  /-- `FileNotFoundError`, `NotADirectoryError` or `IsADirectoryError`. -/
  | missing
  /-- Any other `OSError`. -/
  | failed

/-- An outcome as `read_within` returns or raises it. -/
def Reread.result : Reread → Except Exc Str
  | content text _ _ => .ok text
  | refused => .error .pathRefused
  | missing => .error .notAFile
  | failed => .error .osError

/-- The rule: the observed digest, and the observed lines. -/
def Reread.Holds (o : Observation) : Reread → Prop
  | content text bytes _ => sha256 bytes = o.contentSha256 ∧
      linesOf text o.lineStart o.lineEnd = o.excerpt
  | _ => False

/-- The computation returns a value with the property. -/
def Returns {W α : Type} (m : Eff Exc W α) (w : W) (P : α → Prop) : Prop :=
  ∃ a, (m w).1 = .ok a ∧ P a

/-- The computation does not raise; what it returns is left open. -/
def NoRaise {W α : Type} (m : Eff Exc W α) (w : W) : Prop := Returns m w fun _ ↦ True

variable {W : Type} (src : Sources W) (base : EvidenceBase)

/-- A reference with the digest of the observation, inside its range, that quotes the lines which
are read there. -/
structure Quotes (o : Observation) (w : W) (ref : EvidenceRef) : Prop where
  source : ref.sourceId = o.sourceId
  digest : ref.contentSha256 = o.contentSha256
  starts : o.lineStart ≤ ref.lineStart
  ends : ref.lineEnd ≤ o.lineEnd
  lines : ∀ text, (src.readWithin base.snapshot.root o.path w).1 = .ok text →
    linesOf text ref.lineStart ref.lineEnd = ref.quoted

/-- `verify_observation` reports `fresh` of the observation, in the checkout as it is now. -/
def Fresh (o : Observation) (w : W) : Prop :=
  Returns (verifyObservation src o base.snapshot.root) w fun v ↦ v.result = .fresh

/-- The three checks give one answer in `w`, and none of them raises. -/
structure FreshnessAgrees (o : Observation) (w : W) : Prop where
  verifies : NoRaise (verifyObservation src o base.snapshot.root) w
  observes : ∀ finding : Finding, o.sourceId ∈ finding.evidence.map (·.sourceId) →
    NoRaise (observedText src base finding o.sourceId) w ∧
      (Fresh src base o w ↔
        Returns (observedText src base finding o.sourceId) w fun r ↦ r = .ok (o, o.excerpt))
  cites : ∀ ref : EvidenceRef, Quotes src base o w ref →
    NoRaise (checkReference src base ref) w ∧
      (Fresh src base o w ↔ Returns (checkReference src base ref) w fun s ↦ s = .intact)

/-! ## What is read

A local file is read again through the same containment, and its digest is compared. -/

theorem readerFor_local {o : Observation} (hlocal : o.sourceType = .localFile) :
    readerFor src base o = some (src.readWithin base.snapshot.root o.path) := by
  rw [readerFor, if_pos hlocal]

/-- A digest is never the word that stands for no digest. -/
theorem sha256_ne_unknown (bytes : Bytes) : sha256 bytes ≠ UNKNOWN := by
  intro h
  have hlen := congrArg List.length h
  rw [sha256_length] at hlen
  exact absurd hlen (by decide)

theorem Reread.Holds.isVerifiable {o : Observation} {r : Reread} (h : r.Holds o) :
    o.isVerifiable = true := by
  cases r with
  | content text bytes encodes =>
    rw [ObservationFields.isVerifiable, bne_iff_ne, ← h.1]
    exact sha256_ne_unknown bytes
  | refused | missing | failed => exact h.elim

variable {src base} {o : Observation} {w : W} {r : Reread}

theorem run_eq_of_fst {α : Type} {m : Eff Exc W α} {x : Except Exc α} (h : (m w).1 = x) :
    m w = (x, (m w).2) := by rw [← h]

/-- `Returns` is a weakest precondition in which raising is never right. -/
theorem returns_iff_wp {α : Type} {m : Eff Exc W α} {P : α → Prop} :
    Returns m w P ↔ m.wp (fun a _ ↦ P a) (fun _ _ ↦ False) w := by
  rw [Returns, Eff.wp]
  rcases m w with ⟨e | a, t⟩
  · simp
  · simp

theorem wp_of_result {m : Eff Exc W Str} (hm : (m w).1 = r.result) {Q : Str → W → Prop}
    {E : Exc → W → Prop} :
    m.wp Q E w ↔ match r.result with
      | .ok text => Q text (m w).2
      | .error e => E e (m w).2 := by
  rw [Eff.wp, run_eq_of_fst hm]
  cases r.result <;> rfl

theorem wp_sha256OrRaise {text : Str} {bytes : Bytes} (h : encode text = some bytes)
    {Q : Str → W → Prop} {E : Exc → W → Prop} :
    (sha256OrRaise text).wp Q E w ↔ Q (sha256 bytes) w := by
  rw [sha256OrRaise, sha256Text, h]
  exact Iff.rfl

/-! ## The three checks are the rule

The verification, the citation and the claim each read the source again, and come to the same about
it. -/

/-- What `verify_observation` comes to, once the outcome of the read is known. -/
theorem wp_verifyObservation (hlocal : o.sourceType = .localFile)
    (hr : (src.readWithin base.snapshot.root o.path w).1 = r.result)
    {Q : Verification → Prop} {E : Exc → Prop} :
    (verifyObservation src o base.snapshot.root).wp (fun v _ ↦ Q v) (fun e _ ↦ E e) w ↔
      if o.isVerifiable then
        match r with
        | .content text bytes _ =>
          if sha256 bytes = o.contentSha256 ∧ linesOf text o.lineStart o.lineEnd = o.excerpt then
            Q ⟨.fresh, sha256 bytes⟩
          else Q ⟨.stale, sha256 bytes⟩
        | .refused => Q ⟨.refused, UNKNOWN⟩
        | .missing => Q ⟨.missing, UNKNOWN⟩
        | .failed => E .osError
      else Q ⟨.unverifiable, UNKNOWN⟩ := by
  rw [verifyObservation]
  cases hv : o.isVerifiable with
  | false => exact Iff.rfl
  | true =>
    simp only [Bool.not_true, Bool.false_eq_true, ↓reduceIte, hlocal, ne_eq, not_true_eq_false,
      rereadWithin, Eff.wp_bind, Eff.wp_handle, wp_of_result hr]
    cases r with
    | content text bytes encodes =>
      simp only [Reread.result, Eff.wp_pure, Eff.wp_bind, wp_sha256OrRaise encodes]
      by_cases hd : sha256 bytes = o.contentSha256
      · by_cases hl : linesOf text o.lineStart o.lineEnd = o.excerpt <;> simp [hd, hl]
      · simp [hd]
    | refused | missing | failed => exact Iff.rfl

/-- What `_observed_text` comes to for a source that the finding cites. -/
theorem wp_observedText (ho : o ∈ base.observations) (hlocal : o.sourceType = .localFile)
    (hr : (src.readWithin base.snapshot.root o.path w).1 = r.result) {finding : Finding}
    (hcited : o.sourceId ∈ finding.evidence.map (·.sourceId))
    {Q : Except ClaimVerdict (Observation × Str) → Prop} {E : Exc → Prop} :
    (observedText src base finding o.sourceId).wp (fun v _ ↦ Q v) (fun e _ ↦ E e) w ↔
      match r with
      | .content text bytes _ =>
        if sha256 bytes = o.contentSha256 then
          if linesOf text o.lineStart o.lineEnd = o.excerpt then Q (.ok (o, o.excerpt))
          else Q (.error ⟨.sourceUnavailable, .excerptMoved o.path, none⟩)
        else Q (.error ⟨.sourceUnavailable, .changed o.path, none⟩)
      | .refused => Q (.error ⟨.sourceUnavailable, .outsideRoot o.path, none⟩)
      | .missing | .failed => Q (.error ⟨.sourceUnavailable, .unreadable o.path, none⟩) := by
  simp only [observedText, observedTextOf, hcited, not_true_eq_false, ↓reduceIte, byId_self base ho,
    readerFor_local src base hlocal, tryRead, Eff.wp_bind, Eff.wp_handle, wp_of_result hr]
  cases r with
  | content text bytes encodes =>
    simp only [Reread.result, Eff.wp_pure, Eff.wp_bind, wp_sha256OrRaise encodes]
    by_cases hd : sha256 bytes = o.contentSha256
    · by_cases hl : linesOf text o.lineStart o.lineEnd = o.excerpt <;> simp [hd, hl]
    · simp [hd]
  | refused | missing | failed => exact Iff.rfl

/-- What `_check_reference` comes to for a reference that quotes what is read. -/
theorem wp_checkReference (ho : o ∈ base.observations) (hlocal : o.sourceType = .localFile)
    (hr : (src.readWithin base.snapshot.root o.path w).1 = r.result) {ref : EvidenceRef}
    (hq : Quotes src base o w ref) {Q : EvidenceStatus → Prop} {E : Exc → Prop} :
    (checkReference src base ref).wp (fun v _ ↦ Q v) (fun e _ ↦ E e) w ↔
      match r with
      | .content text bytes _ =>
        if sha256 bytes = o.contentSha256 then
          if linesOf text o.lineStart o.lineEnd = o.excerpt then Q .intact else Q .excerptMismatch
        else Q .staleSource
      | .refused => Q .pathRefused
      | .missing | .failed => Q .staleSource := by
  have hin : ¬ (ref.lineStart < o.lineStart ∨ ref.lineEnd > o.lineEnd) := by
    have := hq.starts
    have := hq.ends
    omega
  simp only [checkReference, hq.source, byId_self base ho, readerFor_local src base hlocal,
    hq.digest, ne_eq, not_true_eq_false, ↓reduceIte, hin, tryRead, Eff.wp_bind, Eff.wp_handle,
    wp_of_result hr]
  cases r with
  | content text bytes encodes =>
    have hlines := hq.lines text hr
    simp only [Reread.result, Eff.wp_pure, Eff.wp_bind, wp_sha256OrRaise encodes]
    by_cases hd : sha256 bytes = o.contentSha256
    · by_cases hl : linesOf text o.lineStart o.lineEnd = o.excerpt <;> simp [hd, hl, hlines]
    · simp [hd]
  | refused | missing | failed => exact Iff.rfl

/-- The drift gate reports `fresh` exactly where the rule holds. -/
theorem fresh_iff (hlocal : o.sourceType = .localFile)
    (hr : (src.readWithin base.snapshot.root o.path w).1 = r.result) :
    Fresh src base o w ↔ r.Holds o := by
  rw [Fresh, returns_iff_wp, wp_verifyObservation hlocal hr]
  cases hv : o.isVerifiable with
  | false =>
    have hfails : ¬ r.Holds o := fun h ↦ by
      rw [h.isVerifiable] at hv
      exact Bool.noConfusion hv
    simp [hfails]
  | true =>
    cases r with
    | content text bytes encodes =>
      by_cases hh : sha256 bytes = o.contentSha256 ∧
          linesOf text o.lineStart o.lineEnd = o.excerpt <;> simp [Reread.Holds, hh]
    | refused | missing | failed => simp [Reread.Holds]

theorem noRaise_verifyObservation_iff (hlocal : o.sourceType = .localFile)
    (hr : (src.readWithin base.snapshot.root o.path w).1 = r.result) :
    NoRaise (verifyObservation src o base.snapshot.root) w ↔
      ¬ (r = .failed ∧ o.isVerifiable = true) := by
  rw [NoRaise, returns_iff_wp, wp_verifyObservation hlocal hr]
  cases hv : o.isVerifiable with
  | false => simp
  | true => cases r <;> simp

/-- **The three freshness checks agree** on a local file, and none of them raises, exactly when the
read does not fail in a way `verify_observation` lets through. -/
theorem freshnessAgrees_iff (ho : o ∈ base.observations) (hlocal : o.sourceType = .localFile)
    (hr : (src.readWithin base.snapshot.root o.path w).1 = r.result) :
    FreshnessAgrees src base o w ↔ ¬ (r = .failed ∧ o.isVerifiable = true) := by
  refine ⟨fun h ↦ (noRaise_verifyObservation_iff hlocal hr).mp h.verifies, fun h ↦ ?_⟩
  have hfresh := fresh_iff hlocal hr
  refine ⟨(noRaise_verifyObservation_iff hlocal hr).mpr h, fun finding hcited ↦ ?_, fun ref hq ↦ ?_⟩
  · rw [hfresh, NoRaise, returns_iff_wp, returns_iff_wp, wp_observedText ho hlocal hr hcited,
      wp_observedText ho hlocal hr hcited]
    cases r with
    | content text bytes encodes =>
      by_cases hd : sha256 bytes = o.contentSha256
      · by_cases hl : linesOf text o.lineStart o.lineEnd = o.excerpt <;> simp [Reread.Holds, hd, hl]
      · simp [Reread.Holds, hd]
    | refused | missing | failed => simp [Reread.Holds]
  · rw [hfresh, NoRaise, returns_iff_wp, returns_iff_wp, wp_checkReference ho hlocal hr hq,
      wp_checkReference ho hlocal hr hq]
    cases r with
    | content text bytes encodes =>
      by_cases hd : sha256 bytes = o.contentSha256
      · by_cases hl : linesOf text o.lineStart o.lineEnd = o.excerpt <;> simp [Reread.Holds, hd, hl]
      · simp [Reread.Holds, hd]
    | refused | missing | failed => simp [Reread.Holds]

/-- The first line of a file whose two lines are there. -/
theorem freshnessAgrees_iff_firstLine :
    ∃ o ∈ firstLine.observations, FreshnessAgrees twoLineDisk firstLine o () ↔
      ¬ (Reread.content (str "x\ny\n") (utf8 (str "x\ny\n")) (by decide) = .failed ∧
        o.isVerifiable = true) :=
  ⟨_, List.mem_singleton_self _, freshnessAgrees_iff (List.mem_singleton_self _) rfl rfl⟩

/-- A disk that refuses every read, as for want of permission. -/
def unreadableDisk : Sources Unit where
  readWithin := fun _ _ ↦ Eff.raise .osError
  reader := fun _ ↦ Eff.raise .osError

/-- A file that cannot be opened makes the drift check raise. -/
theorem unreadable_raises :
    ¬ ∀ o ∈ firstLine.observations, FreshnessAgrees unreadableDisk firstLine o () := by
  intro h
  obtain ⟨v, hv, -⟩ := (h _ (List.mem_singleton_self _)).verifies
  have hraised : (verifyObservation unreadableDisk ⟨lineOfFile 1 (str "x"), by decide +kernel⟩
      firstLine.snapshot.root ()).1 = .error .osError := by decide +kernel
  rw [hraised] at hv
  exact absurd hv (by simp)

end AtlasCore
