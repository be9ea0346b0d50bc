import AtlasCore.Evaluator.Gate
import Mathlib.Algebra.BigOperators.Group.Finset.Basic
import Mathlib.Data.Fintype.Basic

/-!
# What the coverage counts

Every finding that is considered is to fall in one class, and the coverage is the share of those
that are supported.  The classes are filters on the verdict that is recorded for a finding, and the
supported ones are what a subtraction leaves, so two findings that share an id can be counted for
each other.
-/

set_option autoImplicit false

namespace AtlasCore

open Py

/-! ## Lists in classes

A list that is divided into classes has as many items as its classes together. -/

/-- Where everything in a list falls in one class, the sizes of the classes add up. -/
theorem length_eq_sum_countP {α κ : Type*} [Fintype κ] [DecidableEq κ] (falls : α → κ → Bool) :
    ∀ {l : List α}, (∀ x ∈ l, ∃! k, falls x k = true) → l.length = ∑ k, l.countP (falls · k)
  | [], _ => by simp
  | x :: l, h => by
    have htail := length_eq_sum_countP falls fun y hy ↦ h y (List.mem_cons_of_mem _ hy)
    obtain ⟨k, hk, honly⟩ := h x List.mem_cons_self
    have hone : ∑ j, (if falls x j = true then 1 else 0) = 1 := by
      rw [Finset.sum_eq_single k]
      · rw [if_pos hk]
      · exact fun j _ hj ↦ if_neg fun h ↦ hj (honly j h)
      · exact fun h ↦ absurd (Finset.mem_univ k) h
    simp only [List.countP_cons, Finset.sum_add_distrib, List.length_cons, hone, ← htail]

/-! ## The classes

What the coverage of a grade claims to be, said of the findings themselves: which of them were
considered, and in which class each of them falls. -/

/-- What a finding that is considered can be. -/
inductive FindingClass where
  | supported | unsound | uncheckable | refuted | mismatched | unchecked
  deriving DecidableEq

instance : Fintype FindingClass where
  elems := {.supported, .unsound, .uncheckable, .refuted, .mismatched, .unchecked}
  complete := by
    intro k
    cases k <;> decide

/-- The filters that select a checked finding into a class; a verdict is looked up by id, so
findings with one id share it. -/
def CheckedFinding.selected (checks : List CheckedFinding) (f : CheckedFinding) :
    FindingClass → Bool
  | .supported | .uncheckable => false
  | .unsound => !f.isSound
  | .refuted => (recordedVerdict checks f).any (·.result = .contradicted)
  | .mismatched => (recordedVerdict checks f).any (·.result = .claimTextMismatch)
  | .unchecked => f.isSound &&
      (recordedVerdict checks f).any fun v ↦ !v.isDecisive && v.result ≠ .claimTextMismatch

/-- The classes of a checked finding: it is supported where no filter selects it. -/
def CheckedFinding.falls (checks : List CheckedFinding) (f : CheckedFinding) : FindingClass → Bool
  | .supported => ! [.unsound, .refuted, .mismatched, .unchecked].any (f.selected checks)
  | k => f.selected checks k

/-- The class of a finding whose citations hold, by the result that is recorded for it. -/
def ClaimResult.findingClass : ClaimResult → FindingClass
  | verified => .supported
  | contradicted => .refuted
  | claimTextMismatch => .mismatched
  | _ => .unchecked

/-- A finding that is considered: an entry of the block, or a bullet that no claim equals. -/
abbrev Considered := CheckedFinding ⊕ Str

/-- The findings that are considered: those that were checked, and those that cannot be. -/
def considered (uncheckable : List Str) (checks : List CheckedFinding) : List Considered :=
  checks.map .inl ++ uncheckable.map .inr

/-- Whether a considered finding falls in a class. -/
def falls (checks : List CheckedFinding) (x : Considered) (k : FindingClass) : Bool :=
  match x with
  | .inl f => f.falls checks k
  | .inr _ => k = .uncheckable

/-- What the coverage is to be: every finding is in one class, the supported ones are verified on
their own, and the number is their share. -/
structure TrueCoverage (rt : Runtime) (uncheckable : List Str) (checks : List CheckedFinding)
    (evidence : Evidence) : Prop where
  /-- Every considered finding falls in one class. -/
  one : ∀ x ∈ considered uncheckable checks, ∃! k, falls checks x k = true
  /-- The supported ones are those that were verified on their own. -/
  own : ∀ f ∈ checks, f.falls checks .supported = f.isVerified
  /-- The coverage is their share. -/
  share : considered uncheckable checks ≠ [] → evidence.coverage = some (rt.hundredths
    ((considered uncheckable checks).countP (falls checks · .supported))
    (considered uncheckable checks).length)
  bounded : ∀ share, evidence.coverage = some share → 0 ≤ share ∧ share ≤ 100

/-- The verdict that is recorded for a finding fits it: where its citations hold, it is verified if
the finding was; where they do not, it neither refutes it nor finds it misstated. -/
def Fits (f g : CheckedFinding) : Prop :=
  if f.isSound then g.isVerified = f.isVerified
  else g.own.any (fun v ↦ v.result = .contradicted || v.result = .claimTextMismatch) = false

/-- The verdict that decides for the id of a finding fits the finding. -/
def VerdictsFit (checks : List CheckedFinding) : Prop :=
  ∀ f ∈ checks, ∀ g, IsLast checks g → g.id = f.id → Fits f g

/-! ## When a finding falls in one class

The filters exclude one another except where findings share an id; which is when one falls in two
classes or in none. -/

section
variable {checks : List CheckedFinding} {f : CheckedFinding}

/-- Without sound citations, a finding is unsound, and it may be selected again. -/
theorem falls_of_unsound (hf : f.isSound = false) :
    (∃! k, f.falls checks k = true) ↔ (recordedVerdict checks f).any
      (fun v ↦ v.result = .contradicted || v.result = .claimTextMismatch) = false := by
  have hunsound : f.falls checks .unsound = true := by
    simp only [CheckedFinding.falls, CheckedFinding.selected, hf, Bool.not_false]
  constructor
  · rintro ⟨k, -, honly⟩
    cases hv : recordedVerdict checks f with
    | none => rfl
    | some v =>
      have hrefuted : v.result ≠ .contradicted := fun h ↦ by
        have hk := (honly .refuted (by
          simp [CheckedFinding.falls, CheckedFinding.selected, hv,
            h])).trans (honly _ hunsound).symm
        cases hk
      have hmismatched : v.result ≠ .claimTextMismatch := fun h ↦ by
        have hk := (honly .mismatched (by
          simp [CheckedFinding.falls, CheckedFinding.selected, hv,
            h])).trans (honly _ hunsound).symm
        cases hk
      simp [hrefuted, hmismatched]
  · intro hv
    refine ⟨.unsound, hunsound, fun k hk ↦ ?_⟩
    cases hr : recordedVerdict checks f with
    | none => cases k <;> simp_all [CheckedFinding.falls, CheckedFinding.selected]
    | some v => cases k <;> simp_all [CheckedFinding.falls, CheckedFinding.selected]

/-- With sound citations, the recorded verdict decides. -/
theorem falls_of_sound (hf : f.isSound = true) {v : ClaimVerdict}
    (hv : recordedVerdict checks f = some v) (k : FindingClass) :
    f.falls checks k = decide (k = v.result.findingClass) := by
  cases hresult : v.result <;> cases k <;>
    simp [CheckedFinding.falls, CheckedFinding.selected, hf, hv, hresult, ClaimVerdict.isDecisive,
      ClaimResult.isDecisive, ClaimResult.findingClass]

/-- What decides for the id of a finding is what is recorded for it. -/
theorem own_eq_recordedVerdict {g : CheckedFinding} (hg : IsLast checks g) (hid : g.id = f.id) :
    g.own = recordedVerdict checks f := by
  rw [← hg.recordedVerdict, recordedVerdict, recordedVerdict]
  exact congrArg (claimVerdicts checks) hid

/-- A finding falls in one class, and is supported where it was verified, exactly when what decides
for its id fits it. -/
theorem fits_iff (hs : OwnWhereSound checks) (hf : f ∈ checks) :
    ((∃! k, f.falls checks k = true) ∧ f.falls checks .supported = f.isVerified) ↔
      ∀ g, IsLast checks g → g.id = f.id → Fits f g := by
  cases hsound : f.isSound with
  | false =>
    have hsupported : f.falls checks .supported = f.isVerified := by
      simp [CheckedFinding.falls, CheckedFinding.selected, CheckedFinding.isVerified, hsound]
    rw [falls_of_unsound hsound]
    constructor
    · rintro ⟨hrecorded, -⟩ g hg hid
      rw [Fits, hsound, if_neg Bool.false_ne_true, own_eq_recordedVerdict hg hid]
      exact hrecorded
    · intro hfits
      refine ⟨?_, hsupported⟩
      cases hv : recordedVerdict checks f with
      | none => rfl
      | some v =>
        obtain ⟨g, hg, hid, hown⟩ := (claimVerdicts_eq_some checks).mp hv
        have hfit := hfits g hg hid
        rwa [Fits, hsound, if_neg Bool.false_ne_true, hown] at hfit
  | true =>
    have hown : f.own ≠ none := by
      intro h
      have := hs f hf
      rw [h, hsound] at this
      cases this
    obtain ⟨g, hg, hid⟩ := exists_isLast hf hown
    obtain ⟨v, hv⟩ : ∃ v, recordedVerdict checks f = some v := by
      rw [← own_eq_recordedVerdict hg hid]
      exact Option.isSome_iff_exists.mp (by
        obtain ⟨_, _, _, h, _⟩ := hg
        exact Option.isSome_iff_ne_none.mpr h)
    have hclass := falls_of_sound hsound hv
    have hone : ∃! k, f.falls checks k = true := by
      refine ⟨v.result.findingClass, ?_, fun k hk ↦ ?_⟩
      · exact (hclass _).trans (decide_eq_true rfl)
      · exact of_decide_eq_true ((hclass k).symm.trans hk)
    have hsupported : ∀ g, IsLast checks g → g.id = f.id →
        g.isVerified = f.falls checks .supported := by
      intro g hg hid
      have hown := own_eq_recordedVerdict hg hid
      rw [hv] at hown
      have hgsound := hs g hg.mem
      rw [hown] at hgsound
      rw [CheckedFinding.isVerified, ← hgsound, hown, hclass, Option.isSome_some, Option.any_some,
        Bool.true_and]
      cases v.result <;> rfl
    refine ⟨fun h g hg hid ↦ ?_, fun hfits ↦ ⟨hone, ?_⟩⟩
    · rw [Fits, hsound, if_pos rfl, hsupported g hg hid]
      exact h.2
    · have hfit := hfits g hg hid
      rw [Fits, hsound, if_pos rfl, hsupported g hg hid] at hfit
      exact hfit

/-! ## The coverage

The classes counted, and the share of the first of them, as the source computes both. -/

/-- Bullets fall in one class, and entries as they do on their own. -/
theorem one_iff (uncheckable : List Str) :
    (∀ x ∈ considered uncheckable checks, ∃! k, falls checks x k = true) ↔
      ∀ f ∈ checks, ∃! k, f.falls checks k = true := by
  simp only [considered, List.mem_append, List.mem_map]
  constructor
  · exact fun h f hf ↦ h (.inl f) (.inl ⟨f, hf, rfl⟩)
  · rintro h _ (⟨f, hf, rfl⟩ | ⟨b, -, rfl⟩)
    · exact h f hf
    · exact ⟨.uncheckable, rfl, fun k hk ↦ of_decide_eq_true hk⟩

/-- How many considered findings fall in a class. -/
theorem countP_considered (uncheckable : List Str) (checks : List CheckedFinding)
    (k : FindingClass) : (considered uncheckable checks).countP (falls checks · k) =
      checks.countP (·.falls checks k) + if k = .uncheckable then uncheckable.length else 0 := by
  have hbullets : uncheckable.countP (fun _ ↦ decide (k = .uncheckable)) =
      if k = .uncheckable then uncheckable.length else 0 := by
    by_cases hk : k = .uncheckable
    · rw [if_pos hk, decide_eq_true hk]
      exact congrFun List.countP_true uncheckable
    · rw [if_neg hk, decide_eq_false hk]
      exact congrFun List.countP_false uncheckable
  rw [considered, List.countP_append, List.countP_map, List.countP_map, ← hbullets]
  rfl

/-- What is left of the considered findings by the subtraction is the supported ones. -/
theorem supported_eq {uncheckable : List Str}
    (h : ∀ x ∈ considered uncheckable checks, ∃! k, falls checks x k = true) :
    ((checks.length + uncheckable.length : ℕ) : ℤ) - (checks.filter fun c ↦ !c.isSound).length -
        uncheckable.length - (withResult checks .contradicted).length -
        (withResult checks .claimTextMismatch).length - (uncheckedOf checks).length =
      ((considered uncheckable checks).countP (falls checks · .supported) : ℕ) := by
  have hlength : (considered uncheckable checks).length = checks.length + uncheckable.length := by
    rw [considered, List.length_append, List.length_map, List.length_map]
  have hnone : checks.countP (·.falls checks .uncheckable) = 0 :=
    List.countP_eq_zero.mpr fun _ _ ↦ Bool.false_ne_true
  have hsum := length_eq_sum_countP _ h
  rw [hlength, show (Finset.univ : Finset FindingClass) =
    {.supported, .unsound, .uncheckable, .refuted, .mismatched, .unchecked} from rfl] at hsum
  rw [Finset.sum_insert (by decide), Finset.sum_insert (by decide), Finset.sum_insert (by decide),
    Finset.sum_insert (by decide), Finset.sum_insert (by decide), Finset.sum_singleton] at hsum
  simp only [countP_considered, hnone, reduceCtorEq, ↓reduceIte] at hsum ⊢
  simp only [withResult, uncheckedOf, ← List.countP_eq_length_filter]
  have hunsound : checks.countP (·.falls checks .unsound) = checks.countP fun c ↦ !c.isSound := rfl
  have hrefuted : checks.countP (·.falls checks .refuted) = checks.countP fun c ↦
      (recordedVerdict checks c).any (·.result = .contradicted) := rfl
  have hmismatched : checks.countP (·.falls checks .mismatched) = checks.countP fun c ↦
      (recordedVerdict checks c).any (·.result = .claimTextMismatch) := rfl
  have hunchecked : checks.countP (·.falls checks .unchecked) = checks.countP fun c ↦ c.isSound &&
      (recordedVerdict checks c).any fun v ↦ !v.isDecisive && v.result ≠ .claimTextMismatch := rfl
  omega

theorem coverage_gradeChecks {rt : Runtime} {contract : RouteEvaluator} {output : Str}
    {uncheckable : List Str} (h : considered uncheckable checks ≠ []) :
    (gradeChecks rt contract output uncheckable checks).coverage = some (rt.hundredths
      (((checks.length + uncheckable.length : ℕ) : ℤ) - (checks.filter fun c ↦ !c.isSound).length -
        uncheckable.length - (withResult checks .contradicted).length -
        (withResult checks .claimTextMismatch).length - (uncheckedOf checks).length)
      (checks.length + uncheckable.length)) := by
  have hsome : (checks.isEmpty && uncheckable.isEmpty) = false := by
    rw [Bool.eq_false_iff]
    intro hnone
    rw [Bool.and_eq_true, List.isEmpty_iff, List.isEmpty_iff] at hnone
    exact h (by rw [hnone.1, hnone.2]; rfl)
  rw [gradeChecks]
  simp only [hsome, Bool.false_eq_true, ↓reduceIte]
  rw [apply_ite Evidence.coverage]
  exact ite_self _

theorem coverage_gradeChecks_nil {rt : Runtime} {contract : RouteEvaluator} {output : Str}
    {uncheckable : List Str} (h : considered uncheckable checks = []) :
    (gradeChecks rt contract output uncheckable checks).coverage = none := by
  rw [considered, List.append_eq_nil_iff, List.map_eq_nil_iff, List.map_eq_nil_iff] at h
  rw [h.1, h.2]
  cases hh : contains contract.evidenceHeading output <;> simp [gradeChecks, hh]

end

/-! ## A grade

From the checks to the grade: what the coverage in a grade is, for every call that returns. -/

section
variable {W : Type} (src : Sources W) (rt : Runtime) (base : EvidenceBase)

/-- The checks that a grade against a base rests on. -/
structure EntriesChecked (required : Bool) (source : Str) (w : W) (parsed : ParsedFindings)
    (checks : List CheckedFinding) : Prop where
  notEmpty : base.isEmpty = false
  reads : structuredFindings rt source = .ok parsed
  readable : (parsed.malformed || (required && !parsed.present)) = false
  checked : (checkEntries src base repoReview parsed.entries w).1 = .ok checks

/-- **The coverage is true exactly when what decides for an id fits every finding that has it.** -/
theorem trueCoverage_iff (output : Str) (required : Bool) (source : Str) (w w' : W)
    (evidence : Evidence)
    (hround : ∀ (a : ℤ) (b : ℕ), 0 ≤ a → a ≤ b → 0 < b →
      0 ≤ rt.hundredths a b ∧ rt.hundredths a b ≤ 100)
    (h : gradeAgainstEvidence src base rt repoReview output required source w =
      (.ok evidence, w')) :
    (∀ parsed checks, EntriesChecked src rt base required source w parsed checks →
      TrueCoverage rt (uncheckableBullets repoReview output parsed) checks evidence) ↔
    ∀ parsed checks, EntriesChecked src rt base required source w parsed checks →
      VerdictsFit checks := by
  refine forall₃_congr fun parsed checks hgraded ↦ ?_
  have hrun : checkEntries src base repoReview parsed.entries w =
      (.ok checks, (checkEntries src base repoReview parsed.entries w).2) :=
    Prod.ext hgraded.checked rfl
  have hs := ((checkEntries_spec src base parsed.entries w).of_run hrun).2
  have hevidence : evidence = gradeChecks rt repoReview output
      (uncheckableBullets repoReview output parsed) checks := by
    rcases gradeAgainstEvidence_cases h with ⟨hempty, -⟩ | ⟨-, parsed', hreads, hunreadable, -⟩ |
      ⟨-, parsed', checks', hreads, -, hchecked, hevidence⟩
    · rw [hgraded.notEmpty] at hempty
      cases hempty
    · obtain rfl := Except.ok.inj (hgraded.reads.symm.trans hreads)
      rw [hgraded.readable] at hunreadable
      cases hunreadable
    · obtain rfl := Except.ok.inj (hgraded.reads.symm.trans hreads)
      obtain rfl := Except.ok.inj (Prod.mk.inj (hrun.symm.trans hchecked)).1
      exact hevidence
  constructor
  · intro htrue f hf
    exact (fits_iff hs hf).mp ⟨(one_iff _).mp htrue.one f hf, htrue.own f hf⟩
  · intro hfit
    have hboth := fun f hf ↦ (fits_iff hs hf).mpr (hfit f hf)
    have hone := (one_iff (uncheckableBullets repoReview output parsed)).mpr
      fun f hf ↦ (hboth f hf).1
    have hlength : (considered (uncheckableBullets repoReview output parsed) checks).length =
        checks.length + (uncheckableBullets repoReview output parsed).length := by
      rw [considered, List.length_append, List.length_map, List.length_map]
    have hshare : considered (uncheckableBullets repoReview output parsed) checks ≠ [] →
        evidence.coverage = some (rt.hundredths ((considered (uncheckableBullets repoReview output
          parsed) checks).countP (falls checks · .supported))
          (considered (uncheckableBullets repoReview output parsed) checks).length) := by
      intro hne
      rw [hevidence, coverage_gradeChecks hne, supported_eq hone, hlength]
    refine ⟨hone, fun f hf ↦ (hboth f hf).2, hshare, fun share hcoverage ↦ ?_⟩
    by_cases hnone : considered (uncheckableBullets repoReview output parsed) checks = []
    · rw [hevidence, coverage_gradeChecks_nil hnone] at hcoverage
      cases hcoverage
    · rw [hshare hnone] at hcoverage
      rw [← Option.some.inj hcoverage]
      exact hround _ _ (by omega) (by exact_mod_cast List.countP_le_length)
        (List.length_pos_iff.mpr hnone)

end

/-! ## Two findings with one id

Two findings with one claim have one id, and what is recorded of the second hides the first. -/

/-- A finding that cites other bytes than those that were read. -/
def driftedItem : Json :=
  .obj [(str "claim", .str (str "a.txt lines 1-1 " ++ str "contain \"x\"")),
    (str "scope", .str (str "s")), (str "severity_rationale", .str (str "r")),
    (str "evidence", .arr [.obj [(str "source_id", fileId),
      (str "content_sha256", .str (List.replicate 64 (ch '0'))), (str "line_start", .int 1),
      (str "line_end", .int 1), (str "quoted", .str (str "x"))]])]

/-- A typed claim that is not the claim of the finding. -/
def containsY : Json :=
  .obj [(str "kind", .str (str "source_contains_" ++ str "literal")), (str "source_id", fileId),
    (str "text", .str (str "y"))]

/-- A block of some findings, as an output has it. -/
def blockOf (items : List Json) : Str :=
  str "```" ++ FINDINGS_FENCE ++ str "\n" ++ Json.render (.arr items) ++ str "\n```\n"

/-- The coverage that is graded for a block without prose. -/
def coverageOf (items : List Json) : Option ℤ :=
  match (gradeAgainstEvidence twoLineDisk firstLine asciiRuntime repoReview bareSections false
    (blockOf items) ()).1 with
  | .ok evidence => evidence.coverage
  | .error _ => none

/-- The grade that has it. -/
theorem exists_grade {items : List Json} {share : ℤ} (h : coverageOf items = some share) :
    ∃ evidence, gradeAgainstEvidence twoLineDisk firstLine asciiRuntime repoReview bareSections
      false (blockOf items) () = (.ok evidence, ()) ∧ evidence.coverage = some share := by
  rw [coverageOf] at h
  rcases hrun : gradeAgainstEvidence twoLineDisk firstLine asciiRuntime repoReview bareSections
    false (blockOf items) () with ⟨e | evidence, ⟨⟩⟩
  · rw [hrun] at h
    cases h
  · rw [hrun] at h
    exact ⟨evidence, rfl, h⟩

/-- The coverage of two findings that share an id, one drifted and one misstated: one of them is
taken away three times. -/
theorem sharedId_negative : ∃ evidence, gradeAgainstEvidence twoLineDisk firstLine asciiRuntime
      repoReview bareSections false
      (blockOf [driftedItem, findingItem [(str "typed_claim", containsY)]]) () =
        (.ok evidence, ()) ∧
    ¬ ∀ parsed checks, EntriesChecked twoLineDisk asciiRuntime firstLine false
      (blockOf [driftedItem, findingItem [(str "typed_claim", containsY)]]) () parsed checks →
        TrueCoverage asciiRuntime (uncheckableBullets repoReview bareSections parsed) checks
          evidence := by
  have hnegative : coverageOf [driftedItem, findingItem [(str "typed_claim", containsY)]] =
      some (-50) := by decide +kernel
  obtain ⟨evidence, hrun, hcoverage⟩ := exists_grade hnegative
  refine ⟨evidence, hrun, fun htrue ↦ ?_⟩
  rcases gradeAgainstEvidence_cases hrun with ⟨-, rfl⟩ | ⟨-, _, -, -, rfl⟩ |
    ⟨hempty, parsed, checks, hreads, hreadable, hchecked, -⟩
  · cases hcoverage
  · cases hcoverage
  · have hgraded : EntriesChecked twoLineDisk asciiRuntime firstLine false
        (blockOf [driftedItem, findingItem [(str "typed_claim", containsY)]]) () parsed checks :=
      ⟨hempty, hreads, hreadable, by rw [hchecked]⟩
    exact absurd ((htrue parsed checks hgraded).bounded _ hcoverage).1 (by decide)

theorem asciiRuntime_rounds (a : ℤ) (b : ℕ) (ha : 0 ≤ a) (hab : a ≤ b) (hb : 0 < b) :
    0 ≤ asciiRuntime.hundredths a b ∧ asciiRuntime.hundredths a b ≤ 100 := by
  have hpos : (0 : ℤ) < 2 * b := by omega
  show 0 ≤ (200 * a + b) / (2 * b) ∧ (200 * a + b) / (2 * b) ≤ 100
  refine ⟨Int.ediv_nonneg (by omega) (by omega), ?_⟩
  have hlt : (200 * a + b) / (2 * b) < 101 := Int.ediv_lt_of_lt_mul hpos (by omega)
  omega

/-- One typed claim about a line that was read. -/
theorem trueCoverage_iff_oneFinding : ∃ evidence, gradeAgainstEvidence twoLineDisk firstLine
      asciiRuntime repoReview bareSections false
      (blockOf [findingItem [(str "typed_claim", containsX)]]) () = (.ok evidence, ()) ∧
    ((∀ parsed checks, EntriesChecked twoLineDisk asciiRuntime firstLine false
      (blockOf [findingItem [(str "typed_claim", containsX)]]) () parsed checks →
        TrueCoverage asciiRuntime (uncheckableBullets repoReview bareSections parsed) checks
          evidence) ↔
      ∀ parsed checks, EntriesChecked twoLineDisk asciiRuntime firstLine false
        (blockOf [findingItem [(str "typed_claim", containsX)]]) () parsed checks →
          VerdictsFit checks) := by
  have hall : coverageOf [findingItem [(str "typed_claim", containsX)]] = some 100 := by
    decide +kernel
  obtain ⟨evidence, hrun, -⟩ := exists_grade hall
  exact ⟨evidence, hrun, trueCoverage_iff twoLineDisk asciiRuntime firstLine bareSections false _ ()
    () evidence asciiRuntime_rounds hrun⟩

end AtlasCore
