import AtlasCore.Evaluator.Verdicts

/-!
# Which criteria are reported met

`met_criteria` is what no gap blames, so a criterion is earned only if every gap that cuts its test
short blames it.  `Earned` says that the met criteria were established; `NothingSlips` is the
condition, on the arguments of the call and on the checks of its findings, under which they were.
-/

set_option autoImplicit false

namespace AtlasCore

open Py

/-! ## Met and blamed

A criterion is met, or a gap of the evidence blames it.  For the criteria of the findings the two
are opposites, and that is what the theorems on grades use. -/

theorem mem_sortCriteria {k : Criterion} {ks : List Criterion} : k ∈ sortCriteria ks ↔ k ∈ ks := by
  rw [sortCriteria, List.mem_insertionSort]

section Assess

variable {rt : Runtime} {c : Call} {evidence : Evidence}

theorem mem_metCriteria {k : Criterion} :
    k ∈ (c.assess rt evidence).metCriteria ↔ k ∈ c.declared ∧ k ∉ c.blamed rt evidence := by
  show k ∈ sortCriteria _ ↔ _
  rw [mem_sortCriteria, List.mem_filter]
  simp

/-- The criteria of the findings themselves, which a base of sources is needed for. -/
def evidenceCriteria : List Criterion := [.findingsAreCheckable, .citationsHold, .claimsAreSettled]

/-- Only gaps of the evidence blame the criteria of the findings. -/
theorem mem_blamed_of_evidence {k : Criterion} (hk : k ∈ evidenceCriteria) :
    k ∈ c.blamed rt evidence ↔ ∃ g ∈ evidence.gaps, k ∈ criterionForGap g := by
  have hsub : k ≠ .substance := by rintro rfl; exact absurd hk (by decide)
  have hsec : ∀ s, k ≠ .required s := by
    rintro s rfl
    exact absurd hk (by simp [evidenceCriteria])
  have hplan : k ∉ criterionForGap .planTargetsUnread ∧ k ∉ criterionForGap .noOnTopicFinding ∧
      k ∉ criterionForGap .noAnsweringFinding := by
    simp only [evidenceCriteria, List.mem_cons, List.not_mem_nil, or_false] at hk
    rcases hk with rfl | rfl | rfl <;> decide
  simp only [Call.blamed, Call.gapCodes, List.mem_append, List.mem_flatMap, List.mem_map]
  constructor
  · rintro ((h | ⟨s, -, h⟩) | ⟨g, (h | h) | h, hg⟩)
    · split at h
      · exact absurd (List.mem_singleton.mp h) hsub
      · exact absurd h List.not_mem_nil
    · exact absurd h.symm (hsec s)
    · split at h
      · obtain rfl := List.mem_singleton.mp h
        exact absurd hg hplan.1
      · exact absurd h List.not_mem_nil
    · exact ⟨g, h, hg⟩
    · split at h
      · obtain rfl := List.mem_singleton.mp h
        exact absurd hg hplan.2.1
      · split at h
        · obtain rfl := List.mem_singleton.mp h
          exact absurd hg hplan.2.2
        · exact absurd h List.not_mem_nil
  · rintro ⟨g, h, hg⟩
    exact .inr ⟨g, .inl (.inr h), hg⟩

/-- A route declares its own criteria, whatever the plan. -/
theorem mem_declared_of_route {k : Criterion} (h : k ∈ exitCriteria c.route) : k ∈ c.declared := by
  rw [Call.declared]
  cases c.review with
  | none => exact h
  | some review =>
    cases hn : review.narrowed with
    | false =>
      rw [criteriaFor, hn]
      exact h
    | true =>
      rw [criteriaFor, if_pos hn]
      exact List.mem_append_left _ (List.mem_append_left _ h)

/-- A criterion of the findings is declared by the one route that makes findings. -/
theorem mem_declared_of_evidence {k : Criterion} (hk : k ∈ evidenceCriteria) :
    k ∈ c.declared ↔ c.route = some .repoReview := by
  have hbase : k ∈ exitCriteria c.route ↔ c.route = some .repoReview := by
    simp only [evidenceCriteria, List.mem_cons, List.not_mem_nil, or_false] at hk
    rcases hr : c.route with _ | r
    · rcases hk with rfl | rfl | rfl <;> decide
    · rcases hk with rfl | rfl | rfl <;> cases r <;> decide
  have hq : k ≠ .findingsAreOnTopic ∧ k ≠ .findingsAnswerTheQuestion := by
    simp only [evidenceCriteria, List.mem_cons, List.not_mem_nil, or_false] at hk
    rcases hk with rfl | rfl | rfl <;> decide
  rw [Call.declared]
  cases c.review with
  | none => exact hbase
  | some review =>
    rw [criteriaFor]
    split
    · rw [List.mem_append, List.mem_append, List.mem_singleton, hbase]
      split <;> simp [hq.1, hq.2]
    · exact hbase

/-- The plan of the call narrowed to a topic. -/
def Call.narrowed (c : Call) : Bool := c.review.any (·.narrowed)

theorem onTopic_declared : .findingsAreOnTopic ∈ c.declared ↔ c.narrowed = true := by
  have hbase : Criterion.findingsAreOnTopic ∉ exitCriteria c.route := by
    rcases c.route with _ | r
    · decide
    · cases r <;> decide
  rw [Call.declared, Call.narrowed]
  cases c.review with
  | none => simpa [criteriaFor] using hbase
  | some review =>
    rw [criteriaFor]
    split
    · rename_i h
      simp [h]
    · rename_i h
      simp [h, hbase]

theorem answers_declared (h : .findingsAnswerTheQuestion ∈ c.declared) :
    .findingsAreOnTopic ∈ c.declared := by
  have hbase : Criterion.findingsAnswerTheQuestion ∉ exitCriteria c.route := by
    rcases c.route with _ | r
    · decide
    · cases r <;> decide
  rw [Call.declared] at h ⊢
  cases hr : c.review with
  | none =>
    rw [hr] at h
    exact absurd h hbase
  | some review =>
    rw [hr, criteriaFor] at h
    rw [criteriaFor]
    split at h
    · rename_i hn
      rw [if_pos hn]
      simp
    · exact absurd h hbase

/-- The gaps that grading the evidence can find. -/
def Gap.isOfEvidence : Gap → Bool
  | planTargetsUnread | noOnTopicFinding | noAnsweringFinding => false
  | _ => true

/-- What blames the question's criteria. -/
theorem mem_blamed_of_question {k : Criterion}
    (hk : k = .findingsAreOnTopic ∨ k = .findingsAnswerTheQuestion) :
    k ∈ c.blamed rt evidence ↔ ∃ g ∈ c.gapCodes rt evidence,
      (g = .noOnTopicFinding ∨ g = .noAnsweringFinding) ∧ k ∈ criterionForGap g := by
  simp only [Call.blamed, List.mem_append, List.mem_flatMap, List.mem_map]
  constructor
  · rintro ((h | ⟨s, -, h⟩) | ⟨g, hg, h⟩)
    · split at h
      · rcases hk with rfl | rfl <;> exact absurd (List.mem_singleton.mp h) (by decide)
      · exact absurd h List.not_mem_nil
    · rcases hk with rfl | rfl <;> exact absurd h (by simp)
    · refine ⟨g, hg, ?_, h⟩
      rcases hk with rfl | rfl <;> revert h <;> cases g <;> decide
  · rintro ⟨g, hg, -, h⟩
    exact .inr ⟨g, hg, h⟩

theorem noOnTopic_mem (hev : ∀ g ∈ evidence.gaps, g.isOfEvidence = true) :
    .noOnTopicFinding ∈ c.gapCodes rt evidence ↔ c.narrowed = true ∧ c.waitingOn = [] ∧
      onTopicFinding c.review evidence c.evidenceBase = false := by
  have hno : Gap.noOnTopicFinding ∉ evidence.gaps := fun h ↦ absurd (hev _ h) (by decide)
  rw [← onTopic_declared, Call.gapCodes, List.mem_append, List.mem_append]
  constructor
  · rintro ((h | h) | h)
    · split at h
      · exact absurd (List.mem_singleton.mp h) (by decide)
      · exact absurd h List.not_mem_nil
    · exact absurd h hno
    · split at h
      · assumption
      · split at h
        · exact absurd (List.mem_singleton.mp h) (by decide)
        · exact absurd h List.not_mem_nil
  · intro h
    rw [if_pos h]
    exact .inr List.mem_cons_self

theorem noAnswering_mem (hev : ∀ g ∈ evidence.gaps, g.isOfEvidence = true) :
    .noAnsweringFinding ∈ c.gapCodes rt evidence ↔
      .noOnTopicFinding ∉ c.gapCodes rt evidence ∧ .findingsAnswerTheQuestion ∈ c.declared ∧
        c.waitingOn = [] ∧ answeringFinding rt c.review evidence c.evidenceBase = false := by
  have hno : Gap.noAnsweringFinding ∉ evidence.gaps := fun h ↦ absurd (hev _ h) (by decide)
  rw [noOnTopic_mem hev, ← onTopic_declared, Call.gapCodes, List.mem_append, List.mem_append]
  constructor
  · rintro ((h | h) | h)
    · split at h
      · exact absurd (List.mem_singleton.mp h) (by decide)
      · exact absurd h List.not_mem_nil
    · exact absurd h hno
    · split at h
      · exact absurd (List.mem_singleton.mp h) (by decide)
      · rename_i hon
        split at h
        · exact ⟨hon, ‹_›⟩
        · exact absurd h List.not_mem_nil
  · rintro ⟨hon, h⟩
    rw [if_neg hon, if_pos h]
    exact .inr List.mem_cons_self

end Assess

/-! ## The gaps of the checks

Which of the checks of the findings leave which gap behind, and which criterion a gap leaves unmet.
-/

section Gaps

variable {rt : Runtime} {contract : RouteEvaluator} {output : Str} {uncheckable : List Str}
  {checks : List CheckedFinding}

/-- The records are those of the checked findings. -/
theorem citationChecks_gradeChecks :
    (gradeChecks rt contract output uncheckable checks).citationChecks =
      checks.map fun f ↦ citationRecord f.finding f.check (recordedVerdict checks f) := by
  rw [gradeChecks]
  by_cases hnone : (checks.isEmpty && uncheckable.isEmpty) = true
  · have hchecks : checks = [] := List.isEmpty_iff.mp (Bool.and_eq_true_iff.mp hnone).1
    rw [if_pos hnone, hchecks]
    split_ifs <;> rfl
  · rw [if_neg hnone]
    dsimp only
    rw [apply_ite Evidence.citationChecks, ite_self]

theorem mem_citationChecks_gradeChecks {r : CitationRecord}
    (h : r ∈ (gradeChecks rt contract output uncheckable checks).citationChecks) :
    ∃ f ∈ checks, r = citationRecord f.finding f.check (recordedVerdict checks f) := by
  rw [citationChecks_gradeChecks] at h
  obtain ⟨f, hf, rfl⟩ := List.mem_map.mp h
  exact ⟨f, hf, rfl⟩

theorem mem_gaps_gradeChecks {g : Gap} :
    g ∈ (gradeChecks rt contract output uncheckable checks).gaps ↔
      (g = .sourcesNotDocumented ∧ checks = [] ∧ uncheckable = [] ∧
        contains contract.evidenceHeading output = false) ∨
      (g = .uncheckableFindings ∧ uncheckable ≠ []) ∨
      (g = .unsoundCitations ∧ ∃ f ∈ checks, f.isSound = false) ∨
      (g = .contradictedFindings ∧ withResult checks .contradicted ≠ []) ∨
      (g = .claimTextMismatch ∧ withResult checks .claimTextMismatch ≠ []) ∨
      (g = .unverifiedFindings ∧ uncheckedOf checks ≠ []) := by
  by_cases h : checks = [] ∧ uncheckable = []
  · obtain ⟨rfl, rfl⟩ := h
    cases hh : contains contract.evidenceHeading output <;>
      simp [gradeChecks, hh, withResult, uncheckedOf]
  · have hempty : (checks.isEmpty && uncheckable.isEmpty) = false := by
      rw [Bool.eq_false_iff]
      intro he
      simp only [Bool.and_eq_true, List.isEmpty_iff] at he
      exact h he
    have hunsound : (checks.filter fun f ↦ !f.isSound) ≠ [] ↔ ∃ f ∈ checks, f.isSound = false := by
      simp [List.filter_eq_nil_iff]
    have hgaps : (gradeChecks rt contract output uncheckable checks).gaps =
        (if uncheckable.isEmpty then [] else [Gap.uncheckableFindings]) ++
        (if (checks.filter fun f ↦ !f.isSound).isEmpty then [] else [.unsoundCitations]) ++
        (if (withResult checks .contradicted).isEmpty then [] else [.contradictedFindings]) ++
        (if (withResult checks .claimTextMismatch).isEmpty then [] else [.claimTextMismatch]) ++
        (if (uncheckedOf checks).isEmpty then [] else [.unverifiedFindings]) := by
      have hid : ∀ l : List Gap, (if l.isEmpty then [] else l) = l := by
        intro l
        cases l <;> rfl
      rw [gradeChecks]
      simp only [hempty, Bool.false_eq_true, ↓reduceIte]
      rw [apply_ite Evidence.gaps]
      exact hid _
    have honly : ∀ (c : Bool) (k : Gap), g ∈ (if c then [] else [k]) ↔ g = k ∧ c = false := by
      intro c k
      cases c <;> simp
    rw [hgaps]
    simp only [List.mem_append, honly, List.isEmpty_eq_false_iff, hunsound]
    constructor
    · rintro ((((h | h) | h) | h) | h)
      exacts [.inr (.inl h), .inr (.inr (.inl h)), .inr (.inr (.inr (.inl h))),
        .inr (.inr (.inr (.inr (.inl h)))), .inr (.inr (.inr (.inr (.inr h))))]
    · rintro (⟨-, hc, hu, -⟩ | hg | hg | hg | hg | hg)
      exacts
        [absurd (And.intro hc hu) h, .inl (.inl (.inl (.inl hg))), .inl (.inl (.inl (.inr hg))),
        .inl (.inl (.inr hg)), .inl (.inr hg), .inr hg]

/-- What blames the criteria of the findings, once they were checked. -/
theorem blames_gradeChecks {k : Criterion} (hk : k ∈ evidenceCriteria) :
    (∃ g ∈ (gradeChecks rt contract output uncheckable checks).gaps, k ∈ criterionForGap g) ↔
      (k = .findingsAreCheckable ∧ uncheckable ≠ []) ∨
      (k = .citationsHold ∧ ∃ f ∈ checks, f.isSound = false) ∨
      (k = .claimsAreSettled ∧ ¬ NoComplaint checks) := by
  simp only [evidenceCriteria, List.mem_cons, List.not_mem_nil, or_false] at hk
  have hno : ¬ NoComplaint checks ↔ withResult checks .contradicted ≠ [] ∨
      withResult checks .claimTextMismatch ≠ [] ∨ uncheckedOf checks ≠ [] := by
    simp only [NoComplaint, ne_eq]
    tauto
  simp only [mem_gaps_gradeChecks, hno]
  constructor
  · rintro ⟨g, hg, hkg⟩
    rcases hg with ⟨rfl, -⟩ | ⟨rfl, h⟩ | ⟨rfl, h⟩ | ⟨rfl, h⟩ | ⟨rfl, h⟩ | ⟨rfl, h⟩ <;>
      simp only [criterionForGap, List.mem_singleton] at hkg <;> subst hkg
    · exact absurd hk (by decide)
    · exact .inl ⟨rfl, h⟩
    · exact .inr (.inl ⟨rfl, h⟩)
    · exact .inr (.inr ⟨rfl, .inl h⟩)
    · exact .inr (.inr ⟨rfl, .inr (.inl h)⟩)
    · exact .inr (.inr ⟨rfl, .inr (.inr h)⟩)
  · rintro (⟨rfl, h⟩ | ⟨rfl, h⟩ | ⟨rfl, h | h | h⟩)
    · exact ⟨_, .inr (.inl ⟨rfl, h⟩), by decide⟩
    · exact ⟨_, .inr (.inr (.inl ⟨rfl, h⟩)), by decide⟩
    · exact ⟨_, .inr (.inr (.inr (.inl ⟨rfl, h⟩))), by decide⟩
    · exact ⟨_, .inr (.inr (.inr (.inr (.inl ⟨rfl, h⟩)))), by decide⟩
    · exact ⟨_, .inr (.inr (.inr (.inr (.inr ⟨rfl, h⟩)))), by decide⟩

end Gaps

/-! ## How a call with an evidence base ends -/

section Outcome

variable {W : Type} {src : Sources W} {rt : Runtime} {c : Call} {base : EvidenceBase} {w w' : W}

/-- The block of the call is unreadable, or was asked for and is not there. -/
def Call.unreadable (c : Call) (parsed : ParsedFindings) : Bool :=
  parsed.malformed || (c.structuredOutputRequired && !parsed.present)

/-- The bullets of the output that no claim of the block equals. -/
def Call.uncheckable (c : Call) (parsed : ParsedFindings) : List Str :=
  uncheckableBullets repoReview c.output parsed

theorem evaluate_eq_ok {e : AtlasEvaluation} :
    evaluate src rt c w = (.ok e, w') ↔
      ∃ evidence, c.evidence src rt w = (.ok evidence, w') ∧ c.assess rt evidence = e := by
  rw [evaluate, map_eq_pure_bind, Eff.bind_eq_ok]
  constructor
  · rintro ⟨evidence, t, h, hp⟩
    obtain ⟨he, rfl⟩ := Eff.pure_eq_ok.mp hp
    exact ⟨evidence, h, he⟩
  · rintro ⟨evidence, h, rfl⟩
    exact ⟨evidence, w', h, rfl⟩

/-- Grading against a base ends in one of three ways: nothing to read, nothing readable, or checks
of every finding. -/
theorem gradeAgainstEvidence_cases {output source : Str} {required : Bool} {evidence : Evidence}
    (h : gradeAgainstEvidence src base rt repoReview output required source w =
      (.ok evidence, w')) :
    (base.isEmpty = true ∧ evidence = { gaps := [.noSourcesObserved] }) ∨
    (base.isEmpty = false ∧ ∃ parsed, structuredFindings rt source = .ok parsed ∧
      (parsed.malformed || (required && !parsed.present)) = true ∧ evidence = missingBlock) ∨
    (base.isEmpty = false ∧ ∃ parsed checks, structuredFindings rt source = .ok parsed ∧
      (parsed.malformed || (required && !parsed.present)) = false ∧
      checkEntries src base repoReview parsed.entries w = (.ok checks, w') ∧
      evidence = gradeChecks rt repoReview output (uncheckableBullets repoReview output parsed)
        checks) := by
  rw [gradeAgainstEvidence] at h
  cases he : base.isEmpty
  · rw [he, if_neg Bool.false_ne_true, Eff.bind_eq_ok] at h
    obtain ⟨parsed, t, ht, h⟩ := h
    obtain ⟨hp, rfl⟩ := Eff.ofExcept_eq_ok.mp ht
    split at h
    · rename_i hu
      obtain ⟨rfl, -⟩ := Eff.pure_eq_ok.mp h
      exact .inr (.inl ⟨rfl, parsed, hp, hu, rfl⟩)
    · rename_i hu
      rw [Eff.bind_eq_ok] at h
      obtain ⟨checks, t, hc, h⟩ := h
      obtain ⟨rfl, rfl⟩ := Eff.pure_eq_ok.mp h
      exact .inr (.inr ⟨rfl, parsed, checks, hp, Bool.eq_false_iff.mpr hu, hc, rfl⟩)
  · rw [he, if_pos rfl] at h
    obtain ⟨rfl, -⟩ := Eff.pure_eq_ok.mp h
    exact .inl ⟨rfl, rfl⟩

/-- So does the evidence of a review with an evidence base. -/
theorem evidence_cases (hr : c.route = some .repoReview) (hb : c.evidenceBase = some base)
    {evidence : Evidence} (h : c.evidence src rt w = (.ok evidence, w')) :
    (base.isEmpty = true ∧ evidence = { gaps := [.noSourcesObserved] }) ∨
    (base.isEmpty = false ∧ ∃ parsed, structuredFindings rt c.findingsSource = .ok parsed ∧
      c.unreadable parsed = true ∧ evidence = missingBlock) ∨
    (base.isEmpty = false ∧ ∃ parsed checks,
      structuredFindings rt c.findingsSource = .ok parsed ∧ c.unreadable parsed = false ∧
      checkEntries src base repoReview parsed.entries w = (.ok checks, w') ∧
      evidence = gradeChecks rt repoReview c.output (c.uncheckable parsed) checks) := by
  rw [Call.evidence, hr, hb, routeEvaluator_repoReview] at h
  exact gradeAgainstEvidence_cases h

/-- Only a review has a contract. -/
theorem routeEvaluator_eq_none {route : Option RouteName} (hr : route ≠ some .repoReview) :
    routeEvaluator route = none := by
  rcases route with _ | r
  · rfl
  · cases r with
    | repoReview => exact absurd rfl hr
    | _ => rfl

/-- No grade of the evidence names a gap of the plan or of the question. -/
theorem gaps_ofEvidence (hb : c.evidenceBase = some base) {evidence : Evidence}
    (h : c.evidence src rt w = (.ok evidence, w')) :
      ∀ g ∈ evidence.gaps, g.isOfEvidence = true := by
  by_cases hr : c.route = some .repoReview
  · rcases evidence_cases hr hb h with ⟨-, rfl⟩ | ⟨-, _, -, -, rfl⟩ | ⟨-, _, _, -, -, -, rfl⟩
    · simp [Gap.isOfEvidence]
    · simp [missingBlock, Gap.isOfEvidence]
    · intro g hg
      rcases mem_gaps_gradeChecks.mp hg with h | h | h | h | h | h <;> (rw [h.1]; rfl)
  · rw [Call.evidence, routeEvaluator_eq_none hr, gradeEvidence] at h
    obtain ⟨rfl, -⟩ := Eff.pure_eq_ok.mp h
    exact fun g hg ↦ absurd hg List.not_mem_nil

end Outcome

end AtlasCore
