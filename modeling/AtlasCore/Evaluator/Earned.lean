import AtlasCore.Evaluator.Criteria

/-!
# When a met criterion was established

The exact condition under which every criterion in `met_criteria` was established by the call, and
a call that reports a criterion nobody established.

A criterion is reported as met when nothing blames it, so it may be met because a check was never
made.  `Earned` asks of each reported criterion that its own test held; `earned_iff` says for every
call when that is so, and the last section shows a call on which it is not: a review that observed
nothing, and is told that its findings can be checked.
-/

set_option autoImplicit false

namespace AtlasCore

open Py

variable {W : Type} (src : Sources W) (rt : Runtime) (c : Call) (base : EvidenceBase) (w : W)

/-- Every criterion that `e` reports met was established by the call. -/
structure Earned (e : AtlasEvaluation) : Prop where
  /-- With no source there was no test of a finding. -/
  unread : base.isEmpty = true → ∀ k ∈ evidenceCriteria, k ∉ e.metCriteria
  /-- With no readable block there was none either. -/
  unreadable : ∀ parsed, structuredFindings rt c.findingsSource = .ok parsed →
    c.unreadable parsed = true → ∀ k ∈ evidenceCriteria, k ∉ e.metCriteria
  /-- Every asserted finding, parsed or bullet, was settled `verified`. -/
  settled : ∀ parsed checks w', structuredFindings rt c.findingsSource = .ok parsed →
    checkEntries src base repoReview parsed.entries w = (.ok checks, w') →
    .claimsAreSettled ∈ e.metCriteria →
      c.uncheckable parsed = [] ∧ ∀ f ∈ checks, f.isVerified = true
  /-- Every asserted finding was machine-readable, and its citations were found sound. -/
  held : ∀ parsed checks w', structuredFindings rt c.findingsSource = .ok parsed →
    checkEntries src base repoReview parsed.entries w = (.ok checks, w') →
    .citationsHold ∈ e.metCriteria ∨ .findingsAreCheckable ∈ e.metCriteria →
      c.uncheckable parsed = [] ∧ ∀ f ∈ checks, f.isSound = true
  /-- The relevance test was run on the answer and succeeded. -/
  onTopic : .findingsAreOnTopic ∈ e.metCriteria → c.waitingOn = [] ∧ ∀ evidence w',
    c.evidence src rt w = (.ok evidence, w') →
      onTopicFinding c.review evidence c.evidenceBase = true
  /-- So was the test of the answering literals. -/
  answers : .findingsAnswerTheQuestion ∈ e.metCriteria → c.waitingOn = [] ∧ ∀ evidence w',
    c.evidence src rt w = (.ok evidence, w') →
      answeringFinding rt c.review evidence c.evidenceBase = true

/-- The checks of a readable block leave no criterion met that they did not establish: unsound
citations and unmatched bullets come together or not at all, and where there is one of them, or a
finding that is not verified, then a finding that decides for its id is not verified. -/
structure ChecksAgree (uncheckable : List Str) (checks : List CheckedFinding) : Prop where
  together : (∀ f ∈ checks, f.isSound = true) ↔ uncheckable = []
  decided : (∃ f, IsLast checks f ∧ f.isVerified = false) ∨
    (uncheckable = [] ∧ ∀ f ∈ checks, f.isVerified = true)

/-- The condition on a call: no narrowed plan is waited on, and a review has sources and checks that
agree. -/
structure NothingSlips : Prop where
  notWaiting : c.narrowed = true → c.waitingOn = []
  reads : c.route = some .repoReview → base.isEmpty = false
  agree : c.route = some .repoReview → ∀ parsed checks w',
    structuredFindings rt c.findingsSource = .ok parsed → c.unreadable parsed = false →
    checkEntries src base repoReview parsed.entries w = (.ok checks, w') →
      ChecksAgree (c.uncheckable parsed) checks

variable {src rt c base w}

/-- The question's criteria are earned exactly when the call does not wait on a narrowed plan. -/
theorem question_earned_iff {evidence : Evidence}
    (hev : ∀ g ∈ evidence.gaps, g.isOfEvidence = true) :
    ((.findingsAreOnTopic ∈ (c.assess rt evidence).metCriteria →
        c.waitingOn = [] ∧ onTopicFinding c.review evidence c.evidenceBase = true) ∧
      (.findingsAnswerTheQuestion ∈ (c.assess rt evidence).metCriteria →
        c.waitingOn = [] ∧ answeringFinding rt c.review evidence c.evidenceBase = true)) ↔
      (c.narrowed = true → c.waitingOn = []) := by
  constructor
  · rintro ⟨hon, -⟩ hn
    by_contra hw
    -- nothing asks about the topic while the call waits, so the criterion stays met
    refine hw (hon (mem_metCriteria.mpr ⟨onTopic_declared.mpr hn, ?_⟩)).1
    rw [mem_blamed_of_question (.inl rfl)]
    rintro ⟨g, hg, rfl | rfl, -⟩
    · exact hw ((noOnTopic_mem hev).mp hg).2.1
    · exact hw ((noAnswering_mem hev).mp hg).2.2.1
  · intro hwait
    constructor
    · intro hmet
      obtain ⟨hdec, hblame⟩ := mem_metCriteria.mp hmet
      have hn := onTopic_declared.mp hdec
      refine ⟨hwait hn, ?_⟩
      by_contra hfalse
      refine hblame ((mem_blamed_of_question (.inl rfl)).mpr
        ⟨_, (noOnTopic_mem hev).mpr ⟨hn, hwait hn, ?_⟩, .inl rfl, by decide⟩)
      exact Bool.eq_false_iff.mpr hfalse
    · intro hmet
      obtain ⟨hdec, hblame⟩ := mem_metCriteria.mp hmet
      have hn := onTopic_declared.mp (answers_declared hdec)
      refine ⟨hwait hn, ?_⟩
      by_contra hfalse
      -- one of the two gaps is there, and both blame the criterion
      by_cases hno : Gap.noOnTopicFinding ∈ c.gapCodes rt evidence
      · exact hblame ((mem_blamed_of_question (.inr rfl)).mpr ⟨_, hno, .inl rfl, by decide⟩)
      · refine hblame ((mem_blamed_of_question (.inr rfl)).mpr
          ⟨_, (noAnswering_mem hev).mpr ⟨hno, hdec, hwait hn, ?_⟩, .inr rfl, by decide⟩)
        exact Bool.eq_false_iff.mpr hfalse

/-- On a review, a criterion of the findings is met exactly when no gap of the evidence blames
it. -/
theorem met_of_review (hr : c.route = some .repoReview) {evidence : Evidence} {k : Criterion}
    (hk : k ∈ evidenceCriteria) : k ∈ (c.assess rt evidence).metCriteria ↔
      ¬ ∃ g ∈ evidence.gaps, k ∈ criterionForGap g := by
  rw [mem_metCriteria, mem_blamed_of_evidence hk, mem_declared_of_evidence hk]
  simp [hr]

/-- After checks, the criteria of the findings are earned exactly when the checks agree. -/
theorem checks_earned_iff (hr : c.route = some .repoReview) {uncheckable : List Str}
    {checks : List CheckedFinding} (hs : OwnWhereSound checks) {e : AtlasEvaluation}
    (he : c.assess rt (gradeChecks rt repoReview c.output uncheckable checks) = e) :
    ((.claimsAreSettled ∈ e.metCriteria →
        uncheckable = [] ∧ ∀ f ∈ checks, f.isVerified = true) ∧
      (.citationsHold ∈ e.metCriteria ∨ .findingsAreCheckable ∈ e.metCriteria →
        uncheckable = [] ∧ ∀ f ∈ checks, f.isSound = true)) ↔ ChecksAgree uncheckable checks := by
  have hsettled : .claimsAreSettled ∈ e.metCriteria ↔ ∀ f, IsLast checks f →
    f.isVerified = true := by
    rw [← he, met_of_review hr (by decide), blames_gradeChecks (by decide), ← noComplaint_iff hs]
    simp
  have hholds : .citationsHold ∈ e.metCriteria ↔ ∀ f ∈ checks, f.isSound = true := by
    rw [← he, met_of_review hr (by decide), blames_gradeChecks (by decide)]
    simp
  have hcheckable : .findingsAreCheckable ∈ e.metCriteria ↔ uncheckable = [] := by
    rw [← he, met_of_review hr (by decide), blames_gradeChecks (by decide)]
    simp
  rw [hsettled, hholds, hcheckable]
  constructor
  · rintro ⟨h1, h2⟩
    refine ⟨⟨fun h ↦ (h2 (.inl h)).1, fun h ↦ (h2 (.inr h)).2⟩, ?_⟩
    by_cases hl : ∀ f, IsLast checks f → f.isVerified = true
    · exact .inr (h1 hl)
    · push Not at hl
      obtain ⟨f, hf, hv⟩ := hl
      exact .inl ⟨f, hf, Bool.eq_false_iff.mpr hv⟩
  · rintro ⟨h1, h2⟩
    refine ⟨fun hl ↦ ?_, fun h ↦ ?_⟩
    · rcases h2 with ⟨f, hf, hv⟩ | h2
      · rw [hl f hf] at hv
        exact absurd hv (by decide)
      · exact h2
    · rcases h with h | h
      · exact ⟨h1.mp h, h⟩
      · exact ⟨h, h1.mpr h⟩

/-- **The met criteria were established exactly when nothing slips.** -/
theorem earned_iff {e : AtlasEvaluation} {w' : W} (hb : c.evidenceBase = some base)
    (h : evaluate src rt c w = (.ok e, w')) :
    Earned src rt c base w e ↔ NothingSlips src rt c base w := by
  obtain ⟨evidence, hev, rfl⟩ := evaluate_eq_ok.mp h
  have hq := @question_earned_iff rt c evidence (gaps_ofEvidence hb hev)
  have hrun : ∀ ev t, c.evidence src rt w = (.ok ev, t) → ev = evidence := by
    intro ev t ht
    rw [hev] at ht
    exact (Except.ok.inj (Prod.mk.inj ht).1).symm
  constructor
  · intro he
    refine ⟨?_, ?_, ?_⟩
    · refine hq.mp ⟨fun hm ↦ ?_, fun hm ↦ ?_⟩
      · exact ⟨(he.onTopic hm).1, (he.onTopic hm).2 _ _ hev⟩
      · exact ⟨(he.answers hm).1, (he.answers hm).2 _ _ hev⟩
    · intro hr
      by_contra hempty
      rw [Bool.not_eq_false] at hempty
      rcases evidence_cases hr hb hev with ⟨-, rfl⟩ | ⟨h0, -⟩ | ⟨h0, -⟩
      · refine he.unread hempty .claimsAreSettled (by decide)
          ((met_of_review hr (by decide)).mpr ?_)
        simp [criterionForGap]
      · exact absurd h0 (by simp [hempty])
      · exact absurd h0 (by simp [hempty])
    · intro hr parsed checks t hp hu hc
      rcases evidence_cases hr hb hev with ⟨h0, rfl⟩ | ⟨-, parsed', hp', hu', -⟩ |
          ⟨-, parsed', checks', hp', -, hc', rfl⟩
      · exfalso
        refine he.unread h0 .claimsAreSettled (by decide) ((met_of_review hr (by decide)).mpr ?_)
        simp [criterionForGap]
      · obtain rfl := Except.ok.inj (hp.symm.trans hp')
        rw [hu] at hu'
        exact absurd hu' (by decide)
      · obtain rfl := Except.ok.inj (hp.symm.trans hp')
        obtain ⟨hcc, -⟩ := Prod.mk.inj (hc.symm.trans hc')
        obtain rfl := Except.ok.inj hcc
        have hs := ((checkEntries_spec src base parsed.entries w).of_run hc).2
        exact (checks_earned_iff hr hs rfl).mp
          ⟨he.settled _ _ _ hp hc, he.held _ _ _ hp hc⟩
  · intro hns
    obtain ⟨hon, hans⟩ := hq.mpr hns.notWaiting
    by_cases hr : c.route = some .repoReview
    · rcases evidence_cases hr hb hev with ⟨h0, -⟩ | ⟨h0, parsed, hp, hu, rfl⟩ |
          ⟨h0, parsed, checks, hp, hu, hc, rfl⟩
      · rw [hns.reads hr] at h0
        exact absurd h0 (by decide)
      · have hnone : ∀ k ∈ evidenceCriteria, k ∉ (c.assess rt missingBlock).metCriteria := by
          intro k hk hm
          refine (met_of_review hr hk).mp hm ⟨.malformedFindings, by simp [missingBlock], ?_⟩
          simpa [evidenceCriteria, criterionForGap] using hk
        refine ⟨fun _ ↦ hnone, fun _ _ _ ↦ hnone, ?_, ?_, ?_, ?_⟩
        · exact fun _ _ _ _ _ hm ↦ absurd hm (hnone _ (by decide))
        · rintro _ _ _ _ _ (hm | hm)
          · exact absurd hm (hnone _ (by decide))
          · exact absurd hm (hnone _ (by decide))
        · exact fun hm ↦ ⟨(hon hm).1, fun ev t ht ↦ hrun ev t ht ▸ (hon hm).2⟩
        · exact fun hm ↦ ⟨(hans hm).1, fun ev t ht ↦ hrun ev t ht ▸ (hans hm).2⟩
      · have hs := ((checkEntries_spec src base parsed.entries w).of_run hc).2
        have hearned := (@checks_earned_iff rt c hr _ _ hs _ rfl).mpr (hns.agree hr _ _ _ hp hu hc)
        have hsame : ∀ parsed' checks' t, structuredFindings rt c.findingsSource = .ok parsed' →
            checkEntries src base repoReview parsed'.entries w = (.ok checks', t) →
              parsed' = parsed ∧ checks' = checks := by
          intro parsed' checks' t hp' hc'
          obtain rfl := Except.ok.inj (hp'.symm.trans hp)
          obtain ⟨hcc, -⟩ := Prod.mk.inj (hc'.symm.trans hc)
          exact ⟨rfl, Except.ok.inj hcc⟩
        refine ⟨fun he ↦ ?_, fun parsed' hp' hu' ↦ ?_, ?_, ?_, ?_, ?_⟩
        · rw [h0] at he
          exact absurd he (by decide)
        · obtain rfl := Except.ok.inj (hp'.symm.trans hp)
          rw [hu] at hu'
          exact absurd hu' (by decide)
        · intro parsed' checks' t hp' hc' hm
          obtain ⟨rfl, rfl⟩ := hsame _ _ _ hp' hc'
          exact hearned.1 hm
        · intro parsed' checks' t hp' hc' hm
          obtain ⟨rfl, rfl⟩ := hsame _ _ _ hp' hc'
          exact hearned.2 hm
        · exact fun hm ↦ ⟨(hon hm).1, fun ev t ht ↦ hrun ev t ht ▸ (hon hm).2⟩
        · exact fun hm ↦ ⟨(hans hm).1, fun ev t ht ↦ hrun ev t ht ▸ (hans hm).2⟩
    · -- no other route declares a criterion of the findings
      have hnone : ∀ k ∈ evidenceCriteria, k ∉ (c.assess rt evidence).metCriteria :=
        fun k hk hm ↦ hr ((mem_declared_of_evidence hk).mp (mem_metCriteria.mp hm).1)
      refine ⟨fun _ ↦ hnone, fun _ _ _ ↦ hnone, ?_, ?_, ?_, ?_⟩
      · exact fun _ _ _ _ _ hm ↦ absurd hm (hnone _ (by decide))
      · rintro _ _ _ _ _ (hm | hm)
        · exact absurd hm (hnone _ (by decide))
        · exact absurd hm (hnone _ (by decide))
      · exact fun hm ↦ ⟨(hon hm).1, fun ev t ht ↦ hrun ev t ht ▸ (hon hm).2⟩
      · exact fun hm ↦ ⟨(hans hm).1, fun ev t ht ↦ hrun ev t ht ▸ (hans hm).2⟩

/-! ## A review without sources

A review that has a base with nothing in it, which is graded without a single finding. -/

/-- A base that holds nothing, against which no finding can be checked. -/
def emptyBase : EvidenceBase where
  snapshot := ⟨str "s1", str "/repo"⟩
  observations := []
  readers := []
  sameSnapshot := by simp
  distinct := by simp

/-- A review that asserts one finding in prose, and holds no source. -/
def unreadCall : Call where
  task := []
  output := str "## Findings\n- x\n"
  iteration := 1
  maxIterations := 1
  route := some .repoReview
  observations := []
  evidenceBase := some emptyBase
  review := none
  resolvedPatterns := []
  structuredOutputRequired := false
  findingsSource := []

/-- What the call returns: a grade that says that no source was observed. -/
def unreadEvaluation : AtlasEvaluation :=
  unreadCall.assess asciiRuntime { gaps := [.noSourcesObserved] }

theorem evaluate_unreadCall :
    evaluate twoLineDisk asciiRuntime unreadCall () = (.ok unreadEvaluation, ()) := rfl

theorem earned_iff_unreadCall :
    evaluate twoLineDisk asciiRuntime unreadCall () = (.ok unreadEvaluation, ()) ∧
      (Earned twoLineDisk asciiRuntime unreadCall emptyBase () unreadEvaluation ↔
        NothingSlips twoLineDisk asciiRuntime unreadCall emptyBase ()) :=
  ⟨evaluate_unreadCall, earned_iff rfl evaluate_unreadCall⟩

/-- Nothing was read and nothing was checked, and all three criteria of the findings are met. -/
theorem unread_criteria_met :
    ¬ Earned twoLineDisk asciiRuntime unreadCall emptyBase () unreadEvaluation := by
  intro h
  have hmet : Criterion.claimsAreSettled ∈ unreadEvaluation.metCriteria := by decide
  have hbullet : unreadCall.uncheckable {} = [] := (h.settled {} [] () rfl rfl hmet).1
  have hx : unreadCall.uncheckable {} = [str "x"] := by decide
  rw [hx] at hbullet
  exact absurd hbullet (by decide)

end AtlasCore
