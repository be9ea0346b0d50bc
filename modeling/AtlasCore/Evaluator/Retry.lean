import AtlasCore.Evaluator.Coverage
import AtlasCore.Evaluator.Question

/-!
# What a retry is offered for

Whether the producer is offered another pass, and what has to happen first, are computed apart from
each other: the one from whether anything is left that a producer can repair, the other from the
first thing that is outstanding.  What is left to the producer, and what only the host can do, is
said here of the arguments of the call and of the findings that it checks, each with the statuses of
its citations and its own verdict (`Call.Repairs`, `Call.Stuck`, `Call.MissesQuestion`).

The two answers agree unless a plan target is unread while the producer has something to repair, or
no finding is on topic while a source is lost or was read in part (`retryHonest_iff`).
-/

set_option autoImplicit false

namespace AtlasCore

open Py

/-- What a result that offers another pass promises: the next action is the producer's, who can do
it with what the run holds, and no source is lost. -/
structure RetryHonest (e : AtlasEvaluation) : Prop where
  possible : e.shouldRetry = true → e.retryIsPossible = true
  act : e.retryIsPossible = true → ∃ action, e.nextAction = some action ∧
    action.kind.isInvestigation = false ∧ action.actor = .producer
  unblocked : e.retryIsPossible = true → e.blockedBy = []

section
variable {W : Type} (src : Sources W) (rt : Runtime) (c : Call) (w : W) (evidence : Evidence)

/-- `off_topic`: the findings hold, and none is about what was asked. -/
def Call.offTopic : Bool :=
  .noOnTopicFinding ∈ c.gapCodes rt evidence || .noAnsweringFinding ∈ c.gapCodes rt evidence

/-- What the evidence leaves open, or else the sections, another pass could repair. -/
def Call.repairable : Bool :=
  if !evidence.gaps.isEmpty then evidence.actionable else !(missingSections c.output).isEmpty

/-! ## What is left to do

The findings of a call are those of a review that has a base with something in it and a block that
can be read.  Without a base the bullets of the output are looked at, and nothing is checked. -/

/-- The findings of the call, checked against its base. -/
structure Call.Checks (base : EvidenceBase) (parsed : ParsedFindings)
    (checks : List CheckedFinding) : Prop where
  onReview : c.route = some .repoReview
  grounded : c.evidenceBase = some base
  graded : EntriesChecked src rt base c.structuredOutputRequired c.findingsSource w parsed checks

/-- A finding of the answer rests on a source that no other wording can repair. -/
def Call.restsOnLost : Prop :=
  ∃ base parsed checks, c.Checks src rt w base parsed checks ∧
    ∃ f ∈ checks, ∃ s ∈ f.check.statuses, s.2 ≠ .intact ∧ s.2.isRequotable = false

/-- The bullets of the output, which are its findings where there is no block of them. -/
def Call.bullets : List Str := findingsIn c.output repoReview.findingHeadings

/-- A block was asked for, and there is none. -/
def Call.LacksBlock : Prop :=
  c.structuredOutputRequired = true ∧
    ∃ parsed, structuredFindings rt c.findingsSource = .ok parsed ∧ parsed.present = false

/-- Enough of the bullets name a source that was observed. -/
def Call.NamesSources : Prop :=
  repoReview.minCoverage ≤ rt.hundredths
    (c.bullets.length -
      (c.bullets.filter fun b ↦ !citesASource b (observedSources c.observations)).length)
    c.bullets.length

/-- The block or a finding of a review with a base is at fault. -/
inductive Call.FaultyFindings : Prop where
  /-- The block is unreadable, or was asked for and is not there. -/
  | block {base : EvidenceBase} {parsed : ParsedFindings} :
    c.route = some .repoReview → c.evidenceBase = some base → base.isEmpty = false →
      structuredFindings rt c.findingsSource = .ok parsed → c.unreadable parsed = true →
        FaultyFindings
  /-- A bullet that no claim of the block equals. -/
  | bullet {base : EvidenceBase} {parsed : ParsedFindings} {checks : List CheckedFinding} :
    c.Checks src rt w base parsed checks → c.uncheckable parsed ≠ [] → FaultyFindings
  /-- A citation that does not hold. -/
  | citation {base : EvidenceBase} {parsed : ParsedFindings} {checks : List CheckedFinding}
    {f : CheckedFinding} :
    c.Checks src rt w base parsed checks → f ∈ checks → f.isSound = false → FaultyFindings
  /-- A claim that was not verified. -/
  | claim {base : EvidenceBase} {parsed : ParsedFindings} {checks : List CheckedFinding}
    {f : CheckedFinding} :
    c.Checks src rt w base parsed checks → IsLast checks f → f.isVerified = false → FaultyFindings

/-- What another pass of the producer could repair. -/
inductive Call.Repairs : Prop where
  | findings : c.FaultyFindings src rt w → Repairs
  /-- Without findings, the heading of the sources is missing. -/
  | heading {base : EvidenceBase} {parsed : ParsedFindings} :
    c.Checks src rt w base parsed [] → contains repoReview.evidenceHeading c.output = false →
      Repairs
  /-- The same, or the block or the sources of the bullets, where there is no base. -/
  | bare : c.route = some .repoReview → c.evidenceBase = none →
      c.LacksBlock rt ∨
        (c.bullets = [] ∧ contains repoReview.evidenceHeading c.output = false) ∨
        (c.bullets ≠ [] ∧ ¬ c.NamesSources rt) → Repairs
  | sections : missingSections c.output ≠ [] → Repairs

/-- What no wording closes: the sources are gone, were never read, or cannot be compared with what
is said about them. -/
inductive Call.Stuck : Prop where
  | lost : c.restsOnLost src rt w → Stuck
  /-- Nothing was observed. -/
  | unobserved : c.route = some .repoReview →
      (c.evidenceBase = none ∧ observedSources c.observations = []) ∨
        (∃ base, c.evidenceBase = some base ∧ base.isEmpty = true) → Stuck
  /-- The bullets name sources, and there is no base to compare them with. -/
  | unchecked : c.route = some .repoReview → c.evidenceBase = none → ¬ c.LacksBlock rt →
      c.bullets ≠ [] → c.NamesSources rt → Stuck

/-- A finding that decides for its id was settled in its favour, on a source that the plan named and
with such a text. -/
def Call.Settles (review : ReviewPlan) (P : Str → Prop) : Prop :=
  ∃ base parsed checks, c.Checks src rt w base parsed checks ∧
    ∃ f, IsLast checks f ∧ ∃ claim, SettledOnTopic base review f claim ∧ P claim.text

/-- The plan was read, and nothing that was settled is about its question, or answers it. -/
def Call.MissesQuestion : Prop :=
  ∃ review base, c.review = some review ∧ c.evidenceBase = some base ∧ review.narrowed = true ∧
    c.waitingOn = [] ∧ (¬ c.Settles src rt w review (fun _ ↦ True) ∨
      review.answering ≠ [] ∧ ¬ c.Settles src rt w review (answersQuestion rt review · = true))

/-- The condition on a call: an unread plan target leaves the producer nothing to repair, or leaves
it stuck; and where the question is missed, no source is lost, and one that was read in part comes
with findings that have to be repaired first. -/
structure ProducerActs : Prop where
  unread : c.waitingOn ≠ [] → c.Repairs src rt w → c.Stuck src rt w
  lost : c.MissesQuestion src rt w → ¬ c.restsOnLost src rt w
  partlyRead : c.MissesQuestion src rt w → ∀ review, c.review = some review →
    nextPartialWindows c.evidenceBase review ≠ [] → c.FaultyFindings src rt w

/-- The same of the grade of its evidence. -/
structure GradeActs : Prop where
  waiting : c.waitingOn ≠ [] → (∃ k ∈ c.declared, k ∈ c.blamed rt evidence) →
    c.repairable evidence = false
  lost : c.offTopic rt evidence = true → ¬ c.restsOnLost src rt w
  partlyRead : c.offTopic rt evidence = true → ∀ review, c.review = some review →
    nextPartialWindows c.evidenceBase review ≠ [] → ∃ g ∈ evidence.gaps, g ≠ .sourcesNotDocumented

end

/-! ## The next action

Which action is chosen, by the gaps and in the order in which the source goes through them. -/

section
variable {gaps : List Section} {evidence : Evidence} {sources : List Str}
  {base : Option EvidenceBase} {review : Option ReviewPlan} {waitingOn : List Str} {offTopic : Bool}

/-- An action on an unread target is the host's. -/
theorem chooseAction_waiting (h : waitingOn ≠ []) :
    (chooseAction gaps evidence sources base review waitingOn offTopic).1 = .observeAgain := by
  unfold chooseAction
  exact congrArg Prod.fst (if_pos h)

variable (gaps sources) in
/-- Where the host has nothing to do, the next action is the producer's. -/
theorem chooseAction_producer (hwaiting : waitingOn = [])
    (hchecked : .claimsNotChecked ∉ evidence.gaps)
    (hblocked : evidence.blockedBy = [])
    (hread : offTopic = true → ∀ plan, review = some plan → nextPartialWindows base plan ≠ [] →
      ∃ g ∈ evidence.gaps, g ≠ .sourcesNotDocumented) :
    (chooseAction gaps evidence sources base review waitingOn offTopic).1.isInvestigation = false ∧
      (chooseAction gaps evidence sources base review waitingOn offTopic).2.1 = .producer := by
  have hnone : ∀ windows : List WindowRequest,
      (windows ≠ [] → ∃ g ∈ evidence.gaps, g ≠ .sourcesNotDocumented) →
        ¬ (windows ≠ [] ∧ (evidence.gaps.all fun g ↦ g = .sourcesNotDocumented) = true) := by
    rintro windows hgap ⟨hne, hall⟩
    obtain ⟨g, hg, hother⟩ := hgap hne
    exact hother (of_decide_eq_true (List.all_eq_true.mp hall g hg))
  unfold chooseAction
  dsimp only
  rw [if_neg (not_not.mpr hwaiting), if_neg hchecked, if_neg (not_not.mpr hblocked)]
  by_cases hmalformed : .malformedFindings ∈ evidence.gaps
  · rw [if_pos hmalformed]
    exact ⟨rfl, rfl⟩
  rw [if_neg hmalformed]
  cases review with
  | none =>
    dsimp only
    rw [if_neg (hnone [] fun h ↦ absurd rfl h)]
    split_ifs <;> exact ⟨rfl, rfl⟩
  | some plan =>
    dsimp only
    cases offTopic with
    | false =>
      simp only [Bool.false_eq_true, ↓reduceIte]
      rw [if_neg (hnone [] fun h ↦ absurd rfl h)]
      split_ifs <;> exact ⟨rfl, rfl⟩
    | true =>
      simp only [↓reduceIte]
      rw [if_neg (hnone _ (hread rfl plan rfl))]
      split_ifs <;> exact ⟨rfl, rfl⟩

/-- Where nothing but the heading of the sources is missing, and a source was read in part, the host
is to read on. -/
theorem chooseAction_windows (hmalformed : .malformedFindings ∉ evidence.gaps)
    (hrefuted : ∀ r ∈ evidence.citationChecks, ∀ v, r.claimCheck = some v →
      v.result ≠ .contradicted ∧ v.result ≠ .claimTextMismatch)
    (hsound : ∀ r ∈ evidence.citationChecks, r.citationsAreSound = true)
    (hgaps : ∀ g ∈ evidence.gaps, g = .sourcesNotDocumented) {plan : ReviewPlan}
    (hwindows : nextPartialWindows base plan ≠ []) :
    (chooseAction gaps evidence sources base (some plan) waitingOn true).1 = .observeAgain := by
  have hnone : ∀ {α : Type} (result : ClaimResult)
      (get : CitationRecord → ClaimVerdict → α), result = .contradicted ∨
        result = .claimTextMismatch →
        recordsWithResult evidence result get = [] := by
    intro α result get hresult
    rw [recordsWithResult, List.filterMap_eq_nil_iff]
    intro r hr
    cases hv : r.claimCheck with
    | none => rfl
    | some v =>
      have hne : v.result ≠ result := by
        rcases hresult with rfl | rfl
        · exact (hrefuted r hr v hv).1
        · exact (hrefuted r hr v hv).2
      exact if_neg hne
  have hunsound : (evidence.citationChecks.filter fun r ↦ !r.citationsAreSound) = [] := by
    rw [List.filter_eq_nil_iff]
    intro r hr
    rw [hsound r hr]
    exact Bool.false_ne_true
  have hall : (evidence.gaps.all fun g ↦ g = .sourcesNotDocumented) = true :=
    List.all_eq_true.mpr fun g hg ↦ decide_eq_true (hgaps g hg)
  unfold chooseAction
  simp only [↓reduceIte, hnone .contradicted _ (.inl rfl), hnone .claimTextMismatch _ (.inr rfl),
    hunsound, List.map_nil, ne_eq, not_true_eq_false, hmalformed, hwindows, not_false_eq_true, hall,
    and_self]
  split_ifs <;> rfl

end

/-! ## What a grade can be

The grades that a call can return, as far as its next action depends on them. -/

section
variable {rt : Runtime} {contract : RouteEvaluator} {output : Str} {uncheckable : List Str}
  {checks : List CheckedFinding}

theorem mem_blockingStatuses {unsound : List CheckedFinding} {s : EvidenceStatus} :
    s ∈ blockingStatuses unsound ↔
      (∃ f ∈ unsound, ∃ p ∈ f.check.statuses, p.2 = s) ∧ s ≠ .intact ∧ s.isRequotable = false := by
  simp only [blockingStatuses, List.mem_flatMap, List.mem_filter, List.mem_map, Bool.and_eq_true,
    decide_eq_true_eq, Bool.not_eq_true']
  constructor
  · rintro ⟨f, hf, ⟨p, hp, hs⟩, hlost⟩
    exact ⟨⟨f, hf, p, hp, hs⟩, hlost⟩
  · rintro ⟨⟨f, hf, p, hp, hs⟩, hlost⟩
    exact ⟨f, hf, ⟨p, hp, hs⟩, hlost⟩

/-- A finding with a status that is not intact is unsound. -/
theorem isSound_of_status {f : CheckedFinding} {p : Str × EvidenceStatus}
    (hp : p ∈ f.check.statuses) (hs : p.2 ≠ .intact) : f.isSound = false := by
  rw [CheckedFinding.isSound, EvidenceCheck.citationsAreSound, Bool.and_eq_false_iff]
  refine .inr (List.all_eq_false.mpr ⟨p, hp, ?_⟩)
  rw [decide_eq_true_eq]
  exact hs

/-- A source is lost exactly where some citation cannot be written again. -/
theorem blockingStatuses_ne_nil : blockingStatuses (checks.filter fun f ↦ !f.isSound) ≠ [] ↔
    ∃ f ∈ checks, ∃ p ∈ f.check.statuses, p.2 ≠ .intact ∧ p.2.isRequotable = false := by
  constructor
  · intro h
    obtain ⟨s, hs⟩ := List.exists_mem_of_ne_nil _ h
    obtain ⟨⟨f, hf, p, hp, rfl⟩, hlost⟩ := mem_blockingStatuses.mp hs
    exact ⟨f, (List.mem_filter.mp hf).1, p, hp, hlost⟩
  · rintro ⟨f, hf, p, hp, hlost⟩
    refine List.ne_nil_of_mem (mem_blockingStatuses.mpr ⟨⟨f, ?_, p, hp, rfl⟩, hlost⟩)
    rw [List.mem_filter, isSound_of_status hp hlost.1]
    exact ⟨hf, rfl⟩

/-- Nothing blocks a grade without a lost source. -/
theorem blockedBy_gradeChecks_nil
    (h : blockingStatuses (checks.filter fun f ↦ !f.isSound) = []) :
    (gradeChecks rt contract output uncheckable checks).blockedBy = [] := by
  rw [gradeChecks]
  simp only [h, List.map_nil, List.dedup_nil, List.insertionSort_nil]
  split_ifs <;> rfl

/-- A lost source blocks a grade, and leaves nothing to repair. -/
theorem blocked_gradeChecks (h : blockingStatuses (checks.filter fun f ↦ !f.isSound) ≠ []) :
    (gradeChecks rt contract output uncheckable checks).blockedBy ≠ [] ∧
      (gradeChecks rt contract output uncheckable checks).gaps ≠ [] ∧
      (gradeChecks rt contract output uncheckable checks).actionable = false := by
  obtain ⟨f, hf, p, hp, hlost⟩ := blockingStatuses_ne_nil.mp h
  have hunsound : .unsoundCitations ∈ (gradeChecks rt contract output uncheckable checks).gaps :=
    mem_gaps_gradeChecks.mpr (.inr (.inr (.inl ⟨rfl, f, hf, isSound_of_status hp hlost.1⟩)))
  have hsome : (checks.isEmpty && uncheckable.isEmpty) = false := by
    rw [Bool.and_eq_false_iff, List.isEmpty_eq_false_iff]
    exact .inl (List.ne_nil_of_mem hf)
  have hfiltered : (checks.filter fun f ↦ !f.isSound).isEmpty = false := by
    rw [List.isEmpty_eq_false_iff]
    intro hnil
    rw [hnil] at h
    exact h rfl
  have hstatus : ((blockingStatuses (checks.filter fun f ↦ !f.isSound)).map (·.value)).isEmpty =
      false := by
    rw [List.isEmpty_eq_false_iff, ne_eq, List.map_eq_nil_iff]
    exact h
  refine ⟨?_, List.ne_nil_of_mem hunsound, ?_⟩
  · obtain ⟨s, hs⟩ := List.exists_mem_of_ne_nil _ h
    refine List.ne_nil_of_mem (a := s.value) ?_
    rw [gradeChecks]
    simp only [hsome, hfiltered, Bool.false_eq_true, ↓reduceIte]
    rw [if_neg (by simp)]
    exact (List.mem_insertionSort _).mpr (List.mem_dedup.mpr (List.mem_map_of_mem hs))
  · rw [gradeChecks]
    simp only [hsome, hfiltered, hstatus, Bool.false_eq_true, ↓reduceIte]
    rw [if_neg (by simp)]
    rfl

/-- Nothing but a lost source keeps what was found from being repaired. -/
theorem actionable_gradeChecks
    (h : (gradeChecks rt contract output uncheckable checks).gaps ≠ [])
    (hlost : blockingStatuses (checks.filter fun f ↦ !f.isSound) = []) :
    (gradeChecks rt contract output uncheckable checks).actionable = true := by
  obtain ⟨g, hg⟩ := List.exists_mem_of_ne_nil _ h
  rcases mem_gaps_gradeChecks.mp hg with ⟨-, rfl, rfl, hheading⟩ | hfound
  · rw [gradeChecks]
    simp [hheading]
  have hrepair : (!uncheckable.isEmpty || !(checks.filter fun f ↦ !f.isSound).isEmpty ||
      !(withResult checks .contradicted).isEmpty ||
        !(uncheckedOf checks ++ withResult checks .claimTextMismatch).isEmpty) = true := by
    simp only [Bool.or_eq_true, Bool.not_eq_true', List.isEmpty_eq_false_iff, ne_eq,
      List.append_eq_nil_iff, List.filter_eq_nil_iff]
    rcases hfound with ⟨-, hbullets⟩ | ⟨-, f, hf, hunsound⟩ | ⟨-, hrefuted⟩ | ⟨-, hmismatched⟩ |
      ⟨-, hunchecked⟩
    · exact .inl (.inl (.inl hbullets))
    · exact .inl (.inl (.inr fun hall ↦ hall f hf hunsound))
    · exact .inl (.inr hrefuted)
    · exact .inr fun hnil ↦ hmismatched hnil.2
    · exact .inr fun hnil ↦ hunchecked hnil.1
  have hsome : (checks.isEmpty && uncheckable.isEmpty) = false := by
    rw [Bool.eq_false_iff]
    intro hnone
    obtain ⟨hchecks, hbullets⟩ := Bool.and_eq_true_iff.mp hnone
    obtain rfl := List.isEmpty_iff.mp hchecks
    obtain rfl := List.isEmpty_iff.mp hbullets
    exact Bool.false_ne_true hrepair
  rw [gradeChecks, hsome] at h ⊢
  dsimp only at h ⊢
  rw [if_neg Bool.false_ne_true] at h ⊢
  rw [if_neg]
  · rw [hlost]
    exact hrepair
  · intro hgaps
    rw [if_pos hgaps] at h
    exact h rfl

/-- Records without a gap but the missing heading refute nothing, and their citations hold. -/
theorem settled_gradeChecks
    (h : ∀ g ∈ (gradeChecks rt contract output uncheckable checks).gaps,
      g = .sourcesNotDocumented) :
    ∀ r ∈ (gradeChecks rt contract output uncheckable checks).citationChecks,
      r.citationsAreSound = true ∧ ∀ v, r.claimCheck = some v →
        v.result ≠ .contradicted ∧ v.result ≠ .claimTextMismatch := by
  have hno : ∀ g, g ≠ .sourcesNotDocumented →
      g ∉ (gradeChecks rt contract output uncheckable checks).gaps := fun g hne hg ↦ hne (h g hg)
  intro r hr
  obtain ⟨f, hf, rfl⟩ := mem_citationChecks_gradeChecks hr
  refine ⟨?_, fun v hv ↦ ⟨fun hresult ↦ ?_, fun hresult ↦ ?_⟩⟩
  · by_contra hunsound
    exact hno .unsoundCitations (by decide) (mem_gaps_gradeChecks.mpr
      (.inr (.inr (.inl ⟨rfl, f, hf, Bool.eq_false_iff.mpr hunsound⟩))))
  · exact hno .contradictedFindings (by decide) (mem_gaps_gradeChecks.mpr
      (.inr
        (.inr (.inr (.inl ⟨rfl, List.ne_nil_of_mem (mem_withResult.mpr ⟨hf, v, hv, hresult⟩)⟩)))))
  · exact hno .claimTextMismatch (by decide) (mem_gaps_gradeChecks.mpr (.inr (.inr (.inr (.inr
      (.inl ⟨rfl, List.ne_nil_of_mem (mem_withResult.mpr ⟨hf, v, hv, hresult⟩)⟩))))))

end

section
variable {W : Type} {src : Sources W} {rt : Runtime} {c : Call} {w w' : W} {evidence : Evidence}

variable (src rt c w evidence) in
/-- What every grade of a call's evidence says. -/
structure GradeFacts : Prop where
  ofEvidence : ∀ g ∈ evidence.gaps, g.isOfEvidence = true
  /-- Only a call without a base is graded without a check, and it cannot be repaired. -/
  notChecked : .claimsNotChecked ∈ evidence.gaps →
    evidence.actionable = false ∧ c.evidenceBase = none
  blocked : evidence.blockedBy ≠ [] ↔ c.restsOnLost src rt w
  stops : evidence.blockedBy ≠ [] → evidence.gaps ≠ [] ∧ evidence.actionable = false
  settled : (∀ g ∈ evidence.gaps, g = .sourcesNotDocumented) →
    ∀ r ∈ evidence.citationChecks, r.citationsAreSound = true ∧ ∀ v, r.claimCheck = some v →
      v.result ≠ .contradicted ∧ v.result ≠ .claimTextMismatch

/-- A grade without checks. -/
theorem GradeFacts.of_unchecked (hof : ∀ g ∈ evidence.gaps, g.isOfEvidence = true)
    (hnot : .claimsNotChecked ∈ evidence.gaps →
      evidence.actionable = false ∧ c.evidenceBase = none)
    (hblocked : evidence.blockedBy = []) (hrecords : evidence.citationChecks = [])
    (hlost : ¬ c.restsOnLost src rt w) : GradeFacts src rt c w evidence where
  ofEvidence := hof
  notChecked := hnot
  blocked := iff_of_false (not_not.mpr hblocked) hlost
  stops := fun h ↦ absurd hblocked h
  settled := fun _ r hr ↦ by
    rw [hrecords] at hr
    cases hr

/-- The checks of a call are one list. -/
theorem Call.Checks.unique {base base' : EvidenceBase} {parsed parsed' : ParsedFindings}
    {checks checks' : List CheckedFinding} (h : c.Checks src rt w base parsed checks)
    (h' : c.Checks src rt w base' parsed' checks') :
    base = base' ∧ parsed = parsed' ∧ checks = checks' := by
  obtain rfl := Option.some.inj (h.grounded.symm.trans h'.grounded)
  obtain rfl := Except.ok.inj (h.graded.reads.symm.trans h'.graded.reads)
  exact ⟨rfl, rfl, Except.ok.inj (h.graded.checked.symm.trans h'.graded.checked)⟩

/-- What is lost is told by the checks of the call. -/
theorem restsOnLost_iff {base : EvidenceBase} {parsed : ParsedFindings}
    {checks : List CheckedFinding} (hchecks : c.Checks src rt w base parsed checks) :
    c.restsOnLost src rt w ↔
      ∃ f ∈ checks, ∃ s ∈ f.check.statuses, s.2 ≠ .intact ∧ s.2.isRequotable = false := by
  constructor
  · rintro ⟨base', parsed', checks', hchecks', hlost⟩
    obtain ⟨-, -, rfl⟩ := hchecks.unique hchecks'
    exact hlost
  · exact fun h ↦ ⟨base, parsed, checks, hchecks, h⟩

/-- A grade without a base ends in one of these ways. -/
theorem gradeCitations_cases (hr : c.route = some .repoReview) (hb : c.evidenceBase = none)
    (h : c.evidence src rt w = (.ok evidence, w')) :
    (observedSources c.observations = [] ∧ evidence = { gaps := [.noSourcesObserved] }) ∨
    (observedSources c.observations ≠ [] ∧ c.LacksBlock rt ∧ evidence = missingBlock) ∨
    (observedSources c.observations ≠ [] ∧ ¬ c.LacksBlock rt ∧ c.bullets = [] ∧
      ((contains repoReview.evidenceHeading c.output = false ∧
          evidence = { gaps := [.sourcesNotDocumented], actionable := true }) ∨
        (contains repoReview.evidenceHeading c.output = true ∧ evidence = { gaps := [] }))) ∨
    (observedSources c.observations ≠ [] ∧ ¬ c.LacksBlock rt ∧ c.bullets ≠ [] ∧
      ∃ unverified coverage,
        (¬ c.NamesSources rt ∧ evidence =
          { gaps := [.uncitedFindings], unverified, coverage, actionable := true }) ∨
        (c.NamesSources rt ∧
          evidence = { gaps := [.claimsNotChecked], unverified, coverage })) := by
  rw [Call.evidence, hr, hb, routeEvaluator_repoReview, gradeEvidence] at h
  obtain ⟨h, -⟩ := Eff.ofExcept_eq_ok.mp h
  rw [gradeCitations] at h
  by_cases hnone : (repoReview.requiresSources && (observedSources c.observations).isEmpty) = true
  · rw [if_pos hnone] at h
    exact .inl ⟨List.isEmpty_iff.mp (Bool.and_eq_true_iff.mp hnone).2, (Except.ok.inj h).symm⟩
  have hsources : observedSources c.observations ≠ [] := fun hnil ↦ hnone (by rw [hnil]; rfl)
  rw [if_neg hnone] at h
  dsimp only at h
  -- whether a block is absent is asked only where one is required
  obtain ⟨absent, habsent, h⟩ : ∃ absent : Bool, (absent = true ↔ c.LacksBlock rt) ∧
      _ = Except.ok evidence := by
    by_cases hrequired : c.structuredOutputRequired = true
    · rw [if_pos hrequired] at h
      obtain ⟨absent, hread, h⟩ := Except.bind_eq_ok.mp h
      refine ⟨absent, ?_, h⟩
      cases hparsed : structuredFindings rt c.findingsSource with
      | error e =>
        rw [hparsed] at hread
        cases hread
      | ok parsed =>
        rw [hparsed] at hread
        obtain rfl := Except.ok.inj hread
        rw [Bool.not_eq_true']
        refine ⟨fun hpresent ↦ ⟨hrequired, parsed, hparsed, hpresent⟩, ?_⟩
        rintro ⟨-, parsed', hparsed', hpresent⟩
        obtain rfl := Except.ok.inj (hparsed.symm.trans hparsed')
        exact hpresent
    · rw [if_neg hrequired] at h
      exact ⟨false, iff_of_false Bool.false_ne_true fun hlacks ↦ hrequired hlacks.1, h⟩
  cases absent with
  | true => exact .inr (.inl ⟨hsources, habsent.mp rfl, (Except.ok.inj h).symm⟩)
  | false =>
    have hlacks : ¬ c.LacksBlock rt := fun hlacks ↦ Bool.false_ne_true (habsent.mpr hlacks)
    dsimp only at h
    rw [if_neg Bool.false_ne_true, ← Call.bullets] at h
    by_cases hbullets : c.bullets = []
    · rw [if_pos (List.isEmpty_iff.mpr hbullets)] at h
      refine .inr (.inr (.inl ⟨hsources, hlacks, hbullets, ?_⟩))
      cases hheading : contains repoReview.evidenceHeading c.output with
      | false =>
        rw [hheading] at h
        exact .inl ⟨rfl, (Except.ok.inj h).symm⟩
      | true =>
        rw [hheading] at h
        exact .inr ⟨rfl, (Except.ok.inj h).symm⟩
    · rw [if_neg (List.isEmpty_iff.not.mpr hbullets)] at h
      refine .inr (.inr (.inr ⟨hsources, hlacks, hbullets, ?_⟩))
      split_ifs at h with hfew
      · exact ⟨_, _, .inl ⟨not_le.mpr hfew, (Except.ok.inj h).symm⟩⟩
      · exact ⟨_, _, .inr ⟨not_lt.mp hfew, (Except.ok.inj h).symm⟩⟩

/-- **What every grade says**, whatever the route and the evidence. -/
theorem gradeFacts (h : c.evidence src rt w = (.ok evidence, w')) :
    GradeFacts src rt c w evidence := by
  by_cases hr : c.route = some .repoReview
  · cases hb : c.evidenceBase with
    | none =>
      have hlost : ¬ c.restsOnLost src rt w := by
        rintro ⟨_, _, _, hchecks, -⟩
        have hgrounded := hchecks.grounded
        rw [hb] at hgrounded
        cases hgrounded
      rcases gradeCitations_cases hr hb h with ⟨-, rfl⟩ | ⟨-, -, rfl⟩ |
        ⟨-, -, -, ⟨-, rfl⟩ | ⟨-, rfl⟩⟩ | ⟨-, -, -, _, _, ⟨-, rfl⟩ | ⟨-, rfl⟩⟩ <;>
        exact .of_unchecked (by simp [missingBlock, Gap.isOfEvidence]) (by simp [missingBlock, hb])
          rfl rfl hlost
    | some base =>
      have hof := gaps_ofEvidence hb h
      rcases evidence_cases hr hb h with ⟨hempty, rfl⟩ | ⟨-, parsed, hreads, hunreadable, rfl⟩ |
        ⟨hempty, parsed, checks, hreads, hreadable, hchecked, rfl⟩
      · refine .of_unchecked hof (fun h ↦ absurd h (by decide)) rfl rfl ?_
        rintro ⟨base', _, _, hchecks, -⟩
        obtain rfl := Option.some.inj (hb.symm.trans hchecks.grounded)
        rw [hchecks.graded.notEmpty] at hempty
        cases hempty
      · refine .of_unchecked hof (fun h ↦ absurd h (by decide)) rfl rfl ?_
        rintro ⟨base', parsed', _, hchecks, -⟩
        obtain rfl := Except.ok.inj (hreads.symm.trans hchecks.graded.reads)
        rw [Call.unreadable, hchecks.graded.readable] at hunreadable
        cases hunreadable
      · have hchecks : c.Checks src rt w base parsed checks :=
          ⟨hr, hb, hempty, hreads, hreadable, by rw [hchecked]⟩
        have hlost := (restsOnLost_iff hchecks).trans blockingStatuses_ne_nil.symm
        refine ⟨hof, fun hg ↦ ?_, ?_, ?_, settled_gradeChecks⟩
        · exact absurd (mem_gaps_gradeChecks.mp hg) (by simp)
        · rw [hlost]
          refine ⟨fun hblocked hnil ↦ hblocked (blockedBy_gradeChecks_nil hnil), fun hblocking ↦ ?_⟩
          exact (blocked_gradeChecks hblocking).1
        · intro hblocked
          exact (blocked_gradeChecks fun hnil ↦ hblocked (blockedBy_gradeChecks_nil hnil)).2
  · rw [Call.evidence, routeEvaluator_eq_none hr, gradeEvidence] at h
    obtain ⟨rfl, -⟩ := Eff.pure_eq_ok.mp h
    refine .of_unchecked (fun _ hg ↦ absurd hg List.not_mem_nil)
      (fun hg ↦ absurd hg List.not_mem_nil) rfl rfl ?_
    rintro ⟨_, _, _, hchecks, -⟩
    exact hr hchecks.onReview

/-! ## What is left, told by the grade

What a producer could still repair and what nobody could, read off the grade. -/

theorem Call.FaultyFindings.onReview (h : c.FaultyFindings src rt w) :
    c.route = some .repoReview := by
  cases h with
  | block hr => exact hr
  | bullet hchecks => exact hchecks.onReview
  | citation hchecks => exact hchecks.onReview
  | claim hchecks => exact hchecks.onReview

theorem Call.FaultyFindings.grounded (h : c.FaultyFindings src rt w) : c.evidenceBase ≠ none := by
  cases h with
  | block _ hb => rw [hb]; exact Option.some_ne_none _
  | bullet hchecks => rw [hchecks.grounded]; exact Option.some_ne_none _
  | citation hchecks => rw [hchecks.grounded]; exact Option.some_ne_none _
  | claim hchecks => rw [hchecks.grounded]; exact Option.some_ne_none _

theorem Call.Stuck.onReview (h : c.Stuck src rt w) : c.route = some .repoReview := by
  cases h with
  | lost h =>
    obtain ⟨_, _, _, hchecks, -⟩ := h
    exact hchecks.onReview
  | unobserved hr => exact hr
  | unchecked hr => exact hr

theorem Call.Checks.ownWhereSound {base : EvidenceBase} {parsed : ParsedFindings}
    {checks : List CheckedFinding} (h : c.Checks src rt w base parsed checks) :
    OwnWhereSound checks ∧ ∀ f ∈ checks, ∀ v, f.own = some v →
      NamesItsSource base.observations f.entry.typed v := by
  have hrun : checkEntries src base repoReview parsed.entries w =
      (.ok checks, (checkEntries src base repoReview parsed.entries w).2) :=
    Prod.ext h.graded.checked rfl
  exact ⟨((checkEntries_spec src base parsed.entries w).of_run hrun).2,
    (checkEntries_names src base parsed.entries w).of_run hrun⟩

/-- What is at fault in findings that were checked. -/
theorem faultyFindings_iff {base : EvidenceBase} {parsed : ParsedFindings}
    {checks : List CheckedFinding} (h : c.Checks src rt w base parsed checks) :
    c.FaultyFindings src rt w ↔ c.uncheckable parsed ≠ [] ∨ (∃ f ∈ checks, f.isSound = false) ∨
      ¬ NoComplaint checks := by
  have hclaims : ¬ NoComplaint checks ↔ ∃ f, IsLast checks f ∧ f.isVerified = false := by
    rw [noComplaint_iff h.ownWhereSound.1]
    push Not
    simp only [ne_eq, Bool.not_eq_true]
  rw [hclaims]
  constructor
  · intro hfaulty
    cases hfaulty with
    | block _ hb hempty hreads hunreadable =>
      obtain rfl := Option.some.inj (hb.symm.trans h.grounded)
      obtain rfl := Except.ok.inj (hreads.symm.trans h.graded.reads)
      rw [Call.unreadable, h.graded.readable] at hunreadable
      cases hunreadable
    | bullet h' hbullets =>
      obtain ⟨-, rfl, -⟩ := h.unique h'
      exact .inl hbullets
    | citation h' hf hunsound =>
      obtain ⟨-, -, rfl⟩ := h.unique h'
      exact .inr (.inl ⟨_, hf, hunsound⟩)
    | claim h' hlast hopen =>
      obtain ⟨-, -, rfl⟩ := h.unique h'
      exact .inr (.inr ⟨_, hlast, hopen⟩)
  · rintro (hbullets | ⟨f, hf, hunsound⟩ | ⟨f, hlast, hopen⟩)
    · exact .bullet h hbullets
    · exact .citation h hf hunsound
    · exact .claim h hlast hopen

/-- Where findings were checked, every gap but the missing heading is a fault of them. -/
theorem faulty_gradeChecks {base : EvidenceBase} {parsed : ParsedFindings}
    {checks : List CheckedFinding} (h : c.Checks src rt w base parsed checks) :
    (∃ g ∈ (gradeChecks rt repoReview c.output (c.uncheckable parsed) checks).gaps,
      g ≠ .sourcesNotDocumented) ↔ c.FaultyFindings src rt w := by
  have hcomplaint : ¬ NoComplaint checks ↔ withResult checks .contradicted ≠ [] ∨
      withResult checks .claimTextMismatch ≠ [] ∨ uncheckedOf checks ≠ [] := by
    simp only [NoComplaint, ne_eq]
    tauto
  rw [faultyFindings_iff h, hcomplaint]
  simp only [mem_gaps_gradeChecks]
  constructor
  · rintro ⟨g, ⟨rfl, -⟩ | ⟨rfl, h⟩ | ⟨rfl, h⟩ | ⟨rfl, h⟩ | ⟨rfl, h⟩ | ⟨rfl, h⟩, hne⟩
    · exact absurd rfl hne
    · exact .inl h
    · exact .inr (.inl h)
    · exact .inr (.inr (.inl h))
    · exact .inr (.inr (.inr (.inl h)))
    · exact .inr (.inr (.inr (.inr h)))
  · rintro (h | h | h | h | h)
    · exact ⟨_, .inr (.inl ⟨rfl, h⟩), by decide⟩
    · exact ⟨_, .inr (.inr (.inl ⟨rfl, h⟩)), by decide⟩
    · exact ⟨_, .inr (.inr (.inr (.inl ⟨rfl, h⟩))), by decide⟩
    · exact ⟨_, .inr (.inr (.inr (.inr (.inl ⟨rfl, h⟩)))), by decide⟩
    · exact ⟨_, .inr (.inr (.inr (.inr (.inr ⟨rfl, h⟩)))), by decide⟩

/-- A gap is left where the findings are at fault, or there are none and no heading. -/
theorem gaps_gradeChecks_ne_nil {base : EvidenceBase} {parsed : ParsedFindings}
    {checks : List CheckedFinding} (h : c.Checks src rt w base parsed checks) :
    (gradeChecks rt repoReview c.output (c.uncheckable parsed) checks).gaps ≠ [] ↔
      c.FaultyFindings src rt w ∨
        (checks = [] ∧ contains repoReview.evidenceHeading c.output = false) := by
  constructor
  · intro hgaps
    obtain ⟨g, hg⟩ := List.exists_mem_of_ne_nil _ hgaps
    by_cases hheading : g = .sourcesNotDocumented
    · rw [hheading] at hg
      rcases mem_gaps_gradeChecks.mp hg with ⟨-, hchecks, -, hmissing⟩ | h
      · exact .inr ⟨hchecks, hmissing⟩
      · simp at h
    · exact .inl ((faulty_gradeChecks h).mp ⟨g, hg, hheading⟩)
  · rintro (hfaulty | ⟨hchecks, hmissing⟩)
    · obtain ⟨g, hg, -⟩ := (faulty_gradeChecks h).mpr hfaulty
      exact List.ne_nil_of_mem hg
    · by_cases hbullets : c.uncheckable parsed = []
      · exact List.ne_nil_of_mem
          (mem_gaps_gradeChecks.mpr (.inl ⟨rfl, hchecks, hbullets, hmissing⟩))
      · exact List.ne_nil_of_mem (mem_gaps_gradeChecks.mpr (.inr (.inl ⟨rfl, hbullets⟩)))

theorem repairable_of_gaps (h : evidence.gaps ≠ []) :
    c.repairable evidence = evidence.actionable := by
  rw [Call.repairable, if_pos]
  simpa using h

theorem repairable_of_none (h : evidence.gaps = []) :
    c.repairable evidence = true ↔ missingSections c.output ≠ [] := by
  rw [Call.repairable, h]
  simp

/-- What can be repaired in findings that were checked. -/
theorem repairable_checked {base : EvidenceBase} {parsed : ParsedFindings}
    {checks : List CheckedFinding} (h : c.Checks src rt w base parsed checks) :
    c.repairable (gradeChecks rt repoReview c.output (c.uncheckable parsed) checks) = true ↔
      c.Repairs src rt w ∧ ¬ c.Stuck src rt w := by
  have hstuck : c.Stuck src rt w ↔ c.restsOnLost src rt w := by
    refine ⟨fun hstuck ↦ ?_, .lost⟩
    cases hstuck with
    | lost hlost => exact hlost
    | unobserved _ hnone =>
      obtain ⟨hb, -⟩ | ⟨base', hb, hempty⟩ := hnone
      · rw [h.grounded] at hb
        cases hb
      · obtain rfl := Option.some.inj (h.grounded.symm.trans hb)
        rw [h.graded.notEmpty] at hempty
        cases hempty
    | unchecked _ hb =>
      rw [h.grounded] at hb
      cases hb
  have hrepairs : c.Repairs src rt w ↔
      (gradeChecks rt repoReview c.output (c.uncheckable parsed) checks).gaps ≠ [] ∨
        missingSections c.output ≠ [] := by
    rw [gaps_gradeChecks_ne_nil h]
    constructor
    · intro hrepairs
      cases hrepairs with
      | findings hfaulty => exact .inl (.inl hfaulty)
      | heading h' hmissing =>
        obtain ⟨-, -, rfl⟩ := h.unique h'
        exact .inl (.inr ⟨rfl, hmissing⟩)
      | bare _ hb =>
        rw [h.grounded] at hb
        cases hb
      | sections hmissing => exact .inr hmissing
    · rintro ((hfaulty | ⟨rfl, hmissing⟩) | hmissing)
      · exact .findings hfaulty
      · exact .heading h hmissing
      · exact .sections hmissing
  rw [hstuck, hrepairs, (restsOnLost_iff h).trans blockingStatuses_ne_nil.symm]
  by_cases hgaps : (gradeChecks rt repoReview c.output (c.uncheckable parsed) checks).gaps = []
  · have hsound : blockingStatuses (checks.filter fun f ↦ !f.isSound) = [] := by
      by_contra hlost
      exact (blocked_gradeChecks hlost).2.1 hgaps
    rw [repairable_of_none hgaps, hgaps, hsound]
    simp
  · rw [repairable_of_gaps hgaps]
    constructor
    · intro hactionable
      refine ⟨.inl hgaps, fun hlost ↦ ?_⟩
      rw [(blocked_gradeChecks hlost).2.2] at hactionable
      cases hactionable
    · exact fun hquiet ↦ actionable_gradeChecks hgaps (not_not.mp hquiet.2)

/-- What can be repaired where there is no base. -/
theorem repairable_bare (hr : c.route = some .repoReview) (hb : c.evidenceBase = none)
    (h : c.evidence src rt w = (.ok evidence, w')) :
    c.repairable evidence = true ↔ c.Repairs src rt w ∧ ¬ c.Stuck src rt w := by
  have hnone : ∀ {base parsed checks}, ¬ c.Checks src rt w base parsed checks := fun hchecks ↦ by
    have hgrounded := hchecks.grounded
    rw [hb] at hgrounded
    cases hgrounded
  have hrepairs : c.Repairs src rt w ↔ (c.LacksBlock rt ∨
      (c.bullets = [] ∧ contains repoReview.evidenceHeading c.output = false) ∨
        (c.bullets ≠ [] ∧ ¬ c.NamesSources rt)) ∨ missingSections c.output ≠ [] := by
    constructor
    · intro hrepairs
      cases hrepairs with
      | findings hfaulty => exact absurd hb hfaulty.grounded
      | heading hchecks => exact absurd hchecks hnone
      | bare _ _ hbare => exact .inl hbare
      | sections hmissing => exact .inr hmissing
    · rintro (hbare | hmissing)
      · exact .bare hr hb hbare
      · exact .sections hmissing
  have hstuck : c.Stuck src rt w ↔ observedSources c.observations = [] ∨
      (¬ c.LacksBlock rt ∧ c.bullets ≠ [] ∧ c.NamesSources rt) := by
    constructor
    · intro hstuck
      cases hstuck with
      | lost hlost =>
        obtain ⟨_, _, _, hchecks, -⟩ := hlost
        exact absurd hchecks hnone
      | unobserved _ hempty =>
        obtain ⟨-, hsources⟩ | ⟨base, hbase, -⟩ := hempty
        · exact .inl hsources
        · rw [hb] at hbase
          cases hbase
      | unchecked _ _ hlacks hbullets hnames => exact .inr ⟨hlacks, hbullets, hnames⟩
    · rintro (hsources | ⟨hlacks, hbullets, hnames⟩)
      · exact .unobserved hr (.inl ⟨hb, hsources⟩)
      · exact .unchecked hr hb hlacks hbullets hnames
  rw [hrepairs, hstuck]
  rcases gradeCitations_cases hr hb h with ⟨hsources, rfl⟩ | ⟨hsources, hlacks, rfl⟩ |
    ⟨hsources, hlacks, hbullets, ⟨hmissing, rfl⟩ | ⟨hheading, rfl⟩⟩ |
    ⟨hsources, hlacks, hbullets, _, _, ⟨hnames, rfl⟩ | ⟨hnames, rfl⟩⟩
  · rw [repairable_of_gaps (List.cons_ne_nil _ _)]
    simp [hsources]
  · rw [repairable_of_gaps (List.cons_ne_nil _ _)]
    simp [hsources, hlacks, missingBlock]
  · rw [repairable_of_gaps (List.cons_ne_nil _ _)]
    simp [hsources, hlacks, hbullets, hmissing]
  · rw [repairable_of_none rfl]
    simp [hsources, hlacks, hbullets, hheading]
  · rw [repairable_of_gaps (List.cons_ne_nil _ _)]
    simp [hsources, hlacks, hbullets, hnames]
  · rw [repairable_of_gaps (List.cons_ne_nil _ _)]
    simp [hsources, hlacks, hbullets, hnames]

/-- **The producer has something to repair** exactly when something is at fault that a wording
closes and nothing is that no wording closes. -/
theorem repairable_iff (h : c.evidence src rt w = (.ok evidence, w')) :
    c.repairable evidence = true ↔ c.Repairs src rt w ∧ ¬ c.Stuck src rt w := by
  by_cases hr : c.route = some .repoReview
  · cases hb : c.evidenceBase with
    | none => exact repairable_bare hr hb h
    | some base =>
      rcases evidence_cases hr hb h with ⟨hempty, rfl⟩ | ⟨hempty, parsed, hreads, hunreadable,
        rfl⟩ |
        ⟨hempty, parsed, checks, hreads, hreadable, hchecked, rfl⟩
      · rw [repairable_of_gaps (List.cons_ne_nil _ _)]
        refine iff_of_false Bool.false_ne_true fun hquiet ↦ hquiet.2 ?_
        exact .unobserved hr (.inr ⟨base, hb, hempty⟩)
      · rw [repairable_of_gaps (List.cons_ne_nil _ _)]
        refine iff_of_true rfl ⟨.findings (.block hr hb hempty hreads hunreadable), fun hstuck ↦ ?_⟩
        cases hstuck with
        | lost hlost =>
          obtain ⟨base', parsed', _, hchecks, -⟩ := hlost
          obtain rfl := Except.ok.inj (hreads.symm.trans hchecks.graded.reads)
          rw [Call.unreadable, hchecks.graded.readable] at hunreadable
          cases hunreadable
        | unobserved _ hnone =>
          obtain ⟨hb', -⟩ | ⟨base', hb', hempty'⟩ := hnone
          · rw [hb] at hb'
            cases hb'
          · obtain rfl := Option.some.inj (hb.symm.trans hb')
            rw [hempty] at hempty'
            cases hempty'
        | unchecked _ hb' =>
          rw [hb] at hb'
          cases hb'
      · exact repairable_checked ⟨hr, hb, hempty, hreads, hreadable, by rw [hchecked]⟩
  · rw [Call.evidence, routeEvaluator_eq_none hr, gradeEvidence] at h
    obtain ⟨rfl, -⟩ := Eff.pure_eq_ok.mp h
    rw [repairable_of_none rfl]
    constructor
    · exact fun hmissing ↦ ⟨.sections hmissing, fun hstuck ↦ hr hstuck.onReview⟩
    · rintro ⟨hrepairs, -⟩
      cases hrepairs with
      | findings hfaulty => exact absurd hfaulty.onReview hr
      | heading hchecks => exact absurd hchecks.onReview hr
      | bare hr' => exact absurd hr' hr
      | sections hmissing => exact hmissing

/-- The records that count are those of findings that were settled. -/
theorem settles_iff {base : EvidenceBase} {review : ReviewPlan} {P : Str → Prop}
    (hb : c.evidenceBase = some base) (h : c.evidence src rt w = (.ok evidence, w')) :
    (∃ record ∈ evidence.citationChecks, recordOnTopic review base record = true ∧
      P (checkedText record)) ↔ c.Settles src rt w review P := by
  have hnone : evidence.citationChecks = [] → (∀ base' parsed checks,
      c.Checks src rt w base' parsed checks → False) →
        ((∃ record ∈ evidence.citationChecks, recordOnTopic review base record = true ∧
          P (checkedText record)) ↔ c.Settles src rt w review P) := by
    intro hrecords hchecks
    refine iff_of_false ?_ ?_
    · rintro ⟨record, hrecord, -⟩
      rw [hrecords] at hrecord
      cases hrecord
    · rintro ⟨base', parsed, checks, hchecks', -⟩
      exact hchecks _ _ _ hchecks'
  by_cases hr : c.route = some .repoReview
  · rcases evidence_cases hr hb h with ⟨hempty, rfl⟩ | ⟨-, parsed, hreads, hunreadable, rfl⟩ |
      ⟨hempty, parsed, checks, hreads, hreadable, hchecked, rfl⟩
    · refine hnone rfl fun base' _ _ hchecks ↦ ?_
      obtain rfl := Option.some.inj (hb.symm.trans hchecks.grounded)
      rw [hchecks.graded.notEmpty] at hempty
      cases hempty
    · refine hnone rfl fun base' parsed' _ hchecks ↦ ?_
      obtain rfl := Except.ok.inj (hreads.symm.trans hchecks.graded.reads)
      rw [Call.unreadable, hchecks.graded.readable] at hunreadable
      cases hunreadable
    · have hchecks : c.Checks src rt w base parsed checks :=
        ⟨hr, hb, hempty, hreads, hreadable, by rw [hchecked]⟩
      obtain ⟨hs, hnames⟩ := hchecks.ownWhereSound
      constructor
      · rintro ⟨record, hmem, hrecord, hP⟩
        obtain ⟨f, hlast, claim, hsettled, htext⟩ :=
          exists_settled hs hnames (mem_citationChecks_gradeChecks hmem) hrecord
        exact ⟨base, parsed, checks, hchecks, f, hlast, claim, hsettled, htext ▸ hP⟩
      · rintro ⟨base', parsed', checks', hchecks', f, hlast, claim, hsettled, hP⟩
        obtain ⟨rfl, rfl, rfl⟩ := hchecks.unique hchecks'
        obtain ⟨hrecord, htext⟩ := record_of_settled hnames hlast hsettled
        refine ⟨_, ?_, hrecord, htext ▸ hP⟩
        rw [citationChecks_gradeChecks]
        exact List.mem_map_of_mem hlast.mem
  · rw [Call.evidence, routeEvaluator_eq_none hr, gradeEvidence] at h
    obtain ⟨rfl, -⟩ := Eff.pure_eq_ok.mp h
    exact hnone rfl fun _ _ _ hchecks ↦ hr hchecks.onReview

/-! ## When the two agree

When the action of a grade is the one that what is left to be done calls for. -/

theorem offTopic_iff : c.offTopic rt evidence = true ↔
    .noOnTopicFinding ∈ c.gapCodes rt evidence ∨ .noAnsweringFinding ∈ c.gapCodes rt evidence := by
  rw [Call.offTopic, Bool.or_eq_true, decide_eq_true_eq, decide_eq_true_eq]

theorem mem_blamed_of_gap {g : Gap} {k : Criterion} (hg : g ∈ c.gapCodes rt evidence)
    (hk : k ∈ criterionForGap g) : k ∈ c.blamed rt evidence := by
  rw [Call.blamed, List.mem_append]
  exact .inr (List.mem_flatMap.mpr ⟨g, hg, hk⟩)

/-- An answer is off the topic where a criterion of the question was looked at and not met. -/
theorem of_offTopic (hof : ∀ g ∈ evidence.gaps, g.isOfEvidence = true)
    (h : c.offTopic rt evidence = true) : c.waitingOn = [] ∧
      (∃ base, c.evidenceBase = some base) ∧ (∃ review, c.review = some review) ∧
      ∃ k ∈ c.declared, k ∈ c.blamed rt evidence := by
  have hsome : ∀ (finding : Option ReviewPlan → Evidence → Option EvidenceBase → Bool),
      (∀ base, finding none evidence base = true) →
      (∀ review, finding review evidence none = true) →
      finding c.review evidence c.evidenceBase = false →
        (∃ base, c.evidenceBase = some base) ∧ ∃ review, c.review = some review := by
    intro finding hreview hbase hfalse
    cases hr : c.review with
    | none =>
      rw [hr, hreview] at hfalse
      cases hfalse
    | some review =>
      cases hb : c.evidenceBase with
      | none =>
        rw [hb, hbase] at hfalse
        cases hfalse
      | some base => exact ⟨⟨base, rfl⟩, review, rfl⟩
  rcases offTopic_iff.mp h with hgap | hgap
  · obtain ⟨hnarrowed, hwaiting, hfalse⟩ := (noOnTopic_mem hof).mp hgap
    obtain ⟨hbase, hreview⟩ :=
      hsome onTopicFinding (fun _ ↦ rfl) (fun r ↦ by cases r <;> rfl) hfalse
    exact ⟨hwaiting, hbase, hreview, .findingsAreOnTopic, onTopic_declared.mpr hnarrowed,
      mem_blamed_of_gap hgap (by decide)⟩
  · obtain ⟨-, hdeclared, hwaiting, hfalse⟩ := (noAnswering_mem hof).mp hgap
    obtain ⟨hbase, hreview⟩ := hsome (answeringFinding rt) (fun _ ↦ rfl)
      (fun r ↦ by cases r <;> rfl) hfalse
    exact ⟨hwaiting, hbase, hreview, .findingsAnswerTheQuestion, hdeclared,
      mem_blamed_of_gap hgap (by decide)⟩

theorem not_passed (hunmet : ∃ k ∈ c.declared, k ∈ c.blamed rt evidence) :
    (c.assess rt evidence).passed = false := by
  rw [Bool.eq_false_iff]
  intro hpassed
  obtain ⟨k, hdeclared, hblamed⟩ := hunmet
  exact (passed_iff.mp hpassed).1 k hdeclared hblamed

/-- When another pass could act on something. -/
theorem retryIsPossible_iff : (c.assess rt evidence).retryIsPossible = true ↔
    requiresWriteApproval rt c.task = false ∧ (∃ k ∈ c.declared, k ∈ c.blamed rt evidence) ∧
      (c.offTopic rt evidence = true ∨ c.repairable evidence = true) := by
  show (!(c.assess rt evidence).passed && !requiresWriteApproval rt c.task &&
    (c.offTopic rt evidence || c.repairable evidence)) = true ↔ _
  rw [Bool.and_eq_true, Bool.and_eq_true, Bool.not_eq_true', Bool.not_eq_true', Bool.or_eq_true]
  constructor
  · rintro ⟨⟨hfailed, happroval⟩, hact⟩
    refine ⟨happroval, ?_, hact⟩
    by_contra hmet
    push Not at hmet
    rw [passed_iff.mpr ⟨hmet, happroval⟩] at hfailed
    cases hfailed
  · rintro ⟨happroval, hunmet, hact⟩
    exact ⟨⟨not_passed hunmet, happroval⟩, hact⟩

/-- What is outstanding has an action, where something of it could be repaired. -/
theorem exists_nextAction (hunmet : ∃ k ∈ c.declared, k ∈ c.blamed rt evidence)
    (hact : c.offTopic rt evidence = true ∨ c.repairable evidence = true) :
    ∃ action, (c.assess rt evidence).nextAction = some action ∧
      (action.kind, action.actor, action.details) = chooseAction (missingSections c.output) evidence
        (observedSources c.observations) c.evidenceBase c.review c.waitingOn
        (c.offTopic rt evidence) := by
  have hnext : (c.assess rt evidence).nextAction = nextActionOf (missingSections c.output) evidence
      (observedSources c.observations) c.evidenceBase c.review c.waitingOn
      (c.offTopic rt evidence) := by
    show (if (c.assess rt evidence).passed = true then none else _) = _
    rw [not_passed hunmet, if_neg Bool.false_ne_true]
    rfl
  rw [hnext, nextActionOf]
  have hcodes : ((if c.waitingOn ≠ [] then [GapCode.gap .planTargetsUnread] else []) ++
      evidence.gaps.map .gap ++ (missingSections c.output).map .missing ++
      (if c.offTopic rt evidence = true then [.gap .noOnTopicFinding] else [])) ≠ [] := by
    rcases hact with hoff | hrepair
    · rw [if_pos hoff]
      simp
    · rw [Call.repairable] at hrepair
      split at hrepair
      · rename_i hgaps
        have hne : evidence.gaps ≠ [] := by
          simpa using hgaps
        simp [hne]
      · have hne : missingSections c.output ≠ [] := by
          simpa using hrepair
        simp [hne]
  rw [dif_neg hcodes]
  exact ⟨_, rfl, rfl⟩

/-- Where the producer acts, nothing is left that only the host could do. -/
theorem GradeActs.quiet (hproducer : GradeActs src rt c w evidence)
    (hfacts : GradeFacts src rt c w evidence)
    (hunmet : ∃ k ∈ c.declared, k ∈ c.blamed rt evidence)
    (hact : c.offTopic rt evidence = true ∨ c.repairable evidence = true) :
    c.waitingOn = [] ∧ .claimsNotChecked ∉ evidence.gaps ∧ evidence.blockedBy = [] := by
  -- what has gaps is repairable only if its grade says so
  have hrepairable : evidence.gaps ≠ [] → evidence.actionable = false →
      c.repairable evidence = false := by
    intro hgaps hstuck
    rw [Call.repairable, if_pos, hstuck]
    simpa using hgaps
  refine ⟨?_, fun hgap ↦ ?_, ?_⟩
  · by_contra hwaiting
    rcases hact with hoff | hrepair
    · exact hwaiting (of_offTopic hfacts.ofEvidence hoff).1
    · rw [hproducer.waiting hwaiting hunmet] at hrepair
      cases hrepair
  · obtain ⟨hstuck, hbase⟩ := hfacts.notChecked hgap
    rcases hact with hoff | hrepair
    · obtain ⟨-, ⟨base, hb⟩, -⟩ := of_offTopic hfacts.ofEvidence hoff
      rw [hbase] at hb
      cases hb
    · rw [hrepairable (List.ne_nil_of_mem hgap) hstuck] at hrepair
      cases hrepair
  · by_contra hblocked
    rcases hact with hoff | hrepair
    · exact hproducer.lost hoff (hfacts.blocked.mp hblocked)
    · obtain ⟨hgaps, hstuck⟩ := hfacts.stops hblocked
      rw [hrepairable hgaps hstuck] at hrepair
      cases hrepair

/-- A retry is honest exactly when the grade leaves nothing that only the host could do. -/
theorem retryHonest_iff_grade (hevidence : c.evidence src rt w = (.ok evidence, w')) :
    RetryHonest (c.assess rt evidence) ↔
      (requiresWriteApproval rt c.task = false → GradeActs src rt c w evidence) := by
  have hfacts := gradeFacts hevidence
  constructor
  · intro hhonest happroval
    refine ⟨fun hwaiting hunmet ↦ ?_, fun hoff hlost ↦ ?_, fun hoff review hreview hwindows ↦ ?_⟩
    · by_contra hrepair
      have hrepair : c.repairable evidence = true := Bool.not_eq_false _ ▸ hrepair
      obtain ⟨action, hnext, hkind, -⟩ :=
        hhonest.act (retryIsPossible_iff.mpr ⟨happroval, hunmet, .inr hrepair⟩)
      obtain ⟨action', hnext', hchosen⟩ := exists_nextAction hunmet (.inr hrepair)
      obtain rfl := Option.some.inj (hnext.symm.trans hnext')
      rw [show action.kind = .observeAgain from
        (congrArg Prod.fst hchosen).trans (chooseAction_waiting hwaiting)] at hkind
      cases hkind
    · obtain ⟨-, -, -, hunmet⟩ := of_offTopic hfacts.ofEvidence hoff
      exact hfacts.blocked.mpr hlost
        (hhonest.unblocked (retryIsPossible_iff.mpr ⟨happroval, hunmet, .inl hoff⟩))
    · obtain ⟨-, -, -, hunmet⟩ := of_offTopic hfacts.ofEvidence hoff
      by_contra hgaps
      push Not at hgaps
      have hsettled := hfacts.settled hgaps
      obtain ⟨action, hnext, hkind, -⟩ :=
        hhonest.act (retryIsPossible_iff.mpr ⟨happroval, hunmet, .inl hoff⟩)
      obtain ⟨action', hnext', hchosen⟩ := exists_nextAction hunmet (.inl hoff)
      obtain rfl := Option.some.inj (hnext.symm.trans hnext')
      rw [hreview, hoff] at hchosen
      have hread : action.kind = .observeAgain := (congrArg Prod.fst hchosen).trans
        (chooseAction_windows (fun hg ↦ absurd (hgaps _ hg) (by decide))
          (fun r hr v hv ↦ (hsettled r hr).2 v hv) (fun r hr ↦ (hsettled r hr).1) hgaps hwindows)
      rw [hread] at hkind
      cases hkind
  · intro hacts
    refine ⟨fun hretry ↦ ?_, fun hpossible ↦ ?_, fun hpossible ↦ ?_⟩
    · exact (Bool.and_eq_true_iff.mp (show ((c.assess rt evidence).retryIsPossible &&
        c.iteration < c.maxIterations) = true from hretry)).1
    · obtain ⟨happroval, hunmet, hrepair⟩ := retryIsPossible_iff.mp hpossible
      have hproducer := hacts happroval
      obtain ⟨hwaiting, hchecked, hblocked⟩ := hproducer.quiet hfacts hunmet hrepair
      obtain ⟨action, hnext, hchosen⟩ := exists_nextAction hunmet hrepair
      obtain ⟨hkind, hactor⟩ := chooseAction_producer (missingSections c.output)
        (observedSources c.observations) hwaiting hchecked hblocked hproducer.partlyRead
      rw [← hchosen] at hkind hactor
      exact ⟨action, hnext, hkind, hactor⟩
    · obtain ⟨happroval, hunmet, hrepair⟩ := retryIsPossible_iff.mp hpossible
      exact ((hacts happroval).quiet hfacts hunmet hrepair).2.2

/-! ## The condition on the call

The same, said of the output, the base and what the sources read as, and of no value that the call
computes. -/

theorem onTopicFinding_eq_false {base : EvidenceBase} {review : ReviewPlan}
    (hreview : c.review = some review) (hb : c.evidenceBase = some base)
    (hn : review.narrowed = true) (h : c.evidence src rt w = (.ok evidence, w')) :
    onTopicFinding c.review evidence c.evidenceBase = false ↔
      ¬ c.Settles src rt w review (fun _ ↦ True) := by
  rw [← settles_iff hb h, hreview, hb]
  simp [onTopicFinding, hn]

theorem answeringFinding_eq_false {base : EvidenceBase} {review : ReviewPlan}
    (hreview : c.review = some review) (hb : c.evidenceBase = some base)
    (hn : review.narrowed = true) (h : c.evidence src rt w = (.ok evidence, w')) :
    answeringFinding rt c.review evidence c.evidenceBase = false ↔ review.answering ≠ [] ∧
      ¬ c.Settles src rt w review (answersQuestion rt review · = true) := by
  rw [← settles_iff hb h, hreview, hb]
  simp [answeringFinding, hn]

/-- **An answer is off the topic** where nothing that was settled is about the question, or answers
it. -/
theorem offTopic_iff_missesQuestion (hof : ∀ g ∈ evidence.gaps, g.isOfEvidence = true)
    (h : c.evidence src rt w = (.ok evidence, w')) :
    c.offTopic rt evidence = true ↔ c.MissesQuestion src rt w := by
  constructor
  · intro hoff
    obtain ⟨hwaiting, ⟨base, hb⟩, ⟨review, hreview⟩, -⟩ := of_offTopic hof hoff
    have hnarrowed : review.narrowed = true := by
      have hdeclared : c.narrowed = true := by
        rcases offTopic_iff.mp hoff with hgap | hgap
        · exact ((noOnTopic_mem hof).mp hgap).1
        · exact onTopic_declared.mp (answers_declared ((noAnswering_mem hof).mp hgap).2.1)
      rwa [Call.narrowed, hreview] at hdeclared
    refine ⟨review, base, hreview, hb, hnarrowed, hwaiting, ?_⟩
    rcases offTopic_iff.mp hoff with hgap | hgap
    · exact .inl ((onTopicFinding_eq_false hreview hb hnarrowed h).mp
        ((noOnTopic_mem hof).mp hgap).2.2)
    · exact .inr ((answeringFinding_eq_false hreview hb hnarrowed h).mp
        ((noAnswering_mem hof).mp hgap).2.2.2)
  · rintro ⟨review, base, hreview, hb, hnarrowed, hwaiting, hmissed⟩
    have hn : c.narrowed = true := by
      rw [Call.narrowed, hreview]
      exact hnarrowed
    rw [offTopic_iff]
    by_cases hgap : .noOnTopicFinding ∈ c.gapCodes rt evidence
    · exact .inl hgap
    rcases hmissed with hsettles | ⟨hasked, hsettles⟩
    · exact .inl ((noOnTopic_mem hof).mpr
        ⟨hn, hwaiting, (onTopicFinding_eq_false hreview hb hnarrowed h).mpr hsettles⟩)
    · refine .inr ((noAnswering_mem hof).mpr ⟨hgap, ?_, hwaiting,
        (answeringFinding_eq_false hreview hb hnarrowed h).mpr ⟨hasked, hsettles⟩⟩)
      rw [Call.declared, hreview, criteriaFor, if_pos hnarrowed,
        List.isEmpty_eq_false_iff.mpr hasked]
      exact List.mem_append_right _ List.mem_cons_self

/-- With a base that has something in it, a gap that is more than the missing heading is a fault of
the findings. -/
theorem faulty_of_grade {base : EvidenceBase} (hb : c.evidenceBase = some base)
    (hempty : base.isEmpty = false) (h : c.evidence src rt w = (.ok evidence, w')) :
    (∃ g ∈ evidence.gaps, g ≠ .sourcesNotDocumented) ↔ c.FaultyFindings src rt w := by
  by_cases hr : c.route = some .repoReview
  · rcases evidence_cases hr hb h with ⟨hnone, -⟩ | ⟨-, parsed, hreads, hunreadable, rfl⟩ |
      ⟨-, parsed, checks, hreads, hreadable, hchecked, rfl⟩
    · rw [hempty] at hnone
      cases hnone
    · exact iff_of_true ⟨_, List.mem_cons_self, by decide⟩
        (.block hr hb hempty hreads hunreadable)
    · exact faulty_gradeChecks ⟨hr, hb, hempty, hreads, hreadable, by rw [hchecked]⟩
  · rw [Call.evidence, routeEvaluator_eq_none hr, gradeEvidence] at h
    obtain ⟨rfl, -⟩ := Eff.pure_eq_ok.mp h
    refine iff_of_false ?_ fun hfaulty ↦ hr hfaulty.onReview
    rintro ⟨g, hg, -⟩
    cases hg

/-- A call that waits and could be repaired has something to repair, and has not met it. -/
theorem unmet_of_waiting (h : c.evidence src rt w = (.ok evidence, w'))
    (hwaiting : c.waitingOn ≠ [])
    (hrepair : c.repairable evidence = true) : ∃ k ∈ c.declared, k ∈ c.blamed rt evidence := by
  by_cases hr : c.route = some .repoReview
  · refine ⟨.planTargetsRead, mem_declared_of_route (by rw [hr]; decide),
      mem_blamed_of_gap (g := .planTargetsUnread) ?_ (by decide)⟩
    · rw [Call.gapCodes, if_pos hwaiting]
      exact List.mem_append_left _ (List.mem_append_left _ List.mem_cons_self)
  · rw [Call.evidence, routeEvaluator_eq_none hr, gradeEvidence] at h
    obtain ⟨rfl, -⟩ := Eff.pure_eq_ok.mp h
    obtain ⟨s, hs⟩ := List.exists_mem_of_ne_nil _ ((repairable_of_none rfl).mp hrepair)
    refine ⟨.required s, mem_declared_of_route ?_, ?_⟩
    · rcases c.route with _ | r
      · cases s <;> decide
      · cases r <;> cases s <;> decide
    · rw [Call.blamed]
      exact List.mem_append_left _ (List.mem_append_right _ (List.mem_map_of_mem hs))

theorem gradeActs_iff (h : c.evidence src rt w = (.ok evidence, w')) :
    GradeActs src rt c w evidence ↔ ProducerActs src rt c w := by
  have hmissed := offTopic_iff_missesQuestion (gradeFacts h).ofEvidence h
  have hwindows : c.MissesQuestion src rt w →
    ∀ review, nextPartialWindows c.evidenceBase review ≠ [] →
      ((∃ g ∈ evidence.gaps, g ≠ .sourcesNotDocumented) ↔ c.FaultyFindings src rt w) := by
    rintro ⟨_, base, -, hb, -⟩ review hwindows
    refine faulty_of_grade hb ?_ h
    rw [hb] at hwindows
    refine Bool.eq_false_iff.mpr fun hempty ↦ hwindows ?_
    rw [nextPartialWindows, List.isEmpty_iff.mp hempty]
    rfl
  constructor
  · rintro ⟨hwaiting, hlost, hread⟩
    refine ⟨fun hunread hrepairs ↦ ?_, fun hmisses ↦ hlost (hmissed.mpr hmisses),
      fun hmisses review hreview hpartial ↦ (hwindows hmisses review hpartial).mp
        (hread (hmissed.mpr hmisses) review hreview hpartial)⟩
    by_contra hstuck
    have hrepair := (repairable_iff h).mpr ⟨hrepairs, hstuck⟩
    rw [hwaiting hunread (unmet_of_waiting h hunread hrepair)] at hrepair
    cases hrepair
  · rintro ⟨hunread, hlost, hread⟩
    refine ⟨fun hwaiting _ ↦ ?_, fun hoff ↦ hlost (hmissed.mp hoff),
      fun hoff review hreview hpartial ↦ (hwindows (hmissed.mp hoff) review hpartial).mpr
        (hread (hmissed.mp hoff) review hreview hpartial)⟩
    by_contra hrepair
    obtain ⟨hrepairs, hstuck⟩ := (repairable_iff h).mp (Bool.not_eq_false _ ▸ hrepair)
    exact hstuck (hunread hwaiting hrepairs)

/-- **A retry is honest exactly when the producer acts.** -/
theorem retryHonest_iff {e : AtlasEvaluation} (h : evaluate src rt c w = (.ok e, w')) :
    RetryHonest e ↔ (requiresWriteApproval rt c.task = false → ProducerActs src rt c w) := by
  obtain ⟨evidence, hevidence, rfl⟩ := evaluate_eq_ok.mp h
  rw [retryHonest_iff_grade hevidence, gradeActs_iff hevidence]

end

/-! ## Two calls

A call that may be tried again though only the host can do anything about it, and one that may and
should. -/

/-- A disk on which the file has changed. -/
def changedDisk : Sources Unit where
  readWithin := fun _ _ ↦ return str "z\n"
  reader := fun _ ↦ Eff.raise .osError

theorem filePlan_named : isBlank (str "s1") = false := by decide

/-- A plan that asks about one file, and says what an answer is. -/
def filePlan : ReviewPlan where
  snapshotId := str "s1"
  topic := str "documentation"
  question := str "Does a.txt say x?"
  patterns := [str "a.txt"]
  answering := []
  hasQuestion := by decide
  hasSnapshot := filePlan_named
  bounded := by decide

/-- An answer to it that rests on what was read before the file changed. -/
def staleCall : Call :=
  { bareCall firstLine (blockOf [findingItem [(str "typed_claim", containsX)]]) with
    review := some filePlan }

/-- A result that offers another pass although a source is lost. -/
def AtlasEvaluation.retriesBlocked (e : AtlasEvaluation) : Bool :=
  e.retryIsPossible && !e.blockedBy.isEmpty

/-- Another pass is offered for an answer that rests on a changed file. -/
theorem staleSource_retried : ∃ e, evaluate changedDisk asciiRuntime staleCall () = (.ok e, ()) ∧
    ¬ RetryHonest e := by
  have hretried : (evaluate changedDisk asciiRuntime staleCall ()).1.toOption.any
      (·.retriesBlocked) = true := by decide +kernel
  rcases hrun : evaluate changedDisk asciiRuntime staleCall () with ⟨error | e, ⟨⟩⟩
  · rw [hrun] at hretried
    cases hretried
  · rw [hrun] at hretried
    refine ⟨e, rfl, fun hhonest ↦ ?_⟩
    have hboth := Bool.and_eq_true_iff.mp (show (e.retryIsPossible && !e.blockedBy.isEmpty) = true
      from hretried)
    rw [hhonest.unblocked hboth.1] at hboth
    exact Bool.false_ne_true hboth.2

/-- An answer to a general task that is too short. -/
def shortCall : Call where
  task := []
  output := str "x"
  iteration := 1
  maxIterations := 2
  route := none
  observations := []
  evidenceBase := none
  review := none
  resolvedPatterns := []
  structuredOutputRequired := false
  findingsSource := []

theorem retryHonest_iff_short : ∃ e, evaluate twoLineDisk asciiRuntime shortCall () = (.ok e, ()) ∧
    e.retryIsPossible = true ∧
    (RetryHonest e ↔ (requiresWriteApproval asciiRuntime shortCall.task = false →
      ProducerActs twoLineDisk asciiRuntime shortCall ())) :=
  ⟨_, rfl, by decide +kernel, retryHonest_iff rfl⟩

end AtlasCore
